import Playground.Proofs.MarkerWords
/-!
# Extraction is bracket matching

Regions are described without a scan: a start line and a later end line belong together when the
markers between them are balanced.  The scan of a file finds one region for each such pair, in the
order of the start lines, unless a name is started twice.
-/

namespace Playground.Region

open Text

/-! ## 1. Balanced words -/

/-- Words of markers in which every start has its end and every end its start. -/
inductive Balanced : List Marker → Prop where
  | nil : Balanced []
  | block (name : List Char) {inner rest : List Marker} (hinner : Balanced inner)
      (hrest : Balanced rest) : Balanced (.start name :: inner ++ .stop :: rest)

theorem Balanced.closes_append {ms : List Marker} (h : Balanced ms) (depth : Nat)
    (behind : List Marker) : closes depth (ms ++ behind) = closes depth behind := by
  induction h generalizing depth behind with
  | nil => rfl
  | block name _ _ ihinner ihrest =>
    rw [List.append_assoc, List.cons_append, List.cons_append, closes, ihinner, closes, ihrest]

/-- The open region that `closes` counts on top is closed by the first end behind a balanced
word. -/
theorem exists_split_of_closes {ms : List Marker} {depth : Nat}
    (h : closes (depth + 1) ms = true) :
    ∃ inner rest, ms = inner ++ .stop :: rest ∧ Balanced inner ∧ closes depth rest = true := by
  -- on the length: behind a start the rest is split twice
  induction hn : ms.length using Nat.strong_induction_on generalizing ms depth with
  | _ n ih =>
    cases ms with
    | nil => cases h
    | cons m ms =>
      rw [List.length_cons] at hn
      cases m with
      | stop => exact ⟨[], ms, rfl, .nil, h⟩
      | start name =>
        rw [closes] at h
        obtain ⟨a, b, hms, ha, hb⟩ := ih ms.length (by omega) h rfl
        have hlt : b.length < n := by
          rw [hms, List.length_append, List.length_cons] at hn
          omega
        obtain ⟨c, rest, hb', hc, hrest⟩ := ih b.length hlt hb rfl
        refine ⟨.start name :: a ++ .stop :: c, rest, ?_, .block name ha hc, hrest⟩
        rw [hms, hb']
        simp

theorem balanced_iff_closes {ms : List Marker} : Balanced ms ↔ closes 0 ms = true := by
  constructor
  · intro h
    rw [← List.append_nil ms, h.closes_append]
    rfl
  · intro h
    induction hn : ms.length using Nat.strong_induction_on generalizing ms with
    | _ n ih =>
      cases ms with
      | nil => exact .nil
      | cons m ms =>
        cases m with
        | stop => cases h
        | start name =>
          rw [closes] at h
          obtain ⟨inner, rest, hms, hinner, hrest⟩ := exists_split_of_closes h
          have hlt : rest.length < n := by
            rw [← hn, hms, List.length_cons, List.length_append, List.length_cons]
            omega
          rw [hms]
          exact .block name hinner (ih rest.length hlt hrest rfl)

/-- A balanced word has no balanced word with an end behind it in front. -/
theorem Balanced.not_prefix {inner behind : List Marker} (hinner : Balanced inner) :
    ¬Balanced (inner ++ .stop :: behind) := by
  intro h
  have hcloses := balanced_iff_closes.mp h
  rw [hinner.closes_append] at hcloses
  cases hcloses

instance (ms : List Marker) : Decidable (Balanced ms) :=
  decidable_of_iff _ balanced_iff_closes.symm

/-! ## 2. Lines that belong together -/

/-- Line `i` starts a region of the name. -/
def Starts (ls : List (List Char)) (i : Nat) (name : List Char) : Prop :=
  ls[i]?.bind Marker.ofLine? = some (.start name)

/-- Line `j` ends a region. -/
def Stops (ls : List (List Char)) (j : Nat) : Prop :=
  ls[j]?.bind Marker.ofLine? = some .stop

/-- A start line, an end line, and the name of the region between them. -/
structure Pair where
  opening : Nat
  closing : Nat
  name : List Char
deriving DecidableEq, Repr

/-- The lines of the pair belong together: the markers strictly between them are balanced. -/
structure Pair.Matches (ls : List (List Char)) (p : Pair) : Prop where
  lt : p.opening < p.closing
  starts : Starts ls p.opening p.name
  stops : Stops ls p.closing
  balanced : Balanced (markers ((ls.take p.closing).drop (p.opening + 1)))

/-- The offset at which line `i` begins. -/
def lineStart (ls : List (List Char)) (i : Nat) : Nat :=
  byteLength (ls.take i).flatten

/-- The region from the end of the start line to the beginning of the end line. -/
def Pair.region (file : String) (ls : List (List Char)) (p : Pair) : Region :=
  ⟨.region file (String.ofList p.name),
    .ofBounds (lineStart ls (p.opening + 1)) (lineStart ls p.closing), file⟩

theorem Starts.lt_length {ls : List (List Char)} {i : Nat} {name : List Char}
    (h : Starts ls i name) : i < ls.length := by
  by_contra hge
  rw [Starts, List.getElem?_eq_none (by omega)] at h
  cases h

theorem starts_append_length {front : List (List Char)} {l name : List Char}
    (h : Marker.ofLine? l = some (.start name)) (later : List (List Char)) :
    Starts (front ++ l :: later) front.length name := by
  rw [Starts, List.getElem?_append_right (Nat.le_refl _), Nat.sub_self]
  exact h

theorem stops_append_length {front : List (List Char)} {l : List Char}
    (h : Marker.ofLine? l = some .stop) (later : List (List Char)) :
    Stops (front ++ l :: later) front.length := by
  rw [Stops, List.getElem?_append_right (Nat.le_refl _), Nat.sub_self]
  exact h

/-- Lines that belong together cut the list of lines in five parts. -/
theorem Pair.matches_iff {ls : List (List Char)} {p : Pair} :
    p.Matches ls ↔ ∃ before opening inner closing behind,
      ls = before ++ (opening :: inner ++ closing :: behind) ∧ before.length = p.opening ∧
      (before ++ opening :: inner).length = p.closing ∧
      Marker.ofLine? opening = some (.start p.name) ∧ Marker.ofLine? closing = some .stop ∧
      Balanced (markers inner) := by
  constructor
  · intro h
    obtain ⟨opening, hopening, hstarts⟩ := Option.bind_eq_some_iff.mp h.starts
    obtain ⟨closing, hclosing, hstops⟩ := Option.bind_eq_some_iff.mp h.stops
    obtain ⟨hj, rfl⟩ := List.getElem?_eq_some_iff.mp hclosing
    obtain ⟨hi, rfl⟩ := List.getElem?_eq_some_iff.mp hopening
    have hlt := h.lt
    -- the part before the end line is cut again at the start line
    have hinner : (ls.take p.closing) =
        ls.take p.opening ++ ls[p.opening] :: (ls.take p.closing).drop (p.opening + 1) := by
      have hi' : p.opening < (ls.take p.closing).length := by
        rw [List.length_take]
        omega
      have hcut := List.take_append_drop p.opening (ls.take p.closing)
      rw [List.drop_eq_getElem_cons hi', List.getElem_take, List.take_take,
        Nat.min_eq_left (by omega)] at hcut
      exact hcut.symm
    refine ⟨ls.take p.opening, ls[p.opening], (ls.take p.closing).drop (p.opening + 1),
      ls[p.closing], ls.drop (p.closing + 1), ?_, ?_, ?_, hstarts, hstops, h.balanced⟩
    · rw [← List.append_assoc, ← hinner, ← List.drop_eq_getElem_cons hj, List.take_append_drop]
    · rw [List.length_take]
      omega
    · rw [← hinner, List.length_take]
      omega
  · rintro ⟨before, opening, inner, closing, behind, hls, hi, hj, hstarts, hstops, hinner⟩
    rw [List.length_append, List.length_cons] at hj
    have hls' : ls = (before ++ opening :: inner) ++ closing :: behind := by
      rw [hls, List.append_assoc]
    refine ⟨by omega, ?_, ?_, ?_⟩
    · rw [hls, ← hi]
      exact starts_append_length hstarts _
    · rw [hls', ← hj, ← List.length_cons (a := opening), ← List.length_append]
      exact stops_append_length hstops _
    · have htake : ls.take p.closing = before ++ opening :: inner := by
        rw [hls', ← hj, ← List.length_cons (a := opening), ← List.length_append, List.take_left]
      have hdrop : (before ++ opening :: inner).drop (p.opening + 1) = inner := by
        rw [← hi, List.drop_length_add_append, List.drop_succ_cons, List.drop_zero]
      rw [htake, hdrop]
      exact hinner

/-- The region of a pair, read off the parts of the lines. -/
theorem Pair.region_eq (file : String) {p : Pair} {before inner : List (List Char)}
    {opening : List Char} (closing : List Char) (behind : List (List Char))
    (hi : before.length = p.opening)
    (hj : (before ++ opening :: inner).length = p.closing) :
    p.region file (before ++ (opening :: inner ++ closing :: behind)) =
      ⟨.region file (String.ofList p.name), ⟨byteLength (before ++ [opening]).flatten,
        byteLength inner.flatten⟩, file⟩ := by
  have hstart : (before ++ (opening :: inner ++ closing :: behind)).take (p.opening + 1) =
      before ++ [opening] := by
    rw [← hi, List.take_length_add_append]
    rfl
  have hstop : (before ++ (opening :: inner ++ closing :: behind)).take p.closing =
      before ++ opening :: inner := by
    rw [← List.append_assoc, ← hj, List.take_left]
  have hbytes : byteLength (before ++ opening :: inner).flatten =
      byteLength (before ++ [opening]).flatten + byteLength inner.flatten := by
    rw [List.append_cons, List.flatten_append, byteLength_append]
  rw [Pair.region, lineStart, lineStart, hstart, hstop, Span.ofBounds, hbytes,
    Nat.add_sub_cancel_left]

/-- A start line has at most one partner. -/
theorem Pair.Matches.unique {ls : List (List Char)} {p q : Pair} (hp : p.Matches ls)
    (hq : q.Matches ls) (h : p.opening = q.opening) : p = q := by
  -- of two partners the later one would have the earlier one between the lines
  have key : ∀ {p q : Pair}, p.Matches ls → q.Matches ls → p.opening = q.opening →
      ¬p.closing < q.closing := by
    intro p q hp hq h hlt
    obtain ⟨before, opening, inner, closing, behind, hls, hi, hj, -, hstops, hinner⟩ :=
      Pair.matches_iff.mp hp
    have hinner' := hq.balanced
    have hdrop : ls.drop (q.opening + 1) = inner ++ closing :: behind := by
      rw [hls, ← h, ← hi, List.drop_length_add_append, List.cons_append, List.drop_succ_cons,
        List.drop_zero]
    rw [List.length_append, List.length_cons] at hj
    obtain ⟨n, hn⟩ : ∃ n, q.closing - (q.opening + 1) = inner.length + (n + 1) :=
      ⟨q.closing - p.closing - 1, by omega⟩
    rw [List.drop_take, hdrop, hn, List.take_length_add_append, List.take_succ_cons,
      markers_append, markers_cons hstops] at hinner'
    exact hinner.not_prefix hinner'
  have hclosing : p.closing = q.closing :=
    Nat.le_antisymm (Nat.le_of_not_lt (key hq hp h.symm)) (Nat.le_of_not_lt (key hp hq h))
  have hname : p.name = q.name := by
    have hstarts := hp.starts
    rw [Starts, h, hq.starts, Option.some.injEq, Marker.start.injEq] at hstarts
    exact hstarts.symm
  cases p
  cases q
  simp_all

/-! ## 3. The pairs of an outline -/

theorem lineStart_succ {ls : List (List Char)} {i : Nat} (h : i < ls.length) :
    lineStart ls (i + 1) = lineStart ls i + byteLength ls[i] := by
  rw [lineStart, List.take_succ_eq_append_getElem h, List.flatten_append, byteLength_append,
    List.flatten_singleton, lineStart]

theorem lineStart_mono (ls : List (List Char)) {i j : Nat} (h : i ≤ j) :
    lineStart ls i ≤ lineStart ls j := by
  obtain ⟨n, rfl⟩ := Nat.exists_eq_add_of_le h
  rw [lineStart, lineStart, List.take_add, List.flatten_append]
  exact byteLength_le_append _ _

/-- Lines that are not empty begin at different offsets. -/
theorem lineStart_injective {ls : List (List Char)} (hne : ∀ l ∈ ls, l ≠ []) {i j : Nat}
    (hi : i ≤ ls.length) (hj : j ≤ ls.length) (h : lineStart ls i = lineStart ls j) : i = j := by
  have hlt : ∀ {i j : Nat}, i < j → j ≤ ls.length → lineStart ls i < lineStart ls j := by
    intro i j hij hj
    have hi : i < ls.length := by omega
    have hpos := byteLength_pos (hne ls[i] (List.getElem_mem hi))
    have hle : lineStart ls (i + 1) ≤ lineStart ls j := lineStart_mono ls hij
    rw [lineStart_succ hi] at hle
    omega
  rcases Nat.lt_trichotomy i j with hij | hij | hij
  · exact absurd h (Nat.ne_of_lt (hlt hij hj))
  · exact hij
  · exact absurd h.symm (Nat.ne_of_lt (hlt hij hi))

namespace Outline

variable {k : Strays}

/-- The pairs of an outline whose first line is line `i`, in the order of `regions`. -/
def pairs {k : Strays} : Nat → Outline k → List Pair
  | _, done => []
  | i, line _ _ rest => rest.pairs (i + 1)
  | i, block _ name _ body _ _ rest =>
      let stop := i + (body.lines.length + 1)
      ⟨i, stop, name⟩ :: body.pairs (i + 1) ++ rest.pairs (stop + 1)
  | i, unclosed _ _ _ _ rest => rest.pairs (i + 1)
  | i, unopened _ _ _ rest => rest.pairs (i + 1)

theorem balanced_lines (o : Outline .none) : Balanced (markers o.lines) := by
  rw [balanced_iff_closes, ← List.append_nil (markers o.lines), o.closes_lines]
  rfl

variable (file : String)

theorem regions_eq_map_pairs (o : Outline k) (front back : List (List Char)) :
    o.regions file (byteLength front.flatten) =
      (o.pairs front.length).map (Pair.region file (front ++ o.lines ++ back)) := by
  -- a line moves from the outline to the lines in front of it
  induction o generalizing front back with
  | done => rfl
  | line text plain rest ih | unclosed _ text _ _ rest ih | unopened _ text _ rest ih =>
    have h := ih (front ++ [text]) back
    simpa [regions, pairs, lines, byteLength_append] using h
  | block opening name starts body closing stops rest ihbody ihrest =>
    have hbody := ihbody (front ++ [opening]) (closing :: rest.lines ++ back)
    have hrest := ihrest (front ++ opening :: (body.lines ++ [closing])) back
    have hstop : (front ++ opening :: body.lines).length =
        front.length + (body.lines.length + 1) := by
      simp
    have hregion := Pair.region_eq file (p := ⟨_, _, name⟩) closing (rest.lines ++ back) rfl hstop
    simp [byteLength_append, Nat.add_assoc] at hbody hrest hregion
    simp [regions, pairs, lines, region, text, hbody, hrest, hregion, Nat.add_assoc]

theorem matches_of_mem_pairs {o : Outline k} {p : Pair} (front back : List (List Char))
    (h : p ∈ o.pairs front.length) : p.Matches (front ++ o.lines ++ back) := by
  induction o generalizing front back with
  | done => cases h
  | line text plain rest ih | unclosed _ text _ _ rest ih | unopened _ text _ rest ih =>
    have h := ih (front ++ [text]) back (by simpa [pairs] using h)
    simpa [lines] using h
  | block opening name starts body closing stops rest ihbody ihrest =>
    rw [pairs, List.cons_append, List.mem_cons, List.mem_append] at h
    rcases h with rfl | h | h
    · refine Pair.matches_iff.mpr ⟨front, opening, body.lines, closing, rest.lines ++ back, ?_, rfl,
        ?_, starts, stops, body.balanced_lines⟩
      · simp [lines]
      · simp
    · have h := ihbody (front ++ [opening]) (closing :: rest.lines ++ back) (by simpa using h)
      simpa [lines] using h
    · have h := ihrest (front ++ opening :: (body.lines ++ [closing])) back
        (by simpa [Nat.add_assoc] using h)
      simpa [lines] using h

end Outline

/-- What a file that is not refused has for regions. -/
theorem ofFile_eq_map_pairs {f : SourceFile} {regions : List Region}
    (h : ofFile f = .ok regions) :
    ∃ pairs : List Pair, pairs.Pairwise (·.opening < ·.opening) ∧
      (∀ p, p ∈ pairs ↔ p.Matches (Text.lines f.text.toList)) ∧
      regions = pairs.map (Pair.region f.name (Text.lines f.text.toList)) := by
  obtain ⟨o, ho, -, hregions⟩ := ofFile_eq_ok_iff.mp h
  have hmap : regions = (o.pairs 0).map (Pair.region f.name (Text.lines f.text.toList)) := by
    rw [hregions, ← ho]
    simpa using o.regions_eq_map_pairs f.name [] []
  have hne := (areLines_lines f.text.toList).ne_nil
  have hsound : ∀ p ∈ o.pairs 0, p.Matches (Text.lines f.text.toList) := by
    intro p hp
    rw [← ho]
    simpa using Outline.matches_of_mem_pairs [] [] hp
  refine ⟨o.pairs 0, ?_, fun p => ⟨hsound p, fun hp => ?_⟩, hmap⟩
  · -- the regions of an outline start one after the other, and so do their start lines
    have hsorted : (o.regions f.name 0).Pairwise Precedes := o.pairwise_regions 0
    rw [← hregions, hmap, List.pairwise_map] at hsorted
    refine hsorted.imp fun {p q} hpq => ?_
    by_contra hle
    have hmono := lineStart_mono (Text.lines f.text.toList)
      (show q.opening + 1 ≤ p.opening + 1 by omega)
    exact absurd hpq.start_lt (Nat.not_lt.mpr hmono)
  · -- the scan finds the region of the pair, and only one pair starts where it does
    obtain ⟨before, opening, inner, closing, behind, hls, hi, hj, hstarts, hstops, hinner⟩ :=
      Pair.matches_iff.mp hp
    have hmem := region_mem_of_closes h hstarts hstops (balanced_iff_closes.mp hinner) hls
    rw [← Pair.region_eq f.name closing behind hi hj, ← hls, hmap] at hmem
    obtain ⟨q, hq, hqp⟩ := List.mem_map.mp hmem
    have hstart : lineStart (Text.lines f.text.toList) (q.opening + 1) =
        lineStart (Text.lines f.text.toList) (p.opening + 1) := congrArg (·.span.start) hqp
    have hopening := lineStart_injective hne (hsound q hq).starts.lt_length hp.starts.lt_length
      hstart
    rw [← (hsound q hq).unique hp (by omega)]
    exact hq

/-! ## 4. Names that are started twice -/

/-- Line `j` starts a region of a name that an earlier line has started. -/
def Repeats (ls : List (List Char)) (j : Nat) (name : List Char) : Prop :=
  Starts ls j name ∧ ∃ i < j, Starts ls i name

variable {ls : List (List Char)}

theorem starts_cons_succ {l name : List Char} {i : Nat} :
    Starts (l :: ls) (i + 1) name ↔ Starts ls i name := by
  rw [Starts, Starts, List.getElem?_cons_succ]

theorem starts_take_iff {n i : Nat} {name : List Char} :
    Starts (ls.take n) i name ↔ i < n ∧ Starts ls i name := by
  rw [Starts, Starts, List.getElem?_take]
  split
  · simp_all
  · rename_i hge
    simp [hge]

theorem mem_startNames_iff {name : List Char} : name ∈ startNames ls ↔ ∃ i, Starts ls i name := by
  rw [startNames, markers, List.mem_filterMap]
  constructor
  · rintro ⟨m, hm, hname⟩
    obtain ⟨l, hl, hlm⟩ := List.mem_filterMap.mp hm
    obtain ⟨i, hi, rfl⟩ := List.mem_iff_getElem.mp hl
    refine ⟨i, ?_⟩
    cases m with
    | stop => cases hname
    | start n =>
      rw [Starts, List.getElem?_eq_getElem hi, ← Option.some.inj hname]
      exact hlm
  · rintro ⟨i, hi⟩
    obtain ⟨l, hl, hlm⟩ := Option.bind_eq_some_iff.mp hi
    exact ⟨.start name, List.mem_filterMap.mpr ⟨l, List.mem_of_getElem? hl, hlm⟩, rfl⟩

theorem starts_cons_zero {l name : List Char} :
    Starts (l :: ls) 0 name ↔ Marker.ofLine? l = some (.start name) := Iff.rfl

/-- The name that the scan refuses is the first one that an earlier line has started. -/
theorem firstRepeat_startNames {seen : List (List Char)} {name : List Char} :
    firstRepeat seen (startNames ls) = some name ↔
      ∃ j, Starts ls j name ∧ (name ∈ seen ∨ name ∈ startNames (ls.take j)) ∧
        firstRepeat seen (startNames (ls.take j)) = none := by
  induction ls generalizing seen with
  | nil => simp [startNames, firstRepeat, Starts]
  | cons l ls ih =>
    rw [← Nat.or_exists_add_one]
    simp only [starts_cons_zero, starts_cons_succ, List.take_zero, List.take_succ_cons]
    cases hm : Marker.ofLine? l with
    | none => simp [startNames_cons_plain hm, ih]
    | some m =>
      cases m with
      | stop => simp [startNames_cons_stop hm, ih]
      | start n =>
        simp only [startNames_cons_start hm, firstRepeat_cons]
        by_cases hn : n ∈ seen
        · -- the line itself repeats a name, so no later line comes into question
          simp only [if_pos hn, reduceCtorEq, and_false, exists_false, or_false,
            Option.some.injEq, Marker.start.injEq]
          constructor
          · rintro rfl
            exact ⟨rfl, .inl hn, rfl⟩
          · exact fun h => h.1
        · simp only [if_neg hn, ih]
          constructor
          · rintro ⟨j, hj, hname, hnone⟩
            refine .inr ⟨j, hj, ?_, hnone⟩
            rw [List.mem_cons] at hname ⊢
            rwa [← or_assoc, or_comm (a := name ∈ seen)]
          · rintro (⟨hstart, hname | hname, -⟩ | ⟨j, hj, hname, hnone⟩)
            · rw [Option.some.injEq, Marker.start.injEq] at hstart
              exact absurd (hstart ▸ hname) hn
            · cases hname
            · refine ⟨j, hj, ?_, hnone⟩
              rw [List.mem_cons] at hname ⊢
              rwa [or_comm (a := name = n), or_assoc]

theorem repeats_iff {j : Nat} {name : List Char} :
    Repeats ls j name ↔ Starts ls j name ∧ name ∈ startNames (ls.take j) := by
  rw [Repeats, mem_startNames_iff]
  simp only [starts_take_iff]

theorem nodup_startNames_iff : (startNames ls).Nodup ↔ ∀ j name, ¬Repeats ls j name := by
  have hnone : (startNames ls).Nodup ↔ firstRepeat [] (startNames ls) = none := by
    simp [firstRepeat_eq_none_iff]
  constructor
  · intro h j name hrep
    obtain ⟨hstarts, hmem⟩ := repeats_iff.mp hrep
    obtain ⟨l, hl, hm⟩ := Option.bind_eq_some_iff.mp hstarts
    obtain ⟨hj, rfl⟩ := List.getElem?_eq_some_iff.mp hl
    rw [← List.take_append_drop j ls, List.drop_eq_getElem_cons hj, startNames_append,
      startNames_cons_start hm] at h
    exact (List.disjoint_of_nodup_append h) hmem List.mem_cons_self
  · intro h
    rw [hnone]
    cases hrep : firstRepeat [] (startNames ls) with
    | none => rfl
    | some name =>
      obtain ⟨j, hj, hmem, -⟩ := firstRepeat_startNames.mp hrep
      exact absurd (repeats_iff.mpr ⟨hj, hmem.resolve_left List.not_mem_nil⟩) (h j name)

/-- Line `j` is the first one that repeats a name. -/
def FirstRepeats (ls : List (List Char)) (j : Nat) (name : List Char) : Prop :=
  Repeats ls j name ∧ ∀ j' < j, ∀ name', ¬Repeats ls j' name'

theorem firstRepeats_iff {name : List Char} :
    (∃ j, FirstRepeats ls j name) ↔ firstRepeat [] (startNames ls) = some name := by
  rw [firstRepeat_startNames]
  apply exists_congr
  intro j
  have htake : firstRepeat [] (startNames (ls.take j)) = none ↔
      ∀ j' < j, ∀ name', ¬Repeats ls j' name' := by
    rw [firstRepeat_eq_none_iff]
    simp only [List.not_mem_nil, not_false_eq_true, implies_true, and_true, nodup_startNames_iff]
    constructor
    · intro h j' hj' name' hrep
      obtain ⟨hstarts, i, hi, hstarts'⟩ := hrep
      exact h j' name' ⟨starts_take_iff.mpr ⟨hj', hstarts⟩, i, hi,
        starts_take_iff.mpr ⟨by omega, hstarts'⟩⟩
    · rintro h j' name' ⟨hstarts, i, hi, hstarts'⟩
      rw [starts_take_iff] at hstarts hstarts'
      exact h j' hstarts.1 name' ⟨hstarts.2, i, hi, hstarts'.2⟩
  rw [FirstRepeats, repeats_iff, htake, and_assoc]
  simp

/-! ## 5. Files -/

theorem ofFile_eq_error_iff {f : SourceFile} {e : DuplicateRegion} :
    ofFile f = .error e ↔ ∃ j name, FirstRepeats (Text.lines f.text.toList) j name ∧
      e = ⟨f.name, String.ofList name⟩ := by
  obtain ⟨o, ho⟩ := Outline.exists_outline (Text.lines f.text.toList)
  rw [ofFile_of_outline f o ho, ← o.startNames_lines, ho, exists_comm]
  have hswap : (∃ name j, FirstRepeats (Text.lines f.text.toList) j name ∧
      e = ⟨f.name, String.ofList name⟩) ↔
      ∃ name, firstRepeat [] (startNames (Text.lines f.text.toList)) = some name ∧
        e = ⟨f.name, String.ofList name⟩ := by
    simp only [exists_and_right, firstRepeats_iff]
  rw [hswap]
  cases firstRepeat [] (startNames (Text.lines f.text.toList)) with
  | none => simp
  | some name =>
    simp only [Except.error.injEq, Option.some.injEq]
    constructor
    · exact fun h => ⟨name, rfl, h.symm⟩
    · rintro ⟨_, rfl, h⟩
      exact h.symm

/-- The first file that is refused decides. -/
theorem ofFiles_eq_error_iff {files : List SourceFile} {e : DuplicateRegion} :
    ofFiles files = .error e ↔ ∃ front f back, files = front ++ f :: back ∧
      (∀ g ∈ front, ∃ regions, ofFile g = .ok regions) ∧ ofFile f = .error e := by
  rw [ofFiles, ← mapM_eq_error_iff]
  cases files.mapM ofFile with
  | error e' =>
    show Except.error e' = Except.error e ↔ Except.error e' = Except.error e
    rw [Except.error.injEq, Except.error.injEq]
  | ok parts => exact iff_of_false (by intro h; cases h) (by intro h; cases h)

/-- Two of the lines start a region of the same name. -/
def StartsTwice (ls : List (List Char)) : Prop :=
  ∃ i j name, i < j ∧ Starts ls i name ∧ Starts ls j name

theorem startsTwice_iff : StartsTwice ls ↔ ¬(startNames ls).Nodup := by
  rw [nodup_startNames_iff]
  constructor
  · rintro ⟨i, j, name, hij, hi, hj⟩ h
    exact h j name ⟨hj, i, hij, hi⟩
  · intro h
    simp only [not_forall, not_not] at h
    obtain ⟨j, name, hj, i, hij, hi⟩ := h
    exact ⟨i, j, name, hij, hi, hj⟩

/-- A file is refused when two of its lines start the same name, for the first line that repeats
one.  Otherwise its regions are those of the lines that belong together, one after the other.  Of
several files the first that is refused decides. -/
theorem extraction_matches_brackets :
    (∀ f : SourceFile,
      ((∃ e, ofFile f = .error e) ↔ StartsTwice (Text.lines f.text.toList)) ∧
      (∀ e, ofFile f = .error e → ∃ j name,
        FirstRepeats (Text.lines f.text.toList) j name ∧ e = ⟨f.name, String.ofList name⟩) ∧
      (¬StartsTwice (Text.lines f.text.toList) → ∃ pairs : List Pair,
        pairs.Nodup ∧ (∀ p, p ∈ pairs ↔ p.Matches (Text.lines f.text.toList)) ∧
        (pairs.map (Pair.region f.name (Text.lines f.text.toList))).Pairwise
          (fun a b => a.span.start < b.span.start) ∧
        ofFile f = .ok (pairs.map (Pair.region f.name (Text.lines f.text.toList))))) ∧
    (∀ files : List SourceFile,
      (∀ regions, ofFiles files = .ok regions ↔ ∃ parts,
        List.Forall₂ (fun f part => ofFile f = .ok part) files parts ∧ regions = parts.flatten) ∧
      (∀ e, ofFiles files = .error e ↔ ∃ front f back, files = front ++ f :: back ∧
        (∀ g ∈ front, ∃ regions, ofFile g = .ok regions) ∧ ofFile f = .error e)) := by
  refine ⟨fun f => ⟨?_, fun e => ofFile_eq_error_iff.mp, fun h => ?_⟩,
    fun files => ⟨fun regions => ofFiles_eq_ok_iff, fun e => ofFiles_eq_error_iff⟩⟩
  · rw [startsTwice_iff, ← exists_ofFile_eq_ok_iff]
    cases ofFile f <;> simp
  · rw [startsTwice_iff, not_not, ← exists_ofFile_eq_ok_iff] at h
    obtain ⟨regions, hregions⟩ := h
    obtain ⟨pairs, hsorted, hmem, rfl⟩ := ofFile_eq_map_pairs hregions
    have hstarts : (pairs.map (Pair.region f.name (Text.lines f.text.toList))).Pairwise
        (fun a b => a.span.start < b.span.start) := by
      obtain ⟨o, -, -, ho⟩ := ofFile_eq_ok_iff.mp hregions
      rw [ho]
      exact (o.pairwise_regions 0).imp Precedes.start_lt
    exact ⟨pairs, hsorted.imp fun hlt heq => by simp [heq] at hlt, hmem, hstarts, hregions⟩

end Playground.Region
