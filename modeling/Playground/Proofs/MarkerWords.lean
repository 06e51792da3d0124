import Playground.Proofs.Revision
/-!
# The markers of lines

For the scan of a file only the markers of its lines count.  A region is found for a start line and
an end line with matched markers between them, and some region is found whenever an end line follows
a start line.  A file is refused exactly when its markers start one name twice.
-/

namespace Playground.Region

open Inline Text

/-! ## 1. Words of markers -/

/-- The name that a marker starts a region of. -/
def Marker.name? : Marker → Option (List Char)
  | .start name => some name
  | .stop => none

/-- The markers among the lines, in order. -/
def markers (ls : List (List Char)) : List Marker :=
  ls.filterMap Marker.ofLine?

/-- The names of the regions that the lines start, whether or not they end. -/
def startNames (ls : List (List Char)) : List (List Char) :=
  (markers ls).filterMap Marker.name?

/-- Whether every start has its end and every end its start, when `depth` regions are open
before. -/
def closes : Nat → List Marker → Bool
  | depth, [] => depth == 0
  | depth, .start _ :: ms => closes (depth + 1) ms
  | 0, .stop :: _ => false
  | depth + 1, .stop :: ms => closes depth ms

/-- Whether the marker lines of a text are matched with each other. -/
def Matched (cs : List Char) : Prop :=
  closes 0 (markers (Text.lines cs)) = true

instance (cs : List Char) : Decidable (Matched cs) :=
  inferInstanceAs (Decidable (_ = _))

@[simp] theorem markers_nil : markers [] = [] := rfl

theorem markers_cons_plain {l : List Char} (h : Marker.ofLine? l = none)
    (ls : List (List Char)) : markers (l :: ls) = markers ls := List.filterMap_cons_none h

theorem markers_cons {l : List Char} {m : Marker} (h : Marker.ofLine? l = some m)
    (ls : List (List Char)) : markers (l :: ls) = m :: markers ls := List.filterMap_cons_some h

theorem markers_append (a b : List (List Char)) : markers (a ++ b) = markers a ++ markers b :=
  List.filterMap_append

theorem startNames_append (a b : List (List Char)) :
    startNames (a ++ b) = startNames a ++ startNames b := by
  rw [startNames, markers_append, List.filterMap_append]
  rfl

theorem startNames_cons_plain {l : List Char} (h : Marker.ofLine? l = none)
    (ls : List (List Char)) : startNames (l :: ls) = startNames ls := by
  rw [startNames, markers_cons_plain h, startNames]

theorem startNames_cons_start {l name : List Char} (h : Marker.ofLine? l = some (.start name))
    (ls : List (List Char)) : startNames (l :: ls) = name :: startNames ls := by
  rw [startNames, markers_cons h]
  rfl

theorem startNames_cons_stop {l : List Char} (h : Marker.ofLine? l = some .stop)
    (ls : List (List Char)) : startNames (l :: ls) = startNames ls := by
  rw [startNames, markers_cons h]
  rfl

/-- A line feed at the end of a text ends its last line or makes an empty one. -/
theorem markers_append_lf (cs : List Char) :
    markers (Text.lines (cs ++ ['\n'])) = markers (Text.lines cs) := by
  obtain ⟨whole, rest, hwhole, hrest, rfl⟩ := exists_whole_lines cs
  have hlast : IsLine (rest ++ ['\n']) := ⟨rest, hrest, rfl⟩
  rw [List.append_assoc, lines_flatten_append hwhole, lines_flatten_append hwhole, markers_append,
    markers_append, ← List.append_nil (rest ++ ['\n']), lines_append_of_isLine hlast, lines_nil]
  by_cases hne : rest = []
  · subst hne
    rw [lines_nil, List.nil_append, markers_cons_plain Marker.ofLine?_lf]
  · simp only [lines_of_no_lf hne hrest, markers, List.filterMap_cons, Marker.ofLine?_append_lf]

theorem markers_padded (cs : List Char) :
    markers (Text.lines (padded cs)) = markers (Text.lines cs) := by
  rw [padded, List.cons_append, lines_cons_lf, markers_cons_plain Marker.ofLine?_lf,
    markers_append_lf]

theorem markers_blank (cs : List Char) : markers (Text.lines (blank cs)) = [] := by
  rw [markers, List.filterMap_eq_nil_iff]
  intro l hl
  exact Marker.ofLine?_of_isBlank fun c hc => isBlank_of_mem_blank (mem_of_mem_lines hl hc)

namespace Outline

variable {k : Strays}

theorem startNames_lines (o : Outline k) : startNames o.lines = o.names := by
  induction o with
  | done => rfl
  | line text plain rest ih => rw [lines, startNames_cons_plain plain, ih, names]
  | block opening name starts body closing stops rest ihbody ihrest =>
    rw [lines, startNames_append, startNames_cons_start starts, startNames_cons_stop stops, ihbody,
      ihrest, names]
  | unclosed allowed opening name starts rest ih =>
    rw [lines, startNames_cons_start starts, ih, names]
  | unopened allowed closing stops rest ih => rw [lines, startNames_cons_stop stops, ih, names]

/-- In an outline without strays every marker has its partner. -/
theorem closes_lines (o : Outline .none) (depth : Nat) (behind : List Marker) :
    closes depth (markers o.lines ++ behind) = closes depth behind := by
  generalize hk : Strays.none = k at o
  induction o generalizing depth behind with
  | done => rfl
  | line text plain rest ih => rw [lines, markers_cons_plain plain, ih _ _ hk]
  | block opening name starts body closing stops rest ihbody ihrest =>
    rw [lines, markers_append, markers_cons starts, markers_cons stops, List.append_assoc,
      List.cons_append, List.cons_append, closes, ihbody _ _ rfl, closes, ihrest _ _ hk]
  | unclosed allowed => exact absurd hk.symm allowed
  | unopened allowed => subst allowed; cases hk

end Outline

/-! ## 2. One line of a scan -/

variable {file : String} {s s' : Scan}

/-- A line moves the scan behind it.  A start line opens a region, an end line closes the one that
was opened last, and every other line changes nothing else. -/
theorem Scan.of_line {l : List Char} (h : s.line file l = .ok s') :
    s'.offset = s.offset + byteLength l ∧
      ((∃ name, Marker.ofLine? l = some (.start name) ∧
          s'.opened = ⟨name, s'.offset⟩ :: s.opened ∧ s'.closed = s.closed) ∨
        (∃ o, Marker.ofLine? l = some .stop ∧ s.opened = o :: s'.opened ∧ s'.closed =
          ⟨.region file (String.ofList o.name), .ofBounds o.start s.offset, file⟩ :: s.closed) ∨
        ((Marker.ofLine? l = none ∨ Marker.ofLine? l = some .stop ∧ s.opened = []) ∧
          s'.opened = s.opened ∧ s'.closed = s.closed)) := by
  cases hm : Marker.ofLine? l with
  | none =>
    rw [Scan.line_plain hm, Except.ok.injEq] at h
    subst h
    exact ⟨rfl, .inr (.inr ⟨.inl rfl, rfl, rfl⟩)⟩
  | some m =>
    cases m with
    | start name =>
      rw [Scan.line_start hm] at h
      split at h
      · cases h
      · rw [Except.ok.injEq] at h
        subst h
        exact ⟨rfl, .inl ⟨name, rfl, rfl, rfl⟩⟩
    | stop =>
      cases ho : s.opened with
      | nil =>
        rw [Scan.line_stop_nil hm s ho, Except.ok.injEq] at h
        subst h
        exact ⟨rfl, .inr (.inr ⟨.inr ⟨rfl, rfl⟩, ho, rfl⟩)⟩
      | cons o outer =>
        rw [Scan.line_stop_cons hm s ho, Except.ok.injEq] at h
        subst h
        exact ⟨rfl, .inr (.inl ⟨o, rfl, rfl, rfl⟩)⟩

/-! ## 3. Several lines of a scan -/

theorem foldlM_cons_eq_ok {σ α ε : Type} {f : σ → α → Except ε σ} {s s' : σ} {x : α}
    {l : List α} :
    (x :: l).foldlM f s = .ok s' ↔ ∃ mid, f s x = .ok mid ∧ l.foldlM f mid = .ok s' := by
  rw [List.foldlM_cons]
  cases hx : f s x with
  | error e => exact iff_of_false (by intro h; cases h) (by rintro ⟨mid, h, -⟩; cases h)
  | ok mid =>
    constructor
    · exact fun h => ⟨mid, rfl, h⟩
    · rintro ⟨mid', hmid, h⟩
      rw [← Except.ok.inj hmid] at h
      exact h

theorem foldlM_append_eq_ok {σ α ε : Type} {f : σ → α → Except ε σ} {s s' : σ} {a b : List α} :
    (a ++ b).foldlM f s = .ok s' ↔
      ∃ mid, a.foldlM f s = .ok mid ∧ b.foldlM f mid = .ok s' := by
  induction a generalizing s with
  | nil => exact ⟨fun h => ⟨s, rfl, h⟩, fun ⟨mid, hmid, h⟩ => Except.ok.inj hmid ▸ h⟩
  | cons x a ih =>
    rw [List.cons_append, foldlM_cons_eq_ok]
    constructor
    · rintro ⟨mid, hmid, h⟩
      obtain ⟨mid', hmid', hb⟩ := ih.mp h
      exact ⟨mid', foldlM_cons_eq_ok.mpr ⟨mid, hmid, hmid'⟩, hb⟩
    · rintro ⟨mid', ha, hb⟩
      obtain ⟨mid, hmid, hmid'⟩ := foldlM_cons_eq_ok.mp ha
      exact ⟨mid, hmid, ih.mpr ⟨mid', hmid', hb⟩⟩

theorem Scan.offset_of_foldlM {ls : List (List Char)}
    (h : ls.foldlM (Scan.line file) s = .ok s') :
    s'.offset = s.offset + byteLength ls.flatten := by
  induction ls generalizing s with
  | nil =>
    rw [← Except.ok.inj h]
    rfl
  | cons l ls ih =>
    obtain ⟨mid, hmid, hrest⟩ := foldlM_cons_eq_ok.mp h
    rw [ih hrest, (Scan.of_line hmid).1, List.flatten_cons, byteLength_append, Nat.add_assoc]

/-- What is closed stays closed. -/
theorem Scan.closed_suffix_of_foldlM {ls : List (List Char)}
    (h : ls.foldlM (Scan.line file) s = .ok s') : s.closed <:+ s'.closed := by
  induction ls generalizing s with
  | nil =>
    exact Except.ok.inj h ▸ List.suffix_refl s.closed
  | cons l ls ih =>
    obtain ⟨mid, hmid, hrest⟩ := foldlM_cons_eq_ok.mp h
    have hlater := ih hrest
    rcases (Scan.of_line hmid).2 with ⟨_, -, -, hclosed⟩ | ⟨_, -, -, hclosed⟩ | ⟨-, -, hclosed⟩
    · rwa [hclosed] at hlater
    · rw [hclosed] at hlater
      exact (List.suffix_cons _ _).trans hlater
    · rwa [hclosed] at hlater

/-- Matched markers leave open what was open before them. -/
theorem Scan.opened_of_closes {ls : List (List Char)} (inner : List Opened)
    {outer : List Opened}
    (hopened : s.opened = inner ++ outer) (hcloses : closes inner.length (markers ls) = true)
    (h : ls.foldlM (Scan.line file) s = .ok s') : s'.opened = outer := by
  -- on the lines: `inner` is what they have opened so far, and `closes` counts just that
  induction ls generalizing s inner with
  | nil =>
    rw [← Except.ok.inj h, hopened]
    have hlength : inner.length = 0 := by simpa [closes] using hcloses
    rw [List.length_eq_zero_iff.mp hlength, List.nil_append]
  | cons l ls ih =>
    obtain ⟨mid, hmid, hrest⟩ := foldlM_cons_eq_ok.mp h
    rcases (Scan.of_line hmid).2 with
      ⟨name, hm, hmidOpened, -⟩ | ⟨o, hm, hsOpened, -⟩ | ⟨hm, hmidOpened, -⟩
    · -- one more region is open inside
      rw [markers_cons hm, closes] at hcloses
      refine ih (⟨name, mid.offset⟩ :: inner) ?_ hcloses hrest
      rw [hmidOpened, hopened, List.cons_append]
    · -- the end belongs to a region that was opened inside
      rw [markers_cons hm] at hcloses
      cases inner with
      | nil => cases hcloses
      | cons o' inner =>
        rw [hopened, List.cons_append, List.cons.injEq] at hsOpened
        exact ih inner hsOpened.2.symm hcloses hrest
    · rcases hm with hm | ⟨hm, hnone⟩
      · rw [markers_cons_plain hm] at hcloses
        exact ih inner (hmidOpened.trans hopened) hcloses hrest
      · -- without an open region the end would have no start
        rw [hnone] at hopened
        rw [markers_cons hm, (List.append_eq_nil_iff.mp hopened.symm).1] at hcloses
        cases hcloses

/-- With a region open, an end line that is yet to come closes some region. -/
theorem Scan.closed_ne_nil {ls behind : List (List Char)} {closing : List Char}
    (hopened : s.opened ≠ []) (hstops : Marker.ofLine? closing = some .stop)
    (h : (ls ++ closing :: behind).foldlM (Scan.line file) s = .ok s') : s'.closed ≠ [] := by
  -- a region that has been closed stays closed up to the end
  have hstays : ∀ {mid : Scan} {later : List (List Char)} {r : Region},
      r ∈ mid.closed → later.foldlM (Scan.line file) mid = .ok s' → s'.closed ≠ [] :=
    fun hr hlater => List.ne_nil_of_mem ((Scan.closed_suffix_of_foldlM hlater).subset hr)
  induction ls generalizing s with
  | nil =>
    obtain ⟨mid, hmid, hrest⟩ := foldlM_cons_eq_ok.mp h
    rcases (Scan.of_line hmid).2 with ⟨name, hm, -⟩ | ⟨o, -, -, hclosed⟩ | ⟨hm | ⟨-, hnone⟩, -⟩
    · rw [hm] at hstops
      cases hstops
    · exact hstays (hclosed ▸ List.mem_cons_self) hrest
    · rw [hm] at hstops
      cases hstops
    · exact absurd hnone hopened
  | cons l ls ih =>
    obtain ⟨mid, hmid, hrest⟩ := foldlM_cons_eq_ok.mp h
    rcases (Scan.of_line hmid).2 with ⟨name, -, hmidOpened, -⟩ | ⟨o, -, -, hclosed⟩ |
      ⟨-, hmidOpened, -⟩
    · exact ih (by rw [hmidOpened]; exact List.cons_ne_nil _ _) hrest
    · exact hstays (hclosed ▸ List.mem_cons_self) hrest
    · exact ih (by rw [hmidOpened]; exact hopened) hrest

/-! ## 4. The regions of a file -/

variable {f : SourceFile} {regions : List Region}

theorem exists_scan_of_ofFile (h : ofFile f = .ok regions) :
    ∃ s, (Text.lines f.text.toList).foldlM (Scan.line f.name) Scan.start = .ok s ∧
      ∀ r, r ∈ regions ↔ r ∈ s.closed := by
  unfold ofFile at h
  cases hs : (Text.lines f.text.toList).foldlM (Scan.line f.name) Scan.start with
  | error e => rw [hs] at h; cases h
  | ok s =>
    rw [hs] at h
    refine ⟨s, rfl, fun r => ?_⟩
    rw [← Except.ok.inj h, List.mem_mergeSort, List.mem_reverse]

/-- A file is refused only when its lines start one name twice. -/
theorem exists_ofFile_eq_ok_iff :
    (∃ regions, ofFile f = .ok regions) ↔ (startNames (Text.lines f.text.toList)).Nodup := by
  obtain ⟨o, ho⟩ := Outline.exists_outline (Text.lines f.text.toList)
  rw [← ho, o.startNames_lines]
  constructor
  · rintro ⟨regions, h⟩
    obtain ⟨o', ho', hnodup, -⟩ := ofFile_eq_ok_iff.mp h
    rwa [← o'.startNames_lines, ho', ← ho, o.startNames_lines] at hnodup
  · exact fun hnodup => ⟨_, ofFile_eq_ok_iff.mpr ⟨o, ho, hnodup, rfl⟩⟩

/-- Behind a start line the scan of a file has the region of that line open, and goes on to its
end from there. -/
theorem exists_scan_at_start (h : ofFile f = .ok regions) {before later : List (List Char)}
    {opening name : List Char} (hstarts : Marker.ofLine? opening = some (.start name))
    (hlines : Text.lines f.text.toList = before ++ opening :: later) :
    ∃ s outer s', s.offset = byteLength (before ++ [opening]).flatten ∧
      s.opened = ⟨name, s.offset⟩ :: outer ∧
      later.foldlM (Scan.line f.name) s = .ok s' ∧ ∀ r, r ∈ regions ↔ r ∈ s'.closed := by
  obtain ⟨s', hs', hmem⟩ := exists_scan_of_ofFile h
  rw [hlines] at hs'
  obtain ⟨mid, hmid, hrest⟩ := foldlM_append_eq_ok.mp hs'
  obtain ⟨s, hs, hlater⟩ := foldlM_cons_eq_ok.mp hrest
  have hoffset : s.offset = byteLength (before ++ [opening]).flatten := by
    rw [(Scan.of_line hs).1, Scan.offset_of_foldlM hmid]
    simp [Scan.start, byteLength_append]
  refine ⟨s, mid.opened, s', hoffset, ?_, hlater, hmem⟩
  rcases (Scan.of_line hs).2 with ⟨name', hm, hopened, -⟩ | ⟨_, hm, -⟩ | ⟨hm | ⟨hm, -⟩, -⟩
  · rw [hm, Option.some.injEq, Marker.start.injEq] at hstarts
    rw [hopened, hstarts]
  -- the other lines are no start lines
  all_goals
    rw [hm] at hstarts
    cases hstarts

/-- A file with an end line behind a start line has a region. -/
theorem ne_nil_of_ofFile (h : ofFile f = .ok regions)
    {before inner behind : List (List Char)} {opening name closing : List Char}
    (hstarts : Marker.ofLine? opening = some (.start name))
    (hstops : Marker.ofLine? closing = some .stop)
    (hlines : Text.lines f.text.toList = before ++ (opening :: inner ++ closing :: behind)) :
    regions ≠ [] := by
  obtain ⟨s, outer, s', -, hopened, hlater, hmem⟩ := exists_scan_at_start h hstarts hlines
  have hne : s.opened ≠ [] := by
    rw [hopened]
    exact List.cons_ne_nil _ _
  obtain ⟨r, hr⟩ := List.exists_mem_of_ne_nil _ (Scan.closed_ne_nil hne hstops hlater)
  exact List.ne_nil_of_mem ((hmem r).mpr hr)

/-- A start line and an end line with matched markers between them make a region of the lines
between. -/
theorem region_mem_of_closes (h : ofFile f = .ok regions)
    {before inner behind : List (List Char)} {opening name closing : List Char}
    (hstarts : Marker.ofLine? opening = some (.start name))
    (hstops : Marker.ofLine? closing = some .stop) (hinner : closes 0 (markers inner) = true)
    (hlines : Text.lines f.text.toList = before ++ (opening :: inner ++ closing :: behind)) :
    ⟨.region f.name (String.ofList name), ⟨byteLength (before ++ [opening]).flatten,
      byteLength inner.flatten⟩, f.name⟩ ∈ regions := by
  obtain ⟨s, outer, s', hoffset, hopened, hlater, hmem⟩ := exists_scan_at_start h hstarts hlines
  obtain ⟨last, hlast, hclose⟩ := foldlM_append_eq_ok.mp hlater
  have hlastOpened : last.opened = ⟨name, s.offset⟩ :: outer :=
    (Scan.opened_of_closes [] rfl hinner hlast).trans hopened
  obtain ⟨mid, hmid, hbehind⟩ := foldlM_cons_eq_ok.mp hclose
  -- the end line closes the region that the start line has opened
  rcases (Scan.of_line hmid).2 with ⟨_, hm, -⟩ | ⟨o, -, ho, hclosed⟩ | ⟨hm | ⟨-, hnone⟩, -⟩
  · rw [hm] at hstops
    cases hstops
  · rw [hlastOpened, List.cons.injEq] at ho
    obtain ⟨rfl, -⟩ := ho
    have hsuffix := Scan.closed_suffix_of_foldlM hbehind
    have hspan : Span.ofBounds s.offset last.offset =
        ⟨byteLength (before ++ [opening]).flatten, byteLength inner.flatten⟩ := by
      rw [Span.ofBounds, Scan.offset_of_foldlM hlast, Nat.add_sub_cancel_left, hoffset]
    rw [hclosed, hspan] at hsuffix
    exact (hmem _).mpr (hsuffix.subset List.mem_cons_self)
  · rw [hm] at hstops
    cases hstops
  · rw [hlastOpened] at hnone
    cases hnone

end Playground.Region
