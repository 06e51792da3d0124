import Mathlib.Data.List.Basic
import Playground.Files.Path
/-!
# Joined paths

A path that is joined to a directory has the segments of both, and its part below the directory is the
path that was joined, but for what stands for no step.
-/

namespace Playground

namespace Path

variable {p q dir rel : Path} {segs : List String} {n : String} {c : Char}

/-! ## 1. Segments -/

theorem segments_eq (p : Path) : segments p = (p.toList.splitOn '/').map String.ofList := by
  have hsplit : ∀ cs : List Char, Text.splitAll (· == '/') cs = cs.splitOn '/' := by
    intro cs
    induction cs with
    | nil => rfl
    | cons c cs ih =>
      unfold Text.splitAll at ih ⊢
      rw [List.foldr_cons, ih, List.splitOn_cons_eq_if_modifyHead]
      cases hparts : cs.splitOn '/' with
      | nil => exact absurd hparts (List.splitOn_ne_nil '/' cs)
      | cons part later => rfl
  rw [segments, hsplit]

theorem segments_ne_nil (p : Path) : segments p ≠ [] := by
  rw [segments_eq, Ne, List.map_eq_nil_iff]
  exact List.splitOn_ne_nil '/' p.toList

theorem segments_slash (p q : Path) : segments (p ++ "/" ++ q) = segments p ++ segments q := by
  have hchars : (p ++ "/" ++ q).toList = p.toList ++ '/' :: q.toList := by simp
  rw [segments_eq, hchars, List.splitOn_append_cons_self, List.map_append, ← segments_eq,
    ← segments_eq]

theorem segments_of_not_mem (h : '/' ∉ n.toList) : segments n = [n] := by
  rw [segments_eq, List.splitOn_eq_singleton h, List.map_singleton, String.ofList_toList]

theorem segments_intercalate (h : ∀ s ∈ segs, '/' ∉ s.toList) (hsegs : segs ≠ []) :
    segments ("/".intercalate segs) = segs := by
  have hparts : ∀ l ∈ segs.map String.toList, '/' ∉ l := by
    intro l hl
    obtain ⟨s, hs, rfl⟩ := List.mem_map.mp hl
    exact h s hs
  rw [segments_eq, String.toList_intercalate]
  refine (congrArg _ (List.splitOn_intercalate '/' hparts (by simpa using hsegs))).trans ?_
  rw [List.map_map]
  exact (List.map_congr_left fun s _ => String.ofList_toList).trans (List.map_id segs)

theorem intercalate_segments (p : Path) : "/".intercalate (segments p) = p := by
  rw [← String.toList_inj, String.toList_intercalate, segments_eq, List.map_map]
  have hparts : (p.toList.splitOn '/').map (String.toList ∘ String.ofList) = p.toList.splitOn '/' :=
    (List.map_congr_left fun cs _ => String.toList_ofList).trans (List.map_id _)
  rw [hparts]
  exact List.intercalate_splitOn '/'

theorem not_mem_of_mem_segments (h : n ∈ segments p) : '/' ∉ n.toList := by
  have hparts : ∀ cs : List Char, ∀ part ∈ cs.splitOn '/', '/' ∉ part := by
    intro cs
    induction cs with
    | nil => simp
    | cons c cs ih =>
      rw [List.splitOn_cons_eq_if_modifyHead]
      split
      · simpa using ih
      · rename_i hc
        cases hsplit : cs.splitOn '/' with
        | nil => exact absurd hsplit (List.splitOn_ne_nil '/' cs)
        | cons part later =>
          rw [hsplit] at ih
          have hc : '/' ≠ c := fun h => hc (beq_iff_eq.mpr h.symm)
          simpa [hc] using ih
  rw [segments_eq] at h
  obtain ⟨part, hpart, rfl⟩ := List.mem_map.mp h
  rw [String.toList_ofList]
  exact hparts _ part hpart

/-! ## 2. Joining -/

@[simp] theorem join_empty (rel : Path) : join "" rel = rel := by
  unfold join
  split <;> rfl

/-- A directory that ends in a slash, and any other. -/
theorem join_cases (hdir : dir ≠ "") :
    (∃ front : String, dir = front ++ "/" ∧
        ∀ rel : Path, isAbsolute rel = false → dir.join rel = front ++ "/" ++ rel) ∨
      ∀ rel : Path, isAbsolute rel = false → dir.join rel = dir ++ "/" ++ rel := by
  cases hlast : dir.toList.getLast? with
  | none =>
    refine absurd ?_ hdir
    rw [← String.toList_inj, List.getLast?_eq_none_iff.mp hlast]
    rfl
  | some c =>
    by_cases hc : c = '/'
    · subst hc
      obtain ⟨cs, hcs⟩ := List.getLast?_eq_some_iff.mp hlast
      have hfront : dir = String.ofList cs ++ "/" := by
        rw [← String.toList_inj, hcs, String.toList_append, String.toList_ofList]
        rfl
      refine .inl ⟨String.ofList cs, hfront, fun rel hrel => ?_⟩
      rw [join, hrel, if_neg Bool.false_ne_true, hlast, ← hfront]
      rfl
    · refine .inr fun rel hrel => ?_
      rw [join, hrel, if_neg Bool.false_ne_true, hlast]
      split
      · rename_i h
        cases h
      · rename_i h
        exact absurd (Option.some.inj h) hc
      · rfl

/-- Whatever is joined to a directory stands at the end. -/
theorem exists_join_eq_append (dir : Path) :
    ∃ front : String, ∀ rel : Path, isAbsolute rel = false → dir.join rel = front ++ rel := by
  by_cases hdir : dir = ""
  · exact ⟨"", fun rel _ => by rw [hdir, join_empty, String.empty_append]⟩
  · rcases join_cases hdir with ⟨front, -, hjoin⟩ | hjoin
    · exact ⟨front ++ "/", hjoin⟩
    · exact ⟨dir ++ "/", hjoin⟩

/-- The segments of a directory that those of a path joined to it come after. -/
structure IsStem (dir : Path) (stem : List String) : Prop where
  ne_nil : stem ≠ []
  segments : segments dir = stem ∨ segments dir = stem ++ [""]
  join : ∀ rel : Path, isAbsolute rel = false → Path.segments (dir.join rel) = stem ++ Path.segments rel

theorem exists_isStem (hdir : dir ≠ "") : ∃ stem, IsStem dir stem := by
  rcases join_cases hdir with ⟨front, rfl, hjoin⟩ | hjoin
  · refine ⟨segments front, segments_ne_nil front, .inr ?_, fun rel hrel => ?_⟩
    · have h := segments_slash front ""
      rwa [String.append_empty] at h
    · rw [hjoin rel hrel, segments_slash]
  · exact ⟨segments dir, segments_ne_nil dir, .inl rfl, fun rel hrel => by
      rw [hjoin rel hrel, segments_slash]⟩

theorem isAbsolute_append (hp : p ≠ "") (q : String) : isAbsolute (p ++ q) = isAbsolute p := by
  cases hcs : p.toList with
  | nil => exact absurd (String.toList_eq_nil_iff.mp hcs) hp
  | cons c cs => rw [isAbsolute, isAbsolute, String.toList_append, hcs]; rfl

theorem isAbsolute_join (hdir : dir ≠ "") (hrel : isAbsolute rel = false) :
    isAbsolute (dir.join rel) = isAbsolute dir := by
  rcases join_cases hdir with ⟨front, hfront, hjoin⟩ | hjoin
  · rw [hjoin rel hrel, ← hfront, isAbsolute_append hdir]
  · rw [hjoin rel hrel, String.append_assoc, isAbsolute_append hdir]

/-! ## 3. Steps -/

/-- The steps at the start that no name or step upwards stands for. -/
def lead (p : Path) : List Component :=
  if isAbsolute p then [.root] else if (segments p).head? = some "." then [.here] else []

theorem components_eq (p : Path) : components p = lead p ++ (segments p).filterMap component? := rfl

namespace IsStem

variable {stem : List String}

theorem head? (h : IsStem dir stem) : (Path.segments dir).head? = stem.head? := by
  obtain ⟨s, rest, rfl⟩ := List.exists_cons_of_ne_nil h.ne_nil
  rcases h.segments with h | h
  · rw [h]
  · rw [h]
    rfl

theorem filterMap (h : IsStem dir stem) :
    (Path.segments dir).filterMap component? = stem.filterMap component? := by
  rcases h.segments with h | h
  · rw [h]
  · rw [h, List.filterMap_append]
    exact List.append_nil _

end IsStem

theorem components_join (hdir : dir ≠ "") (hrel : isAbsolute rel = false) :
    components (dir.join rel) = components dir ++ (segments rel).filterMap component? := by
  obtain ⟨stem, hstem⟩ := exists_isStem hdir
  obtain ⟨s, rest, rfl⟩ := List.exists_cons_of_ne_nil hstem.ne_nil
  rw [components_eq, components_eq, lead, lead, isAbsolute_join hdir hrel, hstem.join rel hrel,
    hstem.head?, hstem.filterMap, List.filterMap_append, List.append_assoc]
  rfl

/-! ## 4. Below a directory -/

theorem component?_eq_none_iff : component? n = none ↔ n = "" ∨ n = "." := by
  unfold component?
  split
  · simp_all
  · split <;> simp_all

theorem trimLead_cons_of_none (h : component? n = none) (segs : List String) :
    trimLead (n :: segs) = trimLead segs := by
  rw [trimLead, if_pos (component?_eq_none_iff.mp h)]

theorem trimLead_cons_of_some {c : Component} (h : component? n = some c) (segs : List String) :
    trimLead (n :: segs) = n :: segs := by
  have hn : ¬ (n = "" ∨ n = ".") := fun hn => by
    rw [component?_eq_none_iff.mpr hn] at h
    cases h
  rw [trimLead, if_neg hn]

theorem trimLead_suffix (segs : List String) : trimLead segs <:+ segs := by
  induction segs with
  | nil => exact List.suffix_refl []
  | cons s rest ih =>
    cases hs : component? s with
    | none =>
      rw [trimLead_cons_of_none hs]
      exact ih.trans (List.suffix_cons s rest)
    | some c =>
      exact (trimLead_cons_of_some hs rest).symm ▸ List.suffix_refl _

theorem filterMap_trimLead (segs : List String) :
    (trimLead segs).filterMap component? = segs.filterMap component? := by
  induction segs with
  | nil => rfl
  | cons s rest ih =>
    cases hs : component? s with
    | none => rw [trimLead_cons_of_none hs, List.filterMap_cons_none hs, ih]
    | some c => rw [trimLead_cons_of_some hs]

/-- What has been trimmed starts with a step. -/
theorem component?_of_trimLead {rest : List String} (h : trimLead segs = n :: rest) :
    component? n ≠ none := by
  induction segs with
  | nil => cases h
  | cons s segs ih =>
    cases hs : component? s with
    | none =>
      rw [trimLead_cons_of_none hs] at h
      exact ih h
    | some c =>
      rw [trimLead_cons_of_some hs] at h
      rw [← (List.cons.inj h).1, hs]
      exact nofun

/-- Segments of which the last one stands for a step. -/
def EndsInStep (segs : List String) : Prop :=
  ∃ front n c, segs = front ++ [n] ∧ component? n = some c

theorem EndsInStep.cons (h : EndsInStep segs) (s : String) : EndsInStep (s :: segs) := by
  obtain ⟨front, n, c, rfl, hn⟩ := h
  exact ⟨s :: front, n, c, rfl, hn⟩

theorem EndsInStep.of_append {front : List String} (h : EndsInStep (front ++ segs))
    (hsegs : segs ≠ []) : EndsInStep segs := by
  obtain ⟨all, n, c, heq, hn⟩ := h
  obtain ⟨init, last, rfl⟩ := (List.eq_nil_or_concat segs).resolve_left hsegs
  rw [List.concat_eq_append] at heq ⊢
  rw [← List.append_assoc] at heq
  obtain ⟨-, rfl⟩ := List.append_singleton_inj.mp heq
  exact ⟨init, last, c, rfl, hn⟩

theorem EndsInStep.of_suffix (h : EndsInStep segs) {rest : List String} (hrest : rest <:+ segs) :
    rest = [] ∨ EndsInStep rest := by
  obtain ⟨front, rfl⟩ := hrest
  by_cases hnil : rest = []
  · exact .inl hnil
  · exact .inr (h.of_append hnil)

theorem EndsInStep.trimLead (h : EndsInStep segs) : EndsInStep (trimLead segs) := by
  obtain ⟨front, n, c, rfl, hn⟩ := h
  induction front with
  | nil =>
    rw [List.nil_append, trimLead_cons_of_some hn]
    exact ⟨[], n, c, rfl, hn⟩
  | cons s front ih =>
    cases hs : component? s with
    | none =>
      rw [List.cons_append, trimLead_cons_of_none hs]
      exact ih
    | some c' =>
      rw [List.cons_append, trimLead_cons_of_some hs]
      exact ⟨s :: front, n, c, rfl, hn⟩

theorem trimLead_reverse (h : EndsInStep segs) : (Path.trimLead segs.reverse).reverse = segs := by
  obtain ⟨front, n, c, rfl, hn⟩ := h
  rw [List.reverse_concat, trimLead_cons_of_some hn, ← List.reverse_concat, List.reverse_reverse]

/-- Once the steps of the front have gone, nothing of it is left that stands for one. -/
theorem trimLead_dropSteps (front segs : List String) :
    trimLead (dropSteps (front.filterMap component?).length (front ++ segs)) = trimLead segs := by
  induction front with
  | nil => rw [List.filterMap_nil, List.length_nil, dropSteps, List.nil_append]
  | cons s front ih =>
    cases hs : component? s with
    | none =>
      rw [List.filterMap_cons_none hs, List.cons_append]
      generalize (front.filterMap component?).length = k at ih ⊢
      cases k with
      | zero =>
        rw [dropSteps] at ih ⊢
        rw [trimLead_cons_of_none hs, ih]
      | succ k =>
        rw [dropSteps, hs]
        exact ih
    | some c =>
      rw [List.filterMap_cons_some hs, List.length_cons, List.cons_append, dropSteps, hs]
      exact ih

/-- The segments that stand for steps. -/
def solid (segs : List String) : List String :=
  segs.filter fun s => (component? s).isSome

theorem solid_trimLead (segs : List String) : solid (trimLead segs) = solid segs := by
  induction segs with
  | nil => rfl
  | cons s rest ih =>
    cases hs : component? s with
    | none =>
      rw [trimLead_cons_of_none hs, ih, solid, solid, List.filter_cons_of_neg (by rw [hs]; decide)]
    | some c => rw [trimLead_cons_of_some hs]

theorem EndsInStep.solid (h : EndsInStep segs) : EndsInStep (solid segs) := by
  obtain ⟨front, n, c, rfl, hn⟩ := h
  refine ⟨Path.solid front, n, c, ?_, hn⟩
  have hkept : Path.solid [n] = [n] := List.filter_cons_of_pos (by rw [hn]; rfl)
  rw [Path.solid, List.filter_append]
  exact congrArg _ hkept

theorem EndsInStep.ne_nil (h : EndsInStep segs) : segs ≠ [] := by
  obtain ⟨front, n, c, rfl, -⟩ := h
  simp

/-- A path without what stands for no step at its start. -/
def tidied (p : Path) : Path :=
  "/".intercalate (trimLead (segments p))

theorem isWithin_join (hdir : dir ≠ "") (hrel : isAbsolute rel = false) :
    isWithin (dir.join rel) dir = true := by
  rw [isWithin, components_join hdir hrel]
  exact List.isPrefixOf_iff_prefix.mpr (List.prefix_append _ _)

theorem components_ne_nil (hp : p ≠ "") : components p ≠ [] := by
  intro hnone
  rw [components_eq, List.append_eq_nil_iff] at hnone
  obtain ⟨hlead, hsteps⟩ := hnone
  obtain ⟨s, rest, hsegs⟩ := List.exists_cons_of_ne_nil (segments_ne_nil p)
  rw [hsegs] at hsteps
  -- the first segment stands for no step, and a relative path does not start with an empty one
  have hs : component? s = none := List.filterMap_eq_nil_iff.mp hsteps s List.mem_cons_self
  rw [lead, hsegs] at hlead
  rcases component?_eq_none_iff.mp hs with rfl | rfl
  · have hslash : p = "/".intercalate ("" :: rest) := by rw [← hsegs, intercalate_segments]
    cases rest with
    | nil => exact hp (hslash.trans String.intercalate_singleton)
    | cons s' rest =>
      have hroot : isAbsolute p = true := by
        rw [hslash, String.intercalate_cons_cons, String.append_assoc]
        exact isAbsolute_append (p := "/") nofun _
      rw [if_pos hroot] at hlead
      cases hlead
  · split at hlead
    · cases hlead
    · rw [List.head?_cons, if_pos rfl] at hlead
      cases hlead

theorem join_ne_empty (hdir : dir ≠ "") (hrel : isAbsolute rel = false) : dir.join rel ≠ "" := by
  intro hempty
  have hcomponents := components_join hdir hrel
  rw [hempty] at hcomponents
  exact components_ne_nil hdir (List.append_eq_nil_iff.mp hcomponents.symm).1

theorem length_steps (p : Path) :
    ((components p).filter fun c => c != .root && c != .here).length =
      ((segments p).filterMap component?).length := by
  have hsteps : ∀ c ∈ (segments p).filterMap component?, (c != .root && c != .here) = true := by
    intro c hc
    obtain ⟨s, -, hs⟩ := List.mem_filterMap.mp hc
    unfold component? at hs
    split at hs
    · cases hs
    · split at hs <;> (cases hs; rfl)
  have hlead : ∀ c ∈ lead p, ¬ (c != .root && c != .here) = true := by
    unfold lead
    split
    · simp
    · split <;> simp
  rw [components_eq, List.filter_append, List.filter_eq_nil_iff.mpr hlead,
    List.filter_eq_self.mpr hsteps, List.nil_append]

theorem below?_join (hdir : dir ≠ "") (hrel : isAbsolute rel = false)
    (hends : EndsInStep (segments rel)) : below? (dir.join rel) dir = some (tidied rel) := by
  obtain ⟨stem, hstem⟩ := exists_isStem hdir
  rw [below?, if_pos (isWithin_join hdir hrel)]
  dsimp only
  rw [if_neg (components_ne_nil hdir), length_steps, hstem.filterMap, hstem.join rel hrel,
    trimSegments, trimLead_dropSteps, trimLead_reverse hends.trimLead, tidied]

theorem below?_empty (hends : EndsInStep (segments p)) : below? p "" = some p := by
  have hsegs : segments p ≠ [] := segments_ne_nil p
  have hnone : components "" = [] := by decide
  rw [below?, if_pos (by rw [isWithin, hnone]; rfl)]
  dsimp only
  rw [if_pos hnone, trimLead_reverse hends, intercalate_segments, if_neg (by simp [hsegs])]

/-! ## 5. Tidied paths -/

theorem segments_tidied (h : EndsInStep (segments p)) : segments (tidied p) = trimLead (segments p) :=
  segments_intercalate
    (fun _ hs => not_mem_of_mem_segments ((trimLead_suffix (segments p)).subset hs))
    h.trimLead.ne_nil

theorem head?_segments_of_isAbsolute (h : isAbsolute p = true) : (segments p).head? = some "" := by
  obtain ⟨cs, hcs⟩ := List.head?_eq_some_iff.mp (eq_of_beq h)
  have hp : p = "" ++ "/" ++ String.ofList cs := by
    rw [← String.toList_inj, hcs]
    simp
  rw [hp, segments_slash]
  rfl

theorem isAbsolute_tidied (h : EndsInStep (segments p)) : isAbsolute (tidied p) = false := by
  refine eq_false_of_ne_true fun habs => ?_
  have hhead := head?_segments_of_isAbsolute habs
  rw [segments_tidied h] at hhead
  obtain ⟨rest, hrest⟩ := List.head?_eq_some_iff.mp hhead
  exact component?_of_trimLead hrest rfl

/-- What is lost of a path that is tidied stood at its start. -/
theorem exists_eq_append_tidied (p : Path) : ∃ front : String, p = front ++ tidied p := by
  have hjoined : ∀ segs, ∃ front : String,
      "/".intercalate segs = front ++ "/".intercalate (trimLead segs) := by
    intro segs
    induction segs with
    | nil => exact ⟨"", rfl⟩
    | cons s rest ih =>
      cases hs : component? s with
      | some c => exact ⟨"", by rw [trimLead_cons_of_some hs, String.empty_append]⟩
      | none =>
        obtain ⟨front, hfront⟩ := ih
        rw [trimLead_cons_of_none hs]
        cases rest with
        | nil => exact ⟨s, by rw [String.intercalate_singleton]; exact (String.append_empty).symm⟩
        | cons s' rest =>
          exact ⟨s ++ "/" ++ front, by rw [String.intercalate_cons_cons, hfront,
            ← String.append_assoc]⟩
  obtain ⟨front, hfront⟩ := hjoined (segments p)
  rw [intercalate_segments] at hfront
  exact ⟨front, hfront⟩

theorem components_join_tidied (hdir : dir ≠ "") (hrel : isAbsolute rel = false)
    (hends : EndsInStep (segments rel)) :
    components (dir.join (tidied rel)) = components (dir.join rel) := by
  rw [components_join hdir (isAbsolute_tidied hends), components_join hdir hrel,
    segments_tidied hends, filterMap_trimLead]

/-! ## 6. Slashes at the end -/

/-- Slashes at the end add empty segments only. -/
theorem exists_segments_slashes (p : Path) (n : Nat) :
    ∃ m, segments (p ++ String.ofList (List.replicate n '/')) = segments p ++ List.replicate m "" := by
  induction n with
  | zero => exact ⟨0, by simp⟩
  | succ n ih =>
    obtain ⟨m, hm⟩ := ih
    refine ⟨m + 1, ?_⟩
    have hmore : p ++ String.ofList (List.replicate (n + 1) '/') =
        p ++ String.ofList (List.replicate n '/') ++ "/" ++ "" := by
      rw [← String.toList_inj]
      simp [List.replicate_succ']
    rw [hmore, segments_slash, hm, List.append_assoc, List.replicate_succ']
    rfl

theorem exists_eq_append_slashes (cs : List Char) :
    ∃ n, cs = Text.dropEndWhile (· == '/') cs ++ List.replicate n '/' := by
  refine ⟨(cs.reverse.takeWhile (· == '/')).length, ?_⟩
  have hslashes : cs.reverse.takeWhile (· == '/') =
      List.replicate (cs.reverse.takeWhile (· == '/')).length '/' :=
    List.eq_replicate_of_mem fun c hc => eq_of_beq (List.all_eq_true.mp List.all_takeWhile c hc)
  have hsplit := congrArg List.reverse (List.takeWhile_append_dropWhile (p := (· == '/')) (l := cs.reverse))
  rw [List.reverse_append, hslashes, List.reverse_replicate, List.reverse_reverse] at hsplit
  exact hsplit.symm

/-- A path without the slashes at its end starts where the path starts, and lacks empty segments
only. -/
theorem withoutSlashes_eq (p : Path) : isAbsolute p.withoutSlashes = isAbsolute p ∧
    ∃ q : Path, ∃ n m, segments p = segments q ++ List.replicate n "" ∧
      segments p.withoutSlashes = segments q ++ List.replicate m "" := by
  obtain ⟨k, hk⟩ := exists_eq_append_slashes p.toList
  have hp : p = String.ofList (Text.dropEndWhile (· == '/') p.toList) ++
      String.ofList (List.replicate k '/') := by
    rw [← String.toList_inj, String.toList_append, String.toList_ofList, String.toList_ofList]
    exact hk
  obtain ⟨n, hn⟩ := exists_segments_slashes (String.ofList (Text.dropEndWhile (· == '/') p.toList)) k
  rw [← hp] at hn
  unfold withoutSlashes
  split
  · rename_i hnil
    rw [hnil] at hn
    split
    · rename_i habs
      exact ⟨habs.symm, "", n, 1, hn, rfl⟩
    · rename_i habs
      exact ⟨(eq_false_of_ne_true habs).symm, "", n, 0, hn, rfl⟩
  · rename_i hne
    refine ⟨?_, _, n, 0, hn, (List.append_nil _).symm⟩
    conv_rhs => rw [hp]
    exact (isAbsolute_append (fun hnil => hne (String.ofList_eq_empty_iff.mp hnil)) _).symm

theorem mem_withoutSlashes (hc : c ≠ '/') : c ∈ p.withoutSlashes.toList ↔ c ∈ p.toList := by
  obtain ⟨k, hk⟩ := exists_eq_append_slashes p.toList
  have hslash : c ∉ List.replicate k '/' := fun hmem => hc (List.eq_of_mem_replicate hmem)
  have hcore : c ∈ p.toList ↔ c ∈ Text.dropEndWhile (· == '/') p.toList := by
    conv_lhs => rw [hk]
    rw [List.mem_append, or_iff_left hslash]
  rw [hcore, withoutSlashes]
  split
  · rename_i hnil
    rw [hnil]
    split <;> simp [hc]
  · rw [String.toList_ofList]

/-- Only the root still ends in a slash. -/
theorem eq_root_of_getLast? (h : p.withoutSlashes.toList.getLast? = some '/') :
    p.withoutSlashes = "/" := by
  unfold withoutSlashes at h ⊢
  split at h
  · split at h
    · rw [if_pos ‹_›]
    · cases h
  · have hnot := List.head?_dropWhile_not (· == '/') p.toList.reverse
    rw [String.toList_ofList, Text.dropEndWhile, List.getLast?_reverse] at h
    rw [h] at hnot
    simp at hnot

/-- A path whose last segment is empty ends in a slash. -/
theorem getLast?_of_segments (hp : p ≠ "") (h : (segments p).getLast? = some "") :
    p.toList.getLast? = some '/' := by
  obtain ⟨front, hfront⟩ := List.getLast?_eq_some_iff.mp h
  have hslash : ∀ s ∈ front, '/' ∉ s.toList := fun s hs =>
    not_mem_of_mem_segments (hfront ▸ List.mem_append_left [""] hs)
  by_cases hnil : front = []
  · refine absurd ?_ hp
    rw [← intercalate_segments p, hfront, hnil]
    exact String.intercalate_singleton
  · have hsegs : segments p = segments ("/".intercalate front ++ "/" ++ "") := by
      rw [segments_slash, segments_intercalate hslash hnil, hfront]
      rfl
    rw [← intercalate_segments p, hsegs, intercalate_segments, String.append_empty,
      String.toList_append]
    exact List.getLast?_concat

end Path

end Playground
