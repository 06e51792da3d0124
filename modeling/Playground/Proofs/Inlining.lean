import Playground.Proofs.Rewriting
/-!
# What inlining does to the regions of a file

A region is rewritten when it is wanted and no other rewritten region contains it.  The regions that
the edits of an outline are made for are the rewritten ones, each edit puts the replacement of its
region in place, and no two of them touch.
-/

namespace Playground

open Text

namespace Inline

/-! ## 1. Which regions are rewritten, and to what -/

/-- Whether a region of a file is rewritten when no region around it is: the active region is, and
so is every other one that does not contain it and that has a buffer or a file with the active
one. -/
def Wanted (w : Workspace) (active : BufferId) (regions : List Region) (v : Region) : Prop :=
  v.bufferId = active ∨
    (¬∃ a ∈ regions, a.bufferId = active ∧ v.span.containsSpan a.span = true) ∧
      ((∃ b ∈ w.buffers, b.id = v.bufferId) ∨ ∃ a ∈ regions, a.bufferId = active)

/-- No other region of the list contains `v`. -/
def Uncontained (regions : List Region) (v : Region) : Prop :=
  ∀ u ∈ regions, u ≠ v → ¬u.span.containsSpan v.span = true

/-- The rewritten regions of a file, in order. -/
structure AreRewritten (w : Workspace) (active : BufferId) (regions rewritten : List Region) :
    Prop where
  sublist : rewritten.Sublist regions
  mem_iff : ∀ v ∈ regions, v ∈ rewritten ↔ Uncontained rewritten v ∧ Wanted w active regions v

/-- Texts of equal byte length, the second of which has the line feeds and carriage returns of the
first in their places and spaces everywhere else. -/
structure Blanked (old new : List Char) : Prop where
  length_eq : byteLength new = byteLength old
  keeps : ∀ a c b, old = a ++ c :: b → c = '\n' ∨ c = '\r' →
    ∃ a' b', new = a' ++ c :: b' ∧ byteLength a' = byteLength a
  clears : ∀ a c b, new = a ++ c :: b → c = ' ' ∨
    (c = '\n' ∨ c = '\r') ∧ ∃ a' b', old = a' ++ c :: b' ∧ byteLength a' = byteLength a

/-- Whether `new` is the replacement of a rewritten region that held `old`. -/
def Replacement (w : Workspace) (active : BufferId) (v : Region) (old new : List Char) : Prop :=
  match w.buffers.find? (·.id = v.bufferId) with
  | some b => new = '\n' :: b.content.toList ++ ['\n']
  | none => if v.bufferId = active then new = '\n' :: old ++ ['\n'] else Blanked old new

/-- Whether `f'` is what inlining makes of the file `f`: all its rewritten regions have been
replaced by their replacements at once, and nothing else has changed. -/
structure InlinedFile (w : Workspace) (active : BufferId) (f f' : SourceFile) : Prop where
  name_eq : f'.name = f.name
  rewritten : ∃ regions rewritten es, Region.ofFile f = .ok regions ∧
    AreRewritten w active regions rewritten ∧
    rewritten.Pairwise (fun u v => u.span.stop < v.span.start) ∧
    List.Forall₂
      (fun v e => e.span = v.span ∧ ∃ old, v.content? f.text.toList = some old ∧
        Replacement w active v old e.text) rewritten es ∧
    Replaced 0 f.text.toList es f'.text.toList

/-- The names among `names` that denote no known file, each the first time it comes up. -/
def freshNames : List String → List String → List String
  | _, [] => []
  | known, name :: names =>
      if known.any (FileName.same · name) then freshNames known names
      else name :: freshNames (known ++ [name]) names

/-! ## 2. Blanks -/

theorem blank_append (a b : List Char) : blank (a ++ b) = blank a ++ blank b :=
  List.flatMap_append

theorem blank_cons_lineEnd {c : Char} (h : c = '\n' ∨ c = '\r') (cs : List Char) :
    blank (c :: cs) = c :: blank cs := by
  rw [blank, List.flatMap_cons, if_pos h]
  rfl

theorem blank_cons_other {c : Char} (h : ¬(c = '\n' ∨ c = '\r')) (cs : List Char) :
    blank (c :: cs) = List.replicate c.utf8Size ' ' ++ blank cs := by
  rw [blank, List.flatMap_cons, if_neg h]
  rfl

theorem byteLength_spaces (n : Nat) : byteLength (List.replicate n ' ') = n := by
  rw [byteLength_replicate, show (' ').utf8Size = 1 by decide, Nat.mul_one]

theorem byteLength_blank (cs : List Char) : byteLength (blank cs) = byteLength cs := by
  induction cs with
  | nil => rfl
  | cons c cs ih =>
    by_cases h : c = '\n' ∨ c = '\r'
    · rw [blank_cons_lineEnd h, byteLength_cons, byteLength_cons, ih]
    · rw [blank_cons_other h, byteLength_append, byteLength_spaces, byteLength_cons, ih]

theorem endsLine_blank {cs : List Char} (h : EndsLine cs) : EndsLine (blank cs) := by
  rcases h with rfl | ⟨front, rfl⟩
  · exact .inl rfl
  · rw [blank_append]
    exact endsLine_append_lf _

theorem clears_blank {old a b : List Char} {c : Char} (h : blank old = a ++ c :: b) :
    c = ' ' ∨ (c = '\n' ∨ c = '\r') ∧
      ∃ a' b', old = a' ++ c :: b' ∧ byteLength a' = byteLength a := by
  induction old generalizing a with
  | nil => exact absurd h.symm (List.append_ne_nil_of_right_ne_nil a (List.cons_ne_nil c b))
  | cons d old ih =>
    -- `front` is what the blank has for the first character, and `c` stands behind that
    have hlater : ∀ front a₁, byteLength front = d.utf8Size → a = front ++ a₁ →
        blank old = a₁ ++ c :: b → c = ' ' ∨ (c = '\n' ∨ c = '\r') ∧
          ∃ a' b', d :: old = a' ++ c :: b' ∧ byteLength a' = byteLength a := by
      rintro front a₁ hfront rfl hblank
      rcases ih hblank with hc | ⟨hc, a', b', rfl, hlen⟩
      · exact .inl hc
      · exact .inr ⟨hc, d :: a', b', rfl, by rw [byteLength_cons, byteLength_append, hlen, hfront]⟩
    by_cases hd : d = '\n' ∨ d = '\r'
    · -- a line end is kept
      rw [blank_cons_lineEnd hd] at h
      cases a with
      | nil =>
        obtain ⟨rfl, -⟩ := List.cons.inj h
        exact .inr ⟨hd, [], old, rfl, rfl⟩
      | cons x a =>
        obtain ⟨rfl, hblank⟩ := List.cons.inj h
        exact hlater [d] a (by rw [byteLength_cons, byteLength_nil, Nat.add_zero]) rfl hblank
    · -- any other character leaves spaces, and `c` is one of them or stands behind them
      rw [blank_cons_other hd] at h
      rcases List.append_eq_append_iff.mp h with ⟨a₁, ha, h⟩ | ⟨spaces, hspaces, h⟩
      · exact hlater _ a₁ (byteLength_spaces _) ha h
      · cases spaces with
        | nil =>
          rw [List.append_nil] at hspaces
          exact hlater a [] (by rw [← hspaces, byteLength_spaces]) (List.append_nil a).symm h.symm
        | cons x spaces =>
          obtain ⟨rfl, -⟩ := List.cons.inj h
          have hc : c ∈ List.replicate d.utf8Size ' ' := by simp [hspaces]
          exact .inl (List.mem_replicate.mp hc).2

theorem blanked_blank (old : List Char) : Blanked old (blank old) where
  length_eq := byteLength_blank old
  keeps := by
    rintro a c b rfl hc
    exact ⟨blank a, blank b, by rw [blank_append, blank_cons_lineEnd hc], byteLength_blank a⟩
  clears _ _ _ := clears_blank

/-! ## 3. Replacements -/

/-- What a file with the given regions is inlined for. -/
def target (w : Workspace) (active : BufferId) (regions : List Region) : Target :=
  ⟨w, active, (regions.find? (·.bufferId == active)).map (·.span),
    (regions.find? (·.bufferId == active)).isSome⟩

theorem replacement?_isSome {t : Target} {r : Region} (old other : List Char) :
    (replacement? t r old).isSome = (replacement? t r other).isSome := by
  unfold replacement?
  dsimp only
  split
  · rfl
  · split
    · rfl
    · split
      · rfl
      · split <;> rfl

variable {w : Workspace} {active : BufferId} {regions : List Region}

theorem isSome_find?_active :
    (regions.find? (·.bufferId == active)).isSome = true ↔ ∃ a ∈ regions, a.bufferId = active := by
  rw [List.find?_isSome]
  simp only [beq_iff_eq]

/-- Ids of regions differ, so the region that is found is the only active one. -/
theorem find?_active (hids : (regions.map (·.bufferId)).Nodup) {a : Region} (ha : a ∈ regions)
    (hactive : a.bufferId = active) : regions.find? (·.bufferId == active) = some a := by
  cases hfind : regions.find? (·.bufferId == active) with
  | none =>
    have hnone := List.find?_eq_none.mp hfind a ha
    simp [hactive] at hnone
  | some a' =>
    have ha' := List.mem_of_find?_eq_some hfind
    have hactive' : a'.bufferId = active := by simpa using List.find?_some hfind
    rw [List.inj_on_of_nodup_map hids ha' ha (by rw [hactive, hactive'])]

theorem any_activeSpan_iff (hids : (regions.map (·.bufferId)).Nodup) (v : Region) :
    (target w active regions).activeSpan.any v.span.containsSpan = true ↔
      ∃ a ∈ regions, a.bufferId = active ∧ v.span.containsSpan a.span = true := by
  rw [target]
  constructor
  · intro h
    cases hfind : regions.find? (·.bufferId == active) with
    | none => rw [hfind] at h; cases h
    | some a =>
      rw [hfind] at h
      exact ⟨a, List.mem_of_find?_eq_some hfind, by simpa using List.find?_some hfind, h⟩
  · rintro ⟨a, ha, hactive, hcontains⟩
    rw [find?_active hids ha hactive]
    exact hcontains

theorem isSome_buffer? (id : BufferId) :
    (w.buffer? id).isSome = true ↔ ∃ b ∈ w.buffers, b.id = id := by
  rw [Workspace.buffer?, List.find?_isSome]
  simp only [beq_iff_eq]

theorem replacement?_target (v : Region) (old : List Char) :
    replacement? (target w active regions) v old =
      if v.bufferId = active then
        some (padded (((w.buffer? active).map (·.content.toList)).getD old))
      else if (target w active regions).activeSpan.any v.span.containsSpan then none
      else match w.buffer? v.bufferId with
        | some b => some (padded b.content.toList)
        | none =>
            if (regions.find? (·.bufferId == active)).isSome then some (blank old) else none := by
  by_cases hactive : v.bufferId = active
  · subst hactive
    rw [if_pos rfl]
    exact if_pos rfl
  · rw [if_neg hactive]
    exact if_neg hactive

theorem isSome_replacement?_iff (hids : (regions.map (·.bufferId)).Nodup) (v : Region)
    (old : List Char) :
    (replacement? (target w active regions) v old).isSome = true ↔ Wanted w active regions v := by
  -- a region is wanted for one of the reasons that are tried in turn
  rw [Wanted, ← any_activeSpan_iff (w := w) hids v, ← isSome_find?_active, ← isSome_buffer?,
    replacement?_target]
  by_cases hactive : v.bufferId = active
  · simp [hactive]
  · by_cases haround : (target w active regions).activeSpan.any v.span.containsSpan = true
    · simp [hactive, haround]
    · rw [if_neg hactive, if_neg haround]
      cases hbuffer : w.buffer? v.bufferId with
      | some b => simp [haround]
      | none => cases hfind : regions.find? (·.bufferId == active) <;> simp [hactive, haround]

/-- What takes the place of a region is its replacement. -/
theorem replacement_of_eq_some {v : Region} {old new : List Char}
    (h : replacement? (target w active regions) v old = some new) :
    Replacement w active v old new := by
  rw [replacement?_target] at h
  rw [Replacement, show w.buffers.find? (·.id = v.bufferId) = w.buffer? v.bufferId from rfl]
  -- the active region always has a replacement, another one only with a buffer or beside it
  by_cases hactive : v.bufferId = active
  · rw [if_pos hactive, ← hactive] at h
    rw [← Option.some.inj h]
    cases w.buffer? v.bufferId with
    | some b => rfl
    | none =>
      dsimp only
      rw [if_pos hactive]
      rfl
  · rw [if_neg hactive] at h
    split at h
    · cases h
    · cases hbuffer : w.buffer? v.bufferId with
      | some b =>
        rw [hbuffer] at h
        exact (Option.some.inj h).symm
      | none =>
        rw [hbuffer] at h
        rw [if_neg hactive]
        dsimp only at h
        split at h
        · rw [← Option.some.inj h]
          exact blanked_blank old
        · cases h

end Inline

open Inline

namespace Region.Outline

variable {k : Strays} {t : Target} {file : String}

/-! ## 4. The rewritten regions of an outline -/

theorem uncontained_append {a b : List Region} {v : Region} :
    Uncontained (a ++ b) v ↔ Uncontained a v ∧ Uncontained b v := List.forall_mem_append

theorem uncontained_self (v : Region) : Uncontained [v] v :=
  fun _ hu hne => absurd (List.mem_singleton.mp hu) hne

/-- Regions that lie entirely before or after `v` neither are nor contain `v`. -/
theorem notMem_and_uncontained_of_apart {us : List Region} {v : Region}
    (h : ∀ u ∈ us, u.span.stop < v.span.start ∨ v.span.start < u.span.start) :
    v ∉ us ∧ Uncontained us v := by
  have hle : v.span.start ≤ v.span.stop := Nat.le_add_right _ _
  constructor
  · intro hv
    have hv' := h v hv
    omega
  · intro u hu _
    rcases h u hu with hlt | hlt
    · exact Span.not_containsSpan_of_lt_start hlt
    · exact Span.not_containsSpan_of_start_lt hlt

/-- Nothing inside or behind a block contains its region. -/
theorem apart_of_region (t : Target) (file : String) (name : List Char) {start : Nat}
    {body : Outline .none} (rest : Outline k) {offset : Nat}
    (hoffset : start + byteLength body.text ≤ offset) :
    (region file name start body ∉ body.rewritten t file start ∧
      Uncontained (body.rewritten t file start) (region file name start body)) ∧
    (region file name start body ∉ rest.rewritten t file offset ∧
      Uncontained (rest.rewritten t file offset) (region file name start body)) := by
  constructor
  · exact notMem_and_uncontained_of_apart fun u hu => .inr (range_of_mem_rewritten hu).1
  · refine notMem_and_uncontained_of_apart fun u hu => .inr ?_
    have hu' := range_of_mem_rewritten hu
    rw [region_start]
    omega

/-- What stands behind a block contains nothing inside it. -/
theorem apart_of_mem_body (t : Target) {start : Nat} {body : Outline .none} (rest : Outline k)
    {offset : Nat} {v : Region} (hv : v ∈ body.regions file start)
    (hoffset : start + byteLength body.text ≤ offset) :
    v ∉ rest.rewritten t file offset ∧ Uncontained (rest.rewritten t file offset) v := by
  refine notMem_and_uncontained_of_apart fun u hu => .inr ?_
  have hv' := range_of_mem_regions hv
  have hu' := range_of_mem_rewritten hu
  have hle : v.span.start ≤ v.span.stop := Nat.le_add_right _ _
  omega

/-- What is rewritten of a block contains nothing behind it. -/
theorem apart_of_mem_rest (t : Target) (name : List Char) {start : Nat} {body : Outline .none}
    {rest : Outline k} {offset : Nat} {v : Region} (hv : v ∈ rest.regions file offset)
    (hoffset : start + byteLength body.text ≤ offset) {us : List Region}
    (hus : us = if (replacement? t (region file name start body) body.text).isSome
      then [region file name start body] else body.rewritten t file start) :
    v ∉ us ∧ Uncontained us v := by
  subst hus
  refine notMem_and_uncontained_of_apart fun u hu => .inl ?_
  have hv' := range_of_mem_regions hv
  have hu' := range_of_mem_rewritten_block hu
  omega

/-- Whether a region is rewritten is decided by the rewritten regions around it and by whether it
has a replacement itself. -/
theorem mem_rewritten_iff {o : Outline k} {offset : Nat} {v : Region}
    (hv : v ∈ o.regions file offset) (old : List Char) :
    v ∈ o.rewritten t file offset ↔
      Uncontained (o.rewritten t file offset) v ∧ (replacement? t v old).isSome = true := by
  induction o generalizing offset with
  | done => cases hv
  | line text plain rest ih => exact ih hv
  | block opening name starts body closing stops rest ihbody ihrest =>
    have hoffset : offset + byteLength opening + byteLength body.text ≤
        offset + byteLength opening + byteLength body.text + byteLength closing :=
      Nat.le_add_right _ _
    rw [rewritten, List.mem_append, uncontained_append]
    rw [regions, List.cons_append, List.mem_cons, List.mem_append] at hv
    rcases hv with rfl | hv | hv
    · -- `v` is the region of the block
      obtain ⟨hbody, hrest⟩ := apart_of_region t file name rest hoffset
      rw [or_iff_left hrest.1, and_iff_left hrest.2, replacement?_isSome old body.text]
      split
      · rename_i hsome
        exact iff_of_true List.mem_cons_self ⟨uncontained_self _, hsome⟩
      · rename_i hnone
        exact iff_of_false hbody.1 fun h => hnone h.2
    · -- `v` stands in the body, and the block decides whether the body is looked at
      have hrest := apart_of_mem_body t rest hv hoffset
      rw [or_iff_left hrest.1, and_iff_left hrest.2]
      split
      · -- the region of the block is rewritten and contains `v`
        obtain ⟨hne, hcontains⟩ := region_contains name hv
        refine iff_of_false (fun hmem => hne (List.mem_singleton.mp hmem).symm) fun h => ?_
        exact h.1 _ List.mem_cons_self hne hcontains
      · exact ihbody hv
    · -- `v` stands behind the block, where nothing of the block contains it
      have hblock := apart_of_mem_rest t name hv hoffset rfl
      rw [or_iff_right hblock.1, and_iff_right hblock.2]
      exact ihrest hv
  | unclosed allowed opening name starts rest ih => exact ih hv
  | unopened allowed closing stops rest ih => exact ih hv

/-- Every edit replaces the whole text of its region. -/
theorem forall₂_rewritten_edits (t : Target) (file : String) (o : Outline k)
    (front back : List Char) :
    List.Forall₂
      (fun v e => e.span = v.span ∧ ∃ old, v.content? (front ++ o.text ++ back) = some old ∧
        replacement? t v old = some e.text)
      (o.rewritten t file (byteLength front)) (o.edits t file (byteLength front)) := by
  induction o generalizing front back with
  | done => exact .nil
  | line text plain rest ih =>
    have h := ih (front ++ text) back
    rw [byteLength_append] at h
    simpa [rewritten, edits] using h
  | block opening name starts body closing stops rest ihbody ihrest =>
    have hrest := ihrest (front ++ opening ++ body.text ++ closing) back
    have hbody := ihbody (front ++ opening) (closing ++ rest.text ++ back)
    rw [← append_text_rest front back opening name starts body closing stops rest,
      append_text_body, byteLength_append, byteLength_append] at hrest
    rw [rewritten, edits, append_text_body, ← byteLength_append]
    refine List.rel_append ?_ hrest
    cases hnew : replacement? t (region file name (byteLength (front ++ opening)) body)
        body.text with
    | some new =>
      exact .cons ⟨rfl, body.text, content?_region name (front ++ opening) body _, hnew⟩ .nil
    | none => exact hbody
  | unclosed allowed opening name starts rest ih =>
    have h := ih (front ++ opening) back
    rw [byteLength_append] at h
    simpa [rewritten, edits] using h
  | unopened allowed closing stops rest ih =>
    have h := ih (front ++ closing) back
    rw [byteLength_append] at h
    simpa [rewritten, edits] using h

theorem text_eq_of_lines {o : Outline k} {cs : List Char} (h : o.lines = Text.lines cs) :
    o.text = cs := by
  rw [text, h, flatten_lines]

end Region.Outline

/-! ## 5. Inlining a region -/

namespace Inline

variable {w w' : Workspace} {active : BufferId}

theorem unknownRegion?_eq_none_iff {regions : List Region} {ids : List BufferId} :
    unknownRegion? regions ids = none ↔
      ∀ id ∈ ids, id.hasRegion = true → ∃ r ∈ regions, r.bufferId = id := by
  rw [unknownRegion?, List.find?_eq_none]
  simp

/-- The checks of inlining, one after the other, and what it gives when none of them objects. -/
theorem inline_eq (w : Workspace) (active : BufferId) :
    inline w active =
      if !active.isEmpty && !active.hasRegion && !(baseFiles w).any (·.isNamed active.fileName) then
        .error (.unknownBuffer active)
      else match Region.ofFiles (baseFiles w) with
        | .error d => .error (.duplicateRegion d.file d.region)
        | .ok regions =>
            match unknownRegion? regions (w.buffers.map (·.id) ++ [active]) with
            | some id => .error (.unknownBuffer id)
            | none =>
                if active.hasRegion then
                  ((baseFiles w).mapM (inlineFile w active regions)).map w.withFiles
                else .ok (w.withFiles (baseFiles w)) := by
  unfold inline
  dsimp only [bind, Except.bind, pure, Except.pure]
  split
  · rfl
  · rw [regionsOf]
    cases Region.ofFiles (baseFiles w) with
    | error d => rfl
    | ok regions =>
      dsimp only
      cases hunknown : unknownRegion? regions (w.buffers.map (·.id) ++ [active]) with
      | some id => rfl
      | none =>
        dsimp only
        cases hregion : active.hasRegion with
        | false => rw [Bool.not_false, Bool.or_true, if_pos rfl, if_neg Bool.false_ne_true]
        | true =>
          -- the region asked for is known, so there are regions and files are rewritten
          obtain ⟨r, hr, -⟩ := unknownRegion?_eq_none_iff.mp hunknown active (by simp) hregion
          have hne : regions.isEmpty = false :=
            List.isEmpty_eq_false_iff.mpr (List.ne_nil_of_mem hr)
          rw [hne, Bool.not_true, Bool.or_false, if_neg Bool.false_ne_true, if_pos rfl]
          cases (baseFiles w).mapM (inlineFile w active regions) <;> rfl

/-- Inlining for a region does not ask for a file of the active buffer's name. -/
theorem inline_of_region (hregion : active.hasRegion = true) :
    inline w active =
      match Region.ofFiles (baseFiles w) with
      | .error d => .error (.duplicateRegion d.file d.region)
      | .ok regions =>
          match unknownRegion? regions (w.buffers.map (·.id) ++ [active]) with
          | some id => .error (.unknownBuffer id)
          | none => ((baseFiles w).mapM (inlineFile w active regions)).map w.withFiles := by
  rw [inline_eq, hregion, Bool.not_true, Bool.and_false, Bool.false_and, if_neg Bool.false_ne_true]
  simp only [if_true]

theorem inline_eq_ok (hregion : active.hasRegion = true) (h : inline w active = .ok w') :
    ∃ regions files, Region.ofFiles (baseFiles w) = .ok regions ∧
      (∀ id ∈ w.buffers.map (·.id) ++ [active], id.hasRegion = true →
        ∃ r ∈ regions, r.bufferId = id) ∧
      (baseFiles w).mapM (inlineFile w active regions) = .ok files ∧
      w' = w.withFiles files := by
  rw [inline_of_region hregion] at h
  cases hregions : Region.ofFiles (baseFiles w) with
  | error d =>
    rw [hregions] at h
    cases h
  | ok regions =>
    rw [hregions] at h
    dsimp only at h
    cases hunknown : unknownRegion? regions (w.buffers.map (·.id) ++ [active]) with
    | some id =>
      rw [hunknown] at h
      cases h
    | none =>
      rw [hunknown] at h
      dsimp only at h
      cases hfiles : (baseFiles w).mapM (inlineFile w active regions) with
      | error e =>
        rw [hfiles] at h
        cases h
      | ok files =>
        rw [hfiles] at h
        exact ⟨regions, files, rfl, unknownRegion?_eq_none_iff.mp hunknown, hfiles,
          (Except.ok.inj h).symm⟩

/-- A file whose own regions are those of an outline gets the revised text of the outline. -/
theorem inlineFile_of_outline {f : SourceFile} {o : Region.Outline .any}
    (ho : o.lines = lines f.text.toList) {regions : List Region}
    (hown : regions.filter (fun r => f.isNamed r.destination) = o.regions f.name 0) :
    inlineFile w active regions f =
      .ok ⟨f.name,
        String.ofList (o.revised (target w active (o.regions f.name 0)) f.name 0)⟩ := by
  have hrevise := o.revise_regions (target w active (o.regions f.name 0)) f.name
  rw [Region.Outline.text_eq_of_lines ho] at hrevise
  unfold inlineFile
  rw [hown]
  cases hregions : o.regions f.name 0 with
  | nil =>
    -- a file without regions is passed over, and its outline has nothing to revise either
    have htext : revise f.text.toList (edits (target w active []) f.text.toList []) =
        some f.text.toList := by
      rw [edits, List.mergeSort_nil, List.foldl_nil, revise, List.mergeSort_nil]
      rfl
    rw [hregions, htext] at hrevise
    rw [← Option.some.inj hrevise, String.ofList_toList]
  | cons r own =>
    rw [hregions] at hrevise
    unfold target at hrevise ⊢
    dsimp only
    rw [hrevise]

/-- Every file gets the revised text of its outline. -/
theorem inline_outlines (hregion : active.hasRegion = true)
    (hnames : Region.DistinctNames (baseFiles w)) (h : inline w active = .ok w') :
    w' = w.withFiles w'.files ∧
      List.Forall₂
        (fun f f' => ∃ o : Region.Outline .any, o.lines = lines f.text.toList ∧ o.names.Nodup ∧
          f' = ⟨f.name,
            String.ofList (o.revised (target w active (o.regions f.name 0)) f.name 0)⟩)
        (baseFiles w) w'.files := by
  obtain ⟨regions, files, hregions, -, hfiles, rfl⟩ := inline_eq_ok hregion h
  obtain ⟨parts, hparts, rfl⟩ := Region.ofFiles_eq_ok_iff.mp hregions
  refine ⟨rfl, ?_⟩
  have hmem := (List.forall₂_and_left _ _).mpr ⟨fun f hf => hf, Region.mapM_eq_ok_iff.mp hfiles⟩
  apply hmem.imp
  rintro f f' ⟨hf, hf'⟩
  obtain ⟨o, ho, hnodup, hown⟩ :=
    Region.ofFile_eq_ok_iff.mp (Region.ofFile_eq_filter hparts hnames hf)
  rw [inlineFile_of_outline ho hown] at hf'
  exact ⟨o, ho, hnodup, (Except.ok.inj hf').symm⟩

/-! ## 6. The names of the files -/

theorem map_name_applyBuffer (files : List SourceFile) (b : Buffer) :
    (applyBuffer files b).map (·.name) =
      files.map (·.name) ++
        if (files.map (·.name)).any (FileName.same · b.id.fileName) then []
        else [b.id.fileName] := by
  rw [applyBuffer]
  induction files with
  | nil => rfl
  | cons f files ih =>
    rw [changeFirst, List.map_cons, List.any_cons]
    show _ = f.name :: _ ++ if (f.isNamed b.id.fileName || _) = true then _ else _
    cases f.isNamed b.id.fileName with
    | true => simp
    | false =>
      rw [Bool.false_or, if_neg Bool.false_ne_true, List.map_cons, ih]
      rfl

theorem map_name_foldl_applyBuffer (files : List SourceFile) (buffers : List Buffer) :
    (buffers.foldl applyBuffer files).map (·.name) =
      files.map (·.name) ++ freshNames (files.map (·.name)) (buffers.map (·.id.fileName)) := by
  induction buffers generalizing files with
  | nil => simp [freshNames]
  | cons b buffers ih =>
    rw [List.foldl_cons, ih, List.map_cons, freshNames, map_name_applyBuffer]
    split <;> simp

/-! ## 7. The meaning of inlining -/

theorem areRewritten_rewritten {o : Region.Outline .any} (hnodup : o.names.Nodup) (file : String) :
    AreRewritten w active (o.regions file 0)
      (o.rewritten (target w active (o.regions file 0)) file 0) where
  sublist := o.rewritten_sublist 0
  mem_iff v hv := by
    rw [← isSome_replacement?_iff (Region.Outline.nodup_bufferId hnodup 0) v []]
    exact Region.Outline.mem_rewritten_iff hv []

theorem inlinedFile_of_outline {f : SourceFile} {o : Region.Outline .any}
    (ho : o.lines = lines f.text.toList) (hnodup : o.names.Nodup) :
    InlinedFile w active f ⟨f.name,
      String.ofList (o.revised (target w active (o.regions f.name 0)) f.name 0)⟩ where
  name_eq := rfl
  rewritten := by
    have htext := Region.Outline.text_eq_of_lines ho
    have hedits :=
      o.forall₂_rewritten_edits (target w active (o.regions f.name 0)) f.name [] []
    have hreplaced := o.replaced_edits (target w active (o.regions f.name 0)) f.name 0
    rw [List.nil_append, List.append_nil, byteLength_nil, htext] at hedits
    rw [htext] at hreplaced
    refine ⟨_, _, _, Region.ofFile_eq_ok_iff.mpr ⟨o, ho, hnodup, rfl⟩,
      areRewritten_rewritten hnodup f.name, o.pairwise_rewritten 0, hedits.imp ?_, ?_⟩
    · rintro v e ⟨hspan, old, hold, hnew⟩
      exact ⟨hspan, old, hold, replacement_of_eq_some hnew⟩
    · rw [String.toList_ofList]
      exact hreplaced

/-- Inlining for a region changes nothing but the files.  They keep their names, and the whole-file
buffers that name no file add theirs; the text of each is the one its regions and the buffers
determine. -/
theorem inline_meaning (hregion : active.hasRegion = true)
    (hnames : Region.DistinctNames (baseFiles w)) (h : inline w active = .ok w') :
    w' = { w with files := w'.files } ∧
      w'.files.map (·.name) = w.files.map (·.name) ++ freshNames (w.files.map (·.name))
        ((w.buffers.filter (!·.id.hasRegion)).map (·.id.fileName)) ∧
      List.Forall₂ (InlinedFile w active) (baseFiles w) w'.files := by
  obtain ⟨hw', houtlines⟩ := inline_outlines hregion hnames h
  have hfiles : List.Forall₂ (InlinedFile w active) (baseFiles w) w'.files := by
    apply houtlines.imp
    rintro f f' ⟨o, ho, hnodup, rfl⟩
    exact inlinedFile_of_outline ho hnodup
  have hbase : List.Forall₂ (· = ·) ((baseFiles w).map (·.name)) (w'.files.map (·.name)) := by
    rw [List.forall₂_map_left_iff, List.forall₂_map_right_iff]
    exact hfiles.imp fun f f' hf => hf.name_eq.symm
  rw [List.forall₂_eq_eq_eq] at hbase
  refine ⟨hw', ?_, hfiles⟩
  rw [← hbase, baseFiles, map_name_foldl_applyBuffer]

/-- Two files with a region each, both being edited, and a file that is only a buffer. -/
def twoRegions : Workspace where
  files := [⟨"a.cs", "#region r\nold\n#endregion\n"⟩, ⟨"b.cs", "#region s\nrest\n#endregion"⟩]
  buffers := [⟨⟨"c.cs", none⟩, "new", 0⟩, ⟨⟨"a.cs", some "r"⟩, "né", 3⟩,
    ⟨⟨"b.cs", some "s"⟩, "", 0⟩]
  usings := []
  workspaceType := "script"
  language := .csharp
  includeInstrumentation := false

/-- The workspace `twoRegions` inlined for its first region. -/
def twoRegionsInlined : Workspace :=
  twoRegions.withFiles [⟨"a.cs", "#region r\n\nné\n#endregion\n"⟩,
    ⟨"b.cs", "#region s\n\n\n#endregion"⟩, ⟨"c.cs", "new"⟩]

theorem inline_twoRegions : inline twoRegions ⟨"a.cs", some "r"⟩ = .ok twoRegionsInlined := by
  decide +kernel

theorem distinctNames_twoRegions : Region.DistinctNames (baseFiles twoRegions) := by
  unfold Region.DistinctNames
  decide +kernel

theorem inline_meaning_twoRegions :
    List.Forall₂ (InlinedFile twoRegions ⟨"a.cs", some "r"⟩) (baseFiles twoRegions)
      twoRegionsInlined.files :=
  (inline_meaning rfl distinctNames_twoRegions inline_twoRegions).2.2

end Inline

end Playground
