import Playground.Proofs.Inlining
/-!
# Whether the edits of inlining fit

An edit fits when its span lies inside the text it is applied to and cuts no character.  Edits are
made for the regions that are destined for a file by name, so they fit whenever those regions are
the file's own.  Two files of one name share their regions; inlining breaks when the text of one
has no room for an edit that was made for the other.
-/

namespace Playground

open Text

namespace Inline

/-! ## 1. Edits that fit -/

/-- Whether every edit, at the moment it is applied, has its span inside the text and between
characters. -/
def Fits (text : List Char) (es : List Edit) : Prop :=
  ∀ done e later, es = done ++ e :: later →
    ∃ text', applyEdits text done = some text' ∧
      IsBoundary text' e.span.start ∧ IsBoundary text' e.span.stop

/-- The edits that inlining makes in a file, in the order in which it applies them. -/
def appliedEdits (w : Workspace) (active : BufferId) (regions : List Region) (file : SourceFile) :
    List Edit :=
  let own := regions.filter fun r => file.isNamed r.destination
  (edits (target w active own) file.text.toList own).mergeSort fun a b =>
    decide (b.span.start ≤ a.span.start)

theorem splice_isSome_iff {text : List Char} {start stop : Nat} (hle : start ≤ stop)
    (new : List Char) :
    (splice text start stop new).isSome = true ↔ IsBoundary text start ∧ IsBoundary text stop := by
  rw [Option.isSome_iff_exists]
  constructor
  · rintro ⟨out, h⟩
    obtain ⟨a, m, b, rfl, rfl, rfl, -⟩ := splice_eq_some_iff.mp h
    exact ⟨⟨a, m ++ b, List.append_assoc a m b, rfl⟩, ⟨a ++ m, b, rfl, byteLength_append a m⟩⟩
  · rintro ⟨⟨a, rest, rfl, rfl⟩, ⟨front, b, hsplit, rfl⟩⟩
    rcases List.append_eq_append_iff.mp hsplit with ⟨m, rfl, rfl⟩ | ⟨m, rfl, rfl⟩
    · -- the start comes first, and `m` lies between the two
      exact ⟨_, splice_eq_some_iff.mpr
        ⟨a, m, b, (List.append_assoc a m b).symm, rfl, (byteLength_append a m).symm, rfl⟩⟩
    · -- the stop comes first, so nothing lies between the two
      rw [byteLength_append] at hle
      have hm : m = [] := byteLength_eq_zero.mp (by omega)
      subst hm
      exact ⟨_, splice_eq_some_iff.mpr ⟨front, [], rest, by simp, by simp, by simp, rfl⟩⟩

theorem applyEdits_cons (text : List Char) (e : Edit) (es : List Edit) :
    applyEdits text (e :: es) =
      (splice text e.span.start e.span.stop e.text).bind (applyEdits · es) := rfl

/-- Edits fit exactly when applying them succeeds. -/
theorem fits_iff {text : List Char} {es : List Edit} :
    Fits text es ↔ (applyEdits text es).isSome = true := by
  -- on the edits, for whatever text the ones before have left
  induction es generalizing text with
  | nil =>
    refine iff_of_true ?_ rfl
    intro done e later h
    exact absurd h.symm (List.append_ne_nil_of_right_ne_nil done (List.cons_ne_nil e later))
  | cons e es ih =>
    have hle : e.span.start ≤ e.span.stop := Nat.le_add_right _ _
    rw [applyEdits_cons]
    constructor
    · intro h
      obtain ⟨text₀, htext₀, hbounds⟩ := h [] e es rfl
      obtain rfl : text = text₀ := Option.some.inj htext₀
      obtain ⟨text', htext'⟩ :=
        Option.isSome_iff_exists.mp ((splice_isSome_iff hle e.text).mpr hbounds)
      rw [htext', Option.bind_some, ← ih]
      -- what is done before a later edit starts with this one
      rintro done e' later rfl
      obtain ⟨text'', htext'', hbounds'⟩ := h (e :: done) e' later rfl
      rw [applyEdits_cons, htext', Option.bind_some] at htext''
      exact ⟨text'', htext'', hbounds'⟩
    · intro h
      cases hsplice : splice text e.span.start e.span.stop e.text with
      | none => rw [hsplice] at h; cases h
      | some text' =>
        rw [hsplice, Option.bind_some, ← ih] at h
        intro done e' later hes
        cases done with
        | nil =>
          obtain ⟨rfl, rfl⟩ := List.cons.inj hes
          exact ⟨text, rfl, (splice_isSome_iff hle e.text).mp (by rw [hsplice]; rfl)⟩
        | cons d done =>
          obtain ⟨rfl, rfl⟩ := List.cons.inj hes
          rw [applyEdits_cons, hsplice, Option.bind_some]
          exact h done e' later rfl

/-! ## 2. How inlining breaks -/

variable {w : Workspace} {active : BufferId}

theorem inlineFile_eq (regions : List Region) (f : SourceFile) :
    inlineFile w active regions f =
      match applyEdits f.text.toList (appliedEdits w active regions f) with
      | some text => .ok { f with text := String.ofList text }
      | none => .error (.misfit f.name) := by
  unfold inlineFile appliedEdits
  cases hown : regions.filter fun r => f.isNamed r.destination with
  | nil =>
    -- without regions there are no edits, and the text stays
    have htext : applyEdits f.text.toList ((edits (target w active []) f.text.toList []).mergeSort
        fun a b => decide (b.span.start ≤ a.span.start)) = some f.text.toList := by
      rw [edits, List.mergeSort_nil, List.foldl_nil, List.mergeSort_nil]
      rfl
    dsimp only
    rw [htext]
    simp
  | cons r own => rfl

theorem inlineFile_eq_error_iff {regions : List Region} {f : SourceFile} {e : WorkspaceError} :
    inlineFile w active regions f = .error e ↔
      e = .misfit f.name ∧ ¬Fits f.text.toList (appliedEdits w active regions f) := by
  rw [inlineFile_eq, fits_iff]
  cases applyEdits f.text.toList (appliedEdits w active regions f) with
  | some text => simp
  | none => simp [eq_comm]

/-- Inlining for a region keeps the names of all files, whether or not they are distinct. -/
theorem map_name_of_inline {w' : Workspace} (hregion : active.hasRegion = true)
    (h : inline w active = .ok w') : w'.files.map (·.name) = (baseFiles w).map (·.name) := by
  obtain ⟨regions, files, -, -, hfiles, rfl⟩ := inline_eq_ok hregion h
  have hnames : List.Forall₂ (· = ·) (files.map (·.name)) ((baseFiles w).map (·.name)) := by
    rw [List.forall₂_map_left_iff, List.forall₂_map_right_iff]
    have hall : List.Forall₂ (fun f' f => inlineFile w active regions f = .ok f') files
        (baseFiles w) := (Region.mapM_eq_ok_iff.mp hfiles).flip
    refine hall.imp fun f' f hf => ?_
    rw [inlineFile_eq] at hf
    split at hf
    · rw [← Except.ok.inj hf]
    · cases hf
  rw [List.forall₂_eq_eq_eq] at hnames
  exact hnames

/-- Inlining for a region, past the checks that come before any text is touched. -/
theorem inline_of_known (hregion : active.hasRegion = true) {regions : List Region}
    (hregions : Region.ofFiles (baseFiles w) = .ok regions)
    (hknown : unknownRegion? regions (w.buffers.map (·.id) ++ [active]) = none) :
    inline w active =
      ((baseFiles w).mapM (inlineFile w active regions)).map w.withFiles := by
  rw [inline_of_region hregion, hregions]
  dsimp only
  rw [hknown]

/-- The objections that inlining can have. -/
theorem inline_eq_error {e : WorkspaceError} (h : inline w active = .error e) :
    (∃ file region, e = .duplicateRegion file region) ∨ (∃ id, e = .unknownBuffer id) ∨
      active.hasRegion = true ∧ ∃ regions, Region.ofFiles (baseFiles w) = .ok regions ∧
        unknownRegion? regions (w.buffers.map (·.id) ++ [active]) = none ∧
        (baseFiles w).mapM (inlineFile w active regions) = .error e := by
  rw [inline_eq] at h
  split at h
  · exact .inr (.inl ⟨active, (Except.error.inj h).symm⟩)
  · split at h
    · exact .inl ⟨_, _, (Except.error.inj h).symm⟩
    · rename_i regions hregions
      split at h
      · exact .inr (.inl ⟨_, (Except.error.inj h).symm⟩)
      · rename_i hknown
        split at h
        · rename_i hregion
          refine .inr (.inr ⟨hregion, regions, hregions, hknown, ?_⟩)
          cases hfiles : (baseFiles w).mapM (inlineFile w active regions) with
          | ok files => rw [hfiles] at h; cases h
          | error e' => rw [hfiles] at h; exact congrArg Except.error (Except.error.inj h)
        · cases h

/-- Inlining takes no budget, so it overruns none. -/
theorem inline_ne_budget (w : Workspace) (active : BufferId) (e : Budget.Exceeded) :
    inline w active ≠ .error (.budget e) := by
  intro h
  rcases inline_eq_error h with ⟨file, region, he⟩ | ⟨id, he⟩ | ⟨-, regions, -, -, hfiles⟩
  · cases he
  · cases he
  · -- a file fails only because an edit does not fit it
    obtain ⟨f, -, hf⟩ := Region.exists_error_of_mapM hfiles
    cases (inlineFile_eq_error_iff.mp hf).1

/-- Inlining breaks exactly when it is for a region, has found nothing to object to, and has a file
that an edit does not fit. -/
theorem inline_misfit_iff :
    (∃ name, inline w active = .error (.misfit name)) ↔
      active.hasRegion = true ∧ ∃ regions, Region.ofFiles (baseFiles w) = .ok regions ∧
        unknownRegion? regions (w.buffers.map (·.id) ++ [active]) = none ∧
        ∃ f ∈ baseFiles w, ¬Fits f.text.toList (appliedEdits w active regions f) := by
  constructor
  · rintro ⟨name, h⟩
    rcases inline_eq_error h with ⟨file, region, he⟩ | ⟨id, he⟩ |
      ⟨hregion, regions, hregions, hknown, hfiles⟩
    · cases he
    · cases he
    · obtain ⟨f, hf, he⟩ := Region.exists_error_of_mapM hfiles
      exact ⟨hregion, regions, hregions, hknown, f, hf, (inlineFile_eq_error_iff.mp he).2⟩
  · rintro ⟨hregion, regions, hregions, hknown, f, hf, hfits⟩
    rw [inline_of_known hregion hregions hknown]
    cases hfiles : (baseFiles w).mapM (inlineFile w active regions) with
    | error e =>
      obtain ⟨g, -, hg⟩ := Region.exists_error_of_mapM hfiles
      rw [(inlineFile_eq_error_iff.mp hg).1]
      exact ⟨g.name, rfl⟩
    | ok files =>
      obtain ⟨f', -, hf'⟩ := Region.exists_right_of_mem (Region.mapM_eq_ok_iff.mp hfiles) hf
      rw [inlineFile_eq_error_iff.mpr ⟨rfl, hfits⟩] at hf'
      cases hf'

/-! ## 3. When all edits fit -/

/-- The edits for a file's own regions fit it. -/
theorem fits_of_ofFile {f : SourceFile} {regions : List Region}
    (hown : Region.ofFile f = .ok (regions.filter fun r => f.isNamed r.destination)) :
    Fits f.text.toList (appliedEdits w active regions f) := by
  obtain ⟨o, ho, -, hregions⟩ := Region.ofFile_eq_ok_iff.mp hown
  have hfile : inlineFile w active regions f = .ok _ := inlineFile_of_outline ho hregions
  by_contra hfits
  rw [inlineFile_eq_error_iff.mpr ⟨rfl, hfits⟩] at hfile
  cases hfile

theorem inline_ne_misfit_of_regionsApart (hfiles : Region.RegionsApart (baseFiles w))
    (name : String) : inline w active ≠ .error (.misfit name) := by
  intro h
  obtain ⟨-, regions, hregions, -, f, hf, hmisfit⟩ := inline_misfit_iff.mp ⟨name, h⟩
  obtain ⟨parts, hparts, rfl⟩ := Region.ofFiles_eq_ok_iff.mp hregions
  exact hmisfit (fits_of_ofFile (Region.ofFile_eq_filter_of_regionsApart hparts hfiles hf))

/-- When files of one name have no regions, every edit fits the text that it is applied to, so
inlining gives a workspace or one of its three objections. -/
theorem fits_of_regionsApart (hfiles : Region.RegionsApart (baseFiles w)) (active : BufferId) :
    (∀ regions, Region.ofFiles (baseFiles w) = .ok regions → ∀ f ∈ baseFiles w,
      Fits f.text.toList (appliedEdits w active regions f)) ∧
    ∀ name, inline w active ≠ .error (.misfit name) := by
  have hfits : ∀ regions, Region.ofFiles (baseFiles w) = .ok regions → ∀ f ∈ baseFiles w,
      Fits f.text.toList (appliedEdits w active regions f) := by
    intro regions hregions f hf
    obtain ⟨parts, hparts, rfl⟩ := Region.ofFiles_eq_ok_iff.mp hregions
    exact fits_of_ofFile (Region.ofFile_eq_filter_of_regionsApart hparts hfiles hf)
  refine ⟨hfits, fun name h => ?_⟩
  obtain ⟨-, regions, hregions, -, f, hf, hmisfit⟩ := inline_misfit_iff.mp ⟨name, h⟩
  exact hmisfit (hfits regions hregions f hf)

/-- A file with a region, and two files of one name that have none. -/
def plainNamesakes : Workspace where
  files := [⟨"a.cs", "#region r\nbody\n#endregion\n"⟩, ⟨"b.cs", "#region s\n"⟩, ⟨"./b.cs", ""⟩]
  buffers := []
  usings := []
  workspaceType := "script"
  language := .csharp
  includeInstrumentation := false

theorem regionsApart_plainNamesakes : Region.RegionsApart (baseFiles plainNamesakes) := by
  have hfirst : Region.ofFile ⟨"b.cs", "#region s\n"⟩ = .ok [] := by decide +kernel
  have hsecond : Region.ofFile ⟨"./b.cs", ""⟩ = .ok [] := by decide +kernel
  have hother : ∀ g ∈ ([⟨"b.cs", "#region s\n"⟩, ⟨"./b.cs", ""⟩] : List SourceFile),
      ¬SourceFile.isNamed ⟨"a.cs", "#region r\nbody\n#endregion\n"⟩ g.name = true := by
    decide +kernel
  refine .cons (fun g hg hnamed => absurd hnamed (hother g hg)) (.cons ?_ (.cons ?_ .nil))
  · intro g hg _
    rw [List.mem_singleton.mp hg]
    exact ⟨Region.regionless_of_ofFile hfirst, Region.regionless_of_ofFile hsecond⟩
  · intro g hg
    cases hg

theorem fits_of_regionsApart_plainNamesakes :
    Fits "#region r\nbody\n#endregion\n".toList
        (appliedEdits plainNamesakes ⟨"a.cs", some "r"⟩
          [⟨⟨"a.cs", some "r"⟩, ⟨10, 5⟩, "a.cs"⟩] ⟨"a.cs", "#region r\nbody\n#endregion\n"⟩) ∧
      inline plainNamesakes ⟨"a.cs", some "r"⟩ ≠ .error (.misfit "./b.cs") := by
  have hfits := fits_of_regionsApart regionsApart_plainNamesakes ⟨"a.cs", some "r"⟩
  have hregions : Region.ofFiles (baseFiles plainNamesakes) =
      .ok [⟨⟨"a.cs", some "r"⟩, ⟨10, 5⟩, "a.cs"⟩] := by decide +kernel
  exact ⟨hfits.1 _ hregions _ List.mem_cons_self, hfits.2 "./b.cs"⟩

/-- Two files of one name, one with a region and one without any text. -/
def namesakes : Workspace where
  files := [⟨"a.cs", "#region r\nbody\n#endregion\n"⟩, ⟨"./a.cs", ""⟩]
  buffers := []
  usings := []
  workspaceType := "script"
  language := .csharp
  includeInstrumentation := false

/-- The region of the first file is destined for the second one too, which is too short for it. -/
theorem inline_namesakes :
    inline namesakes ⟨"a.cs", some "r"⟩ = .error (.misfit "./a.cs") := by
  decide +kernel

end Inline

end Playground
