import Playground.Proofs.Objections
import Playground.Proofs.WrittenIds
/-!
# Files under their own ids

The id of a whole file holds the normal form of a name, and whoever looks for the file normalises once
more.  A file is found under its own id when that changes nothing, which is so unless dropping the
leading `./` steps has brought a blank to the front.
-/

namespace Playground

open Text Region Inline

variable {w : Workspace} {f g : SourceFile} {name : String} {active : BufferId}
  {regions : List Region} {ids : List BufferId}

/-! ## 1. Names that are normal after one normalisation -/

/-- The normal form of the name does not begin with a blank. -/
def FileName.IsSettled (name : String) : Prop :=
  ∀ c, (FileName.normalize name).toList.head? = some c → isBlank c = false

instance (name : String) : Decidable (FileName.IsSettled name) :=
  decidable_of_iff _ FileName.normalize_normalize_iff

theorem isNamed_file_iff (h : f.isNamed name = true) :
    f.isNamed (BufferId.file name).fileName = true ↔ FileName.IsSettled name := by
  have hname : (BufferId.file name).fileName = FileName.normalize name := rfl
  rw [isNamed_iff, hname, isNamed_iff.mp h, eq_comm]
  exact FileName.normalize_normalize_iff

/-- What is not settled begins with a blank and so is not empty. -/
theorem isEmpty_file (h : ¬FileName.IsSettled name) : (BufferId.file name).isEmpty = false := by
  have hne : FileName.normalize name ≠ "" := by
    intro hempty
    refine h fun c hc => ?_
    rw [hempty] at hc
    cases hc
  simp [BufferId.isEmpty, BufferId.file, hne]

/-! ## 2. Looking for a file -/

theorem exists_file? (hf : f ∈ w.files) (hnamed : f.isNamed name = true) :
    ∃ g, w.file? name = some g ∧ g.isNamed name = true := by
  rw [Workspace.file?]
  cases hfind : w.files.find? (·.isNamed name) with
  | none => exact absurd hnamed (List.find?_eq_none.mp hfind f hf)
  | some g =>
    have hgname := List.find?_some hfind
    exact ⟨g, rfl, hgname⟩

/-- Of files with different names, none but the file itself is in the way. -/
theorem file?_of_distinctNames (hnames : DistinctNames w.files) (hf : f ∈ w.files)
    (hnamed : f.isNamed name = true) : w.file? name = some f := by
  obtain ⟨g, hg, hgname⟩ := exists_file? hf hnamed
  have hsame : FileName.normalize g.name = FileName.normalize f.name :=
    (isNamed_iff.mp hgname).trans (isNamed_iff.mp hnamed).symm
  rw [hg, List.inj_on_of_nodup_map hnames (List.mem_of_find?_eq_some hg) hf hsame]

theorem file?_eq_none (hfiles : w.files = [f]) (hnamed : f.isNamed name = false) :
    w.file? name = none := by
  rw [Workspace.file?, hfiles, List.find?_singleton, hnamed]
  rfl

/-- Whole-file buffers take no file away. -/
theorem exists_isNamed_baseFiles (hf : f ∈ w.files) (hnamed : f.isNamed name = true) :
    ∃ g ∈ baseFiles w, g.isNamed name = true := by
  have hname : f.name ∈ (baseFiles w).map (·.name) := by
    rw [baseFiles, map_name_foldl_applyBuffer]
    exact List.mem_append_left _ (List.mem_map_of_mem hf)
  obtain ⟨g, hg, heq⟩ := List.mem_map.mp hname
  exact ⟨g, hg, isNamed_iff.mpr (heq ▸ isNamed_iff.mp hnamed)⟩

/-! ## 3. Inlining for a whole file -/

theorem unknownRegion?_concat (hwhole : active.hasRegion = false) :
    unknownRegion? regions (ids ++ [active]) = unknownRegion? regions ids := by
  rw [unknownRegion?, List.find?_append, List.find?_singleton, hwhole, Bool.false_and]
  exact Option.or_none

theorem hasRegion_of_unknownRegion? {id : BufferId} (h : unknownRegion? regions ids = some id) :
    id.hasRegion = true := by
  rw [unknownRegion?] at h
  have hunknown := List.find?_some h
  exact (Bool.and_eq_true_iff.mp hunknown).1

/-- The checks that are made for a whole file that is there, or for none, are those of the buffers. -/
theorem inline_of_whole (hwhole : active.hasRegion = false)
    (hthere : active.isEmpty = true ∨ ∃ g ∈ baseFiles w, g.isNamed active.fileName = true) :
    inline w active = match Region.ofFiles (baseFiles w) with
      | .error d => .error (.duplicateRegion d.file d.region)
      | .ok regions =>
          match unknownRegion? regions (w.buffers.map (·.id)) with
          | some id => .error (.unknownBuffer id)
          | none => .ok (w.withFiles (baseFiles w)) := by
  have hpasses : (!active.isEmpty && !active.hasRegion &&
      !(baseFiles w).any (·.isNamed active.fileName)) = false := by
    rcases hthere with hempty | hthere
    · rw [hempty, Bool.not_true, Bool.false_and, Bool.false_and]
    · rw [List.any_eq_true.mpr hthere, Bool.not_true, Bool.and_false]
  rw [inline_eq, hpasses, if_neg Bool.false_ne_true]
  cases Region.ofFiles (baseFiles w) with
  | error d => rfl
  | ok regions =>
    cases hunknown : unknownRegion? regions (w.buffers.map (·.id)) with
    | some id => simp only [unknownRegion?_concat hwhole, hunknown]
    | none => simp only [unknownRegion?_concat hwhole, hunknown, hwhole, if_neg Bool.false_ne_true]

/-! ## 4. Files and their own ids -/

/-- The workspace knows its file by the id: it finds the file, and goes to work for it. -/
structure KnownAs (w : Workspace) (f : SourceFile) (id : BufferId) : Prop where
  /-- A file of that name is found. -/
  found : ∃ g, w.file? id.fileName = some g ∧ FileName.normalize g.name = FileName.normalize f.name
  /-- It is the file itself if no other one has its name. -/
  itself : DistinctNames w.files → w.file? id.fileName = some f
  /-- Inlining gives what it gives when no buffer is active. -/
  accepted : inline w id = inline w (.file "")
  /-- In particular it does not ask for the file. -/
  asksNot : inline w id ≠ .error (.unknownBuffer id)

theorem knownAs_file (hf : f ∈ w.files) (hname : f.isNamed name = true)
    (hsettled : FileName.IsSettled name) : KnownAs w f (.file name) := by
  have hnamed := (isNamed_file_iff hname).mpr hsettled
  obtain ⟨g, hg, hgname⟩ := exists_file? hf hnamed
  obtain ⟨base, hbase, hbasename⟩ := exists_isNamed_baseFiles hf hnamed
  have hwhole : ∀ name, (BufferId.file name).hasRegion = false := fun _ => rfl
  have hinline := inline_of_whole (hwhole name) (.inr ⟨base, hbase, hbasename⟩)
  have hempty := inline_of_whole (w := w) (hwhole "") (.inl (by decide))
  refine ⟨⟨g, hg, (isNamed_iff.mp hgname).trans (isNamed_iff.mp hnamed).symm⟩,
    fun hnames => file?_of_distinctNames hnames hf hnamed, hinline.trans hempty.symm, ?_⟩
  rw [hinline]
  cases Region.ofFiles (baseFiles w) with
  | error d => exact nofun
  | ok regions =>
    dsimp only
    cases hunknown : unknownRegion? regions (w.buffers.map (·.id)) with
    | none => exact nofun
    | some id =>
      -- a buffer that is not known is for a region
      intro heq
      have hregion := hasRegion_of_unknownRegion? hunknown
      rw [WorkspaceError.unknownBuffer.inj (Except.error.inj heq)] at hregion
      cases hregion

theorem unknown_file (hfiles : w.files = [f]) (hbuffers : ∀ b ∈ w.buffers, b.id.hasRegion = true)
    (hname : f.isNamed name = true) (hunsettled : ¬FileName.IsSettled name) :
    w.file? (BufferId.file name).fileName = none ∧
      inline w (.file name) = .error (.unknownBuffer (.file name)) := by
  have hnamed : f.isNamed (BufferId.file name).fileName = false := by
    rw [← Bool.not_eq_true, isNamed_file_iff hname]
    exact hunsettled
  have hbase : baseFiles w = [f] := by
    rw [(overlaid_iff.mpr rfl).eq_of_regions hbuffers, hfiles]
  have hother : ∀ g ∈ baseFiles w, g.isNamed (BufferId.file name).fileName = false := by
    intro g hg
    rw [hbase, List.mem_singleton] at hg
    rw [hg, hnamed]
  exact ⟨file?_eq_none hfiles hnamed, inline_unknown_file rfl (isEmpty_file hunsettled) hother⟩

/-- Normalising a name twice does what normalising it once does exactly when the normal form begins with
no blank.  Under such a name, however it is spelled, a workspace knows its file by the file's own id;
under any other one, a workspace of that file alone does not. -/
theorem own_ids (w : Workspace) (f : SourceFile) (name text : String) :
    (FileName.normalize (FileName.normalize name) = FileName.normalize name ↔ FileName.IsSettled name) ∧
    ((SourceFile.mk name text).isNamed (BufferId.file name).fileName = true ↔
      FileName.IsSettled name) ∧
    (f ∈ w.files → f.isNamed name = true → FileName.IsSettled name → KnownAs w f (.file name)) ∧
    (w.files = [f] → (∀ b ∈ w.buffers, b.id.hasRegion = true) → f.isNamed name = true →
      ¬FileName.IsSettled name → w.file? (BufferId.file name).fileName = none ∧
        inline w (.file name) = .error (.unknownBuffer (.file name))) :=
  ⟨FileName.normalize_normalize_iff, isNamed_file_iff (isNamed_iff.mpr rfl), knownAs_file, unknown_file⟩

/-- A file under another spelling of its name, and one that has a blank behind a `./` step. -/
theorem own_ids_respelled :
    KnownAs (workspaceOf ⟨"./src\\a.cs", ""⟩) ⟨"./src\\a.cs", ""⟩ (.file ".\\.\\src/a.cs ") ∧
      inline (workspaceOf ⟨"./ a.cs", ""⟩) (.file ".\\ a.cs") =
        .error (.unknownBuffer ⟨" a.cs", none⟩) := by
  have hid : BufferId.file ".\\ a.cs" = ⟨" a.cs", none⟩ := by decide +kernel
  obtain ⟨-, -, hknown, -⟩ := own_ids (workspaceOf ⟨"./src\\a.cs", ""⟩) ⟨"./src\\a.cs", ""⟩
    ".\\.\\src/a.cs " ""
  obtain ⟨-, -, -, hunknown⟩ := own_ids (workspaceOf ⟨"./ a.cs", ""⟩) ⟨"./ a.cs", ""⟩ ".\\ a.cs" ""
  refine ⟨hknown List.mem_cons_self (by decide +kernel) (by decide +kernel), ?_⟩
  rw [← hid]
  exact (hunknown rfl nofun (by decide +kernel) (by decide +kernel)).2

/-- Normalising takes the blank away that the first normalisation has left, so that the file is not
found under its own id. -/
theorem blank_behind_step :
    FileName.normalize "./ a.cs" = " a.cs" ∧ FileName.normalize " a.cs" = "a.cs" ∧
      (SourceFile.mk "./ a.cs" "").isNamed (BufferId.file "./ a.cs").fileName = false ∧
      (workspaceOf ⟨"./ a.cs", ""⟩).file? (BufferId.file "./ a.cs").fileName = none ∧
      inline (workspaceOf ⟨"./ a.cs", ""⟩) (.file "./ a.cs") =
        .error (.unknownBuffer ⟨" a.cs", none⟩) := by
  decide +kernel

end Playground
