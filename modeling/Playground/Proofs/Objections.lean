import Mathlib.Data.List.Induction
import Playground.Proofs.Acceptance
import Playground.Proofs.Matching
/-!
# What inlining objects to

Buffers for whole files are laid over the files first.  What comes of it can be said without the
order of the steps: a file has the text of the last buffer that names it, and names that denote no
file come behind the others, each where it is named first.  Of several files of one name only the
first is changed.

In the files that result inlining makes its three checks, one after the other: that there is the
active file, that no file starts a name twice, and that all regions asked for are found.  When the
files have different names, nothing else can go wrong.
-/

namespace Playground.Inline

open Region Text

/-- The text that a file of the given name gets from the last whole-file buffer for it. -/
def lastText? (buffers : List Buffer) (name : String) : Option String :=
  (buffers.filter fun b => !b.id.hasRegion && FileName.same name b.id.fileName).getLast?.map
    (·.content)

/-- Whether the name of file `i` is denoted by an earlier one of the names. -/
def IsNamesake (names : List String) (i : Nat) (name : String) : Prop :=
  ∃ earlier ∈ names.take i, FileName.normalize earlier = FileName.normalize name

/-- The files with the whole-file buffers laid over them. -/
structure Overlaid (files : List SourceFile) (buffers : List Buffer)
    (overlaid : List SourceFile) : Prop where
  /-- The files keep their names and places, and unknown names are appended. -/
  names : overlaid.map (·.name) = files.map (·.name) ++
    freshNames (files.map (·.name)) ((buffers.filter (!·.id.hasRegion)).map (·.id.fileName))
  /-- The last buffer that names a file wins. -/
  last : ∀ (i : Nat) (f : SourceFile) (text : String), overlaid[i]? = some f →
    ¬IsNamesake (overlaid.map (·.name)) i f.name → lastText? buffers f.name = some text →
      f.text = text
  /-- A file that no buffer names is left alone, and so is one with a namesake before it. -/
  kept : ∀ (i : Nat) (f : SourceFile), overlaid[i]? = some f →
    IsNamesake (overlaid.map (·.name)) i f.name ∨ lastText? buffers f.name = none →
      files[i]? = some f

/-! ## 1. One buffer -/

/-- The first element that satisfies `p` is changed, if there is one. -/
theorem changeFirst_cases {α : Type} (p : α → Bool) (change : α → α) (fresh : α) (l : List α) :
    (∃ k x, l[k]? = some x ∧ p x = true ∧ (∀ y ∈ l.take k, p y = false) ∧
      changeFirst p change fresh l = l.modify k change) ∨
    (∀ y ∈ l, p y = false) ∧ changeFirst p change fresh l = l ++ [fresh] := by
  induction l with
  | nil => exact .inr ⟨List.forall_mem_nil _, rfl⟩
  | cons x l ih =>
    rw [changeFirst]
    cases hx : p x with
    | true => exact .inl ⟨0, x, rfl, hx, List.forall_mem_nil _, by simp⟩
    | false =>
      rw [if_neg Bool.false_ne_true]
      rcases ih with ⟨k, y, hy, hpy, hbefore, heq⟩ | ⟨hnone, heq⟩
      · refine .inl ⟨k + 1, y, hy, hpy, ?_, by rw [heq, List.modify_succ_cons]⟩
        rw [List.take_succ_cons]
        exact List.forall_mem_cons.mpr ⟨hx, hbefore⟩
      · exact .inr ⟨List.forall_mem_cons.mpr ⟨hx, hnone⟩, by rw [heq, List.cons_append]⟩

variable {files : List SourceFile} {buffers : List Buffer} {b : Buffer} {f : SourceFile}
  {names names' : List String} {name : String} {i : Nat}

theorem lastText?_of_region (h : b.id.hasRegion = true) (name : String) :
    lastText? (buffers ++ [b]) name = lastText? buffers name := by
  simp [lastText?, h]

theorem lastText?_of_named (h : b.id.hasRegion = false)
    (hname : FileName.normalize name = FileName.normalize b.id.fileName) :
    lastText? (buffers ++ [b]) name = some b.content := by
  simp [lastText?, h, FileName.same, hname]

theorem lastText?_of_other
    (hname : FileName.normalize name ≠ FileName.normalize b.id.fileName) :
    lastText? (buffers ++ [b]) name = lastText? buffers name := by
  simp [lastText?, FileName.same, hname]

theorem isNamesake_append (h : i ≤ names.length) :
    IsNamesake (names ++ names') i name ↔ IsNamesake names i name := by
  rw [IsNamesake, List.take_append_of_le_length h, IsNamesake]

theorem isNamesake_map_iff :
    IsNamesake (files.map (·.name)) i name ↔
      ∃ g ∈ files.take i, FileName.normalize g.name = FileName.normalize name := by
  rw [IsNamesake, ← List.map_take]
  simp only [List.mem_map, exists_exists_and_eq_and]

theorem isNamesake_applyBuffer (h : i ≤ files.length) :
    IsNamesake ((applyBuffer files b).map (·.name)) i name ↔
      ∃ g ∈ files.take i, FileName.normalize g.name = FileName.normalize name := by
  rw [map_name_applyBuffer, isNamesake_append (by rwa [List.length_map]), isNamesake_map_iff]

/-- Whether a buffer that is applied has made the file at a place what it is. -/
structure SetBy (b : Buffer) (overlaid : List SourceFile) (i : Nat) (f : SourceFile) : Prop where
  text : f.text = b.content
  named : FileName.normalize f.name = FileName.normalize b.id.fileName
  first : ¬IsNamesake (overlaid.map (·.name)) i f.name

/-- A file is either the first one that the buffer names, or as it was before. -/
theorem applyBuffer_cases (hf : (applyBuffer files b)[i]? = some f) :
    SetBy b (applyBuffer files b) i f ∨
      files[i]? = some f ∧ (FileName.normalize f.name = FileName.normalize b.id.fileName →
        IsNamesake ((applyBuffer files b).map (·.name)) i f.name) := by
  have hother : ∀ {l : List SourceFile}, (∀ g ∈ l, g.isNamed b.id.fileName = false) →
      ∀ g ∈ l, FileName.normalize g.name ≠ FileName.normalize b.id.fileName := by
    intro l hl g hg hname
    rw [← Region.isNamed_iff, hl g hg] at hname
    cases hname
  have hcases := changeFirst_cases (·.isNamed b.id.fileName)
    (fun f : SourceFile => { f with text := b.content }) ⟨b.id.fileName, b.content⟩ files
  rw [← applyBuffer] at hcases
  rcases hcases with ⟨k, x, hx, hnamed, hbefore, heq⟩ | ⟨hnone, heq⟩
  · have hname := Region.isNamed_iff.mp hnamed
    rw [heq, List.getElem?_modify] at hf
    rcases Nat.lt_trichotomy k i with hlt | rfl | hgt
    · -- the file that is changed stands before this one
      have hi : files[i]? = some f := by simpa [Nat.ne_of_lt hlt] using hf
      refine .inr ⟨hi, fun hf' => ?_⟩
      rw [isNamesake_applyBuffer (List.getElem?_eq_some_iff.mp hi).1.le, hf']
      exact ⟨x, List.mem_of_getElem? (by rw [List.getElem?_take_of_lt hlt, hx]), hname⟩
    · rw [hx] at hf
      obtain rfl : { x with text := b.content } = f := by simpa using hf
      refine .inl ⟨rfl, hname, ?_⟩
      rw [isNamesake_applyBuffer (List.getElem?_eq_some_iff.mp hx).1.le]
      rintro ⟨g, hg, hsame⟩
      exact hother hbefore g hg (hsame.trans hname)
    · have hi : files[i]? = some f := by simpa [Nat.ne_of_gt hgt] using hf
      have hmem : f ∈ files.take k :=
        List.mem_of_getElem? (by rw [List.getElem?_take_of_lt hgt, hi])
      exact .inr ⟨hi, fun hf' => absurd hf' (hother hbefore f hmem)⟩
  · rw [heq, List.getElem?_append] at hf
    split at hf
    · exact .inr ⟨hf, fun hf' => absurd hf' (hother hnone f (List.mem_of_getElem? hf))⟩
    · rename_i hge
      obtain ⟨hi, hfresh⟩ := List.getElem?_eq_some_iff.mp hf
      have hlength : i = files.length := by
        rw [List.length_singleton] at hi
        omega
      subst hlength
      obtain rfl : ⟨b.id.fileName, b.content⟩ = f := by simpa using hfresh
      refine .inl ⟨rfl, rfl, ?_⟩
      rw [isNamesake_applyBuffer (Nat.le_refl _), List.take_length]
      rintro ⟨g, hg, hsame⟩
      exact hother hnone g hg hsame

/-! ## 2. All buffers -/

/-- The names before a place that is taken already do not change. -/
theorem isNamesake_of_applyBuffer (hf : files[i]? = some f) :
    IsNamesake ((applyBuffer files b).map (·.name)) i f.name ↔
      IsNamesake (files.map (·.name)) i f.name := by
  rw [isNamesake_applyBuffer (List.getElem?_eq_some_iff.mp hf).1.le, isNamesake_map_iff]

/-- Applying one more buffer for a whole file. -/
theorem Overlaid.applyBuffer {overlaid : List SourceFile} (h : Overlaid files buffers overlaid)
    (hb : b.id.hasRegion = false) (hnames : (applyBuffer overlaid b).map (·.name) =
      files.map (·.name) ++ freshNames (files.map (·.name))
        (((buffers ++ [b]).filter (!·.id.hasRegion)).map (·.id.fileName))) :
    Overlaid files (buffers ++ [b]) (applyBuffer overlaid b) := by
  refine ⟨hnames, fun i f text hf hfirst hlast => ?_, fun i f hf hkept => ?_⟩
  · rcases applyBuffer_cases hf with hset | ⟨hold, hnamed⟩
    · rw [lastText?_of_named hb hset.named] at hlast
      rw [hset.text, Option.some.inj hlast]
    · have hother : FileName.normalize f.name ≠ FileName.normalize b.id.fileName :=
        fun hname => hfirst (hnamed hname)
      rw [lastText?_of_other hother] at hlast
      rw [isNamesake_of_applyBuffer hold] at hfirst
      exact h.last i f text hold hfirst hlast
  · rcases applyBuffer_cases hf with hset | ⟨hold, hnamed⟩
    · rcases hkept with hbehind | hnone
      · exact absurd hbehind hset.first
      · rw [lastText?_of_named hb hset.named] at hnone
        cases hnone
    · refine h.kept i f hold ?_
      rw [← isNamesake_of_applyBuffer hold]
      by_cases hname : FileName.normalize f.name = FileName.normalize b.id.fileName
      · exact .inl (hnamed hname)
      · rwa [lastText?_of_other hname] at hkept

/-- The whole-file buffers, applied in their order, leave each file with the last text for it. -/
theorem overlaid_foldl (files : List SourceFile) (buffers : List Buffer) :
    Overlaid files buffers ((buffers.filter (!·.id.hasRegion)).foldl applyBuffer files) := by
  have hnames := map_name_foldl_applyBuffer files (buffers.filter (!·.id.hasRegion))
  -- on the buffers from their end, as the last one wins
  induction buffers using List.reverseRecOn with
  | nil => exact ⟨hnames, nofun, fun i f hf _ => hf⟩
  | append_singleton buffers b ih =>
    have ih := ih (map_name_foldl_applyBuffer files _)
    cases hb : b.id.hasRegion with
    | true =>
      have hfilter : (buffers ++ [b]).filter (!·.id.hasRegion) =
          buffers.filter (!·.id.hasRegion) := by
        simp [hb]
      refine ⟨hnames, ?_, ?_⟩
      · simp only [hfilter, lastText?_of_region hb]
        exact ih.last
      · simp only [hfilter, lastText?_of_region hb]
        exact ih.kept
    | false =>
      have hfilter : (buffers ++ [b]).filter (!·.id.hasRegion) =
          buffers.filter (!·.id.hasRegion) ++ [b] := by
        simp [hb]
      have hfoldl : ((buffers ++ [b]).filter (!·.id.hasRegion)).foldl Inline.applyBuffer files =
          Inline.applyBuffer ((buffers.filter (!·.id.hasRegion)).foldl Inline.applyBuffer files)
            b := by
        rw [hfilter, List.foldl_append]
        rfl
      rw [hfoldl] at hnames ⊢
      exact ih.applyBuffer hb hnames

/-- Without whole-file buffers the files are as they were. -/
theorem Overlaid.eq_of_regions {overlaid : List SourceFile} (h : Overlaid files buffers overlaid)
    (hregions : ∀ b ∈ buffers, b.id.hasRegion = true) : overlaid = files := by
  have hnone : buffers.filter (!·.id.hasRegion) = [] := by
    rw [List.filter_eq_nil_iff]
    intro b hb
    rw [hregions b hb]
    exact Bool.false_ne_true
  have hlast : ∀ name, lastText? buffers name = none := by
    intro name
    rw [lastText?, List.filter_eq_nil_iff.mpr fun b hb => ?_]
    · rfl
    · simp [hregions b hb]
  have hnames := h.names
  rw [hnone, List.map_nil, freshNames, List.append_nil] at hnames
  have hlength : overlaid.length = files.length := by
    simpa using congrArg List.length hnames
  refine List.ext_getElem? fun i => ?_
  cases hf : overlaid[i]? with
  | some f => exact (h.kept i f hf (.inr (hlast f.name))).symm
  | none =>
    rw [List.getElem?_eq_none_iff] at hf
    exact (List.getElem?_eq_none (hlength ▸ hf)).symm

theorem Overlaid.unique {overlaid overlaid' : List SourceFile}
    (h : Overlaid files buffers overlaid) (h' : Overlaid files buffers overlaid') :
    overlaid = overlaid' := by
  have hnames : overlaid.map (·.name) = overlaid'.map (·.name) := h.names.trans h'.names.symm
  have hlength : overlaid.length = overlaid'.length := by
    simpa using congrArg List.length hnames
  refine List.ext_getElem hlength fun i hi hi' => ?_
  have hf : overlaid[i]? = some overlaid[i] := List.getElem?_eq_getElem hi
  have hg : overlaid'[i]? = some overlaid'[i] := List.getElem?_eq_getElem hi'
  have hname : overlaid[i].name = overlaid'[i].name := by
    have h := congrArg (·[i]?) hnames
    simpa [hf, hg] using h
  -- the name of the file at a place decides what is known of its text
  have hkept : IsNamesake (overlaid.map (·.name)) i overlaid[i].name ∨
      lastText? buffers overlaid[i].name = none → overlaid[i] = overlaid'[i] := by
    intro hkept
    have hold := h.kept i _ hf hkept
    rw [hnames, hname] at hkept
    exact Option.some.inj (hold.symm.trans (h'.kept i _ hg hkept))
  by_cases hbehind : IsNamesake (overlaid.map (·.name)) i overlaid[i].name
  · exact hkept (.inl hbehind)
  · cases hlast : lastText? buffers overlaid[i].name with
    | none => exact hkept (.inr hlast)
    | some text =>
      have htext := h.last i _ text hf hbehind hlast
      rw [hnames, hname] at hbehind
      rw [hname] at hlast
      have htext' := h'.last i _ text hg hbehind hlast
      exact congrArg₂ SourceFile.mk hname (htext.trans htext'.symm)

/-- The files that inlining works on are the files with the whole-file buffers laid over them. -/
theorem overlaid_iff {w : Workspace} {overlaid : List SourceFile} :
    Overlaid w.files w.buffers overlaid ↔ overlaid = baseFiles w := by
  constructor
  · exact fun h => h.unique (overlaid_foldl w.files w.buffers)
  · rintro rfl
    exact overlaid_foldl w.files w.buffers

/-- Whole-file buffers neither make names of files distinct nor spoil it. -/
theorem distinctNames_baseFiles_iff {w : Workspace} :
    DistinctNames (baseFiles w) ↔ DistinctNames w.files := by
  refine ⟨fun h => ?_, DistinctNames.baseFiles⟩
  rw [distinctNames_iff, baseFiles, map_name_foldl_applyBuffer, List.map_append] at h
  exact distinctNames_iff.mpr (List.nodup_append'.mp h).1

/-! ## 3. The checks -/

/-- The active buffer is for a whole file, and there is none of its name. -/
structure MissingFile (files : List SourceFile) (active : BufferId) : Prop where
  nonempty : active.isEmpty = false
  whole : active.hasRegion = false
  unnamed : ∀ f ∈ files, FileName.normalize f.name ≠ FileName.normalize active.fileName

/-- If the id is that of a region, the region is among those found. -/
def Known (regions : List Region) (id : BufferId) : Prop :=
  id.hasRegion = true → ∃ r ∈ regions, r.bufferId = id

variable {w : Workspace} {active id : BufferId} {regions : List Region} {ids : List BufferId}

theorem missingFile_iff :
    MissingFile files active ↔
      (!active.isEmpty && !active.hasRegion && !files.any (·.isNamed active.fileName)) = true := by
  simp only [Bool.and_eq_true, Bool.not_eq_true', List.any_eq_false, Region.isNamed_iff]
  exact ⟨fun h => ⟨⟨h.nonempty, h.whole⟩, h.unnamed⟩, fun h => ⟨h.1.1, h.1.2, h.2⟩⟩

theorem known_iff :
    Known regions id ↔ ¬(id.hasRegion && !regions.any (·.bufferId == id)) = true := by
  simp [Known]

/-- The first id that is not known decides. -/
theorem unknownRegion?_eq_some_iff :
    unknownRegion? regions ids = some id ↔ ∃ before behind, ids = before ++ id :: behind ∧
      (∀ other ∈ before, Known regions other) ∧ ¬Known regions id := by
  rw [unknownRegion?, List.find?_eq_some_iff_append]
  simp only [known_iff, Bool.not_eq_true', Bool.not_eq_true]
  constructor
  · rintro ⟨hid, before, behind, hids, hbefore⟩
    exact ⟨before, behind, hids, hbefore, by simp [hid]⟩
  · rintro ⟨before, behind, hids, hbefore, hid⟩
    exact ⟨by simpa using hid, before, behind, hids, hbefore⟩

/-- The first file that starts a name twice decides. -/
theorem ofFiles_of_startsTwice {front : List SourceFile}
    (hfront : ∀ g ∈ front, ¬StartsTwice (lines g.text.toList))
    (hf : StartsTwice (lines f.text.toList)) (back : List SourceFile) :
    ∃ j name, FirstRepeats (lines f.text.toList) j name ∧
      ofFiles (front ++ f :: back) = .error ⟨f.name, String.ofList name⟩ := by
  rw [startsTwice_iff, ← exists_ofFile_eq_ok_iff] at hf
  cases hfile : ofFile f with
  | ok regions => exact absurd ⟨regions, hfile⟩ hf
  | error e =>
    obtain ⟨j, name, hrepeats, rfl⟩ := ofFile_eq_error_iff.mp hfile
    refine ⟨j, name, hrepeats, ofFiles_eq_error_iff.mpr ⟨front, f, back, rfl, ?_, hfile⟩⟩
    intro g hg
    rw [exists_ofFile_eq_ok_iff, ← not_not (a := (startNames _).Nodup), ← startsTwice_iff]
    exact hfront g hg

theorem exists_ofFiles_eq_ok_iff :
    (∃ regions, ofFiles files = .ok regions) ↔
      ∀ f ∈ files, ¬StartsTwice (lines f.text.toList) := by
  constructor
  · rintro ⟨regions, h⟩ f hf
    obtain ⟨parts, hparts, -⟩ := ofFiles_eq_ok_iff.mp h
    obtain ⟨part, -, hpart⟩ := exists_right_of_mem hparts hf
    rw [startsTwice_iff, not_not, ← exists_ofFile_eq_ok_iff]
    exact ⟨part, hpart⟩
  · intro h
    refine exists_ofFiles_eq_ok fun f hf => ?_
    rw [← not_not (a := (startNames _).Nodup), ← startsTwice_iff]
    exact h f hf

/-! ## 4. The outcome -/

/-- What inlining gives, told by the files with the whole-file buffers laid over them. -/
structure Outcome (w : Workspace) (active : BufferId) (files : List SourceFile)
    (result : Except WorkspaceError Workspace) : Prop where
  /-- The active file must exist. -/
  missing : MissingFile files active → result = .error (.unknownBuffer active)
  /-- Otherwise the first file that starts a name twice is objected to, for the first line that
  repeats one. -/
  duplicate : ¬MissingFile files active → ∀ front f back, files = front ++ f :: back →
    (∀ g ∈ front, ¬StartsTwice (lines g.text.toList)) → StartsTwice (lines f.text.toList) →
      ∃ j name, FirstRepeats (lines f.text.toList) j name ∧
        result = .error (.duplicateRegion f.name (String.ofList name))
  /-- Otherwise the first region that a buffer or, last of all, the active one asks for in vain. -/
  unknown : ¬MissingFile files active → ∀ regions, ofFiles files = .ok regions →
    ∀ before id behind, w.buffers.map (·.id) ++ [active] = before ++ id :: behind →
      (∀ other ∈ before, Known regions other) → ¬Known regions id →
        result = .error (.unknownBuffer id)
  /-- Otherwise there is nothing to object to, if the files have different names. -/
  accepted : ¬MissingFile files active → ∀ regions, ofFiles files = .ok regions →
    (∀ id ∈ w.buffers.map (·.id) ++ [active], Known regions id) → DistinctNames files →
      ∃ w', result = .ok w'
  /-- For a whole file, whatever the names, nothing but the files is changed. -/
  whole : ¬MissingFile files active → ∀ regions, ofFiles files = .ok regions →
    (∀ id ∈ w.buffers.map (·.id) ++ [active], Known regions id) → active.hasRegion = false →
      result = .ok { w with files }

theorem inline_of_missingFile (h : MissingFile (baseFiles w) active) :
    inline w active = .error (.unknownBuffer active) := by
  rw [inline_eq, if_pos (missingFile_iff.mp h)]

theorem exists_inline_eq_ok (h : ¬MissingFile (baseFiles w) active)
    (hregions : ofFiles (baseFiles w) = .ok regions)
    (hknown : unknownRegion? regions (w.buffers.map (·.id) ++ [active]) = none)
    (hnames : DistinctNames (baseFiles w)) : ∃ w', inline w active = .ok w' := by
  have hmisfit : ∀ name, inline w active ≠ .error (.misfit name) :=
    inline_ne_misfit_of_regionsApart hnames.regionsApart
  rw [inline_eq, if_neg (mt missingFile_iff.mpr h), hregions] at hmisfit ⊢
  dsimp only at hmisfit ⊢
  rw [hknown] at hmisfit ⊢
  dsimp only at hmisfit ⊢
  split
  · rename_i hregion
    rw [if_pos hregion] at hmisfit
    cases hfiles : (baseFiles w).mapM (inlineFile w active regions) with
    | ok files => exact ⟨w.withFiles files, rfl⟩
    | error e =>
      -- a file could only fail because an edit does not fit it
      obtain ⟨f, -, hf⟩ := exists_error_of_mapM hfiles
      rw [hfiles, (inlineFile_eq_error_iff.mp hf).1] at hmisfit
      exact absurd rfl (hmisfit f.name)
  · exact ⟨_, rfl⟩

theorem outcome_inline (w : Workspace) (active : BufferId) :
    Outcome w active (baseFiles w) (inline w active) where
  missing := inline_of_missingFile
  duplicate := by
    rintro hactive front f back hfiles hfront hf
    obtain ⟨j, name, hrepeats, herror⟩ := ofFiles_of_startsTwice hfront hf back
    refine ⟨j, name, hrepeats, ?_⟩
    rw [inline_eq, if_neg (mt missingFile_iff.mpr hactive), hfiles, herror]
  unknown := by
    intro hactive regions hregions before id behind hids hbefore hid
    rw [inline_eq, if_neg (mt missingFile_iff.mpr hactive), hregions]
    dsimp only
    rw [unknownRegion?_eq_some_iff.mpr ⟨before, behind, hids, hbefore, hid⟩]
  accepted hactive _ hregions hknown hnames :=
    exists_inline_eq_ok hactive hregions (unknownRegion?_eq_none_iff.mpr hknown) hnames
  whole := by
    intro hactive regions hregions hknown hwhole
    rw [inline_eq, if_neg (mt missingFile_iff.mpr hactive), hregions]
    dsimp only
    rw [unknownRegion?_eq_none_iff.mpr hknown]
    dsimp only
    rw [hwhole, if_neg Bool.false_ne_true]
    rfl

/-- Whole-file buffers are laid over the files, the checks are made in the files that result, and
what they leave is accepted.  Without whole-file buffers nothing is laid over the files. -/
theorem inline_outcome (w : Workspace) (active : BufferId) :
    (∀ files, Overlaid w.files w.buffers files ↔ files = baseFiles w) ∧
    (DistinctNames (baseFiles w) ↔ DistinctNames w.files) ∧
    ((∃ regions, ofFiles (baseFiles w) = .ok regions) ↔
      ∀ f ∈ baseFiles w, ¬StartsTwice (lines f.text.toList)) ∧
    Outcome w active (baseFiles w) (inline w active) ∧
    ((∀ b ∈ w.buffers, b.id.hasRegion = true) → { w with files := baseFiles w } = w) := by
  refine ⟨fun _ => overlaid_iff, distinctNames_baseFiles_iff, exists_ofFiles_eq_ok_iff,
    outcome_inline w active, fun hregions => ?_⟩
  rw [(overlaid_iff.mpr rfl).eq_of_regions hregions]

/-- A file that two buffers are for under another spelling of its name, and buffers for regions, the
last two of which are nowhere. -/
def respelled : Workspace where
  files := [⟨"a.cs", "#region r\nold\n#endregion\n"⟩, ⟨"./b.cs", "old"⟩]
  buffers := [⟨⟨"b.cs", none⟩, "#region r", 0⟩, ⟨⟨"a.cs", some "r"⟩, "new", 0⟩,
    ⟨⟨"b.cs", none⟩, "new", 0⟩, ⟨⟨"a.cs", some "s"⟩, "", 0⟩, ⟨⟨"b.cs", some "r"⟩, "", 0⟩]
  usings := []
  workspaceType := "script"
  language := .csharp
  includeInstrumentation := false

/-- The last buffer for the file wins, the first of the two regions is objected to, and a file that
does not exist is objected to before them. -/
theorem inline_outcome_respelled :
    Overlaid respelled.files respelled.buffers
        [⟨"a.cs", "#region r\nold\n#endregion\n"⟩, ⟨"./b.cs", "new"⟩] ∧
      inline respelled ⟨"./b.cs", none⟩ = .error (.unknownBuffer ⟨"a.cs", some "s"⟩) ∧
      inline respelled ⟨"c.cs", none⟩ = .error (.unknownBuffer ⟨"c.cs", none⟩) := by
  obtain ⟨hoverlaid, -, -, houtcome, -⟩ := inline_outcome respelled ⟨"./b.cs", none⟩
  refine ⟨(hoverlaid _).mpr (by decide +kernel), ?_, ?_⟩
  · have hpresent : ¬MissingFile (baseFiles respelled) ⟨"./b.cs", none⟩ := by
      rw [missingFile_iff]
      decide +kernel
    have hregions : ofFiles (baseFiles respelled) =
        .ok [⟨⟨"a.cs", some "r"⟩, ⟨10, 4⟩, "a.cs"⟩] := by decide +kernel
    refine houtcome.unknown hpresent _ hregions ((respelled.buffers.map (·.id)).take 3) _ _ rfl
      ?_ ?_
    · simp only [known_iff]
      decide +kernel
    · rw [known_iff]
      decide +kernel
  · refine (inline_outcome respelled ⟨"c.cs", none⟩).2.2.2.1.missing ?_
    rw [missingFile_iff]
    decide +kernel

end Playground.Inline
