import Playground.Proofs.Attribution
/-!
# The buffers that messages are labelled with

A message is labelled with the active buffer when its path ends in the name of the active file, and
otherwise with the last part of its path.  For the path of a file below some directory, the label is
the buffer of that file as long as neither the directories in its name nor a name nested with it get
in the way.
-/

namespace Playground

open Text

/-! ## 1. The last part of a path -/

namespace DiagnosticMap

open Inline Region

/-- The last part of the name denotes the same file as the name. -/
def InNoDirectory (name : String) : Prop :=
  FileName.normalize (fileNameOf name) = FileName.normalize name

instance (name : String) : Decidable (InNoDirectory name) :=
  inferInstanceAs (Decidable (_ = _))

/-- The directory in front of a relative name does not count for the last part. -/
theorem fileNameOf_join (dir : Path) {g : String} (hrel : Path.isAbsolute g = false) :
    fileNameOf (Path.join dir g) = fileNameOf g := by
  rcases FileName.toList_join dir hrel with h | ⟨front, h⟩
  · rw [fileNameOf, h, fileNameOf]
  · rw [fileNameOf, fileNameOf, h, List.reverse_append, List.reverse_cons, List.append_assoc,
      List.takeWhile_append]
    split
    · -- the name has no separator, so the slash in front of it is the last one
      rename_i hall
      have hself := List.takeWhile_prefix (fun c => !isSeparator c) (l := g.toList.reverse)
      rw [hself.eq_of_length hall, List.singleton_append, List.takeWhile_cons_of_neg (by decide),
        List.append_nil]
    · rfl

theorem inNoDirectory_iff {name : String} :
    InNoDirectory name ↔ BufferId.file (fileNameOf name) = BufferId.file name := by
  rw [InNoDirectory, BufferId.file, BufferId.file, BufferId.mk.injEq]
  simp

/-! ## 2. Names in normal form -/

theorem normalChars_of_normal {name : String} (h : FileName.normalize name = name) :
    FileName.normalChars name.toList = name.toList := by
  rw [← String.ofList_inj, String.ofList_toList]
  exact h

/-- The end of a name in normal form is trimmed. -/
theorem map_slashed_trimEnd {name : String} (h : FileName.normalize name = name) :
    (trimEnd name.toList).map FileName.slashed = FileName.normalChars name.toList := by
  have hsuffix := FileName.normalChars_suffix name.toList
  refine (hsuffix.eq_of_length_le ?_).symm
  have hle := (List.dropWhile_suffix isBlank (l := name.toList.reverse)).length_le
  rw [List.length_reverse] at hle
  rwa [normalChars_of_normal h, List.length_map, trimEnd, dropEndWhile, List.length_reverse]

/-- The path of a file ends in the name of the file, if that name is in normal form. -/
theorem endsPath_join {dir : Path} {g a : String} (hrel : Path.isAbsolute g = false)
    (hg : FileName.normalize g = g) (hne : a ≠ "") (ha : FileName.normalize a = a)
    (hname : FileName.normalize g = FileName.normalize a) :
    FileName.endsPath (Path.join dir g) a = true := by
  have hchars := FileName.normalize_eq_iff.mp hname
  have hjoin := FileName.normalChars_join dir hrel
  rw [map_slashed_trimEnd hg, hchars] at hjoin
  rw [FileName.endsPath_iff]
  constructor
  · rw [normalChars_of_normal ha]
    simpa using hne
  · rcases hjoin with h | h | h
    · exact .inl h
    · exact .inl h
    · exact .inr h

variable {w : Workspace} {active : BufferId} {d : RawDiagnostic}

theorem fileName_ne (hwhole : active.hasRegion = false) (hnonempty : active.isEmpty = false) :
    active.fileName ≠ "" := by
  intro hname
  rw [BufferId.hasRegion, Option.isSome_eq_false_iff] at hwhole
  simp [BufferId.isEmpty, hname, hwhole] at hnonempty

/-- A whole file in normal form is the buffer of every file that it names. -/
theorem file_eq_of_isNamed {name : String} (hwhole : active.hasRegion = false)
    (hnormal : FileName.normalize active.fileName = active.fileName)
    (hname : FileName.normalize name = FileName.normalize active.fileName) :
    BufferId.file name = active := by
  obtain ⟨fileName, regionName⟩ := active
  cases regionName with
  | some r => cases hwhole
  | none => rw [BufferId.file, hname, hnormal]

/-! ## 3. One message among others -/

/-- Messages are mapped one by one. -/
theorem mapDiagnostics_append {before after : List RawDiagnostic} {budget : Budget} {now : Instant}
    {m : MappedDiagnostics}
    (h : (mapDiagnostics w active (before ++ d :: after) budget now).2 = .ok m) :
    ∃ regions front back,
      (mapDiagnostics w active before budget now).2 = .ok front ∧
      (mapDiagnostics w active after budget now).2 = .ok back ∧
      m.inActiveBuffer = front.inActiveBuffer ++ (forActive? w regions active d).toList ++
        back.inActiveBuffer ∧
      m.all = front.all ++ unfiltered d :: back.all := by
  unfold mapDiagnostics at *
  cases hbudget : budget.recordAndCheck now "diagnostics.map" with
  | mk budget' checked =>
    rw [hbudget] at h
    cases checked with
    | error e => cases h
    | ok _ =>
      dsimp only at *
      cases hregions : regionsOf w.files with
      | error e =>
        rw [hregions] at h
        cases h
      | ok regions =>
        rw [hregions] at h
        refine ⟨regions, _, _, rfl, rfl, ?_, ?_⟩
        · rw [← Except.ok.inj h]
          show List.filterMap _ _ = _
          cases hd : forActive? w regions active d <;> simp [List.filterMap_append, hd]
        · rw [← Except.ok.inj h]
          exact List.map_append

/-- Without a region to map into, a message keeps its place and is labelled by its path. -/
theorem forActive?_whole {regions : List Region} {path : String} (hwhole : active.hasRegion = false)
    (hnonempty : active.isEmpty = false) (hpath : d.filePath = some path) :
    forActive? w regions active d =
      if !d.severity.isError && !FileName.endsPath path active.fileName then none
      else some (inFile d path
        (if FileName.endsPath path active.fileName then active else .file (fileNameOf path))) := by
  unfold forActive?
  rw [hpath]
  simp [hwhole, hnonempty]

/-! ## 4. Labels -/

variable {f : SourceFile} {dir : Path}

/-- What is shown of the messages of the active file is labelled with the active buffer. -/
theorem bufferId_of_active {regions : List Region} (hrel : Path.isAbsolute f.name = false)
    (hpath : d.filePath = some (Path.join dir f.name)) (hwhole : active.hasRegion = false)
    (hnonempty : active.isEmpty = false) (hactive : f.isNamed active.fileName = true)
    (hnormal : FileName.normalize active.fileName = active.fileName)
    (hname : InNoDirectory f.name ∨ FileName.normalize f.name = f.name) {shown : Diagnostic}
    (hshown : forActive? w regions active d = some shown) : shown.bufferId = some active := by
  have hsame := isNamed_iff.mp hactive
  rw [forActive?_whole hwhole hnonempty hpath] at hshown
  split at hshown
  · cases hshown
  · rw [← Option.some.inj hshown]
    show some _ = some _
    by_cases hends : FileName.endsPath (Path.join dir f.name) active.fileName = true
    · rw [if_pos hends]
    · rcases hname with hname | hname
      · -- the message has gone by the last part of its path, which is the active file
        rw [if_neg hends, fileNameOf_join dir hrel, inNoDirectory_iff.mp hname,
          file_eq_of_isNamed hwhole hnormal hsame]
      · exact absurd (endsPath_join hrel hname (fileName_ne hwhole hnonempty) hnormal hsame) hends

/-- Of a file whose name is not nested with that of the active file only errors are shown, and they
are labelled with the last part of the name. -/
theorem forActive?_of_other {regions : List Region} (hrel : Path.isAbsolute f.name = false)
    (hpath : d.filePath = some (Path.join dir f.name)) (hwhole : active.hasRegion = false)
    (hnonempty : active.isEmpty = false) (hother : f.isNamed active.fileName = false)
    (hnested : ¬FileName.Nested active.fileName f.name) :
    forActive? w regions active d = if !d.severity.isError then none
      else some (inFile d (Path.join dir f.name) (.file (fileNameOf f.name))) := by
  have hends : FileName.endsPath (Path.join dir f.name) active.fileName = false := by
    rw [Bool.eq_false_iff]
    intro hends
    rcases FileName.nested_of_endsPath_join hrel hends with hsame | hnest
    · rw [isNamed_iff.mpr hsame] at hother
      cases hother
    · exact hnested hnest
  rw [forActive?_whole hwhole hnonempty hpath, hends, fileNameOf_join dir hrel, Bool.not_false,
    Bool.and_true, if_neg Bool.false_ne_true]

/-- In the full list a message of a file is labelled with that file exactly when the name of the
file has no directories.  Shown for a whole file, it is labelled with the active buffer if that is
the file itself; otherwise, if the two names are not nested, it is labelled with its own file, and
only errors are shown. -/
theorem located_labels {before after : List RawDiagnostic} {budget : Budget} {now : Instant}
    {m : MappedDiagnostics} (hrel : Path.isAbsolute f.name = false)
    (hpath : d.filePath = some (Path.join dir f.name))
    (h : (mapDiagnostics w active (before ++ d :: after) budget now).2 = .ok m) :
    ∃ front back entry, ∃ shown : Option Diagnostic,
      (mapDiagnostics w active before budget now).2 = .ok front ∧
      (mapDiagnostics w active after budget now).2 = .ok back ∧
      m.all = front.all ++ entry :: back.all ∧
      m.inActiveBuffer = front.inActiveBuffer ++ shown.toList ++ back.inActiveBuffer ∧
      (entry.bufferId = some (.file f.name) ↔ InNoDirectory f.name) ∧
      (active.hasRegion = false → active.isEmpty = false →
        (f.isNamed active.fileName = true → FileName.normalize active.fileName = active.fileName →
          (InNoDirectory f.name ∨ FileName.normalize f.name = f.name) →
          ∀ e ∈ shown, e.bufferId = some active) ∧
        (f.isNamed active.fileName = false → ¬FileName.Nested active.fileName f.name →
          (d.severity.isError = false → shown = none) ∧
          (InNoDirectory f.name → ∀ e ∈ shown, e.bufferId = some (.file f.name)))) := by
  obtain ⟨regions, front, back, hfront, hback, hshown, hall⟩ := mapDiagnostics_append h
  refine ⟨front, back, _, _, hfront, hback, hall, hshown, ?_, fun hwhole hnonempty => ⟨?_, ?_⟩⟩
  · rw [unfiltered, hpath]
    show some (BufferId.file _) = _ ↔ _
    rw [fileNameOf_join dir hrel, Option.some.injEq, inNoDirectory_iff]
  · intro hactive hnormal hname e he
    exact bufferId_of_active hrel hpath hwhole hnonempty hactive hnormal hname he
  · intro hother hnested
    rw [forActive?_of_other hrel hpath hwhole hnonempty hother hnested]
    constructor
    · intro hwarning
      rw [hwarning]
      rfl
    · intro hname e he
      split at he
      · cases he
      · rw [← Option.some.inj he, ← inNoDirectory_iff.mp hname]
        rfl

/-- A warning of one file while another one is shown. -/
theorem located_labels_twoRegions :
    (mapDiagnostics twoRegionsInlined ⟨"a.cs", none⟩
      ([] ++ ⟨some (Path.join "/pkg" "b.cs"), 11, 12, .warning, "CS0168", "unused"⟩ :: [])
      (.unbounded 0) 0).2 =
      .ok ⟨[], [⟨11, 12, "unused", .warning, "CS0168", some ⟨"b.cs", none⟩⟩]⟩ ∧
    ∃ entry : Diagnostic, ∃ shown : Option Diagnostic,
      [⟨11, 12, "unused", .warning, "CS0168", some ⟨"b.cs", none⟩⟩] = [entry] ∧
      [] = shown.toList ∧ entry.bufferId = some (.file "b.cs") ∧ shown = none := by
  have h : (mapDiagnostics twoRegionsInlined ⟨"a.cs", none⟩
      ([] ++ ⟨some (Path.join "/pkg" "b.cs"), 11, 12, .warning, "CS0168", "unused"⟩ :: [])
      (.unbounded 0) 0).2 =
      .ok ⟨[], [⟨11, 12, "unused", .warning, "CS0168", some ⟨"b.cs", none⟩⟩]⟩ := by
    decide +kernel
  have hnil : (mapDiagnostics twoRegionsInlined ⟨"a.cs", none⟩ [] (.unbounded 0) 0).2 =
      .ok ⟨[], []⟩ := by
    decide +kernel
  have hrel : Path.isAbsolute "b.cs" = false := by decide
  obtain ⟨front, back, entry, shown, hfront, hback, hall, hshown, hentry, hwhole⟩ :=
    located_labels (f := ⟨"b.cs", ""⟩) hrel rfl h
  rw [hnil] at hfront hback
  obtain rfl := Except.ok.inj hfront
  obtain rfl := Except.ok.inj hback
  have hnone := ((hwhole (by decide) (by decide)).2 (by decide +kernel) (by decide +kernel)).1
    (by decide)
  exact ⟨h, entry, shown, hall, by simpa using hshown, hentry.mpr (by decide +kernel), hnone⟩

/-- A workspace of one file without text. -/
def oneFile (name : String) : Workspace :=
  (Workspace.new Workspace.defaultType).withFiles [⟨name, ""⟩]

/-- The file `P.cs` in the directory `sub`: its messages are labelled with `P.cs`, and even its
warnings are shown for the file of that name.  A label does not name the active file either when
the id of that file starts with a blank, or its name does in a directory. -/
theorem mislabelled_nestedNames :
    DistinctNames nestedNames.files ∧
    inline nestedNames (.file "P.cs") = .ok nestedNames ∧
    (mapDiagnostics nestedNames (.file "P.cs")
      [⟨some (Path.join "/pkg" "sub/P.cs"), 0, 1, .warning, "CS0168", "unused"⟩]
      (.unbounded 0) 0).2 =
      .ok ⟨[⟨0, 1, "unused", .warning, "CS0168", some (.file "P.cs")⟩],
        [⟨0, 1, "unused", .warning, "CS0168", some (.file "P.cs")⟩]⟩ ∧
    BufferId.file "P.cs" ≠ .file "sub/P.cs" ∧
    inline (oneFile " a.cs") (.file "./ a.cs") = .ok (oneFile " a.cs") ∧
    ((mapDiagnostics (oneFile " a.cs") (.file "./ a.cs")
      [⟨some (Path.join "/pkg" " a.cs"), 0, 1, .error, "CS1002", "; expected"⟩]
      (.unbounded 0) 0).2.map (·.inActiveBuffer)) =
      .ok [⟨0, 1, "; expected", .error, "CS1002", some (.file "a.cs")⟩] ∧
    BufferId.file "a.cs" ≠ .file "./ a.cs" ∧
    inline (oneFile " sub/P.cs") (.file " sub/P.cs") = .ok (oneFile " sub/P.cs") ∧
    ((mapDiagnostics (oneFile " sub/P.cs") (.file " sub/P.cs")
      [⟨some (Path.join "/pkg" " sub/P.cs"), 0, 1, .error, "CS1002", "; expected"⟩]
      (.unbounded 0) 0).2.map (·.inActiveBuffer)) =
      .ok [⟨0, 1, "; expected", .error, "CS1002", some (.file "P.cs")⟩] ∧
    BufferId.file "P.cs" ≠ .file " sub/P.cs" := by
  unfold DistinctNames
  decide +kernel

end DiagnosticMap

end Playground
