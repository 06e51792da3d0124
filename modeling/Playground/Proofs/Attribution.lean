import Playground.DiagnosticMap
import Playground.Files.Path
import Playground.Proofs.Fitting
import Playground.Proofs.MarkerWords
import Playground.Proofs.RevisedLines
/-!
# The file that a message is attributed to

A message names its file by a path, and a path belongs to the file whose name it ends in.  The
package directory is not known there, so the path of one file can end in the name of another: that
is the case for some directory exactly when the names are nested.  Between files whose names are not
nested, no message is taken for one of the other file.
-/

namespace Playground

open Text

/-! ## 1. Paths that end in a name -/

namespace FileName

/-- Whether one of two names, behind a slash, ends the other one behind a slash.  The first is in
normal form and the second as it stands behind a directory. -/
def Nested (a g : String) : Prop :=
  ('/' :: normalChars a.toList <:+ '/' :: (trimEnd g.toList).map slashed) ∨
    ('/' :: (trimEnd g.toList).map slashed <:+ '/' :: normalChars a.toList)

instance (a g : String) : Decidable (Nested a g) :=
  inferInstanceAs (Decidable (_ ∨ _))

theorem dropWhile_append_slash (front rest : List Char) :
    (front ++ '/' :: rest).dropWhile isBlank = front.dropWhile isBlank ++ '/' :: rest := by
  have hslash : ('/' :: rest).dropWhile isBlank = '/' :: rest := rfl
  rw [List.dropWhile_append, hslash]
  split
  · rename_i h
    rw [List.isEmpty_iff.mp h, List.nil_append]
  · rfl

theorem trim_append_slash (front rest : List Char) :
    trim (front ++ '/' :: rest) = trimStart front ++ '/' :: trimEnd rest := by
  rw [trim, trimStart, dropWhile_append_slash, trimEnd, dropEndWhile, List.reverse_append,
    List.reverse_cons, List.append_assoc, List.singleton_append, dropWhile_append_slash]
  simp [trimStart, trimEnd, dropEndWhile]

/-- Behind a slash a name keeps its leading blanks and its `./` steps. -/
theorem normalChars_append_slash (front rest : List Char) :
    normalChars (front ++ '/' :: rest) =
      dropDotSteps ((trimStart front).map slashed ++ '/' :: (trimEnd rest).map slashed) := by
  rw [normalChars, trim_append_slash, List.map_append, List.map_cons]
  rfl

/-- Dropping `./` steps stops before a slash or just behind it, and then goes on from there. -/
theorem dropDotSteps_append_slash (front rest : List Char) :
    ('/' :: rest <:+ dropDotSteps (front ++ '/' :: rest)) ∨
      dropDotSteps (front ++ '/' :: rest) = dropDotSteps rest := by
  fun_induction dropDotSteps front with
  | case1 front ih => exact ih
  | case2 front hfront =>
    by_cases hdot : front = ['.']
    · subst hdot
      exact .inr rfl
    · have hstays : dropDotSteps (front ++ '/' :: rest) = front ++ '/' :: rest := by
        rw [dropDotSteps]
        intro later hlater
        match front with
        | [] => cases hlater
        | [c] =>
          obtain ⟨rfl, -⟩ := List.cons.inj hlater
          exact hdot rfl
        | c :: d :: later' =>
          rw [List.cons_append, List.cons_append, List.cons.injEq, List.cons.injEq] at hlater
          obtain ⟨rfl, rfl, -⟩ := hlater
          exact hfront later' rfl
      rw [hstays]
      exact .inl (List.suffix_append _ _)

theorem dropDotSteps_suffix (cs : List Char) : dropDotSteps cs <:+ cs := by
  fun_induction dropDotSteps cs with
  | case1 rest ih => exact ih.trans ((List.suffix_cons '/' rest).trans (List.suffix_cons '.' _))
  | case2 cs => exact List.suffix_refl _

theorem slashed_slashed (c : Char) : slashed (slashed c) = slashed c := by
  unfold slashed
  split <;> simp [*]

theorem slashed_of_mem_normalChars {cs : List Char} {c : Char} (h : c ∈ normalChars cs) :
    slashed c = c := by
  obtain ⟨d, -, rfl⟩ := List.mem_map.mp ((dropDotSteps_suffix _).subset h)
  exact slashed_slashed d

theorem normalize_eq_iff {a b : String} :
    normalize a = normalize b ↔ normalChars a.toList = normalChars b.toList := by
  rw [normalize, normalize, String.ofList_inj]

theorem endsPath_iff {path name : String} :
    endsPath path name = true ↔ normalChars name.toList ≠ [] ∧
      (normalChars path.toList = normalChars name.toList ∨
        '/' :: normalChars name.toList <:+ normalChars path.toList) := by
  simp [endsPath]

/-- A relative name stands behind its directory and a slash, or alone. -/
theorem toList_join (dir : String) {g : String} (hrel : Path.isAbsolute g = false) :
    (Path.join dir g).toList = g.toList ∨
      ∃ front, (Path.join dir g).toList = front ++ '/' :: g.toList := by
  unfold Path.join
  rw [if_neg (by rw [hrel]; exact Bool.false_ne_true)]
  split
  · exact .inl rfl
  · rename_i hlast
    obtain ⟨front, hfront⟩ := List.getLast?_eq_some_iff.mp hlast
    exact .inr ⟨front, by rw [String.toList_append, hfront]; simp⟩
  · exact .inr ⟨dir.toList, by rw [String.toList_append, String.toList_append]; simp⟩

theorem trim_suffix_trimEnd (cs : List Char) : trim cs <:+ trimEnd cs := by
  have hsplit : cs.reverse = (trimStart cs).reverse ++ (cs.takeWhile isBlank).reverse := by
    rw [← List.reverse_append, trimStart, List.takeWhile_append_dropWhile]
  rw [trim, trimEnd, trimEnd, dropEndWhile, dropEndWhile, List.reverse_suffix, hsplit,
    List.dropWhile_append]
  split
  · rename_i h
    rw [List.isEmpty_iff.mp h]
    exact List.nil_prefix
  · exact List.prefix_append _ _

theorem normalChars_suffix (cs : List Char) : normalChars cs <:+ (trimEnd cs).map slashed :=
  (dropDotSteps_suffix _).trans ((trim_suffix_trimEnd cs).map slashed)

/-- Without `./` steps in the way, a name that does not start with a blank is in normal form as soon
as its end is trimmed; one that does keeps that blank. -/
theorem dropDotSteps_trimEnd (cs : List Char) :
    dropDotSteps ((trimEnd cs).map slashed) = normalChars cs ∨
      dropDotSteps ((trimEnd cs).map slashed) = (trimEnd cs).map slashed := by
  cases cs with
  | nil => exact .inl rfl
  | cons c cs =>
    cases hc : isBlank c with
    | false =>
      left
      rw [normalChars, trim, trimStart, List.dropWhile_cons_of_neg (by simp [hc])]
    | true =>
      right
      have hne : slashed c ≠ '.' := by
        unfold slashed
        split
        · decide
        · rintro rfl
          cases hc
      have hfront : trimEnd (c :: cs) <+: c :: cs := by
        rw [trimEnd, dropEndWhile, ← List.reverse_suffix, List.reverse_reverse]
        exact List.dropWhile_suffix _
      -- the end is trimmed away altogether or the blank still comes first
      rcases List.prefix_cons_iff.mp hfront with hnil | ⟨later, hlater, -⟩
      · rw [hnil]
        rfl
      · rw [hlater, List.map_cons, dropDotSteps]
        intro rest hrest
        exact hne (List.cons.inj hrest).1

/-- A path ends in the name below its directory, behind a slash, unless all of the directory is
dropped. -/
theorem normalChars_join (dir : String) {g : String} (hrel : Path.isAbsolute g = false) :
    normalChars (Path.join dir g).toList = normalChars g.toList ∨
      normalChars (Path.join dir g).toList = (trimEnd g.toList).map slashed ∨
      ('/' :: (trimEnd g.toList).map slashed <:+ normalChars (Path.join dir g).toList) := by
  rcases toList_join dir hrel with hpath | ⟨front, hpath⟩
  · exact .inl (by rw [hpath])
  · rw [hpath, normalChars_append_slash]
    rcases dropDotSteps_append_slash ((trimStart front).map slashed)
      ((trimEnd g.toList).map slashed) with hsuffix | hdrop
    · exact .inr (.inr hsuffix)
    · rw [hdrop]
      rcases dropDotSteps_trimEnd g.toList with h | h
      · exact .inl h
      · exact .inr (.inl h)

/-- A path ends in a name only if it leads to that name or to one that is nested with it. -/
theorem nested_of_endsPath_join {dir g a : String} (hrel : Path.isAbsolute g = false)
    (h : endsPath (Path.join dir g) a = true) : normalize g = normalize a ∨ Nested a g := by
  obtain ⟨-, hends⟩ := endsPath_iff.mp h
  rw [normalize_eq_iff]
  -- the directory is dropped with or without the steps of the name, or a slash is left between
  rcases normalChars_join dir hrel with hpath | hpath | hpath
  · rw [hpath] at hends
    rcases hends with hends | hends
    · exact .inl hends
    · exact .inr (.inl ((hends.trans (normalChars_suffix _)).trans (List.suffix_cons '/' _)))
  · rw [hpath] at hends
    rcases hends with hends | hends
    · exact .inr (.inl (hends ▸ List.suffix_refl _))
    · exact .inr (.inl (hends.trans (List.suffix_cons '/' _)))
  · rcases hends with hends | hends
    · rw [hends] at hpath
      exact .inr (.inr (hpath.trans (List.suffix_cons '/' _)))
    -- both are ends of the path, so the shorter one ends the longer one
    · exact .inr (List.suffix_or_suffix_of_suffix hends hpath)

/-- For some directory the path of a file ends in the name of another one exactly when they have the
same name or nested ones. -/
theorem exists_endsPath_join_iff {g a : String} (hrel : Path.isAbsolute g = false)
    (hne : normalChars a.toList ≠ []) :
    (∃ dir, endsPath (Path.join dir g) a = true) ↔ normalize g = normalize a ∨ Nested a g := by
  constructor
  · rintro ⟨dir, h⟩
    exact nested_of_endsPath_join hrel h
  · rintro (hname | hnested)
    · refine ⟨"", endsPath_iff.mpr ⟨hne, .inl ?_⟩⟩
      rw [normalize_eq_iff] at hname
      rw [Path.join, if_neg (by rw [hrel]; exact Bool.false_ne_true)]
      exact hname
    · -- `front` is what the longer of the two has before the shorter one
      obtain ⟨front, hfront, hslash, hends⟩ : ∃ front, front.map slashed = front ∧
          (front = [] ∨ ∃ later, front = '/' :: later) ∧
          ('/' :: normalChars a.toList <:+ front ++ '/' :: (trimEnd g.toList).map slashed) := by
        rcases hnested with hnested | ⟨front, hfront⟩
        · exact ⟨[], rfl, .inl rfl, hnested⟩
        · refine ⟨front, ?_, ?_, hfront ▸ List.suffix_refl _⟩
          · refine (List.map_congr_left fun c hc => ?_).trans (List.map_id front)
            have hmem : c ∈ '/' :: normalChars a.toList := hfront ▸ List.mem_append_left _ hc
            rcases List.mem_cons.mp hmem with rfl | hmem
            · rfl
            · exact slashed_of_mem_normalChars hmem
          · cases front with
            | nil => exact .inl rfl
            | cons c later => exact .inr ⟨later, by rw [(List.cons.inj hfront).1]⟩
      have hjoin : (Path.join (String.ofList (front ++ ['/'])) g).toList =
          front ++ '/' :: g.toList := by
        rw [Path.join, if_neg (by rw [hrel]; exact Bool.false_ne_true)]
        simp
      refine ⟨String.ofList (front ++ ['/']), endsPath_iff.mpr ⟨hne, .inr ?_⟩⟩
      rw [hjoin, normalChars_append_slash]
      rcases hslash with rfl | ⟨later, rfl⟩
      · exact hends
      · rw [trimStart, List.dropWhile_cons_of_neg (by decide), hfront]
        exact hends

end FileName

/-! ## 2. Messages of other files -/

namespace DiagnosticMap

open Inline Region

variable {w w' : Workspace} {active : BufferId}

/-- The extracted regions of an inlined workspace are not none: the marker lines of the active
region are still there. -/
theorem regions_ne_nil (hregion : active.hasRegion = true) (hnames : DistinctNames (baseFiles w))
    (h : inline w active = .ok w') {regions : List Region}
    (hregions : ofFiles w'.files = .ok regions) : regions ≠ [] := by
  obtain ⟨f, -, f', hf', -, _, a, -, -, -, haround⟩ := exists_around_active hregion hnames h
  obtain ⟨parts, hparts, rfl⟩ := ofFiles_eq_ok_iff.mp hregions
  obtain ⟨part, hpart, hfile⟩ := exists_right_of_mem hparts hf'
  generalize hlines : Text.lines f'.text.toList = ls at haround
  cases haround with
  | intro before behind hstarts hstops =>
    obtain ⟨r, hr⟩ := List.exists_mem_of_ne_nil _ (ne_nil_of_ofFile hfile hstarts hstops hlines)
    exact List.ne_nil_of_mem (List.mem_flatten.mpr ⟨part, hpart, hr⟩)

/-- A message is mapped into the active region only if its path ends in the name of the file that
holds the region. -/
theorem exists_file_of_intoRegion? {regions : List Region}
    (hregions : ofFiles w'.files = .ok regions) {d : RawDiagnostic} {path : String}
    {entry : Diagnostic} (h : intoRegion? w' regions active d path = some entry) :
    ∃ f ∈ w'.files, FileName.normalize f.name = active.fileName ∧
      FileName.endsPath path f.name = true := by
  unfold intoRegion? at h
  obtain ⟨r, hr, -⟩ := Option.bind_eq_some_iff.mp h
  have hfound := List.find?_some hr
  rw [Bool.and_eq_true, Bool.and_eq_true, beq_iff_eq] at hfound
  obtain ⟨f, hf, hdestination, hname⟩ :=
    fileName_of_ofFiles hregions (List.mem_of_find?_eq_some hr)
  exact ⟨f, hf, by rw [← hname, hfound.1.1], by rw [← hdestination]; exact hfound.1.2⟩

theorem forActive?_eq_none (hregion : active.hasRegion = true) {regions : List Region}
    (hne : regions ≠ []) {d : RawDiagnostic} {path : String} (hpath : d.filePath = some path)
    (hregions : intoRegion? w' regions active d path = none) :
    forActive? w' regions active d = none := by
  have hempty : regions.isEmpty = false := List.isEmpty_eq_false_iff.mpr hne
  unfold forActive?
  rw [hpath]
  simp only [Option.bind_eq_bind, Option.bind_some, hempty, hregion, hregions]
  split <;> rfl

/-- Whatever its offsets and severity, a message of another file adds nothing to the active buffer,
unless the name of that file is nested with the name of the active file. -/
theorem not_captured (hregion : active.hasRegion = true) (h : inline w active = .ok w')
    (hnames : DistinctNames w'.files) {a g : SourceFile} (ha : a ∈ w'.files)
    (hactive : active.fileName = FileName.normalize a.name) (hg : g ∈ w'.files) (hne : g ≠ a)
    (hrel : Path.isAbsolute g.name = false) (hnested : ¬FileName.Nested a.name g.name)
    (dir : Path) {d : RawDiagnostic} (hpath : d.filePath = some (Path.join dir g.name))
    (before after : List RawDiagnostic) (budget : Budget) (now : Instant) :
    (mapDiagnostics w' active (before ++ d :: after) budget now).2.map (·.inActiveBuffer) =
      (mapDiagnostics w' active (before ++ after) budget now).2.map (·.inActiveBuffer) := by
  have hbase : DistinctNames (baseFiles w) :=
    hnames.of_map_name (map_name_of_inline hregion h).symm
  unfold mapDiagnostics
  cases budget.recordAndCheck now "diagnostics.map" with
  | mk budget' checked =>
    cases checked with
    | error e => rfl
    | ok _ =>
      dsimp only
      cases hregions : ofFiles w'.files with
      | error e =>
        rw [regionsOf, hregions]
        rfl
      | ok regions =>
        rw [regionsOf, hregions]
        -- the path of `g` does not end in the name of the active file
        have hother : intoRegion? w' regions active d (Path.join dir g.name) = none := by
          by_contra hsome
          obtain ⟨entry, hentry⟩ := Option.ne_none_iff_exists'.mp hsome
          obtain ⟨f, hf, hname, hends⟩ := exists_file_of_intoRegion? hregions hentry
          rw [hactive] at hname
          obtain rfl : f = a := hnames.eq_of_normalize hf ha hname
          rcases FileName.nested_of_endsPath_join hrel hends with hsame | hnest
          · exact hne (hnames.eq_of_normalize hg hf hsame)
          · exact hnested hnest
        have hnone := forActive?_eq_none hregion (regions_ne_nil hregion hbase h hregions) hpath
          hother
        show Except.ok _ = Except.ok _
        rw [List.filterMap_append, List.filterMap_cons_none hnone, ← List.filterMap_append]

theorem not_captured_twoRegions :
    (mapDiagnostics twoRegionsInlined ⟨"a.cs", some "r"⟩
      [⟨some (Path.join "/pkg" "b.cs"), 11, 12, .error, "CS1002", "; expected"⟩]
      (.unbounded 0) 0).2.map (·.inActiveBuffer) =
    (mapDiagnostics twoRegionsInlined ⟨"a.cs", some "r"⟩ [] (.unbounded 0) 0).2.map
      (·.inActiveBuffer) := by
  have hnames : DistinctNames twoRegionsInlined.files := by
    unfold DistinctNames
    decide +kernel
  exact not_captured (a := ⟨"a.cs", "#region r\n\nné\n#endregion\n"⟩)
    (g := ⟨"b.cs", "#region s\n\n\n#endregion"⟩) rfl inline_twoRegions hnames (by decide +kernel)
    (by decide +kernel) (by decide +kernel) (by decide) (by decide) (by decide +kernel) "/pkg" rfl
    [] [] (.unbounded 0) 0

/-- Two files, one of which has the name of the other one in a directory. -/
def nestedNames : Workspace where
  files := [⟨"P.cs", "#region r\nx\n#endregion\n"⟩, ⟨"sub/P.cs", ""⟩]
  buffers := []
  usings := []
  workspaceType := "script"
  language := .csharp
  includeInstrumentation := false

/-- The workspace `nestedNames` inlined for its region. -/
def nestedNamesInlined : Workspace :=
  nestedNames.withFiles [⟨"P.cs", "#region r\n\nx\n\n#endregion\n"⟩, ⟨"sub/P.cs", ""⟩]

/-- An error of the file in the directory is shown in the region of the other file. -/
theorem captured_nestedNames :
    DistinctNames nestedNamesInlined.files ∧
    inline nestedNames ⟨"P.cs", some "r"⟩ = .ok nestedNamesInlined ∧
    (mapDiagnostics nestedNamesInlined ⟨"P.cs", some "r"⟩
      [⟨some (Path.join "/pkg" "sub/P.cs"), 11, 12, .error, "CS1002", "; expected"⟩]
      (.unbounded 0) 0).2.map (·.inActiveBuffer) =
      .ok [⟨0, 1, "(1,1): error CS1002: ; expected", .error, "CS1002",
        some ⟨"P.cs", some "r"⟩⟩] := by
  unfold DistinctNames
  decide +kernel

end DiagnosticMap

end Playground
