import Playground.Proofs.Fitting
import Playground.Proofs.MarkerWords
import Playground.Proofs.RevisedLines
import Playground.Proofs.RoundTrip
/-!
# What the later stages accept

Mapping messages and locating a cursor extract the regions again, from files in which the buffers
now stand.  A buffer may hold marker lines of its own.  As long as the names that it starts are
started nowhere else in the file, the files are accepted again; and if its markers are matched with
each other, the active region is found where it was put.
-/

namespace Playground

open Inline Text

namespace Region

/-! ## 1. Buffers that bring in names -/

/-- The names that the buffer with the given id starts, if there is one. -/
def bufferNames (w : Workspace) (id : BufferId) : List (List Char) :=
  match w.buffer? id with
  | some b => startNames (Text.lines b.content.toList)
  | none => []

/-- The buffers for the regions of a file start different names, and none that the file starts
outside the region of the buffer. -/
structure FreshNames (w : Workspace) (f : SourceFile) (regions : List Region) : Prop where
  distinct : (regions.flatMap (bufferNames w ·.bufferId)).Nodup
  inside : ∀ r ∈ regions, ∀ name ∈ bufferNames w r.bufferId,
    name ∈ startNames (Text.lines f.text.toList) →
      ∃ old, r.content? f.text.toList = some old ∧ name ∈ startNames (Text.lines old)

/-- The names are different, and each is one of `own` or else, unknown before, one of `fresh`. -/
structure NamedFrom (known own fresh names : List (List Char)) : Prop where
  nodup : names.Nodup
  origin : ∀ name ∈ names, name ∈ own ∨ name ∉ known ∧ name ∈ fresh

namespace NamedFrom

variable {known own own' fresh fresh' names names' : List (List Char)}

theorem of_sublist (hown : own.Nodup) (h : names.Sublist own) : NamedFrom known own [] names :=
  ⟨hown.sublist h, fun _ hname => .inl (h.mem hname)⟩

theorem mono (h : NamedFrom known own fresh names) (hfresh : fresh ⊆ fresh') :
    NamedFrom known own fresh' names :=
  ⟨h.nodup, fun name hname => (h.origin name hname).imp_right fun hnew => ⟨hnew.1, hfresh hnew.2⟩⟩

/-- Names of one part and of the next are different when they have different origins. -/
theorem seq (h : NamedFrom known own fresh names) (h' : NamedFrom known own' fresh' names')
    (hknown : own ++ own' ⊆ known) (hown : (own ++ own').Nodup) (hfresh : (fresh ++ fresh').Nodup) :
    NamedFrom known (own ++ own') (fresh ++ fresh') (names ++ names') where
  nodup := by
    refine h.nodup.append h'.nodup fun name hname hname' => ?_
    rcases h.origin name hname with hmem | ⟨hnew, hmem⟩
    · rcases h'.origin name hname' with hmem' | ⟨hnew', -⟩
      · exact List.disjoint_of_nodup_append hown hmem hmem'
      · exact hnew' (hknown (List.mem_append_left _ hmem))
    · rcases h'.origin name hname' with hmem' | ⟨-, hmem'⟩
      · exact hnew (hknown (List.mem_append_right _ hmem'))
      · exact List.disjoint_of_nodup_append hfresh hmem hmem'
  origin := by
    intro name hname
    rcases List.mem_append.mp hname with hname | hname
    · exact (h.origin name hname).imp (List.mem_append_left _)
        fun hnew => ⟨hnew.1, List.mem_append_left _ hnew.2⟩
    · exact (h'.origin name hname).imp (List.mem_append_right _)
        fun hnew => ⟨hnew.1, List.mem_append_right _ hnew.2⟩

theorem cons (h : NamedFrom known own fresh names) {name : List Char}
    (hknown : name :: own ⊆ known) (hown : (name :: own).Nodup) (hfresh : fresh.Nodup) :
    NamedFrom known (name :: own) fresh (name :: names) := by
  have hname : NamedFrom known [name] [] [name] :=
    .of_sublist (List.nodup_singleton name) (List.Sublist.refl _)
  exact hname.seq h hknown hown hfresh

end NamedFrom

/-! ## 2. The names that a revised text starts -/

namespace Outline

variable {k : Strays} {w : Workspace} {active : BufferId} {regions : List Region} {file : String}

/-- The names that the buffers for the regions of an outline start. -/
def broughtNames (w : Workspace) (file : String) (o : Outline k) : List (List Char) :=
  o.regionNames.flatMap fun name => bufferNames w (.region file (String.ofList name))

/-- Every known name that a buffer starts is started in the block of the buffer already. -/
def Admits (w : Workspace) (file : String) (known : List (List Char)) {k : Strays} :
    Outline k → Prop
  | done => True
  | line _ _ rest => rest.Admits w file known
  | block _ name _ body _ _ rest =>
      (∀ n ∈ bufferNames w (.region file (String.ofList name)), n ∈ known → n ∈ body.names) ∧
        body.Admits w file known ∧ rest.Admits w file known
  | unclosed _ _ _ _ rest => rest.Admits w file known
  | unopened _ _ _ rest => rest.Admits w file known

theorem areLines_of_isLine {o : Outline k} (h : ∀ l ∈ o.lines, IsLine l) : AreLines o.lines := by
  rw [← List.append_nil o.lines]
  exact .append h .nil

theorem startNames_text {body : Outline .none} (h : ∀ l ∈ body.lines, IsLine l) :
    startNames (Text.lines body.text) = body.names := by
  rw [text, lines_flatten (areLines_of_isLine h), body.startNames_lines]

theorem admits_of_inside {known : List (List Char)} (o : Outline k) (front back : List Char)
    (hlines : AreLines o.lines)
    (h : ∀ r ∈ o.regions file (byteLength front), ∀ name ∈ bufferNames w r.bufferId,
      name ∈ known → ∃ old, r.content? (front ++ o.text ++ back) = some old ∧
        name ∈ startNames (Text.lines old)) :
    o.Admits w file known := by
  induction o generalizing front back with
  | done => trivial
  | line text plain rest ih | unclosed allowed text name starts rest ih
  | unopened allowed text stops rest ih =>
    refine ih (front ++ text) back hlines.tail fun r hr => ?_
    rw [byteLength_append] at hr
    rw [List.append_assoc front text]
    exact h r hr
  | block opening name starts body closing stops rest ihbody ihrest =>
    -- the lines of the block stand around those of its body
    have hclosing : AreLines (closing :: rest.lines) := hlines.right
    have hbody : ∀ l ∈ body.lines, IsLine l :=
      hlines.tail.isLine_left (List.cons_ne_nil closing rest.lines)
    rw [Outline.regions, ← byteLength_append] at h
    refine ⟨fun n hn hknown => ?_, ?_, ?_⟩
    · obtain ⟨old, hold, hname⟩ := h _ List.mem_cons_self n hn hknown
      rw [append_text_body, content?_region, Option.some.injEq] at hold
      rwa [← hold, startNames_text hbody] at hname
    · refine ihbody (front ++ opening) (closing ++ rest.text ++ back) (areLines_of_isLine hbody)
        fun r hr => ?_
      rw [← append_text_body]
      exact h r (List.mem_append_left _ (List.mem_cons_of_mem _ hr))
    · refine ihrest (front ++ opening ++ body.text ++ closing) back hclosing.tail fun r hr => ?_
      rw [← append_text_rest]
      refine h r (List.mem_append_right _ ?_)
      rwa [byteLength_append, byteLength_append] at hr

/-- A replacement starts the names of its buffer, or else names that the region started before. -/
theorem startNames_replacement? {v : Region} {body : Outline .none}
    (hbody : ∀ l ∈ body.lines, IsLine l) {new : List Char}
    (h : replacement? (target w active regions) v body.text = some new) :
    startNames (Text.lines new) = bufferNames w v.bufferId ∨
      (startNames (Text.lines new)).Sublist body.names := by
  -- padding starts no names, and a blanked region has none left
  have hpadded : ∀ cs, startNames (Text.lines (padded cs)) = startNames (Text.lines cs) :=
    fun cs => by rw [startNames, markers_padded, startNames]
  rw [replacement?_target] at h
  rw [bufferNames]
  by_cases hactive : v.bufferId = active
  · rw [if_pos hactive, Option.some.injEq] at h
    subst h
    rw [hpadded, hactive]
    cases w.buffer? active with
    | some b => exact .inl rfl
    | none =>
      right
      show (startNames (Text.lines body.text)).Sublist body.names
      rw [startNames_text hbody]
  · rw [if_neg hactive] at h
    split at h
    · cases h
    · cases hb : w.buffer? v.bufferId with
      | some b =>
        rw [hb, Option.some.injEq] at h
        subst h
        exact .inl (hpadded _)
      | none =>
        rw [hb] at h
        dsimp only at h
        split at h
        · rw [Option.some.injEq] at h
          subst h
          left
          rw [startNames, markers_blank]
          rfl
        · cases h

/-- The names that a revised text starts are different: they come from the outline or, if no line
of the file starts them, from the buffers for its regions. -/
theorem namedFrom_revisedLines {known : List (List Char)} (o : Outline k) (offset : Nat)
    (hlines : AreLines o.lines) (hnames : o.names.Nodup) (hknown : o.names ⊆ known)
    (hbrought : (o.broughtNames w file).Nodup) (hadmits : o.Admits w file known) :
    NamedFrom known o.names (o.broughtNames w file)
      (startNames (o.revisedLines (target w active regions) file offset)) := by
  induction o generalizing offset with
  | done => exact .of_sublist hnames (List.nil_sublist _)
  | line text plain rest ih =>
    rw [revisedLines, startNames_cons_plain plain]
    exact ih _ hlines.tail hnames hknown hbrought hadmits
  | block opening name starts body closing stops rest ihbody ihrest =>
    have hclosing : AreLines (closing :: rest.lines) := hlines.right
    have hbody : ∀ l ∈ body.lines, IsLine l :=
      hlines.tail.isLine_left (List.cons_ne_nil closing rest.lines)
    have hsplit : (block opening name starts body closing stops rest).broughtNames w file =
        (bufferNames w (.region file (String.ofList name)) ++ body.broughtNames w file) ++
          rest.broughtNames w file := by
      rw [broughtNames, regionNames, List.flatMap_append, List.flatMap_cons]
      rfl
    rw [names] at hnames hknown
    rw [hsplit] at hbrought ⊢
    obtain ⟨hhere, hlater, -⟩ := List.nodup_append'.mp hbrought
    obtain ⟨hown, hnamesRest, -⟩ := List.nodup_append'.mp hnames
    obtain ⟨hknownHere, hknownRest⟩ := List.append_subset.mp hknown
    obtain ⟨hadmitsHere, hadmitsBody, hadmitsRest⟩ := hadmits
    have hrest := ihrest
      (offset + byteLength opening + byteLength body.text + byteLength closing) hclosing.tail
      hnamesRest hknownRest hlater hadmitsRest
    rw [revisedLines, startNames_append, startNames_cons_start starts, startNames_cons_stop stops]
    refine (NamedFrom.cons ?_ hknownHere hown hhere).seq hrest hknown hnames hbrought
    -- what stands between the marker lines of the block
    cases hnew : replacement? (target w active regions)
        (region file name (offset + byteLength opening) body) body.text with
    | some new =>
      dsimp only
      rcases startNames_replacement? hbody hnew with hsame | hsub
      · -- the names of the buffer, of which the block started those that are known
        rw [hsame]
        refine ⟨(List.nodup_append'.mp hhere).1, fun n hn => ?_⟩
        by_cases hmem : n ∈ known
        · exact .inl (hadmitsHere n hn hmem)
        · exact .inr ⟨hmem, List.mem_append_left _ hn⟩
      · exact (NamedFrom.of_sublist hown.of_cons hsub).mono (List.nil_subset _)
    | none =>
      have hinner := ihbody (offset + byteLength opening) (areLines_of_isLine hbody) hown.of_cons
        (List.subset_of_cons_subset hknownHere) (List.nodup_append'.mp hhere).2.1 hadmitsBody
      exact hinner.mono (List.subset_append_right _ _)
  | unclosed allowed opening name starts rest ih =>
    rw [revisedLines, startNames_cons_start starts]
    exact (ih _ hlines.tail hnames.of_cons (List.subset_of_cons_subset hknown) hbrought
      hadmits).cons hknown hnames hbrought
  | unopened allowed closing stops rest ih =>
    rw [revisedLines, startNames_cons_stop stops]
    exact ih _ hlines.tail hnames hknown hbrought hadmits

end Outline

/-! ## 3. Extracting again -/

theorem exists_ofFiles_eq_ok {files : List SourceFile}
    (h : ∀ f ∈ files, (startNames (Text.lines f.text.toList)).Nodup) :
    ∃ regions, ofFiles files = .ok regions := by
  cases hparts : files.mapM ofFile with
  | error e =>
    obtain ⟨f, hf, he⟩ := exists_error_of_mapM hparts
    obtain ⟨regions, hok⟩ := exists_ofFile_eq_ok_iff.mpr (h f hf)
    rw [he] at hok
    cases hok
  | ok parts => exact ⟨parts.flatten, ofFiles_eq_ok_iff.mpr ⟨parts, mapM_eq_ok_iff.mp hparts, rfl⟩⟩

variable {w w' : Workspace} {active : BufferId}

/-- Fresh names in the buffers leave every inlined file without a repeated name. -/
theorem exists_ofFiles_of_freshNames (hregion : active.hasRegion = true)
    (hnames : DistinctNames (baseFiles w))
    (hfresh : ∀ f ∈ baseFiles w, ∀ regions, ofFile f = .ok regions → FreshNames w f regions)
    (h : inline w active = .ok w') : ∃ regions, ofFiles w'.files = .ok regions := by
  refine exists_ofFiles_eq_ok fun f' hf' => ?_
  obtain ⟨f, hf, hf'⟩ := exists_left_of_mem
    ((List.forall₂_and_left _ _).mpr ⟨fun f hf => hf, (inline_outlines hregion hnames h).2⟩) hf'
  obtain ⟨hmem, o, ho, hnodup, rfl⟩ := hf'
  -- `o` is the outline of the file before, and the names it starts are those known in the file
  have hlines : AreLines o.lines := ho ▸ areLines_lines _
  have hregions : ofFile f = .ok (o.regions f.name 0) := ofFile_eq_ok_iff.mpr ⟨o, ho, hnodup, rfl⟩
  have hf := hfresh f hmem _ hregions
  have hbrought : (o.broughtNames w f.name).Nodup := by
    have hdistinct := hf.distinct
    rwa [← List.flatMap_map, Outline.map_bufferId_regions, List.flatMap_map] at hdistinct
  have hadmits : o.Admits w f.name o.names := by
    refine o.admits_of_inside [] [] hlines fun r hr name hname hknown => ?_
    rw [List.nil_append, List.append_nil, Outline.text_eq_of_lines ho]
    refine hf.inside r hr name hname ?_
    rwa [← ho, o.startNames_lines]
  rw [String.toList_ofList, Outline.lines_revised hlines]
  exact (o.namedFrom_revisedLines 0 hlines hnodup (List.Subset.refl _) hbrought hadmits).nodup

/-- With matched markers in the buffer for the active region, that region is found again. -/
theorem exists_active_of_matched (hregion : active.hasRegion = true)
    (hnames : DistinctNames (baseFiles w))
    (hmatched : ∀ b, w.buffer? active = some b → Matched b.content.toList)
    (h : inline w active = .ok w') {regions : List Region}
    (hregions : ofFiles w'.files = .ok regions) :
    ∃ r ∈ regions, r.bufferId = active ∧ 2 * paddingSize ≤ r.span.length := by
  obtain ⟨f, -, f', hf', hname, own, a, -, -, hactive, haround⟩ :=
    exists_around_active hregion hnames h
  obtain ⟨parts, hparts, rfl⟩ := ofFiles_eq_ok_iff.mp hregions
  obtain ⟨part, hpart, hfile⟩ := exists_right_of_mem hparts hf'
  generalize hlines : Text.lines f'.text.toList = ls at haround
  cases haround with
  | @intro opening name new closing body before behind hstarts hstops hid hbody hnew =>
    rw [replacement?_target, if_pos hactive, Option.some.injEq] at hnew
    subst hnew
    -- what is put there is the buffer or, without one, a body whose markers are matched anyhow
    have hcloses : closes 0 (markers (Text.lines (padded
        (((w.buffer? active).map (·.content.toList)).getD body.text)))) = true := by
      rw [markers_padded]
      cases hb : w.buffer? active with
      | some b => exact hmatched b hb
      | none =>
        have hlines : Text.lines body.text = body.lines :=
          lines_flatten (Outline.areLines_of_isLine hbody)
        show closes 0 (markers (Text.lines body.text)) = true
        rw [hlines, ← List.append_nil (markers body.lines), body.closes_lines]
        rfl
    have hr := region_mem_of_closes hfile hstarts hstops hcloses hlines
    refine ⟨_, List.mem_flatten.mpr ⟨part, hpart, hr⟩, by rw [hname, ← hid, hactive], ?_⟩
    rw [flatten_lines, padded, byteLength_padded]
    exact Nat.le_add_left _ _

end Region

/-! ## 4. The later stages -/

open Region

theorem nodup_append_freshNames {known : List String} (names : List String)
    (h : (known.map FileName.normalize).Nodup) :
    ((known ++ freshNames known names).map FileName.normalize).Nodup := by
  -- on the names to be added, while those that are new join the known ones
  induction names generalizing known with
  | nil => simpa [freshNames] using h
  | cons name names ih =>
    rw [freshNames]
    split
    · exact ih h
    · rename_i hfresh
      have hstep : ((known ++ [name]).map FileName.normalize).Nodup := by
        rw [List.map_append, List.map_singleton]
        refine h.append (List.nodup_singleton _) ?_
        rw [List.disjoint_singleton]
        rintro hmem
        obtain ⟨other, hother, hsame⟩ := List.mem_map.mp hmem
        exact hfresh (List.any_eq_true.mpr ⟨other, hother, beq_iff_eq.mpr hsame⟩)
      simpa using ih hstep

/-- Whole-file buffers leave distinct names distinct. -/
theorem Region.DistinctNames.baseFiles {w : Workspace} (h : DistinctNames w.files) :
    DistinctNames (baseFiles w) := by
  rw [distinctNames_iff, Inline.baseFiles, map_name_foldl_applyBuffer]
  exact nodup_append_freshNames _ (distinctNames_iff.mp h)

theorem mapDiagnostics_eq_ok {w : Workspace} {active : BufferId} {regions : List Region}
    (hregions : ofFiles w.files = .ok regions) (ds : List RawDiagnostic) {budget : Budget}
    {now : Instant} (hbudget : budget.isExceeded now = false) :
    ∃ budget' mapped, mapDiagnostics w active ds budget now = (budget', .ok mapped) :=
  ⟨_, _, ActiveRegion.mapDiagnostics_of_ofFiles hregions ds hbudget⟩

/-- One file with a region, and the given text in the buffer for that region. -/
def editing (content : String) : Workspace where
  files := [⟨"a.cs", "#region r\nx\n#endregion\n"⟩]
  buffers := [⟨⟨"a.cs", some "r"⟩, content, 0⟩]
  usings := []
  workspaceType := "script"
  language := .csharp
  includeInstrumentation := false

/-- The workspace `editing content` with the given text in its file. -/
def edited (content text : String) : Workspace :=
  (editing content).withFiles [⟨"a.cs", text⟩]

end Playground
