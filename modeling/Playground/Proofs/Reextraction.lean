import Playground.Proofs.Revision
/-!
# Inlined files have their regions still

The compiler's answers are mapped back by looking the regions up again in the inlined files.  They
are all found there, in their old order, but for those that a replacement has done away with.
-/

namespace Playground

open Inline Text

namespace Region

/-- The text of a region in the file that it is destined for. -/
def held? (files : List SourceFile) (v : Region) : Option (List Char) :=
  (files.find? (·.isNamed v.destination)).bind fun f => v.content? f.text.toList

/-- How the regions of files come out of inlining: `rewritten` are those among `before` that have
been replaced, and `after` are the regions found in the inlined files. -/
structure Reextraction (w : Workspace) (active : BufferId) (files files' : List SourceFile)
    (before rewritten after : List Region) : Prop where
  names_eq : files'.map (·.name) = files.map (·.name)
  before_eq : ofFiles files = .ok before
  after_eq : ofFiles files' = .ok after
  sublist : rewritten.Sublist before
  areRewritten : ∀ f ∈ files,
    AreRewritten w active (before.filter fun r => f.isNamed r.destination)
      (rewritten.filter fun r => f.isNamed r.destination)
  ids : after.map (·.bufferId) =
    (before.filter fun v => !erased w active rewritten v).map (·.bufferId)
  replaced : ∀ v ∈ rewritten, ∃ v' ∈ after, v'.bufferId = v.bufferId ∧
    ∃ old new, v.held? files = some old ∧ v'.held? files' = some new ∧
      Replacement w active v old new

/-! ## 1. One more file -/

variable {w w' : Workspace} {active : BufferId} {f : SourceFile} {files files' : List SourceFile}
  {before rewritten after : List Region}

theorem DistinctNames.tail (h : DistinctNames (f :: files)) : DistinctNames files :=
  (List.nodup_cons.mp h).2

theorem DistinctNames.isNamed_head (h : DistinctNames (f :: files)) {g : SourceFile}
    (hg : g ∈ files) : f.isNamed g.name = false := by
  refine Bool.eq_false_of_not_eq_true fun hnamed => ?_
  exact (List.nodup_cons.mp h).1 (List.mem_map.mpr ⟨g, hg, (isNamed_iff.mp hnamed).symm⟩)

theorem isNamed_comm (f g : SourceFile) : f.isNamed g.name = g.isNamed f.name := by
  rw [Bool.eq_iff_iff, isNamed_iff, isNamed_iff, eq_comm]

theorem held?_head {v : Region} (hv : v.destination = f.name) :
    v.held? (f :: files) = v.content? f.text.toList := by
  rw [held?, List.find?_cons_of_pos (by rw [isNamed_iff, hv])]
  rfl

theorem held?_tail {v : Region} (hv : f.isNamed v.destination = false) :
    v.held? (f :: files) = v.held? files := by
  rw [held?, List.find?_cons_of_neg (by rw [hv]; exact Bool.false_ne_true)]
  rfl

theorem ofFile_of_revised {t : Target} {o o' : Outline .any}
    (ho : o.lines = Text.lines f.text.toList) (hnodup : o.names.Nodup)
    (h : Outline.Revised t f.name 0 o o') :
    ofFile ⟨f.name, String.ofList o'.text⟩ = .ok (o'.regions f.name 0) := by
  refine ofFile_eq_ok_iff.mpr ⟨o', ?_, hnodup.sublist h.names_sublist, rfl⟩
  have hlines : AreLines o.lines := ho ▸ areLines_lines _
  rw [String.toList_ofList, Outline.text, lines_flatten (h.areLines hlines)]

theorem erased_congr {us : List Region} {v : Region}
    (hus : ∀ u ∈ us, u.destination ≠ v.destination) :
    erased w active us v = false := by
  rw [erased, List.any_eq_false]
  intro u hu herased
  simp only [Bool.and_eq_true, decide_eq_true_eq] at herased
  exact hus u hu herased.1.1.1

theorem filter_isNamed_head {a b : List Region} (ha : ∀ v ∈ a, v.destination = f.name)
    (hb : ∀ v ∈ b, f.isNamed v.destination = false) :
    (a ++ b).filter (fun r => f.isNamed r.destination) = a := by
  rw [List.filter_append, List.filter_eq_self.mpr fun v hv => by rw [isNamed_iff, ha v hv],
    List.filter_eq_nil_iff.mpr fun v hv => by rw [hb v hv]; exact Bool.false_ne_true,
    List.append_nil]

theorem filter_isNamed_tail {g : SourceFile} (hg : g.isNamed f.name = false) {a b : List Region}
    (ha : ∀ v ∈ a, v.destination = f.name) :
    (a ++ b).filter (fun r => g.isNamed r.destination) =
      b.filter fun r => g.isNamed r.destination := by
  rw [List.filter_append,
    List.filter_eq_nil_iff.mpr fun v hv => by rw [ha v hv, hg]; exact Bool.false_ne_true,
    List.nil_append]

/-- Regions of one file are erased by those of that file alone, and so are the others. -/
theorem filter_not_erased_append {own us others us' : List Region}
    (hown : ∀ v ∈ own, v.destination = f.name) (hus : ∀ u ∈ us, u.destination = f.name)
    (hothers : ∀ v ∈ others, f.isNamed v.destination = false)
    (hus' : ∀ u ∈ us', f.isNamed u.destination = false) :
    (own ++ others).filter (fun v => !erased w active (us ++ us') v) =
      own.filter (fun v => !erased w active us v) ++
        others.filter fun v => !erased w active us' v := by
  have hne : ∀ u v : Region, f.isNamed u.destination = false → v.destination = f.name →
      u.destination ≠ v.destination := by
    intro u v hu hv heq
    rw [heq, hv, Bool.eq_false_iff] at hu
    exact hu (isNamed_iff.mpr rfl)
  rw [List.filter_append]
  congr 1
  · refine List.filter_congr fun v hv => ?_
    rw [Outline.erased_append, erased_congr fun u (hu : u ∈ us') => hne u v (hus' u hu) (hown v hv),
      Bool.or_false]
  · refine List.filter_congr fun v hv => ?_
    rw [Outline.erased_append, erased_congr fun u (hu : u ∈ us) =>
      (hne v u (hothers v hv) (hus u hu)).symm, Bool.false_or]

theorem Reextraction.nil : Reextraction w active [] [] [] [] [] where
  names_eq := rfl
  before_eq := rfl
  after_eq := rfl
  sublist := List.Sublist.refl _
  areRewritten := by simp
  ids := rfl
  replaced := by simp

theorem Reextraction.isNamed_before (hnames : DistinctNames (f :: files))
    (h : Reextraction w active files files' before rewritten after) :
    ∀ v ∈ before, f.isNamed v.destination = false := by
  intro v hv
  obtain ⟨g, hg, hdestination, -⟩ := fileName_of_ofFiles h.before_eq hv
  rw [hdestination, hnames.isNamed_head hg]

theorem Reextraction.isNamed_after (hnames : DistinctNames (f :: files))
    (h : Reextraction w active files files' before rewritten after) :
    ∀ v ∈ after, f.isNamed v.destination = false := by
  intro v hv
  obtain ⟨g', hg', hdestination, -⟩ := fileName_of_ofFiles h.after_eq hv
  have hname : g'.name ∈ files.map (·.name) := by
    rw [← h.names_eq]
    exact List.mem_map_of_mem hg'
  obtain ⟨g, hg, hname⟩ := List.mem_map.mp hname
  rw [hdestination, ← hname, hnames.isNamed_head hg]

/-- Regions of different files have nothing to do with each other. -/
theorem Reextraction.cons (hnames : DistinctNames (f :: files))
    (h : Reextraction w active files files' before rewritten after)
    {o o' : Outline .any} (ho : o.lines = Text.lines f.text.toList) (hnodup : o.names.Nodup)
    (hrevised : Outline.Revised (target w active (o.regions f.name 0)) f.name 0 o o') :
    Reextraction w active (f :: files) (⟨f.name, String.ofList o'.text⟩ :: files')
      (o.regions f.name 0 ++ before)
      (o.rewritten (target w active (o.regions f.name 0)) f.name 0 ++ rewritten)
      (o'.regions f.name 0 ++ after) := by
  have hbefore := h.isNamed_before hnames
  have hown : ∀ v ∈ o.regions f.name 0, v.destination = f.name :=
    fun v hv => Outline.destination_of_mem_regions hv
  have hsublist : (o.rewritten (target w active (o.regions f.name 0)) f.name 0).Sublist
      (o.regions f.name 0) := o.rewritten_sublist 0
  -- the two parts have no file name in common
  have hownRewritten := fun v hv => hown v (hsublist.mem hv)
  have hrewritten := fun v hv => hbefore v (h.sublist.mem hv)
  constructor
  case names_eq => rw [List.map_cons, List.map_cons, h.names_eq]
  case before_eq =>
    exact ofFiles_cons (ofFile_eq_ok_iff.mpr ⟨o, ho, hnodup, rfl⟩) h.before_eq
  case after_eq => exact ofFiles_cons (ofFile_of_revised ho hnodup hrevised) h.after_eq
  case sublist => exact hsublist.append h.sublist
  case areRewritten =>
    intro g hg
    rcases List.mem_cons.mp hg with rfl | hg
    · rw [filter_isNamed_head hown hbefore,
        filter_isNamed_head hownRewritten hrewritten]
      exact areRewritten_rewritten hnodup g.name
    · have hg' : g.isNamed f.name = false := by rw [isNamed_comm, hnames.isNamed_head hg]
      rw [filter_isNamed_tail hg' hown, filter_isNamed_tail hg' hownRewritten]
      exact h.areRewritten g hg
  case ids =>
    rw [filter_not_erased_append hown hownRewritten hbefore hrewritten, List.map_append,
      List.map_append, h.ids, hrevised.map_bufferId_regions 0, Outline.kept_eq_filter]
    rfl
  case replaced =>
    intro v hv
    rcases List.mem_append.mp hv with hv | hv
    · obtain ⟨v', hv', hid, old, new, hold, hnew, hreplacement⟩ :=
        hrevised.found [] rfl [] [] [] hv
      rw [List.nil_append, List.append_nil] at hold hnew
      refine ⟨v', List.mem_append_left _ hv', hid, old, new, ?_, ?_,
        replacement_of_eq_some hreplacement⟩
      · -- both files of that name come first in their lists
        rw [held?_head (hownRewritten v hv), ← Outline.text_eq_of_lines ho, hold]
      · rw [held?_head (f := ⟨f.name, String.ofList o'.text⟩)
          (Outline.destination_of_mem_regions hv'), String.toList_ofList, hnew]
    · obtain ⟨v', hv', hid, old, new, hold, hnew, hreplacement⟩ := h.replaced v hv
      refine ⟨v', List.mem_append_right _ hv', hid, old, new, ?_, ?_, hreplacement⟩
      · rw [held?_tail (hrewritten v hv), hold]
      · rw [held?_tail (f := ⟨f.name, String.ofList o'.text⟩) (h.isNamed_after hnames v' hv'), hnew]

/-! ## 2. All files -/

theorem exists_reextraction (hplain : PlainBuffers w) (hnames : DistinctNames files)
    (h : List.Forall₂
      (fun f f' => ∃ o : Outline .any, o.lines = Text.lines f.text.toList ∧ o.names.Nodup ∧
        f' = ⟨f.name,
          String.ofList (o.revised (target w active (o.regions f.name 0)) f.name 0)⟩)
      files files') :
    ∃ before rewritten after, Reextraction w active files files' before rewritten after := by
  induction h with
  | nil => exact ⟨[], [], [], .nil⟩
  | @cons f f' files files' hf _ ih =>
    obtain ⟨before, rewritten, after, htail⟩ := ih hnames.tail
    obtain ⟨o, ho, hnodup, rfl⟩ := hf
    obtain ⟨o', hrevised⟩ := Outline.exists_revised hplain active (o.regions f.name 0) f.name o 0
      (ho ▸ areLines_lines _)
    rw [← hrevised.text_eq]
    exact ⟨_, _, _, htail.cons hnames ho hnodup hrevised⟩

/-- The active region is rewritten: every other region around it is left alone. -/
theorem AreRewritten.mem_active (hids : (before.map (·.bufferId)).Nodup)
    (h : AreRewritten w active before rewritten) {a : Region} (ha : a ∈ before)
    (hactive : a.bufferId = active) : a ∈ rewritten := by
  refine (h.mem_iff a ha).mpr ⟨fun u hu hne hcontains => ?_, .inl hactive⟩
  have hu' := h.sublist.mem hu
  rcases ((h.mem_iff u hu').mp hu).2 with hu'' | ⟨hclear, -⟩
  · exact hne (List.inj_on_of_nodup_map hids hu' ha (by rw [hu'', hactive]))
  · exact hclear ⟨a, ha, hactive, hcontains⟩

theorem Reextraction.mem_active (hnames : DistinctNames files)
    (h : Reextraction w active files files' before rewritten after) {a : Region}
    (ha : a ∈ before) (hactive : a.bufferId = active) : a ∈ rewritten := by
  obtain ⟨parts, hparts, hbefore⟩ := ofFiles_eq_ok_iff.mp h.before_eq
  obtain ⟨f, hf, hdestination, -⟩ := fileName_of_ofFiles h.before_eq ha
  have hown := ofFile_eq_filter hparts hnames hf
  rw [← hbefore] at hown
  have ha' : a ∈ before.filter fun r => f.isNamed r.destination :=
    List.mem_filter.mpr ⟨ha, by rw [isNamed_iff, hdestination]⟩
  exact List.mem_of_mem_filter
    (AreRewritten.mem_active (nodup_bufferId_of_ofFile hown) (h.areRewritten f hf) ha' hactive)

/-- What the active region holds after inlining: its buffer if it has one, and what it held before
otherwise, between two line feeds. -/
def activeText (w : Workspace) (active : BufferId) (old : List Char) : List Char :=
  ((w.buffers.find? (·.id = active)).map (·.content.toList)).getD old

theorem eq_activeText_of_replacement {a : Region} {old new : List Char}
    (hactive : a.bufferId = active) (h : Replacement w active a old new) :
    new = '\n' :: activeText w active old ++ ['\n'] := by
  rw [Replacement, hactive, if_pos rfl] at h
  rw [activeText]
  cases hbuffer : w.buffers.find? (·.id = active) with
  | some b => rw [hbuffer] at h; exact h
  | none => rw [hbuffer] at h; exact h

theorem exists_reextraction_of_inline (hregion : active.hasRegion = true)
    (hnames : DistinctNames (baseFiles w)) (hplain : PlainBuffers w)
    (h : inline w active = .ok w') :
    ∃ before rewritten after,
      Reextraction w active (baseFiles w) w'.files before rewritten after :=
  exists_reextraction hplain hnames (inline_outlines hregion hnames h).2

theorem Reextraction.exists_active (hregion : active.hasRegion = true)
    (hnames : DistinctNames (baseFiles w)) (hinline : inline w active = .ok w')
    (h : Reextraction w active (baseFiles w) w'.files before rewritten after) :
    ∃ a ∈ rewritten, ∃ a' ∈ after, a.bufferId = active ∧ a'.bufferId = active ∧
      ∃ old, a.held? (baseFiles w) = some old ∧
        a'.held? w'.files = some ('\n' :: activeText w active old ++ ['\n']) := by
  obtain ⟨regions, -, hregions, hknown, -, -⟩ := inline_eq_ok hregion hinline
  obtain ⟨a, ha, hactive⟩ := hknown active (by simp) hregion
  rw [h.before_eq, Except.ok.injEq] at hregions
  subst hregions
  have hrewritten := h.mem_active hnames ha hactive
  obtain ⟨a', ha', hid, old, new, hold, hnew, hreplacement⟩ := h.replaced a hrewritten
  rw [eq_activeText_of_replacement hactive hreplacement] at hnew
  exact ⟨a, hrewritten, a', ha', hactive, by rw [hid, hactive], old, hold, hnew⟩

/-- Inlining keeps all regions of the files but those inside a region that is blanked or that gets
the content of a buffer, and each rewritten one can be read off the inlined files. -/
theorem reextraction_inline (hregion : active.hasRegion = true)
    (hnames : DistinctNames (baseFiles w)) (hplain : PlainBuffers w)
    (h : inline w active = .ok w') :
    ∃ before rewritten after,
      Reextraction w active (baseFiles w) w'.files before rewritten after ∧
      ∃ a ∈ rewritten, ∃ a' ∈ after, a.bufferId = active ∧ a'.bufferId = active ∧
        ∃ old, a.held? (baseFiles w) = some old ∧
          a'.held? w'.files = some ('\n' :: activeText w active old ++ ['\n']) := by
  obtain ⟨before, rewritten, after, hre⟩ := exists_reextraction_of_inline hregion hnames hplain h
  exact ⟨before, rewritten, after, hre, hre.exists_active hregion hnames h⟩

theorem plainBuffers_twoRegions : PlainBuffers twoRegions := by
  unfold PlainBuffers
  decide +kernel

theorem reextraction_inline_twoRegions :
    ∃ before rewritten after,
      Reextraction twoRegions ⟨"a.cs", some "r"⟩ (baseFiles twoRegions) twoRegionsInlined.files
        before rewritten after := by
  obtain ⟨before, rewritten, after, h, -⟩ := reextraction_inline rfl distinctNames_twoRegions
    plainBuffers_twoRegions inline_twoRegions
  exact ⟨before, rewritten, after, h⟩

end Region

end Playground
