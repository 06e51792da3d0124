import Mathlib.Data.List.TakeDrop
import Playground.Proofs.Labelling
/-!
# Ids in their written form

A request names its active buffer in written form, `file@region`.  The id that is read back is the
one that was written exactly when the file name is left alone by another normalisation and the
region name holds no `@` and no outer blanks.  Names on marker lines have no blanks but can hold an
`@`, and dropping `./` steps can bring a blank to the front of a file name; the regions of such
names and files are found by no request.
-/

namespace Playground.Text

/-! ## 1. Trimming what is trimmed -/

theorem dropWhile_isBlank_eq_self {cs : List Char} :
    cs.dropWhile isBlank = cs ↔ ∀ c, cs.head? = some c → isBlank c = false := by
  cases cs with
  | nil => simp
  | cons c cs =>
    cases hc : isBlank c with
    | false => simp [hc]
    | true =>
      have hlt : ((c :: cs).dropWhile isBlank).length < (c :: cs).length := by
        rw [List.dropWhile_cons_of_pos hc]
        exact Nat.lt_succ_of_le (List.dropWhile_suffix isBlank).length_le
      constructor
      · intro h
        rw [h] at hlt
        exact absurd hlt (Nat.lt_irrefl _)
      · intro h
        rw [h c rfl] at hc
        cases hc

theorem trimEnd_eq_self {cs : List Char} :
    trimEnd cs = cs ↔ ∀ c, cs.getLast? = some c → isBlank c = false := by
  rw [trimEnd, dropEndWhile, List.reverse_eq_iff, dropWhile_isBlank_eq_self, List.head?_reverse]

theorem trim_eq_self_of_forall {cs : List Char} (h : ∀ c ∈ cs, isBlank c = false) :
    trim cs = cs := by
  have hstart : trimStart cs = cs :=
    dropWhile_isBlank_eq_self.mpr fun c hc => h c (List.mem_of_mem_head? hc)
  rw [trim, hstart, trimEnd_eq_self]
  exact fun c hc => h c (List.mem_of_getLast? hc)

theorem isBlank_getLast?_trim (cs : List Char) {c : Char} (h : (trim cs).getLast? = some c) :
    isBlank c = false := by
  rw [trim, trimEnd, dropEndWhile, List.getLast?_reverse] at h
  have hhead := List.head?_dropWhile_not isBlank (trimStart cs).reverse
  rw [h] at hhead
  exact hhead

theorem length_trimEnd_le (cs : List Char) : (trimEnd cs).length ≤ cs.length := by
  have hle := (List.dropWhile_suffix isBlank (l := cs.reverse)).length_le
  rw [List.length_reverse] at hle
  rwa [trimEnd, dropEndWhile, List.length_reverse]

theorem trim_subset (cs : List Char) : trim cs ⊆ cs := by
  intro c hc
  have hdrop := (List.dropWhile_suffix isBlank).subset (List.mem_reverse.mp hc)
  exact (List.dropWhile_suffix isBlank).subset (List.mem_reverse.mp hdrop)

/-- A text is trimmed when no blank stands at either end. -/
theorem trim_eq_self {cs : List Char} :
    trim cs = cs ↔ (∀ c, cs.head? = some c → isBlank c = false) ∧
      ∀ c, cs.getLast? = some c → isBlank c = false := by
  rw [← dropWhile_isBlank_eq_self, ← trimEnd_eq_self, trim, trimStart]
  constructor
  · intro h
    -- neither end can give a character, or the whole would be shorter
    have hle := length_trimEnd_le (cs.dropWhile isBlank)
    rw [h] at hle
    have hstart := (List.dropWhile_suffix isBlank).eq_of_length_le hle
    exact ⟨hstart, by rwa [hstart] at h⟩
  · rintro ⟨hstart, hend⟩
    rw [hstart, hend]

theorem trim_trim (cs : List Char) : trim (trim cs) = trim cs := by
  refine trim_eq_self.mpr ⟨fun c hc => ?_, fun c => isBlank_getLast?_trim cs⟩
  have hfront : trim cs <+: trimStart cs := by
    rw [trim, trimEnd, dropEndWhile, ← List.reverse_suffix, List.reverse_reverse]
    exact List.dropWhile_suffix isBlank
  obtain ⟨back, hback⟩ := hfront
  have hhead := List.head?_dropWhile_not isBlank cs
  rw [← trimStart, ← hback, List.head?_append, hc, Option.some_or] at hhead
  exact hhead

end Playground.Text

namespace Playground

/-! ## 2. The last separator -/

namespace Text

variable {sep : Char}

theorem splitLast?_append_cons {back : List Char} (h : sep ∉ back) (front : List Char) :
    splitLast? sep (front ++ sep :: back) = some (front, back) := by
  have hother : ∀ c ∈ back.reverse, decide (c ≠ sep) = true := by
    intro c hc
    rw [decide_eq_true_eq]
    rintro rfl
    exact h (List.mem_reverse.mp hc)
  rw [splitLast?, List.reverse_append, List.reverse_cons, List.append_assoc,
    List.span_eq_takeWhile_dropWhile, List.takeWhile_append_of_pos hother,
    List.dropWhile_append_of_pos hother, List.singleton_append, List.takeWhile_cons_of_neg (by simp),
    List.dropWhile_cons_of_neg (by simp), List.append_nil]
  dsimp only
  rw [List.reverse_reverse, List.reverse_reverse]

theorem exists_last_of_mem {cs : List Char} (h : sep ∈ cs) :
    ∃ front back, cs = front ++ sep :: back ∧ sep ∉ back := by
  obtain ⟨back, front, hcs, hback⟩ := List.eq_append_cons_of_mem (List.mem_reverse.mpr h)
  refine ⟨front.reverse, back.reverse, ?_, fun hmem => hback (List.mem_reverse.mp hmem)⟩
  rw [← List.reverse_reverse cs, hcs, List.reverse_append, List.reverse_cons, List.append_assoc,
    List.singleton_append]

/-- What stands around the last separator is determined by the whole. -/
theorem eq_of_append_cons {front back front' back' : List Char} (h : sep ∉ back)
    (h' : sep ∉ back') (heq : front ++ sep :: back = front' ++ sep :: back') :
    front = front' ∧ back = back' := by
  have hsplit := splitLast?_append_cons h front
  rw [heq, splitLast?_append_cons h' front', Option.some.injEq, Prod.mk.injEq] at hsplit
  exact ⟨hsplit.1.symm, hsplit.2.symm⟩

end Text

open Text

/-! ## 3. Normalising twice -/

namespace FileName

theorem isBlank_slashed (c : Char) : isBlank (slashed c) = isBlank c := by
  unfold slashed
  split
  · rename_i h
    rw [h]
    decide
  · rfl

theorem dropDotSteps_dropDotSteps (cs : List Char) :
    dropDotSteps (dropDotSteps cs) = dropDotSteps cs := by
  fun_induction dropDotSteps cs with
  | case1 rest ih => exact ih
  | case2 cs hcs =>
    rw [dropDotSteps]
    exact hcs

theorem trimEnd_normalChars (cs : List Char) : trimEnd (normalChars cs) = normalChars cs := by
  rw [trimEnd_eq_self]
  intro c hc
  obtain ⟨front, hfront⟩ := dropDotSteps_suffix ((trim cs).map slashed)
  have hlast : ((trim cs).map slashed).getLast? = some c := by
    rw [← hfront, List.getLast?_append, ← normalChars, hc, Option.some_or]
  rw [List.getLast?_map, Option.map_eq_some_iff] at hlast
  obtain ⟨d, hd, rfl⟩ := hlast
  rw [isBlank_slashed, isBlank_getLast?_trim cs hd]

theorem length_normalChars_le (cs : List Char) :
    (normalChars cs).length ≤ (trimStart cs).length := by
  have hsteps := (dropDotSteps_suffix ((trim cs).map slashed)).length_le
  rw [List.length_map] at hsteps
  exact hsteps.trans (length_trimEnd_le _)

/-- A normal form is normal itself unless a blank stood behind the `./` steps. -/
theorem normalize_normalize_iff {name : String} :
    normalize (normalize name) = normalize name ↔
      ∀ c, (normalize name).toList.head? = some c → isBlank c = false := by
  have hchars : (normalize name).toList = normalChars name.toList := String.toList_ofList
  rw [normalize_eq_iff, hchars, ← dropWhile_isBlank_eq_self, ← trimStart]
  constructor
  · intro h
    refine (List.dropWhile_suffix isBlank).eq_of_length_le ?_
    have hle := length_normalChars_le (normalChars name.toList)
    rwa [h] at hle
  · intro h
    have htrim : trim (normalChars name.toList) = normalChars name.toList := by
      rw [trim, h, trimEnd_normalChars]
    have hslashed : (normalChars name.toList).map slashed = normalChars name.toList :=
      (List.map_congr_left fun c hc => slashed_of_mem_normalChars hc).trans (List.map_id' _)
    rw [normalChars, htrim, hslashed, normalChars, dropDotSteps_dropDotSteps]

theorem count_at_dropWhile (cs : List Char) :
    (cs.dropWhile isBlank).count '@' = cs.count '@' := by
  have hfront : (cs.takeWhile isBlank).count '@' = 0 := by
    rw [List.count_eq_zero]
    intro hmem
    have hblank := List.mem_takeWhile_imp hmem
    cases hblank
  conv_rhs => rw [← List.takeWhile_append_dropWhile (p := isBlank) (l := cs)]
  rw [List.count_append, hfront, Nat.zero_add]

/-- Normalising keeps every `@` of a name. -/
theorem count_at_normalChars (cs : List Char) : (normalChars cs).count '@' = cs.count '@' := by
  have hsteps : ∀ l, (dropDotSteps l).count '@' = l.count '@' := by
    intro l
    fun_induction dropDotSteps l with
    | case1 rest ih => rw [ih, List.count_cons_of_ne (by decide), List.count_cons_of_ne (by decide)]
    | case2 l => rfl
  have hslashed : ∀ l : List Char, (l.map slashed).count '@' = l.count '@' := by
    intro l
    induction l with
    | nil => rfl
    | cons c l ih =>
      have hc : slashed c = '@' ↔ c = '@' := by
        unfold slashed
        split
        · rename_i h
          rw [h]
          decide
        · rfl
      rw [List.map_cons, List.count_cons, List.count_cons, ih]
      simp only [beq_iff_eq, hc]
  rw [normalChars, hsteps, hslashed, trim, trimEnd, dropEndWhile, List.count_reverse,
    count_at_dropWhile, List.count_reverse, trimStart, count_at_dropWhile]

end FileName

/-! ## 4. Reading an id back -/

namespace BufferId

/-- Whether reading the written form of the id gives the id. -/
def IsStable (id : BufferId) : Prop :=
  parse id.render = id

instance (id : BufferId) : Decidable id.IsStable :=
  inferInstanceAs (Decidable (_ = _))

theorem toList_render_region (file part : String) :
    (render ⟨file, some part⟩).toList = file.toList ++ '@' :: part.toList := by
  rw [render, String.toList_append, String.toList_append, List.append_assoc]
  rfl

theorem parse_of_toList {s : String} {front back : List Char} (hback : '@' ∉ back)
    (hs : s.toList = front ++ '@' :: back) :
    parse s = region (String.ofList front) (String.ofList (trim back)) := by
  rw [parse, hs, splitLast?_append_cons hback]

theorem region_of_ne {file part : String} (h : part ≠ "") :
    region file part = ⟨FileName.normalize file, some part⟩ := by
  rw [region, if_neg h]

/-- A region's id is read back when its file name is normal and its region name holds no `@` and no
outer blanks. -/
theorem isStable_region_iff {file part : String} (hpart : part ≠ "") :
    IsStable ⟨file, some part⟩ ↔
      FileName.normalize file = file ∧ '@' ∉ part.toList ∧ trim part.toList = part.toList := by
  constructor
  · intro h
    have hsep : '@' ∈ (render ⟨file, some part⟩).toList := by
      rw [toList_render_region]
      exact List.mem_append_right _ List.mem_cons_self
    obtain ⟨front, back, hs, hback⟩ := exists_last_of_mem hsep
    rw [IsStable, parse_of_toList hback hs] at h
    -- the part that is read is not empty, or a whole file would be named
    have hname : String.ofList (trim back) ≠ "" := by
      intro hempty
      rw [region, if_pos hempty] at h
      cases h
    rw [region_of_ne hname, mk.injEq, Option.some.injEq] at h
    obtain ⟨hfile, rfl⟩ := h
    rw [toList_render_region, String.toList_ofList] at hs
    have hat : '@' ∉ trim back := fun hmem => hback (trim_subset back hmem)
    obtain ⟨hfront, htrim⟩ := eq_of_append_cons hat hback hs
    rw [← hfront, String.ofList_toList] at hfile
    rw [String.toList_ofList]
    exact ⟨hfile, hat, by rw [htrim, htrim]⟩
  · rintro ⟨hfile, hat, htrim⟩
    rw [IsStable, parse_of_toList hat (toList_render_region file part), htrim,
      String.ofList_toList, String.ofList_toList, region_of_ne hpart, hfile]

/-- An `@` in the region name goes to the file name that is read. -/
theorem count_at_fileName_parse {file part : String} (h : '@' ∈ part.toList) :
    file.toList.count '@' < (parse (render ⟨file, some part⟩)).fileName.toList.count '@' := by
  obtain ⟨front, back, hpart, hback⟩ := exists_last_of_mem h
  have hs : (render ⟨file, some part⟩).toList = (file.toList ++ '@' :: front) ++ '@' :: back := by
    rw [toList_render_region, hpart, List.append_assoc, List.cons_append]
  have hfile : (parse (render ⟨file, some part⟩)).fileName =
      FileName.normalize (String.ofList (file.toList ++ '@' :: front)) := by
    rw [parse_of_toList hback hs]
    rfl
  rw [hfile, FileName.normalize, String.toList_ofList, String.toList_ofList,
    FileName.count_at_normalChars, List.count_append, List.count_cons_self]
  exact Nat.lt_add_of_pos_right (Nat.succ_pos _)

theorem ne_of_count_at_lt {a b : String} (h : a.toList.count '@' < b.toList.count '@') : b ≠ a := by
  rintro rfl
  exact absurd h (Nat.lt_irrefl _)

end BufferId

/-! ## 5. The names on marker lines -/

namespace Region

variable {f : SourceFile} {regions : List Region}

/-- The id of a region found is made of a name on a marker line, which is a run of non-blanks. -/
theorem exists_name_of_ofFile (h : ofFile f = .ok regions) {r : Region} (hr : r ∈ regions) :
    ∃ part : String, r.bufferId = ⟨FileName.normalize f.name, some part⟩ ∧ part ≠ "" ∧
      trim part.toList = part.toList := by
  obtain ⟨o, -, -, rfl⟩ := ofFile_eq_ok_iff.mp h
  have hid : r.bufferId ∈ (o.regions f.name 0).map (·.bufferId) := List.mem_map_of_mem hr
  rw [Outline.map_bufferId_regions] at hid
  obtain ⟨name, hname, hid⟩ := List.mem_map.mp hid
  have hne : String.ofList name ≠ "" := by
    rw [ne_eq, ← String.toList_inj, String.toList_ofList]
    exact Outline.ne_nil_of_mem_regionNames hname
  -- the name is that of a start marker among the lines
  have hstart := o.regionNames_sublist.subset hname
  rw [← o.startNames_lines, startNames, List.mem_filterMap] at hstart
  obtain ⟨m, hm, hname?⟩ := hstart
  obtain ⟨l, -, hl⟩ := List.mem_filterMap.mp hm
  cases m with
  | stop => cases hname?
  | start name' =>
    obtain rfl := Option.some.inj hname?
    refine ⟨String.ofList name', ?_, hne, ?_⟩
    · rw [← hid, BufferId.region_of_ne hne]
    · rw [String.toList_ofList]
      exact trim_eq_self_of_forall (Marker.isBlank_name hl)

end Region

/-! ## 6. Regions that a request can name -/

namespace Inline

variable {w : Workspace} {active : BufferId}

theorem inline_unknown_file (hfile : active.hasRegion = false) (hne : active.isEmpty = false)
    (hfiles : ∀ f ∈ baseFiles w, f.isNamed active.fileName = false) :
    inline w active = .error (.unknownBuffer active) := by
  have hany : (baseFiles w).any (·.isNamed active.fileName) = false :=
    List.any_eq_false.mpr fun f hf => by rw [hfiles f hf]; exact Bool.false_ne_true
  rw [inline_eq, hfile, hne, hany]
  rfl

theorem inline_unknown_region (hregion : active.hasRegion = true) {regions : List Region}
    (hregions : Region.ofFiles (baseFiles w) = .ok regions)
    (hbuffers : ∀ b ∈ w.buffers, b.id ∈ regions.map (·.bufferId))
    (hactive : active ∉ regions.map (·.bufferId)) :
    inline w active = .error (.unknownBuffer active) := by
  have hunknown : unknownRegion? regions (w.buffers.map (·.id) ++ [active]) = some active := by
    have hnone : unknownRegion? regions (w.buffers.map (·.id)) = none := by
      rw [unknownRegion?_eq_none_iff]
      intro id hid _
      obtain ⟨b, hb, rfl⟩ := List.mem_map.mp hid
      exact List.mem_map.mp (hbuffers b hb)
    have hany : regions.any (·.bufferId == active) = false := by
      rw [List.any_eq_false]
      intro r hr hid
      exact hactive (List.mem_map.mpr ⟨r, hr, beq_iff_eq.mp hid⟩)
    rw [unknownRegion?] at hnone ⊢
    rw [List.find?_append, hnone, Option.none_or, List.find?_singleton, hregion, hany]
    rfl
  rw [inline_of_region hregion, hregions]
  dsimp only
  rw [hunknown]

/-- Inlining one file for a region of its own succeeds, with buffers for other regions of it. -/
theorem inline_own_region {f : SourceFile} {regions : List Region}
    (h : Region.ofFile f = .ok regions) (hfiles : baseFiles w = [f])
    (hbuffers : ∀ b ∈ w.buffers, b.id ∈ regions.map (·.bufferId)) {r : Region} (hr : r ∈ regions)
    (hregion : r.bufferId.hasRegion = true) : ∃ w', inline w r.bufferId = .ok w' := by
  have hregions : Region.ofFiles (baseFiles w) = .ok (regions ++ []) := by
    rw [hfiles]
    exact Region.ofFiles_cons h rfl
  rw [List.append_nil] at hregions
  have hknown : unknownRegion? regions (w.buffers.map (·.id) ++ [r.bufferId]) = none := by
    rw [unknownRegion?_eq_none_iff]
    intro id hid _
    rcases List.mem_append.mp hid with hid | hid
    · obtain ⟨b, hb, rfl⟩ := List.mem_map.mp hid
      exact List.mem_map.mp (hbuffers b hb)
    · exact ⟨r, hr, (List.mem_singleton.mp hid).symm⟩
  have hinline := inline_of_known hregion hregions hknown
  have hapart : Region.DistinctNames (baseFiles w) := by
    rw [hfiles, Region.DistinctNames]
    exact List.nodup_singleton _
  cases hmap : (baseFiles w).mapM (inlineFile w r.bufferId regions) with
  | ok files => exact ⟨w.withFiles files, by rw [hinline, hmap]; rfl⟩
  | error e =>
    -- an edit that does not fit would be the only objection left
    obtain ⟨g, -, hg⟩ := Region.exists_error_of_mapM hmap
    have hmisfit : inline w r.bufferId = .error (.misfit g.name) := by
      rw [hinline, hmap, (inlineFile_eq_error_iff.mp hg).1]
      rfl
    exact absurd hmisfit (inline_ne_misfit_of_regionsApart hapart.regionsApart g.name)

end Inline

namespace Region

open Inline BufferId

variable {f : SourceFile} {regions : List Region} {w : Workspace}

theorem baseFiles_of_regions (h : ofFile f = .ok regions) (hfiles : w.files = [f])
    (hbuffers : ∀ b ∈ w.buffers, b.id ∈ regions.map (·.bufferId)) : baseFiles w = [f] := by
  have hnone : w.buffers.filter (!·.id.hasRegion) = [] := by
    rw [List.filter_eq_nil_iff]
    intro b hb
    obtain ⟨r, hr, hid⟩ := List.mem_map.mp (hbuffers b hb)
    obtain ⟨part, hpart, -⟩ := exists_name_of_ofFile h hr
    rw [← hid, hpart]
    exact Bool.false_ne_true
  rw [baseFiles, hnone, hfiles]
  rfl

/-- Every region of a file has the name of the file. -/
theorem not_mem_of_fileName_ne (h : ofFile f = .ok regions) {id : BufferId}
    (hne : id.fileName ≠ FileName.normalize f.name) : id ∉ regions.map (·.bufferId) := by
  intro hmem
  obtain ⟨r, hr, rfl⟩ := List.mem_map.mp hmem
  exact hne (fileName_of_ofFile h hr)

section Unread

variable (h : ofFile f = .ok regions) (hbase : baseFiles w = [f])
  (hbuffers : ∀ b ∈ w.buffers, b.id ∈ regions.map (·.bufferId))

include h hbase in
theorem ofFiles_baseFiles : ofFiles (baseFiles w) = .ok regions := by
  have hregions : ofFiles [f] = .ok (regions ++ []) := ofFiles_cons h rfl
  rw [hbase, hregions, List.append_nil]

include h hbase hbuffers in
/-- A region whose name holds an `@` is looked for in a file that is not there. -/
theorem inline_of_at_mem {part : String} (hat : '@' ∈ part.toList) :
    inline w (parse (render ⟨FileName.normalize f.name, some part⟩)) =
      .error (.unknownBuffer (parse (render ⟨FileName.normalize f.name, some part⟩))) := by
  have hcount : (FileName.normalize f.name).toList.count '@' <
      (parse (render ⟨FileName.normalize f.name, some part⟩)).fileName.toList.count '@' :=
    count_at_fileName_parse hat
  generalize parse (render ⟨FileName.normalize f.name, some part⟩) = id at hcount
  cases hregion : id.hasRegion with
  | true =>
    exact inline_unknown_region hregion (ofFiles_baseFiles h hbase) hbuffers
      (not_mem_of_fileName_ne h (ne_of_count_at_lt hcount))
  | false =>
    have hne : id.fileName ≠ "" :=
      ne_of_count_at_lt (Nat.lt_of_le_of_lt (Nat.zero_le _) hcount)
    refine inline_unknown_file hregion (by simp [isEmpty, hne]) fun g hg => ?_
    rw [hbase, List.mem_singleton] at hg
    rw [hg, ← Bool.not_eq_true, isNamed_iff]
    refine Ne.symm (ne_of_count_at_lt ?_)
    rwa [FileName.normalize, FileName.normalize, String.toList_ofList, String.toList_ofList,
      FileName.count_at_normalChars, FileName.count_at_normalChars] at *

include h hbase hbuffers in
/-- A region of a file whose normal name is not normal is looked for in a file that is not there. -/
theorem inline_of_normalize_ne {part : String} (hpart : part ≠ "") (hat : '@' ∉ part.toList)
    (htrim : trim part.toList = part.toList)
    (hne : FileName.normalize (FileName.normalize f.name) ≠ FileName.normalize f.name) :
    inline w (parse (render ⟨FileName.normalize f.name, some part⟩)) =
      .error (.unknownBuffer (parse (render ⟨FileName.normalize f.name, some part⟩))) := by
  have hread : parse (render ⟨FileName.normalize f.name, some part⟩) =
      ⟨FileName.normalize (FileName.normalize f.name), some part⟩ := by
    rw [parse_of_toList hat (toList_render_region _ part), htrim, String.ofList_toList,
      String.ofList_toList, region_of_ne hpart]
  rw [hread]
  exact inline_unknown_region rfl (ofFiles_baseFiles h hbase) hbuffers (not_mem_of_fileName_ne h hne)

end Unread

/-- The id of a region found in a file is read back from its written form exactly when the normal
form of the file name begins with no blank and the region name holds no `@`.  Then a request that
names the region by it is inlined; otherwise the id that is read names no buffer of the file. -/
theorem regions_addressed (h : ofFile f = .ok regions) {r : Region} (hr : r ∈ regions) :
    (r.bufferId.IsStable ↔
      (∀ c, (FileName.normalize f.name).toList.head? = some c → isBlank c = false) ∧
        ∀ part, r.bufferId.regionName = some part → '@' ∉ part.toList) ∧
    ∀ w : Workspace, w.files = [f] → (∀ b ∈ w.buffers, b.id ∈ regions.map (·.bufferId)) →
      (r.bufferId.IsStable → ∃ w', inline w (parse r.bufferId.render) = .ok w') ∧
      (¬r.bufferId.IsStable → inline w (parse r.bufferId.render) =
        .error (.unknownBuffer (parse r.bufferId.render))) := by
  obtain ⟨part, hid, hpart, htrim⟩ := exists_name_of_ofFile h hr
  have hstable : r.bufferId.IsStable ↔
      FileName.normalize (FileName.normalize f.name) = FileName.normalize f.name ∧
        '@' ∉ part.toList := by
    rw [hid, isStable_region_iff hpart]
    simp only [htrim, and_true]
  refine ⟨?_, fun w hfiles hbuffers => ?_⟩
  · rw [hstable, FileName.normalize_normalize_iff, hid]
    simp
  have hbase := baseFiles_of_regions h hfiles hbuffers
  constructor
  · intro hread
    rw [show parse r.bufferId.render = r.bufferId from hread]
    exact inline_own_region h hbase hbuffers hr (by rw [hid]; rfl)
  · intro hunread
    rw [hid]
    by_cases hat : '@' ∈ part.toList
    · exact inline_of_at_mem h hbase hbuffers hat
    · exact inline_of_normalize_ne h hbase hbuffers hpart hat htrim
        fun heq => hunread (hstable.mpr ⟨heq, hat⟩)

/-- A workspace of one file. -/
def workspaceOf (f : SourceFile) : Workspace :=
  (Workspace.new Workspace.defaultType).withFiles [f]

theorem regions_addressed_plainName :
    ofFile ⟨"a.cs", "#region r\nx\n#endregion\n"⟩ = .ok [⟨⟨"a.cs", some "r"⟩, ⟨10, 2⟩, "a.cs"⟩] ∧
      IsStable ⟨"a.cs", some "r"⟩ ∧
      ∃ w', inline (workspaceOf ⟨"a.cs", "#region r\nx\n#endregion\n"⟩) (parse "a.cs@r") = .ok w' := by
  have h : ofFile ⟨"a.cs", "#region r\nx\n#endregion\n"⟩ =
      .ok [⟨⟨"a.cs", some "r"⟩, ⟨10, 2⟩, "a.cs"⟩] := by decide +kernel
  obtain ⟨hstable, hinline⟩ := regions_addressed h List.mem_cons_self
  have hread : IsStable ⟨"a.cs", some "r"⟩ := by
    refine hstable.mpr ⟨?_, ?_⟩
    · intro c hc
      obtain rfl := Option.some.inj hc
      decide
    · intro part hpart
      obtain rfl := Option.some.inj hpart
      decide
  have hnone : ∀ b ∈ (workspaceOf ⟨"a.cs", "#region r\nx\n#endregion\n"⟩).buffers,
      b.id ∈ [(⟨"a.cs", some "r"⟩ : BufferId)] := nofun
  exact ⟨h, hread, (hinline _ rfl hnone).1 hread⟩

/-- A region whose name holds an `@`, and one of a file whose name has a blank behind `./`: the ids
that are read name no buffer. -/
theorem unaddressed_regions :
    ofFile ⟨"a.cs", "#region a@b\nx\n#endregion\n"⟩ =
      .ok [⟨⟨"a.cs", some "a@b"⟩, ⟨12, 2⟩, "a.cs"⟩] ∧
    ¬IsStable ⟨"a.cs", some "a@b"⟩ ∧
    parse (render ⟨"a.cs", some "a@b"⟩) = ⟨"a.cs@a", some "b"⟩ ∧
    inline (workspaceOf ⟨"a.cs", "#region a@b\nx\n#endregion\n"⟩) ⟨"a.cs@a", some "b"⟩ =
      .error (.unknownBuffer ⟨"a.cs@a", some "b"⟩) ∧
    ofFile ⟨"./ a.cs", "#region r\nx\n#endregion\n"⟩ =
      .ok [⟨⟨" a.cs", some "r"⟩, ⟨10, 2⟩, "./ a.cs"⟩] ∧
    ¬IsStable ⟨" a.cs", some "r"⟩ ∧
    parse (render ⟨" a.cs", some "r"⟩) = ⟨"a.cs", some "r"⟩ ∧
    inline (workspaceOf ⟨"./ a.cs", "#region r\nx\n#endregion\n"⟩) ⟨"a.cs", some "r"⟩ =
      .error (.unknownBuffer ⟨"a.cs", some "r"⟩) := by
  decide +kernel

end Region

end Playground
