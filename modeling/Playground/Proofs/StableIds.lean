import Playground.Proofs.WrittenIds
/-!
# Which ids are read back

Ids are made from names, read from their written form, or stripped of their region.  However an id
was made, reading its written form gives the id itself exactly when its file name is normal and the
last `@` of the written form, if there is one, is the one that was put there.
-/

namespace Playground.BufferId

open Text

/-! ## 1. How ids are made -/

/-- The ids that can be made. -/
inductive IsMade : BufferId → Prop where
  | file (name : String) : IsMade (.file name)
  | region (name part : String) : IsMade (.region name part)
  | parse (written : String) : IsMade (.parse written)
  | withoutRegion {id : BufferId} (h : IsMade id) : IsMade id.withoutRegion

variable {id id' : BufferId} {name part : String}

theorem regionName_region_ne (name part : String) :
    (region name part).regionName ≠ some "" := by
  unfold region
  by_cases h : part = ""
  · simp [h]
  · simp [h]

/-- A blank region is none. -/
theorem IsMade.regionName_ne (h : IsMade id) : id.regionName ≠ some "" := by
  cases h with
  | file name => exact nofun
  | region name part => exact regionName_region_ne name part
  | parse written =>
    unfold BufferId.parse
    split
    · exact regionName_region_ne _ _
    · exact nofun
  | withoutRegion h => exact nofun

/-! ## 2. Files -/

theorem parse_of_not_mem (h : '@' ∉ name.toList) : parse name = file name := by
  have hother : ∀ c ∈ name.toList.reverse, decide (c ≠ '@') = true := by
    intro c hc
    rw [decide_eq_true_eq]
    rintro rfl
    exact h (List.mem_reverse.mp hc)
  rw [parse, splitLast?, List.span_eq_takeWhile_dropWhile, List.takeWhile_eq_self_iff.mpr hother,
    List.dropWhile_eq_nil_iff.mpr hother]

/-- Of an `@` in a written form, the file name that is read lacks at least the last one. -/
theorem count_at_parse_lt (h : '@' ∈ name.toList) :
    (parse name).fileName.toList.count '@' < name.toList.count '@' := by
  obtain ⟨front, back, hname, hback⟩ := exists_last_of_mem h
  have hfile : (parse name).fileName = FileName.normalize (String.ofList front) := by
    rw [parse_of_toList hback hname]
    rfl
  rw [hfile, FileName.normalize, String.toList_ofList, String.toList_ofList,
    FileName.count_at_normalChars, hname, List.count_append, List.count_cons_self]
  exact Nat.lt_add_of_pos_right (Nat.succ_pos _)

/-- The id of a whole file is read back when its name is normal and holds no `@`. -/
theorem isStable_file_iff :
    IsStable ⟨name, none⟩ ↔ FileName.normalize name = name ∧ '@' ∉ name.toList := by
  have hrender : render ⟨name, none⟩ = name := rfl
  rw [IsStable, hrender]
  by_cases h : '@' ∈ name.toList
  · refine iff_of_false (fun hread => ?_) fun hfile => hfile.2 h
    have hcount := count_at_parse_lt h
    rw [hread] at hcount
    exact absurd hcount (Nat.lt_irrefl _)
  · rw [parse_of_not_mem h, file, mk.injEq]
    exact and_congr_right fun _ => iff_of_true rfl h

/-! ## 3. Stable ids -/

/-- The id has a normal file name, and either no region and no `@` in the file name, or a region
name that holds no `@` and neither begins nor ends with a blank. -/
def IsPlain (id : BufferId) : Prop :=
  FileName.normalize id.fileName = id.fileName ∧
    (id.regionName = none ∧ '@' ∉ id.fileName.toList ∨
      ∃ part, id.regionName = some part ∧ '@' ∉ part.toList ∧
        (∀ c, part.toList.head? = some c → isBlank c = false) ∧
        ∀ c, part.toList.getLast? = some c → isBlank c = false)

theorem isStable_iff_isPlain (h : id.regionName ≠ some "") : IsStable id ↔ IsPlain id := by
  obtain ⟨file, _ | part⟩ := id
  · rw [isStable_file_iff, IsPlain]
    simp
  · have hpart : part ≠ "" := fun hempty => h (congrArg some hempty)
    rw [isStable_region_iff hpart, trim_eq_self, IsPlain]
    simp

/-- An id that can be made is the one that is read from its written form exactly when it is plain,
so no two plain ids are written alike. -/
theorem stable_ids :
    (∀ id, IsMade id → (parse id.render = id ↔ IsPlain id)) ∧
      ∀ id id', IsMade id → IsMade id' → IsPlain id → IsPlain id' → id ≠ id' →
        id.render ≠ id'.render := by
  have hstable : ∀ id, IsMade id → (parse id.render = id ↔ IsPlain id) := fun id hmade =>
    isStable_iff_isPlain hmade.regionName_ne
  refine ⟨hstable, fun id id' hmade hmade' hplain hplain' hne hrender => hne ?_⟩
  calc id = parse id.render := ((hstable id hmade).mpr hplain).symm
    _ = parse id'.render := by rw [hrender]
    _ = id' := (hstable id' hmade').mpr hplain'

/-- A region of a file whose name holds an `@`, and a whole file. -/
theorem stable_ids_atInFileName :
    parse (region ".\\a@b.cs" "r 1").render = region ".\\a@b.cs" "r 1" ∧
      parse (file "a@b.cs").render ≠ file "a@b.cs" ∧
      (region ".\\a@b.cs" "r 1").render ≠ (file "b.cs").render := by
  have hregion : region ".\\a@b.cs" "r 1" = ⟨"a@b.cs", some "r 1"⟩ := by decide +kernel
  have hfile : file "b.cs" = ⟨"b.cs", none⟩ := by decide +kernel
  have hplain : IsPlain (region ".\\a@b.cs" "r 1") := by
    rw [hregion]
    refine ⟨by decide +kernel, .inr ⟨"r 1", rfl, by decide +kernel, ?_, ?_⟩⟩
    · intro c hc
      obtain rfl : 'r' = c := Option.some.inj hc
      decide
    · intro c hc
      obtain rfl : '1' = c := Option.some.inj hc
      decide
  have hplain' : IsPlain (file "b.cs") := by
    rw [hfile]
    exact ⟨by decide +kernel, .inl ⟨rfl, by decide +kernel⟩⟩
  refine ⟨(stable_ids.1 _ (.region _ _)).mpr hplain, fun hread => ?_, ?_⟩
  · rcases ((stable_ids.1 _ (.file "a@b.cs")).mp hread).2 with ⟨-, hat⟩ | ⟨part, hpart, -⟩
    · exact hat (by decide +kernel)
    · cases hpart
  · exact stable_ids.2 _ _ (.region _ _) (.file _) hplain hplain' (by decide +kernel)

end Playground.BufferId
