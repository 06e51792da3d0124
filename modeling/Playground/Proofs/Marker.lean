import Playground.Package.Artifact
import Playground.Proofs.Files.Change
import Playground.Proofs.Json.Prefix
import Playground.Proofs.Text.Utf8
/-!
# Marker files

A marker is read back as it was written.  If the end of it has been lost, it is no marker.
-/

namespace Playground.Marker

variable {m : Marker} {t t' : FileTree} {directory : Path}

/-! ## 1. The text of a marker -/

theorem jsonChars_encode (s : String) : jsonChars (Text.Utf8.encode s) = s.toList := by
  rw [jsonChars, Text.Utf8.read_encode, List.flatMap_map]
  exact List.flatMap_singleton' s.toList

/-- The value that the text of a marker stands for. -/
def toJson (m : Marker) : Json :=
  .record [("entry_point", .str m.entryPoint), ("built_at_ms", .ofNat m.builtAtMs)]

theorem parse?_toList_render (m : Marker) : Json.parse? m.render.toList = some m.toJson := by
  refine Json.parse?_renderIndented (List.cons_ne_nil _ _) fun x hx => ?_
  rcases List.mem_pair.mp hx with rfl | rfl
  · exact Json.reads_str m.entryPoint
  · exact Json.reads_ofNat m.builtAtMs

theorem ofJson?_toJson (h : m.builtAtMs ≤ Json.maxUInt) : ofJson? m.toJson = some m := by
  have hslots : Wire.slots? [["entry_point"], ["built_at_ms"]] m.toJson =
      some [some (.str m.entryPoint), some (.ofNat m.builtAtMs)] := rfl
  have htime : Wire.required Json.uint? (some (.ofNat m.builtAtMs)) = some m.builtAtMs :=
    Json.uint?_ofNat h
  rw [ofJson?, hslots]
  dsimp only [Option.bind_eq_bind, Option.bind_some]
  rw [htime]
  rfl

/-- A marker is read back as it was written. -/
theorem parse?_encode (h : m.builtAtMs ≤ Json.maxUInt) :
    parse? (Text.Utf8.encode m.render) = some m := by
  rw [parse?, jsonChars_encode, parse?_toList_render, Option.bind_some, ofJson?_toJson h]

theorem builtAtMs_le {a : Artifact} (h : ofArtifact? directory a = some m) :
    m.builtAtMs ≤ Json.maxUInt := by
  obtain ⟨entry, -, rfl⟩ := Option.map_eq_some_iff.mp h
  exact Nat.min_le_right _ _

theorem render_eq_cons (m : Marker) : ∃ cs, m.render.toList = '\x7b' :: (cs ++ ['\x7d']) := by
  refine ⟨'\n' :: ((",\n".intercalate ([("entry_point", .str m.entryPoint),
    ("built_at_ms", Json.ofNat m.builtAtMs)].map fun m => "  " ++ Json.quote m.1 ++ ": " ++
      Json.render m.2)).toList ++ ['\n']), ?_⟩
  rw [render, Json.renderIndented, String.toList_append, String.toList_append]
  simp

/-- A marker of which the end has been lost is no marker, wherever it has been cut off. -/
theorem parse?_take (m : Marker) {k : Nat} (hk : k < (Text.Utf8.encode m.render).length) :
    parse? ((Text.Utf8.encode m.render).take k) = none := by
  have hbytes := Text.Utf8.encode_eq m.render
  rw [hbytes] at hk ⊢
  obtain ⟨j, hj, torn, htorn, hread⟩ := Text.Utf8.read_take_flatMap m.render.toList hk
  -- a character that the cut goes through leaves a mark that is no brace
  have htail : ∃ tail, jsonChars ((m.render.toList.flatMap String.utf8EncodeChar).take k) =
      m.render.toList.take j ++ tail ∧ (tail = [] ∨ tail = "?\\ud800?".toList) := by
    rw [jsonChars, hread, List.flatMap_append, List.flatMap_map]
    rcases htorn with rfl | rfl
    · exact ⟨[], congrArg (· ++ []) (List.flatMap_singleton' _), .inl rfl⟩
    · exact ⟨_, congrArg (· ++ _) (List.flatMap_singleton' _), .inr rfl⟩
  obtain ⟨tail, hchars, htail⟩ := htail
  rw [parse?, hchars]
  obtain ⟨cs, hcs⟩ := render_eq_cons m
  cases j with
  | zero =>
    rw [List.take_zero, List.nil_append]
    rcases htail with rfl | rfl <;> rfl
  | succ j =>
    have hwhole := parse?_toList_render m
    rw [← List.take_append_drop (j + 1) m.render.toList, hcs, List.take_succ_cons,
      List.drop_succ_cons] at hwhole
    rw [hcs, List.length_cons, List.length_append, List.length_singleton] at hj
    rw [hcs, List.take_succ_cons, Json.parse?_cut hwhole]
    · rfl
    · -- the closing brace is among what has been lost
      rw [Ne, Json.skipSpace_eq_nil_iff, List.drop_append_of_le_length (by omega)]
      intro hspace
      cases hspace '\x7d' (by simp)
    · rcases htail with rfl | rfl
      · exact .inl rfl
      · exact .inr ⟨'?', rfl, by decide, rfl⟩

/-! ## 2. Marker files -/

theorem read?_eq_some_iff :
    read? t directory = some m ↔
      ∃ bytes, t.read (directory.join fileName) = .ok bytes ∧ parse? bytes = some m := by
  unfold read?
  cases t.read (directory.join fileName) with
  | ok bytes => simp
  | error e => simp

theorem ne_nil_of_parse? {bytes : List UInt8} (h : parse? bytes = some m) : bytes ≠ [] := by
  rintro rfl
  cases h

/-- Opening a file brings no marker, and takes none away. -/
theorem read?_openFile {path : Path} {result : Except FileError Nat}
    (h : (FileAction.openFile path).run t = (result, t')) (directory : Path) :
    read? t' directory = read? t directory := by
  refine Option.ext fun m => ?_
  rw [read?_eq_some_iff, read?_eq_some_iff]
  refine exists_congr fun bytes => and_congr_left fun hparse => ?_
  exact FileAction.read_openFile h _ (ne_nil_of_parse? hparse)

/-- Where the marker has been cleared there is none to read, whatever was there. -/
theorem read?_clear (directory : Path) (t : FileTree) :
    read? ((clear directory).run t).2 directory = none := by
  refine Option.eq_none_iff_forall_ne_some.mpr fun m hm => ?_
  obtain ⟨bytes, hread, -⟩ := read?_eq_some_iff.mp hm
  exact FileAction.read_of_removeFile rfl hread

/-- A marker that has been written is read back, and one that could not be written changes nothing. -/
theorem read?_write (h : m.builtAtMs ≤ Json.maxUInt) (directory : Path) (t : FileTree) :
    read? ((m.write directory).run t).2 directory = some m ∨ ((m.write directory).run t).2 = t := by
  cases hrun : (m.write directory).run t with
  | mk result t' =>
    cases result with
    | ok =>
      exact .inl (read?_eq_some_iff.mpr ⟨_, FileAction.read_of_write hrun, parse?_encode h⟩)
    | error e => exact .inr (FileAction.write_error hrun)

end Playground.Marker
