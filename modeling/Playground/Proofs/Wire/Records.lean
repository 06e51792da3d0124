import Playground.Proofs.Json.Compact
import Playground.Wire.Result
/-!
# Reading back what is sent

A record is sent as the members of the fields that have a value, in the order of the fields, and its
slots are filled again with these values.  A way to send the values of a type is sound when what is
sent is plain JSON and is read back, up to the ids in it: an id is sent in written form.
-/

namespace Playground

/-! ## 1. Slots -/

namespace Wire

variable {fields : List FieldNames} {entries : List (String × Option Json)}

/-- The members for fields that may be without a value. -/
def members (entries : List (String × Option Json)) : List (String × Json) :=
  entries.filterMap fun e => e.2.map (e.1, ·)

theorem members_cons_none (name : String) (entries : List (String × Option Json)) :
    members ((name, none) :: entries) = members entries := rfl

theorem members_cons_some (name : String) (item : Json) (entries : List (String × Option Json)) :
    members ((name, some item) :: entries) = (name, item) :: members entries := rfl

/-- Whether the names spell the fields one after the other. -/
def Spell (fields : List FieldNames) (names : List String) : Prop :=
  names.map (fieldIndex? fields) = (List.range fields.length).map some

instance (fields : List FieldNames) (names : List String) : Decidable (Spell fields names) :=
  inferInstanceAs (Decidable (_ = _))

theorem Spell.length (h : Spell fields (entries.map (·.1))) : entries.length = fields.length := by
  have hlength := congrArg List.length h
  rwa [List.length_map, List.length_map, List.length_map, List.length_range] at hlength

theorem Spell.fieldIndex? {front back : List (String × Option Json)} {e : String × Option Json}
    (h : Spell fields ((front ++ e :: back).map (·.1))) :
    fieldIndex? fields e.1 = some front.length := by
  have hlength := h.length
  rw [List.length_append, List.length_cons] at hlength
  have hlt : front.length < fields.length := by omega
  have hget := congrArg (·[front.length]?) h
  simpa [List.getElem?_range hlt] using hget

/-- The slots of the fields passed are filled, those of the others are still empty. -/
theorem fillMembers_members (back : List (String × Option Json)) :
    ∀ front, Spell fields ((front ++ back).map (·.1)) →
      fillMembers fields (front.map (·.2) ++ List.replicate back.length none)
          ((members back).map fun m => (some m.1, m.2)) =
        some ((front ++ back).map (·.2)) := by
  -- the fields of `front` have their slots filled; the next one fills the first empty slot
  induction back with
  | nil =>
    intro front _
    rw [List.length_nil, List.replicate_zero, List.append_nil, List.append_nil]
    rfl
  | cons e back ih =>
    intro front h
    have hnext := ih (front ++ [e]) (by rwa [List.append_assoc, List.singleton_append])
    rw [List.append_assoc, List.singleton_append, List.map_append, List.map_singleton,
      List.append_assoc, List.singleton_append] at hnext
    obtain ⟨name, value⟩ := e
    rw [List.length_cons, List.replicate_succ]
    cases value with
    | none =>
      rw [members_cons_none]
      exact hnext
    | some item =>
      have hempty : (front.map (·.2) ++ none :: List.replicate back.length none)[front.length]? =
          some none := by
        rw [List.getElem?_append_right (by rw [List.length_map]), List.length_map, Nat.sub_self]
        rfl
      have hfill : fill (front.map (·.2) ++ none :: List.replicate back.length none) front.length
          item = some (front.map (·.2) ++ some item :: List.replicate back.length none) := by
        rw [fill, hempty]
        dsimp only
        rw [List.set_append_right _ _ (by rw [List.length_map]), List.length_map, Nat.sub_self,
          List.set_cons_zero]
      rw [members_cons_some, List.map_cons, fillMembers, h.fieldIndex?]
      dsimp only
      rw [hfill]
      exact hnext

/-- The slots of what is sent are the values sent. -/
theorem slots?_members (entries : List (String × Option Json))
    (h : Spell fields (entries.map (·.1))) :
    slots? fields (.record (members entries)) = some (entries.map (·.2)) := by
  have hempty : (fields.map fun _ => (none : Option Json)) = List.replicate entries.length none := by
    rw [List.map_const', h.length]
  rw [Json.record, slots?, hempty]
  exact fillMembers_members entries [] h

end Wire

/-! ## 2. Ways to send values -/

/-- The id that is read from the written form of an id. -/
def BufferId.reread (id : BufferId) : BufferId :=
  parse id.render

/-- How the values of a type are sent, the ids in them, and which of them can be sent: integers have
64 bits and a language has a tag. -/
structure WireForm (α : Type) where
  write : α → Json
  read? : Json → Option α
  ids : α → List BufferId
  mapIds : (BufferId → BufferId) → α → α
  Sendable : α → Prop

namespace WireForm

variable {α : Type} {form : WireForm α}

/-- The text that is sent. -/
def encode (form : WireForm α) (a : α) : String :=
  (form.write a).render

/-- The value of a text, if it has one. -/
def decode? (form : WireForm α) (text : String) : Option α :=
  (Json.parse? text.toList).bind form.read?

/-- What is sent is plain JSON, and is read back with the ids in it read from their written forms. -/
structure Sound (form : WireForm α) : Prop where
  plain : ∀ a, (form.write a).IsPlain
  read?_write : ∀ a, form.Sendable a →
    form.read? (form.write a) = some (form.mapIds BufferId.reread a)
  mapIds_self : ∀ f a, (∀ id ∈ form.ids a, f id = id) → form.mapIds f a = a

theorem Sound.decode?_encode (h : form.Sound) {a : α} (ha : form.Sendable a) :
    form.decode? (form.encode a) = some (form.mapIds BufferId.reread a) := by
  rw [decode?, encode, Json.parse?_render (h.plain a), Option.bind_some, h.read?_write a ha]

/-- Texts, numbers and truth values, which hold no ids. -/
def text : WireForm String := ⟨.str, Json.str?, fun _ => [], fun _ s => s, fun _ => True⟩

theorem text_sound : text.Sound := ⟨.str, fun _ _ => rfl, fun _ _ _ => rfl⟩

def number : WireForm Nat := ⟨.ofNat, Json.uint?, fun _ => [], fun _ n => n, (· ≤ Json.maxUInt)⟩

theorem number_sound : number.Sound :=
  ⟨.ofNat, fun _ h => Json.uint?_ofNat h, fun _ _ _ => rfl⟩

def truth : WireForm Bool := ⟨.bool, Json.bool?, fun _ => [], fun _ b => b, fun _ => True⟩

theorem truth_sound : truth.Sound := ⟨.bool, fun _ _ => rfl, fun _ _ _ => rfl⟩

/-- Lists are sent as arrays. -/
def list (form : WireForm α) : WireForm (List α) where
  write := .ofList form.write
  read? := Json.list? form.read?
  ids items := items.flatMap form.ids
  mapIds f items := items.map (form.mapIds f)
  Sendable items := ∀ a ∈ items, form.Sendable a

theorem Sound.list (h : form.Sound) : form.list.Sound where
  plain items := by
    refine .arr _ fun item hitem => ?_
    obtain ⟨a, -, rfl⟩ := List.mem_map.mp hitem
    exact h.plain a
  read?_write items hitems := by
    show (items.map form.write).mapM form.read? = some (items.map (form.mapIds BufferId.reread))
    induction items with
    | nil => rfl
    | cons a items ih =>
      obtain ⟨ha, hitems⟩ := List.forall_mem_cons.mp hitems
      rw [List.map_cons, List.mapM_cons, h.read?_write a ha, ih hitems]
      rfl
  mapIds_self f items hids := by
    refine (List.map_congr_left fun a ha => ?_).trans (List.map_id items)
    exact h.mapIds_self f a fun id hid => hids id (List.mem_flatMap.mpr ⟨a, ha, hid⟩)

/-- A value that need not be there, in its slot. -/
theorem Sound.optional (h : form.Sound) {o : Option α} (ho : ∀ a ∈ o, form.Sendable a)
    (hnull : ∀ a, form.write a ≠ .null) :
    Wire.optional form.read? (o.map form.write) = some (o.map (form.mapIds BufferId.reread)) := by
  cases o with
  | none => rfl
  | some a =>
    rw [Option.map_some, Option.map_some, Wire.optional, h.read?_write a (ho a rfl),
      Option.map_some]
    exact hnull a

/-- Values without ids are read back as they are. -/
theorem Sound.list_self (h : form.Sound) (hids : ∀ a, form.ids a = []) (items : List α)
    (hitems : ∀ a ∈ items, form.Sendable a) :
    form.list.read? (form.list.write items) = some items := by
  rw [h.list.read?_write items hitems, h.list.mapIds_self]
  intro id hid
  obtain ⟨a, -, hid⟩ := List.mem_flatMap.mp hid
  rw [hids a] at hid
  cases hid

theorem optional_text (o : Option String) :
    Wire.optional Json.str? (o.map .str) = some o := by
  cases o <;> rfl

end WireForm

/-! ## 3. Records -/

namespace Wire

variable {α β : Type} {form : WireForm β}

/-- A field of a record: its name, and what is sent of it, if anything. -/
structure RecordField (α : Type) where
  name : String
  value : α → Option Json
  plain : ∀ a, ∀ item ∈ value a, item.IsPlain

/-- A field that is always sent. -/
def RecordField.always (name : String) (get : α → β) (h : form.Sound) : RecordField α where
  name
  value a := some (form.write (get a))
  plain a item hitem := by
    obtain rfl := Option.some.inj hitem
    exact h.plain (get a)

/-- A field that is left out when its value is absent. -/
def RecordField.present (name : String) (get : α → Option β) (h : form.Sound) : RecordField α where
  name
  value a := (get a).map form.write
  plain a item hitem := by
    obtain ⟨b, -, rfl⟩ := Option.map_eq_some_iff.mp hitem
    exact h.plain b

/-- The record with these fields. -/
def record (fields : List (RecordField α)) (a : α) : Json :=
  .record (members (fields.map fun f => (f.name, f.value a)))

variable {fields : List (RecordField α)} {a : α} {item : Json}

theorem isPlain_of_eq_record (h : item = record fields a) : item.IsPlain := by
  rw [h]
  refine .record _ fun m hm => ?_
  obtain ⟨e, he, hm⟩ := List.mem_filterMap.mp hm
  obtain ⟨f, -, rfl⟩ := List.mem_map.mp he
  obtain ⟨item, hitem, rfl⟩ := Option.map_eq_some_iff.mp hm
  exact f.plain a item hitem

/-- The slots of a record are what is sent of its fields. -/
theorem slots?_of_eq_record {names : List FieldNames} (h : item = record fields a)
    (hnames : Spell names (fields.map (·.name))) :
    slots? names item = some (fields.map (·.value a)) := by
  have hslots := slots?_members (fields.map fun f => (f.name, f.value a)) (by rwa [List.map_map])
  rw [List.map_map] at hslots
  rw [h, record, hslots]
  rfl

/-- One step of reading a record. -/
theorem bind_eq_some {x : Option α} {a : α} {read : α → Option β} {b : β} (hx : x = some a)
    (hread : read a = some b) : (x >>= read) = some b := by
  rw [hx]
  exact hread

end Wire

end Playground
