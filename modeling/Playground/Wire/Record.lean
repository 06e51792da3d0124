import Playground.Json.Basic
/-!
Records on the wire. A record is an object, whose unknown members are ignored and whose known
members must not repeat, or an array of its fields in order, from which trailing fields may be left
out. Reading one gives a slot per field: the value sent, if any.
-/

namespace Playground.Wire

/-- Spellings of one field's name. -/
abbrev FieldNames := List String

/-- Position of the field that is spelled `name`. -/
def fieldIndex? (fields : List FieldNames) (name : String) : Option Nat :=
  fields.findIdx? (·.contains name)

/-- Fills one slot, which must be empty. -/
def fill (slots : List (Option Json)) (i : Nat) (item : Json) : Option (List (Option Json)) :=
  match slots[i]? with
  | some none => some (slots.set i (some item))
  | _ => none

/-- Fills the slots from the members of an object. A member whose name is not text makes the whole
object unreadable. -/
def fillMembers (fields : List FieldNames) :
    List (Option Json) → List (Option String × Json) → Option (List (Option Json))
  | slots, [] => some slots
  | _, (none, _) :: _ => none
  | slots, (some name, item) :: rest =>
      match fieldIndex? fields name with
      | none => fillMembers fields slots rest
      | some i =>
          match fill slots i item with
          | some slots => fillMembers fields slots rest
          | none => none

/-- The slots of a record with the given fields. -/
def slots? (fields : List FieldNames) : Json → Option (List (Option Json))
  | .obj members => fillMembers fields (fields.map fun _ => none) members
  | .arr items =>
      if items.length ≤ fields.length then
        some (items.map some ++ List.replicate (fields.length - items.length) none)
      else none
  | _ => none

/-- A field that must be sent. -/
def required {α : Type} (read : Json → Option α) : Option Json → Option α
  | some item => read item
  | none => none

/-- A field with a value for when it is not sent. -/
def defaulted {α : Type} (read : Json → Option α) (value : α) : Option Json → Option α
  | some item => read item
  | none => some value

/-- A field that may be absent, or sent as `null`. -/
def optional {α : Type} (read : Json → Option α) : Option Json → Option (Option α)
  | none => some none
  | some .null => some none
  | some item => (read item).map some

/-- The members of a field that is left out when absent. -/
def optionalMember {α : Type} (name : String) (write : α → Json) :
    Option α → List (String × Json)
  | some a => [(name, write a)]
  | none => []

end Playground.Wire
