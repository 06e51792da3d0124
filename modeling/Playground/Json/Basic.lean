/-!
JSON values. Numbers keep their spelling, so that integers are never rounded; objects keep the order
of their members and repeated names. A string literal with an unpaired surrogate denotes no text: as
a value it is `garbled`, as a member name it is `none`.
-/

namespace Playground

/-- A JSON value. -/
inductive Json where
  | null
  | bool (b : Bool)
  | num (literal : String)
  | str (s : String)
  | garbled
  | arr (items : List Json)
  | obj (members : List (Option String × Json))
deriving Inhabited, Repr

namespace Json

/-- The largest integer a number field may hold. -/
def maxUInt : Nat := UInt64.size - 1

/-- The number with the decimal form of `n`. -/
def ofNat (n : Nat) : Json :=
  .num (toString n)

/-- An object whose member names are all text. -/
def record (members : List (String × Json)) : Json :=
  .obj (members.map fun m => (some m.1, m.2))

/-- Value of a decimal digit. -/
def digitVal? (c : Char) : Option Nat :=
  if '0' ≤ c ∧ c ≤ '9' then some (c.toNat - '0'.toNat) else none

/-- Value of a nonempty run of decimal digits. -/
def digitsVal? : List Char → Option Nat
  | [] => none
  | cs => cs.foldl (fun acc c => do return (← acc) * 10 + (← digitVal? c)) (some 0)

/-- The value as an integer between 0 and `maxUInt`, written without sign, fraction or exponent. -/
def uint? : Json → Option Nat
  | .num literal => do
      let n ← digitsVal? literal.toList
      if n ≤ maxUInt then some n else none
  | _ => none

/-- The text of a string. -/
def str? : Json → Option String
  | .str s => some s
  | _ => none

/-- The value of a Boolean. -/
def bool? : Json → Option Bool
  | .bool b => some b
  | _ => none

/-- The items of an array, each read by `item`. -/
def list? {α : Type} (item : Json → Option α) : Json → Option (List α)
  | .arr items => items.mapM item
  | _ => none

/-- The last member of an object with the given name. -/
def get? (name : String) : Json → Option Json
  | .obj members => (members.reverse.find? fun m => m.1 == some name).map (·.2)
  | _ => none

end Json

end Playground
