import Playground.Double
import Playground.Toml.Scalar
/-!
Which numbers of a document can be had: integers of 64 bits, with or without a sign, and floats that
do not lie beyond the largest double.
-/

namespace Playground.Toml

/-- The number that a run of digits with underscores spells. -/
def digitsVal (cs : List Char) : Nat :=
  (cs.filter isDecimal).foldl (fun n d => n * 10 + (d.toNat - '0'.toNat)) 0

/-- Whether the double nearest to `n`, moved by a number of decimal places, is finite. -/
def isFiniteScaled (n : Nat) (places : Int) : Bool :=
  let width : Int := (Nat.toDigits 10 n).length
  if n = 0 ∨ width + places ≤ 308 then true
  else if 310 ≤ width + places then false
  else (Double.nearest (n * Nat.pow 10 places.toNat) (Nat.pow 10 (-places).toNat)).isFinite

/-- Whether a float is finite, or spelled as infinite. -/
def isFinite (literal : String) : Bool :=
  let cs := (signed literal.toList).2
  let isMark := fun c => c == 'e' || c == 'E'
  if cs == ['i', 'n', 'f'] then true
  else
    let digits := cs.takeWhile (!isMark ·)
    let places := ((digits.dropWhile (· != '.')).filter isDecimal).length
    let (sign, exponent) := signed ((cs.dropWhile (!isMark ·)).drop 1)
    isFiniteScaled (digitsVal digits) (sign * digitsVal exponent - places)

/-- Whether an integer fits 64 bits, with or without a sign. -/
def fits (n : Int) : Bool :=
  -0x8000000000000000 ≤ n ∧ n ≤ 0xFFFFFFFFFFFFFFFF

/-- Whether every number in a value can be had. -/
def isReadable : Toml → Bool
  | .int n => fits n
  | .misspelt _ => false
  | .float literal => isFinite literal
  | .arr _ items => items.attach.all fun ⟨item, _⟩ => isReadable item
  | .table _ entries => entries.attach.all fun ⟨(_, v), _⟩ => isReadable v
  | .str _ | .bool _ | .time _ => true
decreasing_by
  · have := List.sizeOf_lt_of_mem ‹_ ∈ items›
    simp only [arr.sizeOf_spec] at *
    omega
  · have := List.sizeOf_lt_of_mem ‹_ ∈ entries›
    simp only [table.sizeOf_spec, Prod.mk.sizeOf_spec] at *
    omega

end Playground.Toml
