import Playground.Double
import Playground.Json.Basic
/-!
JSON values as they are held in memory: text without gaps, integers of 64 bits, and doubles for all
other numbers. A double is had from at most 64 bits of digits and one multiplication or division by
a power of ten, so it may miss the nearest double by a little.
-/

namespace Playground.Json

/-- Appends digits to a number as long as it fits 64 bits, and gives the digits left over. -/
def appendDigits (n : Nat) : List Char → Nat × List Char
  | [] => (n, [])
  | d :: ds =>
      let longer := n * 10 + (d.toNat - '0'.toNat)
      if longer ≤ maxUInt then appendDigits longer ds else (n, d :: ds)

/-- The largest power of ten that is a double. -/
def maxPower : Nat := 308

/-- A number moved by a number of decimal places, if that is finite. -/
def scaled? (significand : Nat) (places : Int) : Option Double :=
  let x := Double.nearest significand 1
  if significand = 0 then some x
  else if 0 ≤ places then
    if places ≤ maxPower then
      let y := x.times (.tenPow places.toNat)
      if y.isFinite then some y else none
    else none
  else
    let places := (-places).toNat
    let rounds := (places - 1) / maxPower
    if 4 < rounds then some (.nearest 0 1)
    else
      let x := (List.range rounds).foldl (fun x _ => x.dividedBy (.tenPow maxPower)) x
      some (x.dividedBy (.tenPow (places - rounds * maxPower)))

/-- The double that is held for the unsigned part of a number. -/
def double? (cs : List Char) : Option Double :=
  let isMark := fun c => c == 'e' || c == 'E'
  let whole := cs.takeWhile Char.isDigit
  let fraction := ((cs.dropWhile Char.isDigit).takeWhile (!isMark ·)).drop 1
  let exponent := (cs.dropWhile (!isMark ·)).drop 1
  let (n, more) := appendDigits 0 whole
  let (n, ignored) := appendDigits n fraction
  let start : Int := Int.ofNat more.length - Int.ofNat (fraction.length - ignored.length)
  let power := Int.ofNat ((digitsVal? (exponent.filter Char.isDigit)).getD 0)
  scaled? n (start + if exponent.head? = some '-' then -power else power)

/-- A number as it is held. -/
def heldNumber? (literal : String) : Option Json :=
  let (negative, cs) := match literal.toList with
    | '-' :: cs => (true, cs)
    | cs => (false, cs)
  let fits := (digitsVal? cs).any fun n =>
    if negative then 0 < n ∧ n ≤ 0x8000000000000000 else n ≤ maxUInt
  if fits then some (.num literal)
  else (double? cs).map fun x => .num ((if negative then "-" else "") ++ x.literal)

/-- How deep arrays and objects may lie in each other. -/
def maxDepth : Nat := 127

/-- The value as it is held, if it can be; it nests at most `depth` deep. -/
def heldWithin? : Nat → Json → Option Json
  | _, .garbled => none
  | _, .num literal => heldNumber? literal
  | 0, .arr _ => none
  | 0, .obj _ => none
  | depth + 1, .arr items => (items.mapM (heldWithin? depth)).map .arr
  | depth + 1, .obj members => do
      return .obj (← members.mapM fun m => do
        return (some (← m.1), ← heldWithin? depth m.2))
  | _, other => some other

/-- The value as it is held, if it can be. -/
def held? (j : Json) : Option Json :=
  heldWithin? maxDepth j

end Playground.Json
