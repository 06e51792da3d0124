import Playground.Clock
import Playground.Text.Blank
/-!
The text of a duration. The unit is the largest of seconds, milliseconds, microseconds and
nanoseconds that the duration reaches; the fraction has no trailing zeros.
-/

namespace Playground.Clock

/-- Decimal digits of `n`, with leading zeros up to `width` digits. -/
def paddedDigits (width n : Nat) : List Char :=
  let digits := Nat.toDigits 10 n
  List.replicate (width - digits.length) '0' ++ digits

/-- The quotient `n / 10 ^ places` as a decimal fraction without trailing zeros. -/
def decimal (n places : Nat) : String :=
  let scale := Nat.pow 10 places
  let fraction := Text.dropEndWhile (· == '0') (paddedDigits places (n % scale))
  if fraction.isEmpty then toString (n / scale)
  else toString (n / scale) ++ "." ++ String.ofList fraction

/-- The text of a duration. -/
def durationText (d : Duration) : String :=
  if d ≥ second then decimal d 9 ++ "s"
  else if d ≥ milli then decimal d 6 ++ "ms"
  else if d ≥ 1000 then decimal d 3 ++ "µs"
  else decimal d 0 ++ "ns"

end Playground.Clock
