/-!
Nonnegative doubles as exact numbers, up to and beyond the largest finite one. `nearest` rounds a
fraction; a tie goes to the even mantissa.
-/

namespace Playground

/-- The number `mantissa * 2 ^ exponent`. -/
structure Double where
  mantissa : Nat
  exponent : Int
deriving DecidableEq, Repr

namespace Double

/-- The exponent of the smallest doubles. -/
def minExponent : Int := -1074

/-- How many bits a mantissa has. -/
def mantissaBits : Nat := 53

/-- The quotient rounded to the nearest integer. -/
def roundDiv (num den : Nat) : Nat :=
  let q := num / den
  let twice := 2 * (num % den)
  if twice < den then q else if den < twice then q + 1 else q + q % 2

/-- A fraction scaled down by a power of two, as numerator and denominator. -/
def scaleDown (num den : Nat) (e : Int) : Nat × Nat :=
  (num <<< (-e).toNat, den <<< e.toNat)

/-- The double nearest to a fraction. -/
def nearest (num den : Nat) : Double :=
  if num = 0 then ⟨0, 0⟩
  else
    let e : Int := num.log2 - den.log2 - mantissaBits
    let (n, d) := scaleDown num den e
    let e := if n < d <<< mantissaBits then e else e + 1
    let e := max e minExponent
    let (n, d) := scaleDown num den e
    ⟨roundDiv n d, e⟩

/-- The double as a fraction. -/
def toFraction (x : Double) : Nat × Nat :=
  (x.mantissa <<< x.exponent.toNat, 1 <<< (-x.exponent).toNat)

/-- The rounded product. -/
def times (x y : Double) : Double :=
  let ((a, b), (c, d)) := (x.toFraction, y.toFraction)
  nearest (a * c) (b * d)

/-- The rounded quotient. -/
def dividedBy (x y : Double) : Double :=
  let ((a, b), (c, d)) := (x.toFraction, y.toFraction)
  nearest (a * d) (b * c)

/-- The double nearest to a power of ten. -/
def tenPow (n : Nat) : Double :=
  nearest (Nat.pow 10 n) 1

/-- Whether the number is no larger than the largest double. -/
def isFinite (x : Double) : Bool :=
  x.mantissa = 0 || x.mantissa.log2 + x.exponent < 1024

/-- The exact decimal form. -/
def literal (x : Double) : String :=
  if 0 ≤ x.exponent then toString (x.mantissa <<< x.exponent.toNat) ++ "e0"
  else
    let places := (-x.exponent).toNat
    toString (x.mantissa * Nat.pow 5 places) ++ "e-" ++ toString places

end Double

end Playground
