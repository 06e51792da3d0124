/-!
Numbers of 64 bits as texts spell them: blanks, a sign, and digits; `0x`, `0b` and `0` in front can
stand for the bases 16, 2 and 8.
-/

namespace Playground.Shell

/-- The number of values of 64 bits. -/
def wordSize : Nat := UInt64.size

/-- The signed number of 64 bits that another one comes to. -/
def wrap (n : Int) : Int :=
  n.bmod wordSize

/-- The largest signed number of 64 bits. -/
def maxSigned : Int := 0x7FFFFFFFFFFFFFFF

/-- The smallest signed number of 64 bits. -/
def minSigned : Int := -0x8000000000000000

/-- Whether the character is white space. -/
def isSpace (c : Char) : Bool :=
  c == ' ' || (9 ≤ c.toNat && c.toNat ≤ 13)

/-- The value of a digit. -/
def digit? (base : Nat) (c : Char) : Option Nat :=
  let n :=
    if c.isDigit then c.toNat - '0'.toNat
    else if 'a' ≤ c ∧ c ≤ 'z' then c.toNat - 'a'.toNat + 10
    else if 'A' ≤ c ∧ c ≤ 'Z' then c.toNat - 'A'.toNat + 10
    else base
  if n < base then some n else none

/-- The number that digits write. -/
def digitsValue (base : Nat) (cs : List Char) : Nat :=
  cs.foldl (fun n c => n * base + (digit? base c).getD 0) 0

/-- A number at the start of a text, and the text after it. -/
structure Numeral where
  isNegative : Bool
  magnitude : Nat
  rest : List Char
deriving Repr

namespace Numeral

/-- The base that a number without its sign is written in, and its digits. -/
def base : List Char → Nat × List Char
  | '0' :: x :: d :: rest =>
      if (x == 'x' || x == 'X') && (digit? 16 d).isSome then (16, d :: rest)
      else if (x == 'b' || x == 'B') && (digit? 2 d).isSome then (2, d :: rest)
      else (8, '0' :: x :: d :: rest)
  | '0' :: rest => (8, '0' :: rest)
  | cs => (10, cs)

/-- Reads a number. Where the base is not free it is ten. -/
def read? (isFree : Bool) (cs : List Char) : Option Numeral :=
  let cs := cs.dropWhile isSpace
  let (isNegative, cs) := match cs with
    | '-' :: rest => (true, rest)
    | '+' :: rest => (false, rest)
    | cs => (false, cs)
  let (base, cs) := if isFree then Numeral.base cs else (10, cs)
  let isDigit := fun c => (digit? base c).isSome
  match cs.takeWhile isDigit with
  | [] => none
  | digits => some ⟨isNegative, digitsValue base digits, cs.dropWhile isDigit⟩

/-- The value. -/
def value (n : Numeral) : Int :=
  if n.isNegative then -Int.ofNat n.magnitude else Int.ofNat n.magnitude

/-- The value, or the nearest signed number of 64 bits. -/
def signed (n : Numeral) : Int :=
  max minSigned (min maxSigned n.value)

/-- Whether the value is a signed number of 64 bits. -/
def fitsSigned (n : Numeral) : Bool :=
  n.signed = n.value

/-- The value modulo 2^64, or the largest number of 64 bits. -/
def unsigned (n : Numeral) : Int :=
  if n.magnitude < wordSize then n.value % wordSize else Int.ofNat wordSize - 1

/-- Whether the magnitude is a number of 64 bits. -/
def fitsUnsigned (n : Numeral) : Bool :=
  n.magnitude < wordSize

end Numeral

/-- The signed number that a whole text writes, with blanks around it. -/
def decimal? (s : String) : Option Int := do
  let n ← Numeral.read? false s.toList
  if n.fitsSigned && n.rest.all isSpace then some n.value else none

/-- The value of a variable as a number; an empty one counts as zero. -/
def variableNumber? (s : String) : Option Int :=
  match Numeral.read? true s.toList with
  | some n => if n.fitsSigned && n.rest.all isSpace then some n.value else none
  | none => if s.toList.all isSpace then some 0 else none

/-- A count that a text writes. -/
def count? (s : String) : Option Nat := do
  let n ← decimal? s
  if 0 ≤ n ∧ n ≤ 0x7FFFFFFF then some n.toNat else none

end Playground.Shell
