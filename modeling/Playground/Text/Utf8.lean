/-!
UTF-8. Reading never fails: bytes that are no part of a character are reported where they stand, one
report for each longest run that could have begun a character.
-/

namespace Playground.Text.Utf8

/-- The UTF-8 form of a text. -/
def encode (s : String) : List UInt8 :=
  s.toUTF8.toList

/-- How many bytes follow the first byte of a character. -/
def followers? (a : UInt8) : Option Nat :=
  if a < 0x80 then some 0
  else if a < 0xC2 then none
  else if a < 0xE0 then some 1
  else if a < 0xF0 then some 2
  else if a < 0xF5 then some 3
  else none

/-- Whether the byte continues a character. -/
def isContinuation (b : UInt8) : Bool :=
  0x80 ≤ b && b < 0xC0

/-- Whether `b` may follow the first byte `a`: no character has a longer form than it needs, none is
a surrogate, and none is beyond the last one. -/
def isSecond (a b : UInt8) : Bool :=
  isContinuation b &&
    if a = 0xE0 then 0xA0 ≤ b
    else if a = 0xED then b < 0xA0
    else if a = 0xF0 then 0x90 ≤ b
    else if a = 0xF4 then b < 0x90
    else true

/-- The bytes after the first byte `a` that can belong to the same character, at most `n`. -/
def tail (a : UInt8) (n : Nat) (rest : List UInt8) : List UInt8 :=
  match rest.take n with
  | b :: more => if isSecond a b then b :: more.takeWhile isContinuation else []
  | [] => []

/-- The number of a character, from what its first byte tells and the bytes after it. -/
def number (lead : Nat) (bytes : List UInt8) : Nat :=
  bytes.foldl (fun n b => n * 0x40 + b.toNat % 0x40) lead

/-- What the first byte of a character with `n` followers tells of its number. -/
def lead (n : Nat) (a : UInt8) : Nat :=
  if n = 0 then a.toNat else a.toNat % (1 <<< (6 - n))

/-- The character that starts with the byte `a`, if there is one, and how many bytes after `a` have
been read to tell. -/
def first (a : UInt8) (rest : List UInt8) : Option Char × Nat :=
  match followers? a with
  | none => (none, 0)
  | some n =>
      let more := tail a n rest
      (if more.length = n then some (Char.ofNat (number (lead n a) more)) else none, more.length)

/-- Reads bytes as characters after leaving out the first `skip`. -/
def readAfter : Nat → List UInt8 → List (Option Char)
  | _, [] => []
  | skip + 1, _ :: rest => readAfter skip rest
  | 0, a :: rest => (first a rest).1 :: readAfter (first a rest).2 rest

/-- Reads bytes as characters; `none` stands for bytes that are no part of a character. -/
def read (bytes : List UInt8) : List (Option Char) :=
  readAfter 0 bytes

/-- The text of the bytes, if they are the UTF-8 form of one. -/
def decode? (bytes : List UInt8) : Option (List Char) :=
  (read bytes).mapM id

/-- The text of the bytes, with U+FFFD for those that are no part of a character. -/
def decodeLossy (bytes : List UInt8) : List Char :=
  (read bytes).map (·.getD '\ufffd')

end Playground.Text.Utf8
