import Playground.Shell.Number
/-!
The mask that takes rights away from new files: three octal digits, for the owner, the group and
all others, each of them with a bit for reading, writing and carrying out. A mode is the rights that
a mask leaves; scripts write changes of it with letters.
-/

namespace Playground.Shell.Mask

/-- All rights of everybody. -/
def full : Nat := 0o777

/-- The mode that a mask leaves, or the mask for a mode. -/
def inverse (n : Nat) : Nat :=
  full - n

/-- The rights of one kind of users as letters. -/
def rightsText (digit : Nat) : String :=
  (if digit / 4 % 2 = 1 then "r" else "") ++ (if digit / 2 % 2 = 1 then "w" else "") ++
    (if digit % 2 = 1 then "x" else "")

/-- A mask as digits. -/
def digitsText (mask : Nat) : String :=
  let ds := Nat.toDigits 8 mask
  String.ofList (List.replicate (4 - ds.length) '0' ++ ds)

/-- A mask as the rights that it leaves. -/
def lettersText (mask : Nat) : String :=
  let mode := inverse mask
  "u=" ++ rightsText (mode / 64) ++ ",g=" ++ rightsText (mode / 8 % 8) ++ ",o=" ++
    rightsText (mode % 8)

/-- The mask that digits write. -/
def ofDigits? (cs : List Char) : Option Nat :=
  if cs.all fun c => (digit? 8 c).isSome then some (digitsValue 8 cs % (full + 1)) else none

/-- The kinds of users that a letter stands for: one for each in its digit. -/
def users? (c : Char) : Option Nat :=
  match c with
  | 'u' => some 0o100
  | 'g' => some 0o010
  | 'o' => some 0o001
  | 'a' => some 0o111
  | _ => none

/-- The rights that a letter stands for, where the mode is `mode`. -/
def rights? (mode : Nat) (c : Char) : Option Nat :=
  match c with
  | 'r' => some 4
  | 'w' => some 2
  | 'x' => some 1
  | 'X' => some (if mode &&& 0o111 = 0 then 0 else 1)
  | 's' => some 0
  | 'u' => some (mode / 64)
  | 'g' => some (mode / 8 % 8)
  | 'o' => some (mode % 8)
  | _ => none

/-- Whether the character says how rights change. -/
def isSign (c : Char) : Bool :=
  c == '+' || c == '-' || c == '='

/-- The mode after a change: the users in `who` get the rights, lose them, or have no others. -/
def change (sign : Char) (who rights mode : Nat) : Nat :=
  let given := who * rights
  if sign = '+' then mode ||| given
  else
    let others := inverse (if sign = '=' then who * 7 else given)
    (mode &&& others) ||| (if sign = '=' then given else 0)

/-- Carries out changes from their letters: `start` is the mode at first, `who` and `sign` what the
letters so far say, and `rights` those that the last sign is about. -/
def changes (start : Nat) : Nat → Option Char → Nat → Nat → List Char → Option Nat
  | who, some sign, rights, mode, [] =>
      some (change sign (if who = 0 then 0o111 else who) rights mode)
  | _, none, _, _, [] => none
  | who, none, rights, mode, c :: cs =>
      if isSign c then changes start who (some c) 0 mode cs
      else do changes start (who ||| (← users? c)) none rights mode cs
  | who, some sign, rights, mode, c :: cs =>
      let mode' := change sign (if who = 0 then 0o111 else who) rights mode
      if isSign c then changes start who (some c) 0 mode' cs
      else if c = ',' then
        if cs.isEmpty then some mode' else changes start 0 none 0 mode' cs
      else do changes start who (some sign) (rights ||| (← rights? start c)) mode cs

/-- The mask after the changes that letters write. -/
def changed? (cs : List Char) (mask : Nat) : Option Nat :=
  if cs.isEmpty then some mask
  else (changes (inverse mask) 0 none 0 (inverse mask) cs).map inverse

end Playground.Shell.Mask
