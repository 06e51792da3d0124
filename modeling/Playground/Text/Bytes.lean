/-!
Byte offsets into text. A position in a text counts the bytes of the UTF-8 form before it, so a
text is cut only at offsets that fall between two characters.
-/

namespace Playground.Text

/-- Number of bytes of the UTF-8 form of `cs`. -/
def byteLength (cs : List Char) : Nat :=
  cs.foldl (fun n c => n + c.utf8Size) 0

/-- Cuts `cs` after `n` bytes, with the characters already passed in `passed`, last one first. -/
def cutFrom (passed : List Char) : List Char → Nat → Option (List Char × List Char)
  | cs, 0 => some (passed.reverse, cs)
  | [], _ + 1 => none
  | c :: cs, n + 1 =>
      if c.utf8Size ≤ n + 1 then cutFrom (c :: passed) cs (n + 1 - c.utf8Size) else none

/-- Cuts `cs` after `n` bytes. Fails past the end and inside a character. -/
def cut (cs : List Char) (n : Nat) : Option (List Char × List Char) :=
  cutFrom [] cs n

/-- The characters between two byte offsets, if both fall between characters. -/
def slice (cs : List Char) (start stop : Nat) : Option (List Char) :=
  if start ≤ stop then do
    let (_, rest) ← cut cs start
    let (middle, _) ← cut rest (stop - start)
    return middle
  else
    none

/-- Puts `replacement` in place of the bytes from `start` up to `stop`. -/
def splice (cs : List Char) (start stop : Nat) (replacement : List Char) :
    Option (List Char) :=
  if start ≤ stop then do
    let (before, rest) ← cut cs start
    let (_, after) ← cut rest (stop - start)
    return before ++ replacement ++ after
  else
    none

/-- The part of `cs` after `lead`, when `cs` begins with it. -/
def dropLead : List Char → List Char → Option (List Char)
  | [], cs => some cs
  | _ :: _, [] => none
  | l :: lead, c :: cs => if l = c then dropLead lead cs else none

end Playground.Text
