import Playground.Text.Bytes
/-!
Finding and replacing pieces of text.
-/

namespace Playground.Text

/-- Replaces the occurrences of `piece` from left to right; the one found is not searched again.
`skip` characters of the text are part of an occurrence that is already replaced. -/
def replaceFrom (piece new : List Char) : Nat → List Char → List Char
  | _, [] => []
  | skip + 1, _ :: cs => replaceFrom piece new skip cs
  | 0, c :: cs =>
      if piece.isPrefixOf (c :: cs) then new ++ replaceFrom piece new (piece.length - 1) cs
      else c :: replaceFrom piece new 0 cs

/-- Replaces every occurrence of the nonempty text `piece`. -/
def replaceAll (piece new cs : List Char) : List Char :=
  replaceFrom piece new 0 cs

/-- Byte offsets of the occurrences of `piece` in a text that starts at `offset`, none overlapping
the one before. The empty text occurs between any two characters and at both ends. -/
def occurrencesFrom (piece : List Char) : Nat → Nat → List Char → List Nat
  | _, offset, [] => if piece.isEmpty then [offset] else []
  | skip + 1, offset, c :: cs => occurrencesFrom piece skip (offset + c.utf8Size) cs
  | 0, offset, c :: cs =>
      if piece.isPrefixOf (c :: cs) then
        offset :: occurrencesFrom piece (piece.length - 1) (offset + c.utf8Size) cs
      else occurrencesFrom piece 0 (offset + c.utf8Size) cs

/-- Byte offsets of the occurrences of `piece` in `cs`, from left to right without overlap. -/
def occurrences (piece cs : List Char) : List Nat :=
  occurrencesFrom piece 0 0 cs

end Playground.Text
