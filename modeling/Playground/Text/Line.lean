import Playground.Text.Blank
import Playground.Text.Bytes
/-!
Lines of a text. A line ends after its line feed; a carriage return before the line feed belongs to
the line end. `lineBounds` locates the line around a byte offset and `lineColumn` numbers lines and
columns from one, a column counting characters.
-/

namespace Playground.Text

/-- Splits after every line feed; the line feed stays with its line. -/
def lines (cs : List Char) : List (List Char) :=
  cs.foldr
    (fun c rest =>
      if c = '\n' then [c] :: rest
      else match rest with
        | [] => [[c]]
        | line :: later => (c :: line) :: later)
    []

/-- Removes one line end: a line feed, and a carriage return right before it. -/
def dropLineEnd (line : List Char) : List Char :=
  match line.reverse with
  | '\n' :: '\r' :: rest => rest.reverse
  | '\n' :: rest => rest.reverse
  | _ => line

/-- The lines of `cs` without their line ends. -/
def bareLines (cs : List Char) : List (List Char) :=
  (lines cs).map dropLineEnd

/-- The lines of a string without their line ends. -/
def linesOf (s : String) : List String :=
  (bareLines s.toList).map String.ofList

/-- Start and end offset of the line around `offset`, the line end left out. -/
def lineBounds (cs : List Char) (offset : Nat) : Option (Nat × Nat) := do
  let (before, after) ← cut cs offset
  let lead := before.reverse.takeWhile (· ≠ '\n')
  let tail := after.takeWhile (· ≠ '\n')
  let start := offset - byteLength lead
  let stop := offset + byteLength tail
  let last := (tail.reverse ++ lead).head?
  return (start, if last = some '\r' then stop - 1 else stop)

/-- Text of the line around `offset`, the line end left out. -/
def lineAt (cs : List Char) (offset : Nat) : Option (List Char) := do
  let (start, stop) ← lineBounds cs offset
  slice cs start stop

/-- Line and column of `offset`, both counted from one, a column being a character. -/
def lineColumn (cs : List Char) (offset : Nat) : Option (Nat × Nat) := do
  let (before, _) ← cut cs offset
  return (before.count '\n' + 1, (before.reverse.takeWhile (· ≠ '\n')).length + 1)

end Playground.Text
