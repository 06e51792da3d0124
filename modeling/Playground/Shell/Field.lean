import Playground.Shell.Pattern
/-!
Fields. What a word expands to is a row of pieces, some of which are parted into fields at the
separators. White space among the separators is passed over where other ones count each time.
-/

namespace Playground.Shell

/-- A mark of an expanded word: a character, or a quote, which stands for no text but makes a field
of what is empty. -/
inductive Ink where
  | glyph (g : Glyph)
  | quote
deriving DecidableEq, Repr, Inhabited

/-- Where a piece is parted. -/
inductive Parting where
  | nowhere
  /-- At the separators. -/
  | separators
  /-- Between the arguments of the shell, which a NUL tells apart. -/
  | arguments
deriving DecidableEq, Repr

/-- A piece of an expanded word. -/
structure Piece where
  ink : List Ink
  parting : Parting
deriving Repr

namespace Ink

/-- Plain characters. -/
def plain (cs : List Char) : List Ink :=
  cs.map fun c => .glyph ⟨c, false⟩

/-- Characters that stand for themselves. -/
def fixed (cs : List Char) : List Ink :=
  cs.map fun c => .glyph ⟨c, true⟩

/-- The characters. -/
def chars (ink : List Ink) : List Char :=
  ink.filterMap fun i =>
    match i with
    | .glyph g => some g.char
    | .quote => none

/-- The pattern that is written so. -/
def pattern (ink : List Ink) : Pattern :=
  ink.filterMap fun i =>
    match i with
    | .glyph g => some g
    | .quote => none

end Ink

/-- The ink of several pieces. -/
def Piece.joined (pieces : List Piece) : List Ink :=
  pieces.flatMap (·.ink)

/-- The text of several pieces. -/
def Piece.text (pieces : List Piece) : String :=
  String.ofList (Ink.chars (joined pieces))

/-- Fields that are being made. -/
structure Parted where
  /-- Complete fields, the last one first. -/
  complete : List (List Ink)
  /-- The field that has begun, its last mark first. -/
  current : List Ink
  /-- Whether white space has just ended a field. -/
  afterSpace : Bool
  /-- Whether arguments were parted in the last piece that was parted. -/
  afterArguments : Bool
  /-- How many more fields may end; without a limit there is none. -/
  limit : Option Nat
  /-- How much of the last field stays, where what comes after it may have to go. -/
  kept : Option Nat

namespace Parted

/-- The separators that are white space. -/
def isBlank : Ink → Bool
  | .glyph g => g.char == ' ' || g.char == '\t' || g.char == '\n' || g.char == '\x00'
  | .quote => false

/-- Takes a mark that parts nothing. -/
def extend (p : Parted) (i : Ink) : Parted :=
  { p with current := i :: p.current }

/-- Takes a mark when no further field may begin. White space at the very end is cut off, and with
it a single other separator. -/
def addLast (p : Parted) (i : Ink) (isSeparator isBlank : Bool) : Parted :=
  let q := p.extend i
  if isBlank then { q with kept := some (p.kept.getD p.current.length) }
  else
    { q with kept := if isSeparator && p.afterSpace then p.kept else none, afterSpace := false }

/-- Takes a separator that may end a field. -/
def separate (p : Parted) (i : Ink) (isBlank inArguments : Bool) : Parted :=
  let p := if p.afterArguments || inArguments then p else { p with afterSpace := isBlank }
  if p.current.isEmpty && p.afterSpace then { p with afterSpace := false }
  else if p.limit = some 1 then
    { (p.extend i) with kept := some p.current.length, limit := some 0 }
  else
    { p with
      complete := p.current.reverse :: p.complete
      current := []
      limit := p.limit.map (· - 1) }

/-- Whether a mark separates fields. -/
def isSeparator (separators : List Char) (inArguments : Bool) : Ink → Bool
  | .glyph g => g.char == '\x00' || (!inArguments && separators.contains g.char)
  | .quote => false

/-- Takes a mark of a piece that is parted, which may separate fields and may be blank. -/
def addPlain (inArguments : Bool) (p : Parted) (i : Ink) (isSeparator isBlank : Bool) : Parted :=
  if p.limit = some 0 then p.addLast i isSeparator isBlank
  else if p.afterSpace then
    if isBlank then { p with current := [] }
    else if isSeparator then { p with current := [], afterSpace := false }
    else { p with current := [i], afterSpace := false }
  else if isSeparator then p.separate i isBlank inArguments
  else p.extend i

/-- Takes a mark of a piece that is parted. -/
def add (separators : List Char) (inArguments : Bool) (p : Parted) (i : Ink) : Parted :=
  let parts := isSeparator separators inArguments i
  p.addPlain inArguments i parts (parts && isBlank i)

/-- Takes a piece. -/
def addPiece (separators : List Char) (p : Parted) (piece : Piece) : Parted :=
  match piece.parting with
  | .nowhere => piece.ink.foldl extend p
  | parting =>
      let inArguments := parting == .arguments
      let q := piece.ink.foldl (add separators inArguments) { p with afterSpace := false }
      { q with afterArguments := inArguments }

end Parted

/-- The fields that pieces come to, at most `limit` of them. -/
def fieldsOf (separators : List Char) (limit : Option Nat) (pieces : List Piece) :
    List (List Ink) :=
  let isParted := pieces.any (·.parting != .nowhere)
  let p := pieces.foldl (Parted.addPiece separators) ⟨[], [], false, false, limit, none⟩
  let last := p.current.reverse
  let last := match p.kept with
    | some n => last.take n
    | none => last
  let p' := p.complete
  if (isParted && p.afterArguments) || !last.isEmpty then (last :: p').reverse else p'.reverse

end Playground.Shell
