import Playground.Shell.Expansion
/-!
Commands of the shell that take things apart: a line of input, and arguments with options.
-/

namespace Playground.Shell.Builtins

/-- A line of input that is being read: pieces that are complete, the last one first, and the
characters of the one that has begun. -/
structure LineRead where
  pieces : List Piece
  current : List Char
  isEscaped : Bool

/-- The pieces that have been read, and the one that has begun. -/
def LineRead.close (l : LineRead) : List Piece :=
  ⟨Ink.plain l.current.reverse, .separators⟩ :: l.pieces

/-- Reads a line; a backslash protects the next character, and joins lines, unless `isRaw`. Gives
the pieces, how many bytes have been used, and whether the line has ended. -/
def readLine (isRaw : Bool) : List UInt8 → LineRead → Nat → List Piece × Nat × Bool
  | [], l, used => (l.close.reverse, used, false)
  | b :: rest, l, used =>
      let c := Char.ofNat b.toNat
      if b = 0 then readLine isRaw rest l (used + 1)
      else if l.isEscaped then
        let fixed : List Piece := if c == '\n' then [] else [⟨Ink.fixed [c], .nowhere⟩]
        readLine isRaw rest ⟨fixed ++ l.close, [], false⟩ (used + 1)
      else if !isRaw && c == '\\' then readLine isRaw rest { l with isEscaped := true } (used + 1)
      else if c == '\n' then (l.close.reverse, used + 1, true)
      else readLine isRaw rest { l with current := c :: l.current } (used + 1)

/-- Gives the variables the fields in turn; those without a field become empty. -/
def assignFields : List String → List String → Act Unit
  | [], _ => return ()
  | name :: names, fields => do
      assign name (fields.headD "")
      assignFields names fields.tail

/-- Reads a line of input into variables. -/
def read (arguments : List String) : Act Nat := do
  let (options, names) ← Options.ofCommand "p:r" arguments
  if names.isEmpty then fail "arg count"
  let p ← get
  let bytes := ((p.fileOf? 0).bind p.world.unread).getD []
  let isRaw := options.any (·.1 == 'r')
  let (pieces, used, isWhole) := readLine isRaw bytes ⟨[], [], false⟩ 0
  match p.fileOf? 0 with
  | some i => set { p with world := p.world.advance i used }
  | none => pure ()
  let fields := fieldsOf (Expansion.separators p) (some names.length) pieces
  assignFields names (fields.map fun ink => String.ofList (Ink.chars ink))
  return if isWhole then 0 else 1

/-- What a specification of options says of a letter that it holds: whether it has an argument. -/
def optionTakes? : Char → List Char → Option Bool
  | _, [] => none
  | c, d :: ':' :: rest => if c == d then some true else optionTakes? c rest
  | c, d :: rest => if c == d then some false else optionTakes? c rest

/-- Sets the place among the arguments. -/
def setPlace (index : Nat) (offset : Option Nat) : Act Unit := do
  assign "OPTIND" (toString index)
  modify fun p => { p with optionIndex := index, optionOffset := offset }

/-- Takes the next option from arguments. -/
def getopts (arguments : List String) : Act Nat := do
  match arguments with
  | specification :: name :: given => do
      let p ← get
      let words := if given.isEmpty then p.arguments else given
      let isOver := words.length + 1 < p.optionIndex
      let index := if isOver then 1 else p.optionIndex
      let offset := if isOver then none else p.optionOffset
      let before := if index ≤ 1 then none else words[index - 2]?
      let left := match before, offset with
        | some w, some k => w.toList.drop k
        | _, _ => []
      let finish (status index : Nat) (offset : Option Nat) (c : Char) : Act Nat := do
        setPlace index offset
        assign name c.toString
        return status
      let take (c : Char) (cs : List Char) (index : Nat) : Act Nat := do
        let word := (words[index - 2]?).getD ""
        let later := some (word.length - cs.length)
        let isQuiet := specification.startsWith ":"
        match optionTakes? c specification.toList with
        | none => do
            if isQuiet then assign "OPTARG" c.toString
            else
              writeTo 2 ("Illegal option -" ++ c.toString ++ "\n")
              unset "OPTARG"
            finish 0 index later '?'
        | some false => do
            assign "OPTARG" ""
            finish 0 index later c
        | some true =>
            if !cs.isEmpty then
              assign "OPTARG" (String.ofList cs)
              finish 0 index none c
            else match words[index - 1]? with
              | some value => do
                  assign "OPTARG" value
                  finish 0 (index + 1) none c
              | none =>
                  if isQuiet then
                    assign "OPTARG" c.toString
                    finish 0 index none ':'
                  else
                    writeTo 2 ("No arg for -" ++ c.toString ++ " option\n")
                    unset "OPTARG"
                    finish 0 index none '?'
      match left with
      | c :: cs => take c cs index
      | [] =>
          match (words[index - 1]?).map String.toList with
          | some ('-' :: c :: cs) =>
              if c = '-' ∧ cs = [] then finish 1 (index + 1) none '?'
              else take c cs (index + 1)
          | _ => finish 1 index none '?'
  | _ => fail "Usage: getopts optstring var [arg...]"

end Playground.Shell.Builtins
