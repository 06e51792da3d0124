/-!
Patterns of the shell: a star stands for any text, a question mark for any character, and brackets
for one of some characters. A character may be escaped by a backslash.
-/

namespace Playground.Shell

/-- A character of a pattern; an escaped one stands for itself. -/
structure Glyph where
  char : Char
  isEscaped : Bool
deriving DecidableEq, Repr, Inhabited

/-- A pattern. -/
abbrev Pattern := List Glyph

namespace Pattern

/-- The pattern in which backslashes have been carried out. -/
def settle : Pattern → Pattern
  | ⟨'\\', false⟩ :: g :: rest => ⟨g.char, true⟩ :: settle rest
  | ⟨'\\', false⟩ :: [] => [⟨'\\', true⟩]
  | g :: rest => g :: settle rest
  | [] => []

/-- The glyph of a character that may have a meaning. -/
def open_ (c : Char) : Glyph := ⟨c, false⟩

/-- Whether a byte belongs to a class of characters. -/
def inClass (name : String) (c : Char) : Bool :=
  let isPunct := 0x21 ≤ c.toNat && c.toNat < 0x7F && !c.isAlphanum
  match name with
  | "alpha" => c.isAlpha
  | "digit" => c.isDigit
  | "alnum" => c.isAlphanum
  | "upper" => c.isUpper
  | "lower" => c.isLower
  | "space" => c == ' ' || (9 ≤ c.toNat && c.toNat ≤ 13)
  | "blank" => c == ' ' || c == '\t'
  | "punct" => isPunct
  | "cntrl" => c.toNat < 0x20 || c.toNat = 0x7F
  | "print" => 0x20 ≤ c.toNat && c.toNat < 0x7F
  | "graph" => isPunct || c.isAlphanum
  | "xdigit" => c.isDigit || ('a' ≤ c && c ≤ 'f') || ('A' ≤ c && c ≤ 'F')
  | _ => false

/-- The names of the classes of characters. -/
def classes : List String :=
  ["alpha", "digit", "alnum", "upper", "lower", "space", "blank", "punct", "cntrl", "print",
    "graph", "xdigit"]

/-- The class that is named at the start of a pattern, after its bracket, and the rest. -/
def class? (p : Pattern) : Option (String × Pattern) :=
  classes.findSome? fun name =>
    let text := (":" ++ name ++ ":]").toList.map open_
    if text.isPrefixOf p then some (name, p.drop text.length) else none

/-- The number that bytes are ordered by: those beyond ASCII come first. -/
def rank (c : Char) : Int :=
  if c.toNat < 128 then c.toNat else Int.ofNat c.toNat - 256

/-- Whether a character is one of those between brackets, and the pattern after them; `first` is
set before the first of them. -/
def bracket (c : Char) : Nat → Bool → Bool → Pattern → Option (Bool × Pattern)
  | 0, _, _, _ => none
  | fuel + 1, first, found, p =>
      match p with
      | [] => none
      | g :: rest =>
          if g = open_ ']' ∧ !first then some (found, rest)
          else match if g = open_ '[' then class? rest else none with
            | some (name, rest) => bracket c fuel false (found || inClass name c) rest
            | none =>
                match rest with
                | dash :: last :: rest' =>
                    if dash = open_ '-' ∧ last ≠ open_ ']' then
                      let inRange := rank g.char ≤ rank c && rank c ≤ rank last.char
                      bracket c fuel false (found || inRange) rest'
                    else bracket c fuel false (found || g.char == c) rest
                | _ => bracket c fuel false (found || g.char == c) rest

/-- Whether the character is meant by the brackets that start a pattern, after the opening one, and
the pattern after them; there is no answer if they are not closed. -/
def bracketFits? (p : Pattern) (c : Char) : Option (Bool × Pattern) :=
  match p with
  | ⟨'!', false⟩ :: p => (bracket c (p.length + 1) true false p).map fun r => (!r.1, r.2)
  | p => bracket c (p.length + 1) true false p

/-- Whether a pattern without backslashes stands for a text. -/
def fitsWithin : Nat → Pattern → List Char → Bool
  | 0, _, _ => false
  | _ + 1, [], cs => cs.isEmpty
  | fuel + 1, ⟨'*', false⟩ :: p, cs =>
      fitsWithin fuel p cs ||
        match cs with
        | [] => false
        | _ :: rest => fitsWithin fuel (open_ '*' :: p) rest
  | _ + 1, _ :: _, [] => false
  | fuel + 1, ⟨'?', false⟩ :: p, _ :: cs => fitsWithin fuel p cs
  | fuel + 1, ⟨'[', false⟩ :: p, c :: cs =>
      match bracketFits? p c with
      | some (fits, rest) => fits && fitsWithin fuel rest cs
      | none => c == '[' && fitsWithin fuel p cs
  | fuel + 1, g :: p, c :: cs => g.char == c && fitsWithin fuel p cs

/-- Whether a pattern stands for a text. -/
def fits (p : Pattern) (cs : List Char) : Bool :=
  fitsWithin (p.length + cs.length + 1) p.settle cs

/-- The text up to the first NUL, which parts arguments: patterns are compared with no more. -/
def upToNul (cs : List Char) : List Char :=
  cs.takeWhile (· != '\x00')

/-- A text without the shortest or longest start that fits. -/
def dropStart (p : Pattern) (longest : Bool) (cs : List Char) : List Char :=
  let cuts :=
    if longest then (List.range (cs.length + 1)).reverse
    else List.range ((upToNul cs).length + 1)
  match cuts.find? fun n => p.fits (upToNul (cs.take n)) with
  | some n => cs.drop n
  | none => cs

/-- A text without the shortest or longest end that fits. -/
def dropEnd (p : Pattern) (longest : Bool) (cs : List Char) : List Char :=
  let cuts :=
    if longest then List.range ((upToNul cs).length + 1)
    else (List.range (cs.length + 1)).reverse
  match cuts.find? fun n => p.fits (upToNul (cs.drop n)) with
  | some n => cs.take n
  | none => cs

end Pattern

end Playground.Shell
