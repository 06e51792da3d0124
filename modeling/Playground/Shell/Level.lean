import Playground.Shell.Source
/-!
Levels of quoting. What a character means in a word depends on the quotes and braces it stands in;
every `${`, every `$((` and the word itself is a level.
-/

namespace Playground.Shell

/-- The quotes that a character may stand in. -/
inductive Quoting where
  | bare
  | double
  | single
  | arithmetic
deriving DecidableEq, Repr

/-- What a character is where it stands. -/
inductive Role where
  | ordinary
  /-- A character that could mean something later on, and must not. -/
  | special
  | backslash
  | singleQuote
  | doubleQuote
  | endQuote
  | dollar
  | backquote
  | closeBrace
  | openParen
  | closeParen
  /-- A character that ends a bare word. -/
  | breaker
deriving DecidableEq, Repr

/-- What a character is in some quotes. -/
def Quoting.role (q : Quoting) (c : Char) : Role :=
  match q, c with
  | .single, '\'' => .endQuote
  | .single, c => if "!*?[=~:/-]\\".toList.contains c then .special else .ordinary
  | _, '\\' => .backslash
  | _, '$' => .dollar
  | _, '\x60' => .backquote
  | _, '\x7d' => .closeBrace
  | .bare, '\'' => .singleQuote
  | .bare, '"' => .doubleQuote
  | .bare, c => if "<>();&| \t".toList.contains c then .breaker else .ordinary
  | .double, '"' => .endQuote
  | .double, c => if "!*?[=~:/-]".toList.contains c then .special else .ordinary
  | .arithmetic, '(' => .openParen
  | .arithmetic, ')' => .closeParen
  | .arithmetic, _ => .ordinary

/-- A level of a word. -/
structure Level where
  quoting : Quoting := .bare
  /-- Whether double quotes are around. -/
  inDouble : Bool := false
  /-- Whether the level is that of a parameter in braces. -/
  inBraces : Bool := false
  /-- Whether double quotes have been opened inside the braces. -/
  innerDouble : Bool := false
  /-- Whether quotes inside the braces leave the outer ones in force. -/
  keepsQuotes : Bool := false
  /-- The end mark of the text that is being read, if the word is one, and whether tabs at the start
  of lines do not count. -/
  document : Option (List Char × Bool) := none
  /-- Open parentheses. -/
  parens : Nat := 0

namespace Level

/-- The level of a text in the script. -/
def ofDocument (w : Waiting) : Level :=
  { quoting := if w.isRaw then .single else .double
    inDouble := !w.isRaw
    document := some (w.mark, w.strips) }

/-- The level of an arithmetic expression. -/
def forArithmetic (l : Level) : Level :=
  { quoting := .arithmetic, inDouble := true, document := l.document }

/-- The level of a parameter in braces. Patterns start without quotes. -/
def forBraces (l : Level) (isPattern : Bool) : Level :=
  let quoting : Quoting :=
    if isPattern then .bare else if l.quoting = .arithmetic then .double else l.quoting
  if quoting ≠ l.quoting || l.innerDouble then
    let inDouble := decide (quoting ≠ .bare)
    { quoting, inDouble, inBraces := true, keepsQuotes := inDouble, document := l.document }
  else
    { l with inBraces := true, innerDouble := false, keepsQuotes := l.keepsQuotes || l.inDouble }

/-- The part that a quote leaves. -/
def quoteParts (l : Level) : List Part :=
  if l.document.isNone then [.quote] else []

/-- The level after a double quote that has the given state of quoting. -/
def toggled (l : Level) : Level :=
  if l.inBraces then { l with innerDouble := !l.innerDouble } else l

/-- The parts of a character after a backslash. -/
def escapeParts (l : Level) (c : Char) : List Part :=
  let isKept := l.inDouble && c != '\\' && c != '\x60' && c != '$' &&
    (c != '"' || (l.document.isSome && !l.inBraces)) && (c != '\x7d' || !l.inBraces)
  if isKept then [.escaped '\\', .escaped c] else [.escaped c]

/-- Whether the level may not be left at the end of the script, and why. -/
def fault? (l : Level) : Option String :=
  if l.quoting = .arithmetic then some "Missing '))'"
  else if l.quoting ≠ .bare ∧ l.document.isNone then some "Unterminated quoted string"
  else if l.inBraces then some "Missing '\x7d'"
  else none

end Level

namespace Read

/-- Looks for the end mark of a text at the start of a line, and takes it. -/
def takesMark (mark : List Char) (strips : Bool) : Read Bool := do
  let s ← get
  let chars := s.atoms.filterMap fun a =>
    match a with
    | .char c => some c
    | .aliasEnd .. => none
  let line := if strips then chars.dropWhile (· == '\t') else chars
  if strips then set { s with atoms := line.map .char }
  if mark.isPrefixOf line then
    match line.drop mark.length with
    | [] => do
        modify fun s => { s with atoms := [] }
        return true
    | '\n' :: rest => do
        modify fun s => { s with atoms := rest.map .char, line := s.line + 1 }
        return true
    | _ => return false
  else return false

end Read

end Playground.Shell
