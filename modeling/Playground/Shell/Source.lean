import Playground.Shell.Syntax
import Playground.Shell.Token
/-!
Where a script is read from: its characters, with the line that has been reached, and what reading
has to remember from one token to the next. Aliases are put in place of their names as text.
-/

namespace Playground.Shell

/-- A character of a script, or the end of the text of an alias, up to which the given ones are
busy. -/
inductive Atom where
  | char (c : Char)
  | aliasEnd (names : List String) (blank : Bool)
deriving Repr

/-- What the next token is checked for. -/
structure Checks where
  /-- Line breaks before it are passed over. -/
  newline : Bool := false
  keyword : Bool := false
  nickname : Bool := false
  /-- It is the word that ends a text in the script; nothing is expanded in it. -/
  mark : Bool := false
deriving DecidableEq, Repr

/-- A text in the script that is to be read after the line. -/
structure Waiting where
  number : Nat
  mark : List Char
  /-- Tabs at the start of lines do not count. -/
  strips : Bool
  /-- Nothing in the text is expanded. -/
  isRaw : Bool
deriving Repr

/-- A script that is being read. -/
structure Source where
  atoms : List Atom
  line : Nat
  aliases : List (String × String)
  /-- Aliases whose text is being read; they are not expanded again. -/
  busy : List String
  /-- Those of them whose text has ended. They stay busy up to the next character. -/
  spent : List String
  checks : Checks
  /-- The last token, and whether it is to be read again. -/
  token : Token
  isPushed : Bool
  /-- The last word, and whether anything in it was quoted. -/
  word : Word
  isQuoted : Bool
  redirect : Redirect
  waiting : List Waiting
  /-- The texts that have been read. -/
  documents : List (Nat × Word)
  nextDocument : Nat

/-- Reading; it fails with the wording of what is wrong. -/
abbrev Read (α : Type) := ExceptT String (StateM Source) α

namespace Source

/-- A source at the start of a script. -/
def ofChars (cs : List Char) (aliases : List (String × String)) (nextDocument : Nat) : Source where
  atoms := cs.map .char
  line := 1
  aliases := aliases
  busy := []
  spent := []
  checks := {}
  token := .newline
  isPushed := false
  word := []
  isQuoted := false
  redirect := .duplicate 0 []
  waiting := []
  documents := []
  nextDocument := nextDocument

/-- Passes over the ends of aliases. Gives the rest, the aliases that have ended, and whether one of
them lets the next word be an alias. -/
def passEnds : List Atom → List String → Bool → List Atom × List String × Bool
  | .aliasEnd names blank :: rest, ended, found =>
      passEnds rest (names ++ ended) (found || blank)
  | atoms, ended, found => (atoms, ended, found)

/-- Takes the next character. -/
def next (s : Source) : Option Char × Source :=
  let (atoms, ended, found) := passEnds s.atoms [] false
  let s := { s with
    busy := s.spent.foldl List.erase s.busy
    spent := ended
    checks := if found then { s.checks with nickname := true } else s.checks }
  match atoms with
  | .char c :: rest => (some c, { s with atoms := rest })
  | _ => (none, { s with atoms := [] })

/-- Puts the text of an alias in front of what is still to be read. An alias whose text has just
ended stays busy as long as this one. -/
def insertAlias (s : Source) (name value : String) : Source :=
  let cs := value.toList
  let blank := cs.getLast?.any fun c => c == ' ' || c == '\t'
  if cs.isEmpty then s
  else
    { s with
      atoms := cs.map .char ++ .aliasEnd (name :: s.spent) blank :: s.atoms
      busy := name :: s.busy
      spent := [] }

/-- Reads something from a source. Gives it, or what is wrong, and the rest of the source. -/
def read {α : Type} (s : Source) (r : Read α) : Except String α × Source :=
  (ExceptT.run r).run s

end Source

namespace Read

/-- Takes the next character; there is none at the end. -/
def next : Read (Option Char) := do
  let (c, s) := (← get).next
  set s
  return c

/-- Puts a character back. -/
def unread (c : Option Char) : Read Unit :=
  match c with
  | some c => modify fun s => { s with atoms := .char c :: s.atoms }
  | none => return ()

/-- Counts a line. -/
def countLine : Read Unit :=
  modify fun s => { s with line := s.line + 1 }

/-- Takes the next character after at most `n` pairs of a backslash and a line break. -/
def nextWithin : Nat → Read (Option Char)
  | 0 => return none
  | n + 1 => do
      match ← next with
      | some '\\' =>
          match ← next with
          | some '\n' => do
              countLine
              nextWithin n
          | c => do
              unread c
              return some '\\'
      | c => return c

/-- Takes the next character. A backslash joins the line after it. -/
def nextJoined : Read (Option Char) := do
  nextWithin ((← get).atoms.length + 1)

/-- Takes characters as long as they satisfy `p`, at most `n`. Gives them, and the one after. -/
def run (p : Char → Bool) : Nat → List Char → Option Char → Read (List Char × Option Char)
  | 0, acc, c => return (acc.reverse, c)
  | n + 1, acc, c =>
      match c with
      | some d =>
          if p d then do run p n (d :: acc) (← nextJoined)
          else return (acc.reverse, c)
      | none => return (acc.reverse, none)

/-- Takes characters up to the end of a line, at most `n`. -/
def skipLine : Nat → Read Unit
  | 0 => return ()
  | n + 1 => do
      match ← next with
      | some '\n' => unread (some '\n')
      | some _ => skipLine n
      | none => return ()

/-- Complains about the last token, and says which one would have been right. -/
def unexpected {α : Type} (wanted : Option Token) : Read α := do
  let seen := (← get).token.name ++ " unexpected"
  match wanted with
  | some t => throw (seen ++ " (expecting " ++ t.name ++ ")")
  | none => throw seen

/-- Lets the last token be read again. -/
def pushBack : Read Unit :=
  modify fun s => { s with isPushed := true }

/-- Sets what the next token is checked for. -/
def check (c : Checks) : Read Unit :=
  modify fun s => { s with checks := c }

/-- Sets the last token. -/
def give (t : Token) : Read Token := do
  modify fun s => { s with token := t }
  return t

end Read

end Playground.Shell
