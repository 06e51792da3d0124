/-!
Shell scripts as data. Words keep what their characters were written in, because that decides what
may still become of them.
-/

namespace Playground.Shell

/-- What is done with the value of a parameter. -/
inductive Treatment where
  | plain
  | length
  /-- Another text if the parameter is missing. -/
  | fallback
  /-- As `fallback`, and the parameter gets that text. -/
  | assign
  /-- A complaint if the parameter is missing. -/
  | demand
  /-- Another text if the parameter is not missing. -/
  | instead
  /-- Without the shortest or longest start that fits a pattern. -/
  | dropStart (longest : Bool)
  /-- Without the shortest or longest end that fits a pattern. -/
  | dropEnd (longest : Bool)
  /-- Nothing that can be done. -/
  | unknown
deriving DecidableEq, Repr

/-- How a redirection opens a file. -/
inductive Opening where
  | read
  | readWrite
  | write
  /-- Write even where files are protected. -/
  | overwrite
  | append
deriving DecidableEq, Repr

mutual

/-- A part of a word. -/
inductive Part where
  | char (c : Char)
  /-- A character that stands for itself only. -/
  | escaped (c : Char)
  /-- The start or end of quoted text. -/
  | quote
  /-- A parameter; `orEmpty` says that an empty one counts as missing. -/
  | param (name : String) (treatment : Treatment) (orEmpty : Bool) (word : List Part)
  | arithmetic (expression : List Part)
  | output (script : Option Command)

/-- A redirection of a descriptor. -/
inductive Redirect where
  | file (descriptor : Nat) (opening : Opening) (name : List Part)
  | duplicate (descriptor : Nat) (source : List Part)
  /-- Input from a text in the script, which has a number there. -/
  | document (descriptor : Nat) (number : Nat)

/-- A command. Numbers of lines are those where the command starts. -/
inductive Command where
  | simple (line : Nat) (words assignments : List (List Part)) (redirects : List Redirect)
  | pipeline (commands : List Command) (background : Bool)
  | redirected (line : Nat) (body : Command) (redirects : List Redirect)
  | background (line : Nat) (body : Command) (redirects : List Redirect)
  | subshell (line : Nat) (body : Command) (redirects : List Redirect)
  | both (a b : Command)
  | either (a b : Command)
  | sequence (a b : Command)
  | negation (c : Command)
  | branch (condition body : Command) (otherwise : Option Command)
  /-- Goes on as long as the condition fails if `isUntil`, as long as it holds otherwise. -/
  | loop (isUntil : Bool) (condition body : Command)
  | each (line : Nat) (name : String) (words : List (List Part)) (body : Command)
  /-- The body behind the first pattern that fits the subject. -/
  | choice (line : Nat) (subject : List Part) (cases : List (List (List Part) × Option Command))
  | define (name : String) (body : Command)

end

instance : Inhabited Command := ⟨.simple 0 [] [] []⟩

instance : Inhabited Part := ⟨.quote⟩

/-- A word, before it is expanded. -/
abbrev Word := List Part

namespace Word

/-- Whether the character can start a name. -/
def startsName (c : Char) : Bool :=
  c.isAlpha || c == '_'

/-- Whether the character can be part of a name. -/
def isNameChar (c : Char) : Bool :=
  c.isAlphanum || c == '_'

/-- Whether the text is a name. -/
def isName (s : String) : Bool :=
  match s.toList with
  | [] => false
  | c :: rest => startsName c && rest.all isNameChar

/-- The text of a word that holds nothing but plain characters. -/
def plain? (w : Word) : Option String :=
  (List.mapM (fun part : Part =>
    match part with
    | .char c => some c
    | _ => none) w).map String.ofList

/-- The characters of a word, in quotes or not. -/
def chars (w : Word) : List Char :=
  List.filterMap (fun part : Part =>
    match part with
    | .char c => some c
    | .escaped c => some c
    | _ => none) w

/-- The name that an assignment starts with, and the rest of the word after the `=`. -/
def assignment? : List Char → Word → Option (String × Word)
  | name, .char c :: rest =>
      if c == '=' then
        if name.isEmpty then none else some (String.ofList name.reverse, rest)
      else if (if name.isEmpty then startsName c else isNameChar c) then
        assignment? (c :: name) rest
      else none
  | _, _ => none

/-- Whether the word assigns a value to a name. -/
def isAssignment (w : Word) : Bool :=
  (assignment? [] w).isSome

end Word

end Playground.Shell
