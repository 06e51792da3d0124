import Playground.Shell.Arithmetic
import Playground.Shell.Field
import Playground.Shell.Glob
import Playground.Shell.Options
import Playground.Shell.Variable
/-!
The expansion of words: what parameters, arithmetic and the output of commands come to, and the
fields that are made of it. How a command's output is had is left to the caller.
-/

namespace Playground.Shell

/-- How a word is expanded. -/
structure Manner where
  /-- It may become any number of fields. -/
  isFull : Bool := false
  /-- Double quotes are around. -/
  isQuoted : Bool := false
  /-- It stands in the braces of a parameter, and is parted where it is not quoted. -/
  isWord : Bool := false
  /-- A tilde here stands for a directory. -/
  tilde : Bool := false
  /-- So does a tilde after the first `=`, and after colons. -/
  assigns : Bool := false
  /-- The first `=` has passed. -/
  isValue : Bool := false

/-- Getting what a command prints. -/
abbrev Capture := Command → Act String

namespace Expansion

/-- The number of 32 bits that the digits of a parameter's name come to. -/
def position (name : String) : Int :=
  (min (Int.ofNat (digitsValue 10 name.toList)) maxSigned).bmod 0x100000000

/-- What stands between arguments that are joined; for fields it is a NUL. -/
def separator (p : Process) (name : String) (m : Manner) : List Char :=
  let ifs := p.valueOf? "IFS"
  if m.isFull && (name == "@" || !m.isQuoted) && (m.isQuoted || ifs.isSome) then ['\x00']
  else match ifs with
    | some s => s.toList.take 1
    | none => [' ']

/-- The value of a parameter, if it is set. -/
def value? (p : Process) (m : Manner) (name : String) : Option String :=
  match name with
  | "@" | "*" =>
      let texts := p.arguments.map String.toList
      some (String.ofList ((separator p name m).intercalate texts))
  | "#" => some (toString p.arguments.length)
  | "?" => some (toString p.status)
  | "$" => some (toString p.rootNumber)
  | "-" => some (Options.shown p)
  | "!" => p.lastJob.map toString
  | name =>
      if name.toList.all Char.isDigit then
        let n := position name
        if n = 0 then some p.name
        else if 0 < n then p.arguments[n.toNat - 1]?
        else none
      else p.valueOf? name

/-- The ink of a value. In quotes, what could mean something stands for itself. -/
def ink (isQuoted : Bool) (cs : List Char) : List Ink :=
  cs.map fun c => .glyph ⟨c, isQuoted && "!*?[=~:/-]\\".toList.contains c⟩

/-- The piece that a value comes to. -/
def piece (p : Process) (m : Manner) (name : String) (ink : List Ink) : Piece :=
  let parting : Parting :=
    if !m.isQuoted then .separators
    else if name == "@" && !p.arguments.isEmpty then .arguments
    else .nowhere
  ⟨ink, parting⟩

/-- The piece of a text that is made, not named. -/
def madePiece (m : Manner) (s : String) : Piece :=
  ⟨ink m.isQuoted s.toList, if m.isQuoted then .nowhere else .separators⟩

/-- The text after a tilde that says whose directory is meant, if it can. -/
def tildeName? (m : Manner) : Word → Option (List Char)
  | .char c :: rest =>
      if c == '/' || (c == ':' && m.assigns) then some []
      else (tildeName? m rest).map (c :: ·)
  | [] => some []
  | _ => none

/-- The directory that a tilde with a name stands for. -/
def tildeDirectory? (p : Process) (name : List Char) : Option String :=
  if name.isEmpty then p.valueOf? "HOME"
  else if name = "root".toList then some "/root"
  else none

/-- What is left of a value after the treatment `dropStart` or `dropEnd`. -/
def trim (treatment : Treatment) (pattern : Pattern) (value : List Ink) : List Ink :=
  let cs := Ink.chars value
  match treatment with
  | .dropStart longest => value.drop (cs.length - (pattern.dropStart longest cs).length)
  | .dropEnd longest => value.take (pattern.dropEnd longest cs).length
  | _ => value

/-- Complains about a parameter that is missing. -/
def missing {α : Type} (name : String) (why : String) : Act α :=
  fail (name ++ ": " ++ why)

/-- The text that a command's output becomes: no NUL, and no line break at the end. -/
def outputText (s : String) : String :=
  let cs := s.toList.filter (· != '\x00')
  String.ofList (cs.reverse.dropWhile (· == '\n')).reverse

/-- Evaluates an arithmetic expression. -/
def arithmetic (s : String) : Act String := do
  let (result, changes) := Arithmetic.evaluate (← get).valueOf? s
  for (name, n) in changes.reverse do assign name (toString n)
  let complain (why : String) : Act String :=
    fail ("arithmetic expression: " ++ why ++ ": \"" ++ s ++ "\"")
  match result with
  | .ok n => return toString n
  | .error (.expecting what) => complain ("expecting " ++ what)
  | .error .divisionByZero => complain "division by zero"
  | .error (.illegalNumber text) => illegalNumber text
  | .error .overflow => throw (.killed 8)

/-- Whether a word starts with all arguments in quotes of their own. -/
def isAllArguments : Word → Bool
  | .quote :: .param "@" .plain false [] :: .quote :: _ => true
  | _ => false

mutual

/-- The pieces of a part that stands for other text. -/
def part (capture : Capture) (m : Manner) : Part → Act (List Piece)
  | .param name treatment orEmpty word => do
      let p ← get
      let value := value? p m name
      let given := value.filter fun s => !(orEmpty && s.isEmpty)
      let plain (s : String) := [piece p m name (ink m.isQuoted s.toList)]
      let inner := { m with isWord := true, tilde := true }
      let needed : Act String := match given with
        | some s => return s
        | none => if p.has 'u' then missing name "parameter not set" else return ""
      match treatment with
      | .unknown => fail "Bad substitution"
      | .plain => do
          let s ← needed
          return if given.isSome then plain s else []
      | .length => return [madePiece m (toString (← needed).length)]
      | .fallback =>
          match given with
          | some s => return plain s
          | none => parts capture inner false 0 word
      | .instead => if given.isSome then parts capture inner false 0 word else return []
      | .assign =>
          match given with
          | some s => return plain s
          | none => do
              let text := Piece.text (← parts capture { tilde := true } false 0 word)
              assign name text
              return plain ((value? (← get) m name).getD "")
      | .demand =>
          match given with
          | some s => return plain s
          | none => do
              if word.isEmpty then
                missing name ("parameter not set" ++ if orEmpty then " or null" else "")
              else
                missing name (Piece.text (← parts capture { tilde := true } false 0 word))
      | treatment => do
          let s ← needed
          if given.isNone then return []
          let pattern := Ink.pattern
            (Piece.joined (← parts capture { tilde := true } false 0 word))
          return [piece p m name (trim treatment pattern (ink m.isQuoted s.toList))]
  | .arithmetic expression => do
      let text := Piece.text (← parts capture {} false 0 expression)
      return [madePiece m (← arithmetic text)]
  | .output script => do
      match script with
      | some c => return [madePiece m (outputText (← capture c))]
      | none => return []
  | .char c => return [⟨Ink.plain [c], .nowhere⟩]
  | .escaped c => return [⟨Ink.fixed [c], .nowhere⟩]
  | .quote => return [⟨[.quote], .nowhere⟩]

/-- The pieces of the parts of a word after some that are done; quotes may be open. All arguments in
quotes of their own leave no mark of the quotes. -/
def parts (capture : Capture) (m : Manner) (inQuotes : Bool) : Nat → List Part → Act (List Piece)
  | _, [] => return []
  | skip + 1, _ :: rest => parts capture m inQuotes skip rest
  | 0, .char c :: rest => do
      let name? := if m.tilde && c == '~' then tildeName? m rest else none
      let later := { m with tilde := false }
      match name?, name?.bind (tildeDirectory? (← get)) with
      | some name, some directory => do
          let more ← parts capture later inQuotes name.length rest
          return ⟨ink true directory.toList, .nowhere⟩ :: more
      | _, _ => do
          let isMark := m.assigns && (c == ':' || (c == '=' && !m.isValue))
          let later := { m with tilde := isMark, isValue := m.isValue || (isMark && c == '=') }
          let plain := if m.assigns then [] else rest.takeWhile fun x =>
            match x with
            | .char _ => true
            | _ => false
          let more ← parts capture later inQuotes plain.length rest
          let isParted := m.isWord && !m.isQuoted && !inQuotes
          return ⟨Ink.plain (c :: Word.chars plain), if isParted then .separators else .nowhere⟩ ::
            more
  | 0, x :: rest => do
      let later := { m with tilde := false }
      if !inQuotes && isAllArguments (x :: rest) then
        let p ← get
        let m' := { m with isQuoted := true }
        let s := (value? p m' "@").getD ""
        let more ← parts capture later inQuotes 2 rest
        return piece p m' "@" (ink true s.toList) :: more
      else
        let first ← part capture { later with isQuoted := m.isQuoted || inQuotes } x
        let isQuote := match x with
          | .quote => true
          | _ => false
        return first ++ (← parts capture later (inQuotes != isQuote) 0 rest)

end

/-- The text of a word that stays one field. -/
def text (capture : Capture) (w : Word) : Act String := do
  return Piece.text (← parts capture { tilde := true } false 0 w)

/-- The text of a word that assigns a value. -/
def assignment (capture : Capture) (w : Word) : Act String := do
  return Piece.text (← parts capture { assigns := true } false 0 w)

/-- The text of a word in double quotes. -/
def quotedText (capture : Capture) (w : Word) : Act String := do
  return Piece.text (← parts capture { isQuoted := true } false 0 w)

/-- The pattern that a word writes. -/
def pattern (capture : Capture) (w : Word) : Act Pattern := do
  return Ink.pattern (Piece.joined (← parts capture { tilde := true } false 0 w))

/-- The characters that part fields. -/
def separators (p : Process) : List Char :=
  ((p.valueOf? "IFS").getD " \t\n").toList

/-- The fields of a word; patterns become the paths that they stand for. -/
def fields (capture : Capture) (w : Word) : Act (List String) := do
  let pieces ← parts capture { isFull := true, tilde := true } false 0 w
  let p ← get
  return (fieldsOf (separators p) none pieces).flatMap fun ink =>
    let paths := if p.has 'f' then [] else Glob.expand p.world.tree (Ink.pattern ink)
    if paths.isEmpty then [String.ofList (Ink.chars ink)] else paths

end Expansion

end Playground.Shell
