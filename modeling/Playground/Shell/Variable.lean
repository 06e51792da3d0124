import Playground.Shell.Process
/-!
Giving values to variables, taking them back, and making them local.
-/

namespace Playground.Shell

/-- The name at the start of a text. -/
def leadingName (s : String) : String :=
  match s.toList with
  | c :: rest =>
      if Word.startsName c then String.ofList (c :: rest.takeWhile Word.isNameChar) else ""
  | [] => ""

/-- The name that a text assigns to, as far as the `=` or the end. -/
def nameBefore (s : String) : String :=
  String.ofList (s.toList.takeWhile (· != '='))

/-- The value that a text assigns, if it does. -/
def valueAfter? (s : String) : Option String :=
  match s.toList.dropWhile (· != '=') with
  | _ :: value => some (String.ofList value)
  | [] => none

/-- What else changes with a variable. -/
def noteChange (name : String) (value : Option String) (p : Process) : Process :=
  if name = "OPTIND" then
    { p with optionIndex := max 1 ((value.bind count?).getD 1), optionOffset := none }
  else if name = "PATH" then { p with tracked := [] }
  else p

/-- Changes a variable, which must have a name. -/
def change (name : String) (f : Variable → Variable) : Act Unit := do
  if !Word.isName name then fail (name ++ ": bad variable name")
  let p ← get
  let new := f ((p.binding? name).getD ⟨name, none, false, false⟩)
  set (noteChange name new.value (p.put new))

/-- Complains about changing a variable that is protected. -/
def checkChange (name : String) : Act Unit := do
  if ((← get).binding? name).any (·.isReadOnly) then fail (name ++ ": is read only")

/-- Gives a variable a value. -/
def assign (name value : String) : Act Unit := do
  let exports := (← get).has 'a'
  checkChange name
  change name fun v => { v with value := some value, isExported := v.isExported || exports }

/-- Takes a variable away. -/
def unset (name : String) : Act Unit := do
  if !Word.isName name then fail (name ++ ": bad variable name")
  checkChange name
  modify fun p => noteChange name none (p.without name)

/-- Gives a variable properties, and a value where the text assigns one. -/
def mark (text : String) (isExported isReadOnly : Bool) : Act Unit := do
  let name := nameBefore text
  match valueAfter? text with
  | some value => assign name value
  | none => if !Word.isName name then fail (name ++ ": bad variable name")
  change name fun v => { v with
    isExported := v.isExported || isExported
    isReadOnly := v.isReadOnly || isReadOnly }

/-- Opens a frame for local variables. -/
def pushFrame : Act Unit :=
  modify fun p => { p with frames := [] :: p.frames }

/-- Notes in the innermost frame what a variable is. -/
def noteLocal (name : String) : Act Unit :=
  modify fun p => { p with
    frames := match p.frames with
      | frame :: rest => ((name, p.binding? name) :: frame) :: rest
      | [] => [] }

/-- Makes a variable local, with a value where the text assigns one. -/
def makeLocal (text : String) (isExported : Bool) : Act Unit := do
  let name := nameBefore text
  if !Word.isName name then fail (name ++ ": bad variable name")
  noteLocal name
  match valueAfter? text with
  | some value => assign name value
  | none => pure ()
  if isExported then change name fun v => { v with isExported := true }

/-- Makes a variable what it was. -/
def Process.restore (p : Process) (name : String) (old : Option Variable) : Process :=
  if name = "-" then
    { p with options := (old.bind (·.value)).elim [] String.toList }
  else
    noteChange name (old.bind (·.value)) (match old with
      | some v => p.put v
      | none => p.without name)

/-- Closes frames until as many are left. -/
def popFrames (left : Nat) : Act Unit :=
  modify fun p =>
    let closing := p.frames.take (p.frames.length - left)
    let p := { p with frames := p.frames.drop (p.frames.length - left) }
    closing.flatten.foldl (fun p entry => p.restore entry.1 entry.2) p

/-- A text in single quotes, with runs of single quotes in double ones; at most `n` runs. -/
def quotedRuns : Nat → List Char → List Char
  | 0, _ => []
  | n + 1, cs =>
      let lead := '\'' :: cs.takeWhile (· != '\'') ++ ['\'']
      let rest := cs.dropWhile (· != '\'')
      match rest.takeWhile (· == '\'') with
      | [] => lead
      | quotes =>
          let after := rest.drop quotes.length
          lead ++ '"' :: quotes ++ '"' :: (if after.isEmpty then [] else quotedRuns n after)

/-- A text in quotes, as the shell prints values. -/
def quoted (s : String) : String :=
  String.ofList (quotedRuns (s.length + 1) s.toList)

end Playground.Shell
