import Playground.Shell.Options
import Playground.Shell.Variable
/-!
Commands of the shell that change variables, options and arguments.
-/

namespace Playground.Shell.Builtins

/-- The lines that show variables, sorted by name. -/
def showVariables (lead : String) (isShown : Variable → Bool) : Act Unit := do
  let p ← get
  let shown := (p.bindings.filter isShown).mergeSort fun a b => decide (a.name ≤ b.name)
  let line (v : Variable) : String :=
    (if lead.isEmpty then "" else lead ++ " ") ++ v.name ++
      (match v.value with
        | some s => "=" ++ quoted s
        | none => "") ++ "\n"
  print (String.join (shown.map line))

/-- Gives variables the properties that the name of the command asks for, or shows those that have
them. -/
def markAll (name : String) (arguments : List String) : Act Nat := do
  let isReadOnly := name = "readonly"
  let (options, texts) ← Options.ofCommand "p" arguments
  if options.isEmpty && !texts.isEmpty then
    for text in texts do mark text (!isReadOnly) isReadOnly
  else showVariables name fun v => if isReadOnly then v.isReadOnly else v.isExported
  return 0

/-- Makes variables local to the function that is being carried out. -/
def local_ (arguments : List String) : Act Nat := do
  if (← get).frames.isEmpty then fail "not in a function"
  for text in arguments do
    if text = "-" then
      modify fun p =>
        let old : Variable := ⟨"-", some (String.ofList p.options), false, false⟩
        { p with frames := match p.frames with
            | frame :: rest => (("-", some old) :: frame) :: rest
            | [] => [] }
    else makeLocal text false
  return 0

/-- Takes variables away, or functions. -/
def unsetAll (arguments : List String) : Act Nat := do
  let (options, names) ← Options.ofCommand "vf" arguments
  let isFunction := (options.getLast?).any (·.1 == 'f')
  for name in names do
    if isFunction then
      modify fun p => { p with functions := p.functions.filter (·.1 != name) }
    else unset name
  return 0

/-- Replaces the arguments of the shell. -/
def setArguments (arguments : List String) : Act Unit :=
  modify fun p => { p with arguments, optionIndex := 1, optionOffset := none }

/-- Sets options and arguments, or shows all variables. -/
def set_ (arguments : List String) : Act Nat := do
  if arguments.isEmpty then
    showVariables "" fun v => v.value.isSome
  else
    let parsed ← Options.parse false (arguments.length + 1) arguments false
    if parsed.endsExplicitly || !parsed.rest.isEmpty then setArguments parsed.rest
  return 0

/-- Drops arguments of the shell. -/
def shift (arguments : List String) : Act Nat := do
  let n ← match arguments with
    | a :: _ => count a
    | [] => pure 1
  let p ← get
  if p.arguments.length < n then fail "can't shift that many"
  setArguments (p.arguments.drop n)
  return 0

end Playground.Shell.Builtins
