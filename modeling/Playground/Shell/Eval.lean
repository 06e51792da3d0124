import Playground.Shell.Background
import Playground.Shell.Builtins
import Playground.Shell.Call
import Playground.Shell.Programs
import Playground.Shell.Reader
/-!
Carrying out scripts. Each step is made of smaller tasks, for which there is a runner; the runner is
the step with less fuel, so the fuel bounds how deep tasks nest.
-/

namespace Playground.Shell.Eval

/-- Notes the line of a command. -/
def setLine (line : Nat) : Act Unit :=
  modify fun p => { p with errorLine := line }

/-- Carries out a command for its status alone. -/
def perform (run : Runner) (mode : Mode) (c : Command) : Act Unit := do
  let _ ← run (.command mode c)

/-! ## Scripts -/

/-- Shows the lines that have been read between two states of a source. -/
def showRead (before after : Source) : Act Unit := do
  let count := before.atoms.length - after.atoms.length
  let chars := before.atoms.filterMap fun
    | .char c => some c
    | .aliasEnd .. => none
  let rest := (chars.drop count).takeWhile (· != '\n')
  let isWhole := count = 0 || chars[count - 1]? = some '\n'
  writeTo 2 (String.ofList (chars.take count ++ if isWhole then [] else rest ++ ['\n']))

/-- Carries out the lines of a script that is being read, at most `n` of them. -/
def lines (run : Runner) (isTested isFile : Bool) : Nat → Source → Nat → Act Nat
  | 0, _, status => return status
  | n + 1, source, status => do
      let p ← get
      let source := { source with aliases := p.aliases, nextDocument := p.nextDocument }
      let unread := source
      let (result, source) := source.read Read.line
      if isFile && p.has 'v' then showRead unread source
      modify fun p => { p with
        readLine := source.line
        documents := p.documents ++ source.documents
        nextDocument := source.nextDocument }
      let source := { source with documents := [] }
      match result with
      | .error message => do
          modify fun p => { p with errorLine := p.readLine }
          fail ("Syntax error: " ++ message)
      | .ok .ended => return status
      | .ok .nothing => do
          runTraps run
          if (← get).skip ≠ .nothing then return status
          lines run isTested isFile n source status
      | .ok (.command c) => do
          let status ← run (.command { isTested } c)
          if (← get).skip ≠ .nothing then return status
          lines run isTested isFile n source status

/-- Carries out a script. -/
def script (run : Runner) (isTested isFile : Bool) (text : String) : Act Nat := do
  let p ← get
  let source := Source.ofChars text.toList p.aliases p.nextDocument
  let status ← lines run isTested isFile (text.length + 2) source 0
  modify fun q => { q with readLine := p.readLine }
  return status

/-- Carries out a script that is a file; going back to the caller ends it. -/
def file (run : Runner) (text : String) : Act Nat := do
  let status ← run (.script false true text)
  modify fun p => match p.skip with
    | .back _ => { p with skip := .nothing }
    | _ => p
  return status

/-! ## Programs -/

/-- The variables that a process inherits. -/
def inherited (p : Process) : List Variable :=
  (p.bindings.filter fun v => v.isExported && v.value.isSome).map fun v =>
    { v with isReadOnly := false }

/-- The variables that a shell sets at its start. -/
def standardVariables : List Variable :=
  [⟨"IFS", some " \t\n", false, false⟩, ⟨"OPTIND", some "1", false, false⟩,
    ⟨"PS1", some "# ", false, false⟩, ⟨"PS2", some "> ", false, false⟩,
    ⟨"PS4", some "+ ", false, false⟩]

/-- A shell that starts in the place of a process. -/
def freshShell (name : String) (p : Process) : Process :=
  let fresh : Process := {
    p with
    rootNumber := p.number
    bindings := standardVariables
    frames := []
    functions := []
    aliases := []
    tracked := []
    options := []
    traps := p.traps.filter fun t => t.2.isEmpty
    pending := []
    name
    arguments := []
    optionIndex := 1
    optionOffset := none
    status := 0
    outputStatus := 0
    savedStatus := none
    errorLine := 0
    readLine := 1
    depth := 0
    command := none
    hasLostOutput := false
    skip := .nothing
    loops := 0
    documents := []
    nextDocument := 0
    jobs := []
    lastJob := none }
  let fresh := (inherited p).reverse.foldl (fun q v =>
    if v.name = "IFS" ∨ v.name = "OPTIND" then q else q.put v) fresh
  let parent := toString (p.ancestors.headD 1)
  (fresh.put ⟨"PWD", some p.directory, true, false⟩).put ⟨"PPID", some parent, false, false⟩

/-- What the whole input holds. -/
def wholeInput : Act String := do
  match ← Program.takeInput 0 with
  | .ok s => return s
  | .error _ => return ""

/-- Carries out the script that the arguments of a shell ask for. -/
def started (run : Runner) (arguments : List String) : Act Unit := do
  let parsed ← Options.parse true (arguments.length + 1) arguments false
  match parsed.hasScript, parsed.rest with
  | true, [] => fail "-c requires an argument"
  | true, text :: rest => do
      modify fun p => { p with name := rest.headD p.name, arguments := rest.tail }
      let _ ← run (.script false false text)
      if (← get).has 's' then let _ ← file run (← wholeInput)
  | false, [] => do
      modify fun p => { p with options := 's' :: p.options }
      let _ ← file run (← wholeInput)
  | false, name :: rest => do
      if (← get).has 's' then
        modify fun p => { p with arguments := name :: rest }
        let _ ← file run (← wholeInput)
      else
        let text ← match ← Redirection.openPath name .read with
          | .ok i => pure (Narrow.ofBytes (((← get).world.unread i).getD []))
          | .error fault => fail ("cannot open " ++ name ++ ": " ++ fault.message false)
        modify fun p => { p with name, arguments := rest }
        let _ ← file run text

/-- A shell as a program. -/
def shell (run : Runner) (name : String) (arguments : List String) : Act Nat := do
  modify (freshShell name)
  toEnd run (started run arguments)
  return (← get).status

/-- Prints the exported variables. -/
def environment (p : Process) : List String :=
  (inherited p).map fun v => v.name ++ "=" ++ v.value.getD ""

/-- Finds the file of a program along a search path, or where its name leads. -/
def programFile? (t : FileTree) (path name : String) : Option String :=
  if name.toList.contains '/' then some name else locate? t path name

/-- Carries out the program of a file, at most `n` steps of interpreters away. Gives its status, or
why there is none. -/
def launch (run : Runner) : Nat → String → String → List String → Act (Except FileError Nat)
  | 0, _, _, _ => return .error .tooManyLinks
  | n + 1, path, name, arguments => do
      let p ← get
      match p.world.tree.look true (Narrow.widen path) with
      | .error e => return .error e
      | .ok (_, .file number bytes) =>
          if !p.world.runnable.contains number then return .error .denied
          match Programs.kind bytes with
          | .text => return .ok (← shell run "sh" (path :: arguments))
          | .script interpreter argument =>
              launch run n interpreter interpreter (argument.toList ++ path :: arguments)
          | .program program =>
              if Programs.shellNames.contains program then
                return .ok (← shell run name arguments)
              else if program = "env" then do
                modify fun p => { p with name }
                env n arguments
              else
                match Programs.table.lookup program with
                | none => return .ok 0
                | some act => do
                    modify fun p => { p with name, hasLostOutput := false }
                    let status ← act arguments
                    let p ← get
                    if !p.hasLostOutput then return .ok status
                    let message :=
                      if (p.fileOf? 1).isSome then "write error: No space left on device"
                      else if program = "cat" then "standard output: Bad file descriptor"
                      else "write error: Bad file descriptor"
                    Program.complain message
                    return .ok (if program = "ls" then 2 else 1)
      | .ok _ => return .error .denied
where
  /-- Changes variables and carries out a program, or prints the variables. -/
  env (n : Nat) : List String → Act (Except FileError Nat)
    | [] => do
        Program.printLines (environment (← get))
        return .ok 0
    | word :: rest => do
        let p ← get
        if word = "-i" || word = "-" then
          set { p with bindings := [] }
          env n rest
        else if word.toList.contains '=' then
          set (p.put ⟨nameBefore word, valueAfter? word, true, false⟩)
          env n rest
        else
          let failed (e : FileError) : Act (Except FileError Nat) := do
            Program.complain (Program.named word ++ ": " ++ e.reason)
            return .ok (if e = .notFound then 127 else 126)
          let path := if (p.valueOf? "PATH").isSome then searchPath p else "/bin:/usr/bin"
          match programFile? p.world.tree path word with
          | none => failed .notFound
          | some file =>
              match ← launch run n file word rest with
              | .ok status => return .ok status
              | .error e => failed e

/-- How many interpreters may stand behind each other. -/
def maxInterpreters : Nat := 5

/-- Carries out a program in the place of the process. -/
def become {α : Type} (run : Runner) (path : String) (words : List String) : Act α := do
  let name := words.headD ""
  let file? := programFile? (← tree) path name
  let result ← match file? with
    | some file => launch run maxInterpreters file name words.tail
    | none => pure (.error .notFound)
  match result with
  | .ok status => do
      setStatus status
      throw .replaced
  | .error e => do
      let isMissing := e = .notFound ∨ e = .notDirectory
      warn (name ++ ": " ++ if isMissing then "not found" else e.reason)
      setStatus (if isMissing ∨ e = .nameTooLong ∨ e = .tooManyLinks then 127 else 126)
      throw .finish

/-! ## Simple commands -/

/-- Carries out a command of the shell. In its name the shell complains meanwhile. -/
def builtin (name : String) (isSpecial : Bool) (act : Act Nat) : Act Nat := do
  let before := (← get).command
  modify fun p => { p with command := some name, hasLostOutput := false }
  let result ← tryCatch (do return some (← act)) fun stop => do
    modify fun p => { p with command := before }
    if stop = .error && !isSpecial then return none else throw stop
  match result with
  | some status => do
      let isLost := (← get).hasLostOutput
      if isLost then warn (name ++ ": I/O error")
      modify fun p => { p with
        command := before
        hasLostOutput := false
        status := if isLost then status ||| 1 else status }
  | none => pure ()
  return (← get).status

/-- How deep functions may nest. -/
def maxDepth : Nat := 1000

/-- Carries out a function. -/
def function (run : Runner) (mode : Mode) (body : Command) (arguments : List String) :
    Act Nat := do
  let before ← get
  if maxDepth ≤ before.depth then
    fail ("Maximum function recursion depth (" ++ toString maxDepth ++ ") reached")
  let restore (p : Process) : Process := { p with
    arguments := before.arguments
    optionIndex := before.optionIndex
    optionOffset := before.optionOffset
    loops := before.loops
    depth := before.depth
    skip := match p.skip with
      | .back _ => .nothing
      | s => s }
  set { before with
    arguments
    optionIndex := 1
    optionOffset := none
    loops := 0
    depth := before.depth + 1 }
  tryCatch (perform run { mode with isLast := false } body) fun stop => do
    modify restore
    throw stop
  modify restore
  return (← get).status

/-- The path of a file that is to be carried out by the shell itself. -/
def dotFile (name : String) : Act String := do
  let p ← get
  if name.toList.contains '/' then return name
  else match locate? p.world.tree (searchPath p) name with
    | some path => return path
    | none => fail (name ++ ": not found")

/-- Carries out a file by the shell itself. -/
def dot (run : Runner) (arguments : List String) : Act Nat := do
  let (_, operands) ← Options.ofCommand "" arguments
  match operands with
  | [] => return 0
  | name :: _ => do
      let path ← dotFile name
      match ← Redirection.openPath path .read with
      | .error fault => fail ("cannot open " ++ path ++ ": " ++ fault.message false)
      | .ok i => do
          let text := Narrow.ofBytes (((← get).world.unread i).getD [])
          modify fun p => { p with command := some path }
          file run text

/-- Carries out a command of the shell by its name. -/
def named (run : Runner) (isTested : Bool) (name : String) (arguments : List String) : Act Nat := do
  match name with
  | "eval" =>
      if arguments.isEmpty then return 0
      else run (.script isTested false (" ".intercalate arguments))
  | "." => dot run arguments
  | "exec" =>
      if arguments.isEmpty then return 0
      else become run (searchPath (← get)) arguments
  | "wait" => wait run arguments
  | name =>
      match Builtins.ofName? name with
      | some act => act arguments
      | none => return 0

/-- The text in front of a trace. -/
def traceLead (run : Runner) : Act String := do
  let text := ((← get).valueOf? "PS4").getD ""
  if text.toList.all fun c => c != '$' && c != '\x60' && c != '\\' then return text
  else
    let p ← get
    let (result, source) :=
      (Source.ofChars text.toList p.aliases p.nextDocument).read Read.quotedText
    set { p with
      documents := p.documents ++ source.documents
      nextDocument := source.nextDocument }
    match result with
    | .ok w => do
        modify fun p => { p with options := p.options.filter (· != 'x') }
        let s ← Expansion.quotedText (captured run) w
        modify fun q => { q with options := p.options }
        return s
    | .error _ => return text

/-- Shows a command before it is carried out, on the open file with a number. -/
def trace (run : Runner) (file : Option Nat) (items : List String) : Act Unit := do
  let line := (← traceLead run) ++ " ".intercalate items ++ "\n"
  match file with
  | some i => modify fun p => { p with world := (p.world.write i (Narrow.toBytes line)).1 }
  | none => return ()

/-- Makes assignments in front of a command. Gives their texts. -/
def assignAll (run : Runner) (isLocal exports : Bool) : List Word → Act (List String)
  | [] => return []
  | w :: rest => do
      let text ← Expansion.assignment (captured run) w
      if isLocal then makeLocal text true
      else mark text exports false
      return text :: (← assignAll run isLocal exports rest)

/-- Carries out a call whose redirections and assignments have been made. -/
def invoke (run : Runner) (mode : Mode) (c : Call) : Act Nat := do
  let p ← get
  let words := c.words
  let name := words.headD ""
  let path := c.path.getD (searchPath p)
  if words.isEmpty then
    setStatus p.outputStatus
    return p.outputStatus
  match meaning p c.isPlain path name with
  | .builtin _ =>
      builtin name (c.standing.any (·.isSpecial)) (named run mode.isTested name words.tail)
  | .function body => function run mode body words.tail
  | .unknown => do
      let isHidden := (candidates path name).any fun file =>
        (p.world.tree.look true (Narrow.widen file)).isOk
      warn (name ++ if isHidden then ": Permission denied" else ": not found")
      setStatus 127
      return 127
  | .program _ => do
      if !name.toList.contains '/' && c.path.isNone then
        modify fun p => { p with tracked := name :: p.tracked.filter (· != name) }
      if mode.isLast && !p.hasTraps then become run path words
      else
        return (← inForeground run (become run path words)).status

/-- Carries out a simple command. -/
def simple (run : Runner) (mode : Mode) (line : Nat) (words assignments : List Word)
    (redirects : List Redirect) : Act Nat := do
  let capture := captured run
  setLine line
  modify fun p => { p with outputStatus := 0 }
  let call ← Call.ofWords capture words
  let isExec := call.words.head? = some "exec"
  let isSpecial := call.standing.any (·.isSpecial)
  let frames := (← get).frames.length
  if call.isLocal then pushFrame
  let targets ← Redirection.expand capture redirects
  let before ← get
  let body : Act Nat := do
    if ← Redirection.attempt capture targets then
      let texts ← assignAll run call.isLocal (isExec && 1 < call.words.length) assignments
      if (← get).has 'x' then trace run (before.fileOf? 2) (texts ++ call.fields)
      invoke run mode call
    else
      setStatus 2
      if isSpecial then throw .error
      return 2
  let status ← if isExec then body else Redirection.within before targets body
  popFrames frames
  return status

/-! ## Compound commands -/

/-- What has been left out after a round of a loop; a count of loops goes down by one. -/
def roundSkip : Act Skip := do
  let p ← get
  match p.skip with
  | .leave n => do
      set { p with skip := if n ≤ 1 then .nothing else .leave (n - 1) }
      return .leave 0
  | .again n => do
      set { p with skip := if n ≤ 1 then .nothing else .again (n - 1) }
      return if n ≤ 1 then .again 0 else .leave 0
  | s => return s

/-- Whether a loop goes on after a round. -/
def goesOn (s : Skip) : Bool :=
  match s with
  | .nothing | .again _ => true
  | _ => false

/-- Goes through a loop as long as its condition asks for it, at most `n` times. -/
def rounds (run : Runner) (mode : Mode) (isUntil : Bool) (condition body : Command) :
    Nat → Nat → Act Nat
  | 0, _ => throw .exhausted
  | n + 1, status => do
      let i ← run (.command { isTested := true } condition)
      match ← roundSkip with
      | .nothing =>
          if (i = 0) = isUntil then return status
          let status ← run (.command mode body)
          if goesOn (← roundSkip) then rounds run mode isUntil condition body n status
          else return status
      | s =>
          let status := if s = .back false then i else status
          if goesOn s then rounds run mode isUntil condition body n status else return status

/-- Goes through a loop once for each value. -/
def eachRound (run : Runner) (mode : Mode) (name : String) (body : Command) :
    List String → Nat → Act Nat
  | [], status => return status
  | value :: values, _ => do
      assign name value
      let status ← run (.command mode body)
      if goesOn (← roundSkip) then eachRound run mode name body values status
      else return status

/-- Does something inside a loop. -/
def inLoop (act : Act Nat) : Act Nat := do
  modify fun p => { p with loops := p.loops + 1 }
  let status ← act
  modify fun p => { p with loops := p.loops - 1 }
  return status

/-- Whether one of the patterns that words write stands for a text. -/
def fitsAny (capture : Capture) (text : List Char) : List Word → Act Bool
  | [] => return false
  | w :: rest => do
      if (← Expansion.pattern capture w).fits text then return true
      else fitsAny capture text rest

/-- Carries out the body of the first case that fits a text. -/
def choose (run : Runner) (mode : Mode) (text : List Char) :
    List (List Word × Option Command) → Act Nat
  | [] => return 0
  | (patterns, body) :: rest => do
      if ← fitsAny (captured run) text patterns then
        match body with
        | some c => run (.command mode c)
        | none => return 0
      else choose run mode text rest

/-- Carries out a command in a process of its own, under redirections. -/
def subshell (run : Runner) (mode : Mode) (body : Command) (targets : List Target) : Act Unit := do
  Redirection.make (captured run) targets
  perform run { mode with isLast := true } body

/-- Carries out the commands of a pipeline, each with the output of the one before as its input.
Gives how they have ended, the last one first. -/
def stages (run : Runner) (mode : Mode) :
    List Command → Option Nat → List Ending → Act (List Ending)
  | [], _, endings => return endings
  | c :: rest, input, endings => do
      let output ← if rest.isEmpty then pure none else do
        pure (some (← Redirection.hold (Redirection.fresh .pipe true true false)))
      let ending ← forkAside (toEnd run do
        if input.isSome then modify (·.point 0 input)
        if output.isSome then modify (·.point 1 output)
        perform run { mode with isLast := true } c)
      match output with
      | some i => awaitRelease run i
      | none => pure ()
      stages run mode rest output (ending :: endings)

/-- Carries out a pipeline. -/
def pipeline (run : Runner) (mode : Mode) (commands : List Command) : Act Nat := do
  let _ ← Jobs.takePlace
  wakeDue run
  let endings ← stages run mode commands none []
  receiveSent
  receive childSignal
  wakeDue run
  Jobs.learn
  for e in endings.reverse do tellEnding e
  return (endings.head?.map (·.status)).getD 0

/-- Carries out a command with its parts; a strict script cares for the failure of some commands.
Gives the status, and whether it is one to care for. -/
def parts (run : Runner) (mode : Mode) (c : Command) : Act (Option Nat × Bool) := do
  let inner : Mode := { mode with isLast := false }
  let plain (act : Act Nat) : Act (Option Nat × Bool) := do return (some (← act), false)
  let checked (act : Act Nat) : Act (Option Nat × Bool) := do return (some (← act), !mode.isTested)
  let second (status : Nat) (takes : Bool) (b : Command) : Act (Option Nat × Bool) := do
    if !takes || (← get).skip ≠ .nothing then
      setStatus status
      return (none, false)
    else plain (run (.command mode b))
  match c with
  | .simple line words assignments redirects =>
      checked (simple run mode line words assignments redirects)
  | .pipeline commands false => checked (pipeline run mode commands)
  | .pipeline commands true => checked do
      startBeside run commands.length (.pipeline commands false) []
      return 0
  | .redirected line body redirects => do
      setLine line
      let targets ← Redirection.expand (captured run) redirects
      let before ← get
      Redirection.within before targets do
        if ← Redirection.attempt (captured run) targets then plain (run (.command inner body))
        else return (some 2, !mode.isTested)
  | .background line body redirects => checked do
      setLine line
      startBeside run 1 body (← Redirection.expand (captured run) redirects)
      return 0
  | .subshell line body redirects => checked do
      setLine line
      let targets ← Redirection.expand (captured run) redirects
      if mode.isLast && !(← get).hasTraps then
        subshell run mode body targets
        throw .finish
      else
        return (← inForeground run (toEnd run (subshell run mode body targets))).status
  | .both a b => do
      let status ← run (.command { isTested := true } a)
      second status (status = 0) b
  | .either a b => do
      let status ← run (.command { isTested := true } a)
      second status (status ≠ 0) b
  | .sequence a b => do
      let status ← run (.command inner a)
      second status true b
  | .negation c => plain do
      let status ← run (.command { isTested := true } c)
      if (← get).skip ≠ .nothing then return status
      return if status = 0 then 1 else 0
  | .branch condition body otherwise => do
      let status ← run (.command { isTested := true } condition)
      match status, otherwise with
      | 0, _ => second status true body
      | _, some c => second status true c
      | _, none =>
          if (← get).skip = .nothing then return (some 0, false) else second status false body
  | .loop isUntil condition body => plain do
      inLoop (rounds run inner isUntil condition body 1000000 0)
  | .each line name words body => plain do
      setLine line
      let fields ← words.mapM (Expansion.fields (captured run))
      inLoop (eachRound run inner name body fields.flatten 0)
  | .choice line subject cases => plain do
      setLine line
      let text ← Expansion.text (captured run) subject
      choose run mode text.toList cases
  | .define name body => plain do
      modify fun p => { p with functions := (name, body) :: p.functions.filter (·.1 != name) }
      return 0

/-- Carries out a command. -/
def command (run : Runner) (mode : Mode) (c : Command) : Act Nat := do
  let (status, isChecked) ← if (← get).has 'n' then pure (none, false) else do
    runTraps run
    let result ← parts run mode c
    match result.1 with
    | some status => setStatus status
    | none => pure ()
    pure result
  runTraps run
  let p ← get
  if p.has 'e' && isChecked && status.any fun n => n != 0 then throw .finish
  if mode.isLast then throw .finish
  return p.status

/-- Carries out a task by means of a runner for smaller ones. -/
def step (run : Runner) : Task → Act Nat
  | .command mode c => command run mode c
  | .script isTested isFile text => script run isTested isFile text

/-- Carries out tasks; the fuel bounds how deep they nest. -/
def runner : Nat → Runner
  | 0, _ => throw .exhausted
  | fuel + 1, task => step (runner fuel) task

/-- How deep tasks may nest. -/
def plenty : Nat := 20000

/-- Carries out a program, as a process that starts: the file of the program, its name as it is
called, and its arguments. -/
def start (path name : String) (arguments : List String) : Act (Except FileError Unit) := do
  let run := runner plenty
  let outcome : Except Stop (Except FileError Nat) ←
    tryCatch (do return .ok (← launch run maxInterpreters path name arguments)) fun stop =>
      return .error stop
  awaitOutput run
  match outcome with
  | .ok (.ok status) => do
      setStatus status
      return .ok ()
  | .ok (.error e) => return .error e
  | .error stop => throw stop

end Playground.Shell.Eval
