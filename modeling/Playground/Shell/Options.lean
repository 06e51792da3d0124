import Playground.Shell.Process
/-!
Options: those of the shell itself, which scripts set and unset, and those that its commands take.
-/

namespace Playground.Shell.Options

/-- The options of the shell: their names and letters. The last two have no letter that a script
could use. -/
def table : List (String × Char) :=
  [("errexit", 'e'), ("noglob", 'f'), ("ignoreeof", 'I'), ("interactive", 'i'), ("monitor", 'm'),
    ("noexec", 'n'), ("stdin", 's'), ("xtrace", 'x'), ("verbose", 'v'), ("vi", 'V'),
    ("emacs", 'E'), ("noclobber", 'C'), ("allexport", 'a'), ("notify", 'b'), ("nounset", 'u'),
    ("privileged", 'p'), ("nolog", '\x01'), ("debug", '\x02')]

/-- The letters of the options that are set. -/
def shown (p : Process) : String :=
  String.ofList ((table.reverse.map (·.2)).filter fun c => p.has c && c.isAlpha)

/-- Sets or unsets an option. -/
def put (letter : Char) (isOn : Bool) (p : Process) : Process :=
  let others := p.options.filter fun c => c != letter
  let others :=
    if isOn && letter == 'V' then others.filter (· != 'E')
    else if isOn && letter == 'E' then others.filter (· != 'V')
    else others
  { p with options := if isOn then letter :: others else others }

/-- Sets or unsets the option with a letter. -/
def setLetter (letter : Char) (isOn : Bool) : Act Unit := do
  if table.any fun entry => entry.2 == letter && letter.isAlpha then
    if letter = 'm' && isOn then warn "can't access tty; job control turned off"
    else modify (put letter isOn)
  else fail ("Illegal option -" ++ letter.toString)

/-- Sets or unsets the option with a name. -/
def setName (name : String) (isOn : Bool) : Act Unit := do
  match table.lookup name with
  | some letter =>
      if letter = 'm' && isOn then warn "can't access tty; job control turned off"
      else modify (put letter isOn)
  | none => fail ("Illegal option -o " ++ name)

/-- Prints all options, as a table or as commands that set them. -/
def list (asTable : Bool) : Act Unit := do
  let p ← get
  let rows := table.map fun (name, letter) =>
    if asTable then
      name ++ String.ofList (List.replicate (16 - name.length) ' ') ++
        (if p.has letter then "on" else "off") ++ "\n"
    else "set " ++ (if p.has letter then "-o " else "+o ") ++ name ++ "\n"
  print (String.join ((if asTable then ["Current option settings\n"] else []) ++ rows))

/-- What the arguments of a shell, or of the command that sets options, come to. -/
structure Parsed where
  rest : List String
  /-- A script is to be read from the first of the rest. -/
  hasScript : Bool
  /-- The rest are the new arguments of the shell. -/
  endsExplicitly : Bool

/-- Carries out the letters of one argument; gives the arguments that are left, and whether a script
is to come. -/
def letters (isStart isOn : Bool) : List Char → List String → Bool → Act (List String × Bool)
  | [], rest, hasScript => return (rest, hasScript)
  | c :: cs, rest, hasScript => do
      if c = 'c' && isStart then letters isStart isOn cs rest true
      else if c = 'l' && isStart then letters isStart isOn cs rest hasScript
      else if c = 'o' then
        match rest with
        | name :: rest => do
            setName name isOn
            letters isStart isOn cs rest hasScript
        | [] => do
            list isOn
            letters isStart isOn cs [] hasScript
      else
        setLetter c isOn
        letters isStart isOn cs rest hasScript

/-- Carries out the options in front of arguments, of which there are at most `n`; `isStart` says
that they are those of a shell that starts. -/
def parse (isStart : Bool) : Nat → List String → Bool → Act Parsed
  | 0, arguments, hasScript => return ⟨arguments, hasScript, false⟩
  | _ + 1, [], hasScript => return ⟨[], hasScript, false⟩
  | n + 1, argument :: rest, hasScript => do
      match argument.toList with
      | '-' :: cs =>
          if cs = [] ∨ cs = ['-'] then
            if !isStart && cs.isEmpty then
              modify fun p => put 'x' false (put 'v' false p)
            return ⟨rest, hasScript, cs = ['-']⟩
          else
            let (rest, hasScript) ← letters isStart true cs rest hasScript
            parse isStart n rest hasScript
      | '+' :: cs => do
          let (rest, hasScript) ← letters isStart false cs rest hasScript
          parse isStart n rest hasScript
      | _ => return ⟨argument :: rest, hasScript, false⟩

/-! ## Options of commands -/

/-- What a specification of options says of a letter: nothing, or whether it has an argument. -/
def takes? (specification : List Char) (c : Char) : Option Bool :=
  match specification.dropWhile (· != c) with
  | [] => none
  | _ :: rest => if c == ':' then none else some (rest.head? == some ':')

/-- Takes the letters of one argument; gives them, with their arguments, and the arguments left. -/
def taken (specification : List Char) :
    List Char → List String → Act (List (Char × String) × List String)
  | [], rest => return ([], rest)
  | c :: cs, rest => do
      match takes? specification c with
      | none => fail ("Illegal option -" ++ c.toString)
      | some false => do
          let (options, rest) ← taken specification cs rest
          return ((c, "") :: options, rest)
      | some true =>
          if !cs.isEmpty then return ([(c, String.ofList cs)], rest)
          else match rest with
            | a :: rest => return ([(c, a)], rest)
            | [] => fail ("No arg for -" ++ c.toString ++ " option")

/-- The options in front of arguments, of which there are at most `n`, and the arguments after
them. -/
def take (specification : String) :
    Nat → List String → Act (List (Char × String) × List String)
  | 0, arguments => return ([], arguments)
  | n + 1, arguments => do
      match arguments with
      | [] => return ([], [])
      | a :: rest =>
          match a.toList with
          | '-' :: c :: cs =>
              if c = '-' ∧ cs = [] then return ([], rest)
              let (options, rest) ← taken specification.toList (c :: cs) rest
              let (more, rest) ← take specification n rest
              return (options ++ more, rest)
          | _ => return ([], arguments)

/-- The options in front of the arguments of a command, and the other arguments. -/
def ofCommand (specification : String) (arguments : List String) :
    Act (List (Char × String) × List String) :=
  take specification (arguments.length + 1) arguments

end Playground.Shell.Options
