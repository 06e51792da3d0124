import Playground.Shell.Lookup
import Playground.Shell.Options
/-!
Commands of the shell about names of commands: aliases, and what a name stands for.
-/

namespace Playground.Shell.Builtins

/-- Does something for each argument. Gives the last status that is not 0. -/
def forAll (act : String → Act Nat) : List String → Act Nat
  | [] => return 0
  | a :: rest => do
      let status ← act a
      let later ← forAll act rest
      return if later = 0 then status else later

/-- The key by which aliases are listed. -/
def aliasKey (name : String) : Nat :=
  let codes := name.toList.map Char.toNat
  (codes.headD 0 * 16 + codes.foldl (· + ·) 0) % 39

/-- The line that shows an alias. -/
def aliasLine (entry : String × String) : String :=
  entry.1 ++ "=" ++ quoted entry.2 ++ "\n"

/-- Defines aliases, and shows them. -/
def alias_ (arguments : List String) : Act Nat := do
  if arguments.isEmpty then
    let entries := (← get).aliases.reverse.mergeSort fun a b => aliasKey a.1 ≤ aliasKey b.1
    print (String.join (entries.map aliasLine))
    return 0
  else forAll (fun a => do
    let cs := a.toList
    let name := cs.take 1 ++ (cs.drop 1).takeWhile (· != '=')
    if name.length < cs.length then
      let name := String.ofList name
      let value := String.ofList (cs.drop (name.length + 1))
      modify fun p =>
        if (p.aliases.lookup name).isSome then
          { p with aliases := p.aliases.map fun x => if x.1 == name then (name, value) else x }
        else { p with aliases := (name, value) :: p.aliases }
      return 0
    else
      match (← get).aliases.lookup a with
      | some value => do
          print (aliasLine (a, value))
          return 0
      | none => do
          writeTo 2 ("alias: " ++ a ++ " not found\n")
          return 1) arguments

/-- Takes aliases away. -/
def unalias (arguments : List String) : Act Nat := do
  let (options, names) ← Options.ofCommand "a" arguments
  if !options.isEmpty then
    modify fun p => { p with aliases := [] }
    return 0
  else forAll (fun name => do
    if ((← get).aliases.lookup name).isSome then
      modify fun p => { p with aliases := p.aliases.filter (·.1 != name) }
      return 0
    else
      writeTo 2 ("unalias: " ++ name ++ " not found\n")
      return 1) names

/-- Says what names are. -/
def type (arguments : List String) : Act Nat :=
  forAll (describe true none) arguments

/-- Says what a name is, as options ask for. -/
def command (arguments : List String) : Act Nat := do
  let (options, names) ← Options.ofCommand "pvV" arguments
  let has (c : Char) : Bool := options.any (·.1 == c)
  match names.head? with
  | some name =>
      if has 'v' || has 'V' then
        describe (has 'V') (if has 'p' then some standardPath else none) name
      else return 0
  | none => return 0

/-- Notes where programs are, and lists them. -/
def hash (arguments : List String) : Act Nat := do
  let (options, names) ← Options.ofCommand "r" arguments
  if !options.isEmpty then
    modify fun p => { p with tracked := [] }
    return 0
  else if names.isEmpty then
    let p ← get
    let files := p.tracked.filterMap (locate? p.world.tree (searchPath p))
    print (String.join (files.map (· ++ "\n")))
    return 0
  else forAll (fun name => do
    let p ← get
    match meaning p false (searchPath p) name with
    | .unknown => do
        warn (name ++ ": not found")
        return 1
    | .program _ => do
        if !name.toList.contains '/' then
          set { p with tracked := name :: p.tracked.filter (· != name) }
        return 0
    | _ => return 0) names

end Playground.Shell.Builtins
