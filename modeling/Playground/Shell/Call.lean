import Playground.Shell.Lookup
import Playground.Shell.Redirection
/-!
Calls: the words of a simple command, expanded as far as the command itself asks for. The name
`command` in front takes the place of a prefix.
-/

namespace Playground.Shell

/-- A call that is being made of words. -/
structure Call where
  /-- All fields so far. -/
  fields : List String
  /-- How many of them are in front of the name of the command. -/
  skipped : Nat
  /-- The words that have not been expanded. -/
  rest : List Word
  /-- The standing of the first command of the shell that the fields name. -/
  standing : Option Standing
  /-- Whether the last one takes assignments. -/
  assigns : Bool
  /-- Whether functions do not count. -/
  isPlain : Bool
  /-- The search path, if it is not that of the script. -/
  path : Option String

namespace Call

/-- The name of the command and its arguments. -/
def words (c : Call) : List String :=
  c.fields.drop c.skipped

/-- Expands words until there is a field more. -/
def fill (capture : Capture) : List Word → Call → Act Call
  | [], c => return { c with rest := [] }
  | w :: rest, c => do
      let fields ← Expansion.fields capture w
      let c := { c with fields := c.fields ++ fields, rest }
      if fields.isEmpty then fill capture rest c else return c

/-- The call with at least `n` fields, if there are as many. -/
def reach? (capture : Capture) (n : Nat) (c : Call) : Act (Call × Option String) := do
  match c.fields[n]? with
  | some s => return (c, some s)
  | none => do
      let c ← fill capture c.rest c
      return (c, c.fields[n]?)

/-- Passes over the options of a prefix; `n` is the place of the next field. Gives the place of the
name behind them, unless they ask for something else than carrying it out. -/
def passOptions (capture : Capture) : Nat → Nat → Call → Act (Call × Option Nat)
  | 0, _, c => return (c, none)
  | fuel + 1, n, c => do
      let (c, field) ← reach? capture n c
      match field.map String.toList with
      | none => return (c, none)
      | some ('-' :: letter :: letters) =>
          if letter = '-' ∧ letters = [] then
            let (c, next) ← reach? capture (n + 1) c
            return (c, next.map fun _ => n + 1)
          else if (letter :: letters).all (· == 'p') then
            passOptions capture fuel (n + 1) { c with path := some standardPath }
          else return (c, none)
      | some _ => return (c, some n)

/-- Finds out what the fields name, past prefixes. -/
def resolve (capture : Capture) : Nat → Call → Act Call
  | 0, c => return c
  | fuel + 1, c => do
      let p ← get
      let name := c.words.headD ""
      match meaning p c.isPlain (searchPath p) name with
      | .builtin s =>
          let c := { c with standing := some (c.standing.getD s), assigns := s.assigns }
          if name ≠ "command" then return c
          let limit := c.fields.length + c.rest.length + 1
          match ← passOptions capture limit (c.skipped + 1) c with
          | (c', some n) => resolve capture fuel { c' with skipped := n, isPlain := true }
          | (c', none) => return { c' with path := c.path }
      | _ => return c

/-- Expands the words that are left. -/
def expandRest (capture : Capture) : List Word → Call → Act Call
  | [], c => return { c with rest := [] }
  | w :: rest, c => do
      let fields ←
        if c.assigns && w.isAssignment then do
          pure [← Expansion.assignment capture w]
        else Expansion.fields capture w
      expandRest capture rest { c with fields := c.fields ++ fields }

/-- The call that words make. -/
def ofWords (capture : Capture) (ws : List Word) : Act Call := do
  let c ← fill capture ws ⟨[], 0, ws, none, false, false, none⟩
  if c.fields.isEmpty then return c
  let c ← resolve capture (ws.length + c.fields.length + 1) c
  expandRest capture c.rest c

/-- Whether assignments in front of the call last no longer than it. -/
def isLocal (c : Call) : Bool :=
  !c.words.isEmpty && !(c.standing.any (·.isSpecial))

end Call

end Playground.Shell
