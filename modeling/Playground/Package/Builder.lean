import Playground.Clock
import Playground.Files.Action
/-!
Builders. Each call of a builder is given its number and the package directory, and determines how
long the build takes and what it does to the file tree in the end.
-/

namespace Playground

/-- What a builder's call comes to. -/
inductive BuildResult where
  /-- The path of the entry point. -/
  | built (entryPoint : Path)
  | failed (reason : String)
  /-- The call breaks off without a result. -/
  | broken
deriving DecidableEq, Repr

/-- One call of a builder. -/
structure Invocation where
  /-- How long the call takes; absent when it never ends. -/
  duration : Option Duration
  /-- What the call does when its time has passed. -/
  finish : FileTree → BuildResult × FileTree

/-- A builder: the answer to its calls, numbered from zero. -/
abbrev Builder := Nat → Path → Invocation

namespace Builder

/-- A planned answer of a scripted builder. -/
inductive ScriptEnd where
  | broken
  | failed (reason : String)
  /-- Gives the path without writing anything. -/
  | returned (path : Path)
  /-- Writes a file of that name below the directory. -/
  | wrote (entry : Path)
deriving DecidableEq, Repr

/-- One line of a scripted builder's part. -/
structure Script where
  delay : Duration
  result : ScriptEnd
deriving DecidableEq, Repr

/-- Carries out a planned answer. -/
def Script.perform (s : Script) (directory : Path) (t : FileTree) : BuildResult × FileTree :=
  match s.result with
  | .broken => (.broken, t)
  | .failed reason => (.failed reason, t)
  | .returned path => (.built path, t)
  | .wrote entry =>
      let path := directory.join entry
      match (FileAction.writeWithParents path "il".toUTF8.toList).run t with
      | (.ok (), t) => (.built path, t)
      | (.error e, t) => (.failed e.message, t)

/-- The builder that plays the given answers in turn and repeats the last one. -/
def scripted (scripts : List Script) : Builder := fun n directory =>
  match scripts[n]? <|> scripts.getLast? with
  | some s => ⟨some s.delay, s.perform directory⟩
  | none => ⟨some 0, fun t => (.failed "no script", t)⟩

end Builder

end Playground
