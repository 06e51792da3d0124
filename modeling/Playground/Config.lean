import Playground.Package.Config
import Playground.Toml.Range
import Playground.Toml.Reader
/-!
The configuration of a server, as a TOML document: a default timeout, the number of programs that
may run at a time, and the packages. Unknown keys are errors.
-/

namespace Playground

/-- The configuration of a server. -/
structure Config where
  defaultTimeoutMs : Nat
  maxConcurrentRuns : Nat
  packages : List PackageConfig
deriving DecidableEq, Repr

/-- Why a configuration cannot be had. -/
inductive ConfigError where
  | read (path : Path) (e : FileError)
  | parse
deriving DecidableEq, Repr

namespace Config

/-- The configuration that says nothing. -/
def standard : Config :=
  ⟨15000, 4, []⟩

/-- The values of the given keys. A table must not have other keys; an array gives the values in
the order of the keys. -/
def fields? (keys : List String) : Toml → Option (List (Option Toml))
  | .table _ entries =>
      if entries.all fun e => keys.contains e.1 then some (keys.map (Toml.lookup · entries))
      else none
  | .arr _ items => some (keys.zipIdx.map fun (_, i) => items[i]?)
  | _ => none

/-- An integer of 64 bits without sign. -/
def uint? : Toml → Option Nat
  | .int n => if 0 ≤ n ∧ n ≤ Int.ofNat Json.maxUInt then some n.toNat else none
  | _ => none

/-- A text. -/
def str? : Toml → Option String
  | .str s => some s
  | _ => none

/-- A list of items of one kind. -/
def list? {α : Type} (item : Toml → Option α) : Toml → Option (List α)
  | .arr _ items => items.mapM item
  | _ => none

/-- A value that may be missing. -/
def defaulted {α : Type} (read : Toml → Option α) (missing : α) : Option Toml → Option α
  | some v => read v
  | none => some missing

/-- A choice about rebuilding: a table with the throttle, whatever else it has as long as that can
be read, or the word `never`. -/
def rebuild? (v : Toml) : Option RebuildChoice :=
  if v.isReadable then
    match v with
    | .table _ entries => ((Toml.lookup "throttle_ms" entries).bind uint?).map .throttled
    | .str s => if s = "never" then some .never else none
    | _ => none
  else none

/-- A package. -/
def package? (v : Toml) : Option PackageConfig := do
  let [name, directory, buildCommand, entryPoint, buildTimeoutSecs, rebuild] ←
    fields? ["name", "directory", "build_command", "entry_point", "build_timeout_secs", "rebuild"] v
    | none
  return {
    name := ← str? (← name)
    directory := ← str? (← directory)
    buildCommand := ← list? str? (← buildCommand)
    entryPoint := ← str? (← entryPoint)
    buildTimeoutSecs := ← defaulted uint? PackageConfig.standardTimeoutSecs buildTimeoutSecs
    rebuild := ← defaulted rebuild? .standard rebuild }

/-- The configuration that a document describes. -/
def ofToml? (entries : Toml.Entries) : Option Config := do
  let [defaultTimeoutMs, maxConcurrentRuns, packages] ←
    fields? ["default_timeout_ms", "max_concurrent_runs", "packages"] (.table .headed entries)
    | none
  return {
    defaultTimeoutMs := ← defaulted uint? standard.defaultTimeoutMs defaultTimeoutMs
    maxConcurrentRuns := ← defaulted uint? standard.maxConcurrentRuns maxConcurrentRuns
    packages := ← defaulted (list? package?) [] packages }

/-- Reads a configuration. -/
def parse (text : String) : Except ConfigError Config :=
  match (Toml.parse? text).bind ofToml? with
  | some c => .ok c
  | none => .error .parse

/-- Reads the configuration in a file. -/
def load (t : FileTree) (path : Path) : Except ConfigError Config :=
  match t.read path with
  | .error e => .error (.read path e)
  | .ok bytes =>
      match Text.Utf8.decode? bytes with
      | some cs => parse (String.ofList cs)
      | none => .error (.read path .notUtf8)

/-- A budget for a request that comes now. -/
def requestBudget (c : Config) (now : Instant) : Budget :=
  .withTimeout now (Clock.millis c.defaultTimeoutMs)

end Config

/-- The wording of a failure. -/
def ConfigError.message : ConfigError → String
  | read path e => "failed to read " ++ path ++ ": " ++ e.message
  | parse => "failed to parse configuration"

end Playground
