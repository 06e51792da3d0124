/-!
TOML values, and the tables that a document builds up. A table remembers how it was written, because
that decides what may still be added to it.
-/

namespace Playground

/-- How a table came to be. -/
inductive Toml.Origin where
  /-- In braces; nothing may be added. -/
  | inlined
  /-- On the way to a table with a header of its own. -/
  | implied
  /-- By a dotted key. -/
  | dotted
  /-- By its own header. -/
  | headed
deriving DecidableEq, Repr

/-- A TOML value. Floats and times keep their spelling. -/
inductive Toml where
  | str (s : String)
  | int (n : Int)
  /-- A word with the looks of an integer that is none. Only who reads it finds that out. -/
  | misspelt (literal : String)
  | float (literal : String)
  | bool (b : Bool)
  | time (literal : String)
  /-- An array; one that was written as a sequence of headed tables may be added to. -/
  | arr (headed : Bool) (items : List Toml)
  | table (origin : Toml.Origin) (entries : List (String × Toml))
deriving Inhabited, Repr

namespace Toml

/-- The entries of a table, in the order of their definition. -/
abbrev Entries := List (String × Toml)

/-- The value of a key. -/
def lookup (key : String) (t : Entries) : Option Toml :=
  (t.find? (·.1 == key)).map (·.2)

/-- Gives an existing key another value. -/
def replace (key : String) (v : Toml) (t : Entries) : Entries :=
  t.map fun e => if e.1 == key then (key, v) else e

/-- Defines the key that a dotted path leads to. Tables on the way are made or, if they have neither
braces nor a header of their own, added to; they cannot get a header any more. A sequence of headed
tables leads to its last one, which gets no key itself. -/
def define : List String → Toml → Entries → Option Entries
  | [], _, _ => none
  | [key], v, t => if (lookup key t).isNone then some (t ++ [(key, v)]) else none
  | key :: path, v, t =>
      match lookup key t with
      | none => do return t ++ [(key, .table .dotted (← define path v []))]
      | some (.table origin sub) =>
          if origin = .dotted ∨ origin = .implied then do
            return replace key (.table .dotted (← define path v sub)) t
          else none
      | some (.arr true items) =>
          match items.getLast? with
          | some (.table origin sub) =>
              if path.length > 1 then do
                let last := .table origin (← define path v sub)
                return replace key (.arr true (items.dropLast ++ [last])) t
              else none
          | _ => none
      | some _ => none

/-- Changes the table that a path of header keys leads to. Missing tables on the way are made; a
sequence of headed tables leads to its last one. -/
def changeAt (change : Entries → Option Entries) : List String → Entries → Option Entries
  | [], t => change t
  | key :: path, t =>
      match lookup key t with
      | none => do return t ++ [(key, .table .implied (← changeAt change path []))]
      | some (.table origin sub) =>
          if origin = .inlined then none
          else do return replace key (.table origin (← changeAt change path sub)) t
      | some (.arr true items) =>
          match items.getLast? with
          | some (.table origin sub) => do
              let last := .table origin (← changeAt change path sub)
              return replace key (.arr true (items.dropLast ++ [last])) t
          | _ => none
      | some _ => none

/-- Opens the table with a header. -/
def openTable (key : String) (t : Entries) : Option Entries :=
  match lookup key t with
  | none => some (t ++ [(key, .table .headed [])])
  | some (.table .implied sub) => some (replace key (.table .headed sub) t)
  | some _ => none

/-- Opens one more table of a sequence of headed tables. -/
def openNext (key : String) (t : Entries) : Option Entries :=
  match lookup key t with
  | none => some (t ++ [(key, .arr true [.table .headed []])])
  | some (.arr true items) => some (replace key (.arr true (items ++ [.table .headed []])) t)
  | some _ => none

/-- One statement of a document. -/
inductive Statement where
  | table (path : List String) (key : String)
  | next (path : List String) (key : String)
  | pair (path : List String) (v : Toml)
deriving Repr

/-- A document as far as it has been built, and the table that pairs go to. -/
structure Draft where
  root : Entries
  current : List String
deriving Repr

/-- Carries out a statement. -/
def Draft.add (d : Draft) : Statement → Option Draft
  | .table path key => do return ⟨← changeAt (openTable key) path d.root, path ++ [key]⟩
  | .next path key => do return ⟨← changeAt (openNext key) path d.root, path ++ [key]⟩
  | .pair path v => do return ⟨← changeAt (define path v) d.current d.root, d.current⟩

/-- The root table of a document. -/
def ofStatements? (statements : List Statement) : Option Entries := do
  let d ← statements.foldlM Draft.add ⟨[], []⟩
  return d.root

end Toml

end Playground
