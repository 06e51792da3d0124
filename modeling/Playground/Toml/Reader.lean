import Playground.Toml.Scalar
/-!
Reading TOML documents. A document is a sequence of headers and pairs, each on lines of its own.
-/

namespace Playground.Toml

/-- Drops white space, line breaks and comments. -/
def skipGaps (comment : Bool) : List Char → List Char
  | [] => []
  | c :: rest =>
      if (afterBreak? (c :: rest)).isSome then skipGaps (comment && c == '\r') rest
      else if comment then if isPlain c then skipGaps true rest else c :: rest
      else if isBlank c then skipGaps false rest
      else if c == '#' then skipGaps true rest
      else c :: rest

/-- The text after the rest of a line, if that holds nothing but white space and a comment. -/
def afterLine? (cs : List Char) : Option (List Char) :=
  let rest := match cs.dropWhile isBlank with
    | '#' :: rest => rest.dropWhile isPlain
    | rest => rest
  if rest.isEmpty then some [] else afterBreak? rest

/-- Whether a character can be part of a key without quotes. -/
def isKeyChar (c : Char) : Bool :=
  c.isAlphanum || c == '_' || c == '-'

/-- Reads one key. -/
def key? (cs : List Char) : Option (String × List Char) :=
  match cs.takeWhile isKeyChar with
  | [] => shortString? cs
  | key => some (String.ofList key, cs.dropWhile isKeyChar)

/-- How many keys a path may have, and how deep arrays and tables in braces may lie in each
other. -/
def maxDepth : Nat := 80

/-- Reads up to `n` keys with points between them, after the white space in front. -/
def path? : Nat → List Char → Option (List String × List Char)
  | 0, _ => none
  | n + 1, cs => do
      let (key, rest) ← key? (cs.dropWhile isBlank)
      match rest.dropWhile isBlank with
      | '.' :: rest => do
          let (path, rest) ← path? n rest
          return (key :: path, rest)
      | rest => return ([key], rest)

mutual

/-- Reads a value, in which arrays and tables in braces may lie in each other `depth` deep. -/
def value? : Nat → Nat → List Char → Option (Toml × List Char)
  | 0, _, _ => none
  | fuel + 1, depth, cs =>
      match cs, depth with
      | '[' :: _, 0 => none
      | '\x7b' :: _, 0 => none
      | '[' :: rest, depth + 1 => items? fuel depth [] rest
      | '\x7b' :: rest, depth + 1 => pairs? fuel depth [] rest
      | '"' :: _, _ => do
          let (s, rest) ← string? cs
          return (.str s, rest)
      | '\'' :: _, _ => do
          let (s, rest) ← string? cs
          return (.str s, rest)
      | cs, _ => do
          let (word, rest) := splitWord cs
          return (← ofWord? word, rest)

/-- Reads the items of an array up to its end. -/
def items? : Nat → Nat → List Toml → List Char → Option (Toml × List Char)
  | 0, _, _, _ => none
  | fuel + 1, depth, items, cs =>
      match skipGaps false cs with
      | ']' :: rest => some (.arr false items.reverse, rest)
      | cs => do
          let (v, rest) ← value? fuel depth cs
          match skipGaps false rest with
          | ',' :: rest => items? fuel depth (v :: items) rest
          | ']' :: rest => return (.arr false (v :: items).reverse, rest)
          | _ => none

/-- Reads the pairs of a table in braces up to its end. Lines may break around the `=`. -/
def pairs? : Nat → Nat → Entries → List Char → Option (Toml × List Char)
  | 0, _, _, _ => none
  | fuel + 1, depth, t, cs =>
      match skipGaps false cs with
      | '\x7d' :: rest => some (.table .inlined t, rest)
      | cs => do
          let (path, rest) ← path? maxDepth cs
          match skipGaps false rest with
          | '=' :: rest => do
              let (v, rest) ← value? fuel depth (skipGaps false rest)
              let t ← define path v t
              match skipGaps false rest with
              | ',' :: rest => pairs? fuel depth t rest
              | '\x7d' :: rest => return (.table .inlined t, rest)
              | _ => none
          | _ => none

end

/-- A path of keys without its last one, and the last one. -/
def splitPath? (path : List String) : Option (List String × String) :=
  path.getLast?.map (path.dropLast, ·)

/-- Reads one statement, without the end of its line. -/
def statement? (fuel : Nat) (cs : List Char) : Option (Statement × List Char) :=
  match cs with
  | '[' :: '[' :: rest => do
      let (path, rest) ← path? maxDepth rest
      let (path, key) ← splitPath? path
      match rest with
      | ']' :: ']' :: rest => return (.next path key, rest)
      | _ => none
  | '[' :: rest => do
      let (path, rest) ← path? maxDepth rest
      let (path, key) ← splitPath? path
      match rest with
      | ']' :: rest => return (.table path key, rest)
      | _ => none
  | cs => do
      let (path, rest) ← path? maxDepth cs
      match rest with
      | '=' :: rest => do
          let (v, rest) ← value? fuel maxDepth (rest.dropWhile isBlank)
          return (.pair path v, rest)
      | _ => none

/-- Reads the statements of a document. -/
def statements? : Nat → List Char → Option (List Statement)
  | 0, _ => none
  | fuel + 1, cs =>
      match skipGaps false cs with
      | [] => some []
      | cs => do
          let (s, rest) ← statement? fuel cs
          return s :: (← statements? fuel (← afterLine? rest))

/-- The root table of a document. A byte order mark at its start does not count. -/
def parse? (text : String) : Option Entries :=
  let cs := match text.toList with
    | '\ufeff' :: rest => rest
    | cs => cs
  (statements? (2 * cs.length + 2) cs).bind ofStatements?

end Playground.Toml
