import Playground.Json.Basic
/-!
Reading JSON text. The grammar is strict: no comments, no trailing commas, no leading zeros, no raw
control characters in strings, nothing but white space after the value.
-/

namespace Playground.Json

/-- Drops the white space that may stand between tokens. -/
def skipSpace (cs : List Char) : List Char :=
  cs.dropWhile fun c => c == ' ' || c == '\n' || c == '\t' || c == '\r'

/-- Value of a hexadecimal digit. -/
def hexVal? (c : Char) : Option Nat :=
  if '0' ≤ c ∧ c ≤ '9' then some (c.toNat - '0'.toNat)
  else if 'a' ≤ c ∧ c ≤ 'f' then some (c.toNat - 'a'.toNat + 10)
  else if 'A' ≤ c ∧ c ≤ 'F' then some (c.toNat - 'A'.toNat + 10)
  else none

/-- Value of four hexadecimal digits. -/
def hex4? (a b c d : Char) : Option Nat := do
  return (((← hexVal? a) * 16 + (← hexVal? b)) * 16 + (← hexVal? c)) * 16 + (← hexVal? d)

/-- A part of a string literal: a character, or the UTF-16 unit of a numeric escape. -/
inductive StringPart where
  | char (c : Char)
  | unit (n : Nat)
deriving Repr

/-- The character that a backslash followed by `c` stands for. -/
def simpleEscape? : Char → Option Char
  | '"' => some '"'
  | '\\' => some '\\'
  | '/' => some '/'
  | 'b' => some '\x08'
  | 'f' => some '\x0c'
  | 'n' => some '\n'
  | 'r' => some '\r'
  | 't' => some '\t'
  | _ => none

/-- Reads the parts of a string literal up to its closing quote. -/
def stringParts (parts : List StringPart) : List Char → Option (List StringPart × List Char)
  | [] => none
  | '"' :: rest => some (parts.reverse, rest)
  | '\\' :: 'u' :: a :: b :: c :: d :: rest =>
      match hex4? a b c d with
      | some n => stringParts (.unit n :: parts) rest
      | none => none
  | '\\' :: c :: rest =>
      match simpleEscape? c with
      | some e => stringParts (.char e :: parts) rest
      | none => none
  | c :: rest =>
      if c = '\\' ∨ c.toNat < 0x20 then none else stringParts (.char c :: parts) rest

/-- Joins the parts of a string literal. A high surrogate needs a low one right after it, and a low
one a high one right before it. -/
def joinParts (text : List Char) : List StringPart → Option (List Char)
  | [] => some text.reverse
  | .char c :: rest => joinParts (c :: text) rest
  | .unit high :: .unit low :: rest =>
      if 0xD800 ≤ high ∧ high < 0xDC00 then
        if 0xDC00 ≤ low ∧ low < 0xE000 then
          joinParts (Char.ofNat (0x10000 + (high - 0xD800) * 0x400 + (low - 0xDC00)) :: text) rest
        else none
      else if 0xDC00 ≤ high ∧ high < 0xE000 then none
      else joinParts (Char.ofNat high :: text) (.unit low :: rest)
  | .unit n :: rest =>
      if 0xD800 ≤ n ∧ n < 0xE000 then none else joinParts (Char.ofNat n :: text) rest

/-- Reads the rest of a string literal after its opening quote. The text is missing when the literal
holds an unpaired surrogate. -/
def stringRest (cs : List Char) : Option (Option String × List Char) := do
  let (parts, rest) ← stringParts [] cs
  return ((joinParts [] parts).map String.ofList, rest)

/-- Splits off a leading run of decimal digits. -/
def digitRun (cs : List Char) : List Char × List Char :=
  cs.span Char.isDigit

/-- Reads an optional fraction. -/
def fraction? : List Char → Option (List Char × List Char)
  | '.' :: cs =>
      match digitRun cs with
      | ([], _) => none
      | (ds, rest) => some ('.' :: ds, rest)
  | cs => some ([], cs)

/-- Reads an optional exponent. -/
def exponent? : List Char → Option (List Char × List Char)
  | e :: cs =>
      if e = 'e' ∨ e = 'E' then
        let (sign, cs) := match cs with
          | '+' :: cs => (['+'], cs)
          | '-' :: cs => (['-'], cs)
          | cs => ([], cs)
        match digitRun cs with
        | ([], _) => none
        | (ds, rest) => some (e :: sign ++ ds, rest)
      else some ([], e :: cs)
  | [] => some ([], [])

/-- Reads the unsigned part of a number. -/
def unsignedNumber? (cs : List Char) : Option (List Char × List Char) :=
  match digitRun cs with
  | ([], _) => none
  | ('0' :: _ :: _, _) => none
  | (ds, rest) => do
      let (frac, rest) ← fraction? rest
      let (exp, rest) ← exponent? rest
      return (ds ++ frac ++ exp, rest)

/-- Reads a number, keeping its spelling. -/
def number? : List Char → Option (Json × List Char)
  | '-' :: cs => (unsignedNumber? cs).map fun r => (.num (String.ofList ('-' :: r.1)), r.2)
  | cs => (unsignedNumber? cs).map fun r => (.num (String.ofList r.1), r.2)

mutual

/-- Reads one value. -/
def value? : Nat → List Char → Option (Json × List Char)
  | 0, _ => none
  | fuel + 1, cs =>
      match skipSpace cs with
      | '{' :: rest =>
          match skipSpace rest with
          | '}' :: rest => some (.obj [], rest)
          | rest => members? fuel [] rest
      | '[' :: rest =>
          match skipSpace rest with
          | ']' :: rest => some (.arr [], rest)
          | rest => items? fuel [] rest
      | '"' :: rest =>
          match stringRest rest with
          | some (some s, rest) => some (.str s, rest)
          | some (none, rest) => some (.garbled, rest)
          | none => none
      | 'n' :: 'u' :: 'l' :: 'l' :: rest => some (.null, rest)
      | 't' :: 'r' :: 'u' :: 'e' :: rest => some (.bool true, rest)
      | 'f' :: 'a' :: 'l' :: 's' :: 'e' :: rest => some (.bool false, rest)
      | rest => number? rest

/-- Reads the items of an array, of which `seen` are read already, last one first. -/
def items? : Nat → List Json → List Char → Option (Json × List Char)
  | 0, _, _ => none
  | fuel + 1, seen, cs =>
      match value? fuel cs with
      | none => none
      | some (item, rest) =>
          match skipSpace rest with
          | ',' :: rest => items? fuel (item :: seen) rest
          | ']' :: rest => some (.arr (item :: seen).reverse, rest)
          | _ => none

/-- Reads the members of an object, of which `seen` are read already, last one first. -/
def members? : Nat → List (Option String × Json) → List Char → Option (Json × List Char)
  | 0, _, _ => none
  | fuel + 1, seen, cs =>
      match skipSpace cs with
      | '"' :: rest =>
          match stringRest rest with
          | none => none
          | some (name, rest) =>
              match skipSpace rest with
              | ':' :: rest =>
                  match value? fuel rest with
                  | none => none
                  | some (item, rest) =>
                      match skipSpace rest with
                      | ',' :: rest => members? fuel ((name, item) :: seen) rest
                      | '}' :: rest => some (.obj ((name, item) :: seen).reverse, rest)
                      | _ => none
              | _ => none
      | _ => none

end

/-- Reads a text that holds exactly one value. Every nested call has at least one character less to
read, so the length of the text bounds the depth. -/
def parse? (cs : List Char) : Option Json :=
  match value? (cs.length + 1) cs with
  | some (item, rest) => if skipSpace rest = [] then some item else none
  | none => none

end Playground.Json
