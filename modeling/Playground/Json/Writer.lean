import Playground.Json.Basic
/-!
Writing JSON text. The compact form has no white space; the indented form puts every member on a
line of its own, two spaces deeper than its object.
-/

namespace Playground.Json

/-- A hexadecimal digit. -/
def hexDigit (n : Nat) : Char :=
  if n < 10 then Char.ofNat ('0'.toNat + n) else Char.ofNat ('a'.toNat + (n - 10))

/-- The written form of one character inside a string literal. -/
def escape (c : Char) : List Char :=
  if c = '"' then ['\\', '"']
  else if c = '\\' then ['\\', '\\']
  else if c.toNat < 0x20 then
    ['\\', 'u', '0', '0', hexDigit (c.toNat / 16), hexDigit (c.toNat % 16)]
  else [c]

/-- The literal of a string. -/
def quote (s : String) : String :=
  String.ofList ('"' :: s.toList.flatMap escape ++ ['"'])

/-- The literal of a member name. A name without text is written as an unpaired surrogate. -/
def quoteName : Option String → String
  | some s => quote s
  | none => "\"\\ud800\""

mutual

/-- The text of a value, without white space. -/
def render : Json → String
  | .null => "null"
  | .bool b => if b then "true" else "false"
  | .num literal => literal
  | .str s => quote s
  | .garbled => quoteName none
  | .arr items => "[" ++ renderItems items ++ "]"
  | .obj members => "\x7b" ++ renderMembers members ++ "\x7d"

/-- The items of an array, separated by commas. -/
def renderItems : List Json → String
  | [] => ""
  | [item] => render item
  | item :: items => render item ++ "," ++ renderItems items

/-- The members of an object, separated by commas. -/
def renderMembers : List (Option String × Json) → String
  | [] => ""
  | [(name, item)] => quoteName name ++ ":" ++ render item
  | (name, item) :: members =>
      quoteName name ++ ":" ++ render item ++ "," ++ renderMembers members

end

/-- An object of scalars with every member on a line of its own. -/
def renderIndented (members : List (String × Json)) : String :=
  "\x7b\n" ++ ",\n".intercalate (members.map fun m => "  " ++ quote m.1 ++ ": " ++ render m.2)
    ++ "\n\x7d"

end Playground.Json
