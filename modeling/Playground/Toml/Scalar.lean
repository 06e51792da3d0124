import Playground.Json.Reader
import Playground.Toml.Basic
/-!
Spellings of TOML strings, numbers, times and Booleans.
-/

namespace Playground.Toml

/-- Whether a character may stand in a comment or in a string of one line. -/
def isPlain (c : Char) : Bool :=
  c == '\t' || (0x20 ≤ c.toNat && c.toNat != 0x7F)

/-- White space within a line. -/
def isBlank (c : Char) : Bool :=
  c == ' ' || c == '\t'

/-- The text after a line break, if the text starts with one. -/
def afterBreak? : List Char → Option (List Char)
  | '\n' :: rest => some rest
  | '\r' :: '\n' :: rest => some rest
  | _ => none

/-! ## Strings -/

/-- The character with the number that hexadecimal digits write. -/
def scalar? (digits : List Char) : Option Char := do
  let n ← digits.foldlM (fun n d => (Json.hexVal? d).map (n * 16 + ·)) 0
  if n < 0xD800 ∨ (0xE000 ≤ n ∧ n < 0x110000) then some (Char.ofNat n) else none

/-- The character that a backslash followed by `c` stands for. -/
def escape? : Char → Option Char
  | 'b' => some '\x08'
  | 't' => some '\t'
  | 'n' => some '\n'
  | 'f' => some '\x0c'
  | 'r' => some '\r'
  | 'e' => some '\x1b'
  | '"' => some '"'
  | '\\' => some '\\'
  | _ => none

/-- The text between the quotes of a string with escapes. A `long` string may have line breaks, and
a backslash at the end of a line hides the break and all white space after it; that white space is
left out while `gap` holds. -/
def unescape? (long gap : Bool) : List Char → Option (List Char)
  | [] => some []
  | '\\' :: 'x' :: a :: b :: rest => do return (← scalar? [a, b]) :: (← unescape? long false rest)
  | '\\' :: 'u' :: a :: b :: c :: d :: rest => do
      return (← scalar? [a, b, c, d]) :: (← unescape? long false rest)
  | '\\' :: 'U' :: a :: b :: c :: d :: e :: f :: g :: h :: rest => do
      return (← scalar? [a, b, c, d, e, f, g, h]) :: (← unescape? long false rest)
  | '\\' :: c :: rest =>
      if long ∧ (afterBreak? ((c :: rest).dropWhile isBlank)).isSome then
        unescape? long true (c :: rest)
      else do return (← escape? c) :: (← unescape? long false rest)
  | '\r' :: '\n' :: rest =>
      if gap then unescape? long true rest
      else if long then do return '\r' :: '\n' :: (← unescape? long false rest)
      else none
  | c :: rest =>
      if gap ∧ (isBlank c ∨ c = '\n') then unescape? long true rest
      else if c ≠ '\\' ∧ (isPlain c ∨ (long ∧ c = '\n')) then do
        return c :: (← unescape? long false rest)
      else none

/-- Whether a text between quotes without escapes is allowed. -/
def isLiteral (long : Bool) : List Char → Bool
  | [] => true
  | '\r' :: '\n' :: rest => long && isLiteral long rest
  | c :: rest => (isPlain c || (long && c == '\n')) && isLiteral long rest

/-- The text up to the closing quote of a string of one line. -/
def shortBody (quote : Char) (escaped : Bool) (acc : List Char) :
    List Char → Option (List Char × List Char)
  | [] => none
  | c :: rest =>
      if c = quote ∧ !escaped then some (acc.reverse, rest)
      else shortBody quote (quote == '"' && c == '\\' && !escaped) (c :: acc) rest

/-- The text up to the three quotes that close a long string. One or two more quotes right before
them belong to the text; `run` quotes have been read in a row. -/
def longBody (quote : Char) (escaped : Bool) (run : Nat) (acc : List Char) :
    List Char → Option (List Char × List Char)
  | [] => if run ≥ 3 then some ((acc.drop 3).reverse, []) else none
  | c :: rest =>
      if c = quote ∧ !escaped then
        if run = 4 then some ((acc.drop 2).reverse, rest)
        else longBody quote false (run + 1) (c :: acc) rest
      else if run ≥ 3 then some ((acc.drop 3).reverse, c :: rest)
      else longBody quote (quote == '"' && c == '\\' && !escaped) 0 (c :: acc) rest

/-- The text that stands for the body of a string. -/
def bodyText? (quote : Char) (long : Bool) (body : List Char) : Option (List Char) :=
  let body := if long then (afterBreak? body).getD body else body
  if quote = '"' then unescape? long false body
  else if isLiteral long body then some body
  else none

/-- Reads a string of one line. -/
def shortString? : List Char → Option (String × List Char)
  | [] => none
  | quote :: rest => do
      if quote = '"' ∨ quote = '\'' then
        let (body, rest) ← shortBody quote false [] rest
        return (String.ofList (← bodyText? quote false body), rest)
      else none

/-- Reads a string of either form. -/
def string? : List Char → Option (String × List Char)
  | a :: b :: c :: rest => do
      if a = b ∧ b = c ∧ (a = '"' ∨ a = '\'') then
        let (body, rest) ← longBody a false 0 [] rest
        return (String.ofList (← bodyText? a true body), rest)
      else shortString? (a :: b :: c :: rest)
  | cs => shortString? cs

/-! ## Numbers -/

/-- Whether the character is a decimal digit. -/
def isDecimal (c : Char) : Bool :=
  '0' ≤ c && c ≤ '9'

/-- Whether the character is a digit in some base. -/
def isDigit (c : Char) : Bool :=
  (Json.hexVal? c).isSome

/-- Whether every underscore stands between two digits. -/
def isSpaced (isDigit : Char → Bool) : List Char → Bool
  | [] => true
  | '_' :: _ => false
  | c :: '_' :: rest => isDigit c && rest.head?.any isDigit && isSpaced isDigit rest
  | _ :: rest => isSpaced isDigit rest

/-- Whether the text is a run of decimal digits, maybe with underscores between them. -/
def isRun (cs : List Char) : Bool :=
  !cs.isEmpty && cs.all (fun c => isDecimal c || c == '_') && isSpaced isDecimal cs

/-- The number that digits with underscores between them write in a base. There is none where
something else is among them, or nothing at all. -/
def number? (base : Nat) (cs : List Char) : Option Nat :=
  match cs.filter (· != '_') with
  | [] => none
  | ds => ds.foldlM (fun n d => ((Json.hexVal? d).filter (· < base)).map (n * base + ·)) 0

/-- The sign of a number, and the rest of it. -/
def signed : List Char → Int × List Char
  | '-' :: rest => (-1, rest)
  | '+' :: rest => (1, rest)
  | cs => (1, cs)

/-- A number without its sign, and whether zeros may lead in it. They may after a sign with an
underscore, which is left out with the sign. -/
def bare : List Char → List Char × Bool
  | '-' :: '_' :: rest => (rest, true)
  | '+' :: '_' :: rest => (rest, true)
  | cs => ((signed cs).2, false)

/-- Whether the text has zeros in front of other digits. -/
def hasLeadingZero (cs : List Char) : Bool :=
  cs.head? == some '0' && cs.length != 1

/-- Whether a character marks a float. -/
def isFloatMark (c : Char) : Bool :=
  c == '.' || c == 'e' || c == 'E'

/-- Whether a word without its sign has the looks of a decimal integer: it starts with digits, and
from the first underscore on only the neighbours of underscores have to be digits, of any base. -/
def looksDecimal (isLoose : Bool) (cs : List Char) : Bool :=
  let rest := cs.dropWhile isDecimal
  !cs.any isFloatMark && isSpaced isDigit cs &&
    if isLoose then cs.head?.any isDigit
    else cs.head?.any isDecimal && !hasLeadingZero cs && rest.head?.all (· == '_')

/-- The integer that digits write, for a word that has the looks of one. -/
def integer (base : Nat) (word digits : List Char) : Toml :=
  match number? base digits with
  | some n => .int ((signed word).1 * Int.ofNat n)
  | none => .misspelt (String.ofList word)

/-- The value of a word after the mark of a base. -/
def inBase? (base : Nat) (word digits : List Char) : Option Toml :=
  if digits.all (fun c => c == '_' || (Json.hexVal? c).any (· < base)) && isSpaced isDigit digits
  then some (integer base word digits)
  else none

/-- The value of a word that has the looks of an integer. -/
def integer? (word : List Char) : Option Toml :=
  match word with
  | '0' :: 'x' :: digits => inBase? 16 word digits
  | '0' :: 'o' :: digits => inBase? 8 word digits
  | '0' :: 'b' :: digits => inBase? 2 word digits
  | _ =>
      let (digits, isLoose) := bare word
      if looksDecimal isLoose digits then some (integer 10 word digits) else none

/-- Whether the text is the exponent of a float, after its letter. -/
def isExponent (cs : List Char) : Bool :=
  isRun (signed cs).2

/-- Whether the text is a fraction with or without an exponent, after its point. -/
def isFraction (cs : List Char) : Bool :=
  isRun (cs.takeWhile (!isFloatMark ·)) &&
    match cs.dropWhile (!isFloatMark ·) with
    | [] => true
    | mark :: exponent => mark != '.' && isExponent exponent

/-- Whether the text spells a float. -/
def isFloat (cs : List Char) : Bool :=
  let (rest, isLoose) := bare cs
  let whole := rest.takeWhile (!isFloatMark ·)
  (!isLoose && (rest == ['i', 'n', 'f'] || rest == ['n', 'a', 'n'])) ||
    (isRun whole && (isLoose || !hasLeadingZero whole) &&
      match rest.dropWhile (!isFloatMark ·) with
      | '.' :: fraction => isFraction fraction
      | _ :: exponent => isExponent exponent
      | [] => false)

/-! ## Times -/

/-- A number of two digits. -/
def twoDigits? (a b : Char) : Option Nat := do
  return (← Json.digitVal? a) * 10 + (← Json.digitVal? b)

/-- How many days a month has. -/
def daysIn (year month : Nat) : Nat :=
  if month = 2 then
    if year % 4 = 0 ∧ (year % 100 ≠ 0 ∨ year % 400 = 0) then 29 else 28
  else if month = 4 ∨ month = 6 ∨ month = 9 ∨ month = 11 then 30
  else 31

/-- The text after a date. -/
def afterDate? : List Char → Option (List Char)
  | a :: b :: c :: d :: '-' :: e :: f :: '-' :: g :: h :: rest => do
      let year := (← twoDigits? a b) * 100 + (← twoDigits? c d)
      let month ← twoDigits? e f
      let day ← twoDigits? g h
      if 1 ≤ month ∧ month ≤ 12 ∧ 1 ≤ day ∧ day ≤ daysIn year month then some rest else none
  | _ => none

/-- The text after hours and minutes. -/
def afterMinutes? : List Char → Option (List Char)
  | a :: b :: ':' :: c :: d :: rest => do
      if (← twoDigits? a b) < 24 ∧ (← twoDigits? c d) < 60 then some rest else none
  | _ => none

/-- The text after the seconds of a time, which may be missing. -/
def afterSeconds? : List Char → Option (List Char)
  | ':' :: a :: b :: rest => do
      if (← twoDigits? a b) ≤ 60 then
        match rest with
        | '.' :: fraction =>
            if (fraction.head?).any isDecimal then some (fraction.dropWhile isDecimal) else none
        | rest => some rest
      else none
  | rest => some rest

/-- Whether the text is an offset from universal time, or empty. -/
def isOffset : List Char → Bool
  | [] => true
  | ['Z'] => true
  | ['z'] => true
  | c :: rest => (c == '+' || c == '-') && afterMinutes? rest == some []

/-- Whether the text spells a date, a time of day, or both. -/
def isTime (cs : List Char) : Bool :=
  match afterDate? cs with
  | some [] => true
  | some (c :: rest) =>
      (c == 'T' || c == 't' || c == ' ') &&
        (((afterMinutes? rest).bind afterSeconds?).any isOffset)
  | none => (afterMinutes? cs).bind afterSeconds? == some []

/-! ## Words -/

/-- Whether a character can be part of a word: all those can that have no meaning of their own. -/
def isWordChar (c : Char) : Bool :=
  !(['=', ',', '[', ']', '\x7b', '\x7d', ' ', '\t', '#', '\r', '\n'].contains c)

/-- The longest word at the start of a text. A blank may part a date from a time. -/
def splitWord (cs : List Char) : List Char × List Char :=
  let word := cs.takeWhile isWordChar
  match cs.dropWhile isWordChar with
  | ' ' :: rest =>
      if afterDate? word == some [] && (afterMinutes? (rest.take 5)).isSome then
        (word ++ ' ' :: rest.takeWhile isWordChar, rest.dropWhile isWordChar)
      else (word, ' ' :: rest)
  | rest => (word, rest)

/-- The value that a word spells. -/
def ofWord? (word : List Char) : Option Toml :=
  if word = ['t', 'r', 'u', 'e'] then some (.bool true)
  else if word = ['f', 'a', 'l', 's', 'e'] then some (.bool false)
  else match integer? word with
    | some v => some v
    | none =>
        if isFloat word then some (.float (String.ofList word))
        else if isTime word then some (.time (String.ofList word))
        else none

end Playground.Toml
