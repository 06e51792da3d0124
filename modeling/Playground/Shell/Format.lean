import Playground.Double
import Playground.Shell.Number
/-!
Formatted output: backslash escapes, and the conversions of formats. All texts are narrow.
-/

namespace Playground.Shell.Format

/-! ## Escapes -/

/-- The character that a backslash followed by `c` stands for. -/
def escape? : Char → Option Char
  | 'a' => some '\x07'
  | 'b' => some '\x08'
  | 'e' => some '\x1b'
  | 'f' => some '\x0c'
  | 'n' => some '\n'
  | 'r' => some '\r'
  | 't' => some '\t'
  | 'v' => some '\x0b'
  | '\\' => some '\\'
  | _ => none

/-- Whether the character is an octal digit. -/
def isOctal (c : Char) : Bool :=
  '0' ≤ c && c ≤ '7'

/-- The byte that octal digits write. -/
def octal (cs : List Char) : Char :=
  Char.ofNat (digitsValue 8 cs % 256)

/-- The character that the text after a backslash stands for, and how much of the text is used. A
text that stands for nothing leaves the backslash. -/
def escaped (cs : List Char) : Char × Nat :=
  match (cs.takeWhile isOctal).take 3 with
  | [] =>
      match cs.head?.bind escape? with
      | some c => (c, 1)
      | none => ('\\', 0)
  | digits => (octal digits, digits.length)

/-- An argument with its escapes carried out after `skip` characters that are done, and whether it
ends all output. An octal number may have a zero more in front. -/
def unescape : Nat → List Char → List Char × Bool
  | _, [] => ([], false)
  | skip + 1, _ :: rest => unescape skip rest
  | 0, '\\' :: rest =>
      if rest.head? = some 'c' then ([], true)
      else
        let lead :=
          if rest.head? = some '0' ∧ ((rest.drop 1).head?).any isOctal then 1 else 0
        let (c, used) := escaped (rest.drop lead)
        let (more, ended) := unescape (lead + used) rest
        (c :: more, ended)
  | 0, c :: rest =>
      let (more, ended) := unescape 0 rest
      (c :: more, ended)

/-! ## Conversions -/

/-- A conversion of a format. -/
structure Conversion where
  flags : List Char
  width : Nat
  precision : Option Nat
  letter : Char
  /-- Whether the width or the precision is beyond what can be put out. -/
  isTooLarge : Bool
deriving Repr

namespace Conversion

/-- Whether the output starts at the left end of its field. -/
def isLeft (c : Conversion) : Bool :=
  c.flags.contains '-'

/-- Fills a text up to the width. -/
def pad (c : Conversion) (s : List Char) : List Char :=
  let missing := List.replicate (c.width - s.length) ' '
  if c.isLeft then s ++ missing else missing ++ s

/-- A text cut to the precision and filled up. -/
def text (c : Conversion) (s : List Char) : List Char :=
  c.pad (match c.precision with
    | some n => s.take n
    | none => s)

/-- A number with what stands before its digits, filled up. Zeros fill it only if they may. -/
def number (c : Conversion) (lead digits : List Char) (mayZero : Bool) : List Char :=
  if c.flags.contains '0' && !c.isLeft && mayZero then
    lead ++ List.replicate (c.width - lead.length - digits.length) '0' ++ digits
  else c.pad (lead ++ digits)

/-- The sign in front of a number. -/
def sign (c : Conversion) (isNegative : Bool) : List Char :=
  if isNegative then ['-']
  else if c.flags.contains '+' then ['+']
  else if c.flags.contains ' ' then [' ']
  else []

/-- At least as many digits as the precision asks for; zero may have none. -/
def digits (c : Conversion) (base n : Nat) : List Char :=
  let ds := if n = 0 ∧ c.precision = some 0 then [] else Nat.toDigits base n
  List.replicate (c.precision.getD 0 - ds.length) '0' ++ ds

/-- A signed number. -/
def signed (c : Conversion) (n : Int) : List Char :=
  c.number (c.sign (n < 0)) (c.digits 10 n.natAbs) c.precision.isNone

/-- A number without sign. -/
def unsigned (c : Conversion) (n : Nat) : List Char :=
  let isMarked := c.flags.contains '#'
  let mayZero := c.precision.isNone
  match c.letter with
  | 'o' =>
      let ds := c.digits 8 n
      c.number [] (if isMarked && ds.head? != some '0' then '0' :: ds else ds) mayZero
  | 'x' => c.number (if isMarked && n ≠ 0 then ['0', 'x'] else []) (c.digits 16 n) mayZero
  | 'X' =>
      c.number (if isMarked && n ≠ 0 then ['0', 'X'] else [])
        ((c.digits 16 n).map Char.toUpper) mayZero
  | _ => c.number [] (c.digits 10 n) mayZero

end Conversion

/-! ## Floats -/

/-- A float: a finite one, or a name. -/
inductive Float where
  | finite (isNegative : Bool) (magnitude : Double)
  | named (isNegative : Bool) (name : String)
deriving Repr

/-- The fraction that decimal digits and an exponent write. -/
def decimalFraction (whole fraction : List Char) (exponent : Int) : Nat × Nat :=
  let n := digitsValue 10 (whole ++ fraction)
  let places := exponent - fraction.length
  if n = 0 then (0, 1)
  else if 400 < places + (whole.length + fraction.length) then (Nat.pow 10 400, 1)
  else if places < -800 - (whole.length + fraction.length) then (0, 1)
  else (n * Nat.pow 10 places.toNat, Nat.pow 10 (-places).toNat)

/-- The exponent at the start of a text, and the text after it. -/
def exponent (cs : List Char) : Int × List Char :=
  match cs with
  | e :: rest =>
      if e == 'e' || e == 'E' then
        let (isNegative, ds) := match rest with
          | '-' :: ds => (true, ds)
          | '+' :: ds => (false, ds)
          | ds => (false, ds)
        match ds.takeWhile Char.isDigit with
        | [] => (0, cs)
        | digits =>
            let n := Int.ofNat (digitsValue 10 digits)
            (if isNegative then -n else n, ds.dropWhile Char.isDigit)
      else (0, cs)
  | [] => (0, [])

/-- The name of a float at the start of a text, and the text after it. -/
def floatName? (cs : List Char) : Option (String × List Char) :=
  let lower := cs.map Char.toLower
  if "infinity".toList.isPrefixOf lower then some ("inf", cs.drop 8)
  else if "inf".toList.isPrefixOf lower then some ("inf", cs.drop 3)
  else if "nan".toList.isPrefixOf lower then some ("nan", cs.drop 3)
  else none

/-- A float at the start of a text. -/
structure Scanned where
  value : Float
  rest : List Char
  /-- Whether the float is about what the text says. -/
  inRange : Bool

/-- The float of a magnitude, which is a fraction; `isZero` says that the text means zero. -/
def Scanned.ofFraction (isNegative isZero : Bool) (num den : Nat) (rest : List Char) : Scanned :=
  let x := Double.nearest num den
  let (n, d) := x.toFraction
  let isExact := num ≠ 0 && num * d == n * den
  let isTiny := x.exponent ≤ Double.minExponent && x.mantissa >>> 52 == 0
  if x.isFinite then ⟨.finite isNegative x, rest, isZero || isExact || !isTiny⟩
  else ⟨.named isNegative "inf", rest, false⟩

/-- The digits of a number before and after its point, and the text behind them. -/
def pointDigits (isDigit : Char → Bool) (cs : List Char) : List Char × List Char × List Char :=
  let whole := cs.takeWhile isDigit
  match cs.dropWhile isDigit with
  | '.' :: more => (whole, more.takeWhile isDigit, more.dropWhile isDigit)
  | rest => (whole, [], rest)

/-- Reads the digits of a float in base sixteen. -/
def hexFloat? (isNegative : Bool) (cs : List Char) : Option Scanned :=
  let (whole, fraction, rest) := pointDigits (fun c => (digit? 16 c).isSome) cs
  if whole.isEmpty && fraction.isEmpty then none
  else
    let (e, rest) := match rest with
      | 'p' :: more | 'P' :: more =>
          match exponent ('e' :: more) with
          | (_, 'e' :: _) => (0, rest)
          | (e, after) => (e, after)
      | rest => (0, rest)
    let n := digitsValue 16 (whole ++ fraction)
    let places := max (-20000) (min 20000 (e - 4 * fraction.length))
    let (num, den) := (n <<< places.toNat, 1 <<< (-places).toNat)
    some (Scanned.ofFraction isNegative (n == 0) num den rest)

/-- Reads a float at the start of a text. -/
def float? (cs : List Char) : Option Scanned :=
  let cs := cs.dropWhile isSpace
  let (isNegative, cs) := match cs with
    | '-' :: rest => (true, rest)
    | '+' :: rest => (false, rest)
    | cs => (false, cs)
  match floatName? cs with
  | some (name, rest) => some ⟨.named isNegative name, rest, true⟩
  | none =>
      let hex := match cs with
        | '0' :: 'x' :: more | '0' :: 'X' :: more => hexFloat? isNegative more
        | _ => none
      match hex with
      | some x => some x
      | none =>
          let (whole, fraction, rest) := pointDigits Char.isDigit cs
          if whole.isEmpty && fraction.isEmpty then none
          else
            let (e, rest) := exponent rest
            let (num, den) := decimalFraction whole fraction e
            let isZero := (whole ++ fraction).all (· == '0')
            some (Scanned.ofFraction isNegative isZero num den rest)

/-- More decimal digits than any float has before the zeros at its end. -/
def mostDigits : Nat := 1100

/-- The digits of a number before the point, and the given number of digits behind it. -/
def fixedDigits (x : Double) (places : Nat) : List Char × List Char :=
  let (num, den) := x.toFraction
  let kept := min places mostDigits
  let ds := Nat.toDigits 10 (Double.roundDiv (num * Nat.pow 10 kept) den)
  let ds := List.replicate (kept + 1 - ds.length) '0' ++ ds
  (ds.take (ds.length - kept), ds.drop (ds.length - kept) ++ List.replicate (places - kept) '0')

/-- The exponent of the first decimal digit of a number that is not zero. -/
def decimalExponent (x : Double) : Int :=
  let (num, den) := x.toFraction
  let guess : Int := (Nat.toDigits 10 num).length - (Nat.toDigits 10 den).length
  if num * Nat.pow 10 (-guess).toNat < den * Nat.pow 10 guess.toNat then guess - 1 else guess

/-- The first `n + 1` decimal digits of a number, rounded, and the exponent of the first one. -/
def leadingDigits (x : Double) (n : Nat) : List Char × Int :=
  if x.mantissa = 0 then (List.replicate (n + 1) '0', 0)
  else
    let e := decimalExponent x
    let (num, den) := x.toFraction
    let kept := min n mostDigits
    let shift : Int := kept - e
    let q := Double.roundDiv (num * Nat.pow 10 shift.toNat) (den * Nat.pow 10 (-shift).toNat)
    let ds := Nat.toDigits 10 q
    let zeros := List.replicate (n - kept) '0'
    if kept + 1 < ds.length then (ds.take (kept + 1) ++ zeros, e + 1) else (ds ++ zeros, e)

/-- The digits after a point, which stands there if it is needed or kept. -/
def pointed (keepsPoint : Bool) (fraction : List Char) : List Char :=
  if fraction.isEmpty && !keepsPoint then [] else '.' :: fraction

/-- The text of an exponent with at least two digits. -/
def exponentText (letter : Char) (e : Int) : List Char :=
  let ds := Nat.toDigits 10 e.natAbs
  letter :: (if e < 0 then '-' else '+') :: (if ds.length < 2 then '0' :: ds else ds)

/-- The text of a magnitude with an exponent. -/
def scientific (letter : Char) (keepsPoint : Bool) (ds : List Char) (e : Int) : List Char :=
  ds.take 1 ++ pointed keepsPoint (ds.drop 1) ++ exponentText letter e

/-- Digits without the zeros at their end. -/
def withoutZeros (ds : List Char) : List Char :=
  (ds.reverse.dropWhile (· == '0')).reverse

/-- The text of a magnitude in the shorter of the two forms. -/
def general (letter : Char) (keepsPoint : Bool) (x : Double) (precision : Nat) : List Char :=
  let p := max precision 1
  let (ds, e) := leadingDigits x (p - 1)
  if -4 ≤ e ∧ e < p then
    let (whole, fraction) := fixedDigits x (p - 1 - e).toNat
    whole ++ pointed keepsPoint (if keepsPoint then fraction else withoutZeros fraction)
  else
    let rest := if keepsPoint then ds.drop 1 else withoutZeros (ds.drop 1)
    scientific letter keepsPoint (ds.take 1 ++ rest) e

/-- The exponent of the smallest floats that have all their digits. -/
def leastExponent : Int := -1022

/-- How many digits in base sixteen a float has behind its point. -/
def hexPlaces : Nat := 13

/-- The text of a magnitude in base sixteen, without the mark of the base. -/
def hexadecimal (keepsPoint : Bool) (precision : Option Nat) (x : Double) : List Char :=
  let e := if x.mantissa = 0 then 0 else max (x.mantissa.log2 + x.exponent) leastExponent
  let shift := x.exponent - e + 4 * hexPlaces
  let units := (x.mantissa <<< shift.toNat) >>> (-shift).toNat
  let places := min hexPlaces (precision.getD hexPlaces)
  let rounded := Double.roundDiv units (1 <<< (4 * (hexPlaces - places)))
  let ds := List.replicate places '0' ++ Nat.toDigits 16 (rounded % (1 <<< (4 * places)))
  let ds := ds.drop (ds.length - places)
  let fraction := match precision with
    | some n => ds ++ List.replicate (n - places) '0'
    | none => withoutZeros ds
  Nat.toDigits 16 (rounded >>> (4 * places)) ++ pointed keepsPoint fraction ++
    'p' :: (if e < 0 then '-' else '+') :: Nat.toDigits 10 e.natAbs

/-- The output of a float. -/
def Conversion.float (c : Conversion) (x : Float) : List Char :=
  let keepsPoint := c.flags.contains '#'
  let raise (cs : List Char) : List Char := if c.letter.isUpper then cs.map Char.toUpper else cs
  match x with
  | .named isNegative name => c.pad (c.sign isNegative ++ raise name.toList)
  | .finite isNegative x =>
      let places := c.precision.getD 6
      let body := match c.letter.toLower with
        | 'f' =>
            let (whole, fraction) := fixedDigits x places
            whole ++ pointed keepsPoint fraction
        | 'e' =>
            let (ds, e) := leadingDigits x places
            scientific 'e' keepsPoint ds e
        | 'g' => general 'e' keepsPoint x places
        | _ => hexadecimal keepsPoint c.precision x
      let mark := if c.letter.toLower = 'a' then ['0', 'x'] else []
      c.number (c.sign isNegative ++ raise mark) (raise body) true

/-! ## Formats -/

/-- What became of a format: output, complaints, and the arguments left. -/
structure Outcome where
  output : List Char := []
  complaints : List String := []
  arguments : List String := []
  /-- Whether an argument has ended all output. -/
  isEnded : Bool := false
  /-- What is wrong with the format itself. -/
  fault : Option String := none

/-- Carrying out a format. -/
abbrev Formatting (α : Type) := ExceptT Unit (StateM Outcome) α

/-- Takes the next argument. -/
def argument? : Formatting (Option String) := do
  match (← get).arguments with
  | a :: rest => do
      modify fun o => { o with arguments := rest }
      return some a
  | [] => return none

/-- Puts out characters. -/
def put (cs : List Char) : Formatting Unit :=
  modify fun o => { o with output := o.output ++ cs }

/-- Complains about an argument. -/
def complain (s : String) : Formatting Unit :=
  modify fun o => { o with complaints := o.complaints ++ [s] }

/-- Checks that an argument has been read to its end. -/
def checkRest (a : String) (isRead : Bool) (rest : List Char) (inRange : Bool) :
    Formatting Unit := do
  if !isRead then
    if a ≠ "" then complain (a ++ ": expected numeric value")
  else if !rest.isEmpty then complain (a ++ ": not completely converted")
  else if !inRange then complain (a ++ ": Numerical result out of range")

/-- The number of the character after a quote in front of an argument. -/
def quotedNumber? (a : String) : Option Nat :=
  match a.toList with
  | q :: rest => if q == '\'' || q == '"' then some (rest.head?.elim 0 Char.toNat) else none
  | [] => none

/-- The next argument as a signed number. -/
def signedArgument : Formatting Int := do
  match ← argument? with
  | none => return 0
  | some a =>
      match quotedNumber? a with
      | some n => return n
      | none =>
          match Numeral.read? true a.toList with
          | some n => do
              checkRest a true n.rest n.fitsSigned
              return n.signed
          | none => do
              checkRest a false [] true
              return 0

/-- The next argument as a number without sign. -/
def unsignedArgument : Formatting Nat := do
  match ← argument? with
  | none => return 0
  | some a =>
      match quotedNumber? a with
      | some n => return n
      | none =>
          match Numeral.read? true a.toList with
          | some n => do
              checkRest a true n.rest n.fitsUnsigned
              return n.unsigned.toNat
          | none => do
              checkRest a false [] true
              return 0

/-- The next argument as a float. -/
def floatArgument : Formatting Float := do
  let zero : Float := .finite false ⟨0, 0⟩
  match ← argument? with
  | none => return zero
  | some a =>
      match quotedNumber? a with
      | some n => return .finite false ⟨n, 0⟩
      | none =>
          match float? a.toList with
          | some x => do
              checkRest a true x.rest x.inRange
              return x.value
          | none => do
              checkRest a false [] true
              return zero

/-- Gives up a format. -/
def failWith {α : Type} (s : String) : Formatting α := do
  modify fun o => { o with fault := some s }
  throw ()

/-- Puts out the text of a conversion. -/
def Conversion.put (c : Conversion) (cs : List Char) : Formatting Unit :=
  if c.isTooLarge then failWith "xvsnprintf failed" else Format.put cs

/-- Carries out a conversion; `text` is how it is written. -/
def convert (c : Conversion) (text : List Char) : Formatting Unit := do
  match c.letter with
  | 's' => do c.put (c.text ((← argument?).getD "").toList)
  | 'b' => do
      let (cs, isEnded) := unescape 0 ((← argument?).getD "").toList
      c.put (c.text cs)
      if isEnded then
        modify fun o => { o with isEnded := true }
        throw ()
  | 'c' => do
      let a := (← argument?).getD ""
      c.put (c.pad [a.toList.head?.getD '\x00'])
  | 'd' | 'i' => do c.put (c.signed (← signedArgument))
  | 'o' | 'u' | 'x' | 'X' => do c.put (c.unsigned (← unsignedArgument))
  | 'a' | 'A' | 'e' | 'E' | 'f' | 'F' | 'g' | 'G' => do c.put (c.float (← floatArgument))
  | _ => failWith (String.ofList text ++ ": invalid directive")

/-- Reads a number of a conversion, or takes it from an argument if a star stands for it. An
argument counts as a number of 32 bits with a sign. -/
def measure (cs : List Char) : Formatting (Int × List Char) := do
  match cs with
  | '*' :: rest => return ((← signedArgument).bmod 0x100000000, rest)
  | cs =>
      let isPart := fun c : Char => c.isDigit || c == '*'
      return (digitsValue 10 ((cs.takeWhile isPart).filter Char.isDigit), cs.dropWhile isPart)

/-- The largest width and precision that are put out; more columns do not fit into the memory. -/
def mostColumns : Nat := 0xFFFFFF

/-- Carries out the conversion that starts a text, after its percent sign. Gives the rest. -/
def conversion (cs : List Char) : Formatting (List Char) := do
  let isFlag := fun c => "#-+ 0".toList.contains c
  let flags := cs.takeWhile isFlag
  let (width, rest) ← measure (cs.dropWhile isFlag)
  let (precision, rest) ← match rest with
    | '.' :: rest => do
        let (n, rest) ← measure rest
        pure (if n < 0 then none else some n.toNat, rest)
    | rest => pure (none, rest)
  match rest with
  | [] => failWith "missing format character"
  | letter :: after => do
      let flags := if width < 0 then '-' :: flags else flags
      let text := '%' :: cs.take (cs.length - after.length)
      if mostColumns < width.natAbs || precision.any (mostColumns < ·) then
        convert ⟨flags, 0, none, letter, true⟩ text
      else convert ⟨flags, width.natAbs, precision, letter, false⟩ text
      return after

/-- Carries out a format once. -/
def once : Nat → List Char → Formatting Unit
  | 0, _ => return ()
  | _ + 1, [] => return ()
  | fuel + 1, '\\' :: rest => do
      let (c, used) := escaped rest
      put [c]
      once fuel (rest.drop used)
  | fuel + 1, '%' :: '%' :: rest => do
      put ['%']
      once fuel rest
  | fuel + 1, '%' :: rest => do once fuel (← conversion rest)
  | fuel + 1, c :: rest => do
      put (c :: rest.takeWhile fun d => d != '%' && d != '\\')
      once fuel (rest.dropWhile fun d => d != '%' && d != '\\')

/-- Carries out a format until the arguments are used up; one that uses none is carried out once. -/
def repeated (format : List Char) : Nat → Formatting Unit
  | 0 => return ()
  | n + 1 => do
      let before := (← get).arguments.length
      once (format.length + 1) format
      let left := (← get).arguments.length
      if 0 < left ∧ left < before then repeated format n

/-- What becomes of a format with its arguments. -/
def printf (format : String) (arguments : List String) : Outcome :=
  (((repeated format.toList (arguments.length + 1)).run.run { arguments }).2)

/-- The output of some words with blanks between them, the escapes carried out. Gives whether they
end the output. -/
def echoWords : List String → List Char × Bool
  | [] => ([], false)
  | word :: rest =>
      let (cs, isEnded) := unescape 0 word.toList
      if isEnded then (cs, true)
      else if rest.isEmpty then (cs, false)
      else
        let (more, isEnded) := echoWords rest
        (cs ++ ' ' :: more, isEnded)

/-- The output of words on a line, which does not end if the first word says so. -/
def echo (arguments : List String) : List Char :=
  let (breaks, words) := match arguments with
    | "-n" :: rest => (false, rest)
    | words => (true, words)
  let (cs, isEnded) := echoWords words
  if breaks && !isEnded then cs ++ ['\n'] else cs

end Playground.Shell.Format
