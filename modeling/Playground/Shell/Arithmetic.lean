import Playground.Shell.Number
import Playground.Shell.Syntax
/-!
Arithmetic expressions over signed numbers of 64 bits. Operands that do not count are read without
being evaluated; assignments take effect at once.
-/

namespace Playground.Shell.Arithmetic

/-- An operator with two operands. -/
inductive Operator where
  | mul
  | div
  | rem
  | add
  | sub
  | shiftLeft
  | shiftRight
  | less
  | lessEq
  | greater
  | greaterEq
  | equal
  | notEqual
  | bitAnd
  | bitXor
  | bitOr
deriving DecidableEq, Repr

/-- How loosely an operator binds. -/
def Operator.rank : Operator → Nat
  | mul | div | rem => 0
  | add | sub => 1
  | shiftLeft | shiftRight => 2
  | less | lessEq | greater | greaterEq => 3
  | equal | notEqual => 4
  | bitAnd => 5
  | bitXor => 6
  | bitOr => 7

/-- A rank looser than that of every operator. -/
def maxRank : Nat := 8

/-- A token of an expression. -/
inductive Lexeme where
  | number (n : Int)
  | name (s : String)
  | operator (op : Operator)
  /-- An assignment, with an operator before it or without. -/
  | assign (op : Option Operator)
  | andAnd
  | orOr
  | bang
  | tilde
  | question
  | colon
  | openParen
  | closeParen
  | unknown
deriving DecidableEq, Repr

/-- The operator of one character that may have `=` after it. -/
def assignable? : Char → Option Operator
  | '*' => some .mul
  | '/' => some .div
  | '%' => some .rem
  | '+' => some .add
  | '-' => some .sub
  | '&' => some .bitAnd
  | '|' => some .bitOr
  | '^' => some .bitXor
  | _ => none

/-- The token at the start of a text, and the text after it. -/
def lexeme (c : Char) (rest : List Char) : Lexeme × List Char :=
  match c, rest with
  | '=', '=' :: rest => (.operator .equal, rest)
  | '=', rest => (.assign none, rest)
  | '!', '=' :: rest => (.operator .notEqual, rest)
  | '!', rest => (.bang, rest)
  | '<', '<' :: '=' :: rest => (.assign (some .shiftLeft), rest)
  | '<', '<' :: rest => (.operator .shiftLeft, rest)
  | '<', '=' :: rest => (.operator .lessEq, rest)
  | '<', rest => (.operator .less, rest)
  | '>', '>' :: '=' :: rest => (.assign (some .shiftRight), rest)
  | '>', '>' :: rest => (.operator .shiftRight, rest)
  | '>', '=' :: rest => (.operator .greaterEq, rest)
  | '>', rest => (.operator .greater, rest)
  | '&', '&' :: rest => (.andAnd, rest)
  | '|', '|' :: rest => (.orOr, rest)
  | '~', rest => (.tilde, rest)
  | '?', rest => (.question, rest)
  | ':', rest => (.colon, rest)
  | '(', rest => (.openParen, rest)
  | ')', rest => (.closeParen, rest)
  | c, '=' :: rest =>
      match assignable? c with
      | some op => (.assign (some op), rest)
      | none => (.unknown, '=' :: rest)
  | c, rest =>
      match assignable? c with
      | some op => (.operator op, rest)
      | none => (.unknown, rest)

/-- The tokens of an expression, at most `n` of them. -/
def lexemes : Nat → List Char → List Lexeme
  | 0, _ => []
  | _ + 1, [] => []
  | n + 1, c :: rest =>
      if c == ' ' || c == '\t' || c == '\n' then lexemes n rest
      else if c.isDigit then
        match Numeral.read? true (c :: rest) with
        | some m => .number m.signed :: lexemes n m.rest
        | none => [.unknown]
      else if Word.startsName c then
        .name (String.ofList (c :: rest.takeWhile Word.isNameChar)) ::
          lexemes n (rest.dropWhile Word.isNameChar)
      else
        let (t, rest) := lexeme c rest
        t :: lexemes n rest

/-- Why an expression has no value. -/
inductive Fault where
  | expecting (what : String)
  | divisionByZero
  | illegalNumber (s : String)
  /-- A quotient beyond 64 bits, which the machine does not survive. -/
  | overflow
deriving DecidableEq, Repr

/-- An evaluation: the tokens left, the variables before, and those that have changed. -/
structure Evaluation where
  tokens : List Lexeme
  values : String → Option String
  changes : List (String × Int)

/-- Evaluating. -/
abbrev Calc (α : Type) := ExceptT Fault (StateM Evaluation) α

/-- The truth value as a number. -/
def ofBool (b : Bool) : Int :=
  if b then 1 else 0

/-- Combines the bits of two numbers. -/
def bitwise (f : UInt64 → UInt64 → UInt64) (a b : Int) : Int :=
  wrap (f (UInt64.ofInt a) (UInt64.ofInt b)).toNat

/-- Carries out an operator. -/
def apply (op : Operator) (a b : Int) : Calc Int := do
  match op with
  | .mul => return wrap (a * b)
  | .add => return wrap (a + b)
  | .sub => return wrap (a - b)
  | .div | .rem => do
      if b = 0 then throw .divisionByZero
      if a = minSigned ∧ b = -1 then throw .overflow
      return if op = .div then a.tdiv b else a.tmod b
  | .shiftLeft => return wrap (a * Int.ofNat (1 <<< (b % 64).toNat))
  | .shiftRight => return a.fdiv (Int.ofNat (1 <<< (b % 64).toNat))
  | .less => return ofBool (a < b)
  | .lessEq => return ofBool (a ≤ b)
  | .greater => return ofBool (a > b)
  | .greaterEq => return ofBool (a ≥ b)
  | .equal => return ofBool (a = b)
  | .notEqual => return ofBool (a ≠ b)
  | .bitAnd => return bitwise (· &&& ·) a b
  | .bitXor => return bitwise (· ^^^ ·) a b
  | .bitOr => return bitwise (· ||| ·) a b

/-- The value of a variable. -/
def lookup (name : String) : Calc Int := do
  let e ← get
  match e.changes.lookup name with
  | some n => return n
  | none =>
      let s := (e.values name).getD ""
      match variableNumber? s with
      | some n => return n
      | none => throw (.illegalNumber s)

/-- Changes a variable. -/
def change (name : String) (n : Int) : Calc Int := do
  modify fun e => { e with changes := (name, n) :: e.changes }
  return n

/-- Takes the next token. -/
def take : Calc (Option Lexeme) := do
  match (← get).tokens with
  | t :: rest => do
      modify fun e => { e with tokens := rest }
      return some t
  | [] => return none

/-- The next token, which stays. -/
def peek : Calc (Option Lexeme) := do
  return (← get).tokens.head?

mutual

/-- An operand with its signs. It is evaluated if it `counts`. -/
def primary : Nat → Bool → Calc Int
  | 0, _ => throw (.expecting "primary")
  | fuel + 1, counts => do
      match ← take with
      | some (.number n) => return n
      | some (.name s) => if counts then lookup s else return 0
      | some .openParen => do
          let n ← expression fuel counts
          if (← take) ≠ some .closeParen then throw (.expecting "')'")
          return n
      | some (.operator .add) => primary fuel counts
      | some (.operator .sub) => return wrap (-(← primary fuel counts))
      | some .bang => return ofBool ((← primary fuel counts) = 0)
      | some .tilde => return -(← primary fuel counts) - 1
      | _ => throw (.expecting "primary")

/-- Operators tighter than a rank, with their operands, after the operand `a`. -/
def operation : Nat → Bool → Int → Nat → Calc Int
  | 0, _, _, _ => throw (.expecting "primary")
  | fuel + 1, counts, a, rank => do
      match ← peek with
      | some (.operator op) => do
          if rank ≤ op.rank then return a
          let _ ← take
          let b ← operation fuel counts (← primary fuel counts) op.rank
          operation fuel counts (← if counts then apply op a b else pure b) rank
      | _ => return a

/-- Operations joined by `&&`. -/
def conjunction : Nat → Bool → Calc Int
  | 0, _ => throw (.expecting "primary")
  | fuel + 1, counts => do
      let a ← operation fuel counts (← primary fuel counts) maxRank
      if (← peek) ≠ some .andAnd then return a
      let _ ← take
      let b ← conjunction fuel (counts && a ≠ 0)
      return ofBool (a ≠ 0 ∧ b ≠ 0)

/-- Conjunctions joined by `||`. -/
def disjunction : Nat → Bool → Calc Int
  | 0, _ => throw (.expecting "primary")
  | fuel + 1, counts => do
      let a ← conjunction fuel counts
      if (← peek) ≠ some .orOr then return a
      let _ ← take
      let b ← disjunction fuel (counts && a = 0)
      return ofBool (a ≠ 0 ∨ b ≠ 0)

/-- A choice between two values, or a single one. -/
def conditional : Nat → Bool → Calc Int
  | 0, _ => throw (.expecting "primary")
  | fuel + 1, counts => do
      let a ← disjunction fuel counts
      if (← peek) ≠ some .question then return a
      let _ ← take
      let b ← expression fuel (counts && a ≠ 0)
      if (← take) ≠ some .colon then throw (.expecting "':'")
      let c ← conditional fuel (counts && a = 0)
      return if a ≠ 0 then b else c

/-- An assignment, or an expression without one. -/
def expression : Nat → Bool → Calc Int
  | 0, _ => throw (.expecting "primary")
  | fuel + 1, counts => do
      match (← get).tokens with
      | .name s :: .assign op :: rest => do
          modify fun e => { e with tokens := rest }
          let n ← expression fuel counts
          if !counts then return n
          match op with
          | some op => change s (← apply op (← lookup s) n)
          | none => change s n
      | _ => conditional fuel counts

end

/-- Evaluates a text. Gives the value and the variables that have changed, the last ones first. -/
def evaluate (values : String → Option String) (s : String) :
    Except Fault Int × List (String × Int) :=
  let cs := s.toList
  let tokens := lexemes (cs.length + 1) cs
  let act : Calc Int := do
    let n ← expression (8 * tokens.length + 8) true
    if (← peek).isSome then throw (.expecting "EOF")
    return n
  let (result, e) := act.run.run ⟨tokens, values, []⟩
  (result, e.changes)

end Playground.Shell.Arithmetic
