import Playground.Shell.Number
import Playground.Shell.Process
import Playground.Shell.Redirection
/-!
Tests of files, texts and numbers. An operator counts as a text where it stands in the place of an
operand.
-/

namespace Playground.Shell.Test

/-- A token of a test. -/
inductive Lexeme where
  | missing
  | operand
  | unary (operator : String)
  | binary (operator : String)
  | bang
  | conjunction
  | disjunction
  | openParen
  | closeParen
deriving DecidableEq, Repr

/-- The operators before one operand. -/
def unaryOperators : List String :=
  ["-r", "-w", "-x", "-e", "-f", "-d", "-c", "-b", "-p", "-u", "-g", "-k", "-s", "-t", "-z", "-n",
    "-h", "-O", "-G", "-L", "-S"]

/-- The operators between two operands. -/
def binaryOperators : List String :=
  ["=", "!=", "<", ">", "-eq", "-ne", "-ge", "-gt", "-le", "-lt", "-nt", "-ot", "-ef"]

/-- The token that the first of some words is. -/
def lexeme : List String → Lexeme
  | [] => .missing
  | w :: rest =>
      if unaryOperators.contains w then
        match rest with
        | [] => .operand
        | [_] => .unary w
        | next :: _ => if binaryOperators.contains next then .operand else .unary w
      else if binaryOperators.contains w then .binary w
      else match w with
        | "!" => .bang
        | "-a" => .conjunction
        | "-o" => .disjunction
        | "(" => if rest.isEmpty then .operand else .openParen
        | ")" => .closeParen
        | _ => .operand

/-- What an operand leads to, as far as tests tell. -/
inductive Found where
  | nothing
  | file (size : Nat) (runs : Bool)
  | directory
  | device

/-- What an operand leads to. -/
def find (p : Process) (operand : String) : Found :=
  let path := Narrow.widen operand
  match device? path with
  | some (.descriptor n) => if (p.fileOf? n).isSome then .device else .nothing
  | some _ => .device
  | none =>
      match p.world.tree.look true path with
      | .ok (_, .file n bytes) => .file bytes.length (p.world.runnable.contains n)
      | .ok _ => .directory
      | .error _ => .nothing

/-- Whether an operand is a link. -/
def isLink (p : Process) (operand : String) : Bool :=
  match p.world.tree.look false (Narrow.widen operand) with
  | .ok (_, .link _) => true
  | _ => false

/-- The number that an operand writes. -/
def number (s : String) : Except String Int :=
  match decimal? s with
  | some n => .ok n
  | none => .error ("Illegal number: " ++ s)

/-- The answer of an operator before an operand. -/
def unary (p : Process) (operator operand : String) : Except String Bool :=
  match operator with
  | "-z" => .ok operand.isEmpty
  | "-n" => .ok !operand.isEmpty
  | "-t" => (number operand).map fun _ => false
  | "-h" | "-L" => .ok (isLink p operand)
  | operator =>
      .ok (match operator, find p operand with
        | _, .nothing => false
        | "-f", .file .. => true
        | "-d", .directory => true
        | "-c", .device => true
        | "-x", .file _ runs => runs
        | "-x", .directory => true
        | "-s", .file size _ => 0 < size
        | "-s", .directory => true
        | "-e", _ | "-r", _ | "-w", _ | "-O", _ | "-G", _ => true
        | _, _ => false)

/-- Whether two operands lead to one file. -/
def isSame (p : Process) (a b : String) : Bool :=
  match p.world.tree.look true (Narrow.widen a), p.world.tree.look true (Narrow.widen b) with
  | .ok (x, _), .ok (y, _) => x == y
  | _, _ => false

/-- The answer of an operator between two operands. -/
def binary (p : Process) (a operator b : String) : Except String Bool :=
  let compare (test : Int → Int → Bool) : Except String Bool := do
    return test (← number a) (← number b)
  match operator with
  | "=" => .ok (a == b)
  | "!=" => .ok (a != b)
  | "<" => .ok (decide (a < b))
  | ">" => .ok (decide (b < a))
  | "-eq" => compare fun m n => m == n
  | "-ne" => compare fun m n => m != n
  | "-ge" => compare fun m n => decide (m ≥ n)
  | "-gt" => compare fun m n => decide (m > n)
  | "-le" => compare fun m n => decide (m ≤ n)
  | "-lt" => compare fun m n => decide (m < n)
  | "-ef" => .ok (isSame p a b)
  | _ => .ok false

mutual

/-- Terms joined by `-o`. Gives the answer and the words from the last one that counts. -/
def disjunction (p : Process) : Nat → Lexeme → List String → Except String (Bool × List String)
  | 0, _, w => .ok (false, w)
  | fuel + 1, t, w => do
      let (a, w) ← conjunction p fuel t w
      if lexeme w.tail = .disjunction then
        let w := w.drop 2
        let (b, w) ← disjunction p fuel (lexeme w) w
        return (a || b, w)
      else return (a, w)

/-- Terms joined by `-a`. -/
def conjunction (p : Process) : Nat → Lexeme → List String → Except String (Bool × List String)
  | 0, _, w => .ok (false, w)
  | fuel + 1, t, w => do
      let (a, w) ← negation p fuel t w
      if lexeme w.tail = .conjunction then
        let w := w.drop 2
        let (b, w) ← conjunction p fuel (lexeme w) w
        return (a && b, w)
      else return (a, w)

/-- A term, negated or not. -/
def negation (p : Process) : Nat → Lexeme → List String → Except String (Bool × List String)
  | 0, _, w => .ok (false, w)
  | fuel + 1, t, w => do
      if t = .bang then
        let next := lexeme w.tail
        let (a, w) ← negation p fuel next (if next = .missing then w else w.tail)
        return (!a, w)
      else primary p fuel t w

/-- A term. -/
def primary (p : Process) : Nat → Lexeme → List String → Except String (Bool × List String)
  | 0, _, w => .ok (false, w)
  | fuel + 1, t, w =>
      match t with
      | .missing => .ok (false, w)
      | .openParen => do
          let w := w.tail
          if lexeme w = .closeParen then return (false, w)
          let (a, w) ← disjunction p fuel (lexeme w) w
          if lexeme w.tail = .closeParen then return (a, w.tail)
          else .error "closing paren expected"
      | .unary operator =>
          match w.tail with
          | [] => .error (operator ++ ": argument expected")
          | operand :: rest => do return (← unary p operator operand, operand :: rest)
      | _ =>
          match w, lexeme w.tail with
          | a :: _, .binary operator =>
              match w.drop 2 with
              | [] => .error (operator ++ ": argument expected")
              | b :: rest => do return (← binary p a operator b, b :: rest)
          | w, _ => .ok (w.head?.any fun s => !s.isEmpty, w)

end

/-- Checks that nothing is left of a test, and gives the answer. -/
def finish (result : Bool × List String) : Except String Bool :=
  match result with
  | (_, word :: _ :: _) =>
      .error (if word.isEmpty then "unexpected operator" else word ++ ": unexpected operator")
  | (answer, _) => .ok answer

/-- The answer of a test whose first token is known. -/
def full (p : Process) (t : Lexeme) (w : List String) : Except String Bool := do
  finish (← disjunction p (8 * w.length + 8) t w)

/-- The answer of a test, or what is wrong with it. Tests of three and four words are read by rules
of their own. -/
def evaluate (p : Process) : List String → Except String Bool
  | [] => .ok false
  | [a, b, c] =>
      if binaryOperators.contains b then full p .operand [a, b, c]
      else if a = "(" ∧ c = ")" then full p (lexeme [b]) [b]
      else if a = "!" then (evaluate p [b, c]).map (!·)
      else full p (lexeme [a, b, c]) [a, b, c]
  | [a, b, c, d] =>
      if a = "(" ∧ d = ")" then full p (lexeme [b, c]) [b, c]
      else if a = "!" then (evaluate p [b, c, d]).map (!·)
      else full p (lexeme [a, b, c, d]) [a, b, c, d]
  | w => full p (lexeme w) w

/-- The command that tests. -/
def command (name : String) (arguments : List String) : Act Nat := do
  let words ←
    if name = "[" then
      match arguments.getLast? with
      | some "]" => pure arguments.dropLast
      | _ => fail "missing ]"
    else pure arguments
  match evaluate (← get) words with
  | .ok answer => return if answer then 0 else 1
  | .error message => fail message

end Playground.Shell.Test
