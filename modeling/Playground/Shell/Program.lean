import Playground.Shell.Process
/-!
Programs: what they have in common. They read their arguments in one way, name themselves when they
complain, and go on with the next operand where one has failed.
-/

namespace Playground.Shell

/-- A program: what it does with its arguments. It gives its exit status. -/
abbrev Program := List String → Act Nat

namespace Program

/-- Whether a byte is a printable character. -/
def isPrintable (c : Char) : Bool :=
  0x20 ≤ c.toNat && c.toNat < 0x7F

/-- The text of a byte by its octal number. -/
def octalEscape (c : Char) : List Char :=
  match c with
  | '\n' => "\\n".toList
  | '\t' => "\\t".toList
  | '\r' => "\\r".toList
  | c =>
      let ds := Nat.toDigits 8 c.toNat
      '\\' :: List.replicate (3 - ds.length) '0' ++ ds

/-- The text of an operand between quotes; `isEscaped` says that numbers of bytes are being
written. -/
def quotedChars : Bool → List Char → List Char
  | _, [] => []
  | isEscaped, c :: cs =>
      if !isPrintable c then
        (if isEscaped then [] else "'$'".toList) ++ octalEscape c ++ quotedChars true cs
      else
        (if isEscaped then "''".toList else []) ++
          (if c == '\'' then "'\\''".toList else [c]) ++ quotedChars false cs

/-- An operand in quotes. -/
def named (operand : String) : String :=
  let cs := operand.toList
  if cs.contains '\'' && cs.all fun c => isPrintable c && !"\"$\\\x60!".toList.contains c then
    "\"" ++ operand ++ "\""
  else "'" ++ String.ofList (quotedChars false cs) ++ "'"

/-- An operand, in quotes if it could be misread. -/
def shown (operand : String) : String :=
  let cs := operand.toList
  let isPlain (c : Char) : Bool := isPrintable c && !" !\"$&'()*;<=>?[\\^\x60|".toList.contains c
  let isLead := cs.head?.any fun c => c == '#' || c == '~'
  if !cs.isEmpty && cs.all isPlain && !isLead then operand else named operand

/-- Complains in the name of the program, as it was called. -/
def complain (message : String) : Act Unit := do
  writeTo 2 ((← get).name ++ ": " ++ message ++ "\n")

/-- What a program takes: its options as letters, each with a colon if it has an argument, and the
long names of some of them. -/
structure Usage where
  letters : String := ""
  long : List (String × Char) := []
  /-- The status where the arguments are wrong. -/
  status : Nat := 1

/-- Arguments as options and operands. -/
structure Arguments where
  options : List (Char × String)
  operands : List String

namespace Arguments

/-- Whether an option is given. -/
def has (a : Arguments) (c : Char) : Bool :=
  a.options.any (·.1 == c)

/-- The argument of the last option of a letter. -/
def get? (a : Arguments) (c : Char) : Option String :=
  a.options.reverse.lookup c

/-- Arguments with an option more. -/
def withOption (a : Arguments) (c : Char) (value : String) : Arguments :=
  { a with options := (c, value) :: a.options }

/-- Arguments with an operand more. -/
def withOperand (a : Arguments) (s : String) : Arguments :=
  { a with operands := s :: a.operands }

end Arguments

/-- Reads arguments; options may come after operands. What is wrong is said with what could help. -/
def read (u : Usage) : List String → Except String Arguments
  | [] => .ok ⟨[], []⟩
  | argument :: rest =>
      match argument.toList with
      | ['-', '-'] => .ok ⟨[], rest⟩
      | '-' :: '-' :: name =>
          let name := String.ofList name
          match u.long.lookup name with
          | some c => (read u rest).map (·.withOption c "")
          | none => .error ("unrecognized option '" ++ argument ++ "'")
      | '-' :: c :: cs => letters u rest (c :: cs)
      | _ => (read u rest).map (·.withOperand argument)
where
  /-- Reads the letters of an argument. -/
  letters (u : Usage) (rest : List String) : List Char → Except String Arguments
    | [] => read u rest
    | c :: cs =>
        match u.letters.toList.dropWhile (· != c) with
        | _ :: ':' :: _ =>
            if !cs.isEmpty then (read u rest).map (·.withOption c (String.ofList cs))
            else match rest with
              | value :: rest => (read u rest).map (·.withOption c value)
              | [] => .error ("option requires an argument -- '" ++ c.toString ++ "'")
        | _ :: _ => (letters u rest cs).map (·.withOption c "")
        | [] => .error ("invalid option -- '" ++ c.toString ++ "'")

/-- Complains about arguments, and says what could help. -/
def misused (u : Usage) (message : String) : Act Nat := do
  complain message
  writeTo 2 ("Try '" ++ (← get).name ++ " --help' for more information.\n")
  return u.status

/-- A program that reads its arguments as told. -/
def ofUsage (u : Usage) (act : Arguments → Act Nat) : Program := fun arguments => do
  match read u arguments with
  | .ok a => act a
  | .error message => misused u message

/-- Does something for each operand. Gives status 1 if one of them has failed. -/
def forEach (act : String → Act Bool) : List String → Act Nat
  | [] => return 0
  | operand :: operands => do
      let done ← act operand
      let later ← forEach act operands
      return if done then later else 1

/-- The bytes that can be read from a descriptor; they are taken. -/
def takeInput (descriptor : Nat) : Act (Except String String) := do
  let p ← get
  match p.fileOf? descriptor with
  | none => return .error "Bad file descriptor"
  | some i =>
      match p.world.unread i with
      | some bytes => do
          set { p with world := p.world.advance i bytes.length }
          return .ok (Narrow.ofBytes bytes)
      | none =>
          match p.world.opened[i]? with
          | some { channel := .directory, .. } => return .error "Is a directory"
          | _ => return .error "Bad file descriptor"

/-- The bytes of the file that an operand names; a dash names the input. -/
def input (operand : String) : Act (Except String String) := do
  if operand = "-" then takeInput 0
  else if operand = "/dev/null" then return .ok ""
  else if operand = "/dev/stdin" then takeInput 0
  else
    match (← tree).read (Narrow.widen operand) with
    | .ok bytes => return .ok (Narrow.ofBytes bytes)
    | .error e => return .error e.reason

/-- The lines of a text; the last one may lack its end. -/
def linesOf (s : String) : List String :=
  let lines := (s.toList.foldr
    (fun c lines =>
      if c == '\n' then [] :: lines
      else match lines with
        | [] => [[c]]
        | line :: later => (c :: line) :: later)
    [[]])
  let lines := if lines.getLast? = some [] then lines.dropLast else lines
  lines.map String.ofList

/-- Prints lines. -/
def printLines (lines : List String) : Act Unit :=
  print (String.join (lines.map (· ++ "\n")))

end Program

end Playground.Shell
