import Playground.Shell.Level
/-!
Reading scripts: words, tokens and commands. Words may hold commands and commands hold words, so all
of it is one recursion; every call has less fuel, of which there is more than the script can use.
-/

namespace Playground.Shell.Read

/-- Whether the character names a parameter of the shell itself. -/
def isSpecialParameter (c : Char) : Bool :=
  c.isDigit || "*@#?-$!".toList.contains c

/-- What has been read of a parameter: its name, and what is done with it if that is clear. -/
structure ParameterHead where
  name : String
  treatment : Treatment
  orEmpty : Bool

/-- The treatment that a character after the name asks for. -/
def treatment? (c : Option Char) : Option Treatment :=
  match c with
  | some '-' => some .fallback
  | some '=' => some .assign
  | some '?' => some .demand
  | some '+' => some .instead
  | some '\x7d' => some .plain
  | _ => none

/-- Reads what is done with the parameter `name` in braces; `c` is the character after the name. -/
def treatment (name : String) (c : Option Char) : Read ParameterHead := do
  match c with
  | some ':' => return ⟨name, (treatment? (← nextJoined)).getD .unknown, true⟩
  | some '%' =>
      match ← nextJoined with
      | some '%' => return ⟨name, .dropEnd true, false⟩
      | d => do
          unread d
          return ⟨name, .dropEnd false, false⟩
  | some '#' =>
      match ← nextJoined with
      | some '#' => return ⟨name, .dropStart true, false⟩
      | d => do
          unread d
          return ⟨name, .dropStart false, false⟩
  | c => return ⟨name, (treatment? c).getD .unknown, false⟩

/-- Reads a name that starts with `c`, and gives the character after it. -/
def parameterName? (c : Option Char) : Read (Option (String × Option Char)) := do
  let limit := (← get).atoms.length + 2
  match c with
  | some d => do
      if Word.startsName d || d.isDigit then
        let isPart := if d.isDigit then Char.isDigit else Word.isNameChar
        let (cs, after) ← run isPart limit [] c
        return some (String.ofList cs, after)
      else return none
  | none => return none

/-- Ends the head of a length. -/
def lengthHead (name : String) (after : Option Char) : Read ParameterHead := do
  unread after
  return ⟨name, if after = some '\x7d' then .length else .unknown, false⟩

/-- Reads the head of a parameter in braces, up to where its word begins. -/
def bracedHead : Read ParameterHead := do
  let c ← nextJoined
  match ← parameterName? c with
  | some (name, after) => treatment name after
  | none => do
      if c = some '\x7d' then
        unread c
        return ⟨"", .unknown, false⟩
      let after ← nextJoined
      if c = some '#' then
        match ← parameterName? after with
        | some (name, after) => lengthHead name after
        | none => do
            let later ← nextJoined
            if after ≠ some '\x7d' ∧ later = some '\x7d' then
              if after.any isSpecialParameter then
                lengthHead (after.elim "" Char.toString) later
              else
                unread later
                return ⟨"", .unknown, false⟩
            else
              unread later
              treatment "#" after
      else if c.any isSpecialParameter then treatment (c.elim "" Char.toString) after
      else
        unread after
        return ⟨"", .unknown, false⟩

/-- Reads the text between backquotes. -/
def backquoted (inDouble : Bool) : Nat → List Char → Read (List Char)
  | 0, acc => return acc.reverse
  | n + 1, acc => do
      match ← nextJoined with
      | none => throw "EOF in backquote substitution"
      | some '\x60' => return acc.reverse
      | some '\\' =>
          match ← next with
          | none => throw "EOF in backquote substitution"
          | some c => do
              if c = '\n' then countLine
              let isPlain := c == '\\' || c == '\x60' || c == '$' || (inDouble && c == '"')
              backquoted inDouble n (if isPlain then c :: acc else c :: '\\' :: acc)
      | some c => do
          if c = '\n' then countLine
          backquoted inDouble n (c :: acc)

/-- Sets what words have no part of aside while a command inside a word is read. -/
def aside {α : Type} (read : Read α) : Read α := do
  let before ← get
  modify fun s => { s with waiting := [], isPushed := false }
  let result ← read
  modify fun s => { s with
    waiting := before.waiting
    isQuoted := before.isQuoted
    isPushed := false
    checks := before.checks }
  return result

/-- Reads a redirection after its first character. -/
def redirection (descriptor : Option Nat) (c : Char) : Read Token := do
  let file (d : Nat) (o : Opening) : Read Token := do
    modify fun s => { s with redirect := .file (descriptor.getD d) o [] }
    give .redirection
  if c = '>' then
    match ← nextJoined with
    | some '>' => file 1 .append
    | some '|' => file 1 .overwrite
    | some '&' => do
        modify fun s => { s with redirect := .duplicate (descriptor.getD 1) [] }
        give .redirection
    | d => do
        unread d
        file 1 .write
  else
    match ← nextJoined with
    | some '<' => do
        let d ← nextJoined
        if d ≠ some '-' then unread d
        let number := (← get).nextDocument
        modify fun s => { s with
          redirect := .document (descriptor.getD 0) number
          nextDocument := number + 1
          waiting := s.waiting ++ [⟨number, [], d = some '-', false⟩] }
        give .redirection
    | some '&' => do
        modify fun s => { s with redirect := .duplicate (descriptor.getD 0) [] }
        give .redirection
    | some '>' => file 0 .readWrite
    | d => do
        unread d
        file 0 .read

/-- The redirection with the word that follows it. -/
def withTarget (r : Redirect) (w : Word) : Redirect :=
  match r with
  | .file d o _ => .file d o w
  | .duplicate d _ => .duplicate d w
  | .document d n => .document d n

/-- Sets the end mark of the text that a redirection asks for. -/
def setMark (number : Nat) (w : Word) (isQuoted : Bool) : Read Unit :=
  modify fun s => { s with
    waiting := s.waiting.map fun x =>
      if x.number = number then { x with mark := w.chars, isRaw := isQuoted } else x }

/-- A command with the redirections behind it. -/
def redirected (line : Nat) (c : Command) (redirects : List Redirect) : Command :=
  if redirects.isEmpty then c
  else match c with
    | .subshell l body _ => .subshell l body redirects
    | c => .redirected line c redirects

/-- A command that nobody waits for. -/
def inBackground : Command → Command
  | .pipeline commands _ => .pipeline commands true
  | .redirected line body redirects => .background line body redirects
  | c => .background 0 c []

/-- The names that functions cannot have because the shell needs the commands itself. -/
def reservedNames : List String :=
  [".", ":", "break", "continue", "eval", "exec", "exit", "export", "local", "readonly", "return",
    "set", "shift", "times", "trap", "unset"]

/-- Leaves a level at the end of the script or text. -/
def leave (l : Level) (acc : List Part) : Read (List Part) := do
  match l.fault? with
  | some fault => throw fault
  | none => return acc.reverse

/-- Ends a word. -/
def finish (word : Word) (isQuoted : Bool) : Read Token := do
  modify fun s => { s with word, isQuoted }
  give .word

mutual

/-- Reads parts up to the end of a level; `c` is the next character. -/
def parts : Nat → Level → Option Char → List Part → Read (List Part)
  | 0, _, _, _ => throw "script too long"
  | fuel + 1, l, c, acc => do
      let goOn (l : Level) (more : List Part) : Read (List Part) := do
        let c ← if l.quoting = .single then next else nextJoined
        parts fuel l c (more.reverse ++ acc)
      match c with
      | none => leave l acc
      | some '\n' => do
          if l.quoting = .bare && !l.inBraces then
            unread c
            return acc.reverse
          countLine
          lineStart fuel l (.char '\n' :: acc)
      | some c => do
          match l.quoting.role c with
          | .ordinary => goOn l [.char c]
          | .special =>
              goOn l (if l.document.isNone || l.inDouble then [.escaped c] else [.char c])
          | .backslash =>
              match ← next with
              | none => goOn l [.escaped '\\']
              | some d => do
                  modify fun s => { s with isQuoted := true }
                  goOn l (l.escapeParts d)
          | .singleQuote => goOn { l with quoting := .single } l.quoteParts
          | .doubleQuote =>
              goOn ({ l with quoting := .double, inDouble := true } : Level).toggled l.quoteParts
          | .endQuote => do
              if l.document.isSome && !l.inBraces then goOn l [.char c]
              else
                let l := if l.keepsQuotes then l else { l with quoting := .bare, inDouble := false }
                modify fun s => { s with isQuoted := true }
                goOn (if c = '"' then l.toggled else l) l.quoteParts
          | .dollar => goOn l (← dollar fuel l)
          | .backquote => do
              if (← get).checks.mark then goOn l [.char c]
              else goOn l [← oldOutput fuel l]
          | .closeBrace =>
              if l.inBraces && !l.innerDouble then return acc.reverse
              else goOn l [.char c]
          | .openParen => goOn { l with parens := l.parens + 1 } [.char c]
          | .closeParen => do
              if 0 < l.parens then goOn { l with parens := l.parens - 1 } [.char c]
              else
                match ← nextJoined with
                | some ')' => return acc.reverse
                | d => do
                    unread d
                    goOn l [.char c]
          | .breaker => do
              if l.inBraces then goOn l [.char c]
              else
                unread (some c)
                return acc.reverse

/-- Reads on at the start of a line, where a text in the script may end. -/
def lineStart : Nat → Level → List Part → Read (List Part)
  | 0, _, _ => throw "script too long"
  | fuel + 1, l, acc => do
      if l.quoting ≠ .single then unread (← nextJoined)
      let ended ← match l.document with
        | some (mark, strips) => takesMark mark strips
        | none => pure false
      if ended then leave l acc else parts fuel l (← next) acc

/-- Reads what a dollar sign introduces. -/
def dollar : Nat → Level → Read (List Part)
  | 0, _ => throw "script too long"
  | fuel + 1, l => do
      let c ← nextJoined
      let starts := c.any fun d =>
        d == '(' || d == '\x7b' || Word.startsName d || isSpecialParameter d
      if (← get).checks.mark || !starts then
        unread c
        return [.char '$']
      else if c = some '(' then
        match ← nextJoined with
        | some '(' => do
            let l := l.forArithmetic
            return [.arithmetic (← parts fuel l (← nextJoined) [])]
        | d => do
            unread d
            let script ← aside do
              let (script, _) ← list fuel 2 none
              if (← readToken fuel) ≠ .closeParen then unexpected (some .closeParen)
              return script
            return [.output script]
      else if c = some '\x7b' then
        let head ← bracedHead
        if head.treatment = .plain ∧ !head.orEmpty then return [.param head.name .plain false []]
        let isPattern := match head.treatment with
          | .dropStart _ | .dropEnd _ => true
          | _ => false
        let l := l.forBraces isPattern
        let word ← parts fuel l (← nextJoined) []
        return [.param head.name head.treatment head.orEmpty word]
      else if c.any Word.startsName then
        match ← parameterName? c with
        | some (name, after) => do
            unread after
            return [.param name .plain false []]
        | none => return []
      else return [.param (c.elim "" Char.toString) .plain false []]

/-- Reads the command between backquotes. -/
def oldOutput : Nat → Level → Read Part
  | 0, _ => throw "script too long"
  | fuel + 1, l => do
      let text ← backquoted l.inDouble ((← get).atoms.length + 1) []
      let before ← get
      set { before with atoms := text.map .char, line := 1, busy := [], spent := [] }
      let script ← aside do
        let (script, _) ← list fuel 2 none
        documents fuel
        return script
      modify fun s => { s with
        atoms := before.atoms
        line := before.line
        busy := before.busy
        spent := before.spent }
      return .output script

/-- Reads the texts that redirections on the line have asked for. -/
def documents : Nat → Read Unit
  | 0 => throw "script too long"
  | fuel + 1 => do
      match (← get).waiting with
      | [] => return ()
      | w :: rest => do
          modify fun s => { s with waiting := rest }
          let text ← lineStart fuel (Level.ofDocument w) []
          modify fun s => { s with documents := s.documents ++ [(w.number, text)] }
          documents fuel

/-- Reads a word or a redirection that starts with `c`. -/
def wordToken : Nat → Option Char → Read Token
  | 0, _ => throw "script too long"
  | fuel + 1, c => do
      modify fun s => { s with isQuoted := false }
      let word ← parts fuel {} c []
      let isQuoted := (← get).isQuoted
      let after := match (← get).atoms with
        | .char d :: _ => some d
        | _ => none
      let redirected (descriptor : Option Nat) (d : Char) : Read Token := do
        if isQuoted then finish word isQuoted
        else
          let _ ← next
          redirection descriptor d
      let descriptor? : Option (Option Nat) := match word with
        | [] => some none
        | [.char d] => if d.isDigit then some (some (d.toNat - '0'.toNat)) else none
        | _ => none
      match after, descriptor? with
      | some '<', some d => redirected d '<'
      | some '>', some d => redirected d '>'
      | _, _ => finish word isQuoted

/-- Reads a token without regard to keywords and aliases. -/
def rawToken : Nat → Read Token
  | 0 => throw "script too long"
  | fuel + 1 => do
      if (← get).isPushed then
        modify fun s => { s with isPushed := false }
        return (← get).token
      let doubled (c : Char) (two one : Token) : Read Token := do
        let d ← nextJoined
        if d = some c then give two
        else
          unread d
          give one
      match ← nextJoined with
      | some ' ' | some '\t' => rawToken fuel
      | some '#' => do
          skipLine ((← get).atoms.length + 1)
          rawToken fuel
      | some '\n' => do
          countLine
          give .newline
      | none => give .endOfFile
      | some '&' => doubled '&' .andAnd .ampersand
      | some '|' => doubled '|' .orOr .bar
      | some ';' => doubled ';' .endCase .semicolon
      | some '(' => give .openParen
      | some ')' => give .closeParen
      | c => wordToken fuel c

/-- Reads tokens until one is no line break. -/
def pastNewlines : Nat → Read Token
  | 0 => throw "script too long"
  | fuel + 1 => do
      match ← rawToken fuel with
      | .newline => do
          documents fuel
          check {}
          pastNewlines fuel
      | t => return t

/-- Reads a token that is checked as given and as asked for meanwhile. -/
def tokenFor : Nat → Checks → Read Token
  | 0, _ => throw "script too long"
  | fuel + 1, wanted => do
      let t ← if wanted.newline then pastNewlines fuel else rawToken fuel
      let s ← get
      let wanted := { wanted with
        keyword := wanted.keyword || s.checks.keyword
        nickname := wanted.nickname || s.checks.nickname }
      check {}
      match t, s.isQuoted, Word.plain? s.word with
      | .word, false, some text =>
          match if wanted.keyword then Token.ofKeyword? text else none with
          | some k => give k
          | none =>
              match if wanted.nickname && !s.busy.contains text then s.aliases.lookup text
                else none with
              | some value => do
                  modify (·.insertAlias text value)
                  tokenFor fuel wanted
              | none => return t
      | t, _, _ => return t

/-- Reads a token. -/
def readToken : Nat → Read Token
  | 0 => throw "script too long"
  | fuel + 1 => do
      tokenFor fuel (← get).checks

/-- Reads the word that a redirection needs. -/
def target : Nat → Read Redirect
  | 0 => throw "script too long"
  | fuel + 1 => do
      let r := (← get).redirect
      match r with
      | .document .. => check { mark := true }
      | _ => pure ()
      if (← readToken fuel) ≠ .word then unexpected none
      let s ← get
      match r with
      | .document _ n => setMark n s.word s.isQuoted
      | _ => pure ()
      return withTarget r s.word

/-- Reads redirections as long as there are any. -/
def redirects : Nat → Read (List Redirect)
  | 0 => throw "script too long"
  | fuel + 1 => do
      if (← readToken fuel) = .redirection then
        let r ← target fuel
        return r :: (← redirects fuel)
      else
        pushBack
        return []

/-- Reads commands up to the end of a list, after those in `sofar`. A list of kind 0 has at least
one command, one of kind 1 is a line, and one of kind 2 may be empty. Gives whether a line could not
be had because the script has ended. -/
def list : Nat → Nat → Option Command → Read (Option Command × Bool)
  | 0, _, _ => throw "script too long"
  | fuel + 1, kind, sofar => do
      let isLine := kind = 1 ∨ kind = 3
      check { newline := !isLine, keyword := true, nickname := true }
      match ← readToken fuel with
      | .newline => do
          documents fuel
          return (sofar, false)
      | .endOfFile => do
          documents fuel
          modify fun s => { s with token := .endOfFile, isPushed := true }
          return (sofar, sofar.isNone && isLine)
      | t => do
          pushBack
          if kind = 2 ∧ t.endsList then return (sofar, false)
          let kind := if isLine then 3 else 2
          let c ← andOr fuel
          let t ← readToken fuel
          let c := if t = .ampersand then inBackground c else c
          let sofar := match sofar with
            | some before => .sequence before c
            | none => c
          match t with
          | .endOfFile => do
              documents fuel
              modify fun s => { s with token := .endOfFile, isPushed := true }
              return (some sofar, false)
          | .newline => do
              pushBack
              list fuel kind (some sofar)
          | .ampersand | .semicolon => list fuel kind (some sofar)
          | _ => do
              if isLine then unexpected none
              pushBack
              return (some sofar, false)

/-- Reads a list that holds at least one command. At the end of the script there is none, about
which whoever expects something behind it complains. -/
def block : Nat → Read Command
  | 0 => throw "script too long"
  | fuel + 1 => do
      let (c, _) ← list fuel 0 none
      return c.getD default

/-- Reads pipelines joined by `&&` and `||`. -/
def andOr : Nat → Read Command
  | 0 => throw "script too long"
  | fuel + 1 => do
      andOrRest fuel (← pipeline fuel)

/-- Reads what is joined to a pipeline. -/
def andOrRest : Nat → Command → Read Command
  | 0, _ => throw "script too long"
  | fuel + 1, a => do
      let t ← readToken fuel
      match t with
      | .andAnd | .orOr => do
          check { newline := true, keyword := true, nickname := true }
          let b ← pipeline fuel
          andOrRest fuel (if t = .andAnd then .both a b else .either a b)
      | _ => do
          pushBack
          return a

/-- Reads a pipeline. -/
def pipeline : Nat → Read Command
  | 0 => throw "script too long"
  | fuel + 1 => do
      let isNegated := (← readToken fuel) = .bang
      if isNegated then check { keyword := true, nickname := true } else pushBack
      let first ← command fuel
      let rest ← stages fuel
      let c := if rest.isEmpty then first else .pipeline (first :: rest) false
      return if isNegated then .negation c else c

/-- Reads the further commands of a pipeline. -/
def stages : Nat → Read (List Command)
  | 0 => throw "script too long"
  | fuel + 1 => do
      if (← readToken fuel) = .bar then
        check { newline := true, keyword := true, nickname := true }
        let c ← command fuel
        return c :: (← stages fuel)
      else
        pushBack
        return []

/-- Reads a token that must be the given one. -/
def expect : Nat → Token → Read Unit
  | 0, _ => throw "script too long"
  | fuel + 1, t => do
      if (← readToken fuel) ≠ t then unexpected (some t)

/-- Reads a command. -/
def command : Nat → Read Command
  | 0 => throw "script too long"
  | fuel + 1 => do
      let line := (← get).line
      let t ← readToken fuel
      let closed (c : Command) (last : Token) : Read Command := do
        expect fuel last
        tail fuel line c
      match t with
      | .if_ => do
          let condition ← block fuel
          expect fuel .then_
          let body ← block fuel
          closed (.branch condition body (← otherwise fuel)) .fi
      | .while_ | .until_ => do
          let condition ← block fuel
          expect fuel .do_
          closed (.loop (t = .until_) condition (← block fuel)) .done
      | .for_ => do
          let (name, words) ← eachHead fuel
          closed (.each line name words (← block fuel)) .done
      | .case_ => do
          if (← readToken fuel) ≠ .word then unexpected (some .word)
          let subject := (← get).word
          check { newline := true, keyword := true, nickname := true }
          expect fuel .in_
          tail fuel line (.choice line subject (← cases fuel))
      | .openParen => do closed (.subshell line (← block fuel) []) .closeParen
      | .openBrace => do closed (← block fuel) .closeBrace
      | .word | .redirection => do
          pushBack
          let line := (← get).line
          simple fuel line true [] [] []
      | _ => unexpected none

/-- Reads the redirections behind a command. -/
def tail : Nat → Nat → Command → Read Command
  | 0, _, _ => throw "script too long"
  | fuel + 1, line, c => do
      check { keyword := true, nickname := true }
      return redirected line c (← redirects fuel)

/-- Reads the rest of a branch up to its `fi`. -/
def otherwise : Nat → Read (Option Command)
  | 0 => throw "script too long"
  | fuel + 1 => do
      match ← readToken fuel with
      | .elif_ => do
          let condition ← block fuel
          expect fuel .then_
          let body ← block fuel
          return some (.branch condition body (← otherwise fuel))
      | .else_ => return some (← block fuel)
      | _ => do
          pushBack
          return none

/-- Reads the head of a loop over words, up to its `do`. -/
def eachHead : Nat → Read (String × List Word)
  | 0 => throw "script too long"
  | fuel + 1 => do
      let t ← readToken fuel
      let s ← get
      match t, s.isQuoted, (Word.plain? s.word).filter Word.isName with
      | .word, false, some name => do
          check { newline := true, keyword := true, nickname := true }
          let words : List Word ← do
            if (← readToken fuel) = .in_ then
              let ws ← words fuel
              let last := (← get).token
              if last ≠ .newline ∧ last ≠ .semicolon then unexpected none
              pure ws
            else
              if (← get).token ≠ .semicolon then pushBack
              pure [[.quote, .param "@" .plain false [], .quote]]
          check { newline := true, keyword := true, nickname := true }
          expect fuel .do_
          return (name, words)
      | _, _, _ => throw "Bad for loop variable"

/-- Reads words as long as there are any. -/
def words : Nat → Read (List Word)
  | 0 => throw "script too long"
  | fuel + 1 => do
      if (← readToken fuel) = .word then
        let w := (← get).word
        return w :: (← words fuel)
      else return []

/-- Reads the cases of a choice up to its `esac`. -/
def cases : Nat → Read (List (List Word × Option Command))
  | 0 => throw "script too long"
  | fuel + 1 => do
      check { newline := true, keyword := true }
      match ← readToken fuel with
      | .esac => return []
      | t => do
          if t = .openParen then let _ ← readToken fuel
          let ps ← patterns fuel
          if (← get).token ≠ .closeParen then unexpected (some .closeParen)
          let (body, _) ← list fuel 2 none
          check { newline := true, keyword := true }
          match ← readToken fuel with
          | .esac => return [(ps, body)]
          | .endCase => return (ps, body) :: (← cases fuel)
          | _ => unexpected (some .endCase)

/-- Reads the patterns of a case; the first one is the last word. -/
def patterns : Nat → Read (List Word)
  | 0 => throw "script too long"
  | fuel + 1 => do
      let w := (← get).word
      if (← readToken fuel) = .bar then
        let _ ← readToken fuel
        return w :: (← patterns fuel)
      else return [w]

/-- Reads a simple command after some of its parts, the last ones first. An assignment and an alias
can come only `early`. -/
def simple : Nat → Nat → Bool → List Word → List Word → List Redirect → Read Command
  | 0, _, _, _, _, _ => throw "script too long"
  | fuel + 1, line, early, ws, assignments, rs => do
      check { nickname := early }
      match ← readToken fuel with
      | .word => do
          let w := (← get).word
          if early && w.isAssignment then simple fuel line true ws (w :: assignments) rs
          else simple fuel line false (w :: ws) assignments rs
      | .redirection => do simple fuel line early ws assignments ((← target fuel) :: rs)
      | .openParen =>
          match ws, assignments, rs with
          | [w], [], [] => do
              expect fuel .closeParen
              match (Word.plain? w).filter fun s =>
                  Word.isName s && !reservedNames.contains s with
              | some name => do
                  check { newline := true, keyword := true, nickname := true }
                  return .define name (← command fuel)
              | none => throw "Bad function name"
          | _, _, _ => do
              pushBack
              return .simple line ws.reverse assignments.reverse rs.reverse
      | _ => do
          pushBack
          return .simple line ws.reverse assignments.reverse rs.reverse

end

/-- How much fuel reading may use. -/
def plenty : Nat := 1000000

/-- What a line of a script holds. -/
inductive Line where
  | nothing
  | command (c : Command)
  /-- There is no further line. -/
  | ended

/-- Reads the next line of a script; commands may make it longer than one. -/
def line : Read Line := do
  modify fun s => { s with isPushed := false, checks := {}, waiting := [] }
  match ← list plenty 1 none with
  | (some c, _) => return .command c
  | (none, hasEnded) => return if hasEnded then .ended else .nothing

/-- Reads the whole source as a word in double quotes. -/
def quotedText : Read Word :=
  lineStart plenty (Level.ofDocument ⟨0, ['\x00'], false, false⟩) []

end Playground.Shell.Read
