/-!
The tokens of shell scripts.
-/

namespace Playground.Shell

/-- A kind of token. -/
inductive Token where
  | endOfFile
  | newline
  | semicolon
  | ampersand
  | andAnd
  | orOr
  | bar
  | openParen
  | closeParen
  | endCase
  | redirection
  | word
  | bang
  | case_
  | do_
  | done
  | elif_
  | else_
  | esac
  | fi
  | for_
  | if_
  | in_
  | then_
  | until_
  | while_
  | openBrace
  | closeBrace
deriving DecidableEq, Repr, Inhabited

namespace Token

/-- The words that are tokens of their own where a command may start. -/
def keywords : List (String × Token) :=
  [("!", bang), ("case", case_), ("do", do_), ("done", done), ("elif", elif_), ("else", else_),
    ("esac", esac), ("fi", fi), ("for", for_), ("if", if_), ("in", in_), ("then", then_),
    ("until", until_), ("while", while_), ("\x7b", openBrace), ("\x7d", closeBrace)]

/-- The keyword that a text is. -/
def ofKeyword? (s : String) : Option Token :=
  keywords.lookup s

/-- The spelling of a token that has one. -/
def spelling? : Token → Option String
  | semicolon => some ";"
  | ampersand => some "&"
  | andAnd => some "&&"
  | orOr => some "||"
  | bar => some "|"
  | openParen => some "("
  | closeParen => some ")"
  | endCase => some ";;"
  | t => (keywords.find? (·.2 == t)).map (·.1)

/-- How complaints name a token. -/
def name (t : Token) : String :=
  match t with
  | endOfFile => "end of file"
  | newline => "newline"
  | redirection => "redirection"
  | word => "word"
  | t => "\"" ++ (spelling? t).getD "" ++ "\""

/-- Whether the token ends a list of commands. -/
def endsList (t : Token) : Bool :=
  match t with
  | endOfFile | closeParen | endCase | do_ | done | elif_ | else_ | esac | fi | then_
  | closeBrace => true
  | _ => false

end Token

end Playground.Shell
