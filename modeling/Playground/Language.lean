import Playground.Text.Blank
/-!
Language tags. A tag is trimmed and its ASCII letters are lower case.
-/

namespace Playground

/-- Tag of a programming language. -/
structure Language where
  tag : String
deriving DecidableEq, Repr

namespace Language

/-- Lower case for ASCII letters; other characters stay. -/
def lowerAscii (c : Char) : Char :=
  if 'A' ≤ c ∧ c ≤ 'Z' then Char.ofNat (c.toNat + 32) else c

/-- The language written as `tag`. -/
def ofTag (tag : String) : Language :=
  ⟨String.ofList ((Text.trim tag.toList).map lowerAscii)⟩

/-- The language of a workspace that names none. -/
def csharp : Language := ⟨"csharp"⟩

def fsharp : Language := ⟨"fsharp"⟩

instance : Inhabited Language := ⟨csharp⟩

end Language

end Playground
