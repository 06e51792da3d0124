/-!
Splitting lists, such as texts, at single elements.
-/

namespace Playground.Text

/-- Splits at the last `sep`, which is dropped. -/
def splitLast? (sep : Char) (cs : List Char) : Option (List Char × List Char) :=
  match cs.reverse.span (· ≠ sep) with
  | (_, []) => none
  | (back, _ :: front) => some (front.reverse, back.reverse)

/-- Splits at every element that satisfies `p`; those elements are dropped. -/
def splitAll {α : Type} (p : α → Bool) (cs : List α) : List (List α) :=
  cs.foldr
    (fun c parts =>
      if p c then [] :: parts
      else match parts with
        | [] => [[c]]
        | part :: later => (c :: part) :: later)
    [[]]

end Playground.Text
