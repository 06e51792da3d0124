import Playground.Text.Line
import Mathlib.Data.List.Basic
/-!
# Lines of a text

A text is cut into lines after every line feed, so all lines but possibly the last one end in a line
feed.  `AreLines` says which lists of lines arise that way; splitting and joining are inverse to
each other on them.
-/

namespace Playground.Text

/-! ## 1. Splitting, one character at a time -/

@[simp] theorem lines_nil : lines [] = [] := rfl

@[simp] theorem lines_cons_lf (cs : List Char) : lines ('\n' :: cs) = ['\n'] :: lines cs := rfl

theorem lines_cons_of_ne {c : Char} (hc : c ≠ '\n') (cs : List Char) :
    lines (c :: cs) = (c :: (lines cs).headD []) :: (lines cs).tail := by
  unfold lines
  rw [List.foldr_cons, if_neg hc]
  generalize cs.foldr _ [] = rest
  cases rest <;> rfl

theorem lines_ne_nil {cs : List Char} (h : cs ≠ []) : lines cs ≠ [] := by
  obtain ⟨c, cs, rfl⟩ := List.exists_cons_of_ne_nil h
  by_cases hc : c = '\n'
  · subst hc
    exact List.cons_ne_nil _ _
  · rw [lines_cons_of_ne hc]
    exact List.cons_ne_nil _ _

theorem flatten_lines (cs : List Char) : (lines cs).flatten = cs := by
  induction cs with
  | nil => rfl
  | cons c cs ih =>
    by_cases hc : c = '\n'
    · subst hc
      rw [lines_cons_lf, List.flatten_cons, ih]
      rfl
    · rw [lines_cons_of_ne hc, List.flatten_cons]
      cases hl : lines cs with
      | nil => rw [hl] at ih; simpa using ih
      | cons line later => rw [hl] at ih; simpa using ih

theorem mem_of_mem_lines {cs line : List Char} {c : Char} (hl : line ∈ lines cs) (hc : c ∈ line) :
    c ∈ cs := by
  rw [← flatten_lines cs]
  exact List.mem_flatten.mpr ⟨line, hl, hc⟩

/-! ## 2. Whole lines -/

/-- A line that ends in its only line feed. -/
def IsLine (line : List Char) : Prop :=
  ∃ body, '\n' ∉ body ∧ line = body ++ ['\n']

/-- The lists of lines that a text is split into: only the last line may lack its line feed. -/
inductive AreLines : List (List Char) → Prop where
  | nil : AreLines []
  | last {line : List Char} (hne : line ≠ []) (hlf : '\n' ∉ line) : AreLines [line]
  | cons {line : List Char} {later : List (List Char)} (hline : IsLine line)
      (hlater : AreLines later) : AreLines (line :: later)

theorem IsLine.ne_nil {line : List Char} (h : IsLine line) : line ≠ [] := by
  obtain ⟨body, -, rfl⟩ := h
  exact List.append_ne_nil_of_right_ne_nil _ (List.cons_ne_nil _ _)

theorem isLine_lf : IsLine ['\n'] := ⟨[], List.not_mem_nil, rfl⟩

theorem IsLine.cons {line : List Char} (h : IsLine line) {c : Char} (hc : c ≠ '\n') :
    IsLine (c :: line) := by
  obtain ⟨body, hbody, rfl⟩ := h
  exact ⟨c :: body, by simp [hbody, hc.symm], rfl⟩

theorem lines_append_of_isLine {line : List Char} (h : IsLine line) (cs : List Char) :
    lines (line ++ cs) = line :: lines cs := by
  obtain ⟨body, hbody, rfl⟩ := h
  induction body with
  | nil => rfl
  | cons c body ih =>
    rw [List.mem_cons, not_or] at hbody
    rw [List.cons_append, List.cons_append, lines_cons_of_ne (Ne.symm hbody.1), ih hbody.2]
    rfl

theorem lines_of_no_lf {line : List Char} (hne : line ≠ []) (hlf : '\n' ∉ line) :
    lines line = [line] := by
  induction line with
  | nil => exact absurd rfl hne
  | cons c line ih =>
    rw [List.mem_cons, not_or] at hlf
    rw [lines_cons_of_ne (Ne.symm hlf.1)]
    by_cases hl : line = []
    · subst hl
      rfl
    · rw [ih hl hlf.2]
      rfl

theorem areLines_lines (cs : List Char) : AreLines (lines cs) := by
  induction cs with
  | nil => exact .nil
  | cons c cs ih =>
    by_cases hc : c = '\n'
    · subst hc
      exact .cons isLine_lf ih
    · rw [lines_cons_of_ne hc]
      generalize lines cs = parts at ih
      cases ih with
      | nil => exact .last (List.cons_ne_nil _ _) (by simpa using Ne.symm hc)
      | last hne hlf => exact .last (List.cons_ne_nil _ _) (by simpa [hlf] using Ne.symm hc)
      | cons hline hlater => exact .cons (hline.cons hc) hlater

theorem lines_flatten {parts : List (List Char)} (h : AreLines parts) :
    lines parts.flatten = parts := by
  induction h with
  | nil => rfl
  | last hne hlf =>
    rw [List.flatten_cons, List.flatten_nil, List.append_nil, lines_of_no_lf hne hlf]
  | cons hline hlater ih => rw [List.flatten_cons, lines_append_of_isLine hline, ih]

/-! ## 3. Lists of lines in parts -/

theorem AreLines.append {a b : List (List Char)} (ha : ∀ line ∈ a, IsLine line)
    (hb : AreLines b) : AreLines (a ++ b) := by
  induction a with
  | nil => exact hb
  | cons line a ih =>
    exact .cons (ha line List.mem_cons_self) (ih fun l hl => ha l (List.mem_cons_of_mem _ hl))

theorem AreLines.isLine_head {line : List Char} {later : List (List Char)}
    (h : AreLines (line :: later)) (hne : later ≠ []) : IsLine line := by
  cases h with
  | last => exact absurd rfl hne
  | cons hline _ => exact hline

theorem AreLines.tail {line : List Char} {later : List (List Char)}
    (h : AreLines (line :: later)) : AreLines later := by
  cases h with
  | last => exact .nil
  | cons _ hlater => exact hlater

theorem AreLines.change_tail {line : List Char} {later later' : List (List Char)}
    (h : AreLines (line :: later)) (hnil : later = [] → later' = []) (hlater : AreLines later') :
    AreLines (line :: later') := by
  cases h with
  | last hne hlf => rw [hnil rfl]; exact .last hne hlf
  | cons hline _ => exact .cons hline hlater

theorem AreLines.isLine_left {a b : List (List Char)} (h : AreLines (a ++ b)) (hb : b ≠ []) :
    ∀ line ∈ a, IsLine line := by
  induction a with
  | nil => exact fun line hl => absurd hl List.not_mem_nil
  | cons x a ih =>
    have hx : IsLine x := h.isLine_head (List.append_ne_nil_of_right_ne_nil _ hb)
    intro line hl
    rcases List.mem_cons.mp hl with rfl | hl
    · exact hx
    · exact ih h.tail line hl

theorem AreLines.right {a b : List (List Char)} (h : AreLines (a ++ b)) : AreLines b := by
  induction a with
  | nil => exact h
  | cons x a ih => exact ih h.tail

theorem AreLines.ne_nil {parts : List (List Char)} (h : AreLines parts) :
    ∀ line ∈ parts, line ≠ [] := by
  induction h with
  | nil => exact fun line hl => absurd hl List.not_mem_nil
  | last hne _ => simpa using hne
  | cons hline _ ih =>
    intro line hl
    rcases List.mem_cons.mp hl with rfl | hl
    · exact hline.ne_nil
    · exact ih line hl

/-! ## 4. Texts that end with a line -/

/-- Whether nothing follows the last line feed of a text. -/
def EndsLine (cs : List Char) : Prop :=
  cs = [] ∨ ∃ front, cs = front ++ ['\n']

theorem endsLine_append_lf (cs : List Char) : EndsLine (cs ++ ['\n']) := .inr ⟨cs, rfl⟩

theorem isLine_of_mem_lines {cs line : List Char} (h : EndsLine cs) (hl : line ∈ lines cs) :
    IsLine line := by
  rcases h with rfl | ⟨front, rfl⟩
  · exact absurd hl List.not_mem_nil
  · induction front generalizing line with
    | nil => rw [List.mem_singleton.mp hl]; exact isLine_lf
    | cons c front ih =>
      by_cases hc : c = '\n'
      · subst hc
        rcases List.mem_cons.mp hl with rfl | hl
        · exact isLine_lf
        · exact ih hl
      · rw [List.cons_append, lines_cons_of_ne hc] at hl
        obtain ⟨x, later, hparts⟩ := List.exists_cons_of_ne_nil
          (lines_ne_nil (List.append_ne_nil_of_right_ne_nil front (List.cons_ne_nil '\n' [])))
        rw [hparts] at hl ih
        rcases List.mem_cons.mp hl with rfl | hl
        · exact (ih List.mem_cons_self).cons hc
        · exact ih (List.mem_cons_of_mem _ hl)

theorem endsLine_flatten {parts : List (List Char)} (h : ∀ line ∈ parts, IsLine line) :
    EndsLine parts.flatten := by
  rcases List.eq_nil_or_concat parts with rfl | ⟨front, line, rfl⟩
  · exact .inl rfl
  · obtain ⟨body, -, rfl⟩ := h line (by simp)
    exact .inr ⟨front.flatten ++ body, by simp⟩

/-- A text is a number of whole lines and a rest without a line feed. -/
theorem exists_whole_lines (cs : List Char) :
    ∃ (whole : List (List Char)) (rest : List Char),
      (∀ line ∈ whole, IsLine line) ∧ '\n' ∉ rest ∧ cs = whole.flatten ++ rest := by
  have hparts := areLines_lines cs
  rw [← flatten_lines cs]
  generalize lines cs = parts at hparts
  induction hparts with
  | nil => exact ⟨[], [], fun line hl => absurd hl List.not_mem_nil, List.not_mem_nil, rfl⟩
  | @last line _ hlf =>
    exact ⟨[], line, fun line hl => absurd hl List.not_mem_nil, hlf, by simp⟩
  | @cons line later hline _ ih =>
    obtain ⟨whole, rest, hwhole, hrest, heq⟩ := ih
    exact ⟨line :: whole, rest, List.forall_mem_cons.mpr ⟨hline, hwhole⟩, hrest, by simp [heq]⟩

theorem lines_flatten_append {whole : List (List Char)} (h : ∀ line ∈ whole, IsLine line)
    (cs : List Char) : lines (whole.flatten ++ cs) = whole ++ lines cs := by
  induction whole with
  | nil => rfl
  | cons line whole ih =>
    rw [List.forall_mem_cons] at h
    rw [List.flatten_cons, List.append_assoc, lines_append_of_isLine h.1, ih h.2]
    rfl

/-- A final line feed ends the last line or stands alone; it makes no other line. -/
theorem mem_lines_append_lf {cs line : List Char} (hl : line ∈ lines (cs ++ ['\n'])) :
    ∃ old, (old = [] ∨ old ∈ lines cs) ∧ (line = old ∨ line = old ++ ['\n']) := by
  obtain ⟨whole, rest, hwhole, hrest, rfl⟩ := exists_whole_lines cs
  rw [List.append_assoc, lines_flatten_append hwhole, ← List.append_nil (rest ++ ['\n']),
    lines_append_of_isLine ⟨rest, hrest, rfl⟩, lines_nil, List.mem_append] at hl
  rw [lines_flatten_append hwhole]
  rcases hl with hl | hl
  · exact ⟨line, .inr (List.mem_append_left _ hl), .inl rfl⟩
  · refine ⟨rest, ?_, .inr (List.mem_singleton.mp hl)⟩
    by_cases hne : rest = []
    · exact .inl hne
    · rw [lines_of_no_lf hne hrest]
      exact .inr (List.mem_append_right _ List.mem_cons_self)

end Playground.Text
