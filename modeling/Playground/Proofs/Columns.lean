import Playground.Proofs.Cursor
import Playground.Proofs.RoundTrip
/-!
# Lines and columns

An offset between two characters lies in one line, whose end may be a carriage return that the offset
itself has behind it.  Counted in lines and characters, later offsets come later, so that line and column
tell offsets apart.
-/

namespace Playground.Text

variable {cs a b front lead tail back m : List Char} {offset offset' start stop : Nat}

/-! ## 1. The line around an offset -/

/-- What may follow a line: nothing, or a line feed, either of them behind a carriage return or not. -/
inductive IsLineEnd : List Char → Prop where
  | nothing : IsLineEnd []
  | lf (rest : List Char) : IsLineEnd ('\n' :: rest)
  | crlf (rest : List Char) : IsLineEnd ('\r' :: '\n' :: rest)
  | cr : IsLineEnd ['\r']

/-- The bytes from `start` up to `stop` are the line around the offset, without its end. -/
structure IsLineAt (cs : List Char) (offset start stop : Nat) : Prop where
  start_le_stop : start ≤ stop
  start_le_offset : start ≤ offset
  /-- The line begins where the text begins, or behind a line feed. -/
  begins : start = 0 ∨ ∃ front rest, cs = front ++ '\n' :: rest ∧ byteLength front + 1 = start
  unbroken : ∃ line, slice cs start stop = some line ∧ '\n' ∉ line
  /-- The end of the line follows.  An offset behind `stop` is one behind the carriage return there. -/
  ends : ∃ front rest, cs = front ++ rest ∧ byteLength front = stop ∧ IsLineEnd rest ∧
    (stop < offset → offset = stop + 1 ∧ rest.head? = some '\r')

theorem dropWhile_lf (cs : List Char) :
    cs.dropWhile (· ≠ '\n') = [] ∨ ∃ rest, cs.dropWhile (· ≠ '\n') = '\n' :: rest := by
  have hhead := List.head?_dropWhile_not (· ≠ '\n') cs
  generalize cs.dropWhile (· ≠ '\n') = rest at hhead
  cases rest with
  | nil => exact .inl rfl
  | cons c rest =>
    obtain rfl : c = '\n' := by simpa using hhead
    exact .inr ⟨rest, rfl⟩

theorem not_mem_takeWhile_lf (cs : List Char) : '\n' ∉ cs.takeWhile (· ≠ '\n') := by
  intro hmem
  have hne := List.mem_takeWhile_imp hmem
  simp at hne

/-- Before the line there is nothing, or a line feed. -/
theorem begins_of_takeWhile (hlead : (front ++ lead).reverse.takeWhile (· ≠ '\n') = lead.reverse) :
    front = [] ∨ ∃ before, front = before ++ ['\n'] := by
  have hrest : (front ++ lead).reverse.dropWhile (· ≠ '\n') = front.reverse := by
    have hsplit := List.takeWhile_append_dropWhile (p := (· ≠ '\n')) (l := (front ++ lead).reverse)
    rw [hlead, List.reverse_append] at hsplit
    rw [List.reverse_append]
    exact List.append_cancel_left hsplit
  rcases dropWhile_lf (front ++ lead).reverse with hnil | ⟨before, hlf⟩
  · exact .inl (List.reverse_eq_nil_iff.mp (hrest.symm.trans hnil))
  · refine .inr ⟨before.reverse, ?_⟩
    rw [← List.reverse_reverse front, ← hrest, hlf, List.reverse_cons]

/-- Behind the line there is nothing, or a line feed. -/
theorem isLineEnd_of_takeWhile (htail : (tail ++ back).takeWhile (· ≠ '\n') = tail) :
    back = [] ∨ ∃ rest, back = '\n' :: rest := by
  have hrest : (tail ++ back).dropWhile (· ≠ '\n') = back := by
    have hsplit := List.takeWhile_append_dropWhile (p := (· ≠ '\n')) (l := tail ++ back)
    rw [htail] at hsplit
    exact List.append_cancel_left hsplit
  rw [← hrest]
  exact dropWhile_lf _

/-- The parts that stand around a place make the line at its offset. -/
theorem isLineAt_append (hfront : front = [] ∨ ∃ before, front = before ++ ['\n'])
    (hback : back = [] ∨ ∃ rest, back = '\n' :: rest) (hlf : '\n' ∉ lead ++ tail) :
    IsLineAt (front ++ lead ++ (tail ++ back)) (byteLength (front ++ lead)) (byteLength front)
      (if (lead ++ tail).getLast? = some '\r' then byteLength front + byteLength (lead ++ tail) - 1
        else byteLength front + byteLength (lead ++ tail)) := by
  have htext : front ++ lead ++ (tail ++ back) = front ++ (lead ++ tail) ++ back := by simp
  have hbegins : byteLength front = 0 ∨
      ∃ before rest, front ++ lead ++ (tail ++ back) = before ++ '\n' :: rest ∧
        byteLength before + 1 = byteLength front := by
    rcases hfront with rfl | ⟨before, rfl⟩
    · exact .inl rfl
    · exact .inr ⟨before, lead ++ (tail ++ back), by simp, (byteLength_append before ['\n']).symm⟩
  have hunbroken := slice_line front (lead ++ tail) back
  -- a carriage return at the end belongs to the line break
  split
  · rename_i hcr
    obtain ⟨body, hbody⟩ := List.getLast?_eq_some_iff.mp hcr
    have hstop : byteLength front + byteLength (lead ++ tail) - 1 = byteLength (front ++ body) := by
      rw [hbody, byteLength_append, byteLength_append, show byteLength ['\r'] = 1 from rfl]
      omega
    rw [if_pos hcr, if_pos hcr, hstop] at hunbroken
    rw [hstop]
    refine ⟨byteLength_le_append front body, byteLength_le_append front lead, hbegins,
      ⟨_, htext ▸ hunbroken, fun hmem => hlf ((List.dropLast_sublist _).subset hmem)⟩,
      front ++ body, '\r' :: back, by rw [htext, hbody]; simp, rfl, ?_, fun hlt => ⟨?_, rfl⟩⟩
    · rcases hback with rfl | ⟨rest, rfl⟩
      · exact .cr
      · exact .crlf rest
    · -- the offset is in the line or at its end, and the carriage return is one byte
      have hlength := congrArg byteLength hbody
      rw [byteLength_append, byteLength_append, show byteLength ['\r'] = 1 from rfl] at hlength
      rw [byteLength_append, byteLength_append] at hlt ⊢
      omega
  · rename_i hcr
    rw [if_neg hcr, if_neg hcr] at hunbroken
    refine ⟨Nat.le_add_right _ _, byteLength_le_append front lead, hbegins,
      ⟨_, htext ▸ hunbroken, hlf⟩, front ++ (lead ++ tail), back, htext, byteLength_append _ _, ?_,
      fun hlt => ?_⟩
    · rcases hback with rfl | ⟨rest, rfl⟩
      · exact .nothing
      · exact .lf rest
    · rw [byteLength_append, byteLength_append] at hlt
      omega

theorem isLineAt_of_lineBounds (h : lineBounds cs offset = some (start, stop)) :
    IsLineAt cs offset start stop := by
  obtain ⟨⟨a, b⟩, hcut, -⟩ := Option.bind_eq_some_iff.mp h
  obtain ⟨rfl, rfl⟩ := cut_eq_some_iff.mp hcut
  obtain ⟨front, lead, tail, back, rfl, rfl, hlead, htail⟩ := exists_line_around a b
  rw [lineBounds_append rfl hlead htail, Option.some.injEq, Prod.mk.injEq] at h
  obtain ⟨rfl, rfl⟩ := h
  refine isLineAt_append (begins_of_takeWhile hlead) (isLineEnd_of_takeWhile htail) fun hmem => ?_
  rcases List.mem_append.mp hmem with hmem | hmem
  · exact not_mem_takeWhile_lf _ (hlead ▸ List.mem_reverse.mpr hmem)
  · exact not_mem_takeWhile_lf _ (htail ▸ hmem)

theorem isSome_lineBounds_iff : (lineBounds cs offset).isSome = true ↔ IsBoundary cs offset := by
  rw [isBoundary_iff_isSome_cut, lineBounds]
  cases cut cs offset <;> rfl

/-! ## 2. Columns -/

theorem isSome_lineColumn_iff : (lineColumn cs offset).isSome = true ↔ IsBoundary cs offset := by
  rw [isBoundary_iff_isSome_cut, lineColumn]
  cases cut cs offset <;> rfl

theorem lineColumn_append (a b : List Char) : lineColumn (a ++ b) (byteLength a) =
    some (a.count '\n' + 1, (a.reverse.takeWhile (· ≠ '\n')).length + 1) := by
  rw [lineColumn, cut_append]
  rfl

/-- Behind more characters, the line or else the column is greater. -/
theorem lineColumn_lt (a : List Char) (hm : m ≠ []) :
    a.count '\n' < (a ++ m).count '\n' ∨ a.count '\n' = (a ++ m).count '\n' ∧
      (a.reverse.takeWhile (· ≠ '\n')).length < ((a ++ m).reverse.takeWhile (· ≠ '\n')).length := by
  rw [List.count_append]
  by_cases hlf : '\n' ∈ m
  · exact .inl (Nat.lt_add_of_pos_right (List.count_pos_iff.mpr hlf))
  · right
    have hother : ∀ c ∈ m.reverse, decide (c ≠ '\n') = true := by
      intro c hc
      rw [decide_eq_true_eq]
      rintro rfl
      exact hlf (List.mem_reverse.mp hc)
    rw [List.count_eq_zero.mpr hlf, List.reverse_append, List.takeWhile_append_of_pos hother,
      List.length_append, List.length_reverse]
    exact ⟨rfl, Nat.lt_add_of_pos_left (List.length_pos_iff.mpr hm)⟩

theorem lineColumn_strictMono {place place' : Nat × Nat} (hlt : offset < offset')
    (h : lineColumn cs offset = some place) (h' : lineColumn cs offset' = some place') :
    place.1 < place'.1 ∨ place.1 = place'.1 ∧ place.2 < place'.2 := by
  obtain ⟨⟨a, b⟩, hcut, -⟩ := Option.bind_eq_some_iff.mp h
  obtain ⟨⟨a', b'⟩, hcut', -⟩ := Option.bind_eq_some_iff.mp h'
  obtain ⟨rfl, rfl⟩ := cut_eq_some_iff.mp hcut
  obtain ⟨hsplit, rfl⟩ := cut_eq_some_iff.mp hcut'
  obtain ⟨m, rfl, rfl⟩ : ∃ m, a' = a ++ m ∧ b = m ++ b' := by
    rcases List.append_eq_append_iff.mp hsplit with hahead | ⟨m, rfl, -⟩
    · exact hahead
    · rw [byteLength_append] at hlt
      omega
  have hm : m ≠ [] := by
    rintro rfl
    rw [List.append_nil] at hlt
    exact absurd hlt (Nat.lt_irrefl _)
  rw [hsplit, lineColumn_append, Option.some.injEq] at h'
  rw [lineColumn_append, Option.some.injEq] at h
  subst h h'
  have hless := lineColumn_lt a hm
  dsimp only
  omega

/-- Lines and columns are there for just the offsets between two characters.  The bounds are those of
the line around the offset, and places are in the order of their offsets, so that no two offsets have the
same place. -/
theorem lines_and_columns (cs : List Char) :
    (∀ offset, (lineBounds cs offset).isSome = true ↔ IsBoundary cs offset) ∧
    (∀ offset start stop, lineBounds cs offset = some (start, stop) →
      IsLineAt cs offset start stop) ∧
    (∀ offset, (lineColumn cs offset).isSome = true ↔ IsBoundary cs offset) ∧
    (∀ offset offset' place place', offset < offset' → lineColumn cs offset = some place →
      lineColumn cs offset' = some place' →
        place.1 < place'.1 ∨ place.1 = place'.1 ∧ place.2 < place'.2) ∧
    ∀ offset offset', IsBoundary cs offset → IsBoundary cs offset' → offset ≠ offset' →
      lineColumn cs offset ≠ lineColumn cs offset' := by
  refine ⟨fun _ => isSome_lineBounds_iff, fun _ _ _ => isLineAt_of_lineBounds,
    fun _ => isSome_lineColumn_iff, fun _ _ _ _ => lineColumn_strictMono, ?_⟩
  intro offset offset' hboundary hboundary' hne hsame
  obtain ⟨place, hplace⟩ := Option.isSome_iff_exists.mp (isSome_lineColumn_iff.mpr hboundary)
  rcases Nat.lt_or_gt_of_ne hne with hlt | hlt
  · have hless := lineColumn_strictMono hlt hplace (hsame ▸ hplace)
    omega
  · have hless := lineColumn_strictMono hlt (hsame ▸ hplace) hplace
    omega

/-- Between a carriage return and its line feed, and behind the line feed. -/
theorem lines_and_columns_betweenCrAndLf :
    IsLineAt "né\r\n\r".toList 4 0 3 ∧ IsLineAt "né\r\n\r".toList 6 5 5 ∧
      lineColumn "né\r\n\r".toList 4 = some (1, 4) ∧ lineColumn "né\r\n\r".toList 5 = some (2, 1) ∧
      ((1 : Nat) < 2 ∨ (1 : Nat) = 2 ∧ 4 < 1) ∧
      lineColumn "né\r\n\r".toList 4 ≠ lineColumn "né\r\n\r".toList 5 := by
  obtain ⟨-, hbounds, -, hless, hne⟩ := lines_and_columns "né\r\n\r".toList
  have h : lineColumn "né\r\n\r".toList 4 = some (1, 4) := by decide +kernel
  have h' : lineColumn "né\r\n\r".toList 5 = some (2, 1) := by decide +kernel
  exact ⟨hbounds 4 0 3 (by decide +kernel), hbounds 6 5 5 (by decide +kernel), h, h',
    hless 4 5 _ _ (by decide) h h', hne 4 5 (by decide +kernel) (by decide +kernel) (by decide)⟩

end Playground.Text
