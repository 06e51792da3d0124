import Playground.Text.Bytes
import Mathlib.Tactic.Ring
/-!
# Cutting text at byte offsets

Offsets count bytes and texts are lists of characters, so a text is cut at an offset exactly when
some front part has that many bytes.  Every later statement about offsets goes through the
characterisations of `cut`, `slice` and `splice` proved here.
-/

namespace Playground.Text

/-! ## 1. Byte lengths -/

theorem foldl_utf8Size (cs : List Char) (n : Nat) :
    cs.foldl (fun n c => n + c.utf8Size) n = n + byteLength cs := by
  unfold byteLength
  induction cs generalizing n with
  | nil => rfl
  | cons c cs ih => rw [List.foldl_cons, List.foldl_cons, ih, ih (0 + c.utf8Size)]; omega

@[simp] theorem byteLength_nil : byteLength [] = 0 := rfl

theorem byteLength_cons (c : Char) (cs : List Char) :
    byteLength (c :: cs) = c.utf8Size + byteLength cs := by
  show (c :: cs).foldl (fun n c => n + c.utf8Size) 0 = _
  rw [List.foldl_cons, foldl_utf8Size]
  omega

theorem byteLength_append (a b : List Char) :
    byteLength (a ++ b) = byteLength a + byteLength b := by
  induction a with
  | nil => simp
  | cons c a ih => rw [List.cons_append, byteLength_cons, byteLength_cons, ih]; omega

theorem byteLength_le_append (a b : List Char) : byteLength a ≤ byteLength (a ++ b) := by
  rw [byteLength_append]
  exact Nat.le_add_right _ _

theorem byteLength_reverse (cs : List Char) : byteLength cs.reverse = byteLength cs := by
  induction cs with
  | nil => rfl
  | cons c cs ih =>
    rw [List.reverse_cons, byteLength_append, ih, byteLength_cons, byteLength_cons, byteLength_nil]
    omega

theorem byteLength_replicate (n : Nat) (c : Char) :
    byteLength (List.replicate n c) = n * c.utf8Size := by
  induction n with
  | zero => simp
  | succ n ih => rw [List.replicate_succ, byteLength_cons, ih]; ring

theorem byteLength_pos {cs : List Char} (h : cs ≠ []) : 0 < byteLength cs := by
  obtain ⟨c, rest, rfl⟩ := List.exists_cons_of_ne_nil h
  have hc := c.utf8Size_pos
  rw [byteLength_cons]
  omega

@[simp] theorem byteLength_eq_zero {cs : List Char} : byteLength cs = 0 ↔ cs = [] := by
  constructor
  · intro h
    by_contra hne
    have hpos := byteLength_pos hne
    omega
  · rintro rfl
    rfl

/-- Whether an offset falls between two characters of a text or on one of its ends. -/
def IsBoundary (cs : List Char) (offset : Nat) : Prop :=
  ∃ a b, cs = a ++ b ∧ byteLength a = offset

theorem IsBoundary.le {cs : List Char} {offset : Nat} (h : IsBoundary cs offset) :
    offset ≤ byteLength cs := by
  obtain ⟨a, b, rfl, rfl⟩ := h
  exact byteLength_le_append a b

/-! ## 2. Cutting -/

theorem cutFrom_append (passed a b : List Char) :
    cutFrom passed (a ++ b) (byteLength a) = some (passed.reverse ++ a, b) := by
  induction a generalizing passed with
  | nil => simp [cutFrom]
  | cons c a ih =>
    have hc := c.utf8Size_pos
    obtain ⟨n, hn⟩ : ∃ n, byteLength (c :: a) = n + 1 :=
      ⟨byteLength (c :: a) - 1, by rw [byteLength_cons]; omega⟩
    have hrest : n + 1 - c.utf8Size = byteLength a := by
      rw [← hn, byteLength_cons]; omega
    rw [hn, List.cons_append, cutFrom, if_pos (by rw [← hn, byteLength_cons]; omega), hrest, ih]
    simp

theorem cut_append (a b : List Char) : cut (a ++ b) (byteLength a) = some (a, b) := by
  rw [cut, cutFrom_append]
  rfl

theorem cutFrom_some {passed cs a b : List Char} {n : Nat}
    (h : cutFrom passed cs n = some (a, b)) :
    ∃ front, cs = front ++ b ∧ byteLength front = n ∧ a = passed.reverse ++ front := by
  fun_induction cutFrom passed cs n with
  | case1 passed cs =>
    rw [Option.some.injEq, Prod.mk.injEq] at h
    exact ⟨[], by simp [h.2], rfl, by simp [h.1]⟩
  | case2 passed n => cases h
  | case3 passed c cs n hle ih =>
    obtain ⟨front, rfl, hlen, ha⟩ := ih h
    refine ⟨c :: front, rfl, by rw [byteLength_cons]; omega, by simp [ha]⟩
  | case4 passed c cs n hle => cases h

theorem cut_eq_some_iff {cs a b : List Char} {n : Nat} :
    cut cs n = some (a, b) ↔ cs = a ++ b ∧ byteLength a = n := by
  constructor
  · intro h
    obtain ⟨front, hcs, hlen, ha⟩ := cutFrom_some h
    rw [List.reverse_nil, List.nil_append] at ha
    subst ha
    exact ⟨hcs, hlen⟩
  · rintro ⟨rfl, rfl⟩
    exact cut_append a b

/-! ## 3. Slices and splices -/

theorem slice_append (a m b : List Char) :
    slice (a ++ m ++ b) (byteLength a) (byteLength a + byteLength m) = some m := by
  rw [slice, if_pos (by omega), List.append_assoc, cut_append, Nat.add_sub_cancel_left]
  show ((cut (m ++ b) (byteLength m)).bind fun x => some x.1) = some m
  rw [cut_append]
  rfl

theorem slice_eq_some_iff {cs m : List Char} {start stop : Nat} :
    slice cs start stop = some m ↔
      ∃ a b, cs = a ++ m ++ b ∧ byteLength a = start ∧ start + byteLength m = stop := by
  constructor
  · intro h
    unfold slice at h
    split at h
    · rename_i hle
      obtain ⟨⟨a, rest⟩, hcut, hrest⟩ := Option.bind_eq_some_iff.mp h
      obtain ⟨⟨m', b⟩, hcut', hm'⟩ := Option.bind_eq_some_iff.mp hrest
      obtain ⟨rfl, ha⟩ := cut_eq_some_iff.mp hcut
      obtain ⟨rfl, hm⟩ := cut_eq_some_iff.mp hcut'
      obtain rfl : m' = m := Option.some.inj hm'
      exact ⟨a, b, by rw [List.append_assoc], ha, by omega⟩
    · cases h
  · rintro ⟨a, b, rfl, rfl, rfl⟩
    exact slice_append a m b

theorem splice_append (a m b new : List Char) :
    splice (a ++ m ++ b) (byteLength a) (byteLength a + byteLength m) new =
      some (a ++ new ++ b) := by
  rw [splice, if_pos (by omega), List.append_assoc, cut_append, Nat.add_sub_cancel_left]
  show ((cut (m ++ b) (byteLength m)).bind fun x => some (a ++ new ++ x.2)) = _
  rw [cut_append]
  rfl

theorem splice_eq_some_iff {cs new out : List Char} {start stop : Nat} :
    splice cs start stop new = some out ↔
      ∃ a m b, cs = a ++ m ++ b ∧ byteLength a = start ∧ start + byteLength m = stop ∧
        out = a ++ new ++ b := by
  constructor
  · intro h
    unfold splice at h
    split at h
    · rename_i hle
      obtain ⟨⟨a, rest⟩, hcut, hrest⟩ := Option.bind_eq_some_iff.mp h
      obtain ⟨⟨m, b⟩, hcut', hout⟩ := Option.bind_eq_some_iff.mp hrest
      obtain ⟨rfl, ha⟩ := cut_eq_some_iff.mp hcut
      obtain ⟨rfl, hm⟩ := cut_eq_some_iff.mp hcut'
      exact ⟨a, m, b, by rw [List.append_assoc], ha, by omega, (Option.some.inj hout).symm⟩
    · cases h
  · rintro ⟨a, m, b, rfl, rfl, rfl, rfl⟩
    exact splice_append a m b new

end Playground.Text
