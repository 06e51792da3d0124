import Mathlib.Data.List.TakeWhile
import Playground.Text.Utf8
/-!
# Reading what was written

Reading the UTF-8 form of a text gives the characters of the text.  If the bytes have been cut off, the
characters before the cut are read all the same, and a character that the cut goes through counts as one
fault.
-/

namespace Playground.Text.Utf8

open String (utf8EncodeChar)

theorem toList_loop (bytes : ByteArray) (i : Nat) (read : List UInt8) :
    ByteArray.toList.loop bytes i read = read.reverse ++ bytes.data.toList.drop i := by
  induction i, read using ByteArray.toList.loop.induct bytes with
  | case1 i read hlt ih =>
    have hi : i < bytes.data.toList.length := by simpa using hlt
    have hget : bytes.get! i = bytes.data.toList[i] := by
      rw [ByteArray.get!, Array.getElem_toList]
      exact getElem!_pos bytes.data i (by simpa using hlt)
    rw [ByteArray.toList.loop, if_pos hlt, ih, List.drop_eq_getElem_cons hi, hget]
    simp
  | case2 i read hge =>
    have hi : bytes.data.toList.length ≤ i := by simpa using hge
    rw [ByteArray.toList.loop, if_neg hge, List.drop_eq_nil_of_le hi, List.append_nil]

theorem encode_eq (s : String) : encode s = s.toList.flatMap utf8EncodeChar := by
  rw [encode, ByteArray.toList, toList_loop, List.reverse_nil, List.nil_append, List.drop_zero,
    String.toUTF8, ← String.utf8Encode_toList, List.utf8Encode, List.data_toByteArray]

/-! ## 1. One character -/

/-- Bytes that make a character: the first one, and those that continue it. -/
structure Makes (c : Char) (a : UInt8) (more : List UInt8) : Prop where
  followers : followers? a = some more.length
  second : ∀ b rest, more = b :: rest → isSecond a b = true ∧ ∀ b ∈ rest, isContinuation b = true
  number : number (lead more.length a) more = c.toNat

theorem Makes.tail_append {c : Char} {a : UInt8} {more : List UInt8} (h : Makes c a more)
    (rest : List UInt8) : tail a more.length (more ++ rest) = more := by
  rw [tail, List.take_left]
  cases more with
  | nil => rfl
  | cons b more =>
    obtain ⟨hb, hmore⟩ := h.second b more rfl
    dsimp only
    rw [if_pos hb, List.takeWhile_eq_self_iff.mpr hmore]

theorem Makes.first_append {c : Char} {a : UInt8} {more : List UInt8} (h : Makes c a more)
    (rest : List UInt8) : first a (more ++ rest) = (some c, more.length) := by
  rw [first, h.followers]
  dsimp only
  rw [h.tail_append, if_pos rfl, h.number, Char.ofNat_toNat]

/-- A character that is cut off is no character. -/
theorem Makes.first_take {c : Char} {a : UInt8} {more : List UInt8} (h : Makes c a more) {k : Nat}
    (hk : k < more.length) : first a (more.take k) = (none, k) := by
  have htail : tail a more.length (more.take k) = more.take k := by
    rw [tail, List.take_of_length_le (List.length_take_le' k more)]
    cases hmore : more with
    | nil => rw [List.take_nil]
    | cons b rest =>
      cases k with
      | zero => rfl
      | succ k =>
        obtain ⟨hb, hrest⟩ := h.second b rest hmore
        rw [List.take_succ_cons]
        dsimp only
        rw [if_pos hb, List.takeWhile_eq_self_iff.mpr]
        exact fun b hb => hrest b (List.mem_of_mem_take hb)
  rw [first, h.followers]
  dsimp only
  rw [htail, List.length_take_of_le (Nat.le_of_lt hk), if_neg (Nat.ne_of_lt hk)]

theorem toNat_ofNat {n : Nat} (h : n < 256) : (UInt8.ofNat n).toNat = n :=
  UInt8.toNat_ofNat_of_lt' h

theorem isContinuation_ofNat {n : Nat} (h : n < 64) : isContinuation (UInt8.ofNat (n + 128)) = true := by
  have hn : (UInt8.ofNat (n + 128)).toNat = n + 128 := toNat_ofNat (by omega)
  have hlow : (0x80 : UInt8) ≤ UInt8.ofNat (n + 128) := by
    rw [UInt8.le_iff_toNat_le, hn]
    exact Nat.le_add_left 128 n
  have hhigh : UInt8.ofNat (n + 128) < (0xC0 : UInt8) := by
    rw [UInt8.lt_iff_toNat_lt, hn]
    exact Nat.add_lt_add_right h 128
  rw [isContinuation, decide_eq_true hlow, decide_eq_true hhigh]
  rfl

/-- How many bytes follow a first byte, told from its value. -/
theorem followers?_ofNat {m : Nat} (h : m < 256) : followers? (UInt8.ofNat m) =
    if m < 0x80 then some 0 else if m < 0xC2 then none else if m < 0xE0 then some 1
    else if m < 0xF0 then some 2 else if m < 0xF5 then some 3 else none := by
  have hm := toNat_ofNat h
  simp only [followers?, UInt8.lt_iff_toNat_lt, hm]
  rfl

theorem toNat_cases (c : Char) : c.toNat < 0xD800 ∨ 0xE000 ≤ c.toNat ∧ c.toNat < 0x110000 := by
  have h := c.valid
  rw [UInt32.isValidChar, Nat.isValidChar] at h
  have hnat : c.val.toNat = c.toNat := rfl
  omega

/-- When a byte may be the second one, told from the values of the first two. -/
theorem isSecond_ofNat {m n : Nat} (hm : m < 256) (hn : n < 64) (hE0 : m = 0xE0 → 0x20 ≤ n)
    (hED : m = 0xED → n < 0x20) (hF0 : m = 0xF0 → 0x10 ≤ n) (hF4 : m = 0xF4 → n < 0x10) :
    isSecond (UInt8.ofNat m) (UInt8.ofNat (n + 128)) = true := by
  have ha := toNat_ofNat hm
  have hb : (UInt8.ofNat (n + 128)).toNat = n + 128 := toNat_ofNat (by omega)
  rw [isSecond, isContinuation_ofNat hn, Bool.true_and]
  simp only [← UInt8.toNat_inj, UInt8.le_iff_toNat_le, UInt8.lt_iff_toNat_lt, ha, hb]
  split
  · exact decide_eq_true (by have := hE0 ‹_›; exact Nat.add_le_add_right this 128)
  split
  · exact decide_eq_true (by have := hED ‹_›; exact Nat.add_lt_add_right this 128)
  split
  · exact decide_eq_true (by have := hF0 ‹_›; exact Nat.add_le_add_right this 128)
  split
  · exact decide_eq_true (by have := hF4 ‹_›; exact Nat.add_lt_add_right this 128)
  · rfl

theorem number_cons (lead n : Nat) (hn : n < 64) (bytes : List UInt8) :
    number lead (UInt8.ofNat (n + 128) :: bytes) = number (lead * 64 + n) bytes := by
  have hb : (UInt8.ofNat (n + 128)).toNat % 64 = n := by
    rw [toNat_ofNat (by omega)]
    omega
  rw [number, List.foldl_cons, hb]
  rfl

/-- The bits of a first byte below its marker. -/
theorem lead_ofNat {k m marker : Nat} (hk : k ≠ 0) (hm : m < 1 <<< (6 - k))
    (hmarker : marker % 1 <<< (6 - k) = 0) (hlt : m + marker < 256) :
    lead k (UInt8.ofNat (m + marker)) = m := by
  rw [lead, if_neg hk, toNat_ofNat hlt, Nat.add_mod, hmarker, Nat.add_zero, Nat.mod_mod,
    Nat.mod_eq_of_lt hm]

section Lengths

variable {c : Char}

/-! One lemma for each number of bytes.  They differ in where the bits of the character go. -/

theorem mod_64_lt (n : Nat) : n % 64 < 64 := Nat.mod_lt n (by decide)

theorem makes_one (h : c.toNat ≤ 127) : Makes c (UInt8.ofNat c.toNat) [] where
  followers := by
    rw [followers?_ofNat (by omega), if_pos (by omega)]
    rfl
  second := nofun
  number := toNat_ofNat (by omega)

theorem makes_two (hlow : ¬ c.toNat ≤ 127) (h : c.toNat ≤ 2047) :
    Makes c (UInt8.ofNat (c.toNat / 64 % 32 + 192)) [UInt8.ofNat (c.toNat % 64 + 128)] where
  followers := by
    rw [followers?_ofNat (by omega), if_neg (by omega), if_neg (by omega), if_pos (by omega)]
    rfl
  second := by
    rintro b rest ⟨⟩
    refine ⟨isSecond_ofNat ?_ (mod_64_lt _) ?_ ?_ ?_ ?_, nofun⟩ <;> omega
  number := by
    have hlead : lead 1 (UInt8.ofNat (c.toNat / 64 % 32 + 192)) = c.toNat / 64 % 32 :=
      lead_ofNat (by decide) (Nat.mod_lt _ (by decide)) (by decide) (by omega)
    rw [List.length_singleton, hlead, number_cons _ _ (mod_64_lt _), number, List.foldl_nil]
    omega

theorem makes_three (hlow : ¬ c.toNat ≤ 2047) (h : c.toNat ≤ 65535) :
    Makes c (UInt8.ofNat (c.toNat / 4096 % 16 + 224))
      [UInt8.ofNat (c.toNat / 64 % 64 + 128), UInt8.ofNat (c.toNat % 64 + 128)] where
  followers := by
    rw [followers?_ofNat (by omega), if_neg (by omega), if_neg (by omega), if_neg (by omega),
      if_pos (by omega)]
    rfl
  second := by
    have hc := toNat_cases c
    rintro b rest ⟨⟩
    refine ⟨isSecond_ofNat ?_ (mod_64_lt _) ?_ ?_ ?_ ?_,
      List.forall_mem_singleton.mpr (isContinuation_ofNat (mod_64_lt _))⟩ <;> omega
  number := by
    have hlead : lead 2 (UInt8.ofNat (c.toNat / 4096 % 16 + 224)) = c.toNat / 4096 % 16 :=
      lead_ofNat (by decide) (Nat.mod_lt _ (by decide)) (by decide) (by omega)
    rw [List.length_cons, List.length_singleton, hlead, number_cons _ _ (mod_64_lt _),
      number_cons _ _ (mod_64_lt _), number, List.foldl_nil]
    omega

theorem makes_four (hlow : ¬ c.toNat ≤ 65535) :
    Makes c (UInt8.ofNat (c.toNat / 262144 % 8 + 240))
      [UInt8.ofNat (c.toNat / 4096 % 64 + 128), UInt8.ofNat (c.toNat / 64 % 64 + 128),
        UInt8.ofNat (c.toNat % 64 + 128)] where
  followers := by
    have hc := toNat_cases c
    rw [followers?_ofNat (by omega), if_neg (by omega), if_neg (by omega), if_neg (by omega),
      if_neg (by omega), if_pos (by omega)]
    rfl
  second := by
    have hc := toNat_cases c
    rintro b rest ⟨⟩
    refine ⟨isSecond_ofNat ?_ (mod_64_lt _) ?_ ?_ ?_ ?_, List.forall_mem_cons.mpr
      ⟨isContinuation_ofNat (mod_64_lt _),
        List.forall_mem_singleton.mpr (isContinuation_ofNat (mod_64_lt _))⟩⟩ <;> omega
  number := by
    have hc := toNat_cases c
    have hlead : lead 3 (UInt8.ofNat (c.toNat / 262144 % 8 + 240)) = c.toNat / 262144 % 8 :=
      lead_ofNat (by decide) (Nat.mod_lt _ (by decide)) (by decide) (by omega)
    rw [List.length_cons, List.length_cons, List.length_singleton, hlead,
      number_cons _ _ (mod_64_lt _), number_cons _ _ (mod_64_lt _), number_cons _ _ (mod_64_lt _),
      number, List.foldl_nil]
    omega

end Lengths

/-- Every character makes such bytes. -/
theorem makes_utf8EncodeChar (c : Char) :
    ∃ a more, utf8EncodeChar c = a :: more ∧ Makes c a more := by
  have hdef : utf8EncodeChar c =
      if c.toNat ≤ 127 then [UInt8.ofNat c.toNat]
      else if c.toNat ≤ 2047 then
        [UInt8.ofNat (c.toNat / 64 % 32 + 192), UInt8.ofNat (c.toNat % 64 + 128)]
      else if c.toNat ≤ 65535 then
        [UInt8.ofNat (c.toNat / 4096 % 16 + 224), UInt8.ofNat (c.toNat / 64 % 64 + 128),
          UInt8.ofNat (c.toNat % 64 + 128)]
      else
        [UInt8.ofNat (c.toNat / 262144 % 8 + 240), UInt8.ofNat (c.toNat / 4096 % 64 + 128),
          UInt8.ofNat (c.toNat / 64 % 64 + 128), UInt8.ofNat (c.toNat % 64 + 128)] := rfl
  rw [hdef]
  split
  · exact ⟨_, _, rfl, makes_one ‹_›⟩
  split
  · exact ⟨_, _, rfl, makes_two ‹_› ‹_›⟩
  split
  · exact ⟨_, _, rfl, makes_three ‹_› ‹_›⟩
  · exact ⟨_, _, rfl, makes_four ‹_›⟩

/-! ## 2. Texts -/

theorem readAfter_append (skipped rest : List UInt8) :
    readAfter skipped.length (skipped ++ rest) = readAfter 0 rest := by
  induction skipped with
  | nil => rfl
  | cons b skipped ih => exact ih

/-- Reading goes on after a character. -/
theorem read_char_append (c : Char) (rest : List UInt8) :
    read (utf8EncodeChar c ++ rest) = some c :: read rest := by
  obtain ⟨a, more, hbytes, hmakes⟩ := makes_utf8EncodeChar c
  rw [hbytes, List.cons_append, read, readAfter, hmakes.first_append, readAfter_append]
  rfl

theorem read_flatMap_append (cs : List Char) (rest : List UInt8) :
    read (cs.flatMap utf8EncodeChar ++ rest) = cs.map some ++ read rest := by
  induction cs with
  | nil => rfl
  | cons c cs ih => rw [List.flatMap_cons, List.append_assoc, read_char_append, ih]; rfl

/-- Reading what was written gives the text. -/
theorem read_encode (s : String) : read (encode s) = s.toList.map some := by
  have h := read_flatMap_append s.toList []
  have hnil : read [] = [] := rfl
  rwa [List.append_nil, ← encode_eq, hnil, List.append_nil] at h

/-- A character that is cut off, if anything is left of it, reads as one fault. -/
theorem read_take_char (c : Char) {k : Nat} (hk : k < (utf8EncodeChar c).length) :
    read ((utf8EncodeChar c).take k) = if k = 0 then [] else [none] := by
  obtain ⟨a, more, hbytes, hmakes⟩ := makes_utf8EncodeChar c
  rw [hbytes] at hk ⊢
  cases k with
  | zero => rfl
  | succ k =>
    have hlt : k < more.length := Nat.lt_of_succ_lt_succ hk
    have hskip := readAfter_append (more.take k) []
    rw [List.append_nil, List.length_take_of_le (Nat.le_of_lt hlt)] at hskip
    rw [List.take_succ_cons, read, readAfter, hmakes.first_take hlt, hskip]
    rfl

/-- Reading a text that has been cut off gives its characters before the cut, and at most one fault
after them. -/
theorem read_take_flatMap (cs : List Char) {k : Nat} (hk : k < (cs.flatMap utf8EncodeChar).length) :
    ∃ j < cs.length, ∃ torn, (torn = [] ∨ torn = [none]) ∧
      read ((cs.flatMap utf8EncodeChar).take k) = (cs.take j).map some ++ torn := by
  induction cs generalizing k with
  | nil => cases hk
  | cons c cs ih =>
    rw [List.flatMap_cons] at hk ⊢
    rw [List.length_append] at hk
    by_cases hc : k < (utf8EncodeChar c).length
    · refine ⟨0, Nat.succ_pos _, if k = 0 then [] else [none], ?_, ?_⟩
      · split
        · exact .inl rfl
        · exact .inr rfl
      · rw [List.take_append_of_le_length (Nat.le_of_lt hc), read_take_char c hc]
        rfl
    · obtain ⟨j, hj, torn, htorn, hread⟩ := ih (k := k - (utf8EncodeChar c).length) (by omega)
      refine ⟨j + 1, Nat.succ_lt_succ hj, torn, htorn, ?_⟩
      rw [List.take_append, List.take_of_length_le (Nat.le_of_not_lt hc), read_char_append, hread]
      rfl

end Playground.Text.Utf8
