import Mathlib.Data.List.Basic
import Mathlib.Data.List.TakeDrop
import Mathlib.Data.List.TakeWhile
import Playground.Json.Reader
import Playground.Json.Writer
/-!
# Reading JSON text that was written

A text and a natural number are read off what is written of them, and so is an object of such values.
-/

namespace Playground.Json

variable {c : Char} {cs ds rest : List Char}

/-! ## 1. Natural numbers -/

theorem digitVal?_of_isDigit (h : c.isDigit = true) : digitVal? c = some (c.toNat - '0'.toNat) := by
  rw [Char.isDigit, Bool.and_eq_true, decide_eq_true_eq, decide_eq_true_eq] at h
  exact if_pos h

theorem foldl_digits (h : ∀ c ∈ cs, c.isDigit = true) (n : Nat) :
    cs.foldl (fun acc c => do return (← acc) * 10 + (← digitVal? c)) (some n) =
      some (Nat.ofDigitChars 10 cs n) := by
  induction cs generalizing n with
  | nil => rfl
  | cons c cs ih =>
    obtain ⟨hc, hcs⟩ := List.forall_mem_cons.mp h
    have hnext : (do return (← some n) * 10 + (← digitVal? c) : Option Nat) =
        some (10 * n + (c.toNat - '0'.toNat)) := by
      rw [digitVal?_of_isDigit hc, Nat.mul_comm]
      rfl
    rw [List.foldl_cons, hnext, ih hcs]
    rfl

theorem isDigit_toDigits (n : Nat) : ∀ c ∈ Nat.toDigits 10 n, c.isDigit = true :=
  fun _ => Nat.isDigit_of_mem_toDigits (by decide) (by decide)

/-- Reading the decimal form of a number gives the number. -/
theorem digitsVal?_toDigits (n : Nat) : digitsVal? (Nat.toDigits 10 n) = some n := by
  have hval : digitsVal? (Nat.toDigits 10 n) =
      (Nat.toDigits 10 n).foldl (fun acc c => do return (← acc) * 10 + (← digitVal? c)) (some 0) := by
    unfold digitsVal?
    split
    · rename_i hnil
      exact absurd hnil Nat.toDigits_ne_nil
    · rfl
  rw [hval, foldl_digits (isDigit_toDigits n), Nat.ofDigitChars_toDigits (by decide) (by decide)]

theorem uint?_ofNat {n : Nat} (h : n ≤ maxUInt) : uint? (ofNat n) = some n := by
  rw [ofNat, uint?, Nat.toString_eq_repr, Nat.toList_repr, digitsVal?_toDigits]
  exact if_pos h

/-- A decimal form has no zeros in front. -/
theorem toDigits_ne_zero_cons (n : Nat) (d : Char) (ds : List Char) :
    Nat.toDigits 10 n ≠ '0' :: d :: ds := by
  induction n using Nat.strongRecOn generalizing d ds with
  | ind n ih =>
    intro h
    rcases Nat.lt_or_ge n 10 with hlt | hge
    · rw [Nat.toDigits_of_lt_base hlt] at h
      cases (List.cons.inj h).2
    · rw [Nat.toDigits_of_base_le (by decide) hge] at h
      have hpos : 0 < n / 10 := Nat.div_pos hge (by decide)
      cases hds : Nat.toDigits 10 (n / 10) with
      | nil => exact Nat.toDigits_ne_nil hds
      | cons c more =>
        rw [hds] at h
        obtain rfl : c = '0' := (List.cons.inj h).1
        cases more with
        | nil =>
          have hval := digitsVal?_toDigits (n / 10)
          rw [hds] at hval
          exact Nat.ne_of_lt hpos (Option.some.inj hval)
        | cons d' more => exact ih (n / 10) (by omega) d' more hds

/-- What follows does not go on with a number. -/
def Stops (rest : List Char) : Prop :=
  ∀ c ∈ rest.head?, c.isDigit = false ∧ c ≠ '.' ∧ c ≠ 'e' ∧ c ≠ 'E'

theorem digitRun_append (hds : ∀ c ∈ ds, c.isDigit = true) (h : Stops rest) :
    digitRun (ds ++ rest) = (ds, rest) := by
  have hstop : rest.takeWhile Char.isDigit = [] ∧ rest.dropWhile Char.isDigit = rest := by
    cases rest with
    | nil => exact ⟨rfl, rfl⟩
    | cons c rest =>
      have hc := (h c rfl).1
      exact ⟨List.takeWhile_cons_of_neg (by simp [hc]), List.dropWhile_cons_of_neg (by simp [hc])⟩
  rw [digitRun, List.span_eq_takeWhile_dropWhile, List.takeWhile_append_of_pos hds,
    List.dropWhile_append_of_pos hds, hstop.1, hstop.2, List.append_nil]

theorem fraction?_of_stops (h : Stops rest) : fraction? rest = some ([], rest) := by
  unfold fraction?
  split
  · exact absurd rfl (h '.' rfl).2.1
  · rfl

theorem exponent?_of_stops (h : Stops rest) : exponent? rest = some ([], rest) := by
  cases rest with
  | nil => rfl
  | cons c rest =>
    obtain ⟨-, -, he, hE⟩ := h c rfl
    unfold exponent?
    exact if_neg (not_or_intro he hE)

theorem unsignedNumber?_toDigits (n : Nat) (h : Stops rest) :
    unsignedNumber? (Nat.toDigits 10 n ++ rest) = some (Nat.toDigits 10 n, rest) := by
  unfold unsignedNumber?
  rw [digitRun_append (isDigit_toDigits n) h]
  split
  · rename_i hnil
    exact absurd (congrArg Prod.fst hnil) Nat.toDigits_ne_nil
  · rename_i hzero
    exact absurd (congrArg Prod.fst hzero) (toDigits_ne_zero_cons n _ _)
  · rename_i hds
    obtain ⟨rfl, rfl⟩ := Prod.mk.inj hds
    rw [fraction?_of_stops h]
    dsimp only [Option.bind_eq_bind, Option.bind_some]
    rw [exponent?_of_stops h]
    simp

theorem number?_toDigits (n : Nat) (h : Stops rest) :
    number? (Nat.toDigits 10 n ++ rest) = some (ofNat n, rest) := by
  have hnumber : number? (Nat.toDigits 10 n ++ rest) =
      (unsignedNumber? (Nat.toDigits 10 n ++ rest)).map
        fun r => (.num (String.ofList r.1), r.2) := by
    cases hds : Nat.toDigits 10 n with
    | nil => exact absurd hds Nat.toDigits_ne_nil
    | cons d ds =>
      have hd := isDigit_toDigits n d (by rw [hds]; exact List.mem_cons_self)
      rw [List.cons_append]
      unfold number?
      split
      · rename_i heq
        obtain ⟨rfl, -⟩ := List.cons.inj heq
        cases hd
      · rfl
  rw [hnumber, unsignedNumber?_toDigits n h, Option.map_some, ofNat, Nat.toString_eq_repr,
    Nat.repr_eq_ofList_toDigits]

/-! ## 2. Texts -/

/-- How a character stands in a string literal. -/
def StringPart.of (c : Char) : StringPart := if c.toNat < 0x20 then .unit c.toNat else .char c

theorem hexVal?_hexDigit : ∀ n < 16, hexVal? (hexDigit n) = some n := by decide

theorem stringParts_char (parts : List StringPart) (hquote : c ≠ '"') (hslash : c ≠ '\\')
    (hc : ¬ c.toNat < 0x20) (rest : List Char) :
    stringParts parts (c :: rest) = stringParts (.char c :: parts) rest := by
  rw [stringParts.eq_def]
  split
  · rename_i h
    cases h
  · rename_i h
    exact absurd (List.cons.inj h).1 hquote
  · rename_i h
    exact absurd (List.cons.inj h).1 hslash
  · rename_i h
    exact absurd (List.cons.inj h).1 hslash
  · rename_i h
    obtain ⟨rfl, rfl⟩ := List.cons.inj h
    rw [if_neg (not_or_intro hslash hc)]

theorem stringParts_slash (parts : List StringPart) {e : Char} (he : simpleEscape? c = some e)
    (rest : List Char) :
    stringParts parts ('\\' :: c :: rest) = stringParts (.char e :: parts) rest := by
  rw [stringParts, he]
  rintro _ _ _ _ _ rfl
  cases he

theorem stringParts_escape (parts : List StringPart) (c : Char) (rest : List Char) :
    stringParts parts (escape c ++ rest) = stringParts (.of c :: parts) rest := by
  unfold escape
  split
  · rename_i hc
    rw [hc]
    exact stringParts_slash parts rfl rest
  split
  · rename_i hc
    rw [hc]
    exact stringParts_slash parts rfl rest
  split
  · rename_i hc
    have hhex : hex4? '0' '0' (hexDigit (c.toNat / 16)) (hexDigit (c.toNat % 16)) = some c.toNat := by
      rw [hex4?, hexVal?_hexDigit (c.toNat / 16) (by omega), hexVal?_hexDigit (c.toNat % 16) (by omega),
        show hexVal? '0' = some 0 from rfl]
      exact congrArg some (by omega)
    rw [StringPart.of, if_pos hc]
    dsimp only [List.cons_append, List.nil_append]
    rw [stringParts, hhex]
  · rename_i hquote hslash hc
    rw [StringPart.of, if_neg hc, List.singleton_append, stringParts_char parts hquote hslash hc]

theorem stringParts_flatMap (parts : List StringPart) (cs rest : List Char) :
    stringParts parts (cs.flatMap escape ++ '"' :: rest) =
      some (parts.reverse ++ cs.map .of, rest) := by
  induction cs generalizing parts with
  | nil => rw [List.flatMap_nil, List.nil_append, stringParts, List.map_nil, List.append_nil]
  | cons c cs ih =>
    rw [List.flatMap_cons, List.append_assoc, stringParts_escape, ih, List.reverse_cons,
      List.append_assoc, List.map_cons, List.singleton_append]

theorem joinParts_unit (text : List Char) {n : Nat} (hn : n < 0xD800) (parts : List StringPart) :
    joinParts text (.unit n :: parts) = joinParts (Char.ofNat n :: text) parts := by
  have hlow : ¬ (0xD800 ≤ n ∧ n < 0xE000) := by omega
  rw [joinParts.eq_def]
  split
  · rename_i h
    cases h
  · rename_i h
    cases h
  · rename_i h
    cases h
    rw [if_neg (by omega), if_neg (by omega)]
  · rename_i h
    cases h
    rw [if_neg hlow]

theorem joinParts_of (text : List Char) (c : Char) (parts : List StringPart) :
    joinParts text (.of c :: parts) = joinParts (c :: text) parts := by
  unfold StringPart.of
  split
  · rw [joinParts_unit text (by omega), Char.ofNat_toNat]
  · rw [joinParts]

theorem joinParts_map (text cs : List Char) :
    joinParts text (cs.map .of) = some (text.reverse ++ cs) := by
  induction cs generalizing text with
  | nil => rw [List.map_nil, joinParts, List.append_nil]
  | cons c cs ih =>
    rw [List.map_cons, joinParts_of, ih, List.reverse_cons, List.append_assoc, List.singleton_append]

/-- Reading a literal gives its text. -/
theorem stringRest_flatMap (cs rest : List Char) :
    stringRest (cs.flatMap escape ++ '"' :: rest) = some (some (String.ofList cs), rest) := by
  rw [stringRest, stringParts_flatMap, List.reverse_nil, List.nil_append]
  dsimp only [Option.bind_eq_bind, Option.bind_some]
  rw [joinParts_map]
  rfl

theorem toList_quote (s : String) :
    (quote s).toList = '"' :: (s.toList.flatMap escape ++ ['"']) := by
  rw [quote, String.toList_ofList, List.cons_append]

theorem stringRest_quote (s : String) (rest : List Char) :
    ∃ cs, (quote s).toList ++ rest = '"' :: cs ∧ stringRest cs = some (some s, rest) := by
  refine ⟨s.toList.flatMap escape ++ '"' :: rest, ?_, ?_⟩
  · rw [toList_quote, List.cons_append, List.append_assoc, List.singleton_append]
  · rw [stringRest_flatMap, String.ofList_toList]

/-! ## 3. Objects -/

/-- Whether the character is white space that may stand between tokens. -/
def isSpace (c : Char) : Bool := c == ' ' || c == '\n' || c == '\t' || c == '\r'

theorem skipSpace_of_isSpace (h : isSpace c = true) : skipSpace (c :: cs) = skipSpace cs :=
  List.dropWhile_cons_of_pos h

theorem skipSpace_of_not_isSpace (h : isSpace c = false) : skipSpace (c :: cs) = c :: cs :=
  List.dropWhile_cons_of_neg (ne_true_of_eq_false h)

/-- White space in front makes no difference. -/
theorem value?_congr {cs' : List Char} (h : skipSpace cs = skipSpace cs') (fuel : Nat) :
    value? fuel cs = value? fuel cs' := by
  cases fuel with
  | zero => rfl
  | succ fuel => rw [value?, value?, h]

/-- The value is read off its text, whatever follows that does not go on with a number. -/
def Reads (v : Json) : Prop :=
  ∀ fuel rest, Stops rest → value? (fuel + 1) ((render v).toList ++ rest) = some (v, rest)

theorem value?_quote (fuel : Nat) (cs : List Char) : value? (fuel + 1) ('"' :: cs) =
    match stringRest cs with
    | some (some s, rest) => some (.str s, rest)
    | some (none, rest) => some (.garbled, rest)
    | none => none := by
  rw [value?, skipSpace_of_not_isSpace rfl]
  rfl

theorem reads_str (s : String) : Reads (.str s) := by
  intro fuel rest _
  obtain ⟨cs, hcs, hread⟩ := stringRest_quote s rest
  rw [render, hcs, value?_quote, hread]

theorem isSpace_of_number (h : c.isDigit = true ∨ c = '-') : isSpace c = false := by
  refine eq_false_of_ne_true fun hspace => ?_
  simp only [isSpace, Bool.or_eq_true, beq_iff_eq] at hspace
  rcases hspace with ((rfl | rfl) | rfl) | rfl <;> revert h <;> decide

theorem value?_number (h : c.isDigit = true ∨ c = '-') (fuel : Nat) (cs : List Char) :
    value? (fuel + 1) (c :: cs) = number? (c :: cs) := by
  rw [value?, skipSpace_of_not_isSpace (isSpace_of_number h)]
  -- no other value begins with such a character
  split <;> first | rfl | (rename_i heq; obtain ⟨rfl, -⟩ := List.cons.inj heq; exact absurd h (by decide))

theorem reads_ofNat (n : Nat) : Reads (.ofNat n) := by
  intro fuel rest h
  have hrender : (render (.ofNat n)).toList = Nat.toDigits 10 n := by
    rw [ofNat, render, Nat.toString_eq_repr, Nat.toList_repr]
  rw [hrender]
  have hnumber := number?_toDigits n h
  cases hds : Nat.toDigits 10 n with
  | nil => exact absurd hds Nat.toDigits_ne_nil
  | cons d ds =>
    rw [hds, List.cons_append] at hnumber
    rw [List.cons_append, value?_number (.inl (isDigit_toDigits n d (hds ▸ List.mem_cons_self))),
      hnumber]

theorem members?_congr {cs' : List Char} (h : skipSpace cs = skipSpace cs') (fuel : Nat)
    (seen : List (Option String × Json)) : members? fuel seen cs = members? fuel seen cs' := by
  cases fuel with
  | zero => rfl
  | succ fuel => rw [members?, members?, h]

/-- A member of an object on its line. -/
def memberLine (m : String × Json) : String := "  " ++ quote m.1 ++ ": " ++ render m.2

/-- After its opening quote a member is its name, a colon and its value. -/
theorem members?_quote (fuel : Nat) (seen : List (Option String × Json)) (cs : List Char) :
    members? (fuel + 2) seen ('"' :: cs) =
      match stringRest cs with
      | none => none
      | some (name, rest) =>
          match skipSpace rest with
          | ':' :: rest =>
              match value? (fuel + 1) rest with
              | none => none
              | some (item, rest) =>
                  match skipSpace rest with
                  | ',' :: rest => members? (fuel + 1) ((name, item) :: seen) rest
                  | '\x7d' :: rest => some (.obj ((name, item) :: seen).reverse, rest)
                  | _ => none
          | _ => none := by
  rw [members?, skipSpace_of_not_isSpace rfl]
  rfl

theorem members?_line {m : String × Json} (hm : Reads m.2) (fuel : Nat)
    (seen : List (Option String × Json)) (h : Stops rest) :
    members? (fuel + 2) seen ((memberLine m).toList ++ rest) =
      match skipSpace rest with
      | ',' :: rest => members? (fuel + 1) ((some m.1, m.2) :: seen) rest
      | '\x7d' :: rest => some (.obj ((some m.1, m.2) :: seen).reverse, rest)
      | _ => none := by
  obtain ⟨cs, hcs, hname⟩ := stringRest_quote m.1 (':' :: ' ' :: ((render m.2).toList ++ rest))
  have htext : (memberLine m).toList ++ rest = ' ' :: ' ' :: '"' :: cs := by
    rw [← hcs]
    simp [memberLine]
  have hspace : skipSpace (' ' :: ' ' :: '"' :: cs) = '"' :: cs := by
    rw [skipSpace_of_isSpace rfl, skipSpace_of_isSpace rfl, skipSpace_of_not_isSpace rfl]
  have hvalue : value? (fuel + 1) (' ' :: ((render m.2).toList ++ rest)) = some (m.2, rest) := by
    rw [value?_congr (skipSpace_of_isSpace rfl), hm fuel rest h]
  rw [htext, members?_congr (hspace.trans (skipSpace_of_not_isSpace rfl).symm), members?_quote,
    hname]
  dsimp only
  rw [skipSpace_of_not_isSpace rfl]
  simp only [hvalue]

/-- Members on lines of their own are read one after the other. -/
theorem members?_lines (ms : List (String × Json)) :
    ∀ m : String × Json, (∀ x ∈ m :: ms, Reads x.2) → ∀ fuel seen rest, ms.length ≤ fuel →
      members? (fuel + 2) seen
          ([',', '\n'].intercalate ((m :: ms).map fun x => (memberLine x).toList) ++
            '\n' :: '\x7d' :: rest) =
        some (.obj (seen.reverse ++ (m :: ms).map fun x => (some x.1, x.2)), rest) := by
  have hstops : ∀ c cs, c = ',' ∨ c = '\n' → Stops (c :: cs) := by
    rintro c cs hc _ ⟨⟩
    rcases hc with rfl | rfl <;> decide
  induction ms with
  | nil =>
    intro m hreads fuel seen rest _
    rw [List.map_singleton, List.intercalate_singleton,
      members?_line (hreads m List.mem_cons_self) fuel seen (hstops _ _ (.inr rfl)),
      skipSpace_of_isSpace rfl, skipSpace_of_not_isSpace rfl]
    simp
  | cons m' ms ih =>
    intro m hreads fuel seen rest hfuel
    obtain ⟨hm, hreads⟩ := List.forall_mem_cons.mp hreads
    obtain ⟨fuel, rfl⟩ := Nat.exists_eq_succ_of_ne_zero (Nat.ne_of_gt (Nat.lt_of_lt_of_le
      (Nat.succ_pos _) hfuel))
    have hrest := ih m' hreads fuel ((some m.1, m.2) :: seen) rest (Nat.le_of_succ_le_succ hfuel)
    rw [List.map_cons] at hrest
    rw [List.map_cons, List.map_cons, List.intercalate_cons_cons, List.append_assoc,
      List.append_assoc, List.cons_append, List.singleton_append,
      members?_line hm _ seen (hstops _ _ (.inl rfl)), skipSpace_of_not_isSpace rfl]
    simp only [members?_congr (skipSpace_of_isSpace (c := '\n') rfl)]
    rw [hrest]
    simp

theorem value?_brace {cs' : List Char} (h : skipSpace cs = '"' :: cs') (fuel : Nat) :
    value? (fuel + 1) ('\x7b' :: cs) = members? fuel [] cs := by
  have hskip : skipSpace ('"' :: cs') = '"' :: cs' := skipSpace_of_not_isSpace rfl
  rw [value?, skipSpace_of_not_isSpace rfl]
  simp only [h]
  exact members?_congr (hskip.trans h.symm) fuel []

theorem intercalate_cons (sep l : List Char) (ls : List (List Char)) :
    ∃ more, sep.intercalate (l :: ls) = l ++ more ∧ ls.length * sep.length ≤ more.length := by
  induction ls generalizing l with
  | nil => exact ⟨[], by simp, by simp⟩
  | cons l' ls ih =>
    obtain ⟨more, hmore, hlength⟩ := ih l'
    refine ⟨sep ++ (l' ++ more), by rw [List.intercalate_cons_cons, hmore, List.append_assoc], ?_⟩
    rw [List.length_cons, Nat.succ_mul, List.length_append, List.length_append]
    omega

/-- An object of scalars is read off its indented text. -/
theorem parse?_renderIndented {members : List (String × Json)} (hne : members ≠ [])
    (hreads : ∀ m ∈ members, Reads m.2) :
    parse? (renderIndented members).toList = some (record members) := by
  obtain ⟨m, ms, rfl⟩ := List.exists_cons_of_ne_nil hne
  have htext : (renderIndented (m :: ms)).toList = '\x7b' :: '\n' ::
      ([',', '\n'].intercalate ((m :: ms).map fun x => (memberLine x).toList) ++ ['\n', '\x7d']) := by
    rw [renderIndented, String.toList_append, String.toList_append, String.toList_intercalate,
      List.map_map]
    rfl
  obtain ⟨more, hmore, hlength⟩ := intercalate_cons [',', '\n'] (memberLine m).toList
    (ms.map fun x => (memberLine x).toList)
  obtain ⟨name, hname, -⟩ := stringRest_quote m.1 (": ".toList ++ (render m.2).toList ++ more ++
    ['\n', '\x7d'])
  have hskip : skipSpace ('\n' :: ([',', '\n'].intercalate ((m :: ms).map fun x =>
      (memberLine x).toList) ++ ['\n', '\x7d'])) = '"' :: name := by
    have hline : [',', '\n'].intercalate ((m :: ms).map fun x => (memberLine x).toList) ++
        ['\n', '\x7d'] = ' ' :: ' ' :: '"' :: name := by
      rw [List.map_cons, hmore, ← hname]
      simp [memberLine]
    rw [hline, skipSpace_of_isSpace rfl, skipSpace_of_isSpace rfl, skipSpace_of_isSpace rfl,
      skipSpace_of_not_isSpace rfl]
  have hfuel : ms.length + 2 ≤ (renderIndented (m :: ms)).toList.length := by
    rw [htext, List.map_cons, hmore]
    simp only [List.length_cons, List.length_append, List.length_map, List.length_nil] at hlength ⊢
    omega
  obtain ⟨fuel, hlength⟩ := Nat.exists_eq_add_of_le hfuel
  have hread := members?_lines ms m hreads (ms.length + fuel) [] [] (Nat.le_add_right _ _)
  have hvalue : value? ((renderIndented (m :: ms)).toList.length + 1)
      (renderIndented (m :: ms)).toList = some (record (m :: ms), []) := by
    rw [hlength, htext, value?_brace hskip, members?_congr (skipSpace_of_isSpace rfl),
      Nat.add_right_comm, hread, List.reverse_nil, List.nil_append, record]
  rw [parse?, hvalue]
  rfl

end Playground.Json
