import Playground.Proofs.Json.Reader
/-!
# JSON text that is cut off

Reading a value does not look beyond its end: what follows makes no difference, unless it goes on with
a number.  So an object of which the end has been lost is not read as anything else.
-/

namespace Playground.Json

variable {c : Char} {cs ds rest : List Char}

/-! ## 1. How a value is read -/

theorem exists_number?_cons {r : Json × List Char} (h : number? cs = some r) :
    ∃ c t, cs = c :: t ∧ (c.isDigit = true ∨ c = '-') := by
  cases cs with
  | nil => cases h
  | cons c t =>
    refine ⟨c, t, rfl, ?_⟩
    by_cases hc : c.isDigit = true
    · exact .inl hc
    · by_cases hminus : c = '-'
      · exact .inr hminus
      · have hrun : digitRun (c :: t) = ([], c :: t) := by
          rw [digitRun, List.span_eq_takeWhile_dropWhile, List.takeWhile_cons_of_neg hc,
            List.dropWhile_cons_of_neg hc]
        rw [number?.eq_2 _ fun _ h => hminus (List.cons.inj h).1, unsignedNumber?, hrun] at h
        cases h

/-- How the rest of a string literal is read, of which the first parts are read already, last one
first. -/
inductive ReadsParts :
    List StringPart → List Char → List StringPart → List Char → Prop where
  | close (parts : List StringPart) (rest : List Char) :
      ReadsParts parts ('"' :: rest) parts.reverse rest
  | unit {parts read : List StringPart} {a b c d : Char} {n : Nat} {cs rest : List Char}
      (hn : hex4? a b c d = some n) (hmore : ReadsParts (.unit n :: parts) cs read rest) :
      ReadsParts parts ('\\' :: 'u' :: a :: b :: c :: d :: cs) read rest
  | escape {parts read : List StringPart} {c e : Char} {cs rest : List Char}
      (he : simpleEscape? c = some e) (hmore : ReadsParts (.char e :: parts) cs read rest) :
      ReadsParts parts ('\\' :: c :: cs) read rest
  | char {parts read : List StringPart} {c : Char} {cs rest : List Char} (hquote : c ≠ '"')
      (hslash : c ≠ '\\') (hc : ¬ c.toNat < 0x20)
      (hmore : ReadsParts (.char c :: parts) cs read rest) : ReadsParts parts (c :: cs) read rest

theorem readsParts_of_stringParts {parts read : List StringPart}
    (h : stringParts parts cs = some (read, rest)) : ReadsParts parts cs read rest := by
  induction parts, cs using stringParts.induct with
  | case1 parts => cases h
  | case2 parts cs =>
    cases h
    exact .close _ _
  | case3 parts a b c d cs n hn ih =>
    rw [stringParts, hn] at h
    exact .unit hn (ih h)
  | case4 parts a b c d cs hn =>
    rw [stringParts, hn] at h
    cases h
  | case5 parts c cs hc e he ih =>
    rw [stringParts_slash parts he] at h
    exact .escape he (ih h)
  | case6 parts c cs hc he =>
    rw [stringParts.eq_4 parts c cs hc, he] at h
    cases h
  | case7 parts c cs hquote hunit hslash hc =>
    rw [stringParts.eq_5 parts c cs hquote hunit hslash, if_pos hc] at h
    cases h
  | case8 parts c cs hquote _ _ hc ih =>
    rw [stringParts_char parts hquote (fun h => hc (.inl h)) (fun h => hc (.inr h))] at h
    exact .char hquote (fun h => hc (.inl h)) (fun h => hc (.inr h)) (ih h)

theorem ReadsParts.stringParts {parts read : List StringPart} (h : ReadsParts parts cs read rest) :
    stringParts parts cs = some (read, rest) := by
  induction h with
  | close => rfl
  | unit hn _ ih =>
    rw [Json.stringParts, hn]
    exact ih
  | escape he _ ih =>
    rw [stringParts_slash _ he]
    exact ih
  | char hquote hslash hc _ ih =>
    rw [stringParts_char _ hquote hslash hc]
    exact ih

/-- How a value is read, if what it holds is read with `fuel`. -/
inductive ReadsValue (fuel : Nat) (cs : List Char) : Json → List Char → Prop where
  | noMembers {t rest : List Char} (hopen : skipSpace cs = '\x7b' :: t)
      (hclose : skipSpace t = '\x7d' :: rest) : ReadsValue fuel cs (.obj []) rest
  | members {c : Char} {t u rest : List Char} {v : Json} (hopen : skipSpace cs = '\x7b' :: t)
      (hfirst : skipSpace t = c :: u) (hc : c ≠ '\x7d')
      (hmembers : members? fuel [] (c :: u) = some (v, rest)) : ReadsValue fuel cs v rest
  | noItems {t rest : List Char} (hopen : skipSpace cs = '[' :: t)
      (hclose : skipSpace t = ']' :: rest) : ReadsValue fuel cs (.arr []) rest
  | items {c : Char} {t u rest : List Char} {v : Json} (hopen : skipSpace cs = '[' :: t)
      (hfirst : skipSpace t = c :: u) (hc : c ≠ ']')
      (hitems : items? fuel [] (c :: u) = some (v, rest)) : ReadsValue fuel cs v rest
  | str {text : String} {t rest : List Char} (hopen : skipSpace cs = '"' :: t)
      (hread : stringRest t = some (some text, rest)) : ReadsValue fuel cs (.str text) rest
  | garbled {t rest : List Char} (hopen : skipSpace cs = '"' :: t)
      (hread : stringRest t = some (none, rest)) : ReadsValue fuel cs .garbled rest
  | null {rest : List Char} (hword : skipSpace cs = 'n' :: 'u' :: 'l' :: 'l' :: rest) :
      ReadsValue fuel cs .null rest
  | true {rest : List Char} (hword : skipSpace cs = 't' :: 'r' :: 'u' :: 'e' :: rest) :
      ReadsValue fuel cs (.bool Bool.true) rest
  | false {rest : List Char} (hword : skipSpace cs = 'f' :: 'a' :: 'l' :: 's' :: 'e' :: rest) :
      ReadsValue fuel cs (.bool Bool.false) rest
  | number {rest : List Char} {v : Json} (hnumber : number? (skipSpace cs) = some (v, rest)) :
      ReadsValue fuel cs v rest

/-- How the rest of an array is read. -/
inductive ReadsItems (fuel : Nat) (seen : List Json) (cs : List Char) : Json → List Char → Prop where
  | more {item v : Json} {left t rest : List Char} (hvalue : value? fuel cs = some (item, left))
      (hcomma : skipSpace left = ',' :: t) (hitems : items? fuel (item :: seen) t = some (v, rest)) :
      ReadsItems fuel seen cs v rest
  | last {item : Json} {left rest : List Char} (hvalue : value? fuel cs = some (item, left))
      (hclose : skipSpace left = ']' :: rest) :
      ReadsItems fuel seen cs (.arr (item :: seen).reverse) rest

/-- How one member of an object is read. -/
inductive ReadsMember (fuel : Nat) (cs : List Char) (name : Option String) (item : Json)
    (rest : List Char) : Prop where
  | intro {t left u : List Char} (hquote : skipSpace cs = '"' :: t)
      (hname : stringRest t = some (name, left)) (hcolon : skipSpace left = ':' :: u)
      (hvalue : value? fuel u = some (item, rest))

/-- How the rest of an object is read. -/
inductive ReadsMembers (fuel : Nat) (pairs : List (Option String × Json)) (cs : List Char) :
    Json → List Char → Prop where
  | more {name : Option String} {item v : Json} {left t rest : List Char}
      (hmember : ReadsMember fuel cs name item left) (hcomma : skipSpace left = ',' :: t)
      (hmembers : members? fuel ((name, item) :: pairs) t = some (v, rest)) :
      ReadsMembers fuel pairs cs v rest
  | last {name : Option String} {item : Json} {left rest : List Char}
      (hmember : ReadsMember fuel cs name item left) (hclose : skipSpace left = '\x7d' :: rest) :
      ReadsMembers fuel pairs cs (.obj ((name, item) :: pairs).reverse) rest

variable {fuel fuel' : Nat} {v item : Json} {name : Option String} {seen : List Json}
  {pairs : List (Option String × Json)} {t u left : List Char}

theorem items?_nil (fuel : Nat) (seen : List Json) : items? fuel seen [] = none := by
  cases fuel with
  | zero => rfl
  | succ fuel => cases fuel <;> rfl

theorem members?_nil (fuel : Nat) (pairs : List (Option String × Json)) :
    members? fuel pairs [] = none := by
  cases fuel <;> rfl

theorem readsValue_of_value? (h : value? (fuel + 1) cs = some (v, rest)) :
    ReadsValue fuel cs v rest := by
  rw [value?] at h
  split at h
  · rename_i t hopen
    split at h
    · rename_i hclose
      cases h
      exact .noMembers hopen hclose
    · rename_i hmore
      cases hfirst : skipSpace t with
      | nil =>
        rw [hfirst, members?_nil] at h
        cases h
      | cons c u =>
        rw [hfirst] at h
        exact .members hopen hfirst (fun hc => hmore u (hc ▸ hfirst)) h
  · rename_i t hopen
    split at h
    · rename_i hclose
      cases h
      exact .noItems hopen hclose
    · rename_i hmore
      cases hfirst : skipSpace t with
      | nil =>
        rw [hfirst, items?_nil] at h
        cases h
      | cons c u =>
        rw [hfirst] at h
        exact .items hopen hfirst (fun hc => hmore u (hc ▸ hfirst)) h
  · rename_i t hopen
    split at h
    · rename_i hread
      cases h
      exact .str hopen hread
    · rename_i hread
      cases h
      exact .garbled hopen hread
    · cases h
  · cases h
    exact .null ‹_›
  · cases h
    exact .true ‹_›
  · cases h
    exact .false ‹_›
  · exact .number h

theorem ReadsValue.value? (h : ReadsValue fuel cs v rest) :
    value? (fuel + 1) cs = some (v, rest) := by
  cases h with
  | noMembers hopen hclose =>
    rw [Json.value?, hopen]
    simp only [hclose]
  | members hopen hfirst hc hmembers =>
    rw [Json.value?, hopen]
    simp only [hfirst]
    split
    · rename_i heq
      exact absurd (List.cons.inj heq).1 hc
    · exact hmembers
  | noItems hopen hclose =>
    rw [Json.value?, hopen]
    simp only [hclose]
  | items hopen hfirst hc hitems =>
    rw [Json.value?, hopen]
    simp only [hfirst]
    split
    · rename_i heq
      exact absurd (List.cons.inj heq).1 hc
    · exact hitems
  | str hopen hread =>
    rw [Json.value?, hopen]
    simp only [hread]
  | garbled hopen hread =>
    rw [Json.value?, hopen]
    simp only [hread]
  | null hword =>
    rw [Json.value?, hword]
    rfl
  | true hword =>
    rw [Json.value?, hword]
    rfl
  | false hword =>
    rw [Json.value?, hword]
    rfl
  | number hnumber =>
    -- a number begins like nothing else
    obtain ⟨c, t, hskip, hc⟩ := exists_number?_cons hnumber
    have hvalue := value?_number hc fuel t
    rw [Json.value?, skipSpace_of_not_isSpace (isSpace_of_number hc)] at hvalue
    rw [Json.value?, hskip, hvalue, ← hskip, hnumber]

theorem readsItems_of_items? (h : items? (fuel + 1) seen cs = some (v, rest)) :
    ReadsItems fuel seen cs v rest := by
  rw [items?] at h
  split at h
  · cases h
  · rename_i hvalue
    split at h
    · exact .more hvalue ‹_› h
    · cases h
      exact .last hvalue ‹_›
    · cases h

theorem ReadsItems.items? (h : ReadsItems fuel seen cs v rest) :
    items? (fuel + 1) seen cs = some (v, rest) := by
  cases h with
  | more hvalue hcomma hitems =>
    rw [Json.items?, hvalue]
    simp only [hcomma, hitems]
  | last hvalue hclose =>
    rw [Json.items?, hvalue]
    simp only [hclose]

theorem readsMembers_of_members? (h : members? (fuel + 1) pairs cs = some (v, rest)) :
    ReadsMembers fuel pairs cs v rest := by
  rw [members?] at h
  split at h
  · rename_i hquote
    split at h
    · cases h
    · rename_i hname
      split at h
      · rename_i hcolon
        split at h
        · cases h
        · rename_i hvalue
          have hmember := ReadsMember.intro hquote hname hcolon hvalue
          split at h
          · exact .more hmember ‹_› h
          · cases h
            exact .last hmember ‹_›
          · cases h
      · cases h
  · cases h

theorem ReadsMembers.members? (h : ReadsMembers fuel pairs cs v rest) :
    members? (fuel + 1) pairs cs = some (v, rest) := by
  cases h with
  | more hmember hcomma hmembers =>
    obtain ⟨hquote, hname, hcolon, hvalue⟩ := hmember
    rw [Json.members?, hquote]
    simp only [hname, hcolon, hvalue, hcomma, hmembers]
  | last hmember hclose =>
    obtain ⟨hquote, hname, hcolon, hvalue⟩ := hmember
    rw [Json.members?, hquote]
    simp only [hname, hcolon, hvalue, hclose]

/-! ## 2. Texts that go on -/

variable {x : List Char}

theorem skipSpace_append {t : List Char} (h : skipSpace cs = c :: t) (x : List Char) :
    skipSpace (cs ++ x) = c :: (t ++ x) := by
  have hne : (skipSpace cs).isEmpty = false := by rw [h]; rfl
  rw [skipSpace] at h hne ⊢
  rw [List.dropWhile_append, hne, if_neg Bool.false_ne_true, h, List.cons_append]

theorem ReadsParts.append {parts read : List StringPart} (h : ReadsParts parts cs read rest)
    (x : List Char) : ReadsParts parts (cs ++ x) read (rest ++ x) := by
  induction h with
  | close parts rest => exact .close parts (rest ++ x)
  | unit hn _ ih => exact .unit hn ih
  | escape he _ ih => exact .escape he ih
  | char hquote hslash hc _ ih => exact .char hquote hslash hc ih

theorem stringRest_append {text : Option String} (h : stringRest cs = some (text, rest))
    (x : List Char) : stringRest (cs ++ x) = some (text, rest ++ x) := by
  obtain ⟨⟨parts, left⟩, hparts, h⟩ := Option.bind_eq_some_iff.mp h
  obtain ⟨rfl, rfl⟩ := Prod.mk.inj (Option.some.inj h)
  rw [stringRest, ((readsParts_of_stringParts hparts).append x).stringParts]
  rfl

theorem digitRun_append_of_ne_nil (h : digitRun cs = (ds, rest)) (hrest : rest ≠ [])
    (x : List Char) : digitRun (cs ++ x) = (ds, rest ++ x) := by
  rw [digitRun, List.span_eq_takeWhile_dropWhile] at h ⊢
  obtain ⟨rfl, rfl⟩ := Prod.mk.inj h
  have hlength : (cs.takeWhile Char.isDigit).length ≠ cs.length := by
    intro hall
    have hsum := congrArg List.length (List.takeWhile_append_dropWhile (p := Char.isDigit) (l := cs))
    rw [List.length_append] at hsum
    exact hrest (List.length_eq_zero_iff.mp (by omega))
  rw [List.takeWhile_append, if_neg hlength, List.dropWhile_append,
    if_neg (by simpa using hrest)]

/-- Digits that something follows stay the same. -/
theorem someDigits_append {f : List Char → List Char}
    (h : (match digitRun cs with
      | ([], _) => none
      | (ds, rest) => some (f ds, rest)) = some (ds, rest)) (hrest : rest ≠ []) (x : List Char) :
    (match digitRun (cs ++ x) with
      | ([], _) => none
      | (ds, rest) => some (f ds, rest)) = some (ds, rest ++ x) := by
  split at h
  · cases h
  · rename_i run left hne hrun
    obtain ⟨rfl, rfl⟩ := Prod.mk.inj (Option.some.inj h)
    rw [digitRun_append_of_ne_nil hrun hrest]
    split
    · rename_i hnil
      exact absurd (congrArg Prod.fst hnil) hne
    · rename_i heq
      obtain ⟨rfl, rfl⟩ := Prod.mk.inj heq
      rfl

theorem fraction?_append (h : fraction? cs = some (ds, rest)) (hrest : rest ≠ []) (x : List Char) :
    fraction? (cs ++ x) = some (ds, rest ++ x) := by
  unfold fraction? at h
  split at h
  · rw [List.cons_append, fraction?]
    exact someDigits_append h hrest x
  · rename_i hdot
    obtain ⟨rfl, rfl⟩ := Prod.mk.inj (Option.some.inj h)
    obtain ⟨c, t, rfl⟩ := List.exists_cons_of_ne_nil hrest
    rw [List.cons_append, fraction?]
    rintro _ ⟨⟩
    exact hdot _ rfl

theorem exponent?_append (h : exponent? cs = some (ds, rest)) (hrest : rest ≠ []) (x : List Char) :
    exponent? (cs ++ x) = some (ds, rest ++ x) := by
  cases cs with
  | nil =>
    obtain ⟨rfl, rfl⟩ := Prod.mk.inj (Option.some.inj h)
    exact absurd rfl hrest
  | cons e cs =>
    rw [List.cons_append]
    by_cases he : e = 'e' ∨ e = 'E'
    · by_cases hplus : ∃ t, cs = '+' :: t
      · obtain ⟨t, rfl⟩ := hplus
        rw [exponent?, if_pos he] at h
        rw [List.cons_append, exponent?, if_pos he]
        exact someDigits_append h hrest x
      by_cases hminus : ∃ t, cs = '-' :: t
      · obtain ⟨t, rfl⟩ := hminus
        rw [exponent?, if_pos he] at h
        rw [List.cons_append, exponent?, if_pos he]
        exact someDigits_append h hrest x
      -- without a sign the digits have begun, and what follows brings none
      rw [exponent?.eq_3 e cs (fun t ht => hplus ⟨t, ht⟩) (fun t ht => hminus ⟨t, ht⟩), if_pos he] at h
      cases cs with
      | nil => cases h
      | cons c cs =>
        rw [exponent?.eq_3 e (c :: cs ++ x), if_pos he]
        · exact someDigits_append h hrest x
        · rintro t ⟨⟩
          exact hplus ⟨_, rfl⟩
        · rintro t ⟨⟩
          exact hminus ⟨_, rfl⟩
    · have hnone : ∀ t, exponent? (e :: t) = some ([], e :: t) := by
        intro t
        unfold exponent?
        exact if_neg he
      rw [hnone] at h
      obtain ⟨rfl, rfl⟩ := Prod.mk.inj (Option.some.inj h)
      exact hnone _

theorem unsignedNumber?_append (h : unsignedNumber? cs = some (ds, rest)) (hrest : rest ≠ [])
    (x : List Char) : unsignedNumber? (cs ++ x) = some (ds, rest ++ x) := by
  unfold unsignedNumber? at h
  split at h
  · cases h
  · cases h
  · rename_i whole left hnil hzero hrun
    obtain ⟨⟨frac, left'⟩, hfrac, h⟩ := Option.bind_eq_some_iff.mp h
    obtain ⟨⟨exp, left''⟩, hexp, h⟩ := Option.bind_eq_some_iff.mp h
    obtain ⟨rfl, rfl⟩ := Prod.mk.inj (Option.some.inj h)
    have hleft' : left' ≠ [] := by
      rintro rfl
      obtain ⟨-, rfl⟩ := Prod.mk.inj (Option.some.inj hexp)
      exact hrest rfl
    have hleft : left ≠ [] := by
      rintro rfl
      obtain ⟨-, rfl⟩ := Prod.mk.inj (Option.some.inj hfrac)
      exact hleft' rfl
    have hwhole : digitRun (cs ++ x) = (whole, left ++ x) := digitRun_append_of_ne_nil hrun hleft x
    unfold unsignedNumber?
    rw [hwhole]
    split
    · rename_i heq
      exact absurd (congrArg Prod.fst heq) hnil
    · rename_i heq
      exact absurd (congrArg Prod.fst heq) (hzero _ _)
    · rename_i heq
      obtain ⟨rfl, rfl⟩ := Prod.mk.inj heq
      rw [fraction?_append hfrac hleft']
      dsimp only [Option.bind_eq_bind, Option.bind_some]
      rw [exponent?_append hexp hrest]
      rfl

theorem number?_append {v : Json} (h : number? cs = some (v, rest)) (hrest : rest ≠ [])
    (x : List Char) : number? (cs ++ x) = some (v, rest ++ x) := by
  unfold number? at h
  split at h
  · obtain ⟨⟨ds, left⟩, hnumber, h⟩ := Option.map_eq_some_iff.mp h
    obtain ⟨rfl, rfl⟩ := Prod.mk.inj h
    rw [List.cons_append, number?, unsignedNumber?_append hnumber hrest]
    rfl
  · rename_i hminus
    obtain ⟨⟨ds, left⟩, hnumber, h⟩ := Option.map_eq_some_iff.mp h
    obtain ⟨rfl, rfl⟩ := Prod.mk.inj h
    rw [number?.eq_2, unsignedNumber?_append hnumber hrest]
    · rfl
    · intro t ht
      cases cs with
      | nil => cases hnumber
      | cons c cs =>
        rw [List.cons_append] at ht
        exact hminus cs (by rw [(List.cons.inj ht).1])

/-- What is read with some fuel is read with more of it, and from a text that goes on. -/
structure Grows (fuel fuel' : Nat) (x : List Char) : Prop where
  value : ∀ cs v rest, value? fuel cs = some (v, rest) → rest ≠ [] →
    value? fuel' (cs ++ x) = some (v, rest ++ x)
  items : ∀ seen cs v rest, items? fuel seen cs = some (v, rest) →
    items? fuel' seen (cs ++ x) = some (v, rest ++ x)
  members : ∀ seen cs v rest, members? fuel seen cs = some (v, rest) →
    members? fuel' seen (cs ++ x) = some (v, rest ++ x)

theorem Grows.zero (fuel' : Nat) (x : List Char) : Grows 0 fuel' x :=
  ⟨nofun, nofun, nofun⟩

theorem ne_nil_of_skipSpace (h : skipSpace rest = c :: t) : rest ≠ [] := by
  rintro rfl
  cases h

/-- Of what a value may be, only a number has to be followed by something. -/
theorem ReadsValue.append (hg : Grows fuel fuel' x) (h : ReadsValue fuel cs v rest)
    (hrest : rest ≠ [] ∨ ∃ t, skipSpace cs = '\x7b' :: t) :
    ReadsValue fuel' (cs ++ x) v (rest ++ x) := by
  cases h with
  | noMembers hopen hclose => exact .noMembers (skipSpace_append hopen x) (skipSpace_append hclose x)
  | members hopen hfirst hc hmembers =>
    exact .members (skipSpace_append hopen x) (skipSpace_append hfirst x) hc
      (hg.members _ _ _ _ hmembers)
  | noItems hopen hclose => exact .noItems (skipSpace_append hopen x) (skipSpace_append hclose x)
  | items hopen hfirst hc hitems =>
    exact .items (skipSpace_append hopen x) (skipSpace_append hfirst x) hc (hg.items _ _ _ _ hitems)
  | str hopen hread => exact .str (skipSpace_append hopen x) (stringRest_append hread x)
  | garbled hopen hread => exact .garbled (skipSpace_append hopen x) (stringRest_append hread x)
  | null hword => exact .null (skipSpace_append hword x)
  | true hword => exact .true (skipSpace_append hword x)
  | false hword => exact .false (skipSpace_append hword x)
  | number hnumber =>
    obtain ⟨c, t, hskip, hc⟩ := exists_number?_cons hnumber
    rcases hrest with hrest | ⟨u, hopen⟩
    · refine .number ?_
      rw [skipSpace_append hskip, ← List.cons_append, ← hskip]
      exact number?_append hnumber hrest x
    · obtain ⟨rfl, -⟩ := List.cons.inj (hskip.symm.trans hopen)
      rcases hc with hc | hc <;> cases hc

theorem ReadsItems.append (hg : Grows fuel fuel' x) (h : ReadsItems fuel seen cs v rest) :
    ReadsItems fuel' seen (cs ++ x) v (rest ++ x) := by
  cases h with
  | more hvalue hcomma hitems =>
    exact .more (hg.value _ _ _ hvalue (ne_nil_of_skipSpace hcomma)) (skipSpace_append hcomma x)
      (hg.items _ _ _ _ hitems)
  | last hvalue hclose =>
    exact .last (hg.value _ _ _ hvalue (ne_nil_of_skipSpace hclose)) (skipSpace_append hclose x)

theorem ReadsMember.append (hg : Grows fuel fuel' x) (h : ReadsMember fuel cs name item rest)
    (hrest : rest ≠ []) : ReadsMember fuel' (cs ++ x) name item (rest ++ x) := by
  obtain ⟨hquote, hname, hcolon, hvalue⟩ := h
  exact ⟨skipSpace_append hquote x, stringRest_append hname x, skipSpace_append hcolon x,
    hg.value _ _ _ hvalue hrest⟩

theorem ReadsMembers.append (hg : Grows fuel fuel' x) (h : ReadsMembers fuel pairs cs v rest) :
    ReadsMembers fuel' pairs (cs ++ x) v (rest ++ x) := by
  cases h with
  | more hmember hcomma hmembers =>
    exact .more (hmember.append hg (ne_nil_of_skipSpace hcomma)) (skipSpace_append hcomma x)
      (hg.members _ _ _ _ hmembers)
  | last hmember hclose =>
    exact .last (hmember.append hg (ne_nil_of_skipSpace hclose)) (skipSpace_append hclose x)

theorem Grows.succ (hg : Grows fuel fuel' x) : Grows (fuel + 1) (fuel' + 1) x where
  value _ _ _ h hrest := ((readsValue_of_value? h).append hg (.inl hrest)).value?
  items _ _ _ _ h := ((readsItems_of_items? h).append hg).items?
  members _ _ _ _ h := ((readsMembers_of_members? h).append hg).members?

theorem grows (h : fuel ≤ fuel') (x : List Char) : Grows fuel fuel' x := by
  induction fuel generalizing fuel' with
  | zero => exact .zero fuel' x
  | succ fuel ih =>
    cases fuel' with
    | zero => cases h
    | succ fuel' => exact (ih (Nat.le_of_succ_le_succ h)).succ

/-! ## 3. Texts that are cut off -/

theorem skipSpace_suffix (cs : List Char) : skipSpace cs <:+ cs := List.dropWhile_suffix _

theorem ReadsParts.suffix {parts read : List StringPart} (h : ReadsParts parts cs read rest) :
    rest <:+ cs := by
  induction h with
  | close _ rest => exact List.suffix_cons _ rest
  | @unit _ _ a b c d _ cs _ _ _ ih => exact ih.trans (List.suffix_append ['\\', 'u', a, b, c, d] cs)
  | @escape _ _ c _ cs _ _ _ ih => exact ih.trans (List.suffix_append ['\\', c] cs)
  | char _ _ _ _ ih => exact ih.trans (List.suffix_cons _ _)

theorem stringRest_suffix {text : Option String} (h : stringRest cs = some (text, rest)) :
    rest <:+ cs := by
  obtain ⟨⟨parts, left⟩, hparts, h⟩ := Option.bind_eq_some_iff.mp h
  obtain ⟨rfl, rfl⟩ := Prod.mk.inj (Option.some.inj h)
  exact (readsParts_of_stringParts hparts).suffix

theorem digitRun_suffix (h : digitRun cs = (ds, rest)) : rest <:+ cs := by
  rw [digitRun, List.span_eq_takeWhile_dropWhile] at h
  rw [← (Prod.mk.inj h).2]
  exact List.dropWhile_suffix _

theorem someDigits_suffix {f : List Char → List Char}
    (h : (match digitRun cs with
      | ([], _) => none
      | (ds, rest) => some (f ds, rest)) = some (ds, rest)) : rest <:+ cs := by
  split at h
  · cases h
  · rename_i run left hne hrun
    obtain ⟨rfl, rfl⟩ := Prod.mk.inj (Option.some.inj h)
    exact digitRun_suffix hrun

theorem fraction?_suffix (h : fraction? cs = some (ds, rest)) : rest <:+ cs := by
  unfold fraction? at h
  split at h
  · exact (someDigits_suffix h).trans (List.suffix_cons _ _)
  · obtain ⟨rfl, rfl⟩ := Prod.mk.inj (Option.some.inj h)
    exact List.suffix_refl _

theorem exponent?_suffix (h : exponent? cs = some (ds, rest)) : rest <:+ cs := by
  unfold exponent? at h
  split at h
  · rename_i e cs
    split at h
    · refine List.IsSuffix.trans ?_ (List.suffix_cons _ _)
      split at h
      rename_i sign cs' hsign
      refine (someDigits_suffix h).trans ?_
      split at hsign
      · exact (Prod.mk.inj hsign).2 ▸ List.suffix_cons _ _
      · exact (Prod.mk.inj hsign).2 ▸ List.suffix_cons _ _
      · exact (Prod.mk.inj hsign).2 ▸ List.suffix_refl _
    · obtain ⟨rfl, rfl⟩ := Prod.mk.inj (Option.some.inj h)
      exact List.suffix_refl _
  · obtain ⟨rfl, rfl⟩ := Prod.mk.inj (Option.some.inj h)
    exact List.suffix_refl _

theorem unsignedNumber?_suffix (h : unsignedNumber? cs = some (ds, rest)) : rest <:+ cs := by
  unfold unsignedNumber? at h
  split at h
  · cases h
  · cases h
  · rename_i hrun
    obtain ⟨⟨frac, left'⟩, hfrac, h⟩ := Option.bind_eq_some_iff.mp h
    obtain ⟨⟨exp, left''⟩, hexp, h⟩ := Option.bind_eq_some_iff.mp h
    obtain ⟨rfl, rfl⟩ := Prod.mk.inj (Option.some.inj h)
    exact ((exponent?_suffix hexp).trans (fraction?_suffix hfrac)).trans (digitRun_suffix hrun)

theorem number?_suffix {v : Json} (h : number? cs = some (v, rest)) : rest <:+ cs := by
  unfold number? at h
  split at h
  · obtain ⟨⟨ds, left⟩, hnumber, h⟩ := Option.map_eq_some_iff.mp h
    obtain ⟨rfl, rfl⟩ := Prod.mk.inj h
    exact (unsignedNumber?_suffix hnumber).trans (List.suffix_cons _ _)
  · obtain ⟨⟨ds, left⟩, hnumber, h⟩ := Option.map_eq_some_iff.mp h
    obtain ⟨rfl, rfl⟩ := Prod.mk.inj h
    exact unsignedNumber?_suffix hnumber

/-- Reading goes forward, and members end with a brace. -/
structure Advances (fuel : Nat) : Prop where
  value : ∀ cs v rest, value? fuel cs = some (v, rest) → rest <:+ cs
  items : ∀ seen cs v rest, items? fuel seen cs = some (v, rest) → rest <:+ cs
  members : ∀ seen cs v rest, members? fuel seen cs = some (v, rest) → '\x7d' :: rest <:+ cs

theorem suffix_of_skipSpace (h : skipSpace cs = c :: t) : c :: t <:+ cs :=
  h ▸ skipSpace_suffix cs

theorem tail_suffix_of_skipSpace (h : skipSpace cs = c :: t) : t <:+ cs :=
  (List.suffix_cons c t).trans (suffix_of_skipSpace h)

theorem ReadsValue.suffix (ha : Advances fuel) (h : ReadsValue fuel cs v rest) : rest <:+ cs := by
  cases h with
  | noMembers hopen hclose =>
    exact (tail_suffix_of_skipSpace hclose).trans (tail_suffix_of_skipSpace hopen)
  | members hopen hfirst _ hmembers =>
    exact (((List.suffix_cons _ _).trans (ha.members _ _ _ _ hmembers)).trans
      (suffix_of_skipSpace hfirst)).trans (tail_suffix_of_skipSpace hopen)
  | noItems hopen hclose =>
    exact (tail_suffix_of_skipSpace hclose).trans (tail_suffix_of_skipSpace hopen)
  | items hopen hfirst _ hitems =>
    exact ((ha.items _ _ _ _ hitems).trans (suffix_of_skipSpace hfirst)).trans
      (tail_suffix_of_skipSpace hopen)
  | str hopen hread => exact (stringRest_suffix hread).trans (tail_suffix_of_skipSpace hopen)
  | garbled hopen hread => exact (stringRest_suffix hread).trans (tail_suffix_of_skipSpace hopen)
  | null hword =>
    exact (List.suffix_append ['n', 'u', 'l', 'l'] rest).trans (suffix_of_skipSpace hword)
  | true hword =>
    exact (List.suffix_append ['t', 'r', 'u', 'e'] rest).trans (suffix_of_skipSpace hword)
  | false hword =>
    exact (List.suffix_append ['f', 'a', 'l', 's', 'e'] rest).trans (suffix_of_skipSpace hword)
  | number hnumber => exact (number?_suffix hnumber).trans (skipSpace_suffix cs)

theorem ReadsItems.suffix (ha : Advances fuel) (h : ReadsItems fuel seen cs v rest) :
    rest <:+ cs := by
  cases h with
  | more hvalue hcomma hitems =>
    exact ((ha.items _ _ _ _ hitems).trans (tail_suffix_of_skipSpace hcomma)).trans
      (ha.value _ _ _ hvalue)
  | last hvalue hclose => exact (tail_suffix_of_skipSpace hclose).trans (ha.value _ _ _ hvalue)

theorem ReadsMember.suffix (ha : Advances fuel) (h : ReadsMember fuel cs name item rest) :
    rest <:+ cs := by
  obtain ⟨hquote, hname, hcolon, hvalue⟩ := h
  exact (((ha.value _ _ _ hvalue).trans (tail_suffix_of_skipSpace hcolon)).trans
    (stringRest_suffix hname)).trans (tail_suffix_of_skipSpace hquote)

theorem ReadsMembers.suffix (ha : Advances fuel) (h : ReadsMembers fuel pairs cs v rest) :
    '\x7d' :: rest <:+ cs := by
  cases h with
  | more hmember hcomma hmembers =>
    exact ((ha.members _ _ _ _ hmembers).trans (tail_suffix_of_skipSpace hcomma)).trans
      (hmember.suffix ha)
  | last hmember hclose => exact (suffix_of_skipSpace hclose).trans (hmember.suffix ha)

theorem Advances.succ (ha : Advances fuel) : Advances (fuel + 1) where
  value _ _ _ h := (readsValue_of_value? h).suffix ha
  items _ _ _ _ h := (readsItems_of_items? h).suffix ha
  members _ _ _ _ h := (readsMembers_of_members? h).suffix ha

theorem advances (fuel : Nat) : Advances fuel := by
  induction fuel with
  | zero => exact ⟨nofun, nofun, nofun⟩
  | succ fuel ih => exact ih.succ

theorem skipSpace_eq_nil_iff : skipSpace cs = [] ↔ ∀ c ∈ cs, isSpace c = true :=
  List.dropWhile_eq_nil_iff

theorem skipSpace_append_of_nil (h : skipSpace cs = []) (x : List Char) :
    skipSpace (cs ++ x) = skipSpace x :=
  List.dropWhile_append_of_pos (skipSpace_eq_nil_iff.mp h)

theorem suffix_of_value?_brace {v : Json}
    (h : value? (fuel + 1) ('\x7b' :: cs) = some (v, rest)) : '\x7d' :: rest <:+ cs := by
  rw [value?, skipSpace_of_not_isSpace rfl] at h
  simp only at h
  split at h
  · rename_i t hskip
    cases h
    exact suffix_of_skipSpace hskip
  · exact ((advances fuel).members _ _ _ _ h).trans (skipSpace_suffix cs)

/-- Whatever begins with a brace and has been cut off is not read, even if something that does not
end with a brace has taken the place of the rest. -/
theorem parse?_cut {more torn : List Char} {v : Json} (hread : parse? ('\x7b' :: cs ++ more) = some v)
    (hmore : skipSpace more ≠ [])
    (htorn : torn = [] ∨ ∃ c, torn.getLast? = some c ∧ c ≠ '\x7d' ∧ isSpace c = false) :
    parse? ('\x7b' :: cs ++ torn) = none := by
  unfold parse?
  split
  · rename_i v' rest hvalue
    refine if_neg fun hrest => ?_
    rcases htorn with rfl | ⟨c, hlast, hbrace, hspace⟩
    · rw [List.append_nil] at hvalue
      have hlength : ('\x7b' :: cs).length ≤ ('\x7b' :: cs ++ more).length := by
        rw [List.length_append]
        exact Nat.le_add_right _ _
      have hwhole := ((readsValue_of_value? hvalue).append (grows hlength more)
        (.inr ⟨cs, skipSpace_of_not_isSpace rfl⟩)).value?
      rw [parse?, hwhole] at hread
      simp only at hread
      rw [skipSpace_append_of_nil hrest, if_neg hmore] at hread
      cases hread
    · have hsuffix : '\x7d' :: rest <:+ cs ++ torn := suffix_of_value?_brace hvalue
      obtain ⟨t, ht⟩ := hsuffix
      have hend : ('\x7d' :: rest).getLast? = some c := by
        have hsame := congrArg List.getLast? ht
        rwa [List.getLast?_append_cons, List.getLast?_append, hlast, Option.some_or] at hsame
      cases rest with
      | nil => exact hbrace (Option.some.inj hend).symm
      | cons d rest =>
        have hmem : c ∈ d :: rest := List.mem_of_getLast? hend
        rw [skipSpace_eq_nil_iff.mp hrest c hmem] at hspace
        cases hspace
  · rfl

end Playground.Json
