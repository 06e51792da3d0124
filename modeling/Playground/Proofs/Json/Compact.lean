import Playground.Proofs.Json.Reader
/-!
# Reading compact JSON text

A value without oddly spelled numbers and without garbled texts is read off its compact text.  The
reader calls itself for every item and member, so what it may call must last for all the characters
before it.
-/

namespace Playground.Json

variable {v : Json} {rest : List Char}

/-! ## 1. Values that are written plainly -/

/-- Whether the value is made of constants, decimal forms, texts, arrays, and objects with texts as
names. -/
inductive IsPlain : Json → Prop where
  | null : IsPlain .null
  | bool (b : Bool) : IsPlain (.bool b)
  | ofNat (n : Nat) : IsPlain (.ofNat n)
  | str (s : String) : IsPlain (.str s)
  | arr (items : List Json) (h : ∀ item ∈ items, IsPlain item) : IsPlain (.arr items)
  | record (members : List (String × Json)) (h : ∀ m ∈ members, IsPlain m.2) :
      IsPlain (.record members)

theorem toList_render_ofNat (n : Nat) : (render (.ofNat n)).toList = Nat.toDigits 10 n := by
  rw [ofNat, render, Nat.toString_eq_repr, Nat.toList_repr]

theorem toList_render_arr (items : List Json) :
    (render (.arr items)).toList = '[' :: ((renderItems items).toList ++ [']']) := by
  rw [render, String.toList_append, String.toList_append]
  rfl

theorem toList_render_record (members : List (String × Json)) :
    (render (.record members)).toList =
      '\x7b' :: ((renderMembers (members.map fun m => (some m.1, m.2))).toList ++ ['\x7d']) := by
  rw [record, render, String.toList_append, String.toList_append]
  rfl

/-- The text of a value does not begin like the end of an array. -/
theorem IsPlain.exists_head (h : IsPlain v) :
    ∃ c cs, (render v).toList = c :: cs ∧ isSpace c = false ∧ c ≠ ']' := by
  cases h with
  | null => exact ⟨'n', ['u', 'l', 'l'], rfl, by decide, by decide⟩
  | bool b =>
    cases b with
    | false => exact ⟨'f', ['a', 'l', 's', 'e'], rfl, by decide, by decide⟩
    | true => exact ⟨'t', ['r', 'u', 'e'], rfl, by decide, by decide⟩
  | ofNat n =>
    obtain ⟨d, ds, hds⟩ := List.exists_cons_of_ne_nil (Nat.toDigits_ne_nil (n := n) (b := 10))
    have hd := isDigit_toDigits n d (hds ▸ List.mem_cons_self)
    refine ⟨d, ds, by rw [toList_render_ofNat, hds], isSpace_of_number (.inl hd), ?_⟩
    rintro rfl
    cases hd
  | str s => exact ⟨'"', _, by rw [render, toList_quote], by decide, by decide⟩
  | arr items => exact ⟨'[', _, toList_render_arr items, by decide, by decide⟩
  | record members => exact ⟨'\x7b', _, toList_render_record members, by decide, by decide⟩

/-! ## 2. What the reader needs -/

/-- The value is read off its text when the reader may call itself as often as the text has
characters. -/
def ReadsWithin (v : Json) : Prop :=
  ∀ fuel rest, (render v).toList.length < fuel → Stops rest →
    value? fuel ((render v).toList ++ rest) = some (v, rest)

theorem Reads.within (h : Reads v) : ReadsWithin v := by
  intro fuel rest hfuel hrest
  obtain ⟨fuel, rfl⟩ := Nat.exists_eq_succ_of_ne_zero (Nat.ne_zero_of_lt hfuel)
  exact h fuel rest hrest

theorem stops_of_mark {c : Char} (h : c = ',' ∨ c = ']' ∨ c = '\x7d') (cs : List Char) :
    Stops (c :: cs) := by
  intro d hd
  obtain rfl := Option.some.inj hd
  rcases h with rfl | rfl | rfl <;> decide

theorem reads_null : Reads .null := by
  intro fuel rest _
  have htext : (render .null).toList ++ rest = 'n' :: 'u' :: 'l' :: 'l' :: rest := rfl
  rw [htext, value?, skipSpace_of_not_isSpace rfl]
  rfl

theorem reads_bool (b : Bool) : Reads (.bool b) := by
  intro fuel rest _
  cases b with
  | false =>
    have htext : (render (.bool false)).toList ++ rest =
        'f' :: 'a' :: 'l' :: 's' :: 'e' :: rest := rfl
    rw [htext, value?, skipSpace_of_not_isSpace rfl]
    rfl
  | true =>
    have htext : (render (.bool true)).toList ++ rest = 't' :: 'r' :: 'u' :: 'e' :: rest := rfl
    rw [htext, value?, skipSpace_of_not_isSpace rfl]
    rfl

/-! ## 3. Arrays -/

theorem toList_renderItems_cons (item next : Json) (items : List Json) :
    (renderItems (item :: next :: items)).toList =
      (render item).toList ++ ',' :: (renderItems (next :: items)).toList := by
  rw [renderItems, String.toList_append, String.toList_append, List.append_assoc]
  · rfl
  · exact List.cons_ne_nil _ _

/-- Items are read one after the other. -/
theorem items?_renderItems (items : List Json) :
    ∀ item, (∀ x ∈ item :: items, ReadsWithin x) → ∀ fuel seen rest,
      (renderItems (item :: items)).toList.length + 1 < fuel →
      items? fuel seen ((renderItems (item :: items)).toList ++ ']' :: rest) =
        some (.arr (seen.reverse ++ item :: items), rest) := by
  induction items with
  | nil =>
    intro item hreads fuel seen rest hfuel
    obtain ⟨fuel, rfl⟩ := Nat.exists_eq_succ_of_ne_zero (Nat.ne_zero_of_lt hfuel)
    have hitem := hreads item List.mem_cons_self fuel (']' :: rest)
      (Nat.lt_of_succ_lt_succ hfuel) (stops_of_mark (.inr (.inl rfl)) rest)
    rw [renderItems, items?, hitem]
    dsimp only
    rw [skipSpace_of_not_isSpace rfl, List.reverse_cons]
    rfl
  | cons next items ih =>
    intro item hreads fuel seen rest hfuel
    obtain ⟨fuel, rfl⟩ := Nat.exists_eq_succ_of_ne_zero (Nat.ne_zero_of_lt hfuel)
    obtain ⟨hitem, hreads⟩ := List.forall_mem_cons.mp hreads
    rw [toList_renderItems_cons, List.length_append, List.length_cons] at hfuel
    have hnext := ih next hreads fuel (item :: seen) rest (by omega)
    rw [toList_renderItems_cons, List.append_assoc, List.cons_append, items?,
      hitem fuel _ (by omega) (stops_of_mark (.inl rfl) _)]
    dsimp only
    rw [skipSpace_of_not_isSpace rfl]
    exact hnext.trans (by rw [List.reverse_cons, List.append_assoc, List.singleton_append])

theorem value?_bracket (fuel : Nat) (cs : List Char) :
    value? (fuel + 1) ('[' :: cs) =
      match skipSpace cs with
      | ']' :: rest => some (.arr [], rest)
      | rest => items? fuel [] rest := by
  rw [value?, skipSpace_of_not_isSpace rfl]
  rfl

theorem readsWithin_arr {items : List Json} (hplain : ∀ item ∈ items, IsPlain item)
    (hreads : ∀ item ∈ items, ReadsWithin item) : ReadsWithin (.arr items) := by
  intro fuel rest hfuel _
  rw [toList_render_arr] at hfuel ⊢
  rw [List.cons_append, List.append_assoc, List.singleton_append]
  obtain ⟨fuel, rfl⟩ := Nat.exists_eq_succ_of_ne_zero (Nat.ne_zero_of_lt hfuel)
  cases items with
  | nil =>
    have htext : (renderItems []).toList ++ ']' :: rest = ']' :: rest := rfl
    rw [htext, value?_bracket, skipSpace_of_not_isSpace rfl]
    rfl
  | cons item items =>
    simp only [List.length_cons, List.length_append, List.length_nil] at hfuel
    have hitems := items?_renderItems items item hreads fuel [] rest (by omega)
    -- the text of the first item opens the text of all of them
    obtain ⟨c, cs, hhead, hspace, hend⟩ := (hplain item List.mem_cons_self).exists_head
    obtain ⟨more, hmore⟩ : ∃ more, (renderItems (item :: items)).toList ++ ']' :: rest =
        c :: more := by
      cases items with
      | nil => exact ⟨cs ++ ']' :: rest, by rw [renderItems, hhead, List.cons_append]⟩
      | cons next items =>
        exact ⟨_, by rw [toList_renderItems_cons, hhead, List.cons_append, List.cons_append]⟩
    rw [hmore] at hitems ⊢
    rw [value?_bracket, skipSpace_of_not_isSpace hspace]
    split
    · rename_i heq
      exact absurd (List.cons.inj heq).1 hend
    · exact hitems

/-! ## 4. Objects -/

theorem toList_renderMembers_singleton (name : String) (item : Json) :
    (renderMembers [(some name, item)]).toList =
      (quote name).toList ++ ':' :: (render item).toList := by
  rw [renderMembers, quoteName, String.toList_append, String.toList_append, List.append_assoc]
  rfl

theorem toList_renderMembers_cons (name : String) (item : Json) (next : Option String × Json)
    (members : List (Option String × Json)) :
    (renderMembers ((some name, item) :: next :: members)).toList =
      (renderMembers [(some name, item)]).toList ++
        ',' :: (renderMembers (next :: members)).toList := by
  rw [renderMembers, renderMembers, String.toList_append, String.toList_append, List.append_assoc]
  · rfl
  · exact List.cons_ne_nil _ _

/-- A member is its name, a colon and its value. -/
theorem members?_member {name : String} {item : Json} (hitem : ReadsWithin item) {fuel : Nat}
    (hfuel : (renderMembers [(some name, item)]).toList.length < fuel + 1)
    (seen : List (Option String × Json)) (hrest : Stops rest) :
    members? (fuel + 2) seen ((renderMembers [(some name, item)]).toList ++ rest) =
      match skipSpace rest with
      | ',' :: rest => members? (fuel + 1) ((some name, item) :: seen) rest
      | '\x7d' :: rest => some (.obj ((some name, item) :: seen).reverse, rest)
      | _ => none := by
  obtain ⟨cs, hcs, hname⟩ := stringRest_quote name (':' :: ((render item).toList ++ rest))
  rw [toList_renderMembers_singleton, List.length_append, List.length_cons] at hfuel
  have hvalue := hitem (fuel + 1) rest (by omega) hrest
  have hread := members?_quote fuel seen cs
  rw [hname] at hread
  dsimp only at hread
  rw [skipSpace_of_not_isSpace rfl] at hread
  simp only [hvalue] at hread
  rw [toList_renderMembers_singleton, List.append_assoc, List.cons_append, hcs]
  exact hread

/-- Members are read one after the other. -/
theorem members?_renderMembers (members : List (String × Json)) :
    ∀ m : String × Json, (∀ x ∈ m :: members, ReadsWithin x.2) → ∀ fuel seen rest,
      (renderMembers ((m :: members).map fun x => (some x.1, x.2))).toList.length < fuel + 1 →
      members? (fuel + 2) seen
          ((renderMembers ((m :: members).map fun x => (some x.1, x.2))).toList ++ '\x7d' :: rest) =
        some (.obj (seen.reverse ++ (m :: members).map fun x => (some x.1, x.2)), rest) := by
  induction members with
  | nil =>
    intro m hreads fuel seen rest hfuel
    rw [List.map_singleton] at hfuel ⊢
    rw [members?_member (hreads m List.mem_cons_self) hfuel seen
      (stops_of_mark (.inr (.inr rfl)) rest), skipSpace_of_not_isSpace rfl, List.reverse_cons]
    rfl
  | cons next members ih =>
    intro m hreads fuel seen rest hfuel
    obtain ⟨hm, hreads⟩ := List.forall_mem_cons.mp hreads
    have htext := toList_renderMembers_cons m.1 m.2 (some next.1, next.2)
      (members.map fun x => (some x.1, x.2))
    rw [List.map_cons, List.map_cons, htext, List.length_append, List.length_cons] at hfuel
    obtain ⟨fuel, rfl⟩ := Nat.exists_eq_succ_of_ne_zero (n := fuel) (by omega)
    have hnext := ih next hreads fuel ((some m.1, m.2) :: seen) rest (by
      rw [List.map_cons]
      omega)
    rw [List.map_cons, List.map_cons, htext, List.append_assoc, List.cons_append,
      members?_member hm (by omega) seen (stops_of_mark (.inl rfl) _), skipSpace_of_not_isSpace rfl]
    rw [List.map_cons, List.reverse_cons, List.append_assoc, List.singleton_append] at hnext
    exact hnext

theorem value?_openBrace (fuel : Nat) (cs : List Char) :
    value? (fuel + 1) ('\x7b' :: cs) =
      match skipSpace cs with
      | '\x7d' :: rest => some (.obj [], rest)
      | rest => members? fuel [] rest := by
  rw [value?, skipSpace_of_not_isSpace rfl]
  rfl

theorem readsWithin_record {members : List (String × Json)}
    (hreads : ∀ m ∈ members, ReadsWithin m.2) : ReadsWithin (.record members) := by
  intro fuel rest hfuel _
  rw [toList_render_record] at hfuel ⊢
  rw [List.cons_append, List.append_assoc, List.singleton_append]
  simp only [List.length_cons, List.length_append, List.length_nil] at hfuel
  cases members with
  | nil =>
    obtain ⟨fuel, rfl⟩ := Nat.exists_eq_succ_of_ne_zero (Nat.ne_zero_of_lt hfuel)
    have htext : (renderMembers []).toList ++ '\x7d' :: rest = '\x7d' :: rest := rfl
    rw [List.map_nil, htext, value?_openBrace, skipSpace_of_not_isSpace rfl]
    rfl
  | cons m members =>
    obtain ⟨fuel, rfl⟩ := Nat.exists_eq_add_of_le' (m := 3) (n := fuel) (by omega)
    have hmembers := members?_renderMembers members m hreads fuel [] rest (by omega)
    obtain ⟨cs, hcs⟩ : ∃ cs, (renderMembers ((m :: members).map fun x => (some x.1, x.2))).toList ++
        '\x7d' :: rest = '"' :: cs := by
      cases members with
      | nil =>
        rw [List.map_singleton, toList_renderMembers_singleton, toList_quote]
        exact ⟨_, rfl⟩
      | cons next members =>
        rw [List.map_cons, List.map_cons, toList_renderMembers_cons, toList_renderMembers_singleton,
          toList_quote]
        exact ⟨_, rfl⟩
    rw [hcs] at hmembers ⊢
    rw [value?_openBrace, skipSpace_of_not_isSpace rfl]
    exact hmembers

/-! ## 5. All values -/

theorem IsPlain.readsWithin (h : IsPlain v) : ReadsWithin v := by
  induction h with
  | null => exact reads_null.within
  | bool b => exact (reads_bool b).within
  | ofNat n => exact (reads_ofNat n).within
  | str s => exact (reads_str s).within
  | arr items h ih => exact readsWithin_arr h ih
  | record members h ih => exact readsWithin_record ih

/-- A plain value is read off its compact text. -/
theorem parse?_render (h : IsPlain v) : parse? (render v).toList = some v := by
  have hread := h.readsWithin ((render v).toList.length + 1) [] (Nat.lt_succ_self _) nofun
  rw [List.append_nil] at hread
  rw [parse?, hread]
  rfl

end Playground.Json
