import Playground.Proofs.Objections
/-!
# Versions of a workspace

Every change gives a new version of a workspace and leaves the one it was made from.  The files of a
version are an ordered map from normal names, its buffers an ordered map from ids, and neither the
settings nor one of the maps is touched by a change to the other.

A list that is changed by setting an element under its key and by dropping a key is such a map.  What it
holds can be read off the changes alone: under each key the element that was set last, if the key has
not been dropped since, in the order in which the stays of the keys began.
-/

namespace Playground

/-- A change to a list of elements with keys. -/
inductive KeyedChange (α κ : Type) where
  | set (a : α)
  | drop (k : κ)

/-- The element takes the place of the first one that satisfies `p`, or the last place if there is
none. -/
def IsPlaced {α : Type} (p : α → Bool) (a : α) (l l' : List α) : Prop :=
  (∃ i x, l[i]? = some x ∧ p x = true ∧ (∀ y ∈ l.take i, p y = false) ∧ l' = l.set i a) ∨
    (∀ y ∈ l, p y = false) ∧ l' = l ++ [a]

namespace KeyedChange

variable {α κ : Type} {key : α → κ} {c : KeyedChange α κ} {cs : List (KeyedChange α κ)} {a b : α}
  {k k' : κ} {l : List α} {i j : Nat}

/-- The key that is set or dropped. -/
def keyOf (key : α → κ) : KeyedChange α κ → κ
  | set a => key a
  | drop k => k

/-- The element was set under the key, and since then the key was neither set again nor dropped. -/
def LastSet (key : α → κ) (cs : List (KeyedChange α κ)) (k : κ) (a : α) : Prop :=
  ∃ before after, cs = before ++ .set a :: after ∧ key a = k ∧ ∀ c ∈ after, c.keyOf key ≠ k

/-- Change `i` sets the key while it is absent, and it is not dropped after that. -/
def EntersAt (key : α → κ) (cs : List (KeyedChange α κ)) (k : κ) (i : Nat) : Prop :=
  ∃ before a after, cs = before ++ .set a :: after ∧ before.length = i ∧ key a = k ∧
    (∀ b, ¬LastSet key before k b) ∧ .drop k ∉ after

/-! ## 1. What one more change does to the history of a key -/

theorem concat_eq_append_cons {β : Type} {front before after : List β} {x y : β}
    (h : front ++ [y] = before ++ x :: after) :
    after = [] ∧ front = before ∧ y = x ∨
      ∃ after', after = after' ++ [y] ∧ front = before ++ x :: after' := by
  rcases List.eq_nil_or_concat' after with rfl | ⟨after', last, rfl⟩
  · obtain ⟨hfront, hlast⟩ := List.append_singleton_inj.mp h
    exact .inl ⟨rfl, hfront, hlast⟩
  · rw [← List.cons_append, ← List.append_assoc] at h
    obtain ⟨hfront, rfl⟩ := List.append_singleton_inj.mp h
    exact .inr ⟨after', rfl, hfront⟩

theorem lastSet_concat_set (h : key a = k) : LastSet key (cs ++ [.set a]) k b ↔ b = a := by
  constructor
  · rintro ⟨before, after, hcs, -, hafter⟩
    rcases concat_eq_append_cons hcs with ⟨-, -, hlast⟩ | ⟨after', rfl, -⟩
    · exact (KeyedChange.set.inj hlast).symm
    · -- the last change sets the key again
      exact absurd h (hafter _ (List.mem_append_right _ List.mem_cons_self))
  · rintro rfl
    exact ⟨cs, [], rfl, h, fun c hc => by cases hc⟩

theorem not_lastSet_concat_drop : ¬LastSet key (cs ++ [.drop k]) k b := by
  rintro ⟨before, after, hcs, -, hafter⟩
  rcases concat_eq_append_cons hcs with ⟨-, -, hlast⟩ | ⟨after', rfl, -⟩
  · cases hlast
  · exact hafter _ (List.mem_append_right _ List.mem_cons_self) rfl

theorem lastSet_concat_of_ne (h : c.keyOf key ≠ k) :
    LastSet key (cs ++ [c]) k b ↔ LastSet key cs k b := by
  constructor
  · rintro ⟨before, after, hcs, hb, hafter⟩
    rcases concat_eq_append_cons hcs with ⟨-, -, rfl⟩ | ⟨after', rfl, hbefore⟩
    · exact absurd hb h
    · exact ⟨before, after', hbefore, hb, fun d hd => hafter d (List.mem_append_left _ hd)⟩
  · rintro ⟨before, after, rfl, hb, hafter⟩
    refine ⟨before, after ++ [c], by simp, hb, fun d hd => ?_⟩
    rcases List.mem_append.mp hd with hd | hd
    · exact hafter d hd
    · rwa [List.mem_singleton.mp hd]

theorem EntersAt.lt_length (h : EntersAt key cs k i) : i < cs.length := by
  obtain ⟨before, a, after, rfl, rfl, -⟩ := h
  simp

/-- A stay goes on until the key is dropped. -/
theorem EntersAt.concat (h : EntersAt key cs k i) (hc : c ≠ .drop k) :
    EntersAt key (cs ++ [c]) k i := by
  obtain ⟨before, a, after, rfl, hi, ha, habsent, hkept⟩ := h
  refine ⟨before, a, after ++ [c], by simp, hi, ha, habsent, fun hmem => ?_⟩
  rcases List.mem_append.mp hmem with hmem | hmem
  · exact hkept hmem
  · exact hc (List.mem_singleton.mp hmem).symm

/-- A stay that has not begun before the last change begins with it. -/
theorem EntersAt.of_concat (h : EntersAt key (cs ++ [c]) k i) :
    EntersAt key cs k i ∨ i = cs.length ∧ ∀ b, ¬LastSet key cs k b := by
  obtain ⟨before, a, after, hcs, rfl, ha, habsent, hkept⟩ := h
  rcases concat_eq_append_cons hcs with ⟨-, rfl, -⟩ | ⟨after', rfl, hbefore⟩
  · exact .inr ⟨rfl, habsent⟩
  · exact .inl ⟨before, a, after', hbefore, rfl, ha, habsent,
      fun hmem => hkept (List.mem_append_left _ hmem)⟩

theorem entersAt_concat_set (h : key a = k) (habsent : ∀ b, ¬LastSet key cs k b) :
    EntersAt key (cs ++ [.set a]) k cs.length :=
  ⟨cs, a, [], rfl, rfl, h, habsent, List.not_mem_nil⟩

/-- A key that stays has been set. -/
theorem EntersAt.exists_lastSet (h : EntersAt key cs k i) : ∃ b, LastSet key cs k b := by
  obtain ⟨before, a, after, rfl, -, ha, -, hkept⟩ := h
  induction after using List.reverseRecOn with
  | nil => exact ⟨a, (lastSet_concat_set ha).mpr rfl⟩
  | append_singleton after c ih =>
    rw [← List.cons_append, ← List.append_assoc]
    obtain ⟨b, hb⟩ := ih fun hmem => hkept (List.mem_append_left _ hmem)
    by_cases hc : c.keyOf key = k
    · cases c with
      | set b' =>
        have hkey : key b' = k := hc
        exact ⟨b', (lastSet_concat_set hkey).mpr rfl⟩
      | drop k' =>
        obtain rfl : k' = k := hc
        exact absurd (List.mem_append_right _ List.mem_cons_self) hkept
    · exact ⟨b, (lastSet_concat_of_ne hc).mpr hb⟩

/-! ## 2. Setting and dropping -/

theorem isPlaced_upsert (p : α → Bool) (a : α) (l : List α) : IsPlaced p a l (upsert p a l) := by
  have hupsert : upsert p a l = Inline.changeFirst p (fun _ => a) a l := by
    induction l with
    | nil => rfl
    | cons x l ih => rw [upsert, Inline.changeFirst, ih]
  rw [hupsert]
  rcases Inline.changeFirst_cases p (fun _ => a) a l with ⟨i, x, hx, hp, hbefore, heq⟩ | hnone
  · refine .inl ⟨i, x, hx, hp, hbefore, heq.trans ?_⟩
    rw [List.modify_eq_set_getElem?, hx]
    rfl
  · exact .inr hnone

variable [DecidableEq κ]

/-- Sets or drops. -/
def apply (key : α → κ) (l : List α) : KeyedChange α κ → List α
  | set a => upsert (fun x => key x == key a) a l
  | drop k => l.filter fun x => !(key x == k)

/-- The list holds what was set last under each key, in the order in which the keys have entered. -/
structure IsOrderedMap (key : α → κ) (cs : List (KeyedChange α κ)) (l : List α) : Prop where
  nodup : (l.map key).Nodup
  found : ∀ k a, l.find? (fun x => key x == k) = some a ↔ LastSet key cs k a
  entered : ∀ k ∈ l.map key, ∃ i, EntersAt key cs k i
  order : (l.map key).Pairwise fun k k' =>
    ∀ i j, EntersAt key cs k i → EntersAt key cs k' j → i < j

theorem find?_upsert_self (key : α → κ) (a : α) (l : List α) :
    (upsert (fun x => key x == key a) a l).find? (fun x => key x == key a) = some a := by
  induction l with
  | nil => simp [upsert]
  | cons x l ih =>
    rw [upsert]
    by_cases hx : key x = key a
    · simp [hx]
    · simpa [hx] using ih

theorem find?_upsert_of_ne (h : key a ≠ k) (l : List α) :
    (upsert (fun x => key x == key a) a l).find? (fun x => key x == k) =
      l.find? fun x => key x == k := by
  induction l with
  | nil => simp [upsert, h]
  | cons x l ih =>
    rw [upsert]
    by_cases hx : key x = key a
    · simp [hx, h]
    · simp [hx, List.find?_cons, ih]

theorem find?_drop_self (key : α → κ) (k : κ) (l : List α) :
    (l.filter fun x => !(key x == k)).find? (fun x => key x == k) = none := by
  rw [List.find?_eq_none]
  intro x hx
  simpa using (List.mem_filter.mp hx).2

theorem find?_drop_of_ne (h : k' ≠ k) (l : List α) :
    (l.filter fun x => !(key x == k')).find? (fun x => key x == k) = l.find? fun x => key x == k := by
  rw [List.find?_filter]
  congr 1
  funext x
  by_cases hx : key x = k
  · simp [hx, Ne.symm h]
  · simp [hx]

/-- A key that is there keeps its place, and another one comes last. -/
theorem map_key_upsert (key : α → κ) (a : α) (l : List α) :
    (upsert (fun x => key x == key a) a l).map key =
      if key a ∈ l.map key then l.map key else l.map key ++ [key a] := by
  rcases isPlaced_upsert (fun x => key x == key a) a l with ⟨i, x, hx, hp, -, heq⟩ | ⟨hnone, heq⟩
  · have hkey : key x = key a := eq_of_beq hp
    have hmem : key a ∈ l.map key := hkey ▸ List.mem_map_of_mem (List.mem_of_getElem? hx)
    obtain ⟨hi, rfl⟩ := List.getElem?_eq_some_iff.mp hx
    have hi' : i < (l.map key).length := by rwa [List.length_map]
    have hplace : (l.map key)[i] = key a := by rw [List.getElem_map, hkey]
    rw [heq, if_pos hmem, List.map_set, ← hplace, List.set_getElem_self]
  · have hmem : key a ∉ l.map key := by
      intro hmem
      obtain ⟨x, hx, hkey⟩ := List.mem_map.mp hmem
      have hother : (key x == key a) = false := hnone x hx
      rw [hkey, beq_self_eq_true] at hother
      cases hother
    rw [heq, if_neg hmem, List.map_append, List.map_singleton]

theorem map_key_drop (key : α → κ) (k : κ) (l : List α) :
    (l.filter fun x => !(key x == k)).map key = (l.map key).filter fun k' => !(k' == k) := by
  rw [List.filter_map]
  rfl

/-- The elements under other keys stay the same ones in the same order. -/
theorem filter_apply (key : α → κ) (c : KeyedChange α κ) (l : List α) :
    (apply key l c).filter (fun x => !(key x == c.keyOf key)) =
      l.filter fun x => !(key x == c.keyOf key) := by
  cases c with
  | set a =>
    show (upsert (fun x => key x == key a) a l).filter (fun x => !(key x == key a)) = _
    induction l with
    | nil => simp [upsert, keyOf]
    | cons x l ih =>
      rw [upsert]
      by_cases hx : key x = key a
      · simp [hx, keyOf]
      · simpa [hx, keyOf] using ih
  | drop k =>
    show (l.filter fun x => !(key x == k)).filter (fun x => !(key x == k)) = _
    rw [List.filter_filter]
    simp only [Bool.and_self, keyOf]

/-! ## 3. Any number of changes -/

namespace IsOrderedMap

theorem mem_keys_iff (h : IsOrderedMap key cs l) : k ∈ l.map key ↔ ∃ a, LastSet key cs k a := by
  simp only [← h.found]
  rw [← Option.isSome_iff_exists, List.find?_isSome, List.mem_map]
  simp only [beq_iff_eq]

/-- One more change leaves the order of the keys that are there. -/
theorem order_concat (h : IsOrderedMap key cs l) (c : KeyedChange α κ) :
    (l.map key).Pairwise fun k k' =>
      ∀ i j, EntersAt key (cs ++ [c]) k i → EntersAt key (cs ++ [c]) k' j → i < j := by
  have hold : ∀ k ∈ l.map key, ∀ i, EntersAt key (cs ++ [c]) k i → EntersAt key cs k i := by
    intro k hk i hi
    obtain ⟨b, hb⟩ := h.mem_keys_iff.mp hk
    exact hi.of_concat.resolve_right fun hlast => hlast.2 b hb
  refine h.order.imp_of_mem fun {k k'} hk hk' hlt i j hi hj => ?_
  exact hlt i j (hold k hk i hi) (hold k' hk' j hj)

theorem set (h : IsOrderedMap key cs l) (a : α) :
    IsOrderedMap key (cs ++ [.set a]) (upsert (fun x => key x == key a) a l) := by
  have hkeys := map_key_upsert key a l
  have hentered : ∀ k ∈ l.map key, ∃ i, EntersAt key (cs ++ [.set a]) k i := by
    intro k hk
    obtain ⟨i, hi⟩ := h.entered k hk
    exact ⟨i, hi.concat nofun⟩
  have hfound : ∀ k b, (upsert (fun x => key x == key a) a l).find? (fun x => key x == k) = some b ↔
      LastSet key (cs ++ [.set a]) k b := by
    intro k b
    -- this key has the new value, and any other key the one it had
    by_cases hk : key a = k
    · subst hk
      rw [find?_upsert_self, lastSet_concat_set rfl, Option.some.injEq, eq_comm]
    · have hset : (KeyedChange.set a).keyOf key ≠ k := hk
      rw [find?_upsert_of_ne hk, h.found, lastSet_concat_of_ne hset]
  by_cases hmem : key a ∈ l.map key
  · rw [if_pos hmem] at hkeys
    exact ⟨hkeys ▸ h.nodup, hfound, hkeys ▸ hentered, hkeys ▸ h.order_concat (.set a)⟩
  · -- the key is new and enters with this change, behind all others
    have habsent : ∀ b, ¬LastSet key cs (key a) b := fun b hb => hmem (h.mem_keys_iff.mpr ⟨b, hb⟩)
    rw [if_neg hmem] at hkeys
    refine ⟨?_, hfound, ?_, ?_⟩
    · rw [hkeys, List.nodup_append']
      exact ⟨h.nodup, List.nodup_singleton _, by simpa using hmem⟩
    · rw [hkeys]
      intro k hk
      rcases List.mem_append.mp hk with hk | hk
      · exact hentered k hk
      · rw [List.mem_singleton.mp hk]
        exact ⟨cs.length, entersAt_concat_set rfl habsent⟩
    · rw [hkeys, List.pairwise_append]
      refine ⟨h.order_concat _, List.pairwise_singleton _ _, fun k hk k' hk' i j hi hj => ?_⟩
      obtain rfl := List.mem_singleton.mp hk'
      obtain ⟨b, hb⟩ := h.mem_keys_iff.mp hk
      have hi := (hi.of_concat.resolve_right fun hlast => hlast.2 b hb).lt_length
      rcases hj.of_concat with hj | ⟨rfl, -⟩
      · obtain ⟨b, hb⟩ := hj.exists_lastSet
        exact absurd hb (habsent b)
      · exact hi

theorem drop (h : IsOrderedMap key cs l) (k : κ) :
    IsOrderedMap key (cs ++ [.drop k]) (l.filter fun x => !(key x == k)) := by
  have hkeys := map_key_drop key k l
  refine ⟨hkeys ▸ h.nodup.filter _, fun k' b => ?_, ?_, hkeys ▸ (h.order_concat _).filter _⟩
  · by_cases hk : k = k'
    · subst hk
      rw [find?_drop_self]
      exact iff_of_false nofun not_lastSet_concat_drop
    · have hdrop : (KeyedChange.drop k).keyOf key ≠ k' := hk
      rw [find?_drop_of_ne hk, h.found, lastSet_concat_of_ne hdrop]
  · rw [hkeys]
    intro k' hk'
    obtain ⟨hk', hne⟩ := List.mem_filter.mp hk'
    obtain ⟨i, hi⟩ := h.entered k' hk'
    refine ⟨i, hi.concat fun heq => ?_⟩
    obtain rfl := KeyedChange.drop.inj heq
    simp at hne

end IsOrderedMap

/-- However many changes are made to the empty list, it is the map that they tell of. -/
theorem isOrderedMap_foldl (key : α → κ) (cs : List (KeyedChange α κ)) :
    IsOrderedMap key cs (cs.foldl (apply key) []) := by
  induction cs using List.reverseRecOn with
  | nil =>
    refine ⟨List.nodup_nil, fun k a => iff_of_false nofun ?_, nofun, List.Pairwise.nil⟩
    rintro ⟨before, after, hcs, -⟩
    simp at hcs
  | append_singleton cs c ih =>
    rw [List.foldl_append, List.foldl_cons, List.foldl_nil]
    cases c with
    | set a => exact ih.set a
    | drop k => exact ih.drop k

end KeyedChange

namespace Workspace

open KeyedChange

/-- A change to one file, one buffer or one setting. -/
inductive Change where
  | withFile (file : SourceFile)
  | withoutFile (name : String)
  | withBuffer (buffer : Buffer)
  | withoutBuffer (id : BufferId)
  | withUsings (usings : List String)
  | withLanguage (language : Language)
  | withInstrumentation (on : Bool)

namespace Change

/-- The version that the change gives. -/
def apply (w : Workspace) : Change → Workspace
  | withFile file => w.withFile file
  | withoutFile name => w.withoutFile name
  | withBuffer buffer => w.withBuffer buffer
  | withoutBuffer id => w.withoutBuffer id
  | withUsings usings => w.withUsings usings
  | withLanguage language => w.withLanguage language
  | withInstrumentation on => w.withInstrumentation on

/-- What is done to the files, whose keys are their normal names. -/
def onFiles : Change → Option (KeyedChange SourceFile String)
  | withFile file => some (.set file)
  | withoutFile name => some (.drop (FileName.normalize name))
  | _ => none

/-- What is done to the buffers, whose keys are their ids. -/
def onBuffers : Change → Option (KeyedChange Buffer BufferId)
  | withBuffer buffer => some (.set buffer)
  | withoutBuffer id => some (.drop id)
  | _ => none

end Change

/-- The key of a file. -/
def nameKey (file : SourceFile) : String :=
  FileName.normalize file.name

/-- All that is not a file or a buffer. -/
def settings (w : Workspace) : List String × String × Language × Bool :=
  (w.usings, w.workspaceType, w.language, w.includeInstrumentation)

/-- Whether the change sets or drops the file. -/
def Change.isAboutFile (c : Change) (file : SourceFile) : Bool :=
  c.onFiles.any fun d => nameKey file == d.keyOf nameKey

/-- Whether the change sets or drops the buffer. -/
def Change.isAboutBuffer (c : Change) (buffer : Buffer) : Bool :=
  c.onBuffers.any fun d => buffer.id == d.keyOf Buffer.id

/-! ## 4. One change -/

/-- The change from `w` to `w'` sets an element in its place and touches nothing else. -/
structure Change.Spares (c : Change) (w w' : Workspace) : Prop where
  files : w'.files.filter (!c.isAboutFile ·) = w.files.filter (!c.isAboutFile ·)
  buffers : w'.buffers.filter (!c.isAboutBuffer ·) = w.buffers.filter (!c.isAboutBuffer ·)
  settings : c.onFiles.isSome ∨ c.onBuffers.isSome → w'.settings = w.settings
  file_placed : ∀ f, c = .withFile f → IsPlaced (·.isNamed f.name) f w.files w'.files
  buffer_placed : ∀ b, c = .withBuffer b → IsPlaced (·.id == b.id) b w.buffers w'.buffers

theorem files_apply (w : Workspace) (c : Change) :
    (c.apply w).files = c.onFiles.elim w.files (KeyedChange.apply nameKey w.files) := by
  cases c <;> rfl

theorem buffers_apply (w : Workspace) (c : Change) :
    (c.apply w).buffers = c.onBuffers.elim w.buffers (KeyedChange.apply Buffer.id w.buffers) := by
  cases c <;> rfl

theorem Change.spares (c : Change) (w : Workspace) : c.Spares w (c.apply w) where
  files := by
    rw [files_apply]
    unfold isAboutFile
    cases c.onFiles with
    | none => rfl
    | some d => exact filter_apply nameKey d w.files
  buffers := by
    rw [buffers_apply]
    unfold isAboutBuffer
    cases c.onBuffers with
    | none => rfl
    | some d => exact filter_apply Buffer.id d w.buffers
  settings := by
    rintro (h | h)
    · cases c with
      | withFile | withoutFile => rfl
      | _ => cases h
    · cases c with
      | withBuffer | withoutBuffer => rfl
      | _ => cases h
  file_placed := by
    rintro f rfl
    exact isPlaced_upsert _ f w.files
  buffer_placed := by
    rintro b rfl
    exact isPlaced_upsert _ b w.buffers

/-! ## 5. One version after another -/

/-- The version that the changes lead to. -/
def run (type : String) (cs : List Change) : Workspace :=
  cs.foldl Change.apply (new type)

/-- The workspace holds in order what the changes have set and not dropped, and gives the one that was
set last. -/
structure IsMapOf (cs : List Change) (w : Workspace) : Prop where
  files : IsOrderedMap nameKey (cs.filterMap Change.onFiles) w.files
  buffers : IsOrderedMap Buffer.id (cs.filterMap Change.onBuffers) w.buffers
  file? : ∀ name f, w.file? name = some f ↔
    LastSet nameKey (cs.filterMap Change.onFiles) (FileName.normalize name) f
  buffer? : ∀ id b, w.buffer? id = some b ↔
    LastSet Buffer.id (cs.filterMap Change.onBuffers) id b

/-- A list of the workspace that each change either changes by its keys or leaves has seen just the keyed
changes. -/
theorem part_run {α κ : Type} [DecidableEq κ] (key : α → κ) (part : Workspace → List α)
    (on : Change → Option (KeyedChange α κ)) (hnew : part (new type) = [])
    (happly : ∀ w c, part (c.apply w) = (on c).elim (part w) (KeyedChange.apply key (part w)))
    (cs : List Change) :
    part (run type cs) = (cs.filterMap on).foldl (KeyedChange.apply key) [] := by
  induction cs using List.reverseRecOn with
  | nil => exact hnew
  | append_singleton cs c ih =>
    rw [run, List.foldl_append, ← run, List.foldl_cons, List.foldl_nil, happly, ih,
      List.filterMap_append]
    cases hc : on c with
    | none => simp [hc]
    | some d => simp [hc]

theorem isMapOf_run (type : String) (cs : List Change) : IsMapOf cs (run type cs) := by
  have hfiles := isOrderedMap_foldl nameKey (cs.filterMap Change.onFiles)
  have hbuffers := isOrderedMap_foldl Buffer.id (cs.filterMap Change.onBuffers)
  rw [← part_run nameKey files Change.onFiles rfl files_apply] at hfiles
  rw [← part_run Buffer.id buffers Change.onBuffers rfl buffers_apply] at hbuffers
  exact ⟨hfiles, hbuffers, fun name => hfiles.found (FileName.normalize name), hbuffers.found⟩

/-! ## 6. Versions beside one another -/

/-- A version and the changes that have led to it. -/
structure Version where
  changes : List Change
  value : Workspace

/-- A further version is made of the version with the number `base`. -/
structure Edit where
  base : Nat
  change : Change

/-- Makes one more version. -/
def revise (versions : List Version) (e : Edit) : List Version :=
  match versions[e.base]? with
  | some v => versions ++ [⟨v.changes ++ [e.change], e.change.apply v.value⟩]
  | none => versions

/-- The versions that the edits leave, the empty workspace first. -/
def versions (type : String) (es : List Edit) : List Version :=
  es.foldl revise [⟨[], new type⟩]

variable {type : String} {v : Version} {es : List Edit} {i : Nat}

theorem prefix_revise (vs : List Version) (e : Edit) : vs <+: revise vs e := by
  unfold revise
  cases vs[e.base]? with
  | none => exact List.prefix_refl vs
  | some v => exact List.prefix_append vs _

theorem prefix_foldl_revise (vs : List Version) (es : List Edit) : vs <+: es.foldl revise vs := by
  induction es generalizing vs with
  | nil => exact List.prefix_refl vs
  | cons e es ih => exact (prefix_revise vs e).trans (ih _)

/-- Later edits leave an earlier version as it is. -/
theorem getElem?_versions_append (h : (versions type es)[i]? = some v) (es' : List Edit) :
    (versions type (es ++ es'))[i]? = some v := by
  rw [versions, List.foldl_append]
  obtain ⟨later, hlater⟩ := prefix_foldl_revise (versions type es) es'
  obtain ⟨hi, -⟩ := List.getElem?_eq_some_iff.mp h
  rw [← versions, ← hlater, List.getElem?_append_left hi, h]

theorem value_of_mem_versions (h : v ∈ versions type es) : v.value = run type v.changes := by
  induction es using List.reverseRecOn generalizing v with
  | nil =>
    rw [versions, List.foldl_nil, List.mem_singleton] at h
    rw [h]
    rfl
  | append_singleton es e ih =>
    rw [versions, List.foldl_append, List.foldl_cons, List.foldl_nil, ← versions, revise] at h
    cases hbase : (versions type es)[e.base]? with
    | none =>
      rw [hbase] at h
      exact ih h
    | some u =>
      rw [hbase] at h
      rcases List.mem_append.mp h with h | h
      · exact ih h
      · rw [List.mem_singleton.mp h, run, List.foldl_append, ← run,
          ← ih (List.mem_of_getElem? hbase)]
        rfl

/-- Whatever versions are made of whatever earlier ones, each is the map of the changes that have led to
it, each change touches only what it names, and a version that has been made stays as it is. -/
theorem ordered_workspace (type : String) (es : List Edit) (i : Nat) (v : Version)
    (h : (versions type es)[i]? = some v) :
    IsMapOf v.changes v.value ∧ (∀ c : Change, c.Spares v.value (c.apply v.value)) ∧
      ∀ es', (versions type (es ++ es'))[i]? = some v := by
  refine ⟨?_, fun c => c.spares v.value, getElem?_versions_append h⟩
  rw [value_of_mem_versions (List.mem_of_getElem? h)]
  exact isMapOf_run type v.changes

/-- A file set again under another spelling, dropped under a third and set once more beside another. -/
def respellings : List Edit :=
  [⟨0, .withFile ⟨"a.cs", "1"⟩⟩, ⟨1, .withFile ⟨"b.cs", "2"⟩⟩, ⟨2, .withFile ⟨"./a.cs ", "3"⟩⟩,
    ⟨3, .withoutFile " a.cs"⟩, ⟨4, .withFile ⟨"././a.cs", "4"⟩⟩, ⟨3, .withUsings ["System"]⟩]

theorem ordered_workspace_respelled : ∃ v, (versions "script" respellings)[5]? = some v ∧
    v.value.files = [⟨"b.cs", "2"⟩, ⟨"././a.cs", "4"⟩] ∧ IsMapOf v.changes v.value ∧
    (∀ c : Change, c.Spares v.value (c.apply v.value)) ∧
    ∀ es', (versions "script" (respellings ++ es'))[5]? = some v :=
  have h : (versions "script" respellings)[5]? = some
      ⟨[.withFile ⟨"a.cs", "1"⟩, .withFile ⟨"b.cs", "2"⟩, .withFile ⟨"./a.cs ", "3"⟩,
        .withoutFile " a.cs", .withFile ⟨"././a.cs", "4"⟩],
        ⟨[⟨"b.cs", "2"⟩, ⟨"././a.cs", "4"⟩], [], [], "script", .csharp, false⟩⟩ := by rfl
  ⟨_, h, rfl, ordered_workspace "script" respellings 5 _ h⟩

end Workspace

end Playground
