import Playground.Proofs.Files.Sparing
/-!
# Copies into what is there

A copy of a directory to where there is something already merges the two.  Whatever the source holds,
but for what is left out, is in its place afterwards, with its bytes, and everything else is as it was.
A file in the place of a directory, or the other way round, makes the copy fail.
-/

namespace Playground

/-- The same kind of entry, with the same bytes. -/
inductive Entry.Alike : Entry → Entry → Prop where
  | file (n m : Nat) (bytes : List UInt8) : Alike (.file n bytes) (.file m bytes)
  | directory : Alike .directory .directory

namespace FileTree

variable {t t₁ t' : FileTree} {omitted name : String} {P T p q : Place} {rel names : List String}
  {e : Entry} {bytes bytes' : List UInt8} {source target path : Path}

/-! ## 1. What a directory holds -/

/-- What a directory holds, by the names that lead to it, without what is left out at every level. -/
inductive Holds (t : FileTree) (omitted : String) : Place → List String → Entry → Prop where
  | entry {P : Place} {name : String} {e : Entry} (hkept : name ≠ omitted)
      (h : t.entryAt? (P ++ [name]) = some e) : Holds t omitted P [name] e
  | inside {P : Place} {name : String} {rel : List String} {e : Entry} (hkept : name ≠ omitted)
      (hdirectory : t.entryAt? (P ++ [name]) = some .directory)
      (h : Holds t omitted (P ++ [name]) rel e) : Holds t omitted P (name :: rel) e

namespace Holds

theorem entryAt? (h : t.Holds omitted P rel e) : t.entryAt? (P ++ rel) = some e := by
  induction h with
  | entry _ h => exact h
  | inside _ _ _ ih => rwa [List.append_assoc] at ih

theorem kept (h : t.Holds omitted P rel e) : omitted ∉ rel := by
  induction h with
  | entry hkept => exact fun hmem => hkept (List.mem_singleton.mp hmem).symm
  | inside hkept _ _ ih =>
    intro hmem
    rcases List.mem_cons.mp hmem with rfl | hmem
    · exact hkept rfl
    · exact ih hmem

theorem exists_cons (h : t.Holds omitted P rel e) : ∃ name rest, rel = name :: rest ∧
    name ≠ omitted ∧ (t.entryAt? (P ++ [name])).isSome = true := by
  cases h with
  | entry hkept h => exact ⟨_, [], rfl, hkept, by rw [h]; rfl⟩
  | inside hkept hdirectory _ => exact ⟨_, _, rfl, hkept, by rw [hdirectory]; rfl⟩

/-- What is in another tree as well, the directory holds there. -/
theorem mono (h : t.Holds omitted P rel e)
    (hsame : ∀ q e, P <+: q → t.entryAt? q = some e → t'.entryAt? q = some e) :
    t'.Holds omitted P rel e := by
  induction h with
  | entry hkept h => exact .entry hkept (hsame _ _ (List.prefix_append _ _) h)
  | inside hkept hdirectory _ ih =>
    refine .inside hkept (hsame _ _ (List.prefix_append _ _) hdirectory) (ih fun q e hq => ?_)
    exact hsame q e ((List.prefix_append _ _).trans hq)

end Holds

/-! ## 2. Entries that stay what they are -/

/-- All entries of a tree are in the other one as well, where files may have other bytes. -/
structure Retains (t t' : FileTree) : Prop where
  workDir : t'.workDir = t.workDir
  entries : ∀ q e, t.entryAt? q = some e →
    ∃ e', t'.entryAt? q = some e' ∧ (e' = e ∨ e.isFile = true ∧ e'.isFile = true)

namespace Retains

theorem refl (t : FileTree) : t.Retains t := ⟨rfl, fun _ e he => ⟨e, he, .inl rfl⟩⟩

theorem trans (h : t.Retains t₁) (h' : t₁.Retains t') : t.Retains t' where
  workDir := h'.workDir.trans h.workDir
  entries q e he := by
    obtain ⟨e₁, he₁, hkind⟩ := h.entries q e he
    obtain ⟨e', he', hkind'⟩ := h'.entries q e₁ he₁
    refine ⟨e', he', ?_⟩
    rcases hkind with rfl | ⟨hfile, hfile₁⟩
    · exact hkind'
    · rcases hkind' with rfl | ⟨-, hfile'⟩
      · exact .inr ⟨hfile, hfile₁⟩
      · exact .inr ⟨hfile, hfile'⟩

theorem keeps (h : t.Retains t') : t.Keeps t' := by
  refine ⟨h.workDir, fun p e he hfile => ?_⟩
  obtain ⟨e', he', hkind⟩ := h.entries p e he
  rcases hkind with rfl | ⟨hfile', -⟩
  · exact he'
  · cases hfile.symm.trans hfile'

end Retains

theorem Grows.retains {Q : Place → Prop} (h : Grows Q t t') : t.Retains t' :=
  ⟨h.workDir, fun q e he => ⟨e, h.old q e he, .inl rfl⟩⟩

/-- Nothing has gone from a tree but bytes of files, and it is tidy if it was. -/
structure Gains (t t' : FileTree) : Prop where
  retains : t.Retains t'
  tidy : t.IsTidy → t'.IsTidy

theorem Gains.refl (t : FileTree) : t.Gains t := ⟨.refl t, id⟩

theorem Gains.trans (h : t.Gains t₁) (h' : t₁.Gains t') : t.Gains t' :=
  ⟨h.retains.trans h'.retains, h'.tidy ∘ h.tidy⟩

/-- A directory stays where a path leads. -/
theorem Gains.seek_directory (h : t.Gains t') (hseek : t.seek true path = .found p .directory) :
    t'.seek true path = .found p .directory :=
  seek_of_becomes h.retains.keeps (hseek.symm ▸ .entry p .directory rfl)

theorem Apart.not_below (h : Apart P T) (hq : P <+: q) : ¬ T <+: q := fun ht =>
  (List.prefix_or_prefix_of_prefix hq ht).elim h.1 h.2

theorem IsTidy.isName_of_entry (h : t.IsTidy) (he : t.entryAt? q = some e) : ∀ n ∈ q, Path.IsName n := by
  intro n hn
  have hne : q ≠ [] := List.ne_nil_of_mem hn
  obtain ⟨x, hx, rfl⟩ := List.mem_map.mp ((entryAt?_isSome_iff hne).mp (by rw [he]; rfl))
  exact h.names x hx n hn

/-! ## 3. Files that are written in a directory -/

/-- From one tree to the other, a file with such bytes has come to a place, and nothing else has
changed. -/
structure Wrote (q : Place) (bytes : List UInt8) (t t' : FileTree) : Prop where
  gains : t.Gains t'
  written : ∃ n, t'.entryAt? q = some (.file n bytes)
  same : ∀ p, p ≠ q → t'.entryAt? p = t.entryAt? p

theorem Wrote.trans (h : Wrote q bytes t t₁) (h' : Wrote q bytes' t₁ t') : Wrote q bytes' t t' where
  gains := h.gains.trans h'.gains
  written := h'.written
  same p hp := (h'.same p hp).trans (h.same p hp)

/-- A file is put where there is a file, or nothing. -/
theorem wrote_put (hq : q ≠ []) (hnames : t.IsTidy → ∀ n ∈ q, Path.IsName n)
    (hfree : ∀ e, t.entryAt? q = some e → e.isFile = true) (n number : Nat) :
    Wrote q bytes t { t.put q (.file n bytes) with nextNumber := number } where
  gains := by
    refine ⟨⟨(keeps_put hfree (.file n bytes) number).workDir, fun p e he => ?_⟩,
      fun htidy => htidy.put (hnames htidy) _ _⟩
    by_cases hp : p = q
    · subst hp
      exact ⟨.file n bytes, entryAt?_put_self t _ hq, .inr ⟨hfree e he, rfl⟩⟩
    · exact ⟨e, (entryAt?_put_of_ne t _ hp).trans he, .inl rfl⟩
  written := ⟨n, entryAt?_put_self t _ hq⟩
  same _ hp := entryAt?_put_of_ne t _ hp

end FileTree

namespace FileAction

open FileTree (Leads Wrote Holds Retains Apart)

variable {t t₁ t' : FileTree} {source target : Path} {P T : Place} {name omitted : String}
  {left n depth : Nat} {bytes : List UInt8} {names : List String} {e : Entry}

/-- What is written to a path goes where it leads to a file, or to nothing. -/
theorem exists_wrote_of_write (h : (write target bytes).run t = (.ok (), t')) : ∃ q, Wrote q bytes t t' ∧
    ((∃ n old, t.seek true target = .found q (.file n old)) ∨
      ∃ dir name, t.seek true target = .vacant dir name false ∧ q = dir ++ [name]) := by
  -- over a file that is there, or in a directory where nothing of that name is
  rw [write_run] at h
  split at h
  · rename_i q n old hseek
    have hentry := FileTree.entryAt?_of_seek hseek nofun
    have hne : q ≠ [] := by
      rintro rfl
      cases hentry
    cases h
    refine ⟨q, FileTree.wrote_put hne (fun htidy => htidy.isName_of_entry hentry) (fun e he => ?_) n _,
      .inl ⟨n, old, hseek⟩⟩
    rw [← Option.some.inj (hentry.symm.trans he)]
    rfl
  · cases h
  · rename_i dir name slash hseek
    split at h
    · cases h
    · rename_i hslash
      obtain rfl : slash = false := eq_false_of_ne_true hslash
      cases h
      refine ⟨dir ++ [name], FileTree.wrote_put (by simp) (fun htidy => htidy.isName_of_seek hseek)
        (fun e he => ?_) _ _, .inr ⟨dir, name, hseek, rfl⟩⟩
      cases (FileTree.entryAt?_of_seek_vacant hseek).symm.trans he
  · cases h
  · cases h

/-- What is written to a name of a directory goes there, unless there is a link. -/
theorem wrote_of_write (hleads : t.Leads target left T) (hname : Path.IsName name)
    (hplain : ∀ goal, t.entryAt? (T ++ [name]) ≠ some (.link goal))
    (h : (write (target.join name) bytes).run t = (.ok (), t')) : Wrote (T ++ [name]) bytes t t' := by
  obtain ⟨q, hwrote, hplace⟩ := exists_wrote_of_write h
  suffices hq : q = T ++ [name] from hq ▸ hwrote
  rcases hleads.seek_name hname hplain with hseek | ⟨_, -, -, hfailed⟩
  · rw [hseek] at hplace
    cases hentry : t.entryAt? (T ++ [name]) with
    | none =>
      rw [hentry] at hplace
      rcases hplace with ⟨n, old, hfound⟩ | ⟨dir, name, hvacant, rfl⟩
      · cases hfound
      · cases hvacant
        rfl
    | some e =>
      rw [hentry] at hplace
      rcases hplace with ⟨n, old, hfound⟩ | ⟨dir, name, hvacant, -⟩
      · cases hfound
        rfl
      · cases hvacant
  · rw [hfailed] at hplace
    rcases hplace with ⟨n, old, hfound⟩ | ⟨dir, name, hvacant, -⟩
    · cases hfound
    · cases hvacant

/-- A file that is copied to a name of a directory elsewhere comes there with its bytes. -/
theorem wrote_of_copyFile {left' : Nat} (hleads : t.Leads source left P) (hleads' : t.Leads target left' T)
    (htarget : t.seek true target = .found T .directory) (hapart : Apart P T)
    (hname : Path.IsName name) (hfile : t.entryAt? (P ++ [name]) = some (.file n bytes))
    (hplain : ∀ goal, t.entryAt? (T ++ [name]) ≠ some (.link goal))
    (h : (copyFile (source.join name) (target.join name)).run t = (.ok (), t')) :
    Wrote (T ++ [name]) bytes t t' := by
  rw [copyFile_run] at h
  split at h
  · rename_i place number old hlook
    obtain ⟨rfl, hsame⟩ := hleads.eq_of_seek hname hfile nofun (FileTree.look_eq_ok_iff.mp hlook)
    cases hsame
    split at h
    · rename_i t₁ hemptied
      -- the file is there, and empty, and it is not the one that is copied
      have hwrote := wrote_of_write hleads' hname hplain hemptied
      obtain ⟨m, hempty⟩ := hwrote.written
      obtain ⟨left₁, hleads₁⟩ := FileTree.exists_leads (hwrote.gains.seek_directory htarget)
      have hother : T ++ [name] ≠ P ++ [name] := fun heq =>
        hapart.not_below (List.prefix_append P [name]) (heq ▸ List.prefix_append T [name])
      have hrewrite : (write (target.join name) bytes).run t₁ = (.ok (), t') := by
        split at h
        · rename_i copy e hfound
          obtain ⟨rfl, -⟩ := hleads₁.eq_of_seek hname hempty nofun hfound
          rwa [if_neg hother] at h
        · exact h
      exact hwrote.trans (wrote_of_write hleads₁ hname (by rw [hempty]; exact nofun) hrewrite)
    · cases h
  · cases h
  · cases h

/-- A directory that is made where there is something already is that. -/
theorem makeDirectoryAll_there (hleads : t.Leads target left T) (hname : Path.IsName name)
    (hentry : t.entryAt? (T ++ [name]) = some e) (hplain : ∀ goal, e ≠ .link goal)
    (h : (makeDirectoryAll (target.join name)).run t = (.ok (), t')) :
    t' = t ∧ t.seek true (target.join name) = .found (T ++ [name]) .directory ∧ e = .directory := by
  obtain ⟨above, habove⟩ := ancestors_join hleads.ne_empty hname
  have hlink : ∀ goal, t.entryAt? (T ++ [name]) ≠ some (.link goal) := fun goal hlink =>
    hplain goal (Option.some.inj (hentry.symm.trans hlink))
  rw [makeDirectoryAll, run_bind, habove, findBase_run, makeDirectory_run,
    FileTree.seekNew_of_withoutSlashes (Path.join_ne_empty hleads.ne_empty hname.isAbsolute)
      (withoutSlashes_join hname)] at h
  rcases hleads.seek_name hname hlink with hseek | ⟨e', hmissing, hexists, hfailed⟩
  · have hfound := hseek true
    rw [hentry] at hseek hfound
    rw [hseek, FileTree.isDirectory, FileTree.look_eq_ok_iff.mpr hfound] at h
    cases e with
    | directory =>
      cases h
      exact ⟨rfl, hfound, rfl⟩
    | _ => cases h
  · rw [hfailed] at h
    cases e' with
    | notFound => exact absurd rfl hmissing
    | alreadyExists => exact absurd rfl hexists
    | _ => cases h

/-- After a directory has been made in another one, there is a directory of that name, and nothing else
has changed. -/
theorem makeDirectoryAll_name (hleads : t.Leads target left T) (hname : Path.IsName name)
    (hplain : ∀ goal, t.entryAt? (T ++ [name]) ≠ some (.link goal))
    (h : (makeDirectoryAll (target.join name)).run t = (.ok (), t')) :
    t'.seek true (target.join name) = .found (T ++ [name]) .directory ∧
      t'.entryAt? (T ++ [name]) = some .directory ∧
      ∀ p, p ≠ T ++ [name] → t'.entryAt? p = t.entryAt? p := by
  cases hentry : t.entryAt? (T ++ [name]) with
  | none =>
    obtain ⟨rfl, hseek⟩ := makeDirectoryAll_child hleads hname hentry h
    exact ⟨hseek, FileTree.entryAt?_put_self t _ (by simp), fun p hp =>
      FileTree.entryAt?_put_of_ne t _ hp⟩
  | some e =>
    obtain ⟨rfl, hseek, rfl⟩ := makeDirectoryAll_there hleads hname hentry
      (fun goal heq => hplain goal (heq ▸ hentry)) h
    exact ⟨hseek, hentry, fun _ _ => rfl⟩

end FileAction

namespace FileTree

variable {t t₁ t' : FileTree} {omitted name : String} {P T q : Place} {names : List String}
  {source target : Path} {bytes : List UInt8} {n : Nat}

/-! ## 4. Merging -/

/-- Some names of one directory can be copied to another one: nothing of it is a link, and no link is in
its place. -/
structure CanMerge (t : FileTree) (omitted : String) (source target : Path) (P T : Place)
    (names : List String) : Prop where
  tidy : t.IsTidy
  source : t.seek true source = .found P .directory
  target : t.seek true target = .found T .directory
  apart : Apart P T
  proper : ∀ name ∈ names, Path.IsName name
  nodup : names.Nodup
  plain : ∀ name ∈ names, ∀ rel e, t.Holds omitted P (name :: rel) e →
    e.isLink = false ∧ ∀ goal, t.entryAt? (T ++ name :: rel) ≠ some (.link goal)

/-- Some names of one directory have been copied to another one: all of it is there, and there is no
other change. -/
structure Merged (omitted : String) (P T : Place) (names : List String) (t t' : FileTree) : Prop where
  gains : t.Gains t'
  copied : ∀ name ∈ names, ∀ rel e, t.Holds omitted P (name :: rel) e →
    ∃ e', t'.entryAt? (T ++ name :: rel) = some e' ∧ e.Alike e'
  same : ∀ q, (∀ name ∈ names, ∀ rel e, t.Holds omitted P (name :: rel) e → q ≠ T ++ name :: rel) →
    t'.entryAt? q = t.entryAt? q

theorem Merged.spares (h : Merged omitted P T names t t') (hapart : Apart P T) (hq : P <+: q) :
    t'.entryAt? q = t.entryAt? q := by
  refine h.same q fun name _ rel e _ heq => ?_
  exact hapart.not_below hq (heq ▸ List.prefix_append T (name :: rel))

theorem Merged.holds_iff (h : Merged omitted P T names t t') (hapart : Apart P T) {rel : List String}
    {e : Entry} : t'.Holds omitted P rel e ↔ t.Holds omitted P rel e :=
  ⟨fun hheld => hheld.mono fun _ _ hq he => (h.spares hapart hq).symm.trans he,
    fun hheld => hheld.mono fun _ _ hq he => (h.spares hapart hq).trans he⟩

theorem CanMerge.first (h : CanMerge t omitted source target P T (name :: names)) :
    CanMerge t omitted source target P T [name] where
  tidy := h.tidy
  source := h.source
  target := h.target
  apart := h.apart
  proper n hn := h.proper n (List.mem_singleton.mp hn ▸ List.mem_cons_self)
  nodup := List.nodup_singleton name
  plain n hn := h.plain n (List.mem_singleton.mp hn ▸ List.mem_cons_self)

/-- What is in the place of other names stays as it is. -/
theorem Merged.aside (h : Merged omitted P T names t t') {rel : List String} (hname : name ∉ names) :
    t'.entryAt? (T ++ name :: rel) = t.entryAt? (T ++ name :: rel) := by
  refine h.same _ fun n hn rel' e _ heq => hname ?_
  rwa [(List.cons.inj (List.append_cancel_left heq)).1]

theorem CanMerge.next (h : CanMerge t omitted source target P T (name :: names))
    (hmerged : Merged omitted P T [name] t t₁) : CanMerge t₁ omitted source target P T names where
  tidy := hmerged.gains.tidy h.tidy
  source := hmerged.gains.seek_directory h.source
  target := hmerged.gains.seek_directory h.target
  apart := h.apart
  proper n hn := h.proper n (List.mem_cons_of_mem name hn)
  nodup := (List.nodup_cons.mp h.nodup).2
  plain n hn rel e hheld := by
    have hne : n ∉ [name] := fun hmem =>
      (List.nodup_cons.mp h.nodup).1 (List.mem_singleton.mp hmem ▸ hn)
    rw [hmerged.aside hne]
    exact h.plain n (List.mem_cons_of_mem name hn) rel e ((hmerged.holds_iff h.apart).mp hheld)

theorem Merged.nil (t : FileTree) : Merged omitted P T [] t t where
  gains := .refl t
  copied _ hname := by cases hname
  same _ _ := rfl

theorem Merged.cons (h : Merged omitted P T [name] t t₁) (hrest : Merged omitted P T names t₁ t')
    (hapart : Apart P T) (hname : name ∉ names) : Merged omitted P T (name :: names) t t' where
  gains := h.gains.trans hrest.gains
  copied n hn rel e hheld := by
    rcases List.mem_cons.mp hn with rfl | hn
    · rw [hrest.aside hname]
      exact h.copied n (List.mem_singleton_self n) rel e hheld
    · exact hrest.copied n hn rel e ((h.holds_iff hapart).mpr hheld)
  same q hq := by
    refine (hrest.same q fun n hn rel e hheld => ?_).trans (h.same q fun n hn => ?_)
    · exact hq n (List.mem_cons_of_mem name hn) rel e ((h.holds_iff hapart).mp hheld)
    · exact hq n (List.mem_singleton.mp hn ▸ List.mem_cons_self)

/-- What is left out, or is not there, is merged by doing nothing. -/
theorem Merged.of_none (h : ∀ rel e, ¬ t.Holds omitted P (name :: rel) e) :
    Merged omitted P T [name] t t where
  gains := .refl t
  copied _ hn rel e hheld := absurd (List.mem_singleton.mp hn ▸ hheld) (h rel e)
  same _ _ := rfl

theorem Merged.of_wrote (hkept : name ≠ omitted)
    (hfile : t.entryAt? (P ++ [name]) = some (.file n bytes)) (h : Wrote (T ++ [name]) bytes t t') :
    Merged omitted P T [name] t t' where
  gains := h.gains
  copied m hm rel e hheld := by
    obtain rfl := List.mem_singleton.mp hm
    cases hheld with
    | entry _ he =>
      obtain ⟨copy, hcopy⟩ := h.written
      obtain rfl := Option.some.inj (hfile.symm.trans he)
      exact ⟨_, hcopy, .file n copy bytes⟩
    | inside _ hdirectory => cases hfile.symm.trans hdirectory
  same q hq := h.same q (hq name (List.mem_singleton_self name) [] _ (.entry hkept hfile))

/-- A directory is made, if there is none, and then what the other one lists is copied to it. -/
theorem Merged.of_inside (hkept : name ≠ omitted) (hdirectory : t.entryAt? (P ++ [name]) = some .directory)
    (hgains : t.Gains t₁) (hthere : t₁.entryAt? (T ++ [name]) = some .directory)
    (hsame : ∀ p, p ≠ T ++ [name] → t₁.entryAt? p = t.entryAt? p)
    (hholds : ∀ rel e, t₁.Holds omitted (P ++ [name]) rel e ↔ t.Holds omitted (P ++ [name]) rel e)
    (h : Merged omitted (P ++ [name]) (T ++ [name]) (t₁.listing (P ++ [name])) t₁ t') :
    Merged omitted P T [name] t t' where
  gains := hgains.trans h.gains
  copied m hm rel e hheld := by
    obtain rfl := List.mem_singleton.mp hm
    cases hheld with
    | entry _ he =>
      obtain rfl := Option.some.inj (hdirectory.symm.trans he)
      exact ⟨_, h.gains.retains.keeps.entries _ _ hthere rfl, .directory⟩
    | inside _ _ hheld =>
      have hheld := (hholds rel e).mpr hheld
      obtain ⟨n, rest, rfl, -, hsome⟩ := hheld.exists_cons
      have hcopied := h.copied n ((t₁.mem_listing_iff _ n).mpr hsome) rest e hheld
      rwa [List.append_assoc] at hcopied
  same q hq := by
    have hmem : name ∈ [name] := List.mem_singleton_self name
    have hne : q ≠ T ++ [name] := hq name hmem [] _ (.entry hkept hdirectory)
    refine (h.same q fun n _ rel e hheld heq => ?_).trans (hsame q hne)
    rw [List.append_assoc] at heq
    exact hq name hmem (n :: rel) e (.inside hkept hdirectory ((hholds _ e).mp hheld)) heq

end FileTree

namespace FileAction

open FileTree (CanMerge Merged Holds Apart)

variable {t t' : FileTree} {source target : Path} {P T : Place} {name omitted : String} {n depth : Nat}
  {bytes : List UInt8} {names : List String}

theorem merged_file (hc : CanMerge t omitted source target P T [name]) (hkept : name ≠ omitted)
    (hfile : t.entryAt? (P ++ [name]) = some (.file n bytes))
    (h : (copyFile (source.join name) (target.join name)).run t = (.ok (), t')) :
    Merged omitted P T [name] t t' := by
  have hmem : name ∈ [name] := List.mem_singleton_self name
  obtain ⟨left, hleads⟩ := FileTree.exists_leads hc.source
  obtain ⟨left', hleads'⟩ := FileTree.exists_leads hc.target
  exact .of_wrote hkept hfile (wrote_of_copyFile hleads hleads' hc.target hc.apart
    (hc.proper name hmem) hfile (hc.plain name hmem [] _ (.entry hkept hfile)).2 h)

/-- A directory that is merged with the one of the same name, if there is one. -/
def MergesBelow (omitted : String) (depth : Nat) : Prop :=
  ∀ {t t' : FileTree} {source target : Path} {P T : Place} {name : String},
    CanMerge t omitted source target P T [name] → name ≠ omitted →
    t.entryAt? (P ++ [name]) = some .directory →
    (copyDirectory omitted depth (source.join name) (target.join name)).run t = (.ok (), t') →
    Merged omitted P T [name] t t'

theorem merged_entry (hbelow : MergesBelow omitted depth)
    (hc : CanMerge t omitted source target P T [name])
    (h : (copyEntry omitted depth source target P name).run t = (.ok (), t')) :
    Merged omitted P T [name] t t' := by
  rw [copyEntry_run] at h
  split at h
  · rename_i homitted
    cases h
    exact .of_none fun rel e hheld => hheld.kept (homitted ▸ List.mem_cons_self)
  · rename_i hkept
    cases hentry : t.entryAt? (P ++ [name]) with
    | none =>
      rw [hentry] at h
      cases h
      refine .of_none fun rel e hheld => ?_
      obtain ⟨_, _, heq, -, hsome⟩ := hheld.exists_cons
      rw [← (List.cons.inj heq).1, hentry] at hsome
      cases hsome
    | some e =>
      rw [hentry] at h
      cases e with
      | directory => exact hbelow hc hkept hentry h
      | file n bytes => exact merged_file hc hkept hentry h
      | link goal =>
        cases (hc.plain name (List.mem_singleton_self name) [] _ (.entry hkept hentry)).1

theorem merged_names (hbelow : MergesBelow omitted depth)
    (hc : CanMerge t omitted source target P T names)
    (h : (names.forM (copyEntry omitted depth source target P)).run t = (.ok (), t')) :
    Merged omitted P T names t t' := by
  induction names generalizing t with
  | nil =>
    cases h
    exact .nil _
  | cons name names ih =>
    rw [forM_run] at h
    split at h
    · rename_i t₁ hfirst
      have hmerged := merged_entry hbelow hc.first hfirst
      exact hmerged.cons (ih (hc.next hmerged) h) hc.apart (List.nodup_cons.mp hc.nodup).1
    · cases h

theorem mergesBelow (omitted : String) (depth : Nat) : MergesBelow omitted depth := by
  induction depth with
  | zero =>
    intro t t' source target P T name _ _ _ h
    cases h
  | succ depth ih =>
    intro t t' source target P T name hc hkept hdirectory h
    have hmem : name ∈ [name] := List.mem_singleton_self name
    have hname := hc.proper name hmem
    have hheld : t.Holds omitted P [name] .directory := .entry hkept hdirectory
    rw [copyDirectory_run] at h
    split at h
    · rename_i t₁ hmade
      obtain ⟨left, hleads⟩ := FileTree.exists_leads hc.target
      obtain ⟨htarget, hthere, hsame⟩ :=
        makeDirectoryAll_name hleads hname (hc.plain name hmem [] _ hheld).2 hmade
      have hgrown := made_of_makeDirectoryAll hmade
      -- what the source holds is the same
      have hsource : ∀ q, P ++ [name] <+: q → t₁.entryAt? q = t.entryAt? q := by
        refine fun q hq => hsame q fun heq => ?_
        exact hc.apart.not_below ((List.prefix_append P [name]).trans hq)
          (heq ▸ List.prefix_append T [name])
      have hholds : ∀ {rel e}, t₁.Holds omitted (P ++ [name]) rel e ↔
          t.Holds omitted (P ++ [name]) rel e := fun {rel e} =>
        ⟨fun hheld => hheld.mono fun q _ hq he => (hsource q hq).symm.trans he,
          fun hheld => hheld.mono fun q _ hq he => (hsource q hq).trans he⟩
      split at h
      · rename_i place hlook
        obtain ⟨left', hleads'⟩ := FileTree.exists_leads (hgrown.grows.seek hc.source)
        have hlook := FileTree.look_eq_ok_iff.mp hlook
        obtain ⟨rfl, -⟩ := hleads'.eq_of_seek hname (hgrown.grows.old _ _ hdirectory) nofun hlook
        have hmerged : Merged omitted (P ++ [name]) (T ++ [name]) (t₁.listing (P ++ [name])) t₁ t' := by
          refine merged_names ih ⟨hgrown.tidy hc.tidy, hlook, htarget, hc.apart.below [name] [name],
            fun m hm => (hgrown.tidy hc.tidy).isName_of_mem_listing hm,
            (hgrown.tidy hc.tidy).nodup_listing _, fun m _ rel e hheld => ?_⟩ h
          have hplain := hc.plain name hmem (m :: rel) e (.inside hkept hdirectory (hholds.mp hheld))
          refine ⟨hplain.1, fun goal => ?_⟩
          rw [hsame _ (by simp), List.append_assoc]
          exact hplain.2 goal
        exact .of_inside hkept hdirectory ⟨hgrown.grows.retains, hgrown.tidy⟩ hthere hsame (fun _ _ => hholds) hmerged
      · cases h
      · cases h
    · cases h

end FileAction

namespace FileTree

variable {t t₁ t' : FileTree} {path : Path}

/-! ## 5. The way to a destination -/

/-- Directories have been made, with names that stand in the path. -/
structure Paved (path : Path) (t t' : FileTree) : Prop where
  grows : Grows (fun q => ∃ name ∈ path.segments, q.getLast? = some name) t t'
  tidy : t.IsTidy → t'.IsTidy
  directories : ∀ q e, t.entryAt? q = none → t'.entryAt? q = some e → e = .directory

namespace Paved

theorem refl (path : Path) (t : FileTree) : Paved path t t where
  grows := .refl _ t
  tidy := id
  directories _ _ hnone he := by cases hnone.symm.trans he

theorem trans (h : Paved path t t₁) (h' : Paved path t₁ t') : Paved path t t' where
  grows := h.grows.trans h'.grows
  tidy := h'.tidy ∘ h.tidy
  directories q e hnone he := by
    cases hmiddle : t₁.entryAt? q with
    | none => exact h'.directories q e hmiddle he
    | some e₁ =>
      obtain rfl := Option.some.inj ((h'.grows.old q e₁ hmiddle).symm.trans he)
      exact h.directories q e₁ hnone hmiddle

theorem origin (h : Paved path t t') (other : Path) : t'.origin other = t.origin other := by
  rw [FileTree.origin, FileTree.origin, h.grows.workDir]

/-- No link has come up. -/
theorem isClear (h : Paved path t t') {other : Path} (hclear : t.IsClear other) : t'.IsClear other := by
  intro q goal hq hlink
  have hq : t.Passes other q := by
    rw [Passes, h.origin] at hq
    exact hq
  cases hentry : t.entryAt? q with
  | none => cases h.directories q _ hentry hlink
  | some e =>
    obtain rfl := Option.some.inj ((h.grows.old q e hentry).symm.trans hlink)
    exact hclear q goal hq hentry

end Paved

end FileTree

namespace FileAction

open FileTree (Paved)

variable {t t' : FileTree} {path : Path}

theorem paved_of_makeDirectory (h : (makeDirectory path).run t = (.ok (), t')) : Paved path t t' := by
  have hmade := makeDirectory_ok h
  rw [makeDirectory_run] at h
  split at h
  · cases h
  · rename_i dir name slash hseek
    cases h
    have hput : ∀ q e, t.entryAt? q = none →
        (t.put (dir ++ [name]) .directory).entryAt? q = some e → q = dir ++ [name] ∧ e = .directory := by
      intro q e hnone he
      by_cases hq : q = dir ++ [name]
      · subst hq
        rw [FileTree.entryAt?_put_self t _ (by simp)] at he
        exact ⟨rfl, (Option.some.inj he).symm⟩
      · rw [FileTree.entryAt?_put_of_ne t _ hq, hnone] at he
        cases he
    refine ⟨⟨hmade.grows.workDir, hmade.grows.old, fun q e hnone he => ?_⟩, hmade.tidy,
      fun q e hnone he => (hput q e hnone he).2⟩
    rw [(hput q e hnone he).1]
    exact ⟨name, FileTree.mem_segments_of_seekNew hseek, List.getLast?_concat⟩
  · cases h
  · cases h

/-- On the way to a directory there are new directories only, with names that stand in its path. -/
theorem paved_makeDirectoryAll (path : Path) (t : FileTree) :
    Paved path t ((makeDirectoryAll path).run t).2 := by
  refine makeDirectoryAll_preserves (P := Paved path t) (fun a ha t₁ t' h hmade => ?_) (.refl path t)
  have hpaved := paved_of_makeDirectory hmade
  refine h.trans ⟨hpaved.grows.mono fun q hq => ?_, hpaved.tidy, hpaved.directories⟩
  obtain ⟨name, hname, hlast⟩ := hq
  exact ⟨name, (segments_of_mem_ancestors ha).1.subset hname, hlast⟩

end FileAction

namespace FileTree

variable {t t₁ t' : FileTree} {omitted : String} {P T : Place} {source target : Path}

/-! ## 6. Whole copies -/

/-- The tree after a directory has been made, as far as that goes. -/
def withDirectory (t : FileTree) (path : Path) : FileTree :=
  ((FileAction.makeDirectoryAll path).run t).2

/-- Nothing that one directory holds is a link, and no link is in its place in another one. -/
def IsPlain (t : FileTree) (omitted : String) (P T : Place) : Prop :=
  ∀ rel e, t.Holds omitted P rel e →
    e.isLink = false ∧ ∀ goal, t.entryAt? (T ++ rel) ≠ some (.link goal)

/-- Where there was no link, there is none when directories have been made. -/
theorem Paved.isPlain (h : Paved target t t₁) (hlinkless : t.IsLinkless) (omitted : String) (P T : Place) :
    t₁.IsPlain omitted P T := by
  have hentries : ∀ {q e}, t₁.entryAt? q = some e → e.isLink = false := by
    intro q e he
    cases hold : t.entryAt? q with
    | none =>
      rw [h.directories q e hold he]
      rfl
    | some old =>
      obtain rfl := Option.some.inj ((h.grows.old q old hold).symm.trans he)
      exact hlinkless.entryAt? hold
  intro rel e hheld
  refine ⟨hentries hheld.entryAt?, fun goal hlink => ?_⟩
  cases hentries hlink

/-- The directory at `P` has been copied as a whole to the one at `T`, to which `target` leads. -/
structure IsWholeCopy (omitted : String) (target : Path) (P T : Place) (t t' : FileTree) : Prop where
  /-- The destination is a directory. -/
  there : t'.look true target = .ok (T, .directory)
  /-- Nothing has gone, in the source or elsewhere, and only files may have other bytes. -/
  retains : t.Retains t'
  /-- What the source held it holds as it was. -/
  source : ∀ rel e, t.Holds omitted P rel e → t'.Holds omitted P rel e
  /-- All that the source holds is in its place, of the same kind and with the same bytes. -/
  copied : ∀ rel e, t'.Holds omitted P rel e → ∃ e', t'.entryAt? (T ++ rel) = some e' ∧ e.Alike e'
  /-- Everything else that there was is as it was. -/
  kept : ∀ q e, t.entryAt? q = some e → (∀ rel e', t'.Holds omitted P rel e' → q ≠ T ++ rel) →
    t'.entryAt? q = some e
  /-- Nothing else is new but directories on the way to the destination as it is written. -/
  made : ∀ q e, t.entryAt? q = none → t'.entryAt? q = some e →
    (∃ rel e', t'.Holds omitted P rel e' ∧ q = T ++ rel) ∨
      e = .directory ∧ ∃ name ∈ target.segments, q.getLast? = some name
  /-- There is nothing new by the name that is left out, unless the destination as it is written has that
  name in it. -/
  leftOut : omitted ∉ target.segments → ∀ q, q.getLast? = some omitted → t'.entryAt? q = t.entryAt? q

/-- What has been merged into a directory that was made before is a whole copy. -/
theorem Merged.isWholeCopy (hpaved : Paved target t t₁) (hT : t₁.seek true target = .found T .directory)
    (hapart : Apart P T) (h : Merged omitted P T (t₁.listing P) t₁ t') :
    IsWholeCopy omitted target P T t t' := by
  have hholds : ∀ {rel e}, t₁.Holds omitted P rel e ↔ t'.Holds omitted P rel e := (h.holds_iff hapart).symm
  have hlisted : ∀ {name rel e}, t₁.Holds omitted P (name :: rel) e → name ∈ t₁.listing P := by
    intro name rel e hheld
    obtain ⟨_, _, heq, -, hsome⟩ := hheld.exists_cons
    rw [← (List.cons.inj heq).1] at hsome
    exact (t₁.mem_listing_iff P name).mpr hsome
  have hsame : ∀ q, (∀ rel e, t'.Holds omitted P rel e → q ≠ T ++ rel) →
      t'.entryAt? q = t₁.entryAt? q := fun q hq =>
    h.same q fun name _ rel e hheld => hq (name :: rel) e (hholds.mp hheld)
  have hretains := hpaved.grows.retains.trans h.gains.retains
  refine ⟨look_eq_ok_iff.mpr (h.gains.seek_directory hT), hretains, fun rel e hheld => ?_,
    fun rel e hheld => ?_, fun q e he hq => ?_, fun q e hnone he => ?_, fun hwritten q hq => ?_⟩
  · exact hholds.mp (hheld.mono fun q e _ he => hpaved.grows.old q e he)
  · have hheld := hholds.mpr hheld
    obtain ⟨name, rest, rfl, -, -⟩ := hheld.exists_cons
    exact h.copied name (hlisted hheld) rest e hheld
  · exact (hsame q hq).trans (hpaved.grows.old q e he)
  · by_cases hq : ∀ rel e, t'.Holds omitted P rel e → q ≠ T ++ rel
    · rw [hsame q hq] at he
      exact .inr ⟨hpaved.directories q e hnone he, hpaved.grows.new q e hnone he⟩
    · push Not at hq
      exact .inl hq
  · refine (hsame q fun rel e hheld heq => ?_).trans ?_
    · -- the name that is left out leads to nothing that the source holds
      obtain ⟨name, rest, rfl, -, -⟩ := hheld.exists_cons
      rw [heq, List.getLast?_append_of_ne_nil _ (List.cons_ne_nil name rest)] at hq
      exact hheld.kept (List.mem_of_getLast? hq)
    · cases hentry : t.entryAt? q with
      | some e => exact hpaved.grows.old q e hentry
      | none =>
        refine Option.eq_none_iff_forall_ne_some.mpr fun e he => hwritten ?_
        obtain ⟨name, hname, hlast⟩ := hpaved.grows.new q e hentry he
        obtain rfl := Option.some.inj (hlast.symm.trans hq)
        exact hname

/-- What a copy that has gone well has done: it has made the destination, and then it has merged what the
source lists. -/
theorem merge_of_copyOutside (h : (FileAction.copyOutside omitted source target).run t = (.ok (), t')) :
    ∃ P t₁, (FileAction.makeDirectoryAll target).run t = (.ok (), t₁) ∧
      t.look true source = .ok (P, .directory) ∧ target ≠ "" ∧
      ((t₁.listing P).forM (FileAction.copyEntry omitted 2047 source target P)).run t₁ = (.ok (), t') := by
  have hcopy : (FileAction.copyDirectory omitted (2047 + 1) source target).run t = (.ok (), t') :=
    FileAction.copyOutside_ok h
  rw [FileAction.copyDirectory_run] at hcopy
  rw [FileAction.copyOutside_run] at h
  split at h
  · rename_i destination hresolved
    have htarget : target ≠ "" := by
      rintro rfl
      cases hresolved
    split at h
    · rename_i place e hlook
      split at hcopy
      · rename_i t₁ hmade
        -- the source is where it was before
        have hseek := (FileAction.made_of_makeDirectoryAll hmade).grows.seek (look_eq_ok_iff.mp hlook)
        rw [look_eq_ok_iff.mpr hseek] at hcopy
        cases e with
        | directory => exact ⟨place, t₁, hmade, hlook, htarget, hcopy⟩
        | _ => cases hcopy
      · cases hcopy
    · cases h
  · cases h

/-- From one tree to the other, the directory that `source` leads to has been copied as a whole to where
`target` leads to, if that is apart from the directory, nothing that is copied is a link and no link is
in its place. -/
def HasWholeCopy (omitted : String) (source target : Path) (t t' : FileTree) : Prop :=
  ∃ P, t.look true source = .ok (P, .directory) ∧ (Apart P (t.folded target) →
    ∃ T, (t.withDirectory target).look true target = .ok (T, .directory) ∧
      (t.IsClear target → T = t.folded target) ∧
      (Apart P T → (t.withDirectory target).IsPlain omitted P T → IsWholeCopy omitted target P T t t'))

/-- A copy that goes well leaves a whole copy. -/
theorem hasWholeCopy_of_copyOutside (htidy : t.IsTidy)
    (h : (FileAction.copyOutside omitted source target).run t = (.ok (), t')) :
    HasWholeCopy omitted source target t t' := by
  obtain ⟨P, t₁, hmade, hsource, htarget, hcopy⟩ := merge_of_copyOutside h
  have hpaved : Paved target t t₁ := by
    have hpaved := FileAction.paved_makeDirectoryAll target t
    rwa [hmade] at hpaved
  have hwith : t.withDirectory target = t₁ := by rw [withDirectory, hmade]
  refine ⟨P, hsource, fun hfolded => ?_⟩
  obtain ⟨above, habove⟩ : ∃ above, FileAction.ancestors target = target :: above := by
    rcases FileAction.ancestors_cases target with habove | hempty | ⟨habs, hblank⟩
    · exact habove
    · exact absurd hempty htarget
    · have hroot : t.folded target = [] := by rw [folded, fold_blank _ hblank, origin, if_pos habs]
      exact absurd (hroot ▸ List.nil_prefix) hfolded.2
  obtain ⟨T, hT⟩ := FileAction.exists_seek_of_makeDirectoryAll habove hmade
  rw [hwith]
  refine ⟨T, look_eq_ok_iff.mpr hT, fun hclear => ?_, fun hapart hplain => ?_⟩
  · rw [(hpaved.isClear hclear).eq_folded_of_seek hT, folded, folded, hpaved.origin]
  have htidy₁ := hpaved.tidy htidy
  have hmerged : Merged omitted P T (t₁.listing P) t₁ t' := by
    refine FileAction.merged_names (FileAction.mergesBelow omitted 2047) ⟨htidy₁,
      hpaved.grows.seek (look_eq_ok_iff.mp hsource), hT, hapart,
      fun _ hname => htidy₁.isName_of_mem_listing hname, htidy₁.nodup_listing P,
      fun name _ rel e hheld => hplain (name :: rel) e hheld⟩ hcopy
  exact hmerged.isWholeCopy hpaved hT hapart

/-- Where there are no links, the copy is where the destination folds to. -/
theorem HasWholeCopy.of_isLinkless (h : HasWholeCopy omitted source target t t') (hlinkless : t.IsLinkless)
    (hsource : t.look true source = .ok (P, .directory)) (hapart : Apart P (t.folded target)) :
    IsWholeCopy omitted target P (t.folded target) t t' := by
  obtain ⟨P', hsource', h⟩ := h
  cases hsource.symm.trans hsource'
  obtain ⟨T, -, hfolded, h⟩ := h hapart
  obtain rfl := hfolded (hlinkless.isClear target)
  exact h hapart ((FileAction.paved_makeDirectoryAll target t).isPlain hlinkless omitted P _)

end FileTree

/-! ## 7. Clashes -/

namespace FileTree

variable {t t₁ t' : FileTree} {omitted : String} {P T : Place} {source target path : Path}

/-- A directory holds what it held, if not with the same bytes. -/
theorem Holds.of_retains {rel : List String} {e : Entry} (h : t.Holds omitted P rel e)
    (hretains : t.Retains t') : ∃ e', t'.Holds omitted P rel e' ∧
      (e' = e ∨ e.isFile = true ∧ e'.isFile = true) := by
  induction h with
  | entry hkept h =>
    obtain ⟨e', he', hkind⟩ := hretains.entries _ _ h
    exact ⟨e', .entry hkept he', hkind⟩
  | inside hkept hdirectory _ ih =>
    obtain ⟨e', he', hkind⟩ := ih
    exact ⟨e', .inside hkept (hretains.keeps.entries _ _ hdirectory rfl) he', hkind⟩

/-- Two directories hold a file and a directory by the same names. -/
structure Clash (t : FileTree) (omitted : String) (P T : Place) (rel : List String) (e e' : Entry) :
    Prop where
  here : t.Holds omitted P rel e
  there : t.Holds omitted T rel e'
  plain : e.isLink = false ∧ e'.isLink = false
  kinds : e.isFile ≠ e'.isFile

theorem Clash.of_retains {rel : List String} {e e' : Entry} (h : t.Clash omitted P T rel e e')
    (hretains : t.Retains t') : ∃ e e', t'.Clash omitted P T rel e e' := by
  obtain ⟨e₁, hhere, hkind⟩ := h.here.of_retains hretains
  obtain ⟨e₁', hthere, hkind'⟩ := h.there.of_retains hretains
  have hsame : ∀ {e e₁ : Entry}, e.isLink = false → (e₁ = e ∨ e.isFile = true ∧ e₁.isFile = true) →
      e₁.isLink = false ∧ e₁.isFile = e.isFile := by
    rintro e e₁ hplain (rfl | ⟨hfile, hfile₁⟩)
    · exact ⟨hplain, rfl⟩
    · refine ⟨?_, hfile₁.trans hfile.symm⟩
      cases e₁ <;> first | rfl | cases hfile₁
  have hleft := hsame h.plain.1 hkind
  have hright := hsame h.plain.2 hkind'
  refine ⟨e₁, e₁', hhere, hthere, ⟨hleft.1, hright.1⟩, ?_⟩
  rw [hleft.2, hright.2]
  exact h.kinds

end FileTree

namespace FileAction

open FileTree (Gains Clash Retains)

variable {t t' : FileTree} {source target path : Path} {P T : Place} {name omitted : String}
  {left left' depth : Nat} {bytes : List UInt8} {names rel : List String} {e e' : Entry}

theorem write_gains (path : Path) (bytes : List UInt8) (t : FileTree) :
    t.Gains ((write path bytes).run t).2 := by
  cases hrun : (write path bytes).run t with
  | mk result t' =>
    cases result with
    | error e =>
      rw [write_error hrun]
      exact .refl t
    | ok u =>
      obtain ⟨q, hwrote, -⟩ := exists_wrote_of_write hrun
      exact hwrote.gains

theorem copyFile_gains (source target : Path) (t : FileTree) :
    t.Gains ((copyFile source target).run t).2 := by
  rw [copyFile_run]
  split
  · have hemptied := write_gains target [] t
    split
    · rename_i t₁ hwrite
      rw [hwrite] at hemptied
      split
      · split
        · exact hemptied
        · exact hemptied.trans (write_gains ..)
      · exact hemptied.trans (write_gains ..)
    · rename_i e t₁ hwrite
      rwa [hwrite] at hemptied
  · exact .refl t
  · exact .refl t

theorem makeDirectoryAll_gains (path : Path) (t : FileTree) :
    t.Gains ((makeDirectoryAll path).run t).2 :=
  ⟨(paved_makeDirectoryAll path t).grows.retains, (paved_makeDirectoryAll path t).tidy⟩

theorem copyEntry_gains (hbelow : ∀ source target t, FileTree.Gains t
      ((copyDirectory omitted depth source target).run t).2) (source target : Path) (P : Place)
    (name : String) (t : FileTree) :
    t.Gains ((copyEntry omitted depth source target P name).run t).2 := by
  rw [copyEntry_run]
  split
  · exact .refl t
  · cases t.entryAt? (P ++ [name]) with
    | none => exact .refl t
    | some e =>
      cases e with
      | directory => exact hbelow _ _ t
      | _ => exact copyFile_gains _ _ t

/-- A copy takes nothing away but bytes of files, whether it goes well or not. -/
theorem copyDirectory_gains (omitted : String) (depth : Nat) (source target : Path) (t : FileTree) :
    t.Gains ((copyDirectory omitted depth source target).run t).2 := by
  induction depth generalizing source target t with
  | zero => exact .refl t
  | succ depth ih =>
    have hmade := makeDirectoryAll_gains target t
    rw [copyDirectory_run]
    split
    · rename_i t₁ hrun
      rw [hrun] at hmade
      split
      · exact forM_preserves (P := t.Gains)
          (fun name _ t₂ h => h.trans (copyEntry_gains ih source target _ name t₂)) hmade
      · exact hmade
      · exact hmade
    · rename_i e t₁ hrun
      rwa [hrun] at hmade

/-- When all actions of a list have gone well, each of them has in its turn. -/
theorem exists_run_of_forM {Q : FileTree → Prop} {f : String → FileAction Unit}
    (hf : ∀ name t, Q t → Q ((f name).run t).2) (h : Q t) (hmem : name ∈ names)
    (hrun : (names.forM f).run t = (.ok (), t')) :
    ∃ t₁ t₂, Q t₁ ∧ (f name).run t₁ = (.ok (), t₂) := by
  induction names generalizing t with
  | nil => cases hmem
  | cons n names ih =>
    have hfirst := hf n t h
    rw [forM_run] at hrun
    split at hrun
    · rename_i u t₁ hn
      rcases List.mem_cons.mp hmem with rfl | hmem
      · exact ⟨t, t₁, h, hn⟩
      · rw [hn] at hfirst
        exact ih hfirst hmem hrun
    · cases hrun

/-- No file is copied over a directory. -/
theorem copyFile_of_directory (hleads : t.Leads target left T) (hname : Path.IsName name)
    (hentry : t.entryAt? (T ++ [name]) = some .directory) :
    (copyFile source (target.join name)).run t ≠ (.ok (), t') := by
  intro h
  rw [copyFile_run] at h
  split at h
  · rw [write_run] at h
    rcases hleads.seek_name hname (by rw [hentry]; exact nofun) with hseek | ⟨_, -, -, hfailed⟩
    · rw [hseek, hentry] at h
      cases h
    · rw [hfailed] at h
      cases h
  · cases h
  · cases h

/-- A directory that has been copied to where there was something has been copied to a directory. -/
theorem seek_of_copyDirectory (hleads : t.Leads source left P) (hleads' : t.Leads target left' T)
    (hname : Path.IsName name) (hdirectory : t.entryAt? (P ++ [name]) = some .directory)
    (hentry : t.entryAt? (T ++ [name]) = some e) (hplain : ∀ goal, e ≠ .link goal)
    (h : (copyDirectory omitted depth (source.join name) (target.join name)).run t = (.ok (), t')) :
    t.seek true (source.join name) = .found (P ++ [name]) .directory ∧
      t.seek true (target.join name) = .found (T ++ [name]) .directory ∧ e = .directory := by
  cases depth with
  | zero => cases h
  | succ depth =>
    rw [copyDirectory_run] at h
    split at h
    · rename_i t₁ hmade
      obtain ⟨rfl, htarget, rfl⟩ := makeDirectoryAll_there hleads' hname hentry hplain hmade
      split at h
      · rename_i place hlook
        have hsource := FileTree.look_eq_ok_iff.mp hlook
        obtain ⟨rfl, -⟩ := hleads.eq_of_seek hname hdirectory nofun hsource
        exact ⟨hsource, htarget, rfl⟩
      · cases h
      · cases h
    · cases h

/-- There is no clash below what has been copied. -/
def ClearsBelow (omitted : String) (depth : Nat) : Prop :=
  ∀ {t t' : FileTree} {source target : Path} {P T : Place} {rel : List String} {e e' : Entry},
    t.IsTidy → t.seek true source = .found P .directory → t.seek true target = .found T .directory →
    (copyDirectory omitted depth source target).run t = (.ok (), t') → ¬ t.Clash omitted P T rel e e'

theorem not_clash_of_entry (hbelow : ClearsBelow omitted depth) (htidy : t.IsTidy)
    (hleads : t.Leads source left P) (hleads' : t.Leads target left' T)
    (h : (copyEntry omitted depth source target P name).run t = (.ok (), t')) :
    ¬ t.Clash omitted P T (name :: rel) e e' := by
  intro hclash
  have hname : Path.IsName name := htidy.isName_of_entry hclash.here.entryAt? name (by simp)
  have hkept : name ≠ omitted := fun heq => hclash.here.kept (heq ▸ List.mem_cons_self)
  have hplain := hclash.plain
  have hkinds := hclash.kinds
  rw [copyEntry_run, if_neg hkept] at h
  cases hclash.here with
  | entry _ hhere =>
    -- either the two entries of this name clash, or there are two directories and a clash below
    cases hclash.there with
    | inside _ _ hnone =>
      obtain ⟨_, _, hnil, -⟩ := hnone.exists_cons
      cases hnil
    | entry _ hthere =>
      rw [hhere] at h
      cases e with
      | directory =>
        obtain ⟨-, -, rfl⟩ := seek_of_copyDirectory hleads hleads' hname hhere hthere
          (fun goal hlink => by rw [hlink] at hplain; cases hplain.2) h
        exact hkinds rfl
      | file n bytes =>
        cases e' with
        | directory => exact copyFile_of_directory hleads' hname hthere h
        | file n bytes => exact hkinds rfl
        | link goal => cases hplain.2
      | link goal => cases hplain.1
  | inside _ hhere hrest =>
    cases hclash.there with
    | entry =>
      obtain ⟨_, _, hnil, -⟩ := hrest.exists_cons
      cases hnil
    | inside _ hthere hrest' =>
      rw [hhere] at h
      obtain ⟨hsource, htarget, -⟩ :=
        seek_of_copyDirectory hleads hleads' hname hhere hthere nofun h
      exact hbelow htidy hsource htarget h ⟨hrest, hrest', hplain, hkinds⟩

theorem not_clash_of_listing (hbelow : ClearsBelow omitted depth) (htidy : t.IsTidy)
    (hsource : t.seek true source = .found P .directory) (htarget : t.seek true target = .found T .directory)
    (h : ((t.listing P).forM (copyEntry omitted depth source target P)).run t = (.ok (), t')) :
    ¬ t.Clash omitted P T rel e e' := by
  intro hclash
  obtain ⟨name, rest, rfl, -, hsome⟩ := hclash.here.exists_cons
  obtain ⟨t₁, t₂, hgains, hentry⟩ := exists_run_of_forM (Q := t.Gains)
    (fun n t₁ h => h.trans (copyEntry_gains (copyDirectory_gains omitted depth) source target P n t₁))
    (.refl t) ((t.mem_listing_iff P name).mpr hsome) h
  -- the clash is still there when the turn of its name comes
  obtain ⟨e, e', hclash⟩ := hclash.of_retains hgains.retains
  obtain ⟨left, hleads⟩ := FileTree.exists_leads (hgains.seek_directory hsource)
  obtain ⟨left', hleads'⟩ := FileTree.exists_leads (hgains.seek_directory htarget)
  exact not_clash_of_entry hbelow (hgains.tidy htidy) hleads hleads' hentry hclash

theorem clearsBelow (omitted : String) (depth : Nat) : ClearsBelow omitted depth := by
  induction depth with
  | zero =>
    intro t t' source target P T rel e e' _ _ _ h
    cases h
  | succ depth ih =>
    intro t t' source target P T rel e e' htidy hsource htarget h hclash
    have hmade := makeDirectoryAll_gains target t
    rw [copyDirectory_run] at h
    split at h
    · rename_i t₁ hrun
      rw [hrun] at hmade
      rw [FileTree.look_eq_ok_iff.mpr (hmade.seek_directory hsource)] at h
      obtain ⟨e, e', hclash⟩ := hclash.of_retains hmade.retains
      exact not_clash_of_listing ih (hmade.tidy htidy) (hmade.seek_directory hsource)
        (hmade.seek_directory htarget) h hclash
    · cases h

end FileAction

namespace FileTree

variable {t : FileTree} {omitted : String} {P : Place} {source target path : Path}

/-- Something is in the way of a copy, when the way to the destination has been made as far as it can be: a
file where the destination leads to, or a clash with what the destination holds. -/
inductive IsBlocked (t : FileTree) (omitted : String) (P : Place) (target : Path) : Prop where
  | file (h : (t.withDirectory target).isFile target = true)
  | clash (T : Place) (rel : List String) (e e' : Entry)
      (htarget : (t.withDirectory target).look true target = .ok (T, .directory))
      (h : (t.withDirectory target).Clash omitted P T rel e e')

/-- No path leads to a file without a step. -/
theorem isFile_of_blank (h : ∀ s ∈ path.segments, s = "" ∨ s = ".") : t.isFile path = false := by
  unfold isFile
  split
  · rename_i place n bytes hlook
    have hseek := look_eq_ok_iff.mp hlook
    obtain ⟨front, s, c, hsegs, hs⟩ := endsInStep_of_walkLinks (walkLinks_of_seek hseek nofun)
    rw [Path.component?_eq_none_iff.mpr (h s (by rw [hsegs]; simp))] at hs
    cases hs
  · rfl

/-- A copy with something in its way fails. -/
theorem copyOutside_of_isBlocked (htidy : t.IsTidy) (hsource : t.look true source = .ok (P, .directory))
    (h : t.IsBlocked omitted P target) :
    ∃ e t', (FileAction.copyOutside omitted source target).run t = (.error e, t') := by
  cases hrun : (FileAction.copyOutside omitted source target).run t with
  | mk result t' =>
    cases result with
    | error e => exact ⟨e, t', rfl⟩
    | ok u =>
      exfalso
      obtain ⟨P', t₁, hmade, hsource', htarget, hcopy⟩ := merge_of_copyOutside hrun
      cases hsource.symm.trans hsource'
      have hgains := FileAction.makeDirectoryAll_gains target t
      rw [hmade] at hgains
      have hwith : t.withDirectory target = t₁ := by rw [withDirectory, hmade]
      cases h with
      | clash T rel e e' hlook hclash =>
        rw [hwith] at hlook hclash
        exact FileAction.not_clash_of_listing (FileAction.clearsBelow omitted 2047) (hgains.tidy htidy)
          (hgains.seek_directory (look_eq_ok_iff.mp hsource)) (look_eq_ok_iff.mp hlook) hcopy hclash
      | file hfile =>
        rw [hwith] at hfile
        -- once the directory has been made, there is no file in its place
        rcases FileAction.ancestors_cases target with ⟨above, habove⟩ | hempty | ⟨-, hblank⟩
        · obtain ⟨T, hT⟩ := FileAction.exists_seek_of_makeDirectoryAll habove hmade
          rw [isFile, look_eq_ok_iff.mpr hT] at hfile
          cases hfile
        · exact htarget hempty
        · cases (isFile_of_blank hblank).symm.trans hfile

end FileTree

end Playground
