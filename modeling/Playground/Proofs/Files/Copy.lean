import Mathlib.Data.List.Basic
import Playground.Files.Copy
import Playground.Proofs.Files.Growth
/-!
# Copies of directory trees

A copy into an empty directory that succeeds has all files of the source, under the names that they
have there and with their bytes, but for those that are left out.  Linked files are copied as files; a
linked directory makes the copy fail.
-/

namespace Playground

namespace Path

variable {dir rel : Path}

theorem mem_join {c : Char} (h : c ∈ (dir.join rel).toList) :
    c ∈ dir.toList ∨ c = '/' ∨ c ∈ rel.toList := by
  unfold join at h
  split at h
  · exact .inr (.inr h)
  split at h
  · exact .inr (.inr h)
  · rw [String.toList_append, List.mem_append] at h
    exact h.imp_right .inr
  · rw [String.toList_append, String.toList_append, List.mem_append, List.mem_append] at h
    rcases h with (h | h) | h
    · exact .inl h
    · exact .inr (.inl (List.mem_singleton.mp h))
    · exact .inr (.inr h)

theorem mem_join_right {c : Char} (h : c ∈ rel.toList) : c ∈ (dir.join rel).toList := by
  unfold join
  split
  · exact h
  split
  · exact h
  · rw [String.toList_append]
    exact List.mem_append_right _ h
  · rw [String.toList_append]
    exact List.mem_append_right _ h

theorem mem_solid {segs : List String} {n : String} (h : n ∈ solid segs) :
    n ∈ segs ∧ (component? n).isSome = true := List.mem_filter.mp h

/-- The names of a path that has no step upwards. -/
theorem isName_of_mem_solid {n : String} (hup : ".." ∉ segments rel)
    (hn : n ∈ solid (segments rel)) : IsName n := by
  obtain ⟨hmem, hstep⟩ := mem_solid hn
  refine isName_of_ne (fun hblank => ?_) (fun heq => hup (heq ▸ hmem)) (not_mem_of_mem_segments hmem)
  rw [component?_eq_none_iff.mpr hblank] at hstep
  cases hstep

end Path

namespace FileTree

variable {t t' : FileTree} {p q : Place} {e : Entry} {name : String}

/-! ## 1. Listings -/

/-- The name that a place has in a directory, if it lies there. -/
def nameIn? (p q : Place) : Option String :=
  if q.dropLast == p && q != [] then q.getLast? else none

theorem nameIn?_eq_some_iff : nameIn? p q = some name ↔ q = p ++ [name] := by
  unfold nameIn?
  constructor
  · intro h
    split at h
    · rename_i hcond
      obtain ⟨hp, -⟩ := Bool.and_eq_true_iff.mp hcond
      rw [← eq_of_beq hp, List.dropLast_append_getLast? name h]
    · cases h
  · rintro rfl
    simp

theorem listing_perm (t : FileTree) (p : Place) :
    (t.listing p).Perm ((t.entries.map (·.1)).filterMap (nameIn? p)) := by
  have hnames : (t.names p).Perm ((t.entries.map (·.1)).filterMap (nameIn? p)) := by
    rw [List.filterMap_map]
    exact List.mergeSort_perm _ _
  refine List.Perm.trans ?_ hnames
  unfold listing
  refine ((List.mergeSort_perm _ _).map _).trans ?_
  rw [List.map_map]
  exact .of_eq (List.map_id _)

theorem mem_listing_iff (t : FileTree) (p : Place) (name : String) :
    name ∈ t.listing p ↔ (t.entryAt? (p ++ [name])).isSome = true := by
  rw [(t.listing_perm p).mem_iff, List.mem_filterMap, entryAt?_isSome_iff (by simp)]
  simp only [nameIn?_eq_some_iff, exists_eq_right]

theorem IsTidy.nodup_listing (h : t.IsTidy) (p : Place) : (t.listing p).Nodup := by
  rw [(t.listing_perm p).nodup_iff]
  refine h.nodup.filterMap fun q q' name hq hq' => ?_
  rw [Option.mem_def, nameIn?_eq_some_iff] at hq hq'
  rw [hq, hq']

theorem IsTidy.isName_of_mem_listing (h : t.IsTidy) (hname : name ∈ t.listing p) :
    Path.IsName name := by
  rw [mem_listing_iff, entryAt?_isSome_iff (by simp)] at hname
  obtain ⟨x, hx, hxp⟩ := List.mem_map.mp hname
  exact h.names x hx name (by rw [hxp]; simp)

theorem entryAt?_of_listBelow (h : t.listBelow p = []) (hq : p <+: q) (hne : q ≠ p) :
    t.entryAt? q = none := by
  have hnil : q ≠ [] := fun hnil => hne (hnil ▸ (List.prefix_nil.mp (hnil ▸ hq)).symm)
  refine Option.not_isSome_iff_eq_none.mp fun hsome => ?_
  obtain ⟨x, hx, rfl⟩ := List.mem_map.mp ((entryAt?_isSome_iff hnil).mp hsome)
  unfold listBelow at h
  -- an entry below the place would be listed
  have hrelative := List.length_mergeSort _ ▸ congrArg List.length h
  rw [List.length_nil, List.length_eq_zero_iff, List.filterMap_eq_nil_iff] at hrelative
  have hx := hrelative x hx
  rw [if_pos (by simp [hne, List.isPrefixOf_iff_prefix.mpr hq])] at hx
  cases hx

/-! ## 2. Where names lead -/

/-- A name that is not too long is one that a walk looks for. -/
theorem isStep (hname : Path.IsName name) (hshort : ¬ maxName < name.utf8ByteSize) :
    IsStep name :=
  ⟨hname.ne_blank, hname.ne_up, hshort⟩

theorem walk_name_long (hname : Path.IsName name) (hlong : maxName < name.utf8ByteSize)
    (follow : Bool) (p : Place) (rest : List String) :
    t.walk follow p (name :: rest) = .failed .nameTooLong := by
  rw [walk, if_neg hname.ne_blank, if_neg hname.ne_up, if_pos hlong]

theorem LinkWalks.mono {links links' : Nat} {segs : List String} {stop : Stop}
    (h : t.LinkWalks true links p segs stop) (hstop : stop ≠ .failed .tooManyLinks)
    (hle : links ≤ links') : t.walkLinks true links' p segs = stop := by
  induction h generalizing links' with
  | done hwalk hlink => exact walkLinks_of_walk hwalk hlink links'
  | tooMany => exact absurd rfl hstop
  | go hwalk _ ih =>
    obtain ⟨more, rfl⟩ : ∃ more, links' = more + 1 := ⟨links' - 1, by omega⟩
    rw [walkLinks_of_link hwalk]
    exact ih hstop (by omega)

/-- More links to follow make no difference to a walk that has come to its end. -/
theorem walkLinks_mono {links links' : Nat} {segs : List String} {stop : Stop}
    (h : t.walkLinks true links p segs = stop) (hstop : stop ≠ .failed .tooManyLinks)
    (hle : links ≤ links') : t.walkLinks true links' p segs = stop :=
  (h ▸ t.linkWalks true links p segs).mono hstop hle

/-- Walks that have come to an end agree, however many links they were to follow. -/
theorem walkLinks_agree {links links' : Nat} {segs : List String} {stop stop' : Stop}
    (h : t.walkLinks true links p segs = stop) (h' : t.walkLinks true links' p segs = stop')
    (hstop : stop ≠ .failed .tooManyLinks) (hstop' : stop' ≠ .failed .tooManyLinks) :
    stop = stop' := by
  have hmax := walkLinks_mono h hstop (Nat.le_max_left links links')
  have hmax' := walkLinks_mono h' hstop' (Nat.le_max_right links links')
  exact hmax.symm.trans hmax'

/-- What is new may be replaced. -/
theorem Grows.put_again (h : Grows (· = q) t t') (hnone : t.entryAt? q = none) (e : Entry) :
    Grows (· = q) t (t'.put q e) where
  workDir := by
    rw [← h.workDir, FileTree.put]
    split <;> rfl
  old p e' he := by
    have hp : p ≠ q := by
      rintro rfl
      cases hnone.symm.trans he
    exact (entryAt?_put_of_ne t' e hp).trans (h.old p e' he)
  new p e' hfree he := by
    by_cases hp : p = q
    · exact hp
    · exact h.new p e' hfree ((entryAt?_put_of_ne t' e hp).symm.trans he)

theorem Grows.walkLinks {Q : Place → Prop} {links : Nat} {segs : List String} (h : Grows Q t t')
    (hfound : t.walkLinks true links p segs = .found q e) :
    t'.walkLinks true links p segs = .found q e := by
  refine walkLinks_of_becomes h.keeps (hfound ▸ h.becomes ?_)
  by_cases he : e = .directory
  · exact .inl he
  · obtain ⟨dir, segs', hwalk⟩ := exists_walk_of_walkLinks hfound nofun
    exact .inr (entryAt?_of_walk hwalk he)

/-- The names lead from a place to a file, and there may be a link at their end. -/
def Reaches (t : FileTree) (p : Place) (names : List String) (bytes : List UInt8) : Prop :=
  ∃ links q number, t.walkLinks true links p names = .found q (.file number bytes)

theorem Grows.reaches {Q : Place → Prop} {names : List String} {bytes : List UInt8}
    (h : Grows Q t t') (hreaches : t.Reaches p names bytes) : t'.Reaches p names bytes := by
  obtain ⟨links, q, number, hfound⟩ := hreaches
  exact ⟨links, q, number, h.walkLinks hfound⟩

namespace Reaches

variable {rest : List String} {bytes : List UInt8}

theorem ne_nil (h : t.Reaches p rest bytes) : rest ≠ [] := by
  rintro rfl
  obtain ⟨links, q, number, hfound⟩ := h
  have hwalk : t.walk true p [] = .found p .directory := rfl
  rw [walkLinks_of_walk hwalk (by simp)] at hfound
  cases hfound

theorem short (h : t.Reaches p (name :: rest) bytes) (hname : Path.IsName name) :
    ¬ maxName < name.utf8ByteSize := by
  intro hlong
  obtain ⟨links, q, number, hfound⟩ := h
  rw [walkLinks_of_walk (walk_name_long hname hlong true p rest) (by simp)] at hfound
  cases hfound

theorem isSome (h : t.Reaches p (name :: rest) bytes) (hname : Path.IsName name) :
    (t.entryAt? (p ++ [name])).isSome = true := by
  refine Option.isSome_iff_ne_none.mpr fun hnone => ?_
  have hshort := h.short hname
  obtain ⟨links, q, number, hfound⟩ := h
  have hwalk := walk_step (t := t) (isStep hname hshort) true p rest
  rw [hnone] at hwalk
  dsimp only at hwalk
  rw [walkLinks_of_walk hwalk (by split <;> simp)] at hfound
  split at hfound <;> cases hfound

/-- Names that lead through a directory go on from there. -/
theorem inside (h : t.Reaches p (name :: rest) bytes) (hname : Path.IsName name)
    (hdirectory : t.entryAt? (p ++ [name]) = some .directory) :
    t.Reaches (p ++ [name]) rest bytes := by
  have hshort := h.short hname
  obtain ⟨links, q, number, hfound⟩ := h
  have hwalk := walk_step (t := t) (isStep hname hshort) true p rest
  rw [hdirectory] at hwalk
  exact ⟨links, q, number, walkLinks_congr hwalk links ▸ hfound⟩

/-- A name that leads to a file leads nowhere further. -/
theorem eq_of_file (h : t.Reaches p (name :: rest) bytes) {bytes' : List UInt8}
    (hfile : t.Reaches p [name] bytes') : rest = [] ∧ bytes = bytes' := by
  obtain ⟨links, q, number, hfound⟩ := h
  obtain ⟨links', q', number', hfound'⟩ := hfile
  by_cases hrest : rest = []
  · subst hrest
    cases walkLinks_agree hfound hfound' nofun nofun
    exact ⟨rfl, rfl⟩
  · have hfailed : t.walkLinks true links' p ([name] ++ rest) = .failed .notDirectory :=
      walkLinks_append_of_file hfound' hrest
    cases walkLinks_agree hfound hfailed nofun nofun

end Reaches

end FileTree

namespace FileAction

open FileTree (Leads Grows Reaches IsTidy)

variable {t t₁ t' : FileTree} {source target : Path} {P T : Place} {name omitted : String}
  {left : Nat} {names : List String}

/-! ## 3. Copying one file -/

/-- The second half of a copy: the bytes are written, unless the file is the one that is copied. -/
theorem rewrite_run (target : Path) (place : Place) (bytes : List UInt8) (stop : FileTree.Stop)
    (t : FileTree) :
    FileAction.run (match stop with
      | .found copy _ => if copy = place then return () else write target bytes
      | _ => write target bytes) t = match stop with
        | .found copy _ => if copy = place then (.ok (), t) else (write target bytes).run t
        | _ => (write target bytes).run t := by
  cases stop with
  | found copy e =>
    dsimp only
    split <;> rfl
  | _ => rfl

theorem copyFile_run (source target : Path) (t : FileTree) :
    (copyFile source target).run t = match t.look true source with
      | .ok (place, .file _ bytes) =>
          match (write target []).run t with
          | (.ok (), t) =>
              match t.seek true target with
              | .found copy _ =>
                  if copy = place then (.ok (), t) else (write target bytes).run t
              | _ => (write target bytes).run t
          | (.error e, t) => (.error e, t)
      | .ok _ => (.error .notRegular, t)
      | .error e => (.error e, t) := by
  rw [copyFile, run_bind, ask_run]
  cases t.look true source with
  | error e => rfl
  | ok r =>
    obtain ⟨place, e⟩ := r
    cases e with
    | file number bytes =>
      dsimp only
      rw [run_bind]
      cases (write target []).run t with
      | mk result t =>
        cases result with
        | error e => rfl
        | ok _ =>
          exact rewrite_run target place bytes (t.seek true target) t
    | _ => rfl

/-- A file that is copied into a directory that lacks its name is the only thing that is new. -/
theorem copyFile_child (hleads : t.Leads target left T) (hname : Path.IsName name)
    (hnone : t.entryAt? (T ++ [name]) = none)
    (h : (copyFile source (target.join name)).run t = (.ok (), t')) :
    ∃ place number bytes copy, t.seek true source = .found place (.file number bytes) ∧
      t'.entryAt? (T ++ [name]) = some (.file copy bytes) ∧ Grows (· = T ++ [name]) t t' ∧
      (t.IsTidy → t'.IsTidy) ∧ (target.join name).utf8ByteSize ≤ FileTree.maxPath := by
  have hne : T ++ [name] ≠ [] := by simp
  rw [copyFile_run] at h
  split at h
  · rename_i place number bytes hlook
    rw [FileTree.look_eq_ok_iff] at hlook
    have hvacant : t.seek true (target.join name) = .vacant T name false := by
      rcases hleads.seek_vacant hname hnone with hvacant | ⟨e, -, -, hfailed⟩
      · exact hvacant true
      · rw [write_run, hfailed] at h
        cases h
    rw [write_run, hvacant] at h
    dsimp only at h
    rw [if_neg Bool.false_ne_true] at h
    dsimp only at h
    -- the new file is empty first, and it is not the one that is copied
    generalize hmiddle : ({ t.put (T ++ [name]) (.file t.nextNumber []) with
      nextNumber := t.nextNumber + 1 } : FileTree) = middle at h
    have hnew : middle.entryAt? (T ++ [name]) = some (.file t.nextNumber []) := by
      rw [← hmiddle]
      exact FileTree.entryAt?_put_self t _ hne
    have hgrows : Grows (· = T ++ [name]) t middle := by
      rw [← hmiddle]
      exact .put (Q := (· = T ++ [name])) hnone hne rfl _ _
    have hfound : middle.seek true (target.join name) =
        .found (T ++ [name]) (.file t.nextNumber []) :=
      FileTree.seek_of_newFile hgrows.keeps hvacant hnew rfl
    have hother : T ++ [name] ≠ place := by
      rintro rfl
      cases hnone.symm.trans (FileTree.entryAt?_of_seek hlook nofun)
    rw [hfound] at h
    dsimp only at h
    rw [if_neg hother, write_run, hfound] at h
    cases h
    refine ⟨place, number, bytes, t.nextNumber, hlook, FileTree.entryAt?_put_self middle _ hne,
      hgrows.put_again hnone _, fun htidy => ?_, (FileTree.isSought_of_seek hvacant nofun).short⟩
    have hnames := htidy.isName_of_seek hvacant
    have hmade : middle.IsTidy := by
      rw [← hmiddle]
      exact htidy.put hnames _ _
    exact hmade.put hnames _ _
  · cases h
  · cases h

/-! ## 4. Copying a directory -/

/-- Copies what has been found in a directory. -/
def copyFound (omitted : String) (depth : Nat) (source target : Path) : Option Entry → FileAction Unit
  | some .directory => copyDirectory omitted depth source target
  | some _ => copyFile source target
  | none => return ()

/-- Copies what goes by a name in the directory at a place. -/
def copyEntry (omitted : String) (depth : Nat) (source target : Path) (P : Place) (name : String) :
    FileAction Unit := do
  if name = omitted then return ()
  else copyFound omitted depth (source.join name) (target.join name) ((← get).entryAt? (P ++ [name]))

theorem copyEntry_run (omitted : String) (depth : Nat) (source target : Path) (P : Place)
    (name : String) (t : FileTree) : (copyEntry omitted depth source target P name).run t =
      if name = omitted then (.ok (), t)
      else (copyFound omitted depth (source.join name) (target.join name)
        (t.entryAt? (P ++ [name]))).run t := by
  unfold copyEntry
  split <;> rfl

theorem copyDirectory_run (omitted : String) (depth : Nat) (source target : Path) (t : FileTree) :
    (copyDirectory omitted (depth + 1) source target).run t =
      match (makeDirectoryAll target).run t with
      | (.ok (), t) =>
          match t.look true source with
          | .ok (place, .directory) =>
              ((t.listing place).forM (copyEntry omitted depth source target place)).run t
          | .ok _ => (.error .notDirectory, t)
          | .error e => (.error e, t)
      | (.error e, t) => (.error e, t) := by
  rw [copyDirectory, run_bind]
  cases (makeDirectoryAll target).run t with
  | mk result t =>
    cases result with
    | error e => rfl
    | ok _ =>
      dsimp only
      rw [run_bind, ask_run]
      cases t.look true source with
      | error e => rfl
      | ok r =>
        obtain ⟨place, e⟩ := r
        cases e with
        | directory => rfl
        | _ => rfl

theorem forM_run (f : String → FileAction Unit) (name : String) (names : List String) (t : FileTree) :
    ((name :: names).forM f).run t = match (f name).run t with
      | (.ok _, t) => (names.forM f).run t
      | (.error e, t) => (.error e, t) := by
  have h : ((name :: names).forM f).run t = (f name >>= fun _ => names.forM f).run t := rfl
  rw [h, run_bind]
  cases (f name).run t with
  | mk result t => cases result <;> rfl

end FileAction

namespace FileTree

/-- Neither of two places lies in the other. -/
def Apart (P T : Place) : Prop := ¬ P <+: T ∧ ¬ T <+: P

variable {t t₁ t' : FileTree} {source target path : Path} {P T place : Place}
  {name omitted : String} {names : List String} {depth left : Nat} {e : Entry}

theorem Apart.below (h : Apart P T) (p q : List String) : Apart (P ++ p) (T ++ q) := by
  have hnone : ∀ place, P <+: place → ¬ T <+: place := fun place hp ht =>
    (List.prefix_or_prefix_of_prefix hp ht).elim h.1 h.2
  constructor
  · intro hprefix
    exact hnone _ ((List.prefix_append P p).trans hprefix) (List.prefix_append T q)
  · intro hprefix
    exact hnone _ (List.prefix_append P p) ((List.prefix_append T q).trans hprefix)

/-- Some names of one directory can be copied to another one, which has nothing of that name. -/
structure CanCopy (t : FileTree) (source target : Path) (P T : Place) (names : List String) :
    Prop where
  tidy : t.IsTidy
  source : t.seek true source = .found P .directory
  target : t.seek true target = .found T .directory
  apart : Apart P T
  proper : ∀ name ∈ names, Path.IsName name
  nodup : names.Nodup
  vacant : ∀ name ∈ names, ∀ q, T ++ [name] <+: q → t.entryAt? q = none

/-- Some names of one directory have been copied to another one: whatever file they led to, it is
there. -/
structure Copied (omitted : String) (target : Path) (P T : Place) (names : List String)
    (t t' : FileTree) : Prop where
  grows : Grows (fun q => ∃ name ∈ names, T ++ [name] <+: q) t t'
  tidy : t'.IsTidy
  files : ∀ name ∈ names, name ≠ omitted → ∀ rest bytes, (∀ n ∈ rest, Path.IsName n) →
    omitted ∉ rest → t.Reaches P (name :: rest) bytes →
    ∃ copy, t'.walk true T (name :: rest) = .found (T ++ name :: rest) (.file copy bytes)
  fits : ∀ name ∈ names, name ≠ omitted → ∀ bytes, t.Reaches P [name] bytes →
    (target.join name).utf8ByteSize ≤ maxPath

theorem CanCopy.first (h : CanCopy t source target P T (name :: names)) :
    CanCopy t source target P T [name] where
  tidy := h.tidy
  source := h.source
  target := h.target
  apart := h.apart
  proper n hn := h.proper n (List.mem_singleton.mp hn ▸ List.mem_cons_self)
  nodup := List.nodup_singleton name
  vacant n hn := h.vacant n (List.mem_singleton.mp hn ▸ List.mem_cons_self)

theorem CanCopy.next (h : CanCopy t source target P T (name :: names))
    (hcopied : Copied omitted target P T [name] t t₁) : CanCopy t₁ source target P T names where
  tidy := hcopied.tidy
  source := hcopied.grows.seek h.source
  target := hcopied.grows.seek h.target
  apart := h.apart
  proper n hn := h.proper n (List.mem_cons_of_mem name hn)
  nodup := (List.nodup_cons.mp h.nodup).2
  vacant n hn q hq := by
    refine Option.eq_none_iff_forall_ne_some.mpr fun e he => ?_
    obtain ⟨m, hm, hbelow⟩ :=
      hcopied.grows.new q e (h.vacant n (List.mem_cons_of_mem name hn) q hq) he
    rw [List.mem_singleton.mp hm] at hbelow
    -- two names of one directory are on the way to the same place
    have hsame := List.prefix_of_prefix_length_le hq hbelow (by simp)
    have heq := List.append_cancel_left (hsame.eq_of_length (by simp))
    exact (List.nodup_cons.mp h.nodup).1 ((List.cons.inj heq).1 ▸ hn)

theorem Copied.nil (htidy : t.IsTidy) : Copied omitted target P T [] t t where
  grows := .refl _ t
  tidy := htidy
  files _ hname := by cases hname
  fits _ hname := by cases hname

theorem Copied.cons (h : Copied omitted target P T [name] t t₁) (hrest : Copied omitted target P T names t₁ t') :
    Copied omitted target P T (name :: names) t t' where
  grows := by
    refine (h.grows.mono fun q hq => ?_).trans (hrest.grows.mono fun q hq => ?_)
    · obtain ⟨n, hn, hq⟩ := hq
      exact ⟨n, List.mem_singleton.mp hn ▸ List.mem_cons_self, hq⟩
    · obtain ⟨n, hn, hq⟩ := hq
      exact ⟨n, List.mem_cons_of_mem name hn, hq⟩
  tidy := hrest.tidy
  files n hn hkept rest bytes hnames homitted hreaches := by
    rcases List.mem_cons.mp hn with rfl | hn
    · obtain ⟨copy, hwalk⟩ :=
        h.files n (List.mem_singleton_self n) hkept rest bytes hnames homitted hreaches
      exact ⟨copy, hrest.grows.walk hwalk⟩
    · exact hrest.files n hn hkept rest bytes hnames homitted (h.grows.reaches hreaches)
  fits n hn hkept bytes hreaches := by
    rcases List.mem_cons.mp hn with rfl | hn
    · exact h.fits n (List.mem_singleton_self n) hkept bytes hreaches
    · exact hrest.fits n hn hkept bytes (h.grows.reaches hreaches)

end FileTree

namespace FileAction

open FileTree (CanCopy Copied Grows Reaches IsTidy)

variable {t t' : FileTree} {source target : Path} {P T : Place} {name omitted : String}
  {names : List String} {depth : Nat}

/-- What is no directory is copied as a file. -/
theorem copied_file (hc : CanCopy t source target P T [name])
    (h : (copyFile (source.join name) (target.join name)).run t = (.ok (), t')) :
    Copied omitted target P T [name] t t' := by
  have hname := hc.proper name List.mem_cons_self
  have hnone := hc.vacant name List.mem_cons_self _ (List.prefix_refl _)
  obtain ⟨left, hleads⟩ := FileTree.exists_leads hc.source
  obtain ⟨left', hleads'⟩ := FileTree.exists_leads hc.target
  obtain ⟨place, number, bytes, copy, hfound, hcopy, hgrows, htidy, hfits⟩ :=
    copyFile_child hleads' hname hnone h
  refine ⟨hgrows.mono fun q hq => ⟨name, List.mem_cons_self, hq ▸ List.prefix_refl _⟩,
    htidy hc.tidy, fun n hn _ rest bytes' _ _ hreaches => ?_,
    fun n hn _ _ _ => List.mem_singleton.mp hn ▸ hfits⟩
  obtain rfl := List.mem_singleton.mp hn
  have hfile : t.Reaches P [n] bytes := by
    rw [hleads.seek hname.isAbsolute hname.endsInStep, hname.segments] at hfound
    split at hfound
    · cases hfound
    split at hfound
    · cases hfound
    exact ⟨left, place, number, hfound⟩
  obtain ⟨rfl, rfl⟩ := hreaches.eq_of_file hfile
  refine ⟨copy, ?_⟩
  rw [FileTree.walk_step (FileTree.isStep hname (hreaches.short hname)), hcopy]
  rfl

/-- A directory that is copied below another one. -/
def CopiesBelow (omitted : String) (depth : Nat) : Prop :=
  ∀ {t t' : FileTree} {source target : Path} {P T : Place} {name : String},
    CanCopy t source target P T [name] → t.entryAt? (P ++ [name]) = some .directory →
    (copyDirectory omitted depth (source.join name) (target.join name)).run t = (.ok (), t') →
    Copied omitted target P T [name] t t'

theorem copied_entry (hbelow : CopiesBelow omitted depth) (hc : CanCopy t source target P T [name])
    (h : (copyEntry omitted depth source target P name).run t = (.ok (), t')) :
    Copied omitted target P T [name] t t' := by
  have hnone : t' = t → (name = omitted ∨ t.entryAt? (P ++ [name]) = none) →
      Copied omitted target P T [name] t t' := by
    rintro rfl hnothing
    have hno : ∀ n ∈ [name], n ≠ omitted → ∀ rest bytes, ¬ t'.Reaches P (n :: rest) bytes := by
      intro n hn hkept rest bytes hreaches
      obtain rfl := List.mem_singleton.mp hn
      have hsome := hreaches.isSome (hc.proper n hn)
      rw [hnothing.resolve_left hkept] at hsome
      cases hsome
    exact ⟨.refl _ t', hc.tidy,
      fun n hn hkept rest bytes _ _ hreaches => absurd hreaches (hno n hn hkept rest bytes),
      fun n hn hkept bytes hreaches => absurd hreaches (hno n hn hkept [] bytes)⟩
  rw [copyEntry_run] at h
  split at h
  · rename_i homitted
    cases h
    exact hnone rfl (.inl homitted)
  · cases hentry : t.entryAt? (P ++ [name]) with
    | none =>
      rw [hentry] at h
      cases h
      exact hnone rfl (.inr hentry)
    | some e =>
      rw [hentry] at h
      cases e with
      | directory => exact hbelow hc hentry h
      | file number bytes => exact copied_file hc h
      | link target => exact copied_file hc h

theorem copied_names (hbelow : CopiesBelow omitted depth)
    (hc : CanCopy t source target P T names)
    (h : (names.forM (copyEntry omitted depth source target P)).run t = (.ok (), t')) :
    Copied omitted target P T names t t' := by
  induction names generalizing t with
  | nil =>
    cases h
    exact .nil hc.tidy
  | cons name names ih =>
    rw [forM_run] at h
    split at h
    · rename_i t₁ hfirst
      have hcopied := copied_entry hbelow hc.first hfirst
      exact hcopied.cons (ih (hc.next hcopied) h)
    · cases h

/-- All that a directory lists can be copied to an empty one. -/
theorem canCopy_listing (htidy : t.IsTidy) (hsource : t.seek true source = .found P .directory)
    (htarget : t.seek true target = .found T .directory) (hapart : FileTree.Apart P T)
    (hempty : ∀ q, T <+: q → q ≠ T → t.entryAt? q = none) :
    CanCopy t source target P T (t.listing P) where
  tidy := htidy
  source := hsource
  target := htarget
  apart := hapart
  proper _ hname := htidy.isName_of_mem_listing hname
  nodup := htidy.nodup_listing P
  vacant name _ q hq := by
    refine hempty q ((List.prefix_append T [name]).trans hq) fun heq => ?_
    have hle := (heq ▸ hq).length_le
    rw [List.length_append, List.length_singleton] at hle
    omega

/-- A directory has been copied when there is one of that name in the target, and all that it lists has
been copied to that. -/
theorem copied_of_listing {t₁ : FileTree} (hname : Path.IsName name)
    (hdirectory : t.entryAt? (P ++ [name]) = some .directory)
    (hgrows : Grows (· = T ++ [name]) t t₁)
    (hnew : t₁.entryAt? (T ++ [name]) = some .directory)
    (hcopied : Copied omitted (target.join name) (P ++ [name]) (T ++ [name])
      (t₁.listing (P ++ [name])) t₁ t') : Copied omitted target P T [name] t t' where
  grows := by
    refine (hgrows.mono fun q hq => ?_).trans (hcopied.grows.mono fun q hq => ?_)
    · exact ⟨name, List.mem_cons_self, hq ▸ List.prefix_refl _⟩
    · obtain ⟨n, -, hq⟩ := hq
      exact ⟨name, List.mem_cons_self, (List.prefix_append _ [n]).trans hq⟩
  tidy := hcopied.tidy
  files n hn _ rest bytes hnames homitted hreaches := by
    obtain rfl := List.mem_singleton.mp hn
    have hshort := hreaches.short hname
    -- the file lies below the directory, under a name that this lists
    have hbelow := (hgrows.reaches hreaches).inside hname (hgrows.old _ _ hdirectory)
    obtain ⟨m, rest, rfl⟩ := List.exists_cons_of_ne_nil hbelow.ne_nil
    have hlisted : m ∈ t₁.listing (P ++ [n]) :=
      (t₁.mem_listing_iff _ m).mpr (hbelow.isSome (hnames m List.mem_cons_self))
    obtain ⟨copy, hwalk⟩ := hcopied.files m hlisted
      (fun heq => homitted (heq ▸ List.mem_cons_self)) rest bytes
      (fun k hk => hnames k (List.mem_cons_of_mem m hk))
      (fun hmem => homitted (List.mem_cons_of_mem m hmem)) hbelow
    refine ⟨copy, ?_⟩
    rw [FileTree.walk_step (FileTree.isStep hname hshort), hcopied.grows.old _ _ hnew]
    dsimp only
    rw [hwalk, List.append_assoc, List.singleton_append]
  fits n hn _ bytes hreaches := by
    -- a directory is no file
    obtain rfl := List.mem_singleton.mp hn
    exact absurd rfl (hreaches.inside hname hdirectory).ne_nil

theorem copiesBelow (omitted : String) (depth : Nat) : CopiesBelow omitted depth := by
  induction depth with
  | zero =>
    intro t t' source target P T name _ _ h
    cases h
  | succ depth ih =>
    intro t t' source target P T name hc hdirectory h
    have hname := hc.proper name List.mem_cons_self
    have hvacant := hc.vacant name List.mem_cons_self
    rw [copyDirectory_run] at h
    split at h
    · -- first there is an empty directory of that name in the target
      rename_i t₁ hmade
      obtain ⟨left, hleads⟩ := FileTree.exists_leads hc.target
      obtain ⟨hput, htarget⟩ :=
        makeDirectoryAll_child hleads hname (hvacant _ (List.prefix_refl _)) hmade
      have hgrows : Grows (· = T ++ [name]) t t₁ := by
        rw [hput]
        exact Grows.put (Q := (· = T ++ [name])) (hvacant _ (List.prefix_refl _)) (by simp) rfl
          .directory (t.put (T ++ [name]) .directory).nextNumber
      have hnew : t₁.entryAt? (T ++ [name]) = some .directory := by
        rw [hput]
        exact FileTree.entryAt?_put_self t _ (by simp)
      have hempty : ∀ q, T ++ [name] <+: q → q ≠ T ++ [name] → t₁.entryAt? q = none := by
        intro q hq hne
        rw [hput, FileTree.entryAt?_put_of_ne t _ hne]
        exact hvacant q hq
      have htidy := (made_of_makeDirectoryAll hmade).tidy hc.tidy
      split at h
      · -- and then all that the source lists is copied to it
        rename_i place hlook
        rw [FileTree.look_eq_ok_iff] at hlook
        obtain ⟨left', hleads'⟩ := FileTree.exists_leads (hgrows.seek hc.source)
        obtain ⟨rfl, -⟩ := hleads'.eq_of_seek hname (hgrows.old _ _ hdirectory) nofun hlook
        have hcan := canCopy_listing htidy hlook htarget (hc.apart.below [name] [name]) hempty
        exact copied_of_listing hname hdirectory hgrows hnew (copied_names ih hcan h)
      · cases h
      · cases h
    · cases h

/-! ## 5. Copying a tree -/

theorem copyOutside_run (omitted : String) (source target : Path) (t : FileTree) :
    (copyOutside omitted source target).run t =
      match t.resolve target with
      | .ok destination =>
          match t.look true source with
          | .ok (place, _) =>
              if place.isPrefixOf destination then (.error .insideSource, t)
              else (copyDirectory omitted maxDepth source target).run t
          | .error e => (.error e, t)
      | .error e => (.error e, t) := by
  rw [copyOutside, run_bind, ask_run]
  cases t.resolve target with
  | error e => rfl
  | ok destination =>
    dsimp only
    rw [run_bind, ask_run]
    cases t.look true source with
    | error e => rfl
    | ok found =>
      dsimp only
      split <;> rfl

theorem copyOutside_ok (h : (copyOutside omitted source target).run t = (.ok (), t')) :
    (copyDirectory omitted maxDepth source target).run t = (.ok (), t') := by
  rw [copyOutside_run] at h
  split at h
  · split at h
    · split at h
      · cases h
      · exact h
    · cases h
  · cases h

end FileAction

namespace FileTree

variable {t t' : FileTree} {source target rel : Path} {omitted : String} {bytes : List UInt8}

/-- The target can be made as a directory apart from the source, and it is empty then. -/
def IsFresh (t : FileTree) (source target : Path) : Prop :=
  ∃ P T, t.look true source = .ok (P, .directory) ∧ Apart P T ∧
    ((FileAction.makeDirectoryAll target).run t).2.look true target = .ok (T, .directory) ∧
    ((FileAction.makeDirectoryAll target).run t).2.listBelow T = []

/-- A copy that has gone well has copied all that the source lists, once the target is there. -/
theorem copied_of_copyOutside (htidy : t.IsTidy) (hfresh : t.IsFresh source target)
    (h : (FileAction.copyOutside omitted source target).run t = (.ok (), t')) :
    ∃ P T t₁, Grows (fun _ => True) t t₁ ∧ t₁.seek true source = .found P .directory ∧
      t₁.seek true target = .found T .directory ∧
      Copied omitted target P T (t₁.listing P) t₁ t' := by
  obtain ⟨P, T, hsource, hapart, htarget, hempty⟩ := hfresh
  have hcopy : (FileAction.copyDirectory omitted (2047 + 1) source target).run t = (.ok (), t') :=
    FileAction.copyOutside_ok h
  rw [FileAction.copyDirectory_run] at hcopy
  split at hcopy
  · rename_i t₁ hmade
    have hgrown := FileAction.made_of_makeDirectoryAll hmade
    rw [hmade] at htarget hempty
    rw [look_eq_ok_iff] at hsource htarget
    have hsource₁ := hgrown.grows.seek hsource
    rw [look_eq_ok_iff.mpr hsource₁] at hcopy
    dsimp only at hcopy
    refine ⟨P, T, t₁, hgrown.grows, hsource₁, htarget, ?_⟩
    exact FileAction.copied_names (FileAction.copiesBelow omitted 2047)
      (FileAction.canCopy_listing (hgrown.tidy htidy) hsource₁ htarget hapart
        fun q hq hne => entryAt?_of_listBelow hempty hq hne) hcopy
  · cases hcopy

theorem reaches_of_seek {P place : Place} {number : Nat}
    (hsource : t.seek true source = .found P .directory) (hrel : Path.isAbsolute rel = false)
    (hfound : t.seek true (source.join rel) = .found place (.file number bytes)) :
    t.Reaches P (Path.solid rel.segments) bytes := by
  have hends := endsInStep_of_seek hrel hfound
  obtain ⟨left, hleads⟩ := exists_leads hsource
  rw [hleads.seek hrel hends] at hfound
  split at hfound
  · cases hfound
  split at hfound
  · cases hfound
  exact ⟨left, place, number, (t.walkLinks_solid true left P [] (.inr hends)).trans hfound⟩

/-- A file that a path in the source leads to is read in the copy as in the source. -/
theorem read_of_copyOutside (htidy : t.IsTidy) (hfresh : t.IsFresh source target)
    (h : (FileAction.copyOutside omitted source target).run t = (.ok (), t'))
    (hrel : Path.isAbsolute rel = false) (hup : ".." ∉ rel.segments)
    (homitted : omitted ∉ rel.segments) (hfits : (target.join rel).utf8ByteSize ≤ maxPath)
    (hread : t.read (source.join rel) = .ok bytes) : t'.read (target.join rel) = .ok bytes := by
  obtain ⟨P, T, t₁, hgrows, hsource, htarget, hcopied⟩ := copied_of_copyOutside htidy hfresh h
  obtain ⟨place, number, hfound⟩ := read_eq_ok_iff.mp hread
  have hends := endsInStep_of_seek hrel hfound
  have hreaches := reaches_of_seek hsource hrel (hgrows.seek hfound)
  obtain ⟨name, rest, hsolid⟩ := List.exists_cons_of_ne_nil hreaches.ne_nil
  have hnames : ∀ n ∈ name :: rest, Path.IsName n ∧ n ≠ omitted := by
    intro n hn
    rw [← hsolid] at hn
    exact ⟨Path.isName_of_mem_solid hup hn, fun heq => homitted (heq ▸ (Path.mem_solid hn).1)⟩
  rw [hsolid] at hreaches
  have hname := hnames name List.mem_cons_self
  obtain ⟨copy, hwalk⟩ := hcopied.files name
    ((t₁.mem_listing_iff P name).mpr (hreaches.isSome hname.1)) hname.2 rest bytes
    (fun n hn => (hnames n (List.mem_cons_of_mem name hn)).1)
    (fun hmem => (hnames omitted (List.mem_cons_of_mem name hmem)).2 rfl) hreaches
  refine read_eq_ok_iff.mpr ⟨T ++ name :: rest, copy, ?_⟩
  have htarget' := hcopied.grows.seek htarget
  obtain ⟨left, hleads⟩ := exists_leads htarget'
  have hnul : ¬ (target.join rel).toList.contains '\x00' = true := by
    intro hmem
    rcases Path.mem_join (List.contains_iff_mem.mp hmem) with hmem | hmem | hmem
    · exact (isSought_of_seek htarget' nofun).no_nul hmem
    · cases hmem
    · exact (isSought_of_seek hfound nofun).no_nul (Path.mem_join_right hmem)
  rw [hleads.seek hrel hends, if_neg hnul, if_neg (Nat.not_lt.mpr hfits)]
  have hsame := t'.walkLinks_solid true left T [] (.inr hends)
  rw [List.nil_append, List.nil_append, hsolid] at hsame
  exact hsame.symm.trans (walkLinks_of_walk hwalk (by simp) left)

/-- So is a file that the source lists by its name. -/
theorem read_name_of_copyOutside {name : String} (htidy : t.IsTidy) (hfresh : t.IsFresh source target)
    (h : (FileAction.copyOutside omitted source target).run t = (.ok (), t'))
    (hname : Path.IsName name) (hkept : name ≠ omitted)
    (hread : t.read (source.join name) = .ok bytes) : t'.read (target.join name) = .ok bytes := by
  have hsegs := hname.segments
  refine read_of_copyOutside htidy hfresh h hname.isAbsolute ?_ ?_ ?_ hread
  · rw [hsegs]
    exact fun hup => hname.ne_up (List.mem_singleton.mp hup).symm
  · rw [hsegs]
    exact fun homitted => hkept (List.mem_singleton.mp homitted).symm
  · -- its path in the copy cannot have been too long
    obtain ⟨P, T, t₁, hgrows, hsource, -, hcopied⟩ := copied_of_copyOutside htidy hfresh h
    obtain ⟨place, number, hfound⟩ := read_eq_ok_iff.mp hread
    have hreaches := reaches_of_seek hsource hname.isAbsolute (hgrows.seek hfound)
    have hsolid : Path.solid [name] = [name] := by
      rw [Path.solid, List.filter_cons_of_pos (by rw [hname.1]; rfl)]
      rfl
    rw [hsegs, hsolid] at hreaches
    exact hcopied.fits name ((t₁.mem_listing_iff P name).mpr (hreaches.isSome hname)) hkept bytes
      hreaches

end FileTree

end Playground
