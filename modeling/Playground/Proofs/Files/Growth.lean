import Mathlib.Data.List.Nodup
import Playground.Proofs.Files.Change
import Playground.Proofs.Files.Joined
/-!
# Trees that grow

Making directories adds entries where there was nothing, and leaves all others alone.  So whatever a
path has led to, it still leads there.
-/

namespace Playground

namespace Path

variable {n : String}

/-- A name that an entry of a directory can have. -/
def IsName (n : String) : Prop := component? n = some (.name n) ∧ '/' ∉ n.toList

instance : DecidablePred IsName := fun n =>
  inferInstanceAs (Decidable (component? n = some (.name n) ∧ '/' ∉ n.toList))

namespace IsName

theorem segments (h : IsName n) : Path.segments n = [n] := segments_of_not_mem h.2

theorem endsInStep (h : IsName n) : EndsInStep (Path.segments n) :=
  ⟨[], n, _, h.segments, h.1⟩

theorem isAbsolute (h : IsName n) : Path.isAbsolute n = false := by
  refine eq_false_of_ne_true fun habs => ?_
  have hhead := head?_segments_of_isAbsolute habs
  rw [h.segments] at hhead
  have hname := h.1
  rw [Option.some.inj hhead] at hname
  cases hname

theorem ne_blank (h : IsName n) : ¬ (n = "" ∨ n = ".") := fun hblank => by
  have hname := h.1
  rw [component?_eq_none_iff.mpr hblank] at hname
  cases hname

theorem ne_up (h : IsName n) : n ≠ ".." := by
  rintro rfl
  cases h.1

end IsName

theorem isName_of_ne (hblank : ¬ (n = "" ∨ n = ".")) (hup : n ≠ "..") (hslash : '/' ∉ n.toList) :
    IsName n := by
  refine ⟨?_, hslash⟩
  rw [component?, if_neg hblank, if_neg hup]

end Path

namespace FileTree

variable {t t' t'' : FileTree} {Q R : Place → Prop} {p q place dir : Place} {e : Entry} {path : Path}
  {follow : Bool} {links number : Nat} {segs : List String} {name : String} {slash : Bool}

/-! ## 1. Tidy trees -/

/-- A tree as there can be one on a disk: every entry has a place of its own, and a name. -/
structure IsTidy (t : FileTree) : Prop where
  nodup : (t.entries.map (·.1)).Nodup
  names : ∀ x ∈ t.entries, ∀ n ∈ x.1, Path.IsName n
  workDir : ∀ n ∈ t.workDir, Path.IsName n

instance (t : FileTree) : Decidable t.IsTidy :=
  decidable_of_iff ((t.entries.map (·.1)).Nodup ∧ (∀ x ∈ t.entries, ∀ n ∈ x.1, Path.IsName n) ∧
      ∀ n ∈ t.workDir, Path.IsName n)
    ⟨fun h => ⟨h.1, h.2.1, h.2.2⟩, fun h => ⟨h.nodup, h.names, h.workDir⟩⟩

theorem IsTidy.put (h : t.IsTidy) (hq : ∀ n ∈ q, Path.IsName n) (e : Entry) (number : Nat) :
    IsTidy { t.put q e with nextNumber := number } := by
  unfold FileTree.put
  split
  · have hkeys : ((t.entries.map fun x => if x.1 == q then (q, e) else x).map (·.1)) =
        t.entries.map (·.1) := by
      rw [List.map_map]
      refine List.map_congr_left fun x _ => ?_
      rw [Function.comp_apply]
      split
      · exact (eq_of_beq ‹_›).symm
      · rfl
    refine ⟨hkeys ▸ h.nodup, fun x hx => ?_, h.workDir⟩
    obtain ⟨y, hy, rfl⟩ := List.mem_map.mp hx
    split
    · exact hq
    · exact h.names y hy
  · rename_i hnone
    refine ⟨?_, fun x hx => ?_, h.workDir⟩
    · rw [List.map_append, List.map_singleton]
      refine h.nodup.append (List.nodup_singleton q) (List.disjoint_singleton.mpr fun hmem => hnone ?_)
      obtain ⟨x, hx, hxq⟩ := List.mem_map.mp hmem
      exact List.any_eq_true.mpr ⟨x, hx, beq_iff_eq.mpr hxq⟩
    · rcases List.mem_append.mp hx with hx | hx
      · exact h.names x hx
      · rw [List.mem_singleton.mp hx]
        exact hq

theorem entryAt?_isSome_iff (hp : p ≠ []) :
    (t.entryAt? p).isSome = true ↔ p ∈ t.entries.map (·.1) := by
  rw [entryAt?_of_ne_nil t hp, Option.isSome_map, List.find?_isSome, List.mem_map]
  simp

/-! ## 2. Growth -/

/-- All entries of a tree are in the other one as well, which has new files and directories at such
places only. -/
structure Grows (Q : Place → Prop) (t t' : FileTree) : Prop where
  workDir : t'.workDir = t.workDir
  old : ∀ p e, t.entryAt? p = some e → t'.entryAt? p = some e
  new : ∀ p e, t.entryAt? p = none → t'.entryAt? p = some e → Q p

namespace Grows

theorem refl (Q : Place → Prop) (t : FileTree) : Grows Q t t where
  workDir := rfl
  old _ _ h := h
  new _ _ hnone h := by cases hnone.symm.trans h

theorem trans (h : Grows Q t t') (h' : Grows Q t' t'') : Grows Q t t'' where
  workDir := h'.workDir.trans h.workDir
  old p e he := h'.old p e (h.old p e he)
  new p e hnone he := by
    cases hmiddle : t'.entryAt? p with
    | none => exact h'.new p e hmiddle he
    | some e' => exact h.new p e' hnone hmiddle

theorem mono (h : Grows Q t t') (hQ : ∀ p, Q p → R p) : Grows R t t' :=
  ⟨h.workDir, h.old, fun p e hnone he => hQ p (h.new p e hnone he)⟩

theorem keeps (h : Grows Q t t') : t.Keeps t' := ⟨h.workDir, fun p e he _ => h.old p e he⟩

theorem put (hnone : t.entryAt? q = none) (hq : q ≠ []) (hQ : Q q) (e : Entry) (number : Nat) :
    Grows Q t { t.put q e with nextNumber := number } where
  workDir := by
    rw [FileTree.put]
    split <;> rfl
  old p e' he := by
    have hne : p ≠ q := by
      rintro rfl
      cases hnone.symm.trans he
    exact (entryAt?_put_of_ne t e hne).trans he
  new p e' hfree he := by
    by_cases hne : p = q
    · rw [hne]
      exact hQ
    · cases hfree.symm.trans ((entryAt?_put_of_ne t e hne).symm.trans he)

/-- Whatever a path has led to, it leads to. -/
theorem becomes (h : Grows Q t t') (he : e = .directory ∨ t.entryAt? p = some e) :
    Stop.Becomes t' (.found p e) (.found p e) := by
  cases hfile : e.isFile with
  | false => exact .entry p e hfile
  | true =>
    rcases he with rfl | he
    · cases hfile
    · exact .file p e e hfile (h.old p e he) hfile

theorem seek (h : Grows Q t t') (hfound : t.seek follow path = .found p e) :
    t'.seek follow path = .found p e := by
  refine seek_of_becomes h.keeps (hfound ▸ h.becomes ?_)
  by_cases he : e = .directory
  · exact .inl he
  · exact .inr (entryAt?_of_seek hfound he)

theorem walk (h : Grows Q t t') (hfound : t.walk follow place segs = .found p e) :
    t'.walk follow place segs = .found p e := by
  refine walk_of_becomes h.keeps (hfound ▸ h.becomes ?_)
  by_cases he : e = .directory
  · exact .inl he
  · exact .inr (entryAt?_of_walk hfound he)

end Grows

/-! ## 3. Where there is nothing -/

/-- Whether the place where a walk has come to has names only. -/
def Stop.HasNames : Stop → Prop
  | .vacant dir name _ => ∀ n ∈ dir ++ [name], Path.IsName n
  | .link dir _ rest => (∀ n ∈ dir, Path.IsName n) ∧ ∀ s ∈ rest, '/' ∉ s.toList
  | _ => True

theorem Walks.hasNames (h : t.Walks follow place segs stop) (hplace : ∀ n ∈ place, Path.IsName n)
    (hsegs : ∀ s ∈ segs, '/' ∉ s.toList) : stop.HasNames := by
  have hnext : ∀ {s place}, IsStep s → '/' ∉ s.toList → (∀ n ∈ place, Path.IsName n) →
      ∀ n ∈ place ++ [s], Path.IsName n := by
    intro s place hs hslash hplace n hn
    rcases List.mem_append.mp hn with hn | hn
    · exact hplace n hn
    · rw [List.mem_singleton.mp hn]
      exact Path.isName_of_ne hs.ne_blank hs.ne_up hslash
  induction h with
  | stay _ _ ih => exact ih hplace (List.forall_mem_cons.mp hsegs).2
  | @up place _ _ _ ih =>
    exact ih (fun n hn => hplace n ((List.dropLast_sublist place).subset hn))
      (List.forall_mem_cons.mp hsegs).2
  | enter hs _ _ ih =>
    obtain ⟨hslash, hrest⟩ := List.forall_mem_cons.mp hsegs
    exact ih (hnext hs hslash hplace) hrest
  | link => exact ⟨hplace, (List.forall_mem_cons.mp hsegs).2⟩
  | vacant hs => exact hnext hs (hsegs _ List.mem_cons_self) hplace
  | _ => trivial

theorem LinkWalks.hasNames (h : t.LinkWalks follow links place segs stop)
    (hplace : ∀ n ∈ place, Path.IsName n) (hsegs : ∀ s ∈ segs, '/' ∉ s.toList) :
    stop.HasNames := by
  induction h with
  | done hwalk _ => exact hwalk ▸ (t.walks follow _ _).hasNames hplace hsegs
  | tooMany => trivial
  | @go links place place' segs rest target stop hwalk _ ih =>
    have hnames := (t.walks follow place segs).hasNames hplace hsegs
    rw [hwalk] at hnames
    refine ih (fun n hn => ?_) fun s hs => ?_
    · split at hn
      · cases hn
      · exact hnames.1 n hn
    · rcases List.mem_append.mp hs with hs | hs
      · exact Path.not_mem_of_mem_segments hs
      · exact hnames.2 s hs

theorem hasNames_of_walkLinks (hplace : ∀ n ∈ place, Path.IsName n)
    (hsegs : ∀ s ∈ segs, '/' ∉ s.toList) : (t.walkLinks follow links place segs).HasNames :=
  (t.linkWalks follow links place segs).hasNames hplace hsegs

theorem IsTidy.isName_of_seek (h : t.IsTidy) (hseek : t.seek follow path = .vacant dir name slash) :
    ∀ n ∈ dir ++ [name], Path.IsName n := by
  have hbase : ∀ n ∈ if path.isAbsolute then [] else t.workDir, Path.IsName n := by
    split
    · intro n hn
      cases hn
    · exact h.workDir
  have hnames : (t.walkLinks follow maxLinks (if path.isAbsolute then [] else t.workDir)
      path.segments).HasNames :=
    hasNames_of_walkLinks hbase fun s hs => Path.not_mem_of_mem_segments hs
  rw [walkLinks_of_seek hseek nofun] at hnames
  exact hnames

/-- What there is of a name in a directory. -/
def Stop.ofEntry (dir : Place) (name : String) : Option Entry → Stop
  | none => .vacant dir name false
  | some e => .found (dir ++ [name]) e

theorem Stop.ofEntry_ne_link (dir : Place) (name : String) (found? : Option Entry) (place : Place)
    (target : Path) (rest : List String) : ofEntry dir name found? ≠ .link place target rest := by
  intro h
  cases found? with
  | none => cases h
  | some e => cases h

/-- A path to a name in a directory leads to what there is of it, if that is no link, unless the path
cannot be followed at all. -/
theorem Leads.seek_name {left : Nat} (h : t.Leads path left dir) (hname : Path.IsName name)
    (hplain : ∀ target, t.entryAt? (dir ++ [name]) ≠ some (.link target)) :
    (∀ follow, t.seek follow (path.join name) = .ofEntry dir name (t.entryAt? (dir ++ [name]))) ∨
      ∃ e, e ≠ .notFound ∧ e ≠ .alreadyExists ∧
        ∀ follow, t.seek follow (path.join name) = .failed e := by
  -- the whole path is checked before the first step is made, and the name at its own step
  have hseek := fun follow =>
    (h.seek hname.isAbsolute hname.endsInStep : t.seek follow (path.join name) = _)
  by_cases hnul : (path.join name).toList.contains '\x00' = true
  · exact .inr ⟨.nulInPath, by decide, by decide, fun follow => by rw [hseek, if_pos hnul]⟩
  by_cases hlong : maxPath < (path.join name).utf8ByteSize
  · exact .inr ⟨.nameTooLong, by decide, by decide, fun follow => by
      rw [hseek, if_neg hnul, if_pos hlong]⟩
  by_cases hwide : maxName < name.utf8ByteSize
  · refine .inr ⟨.nameTooLong, by decide, by decide, fun follow => ?_⟩
    rw [hseek, if_neg hnul, if_neg hlong, hname.segments]
    refine walkLinks_of_walk ?_ (by simp) left
    rw [FileTree.walk, if_neg hname.ne_blank, if_neg hname.ne_up, if_pos hwide]
  · refine .inl fun follow => ?_
    have hwalk : t.walk follow dir [name] = .ofEntry dir name (t.entryAt? (dir ++ [name])) := by
      rw [FileTree.walk, if_neg hname.ne_blank, if_neg hname.ne_up, if_neg hwide]
      dsimp only
      cases hentry : t.entryAt? (dir ++ [name]) with
      | none => rfl
      | some e =>
        cases e with
        | link target => exact absurd hentry (hplain target)
        | _ => rfl
    rw [hseek, if_neg hnul, if_neg hlong, hname.segments]
    exact walkLinks_of_walk hwalk (Stop.ofEntry_ne_link dir name _) left

theorem Leads.seek_vacant {left : Nat} (h : t.Leads path left dir) (hname : Path.IsName name)
    (hnone : t.entryAt? (dir ++ [name]) = none) :
    (∀ follow, t.seek follow (path.join name) = .vacant dir name false) ∨
      ∃ e, e ≠ .notFound ∧ e ≠ .alreadyExists ∧
        ∀ follow, t.seek follow (path.join name) = .failed e := by
  have hseek := h.seek_name hname (by rw [hnone]; exact nofun)
  rwa [hnone] at hseek

/-- If the path to a name leads anywhere, it is to the entry of that name. -/
theorem Leads.eq_of_seek {left : Nat} {e' : Entry} (h : t.Leads path left dir) (hname : Path.IsName name)
    (hentry : t.entryAt? (dir ++ [name]) = some e) (hplain : ∀ target, e ≠ .link target)
    (hfound : t.seek true (path.join name) = .found place e') : place = dir ++ [name] ∧ e' = e := by
  rcases h.seek_name hname (fun target hlink => hplain target
    (Option.some.inj (hentry.symm.trans hlink))) with hseek | ⟨_, -, -, hfailed⟩
  · rw [hseek, hentry] at hfound
    cases hfound
    exact ⟨rfl, rfl⟩
  · cases (hfailed true).symm.trans hfound

theorem seek_of_seekNew (h : t.seekNew path = .vacant dir name slash) :
    t.seek false path.withoutSlashes = .vacant dir name slash := by
  unfold seekNew at h
  split at h
  · cases h
  · exact h

/-- Where there is no slash at the end, a new entry goes where the path leads to. -/
theorem seekNew_of_withoutSlashes (hpath : path ≠ "") (h : path.withoutSlashes = path) :
    t.seekNew path = t.seek false path := by
  unfold seekNew
  split
  · rename_i hlong
    rw [Bool.and_eq_true_iff, Bool.not_eq_true', decide_eq_true_eq] at hlong
    rw [seek, if_neg hpath, if_neg (Bool.not_eq_true _ ▸ hlong.2), if_pos hlong.1]
  · rw [h]

/-- A tree has grown, and is tidy if it was. -/
structure Made (t t' : FileTree) : Prop where
  grows : Grows (fun _ => True) t t'
  tidy : t.IsTidy → t'.IsTidy

theorem Made.refl (t : FileTree) : Made t t := ⟨.refl _ t, id⟩

theorem Made.trans (h : Made t t') (h' : Made t' t'') : Made t t'' :=
  ⟨h.grows.trans h'.grows, h'.tidy ∘ h.tidy⟩

/-! ## 4. Where a new entry goes -/

/-- Where a new entry goes, a directory that is made is what the path leads to. -/
theorem seek_of_put_directory (h : t.seekNew path = .vacant dir name slash) :
    (t.put (dir ++ [name]) .directory).seek true path = .found (dir ++ [name]) .directory := by
  have hnew := seek_of_seekNew h
  have hnone := entryAt?_of_seek_vacant hnew
  have hvacant : t.seek true path.withoutSlashes = .vacant dir name slash := by
    rcases t.seek_false path.withoutSlashes with hsame | ⟨p, target, hlink⟩
    · exact hsame.symm.trans hnew
    · cases hlink.symm.trans hnew
  have hgrows : Grows (fun _ => True) t (t.put (dir ++ [name]) .directory) :=
    .put hnone (by simp) trivial .directory (t.put (dir ++ [name]) .directory).nextNumber
  have hfound : (t.put (dir ++ [name]) .directory).seek true path.withoutSlashes =
      .found (dir ++ [name]) .directory := by
    refine seek_of_becomes hgrows.keeps (hvacant.symm ▸ ?_)
    exact .newDirectory dir name slash (entryAt?_put_self t .directory (by simp))
  -- with the slashes at its end it is not too long
  obtain ⟨habs, base, k, m, hpath, hwithout⟩ := Path.withoutSlashes_eq path
  have hwithoutSought : IsSought path.withoutSlashes := isSought_of_seek hfound nofun
  have hsought : IsSought path := by
    refine ⟨?_, fun hmem => hwithoutSought.no_nul ((Path.mem_withoutSlashes (by decide)).mpr hmem),
      ?_⟩
    · rintro rfl
      exact hwithoutSought.ne_empty rfl
    · by_contra hlong
      have hclean : path.toList.contains '\x00' = false := by
        refine eq_false_of_ne_true fun hmem => hwithoutSought.no_nul ?_
        exact (Path.mem_withoutSlashes (by decide)).mpr (List.contains_iff_mem.mp hmem)
      rw [seekNew, hclean, decide_eq_true (Nat.lt_of_not_le hlong)] at h
      cases h
  rw [seek_of_isSought hsought, hpath, walkLinks_slashes, ← habs]
  rwa [seek_of_isSought hwithoutSought, hwithout, walkLinks_slashes] at hfound

/-- A walk ends next to something at its last name. -/
theorem exists_of_walk_vacant (h : t.walk false dir segs = .vacant p name slash) :
    ∃ front blanks, segs = front ++ name :: blanks ∧ ∀ s ∈ blanks, s = "" := by
  have hwithin := (t.walks false dir segs).within
  rwa [h] at hwithin

/-- A walk that stops at a link before its end has something left to go. -/
theorem ne_nil_of_walk_link {target : Path} (h : t.walk false dir segs = .link p target rest) :
    rest ≠ [] := by
  have hwithin := (t.walks false dir segs).within
  rw [h] at hwithin
  exact hwithin.2 rfl

/-- A walk along segments that do not end in a slash ends next to something at the last of them. -/
theorem getLast?_of_walk_vacant (hlast : segs.getLast? ≠ some "")
    (h : t.walk false dir segs = .vacant p name slash) : segs.getLast? = some name := by
  obtain ⟨front, blanks, rfl, hblanks⟩ := exists_of_walk_vacant h
  rcases List.eq_nil_or_concat blanks with rfl | ⟨init, last, rfl⟩
  · exact List.getLast?_concat
  · refine absurd ?_ hlast
    have hall : front ++ name :: init.concat last = (front ++ name :: init) ++ [last] := by simp
    rw [hall, List.getLast?_concat, hblanks last (by simp)]

theorem LinkWalks.getLast? (h : t.LinkWalks false links dir segs stop)
    (hstop : stop = .vacant p name slash) (hlast : segs.getLast? ≠ some "") :
    segs.getLast? = some name := by
  induction h with
  | done hwalk _ => exact getLast?_of_walk_vacant hlast (hwalk.trans hstop)
  | tooMany => cases hstop
  | @go links dir dir' segs rest target stop hwalk _ ih =>
    -- what is left to go behind a link is the end of the path
    have hrest : (target.segments ++ rest).getLast? = segs.getLast? := by
      obtain ⟨front, rfl⟩ := suffix_of_walk_link hwalk
      rw [List.getLast?_append_of_ne_nil _ (ne_nil_of_walk_link hwalk),
        List.getLast?_append_of_ne_nil _ (ne_nil_of_walk_link hwalk)]
    rw [← hrest]
    exact ih hstop (hrest ▸ hlast)

theorem getLast?_of_walkLinks_vacant (hlast : segs.getLast? ≠ some "")
    (h : t.walkLinks false links dir segs = .vacant p name slash) : segs.getLast? = some name :=
  (t.linkWalks false links dir segs).getLast? h hlast

/-- A new entry has a name that stands in its path. -/
theorem mem_segments_of_seekNew (h : t.seekNew path = .vacant dir name slash) :
    name ∈ path.segments := by
  have hnew := seek_of_seekNew h
  obtain ⟨-, base, k, m, hpath, hwithout⟩ := Path.withoutSlashes_eq path
  have hroot : path.withoutSlashes ≠ "/" := by
    intro hroot
    rw [hroot] at hnew
    cases hnew
  have hempty := (isSought_of_seek hnew nofun).ne_empty
  have hlast : path.withoutSlashes.segments.getLast? ≠ some "" := fun hblank =>
    hroot (Path.eq_root_of_getLast? (Path.getLast?_of_segments hempty hblank))
  have hname := getLast?_of_walkLinks_vacant hlast (walkLinks_of_seek hnew nofun)
  have hmem := List.mem_of_getLast? hname
  rw [hwithout, List.mem_append] at hmem
  rw [hpath]
  rcases hmem with hmem | hmem
  · exact List.mem_append_left _ hmem
  · exact absurd (List.eq_of_mem_replicate hmem ▸ hname) hlast

theorem exists_seek_of_isDirectory (h : t.isDirectory path = true) :
    ∃ T, t.seek true path = .found T .directory := by
  unfold isDirectory at h
  split at h
  · exact ⟨_, look_eq_ok_iff.mp ‹_›⟩
  · cases h

end FileTree

namespace FileAction

variable {t t' : FileTree} {P : FileTree → Prop} {p path : Path} {above missing : List Path}
  {left : Nat} {dir : Place} {name : String}

/-! ## 5. Making directories -/

theorem makeDirectory_run (path : Path) (t : FileTree) :
    (makeDirectory path).run t = match t.seekNew path with
      | .found .. => (.error .alreadyExists, t)
      | .vacant dir name _ => (.ok (), t.put (dir ++ [name]) .directory)
      | .failed e => (.error e, t)
      | .link .. => (.error .alreadyExists, t) := by
  rw [makeDirectory, run_get]
  cases t.seekNew path <;> rfl

theorem makeDirectory_ok (h : (makeDirectory path).run t = (.ok (), t')) :
    FileTree.Made t t' := by
  rw [makeDirectory_run] at h
  split at h
  · cases h
  · rename_i dir name slash hseek
    cases h
    have hseek := FileTree.seek_of_seekNew hseek
    have hnone := FileTree.entryAt?_of_seek_vacant hseek
    have hput : t.put (dir ++ [name]) .directory = { t.put (dir ++ [name]) .directory with
        nextNumber := (t.put (dir ++ [name]) .directory).nextNumber } := rfl
    rw [hput]
    exact ⟨.put hnone (by simp) trivial _ _, fun htidy => htidy.put (htidy.isName_of_seek hseek) _ _⟩
  · cases h
  · cases h

/-- A directory that is there already will do. -/
theorem run_accept {α : Type} (result : α) (p : Path) (e : FileError) (t : FileTree) :
    FileAction.run (do
      if e = .alreadyExists ∧ (← get).isDirectory p then return result else throw e) t =
      if e = .alreadyExists ∧ t.isDirectory p then (.ok result, t) else (.error e, t) := by
  rw [run_get]
  split <;> rfl

theorem makeDirectories_run (p : Path) (above : List Path) (t : FileTree) :
    (makeDirectories (p :: above)).run t = match (makeDirectories above).run t with
      | (.ok (), t) =>
          match (makeDirectory p).run t with
          | (.ok (), t') => (.ok (), t')
          | (.error e, _) =>
              if e = .alreadyExists ∧ t.isDirectory p then (.ok (), t) else (.error e, t)
      | (.error e, t) => (.error e, t) := by
  rw [makeDirectories, run_bind]
  generalize (makeDirectories above).run t = r
  obtain ⟨result, t⟩ := r
  cases result with
  | error e => rfl
  | ok u =>
    dsimp only
    rw [run_get]
    generalize (makeDirectory p).run t = r
    obtain ⟨result, t'⟩ := r
    cases result with
    | ok u => rfl
    | error e => exact run_accept () p e t

theorem findBase_run (missing : List Path) (p : Path) (above : List Path) (t : FileTree) :
    (findBase missing (p :: above)).run t = match (makeDirectory p).run t with
      | (.ok (), t') => (.ok missing, t')
      | (.error .notFound, _) => (findBase (missing ++ [p]) above).run t
      | (.error e, _) =>
          if e = .alreadyExists ∧ t.isDirectory p then (.ok missing, t) else (.error e, t) := by
  rw [findBase, run_get]
  generalize (makeDirectory p).run t = r
  obtain ⟨result, t'⟩ := r
  cases result with
  | ok u => rfl
  | error e =>
    cases e with
    | notFound => rfl
    | _ => exact run_accept missing p _ t

/-- What is preserved whenever one of the directories is made, is preserved when all are, and when
one of them cannot be made. -/
theorem makeDirectories_preserves
    (hmake : ∀ a ∈ above, ∀ t t', P t → (makeDirectory a).run t = (.ok (), t') → P t') (h : P t) :
    P ((makeDirectories above).run t).2 := by
  induction above with
  | nil => exact h
  | cons p above ih =>
    have habove := ih fun a ha => hmake a (List.mem_cons_of_mem p ha)
    rw [makeDirectories_run]
    split
    · rename_i t₁ hfirst
      rw [hfirst] at habove
      split
      · rename_i t₂ hlast
        exact hmake p List.mem_cons_self t₁ t₂ habove hlast
      · split <;> exact habove
    · rename_i e t₁ hfirst
      rwa [hfirst] at habove

theorem findBase_preserves
    (hmake : ∀ a ∈ above, ∀ t t', P t → (makeDirectory a).run t = (.ok (), t') → P t') (h : P t) :
    P ((findBase missing above).run t).2 := by
  induction above generalizing missing with
  | nil => exact h
  | cons p above ih =>
    rw [findBase_run]
    split
    · rename_i t₁ hmade
      exact hmake p List.mem_cons_self t t₁ h hmade
    · exact ih fun a ha => hmake a (List.mem_cons_of_mem p ha)
    · split <;> exact h

/-- The directories that are still to be made are the first ones, up to one that is there. -/
theorem front_of_findBase {rest : List Path} (h : (findBase missing above).run t = (.ok rest, t')) :
    ∃ front, front <+: above ∧ rest = missing ++ front := by
  have hnone : rest = missing → ∃ front, front <+: above ∧ rest = missing ++ front := fun hrest =>
    ⟨[], List.nil_prefix, hrest.trans (List.append_nil missing).symm⟩
  induction above generalizing missing with
  | nil =>
    cases h
    exact hnone rfl
  | cons p above ih =>
    rw [findBase_run] at h
    split at h
    · cases h
      exact hnone rfl
    · obtain ⟨front, hfront, rfl⟩ := ih h fun hrest =>
        ⟨[], List.nil_prefix, hrest.trans (List.append_nil _).symm⟩
      exact ⟨p :: front, List.cons_prefix_cons.mpr ⟨rfl, hfront⟩, List.append_assoc missing [p] front⟩
    · split at h
      · cases h
        exact hnone rfl
      · cases h

theorem makeDirectoryAll_preserves
    (hmake : ∀ a ∈ ancestors path, ∀ t t', P t → (makeDirectory a).run t = (.ok (), t') → P t')
    (h : P t) : P ((makeDirectoryAll path).run t).2 := by
  have hbase : P ((findBase [] (ancestors path)).run t).2 := findBase_preserves hmake h
  rw [makeDirectoryAll, run_bind]
  split
  · rename_i rest t₁ hfound
    rw [hfound] at hbase
    obtain ⟨front, hfront, rfl⟩ := front_of_findBase hfound
    exact makeDirectories_preserves (fun a ha => hmake a (hfront.subset ha)) hbase
  · rename_i e t₁ hfound
    rwa [hfound] at hbase

/-- Making a directory with its ancestors adds directories, and changes nothing else. -/
theorem made_of_makeDirectoryAll (h : (makeDirectoryAll p).run t = (.ok (), t')) :
    FileTree.Made t t' := by
  have hmade : FileTree.Made t ((makeDirectoryAll p).run t).2 :=
    makeDirectoryAll_preserves (fun _ _ _ _ hmade h => hmade.trans (makeDirectory_ok h)) (.refl t)
  rwa [h] at hmade

theorem exists_seek_of_makeDirectory (h : (makeDirectory path).run t = (.ok (), t')) :
    ∃ T, t'.seek true path = .found T .directory := by
  rw [makeDirectory_run] at h
  split at h
  · cases h
  · rename_i dir name slash hseek
    cases h
    exact ⟨_, FileTree.seek_of_put_directory hseek⟩
  · cases h
  · cases h

theorem exists_seek_of_makeDirectories (h : (makeDirectories (p :: above)).run t = (.ok (), t')) :
    ∃ T, t'.seek true p = .found T .directory := by
  rw [makeDirectories_run] at h
  split at h
  · split at h
    · cases h
      exact exists_seek_of_makeDirectory ‹_›
    · split at h
      · rename_i hexists
        cases h
        exact FileTree.exists_seek_of_isDirectory hexists.2
      · cases h
  · cases h

/-- A path leads to the directory that has been made there. -/
theorem exists_seek_of_makeDirectoryAll (hpath : ancestors path = path :: above)
    (h : (makeDirectoryAll path).run t = (.ok (), t')) :
    ∃ T, t'.seek true path = .found T .directory := by
  rw [makeDirectoryAll, run_bind, hpath, findBase_run] at h
  split at h
  · rename_i rest t₁ hbase
    split at hbase
    · rename_i t₂ hmade
      cases hbase
      cases h
      exact exists_seek_of_makeDirectory hmade
    · obtain ⟨front, -, rfl⟩ := front_of_findBase hbase
      exact exists_seek_of_makeDirectories h
    · split at hbase
      · rename_i hexists
        cases hbase
        cases h
        exact FileTree.exists_seek_of_isDirectory hexists.2
      · cases hbase
  · cases h

/-! ## 6. One more directory -/

theorem withoutSlashes_join {dir : Path} {name : String} (hname : Path.IsName name) :
    (dir.join name).withoutSlashes = dir.join name := by
  obtain ⟨base, hbase⟩ := Path.exists_join_eq_append dir
  have hne : name.toList ≠ [] := fun hnil =>
    hname.ne_blank (.inl (String.toList_eq_nil_iff.mp hnil))
  obtain ⟨cs, c, hcs⟩ := (List.eq_nil_or_concat name.toList).resolve_left hne
  rw [List.concat_eq_append] at hcs
  have hc : (c == '/') = false := by
    refine beq_eq_false_iff_ne.mpr fun hslash => hname.2 ?_
    rw [hcs, hslash]
    simp
  have hall : (base ++ name).toList = (base.toList ++ cs) ++ [c] := by
    rw [String.toList_append, hcs, List.append_assoc]
  have hkept : Text.dropEndWhile (· == '/') (base ++ name).toList = (base ++ name).toList := by
    rw [hall, Text.dropEndWhile, List.reverse_concat, List.dropWhile_cons_of_neg (by simp [hc]),
      ← List.reverse_concat, List.reverse_reverse]
  rw [hbase name hname.isAbsolute, Path.withoutSlashes, hkept]
  split
  · rename_i hnil
    rw [hall] at hnil
    simp at hnil
  · exact String.ofList_toList

theorem ancestors_join {dir : Path} {name : String} (hdir : dir ≠ "") (hname : Path.IsName name) :
    ∃ above, ancestors (dir.join name) = dir.join name :: above := by
  obtain ⟨stem, hstem⟩ := Path.exists_isStem hdir
  have hsegs : (dir.join name).segments.reverse = name :: stem.reverse := by
    rw [hstem.join name hname.isAbsolute, hname.segments]
    simp
  rw [ancestors, hsegs, stepTails, if_neg hname.ne_blank]
  exact ⟨_, rfl⟩

/-- A directory that is made in another one is the only thing that is new. -/
theorem makeDirectoryAll_child (hleads : t.Leads path left dir) (hname : Path.IsName name)
    (hnone : t.entryAt? (dir ++ [name]) = none)
    (h : (makeDirectoryAll (path.join name)).run t = (.ok (), t')) :
    t' = t.put (dir ++ [name]) .directory ∧
      t'.seek true (path.join name) = .found (dir ++ [name]) .directory := by
  obtain ⟨above, habove⟩ := ancestors_join hleads.ne_empty hname
  rw [makeDirectoryAll, run_bind, habove, findBase_run, makeDirectory_run,
    FileTree.seekNew_of_withoutSlashes (Path.join_ne_empty hleads.ne_empty hname.isAbsolute)
      (withoutSlashes_join hname)] at h
  rcases hleads.seek_vacant hname hnone with hvacant | ⟨e, hmissing, hexists, hfailed⟩
  · rw [hvacant] at h
    cases h
    refine ⟨rfl, FileTree.seek_of_becomes (FileTree.Grows.put hnone (by simp) (Q := fun _ => True)
      trivial .directory (t.put (dir ++ [name]) .directory).nextNumber).keeps ?_⟩
    rw [hvacant]
    exact .newDirectory dir name false (FileTree.entryAt?_put_self t .directory (by simp))
  · rw [hfailed] at h
    cases e with
    | notFound => exact absurd rfl hmissing
    | alreadyExists => exact absurd rfl hexists
    | _ => cases h

end FileAction

end Playground
