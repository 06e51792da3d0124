import Playground.Proofs.Files.Copy
import Playground.Proofs.Files.Folded
/-!
# Copies that leave their source alone

A copy of a directory writes where its destination folds to and below, and on the way there it makes
what is missing of the destination as it is written.  None of it is in the source unless the way leads
through the source, or the source lies below the destination and has a directory again where it lies
itself.
-/

namespace Playground

namespace FileTree

variable {t t₀ t₁ t' : FileTree} {Q R : Place → Prop} {p q S D P T : Place} {e : Entry}
  {path source target : Path} {name omitted : String} {rel : List String}

/-! ## 1. Places that are left alone -/

/-- From one tree to the other, the entries at such places have stayed as they are, and no link has come
up anywhere. -/
structure KeepsAt (Q : Place → Prop) (t t' : FileTree) : Prop where
  workDir : t'.workDir = t.workDir
  linkless : t.IsLinkless → t'.IsLinkless
  tidy : t.IsTidy → t'.IsTidy
  same : ∀ q, Q q → t'.entryAt? q = t.entryAt? q

namespace KeepsAt

theorem refl (Q : Place → Prop) (t : FileTree) : KeepsAt Q t t := ⟨rfl, id, id, fun _ _ => rfl⟩

theorem trans (h : KeepsAt Q t t₁) (h' : KeepsAt Q t₁ t') : KeepsAt Q t t' where
  workDir := h'.workDir.trans h.workDir
  linkless := h'.linkless ∘ h.linkless
  tidy := h'.tidy ∘ h.tidy
  same q hq := (h'.same q hq).trans (h.same q hq)

theorem mono (h : KeepsAt Q t t') (hQ : ∀ q, R q → Q q) : KeepsAt R t t' :=
  ⟨h.workDir, h.linkless, h.tidy, fun q hq => h.same q (hQ q hq)⟩

theorem put (h : KeepsAt Q t₀ t) (hQ : ¬ Q q) (hnames : ∀ n ∈ q, Path.IsName n)
    (he : e.isLink = false) (number : Nat) :
    KeepsAt Q t₀ { t.put q e with nextNumber := number } where
  workDir := by
    rw [← h.workDir, FileTree.put]
    split <;> rfl
  linkless hl := (h.linkless hl).put he number
  tidy htidy := (h.tidy htidy).put hnames e number
  same p hp := by
    have hne : p ≠ q := fun heq => hQ (heq ▸ hp)
    exact (entryAt?_put_of_ne t e hne).trans (h.same p hp)

theorem origin (h : KeepsAt Q t t') (path : Path) : t'.origin path = t.origin path := by
  rw [FileTree.origin, FileTree.origin, h.workDir]

theorem folded (h : KeepsAt Q t t') (path : Path) : t'.folded path = t.folded path := by
  rw [FileTree.folded, FileTree.folded, h.origin]

theorem passes (h : KeepsAt Q t t') (path : Path) (q : Place) :
    t'.Passes path q ↔ t.Passes path q := by
  rw [Passes, Passes, h.origin]

end KeepsAt

end FileTree

namespace FileAction

open FileTree (KeepsAt)

variable {t t₀ : FileTree} {Q : Place → Prop} {q : Place} {path source : Path} {bytes : List UInt8}

/-- Making a directory leaves alone what its path passes, if that is there. -/
theorem makeDirectoryAll_keepsAt (hl : t₀.IsLinkless) (htidy : t₀.IsTidy) (h : KeepsAt Q t₀ t)
    (hthere : ∀ q, t₀.Passes path q → Q q → (t₀.entryAt? q).isSome = true) :
    KeepsAt Q t₀ ((makeDirectoryAll path).run t).2 := by
  refine makeDirectoryAll_preserves (fun a ha t t' h hmade => ?_) h
  obtain ⟨rfl, hnone, -⟩ := makeDirectory_put ((h.linkless hl).isClear a) hmade
  have hpasses := (h.passes path _).mp (passes_of_mem_ancestors ha (t.passes_folded a))
  refine h.put (fun hQ => ?_) ((h.tidy htidy).isName_folded a) rfl
    (t.put (t.folded a) .directory).nextNumber
  have hsome := hthere _ hpasses hQ
  rw [← h.same _ hQ, hnone] at hsome
  cases hsome

/-- Writing a file leaves everything else alone, and a directory that is in its place. -/
theorem write_keepsAt (hl : t₀.IsLinkless) (htidy : t₀.IsTidy) (h : KeepsAt Q t₀ t)
    (hfree : ¬ Q (t₀.folded path) ∨ t.entryAt? (t₀.folded path) = some .directory) :
    KeepsAt Q t₀ ((write path bytes).run t).2 := by
  rw [← h.folded] at hfree
  have hnames := (h.tidy htidy).isName_folded path
  have hput : ∀ n bytes number, t.entryAt? (t.folded path) ≠ some .directory →
      KeepsAt Q t₀ { t.put (t.folded path) (.file n bytes) with nextNumber := number } :=
    fun n bytes number hfile => h.put (hfree.resolve_right hfile) hnames rfl number
  rw [write_run]
  split
  · rename_i place n old hseek
    have hentry := FileTree.entryAt?_of_seek hseek nofun
    obtain rfl := FileTree.eq_folded_of_seek (h.linkless hl) hseek
    exact hput n bytes _ (by rw [hentry]; exact nofun)
  · exact h
  · rename_i dir name slash hseek
    have hentry := FileTree.entryAt?_of_seek_vacant hseek
    have hplace := FileTree.eq_folded_of_seek_vacant (h.linkless hl) hseek
    split
    · exact h
    · rw [hplace] at hentry ⊢
      exact hput _ bytes _ (by rw [hentry]; exact nofun)
  · exact h
  · exact h

theorem write_of_directory (hl : t.IsLinkless) (h : t.entryAt? (t.folded path) = some .directory) :
    ∃ e, (write path bytes).run t = (.error e, t) := by
  rw [write_run]
  split
  · rename_i place n old hseek
    have hentry := FileTree.entryAt?_of_seek hseek nofun
    rw [FileTree.eq_folded_of_seek hl hseek, h] at hentry
    cases hentry
  · exact ⟨_, rfl⟩
  · rename_i dir name slash hseek
    have hentry := FileTree.entryAt?_of_seek_vacant hseek
    rw [FileTree.eq_folded_of_seek_vacant hl hseek, h] at hentry
    cases hentry
  · exact ⟨_, rfl⟩
  · exact ⟨_, rfl⟩

theorem copyFile_keepsAt (hl : t₀.IsLinkless) (htidy : t₀.IsTidy) (h : KeepsAt Q t₀ t)
    (hfree : ¬ Q (t₀.folded path) ∨ t.entryAt? (t₀.folded path) = some .directory) :
    KeepsAt Q t₀ ((copyFile source path).run t).2 := by
  rw [copyFile_run]
  split
  · rename_i place number bytes hlook
    have hemptied : KeepsAt Q t₀ ((write path []).run t).2 := write_keepsAt hl htidy h hfree
    split
    · rename_i t₁ hwrite
      rw [hwrite] at hemptied
      -- no file is written in the place of a directory
      have hfree₁ : ¬ Q (t₀.folded path) := by
        refine hfree.resolve_right fun hdirectory => ?_
        rw [← h.folded] at hdirectory
        obtain ⟨e, herror⟩ : ∃ e, (write path []).run t = (.error e, t) :=
          write_of_directory (h.linkless hl) hdirectory
        rw [hwrite] at herror
        cases herror
      split
      · split
        · exact hemptied
        · exact write_keepsAt hl htidy hemptied (.inl hfree₁)
      · exact write_keepsAt hl htidy hemptied (.inl hfree₁)
    · rename_i e t₁ hwrite
      rwa [hwrite] at hemptied
  · exact h
  · exact h

theorem forM_preserves {P : FileTree → Prop} {f : String → FileAction Unit} {names : List String}
    (hf : ∀ name ∈ names, ∀ t, P t → P ((f name).run t).2) (h : P t) :
    P ((names.forM f).run t).2 := by
  induction names generalizing t with
  | nil => exact h
  | cons name names ih =>
    have hfirst := hf name List.mem_cons_self t h
    rw [forM_run]
    split
    · rename_i u t₁ hrun
      rw [hrun] at hfirst
      exact ih (fun n hn => hf n (List.mem_cons_of_mem name hn)) hfirst
    · rename_i e t₁ hrun
      rwa [hrun] at hfirst

end FileAction

namespace FileTree

variable {t t₀ t₁ t' : FileTree} {p q S D P T : Place} {e : Entry}
  {path source target : Path} {name omitted : String} {rel : List String} {depth : Nat}

/-! ## 2. Directories that are copied -/

/-- The places of a directory and of everything in it, but for the entry that is left out. -/
def Belongs (S : Place) (omitted : String) (q : Place) : Prop := S <+: q ∧ q ≠ S ++ [omitted]

/-- A destination for a copy of the directory `S` that does not get in the way of the directory. -/
structure IsAside (t : FileTree) (S : Place) (omitted : String) (target : Path) : Prop where
  /-- What the way to the destination passes in the directory is there. -/
  detour : ∀ q, t.Passes target q → Belongs S omitted q → (t.entryAt? q).isSome = true
  /-- If the directory lies below the destination, the same names lead to no directory in it. -/
  overlap : ∀ r, r ≠ [] → omitted ∉ r → S = t.folded target ++ r →
    t.entryAt? (S ++ r) ≠ some .directory

theorem IsAside.of_keepsAt (h : t.IsAside S omitted target) (hkeeps : KeepsAt (Belongs S omitted) t t') :
    t'.IsAside S omitted target where
  detour q hq hbelongs := by
    rw [hkeeps.same q hbelongs]
    exact h.detour q ((hkeeps.passes target q).mp hq) hbelongs
  overlap r hr homitted hS := by
    rw [hkeeps.folded] at hS
    rw [hkeeps.same]
    · exact h.overlap r hr homitted hS
    · refine ⟨List.prefix_append S r, fun heq => homitted ?_⟩
      rw [List.append_cancel_left heq]
      exact List.mem_singleton_self omitted

/-- The names in `rel` lead from a directory to others in it, one below the other. -/
structure Descends (t : FileTree) (S : Place) (omitted : String) (rel : List String) : Prop where
  visited : ∀ front, front <+: rel → front ≠ [] → t.entryAt? (S ++ front) = some .directory
  kept : omitted ∉ rel

namespace Descends

theorem nil (t : FileTree) (S : Place) (omitted : String) : Descends t S omitted [] where
  visited _ hfront hne := absurd (List.prefix_nil.mp hfront) hne
  kept := List.not_mem_nil

theorem concat (h : t.Descends S omitted rel) (hkept : name ≠ omitted)
    (hdirectory : t.entryAt? (S ++ rel ++ [name]) = some .directory) :
    t.Descends S omitted (rel ++ [name]) where
  visited front hfront hne := by
    rcases List.prefix_concat_iff.mp hfront with rfl | hfront
    · rwa [← List.append_assoc]
    · exact h.visited front hfront hne
  kept hmem := by
    rcases List.mem_append.mp hmem with hmem | hmem
    · exact h.kept hmem
    · exact hkept (List.mem_singleton.mp hmem).symm

/-- A copy that follows the directories of its source does not come into the source. -/
theorem not_below (h : t.Descends S omitted rel) (haside : t.IsAside S omitted target)
    (houtside : ¬ S <+: t.folded target) : ¬ S <+: t.folded target ++ rel := by
  intro hprefix
  rcases List.prefix_or_prefix_of_prefix hprefix (List.prefix_append _ rel) with hS | ⟨r, hr⟩
  · exact houtside hS
  · have hne : r ≠ [] := by
      rintro rfl
      rw [List.append_nil] at hr
      exact houtside (hr ▸ List.prefix_refl _)
    have hrel : r <+: rel := by
      rw [← hr] at hprefix
      exact (List.prefix_append_right_inj _).mp hprefix
    exact haside.overlap r hne (fun hmem => h.kept (hrel.subset hmem)) hr.symm
      (h.visited r hrel hne)

end Descends

/-- A copy of directory `S` to `target` has come to the names in `rel`: it reads the directory there by
one path, and writes the one at the same names of the destination by another. -/
structure CopiesAt (t : FileTree) (S : Place) (omitted : String) (target : Path) (rel : List String)
    (reading writing : Path) : Prop where
  reading_ne : reading ≠ ""
  writing_ne : writing ≠ ""
  reads : t.folded reading = S ++ rel
  writes : t.folded writing = t.folded target ++ rel
  there : ∀ q, t.Passes writing q → Belongs S omitted q → (t.entryAt? q).isSome = true
  descends : t.Descends S omitted rel

variable {reading writing : Path}

theorem CopiesAt.child (hc : t.CopiesAt S omitted target rel reading writing)
    (hname : Path.IsName name) (hkept : name ≠ omitted)
    (hdirectory : t.entryAt? (S ++ rel ++ [name]) = some .directory)
    (haside : t.IsAside S omitted target) (houtside : ¬ S <+: t.folded target) :
    t.CopiesAt S omitted target (rel ++ [name]) (reading.join name) (writing.join name) where
  reading_ne := Path.join_ne_empty hc.reading_ne hname.isAbsolute
  writing_ne := Path.join_ne_empty hc.writing_ne hname.isAbsolute
  reads := by rw [folded_join t hc.reading_ne hname, hc.reads, List.append_assoc]
  writes := by rw [folded_join t hc.writing_ne hname, hc.writes, List.append_assoc]
  there q hq hbelongs := by
    rcases passes_join hc.writing_ne hname hq with hq | rfl
    · exact hc.there q hq hbelongs
    · have hbelow := hbelongs.1
      rw [hc.writes, List.append_assoc] at hbelow
      exact absurd hbelow ((hc.descends.concat hkept hdirectory).not_below haside houtside)
  descends := hc.descends.concat hkept hdirectory

end FileTree

namespace FileAction

open FileTree (KeepsAt Belongs IsAside CopiesAt)

variable {t t₀ : FileTree} {S : Place} {source target reading writing : Path} {omitted name : String}
  {rel : List String} {depth : Nat}

/-- What is no directory is written outside the source, or not at all. -/
theorem copyFile_child_keepsAt (hl : t₀.IsLinkless) (htidy : t₀.IsTidy)
    (hS : t₀.entryAt? S = some .directory) (haside : t₀.IsAside S omitted target)
    (houtside : ¬ S <+: t₀.folded target)
    (hc : t₀.CopiesAt S omitted target rel reading writing) (hname : Path.IsName name)
    (h : KeepsAt (Belongs S omitted) t₀ t) :
    KeepsAt (Belongs S omitted) t₀ ((copyFile source (writing.join name)).run t).2 := by
  refine copyFile_keepsAt hl htidy h ?_
  rw [FileTree.folded_join t₀ hc.writing_ne hname]
  by_cases hplace : S = t₀.folded writing ++ [name]
  · right
    rw [← hplace, h.same S ⟨List.prefix_refl S, by simp⟩, hS]
  · left
    rintro ⟨hbelow, -⟩
    rcases List.prefix_concat_iff.mp hbelow with heq | hbelow
    · exact hplace heq
    · rw [hc.writes] at hbelow
      exact hc.descends.not_below haside houtside hbelow

/-- Wherever a copy has come to, it leaves alone the directory that it copies. -/
theorem copyDirectory_keepsAt (hl : t₀.IsLinkless) (htidy : t₀.IsTidy)
    (hS : t₀.entryAt? S = some .directory) (haside : t₀.IsAside S omitted target)
    (houtside : ¬ S <+: t₀.folded target)
    (hc : t₀.CopiesAt S omitted target rel reading writing) (h : KeepsAt (Belongs S omitted) t₀ t) :
    KeepsAt (Belongs S omitted) t₀ ((copyDirectory omitted depth reading writing).run t).2 := by
  -- without links the place that is read is the one that the source folds to, at every depth
  induction depth generalizing rel reading writing t with
  | zero => exact h
  | succ depth ih =>
    have hmade := makeDirectoryAll_keepsAt hl htidy h hc.there
    rw [copyDirectory_run]
    split
    · rename_i t₁ hrun
      rw [hrun] at hmade
      split
      · rename_i place hlook
        have hplace := FileTree.eq_folded_of_seek (hmade.linkless hl)
          (FileTree.look_eq_ok_iff.mp hlook)
        rw [hmade.folded, hc.reads] at hplace
        subst hplace
        refine forM_preserves (fun name hmem t h => ?_) hmade
        have hname := (hmade.tidy htidy).isName_of_mem_listing hmem
        rw [copyEntry_run]
        split
        · exact h
        · rename_i hkept
          cases hentry : t.entryAt? (S ++ rel ++ [name]) with
          | none => exact h
          | some e =>
            have hchild : KeepsAt (Belongs S omitted) t₀
                ((copyFile (reading.join name) (writing.join name)).run t).2 :=
              copyFile_child_keepsAt hl htidy hS haside houtside hc hname h
            cases e with
            | file n bytes => exact hchild
            | link target => exact hchild
            | directory =>
              refine ih (hc.child hname hkept ?_ haside houtside) h
              rw [← h.same _ ⟨?_, ?_⟩, hentry]
              · rw [List.append_assoc]
                exact List.prefix_append S _
              · -- a name further down is not the one that is left out at the top
                intro heq
                rw [List.append_assoc] at heq
                have hlast := List.append_cancel_left heq
                exact hkept (List.append_singleton_inj.mp
                  (hlast.trans (List.nil_append [omitted]).symm)).2
      · exact hmade
      · exact hmade
    · rename_i e t₁ hrun
      rwa [hrun] at hmade

/-! ## 3. Copies of directories -/

/-- A copy of a directory leaves the directory alone, whether it goes well or not. -/
theorem copyOutside_keepsAt (hl : t.IsLinkless) (htidy : t.IsTidy)
    (hsource : t.folded source = S) (hS : t.entryAt? S = some .directory)
    (haside : t.IsAside S omitted target) :
    KeepsAt (Belongs S omitted) t ((copyOutside omitted source target).run t).2 := by
  rw [copyOutside_run]
  cases hresolve : t.resolve target with
  | error e => exact .refl _ t
  | ok destination =>
    obtain ⟨htarget, rfl⟩ := FileTree.eq_folded_of_resolve hl htidy hresolve
    cases hlook : t.look true source with
    | error e => exact .refl _ t
    | ok found =>
      obtain ⟨place, e⟩ := found
      obtain rfl : place = S :=
        (FileTree.eq_folded_of_seek hl (FileTree.look_eq_ok_iff.mp hlook)).trans hsource
      dsimp only
      split
      · exact .refl _ t
      · rename_i houtside
        have hne : source ≠ "" := by
          rintro rfl
          cases hlook
        rw [List.isPrefixOf_iff_prefix] at houtside
        refine copyDirectory_keepsAt hl htidy hS haside houtside ⟨hne, htarget, ?_, ?_, ?_, .nil ..⟩
          (.refl _ t)
        · rw [hsource, List.append_nil]
        · rw [List.append_nil]
        · exact haside.detour

-- a directory that has its own name again in it, copied to the directory above it
example : let t := ((((FileTree.empty.put ["work", "a"] .directory).put ["work", "a", "b"] .directory).put
      ["work", "a", "b", "b"] .directory).put ["work", "a", "b", "b", "f"] (.file 0 []))
    ((t.entryAt? ["work", "a", "b", "f"]).isSome,
      (((copyOutside "lock" "a/b" "a").run t).2.entryAt? ["work", "a", "b", "f"]).isSome) =
        (false, true) := by decide +kernel

/-- A copy into the directory that is copied fails before it has changed anything. -/
theorem copyOutside_inside (omitted : String) (hl : t.IsLinkless) (htidy : t.IsTidy) (hsource : t.folded source = S)
    (htarget : S <+: t.folded target) :
    ∃ e, (copyOutside omitted source target).run t = (.error e, t) := by
  rw [copyOutside_run]
  cases hresolve : t.resolve target with
  | error e => exact ⟨e, rfl⟩
  | ok destination =>
    obtain ⟨-, rfl⟩ := FileTree.eq_folded_of_resolve hl htidy hresolve
    cases hlook : t.look true source with
    | error e => exact ⟨e, rfl⟩
    | ok found =>
      obtain ⟨place, e⟩ := found
      have hplace := FileTree.eq_folded_of_seek hl (FileTree.look_eq_ok_iff.mp hlook)
      dsimp only
      rw [hplace, hsource, List.isPrefixOf_iff_prefix.mpr htarget, if_pos rfl]
      exact ⟨.insideSource, rfl⟩

end FileAction

end Playground
