import Playground.Files.Action
import Playground.Proofs.Files.Walk
/-!
# What file actions change

What an action does is written out case by case, and with it what the paths lead to afterwards: to the
file that was opened, to the bytes that were written, to no file where one was removed.
-/

namespace Playground

namespace FileTree

variable {t t' : FileTree} {q : Place} {e : Entry} {path : Path} {bytes : List UInt8} {n : Nat}

/-! ## 1. Trees that keep directories and links -/

/-- A file that is put where there is nothing, or a file, leaves directories and links alone. -/
theorem keeps_put (h : ∀ e, t.entryAt? q = some e → e.isFile = true) (new : Entry) (number : Nat) :
    t.Keeps { t.put q new with nextNumber := number } where
  workDir := by
    rw [put]
    split <;> rfl
  entries p e hp he := by
    have hne : p ≠ q := by
      rintro rfl
      exact absurd (h e hp) (by rw [he]; exact Bool.false_ne_true)
    exact (entryAt?_put_of_ne t new hne).trans hp

/-- A tree in which a file has been put has no other directories and links than before. -/
theorem keeps_of_put (hq : q ≠ []) (he : e.isFile = true) (number : Nat) :
    Keeps { t.put q e with nextNumber := number } t where
  workDir := by
    rw [put]
    split <;> rfl
  entries p e' hp he' := by
    have hp : (t.put q e).entryAt? p = some e' := hp
    have hne : p ≠ q := by
      rintro rfl
      rw [entryAt?_put_self t e hq] at hp
      rw [← Option.some.inj hp, he] at he'
      cases he'
    rwa [entryAt?_put_of_ne t e hne] at hp

/-- What is left after pruning was there before. -/
theorem entryAt?_of_prune {p : Place} (h : (t.prune q).entryAt? p = some e) :
    t.entryAt? p = some e := by
  by_cases hp : p = []
  · rw [hp] at h ⊢
    exact h
  by_cases hq : q <+: p
  · rw [entryAt?_prune_below hp hq] at h
    cases h
  · rwa [entryAt?_prune_of_not hq] at h

theorem keeps_of_prune : (t.prune q).Keeps t := ⟨rfl, fun _ _ h _ => entryAt?_of_prune h⟩

theorem read_eq_ok_iff :
    t.read path = .ok bytes ↔ ∃ place n, t.seek true path = .found place (.file n bytes) := by
  unfold read look
  constructor
  · intro h
    split at h
    · rename_i place n _ hlook
      cases h
      split at hlook <;> cases hlook
      exact ⟨_, _, by assumption⟩
    · cases h
    · cases h
  · rintro ⟨place, n, h⟩
    rw [h]

theorem seek_of_file (hk : t.Keeps t') {place : Place} (h : t.seek true path = .found place e)
    (he : e.isFile = true) {e' : Entry} (h' : t'.entryAt? place = some e')
    (he' : e'.isFile = true) : t'.seek true path = .found place e' :=
  seek_of_becomes hk (h ▸ .file place e e' he h' he')

theorem seek_of_newFile (hk : t.Keeps t') {dir : Place} {name : String}
    (h : t.seek true path = .vacant dir name false) (he : t'.entryAt? (dir ++ [name]) = some e)
    (hfile : e.isFile = true) : t'.seek true path = .found (dir ++ [name]) e :=
  seek_of_becomes hk (h ▸ .newFile dir name false e rfl he hfile)

end FileTree

namespace FileAction

variable {t t' : FileTree} {path : Path} {bytes : List UInt8} {n : Nat} {e : FileError}

theorem run_get {α : Type} (next : FileTree → FileAction α) (t : FileTree) :
    (get >>= next : FileAction α).run t = (next t).run t := rfl

/-! ## 2. Opening -/

theorem openFile_run (path : Path) (t : FileTree) :
    (openFile path).run t = match t.seek true path with
      | .found _ (.file n _) => (.ok n, t)
      | .found .. => (.error .isDirectory, t)
      | .vacant dir name slash =>
          if slash then (.error .isDirectory, t)
          else (.ok t.nextNumber, { t.put (dir ++ [name]) (.file t.nextNumber []) with
            nextNumber := t.nextNumber + 1 })
      | .failed e => (.error e, t)
      | .link .. => (.error .tooManyLinks, t) := by
  rw [openFile, run_get]
  cases t.seek true path with
  | found place e => cases e <;> rfl
  | vacant dir name slash => cases slash <;> rfl
  | _ => rfl

/-- A file is opened where there is one, or made empty where there is none. -/
theorem openFile_ok (h : (openFile path).run t = (.ok n, t')) :
    (∃ place bytes, t.seek true path = .found place (.file n bytes) ∧ t' = t) ∨
      ∃ dir name, t.seek true path = .vacant dir name false ∧
        t' = { t.put (dir ++ [name]) (.file n []) with nextNumber := t.nextNumber + 1 } := by
  rw [openFile_run] at h
  split at h
  · cases h
    exact .inl ⟨_, _, by assumption, rfl⟩
  · cases h
  · rename_i dir name slash hseek
    split at h
    · cases h
    · rename_i hslash
      obtain rfl : slash = false := eq_false_of_ne_true hslash
      cases h
      exact .inr ⟨dir, name, hseek, rfl⟩
  · cases h
  · cases h

/-- A file that cannot be opened leaves the tree as it is. -/
theorem openFile_error (h : (openFile path).run t = (.error e, t')) : t' = t := by
  rw [openFile_run] at h
  split at h
  · cases h
  · cases h
    rfl
  · split at h <;> cases h
    rfl
  · cases h
    rfl
  · cases h
    rfl

/-- The file that was opened is what the path leads to. -/
theorem seek_of_openFile (h : (openFile path).run t = (.ok n, t')) :
    ∃ place bytes, t'.seek true path = .found place (.file n bytes) := by
  rcases openFile_ok h with ⟨place, bytes, hseek, rfl⟩ | ⟨dir, name, hseek, rfl⟩
  · exact ⟨place, bytes, hseek⟩
  · have hnone := FileTree.entryAt?_of_seek_vacant hseek
    have hput := FileTree.entryAt?_put_self t (.file n []) (p := dir ++ [name]) (by simp)
    refine ⟨_, [], FileTree.seek_of_newFile (FileTree.keeps_put (fun e he => ?_) _ _) hseek hput rfl⟩
    cases hnone.symm.trans he

/-- Opening a file adds nothing to what can be read, empty files apart. -/
theorem read_openFile {result : Except FileError Nat} (h : (openFile path).run t = (result, t'))
    (other : Path) (hbytes : bytes ≠ []) : t'.read other = .ok bytes ↔ t.read other = .ok bytes := by
  cases result with
  | error e => rw [openFile_error h]
  | ok n =>
    rcases openFile_ok h with ⟨place, old, -, rfl⟩ | ⟨dir, name, hseek, rfl⟩
    · exact Iff.rfl
    have hnone := FileTree.entryAt?_of_seek_vacant hseek
    have hne : dir ++ [name] ≠ [] := by simp
    simp only [FileTree.read_eq_ok_iff]
    refine exists_congr fun place => exists_congr fun m => ⟨fun hfound => ?_, fun hfound => ?_⟩
    · have hentry := FileTree.entryAt?_of_seek hfound nofun
      -- the new file is empty, so it is not the one that is read
      have hother : place ≠ dir ++ [name] := by
        rintro rfl
        have hput := FileTree.entryAt?_put_self t (.file n []) hne
        cases hput.symm.trans hentry
        exact hbytes rfl
      have hold : t.entryAt? place = some (.file m bytes) :=
        (FileTree.entryAt?_put_of_ne t _ hother).symm.trans hentry
      exact FileTree.seek_of_file (FileTree.keeps_of_put hne rfl _) hfound rfl hold rfl
    · have hentry := FileTree.entryAt?_of_seek hfound nofun
      have hother : place ≠ dir ++ [name] := by
        rintro rfl
        cases hnone.symm.trans hentry
      have hnew : (t.put (dir ++ [name]) (.file n [])).entryAt? place = some (.file m bytes) :=
        (FileTree.entryAt?_put_of_ne t _ hother).trans hentry
      refine FileTree.seek_of_file (FileTree.keeps_put (fun e he => ?_) _ _) hfound rfl hnew rfl
      cases hnone.symm.trans he

/-! ## 3. Writing -/

theorem write_run (path : Path) (bytes : List UInt8) (t : FileTree) :
    (write path bytes).run t = match t.seek true path with
      | .found place (.file n _) => (.ok (), t.put place (.file n bytes))
      | .found .. => (.error .isDirectory, t)
      | .vacant dir name slash =>
          if slash then (.error .isDirectory, t)
          else (.ok (), { t.put (dir ++ [name]) (.file t.nextNumber bytes) with
            nextNumber := t.nextNumber + 1 })
      | .failed e => (.error e, t)
      | .link .. => (.error .tooManyLinks, t) := by
  rw [write, run_get]
  cases t.seek true path with
  | found place e => cases e <;> rfl
  | vacant dir name slash => cases slash <;> rfl
  | _ => rfl

/-- A file is written in place of what it held, or made where there is none. -/
theorem write_ok (h : (write path bytes).run t = (.ok (), t')) :
    ∃ place n number, place ≠ [] ∧ t' = { t.put place (.file n bytes) with nextNumber := number } ∧
      (∀ e, t.entryAt? place = some e → e.isFile = true) ∧
      t'.seek true path = .found place (.file n bytes) := by
  rw [write_run] at h
  split at h
  · -- a file that is there keeps its number
    rename_i place n old hseek
    cases h
    have hentry := FileTree.entryAt?_of_seek hseek nofun
    have hne : place ≠ [] := by
      rintro rfl
      cases hentry
    have hfile : ∀ e, t.entryAt? place = some e → e.isFile = true := by
      intro e he
      rw [← Option.some.inj (hentry.symm.trans he)]
      rfl
    have hnumber : t.put place (.file n bytes) =
        { t.put place (.file n bytes) with nextNumber := (t.put place (.file n bytes)).nextNumber } :=
      rfl
    refine ⟨place, n, _, hne, hnumber, hfile, ?_⟩
    exact FileTree.seek_of_file (FileTree.keeps_put hfile _ _) hseek rfl
      (FileTree.entryAt?_put_self t _ hne) rfl
  · cases h
  · -- a new file gets the next one
    rename_i dir name slash hseek
    split at h
    · cases h
    · rename_i hslash
      obtain rfl : slash = false := eq_false_of_ne_true hslash
      cases h
      have hfile : ∀ e, t.entryAt? (dir ++ [name]) = some e → e.isFile = true := by
        intro e he
        cases (FileTree.entryAt?_of_seek_vacant hseek).symm.trans he
      have hput := FileTree.entryAt?_put_self t (.file t.nextNumber bytes) (p := dir ++ [name])
        (by simp)
      refine ⟨dir ++ [name], t.nextNumber, _, by simp, rfl, hfile, ?_⟩
      exact FileTree.seek_of_newFile (FileTree.keeps_put hfile _ _) hseek hput rfl
  · cases h
  · cases h

theorem write_error (h : (write path bytes).run t = (.error e, t')) : t' = t := by
  rw [write_run] at h
  split at h
  · cases h
  · cases h
    rfl
  · split at h <;> cases h
    rfl
  · cases h
    rfl
  · cases h
    rfl

theorem read_of_write (h : (write path bytes).run t = (.ok (), t')) : t'.read path = .ok bytes := by
  obtain ⟨place, n, _, -, -, -, hseek⟩ := write_ok h
  exact FileTree.read_eq_ok_iff.mpr ⟨place, n, hseek⟩

/-! ## 4. Removing -/

theorem answer_run {α : Type} (answer : Except FileError α) (t : FileTree) :
    FileAction.run (match answer with
      | .ok a => return a
      | .error e => throw e) t = (answer, t) := by
  cases answer <;> rfl

theorem ask_run {α : Type} (question : FileTree → Except FileError α) (t : FileTree) :
    (ask question).run t = (question t, t) :=
  answer_run (question t) t

theorem run_bind {α β : Type} (first : FileAction α) (next : α → FileAction β) (t : FileTree) :
    (first >>= next).run t = match first.run t with
      | (.ok a, t) => (next a).run t
      | (.error e, t) => (.error e, t) := by
  simp only [run, ExceptT.run_bind, StateT.run_bind]
  generalize StateT.run (ExceptT.run first) t = r
  obtain ⟨result, t⟩ := r
  cases result <;> rfl

theorem removeFile_run (path : Path) (t : FileTree) :
    (removeFile path).run t = match t.look false path with
      | .ok (_, .directory) => (.error .isDirectory, t)
      | .ok (place, _) => (.ok (), t.prune place)
      | .error e => (.error e, t) := by
  rw [removeFile, run_bind, ask_run]
  cases t.look false path with
  | error e => rfl
  | ok r =>
    obtain ⟨place, e⟩ := r
    cases e <;> rfl

/-- Where a file or a link has been removed, or none could be, there is no file to read. -/
theorem read_of_removeFile (h : ((removeFile path).run t).2 = t') : t'.read path ≠ .ok bytes := by
  intro hread
  obtain ⟨place, n, hseek⟩ := FileTree.read_eq_ok_iff.mp hread
  rw [removeFile_run] at h
  split at h
  · -- a directory stays, and reads as one
    rename_i place' hlook
    subst h
    rw [FileTree.look_eq_ok_iff] at hlook
    rcases t.seek_false path with hsame | ⟨p, target, hlink⟩
    · cases hseek.symm.trans (hsame.symm.trans hlook)
    · cases hlink.symm.trans hlook
  · -- what is found without following a link at the end was there before, and has gone
    rename_i place' e hdirectory hlook
    subst h
    rw [FileTree.look_eq_ok_iff] at hlook
    have hfound : ∃ p e', (t.prune place').seek false path = .found p e' ∧ e' ≠ .directory := by
      rcases (t.prune place').seek_false path with hsame | ⟨p, target, hlink⟩
      · exact ⟨place, _, hsame.trans hseek, nofun⟩
      · exact ⟨p, _, hlink, nofun⟩
    obtain ⟨p, e', hseek', he'⟩ := hfound
    have hleft := FileTree.entryAt?_of_seek hseek' he'
    have hbefore : t.seek false path = .found p e' := by
      apply FileTree.seek_of_becomes FileTree.keeps_of_prune
      rw [hseek']
      cases hfile : e'.isFile with
      | false => exact .entry p e' hfile
      | true => exact .file p e' e' hfile (FileTree.entryAt?_of_prune hleft) hfile
    cases hlook.symm.trans hbefore
    have hne : place' ≠ [] := by
      rintro rfl
      exact he' (Option.some.inj hleft).symm
    rw [FileTree.entryAt?_prune_below hne (List.prefix_refl _)] at hleft
    cases hleft
  · rename_i e hlook
    subst h
    rcases t.seek_false path with hsame | ⟨p, target, hlink⟩
    · rw [FileTree.look_eq_ok_iff.mpr (hsame.trans hseek)] at hlook
      cases hlook
    · rw [FileTree.look_eq_ok_iff.mpr hlink] at hlook
      cases hlook

end FileAction

end Playground
