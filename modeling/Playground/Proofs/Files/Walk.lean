import Playground.Files.Tree
/-!
# Walks in trees that differ

A walk depends on the directories and links that it passes and on the entry that it ends at.  As long
as the directories and links stay, it leads to the same place, whatever becomes of the files.
-/

namespace Playground

/-- Whether an entry is a regular file. -/
def Entry.isFile : Entry → Bool
  | file .. => true
  | _ => false

namespace FileTree

variable {t t' : FileTree} {p q dir dir' : Place} {e : Entry} {path target : Path} {follow : Bool}
  {links : Nat} {segment name : String} {segments rest : List String} {stop old new : Stop}

/-! ## 1. Entries -/

theorem entryAt?_of_ne_nil (t : FileTree) (hp : p ≠ []) :
    t.entryAt? p = (t.entries.find? (·.1 == p)).map (·.2) := by
  cases p with
  | nil => exact absurd rfl hp
  | cons name rest => rfl

theorem entryAt?_put_self (t : FileTree) (e : Entry) (hp : p ≠ []) :
    (t.put p e).entryAt? p = some e := by
  rw [entryAt?_of_ne_nil _ hp, put]
  split
  · -- some entry stands there already, and all of them are replaced
    rename_i hany
    obtain ⟨x, hx, hxp⟩ := List.any_eq_true.mp hany
    have hkey : ((·.1 == p) ∘ fun x : Place × Entry => if x.1 == p then (p, e) else x) =
        (·.1 == p) := by
      funext y
      dsimp only [Function.comp_apply]
      split <;> simp_all
    have hsome : (t.entries.find? (·.1 == p)).isSome = true :=
      List.find?_isSome.mpr ⟨x, hx, hxp⟩
    obtain ⟨y, hy⟩ := Option.isSome_iff_exists.mp hsome
    have hyp : y.1 = p := by simpa using List.find?_some hy
    rw [List.find?_map, hkey, hy, Option.map_some, Option.map_some,
      if_pos (beq_iff_eq.mpr hyp)]
  · rename_i hany
    have hnone : t.entries.find? (·.1 == p) = none :=
      List.find?_eq_none.mpr fun x hx hxp => hany (List.any_eq_true.mpr ⟨x, hx, hxp⟩)
    rw [List.find?_append, hnone]
    simp

theorem entryAt?_put_of_ne (t : FileTree) (e : Entry) (h : q ≠ p) :
    (t.put p e).entryAt? q = t.entryAt? q := by
  by_cases hq : q = []
  · rw [hq]
    rfl
  rw [entryAt?_of_ne_nil _ hq, entryAt?_of_ne_nil _ hq, put]
  split
  · -- what is replaced keeps its place, so the search for another place does not see it
    have hkey : ((·.1 == q) ∘ fun x : Place × Entry => if x.1 == p then (p, e) else x) =
        (·.1 == q) := by
      funext y
      dsimp only [Function.comp_apply]
      split
      · rename_i hy
        rw [eq_of_beq hy]
      · rfl
    rw [List.find?_map, hkey, Option.map_map]
    cases hfind : t.entries.find? (·.1 == q) with
    | none => rfl
    | some y =>
      have hyq : y.1 = q := by simpa using List.find?_some hfind
      have hyp : ¬ (y.1 == p) = true := fun hy => h (hyq.symm.trans (eq_of_beq hy))
      rw [Option.map_some, Option.map_some, Function.comp_apply, if_neg hyp]
  · have hnone : ([(p, e)] : List (Place × Entry)).find? (·.1 == q) = none := by
      simp [Ne.symm h]
    rw [List.find?_append, hnone, Option.or_none]

theorem entryAt?_prune_of_not (h : ¬ q <+: p) : (t.prune q).entryAt? p = t.entryAt? p := by
  by_cases hp : p = []
  · rw [hp]
    rfl
  -- no entry at this place has gone
  have hsame : (fun x : Place × Entry => decide ((!q.isPrefixOf x.1) = true ∧ (x.1 == p) = true)) =
      (·.1 == p) := by
    funext y
    by_cases hy : y.1 = p
    · have hkept : q.isPrefixOf p = false :=
        eq_false_of_ne_true fun hq => h (List.isPrefixOf_iff_prefix.mp hq)
      simp [hy, hkept]
    · simp [hy]
  rw [entryAt?_of_ne_nil _ hp, entryAt?_of_ne_nil _ hp, prune, List.find?_filter, hsame]

theorem entryAt?_prune_below (hp : p ≠ []) (h : q <+: p) : (t.prune q).entryAt? p = none := by
  rw [entryAt?_of_ne_nil _ hp, prune, List.find?_filter, Option.map_eq_none_iff, List.find?_eq_none]
  intro x _ hx
  have hx' : (!q.isPrefixOf x.1) = true ∧ x.1 = p := by simpa using hx
  rw [hx'.2, List.isPrefixOf_iff_prefix.mpr h] at hx'
  exact Bool.noConfusion hx'.1

/-! ## 2. Walks -/

/-- A segment that a walk takes for the name of an entry. -/
structure IsStep (segment : String) : Prop where
  ne_blank : ¬(segment = "" ∨ segment = ".")
  ne_up : segment ≠ ".."
  short : ¬maxName < segment.utf8ByteSize

theorem walk_stay (hblank : segment = "" ∨ segment = ".") :
    t.walk follow dir (segment :: rest) = t.walk follow dir rest := by
  rw [walk, if_pos hblank]

theorem walk_up : t.walk follow dir (".." :: rest) = t.walk follow dir.dropLast rest := by
  rw [walk, if_neg (by decide), if_pos rfl]

theorem walk_step (hs : IsStep segment) (follow : Bool) (dir : Place) (rest : List String) :
    t.walk follow dir (segment :: rest) = match t.entryAt? (dir ++ [segment]) with
      | none => if rest.all (· == "") then .vacant dir segment !rest.isEmpty else .failed .notFound
      | some .directory => t.walk follow (dir ++ [segment]) rest
      | some (.file n bytes) =>
          if rest.isEmpty then .found (dir ++ [segment]) (.file n bytes) else .failed .notDirectory
      | some (.link target) =>
          if rest.isEmpty && !follow then .found (dir ++ [segment]) (.link target)
          else .link dir target rest := by
  rw [walk]
  exact (if_neg hs.ne_blank).trans ((if_neg hs.ne_up).trans (if_neg hs.short))

/-- A walk, step by step, and where it stops. -/
inductive Walks (t : FileTree) (follow : Bool) : Place → List String → Stop → Prop where
  | start (dir : Place) : Walks t follow dir [] (.found dir .directory)
  | stay {dir : Place} {segment : String} {rest : List String} {stop : Stop}
      (hblank : segment = "" ∨ segment = ".") (hrest : Walks t follow dir rest stop) :
      Walks t follow dir (segment :: rest) stop
  | up {dir : Place} {rest : List String} {stop : Stop}
      (hrest : Walks t follow dir.dropLast rest stop) : Walks t follow dir (".." :: rest) stop
  | enter {dir : Place} {segment : String} {rest : List String} {stop : Stop}
      (hs : IsStep segment) (hentry : t.entryAt? (dir ++ [segment]) = some .directory)
      (hrest : Walks t follow (dir ++ [segment]) rest stop) :
      Walks t follow dir (segment :: rest) stop
  | file {dir : Place} {segment : String} {n : Nat} {bytes : List UInt8} (hs : IsStep segment)
      (hentry : t.entryAt? (dir ++ [segment]) = some (.file n bytes)) :
      Walks t follow dir [segment] (.found (dir ++ [segment]) (.file n bytes))
  | lastLink {dir : Place} {segment : String} {target : Path} (hs : IsStep segment)
      (hentry : t.entryAt? (dir ++ [segment]) = some (.link target)) (hfollow : follow = false) :
      Walks t follow dir [segment] (.found (dir ++ [segment]) (.link target))
  | link {dir : Place} {segment : String} {rest : List String} {target : Path}
      (hs : IsStep segment) (hentry : t.entryAt? (dir ++ [segment]) = some (.link target))
      (hgo : ¬(rest.isEmpty && !follow) = true) :
      Walks t follow dir (segment :: rest) (.link dir target rest)
  | vacant {dir : Place} {segment : String} {rest : List String} (hs : IsStep segment)
      (hentry : t.entryAt? (dir ++ [segment]) = none) (hblank : ∀ s ∈ rest, s = "") :
      Walks t follow dir (segment :: rest) (.vacant dir segment !rest.isEmpty)
  | failed (dir : Place) (segments : List String) (e : FileError) :
      Walks t follow dir segments (.failed e)

theorem walks (t : FileTree) (follow : Bool) (dir : Place) (segments : List String) :
    t.Walks follow dir segments (t.walk follow dir segments) := by
  induction segments generalizing dir with
  | nil => exact .start dir
  | cons segment rest ih =>
    by_cases hblank : segment = "" ∨ segment = "."
    · rw [walk_stay hblank]
      exact .stay hblank (ih dir)
    by_cases hup : segment = ".."
    · rw [hup, walk_up]
      exact .up (ih dir.dropLast)
    by_cases hlong : maxName < segment.utf8ByteSize
    · rw [walk, if_neg hblank, if_neg hup, if_pos hlong]
      exact .failed dir _ _
    have hs : IsStep segment := ⟨hblank, hup, hlong⟩
    rw [walk_step hs]
    cases hentry : t.entryAt? (dir ++ [segment]) with
    | none =>
      dsimp only
      split
      · rename_i hrest
        exact .vacant hs hentry (by simpa using hrest)
      · exact .failed dir _ _
    | some e =>
      cases e with
      | directory => exact .enter hs hentry (ih _)
      | file n bytes =>
        cases rest with
        | nil => exact .file hs hentry
        | cons s rest => exact .failed dir _ _
      | link target =>
        dsimp only
        split
        · rename_i hend
          obtain ⟨rfl, rfl⟩ : rest = [] ∧ follow = false := by simpa using hend
          exact .lastLink hs hentry rfl
        · exact .link hs hentry ‹_›

/-- What the tree has where a walk stops.  Only a directory may be where the walk starts. -/
def Stop.Fits (t : FileTree) : Stop → Prop
  | .found p e => e ≠ .directory → t.entryAt? p = some e
  | .vacant dir name _ => t.entryAt? (dir ++ [name]) = none
  | _ => True

theorem Walks.fits (h : t.Walks follow dir segments stop) : stop.Fits t := by
  induction h with
  | start => exact fun he => absurd rfl he
  | stay _ _ ih => exact ih
  | up _ ih => exact ih
  | enter _ _ _ ih => exact ih
  | file _ hentry => exact fun _ => hentry
  | lastLink _ hentry => exact fun _ => hentry
  | vacant _ hentry => exact hentry
  | _ => trivial

theorem entryAt?_of_walk (h : t.walk follow dir segments = .found p e) (he : e ≠ .directory) :
    t.entryAt? p = some e := by
  have hfits := (t.walks follow dir segments).fits
  rw [h] at hfits
  exact hfits he

theorem entryAt?_of_walk_vacant {slash : Bool}
    (h : t.walk follow dir segments = .vacant p name slash) : t.entryAt? (p ++ [name]) = none := by
  have hfits := (t.walks follow dir segments).fits
  rwa [h] at hfits

theorem walk_of_blank (t : FileTree) (follow : Bool) (dir : Place)
    (h : ∀ s ∈ segments, s = "") : t.walk follow dir segments = .found dir .directory := by
  induction segments with
  | nil => rfl
  | cons segment rest ih =>
    rw [walk_stay (.inl (h segment List.mem_cons_self))]
    exact ih fun s hs => h s (List.mem_cons_of_mem segment hs)

/-- All directories and links of a tree are in the other one as well. -/
structure Keeps (t t' : FileTree) : Prop where
  workDir : t'.workDir = t.workDir
  entries : ∀ p e, t.entryAt? p = some e → e.isFile = false → t'.entryAt? p = some e

/-- Where a walk ends in another tree that keeps what it passes: at the same entry, at what has
become of a file, or at what has been made where there was nothing. -/
inductive Stop.Becomes (t' : FileTree) : Stop → Stop → Prop where
  | entry (p : Place) (e : Entry) (h : e.isFile = false) : Becomes t' (.found p e) (.found p e)
  | link (dir : Place) (target : Path) (rest : List String) :
      Becomes t' (.link dir target rest) (.link dir target rest)
  | file (p : Place) (e e' : Entry) (he : e.isFile = true) (h : t'.entryAt? p = some e')
      (he' : e'.isFile = true) : Becomes t' (.found p e) (.found p e')
  | newFile (dir : Place) (name : String) (slash : Bool) (e : Entry) (hslash : slash = false)
      (h : t'.entryAt? (dir ++ [name]) = some e) (he : e.isFile = true) :
      Becomes t' (.vacant dir name slash) (.found (dir ++ [name]) e)
  | newDirectory (dir : Place) (name : String) (slash : Bool)
      (h : t'.entryAt? (dir ++ [name]) = some .directory) :
      Becomes t' (.vacant dir name slash) (.found (dir ++ [name]) .directory)

theorem Stop.Becomes.ne_link (h : Stop.Becomes t' old new)
    (hold : ∀ dir target rest, old ≠ .link dir target rest) (dir : Place) (target : Path)
    (rest : List String) : new ≠ .link dir target rest := by
  cases h with
  | link => exact absurd rfl (hold _ _ _)
  | _ => nofun

/-- A walk takes the same steps in the other tree, up to what is new at its end. -/
theorem Walks.becomes (hk : t.Keeps t') (hwalks : t.Walks follow dir segments old)
    (h : Stop.Becomes t' old new) : t'.walk follow dir segments = new := by
  -- on the steps of the walk; the two trees can only differ at its end
  induction hwalks with
  | start dir =>
    cases h with
    | entry => rfl
    | file _ _ _ he => cases he
  | stay hblank _ ih =>
    rw [walk_stay hblank]
    exact ih h
  | up _ ih =>
    rw [walk_up]
    exact ih h
  | enter hs hentry _ ih =>
    rw [walk_step hs, hk.entries _ _ hentry rfl]
    exact ih h
  | file hs hentry =>
    cases h with
    | entry _ _ he => cases he
    | file _ _ e' _ h he' =>
      rw [walk_step hs, h]
      cases e' with
      | file n' bytes' => rfl
      | _ => cases he'
  | lastLink hs hentry hfollow =>
    cases h with
    | entry =>
      rw [walk_step hs, hk.entries _ _ hentry rfl, hfollow]
      rfl
    | file _ _ _ he => cases he
  | link hs hentry hgo =>
    cases h
    rw [walk_step hs, hk.entries _ _ hentry rfl]
    exact if_neg hgo
  | vacant hs hentry hblank =>
    cases h with
    | newFile _ _ _ e hslash h he =>
      rw [walk_step hs, h]
      cases e with
      | file n bytes => exact if_pos (by simpa using hslash)
      | _ => cases he
    | newDirectory _ _ _ h =>
      rw [walk_step hs, h]
      exact t'.walk_of_blank follow _ hblank
  | failed dir segments e => cases h

theorem walk_of_becomes (hk : t.Keeps t')
    (h : Stop.Becomes t' (t.walk follow dir segments) stop) :
    t'.walk follow dir segments = stop :=
  (t.walks follow dir segments).becomes hk h

/-- A link at the very end makes all the difference whether it is followed. -/
theorem walk_false (t : FileTree) (dir : Place) (segments : List String) :
    t.walk false dir segments = t.walk true dir segments ∨
      ∃ p target, t.walk false dir segments = .found p (.link target) := by
  induction segments generalizing dir with
  | nil => exact .inl rfl
  | cons segment rest ih =>
    rw [walk, walk]
    split
    · exact ih _
    split
    · exact ih _
    split
    · exact .inl rfl
    dsimp only
    split
    · exact .inl rfl
    · exact ih _
    · exact .inl rfl
    · by_cases hend : rest.isEmpty = true
      · exact .inr ⟨_, _, by rw [if_pos (by simpa using hend)]⟩
      · exact .inl (by simp [hend])

/-! ## 3. Walks along links -/

/-- A walk that meets no link follows none. -/
theorem walkLinks_of_walk (h : t.walk follow dir segments = stop)
    (hstop : ∀ dir target rest, stop ≠ .link dir target rest) (links : Nat) :
    t.walkLinks follow links dir segments = stop := by
  cases links with
  | zero =>
    rw [walkLinks, h]
    split
    · exact absurd rfl (hstop _ _ _)
    · rfl
  | succ links =>
    rw [walkLinks, h]
    split
    · exact absurd rfl (hstop _ _ _)
    · rfl

theorem walkLinks_of_link (h : t.walk follow dir segments = .link dir' target rest) (links : Nat) :
    t.walkLinks follow (links + 1) dir segments =
      t.walkLinks follow links (if target.isAbsolute then [] else dir')
        (target.segments ++ rest) := by
  rw [walkLinks, h]

theorem walkLinks_congr {p' : Place} {segments' : List String}
    (h : t.walk follow p segments = t.walk follow p' segments') (links : Nat) :
    t.walkLinks follow links p segments = t.walkLinks follow links p' segments' := by
  cases links with
  | zero => rw [walkLinks, walkLinks, h]
  | succ links => rw [walkLinks, walkLinks, h]

/-- A walk along links, from link to link, and where it stops. -/
inductive LinkWalks (t : FileTree) (follow : Bool) :
    Nat → Place → List String → Stop → Prop where
  | done {links : Nat} {dir : Place} {segments : List String} {stop : Stop}
      (hwalk : t.walk follow dir segments = stop)
      (hstop : ∀ dir target rest, stop ≠ .link dir target rest) :
      LinkWalks t follow links dir segments stop
  | tooMany {dir dir' : Place} {segments rest : List String} {target : Path}
      (hwalk : t.walk follow dir segments = .link dir' target rest) :
      LinkWalks t follow 0 dir segments (.failed .tooManyLinks)
  | go {links : Nat} {dir dir' : Place} {segments rest : List String} {target : Path} {stop : Stop}
      (hwalk : t.walk follow dir segments = .link dir' target rest)
      (hrest : LinkWalks t follow links (if target.isAbsolute then [] else dir')
        (target.segments ++ rest) stop) :
      LinkWalks t follow (links + 1) dir segments stop

theorem linkWalks (t : FileTree) (follow : Bool) (links : Nat) (dir : Place)
    (segments : List String) :
    t.LinkWalks follow links dir segments (t.walkLinks follow links dir segments) := by
  induction links generalizing dir segments with
  | zero =>
    rw [walkLinks]
    split
    · exact .tooMany ‹_›
    · exact .done rfl ‹_›
  | succ links ih =>
    rw [walkLinks]
    split
    · exact .go ‹_› (ih _ _)
    · exact .done rfl ‹_›

/-- A link that is met in one tree is met in the other. -/
theorem LinkWalks.becomes (hk : t.Keeps t') (hwalks : t.LinkWalks follow links dir segments old)
    (h : Stop.Becomes t' old new) : t'.walkLinks follow links dir segments = new := by
  induction hwalks with
  | done hwalk hstop =>
    exact walkLinks_of_walk (walk_of_becomes hk (hwalk ▸ h)) (h.ne_link hstop) _
  | tooMany => cases h
  | @go links dir dir' segments rest target stop hwalk _ ih =>
    have hwalk' : t'.walk follow dir segments = .link dir' target rest :=
      walk_of_becomes hk (by rw [hwalk]; exact .link dir' target rest)
    rw [walkLinks_of_link hwalk']
    exact ih h

theorem walkLinks_of_becomes (hk : t.Keeps t')
    (h : Stop.Becomes t' (t.walkLinks follow links dir segments) stop) :
    t'.walkLinks follow links dir segments = stop :=
  (t.linkWalks follow links dir segments).becomes hk h

/-- What a walk along links comes to is what its last part comes to. -/
theorem LinkWalks.exists_walk (h : t.LinkWalks follow links dir segments stop)
    (hstop : stop ≠ .failed .tooManyLinks) :
    ∃ dir' segments', t.walk follow dir' segments' = stop := by
  induction h with
  | done hwalk _ => exact ⟨_, _, hwalk⟩
  | tooMany => exact absurd rfl hstop
  | go _ _ ih => exact ih hstop

theorem exists_walk_of_walkLinks (h : t.walkLinks follow links dir segments = stop)
    (hstop : stop ≠ .failed .tooManyLinks) :
    ∃ dir' segments', t.walk follow dir' segments' = stop :=
  (h ▸ t.linkWalks follow links dir segments).exists_walk hstop

theorem walkLinks_false (t : FileTree) (links : Nat) (dir : Place) (segments : List String) :
    t.walkLinks false links dir segments = t.walkLinks true links dir segments ∨
      ∃ p target, t.walkLinks false links dir segments = .found p (.link target) := by
  induction links generalizing dir segments with
  | zero =>
    rw [walkLinks, walkLinks]
    rcases t.walk_false dir segments with h | ⟨p, target, h⟩
    · exact .inl (by rw [h])
    · exact .inr ⟨p, target, by rw [h]⟩
  | succ links ih =>
    rw [walkLinks, walkLinks]
    rcases t.walk_false dir segments with h | ⟨p, target, h⟩
    · rw [h]
      split
      · exact ih _ _
      · exact .inl rfl
    · exact .inr ⟨p, target, by rw [h]⟩

/-! ## 4. Paths -/

/-- A path that a walk is tried along at all. -/
structure IsSought (path : Path) : Prop where
  ne_empty : path ≠ ""
  no_nul : '\x00' ∉ path.toList
  short : path.utf8ByteSize ≤ maxPath

theorem seek_of_isSought (h : IsSought path) (t : FileTree) (follow : Bool) :
    t.seek follow path =
      t.walkLinks follow maxLinks (if path.isAbsolute then [] else t.workDir) path.segments := by
  rw [seek, if_neg h.ne_empty, if_neg fun hnul => h.no_nul (List.contains_iff_mem.mp hnul),
    if_neg (Nat.not_lt.mpr h.short)]

/-- Whether a walk is tried along a path is up to the path alone. -/
theorem isSought_or_failed (path : Path) :
    IsSought path ∨ ∃ e, ∀ (t : FileTree) follow, t.seek follow path = .failed e := by
  by_cases hempty : path = ""
  · exact .inr ⟨.notFound, fun t follow => by rw [seek, if_pos hempty]⟩
  by_cases hnul : path.toList.contains '\x00' = true
  · exact .inr ⟨.nulInPath, fun t follow => by rw [seek, if_neg hempty, if_pos hnul]⟩
  by_cases hlong : maxPath < path.utf8ByteSize
  · refine .inr ⟨.nameTooLong, fun t follow => ?_⟩
    rw [seek, if_neg hempty, if_neg hnul, if_pos hlong]
  exact .inl ⟨hempty, fun hmem => hnul (List.contains_iff_mem.mpr hmem), Nat.le_of_not_lt hlong⟩

theorem isSought_of_seek (h : t.seek follow path = stop) (hstop : ∀ e, stop ≠ .failed e) :
    IsSought path := by
  rcases isSought_or_failed path with hsought | ⟨e, hfailed⟩
  · exact hsought
  · exact absurd (h.symm.trans (hfailed t follow)) (hstop e)

theorem walkLinks_of_seek (h : t.seek follow path = stop) (hstop : ∀ e, stop ≠ .failed e) :
    t.walkLinks follow maxLinks (if path.isAbsolute then [] else t.workDir) path.segments = stop :=
  (seek_of_isSought (isSought_of_seek h hstop) t follow).symm.trans h

theorem seek_of_becomes (hk : t.Keeps t')
    (h : Stop.Becomes t' (t.seek follow path) stop) : t'.seek follow path = stop := by
  rcases isSought_or_failed path with hsought | ⟨e, hfailed⟩
  · rw [seek_of_isSought hsought] at h ⊢
    rw [hk.workDir]
    exact walkLinks_of_becomes hk h
  · rw [hfailed] at h
    cases h

theorem exists_walk_of_seek (h : t.seek follow path = stop)
    (hstop : ∀ e, stop ≠ .failed e) : ∃ dir segments, t.walk follow dir segments = stop :=
  exists_walk_of_walkLinks (walkLinks_of_seek h hstop) (hstop _)

theorem entryAt?_of_seek (h : t.seek follow path = .found p e) (he : e ≠ .directory) :
    t.entryAt? p = some e := by
  obtain ⟨dir, segments, h⟩ := exists_walk_of_seek h nofun
  exact entryAt?_of_walk h he

theorem entryAt?_of_seek_vacant {name : String} {slash : Bool}
    (h : t.seek follow path = .vacant p name slash) : t.entryAt? (p ++ [name]) = none := by
  obtain ⟨dir, segments, h⟩ := exists_walk_of_seek h nofun
  exact entryAt?_of_walk_vacant h

theorem seek_false (t : FileTree) (path : Path) :
    t.seek false path = t.seek true path ∨
      ∃ p target, t.seek false path = .found p (.link target) := by
  rcases isSought_or_failed path with hsought | ⟨e, hfailed⟩
  · rw [seek_of_isSought hsought, seek_of_isSought hsought]
    exact t.walkLinks_false _ _ _
  · rw [hfailed, hfailed]
    exact .inl rfl

theorem look_eq_ok_iff : t.look follow path = .ok (p, e) ↔ t.seek follow path = .found p e := by
  unfold look
  split <;> simp_all

end FileTree

end Playground
