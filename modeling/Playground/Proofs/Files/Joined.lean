import Playground.Proofs.Files.Path
import Playground.Proofs.Files.Walk
/-!
# Walks along joined paths

A walk along a path that is joined to a directory goes on where the directory is.  Segments that stand
for no step make no difference to it.
-/

namespace Playground

namespace FileTree

variable {t : FileTree} {path dir rel : Path} {place p : Place} {e : Entry} {follow : Bool}
  {links left number : Nat} {bytes : List UInt8} {front segs : List String} {stop : Stop}

/-! ## 1. Walks that go on -/

/-- How a walk goes on along more segments from where it has ended. -/
def goOn (t : FileTree) (follow : Bool) (segs : List String) : Stop → Stop
  | .found p .directory => t.walk follow p segs
  | .found .. => .failed .notDirectory
  | .vacant dir name _ => if segs.all (· == "") then .vacant dir name true else .failed .notFound
  | .failed e => .failed e
  | .link dir target rest => .link dir target (rest ++ segs)

theorem walk_append (t : FileTree) (follow : Bool) (place : Place) (front : List String)
    (hsegs : segs ≠ []) :
    t.walk follow place (front ++ segs) = t.goOn follow segs (t.walk true place front) := by
  induction front generalizing place with
  | nil => rfl
  | cons s front ih =>
    rw [List.cons_append, walk, walk]
    split
    · exact ih place
    split
    · exact ih _
    split
    · rfl
    dsimp only
    cases t.entryAt? (place ++ [s]) with
    | none =>
      dsimp only
      rw [List.all_append]
      cases front.all (· == "") with
      | false => rfl
      | true =>
        have hmore : (front ++ segs).isEmpty = false := by simp [hsegs]
        rw [hmore, Bool.true_and]
        rfl
    | some e =>
      cases e with
      | directory => exact ih _
      | file number bytes => cases front <;> simp [goOn, hsegs]
      | link target => simp [goOn, hsegs]

/-- A walk along links goes on behind a link that it meets. -/
theorem walkLinks_append_of_link {target : Path} {rest : List String}
    (h : t.walk true place front = .link p target rest) (hsegs : segs ≠ []) :
    t.walkLinks follow (links + 1) place (front ++ segs) =
      t.walkLinks follow links (if target.isAbsolute then [] else p)
        (target.segments ++ rest ++ segs) := by
  have hwalk : t.walk follow place (front ++ segs) = .link p target (rest ++ segs) := by
    rw [t.walk_append follow place front hsegs, h, goOn]
  rw [walkLinks_of_link hwalk, List.append_assoc]

theorem LinkWalks.append_of_directory (h : t.LinkWalks true links place front stop)
    (hstop : stop = .found p .directory) :
    ∃ left, ∀ follow segs, segs ≠ [] →
      t.walkLinks follow links place (front ++ segs) = t.walkLinks follow left p segs := by
  induction h with
  | @done links place front stop hwalk _ =>
    refine ⟨links, fun follow segs hsegs => walkLinks_congr ?_ links⟩
    rw [t.walk_append follow place front hsegs, hwalk, hstop, goOn]
  | tooMany => cases hstop
  | go hwalk _ ih =>
    obtain ⟨left, hleft⟩ := ih hstop
    refine ⟨left, fun follow segs hsegs => ?_⟩
    rw [walkLinks_append_of_link hwalk hsegs]
    exact hleft follow segs hsegs

/-- A walk along links that has come to a directory goes on from there, with the links that are
left to follow. -/
theorem exists_walkLinks_append (h : t.walkLinks true links place front = .found p .directory) :
    ∃ left, ∀ follow segs, segs ≠ [] →
      t.walkLinks follow links place (front ++ segs) = t.walkLinks follow left p segs :=
  (t.linkWalks true links place front).append_of_directory h

/-- No walk along links goes on from a file. -/
theorem LinkWalks.append_of_file (h : t.LinkWalks true links place front stop)
    (hstop : stop = .found p (.file number bytes)) (hsegs : segs ≠ []) :
    t.walkLinks follow links place (front ++ segs) = .failed .notDirectory := by
  induction h with
  | @done links place front stop hwalk _ =>
    have hfile : t.walk follow place (front ++ segs) = .failed .notDirectory := by
      rw [t.walk_append follow place front hsegs, hwalk, hstop]
      rfl
    exact walkLinks_of_walk hfile (by simp) links
  | tooMany => cases hstop
  | go hwalk _ ih =>
    rw [walkLinks_append_of_link hwalk hsegs]
    exact ih hstop

theorem walkLinks_append_of_file (h : t.walkLinks true links place front = .found p (.file number bytes))
    (hsegs : segs ≠ []) : t.walkLinks follow links place (front ++ segs) = .failed .notDirectory :=
  (t.linkWalks true links place front).append_of_file h hsegs

/-! ## 2. Segments that stand for no step -/

theorem all_eq_false_of_endsInStep (h : Path.EndsInStep segs) : segs.all (· == "") = false := by
  obtain ⟨front, n, c, rfl, hn⟩ := h
  have hne : n ≠ "" := by
    rintro rfl
    cases hn
  simp [hne]

/-- Where a walk comes without the segments that stand for no step: what is still to go lacks them
too. -/
def Stop.solid : Stop → Stop
  | .link dir target rest => .link dir target (Path.solid rest)
  | stop => stop

theorem walk_solid (t : FileTree) (follow : Bool) (place : Place)
    (h : segs = [] ∨ Path.EndsInStep segs) :
    t.walk follow place (Path.solid segs) = (t.walk follow place segs).solid := by
  induction segs generalizing place with
  | nil => rfl
  | cons s rest ih =>
    have hrest : rest = [] ∨ Path.EndsInStep rest :=
      (h.resolve_left (List.cons_ne_nil s rest)).of_suffix (List.suffix_cons s rest)
    cases hs : Path.component? s with
    | none =>
      have hblank := Path.component?_eq_none_iff.mp hs
      rw [Path.solid, List.filter_cons_of_neg (by rw [hs]; decide), walk, if_pos hblank]
      exact ih place hrest
    | some c =>
      have hblank : ¬ (s = "" ∨ s = ".") := fun hblank => by
        rw [Path.component?_eq_none_iff.mpr hblank] at hs
        cases hs
      -- if the path ends in a step, blanks decide neither whether more comes nor how it ends
      have hempty : (Path.solid rest).isEmpty = rest.isEmpty := by
        rcases hrest with rfl | hrest
        · rfl
        · rw [List.isEmpty_eq_false_iff.mpr hrest.ne_nil,
            List.isEmpty_eq_false_iff.mpr hrest.solid.ne_nil]
      have hall : (Path.solid rest).all (· == "") = rest.all (· == "") := by
        rcases hrest with rfl | hrest
        · rfl
        · rw [all_eq_false_of_endsInStep hrest, all_eq_false_of_endsInStep hrest.solid]
      have hsolid : Path.solid (s :: rest) = s :: Path.solid rest :=
        List.filter_cons_of_pos (by rw [hs]; rfl)
      rw [hsolid, walk, walk, if_neg hblank, if_neg hblank]
      split
      · exact ih _ hrest
      split
      · rfl
      dsimp only
      rw [hempty, hall]
      split
      · split <;> rfl
      · exact ih _ hrest
      · split <;> rfl
      · split <;> rfl

/-- Where the name, or what is still to go, stands among the segments of the walk. -/
def Stop.Within (follow : Bool) (segs : List String) : Stop → Prop
  | .vacant _ name _ => ∃ front blanks, segs = front ++ name :: blanks ∧ ∀ s ∈ blanks, s = ""
  | .link _ _ rest => rest <:+ segs ∧ (follow = false → rest ≠ [])
  | _ => True

theorem Stop.Within.cons (h : stop.Within follow segs) (s : String) :
    stop.Within follow (s :: segs) := by
  cases stop with
  | vacant dir name slash =>
    obtain ⟨front, blanks, rfl, hblanks⟩ := h
    exact ⟨s :: front, blanks, rfl, hblanks⟩
  | link dir target rest => exact ⟨h.1.trans (List.suffix_cons s segs), h.2⟩
  | _ => trivial

theorem Walks.within (h : t.Walks follow place segs stop) : stop.Within follow segs := by
  induction h with
  | stay _ _ ih => exact ih.cons _
  | up _ ih => exact ih.cons _
  | enter _ _ _ ih => exact ih.cons _
  | link _ _ hgo =>
    refine ⟨List.suffix_cons _ _, ?_⟩
    rintro rfl rfl
    exact hgo rfl
  | @vacant dir segment rest _ _ hblank => exact ⟨[], rest, rfl, hblank⟩
  | _ => trivial

theorem suffix_of_walk_link {dir : Place} {target : Path} {rest : List String}
    (h : t.walk follow place segs = .link dir target rest) : rest <:+ segs := by
  have hwithin := (t.walks follow place segs).within
  rw [h] at hwithin
  exact hwithin.1

/-- Without the segments that stand for no step a walk comes to the same end, or to the same link
with less still to go. -/
theorem walk_append_solid (t : FileTree) (follow : Bool) (place : Place) (front : List String)
    (h : Path.EndsInStep segs) :
    t.walk follow place (front ++ Path.solid segs) = t.walk follow place (front ++ segs) ∨
      ∃ dir target rest more, (more = [] ∨ Path.EndsInStep more) ∧
        t.walk follow place (front ++ Path.solid segs) =
          .link dir target (rest ++ Path.solid more) ∧
        t.walk follow place (front ++ segs) = .link dir target (rest ++ more) := by
  rw [t.walk_append follow place front h.solid.ne_nil, t.walk_append follow place front h.ne_nil]
  cases t.walk true place front with
  | found p e =>
    cases e with
    | directory =>
      rw [goOn, goOn, t.walk_solid follow p (.inr h)]
      cases hwalk : t.walk follow p segs with
      | link dir target rest =>
        exact .inr ⟨dir, target, [], rest, h.of_suffix (suffix_of_walk_link hwalk), rfl, rfl⟩
      | _ => exact .inl rfl
    | _ => exact .inl rfl
  | vacant dir name slash =>
    rw [goOn, goOn, all_eq_false_of_endsInStep h, all_eq_false_of_endsInStep h.solid]
    exact .inl rfl
  | link dir target rest => exact .inr ⟨dir, target, rest, segs, .inr h, rfl, rfl⟩
  | failed e => exact .inl rfl

/-- What stands for no step makes no difference to a walk, wherever it comes. -/
theorem walkLinks_solid (t : FileTree) (follow : Bool) (links : Nat) (place : Place)
    (front : List String) (h : segs = [] ∨ Path.EndsInStep segs) :
    t.walkLinks follow links place (front ++ Path.solid segs) =
      t.walkLinks follow links place (front ++ segs) := by
  induction links generalizing place front segs with
  | zero =>
    rcases h with rfl | h
    · rfl
    rcases t.walk_append_solid follow place front h with hsame | ⟨_, _, _, _, -, hsolid, hwalk⟩
    · exact walkLinks_congr hsame 0
    · rw [walkLinks, walkLinks, hsolid, hwalk]
  | succ links ih =>
    rcases h with rfl | h
    · rfl
    rcases t.walk_append_solid follow place front h with
      hsame | ⟨_, _, _, _, hmore, hsolid, hwalk⟩
    · exact walkLinks_congr hsame (links + 1)
    · rw [walkLinks_of_link hsolid, walkLinks_of_link hwalk, ← List.append_assoc,
        ← List.append_assoc]
      exact ih _ _ hmore

theorem walkLinks_trimLead (t : FileTree) (follow : Bool) (links : Nat) (place : Place)
    (front : List String) (h : Path.EndsInStep segs) :
    t.walkLinks follow links place (front ++ Path.trimLead segs) =
      t.walkLinks follow links place (front ++ segs) := by
  rw [← t.walkLinks_solid follow links place front (.inr h.trimLead), Path.solid_trimLead,
    t.walkLinks_solid follow links place front (.inr h)]

/-- Slashes at the end make no difference to a walk to a directory. -/
theorem walkLinks_slashes (n : Nat) :
    t.walkLinks true links place (segs ++ List.replicate n "") = .found p .directory ↔
      t.walkLinks true links place segs = .found p .directory := by
  cases n with
  | zero => rw [List.replicate_zero, List.append_nil]
  | succ n =>
    have hblank : ∀ dir, t.walk true dir (List.replicate (n + 1) "") = .found dir .directory :=
      fun dir => t.walk_of_blank true dir fun _ hs => List.eq_of_mem_replicate hs
    have hne : List.replicate (n + 1) "" ≠ [] := nofun
    induction links generalizing place segs with
    | zero =>
      rw [walkLinks, walkLinks, t.walk_append true place segs hne]
      cases t.walk true place segs with
      | found p e => cases e <;> simp [goOn, hblank]
      | vacant dir name slash => simp [goOn]
      | _ => exact Iff.rfl
    | succ links ih =>
      rw [walkLinks, walkLinks, t.walk_append true place segs hne]
      cases t.walk true place segs with
      | found p e => cases e <;> simp [goOn, hblank]
      | vacant dir name slash => simp [goOn]
      | link dir target rest =>
        dsimp only [goOn]
        rw [← List.append_assoc]
        exact ih
      | failed e => exact Iff.rfl

/-! ## 3. What joined paths lead to -/

/-- The path leads to a directory, and with so many links left to follow. -/
structure Leads (t : FileTree) (dir : Path) (left : Nat) (p : Place) : Prop where
  ne_empty : dir ≠ ""
  walk : ∀ follow rel, Path.isAbsolute rel = false → Path.EndsInStep (Path.segments rel) →
    t.walkLinks follow maxLinks (if dir.isAbsolute then [] else t.workDir) (dir.join rel).segments =
      t.walkLinks follow left p rel.segments

theorem exists_leads (h : t.seek true dir = .found p .directory) : ∃ left, t.Leads dir left p := by
  have hdir := (isSought_of_seek h nofun).ne_empty
  obtain ⟨left, hleft⟩ := exists_walkLinks_append (walkLinks_of_seek h nofun)
  obtain ⟨stem, hstem⟩ := Path.exists_isStem hdir
  refine ⟨left, hdir, fun follow rel hrel hends => ?_⟩
  rw [hstem.join rel hrel, ← hleft follow _ (Path.segments_ne_nil rel)]
  -- a slash at the end of the directory makes no difference
  rcases hstem.segments with hsegs | hsegs
  · rw [hsegs]
  · have hblank : Path.EndsInStep ("" :: Path.segments rel) := by
      obtain ⟨front, n, c, hfront, hn⟩ := hends
      exact ⟨"" :: front, n, c, by rw [hfront, List.cons_append], hn⟩
    rw [hsegs, List.append_assoc, List.singleton_append, ← t.walkLinks_trimLead _ _ _ _ hblank,
      Path.trimLead_cons_of_none rfl, t.walkLinks_trimLead _ _ _ _ hends]

theorem Leads.seek (h : t.Leads dir left p) (hrel : Path.isAbsolute rel = false)
    (hends : Path.EndsInStep (Path.segments rel)) : t.seek follow (dir.join rel) =
      if (dir.join rel).toList.contains '\x00' then .failed .nulInPath
      else if maxPath < (dir.join rel).utf8ByteSize then .failed .nameTooLong
      else t.walkLinks follow left p rel.segments := by
  rw [FileTree.seek, if_neg (Path.join_ne_empty h.ne_empty hrel), Path.isAbsolute_join h.ne_empty hrel,
    h.walk follow rel hrel hends]

/-- What is lost of a path that is tidied makes no difference to where it leads. -/
theorem seek_join_tidied (hdir : dir ≠ "") (hrel : Path.isAbsolute rel = false)
    (hends : Path.EndsInStep (Path.segments rel)) (h : t.seek follow (dir.join rel) = .found place e) :
    t.seek follow (dir.join (Path.tidied rel)) = .found place e := by
  have htidied := Path.isAbsolute_tidied hends
  obtain ⟨base, hbase⟩ := Path.exists_join_eq_append dir
  obtain ⟨lost, hlost⟩ := Path.exists_eq_append_tidied rel
  obtain ⟨stem, hstem⟩ := Path.exists_isStem hdir
  have hsought : IsSought (dir.join rel) := isSought_of_seek h nofun
  -- the tidied path has no other characters, and is not longer
  have hsought' : IsSought (dir.join (Path.tidied rel)) := by
    refine ⟨Path.join_ne_empty hdir htidied, fun hmem => hsought.no_nul ?_,
      Nat.le_trans ?_ hsought.short⟩
    · rw [hbase _ htidied] at hmem
      rw [hbase _ hrel, hlost]
      simp only [String.toList_append, List.mem_append] at hmem ⊢
      exact hmem.imp_right .inr
    · rw [hbase _ htidied, hbase _ hrel]
      conv => rhs; rw [hlost]
      simp only [String.utf8ByteSize_append]
      omega
  rw [seek_of_isSought hsought', Path.isAbsolute_join hdir htidied, hstem.join _ htidied,
    Path.segments_tidied hends, t.walkLinks_trimLead _ _ _ _ hends, ← hstem.join _ hrel,
    ← Path.isAbsolute_join hdir hrel]
  exact walkLinks_of_seek h nofun

/-- Whether a walk has come to a file, or may still come to one. -/
def EndsAtName : Stop → Prop
  | .found _ (.file ..) => True
  | .link _ _ rest => rest = [] ∨ Path.EndsInStep rest
  | _ => False

theorem Walks.endsInStep (h : t.Walks follow place segs stop) (hends : EndsAtName stop) :
    Path.EndsInStep segs := by
  -- a walk that stops at a name ends with this name, or with what comes after it
  have hend : ∀ {s rest}, IsStep s → rest = [] ∨ Path.EndsInStep rest →
      Path.EndsInStep (s :: rest) := by
    intro s rest hs hrest
    rcases hrest with rfl | hrest
    · refine ⟨[], s, .name s, rfl, ?_⟩
      rw [Path.component?, if_neg hs.ne_blank, if_neg hs.ne_up]
    · exact hrest.cons s
  induction h with
  | stay _ _ ih => exact (ih hends).cons _
  | up _ ih => exact (ih hends).cons _
  | enter _ _ _ ih => exact (ih hends).cons _
  | file hs _ => exact hend hs (.inl rfl)
  | link hs _ _ => exact hend hs hends
  | _ => exact False.elim hends

theorem LinkWalks.endsInStep (h : t.LinkWalks follow links place segs stop)
    (hstop : stop = .found p (.file number bytes)) : Path.EndsInStep segs := by
  induction h with
  | @done links place segs stop hwalk _ =>
    have hends : EndsAtName (t.walk follow place segs) := by
      rw [hwalk, hstop]
      trivial
    exact (t.walks follow place segs).endsInStep hends
  | tooMany => cases hstop
  | @go links place place' segs rest target stop hwalk _ ih =>
    have hends : EndsAtName (t.walk follow place segs) := by
      rw [hwalk]
      by_cases hrest : rest = []
      · exact .inl hrest
      · exact .inr ((ih hstop).of_append hrest)
    exact (t.walks follow place segs).endsInStep hends

theorem endsInStep_of_walkLinks
    (h : t.walkLinks follow links place segs = .found p (.file number bytes)) :
    Path.EndsInStep segs :=
  (t.linkWalks follow links place segs).endsInStep h

/-- A walk that ends at a file ends with its name. -/
theorem endsInStep_of_seek (hrel : Path.isAbsolute rel = false)
    (h : t.seek follow (dir.join rel) = .found p (.file number bytes)) :
    Path.EndsInStep rel.segments := by
  have hends := endsInStep_of_walkLinks (walkLinks_of_seek h nofun)
  by_cases hdir : dir = ""
  · rwa [hdir, Path.join_empty] at hends
  · obtain ⟨stem, hstem⟩ := Path.exists_isStem hdir
    rw [hstem.join rel hrel] at hends
    exact hends.of_append (Path.segments_ne_nil rel)

end FileTree

end Playground
