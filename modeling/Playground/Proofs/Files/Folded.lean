import Playground.Files.Copy
import Playground.Proofs.Files.Growth
/-!
# Trees without links

In a tree without links a path leads where its segments fold to, if it leads anywhere at all.  So
whatever is made along a path is made where a leading part of the path folds to.
-/

namespace Playground

namespace Path

variable {p : Path} {segs front : List String}

/-! ## 1. Segments of whole paths and of leading parts -/

theorem isAbsolute_of_segments {s : String} {rest : List String}
    (h : segments p = "" :: s :: rest) : isAbsolute p = true := by
  have hp := congrArg String.toList (intercalate_segments p)
  rw [h, String.toList_intercalate] at hp
  rw [isAbsolute, ← hp]
  rfl

/-- A leading part of a path starts where the path starts. -/
theorem isAbsolute_intercalate (hfront : front <+: segments p) (hends : EndsInStep front) :
    isAbsolute ("/".intercalate front) = isAbsolute p := by
  have hslash : ∀ s ∈ front, '/' ∉ s.toList := fun s hs =>
    not_mem_of_mem_segments (hfront.subset hs)
  have hsegs := segments_intercalate hslash hends.ne_nil
  obtain ⟨rest, hrest⟩ := hfront
  -- either starts with a slash if its first segment is empty and not the only one
  have hlead : ∀ q : Path, segments q = front ∨ segments q = front ++ rest →
      (isAbsolute q = true ↔ front.head? = some "") := by
    intro q hq
    constructor
    · intro habs
      have hhead := head?_segments_of_isAbsolute habs
      rcases hq with hq | hq
      · rwa [hq] at hhead
      · rwa [hq, List.head?_append_of_ne_nil _ hends.ne_nil] at hhead
    · intro hhead
      obtain ⟨tail, rfl⟩ := List.head?_eq_some_iff.mp hhead
      cases tail with
      | nil =>
        obtain ⟨init, n, c, heq, hn⟩ := hends
        have hlast := List.append_singleton_inj.mp (heq.symm.trans (List.nil_append [""]).symm)
        rw [hlast.2] at hn
        cases hn
      | cons s tail => rcases hq with hq | hq <;> exact isAbsolute_of_segments hq
  exact Bool.eq_iff_iff.mpr ((hlead _ (.inl hsegs)).trans (hlead p (.inr hrest.symm)).symm)

end Path

/-- Whether an entry is a link. -/
def Entry.isLink : Entry → Bool
  | link _ => true
  | _ => false

namespace FileTree

variable {t t' : FileTree} {p q dir place : Place} {e : Entry} {path target : Path} {follow : Bool}
  {segs front : List String} {name : String} {links : Nat}

/-! ## 1. Folding -/

/-- Where segments fold to from a place. -/
def fold (dir : Place) (segs : List String) : Place := segs.foldl foldStep dir

theorem fold_cons (dir : Place) (s : String) (segs : List String) :
    fold dir (s :: segs) = fold (foldStep dir s) segs := rfl

theorem fold_append (dir : Place) (front segs : List String) :
    fold dir (front ++ segs) = fold (fold dir front) segs := List.foldl_append

theorem foldStep_blank (dir : Place) (h : name = "" ∨ name = ".") : foldStep dir name = dir := if_pos h

theorem foldStep_name (dir : Place) (h : Path.IsName name) : foldStep dir name = dir ++ [name] := by
  rw [foldStep, if_neg h.ne_blank, if_neg h.ne_up]

theorem fold_blank (dir : Place) (h : ∀ s ∈ segs, s = "" ∨ s = ".") : fold dir segs = dir := by
  induction segs with
  | nil => rfl
  | cons s segs ih =>
    rw [fold_cons, foldStep_blank dir (h s List.mem_cons_self),
      ih fun s hs => h s (List.mem_cons_of_mem _ hs)]

/-- Names fold to the place that they lead to. -/
theorem fold_names (dir : Place) (h : ∀ n ∈ segs, Path.IsName n) : fold dir segs = dir ++ segs := by
  induction segs generalizing dir with
  | nil => exact (List.append_nil dir).symm
  | cons n segs ih =>
    rw [fold_cons, foldStep_name dir (h n List.mem_cons_self),
      ih _ fun n hn => h n (List.mem_cons_of_mem _ hn), List.append_assoc, List.singleton_append]

theorem isName_fold (hdir : ∀ n ∈ dir, Path.IsName n) (hsegs : ∀ s ∈ segs, '/' ∉ s.toList) :
    ∀ n ∈ fold dir segs, Path.IsName n := by
  induction segs generalizing dir with
  | nil => exact hdir
  | cons s segs ih =>
    refine ih ?_ fun s hs => hsegs s (List.mem_cons_of_mem _ hs)
    intro n hn
    unfold foldStep at hn
    split at hn
    · exact hdir n hn
    split at hn
    · exact hdir n ((List.dropLast_sublist dir).subset hn)
    · rename_i hblank hup
      rcases List.mem_append.mp hn with hn | hn
      · exact hdir n hn
      · obtain rfl := List.mem_singleton.mp hn
        exact Path.isName_of_ne hblank hup (hsegs n List.mem_cons_self)

/-- Where a path starts. -/
def origin (t : FileTree) (path : Path) : Place := if path.isAbsolute then [] else t.workDir

/-- Where a path folds to. -/
def folded (t : FileTree) (path : Path) : Place := fold (t.origin path) path.segments

/-- A leading part of the path folds to the place. -/
def Passes (t : FileTree) (path : Path) (q : Place) : Prop :=
  ∃ front, front <+: path.segments ∧ q = fold (t.origin path) front

theorem passes_folded (t : FileTree) (path : Path) : t.Passes path (t.folded path) :=
  ⟨path.segments, List.prefix_refl _, rfl⟩

theorem lexical_of_ne_empty (t : FileTree) (h : path ≠ "") : t.lexical path = .ok (t.folded path) :=
  if_neg h

theorem IsTidy.origin (h : t.IsTidy) (path : Path) : ∀ n ∈ t.origin path, Path.IsName n := by
  unfold FileTree.origin
  split
  · intro n hn
    cases hn
  · exact h.workDir

theorem IsTidy.isName_folded (h : t.IsTidy) (path : Path) : ∀ n ∈ t.folded path, Path.IsName n :=
  isName_fold (h.origin path) fun _ hs => Path.not_mem_of_mem_segments hs

/-! ## 2. Walks -/

/-- There is no link in the tree. -/
def IsLinkless (t : FileTree) : Prop := ∀ x ∈ t.entries, x.2.isLink = false

instance (t : FileTree) : Decidable t.IsLinkless :=
  inferInstanceAs (Decidable (∀ x ∈ t.entries, x.2.isLink = false))

theorem IsLinkless.entryAt? (h : t.IsLinkless) (he : t.entryAt? p = some e) : e.isLink = false := by
  by_cases hp : p = []
  · rw [hp] at he
    cases he
    rfl
  · rw [entryAt?_of_ne_nil t hp] at he
    obtain ⟨x, hx, rfl⟩ := Option.map_eq_some_iff.mp he
    exact h x (List.mem_of_find?_eq_some hx)

theorem IsLinkless.put (h : t.IsLinkless) (he : e.isLink = false) (number : Nat) :
    IsLinkless { t.put p e with nextNumber := number } := by
  intro x hx
  unfold FileTree.put at hx
  split at hx
  · obtain ⟨y, hy, rfl⟩ := List.mem_map.mp hx
    split
    · exact he
    · exact h y hy
  · rcases List.mem_append.mp hx with hx | hx
    · exact h x hx
    · rw [List.mem_singleton.mp hx]
      exact he

/-- A walk ends where it folds to, if it ends at or next to something, and it meets no link. -/
def Stop.FoldsTo (place : Place) : Stop → Prop
  | .found p _ => p = place
  | .vacant dir name _ => dir ++ [name] = place
  | .failed _ => True
  | .link .. => False

theorem foldStep_of_isStep {s : String} (hs : IsStep s) : foldStep dir s = dir ++ [s] := by
  rw [foldStep, if_neg hs.ne_blank, if_neg hs.ne_up]

theorem Walks.foldsTo {stop : Stop} (hwalks : t.Walks follow dir segs stop)
    (h : ∀ front goal, front <+: segs → t.entryAt? (fold dir front) ≠ some (.link goal)) :
    stop.FoldsTo (fold dir segs) := by
  -- no step of the walk meets a link, as each one leads to where a front of the path folds to
  have hlater : ∀ {dir s rest},
      (∀ front goal, front <+: s :: rest → t.entryAt? (fold dir front) ≠ some (.link goal)) →
      ∀ front goal, front <+: rest →
        t.entryAt? (fold (foldStep dir s) front) ≠ some (.link goal) :=
    fun h front goal hfront => h (_ :: front) goal (List.cons_prefix_cons.mpr ⟨rfl, hfront⟩)
  have hnone : ∀ {dir s rest goal}, IsStep s →
      (∀ front goal, front <+: s :: rest → t.entryAt? (fold dir front) ≠ some (.link goal)) →
      t.entryAt? (dir ++ [s]) ≠ some (.link goal) := by
    intro dir s rest goal hs h
    have hfirst := h [s] goal (List.cons_prefix_cons.mpr ⟨rfl, List.nil_prefix⟩)
    rwa [fold_cons, foldStep_of_isStep hs] at hfirst
  induction hwalks with
  | start => rfl
  | stay hblank _ ih =>
    have hstep := hlater h
    rw [foldStep_blank _ hblank] at hstep
    rw [fold_cons, foldStep_blank _ hblank]
    exact ih hstep
  | up _ ih => exact ih (hlater h)
  | enter hs _ _ ih =>
    have hstep := hlater h
    rw [foldStep_of_isStep hs] at hstep
    rw [fold_cons, foldStep_of_isStep hs]
    exact ih hstep
  | file hs _ =>
    rw [fold_cons, foldStep_of_isStep hs]
    rfl
  | lastLink hs hentry _ => exact absurd hentry (hnone hs h)
  | link hs hentry _ => exact absurd hentry (hnone hs h)
  | vacant hs _ hblank =>
    rw [fold_cons, foldStep_of_isStep hs, fold_blank _ fun r hr => .inl (hblank r hr)]
    rfl
  | failed => trivial

theorem Stop.FoldsTo.ne_link {stop : Stop} (h : stop.FoldsTo place) (dir : Place) (target : Path)
    (rest : List String) : stop ≠ .link dir target rest := by
  rintro rfl
  exact h

theorem walkLinks_foldsTo
    (h : ∀ front goal, front <+: segs → t.entryAt? (fold dir front) ≠ some (.link goal))
    (follow : Bool) (links : Nat) :
    (t.walkLinks follow links dir segs).FoldsTo (fold dir segs) := by
  have hwalk := (t.walks follow dir segs).foldsTo h
  rw [walkLinks_of_walk rfl hwalk.ne_link links]
  exact hwalk

/-- No leading part of the path folds to a link. -/
def IsClear (t : FileTree) (path : Path) : Prop :=
  ∀ q goal, t.Passes path q → t.entryAt? q ≠ some (.link goal)

theorem IsLinkless.isClear (h : t.IsLinkless) (path : Path) : t.IsClear path := by
  intro q goal _ he
  cases h.entryAt? he

theorem IsClear.seek_foldsTo (h : t.IsClear path) (follow : Bool) :
    (t.seek follow path).FoldsTo (t.folded path) := by
  rcases isSought_or_failed path with hsought | ⟨e, hfailed⟩
  · rw [seek_of_isSought hsought]
    exact walkLinks_foldsTo (fun front goal hfront => h _ goal ⟨front, hfront, rfl⟩) follow maxLinks
  · rw [hfailed]
    trivial

theorem IsClear.eq_folded_of_seek (h : t.IsClear path) (hseek : t.seek follow path = .found p e) :
    p = t.folded path := by
  have hfolds := h.seek_foldsTo follow
  rw [hseek] at hfolds
  exact hfolds

theorem eq_folded_of_seek (h : t.IsLinkless) (hseek : t.seek follow path = .found p e) :
    p = t.folded path := (h.isClear path).eq_folded_of_seek hseek

theorem IsClear.eq_folded_of_seek_vacant {slash : Bool} (h : t.IsClear path)
    (hseek : t.seek follow path = .vacant dir name slash) : dir ++ [name] = t.folded path := by
  have hfolds := h.seek_foldsTo follow
  rw [hseek] at hfolds
  exact hfolds

theorem eq_folded_of_seek_vacant {slash : Bool} (h : t.IsLinkless)
    (hseek : t.seek follow path = .vacant dir name slash) : dir ++ [name] = t.folded path :=
  (h.isClear path).eq_folded_of_seek_vacant hseek

/-! ## 3. Resolved paths -/

/-- Along a path without links there is nothing to resolve. -/
theorem eq_of_canonicalPart (h : t.IsLinkless) {depth : Nat} {whole base missing : Place}
    (hbase : ∀ n ∈ base, Path.IsName n) (hwhole : base ++ missing = whole)
    (hresolved : t.canonicalPart whole depth base missing = .ok place) : place = whole := by
  induction depth generalizing base missing with
  | zero => exact (Except.ok.inj hresolved).symm
  | succ depth ih =>
    rw [canonicalPart] at hresolved
    split at hresolved
    · rename_i hcanonical
      obtain rfl := Except.ok.inj hresolved
      have hfolds : (t.walkLinks true maxLinks [] base).FoldsTo (fold [] base) :=
        walkLinks_foldsTo (fun front goal _ he => nomatch h.entryAt? he) true maxLinks
      unfold canonical at hcanonical
      split at hcanonical
      · rename_i found e hwalk
        rw [hwalk, fold_names [] hbase] at hfolds
        obtain rfl : found = base := hfolds
        rw [← Except.ok.inj hcanonical, hwhole]
      · cases hcanonical
      · cases hcanonical
      · cases hcanonical
    · split at hresolved
      · rename_i name hlast
        have hsplit : base.dropLast ++ [name] = base := List.dropLast_append_getLast? name hlast
        refine ih (fun n hn => hbase n ((List.dropLast_sublist base).subset hn)) ?_ hresolved
        rw [← hwhole, ← List.singleton_append, ← List.append_assoc, hsplit]
      · exact (Except.ok.inj hresolved).symm
    · cases hresolved

theorem eq_folded_of_resolve (h : t.IsLinkless) (htidy : t.IsTidy)
    (hresolved : t.resolve path = .ok place) : path ≠ "" ∧ place = t.folded path := by
  unfold resolve at hresolved
  by_cases hpath : path = ""
  · rw [hpath] at hresolved
    cases hresolved
  · rw [lexical_of_ne_empty t hpath] at hresolved
    exact ⟨hpath, eq_of_canonicalPart h (htidy.isName_folded path) (List.append_nil _) hresolved⟩

/-! ## 4. What is made along a path -/

theorem folded_withoutSlashes (t : FileTree) (path : Path) :
    t.folded path.withoutSlashes = t.folded path := by
  obtain ⟨habs, q, n, m, hpath, hwithout⟩ := Path.withoutSlashes_eq path
  have hblank : ∀ (dir : Place) (k : Nat), fold dir (List.replicate k "") = dir := fun dir k =>
    fold_blank dir fun _ hs => .inl (List.eq_of_mem_replicate hs)
  rw [folded, folded, origin, origin, habs, hpath, hwithout, fold_append, fold_append, hblank,
    hblank]

theorem passes_withoutSlashes (h : t.Passes path.withoutSlashes q) : t.Passes path q := by
  obtain ⟨habs, base, n, m, hpath, hwithout⟩ := Path.withoutSlashes_eq path
  have horigin : t.origin path.withoutSlashes = t.origin path := by rw [origin, origin, habs]
  have hbase : base.segments <+: path.segments := hpath ▸ List.prefix_append _ _
  obtain ⟨front, hfront, rfl⟩ := h
  rw [horigin]
  rw [hwithout] at hfront
  rcases List.prefix_or_prefix_of_prefix hfront (List.prefix_append _ _) with hfront | ⟨r, rfl⟩
  · exact ⟨front, hfront.trans hbase, rfl⟩
  · -- the empty segments fold to nothing
    have hblank : r <+: List.replicate m "" := (List.prefix_append_right_inj _).mp hfront
    refine ⟨base.segments, hbase, ?_⟩
    rw [fold_append]
    exact fold_blank _ fun s hs => .inl (List.eq_of_mem_replicate (hblank.subset hs))

theorem IsClear.withoutSlashes (h : t.IsClear path) : t.IsClear path.withoutSlashes :=
  fun q goal hq => h q goal (passes_withoutSlashes hq)

theorem folded_join (t : FileTree) (hdir : path ≠ "") (hname : Path.IsName name) :
    t.folded (path.join name) = t.folded path ++ [name] := by
  obtain ⟨stem, hstem⟩ := Path.exists_isStem hdir
  have hpath : t.folded path = fold (t.origin path) stem := by
    rw [folded]
    rcases hstem.segments with h | h
    · rw [h]
    · rw [h, fold_append]
      exact fold_blank _ (by simp)
  have habs : t.origin (path.join name) = t.origin path := by
    rw [origin, origin, Path.isAbsolute_join hdir hname.isAbsolute]
  rw [hpath, folded, habs, hstem.join name hname.isAbsolute, hname.segments, fold_append, fold_cons,
    foldStep_name _ hname]
  rfl

/-- A path to a name passes what the path to its directory passes, and then the name. -/
theorem passes_join (hdir : path ≠ "") (hname : Path.IsName name) (h : t.Passes (path.join name) q) :
    t.Passes path q ∨ q = t.folded path ++ [name] := by
  obtain ⟨front, hfront, rfl⟩ := h
  obtain ⟨stem, hstem⟩ := Path.exists_isStem hdir
  have habs : t.origin (path.join name) = t.origin path := by
    rw [origin, origin, Path.isAbsolute_join hdir hname.isAbsolute]
  have hsegs : (path.join name).segments = stem ++ [name] := by
    rw [hstem.join name hname.isAbsolute, hname.segments]
  rw [hsegs] at hfront
  rcases List.prefix_concat_iff.mp hfront with hwhole | hfront
  · right
    rw [← folded_join t hdir hname, folded, hsegs, hwhole]
  · left
    refine ⟨front, ?_, by rw [habs]⟩
    rcases hstem.segments with h | h
    · rwa [h]
    · rw [h]
      exact hfront.trans (List.prefix_append stem [""])

end FileTree

namespace FileAction

open FileTree (IsLinkless IsTidy)

variable {t t' : FileTree} {path a : Path} {segs tail : List String}

theorem suffix_of_mem_stepTails (h : tail ∈ stepTails segs) :
    tail <:+ segs ∧ ∃ s rest, tail = s :: rest ∧ (Path.component? s).isSome = true := by
  induction segs with
  | nil => cases h
  | cons s rest ih =>
    rw [stepTails] at h
    split at h
    · obtain ⟨hsuffix, hstep⟩ := ih h
      exact ⟨hsuffix.trans (List.suffix_cons s rest), hstep⟩
    · rename_i hblank
      rcases List.mem_cons.mp h with rfl | h
      · refine ⟨List.suffix_refl _, s, rest, rfl, Option.isSome_iff_ne_none.mpr fun hnone => ?_⟩
        exact hblank (Path.component?_eq_none_iff.mp hnone)
      · obtain ⟨hsuffix, hstep⟩ := ih h
        exact ⟨hsuffix.trans (List.suffix_cons s rest), hstep⟩

/-- The ancestors of a path are leading parts of it. -/
theorem segments_of_mem_ancestors (h : a ∈ ancestors path) :
    a.segments <+: path.segments ∧ Path.isAbsolute a = Path.isAbsolute path := by
  unfold ancestors at h
  split at h
  · split at h
    · cases h
    · rw [List.mem_singleton.mp h]
      exact ⟨List.prefix_refl _, rfl⟩
  · rename_i first above htails
    rcases List.mem_cons.mp h with rfl | h
    · exact ⟨List.prefix_refl _, rfl⟩
    · obtain ⟨segs, hsegs, rfl⟩ := List.mem_map.mp h
      obtain ⟨hsuffix, s, rest, rfl, hstep⟩ :=
        suffix_of_mem_stepTails (htails ▸ List.mem_cons_of_mem first hsegs)
      obtain ⟨c, hc⟩ := Option.isSome_iff_exists.mp hstep
      have hends : Path.EndsInStep (s :: rest).reverse := ⟨rest.reverse, s, c, List.reverse_cons, hc⟩
      have hfront : (s :: rest).reverse <+: path.segments := by
        rw [← List.reverse_suffix, List.reverse_reverse]
        exact hsuffix
      refine ⟨?_, Path.isAbsolute_intercalate hfront hends⟩
      rw [Path.segments_intercalate (fun s hs =>
        Path.not_mem_of_mem_segments (hfront.subset hs)) hends.ne_nil]
      exact hfront

/-- What an ancestor of a path passes, the path passes. -/
theorem passes_of_mem_ancestors (h : a ∈ ancestors path) {q : Place} (hq : t.Passes a q) :
    t.Passes path q := by
  obtain ⟨hsegs, habs⟩ := segments_of_mem_ancestors h
  obtain ⟨front, hfront, rfl⟩ := hq
  exact ⟨front, hfront.trans hsegs, by rw [FileTree.origin, FileTree.origin, habs]⟩

theorem eq_blank_of_stepTails (h : stepTails segs = []) : ∀ s ∈ segs, s = "" ∨ s = "." := by
  induction segs with
  | nil => exact nofun
  | cons s rest ih =>
    rw [stepTails] at h
    split at h
    · rename_i hblank
      intro r hr
      rcases List.mem_cons.mp hr with rfl | hr
      · exact hblank
      · exact ih h r hr
    · cases h

/-- A path comes first among its ancestors, unless it is empty or leads to the root without a step. -/
theorem ancestors_cases (path : Path) : (∃ above, ancestors path = path :: above) ∨
    path = "" ∨ path.isAbsolute = true ∧ ∀ s ∈ path.segments, s = "" ∨ s = "." := by
  unfold ancestors
  split
  · rename_i hnone
    split
    · rename_i hpath
      exact .inr (hpath.imp_right fun habs =>
        ⟨habs, fun s hs => eq_blank_of_stepTails hnone s (List.mem_reverse.mpr hs)⟩)
    · exact .inl ⟨[], rfl⟩
  · exact .inl ⟨_, rfl⟩

/-- If no link is on the way, a directory is made where its path folds to. -/
theorem makeDirectory_put (hclear : t.IsClear a) (h : (makeDirectory a).run t = (.ok (), t')) :
    t' = t.put (t.folded a) .directory ∧ t.entryAt? (t.folded a) = none ∧ t.folded a ≠ [] := by
  rw [makeDirectory_run] at h
  split at h
  · cases h
  · rename_i dir name slash hseek
    have hseek := FileTree.seek_of_seekNew hseek
    have hplace := hclear.withoutSlashes.eq_folded_of_seek_vacant hseek
    rw [FileTree.folded_withoutSlashes] at hplace
    rw [← hplace, ← (Prod.mk.inj h).2]
    exact ⟨rfl, FileTree.entryAt?_of_seek_vacant hseek, by simp⟩
  · cases h
  · cases h

end FileAction

end Playground
