import Mathlib.Data.List.Permutation
import Playground.Proofs.Files.Merging
import Playground.Proofs.Site.Errands
import Playground.Proofs.Site.Refusal
/-!
# Copies that are complete

Whoever gets a copy has had a worker of its own merge the directory of the package into what there was at
the destination.  If a file is in the place of a directory there, or the other way round, the worker
fails, and its caller is told so by the name of the destination.
-/

namespace Playground.Site

open FileTree (HasWholeCopy IsBlocked)

variable {start s s' s₀ s₁ s₂ s₃ : Site} {a : Act} {acts before middle rest : List Act} {i w : PartyId}
  {id : PackageId} {c : Call} {cw : CopyWork} {p : Package} {order : CopyOrder} {directory : Path}
  {epoch : Nat} {tree : FileTree} {result : Except FileError Unit} {allowance : Budget.Allowance}

/-! ## 1. The worker of a caller -/

/-- A caller that gets its locks has a worker from then on. -/
theorem StartsCopy.commissions (h : StartsCopy start before i id s₀ s₁) :
    ∃ w order, Commissions start before i w id order s₀ s₁ := by
  obtain ⟨c, hi, rfl, -⟩ := h.old
  obtain ⟨c', hi', -, allowance, order, w, hstage⟩ := h.new
  obtain ⟨stage, hcall, hstep⟩ := orderStep_of_move hi h.act
  obtain rfl := Option.some.inj (hi'.symm.trans hcall)
  obtain rfl : stage = .copying allowance order w := hstage
  cases hstep with
  | other _ hother => cases hother
  | start _ _ grip p hgripping hp hworker =>
    obtain ⟨p', hp', hfounded⟩ := package?_founded (act?_founded h.act) hp
    obtain ⟨hdirectory, -⟩ := Package.kept_of_asFounded hfounded
    exact ⟨_, order, h, ⟨_, allowance, hi', rfl⟩, p', hp', by rw [hdirectory, hworker]⟩

/-- In a run, caller `i`, who wants a copy as `order` says, gets the locks of its package, and then its worker
`w` copies the directory of the package there, in the act from `s₂` to `s₃`, and comes to `result`. -/
def HasCopyMade (start : Site) (acts : List Act) (i w : PartyId) (order : CopyOrder) (directory : Path)
    (result : Except FileError Unit) (s₂ s₃ : Site) : Prop :=
  ∃ before middle rest s₀ s₁ c p, acts = before ++ .move i :: (middle ++ .move w :: rest) ∧
    Commissions start before i w c.package order s₀ s₁ ∧ (s₁.call? i = some c ∧ c.wish = .copy order) ∧
    (s₁.package? c.package = some p ∧ p.directory = directory) ∧
    CarriesOut s₁ middle w directory order.destination result s₂ s₃

/-- A worker is for the same directories in a whole run. -/
theorem copyWork?_of_run (hw : s₁.copyWork? w = some cw) (hrun : s₁.run? rest = some s) :
    ∃ cw', s.copyWork? w = some cw' ∧ cw'.source = cw.source ∧ cw'.target = cw.target := by
  refine run?_preserves
    (P := fun s => ∃ cw', s.copyWork? w = some cw' ∧ cw'.source = cw.source ∧ cw'.target = cw.target)
    ?_ hrun ⟨cw, hw, rfl, rfl⟩
  rintro s a s' hact ⟨cw₁, hw₁, hsource, htarget⟩
  obtain ⟨cw₂, hw₂, hsource', htarget'⟩ := (act?_works hact).copyWork? hw₁
  exact ⟨cw₂, hw₂, hsource'.trans hsource, htarget'.trans htarget⟩

/-- What a worker comes to is seen from then on. -/
theorem CarriesOut.copyWork? {source target : Path} (h : CarriesOut start before w source target result s₂ s₃)
    (hrun : s₃.run? rest = some s) : ∃ cw, s.copyWork? w = some cw ∧ cw.result = some result := by
  refine run?_preserves (P := fun s => ∃ cw, s.copyWork? w = some cw ∧ cw.result = some result)
    ?_ hrun ?_
  · rintro s a s' hact ⟨cw, hw, hresult⟩
    obtain ⟨cw', hw', -, -, hkept⟩ := act?_copyWork? hact hw
    exact ⟨cw', hw', hkept result hresult⟩
  · obtain ⟨cw, hw, rfl, rfl⟩ := h.worker
    have hact : s₂.moveCopy? w cw = some s₃ := by
      have hact := h.act
      rwa [act?, copyWork?_eq_some.mp hw, Option.bind_some, move?] at hact
    rw [moveCopy?_of_run (act?_copyWork hw h.act).1 h.copied] at hact
    refine ⟨{ cw with result := some result }, copyWork?_eq_some.mpr ?_, rfl⟩
    rw [← Option.some.inj hact]
    exact List.getElem?_set_self (List.getElem?_eq_some_iff.mp (copyWork?_eq_some.mp hw)).1

/-- A caller that its worker has served is told what the worker has come to. -/
theorem HasCopyMade.reports (h : HasCopyMade (.empty epoch tree) acts i w order directory result s₂ s₃)
    (hrun : (Site.empty epoch tree).run? acts = some s) {t : Instant} {answer : Except PackageError Gain}
    (hanswer : s.answer? i = some (t, answer)) : IsCopyOverrun answer ∨ order.Reports result answer := by
  obtain ⟨before, middle, rest, s₀, s₁, c, p, rfl, hcommissions, -, -, hcarries⟩ := h
  rw [run?_append, hcommissions.starts.run, Option.bind_some, run?, hcommissions.starts.act,
    Option.bind_some] at hrun
  have hc₁ : Custody s₁ := (custody_of_run hcommissions.starts.run).act hcommissions.starts.act
  obtain ⟨c, cw, p, he, -⟩ := Errand.of_run hc₁ hcommissions.errand hrun
  rw [run?_append, hcarries.run, Option.bind_some, run?, hcarries.act, Option.bind_some] at hrun
  obtain ⟨cw', hw', hresult⟩ := hcarries.copyWork? hrun
  obtain ⟨c', hi', hstage⟩ := call?_of_answer? hanswer
  obtain rfl := Option.some.inj (he.caller.symm.trans hi')
  obtain rfl := Option.some.inj (he.worker.symm.trans hw')
  have hawaits := he.awaits
  rw [hstage] at hawaits
  cases hawaits with
  | served _ r _ hr hreports =>
    obtain rfl := Option.some.inj (hresult.symm.trans hr)
    exact .inr hreports
  | deserted _ _ hoverrun => exact .inl hoverrun

/-- Whoever gets a copy has had a worker of its own, which has come to its end without a fault. -/
theorem hasCopyMade_of_answer (hrun : (Site.empty epoch tree).run? acts = some s) {t : Instant}
    {k : PackageId} (hanswer : s.answer? i = some (t, .ok (.copied k))) :
    ∃ w order directory s₂ s₃,
      HasCopyMade (.empty epoch tree) acts i w order directory (.ok ()) s₂ s₃ := by
  obtain ⟨c, hi, hstage⟩ := call?_of_answer? hanswer
  obtain ⟨_, rest, rfl, before, middle, s₀, s₁, rfl, hstarts, -⟩ :=
    (copyPast_of_run hrun hi).copied t k hstage
  obtain ⟨w, order, hcommissions⟩ := hstarts.commissions
  obtain ⟨p, hp, hworker⟩ := hcommissions.worker
  obtain ⟨c₁, hi₁, hid, -⟩ := hstarts.new
  obtain ⟨c₁', allowance, hi₁', hcopying⟩ := hcommissions.caller
  obtain rfl := Option.some.inj (hi₁.symm.trans hi₁')
  have hrun₁ : (Site.empty epoch tree).run? (before ++ [.move i]) = some s₁ := by
    rw [run?_concat, hstarts.run, Option.bind_some, hstarts.act]
  have hwish : c₁.wish = .copy order :=
    ((orderPast_of_run (fun _ => rfl) (fun _ => rfl) hrun₁ hi₁).works allowance order w hcopying).1
  rw [List.append_assoc, List.cons_append, run?_append, hstarts.run, Option.bind_some, run?, hstarts.act,
    Option.bind_some] at hrun
  obtain ⟨c', cw, p', he, -⟩ := Errand.of_run (custody_of_run hrun₁) hcommissions.errand hrun
  obtain rfl := Option.some.inj (hi.symm.trans he.caller)
  have hawaits := he.awaits
  rw [hstage] at hawaits
  cases hawaits with
  | deserted _ _ hoverrun =>
    obtain ⟨e, he, -⟩ := hoverrun
    cases he
  | served _ r _ hresult hreports =>
    cases hreports
    obtain ⟨middle', rest', s₂, s₃, hsplit, hcarries⟩ := carriesOut_of_run (fun cw hw => by
      obtain rfl := Option.some.inj (hworker.symm.trans hw)
      rfl) hrun he.worker hresult
    -- the worker is still for the directory that it has been set to work for
    obtain ⟨cw', hw', hsource, htarget⟩ := copyWork?_of_run hworker hrun
    obtain rfl := Option.some.inj (he.worker.symm.trans hw')
    rw [hsource, htarget] at hcarries
    rw [← hid] at hcommissions hp
    refine ⟨w, order, p.directory, s₂, s₃, before, middle', rest', s₀, s₁, c₁, p, ?_, hcommissions,
      ⟨hi₁, hwish⟩, ⟨hp, rfl⟩, hcarries⟩
    rw [← hsplit, List.append_assoc, List.cons_append]

theorem HasCopyMade.hasWholeCopy (h : HasCopyMade start acts i w order directory (.ok ()) s₂ s₃)
    (htidy : s₂.tree.IsTidy) : HasWholeCopy lockName directory order.destination s₂.tree s₃.tree := by
  obtain ⟨before, middle, rest, s₀, s₁, c, p, -, -, -, -, hcarries⟩ := h
  exact FileTree.hasWholeCopy_of_copyOutside htidy hcarries.copied

/-! ## 2. Complete copies -/

/-- What the copies of a run are like. -/
structure CopiesWhole (start : Site) (acts : List Act) (s : Site) : Prop where
  /-- Whoever gets a copy has had a whole copy made of its package where its order says. -/
  whole : ∀ i t k, s.answer? i = some (t, .ok (.copied k)) → ∃ w order directory s₂ s₃,
    HasCopyMade start acts i w order directory (.ok ()) s₂ s₃ ∧
    (s₂.tree.IsTidy → HasWholeCopy lockName directory order.destination s₂.tree s₃.tree)
  /-- Where there were no links, it is where the destination folds to, if that is apart from the package. -/
  unlinked : ∀ i w order directory s₂ s₃ P, HasCopyMade start acts i w order directory (.ok ()) s₂ s₃ →
    s₂.tree.IsTidy → s₂.tree.IsLinkless → s₂.tree.look true directory = .ok (P, .directory) →
    FileTree.Apart P (s₂.tree.folded order.destination) →
    FileTree.IsWholeCopy lockName order.destination P (s₂.tree.folded order.destination) s₂.tree s₃.tree
  /-- Whoever has had a copy made with something in its way does not get it: its answer has the name of the
  destination in it, if it does not come from its budget. -/
  blocked : ∀ i w order directory result s₂ s₃ P,
    HasCopyMade start acts i w order directory result s₂ s₃ → s₂.tree.IsTidy →
    s₂.tree.look true directory = .ok (P, .directory) →
    s₂.tree.IsBlocked lockName P order.destination → ∀ t answer, s.answer? i = some (t, answer) →
      IsCopyOverrun answer ∨ ∃ e, answer = .error (.ofFile order.destination e)
  /-- A caller who waits for a worker that has something in its way is told so with two moves. -/
  told : ∀ i c allowance order w cw P, s.call? i = some c → c.stage = .copying allowance order w →
    allowance.budget.cancelled = false → s.copyWork? w = some cw → cw.result = none → s.tree.IsTidy →
    s.tree.look true cw.source = .ok (P, .directory) → s.tree.IsBlocked lockName P order.destination →
    ∃ s' e, s.run? [.move w, .move i] = some s' ∧
      s'.answer? i = some (s.now, .error (.ofFile order.destination e))
  /-- A caller who comes for a copy with something in its way is told so all by itself, if the package is
  ready and the locks are free. -/
  report : ∀ i c p order opened tree P, s.call? i = some c → c.stage = .coming → c.wish = .copy order →
    s.package? c.package = some p → IsUnopposed s c p →
    (FileAction.openFile (lockPath p.directory)).run s.tree = (opened, tree) → tree.IsTidy →
    tree.look true p.directory = .ok (P, .directory) → tree.IsBlocked lockName P order.destination →
    ∃ s' e, s.run? (s.soloCopy i) = some s' ∧
      s'.answer? i = some (s.now, .error (.ofFile order.destination e))

/-- However builds, copies, cancellations and the clock are interleaved, a copy that a caller gets is a whole
one, and nobody gets one that a file or a clash is in the way of. -/
theorem copies_whole (epoch : Nat) (tree : FileTree) (acts : List Act) (s : Site)
    (hrun : (Site.empty epoch tree).run? acts = some s) : CopiesWhole (.empty epoch tree) acts s where
  whole i t k hanswer := by
    obtain ⟨w, order, directory, s₂, s₃, hmade⟩ := hasCopyMade_of_answer hrun hanswer
    exact ⟨w, order, directory, s₂, s₃, hmade, hmade.hasWholeCopy⟩
  unlinked i w order directory s₂ s₃ P hmade htidy hlinkless hlook hapart :=
    (hmade.hasWholeCopy htidy).of_isLinkless hlinkless hlook hapart
  blocked i w order directory result s₂ s₃ P hmade htidy hlook hblocked t answer hanswer := by
    refine (hmade.reports hrun hanswer).imp_right fun hreports => ?_
    obtain ⟨before, middle, rest, s₀, s₁, c, p, -, -, -, -, hcarries⟩ := hmade
    obtain ⟨e, tree', hfails⟩ := FileTree.copyOutside_of_isBlocked htidy hlook hblocked
    obtain ⟨rfl, -⟩ := Prod.mk.inj (hcarries.copied.symm.trans hfails)
    cases hreports with
    | failed e => exact ⟨e, rfl⟩
  told i c allowance order w cw P hi hstage hcancelled hw hnone htidy hlook hblocked := by
    obtain ⟨-, p, cw', hp, hw', -, htarget⟩ :=
      (orderPast_of_run (fun _ => rfl) (fun _ => rfl) hrun hi).works allowance order w hstage
    obtain rfl := Option.some.inj (hw.symm.trans hw')
    obtain ⟨e, tree', hfails⟩ := FileTree.copyOutside_of_isBlocked htidy hlook hblocked
    rw [← htarget] at hfails
    obtain ⟨s', answer, hrun', -, hreports, hanswer⟩ :=
      told_of_work hi hstage hcancelled (by rw [hp]; rfl) hw hnone hfails
    cases hreports with
    | failed e => exact ⟨s', e, hrun', hanswer⟩
  report i c p order opened tree P hi hcoming hwish hp hfree hopen htidy hlook hblocked := by
    obtain ⟨e, tree', hfails⟩ := FileTree.copyOutside_of_isBlocked htidy hlook hblocked
    have hopened : ((FileAction.openFile (lockPath p.directory)).run s.tree).2 = tree := by rw [hopen]
    obtain ⟨s', answer, hrun', -, hreports, hanswer⟩ :=
      told_of_soloCopy hi hcoming hwish hp hfree (hopened ▸ hfails)
    cases hreports with
    | failed e => exact ⟨s', e, hrun', hanswer⟩

/-- A caller has got its locks, and somebody lays out the files anew before its worker begins. -/
def laidOutRun (tree : FileTree) : List Act :=
  hiringRun ++ [.edit tree]

theorem run?_laidOutRun (tree : FileTree) :
    ∃ s c allowance, (Site.empty 0 .empty).run? (laidOutRun tree) = some s ∧ s.call? 0 = some c ∧
      c.stage = .copying allowance ⟨"c", "c"⟩ 2 ∧ allowance.budget.cancelled = false ∧
      (s.package? c.package).isSome = true ∧ s.copyWork? 2 = some ⟨"p", "c", none⟩ ∧ s.tree = tree ∧
      s.now = 0 := by
  have hviews : ((Site.empty 0 .empty).run? hiringRun).bind (fun s => (s.call? 0).bind fun c =>
      (s.copyWork? 2).bind fun cw => match c.stage with
        | .copying allowance order w => some ((allowance.budget.cancelled, order, w),
            ((s.package? c.package).isSome, cw.source, cw.target, cw.result.isNone), s.now)
        | _ => none) =
      some ((false, ⟨"c", "c"⟩, 2), (true, "p", "c", true), 0) := by decide +kernel
  obtain ⟨s, hrun, h⟩ := Option.bind_eq_some_iff.mp hviews
  obtain ⟨c, hi, h⟩ := Option.bind_eq_some_iff.mp h
  obtain ⟨⟨source, target, result⟩, hw, h⟩ := Option.bind_eq_some_iff.mp h
  split at h
  · rename_i allowance order w hstage
    simp only [Option.some.injEq, Prod.mk.injEq] at h
    obtain ⟨⟨hcancelled, rfl, rfl⟩, ⟨hpackage, rfl, rfl, hnone⟩, hnow⟩ := h
    obtain rfl := Option.isNone_iff_eq_none.mp hnone
    refine ⟨{ s with tree }, c, allowance, ?_, hi, hstage, hcancelled, hpackage, hw, rfl, hnow⟩
    rw [laidOutRun, run?_concat, hrun]
    rfl
  · cases h

/-- The package has a file in a directory.  At the destination there are such a directory with a file of the
same name, and another file. -/
def mergeTree : FileTree :=
  { ((((((FileTree.empty.put ["work", "p"] .directory).put ["work", "p", "bin"] .directory).put
    ["work", "p", "bin", "app"] (.file 0 [1])).put ["work", "c"] .directory).put
    ["work", "c", "bin"] .directory).put ["work", "c", "bin", "app"] (.file 1 [2])).put
    ["work", "c", "note"] (.file 2 [3]) with nextNumber := 3 }

/-- There is a file in the place of a directory of the package. -/
def clashTree : FileTree :=
  { (((FileTree.empty.put ["work", "p"] .directory).put ["work", "p", "bin"] .directory).put
    ["work", "c"] .directory).put ["work", "c", "bin"] (.file 0 []) with nextNumber := 1 }

theorem clash_clashTree :
    clashTree.Clash lockName ["work", "p"] ["work", "c"] ["bin"] .directory (.file 0 []) where
  here := .entry (by decide) (by decide +kernel)
  there := .entry (by decide) (by decide +kernel)
  plain := ⟨rfl, rfl⟩
  kinds := nofun

/-- A copy into what is there, and one that meets a clash. -/
theorem copies_whole_laidOutRun :
    (∃ s k, (Site.empty 0 .empty).run? (laidOutRun mergeTree ++ [.move 2, .move 0]) = some s ∧
      s.answer? 0 = some (0, .ok (.copied k)) ∧
      CopiesWhole (.empty 0 .empty) (laidOutRun mergeTree ++ [.move 2, .move 0]) s ∧
      (s.tree.entryAt? ["work", "c", "bin", "app"], s.tree.entryAt? ["work", "c", "note"]) =
        (some (.file 1 [1]), some (.file 2 [3]))) ∧
    ∃ s s' e, (Site.empty 0 .empty).run? (laidOutRun clashTree) = some s ∧
      s.run? [.move 2, .move 0] = some s' ∧ s'.answer? 0 = some (0, .error (.ofFile "c" e)) := by
  constructor
  · obtain ⟨s, c, allowance, hrun, hi, hstage, hcancelled, hp, hw, htree, hnow⟩ :=
      run?_laidOutRun mergeTree
    obtain ⟨merged, hcopy, hentries⟩ : ∃ t, (FileAction.copyOutside lockName "p" "c").run mergeTree =
        (.ok (), t) ∧ (t.entryAt? ["work", "c", "bin", "app"], t.entryAt? ["work", "c", "note"]) =
          (some (.file 1 [1]), some (.file 2 [3])) :=
      ⟨_, Prod.ext (by decide +kernel) rfl, by decide +kernel⟩
    obtain ⟨s', answer, hrest, htree', hreports, hanswer⟩ :=
      told_of_work hi hstage hcancelled hp hw rfl (htree.symm ▸ hcopy)
    have hrun' : (Site.empty 0 .empty).run? (laidOutRun mergeTree ++ [.move 2, .move 0]) = some s' := by
      rw [run?_append, hrun, Option.bind_some, hrest]
    cases hreports with
    | copied k =>
      exact ⟨s', k, hrun', hnow ▸ hanswer, copies_whole 0 .empty _ s' hrun', htree' ▸ hentries⟩
  · obtain ⟨s, c, allowance, hrun, hi, hstage, hcancelled, -, hw, htree, hnow⟩ :=
      run?_laidOutRun clashTree
    have htidy : clashTree.IsTidy := by decide +kernel
    have hlook : clashTree.look true "p" = .ok (["work", "p"], .directory) := by decide +kernel
    have hwith : clashTree.withDirectory "c" = clashTree := by decide +kernel
    have hblocked : clashTree.IsBlocked lockName ["work", "p"] "c" :=
      .clash ["work", "c"] ["bin"] .directory (.file 0 []) (by decide +kernel)
        (hwith.symm ▸ clash_clashTree)
    rw [← htree] at htidy hlook hblocked
    obtain ⟨s', e, hrun', hanswer⟩ := (copies_whole 0 .empty _ s hrun).told 0 c allowance _ 2 _
      ["work", "p"] hi hstage hcancelled hw rfl htidy hlook hblocked
    exact ⟨s, s', e, hrun, hrun', hnow ▸ hanswer⟩

/-- There is a link in the place of a file of the package. -/
def linkedCopy : Site :=
  { orderedCopy "c" with
    tree := { ((((FileTree.empty.put ["work", "p"] .directory).put ["work", "p", "app"] (.file 0 [1])).put
      ["work", "c"] .directory).put ["work", "c", "old"] (.file 1 [2])).put
      ["work", "c", "app"] (.link "old") with nextNumber := 2 } }

/-- A copy goes through a link that is in the place of one of its files: another file of the destination
has other bytes afterwards, and the link is there still. -/
theorem copied_through_link :
    ∃ s' k, linkedCopy.run? (linkedCopy.soloCopy 0) = some s' ∧
      s'.answer? 0 = some (0, .ok (.copied k)) ∧
      linkedCopy.tree.listing ["work", "p"] = ["app"] ∧
      linkedCopy.tree.entryAt? ["work", "p", "app"] = some (.file 0 [1]) ∧
      (linkedCopy.tree.entryAt? ["work", "c", "old"], s'.tree.entryAt? ["work", "c", "old"],
        s'.tree.entryAt? ["work", "c", "app"]) =
        (some (.file 1 [2]), some (.file 1 [1]), some (.link "old")) := by
  obtain ⟨locked, hopen, hlocked⟩ : ∃ t, (FileAction.openFile (lockPath "p")).run linkedCopy.tree =
      (.ok 2, t) ∧ t = { linkedCopy.tree.put ["work", "p", lockName] (.file 2 []) with nextNumber := 3 } :=
    ⟨_, Prod.ext (by decide +kernel) rfl, by decide +kernel⟩
  -- the copy does not depend on which of the two names comes first
  have hlisting : locked.listing ["work", "p"] ∈ [["app", lockName], [lockName, "app"]] := by
    have hnames : (locked.entries.map (·.1)).filterMap (FileTree.nameIn? ["work", "p"]) =
        ["app", lockName] := by
      rw [hlocked]
      decide +kernel
    have hperm := locked.listing_perm ["work", "p"]
    rw [hnames] at hperm
    exact List.mem_permutations'.mpr hperm
  obtain ⟨copied, hcopy, hentries⟩ : ∃ t, (FileAction.copyOutside lockName "p" "c").run locked =
      (.ok (), t) ∧ (t.entryAt? ["work", "c", "old"], t.entryAt? ["work", "c", "app"]) =
        (some (.file 1 [1]), some (.link "old")) := by
    have hresolve : locked.resolve "c" = .ok ["work", "c"] := by
      rw [hlocked]
      decide +kernel
    have hlook : locked.look true "p" = .ok (["work", "p"], .directory) := by
      rw [hlocked]
      decide +kernel
    have hmade : (FileAction.makeDirectoryAll "c").run locked = (.ok (), locked) := by
      rw [hlocked]
      decide +kernel
    have hrun : (FileAction.copyOutside lockName "p" "c").run locked =
        ((locked.listing ["work", "p"]).forM
          (FileAction.copyEntry lockName 2047 "p" "c" ["work", "p"])).run locked := by
      rw [FileAction.copyOutside_run, hresolve, hlook]
      dsimp only
      rw [if_neg (by decide), FileAction.maxDepth, FileAction.copyDirectory_run, hmade]
      dsimp only
      rw [hlook]
    rw [hrun]
    simp only [List.mem_cons, List.not_mem_nil, or_false] at hlisting
    rcases hlisting with hlisting | hlisting <;>
    · rw [hlisting, hlocked]
      exact ⟨_, Prod.ext (by decide +kernel) rfl, by decide +kernel⟩
  have hcopy' : (FileAction.copyOutside lockName "p" "c").run
      ((FileAction.openFile (lockPath "p")).run linkedCopy.tree).2 = (.ok (), copied) := by
    rw [hopen]
    exact hcopy
  obtain ⟨s', answer, hrun, htree, hreports, hanswer⟩ := told_of_soloCopy (s := linkedCopy) (i := 0)
    rfl rfl rfl rfl ⟨⟨_, rfl⟩, rfl, rfl, rfl, rfl, 2, locked, hopen, rfl⟩ hcopy'
  have hold : linkedCopy.tree.entryAt? ["work", "c", "old"] = some (.file 1 [2]) := by decide +kernel
  cases hreports with
  | copied k =>
    exact ⟨s', k, hrun, hanswer, by decide +kernel, by decide +kernel, Prod.ext hold (htree ▸ hentries)⟩

/-- Three copies to where `c` is, apart from the package: one that goes through a link there, one that makes
a directory by the name of a lock file, as its destination says, and one with a clash whose caller has
no budget left. -/
theorem copy_exceptions :
    FileTree.Apart ["work", "p"] ["work", "c"] ∧
    (linkedCopy.tree.folded "c" = ["work", "c"] ∧ ∃ s' k,
      linkedCopy.run? (linkedCopy.soloCopy 0) = some s' ∧ s'.answer? 0 = some (0, .ok (.copied k)) ∧
      linkedCopy.tree.listing ["work", "p"] = ["app"] ∧
      linkedCopy.tree.entryAt? ["work", "p", "app"] = some (.file 0 [1]) ∧
      (linkedCopy.tree.entryAt? ["work", "c", "old"], s'.tree.entryAt? ["work", "c", "old"],
        s'.tree.entryAt? ["work", "c", "app"]) =
        (some (.file 1 [2]), some (.file 1 [1]), some (.link "old"))) ∧
    ((orderedCopy "c/.runpad.lock/..").tree.folded "c/.runpad.lock/.." = ["work", "c"] ∧ ∃ s',
      (orderedCopy "c/.runpad.lock/..").run? ((orderedCopy "c/.runpad.lock/..").soloCopy 0) = some s' ∧
      s'.answer? 0 = some (0, .ok (.copied 1)) ∧
      s'.tree.entryAt? ["work", "c", lockName] = some .directory) ∧
    (clashTree.Clash lockName ["work", "p"] ["work", "c"] ["bin"] .directory (.file 0 []) ∧ ∃ s',
      (Site.empty 0 .empty).run? (laidOutRun clashTree ++ [.cancel 0, .move 0]) = some s' ∧
      s'.answer? 0 = some (0, .error (.budget ⟨"package.copy", 0, true⟩))) := by
  refine ⟨by constructor <;> decide, ⟨by decide +kernel, copied_through_link⟩,
    ⟨by decide +kernel, ?_⟩, clash_clashTree, ?_⟩
  · have hviews : ((orderedCopy "c/.runpad.lock/..").run?
        ((orderedCopy "c/.runpad.lock/..").soloCopy 0)).map (fun s' =>
          (s'.answer? 0, s'.tree.entryAt? ["work", "c", lockName])) =
        some (some (0, .ok (.copied 1)), some .directory) := by decide +kernel
    obtain ⟨s', hrun, hviews⟩ := Option.map_eq_some_iff.mp hviews
    exact ⟨s', hrun, Prod.mk.inj hviews⟩
  · have hanswer : ((Site.empty 0 .empty).run? (laidOutRun clashTree ++ [.cancel 0, .move 0])).map
        (·.answer? 0) = some (some (0, .error (.budget ⟨"package.copy", 0, true⟩))) := by
      decide +kernel
    exact Option.map_eq_some_iff.mp hanswer

end Playground.Site
