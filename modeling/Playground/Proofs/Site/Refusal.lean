import Mathlib.Data.List.Infix
import Playground.Proofs.Site.FirstDemand
import Playground.Proofs.Site.Sparing
/-!
# Copies that are refused

A caller who wants a copy into the directory of its package, when that is ready and nobody has its
locks, comes to its end all by itself: it takes the locks, its worker sees where the destination lies,
and the caller hears of it.  Whatever the others do meanwhile, it never gets the copy.
-/

namespace Playground.Site

open FileTree (KeepsAt Belongs IsAside)

variable {s s' s₁ : Site} {i w : PartyId} {c : Call} {p : Package} {order : CopyOrder} {S : Place}
  {id : PackageId} {party party' : Party} {lock lock' : Slots} {tree tree' : FileTree}
  {held held' : List (Nat × PartyId)} {allowance : Budget.Allowance} {grip grip' : Grip} {file : Nat}
  {rest : List Act}

/-! ## 1. A caller on its own -/

/-- From a site, nothing but a party, the lock of its package, the files and the holders of lock files
has changed. -/
structure Proceeds (s : Site) (i : PartyId) (id : PackageId) (p : Package) (party : Party)
    (lock : Slots) (tree : FileTree) (held : List (Nat × PartyId)) (s' : Site) : Prop where
  parties : s'.parties = s.parties.set i party
  package : s'.package? id = some { p with lock }
  now : s'.now = s.now
  tree : s'.tree = tree
  held : s'.held = held

namespace Proceeds

theorem start (hi : s.parties[i]? = some party) (hp : s.package? id = some p) :
    Proceeds s i id p party p.lock s.tree s.held s where
  parties := by
    obtain ⟨hlt, hget⟩ := List.getElem?_eq_some_iff.mp hi
    rw [← hget, List.set_getElem_self]
  package := hp
  now := rfl
  tree := rfl
  held := rfl

/-- The party goes on. -/
theorem next (h : Proceeds s i id p party lock tree held s') (s₁ : Site)
    (hparties : s₁.parties = s'.parties) (hpackage : s₁.package? id = some { p with lock := lock' })
    (hnow : s₁.now = s'.now) (htree : s₁.tree = tree') (hheld : s₁.held = held') :
    Proceeds s i id p party' lock' tree' held' (s₁.setParty i party') where
  parties := by
    have hset : (s₁.setParty i party').parties = s₁.parties.set i party' := rfl
    rw [hset, hparties, h.parties, List.set_set]
  package := hpackage
  now := hnow.trans h.now
  tree := htree
  held := hheld

theorem act?_move {old : Party} (h : Proceeds s i id p party lock tree held s')
    (hi : s.parties[i]? = some old) : s'.act? (.move i) = s'.move? i party := by
  rw [act?, h.parties, List.getElem?_set_self (List.getElem?_eq_some_iff.mp hi).1]
  rfl

end Proceeds

theorem moveCall?_coming (hp : s.package? c.package = some p) (hstage : c.stage = .coming)
    (hdue : Clock.hasFired s.now c.start = true)
    (htime : (c.terms.grant s.now).budget.isExceeded s.now = false) (i : PartyId) : s.moveCall? i c =
      some (s.setParty i (.call { c with stage := .asking (c.terms.grant s.now) })) := by
  have hwithin : (c.terms.grant s.now).budget.ensureWithin s.now "package.ensure_ready" = .ok () := by
    rw [Budget.ensureWithin, htime]
    rfl
  simp only [moveCall?, hp, hstage, hdue, hwithin, Option.bind_eq_bind, Option.bind_some,
    Bool.not_true, Bool.false_eq_true, if_false]

/-- Caller `c` on its way from a site. -/
abbrev Goes (s : Site) (i : PartyId) (c : Call) (p : Package) (stage : CallStage) (lock : Slots)
    (tree : FileTree) (held : List (Nat × PartyId)) (s' : Site) : Prop :=
  Proceeds s i c.package p (.call { c with stage }) lock tree held s'

namespace Goes

variable {stage : CallStage}

theorem grips {old : Party} (h : Goes s i c p (.gripping allowance order grip) lock tree held s')
    (hi : s.parties[i]? = some old)
    (hstep : s'.gripStep c.package { p with lock } i allowance.budget grip = .next s₁ grip') :
    s'.act? (.move i) =
      some (s₁.setParty i (.call { c with stage := .gripping allowance order grip' })) := by
  rw [h.act?_move hi, move?, moveCall?, h.package]
  dsimp only [Option.bind_eq_bind, Option.bind_some]
  rw [hstep]

/-- A caller whose package is ready goes on to its locks at once. -/
theorem asked {old : Party} {artifact : Artifact} (h : Goes s i c p .coming lock tree held s')
    (hi : s.parties[i]? = some old) (hwish : c.wish = .copy order)
    (hdue : Clock.hasFired s.now c.start = true)
    (htime : (c.terms.grant s.now).budget.isExceeded s.now = false)
    (hready : p.lifecycle.phase = .ready artifact) (hclean : p.lifecycle.dirty = false) :
    ∃ s₁, s'.run? (List.replicate 2 (.move i)) = some s₁ ∧
      Goes s i c p (.gripping (c.terms.grant s.now) order .wanted) lock tree held s₁ := by
  rw [← h.now] at hdue htime ⊢
  have hcome : s'.act? (.move i) =
      some (s'.setParty i (.call { c with stage := .asking (c.terms.grant s'.now) })) := by
    rw [h.act?_move hi]
    exact moveCall?_coming (c := { c with stage := .coming }) h.package rfl hdue htime i
  have hasking : Goes s i c p (.asking (c.terms.grant s'.now)) lock tree held
      (s'.setParty i (.call { c with stage := .asking (c.terms.grant s'.now) })) :=
    h.next s' rfl h.package rfl h.tree h.held
  generalize c.terms.grant s'.now = allowance at *
  generalize s'.setParty i (.call { c with stage := .asking allowance }) = s₁ at *
  have houtcome : p.lifecycle.phase.outcome? = some (.ok artifact) := by
    rw [hready]
    rfl
  -- a demand for a package that is ready puts its life back as it was
  generalize hs₂ : s₁.updatePackage c.package (fun q => { q with lifecycle := p.lifecycle }) = s₂
  have hdemand : s₁.demand c.package { p with lock } = (s₂, .settled (.ok artifact)) := by
    rw [demand, Lifecycle.demand_of_settled houtcome hclean, ← hs₂]
  have hask : s₁.act? (.move i) =
      some (s₂.setParty i (.call { c with stage := .gripping allowance order .wanted })) := by
    rw [hasking.act?_move hi, move?, moveCall?, hasking.package]
    dsimp only [Option.bind_eq_bind, Option.bind_some]
    rw [hdemand]
    dsimp only [afterOutcome]
    rw [hwish]
  refine ⟨s₂.setParty i (.call { c with stage := .gripping allowance order .wanted }), ?_,
    hasking.next s₂ ?_ ?_ ?_ ?_ ?_⟩
  · simp only [List.replicate, run?, hcome, hask, Option.bind_some]
  · rw [← hs₂]
    rfl
  · rw [← hs₂]
    exact (List.getElem?_modify_eq _ _ _).trans (congrArg _ hasking.package)
  all_goals rw [← hs₂]
  · rfl
  · exact hasking.tree
  · exact hasking.held

/-- If nobody stands in its way, it comes to the lock file, and finds that free. -/
theorem gripped {old : Party} (h : Goes s i c p (.gripping allowance order .wanted) .lock tree held s')
    (hi : s.parties[i]? = some old) (htime : allowance.budget.isExceeded s.now = false)
    (hopen : (FileAction.openFile (lockPath p.directory)).run tree = (.ok file, tree')) :
    ∃ s₁, s'.run? (List.replicate 3 (.move i)) = some s₁ ∧
      Goes s i c p (.gripping allowance order (.trying file)) (Slots.lock.enter i) tree' held s₁ := by
  have hqueue := h.grips hi (gripStep_wanted (h.now ▸ htime) _ _)
  have hqueued : Goes s i c p (.gripping allowance order .queued) (Slots.lock.enter i) tree held _ :=
    h.next (s'.updatePackage c.package fun q => { q with lock := q.lock.enter i }) rfl
      ((List.getElem?_modify_eq _ _ _).trans (congrArg _ h.package)) rfl h.tree h.held
  generalize (s'.updatePackage c.package fun q => { q with lock := q.lock.enter i }).setParty i
    (.call { c with stage := .gripping allowance order .queued }) = s₁ at *
  have hlock : (Slots.lock.enter i).isHeldBy i = true := by
    simp [Slots.lock, Slots.ofPermits, Slots.enter, Slots.isFull, Slots.isHeldBy]
  have hpromote := hqueued.grips hi
    (gripStep_queued (Budget.cancelled_of_isExceeded htime) hlock c.package)
  have hpromoted : Goes s i c p (.gripping allowance order .opening) (Slots.lock.enter i) tree held _ :=
    hqueued.next s₁ rfl hqueued.package rfl hqueued.tree hqueued.held
  generalize s₁.setParty i (.call { c with stage := .gripping allowance order .opening }) = s₂ at *
  rw [← hpromoted.tree] at hopen
  have hopened := hpromoted.grips hi (gripStep_opening (n := i) hopen c.package allowance.budget)
  refine ⟨_, ?_, hpromoted.next { s₂ with tree := tree' } rfl hpromoted.package rfl rfl hpromoted.held⟩
  simp only [List.replicate, run?, hqueue, hpromote, hopened, Option.bind_some]

/-- It takes the lock file, and sets a worker on the copy. -/
theorem hired {old : Party} (h : Goes s i c p (.gripping allowance order (.trying file)) lock tree held s')
    (hi : s.parties[i]? = some old) (htime : allowance.budget.isExceeded s.now = false)
    (hfree : held.any (·.1 == file) = false) :
    ∃ s₁, s'.act? (.move i) = some s₁ ∧
      s₁.call? i = some { c with stage := .copying allowance order s.parties.length } ∧
      s₁.copyWork? s.parties.length = some ⟨p.directory, order.destination, none⟩ ∧
      (s₁.package? c.package).isSome = true ∧ s₁.tree = tree ∧ s₁.now = s.now := by
  have hparty : s'.parties[i]? =
      some (.call { c with stage := .gripping allowance order (.trying file) }) := by
    rw [h.parties, List.getElem?_set_self (List.getElem?_eq_some_iff.mp hi).1]
  have hlength : s'.parties.length = s.parties.length := by rw [h.parties, List.length_set]
  have hfree' : s'.isHeld file = false := by
    rw [isHeld, h.held]
    exact hfree
  -- nothing has changed that the check looks at
  have hwithin : allowance.budget.ensureWithin s'.now "package.copy" = .ok () := by
    rw [Budget.ensureWithin, h.now, htime]
    rfl
  generalize hs₁ : ({ s' with
    held := (file, i) :: s'.held
    parties := (s'.parties ++ [Party.copyWork ⟨p.directory, order.destination, none⟩]).set i
      (.call { c with stage := .copying allowance order s'.parties.length }) } : Site) = s₁
  have hstart : s'.act? (.move i) = some s₁ := by
    rw [h.act?_move hi, move?, moveCall?, h.package]
    dsimp only [Option.bind_eq_bind, Option.bind_some]
    rw [gripStep_trying hfree']
    dsimp only [startCopy]
    rw [hwithin, ← hs₁]
    rfl
  have hparties : s₁.parties = (s'.parties ++ [Party.copyWork ⟨p.directory, order.destination, none⟩]).set i
      (.call { c with stage := .copying allowance order s'.parties.length }) := by rw [← hs₁]
  rw [← hlength]
  refine ⟨s₁, hstart, call?_of_concat_set hparty rfl hparties, ?_, ?_, ?_, ?_⟩
  · have hworks : s₁.copyWork? = Function.update s'.copyWork? s'.parties.length _ :=
      look_concat_set_of_none _ hparty rfl rfl hparties
    rw [hworks, Function.update_self]
    rfl
  · have hpackage : s₁.package? c.package = s'.package? c.package := by
      rw [← hs₁]
      rfl
    rw [hpackage, h.package]
    rfl
  · rw [← hs₁]
    exact h.tree
  · rw [← hs₁]
    exact h.now

end Goes

/-- The caller of a copy is answered, and the files stay as they are. -/
theorem afterCopy_reports (hparty : s.parties[i]? = some party) (c : Call) (p : Package)
    (order : CopyOrder) (result : Except FileError Unit) :
    (s.afterCopy i c p order result).tree = s.tree ∧ ∃ answer, order.Reports result answer ∧
      (s.afterCopy i c p order result).answer? i = some (s.now, answer) := by
  have hanswer : ∀ {s₁ : Site} {answer}, s₁.parties = s.parties →
      (s₁.reply i c answer).answer? i = some (s₁.now, answer) := by
    intro s₁ answer hparties
    have hcall : (s₁.reply i c answer).call? i =
        some { c with stage := .answered s₁.now answer } :=
      call?_of_set (hparties ▸ hparty) rfl
    rw [answer?, call?_eq_some.mp hcall]
  cases result with
  | error e => exact ⟨rfl, _, .failed e, hanswer rfl⟩
  | ok u => exact ⟨rfl, _, .copied _, hanswer rfl⟩

/-- What a worker comes to, its caller is told when it looks. -/
theorem told_of_work {result : Except FileError Unit} {cw : CopyWork} (hi : s.call? i = some c)
    (hstage : c.stage = .copying allowance order w) (hcancelled : allowance.budget.cancelled = false)
    (hp : (s.package? c.package).isSome = true) (hw : s.copyWork? w = some cw) (hnone : cw.result = none)
    (hrun : (FileAction.copyOutside lockName cw.source cw.target).run s.tree = (result, tree)) :
    ∃ s' answer, s.run? [.move w, .move i] = some s' ∧ s'.tree = tree ∧ order.Reports result answer ∧
      s'.answer? i = some (s.now, answer) := by
  have hparty : s.parties[i]? = some (.call c) := call?_eq_some.mp hi
  have hworker : s.parties[w]? = some (.copyWork cw) := copyWork?_eq_some.mp hw
  obtain ⟨p, hp⟩ := Option.isSome_iff_exists.mp hp
  -- first the worker copies
  have hwork : s.act? (.move w) = some ({ s with tree }.setParty w
      (.copyWork { cw with result := some result })) := by
    rw [act?, hworker, Option.bind_some, move?, moveCopy?_of_run hnone hrun]
  generalize hs₁ : { s with tree }.setParty w (.copyWork { cw with result := some result }) = s₁ at *
  have hparties : s₁.parties = s.parties.set w (.copyWork { cw with result := some result }) := by
    rw [← hs₁]
    rfl
  have hne : w ≠ i := by
    rintro rfl
    cases hparty.symm.trans hworker
  have hparty₁ : s₁.parties[i]? = some (.call c) := by rw [hparties, List.getElem?_set_ne hne, hparty]
  have hresult : s₁.copyResult? w = some result := by
    rw [copyResult?, hparties, List.getElem?_set_self (List.getElem?_eq_some_iff.mp hworker).1]
  -- then the caller looks, and nobody has cancelled it
  have hpoll : allowance.budget.poll s₁.now "package.copy" (s₁.copyResult? w) = .won result := by
    rw [hresult, Budget.poll.eq_def, hcancelled]
    rfl
  have hp₁ : s₁.package? c.package = some p := by
    rw [← hs₁]
    exact hp
  have htell : s₁.act? (.move i) = some (s₁.afterCopy i c p order result) := by
    rw [act?, hparty₁, Option.bind_some, move?, moveCall?, hp₁, hstage]
    dsimp only [Option.bind_eq_bind, Option.bind_some]
    rw [hpoll]
  obtain ⟨htree, answer, hreports, hanswer⟩ := afterCopy_reports hparty₁ c p order result
  refine ⟨s₁.afterCopy i c p order result, answer, ?_, htree.trans (by rw [← hs₁]; rfl), hreports, ?_⟩
  · simp only [run?, hwork, htell, Option.bind_some]
  · rw [hanswer, ← hs₁]
    rfl

/-! ## 2. Copies and their source -/

/-- The package of a call that is due is ready, and the caller finds its locks free and has time left. -/
structure IsUnopposed (s : Site) (c : Call) (p : Package) : Prop where
  ready : ∃ artifact, p.lifecycle.phase = .ready artifact
  clean : p.lifecycle.dirty = false
  due : Clock.hasFired s.now c.start = true
  time : (c.terms.grant s.now).budget.isExceeded s.now = false
  lock : p.lock = .lock
  opens : ∃ file tree, (FileAction.openFile (lockPath p.directory)).run s.tree = (.ok file, tree) ∧
    s.isHeld file = false

/-- What a caller who wants a copy does if nobody stands in its way, with its worker. -/
def soloCopy (s : Site) (i : PartyId) : List Act :=
  List.replicate 6 (.move i) ++ [.move s.parties.length, .move i]

/-- The caller hears what the copy comes to in the tree that has the lock file in it. -/
theorem told_of_soloCopy {result : Except FileError Unit} (hcall : s.call? i = some c)
    (hcoming : c.stage = .coming) (hwish : c.wish = .copy order) (hp : s.package? c.package = some p)
    (hfree : IsUnopposed s c p)
    (hcopy : (FileAction.copyOutside lockName p.directory order.destination).run
      ((FileAction.openFile (lockPath p.directory)).run s.tree).2 = (result, tree')) :
    ∃ s' answer, s.run? (s.soloCopy i) = some s' ∧ s'.tree = tree' ∧ order.Reports result answer ∧
      s'.answer? i = some (s.now, answer) := by
  have hi : s.parties[i]? = some (.call c) := call?_eq_some.mp hcall
  obtain ⟨artifact, hready⟩ := hfree.ready
  obtain ⟨file, tree, hopen, hheld⟩ := hfree.opens
  have hstart : Goes s i c p .coming .lock s.tree s.held s := by
    have h := Proceeds.start hi hp
    rw [hfree.lock] at h
    have hself : { c with stage := .coming } = c := by rw [← hcoming]
    rwa [← hself] at h
  obtain ⟨s₁, hrun₁, h₁⟩ := hstart.asked hi hwish hfree.due hfree.time hready hfree.clean
  obtain ⟨s₂, hrun₂, h₂⟩ := h₁.gripped hi hfree.time hopen
  obtain ⟨s₃, hact₃, hcall₃, hwork, hpackage, htree, hnow⟩ := h₂.hired hi hfree.time hheld
  rw [hopen, ← htree] at hcopy
  obtain ⟨s', answer, hrun', htree', hreports, hanswer⟩ := told_of_work hcall₃ rfl
    (Budget.cancelled_of_isExceeded hfree.time) hpackage hwork rfl hcopy
  refine ⟨s', answer, ?_, htree', hreports, hnow ▸ hanswer⟩
  have hsix : (List.replicate 6 (.move i) : List Act) =
      List.replicate 2 (.move i) ++ (List.replicate 3 (.move i) ++ [.move i]) := rfl
  rw [soloCopy, hsix, run?_append, run?_append, hrun₁, Option.bind_some, run?_append, hrun₂,
    Option.bind_some, run?, hact₃, Option.bind_some, run?, Option.bind_some, hrun']

theorem ComesToCopy.fails (hcomes : ComesToCopy s i c p order S) (hfree : IsUnopposed s c p)
    (hinside : S <+: s.tree.folded order.destination) :
    ∃ s' e, s.run? (s.soloCopy i) = some s' ∧
      s'.answer? i = some (s.now, .error (.ofFile order.destination e)) := by
  have hat : IsAt s.tree p.directory S :=
    .of_look hcomes.linkless hcomes.tidy hcomes.look hcomes.entry
  -- the lock file may be new, and the directory is where it was
  have hkeeps : KeepsAt (Belongs S lockName) s.tree
      ((FileAction.openFile (lockPath p.directory)).run s.tree).2 :=
    (openLock_keepsAt hat.linkless hat.tidy hat.ne_empty hat.place).mono fun _ hq => hq.2
  have hat' := hat.of_keepsAt hkeeps
  obtain ⟨e, hfails⟩ := FileAction.copyOutside_inside lockName hat'.linkless hat'.tidy
    hat'.place ((hkeeps.folded order.destination).symm ▸ hinside)
  obtain ⟨s', answer, hrun, -, hreports, hanswer⟩ :=
    told_of_soloCopy hcomes.call hcomes.coming hcomes.wish hcomes.package hfree hfails
  cases hreports with
  | failed e => exact ⟨s', e, hrun, hanswer⟩

/-- What a caller for a copy of a package leaves alone, and how it fares if it wants the copy inside. -/
structure LeavesSource (s : Site) (rest : List Act) (s' : Site) (i : PartyId) (c : Call) (p : Package)
    (order : CopyOrder) (S : Place) : Prop where
  /-- Everything in the directory of the package stays as it is, but for the lock file. -/
  source : IsSafe s.tree S order.destination → KeepsAt (Belongs S lockName) s.tree s'.tree
  /-- A copy into the directory itself makes nothing anywhere but the lock file. -/
  refusal : S <+: s.tree.folded order.destination →
    Along (fun s a s' => IsOfCopy i p.directory order.destination s a →
      KeepsAt (· ≠ S ++ [lockName]) s.tree s'.tree) s rest
  /-- Nobody gets such a copy. -/
  failure : S <+: s.tree.folded order.destination → ∀ t answer, s'.answer? i = some (t, answer) →
    ∃ e, answer = .error e
  /-- The caller hears so, and needs nobody for it, if the package is ready and the locks are free. -/
  report : S <+: s.tree.folded order.destination → IsUnopposed s c p →
    ∃ s₁ e, s.run? (s.soloCopy i) = some s₁ ∧
      s₁.answer? i = some (s.now, .error (.ofFile order.destination e))

/-- Whatever the destination is, and however the copy ends, it leaves alone the package that it is of,
unless the destination gets in the way. -/
theorem copy_leaves_source (s : Site) (i : PartyId) (c : Call) (p : Package) (order : CopyOrder)
    (S : Place) (hcomes : ComesToCopy s i c p order S) (rest : List Act) (s' : Site)
    (hrest : s.run? rest = some s')
    (hothers : Along (CopyOrSpare i p.directory order.destination S) s rest) :
    LeavesSource s rest s' i c p order S := by
  have hat : IsAt s.tree p.directory S :=
    .of_look hcomes.linkless hcomes.tidy hcomes.look hcomes.entry
  have hstart : CopyCourse s p.directory order S i s :=
    ⟨.refl _ _, c, p, hcomes.call, hcomes.wish, hcomes.package, rfl,
      fun _ => .of_coming hcomes.coming⟩
  have hend : IsSafe s.tree S order.destination → CopyCourse s p.directory order S i s' :=
    fun hsafe => hothers.preserves (P := CopyCourse s p.directory order S i)
      (fun ha hact hc => (hc.act hat hsafe ha hact).1) hrest hstart
  refine ⟨fun hsafe => (hend hsafe).keeps, fun hinside => ?_, fun hinside t answer hanswer => ?_,
    fun hinside hfree => hcomes.fails hfree hinside⟩
  · exact hothers.strengthen (P := CopyCourse s p.directory order S i) (fun ha hact hc =>
      ⟨(hc.act hat (.inr hinside) ha hact).1, (hc.act hat (.inr hinside) ha hact).2 hinside⟩) hstart
  · obtain ⟨c', p', hi', -, -, -, hrefused⟩ := (hend (.inr hinside)).caller
    obtain ⟨c'', hi'', hstage⟩ := call?_of_answer? hanswer
    obtain rfl := Option.some.inj (hi'.symm.trans hi'')
    exact (hrefused hinside).answers t answer hstage

/-- Package `p` has been built, and a caller comes for a copy of it. -/
def orderedCopy (destination : Path) : Site where
  now := 0
  epoch := 0
  tree := FileTree.empty.put ["work", "p"] .directory
  packages := [⟨"p", "p", 0, ⟨.throttled 0, Clock.seconds 1⟩,
    ⟨.ready ⟨"p/app", 0, false⟩, false, some 0, false⟩, .lock, 1⟩]
  builders := [⟨fun _ _ => ⟨some 0, fun t => (.built "app", t)⟩, [0]⟩]
  parties := [.call ⟨0, 0, ⟨none, false, none⟩, .copy ⟨"c", destination⟩, .coming⟩]
  held := []

/-- One destination leads through the package and out again, the other comes to lie in it. -/
theorem copy_leaves_source_orderedCopy :
    (∃ s', (orderedCopy "p/../c").run? ((orderedCopy "p/../c").soloCopy 0) = some s' ∧
      s'.answer? 0 = some (0, .ok (.copied 1)) ∧
      KeepsAt (Belongs ["work", "p"] lockName) (orderedCopy "p/../c").tree s'.tree) ∧
    ∃ s' e, (orderedCopy "c/../p/c").run? ((orderedCopy "c/../p/c").soloCopy 0) = some s' ∧
      s'.answer? 0 = some (0, .error e) ∧
      KeepsAt (Belongs ["work", "p"] lockName) (orderedCopy "c/../p/c").tree s'.tree := by
  have hlinkless : (FileTree.empty.put ["work", "p"] .directory).IsLinkless := by decide
  have htidy : (FileTree.empty.put ["work", "p"] .directory).IsTidy := by decide
  have hlook : (FileTree.empty.put ["work", "p"] .directory).look true "p" =
      .ok (["work", "p"], .directory) := by decide +kernel
  have hentry : (FileTree.empty.put ["work", "p"] .directory).entryAt? ["work", "p"] =
      some .directory := by decide
  have hleaves : ∀ {destination s'}, (orderedCopy destination).run?
        ((orderedCopy destination).soloCopy 0) = some s' →
      Along (fun s a _ => IsOfCopy 0 "p" destination s a) (orderedCopy destination)
        ((orderedCopy destination).soloCopy 0) →
      LeavesSource (orderedCopy destination) ((orderedCopy destination).soloCopy 0) s' 0 _ _
        ⟨"c", destination⟩ ["work", "p"] := fun {destination s'} hrun hcopy =>
    copy_leaves_source (orderedCopy destination) 0 _ _ ⟨"c", destination⟩ ["work", "p"]
      ⟨rfl, rfl, rfl, rfl, hlinkless, htidy, hlook, hentry⟩ _ s' hrun
      (hcopy.strengthen (P := fun _ => True) (fun _ hcopy _ => ⟨trivial, .inl hcopy⟩) trivial)
  constructor
  · have hviews : ((orderedCopy "p/../c").run? ((orderedCopy "p/../c").soloCopy 0)).map
        (·.answer? 0) = some (some (0, .ok (.copied 1))) := by decide +kernel
    obtain ⟨s', hrun, hanswer⟩ := Option.map_eq_some_iff.mp hviews
    have hway : ∀ front ∈ (Path.segments "p/../c").inits,
        ["work", "p"] <+: FileTree.fold ["work"] front →
        ((orderedCopy "p/../c").tree.entryAt? (FileTree.fold ["work"] front)).isSome = true := by
      decide +kernel
    have hfolded : (orderedCopy "p/../c").tree.folded "p/../c" = ["work", "c"] := by decide +kernel
    refine ⟨s', hrun, hanswer, (hleaves hrun (by decide +kernel)).source (.inl ⟨?_, ?_⟩)⟩
    · rintro q ⟨front, hfront, rfl⟩ hbelongs
      exact hway front ((List.mem_inits _ _).mpr hfront) hbelongs.1
    · intro r _ _ hbelow
      rw [hfolded] at hbelow
      simp at hbelow
  · have hinside : ["work", "p"] <+: (orderedCopy "c/../p/c").tree.folded "c/../p/c" := by
      decide +kernel
    have hviews : ((orderedCopy "c/../p/c").run? ((orderedCopy "c/../p/c").soloCopy 0)).bind
        (fun s => (s.answer? 0).map (·.1)) = some 0 := by decide +kernel
    obtain ⟨s', hrun, hanswer⟩ := Option.bind_eq_some_iff.mp hviews
    obtain ⟨⟨now, answer⟩, hanswer, rfl⟩ := Option.map_eq_some_iff.mp hanswer
    have h := hleaves hrun (by decide +kernel)
    obtain ⟨e, rfl⟩ := h.failure hinside _ answer hanswer
    exact ⟨s', e, hrun, hanswer, h.source (.inr hinside)⟩

/-- The same, with a file where the destination leads to. -/
def blockedCopy : Site :=
  { orderedCopy "p/new/../../c" with
    tree := (FileTree.empty.put ["work", "p"] .directory).put ["work", "c"] (.file 0 []) }

/-- On the way to its destination, a copy makes a directory in the package that it is of, and fails
then. -/
theorem copy_spoils_source :
    ∃ s', blockedCopy.run? (blockedCopy.soloCopy 0) = some s' ∧
      blockedCopy.tree.folded "p/new/../../c" = ["work", "c"] ∧
      (blockedCopy.tree.entryAt? ["work", "p", "new"], s'.tree.entryAt? ["work", "p", "new"]) =
        (none, some .directory) := by
  have hviews : (blockedCopy.run? (blockedCopy.soloCopy 0)).map (fun s' =>
      (blockedCopy.tree.folded "p/new/../../c",
        (blockedCopy.tree.entryAt? ["work", "p", "new"], s'.tree.entryAt? ["work", "p", "new"]))) =
      some (["work", "c"], (none, some .directory)) := by decide +kernel
  obtain ⟨s', hrun, hviews⟩ := Option.map_eq_some_iff.mp hviews
  obtain ⟨hfolded, hentries⟩ := Prod.mk.inj hviews
  exact ⟨s', hrun, hfolded, hentries⟩

end Playground.Site
