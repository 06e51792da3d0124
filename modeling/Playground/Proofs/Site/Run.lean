import Mathlib.Data.List.Induction
import Mathlib.Logic.Function.Basic
import Playground.Proofs.Site.Effect
/-!
# Runs of a site

Whatever can happen on a site is an act, and a run is a list of acts in any order.  An act is read
here as a change of three things only: the builds, the phases of the packages, and the calls.
-/

namespace Playground

/-- What can happen on a site.  Builds, callers and copies move one step at a time. -/
inductive Act where
  | move (i : PartyId)
  /-- A caller cancels its budget. -/
  | cancel (i : PartyId)
  /-- The task of a build panics or is aborted. -/
  | drop (i : PartyId)
  | come (package : PackageId) (start : Instant) (terms : Budget.Terms) (wish : Wish)
  | invalidate (id : PackageId)
  | wait (d : Duration)
  /-- Somebody changes the files. -/
  | edit (tree : FileTree)
  | provide (builder : Builder)
  | found (name : String) (directory : Path) (builder : BuilderId) (options : PackageOptions)
  | hold (directory : Path) (releaseAfter : Option Duration)
  | unhold (directory : Path)

/-- The build that a party is. -/
def Party.build? : Party → Option Build
  | build b => some b
  | _ => none

/-- The call that a party is. -/
def Party.call? : Party → Option Call
  | call c => some c
  | _ => none

/-- Whether a party is neither a build nor a call. -/
def Party.isBystander : Party → Bool
  | copyWork _ => true
  | outsider _ => true
  | _ => false

/-- What a build has settled its package with. -/
def Build.outcome? (b : Build) : Option Outcome :=
  match b.stage with
  | .telling o => some o
  | .ended o => some o
  | _ => none

theorem Build.stage_of_outcome? {b : Build} {o : Outcome} (h : b.outcome? = some o) :
    b.stage = .telling o ∨ b.stage = .ended o := by
  unfold outcome? at h
  split at h
  · exact .inl (Option.some.inj h ▸ ‹_›)
  · exact .inr (Option.some.inj h ▸ ‹_›)
  · cases h

/-- The phase that an outcome settles a package in. -/
def Phase.ofOutcome : Outcome → Phase
  | .ok a => .ready a
  | .error e => .faulted e

theorem Party.build?_of_isBystander (party : Party) (h : party.isBystander = true) :
    party.build? = none := by
  cases party with
  | build b => cases h
  | _ => rfl

theorem Party.call?_of_isBystander (party : Party) (h : party.isBystander = true) :
    party.call? = none := by
  cases party with
  | call c => cases h
  | _ => rfl

theorem Build.outcome?_of_isOpen {b : Build} (h : b.isOpen = true) : b.outcome? = none := by
  unfold isOpen at h
  unfold outcome?
  split <;> simp_all

@[simp] theorem Phase.outcome?_ofOutcome (o : Outcome) : (Phase.ofOutcome o).outcome? = some o := by
  cases o <;> rfl

theorem Phase.ofOutcome_ne_building (o : Outcome) (b : BuildId) : ofOutcome o ≠ building b := by
  intro h
  cases o <;> cases h

theorem Lifecycle.publish_phase (l : Lifecycle) (o : Outcome) :
    (l.publish o).phase = .ofOutcome o := by
  cases o <;> rfl

namespace Site

variable {s s' : Site} {a : Act} {i : PartyId}

/-! ## 1. Acts -/

/-- What a view shows of the party with a number. -/
def look {α : Type} (view : Party → Option α) (s : Site) (i : PartyId) : Option α :=
  s.parties[i]?.bind view

/-- The build with a number. -/
def build? (s : Site) (i : PartyId) : Option Build := s.look Party.build? i

/-- The call with a number. -/
def call? (s : Site) (i : PartyId) : Option Call := s.look Party.call? i

/-- The phase of a package. -/
def phase? (s : Site) (id : PackageId) : Option Phase := s.lives[id]?.map (·.phase)

/-- What a build has settled its package with, whether or not it has told so. -/
def published? (s : Site) (i : PartyId) : Option Outcome := (s.build? i).bind Build.outcome?

/-- Cancels the budget of a caller who has no answer yet. -/
def cancelCall? (s : Site) (i : PartyId) : Option Site :=
  (s.call? i).bind fun c => c.stage.allowance?.map fun a =>
    let stage := c.stage.withAllowance { a with budget := a.budget.cancel }
    s.setParty i (.call { c with stage })

/-- Drops a build that has not settled its package.  It gives up its locks and settles the package
as aborted. -/
def dropBuild? (s : Site) (i : PartyId) : Option Site :=
  (s.build? i).bind fun b =>
    if b.isOpen then
      (s.package? b.package).map fun p => s.conclude i b p (.error (.aborted p.name))
    else none

/-- The site after an act, if the act is possible. -/
def act? (s : Site) : Act → Option Site
  | .move i => s.parties[i]?.bind (s.move? i)
  | .cancel i => s.cancelCall? i
  | .drop i => s.dropBuild? i
  | .come package start terms wish =>
      some (s.addParty (.call ⟨package, start, terms, wish, .coming⟩)).1
  | .invalidate id => (s.package? id).map fun p => (s.invalidate id p).1
  | .wait d => some (s.moveTo (s.now + d))
  | .edit tree => some { s with tree }
  | .provide builder => some (s.addBuilder builder).1
  | .found name directory builder options =>
      some (s.addPackage (.fresh name directory builder options)).1
  | .hold directory releaseAfter => some (s.hold directory releaseAfter).1
  | .unhold directory => some (s.unhold directory).1

/-- The site after some acts, if they are possible one after the other. -/
def run? (s : Site) : List Act → Option Site
  | [] => some s
  | a :: acts => (s.act? a).bind (·.run? acts)

theorem run?_append (s : Site) (before after : List Act) :
    s.run? (before ++ after) = (s.run? before).bind (·.run? after) := by
  induction before generalizing s with
  | nil => rfl
  | cons a before ih =>
    rw [List.cons_append, run?, run?, Option.bind_assoc]
    exact congrArg _ (funext ih)

theorem run?_concat (s : Site) (acts : List Act) (a : Act) :
    s.run? (acts ++ [a]) = (s.run? acts).bind (·.act? a) := by
  rw [run?_append]
  refine congrArg _ (funext fun s₁ => ?_)
  exact Option.bind_fun_some (s₁.act? a)

/-- What holds before a run, and goes on with every act, holds of the whole run and what it leads to. -/
theorem run?_induction {start : Site} {P : List Act → Site → Prop} (hstart : P [] start)
    (hact : ∀ {acts s a s'}, start.run? acts = some s → s.act? a = some s' → P acts s →
      P (acts ++ [a]) s') {acts : List Act} (h : start.run? acts = some s) : P acts s := by
  -- on the run from its end, since a record of the run goes on with the last act
  induction acts using List.reverseRecOn generalizing s with
  | nil => exact Option.some.inj h ▸ hstart
  | append_singleton acts a ih =>
    rw [run?_concat] at h
    obtain ⟨s₁, hbefore, hlast⟩ := Option.bind_eq_some_iff.mp h
    exact hact hbefore hlast (ih hbefore)

/-- What every act preserves, every run preserves. -/
theorem run?_preserves {P : Site → Prop} (hact : ∀ {s a s'}, s.act? a = some s' → P s → P s')
    {acts : List Act} (h : s.run? acts = some s') (hs : P s) : P s' := by
  induction acts generalizing s with
  | nil => exact Option.some.inj h ▸ hs
  | cons a acts ih =>
    obtain ⟨s₁, hfirst, hrest⟩ := Option.bind_eq_some_iff.mp h
    exact ih hrest (hact hfirst hs)

/-- Every act of a run is such a passage from one state to the next. -/
def Along (Q : Site → Act → Site → Prop) : Site → List Act → Prop
  | _, [] => True
  | s, a :: acts => ∀ s', s.act? a = some s' → Q s a s' ∧ Along Q s' acts

instance decidableAlong (Q : Site → Act → Site → Prop) [∀ s a s', Decidable (Q s a s')] :
    (s : Site) → (acts : List Act) → Decidable (Along Q s acts)
  | _, [] => isTrue trivial
  | s, a :: acts =>
      match h : s.act? a with
      | none => isTrue fun _ hs' => nomatch h.symm.trans hs'
      | some s₁ =>
          have := decidableAlong Q s₁ acts
          decidable_of_iff (Q s a s₁ ∧ Along Q s₁ acts)
            ⟨fun hQ _ hs' => Option.some.inj (h.symm.trans hs') ▸ hQ, fun hQ => hQ s₁ h⟩

/-- What every such act preserves, a run of such acts preserves. -/
theorem Along.preserves {Q : Site → Act → Site → Prop} {P : Site → Prop}
    (hact : ∀ {s a s'}, s.act? a = some s' → Q s a s' → P s → P s') {acts : List Act}
    (hacts : Along Q s acts) (h : s.run? acts = some s') (hs : P s) : P s' := by
  induction acts generalizing s with
  | nil => exact Option.some.inj h ▸ hs
  | cons a acts ih =>
    obtain ⟨s₁, hfirst, hrest⟩ := Option.bind_eq_some_iff.mp h
    obtain ⟨hQ, hacts⟩ := hacts s₁ hfirst
    exact ih hacts hrest (hact hfirst hQ hs)

theorem along_concat {Q : Site → Act → Site → Prop} {acts : List Act}
    (h : s.run? acts = some s') (a : Act) :
    Along Q s (acts ++ [a]) ↔ Along Q s acts ∧ ∀ s'', s'.act? a = some s'' → Q s' a s'' := by
  induction acts generalizing s with
  | nil =>
    cases h
    exact ⟨fun hQ => ⟨trivial, fun s'' ha => (hQ s'' ha).1⟩, fun hQ s'' ha => ⟨hQ.2 s'' ha, trivial⟩⟩
  | cons a' acts ih =>
    obtain ⟨s₁, hfirst, hrest⟩ := Option.bind_eq_some_iff.mp h
    constructor
    · intro hQ
      obtain ⟨hhead, htail⟩ := hQ s₁ hfirst
      obtain ⟨htail, hlast⟩ := (ih hrest).mp htail
      exact ⟨fun s₂ hs₂ => Option.some.inj (hfirst.symm.trans hs₂) ▸ ⟨hhead, htail⟩, hlast⟩
    · rintro ⟨hQ, hlast⟩ s₂ hs₂
      obtain rfl := Option.some.inj (hfirst.symm.trans hs₂)
      obtain ⟨hhead, htail⟩ := hQ s₁ hfirst
      exact ⟨hhead, (ih hrest).mpr ⟨htail, hlast⟩⟩

theorem build?_eq_some {b : Build} : s.build? i = some b ↔ s.parties[i]? = some (.build b) := by
  unfold build? look
  cases s.parties[i]? with
  | none => simp
  | some party => cases party <;> simp [Party.build?]

theorem call?_eq_some {c : Call} : s.call? i = some c ↔ s.parties[i]? = some (.call c) := by
  unfold call? look
  cases s.parties[i]? with
  | none => simp
  | some party => cases party <;> simp [Party.call?]

/-- What an act does, and when it is possible.  Whatever is to be known of all acts is read off this
list. -/
inductive ActTurn (s : Site) : Act → Site → Prop where
  | build (i : PartyId) (b : Build) (s' : Site) (hi : s.parties[i]? = some (.build b))
      (h : s.moveBuild? i b = some s') : ActTurn s (.move i) s'
  | call (i : PartyId) (c : Call) (s' : Site) (hi : s.parties[i]? = some (.call c))
      (h : s.moveCall? i c = some s') : ActTurn s (.move i) s'
  | copy (i : PartyId) (w : CopyWork) (result : Except FileError Unit) (tree : FileTree)
      (hi : s.parties[i]? = some (.copyWork w)) (hnone : w.result = none)
      (hrun : (FileAction.copyOutside lockName w.source w.target).run s.tree = (result, tree)) :
      ActTurn s (.move i) ({ s with tree }.setParty i (.copyWork { w with result := some result }))
  | depart (i : PartyId) (o : Outsider) (hi : s.parties[i]? = some (.outsider o))
      (hholds : o.holds = true) :
      ActTurn s (.move i) ({ s with held := s.held.filter (·.2 != i) }.setParty i
        (.outsider { o with holds := false }))
  | cancel (i : PartyId) (c : Call) (a : Budget.Allowance) (hi : s.parties[i]? = some (.call c))
      (ha : c.stage.allowance? = some a) :
      ActTurn s (.cancel i) (s.setParty i
        (.call { c with stage := c.stage.withAllowance { a with budget := a.budget.cancel } }))
  | drop (i : PartyId) (b : Build) (p : Package) (hi : s.parties[i]? = some (.build b))
      (hopen : b.isOpen = true) (hp : s.package? b.package = some p) :
      ActTurn s (.drop i) (s.conclude i b p (.error (.aborted p.name)))
  | come (package : PackageId) (start : Instant) (terms : Budget.Terms) (wish : Wish) :
      ActTurn s (.come package start terms wish)
        (s.addParty (.call ⟨package, start, terms, wish, .coming⟩)).1
  | invalidate (id : PackageId) (p : Package) (hp : s.package? id = some p) :
      ActTurn s (.invalidate id) (s.invalidate id p).1
  | wait (d : Duration) : ActTurn s (.wait d) (s.moveTo (s.now + d))
  | edit (tree : FileTree) : ActTurn s (.edit tree) { s with tree }
  | provide (builder : Builder) : ActTurn s (.provide builder) (s.addBuilder builder).1
  | found (name : String) (directory : Path) (builder : BuilderId) (options : PackageOptions) :
      ActTurn s (.found name directory builder options)
        (s.addPackage (.fresh name directory builder options)).1
  | knock (directory : Path) (releaseAfter : Option Duration) (result : Except FileError Nat)
      (tree : FileTree)
      (hopen : (FileAction.openFile (lockPath directory)).run s.tree = (result, tree)) :
      ActTurn s (.hold directory releaseAfter) { s with tree }
  | visit (directory : Path) (releaseAfter : Option Duration) (file : Nat) (tree : FileTree)
      (hopen : (FileAction.openFile (lockPath directory)).run s.tree = (.ok file, tree))
      (hfree : s.isHeld file = false) :
      ActTurn s (.hold directory releaseAfter)
        { s with
          tree, held := (file, s.parties.length) :: s.held
          parties := s.parties ++
            [.outsider ⟨directory, releaseAfter.map (s.now + ·), true⟩] }
  | nobody (directory : Path) : ActTurn s (.unhold directory) s
  | dismiss (i : PartyId) (o : Outsider) (hi : s.parties[i]? = some (.outsider o))
      (hholds : o.holds = true) :
      ActTurn s (.unhold o.directory) ({ s with held := s.held.filter (·.2 != i) }.setParty i
        (.outsider ⟨o.directory, none, false⟩))

theorem actTurn_move {party : Party} (hi : s.parties[i]? = some party)
    (h : s.move? i party = some s') : ActTurn s (.move i) s' := by
  cases party with
  | build b => exact .build i b s' hi h
  | call c => exact .call i c s' hi h
  | copyWork w =>
    unfold move? moveCopy? onTree at h
    dsimp only at h
    split at h
    · cases h
    · rw [← Option.some.inj h]
      exact .copy i w _ _ hi ‹_› rfl
  | outsider o =>
    unfold move? moveOutsider? at h
    dsimp only at h
    split at h
    · rename_i hdue
      rw [← Option.some.inj h]
      exact .depart i o hi (Bool.and_eq_true_iff.mp hdue).1
    · cases h

theorem actTurn_hold (s : Site) (directory : Path) (releaseAfter : Option Duration) :
    ActTurn s (.hold directory releaseAfter) (s.hold directory releaseAfter).1 := by
  unfold hold onTree
  cases hopen : (FileAction.openFile (lockPath directory)).run s.tree with
  | mk result tree =>
    cases result with
    | error e => exact .knock directory releaseAfter _ tree hopen
    | ok file =>
      dsimp only
      split
      · exact .knock directory releaseAfter _ tree hopen
      · exact .visit directory releaseAfter file tree hopen (eq_false_of_ne_true ‹_›)

theorem actTurn_unhold (s : Site) (directory : Path) :
    ActTurn s (.unhold directory) (s.unhold directory).1 := by
  unfold unhold
  dsimp only
  split
  · exact .nobody directory
  · rename_i i hholder
    -- only an outsider is looked for who holds this lock file
    obtain ⟨hlt, hholds, -⟩ := List.findIdx?_eq_some_iff_getElem.mp hholder
    have hi : s.parties[i]? = some s.parties[i] := List.getElem?_eq_getElem hlt
    generalize s.parties[i] = party at hi hholds
    cases party with
    | outsider o =>
      obtain ⟨hheld, hdirectory⟩ := Bool.and_eq_true_iff.mp hholds
      obtain rfl := eq_of_beq hdirectory
      exact .dismiss i o hi hheld
    | _ => cases hholds

/-- What an act does. -/
theorem act?_turn (h : s.act? a = some s') : ActTurn s a s' := by
  cases a with
  | move i =>
    obtain ⟨party, hi, h⟩ := Option.bind_eq_some_iff.mp h
    exact actTurn_move hi h
  | cancel i =>
    obtain ⟨c, hi, h⟩ := Option.bind_eq_some_iff.mp h
    obtain ⟨allowance, hallowance, rfl⟩ := Option.map_eq_some_iff.mp h
    exact .cancel i c allowance (call?_eq_some.mp hi) hallowance
  | drop i =>
    obtain ⟨b, hi, h⟩ := Option.bind_eq_some_iff.mp h
    split at h
    · obtain ⟨p, hp, rfl⟩ := Option.map_eq_some_iff.mp h
      exact .drop i b p (build?_eq_some.mp hi) ‹_› hp
    · cases h
  | come package start terms wish =>
    rw [← Option.some.inj h]
    exact .come package start terms wish
  | invalidate id =>
    obtain ⟨p, hp, rfl⟩ := Option.map_eq_some_iff.mp h
    exact .invalidate id p hp
  | wait d =>
    rw [← Option.some.inj h]
    exact .wait d
  | edit tree =>
    rw [← Option.some.inj h]
    exact .edit tree
  | provide builder =>
    rw [← Option.some.inj h]
    exact .provide builder
  | found name directory builder options =>
    rw [← Option.some.inj h]
    exact .found name directory builder options
  | hold directory releaseAfter =>
    rw [← Option.some.inj h]
    exact actTurn_hold s directory releaseAfter
  | unhold directory =>
    rw [← Option.some.inj h]
    exact actTurn_unhold s directory

/-! ## 2. Effects of acts -/

/-- What an act changes. -/
inductive Effect (s : Site) (a : Act) (s' : Site) : Prop where
  | still (hparties : s'.parties = s.parties) (hphases : s'.phase? = s.phase?)
  | build (i : PartyId) (b : Build) (hi : s.parties[i]? = some (.build b))
      (h : BuildEffect s i b s')
  | call (i : PartyId) (c : Call) (ha : a = .move i) (hi : s.parties[i]? = some (.call c))
      (h : CallEffect s i c s')
  | cancel (i : PartyId) (c : Call) (allowance : Budget.Allowance)
      (hi : s.parties[i]? = some (.call c))
      (hparties : s'.parties =
        s.parties.set i (.call { c with stage := c.stage.withAllowance allowance }))
      (hlives : s'.lives = s.lives)
      (hallowance : ∃ old, c.stage.allowance? = some old ∧
        allowance = { old with budget := old.budget.cancel })
  | other (i : PartyId) (old new : Party) (hi : s.parties[i]? = some old)
      (hold : old.isBystander = true) (hnew : new.isBystander = true)
      (hparties : s'.parties = s.parties.set i new) (hlives : s'.lives = s.lives)
  | enter (new : Party) (hnew : new.isBystander = true)
      (hparties : s'.parties = s.parties ++ [new]) (hlives : s'.lives = s.lives)
  | come (c : Call) (hc : c.stage = .coming)
      (hparties : s'.parties = s.parties ++ [.call c]) (hlives : s'.lives = s.lives)
  | found (hparties : s'.parties = s.parties) (hlives : s'.lives = s.lives ++ [.fresh])

theorem phase?_of_lives (h : s'.lives = s.lives) : s'.phase? = s.phase? := by
  funext id
  rw [phase?, phase?, h]

theorem phase?_modify {id : PackageId} {f : Lifecycle → Lifecycle}
    (h : s'.lives = s.lives.modify id f) (id' : PackageId) :
    s'.phase? id' =
      if id = id' then (s.lives[id]?).map fun l => (f l).phase else s.phase? id' := by
  rw [phase?, h, List.getElem?_modify]
  split
  · rename_i heq
    rw [heq]
    cases s.lives[id']? <;> rfl
  · cases hl : s.lives[id']? <;> simp [phase?, hl]

theorem Effect.of_same (h : Same s s') : Effect s a s' := .still h.parties (phase?_of_lives h.lives)

theorem effect_of_invalidate {id : PackageId} {p : Package} (hp : s.package? id = some p) :
    Effect s a (s.invalidate id p).1 := by
  -- an invalidation sets flags and leaves the phase alone
  have hphase : (p.lifecycle.invalidate p.options.rebuild).1.phase = p.lifecycle.phase := by
    unfold Lifecycle.invalidate
    split <;> rfl
  have hlives : (s.invalidate id p).1.lives =
      s.lives.modify id fun _ => (p.lifecycle.invalidate p.options.rebuild).1 :=
    lives_updatePackage s id fun _ => rfl
  refine .still rfl (funext fun id' => ?_)
  rw [phase?_modify hlives]
  split
  · rename_i heq
    rw [← heq, phase?, lives_getElem?, hp]
    exact congrArg some hphase
  · rfl

theorem act?_effect (h : s.act? a = some s') : Effect s a s' := by
  cases act?_turn h with
  | build i b _ hi h => exact .build i b hi (moveBuild?_effect h)
  | call i c _ hi h => exact .call i c rfl hi (moveCall?_effect h)
  | copy i w result tree hi => exact .other i _ _ hi rfl rfl rfl rfl
  | depart i o hi => exact .other i _ _ hi rfl rfl rfl rfl
  | cancel i c allowance hi hallowance =>
    exact .cancel i c _ hi rfl rfl ⟨allowance, hallowance, rfl⟩
  | drop i b p hi hopen hp =>
    -- a drop ends the build like a failure of its own
    exact .build i b hi (.of_conclude (.refl s) hopen (lt_length_lives hp) _)
  | come => exact .come _ rfl rfl rfl
  | invalidate id p hp => exact effect_of_invalidate hp
  | found => exact .found rfl List.map_append
  | visit => exact .enter _ rfl rfl rfl
  | dismiss i o hi => exact .other i _ _ hi rfl rfl rfl rfl
  | _ => exact .of_same ⟨rfl, rfl⟩

/-! ## 3. What becomes of builds and phases -/

theorem getElem?_concat {α : Type} (l : List α) (x : α) (n : Nat) :
    (l ++ [x])[n]? = if n = l.length then some x else l[n]? := by
  split
  · rename_i heq
    rw [heq, List.getElem?_concat_length]
  · rename_i hne
    rcases Nat.lt_or_ge n l.length with hlt | hge
    · rw [List.getElem?_append_left hlt]
    · have hlong : (l ++ [x]).length ≤ n := by
        rw [List.length_append, List.length_singleton]
        omega
      rw [List.getElem?_eq_none hlong, List.getElem?_eq_none hge]

section Views

variable {α : Type} (view : Party → Option α) {old new : Party}

theorem look_of_eq (h : s'.parties = s.parties) : s'.look view = s.look view := by
  funext n
  rw [look, h]
  rfl

theorem look_set (hi : s.parties[i]? = some old) (h : s'.parties = s.parties.set i new) :
    s'.look view = Function.update (s.look view) i (view new) := by
  have hlt : i < s.parties.length := (List.getElem?_eq_some_iff.mp hi).1
  funext n
  rw [look, h, Function.update_apply]
  split
  · rename_i heq
    rw [heq, List.getElem?_set_self hlt]
    rfl
  · rename_i hne
    rw [List.getElem?_set_ne (Ne.symm hne)]
    rfl

theorem look_concat (h : s'.parties = s.parties ++ [new]) :
    s'.look view = Function.update (s.look view) s.parties.length (view new) := by
  funext n
  rw [look, h, Function.update_apply, getElem?_concat]
  split <;> rfl

theorem look_of_length_le {n : PartyId} (h : s.parties.length ≤ n) : s.look view n = none := by
  rw [look, List.getElem?_eq_none h]
  rfl

theorem look_set_of_none (hi : s.parties[i]? = some old) (hold : view old = none)
    (hnew : view new = none) (h : s'.parties = s.parties.set i new) :
    s'.look view = s.look view := by
  rw [look_set view hi h, Function.update_eq_self_iff, look, hi]
  exact hnew.trans hold.symm

theorem look_concat_of_none (hnew : view new = none) (h : s'.parties = s.parties ++ [new]) :
    s'.look view = s.look view := by
  rw [look_concat view h, Function.update_eq_self_iff, hnew, look_of_length_le _ (Nat.le_refl _)]

variable {entering : Party}

theorem look_concat_set (hi : s.parties[i]? = some old) (hentering : view entering = none)
    (h : s'.parties = (s.parties ++ [entering]).set i new) :
    s'.look view = Function.update (s.look view) i (view new) := by
  have hlt : i < s.parties.length := (List.getElem?_eq_some_iff.mp hi).1
  -- first the new party enters, and then the old one is replaced
  have hconcat : ({ s with parties := s.parties ++ [entering] } : Site).look view = s.look view :=
    look_concat_of_none view hentering rfl
  rw [← hconcat]
  exact look_set view ((List.getElem?_append_left hlt).trans hi) h

/-- A party changes and another one enters, and the view shows neither of them. -/
theorem look_concat_set_of_nones (hi : s.parties[i]? = some old) (hold : view old = none)
    (hentering : view entering = none) (hnew : view new = none)
    (h : s'.parties = (s.parties ++ [entering]).set i new) : s'.look view = s.look view := by
  rw [look_concat_set view hi hentering h, Function.update_eq_self_iff, look, hi]
  exact hnew.trans hold.symm

theorem look_concat_set_of_none (hi : s.parties[i]? = some old) (hold : view old = none)
    (hnew : view new = none) (h : s'.parties = (s.parties ++ [entering]).set i new) :
    s'.look view = Function.update (s.look view) s.parties.length (view entering) := by
  have hlt : i < s.parties.length := (List.getElem?_eq_some_iff.mp hi).1
  have hconcat : ({ s with parties := s.parties ++ [entering] } : Site).look view = _ :=
    look_concat view rfl
  rw [← hconcat]
  exact look_set_of_none view ((List.getElem?_append_left hlt).trans hi) hold hnew h

end Views

/-- What an act changes about builds and phases. -/
inductive BuildsEffect (s s' : Site) : Prop where
  | keep (hbuilds : s'.build? = s.build?) (hphases : s'.phase? = s.phase?)
  | work (n : BuildId) (b : Build) (stage : BuildStage) (hn : s.build? n = some b)
      (hopen : b.isOpen = true) (hstage : ({ b with stage } : Build).isOpen = true)
      (hbuilds : s'.build? = Function.update s.build? n (some { b with stage }))
      (hphases : s'.phase? = s.phase?) (htime : KeepsTime s b stage)
  | settle (n : BuildId) (b : Build) (o : Outcome) (hn : s.build? n = some b)
      (hopen : b.isOpen = true) (ho : NoOverrun o)
      (hbuilds : s'.build? = Function.update s.build? n (some { b with stage := .telling o }))
      (hphases : s'.phase? = Function.update s.phase? b.package (some (.ofOutcome o)))
  | tell (n : BuildId) (b : Build) (o : Outcome) (hn : s.build? n = some b)
      (hstage : b.stage = .telling o)
      (hbuilds : s'.build? = Function.update s.build? n (some { b with stage := .ended o }))
      (hphases : s'.phase? = s.phase?)
  | schedule (n : BuildId) (b : Build) (hn : ∀ m, n ≤ m → s.build? m = none)
      (hopen : b.isOpen = true) (hidle : ∀ m, s.phase? b.package ≠ some (.building m))
      (hbuilds : s'.build? = Function.update s.build? n (some b))
      (hphases : s'.phase? = Function.update s.phase? b.package (some (.building n)))
      (hstage : b.stage = .delayed)
  | reset (id : PackageId) (hidle : ∀ m, s.phase? id ≠ some (.building m))
      (hbuilds : s'.build? = s.build?)
      (hphases : s'.phase? = Function.update s.phase? id (some .notReady))

theorem phase?_modify_of_lt {id : PackageId} {f : Lifecycle → Lifecycle} {phase : Phase}
    (hid : id < s.lives.length) (hf : ∀ l, (f l).phase = phase)
    (h : s'.lives = s.lives.modify id f) :
    s'.phase? = Function.update s.phase? id (some phase) := by
  funext n
  rw [phase?_modify h, Function.update_apply, List.getElem?_eq_getElem hid, Option.map_some, hf]
  by_cases hne : n = id
  · simp [hne]
  · rw [if_neg hne, if_neg (Ne.symm hne)]

theorem phase?_concat (h : s'.lives = s.lives ++ [.fresh]) :
    s.phase? s.lives.length = none ∧
      s'.phase? = Function.update s.phase? s.lives.length (some .notReady) := by
  have hnone : s.phase? s.lives.length = none := by
    rw [phase?, List.getElem?_eq_none (Nat.le_refl _)]
    rfl
  refine ⟨hnone, funext fun n => ?_⟩
  rw [phase?, h, Function.update_apply, getElem?_concat]
  split <;> rfl

theorem BuildEffect.builds {b : Build} (hi : s.parties[i]? = some (.build b))
    (h : BuildEffect s i b s') : BuildsEffect s s' := by
  have hn : s.build? i = some b := build?_eq_some.mpr hi
  cases h with
  | work stage hopen hstage hparties hlives htime =>
    exact .work i b stage hn hopen hstage (look_set _ hi hparties) (phase?_of_lives hlives) htime
  | settle o hopen hknown ho hparties hlives =>
    apply BuildsEffect.settle i b o hn hopen ho (look_set _ hi hparties)
    exact phase?_modify_of_lt hknown (Lifecycle.publish_phase · o) hlives
  | tell o hstage hparties hlives =>
    exact .tell i b o hn hstage (look_set _ hi hparties) (phase?_of_lives hlives)

theorem CallEffect.builds {c : Call} (hi : s.parties[i]? = some (.call c))
    (h : CallEffect s i c s') : BuildsEffect s s' := by
  have hidle : ∀ l : Lifecycle, s.lives[c.package]? = some l → l.IsDue →
      ∀ m, s.phase? c.package ≠ some (.building m) := by
    intro l hl hdue m hphase
    rw [phase?, hl] at hphase
    exact hdue.idle m (Option.some.inj hphase)
  cases h with
  | next stage hstage hparties hlives =>
    exact .keep (look_set_of_none _ hi rfl rfl hparties) (phase?_of_lives hlives)
  | schedule a l start restore hstage hl hdue hparties hlives =>
    -- the new build is the next party, and no build has a number from there on
    refine .schedule s.parties.length ⟨c.package, start, restore, .delayed⟩
      (fun m => look_of_length_le _) rfl (hidle l hl hdue)
      (look_concat_set_of_none _ hi rfl rfl hparties) ?_ rfl
    exact phase?_modify_of_lt (List.getElem?_eq_some_iff.mp hl).1 (fun _ => rfl) hlives
  | offTheClock a l hstage hl hdue hparties hlives =>
    apply BuildsEffect.reset c.package (hidle l hl hdue) (look_set_of_none _ hi rfl rfl hparties)
    exact phase?_modify_of_lt (List.getElem?_eq_some_iff.mp hl).1 (fun _ => rfl) hlives
  | startCopy stage w hcopy hstage hparties hlives =>
    exact .keep (look_concat_set_of_nones _ hi rfl rfl rfl hparties) (phase?_of_lives hlives)
  | finishCopy t answer hcopy hparties hlives =>
    obtain ⟨hnone, hphases⟩ := phase?_concat hlives
    refine .reset s.lives.length (fun m => ?_) (look_set_of_none _ hi rfl rfl hparties) hphases
    rw [hnone]
    intro h
    cases h

theorem Effect.builds (h : Effect s a s') : BuildsEffect s s' := by
  cases h with
  | still hparties hphases => exact .keep (look_of_eq _ hparties) hphases
  | build i b hi h => exact h.builds hi
  | call i c ha hi h => exact h.builds hi
  | cancel i c allowance hi hparties hlives =>
    exact .keep (look_set_of_none _ hi rfl rfl hparties) (phase?_of_lives hlives)
  | other i old new hi hold hnew hparties hlives =>
    exact .keep (look_set_of_none _ hi (old.build?_of_isBystander hold)
      (new.build?_of_isBystander hnew) hparties) (phase?_of_lives hlives)
  | enter new hnew hparties hlives =>
    exact .keep (look_concat_of_none _ (new.build?_of_isBystander hnew) hparties)
      (phase?_of_lives hlives)
  | come c hc hparties hlives =>
    exact .keep (look_concat_of_none _ rfl hparties) (phase?_of_lives hlives)
  | found hparties hlives =>
    obtain ⟨hnone, hphases⟩ := phase?_concat hlives
    refine .reset s.lives.length (fun m => ?_) (look_of_eq _ hparties) hphases
    rw [hnone]
    intro h
    cases h

theorem act?_builds (h : s.act? a = some s') : BuildsEffect s s' := (act?_effect h).builds

/-! ## 4. What becomes of calls -/

/-- The stages that a move can take a call to. -/
inductive CallStep (s : Site) (c : Call) (s' : Site) : CallStage → Prop where
  | next (stage : CallStage) (h : NextStage s c stage) (hphases : s'.phase? = s.phase?) :
      CallStep s c s' stage
  | schedule (a : Budget.Allowance) (l : Lifecycle) (b : BuildId) (h : c.stage = .asking a)
      (hl : s.lives[c.package]? = some l) (hdue : l.IsDue)
      (hphase : s'.phase? c.package = some (.building b)) : CallStep s c s' (.joining a b)
  | offTheClock (a : Budget.Allowance) (l : Lifecycle) (h : c.stage = .asking a)
      (hl : s.lives[c.package]? = some l) (hdue : l.IsDue)
      (hphase : s'.phase? c.package = some .notReady) : CallStep s c s' .offTheClock
  | copy (stage : CallStage) (h : c.stage.isCopy = true)
      (hstage : stage.isCopy = true ∨ ∃ t answer, stage = .answered t answer) :
      CallStep s c s' stage

/-- What an act makes of a call `c` with number `i`. -/
inductive CallChange (s : Site) (a : Act) (s' : Site) (i : PartyId) (c : Call) : Call → Prop where
  | keep : CallChange s a s' i c c
  | cancel (allowance : Budget.Allowance)
      (hallowance : ∃ old, c.stage.allowance? = some old ∧
        allowance = { old with budget := old.budget.cancel }) :
      CallChange s a s' i c { c with stage := c.stage.withAllowance allowance }
  | move (stage : CallStage) (ha : a = .move i) (h : CallStep s c s' stage) :
      CallChange s a s' i c { c with stage }

/-- What an act changes about calls. -/
structure CallsEffect (s : Site) (a : Act) (s' : Site) : Prop where
  old : ∀ i c, s.call? i = some c → ∃ c', s'.call? i = some c' ∧ CallChange s a s' i c c'
  new : ∀ i c', s.call? i = none → s'.call? i = some c' → c'.stage = .coming

theorem CallsEffect.of_eq (h : s'.call? = s.call?) : CallsEffect s a s' := by
  refine ⟨fun n c hn => ⟨c, ?_, .keep⟩, fun n c' hnone hn => ?_⟩
  · rw [h, hn]
  · rw [h, hnone] at hn
    cases hn

/-- One call changes, and all others stay as they are. -/
theorem CallsEffect.of_one {c c' : Call} (hi : s.call? i = some c) (hc : CallChange s a s' i c c')
    (h : s'.call? = Function.update s.call? i (some c')) : CallsEffect s a s' := by
  refine ⟨fun n c₁ hn => ?_, fun n c₁ hnone hn => ?_⟩
  · by_cases hne : n = i
    · subst hne
      rw [hi] at hn
      rw [← Option.some.inj hn, h]
      exact ⟨c', Function.update_self .., hc⟩
    · rw [h]
      exact ⟨c₁, (Function.update_of_ne hne ..).trans hn, .keep⟩
  · by_cases hne : n = i
    · subst hne
      rw [hi] at hnone
      cases hnone
    · rw [h, Function.update_of_ne hne, hnone] at hn
      cases hn

/-- A party enters that is no call, or one that has not asked for anything yet. -/
theorem CallsEffect.of_concat {new : Party} (hnew : ∀ c, new.call? = some c → c.stage = .coming)
    (h : s'.parties = s.parties ++ [new]) : CallsEffect s a s' := by
  have hnone : s.call? s.parties.length = none := look_of_length_le _ (Nat.le_refl _)
  have hcalls : s'.call? = Function.update s.call? s.parties.length new.call? := look_concat _ h
  refine ⟨fun n c hn => ⟨c, ?_, .keep⟩, fun n c' hold hn => ?_⟩
  · have hne : n ≠ s.parties.length := by
      rintro rfl
      rw [hnone] at hn
      cases hn
    rw [hcalls, Function.update_of_ne hne, hn]
  · by_cases hne : n = s.parties.length
    · subst hne
      rw [hcalls, Function.update_self] at hn
      exact hnew c' hn
    · rw [hcalls, Function.update_of_ne hne, hold] at hn
      cases hn

theorem CallEffect.step {c : Call} (hi : s.parties[i]? = some (.call c))
    (h : CallEffect s i c s') :
    ∃ stage, s'.call? = Function.update s.call? i (some { c with stage }) ∧
      CallStep s c s' stage := by
  cases h with
  | next stage hstage hparties hlives =>
    exact ⟨stage, look_set _ hi hparties, .next stage hstage (phase?_of_lives hlives)⟩
  | schedule a l start restore hstage hl hdue hparties hlives =>
    refine ⟨_, look_concat_set _ hi rfl hparties, .schedule a l _ hstage hl hdue ?_⟩
    rw [phase?_modify_of_lt (List.getElem?_eq_some_iff.mp hl).1 (fun _ => rfl) hlives,
      Function.update_self]
  | offTheClock a l hstage hl hdue hparties hlives =>
    refine ⟨_, look_set _ hi hparties, .offTheClock a l hstage hl hdue ?_⟩
    rw [phase?_modify_of_lt (List.getElem?_eq_some_iff.mp hl).1 (fun _ => rfl) hlives,
      Function.update_self]
  | startCopy stage w hcopy hstage hparties hlives =>
    exact ⟨stage, look_concat_set _ hi rfl hparties, .copy stage hcopy (.inl hstage)⟩
  | finishCopy t answer hcopy hparties hlives =>
    exact ⟨_, look_set _ hi hparties, .copy _ hcopy (.inr ⟨t, answer, rfl⟩)⟩

theorem act?_move_call {c : Call} (hi : s.call? i = some c) (h : s.act? (.move i) = some s') :
    ∃ stage, s'.call? = Function.update s.call? i (some { c with stage }) ∧
      CallStep s c s' stage := by
  have hparty : s.parties[i]? = some (.call c) := call?_eq_some.mp hi
  rw [act?, hparty] at h
  exact (moveCall?_effect h).step hparty

theorem Effect.calls (h : Effect s a s') : CallsEffect s a s' := by
  cases h with
  | still hparties hphases => exact .of_eq (look_of_eq _ hparties)
  | build i b hi h =>
    cases h with
    | work stage hopen hstage hparties hlives =>
      exact .of_eq (look_set_of_none _ hi rfl rfl hparties)
    | settle o hopen hknown ho hparties hlives =>
      exact .of_eq (look_set_of_none _ hi rfl rfl hparties)
    | tell o hstage hparties hlives => exact .of_eq (look_set_of_none _ hi rfl rfl hparties)
  | call i c ha hi h =>
    obtain ⟨stage, hcalls, hstep⟩ := h.step hi
    exact .of_one (call?_eq_some.mpr hi) (.move stage ha hstep) hcalls
  | cancel i c allowance hi hparties hlives hallowance =>
    exact .of_one (call?_eq_some.mpr hi) (.cancel allowance hallowance) (look_set _ hi hparties)
  | other i old new hi hold hnew hparties hlives =>
    exact .of_eq (look_set_of_none _ hi (old.call?_of_isBystander hold)
      (new.call?_of_isBystander hnew) hparties)
  | enter new hnew hparties hlives =>
    refine .of_concat (fun c hc => ?_) hparties
    rw [new.call?_of_isBystander hnew] at hc
    cases hc
  | come c hc hparties hlives =>
    refine .of_concat (fun c' hc' => ?_) hparties
    rw [← Option.some.inj hc']
    exact hc
  | found hparties hlives => exact .of_eq (look_of_eq _ hparties)

theorem act?_calls (h : s.act? a = some s') : CallsEffect s a s' := (act?_effect h).calls

/-- The history of a caller begins when it comes, and goes on with every act. -/
theorem call?_induction {start : Site} {P : List Act → Site → Call → Prop}
    (hstart : start.call? i = none) (hcome : ∀ {acts s c}, c.stage = .coming → P acts s c)
    (hact : ∀ {acts s a s' c c'}, start.run? acts = some s → s.call? i = some c →
      s.act? a = some s' → CallChange s a s' i c c' → s'.call? i = some c' → P acts s c →
      P (acts ++ [a]) s' c')
    {acts : List Act} (hrun : start.run? acts = some s) (hi : s.call? i = some c) : P acts s c := by
  refine run?_induction (P := fun acts s => ∀ c, s.call? i = some c → P acts s c)
    (fun c hi => ?_) (fun {acts s a s'} hrun h ih c' hi' => ?_) hrun c hi
  · cases hstart.symm.trans hi
  · have hcalls := act?_calls h
    -- either the caller has just come, or it has a history that the act continues
    cases hold : s.call? i with
    | none => exact hcome (hcalls.new i c' hold hi')
    | some c =>
      obtain ⟨c₂, hi₂, hchange⟩ := hcalls.old i c hold
      obtain rfl := Option.some.inj (hi'.symm.trans hi₂)
      exact hact hrun hold h hchange hi' (ih c hold)

end Site

end Playground
