/-
# Modules.Leftover -- what a load that fails leaves behind

Any number of loads and unloads are attempted, each in its own thread, and writers, readers,
context switches and timer interrupts run beside them.  `register_kprobe` and `proc_create`
fail as the environment has it.

The init of either module removes its probe when it has no entry for the message, but not
the entry for the pid it has just made.  A run in which no init returns in that state leaves
nothing behind, and no other run does (`leaves_nothing_iff`).

What a thread relies on is its role: it is outside, it has come in through a gate, or it is
the one that changes the module, and then it knows of the gates and entries what it has
done to them.
-/
import Dreamscape.Modules.Load
import Dreamscape.MonitorV2.Timer

namespace Dreamscape.Modules.Load

set_option autoImplicit false

open Theory Kernel MonitorV2

/-! ## What a failed load leaves -/

/-- The module is not loaded: nothing is registered, and if its init has failed, no session
of its own is left. -/
structure Clean (s : Machine) : Prop where
  gates : s.phase = .unloaded ∨ s.phase = .failed → ∀ g, s.registered g = false
  timer : s.phase = .failed → s.core.enqueued = false ∧ s.core.running = none
  events : s.phase = .failed → ∀ ev ∈ s.events, ev ∈ s.core.holdings.released

def LeavesNothing (m : Module) (deeds : List Deed) : Prop :=
  ∀ before, before <+: deeds → Clean (after m before).shared

/-- No init returns with an entry for the pid and none for the message. -/
def Finishes : Condition calls LoadEnv Machine := fun _ _ o _ s =>
  match o with
  | .endInit _ => s.entries .pidEntry ≠ none → s.entries .messageEntry ≠ none
  | _ => True

instance (t : Tid) (e : LoadEnv) (o : Call) (a : o.Ans) (s : Machine) :
    Decidable (Finishes t e o a s) := by
  unfold Finishes
  split <;> infer_instance

/-! ## Roles -/

/-- What is known of a gate. -/
inductive Hold where
  | unknown
  | listed
  | unlisted
  | shut

def Hold.Fits (x : Entrance) : Hold → Prop
  | .unknown => True
  | .listed => x.registered = true
  | .unlisted => x.registered = false
  | .shut => x.registered = false ∧ x.inside = []

/-- What the thread knows that loads or unloads the module. -/
structure Grip where
  gates : Gate → Hold
  entries : Gate → Option Gate

namespace Grip

/-- At the beginning of a load. -/
def fresh : Grip := ⟨fun _ => .shut, fun _ => none⟩

/-- At the beginning of an unload. -/
def full : Grip where
  gates := fun _ => .unknown
  entries := fun g => if g = .probe then none else some g

def learn (k : Grip) (g : Gate) (hold : Hold) : Grip :=
  { k with gates := Function.update k.gates g hold }

def remember (k : Grip) (g : Gate) (entry : Option Gate) : Grip :=
  { k with entries := Function.update k.entries g entry }

structure Holds (k : Grip) (s : Machine) : Prop where
  gates : ∀ g, (k.gates g).Fits (s.core.entrance g)
  entries : s.entries = k.entries

/-- All that was made has been removed. -/
def Undone (k : Grip) : Prop := (∀ g, k.gates g = .shut) ∧ k.entries .pidEntry = none

/-- The entry for the pid is there, and none for the message. -/
def Halfway (k : Grip) : Prop :=
  k.gates .pidEntry = .listed ∧ k.entries .pidEntry ≠ none ∧ k.entries .messageEntry = none

/-- What is known where an init returns. -/
def Ends (k : Grip) (ret : Int) : Prop :=
  if ret < 0 then k.Undone ∨ k.Halfway else k.entries = full.entries

end Grip

inductive Role where
  | outside
  | inside (g : Gate)
  | manages (loads : Bool) (k : Grip)

/-- The phase in which thread `t` loads or unloads the module. -/
def Phase.of (t : Tid) : Bool → Phase
  | true => .loading t
  | false => .unloading t

def Role.visits : Role → Gate → Nat
  | .inside g, g' => if g' = g then 1 else 0
  | .outside, _ | .manages .., _ => 0

def Role.Manages (s : Machine) (t : Tid) : Role → Prop
  | .outside | .inside _ => s.phase.owner ≠ some t
  | .manages loads k => s.phase = .of t loads ∧ k.Holds s

/-- The role describes thread `t`. -/
structure Role.Fits (r : Role) (s : Machine) (t : Tid) : Prop where
  visits : ∀ g, (s.inside g).count t = r.visits g
  manages : r.Manages s t

/-- The calls of the module's own code that go with a role. -/
def Role.May : Role → Op → Prop
  | .outside, .enter _ => True
  | .inside g, .leave g' => g' = g
  | .manages loads _, .unlist g => loads = true → g = .probe
  | .manages _ k, .drain g => k.gates g = .unlisted
  | .outside, o => o.Observes
  | .inside .pidEntry, o => o.Inner
  | .inside _, o => o.Shows
  | .manages loads _, .hrtimerCancel => loads = false
  | .manages loads _, o => loads = false ∧ o.Inner

def Role.next (r : Role) (o : Op) (a : o.Ans) : Role :=
  match r, o, a with
  | _, .enter g, true => .inside g
  | _, .leave _, _ => .outside
  | .manages loads k, .unlist g, _ => .manages loads (k.learn g .unlisted)
  | .manages loads k, .drain g, _ => .manages loads (k.learn g .shut)
  | r, _, _ => r

def Role.learn (g : Gate) (hold : Hold) : Role → Role
  | .manages loads k => .manages loads (k.learn g hold)
  | r => r

def Role.remember (g : Gate) (entry : Option Gate) : Role → Role
  | .manages loads k => .manages loads (k.remember g entry)
  | r => r

def roles : Protocol calls Role where
  allowed o r :=
    match o with
    | .core o => r.May o
    | .beginInit | .beginExit => r = .outside
    | .registerKprobe | .procCreate _ | .setProcEntry .. => ∃ k, r = .manages true k
    | .procEntry _ => ∃ loads k, r = .manages loads k
    | .endInit ret => ∃ k, r = .manages true k ∧ k.Ends ret
    | .endExit => ∃ k, r = .manages false k ∧ ∀ g, k.gates g = .shut
  possible o a r :=
    match o, a with
    | .procCreate g, entry => entry = none ∨ entry = some g
    | .procEntry g, entry => ∀ loads k, r = .manages loads k → entry = k.entries g
    | _, _ => True
  next o a r :=
    match o, a with
    | .core o, a => r.next o a
    | .beginInit, _ => .manages true .fresh
    | .beginExit, _ => .manages false .full
    | .endInit _, _ | .endExit, _ => .outside
    | .registerKprobe, ret => if ret < 0 then r else r.learn .probe .listed
    | .procCreate g, some _ => r.learn g .listed
    | .setProcEntry g entry, _ => r.remember g entry
    | _, _ => r

/-! ## What holds of the module -/

/-- No session has been started in this load. -/
structure Idle (s : Machine) : Prop where
  enqueued : s.core.enqueued = false
  running : s.core.running = none
  events : s.core.holdings.created.length = s.earlier

/-- A module that is not loaded is shut, and a load without an entry for the pid starts no
session. -/
structure Sound (s : Machine) : Prop where
  shut : s.phase = .unloaded ∨ s.phase = .failed → ∀ g, Hold.shut.Fits (s.core.entrance g)
  idle : s.phase = .failed ∨ (∃ t, s.phase = .loading t) → s.registered .pidEntry = false →
    s.inside .pidEntry = [] ∧ Idle s
  entries : s.phase = .loaded → s.entries = Grip.full.entries

/-- While it is unloaded, nothing is asked of a module. -/
theorem Sound.of_unloading {s : Machine} {t : Tid} (unloading : s.phase = .unloading t) :
    Sound s := by
  constructor <;> rw [unloading]
  · rintro (unloaded | failed)
    · cases unloaded
    · cases failed
  · rintro (failed | ⟨_, loading⟩)
    · cases failed
    · cases loading
  · exact nofun

theorem Sound.clean {s : Machine} (sound : Sound s) : Clean s where
  gates := fun away g => (sound.shut away g).1
  timer := by
    intro failed
    obtain ⟨-, idle⟩ := sound.idle (.inl failed) (sound.shut (.inr failed) .pidEntry).1
    exact ⟨idle.enqueued, idle.running⟩
  events := by
    intro failed ev made
    obtain ⟨-, idle⟩ := sound.idle (.inl failed) (sound.shut (.inr failed) .pidEntry).1
    rw [Machine.events, ← idle.events, List.drop_length] at made
    cases made

/-! ## Calls of the module's own code -/

/-- The call leaves the gates as they are. -/
def Op.Keeps : Op → Prop
  | .enter _ | .leave _ | .unlist _ | .drain _ => False
  | _ => True

theorem inner_keeps {o : Op} (inner : o.Inner) : Op.Keeps o := by
  cases o <;> first | exact inner.elim | trivial

theorem observes_keeps {o : Op} (observes : o.Observes) : Op.Keeps o := by
  cases o <;> first | exact observes.elim | trivial

theorem next_keeps {o : Op} (keeps : Op.Keeps o) (a : o.Ans) (r : Role) : r.next o a = r := by
  cases o <;> first | exact keeps.elim | (cases r <;> rfl)

section Core

variable {t u : Tid} {e : Env} {o : Op} {a : o.Ans} {s s' : Machine} {core : State} {r q : Role}
  {g : Gate}

theorem keeps_entrance (keeps : Op.Keeps o) (answered : kernel t e o s.core = .done a core) :
    core.entrance = s.core.entrance := by
  cases o with
  | hrtimerCancel =>
      obtain ⟨-, rfl⟩ := hrtimerCancel_done answered
      rfl
  | timerExpires =>
      obtain ⟨-, -, rfl⟩ := timerExpires_done answered
      rfl
  | callbackReturns restart =>
      obtain ⟨-, rfl⟩ := callbackReturns_done answered
      rfl
  | enter g | leave g | unlist g | drain g => exact keeps.elim
  | _ => exact (inner_done (by trivial) answered).entrance

theorem Role.Fits.congr (fits : r.Fits s u) (entrance : s'.core.entrance = s.core.entrance)
    (phase : s'.phase = s.phase) (entries : s'.entries = s.entries) : r.Fits s' u where
  visits := by
    unfold Machine.inside
    rw [entrance]
    exact fits.visits
  manages := by
    cases r with
    | outside | inside g =>
        show s'.phase.owner ≠ some u
        rw [phase]
        exact fits.manages
    | manages loads k =>
        obtain ⟨same, gates, known⟩ := fits.manages
        refine ⟨phase.trans same, ⟨?_, entries.trans known⟩⟩
        rw [entrance]
        exact gates

theorem visits_atGate (fits : r.Fits s u) {x : Entrance}
    (count : x.inside.count u = (s.inside g).count u) (g' : Gate) :
    ((s.withCore (s.core.atGate g x)).inside g').count u = r.visits g' := by
  rw [← fits.visits g']
  by_cases here : g' = g
  · subst here
    rw [← count]
    exact congrArg (fun x : Entrance => x.inside.count u) (atGate_here ..)
  · exact congrArg (fun x : Entrance => x.inside.count u) (atGate_there here)

/-- What is learnt of one gate when the others stay as they are. -/
theorem Grip.Holds.learn {k : Grip} (holds : k.Holds s) {hold : Hold}
    (others : ∀ g', g' ≠ g → s'.core.entrance g' = s.core.entrance g')
    (known : hold.Fits (s'.core.entrance g)) (entries : s'.entries = s.entries) :
    (k.learn g hold).Holds s' where
  gates := by
    intro g'
    show Hold.Fits _ (Function.update k.gates g hold g')
    by_cases here : g' = g
    · subst here
      rw [Function.update_self]
      exact known
    · rw [Function.update_of_ne here, others g' here]
      exact holds.gates g'
  entries := entries.trans holds.entries

/-- After a change at one gate that the thread makes, or can live with. -/
theorem Role.Fits.atGate {loads : Bool} {k : Grip} (fits : (Role.manages loads k).Fits s u)
    (x : Entrance) (count : x.inside.count u = (s.inside g).count u) {hold : Hold}
    (known : hold.Fits x) :
    (Role.manages loads (k.learn g hold)).Fits (s.withCore (s.core.atGate g x)) u := by
  refine ⟨visits_atGate fits count, fits.manages.1, fits.manages.2.learn ?_ ?_ rfl⟩
  · exact fun g' here => atGate_there here
  · exact (atGate_here ..).symm ▸ known

/-- After a change at one gate that another thread makes. -/
theorem Role.Fits.beside (fits : q.Fits s u) (x : Entrance)
    (count : x.inside.count u = (s.inside g).count u)
    (known : ∀ hold : Hold, hold.Fits (s.core.entrance g) → hold.Fits x) :
    q.Fits (s.withCore (s.core.atGate g x)) u := by
  cases q with
  | outside | inside _ => exact ⟨visits_atGate fits count, fits.manages⟩
  | manages loads k =>
      have after := fits.atGate x count (known _ (fits.manages.2.gates g))
      rwa [Grip.learn, Function.update_eq_self] at after

theorem of_owner (t : Tid) (loads : Bool) : (Phase.of t loads).owner = some t := by
  cases loads <;> rfl

/-- Another thread than the one that changes the module knows nothing of it. -/
theorem Role.Fits.elsewhere (fits : q.Fits s u) (away : s.phase.owner ≠ some u) (s' : Machine) :
    q.Manages s' u ↔ s'.phase.owner ≠ some u := by
  cases q with
  | outside | inside _ => exact Iff.rfl
  | manages loads k =>
      rw [fits.manages.1, of_owner] at away
      exact absurd rfl away

/-- Only one thread changes the module. -/
theorem Role.Fits.alone {loads : Bool} {k : Grip} (fits : (Role.manages loads k).Fits s t)
    (other : u ≠ t) : s.phase.owner ≠ some u := by
  rw [fits.manages.1, of_owner]
  intro same
  exact other (Option.some.inj same).symm

/-! ### What the module's own calls keep -/

theorem Sound.congr (sound : Sound s) (entrance : core.entrance = s.core.entrance)
    (idle : s.inside .pidEntry = [] → Idle s → Idle (s.withCore core)) :
    Sound (s.withCore core) where
  shut := by
    intro away g
    show Hold.shut.Fits (core.entrance g)
    rw [entrance]
    exact sound.shut away g
  idle := by
    intro starting gone
    have before : s.registered .pidEntry = false := by
      rw [← gone]
      exact congrArg (fun x => (x Gate.pidEntry).registered) entrance.symm
    obtain ⟨empty, still⟩ := sound.idle starting before
    refine ⟨?_, idle empty still⟩
    rw [← empty]
    exact congrArg (fun x => (x Gate.pidEntry).inside) entrance
  entries := sound.entries

theorem Idle.timeless (idle : Idle s) (timeless : Timer.Op.Timeless o)
    (answered : kernel t e o s.core = .done a core)
    (events : core.holdings.created.length = s.earlier) : Idle (s.withCore core) := by
  have same := Timer.kernel_timeless (t := t) (e := e) timeless s.core
  rw [answered] at same
  exact ⟨(congrArg Timer.Alarm.enqueued same).trans idle.enqueued,
    (congrArg Timer.Alarm.running same).trans idle.running, events⟩

theorem Idle.observes (idle : Idle s) (observes : o.Observes)
    (answered : kernel t e o s.core = .done a core) : Idle (s.withCore core) := by
  have events : core.holdings.created.length = s.earlier := by
    have same := kernel_observes (t := t) (e := e) observes (s := s.core) rfl
    rw [answered] at same
    rw [show core.holdings = s.core.holdings from same]
    exact idle.events
  cases o with
  | timerExpires =>
      obtain ⟨queued, -, -⟩ := timerExpires_done answered
      rw [idle.enqueued] at queued
      cases queued
  | callbackReturns restart =>
      obtain ⟨running, -⟩ := callbackReturns_done answered
      rw [idle.running] at running
      cases running
  | _ => first | exact observes.elim | exact idle.timeless (by trivial) answered events

theorem Idle.shows (idle : Idle s) (shows : o.Shows)
    (answered : kernel t e o s.core = .done a core) : Idle (s.withCore core) := by
  cases o with
  | spinLock =>
      obtain ⟨-, rfl⟩ := spinLock_done answered
      exact ⟨idle.enqueued, idle.running, idle.events⟩
  | currentPid | targetPid | spinUnlock | message | setMessage _ | copyToUser _ =>
      cases answered
      exact ⟨idle.enqueued, idle.running, idle.events⟩
  | _ => exact shows.elim

theorem Sound.atGate (sound : Sound s) (x : Entrance)
    (away : s.phase = .unloaded ∨ s.phase = .failed →
      Hold.shut.Fits (s.core.entrance g) → Hold.shut.Fits x)
    (pid : g = .pidEntry → s.phase = .failed ∨ (∃ t, s.phase = .loading t) →
      x.registered = false → s.registered g = false ∧ (s.inside g = [] → x.inside = [])) :
    Sound (s.withCore (s.core.atGate g x)) where
  shut := by
    intro gone g'
    show Hold.shut.Fits ((s.core.atGate g x).entrance g')
    by_cases here : g' = g
    · subst here
      rw [atGate_here]
      exact away gone (sound.shut gone g')
    · rw [atGate_there here]
      exact sound.shut gone g'
  idle := by
    show _ → ((s.core.atGate g x).entrance .pidEntry).registered = false →
      ((s.core.atGate g x).entrance .pidEntry).inside = [] ∧ _
    intro starting gone
    by_cases here : g = .pidEntry
    · subst here
      rw [atGate_here] at gone ⊢
      obtain ⟨before, emptied⟩ := pid rfl starting gone
      obtain ⟨empty, idle⟩ := sound.idle starting before
      exact ⟨emptied empty, ⟨idle.enqueued, idle.running, idle.events⟩⟩
    · rw [atGate_there (Ne.symm here)] at gone ⊢
      obtain ⟨empty, idle⟩ := sound.idle starting gone
      exact ⟨empty, ⟨idle.enqueued, idle.running, idle.events⟩⟩
  entries := sound.entries

/-- The calls that leave the gates alone keep what holds of the module, if they go with the
role of the thread. -/
theorem Sound.keeps (sound : Sound s) (fits : r.Fits s t) (keeps : Op.Keeps o) (may : r.May o)
    (answered : kernel t e o s.core = .done a core) : Sound (s.withCore core) := by
  have entrance := keeps_entrance keeps answered
  cases r with
  | outside =>
      have observes : o.Observes := by
        cases o <;> first | exact keeps.elim | exact may
      exact sound.congr entrance fun _ idle => idle.observes observes answered
  | inside g =>
      by_cases pid : g = .pidEntry
      · apply sound.congr entrance
        intro empty
        have inside := fits.visits .pidEntry
        rw [empty] at inside
        simp [Role.visits, pid] at inside
      · have shows : o.Shows := by
          cases g <;> first | exact absurd rfl pid | (cases o <;> first | exact keeps.elim | exact may)
        exact sound.congr entrance fun _ idle => idle.shows shows answered
  | manages loads k =>
      have unloads : loads = false := by
        cases o <;> first | exact keeps.elim | exact may.1 | exact may
      subst unloads
      exact .of_unloading (t := t) fits.manages.1

theorem unlist_manages (may : r.May (.unlist g)) : ∃ loads k, r = .manages loads k := by
  cases r with
  | outside => exact may.elim
  | inside g' => cases g' <;> exact may.elim
  | manages loads k => exact ⟨loads, k, rfl⟩

theorem drain_manages (may : r.May (.drain g)) : ∃ loads k, r = .manages loads k := by
  cases r with
  | outside => exact may.elim
  | inside g' => cases g' <;> exact may.elim
  | manages loads k => exact ⟨loads, k, rfl⟩

/-- A thread comes in through a gate that is registered. -/
theorem enter_own (sound : Sound s) (fits : Role.outside.Fits s t)
    (registered : (s.core.entrance g).registered = true) :
    let came := { s.core.entrance g with inside := t :: (s.core.entrance g).inside }
    Sound (s.withCore (s.core.atGate g came)) ∧
      (Role.inside g).Fits (s.withCore (s.core.atGate g came)) t := by
  intro came
  refine ⟨sound.atGate came (fun _ shut => ?_) fun _ _ gone => ?_, ?_, fits.manages⟩
  · cases registered.symm.trans shut.1
  · cases registered.symm.trans gone
  · intro g'
    have before := fits.visits g'
    show ((s.core.atGate g came).entrance g').inside.count t = if g' = g then 1 else 0
    by_cases here : g' = g
    · subst here
      rw [atGate_here, if_pos rfl, List.count_cons_self]
      exact congrArg (· + 1) before
    · rw [atGate_there here, if_neg here]
      exact before

/-- A thread goes out through the gate it has come in by. -/
theorem leave_own (sound : Sound s) (fits : (Role.inside g).Fits s t) :
    let gone := { s.core.entrance g with inside := (s.core.entrance g).inside.erase t }
    Sound (s.withCore (s.core.atGate g gone)) ∧
      Role.outside.Fits (s.withCore (s.core.atGate g gone)) t := by
  intro gone
  have emptied : s.inside g = [] → gone.inside = [] := by
    intro empty
    show (s.inside g).erase t = []
    rw [empty]
    rfl
  refine ⟨sound.atGate gone (fun _ shut => ⟨shut.1, emptied shut.2⟩) fun _ _ unlisted => ?_, ?_,
    fits.manages⟩
  · exact ⟨unlisted, emptied⟩
  · intro g'
    have before := fits.visits g'
    show ((s.core.atGate g gone).entrance g').inside.count t = 0
    by_cases here : g' = g
    · subst here
      rw [atGate_here, List.count_erase_self]
      exact congrArg (· - 1) (before.trans (if_pos rfl))
    · rw [atGate_there here]
      exact before.trans (if_neg here)

/-- A thread that loads or unloads the module takes a gate off the list. -/
theorem unlist_own {loads : Bool} {k : Grip} (sound : Sound s)
    (fits : (Role.manages loads k).Fits s t) (mine : loads = true → g = .probe) :
    let gone := { s.core.entrance g with registered := false }
    Sound (s.withCore (s.core.atGate g gone)) ∧
      (Role.manages loads (k.learn g .unlisted)).Fits (s.withCore (s.core.atGate g gone)) t := by
  intro gone
  have known : Hold.unlisted.Fits gone := rfl
  refine ⟨?_, fits.atGate gone rfl known⟩
  cases loads with
  | false => exact .of_unloading (t := t) fits.manages.1
  | true =>
      refine sound.atGate gone (fun away _ => ?_) fun pid _ _ => ?_
      · have loading : s.phase = .loading t := fits.manages.1
        rw [loading] at away
        rcases away with away | away <;> cases away
      · cases (mine rfl).symm.trans pid

theorem core_own (sound : Sound s) (fits : r.Fits s t) (may : r.May o)
    (answered : kernel t e o s.core = .done a core) :
    Sound (s.withCore core) ∧ (r.next o a).Fits (s.withCore core) t := by
  cases o with
  | enter g =>
      obtain ⟨registered, rfl⟩ := enter_done answered
      cases a with
      | false => exact ⟨sound, by cases r <;> exact fits⟩
      | true =>
          obtain rfl : r = .outside := by
            cases r with
            | outside => rfl
            | inside g' => cases g' <;> exact may.elim
            | manages loads k => exact may.2.elim
          exact enter_own sound fits registered
  | leave g =>
      obtain rfl := leave_done answered
      obtain rfl : r = .inside g := by
        cases r with
        | outside => exact may.elim
        | inside g' => exact congrArg _ (show g = g' from may).symm
        | manages loads k => exact may.2.elim
      exact leave_own sound fits
  | unlist g =>
      cases answered
      obtain ⟨loads, k, rfl⟩ := unlist_manages may
      exact unlist_own sound fits may
  | drain g =>
      obtain ⟨empty, rfl⟩ := drain_done answered
      obtain ⟨loads, k, rfl⟩ := drain_manages may
      obtain ⟨phase, holds⟩ := fits.manages
      have gone := holds.gates g
      rw [show k.gates g = .unlisted from may] at gone
      exact ⟨sound, fits.visits, phase, holds.learn (fun _ _ => rfl) ⟨gone, empty⟩ rfl⟩
  | _ =>
      rw [next_keeps (by trivial)]
      refine ⟨sound.keeps fits (by trivial) may answered, ?_⟩
      exact fits.congr (keeps_entrance (by trivial) answered) rfl rfl

theorem core_stable (other : u ≠ t) (fits : r.Fits s t) (may : r.May o)
    (answered : kernel t e o s.core = .done a core) (theirs : q.Fits s u) :
    q.Fits (s.withCore core) u := by
  cases o with
  | enter g =>
      obtain ⟨registered, rfl⟩ := enter_done answered
      cases a with
      | false => exact theirs
      | true =>
          refine theirs.beside _ (List.count_cons_of_ne (Ne.symm other)) ?_
          intro hold known
          cases hold with
          | unknown => trivial
          | listed => exact known
          | unlisted => cases registered.symm.trans known
          | shut => cases registered.symm.trans known.1
  | leave g =>
      obtain rfl := leave_done answered
      refine theirs.beside _ (List.count_erase_of_ne other) ?_
      intro hold known
      cases hold with
      | unknown => trivial
      | listed | unlisted => exact known
      | shut =>
          refine ⟨known.1, ?_⟩
          rw [known.2]
          rfl
  | unlist g =>
      cases answered
      obtain ⟨loads, k, rfl⟩ := unlist_manages may
      have alone := fits.alone other
      exact ⟨visits_atGate theirs rfl, (theirs.elsewhere alone _).mpr alone⟩
  | drain g =>
      obtain ⟨-, rfl⟩ := drain_done answered
      exact theirs
  | _ => exact theirs.congr (keeps_entrance (by trivial) answered) rfl rfl

end Core

/-! ## Calls of the code that loads the module -/

section Loader

variable {t u : Tid} {e : LoadEnv} {o : Call} {a : o.Ans} {s s' : Machine} {r q : Role} {k : Grip}
  {g : Gate}

theorem Sound.register (sound : Sound s) (loading : s.phase = .loading t) :
    Sound (s.register g) := by
  refine sound.atGate _ (fun away _ => ?_) fun _ _ gone => ?_
  · rw [loading] at away
    rcases away with away | away <;> cases away
  · cases gone

theorem Role.Fits.register (theirs : q.Fits s u) (away : s.phase.owner ≠ some u) :
    q.Fits (s.register g) u :=
  ⟨visits_atGate theirs rfl, (theirs.elsewhere away _).mpr away⟩

theorem Role.Fits.registers (fits : (Role.manages true k).Fits s t) :
    (Role.manages true (k.learn g .listed)).Fits (s.register g) t := by
  have known : Hold.listed.Fits { s.core.entrance g with registered := true } := rfl
  exact fits.atGate { s.core.entrance g with registered := true } rfl known

/-- The load begins. -/
theorem Sound.begin (sound : Sound s) (away : s.phase = .unloaded ∨ s.phase = .failed) :
    Sound { s.fresh with phase := .loading t } where
  shut := by
    rintro (unloaded | failed)
    · cases unloaded
    · cases failed
  idle := fun _ _ => ⟨(sound.shut away .pidEntry).2, ⟨rfl, rfl, rfl⟩⟩
  entries := nofun

/-- The init returns, and not with an entry for the pid alone. -/
theorem Sound.finish (sound : Sound s) {ret : Int} (fits : (Role.manages true k).Fits s t)
    (ends : k.Ends ret)
    (finishes : s.entries .pidEntry ≠ none → s.entries .messageEntry ≠ none) :
    Sound { s with phase := if ret < 0 then .failed else .loaded } := by
  obtain ⟨loading, gates, known⟩ := fits.manages
  unfold Grip.Ends at ends
  by_cases failed : ret < 0
  · rw [if_pos failed] at ends ⊢
    have shut : ∀ g, k.gates g = .shut := by
      rcases ends with undone | ⟨-, made, missing⟩
      · exact undone.1
      · rw [known] at finishes
        exact absurd missing (finishes made)
    refine ⟨fun _ g => shut g ▸ gates g, fun _ gone => ?_, nofun⟩
    obtain ⟨empty, idle⟩ := sound.idle (.inr ⟨t, loading⟩) gone
    exact ⟨empty, ⟨idle.enqueued, idle.running, idle.events⟩⟩
  · rw [if_neg failed] at ends ⊢
    refine ⟨?_, ?_, fun _ => known.trans ends⟩
    · rintro (unloaded | failed)
      · cases unloaded
      · cases failed
    · rintro (failed | ⟨_, loading⟩)
      · cases failed
      · cases loading

/-- The exit returns. -/
theorem Sound.leave (shut : ∀ g, Hold.shut.Fits (s.core.entrance g)) :
    Sound { s with phase := .unloaded } where
  shut := fun _ => shut
  idle := by
    rintro (failed | ⟨_, loading⟩)
    · cases failed
    · cases loading
  entries := nofun

theorem loader_own (sound : Sound s) (fits : r.Fits s t) (allowed : roles.allowed o r)
    (admitted : guarded loader Finishes t e o s = .done a s') :
    Sound s' ∧ roles.possible o a r ∧ (roles.next o a r).Fits s' t := by
  obtain ⟨answered, finishes⟩ := guarded_done.mp admitted
  clear admitted
  cases o with
  | core o =>
      obtain ⟨core, done, rfl⟩ := Outcome.mapState_eq_done.mp answered
      obtain ⟨sound', fits'⟩ := core_own sound fits allowed done
      exact ⟨sound', trivial, fits'⟩
  | beginInit =>
      obtain rfl : r = .outside := allowed
      simp only [loader] at answered
      split at answered
      · rename_i away
        cases answered
        exact ⟨sound.begin away, trivial, fits.visits, rfl, fun g => sound.shut away g, rfl⟩
      · cases answered
  | endInit ret =>
      obtain ⟨k, rfl, ends⟩ := allowed
      cases answered
      refine ⟨sound.finish fits ends finishes, trivial, fits.visits, ?_⟩
      show Phase.owner (if ret < 0 then .failed else .loaded) ≠ some t
      split <;> exact nofun
  | beginExit =>
      obtain rfl : r = .outside := allowed
      simp only [loader] at answered
      split at answered
      · rename_i loaded
        cases answered
        exact ⟨.of_unloading rfl, trivial, fits.visits, rfl, fun _ => trivial, sound.entries loaded⟩
      · cases answered
  | endExit =>
      obtain ⟨k, rfl, shut⟩ := allowed
      cases answered
      exact ⟨Sound.leave fun g => shut g ▸ fits.manages.2.gates g, trivial, fits.visits, nofun⟩
  | registerKprobe =>
      obtain ⟨k, rfl⟩ := allowed
      cases answered
      refine ⟨?_, trivial, ?_⟩
      · split
        · exact sound
        · exact sound.register fits.manages.1
      · show Role.Fits (if e.registerKprobe < 0 then _ else _) _ t
        split
        · exact fits
        · exact fits.registers
  | procCreate g =>
      obtain ⟨k, rfl⟩ := allowed
      simp only [loader] at answered
      split at answered
      · cases answered
        exact ⟨sound, .inl rfl, fits⟩
      · cases answered
        exact ⟨sound.register fits.manages.1, .inr rfl, fits.registers⟩
  | procEntry g =>
      obtain ⟨loads, k, rfl⟩ := allowed
      cases answered
      refine ⟨sound, ?_, fits⟩
      rintro loads' k' same
      cases same
      rw [fits.manages.2.entries]
  | setProcEntry g entry =>
      obtain ⟨k, rfl⟩ := allowed
      cases answered
      have loading : s.phase = .loading t := fits.manages.1
      refine ⟨⟨sound.shut, fun starting gone => ?_, ?_⟩, trivial, fits.visits, loading, ?_⟩
      · obtain ⟨empty, idle⟩ := sound.idle starting gone
        exact ⟨empty, ⟨idle.enqueued, idle.running, idle.events⟩⟩
      · intro loaded
        cases loading.symm.trans loaded
      · refine ⟨fits.manages.2.gates, ?_⟩
        rw [fits.manages.2.entries]
        rfl

theorem loader_stable (other : u ≠ t) (fits : r.Fits s t) (allowed : roles.allowed o r)
    (answered : loader t e o s = .done a s') (theirs : q.Fits s u) : q.Fits s' u := by
  cases o with
  | core o =>
      obtain ⟨core, done, rfl⟩ := Outcome.mapState_eq_done.mp answered
      exact core_stable other fits allowed done theirs
  | beginInit =>
      simp only [loader] at answered
      split at answered
      · rename_i unowned
        cases answered
        have away : s.phase.owner ≠ some u := by
          rcases unowned with unloaded | failed
          · rw [unloaded]
            exact nofun
          · rw [failed]
            exact nofun
        refine ⟨theirs.visits, (theirs.elsewhere away _).mpr fun same => ?_⟩
        exact other (Option.some.inj same).symm
      · cases answered
  | beginExit =>
      simp only [loader] at answered
      split at answered
      · rename_i loaded
        cases answered
        have away : s.phase.owner ≠ some u := by
          rw [loaded]
          exact nofun
        refine ⟨theirs.visits, (theirs.elsewhere away _).mpr fun same => ?_⟩
        exact other (Option.some.inj same).symm
      · cases answered
  | endInit ret =>
      obtain ⟨k, rfl, -⟩ := allowed
      cases answered
      refine ⟨theirs.visits, (theirs.elsewhere (fits.alone other) _).mpr ?_⟩
      show Phase.owner (if ret < 0 then .failed else .loaded) ≠ some u
      split <;> exact nofun
  | endExit =>
      obtain ⟨k, rfl, -⟩ := allowed
      cases answered
      exact ⟨theirs.visits, (theirs.elsewhere (fits.alone other) _).mpr nofun⟩
  | registerKprobe =>
      obtain ⟨k, rfl⟩ := allowed
      cases answered
      split
      · exact theirs
      · exact theirs.register (fits.alone other)
  | procCreate g =>
      obtain ⟨k, rfl⟩ := allowed
      simp only [loader] at answered
      split at answered
      · cases answered
        exact theirs
      · cases answered
        exact theirs.register (fits.alone other)
  | procEntry g =>
      cases answered
      exact theirs
  | setProcEntry g entry =>
      obtain ⟨k, rfl⟩ := allowed
      cases answered
      have alone := fits.alone other
      exact ⟨theirs.visits, (theirs.elsewhere alone _).mpr alone⟩

end Loader

/-! ## The threads keep to their roles -/

theorem lift_follows {α : Type} {Q : Role → α → Prop} {r : Role} {ok : Op → Prop} {p : Code α}
    (only : p.Only ok) (may : ∀ o, ok o → r.May o ∧ Op.Keeps o) (ends : ∀ a, Q r a) :
    (lift p).Follows roles Q r := by
  have lifted : (lift p).Only fun c : Call => ∃ o, c = .core o ∧ ok o := by
    refine Prog.Only.expand (fun o held => ?_) only
    show _ ∧ ∀ _, True
    exact ⟨⟨o, rfl, held⟩, fun _ => trivial⟩
  refine lifted.follows ?_ ends
  rintro c ⟨o, rfl, held⟩
  obtain ⟨allowed, keeps⟩ := may o held
  exact ⟨allowed, fun a => next_keeps keeps a r⟩

/-- Back outside. -/
def Away (r : Role) (_ : Unit) : Prop := r = .outside

theorem visit_away {α : Type} {g : Gate} (refused : α) {ok : Op → Prop} {body : Code α}
    (only : body.Only ok) (may : ∀ o, ok o → (Role.inside g).May o ∧ Op.Keeps o) :
    (lift (visit g refused body)).Follows roles Away .outside := by
  simp only [lift, visit, throughGate, enter, call, Prog.call_bind, Prog.ret_bind,
    Prog.expand_call, embedding, request, Prog.follows_call]
  refine ⟨trivial, ?_⟩
  intro entered _
  cases entered with
  | false => exact rfl
  | true =>
      rw [if_pos rfl, Prog.expand_bind, Prog.expand_bind, Prog.follows_bind, Prog.follows_bind]
      apply lift_follows only may
      intro a
      exact ⟨rfl, fun _ _ => rfl⟩

theorem timerInterrupt_away : (lift timerInterrupt).Follows roles Away .outside :=
  lift_follows timerInterrupt_observes
    (fun o observes => ⟨by cases o <;> first | exact observes.elim | exact observes,
      observes_keeps observes⟩) fun _ => rfl

theorem shows_may {g : Gate} (o : Op) (shows : o.Shows) : (Role.inside g).May o ∧ Op.Keeps o := by
  have inner := shows_inner o shows
  have keeps := inner_keeps inner
  refine ⟨?_, keeps⟩
  cases g <;> cases o <;> first | exact keeps.elim | exact inner | exact shows

theorem inner_may (o : Op) (inner : o.Inner) : (Role.inside .pidEntry).May o ∧ Op.Keeps o := by
  have keeps := inner_keeps inner
  refine ⟨?_, keeps⟩
  cases o <;> first | exact keeps.elim | exact inner

theorem pidWrite_within (m : Module) (count : Nat) : (m.pidWrite count).Only Op.Inner := by
  rw [m.pidWrite_eq]
  refine storePid_only count trivial (fun _ => trivial) ?_
  cases m with
  | cacheKprobeMonitorV2 =>
      refine ⟨trivial, fun stored => (startMonitoring_starts eventCodes stored).mono ?_⟩
      exact fun o starts => writes_inner o (starts_writes o starts)
  | testModule => trivial

section Managers

variable {loads : Bool} {k : Grip} {g : Gate}

/-- Who removes a gate knows that it is shut. -/
theorem closeGate_learns (mine : loads = true → g = .probe) {Q : Role → Unit → Prop}
    (ends : Q (.manages loads (k.learn g .shut)) ()) :
    (lift (closeGate g)).Follows roles Q (.manages loads k) := by
  refine ⟨mine, fun _ _ => ⟨Function.update_self .., fun _ _ => ?_⟩⟩
  show Q (.manages loads ((k.learn g .unlisted).learn g .shut)) ()
  rw [Grip.learn, Grip.learn, Function.update_idem]
  exact ends

theorem initModule_ends {undo : LoadCode Unit}
    (undoes : ∀ k : Grip, k.Undone →
      undo.Follows roles (fun r _ => r = .manages true k) (.manages true k)) :
    (initModule undo).Follows roles (fun r ret => ∃ k, r = .manages true k ∧ k.Ends ret)
      (.manages true .fresh) := by
  simp only [initModule, registerKprobe, request, Prog.call_bind, Prog.ret_bind, Prog.follows_call]
  refine ⟨⟨_, rfl⟩, fun ret _ => ?_⟩
  by_cases refused : ret < 0
  · have next : roles.next .registerKprobe ret (.manages true .fresh) = .manages true .fresh :=
      if_pos refused
    rw [if_pos refused, next]
    exact ⟨_, rfl, (if_pos refused).mpr (.inl ⟨fun _ => rfl, rfl⟩)⟩
  · have next : roles.next .registerKprobe ret (.manages true .fresh) =
        .manages true (Grip.fresh.learn .probe .listed) := if_neg refused
    rw [if_neg refused, next]
    simp only [procCreate, setProcEntry, getProcEntry, request, Prog.call_bind, Prog.ret_bind,
      Prog.follows_call]
    refine ⟨⟨_, rfl⟩, fun made answer => ?_⟩
    rcases answer with rfl | rfl
    · refine ⟨⟨_, rfl⟩, fun _ _ => ⟨⟨_, _, rfl⟩, fun entry known => ?_⟩⟩
      obtain rfl : entry = none := known _ _ rfl
      have undone : ((Grip.fresh.learn .probe .listed).remember .pidEntry none).learn .probe .shut
          |>.Undone := by
        refine ⟨fun g => ?_, rfl⟩
        cases g <;> rfl
      rw [Prog.follows_bind]
      refine closeGate_learns (fun _ => rfl) ?_
      rw [Prog.follows_bind]
      refine (undoes _ undone).mono fun r _ same => ?_
      subst same
      exact ⟨_, rfl, .inl undone⟩
    · refine ⟨⟨_, rfl⟩, fun _ _ => ⟨⟨_, _, rfl⟩, fun entry known => ?_⟩⟩
      obtain rfl : entry = some .pidEntry := known _ _ rfl
      refine ⟨⟨_, rfl⟩, fun made answer => ?_⟩
      rcases answer with rfl | rfl
      · refine ⟨⟨_, rfl⟩, fun _ _ => ⟨⟨_, _, rfl⟩, fun entry known => ?_⟩⟩
        obtain rfl : entry = none := known _ _ rfl
        simp only [Prog.follows_bind]
        refine closeGate_learns (fun _ => rfl) ?_
        refine ⟨⟨_, _, rfl⟩, fun entry known => ?_⟩
        obtain rfl : entry = none := known _ _ rfl
        exact ⟨_, rfl, .inr ⟨rfl, Option.some_ne_none _, rfl⟩⟩
      · refine ⟨⟨_, rfl⟩, fun _ _ => ⟨⟨_, _, rfl⟩, fun entry known => ?_⟩⟩
        obtain rfl : entry = some .messageEntry := known _ _ rfl
        refine ⟨_, rfl, ?_⟩
        show _ = Grip.full.entries
        funext g
        cases g <;> rfl

theorem init_ends (m : Module) :
    (init m).Follows roles (fun r ret => ∃ k, r = .manages true k ∧ k.Ends ret)
      (.manages true .fresh) := by
  cases m with
  | cacheKprobeMonitorV2 =>
      refine initModule_ends fun k undone => ⟨⟨_, _, rfl⟩, fun entry known => ?_⟩
      obtain rfl : entry = none := (known _ _ rfl).trans undone.2
      exact rfl
  | testModule => exact initModule_ends fun k _ => rfl

/-- A module that has been unloaded is shut. -/
def Shuts (r : Role) (_ : Unit) : Prop := ∃ k, r = .manages false k ∧ ∀ g, k.gates g = .shut

theorem exitModule_shuts : exitModule.Follows roles Shuts (.manages false .full) := by
  have unloads {g : Gate} : false = true → g = .probe := nofun
  refine ⟨⟨_, _, rfl⟩, fun entry known => ?_⟩
  obtain rfl : entry = some .messageEntry := known _ _ rfl
  show (lift (closeGate .messageEntry) >>= _).Follows roles Shuts (.manages false .full)
  rw [Prog.follows_bind]
  refine closeGate_learns unloads ⟨⟨_, _, rfl⟩, fun entry known => ?_⟩
  obtain rfl : entry = some .pidEntry := known _ _ rfl
  show (lift (closeGate .pidEntry) >>= _).Follows roles Shuts _
  rw [Prog.follows_bind]
  refine closeGate_learns unloads (closeGate_learns unloads ⟨_, rfl, fun g => ?_⟩)
  cases g <;> rfl

/-- The calls of `stop_monitoring`. -/
def Op.Halts (o : Op) : Prop := o = .hrtimerCancel ∨ o.Inner

theorem stopMonitoring_halts : (stopMonitoring eventCodes).Only Op.Halts := by
  simp only [stopMonitoring, hrtimerCancel, getPerfData, call, Prog.call_bind, Prog.ret_bind,
    Prog.only_call]
  refine ⟨.inl rfl, fun _ => ⟨.inr trivial, fun perfData => Prog.only_bind ?_ fun _ => ?_⟩⟩
  · refine (cleanupPerfCounters_clears eventCodes perfData).mono fun o clears => ?_
    exact .inr (clears_inner o clears)
  · simp [Op.Halts, Op.Inner]

theorem halts_may (o : Op) (halts : Op.Halts o) :
    (Role.manages false k).May o ∧ Op.Keeps o := by
  rcases halts with rfl | inner
  · exact ⟨rfl, trivial⟩
  · have keeps := inner_keeps inner
    refine ⟨?_, keeps⟩
    cases o <;> first | exact keeps.elim | exact inner.elim | exact ⟨rfl, inner⟩

theorem exit_shuts (m : Module) : (exit m).Follows roles Shuts (.manages false .full) := by
  cases m with
  | cacheKprobeMonitorV2 =>
      show (lift (stopMonitoring eventCodes) >>= _).Follows roles Shuts _
      rw [Prog.follows_bind]
      exact lift_follows stopMonitoring_halts halts_may fun _ => exitModule_shuts
  | testModule => exact exitModule_shuts

end Managers

theorem load_away (m : Module) : (load m).Follows roles Away .outside := by
  refine ⟨rfl, fun _ _ => ?_⟩
  show (init m >>= _).Follows roles Away (.manages true .fresh)
  rw [Prog.follows_bind]
  refine (init_ends m).mono fun r ret ended => ?_
  obtain ⟨k, rfl, ends⟩ := ended
  exact ⟨⟨k, rfl, ends⟩, fun _ _ => rfl⟩

theorem unload_away (m : Module) : (unload m).Follows roles Away .outside := by
  refine ⟨rfl, fun _ _ => ?_⟩
  show (exit m >>= _).Follows roles Away (.manages false .full)
  rw [Prog.follows_bind]
  refine (exit_shuts m).mono fun r _ ended => ?_
  obtain ⟨k, rfl, shut⟩ := ended
  exact ⟨⟨k, rfl, shut⟩, fun _ _ => rfl⟩

/-! ## Runs that leave nothing behind -/

/-- What holds of the module, and what each thread knows of it. -/
def Sane (c : Pool calls LoadEnv Machine Unit) : Prop :=
  c.Relies roles Away Sound (fun s t r => r.Fits s t) .outside

theorem start_sane : Sane start := by
  refine ⟨⟨fun _ _ => ⟨rfl, rfl⟩, ?_, nofun⟩, fun t thread found => ?_, fun t _ => ⟨?_, nofun⟩⟩
  · rintro (failed | ⟨_, loading⟩)
    · cases failed
    · cases loading
  · cases found
  · exact fun _ => rfl

theorem step_sane (m : Module) (deed : Deed) (c : Pool calls LoadEnv Machine Unit) (sane : Sane c) :
    Sane (Pool.step (guarded loader Finishes) buried c (deed.action m)) := by
  refine Pool.step_relies ?_ ?_ ?_ ?_ sane
  · intro t e o s a s' r sound fits allowed admitted
    exact loader_own sound fits allowed admitted
  · intro t u e o s a s' r q other fits allowed admitted theirs
    exact loader_stable other fits allowed (guarded_done.mp admitted).1 theirs
  · intro task s sound
    refine ⟨sound.congr rfl fun _ idle => ?_, fun t r fits => fits.congr rfl rfl rfl⟩
    exact ⟨idle.enqueued, idle.running, idle.events⟩
  · intro thread spawned
    cases deed with
    | load e =>
        cases spawned
        exact load_away m
    | unload e =>
        cases spawned
        exact unload_away m
    | write e =>
        cases spawned
        exact visit_away _ (pidWrite_within m _) inner_may
    | read e count ppos =>
        cases spawned
        rw [m.messageRead_eq]
        exact visit_away _ (messageRead_shows count ppos) shows_may
    | switch e =>
        cases spawned
        rw [m.helloSwitch_eq]
        exact visit_away _ helloSwitch_shows shows_may
    | expire e =>
        cases spawned
        exact timerInterrupt_away
    | step t => cases spawned
    | die task => cases spawned

/-- An init that returns with an entry for the pid alone returns an error, and the entry is
still there. -/
theorem halfway_unclean {t : Tid} {s : Machine} {k : Grip} {ret : Int}
    (fits : (Role.manages true k).Fits s t) (ends : k.Ends ret) (made : s.entries .pidEntry ≠ none)
    (missing : s.entries .messageEntry = none) :
    ¬Clean { s with phase := if ret < 0 then .failed else .loaded } := by
  intro clean
  obtain ⟨-, gates, known⟩ := fits.manages
  rw [known] at made missing
  unfold Grip.Ends at ends
  by_cases failed : ret < 0
  · rw [if_pos failed] at ends
    rcases ends with undone | ⟨listed, -, -⟩
    · exact made undone.2
    · have registered := gates .pidEntry
      rw [listed] at registered
      have gone := clean.gates (.inr (if_pos failed)) .pidEntry
      cases registered.symm.trans gone
  · rw [if_neg failed] at ends
    rw [ends] at missing
    cases missing

theorem clean_finishes {c : Pool calls LoadEnv Machine Unit} {t : Tid} (sane : Sane c)
    (clean : Clean (c.advance loader t).shared) : c.Admits loader Finishes t := by
  refine Pool.admits_iff.mpr fun e o k a s found answered => ?_
  cases o with
  | endInit ret =>
      intro made missing
      obtain ⟨r, fits, ⟨grip, rfl, ends⟩, -⟩ := sane.follows t _ found
      refine halfway_unclean fits ends made missing ?_
      unfold Pool.advance at clean
      rw [found] at clean
      simp only [answered] at clean
      cases answered
      exact clean
  | _ => trivial

theorem deeds_sane (m : Module) (deeds : List Deed) :
    ∀ action ∈ deeds.map (Deed.action m), ∀ c, Sane c →
      Sane (Pool.step (guarded loader Finishes) buried c action) := by
  intro action made c sane
  obtain ⟨deed, -, rfl⟩ := List.mem_map.mp made
  exact step_sane m deed c sane

/-- **A run leaves nothing behind** while the module is not loaded exactly if no init in it
returns with an entry for the pid and none for the message. -/
theorem leaves_nothing_iff (m : Module) (deeds : List Deed) :
    LeavesNothing m deeds ↔
      Pool.Admitted loader buried Finishes start (deeds.map (Deed.action m)) := by
  constructor
  · intro leaves
    refine Pool.admitted_of_good (G := fun c => Clean c.shared) (deeds_sane m deeds) ?_ start_sane ?_
    · intro action made c sane clean
      cases action with
      | spawn thread => trivial
      | step t => exact clean_finishes sane clean
      | world task => trivial
    · intro before reached
      rw [List.prefix_iff_eq_take.mp reached, ← List.map_take]
      exact leaves _ (List.take_prefix ..)
  · rintro finishes before ⟨rest, rfl⟩
    rw [List.map_append, Pool.admitted_append] at finishes
    have sane : Sane (after m before) :=
      Pool.admitted_invariant (deeds_sane m before) start_sane finishes.1
    exact sane.inv.clean

/-- The probe is refused, then the entry for the pid; then the module is loaded, runs a
session and is unloaded. -/
def threeLoads : List Deed :=
  .load { LoadEnv.quiet with registerKprobe := -22 } :: List.replicate 3 (.step 0) ++
    .load { LoadEnv.quiet with procCreateFails := fun g => decide (g = .pidEntry) } ::
    List.replicate 9 (.step 1) ++ .load .quiet :: List.replicate 9 (.step 2) ++
    .write (.echo "5\n".toList) :: List.replicate 60 (.step 3) ++
    .unload .quiet :: List.replicate 43 (.step 4)

example (m : Module) :
    Pool.Admitted loader buried Finishes start (threeLoads.map (Deed.action m)) := by
  cases m <;> decide +kernel

/-- A load in which the entry for the message cannot be made. -/
def noMessageEntry : LoadEnv :=
  { LoadEnv.quiet with procCreateFails := fun g => decide (g = .messageEntry) }

/-- A pid is written through the half-built interface before the init fails. -/
def writtenWhileLoading : List Deed :=
  .load noMessageEntry :: List.replicate 6 (.step 0) ++
    .write (.echo "5\n".toList) :: List.replicate 60 (.step 1) ++ List.replicate 6 (.step 0)

theorem failed_load_leaves_entry : ¬∃ m, ∀ deeds, LeavesNothing m deeds := by
  rintro ⟨m, leaves⟩
  have clean := leaves writtenWhileLoading writtenWhileLoading (List.prefix_refl _)
  have failed : (after m writtenWhileLoading).shared.phase = .failed := by
    cases m <;> decide +kernel
  have listed : (after m writtenWhileLoading).shared.registered .pidEntry = true := by
    cases m <;> decide +kernel
  have gone := clean.gates (.inr failed) .pidEntry
  cases listed.symm.trans gone

/-- The writer's session is left as well. -/
example : (after .cacheKprobeMonitorV2 writtenWhileLoading).shared.core.enqueued = true := by
  decide +kernel

end Dreamscape.Modules.Load
