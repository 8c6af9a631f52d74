/-
# MonitorV2.Buffers -- what each thread has of the buffers and events

`init_perf_counters` makes a buffer that nobody else knows, fills it with events, and gives
everything back when an event is refused.  `start_monitoring` then assigns it to `perf_data`,
where the callbacks find it and, at last, the unload.  The `Role` of a thread says how far it
is, and `keepers` which calls it may make there.

The history has what no call answers from: the buffer and the event that each thread has made
and not given away, the buffers that were assigned to `perf_data`, and what the unload found
there.
-/
import Dreamscape.MonitorV2.Quiescence
import Dreamscape.MonitorV2.Ledger
import Dreamscape.Theory.History

namespace Dreamscape.MonitorV2.Buffers

set_option autoImplicit false

open Theory Kernel

/-! ## History -/

structure History where
  building : Tid → Option Ptr
  hand : Tid → Option PerfEvent
  published : List Ptr
  /-- What the unload has found in `perf_data`. -/
  found : Option Ptr

def History.initial : History := ⟨fun _ => none, fun _ => none, [], none⟩

abbrev Remembered := State × History

def History.builds (x : History) (t : Tid) (p : Option Ptr) : History :=
  { x with building := Function.update x.building t p }

def History.takes (x : History) (t : Tid) (ev : Option PerfEvent) : History :=
  { x with hand := Function.update x.hand t ev }

def note : Note sig Env State History := fun t _ o a _ x =>
  match o, a with
  | .kzalloc, p => x.builds t p
  | .kfree _, _ => x.builds t none
  | .setPerfData (some p), _ => { x.builds t none with published := x.published ++ [p] }
  | .perfEventCreateKernelCounter .., .ptr ev => x.takes t (some ev)
  | .storeEvent .., _ => x.takes t none
  | .perfData, p => if t = 0 then { x with found := p } else x
  | _, _ => x

/-! ## Runs -/

abbrev Threads := Pool sig Env Remembered Unit

/-- The module is loaded, and thread 0 will unload it. -/
def atLoad : Threads := ⟨(.initial, .initial), [⟨.quiet, moduleExit⟩]⟩

def after (happenings : List Happening) : Threads :=
  Pool.run (recorded kernel note) (fun task c => (c.1.bury task, c.2)) atLoad
    (happenings.map Happening.action)

/-- The history changes nothing. -/
theorem after_forgets (happenings : List Happening) :
    (after happenings).forget = machineAfter happenings :=
  Pool.forget_run (fun _ _ => rfl) atLoad _

/-! ## Roles -/

/-- How far a thread is. -/
inductive Role where
  | idle
  /-- Its buffer `p` has `n` events. -/
  | fills (p : Ptr) (n : Nat)
  | holds (p : Ptr) (n : Nat) (ev : PerfEvent)
  /-- It was refused an event. -/
  | fails (p : Ptr) (n : Nat)
  | undoes (p : Ptr) (n : Nat)
  | gives (p : Ptr) (n : Nat) (ev : PerfEvent)
  /-- The callback, with the pointers it has read last. -/
  | samples (read : Option Ptr) (loaded : Option EventPtr)
  /-- The unload, before it has cancelled the timer. -/
  | exits
  | cancels
  /-- It has released the first `n` events of `p`. -/
  | clears (p : Ptr) (n : Nat)
  | drops (p : Ptr) (n : Nat) (ev : PerfEvent)
  | cleared

namespace Role

def building : Role → Option Ptr
  | .fills p _ | .holds p _ _ | .fails p _ | .undoes p _ | .gives p _ _ => some p
  | _ => none

def hand : Role → Option PerfEvent
  | .holds _ _ ev => some ev
  | _ => none

def unloads : Role → Bool
  | .exits | .cancels | .clears .. | .drops .. | .cleared => true
  | _ => false

/-- The timer has been cancelled. -/
def cancelled : Role → Bool
  | .cancels | .clears .. | .drops .. | .cleared => true
  | _ => false

def sampling : Role → Bool
  | .samples .. => true
  | _ => false

/-- It has asked for an event. -/
def created : Role → EventPtr → Role
  | .fills p n, .ptr ev => .holds p n ev
  | .fills p n, _ => .fails p n
  | r, _ => r

def stored : Role → Role
  | .holds p n _ => .fills p (n + 1)
  | .fails p n => .undoes p n
  | r => r

def loaded : Role → EventPtr → Role
  | .undoes p (n + 1), .ptr ev => .gives p n ev
  | .clears p n, .ptr ev => .drops p n ev
  | .samples p _, ev => .samples p (some ev)
  | r, _ => r

def released : Role → Role
  | .gives p n _ => .undoes p n
  | .drops p n _ => .clears p (n + 1)
  | r => r

def freed : Role → Role
  | .undoes .. => .idle
  | .clears .. => .cleared
  | r => r

/-- It has read `perf_data`. -/
def saw : Role → Option Ptr → Role
  | .cancels, some p => .clears p 0
  | .cancels, none => .cleared
  | .samples _ ev, p => .samples p ev
  | r, _ => r

end Role

def keepers : Protocol sig Role where
  allowed o r :=
    match o with
    | .kzalloc | .timerExpires => r = .idle
    | .perfEventCreateKernelCounter .. => ∃ p n, r = .fills p n
    | .storeEvent p i ev =>
        (∃ q made, r = .holds q i made ∧ p = some q ∧ ev = .ptr made) ∨
          ∃ q code, r = .fails q i ∧ p = some q ∧ ev = .err code
    | .storePrev p _ _ => (∃ q n, r = .fills q n ∧ p = some q) ∨ ∃ ev, r = .samples p ev
    | .loadPrev p _ => ∃ ev, r = .samples p ev
    | .loadEvent p i =>
        (∃ q, r = .undoes q (i + 1) ∧ p = some q) ∨
          i < numEvents ∧ ((∃ q, r = .clears q i ∧ p = some q) ∨ ∃ ev, r = .samples p ev)
    | .perfEventReleaseKernel ev =>
        (∃ p n made, r = .gives p n made ∧ ev = .ptr made) ∨
          ∃ p n made, r = .drops p n made ∧ ev = .ptr made
    | .perfEventReadValue ev => ∃ p, r = .samples p (some ev)
    | .kfree p => r = .undoes p 0 ∨ r = .clears p numEvents
    | .setPerfData p => (∃ q, r = .fills q numEvents ∧ p = some q) ∨ r = .idle ∧ p = none
    | .perfData => r = .idle ∨ r = .cancels ∨ ∃ p ev, r = .samples p ev
    | .hrtimerCancel => r = .exits
    | .callbackReturns _ => ∃ p ev, r = .samples p ev
    | .enter _ | .leave _ | .unlist _ | .drain _ => r.building = none
    | _ => True
  possible o a r :=
    match o, a with
    | .perfEventCreateKernelCounter .., ev => ev ≠ .null
    | .loadEvent .., ev => r.sampling = true ∨ ∃ made, ev = .ptr made
    | _, _ => True
  next o a r :=
    match o, a with
    | .kzalloc, p => p.elim r (.fills · 0)
    | .perfEventCreateKernelCounter .., ev => r.created ev
    | .storeEvent .., _ => r.stored
    | .loadEvent .., ev => r.loaded ev
    | .perfEventReleaseKernel _, _ => r.released
    | .kfree _, _ => r.freed
    | .setPerfData (some _), _ => .idle
    | .perfData, p => r.saw p
    | .hrtimerCancel, _ => .cancels
    | .timerExpires, _ => .samples none none
    | .callbackReturns _, _ => .idle
    | _, _ => r

/-- The call has nothing to do with buffers and events, and passes no gate. -/
def Op.Aside : Op → Prop
  | .kzalloc | .timerExpires | .perfEventCreateKernelCounter .. | .storeEvent .. | .storePrev ..
  | .loadPrev .. | .loadEvent .. | .perfEventReleaseKernel _ | .perfEventReadValue _ | .kfree _
  | .setPerfData _ | .perfData | .hrtimerCancel | .callbackReturns _ | .enter _ | .leave _
  | .unlist _ | .drain _ => False
  | _ => True

theorem keepers_aside {r : Role} (o : Op) (aside : Op.Aside o) :
    keepers.allowed o r ∧ ∀ a, keepers.next o a r = r := by
  cases o <;> first | exact aside.elim | exact ⟨trivial, fun _ => rfl⟩

theorem shows_aside (o : Op) (shows : o.Shows) : Op.Aside o := by
  cases o <;> first | exact shows.elim | trivial

/-! ## The code keeps to the roles -/

/-- A thread returns when it has nothing of its own. -/
def Ended (r : Role) (_ : Unit) : Prop := r = .idle ∨ r = .cleared

/-- What `init_perf_counters` leaves. -/
def Made (r : Role) (made : Option Ptr) : Prop :=
  match made with
  | some p => r = .fills p numEvents
  | none => r = .idle

theorem releaseBefore_keeps (p : Ptr) (i : Nat) :
    (releaseBefore p i).Follows keepers (fun r _ => r = .undoes p 0) (.undoes p i) := by
  induction i with
  | zero => rfl
  | succ i ih =>
      simp only [releaseBefore, loadEvent, perfEventReleaseKernel, call, Prog.call_bind,
        Prog.ret_bind, Prog.follows_call]
      refine ⟨Or.inl ⟨p, rfl, rfl⟩, ?_⟩
      rintro ev (sampling | ⟨made, rfl⟩)
      · exact Bool.noConfusion sampling
      · exact ⟨Or.inl ⟨p, i, made, rfl, rfl⟩, fun _ _ => ih⟩

theorem createCounters_keeps (p : Ptr) (cpu : Int) (codes : List (BitVec 32)) (i : Nat)
    (total : i + codes.length = numEvents) :
    (createCounters p cpu codes i).Follows keepers Made (.fills p i) := by
  induction codes generalizing i with
  | nil =>
      obtain rfl : i = numEvents := total
      exact ⟨trivial, fun _ _ => rfl⟩
  | cons code codes ih =>
      have onward := ih (i + 1) (by rw [← total, List.length_cons]; omega)
      simp only [createCounters, perfEventCreateKernelCounter, storeEvent, call, Prog.call_bind,
        Prog.ret_bind, Prog.follows_call]
      refine ⟨⟨p, i, rfl⟩, ?_⟩
      intro ev answer
      cases ev with
      | null => exact absurd rfl answer
      | err code =>
          refine ⟨Or.inr ⟨p, code, rfl, rfl, rfl⟩, fun _ _ => ?_⟩
          rw [Prog.follows_bind]
          refine (releaseBefore_keeps p i).mono fun r _ undone => ?_
          subst undone
          exact ⟨Or.inl rfl, fun _ _ => ⟨trivial, fun _ _ => rfl⟩⟩
      | ptr made =>
          refine ⟨Or.inl ⟨p, made, rfl, rfl, rfl⟩, fun _ _ => ⟨Or.inl ⟨p, i + 1, rfl, rfl⟩, ?_⟩⟩
          exact fun _ _ => onward

theorem initPerfCounters_keeps (pid : Int) :
    (initPerfCounters eventCodes pid).Follows keepers Made .idle := by
  simp only [initPerfCounters, kzalloc, call, Prog.call_bind, Prog.ret_bind, Prog.follows_call]
  refine ⟨rfl, ?_⟩
  intro p _
  cases p with
  | none => exact rfl
  | some p => exact ⟨trivial, fun cpu _ => createCounters_keeps p cpu eventCodes 0 rfl⟩

theorem startMonitoring_keeps (pid : Int) :
    (startMonitoring eventCodes pid).Follows keepers (fun r _ => r = .idle) .idle := by
  simp only [startMonitoring, pidTask, setMonitoredTask, getMonitoredTask, call, Prog.call_bind,
    Prog.ret_bind, Prog.follows_call]
  refine ⟨trivial, fun _ _ => ⟨trivial, fun _ _ => ⟨trivial, ?_⟩⟩⟩
  intro task _
  cases task with
  | none => rfl
  | some task =>
      simp only [getTaskStruct, call, Prog.call_bind, Prog.ret_bind, Prog.follows_call]
      refine ⟨trivial, fun _ _ => ⟨trivial, fun _ _ => ?_⟩⟩
      rw [Prog.follows_bind]
      refine (initPerfCounters_keeps pid).mono fun r made after => ?_
      have assigns : keepers.allowed (.setPerfData made) r ∧
          keepers.next (.setPerfData made) () r = .idle := by
        cases made with
        | none => exact ⟨Or.inr ⟨after, rfl⟩, after⟩
        | some p => exact ⟨Or.inl ⟨p, after, rfl⟩, rfl⟩
      refine ⟨assigns.1, fun _ _ => ?_⟩
      rw [assigns.2]
      refine ⟨Or.inl rfl, ?_⟩
      intro p _
      cases p with
      | none => rfl
      | some p =>
          refine ⟨trivial, fun _ _ => ⟨trivial, fun _ _ => ⟨trivial, fun _ _ => ⟨trivial, ?_⟩⟩⟩⟩
          exact fun _ _ => ⟨trivial, fun _ _ => rfl⟩

theorem pidWrite_keeps (count : Nat) :
    (pidWrite count).Follows keepers (fun r _ => r = .idle) .idle := by
  rw [Modules.pidWrite_monitors]
  refine Modules.storePid_follows count (fun _ => rfl) ⟨trivial, fun _ => rfl⟩ fun pid _ => ?_
  refine ⟨trivial, trivial, fun stored _ => ?_⟩
  exact (startMonitoring_keeps stored).mono fun _ _ ended _ => ended

theorem visit_keeps {α : Type} (g : Gate) (refused : α) {body : Code α}
    (keeps : body.Follows keepers (fun r _ => r = .idle) .idle) :
    (visit g refused body).Follows keepers Ended .idle := by
  simp only [visit, throughGate, enter, leave, call, Prog.call_bind, Prog.ret_bind,
    Prog.follows_call]
  refine ⟨rfl, ?_⟩
  intro entered _
  cases entered with
  | false => exact Or.inl rfl
  | true =>
      rw [if_pos rfl, Prog.follows_bind, Prog.follows_bind]
      refine keeps.mono fun r a idle => ?_
      subst idle
      exact ⟨rfl, fun _ _ => Or.inl rfl⟩

theorem shows_keeps {α : Type} {body : Code α} (shows : body.Only Op.Shows) :
    body.Follows keepers (fun r _ => r = .idle) .idle :=
  (shows.mono shows_aside).follows keepers_aside fun _ => rfl

theorem sampleCounters_keeps (codes : List (BitVec 32)) (i : Nat)
    (total : i + codes.length = numEvents) (r : Role) (samples : ∃ p ev, r = .samples p ev) :
    (sampleCounters codes i).Follows keepers (fun r _ => ∃ p ev, r = .samples p ev) r := by
  induction codes generalizing i r with
  | nil => exact samples
  | cons code codes ih =>
      have bound : i < numEvents := by
        rw [← total, List.length_cons]
        omega
      obtain ⟨read, loaded, rfl⟩ := samples
      simp only [sampleCounters, getPerfData, loadEvent, perfEventReadValue, loadPrev, storePrev,
        report, call, Prog.call_bind, Prog.ret_bind, Prog.follows_call]
      refine ⟨Or.inr (Or.inr ⟨read, loaded, rfl⟩), fun p _ => ⟨Or.inr ⟨bound, Or.inr ⟨loaded, rfl⟩⟩, ?_⟩⟩
      intro ev _
      refine ⟨⟨p, rfl⟩, fun value _ => ⟨Or.inr (Or.inr ⟨p, some ev, rfl⟩), fun p' _ => ⟨⟨some ev, rfl⟩, ?_⟩⟩⟩
      intro prev _
      refine ⟨trivial, fun _ _ => ⟨Or.inr (Or.inr ⟨p', some ev, rfl⟩), fun p'' _ => ⟨Or.inr ⟨some ev, rfl⟩, ?_⟩⟩⟩
      intro _ _
      exact ih (i + 1) (by rw [← total, List.length_cons]; omega) _ ⟨p'', some ev, rfl⟩

theorem samplePerfCounters_keeps :
    (samplePerfCounters eventCodes).Follows keepers (fun r _ => ∃ p ev, r = .samples p ev)
      (.samples none none) := by
  simp only [samplePerfCounters, getMonitoredTask, call, Prog.call_bind, Prog.ret_bind,
    Prog.follows_call]
  refine ⟨trivial, ?_⟩
  intro task _
  cases task with
  | none => exact ⟨none, none, rfl⟩
  | some task =>
      simp only [pidAlive, taskPc, call, Prog.call_bind, Prog.ret_bind, Prog.follows_call]
      refine ⟨trivial, fun _ _ => ⟨trivial, ?_⟩⟩
      intro alive _
      cases alive with
      | false => exact ⟨none, none, rfl⟩
      | true =>
          refine ⟨trivial, fun _ _ => ⟨trivial, fun _ _ => ?_⟩⟩
          rw [Prog.follows_bind]
          refine (sampleCounters_keeps eventCodes 0 rfl _ ⟨none, none, rfl⟩).mono ?_
          intro r _ samples
          exact ⟨trivial, fun _ _ => ⟨trivial, fun _ _ => samples⟩⟩

theorem timerInterrupt_keeps : timerInterrupt.Follows keepers Ended .idle := by
  simp only [timerInterrupt, timerExpires, call, Prog.call_bind, Prog.ret_bind, Prog.follows_call]
  refine ⟨rfl, fun _ _ => ?_⟩
  rw [Prog.follows_bind]
  refine samplePerfCounters_keeps.mono fun r restart samples => ?_
  exact ⟨samples, fun _ _ => Or.inl rfl⟩

/-! ## The unload -/

theorem releaseCounters_keeps (p : Ptr) (count first : Nat) (total : first + count = numEvents) :
    (releaseCounters p (List.range' first count)).Follows keepers
      (fun r _ => r = .clears p numEvents) (.clears p first) := by
  induction count generalizing first with
  | zero =>
      obtain rfl : first = numEvents := total
      exact rfl
  | succ count ih =>
      rw [List.range'_succ]
      simp only [releaseCounters, loadEvent, call, Prog.call_bind, Prog.ret_bind, Prog.follows_call]
      refine ⟨Or.inr ⟨by omega, Or.inl ⟨p, rfl, rfl⟩⟩, ?_⟩
      rintro ev (sampling | ⟨made, rfl⟩)
      · exact Bool.noConfusion sampling
      · have event : EventPtr.ptr made ≠ .null := by
          intro null
          cases null
        rw [if_pos event]
        refine ⟨Or.inr ⟨p, first, made, rfl, rfl⟩, fun _ _ => ?_⟩
        exact ih (first + 1) (by omega)

theorem cleanupPerfCounters_keeps (p : Option Ptr) :
    (cleanupPerfCounters eventCodes p).Follows keepers (fun r _ => r = .cleared)
      (Role.cancels.saw p) := by
  cases p with
  | none => exact rfl
  | some p =>
      simp only [cleanupPerfCounters]
      rw [Prog.follows_bind, List.range_eq_range']
      refine (releaseCounters_keeps p eventCodes.length 0 rfl).mono fun r _ clears => ?_
      subst clears
      exact ⟨Or.inr rfl, fun _ _ => rfl⟩

theorem closeGate_keeps (g : Gate) :
    (closeGate g).Follows keepers (fun r _ => r = .cleared) .cleared :=
  ⟨rfl, fun _ _ => ⟨rfl, fun _ _ => rfl⟩⟩

theorem stopMonitoring_keeps :
    (stopMonitoring eventCodes).Follows keepers (fun r _ => r = .cleared) .exits := by
  simp only [stopMonitoring, hrtimerCancel, getPerfData, call, Prog.call_bind, Prog.ret_bind,
    Prog.follows_call]
  refine ⟨rfl, fun _ _ => ⟨Or.inr (Or.inl rfl), fun p _ => ?_⟩⟩
  rw [Prog.follows_bind]
  refine (cleanupPerfCounters_keeps p).mono fun r _ cleared => ?_
  subst cleared
  exact ⟨trivial, fun _ _ => ⟨trivial, fun _ _ => ⟨trivial, fun _ _ => rfl⟩⟩⟩

theorem moduleExit_keeps : moduleExit.Follows keepers Ended .exits := by
  unfold moduleExit
  rw [Prog.follows_bind]
  refine stopMonitoring_keeps.mono fun r _ cleared => ?_
  subst cleared
  rw [Prog.follows_bind]
  refine (closeGate_keeps .messageEntry).mono fun r _ closed => ?_
  subst closed
  rw [Prog.follows_bind]
  refine (closeGate_keeps .pidEntry).mono fun r _ closed => ?_
  subst closed
  exact (closeGate_keeps .probe).mono fun r _ closed => Or.inr closed

theorem happening_keeps {happening : Happening} {thread : Thread sig Env Unit}
    (started : happening.action = .spawn thread) : thread.prog.Follows keepers Ended .idle := by
  cases happening with
  | write env =>
      cases started
      exact visit_keeps _ _ (pidWrite_keeps _)
  | read env count ppos =>
      cases started
      exact visit_keeps _ _ (shows_keeps (messageRead_shows count ppos))
  | switch env =>
      cases started
      exact visit_keeps _ _ (shows_keeps helloSwitch_shows)
  | expire env =>
      cases started
      exact timerInterrupt_keeps
  | step t => cases started
  | die task => cases started

end Dreamscape.MonitorV2.Buffers
