/-
# MonitorV2.Context -- which calls may sleep, and where they are made

A thread is atomic between `get_cpu` and `put_cpu`, while it holds the spinlock, in the
callback of the timer and in the probe.  Its depth there follows a protocol of its own
calls, and every handler leaves it at zero.

The module makes three calls that may sleep: it creates events, reads them, and copies
the message to user memory.  Each of them stands in code that is atomic
(`sleeping_atomic`), so a run keeps to the rule exactly if it makes none of them
(`context_discipline_iff`).
-/
import Dreamscape.MonitorV2.Quiescence

namespace Dreamscape.MonitorV2

set_option autoImplicit false

open Theory Kernel

/-! ## Depth -/

/-- How deep a thread is in code that must not sleep. -/
structure Depth where
  preempt : Nat
  lock : Bool
  callback : Bool
  probe : Nat
  deriving DecidableEq

def Depth.zero : Depth := ⟨0, false, false, 0⟩

def Depth.Atomic (r : Depth) : Prop := r ≠ .zero

def State.depth (s : State) (t : Tid) : Depth where
  preempt := s.preemptCount t
  lock := decide (s.bufferLock = some t)
  callback := decide (s.running = some t)
  probe := (s.entrance .probe).inside.count t

def Op.MaySleep : Op → Prop
  | .perfEventCreateKernelCounter .. | .perfEventReadValue _ | .copyToUser _ => True
  | _ => False

/-- The call neither sleeps nor changes a depth. -/
def Op.Level : Op → Prop
  | .perfEventCreateKernelCounter .. | .perfEventReadValue _ | .copyToUser _ | .getCpu | .putCpu
  | .spinLock | .spinUnlock | .timerExpires | .callbackReturns _ | .enter _ | .leave _ => False
  | _ => True

/-- A thread sleeps only where it is atomic, copies the message only under the lock, and
undoes what it has done. -/
def contexts : Protocol sig Depth where
  allowed o r :=
    match o with
    | .perfEventCreateKernelCounter .. | .perfEventReadValue _ => r.Atomic
    | .copyToUser _ => r.lock = true
    | .putCpu => 0 < r.preempt
    | .spinLock => r.lock = false
    | .spinUnlock => r.lock = true
    | .leave .probe => 0 < r.probe
    | _ => True
  possible _ _ _ := True
  next o a r :=
    match o, a with
    | .getCpu, _ => { r with preempt := r.preempt + 1 }
    | .putCpu, _ => { r with preempt := r.preempt - 1 }
    | .spinLock, _ => { r with lock := true }
    | .spinUnlock, _ => { r with lock := false }
    | .timerExpires, _ => { r with callback := true }
    | .callbackReturns _, _ => { r with callback := false }
    | .enter .probe, true => { r with probe := r.probe + 1 }
    | .leave .probe, _ => { r with probe := r.probe - 1 }
    | _, _ => r

theorem atomic_of_lock {r : Depth} (locked : r.lock = true) : r.Atomic := by
  rintro rfl
  cases locked

theorem contexts_level {o : Op} (level : o.Level) (r : Depth) :
    contexts.allowed o r ∧ ∀ a, contexts.next o a r = r := by
  cases o <;> first | exact level.elim | exact ⟨trivial, fun a => rfl⟩

/-! ## The kernel moves a depth along the protocol -/

section Kernel

variable {t u : Tid} {e : Env} {o : Op} {a : o.Ans} {s s' : State} {r : Depth}

/-- The two states agree on what a depth is made of. -/
structure SameDepth (s s' : State) : Prop where
  preemptCount : s'.preemptCount = s.preemptCount
  bufferLock : s'.bufferLock = s.bufferLock
  running : s'.running = s.running
  probe : s'.entrance .probe = s.entrance .probe

theorem SameDepth.depth (same : SameDepth s s') (u : Tid) : s'.depth u = s.depth u := by
  simp only [State.depth, same.preemptCount, same.bufferLock, same.running, same.probe]

theorem SameDepth.refl (s : State) : SameDepth s s := ⟨rfl, rfl, rfl, rfl⟩

/-- Only who is in the probe shows in a depth. -/
theorem depth_atGate (s : State) (g : Gate) (entrance : Entrance) (u : Tid) :
    (s.atGate g entrance).depth u =
      if g = .probe then { s.depth u with probe := entrance.inside.count u } else s.depth u := by
  cases g <;> rfl

/-- Calls that do not change the depth of any thread. -/
theorem kernel_level (level : o.Level ∨ o.MaySleep) (s : State) (u : Tid) :
    (kernel t e o s).state.depth u = s.depth u := by
  suffices same : SameDepth s (kernel t e o s).state ∨
      ∃ g entrance, entrance.inside = (s.entrance g).inside ∧
        (kernel t e o s).state = s.atGate g entrance by
    rcases same with same | ⟨g, entrance, inside, moved⟩
    · exact same.depth u
    · rw [moved, depth_atGate, inside]
      split
      · rename_i here
        subst here
        rfl
      · rfl
  have stay := SameDepth.refl s
  cases o with
  | getTaskStruct task => exact Or.inl (onTask_state stay task fun _ => ⟨rfl, rfl, rfl, rfl⟩)
  | putTaskStruct task =>
      refine Or.inl (onTask_state stay task fun _ => ?_)
      split <;> exact ⟨rfl, rfl, rfl, rfl⟩
  | pidAlive task => exact Or.inl (onTask_state stay task fun _ => stay)
  | taskPc task => exact Or.inl (onTask_state stay task fun _ => stay)
  | kfree p =>
      simp only [kernel]
      exact Or.inl (onBuffer_state stay (some p) fun _ _ => ⟨rfl, rfl, rfl, rfl⟩)
  | loadEvent p i => exact Or.inl (onBuffer_state stay p fun _ _ => stay)
  | storeEvent p i ev => exact Or.inl (onBuffer_state stay p fun _ _ => ⟨rfl, rfl, rfl, rfl⟩)
  | loadPrev p i => exact Or.inl (onBuffer_state stay p fun _ _ => stay)
  | storePrev p i v => exact Or.inl (onBuffer_state stay p fun _ _ => ⟨rfl, rfl, rfl, rfl⟩)
  | perfEventReleaseKernel ev => exact Or.inl (onEvent_state stay ev fun _ => ⟨rfl, rfl, rfl, rfl⟩)
  | perfEventReadValue ev => exact Or.inl (onEvent_state stay ev fun _ => stay)
  | kzalloc | perfEventCreateKernelCounter _ _ _ | hrtimerStart _ | drain _ =>
      simp only [kernel]
      split <;> exact Or.inl ⟨rfl, rfl, rfl, rfl⟩
  | hrtimerCancel =>
      simp only [kernel]
      split
      · split <;> exact Or.inl ⟨rfl, rfl, rfl, rfl⟩
      · exact Or.inl stay
  | unlist g => exact Or.inr ⟨g, { s.entrance g with registered := false }, rfl, rfl⟩
  | getCpu | putCpu | spinLock | spinUnlock | timerExpires | callbackReturns _ | enter _ | leave _ =>
      exact level.elim (fun level => level.elim) fun sleeps => sleeps.elim
  | _ => exact Or.inl ⟨rfl, rfl, rfl, rfl⟩

/-- The calls that change a depth. -/
theorem level_cases (o : Op) :
    (o.Level ∨ o.MaySleep) ∨ o = .getCpu ∨ o = .putCpu ∨ o = .spinLock ∨ o = .spinUnlock ∨
      o = .timerExpires ∨ (∃ restart, o = .callbackReturns restart) ∨ (∃ g, o = .enter g) ∨
        ∃ g, o = .leave g := by
  cases o <;> simp [Op.Level, Op.MaySleep]

theorem contexts_next (level : o.Level ∨ o.MaySleep) (a : o.Ans) (r : Depth) :
    contexts.next o a r = r := by
  cases o <;> first | rfl | exact level.elim (fun level => level.elim) fun sleeps => sleeps.elim

theorem depth_own (answered : kernel t e o s = .done a s') :
    s'.depth t = contexts.next o a (s.depth t) := by
  rcases level_cases o with level | rfl | rfl | rfl | rfl | rfl | ⟨restart, rfl⟩ | ⟨g, rfl⟩ | ⟨g, rfl⟩
  · have same := kernel_level (t := t) (e := e) level s t
    rw [answered] at same
    rw [contexts_next level]
    exact same
  · cases answered
    simp [State.depth, contexts]
  · cases answered
    simp [State.depth, contexts]
  · obtain ⟨-, rfl⟩ := spinLock_done answered
    simp [State.depth, contexts]
  · cases answered
    simp [State.depth, contexts]
  · obtain ⟨-, -, rfl⟩ := timerExpires_done answered
    simp [State.depth, contexts]
  · obtain ⟨-, rfl⟩ := callbackReturns_done answered
    simp [State.depth, contexts]
  · obtain ⟨-, rfl⟩ := enter_done answered
    cases a with
    | false => cases g <;> rfl
    | true =>
        rw [if_pos rfl, depth_atGate, List.count_cons_self]
        cases g <;> rfl
  · rw [leave_done answered, depth_atGate, List.count_erase_self]
    cases g <;> rfl

theorem depth_apart (other : u ≠ t) (allowed : contexts.allowed o (s.depth t))
    (answered : kernel t e o s = .done a s') : s'.depth u = s.depth u := by
  rcases level_cases o with level | rfl | rfl | rfl | rfl | rfl | ⟨restart, rfl⟩ | ⟨g, rfl⟩ | ⟨g, rfl⟩
  · have same := kernel_level (t := t) (e := e) level s u
    rw [answered] at same
    exact same
  · cases answered
    simp [State.depth, other]
  · cases answered
    simp [State.depth, other]
  · obtain ⟨free, rfl⟩ := spinLock_done answered
    simp [State.depth, free, Ne.symm other]
  · cases answered
    have owned : s.bufferLock = some t := of_decide_eq_true allowed
    simp [State.depth, owned, Ne.symm other]
  · obtain ⟨-, still, rfl⟩ := timerExpires_done answered
    simp [State.depth, still, Ne.symm other]
  · obtain ⟨running, rfl⟩ := callbackReturns_done answered
    simp [State.depth, running, Ne.symm other]
  · obtain ⟨-, rfl⟩ := enter_done answered
    cases a with
    | false => rfl
    | true =>
        rw [if_pos rfl, depth_atGate, List.count_cons_of_ne (Ne.symm other)]
        cases g <;> rfl
  · rw [leave_done answered, depth_atGate, List.count_erase_of_ne other]
    cases g <;> rfl

end Kernel

/-! ## The code keeps to the protocol -/

section Code

variable {α : Type}

theorem level_follows {r : Depth} {Q : Depth → α → Prop} (ends : ∀ a, Q r a) {p : Code α}
    (only : p.Only Op.Level) : p.Follows contexts Q r :=
  only.follows (fun _ level => contexts_level level r) ends

theorem releaseBefore_level (p : Ptr) (i : Nat) : (releaseBefore p i).Only Op.Level := by
  induction i with
  | zero => trivial
  | succ i ih => simpa [releaseBefore, Op.Level] using fun _ => ih

/-- Both ways out of the creation loop give the CPU back. -/
theorem createCounters_contexts (p : Ptr) (cpu : Int) (codes : List (BitVec 32)) (i : Nat)
    {r : Depth} (pinned : 0 < r.preempt) :
    (createCounters p cpu codes i).Follows contexts
      (fun r' _ => r' = { r with preempt := r.preempt - 1 }) r := by
  have atomic : r.Atomic := by
    rintro rfl
    exact Nat.lt_irrefl 0 pinned
  induction codes generalizing i with
  | nil => exact ⟨pinned, fun _ _ => rfl⟩
  | cons code codes ih =>
      simp only [createCounters, perfEventCreateKernelCounter, storeEvent, call, Prog.call_bind,
        Prog.ret_bind, Prog.follows_call]
      refine ⟨atomic, fun ev _ => ⟨trivial, fun _ _ => ?_⟩⟩
      cases ev with
      | err code =>
          show ((releaseBefore p i) >>= _).Follows contexts _ r
          rw [Prog.follows_bind]
          apply level_follows _ (releaseBefore_level p i)
          intro _
          exact ⟨trivial, fun _ _ => ⟨pinned, fun _ _ => rfl⟩⟩
      | null => exact ⟨trivial, fun _ _ => ih (i + 1)⟩
      | ptr ev => exact ⟨trivial, fun _ _ => ih (i + 1)⟩

theorem initPerfCounters_contexts (codes : List (BitVec 32)) (pid : Int) (r : Depth) :
    (initPerfCounters codes pid).Follows contexts (fun r' _ => r' = r) r := by
  simp only [initPerfCounters, kzalloc, call, Prog.call_bind, Prog.ret_bind, Prog.follows_call]
  refine ⟨trivial, ?_⟩
  intro p _
  cases p with
  | none => rfl
  | some p =>
      refine ⟨trivial, fun cpu _ => ?_⟩
      exact createCounters_contexts (r := { r with preempt := r.preempt + 1 }) p cpu codes 0
        (Nat.succ_pos r.preempt)

theorem startMonitoring_contexts (codes : List (BitVec 32)) (pid : Int) (r : Depth) :
    (startMonitoring codes pid).Follows contexts (fun r' _ => r' = r) r := by
  simp only [startMonitoring, pidTask, setMonitoredTask, getMonitoredTask, call, Prog.call_bind,
    Prog.ret_bind, Prog.follows_call]
  refine ⟨trivial, fun _ _ => ⟨trivial, fun _ _ => ⟨trivial, ?_⟩⟩⟩
  intro task _
  cases task with
  | none => rfl
  | some task =>
      simp only [getTaskStruct, call, Prog.call_bind, Prog.ret_bind, Prog.follows_call]
      refine ⟨trivial, fun again _ => ⟨trivial, ?_⟩⟩
      intro _ _
      rw [Prog.follows_bind]
      apply (initPerfCounters_contexts codes pid r).mono
      rintro r' made rfl
      apply level_follows fun _ => rfl
      simp only [setPerfData, getPerfData, call, Prog.call_bind, Prog.ret_bind, Prog.only_call]
      refine ⟨trivial, fun _ => ⟨trivial, ?_⟩⟩
      intro p
      cases p with
      | none => trivial
      | some p => simp [Op.Level]

theorem pidWrite_contexts (count : Nat) (r : Depth) :
    (pidWrite count).Follows contexts (fun r' _ => r' = r) r := by
  rw [Modules.pidWrite_monitors]
  refine Modules.storePid_follows count (fun _ => rfl) ⟨trivial, fun _ => rfl⟩ fun pid _ => ?_
  refine ⟨trivial, trivial, fun stored _ => ?_⟩
  exact (startMonitoring_contexts eventCodes stored r).mono fun _ _ same _ => same

/-- Every counter is read in the callback. -/
theorem samplePerfCounters_contexts (codes : List (BitVec 32)) {r : Depth} (atomic : r.Atomic) :
    (samplePerfCounters codes).Follows contexts (fun r' _ => r' = r) r :=
  (samplePerfCounters_samples codes).follows
    (fun o samples => by
      cases o <;> first | exact samples.elim | exact ⟨trivial, fun a => rfl⟩ | exact ⟨atomic, fun a => rfl⟩)
    fun _ => rfl

theorem helloSwitch_contexts {r : Depth} (free : r.lock = false) :
    helloSwitch.Follows contexts (fun r' _ => r' = r) r := by
  have back : { r with lock := false } = r := by rw [← free]
  simp only [helloSwitch, currentPid, getTargetPid, call, Prog.call_bind, Prog.ret_bind,
    Prog.follows_call]
  refine ⟨trivial, fun pid _ => ⟨trivial, ?_⟩⟩
  intro target _
  split
  · refine ⟨free, fun _ _ => ⟨trivial, fun _ _ => ⟨trivial, fun _ _ => ⟨rfl, fun _ _ => ?_⟩⟩⟩⟩
    exact back
  · rfl

/-- The message is copied under the lock. -/
theorem messageRead_contexts (count : Nat) (ppos : Int) {r : Depth} (free : r.lock = false) :
    (messageRead count ppos).Follows contexts (fun r' _ => r' = r) r := by
  have back : { r with lock := false } = r := by rw [← free]
  simp only [messageRead, spinLock, getMessage, call, Prog.call_bind, Prog.ret_bind,
    Prog.follows_call]
  refine ⟨free, fun _ _ => ⟨trivial, ?_⟩⟩
  intro text _
  rw [Prog.follows_bind]
  have unlocks : ∀ len : Int × Int, (do spinUnlock; return len : Code (Int × Int)).Follows contexts
      (fun r' _ => r' = r) { r with lock := true } := fun _ => ⟨rfl, fun _ _ => back⟩
  show (simpleReadFromBuffer count ppos text).Follows contexts _ { r with lock := true }
  unfold simpleReadFromBuffer
  split
  · exact unlocks _
  · split
    · exact unlocks _
    · simp only [copyToUser, call, Prog.call_bind, Prog.ret_bind, Prog.follows_call]
      refine ⟨rfl, ?_⟩
      intro ret _
      split
      · exact unlocks _
      · exact unlocks _

/-- A visitor leaves with the depth it came with. -/
theorem visit_contexts {g : Gate} {refused : α} {body : Code α}
    (keeps : ∀ r : Depth, r.lock = false → body.Follows contexts (fun r' _ => r' = r) r) :
    (visit g refused body).Follows contexts (fun r _ => r = .zero) .zero := by
  have away : Depth.zero = .zero := rfl
  simp only [visit, throughGate, enter, call, Prog.call_bind, Prog.ret_bind, Prog.follows_call]
  refine ⟨trivial, ?_⟩
  intro entered _
  cases entered with
  | false => cases g <;> exact away
  | true =>
      rw [if_pos rfl, Prog.follows_bind, Prog.follows_bind]
      cases g with
      | probe =>
          apply (keeps { Depth.zero with probe := 1 } rfl).mono
          rintro r a rfl
          exact ⟨Nat.zero_lt_one, fun _ _ => rfl⟩
      | pidEntry | messageEntry =>
          apply (keeps .zero rfl).mono
          rintro r a rfl
          exact ⟨trivial, fun _ _ => rfl⟩

theorem timerInterrupt_contexts :
    timerInterrupt.Follows contexts (fun r _ => r = .zero) .zero := by
  have atomic : Depth.Atomic { Depth.zero with callback := true } := fun zero =>
    Bool.noConfusion (congrArg Depth.callback zero)
  simp only [timerInterrupt, timerExpires, call, Prog.call_bind, Prog.ret_bind, Prog.follows_call]
  refine ⟨trivial, fun _ _ => ?_⟩
  rw [Prog.follows_bind]
  apply (samplePerfCounters_contexts eventCodes atomic).mono
  rintro r restart rfl
  exact ⟨trivial, fun _ _ => rfl⟩

theorem moduleExit_level : moduleExit.Only Op.Level := by
  have closes : ∀ g, (closeGate g).Only Op.Level := fun g =>
    ⟨trivial, fun _ => ⟨trivial, fun _ => trivial⟩⟩
  have cleans : ∀ perfData, (cleanupPerfCounters eventCodes perfData).Only Op.Level := by
    intro perfData
    cases perfData with
    | none => trivial
    | some p =>
        have releases : ∀ slots, (releaseCounters p slots).Only Op.Level := by
          intro slots
          induction slots with
          | nil => trivial
          | cons i rest ih =>
              simp only [releaseCounters, loadEvent, call, Prog.call_bind, Prog.ret_bind,
                Prog.only_call]
              refine ⟨trivial, fun ev => ?_⟩
              split
              · exact ⟨trivial, fun _ => ih⟩
              · exact ih
        exact Prog.only_bind (releases _) fun _ => ⟨trivial, fun _ => trivial⟩
  have stops : (stopMonitoring eventCodes).Only Op.Level := by
    refine ⟨trivial, fun _ => ⟨trivial, fun perfData => ?_⟩⟩
    show (cleanupPerfCounters eventCodes perfData >>= _).Only Op.Level
    refine Prog.only_bind (cleans perfData) fun _ => ?_
    simp [Op.Level]
  exact Prog.only_bind stops fun _ => Prog.only_bind (closes _) fun _ =>
    Prog.only_bind (closes _) fun _ => closes _

end Code

/-! ## Whole runs -/

theorem machineAfter_contexts (happenings : List Happening) :
    (machineAfter happenings).Relies contexts (fun r _ => r = .zero) (fun _ => True)
      (fun s t r => s.depth t = r) .zero := by
  refine Pool.run_relies ?_ ?_ ?_ ?_ ⟨trivial, ?_, fun t _ => rfl⟩
  · rintro t e o s a s' r - rfl _ answered
    exact ⟨trivial, trivial, depth_own answered⟩
  · rintro t u e o s a s' r q other rfl allowed answered rfl
    exact depth_apart other allowed answered
  · intro task s _
    exact ⟨trivial, fun t r same => same⟩
  · intro thread started
    obtain ⟨happening, -, same⟩ := List.mem_map.mp started
    cases happening with
    | write env =>
        cases same
        exact visit_contexts fun r _ => pidWrite_contexts _ r
    | read env count ppos =>
        cases same
        exact visit_contexts fun r free => messageRead_contexts count ppos free
    | switch env =>
        cases same
        exact visit_contexts fun r free => helloSwitch_contexts free
    | expire env =>
        cases same
        exact timerInterrupt_contexts
    | step t => cases same
    | die task => cases same
  · intro t thread found
    cases t with
    | zero =>
        cases found
        exact ⟨.zero, rfl, level_follows (fun _ => rfl) moduleExit_level⟩
    | succ t => cases found

/-- Wherever the module is about to make a call that may sleep, it is atomic. -/
theorem sleeping_atomic {happenings : List Happening} {t : Tid} {o : Op}
    (next : (machineAfter happenings).next t = some o) (sleeps : o.MaySleep) :
    ((machineAfter happenings).shared.depth t).Atomic := by
  obtain ⟨r, rfl, allowed⟩ := (machineAfter_contexts happenings).allowed next
  cases o <;> first | exact sleeps.elim | exact allowed | exact atomic_of_lock allowed

/-- The handlers leave the depth as they found it. -/
theorem returned_level {happenings : List Happening} {t : Tid}
    (returned : (machineAfter happenings).Returned t) :
    (machineAfter happenings).shared.depth t = .zero := by
  obtain ⟨r, a, same, zero⟩ := (machineAfter_contexts happenings).returned returned
  exact same.trans zero

/-- Step `n` of the run lets thread `t` make the call `o`. -/
def Calls (happenings : List Happening) (n : Nat) (t : Tid) (o : Op) : Prop :=
  happenings[n]? = some (.step t) ∧ (machineAfter (happenings.take n)).next t = some o

/-- No call that may sleep is made by an atomic thread, and a handler that has returned has
left its depth as it was. -/
structure ContextDiscipline (happenings : List Happening) : Prop where
  awake : ∀ n t o, Calls happenings n t o → o.MaySleep →
    ¬((machineAfter (happenings.take n)).shared.depth t).Atomic
  balanced : ∀ n t, (machineAfter (happenings.take n)).Returned t →
    (machineAfter (happenings.take n)).shared.depth t = .zero

/-- **Context discipline** holds in a run if and only if the run creates no event, reads
none, and copies nothing to user memory. -/
theorem context_discipline_iff (happenings : List Happening) :
    ContextDiscipline happenings ↔ ∀ n t o, Calls happenings n t o → ¬o.MaySleep := by
  constructor
  · intro discipline n t o calls sleeps
    exact discipline.awake n t o calls sleeps (sleeping_atomic calls.2 sleeps)
  · intro sleepless
    refine ⟨fun n t o calls sleeps => absurd sleeps (sleepless n t o calls), fun n t returned => ?_⟩
    exact returned_level returned

/-- A write that starts a session, up to its first event. -/
def firstEvent : List Happening := .write (.echo "5\n".toList) :: List.replicate 12 (.step 1)

theorem event_created_without_preemption : ¬∀ happenings, ContextDiscipline happenings := by
  intro discipline
  have creates : (machineAfter (firstEvent.take 12)).next 1 =
      some (.perfEventCreateKernelCounter (counterAttr 0x01) 0 none) := by rfl
  exact (context_discipline_iff firstEvent).mp (discipline firstEvent) 12 1 _ ⟨rfl, creates⟩ trivial

end Dreamscape.MonitorV2
