/-
# MonitorV2.Interior -- what code inside the module can do

Most calls are made by code that has entered the module and has not left it.  They
leave the gates, and who is inside, as they are; of the timer they only start it
(`kernel_inner`).  The calls of the timer's callback moreover leave the holdings alone
(`timerInterrupt_holdings`).
-/
import Dreamscape.Modules.Handlers

namespace Dreamscape.MonitorV2

set_option autoImplicit false

open Theory Kernel

/-! ## Answers through a pointer -/

section Pointers

variable {s : State} {I : State → Prop}

theorem onBuffer_state {α : Type} (holds : I s) (p : Option Ptr) {f : Ptr → Buffer → Answer α}
    (keeps : ∀ q buf, I (f q buf).state) : I (s.onBuffer p f).state := by
  unfold State.onBuffer
  split
  · exact holds
  · split
    · exact holds
    · exact keeps _ _

theorem onTask_state {α : Type} (holds : I s) (task : Option Task) {f : Task → Answer α}
    (keeps : ∀ found, I (f found).state) : I (s.onTask task f).state := by
  unfold State.onTask
  split
  · exact holds
  · exact keeps _

theorem onEvent_state {α : Type} (holds : I s) (ev : EventPtr) {f : PerfEvent → Answer α}
    (keeps : ∀ found, I (f found).state) : I (s.onEvent ev f).state := by
  unfold State.onEvent
  split
  · exact holds
  · exact holds
  · split
    · exact holds
    · exact keeps _

end Pointers

/-! ## Inner calls -/

/-- The call neither passes a gate, nor closes one, nor begins or ends or waits for a
callback. -/
def Op.Inner : Op → Prop
  | .hrtimerCancel | .timerExpires | .callbackReturns _ | .enter _ | .leave _ | .unlist _
  | .drain _ => False
  | _ => True

/-- What an inner call keeps.  It may start the timer, but after a cancellation that is
logged as a late start, and it does not undo that a timer is clobbered. -/
structure Inside (s s' : State) : Prop where
  running : s'.running = s.running
  entrance : s'.entrance = s.entrance
  cancelled : s'.cancelled = s.cancelled
  lateStarts : s.lateStarts ≤ s'.lateStarts
  intact : s'.clobbered = false → s.clobbered = false
  enqueued : s.cancelled = true → s'.lateStarts = 0 → s'.enqueued = s.enqueued

theorem Inside.refl (s : State) : Inside s s :=
  ⟨rfl, rfl, rfl, Nat.le_refl _, id, fun _ _ => rfl⟩

theorem Inside.trans {s s' s'' : State} (first : Inside s s') (second : Inside s' s'') :
    Inside s s'' where
  running := second.running.trans first.running
  entrance := second.entrance.trans first.entrance
  cancelled := second.cancelled.trans first.cancelled
  lateStarts := Nat.le_trans first.lateStarts second.lateStarts
  intact := fun intact => first.intact (second.intact intact)
  enqueued := by
    intro cancelled onTime
    have early : s'.lateStarts = 0 := Nat.eq_zero_of_le_zero (onTime ▸ second.lateStarts)
    have still : s'.cancelled = true := first.cancelled.trans cancelled
    exact (second.enqueued still onTime).trans (first.enqueued cancelled early)

theorem kernel_inner {t : Tid} {e : Env} {o : Op} (inner : o.Inner) (s : State) :
    Inside s (kernel t e o s).state := by
  have same : ∀ {s' : State}, s'.running = s.running → s'.entrance = s.entrance →
      s'.cancelled = s.cancelled → s'.lateStarts = s.lateStarts → s'.clobbered = s.clobbered →
      s'.enqueued = s.enqueued → Inside s s' :=
    fun running entrance cancelled late clobbered enqueued =>
      ⟨running, entrance, cancelled, Nat.le_of_eq late.symm, fun intact => clobbered.symm.trans intact,
        fun _ _ => enqueued⟩
  have stay := Inside.refl s
  cases o with
  | getTaskStruct task => exact onTask_state stay task fun _ => same rfl rfl rfl rfl rfl rfl
  | putTaskStruct task =>
      apply onTask_state stay task
      intro _
      split <;> exact same rfl rfl rfl rfl rfl rfl
  | pidAlive task => exact onTask_state stay task fun _ => stay
  | taskPc task => exact onTask_state stay task fun _ => stay
  | kfree p =>
      simp only [kernel]
      exact onBuffer_state stay (some p) fun _ _ => same rfl rfl rfl rfl rfl rfl
  | loadEvent p i => exact onBuffer_state stay p fun _ _ => stay
  | storeEvent p i ev => exact onBuffer_state stay p fun _ _ => same rfl rfl rfl rfl rfl rfl
  | loadPrev p i => exact onBuffer_state stay p fun _ _ => stay
  | storePrev p i v => exact onBuffer_state stay p fun _ _ => same rfl rfl rfl rfl rfl rfl
  | perfEventReleaseKernel ev => exact onEvent_state stay ev fun _ => same rfl rfl rfl rfl rfl rfl
  | perfEventReadValue ev => exact onEvent_state stay ev fun _ => stay
  | kzalloc | spinLock =>
      simp only [kernel]
      split <;> exact same rfl rfl rfl rfl rfl rfl
  | perfEventCreateKernelCounter attr cpu task =>
      simp only [kernel]
      split <;> exact same rfl rfl rfl rfl rfl rfl
  | hrtimerStart ns =>
      simp only [kernel]
      split
      · by_cases cancelled : s.cancelled = true
        · refine ⟨rfl, rfl, rfl, ?_, id, fun _ onTime => ?_⟩
          · simp [cancelled]
          · simp [cancelled] at onTime
        · refine ⟨rfl, rfl, rfl, ?_, id, fun late => absurd late cancelled⟩
          simp [cancelled]
      · exact stay
  | hrtimerInit =>
      refine ⟨rfl, rfl, rfl, Nat.le_refl _, fun intact => ?_, fun _ _ => rfl⟩
      simp only [kernel, Outcome.state, State.initTimer, Bool.or_eq_false_iff] at intact
      exact intact.1.1
  | hrtimerCancel | timerExpires | callbackReturns _ | enter _ | leave _ | unlist _ | drain _ =>
      exact inner.elim
  | _ => exact same rfl rfl rfl rfl rfl rfl

/-! ## Answers to calls that wait, or may be refused -/

section Answers

variable {t : Tid} {e : Env} {s s' : State} {g : Gate}

theorem enter_done {a : Bool} (answered : kernel t e (.enter g) s = .done a s') :
    (s.entrance g).registered = a ∧
      s' = if a then s.atGate g { s.entrance g with inside := t :: (s.entrance g).inside } else s := by
  simp only [kernel] at answered
  split at answered
  · rename_i registered
    cases answered
    exact ⟨registered, rfl⟩
  · rename_i gone
    cases answered
    exact ⟨Bool.eq_false_iff.mpr gone, rfl⟩

theorem leave_done {a : Unit} (answered : kernel t e (.leave g) s = .done a s') :
    s' = s.atGate g { s.entrance g with inside := (s.entrance g).inside.erase t } := by
  simp only [kernel] at answered
  split at answered
  · cases answered
    rfl
  · cases answered

theorem timerExpires_done {a : Unit} (answered : kernel t e .timerExpires s = .done a s') :
    s.enqueued = true ∧ s.running = none ∧
      s' = { s with enqueued := false, running := some t } := by
  simp only [kernel] at answered
  split at answered
  · rename_i ready
    cases answered
    exact ⟨ready.1, ready.2, rfl⟩
  · cases answered

theorem callbackReturns_done {restart : Bool} {a : Unit}
    (answered : kernel t e (.callbackReturns restart) s = .done a s') :
    s.running = some t ∧ s' = { s with running := none, enqueued := s.enqueued || restart } := by
  simp only [kernel] at answered
  split at answered
  · rename_i running
    cases answered
    exact ⟨running, rfl⟩
  · cases answered

theorem hrtimerCancel_done {a : Unit} (answered : kernel t e .hrtimerCancel s = .done a s') :
    (s.running = none ∨ s.clobbered = true) ∧ s' = s.cancel := by
  simp only [kernel] at answered
  split at answered
  · split at answered
    · rename_i free
      cases answered
      exact ⟨free, rfl⟩
    · cases answered
  · cases answered

theorem drain_done {a : Unit} (answered : kernel t e (.drain g) s = .done a s') :
    (s.entrance g).inside = [] ∧ s' = s := by
  simp only [kernel] at answered
  split at answered
  · rename_i empty
    cases answered
    exact ⟨empty, rfl⟩
  · cases answered

theorem hrtimerStart_done {ns : Nat} {a : Unit}
    (answered : kernel t e (.hrtimerStart ns) s = .done a s') :
    s' =
      { s with
        enqueued := true
        lateStarts := if s.cancelled then s.lateStarts + 1 else s.lateStarts } := by
  simp only [kernel] at answered
  split at answered
  · cases answered
    rfl
  · cases answered

theorem inner_done {o : Op} {a : o.Ans} (inner : o.Inner) (answered : kernel t e o s = .done a s') :
    Inside s s' := by
  have inside := kernel_inner (t := t) (e := e) inner s
  rwa [answered] at inside

end Answers

/-- The calls of a writer: inner calls that neither read nor report a counter. -/
def Op.Writes : Op → Prop
  | .perfEventReadValue _ | .report .. => False
  | o => o.Inner

theorem writes_inner (o : Op) (writes : o.Writes) : o.Inner := by
  cases o <;> first | exact writes.elim | exact writes

/-- The calls of `init_perf_counters`. -/
def Op.Creates : Op → Prop
  | .kzalloc | .kfree _ | .loadEvent .. | .storeEvent .. | .storePrev .. | .getCpu | .putCpu
  | .perfEventCreateKernelCounter .. | .perfEventReleaseKernel _ => True
  | _ => False

/-- The calls of `start_monitoring`. -/
def Op.Starts : Op → Prop
  | .pidTask _ | .monitoredTask | .setMonitoredTask _ | .getTaskStruct _ | .perfData
  | .setPerfData _ | .sampleInterval | .setSampleInterval _ | .hrtimerInit | .setTimerFunction
  | .hrtimerStart _ => True
  | o => o.Creates

theorem creates_starts (o : Op) (creates : o.Creates) : o.Starts := by
  cases o <;> first | exact creates.elim | trivial

theorem starts_writes (o : Op) (starts : o.Starts) : o.Writes := by
  cases o <;> first | exact starts.elim | trivial

/-! ## The code of the module makes inner calls -/

theorem releaseBefore_creates (p : Ptr) (i : Nat) : (releaseBefore p i).Only Op.Creates := by
  induction i with
  | zero => trivial
  | succ i ih => simpa [releaseBefore, Op.Creates] using fun _ => ih

theorem createCounters_creates (p : Ptr) (cpu : Int) (codes : List (BitVec 32)) (i : Nat) :
    (createCounters p cpu codes i).Only Op.Creates := by
  induction codes generalizing i with
  | nil => exact ⟨trivial, fun _ => trivial⟩
  | cons code codes ih =>
      simp only [createCounters, perfEventCreateKernelCounter, storeEvent, call, Prog.call_bind,
        Prog.ret_bind, Prog.only_call]
      refine ⟨trivial, fun ev => ⟨trivial, ?_⟩⟩
      intro _
      cases ev with
      | err code =>
          apply Prog.only_bind (releaseBefore_creates p i)
          intro _
          exact ⟨trivial, fun _ => ⟨trivial, fun _ => trivial⟩⟩
      | null => exact ⟨trivial, fun _ => ih (i + 1)⟩
      | ptr ev => exact ⟨trivial, fun _ => ih (i + 1)⟩

theorem initPerfCounters_creates (codes : List (BitVec 32)) (pid : Int) :
    (initPerfCounters codes pid).Only Op.Creates := by
  simp only [initPerfCounters, kzalloc, call, Prog.call_bind, Prog.ret_bind, Prog.only_call]
  refine ⟨trivial, ?_⟩
  intro p
  cases p with
  | none => trivial
  | some p => exact ⟨trivial, fun cpu => createCounters_creates p cpu codes 0⟩

theorem startMonitoring_starts (codes : List (BitVec 32)) (pid : Int) :
    (startMonitoring codes pid).Only Op.Starts := by
  simp only [startMonitoring, pidTask, setMonitoredTask, getMonitoredTask, call, Prog.call_bind,
    Prog.ret_bind, Prog.only_call]
  refine ⟨trivial, fun _ => ⟨trivial, fun _ => ⟨trivial, ?_⟩⟩⟩
  intro task
  cases task with
  | none => trivial
  | some task =>
      simp only [getTaskStruct, call, Prog.call_bind, Prog.ret_bind, Prog.only_call]
      refine ⟨trivial, fun _ => ⟨trivial, ?_⟩⟩
      intro _
      apply Prog.only_bind ((initPerfCounters_creates codes pid).mono creates_starts)
      intro made
      simp only [setPerfData, getPerfData, call, Prog.call_bind, Prog.ret_bind, Prog.only_call]
      refine ⟨trivial, fun _ => ⟨trivial, ?_⟩⟩
      intro p
      cases p with
      | none => trivial
      | some p => simp [Op.Starts]

theorem pidWrite_writes (count : Nat) : (pidWrite count).Only Op.Writes := by
  rw [Modules.pidWrite_monitors]
  refine Modules.storePid_only count trivial (fun _ => trivial) ?_
  exact ⟨trivial, fun stored => (startMonitoring_starts eventCodes stored).mono starts_writes⟩

theorem pidWrite_inner (count : Nat) : (pidWrite count).Only Op.Inner :=
  (pidWrite_writes count).mono writes_inner

/-- The calls of `cleanup_perf_counters`. -/
def Op.Clears : Op → Prop
  | .loadEvent .. | .perfEventReleaseKernel _ | .kfree _ => True
  | _ => False

theorem clears_inner (o : Op) (clears : o.Clears) : o.Inner := by
  cases o <;> first | exact clears.elim | trivial

theorem releaseCounters_clears (p : Ptr) (slots : List Nat) :
    (releaseCounters p slots).Only Op.Clears := by
  induction slots with
  | nil => trivial
  | cons i rest ih =>
      simp only [releaseCounters, loadEvent, call, Prog.call_bind, Prog.ret_bind, Prog.only_call]
      refine ⟨trivial, ?_⟩
      intro ev
      split
      · exact ⟨trivial, fun _ => ih⟩
      · exact ih

theorem cleanupPerfCounters_clears (codes : List (BitVec 32)) (perfData : Option Ptr) :
    (cleanupPerfCounters codes perfData).Only Op.Clears := by
  cases perfData with
  | none => trivial
  | some p =>
      apply Prog.only_bind (releaseCounters_clears p _)
      intro _
      exact ⟨trivial, fun _ => trivial⟩

/-- The calls of the probe and of the message file. -/
def Op.Shows : Op → Prop
  | .currentPid | .targetPid | .spinLock | .spinUnlock | .message | .setMessage _
  | .copyToUser _ => True
  | _ => False

theorem shows_inner (o : Op) (shows : o.Shows) : o.Inner := by
  cases o <;> first | exact shows.elim | trivial

theorem helloSwitch_shows : helloSwitch.Only Op.Shows := by
  simp only [helloSwitch, currentPid, getTargetPid, call, Prog.call_bind, Prog.ret_bind,
    Prog.only_call]
  refine ⟨trivial, fun pid => ⟨trivial, ?_⟩⟩
  intro target
  split
  · simp [Op.Shows]
  · trivial

theorem helloSwitch_inner : helloSwitch.Only Op.Inner := helloSwitch_shows.mono shows_inner

theorem messageRead_shows (count : Nat) (ppos : Int) : (messageRead count ppos).Only Op.Shows := by
  simp only [messageRead, spinLock, getMessage, call, Prog.call_bind, Prog.ret_bind,
    Prog.only_call]
  refine ⟨trivial, fun _ => ⟨trivial, fun text => Prog.only_bind ?_ fun _ => ?_⟩⟩
  · unfold simpleReadFromBuffer
    split
    · trivial
    · split
      · trivial
      · simp only [copyToUser, call, Prog.call_bind, Prog.ret_bind, Prog.only_call]
        refine ⟨trivial, ?_⟩
        intro ret
        split <;> trivial
  · exact ⟨trivial, fun _ => trivial⟩

theorem messageRead_inner (count : Nat) (ppos : Int) : (messageRead count ppos).Only Op.Inner :=
  (messageRead_shows count ppos).mono shows_inner

/-! ## The timer's callback leaves the holdings alone -/

/-- The calls of `sample_perf_counters`. -/
def Op.Samples : Op → Prop
  | .monitoredTask | .pidAlive _ | .taskPc _ | .perfData | .loadEvent .. | .loadPrev ..
  | .storePrev .. | .perfEventReadValue _ | .report .. | .sampleInterval
  | .hrtimerForwardNow _ => True
  | _ => False

/-- The calls that read the counters. -/
def Op.Counts : Op → Prop
  | .perfData | .loadEvent .. | .loadPrev .. | .storePrev .. | .perfEventReadValue _
  | .report .. => True
  | _ => False

theorem counts_samples (o : Op) (counts : o.Counts) : o.Samples := by
  cases o <;> first | exact counts.elim | trivial

theorem sampleCounters_counts (codes : List (BitVec 32)) (i : Nat) :
    (sampleCounters codes i).Only Op.Counts := by
  induction codes generalizing i with
  | nil => trivial
  | cons code codes ih => simpa [sampleCounters, Op.Counts] using fun _ _ => ih (i + 1)

theorem samplePerfCounters_samples (codes : List (BitVec 32)) :
    (samplePerfCounters codes).Only Op.Samples := by
  simp only [samplePerfCounters, getMonitoredTask, call, Prog.call_bind, Prog.ret_bind,
    Prog.only_call]
  refine ⟨trivial, ?_⟩
  intro task
  cases task with
  | none => trivial
  | some task =>
      simp only [pidAlive, taskPc, call, Prog.call_bind, Prog.ret_bind, Prog.only_call]
      refine ⟨trivial, fun again => ⟨trivial, ?_⟩⟩
      intro alive
      split
      · refine ⟨trivial, fun _ => ⟨trivial, ?_⟩⟩
        intro _
        apply Prog.only_bind ((sampleCounters_counts codes 0).mono counts_samples)
        intro _
        exact ⟨trivial, fun _ => ⟨trivial, fun _ => trivial⟩⟩
      · trivial

theorem samples_inner (o : Op) (samples : o.Samples) : o.Inner := by
  cases o <;> first | exact samples.elim | trivial

/-- The calls of a timer interrupt. -/
def Op.Observes : Op → Prop
  | .timerExpires | .callbackReturns _ => True
  | o => o.Samples

theorem samples_observes (o : Op) (samples : o.Samples) : o.Observes := by
  cases o <;> first | exact samples.elim | trivial

theorem timerInterrupt_observes : timerInterrupt.Only Op.Observes := by
  simp only [timerInterrupt, timerExpires, call, Prog.call_bind, Prog.ret_bind, Prog.only_call]
  refine ⟨trivial, fun _ => Prog.only_bind ?_ fun _ => ?_⟩
  · exact (samplePerfCounters_samples eventCodes).mono samples_observes
  · exact ⟨trivial, fun _ => trivial⟩

theorem kernel_observes {t : Tid} {e : Env} {o : Op} (observes : o.Observes) {h : Holdings}
    {s : State} (same : s.holdings = h) : (kernel t e o s).state.holdings = h := by
  cases o with
  | pidAlive task => exact onTask_state (I := fun s => s.holdings = h) same task fun _ => same
  | taskPc task => exact onTask_state (I := fun s => s.holdings = h) same task fun _ => same
  | loadEvent p i => exact onBuffer_state (I := fun s => s.holdings = h) same p fun _ _ => same
  | loadPrev p i => exact onBuffer_state (I := fun s => s.holdings = h) same p fun _ _ => same
  | storePrev p i v => exact onBuffer_state (I := fun s => s.holdings = h) same p fun _ _ => same
  | perfEventReadValue ev =>
      exact onEvent_state (I := fun s => s.holdings = h) same ev fun _ => same
  | timerExpires | callbackReturns restart =>
      simp only [kernel]
      split <;> exact same
  | monitoredTask | perfData | report _ _ _ | sampleInterval | hrtimerForwardNow _ => exact same
  | _ => exact observes.elim

/-- A firing of the timer, whatever becomes of it, leaves the holdings as they are. -/
theorem timerInterrupt_holdings (t : Tid) (e : Env) (s : State) :
    (timerInterrupt.exec (kernel t e) s).state.holdings = s.holdings :=
  timerInterrupt_observes.exec_invariant (I := fun s' : State => s'.holdings = s.holdings)
    (fun _ observes _ same => kernel_observes observes same) rfl

end Dreamscape.MonitorV2
