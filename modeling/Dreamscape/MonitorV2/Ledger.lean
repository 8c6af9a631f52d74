/-
# MonitorV2.Ledger -- what the module holds, call by call

`ledger t e` follows the holdings through the calls of one invocation.  What the
module does between two of its calls is invisible to its holdings, so the invariant
`Sound` holds whenever another part of the machine can look at them: `perf_data` is
null or points to a full buffer of live events, made by the call that assigned it, and
it is null only if that call was refused something.

The entries of the protocol are simp lemmas, and `kernel_ledger` says that the kernel
keeps to them.
-/
import Dreamscape.MonitorV2.Handlers
import Dreamscape.Theory.Protocol

namespace Dreamscape.MonitorV2

set_option autoImplicit false

open Theory Kernel

/-! ## Soundness -/

/-- Slots that hold the events `evs`, in order. -/
def Slots (slots : Nat → EventPtr) (evs : List PerfEvent) : Prop :=
  ∀ i ev, evs[i]? = some ev → slots i = .ptr ev

/-- The buffer holds `numEvents` live events and was allocated by thread `t`. -/
def Holdings.Complete (h : Holdings) (p : Ptr) (t : Tid) : Prop :=
  ∃ buf evs, h.buffers p = some buf ∧ buf.maker = t ∧ Slots buf.events evs ∧
    evs.length = numEvents ∧ evs.Nodup ∧ ∀ ev ∈ evs, ev ∈ h.created ∧ ev ∉ h.released

/-- Thread `t` has not asked for anything yet. -/
structure Holdings.Fresh (h : Holdings) (t : Tid) : Prop where
  unasked : h.creations t = 0
  unrefused : t ∉ h.refused
  unassigned : h.dataSetter ≠ some t

structure Holdings.Sound (h : Holdings) : Prop where
  published : ∀ p, h.perfData = some p →
    p < h.nextPtr ∧ ∃ t, h.dataSetter = some t ∧ t ∉ h.refused ∧ h.Complete p t
  assigned : ∀ t, h.dataSetter = some t → t ∉ h.refused → h.perfData ≠ none
  created : ∀ ev ∈ h.created, ev.id < h.nextEvent
  released : ∀ ev ∈ h.released, ev.id < h.nextEvent

theorem sound_initial : Holdings.initial.Sound := by
  constructor
  · intro p published
    cases published
  · intro t setter
    cases setter
  · intro ev inside
    cases inside
  · intro ev inside
    cases inside

theorem fresh_initial (t : Tid) : Holdings.initial.Fresh t :=
  ⟨rfl, List.not_mem_nil, nofun⟩

/-! ## The protocol -/

def ledger (t : Tid) (e : Env) : Protocol sig Holdings where
  allowed _ h := h.Sound
  possible o a h :=
    match o, a with
    | .copyFromUser n, copied => copied = if e.copyFails then none else some (e.userBuf.take n)
    | .targetPid, pid => pid = h.targetPid
    | .pidTask pid, task => task = e.findTask pid
    | .monitoredTask, task => task = h.monitoredTask
    | .perfData, p => p = h.perfData
    | .kzalloc, p => p = if e.kzallocFails then none else some h.nextPtr
    | .loadEvent p i, ev => ∃ q buf, p = some q ∧ h.buffers q = some buf ∧ ev = buf.events i
    | .getCpu, cpu => cpu = e.cpu
    | .perfEventCreateKernelCounter attr cpu task, ev =>
        ev = match e.create (h.creations t) attr cpu task with
          | some code => .err code
          | none => .ptr ⟨h.nextEvent, attr, cpu, task⟩
    | _, _ => True
  next o a h :=
    match o, a with
    | .setTargetPid pid, _ => { h with targetPid := pid }
    | .setMonitoredTask task, _ => h.watch t task
    | .getTaskStruct (some task), _ => h.get task
    | .putTaskStruct (some task), _ => h.put task
    | .setPerfData p, _ => h.publish t p
    | .kzalloc, some _ => h.allocate t
    | .kzalloc, none => h.refuse t
    | .kfree p, _ => h.free p
    | .storeEvent (some p) i ev, _ =>
        match h.buffers p with
        | some buf => h.setBuffer p (some ⟨buf.maker, Function.update buf.events i ev⟩)
        | none => h
    | .perfEventCreateKernelCounter .., .ptr ev => (h.ask t).make ev
    | .perfEventCreateKernelCounter .., _ => (h.ask t).refuse t
    | .perfEventReleaseKernel (.ptr ev), _ => h.release ev
    | .hrtimerInit, _ => { h with timerInitialised := true }
    | _, _ => h

section Entries

variable (t : Tid) (e : Env) (h : Holdings)

@[simp] theorem ledger_allowed (o : Op) : (ledger t e).allowed o h = h.Sound := rfl

@[simp] theorem ledger_setTargetPid (pid : Int) (a : Unit) :
    (ledger t e).next (.setTargetPid pid) a h = { h with targetPid := pid } := rfl

@[simp] theorem ledger_setMonitoredTask (task : Option Task) (a : Unit) :
    (ledger t e).next (.setMonitoredTask task) a h = h.watch t task := rfl

@[simp] theorem ledger_getTaskStruct (task : Task) (a : Unit) :
    (ledger t e).next (.getTaskStruct (some task)) a h = h.get task := rfl

@[simp] theorem ledger_setPerfData (p : Option Ptr) (a : Unit) :
    (ledger t e).next (.setPerfData p) a h = h.publish t p := rfl

@[simp] theorem ledger_kzalloc_none : (ledger t e).next .kzalloc none h = h.refuse t := rfl

@[simp] theorem ledger_kzalloc_some (p : Ptr) :
    (ledger t e).next .kzalloc (some p) h = h.allocate t := rfl

@[simp] theorem ledger_kfree (p : Ptr) (a : Unit) : (ledger t e).next (.kfree p) a h = h.free p :=
  rfl

theorem ledger_storeEvent {p : Ptr} {buf : Buffer} (at_p : h.buffers p = some buf) (i : Nat)
    (ev : EventPtr) (a : Unit) :
    (ledger t e).next (.storeEvent (some p) i ev) a h =
      h.setBuffer p (some ⟨buf.maker, Function.update buf.events i ev⟩) := by
  simp [ledger, at_p]

@[simp] theorem ledger_create_err (attr : PerfEventAttr) (cpu : Int) (task : Option Nat)
    (code : Int) :
    (ledger t e).next (.perfEventCreateKernelCounter attr cpu task) (.err code) h =
      (h.ask t).refuse t := rfl

@[simp] theorem ledger_create_ptr (attr : PerfEventAttr) (cpu : Int) (task : Option Nat)
    (ev : PerfEvent) :
    (ledger t e).next (.perfEventCreateKernelCounter attr cpu task) (.ptr ev) h =
      (h.ask t).make ev := rfl

@[simp] theorem ledger_release (ev : PerfEvent) (a : Unit) :
    (ledger t e).next (.perfEventReleaseKernel (.ptr ev)) a h = h.release ev := rfl

@[simp] theorem ledger_hrtimerInit (a : Unit) :
    (ledger t e).next .hrtimerInit a h = { h with timerInitialised := true } := rfl

/-- The answer to a creation, by its number. -/
theorem ledger_created {attr : PerfEventAttr} {cpu : Int} {task : Option Nat} {ev : EventPtr}
    (made : (ledger t e).possible (.perfEventCreateKernelCounter attr cpu task) ev h) :
    (∃ code, e.create (h.creations t) attr cpu task = some code ∧ ev = .err code) ∨
      e.create (h.creations t) attr cpu task = none ∧
        ev = .ptr ⟨h.nextEvent, attr, cpu, task⟩ := by
  cases answer : e.create (h.creations t) attr cpu task with
  | some code => exact Or.inl ⟨code, rfl, by simpa [ledger, answer] using made⟩
  | none => exact Or.inr ⟨rfl, by simpa [ledger, answer] using made⟩

end Entries

section Tracking

variable {t : Tid} {e : Env} {s s' : State}

theorem onBuffer_done {α : Type} {a : α} {p : Option Ptr} {f : Ptr → Buffer → Answer α}
    (answered : s.onBuffer p f = .done a s') :
    ∃ q buf, p = some q ∧ s.holdings.buffers q = some buf ∧ f q buf = .done a s' := by
  unfold State.onBuffer at answered
  split at answered
  · cases answered
  · split at answered
    · cases answered
    · exact ⟨_, _, rfl, ‹_›, answered⟩

theorem onTask_done {α : Type} {a : α} {task : Option Task} {f : Task → Answer α}
    (answered : s.onTask task f = .done a s') : ∃ found, task = some found ∧ f found = .done a s' := by
  unfold State.onTask at answered
  split at answered
  · cases answered
  · exact ⟨_, rfl, answered⟩

theorem onEvent_done {α : Type} {a : α} {ev : EventPtr} {f : PerfEvent → Answer α}
    (answered : s.onEvent ev f = .done a s') :
    ∃ found, ev = .ptr found ∧ found ∉ s.holdings.released ∧ f found = .done a s' := by
  unfold State.onEvent at answered
  split at answered
  · cases answered
  · cases answered
  · split at answered
    · cases answered
    · exact ⟨_, rfl, ‹_›, answered⟩

/-- An answered call moves the holdings along the ledger. -/
theorem kernel_ledger {o : Op} {a : o.Ans} (answered : kernel t e o s = .done a s') :
    (ledger t e).possible o a s.holdings ∧ s'.holdings = (ledger t e).next o a s.holdings := by
  cases o with
  | getTaskStruct task =>
      obtain ⟨found, rfl, got⟩ := onTask_done answered
      cases got
      exact ⟨trivial, rfl⟩
  | putTaskStruct task =>
      obtain ⟨found, rfl, given⟩ := onTask_done answered
      split at given
      · cases given
        exact ⟨trivial, rfl⟩
      · cases given
  | pidAlive task =>
      obtain ⟨found, rfl, read⟩ := onTask_done answered
      cases read
      exact ⟨trivial, rfl⟩
  | taskPc task =>
      obtain ⟨found, rfl, read⟩ := onTask_done answered
      cases read
      exact ⟨trivial, rfl⟩
  | kzalloc =>
      simp only [kernel] at answered
      split at answered
      · rename_i fails
        cases answered
        exact ⟨by simp [ledger, fails], rfl⟩
      · rename_i succeeds
        cases answered
        exact ⟨by simp [ledger, succeeds], rfl⟩
  | kfree p =>
      simp only [kernel] at answered
      obtain ⟨q, buf, same, -, freed⟩ := onBuffer_done answered
      cases same
      cases freed
      exact ⟨trivial, rfl⟩
  | loadEvent p i =>
      obtain ⟨q, buf, same, at_q, loaded⟩ := onBuffer_done answered
      cases loaded
      exact ⟨⟨q, buf, same, at_q, rfl⟩, rfl⟩
  | storeEvent p i ev =>
      obtain ⟨q, buf, rfl, at_q, stored⟩ := onBuffer_done answered
      cases stored
      exact ⟨trivial, by simp [ledger, State.holding, at_q]⟩
  | loadPrev p i =>
      obtain ⟨q, buf, same, -, loaded⟩ := onBuffer_done answered
      cases loaded
      exact ⟨trivial, rfl⟩
  | storePrev p i v =>
      obtain ⟨q, buf, same, -, stored⟩ := onBuffer_done answered
      cases stored
      exact ⟨trivial, rfl⟩
  | perfEventCreateKernelCounter attr cpu task =>
      simp only [kernel] at answered
      split at answered
      · rename_i refused
        cases answered
        exact ⟨by simp [ledger, refused], rfl⟩
      · rename_i granted
        cases answered
        exact ⟨by simp [ledger, granted], rfl⟩
  | perfEventReleaseKernel ev =>
      obtain ⟨found, rfl, -, released⟩ := onEvent_done answered
      cases released
      exact ⟨trivial, rfl⟩
  | perfEventReadValue ev =>
      obtain ⟨found, rfl, -, read⟩ := onEvent_done answered
      cases read
      exact ⟨trivial, rfl⟩
  | hrtimerStart ns | spinLock | timerExpires | callbackReturns restart | leave g | drain g =>
      simp only [kernel] at answered
      split at answered
      · cases answered
        exact ⟨trivial, rfl⟩
      · cases answered
  | hrtimerCancel =>
      simp only [kernel] at answered
      split at answered
      · split at answered
        · cases answered
          exact ⟨trivial, rfl⟩
        · cases answered
      · cases answered
  | enter g =>
      simp only [kernel] at answered
      split at answered <;> cases answered <;> exact ⟨trivial, rfl⟩
  | copyFromUser _ | targetPid | pidTask _ | monitoredTask | perfData | getCpu =>
      cases answered
      exact ⟨rfl, rfl⟩
  | copyToUser _ | currentPid | setTargetPid _ | setMonitoredTask _ | setPerfData _ | putCpu
    | report _ _ _ | sampleInterval | setSampleInterval _ | hrtimerInit | setTimerFunction
    | hrtimerForwardNow _ | spinUnlock | message | setMessage _ | unlist _ =>
      cases answered
      exact ⟨trivial, rfl⟩

theorem ledger_tracks (t : Tid) (e : Env) :
    Tracks (ledger t e) (kernel t e) (fun _ => True) State.holdings where
  keeps _ _ := trivial
  possible _ answered := (kernel_ledger answered).1
  next _ answered := (kernel_ledger answered).2

end Tracking

end Dreamscape.MonitorV2
