/-
# MonitorV2.Calls -- the kernel under cache_kprobe_monitor_v2

The state the module shares with the kernel and the calls its code makes, as in
`Monitor.Calls`: one for each access to shared state and one for each call of a
kernel function.

`Holdings` is what the module holds of the kernel: its globals, the buffers and
events it was given, the task references it took.  Only the module's own calls
change it.  Beside it are the things the rest of the machine changes as well: the
timer, which tasks are alive, what the hardware has generated (`log`, with the place in
it where each event was created), the values last sampled, the gates through which the
kernel enters the module.

`hrtimer_init` zeroes the timer without a look at it.  One that is queued stays in the
tree the kernel keeps its timers in, but no longer says so, and one whose callback runs no
longer says that either: from then on the timer is `clobbered`, it still fires, and
`hrtimer_cancel` neither takes it out of the tree nor waits for the callback.

The logs, `maker`, `refused`, `taskSetter`, `dataSetter`, `cancelled` and `lateStarts` are
history and no call answers from them, except that the kernel counts references.
-/
import Dreamscape.Theory.Program
import Dreamscape.Kernel.Text
import Dreamscape.Kernel.Perf
import Mathlib.Logic.Function.Basic

namespace Dreamscape.MonitorV2

set_option autoImplicit false

open Theory Kernel

abbrev U64 := BitVec 64
abbrev Ptr := Nat
abbrev Tid := Nat

/-- The address of a `struct task_struct`. -/
abbrev Task := Nat

/-- `NUM_EVENTS` -/
abbrev numEvents : Nat := 13

/-! ## State -/

/-- A `struct perf_event *`: null, an error pointer, or an event. -/
inductive EventPtr where
  | null
  | err (code : Int)
  | ptr (ev : PerfEvent)
  deriving DecidableEq

/-- The `events` of a `struct perf_counter_data`, and the call that allocated it. -/
structure Buffer where
  maker : Tid
  events : Nat → EventPtr

structure Holdings where
  targetPid : Int
  monitoredTask : Option Task
  perfData : Option Ptr
  buffers : Ptr → Option Buffer
  nextPtr : Ptr
  nextEvent : Nat
  creations : Tid → Nat
  refused : List Tid
  created : List PerfEvent
  released : List PerfEvent
  freed : List Ptr
  gets : List Task
  puts : List Task
  timerInitialised : Bool
  taskSetter : Option Tid
  dataSetter : Option Tid

def Holdings.initial : Holdings where
  targetPid := -1
  monitoredTask := none
  perfData := none
  buffers := fun _ => none
  nextPtr := 0
  nextEvent := 0
  creations := fun _ => 0
  refused := []
  created := []
  released := []
  freed := []
  gets := []
  puts := []
  timerInitialised := false
  taskSetter := none
  dataSetter := none

namespace Holdings

variable (h : Holdings) (t : Tid)

/-- Thread `t` sets `monitored_task`. -/
def watch (task : Option Task) : Holdings := { h with monitoredTask := task, taskSetter := some t }

/-- Thread `t` sets `perf_data`. -/
def publish (p : Option Ptr) : Holdings := { h with perfData := p, dataSetter := some t }

def get (task : Task) : Holdings := { h with gets := h.gets ++ [task] }

def put (task : Task) : Holdings := { h with puts := h.puts ++ [task] }

def setBuffer (p : Ptr) (buf : Option Buffer) : Holdings :=
  { h with buffers := Function.update h.buffers p buf }

/-- A fresh block of zeros is a buffer of null pointers. -/
def allocate : Holdings :=
  { h.setBuffer h.nextPtr (some ⟨t, fun _ => .null⟩) with nextPtr := h.nextPtr + 1 }

def free (p : Ptr) : Holdings := { h.setBuffer p none with freed := h.freed ++ [p] }

/-- Thread `t` has asked for one more event. -/
def ask : Holdings := { h with creations := Function.update h.creations t (h.creations t + 1) }

/-- Thread `t` did not get the memory or the event it asked for. -/
def refuse : Holdings := { h with refused := t :: h.refused }

def make (ev : PerfEvent) : Holdings :=
  { h with nextEvent := h.nextEvent + 1, created := h.created ++ [ev] }

def release (ev : PerfEvent) : Holdings := { h with released := h.released ++ [ev] }

end Holdings

/-- A way into the module: a proc entry or the probe. -/
inductive Gate where
  | pidEntry
  | messageEntry
  | probe
  deriving DecidableEq

/-- Who is inside, and whether others may enter. -/
structure Entrance where
  registered : Bool
  inside : List Tid

structure State where
  holdings : Holdings
  prevValues : Ptr → Nat → U64
  sampleInterval : Nat
  enqueued : Bool
  running : Option Tid
  clobbered : Bool
  alive : Task → Bool
  log : List Occurrence
  births : Nat → Nat
  reports : List (BitVec 32 × U64 × U64)
  preemptCount : Tid → Nat
  messageBuffer : List Char
  bufferLock : Option Tid
  entrance : Gate → Entrance
  cancelled : Bool
  lateStarts : Nat

/-- The state after a successful load. -/
def State.initial : State where
  holdings := .initial
  prevValues := fun _ _ => 0
  sampleInterval := 0
  enqueued := false
  running := none
  clobbered := false
  alive := fun _ => true
  log := []
  births := fun _ => 0
  reports := []
  preemptCount := fun _ => 0
  messageBuffer := []
  bufferLock := none
  entrance := fun _ => ⟨true, []⟩
  cancelled := false
  lateStarts := 0

/-- What one entry into the module meets.  `create` answers the invocation's creations
by their number, `uncopied` is how much of a text `copy_to_user` leaves uncopied. -/
structure Env where
  userBuf : List Char
  copyFails : Bool
  uncopied : Nat → Nat
  findTask : Int → Option Task
  kzallocFails : Bool
  cpu : Nat
  create : Nat → PerfEventAttr → Int → Option Nat → Option Int
  programCounter : Task → U64
  currentPid : Nat

/-- An entry with an empty write in which nothing fails, on CPU 0. -/
def Env.quiet : Env where
  userBuf := []
  copyFails := false
  uncopied := fun _ => 0
  findTask := fun pid => some pid.toNat
  kzallocFails := false
  cpu := 0
  create := fun _ _ _ _ => none
  programCounter := fun _ => 0
  currentPid := 0

def Env.echo (text : List Char) : Env := { Env.quiet with userBuf := text }

/-! ## Calls -/

inductive Fault where
  | nullDereference
  | badPointer
  | useAfterFree
  | unheldReference
  | uninitialisedTimer
  | notInside
  deriving DecidableEq

inductive Op where
  | copyFromUser (n : Nat)
  | copyToUser (text : List Char)
  | currentPid
  | targetPid
  | setTargetPid (pid : Int)
  | pidTask (pid : Int)
  | monitoredTask
  | setMonitoredTask (task : Option Task)
  | getTaskStruct (task : Option Task)
  | putTaskStruct (task : Option Task)
  | pidAlive (task : Option Task)
  | taskPc (task : Option Task)
  | perfData
  | setPerfData (p : Option Ptr)
  | kzalloc
  | kfree (p : Ptr)
  | loadEvent (p : Option Ptr) (i : Nat)
  | storeEvent (p : Option Ptr) (i : Nat) (ev : EventPtr)
  | loadPrev (p : Option Ptr) (i : Nat)
  | storePrev (p : Option Ptr) (i : Nat) (v : U64)
  | getCpu
  | putCpu
  | perfEventCreateKernelCounter (attr : PerfEventAttr) (cpu : Int) (task : Option Nat)
  | perfEventReleaseKernel (ev : EventPtr)
  | perfEventReadValue (ev : EventPtr)
  | report (code : BitVec 32) (value delta : U64)
  | sampleInterval
  | setSampleInterval (ns : Nat)
  | hrtimerInit
  | setTimerFunction
  | hrtimerStart (ns : Nat)
  | hrtimerCancel
  | hrtimerForwardNow (ns : Nat)
  | spinLock
  | spinUnlock
  | message
  | setMessage (text : List Char)
  | timerExpires
  | callbackReturns (restart : Bool)
  | enter (g : Gate)
  | leave (g : Gate)
  | unlist (g : Gate)
  | drain (g : Gate)

@[reducible] def Op.Ans : Op → Type
  | .copyFromUser _ => Option (List Char)
  | .copyToUser _ => Nat
  | .currentPid => Nat
  | .targetPid => Int
  | .pidTask _ | .monitoredTask => Option Task
  | .pidAlive _ => Bool
  | .taskPc _ => U64
  | .perfData | .kzalloc => Option Ptr
  | .loadEvent .. => EventPtr
  | .loadPrev .. => U64
  | .getCpu => Nat
  | .perfEventCreateKernelCounter .. => EventPtr
  | .perfEventReadValue _ => U64
  | .sampleInterval => Nat
  | .message => List Char
  | .enter _ => Bool
  | .setTargetPid _ | .setMonitoredTask _ | .getTaskStruct _ | .putTaskStruct _ | .setPerfData _
  | .kfree _ | .storeEvent .. | .storePrev .. | .putCpu | .perfEventReleaseKernel _ | .report ..
  | .setSampleInterval _ | .hrtimerInit | .setTimerFunction | .hrtimerStart _ | .hrtimerCancel
  | .hrtimerForwardNow _ | .spinLock | .spinUnlock | .setMessage _ | .timerExpires
  | .callbackReturns _ | .leave _ | .unlist _ | .drain _ => Unit

abbrev sig : Sig := ⟨Op, Op.Ans⟩

/-! ## The kernel -/

abbrev Answer (α : Type) := Outcome Fault State α

def State.holding (s : State) (h : Holdings) : State := { s with holdings := h }

/-- Use the buffer behind a pointer. -/
def State.onBuffer {α : Type} (s : State) (p : Option Ptr) (f : Ptr → Buffer → Answer α) :
    Answer α :=
  match p with
  | none => .fault .nullDereference s
  | some q =>
      match s.holdings.buffers q with
      | none => .fault .badPointer s
      | some buf => f q buf

/-- Use the task behind a pointer. -/
def State.onTask {α : Type} (s : State) (task : Option Task) (f : Task → Answer α) : Answer α :=
  match task with
  | none => .fault .nullDereference s
  | some t => f t

/-- Use the event behind a pointer. -/
def State.onEvent {α : Type} (s : State) (ev : EventPtr) (f : PerfEvent → Answer α) : Answer α :=
  match ev with
  | .null => .fault .nullDereference s
  | .err _ => .fault .badPointer s
  | .ptr ev => if ev ∈ s.holdings.released then .fault .useAfterFree s else f ev

/-- What the hardware has generated since the event was created. -/
def State.since (s : State) (ev : PerfEvent) : List Occurrence := s.log.drop (s.births ev.id)

def State.atGate (s : State) (g : Gate) (e : Entrance) : State :=
  { s with entrance := Function.update s.entrance g e }

/-- The task dies. -/
def State.bury (s : State) (task : Task) : State :=
  { s with alive := Function.update s.alive task false }

/-- `hrtimer_init` does not take the timer out of the queue it zeroes it in. -/
def State.initTimer (s : State) : State :=
  { s with
    holdings := { s.holdings with timerInitialised := true }
    clobbered := s.clobbered || s.enqueued || s.running.isSome }

/-- `hrtimer_cancel` takes the timer out of the queue unless it is clobbered. -/
def State.cancel (s : State) : State :=
  { s with enqueued := s.enqueued && s.clobbered, cancelled := true }

@[simp] theorem cancel_holdings (s : State) : s.cancel.holdings = s.holdings := rfl
@[simp] theorem cancel_running (s : State) : s.cancel.running = s.running := rfl
@[simp] theorem cancel_cancelled (s : State) : s.cancel.cancelled = true := rfl

/-- How the kernel answers thread `t` running with environment `e`. -/
def kernel (t : Tid) (e : Env) : Handler sig Fault State
  | .copyFromUser n, s => .done (if e.copyFails then none else some (e.userBuf.take n)) s
  | .copyToUser text, s => .done (e.uncopied text.length) s
  | .currentPid, s => .done e.currentPid s
  | .targetPid, s => .done s.holdings.targetPid s
  | .setTargetPid pid, s => .done () (s.holding { s.holdings with targetPid := pid })
  | .pidTask pid, s => .done (e.findTask pid) s
  | .monitoredTask, s => .done s.holdings.monitoredTask s
  | .setMonitoredTask task, s =>
      .done () (s.holding (s.holdings.watch t task))
  | .getTaskStruct task, s =>
      s.onTask task fun task => .done () (s.holding (s.holdings.get task))
  | .putTaskStruct task, s =>
      s.onTask task fun task =>
        if s.holdings.puts.count task < s.holdings.gets.count task then
          .done () (s.holding (s.holdings.put task))
        else .fault .unheldReference s
  | .pidAlive task, s => s.onTask task fun task => .done (s.alive task) s
  | .taskPc task, s => s.onTask task fun task => .done (e.programCounter task) s
  | .perfData, s => .done s.holdings.perfData s
  | .setPerfData p, s => .done () (s.holding (s.holdings.publish t p))
  | .kzalloc, s =>
      if e.kzallocFails then .done none (s.holding (s.holdings.refuse t))
      else
        .done (some s.holdings.nextPtr)
          { s with
            holdings := s.holdings.allocate t
            prevValues := Function.update s.prevValues s.holdings.nextPtr fun _ => 0 }
  | .kfree p, s => s.onBuffer (some p) fun p _ => .done () (s.holding (s.holdings.free p))
  | .loadEvent p i, s => s.onBuffer p fun _ buf => .done (buf.events i) s
  | .storeEvent p i ev, s =>
      s.onBuffer p fun p buf =>
        .done () (s.holding
          (s.holdings.setBuffer p (some ⟨buf.maker, Function.update buf.events i ev⟩)))
  | .loadPrev p i, s => s.onBuffer p fun p _ => .done (s.prevValues p i) s
  | .storePrev p i v, s =>
      s.onBuffer p fun p _ =>
        .done ()
          { s with
            prevValues := Function.update s.prevValues p (Function.update (s.prevValues p) i v) }
  | .getCpu, s =>
      .done e.cpu { s with preemptCount := Function.update s.preemptCount t (s.preemptCount t + 1) }
  | .putCpu, s =>
      .done () { s with preemptCount := Function.update s.preemptCount t (s.preemptCount t - 1) }
  | .perfEventCreateKernelCounter attr cpu task, s =>
      let asked := s.holdings.ask t
      match e.create (s.holdings.creations t) attr cpu task with
      | some code => .done (.err code) (s.holding (asked.refuse t))
      | none =>
          let ev : PerfEvent := ⟨s.holdings.nextEvent, attr, cpu, task⟩
          .done (.ptr ev)
            { s.holding (asked.make ev) with births := Function.update s.births ev.id s.log.length }
  | .perfEventReleaseKernel ev, s =>
      s.onEvent ev fun ev => .done () (s.holding (s.holdings.release ev))
  | .perfEventReadValue ev, s => s.onEvent ev fun ev => .done (ev.counted (s.since ev)) s
  | .report code value delta, s =>
      .done () { s with reports := s.reports ++ [(code, value, delta)] }
  | .sampleInterval, s => .done s.sampleInterval s
  | .setSampleInterval ns, s => .done () { s with sampleInterval := ns }
  | .hrtimerInit, s => .done () s.initTimer
  | .setTimerFunction, s => .done () s
  | .hrtimerStart _, s =>
      if s.holdings.timerInitialised then
        .done ()
          { s with
            enqueued := true
            lateStarts := if s.cancelled then s.lateStarts + 1 else s.lateStarts }
      else .fault .uninitialisedTimer s
  | .hrtimerCancel, s =>
      if s.holdings.timerInitialised then
        if s.running = none ∨ s.clobbered = true then .done () s.cancel else .blocked s
      else .fault .uninitialisedTimer s
  | .hrtimerForwardNow _, s => .done () s
  | .spinLock, s =>
      if s.bufferLock = none then .done () { s with bufferLock := some t } else .blocked s
  | .spinUnlock, s => .done () { s with bufferLock := none }
  | .message, s => .done s.messageBuffer s
  | .setMessage text, s => .done () { s with messageBuffer := text }
  | .timerExpires, s =>
      if s.enqueued = true ∧ s.running = none then
        .done () { s with enqueued := false, running := some t }
      else .blocked s
  | .callbackReturns restart, s =>
      if s.running = some t then
        .done () { s with running := none, enqueued := s.enqueued || restart }
      else .fault .notInside s
  | .enter g, s =>
      if (s.entrance g).registered then
        .done true (s.atGate g { s.entrance g with inside := t :: (s.entrance g).inside })
      else .done false s
  | .leave g, s =>
      if t ∈ (s.entrance g).inside then
        .done () (s.atGate g { s.entrance g with inside := (s.entrance g).inside.erase t })
      else .fault .notInside s
  | .unlist g, s => .done () (s.atGate g { s.entrance g with registered := false })
  | .drain g, s => if (s.entrance g).inside = [] then .done () s else .blocked s

/-- Only a free lock is taken. -/
theorem spinLock_done {t : Tid} {e : Env} {s s' : State} {a : Unit}
    (answered : kernel t e .spinLock s = .done a s') :
    s.bufferLock = none ∧ s' = { s with bufferLock := some t } := by
  simp only [kernel] at answered
  split at answered
  · rename_i free
    cases answered
    exact ⟨free, rfl⟩
  · cases answered

/-! ## The calls as programs -/

abbrev Code (α : Type) := Prog sig α

@[simp] def call (o : Op) : Code o.Ans := .call (S := sig) o .ret

@[simp] def copyFromUser (n : Nat) : Code (Option (List Char)) := call (.copyFromUser n)
@[simp] def copyToUser (text : List Char) : Code Nat := call (.copyToUser text)
@[simp] def currentPid : Code Nat := call .currentPid
@[simp] def getTargetPid : Code Int := call .targetPid
@[simp] def setTargetPid (pid : Int) : Code Unit := call (.setTargetPid pid)
@[simp] def pidTask (pid : Int) : Code (Option Task) := call (.pidTask pid)
@[simp] def getMonitoredTask : Code (Option Task) := call .monitoredTask
@[simp] def setMonitoredTask (task : Option Task) : Code Unit := call (.setMonitoredTask task)
@[simp] def getTaskStruct (task : Option Task) : Code Unit := call (.getTaskStruct task)
@[simp] def putTaskStruct (task : Option Task) : Code Unit := call (.putTaskStruct task)
@[simp] def pidAlive (task : Option Task) : Code Bool := call (.pidAlive task)
@[simp] def taskPc (task : Option Task) : Code U64 := call (.taskPc task)
@[simp] def getPerfData : Code (Option Ptr) := call .perfData
@[simp] def setPerfData (p : Option Ptr) : Code Unit := call (.setPerfData p)
@[simp] def kzalloc : Code (Option Ptr) := call .kzalloc
@[simp] def kfree (p : Ptr) : Code Unit := call (.kfree p)
@[simp] def loadEvent (p : Option Ptr) (i : Nat) : Code EventPtr := call (.loadEvent p i)
@[simp] def storeEvent (p : Option Ptr) (i : Nat) (ev : EventPtr) : Code Unit :=
  call (.storeEvent p i ev)
@[simp] def loadPrev (p : Option Ptr) (i : Nat) : Code U64 := call (.loadPrev p i)
@[simp] def storePrev (p : Option Ptr) (i : Nat) (v : U64) : Code Unit := call (.storePrev p i v)
@[simp] def getCpu : Code Nat := call .getCpu
@[simp] def putCpu : Code Unit := call .putCpu
@[simp] def perfEventCreateKernelCounter (attr : PerfEventAttr) (cpu : Int) (task : Option Nat) :
    Code EventPtr := call (.perfEventCreateKernelCounter attr cpu task)
@[simp] def perfEventReleaseKernel (ev : EventPtr) : Code Unit := call (.perfEventReleaseKernel ev)
@[simp] def perfEventReadValue (ev : EventPtr) : Code U64 := call (.perfEventReadValue ev)
@[simp] def report (code : BitVec 32) (value delta : U64) : Code Unit :=
  call (.report code value delta)
@[simp] def getSampleInterval : Code Nat := call .sampleInterval
@[simp] def setSampleInterval (ns : Nat) : Code Unit := call (.setSampleInterval ns)
@[simp] def hrtimerInit : Code Unit := call .hrtimerInit
@[simp] def setTimerFunction : Code Unit := call .setTimerFunction
@[simp] def hrtimerStart (ns : Nat) : Code Unit := call (.hrtimerStart ns)
@[simp] def hrtimerCancel : Code Unit := call .hrtimerCancel
@[simp] def hrtimerForwardNow (ns : Nat) : Code Unit := call (.hrtimerForwardNow ns)
@[simp] def spinLock : Code Unit := call .spinLock
@[simp] def spinUnlock : Code Unit := call .spinUnlock
@[simp] def getMessage : Code (List Char) := call .message
@[simp] def setMessage (text : List Char) : Code Unit := call (.setMessage text)
@[simp] def timerExpires : Code Unit := call .timerExpires
@[simp] def callbackReturns (restart : Bool) : Code Unit := call (.callbackReturns restart)
@[simp] def enter (g : Gate) : Code Bool := call (.enter g)
@[simp] def leave (g : Gate) : Code Unit := call (.leave g)
@[simp] def unlist (g : Gate) : Code Unit := call (.unlist g)
@[simp] def drain (g : Gate) : Code Unit := call (.drain g)

end Dreamscape.MonitorV2
