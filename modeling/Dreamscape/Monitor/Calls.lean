/-
# Monitor.Calls -- the kernel under cache_kprobe_monitor

The state the module shares with the kernel, the calls its handlers make on it, and
how the kernel answers.  A call is one access to shared state or one call of a
kernel function; what the code does between two of them is invisible to others.

Everything the module does not decide comes from `Env`, one for each handler
invocation: the bytes written by the user, the interrupted task, which allocations
and event creations succeed, the values read from the counters and what the file
system does.

The entries of `counter_list` live in a heap, so that several handlers may hold
pointers to one entry.  `list_for_each_entry` reads the chain of pointers once:
entries are only ever added at the head, so the successor of an entry never changes
while the module is loaded.  `created`, `released` and `failedCreates` are history
and nothing reads them.
-/
import Dreamscape.Theory.Program
import Dreamscape.Kernel.Text
import Dreamscape.Kernel.Perf
import Mathlib.Logic.Function.Basic

namespace Dreamscape.Monitor

set_option autoImplicit false

open Theory Kernel

abbrev U64 := BitVec 64

/-- `num_events` -/
abbrev numEvents : Nat := 13

/-- `u64 counters[num_events]` -/
abbrev Counters := Fin numEvents → U64

/-- A program counter and the numbers counted there. -/
abbrev Sample := U64 × Counters

/-- `struct counter_data`, without its list links. -/
structure CounterData where
  pc : U64
  counters : Counters

abbrev Ptr := Nat
abbrev Tid := Nat

/-- The registers at the probe; `regs 0` is `x0`. -/
structure PtRegs where
  regs : Fin 31 → U64
  pc : U64

/-- `regs_return_value` on arm64. -/
def regsReturnValue (regs : PtRegs) : U64 := regs.regs 0

/-- What one `f_op->write` call did with its text. -/
inductive WriteResult where
  | complete
  | short (n : Nat)
  | error (e : Int)

/-- `struct file`: `hasWrite` says that `f_op->write` is not null, `calls` counts
the write calls made on it. -/
structure OpenFile where
  name : List Char
  pos : Nat
  hasWrite : Bool
  calls : Nat

inductive Segment where
  | userDs
  | kernelDs
  deriving DecidableEq

/-- What one handler invocation meets.  `create` answers an event creation with an
error code or with success, `value` is what is read from the event created with
these arguments, and `slab` is what a fresh block of memory holds. -/
structure Env where
  userBuf : List Char
  copyFails : Bool
  currentPid : Nat
  create : PerfEventAttr → Int → Option Nat → Option Int
  value : PerfEventAttr → Int → Option Nat → U64
  kmallocFails : Bool
  slab : CounterData
  filpOpen : Except Int Bool
  write : Nat → WriteResult

/-- The kernel has what the invocation asks for: memory, events, and a file that
takes every write whole. -/
structure Env.Succeeds (e : Env) : Prop where
  events : ∀ attr cpu task, e.create attr cpu task = none
  memory : e.kmallocFails = false
  opens : e.filpOpen = .ok true
  writes : ∀ n, e.write n = .complete

/-- An invocation by a task with number 0 and an empty write, in which nothing fails. -/
def Env.quiet : Env where
  userBuf := []
  copyFails := false
  currentPid := 0
  create := fun _ _ _ => none
  value := fun _ _ _ => 0
  kmallocFails := false
  slab := ⟨0, fun _ => 0⟩
  filpOpen := .ok true
  write := fun _ => .complete

structure State where
  targetPid : Int
  mutex : Option Tid
  counterList : List Ptr
  heap : Ptr → Option CounterData
  nextPtr : Ptr
  nextEvent : Nat
  created : Tid → List PerfEvent
  released : Tid → List PerfEvent
  failedCreates : List Tid
  files : List Char → Option (List Char)
  openFiles : Nat → Option OpenFile
  nextFile : Nat
  addrLimit : Tid → Segment

/-- The state after a successful load. -/
def State.initial : State where
  targetPid := -1
  mutex := none
  counterList := []
  heap := fun _ => none
  nextPtr := 0
  nextEvent := 0
  created := fun _ => []
  released := fun _ => []
  failedCreates := []
  files := fun _ => none
  openFiles := fun _ => none
  nextFile := 0
  addrLimit := fun _ => .userDs

inductive Fault where
  | nullDereference
  | badPointer
  | unlockNotOwner
  deriving DecidableEq

inductive Op where
  | copyFromUser (n : Nat)
  | mutexLock
  | mutexUnlock
  | targetPid
  | setTargetPid (pid : Int)
  | currentPid
  | perfEventCreateKernelCounter (attr : PerfEventAttr) (cpu : Int) (task : Option Nat)
  | perfEventReadValue (ev : PerfEvent)
  | perfEventReleaseKernel (ev : PerfEvent)
  | counterList
  | entryPc (entry : Ptr)
  | entryCounter (entry : Ptr) (i : Fin numEvents)
  | addCounter (entry : Ptr) (i : Fin numEvents) (v : U64)
  | kmalloc
  | setEntryPc (entry : Option Ptr) (pc : U64)
  | setEntryCounters (entry : Option Ptr) (values : Counters)
  | listAdd (entry : Option Ptr)
  | filpOpen (filename : List Char)
  | filpClose (file : Nat)
  | getFs
  | setFs (seg : Segment)
  | setFPos (file : Nat) (pos : Nat)
  | hasWrite (file : Nat)
  | fOpWrite (file : Nat) (text : List Char)

@[reducible] def Op.Ans : Op → Type
  | .copyFromUser _ => Option (List Char)
  | .targetPid => Int
  | .currentPid => Nat
  | .perfEventCreateKernelCounter .. => Except Int PerfEvent
  | .perfEventReadValue _ => U64
  | .counterList => List Ptr
  | .entryPc _ => U64
  | .entryCounter .. => U64
  | .kmalloc => Option Ptr
  | .filpOpen _ => Except Int Nat
  | .getFs => Segment
  | .hasWrite _ => Bool
  | .mutexLock | .mutexUnlock | .setTargetPid _ | .perfEventReleaseKernel _ | .addCounter ..
  | .setEntryPc .. | .setEntryCounters .. | .listAdd _ | .filpClose _ | .setFs _ | .setFPos ..
  | .fOpWrite .. => Unit

abbrev sig : Sig := ⟨Op, Op.Ans⟩

/-- The file after `text` is written at `pos`; a hole reads as zero bytes. -/
def splice (content : List Char) (pos : Nat) (text : List Char) : List Char :=
  content.take pos ++ List.replicate (pos - content.length) nul ++ text ++
    content.drop (pos + text.length)

/-- The part of `text` a write call stored. -/
def WriteResult.stored (text : List Char) : WriteResult → List Char
  | .complete => text
  | .short n => text.take n
  | .error _ => []

abbrev Answer (α : Type) := Outcome Fault State α

/-- Apply `f` to an allocated entry. -/
def State.onEntry {α : Type} (s : State) (entry : Ptr) (f : CounterData → Answer α) : Answer α :=
  match s.heap entry with
  | none => .fault .badPointer s
  | some data => f data

/-- Change the entry behind a pointer that may be null. -/
def State.storeEntry (s : State) (entry : Option Ptr) (f : CounterData → CounterData) :
    Answer Unit :=
  match entry with
  | none => .fault .nullDereference s
  | some p =>
      s.onEntry p fun data => .done () { s with heap := Function.update s.heap p (some (f data)) }

def State.onFile {α : Type} (s : State) (file : Nat) (f : OpenFile → Answer α) : Answer α :=
  match s.openFiles file with
  | none => .fault .badPointer s
  | some data => f data

/-- How the kernel answers thread `t` running with environment `e`. -/
def kernel (t : Tid) (e : Env) : Handler sig Fault State
  | .copyFromUser n, s => .done (if e.copyFails then none else some (e.userBuf.take n)) s
  | .mutexLock, s =>
      if s.mutex = none then .done () { s with mutex := some t } else .blocked s
  | .mutexUnlock, s =>
      if s.mutex = some t then .done () { s with mutex := none } else .fault .unlockNotOwner s
  | .targetPid, s => .done s.targetPid s
  | .setTargetPid pid, s => .done () { s with targetPid := pid }
  | .currentPid, s => .done e.currentPid s
  | .perfEventCreateKernelCounter attr cpu task, s =>
      match e.create attr cpu task with
      | some err => .done (.error err) { s with failedCreates := t :: s.failedCreates }
      | none =>
          let ev : PerfEvent := ⟨s.nextEvent, attr, cpu, task⟩
          .done (.ok ev)
            { s with
              nextEvent := s.nextEvent + 1
              created := Function.update s.created t (s.created t ++ [ev]) }
  | .perfEventReadValue ev, s => .done (e.value ev.attr ev.cpu ev.task) s
  | .perfEventReleaseKernel ev, s =>
      .done () { s with released := Function.update s.released t (s.released t ++ [ev]) }
  | .counterList, s => .done s.counterList s
  | .entryPc entry, s => s.onEntry entry fun data => .done data.pc s
  | .entryCounter entry i, s => s.onEntry entry fun data => .done (data.counters i) s
  | .addCounter entry i v, s =>
      s.storeEntry (some entry) fun data =>
        { data with counters := Function.update data.counters i (data.counters i + v) }
  | .kmalloc, s =>
      if e.kmallocFails then .done none s
      else
        .done (some s.nextPtr)
          { s with
            heap := Function.update s.heap s.nextPtr (some e.slab)
            nextPtr := s.nextPtr + 1 }
  | .setEntryPc entry pc, s => s.storeEntry entry fun data => { data with pc := pc }
  | .setEntryCounters entry values, s =>
      s.storeEntry entry fun data => { data with counters := values }
  | .listAdd entry, s =>
      match entry with
      | none => .fault .nullDereference s
      | some p => .done () { s with counterList := p :: s.counterList }
  | .filpOpen filename, s =>
      match e.filpOpen with
      | .error err => .done (.error err) s
      | .ok writable =>
          .done (.ok s.nextFile)
            { s with
              files := Function.update s.files filename (some [])
              openFiles := Function.update s.openFiles s.nextFile (some ⟨filename, 0, writable, 0⟩)
              nextFile := s.nextFile + 1 }
  | .filpClose file, s =>
      s.onFile file fun _ => .done () { s with openFiles := Function.update s.openFiles file none }
  | .getFs, s => .done (s.addrLimit t) s
  | .setFs seg, s => .done () { s with addrLimit := Function.update s.addrLimit t seg }
  | .setFPos file pos, s =>
      s.onFile file fun data =>
        .done ()
          { s with openFiles := Function.update s.openFiles file (some { data with pos := pos }) }
  | .hasWrite file, s => s.onFile file fun data => .done data.hasWrite s
  | .fOpWrite file text, s =>
      s.onFile file fun data =>
        if data.hasWrite then
          let stored := (e.write data.calls).stored text
          let content := (s.files data.name).getD []
          .done ()
            { s with
              files := Function.update s.files data.name (some (splice content data.pos stored))
              openFiles := Function.update s.openFiles file
                (some { data with pos := data.pos + stored.length, calls := data.calls + 1 }) }
        else .fault .nullDereference s

/-! ## The calls as programs -/

abbrev Code (α : Type) := Prog sig α

@[simp] def call (o : Op) : Code o.Ans := .call (S := sig) o .ret

@[simp] def copyFromUser (n : Nat) : Code (Option (List Char)) := call (.copyFromUser n)
@[simp] def mutexLock : Code Unit := call .mutexLock
@[simp] def mutexUnlock : Code Unit := call .mutexUnlock
@[simp] def getTargetPid : Code Int := call .targetPid
@[simp] def setTargetPid (pid : Int) : Code Unit := call (.setTargetPid pid)
@[simp] def taskPidNrCurrent : Code Nat := call .currentPid
@[simp] def perfEventCreateKernelCounter (attr : PerfEventAttr) (cpu : Int) (task : Option Nat) :
    Code (Except Int PerfEvent) := call (.perfEventCreateKernelCounter attr cpu task)
@[simp] def perfEventReadValue (ev : PerfEvent) : Code U64 := call (.perfEventReadValue ev)
@[simp] def perfEventReleaseKernel (ev : PerfEvent) : Code Unit := call (.perfEventReleaseKernel ev)
@[simp] def counterListEntries : Code (List Ptr) := call .counterList
@[simp] def entryPc (entry : Ptr) : Code U64 := call (.entryPc entry)
@[simp] def entryCounter (entry : Ptr) (i : Fin numEvents) : Code U64 := call (.entryCounter entry i)
@[simp] def addCounter (entry : Ptr) (i : Fin numEvents) (v : U64) : Code Unit :=
  call (.addCounter entry i v)
@[simp] def kmalloc : Code (Option Ptr) := call .kmalloc
@[simp] def setEntryPc (entry : Option Ptr) (pc : U64) : Code Unit := call (.setEntryPc entry pc)
@[simp] def setEntryCounters (entry : Option Ptr) (values : Counters) : Code Unit :=
  call (.setEntryCounters entry values)
@[simp] def listAdd (entry : Option Ptr) : Code Unit := call (.listAdd entry)
@[simp] def filpOpen (filename : List Char) : Code (Except Int Nat) := call (.filpOpen filename)
@[simp] def filpClose (file : Nat) : Code Unit := call (.filpClose file)
@[simp] def getFs : Code Segment := call .getFs
@[simp] def setFs (seg : Segment) : Code Unit := call (.setFs seg)
@[simp] def setFPos (file pos : Nat) : Code Unit := call (.setFPos file pos)
@[simp] def hasWrite (file : Nat) : Code Bool := call (.hasWrite file)
@[simp] def fOpWrite (file : Nat) (text : List Char) : Code Unit := call (.fOpWrite file text)

end Dreamscape.Monitor
