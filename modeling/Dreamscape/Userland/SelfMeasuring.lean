/-
# Userland.SelfMeasuring -- tools that measure themselves

The other four programs of `arm_pmu_experiments`.  Each opens an event on itself, enables it,
does what is to be measured, disables it, and prints what it reads.  They differ in the event,
in the wrapper around the system call, in what is measured and in the texts, so they are one
program with these as parameters.

Any number of processes runs at once, each with one event of its own, and the kernel answers a
call of a process from that event and from what it grants to that process.  A hardware event
happens in some process on some CPU, between any two calls; a process that sleeps may be
counted as well, so no schedule is left out.
-/
import Dreamscape.Theory.Transcript
import Dreamscape.Theory.Writes
import Dreamscape.Userland.Processes

namespace Dreamscape.Userland.SelfMeasuring

set_option autoImplicit false

open Theory Kernel

abbrev U64 := BitVec 64

/-! ## Events -/

inductive EventType where
  | PERF_TYPE_HARDWARE
  | PERF_TYPE_RAW
  deriving DecidableEq

def PERF_COUNT_HW_CPU_CYCLES : BitVec 32 := 0

/-- The fields of `struct perf_event_attr` the tools set; `memset` clears the rest. -/
structure Attributes where
  type : EventType
  config : BitVec 32
  disabled : Bool := true
  excludeKernel : Bool := true
  excludeHv : Bool := true
  deriving DecidableEq

/-- The event of the processor that is selected: a raw number is one, and of the generic ones
the tools use the cycles. -/
def Attributes.raw (attr : Attributes) : Option PerfEventAttr :=
  let of code : PerfEventAttr :=
    { type := .PERF_TYPE_RAW, config := code, disabled := attr.disabled,
      excludeKernel := attr.excludeKernel, excludeHv := attr.excludeHv }
  match attr.type with
  | .PERF_TYPE_RAW => some (of attr.config)
  | .PERF_TYPE_HARDWARE =>
      if attr.config = PERF_COUNT_HW_CPU_CYCLES then some (of EventCode.CPU_CYCLES.code) else none

/-! ## Calls -/

/-- What `malloc` returns is what is in the block, as an array of `int`. -/
inductive Op where
  | perfEventOpen (attr : Attributes) (pid cpu groupFd : Int) (flags : Nat)
  | errno
  | ioctl (fd : Int) (request : PerfRequest)
  | readCount (fd : Int)
  | close (fd : Int)
  | sleep (seconds : Nat)
  | malloc (size : Nat)
  | free
  | segfault
  | printf (text : List Char)
  | eprintf (text : List Char)
  | exit (status : Int)

@[reducible] def Op.Ans : Op → Type
  | .perfEventOpen .. | .errno | .ioctl .. => Int
  | .readCount _ => Option U64
  | .malloc _ => Option (Nat → BitVec 32)
  | .segfault | .exit _ => Empty
  | .close _ | .sleep _ | .free | .printf _ | .eprintf _ => Unit

abbrev sig : Sig := ⟨Op, Op.Ans⟩

abbrev Code (α : Type) := Prog sig α

@[simp] def call (o : Op) : Code o.Ans := .call (S := sig) o .ret

@[simp] def syscall (attr : Attributes) (pid cpu groupFd : Int) (flags : Nat) : Code Int :=
  call (.perfEventOpen attr pid cpu groupFd flags)
@[simp] def errno : Code Int := call .errno
@[simp] def ioctl (fd : Int) (request : PerfRequest) : Code Int := call (.ioctl fd request)
@[simp] def readCount (fd : Int) : Code (Option U64) := call (.readCount fd)
@[simp] def close (fd : Int) : Code Unit := call (.close fd)
@[simp] def sleep (seconds : Nat) : Code Unit := call (.sleep seconds)
@[simp] def malloc (size : Nat) : Code (Option (Nat → BitVec 32)) := call (.malloc size)
@[simp] def free : Code Unit := call .free
@[simp] def segfault {α : Type} : Code α := .call (S := sig) .segfault nofun
@[simp] def printf (text : List Char) : Code Unit := call (.printf text)
@[simp] def eprintf (text : List Char) : Code Unit := call (.eprintf text)
@[simp] def exit {α : Type} (status : Int) : Code α := .call (S := sig) (.exit status) nofun

/-- What the kernel grants one process: a descriptor or an error for its event, its requests
and its read, and the memory it asks for. -/
structure Grants where
  opened : Except Nat Nat
  requests : PerfRequest → Bool
  reads : Bool
  memory : Option (Nat → BitVec 32)

/-- A kernel that grants everything. -/
def Grants.all : Grants := ⟨.ok 3, fun _ => true, true, some fun _ => 0⟩

/-- The event of each process, under its descriptor, and what was printed. -/
structure Machine where
  event : Nat → Option (Int × Counter)
  output : List (Nat × Stream × List Char)

def Machine.idle : Machine := ⟨fun _ => none, []⟩

def Machine.setEvent (m : Machine) (t : Nat) (event : Option (Int × Counter)) : Machine :=
  { m with event := Function.update m.event t event }

def Machine.print (m : Machine) (t : Nat) (stream : Stream) (text : List Char) : Machine :=
  { m with output := m.output ++ [(t, stream, text)] }

/-- The event of process `t` under this descriptor. -/
def Machine.counter (m : Machine) (t : Nat) (fd : Int) : Option Counter :=
  (m.event t).bind fun (own, c) => if own = fd then some c else none

section Machine

variable (pidOf : Nat → Nat)

/-- The event process `t` gets, and its descriptor; or the error. -/
def opening (e : Grants) (t : Nat) (attr : Attributes) (pid cpu : Int) : Except Nat (Int × Counter) :=
  match e.opened, attr.raw with
  | .ok fd, some raw =>
      .ok (fd, ⟨⟨t, raw, cpu, some (if pid = 0 then pidOf t else pid.toNat)⟩, !attr.disabled, 0⟩)
  | .ok _, none => .error 2
  | .error n, _ => .error n

def kernel (t : Nat) (e : Grants) : Handler sig Empty Machine
  | .perfEventOpen attr pid cpu _ _, m =>
      match opening pidOf e t attr pid cpu with
      | .ok event => .done event.1 (m.setEvent t (some event))
      | .error _ => .done (-1) m
  | .errno, m =>
      match e.opened with
      | .ok _ => .done 2 m
      | .error n => .done n m
  | .ioctl fd request, m =>
      match m.counter t fd with
      | some c =>
          if e.requests request then .done 0 (m.setEvent t (some (fd, c.request request)))
          else .done (-1) m
      | none => .done (-1) m
  | .readCount fd, m => .done (if e.reads then (m.counter t fd).map Counter.count else none) m
  | .close fd, m =>
      match m.counter t fd with
      | some _ => .done () (m.setEvent t none)
      | none => .done () m
  | .sleep _, m => .done () m
  | .malloc _, m => .done e.memory m
  | .free, m => .done () m
  | .segfault, m => .blocked m
  | .printf text, m => .done () (m.print t .stdout text)
  | .eprintf text, m => .done () (m.print t .stderr text)
  | .exit _, m => .blocked m

end Machine

/-- A hardware event is seen by every event that is open. -/
def Machine.observe (occ : Occurrence) (m : Machine) : Machine :=
  { m with event := fun t => (m.event t).map fun (fd, c) => (fd, c.observe occ) }

/-! ## The tools -/

/-- What a tool measures, how it opens the event and what it says when it cannot; what it does
meanwhile, and the lines it prints after the count. -/
structure Tool where
  attr : Attributes
  wrapper : Int → Code Int
  complain : Code Unit
  profiled : Code (List (List Char))
  label : List Char

def printfs : List (List Char) → Code Unit
  | [] => return ()
  | text :: texts => do
      printf text
      printfs texts

/-- `printf(label "%lld\n", count)` -/
def Tool.countLine (tool : Tool) (count : U64) : List Char :=
  tool.label ++ formatInt count.toInt ++ ['\n']

/-- `perf_event_open(&pe, 0, -1, -1, 0)` -/
def Tool.perfEventOpen (tool : Tool) : Code Int := do
  let ret ← syscall tool.attr 0 (-1) (-1) 0
  tool.wrapper ret

/-- From the open event to the end of `main`.  A failed read leaves in `count` what was there. -/
def Tool.measure (tool : Tool) (count : U64) (fd : Int) : Code Int := do
  let _ ← ioctl fd .PERF_EVENT_IOC_RESET
  let _ ← ioctl fd .PERF_EVENT_IOC_ENABLE
  let more ← tool.profiled
  let _ ← ioctl fd .PERF_EVENT_IOC_DISABLE
  let read ← readCount fd
  printf (tool.countLine (read.getD count))
  printfs more
  close fd
  return 0

/-- `main`; `count` is what the variable holds before it is assigned. -/
def Tool.main (tool : Tool) (count : U64) : Code Int := do
  let fd ← tool.perfEventOpen
  if fd = -1 then
    tool.complain
    exit 1
  else tool.measure count fd

/-- `main` of pmu_cycle_count -/
def pmuCycleCount : Tool where
  attr := { type := .PERF_TYPE_HARDWARE, config := PERF_COUNT_HW_CPU_CYCLES }
  wrapper ret := return ret
  complain := eprintf "Error opening perf event\n".toList
  profiled := return []
  label := "CPU cycles: ".toList

/-- `main` of pmu_cache_miss, which calls `strerror` without a declaration of it. -/
def pmuCacheMiss (strerror : Int → List Char) : Tool where
  attr := { type := .PERF_TYPE_RAW, config := 0x04 }
  wrapper ret := return ret
  complain := do
    let n ← errno
    eprintf ("Error opening perf event: ".toList ++ strerror n ++ " \n".toList)
  profiled := return []
  label := "Cache misses: ".toList

def ENOSYS : Int := 38

/-- `main` of l1_cache_misses; its wrapper looks at the error first. -/
def l1CacheMisses : Tool where
  attr := { type := .PERF_TYPE_RAW, config := 0x04 }
  wrapper ret := do
    if ret = -1 then
      if (← errno) = ENOSYS then
        eprintf "Error: perf_event_open syscall not implemented\n".toList
        exit 1
      else return ret
    else return ret
  complain := eprintf "Error opening perf event\n".toList
  profiled := do
    sleep 1
    return []
  label := "L1 data cache read misses: ".toList

/-- `array[i] = i`, for each index. -/
def fillArray (array : Nat → BitVec 32) (arraySize : Nat) : Nat → BitVec 32 :=
  (List.range arraySize).foldl (fun array i => Function.update array i (BitVec.ofNat 32 i)) array

/-- `sum += array[i]`, for each index. -/
def sumArray (array : Nat → BitVec 32) (arraySize : Nat) : BitVec 32 :=
  (List.range arraySize).foldl (fun sum i => sum + array i) 0

def sumLine (sum : BitVec 32) : List Char := "Sum: ".toList ++ formatInt sum.toInt ++ ['\n']

/-- `main` of pmu_cache_miss_array_sum, which does not look at what `malloc` returned. -/
def pmuCacheMissArraySum : Tool where
  attr := { type := .PERF_TYPE_RAW, config := 0x03 }
  wrapper ret := return ret
  complain := eprintf "Error opening perf event\n".toList
  profiled := do
    let arraySize := 100000
    match ← malloc (arraySize * 4) with
    | none => segfault
    | some array =>
        let sum := sumArray (fillArray array arraySize) arraySize
        free
        return [sumLine sum]
  label := "Cache misses: ".toList

end Dreamscape.Userland.SelfMeasuring
