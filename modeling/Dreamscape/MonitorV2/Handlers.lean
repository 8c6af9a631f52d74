/-
# MonitorV2.Handlers -- the code of cache_kprobe_monitor_v2

The functions that create, sample and release the counters take the table of event
codes as an argument; the module runs them with `eventCodes`.  Log messages are left
out, except the line in which `sample_perf_counters` reports a counter.
-/
import Dreamscape.MonitorV2.Calls

namespace Dreamscape.MonitorV2

set_option autoImplicit false

open Theory Kernel

/-! ## Counters -/

/-- The attributes `init_perf_counters` sets. -/
def counterAttr (config : BitVec 32) : PerfEventAttr where
  type := .PERF_TYPE_RAW
  config := config
  excludeKernel := true

/-- `while (i > 0) { --i; perf_event_release_kernel(perf_data->events[i]); }` -/
def releaseBefore (p : Ptr) : Nat → Code Unit
  | 0 => return ()
  | i + 1 => do
      perfEventReleaseKernel (← loadEvent (some p) i)
      releaseBefore p i

/-- The creation loop of `init_perf_counters` from index `i` on. -/
def createCounters (p : Ptr) (cpu : Int) : List (BitVec 32) → Nat → Code (Option Ptr)
  | [], _ => do
      putCpu
      return some p
  | code :: codes, i => do
      let ev ← perfEventCreateKernelCounter (counterAttr code) cpu none
      storeEvent (some p) i ev
      match ev with
      | .err _ =>
          releaseBefore p i
          kfree p
          putCpu
          return none
      | _ =>
          storePrev (some p) i 0
          createCounters p cpu codes (i + 1)

/-- The pid is not used: the events are bound to the CPU the code runs on. -/
def initPerfCounters (codes : List (BitVec 32)) (_pid : Int) : Code (Option Ptr) := do
  match ← kzalloc with
  | none => return none
  | some p =>
      let cpu ← getCpu
      createCounters p cpu codes 0

/-- The loop of `cleanup_perf_counters` over the given indices. -/
def releaseCounters (p : Ptr) : List Nat → Code Unit
  | [] => return ()
  | i :: rest => do
      let ev ← loadEvent (some p) i
      if ev ≠ .null then
        perfEventReleaseKernel ev
      releaseCounters p rest

def cleanupPerfCounters (codes : List (BitVec 32)) (perfData : Option Ptr) : Code Unit :=
  match perfData with
  | none => return ()
  | some p => do
      releaseCounters p (List.range codes.length)
      kfree p

/-- The loop of `sample_perf_counters` from index `i` on. -/
def sampleCounters : List (BitVec 32) → Nat → Code Unit
  | [], _ => return ()
  | code :: codes, i => do
      let newValue ← perfEventReadValue (← loadEvent (← getPerfData) i)
      let delta := newValue - (← loadPrev (← getPerfData) i)
      report code newValue delta
      storePrev (← getPerfData) i newValue
      sampleCounters codes (i + 1)

/-- `HRTIMER_RESTART` is `true`. -/
def samplePerfCounters (codes : List (BitVec 32)) : Code Bool := do
  match ← getMonitoredTask with
  | none => return false
  | some _ =>
      if ← pidAlive (← getMonitoredTask) then
        let _programCounter ← taskPc (← getMonitoredTask)
        sampleCounters codes 0
        hrtimerForwardNow (← getSampleInterval)
        return true
      else return false

/-! ## Sessions -/

/-- `ktime_set(1, 0)` -/
def oneSecond : Nat := 1000000000

def startMonitoring (codes : List (BitVec 32)) (pid : Int) : Code Unit := do
  setMonitoredTask (← pidTask pid)
  match ← getMonitoredTask with
  | none => return ()
  | some _ =>
      getTaskStruct (← getMonitoredTask)
      setPerfData (← initPerfCounters codes pid)
      match ← getPerfData with
      | none => return ()
      | some _ =>
          setSampleInterval oneSecond
          hrtimerInit
          setTimerFunction
          hrtimerStart (← getSampleInterval)

def stopMonitoring (codes : List (BitVec 32)) : Code Unit := do
  hrtimerCancel
  cleanupPerfCounters codes (← getPerfData)
  putTaskStruct (← getMonitoredTask)
  setMonitoredTask none

/-! ## Files and the probe -/

def pidWrite (count : Nat) : Code Int := do
  if 12 ≤ count then return Errno.EINVAL.code
  else
    match ← copyFromUser count with
    | none => return Errno.EFAULT.code
    | some str =>
        match kstrtoint (cstr str) with
        | .error _ => return Errno.EINVAL.code
        | .ok pid =>
            setTargetPid pid
            startMonitoring eventCodes (← getTargetPid)
            return count

def helloSwitch : Code Int := do
  let pid ← currentPid
  if (pid : Int) = (← getTargetPid) then
    spinLock
    let targetPid ← getTargetPid
    setMessage (("hello world ".toList ++ formatInt targetPid ++ ['\n']).take 511)
    spinUnlock
    return 0
  else return 0

/-- The answer, and the new `*ppos`. -/
def simpleReadFromBuffer (count : Nat) (ppos : Int) (src : List Char) : Code (Int × Int) :=
  if ppos < 0 then return (Errno.EINVAL.code, ppos)
  else if src.length ≤ ppos ∨ count = 0 then return (0, ppos)
  else do
    let text := (src.drop ppos.toNat).take count
    let ret ← copyToUser text
    if ret = text.length then return (Errno.EFAULT.code, ppos)
    else return (text.length - ret, ppos + text.length - ret)

def messageRead (count : Nat) (ppos : Int) : Code (Int × Int) := do
  spinLock
  let len ← simpleReadFromBuffer count ppos (← getMessage)
  spinUnlock
  return len

/-! ## Ways into the module -/

/-- A proc operation runs between `use_pde` and `unuse_pde`. -/
def throughGate {α : Type} (g : Gate) (refused : α) (body : Code α) : Code α := do
  if ← enter g then
    let a ← body
    leave g
    return a
  else return refused

/-- The timer interrupt: the callback runs when the timer expires, and is queued again
if it says so. -/
def timerInterrupt : Code Unit := do
  timerExpires
  callbackReturns (← samplePerfCounters eventCodes)

/-- `proc_remove` and `unregister_kprobe`: nobody enters any more, and who is inside is
waited for. -/
def closeGate (g : Gate) : Code Unit := do
  unlist g
  drain g

def moduleExit : Code Unit := do
  stopMonitoring eventCodes
  closeGate .messageEntry
  closeGate .pidEntry
  closeGate .probe

end Dreamscape.MonitorV2
