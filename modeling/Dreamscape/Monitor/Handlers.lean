/-
# Monitor.Handlers -- the code of cache_kprobe_monitor

`commandHandler` is the write operation of /proc/cache_kprobe_monitor and
`preHandler` the kprobe on `finish_task_switch`.  Log messages are left out; the
texts are the bytes written to the dump.
-/
import Dreamscape.Monitor.Calls

namespace Dreamscape.Monitor

set_option autoImplicit false

open Theory Kernel

/-! ## The dump -/

/-- `snprintf` into a buffer of `size` bytes. -/
def snprintf (size : Nat) (text : List Char) : List Char := text.take (size - 1)

def dumpName (pid : Int) : List Char :=
  snprintf 256 ("/tmp/cache_kprobe_monitor_pid_".toList ++ formatInt pid ++ ".txt".toList)

def pcText (pc : U64) : List Char := snprintf 256 ("PC: 0x".toList ++ formatHex pc)

def counterText (i : Fin numEvents) (v : U64) : List Char :=
  snprintf 64 (", Event ".toList ++ formatInt i.val ++ ": ".toList ++ formatU64 v)

/-- The inner loop of `write_kinfo_to_file`: every counter of one entry. -/
def writeCounters (file : Nat) (entry : Ptr) : List (Fin numEvents) → Code Unit
  | [] => return ()
  | i :: rest => do
      let v ← entryCounter entry i
      fOpWrite file (counterText i v)
      writeCounters file entry rest

/-- The outer loop: only the first of the three writes of an entry looks whether
`f_op->write` is there. -/
def writeEntries (file : Nat) : List Ptr → Code Unit
  | [] => return ()
  | entry :: rest => do
      let pc ← entryPc entry
      if ← hasWrite file then
        fOpWrite file (pcText pc)
      writeCounters file entry (List.finRange numEvents)
      fOpWrite file (snprintf 64 ['\n'])
      writeEntries file rest

def writeKinfoToFile (pid : Int) : Code Unit := do
  match ← filpOpen (dumpName pid) with
  | .error _ => return ()
  | .ok file =>
      let oldFs ← getFs
      setFs .kernelDs
      setFPos file 0
      writeEntries file (← counterListEntries)
      setFs oldFs
      filpClose file

/-! ## Commands -/

/-- What a written text asks for. -/
inductive Command where
  | startPid (pid : Int)
  | stopPid
  deriving DecidableEq

/-- The two `sscanf` calls of `command_handler` and the comparisons between them;
`none` is every `-EINVAL` exit. -/
def scanCommand (buf : List Char) : Option Command :=
  match vsscanf [.str 31] buf with
  | [.str command] =>
      if command = "start_pid".toList then
        match vsscanf (literals "start_pid".toList ++ [.space, .int]) buf with
        | [.int pid] => some (.startPid pid)
        | _ => none
      else if command = "stop_pid".toList then some .stopPid
      else none
  | _ => none

def commandHandler (count : Nat) : Code Int := do
  match ← copyFromUser (min count 255) with
  | none => return Errno.EFAULT.code
  | some buf =>
      match scanCommand (cstr buf) with
      | some (.startPid pid) =>
          mutexLock
          setTargetPid pid
          mutexUnlock
          return count
      | some .stopPid =>
          -- The pid to dump is read and the dump written before the mutex is taken.
          writeKinfoToFile (← getTargetPid)
          mutexLock
          setTargetPid (-1)
          mutexUnlock
          return count
      | none => return Errno.EINVAL.code

/-! ## Samples -/

def configurePerfEvent (config : BitVec 32) : PerfEventAttr where
  type := .PERF_TYPE_RAW
  config := config
  disabled := true
  excludeKernel := true
  excludeHv := true
  excludeIdle := true

def readPerfCounter (ev : PerfEvent) : Code U64 := perfEventReadValue ev

/-- The search of `update_counters` through the list. -/
def findEntry (pc : U64) : List Ptr → Code (Option Ptr)
  | [] => return none
  | entry :: rest => do
      if (← entryPc entry) = pc then return some entry
      else findEntry pc rest

/-- `entry->counters[i] += counter_values[i]` for each index of the list. -/
def addCounters (entry : Ptr) (counterValues : Counters) : List (Fin numEvents) → Code Unit
  | [] => return ()
  | i :: rest => do
      addCounter entry i (counterValues i)
      addCounters entry counterValues rest

def updateCounters (pc : U64) (counterValues : Counters) : Code Unit := do
  match ← findEntry pc (← counterListEntries) with
  | some entry => addCounters entry counterValues (List.finRange numEvents)
  | none =>
      let entry ← kmalloc
      setEntryPc entry pc
      setEntryCounters entry counterValues
      listAdd entry

/-- The creation loop of `pre_handler`: the events in the order of the codes, or the
error of the first creation that failed. -/
def createEvents (currentPid : Nat) :
    List (BitVec 32) → List PerfEvent → Code (Except Int (List PerfEvent))
  | [], events => return .ok events
  | code :: codes, events => do
      match ← perfEventCreateKernelCounter (configurePerfEvent code) currentPid none with
      | .error err => return .error err
      | .ok ev => createEvents currentPid codes (events ++ [ev])

/-- The second loop of `pre_handler`: read every event and release it. -/
def readEvents : List PerfEvent → List U64 → Code (List U64)
  | [], values => return values
  | ev :: events, values => do
      let value ← readPerfCounter ev
      perfEventReleaseKernel ev
      readEvents events (values ++ [value])

/-- The first `num_events` slots of the local `counter_values`. -/
def counterArray (values : List U64) : Counters := fun i => values.getD i 0

def preHandler (regs : PtRegs) : Code Int := do
  let currentPid ← taskPidNrCurrent
  mutexLock
  if (currentPid : Int) = (← getTargetPid) then
    let pc := regsReturnValue regs
    match ← createEvents currentPid eventCodes [] with
    | .error err => return err
    | .ok events =>
        let counterValues ← readEvents events []
        updateCounters pc (counterArray counterValues)
        mutexUnlock
        return 0
  else
    mutexUnlock
    return 0

end Dreamscape.Monitor
