/-
# TestModule.Handlers -- the code of test_module

`kprobe_test.c`, from which cache_kprobe_monitor_v2 was made, runs on the same kernel
(`MonitorV2.Calls`).  Its probe and its message file are those of v2 to the letter, but for
a log line; its `pid_write` starts no session.
-/
import Dreamscape.MonitorV2.Handlers

namespace Dreamscape.TestModule

set_option autoImplicit false

open Theory Kernel MonitorV2

def helloSwitch : Code Int := do
  let pid ← currentPid
  if (pid : Int) = (← getTargetPid) then
    spinLock
    let targetPid ← getTargetPid
    setMessage (("hello world ".toList ++ formatInt targetPid ++ ['\n']).take 511)
    spinUnlock
    return 0
  else return 0

def pidWrite (count : Nat) : Code Int := do
  if 12 ≤ count then return Errno.EINVAL.code
  else
    match ← copyFromUser count with
    | none => return Errno.EFAULT.code
    | some str =>
        match kstrtoint (cstr str) with
        | .error _ => return Errno.EINVAL.code
        | .ok pid =>
            setTargetPid pid
            return count

def messageRead (count : Nat) (ppos : Int) : Code (Int × Int) := do
  spinLock
  let len ← simpleReadFromBuffer count ppos (← getMessage)
  spinUnlock
  return len

end Dreamscape.TestModule
