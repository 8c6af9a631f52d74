/-
# Modules.Handlers -- the two modules with a message file

cache_kprobe_monitor_v2 and test_module enter through the same three ways: a pid file, a
message file and the probe.  Results about the message are stated for either.
-/
import Dreamscape.Kernel.Strict
import Dreamscape.TestModule.Handlers
import Dreamscape.Theory.Protocol

namespace Dreamscape.Modules

set_option autoImplicit false

open Theory Kernel MonitorV2

inductive Module where
  | cacheKprobeMonitorV2
  | testModule

namespace Module

def helloSwitch : Module → Code Int
  | .cacheKprobeMonitorV2 => MonitorV2.helloSwitch
  | .testModule => TestModule.helloSwitch

def pidWrite : Module → Nat → Code Int
  | .cacheKprobeMonitorV2 => MonitorV2.pidWrite
  | .testModule => TestModule.pidWrite

def messageRead : Module → Nat → Int → Code (Int × Int)
  | .cacheKprobeMonitorV2 => MonitorV2.messageRead
  | .testModule => TestModule.messageRead

/-- The probe is the same in both. -/
theorem helloSwitch_eq (m : Module) : m.helloSwitch = MonitorV2.helloSwitch := by
  cases m <;> rfl

/-- So is the message file. -/
theorem messageRead_eq (m : Module) : m.messageRead = MonitorV2.messageRead := by
  cases m <;> rfl

/-- What a module does once the pid is stored. -/
def monitors : Module → Code Unit
  | .cacheKprobeMonitorV2 => do startMonitoring eventCodes (← getTargetPid)
  | .testModule => return ()

end Module

/-! ## Writing a pid -/

/-- Store the pid that was written, then go on. -/
def storePid (count : Nat) (monitors : Code Unit) : Code Int := do
  if 12 ≤ count then return Errno.EINVAL.code
  else
    match ← copyFromUser count with
    | none => return Errno.EFAULT.code
    | some str =>
        match kstrtoint (cstr str) with
        | .error _ => return Errno.EINVAL.code
        | .ok pid =>
            setTargetPid pid
            monitors
            return count

theorem Module.pidWrite_eq (m : Module) (count : Nat) : m.pidWrite count = storePid count m.monitors := by
  cases m <;> rfl

theorem pidWrite_monitors (count : Nat) :
    MonitorV2.pidWrite count = storePid count Module.cacheKprobeMonitorV2.monitors := rfl

/-- A pid as `kstrtoint` stores it. -/
def IsInt (n : Int) : Prop := -2 ^ 31 ≤ n ∧ n < 2 ^ 31

theorem kstrtoint_isInt {text : List Char} {pid : Int} (converted : kstrtoint text = .ok pid) :
    IsInt pid :=
  (kstrtoint_ok_iff.mp converted).2

/-- What is to be checked of a write of a pid. -/
theorem storePid_follows {R : Type} {P : Protocol sig R} {Q : R → Int → Prop} {r : R} (count : Nat)
    {monitors : Code Unit} (ends : ∀ n, Q r n)
    (copies : P.allowed (.copyFromUser count) r ∧ ∀ str, P.next (.copyFromUser count) str r = r)
    (stores : ∀ pid, IsInt pid → P.allowed (.setTargetPid pid) r ∧
      monitors.Follows P (fun r' _ => ∀ n, Q r' n) (P.next (.setTargetPid pid) () r)) :
    (storePid count monitors).Follows P Q r := by
  unfold storePid
  split
  · exact ends _
  · simp only [copyFromUser, call, Prog.call_bind, Prog.ret_bind, Prog.follows_call]
    refine ⟨copies.1, ?_⟩
    intro copied _
    rw [copies.2 copied]
    cases copied with
    | none => exact ends _
    | some str =>
        dsimp only
        cases converted : kstrtoint (cstr str) with
        | error err => exact ends _
        | ok pid =>
            obtain ⟨allowed, onward⟩ := stores pid (kstrtoint_isInt converted)
            refine ⟨allowed, fun _ _ => ?_⟩
            show (monitors >>= _).Follows P Q _
            rw [Prog.follows_bind]
            exact onward.mono fun r' _ ended => ended count

/-- What a write of a pid can call. -/
theorem storePid_only {ok : Op → Prop} (count : Nat) {monitors : Code Unit}
    (copies : ok (.copyFromUser count)) (stores : ∀ pid, ok (.setTargetPid pid))
    (onward : monitors.Only ok) : (storePid count monitors).Only ok := by
  rw [Prog.only_iff_follows]
  refine storePid_follows count (fun _ => trivial) ⟨copies, fun _ => rfl⟩ fun pid _ => ?_
  exact ⟨stores pid, (Prog.only_iff_follows.mp onward).mono fun _ _ _ _ => trivial⟩

end Dreamscape.Modules
