/-
# Monitor.Preemption -- the mutex of the probe

The probe is entered on every context switch of every CPU, with preemption disabled, and
takes `target_pid_mutex` before it looks at the pid.  Here the handlers run on any number
of CPUs: a writer may be switched out at any point, also inside its section, and the switch
enters the probe.

Whether the probe finds the mutex free depends on where the others stand
(`free_iff`): it does exactly when no invocation is between its lock and its unlock and no
event has been refused.
-/
import Dreamscape.Monitor.Discipline
import Dreamscape.Theory.Cpus
import Mathlib.Data.Set.List

namespace Dreamscape.Monitor

set_option autoImplicit false

open Theory Kernel

/-! ## Sections -/

/-- What the program does next with the mutex may be to unlock it. -/
def InSection : Code Int → Prop
  | .ret _ => False
  | .call o k => o = .mutexUnlock ∨ o ≠ .mutexLock ∧ ∃ a, InSection (k a)

instance (o : Op) : Nonempty o.Ans := by
  cases o <;> first
    | exact ⟨()⟩ | exact ⟨none⟩ | exact ⟨.error 0⟩ | exact ⟨[]⟩
    | exact ⟨false⟩ | exact ⟨0⟩ | exact ⟨.userDs⟩

/-- Some answer to a call other than those of the mutex is no refusal. -/
theorem lock_goes_on {o : Op} (locks : o ≠ .mutexLock) (unlocks : o ≠ .mutexUnlock) :
    ∃ a, lockProtocol.next o a ⟨true, false⟩ = ⟨true, false⟩ := by
  rcases op_cases o with plain | rfl | rfl | ⟨attr, cpu, task, rfl⟩ | ⟨ev, rfl⟩
  · obtain ⟨a⟩ : Nonempty o.Ans := inferInstance
    exact ⟨a, lock_next _ plain a⟩
  · exact absurd rfl locks
  · exact absurd rfl unlocks
  · exact ⟨.ok ⟨0, attr, cpu, task⟩, rfl⟩
  · exact ⟨(), rfl⟩

/-- A program that owns the mutex, and was refused nothing, is in its section. -/
theorem inSection_of_owns {p : Code Int}
    (follows : p.Follows lockProtocol returnsLock ⟨true, false⟩) : InSection p := by
  induction p with
  | ret a => exact Bool.noConfusion (show true = false from follows)
  | call o k ih =>
      by_cases unlocks : o = .mutexUnlock
      · exact Or.inl unlocks
      · have locks : o ≠ .mutexLock := by
          rintro rfl
          exact Bool.noConfusion follows.1.2
        obtain ⟨a, same⟩ := lock_goes_on locks unlocks
        have onward := follows.2 a trivial
        rw [same] at onward
        exact Or.inr ⟨locks, a, ih a onward⟩

/-- A program that does not own it is outside. -/
theorem outside_of_free {p : Code Int} {r : Hold} (free : r.owns = false)
    (follows : p.Follows lockProtocol returnsLock r) : ¬InSection p := by
  induction p generalizing r with
  | ret a => exact id
  | call o k ih =>
      rintro (rfl | ⟨locks, a, inside⟩)
      · exact Bool.noConfusion (free.symm.trans follows.1.2)
      · refine ih a ?_ (follows.2 a trivial) inside
        rcases op_cases o with plain | rfl | rfl | ⟨attr, cpu, task, rfl⟩ | ⟨ev, rfl⟩
        · rw [lock_next r plain a]
          exact free
        · exact absurd rfl locks
        · rfl
        · cases a <;> exact free
        · exact free

/-- No invocation stands in its section. -/
def AllOutside (c : Handlers) : Prop :=
  ∀ (t : Tid) (thread : Thread sig Env Int), c.threads[t]? = some thread → ¬InSection thread.prog

/-- **The mutex is free** if and only if no invocation stands in its section and the kernel
has refused no event. -/
theorem free_iff (events : List Event) :
    (poolAfter events).shared.mutex = none ↔
      (poolAfter events).shared.failedCreates = [] ∧ AllOutside (poolAfter events) := by
  have obeys := poolAfter_locks events
  constructor
  · intro free
    refine ⟨List.eq_nil_iff_forall_not_mem.mpr fun t refused => ?_, fun t thread found => ?_⟩
    · have owns := (refused_keeps_lock events refused).2
      rw [free] at owns
      cases owns
    · apply outside_of_free _ (obeys.follows t thread found)
      simp [State.hold, free]
  · rintro ⟨granted, outside⟩
    cases owner : (poolAfter events).shared.mutex with
    | none => rfl
    | some t =>
        have hold : (poolAfter events).shared.hold t = ⟨true, false⟩ := by
          simp [State.hold, owner, granted]
        cases found : (poolAfter events).threads[t]? with
        | none =>
            have fresh := obeys.unused t (List.getElem?_eq_none_iff.mp found)
            rw [hold] at fresh
            cases fresh
        | some thread =>
            have follows := obeys.follows t thread found
            rw [hold] at follows
            exact absurd (inSection_of_owns follows) (outside t thread found)

/-! ## Runs on CPUs -/

section Machine

variable {n : Nat}

/-- `write` is the task on the CPU writing a command, `switch` a context switch to thread
`next` or to another task. -/
inductive Move (n : Nat) where
  | write (cpu : Fin n) (env : Env)
  | step (cpu : Fin n)
  | switch (cpu : Fin n) (next : Option Tid) (env : Env) (regs : PtRegs)

def Move.action : Move n → Cpus.Action n sig Env Empty Int
  | .write cpu env => .call cpu ⟨env, (Invocation.write env).code⟩
  | .step cpu => .step cpu
  | .switch cpu next env regs => .switch cpu next ⟨env, (Invocation.hit env regs).code⟩

abbrev Machine (n : Nat) := Cpus n sig Env State Int

def idleCpus (n : Nat) : Machine n := ⟨loaded, fun _ => none, fun _ => none, fun _ => none⟩

/-- The handlers on `n` CPUs; a writer may be switched out anywhere. -/
def onCpus (moves : List (Move n)) : Machine n :=
  Cpus.run kernel undisturbed (fun _ _ => true) (idleCpus n) (moves.map Move.action)

/-- What happens on the CPUs is an interleaving of the handlers. -/
theorem onCpus_schedule (moves : List (Move n)) :
    ∃ events, (onCpus moves).pool = poolAfter events := by
  obtain ⟨actions, ran, started⟩ := Cpus.run_pool kernel undisturbed (fun _ _ => true)
    (idleCpus n) (moves.map Move.action)
  have each : ∀ action ∈ actions, ∃ event : Event, event.action = action := by
    intro action member
    cases action with
    | spawn thread =>
        obtain ⟨a, made, starts⟩ := started thread member
        obtain ⟨move, -, rfl⟩ := List.mem_map.mp made
        cases move with
        | write cpu env =>
            cases starts
            exact ⟨.start (.write env), rfl⟩
        | step cpu => cases starts
        | switch cpu next env regs =>
            cases starts
            exact ⟨.start (.hit env regs), rfl⟩
    | step t => exact ⟨.step t, rfl⟩
    | world w => exact w.elim
  have listed : actions ∈ Set.range (List.map Event.action) := by
    rw [Set.range_list_map]
    exact each
  obtain ⟨events, rfl⟩ := listed
  exact ⟨events, ran⟩

/-- The probe has been entered on the CPU, and has not yet taken the lock. -/
def Entering (c : Machine n) (cpu : Fin n) : Prop :=
  ∃ t, c.handler cpu = some t ∧ (c.pool.next t = some .currentPid ∨ c.pool.next t = some .mutexLock)

/-- Where the probe has been entered nobody holds the mutex. -/
def NeverSleeps (c : Machine n) : Prop := ∀ cpu, Entering c cpu → c.pool.shared.mutex = none

/-- **The probe never has to sleep** in a run if and only if, wherever it has been entered,
no invocation stands between its lock and its unlock and no event has been refused. -/
theorem never_sleeps_iff (moves : List (Move n)) :
    (∀ k, NeverSleeps (onCpus (moves.take k))) ↔
      ∀ k cpu, Entering (onCpus (moves.take k)) cpu →
        (onCpus (moves.take k)).pool.shared.failedCreates = [] ∧
          AllOutside (onCpus (moves.take k)).pool := by
  apply forall_congr'
  intro k
  obtain ⟨events, schedule⟩ := onCpus_schedule (moves.take k)
  apply forall_congr'
  intro cpu
  rw [schedule, free_iff]

end Machine

/-- A writer of `start_pid 5` is switched out with the mutex in its hands. -/
def preemptedWriter {n : Nat} (cpu : Fin n) : List (Move n) :=
  [.write cpu (.echo "start_pid 5\n".toList), .step cpu, .step cpu,
    .switch cpu none (.switchTo 7 0) ⟨fun _ => 0, 0⟩]

theorem probe_finds_mutex_held :
    ¬∀ (n : Nat) (moves : List (Move n)) k, NeverSleeps (onCpus (moves.take k)) := by
  intro never
  have free := never 1 (preemptedWriter 0) 4 0 ⟨1, rfl, Or.inl rfl⟩
  have held : (onCpus ((preemptedWriter (0 : Fin 1)).take 4)).pool.shared.mutex = some 0 := rfl
  rw [held] at free
  cases free

end Dreamscape.Monitor
