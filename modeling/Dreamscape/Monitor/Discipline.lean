/-
# Monitor.Discipline -- the mutex, in every interleaving

Each handler invocation takes `target_pid_mutex` once and gives it back, unless the
kernel refuses it an event: then `pre_handler` returns from the middle of its
creation loop with the mutex held.

What a thread does with the mutex is a protocol (`Theory.Protocol`), checked on the
code of the handlers alone and lifted to every run.  `failedCreates` is the log of
the kernel's refusals, so `lock_discipline_iff` says that refusals are all that can go
wrong.
-/
import Dreamscape.Monitor.Schedule

namespace Dreamscape.Monitor

set_option autoImplicit false

open Theory Kernel

/-! ## The protocol -/

/-- What a thread has to do with the mutex, and whether an event was refused to it. -/
structure Hold where
  owns : Bool
  refused : Bool

/-- A thread locks when it does not hold the mutex, unlocks when it does, and makes no
call after an event was refused. -/
def lockProtocol : Protocol sig Hold where
  allowed o r :=
    r.refused = false ∧
      match o with
      | .mutexLock => r.owns = false
      | .mutexUnlock => r.owns = true
      | _ => True
  possible _ _ _ := True
  next o a r :=
    match o, a with
    | .mutexLock, _ => { r with owns := true }
    | .mutexUnlock, _ => { r with owns := false }
    | .perfEventCreateKernelCounter .., .error _ => { r with refused := true }
    | _, _ => r

/-- A thread returns with the mutex exactly if an event was refused to it. -/
def returnsLock (r : Hold) (_ : Int) : Prop := r.owns = r.refused

def State.hold (s : State) (t : Tid) : Hold :=
  ⟨decide (s.mutex = some t), decide (t ∈ s.failedCreates)⟩

theorem lock_harmless (owns : Bool) (o : Op) (plain : o.Plain) :
    lockProtocol.allowed o ⟨owns, false⟩ ∧ ∀ a, lockProtocol.next o a ⟨owns, false⟩ = ⟨owns, false⟩ := by
  cases o <;> first | exact plain.elim | exact ⟨⟨rfl, trivial⟩, fun a => rfl⟩

/-- After the creation loop: refused at the first error, and only then. -/
def createdLock (r : Hold) : Except Int (List PerfEvent) → Prop
  | .error _ => r = ⟨true, true⟩
  | .ok _ => r = ⟨true, false⟩

theorem createEvents_locks (pid : Nat) (codes : List (BitVec 32)) (events : List PerfEvent) :
    (createEvents pid codes events).Follows lockProtocol createdLock ⟨true, false⟩ := by
  induction codes generalizing events with
  | nil => rfl
  | cons code codes ih =>
      simp only [createEvents, perfEventCreateKernelCounter, call, Prog.call_bind, Prog.ret_bind,
        Prog.follows_call]
      refine ⟨⟨rfl, trivial⟩, ?_⟩
      intro made _
      cases made with
      | error err => rfl
      | ok ev => exact ih _

theorem readEvents_locks (events : List PerfEvent) (values : List U64) :
    (readEvents events values).Follows lockProtocol (fun r _ => r = ⟨true, false⟩)
      ⟨true, false⟩ := by
  induction events generalizing values with
  | nil => rfl
  | cons ev events ih =>
      simp only [readEvents, readPerfCounter, perfEventReadValue, perfEventReleaseKernel, call,
        Prog.call_bind, Prog.ret_bind, Prog.follows_call]
      exact ⟨⟨rfl, trivial⟩, fun value _ => ⟨⟨rfl, trivial⟩, fun _ _ => ih _⟩⟩

theorem preHandler_locks (regs : PtRegs) :
    (preHandler regs).Follows lockProtocol returnsLock ⟨false, false⟩ := by
  simp only [preHandler, taskPidNrCurrent, mutexLock, getTargetPid, call, Prog.call_bind,
    Prog.ret_bind, Prog.follows_call]
  refine ⟨⟨rfl, trivial⟩, fun pid _ => ⟨⟨rfl, rfl⟩, fun _ _ => ⟨⟨rfl, trivial⟩, ?_⟩⟩⟩
  intro target _
  split
  · rw [Prog.follows_bind]
    apply (createEvents_locks pid eventCodes []).mono
    intro r made ends
    cases made with
    | error err =>
        obtain rfl : r = ⟨true, true⟩ := ends
        rfl
    | ok events =>
        obtain rfl : r = ⟨true, false⟩ := ends
        show ((readEvents events []) >>= _).Follows lockProtocol returnsLock _
        rw [Prog.follows_bind]
        apply (readEvents_locks events []).mono
        intro r values read
        obtain rfl := read
        rw [Prog.follows_bind]
        apply (updateCounters_plain _ _).follows (lock_harmless true)
        intro _
        exact ⟨⟨rfl, rfl⟩, fun _ _ => rfl⟩
  · exact ⟨⟨rfl, rfl⟩, fun _ _ => rfl⟩

theorem setTarget_locks (pid : Int) (count : Nat) :
    (do
        mutexLock
        setTargetPid pid
        mutexUnlock
        return count : Code Int).Follows lockProtocol returnsLock ⟨false, false⟩ :=
  ⟨⟨rfl, rfl⟩, fun _ _ => ⟨⟨rfl, trivial⟩, fun _ _ => ⟨⟨rfl, rfl⟩, fun _ _ => rfl⟩⟩⟩

theorem commandHandler_locks (count : Nat) :
    (commandHandler count).Follows lockProtocol returnsLock ⟨false, false⟩ := by
  refine commandHandler_follows count (fun _ => rfl) ⟨⟨rfl, trivial⟩, fun _ => rfl⟩
    ⟨⟨rfl, trivial⟩, fun _ => rfl⟩ (fun pid => setTarget_locks pid count) fun pid => ?_
  exact (writeKinfoToFile_plain pid).follows (lock_harmless false) fun _ => setTarget_locks (-1) count

theorem handlers_lock (i : Invocation) :
    i.code.Follows lockProtocol returnsLock ⟨false, false⟩ := by
  cases i with
  | write e => exact commandHandler_locks _
  | hit e regs => exact preHandler_locks regs

/-! ## The kernel moves a thread's hold along the protocol -/

section Kernel

variable {t : Tid} {e : Env} {s s' : State}

theorem hold_congr (mutex : s'.mutex = s.mutex) (refused : s'.failedCreates = s.failedCreates)
    (u : Tid) : s'.hold u = s.hold u := by
  rw [State.hold, mutex, refused, State.hold]

theorem lock_next (r : Hold) {o : Op} (plain : o.Plain) (a : o.Ans) : lockProtocol.next o a r = r := by
  cases o <;> first | exact plain.elim | rfl

theorem lock_tracks (t : Tid) (e : Env) :
    Tracks lockProtocol (kernel t e) (fun _ => True) fun s => s.hold t where
  keeps _ _ := trivial
  possible _ _ := trivial
  next {o s a s'} _ answered := by
    rcases op_cases o with plain | rfl | rfl | ⟨attr, cpu, task, rfl⟩ | ⟨ev, rfl⟩
    · have same := kernel_plain plain answered
      rw [lock_next _ plain a, hold_congr same.mutex same.failedCreates]
    · obtain ⟨-, rfl⟩ := kernel_mutexLock answered
      simp [State.hold, lockProtocol]
    · obtain ⟨-, rfl⟩ := kernel_mutexUnlock answered
      simp [State.hold, lockProtocol]
    · rcases kernel_create answered with ⟨err, rfl, rfl⟩ | ⟨ev, rfl, -, rfl⟩
      · simp [State.hold, lockProtocol]
      · rfl
    · rw [kernel_release answered]
      rfl

/-- A call of one thread leaves the hold of every other thread as it is. -/
theorem hold_apart {t u : Tid} {e : Env} {o : Op} {s s' : State} {a : o.Ans} (other : u ≠ t)
    (answered : kernel t e o s = .done a s') : s'.hold u = s.hold u := by
  rcases op_cases o with plain | rfl | rfl | ⟨attr, cpu, task, rfl⟩ | ⟨ev, rfl⟩
  · have same := kernel_plain plain answered
    exact hold_congr same.mutex same.failedCreates u
  · obtain ⟨free, rfl⟩ := kernel_mutexLock answered
    simp [State.hold, free, Ne.symm other]
  · obtain ⟨owned, rfl⟩ := kernel_mutexUnlock answered
    simp [State.hold, owned, Ne.symm other]
  · rcases kernel_create answered with ⟨err, -, rfl⟩ | ⟨ev, -, -, rfl⟩
    · simp [State.hold, other]
    · rfl
  · rw [kernel_release answered]
    rfl

end Kernel

theorem poolAfter_locks (events : List Event) :
    (poolAfter events).Obeys lockProtocol returnsLock (fun _ => True) State.hold ⟨false, false⟩ := by
  refine Pool.run_obeys lock_tracks hold_apart (fun w => nomatch w) (fun thread started => ?_) ?_
  · obtain ⟨i, code⟩ := spawn_code started
    rw [code]
    exact handlers_lock i
  · exact ⟨trivial, fun t thread found => by simp [loaded] at found, fun t _ => rfl⟩

/-! ## Lock discipline -/

/-- No thread locks twice, a thread that has returned has unlocked, and the mutex is
free when no handler is under way. -/
structure LockDiscipline (c : Handlers) : Prop where
  once : ∀ t e k, c.threads[t]? = some ⟨e, .call (S := sig) .mutexLock k⟩ →
    c.shared.mutex ≠ some t
  released : ∀ t, c.Returned t → c.shared.mutex ≠ some t
  idle : c.Idle → c.shared.mutex = none

/-- A thread to which an event was refused has returned with the mutex in its hands. -/
theorem refused_keeps_lock (events : List Event) {t : Tid}
    (refused : t ∈ (poolAfter events).shared.failedCreates) :
    (poolAfter events).Returned t ∧ (poolAfter events).shared.mutex = some t := by
  have obeys := poolAfter_locks events
  have seen : ((poolAfter events).shared.hold t).refused = true := by simpa [State.hold] using refused
  have inside : t < (poolAfter events).threads.length := by
    by_contra beyond
    rw [obeys.unused t (Nat.le_of_not_lt beyond)] at seen
    cases seen
  obtain ⟨⟨e, p⟩, found⟩ : ∃ thread, (poolAfter events).threads[t]? = some thread :=
    ⟨_, List.getElem?_eq_getElem inside⟩
  have follows := obeys.follows t _ found
  cases p with
  | call o k => simp [follows.1.1] at seen
  | ret a =>
      have owns : ((poolAfter events).shared.hold t).owns = true := by
        rw [show _ = _ from follows]
        exact seen
      exact ⟨⟨e, a, found⟩, by simpa [State.hold] using owns⟩

theorem discipline_of_none_refused {events : List Event}
    (granted : (poolAfter events).shared.failedCreates = []) : LockDiscipline (poolAfter events) := by
  have obeys := poolAfter_locks events
  have released : ∀ t, (poolAfter events).Returned t → (poolAfter events).shared.mutex ≠ some t := by
    rintro t ⟨e, a, found⟩ owns
    have balanced : ((poolAfter events).shared.hold t).owns =
        ((poolAfter events).shared.hold t).refused := obeys.returned found
    simp [State.hold, owns, granted] at balanced
  refine ⟨fun t e k found owns => ?_, released, fun idle => ?_⟩
  · have free : ((poolAfter events).shared.hold t).owns = false := (obeys.follows t _ found).1.2
    simp [State.hold, owns] at free
  · cases owner : (poolAfter events).shared.mutex with
    | none => rfl
    | some t =>
        have inside : t < (poolAfter events).threads.length := by
          by_contra beyond
          have fresh := congrArg Hold.owns (obeys.unused t (Nat.le_of_not_lt beyond))
          simp [State.hold, owner] at fresh
        exact absurd owner (released t (idle t inside))

/-- **Lock discipline**: it holds throughout a run if and only if the kernel refuses no
performance event in it. -/
theorem lock_discipline_iff (events : List Event) :
    (∀ n, LockDiscipline (poolAfter (events.take n))) ↔
      (poolAfter events).shared.failedCreates = [] := by
  constructor
  · intro discipline
    have last := discipline events.length
    rw [List.take_length] at last
    apply List.eq_nil_iff_forall_not_mem.mpr
    intro t refused
    obtain ⟨returned, owns⟩ := refused_keeps_lock events refused
    exact last.released t returned owns
  · intro granted n
    apply discipline_of_none_refused
    have grown := (poolAfter_grows events n).1
    rw [granted] at grown
    exact List.suffix_nil.mp grown

/-- A session for process 5, and a switch to it on which the first event is refused. -/
def refusedSwitch : List Event :=
  [.start (.write (.echo "start_pid 5\n".toList)), .step 0, .step 0, .step 0, .step 0,
    .start (.hit { Env.switchTo 5 0 with create := fun _ _ _ => some (-19) }
      ⟨fun _ => 16, 0⟩),
    .step 1, .step 1, .step 1, .step 1]

theorem lock_kept_after_refusal :
    ¬∀ (events : List Event) n, LockDiscipline (poolAfter (events.take n)) := by
  intro discipline
  have refused : (poolAfter refusedSwitch).shared.failedCreates = [1] := by rfl
  obtain ⟨returned, owns⟩ := refused_keeps_lock refusedSwitch (t := 1)
    (by rw [refused]; exact List.mem_cons_self)
  have last := discipline refusedSwitch refusedSwitch.length
  rw [List.take_length] at last
  exact last.released 1 returned owns

end Dreamscape.Monitor
