/-
# Modules.MessageLock -- buffer_lock under context switches

`message_read` copies to user memory inside its section; the copy may fault, and then
another task is switched in on the CPU.  The switch enters `hello_switch`, which takes the
same lock if the pid of the new task is `target_pid`, and spins.

Writers, readers and switches run on any number of CPUs.  Everywhere else in a section a
thread keeps its CPU, so what `hello_switch` finds on its own CPU is decided when it
compares the pids (`never_self_deadlocks_iff`).
-/
import Dreamscape.Modules.Handlers
import Dreamscape.MonitorV2.Context
import Dreamscape.Theory.Cpus

namespace Dreamscape.Modules

set_option autoImplicit false

open Theory Kernel MonitorV2

/-! ## Runs on CPUs -/

def returning {α : Type} (p : Code α) : Code Unit := do
  let _ ← p
  return ()

def undisturbed (w : Empty) : State → State := nomatch w

def Op.copies : Op → Bool
  | .copyToUser _ => true
  | _ => false

abbrev Threads := Pool sig Env State Unit

/-- The thread is copying to user memory. -/
def Copying (c : Threads) (t : Tid) : Prop := ∃ o, c.next t = some o ∧ Op.copies o = true

instance (c : Threads) (t : Tid) : Decidable (Copying c t) :=
  decidable_of_iff (∃ o ∈ c.next t, Op.copies o = true) Iff.rfl

/-- A thread keeps its CPU while it holds the lock, unless its copy faults. -/
def mayLeave (c : Threads) (t : Tid) : Bool := decide (c.shared.bufferLock ≠ some t ∨ Copying c t)

section Machine

variable {n : Nat}

inductive Move (n : Nat) where
  | write (cpu : Fin n) (env : Env)
  | read (cpu : Fin n) (env : Env) (count : Nat) (ppos : Int)
  | step (cpu : Fin n)
  | switch (cpu : Fin n) (next : Option Tid) (env : Env)

def Move.action (m : Module) : Move n → Cpus.Action n sig Env Empty Unit
  | .write cpu env => .call cpu ⟨env, returning (m.pidWrite env.userBuf.length)⟩
  | .read cpu env count ppos => .call cpu ⟨env, returning (m.messageRead count ppos)⟩
  | .step cpu => .step cpu
  | .switch cpu next env => .switch cpu next ⟨env, returning m.helloSwitch⟩

abbrev Machine (n : Nat) := Cpus n sig Env State Unit

def idleCpus (n : Nat) : Machine n := ⟨⟨.initial, []⟩, fun _ => none, fun _ => none, fun _ => none⟩

def onCpus (m : Module) (moves : List (Move n)) : Machine n :=
  Cpus.run kernel undisturbed mayLeave (idleCpus n) (moves.map (Move.action m))

theorem onCpus_append (m : Module) (moves : List (Move n)) (move : Move n) :
    onCpus m (moves ++ [move]) =
      (onCpus m moves).step kernel undisturbed mayLeave (move.action m) := by
  rw [onCpus, List.map_append, Cpus.run_append]
  rfl

/-! ## What is to be proved -/

/-- The probe on the CPU waits for the lock, and a thread that was switched out there holds
it. -/
def SelfDeadlocked (c : Machine n) (cpu : Fin n) : Prop :=
  ∃ t u, c.handler cpu = some t ∧ c.pool.next t = some .spinLock ∧
    c.pool.shared.bufferLock = some u ∧ c.left u = some cpu

/-- A reader was switched out on the CPU in the middle of its copy. -/
def ReaderOut (c : Machine n) (cpu : Fin n) : Prop := ∃ u, c.left u = some cpu ∧ Copying c.pool u

/-- `hello_switch` once it has read the target for the first time, and found it. -/
def announce : Code Int := do
  spinLock
  let targetPid ← getTargetPid
  setMessage (("hello world ".toList ++ formatInt targetPid ++ ['\n']).take 511)
  spinUnlock
  return 0

/-- `hello_switch` for a task `pid`, where it compares. -/
def comparison (pid : Nat) : Code Int := do
  if (pid : Int) = (← getTargetPid) then announce else return 0

theorem helloSwitch_compares : helloSwitch = (do comparison (← currentPid)) := rfl

/-- The probe on the CPU is about to compare, and the task switched in is the target. -/
def Matches (c : Machine n) (cpu : Fin n) : Prop :=
  ∃ t e, c.handler cpu = some t ∧ c.pool.threads[t]? = some ⟨e, returning (comparison e.currentPid)⟩ ∧
    (e.currentPid : Int) = c.pool.shared.holdings.targetPid

/-! ## Where a probe stands -/

inductive SwitchAt (pid : Nat) : Code Unit → Prop
  | entered : SwitchAt pid (returning helloSwitch)
  | compares : SwitchAt pid (returning (comparison pid))
  | locks : SwitchAt pid (returning announce)
  | beyond {p : Code Unit} (only : p.Only fun o : Op => o ≠ .spinLock) : SwitchAt pid p

theorem switchAt_spins {pid : Nat} {k : Unit → Code Unit}
    (stands : SwitchAt pid (.call (S := sig) .spinLock k)) :
    (.call (S := sig) .spinLock k : Code Unit) = returning announce := by
  generalize whole : (.call (S := sig) .spinLock k : Code Unit) = p at stands
  cases stands with
  | entered => cases whole
  | compares => cases whole
  | locks => rfl
  | beyond only =>
      subst whole
      exact absurd rfl only.1

theorem switchAt_step {t : Tid} {e : Env} {o : Op} {k : o.Ans → Code Unit} {a : o.Ans} {s s' : State}
    (stands : SwitchAt e.currentPid (.call (S := sig) o k)) (answered : kernel t e o s = .done a s') :
    SwitchAt e.currentPid (k a) ∧ (k a = returning announce →
      (.call (S := sig) o k : Code Unit) = returning (comparison e.currentPid) ∧
        (e.currentPid : Int) = s.holdings.targetPid) := by
  have spins : (.call (S := sig) o k : Code Unit).Only (fun o : Op => o ≠ .spinLock) → ∀ b,
      SwitchAt e.currentPid (k b) ∧ k b ≠ returning announce := by
    intro only b
    refine ⟨.beyond (only.2 b), fun same => ?_⟩
    have onward := only.2 b
    rw [same] at onward
    exact absurd rfl onward.1
  generalize whole : (.call (S := sig) o k : Code Unit) = p at stands
  cases stands with
  | entered =>
      cases whole
      cases answered
      refine ⟨.compares, fun same => ?_⟩
      cases same
  | compares =>
      change (.call (S := sig) o k : Code Unit) = .call (S := sig) .targetPid fun target =>
        returning (if (e.currentPid : Int) = target then announce else return 0) at whole
      cases whole
      cases answered
      beta_reduce
      by_cases found : (e.currentPid : Int) = s.holdings.targetPid
      · rw [if_pos found]
        exact ⟨.locks, fun _ => ⟨rfl, found⟩⟩
      · rw [if_neg found]
        refine ⟨.beyond trivial, fun same => ?_⟩
        cases same
  | locks =>
      cases whole
      refine ⟨.beyond ?_, fun same => ?_⟩
      · simp [Prog.bind]
      · cases same
  | beyond only =>
      subst whole
      exact ⟨(spins only a).1, fun same => absurd same (spins only a).2⟩

/-! ## Runs -/

theorem testPidWrite_level (count : Nat) : (TestModule.pidWrite count).Only Op.Level := by
  have silent : Module.testModule.monitors.Only Op.Level := trivial
  exact storePid_only count trivial (fun _ => trivial) silent

theorem pidWrite_keeps (m : Module) (count : Nat) :
    (m.pidWrite count).Follows contexts (fun r _ => r = .zero) .zero := by
  cases m with
  | cacheKprobeMonitorV2 => exact pidWrite_contexts count .zero
  | testModule => exact level_follows (fun _ => rfl) (testPidWrite_level count)

theorem returning_keeps {α : Type} {p : Code α}
    (keeps : p.Follows contexts (fun r _ => r = .zero) .zero) :
    (returning p).Follows contexts (fun r _ => r = .zero) .zero := by
  rw [returning, Prog.follows_bind]
  exact keeps.mono fun r a zero => zero

/-- Every thread keeps to its depth, on whatever CPUs they run. -/
theorem onCpus_contexts (m : Module) (moves : List (Move n)) :
    (onCpus m moves).pool.Relies contexts (fun r _ => r = .zero) (fun _ => True)
      (fun s t r => s.depth t = r) .zero := by
  obtain ⟨actions, ran, started⟩ := Cpus.run_pool kernel undisturbed mayLeave (idleCpus n)
    (moves.map (Move.action m))
  rw [onCpus, ran]
  refine Pool.run_relies ?_ ?_ (fun w => w.elim) ?_ ⟨trivial, ?_, fun t _ => rfl⟩
  · rintro t e o s a s' r - rfl _ answered
    exact ⟨trivial, trivial, depth_own answered⟩
  · rintro t u e o s a s' r q other rfl allowed answered rfl
    exact depth_apart other allowed answered
  · intro thread member
    obtain ⟨action, made, starts⟩ := started thread member
    obtain ⟨move, -, rfl⟩ := List.mem_map.mp made
    cases move with
    | write cpu env =>
        cases starts
        exact returning_keeps (pidWrite_keeps m _)
    | read cpu env count ppos =>
        cases starts
        rw [m.messageRead_eq]
        exact returning_keeps (messageRead_contexts count ppos rfl)
    | step cpu => cases starts
    | switch cpu next env =>
        cases starts
        rw [m.helloSwitch_eq]
        exact returning_keeps (helloSwitch_contexts rfl)
  · intro t thread found
    cases found

theorem idleCpus_placed : (idleCpus n).Placed := by
  constructor <;> intros <;> contradiction

theorem onCpus_placed (m : Module) (moves : List (Move n)) : (onCpus m moves).Placed :=
  Cpus.run_invariant (I := Cpus.Placed) kernel undisturbed mayLeave
    (fun a _ _ placed => Cpus.step_placed placed a) idleCpus_placed

/-! ## Out of a section -/

/-- Only its own calls give a thread the lock. -/
theorem step_lock {m : Module} {moves : List (Move n)} {move : Move n} {u : Tid}
    (unstepped : ¬∃ cpu, move.action m = .step cpu ∧ (onCpus m moves).top cpu = some u)
    (locked : (onCpus m (moves ++ [move])).pool.shared.bufferLock = some u) :
    (onCpus m moves).pool.shared.bufferLock = some u := by
  rw [onCpus_append] at locked
  have relies := onCpus_contexts m moves
  cases move with
  | write cpu env =>
      rw [Move.action, Cpus.step] at locked
      split at locked <;> exact locked
  | read cpu env count ppos =>
      rw [Move.action, Cpus.step] at locked
      split at locked <;> exact locked
  | step cpu =>
      rw [Move.action, Cpus.step] at locked
      cases top : (onCpus m moves).top cpu with
      | none =>
          rw [top] at locked
          exact locked
      | some t =>
          rw [top] at locked
          replace locked : ((onCpus m moves).pool.advance kernel t).shared.bufferLock = some u := locked
          have other : u ≠ t := by
            rintro rfl
            exact unstepped ⟨cpu, rfl, top⟩
          rcases Pool.advance_cases (h := kernel) (onCpus m moves).pool t with
            same | ⟨e, o, k, a, s', found, answered, moved⟩
          · rwa [same] at locked
          · rw [moved] at locked
            obtain ⟨r, rfl, follows⟩ := relies.follows t _ found
            have same := congrArg Depth.lock (depth_apart other follows.1 answered)
            exact of_decide_eq_true (same.symm.trans (decide_eq_true locked))
  | switch cpu next env =>
      rw [Move.action, Cpus.step] at locked
      split at locked <;> exact locked

/-- A thread that was switched out with the lock is in its copy. -/
theorem out_copying (m : Module) (moves : List (Move n)) :
    ∀ u cpu, (onCpus m moves).left u = some cpu →
      (onCpus m moves).pool.shared.bufferLock = some u → Copying (onCpus m moves).pool u := by
  induction moves using List.reverseRecOn with
  | nil =>
      intro u cpu out
      cases out
  | append_singleton moves move ih =>
      intro u cpu out locked
      have placed := onCpus_placed m moves
      have still : ∀ inside : u < (onCpus m moves).pool.threads.length,
          (¬∃ cpu', move.action m = .step cpu' ∧ (onCpus m moves).top cpu' = some u) →
          Copying (onCpus m moves).pool u → Copying (onCpus m (moves ++ [move])).pool u := by
        intro inside unstepped copying
        rw [onCpus_append, Copying, (Cpus.step_next _ inside).resolve_right unstepped]
        exact copying
      have left := out
      rw [onCpus_append] at left
      rcases Cpus.step_left _ left with ⟨before, unstepped⟩ | ⟨next, handler, switch, may, running⟩
      · exact still (placed.departed before) unstepped (ih u cpu before (step_lock unstepped locked))
      · have unstepped : ¬∃ cpu', move.action m = .step cpu' ∧ (onCpus m moves).top cpu' = some u := by
          rintro ⟨cpu', step, -⟩
          rw [switch] at step
          cases step
        refine still (placed.running running) unstepped ?_
        rcases of_decide_eq_true (may.2.1 u running) with free | copying
        · exact absurd (step_lock unstepped locked) free
        · exact copying

/-! ## The probe under way -/

/-- A thread stands where it stood, or its own CPU has let it make its next call. -/
theorem thread_moves (m : Module) {moves : List (Move n)} (move : Move n) {t : Tid} {e : Env}
    {p : Code Unit} (found : (onCpus m moves).pool.threads[t]? = some ⟨e, p⟩) :
    (onCpus m (moves ++ [move])).pool.threads[t]? = some ⟨e, p⟩ ∨
      ∃ cpu o k a s', move = .step cpu ∧ (onCpus m moves).top cpu = some t ∧ p = .call (S := sig) o k ∧
        kernel t e o (onCpus m moves).pool.shared = .done a s' ∧
        (onCpus m (moves ++ [move])).pool = ⟨s', (onCpus m moves).pool.threads.set t ⟨e, k a⟩⟩ := by
  rw [onCpus_append]
  rcases Cpus.step_stays (move.action m) found with same | ⟨cpu, steps, top⟩
  · exact Or.inl same
  · obtain rfl : move = .step cpu := by
      cases move <;> cases steps
      rfl
    have moved : ((onCpus m moves).step kernel undisturbed mayLeave (.step cpu)).pool =
        (onCpus m moves).pool.advance kernel t := by
      rw [Cpus.step_top top]
    rcases Pool.advance_cases (h := kernel) (onCpus m moves).pool t with
      same | ⟨e', o, k, a, s', found', answered, onward⟩
    · refine Or.inl ?_
      show ((onCpus m moves).step kernel undisturbed mayLeave (.step cpu)).pool.threads[t]? = _
      rw [moved, same]
      exact found
    · rw [found] at found'
      cases found'
      exact Or.inr ⟨cpu, o, k, a, s', rfl, top, rfl, answered, moved.trans onward⟩

/-- The probe stands somewhere in `hello_switch`. -/
theorem handler_at (m : Module) (moves : List (Move n)) :
    ∀ cpu t, (onCpus m moves).handler cpu = some t → ∃ e p,
      (onCpus m moves).pool.threads[t]? = some ⟨e, p⟩ ∧ SwitchAt e.currentPid p := by
  induction moves using List.reverseRecOn with
  | nil =>
      intro cpu t handles
      cases handles
  | append_singleton moves move ih =>
      intro cpu t handles
      have entered := handles
      rw [onCpus_append] at entered
      rcases Cpus.step_handler _ entered with before | ⟨next, handler, switch, found⟩
      · obtain ⟨e, p, found, stands⟩ := ih cpu t before
        rcases thread_moves m move found with same | ⟨cpu', o, k, a, s', -, -, rfl, answered, moved⟩
        · exact ⟨e, p, same, stands⟩
        · refine ⟨e, k a, ?_, (switchAt_step stands answered).1⟩
          rw [moved]
          exact List.getElem?_set_self (List.getElem?_eq_some_iff.mp found).1
      · cases move <;> cases switch
        rw [← onCpus_append, m.helloSwitch_eq] at found
        exact ⟨_, _, found, .entered⟩

/-- While a probe is under way on the CPU, no reader goes out there. -/
theorem reader_out_before {m : Module} {moves : List (Move n)} {move : Move n} {cpu : Fin n}
    (handling : (onCpus m moves).Handling cpu) (out : ReaderOut (onCpus m (moves ++ [move])) cpu) :
    ReaderOut (onCpus m moves) cpu := by
  obtain ⟨u, left, copying⟩ := out
  rw [onCpus_append] at left copying
  rcases Cpus.step_left _ left with ⟨before, unstepped⟩ | ⟨next, handler, -, may, -⟩
  · refine ⟨u, before, ?_⟩
    have inside := (onCpus_placed m moves).departed before
    rwa [Copying, (Cpus.step_next _ inside).resolve_right unstepped] at copying
  · exact absurd handling may.1

/-- No reader is switched out in its copy on a CPU whose probe compares and finds the
target. -/
def Quiet (m : Module) (moves : List (Move n)) : Prop :=
  ∀ before cpu, before ++ [.step cpu] <+: moves → Matches (onCpus m before) cpu →
    ¬ReaderOut (onCpus m before) cpu

theorem announced_clear {m : Module} {moves : List (Move n)} (quiet : Quiet m moves) :
    ∀ cpu t e, (onCpus m moves).handler cpu = some t →
      (onCpus m moves).pool.threads[t]? = some ⟨e, returning announce⟩ →
      ¬ReaderOut (onCpus m moves) cpu := by
  induction moves using List.reverseRecOn with
  | nil =>
      intro cpu t e handles
      cases handles
  | append_singleton moves move ih =>
      intro cpu t e handles announces out
      have earlier : Quiet m moves := fun before cpu step =>
        quiet before cpu (step.trans (List.prefix_append _ _))
      have entered := handles
      rw [onCpus_append] at entered
      rcases Cpus.step_handler _ entered with before | ⟨next, handler, switch, found⟩
      · obtain ⟨e', p, found, stands⟩ := handler_at m moves cpu t before
        have underway : ∀ {o k}, p = .call (S := sig) o k → (onCpus m moves).Handling cpu := by
          rintro o k rfl
          refine ⟨t, before, ?_⟩
          rintro ⟨e₁, a, returned⟩
          rw [found] at returned
          cases returned
        rcases thread_moves m move found with same | ⟨cpu', o, k, a, s', rfl, top, rfl, answered, moved⟩
        · rw [announces] at same
          cases same
          exact ih earlier cpu t e before found (reader_out_before (underway rfl) out)
        · rw [moved, List.getElem?_set_self (List.getElem?_eq_some_iff.mp found).1] at announces
          rw [Option.some.injEq, Thread.mk.injEq] at announces
          obtain ⟨-, announces⟩ := announces
          obtain ⟨compared, matched⟩ := (switchAt_step stands answered).2 announces
          obtain rfl := (onCpus_placed m moves).top_handler before top
          rw [compared] at found
          exact quiet moves cpu' List.prefix_rfl ⟨t, e', before, found, matched⟩
            (reader_out_before (underway rfl) out)
      · cases move <;> cases switch
        rw [← onCpus_append, m.helloSwitch_eq, announces] at found
        cases found

/-- A thread in its copy holds the lock. -/
theorem copying_locked {m : Module} {moves : List (Move n)} {u : Tid}
    (copying : Copying (onCpus m moves).pool u) :
    (onCpus m moves).pool.shared.bufferLock = some u := by
  obtain ⟨o, next, copies⟩ := copying
  obtain ⟨r, rfl, allowed⟩ := (onCpus_contexts m moves).allowed next
  cases o <;> first | exact Bool.noConfusion copies | exact of_decide_eq_true allowed

/-- **The message lock never self-deadlocks** in a run if and only if, wherever the probe
compares on a CPU and finds the target, no reader was switched out there in its copy. -/
theorem never_self_deadlocks_iff (m : Module) (moves : List (Move n)) :
    (∀ before, before <+: moves → ∀ cpu, ¬SelfDeadlocked (onCpus m before) cpu) ↔
      Quiet m moves := by
  constructor
  · rintro never before cpu step ⟨t, e, handles, found, matched⟩ ⟨u, left, copying⟩
    have locked := copying_locked copying
    have inside := (List.getElem?_eq_some_iff.mp found).1
    have handling : (onCpus m before).Handling cpu := by
      refine ⟨t, handles, ?_⟩
      rintro ⟨e', a, returned⟩
      rw [found] at returned
      cases returned
    have top : (onCpus m before).top cpu = some t := (if_pos handling).trans handles
    have compared : (onCpus m before).pool.advance kernel t =
        ⟨(onCpus m before).pool.shared,
          (onCpus m before).pool.threads.set t ⟨e, returning announce⟩⟩ := by
      unfold Pool.advance
      rw [found]
      show (⟨_, (onCpus m before).pool.threads.set t ⟨e, returning
        (if (e.currentPid : Int) = (onCpus m before).pool.shared.holdings.targetPid then announce
          else return 0)⟩⟩ : Threads) = _
      rw [if_pos matched]
    have other : u ≠ t := by
      rintro rfl
      rw [(onCpus_placed m before).stays handles] at left
      cases left
    apply never _ step cpu
    rw [onCpus_append, Move.action, Cpus.step_top top]
    refine ⟨t, u, handles, ?_, ?_, ?_⟩
    · rw [compared, Pool.next, List.getElem?_set_self inside]
      rfl
    · rw [compared]
      exact locked
    · exact (Function.update_of_ne other _ _).trans left
  · rintro quiet before earlier cpu ⟨t, u, handles, spins, locked, out⟩
    obtain ⟨e, p, found, stands⟩ := handler_at m before cpu t handles
    obtain ⟨e', k, found'⟩ := Pool.next_iff.mp spins
    rw [found] at found'
    cases found'
    rw [switchAt_spins stands] at found
    refine announced_clear (fun before' cpu' step => quiet before' cpu' (step.trans earlier))
      cpu t e handles found ⟨u, out, out_copying m before u cpu out locked⟩

end Machine

/-- On one CPU: the pid 5 is written, a task 5 is switched in, and a reader's copy of its
message faults; then task 5 is switched in again. -/
def faultingReader : List (Move 1) :=
  .write 0 { Env.echo "5\n".toList with findTask := fun _ => none } :: List.replicate 6 (.step 0) ++
    .switch 0 none { Env.quiet with currentPid := 5 } :: List.replicate 6 (.step 0) ++
    .read 0 .quiet 511 0 :: List.replicate 2 (.step 0) ++
    .switch 0 none { Env.quiet with currentPid := 5 } :: List.replicate 2 (.step 0)

theorem faultingReader_deadlocks (m : Module) : SelfDeadlocked (onCpus m faultingReader) 0 := by
  cases m
  · exact ⟨3, 2, rfl, rfl, rfl, rfl⟩
  · exact ⟨3, 2, rfl, rfl, rfl, rfl⟩

theorem probe_spins_on_reader :
    ¬∀ (m : Module) (n : Nat) (moves before : List (Move n)), before <+: moves →
      ∀ cpu, ¬SelfDeadlocked (onCpus m before) cpu := by
  intro never
  exact never .cacheKprobeMonitorV2 1 faultingReader faultingReader List.prefix_rfl 0
    (faultingReader_deadlocks .cacheKprobeMonitorV2)

end Dreamscape.Modules
