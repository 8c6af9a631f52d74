/-
# Theory.Cpus -- a pool on processors

Each of `n` CPUs runs a thread of the pool, or a task that is no thread of it.  A context
switch takes the running thread off the CPU, puts one that waits or none in its place, and
enters a handler: until the handler has returned nothing else goes on there, and the CPU
does not switch.  Where a thread can be switched out is a parameter (`mayLeave`).

Every run of the processors is a run of the pool (`run_pool`), so what holds in every
schedule of the threads holds on any number of CPUs.
-/
import Dreamscape.Theory.Pool
import Mathlib.Data.List.Induction
import Mathlib.Logic.Function.Basic

namespace Dreamscape.Theory

set_option autoImplicit false

/-- `current` is the thread a CPU runs, under the handler entered on its last switch;
`left` is the CPU a thread was switched out on, until it goes on or is switched in on
another. -/
structure Cpus (n : Nat) (S : Sig) (E σ α : Type) where
  pool : Pool S E σ α
  current : Fin n → Option Nat
  handler : Fin n → Option Nat
  left : Nat → Option (Fin n)

namespace Cpus

variable {n : Nat} {S : Sig} {F E W σ α : Type}

inductive Action (n : Nat) (S : Sig) (E W α : Type) where
  /-- The task that runs on the CPU begins a thread. -/
  | call (cpu : Fin n) (thread : Thread S E α)
  | step (cpu : Fin n)
  | switch (cpu : Fin n) (next : Option Nat) (handler : Thread S E α)
  | world (w : W)

/-- The thread an action starts. -/
def Action.starts : Action n S E W α → Option (Thread S E α)
  | .call _ thread => some thread
  | .switch _ _ handler => some handler
  | .step _ | .world _ => none

/-- The handler on the CPU is under way. -/
def Handling (c : Cpus n S E σ α) (cpu : Fin n) : Prop :=
  ∃ t, c.handler cpu = some t ∧ ¬c.pool.Returned t

instance (c : Cpus n S E σ α) (cpu : Fin n) : Decidable (c.Handling cpu) :=
  decidable_of_iff (∃ t ∈ c.handler cpu, ¬c.pool.Returned t) Iff.rfl

/-- The thread that goes on when the CPU does. -/
def top (c : Cpus n S E σ α) (cpu : Fin n) : Option Nat :=
  if c.Handling cpu then c.handler cpu else c.current cpu

/-- The thread has been switched out and is on no CPU. -/
def Waiting (c : Cpus n S E σ α) (t : Nat) : Prop :=
  (c.left t).isSome ∧ ∀ cpu, c.current cpu ≠ some t

/-- A task outside the pool, or done with it, runs on the CPU. -/
def MayCall (c : Cpus n S E σ α) (cpu : Fin n) : Prop :=
  ¬c.Handling cpu ∧ ∀ t ∈ c.current cpu, c.pool.Returned t

instance (c : Cpus n S E σ α) (t : Nat) : Decidable (c.Waiting t) :=
  inferInstanceAs (Decidable (_ ∧ _))

instance (c : Cpus n S E σ α) (cpu : Fin n) : Decidable (c.MayCall cpu) :=
  inferInstanceAs (Decidable (_ ∧ _))

/-- Note where the outgoing thread was switched out. -/
def depart (left : Nat → Option (Fin n)) (cpu : Fin n) : Option Nat → Nat → Option (Fin n)
  | none => left
  | some t => Function.update left t (some cpu)

/-- Forget where the incoming thread was switched out, unless it was here. -/
def arrive (left : Nat → Option (Fin n)) (cpu : Fin n) : Option Nat → Nat → Option (Fin n)
  | none => left
  | some t => if left t = some cpu then left else Function.update left t none

theorem arrive_some {left : Nat → Option (Fin n)} {cpu cpu' : Fin n} {next : Option Nat} {t : Nat}
    (found : arrive left cpu next t = some cpu') : left t = some cpu' := by
  cases next with
  | none => exact found
  | some u =>
      replace found : (if left u = some cpu then left else Function.update left u none) t = some cpu' :=
        found
      split at found
      · exact found
      · by_cases same : t = u
        · subst same
          rw [Function.update_self] at found
          cases found
        · rwa [Function.update_of_ne same] at found

theorem depart_some {left : Nat → Option (Fin n)} {cpu cpu' : Fin n} {current : Option Nat} {t : Nat}
    (found : depart left cpu current t = some cpu') :
    (current = some t ∧ cpu' = cpu) ∨ left t = some cpu' := by
  cases current with
  | none => exact Or.inr found
  | some u =>
      replace found : Function.update left u (some cpu) t = some cpu' := found
      by_cases same : t = u
      · subst same
        rw [Function.update_self] at found
        cases found
        exact Or.inl ⟨rfl, rfl⟩
      · rw [Function.update_of_ne same] at found
        exact Or.inr found

/-- The pool with one more thread. -/
def started (c : Cpus n S E σ α) (thread : Thread S E α) : Pool S E σ α :=
  { c.pool with threads := c.pool.threads ++ [thread] }

/-- The task on the CPU begins the thread. -/
def begun (c : Cpus n S E σ α) (cpu : Fin n) (thread : Thread S E α) : Cpus n S E σ α where
  pool := c.started thread
  current := Function.update c.current cpu (some c.pool.threads.length)
  handler := c.handler
  left := c.left

/-- The CPU switches, and enters the handler. -/
def switched (c : Cpus n S E σ α) (cpu : Fin n) (next : Option Nat) (handler : Thread S E α) :
    Cpus n S E σ α where
  pool := c.started handler
  current := Function.update c.current cpu next
  handler := Function.update c.handler cpu (some c.pool.threads.length)
  left := arrive (depart c.left cpu (c.current cpu)) cpu next

section Runs

variable (h : Nat → E → Handler S F σ) (act : W → σ → σ) (mayLeave : Pool S E σ α → Nat → Bool)

def MaySwitch (c : Cpus n S E σ α) (cpu : Fin n) (next : Option Nat) : Prop :=
  ¬c.Handling cpu ∧ (∀ t ∈ c.current cpu, mayLeave c.pool t = true) ∧ ∀ t ∈ next, c.Waiting t

instance (c : Cpus n S E σ α) (cpu : Fin n) (next : Option Nat) :
    Decidable (c.MaySwitch mayLeave cpu next) :=
  inferInstanceAs (Decidable (_ ∧ _ ∧ _))

def step (c : Cpus n S E σ α) : Action n S E W α → Cpus n S E σ α
  | .call cpu thread => if c.MayCall cpu then c.begun cpu thread else c
  | .step cpu =>
      match c.top cpu with
      | none => c
      | some t =>
          { c with pool := c.pool.advance h t, left := Function.update c.left t none }
  | .switch cpu next handler =>
      if c.MaySwitch mayLeave cpu next then c.switched cpu next handler else c
  | .world w => { c with pool := c.pool.step h act (.world w) }

def run (c : Cpus n S E σ α) (actions : List (Action n S E W α)) : Cpus n S E σ α :=
  actions.foldl (step h act mayLeave) c

theorem run_append (c : Cpus n S E σ α) (xs ys : List (Action n S E W α)) :
    run h act mayLeave c (xs ++ ys) = run h act mayLeave (run h act mayLeave c xs) ys :=
  List.foldl_append

/-- **Run rule**: what every action of the run keeps holds at the end of it. -/
theorem run_invariant {I : Cpus n S E σ α → Prop} {actions : List (Action n S E W α)}
    (keeps : ∀ a ∈ actions, ∀ c, I c → I (step h act mayLeave c a)) {c : Cpus n S E σ α}
    (holds : I c) : I (run h act mayLeave c actions) := by
  induction actions generalizing c with
  | nil => exact holds
  | cons a rest ih =>
      exact ih (fun b member => keeps b (List.mem_cons_of_mem a member))
        (keeps a List.mem_cons_self c holds)

/-- What an action does to the pool. -/
theorem step_pool (c : Cpus n S E σ α) (a : Action n S E W α) :
    (step h act mayLeave c a).pool = c.pool ∨ ∃ b : Pool.Action S E W α,
      (step h act mayLeave c a).pool = c.pool.step h act b ∧
        ∀ thread, b = .spawn thread → a.starts = some thread := by
  cases a with
  | call cpu thread =>
      by_cases may : c.MayCall cpu
      · refine Or.inr ⟨.spawn thread, by rw [step, if_pos may]; rfl, ?_⟩
        intro thread' same
        cases same
        rfl
      · exact Or.inl (by rw [step, if_neg may])
  | step cpu =>
      cases top : c.top cpu with
      | none => exact Or.inl (by simp [step, top])
      | some t => exact Or.inr ⟨.step t, by simp [step, top, Pool.step], by intro thread same; cases same⟩
  | switch cpu next handler =>
      by_cases may : c.MaySwitch mayLeave cpu next
      · refine Or.inr ⟨.spawn handler, by rw [step, if_pos may]; rfl, ?_⟩
        intro thread same
        cases same
        rfl
      · exact Or.inl (by rw [step, if_neg may])
  | world w => exact Or.inr ⟨.world w, rfl, by intro thread same; cases same⟩

/-- **A run of the processors is a run of the pool**, with the same threads started. -/
theorem run_pool (c : Cpus n S E σ α) (actions : List (Action n S E W α)) :
    ∃ moves : List (Pool.Action S E W α),
      (run h act mayLeave c actions).pool = Pool.run h act c.pool moves ∧
        ∀ thread, .spawn thread ∈ moves → ∃ a ∈ actions, a.starts = some thread := by
  induction actions using List.reverseRecOn with
  | nil => exact ⟨[], rfl, fun thread started => absurd started List.not_mem_nil⟩
  | append_singleton actions a ih =>
      obtain ⟨moves, ran, started⟩ := ih
      have earlier : ∀ thread, .spawn thread ∈ moves → ∃ b ∈ actions ++ [a], b.starts = some thread := by
        intro thread member
        obtain ⟨b, inside, starts⟩ := started thread member
        exact ⟨b, List.mem_append_left _ inside, starts⟩
      rw [run_append]
      rcases step_pool h act mayLeave (run h act mayLeave c actions) a with same | ⟨b, moved, starts⟩
      · exact ⟨moves, same.trans ran, earlier⟩
      · refine ⟨moves ++ [b], ?_, ?_⟩
        · rw [Pool.run_append, ← ran]
          exact moved
        · intro thread member
          rcases List.mem_append.mp member with before | last
          · exact earlier thread before
          · rw [List.mem_singleton] at last
            exact ⟨a, List.mem_append_right _ List.mem_cons_self, starts thread last.symm⟩

variable {h act mayLeave} in
/-- The CPU lets its uppermost thread go on. -/
theorem step_top {c : Cpus n S E σ α} {cpu : Fin n} {t : Nat} (goes : c.top cpu = some t) :
    step h act mayLeave c (.step cpu) =
      { c with pool := c.pool.advance h t, left := Function.update c.left t none } := by
  rw [step, goes]

/-! ## Places -/

/-- A handler is a thread that no CPU runs and that was never switched out, on one CPU
only. -/
structure Placed (c : Cpus n S E σ α) : Prop where
  handled : ∀ {cpu t}, c.handler cpu = some t → t < c.pool.threads.length
  running : ∀ {cpu t}, c.current cpu = some t → t < c.pool.threads.length
  departed : ∀ {cpu t}, c.left t = some cpu → t < c.pool.threads.length
  apart : ∀ {cpu cpu' t}, c.handler cpu = some t → c.current cpu' ≠ some t
  stays : ∀ {cpu t}, c.handler cpu = some t → c.left t = none
  alone : ∀ {cpu cpu' t}, c.handler cpu = some t → c.handler cpu' = some t → cpu = cpu'

variable {h act mayLeave}

theorem Placed.begun {c : Cpus n S E σ α} (placed : c.Placed) (cpu : Fin n)
    (thread : Thread S E α) : (c.begun cpu thread).Placed := by
  have grows : c.pool.threads.length < (c.begun cpu thread).pool.threads.length := by
    simp [Cpus.begun, started]
  have runs : ∀ {cpu' t}, (c.begun cpu thread).current cpu' = some t →
      t = c.pool.threads.length ∨ c.current cpu' = some t := by
    intro cpu' t found
    unfold Cpus.begun at found
    by_cases here : cpu' = cpu
    · subst here
      simp only [Function.update_self, Option.some.injEq] at found
      exact Or.inl found.symm
    · simp only [Function.update_of_ne here] at found
      exact Or.inr found
  constructor
  · intro cpu' t found
    exact Nat.lt_trans (placed.handled found) grows
  · intro cpu' t found
    rcases runs found with rfl | before
    · exact grows
    · exact Nat.lt_trans (placed.running before) grows
  · intro cpu' t found
    exact Nat.lt_trans (placed.departed found) grows
  · intro cpu₁ cpu₂ t found running
    rcases runs running with rfl | before
    · exact Nat.lt_irrefl _ (placed.handled found)
    · exact placed.apart found before
  · exact placed.stays
  · exact placed.alone

theorem Placed.switched {c : Cpus n S E σ α} (placed : c.Placed) (cpu : Fin n)
    {next : Option Nat} (waiting : ∀ t ∈ next, c.Waiting t) (handler : Thread S E α) :
    (c.switched cpu next handler).Placed := by
  have grows : c.pool.threads.length < (c.switched cpu next handler).pool.threads.length := by
    simp [Cpus.switched, started]
  have runs : ∀ {cpu' t}, (c.switched cpu next handler).current cpu' = some t →
      t < c.pool.threads.length ∧ ∀ cpu₁, c.handler cpu₁ ≠ some t := by
    intro cpu' t found
    unfold Cpus.switched at found
    by_cases here : cpu' = cpu
    · subst here
      simp only [Function.update_self] at found
      obtain ⟨cpu₂, left⟩ := Option.isSome_iff_exists.mp (waiting t found).1
      refine ⟨placed.departed left, fun cpu₁ handles => ?_⟩
      rw [placed.stays handles] at left
      cases left
    · simp only [Function.update_of_ne here] at found
      exact ⟨placed.running found, fun cpu₁ handles => placed.apart handles found⟩
  have leaves : ∀ {t cpu'}, (c.switched cpu next handler).left t = some cpu' →
      t < c.pool.threads.length ∧ ∀ cpu₁, c.handler cpu₁ ≠ some t := by
    intro t cpu' found
    rcases depart_some (arrive_some found) with ⟨running, -⟩ | before
    · exact ⟨placed.running running, fun cpu₁ handles => placed.apart handles running⟩
    · refine ⟨placed.departed before, fun cpu₁ handles => ?_⟩
      rw [placed.stays handles] at before
      cases before
  have handles : ∀ {cpu' t}, (c.switched cpu next handler).handler cpu' = some t →
      (cpu' = cpu ∧ t = c.pool.threads.length) ∨ c.handler cpu' = some t := by
    intro cpu' t found
    unfold Cpus.switched at found
    by_cases here : cpu' = cpu
    · subst here
      simp only [Function.update_self, Option.some.injEq] at found
      exact Or.inl ⟨rfl, found.symm⟩
    · simp only [Function.update_of_ne here] at found
      exact Or.inr found
  constructor
  · intro cpu' t found
    rcases handles found with ⟨-, rfl⟩ | before
    · exact grows
    · exact Nat.lt_trans (placed.handled before) grows
  · intro cpu' t found
    exact Nat.lt_trans (runs found).1 grows
  · intro cpu' t found
    exact Nat.lt_trans (leaves found).1 grows
  · intro cpu₁ cpu₂ t found running
    rcases handles found with ⟨-, rfl⟩ | before
    · exact Nat.lt_irrefl _ (runs running).1
    · exact (runs running).2 _ before
  · intro cpu' t found
    apply Option.eq_none_iff_forall_ne_some.mpr
    intro cpu₁ left
    rcases handles found with ⟨-, rfl⟩ | before
    · exact Nat.lt_irrefl _ (leaves left).1
    · exact (leaves left).2 _ before
  · intro cpu₁ cpu₂ t found found'
    rcases handles found with ⟨rfl, rfl⟩ | before
    · rcases handles found' with ⟨rfl, -⟩ | before'
      · rfl
      · exact absurd (placed.handled before') (Nat.lt_irrefl _)
    · rcases handles found' with ⟨-, rfl⟩ | before'
      · exact absurd (placed.handled before) (Nat.lt_irrefl _)
      · exact placed.alone before before'

theorem step_placed {c : Cpus n S E σ α} (placed : c.Placed) (a : Action n S E W α) :
    (step h act mayLeave c a).Placed := by
  cases a with
  | call cpu thread =>
      rw [step]
      split
      · exact placed.begun cpu thread
      · exact placed
  | step cpu =>
      rw [step]
      cases c.top cpu with
      | none => exact placed
      | some t =>
          have length : (c.pool.advance h t).threads.length = c.pool.threads.length :=
            Pool.advance_length c.pool t
          have left : ∀ {u cpu'}, Function.update c.left t none u = some cpu' → c.left u = some cpu' := by
            intro u cpu' found
            by_cases same : u = t
            · subst same
              rw [Function.update_self] at found
              cases found
            · rwa [Function.update_of_ne same] at found
          constructor
          · intro cpu' u found
            exact length ▸ placed.handled found
          · intro cpu' u found
            exact length ▸ placed.running found
          · intro cpu' u found
            exact length ▸ placed.departed (left found)
          · exact placed.apart
          · intro cpu' u found
            apply Option.eq_none_iff_forall_ne_some.mpr
            intro cpu₁ departed
            have before := left departed
            rw [placed.stays found] at before
            cases before
          · exact placed.alone
  | switch cpu next handler =>
      rw [step]
      split
      · rename_i may
        exact placed.switched cpu may.2.2 handler
      · exact placed
  | world w =>
      obtain ⟨handled, running, departed, apart, stays, alone⟩ := placed
      exact ⟨handled, running, departed, apart, stays, alone⟩

/-- A thread stands where it stood, unless it went on. -/
theorem step_stays {c : Cpus n S E σ α} (a : Action n S E W α) {t : Nat} {thread : Thread S E α}
    (found : c.pool.threads[t]? = some thread) :
    (step h act mayLeave c a).pool.threads[t]? = some thread ∨
      ∃ cpu, a = .step cpu ∧ c.top cpu = some t := by
  have starts : ∀ new : Thread S E α, (c.started new).threads[t]? = some thread := by
    intro new
    exact (List.getElem?_append_left (List.getElem?_eq_some_iff.mp found).1).trans found
  cases a with
  | call cpu new =>
      rw [step]
      split
      · exact Or.inl (starts new)
      · exact Or.inl found
  | step cpu =>
      rw [step]
      cases top : c.top cpu with
      | none => exact Or.inl found
      | some u =>
          by_cases same : u = t
          · exact Or.inr ⟨cpu, rfl, top.trans (congrArg some same)⟩
          · exact Or.inl ((Pool.advance_threads_ne (Ne.symm same)).trans found)
  | switch cpu next handler =>
      rw [step]
      split
      · exact Or.inl (starts handler)
      · exact Or.inl found
  | world w => exact Or.inl found

theorem step_next {c : Cpus n S E σ α} (a : Action n S E W α) {t : Nat}
    (inside : t < c.pool.threads.length) :
    (step h act mayLeave c a).pool.next t = c.pool.next t ∨
      ∃ cpu, a = .step cpu ∧ c.top cpu = some t := by
  have found := List.getElem?_eq_getElem inside
  have stays : (step h act mayLeave c a).pool.threads[t]? = some c.pool.threads[t] ∨
      ∃ cpu, a = .step cpu ∧ c.top cpu = some t := step_stays a found
  rcases stays with same | moved
  · exact Or.inl (by rw [Pool.next, Pool.next, same, found])
  · exact Or.inr moved

/-- A handler was on its CPU before, or is entered now. -/
theorem step_handler {c : Cpus n S E σ α} (a : Action n S E W α) {t : Nat} {cpu : Fin n}
    (handles : (step h act mayLeave c a).handler cpu = some t) :
    c.handler cpu = some t ∨ ∃ next handler, a = .switch cpu next handler ∧
      (step h act mayLeave c a).pool.threads[t]? = some handler := by
  cases a with
  | call cpu' thread =>
      rw [step] at handles
      split at handles <;> exact Or.inl handles
  | step cpu' =>
      rw [step] at handles
      cases top : c.top cpu' <;> rw [top] at handles <;> exact Or.inl handles
  | switch cpu' next handler =>
      rw [step] at handles ⊢
      split at handles
      · rename_i may
        replace handles : Function.update c.handler cpu' (some c.pool.threads.length) cpu = some t :=
          handles
        by_cases here : cpu = cpu'
        · subst here
          rw [Function.update_self] at handles
          cases handles
          refine Or.inr ⟨next, handler, rfl, ?_⟩
          rw [if_pos may]
          exact List.getElem?_concat_length
        · rw [Function.update_of_ne here] at handles
          exact Or.inl handles
      · exact Or.inl handles
  | world w => exact Or.inl handles

/-- A handler goes on when its own CPU does. -/
theorem Placed.top_handler {c : Cpus n S E σ α} (placed : c.Placed) {cpu cpu' : Fin n} {t : Nat}
    (handles : c.handler cpu = some t) (goes : c.top cpu' = some t) : cpu' = cpu := by
  unfold top at goes
  split at goes
  · exact placed.alone goes handles
  · exact absurd goes (placed.apart handles)

/-- A thread that is out has not gone on since it was, or goes out now. -/
theorem step_left {c : Cpus n S E σ α} (a : Action n S E W α) {t : Nat} {cpu : Fin n}
    (out : (step h act mayLeave c a).left t = some cpu) :
    (c.left t = some cpu ∧ ¬∃ cpu', a = .step cpu' ∧ c.top cpu' = some t) ∨
      ∃ next handler, a = .switch cpu next handler ∧ c.MaySwitch mayLeave cpu next ∧
        c.current cpu = some t := by
  cases a with
  | call cpu' thread =>
      rw [step] at out
      refine Or.inl ⟨?_, by rintro ⟨cpu₁, same, -⟩; cases same⟩
      split at out
      · exact out
      · exact out
  | step cpu' =>
      rw [step] at out
      cases top : c.top cpu' with
      | none =>
          rw [top] at out
          refine Or.inl ⟨out, ?_⟩
          rintro ⟨cpu₁, same, here⟩
          cases same
          rw [top] at here
          cases here
      | some u =>
          rw [top] at out
          replace out : Function.update c.left u none t = some cpu := out
          by_cases same : t = u
          · subst same
            rw [Function.update_self] at out
            cases out
          · rw [Function.update_of_ne same] at out
            refine Or.inl ⟨out, ?_⟩
            rintro ⟨cpu₁, at_cpu, here⟩
            cases at_cpu
            rw [top] at here
            exact same (Option.some.inj here).symm
  | switch cpu' next handler =>
      have unstepped : ¬∃ cpu₁, (.switch cpu' next handler : Action n S E W α) = .step cpu₁ ∧
          c.top cpu₁ = some t := by
        rintro ⟨cpu₁, same, -⟩
        cases same
      rw [step] at out
      split at out
      · rename_i may
        rcases depart_some (arrive_some out) with ⟨running, rfl⟩ | before
        · exact Or.inr ⟨next, handler, rfl, may, running⟩
        · exact Or.inl ⟨before, unstepped⟩
      · exact Or.inl ⟨out, unstepped⟩
  | world w => exact Or.inl ⟨out, by rintro ⟨cpu₁, same, -⟩; cases same⟩

end Runs

end Cpus

end Dreamscape.Theory
