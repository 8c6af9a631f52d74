/-
# Theory.Serial -- programs one after another, the world in between

One program at a time is under way, and makes its calls one by one; between two of
them the world outside may act.  A program that is started while another is under
way does not start.

`run_obeys` is the rule for such runs: each program follows its protocol from
whatever its predecessors left, and the resource is never seen in a state the
protocol does not allow.
-/
import Dreamscape.Theory.Pool

namespace Dreamscape.Theory

set_option autoImplicit false

/-- The shared state, the number of programs started so far, and the one under way. -/
structure Serial (S : Sig) (E σ α : Type) where
  shared : σ
  calls : Nat
  current : Option (Thread S E α)

namespace Serial

variable {S : Sig} {F E W σ α R : Type}

inductive Action (S : Sig) (E W α : Type) where
  | start (thread : Thread S E α)
  | step
  | world (w : W)

section Runs

variable (h : Nat → E → Handler S F σ) (act : W → σ → σ)

/-- Let the program under way make its next call; one that has returned leaves. -/
def advance (c : Serial S E σ α) : Serial S E σ α :=
  match c.current with
  | none => c
  | some ⟨_, .ret _⟩ => { c with current := none }
  | some ⟨e, .call o k⟩ =>
      match h c.calls e o c.shared with
      | .done a s => ⟨s, c.calls, some ⟨e, k a⟩⟩
      | .blocked _ => c
      | .fault _ _ => c

def step (c : Serial S E σ α) : Action S E W α → Serial S E σ α
  | .start thread =>
      match c.current with
      | none => { c with calls := c.calls + 1, current := some thread }
      | some _ => c
  | .step => c.advance h
  | .world w => { c with shared := act w c.shared }

def run (c : Serial S E σ α) (actions : List (Action S E W α)) : Serial S E σ α :=
  actions.foldl (step h act) c

end Runs

/-- The program under way follows its protocol; with none under way, the resource is as
programs leave it. -/
structure Obeys (P : Nat → E → Protocol S R) (Q : Nat → R → Prop) (I : σ → Prop) (view : σ → R)
    (c : Serial S E σ α) : Prop where
  inv : I c.shared
  idle : c.current = none → Q c.calls (view c.shared)
  follows : ∀ thread, c.current = some thread →
    thread.prog.Follows (P c.calls thread.env) (fun r _ => Q c.calls r) (view c.shared)

variable {h : Nat → E → Handler S F σ} {act : W → σ → σ} {P : Nat → E → Protocol S R}
  {Q : Nat → R → Prop} {I : σ → Prop} {view : σ → R}

theorem advance_obeys {c : Serial S E σ α} (tracks : ∀ t e, Tracks (P t e) (h t e) I view)
    (obeys : c.Obeys P Q I view) : (c.advance h).Obeys P Q I view := by
  unfold advance
  cases under_way : c.current with
  | none => simpa only using obeys
  | some thread =>
      have follows := obeys.follows thread under_way
      obtain ⟨e, p⟩ := thread
      cases p with
      | ret a => exact ⟨obeys.inv, fun _ => follows, fun thread other => (nomatch other)⟩
      | call o k =>
          simp only
          cases answered : h c.calls e o c.shared with
          | done a s =>
              have tracked := tracks c.calls e
              refine ⟨tracked.keeps obeys.inv answered, fun idle => (nomatch idle), ?_⟩
              intro thread same
              cases same
              have onward := follows.2 a (tracked.possible obeys.inv answered)
              simpa only [tracked.next obeys.inv answered] using onward
          | blocked s => exact obeys
          | fault f s => exact obeys

/-- **Serial rule**: if every program that is started follows its protocol from what the
earlier ones leave, every reachable state obeys. -/
theorem run_obeys {c : Serial S E σ α} {actions : List (Action S E W α)}
    (tracks : ∀ t e, Tracks (P t e) (h t e) I view)
    (outside : ∀ w s, I s → I (act w s) ∧ view (act w s) = view s)
    (starts : ∀ thread : Thread S E α, .start thread ∈ actions → ∀ n r, Q n r →
      thread.prog.Follows (P (n + 1) thread.env) (fun r' _ => Q (n + 1) r') r)
    (obeys : c.Obeys P Q I view) : (run h act c actions).Obeys P Q I view := by
  induction actions generalizing c with
  | nil => exact obeys
  | cons action rest ih =>
      apply ih (fun thread member => starts thread (List.mem_cons_of_mem action member))
      cases action with
      | step => exact advance_obeys tracks obeys
      | world w =>
          obtain ⟨inv, same⟩ := outside w c.shared obeys.inv
          exact ⟨inv, fun idle => by simpa only [step, same] using obeys.idle idle,
            fun thread found => by simpa only [step, same] using obeys.follows thread found⟩
      | start thread =>
          unfold step
          cases under_way : c.current with
          | some other => exact obeys
          | none =>
              refine ⟨obeys.inv, fun idle => (nomatch idle), ?_⟩
              intro started same
              cases same
              exact starts _ List.mem_cons_self c.calls _ (obeys.idle under_way)

/-- What every allowed state and every state programs leave satisfies holds throughout. -/
theorem Obeys.holds {J : R → Prop} {c : Serial S E σ α} (obeys : c.Obeys P Q I view)
    (allowed : ∀ n e o r, (P n e).allowed o r → J r) (left : ∀ n r, Q n r → J r) :
    J (view c.shared) := by
  cases under_way : c.current with
  | none => exact left _ _ (obeys.idle under_way)
  | some thread =>
      have follows := obeys.follows thread under_way
      obtain ⟨e, p⟩ := thread
      cases p with
      | ret a => exact left _ _ follows
      | call o k => exact allowed _ _ _ _ follows.1

end Serial

end Dreamscape.Theory
