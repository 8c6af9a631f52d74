/-
# Theory.Program -- programs over a signature of calls

A program is a finite tree of calls: it makes a call, receives the answer and goes
on from there.  The same tree is read in two ways.  Run alone it is `exec`: a
handler answers every call from the state, and the outcome says whether the
program returned, was blocked for ever or faulted; `trace` lists the calls it made.
Run beside others it is advanced one call at a time (`Theory.Pool`).

Control flow that does not depend on an answer leaves no trace in the tree, so the
calls are the only points at which another program can interfere.
-/
import Mathlib.Data.List.Basic

namespace Dreamscape.Theory

set_option autoImplicit false

/-- The calls a program can make, and the type of the answer to each. -/
structure Sig where
  Op : Type
  Ans : Op → Type

/-- A program over `S` that returns a value of type `α`. -/
inductive Prog (S : Sig) (α : Type) : Type where
  | ret (a : α)
  | call (o : S.Op) (k : S.Ans o → Prog S α)

namespace Prog

variable {S : Sig} {α β γ : Type}

/-! ## The monad of programs -/

/-- Run `p`, then go on with `f` on what it returned. -/
def bind : Prog S α → (α → Prog S β) → Prog S β
  | .ret a, f => f a
  | .call o k, f => .call o fun a => (k a).bind f

instance : Monad (Prog S) where
  pure := .ret
  bind := Prog.bind

@[simp] theorem pure_eq (a : α) : (pure a : Prog S α) = .ret a := rfl

@[simp] theorem ret_bind (a : α) (f : α → Prog S β) : ((.ret a : Prog S α) >>= f) = f a := rfl

@[simp] theorem call_bind (o : S.Op) (k : S.Ans o → Prog S α) (f : α → Prog S β) :
    (Prog.call o k >>= f) = .call o fun a => k a >>= f := rfl

theorem bind_ret (p : Prog S α) : (p >>= .ret) = p := by
  induction p with
  | ret a => rfl
  | call o k ih => simp only [call_bind, ih]

theorem bind_assoc (p : Prog S α) (f : α → Prog S β) (g : β → Prog S γ) :
    (p >>= f) >>= g = p >>= fun a => f a >>= g := by
  induction p with
  | ret a => rfl
  | call o k ih => simp only [call_bind, ih]

instance : LawfulMonad (Prog S) :=
  LawfulMonad.mk' _ bind_ret (fun _ _ => rfl) bind_assoc

/-- The call a program makes next. -/
def head : Prog S α → Option S.Op
  | .ret _ => none
  | .call o _ => some o

end Prog

/-! ## Running a program alone -/

/-- What became of a program: it returned, it waits for something nobody will
give it, or it broke a rule of the machine it runs on.  The state is the one
reached when that happened. -/
inductive Outcome (F σ α : Type) : Type where
  | done (a : α) (s : σ)
  | blocked (s : σ)
  | fault (f : F) (s : σ)
  deriving DecidableEq

namespace Outcome

variable {F σ α β : Type}

def bind : Outcome F σ α → (α → σ → Outcome F σ β) → Outcome F σ β
  | .done a s, f => f a s
  | .blocked s, _ => .blocked s
  | .fault e s, _ => .fault e s

/-- The state reached, whatever became of the program. -/
def state : Outcome F σ α → σ
  | .done _ s => s
  | .blocked s => s
  | .fault _ s => s

/-- The outcome with its state seen through `f`. -/
def mapState {τ : Type} (f : σ → τ) : Outcome F σ α → Outcome F τ α
  | .done a s => .done a (f s)
  | .blocked s => .blocked (f s)
  | .fault e s => .fault e (f s)

/-- What a program that returned goes on with; nothing after one that did not. -/
def onward {γ : Type} (x : Outcome F σ α) (f : α → σ → List γ) : List γ :=
  match x with
  | .done a s => f a s
  | .blocked _ => []
  | .fault _ _ => []

def completes : Outcome F σ α → Bool
  | .done _ _ => true
  | _ => false

theorem done_of_completes {x : Outcome F σ α} (completes : x.completes = true) :
    ∃ a, x = .done a x.state := by
  cases x with
  | done a s => exact ⟨a, rfl⟩
  | blocked s => cases completes
  | fault f s => cases completes

@[simp] theorem bind_done (a : α) (s : σ) (f : α → σ → Outcome F σ β) :
    (done a s : Outcome F σ α).bind f = f a s := rfl
@[simp] theorem bind_blocked (s : σ) (f : α → σ → Outcome F σ β) :
    (blocked s : Outcome F σ α).bind f = .blocked s := rfl
@[simp] theorem bind_fault (e : F) (s : σ) (f : α → σ → Outcome F σ β) :
    (fault e s : Outcome F σ α).bind f = .fault e s := rfl

@[simp] theorem onward_done {γ : Type} (a : α) (s : σ) (f : α → σ → List γ) :
    (done a s : Outcome F σ α).onward f = f a s := rfl
@[simp] theorem onward_blocked {γ : Type} (s : σ) (f : α → σ → List γ) :
    (blocked s : Outcome F σ α).onward f = [] := rfl
@[simp] theorem onward_fault {γ : Type} (e : F) (s : σ) (f : α → σ → List γ) :
    (fault e s : Outcome F σ α).onward f = [] := rfl

@[simp] theorem onward_nil {γ : Type} (x : Outcome F σ α) :
    (x.onward fun _ _ => ([] : List γ)) = [] := by
  cases x <;> rfl

@[simp] theorem state_done (a : α) (s : σ) : (done a s : Outcome F σ α).state = s := rfl
@[simp] theorem state_blocked (s : σ) : (blocked s : Outcome F σ α).state = s := rfl
@[simp] theorem state_fault (e : F) (s : σ) : (fault e s : Outcome F σ α).state = s := rfl

theorem mapState_eq_done {τ : Type} {f : σ → τ} {x : Outcome F σ α} {a : α} {s' : τ} :
    x.mapState f = .done a s' ↔ ∃ s, x = .done a s ∧ s' = f s := by
  cases x with
  | done b s =>
      simp only [mapState, done.injEq]
      constructor
      · rintro ⟨rfl, rfl⟩
        exact ⟨s, ⟨rfl, rfl⟩, rfl⟩
      · rintro ⟨_, ⟨rfl, rfl⟩, rfl⟩
        exact ⟨rfl, rfl⟩
  | blocked s => simp [mapState]
  | fault f s => simp [mapState]

/-- Only a program that returned has a continuation that returns. -/
theorem bind_eq_done {x : Outcome F σ α} {f : α → σ → Outcome F σ β} {b : β} {s' : σ} :
    x.bind f = .done b s' ↔ ∃ a s, x = .done a s ∧ f a s = .done b s' := by
  cases x <;> simp

end Outcome

/-- How a machine answers each call. -/
abbrev Handler (S : Sig) (F σ : Type) := (o : S.Op) → σ → Outcome F σ (S.Ans o)

namespace Prog

variable {S : Sig} {F σ α β : Type}

/-- Run a program with nobody else on the machine. -/
def exec (h : Handler S F σ) : Prog S α → σ → Outcome F σ α
  | .ret a, s => .done a s
  | .call o k, s => (h o s).bind fun a s' => (k a).exec h s'

@[simp] theorem exec_ret (h : Handler S F σ) (a : α) (s : σ) :
    (ret a : Prog S α).exec h s = .done a s := rfl

@[simp] theorem exec_call (h : Handler S F σ) (o : S.Op) (k : S.Ans o → Prog S α) (s : σ) :
    (call o k).exec h s = (h o s).bind fun a s' => (k a).exec h s' := rfl

@[simp] theorem exec_bind (h : Handler S F σ) (p : Prog S α) (f : α → Prog S β) (s : σ) :
    (p >>= f).exec h s = (p.exec h s).bind fun a s' => (f a).exec h s' := by
  induction p generalizing s with
  | ret a => rfl
  | call o k ih =>
      simp only [call_bind, exec_call]
      cases h o s with
      | done a s' => exact ih a s'
      | blocked s' => rfl
      | fault e s' => rfl

/-- The calls a program makes when it runs alone, in order. -/
def trace (h : Handler S F σ) : Prog S α → σ → List S.Op
  | .ret _, _ => []
  | .call o k, s => o :: (h o s).onward fun a s' => (k a).trace h s'

@[simp] theorem trace_ret (h : Handler S F σ) (a : α) (s : σ) :
    (ret a : Prog S α).trace h s = [] := rfl

@[simp] theorem trace_call (h : Handler S F σ) (o : S.Op) (k : S.Ans o → Prog S α) (s : σ) :
    (call o k).trace h s = o :: (h o s).onward fun a s' => (k a).trace h s' := rfl

theorem trace_bind (h : Handler S F σ) (p : Prog S α) (f : α → Prog S β) (s : σ) :
    (p >>= f).trace h s = p.trace h s ++ (p.exec h s).onward fun a s' => (f a).trace h s' := by
  induction p generalizing s with
  | ret a => rfl
  | call o k ih =>
      simp only [call_bind, trace_call, exec_call]
      cases h o s with
      | done a s' => exact congrArg (o :: ·) (ih a s')
      | blocked s' => rfl
      | fault e s' => rfl

end Prog

end Dreamscape.Theory
