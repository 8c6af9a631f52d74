/-
# Theory.Atomic -- sections of a program as single steps

A program over coarse calls stands for one over fine calls: every coarse call has a body.
`expand` puts the bodies in, and `atomically` is the machine that answers a coarse call by
running its body to the end with nobody else.

The coarse machine has fewer interleavings, and every run of it is a run of the fine one
(`run_expands`).
-/
import Dreamscape.Theory.History

namespace Dreamscape.Theory

set_option autoImplicit false

variable {C S : Sig} {F E W σ X α β : Type}

/-- What each coarse call stands for. -/
abbrev Bodies (C S : Sig) := (o : C.Op) → Prog S (C.Ans o)

def Prog.expand (bodies : Bodies C S) : Prog C α → Prog S α
  | .ret a => .ret a
  | .call o k => bodies o >>= fun a => (k a).expand bodies

@[simp] theorem Prog.expand_ret (bodies : Bodies C S) (a : α) :
    (Prog.ret a : Prog C α).expand bodies = .ret a := rfl

@[simp] theorem Prog.expand_call (bodies : Bodies C S) (o : C.Op) (k : C.Ans o → Prog C α) :
    (Prog.call o k).expand bodies = bodies o >>= fun a => (k a).expand bodies := rfl

theorem Prog.expand_bind (bodies : Bodies C S) (p : Prog C α) (f : α → Prog C β) :
    (p >>= f).expand bodies = p.expand bodies >>= fun a => (f a).expand bodies := by
  induction p with
  | ret a => rfl
  | call o k ih => simp only [Prog.call_bind, Prog.expand_call, ih, Prog.bind_assoc]

/-- What the bodies call is what the whole program calls. -/
theorem Prog.Only.expand {bodies : Bodies C S} {ok : C.Op → Prop} {ok' : S.Op → Prop}
    (bound : ∀ o, ok o → (bodies o).Only ok') {p : Prog C α} (only : p.Only ok) :
    (p.expand bodies).Only ok' := by
  induction p with
  | ret a => trivial
  | call o k ih =>
      apply Prog.only_bind (bound o only.1)
      intro a
      exact ih a (only.2 a)

def atomically (h : Nat → E → Handler S F σ) (bodies : Bodies C S) : Nat → E → Handler C F σ :=
  fun t e o s => (bodies o).exec (h t e) s

namespace Pool

variable {h : Nat → E → Handler S F σ} {act : W → σ → σ}

/-- A thread that nobody interrupts comes to the end of a part of its program. -/
theorem run_through (act : W → σ → σ) {c : Pool S E σ α} {t : Nat} {e : E} {p : Prog S β}
    {f : β → Prog S α} {b : β} {s : σ} (found : c.threads[t]? = some ⟨e, p >>= f⟩)
    (done : p.exec (h t e) c.shared = .done b s) :
    ∃ n, run h act c (List.replicate n (.step t)) = ⟨s, c.threads.set t ⟨e, f b⟩⟩ := by
  induction p generalizing c with
  | ret b' =>
      cases done
      refine ⟨0, ?_⟩
      have same : c.threads.set t ⟨e, f b⟩ = c.threads := by
        obtain ⟨bound, at_t⟩ := List.getElem?_eq_some_iff.mp found
        rw [Prog.ret_bind] at at_t
        rw [← at_t]
        exact List.set_getElem_self bound
      rw [same]
      rfl
  | call o k ih =>
      rw [Prog.exec_call, Outcome.bind_eq_done] at done
      obtain ⟨a, s₁, answered, rest⟩ := done
      let next : Pool S E σ α := ⟨s₁, c.threads.set t ⟨e, k a >>= f⟩⟩
      have moved : c.advance h t = next := by
        unfold advance
        rw [found]
        simp only [Prog.call_bind, answered, next]
      have bound : t < c.threads.length := (List.getElem?_eq_some_iff.mp found).1
      obtain ⟨n, ran⟩ := ih a (c := next) (List.getElem?_set_self bound) rest
      refine ⟨n + 1, ?_⟩
      rw [List.replicate_succ]
      show run h act (c.advance h t) (List.replicate n (.step t)) = _
      rw [moved, ran]
      simp only [next, List.set_set]

/-- The pool with the bodies put in, its history forgotten. -/
def expand (bodies : Bodies C S) (c : Pool C E (σ × X) α) : Pool S E σ α :=
  ⟨c.shared.1, c.threads.map fun thread => ⟨thread.env, thread.prog.expand bodies⟩⟩

variable {bodies : Bodies C S} {note : Note C E σ X} {act' : W → σ × X → σ × X}

theorem step_expands (outside : ∀ w c, (act' w c).1 = act w c.1) (c : Pool C E (σ × X) α)
    (a : Action C E W α) :
    ∃ fine : List (Action S E W α), run h act (c.expand bodies) fine =
      (step (recorded (atomically h bodies) note) act' c a).expand bodies := by
  cases a with
  | spawn thread =>
      refine ⟨[.spawn ⟨thread.env, thread.prog.expand bodies⟩], ?_⟩
      simp [run, step, expand]
  | world w =>
      refine ⟨[.world w], ?_⟩
      simp [run, step, expand, outside]
  | step t =>
      rcases advance_cases (h := recorded (atomically h bodies) note) c t with
        same | ⟨e, o, k, a, s, found, answered, moved⟩
      · refine ⟨[], ?_⟩
        simp only [step, same]
        rfl
      · obtain ⟨done, -⟩ := recorded_done.mp answered
        have found' : (c.expand bodies).threads[t]? =
            some ⟨e, bodies o >>= fun a => (k a).expand bodies⟩ := by
          simp only [expand, List.getElem?_map, found]
          rfl
        obtain ⟨n, ran⟩ := run_through act found' done
        refine ⟨List.replicate n (.step t), ?_⟩
        rw [ran]
        simp only [step, moved, expand, List.map_set]

/-- **Every run of the coarse machine is a run of the fine one.** -/
theorem run_expands (outside : ∀ w c, (act' w c).1 = act w c.1) (c : Pool C E (σ × X) α)
    (actions : List (Action C E W α)) :
    ∃ fine : List (Action S E W α), run h act (c.expand bodies) fine =
      (run (recorded (atomically h bodies) note) act' c actions).expand bodies := by
  induction actions generalizing c with
  | nil => exact ⟨[], rfl⟩
  | cons a rest ih =>
      obtain ⟨first, stepped⟩ : ∃ first : List (Action S E W α),
          run h act (c.expand bodies) first =
            (step (recorded (atomically h bodies) note) act' c a).expand bodies :=
        step_expands outside c a
      obtain ⟨later, ran⟩ := ih (step (recorded (atomically h bodies) note) act' c a)
      refine ⟨first ++ later, ?_⟩
      rw [run_append, stepped, ran]
      rfl

end Pool

end Dreamscape.Theory
