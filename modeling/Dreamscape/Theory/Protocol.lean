/-
# Theory.Protocol -- what a program does with one resource

A protocol follows one resource of a program (a lock it may hold, the objects it
has created) through the calls the program makes.  It says in which resource
states a call is allowed, which answers are possible, and what the answer makes of
the resource.  `Prog.Follows` checks a whole program against it by recursion on the
tree, before any machine is chosen; the machine enters once, in `Tracks`, which
says that the protocol's resource is a view of the machine's state.
-/
import Dreamscape.Theory.Program

namespace Dreamscape.Theory

set_option autoImplicit false

/-- The life of one resource, call by call. -/
structure Protocol (S : Sig) (R : Type) where
  allowed : S.Op → R → Prop
  possible : (o : S.Op) → S.Ans o → R → Prop
  next : (o : S.Op) → S.Ans o → R → R

namespace Prog

variable {S : Sig} {R α β : Type} (P : Protocol S R)

/-- `p`, begun with resource `r`, only makes allowed calls, and leaves `Q` of the
resource and the returned value, whatever possible answers it gets. -/
def Follows (Q : R → α → Prop) : Prog S α → R → Prop
  | .ret a, r => Q r a
  | .call o k, r => P.allowed o r ∧ ∀ a, P.possible o a r → (k a).Follows Q (P.next o a r)

@[simp] theorem follows_ret (Q : R → α → Prop) (a : α) (r : R) :
    (ret a : Prog S α).Follows P Q r ↔ Q r a := Iff.rfl

@[simp] theorem follows_call (Q : R → α → Prop) (o : S.Op) (k : S.Ans o → Prog S α) (r : R) :
    (call o k).Follows P Q r ↔
      P.allowed o r ∧ ∀ a, P.possible o a r → (k a).Follows P Q (P.next o a r) := Iff.rfl

variable {P}

theorem Follows.mono {Q Q' : R → α → Prop} (weaker : ∀ r a, Q r a → Q' r a) {p : Prog S α}
    {r : R} (follows : p.Follows P Q r) : p.Follows P Q' r := by
  induction p generalizing r with
  | ret a => exact weaker r a follows
  | call o k ih => exact ⟨follows.1, fun a possible => ih a (follows.2 a possible)⟩

@[simp] theorem follows_bind {Q : R → β → Prop} {p : Prog S α} {f : α → Prog S β} {r : R} :
    (p >>= f).Follows P Q r ↔ p.Follows P (fun r' a => (f a).Follows P Q r') r := by
  induction p generalizing r with
  | ret a => exact Iff.rfl
  | call o k ih => simp only [call_bind, follows_call, ih]

end Prog

namespace Prog

variable {S : Sig} {R α β : Type}

/-! ## Programs that leave the resource alone -/

/-- Every call `p` can make, whatever it is answered, is one of `ok`. -/
def Only (ok : S.Op → Prop) : Prog S α → Prop
  | .ret _ => True
  | .call o k => ok o ∧ ∀ a, (k a).Only ok

@[simp] theorem only_ret (ok : S.Op → Prop) (a : α) : (ret a : Prog S α).Only ok ↔ True := Iff.rfl

@[simp] theorem only_call (ok : S.Op → Prop) (o : S.Op) (k : S.Ans o → Prog S α) :
    (call o k).Only ok ↔ ok o ∧ ∀ a, (k a).Only ok := Iff.rfl

theorem only_bind {ok : S.Op → Prop} {p : Prog S α} {f : α → Prog S β} (first : p.Only ok)
    (onward : ∀ a, (f a).Only ok) : (p >>= f).Only ok := by
  induction p with
  | ret a => exact onward a
  | call o k ih => exact ⟨first.1, fun a => ih a (first.2 a)⟩

theorem Only.mono {ok ok' : S.Op → Prop} (weaker : ∀ o, ok o → ok' o) {p : Prog S α}
    (only : p.Only ok) : p.Only ok' := by
  induction p with
  | ret a => trivial
  | call o k ih => exact ⟨weaker o only.1, fun a => ih a (only.2 a)⟩

/-- A program that makes only calls that keep an invariant keeps it, whatever becomes
of the program. -/
theorem Only.exec_invariant {F σ : Type} {h : Handler S F σ} {I : σ → Prop} {ok : S.Op → Prop}
    (keeps : ∀ o, ok o → ∀ s, I s → I (h o s).state) {p : Prog S α} (only : p.Only ok) {s : σ}
    (holds : I s) : I (p.exec h s).state := by
  induction p generalizing s with
  | ret a => exact holds
  | call o k ih =>
      have step := keeps o only.1 s holds
      rw [exec_call]
      cases answered : h o s with
      | done a s' =>
          rw [answered] at step
          exact ih a (only.2 a) step
      | blocked s' =>
          rw [answered] at step
          exact step
      | fault e s' =>
          rw [answered] at step
          exact step

/-- If every call `p` can make commutes with `f`, so does `p`. -/
theorem Only.exec_mapState {F σ : Type} {h : Handler S F σ} {ok : S.Op → Prop} {f : σ → σ}
    (commutes : ∀ o, ok o → ∀ s, h o (f s) = (h o s).mapState f) {p : Prog S α} (only : p.Only ok)
    (s : σ) : p.exec h (f s) = (p.exec h s).mapState f := by
  induction p generalizing s with
  | ret a => rfl
  | call o k ih =>
      simp only [exec_call, commutes o only.1]
      cases h o s with
      | done a s' => exact ih a (only.2 a) s'
      | blocked s' => rfl
      | fault e s' => rfl

/-- Machines that answer the calls of `p` alike run it alike. -/
theorem Only.exec_congr {F σ : Type} {h h' : Handler S F σ} {ok : S.Op → Prop}
    (alike : ∀ o, ok o → h o = h' o) {p : Prog S α} (only : p.Only ok) (s : σ) :
    p.exec h s = p.exec h' s := by
  induction p generalizing s with
  | ret a => rfl
  | call o k ih =>
      simp only [exec_call, alike o only.1]
      congr 1
      funext a s'
      exact ih a (only.2 a) s'

/-- A protocol to which every answer is possible bounds the calls of a program. -/
theorem Follows.only {P : Protocol S R} {ok : S.Op → Prop} {Q : R → α → Prop}
    (bounded : ∀ o r, P.allowed o r → ok o) (free : ∀ o a r, P.possible o a r) {p : Prog S α}
    {r : R} (follows : p.Follows P Q r) : p.Only ok := by
  induction p generalizing r with
  | ret a => trivial
  | call o k ih => exact ⟨bounded o r follows.1, fun a => ih a (follows.2 a (free o a r))⟩

/-- What `p` can call is what it does call. -/
theorem Only.trace {F σ : Type} {h : Handler S F σ} {ok : S.Op → Prop} {p : Prog S α}
    (only : p.Only ok) (s : σ) : ∀ o ∈ p.trace h s, ok o := by
  induction p generalizing s with
  | ret a => simp
  | call o k ih =>
      intro o' made
      rw [trace_call] at made
      rcases List.mem_cons.mp made with rfl | later
      · exact only.1
      · cases answered : h o s with
        | done a s' =>
            rw [answered] at later
            exact ih a (only.2 a) s' o' later
        | blocked s' => simp [answered] at later
        | fault e s' => simp [answered] at later

/-- A program that makes only calls harmless to the resource follows the protocol. -/
theorem Only.follows {P : Protocol S R} {ok : S.Op → Prop} {r : R}
    (harmless : ∀ o, ok o → P.allowed o r ∧ ∀ a, P.next o a r = r) {Q : R → α → Prop}
    (ends : ∀ a, Q r a) {p : Prog S α} (only : p.Only ok) : p.Follows P Q r := by
  induction p with
  | ret a => exact ends a
  | call o k ih =>
      obtain ⟨allowed, same⟩ := harmless o only.1
      refine ⟨allowed, ?_⟩
      intro a _
      rw [same a]
      exact ih a (only.2 a)

/-- The protocol of programs that make only calls of `ok`. -/
def calls (ok : S.Op → Prop) : Protocol S Unit where
  allowed o _ := ok o
  possible _ _ _ := True
  next _ _ r := r

/-- To make only these calls is to follow it. -/
theorem only_iff_follows {ok : S.Op → Prop} {p : Prog S α} :
    p.Only ok ↔ p.Follows (calls ok) (fun _ _ => True) () := by
  constructor
  · intro only
    exact only.follows (fun o allowed => ⟨allowed, fun _ => rfl⟩) fun _ => trivial
  · intro follows
    exact follows.only (fun _ _ allowed => allowed) fun _ _ _ => trivial

end Prog

/-- The protocol's resource is a view of the machine's state: an answered call
moves the view of the thread that made it along the protocol. -/
structure Tracks {S : Sig} {R F σ : Type} (P : Protocol S R) (h : Handler S F σ)
    (I : σ → Prop) (view : σ → R) : Prop where
  keeps : ∀ {o s a s'}, I s → h o s = .done a s' → I s'
  possible : ∀ {o s a s'}, I s → h o s = .done a s' → P.possible o a (view s)
  next : ∀ {o s a s'}, I s → h o s = .done a s' → view s' = P.next o a (view s)

namespace Prog

variable {S : Sig} {R F σ α : Type} {P : Protocol S R} {h : Handler S F σ} {I : σ → Prop}
  {view : σ → R}

/-- A program that follows the protocol leaves, when it returns, the promised
resource in the machine. -/
theorem Follows.exec_done (tracks : Tracks P h I view) {Q : R → α → Prop} {p : Prog S α}
    {s s' : σ} {a : α} (inv : I s) (follows : p.Follows P Q (view s))
    (returned : p.exec h s = .done a s') : I s' ∧ Q (view s') a := by
  induction p generalizing s with
  | ret b =>
      simp only [exec_ret, Outcome.done.injEq] at returned
      obtain ⟨rfl, rfl⟩ := returned
      exact ⟨inv, follows⟩
  | call o k ih =>
      rw [exec_call, Outcome.bind_eq_done] at returned
      obtain ⟨b, t, answered, rest⟩ := returned
      have onward := follows.2 b (tracks.possible inv answered)
      rw [← tracks.next inv answered] at onward
      exact ih b (tracks.keeps inv answered) onward rest

end Prog

end Dreamscape.Theory
