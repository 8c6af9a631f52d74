/-
# Theory.Sum -- programs that call two machines

A process calls the C library, and through it the kernel.  Its signature is the sum of the
two, and a program over the first is one over the sum (`Prog.inl`).  What such a program was
checked to do is not checked again: it follows every protocol of the sum that simulates the
one it was checked against (`Follows.inl`), as a program whose calls are carried out by others
follows what they are checked to do (`Follows.expand`).
-/
import Dreamscape.Theory.Atomic

namespace Dreamscape.Theory

set_option autoImplicit false

variable {A B C S : Sig} {R R' α : Type}

/-! ## Protocols of bodies -/

/-- What stands for each call is checked against `W`: from a resource related to one of `P` it
gives a possible answer, and leaves a related resource. -/
def Simulates (P : Protocol C R) (W : Protocol S R') (rel : R → R' → Prop) (bodies : Bodies C S) : Prop :=
  ∀ o r r', rel r r' → P.allowed o r →
    (bodies o).Follows W (fun q a => P.possible o a r ∧ rel (P.next o a r) q) r'

/-- **Simulation rule**: a program that follows `P` follows `W` when its calls are expanded. -/
theorem Prog.Follows.expand {P : Protocol C R} {W : Protocol S R'} {rel : R → R' → Prop}
    {bodies : Bodies C S} (simulates : Simulates P W rel bodies) {Q : R → α → Prop}
    {Q' : R' → α → Prop} (ends : ∀ r r' a, rel r r' → Q r a → Q' r' a) {p : Prog C α} {r : R} {r' : R'}
    (related : rel r r') (follows : p.Follows P Q r) : (p.expand bodies).Follows W Q' r' := by
  induction p generalizing r r' with
  | ret a => exact ends r r' a related follows
  | call o k ih =>
      rw [Prog.expand_call, Prog.follows_bind]
      refine (simulates o r r' related follows.1).mono fun q a answered => ?_
      exact ih a answered.2 (follows.2 a answered.1)

/-! ## Sums -/

/-- The calls of either signature. -/
abbrev Sig.sum (A B : Sig) : Sig where
  Op := A.Op ⊕ B.Op
  Ans
    | .inl o => A.Ans o
    | .inr o => B.Ans o

/-- A program that makes only the calls of the first signature. -/
def Prog.inl (p : Prog A α) : Prog (A.sum B) α :=
  p.expand fun o => .call (S := A.sum B) (.inl o) .ret

@[simp] theorem Prog.inl_ret (a : α) : ((ret a : Prog A α).inl : Prog (A.sum B) α) = .ret a := rfl

@[simp] theorem Prog.inl_call (o : A.Op) (k : A.Ans o → Prog A α) :
    ((call o k).inl : Prog (A.sum B) α) = .call (S := A.sum B) (.inl o) fun a => (k a).inl := rfl

/-- A program of the first signature follows what its calls are checked to do in the sum. -/
theorem Prog.Follows.inl {P : Protocol A R} {W : Protocol (A.sum B) R'} (rel : R → R' → Prop)
    (allowed : ∀ {o r r'}, rel r r' → P.allowed o r → W.allowed (.inl o) r')
    (answered : ∀ {o a r r'}, rel r r' → P.allowed o r → W.possible (.inl o) a r' →
      P.possible o a r ∧ rel (P.next o a r) (W.next (.inl o) a r'))
    {Q : R → α → Prop} {Q' : R' → α → Prop} (ends : ∀ r r' a, rel r r' → Q r a → Q' r' a)
    {p : Prog A α} {r : R} {r' : R'} (related : rel r r') (follows : p.Follows P Q r) :
    (p.inl : Prog (A.sum B) α).Follows W Q' r' := by
  have simulates : Simulates P W rel fun o => .call (S := A.sum B) (.inl o) .ret :=
    fun o r r' related allows =>
      ⟨allowed related allows, fun a possible => answered related allows possible⟩
  exact Follows.expand simulates ends related follows

end Dreamscape.Theory
