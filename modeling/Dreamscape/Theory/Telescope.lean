/-
# Theory.Telescope -- differences of successive readings

A counter is read again and again, and each reading is reported as its difference from
the one before.  In any additive group the differences add up to the last reading less
the first, so wrapping round loses nothing; readings that never fall do not wrap, and
their differences are those of the natural numbers.
-/
import Mathlib.Algebra.BigOperators.Group.List.Basic
import Mathlib.Data.BitVec
import Mathlib.Data.List.Chain
import Mathlib.Tactic.Abel

namespace Dreamscape.Theory

set_option autoImplicit false

/-- The differences of `xs`, the first of them from `a`. -/
def differences {G : Type} [Sub G] : G → List G → List G
  | _, [] => []
  | a, x :: xs => (x - a) :: differences x xs

section Group

variable {G : Type} [AddCommGroup G]

/-- The differences add up to the way from the first reading to the last. -/
theorem sum_differences (a : G) (xs : List G) : (differences a xs).sum = xs.getLastD a - a := by
  induction xs generalizing a with
  | nil => exact (sub_self a).symm
  | cons x xs ih =>
      rw [differences, List.sum_cons, ih, List.getLastD_cons]
      abel

end Group

/-- In the natural numbers this needs readings that never fall. -/
theorem sum_differences_nat {a : Nat} {xs : List Nat} (rising : (a :: xs).IsChain (· ≤ ·)) :
    a + (differences a xs).sum = xs.getLastD a := by
  induction xs generalizing a with
  | nil => rfl
  | cons x xs ih =>
      obtain ⟨step, onward⟩ := List.isChain_cons_cons.mp rising
      rw [List.getLastD_cons, ← ih onward, differences, List.sum_cons]
      omega

/-- Readings that never fall do not wrap. -/
theorem differences_toNat {w : Nat} {a : BitVec w} {xs : List (BitVec w)}
    (rising : (a :: xs).IsChain (· ≤ ·)) :
    (differences a xs).map BitVec.toNat = differences a.toNat (xs.map BitVec.toNat) := by
  induction xs generalizing a with
  | nil => rfl
  | cons x xs ih =>
      obtain ⟨step, onward⟩ := List.isChain_cons_cons.mp rising
      rw [differences, List.map_cons, ih onward, BitVec.toNat_sub_of_le step]
      rfl

/-- The sum of the differences, in the natural numbers. -/
theorem sum_differences_toNat {w : Nat} {a : BitVec w} {xs : List (BitVec w)}
    (rising : (a :: xs).IsChain (· ≤ ·)) :
    a.toNat + ((differences a xs).map BitVec.toNat).sum = (xs.getLastD a).toNat := by
  have chain : (a.toNat :: xs.map BitVec.toNat).IsChain (· ≤ ·) := by
    rw [← List.map_cons, List.isChain_map]
    exact rising
  rw [differences_toNat rising, sum_differences_nat chain, List.getLastD_eq_getLast?,
    List.getLast?_map, List.getLastD_eq_getLast?]
  cases xs.getLast? <;> rfl

end Dreamscape.Theory
