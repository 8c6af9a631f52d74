/-
# Userland.Strtoul -- the numerals of strtoul

In base 0 a numeral is a sign, if any, and digits: octal ones after `0`, hexadecimal ones
after `0x`, decimal ones otherwise.  `strtoul` does not ask for a numeral.  It converts the
number at the front of any text (`front`), which for a numeral is the number it denotes
(`numeral_front`), and ignores what follows.  Stored in 32 bits, a number below `2 ^ 64` in
magnitude is taken modulo `2 ^ 32`.
-/
import Dreamscape.Userland.Libc
import Mathlib.Data.List.TakeWhile

namespace Dreamscape.Userland

set_option autoImplicit false

open Kernel

/-! ## Numerals -/

/-- The whole text is an unsigned numeral. -/
inductive Unsigned : List Char → Nat → Prop where
  | decimal {c : Char} {digits : List Char} (first : c ≠ '0')
      (each : ∀ d ∈ c :: digits, digitValue d < 10) : Unsigned (c :: digits) (valueIn 10 (c :: digits))
  | octal {digits : List Char} (each : ∀ d ∈ digits, digitValue d < 8) :
      Unsigned ('0' :: digits) (valueIn 8 digits)
  | hexadecimal {x c : Char} {digits : List Char} (mark : x = 'x' ∨ x = 'X')
      (each : ∀ d ∈ c :: digits, digitValue d < 16) :
      Unsigned ('0' :: x :: c :: digits) (valueIn 16 (c :: digits))

/-- The whole text is a numeral, and denotes this number. -/
inductive Numeral : List Char → Int → Prop where
  | plain {s : List Char} {n : Nat} (unsigned : Unsigned s n) : Numeral s n
  | plus {s : List Char} {n : Nat} (unsigned : Unsigned s n) : Numeral ('+' :: s) n
  | minus {s : List Char} {n : Nat} (unsigned : Unsigned s n) : Numeral ('-' :: s) (-n)

/-- The number at the front of a text, after white space. -/
def front (nptr : List Char) : Int :=
  let (negative, s) := splitSign (skipSpaces nptr)
  let (base, s) := splitBase s
  let n := valueIn base (digitsIn base s)
  if negative then -n else n

/-! ## The number of a numeral -/

theorem digitsIn_all {base : Nat} {digits : List Char} (each : ∀ d ∈ digits, digitValue d < base) :
    digitsIn base digits = digits :=
  List.takeWhile_eq_self_iff.mpr fun d member => decide_eq_true (each d member)

theorem valueIn_zero (base : Nat) (digits : List Char) :
    valueIn base ('0' :: digits) = valueIn base digits := by
  have zero : base * 0 + digitValue '0' = 0 := rfl
  rw [valueIn, List.foldl_cons, zero]
  rfl

theorem digit_of_value {c : Char} (small : digitValue c < 10) : c.isDigit = true := by
  rw [← digitValue_lt_ten]
  exact decide_eq_true small

/-- An unsigned numeral begins with a digit, and is read in its base to its end. -/
theorem Unsigned.read {s : List Char} {n : Nat} (unsigned : Unsigned s n) :
    (∃ c cs, s = c :: cs ∧ c.isDigit = true) ∧
      ∃ base digits, splitBase s = (base, digits) ∧ valueIn base (digitsIn base digits) = n := by
  cases unsigned with
  | @decimal c digits first each =>
      refine ⟨⟨c, digits, rfl, digit_of_value (each c List.mem_cons_self)⟩, 10, c :: digits, ?_, ?_⟩
      · simp [splitBase, first]
      · rw [digitsIn_all each]
  | @octal digits each =>
      refine ⟨⟨'0', digits, rfl, rfl⟩, 8, '0' :: digits, ?_, ?_⟩
      · cases digits with
        | nil => rfl
        | cons d digits =>
            have small := each d List.mem_cons_self
            have notLower : d ≠ 'x' := by
              rintro rfl
              exact absurd small (by decide)
            have notUpper : d ≠ 'X' := by
              rintro rfl
              exact absurd small (by decide)
            simp [splitBase, notLower, notUpper]
      · have all : ∀ d ∈ '0' :: digits, digitValue d < 8 := by
          intro d member
          rcases List.mem_cons.mp member with rfl | later
          · decide
          · exact each d later
        rw [digitsIn_all all, valueIn_zero]
  | @hexadecimal x c digits mark each =>
      refine ⟨⟨'0', _, rfl, rfl⟩, 16, c :: digits, ?_, ?_⟩
      · rcases mark with rfl | rfl <;> rfl
      · rw [digitsIn_all each]

theorem front_of_split {nptr s : List Char} {negative : Bool} {n : Nat}
    (sign : splitSign (skipSpaces nptr) = (negative, s)) (unsigned : Unsigned s n) :
    front nptr = if negative then -(n : Int) else n := by
  obtain ⟨-, base, digits, split, value⟩ := unsigned.read
  simp only [front, sign, split, value]

/-- **A numeral is converted as the number it denotes.** -/
theorem numeral_front {arg : List Char} {n : Int} (numeral : Numeral arg n) : front arg = n := by
  cases numeral with
  | plain unsigned =>
      obtain ⟨⟨c, cs, rfl, digit⟩, -⟩ := unsigned.read
      have sign : splitSign (skipSpaces (c :: cs)) = (false, c :: cs) := by
        rw [startsSolid_cons (isDigit_solid digit) cs]
        exact splitSign_digit digit cs
      exact front_of_split sign unsigned
  | @plus s n unsigned =>
      have sign : splitSign (skipSpaces ('+' :: s)) = (false, s) := rfl
      exact front_of_split sign unsigned
  | @minus s n unsigned =>
      have sign : splitSign (skipSpaces ('-' :: s)) = (true, s) := rfl
      exact front_of_split sign unsigned

/-! ## What strtoul returns -/

theorem toUnsignedLong_small {n : Nat} (negative : Bool) (small : n < 2 ^ 64) :
    toUnsignedLong negative n = BitVec.ofInt 64 (if negative then -(n : Int) else n) := by
  rw [toUnsignedLong, if_neg (Nat.not_le.mpr small)]
  cases negative with
  | false => exact (BitVec.ofInt_natCast 64 n).symm
  | true =>
      show -BitVec.ofNat 64 n = BitVec.ofInt 64 (-(n : Int))
      rw [BitVec.ofInt_neg, BitVec.ofInt_natCast]

/-- Every text is converted by the number at its front. -/
theorem strtoul_front (nptr : List Char) :
    strtoul nptr =
      if 2 ^ 64 ≤ (front nptr).natAbs then BitVec.allOnes 64 else BitVec.ofInt 64 (front nptr) := by
  rcases sign : splitSign (skipSpaces nptr) with ⟨negative, s⟩
  rcases split : splitBase s with ⟨base, s'⟩
  have same : front nptr = if negative then -(valueIn base (digitsIn base s') : Int)
      else valueIn base (digitsIn base s') := by
    simp only [front, sign, split]
  have magnitude : (front nptr).natAbs = valueIn base (digitsIn base s') := by
    rw [same]
    cases negative <;> simp
  simp only [strtoul, sign, split]
  by_cases large : 2 ^ 64 ≤ (front nptr).natAbs
  · rw [if_pos large, toUnsignedLong, if_pos (magnitude ▸ large)]
  · rw [if_neg large, toUnsignedLong_small negative (magnitude ▸ Nat.not_le.mp large), same]

/-- **What 32 bits keep**: all ones, or the number modulo `2 ^ 32`. -/
theorem strtoul_low (nptr : List Char) :
    (((strtoul nptr).setWidth 32).toNat : Int) =
      if 2 ^ 64 ≤ (front nptr).natAbs then 2 ^ 32 - 1 else front nptr % 2 ^ 32 := by
  rw [strtoul_front]
  by_cases large : 2 ^ 64 ≤ (front nptr).natAbs
  · rw [if_pos large, if_pos large]
    rfl
  · rw [if_neg large, if_neg large, BitVec.toNat_setWidth, BitVec.toNat_ofInt]
    omega

end Dreamscape.Userland
