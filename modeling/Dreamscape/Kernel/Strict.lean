/-
# Kernel.Strict -- the texts kstrtoint converts

A sign, digits and at most one newline, and nothing else: `kstrtoint_ok_iff` says that
these texts are converted, to the number they denote, exactly if an `int` holds it.
-/
import Dreamscape.Kernel.Text
import Mathlib.Data.List.TakeWhile

namespace Dreamscape.Kernel

set_option autoImplicit false

/-- Digits, at least one, with at most one newline behind them. -/
structure DigitsLine (s digits : List Char) : Prop where
  nonempty : digits ≠ []
  each : ∀ c ∈ digits, c.isDigit = true
  line : s = digits ∨ s = digits ++ ['\n']

/-- The number a run of decimal digits denotes. -/
def digitsValue (digits : List Char) : Nat := Nat.ofDigitChars 10 digits 0

/-- The text is the numeral of `n`: `-` or an optional `+`, digits, an optional newline. -/
inductive IntText : List Char → Int → Prop where
  | plain {s digits : List Char} (line : DigitsLine s digits) : IntText s (digitsValue digits)
  | plus {s digits : List Char} (line : DigitsLine s digits) :
      IntText ('+' :: s) (digitsValue digits)
  | minus {s digits : List Char} (line : DigitsLine s digits) :
      IntText ('-' :: s) (-(digitsValue digits : Int))

/-! ## Digits -/

theorem DigitsLine.run {s digits : List Char} (line : DigitsLine s digits) :
    digitRun s = digits ∧ (s.drop digits.length = [] ∨ s.drop digits.length = ['\n']) := by
  rcases line.line with rfl | rfl
  · refine ⟨?_, Or.inl List.drop_length⟩
    have run := digitRun_append line.each (show EndsNumeral [] from rfl)
    rwa [List.append_nil] at run
  · exact ⟨digitRun_append line.each rfl, Or.inr List.drop_left⟩

theorem DigitsLine.head {s digits : List Char} (line : DigitsLine s digits) :
    ∃ c cs, s = c :: cs ∧ c.isDigit = true := by
  obtain ⟨c, cs, shape⟩ := List.exists_cons_of_ne_nil line.nonempty
  have digit := line.each c (by rw [shape]; exact List.mem_cons_self)
  rcases line.line with rfl | rfl
  · exact ⟨c, cs, shape, digit⟩
  · exact ⟨c, cs ++ ['\n'], by rw [shape]; rfl, digit⟩

theorem kstrtoullDigits_ok_iff {s : List Char} {v : Nat} :
    kstrtoullDigits s = .ok v ↔
      ∃ digits, DigitsLine s digits ∧ v = digitsValue digits ∧ v < 2 ^ 64 := by
  constructor
  · intro converted
    unfold kstrtoullDigits at converted
    simp only at converted
    split at converted
    · cases converted
    · rename_i fits
      split at converted
      · cases converted
      · rename_i nonempty
        split at converted
        · rename_i ends
          cases converted
          obtain ⟨rest, whole⟩ : digitRun s <+: s := List.takeWhile_prefix Char.isDigit
          have behind : s.drop (digitRun s).length = rest :=
            (congrArg (List.drop (digitRun s).length) whole.symm).trans List.drop_left
          rw [behind] at ends
          refine ⟨digitRun s, ⟨nonempty, fun c inside => List.mem_takeWhile_imp inside, ?_⟩, rfl,
            Nat.not_le.mp fits⟩
          rcases ends with rfl | rfl
          · rw [List.append_nil] at whole
            exact Or.inl whole.symm
          · exact Or.inr whole.symm
        · cases converted
  · rintro ⟨digits, line, rfl, fits⟩
    obtain ⟨run, ends⟩ := line.run
    rw [digitsValue] at fits
    unfold kstrtoullDigits
    simp only [run]
    rw [if_neg (Nat.not_le.mpr fits), if_neg line.nonempty, if_pos ends]
    rfl

/-! ## Signed numerals -/

/-- A converted number that is then checked for its range. -/
theorem ranged_ok_iff (converted : Except Errno Nat) (tooLarge : Nat → Prop) [DecidablePred tooLarge]
    (value : Nat → Int) (n : Int) :
    (match converted with
      | .error e => .error e
      | .ok tmp => if tooLarge tmp then .error .ERANGE else .ok (value tmp) : Except Errno Int) = .ok n ↔
      ∃ v, converted = .ok v ∧ ¬tooLarge v ∧ n = value v := by
  cases converted with
  | error err => simp
  | ok v =>
      by_cases large : tooLarge v
      · simp [large]
      · simp [large, eq_comm]

theorem kstrtoll_minus {s : List Char} {n : Int} :
    kstrtoll ('-' :: s) = .ok n ↔ ∃ v, kstrtoullDigits s = .ok v ∧ ¬2 ^ 63 < v ∧ n = -v := by
  rw [kstrtoll, List.head?_cons, if_pos rfl, List.tail_cons]
  exact ranged_ok_iff _ (2 ^ 63 < ·) _ n

theorem kstrtoll_unsigned {s : List Char} (unsigned : s.head? ≠ some '-') {n : Int} :
    kstrtoll s = .ok n ↔
      ∃ v, kstrtoullDigits (if s.head? = some '+' then s.tail else s) = .ok v ∧ ¬2 ^ 63 ≤ v ∧ n = v := by
  rw [kstrtoll, if_neg unsigned]
  exact ranged_ok_iff _ (2 ^ 63 ≤ ·) _ n

/-- What `IntText` allows before the digits. -/
theorem intText_iff {s : List Char} {n : Int} :
    IntText s n ↔
      (∃ t digits, s = '-' :: t ∧ DigitsLine t digits ∧ n = -(digitsValue digits : Int)) ∨
      s.head? ≠ some '-' ∧ ∃ digits,
        DigitsLine (if s.head? = some '+' then s.tail else s) digits ∧ n = digitsValue digits := by
  constructor
  · intro text
    cases text with
    | plain line =>
        obtain ⟨c, cs, rfl, digit⟩ := line.head
        right
        have minus : c ≠ '-' := isDigit_ne_minus digit
        have plus : c ≠ '+' := isDigit_ne_plus digit
        refine ⟨by simpa using minus, _, ?_, rfl⟩
        simpa [plus] using line
    | plus line => exact Or.inr ⟨by simp, _, line, rfl⟩
    | minus line => exact Or.inl ⟨_, _, rfl, line, rfl⟩
  · rintro (⟨t, digits, rfl, line, rfl⟩ | ⟨-, digits, line, rfl⟩)
    · exact .minus line
    · by_cases plus : s.head? = some '+'
      · obtain ⟨t, rfl⟩ := List.head?_eq_some_iff.mp plus
        exact .plus line
      · rw [if_neg plus] at line
        exact .plain line

theorem kstrtoll_ok_iff {s : List Char} {n : Int} :
    kstrtoll s = .ok n ↔ IntText s n ∧ -2 ^ 63 ≤ n ∧ n < 2 ^ 63 := by
  rw [intText_iff]
  by_cases minus : s.head? = some '-'
  · obtain ⟨t, rfl⟩ := List.head?_eq_some_iff.mp minus
    rw [kstrtoll_minus]
    constructor
    · rintro ⟨v, converted, fits, rfl⟩
      obtain ⟨digits, line, rfl, -⟩ := kstrtoullDigits_ok_iff.mp converted
      exact ⟨Or.inl ⟨t, digits, rfl, line, rfl⟩, by omega, by omega⟩
    · rintro ⟨⟨t', digits, same, line, rfl⟩ | ⟨unsigned, -⟩, low, high⟩
      · cases same
        exact ⟨_, kstrtoullDigits_ok_iff.mpr ⟨digits, line, rfl, by omega⟩, by omega, rfl⟩
      · exact absurd rfl unsigned
  · rw [kstrtoll_unsigned minus]
    constructor
    · rintro ⟨v, converted, fits, rfl⟩
      obtain ⟨digits, line, rfl, -⟩ := kstrtoullDigits_ok_iff.mp converted
      exact ⟨Or.inr ⟨minus, digits, line, rfl⟩, by omega, by omega⟩
    · rintro ⟨⟨t, digits, rfl, -⟩ | ⟨-, digits, line, rfl⟩, low, high⟩
      · exact absurd rfl minus
      · exact ⟨_, kstrtoullDigits_ok_iff.mpr ⟨digits, line, rfl, by omega⟩, by omega, rfl⟩

theorem toInt32_eq_self_iff {n : Int} : toInt32 n = n ↔ -2 ^ 31 ≤ n ∧ n < 2 ^ 31 := by
  constructor
  · intro same
    rw [← same, toInt32]
    exact ⟨Int.le_bmod (by decide), Int.bmod_lt (by decide)⟩
  · rintro ⟨low, high⟩
    exact toInt32_eq_self low high

/-- **Strict conversion**: `kstrtoint` accepts the numerals of the numbers an `int` holds, and
stores their values. -/
theorem kstrtoint_ok_iff {s : List Char} {n : Int} :
    kstrtoint s = .ok n ↔ IntText s n ∧ -2 ^ 31 ≤ n ∧ n < 2 ^ 31 := by
  have converted : kstrtoint s = .ok n ↔ kstrtoll s = .ok n ∧ toInt32 n = n := by
    unfold kstrtoint
    cases kstrtoll s with
    | error err => simp
    | ok tmp =>
        by_cases fits : toInt32 tmp = tmp
        · simp only [fits, if_true, Except.ok.injEq]
          exact ⟨fun same => ⟨same, same ▸ fits⟩, And.left⟩
        · simp only [fits, if_false, reduceCtorEq, Except.ok.injEq, false_iff]
          rintro ⟨rfl, holds⟩
          exact fits holds
  rw [converted, kstrtoll_ok_iff, toInt32_eq_self_iff]
  constructor
  · rintro ⟨⟨text, -⟩, range⟩
    exact ⟨text, range⟩
  · rintro ⟨text, low, high⟩
    exact ⟨⟨text, by omega, by omega⟩, low, high⟩

end Dreamscape.Kernel
