/-
# Theory.Numeral -- reading numerals back out of text

A numeral in base `b <= 16` is a run of digit characters, so it ends where the first
other character stands: `span_unique` splits such a text in one way only, and
`toDigits_injective` reads the number off the run.  Together they give
`numeral_unique`, the unit step of every unique-readability argument about text
made of numerals and separators.
-/
import Mathlib.Data.List.Basic

namespace Dreamscape.Theory

set_option autoImplicit false

/-! ## Runs of characters -/

section Runs

variable {α : Type} {p : α → Bool}

/-- A run of `p` characters closed by a character outside `p` is where the text
first leaves `p`. -/
theorem takeWhile_run {run : List α} {stop : α} (rest : List α) (inside : ∀ c ∈ run, p c = true)
    (outside : p stop = false) : (run ++ stop :: rest).takeWhile p = run := by
  rw [List.takeWhile_append_of_pos inside, List.takeWhile_cons, outside]
  simp

/-- Two readings of one text as a run and its closing character agree. -/
theorem span_unique {run run' : List α} {stop stop' : α} {rest rest' : List α}
    (inside : ∀ c ∈ run, p c = true) (inside' : ∀ c ∈ run', p c = true)
    (outside : p stop = false) (outside' : p stop' = false)
    (same : run ++ stop :: rest = run' ++ stop' :: rest') :
    run = run' ∧ stop = stop' ∧ rest = rest' := by
  have runs : run = run' := by
    rw [← takeWhile_run rest inside outside, same, takeWhile_run rest' inside' outside']
  subst runs
  simpa using same

end Runs

/-! ## Numerals -/

/-- The characters a numeral of base at most sixteen is made of. -/
def isDigitChar (c : Char) : Bool :=
  c.isDigit || c = 'a' || c = 'b' || c = 'c' || c = 'd' || c = 'e' || c = 'f'

theorem isDigitChar_digitChar {d : Nat} (small : d < 16) : isDigitChar d.digitChar = true := by
  revert d
  decide

theorem digitChar_injective {d e : Nat} (hd : d < 16) (he : e < 16)
    (same : d.digitChar = e.digitChar) : d = e := by
  have table : ∀ d < 16, ∀ e < 16, d.digitChar = e.digitChar → d = e := by decide
  exact table d hd e he same

section Base

variable {b : Nat} (large : 1 < b) (small : b ≤ 16)

include large small

theorem isDigitChar_toDigits (n : Nat) : ∀ c ∈ b.toDigits n, isDigitChar c = true := by
  induction n using Nat.strongRecOn with
  | _ n ih =>
      rcases Nat.lt_or_ge n b with below | above
      · rw [Nat.toDigits_of_lt_base below]
        intro c member
        rw [List.mem_singleton] at member
        exact member ▸ isDigitChar_digitChar (by omega)
      · rw [Nat.toDigits_of_base_le large above]
        intro c member
        rcases List.mem_append.mp member with member | member
        · exact ih (n / b) (Nat.div_lt_self (by omega) large) c member
        · rw [List.mem_singleton] at member
          exact member ▸ isDigitChar_digitChar (Nat.lt_of_lt_of_le (Nat.mod_lt _ (by omega)) small)

/-- A number is read off its numeral. -/
theorem toDigits_injective {n m : Nat} (same : b.toDigits n = b.toDigits m) : n = m := by
  induction n using Nat.strongRecOn generalizing m with
  | _ n ih =>
      have digits : ∀ k, k % b < 16 := fun k => Nat.lt_of_lt_of_le (Nat.mod_lt k (by omega)) small
      have longer : ∀ {k}, b ≤ k → (b.toDigits k).length ≠ 1 := by
        intro k above
        rw [Nat.toDigits_of_base_le large above, List.length_append]
        have := @Nat.length_toDigits_pos b (k / b)
        simp only [List.length_singleton]
        omega
      rcases Nat.lt_or_ge n b with hn | hn <;> rcases Nat.lt_or_ge m b with hm | hm
      · rw [Nat.toDigits_of_lt_base hn, Nat.toDigits_of_lt_base hm, List.singleton_inj] at same
        exact digitChar_injective (by omega) (by omega) same
      · exact absurd (by rw [← same, Nat.toDigits_of_lt_base hn]; rfl) (longer hm)
      · exact absurd (by rw [same, Nat.toDigits_of_lt_base hm]; rfl) (longer hn)
      · rw [Nat.toDigits_of_base_le large hn, Nat.toDigits_of_base_le large hm] at same
        obtain ⟨high, low⟩ := List.append_inj' same rfl
        have quotients : n / b = m / b := ih (n / b) (Nat.div_lt_self (by omega) large) high
        have remainders : n % b = m % b :=
          digitChar_injective (digits n) (digits m) (List.singleton_inj.mp low)
        rw [← Nat.div_add_mod n b, ← Nat.div_add_mod m b, quotients, remainders]

/-- **A numeral and what follows it are read in one way**, when what follows does
not begin with a digit character. -/
theorem numeral_unique {n m : Nat} {stop stop' : Char} {rest rest' : List Char}
    (outside : isDigitChar stop = false) (outside' : isDigitChar stop' = false)
    (same : b.toDigits n ++ stop :: rest = b.toDigits m ++ stop' :: rest') :
    n = m ∧ stop = stop' ∧ rest = rest' := by
  obtain ⟨runs, stops, rests⟩ :=
    span_unique (isDigitChar_toDigits large small n) (isDigitChar_toDigits large small m)
      outside outside' same
  exact ⟨toDigits_injective large small runs, stops, rests⟩

end Base

end Dreamscape.Theory
