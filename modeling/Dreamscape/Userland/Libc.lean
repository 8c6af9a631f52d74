/-
# Userland.Libc -- the C library under the command-line programs

The text functions they call, on texts written as lists of characters: `strtoul` with base
0, and `fscanf` for the directives their formats use.  White space is that of the C locale.
As in the library, a number too large for 64 bits is converted to the largest one, a minus
sign negates modulo `2 ^ 64`, and `fscanf` stops at the first directive that fails, giving
back the character that did not fit.
-/
import Dreamscape.Kernel.Text
import Mathlib.Data.List.Chain

namespace Dreamscape.Userland

set_option autoImplicit false

open Kernel

abbrev U64 := BitVec 64

/-! ## Characters -/

def isspace (c : Char) : Bool := (9 ≤ c.toNat && c.toNat ≤ 13) || c.toNat == 32

def skipSpaces (s : List Char) : List Char := s.dropWhile isspace

/-- The value of a character as a digit; 36 if it is none in any base. -/
def digitValue (c : Char) : Nat :=
  if '0' ≤ c ∧ c ≤ '9' then c.toNat - '0'.toNat
  else if 'a' ≤ c ∧ c ≤ 'z' then c.toNat - 'a'.toNat + 10
  else if 'A' ≤ c ∧ c ≤ 'Z' then c.toNat - 'A'.toNat + 10
  else 36

/-- The digits of a base at the front of a text. -/
def digitsIn (base : Nat) (s : List Char) : List Char := s.takeWhile fun c => digitValue c < base

/-- The number a run of digits denotes in a base. -/
def valueIn (base : Nat) (digits : List Char) : Nat :=
  digits.foldl (fun n c => base * n + digitValue c) 0

/-- A sign at the front of a number: is it a minus, and what follows? -/
def splitSign : List Char → Bool × List Char
  | '-' :: s => (true, s)
  | '+' :: s => (false, s)
  | s => (false, s)

/-! ## Conversion -/

/-- The `unsigned long` for a number read with this sign. -/
def toUnsignedLong (negative : Bool) (n : Nat) : U64 :=
  if 2 ^ 64 ≤ n then BitVec.allOnes 64
  else if negative then -BitVec.ofNat 64 n
  else BitVec.ofNat 64 n

/-- The base a number is written in, and the number without its mark: `0x` for 16, `0` for 8. -/
def splitBase : List Char → Nat × List Char
  | '0' :: 'x' :: s => (16, s)
  | '0' :: 'X' :: s => (16, s)
  | '0' :: s => (8, '0' :: s)
  | s => (10, s)

/-- `strtoul(nptr, NULL, 0)` -/
def strtoul (nptr : List Char) : U64 :=
  let (negative, s) := splitSign (skipSpaces nptr)
  let (base, s) := splitBase s
  toUnsignedLong negative (valueIn base (digitsIn base s))

/-! ## Scanning -/

/-- One element of a scan format: white space, a literal character, `%llu`. -/
inductive Directive where
  | space
  | literal (c : Char)
  | llu

/-- The directives of a format. -/
def directives : List Char → List Directive
  | '%' :: 'l' :: 'l' :: 'u' :: fmt => .llu :: directives fmt
  | c :: fmt => (if isspace c then .space else .literal c) :: directives fmt
  | [] => []

/-- What a call of `fscanf` assigns, in order, and what it leaves in the stream. -/
structure Scan where
  assigned : List U64
  rest : List Char

def scan : List Directive → List Char → Scan
  | [], s => ⟨[], s⟩
  | .space :: fmt, s => scan fmt (skipSpaces s)
  | .literal _ :: _, [] => ⟨[], []⟩
  | .literal c :: fmt, d :: s => if c = d then scan fmt s else ⟨[], d :: s⟩
  | .llu :: fmt, s =>
      let (negative, s) := splitSign (skipSpaces s)
      let digits := digitsIn 10 s
      if digits = [] then ⟨[], s⟩
      else
        let onward := scan fmt (s.drop digits.length)
        ⟨toUnsignedLong negative (valueIn 10 digits) :: onward.assigned, onward.rest⟩

def fscanf (format : List Char) (stream : List Char) : Scan := scan (directives format) stream

/-! ## Decimal digits -/

theorem isDigit_range (c : Char) : c.isDigit = true ↔ '0' ≤ c ∧ c ≤ '9' := by
  simp [Char.isDigit, Char.le_def]

theorem digitValue_digit {c : Char} (digit : c.isDigit = true) :
    digitValue c = c.toNat - '0'.toNat ∧ digitValue c < 10 := by
  have range := (isDigit_range c).mp digit
  rw [digitValue, if_pos range]
  refine ⟨rfl, ?_⟩
  have high : c.toNat ≤ '9'.toNat := range.2
  have nine : '9'.toNat = 57 := rfl
  have zero : '0'.toNat = 48 := rfl
  omega

theorem digitValue_other {c : Char} (other : c.isDigit = false) : 10 ≤ digitValue c := by
  have range : ¬('0' ≤ c ∧ c ≤ '9') := fun range => by
    rw [(isDigit_range c).mpr range] at other
    cases other
  rw [digitValue, if_neg range]
  split
  · omega
  · split <;> omega

theorem digitValue_lt_ten (c : Char) : decide (digitValue c < 10) = c.isDigit := by
  cases digit : c.isDigit with
  | true => exact decide_eq_true (digitValue_digit digit).2
  | false => exact decide_eq_false (Nat.not_lt.mpr (digitValue_other digit))

theorem digitsIn_ten (s : List Char) : digitsIn 10 s = digitRun s := by
  rw [digitsIn, digitRun]
  congr 1
  funext c
  exact digitValue_lt_ten c

theorem foldl_digits {digits : List Char} (inside : ∀ c ∈ digits, c.isDigit = true) (n : Nat) :
    digits.foldl (fun n c => 10 * n + digitValue c) n = Nat.ofDigitChars 10 digits n := by
  induction digits generalizing n with
  | nil => rfl
  | cons c digits ih =>
      rw [List.foldl_cons, (digitValue_digit (inside c List.mem_cons_self)).1,
        ih fun d member => inside d (List.mem_cons_of_mem c member)]
      rfl

theorem valueIn_toDigits (n : Nat) : valueIn 10 (Nat.toDigits 10 n) = n :=
  (foldl_digits isDigit_of_mem_toDigits 0).trans Nat.ofDigitChars_ten_toDigits

/-! ## What the scanner reads back -/

/-- No white space at the front. -/
def StartsSolid (s : List Char) : Prop := skipSpaces s = s

theorem startsSolid_cons {c : Char} (solid : isspace c = false) (s : List Char) :
    StartsSolid (c :: s) := by
  simp [StartsSolid, skipSpaces, solid]

/-- White space in the text stands alone. -/
def SingleSpaced (text : List Char) : Prop :=
  text.IsChain fun c d => isspace c = true → isspace d = false

instance (text : List Char) : Decidable (SingleSpaced text) :=
  inferInstanceAs (Decidable (List.IsChain _ _))

theorem directives_cons {c : Char} (plain : c ≠ '%') (format : List Char) :
    directives (c :: format) = (if isspace c then .space else .literal c) :: directives format := by
  rw [directives]
  rintro fmt same -
  exact plain same

/-- A label of single-spaced words without conversions is read past. -/
theorem scan_label {label : List Char} (single : SingleSpaced label) (plain : '%' ∉ label)
    (format : List Char) {s : List Char} (starts : StartsSolid s) :
    scan (directives (label ++ format)) (label ++ s) = scan (directives format) s := by
  induction label with
  | nil => rfl
  | cons c label ih =>
      obtain ⟨notPercent, plain⟩ := not_or.mp (List.mem_cons.not.mp plain)
      have onward := ih (List.IsChain.tail single) plain
      rw [List.cons_append, List.cons_append, directives_cons (Ne.symm notPercent)]
      cases white : isspace c with
      | false => simp [scan, onward]
      | true =>
          have solid : StartsSolid (label ++ s) := by
            cases label with
            | nil => exact starts
            | cons d label => exact startsSolid_cons ((List.isChain_cons_cons.mp single).1 white) _
          have skipped : skipSpaces (c :: (label ++ s)) = label ++ s := by
            rw [skipSpaces, List.dropWhile_cons, if_pos white]
            exact solid
          rw [if_pos rfl, scan, skipped, onward]

theorem isDigit_solid {c : Char} (digit : c.isDigit = true) : isspace c = false := by
  have range := (isDigit_range c).mp digit
  have low : '0'.toNat ≤ c.toNat := range.1
  have high : c.toNat ≤ '9'.toNat := range.2
  have zero : '0'.toNat = 48 := rfl
  have nine : '9'.toNat = 57 := rfl
  simp only [isspace, Bool.or_eq_false_iff, Bool.and_eq_false_iff, decide_eq_false_iff_not,
    beq_eq_false_iff_ne]
  omega

theorem splitSign_digit {c : Char} (digit : c.isDigit = true) (s : List Char) :
    splitSign (c :: s) = (false, c :: s) := by
  have minus : c ≠ '-' := isDigit_ne_minus digit
  have plus : c ≠ '+' := isDigit_ne_plus digit
  simp [splitSign, minus, plus]

theorem toUnsignedLong_toNat (v : U64) : toUnsignedLong false v.toNat = v := by
  rw [toUnsignedLong, if_neg (Nat.not_le.mpr v.isLt), if_neg Bool.false_ne_true, BitVec.ofNat_toNat,
    BitVec.setWidth_eq]

/-- A number written by `%llu` is where the scanner expects one. -/
theorem startsSolid_formatU64 (v : U64) (rest : List Char) : StartsSolid (formatU64 v ++ rest) := by
  obtain ⟨c, cs, shape, digit⟩ := toDigits_eq_cons v.toNat
  rw [formatU64, shape]
  exact startsSolid_cons (isDigit_solid digit) _

/-- `%llu` reads back what it wrote. -/
theorem scan_number (v : U64) (format rest : List Char) (ends : EndsNumeral rest) :
    scan (.llu :: directives format) (formatU64 v ++ rest) =
      ⟨v :: (scan (directives format) rest).assigned, (scan (directives format) rest).rest⟩ := by
  have sign : splitSign (skipSpaces (formatU64 v ++ rest)) = (false, formatU64 v ++ rest) := by
    rw [startsSolid_formatU64 v rest]
    obtain ⟨c, cs, shape, digit⟩ := toDigits_eq_cons v.toNat
    rw [formatU64, shape]
    exact splitSign_digit digit _
  have digits : digitsIn 10 (formatU64 v ++ rest) = formatU64 v := by
    rw [digitsIn_ten]
    exact digitRun_toDigits v.toNat ends
  have value : valueIn 10 (formatU64 v) = v.toNat := valueIn_toDigits v.toNat
  have some_ : formatU64 v ≠ [] := Nat.toDigits_ne_nil
  simp only [scan, sign, digits, some_, if_false, value, toUnsignedLong_toNat, List.drop_left]

end Dreamscape.Userland
