/-
# Kernel.Text -- the kernel's number formatting and scanning

The string functions the modules call, on texts written as lists of characters (a
byte is the character with its code).  `vsscanf` follows the kernel's scanner: white
space in the format skips any amount of white space, other format characters match
literally, a conversion needs a non-empty rest, and scanning stops at the first
mismatch.  `%d` converts modulo `2 ^ 64` and stores the low 32 bits; there is no
range error.  `kstrtoint` is the strict converter: it wants the whole text, and it
stores nothing unless the value fits.
-/
import Mathlib.Algebra.Group.Int.Defs
import Mathlib.Algebra.Group.Nat.Defs
import Mathlib.Data.List.Basic
import Mathlib.Data.Int.DivMod

namespace Dreamscape.Kernel

set_option autoImplicit false

/-! ## Characters -/

def nul : Char := Char.ofNat 0

/-- The kernel's `isspace`: its character table also marks the no-break space 160. -/
def isspace (c : Char) : Bool :=
  (9 ≤ c.toNat && c.toNat ≤ 13) || c.toNat == 32 || c.toNat == 160

/-- The C string that starts at `buf`. -/
def cstr (buf : List Char) : List Char := buf.takeWhile (· ≠ nul)

def skipSpaces (str : List Char) : List Char := str.dropWhile isspace

/-! ## Formatting -/

/-- `%d` -/
def formatInt : Int → List Char
  | .ofNat n => Nat.toDigits 10 n
  | .negSucc n => '-' :: Nat.toDigits 10 (n + 1)

/-- `%llu` -/
def formatU64 (n : BitVec 64) : List Char := Nat.toDigits 10 n.toNat

/-- `%lx` -/
def formatHex (n : BitVec 64) : List Char := Nat.toDigits 16 n.toNat

/-! ## Scanning -/

/-- The digits at the front of a text. -/
def digitRun (str : List Char) : List Char := str.takeWhile Char.isDigit

/-- `simple_strtoull` in base ten: the digits at the front, modulo `2 ^ 64`. -/
def simpleStrtoull (str : List Char) : Nat := Nat.ofDigitChars 10 (digitRun str) 0 % 2 ^ 64

/-- `simple_strtol` in base ten, and what it left unread. -/
def simpleStrtol (str : List Char) : Int × List Char :=
  if str.head? = some '-' then
    (Int.bmod (-simpleStrtoull str.tail) (2 ^ 64), str.tail.dropWhile Char.isDigit)
  else (Int.bmod (simpleStrtoull str) (2 ^ 64), str.dropWhile Char.isDigit)

/-- Storing a `long` in an `int`. -/
def toInt32 (n : Int) : Int := Int.bmod n (2 ^ 32)

/-- One element of a scan format: white space, a literal character, `%<width>s`, `%d`. -/
inductive Directive where
  | space
  | literal (c : Char)
  | str (width : Nat)
  | int

/-- A converted field. -/
inductive Scanned where
  | str (s : List Char)
  | int (n : Int)
  deriving DecidableEq

/-- The character that decides whether a number follows. -/
def leadingDigit (str : List Char) : Option Char :=
  if str.head? = some '-' then str.tail.head? else str.head?

def vsscanf : List Directive → List Char → List Scanned
  | [], _ => []
  | .space :: fmt, str => vsscanf fmt (skipSpaces str)
  | .literal _ :: _, [] => []
  | .literal c :: fmt, d :: str => if c = d then vsscanf fmt str else []
  | .str width :: fmt, str =>
      if str = [] then []
      else
        let field := ((skipSpaces str).takeWhile fun c => !isspace c).take width
        .str field :: vsscanf fmt ((skipSpaces str).drop field.length)
  | .int :: fmt, str =>
      if str = [] then []
      else if (leadingDigit (skipSpaces str)).any Char.isDigit then
        let converted := simpleStrtol (skipSpaces str)
        .int (toInt32 converted.1) :: vsscanf fmt converted.2
      else []

/-- A format text without conversions. -/
def literals (text : List Char) : List Directive := text.map .literal

/-! ## Strict conversion -/

inductive Errno where
  | EIO
  | EFAULT
  | EINVAL
  | ENOMEM
  | ERANGE
  deriving DecidableEq

/-- The value a system call returns for an error. -/
def Errno.code : Errno → Int
  | EIO => -5
  | .EFAULT => -14
  | .EINVAL => -22
  | .ENOMEM => -12
  | .ERANGE => -34

/-- What an operation on a removed proc entry returns. -/
def Errno.removed : Int := code EIO

/-- `_kstrtoull` in base ten: digits, then at most one newline, then the end. -/
def kstrtoullDigits (s : List Char) : Except Errno Nat :=
  let run := digitRun s
  let value := Nat.ofDigitChars 10 run 0
  if 2 ^ 64 ≤ value then .error .ERANGE
  else if run = [] then .error .EINVAL
  else if s.drop run.length = [] ∨ s.drop run.length = ['\n'] then .ok value
  else .error .EINVAL

/-- `kstrtoll` in base ten. -/
def kstrtoll (s : List Char) : Except Errno Int :=
  if s.head? = some '-' then
    match kstrtoullDigits s.tail with
    | .error e => .error e
    | .ok tmp => if 2 ^ 63 < tmp then .error .ERANGE else .ok (-tmp)
  else
    match kstrtoullDigits (if s.head? = some '+' then s.tail else s) with
    | .error e => .error e
    | .ok tmp => if 2 ^ 63 ≤ tmp then .error .ERANGE else .ok tmp

/-- `kstrtoint(s, 10, &res)`: the value to be stored in `res`, if any. -/
def kstrtoint (s : List Char) : Except Errno Int :=
  match kstrtoll s with
  | .error e => .error e
  | .ok tmp => if toInt32 tmp = tmp then .ok tmp else .error .ERANGE

/-! ## What the scanner reads back -/

theorem vsscanf_literals (text : List Char) (fmt : List Directive) (str : List Char) :
    vsscanf (literals text ++ fmt) (text ++ str) = vsscanf fmt str := by
  induction text with
  | nil => rfl
  | cons c text ih => simpa [literals, vsscanf] using ih

theorem isDigit_of_mem_toDigits {n : Nat} : ∀ c ∈ Nat.toDigits 10 n, c.isDigit = true :=
  fun _ member => Nat.isDigit_of_mem_toDigits (by decide) (by decide) member

/-- The text does not go on with another digit. -/
def EndsNumeral (rest : List Char) : Prop := rest.head?.all (fun c => !c.isDigit) = true

theorem digitRun_append {digits rest : List Char} (inside : ∀ c ∈ digits, c.isDigit = true)
    (ends : EndsNumeral rest) : digitRun (digits ++ rest) = digits := by
  unfold digitRun
  rw [List.takeWhile_append_of_pos inside]
  cases rest with
  | nil => simp
  | cons c rest =>
      have other : c.isDigit = false := by simpa [EndsNumeral] using ends
      simp [other]

theorem digitRun_toDigits (n : Nat) {rest : List Char} (ends : EndsNumeral rest) :
    digitRun (Nat.toDigits 10 n ++ rest) = Nat.toDigits 10 n :=
  digitRun_append isDigit_of_mem_toDigits ends

theorem toDigits_eq_cons (n : Nat) :
    ∃ c cs, Nat.toDigits 10 n = c :: cs ∧ c.isDigit = true := by
  cases shape : Nat.toDigits 10 n with
  | nil => exact absurd shape Nat.toDigits_ne_nil
  | cons c cs =>
      exact ⟨c, cs, rfl, isDigit_of_mem_toDigits (n := n) c (by rw [shape]; exact List.mem_cons_self)⟩

theorem isDigit_not_space {c : Char} (digit : c.isDigit = true) : isspace c = false := by
  simp only [Char.isDigit, Bool.and_eq_true, decide_eq_true_eq, ge_iff_le,
    UInt32.le_iff_toNat_le] at digit
  change 48 ≤ c.toNat ∧ c.toNat ≤ 57 at digit
  simp only [isspace, Bool.or_eq_false_iff, Bool.and_eq_false_iff, decide_eq_false_iff_not,
    beq_eq_false_iff_ne]
  omega

theorem isDigit_ne_minus {c : Char} (digit : c.isDigit = true) : c ≠ '-' := by
  rintro rfl
  exact absurd digit (by decide)

theorem isDigit_ne_plus {c : Char} (digit : c.isDigit = true) : c ≠ '+' := by
  rintro rfl
  exact absurd digit (by decide)

theorem skipSpaces_cons {c : Char} (solid : isspace c = false) (str : List Char) :
    skipSpaces (c :: str) = c :: str := by
  simp [skipSpaces, solid]

theorem bmod_long {n : Int} (low : -2 ^ 63 ≤ n) (high : n < 2 ^ 63) :
    Int.bmod n (2 ^ 64) = n :=
  Int.bmod_eq_of_le (by omega) (by omega)

theorem simpleStrtol_minus {str : List Char} (minus : str.head? = some '-') :
    (simpleStrtol str).1 = Int.bmod (-simpleStrtoull str.tail) (2 ^ 64) := by
  rw [simpleStrtol, if_pos minus]

theorem simpleStrtol_plain {str : List Char} (plain : str.head? ≠ some '-') :
    (simpleStrtol str).1 = Int.bmod (simpleStrtoull str) (2 ^ 64) := by
  rw [simpleStrtol, if_neg plain]

theorem toInt32_eq_self {n : Int} (low : -2 ^ 31 ≤ n) (high : n < 2 ^ 31) : toInt32 n = n :=
  Int.bmod_eq_of_le (by omega) (by omega)

end Dreamscape.Kernel
