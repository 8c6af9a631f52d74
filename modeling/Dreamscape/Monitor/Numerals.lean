/-
# Monitor.Numerals -- which pid start_pid stores

The pid is read from at most 255 bytes of what was written, and by a conversion that
does not look whether the number fits.  So the pid stored is the one written exactly
for the commands that are rejected anyway or whose numeral ends among those bytes and
fits an `int` (`stores_written_pid_iff`).
-/
import Dreamscape.Monitor.Grammar

namespace Dreamscape.Monitor

set_option autoImplicit false

open Theory Kernel

/-! ## The numeral of a command -/

/-- A written text as `start_pid`, white space, a sign and all the digits there are. -/
structure Numeral (buf ws sign digits rest : List Char) : Prop where
  split : buf = "start_pid".toList ++ (ws ++ (sign ++ (digits ++ rest)))
  spaced : ws ≠ []
  space : ∀ c ∈ ws, isspace c = true
  signed : sign = [] ∨ sign = ['-']
  number : digits ≠ []
  digits : ∀ c ∈ digits, c.isDigit = true
  ends : EndsNumeral rest

/-- The value of a sign and digits. -/
def signedValue (sign digits : List Char) : Int :=
  if sign = ['-'] then -(Nat.ofDigitChars 10 digits 0 : Int) else Nat.ofDigitChars 10 digits 0

/-- Where the digits end in the text. -/
def numeralEnd (ws sign digits : List Char) : Nat := 9 + ws.length + sign.length + digits.length

def FitsInt (n : Int) : Prop := -2 ^ 31 ≤ n ∧ n < 2 ^ 31

/-- The handler stores the pid that was written, and rejects a numeral that does not fit an
`int` or goes on behind what the handler looks at. -/
structure StoresWrittenPid (t : Tid) (e : Env) (s : State) : Prop where
  stores : ∀ s', (commandHandler e.userBuf.length).exec (kernel t e) s = .done e.userBuf.length s' →
    firstToken (examined e.userBuf) = "start_pid".toList →
    ∃ ws sign digits rest, Numeral e.userBuf ws sign digits rest ∧
      s'.targetPid = signedValue sign digits
  rejects : ∀ ws sign digits rest, Numeral e.userBuf ws sign digits rest →
    ¬FitsInt (signedValue sign digits) ∨ 255 < numeralEnd ws sign digits →
    ∃ a s', (commandHandler e.userBuf.length).exec (kernel t e) s = .done a s' ∧ a < 0 ∧
      s'.targetPid = s.targetPid

/-- If the command is accepted, its numeral fits and ends among the bytes examined. -/
def WithinLimits (e : Env) : Prop :=
  ∀ ws sign digits rest, Numeral e.userBuf ws sign digits rest →
    e.copyFails = false → StartText (examined e.userBuf) →
    FitsInt (signedValue sign digits) ∧ numeralEnd ws sign digits ≤ 255

/-! ## What is examined -/

theorem cstr_append {front : List Char} (solid : ∀ c ∈ front, c ≠ nul) (rest : List Char) :
    cstr (front ++ rest) = front ++ cstr rest :=
  List.takeWhile_append_of_pos fun c inside => decide_eq_true (solid c inside)

theorem cstr_isPrefix (s : List Char) : cstr s <+: s := List.takeWhile_prefix _

/-- What fits the 255 bytes is examined whole. -/
theorem examined_append {front : List Char} (solid : ∀ c ∈ front, c ≠ nul)
    (short : front.length ≤ 255) (rest : List Char) :
    ∃ rest', rest' <+: rest ∧ examined (front ++ rest) = front ++ rest' := by
  have within : front.length ≤ min (front ++ rest).length 255 := by
    rw [List.length_append]
    omega
  refine ⟨cstr (rest.take (min (front ++ rest).length 255 - front.length)),
    (cstr_isPrefix _).trans (List.take_prefix _ _), ?_⟩
  rw [examined, List.take_append, List.take_of_length_le within, cstr_append solid]

theorem examined_prefix (buf : List Char) : examined buf <+: buf :=
  (cstr_isPrefix _).trans (List.take_prefix _ _)

theorem isDigit_ne_nul {c : Char} (digit : c.isDigit = true) : c ≠ nul := by
  rintro rfl
  exact absurd digit (by decide)

theorem isspace_ne_nul {c : Char} (space : isspace c = true) : c ≠ nul := by
  rintro rfl
  exact absurd space (by decide)

theorem endsNumeral_prefix {rest rest' : List Char} (ends : EndsNumeral rest)
    (front : rest' <+: rest) : EndsNumeral rest' := by
  obtain ⟨tail, rfl⟩ := front
  cases rest' with
  | nil => rfl
  | cons c rest' => exact ends

/-- Behind all the digits there is no other. -/
theorem endsNumeral_dropWhile (s : List Char) : EndsNumeral (s.dropWhile Char.isDigit) := by
  have outside := List.head?_dropWhile_not Char.isDigit s
  cases head : (s.dropWhile Char.isDigit).head? with
  | none => simp [EndsNumeral, head]
  | some c =>
      rw [head] at outside
      simpa [EndsNumeral, head] using outside

section Numerals

variable {buf ws sign digits rest : List Char}

theorem startPid_no_nul : ∀ c ∈ "start_pid".toList, c ≠ nul := by
  have differs : ∀ c ∈ "start_pid".toList, (c != nul) = true := List.all_eq_true.mp (by decide)
  exact fun c inside => bne_iff_ne.mp (differs c inside)

/-- Up to the end of its digits the text has no zero byte. -/
theorem Numeral.solid (numeral : Numeral buf ws sign digits rest) :
    ∀ c ∈ "start_pid".toList ++ (ws ++ (sign ++ digits)), c ≠ nul := by
  intro c inside
  simp only [List.mem_append] at inside
  rcases inside with inside | inside | inside | inside
  · exact startPid_no_nul c inside
  · exact isspace_ne_nul (numeral.space c inside)
  · rcases numeral.signed with rfl | rfl
    · cases inside
    · rw [List.mem_singleton.mp inside]
      decide
  · exact isDigit_ne_nul (numeral.digits c inside)

/-- A text that holds a numeral does not stop the monitor. -/
theorem Numeral.not_stop (numeral : Numeral buf ws sign digits rest) :
    ¬StopText (examined buf) := by
  obtain ⟨tail, -, seen⟩ :=
    examined_append startPid_no_nul (by decide) (ws ++ (sign ++ (digits ++ rest)))
  rw [StopText, numeral.split, seen, firstToken, skipSpaces_startPid,
    List.takeWhile_append_of_pos startPid_solid]
  intro same
  -- The words differ in their third letter.
  have third := congrArg (·[2]?) same
  simp at third

/-- A numeral that ends among the bytes examined is examined whole. -/
theorem Numeral.examined_start (numeral : Numeral buf ws sign digits rest)
    (short : numeralEnd ws sign digits ≤ 255) :
    ∃ digit more tail, digits = digit :: more ∧ EndsNumeral tail ∧
      StartsWith (examined buf) ws sign digit (more ++ tail) := by
  obtain ⟨digit, more, rfl⟩ := List.exists_cons_of_ne_nil numeral.number
  have length : ("start_pid".toList ++ (ws ++ (sign ++ digit :: more))).length ≤ 255 := by
    have word : "start_pid".toList.length = 9 := by decide
    rw [numeralEnd] at short
    simp only [List.length_append, word]
    omega
  obtain ⟨tail, front, seen⟩ := examined_append numeral.solid length rest
  refine ⟨digit, more, tail, rfl, endsNumeral_prefix numeral.ends front, ?_⟩
  refine ⟨?_, numeral.spaced, numeral.space, numeral.signed, numeral.digits digit List.mem_cons_self⟩
  have whole : buf = "start_pid".toList ++ (ws ++ (sign ++ digit :: more)) ++ rest := by
    rw [numeral.split]
    simp only [List.append_assoc]
  rw [whole, seen]
  simp only [List.append_assoc, List.cons_append]

/-- A text that starts the monitor holds a numeral. -/
theorem numeral_of_start (start : StartText (examined buf)) :
    ∃ ws sign digits rest, Numeral buf ws sign digits rest := by
  obtain ⟨ws, sign, digit, more, starts⟩ := start
  obtain ⟨tail, whole⟩ := examined_prefix buf
  refine ⟨ws, sign, digitRun (digit :: more ++ tail), (digit :: more ++ tail).dropWhile Char.isDigit,
    ?_, starts.spaced, starts.space, starts.signed, ?_, fun c inside => List.mem_takeWhile_imp inside,
    endsNumeral_dropWhile _⟩
  · rw [digitRun, List.takeWhile_append_dropWhile, ← whole, starts.split]
    simp only [List.append_assoc, List.cons_append]
  · simp [digitRun, starts.digit]

end Numerals

/-! ## The conversion -/

/-- `%d` is exact on a numeral that fits. -/
theorem simpleStrtol_fits {sign digits tail : List Char} (signed : sign = [] ∨ sign = ['-'])
    (number : digits ≠ []) (run : ∀ c ∈ digits, c.isDigit = true) (ends : EndsNumeral tail)
    (fits : FitsInt (signedValue sign digits)) :
    toInt32 (simpleStrtol (sign ++ (digits ++ tail))).1 = signedValue sign digits := by
  have digitsRun : digitRun (digits ++ tail) = digits :=
    (takeWhile_eq_self_append run).mpr fun c head => by
      simpa [EndsNumeral, head] using ends
  have value : Nat.ofDigitChars 10 digits 0 < 2 ^ 64 →
      simpleStrtoull (digits ++ tail) = Nat.ofDigitChars 10 digits 0 := by
    intro small
    rw [simpleStrtoull, digitsRun, Nat.mod_eq_of_lt small]
  obtain ⟨low, high⟩ := fits
  rcases signed with rfl | rfl
  · have plain : (digits ++ tail).head? ≠ some '-' := by
      obtain ⟨digit, more, rfl⟩ := List.exists_cons_of_ne_nil number
      simpa using isDigit_ne_minus (run digit List.mem_cons_self)
    have positive : signedValue [] digits = Nat.ofDigitChars 10 digits 0 := if_neg (by decide)
    rw [positive] at low high ⊢
    rw [List.nil_append, simpleStrtol_plain plain, value (by omega), bmod_long (by omega) (by omega)]
    exact toInt32_eq_self low high
  · have negative : signedValue ['-'] digits = -(Nat.ofDigitChars 10 digits 0 : Int) := if_pos rfl
    rw [negative] at low high ⊢
    rw [simpleStrtol_minus rfl, List.singleton_append, List.tail_cons, value (by omega),
      bmod_long (by omega) (by omega)]
    exact toInt32_eq_self low high

/-! ## The pid stored -/

section Law

variable {t : Tid} {e : Env} {s : State}

theorem stores_of_within (within : WithinLimits e) : StoresWrittenPid t e s where
  stores := by
    intro s' returned word
    have accepted : e.command ≠ none := by
      intro rejected
      obtain ⟨a, run, negative⟩ := commandHandler_rejects (t := t) (s := s) rejected
      rw [run] at returned
      cases returned
      omega
    obtain ⟨copied, stop | start⟩ := command_some_iff.mp accepted
    · rw [StopText, word] at stop
      exact absurd stop (by decide)
    · obtain ⟨ws, sign, digits, rest, numeral⟩ := numeral_of_start start
      obtain ⟨fits, short⟩ := within ws sign digits rest numeral copied start
      obtain ⟨digit, more, tail, shape, ends, starts⟩ := numeral.examined_start short
      have converted := simpleStrtol_fits numeral.signed numeral.number numeral.digits ends fits
      have scanned := (command_scanned copied).trans (scanCommand_start starts)
      rw [← List.cons_append, ← shape, converted] at scanned
      rw [commandHandler_start scanned] at returned
      refine ⟨ws, sign, digits, rest, numeral, ?_⟩
      split at returned
      · cases returned
        rfl
      · cases returned
  rejects := by
    intro ws sign digits rest numeral bad
    have rejected : e.command = none := by
      by_contra accepted
      obtain ⟨copied, stop | start⟩ := command_some_iff.mp accepted
      · exact numeral.not_stop stop
      · obtain ⟨fits, short⟩ := within ws sign digits rest numeral copied start
        rcases bad with unfit | long
        · exact unfit fits
        · exact absurd short (Nat.not_le.mpr long)
    obtain ⟨a, run, negative⟩ := commandHandler_rejects (t := t) (s := s) rejected
    exact ⟨a, s, run, negative, rfl⟩

theorem within_of_stores (law : StoresWrittenPid t e s) : WithinLimits e := by
  intro ws sign digits rest numeral copied start
  by_contra beyond
  have bad : ¬FitsInt (signedValue sign digits) ∨ 255 < numeralEnd ws sign digits := by
    rcases not_and_or.mp beyond with unfit | long
    · exact Or.inl unfit
    · exact Or.inr (Nat.not_le.mp long)
  obtain ⟨a, s', run, negative, -⟩ := law.rejects ws sign digits rest numeral bad
  obtain ⟨pid, accepted⟩ := start_accepted start copied
  rw [commandHandler_start accepted] at run
  split at run
  · cases run
    omega
  · cases run

/-- **The pid written is the pid stored** exactly if the command is rejected anyway, or its
numeral fits an `int` and ends among the 255 bytes the handler looks at. -/
theorem stores_written_pid_iff (t : Tid) (e : Env) (s : State) :
    StoresWrittenPid t e s ↔ WithinLimits e :=
  ⟨within_of_stores, stores_of_within⟩

end Law

/-- `2 ^ 32 + 5` is stored as 5. -/
theorem wrapped_pid_stored : ¬StoresWrittenPid 0 (.echo "start_pid 4294967301".toList) .initial := by
  intro law
  have numeral : Numeral "start_pid 4294967301".toList [' '] [] "4294967301".toList [] := by
    exact ⟨by decide, by decide, List.all_eq_true.mp rfl, Or.inl rfl, by decide,
      List.all_eq_true.mp rfl, rfl⟩
  have start : StartText (examined "start_pid 4294967301".toList) :=
    ⟨[' '], [], '4', "294967301".toList, by decide, by decide, List.all_eq_true.mp rfl,
      Or.inl rfl, by decide⟩
  obtain ⟨⟨-, high⟩, -⟩ := within_of_stores law _ _ _ _ numeral rfl start
  revert high
  decide

end Dreamscape.Monitor
