/-
# Monitor.Grammar -- the commands a written text can hold

Two scans decide what a text asks for: the first takes its first word, wherever it
stands, and the second wants `start_pid` at the very front.  `scanCommand` accepts
exactly the texts that ask for one of the two commands (`scanCommand_stop`,
`scanCommand_start`), and what the handler then does is told in one lemma for each
(`commandHandler_start`, `commandHandler_stop`, `commandHandler_rejects`).
-/
import Dreamscape.Monitor.DumpOutcome
import Dreamscape.Monitor.Session
import Mathlib.Data.List.DropRight
import Mathlib.Data.List.TakeWhile

namespace Dreamscape.Monitor

set_option autoImplicit false

open Theory Kernel

/-! ## Texts -/

/-- What the handler looks at: at most 255 bytes, up to the first zero byte. -/
def examined (userBuf : List Char) : List Char := cstr (userBuf.take (min userBuf.length 255))

/-- The first word between white space. -/
def firstToken (s : List Char) : List Char := (skipSpaces s).takeWhile fun c => !isspace c

/-- The text stops the monitor. -/
def StopText (s : List Char) : Prop := firstToken s = "stop_pid".toList

instance (s : List Char) : Decidable (StopText s) := instDecidableEqList _ _

/-- `start_pid` at the front, white space, and a number that begins with `digit`. -/
structure StartsWith (s ws sign : List Char) (digit : Char) (rest : List Char) : Prop where
  split : s = "start_pid".toList ++ (ws ++ (sign ++ digit :: rest))
  spaced : ws ≠ []
  space : ∀ c ∈ ws, isspace c = true
  signed : sign = [] ∨ sign = ['-']
  digit : digit.isDigit = true

/-- The text starts the monitor. -/
def StartText (s : List Char) : Prop := ∃ ws sign digit rest, StartsWith s ws sign digit rest

/-- The text is one of the two commands. -/
def CommandText (s : List Char) : Prop := StopText s ∨ StartText s

/-! ## Runs -/

theorem takeWhile_eq_self_append {p : Char → Bool} {run rest : List Char}
    (inside : ∀ c ∈ run, p c = true) :
    (run ++ rest).takeWhile p = run ↔ ∀ c, rest.head? = some c → p c = false := by
  rw [List.takeWhile_append_of_pos inside]
  cases rest with
  | nil => simp
  | cons c rest => cases outside : p c <;> simp [outside]

theorem skipSpaces_append {ws : List Char} (space : ∀ c ∈ ws, isspace c = true) (s : List Char) :
    skipSpaces (ws ++ s) = skipSpaces s :=
  List.dropWhile_append_of_pos space

theorem skipSpaces_idem (s : List Char) : skipSpaces (skipSpaces s) = skipSpaces s :=
  List.dropWhile_idempotent isspace s

/-- White space, and what stands behind it. -/
theorem spaces_split (s : List Char) :
    ∃ ws, s = ws ++ skipSpaces s ∧ ∀ c ∈ ws, isspace c = true :=
  ⟨s.takeWhile isspace, List.takeWhile_append_dropWhile.symm, fun _ inside => List.mem_takeWhile_imp inside⟩

/-- A number begins where the scanner looks for one. -/
theorem leadingDigit_iff (s : List Char) :
    (leadingDigit s).any Char.isDigit = true ↔
      ∃ sign digit rest, s = sign ++ digit :: rest ∧ (sign = [] ∨ sign = ['-']) ∧
        digit.isDigit = true := by
  constructor
  · intro leads
    cases s with
    | nil => cases leads
    | cons c s =>
        by_cases minus : c = '-'
        · subst minus
          cases s with
          | nil => cases leads
          | cons digit rest => exact ⟨['-'], digit, rest, rfl, Or.inr rfl, by simpa [leadingDigit] using leads⟩
        · exact ⟨[], c, s, rfl, Or.inl rfl, by simpa [leadingDigit, minus] using leads⟩
  · rintro ⟨sign, digit, rest, rfl, rfl | rfl, isDigit⟩
    · simp [leadingDigit, isDigit_ne_minus isDigit, isDigit]
    · simp [leadingDigit, isDigit]

/-- Where a number begins there is no white space. -/
theorem skipSpaces_number {sign rest : List Char} {digit : Char} (signed : sign = [] ∨ sign = ['-'])
    (isDigit : digit.isDigit = true) :
    skipSpaces (sign ++ digit :: rest) = sign ++ digit :: rest := by
  rcases signed with rfl | rfl
  · exact skipSpaces_cons (isDigit_not_space isDigit) rest
  · exact skipSpaces_cons (by decide) _

/-! ## The scans -/

/-- Literal characters want to stand at the front. -/
theorem prefix_of_vsscanf {text : List Char} {fmt : List Directive} {s : List Char}
    (matched : vsscanf (literals text ++ fmt) s ≠ []) : ∃ rest, s = text ++ rest := by
  induction text generalizing s with
  | nil => exact ⟨s, rfl⟩
  | cons c text ih =>
      cases s with
      | nil => exact absurd rfl matched
      | cons d s =>
          by_cases same : c = d
          · subst same
            obtain ⟨rest, rfl⟩ := ih (s := s) (by simpa [literals, vsscanf] using matched)
            exact ⟨rest, rfl⟩
          · exact absurd (by simp [literals, vsscanf, same]) matched

theorem vsscanf_word {s : List Char} (nonempty : s ≠ []) :
    vsscanf [.str 31] s = [.str ((firstToken s).take 31)] := by
  simp [vsscanf, nonempty, firstToken]

/-- The 32-byte buffer holds both command words. -/
theorem take_word {s word : List Char} (short : word.length < 31) :
    s.take 31 = word ↔ s = word := by
  constructor
  · intro cut
    rw [← cut, List.length_take] at short
    rw [← cut, List.take_of_length_le (by omega)]
  · rintro rfl
    exact List.take_of_length_le (by omega)

theorem scanCommand_word {s word : List Char} (known : firstToken s = word)
    (short : word.length < 31) (nonempty : s ≠ []) :
    scanCommand s =
      if word = "start_pid".toList then
        match vsscanf (literals "start_pid".toList ++ [.space, .int]) s with
        | [.int pid] => some (.startPid pid)
        | _ => none
      else if word = "stop_pid".toList then some .stopPid
      else none := by
  have scanned : vsscanf [.str 31] s = [.str word] := by
    rw [vsscanf_word nonempty, (take_word short).mpr known]
  unfold scanCommand
  generalize vsscanf [.str 31] s = fields at scanned ⊢
  subst scanned
  rfl

theorem firstToken_nil : firstToken [] = [] := rfl

theorem nonempty_of_token {s word : List Char} (known : firstToken s = word) (some_ : word ≠ []) :
    s ≠ [] := by
  rintro rfl
  exact some_ (known.symm.trans firstToken_nil)

/-- A text with another first word is no command. -/
theorem scanCommand_other {s : List Char} (start : firstToken s ≠ "start_pid".toList)
    (stop : firstToken s ≠ "stop_pid".toList) : scanCommand s = none := by
  by_cases empty : s = []
  · subst empty
    rfl
  · have start' : (firstToken s).take 31 ≠ "start_pid".toList :=
      mt (take_word (by decide)).mp start
    have stop' : (firstToken s).take 31 ≠ "stop_pid".toList :=
      mt (take_word (by decide)).mp stop
    rw [scanCommand, vsscanf_word empty]
    simp only [start', stop', if_false]

theorem scanCommand_stop {s : List Char} (stop : StopText s) : scanCommand s = some .stopPid := by
  rw [scanCommand_word stop (by decide) (nonempty_of_token stop (by decide)),
    if_neg (by decide), if_pos rfl]

theorem vsscanf_start {s ws sign rest : List Char} {digit : Char}
    (starts : StartsWith s ws sign digit rest) :
    vsscanf (literals "start_pid".toList ++ [.space, .int]) s =
      [.int (toInt32 (simpleStrtol (sign ++ digit :: rest)).1)] := by
  have leads := (leadingDigit_iff (sign ++ digit :: rest)).mpr
    ⟨sign, digit, rest, rfl, starts.signed, starts.digit⟩
  have nonempty : sign ++ digit :: rest ≠ [] := List.append_ne_nil_of_right_ne_nil _ (List.cons_ne_nil _ _)
  rw [starts.split, vsscanf_literals]
  simp only [vsscanf, skipSpaces_append starts.space, skipSpaces_number starts.signed starts.digit,
    nonempty, if_false, leads, if_true]

/-- The command word has no white space in it. -/
theorem startPid_solid : ∀ c ∈ "start_pid".toList, (!isspace c) = true :=
  List.all_eq_true.mp (by decide)

theorem skipSpaces_startPid (rest : List Char) :
    skipSpaces ("start_pid".toList ++ rest) = "start_pid".toList ++ rest := by
  have solid : isspace 's' = false := by decide
  exact skipSpaces_cons solid _

theorem firstToken_start {s ws sign rest : List Char} {digit : Char}
    (starts : StartsWith s ws sign digit rest) : firstToken s = "start_pid".toList := by
  obtain ⟨c, ws', rfl⟩ := List.exists_cons_of_ne_nil starts.spaced
  have space : isspace c = true := starts.space c List.mem_cons_self
  rw [firstToken, starts.split, skipSpaces_startPid, takeWhile_eq_self_append startPid_solid]
  intro d head
  cases head
  simp [space]

theorem scanCommand_start {s ws sign rest : List Char} {digit : Char}
    (starts : StartsWith s ws sign digit rest) :
    scanCommand s = some (.startPid (toInt32 (simpleStrtol (sign ++ digit :: rest)).1)) := by
  have known := firstToken_start starts
  rw [scanCommand_word known (by decide) (nonempty_of_token known (by decide)), if_pos rfl,
    vsscanf_start starts]

/-- The second scan has found a number only in a text that starts the monitor. -/
theorem startText_of_vsscanf {s : List Char} {pid : Int} (known : firstToken s = "start_pid".toList)
    (scanned : vsscanf (literals "start_pid".toList ++ [.space, .int]) s = [.int pid]) :
    StartText s := by
  obtain ⟨rest, rfl⟩ := prefix_of_vsscanf (by rw [scanned]; exact List.cons_ne_nil _ _)
  rw [vsscanf_literals] at scanned
  obtain ⟨ws, split, space⟩ := spaces_split rest
  have leads : (leadingDigit (skipSpaces rest)).any Char.isDigit = true := by
    by_contra other
    simp [vsscanf, skipSpaces_idem, other] at scanned
  obtain ⟨sign, digit, tail, shape, signed, isDigit⟩ := (leadingDigit_iff _).mp leads
  rw [shape] at split
  refine ⟨ws, sign, digit, tail, by rw [← split], ?_, space, signed, isDigit⟩
  -- Without white space the number would belong to the word.
  rintro rfl
  rw [firstToken, skipSpaces_startPid, takeWhile_eq_self_append startPid_solid] at known
  rw [split] at known
  rcases signed with rfl | rfl
  · have glued := known digit rfl
    rw [isDigit_not_space isDigit] at glued
    cases glued
  · have glued := known '-' rfl
    revert glued
    decide

theorem scanCommand_rejects {s : List Char} (other : ¬CommandText s) : scanCommand s = none := by
  by_cases start : firstToken s = "start_pid".toList
  · rw [scanCommand_word start (by decide) (nonempty_of_token start (by decide)), if_pos rfl]
    cases scanned : vsscanf (literals "start_pid".toList ++ [.space, .int]) s with
    | nil => rfl
    | cons field fields =>
        cases field with
        | str text => rfl
        | int pid =>
            cases fields with
            | cons next fields => rfl
            | nil => exact absurd (Or.inr (startText_of_vsscanf start scanned)) other
  · exact scanCommand_other start fun stop => other (Or.inl stop)

/-! ## The handler -/

section Handler

variable {t : Tid} {e : Env} {s : State}

theorem command_some_iff :
    e.command ≠ none ↔ e.copyFails = false ∧ CommandText (examined e.userBuf) := by
  by_cases fails : e.copyFails = true
  · simp [Env.command, fails]
  · have scanned : e.command = scanCommand (examined e.userBuf) := if_neg fails
    rw [scanned, Bool.eq_false_iff, and_iff_right fails]
    constructor
    · exact fun accepted => not_not.mp (mt scanCommand_rejects accepted)
    · rintro (stop | ⟨ws, sign, digit, rest, starts⟩)
      · rw [scanCommand_stop stop]
        exact Option.some_ne_none _
      · rw [scanCommand_start starts]
        exact Option.some_ne_none _

theorem command_scanned (copied : e.copyFails = false) :
    e.command = scanCommand (examined e.userBuf) :=
  if_neg (Bool.eq_false_iff.mp copied)

/-- What is not accepted is answered with an error, and nothing else happens. -/
theorem commandHandler_rejects (rejected : e.command = none) :
    ∃ a, (commandHandler e.userBuf.length).exec (kernel t e) s = .done a s ∧ a < 0 := by
  rw [commandHandler_copy]
  by_cases fails : e.copyFails = true
  · rw [if_pos fails]
    exact ⟨Errno.EFAULT.code, rfl, by decide⟩
  · rw [Env.command, if_neg fails] at rejected
    rw [if_neg fails, rejected]
    exact ⟨Errno.EINVAL.code, rfl, by decide⟩

/-- A command that is accepted has been copied. -/
theorem command_copied {command : Command} (accepted : e.command = some command) :
    ¬e.copyFails = true ∧
      scanCommand (cstr (e.userBuf.take (min e.userBuf.length 255))) = some command := by
  have copied : ¬e.copyFails = true := by
    intro fails
    rw [Env.command, if_pos fails] at accepted
    cases accepted
  rw [Env.command, if_neg copied] at accepted
  exact ⟨copied, accepted⟩

/-- `start_pid` sets the target, once it has the mutex. -/
theorem commandHandler_start {pid : Int} (accepted : e.command = some (.startPid pid)) :
    (commandHandler e.userBuf.length).exec (kernel t e) s =
      if s.mutex = none then .done e.userBuf.length { s with targetPid := pid } else .blocked s := by
  obtain ⟨copied, scanned⟩ := command_copied accepted
  rw [commandHandler_copy, if_neg copied, scanned]
  by_cases free : s.mutex = none
  · rw [if_pos free]
    exact setTarget_exec free pid _
  · rw [if_neg free]
    simp [kernel, free]

/-- `stop_pid` clears the target once it has written the dump and has the mutex. -/
theorem commandHandler_stop (accepted : e.command = some .stopPid) :
    (commandHandler e.userBuf.length).exec (kernel t e) s =
      ((writeKinfoToFile s.targetPid).exec (kernel t e) s).bind fun _ s' =>
        if s'.mutex = none then .done (e.userBuf.length : Int) { s' with targetPid := -1 }
        else .blocked s' := by
  obtain ⟨copied, scanned⟩ := command_copied accepted
  rw [commandHandler_copy, if_neg copied, scanned]
  simp only [getTargetPid, call, Prog.call_bind, Prog.ret_bind, Prog.exec_call, Prog.exec_bind,
    kernel, Outcome.bind_done]
  congr 1
  funext _ s'
  by_cases free : s'.mutex = none
  · rw [if_pos free]
    have reset := setTarget_exec (t := t) (e := e) free (-1) e.userBuf.length
    simp only [Prog.exec_bind] at reset
    exact reset
  · rw [if_neg free]
    simp [kernel, free]

end Handler

/-! ## The grammar -/

/-- The handler answers `count` to the two commands and nothing else; `start_pid` changes the
target only, and what is rejected changes nothing. -/
structure KeepsGrammar (t : Tid) (e : Env) (s : State) : Prop where
  accepts : (∃ s', (commandHandler e.userBuf.length).exec (kernel t e) s = .done e.userBuf.length s') ↔
    e.copyFails = false ∧ CommandText (examined e.userBuf)
  starts : ∀ s', (commandHandler e.userBuf.length).exec (kernel t e) s = .done e.userBuf.length s' →
    StartText (examined e.userBuf) → ∃ pid, s' = { s with targetPid := pid }
  rejects : ¬(e.copyFails = false ∧ CommandText (examined e.userBuf)) →
    ∃ a s', (commandHandler e.userBuf.length).exec (kernel t e) s = .done a s' ∧ a < 0 ∧
      s'.targetPid = s.targetPid ∧ s'.counterList = s.counterList ∧ s'.files = s.files

/-- An accepted command can be carried out: the mutex is free, and a dump does not have to
write to a file without `f_op->write`. -/
def CanBeCarriedOut (e : Env) (s : State) : Prop :=
  s.mutex = none ∧ (StopText (examined e.userBuf) → e.Dumpable s)

section Law

variable {t : Tid} {e : Env} {s : State}

/-- No text is both commands. -/
theorem not_stop_of_start {text : List Char} (start : StartText text) : ¬StopText text := by
  obtain ⟨ws, sign, digit, rest, starts⟩ := start
  rw [StopText, firstToken_start starts]
  decide

theorem start_accepted (start : StartText (examined e.userBuf)) (copied : e.copyFails = false) :
    ∃ pid, e.command = some (.startPid pid) := by
  obtain ⟨ws, sign, digit, rest, starts⟩ := start
  exact ⟨_, (command_scanned copied).trans (scanCommand_start starts)⟩

theorem stop_accepted (stop : StopText (examined e.userBuf)) (copied : e.copyFails = false) :
    e.command = some .stopPid :=
  (command_scanned copied).trans (scanCommand_stop stop)

/-- An accepted command is answered with `count` exactly if it can be carried out. -/
theorem accepted_returns_iff (linked : Linked s) (accepted : e.command ≠ none) :
    (∃ s', (commandHandler e.userBuf.length).exec (kernel t e) s = .done e.userBuf.length s') ↔
      CanBeCarriedOut e s := by
  obtain ⟨copied, stop | start⟩ := command_some_iff.mp accepted
  · rw [commandHandler_stop (stop_accepted stop copied), CanBeCarriedOut, imp_iff_right stop]
    rcases writeKinfoToFile_ends (t := t) (e := e) linked s.targetPid with
      ⟨dumpable, s', run, ends⟩ | ⟨stuck, s', run⟩
    · have same : s'.mutex = s.mutex := by
        rcases ends with rfl | ⟨content, rfl⟩ <;> rfl
      rw [run, Outcome.bind_done, same, and_iff_left dumpable]
      by_cases free : s.mutex = none
      · rw [if_pos free]
        exact ⟨fun _ => free, fun _ => ⟨_, rfl⟩⟩
      · rw [if_neg free]
        exact ⟨(fun ⟨_, blocked⟩ => nomatch blocked), fun taken => absurd taken free⟩
    · rw [run, Outcome.bind_fault]
      exact ⟨(fun ⟨_, fault⟩ => nomatch fault), fun able => absurd able.2 stuck⟩
  · obtain ⟨pid, accepted⟩ := start_accepted start copied
    have notStop := not_stop_of_start start
    rw [commandHandler_start accepted]
    by_cases free : s.mutex = none
    · rw [if_pos free]
      exact ⟨fun _ => ⟨free, fun stop => absurd stop notStop⟩, fun _ => ⟨_, rfl⟩⟩
    · rw [if_neg free]
      exact ⟨(fun ⟨_, blocked⟩ => nomatch blocked), fun able => absurd able.1 free⟩

theorem rejected_returns (rejected : ¬(e.copyFails = false ∧ CommandText (examined e.userBuf))) :
    ∃ a, (commandHandler e.userBuf.length).exec (kernel t e) s = .done a s ∧ a < 0 :=
  commandHandler_rejects (not_not.mp (mt command_some_iff.mp rejected))

/-- **The command grammar**: on a well-formed list, a write keeps to the grammar exactly if its
command, when it holds one, can be carried out. -/
theorem keeps_grammar_iff (linked : Linked s) (t : Tid) (e : Env) :
    KeepsGrammar t e s ↔
      (e.copyFails = false → CommandText (examined e.userBuf) → CanBeCarriedOut e s) := by
  constructor
  · intro keeps copied command
    have accepted := command_some_iff.mpr ⟨copied, command⟩
    exact (accepted_returns_iff linked accepted).mp (keeps.accepts.mpr ⟨copied, command⟩)
  · intro able
    refine ⟨⟨?_, ?_⟩, ?_, ?_⟩
    · rintro ⟨s', returned⟩
      by_contra rejected
      obtain ⟨a, run, negative⟩ := rejected_returns (t := t) (s := s) rejected
      rw [run] at returned
      cases returned
      omega
    · rintro ⟨copied, command⟩
      have accepted := command_some_iff.mpr ⟨copied, command⟩
      exact (accepted_returns_iff linked accepted).mpr (able copied command)
    · intro s' returned start
      by_cases fails : e.copyFails = false
      · obtain ⟨pid, accepted⟩ := start_accepted start fails
        rw [commandHandler_start accepted, if_pos (able fails (Or.inr start)).1] at returned
        cases returned
        exact ⟨pid, rfl⟩
      · obtain ⟨a, run, negative⟩ := rejected_returns (t := t) (s := s) fun both => fails both.1
        rw [run] at returned
        cases returned
        omega
    · intro rejected
      obtain ⟨a, run, negative⟩ := rejected_returns (t := t) (s := s) rejected
      exact ⟨a, s, run, negative, rfl, rfl, rfl⟩

end Law

/-- A `stop_pid` that dumps an entry to a file that takes it. -/
theorem stop_keeps_grammar : KeepsGrammar 0 (.echo "stop_pid\n".toList) .oneRow :=
  (keeps_grammar_iff linked_oneRow 0 (.echo "stop_pid\n".toList)).mpr
    fun _ _ => ⟨rfl, fun _ unwritable => nomatch unwritable⟩

/-- `stop_pid` on a file system without `f_op->write`. -/
def Env.stopUnwritable : Env := { Env.echo "stop_pid\n".toList with filpOpen := .ok false }

theorem stop_without_write_faults : ¬KeepsGrammar 0 .stopUnwritable .oneRow := by
  have stop : StopText (examined Env.stopUnwritable.userBuf) := by decide
  intro keeps
  obtain ⟨s', returned⟩ := keeps.accepts.mpr ⟨rfl, Or.inl stop⟩
  have able := (accepted_returns_iff linked_oneRow (command_some_iff.mpr ⟨rfl, Or.inl stop⟩)).mp ⟨s', returned⟩
  exact absurd (able.2 stop rfl) (List.cons_ne_nil _ _)

end Dreamscape.Monitor
