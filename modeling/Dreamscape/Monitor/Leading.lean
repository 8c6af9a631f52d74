/-
# Monitor.Leading -- white space before a command

The first scan of the handler skips leading white space and the second does not, so
` stop_pid` is a command and ` start_pid 5` is none.  White space in front of a text
makes no difference exactly if the text does not start the monitor
(`leading_space_iff`).
-/
import Dreamscape.Monitor.Footprint
import Dreamscape.Monitor.Numerals

namespace Dreamscape.Monitor

set_option autoImplicit false

open Theory Kernel

/-- The environment when `text` is written instead. -/
def Env.writing (e : Env) (text : List Char) : Env := { e with userBuf := text }

/-- What became of writing `text`. -/
def written (t : Tid) (e : Env) (text : List Char) (s : State) : Answer Int :=
  (commandHandler text.length).exec (kernel t (e.writing text)) s

/-- Two writes that leave the same target and files and both succeed or both fail; neither
returns if the other does not. -/
def SameEffect : Answer Int → Answer Int → Prop
  | .done a s, .done a' s' =>
      (0 ≤ a ↔ 0 ≤ a') ∧ s.targetPid = s'.targetPid ∧ s.files = s'.files
  | .blocked s, .blocked s' => s.targetPid = s'.targetPid ∧ s.files = s'.files
  | .fault f s, .fault f' s' => f = f' ∧ s.targetPid = s'.targetPid ∧ s.files = s'.files
  | _, _ => False

/-! ## The text -/

section Texts

variable {w c : List Char}

theorem examined_short {text : List Char} (short : text.length ≤ 255) : examined text = cstr text := by
  rw [examined, List.take_of_length_le (by omega)]

/-- White space in front stays in front. -/
theorem examined_space (space : ∀ d ∈ w, isspace d = true) (short : w.length + c.length ≤ 255) :
    examined (w ++ c) = w ++ examined c := by
  rw [examined_short (by rw [List.length_append]; exact short), examined_short (by omega),
    cstr_append fun d inside => isspace_ne_nul (space d inside)]

theorem firstToken_space (space : ∀ d ∈ w, isspace d = true) (s : List Char) :
    firstToken (w ++ s) = firstToken s := by
  rw [firstToken, skipSpaces_append space, firstToken]

theorem stopText_space (space : ∀ d ∈ w, isspace d = true) (s : List Char) :
    StopText (w ++ s) ↔ StopText s := by
  rw [StopText, firstToken_space space, StopText]

/-- A text with white space in front does not start the monitor. -/
theorem not_start_of_space (space : ∀ d ∈ w, isspace d = true) (some_ : w ≠ []) (s : List Char) :
    ¬StartText (w ++ s) := by
  rintro ⟨ws, sign, digit, rest, starts⟩
  obtain ⟨d, w, rfl⟩ := List.exists_cons_of_ne_nil some_
  have solid : isspace 's' = false := by decide
  have first : d = 's' := (List.cons.inj starts.split).1
  rw [← first, space d List.mem_cons_self] at solid
  cases solid

/-- So it is a command only if it stops the monitor. -/
theorem not_command_of_space (space : ∀ d ∈ w, isspace d = true) (some_ : w ≠ []) {s : List Char}
    (notStop : ¬StopText s) : ¬CommandText (w ++ s) := by
  rintro (stop | start)
  · exact notStop ((stopText_space space s).mp stop)
  · exact not_start_of_space space some_ s start

end Texts

/-! ## The two writes -/

section Writes

variable {t : Tid} {e : Env} {s : State} {w c : List Char}

theorem sameEffect_refl (x : Answer Int) : SameEffect x x := by
  cases x <;> simp [SameEffect]

/-- A text that is read and is no command is rejected. -/
theorem rejected_of_other {text : List Char} (copied : e.copyFails = false)
    (other : ¬CommandText (examined text)) : (e.writing text).command = none := by
  have scanned := command_scanned (e := e.writing text) copied
  exact scanned.trans (scanCommand_rejects other)

theorem sameEffect_rejected {text text' : List Char} (rejected : (e.writing text).command = none)
    (rejected' : (e.writing text').command = none) :
    SameEffect (written t e text s) (written t e text' s) := by
  obtain ⟨a, run, negative⟩ := commandHandler_rejects (t := t) (s := s) rejected
  obtain ⟨a', run', negative'⟩ := commandHandler_rejects (t := t) (s := s) rejected'
  replace run : written t e text s = .done a s := run
  replace run' : written t e text' s = .done a' s := run'
  rw [run, run']
  exact ⟨by omega, rfl, rfl⟩

/-- A dump does not look at the text. -/
theorem writeKinfoToFile_writing (text : List Char) (pid : Int) :
    (writeKinfoToFile pid).exec (kernel t (e.writing text)) s =
      (writeKinfoToFile pid).exec (kernel t e) s := by
  refine (writeKinfoToFile_dumps pid).exec_congr (fun o dumps => ?_) s
  cases o <;> first | rfl | exact dumps.elim

theorem sameEffect_bind {x : Answer Unit} {f f' : Unit → State → Answer Int}
    (same : ∀ s, SameEffect (f () s) (f' () s)) : SameEffect (x.bind f) (x.bind f') := by
  cases x with
  | done a s => exact same s
  | blocked s => exact ⟨rfl, rfl⟩
  | fault fault s => exact ⟨rfl, rfl, rfl⟩

theorem written_stop {text : List Char} (copied : e.copyFails = false)
    (stop : StopText (examined text)) :
    written t e text s = ((writeKinfoToFile s.targetPid).exec (kernel t e) s).bind fun _ s' =>
      if s'.mutex = none then .done (text.length : Int) { s' with targetPid := -1 }
      else .blocked s' := by
  have run := commandHandler_stop (t := t) (e := e.writing text) (s := s) (stop_accepted stop copied)
  rw [writeKinfoToFile_writing] at run
  exact run

theorem sameEffect_stop {text text' : List Char} (copied : e.copyFails = false)
    (stop : StopText (examined text)) (stop' : StopText (examined text')) :
    SameEffect (written t e text s) (written t e text' s) := by
  rw [written_stop copied stop, written_stop copied stop']
  refine sameEffect_bind fun s' => ?_
  by_cases free : s'.mutex = none
  · rw [if_pos free, if_pos free]
    exact ⟨by omega, rfl, rfl⟩
  · rw [if_neg free, if_neg free]
    exact ⟨rfl, rfl⟩

/-- A command that starts the monitor never fails; with white space in front it does. -/
theorem start_differs (copied : e.copyFails = false) (start : StartText (examined c))
    (rejected : (e.writing w).command = none) :
    ¬SameEffect (written t e w s) (written t e c s) := by
  obtain ⟨a, run, negative⟩ := commandHandler_rejects (t := t) (s := s) rejected
  obtain ⟨pid, accepted⟩ := start_accepted (e := e.writing c) start copied
  have run' := commandHandler_start (t := t) (s := s) accepted
  replace run : written t e w s = .done a s := run
  replace run' : written t e c s =
      if s.mutex = none then .done (c.length : Int) { s with targetPid := pid } else .blocked s := run'
  rw [run, run']
  split
  · rintro ⟨both, -⟩
    omega
  · exact id

/-- **Leading white space** makes no difference to a write exactly if there is none, the copy
fails, or the text does not start the monitor. -/
theorem leading_space_iff (t : Tid) (e : Env) (s : State) (space : ∀ d ∈ w, isspace d = true)
    (short : w.length + c.length ≤ 255) :
    SameEffect (written t e (w ++ c) s) (written t e c s) ↔
      w = [] ∨ e.copyFails = true ∨ ¬StartText (examined c) := by
  have seen := examined_space space short
  constructor
  · intro same
    by_contra other
    simp only [not_or, not_not] at other
    obtain ⟨some_, copies, start⟩ := other
    have copied : e.copyFails = false := Bool.eq_false_iff.mpr copies
    refine start_differs copied start (rejected_of_other copied ?_) same
    rw [seen]
    exact not_command_of_space space some_ (not_stop_of_start start)
  · intro alike
    by_cases none_ : w = []
    · subst none_
      exact sameEffect_refl _
    by_cases fails : e.copyFails = true
    · exact sameEffect_rejected (if_pos fails) (if_pos fails)
    have copied : e.copyFails = false := Bool.eq_false_iff.mpr fails
    have notStart : ¬StartText (examined c) := (alike.resolve_left none_).resolve_left fails
    by_cases stop : StopText (examined c)
    · refine sameEffect_stop copied ?_ stop
      rw [seen]
      exact (stopText_space space _).mpr stop
    · have spaced : ¬CommandText (examined (w ++ c)) := by
        rw [seen]
        exact not_command_of_space space none_ stop
      have plain : ¬CommandText (examined c) := not_or.mpr ⟨stop, notStart⟩
      exact sameEffect_rejected (rejected_of_other copied spaced) (rejected_of_other copied plain)

end Writes

/-- `stop_pid` may be indented. -/
theorem indented_stop : SameEffect (written 0 .quiet (" ".toList ++ "stop_pid".toList) .initial)
    (written 0 .quiet "stop_pid".toList .initial) := by
  have space : ∀ d ∈ " ".toList, isspace d = true := List.all_eq_true.mp rfl
  refine (leading_space_iff 0 .quiet .initial space (by decide)).mpr (Or.inr (Or.inr ?_))
  rintro ⟨ws, sign, digit, rest, starts⟩
  have word := firstToken_start starts
  revert word
  decide

/-- `start_pid` may not. -/
theorem indented_start_rejected : ¬∀ (w c : List Char), (∀ d ∈ w, isspace d = true) →
    w.length + c.length ≤ 255 →
    SameEffect (written 0 .quiet (w ++ c) .initial) (written 0 .quiet c .initial) := by
  intro law
  have start : StartText (examined "start_pid 5".toList) :=
    ⟨[' '], [], '5', [], by decide, by decide, List.all_eq_true.mp rfl, Or.inl rfl, by decide⟩
  refine start_differs (e := .quiet) rfl start ?_
    (law " ".toList "start_pid 5".toList (List.all_eq_true.mp rfl) (by decide))
  decide

end Dreamscape.Monitor
