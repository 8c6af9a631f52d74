/-
# Monitor.DumpFaults -- what a failing file system makes of a dump

`write_kinfo_to_file` returns nothing, looks at no result of its writes and looks for
`f_op->write` before one write in fifteen.  So a dump is safe exactly if it need not
write to a file without that operation (`dumps_safely_iff`), and `stop_pid`, which
cannot learn what became of its dump, answers truly exactly if everything was stored
(`reports_dump_iff`).
-/
import Dreamscape.Monitor.Footprint
import Dreamscape.Monitor.Grammar

namespace Dreamscape.Monitor

set_option autoImplicit false

open Theory Kernel

/-! ## A dump leaves the kernel as it found it -/

/-- The file a call closes. -/
def Op.closes : Op → Option Nat
  | .filpClose file => some file
  | _ => none

/-- A dump for `pid` calls through no null pointer and, once it has opened its file,
restores the address limit and closes that file once. -/
structure DumpsSafely (t : Tid) (e : Env) (s : State) (pid : Int) : Prop where
  never_null : ∀ s', (writeKinfoToFile pid).exec (kernel t e) s ≠ .fault .nullDereference s'
  restores : ∀ writable, e.filpOpen = .ok writable →
    ∃ s', (writeKinfoToFile pid).exec (kernel t e) s = .done () s' ∧
      s'.addrLimit t = s.addrLimit t ∧ s'.openFiles s.nextFile = none
  closes_once : ∀ writable, e.filpOpen = .ok writable →
    ((writeKinfoToFile pid).trace (kernel t e) s).filterMap Op.closes = [s.nextFile]

section Safety

variable {t : Tid} {e : Env} {s : State}

theorem lines_close_nothing {o : Op} (line : o.Lines) : o.closes = none := by
  cases o <;> first | exact line.elim | rfl

/-- After the loops a dump restores the limit and closes its file. -/
theorem ending_calls (file : Nat) (oldFs : Segment) (s : State) :
    (do setFs oldFs; filpClose file : Code Unit).trace (kernel t e) s =
      [.setFs oldFs, .filpClose file] := by
  simp [kernel]

/-- Before them it opens the file, raises the limit and reads the list. -/
theorem writeKinfoToFile_calls {writable : Bool} (opens : e.filpOpen = .ok writable) (pid : Int) :
    (writeKinfoToFile pid).trace (kernel t e) s =
      [.filpOpen (dumpName pid), .getFs, .setFs .kernelDs, .setFPos s.nextFile 0, .counterList] ++
        (writeEntries s.nextFile s.counterList >>= fun _ =>
          (do setFs (s.addrLimit t); filpClose s.nextFile : Code Unit)).trace (kernel t e)
            ((s.opening t).dumping s.nextFile [] ⟨dumpName pid, 0, writable, 0⟩) := by
  simp [writeKinfoToFile, kernel, opens, State.onFile, State.dumping, State.opening]

/-- The loops close nothing, so a dump that returns has closed its file once. -/
theorem writeKinfoToFile_closes {writable : Bool} (opens : e.filpOpen = .ok writable) {pid : Int}
    {s' : State} (returned : (writeKinfoToFile pid).exec (kernel t e) s = .done () s') :
    ((writeKinfoToFile pid).trace (kernel t e) s).filterMap Op.closes = [s.nextFile] := by
  let begun : State := (s.opening t).dumping s.nextFile [] ⟨dumpName pid, 0, writable, 0⟩
  have silent : ((writeEntries s.nextFile s.counterList).trace (kernel t e) begun).filterMap
      Op.closes = [] :=
    List.filterMap_eq_nil_iff.mpr fun o made =>
      lines_close_nothing ((writeEntries_lines _ _).trace begun o made)
  rw [writeKinfoToFile_begin opens, Outcome.bind_eq_done] at returned
  obtain ⟨_, s₁, looped, _⟩ := returned
  rw [writeKinfoToFile_calls opens, Prog.trace_bind, looped, Outcome.onward_done, ending_calls,
    List.filterMap_append, List.filterMap_append, silent]
  rfl

/-- **A dump is safe** exactly if it has no entry to write to a file without
`f_op->write`. -/
theorem dumps_safely_iff (linked : Linked s) (t : Tid) (e : Env) (pid : Int) :
    DumpsSafely t e s pid ↔ e.Dumpable s := by
  rcases writeKinfoToFile_ends (t := t) (e := e) linked pid with
    ⟨dumpable, s', run, -⟩ | ⟨stuck, s', run⟩
  · refine iff_of_true ⟨fun s'' fault => ?_, fun writable opens => ?_, fun writable opens => ?_⟩ dumpable
    · rw [run] at fault
      cases fault
    · obtain ⟨content, run⟩ := writeKinfoToFile_opened (t := t) linked dumpable opens pid
      exact ⟨s.wrote pid content, run, rfl, Function.update_self ..⟩
    · exact writeKinfoToFile_closes opens run
  · exact iff_of_false (fun safely => safely.never_null s' run) stuck

end Safety

/-- A list of one entry is dumped safely to a file that takes writes. -/
theorem one_row_dumps_safely : DumpsSafely 0 .quiet .oneRow 5 :=
  (dumps_safely_iff linked_oneRow 0 .quiet 5).mpr fun unwritable => nomatch unwritable

/-- And not to one that does not. -/
theorem one_row_unwritable : ¬DumpsSafely 0 .stopUnwritable .oneRow 5 := by
  intro safely
  exact safely.never_null _
    (writeKinfoToFile_oops linked_oneRow (e := .stopUnwritable) rfl (List.cons_ne_nil _ _) 5)

/-! ## What stop_pid answers -/

/-- Every one of these texts, written one after the other from call `k` on, is stored whole. -/
def Env.StoresEach (e : Env) (k : Nat) (texts : List (List Char)) : Prop :=
  ∀ i text, texts[i]? = some text → (e.write (k + i)).stored text = text

theorem storesEach_cons {e : Env} {k : Nat} {text : List Char} {texts : List (List Char)} :
    e.StoresEach k (text :: texts) ↔
      (e.write k).stored text = text ∧ e.StoresEach (k + 1) texts := by
  constructor
  · intro each
    refine ⟨each 0 text rfl, fun i later found => ?_⟩
    have shifted := each (i + 1) later found
    rwa [Nat.add_comm i 1, ← Nat.add_assoc] at shifted
  · rintro ⟨first, onward⟩ i later found
    cases i with
    | zero => exact Option.some.inj found ▸ first
    | succ i =>
        rw [Nat.add_comm i 1, ← Nat.add_assoc]
        exact onward i later found

theorem length_stored_le (result : WriteResult) (text : List Char) :
    (result.stored text).length ≤ text.length := by
  cases result with
  | complete => exact Nat.le_refl _
  | short n => exact List.length_take_le' n text
  | error err => exact Nat.zero_le _

theorem length_storedFrom_le (e : Env) (k : Nat) (texts : List (List Char)) :
    (e.stored k texts).length ≤ texts.flatten.length := by
  induction texts generalizing k with
  | nil => exact Nat.le_refl _
  | cons text texts ih =>
      rw [Env.stored, List.flatten_cons, List.length_append, List.length_append]
      exact Nat.add_le_add (length_stored_le _ text) (ih (k + 1))

/-- No write makes up for what another one lost. -/
theorem stored_whole_iff {e : Env} {k : Nat} {texts : List (List Char)} :
    e.stored k texts = texts.flatten ↔ e.StoresEach k texts := by
  induction texts generalizing k with
  | nil => exact iff_of_true rfl fun i text found => by simp at found
  | cons text texts ih =>
      rw [storesEach_cons, ← ih, Env.stored, List.flatten_cons]
      constructor
      · intro whole
        have short := length_stored_le (e.write k) text
        have rest := length_storedFrom_le e (k + 1) texts
        have total := congrArg List.length whole
        rw [List.length_append, List.length_append] at total
        exact List.append_inj whole (by omega)
      · rintro ⟨first, onward⟩
        rw [first, onward]

/-- After a run of `stop_pid` that ended in `s'`, the file the dump created holds the text of
every entry of the list. -/
def Dumped (e : Env) (s s' : State) : Prop :=
  s.rows = [] ∨ (∃ writable, e.filpOpen = .ok writable) ∧
    s'.files (dumpName s.targetPid) = some (dumpText s.rows)

/-- `stop_pid` returns `count` only if everything was written, and otherwise an error with
the target left as it was. -/
structure ReportsDump (t : Tid) (e : Env) (s : State) : Prop where
  returns_count : ∀ s', (commandHandler e.userBuf.length).exec (kernel t e) s =
    .done e.userBuf.length s' → Dumped e s s'
  reports_failure : ¬Dumped e s ((commandHandler e.userBuf.length).exec (kernel t e) s).state →
    ∃ a s', (commandHandler e.userBuf.length).exec (kernel t e) s = .done a s' ∧ a < 0 ∧
      s'.targetPid = s.targetPid

/-- The file system loses nothing of the list: there is nothing to write, or the file takes
writes and stores each of the fifteen texts of each entry whole. -/
def Env.LosesNothing (e : Env) (s : State) : Prop :=
  s.rows = [] ∨ e.filpOpen = .ok true ∧ e.StoresEach 0 (dumpTexts s.rows)

section Report

variable {t : Tid} {e : Env} {s : State}

theorem rows_eq_nil_iff (linked : Linked s) : s.rows = [] ↔ s.counterList = [] := by
  cases list : s.counterList with
  | nil => simp [State.rows, rowsOf, list]
  | cons p rest =>
      obtain ⟨data, held⟩ := linked.allocated p (by rw [list]; exact List.mem_cons_self)
      rw [State.rows, list, rowsOf_cons held]
      exact iff_of_false (List.cons_ne_nil _ _) (List.cons_ne_nil _ _)

/-- The state in which the handler of `stop_pid` stops has the files as the dump left them. -/
theorem commandHandler_stop_files (accepted : e.command = some .stopPid) :
    ((commandHandler e.userBuf.length).exec (kernel t e) s).state.files =
      ((writeKinfoToFile s.targetPid).exec (kernel t e) s).state.files := by
  rw [commandHandler_stop accepted]
  cases run : (writeKinfoToFile s.targetPid).exec (kernel t e) s with
  | done a s' =>
      rw [Outcome.bind_done]
      split <;> rfl
  | blocked s' => rfl
  | fault f s' => rfl

/-- `stop_pid` never returns an error. -/
theorem commandHandler_stop_positive (accepted : e.command = some .stopPid) {a : Int} {s' : State}
    (returned : (commandHandler e.userBuf.length).exec (kernel t e) s = .done a s') : 0 ≤ a := by
  rw [commandHandler_stop accepted, Outcome.bind_eq_done] at returned
  obtain ⟨_, s₁, -, ends⟩ := returned
  split at ends
  · cases ends
    exact Int.natCast_nonneg _
  · cases ends

/-- A dump is in its file exactly if the file system lost nothing of it. -/
theorem dumped_iff (linked : Linked s) (accepted : e.command = some .stopPid) :
    Dumped e s ((commandHandler e.userBuf.length).exec (kernel t e) s).state ↔ e.LosesNothing s := by
  rw [Dumped, Env.LosesNothing, commandHandler_stop_files accepted]
  refine or_congr_right' fun full => ?_
  rw [rows_eq_nil_iff linked] at full
  cases opens : e.filpOpen with
  | error err => simp
  | ok writable =>
      cases writable with
      | true =>
          rw [writeKinfoToFile_stores linked opens, Outcome.state_done, ← stored_whole_iff,
            flatten_dumpTexts]
          simp [State.wrote]
      | false =>
          rw [writeKinfoToFile_oops linked opens full]
          have nothing : dumpText s.rows ≠ [] := dumpText_ne_nil ((rows_eq_nil_iff linked).not.mpr full)
          simp [State.dumping, nothing.symm]

/-- **`stop_pid` reports its dump** exactly if the file system loses nothing of it. -/
theorem reports_dump_iff (linked : Linked s) (copied : e.copyFails = false)
    (stop : StopText (examined e.userBuf)) (t : Tid) : ReportsDump t e s ↔ e.LosesNothing s := by
  have accepted := stop_accepted stop copied
  rw [← dumped_iff (t := t) linked accepted]
  constructor
  · intro reports
    by_contra lost
    obtain ⟨a, s', returned, negative, -⟩ := reports.reports_failure lost
    exact Int.not_le.mpr negative (commandHandler_stop_positive accepted returned)
  · intro dumped
    refine ⟨fun s' returned => ?_, fun lost => absurd dumped lost⟩
    rw [returned] at dumped
    exact dumped

end Report

/-- `stop_pid` with a file system on which nothing is lost. -/
theorem stop_reports_dump : ReportsDump 0 (.echo "stop_pid\n".toList) .oneRow :=
  (reports_dump_iff linked_oneRow rfl (by decide) 0).mpr
    (Or.inr ⟨rfl, fun _ _ _ => rfl⟩)

/-- `stop_pid` when there is no room for the dump. -/
def Env.stopFull : Env := { Env.echo "stop_pid\n".toList with filpOpen := .error (-28) }

theorem stop_hides_lost_dump : ¬ReportsDump 0 .stopFull .oneRow := by
  intro reports
  have accepted : Env.stopFull.command = some .stopPid := stop_accepted (by decide) rfl
  have lost : ¬Env.stopFull.LosesNothing .oneRow := by
    rintro (empty | ⟨opens, -⟩)
    · exact List.cons_ne_nil _ _ ((rows_eq_nil_iff linked_oneRow).mp empty)
    · cases opens
  obtain ⟨a, s', returned, negative, -⟩ :=
    reports.reports_failure ((dumped_iff linked_oneRow accepted).not.mpr lost)
  exact Int.not_le.mpr negative (commandHandler_stop_positive accepted returned)

end Dreamscape.Monitor
