/-
# Monitor.DumpOutcome -- how write_kinfo_to_file ends

Whatever the file system does with the writes, a dump goes through the whole list,
closes its file and restores the address limit, unless the file it has opened cannot
be written: then the first counter of the first entry is its end, because only the
program counter is written behind the test of `f_op->write`.
-/
import Dreamscape.Monitor.Dump

namespace Dreamscape.Monitor

set_option autoImplicit false

open Theory Kernel

/-- `file` is open as `data` says, with `content` on the disk. -/
def State.dumping (s : State) (file : Nat) (content : List Char) (data : OpenFile) : State :=
  { s with
    files := Function.update s.files data.name (some content)
    openFiles := Function.update s.openFiles file (some data) }

/-- The state after a dump for `pid` that has left `content` in its file. -/
def State.wrote (s : State) (pid : Int) (content : List Char) : State :=
  { s with
    files := Function.update s.files (dumpName pid) (some content)
    openFiles := Function.update s.openFiles s.nextFile none
    nextFile := s.nextFile + 1 }

section Outcome

variable {t : Tid} {e : Env} {s : State} {file : Nat}

@[simp] theorem dumping_onFile {α : Type} (content : List Char) (data : OpenFile)
    (f : OpenFile → Answer α) : (s.dumping file content data).onFile file f = f data := by
  simp [State.onFile, State.dumping]

theorem entryPc_dumping {entry : Ptr} {row : CounterData} (held : s.heap entry = some row)
    (content : List Char) (data : OpenFile) :
    kernel t e (.entryPc entry) (s.dumping file content data) =
      .done row.pc (s.dumping file content data) := by
  simp [kernel, State.onEntry, State.dumping, held]

theorem hasWrite_dumping (content : List Char) (data : OpenFile) :
    kernel t e (.hasWrite file) (s.dumping file content data) =
      .done data.hasWrite (s.dumping file content data) := by
  simp only [kernel, dumping_onFile]

/-- Without `f_op->write` the first counter of the first entry is the end. -/
theorem writeEntries_oops {p : Ptr} {rest : List Ptr} {row : CounterData} (held : s.heap p = some row)
    (content : List Char) (data : OpenFile) (unwritable : data.hasWrite = false) :
    (writeEntries file (p :: rest)).exec (kernel t e) (s.dumping file content data) =
      .fault .nullDereference (s.dumping file content data) := by
  have indices : ∃ i is, List.finRange numEvents = i :: is := ⟨_, _, List.finRange_succ⟩
  obtain ⟨i, is, first⟩ := indices
  have read : kernel t e (.entryCounter p i) (s.dumping file content data) =
      .done (row.counters i) (s.dumping file content data) := by
    simp [kernel, State.onEntry, State.dumping, held]
  have refused : kernel t e (.fOpWrite file (counterText i (row.counters i)))
      (s.dumping file content data) = .fault .nullDereference (s.dumping file content data) := by
    simp only [kernel, dumping_onFile, unwritable, Bool.false_eq_true, if_false]
  simp only [writeEntries, writeCounters, entryPc, hasWrite, entryCounter, fOpWrite, call,
    Prog.call_bind, Prog.ret_bind, Prog.exec_call, entryPc_dumping held, hasWrite_dumping,
    unwritable, Bool.false_eq_true, if_false, Outcome.bind_done, first, read, refused,
    Outcome.bind_fault]

/-! ## A dump -/

/-- The state when thread `t` has opened the file of a dump. -/
def State.opening (s : State) (t : Tid) : State :=
  { s with
    nextFile := s.nextFile + 1
    addrLimit := Function.update s.addrLimit t .kernelDs }

theorem writeKinfoToFile_begin {writable : Bool} (opens : e.filpOpen = .ok writable) (pid : Int) :
    (writeKinfoToFile pid).exec (kernel t e) s =
      ((writeEntries s.nextFile s.counterList).exec (kernel t e)
        ((s.opening t).dumping s.nextFile [] ⟨dumpName pid, 0, writable, 0⟩)).bind fun _ s' =>
          (do setFs (s.addrLimit t); filpClose s.nextFile : Code Unit).exec (kernel t e) s' := by
  simp [writeKinfoToFile, kernel, opens, State.onFile, State.dumping, State.opening]

theorem writeKinfoToFile_close (pid : Int) (content : List Char) {data : OpenFile}
    (name : data.name = dumpName pid) :
    (do setFs (s.addrLimit t); filpClose s.nextFile : Code Unit).exec (kernel t e)
        ((s.opening t).dumping s.nextFile content data) = .done () (s.wrote pid content) := by
  simp [kernel, State.onFile, State.dumping, State.opening, State.wrote, name]

theorem writeKinfoToFile_unopened {err : Int} (fails : e.filpOpen = .error err) (pid : Int) :
    (writeKinfoToFile pid).exec (kernel t e) s = .done () s := by
  simp [writeKinfoToFile, kernel, fails]

/-- **A dump to a file that can be written** leaves in it what each write stored. -/
theorem writeKinfoToFile_stores (linked : Linked s) (opens : e.filpOpen = .ok true) (pid : Int) :
    (writeKinfoToFile pid).exec (kernel t e) s =
      .done () (s.wrote pid (e.stored 0 (dumpTexts s.rows))) := by
  have written := writeEntries_stores (s := s.opening t) t e s.nextFile (dumpName pid)
    linked.allocated [] 0
  rw [writeKinfoToFile_begin opens]
  exact (congrArg (Outcome.bind · _) written).trans (writeKinfoToFile_close pid _ rfl)

theorem writeKinfoToFile_returns (linked : Linked s) (opens : e.filpOpen = .ok true) (pid : Int) :
    ∃ content, (writeKinfoToFile pid).exec (kernel t e) s = .done () (s.wrote pid content) :=
  ⟨_, writeKinfoToFile_stores linked opens pid⟩

theorem writeKinfoToFile_empty (opens : e.filpOpen = .ok false) (empty : s.counterList = [])
    (pid : Int) :
    (writeKinfoToFile pid).exec (kernel t e) s = .done () (s.wrote pid []) := by
  rw [writeKinfoToFile_begin opens, empty]
  exact writeKinfoToFile_close pid [] rfl

theorem writeKinfoToFile_oops (linked : Linked s) (opens : e.filpOpen = .ok false)
    (full : s.counterList ≠ []) (pid : Int) :
    (writeKinfoToFile pid).exec (kernel t e) s = .fault .nullDereference
      ((s.opening t).dumping s.nextFile [] ⟨dumpName pid, 0, false, 0⟩) := by
  obtain ⟨p, rest, list⟩ := List.exists_cons_of_ne_nil full
  obtain ⟨row, held⟩ := linked.allocated p (by rw [list]; exact List.mem_cons_self)
  rw [writeKinfoToFile_begin opens, list,
    writeEntries_oops (s := s.opening t) held [] ⟨dumpName pid, 0, false, 0⟩ rfl]
  rfl

/-- A dump that can be completed: the file does not open, or takes writes, or nothing is
written. -/
def Env.Dumpable (e : Env) (s : State) : Prop := e.filpOpen = .ok false → s.counterList = []

/-- A dump that has opened its file, and can be completed, is. -/
theorem writeKinfoToFile_opened (linked : Linked s) (dumpable : e.Dumpable s) {writable : Bool}
    (opens : e.filpOpen = .ok writable) (pid : Int) :
    ∃ content, (writeKinfoToFile pid).exec (kernel t e) s = .done () (s.wrote pid content) := by
  cases writable with
  | true => exact writeKinfoToFile_returns linked opens pid
  | false => exact ⟨[], writeKinfoToFile_empty opens (dumpable opens) pid⟩

/-- **A dump ends** in a fault exactly if it has an entry to write to a file without
`f_op->write`; otherwise it changes its own file only. -/
theorem writeKinfoToFile_ends (linked : Linked s) (pid : Int) :
    (e.Dumpable s ∧ ∃ s', (writeKinfoToFile pid).exec (kernel t e) s = .done () s' ∧
      (s' = s ∨ ∃ content, s' = s.wrote pid content)) ∨
    (¬e.Dumpable s ∧ ∃ s', (writeKinfoToFile pid).exec (kernel t e) s = .fault .nullDereference s') := by
  by_cases dumpable : e.Dumpable s
  · left
    refine ⟨dumpable, ?_⟩
    cases opens : e.filpOpen with
    | error err => exact ⟨s, writeKinfoToFile_unopened opens pid, Or.inl rfl⟩
    | ok writable =>
        obtain ⟨content, run⟩ := writeKinfoToFile_opened (t := t) linked dumpable opens pid
        exact ⟨_, run, Or.inr ⟨content, rfl⟩⟩
  · right
    obtain ⟨opens, full⟩ := Classical.not_imp.mp dumpable
    exact ⟨dumpable, _, writeKinfoToFile_oops linked opens full pid⟩

end Outcome

end Dreamscape.Monitor
