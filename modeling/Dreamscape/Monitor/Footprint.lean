/-
# Monitor.Footprint -- which calls each function makes

The dump reads the list and writes a file; the sampling loops create, read and release
events; `update_counters` reads and changes the list.  What a function leaves alone
follows from its calls (`Prog.Only`).
-/
import Dreamscape.Monitor.Handlers
import Dreamscape.Theory.Protocol

namespace Dreamscape.Monitor

set_option autoImplicit false

open Theory Kernel

/-- The calls of `write_kinfo_to_file`. -/
def Op.Dumps : Op → Prop
  | .filpOpen _ | .getFs | .setFs _ | .setFPos .. | .counterList | .entryPc _ | .entryCounter ..
  | .hasWrite _ | .fOpWrite .. | .filpClose _ => True
  | _ => False

/-- The calls of its loop over the list. -/
def Op.Lines : Op → Prop
  | .entryPc _ | .entryCounter .. | .hasWrite _ | .fOpWrite .. => True
  | _ => False

/-- The calls of the two loops over the events. -/
def Op.Measures : Op → Prop
  | .perfEventCreateKernelCounter .. | .perfEventReadValue _ | .perfEventReleaseKernel _ => True
  | _ => False

/-- The calls of `update_counters`. -/
def Op.Updates : Op → Prop
  | .counterList | .entryPc _ | .addCounter .. | .kmalloc | .setEntryPc .. | .setEntryCounters ..
  | .listAdd _ => True
  | _ => False

/-! ## The dump -/

theorem writeCounters_lines (file : Nat) (entry : Ptr) (is : List (Fin numEvents)) :
    (writeCounters file entry is).Only Op.Lines := by
  induction is with
  | nil => trivial
  | cons i is ih => simpa [writeCounters, Op.Lines] using ih

theorem writeEntries_lines (file : Nat) (list : List Ptr) :
    (writeEntries file list).Only Op.Lines := by
  induction list with
  | nil => trivial
  | cons entry rest ih =>
      have line : (do
          writeCounters file entry (List.finRange numEvents)
          fOpWrite file (snprintf 64 ['\n'])
          writeEntries file rest : Code Unit).Only Op.Lines :=
        Prog.only_bind (writeCounters_lines file entry _) fun _ => by
          simpa [Op.Lines] using ih
      simp only [writeEntries, entryPc, hasWrite, call, Prog.call_bind, Prog.ret_bind,
        Prog.only_call]
      refine ⟨trivial, fun pc => ⟨trivial, ?_⟩⟩
      intro writable
      cases writable with
      | false => exact line
      | true => exact ⟨trivial, fun _ => line⟩

theorem lines_dumps (o : Op) (lines : o.Lines) : o.Dumps := by
  cases o <;> first | exact lines.elim | trivial

theorem writeKinfoToFile_dumps (pid : Int) : (writeKinfoToFile pid).Only Op.Dumps := by
  simp only [writeKinfoToFile, filpOpen, call, Prog.call_bind, Prog.ret_bind, Prog.only_call]
  refine ⟨trivial, ?_⟩
  intro opened
  cases opened with
  | error err => trivial
  | ok file =>
      simp only [getFs, setFs, setFPos, counterListEntries, call, Prog.call_bind, Prog.ret_bind,
        Prog.only_call]
      refine ⟨trivial, fun oldFs => ⟨trivial, fun _ => ⟨trivial, fun _ => ⟨trivial, ?_⟩⟩⟩⟩
      intro list
      apply Prog.only_bind ((writeEntries_lines file list).mono lines_dumps)
      intro _
      simp [Op.Dumps]

/-! ## The sample -/

theorem createEvents_measures (pid : Nat) (codes : List (BitVec 32)) (events : List PerfEvent) :
    (createEvents pid codes events).Only Op.Measures := by
  induction codes generalizing events with
  | nil => trivial
  | cons code codes ih =>
      simp only [createEvents, perfEventCreateKernelCounter, call, Prog.call_bind, Prog.ret_bind,
        Prog.only_call]
      refine ⟨trivial, ?_⟩
      intro made
      cases made with
      | error err => trivial
      | ok ev => exact ih _

theorem readEvents_measures (events : List PerfEvent) (values : List U64) :
    (readEvents events values).Only Op.Measures := by
  induction events generalizing values with
  | nil => trivial
  | cons ev events ih => simpa [readEvents, readPerfCounter, Op.Measures] using fun _ => ih _

theorem findEntry_only {ok : Op → Prop} (reads : ∀ entry, ok (.entryPc entry)) (pc : U64)
    (list : List Ptr) : (findEntry pc list).Only ok := by
  induction list with
  | nil => trivial
  | cons entry rest ih =>
      simp only [findEntry, entryPc, call, Prog.call_bind, Prog.ret_bind, Prog.only_call]
      refine ⟨reads entry, ?_⟩
      intro held
      split
      · trivial
      · exact ih

theorem addCounters_updates (entry : Ptr) (v : Counters) (is : List (Fin numEvents)) :
    (addCounters entry v is).Only Op.Updates := by
  induction is with
  | nil => trivial
  | cons i is ih => simpa [addCounters, Op.Updates] using ih

theorem updateCounters_updates (pc : U64) (v : Counters) :
    (updateCounters pc v).Only Op.Updates := by
  simp only [updateCounters, counterListEntries, call, Prog.call_bind, Prog.ret_bind,
    Prog.only_call]
  refine ⟨trivial, fun list => Prog.only_bind (findEntry_only (fun _ => trivial) pc list) ?_⟩
  intro found
  cases found with
  | some entry => exact addCounters_updates entry v _
  | none => simp [Op.Updates]

/-! ## The section of the target -/

/-- The calls with which a command sets the target. -/
def Op.Targets : Op → Prop
  | .mutexLock | .setTargetPid _ | .mutexUnlock => True
  | _ => False

theorem setTarget_targets (pid : Int) (count : Nat) :
    (do
        mutexLock
        setTargetPid pid
        mutexUnlock
        return count : Code Int).Only Op.Targets :=
  ⟨trivial, fun _ => ⟨trivial, fun _ => ⟨trivial, fun _ => trivial⟩⟩⟩

/-- The calls of `command_handler`. -/
def Op.Commands (o : Op) : Prop :=
  o.Targets ∨ o.Dumps ∨ (∃ n, o = .copyFromUser n) ∨ o = .targetPid

/-- What is to be checked of a command. -/
theorem commandHandler_follows {R : Type} {P : Protocol sig R} {Q : R → Int → Prop} {r : R}
    (count : Nat) (ends : ∀ n, Q r n)
    (copies : P.allowed (.copyFromUser (min count 255)) r ∧
      ∀ text, P.next (.copyFromUser (min count 255)) text r = r)
    (reads : P.allowed .targetPid r ∧ ∀ pid, P.next .targetPid pid r = r)
    (starts : ∀ pid, (do
        mutexLock
        setTargetPid pid
        mutexUnlock
        return count : Code Int).Follows P Q r)
    (stops : ∀ pid, (writeKinfoToFile pid).Follows P (fun r' _ => (do
        mutexLock
        setTargetPid (-1)
        mutexUnlock
        return count : Code Int).Follows P Q r') r) :
    (commandHandler count).Follows P Q r := by
  simp only [commandHandler, copyFromUser, call, Prog.call_bind, Prog.ret_bind, Prog.follows_call]
  refine ⟨copies.1, ?_⟩
  intro copied _
  rw [copies.2 copied]
  cases copied with
  | none => exact ends _
  | some buf =>
      dsimp only
      cases scanCommand (cstr buf) with
      | none => exact ends _
      | some command =>
          cases command with
          | startPid pid => exact starts pid
          | stopPid =>
              refine ⟨reads.1, ?_⟩
              intro pid _
              rw [reads.2 pid]
              show (writeKinfoToFile pid >>= _).Follows P Q r
              rw [Prog.follows_bind]
              exact stops pid

theorem commandHandler_commands (count : Nat) : (commandHandler count).Only Op.Commands := by
  have targets (pid : Int) := (setTarget_targets pid count).mono fun o targets =>
    (Or.inl targets : Op.Commands o)
  have dumps (pid : Int) := (writeKinfoToFile_dumps pid).mono fun o dumps =>
    (Or.inr (Or.inl dumps) : Op.Commands o)
  rw [Prog.only_iff_follows]
  refine commandHandler_follows count (fun _ => trivial) ⟨?_, fun _ => rfl⟩ ⟨?_, fun _ => rfl⟩ ?_ ?_
  · exact Or.inr (Or.inr (Or.inl ⟨_, rfl⟩))
  · exact Or.inr (Or.inr (Or.inr rfl))
  · exact fun pid => Prog.only_iff_follows.mp (targets pid)
  · exact fun pid => (Prog.only_iff_follows.mp (dumps pid)).mono fun _ _ _ =>
      Prog.only_iff_follows.mp (targets (-1))

end Dreamscape.Monitor
