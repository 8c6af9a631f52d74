/-
# Monitor.Snapshot -- a dump beside samples

`write_kinfo_to_file` goes through `counter_list` without the mutex, while switches to
the target go on sampling under it.  Thread 0 is the dump; beside it run any number of
switches and of the sections in which a start_pid command sets the target, each of them
call by call.

A dump is a snapshot when its rows are those of the list at one instant at which no
`update_counters` call is under way.  The dump reads the head of the list once and then
every entry, so it is one whenever no `update_counters` call is under way while it goes
through the list (`dump_is_snapshot`): the list then stays as the dump has found it.
-/
import Dreamscape.Monitor.Grouping
import Dreamscape.Monitor.Schedule

namespace Dreamscape.Monitor

set_option autoImplicit false

open Theory Kernel

/-! ## Runs -/

/-- `start` is the section in which a start_pid command sets the target. -/
inductive Turn where
  | start (pid : Int)
  | hit (env : Env) (regs : PtRegs)
  | step (t : Tid)

def Turn.action : Turn → Pool.Action sig Env Empty Unit
  | .start pid => .spawn ⟨.quiet, setTarget pid⟩
  | .hit env regs => .spawn ⟨env, do let _ ← preHandler regs; return ()⟩
  | .step t => .step t

/-- A dump for `pid`, onto a file that opens and takes every write whole. -/
structure Dump where
  env : Env
  pid : Int
  opens : env.filpOpen = .ok true
  writes : ∀ n, env.write n = .complete

abbrev Samplers := Pool sig Env State Unit

def Dump.loaded (d : Dump) : Samplers := ⟨.initial, [⟨d.env, writeKinfoToFile d.pid⟩]⟩

/-- The module after the turns of a run. -/
def Dump.after (d : Dump) (turns : List Turn) : Samplers :=
  Pool.run kernel undisturbed d.loaded (turns.map Turn.action)

theorem after_append (d : Dump) (turns : List Turn) (turn : Turn) :
    d.after (turns ++ [turn]) = (d.after turns).step kernel undisturbed turn.action := by
  rw [Dump.after, List.map_append, Pool.run_append]
  rfl

/-! ## Instants -/

/-- The calls of `update_counters` once it has begun. -/
def Op.Amid : Op → Prop
  | .entryPc _ | .addCounter .. | .kmalloc | .setEntryPc .. | .setEntryCounters .. | .listAdd _ =>
      True
  | _ => False

instance (o : Op) : Decidable o.Amid := by
  cases o <;> first | exact .isTrue trivial | exact .isFalse id

instance (o : Op) : Decidable o.Lines := by
  cases o <;> first | exact .isTrue trivial | exact .isFalse id

/-- No `update_counters` call is under way. -/
def Between (c : Samplers) : Prop := ∀ t o, t ≠ 0 → c.next t = some o → ¬o.Amid

/-- The dump is going through the list. -/
def Reading (c : Samplers) : Prop := ∃ o, c.next 0 = some o ∧ o.Lines

theorem between_iff (c : Samplers) :
    Between c ↔ ∀ t < c.threads.length, t ≠ 0 → ∀ o ∈ c.next t, ¬o.Amid := by
  constructor
  · intro between t _ other o next
    exact between t o other next
  · intro between t o other next
    obtain ⟨e, k, found⟩ := Pool.next_iff.mp next
    exact between t (List.getElem?_eq_some_iff.mp found).1 other o next

instance (c : Samplers) : Decidable (Between c) := decidable_of_iff _ (between_iff c).symm

instance (c : Samplers) : Decidable (Reading c) :=
  decidable_of_iff (∃ o ∈ c.next 0, o.Lines) Iff.rfl

/-- The file holds the rows of the list at one instant of the run between two
`update_counters` calls. -/
def Snapshot (d : Dump) (turns : List Turn) : Prop :=
  ∃ before, before <+: turns ∧ Between (d.after before) ∧
    (d.after turns).shared.files (dumpName d.pid) =
      some (dumpText (d.after before).shared.rows)

/-! ## The stages of the dump -/

inductive Stage where
  | opening
  /-- It has read the head of a list that is not empty, and nothing after that. -/
  | found
  | listing
  | closing

/-- The dump reads the head of the list once, and goes through the entries after that. -/
def dumpStages : Protocol sig Stage where
  allowed o stage :=
    match o with
    | .filpOpen _ | .getFs | .setFPos .. | .counterList => stage = .opening
    | .entryPc _ | .entryCounter .. | .hasWrite _ | .fOpWrite .. =>
        stage = .found ∨ stage = .listing
    | .setFs _ => stage ≠ .found
    | .filpClose _ => stage = .closing
    | _ => False
  possible _ _ _ := True
  next o a stage :=
    match o with
    | .counterList => if (show List Ptr from a) = [] then .closing else .found
    | .entryPc _ | .entryCounter .. | .hasWrite _ | .fOpWrite .. => .listing
    | .setFs _ => if stage matches .opening then .opening else .closing
    | _ => stage

/-- A dump that returns has not just read the head of the list. -/
abbrev Staged (p : Code Unit) (stage : Stage) : Prop :=
  p.Follows dumpStages (fun stage _ => stage ≠ .found) stage

theorem lines_stage (o : Op) (lines : o.Lines) :
    dumpStages.allowed o .listing ∧ ∀ a, dumpStages.next o a .listing = .listing := by
  cases o <;> first | exact lines.elim | exact ⟨Or.inr rfl, fun a => rfl⟩

theorem stages_dumps (o : Op) (stage : Stage) (allowed : dumpStages.allowed o stage) :
    o.Dumps := by
  cases o <;> trivial

theorem opening_next {o : Op} (allowed : dumpStages.allowed o .opening) (a : o.Ans) :
    dumpStages.next o a .opening = .opening ∨ o = .counterList := by
  cases o <;> first | exact Or.inl rfl | exact Or.inr rfl | exact allowed.elim nofun nofun

theorem listed_next {o : Op} {stage : Stage} (allowed : dumpStages.allowed o stage)
    (listed : stage ≠ .opening) (closes : ¬o.Lines) (a : o.Ans) :
    dumpStages.next o a stage = .closing := by
  cases o with
  | setFs seg => cases stage <;> first | rfl | exact absurd rfl listed
  | filpClose file => exact allowed
  | entryPc _ | entryCounter _ _ | hasWrite _ | fOpWrite _ _ => exact absurd trivial closes
  | filpOpen _ | getFs | setFPos _ _ | counterList => exact absurd allowed listed
  | _ => exact allowed.elim

theorem listed_stays {o : Op} {stage : Stage} (allowed : dumpStages.allowed o stage)
    (listed : stage ≠ .opening) (a : o.Ans) : dumpStages.next o a stage ≠ .opening := by
  by_cases lines : o.Lines
  · cases o <;> first | exact lines.elim | exact Stage.noConfusion
  · rw [listed_next allowed listed lines a]
    exact Stage.noConfusion

theorem writeKinfoToFile_stages (pid : Int) : Staged (writeKinfoToFile pid) .opening := by
  simp only [Staged, writeKinfoToFile, filpOpen, call, Prog.call_bind, Prog.ret_bind,
    Prog.follows_call]
  refine ⟨rfl, ?_⟩
  intro opened _
  cases opened with
  | error err => exact Stage.noConfusion
  | ok file =>
      simp only [getFs, setFs, setFPos, counterListEntries, call, Prog.call_bind, Prog.ret_bind,
        Prog.follows_call]
      refine ⟨rfl, fun _ _ => ⟨Stage.noConfusion, fun _ _ => ⟨rfl, fun _ _ => ⟨rfl, ?_⟩⟩⟩⟩
      intro list _
      rw [Prog.follows_bind]
      cases list with
      | nil => exact ⟨Stage.noConfusion, fun _ _ => ⟨rfl, fun _ _ => Stage.noConfusion⟩⟩
      | cons entry rest =>
          refine ⟨Or.inl rfl, fun pc _ => ?_⟩
          apply Prog.Only.follows lines_stage _ ((writeEntries_lines file (entry :: rest)).2 pc)
          intro _
          exact ⟨Stage.noConfusion, fun _ _ => ⟨rfl, fun _ _ => Stage.noConfusion⟩⟩

/-! ## What a dump writes -/

section Writing

variable {t : Tid} {e : Env} {s s' : State} {file : Nat} {name : List Char}

/-- A dump that returns has found every entry, and has written its row. -/
theorem writeEntries_done (writes : ∀ n, e.write n = .complete) {list : List Ptr}
    {content : List Char} {calls : Nat} {a : Unit}
    (returned : (writeEntries file list).exec (kernel t e) (s.writing file name content calls) =
      .done a s') :
    ∃ calls', s' = s.writing file name (content ++ dumpText (rowsOf s.heap list)) calls' := by
  suffices allocated : ∀ p ∈ list, ∃ data, s.heap p = some data by
    obtain ⟨calls', wrote⟩ := writeEntries_exec t file name writes allocated content calls
    rw [wrote] at returned
    cases returned
    exact ⟨calls', rfl⟩
  induction list generalizing content calls with
  | nil => exact fun p inside => absurd inside List.not_mem_nil
  | cons p rest ih =>
      cases at_p : s.heap p with
      | none => simp [writeEntries, kernel, State.onEntry, State.writing, at_p] at returned
      | some data =>
          obtain ⟨counted, counters⟩ := writeCounters_exec t file name writes at_p
            (List.finRange numEvents) (content ++ pcText data.pc) (calls + 1)
          have pc : kernel t e (.entryPc p) (s.writing file name content calls) =
              .done data.pc (s.writing file name content calls) := by
            simp [kernel, State.onEntry, State.writing, at_p]
          have guard : kernel t e (.hasWrite file) (s.writing file name content calls) =
              .done true (s.writing file name content calls) := by
            simp [kernel, State.onFile, State.writing]
          simp only [writeEntries, entryPc, hasWrite, fOpWrite, call, Prog.call_bind, Prog.ret_bind,
            Prog.exec_call, pc, guard, Outcome.bind_done, fOpWrite_kernel writes, Prog.exec_bind,
            counters, if_true] at returned
          have onward := ih returned
          intro q inside
          rcases List.mem_cons.mp inside with rfl | inside
          · exact ⟨data, at_p⟩
          · exact onward q inside

/-- Run alone to its end from `s`, the dump leaves `rows` in its file. -/
def Dump.Writes (d : Dump) (p : Code Unit) (s : State) (rows : List Sample) : Prop :=
  ∀ s', p.exec (kernel 0 d.env) s = .done () s' →
    s'.files (dumpName d.pid) = some (dumpText rows)

theorem whole_writes (d : Dump) (s : State) : d.Writes (writeKinfoToFile d.pid) s s.rows := by
  intro s' returned
  let opened : State :=
    { s with
      nextFile := s.nextFile + 1
      addrLimit := Function.update s.addrLimit 0 .kernelDs }
  have begun : (writeKinfoToFile d.pid).exec (kernel 0 d.env) s =
      ((writeEntries s.nextFile s.counterList).exec (kernel 0 d.env)
        (opened.writing s.nextFile (dumpName d.pid) [] 0)).bind fun _ s' =>
          (do setFs (s.addrLimit 0); filpClose s.nextFile : Code Unit).exec (kernel 0 d.env) s' := by
    simp [writeKinfoToFile, kernel, d.opens, State.onFile, State.writing, opened]
  rw [begun, Outcome.bind_eq_done] at returned
  obtain ⟨a, s₁, entries, closed⟩ := returned
  obtain ⟨calls, rfl⟩ := writeEntries_done d.writes entries
  simp [kernel, State.onFile, State.writing] at closed
  rw [← closed]
  simp [opened, State.rows]

end Writing

/-! ## What the dump does not look at -/

/-- The state with the target, the mutex and the events of another. -/
def State.amid (s other : State) : State :=
  { s with
    targetPid := other.targetPid
    mutex := other.mutex
    nextEvent := other.nextEvent
    created := other.created
    released := other.released
    failedCreates := other.failedCreates }

theorem onEntry_mapState {α : Type} (s : State) (f : State → State) (heap : (f s).heap = s.heap)
    (entry : Ptr) {g g' : CounterData → Answer α} (same : ∀ data, g' data = (g data).mapState f) :
    (f s).onEntry entry g' = (s.onEntry entry g).mapState f := by
  unfold State.onEntry
  rw [heap]
  cases s.heap entry with
  | none => rfl
  | some data => exact same data

theorem onFile_mapState {α : Type} (s : State) (f : State → State)
    (files : (f s).openFiles = s.openFiles) (file : Nat) {g g' : OpenFile → Answer α}
    (same : ∀ data, g' data = (g data).mapState f) :
    (f s).onFile file g' = (s.onFile file g).mapState f := by
  unfold State.onFile
  rw [files]
  cases s.openFiles file with
  | none => rfl
  | some data => exact same data

theorem kernel_amid (t : Tid) (e : Env) (other : State) (o : Op) (dumps : o.Dumps) (s : State) :
    kernel t e o (s.amid other) = (kernel t e o s).mapState (·.amid other) := by
  cases o with
  | filpOpen filename =>
      simp only [kernel]
      cases e.filpOpen <;> rfl
  | getFs | setFs _ | counterList => rfl
  | setFPos file pos => exact onFile_mapState s (·.amid other) rfl file fun _ => rfl
  | hasWrite file => exact onFile_mapState s (·.amid other) rfl file fun _ => rfl
  | filpClose file => exact onFile_mapState s (·.amid other) rfl file fun _ => rfl
  | fOpWrite file text =>
      refine onFile_mapState s (·.amid other) rfl file fun data => ?_
      split <;> rfl
  | entryPc entry => exact onEntry_mapState s (·.amid other) rfl entry fun _ => rfl
  | entryCounter entry i => exact onEntry_mapState s (·.amid other) rfl entry fun _ => rfl
  | _ => exact dumps.elim

theorem writes_amid {d : Dump} {p : Code Unit} (only : p.Only Op.Dumps) {s : State}
    {rows : List Sample} (writes : d.Writes p s rows) (other : State) :
    d.Writes p (s.amid other) rows := by
  intro s' returned
  rw [only.exec_mapState (kernel_amid 0 d.env other)] at returned
  cases ran : p.exec (kernel 0 d.env) s with
  | done a s₁ =>
      rw [ran] at returned
      cases returned
      exact writes s₁ ran
  | blocked s₁ =>
      rw [ran] at returned
      cases returned
  | fault err s₁ =>
      rw [ran] at returned
      cases returned

/-- A call of the dump that does not read the table does not see it replaced; one that
reads an entry does not if the memory is the same. -/
theorem kernel_table (t : Tid) (e : Env) {heap : Ptr → Option CounterData} {nextPtr : Ptr}
    {list : List Ptr} {o : Op} (dumps : o.Dumps) (unlisted : o ≠ .counterList) {s : State}
    (same : o.Lines → heap = s.heap) :
    kernel t e o (s.withList heap nextPtr list) =
      (kernel t e o s).mapState (·.withList heap nextPtr list) := by
  cases o with
  | filpOpen filename =>
      simp only [kernel]
      cases e.filpOpen <;> rfl
  | getFs | setFs _ => rfl
  | counterList => exact absurd rfl unlisted
  | setFPos file pos => exact onFile_mapState s (·.withList heap nextPtr list) rfl file fun _ => rfl
  | hasWrite file => exact onFile_mapState s (·.withList heap nextPtr list) rfl file fun _ => rfl
  | filpClose file => exact onFile_mapState s (·.withList heap nextPtr list) rfl file fun _ => rfl
  | fOpWrite file text =>
      refine onFile_mapState s (·.withList heap nextPtr list) rfl file fun data => ?_
      split <;> rfl
  | entryPc entry =>
      exact onEntry_mapState s (·.withList heap nextPtr list) (same trivial) entry fun _ => rfl
  | entryCounter entry i =>
      exact onEntry_mapState s (·.withList heap nextPtr list) (same trivial) entry fun _ => rfl
  | _ => exact dumps.elim

/-! ## What the other threads do not change -/

/-- The calls of a switch and of the section of a start_pid command. -/
def Op.Beside (o : Op) : Prop :=
  o.Targets ∨ o.Measures ∨ o.Updates ∨ o = .currentPid ∨ o = .targetPid

theorem preHandler_beside (regs : PtRegs) : (preHandler regs).Only Op.Beside := by
  have unlock : (do mutexUnlock; return 0 : Code Int).Only Op.Beside :=
    ⟨Or.inl trivial, fun _ => trivial⟩
  simp only [preHandler, taskPidNrCurrent, mutexLock, getTargetPid, call, Prog.call_bind,
    Prog.ret_bind, Prog.only_call]
  refine ⟨Or.inr (Or.inr (Or.inr (Or.inl rfl))), fun pid => ⟨Or.inl trivial, fun _ =>
    ⟨Or.inr (Or.inr (Or.inr (Or.inr rfl))), fun target => ?_⟩⟩⟩
  split
  · apply Prog.only_bind ((createEvents_measures _ _ _).mono fun o measures => Or.inr (Or.inl measures))
    intro made
    cases made with
    | error err => trivial
    | ok events =>
        apply Prog.only_bind ((readEvents_measures _ _).mono fun o measures => Or.inr (Or.inl measures))
        intro values
        apply Prog.only_bind ((updateCounters_updates _ _).mono fun o updates =>
          Or.inr (Or.inr (Or.inl updates)))
        intro _
        exact unlock
  · exact unlock

theorem setTarget_beside (pid : Int) : (setTarget pid).Only Op.Beside :=
  ⟨Or.inl trivial, fun _ => ⟨Or.inl trivial, fun _ => ⟨Or.inl trivial, fun _ => trivial⟩⟩⟩

theorem beside_apart {o : Op} (beside : o.Beside) (apart : ¬o.Amid) : o.Apart := by
  rcases beside with targets | measures | updates | rfl | rfl
  · cases o <;> first | exact targets.elim | trivial
  · exact measures_apart o measures
  · cases o <;> trivial
  · trivial
  · trivial

/-- The two states have the same files. -/
structure SameFiles (s s' : State) : Prop where
  files : s'.files = s.files
  openFiles : s'.openFiles = s.openFiles
  nextFile : s'.nextFile = s.nextFile
  addrLimit : s'.addrLimit = s.addrLimit

theorem SameFiles.withList {s s' : State} (same : SameFiles s s')
    (heap : Ptr → Option CounterData) (nextPtr : Ptr) (list : List Ptr) :
    s'.withList heap nextPtr list = (s.withList heap nextPtr list).amid s' := by
  obtain ⟨files, openFiles, nextFile, addrLimit⟩ := same
  cases s
  cases s'
  simp only at files openFiles nextFile addrLimit
  subst files openFiles nextFile addrLimit
  rfl

theorem kernel_beside {t : Tid} {e : Env} {o : Op} {a : o.Ans} {s s' : State} (beside : o.Beside)
    (answered : kernel t e o s = .done a s') : SameFiles s s' := by
  have stays : o.Reads → SameFiles s s' := fun reads => by
    obtain rfl := kernel_reads answered reads
    exact ⟨rfl, rfl, rfl, rfl⟩
  rcases beside with targets | measures | updates | rfl | rfl
  · cases o with
    | mutexLock =>
        obtain ⟨-, rfl⟩ := kernel_mutexLock answered
        exact ⟨rfl, rfl, rfl, rfl⟩
    | mutexUnlock =>
        obtain ⟨-, rfl⟩ := kernel_mutexUnlock answered
        exact ⟨rfl, rfl, rfl, rfl⟩
    | setTargetPid pid =>
        cases answered
        exact ⟨rfl, rfl, rfl, rfl⟩
    | _ => exact targets.elim
  · cases o with
    | perfEventCreateKernelCounter attr cpu task =>
        rcases kernel_create answered with ⟨err, -, rfl⟩ | ⟨ev, -, -, rfl⟩ <;>
          exact ⟨rfl, rfl, rfl, rfl⟩
    | perfEventReadValue ev => exact stays trivial
    | perfEventReleaseKernel ev =>
        rw [kernel_release answered]
        exact ⟨rfl, rfl, rfl, rfl⟩
    | _ => exact measures.elim
  · cases o with
    | counterList | entryPc _ => exact stays trivial
    | addCounter _ _ _ | kmalloc | setEntryPc _ _ | setEntryCounters _ _ | listAdd _ =>
        obtain ⟨_, _, _, rfl⟩ := kernel_stores answered trivial
        exact ⟨rfl, rfl, rfl, rfl⟩
    | _ => exact updates.elim
  · exact stays trivial
  · exact stays trivial

/-! ## The dump under way -/

/-- Before the head of the list is read, the dump will write whatever table it finds. -/
def Dump.Early (d : Dump) (p : Code Unit) (s : State) : Prop :=
  ∀ heap nextPtr list, d.Writes p (s.withList heap nextPtr list) (rowsOf heap list)

/-- After that it will write the table of an instant, and while it goes through the list
the memory stays as it was then. -/
def Dump.Late (d : Dump) (turns : List Turn) (p : Code Unit) (s : State) : Prop :=
  ∃ before, before <+: turns ∧ Between (d.after before) ∧
    d.Writes p (s.withList (d.after before).shared.heap (d.after before).shared.nextPtr
      (d.after before).shared.counterList) (d.after before).shared.rows ∧
    ((∃ o, p.head = some o ∧ o.Lines) → (d.after before).shared.heap = s.heap)

/-- What the dump has before it at a stage. -/
def Dump.Stands (d : Dump) (turns : List Turn) (p : Code Unit) (s : State) : Stage → Prop
  | .opening => d.Early p s
  | .found | .listing | .closing => d.Late turns p s

theorem stands_iff {d : Dump} {turns : List Turn} {p : Code Unit} {s : State} {stage : Stage}
    (listed : stage ≠ .opening) : d.Stands turns p s stage ↔ d.Late turns p s := by
  cases stage with
  | opening => exact absurd rfl listed
  | found | listing | closing => exact Iff.rfl

/-- Where the dump stands after the turns of a run. -/
structure Progress (d : Dump) (turns : List Turn) : Prop where
  others : ∀ t thread, t ≠ 0 → (d.after turns).threads[t]? = some thread →
    thread.prog.Only Op.Beside
  dumper : ∃ p stage, (d.after turns).threads[0]? = some ⟨d.env, p⟩ ∧ Staged p stage ∧
    d.Stands turns p (d.after turns).shared stage

section Stages

variable {d : Dump} {turns : List Turn}

theorem staged_dumps {p : Code Unit} {stage : Stage} (staged : Staged p stage) :
    p.Only Op.Dumps :=
  staged.only stages_dumps fun _ _ _ => trivial

theorem reading_iff {c : Samplers} {e : Env} {p : Code Unit} (found : c.threads[0]? = some ⟨e, p⟩) :
    Reading c ↔ ∃ o, p.head = some o ∧ o.Lines := by
  simp only [Reading, Pool.next, found, Option.bind_some]

theorem between_loaded (d : Dump) : Between (d.after []) := by
  intro t o other next
  cases t with
  | zero => exact absurd rfl other
  | succ t => cases next

theorem progress_loaded (d : Dump) : Progress d [] := by
  refine ⟨?_, writeKinfoToFile d.pid, .opening, rfl, writeKinfoToFile_stages d.pid, ?_⟩
  · intro t thread other found
    cases t with
    | zero => exact absurd rfl other
    | succ t => cases found
  · intro heap nextPtr list
    exact whole_writes d _

theorem Dump.Late.append {p : Code Unit} {s : State} (late : d.Late turns p s) (turn : Turn) :
    d.Late (turns ++ [turn]) p s := by
  obtain ⟨before, earlier, rest⟩ := late
  exact ⟨before, earlier.trans (List.prefix_append _ _), rest⟩

/-- A new thread does not concern the dump. -/
theorem progress_spawn {turn : Turn} {thread : Thread sig Env Unit} (progress : Progress d turns)
    (spawns : turn.action = .spawn thread) (beside : thread.prog.Only Op.Beside) :
    Progress d (turns ++ [turn]) := by
  have moved : d.after (turns ++ [turn]) =
      { d.after turns with threads := (d.after turns).threads ++ [thread] } := by
    rw [after_append, spawns]
    rfl
  obtain ⟨p, stage, found, staged, stands⟩ := progress.dumper
  have inside : 0 < (d.after turns).threads.length := (List.getElem?_eq_some_iff.mp found).1
  constructor
  · intro t thread' other at_t
    rw [moved, List.getElem?_append] at at_t
    split at at_t
    · exact progress.others t thread' other at_t
    · rw [List.getElem?_singleton] at at_t
      split at at_t
      · cases at_t
        exact beside
      · cases at_t
  · rw [moved]
    refine ⟨p, stage, (List.getElem?_append_left inside).trans found, staged, ?_⟩
    cases stage with
    | opening => exact stands
    | found | listing | closing => exact Dump.Late.append stands turn

/-- A call of another thread: before the head of the list is read the dump has no table
yet, and while it goes through the list the others change no entry. -/
theorem stands_other {t : Tid} {e : Env} {o : Op} {a : o.Ans} {p : Code Unit} {s s' : State}
    {stage : Stage} (turn : Turn) (staged : Staged p stage) (stands : d.Stands turns p s stage)
    (beside : o.Beside) (apart : (∃ o', p.head = some o' ∧ o'.Lines) → ¬o.Amid)
    (answered : kernel t e o s = .done a s') : d.Stands (turns ++ [turn]) p s' stage := by
  have files := kernel_beside beside answered
  have late : d.Late turns p s → d.Late (turns ++ [turn]) p s' := by
    intro late
    obtain ⟨before, earlier, between, writes, lasts⟩ := late.append turn
    refine ⟨before, earlier, between, ?_, fun reading => ?_⟩
    · rw [files.withList]
      exact writes_amid (staged_dumps staged) writes s'
    · have same := kernel_apart (t := t) (e := e) (beside_apart beside (apart reading)) s
      rw [answered] at same
      exact (lasts reading).trans same.heap.symm
  cases stage with
  | opening =>
      intro heap nextPtr list
      rw [files.withList]
      exact writes_amid (staged_dumps staged) (stands heap nextPtr list) s'
  | found | listing | closing => exact late stands

/-- What the dump will write it still writes after a call that commutes with the change
of table. -/
theorem writes_call {o : Op} {k : o.Ans → Code Unit} {a : o.Ans} {s s' : State}
    {f : State → State} {rows : List Sample}
    (commutes : kernel 0 d.env o (f s) = (kernel 0 d.env o s).mapState f)
    (answered : kernel 0 d.env o s = .done a s')
    (writes : d.Writes (Prog.call (S := sig) o k) (f s) rows) : d.Writes (k a) (f s') rows := by
  intro s'' returned
  apply writes s''
  rw [Prog.exec_call, commutes, answered]
  exact returned

theorem closing_reads_nothing {p : Code Unit} (staged : Staged p .closing) :
    ¬∃ o, p.head = some o ∧ o.Lines := by
  rintro ⟨o, head, lines⟩
  cases p with
  | ret a => cases head
  | call o' k =>
      cases head
      have allowed := staged.1
      cases o <;> first | exact lines.elim | exact allowed.elim Stage.noConfusion Stage.noConfusion

theorem found_reads {p : Code Unit} (staged : Staged p .found) :
    ∃ o, p.head = some o ∧ o.Lines := by
  cases p with
  | ret a => exact absurd rfl staged
  | call o k =>
      refine ⟨o, rfl, ?_⟩
      have allowed := staged.1
      cases o <;> trivial

/-- The dump reads the head of the list: its table is the present one, or, of an empty
list, the one of the beginning. -/
theorem late_of_listed {k : List Ptr → Code Unit} {s : State} {turn : Turn}
    (staged : Staged (Prog.call (S := sig) .counterList k) .opening)
    (early : d.Early (Prog.call (S := sig) .counterList k) s)
    (now : s.counterList ≠ [] → Between (d.after (turns ++ [turn])))
    (shared : (d.after (turns ++ [turn])).shared = s) :
    d.Late (turns ++ [turn]) (k s.counterList) s := by
  by_cases empty : s.counterList = []
  · have closing := staged.2 s.counterList trivial
    rw [show dumpStages.next .counterList s.counterList .opening = .closing from if_pos empty]
      at closing
    refine ⟨[], List.nil_prefix, between_loaded d, ?_, ?_⟩
    · rw [empty]
      exact early _ _ []
    · intro reading
      exact absurd reading (closing_reads_nothing closing)
  · refine ⟨turns ++ [turn], List.prefix_rfl, now empty, ?_, fun _ => by rw [shared]⟩
    rw [shared]
    exact early s.heap s.nextPtr s.counterList

/-- A call of the dump after it has read the head of the list. -/
theorem late_call {o : Op} {k : o.Ans → Code Unit} {a : o.Ans} {s s' : State} {stage : Stage}
    (turn : Turn) (staged : Staged (Prog.call (S := sig) o k) stage) (listed : stage ≠ .opening)
    (late : d.Late turns (Prog.call (S := sig) o k) s) (answered : kernel 0 d.env o s = .done a s') :
    d.Late (turns ++ [turn]) (k a) s' := by
  obtain ⟨before, earlier, between, writes, lasts⟩ := late.append turn
  have dumps := stages_dumps o stage staged.1
  refine ⟨before, earlier, between, ?_, fun reading => ?_⟩
  · refine writes_call (f := (·.withList _ _ _)) ?_ answered writes
    apply kernel_table 0 d.env dumps
    · rintro rfl
      exact listed staged.1
    · intro lines
      exact lasts ⟨o, rfl, lines⟩
  · have onward := staged.2 a trivial
    by_cases lines : o.Lines
    · have same := kernel_apart (t := 0) (e := d.env) (dumps_apart o dumps) s
      rw [answered] at same
      exact (lasts ⟨o, rfl, lines⟩).trans same.heap.symm
    · rw [listed_next staged.1 listed lines a] at onward
      exact absurd reading (closing_reads_nothing onward)

/-- A call of the dump itself. -/
theorem stands_own {o : Op} {k : o.Ans → Code Unit} {a : o.Ans} {s s' : State} {stage : Stage}
    (turn : Turn) (staged : Staged (Prog.call (S := sig) o k) stage)
    (stands : d.Stands turns (Prog.call (S := sig) o k) s stage)
    (answered : kernel 0 d.env o s = .done a s')
    (apart : (∃ o', (k a).head = some o' ∧ o'.Lines) → Between (d.after (turns ++ [turn])))
    (shared : (d.after (turns ++ [turn])).shared = s') :
    d.Stands (turns ++ [turn]) (k a) s' (dumpStages.next o a stage) := by
  by_cases opening : stage = .opening
  · subst opening
    by_cases lists : o = .counterList
    · subst lists
      cases answered
      have listed : dumpStages.next .counterList s.counterList .opening ≠ .opening := by
        simp only [dumpStages]
        split <;> exact Stage.noConfusion
      rw [stands_iff listed]
      refine late_of_listed staged stands (fun some => ?_) shared
      have found := staged.2 s.counterList trivial
      rw [show dumpStages.next .counterList s.counterList .opening = .found from if_neg some]
        at found
      exact apart (found_reads found)
    · rw [(opening_next staged.1 a).resolve_right lists]
      intro heap nextPtr list
      refine writes_call (f := (·.withList heap nextPtr list)) ?_ answered (stands heap nextPtr list)
      refine kernel_table 0 d.env (stages_dumps o _ staged.1) lists fun lines => ?_
      have early := staged.1
      cases o <;> first | exact lines.elim | exact early.elim nofun nofun
  · rw [stands_iff (listed_stays staged.1 opening a)]
    exact late_call turn staged opening ((stands_iff opening).mp stands) answered

section Advance

variable {t : Tid} {e : Env} {o : Op} {k : o.Ans → Code Unit} {a : o.Ans} {s' : State}

/-- The dump goes on. -/
theorem progress_own (progress : Progress d turns)
    (found : (d.after turns).threads[0]? = some ⟨e, .call (S := sig) o k⟩)
    (answered : kernel 0 e o (d.after turns).shared = .done a s')
    (moved : d.after (turns ++ [.step 0]) = ⟨s', (d.after turns).threads.set 0 ⟨e, k a⟩⟩)
    (apart : Reading (d.after (turns ++ [.step 0])) → Between (d.after (turns ++ [.step 0]))) :
    Progress d (turns ++ [.step 0]) := by
  have inside := (List.getElem?_eq_some_iff.mp found).1
  obtain ⟨p, stage, at_zero, staged, stands⟩ := progress.dumper
  rw [found, Option.some.injEq, Thread.mk.injEq] at at_zero
  obtain ⟨rfl, rfl⟩ := at_zero
  have at_zero' : (d.after (turns ++ [.step 0])).threads[0]? = some ⟨d.env, k a⟩ := by
    rw [moved]
    exact List.getElem?_set_self inside
  constructor
  · intro u thread other at_u
    rw [moved, List.getElem?_set_ne (Ne.symm other)] at at_u
    exact progress.others u thread other at_u
  · refine ⟨k a, dumpStages.next o a stage, at_zero', staged.2 a trivial, ?_⟩
    have shared : (d.after (turns ++ [.step 0])).shared = s' := by rw [moved]
    rw [shared]
    refine stands_own (.step 0) staged stands answered (fun reading => ?_) shared
    exact apart ((reading_iff at_zero').mpr reading)

/-- Another thread goes on. -/
theorem progress_other (progress : Progress d turns) (other : t ≠ 0)
    (found : (d.after turns).threads[t]? = some ⟨e, .call (S := sig) o k⟩)
    (answered : kernel t e o (d.after turns).shared = .done a s')
    (moved : d.after (turns ++ [.step t]) = ⟨s', (d.after turns).threads.set t ⟨e, k a⟩⟩)
    (apart : Reading (d.after turns) → Between (d.after turns)) :
    Progress d (turns ++ [.step t]) := by
  obtain ⟨p, stage, at_zero, staged, stands⟩ := progress.dumper
  have beside : (Prog.call (S := sig) o k).Only Op.Beside :=
    progress.others t ⟨e, .call o k⟩ other found
  have inside := (List.getElem?_eq_some_iff.mp found).1
  constructor
  · intro u thread later at_u
    by_cases mine : u = t
    · subst mine
      rw [moved, List.getElem?_set_self inside] at at_u
      cases at_u
      exact beside.2 a
    · rw [moved, List.getElem?_set_ne (Ne.symm mine)] at at_u
      exact progress.others u thread later at_u
  · refine ⟨p, stage, ?_, staged, ?_⟩
    · rw [moved]
      exact (List.getElem?_set_ne other).trans at_zero
    · rw [moved]
      refine stands_other (.step t) staged stands beside.1 (fun reading => ?_) answered
      have quiet := apart ((reading_iff at_zero).mpr reading)
      exact quiet t o other (Pool.next_iff.mpr ⟨e, k, found⟩)

end Advance

/-- A turn that moves nobody. -/
theorem progress_unmoved (progress : Progress d turns) (t : Tid)
    (same : d.after (turns ++ [.step t]) = d.after turns) : Progress d (turns ++ [.step t]) := by
  obtain ⟨p, stage, found, staged, stands⟩ := progress.dumper
  refine ⟨by rw [same]; exact progress.others, p, stage, by rw [same]; exact found, staged, ?_⟩
  rw [same]
  cases stage with
  | opening => exact stands
  | found | listing | closing => exact Dump.Late.append stands _

/-- A turn in which a thread goes on. -/
theorem progress_step (t : Tid) (progress : Progress d turns)
    (apart : ∀ now, now = turns ∨ now = turns ++ [.step t] →
      Reading (d.after now) → Between (d.after now)) :
    Progress d (turns ++ [.step t]) := by
  rcases Pool.advance_cases (h := kernel) (d.after turns) t with
    same | ⟨e, o, k, a, s', found, answered, moved⟩
  · exact progress_unmoved progress t ((after_append d turns (.step t)).trans same)
  · replace moved := (after_append d turns (.step t)).trans moved
    by_cases own : t = 0
    · subst own
      exact progress_own progress found answered moved (apart _ (Or.inr rfl))
    · exact progress_other progress own found answered moved (apart _ (Or.inl rfl))

theorem progress_after (apart : ∀ before, before <+: turns → Reading (d.after before) →
    Between (d.after before)) : Progress d turns := by
  induction turns using List.reverseRecOn with
  | nil => exact progress_loaded d
  | append_singleton turns turn ih =>
      have progress := ih fun before earlier => apart before (earlier.trans (List.prefix_append _ _))
      cases turn with
      | start pid => exact progress_spawn progress rfl (setTarget_beside pid)
      | hit env regs =>
          apply progress_spawn progress rfl
          exact Prog.only_bind (preHandler_beside regs) fun _ => trivial
      | step t =>
          apply progress_step t progress
          rintro now (rfl | rfl)
          · exact apart _ (List.prefix_append _ _)
          · exact apart _ List.prefix_rfl

end Stages

/-! ## Snapshots -/

/-- **A dump is a snapshot** when no `update_counters` call is under way while it goes
through the list. -/
theorem dump_is_snapshot (d : Dump) (turns : List Turn)
    (apart : ∀ before, before <+: turns → Reading (d.after before) → Between (d.after before))
    (returned : (d.after turns).Returned 0) : Snapshot d turns := by
  obtain ⟨p, stage, found, staged, stands⟩ := (progress_after apart).dumper
  obtain ⟨e, a, at_zero⟩ := returned
  rw [found] at at_zero
  cases at_zero
  cases stage with
  | opening =>
      have written := stands (d.after []).shared.heap (d.after []).shared.nextPtr [] _ rfl
      exact ⟨[], List.nil_prefix, between_loaded d, written⟩
  | found | listing | closing =>
      obtain ⟨before, earlier, between, writes, -⟩ := stands
      have written := writes _ rfl
      exact ⟨before, earlier, between, written⟩

/-- Thread `t` goes on for `n` calls. -/
def calls (t : Tid) (n : Nat) : List Turn := List.replicate n (.step t)

def quietDump : Dump := ⟨.quiet, 5, rfl, fun _ => rfl⟩

/-- A session for process 5 with one sample, which is then dumped. -/
def wholeDump : List Turn :=
  .start 5 :: calls 1 3 ++ .hit (.switchTo 5 1) ⟨fun _ => 16, 0⟩ :: calls 2 48 ++ calls 0 37

theorem wholeDump_is_snapshot : Snapshot quietDump wholeDump := by
  apply dump_is_snapshot
  · intro before earlier
    rw [List.prefix_iff_eq_take.mp earlier]
    have apart : ∀ n ≤ wholeDump.length, Reading (quietDump.after (wholeDump.take n)) →
        Between (quietDump.after (wholeDump.take n)) := by decide +kernel
    exact apart before.length earlier.length_le
  · decide +kernel

/-- The same session with a second sample, taken while the dump is at the row of the first:
the row has its first six counters from before it and the others from after it. -/
def tornDump : List Turn :=
  .start 5 :: calls 1 3 ++ .hit (.switchTo 5 1) ⟨fun _ => 16, 0⟩ :: calls 2 48 ++ calls 0 20 ++
    .hit (.switchTo 5 1) ⟨fun _ => 16, 0⟩ :: calls 3 58 ++ calls 0 17

def tornRow : Sample := (16, fun i => if i < 6 then 1 else 2)

theorem tornDump_is_no_snapshot :
    ¬∀ (d : Dump) (turns : List Turn), (d.after turns).Returned 0 → Snapshot d turns := by
  intro snapshots
  obtain ⟨before, earlier, -, rows⟩ := snapshots quietDump tornDump (by decide +kernel)
  have written : (quietDump.after tornDump).shared.files (dumpName quietDump.pid) =
      some (dumpText [tornRow]) := by decide +kernel
  have never : ∀ n ≤ tornDump.length,
      (quietDump.after (tornDump.take n)).shared.rows ≠ [tornRow] := by decide +kernel
  rw [written, List.prefix_iff_eq_take.mp earlier, Option.some.injEq] at rows
  apply never before.length earlier.length_le
  exact (dumpText_injective rows).symm

end Dreamscape.Monitor
