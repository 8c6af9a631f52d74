/-
# Userland.Measured -- what pmu_events_cli counts

The event is opened by the process that will be the parent, and is not inherited.  The child
enables it and returns; neither process executes the program the option names
(`measuring_tools`).  So no count the parent prints is that program's (`never_measures`), and
what it does print, as in `ownRun`, is an event of the parent itself.
-/
import Dreamscape.Userland.PmuEventsCli

namespace Dreamscape.Userland

set_option autoImplicit false

open Theory Kernel

/-- The command line is accepted, with this path and this event. -/
structure AcceptedLine (argv : List (List Char)) (path : List Char) (event : BitVec 32) : Prop where
  read : readOptions {} (getopts argv.tail) = some ⟨some path, event⟩
  valid : isValidPerfEvent event = true

/-- The system after a run of the program. -/
def measuring (e : Env) (count : U64) (argv : List (List Char)) (actions : List Action) : System :=
  (System.started (pmuEventsCli count argv)).run e actions

/-- The parent has printed this count. -/
def PrintsCount (event : BitVec 32) (n : U64) (x : System) : Prop :=
  (Pid.parent, Stream.stdout, countLine event n) ∈ x.output

/-- The child runs, or ran to its end, the program at `path`. -/
def RunsAt (path : List Char) (x : System) : Prop :=
  ∃ argv executed life, x.child = some ⟨.program path argv executed, life⟩

/-- How often the event has happened in user mode while the child ran a program. -/
def occurrences (event : BitVec 32) (x : System) : Nat :=
  x.happened.countP fun w =>
    w.pid == .child && w.inProgram && w.occurrence.code == event && w.occurrence.mode == .user

/-- A count the parent printed in the run is that of the child, at some point of it, in the
program at `path`. -/
def Measures (e : Env) (count : U64) (argv : List (List Char)) (path : List Char)
    (event : BitVec 32) (actions : List Action) : Prop :=
  ∀ n, PrintsCount event n (measuring e count argv actions) →
    ∃ before after, actions = before ++ after ∧ RunsAt path (measuring e count argv before) ∧
      n = BitVec.ofNat 64 (occurrences event (measuring e count argv before))

/-! ## No program is executed -/

theorem plain_stays (o : Op) (plain : o.plain) : o.stays := by
  cases o <;> trivial

/-- No branch of the program calls `execvp`. -/
theorem pmuEventsCli_stays (count : U64) (argv : List (List Char)) :
    (pmuEventsCli count argv).Only Op.stays := by
  unfold pmuEventsCli
  simp only
  split
  · exact usageError_only plain_stays _ _
  · split
    · exact usageError_only plain_stays _ _
    · exact measureEvent_only plain_stays trivial count

section Run

variable (e : Env) (count : U64) (argv : List (List Char)) (actions : List Action)

/-- **In no run is a program executed**, and nothing happens in one. -/
theorem measuring_tools : Tools (measuring e count argv actions) :=
  tools_run (pmuEventsCli_stays count argv) actions

theorem not_runsAt (path : List Char) : ¬RunsAt path (measuring e count argv actions) := by
  rintro ⟨argv', executed, life, here⟩
  exact (measuring_tools e count argv actions).image .child path argv' executed life here

theorem occurrences_zero (event : BitVec 32) :
    occurrences event (measuring e count argv actions) = 0 := by
  refine List.countP_eq_zero.mpr fun w member counted => ?_
  rw [(measuring_tools e count argv actions).happened w member] at counted
  simp at counted

/-- No count that is printed is one of the program. -/
theorem printed_not_measured {path : List Char} {event : BitVec 32} {n : U64}
    (printed : PrintsCount event n (measuring e count argv actions)) :
    ¬Measures e count argv path event actions := by
  intro measures
  obtain ⟨before, after, -, runs, -⟩ := measures n printed
  exact not_runsAt e count argv before path runs

end Run

/-! ## A count is printed -/

/-- The parent is counted while the child has already returned. -/
def ownRun (event : BitVec 32) : List Action :=
  [.call .parent, .call .parent, .call .child, .call .child, .call .child, .call .child,
    .hardware .parent 0 event .user, .call .parent, .call .parent, .call .parent, .call .parent,
    .call .parent]

theorem pmuEventsCli_accepted {argv : List (List Char)} {path : List Char} {event : BitVec 32}
    (accepted : AcceptedLine argv path event) (count : U64) :
    pmuEventsCli count argv = measureEvent count event := by
  have nonzero : event ≠ 0 := by
    rintro rfl
    exact Bool.false_ne_true accepted.valid
  have good : ¬(some path = none ∨ event = 0 ∨ isValidPerfEvent event = false) := by
    rintro (none | zero | invalid)
    · cases none
    · exact nonzero zero
    · rw [accepted.valid] at invalid
      cases invalid
  rw [pmuEventsCli, accepted.read]
  exact if_neg good

/-- The parent's own event is what is printed. -/
theorem ownRun_prints {argv : List (List Char)} {path : List Char} {event : BitVec 32}
    (accepted : AcceptedLine argv path event) (count : U64) :
    PrintsCount event 1 (measuring .granting count argv (ownRun event)) := by
  have one_of : event = 3 ∨ event = 4 ∨ event = 5 := by
    have valid := accepted.valid
    simpa only [isValidPerfEvent, Bool.or_eq_true, beq_iff_eq, or_assoc] using valid
  have printed : (measuring .granting count argv (ownRun event)).output[2]? =
      some (.parent, .stdout, countLine event 1) := by
    rw [measuring, pmuEventsCli_accepted accepted]
    rcases one_of with rfl | rfl | rfl <;> rfl
  exact List.mem_of_getElem? printed

/-- **The count is never that of the program**: it is in no run that prints one, and in some run
it is not even the number of the program's events. -/
theorem never_measures {argv : List (List Char)} {path : List Char} {event : BitVec 32}
    (accepted : AcceptedLine argv path event) (count : U64) :
    (∀ e actions n, PrintsCount event n (measuring e count argv actions) →
      ¬Measures e count argv path event actions) ∧
    ∃ e actions n, PrintsCount event n (measuring e count argv actions) ∧
      n.toNat ≠ occurrences event (measuring e count argv actions) := by
  refine ⟨fun e actions n printed => printed_not_measured e count argv actions printed, ?_⟩
  refine ⟨.granting, ownRun event, 1, ownRun_prints accepted count, ?_⟩
  rw [occurrences_zero]
  decide

/-- `pmu_events_cli -p x -e 3` -/
def exampleArgv : List (List Char) :=
  [['p', 'm', 'u'], ['-', 'p'], ['x'], ['-', 'e'], ['3']]

theorem exampleArgv_accepted : AcceptedLine exampleArgv ['x'] 3 := ⟨rfl, rfl⟩

theorem never_measures_example :
    AcceptedLine exampleArgv ['x'] 3 ∧
    (∀ e actions n, PrintsCount 3 n (measuring e 0 exampleArgv actions) →
      ¬Measures e 0 exampleArgv ['x'] 3 actions) ∧
    ∃ e actions n, PrintsCount 3 n (measuring e 0 exampleArgv actions) ∧
      n.toNat ≠ occurrences 3 (measuring e 0 exampleArgv actions) :=
  ⟨exampleArgv_accepted, never_measures exampleArgv_accepted 0⟩

/-- The parent prints what it counted of itself. -/
theorem own_count_printed : ¬Measures .granting 0 exampleArgv ['x'] 3 (ownRun 3) :=
  printed_not_measured .granting 0 exampleArgv (ownRun 3) (ownRun_prints exampleArgv_accepted 0)

end Dreamscape.Userland
