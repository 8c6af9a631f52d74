/-
# Userland.StartSuspended -- starting a program in suspended state

`start_suspended.c` forks, and while the child goes on to `execvp` the parent sends it
`SIGSTOP` and waits.  Nothing orders the two: the stop is taken before `execvp`, after it,
after some instructions of the target, or never, when the child has ended first; and
`waitpid` returns in every case.  The parent's line is right in exactly the runs in which
the child takes the stop between its `execvp` and the first instruction
(`announces_suspended_iff`).
-/
import Dreamscape.Userland.Processes

namespace Dreamscape.Userland

set_option autoImplicit false

open Theory Kernel

/-! ## The program -/

def suspendedLine (pid : Int) : List Char :=
  "Child process started in suspended state with PID: ".toList ++ formatInt pid ++ ['\n']

/-- `main` of start_suspended. -/
def startSuspended (argv : List (List Char)) : Code Int := do
  let pid ← fork
  if pid = 0 then
    let _ ← execvp argv.tail.head? argv.tail
    perror "execvp".toList
    exit 1
  else if pid < 0 then
    perror "fork".toList
    exit 1
  else
    if (← killStop pid) ≠ 0 then
      perror "kill".toList
      exit 1
    else if (← waitpid pid true) < 0 then
      perror "waitpid".toList
      exit 1
    else
      printf (suspendedLine pid)
      return 0

/-- The system after a run of the program. -/
def suspending (e : Env) (argv : List (List Char)) (actions : List Action) : System :=
  (System.started (startSuspended argv)).run e actions

/-- The next call of the parent prints that the child was started in suspended state. -/
def AboutToAnnounce (e : Env) (x : System) : Prop :=
  ∃ k, x.parent =
    ⟨.tool (.call (S := sig) (.printf (suspendedLine (e.pidOf .child))) k), .running⟩

/-- The parent has printed it. -/
def Announced (e : Env) (x : System) : Prop :=
  (Pid.parent, Stream.stdout, suspendedLine (e.pidOf .child)) ∈ x.output

/-- The child is stopped, its `execvp` succeeded, and it has executed no instruction of the
target. -/
def Suspended (x : System) : Prop :=
  ∃ file argv, x.child = some ⟨.program file argv 0, .stopped⟩

/-- Whenever in the run the parent has announced it, the child is suspended. -/
def AnnouncesSuspended (e : Env) (argv : List (List Char)) (actions : List Action) : Prop :=
  ∀ before after, actions = before ++ after → Announced e (suspending e argv before) →
    Suspended (suspending e argv before)

/-- The stop has been sent, and the child is between its `execvp` and the first instruction. -/
def JustExecuted (x : System) : Prop :=
  x.stopPending = true ∧ ∃ file argv, x.child = some ⟨.program file argv 0, .running⟩

/-- At some point of the run the child takes the stop when it has just executed the target. -/
def TakesStopInTime (e : Env) (argv : List (List Char)) (actions : List Action) : Prop :=
  ∃ before after, actions = before ++ .takeStop :: after ∧ JustExecuted (suspending e argv before)

/-! ## When the child is suspended -/

section Stop

variable {e : Env} {x : System}

theorem takeStop_suspends (just : JustExecuted x) : Suspended (x.step e .takeStop) := by
  obtain ⟨pending, file, argv, here⟩ := just
  exact ⟨file, argv, by simp [System.step, here, pending]⟩

/-- A step that leaves the child suspended found it so, or is the stop in time. -/
theorem suspended_step {a : Action} (suspended : Suspended (x.step e a)) :
    Suspended x ∨ a = .takeStop ∧ JustExecuted x := by
  obtain ⟨file, argv, after⟩ := suspended
  rcases child_step e x a with same | ⟨-, proc, there, moving⟩ | ⟨stop, pending, image, here, there⟩
  · exact Or.inl ⟨file, argv, same.symm.trans after⟩
  · rw [there] at after
    cases after
    exact absurd rfl moving
  · rw [there] at after
    cases after
    exact Or.inr ⟨stop, pending, file, argv, here⟩

theorem suspending_concat (argv : List (List Char)) (actions : List Action) (a : Action) :
    suspending e argv (actions ++ [a]) = (suspending e argv actions).step e a :=
  run_append actions [a]

theorem suspended_grows {e : Env} {argv : List (List Char)} {before : List Action}
    (suspended : Suspended (suspending e argv before)) (after : List Action) :
    Suspended (suspending e argv (before ++ after)) := by
  obtain ⟨file, argv', here⟩ := suspended
  refine ⟨file, argv', ?_⟩
  rw [suspending, run_append]
  exact halted_run here nofun after

/-- **The child is suspended** exactly in the runs in which it took the stop in time. -/
theorem suspended_iff (e : Env) (argv : List (List Char)) (actions : List Action) :
    Suspended (suspending e argv actions) ↔ TakesStopInTime e argv actions := by
  constructor
  · intro suspended
    induction actions using List.reverseRecOn with
    | nil =>
        obtain ⟨file, argv', none⟩ := suspended
        cases none
    | append_singleton actions a ih =>
        rw [suspending_concat] at suspended
        rcases suspended_step suspended with earlier | ⟨rfl, just⟩
        · obtain ⟨before, after, rfl, just⟩ := ih earlier
          exact ⟨before, after ++ [a], by simp, just⟩
        · exact ⟨actions, [], rfl, just⟩
  · rintro ⟨before, after, rfl, just⟩
    have stopped : Suspended (suspending e argv (before ++ [.takeStop])) := by
      rw [suspending_concat]
      exact takeStop_suspends just
    have onward := suspended_grows stopped after
    rwa [List.append_assoc] at onward

end Stop

/-! ## When the parent announces it -/

/-- `stdout` is written only after a wait that returned. -/
def announcing : Protocol sig Bool where
  allowed o waited :=
    match o with
    | .printf _ => waited = true
    | _ => True
  possible _ _ _ := True
  next
    | .waitpid .., a, waited => waited || decide (0 ≤ a)
    | _, _, waited => waited

theorem startSuspended_announcing (argv : List (List Char)) :
    (startSuspended argv).Follows announcing (fun _ _ => True) false := by
  have fails : ∀ (text : List Char) (waited : Bool),
      (do perror text; exit 1 : Code Int).Follows announcing (fun _ _ => True) waited :=
    fun _ _ => ⟨trivial, fun _ _ => ⟨trivial, nofun⟩⟩
  simp only [startSuspended, fork, call, Prog.call_bind, Prog.ret_bind, Prog.follows_call]
  refine ⟨trivial, fun pid _ => ?_⟩
  split
  · exact ⟨trivial, fun _ _ => fails "execvp".toList false⟩
  · split
    · exact fails "fork".toList false
    · refine ⟨trivial, fun killed _ => ?_⟩
      show Prog.Follows announcing _ (if killed ≠ 0 then _ else _ : Code Int) _
      split
      · exact fails "kill".toList false
      · refine ⟨trivial, fun found _ => ?_⟩
        show Prog.Follows announcing _ (if found < 0 then _ else _ : Code Int) _
        split
        · exact fails "waitpid".toList _
        · rename_i positive
          exact ⟨decide_eq_true (Int.not_lt.mp positive), fun _ _ => trivial⟩

/-- What announcing relies on, of the parent's code and of what it printed. -/
structure Waits (x : System) : Prop where
  code : ∀ rest life, x.parent = ⟨.tool rest, life⟩ →
    ∃ waited, rest.Follows announcing (fun _ _ => True) waited ∧ (waited = true → ChildHalted x)
  printed : ∀ text, (Pid.parent, Stream.stdout, text) ∈ x.output → ChildHalted x

/-- A child that halted stays halted. -/
theorem childHalted_step {e : Env} {x : System} (halted : ChildHalted x) (a : Action) :
    ChildHalted (x.step e a) := by
  obtain ⟨proc, here, life⟩ := halted
  exact ⟨proc, halted_step here life a, life⟩

theorem waits_step {e : Env} {x : System} (waits : Waits x) (a : Action) : Waits (x.step e a) := by
  refine ⟨fun rest life after => ?_, fun text printed => ?_⟩
  · rcases step_tool (p := .parent) (congrArg some after) with
      ⟨life', here⟩ | ⟨o, k, ans, rfl, here, tells, rfl⟩ | ⟨f, other, -⟩
    · obtain ⟨waited, follows, halted⟩ := waits.code rest life' (Option.some.inj here)
      exact ⟨waited, follows, fun done => childHalted_step (halted done) a⟩
    · obtain ⟨waited, follows, halted⟩ := waits.code _ _ (Option.some.inj here)
      refine ⟨announcing.next o ans waited, follows.2 ans trivial, fun done => ?_⟩
      refine childHalted_step ?_ _
      cases o with
      | waitpid pid untraced =>
          rcases Bool.or_eq_true_iff.mp done with earlier | now
          · exact halted earlier
          · exact tells (of_decide_eq_true now)
      | _ => exact halted done
    · cases other
  · rcases step_output e x a with same | ⟨p, o, k, stream, text', rfl, here, grown, by_printf⟩
    · rw [same] at printed
      exact childHalted_step (waits.printed text printed) a
    · refine childHalted_step ?_ _
      rw [grown] at printed
      rcases List.mem_append.mp printed with earlier | now
      · exact waits.printed text earlier
      · cases List.mem_singleton.mp now
        cases by_printf rfl
        obtain ⟨waited, follows, halted⟩ := waits.code _ _ (Option.some.inj here)
        exact halted follows.1

/-- **What an announcement means**: the child has stopped or ended. -/
theorem announced_halted {e : Env} {argv : List (List Char)} {actions : List Action}
    (announced : Announced e (suspending e argv actions)) : ChildHalted (suspending e argv actions) := by
  have start : Waits (System.started (startSuspended argv)) := by
    refine ⟨fun rest life same => ?_, fun text printed => absurd printed List.not_mem_nil⟩
    cases same
    exact ⟨false, startSuspended_announcing argv, nofun⟩
  have waits : Waits (suspending e argv actions) :=
    run_invariant (I := Waits) (fun _ a waits => waits_step waits a) start actions
  exact waits.printed _ announced

/-- The line is printed by a step of the parent. -/
theorem announced_step {e : Env} {x : System} {a : Action} (announced : Announced e (x.step e a)) :
    Announced e x ∨ a = .call .parent ∧ AboutToAnnounce e x := by
  rcases step_output e x a with same | ⟨p, o, k, stream, text, rfl, here, grown, by_printf⟩
  · rw [Announced, same] at announced
    exact Or.inl announced
  · rw [Announced, grown] at announced
    rcases List.mem_append.mp announced with earlier | now
    · exact Or.inl earlier
    · cases List.mem_singleton.mp now
      cases by_printf rfl
      exact Or.inr ⟨rfl, k, Option.some.inj here⟩

theorem announced_split {e : Env} {argv : List (List Char)} {actions : List Action}
    (announced : Announced e (suspending e argv actions)) :
    ∃ before after, actions = before ++ .call .parent :: after ∧
      AboutToAnnounce e (suspending e argv before) := by
  induction actions using List.reverseRecOn with
  | nil => cases announced
  | append_singleton actions a ih =>
      rw [suspending_concat] at announced
      rcases announced_step announced with earlier | ⟨rfl, about⟩
      · obtain ⟨before, after, rfl, about⟩ := ih earlier
        exact ⟨before, after ++ [a], by simp, about⟩
      · exact ⟨actions, [], rfl, about⟩

theorem aboutToAnnounce_step {e : Env} {x : System} (about : AboutToAnnounce e x) :
    Announced e (x.step e (.call .parent)) := by
  obtain ⟨k, here⟩ := about
  have printed : x.step e (.call .parent) =
      (x.print .parent .stdout (suspendedLine (e.pidOf .child))).resume .parent (k ()) := by
    simp only [System.step, System.proc, here, System.perform]
  rw [Announced, printed]
  exact List.mem_append_right _ (List.mem_singleton_self _)

/-- **The announcement is right** exactly in the runs in which, whenever the parent goes on to
print, the child has taken the stop between its `execvp` and the first instruction of the
target. -/
theorem announces_suspended_iff (e : Env) (argv : List (List Char)) (actions : List Action) :
    AnnouncesSuspended e argv actions ↔
      ∀ before after, actions = before ++ .call .parent :: after →
        AboutToAnnounce e (suspending e argv before) → TakesStopInTime e argv before := by
  constructor
  · rintro right before after rfl about
    have suspended : Suspended (suspending e argv (before ++ [.call .parent])) := by
      refine right _ after (by simp) ?_
      rw [suspending_concat]
      exact aboutToAnnounce_step about
    rw [suspending_concat] at suspended
    rcases suspended_step suspended with earlier | ⟨other, -⟩
    · exact (suspended_iff e argv before).mp earlier
    · cases other
  · rintro inTime before after rfl announced
    obtain ⟨early, later, rfl, about⟩ := announced_split announced
    have stopped : Suspended (suspending e argv early) :=
      (suspended_iff e argv early).mpr (inTime early (later ++ after) (by simp) about)
    exact suspended_grows stopped _

/-- The parent is faster than the child, which takes the stop before its `execvp`. -/
def stopBeforeExec : List Action :=
  [.call .parent, .call .parent, .takeStop, .call .parent, .call .parent]

theorem stopped_before_exec :
    ¬AnnouncesSuspended .granting ["start_suspended".toList, "target".toList] stopBeforeExec := by
  intro right
  obtain ⟨file, argv, here⟩ := right stopBeforeExec [] rfl (List.mem_singleton.mpr rfl)
  cases here

end Dreamscape.Userland
