/-
# Monitor.Linearized -- commands and samples take effect one at a time

Handlers run beside each other, call by call, and nothing is assumed of the kernel: events
and memory may be refused, dumps may go wrong.  The abstract recorder has a target and a
table; a command sets the target, and a switch to the target records one sample.

At every point of every run at which `target_pid_mutex` is free, `target_pid` and the rows
of `counter_list` are those of the recorder after the invocations that have given the mutex
back, one after another in that order (`handlers_linearize`).  Each of them is there once,
and every invocation that returned no error is there, from then on at the same place.
-/
import Dreamscape.Monitor.Sections
import Dreamscape.Theory.Mutex

namespace Dreamscape.Monitor

set_option autoImplicit false

open Theory Kernel
open Sections (createEvents_refused)

/-! ## The recorder -/

structure Recorder where
  target : Int
  table : List (U64 × Counters)

def Recorder.next (r : Recorder) : Invocation → Recorder
  | .write env =>
      match env.command with
      | some (.startPid pid) => { r with target := pid }
      | some .stopPid => { r with target := -1 }
      | none => r
  | .hit env regs =>
      if (env.currentPid : Int) = r.target ∧ env.Grants then
        { r with table := Tally.record r.table (sampleOf env regs) }
      else r

/-- Before anything is recorded. -/
def Recorder.fresh : Recorder := ⟨-1, []⟩

def State.recorder (s : State) : Recorder := ⟨s.targetPid, s.rows⟩

/-- The invocations of a run; the number of a thread is the place of its invocation. -/
def invocations : List Event → List Invocation
  | [] => []
  | .start i :: rest => i :: invocations rest
  | .step _ :: rest => invocations rest

/-- What thread `t` does to the recorder. -/
def Recorder.turn (all : List Invocation) (r : Recorder) (t : Tid) : Recorder :=
  match all[t]? with
  | some i => r.next i
  | none => r

/-! ## The mutex and what it guards -/

/-- The calls made without the mutex. -/
def Op.Outer : Op → Prop
  | .copyFromUser _ | .targetPid | .currentPid => True
  | o => o.Dumps

/-- The calls made with it. -/
def Op.Inner : Op → Prop
  | .targetPid | .setTargetPid _ => True
  | o => o.Measures ∨ o.Updates

def Op.locks : Op → Bool
  | .mutexLock => true
  | _ => false

def Op.unlocks : Op → Bool
  | .mutexUnlock => true
  | _ => false

/-- What the sections read and write. -/
def State.guarded (s : State) : State :=
  { State.initial with
    targetPid := s.targetPid
    counterList := s.counterList
    heap := s.heap
    nextPtr := s.nextPtr
    nextEvent := s.nextEvent }

def targetPidMutex : Lock sig State State where
  owner := State.mutex
  view := State.guarded
  locks := Op.locks
  unlocks := Op.unlocks
  outer := Op.Outer
  inner := Op.Inner

section Kernel

variable {t : Tid} {e : Env} {o : Op} {a : o.Ans} {s s' : State}

theorem outer_kept (outer : o.Outer) (answered : kernel t e o s = .done a s') :
    s'.mutex = s.mutex ∧ s'.guarded = s.guarded := by
  cases o with
  | filpOpen _ | filpClose _ | setFs _ | setFPos _ _ | fOpWrite _ _ =>
      obtain ⟨_, _, _, _, rfl⟩ := kernel_onFiles answered trivial
      exact ⟨rfl, rfl⟩
  | copyFromUser _ | targetPid | currentPid | getFs | counterList | entryPc _ | entryCounter _ _
  | hasWrite _ =>
      obtain rfl := kernel_reads answered trivial
      exact ⟨rfl, rfl⟩
  | _ => exact outer.elim

theorem inner_owner (inner : o.Inner) (answered : kernel t e o s = .done a s') :
    s'.mutex = s.mutex := by
  rcases op_cases o with plain | rfl | rfl | ⟨attr, cpu, task, rfl⟩ | ⟨ev, rfl⟩
  · exact (kernel_plain plain answered).mutex
  · exact inner.elim False.elim False.elim
  · exact inner.elim False.elim False.elim
  · rcases kernel_create answered with ⟨err, -, rfl⟩ | ⟨ev, -, -, rfl⟩
    · rfl
    · rfl
  · rw [kernel_release answered]

theorem guarded_iff : s.guarded = s'.guarded ↔
    s.targetPid = s'.targetPid ∧ s.counterList = s'.counterList ∧ s.heap = s'.heap ∧
      s.nextPtr = s'.nextPtr ∧ s.nextEvent = s'.nextEvent := by
  simp only [State.guarded, State.mk.injEq, true_and, and_true]

theorem storeEntry_alike (same : s.guarded = s'.guarded) (entry : Option Ptr)
    (f : CounterData → CounterData) :
    (s.storeEntry entry f).mapState State.guarded =
      (s'.storeEntry entry f).mapState State.guarded := by
  obtain ⟨target, list, heap, nextPtr, nextEvent⟩ := guarded_iff.mp same
  cases entry with
  | none => exact congrArg (Outcome.fault Fault.nullDereference) same
  | some p =>
      simp only [State.storeEntry, State.onEntry, heap]
      cases s'.heap p with
      | none => exact congrArg (Outcome.fault Fault.badPointer) same
      | some data => simp only [Outcome.mapState, State.guarded, target, list, nextPtr, nextEvent]

/-- The calls of a section are answered from what the mutex guards. -/
theorem inner_alike (inner : o.Inner) (same : s.guarded = s'.guarded) :
    (kernel t e o s).mapState State.guarded = (kernel t e o s').mapState State.guarded := by
  obtain ⟨target, list, heap, nextPtr, nextEvent⟩ := guarded_iff.mp same
  cases o with
  | addCounter p i v => exact storeEntry_alike same (some p) _
  | setEntryPc entry pc => exact storeEntry_alike same entry _
  | setEntryCounters entry values => exact storeEntry_alike same entry _
  | entryPc p =>
      simp only [kernel, State.onEntry, heap]
      cases s'.heap p with
      | none => exact congrArg (Outcome.fault Fault.badPointer) same
      | some data => exact congrArg (Outcome.done data.pc) same
  | perfEventCreateKernelCounter attr cpu task =>
      simp only [kernel, nextEvent]
      cases e.create attr cpu task with
      | none => simp only [Outcome.mapState, State.guarded, target, list, heap, nextPtr]
      | some err => simp only [Outcome.mapState, State.guarded, target, list, heap, nextPtr]
  | kmalloc =>
      simp only [kernel, heap, nextPtr]
      cases e.kmallocFails <;>
        simp only [Bool.false_eq_true, reduceIte, Outcome.mapState, State.guarded, target, list,
          heap, nextPtr, nextEvent]
  | listAdd entry =>
      cases entry with
      | none => exact congrArg (Outcome.fault Fault.nullDereference) same
      | some p =>
          simp only [kernel, Outcome.mapState, State.guarded, target, list, heap, nextPtr, nextEvent]
  | targetPid | setTargetPid _ | counterList | perfEventReadValue _ | perfEventReleaseKernel _ =>
      simp only [kernel, Outcome.mapState, State.guarded, target, list, heap, nextPtr, nextEvent]
  | _ => exact inner.elim False.elim False.elim

end Kernel

theorem targetPidMutex_kept : targetPidMutex.Kept kernel where
  lock := by
    intro t e o s a s' locks answered
    cases o with
    | mutexLock =>
        obtain ⟨free, rfl⟩ := kernel_mutexLock answered
        exact ⟨free, rfl, rfl⟩
    | _ => cases locks
  unlock := by
    intro t e o s a s' unlocks answered
    cases o with
    | mutexUnlock =>
        obtain ⟨owns, rfl⟩ := kernel_mutexUnlock answered
        exact ⟨owns, rfl, rfl⟩
    | _ => cases unlocks
  outer := outer_kept
  inner := inner_owner
  alike := inner_alike

/-! ## What the handlers do -/

/-- A thread that returns without a section returns an error. -/
def Acknowledged (stage : Lock.Stage) (ret : Int) : Prop := stage = .before → ret < 0

theorem dumps_outer (o : Op) (dumps : o.Dumps) : o.Outer := by
  cases o <;> first | exact dumps.elim | trivial

theorem measures_inner (o : Op) (measures : o.Measures) : o.Inner := by
  cases o <;> first | exact measures.elim | exact Or.inl trivial

theorem updates_inner (o : Op) (updates : o.Updates) : o.Inner := by
  cases o <;> first | exact updates.elim | exact Or.inr trivial

theorem outer_stays (o : Op) (outer : o.Outer) :
    targetPidMutex.stages.allowed o .before ∧
      ∀ a, targetPidMutex.stages.next o a .before = .before := by
  refine ⟨Or.inr outer, fun a => if_neg ?_⟩
  cases o <;> first | exact outer.elim | exact Bool.false_ne_true

theorem inner_stays (o : Op) (inner : o.Inner) :
    targetPidMutex.stages.allowed o .held ∧ ∀ a, targetPidMutex.stages.next o a .held = .held := by
  refine ⟨Or.inr inner, fun a => if_neg ?_⟩
  cases o <;> first | exact inner.elim False.elim False.elim | exact Bool.false_ne_true

theorem setTarget_stages (pid : Int) (count : Nat) :
    (do
        mutexLock
        setTargetPid pid
        mutexUnlock
        return count : Code Int).Follows targetPidMutex.stages Acknowledged .before :=
  ⟨Or.inl rfl, fun _ _ => ⟨Or.inr trivial, fun _ _ => ⟨Or.inl rfl, fun _ _ => Lock.Stage.noConfusion⟩⟩⟩

theorem commandHandler_stages (count : Nat) :
    (commandHandler count).Follows targetPidMutex.stages Acknowledged .before := by
  refine ⟨Or.inr trivial, ?_⟩
  intro copied _
  cases copied with
  | none => exact fun _ => by decide
  | some buf =>
      show (match scanCommand (cstr buf) with
        | some (.startPid pid) => _
        | some .stopPid => _
        | none => _ : Code Int).Follows _ _ Lock.Stage.before
      cases scanCommand (cstr buf) with
      | none => exact fun _ => by decide
      | some command =>
          cases command with
          | startPid pid => exact setTarget_stages pid count
          | stopPid =>
              refine ⟨Or.inr trivial, ?_⟩
              intro pid _
              show (writeKinfoToFile pid >>= _).Follows _ _ Lock.Stage.before
              rw [Prog.follows_bind]
              apply ((writeKinfoToFile_dumps pid).mono dumps_outer).follows outer_stays
              exact fun _ => setTarget_stages (-1) count

theorem preHandler_stages (regs : PtRegs) :
    (preHandler regs).Follows targetPidMutex.stages Acknowledged .before := by
  refine ⟨Or.inr trivial, fun pid _ => ⟨Or.inl rfl, fun _ _ => ⟨Or.inr trivial, ?_⟩⟩⟩
  intro target _
  show (if (pid : Int) = target then _ else _ : Code Int).Follows _ _ Lock.Stage.held
  split
  · show (createEvents pid eventCodes [] >>= _).Follows _ _ _
    rw [Prog.follows_bind]
    apply ((createEvents_measures pid eventCodes []).mono measures_inner).follows inner_stays
    intro made
    cases made with
    | error err => exact Lock.Stage.noConfusion
    | ok events =>
        show (readEvents events [] >>= _).Follows _ _ _
        rw [Prog.follows_bind]
        apply ((readEvents_measures events []).mono measures_inner).follows inner_stays
        intro values
        show (updateCounters _ _ >>= _).Follows _ _ _
        rw [Prog.follows_bind]
        apply ((updateCounters_updates _ _).mono updates_inner).follows inner_stays
        exact fun _ => ⟨Or.inl rfl, fun _ _ => Lock.Stage.noConfusion⟩
  · exact ⟨Or.inl rfl, fun _ _ => Lock.Stage.noConfusion⟩

/-- The list stays a chain, and the recorder moves as for the invocation. -/
def Invocation.Performs (i : Invocation) (s s' : State) : Prop :=
  Linked s → Linked s' ∧ s'.recorder = s.recorder.next i

section Sections

variable {t : Tid} {e : Env}

/-- The section of a switch, up to the call that gives the mutex back. -/
theorem preHandler_does (regs : PtRegs) :
    targetPidMutex.Does (kernel t e) (Invocation.hit e regs).Performs
      (do
        if (e.currentPid : Int) = (← getTargetPid) then
          match ← createEvents e.currentPid eventCodes [] with
          | .error err => return err
          | .ok events =>
              let counterValues ← readEvents events []
              updateCounters (regsReturnValue regs) (counterArray counterValues)
              mutexUnlock
              return 0
        else
          mutexUnlock
          return 0 : Code Int) := by
  intro s o k s' done guarded
  have linked : Linked s := linked_congr guarded rfl rfl rfl
  have measures : ∀ o : Op, o.Measures → o.unlocks = false := by
    intro o measures
    cases o <;> first | exact measures.elim | rfl
  have updates : ∀ o : Op, o.Updates → o.unlocks = false := by
    intro o updates
    cases o <;> first | exact updates.elim | rfl
  change ((if (e.currentPid : Int) = s.targetPid then _ else _ : Code Int).upTo Op.unlocks).exec
    (kernel t e) s = _ at done
  by_cases target : (e.currentPid : Int) = s.targetPid
  · rw [if_pos target] at done
    change ((createEvents e.currentPid eventCodes [] >>= _).upTo Op.unlocks).exec _ s = _ at done
    rw [Prog.upTo_bind ((createEvents_measures _ _ _).mono measures), Prog.exec_bind] at done
    by_cases granted : e.Grants
    · obtain ⟨evs, created, released, nextEvent, made, read⟩ :=
        sampleEvents_exec (t := t) (s := s) granted
      rw [made] at done
      change ((readEvents evs [] >>= _).upTo Op.unlocks).exec _ _ = _ at done
      rw [Prog.upTo_bind ((readEvents_measures _ _).mono measures), Prog.exec_bind, read] at done
      rw [Outcome.bind_done, counterArray_codes] at done
      change ((updateCounters (sampleOf e regs).1 (sampleOf e regs).2 >>= _).upTo
        Op.unlocks).exec _ _ = _ at done
      rw [Prog.upTo_bind ((updateCounters_updates _ _).mono updates), Prog.exec_bind] at done
      have sampled : Linked (s.withEvents created released nextEvent) :=
        linked_congr linked rfl rfl rfl
      by_cases memory : e.kmallocFails = false ∨ (sampleOf e regs).1 ∈ Tally.keys s.rows
      · obtain ⟨heap, nextPtr, list, updated, linked', rows⟩ :=
          updateCounters_exec (t := t) sampled memory (sampleOf e regs).2
        rw [updated] at done
        cases done
        refine ⟨linked_congr linked' rfl rfl rfl, ?_⟩
        refine Eq.trans ?_ (if_pos ⟨target, granted⟩).symm
        exact congrArg (Recorder.mk s.targetPid) rows
      · obtain ⟨fails, absent⟩ := not_or.mp memory
        rw [Bool.not_eq_false] at fails
        rw [updateCounters_starved sampled fails absent] at done
        cases done
    · obtain ⟨err, created, nextEvent, failed, made⟩ :=
        createEvents_refused (t := t) (s := s) granted []
      rw [made] at done
      cases done
  · rw [if_neg target] at done
    cases done
    exact ⟨guarded, (if_neg fun both => target both.1).symm⟩

theorem setTarget_does {pid : Int} {count : Nat} {i : Invocation}
    (sets : ∀ r, Recorder.next r i = { r with target := pid }) :
    targetPidMutex.Does (kernel t e) i.Performs
      (do
        setTargetPid pid
        mutexUnlock
        return count : Code Int) := by
  intro s o k s' done linked
  cases done
  refine ⟨linked_congr linked rfl rfl rfl, ?_⟩
  rw [sets]
  rfl

theorem preHandler_after (regs : PtRegs) :
    (preHandler regs).After (kernel t e) Op.locks
      (targetPidMutex.Does (kernel t e) (Invocation.hit e regs).Performs) := by
  refine Prog.after_pass rfl fun s pid s' answered => ?_
  cases answered
  exact Prog.after_start rfl fun _ => preHandler_does regs

theorem setTarget_after {pid : Int} {count : Nat} {i : Invocation}
    (sets : ∀ r, Recorder.next r i = { r with target := pid }) :
    (do
        mutexLock
        setTargetPid pid
        mutexUnlock
        return count : Code Int).After (kernel t e) Op.locks
      (targetPidMutex.Does (kernel t e) i.Performs) :=
  Prog.after_start rfl fun _ => setTarget_does sets

theorem commandHandler_after :
    (commandHandler e.userBuf.length).After (kernel t e) Op.locks
      (targetPidMutex.Does (kernel t e) (Invocation.write e).Performs) := by
  refine Prog.after_pass rfl fun s copied s' answered => ?_
  cases answered
  by_cases fails : e.copyFails = true
  · rw [if_pos fails]
    trivial
  · rw [if_neg fails]
    have command : e.command = scanCommand (cstr (e.userBuf.take (min e.userBuf.length 255))) :=
      if_neg fails
    show (match scanCommand (cstr (e.userBuf.take (min e.userBuf.length 255))) with
      | some (.startPid pid) => _
      | some .stopPid => _
      | none => _ : Code Int).After _ _ _
    rw [← command]
    cases wanted : e.command with
    | none => trivial
    | some command =>
        cases command with
        | startPid pid =>
            refine setTarget_after fun r => ?_
            simp only [Recorder.next, wanted]
        | stopPid =>
            refine Prog.after_pass rfl fun s pid s' _ => ?_
            show (writeKinfoToFile pid >>= _).After _ _ _
            refine Prog.after_bind ((writeKinfoToFile_dumps pid).mono ?_) fun _ =>
              setTarget_after fun r => ?_
            · intro o dumps
              cases o <;> first | exact dumps.elim | rfl
            · simp only [Recorder.next, wanted]

end Sections

/-! ## Runs -/

/-- The list stays a chain, and the recorder takes the turn of thread `t`. -/
def Turns (all : List Invocation) (t : Tid) (s s' : State) : Prop :=
  Linked s → Linked s' ∧ s'.recorder = s.recorder.turn all t

theorem turns_of_performs {all : List Invocation} {t : Tid} {i : Invocation} (is : all[t]? = some i) :
    Turns all t = i.Performs := by
  funext s s'
  simp only [Turns, Invocation.Performs, Recorder.turn, is]

theorem starts_handlers {all : List Invocation} {n : Nat} {events : List Event}
    (rest : all.drop n = invocations events) :
    targetPidMutex.Starts kernel (Turns all) Acknowledged n (events.map Event.action) := by
  induction events generalizing n with
  | nil => trivial
  | cons event events ih =>
      cases event with
      | step t => exact ih rest
      | start i =>
          have is : all[n]? = some i := by
            rw [← Nat.add_zero n, ← List.getElem?_drop, rest]
            rfl
          refine ⟨?_, ih ?_⟩
          · rw [turns_of_performs is]
            cases i with
            | write env => exact ⟨commandHandler_stages _, commandHandler_after⟩
            | hit env regs => exact ⟨preHandler_stages regs, preHandler_after regs⟩
          · rw [← List.tail_drop, rest]
            rfl

theorem replay_turns {all : List Invocation} {order : List Tid} {s s' : State}
    (replay : Replay (Turns all) s order s') (linked : Linked s) :
    Linked s' ∧ s'.recorder = order.foldl (Recorder.turn all) s.recorder := by
  induction replay with
  | none => exact ⟨linked, rfl⟩
  | «then» before does ih =>
      obtain ⟨linked', turned⟩ := does ih.1
      refine ⟨linked', ?_⟩
      rw [turned, ih.2, List.foldl_append]
      rfl

/-- The threads that have given the mutex back, in that order. -/
def sectionOrder (events : List Event) : List Tid :=
  Pool.order kernel undisturbed Op.unlocks loaded (events.map Event.action)

theorem poolAfter_linear (events : List Event) :
    targetPidMutex.Linear kernel (Turns (invocations events)) Acknowledged State.initial
      (sectionOrder events) (poolAfter events) := by
  have empty : targetPidMutex.Linear kernel (Turns (invocations events)) Acknowledged State.initial
      [] loaded := by
    refine ⟨nofun, nofun, fun _ _ => rfl, List.nodup_nil, nofun, ?_⟩
    exact ⟨State.initial, .none, fun _ => rfl, nofun⟩
  exact Lock.run_linear targetPidMutex_kept (fun w => nomatch w) (starts_handlers rfl) empty

/-! ## Main result -/

/-- Each invocation has at most one turn, one that returned no error has had it, and turns
stay where they are. -/
structure Linearized (events : List Event) : Prop where
  distinct : (sectionOrder events).Nodup
  started : ∀ t ∈ sectionOrder events, t < (poolAfter events).threads.length
  ordered : ∀ before, before <+: events → sectionOrder before <+: sectionOrder events
  acknowledged : ∀ t e ret, (poolAfter events).threads[t]? = some ⟨e, .ret ret⟩ → 0 ≤ ret →
    (poolAfter events).shared.mutex ≠ some t → t ∈ sectionOrder events
  recorder : (poolAfter events).shared.mutex = none → (poolAfter events).shared.recorder =
    (sectionOrder events).foldl (Recorder.turn (invocations events)) .fresh

/-- **The handlers are linearizable**: whenever the mutex is free, the module has the target
and the rows of the recorder after one invocation after the other. -/
theorem handlers_linearize (events : List Event) : Linearized events := by
  have linear := poolAfter_linear events
  refine ⟨linear.distinct, ?_, ?_, ?_, ?_⟩
  · intro t passed
    by_contra beyond
    have before := linear.unused t (Nat.le_of_not_lt beyond)
    rw [Lock.stageOf, if_pos passed] at before
    split at before <;> cases before
  · intro before first
    exact Pool.order_prefix loaded (first.map Event.action)
  · intro t e ret found fine apart
    have acknowledged : Acknowledged _ ret := linear.follows t e _ found
    by_contra missed
    have negative := acknowledged ((if_neg apart).trans (if_neg missed))
    exact absurd fine (Int.not_le.mpr negative)
  · intro free
    obtain ⟨s, replay, same, -⟩ := linear.replay
    have guarded : (poolAfter events).shared.guarded = s := same free
    have turned := (replay_turns replay (linked_of_empty rfl)).2
    rw [← guarded] at turned
    exact turned

end Dreamscape.Monitor
