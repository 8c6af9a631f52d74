/-
# Monitor.Session -- what the handlers do, one invocation at a time

An abstract monitor is a target, a table of rows and the files it has written.
`exec_refines` says that each invocation of a handler, run alone with nothing
failing, returns and moves the real state as the abstract monitor moves:
`start_pid` sets the target, `stop_pid` writes the whole table to the target's file
and clears the target, and a switch to the target records one sample.
-/
import Dreamscape.Monitor.Dump

namespace Dreamscape.Monitor

set_option autoImplicit false

open Theory Kernel

/-! ## Invocations -/

/-- One call of a handler: a write to the command file, or a context switch. -/
inductive Invocation where
  | write (env : Env)
  | hit (env : Env) (regs : PtRegs)

def Invocation.env : Invocation → Env
  | .write env => env
  | .hit env _ => env

def Invocation.code : Invocation → Code Int
  | .write env => commandHandler env.userBuf.length
  | .hit _ regs => preHandler regs

/-- The invocation with no other handler under way. -/
def Invocation.exec (i : Invocation) (s : State) : Answer Int := i.code.exec (kernel 0 i.env) s

/-- The state after a run of invocations, one after another. -/
def stateAfter (run : List Invocation) : State :=
  run.foldl (fun s i => (i.exec s).state) State.initial

/-- The command the user's buffer holds, if the handler accepts it. -/
def Env.command (e : Env) : Option Command :=
  if e.copyFails then none else scanCommand (cstr (e.userBuf.take (min e.userBuf.length 255)))

def Invocation.command : Invocation → Option Command
  | .write env => env.command
  | .hit _ _ => none

/-- What is read from the event `pre_handler` creates for a code. -/
def sampledValue (e : Env) (code : BitVec 32) : U64 :=
  e.value (configurePerfEvent code) e.currentPid none

/-- The sample a switch takes. -/
def sampleOf (e : Env) (regs : PtRegs) : U64 × Counters :=
  (regsReturnValue regs, fun i => sampledValue e (eventCodes.get i))

/-- A write of `text` in which nothing fails. -/
def Env.echo (text : List Char) : Env := { Env.quiet with userBuf := text }

/-- A context switch to `pid` in which nothing fails and every event reads `value`. -/
def Env.switchTo (pid : Nat) (value : U64) : Env :=
  { Env.quiet with currentPid := pid, value := fun _ _ _ => value }

theorem Env.echo_succeeds (text : List Char) : (Env.echo text).Succeeds :=
  ⟨fun _ _ _ => rfl, rfl, rfl, fun _ => rfl⟩

theorem Env.switchTo_succeeds (pid : Nat) (value : U64) :
    (Env.switchTo pid value).Succeeds :=
  ⟨fun _ _ _ => rfl, rfl, rfl, fun _ => rfl⟩

/-! ## The abstract monitor -/

structure View where
  target : Int
  rows : List (U64 × Counters)
  files : List Char → Option (List Char)

def State.view (s : State) : View := ⟨s.targetPid, s.rows, s.files⟩

def View.next (v : View) : Invocation → View
  | .write env =>
      match env.command with
      | some (.startPid pid) => { v with target := pid }
      | some .stopPid =>
          { v with
            target := -1
            files := Function.update v.files (dumpName v.target) (some (dumpText v.rows)) }
      | none => v
  | .hit env regs =>
      if (env.currentPid : Int) = v.target then
        { v with rows := Tally.record v.rows (sampleOf env regs) }
      else v

/-- No handler holds the mutex and the list is a chain. -/
structure Ready (s : State) : Prop where
  free : s.mutex = none
  linked : Linked s

theorem linked_congr {s s' : State} (linked : Linked s) (heap : s'.heap = s.heap)
    (list : s'.counterList = s.counterList) (next : s'.nextPtr = s.nextPtr) : Linked s' := by
  constructor
  · rw [list]
    exact linked.nodup
  · rw [list, heap]
    exact linked.allocated
  · rw [list, next]
    exact linked.bound

theorem ready_initial : Ready State.initial := ⟨rfl, linked_of_empty rfl⟩

/-! ## Commands -/

section Commands

variable {t : Tid} {e : Env} {s : State}

theorem commandHandler_copy (e : Env) (s : State) :
    (commandHandler e.userBuf.length).exec (kernel t e) s =
      (if e.copyFails then .ret Errno.EFAULT.code else
        match scanCommand (cstr (e.userBuf.take (min e.userBuf.length 255))) with
        | some (.startPid pid) => do
            mutexLock
            setTargetPid pid
            mutexUnlock
            return e.userBuf.length
        | some .stopPid => do
            writeKinfoToFile (← getTargetPid)
            mutexLock
            setTargetPid (-1)
            mutexUnlock
            return e.userBuf.length
        | none => .ret Errno.EINVAL.code : Code Int).exec (kernel t e) s := by
  by_cases fails : e.copyFails
  · simp [commandHandler, kernel, fails]
  · cases scanned : scanCommand (cstr (e.userBuf.take (min e.userBuf.length 255))) with
    | none => simp [commandHandler, kernel, fails, scanned]
    | some command => cases command <;> simp [commandHandler, kernel, fails, scanned]

/-- A critical section that sets the target, entered with the mutex free. -/
theorem setTarget_exec (free : s.mutex = none) (pid : Int) (count : Nat) :
    (do
        mutexLock
        setTargetPid pid
        mutexUnlock
        return count : Code Int).exec (kernel t e) s = .done count { s with targetPid := pid } := by
  have same : s = { s with mutex := none } := by rw [← free]
  rw [same]
  simp [kernel]

theorem command_refines (succeeds : e.Succeeds) (ready : Ready s) :
    ∃ a s', (commandHandler e.userBuf.length).exec (kernel t e) s = .done a s' ∧ Ready s' ∧
      s'.view = s.view.next (.write e) := by
  rw [commandHandler_copy]
  by_cases fails : e.copyFails = true
  · refine ⟨_, s, by rw [if_pos fails]; rfl, ready, ?_⟩
    simp [View.next, Env.command, fails]
  · rw [if_neg fails]
    cases scanned : scanCommand (cstr (e.userBuf.take (min e.userBuf.length 255))) with
    | none =>
        refine ⟨_, s, rfl, ready, ?_⟩
        simp [View.next, Env.command, fails, scanned]
    | some command =>
        cases command with
        | startPid pid =>
            refine ⟨_, _, setTarget_exec ready.free pid _, ⟨ready.free, ?_⟩, ?_⟩
            · exact linked_congr ready.linked rfl rfl rfl
            · simp only [View.next, Env.command, fails, scanned]
              rfl
        | stopPid =>
            have dumped := writeKinfoToFile_exec (t := t) succeeds.stores ready.linked s.targetPid
            have reset := setTarget_exec (t := t) (e := e) (s := s.dumped s.targetPid)
              ready.free (-1) e.userBuf.length
            refine ⟨(e.userBuf.length : Int), { s.dumped s.targetPid with targetPid := -1 }, ?_, ⟨ready.free, ?_⟩, ?_⟩
            · simp only [getTargetPid, call, Prog.call_bind, Prog.ret_bind, Prog.exec_call,
                Prog.exec_bind, kernel, Outcome.bind_done, dumped] at reset ⊢
              exact reset
            · exact linked_congr ready.linked rfl rfl rfl
            · simp only [View.next, Env.command, fails, scanned]
              rfl

end Commands

/-! ## Samples -/

/-- Replace the history of event creations and releases. -/
def State.withEvents (s : State) (created released : Tid → List PerfEvent) (nextEvent : Nat) :
    State :=
  { s with created := created, released := released, nextEvent := nextEvent }

/-- Thread `t` holds the mutex. -/
def State.locked (s : State) (t : Tid) : State := { s with mutex := some t }

section Samples

variable {t : Tid} {e : Env} {s : State}

/-- What is read from an event. -/
def Env.read (e : Env) (ev : PerfEvent) : U64 := e.value ev.attr ev.cpu ev.task

theorem createEvents_exec {pid : Nat} (codes : List (BitVec 32))
    (granted : ∀ code ∈ codes, e.create (configurePerfEvent code) pid none = none)
    (before : List PerfEvent) :
    ∃ evs created nextEvent, (createEvents pid codes before).exec (kernel t e) s =
        .done (.ok (before ++ evs)) (s.withEvents created s.released nextEvent) ∧
      evs.map e.read = codes.map fun code => e.value (configurePerfEvent code) pid none := by
  induction codes generalizing s before with
  | nil =>
      refine ⟨[], s.created, s.nextEvent, ?_, rfl⟩
      rw [createEvents, List.append_nil]
      rfl
  | cons code codes ih =>
      let ev : PerfEvent := ⟨s.nextEvent, configurePerfEvent code, pid, none⟩
      let made := s.withEvents (Function.update s.created t (s.created t ++ [ev])) s.released
        (s.nextEvent + 1)
      have first := granted code List.mem_cons_self
      obtain ⟨evs, created, nextEvent, onward, values⟩ := ih (s := made)
        (fun other later => granted other (List.mem_cons_of_mem code later)) (before ++ [ev])
      refine ⟨ev :: evs, created, nextEvent, ?_, by simp [ev, Env.read, ← values]⟩
      rw [List.append_assoc, List.singleton_append] at onward
      simp only [createEvents, perfEventCreateKernelCounter, call, Prog.call_bind, Prog.ret_bind,
        Prog.exec_call, kernel, first, Outcome.bind_done]
      exact onward

theorem readEvents_exec (evs : List PerfEvent) (values : List U64) :
    ∃ released, (readEvents evs values).exec (kernel t e) s =
      .done (values ++ evs.map e.read)
        (s.withEvents s.created released s.nextEvent) := by
  induction evs generalizing s values with
  | nil =>
      refine ⟨s.released, ?_⟩
      rw [readEvents, List.map_nil, List.append_nil]
      rfl
  | cons ev evs ih =>
      let freed := s.withEvents s.created
        (Function.update s.released t (s.released t ++ [ev])) s.nextEvent
      obtain ⟨released, onward⟩ := ih (s := freed) (values ++ [e.read ev])
      refine ⟨released, ?_⟩
      rw [List.append_assoc, List.singleton_append] at onward
      simp only [readEvents, readPerfCounter, perfEventReadValue, perfEventReleaseKernel, call,
        Prog.call_bind, Prog.ret_bind, Prog.exec_call, kernel, Outcome.bind_done]
      exact onward

theorem counterArray_codes (f : BitVec 32 → U64) :
    counterArray (eventCodes.map f) = fun i => f (eventCodes.get i) := by
  funext i
  have inside : i.val < eventCodes.length := i.isLt
  rw [counterArray, List.getD_eq_getElem?_getD, List.getElem?_map,
    List.getElem?_eq_getElem inside]
  rfl

/-- The kernel gives the probe its events. -/
def Env.Grants (e : Env) : Prop :=
  ∀ code ∈ eventCodes, e.create (configurePerfEvent code) e.currentPid none = none

instance (e : Env) : Decidable e.Grants := List.decidableBAll _ eventCodes

/-- The two loops of `pre_handler`, under the mutex, when every creation succeeds. -/
theorem sampleEvents_exec {pid : Nat}
    (granted : ∀ code ∈ eventCodes, e.create (configurePerfEvent code) pid none = none) :
    ∃ evs created released nextEvent,
      (createEvents pid eventCodes []).exec (kernel t e) s =
        .done (.ok evs) (s.withEvents created s.released nextEvent) ∧
      (readEvents evs []).exec (kernel t e) (s.withEvents created s.released nextEvent) =
        .done (eventCodes.map fun code => e.value (configurePerfEvent code) pid none)
          (s.withEvents created released nextEvent) := by
  obtain ⟨evs, created, nextEvent, made, values⟩ :=
    createEvents_exec (t := t) (s := s) eventCodes granted []
  obtain ⟨released, read⟩ := readEvents_exec (t := t) (e := e)
    (s := s.withEvents created s.released nextEvent) evs []
  refine ⟨evs, created, released, nextEvent, made, ?_⟩
  rw [read, values, List.nil_append]
  rfl

theorem preHandler_miss (free : s.mutex = none) (miss : ¬(e.currentPid : Int) = s.targetPid)
    (regs : PtRegs) : (preHandler regs).exec (kernel t e) s = .done 0 s := by
  have same : s = { s with mutex := none } := by rw [← free]
  rw [same]
  simp [preHandler, kernel, miss]

theorem preHandler_begin (free : s.mutex = none) (target : (e.currentPid : Int) = s.targetPid)
    (regs : PtRegs) :
    (preHandler regs).exec (kernel t e) s =
      (do
        match ← createEvents e.currentPid eventCodes [] with
        | .error err => return err
        | .ok events =>
            let counterValues ← readEvents events []
            updateCounters (regsReturnValue regs) (counterArray counterValues)
            mutexUnlock
            return 0 : Code Int).exec (kernel t e) (s.locked t) := by
  have locks : kernel t e .mutexLock s = .done () (s.locked t) := by
    simp [kernel, free, State.locked]
  show (kernel t e .mutexLock s).bind _ = _
  rw [locks]
  show (if (e.currentPid : Int) = s.targetPid then _ else _ : Code Int).exec (kernel t e)
    (s.locked t) = _
  exact congrArg (fun p : Code Int => p.exec (kernel t e) (s.locked t)) (if_pos target)

/-- A switch to the target that is given its events comes to `update_counters`, under the
mutex, with its sample. -/
theorem preHandler_update (regs : PtRegs) (granted : e.Grants) (free : s.mutex = none)
    (target : (e.currentPid : Int) = s.targetPid) :
    ∃ created released nextEvent,
      (preHandler regs).exec (kernel t e) s =
        ((updateCounters (sampleOf e regs).1 (sampleOf e regs).2).exec (kernel t e)
          ((s.locked t).withEvents created released nextEvent)).bind fun _ s' =>
            (do mutexUnlock; return 0 : Code Int).exec (kernel t e) s' := by
  obtain ⟨evs, created, released, nextEvent, made, read⟩ :=
    sampleEvents_exec (t := t) (s := s.locked t) granted
  refine ⟨created, released, nextEvent, ?_⟩
  rw [preHandler_begin free target, Prog.exec_bind, made]
  simp only [Outcome.bind_done, Prog.exec_bind]
  rw [read]
  simp only [Outcome.bind_done, counterArray_codes]
  rfl

/-- A switch to the target, with its events and memory to be had, records its sample. -/
theorem hit_exec (regs : PtRegs) (granted : e.Grants)
    (memory : e.kmallocFails = false ∨ (sampleOf e regs).1 ∈ Tally.keys s.rows) (ready : Ready s)
    (target : (e.currentPid : Int) = s.targetPid) :
    ∃ s', (preHandler regs).exec (kernel t e) s = .done 0 s' ∧ Ready s' ∧
      s'.view = { s.view with rows := Tally.record s.rows (sampleOf e regs) } := by
  obtain ⟨created, released, nextEvent, begun⟩ :=
    preHandler_update (t := t) regs granted ready.free target
  let sampled := (s.locked t).withEvents created released nextEvent
  obtain ⟨heap, nextPtr, list, updated, linked, rows⟩ := updateCounters_exec (t := t)
    (s := sampled) (linked_congr ready.linked rfl rfl rfl) memory (sampleOf e regs).2
  refine ⟨{ sampled.withList heap nextPtr list with mutex := none }, ?_, ⟨rfl, ?_⟩, ?_⟩
  · rw [begun, updated]
    simp [kernel, State.withList, sampled, State.withEvents, State.locked]
  · exact linked_congr linked rfl rfl rfl
  · simp only [State.view, View.mk.injEq]
    exact ⟨rfl, rows, rfl⟩

theorem hit_refines (succeeds : e.Succeeds) (ready : Ready s) (regs : PtRegs) :
    ∃ a s', (preHandler regs).exec (kernel t e) s = .done a s' ∧ Ready s' ∧
      s'.view = s.view.next (.hit e regs) := by
  by_cases target : (e.currentPid : Int) = s.targetPid
  · obtain ⟨s', returns, ready', moved⟩ := hit_exec (t := t) regs
      (fun code _ => succeeds.events _ _ _) (Or.inl succeeds.memory) ready target
    refine ⟨0, s', returns, ready', moved.trans ?_⟩
    have hit : (e.currentPid : Int) = s.view.target := target
    exact (if_pos hit).symm
  · refine ⟨0, s, preHandler_miss ready.free target regs, ready, ?_⟩
    have miss : ¬(e.currentPid : Int) = s.view.target := target
    simp only [View.next, if_neg miss]

end Samples

/-! ## Runs -/

/-- **Refinement**: one invocation in which nothing fails returns, and moves the
monitor as the abstract monitor moves. -/
theorem exec_refines {i : Invocation} {s : State} (succeeds : i.env.Succeeds) (ready : Ready s) :
    ∃ a s', i.exec s = .done a s' ∧ Ready s' ∧ s'.view = s.view.next i := by
  cases i with
  | write e => exact command_refines succeeds ready
  | hit e regs => exact hit_refines succeeds ready regs

/-- The run of the abstract monitor. -/
def viewAfter (run : List Invocation) : View := run.foldl View.next State.initial.view

theorem stateAfter_refines {run : List Invocation} (succeeds : ∀ i ∈ run, i.env.Succeeds) :
    Ready (stateAfter run) ∧ (stateAfter run).view = viewAfter run := by
  induction run using List.reverseRecOn with
  | nil => exact ⟨ready_initial, rfl⟩
  | append_singleton run i ih =>
      obtain ⟨ready, agrees⟩ := ih fun j inside => succeeds j (List.mem_append_left _ inside)
      obtain ⟨a, s', returns, ready', moved⟩ :=
        exec_refines (succeeds i (List.mem_append_right _ List.mem_cons_self)) ready
      have last : stateAfter (run ++ [i]) = s' := by
        simp only [stateAfter, List.foldl_append, List.foldl_cons, List.foldl_nil] at returns ⊢
        rw [returns]
        rfl
      rw [last]
      refine ⟨ready', ?_⟩
      rw [moved, agrees, viewAfter, viewAfter, List.foldl_append]
      rfl

end Dreamscape.Monitor
