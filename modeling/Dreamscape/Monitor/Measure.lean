/-
# Monitor.Measure -- what a session has measured when it stops

The machine around the monitor: context switches, hardware events, and writes to the
command file.  Its perf subsystem answers the handlers: an event without a task needs
a CPU of the machine, and what is read from an event is what it counted while it was
alive.

`pre_handler` asks for events on the CPU numbered like the target process, created
disabled, and reads them without enabling them.  A session therefore gains nothing
(`gained_eq_zero`), and measures the target exactly when there was nothing to measure
(`complete_iff`).
-/
import Dreamscape.Monitor.Session

namespace Dreamscape.Monitor

set_option autoImplicit false

open Theory Kernel

/-! ## The machine -/

/-- A context switch to process `pid`: what happens while the probe's handler runs, and
the part of it during which the event created for a code is alive. -/
structure Switch where
  pid : Nat
  regs : PtRegs
  slab : CounterData
  during : List Occurrence
  alive : BitVec 32 → List Occurrence
  inside : ∀ code, alive code <:+: during

/-- What the handler meets on a machine with `cpus` CPUs and memory to be had. -/
def Switch.env (sw : Switch) (cpus : Nat) : Env where
  userBuf := []
  copyFails := false
  currentPid := sw.pid
  create := fun _ cpu task => if validTarget cpus cpu task then none else some Errno.EINVAL.code
  value := fun attr cpu task =>
    PerfEvent.counted { id := 0, attr := attr, cpu := cpu, task := task } (sw.alive attr.config)
  kmallocFails := false
  slab := sw.slab
  filpOpen := .ok true
  write := fun _ => .complete

inductive Item where
  | occur (occ : Occurrence)
  | switch (sw : Switch)
  | write (env : Env)

/-- An invocation that waits for ever leaves the state where it stopped. -/
def Item.exec (cpus : Nat) (s : State) : Item → State
  | .occur _ => s
  | .switch sw => ((Invocation.hit (sw.env cpus) sw.regs).exec s).state
  | .write env => ((Invocation.write env).exec s).state

def machineAfter (cpus : Nat) (run : List Item) : State :=
  run.foldl (Item.exec cpus) State.initial

theorem machineAfter_append (cpus : Nat) (run more : List Item) :
    machineAfter cpus (run ++ more) = more.foldl (Item.exec cpus) (machineAfter cpus run) :=
  List.foldl_append

/-! ## Sessions -/

/-- A run up to the `stop_pid` of a session: `start_pid` was accepted, and no command was
accepted since. -/
structure Session where
  cpus : Nat
  target : Int
  before : List Item
  opening : Env
  items : List Item
  opens : opening.command = some (.startPid target)
  accepted : ∃ a s, (Invocation.write opening).exec (machineAfter cpus before) = .done a s
  active : ∀ env, .write env ∈ items → env.command = none
  succeeds : ∀ env, .write env ∈ before ++ .write opening :: items → env.Succeeds

def Item.isHit (target : Int) : Item → Bool
  | .switch sw => (sw.pid : Int) == target
  | _ => false

def Item.occurrences : Item → List Occurrence
  | .occur occ => [occ]
  | .switch sw => sw.during
  | .write _ => []

/-- The items after the first hit and before the last one. -/
def betweenHits (target : Int) (items : List Item) : List Item :=
  let started := (items.dropWhile fun item => !item.isHit target).tail
  (started.reverse.dropWhile fun item => !item.isHit target).tail.reverse

/-- The user-mode occurrences of `event_codes[i]` generated by the target between the
first and the last hit. -/
def Session.generated (x : Session) (i : Fin numEvents) : Nat :=
  ((betweenHits x.target x.items).flatMap Item.occurrences).countP fun occ =>
    (occ.pid : Int) = x.target ∧ occ.mode = .user ∧ occ.code = eventCodes.get i

/-- The total of the counters over all entries of `counter_list`. -/
def State.totals (s : State) : Counters := Tally.amount s.rows

def Session.started (x : Session) : State :=
  machineAfter x.cpus (x.before ++ [.write x.opening])

def Session.stopping (x : Session) : State :=
  machineAfter x.cpus (x.before ++ .write x.opening :: x.items)

def Session.gained (x : Session) : Counters := x.stopping.totals - x.started.totals

/-- The session gained what its target generated. -/
def Session.Complete (x : Session) : Prop :=
  ∀ i, x.gained i = BitVec.ofNat 64 (x.generated i)

/-! ## One item -/

section Items

variable {s : State} {cpus : Nat}

/-- An event of the monitor is created disabled, so nothing is ever read from it. -/
theorem sampleOf_switch (sw : Switch) (cpus : Nat) :
    sampleOf (sw.env cpus) sw.regs = (regsReturnValue sw.regs, 0) := rfl

theorem preHandler_waits {t : Tid} {e : Env} {owner : Tid} (held : s.mutex = some owner)
    (regs : PtRegs) : (preHandler regs).exec (kernel t e) s = .blocked s := by
  simp [preHandler, kernel, held]

theorem preHandler_refused {t : Tid} {e : Env} {err : Int}
    (refused : ∀ attr, e.create attr e.currentPid none = some err) (free : s.mutex = none)
    (target : (e.currentPid : Int) = s.targetPid) (regs : PtRegs) :
    (preHandler regs).exec (kernel t e) s =
      .done err { s.locked t with failedCreates := t :: s.failedCreates } := by
  have codes : ∃ code rest, eventCodes = code :: rest := ⟨_, _, rfl⟩
  obtain ⟨code, rest, split⟩ := codes
  rw [preHandler_begin free target, split]
  simp [createEvents, kernel, refused, State.locked]

/-- A switch keeps the list a chain and the totals as they are: it leaves the list alone,
or records a sample of zeros. -/
theorem switch_exec (linked : Linked s) (sw : Switch) :
    Linked ((Item.switch sw).exec cpus s) ∧ ((Item.switch sw).exec cpus s).totals = s.totals := by
  show Linked ((preHandler sw.regs).exec (kernel 0 (sw.env cpus)) s).state ∧
    ((preHandler sw.regs).exec (kernel 0 (sw.env cpus)) s).state.totals = s.totals
  cases owner : s.mutex with
  | some t =>
      rw [preHandler_waits owner]
      exact ⟨linked, rfl⟩
  | none =>
      by_cases target : ((sw.env cpus).currentPid : Int) = s.targetPid
      · by_cases valid : validTarget cpus sw.pid none = true
        · have granted : ∀ attr, (sw.env cpus).create attr (sw.env cpus).currentPid none = none :=
            fun attr => if_pos valid
          obtain ⟨s', returns, ready, view⟩ := hit_exec (t := 0) sw.regs
            (fun code _ => granted _) (Or.inl rfl) ⟨owner, linked⟩ target
          have rows : s'.rows = Tally.record s.rows (sampleOf (sw.env cpus) sw.regs) :=
            congrArg View.rows view
          rw [returns]
          refine ⟨ready.linked, ?_⟩
          rw [Outcome.state_done, State.totals, rows, Tally.amount_record, sampleOf_switch, add_zero]
          rfl
        · have refused : ∀ attr, (sw.env cpus).create attr (sw.env cpus).currentPid none =
              some Errno.EINVAL.code := fun attr => if_neg valid
          rw [preHandler_refused refused owner target]
          exact ⟨linked_congr linked rfl rfl rfl, rfl⟩
      · rw [preHandler_miss owner target]
        exact ⟨linked, rfl⟩

/-- A rejected write changes nothing. -/
theorem rejected_exec {e : Env} (rejected : e.command = none) :
    (Item.write e).exec cpus s = s := by
  show ((commandHandler e.userBuf.length).exec (kernel 0 e) s).state = s
  rw [commandHandler_copy]
  by_cases fails : e.copyFails = true
  · rw [if_pos fails]
    rfl
  · rw [Env.command, if_neg fails] at rejected
    rw [if_neg fails, rejected]
    rfl

/-- No write touches the list. -/
theorem write_linked {e : Env} (succeeds : e.Succeeds) (linked : Linked s) :
    Linked ((Item.write e).exec cpus s) := by
  show Linked ((commandHandler e.userBuf.length).exec (kernel 0 e) s).state
  rw [commandHandler_copy]
  by_cases fails : e.copyFails = true
  · rw [if_pos fails]
    exact linked
  · rw [if_neg fails]
    have set : ∀ (s : State) (pid : Int), Linked s → Linked ((do
        mutexLock
        setTargetPid pid
        mutexUnlock
        return e.userBuf.length : Code Int).exec (kernel 0 e) s).state := by
      intro s pid linked
      cases owner : s.mutex with
      | none =>
          rw [setTarget_exec owner]
          exact linked_congr linked rfl rfl rfl
      | some t =>
          simp only [mutexLock, call, Prog.call_bind, Prog.exec_call, kernel, owner]
          exact linked
    cases scanCommand (cstr (e.userBuf.take (min e.userBuf.length 255))) with
    | none => exact linked
    | some command =>
        cases command with
        | startPid pid => exact set s pid linked
        | stopPid =>
            simp only [getTargetPid, call, Prog.call_bind, Prog.ret_bind, Prog.exec_call, kernel,
              Outcome.bind_done, Prog.exec_bind _ (writeKinfoToFile _),
              writeKinfoToFile_exec succeeds.stores linked s.targetPid]
            exact set (s.dumped s.targetPid) (-1) (linked_congr linked rfl rfl rfl)

end Items

/-! ## Whole sessions -/

theorem machineAfter_linked (cpus : Nat) {run : List Item}
    (succeeds : ∀ env, .write env ∈ run → env.Succeeds) : Linked (machineAfter cpus run) := by
  induction run using List.reverseRecOn with
  | nil => exact ready_initial.linked
  | append_singleton run item ih =>
      have linked := ih fun env inside => succeeds env (List.mem_append_left _ inside)
      rw [machineAfter_append, List.foldl_cons, List.foldl_nil]
      cases item with
      | occur occ => exact linked
      | switch sw => exact (switch_exec linked sw).1
      | write env =>
          exact write_linked (succeeds env (List.mem_append_right _ List.mem_cons_self)) linked

/-- While no command is accepted, the totals stay as they are. -/
theorem totals_active (cpus : Nat) {items : List Item}
    (active : ∀ env, .write env ∈ items → env.command = none) {s : State} (linked : Linked s) :
    (items.foldl (Item.exec cpus) s).totals = s.totals := by
  induction items generalizing s with
  | nil => rfl
  | cons item rest ih =>
      have onward := fun env inside => active env (List.mem_cons_of_mem item inside)
      rw [List.foldl_cons]
      cases item with
      | occur occ => exact ih onward linked
      | switch sw =>
          obtain ⟨linked', same⟩ : Linked ((Item.switch sw).exec cpus s) ∧
              ((Item.switch sw).exec cpus s).totals = s.totals := switch_exec linked sw
          rw [ih onward linked', same]
      | write env =>
          rw [rejected_exec (active env List.mem_cons_self)]
          exact ih onward linked

theorem gained_eq_zero (x : Session) : x.gained = 0 := by
  have linked : Linked x.started := by
    refine machineAfter_linked x.cpus fun env inside => x.succeeds env ?_
    rcases List.mem_append.mp inside with before | opening
    · exact List.mem_append_left _ before
    · rw [List.mem_singleton.mp opening]
      exact List.mem_append_right _ List.mem_cons_self
  have stopping : x.stopping = x.items.foldl (Item.exec x.cpus) x.started := by
    rw [Session.stopping, Session.started, machineAfter_append, machineAfter_append]
    rfl
  rw [Session.gained, stopping, totals_active x.cpus x.active linked, sub_self]

/-- **Measurement is complete exactly when there is nothing to measure**: at `stop_pid`
the counters have gained what the target generated if and only if, for each event, that
number is zero modulo `2 ^ 64`. -/
theorem complete_iff (x : Session) : x.Complete ↔ ∀ i, x.generated i % 2 ^ 64 = 0 := by
  apply forall_congr'
  intro i
  rw [gained_eq_zero, ← BitVec.toNat_inj, BitVec.toNat_ofNat]
  exact eq_comm

/-- A switch to process 2, with `x0 = 16`. -/
def bareSwitch : Item :=
  .switch ⟨2, ⟨fun _ => 16, 0⟩, ⟨0, fun _ => 0⟩, [], fun _ => [], fun _ => List.infix_rfl⟩

/-- Process 2 of a machine with four CPUs refills the instruction cache once between two
switches to it. -/
def oneRefill : Session where
  cpus := 4
  target := 2
  before := []
  opening := .echo "start_pid 2\n".toList
  items := [bareSwitch, .occur ⟨2, 2, 1, .user⟩, bareSwitch]
  opens := by decide
  accepted := ⟨_, _, rfl⟩
  active := by simp [bareSwitch]
  succeeds := by
    intro env inside
    simp only [bareSwitch, List.nil_append, List.mem_cons, Item.write.injEq, reduceCtorEq, or_false,
      List.not_mem_nil] at inside
    rw [inside]
    exact Env.echo_succeeds _

theorem refill_not_measured : ¬∀ x : Session, x.Complete := by
  intro complete
  have gained : oneRefill.gained 0 = 0 := by rw [gained_eq_zero]; rfl
  have generated : oneRefill.generated 0 = 1 := by decide
  have measured := complete oneRefill 0
  rw [gained, generated] at measured
  cases measured

end Dreamscape.Monitor
