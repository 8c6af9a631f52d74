/-
# MonitorV2.Lifetime -- who keeps a task_struct

The module is unloaded by thread 0; beside it run writers and timer interrupts, tasks exit
and are reaped.  A `task_struct` has the references the module took of it, and one of the
kernel's own until the task is reaped.  When the last one goes it is free.

`start_monitoring` looks a task up and takes a reference of it two steps later, and for two
steps more `stop_monitoring` leaves a task in `monitored_task` that it has put.  Everywhere
else whatever the module can still get hold of is kept by a reference.  So no free task is
touched in a run in which tasks are not reaped in the first of these windows, and no other
code enters the second (`spares_free_tasks`).
-/
import Dreamscape.MonitorV2.Quiescence
import Dreamscape.Theory.History

namespace Dreamscape.MonitorV2.Lifetime

set_option autoImplicit false

open Theory Kernel

/-! ## References -/

/-- The tasks that threads have in their hands. -/
abbrev Hands := List (Tid × Task)

/-- Thread `t` now has `task`, and nothing else. -/
def Hands.hold (hands : Hands) (t : Tid) (task : Option Task) : Hands :=
  task.toList.map (t, ·) ++ hands.filter (·.1 ≠ t)

/-- `found` are the tasks that `pid_task` has found and no reference was taken of since,
`hand` those read from `monitored_task` to be used next.  `ending` says that
`stop_monitoring` has read `monitored_task` and not yet cleared it. -/
structure History where
  reaped : List Task
  free : List Task
  found : Hands
  hand : Hands
  ending : Bool

def History.initial : History := ⟨[], [], [], [], false⟩

abbrev Remembered := State × History

/-- The reference count of a task. -/
def count (h : Holdings) (reaped : List Task) (task : Task) : Nat :=
  (if task ∈ reaped then 0 else 1) + h.gets.count task - h.puts.count task

/-- `pid_task` finds only tasks that are not reaped, and `put_task_struct` asks nobody
whose reference it gives up. -/
def counting (reaped : List Task) (t : Tid) (e : Env) : Handler sig Fault State
  | .pidTask pid, s => .done ((e.findTask pid).filter (· ∉ reaped)) s
  | .putTaskStruct (some task), s => .done () (s.holding (s.holdings.put task))
  | o, s => kernel t e o s

def note : Note sig Env State History := fun t _ o a s x =>
  match o, a with
  | .pidTask _, task => { x with found := x.found.hold t task }
  | .monitoredTask, task =>
      { x with
        hand := x.hand.hold t task
        found := if task = none then x.found.hold t none else x.found
        ending := if t = 0 then task.isSome else x.ending }
  | .setMonitoredTask _, _ => { x with ending := if t = 0 then false else x.ending }
  | .getTaskStruct _, _ =>
      { x with hand := x.hand.hold t none, found := x.found.hold t none }
  | .pidAlive _, _ | .taskPc _, _ => { x with hand := x.hand.hold t none }
  | .putTaskStruct (some task), _ =>
      { x with
        hand := x.hand.hold t none
        free := if count (s.holdings.put task) x.reaped task = 0 then task :: x.free else x.free }
  | _, _ => x

def lifeKernel : Tid → Env → Handler sig Fault Remembered := fun t e o c =>
  recorded (counting c.2.reaped) note t e o c

inductive Passing where
  | exit (task : Task)
  | reap (task : Task)

/-- A task that is reaped loses the kernel's reference. -/
def History.reap (x : History) (h : Holdings) (task : Task) : History :=
  { x with
    reaped := task :: x.reaped
    free := if count h (task :: x.reaped) task = 0 then task :: x.free else x.free }

def passing : Passing → Remembered → Remembered
  | .exit task, c => (c.1.bury task, c.2)
  | .reap task, c => (c.1.bury task, c.2.reap c.1.holdings task)

/-! ## Runs -/

inductive Deed where
  | write (e : Env)
  | expire (e : Env)
  | step (t : Tid)
  | exit (task : Task)
  | reap (task : Task)

def Deed.action : Deed → Pool.Action sig Env Passing Unit
  | .write e => .spawn ⟨e, visit .pidEntry Errno.removed (pidWrite e.userBuf.length)⟩
  | .expire e => .spawn ⟨e, timerInterrupt⟩
  | .step t => .step t
  | .exit task => .world (.exit task)
  | .reap task => .world (.reap task)

/-- The module is loaded, and thread 0 will unload it. -/
def loaded : Pool sig Env Remembered Unit := ⟨(.initial, .initial), [⟨.quiet, moduleExit⟩]⟩

/-- The task whose `task_struct` the call reads or counts. -/
def Op.touches : Op → Option Task
  | .getTaskStruct task | .putTaskStruct task | .pidAlive task | .taskPc task => task
  | _ => none

/-- The call does not touch a task whose reference count has reached zero. -/
def SparesFree : Condition sig Env Remembered := fun _ _ o _ c =>
  ∀ task ∈ Op.touches o, task ∉ c.2.free

def Spares (deeds : List Deed) : Prop :=
  Pool.Admitted lifeKernel passing SparesFree loaded (deeds.map Deed.action)

/-- `stop_monitoring` reads `monitored_task` when no other code has a task in hand, and
until it has cleared it nobody else looks for one. -/
def EndsAlone : Condition sig Env Remembered := fun t _ o _ c =>
  match o with
  | .pidTask _ => c.2.ending = false
  | .monitoredTask => c.2.ending = false ∧ (t = 0 → c.2.found = [] ∧ c.2.hand = [])
  | _ => True

/-- A task is reaped only while the module holds a reference of it, or nobody is about to
take one or to use it. -/
def ReapsApart : Passing → Remembered → Prop
  | .exit _, _ => True
  | .reap task, c =>
      c.1.holdings.puts.count task < c.1.holdings.gets.count task ∨
        ∀ p ∈ c.2.found ++ c.2.hand, p.2 ≠ task

def Careful (deeds : List Deed) : Prop :=
  Pool.Heeded lifeKernel passing EndsAlone ReapsApart loaded (deeds.map Deed.action)

instance (t : Tid) (e : Env) (o : Op) (a : o.Ans) (c : Remembered) :
    Decidable (SparesFree t e o a c) := by
  unfold SparesFree
  infer_instance

instance (t : Tid) (e : Env) (o : Op) (a : o.Ans) (c : Remembered) :
    Decidable (EndsAlone t e o a c) := by
  cases o <;> unfold EndsAlone <;> infer_instance

instance (w : Passing) (c : Remembered) : Decidable (ReapsApart w c) := by
  unfold ReapsApart
  split <;> infer_instance

/-! ## What of the state the references depend on -/

theorem mem_hold {hands : Hands} {t u : Tid} {task : Option Task} {found : Task} :
    (u, found) ∈ hands.hold t task ↔ if u = t then task = some found else (u, found) ∈ hands := by
  unfold Hands.hold
  by_cases same : u = t
  · subst same
    simp [Option.mem_toList]
  · simp [same, Ne.symm same]

theorem mem_released {hands : Hands} {t u : Tid} {found : Task}
    (held : (u, found) ∈ hands.hold t none) : u ≠ t ∧ (u, found) ∈ hands := by
  rw [mem_hold] at held
  split at held
  · cases held
  · exact ⟨by assumption, held⟩

structure Custody where
  monitored : Option Task
  setter : Option Tid
  gets : List Task
  puts : List Task

def custody (h : Holdings) : Custody := ⟨h.monitoredTask, h.taskSetter, h.gets, h.puts⟩

/-- The call has nothing to do with tasks. -/
def Op.Taskless : Op → Prop
  | .pidTask _ | .monitoredTask | .setMonitoredTask _ | .getTaskStruct _ | .putTaskStruct _
  | .pidAlive _ | .taskPc _ => False
  | _ => True

theorem kernel_taskless {t : Tid} {e : Env} {o : Op} (taskless : Op.Taskless o) (s : State) :
    custody (kernel t e o s).state.holdings = custody s.holdings := by
  have stay : custody s.holdings = custody s.holdings := rfl
  cases o with
  | pidTask _ | monitoredTask | setMonitoredTask _ | getTaskStruct _ | putTaskStruct _
  | pidAlive _ | taskPc _ => exact taskless.elim
  | kfree p =>
      simp only [kernel]
      exact onBuffer_state (I := (custody ·.holdings = _)) stay (some p) fun _ _ => rfl
  | loadEvent p i => exact onBuffer_state (I := (custody ·.holdings = _)) stay p fun _ _ => rfl
  | storeEvent p i ev =>
      exact onBuffer_state (I := (custody ·.holdings = _)) stay p fun _ _ => rfl
  | loadPrev p i => exact onBuffer_state (I := (custody ·.holdings = _)) stay p fun _ _ => rfl
  | storePrev p i v => exact onBuffer_state (I := (custody ·.holdings = _)) stay p fun _ _ => rfl
  | perfEventReleaseKernel ev =>
      exact onEvent_state (I := (custody ·.holdings = _)) stay ev fun _ => rfl
  | perfEventReadValue ev =>
      exact onEvent_state (I := (custody ·.holdings = _)) stay ev fun _ => rfl
  | kzalloc | perfEventCreateKernelCounter _ _ _ | hrtimerStart _ | drain _ | spinLock
  | timerExpires | callbackReturns _ | enter _ | leave _ =>
      simp only [kernel]
      split <;> rfl
  | hrtimerCancel =>
      simp only [kernel]
      split
      · split <;> rfl
      · rfl
  | _ => rfl

theorem lifeKernel_done {t : Tid} {e : Env} {o : Op} {a : o.Ans} {c c' : Remembered} :
    lifeKernel t e o c = .done a c' ↔
      counting c.2.reaped t e o c.1 = .done a c'.1 ∧ c'.2 = note t e o a c.1 c.2 := recorded_done

theorem taskless_same {t : Tid} {e : Env} {o : Op} {a : o.Ans} {c c' : Remembered}
    (taskless : Op.Taskless o) (answered : lifeKernel t e o c = .done a c') :
    custody c'.1.holdings = custody c.1.holdings ∧ c'.2 = c.2 := by
  obtain ⟨done, noted⟩ := lifeKernel_done.mp answered
  have alone : counting c.2.reaped t e o c.1 = kernel t e o c.1 := by
    cases o <;> first | rfl | exact taskless.elim
  rw [alone] at done
  refine ⟨?_, ?_⟩
  · have same := kernel_taskless (t := t) (e := e) taskless c.1
    rw [done] at same
    exact same
  · rw [noted]
    cases o <;> first | rfl | exact taskless.elim

/-! ## What threads do with tasks -/

/-- What a thread has of tasks: the one `pid_task` has found, the one it has read from
`monitored_task`, and whether it has assigned what was found. -/
structure Grip where
  unloads : Bool
  found : Option Task
  hand : Option Task
  assigned : Bool

def Grip.empty (unloads : Bool) : Grip := ⟨unloads, none, none, false⟩

def grips : Protocol sig Grip where
  allowed o r :=
    match o with
    | .pidTask _ => r = .empty false
    | .setMonitoredTask task => r.hand = none ∧ task = r.found ∧ (r.unloads = true → task = none)
    | .monitoredTask => r.found = none ∨ r.assigned = true
    | .getTaskStruct task => r.assigned = true ∧ task = r.hand
    | .pidAlive task | .taskPc task => task = r.hand
    | .putTaskStruct task => r.unloads = true ∧ task = r.hand
    | _ => True
  possible _ _ _ := True
  next o a r :=
    match o, a with
    | .pidTask _, task => { r with found := task }
    | .setMonitoredTask _, _ => { r with assigned := !r.unloads }
    | .monitoredTask, task =>
        { r with hand := task, found := if task = none then none else r.found }
    | .getTaskStruct _, _ => { r with hand := none, found := none, assigned := false }
    | .pidAlive _, _ | .taskPc _, _ | .putTaskStruct _, _ => { r with hand := none }
    | _, _ => r

theorem grips_taskless {r : Grip} (o : Op) (taskless : Op.Taskless o) :
    grips.allowed o r ∧ ∀ a, grips.next o a r = r := by
  cases o <;> first | exact taskless.elim | exact ⟨trivial, fun a => rfl⟩

theorem creates_taskless (o : Op) (creates : o.Creates) : Op.Taskless o := by
  cases o <;> first | exact creates.elim | trivial

theorem counts_taskless (o : Op) (counts : o.Counts) : Op.Taskless o := by
  cases o <;> first | exact counts.elim | trivial

theorem clears_taskless (o : Op) (clears : o.Clears) : Op.Taskless o := by
  cases o <;> first | exact clears.elim | trivial

theorem startMonitoring_grips (codes : List (BitVec 32)) (pid : Int) :
    (startMonitoring codes pid).Follows grips (fun _ _ => True) (.empty false) := by
  simp only [startMonitoring, pidTask, setMonitoredTask, getMonitoredTask, call, Prog.call_bind,
    Prog.ret_bind]
  refine ⟨rfl, fun found _ => ⟨⟨rfl, rfl, fun ended => Bool.noConfusion ended⟩, fun _ _ => ⟨Or.inr rfl, ?_⟩⟩⟩
  intro task _
  cases task with
  | none => trivial
  | some task =>
      simp only [getTaskStruct, call, Prog.call_bind, Prog.ret_bind]
      refine ⟨Or.inr rfl, fun again _ => ⟨⟨rfl, rfl⟩, ?_⟩⟩
      intro _ _
      apply Prog.follows_bind.mpr
      apply ((initPerfCounters_creates codes pid).mono creates_taskless).follows grips_taskless
      intro made
      refine ⟨trivial, fun _ _ => ⟨trivial, ?_⟩⟩
      intro p _
      cases p with
      | none => trivial
      | some p =>
          refine ⟨trivial, fun _ _ => ⟨trivial, fun _ _ => ⟨trivial, fun _ _ => ⟨trivial, ?_⟩⟩⟩⟩
          exact fun _ _ => ⟨trivial, fun _ _ => trivial⟩

theorem pidWrite_grips (count : Nat) :
    (pidWrite count).Follows grips (fun _ _ => True) (.empty false) := by
  rw [Modules.pidWrite_monitors]
  refine Modules.storePid_follows count (fun _ => trivial) ⟨trivial, fun _ => rfl⟩ fun pid _ => ?_
  refine ⟨trivial, trivial, fun stored _ => ?_⟩
  exact (startMonitoring_grips eventCodes stored).mono fun _ _ _ _ => trivial

theorem visit_grips {α : Type} {g : Gate} {refused : α} {body : Code α}
    (follows : body.Follows grips (fun _ _ => True) (.empty false)) :
    (visit g refused body).Follows grips (fun _ _ => True) (.empty false) := by
  simp only [visit, throughGate, enter, leave, call, Prog.call_bind, Prog.ret_bind]
  refine ⟨trivial, ?_⟩
  intro entered _
  cases entered with
  | false => trivial
  | true =>
      simp only [reduceIte]
      apply Prog.follows_bind.mpr
      apply Prog.follows_bind.mpr
      exact follows.mono fun _ _ _ => ⟨trivial, fun _ _ => trivial⟩

theorem timerInterrupt_grips :
    timerInterrupt.Follows grips (fun _ _ => True) (.empty false) := by
  simp only [timerInterrupt, timerExpires, call, Prog.call_bind, Prog.ret_bind]
  refine ⟨trivial, ?_⟩
  intro _ _
  apply Prog.follows_bind.mpr
  refine Prog.Follows.mono (Q := fun _ _ => True) (fun _ _ _ => ⟨trivial, fun _ _ => trivial⟩) ?_
  simp only [samplePerfCounters, getMonitoredTask, call, Prog.call_bind, Prog.ret_bind]
  refine ⟨Or.inl rfl, ?_⟩
  intro task _
  cases task with
  | none => trivial
  | some task =>
      simp only [pidAlive, taskPc, call, Prog.call_bind, Prog.ret_bind]
      refine ⟨Or.inl rfl, fun again _ => ⟨rfl, ?_⟩⟩
      intro alive _
      cases alive with
      | false => trivial
      | true =>
          have empty : ∀ task : Option Task, (if task = none then none else none : Option Task) =
            none := fun task => ite_self none
          refine ⟨Or.inl (empty again), fun third _ => ⟨rfl, ?_⟩⟩
          intro pc _
          apply Prog.follows_bind.mpr
          apply ((sampleCounters_counts eventCodes 0).mono counts_taskless).follows grips_taskless
          intro _
          exact ⟨trivial, fun _ _ => ⟨trivial, fun _ _ => trivial⟩⟩

theorem moduleExit_grips : moduleExit.Follows grips (fun _ _ => True) (.empty true) := by
  have closes : ∀ g, (closeGate g).Only Op.Taskless := fun g =>
    ⟨trivial, fun _ => ⟨trivial, fun _ => trivial⟩⟩
  unfold moduleExit
  apply Prog.follows_bind.mpr
  refine Prog.Follows.mono (Q := fun _ _ => True) (fun r _ _ => ?_) ?_
  · refine Prog.Only.follows grips_taskless (fun _ => trivial) ?_
    apply Prog.only_bind (closes .messageEntry)
    intro _
    exact Prog.only_bind (closes .pidEntry) fun _ => closes .probe
  · simp only [stopMonitoring, hrtimerCancel, getPerfData, call, Prog.call_bind, Prog.ret_bind]
    refine ⟨trivial, fun _ _ => ⟨trivial, ?_⟩⟩
    intro perfData _
    apply Prog.follows_bind.mpr
    have clears := (cleanupPerfCounters_clears eventCodes perfData).mono clears_taskless
    apply clears.follows grips_taskless
    intro _
    refine ⟨Or.inl rfl, fun task _ => ⟨⟨rfl, rfl⟩, fun _ _ => ⟨⟨rfl, ?_, fun _ => rfl⟩, ?_⟩⟩⟩
    · exact (ite_self none).symm
    · exact fun _ _ => trivial

/-! ## What holds in a careful run -/

theorem mem_freed {zero : Prop} [Decidable zero] {task found : Task} {free : List Task}
    (member : found ∈ if zero then task :: free else free) :
    found ∈ free ∨ zero ∧ found = task := by
  split at member
  · rename_i zero
    rcases List.mem_cons.mp member with same | before
    · exact Or.inr ⟨zero, same⟩
    · exact Or.inl before
  · exact Or.inl member

/-- The module has taken more references of the task than it has put. -/
def Custody.Keeps (k : Custody) (task : Task) : Prop := k.puts.count task < k.gets.count task

structure Sound (k : Custody) (x : History) : Prop where
  balanced : ∀ task, k.puts.count task ≤ k.gets.count task
  /-- What is in `monitored_task` is kept, unless its `start_monitoring` or
  `stop_monitoring` is still on its way. -/
  monitored : ∀ task, k.monitored = some task →
    k.Keeps task ∨ (∃ u, k.setter = some u ∧ (u, task) ∈ x.found) ∨ x.ending = true
  reaped : ∀ task ∈ x.free, task ∈ x.reaped
  lost : ∀ task ∈ x.free, ∀ u, (u, task) ∉ x.found ∧ (u, task) ∉ x.hand
  cleared : ∀ task ∈ x.free, k.monitored = some task → x.ending = true
  alone : x.ending = true → x.found = [] ∧ ∀ p ∈ x.hand, p.1 = 0
  unload : ∀ task, (0, task) ∈ x.hand → k.Keeps task ∧ x.ending = true

structure Grip.Fits (k : Custody) (x : History) (t : Tid) (r : Grip) : Prop where
  unloads : r.unloads = decide (t = 0)
  found : ∀ task, (t, task) ∈ x.found ↔ r.found = some task
  hand : ∀ task, (t, task) ∈ x.hand ↔ r.hand = some task
  /-- As long as nobody else assigns `monitored_task`, it is what this thread found. -/
  latest : r.assigned = true → k.setter = some t →
    k.monitored = r.found ∧ ∀ task, r.hand = some task → r.found = some task

section Events

variable {k : Custody} {x : History} {t u : Tid} {r : Grip} {task : Task}

namespace Sound

variable (sound : Sound k x)

include sound

/-- `pid_task` finds a task that is not reaped. -/
theorem looked {found : Option Task} (unreaped : ∀ task, found = some task → task ∉ x.reaped)
    (fresh : ∀ task, (t, task) ∉ x.found) (open_ : x.ending = false) :
    Sound k { x with found := x.found.hold t found } :=
  { sound with
    monitored := by
      intro task monitored
      rcases sound.monitored task monitored with keeps | ⟨u, setter, held⟩ | ending
      · exact Or.inl keeps
      · refine Or.inr (Or.inl ⟨u, setter, mem_hold.mpr ?_⟩)
        have other : u ≠ t := by
          rintro rfl
          exact fresh task held
        rw [if_neg other]
        exact held
      · exact Or.inr (Or.inr ending)
    lost := by
      intro task free u
      refine ⟨fun held => ?_, (sound.lost task free u).2⟩
      rw [mem_hold] at held
      split at held
      · exact unreaped task held (sound.reaped task free)
      · exact (sound.lost task free u).1 held
    alone := fun ending => by simp [open_] at ending }

/-- `start_monitoring` assigns what it has found. -/
theorem assigned {found : Option Task} (holds : ∀ task, found = some task → (t, task) ∈ x.found) :
    Sound { k with monitored := found, setter := some t } x :=
  { sound with
    monitored := fun task same => Or.inr (Or.inl ⟨t, rfl, holds task same⟩)
    cleared := fun task free same => absurd (holds task same) (sound.lost task free t).1 }

/-- `stop_monitoring` clears `monitored_task`. -/
theorem ended (idle : ∀ task, (0, task) ∉ x.hand) :
    Sound { k with monitored := none, setter := some 0 } { x with ending := false } :=
  { sound with
    monitored := nofun
    cleared := nofun
    alone := nofun
    unload := fun task held => absurd held (idle task) }

/-- Others than `stop_monitoring` read `monitored_task`. -/
theorem read (other : t ≠ 0) (open_ : x.ending = false) :
    Sound k { x with
      hand := x.hand.hold t k.monitored
      found := if k.monitored = none then x.found.hold t none else x.found } where
  balanced := sound.balanced
  monitored := by
    intro task monitored
    rw [if_neg (by simp [monitored])]
    exact sound.monitored task monitored
  reaped := sound.reaped
  lost := by
    intro task free u
    refine ⟨fun held => (sound.lost task free u).1 ?_, fun held => ?_⟩
    · split at held
      · exact (mem_released held).2
      · exact held
    · rw [mem_hold] at held
      split at held
      · have ending := sound.cleared task free held
        simp [open_] at ending
      · exact (sound.lost task free u).2 held
  cleared := sound.cleared
  alone := fun ending => by simp [open_] at ending
  unload := by
    intro task held
    rw [mem_hold, if_neg (Ne.symm other)] at held
    exact sound.unload task held

/-- `stop_monitoring` reads `monitored_task` when nobody has a task in hand. -/
theorem ends (found : x.found = []) (hand : x.hand = []) (open_ : x.ending = false) :
    Sound k { x with
      hand := x.hand.hold 0 k.monitored
      found := if k.monitored = none then x.found.hold 0 none else x.found
      ending := k.monitored.isSome } where
  balanced := sound.balanced
  monitored := fun task monitored => Or.inr (Or.inr (by simp [monitored]))
  reaped := sound.reaped
  lost := by
    intro task free u
    simp only [found, hand, mem_hold]
    refine ⟨by simp [Hands.hold], fun held => ?_⟩
    split at held
    · have ending := sound.cleared task free held
      simp [open_] at ending
    · cases held
  cleared := fun task _ monitored => by simp [monitored]
  alone := by
    intro _
    simp only [found, hand]
    refine ⟨by simp [Hands.hold], ?_⟩
    rintro ⟨u, task⟩ held
    rw [mem_hold] at held
    split at held
    · assumption
    · cases held
  unload := by
    intro task held
    rw [hand, mem_hold, if_pos rfl] at held
    refine ⟨?_, by simp [held]⟩
    rcases sound.monitored task held with keeps | ⟨u, -, held⟩ | ending
    · exact keeps
    · simp [found] at held
    · simp [open_] at ending

/-- A thread is done with the task in its hand. -/
theorem used : Sound k { x with hand := x.hand.hold t none } where
  balanced := sound.balanced
  monitored := sound.monitored
  reaped := sound.reaped
  lost := by
    intro task free u
    refine ⟨(sound.lost task free u).1, fun held => (sound.lost task free u).2 ?_⟩
    exact (mem_released held).2
  cleared := sound.cleared
  alone := by
    intro ending
    refine ⟨(sound.alone ending).1, ?_⟩
    rintro ⟨u, task⟩ held
    exact (sound.alone ending).2 (u, task) (mem_released held).2
  unload := fun task held => sound.unload task (mem_released held).2

/-- `start_monitoring` takes a reference of what is in `monitored_task`. -/
theorem taken (latest : ∀ found, (t, found) ∈ x.found → k.setter = some t →
      k.monitored = some found → found = task) :
    Sound { k with gets := k.gets ++ [task] }
      { x with hand := x.hand.hold t none, found := x.found.hold t none } where
  balanced := by
    intro task'
    simp only [List.count_append]
    exact Nat.le_add_right_of_le (sound.balanced task')
  monitored := by
    intro task' monitored
    have grows : ∀ {task' : Task}, k.Keeps task' → Custody.Keeps { k with gets := k.gets ++ [task] } task' := by
      intro task' keeps
      simp only [Custody.Keeps, List.count_append]
      exact Nat.lt_add_right _ keeps
    rcases sound.monitored task' monitored with keeps | ⟨u, setter, held⟩ | ending
    · exact Or.inl (grows keeps)
    · by_cases same : u = t
      · subst same
        obtain rfl : task' = task := latest task' held setter monitored
        refine Or.inl ?_
        simp only [Custody.Keeps, List.count_append, List.count_singleton_self]
        exact Nat.lt_succ_of_le (sound.balanced task')
      · refine Or.inr (Or.inl ⟨u, setter, mem_hold.mpr ?_⟩)
        rw [if_neg same]
        exact held
    · exact Or.inr (Or.inr ending)
  reaped := sound.reaped
  lost := by
    intro task' free u
    refine ⟨fun held => (sound.lost task' free u).1 ?_, (sound.used.lost task' free u).2⟩
    exact (mem_released held).2
  cleared := sound.cleared
  alone := by
    intro ending
    refine ⟨?_, (sound.used.alone ending).2⟩
    rw [(sound.alone ending).1]
    rfl
  unload := by
    intro task' held
    obtain ⟨keeps, ending⟩ := sound.used.unload task' held
    refine ⟨?_, ending⟩
    simp only [Custody.Keeps, List.count_append]
    exact Nat.lt_add_right _ keeps

/-- `stop_monitoring` puts the task it has read. -/
theorem put (held : (0, task) ∈ x.hand) {zero : Prop} [Decidable zero]
    (last : zero → task ∈ x.reaped) :
    Sound { k with puts := k.puts ++ [task] }
      { x with
        hand := x.hand.hold 0 none
        free := if zero then task :: x.free else x.free } := by
  obtain ⟨keeps, ending⟩ := sound.unload task held
  obtain ⟨unfound, unload⟩ := sound.alone ending
  have unheld : ∀ u task, (u, task) ∉ x.hand.hold 0 none := by
    intro u task held
    obtain ⟨other, held⟩ := mem_released held
    exact other (unload (u, task) held)
  refine ⟨?_, fun _ _ => Or.inr (Or.inr ending), ?_, ?_, fun _ _ _ => ending, ?_, ?_⟩
  · intro task'
    simp only [List.count_append, List.count_singleton]
    by_cases same : task = task'
    · subst same
      rw [if_pos (beq_self_eq_true task)]
      exact keeps
    · rw [if_neg (by simpa using same)]
      exact sound.balanced task'
  · intro task' free
    rcases mem_freed free with free | ⟨zero, rfl⟩
    · exact sound.reaped task' free
    · exact last zero
  · intro task' _ u
    refine ⟨?_, unheld u task'⟩
    simp only [unfound]
    exact List.not_mem_nil
  · exact fun _ => ⟨unfound, fun p held => absurd held (unheld p.1 p.2)⟩
  · exact fun task' held => absurd held (unheld 0 task')

/-- A task is reaped. -/
theorem reap (apart : k.Keeps task ∨ ∀ p ∈ x.found ++ x.hand, p.2 ≠ task) {zero : Prop}
    [Decidable zero] (last : zero → ¬k.Keeps task) :
    Sound k { x with
      reaped := task :: x.reaped
      free := if zero then task :: x.free else x.free } := by
  have unheld : zero → ∀ u, (u, task) ∉ x.found ∧ (u, task) ∉ x.hand := by
    intro zero u
    have apart := apart.resolve_left (last zero)
    exact ⟨fun held => apart (u, task) (List.mem_append_left _ held) rfl,
      fun held => apart (u, task) (List.mem_append_right _ held) rfl⟩
  refine ⟨sound.balanced, sound.monitored, ?_, ?_, ?_, sound.alone, sound.unload⟩
  · intro task' free
    rcases mem_freed free with free | ⟨-, rfl⟩
    · exact List.mem_cons_of_mem _ (sound.reaped task' free)
    · exact List.mem_cons_self
  · intro task' free u
    rcases mem_freed free with free | ⟨zero, rfl⟩
    · exact sound.lost task' free u
    · exact unheld zero u
  · intro task' free monitored
    rcases mem_freed free with free | ⟨zero, rfl⟩
    · exact sound.cleared task' free monitored
    · rcases sound.monitored task' monitored with keeps | ⟨u, -, held⟩ | ending
      · exact absurd keeps (last zero)
      · exact absurd held (unheld zero u).1
      · exact ending

end Sound

/-- What a thread has is untouched by calls of others that assign nothing. -/
theorem Grip.Fits.still {k' : Custody} {x' : History} (fits : r.Fits k x u)
    (found : ∀ task, (u, task) ∈ x'.found ↔ (u, task) ∈ x.found)
    (hand : ∀ task, (u, task) ∈ x'.hand ↔ (u, task) ∈ x.hand)
    (latest : k'.setter = some u → k.setter = some u ∧ k'.monitored = k.monitored) :
    r.Fits k' x' u where
  unloads := fits.unloads
  found := fun task => (found task).trans (fits.found task)
  hand := fun task => (hand task).trans (fits.hand task)
  latest := by
    intro assigned setter
    obtain ⟨setter, same⟩ := latest setter
    rw [same]
    exact fits.latest assigned setter

/-- A thread lets go of what it has read. -/
theorem Grip.Fits.used {k' : Custody} {x' : History} (fits : r.Fits k x t)
    (monitored : k'.monitored = k.monitored) (setter : k'.setter = k.setter)
    (found : x'.found = x.found) (hand : x'.hand = x.hand.hold t none) :
    Grip.Fits k' x' t { r with hand := none } where
  unloads := fits.unloads
  found := by
    rw [found]
    exact fits.found
  hand := by
    intro task
    simp [hand, mem_hold]
  latest := by
    rw [monitored, setter]
    exact fun assigned setter => ⟨(fits.latest assigned setter).1, nofun⟩

end Events

/-! ## The kernel keeps to it -/

section Steps

variable {t u : Tid} {e : Env} {o : Op} {a : o.Ans} {c c' : Remembered} {r q : Grip}

/-- A thread assigns `monitored_task`: a start what it has found, the unload null. -/
theorem assigned_own {s : State} {x : History} {task : Option Task}
    (sound : Sound (custody s.holdings) x) (fits : r.Fits (custody s.holdings) x t)
    (allowed : grips.allowed (.setMonitoredTask task) r) :
    let x' := note t e (.setMonitoredTask task) () s x
    Sound (custody (s.holdings.watch t task)) x' ∧
      (grips.next (.setMonitoredTask task) () r).Fits (custody (s.holdings.watch t task)) x' t := by
  obtain ⟨idle, rfl, clears⟩ := allowed
  by_cases unload : t = 0
  · subst unload
    have unloads : r.unloads = true := fits.unloads
    have nothing : r.found = none := clears unloads
    have unheld : ∀ task, (0, task) ∉ x.hand := fun task held => by
      simp [(fits.hand task).mp held] at idle
    simp only [note, if_true, nothing]
    refine ⟨sound.ended unheld, fits.unloads, ?_, fits.hand, ?_⟩
    · exact fits.found
    · intro assigned
      simp [grips, unloads] at assigned
  · simp only [note, if_neg unload]
    refine ⟨sound.assigned fun task found => (fits.found task).mpr found, fits.unloads,
      fits.found, fits.hand, ?_⟩
    intro _ _
    refine ⟨rfl, ?_⟩
    intro task held
    simp [grips, idle] at held

/-- A thread reads `monitored_task`; the unload does so alone. -/
theorem read_own {s : State} {x : History} (sound : Sound (custody s.holdings) x)
    (fits : r.Fits (custody s.holdings) x t)
    (alone : x.ending = false ∧ (t = 0 → x.found = [] ∧ x.hand = [])) :
    let x' := note t e .monitoredTask s.holdings.monitoredTask s x
    Sound (custody s.holdings) x' ∧
      (grips.next .monitoredTask s.holdings.monitoredTask r).Fits (custody s.holdings) x' t := by
  refine ⟨?_, fits.unloads, ?_, fun task => by simp [note, grips, mem_hold], ?_⟩
  · by_cases unload : t = 0
    · subst unload
      obtain ⟨found, hand⟩ := alone.2 rfl
      exact sound.ends found hand alone.1
    · simp only [note, if_neg unload]
      exact sound.read unload alone.1
  · intro task
    simp only [note, grips]
    split
    · simp [mem_hold]
    · exact fits.found task
  · intro assigned setter
    have latest : s.holdings.monitoredTask = r.found := (fits.latest assigned setter).1
    simp only [grips, custody, latest]
    cases r.found with
    | none => exact ⟨rfl, nofun⟩
    | some task => exact ⟨rfl, fun _ => id⟩

theorem life_own (sound : Sound (custody c.1.holdings) c.2)
    (fits : r.Fits (custody c.1.holdings) c.2 t) (allowed : grips.allowed o r)
    (admitted : guarded lifeKernel EndsAlone t e o c = .done a c') :
    Sound (custody c'.1.holdings) c'.2 ∧
      (grips.next o a r).Fits (custody c'.1.holdings) c'.2 t := by
  obtain ⟨answered, alone⟩ := guarded_done.mp admitted
  clear admitted
  by_cases taskless : Op.Taskless o
  · obtain ⟨same, unnoted⟩ := taskless_same taskless answered
    rw [same, unnoted, (grips_taskless o taskless).2 a]
    exact ⟨sound, fits⟩
  · obtain ⟨done, noted⟩ := lifeKernel_done.mp answered
    obtain ⟨s, x⟩ := c
    obtain ⟨s', x'⟩ := c'
    simp only at done noted sound fits alone
    clear answered
    subst noted
    cases o with
    | pidTask pid =>
        obtain rfl : r = .empty false := allowed
        cases done
        refine ⟨sound.looked ?_ (fun task held => nomatch (fits.found task).mp held) alone, ?_⟩
        · intro task found
          simpa using (Option.filter_eq_some_iff.mp found).2
        · exact ⟨fits.unloads, fun task => by simp [note, grips, mem_hold], fits.hand, nofun⟩
    | setMonitoredTask task =>
        cases done
        exact assigned_own (e := e) sound fits allowed
    | monitoredTask =>
        cases done
        exact read_own (e := e) sound fits alone
    | getTaskStruct task =>
        cases task with
        | none => cases done
        | some task =>
            obtain ⟨assigned, held⟩ := allowed
            cases done
            refine ⟨sound.taken ?_, fits.unloads, ?_, ?_, nofun⟩
            · intro found held' setter _
              have latest := (fits.latest assigned setter).2 task held.symm
              exact Option.some.inj (((fits.found found).mp held').symm.trans latest)
            · exact fun task => by simp [note, grips, mem_hold]
            · exact fun task => by simp [note, grips, mem_hold]
    | putTaskStruct task =>
        cases task with
        | none => cases done
        | some task =>
            obtain ⟨unloads, held⟩ := allowed
            have unload : t = 0 := of_decide_eq_true (fits.unloads.symm.trans unloads)
            subst unload
            have held : (0, task) ∈ x.hand := (fits.hand task).mpr held.symm
            cases done
            refine ⟨sound.put held ?_, fits.used rfl rfl rfl rfl⟩
            intro zero
            by_contra unreaped
            have keeps : s.holdings.puts.count task < s.holdings.gets.count task :=
              (sound.unload task held).1
            simp only [count, Holdings.put, if_neg unreaped, List.count_append,
              List.count_singleton_self] at zero
            omega
    | pidAlive task | taskPc task =>
        cases task with
        | none => cases done
        | some task =>
            cases done
            exact ⟨sound.used, fits.used rfl rfl rfl rfl⟩
    | _ => exact absurd trivial taskless

theorem life_stable (other : u ≠ t) (admitted : guarded lifeKernel EndsAlone t e o c = .done a c')
    (theirs : q.Fits (custody c.1.holdings) c.2 u) : q.Fits (custody c'.1.holdings) c'.2 u := by
  obtain ⟨answered, -⟩ := guarded_done.mp admitted
  clear admitted
  by_cases taskless : Op.Taskless o
  · obtain ⟨same, unnoted⟩ := taskless_same taskless answered
    rw [same, unnoted]
    exact theirs
  · obtain ⟨done, noted⟩ := lifeKernel_done.mp answered
    obtain ⟨s, x⟩ := c
    obtain ⟨s', x'⟩ := c'
    simp only at done noted theirs
    clear answered
    subst noted
    have apart : ∀ {hands : Hands} {task : Option Task} (found : Task),
        (u, found) ∈ hands.hold t task ↔ (u, found) ∈ hands := by
      intro hands task found
      rw [mem_hold, if_neg other]
    cases o with
    | pidTask pid =>
        cases done
        exact theirs.still apart (fun _ => Iff.rfl) fun setter => ⟨setter, rfl⟩
    | setMonitoredTask task =>
        cases done
        refine theirs.still (fun _ => Iff.rfl) (fun _ => Iff.rfl) ?_
        intro setter
        exact absurd (Option.some.inj setter).symm other
    | monitoredTask =>
        cases done
        refine theirs.still (fun task => ?_) apart fun setter => ⟨setter, rfl⟩
        simp only [note]
        split
        · exact apart task
        · exact Iff.rfl
    | getTaskStruct task =>
        cases task with
        | none => cases done
        | some task =>
            cases done
            exact theirs.still apart apart fun setter => ⟨setter, rfl⟩
    | putTaskStruct task | pidAlive task | taskPc task =>
        cases task with
        | none => cases done
        | some task =>
            cases done
            exact theirs.still (fun _ => Iff.rfl) apart fun setter => ⟨setter, rfl⟩
    | _ => exact absurd trivial taskless

end Steps

/-! ## Careful runs -/

/-- What holds of the state, and what each thread has of tasks. -/
def Sane (c : Pool sig Env Remembered Unit) : Prop :=
  c.Relies grips (fun _ _ => True) (fun c => Sound (custody c.1.holdings) c.2)
    (fun c t r => r.Fits (custody c.1.holdings) c.2 t) (.empty false)

theorem loaded_sane : Sane loaded := by
  have none : ∀ {unloads : Bool} {t : Tid}, unloads = decide (t = 0) →
      Grip.Fits (custody Holdings.initial) .initial t (.empty unloads) :=
    fun unloads => ⟨unloads, fun task => by simp [History.initial, Grip.empty],
      fun task => by simp [History.initial, Grip.empty], nofun⟩
  refine ⟨⟨fun _ => Nat.le_refl 0, nofun, nofun, nofun, nofun, nofun, nofun⟩, ?_, ?_⟩
  · intro t thread found
    cases t with
    | zero =>
        cases found
        exact ⟨.empty true, none rfl, moduleExit_grips⟩
    | succ t => cases found
  · intro t beyond
    exact none (decide_eq_false (Nat.pos_iff_ne_zero.mp beyond)).symm

theorem passing_sane {c : Pool sig Env Remembered Unit} (sane : Sane c) {w : Passing}
    (apart : ReapsApart w c.shared) : Sane { c with shared := passing w c.shared } := by
  cases w with
  | exit task => exact ⟨sane.inv, sane.follows, sane.unused⟩
  | reap task =>
      refine ⟨sane.inv.reap apart ?_, ?_, fun t beyond => ?_⟩
      · intro zero
        have reaped : task ∈ task :: c.shared.2.reaped := List.mem_cons_self
        rw [count, if_pos reaped, Nat.zero_add] at zero
        exact Nat.not_lt_of_le (Nat.le_of_sub_eq_zero zero)
      · intro t thread found
        obtain ⟨r, fits, follows⟩ := sane.follows t thread found
        exact ⟨r, ⟨fits.unloads, fits.found, fits.hand, fits.latest⟩, follows⟩
      · have fits := sane.unused t beyond
        exact ⟨fits.unloads, fits.found, fits.hand, fits.latest⟩

theorem step_sane (deed : Deed) {c : Pool sig Env Remembered Unit} (sane : Sane c)
    (heeds : deed.action.Heeds lifeKernel EndsAlone ReapsApart c) :
    Sane (c.step lifeKernel passing deed.action) := by
  cases deed with
  | write e => exact sane.spawn (visit_grips (pidWrite_grips e.userBuf.length))
  | expire e => exact sane.spawn timerInterrupt_grips
  | step t =>
      show Sane (c.advance lifeKernel t)
      rw [← Pool.advance_guarded heeds]
      refine Pool.advance_relies ?_ ?_ sane t
      · intro t e o c a c' r sound fits allowed admitted
        obtain ⟨sound', fits'⟩ := life_own sound fits allowed admitted
        exact ⟨sound', trivial, fits'⟩
      · intro t u e o c a c' r q other _ _ admitted theirs
        exact life_stable other admitted theirs
  | exit task => exact passing_sane sane (w := .exit task) trivial
  | reap task => exact passing_sane sane (w := .reap task) heeds

/-- What a thread touches it has in its hand, and that is not free. -/
theorem sane_spares {c : Pool sig Env Remembered Unit} (sane : Sane c) (t : Tid) :
    c.Admits lifeKernel SparesFree t := by
  rw [Pool.admits_iff]
  intro e o k a s found answered task touched
  obtain ⟨r, fits, allowed, -⟩ := sane.follows t _ found
  have held : r.hand = some task := by
    cases o with
    | getTaskStruct task' | putTaskStruct task' => exact allowed.2.symm.trans touched
    | pidAlive task' | taskPc task' => exact Eq.trans (Eq.symm allowed) touched
    | _ => cases touched
  intro free
  exact (sane.inv.lost task free t).2 ((fits.hand task).mpr held)

/-- **No free task is touched** in a run in which no task is reaped while it is about to be
taken or used without a reference, and `stop_monitoring` ends the session alone. -/
theorem spares_free_tasks (deeds : List Deed) (careful : Careful deeds) : Spares deeds := by
  refine Pool.heeded_admits (I := Sane) ?_ (fun c t sane => sane_spares sane t) loaded_sane careful
  intro action made c sane heeds
  obtain ⟨deed, -, rfl⟩ := List.mem_map.mp made
  exact step_sane deed sane heeds

/-- Task 5 is monitored and sampled.  It exits and is reaped, a firing finds it gone, and
the unload puts the last reference. -/
def outlived : List Deed :=
  .write (.echo "5\n".toList) :: List.replicate 59 (.step 1) ++
    .expire .quiet :: List.replicate 113 (.step 2) ++
    .exit 5 :: .reap 5 :: .expire .quiet :: List.replicate 5 (.step 3) ++
    List.replicate 32 (.step 0)

theorem outlived_spares : Spares outlived := by
  apply spares_free_tasks
  unfold Careful
  decide +kernel

/-- Task 5 is reaped when `pid_task` has found it. -/
def reapedEarly : List Deed :=
  .write (.echo "5\n".toList) :: List.replicate 5 (.step 1) ++
    .exit 5 :: .reap 5 :: List.replicate 4 (.step 1)

theorem reference_to_reaped_task : ¬∀ deeds, Spares deeds := by
  intro spares
  have spared := spares reapedEarly
  revert spared
  unfold Spares
  decide +kernel

end Dreamscape.MonitorV2.Lifetime
