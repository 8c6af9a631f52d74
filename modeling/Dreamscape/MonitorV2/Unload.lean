/-
# MonitorV2.Unload -- what is left when the module goes

Writes, ticks and deaths one after another, and then the unload.  The module remembers
one task and one buffer, so the state that a sequence leaves is read off its attempts
(`Ran`): `stop_monitoring` finds an initialised timer if some attempt has started a
session, and a task if the last attempt that got as far as `pid_task` found one
(`unload_safe_iff`).  It gives back what one attempt took, so an unload that completes
balances the books if exactly one attempt found its task (`unload_conserves_iff`).
-/
import Dreamscape.MonitorV2.Allocation
import Dreamscape.MonitorV2.Interior

namespace Dreamscape.MonitorV2

set_option autoImplicit false

open Theory Kernel

/-! ## Sequences -/

inductive Item where
  | write (env : Env)
  | tick (env : Env)
  | die (task : Task)

/-- A tick runs the callback if the timer is queued. -/
def Item.exec (t : Tid) : Item → State → Answer Unit
  | .write env, s =>
      ((pidWrite env.userBuf.length).exec (kernel t env) s).bind fun _ s' => .done () s'
  | .tick env, s =>
      if s.enqueued = true ∧ s.running = none then timerInterrupt.exec (kernel t env) s
      else .done () s
  | .die task, s => .done () (s.bury task)

/-- The items run one after another, in threads numbered from `t`. -/
def execFrom : Tid → List Item → State → Answer Unit
  | _, [], s => .done () s
  | t, item :: rest, s => (item.exec t s).bind fun _ s' => execFrom (t + 1) rest s'

/-- The loaded module after the items. -/
def after (items : List Item) : Answer Unit := execFrom 0 items .initial

def Item.attempt : Item → Option Attempt
  | .write env => some env.attempt
  | .tick _ | .die _ => none

def attempts (items : List Item) : List Attempt := items.filterMap Item.attempt

/-- The task the last attempt looked up, if it found one. -/
def lastTarget (as : List Attempt) : Option Task :=
  (as.filter Attempt.accepted).getLast?.bind Attempt.found

theorem lastTarget_append (as : List Attempt) (a : Attempt) :
    lastTarget (as ++ [a]) = if a.accepted then a.found else lastTarget as := by
  unfold lastTarget
  rw [List.filter_append]
  by_cases accepted : a.accepted = true
  · simp [accepted]
  · simp [accepted]

theorem lastTarget_found {as : List Attempt} {task : Task} (last : lastTarget as = some task) :
    task ∈ as.filterMap Attempt.found := by
  obtain ⟨a, at_end, found⟩ := Option.bind_eq_some_iff.mp last
  have inside : a ∈ as := (List.mem_filter.mp (List.mem_of_getLast? at_end)).1
  exact List.mem_filterMap.mpr ⟨a, inside, found⟩

/-! ## What a sequence leaves -/

/-- Nothing was ever allocated. -/
structure Holdings.Untouched (h : Holdings) : Prop where
  perfData : h.perfData = none
  nextPtr : h.nextPtr = 0
  created : h.created = []
  released : h.released = []
  freed : h.freed = []

/-- Everything ever allocated is the buffer behind `perf_data` and its events. -/
structure Holdings.Single (h : Holdings) (p : Ptr) (buf : Buffer) (evs : List PerfEvent) : Prop where
  perfData : h.perfData = some p
  buffer : h.buffers p = some buf
  slots : Slots buf.events evs
  full : evs.length = numEvents
  distinct : evs.Nodup
  allocated : p = 0 ∧ h.nextPtr = 1
  created : h.created = evs
  released : h.released = []
  freed : h.freed = []

/-- The state after the attempts `as`, made in threads below `n`. -/
structure Ran (as : List Attempt) (n : Tid) (s : State) : Prop where
  sound : s.holdings.Sound
  fresh : ∀ u, n ≤ u → s.holdings.Fresh u
  still : s.running = none
  timer : s.holdings.timerInitialised = as.any Attempt.hasStarted
  watched : s.holdings.monitoredTask = lastTarget as
  gets : s.holdings.gets = as.filterMap Attempt.found
  puts : s.holdings.puts = []
  untouched : as.filterMap Attempt.found = [] → s.holdings.Untouched
  single : ∀ task, as.filterMap Attempt.found = [task] → as.any Attempt.hasStarted = true →
    ∃ p buf evs, s.holdings.Single p buf evs

theorem ran_initial : Ran [] 0 .initial where
  sound := sound_initial
  fresh := fun u _ => fresh_initial u
  still := rfl
  timer := rfl
  watched := rfl
  gets := rfl
  puts := rfl
  untouched := fun _ => ⟨rfl, rfl, rfl, rfl, rfl⟩
  single := nofun

section Steps

variable {as : List Attempt} {n : Tid} {s s' : State}

theorem untouched_spared {t : Tid} {attempt : Attempt} {h h' : Holdings} (untouched : h.Untouched)
    (leaves : Leaves t attempt h h') (missed : attempt.found = none) : h'.Untouched := by
  obtain ⟨perfData, -, nextPtr, -, created, released, freed⟩ := leaves.spared missed
  exact ⟨perfData.trans untouched.perfData, nextPtr.trans untouched.nextPtr,
    created.trans untouched.created, released.trans untouched.released,
    freed.trans untouched.freed⟩

theorem single_spared {t : Tid} {attempt : Attempt} {h h' : Holdings} {p : Ptr} {buf : Buffer}
    {evs : List PerfEvent} (single : h.Single p buf evs) (leaves : Leaves t attempt h h')
    (missed : attempt.found = none) : h'.Single p buf evs := by
  obtain ⟨perfData, buffers, nextPtr, -, created, released, freed⟩ := leaves.spared missed
  exact ⟨perfData.trans single.perfData, buffers ▸ single.buffer, single.slots, single.full,
    single.distinct, ⟨single.allocated.1, nextPtr.trans single.allocated.2⟩,
    created.trans single.created, released.trans single.released, freed.trans single.freed⟩

theorem untouched_started {t : Tid} {task : Task} {h h' : Holdings} (untouched : h.Untouched)
    (leaves : Leaves t (.started task) h h') : ∃ p buf evs, h'.Single p buf evs := by
  obtain ⟨slots, evs, next, full, held, perfData, buffers, nextPtr, created, released, freed⟩ :=
    leaves.started task rfl
  refine ⟨h.nextPtr, ⟨t, slots⟩, evs, ?_⟩
  exact {
    perfData := perfData
    buffer := by rw [buffers, Function.update_self]
    slots := held
    full := full
    distinct := next.nodup
    allocated := ⟨untouched.nextPtr, by rw [nextPtr, untouched.nextPtr]⟩
    created := by rw [created, untouched.created, List.nil_append]
    released := released.trans untouched.released
    freed := freed.trans untouched.freed }

theorem ran_write {env : Env} {a : Int} (ran : Ran as n s)
    (wrote : (pidWrite env.userBuf.length).exec (kernel n env) s = .done a s') :
    Ran (as ++ [env.attempt]) (n + 1) s' := by
  have leaves : Leaves n env.attempt s.holdings s'.holdings :=
    ((pidWrite_ledger ran.sound (ran.fresh n (Nat.le_refl n))).exec_done
      (ledger_tracks n env) trivial wrote).2
  have inner : Inside s ((pidWrite env.userBuf.length).exec (kernel n env) s).state :=
    (pidWrite_inner env.userBuf.length).exec_invariant (I := Inside s)
      (fun o inner s' held => held.trans (kernel_inner inner s')) (Inside.refl s)
  rw [wrote] at inner
  have found : (as ++ [env.attempt]).filterMap Attempt.found =
      as.filterMap Attempt.found ++ env.attempt.found.toList := by
    rw [List.filterMap_append]
    cases hit : env.attempt.found <;> simp [hit]
  constructor
  · exact leaves.sound
  · intro u later
    exact leaves.others u (Nat.ne_of_gt later) (ran.fresh u (Nat.le_of_succ_le later))
  · exact inner.running.trans ran.still
  · rw [leaves.timer, ran.timer, List.any_append, List.any_cons, List.any_nil, Bool.or_false]
  · rw [leaves.watched, ran.watched, lastTarget_append]
  · rw [leaves.gets, ran.gets, found]
  · rw [leaves.puts, ran.puts]
  · intro none_found
    rw [found, List.append_eq_nil_iff] at none_found
    exact untouched_spared (ran.untouched none_found.1) leaves
      (Option.toList_eq_nil_iff.mp none_found.2)
  · intro task one_found started
    rw [found] at one_found
    cases hit : env.attempt.found with
    | none =>
        rw [hit, Option.toList_none, List.append_nil] at one_found
        have earlier : as.any Attempt.hasStarted = true := by
          have missed : env.attempt.hasStarted = false := by
            cases outcome : env.attempt <;> simp_all [Attempt.found, Attempt.hasStarted]
          simpa [missed] using started
        obtain ⟨p, buf, evs, single⟩ := ran.single task one_found earlier
        exact ⟨p, buf, evs, single_spared single leaves hit⟩
    | some target =>
        have before : as.filterMap Attempt.found = [] := by
          rw [hit, Option.toList_some] at one_found
          cases rest : as.filterMap Attempt.found with
          | nil => rfl
          | cons first others =>
              rw [rest] at one_found
              simp at one_found
        have none_started : as.any Attempt.hasStarted = false := by
          rw [List.any_eq_false]
          intro attempt inside started
          have missed := List.filterMap_eq_nil_iff.mp before attempt inside
          cases attempt <;> simp_all [Attempt.found, Attempt.hasStarted]
        have now : env.attempt.hasStarted = true := by simpa [none_started] using started
        cases outcome : env.attempt with
        | started task' => exact untouched_started (ran.untouched before) (outcome ▸ leaves)
        | rejected | missing | starved task' =>
            rw [outcome] at now
            cases now

theorem timerInterrupt_still {t : Tid} {e : Env}
    (fired : timerInterrupt.exec (kernel t e) s = .done () s') : s'.running = none := by
  simp only [timerInterrupt, timerExpires, call, Prog.call_bind, Prog.ret_bind, Prog.exec_call,
    Prog.exec_bind, Outcome.bind_eq_done] at fired
  obtain ⟨_, s₁, -, restart, s₂, -, last⟩ := fired
  obtain ⟨_, s₃, returned, ended⟩ := Outcome.bind_eq_done.mp last
  cases ended
  rw [(callbackReturns_done returned).2]

/-- What changes nothing that is held leaves the attempts as they were. -/
theorem ran_idle (ran : Ran as n s) (same : s'.holdings = s.holdings) (still : s'.running = none) :
    Ran as (n + 1) s' where
  sound := same ▸ ran.sound
  fresh := fun u later => same ▸ ran.fresh u (Nat.le_of_succ_le later)
  still := still
  timer := same ▸ ran.timer
  watched := same ▸ ran.watched
  gets := same ▸ ran.gets
  puts := same ▸ ran.puts
  untouched := fun none_found => same ▸ ran.untouched none_found
  single := fun task one_found started => same ▸ ran.single task one_found started

theorem ran_item {item : Item} (ran : Ran as n s) (ended : item.exec n s = .done () s') :
    Ran (as ++ item.attempt.toList) (n + 1) s' := by
  cases item with
  | write env =>
      obtain ⟨a, s₁, wrote, same⟩ := Outcome.bind_eq_done.mp ended
      cases same
      exact ran_write ran wrote
  | tick env =>
      rw [Item.attempt, Option.toList_none, List.append_nil]
      simp only [Item.exec] at ended
      split at ended
      · have same := timerInterrupt_holdings n env s
        rw [ended] at same
        exact ran_idle ran same (timerInterrupt_still ended)
      · cases ended
        exact ran_idle ran rfl ran.still
  | die task =>
      rw [Item.attempt, Option.toList_none, List.append_nil]
      cases ended
      exact ran_idle ran rfl ran.still

theorem ran_items {items : List Item} (ran : Ran as n s)
    (ended : execFrom n items s = .done () s') :
    Ran (as ++ attempts items) (n + items.length) s' := by
  induction items generalizing as n s with
  | nil =>
      cases ended
      rw [attempts, List.filterMap_nil, List.append_nil]
      exact ran
  | cons item rest ih =>
      obtain ⟨_, s₁, first, onward⟩ := Outcome.bind_eq_done.mp ended
      have later := ih (ran_item ran first) onward
      have order : attempts (item :: rest) = item.attempt.toList ++ attempts rest := by
        unfold attempts
        cases hit : item.attempt <;> simp [hit]
      rw [order, ← List.append_assoc, List.length_cons, Nat.add_comm rest.length, ← Nat.add_assoc]
      exact later

end Steps

/-- What a sequence that completes has left. -/
theorem after_ran {items : List Item} (completes : (after items).completes = true) :
    ∃ n, Ran (attempts items) n (after items).state := by
  obtain ⟨_, ended⟩ := Outcome.done_of_completes completes
  exact ⟨_, List.nil_append (attempts items) ▸ ran_items ran_initial ended⟩

/-! ## The kernel's numbering -/

/-- The buffers to come are not there yet. -/
def Holdings.Unallocated (h : Holdings) : Prop := ∀ p, h.nextPtr ≤ p → h.buffers p = none

section Numbering

variable {h : Holdings} {t : Tid} {e : Env}

/-- A buffer changes where there is one. -/
theorem Holdings.Unallocated.setBuffer (unallocated : h.Unallocated) {p : Ptr} {buf : Option Buffer}
    (given : h.buffers p ≠ none ∨ buf = none) : (h.setBuffer p buf).Unallocated := by
  intro q later
  by_cases here : q = p
  · subst here
    rcases given with given | rfl
    · exact absurd (unallocated q later) given
    · exact Function.update_self ..
  · exact (Function.update_of_ne here ..).trans (unallocated q later)

theorem ledger_unallocated (unallocated : h.Unallocated) {o : Op} {a : o.Ans} :
    ((ledger t e).next o a h).Unallocated := by
  cases o with
  | kzalloc =>
      cases a with
      | none => exact unallocated
      | some _ =>
          intro q later
          have above : h.nextPtr < q := later
          exact (Function.update_of_ne (Nat.ne_of_gt above) ..).trans
            (unallocated q (Nat.le_of_lt above))
  | kfree p =>
      rw [ledger_kfree]
      exact unallocated.setBuffer (Or.inr rfl)
  | storeEvent p i ev =>
      cases p with
      | none => exact unallocated
      | some p =>
          cases at_p : h.buffers p with
          | none =>
              simp only [ledger, at_p]
              exact unallocated
          | some buf =>
              rw [ledger_storeEvent t e h at_p]
              exact unallocated.setBuffer (Or.inl (by rw [at_p]; exact Option.some_ne_none buf))
  | perfEventCreateKernelCounter attr cpu task => cases a <;> exact unallocated
  | perfEventReleaseKernel ev => cases ev <;> exact unallocated
  | getTaskStruct task | putTaskStruct task => cases task <;> exact unallocated
  | _ => exact unallocated

theorem unallocated_item {n : Tid} {s s' : State} {item : Item} (sound : s.holdings.Sound)
    (fresh : s.holdings.Fresh n) (unallocated : s.holdings.Unallocated)
    (ended : item.exec n s = .done () s') : s'.holdings.Unallocated := by
  cases item with
  | write env =>
      obtain ⟨a, s₁, wrote, same⟩ := Outcome.bind_eq_done.mp ended
      cases same
      have keeps : Tracks (ledger n env) (kernel n env) (fun s => s.holdings.Unallocated)
          State.holdings := {
        keeps := by
          intro o s a s' inv answered
          rw [(ledger_tracks n env).next trivial answered]
          exact ledger_unallocated inv
        possible := fun _ answered => (ledger_tracks n env).possible trivial answered
        next := fun _ answered => (ledger_tracks n env).next trivial answered }
      exact ((pidWrite_ledger sound fresh).exec_done keeps unallocated wrote).1
  | tick env =>
      simp only [Item.exec] at ended
      split at ended
      · have same := timerInterrupt_holdings n env s
        rw [ended] at same
        exact same ▸ unallocated
      · cases ended
        exact unallocated
  | die task =>
      cases ended
      exact unallocated

theorem unallocated_items {items : List Item} {as : List Attempt} {n : Tid} {s s' : State}
    (ran : Ran as n s) (unallocated : s.holdings.Unallocated)
    (ended : execFrom n items s = .done () s') : s'.holdings.Unallocated := by
  induction items generalizing as n s with
  | nil =>
      cases ended
      exact unallocated
  | cons item rest ih =>
      obtain ⟨_, s₁, first, onward⟩ := Outcome.bind_eq_done.mp ended
      exact ih (ran_item ran first)
        (unallocated_item ran.sound (ran.fresh n (Nat.le_refl n)) unallocated first) onward

/-- Whatever a sequence has left carries numbers the kernel has given. -/
theorem numbered_after {items : List Item} {s : State} (reached : after items = .done () s) :
    s.holdings.Numbered where
  created := (ran_items ran_initial reached).sound.created
  released := (ran_items ran_initial reached).sound.released
  buffers := unallocated_items ran_initial (fun _ _ => rfl) reached

end Numbering

/-! ## Stopping -/

section Stopping

variable {s : State} {t : Tid} {e : Env}

/-- Cleaning up sound holdings completes. -/
theorem cleanup_sound (sound : s.holdings.Sound) :
    ∃ h, (cleanupPerfCounters eventCodes s.holdings.perfData).exec (kernel t e) s =
        .done () (s.holding h) ∧
      h.monitoredTask = s.holdings.monitoredTask ∧ h.gets = s.holdings.gets ∧
      h.puts = s.holdings.puts := by
  cases published : s.holdings.perfData with
  | none => exact ⟨s.holdings, rfl, rfl, rfl, rfl⟩
  | some p =>
      obtain ⟨-, u, -, -, buf, evs, at_p, -, held, full, distinct, live⟩ :=
        sound.published p published
      exact ⟨_, cleanup_exec at_p held (full.trans eventCodes_length.symm) distinct
        fun ev inside => (live ev inside).2,
        rfl, rfl, rfl⟩

theorem stop_uninitialised (never : s.holdings.timerInitialised = false) :
    (stopMonitoring eventCodes).exec (kernel t e) s = .fault .uninitialisedTimer s := by
  simp [stopMonitoring, kernel, never]

theorem stop_cancelled (initialised : s.holdings.timerInitialised = true) (still : s.running = none) :
    (stopMonitoring eventCodes).exec (kernel t e) s =
      (do
        cleanupPerfCounters eventCodes s.holdings.perfData
        putTaskStruct (← getMonitoredTask)
        setMonitoredTask none : Code Unit).exec (kernel t e) s.cancel := by
  simp [stopMonitoring, kernel, initialised, still]

theorem stop_null (sound : s.holdings.Sound) (initialised : s.holdings.timerInitialised = true)
    (still : s.running = none) (unwatched : s.holdings.monitoredTask = none) :
    ∃ s', (stopMonitoring eventCodes).exec (kernel t e) s = .fault .nullDereference s' := by
  obtain ⟨h, cleaned, watched, -, -⟩ := cleanup_sound (s := s.cancel) (t := t) (e := e) sound
  have null : h.monitoredTask = none := watched.trans unwatched
  refine ⟨s.cancel.holding h, ?_⟩
  rw [cancel_holdings] at cleaned
  rw [stop_cancelled initialised still, Prog.exec_bind, cleaned]
  simp [kernel, State.onTask, State.holding, null]

theorem stop_done (sound : s.holdings.Sound) (initialised : s.holdings.timerInitialised = true)
    (still : s.running = none) {task : Task} (watching : s.holdings.monitoredTask = some task)
    (referenced : s.holdings.puts.count task < s.holdings.gets.count task) :
    ∃ h, (cleanupPerfCounters eventCodes s.holdings.perfData).exec (kernel t e) s.cancel =
        .done () (s.cancel.holding h) ∧
      h.gets = s.holdings.gets ∧ h.puts = s.holdings.puts ∧
      (stopMonitoring eventCodes).exec (kernel t e) s =
        .done () (s.cancel.holding ((h.put task).watch t none)) := by
  obtain ⟨h, cleaned, watched, gets, puts⟩ :=
    cleanup_sound (s := s.cancel) (t := t) (e := e) sound
  have watching' : h.monitoredTask = some task := watched.trans watching
  have referenced' : h.puts.count task < h.gets.count task := by rwa [gets, puts]
  refine ⟨h, cleaned, gets, puts, ?_⟩
  rw [cancel_holdings] at cleaned
  rw [stop_cancelled initialised still, Prog.exec_bind, cleaned]
  simp [kernel, State.onTask, State.holding, watching', referenced']

end Stopping

/-! ## Safety of the unload -/

/-- `stop_monitoring` neither puts a task it has no reference to, or none, nor cancels a
timer that was never initialised. -/
def StopSafe (s : State) : Prop :=
  ∀ t e f s', (stopMonitoring eventCodes).exec (kernel t e) s = .fault f s' →
    f ≠ .nullDereference ∧ f ≠ .unheldReference ∧ f ≠ .uninitialisedTimer

theorem ran_referenced {as : List Attempt} {n : Tid} {s : State} (ran : Ran as n s) {task : Task}
    (last : lastTarget as = some task) :
    s.holdings.puts.count task < s.holdings.gets.count task := by
  rw [ran.puts, ran.gets, List.count_nil]
  exact List.count_pos_iff.mpr (lastTarget_found last)

/-- **Unloading is safe** after a sequence if and only if some attempt has started a
session and the last one that got as far as looking up a task found it. -/
theorem unload_safe_iff (items : List Item) (completes : (after items).completes = true) :
    StopSafe (after items).state ↔
      (attempts items).any Attempt.hasStarted = true ∧ lastTarget (attempts items) ≠ none := by
  obtain ⟨n, ran⟩ := after_ran completes
  constructor
  · intro safe
    constructor
    · by_contra never
      have uninitialised := ran.timer.trans (Bool.eq_false_iff.mpr never)
      exact (safe 0 .quiet _ _ (stop_uninitialised uninitialised)).2.2 rfl
    · intro unwatched
      by_cases initialised : (after items).state.holdings.timerInitialised = true
      · obtain ⟨s', faults⟩ := stop_null (t := 0) (e := .quiet) ran.sound initialised ran.still
          (ran.watched.trans unwatched)
        exact (safe 0 .quiet _ _ faults).1 rfl
      · have uninitialised := Bool.eq_false_iff.mpr initialised
        exact (safe 0 .quiet _ _ (stop_uninitialised uninitialised)).2.2 rfl
  · rintro ⟨started, targeted⟩ t e f s' faults
    obtain ⟨task, last⟩ := Option.ne_none_iff_exists'.mp targeted
    obtain ⟨h, -, -, -, stopped⟩ := stop_done (t := t) (e := e) ran.sound (ran.timer.trans started)
      ran.still (ran.watched.trans last) (ran_referenced ran last)
    rw [stopped] at faults
    cases faults

/-- One write that starts a session, and a tick. -/
def oneSession : List Item := [.write (.echo "5\n".toList), .tick .quiet]

theorem oneSession_unloads_safely : StopSafe (after oneSession).state :=
  (unload_safe_iff oneSession (by decide +kernel)).mpr ⟨by decide +kernel, by decide +kernel⟩

/-- Unloading the module before anything was written cancels a timer that was never
initialised. -/
theorem unload_unused :
    ¬∀ items : List Item, (after items).completes = true → StopSafe (after items).state := by
  intro safe
  exact (safe [] rfl 0 .quiet _ _ (stop_uninitialised rfl)).2.2 rfl

/-! ## Conservation -/

/-- Every event made was released once, every buffer freed once, every reference put. -/
structure Holdings.Conserved (h : Holdings) : Prop where
  events : ∀ ev ∈ h.created, h.released.count ev = 1
  buffers : ∀ p < h.nextPtr, h.freed.count p = 1
  references : ∀ task, h.gets.count task = h.puts.count task

section Exit

variable {s s' : State} {t : Tid} {e : Env}

def Op.Closes : Op → Prop
  | .unlist _ | .drain _ => True
  | _ => False

theorem closeGate_closes (g : Gate) : (closeGate g).Only Op.Closes := by
  simp [closeGate, Op.Closes]

theorem kernel_closes {o : Op} (closes : o.Closes) {h : Holdings} (same : s.holdings = h) :
    (kernel t e o s).state.holdings = h := by
  cases o with
  | unlist g => exact same
  | drain g =>
      simp only [kernel]
      split <;> exact same
  | _ => exact closes.elim

theorem closeGate_holdings {g : Gate} (closed : (closeGate g).exec (kernel t e) s = .done () s') :
    s'.holdings = s.holdings := by
  have kept : ((closeGate g).exec (kernel t e) s).state.holdings = s.holdings :=
    (closeGate_closes g).exec_invariant (I := fun s' : State => s'.holdings = s.holdings)
      (fun _ closes _ same => kernel_closes closes same) rfl
  rwa [closed] at kept

/-- An unload that completes has stopped the session, and holds what that left. -/
theorem moduleExit_stopped (unloaded : moduleExit.exec (kernel t e) s = .done () s') :
    ∃ s₁, (stopMonitoring eventCodes).exec (kernel t e) s = .done () s₁ ∧
      s'.holdings = s₁.holdings := by
  simp only [moduleExit, Prog.exec_bind, Outcome.bind_eq_done] at unloaded
  obtain ⟨_, s₁, stopped, _, s₂, message, _, s₃, pid, probe⟩ := unloaded
  refine ⟨s₁, stopped, ?_⟩
  rw [closeGate_holdings probe, closeGate_holdings pid, closeGate_holdings message]

/-- What one session has left is what the unload gives back. -/
theorem single_conserved {p : Ptr} {buf : Buffer} {evs : List PerfEvent} {h : Holdings}
    (single : h.Single p buf evs) {task : Task} (gets : h.gets = [task]) (puts : h.puts = []) :
    (((h.giveBack p evs).put task).watch t none).Conserved where
  events := by
    intro ev inside
    have member : ev ∈ evs := single.created ▸ inside
    show (h.released ++ evs).count ev = 1
    rw [single.released, List.nil_append]
    exact List.count_eq_one_of_mem single.distinct member
  buffers := by
    intro q bound
    have below : q < h.nextPtr := bound
    have first : q = p := by
      obtain ⟨zero, one⟩ := single.allocated
      rw [one] at below
      exact (Nat.lt_one_iff.mp below).trans zero.symm
    show (h.freed ++ [p]).count q = 1
    rw [single.freed, List.nil_append, first, List.count_singleton_self]
  references := by
    intro other
    show h.gets.count other = (h.puts ++ [task]).count other
    rw [gets, puts, List.nil_append]

end Exit

/-- **An unload that completes conserves** everything the module was given if and only if
exactly one attempt of the sequence found its task. -/
theorem unload_conserves_iff (items : List Item) (t : Tid) (e : Env)
    (completes : (after items).completes = true)
    (unloads : (moduleExit.exec (kernel t e) (after items).state).completes = true) :
    (moduleExit.exec (kernel t e) (after items).state).state.holdings.Conserved ↔
      ((attempts items).filterMap Attempt.found).length = 1 := by
  obtain ⟨n, ran⟩ := after_ran completes
  obtain ⟨_, unloaded⟩ := Outcome.done_of_completes unloads
  obtain ⟨s₁, stopped, left⟩ := moduleExit_stopped unloaded
  -- The unload would not have completed without a timer and a task.
  have started : (attempts items).any Attempt.hasStarted = true := by
    by_contra never
    have uninitialised := ran.timer.trans (Bool.eq_false_iff.mpr never)
    rw [stop_uninitialised uninitialised] at stopped
    cases stopped
  have initialised := ran.timer.trans started
  cases last : lastTarget (attempts items) with
  | none =>
      obtain ⟨s', faults⟩ := stop_null (t := t) (e := e) ran.sound initialised ran.still
        (ran.watched.trans last)
      rw [faults] at stopped
      cases stopped
  | some task =>
      obtain ⟨h, cleaned, gets, puts, stopped'⟩ := stop_done (t := t) (e := e) ran.sound initialised ran.still
        (ran.watched.trans last) (ran_referenced ran last)
      rw [stopped', Outcome.done.injEq] at stopped
      rw [left, ← stopped.2]
      show ((h.put task).watch t none).Conserved ↔ _
      have taken : h.gets = (attempts items).filterMap Attempt.found := gets.trans ran.gets
      have given : h.puts = [] := puts.trans ran.puts
      constructor
      · intro conserved
        have balanced : h.gets.Perm (h.puts ++ [task]) :=
          List.perm_iff_count.mpr conserved.references
        rw [given, taken] at balanced
        exact balanced.length_eq
      · intro one
        obtain ⟨found, only⟩ := List.length_eq_one_iff.mp one
        obtain ⟨p, buf, evs, single⟩ := ran.single found only started
        have task_found : task = found := by
          have inside := lastTarget_found last
          rw [only] at inside
          exact List.mem_singleton.mp inside
        have live : ∀ ev ∈ evs, ev ∉ (after items).state.holdings.released := by
          rw [single.released]
          exact fun ev _ => List.not_mem_nil
        have cleaned' := cleanup_exec (s := (after items).state.cancel) (t := t) (e := e)
          single.buffer single.slots (single.full.trans eventCodes_length.symm) single.distinct live
        rw [single.perfData, cleaned'] at cleaned
        have same : (after items).state.holdings.giveBack p evs = h :=
          congrArg State.holdings (Outcome.done.inj cleaned).2
        rw [← same]
        exact single_conserved single (by rw [ran.gets, only, task_found]) ran.puts

theorem oneSession_conserved :
    (moduleExit.exec (kernel 0 .quiet) (after oneSession).state).state.holdings.Conserved :=
  (unload_conserves_iff oneSession 0 .quiet (by decide +kernel) (by decide +kernel)).mpr
    (by decide +kernel)

/-- A second start overwrites what the first one left in the globals. -/
theorem restart_leaks :
    ¬∀ (items : List Item) t e, (after items).completes = true →
      (moduleExit.exec (kernel t e) (after items).state).completes = true →
      (moduleExit.exec (kernel t e) (after items).state).state.holdings.Conserved := by
  intro conserves
  have balanced := (conserves [.write (.echo "5\n".toList), .write (.echo "6\n".toList)] 2 .quiet
    (by decide +kernel) (by decide +kernel)).references 5
  exact absurd balanced (by decide +kernel)

end Dreamscape.MonitorV2
