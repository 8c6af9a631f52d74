/-
# Monitor.Schedule -- handlers beside each other

Writers of the command file and context switches run beside each other, one call of
a handler at a time, in any order; a thread that waits for the mutex stays where it
stands.  A run is a list of events and every interleaving is one.

Most code of the module takes part in neither the locking nor the life of a
performance event: `Plain` marks its calls.
-/
import Dreamscape.Monitor.Session
import Dreamscape.Monitor.Footprint
import Dreamscape.Theory.Pool

namespace Dreamscape.Monitor

set_option autoImplicit false

open Theory Kernel

/-! ## Runs -/

inductive Event where
  | start (i : Invocation)
  | step (t : Tid)

abbrev Handlers := Pool sig Env State Int

def Event.action : Event → Pool.Action sig Env Empty Int
  | .start i => .spawn ⟨i.env, i.code⟩
  | .step t => .step t

/-- Nothing but the handlers changes the module's state. -/
def undisturbed (w : Empty) : State → State := nomatch w

/-- The loaded module, before any handler runs. -/
def loaded : Handlers := ⟨State.initial, []⟩

def poolAfter (events : List Event) : Handlers :=
  Pool.run kernel undisturbed loaded (events.map Event.action)

/-- The section in which a command sets `target_pid`. -/
def setTarget (pid : Int) : Code Unit := do
  mutexLock
  setTargetPid pid
  mutexUnlock

theorem poolAfter_append (before after : List Event) :
    poolAfter (before ++ after) =
      Pool.run kernel undisturbed (poolAfter before) (after.map Event.action) := by
  rw [poolAfter, List.map_append, Pool.run_append]
  rfl

theorem spawn_code {events : List Event} {thread : Thread sig Env Int}
    (started : .spawn thread ∈ events.map Event.action) : ∃ i : Invocation, thread.prog = i.code := by
  obtain ⟨event, -, same⟩ := List.mem_map.mp started
  cases event with
  | start i =>
      have made : thread = ⟨i.env, i.code⟩ := by
        simpa [Event.action, eq_comm] using same
      exact ⟨i, by rw [made]⟩
  | step t => cases same

/-! ## Plain calls -/

/-- The call neither touches the mutex nor creates or releases an event. -/
def Op.Plain : Op → Prop
  | .mutexLock | .mutexUnlock => False
  | .perfEventCreateKernelCounter .. | .perfEventReleaseKernel _ => False
  | _ => True

theorem dumps_plain (o : Op) (dumps : o.Dumps) : o.Plain := by
  cases o <;> first | exact dumps.elim | trivial

theorem updates_plain (o : Op) (updates : o.Updates) : o.Plain := by
  cases o <;> first | exact updates.elim | trivial

theorem writeKinfoToFile_plain (pid : Int) : (writeKinfoToFile pid).Only Op.Plain :=
  (writeKinfoToFile_dumps pid).mono dumps_plain

theorem updateCounters_plain (pc : U64) (v : Counters) : (updateCounters pc v).Only Op.Plain :=
  (updateCounters_updates pc v).mono updates_plain

/-! ## What one call does -/

/-- The call reads. -/
def Op.Reads : Op → Prop
  | .copyFromUser _ | .targetPid | .currentPid | .perfEventReadValue _ | .counterList
  | .entryPc _ | .entryCounter .. | .getFs | .hasWrite _ => True
  | _ => False

/-- The call changes a file, or how files are reached. -/
def Op.OnFiles : Op → Prop
  | .filpOpen _ | .filpClose _ | .setFs _ | .setFPos .. | .fOpWrite .. => True
  | _ => False

/-- The call changes the list or an entry. -/
def Op.Stores : Op → Prop
  | .addCounter .. | .kmalloc | .setEntryPc .. | .setEntryCounters .. | .listAdd _ => True
  | _ => False

/-- The two states agree on the mutex and on the history of events. -/
structure SameResources (s s' : State) : Prop where
  mutex : s'.mutex = s.mutex
  nextEvent : s'.nextEvent = s.nextEvent
  created : s'.created = s.created
  released : s'.released = s.released
  failedCreates : s'.failedCreates = s.failedCreates

theorem SameResources.refl (s : State) : SameResources s s := ⟨rfl, rfl, rfl, rfl, rfl⟩

section Answers

variable {t : Tid} {e : Env} {s s' : State}

theorem onEntry_done {α : Type} {a : α} {entry : Ptr} {f : CounterData → Answer α}
    (answered : s.onEntry entry f = .done a s') : ∃ data, f data = .done a s' := by
  unfold State.onEntry at answered
  split at answered
  · cases answered
  · exact ⟨_, answered⟩

theorem onFile_done {α : Type} {a : α} {file : Nat} {f : OpenFile → Answer α}
    (answered : s.onFile file f = .done a s') : ∃ data, f data = .done a s' := by
  unfold State.onFile at answered
  split at answered
  · cases answered
  · exact ⟨_, answered⟩

theorem storeEntry_done (entry : Option Ptr) {f : CounterData → CounterData} {a : Unit}
    (answered : s.storeEntry entry f = .done a s') : ∃ heap nextPtr counterList,
      s' = { s with heap := heap, nextPtr := nextPtr, counterList := counterList } := by
  cases entry with
  | none => cases answered
  | some p =>
      obtain ⟨data, stored⟩ := onEntry_done answered
      cases stored
      exact ⟨_, _, _, rfl⟩

variable {o : Op} {a : o.Ans}

theorem kernel_reads (answered : kernel t e o s = .done a s') (reads : o.Reads) : s' = s := by
  cases o with
  | entryPc _ | entryCounter _ _ =>
      obtain ⟨data, read⟩ := onEntry_done answered
      cases read
      rfl
  | hasWrite file =>
      obtain ⟨data, read⟩ := onFile_done answered
      cases read
      rfl
  | copyFromUser _ | targetPid | currentPid | perfEventReadValue _ | counterList | getFs =>
      cases answered
      rfl
  | _ => exact reads.elim

theorem kernel_onFiles (answered : kernel t e o s = .done a s') (onFiles : o.OnFiles) :
    ∃ files openFiles nextFile addrLimit,
      s' = { s with
        files := files
        openFiles := openFiles
        nextFile := nextFile
        addrLimit := addrLimit } := by
  cases o with
  | filpOpen filename =>
      simp only [kernel] at answered
      split at answered <;> cases answered <;> exact ⟨_, _, _, _, rfl⟩
  | filpClose _ | setFPos _ _ =>
      obtain ⟨data, changed⟩ := onFile_done answered
      cases changed
      exact ⟨_, _, _, _, rfl⟩
  | fOpWrite file text =>
      obtain ⟨data, written⟩ := onFile_done answered
      split at written
      · cases written
        exact ⟨_, _, _, _, rfl⟩
      · cases written
  | setFs seg =>
      cases answered
      exact ⟨_, _, _, _, rfl⟩
  | _ => exact onFiles.elim

theorem kernel_stores (answered : kernel t e o s = .done a s') (stores : o.Stores) :
    ∃ heap nextPtr counterList,
      s' = { s with heap := heap, nextPtr := nextPtr, counterList := counterList } := by
  cases o with
  | addCounter entry i v => exact storeEntry_done (some entry) answered
  | setEntryPc entry pc => exact storeEntry_done entry answered
  | setEntryCounters entry values => exact storeEntry_done entry answered
  | kmalloc =>
      simp only [kernel] at answered
      split at answered <;> cases answered <;> exact ⟨_, _, _, rfl⟩
  | listAdd entry =>
      cases entry with
      | none => cases answered
      | some p =>
          cases answered
          exact ⟨_, _, _, rfl⟩
  | _ => exact stores.elim

theorem kernel_plain (plain : o.Plain) (answered : kernel t e o s = .done a s') :
    SameResources s s' := by
  cases o with
  | mutexLock | mutexUnlock => exact plain.elim
  | perfEventCreateKernelCounter _ _ _ | perfEventReleaseKernel _ => exact plain.elim
  | setTargetPid pid =>
      cases answered
      exact ⟨rfl, rfl, rfl, rfl, rfl⟩
  | filpOpen _ | filpClose _ | setFs _ | setFPos _ _ | fOpWrite _ _ =>
      obtain ⟨_, _, _, _, rfl⟩ := kernel_onFiles answered trivial
      exact ⟨rfl, rfl, rfl, rfl, rfl⟩
  | addCounter _ _ _ | kmalloc | setEntryPc _ _ | setEntryCounters _ _ | listAdd _ =>
      obtain ⟨_, _, _, rfl⟩ := kernel_stores answered trivial
      exact ⟨rfl, rfl, rfl, rfl, rfl⟩
  | _ =>
      obtain rfl := kernel_reads answered trivial
      exact .refl _

theorem kernel_mutexLock {a : Unit} (answered : kernel t e .mutexLock s = .done a s') :
    s.mutex = none ∧ s' = { s with mutex := some t } := by
  simp only [kernel] at answered
  split at answered
  · rename_i free
    cases answered
    exact ⟨free, rfl⟩
  · cases answered

theorem kernel_mutexUnlock {a : Unit} (answered : kernel t e .mutexUnlock s = .done a s') :
    s.mutex = some t ∧ s' = { s with mutex := none } := by
  simp only [kernel] at answered
  split at answered
  · rename_i owned
    cases answered
    exact ⟨owned, rfl⟩
  · cases answered

/-- A creation is refused and logged, or it makes an event with a fresh number. -/
theorem kernel_create {attr : PerfEventAttr} {cpu : Int} {task : Option Nat}
    {a : Except Int PerfEvent}
    (answered : kernel t e (.perfEventCreateKernelCounter attr cpu task) s = .done a s') :
    (∃ err, a = .error err ∧ s' = { s with failedCreates := t :: s.failedCreates }) ∨
      ∃ ev : PerfEvent, a = .ok ev ∧ ev.id = s.nextEvent ∧
        s' = { s with
          nextEvent := s.nextEvent + 1
          created := Function.update s.created t (s.created t ++ [ev]) } := by
  simp only [kernel] at answered
  split at answered
  · rename_i err _
    cases answered
    exact Or.inl ⟨err, rfl, rfl⟩
  · cases answered
    exact Or.inr ⟨_, rfl, rfl, rfl⟩

theorem kernel_release {ev : PerfEvent} {a : Unit}
    (answered : kernel t e (.perfEventReleaseKernel ev) s = .done a s') :
    s' = { s with released := Function.update s.released t (s.released t ++ [ev]) } := by
  cases answered
  rfl

/-- The calls that are not plain. -/
theorem op_cases (o : Op) :
    o.Plain ∨ o = .mutexLock ∨ o = .mutexUnlock ∨
      (∃ attr cpu task, o = .perfEventCreateKernelCounter attr cpu task) ∨
      ∃ ev, o = .perfEventReleaseKernel ev := by
  cases o <;> simp [Op.Plain]

/-- The log of refused creations, and what each thread created, only grow. -/
theorem kernel_grows {o : Op} {a : o.Ans} (answered : kernel t e o s = .done a s') :
    s.failedCreates <:+ s'.failedCreates ∧ ∀ u, s.created u <+: s'.created u := by
  rcases op_cases o with plain | rfl | rfl | ⟨attr, cpu, task, rfl⟩ | ⟨ev, rfl⟩
  · obtain ⟨-, -, created, -, refused⟩ := kernel_plain plain answered
    rw [created, refused]
    exact ⟨List.suffix_rfl, fun u => List.prefix_rfl⟩
  · obtain ⟨-, rfl⟩ := kernel_mutexLock answered
    exact ⟨List.suffix_rfl, fun u => List.prefix_rfl⟩
  · obtain ⟨-, rfl⟩ := kernel_mutexUnlock answered
    exact ⟨List.suffix_rfl, fun u => List.prefix_rfl⟩
  · rcases kernel_create answered with ⟨err, -, rfl⟩ | ⟨ev, -, -, rfl⟩
    · exact ⟨List.suffix_cons _ _, fun u => List.prefix_rfl⟩
    · refine ⟨List.suffix_rfl, ?_⟩
      intro u
      by_cases own : u = t
      · subst own
        simp only [Function.update_self]
        exact List.prefix_append _ _
      · simp only [Function.update_of_ne own]
        exact List.prefix_rfl
  · rw [kernel_release answered]
    exact ⟨List.suffix_rfl, fun u => List.prefix_rfl⟩

end Answers

/-- What holds of the two logs at some point of a run still holds later. -/
theorem poolAfter_grows (events : List Event) (n : Nat) :
    (poolAfter (events.take n)).shared.failedCreates <:+ (poolAfter events).shared.failedCreates ∧
      ∀ u, (poolAfter (events.take n)).shared.created u <+:
        (poolAfter events).shared.created u := by
  have split := poolAfter_append (events.take n) (events.drop n)
  rw [List.take_append_drop] at split
  rw [split]
  let start := (poolAfter (events.take n)).shared
  refine Pool.run_shared
    (I := fun s : State => start.failedCreates <:+ s.failedCreates ∧
      ∀ u, start.created u <+: s.created u)
    ?_ (fun w _ _ => w.elim) ⟨List.suffix_rfl, fun u => List.prefix_rfl⟩ _
  intro t e o s a s' grown answered
  obtain ⟨refused, created⟩ := kernel_grows answered
  exact ⟨grown.1.trans refused, fun u => (grown.2 u).trans (created u)⟩

end Dreamscape.Monitor
