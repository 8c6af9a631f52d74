/-
# MonitorV2.Attempt -- one pid_write, call by call

An invocation of `pid_write` allocates a buffer, fills it with events, publishes it in
`perf_data` and arms the timer, or gives everything back on the way.  Each step is
followed on the ledger: `during` is the state of the holdings on the way, and
`pidWrite_ledger` says what is left at the end, by the outcome of the attempt.
-/
import Dreamscape.MonitorV2.Ledger

namespace Dreamscape.MonitorV2

set_option autoImplicit false

open Theory Kernel

/-! ## While an invocation builds its buffer -/

/-- `evs` are the next events to be numbered. -/
def Next (n : Nat) (evs : List PerfEvent) : Prop := evs.map PerfEvent.id = List.range' n evs.length

theorem next_nil (n : Nat) : Next n [] := rfl

theorem Next.append_one {n : Nat} {evs : List PerfEvent} (next : Next n evs) {ev : PerfEvent}
    (fresh : ev.id = n + evs.length) : Next n (evs ++ [ev]) := by
  rw [Next, List.map_append, next, List.length_append, List.range'_append_1.symm]
  simp [fresh]

theorem Next.bounds {n : Nat} {evs : List PerfEvent} (next : Next n evs) {ev : PerfEvent}
    (inside : ev ∈ evs) : n ≤ ev.id ∧ ev.id < n + evs.length := by
  have numbered : ev.id ∈ evs.map PerfEvent.id := List.mem_map_of_mem inside
  rw [next, List.mem_range'_1] at numbered
  exact numbered

theorem Next.nodup {n : Nat} {evs : List PerfEvent} (next : Next n evs) : evs.Nodup := by
  have distinct : (evs.map PerfEvent.id).Nodup := by
    rw [next]
    exact List.nodup_range'
  exact distinct.of_map

/-- The holdings of thread `t` on the way: it has allocated the next buffer, which is now
`buf`, asked for `asked` events, made `evs`, and released `gone` of them. -/
def Holdings.during (h : Holdings) (t : Tid) (buf : Option Buffer) (asked : Nat)
    (evs gone : List PerfEvent) (freed : List Ptr) : Holdings :=
  { h with
    buffers := Function.update h.buffers h.nextPtr buf
    nextPtr := h.nextPtr + 1
    nextEvent := h.nextEvent + evs.length
    creations := Function.update h.creations t asked
    created := h.created ++ evs
    released := h.released ++ gone
    freed := h.freed ++ freed }

/-- What is published stays sound on the way: it is apart from the new buffer and the new
events. -/
theorem during_sound {h : Holdings} (sound : h.Sound) (t : Tid) (buf : Option Buffer) (asked : Nat)
    {evs : List PerfEvent} (next : Next h.nextEvent evs) (gone : List PerfEvent)
    (own : ∀ ev ∈ gone, ev ∈ evs) (freed : List Ptr) :
    (h.during t buf asked evs gone freed).Sound := by
  constructor
  · intro p published
    obtain ⟨below, u, setter, granted, held, full, at_p, made, slots, length, distinct, live⟩ :=
      sound.published p published
    refine ⟨Nat.lt_succ_of_lt below, u, setter, granted, held, full, ?_, made, slots, length,
      distinct, fun ev inside => ?_⟩
    · have apart : p ≠ h.nextPtr := Nat.ne_of_lt below
      simpa only [Holdings.during, Function.update_of_ne apart] using at_p
    · obtain ⟨created, kept⟩ := live ev inside
      refine ⟨List.mem_append_left _ created, ?_⟩
      intro released
      rcases List.mem_append.mp released with old | new
      · exact kept old
      · have high := (next.bounds (own ev new)).1
        have low := sound.created ev created
        omega
  · exact sound.assigned
  · intro ev inside
    show ev.id < h.nextEvent + evs.length
    rcases List.mem_append.mp inside with old | new
    · have low := sound.created ev old
      omega
    · exact (next.bounds new).2
  · intro ev inside
    show ev.id < h.nextEvent + evs.length
    rcases List.mem_append.mp inside with old | new
    · have low := sound.released ev old
      omega
    · exact (next.bounds (own ev new)).2

theorem refuse_sound {h : Holdings} (sound : h.Sound) {t : Tid}
    (unassigned : h.dataSetter ≠ some t) : (h.refuse t).Sound := by
  refine ⟨fun p published => ?_, fun u setter granted => ?_, sound.created, sound.released⟩
  · obtain ⟨below, u, setter, granted, complete⟩ := sound.published p published
    refine ⟨below, u, setter, fun refused => ?_, complete⟩
    rcases List.mem_cons.mp refused with rfl | before
    · exact unassigned setter
    · exact granted before
  · exact sound.assigned u setter fun before => granted (List.mem_cons_of_mem t before)

theorem Slots.append_one {slots : Nat → EventPtr} {evs : List PerfEvent} (held : Slots slots evs)
    (ev : PerfEvent) : Slots (Function.update slots evs.length (.ptr ev)) (evs ++ [ev]) := by
  intro i found at_i
  by_cases last : i = evs.length
  · subst last
    rw [List.getElem?_append_right (Nat.le_refl _), Nat.sub_self] at at_i
    cases at_i
    exact Function.update_self ..
  · have bound : i < (evs ++ [ev]).length := (List.getElem?_eq_some_iff.mp at_i).1
    have earlier : i < evs.length := by
      rw [List.length_append, List.length_singleton] at bound
      omega
    rw [List.getElem?_append_left earlier] at at_i
    rw [Function.update_of_ne last]
    exact held i found at_i

/-- The new buffer, published, is sound when it is full. -/
theorem publish_sound {h : Holdings} (sound : h.Sound) {t : Tid} (granted : t ∉ h.refused)
    {slots : Nat → EventPtr} (asked : Nat) {evs : List PerfEvent} (next : Next h.nextEvent evs)
    (held : Slots slots evs) (full : evs.length = numEvents) :
    ((h.during t (some ⟨t, slots⟩) asked evs [] []).publish t (some h.nextPtr)).Sound := by
  have still := during_sound sound t (some ⟨t, slots⟩) asked next []
    (fun ev inside => absurd inside List.not_mem_nil) []
  refine ⟨fun p published => ?_, fun _ _ _ => Option.some_ne_none _, still.created, still.released⟩
  cases published
  refine ⟨Nat.lt_succ_self _, t, rfl, granted, ⟨t, slots⟩, evs, Function.update_self .., rfl, held,
    full, next.nodup, fun ev member => ?_⟩
  refine ⟨List.mem_append_right _ member, ?_⟩
  intro released
  have low := sound.released ev (by simpa [Holdings.publish, Holdings.during] using released)
  have high := (next.bounds member).1
  omega

/-- A call that was refused something may publish null. -/
theorem unpublish_sound {h : Holdings} (sound : h.Sound) {t : Tid} (refused : t ∈ h.refused) :
    (h.publish t none).Sound := by
  refine ⟨fun _ published => (nomatch published), fun u setter granted => ?_, sound.created,
    sound.released⟩
  cases setter
  exact absurd refused granted

/-! ### Threads that have not begun -/

section Others

variable {h : Holdings} {t u : Tid}

theorem Holdings.Fresh.publish (fresh : h.Fresh u) (other : u ≠ t) (p : Option Ptr) :
    (h.publish t p).Fresh u :=
  ⟨fresh.unasked, fresh.unrefused, fun setter => other (Option.some.inj setter).symm⟩

theorem Holdings.Fresh.refuse (fresh : h.Fresh u) (other : u ≠ t) : (h.refuse t).Fresh u :=
  ⟨fresh.unasked, fun refused => (List.mem_cons.mp refused).elim other fresh.unrefused,
    fresh.unassigned⟩

theorem Holdings.Fresh.during (fresh : h.Fresh u) (other : u ≠ t) (buf : Option Buffer)
    (asked : Nat) (evs gone : List PerfEvent) (freed : List Ptr) :
    (h.during t buf asked evs gone freed).Fresh u :=
  ⟨(Function.update_of_ne other ..).trans fresh.unasked, fresh.unrefused, fresh.unassigned⟩

end Others

/-! ### Moves of the holdings on the way -/

section Moves

variable {h : Holdings} {t : Tid} {buf : Option Buffer} {asked : Nat} {evs gone : List PerfEvent}
  {freed : List Ptr}

theorem allocate_during (unasked : h.creations t = 0) :
    h.allocate t = h.during t (some ⟨t, fun _ => .null⟩) 0 [] [] [] := by
  have same : Function.update h.creations t 0 = h.creations := by
    rw [← unasked, Function.update_eq_self]
  simp [Holdings.allocate, Holdings.setBuffer, Holdings.during, same]

theorem during_ask :
    (h.during t buf asked evs gone freed).ask t = h.during t buf (asked + 1) evs gone freed := by
  simp [Holdings.ask, Holdings.during]

theorem during_refuse :
    (h.during t buf asked evs gone freed).refuse t =
      (h.refuse t).during t buf asked evs gone freed := rfl

theorem during_make (ev : PerfEvent) :
    (h.during t buf asked evs gone freed).make ev =
      h.during t buf asked (evs ++ [ev]) gone freed := by
  simp [Holdings.make, Holdings.during, Nat.add_assoc]

theorem during_setBuffer (other : Option Buffer) :
    (h.during t buf asked evs gone freed).setBuffer h.nextPtr other =
      h.during t other asked evs gone freed := by
  simp [Holdings.setBuffer, Holdings.during]

theorem during_release (ev : PerfEvent) :
    (h.during t buf asked evs gone freed).release ev =
      h.during t buf asked evs (gone ++ [ev]) freed := by
  simp [Holdings.release, Holdings.during]

theorem during_free :
    (h.during t buf asked evs gone []).free h.nextPtr =
      h.during t none asked evs gone [h.nextPtr] := by
  simp [Holdings.free, Holdings.setBuffer, Holdings.during]

theorem during_buffer : (h.during t buf asked evs gone freed).buffers h.nextPtr = buf :=
  Function.update_self ..

theorem during_creations : (h.during t buf asked evs gone freed).creations t = asked :=
  Function.update_self ..

end Moves

/-! ## The creation loop -/

/-- The kernel grants the events of the codes, the first of them being the `k`-th asked
for. -/
def grants (e : Env) : Nat → List (BitVec 32) → Bool
  | _, [] => true
  | k, code :: codes => (e.create k (counterAttr code) e.cpu none).isNone && grants e (k + 1) codes

section Loops

variable {h : Holdings} {t : Tid} {e : Env}

theorem releaseBefore_ledger (sound : h.Sound) {slots : Nat → EventPtr} {asked : Nat}
    {evs : List PerfEvent} (next : Next h.nextEvent evs) (held : Slots slots evs) {i : Nat}
    (bound : i ≤ evs.length) (gone : List PerfEvent) (own : ∀ ev ∈ gone, ev ∈ evs) :
    (releaseBefore h.nextPtr i).Follows (ledger t e)
      (fun h' _ => h' = h.during t (some ⟨t, slots⟩) asked evs (gone ++ (evs.take i).reverse) [])
      (h.during t (some ⟨t, slots⟩) asked evs gone []) := by
  have allowed : ∀ gone : List PerfEvent, (∀ ev ∈ gone, ev ∈ evs) →
      (h.during t (some ⟨t, slots⟩) asked evs gone []).Sound :=
    fun gone own => during_sound sound t _ asked next gone own []
  induction i generalizing gone with
  | zero =>
      show _ = _
      rw [List.take_zero, List.reverse_nil, List.append_nil]
  | succ i ih =>
      have at_i : evs[i]? = some evs[i] := List.getElem?_eq_getElem bound
      have member : evs[i] ∈ evs := List.getElem_mem bound
      simp only [releaseBefore, loadEvent, perfEventReleaseKernel, call, Prog.call_bind,
        Prog.ret_bind, Prog.follows_call]
      refine ⟨allowed gone own, fun ev loaded => ⟨allowed gone own, ?_⟩⟩
      intro _ _
      obtain ⟨q, buf, same, at_q, rfl⟩ := loaded
      cases same
      rw [during_buffer, Option.some.injEq] at at_q
      subst at_q
      show (releaseBefore h.nextPtr i).Follows _ _
        ((ledger t e).next (.perfEventReleaseKernel (slots i)) () _)
      rw [held i _ at_i]
      have onward := ih (Nat.le_of_succ_le bound) (gone ++ [evs[i]]) fun ev inside => by
        rcases List.mem_append.mp inside with old | new
        · exact own ev old
        · rw [List.mem_singleton.mp new]
          exact member
      have order : (evs.take (i + 1)).reverse = evs[i] :: (evs.take i).reverse := by
        rw [List.take_add_one, at_i, Option.toList_some, List.reverse_append]
        rfl
      rw [List.append_assoc, List.singleton_append, ← order] at onward
      rwa [← during_release] at onward

/-- After the creation loop: a full buffer, or everything given back. -/
def AfterCreation (h : Holdings) (t : Tid) (total : Nat) (granted : Bool) (h' : Holdings)
    (made : Option Ptr) : Prop :=
  match made with
  | some p =>
      granted = true ∧ p = h.nextPtr ∧ ∃ slots evs, Next h.nextEvent evs ∧ evs.length = total ∧
        Slots slots evs ∧ h' = h.during t (some ⟨t, slots⟩) total evs [] []
  | none =>
      granted = false ∧ ∃ asked evs, Next h.nextEvent evs ∧
        h' = (h.refuse t).during t none asked evs evs.reverse [h.nextPtr]

theorem createCounters_ledger (sound : h.Sound) (unassigned : h.dataSetter ≠ some t)
    (codes : List (BitVec 32)) {slots : Nat → EventPtr} {evs : List PerfEvent} (next : Next h.nextEvent evs)
    (held : Slots slots evs) :
    (createCounters h.nextPtr e.cpu codes evs.length).Follows (ledger t e)
      (AfterCreation h t (evs.length + codes.length) (grants e evs.length codes))
      (h.during t (some ⟨t, slots⟩) evs.length evs [] []) := by
  have none_gone : ∀ {evs : List PerfEvent}, ∀ ev ∈ ([] : List PerfEvent), ev ∈ evs :=
    fun ev inside => absurd inside List.not_mem_nil
  induction codes generalizing slots evs with
  | nil =>
      exact ⟨during_sound sound t _ _ next [] none_gone [], fun _ _ =>
        ⟨rfl, rfl, slots, evs, next, rfl, held, rfl⟩⟩
  | cons code codes ih =>
      simp only [createCounters, perfEventCreateKernelCounter, storeEvent, call, Prog.call_bind,
        Prog.ret_bind, Prog.follows_call, ledger_allowed]
      refine ⟨during_sound sound t _ _ next [] none_gone [], ?_⟩
      intro ev made
      rcases ledger_created t e _ made with ⟨err, answer, rfl⟩ | ⟨answer, rfl⟩
      · -- The kernel refuses: the events made so far and the buffer are given back.
        rw [during_creations] at answer
        have refused : grants e evs.length (code :: codes) = false := by simp [grants, answer]
        have kept : Slots (Function.update slots evs.length (.err err)) evs := by
          intro i ev at_i
          have bound : i < evs.length := (List.getElem?_eq_some_iff.mp at_i).1
          rw [Function.update_of_ne (Nat.ne_of_lt bound)]
          exact held i ev at_i
        have sound' : (h.refuse t).Sound := refuse_sound sound unassigned
        rw [ledger_create_err, during_ask, during_refuse]
        refine ⟨during_sound sound' t _ _ next [] none_gone [], ?_⟩
        intro _ _
        have here : h.nextPtr = (h.refuse t).nextPtr := rfl
        rw [here, ledger_storeEvent t e _ during_buffer, during_setBuffer, Prog.follows_bind]
        refine (releaseBefore_ledger sound' next kept (Nat.le_refl _) [] none_gone).mono
          fun h' _ released => ?_
        rw [List.take_length, List.nil_append] at released
        subst released
        have own : ∀ ev ∈ evs.reverse, ev ∈ evs := fun ev inside => List.mem_reverse.mp inside
        simp only [kfree, putCpu, call, Prog.call_bind, Prog.ret_bind, Prog.follows_call,
          ledger_allowed]
        refine ⟨during_sound sound' t _ _ next _ own [], ?_⟩
        intro _ _
        rw [ledger_kfree, during_free]
        refine ⟨during_sound sound' t _ _ next _ own _, ?_⟩
        intro _ _
        exact ⟨refused, evs.length + 1, evs, next, rfl⟩
      · -- The kernel grants: one more slot is filled, and the loop goes on.
        rw [during_creations] at answer
        let ev : PerfEvent := ⟨h.nextEvent + evs.length, counterAttr code, e.cpu, none⟩
        have next' : Next h.nextEvent (evs ++ [ev]) := next.append_one rfl
        have length : (evs ++ [ev]).length = evs.length + 1 := by
          rw [List.length_append, List.length_singleton]
        have granted : grants e evs.length (code :: codes) = grants e (evs.length + 1) codes := by
          simp [grants, answer]
        have onward := ih next' (held.append_one ev)
        rw [length, Nat.add_right_comm, ← granted] at onward
        rw [ledger_create_ptr, during_ask, during_make]
        refine ⟨during_sound sound t _ _ next' [] none_gone [], ?_⟩
        intro _ _
        rw [ledger_storeEvent t e _ during_buffer, during_setBuffer]
        exact ⟨during_sound sound t _ _ next' [] none_gone [], fun _ _ => onward⟩

/-- `init_perf_counters` in a fresh thread: a full buffer if the kernel has memory and
grants every event, and otherwise nothing but what was given back. -/
theorem initPerfCounters_ledger (sound : h.Sound) (fresh : h.Fresh t)
    (codes : List (BitVec 32)) (pid : Int) :
    (initPerfCounters codes pid).Follows (ledger t e)
      (fun h' made =>
        (e.kzallocFails = true ∧ made = none ∧ h' = h.refuse t) ∨
          e.kzallocFails = false ∧ AfterCreation h t codes.length (grants e 0 codes) h' made) h := by
  simp only [initPerfCounters, kzalloc, call, Prog.call_bind, Prog.ret_bind, Prog.follows_call,
    ledger_allowed]
  refine ⟨sound, ?_⟩
  intro p allocated
  have answer : p = if e.kzallocFails then none else some h.nextPtr := allocated
  cases fails : e.kzallocFails with
  | true =>
      rw [fails, if_pos rfl] at answer
      subst answer
      exact Or.inl ⟨rfl, rfl, rfl⟩
  | false =>
      rw [fails, if_neg Bool.false_ne_true] at answer
      subst answer
      have blank : Slots (fun _ => .null) [] := by
        intro i ev at_i
        cases at_i
      have begun := createCounters_ledger (t := t) (e := e) sound fresh.unassigned codes
        (next_nil h.nextEvent) blank
      rw [List.length_nil, Nat.zero_add] at begun
      rw [ledger_kzalloc_some, allocate_during fresh.unasked]
      refine ⟨during_sound sound t _ _ (next_nil _) [] (fun ev inside => inside) [],
        fun cpu got => ?_⟩
      obtain rfl : cpu = e.cpu := got
      exact begun.mono fun h' made after => Or.inr ⟨rfl, after⟩

end Loops

/-! ## One attempt to start a session -/

/-- What a write to the pid entry comes to: the text is rejected, no task has the pid, the
kernel has no memory or refuses an event, or a session starts. -/
inductive Attempt where
  | rejected
  | missing
  | starved (task : Task)
  | started (task : Task)
  deriving DecidableEq

/-- The task the attempt found. -/
def Attempt.found : Attempt → Option Task
  | .rejected | .missing => none
  | .starved task | .started task => some task

def Attempt.accepted : Attempt → Bool
  | .rejected => false
  | _ => true

def Attempt.hasStarted : Attempt → Bool
  | .started _ => true
  | _ => false

/-- The pid a write stores in `target_pid`. -/
def Env.parsed (e : Env) : Option Int :=
  if 12 ≤ e.userBuf.length ∨ e.copyFails = true then none
  else
    match kstrtoint (cstr (e.userBuf.take e.userBuf.length)) with
    | .error _ => none
    | .ok pid => some pid

def Env.attemptOn (e : Env) (pid : Int) : Attempt :=
  match e.findTask pid with
  | none => .missing
  | some task => if !e.kzallocFails && grants e 0 eventCodes then .started task else .starved task

def Env.attempt (e : Env) : Attempt :=
  match e.parsed with
  | none => .rejected
  | some pid => e.attemptOn pid

/-- What an attempt of thread `t` leaves of the holdings `h`. -/
structure Leaves (t : Tid) (attempt : Attempt) (h h' : Holdings) : Prop where
  sound : h'.Sound
  others : ∀ u, u ≠ t → h.Fresh u → h'.Fresh u
  gets : h'.gets = h.gets ++ attempt.found.toList
  puts : h'.puts = h.puts
  watched : h'.monitoredTask = if attempt.accepted then attempt.found else h.monitoredTask
  timer : h'.timerInitialised = (h.timerInitialised || attempt.hasStarted)
  spared : attempt.found = none → h'.perfData = h.perfData ∧ h'.buffers = h.buffers ∧
    h'.nextPtr = h.nextPtr ∧ h'.nextEvent = h.nextEvent ∧ h'.created = h.created ∧
    h'.released = h.released ∧ h'.freed = h.freed
  started : ∀ task, attempt = .started task → ∃ slots evs, Next h.nextEvent evs ∧
    evs.length = numEvents ∧ Slots slots evs ∧ h'.perfData = some h.nextPtr ∧
    h'.buffers = Function.update h.buffers h.nextPtr (some ⟨t, slots⟩) ∧
    h'.nextPtr = h.nextPtr + 1 ∧ h'.created = h.created ++ evs ∧ h'.released = h.released ∧
    h'.freed = h.freed
  starved : ∀ task, attempt = .starved task → h'.perfData = none

/-- Soundness depends on these fields only. -/
theorem sound_congr {h h' : Holdings} (sound : h.Sound) (perfData : h'.perfData = h.perfData)
    (dataSetter : h'.dataSetter = h.dataSetter) (refused : h'.refused = h.refused)
    (buffers : h'.buffers = h.buffers) (nextPtr : h'.nextPtr = h.nextPtr)
    (nextEvent : h'.nextEvent = h.nextEvent) (created : h'.created = h.created)
    (released : h'.released = h.released) : h'.Sound := by
  obtain ⟨published, assigned, made, gone⟩ := sound
  constructor
  · rw [perfData, dataSetter, refused, nextPtr]
    simpa only [Holdings.Complete, buffers, created, released] using published
  · rw [perfData, dataSetter, refused]
    exact assigned
  · rw [created, nextEvent]
    exact made
  · rw [released, nextEvent]
    exact gone

section Attempts

variable {h : Holdings} {t : Tid} {e : Env}

/-- `perf_data` is null after a failure, whatever the failure left. -/
theorem leaves_starved {task : Task} {h₂ : Holdings} (sound : h₂.Sound) (refused : t ∈ h₂.refused)
    (others : ∀ u, u ≠ t → h.Fresh u → h₂.Fresh u) (gets : h₂.gets = h.gets ++ [task])
    (puts : h₂.puts = h.puts) (watched : h₂.monitoredTask = some task)
    (timer : h₂.timerInitialised = h.timerInitialised) :
    Leaves t (.starved task) h (h₂.publish t none) where
  sound := unpublish_sound sound refused
  others := fun u other fresh => (others u other fresh).publish other none
  gets := gets
  puts := puts
  watched := watched
  timer := by
    show h₂.timerInitialised = (h.timerInitialised || false)
    rw [timer, Bool.or_false]
  spared := fun found => nomatch found
  started := fun _ other => nomatch other
  starved := fun _ _ => rfl

/-- Without a task only `monitored_task` changes. -/
theorem leaves_missing (sound : h.Sound) : Leaves t .missing h (h.watch t none) where
  sound := sound_congr sound rfl rfl rfl rfl rfl rfl rfl rfl
  others := fun _ _ fresh => ⟨fresh.unasked, fresh.unrefused, fresh.unassigned⟩
  gets := (List.append_nil _).symm
  puts := rfl
  watched := rfl
  timer := (Bool.or_false _).symm
  spared := fun _ => ⟨rfl, rfl, rfl, rfl, rfl, rfl, rfl⟩
  started := fun _ other => nomatch other
  starved := fun _ other => nomatch other

/-- The holdings once the task with the pid is watched and referenced. -/
def Holdings.look (h : Holdings) (t : Tid) (task : Task) : Holdings :=
  (h.watch t (some task)).get task

theorem look_sound (sound : h.Sound) (task : Task) : (h.look t task).Sound :=
  sound_congr sound rfl rfl rfl rfl rfl rfl rfl rfl

theorem look_fresh {u : Tid} (fresh : h.Fresh u) (task : Task) : (h.look t task).Fresh u :=
  ⟨fresh.unasked, fresh.unrefused, fresh.unassigned⟩

section Launch

variable {task : Task} {slots : Nat → EventPtr} {evs : List PerfEvent}

/-- The holdings once the buffer with all its events is in `perf_data`. -/
def Holdings.launch (h : Holdings) (t : Tid) (task : Task) (slots : Nat → EventPtr)
    (evs : List PerfEvent) : Holdings :=
  ((h.look t task).during t (some ⟨t, slots⟩) eventCodes.length evs [] []).publish t
    (some h.nextPtr)

theorem launch_sound (sound : h.Sound) (fresh : h.Fresh t) (task : Task)
    (next : Next h.nextEvent evs) (held : Slots slots evs) (full : evs.length = numEvents) :
    (h.launch t task slots evs).Sound :=
  publish_sound (look_sound sound task) fresh.unrefused eventCodes.length next held full

theorem leaves_started (sound : (h.launch t task slots evs).Sound) (next : Next h.nextEvent evs)
    (held : Slots slots evs) (full : evs.length = numEvents) :
    Leaves t (.started task) h { h.launch t task slots evs with timerInitialised := true } where
  sound := sound_congr sound rfl rfl rfl rfl rfl rfl rfl rfl
  others := by
    intro u other fresh
    have looked : (h.look t task).Fresh u := look_fresh fresh task
    have after := (looked.during other (some ⟨t, slots⟩) eventCodes.length evs [] []).publish other
      (some h.nextPtr)
    exact ⟨after.unasked, after.unrefused, after.unassigned⟩
  gets := rfl
  puts := rfl
  watched := rfl
  timer := (Bool.or_true _).symm
  spared := fun found => nomatch found
  started := fun _ _ => ⟨slots, evs, next, full, held, rfl, rfl, rfl, rfl, List.append_nil _,
    List.append_nil _⟩
  starved := fun _ other => nomatch other

end Launch

/-- How `init_perf_counters` can end for the task that was found. -/
theorem look_ends {pid : Int} {task : Task} (found : e.findTask pid = some task) (sound : h.Sound)
    (fresh : h.Fresh t) {h₂ : Holdings} {made : Option Ptr}
    (ended : (e.kzallocFails = true ∧ made = none ∧ h₂ = (h.look t task).refuse t) ∨
      e.kzallocFails = false ∧
        AfterCreation (h.look t task) t eventCodes.length (grants e 0 eventCodes) h₂ made) :
    (made = none ∧ h₂.Sound ∧ Leaves t (e.attemptOn pid) h (h₂.publish t none)) ∨
      ∃ slots evs, Next h.nextEvent evs ∧ Slots slots evs ∧ evs.length = numEvents ∧
        made = some h.nextPtr ∧ e.attemptOn pid = .started task ∧ h₂.Sound ∧
        h₂.publish t made = h.launch t task slots evs := by
  have sound₁ : (h.look t task).Sound := look_sound sound task
  have refused : t ∈ ((h.look t task).refuse t).refused := List.mem_cons_self
  have sound₂ : ((h.look t task).refuse t).Sound := refuse_sound sound₁ fresh.unassigned
  rcases ended with ⟨fails, rfl, rfl⟩ | ⟨allocates, after⟩
  · have outcome : e.attemptOn pid = .starved task := by simp [Env.attemptOn, found, fails]
    refine Or.inl ⟨rfl, sound₂, outcome ▸ leaves_starved sound₂ refused ?_ rfl rfl rfl rfl⟩
    exact fun u other fresh => (look_fresh fresh task).refuse other
  · cases made with
    | none =>
        obtain ⟨denied, asked, evs, next, rfl⟩ := after
        have outcome : e.attemptOn pid = .starved task := by
          simp [Env.attemptOn, found, allocates, denied]
        have sound₃ := during_sound sound₂ t none asked next evs.reverse
          (fun ev inside => List.mem_reverse.mp inside) [(h.look t task).nextPtr]
        refine Or.inl ⟨rfl, sound₃, outcome ▸ leaves_starved sound₃ refused ?_ rfl rfl rfl rfl⟩
        exact fun u other fresh => ((look_fresh fresh task).refuse other).during other ..
    | some q =>
        obtain ⟨granted, rfl, slots, evs, next, full, held, rfl⟩ := after
        have outcome : e.attemptOn pid = .started task := by
          simp [Env.attemptOn, found, allocates, granted]
        have sound₃ := during_sound sound₁ t (some ⟨t, slots⟩) eventCodes.length next [] nofun []
        exact Or.inr ⟨slots, evs, next, held, full, rfl, outcome, sound₃, rfl⟩

theorem startMonitoring_ledger (sound : h.Sound) (fresh : h.Fresh t) (pid : Int) :
    (startMonitoring eventCodes pid).Follows (ledger t e)
      (fun h' _ => Leaves t (e.attemptOn pid) h h') h := by
  have watching : ∀ task, (h.watch t task).Sound :=
    fun _ => sound_congr sound rfl rfl rfl rfl rfl rfl rfl rfl
  simp only [startMonitoring, pidTask, setMonitoredTask, getMonitoredTask, call, Prog.call_bind,
    Prog.ret_bind, Prog.follows_call, ledger_allowed, ledger_setMonitoredTask]
  refine ⟨sound, fun task found => ⟨sound, fun _ _ => ⟨watching task, ?_⟩⟩⟩
  intro watched same
  obtain rfl : task = e.findTask pid := found
  obtain rfl : watched = e.findTask pid := same
  cases found : e.findTask pid with
  | none =>
      have outcome : e.attemptOn pid = .missing := by simp [Env.attemptOn, found]
      rw [outcome]
      exact leaves_missing sound
  | some task =>
      simp only [getTaskStruct, call, Prog.call_bind, Prog.ret_bind, Prog.follows_call,
        ledger_allowed]
      refine ⟨watching _, ?_⟩
      intro again same
      obtain rfl : again = some task := same
      refine ⟨watching _, ?_⟩
      intro _ _
      rw [Prog.follows_bind]
      refine (initPerfCounters_ledger (h := h.look t task) (look_sound sound task)
        (look_fresh fresh task) eventCodes pid).mono fun h₂ made ended => ?_
      simp only [setPerfData, getPerfData, call, Prog.call_bind, Prog.ret_bind, Prog.follows_call,
        ledger_allowed, ledger_setPerfData]
      rcases look_ends found sound fresh ended with
        ⟨rfl, sound₂, leaves⟩ | ⟨slots, evs, next, held, full, rfl, outcome, sound₂, launched⟩
      · refine ⟨sound₂, fun _ _ => ⟨leaves.sound, ?_⟩⟩
        intro p same
        obtain rfl : p = none := same
        exact leaves
      · have sound₃ := launch_sound sound fresh task next held full
        rw [launched]
        refine ⟨sound₂, fun _ _ => ⟨sound₃, ?_⟩⟩
        intro p same
        obtain rfl : p = some h.nextPtr := same
        have leaves := leaves_started sound₃ next held full
        -- The timer is told nothing that the holdings record but that it is initialised.
        refine ⟨sound₃, fun _ _ => ⟨sound₃, fun _ _ => ⟨leaves.sound, fun _ _ => ⟨leaves.sound,
          fun _ _ => ⟨leaves.sound, fun _ _ => ?_⟩⟩⟩⟩⟩
        show Leaves t (e.attemptOn pid) h _
        rw [outcome]
        exact leaves

/-- **One `pid_write` in a fresh thread**, whatever happens between its calls. -/
theorem pidWrite_ledger (sound : h.Sound) (fresh : h.Fresh t) :
    (pidWrite e.userBuf.length).Follows (ledger t e) (fun h' _ => Leaves t e.attempt h h') h := by
  have rejected : e.parsed = none → Leaves t e.attempt h h := by
    intro unparsed
    rw [Env.attempt, unparsed]
    exact {
      sound := sound
      others := fun _ _ fresh => fresh
      gets := (List.append_nil _).symm
      puts := rfl
      watched := rfl
      timer := (Bool.or_false _).symm
      spared := fun _ => ⟨rfl, rfl, rfl, rfl, rfl, rfl, rfl⟩
      started := fun _ other => nomatch other
      starved := fun _ other => nomatch other }
  unfold pidWrite
  by_cases long : 12 ≤ e.userBuf.length
  · rw [if_pos long]
    exact rejected (if_pos (Or.inl long))
  · rw [if_neg long]
    simp only [copyFromUser, call, Prog.call_bind, Prog.ret_bind, Prog.follows_call, ledger_allowed]
    refine ⟨sound, ?_⟩
    intro copied same
    obtain rfl : copied = if e.copyFails then none else some (e.userBuf.take e.userBuf.length) :=
      same
    by_cases fails : e.copyFails = true
    · rw [if_pos fails]
      exact rejected (if_pos (Or.inr fails))
    · rw [if_neg fails]
      have text : e.parsed = match kstrtoint (cstr (e.userBuf.take e.userBuf.length)) with
          | .error _ => none
          | .ok pid => some pid := if_neg (not_or.mpr ⟨long, fails⟩)
      dsimp only
      cases converted : kstrtoint (cstr (e.userBuf.take e.userBuf.length)) with
      | error err =>
          rw [converted] at text
          exact rejected text
      | ok pid =>
          rw [converted] at text
          have attempt : e.attempt = e.attemptOn pid := by rw [Env.attempt, text]
          simp only [setTargetPid, getTargetPid, call, Prog.call_bind, Prog.ret_bind,
            Prog.follows_call, ledger_allowed, ledger_setTargetPid]
          have sound' : Holdings.Sound { h with targetPid := pid } :=
            sound_congr sound rfl rfl rfl rfl rfl rfl rfl rfl
          have fresh' : ∀ {u}, h.Fresh u → Holdings.Fresh { h with targetPid := pid } u :=
            fun fresh => ⟨fresh.unasked, fresh.unrefused, fresh.unassigned⟩
          refine ⟨sound, fun _ _ => ⟨sound', ?_⟩⟩
          intro stored same
          obtain rfl : stored = pid := same
          rw [attempt, Prog.follows_bind]
          apply (startMonitoring_ledger sound' (fresh' fresh) stored).mono
          intro h' _ leaves
          have others := fun u other fresh => leaves.others u other (fresh' fresh)
          exact ⟨leaves.sound, others, leaves.gets, leaves.puts, leaves.watched, leaves.timer,
            leaves.spared, leaves.started, leaves.starved⟩

end Attempts

end Dreamscape.MonitorV2
