/-
# MonitorV2.Allocation -- init_perf_counters and cleanup_perf_counters, run alone

For a table of event codes of any length.  The creation loop goes through the states
`building`: the new buffer with the events of the codes done so far.  From there it
either fails at the next code, and gives back these events, the last first, and the
buffer, or comes to the end of the table.
-/
import Dreamscape.MonitorV2.Attempt

namespace Dreamscape.MonitorV2

set_option autoImplicit false

open Theory Kernel

/-! ## Resources -/

/-- The kernel numbers what it hands out: nothing the module has known carries a number
still to come. -/
structure Holdings.Numbered (h : Holdings) : Prop where
  created : ∀ ev ∈ h.created, ev.id < h.nextEvent
  released : ∀ ev ∈ h.released, ev.id < h.nextEvent
  buffers : ∀ p, h.nextPtr ≤ p → h.buffers p = none

theorem numbered_initial : Holdings.initial.Numbered where
  created := fun _ inside => absurd inside List.not_mem_nil
  released := fun _ inside => absurd inside List.not_mem_nil
  buffers := fun _ _ => rfl

/-- An event that was created and not released. -/
def Holdings.Live (h : Holdings) (ev : PerfEvent) : Prop := ev ∈ h.created ∧ ev ∉ h.released

/-- The same events are live and the same buffers allocated. -/
structure SameResources (h h' : Holdings) : Prop where
  events : ∀ ev, h'.Live ev ↔ h.Live ev
  buffers : h'.buffers = h.buffers

/-! ## The creation loop -/

/-- The events created for `codes` on a CPU, the first of them with number `n`. -/
def eventsFor (n cpu : Nat) (codes : List (BitVec 32)) : List PerfEvent :=
  codes.mapIdx fun i code => ⟨n + i, counterAttr code, cpu, none⟩

@[simp] theorem eventsFor_length (n cpu : Nat) (codes : List (BitVec 32)) :
    (eventsFor n cpu codes).length = codes.length := by
  simp [eventsFor]

theorem eventsFor_append_one (n cpu : Nat) (codes : List (BitVec 32)) (code : BitVec 32) :
    eventsFor n cpu (codes ++ [code]) =
      eventsFor n cpu codes ++ [⟨n + codes.length, counterAttr code, cpu, none⟩] := by
  simp [eventsFor, List.mapIdx_append]

theorem eventsFor_next (n cpu : Nat) (codes : List (BitVec 32)) : Next n (eventsFor n cpu codes) := by
  induction codes using List.reverseRecOn with
  | nil => exact next_nil n
  | append_singleton codes code ih =>
      rw [eventsFor_append_one]
      exact ih.append_one (by rw [eventsFor_length])

/-- The machine when thread `t` has created the events for `codes` in its new buffer, with
preemption off. -/
def State.building (s : State) (t : Tid) (e : Env) (codes : List (BitVec 32))
    (slots : Nat → EventPtr) (births : Nat → Nat) : State :=
  { s with
    holdings := s.holdings.during t (some ⟨t, slots⟩) (s.holdings.creations t + codes.length)
      (eventsFor s.holdings.nextEvent e.cpu codes) [] []
    births := births
    prevValues := Function.update s.prevValues s.holdings.nextPtr fun _ => 0
    preemptCount := Function.update s.preemptCount t (s.preemptCount t + 1) }

/-- The answer to the creation for the code after `codes`. -/
def State.answer (s : State) (t : Tid) (e : Env) (codes : List (BitVec 32)) (code : BitVec 32) :
    Option Int :=
  e.create (s.holdings.creations t + codes.length) (counterAttr code) e.cpu none

theorem during_nextEvent {h : Holdings} {t : Tid} {buf : Option Buffer} {asked : Nat}
    {evs gone : List PerfEvent} {freed : List Ptr} :
    (h.during t buf asked evs gone freed).nextEvent = h.nextEvent + evs.length := rfl

theorem during_released {h : Holdings} {t : Tid} {buf : Option Buffer} {asked : Nat}
    {evs gone : List PerfEvent} {freed : List Ptr} :
    (h.during t buf asked evs gone freed).released = h.released ++ gone := rfl

section Loops

variable {s : State} {t : Tid} {e : Env}

theorem allocate_eq_during (h : Holdings) :
    h.allocate t = h.during t (some ⟨t, fun _ => .null⟩) (h.creations t) [] [] [] := by
  simp [Holdings.allocate, Holdings.setBuffer, Holdings.during]

theorem initPerfCounters_begin (codes : List (BitVec 32)) (pid : Int)
    (memory : e.kzallocFails = false) :
    (initPerfCounters codes pid).exec (kernel t e) s =
      (createCounters s.holdings.nextPtr e.cpu codes 0).exec (kernel t e)
        (s.building t e [] (fun _ => .null) s.births) := by
  simp only [initPerfCounters, kzalloc, getCpu, call, Prog.call_bind, Prog.ret_bind, Prog.exec_call,
    kernel, memory, Bool.false_eq_true, if_false, Outcome.bind_done, allocate_eq_during]
  rfl

/-- A granted event takes its slot, and the loop goes on. -/
theorem createCounters_granted {done : List (BitVec 32)} {code : BitVec 32} (rest : List (BitVec 32))
    {slots : Nat → EventPtr} (births : Nat → Nat) (granted : s.answer t e done code = none)
    (held : Slots slots (eventsFor s.holdings.nextEvent e.cpu done)) :
    ∃ slots' births', Slots slots' (eventsFor s.holdings.nextEvent e.cpu (done ++ [code])) ∧
      (createCounters s.holdings.nextPtr e.cpu (code :: rest) done.length).exec (kernel t e)
          (s.building t e done slots births) =
        (createCounters s.holdings.nextPtr e.cpu rest (done ++ [code]).length).exec (kernel t e)
          (s.building t e (done ++ [code]) slots' births') := by
  let ev : PerfEvent := ⟨s.holdings.nextEvent + done.length, counterAttr code, e.cpu, none⟩
  have held' := held.append_one ev
  rw [eventsFor_length] at held'
  refine ⟨Function.update slots done.length (.ptr ev), Function.update births ev.id s.log.length,
    ?_, ?_⟩
  · rw [eventsFor_append_one]
    exact held'
  · have zero : Function.update (fun _ => (0 : U64)) done.length 0 = fun _ => 0 := by
      funext i
      by_cases here : i = done.length <;> simp [here]
    have answer : e.create (s.holdings.creations t + done.length) (counterAttr code) e.cpu none =
        none := granted
    simp only [createCounters, perfEventCreateKernelCounter, storeEvent, storePrev, call,
      Prog.call_bind, Prog.ret_bind, Prog.exec_call, kernel, State.building, State.holding,
      State.onBuffer, during_creations, answer, Outcome.bind_done, during_ask, during_make,
      during_buffer, during_setBuffer, during_nextEvent, eventsFor_length, eventsFor_append_one,
      List.length_append, List.length_singleton, Function.update_self, Function.update_idem, zero,
      Nat.add_assoc, ev]

/-- The loop over codes that are all granted. -/
theorem createCounters_prefix (done granted rest : List (BitVec 32)) {slots : Nat → EventPtr}
    (births : Nat → Nat)
    (held : Slots slots (eventsFor s.holdings.nextEvent e.cpu done))
    (answers : ∀ before code after, granted = before ++ code :: after →
      s.answer t e (done ++ before) code = none) :
    ∃ slots' births', Slots slots' (eventsFor s.holdings.nextEvent e.cpu (done ++ granted)) ∧
      (createCounters s.holdings.nextPtr e.cpu (granted ++ rest) done.length).exec (kernel t e)
          (s.building t e done slots births) =
        (createCounters s.holdings.nextPtr e.cpu rest (done ++ granted).length).exec (kernel t e)
          (s.building t e (done ++ granted) slots' births') := by
  induction granted generalizing done slots births with
  | nil =>
      refine ⟨slots, births, ?_, ?_⟩ <;> rw [List.append_nil]
      · exact held
      · rfl
  | cons code granted ih =>
      have first : s.answer t e done code = none := by
        have answer := answers [] code granted rfl
        rwa [List.append_nil] at answer
      obtain ⟨slots₁, births₁, held₁, step⟩ :=
        createCounters_granted (granted ++ rest) births first held
      obtain ⟨slots₂, births₂, held₂, onward⟩ := ih _ births₁ held₁ fun before code' after split => by
        have answer := answers (code :: before) code' after (by rw [split, List.cons_append])
        rwa [List.append_cons] at answer
      rw [← List.append_cons] at held₂ onward
      exact ⟨slots₂, births₂, held₂, step.trans onward⟩

/-- `while (i > 0)`: the events in the slots below `i` are released, the last first. -/
theorem releaseBefore_exec {h : Holdings} {slots : Nat → EventPtr} {asked i : Nat}
    {evs gone : List PerfEvent} (at_ : s.holdings = h.during t (some ⟨t, slots⟩) asked evs gone [])
    (held : Slots slots evs) (bound : i ≤ evs.length) (distinct : evs.Nodup)
    (kept : ∀ ev ∈ evs.take i, ev ∉ h.released ++ gone) :
    (releaseBefore h.nextPtr i).exec (kernel t e) s =
      .done () (s.holding (h.during t (some ⟨t, slots⟩) asked evs (gone ++ (evs.take i).reverse) [])) := by
  induction i generalizing gone s with
  | zero =>
      rw [List.take_zero, List.reverse_nil, List.append_nil, ← at_]
      rfl
  | succ i ih =>
      have inside : i < evs.length := bound
      have at_i : evs[i]? = some evs[i] := List.getElem?_eq_getElem inside
      have order : (evs.take (i + 1)) = evs.take i ++ [evs[i]] := by
        rw [List.take_add_one, at_i, Option.toList_some]
      have here : slots i = .ptr evs[i] := held i _ at_i
      have alive : evs[i] ∉ h.released ++ gone := by
        apply kept
        rw [order]
        exact List.mem_append_right _ List.mem_cons_self
      have later : ∀ ev ∈ evs.take i, ev ∉ h.released ++ (gone ++ [evs[i]]) := by
        intro ev member released
        rw [← List.append_assoc] at released
        rcases List.mem_append.mp released with before | same
        · exact kept ev (by rw [order]; exact List.mem_append_left _ member) before
        · have apart := (List.nodup_append.mp (order ▸ distinct.sublist (List.take_sublist (i + 1) evs))).2.2
          exact apart ev member evs[i] List.mem_cons_self (List.mem_singleton.mp same)
      have onward := ih (s := s.holding (h.during t (some ⟨t, slots⟩) asked evs (gone ++ [evs[i]]) []))
        rfl (Nat.le_of_lt inside) later
      rw [order, List.reverse_append, List.reverse_singleton, ← List.append_assoc]
      simp only [releaseBefore, loadEvent, perfEventReleaseKernel, call, Prog.call_bind,
        Prog.ret_bind, Prog.exec_call, kernel, State.onBuffer, at_, during_buffer, Outcome.bind_done,
        here, State.onEvent, during_released, alive, if_false, during_release]
      rw [List.append_assoc gone, List.singleton_append] at onward ⊢
      exact onward

/-- The machine when the creation after `done` has been refused. -/
def State.refusing (s : State) (t : Tid) (e : Env) (done : List (BitVec 32))
    (slots : Nat → EventPtr) (births : Nat → Nat) : State :=
  { s.building t e done slots births with
    holdings := (s.holdings.refuse t).during t (some ⟨t, slots⟩)
      (s.holdings.creations t + done.length + 1) (eventsFor s.holdings.nextEvent e.cpu done) [] [] }

/-- The machine when the creation after `done` was refused and all was given back. -/
def State.gaveBack (s : State) (t : Tid) (e : Env) (done : List (BitVec 32)) (births : Nat → Nat) :
    State :=
  { s with
    holdings := (s.holdings.refuse t).during t none (s.holdings.creations t + done.length + 1)
      (eventsFor s.holdings.nextEvent e.cpu done) (eventsFor s.holdings.nextEvent e.cpu done).reverse
      [s.holdings.nextPtr]
    births := births
    prevValues := Function.update s.prevValues s.holdings.nextPtr fun _ => 0 }

/-- New events were never released. -/
theorem eventsFor_fresh (numbered : ∀ ev ∈ s.holdings.released, ev.id < s.holdings.nextEvent)
    (codes : List (BitVec 32)) :
    ∀ ev ∈ eventsFor s.holdings.nextEvent e.cpu codes, ev ∉ s.holdings.released := by
  intro ev inside released
  have low := numbered ev released
  have high := ((eventsFor_next s.holdings.nextEvent e.cpu codes).bounds inside).1
  omega

/-- A refused event sends the loop back. -/
theorem createCounters_refused
    (numbered : ∀ ev ∈ s.holdings.released, ev.id < s.holdings.nextEvent) {done : List (BitVec 32)}
    {code : BitVec 32} (rest : List (BitVec 32)) {slots : Nat → EventPtr} {births : Nat → Nat}
    (held : Slots slots (eventsFor s.holdings.nextEvent e.cpu done))
    (refused : s.answer t e done code ≠ none) :
    (createCounters s.holdings.nextPtr e.cpu (code :: rest) done.length).exec (kernel t e)
        (s.building t e done slots births) = .done none (s.gaveBack t e done births) := by
  obtain ⟨err, answer⟩ := Option.ne_none_iff_exists'.mp refused
  replace answer : e.create (s.holdings.creations t + done.length) (counterAttr code) e.cpu none =
    some err := answer
  have held' : Slots (Function.update slots done.length (.err err))
      (eventsFor s.holdings.nextEvent e.cpu done) := by
    intro i ev at_i
    have bound : i < (eventsFor s.holdings.nextEvent e.cpu done).length :=
      (List.getElem?_eq_some_iff.mp at_i).1
    rw [eventsFor_length] at bound
    rw [Function.update_of_ne (Nat.ne_of_lt bound)]
    exact held i ev at_i
  have kept : ∀ ev ∈ (eventsFor s.holdings.nextEvent e.cpu done).take done.length,
      ev ∉ (s.holdings.refuse t).released ++ [] := by
    intro ev inside
    rw [List.append_nil]
    exact eventsFor_fresh numbered done ev (List.mem_of_mem_take inside)
  have back := releaseBefore_exec (t := t) (e := e) (h := s.holdings.refuse t) (i := done.length)
    (s := s.refusing t e done (Function.update slots done.length (.err err)) births)
    rfl held' (Nat.le_of_eq (eventsFor_length ..).symm)
    (eventsFor_next s.holdings.nextEvent e.cpu done).nodup kept
  rw [← eventsFor_length s.holdings.nextEvent e.cpu done, List.take_length, List.nil_append,
    eventsFor_length] at back
  -- The refusal changes neither the pointer nor the buffer behind it.
  have found : ∀ buf asked evs gone freed, ((s.holdings.refuse t).during t buf asked evs gone
      freed).buffers s.holdings.nextPtr = buf := fun _ _ _ _ _ => during_buffer
  have stored : ∀ buf asked evs gone freed other, ((s.holdings.refuse t).during t buf asked evs gone
      freed).setBuffer s.holdings.nextPtr other =
        (s.holdings.refuse t).during t other asked evs gone freed := fun _ _ _ _ _ => during_setBuffer
  have freed : ∀ buf asked evs gone, ((s.holdings.refuse t).during t buf asked evs gone []).free
      s.holdings.nextPtr = (s.holdings.refuse t).during t none asked evs gone [s.holdings.nextPtr] :=
    fun _ _ _ _ => during_free
  simp only [createCounters, perfEventCreateKernelCounter, storeEvent, call, Prog.call_bind,
    Prog.ret_bind, Prog.exec_call, kernel, State.building, State.holding, State.onBuffer,
    during_creations, answer, Outcome.bind_done, during_ask, during_refuse, found, stored]
  rw [Prog.exec_bind]
  show ((releaseBefore (s.holdings.refuse t).nextPtr done.length).exec (kernel t e)
    (s.refusing t e done (Function.update slots done.length (.err err)) births)).bind _ = _
  rw [back]
  simp only [kfree, putCpu, call, Prog.call_bind, Prog.ret_bind, Prog.exec_call, kernel,
    State.onBuffer, State.holding, State.refusing, State.building, found, freed, Outcome.bind_done,
    Function.update_self, Function.update_idem, Nat.add_sub_cancel, Function.update_eq_self]
  rfl

/-- The loop of `cleanup_perf_counters` over slots that hold `evs`. -/
theorem releaseCounters_exec {p : Ptr} {buf : Buffer} (at_p : s.holdings.buffers p = some buf)
    {slots : List Nat} {evs : List PerfEvent}
    (held : List.Forall₂ (fun i ev => buf.events i = .ptr ev) slots evs) (distinct : evs.Nodup)
    (live : ∀ ev ∈ evs, ev ∉ s.holdings.released) :
    (releaseCounters p slots).exec (kernel t e) s =
      .done () (s.holding { s.holdings with released := s.holdings.released ++ evs }) := by
  induction held generalizing s with
  | nil => simp [releaseCounters, State.holding]
  | @cons i ev slots evs at_i rest ih =>
      have alive : ev ∉ s.holdings.released := live ev List.mem_cons_self
      have onward := ih (s := s.holding (s.holdings.release ev)) at_p distinct.of_cons
        fun other inside released => by
          rcases List.mem_append.mp released with before | now
          · exact live other (List.mem_cons_of_mem ev inside) before
          · rw [List.mem_singleton.mp now] at inside
            exact (List.nodup_cons.mp distinct).1 inside
      simp only [releaseCounters, loadEvent, perfEventReleaseKernel, call, Prog.call_bind,
        Prog.ret_bind, Prog.exec_call, kernel, State.onBuffer, at_p, at_i, Outcome.bind_done]
      simp only [ne_eq, reduceCtorEq, not_false_eq_true, if_true,
        Prog.exec_call, kernel, State.onEvent, alive, if_false, Outcome.bind_done]
      rw [onward]
      simp [State.holding, Holdings.release]

/-- The holdings once the buffer at `p` and its events have been given back. -/
def Holdings.giveBack (h : Holdings) (p : Ptr) (evs : List PerfEvent) : Holdings :=
  Holdings.free { h with released := h.released ++ evs } p

theorem cleanup_exec {p : Ptr} {buf : Buffer} (at_p : s.holdings.buffers p = some buf)
    {evs : List PerfEvent} {codes : List (BitVec 32)} (held : Slots buf.events evs)
    (full : evs.length = codes.length) (distinct : evs.Nodup)
    (live : ∀ ev ∈ evs, ev ∉ s.holdings.released) :
    (cleanupPerfCounters codes (some p)).exec (kernel t e) s =
      .done () (s.holding (s.holdings.giveBack p evs)) := by
  have paired : List.Forall₂ (fun i ev => buf.events i = .ptr ev) (List.range evs.length) evs := by
    rw [List.forall₂_iff_get]
    refine ⟨List.length_range, ?_⟩
    intro i _ bound
    have at_i : evs[i]? = some evs[i] := List.getElem?_eq_getElem bound
    simpa using held i evs[i] at_i
  simp only [cleanupPerfCounters, ← full, Prog.exec_bind,
    releaseCounters_exec at_p paired distinct live, Outcome.bind_done]
  simp [kernel, State.onBuffer, State.holding, at_p, Holdings.giveBack]

end Loops

/-! ## All or nothing -/

/-- Every event of the table is granted. -/
def State.Granted (s : State) (t : Tid) (e : Env) (codes : List (BitVec 32)) : Prop :=
  ∀ before code after, codes = before ++ code :: after → s.answer t e before code = none

/-- Everything taken from `s` was given back: the events created for `done`, each once, and
the buffer. -/
structure GivenBack (s : State) (e : Env) (done : List (BitVec 32)) (s' : State) : Prop where
  created : s'.holdings.created = s.holdings.created ++ eventsFor s.holdings.nextEvent e.cpu done
  released : s'.holdings.released =
    s.holdings.released ++ (eventsFor s.holdings.nextEvent e.cpu done).reverse
  freed : s'.holdings.freed = s.holdings.freed ++ [s.holdings.nextPtr]
  preempt : s'.preemptCount = s.preemptCount
  resources : SameResources s.holdings s'.holdings

/-- `p` is a new buffer with a live event for each code, in order, and no values yet. -/
structure Filled (s : State) (e : Env) (codes : List (BitVec 32)) (p : Ptr) (s' : State) : Prop where
  fresh : s.holdings.buffers p = none
  created : s'.holdings.created = s.holdings.created ++ eventsFor s.holdings.nextEvent e.cpu codes
  released : s'.holdings.released = s.holdings.released
  freed : s'.holdings.freed = s.holdings.freed
  slots : ∃ buf, s'.holdings.buffers p = some buf ∧
    Slots buf.events (eventsFor s.holdings.nextEvent e.cpu codes)
  live : ∀ ev ∈ eventsFor s.holdings.nextEvent e.cpu codes, s'.holdings.Live ev
  values : ∀ i, s'.prevValues p i = 0
  preempt : s'.preemptCount = s.preemptCount

/-- After the clean-up the events of the table have been released, each once, and `p` freed. -/
structure CleanedUp (s : State) (e : Env) (codes : List (BitVec 32)) (p : Ptr) (s' : State) : Prop where
  released : s'.holdings.released =
    s.holdings.released ++ eventsFor s.holdings.nextEvent e.cpu codes
  freed : s'.holdings.freed = s.holdings.freed ++ [p]
  preempt : s'.preemptCount = s.preemptCount
  resources : SameResources s.holdings s'.holdings

section Whole

variable {s : State} {t : Tid} {e : Env} {codes : List (BitVec 32)}

theorem initPerfCounters_starved (starved : e.kzallocFails = true) (codes : List (BitVec 32))
    (pid : Int) :
    (initPerfCounters codes pid).exec (kernel t e) s = .done none (s.holding (s.holdings.refuse t)) := by
  simp [initPerfCounters, kernel, starved]

theorem initPerfCounters_refused
    (numbered : ∀ ev ∈ s.holdings.released, ev.id < s.holdings.nextEvent) (memory : e.kzallocFails = false)
    {done : List (BitVec 32)} {code : BitVec 32} (rest : List (BitVec 32))
    (granted : s.Granted t e done) (refused : s.answer t e done code ≠ none) (pid : Int) :
    ∃ births, (initPerfCounters (done ++ code :: rest) pid).exec (kernel t e) s =
      .done none (s.gaveBack t e done births) := by
  have blank : Slots (fun _ => .null) (eventsFor s.holdings.nextEvent e.cpu []) := nofun
  obtain ⟨slots, births, held, run⟩ := createCounters_prefix [] done (t := t) (code :: rest)
    s.births blank granted
  rw [List.nil_append] at held run
  refine ⟨births, ?_⟩
  rw [initPerfCounters_begin _ _ memory]
  exact run.trans (createCounters_refused numbered rest held refused)

/-- The machine when the whole table is granted. -/
def State.built (s : State) (t : Tid) (e : Env) (codes : List (BitVec 32)) (slots : Nat → EventPtr)
    (births : Nat → Nat) : State :=
  { s.building t e codes slots births with preemptCount := s.preemptCount }

theorem initPerfCounters_granted (memory : e.kzallocFails = false) (granted : s.Granted t e codes)
    (pid : Int) :
    ∃ slots births, Slots slots (eventsFor s.holdings.nextEvent e.cpu codes) ∧
      (initPerfCounters codes pid).exec (kernel t e) s =
        .done (some s.holdings.nextPtr) (s.built t e codes slots births) := by
  have blank : Slots (fun _ => .null) (eventsFor s.holdings.nextEvent e.cpu []) := nofun
  obtain ⟨slots, births, held, run⟩ := createCounters_prefix [] codes (t := t) [] s.births
    blank granted
  rw [List.nil_append, List.append_nil] at run
  rw [List.nil_append] at held
  refine ⟨slots, births, held, ?_⟩
  rw [initPerfCounters_begin _ _ memory]
  refine run.trans ?_
  simp only [createCounters, putCpu, call, Prog.call_bind, Prog.ret_bind, Prog.exec_call, kernel,
    Outcome.bind_done, State.building, Function.update_self, Function.update_idem,
    Nat.add_sub_cancel, Function.update_eq_self]
  rfl

theorem eventsFor_unmade (numbered : s.holdings.Numbered) (codes : List (BitVec 32)) :
    ∀ ev ∈ eventsFor s.holdings.nextEvent e.cpu codes, ev ∉ s.holdings.created := by
  intro ev inside created
  have low := numbered.created ev created
  have high := ((eventsFor_next s.holdings.nextEvent e.cpu codes).bounds inside).1
  omega

/-- Events that were created and released leave the live ones as they were. -/
theorem live_round_trip {h : Holdings} {evs gone : List PerfEvent}
    (unmade : ∀ ev ∈ evs, ev ∉ h.created) (same : ∀ ev, ev ∈ gone ↔ ev ∈ evs) (ev : PerfEvent) :
    (ev ∈ h.created ++ evs ∧ ev ∉ h.released ++ gone) ↔ h.Live ev := by
  simp only [List.mem_append, same, Holdings.Live]
  constructor
  · rintro ⟨made, kept⟩
    exact ⟨made.resolve_right fun new => kept (Or.inr new), fun released => kept (Or.inl released)⟩
  · rintro ⟨made, kept⟩
    refine ⟨Or.inl made, ?_⟩
    rintro (released | new)
    · exact kept released
    · exact unmade ev new made

/-- A buffer that was allocated and freed leaves the others as they were. -/
theorem buffers_round_trip (numbered : s.holdings.Numbered) (buf : Option Buffer) :
    Function.update (Function.update s.holdings.buffers s.holdings.nextPtr buf) s.holdings.nextPtr
      none = s.holdings.buffers := by
  rw [Function.update_idem, ← numbered.buffers s.holdings.nextPtr (Nat.le_refl _),
    Function.update_eq_self]

theorem gaveBack_givenBack (numbered : s.holdings.Numbered) (done : List (BitVec 32))
    (births : Nat → Nat) : GivenBack s e done (s.gaveBack t e done births) where
  created := rfl
  released := rfl
  freed := rfl
  preempt := rfl
  resources := by
    refine ⟨live_round_trip (eventsFor_unmade numbered done) fun ev => List.mem_reverse, ?_⟩
    rw [← buffers_round_trip numbered none, Function.update_idem]
    rfl

theorem built_filled (numbered : s.holdings.Numbered) {slots : Nat → EventPtr}
    (held : Slots slots (eventsFor s.holdings.nextEvent e.cpu codes)) (births : Nat → Nat) :
    Filled s e codes s.holdings.nextPtr (s.built t e codes slots births) where
  fresh := numbered.buffers _ (Nat.le_refl _)
  created := rfl
  released := List.append_nil _
  freed := List.append_nil _
  slots := ⟨⟨t, slots⟩, during_buffer, held⟩
  live := by
    intro ev inside
    refine ⟨List.mem_append_right _ inside, ?_⟩
    intro released
    rw [State.built, State.building, during_released, List.append_nil] at released
    exact eventsFor_fresh numbered.released codes ev inside released
  values := by
    intro i
    show Function.update s.prevValues s.holdings.nextPtr (fun _ => 0) s.holdings.nextPtr i = 0
    rw [Function.update_self]
  preempt := rfl

/-- The clean-up of a filled buffer undoes the creation. -/
theorem cleanup_inverse (numbered : s.holdings.Numbered) {p : Ptr} {s' : State}
    (filled : Filled s e codes p s') (only : ∀ q, q ≠ p → s'.holdings.buffers q = s.holdings.buffers q)
    (u : Tid) (e' : Env) :
    ∃ s'', (cleanupPerfCounters codes (some p)).exec (kernel u e') s' = .done () s'' ∧
      CleanedUp s e codes p s'' := by
  obtain ⟨buf, at_p, held⟩ := filled.slots
  have run := cleanup_exec (t := u) (e := e') at_p held
    (eventsFor_length s.holdings.nextEvent e.cpu codes)
    (eventsFor_next s.holdings.nextEvent e.cpu codes).nodup fun ev inside => (filled.live ev inside).2
  refine ⟨_, run, ?_, ?_, filled.preempt, ?_, ?_⟩
  · exact congrArg (· ++ _) filled.released
  · exact congrArg (· ++ [p]) filled.freed
  · intro ev
    show (ev ∈ s'.holdings.created ∧ ev ∉ s'.holdings.released ++ _) ↔ _
    rw [filled.created, filled.released]
    exact live_round_trip (eventsFor_unmade numbered codes) (fun _ => Iff.rfl) ev
  · funext q
    by_cases here : q = p
    · subst here
      exact (Function.update_self ..).trans filled.fresh.symm
    · exact (Function.update_of_ne here ..).trans (only q here)

/-- **All or nothing**: `init_perf_counters` on a table of any length either leaves the
resources as they were, with every event it created released once, or fills a buffer that
`cleanup_perf_counters` gives back completely. -/
theorem initPerfCounters_all_or_nothing (numbered : s.holdings.Numbered) (codes : List (BitVec 32))
    (pid : Int) :
    (∀ done, (eventsFor s.holdings.nextEvent e.cpu done).Nodup ∧
      ∀ ev ∈ eventsFor s.holdings.nextEvent e.cpu done, ev ∉ s.holdings.created) ∧
    (e.kzallocFails = true →
      ∃ s', (initPerfCounters codes pid).exec (kernel t e) s = .done none s' ∧
        SameResources s.holdings s'.holdings ∧ s'.preemptCount = s.preemptCount) ∧
    (e.kzallocFails = false → ∀ done code rest, codes = done ++ code :: rest →
      s.Granted t e done → s.answer t e done code ≠ none →
      ∃ s', (initPerfCounters codes pid).exec (kernel t e) s = .done none s' ∧
        GivenBack s e done s') ∧
    (e.kzallocFails = false → s.Granted t e codes →
      ∃ p s', (initPerfCounters codes pid).exec (kernel t e) s = .done (some p) s' ∧
        Filled s e codes p s' ∧
        ∀ u e', ∃ s'', (cleanupPerfCounters codes (some p)).exec (kernel u e') s' = .done () s'' ∧
          CleanedUp s e codes p s'') := by
  refine ⟨fun done => ⟨(eventsFor_next _ _ done).nodup, eventsFor_unmade numbered done⟩, ?_, ?_, ?_⟩
  · intro starved
    exact ⟨_, initPerfCounters_starved starved codes pid, ⟨fun _ => Iff.rfl, rfl⟩, rfl⟩
  · rintro memory done code rest rfl granted refused
    obtain ⟨births, run⟩ :=
      initPerfCounters_refused numbered.released memory rest granted refused pid
    exact ⟨_, run, gaveBack_givenBack numbered done births⟩
  · intro memory granted
    obtain ⟨slots, births, held, run⟩ := initPerfCounters_granted memory granted pid
    have filled := built_filled (t := t) numbered held births
    refine ⟨_, _, run, filled, cleanup_inverse numbered filled ?_⟩
    intro q other
    exact Function.update_of_ne other ..

end Whole

/-- The module's own table, on a machine that grants everything. -/
theorem initPerfCounters_quiet :
    ∃ p s', (initPerfCounters eventCodes 5).exec (kernel 0 .quiet) .initial = .done (some p) s' ∧
      Filled .initial .quiet eventCodes p s' ∧
      ∀ u e', ∃ s'', (cleanupPerfCounters eventCodes (some p)).exec (kernel u e') s' = .done () s'' ∧
        CleanedUp .initial .quiet eventCodes p s'' :=
  (initPerfCounters_all_or_nothing numbered_initial eventCodes 5).2.2.2 rfl fun _ _ _ _ => rfl

end Dreamscape.MonitorV2
