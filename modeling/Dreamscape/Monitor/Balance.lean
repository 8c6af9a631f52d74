/-
# Monitor.Balance -- performance events, in every interleaving

An invocation creates its events in one loop and reads and releases them in a second
one.  A refusal returns from the first loop, past the second: whatever was created
before it stays alive.  So the events balance exactly when every refusal hits the
first creation of its invocation (`event_balance_iff`).
-/
import Dreamscape.Monitor.Discipline

namespace Dreamscape.Monitor

set_option autoImplicit false

open Theory Kernel

/-! ## The protocol -/

/-- The events a thread created and released so far, in order, and whether one was
refused to it. -/
structure Ledger where
  created : List PerfEvent
  released : List PerfEvent
  refused : Bool

/-- A thread releases only events of its own that are still alive, and makes no call
after an event was refused. -/
def eventProtocol : Protocol sig Ledger where
  allowed o r :=
    r.refused = false ∧
      match o with
      | .perfEventReleaseKernel ev => ev ∈ r.created ∧ ev ∉ r.released
      | _ => True
  possible o a r :=
    match o, a with
    | .perfEventCreateKernelCounter .., .ok ev => ev ∉ r.created
    | _, _ => True
  next o a r :=
    match o, a with
    | .perfEventCreateKernelCounter .., .ok ev => { r with created := r.created ++ [ev] }
    | .perfEventCreateKernelCounter .., .error _ => { r with refused := true }
    | .perfEventReleaseKernel ev, _ => { r with released := r.released ++ [ev] }
    | _, _ => r

/-- A thread returns with its events released, or, after a refusal, with none of them
released. -/
structure ReturnsEvents (r : Ledger) (_ : Int) : Prop where
  distinct : r.created.Nodup
  settled : r.refused = false → r.released = r.created
  leaked : r.refused = true → r.released = []

def Ledger.empty : Ledger := ⟨[], [], false⟩

theorem returns_settled {evs : List PerfEvent} (distinct : evs.Nodup) (a : Int) :
    ReturnsEvents ⟨evs, evs, false⟩ a :=
  ⟨distinct, fun _ => rfl, fun refused => nomatch refused⟩

/-- The call neither creates nor releases an event. -/
def Op.Eventless (o : Op) : Prop := o.Plain ∨ o = .mutexLock ∨ o = .mutexUnlock

theorem event_harmless {r : Ledger} (granted : r.refused = false) (o : Op)
    (eventless : o.Eventless) :
    eventProtocol.allowed o r ∧ ∀ a, eventProtocol.next o a r = r := by
  rcases eventless with plain | rfl | rfl
  · cases o <;> first | exact plain.elim | exact ⟨⟨granted, trivial⟩, fun a => rfl⟩
  · exact ⟨⟨granted, trivial⟩, fun a => rfl⟩
  · exact ⟨⟨granted, trivial⟩, fun a => rfl⟩

/-- After the creation loop nothing is released; without a refusal the returned events
are the created ones. -/
def CreatedEvents (r : Ledger) (made : Except Int (List PerfEvent)) : Prop :=
  r.created.Nodup ∧ r.released = [] ∧
    match made with
    | .error _ => r.refused = true
    | .ok evs => r.refused = false ∧ r.created = evs

theorem createEvents_balance (pid : Nat) (codes : List (BitVec 32)) {events : List PerfEvent}
    (distinct : events.Nodup) :
    (createEvents pid codes events).Follows eventProtocol CreatedEvents ⟨events, [], false⟩ := by
  induction codes generalizing events with
  | nil => exact ⟨distinct, rfl, rfl, rfl⟩
  | cons code codes ih =>
      simp only [createEvents, perfEventCreateKernelCounter, call, Prog.call_bind, Prog.ret_bind,
        Prog.follows_call]
      refine ⟨⟨rfl, trivial⟩, ?_⟩
      intro made fresh
      cases made with
      | error err => exact ⟨distinct, rfl, rfl⟩
      | ok ev =>
          have unused : ev ∉ events := fresh
          apply ih
          rw [List.nodup_append]
          refine ⟨distinct, List.nodup_singleton ev, ?_⟩
          intro a inside b last same
          rw [List.mem_singleton] at last
          exact unused (last ▸ same ▸ inside)

/-- The second loop releases the events one by one: those before it are released. -/
theorem readEvents_balance {created : List PerfEvent} (distinct : created.Nodup)
    {done events : List PerfEvent} (split : created = done ++ events) (values : List U64) :
    (readEvents events values).Follows eventProtocol
      (fun r _ => r = ⟨created, created, false⟩) ⟨created, done, false⟩ := by
  induction events generalizing done values with
  | nil =>
      rw [List.append_nil] at split
      subst split
      rfl
  | cons ev events ih =>
      have live : ev ∈ created ∧ ev ∉ done := by
        rw [split, List.nodup_append] at distinct
        refine ⟨split ▸ List.mem_append_right done List.mem_cons_self, ?_⟩
        intro inside
        exact distinct.2.2 ev inside ev List.mem_cons_self rfl
      simp only [readEvents, readPerfCounter, perfEventReadValue, perfEventReleaseKernel, call,
        Prog.call_bind, Prog.ret_bind, Prog.follows_call]
      refine ⟨⟨rfl, trivial⟩, fun value _ => ⟨⟨rfl, live⟩, ?_⟩⟩
      intro _ _
      exact ih (by rw [split, List.append_assoc]; rfl) _

theorem preHandler_balance (regs : PtRegs) :
    (preHandler regs).Follows eventProtocol ReturnsEvents .empty := by
  simp only [preHandler, taskPidNrCurrent, mutexLock, getTargetPid, call, Prog.call_bind,
    Prog.ret_bind, Prog.follows_call]
  refine ⟨⟨rfl, trivial⟩, fun pid _ => ⟨⟨rfl, trivial⟩, fun _ _ => ⟨⟨rfl, trivial⟩, ?_⟩⟩⟩
  intro target _
  split
  · rw [Prog.follows_bind]
    apply (createEvents_balance pid eventCodes List.nodup_nil).mono
    intro r made ends
    obtain ⟨created, released, refused⟩ := r
    obtain ⟨distinct, rfl : released = [], made_of⟩ := ends
    cases made with
    | error err =>
        obtain rfl : refused = true := made_of
        exact ⟨distinct, fun granted => (nomatch granted), fun _ => rfl⟩
    | ok events =>
        obtain ⟨rfl : refused = false, rfl : created = events⟩ := made_of
        show (readEvents created [] >>= _).Follows eventProtocol ReturnsEvents _
        rw [Prog.follows_bind]
        apply (readEvents_balance distinct rfl []).mono
        intro r values read
        obtain rfl := read
        rw [Prog.follows_bind]
        refine (updateCounters_plain _ _).follows
          (fun o plain => event_harmless rfl o (Or.inl plain)) fun _ => ?_
        exact ⟨⟨rfl, trivial⟩, fun _ _ => returns_settled distinct 0⟩
  · exact ⟨⟨rfl, trivial⟩, fun _ _ => returns_settled List.nodup_nil 0⟩

theorem commands_eventless (o : Op) (commands : o.Commands) : o.Eventless := by
  rcases commands with targets | dumps | ⟨n, rfl⟩ | rfl
  · cases o with
    | mutexLock => exact Or.inr (Or.inl rfl)
    | mutexUnlock => exact Or.inr (Or.inr rfl)
    | setTargetPid pid => exact Or.inl trivial
    | _ => exact targets.elim
  · exact Or.inl (dumps_plain o dumps)
  · exact Or.inl trivial
  · exact Or.inl trivial

/-- A write to the command file makes no call on events at all. -/
theorem commandHandler_eventless (count : Nat) : (commandHandler count).Only Op.Eventless :=
  (commandHandler_commands count).mono commands_eventless

theorem handlers_balance (i : Invocation) :
    i.code.Follows eventProtocol ReturnsEvents .empty := by
  cases i with
  | write e =>
      exact (commandHandler_eventless _).follows (event_harmless rfl) fun a =>
        returns_settled List.nodup_nil a
  | hit e regs => exact preHandler_balance regs

/-! ## The kernel moves a thread's ledger along the protocol -/

def State.ledger (s : State) (t : Tid) : Ledger :=
  ⟨s.created t, s.released t, decide (t ∈ s.failedCreates)⟩

/-- Every event was numbered when it was created. -/
def Numbered (s : State) : Prop := ∀ t, ∀ ev ∈ s.created t, ev.id < s.nextEvent

theorem eventless_same {t : Tid} {e : Env} {s s' : State} {o : Op} {a : o.Ans}
    (eventless : o.Eventless) (answered : kernel t e o s = .done a s') :
    s'.nextEvent = s.nextEvent ∧ s'.created = s.created ∧ s'.released = s.released ∧
      s'.failedCreates = s.failedCreates := by
  rcases eventless with plain | rfl | rfl
  · have same := kernel_plain plain answered
    exact ⟨same.nextEvent, same.created, same.released, same.failedCreates⟩
  · obtain ⟨-, rfl⟩ := kernel_mutexLock answered
    exact ⟨rfl, rfl, rfl, rfl⟩
  · obtain ⟨-, rfl⟩ := kernel_mutexUnlock answered
    exact ⟨rfl, rfl, rfl, rfl⟩

theorem event_cases (o : Op) :
    o.Eventless ∨ (∃ attr cpu task, o = .perfEventCreateKernelCounter attr cpu task) ∨
      ∃ ev, o = .perfEventReleaseKernel ev := by
  rcases op_cases o with plain | rfl | rfl | creates | releases
  · exact Or.inl (Or.inl plain)
  · exact Or.inl (Or.inr (Or.inl rfl))
  · exact Or.inl (Or.inr (Or.inr rfl))
  · exact Or.inr (Or.inl creates)
  · exact Or.inr (Or.inr releases)

theorem event_next {o : Op} (eventless : o.Eventless) (a : o.Ans) (r : Ledger) :
    eventProtocol.next o a r = r := by
  rcases eventless with plain | rfl | rfl
  · cases o <;> first | exact plain.elim | rfl
  · rfl
  · rfl

theorem event_possible {o : Op} (eventless : o.Eventless) (a : o.Ans) (r : Ledger) :
    eventProtocol.possible o a r := by
  rcases eventless with plain | rfl | rfl
  · cases o <;> first | exact plain.elim | trivial
  · trivial
  · trivial

theorem ledger_tracks (t : Tid) (e : Env) :
    Tracks eventProtocol (kernel t e) Numbered fun s => s.ledger t where
  keeps {o s a s'} numbered answered := by
    rcases event_cases o with eventless | ⟨attr, cpu, task, rfl⟩ | ⟨ev, rfl⟩
    · obtain ⟨next, created, -, -⟩ := eventless_same eventless answered
      intro u ev
      rw [created, next]
      exact numbered u ev
    · rcases kernel_create answered with ⟨err, -, rfl⟩ | ⟨ev, -, fresh, rfl⟩
      · exact numbered
      · intro u other inside
        show other.id < s.nextEvent + 1
        by_cases own : u = t
        · subst own
          simp only [Function.update_self, List.mem_append, List.mem_singleton] at inside
          rcases inside with old | rfl
          · exact Nat.lt_succ_of_lt (numbered u other old)
          · omega
        · simp only [Function.update_of_ne own] at inside
          exact Nat.lt_succ_of_lt (numbered u other inside)
    · rw [kernel_release answered]
      exact numbered
  possible {o s a s'} numbered answered := by
    rcases event_cases o with eventless | ⟨attr, cpu, task, rfl⟩ | ⟨ev, rfl⟩
    · exact event_possible eventless a _
    · rcases kernel_create answered with ⟨err, rfl, -⟩ | ⟨ev, rfl, fresh, -⟩
      · trivial
      · intro old
        have below := numbered t ev old
        omega
    · trivial
  next {o s a s'} _ answered := by
    rcases event_cases o with eventless | ⟨attr, cpu, task, rfl⟩ | ⟨ev, rfl⟩
    · obtain ⟨-, created, released, refused⟩ := eventless_same eventless answered
      rw [event_next eventless, State.ledger, created, released, refused, State.ledger]
    · rcases kernel_create answered with ⟨err, rfl, rfl⟩ | ⟨ev, rfl, -, rfl⟩
      · simp [State.ledger, eventProtocol]
      · simp [State.ledger, eventProtocol]
    · rw [kernel_release answered]
      simp [State.ledger, eventProtocol]

/-- A call of one thread leaves the ledger of every other thread as it is. -/
theorem ledger_apart {t u : Tid} {e : Env} {o : Op} {s s' : State} {a : o.Ans} (other : u ≠ t)
    (answered : kernel t e o s = .done a s') : s'.ledger u = s.ledger u := by
  rcases event_cases o with eventless | ⟨attr, cpu, task, rfl⟩ | ⟨ev, rfl⟩
  · obtain ⟨-, created, released, refused⟩ := eventless_same eventless answered
    rw [State.ledger, created, released, refused, State.ledger]
  · rcases kernel_create answered with ⟨err, -, rfl⟩ | ⟨ev, -, -, rfl⟩
    · simp [State.ledger, other]
    · simp [State.ledger, other]
  · rw [kernel_release answered]
    simp [State.ledger, other]

theorem poolAfter_balance (events : List Event) :
    (poolAfter events).Obeys eventProtocol ReturnsEvents Numbered State.ledger .empty := by
  refine Pool.run_obeys ledger_tracks ledger_apart (fun w => nomatch w) (fun thread started => ?_) ?_
  · obtain ⟨i, code⟩ := spawn_code started
    rw [code]
    exact handlers_balance i
  · refine ⟨?_, fun t thread found => by simp [loaded] at found, fun t _ => rfl⟩
    intro t ev inside
    cases inside

/-! ## Balance -/

/-- A thread that has returned released each event it created once and no other, and
with no handler under way no event is alive. -/
structure EventBalance (c : Handlers) : Prop where
  settled : ∀ t, c.Returned t →
    (c.shared.created t).Nodup ∧ (c.shared.released t).Perm (c.shared.created t)
  none_live : c.Idle → ∀ t, ∀ ev ∈ c.shared.created t, ev ∈ c.shared.released t

/-- A thread to which an event was refused has returned and released nothing. -/
theorem refused_releases_nothing (events : List Event) {t : Tid}
    (refused : t ∈ (poolAfter events).shared.failedCreates) :
    (poolAfter events).Returned t ∧ (poolAfter events).shared.released t = [] := by
  obtain ⟨returned, -⟩ := refused_keeps_lock events refused
  obtain ⟨e, a, found⟩ := returned
  refine ⟨⟨e, a, found⟩, ((poolAfter_balance events).returned found).leaked ?_⟩
  simpa [State.ledger] using refused

theorem balance_of_empty_refusals {events : List Event}
    (empty : ∀ t ∈ (poolAfter events).shared.failedCreates,
      (poolAfter events).shared.created t = []) : EventBalance (poolAfter events) := by
  have obeys := poolAfter_balance events
  have settled : ∀ t, (poolAfter events).Returned t →
      ((poolAfter events).shared.created t).Nodup ∧
        ((poolAfter events).shared.released t).Perm ((poolAfter events).shared.created t) := by
    rintro t ⟨e, a, found⟩
    have ends := obeys.returned found
    refine ⟨ends.distinct, ?_⟩
    by_cases refused : t ∈ (poolAfter events).shared.failedCreates
    · rw [empty t refused, (refused_releases_nothing events refused).2]
    · have whole : (poolAfter events).shared.released t = (poolAfter events).shared.created t :=
        ends.settled (by simpa [State.ledger] using refused)
      rw [whole]
  refine ⟨settled, ?_⟩
  intro idle t ev inside
  have started : t < (poolAfter events).threads.length := by
    by_contra beyond
    have fresh := congrArg Ledger.created (obeys.unused t (Nat.le_of_not_lt beyond))
    rw [show (poolAfter events).shared.created t = [] from fresh] at inside
    cases inside
  exact (settled t (idle t started)).2.mem_iff.mpr inside

/-- **Event balance**: it holds throughout a run if and only if every event the kernel
refuses in it is the first one of its invocation. -/
theorem event_balance_iff (events : List Event) :
    (∀ n, EventBalance (poolAfter (events.take n))) ↔
      ∀ t ∈ (poolAfter events).shared.failedCreates, (poolAfter events).shared.created t = [] := by
  constructor
  · intro balance t refused
    have last := balance events.length
    rw [List.take_length] at last
    obtain ⟨returned, kept⟩ := refused_releases_nothing events refused
    have settled := (last.settled t returned).2
    rw [kept] at settled
    exact settled.nil_eq.symm
  · intro empty n
    obtain ⟨refusals, created⟩ := poolAfter_grows events n
    apply balance_of_empty_refusals
    intro t refused
    have later := created t
    rw [empty t (refusals.mem refused)] at later
    exact List.prefix_nil.mp later

/-- A session for process 5, and a switch to it on which the second event is refused. -/
def refusedSecond : List Event :=
  [.start (.write (.echo "start_pid 5\n".toList)), .step 0, .step 0, .step 0, .step 0,
    .start (.hit
      { Env.switchTo 5 0 with
        create := fun attr _ _ => if attr.config = 1 then none else some (-19) } ⟨fun _ => 16, 0⟩),
    .step 1, .step 1, .step 1, .step 1, .step 1]

theorem event_leaked_after_refusal :
    ¬∀ (events : List Event) n, EventBalance (poolAfter (events.take n)) := by
  intro balance
  have refused : (poolAfter refusedSecond).shared.failedCreates = [1] := by rfl
  have created : (poolAfter refusedSecond).shared.created 1 =
      [⟨0, configurePerfEvent 1, 5, none⟩] := by rfl
  obtain ⟨returned, kept⟩ := refused_releases_nothing refusedSecond (t := 1)
    (by rw [refused]; exact List.mem_cons_self)
  have last := balance refusedSecond refusedSecond.length
  rw [List.take_length] at last
  have settled := (last.settled 1 returned).2
  rw [kept, created] at settled
  cases settled.nil_eq

end Dreamscape.Monitor
