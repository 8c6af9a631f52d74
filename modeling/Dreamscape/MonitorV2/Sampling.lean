/-
# MonitorV2.Sampling -- what one firing of the timer does

The four ends of a timer interrupt: the timer is not due, there is nobody to monitor,
`perf_data` is null, or every counter of the buffer is read and reported once.
-/
import Dreamscape.MonitorV2.Ledger

namespace Dreamscape.MonitorV2

set_option autoImplicit false

open Theory Kernel

/-! ## Reading the counters -/

/-- The counters in a full buffer. -/
def Buffer.counters (buf : Buffer) : List PerfEvent :=
  (List.range numEvents).filterMap fun i =>
    match buf.events i with
    | .ptr ev => some ev
    | _ => none

theorem filterMap_slots (evs : List PerfEvent) :
    (List.range evs.length).filterMap (fun i => evs[i]?) = evs := by
  induction evs with
  | nil => rfl
  | cons ev evs ih =>
      rw [List.length_cons, List.range_succ_eq_map, List.filterMap_cons, List.filterMap_map]
      simpa using ih

theorem counters_of_slots {buf : Buffer} {evs : List PerfEvent} (held : Slots buf.events evs)
    (full : evs.length = numEvents) : buf.counters = evs := by
  have slots : ∀ i ∈ List.range numEvents, (match buf.events i with
      | .ptr ev => some ev
      | _ => none) = evs[i]? := by
    intro i inside
    have bound : i < evs.length := full ▸ List.mem_range.mp inside
    have at_i : evs[i]? = some evs[i] := List.getElem?_eq_getElem bound
    rw [held i _ at_i, at_i]
  unfold Buffer.counters
  rw [List.filterMap_congr slots, ← full]
  exact filterMap_slots evs

/-- The counters a sample reads. -/
def State.counters (s : State) : List PerfEvent :=
  match s.holdings.perfData with
  | none => []
  | some p =>
      match s.holdings.buffers p with
      | none => []
      | some buf => buf.counters

theorem counters_published {s : State} (sound : s.holdings.Sound) {p : Ptr}
    (published : s.holdings.perfData = some p) :
    ∃ buf, s.holdings.buffers p = some buf ∧ Slots buf.events s.counters ∧
      s.counters.length = numEvents ∧ ∀ ev ∈ s.counters, ev ∉ s.holdings.released := by
  obtain ⟨-, t, -, -, buf, evs, at_p, -, held, full, -, live⟩ := sound.published p published
  have counters : s.counters = evs := by
    simp only [State.counters, published, at_p]
    exact counters_of_slots held full
  rw [counters]
  exact ⟨buf, at_p, held, full, fun ev inside => (live ev inside).2⟩

/-- One turn of the sampling loop: `ev` in slot `i` is read and reported. -/
def State.read (s : State) (p : Ptr) (i : Nat) (code : BitVec 32) (ev : PerfEvent) : State :=
  let value := ev.counted (s.since ev)
  { s with
    reports := s.reports ++ [(code, value, value - s.prevValues p i)]
    prevValues := Function.update s.prevValues p (Function.update (s.prevValues p) i value) }

def State.readAll (p : Ptr) : List (BitVec 32) → List PerfEvent → Nat → State → State
  | code :: codes, ev :: evs, i, s => State.readAll p codes evs (i + 1) (s.read p i code ev)
  | _, _, _, s => s

/-- Reading does not look at the timer. -/
theorem readAll_timer (p : Ptr) (codes : List (BitVec 32)) (evs : List PerfEvent) (i : Nat)
    (s : State) (enqueued : Bool) (running : Option Tid) :
    State.readAll p codes evs i { s with enqueued := enqueued, running := running } =
      { s.readAll p codes evs i with enqueued := enqueued, running := running } := by
  induction codes generalizing evs i s with
  | nil => rfl
  | cons code codes ih =>
      cases evs with
      | nil => rfl
      | cons ev evs => exact ih evs (i + 1) (s.read p i code ev)

/-- The kernel when `value` says what a counter reads. -/
def reading (value : State → PerfEvent → U64) (t : Tid) (e : Env) : Handler sig Fault State
  | .perfEventReadValue ev, s => s.onEvent ev fun ev => .done (value s ev) s
  | o, s => kernel t e o s

/-- On the machine itself it reads what it has counted. -/
theorem kernel_eq_reading (t : Tid) (e : Env) :
    kernel t e = reading (fun s ev => ev.counted (s.since ev)) t e := by
  funext o s
  cases o <;> rfl

/-- The sampling loop when `value` says what the counters read. -/
def State.noteAll (value : State → PerfEvent → U64) (p : Ptr) :
    List (BitVec 32) → List PerfEvent → Nat → State → State
  | code :: codes, ev :: evs, i, s =>
      let new := value s ev
      State.noteAll value p codes evs (i + 1)
        { s with
          reports := s.reports ++ [(code, new, new - s.prevValues p i)]
          prevValues := Function.update s.prevValues p (Function.update (s.prevValues p) i new) }
  | _, _, _, s => s

theorem readAll_eq_noteAll (p : Ptr) (codes : List (BitVec 32)) (evs : List PerfEvent) (i : Nat)
    (s : State) :
    s.readAll p codes evs i = s.noteAll (fun s ev => ev.counted (s.since ev)) p codes evs i := by
  induction codes generalizing evs i s with
  | nil => rfl
  | cons code codes ih =>
      cases evs with
      | nil => rfl
      | cons ev evs => exact ih evs (i + 1) (s.read p i code ev)

/-- The loop changes the reports and the values last sampled, and nothing else. -/
theorem noteAll_frame (value : State → PerfEvent → U64) (p : Ptr) (codes : List (BitVec 32))
    (evs : List PerfEvent) (i : Nat) (s : State) : ∃ reports prevValues,
      s.noteAll value p codes evs i = { s with reports := reports, prevValues := prevValues } := by
  induction codes generalizing evs i s with
  | nil => exact ⟨s.reports, s.prevValues, rfl⟩
  | cons code codes ih =>
      cases evs with
      | nil => exact ⟨s.reports, s.prevValues, rfl⟩
      | cons ev evs =>
          obtain ⟨reports, prevValues, after⟩ := ih evs (i + 1) { s with
            reports := s.reports ++ [(code, value s ev, value s ev - s.prevValues p i)]
            prevValues := Function.update s.prevValues p
              (Function.update (s.prevValues p) i (value s ev)) }
          exact ⟨reports, prevValues, after⟩

theorem readAll_frame (p : Ptr) (codes : List (BitVec 32)) (evs : List PerfEvent) (i : Nat)
    (s : State) : ∃ reports prevValues,
      s.readAll p codes evs i = { s with reports := reports, prevValues := prevValues } := by
  rw [readAll_eq_noteAll]
  exact noteAll_frame _ p codes evs i s

section Firing

variable {s : State} {t : Tid} {e : Env}

theorem sampleCounters_reading (value : State → PerfEvent → U64) {p : Ptr} {buf : Buffer}
    {codes : List (BitVec 32)} {evs : List PerfEvent} (same : codes.length = evs.length) {i : Nat}
    (published : s.holdings.perfData = some p) (at_p : s.holdings.buffers p = some buf)
    (held : ∀ k ev, evs[k]? = some ev → buf.events (i + k) = .ptr ev)
    (live : ∀ ev ∈ evs, ev ∉ s.holdings.released) :
    (sampleCounters codes i).exec (reading value t e) s =
      .done () (s.noteAll value p codes evs i) := by
  induction codes generalizing evs i s with
  | nil => rfl
  | cons code codes ih =>
      cases evs with
      | nil => cases same
      | cons ev evs =>
          have here : buf.events i = .ptr ev := held 0 ev rfl
          have alive : ev ∉ s.holdings.released := live ev List.mem_cons_self
          have onward := ih (s := { s with
              reports := s.reports ++ [(code, value s ev, value s ev - s.prevValues p i)]
              prevValues := Function.update s.prevValues p
                (Function.update (s.prevValues p) i (value s ev)) })
            (Nat.succ.inj same) published at_p
            (fun k other at_k => by
              rw [Nat.add_right_comm, Nat.add_assoc]
              exact held (k + 1) other at_k)
            fun other inside => live other (List.mem_cons_of_mem ev inside)
          simp only [sampleCounters, getPerfData, loadEvent, perfEventReadValue, loadPrev, report,
            storePrev, call, Prog.call_bind, Prog.ret_bind, Prog.exec_call, reading, kernel,
            State.onBuffer, State.onEvent, published, at_p, here, alive, if_false,
            Outcome.bind_done]
          exact onward

theorem sampleCounters_exec {p : Ptr} {buf : Buffer} {codes : List (BitVec 32)}
    {evs : List PerfEvent} (same : codes.length = evs.length) {i : Nat}
    (published : s.holdings.perfData = some p) (at_p : s.holdings.buffers p = some buf)
    (held : ∀ k ev, evs[k]? = some ev → buf.events (i + k) = .ptr ev)
    (live : ∀ ev ∈ evs, ev ∉ s.holdings.released) :
    (sampleCounters codes i).exec (kernel t e) s = .done () (s.readAll p codes evs i) := by
  rw [kernel_eq_reading, readAll_eq_noteAll]
  exact sampleCounters_reading _ same published at_p held live

/-- The timer is due. -/
def State.Due (s : State) : Prop := s.enqueued = true ∧ s.running = none

instance (s : State) : Decidable s.Due := instDecidableAnd

/-- There is a live task to monitor. -/
def State.Watching (s : State) : Prop := s.holdings.monitoredTask.any s.alive = true

instance (s : State) : Decidable s.Watching := instDecidableEqBool _ _

theorem timerInterrupt_waits (early : ¬s.Due) :
    timerInterrupt.exec (kernel t e) s = .blocked s := by
  have closed : ¬(s.enqueued = true ∧ s.running = none) := early
  simp [timerInterrupt, kernel, closed]

theorem timerInterrupt_ends (due : s.Due) (idle : ¬s.Watching) :
    timerInterrupt.exec (kernel t e) s = .done () { s with enqueued := false } := by
  obtain ⟨queued, still⟩ := due
  cases watched : s.holdings.monitoredTask with
  | none => simp [timerInterrupt, samplePerfCounters, kernel, queued, still, watched]
  | some task =>
      have dead : s.alive task = false := by
        simpa [State.Watching, watched] using idle
      simp [timerInterrupt, samplePerfCounters, kernel, State.onTask, queued, still, watched, dead]

/-- The first reading through a null `perf_data` is the last. -/
theorem timerInterrupt_oops (due : s.Due) (watching : s.Watching)
    (unpublished : s.holdings.perfData = none) :
    timerInterrupt.exec (kernel t e) s =
      .fault .nullDereference { s with enqueued := false, running := some t } := by
  obtain ⟨queued, still⟩ := due
  obtain ⟨task, watched, alive⟩ := (Option.any_eq_true _ _).mp watching
  have table : ∃ code codes, eventCodes = code :: codes := ⟨_, _, rfl⟩
  obtain ⟨code, codes, first⟩ := table
  simp [timerInterrupt, samplePerfCounters, sampleCounters, kernel, State.onTask, State.onBuffer,
    queued, still, watched, alive, unpublished, first]

/-- A firing that reads leaves the timer as it found it. -/
theorem timerInterrupt_reads (due : s.Due) (watching : s.Watching) (sound : s.holdings.Sound)
    {p : Ptr} (published : s.holdings.perfData = some p) :
    timerInterrupt.exec (kernel t e) s = .done () (s.readAll p eventCodes s.counters 0) := by
  obtain ⟨queued, still⟩ := due
  obtain ⟨task, watched, alive⟩ := (Option.any_eq_true _ _).mp watching
  obtain ⟨buf, at_p, held, full, live⟩ := counters_published sound published
  have length : eventCodes.length = s.counters.length := eventCodes_length.trans full.symm
  have read := sampleCounters_exec (s := { s with enqueued := false, running := some t }) (t := t)
    (e := e) length (i := 0) published at_p
    (fun k ev at_k => by
      rw [Nat.zero_add]
      exact held k ev at_k) live
  obtain ⟨reports, prevValues, after⟩ := readAll_frame p eventCodes s.counters 0 s
  rw [readAll_timer, after] at read
  rw [after]
  simp only [timerInterrupt, timerExpires, samplePerfCounters, getMonitoredTask, pidAlive, taskPc,
    call, Prog.call_bind, Prog.ret_bind, Prog.exec_call, kernel, queued, still, watched,
    State.onTask, alive, Outcome.bind_done, and_self, if_true, Prog.exec_bind, read]
  simp [kernel]

end Firing

end Dreamscape.MonitorV2
