/-
# MonitorV2.Deltas -- what the reports of a session add up to

A session begins with a buffer of zeros, and every callback that finds the task alive
reports each counter as the difference from the value it kept.  Whatever the counters
read, the reports of one event are the differences of its own readings, so they add up to
the last of them (`deltas_telescope`).
-/
import Dreamscape.MonitorV2.Sampling
import Dreamscape.MonitorV2.Truthful
import Dreamscape.Theory.Telescope

namespace Dreamscape.MonitorV2

set_option autoImplicit false

open Theory Kernel

/-! ## Callbacks -/

/-- What one callback meets: the values of the counters and the tasks still alive. -/
structure Tick where
  value : PerfEvent → U64
  alive : Task → Bool
  env : Env

def callback (t : Tid) (tick : Tick) (s : State) : Answer Bool :=
  (samplePerfCounters eventCodes).exec (reading (fun _ => tick.value) t tick.env)
    { s with alive := tick.alive }

def callbacks (t : Tid) : List Tick → State → Answer Unit
  | [], s => .done () s
  | tick :: ticks, s => (callback t tick s).bind fun _ s' => callbacks t ticks s'

/-- What the callbacks that find the task alive read from an event. -/
def readings (task : Task) (ev : PerfEvent) (ticks : List Tick) : List U64 :=
  (ticks.filter (·.alive task)).map (·.value ev)

/-- The deltas reported for a code. -/
def deltasOf (code : BitVec 32) (lines : List (BitVec 32 × U64 × U64)) : List U64 :=
  (lines.filter (·.1 == code)).map (·.2.2)

@[simp] theorem deltasOf_nil (code : BitVec 32) : deltasOf code [] = [] := rfl

@[simp] theorem deltasOf_append (code : BitVec 32) (lines lines' : List (BitVec 32 × U64 × U64)) :
    deltasOf code (lines ++ lines') = deltasOf code lines ++ deltasOf code lines' := by
  simp [deltasOf]

@[simp] theorem deltasOf_cons_self (code : BitVec 32) (value delta : U64)
    (lines : List (BitVec 32 × U64 × U64)) :
    deltasOf code ((code, value, delta) :: lines) = delta :: deltasOf code lines := by
  simp [deltasOf]

theorem deltasOf_cons_ne {code other : BitVec 32} (ne : other ≠ code) (value delta : U64)
    (lines : List (BitVec 32 × U64 × U64)) :
    deltasOf code ((other, value, delta) :: lines) = deltasOf code lines := by
  simp [deltasOf, ne]

@[simp] theorem readings_nil (task : Task) (ev : PerfEvent) : readings task ev [] = [] := rfl

theorem readings_alive {task : Task} {tick : Tick} (alive : tick.alive task = true)
    (ev : PerfEvent) (ticks : List Tick) :
    readings task ev (tick :: ticks) = tick.value ev :: readings task ev ticks := by
  simp [readings, alive]

theorem readings_dead {task : Task} {tick : Tick} (dead : tick.alive task = false)
    (ev : PerfEvent) (ticks : List Tick) :
    readings task ev (tick :: ticks) = readings task ev ticks := by
  simp [readings, dead]

/-- Only the value of the event and the life of the task matter. -/
theorem readings_eq (task : Task) (ev : PerfEvent) (ticks : List Tick) :
    readings task ev ticks =
      ((ticks.map fun tick => (tick.alive task, tick.value ev)).filter (·.1)).map (·.2) := by
  rw [List.filter_map, List.map_map]
  rfl

/-! ## One callback -/

/-- The session of a full buffer of live events. -/
structure Holdings.Session (h : Holdings) (p : Ptr) (task : Task) (evs : List PerfEvent) : Prop where
  watching : h.monitoredTask = some task
  published : h.perfData = some p
  buffer : ∃ buf, h.buffers p = some buf ∧ Slots buf.events evs
  full : evs.length = numEvents
  live : ∀ ev ∈ evs, ev ∉ h.released

section Callback

variable {s : State} {p : Ptr} {task : Task} {evs : List PerfEvent}

theorem counters_session (session : s.holdings.Session p task evs) : s.counters = evs := by
  obtain ⟨buf, at_p, held⟩ := session.buffer
  simp only [State.counters, session.published, at_p]
  exact counters_of_slots held session.full

/-- A callback that finds the task dead does nothing, and stops the timer. -/
theorem callback_dead (session : s.holdings.Session p task evs) {tick : Tick}
    (dead : tick.alive task = false) (t : Tid) :
    callback t tick s = .done false { s with alive := tick.alive } := by
  simp [callback, samplePerfCounters, reading, kernel, session.watching, State.onTask, dead]

/-- A callback that finds the task alive reads every counter once. -/
theorem callback_alive (session : s.holdings.Session p task evs) {tick : Tick}
    (alive : tick.alive task = true) (t : Tid) :
    callback t tick s = .done true
      (State.noteAll (fun _ => tick.value) p eventCodes evs 0 { s with alive := tick.alive }) := by
  obtain ⟨buf, at_p, held⟩ := session.buffer
  have read := sampleCounters_reading (s := { s with alive := tick.alive }) (t := t) (e := tick.env)
    (fun _ => tick.value) (eventCodes_length.trans session.full.symm) (i := 0) session.published at_p
    (fun k ev at_k => by
      rw [Nat.zero_add]
      exact held k ev at_k) session.live
  simp only [callback, samplePerfCounters, getMonitoredTask, pidAlive, taskPc, call,
    Prog.call_bind, Prog.ret_bind, Prog.exec_call, reading, kernel, session.watching,
    State.onTask, alive, Outcome.bind_done, if_true, Prog.exec_bind, read]
  simp [reading, kernel]

/-- Each slot is reported under its code as the difference from the value kept, and keeps the
new value. -/
theorem noteAll_slots (value : PerfEvent → U64) {codes : List (BitVec 32)} (distinct : codes.Nodup)
    (evs : List PerfEvent) (i : Nat) (s : State) : ∃ lines,
      (s.noteAll (fun _ => value) p codes evs i).reports = s.reports ++ lines ∧
      (∀ code, code ∉ codes → deltasOf code lines = []) ∧
      (∀ j < i, (s.noteAll (fun _ => value) p codes evs i).prevValues p j = s.prevValues p j) ∧
      ∀ k code ev, codes[k]? = some code → evs[k]? = some ev →
        deltasOf code lines = [value ev - s.prevValues p (i + k)] ∧
        (s.noteAll (fun _ => value) p codes evs i).prevValues p (i + k) = value ev := by
  induction codes generalizing evs i s with
  | nil => exact ⟨[], (List.append_nil _).symm, fun _ _ => rfl, fun _ _ => rfl, nofun⟩
  | cons code codes ih =>
      cases evs with
      | nil => exact ⟨[], (List.append_nil _).symm, fun _ _ => rfl, fun _ _ => rfl, fun _ _ _ _ => nofun⟩
      | cons ev evs =>
          obtain ⟨unlisted, distinct⟩ := List.nodup_cons.mp distinct
          obtain ⟨lines, reports, others, below, slots⟩ := ih distinct evs (i + 1) { s with
            reports := s.reports ++ [(code, value ev, value ev - s.prevValues p i)]
            prevValues := Function.update s.prevValues p
              (Function.update (s.prevValues p) i (value ev)) }
          refine ⟨(code, value ev, value ev - s.prevValues p i) :: lines, ?_, ?_, ?_, ?_⟩
          · rw [List.append_cons]
            exact reports
          · intro other absent
            have ne : code ≠ other := (List.ne_of_not_mem_cons absent).symm
            rw [deltasOf_cons_ne ne, others other (List.not_mem_of_not_mem_cons absent)]
          · intro j low
            refine (below j (Nat.lt_succ_of_lt low)).trans ?_
            simp [Nat.ne_of_lt low]
          · intro k other ev' at_k slot
            cases k with
            | zero =>
                cases at_k
                cases slot
                refine ⟨?_, (below i (Nat.lt_succ_self i)).trans (by simp)⟩
                rw [deltasOf_cons_self, others code unlisted, Nat.add_zero]
            | succ k =>
                have listed : other ∈ codes := List.mem_of_getElem? at_k
                have ne : code ≠ other := fun same => unlisted (same ▸ listed)
                obtain ⟨delta, kept⟩ := slots k other ev' at_k slot
                rw [Nat.add_right_comm, Nat.add_assoc] at delta kept
                rw [deltasOf_cons_ne ne, delta]
                refine ⟨?_, kept⟩
                simp

end Callback

/-! ## A session -/

section Run

variable {s : State} {p : Ptr} {task : Task} {evs : List PerfEvent}

theorem eventCodes_nodup : eventCodes.Nodup := by decide

/-- After any callbacks each event has reported the differences of its own readings. -/
theorem callbacks_session (session : s.holdings.Session p task evs) (t : Tid) (ticks : List Tick) :
    ∃ s' lines, callbacks t ticks s = .done () s' ∧ s'.holdings = s.holdings ∧
      s'.reports = s.reports ++ lines ∧
      ∀ i code ev, eventCodes[i]? = some code → evs[i]? = some ev →
        deltasOf code lines = differences (s.prevValues p i) (readings task ev ticks) ∧
        s'.prevValues p i = (readings task ev ticks).getLastD (s.prevValues p i) := by
  induction ticks generalizing s with
  | nil => exact ⟨s, [], rfl, rfl, (List.append_nil _).symm, fun _ _ _ _ _ => ⟨rfl, rfl⟩⟩
  | cons tick ticks ih =>
      cases found : tick.alive task with
      | false =>
          obtain ⟨s', lines, run, holdings, reports, slots⟩ :=
            ih (s := { s with alive := tick.alive }) session
          refine ⟨s', lines, ?_, holdings, reports, ?_⟩
          · rw [callbacks, callback_dead session found]
            exact run
          · intro i code ev at_i slot
            rw [readings_dead found]
            exact slots i code ev at_i slot
      | true =>
          obtain ⟨first, reported, -, -, once⟩ := noteAll_slots (p := p) tick.value
            eventCodes_nodup evs 0 { s with alive := tick.alive }
          obtain ⟨_, _, after⟩ := noteAll_frame (fun _ => tick.value) p eventCodes evs 0
            { s with alive := tick.alive }
          have same : (State.noteAll (fun _ => tick.value) p eventCodes evs 0
              { s with alive := tick.alive }).holdings = s.holdings := by rw [after]
          obtain ⟨s', lines, run, holdings, reports, slots⟩ := ih (same.symm ▸ session)
          refine ⟨s', first ++ lines, ?_, holdings.trans same, ?_, ?_⟩
          · rw [callbacks, callback_alive session found]
            exact run
          · rw [reports, reported, List.append_assoc]
          · intro i code ev at_i slot
            obtain ⟨delta, kept⟩ := once i code ev at_i slot
            obtain ⟨later, last⟩ := slots i code ev at_i slot
            rw [Nat.zero_add] at delta kept
            rw [deltasOf_append, delta, later, last, kept, readings_alive found, differences,
              List.getLastD_cons]
            exact ⟨rfl, rfl⟩

end Run

section Start

variable {s s₀ : State} {t : Tid} {e : Env} {pid : Int} {task : Task} {p : Ptr}

/-- A successful start leaves a full buffer of live events and zeros. -/
theorem startMonitoring_session (numbered : s.holdings.Numbered)
    (started : (startMonitoring eventCodes pid).exec (kernel t e) s = .done () s₀)
    (watching : s₀.holdings.monitoredTask = some task) (published : s₀.holdings.perfData = some p) :
    s₀.holdings.Session p task (eventsFor s.holdings.nextEvent e.cpu eventCodes) ∧
      ∀ i, s₀.prevValues p i = 0 := by
  cases found : e.findTask pid with
  | none =>
      have missing : (startMonitoring eventCodes pid).exec (kernel t e) s =
          .done () (s.holding (s.holdings.watch t none)) := by
        simp [startMonitoring, kernel, found, State.holding, Holdings.watch]
      rw [missing] at started
      cases started
      cases watching
  | some target =>
      let looked := s.holding ((s.holdings.watch t (some target)).get target)
      have numbered' : looked.holdings.Numbered :=
        ⟨numbered.created, numbered.released, numbered.buffers⟩
      cases memory : e.kzallocFails with
      | true =>
          rw [startMonitoring_launched found (initPerfCounters_starved memory eventCodes pid)] at started
          cases started
          cases published
      | false =>
          rcases granted_or_refused looked t e eventCodes with
            granted | ⟨done, code, rest, split, granted, refused⟩
          · obtain ⟨slots, births, held, made⟩ := initPerfCounters_granted memory granted pid
            rw [startMonitoring_launched found made] at started
            have filled := built_filled (t := t) numbered' held births
            cases started
            cases published
            obtain ⟨buf, at_p, held⟩ := filled.slots
            refine ⟨⟨watching, rfl, ⟨buf, at_p, held⟩, eventsFor_length .., ?_⟩, filled.values⟩
            exact fun ev inside => (filled.live ev inside).2
          · obtain ⟨births, made⟩ := initPerfCounters_refused numbered'.released memory rest
              granted refused pid
            rw [← split] at made
            rw [startMonitoring_launched found made] at started
            cases started
            cases published

/-! ## The sum of the deltas -/

/-- The deltas of an event that has read `read` add up to what slot `i` keeps. -/
structure Telescopes (p : Ptr) (i : Nat) (deltas read : List U64) (s : State) : Prop where
  total : deltas.sum = read.getLastD 0
  kept : s.prevValues p i = read.getLastD 0
  exact : read.IsChain (· ≤ ·) →
    deltas.map BitVec.toNat = differences 0 (read.map BitVec.toNat) ∧
    (deltas.map BitVec.toNat).sum = (read.getLastD 0).toNat ∧
    (deltas.map BitVec.toNat).sum < 2 ^ 64

theorem telescopes_differences {i : Nat} {read : List U64} {s : State}
    (kept : s.prevValues p i = read.getLastD 0) :
    Telescopes p i (differences 0 read) read s where
  total := (sum_differences 0 read).trans (sub_zero _)
  kept := kept
  exact := by
    intro rising
    have chain : ((0 : U64) :: read).IsChain (· ≤ ·) := by
      cases read with
      | nil => exact List.isChain_singleton 0
      | cons x xs => exact List.isChain_cons_cons.mpr ⟨Nat.zero_le _, rising⟩
    have zero : BitVec.toNat (0 : U64) = 0 := rfl
    have total := sum_differences_toNat chain
    rw [zero, Nat.zero_add] at total
    refine ⟨differences_toNat chain, total, ?_⟩
    rw [total]
    exact BitVec.isLt _

/-- **The deltas telescope**: in a session begun by a successful `start_monitoring`, after any
callbacks with any values of the counters, the deltas reported for each event add up to the
last value read from it, which is the value kept. They are determined by the readings of that
event alone, and a callback that finds the task dead reports and keeps nothing. -/
theorem deltas_telescope (numbered : s.holdings.Numbered)
    (started : (startMonitoring eventCodes pid).exec (kernel t e) s = .done () s₀)
    (watching : s₀.holdings.monitoredTask = some task) (published : s₀.holdings.perfData = some p)
    (u : Tid) (ticks : List Tick) :
    s₀.counters.length = numEvents ∧
    ∃ s₁ lines, callbacks u ticks s₀ = .done () s₁ ∧ s₁.reports = s₀.reports ++ lines ∧
      (∀ i code ev, eventCodes[i]? = some code → s₀.counters[i]? = some ev →
        Telescopes p i (deltasOf code lines) (readings task ev ticks) s₁ ∧
        ∀ ticks' s₂ lines', callbacks u ticks' s₀ = .done () s₂ → s₂.reports = s₀.reports ++ lines' →
          ticks'.map (fun tick => (tick.alive task, tick.value ev)) =
            ticks.map (fun tick => (tick.alive task, tick.value ev)) →
          deltasOf code lines' = deltasOf code lines) ∧
      ∀ tick, tick.alive task = false →
        callback u tick s₁ = .done false { s₁ with alive := tick.alive } := by
  obtain ⟨session, unsampled⟩ := startMonitoring_session numbered started watching published
  obtain ⟨s₁, lines, run, holdings, reports, slots⟩ := callbacks_session session u ticks
  rw [counters_session session]
  refine ⟨session.full, s₁, lines, run, reports, ?_, ?_⟩
  · intro i code ev at_i slot
    obtain ⟨deltas, kept⟩ := slots i code ev at_i slot
    rw [unsampled i] at deltas kept
    refine ⟨deltas ▸ telescopes_differences kept, ?_⟩
    intro ticks' s₂ lines' run' reports' same
    obtain ⟨s₃, lines₃, run₃, -, reports₃, slots₃⟩ := callbacks_session session u ticks'
    rw [run₃] at run'
    cases run'
    have sameLines : lines₃ = lines' := List.append_cancel_left (reports₃.symm.trans reports')
    rw [← sameLines, (slots₃ i code ev at_i slot).1, unsampled i, deltas, readings_eq, same,
      ← readings_eq]
  · intro tick dead
    exact callback_dead (holdings.symm ▸ session) dead u

end Start

/-- The counters read 3, then nothing since the task is taken for dead, then 7. -/
def threeTicks : List Tick :=
  [⟨fun _ => 3, fun _ => true, .quiet⟩, ⟨fun _ => 9, fun _ => false, .quiet⟩,
    ⟨fun _ => 7, fun _ => true, .quiet⟩]

/-- A session for task 6 that follows one for task 5. -/
theorem later_session_telescopes : ∃ s s₀ s₁ lines, after earlierSession = .done () s ∧
    (startMonitoring eventCodes 6).exec (kernel 3 .quiet) s = .done () s₀ ∧
    callbacks 4 threeTicks s₀ = .done () s₁ ∧ s₁.reports = s₀.reports ++ lines ∧
    ∀ i code ev, eventCodes[i]? = some code → s₀.counters[i]? = some ev →
      Telescopes s.holdings.nextPtr i (deltasOf code lines) (readings 6 ev threeTicks) s₁ := by
  obtain ⟨s, reached⟩ : ∃ s, after earlierSession = .done () s := ⟨_, rfl⟩
  let looked : State := s.holding ((s.holdings.watch 3 (some 6)).get 6)
  have granted : looked.Granted 3 .quiet eventCodes := fun _ _ _ _ => rfl
  obtain ⟨slots, births, held, made⟩ := initPerfCounters_granted rfl granted 6
  have found : Env.quiet.findTask 6 = some 6 := rfl
  have started := startMonitoring_launched found made
  obtain ⟨-, s₁, lines, run, reports, slots, -⟩ :=
    deltas_telescope (numbered_after reached) started rfl rfl 4 threeTicks
  exact ⟨s, _, s₁, lines, reached, started, run, reports,
    fun i code ev at_i slot => (slots i code ev at_i slot).1⟩

end Dreamscape.MonitorV2
