/-
# MonitorV2.Coherence -- what a firing finds in perf_data

Writes to the pid entry come one after another, each of them call by call; between two
calls the timer may fire, in any state of the session, tasks may die, and the hardware
generates events.

A firing that passes its test uses two globals that a start assigns in separate steps.
`perf_data`, when it is not null, always points to a full buffer of live events
(`serialAfter_sound`), but it may be null, or belong to an earlier start.  So a firing
finds what it needs exactly when the start that last set `monitored_task` has gone on
to assign `perf_data`, and was refused nothing on the way (`sampling_coherent_iff`).
-/
import Dreamscape.MonitorV2.Attempt
import Dreamscape.MonitorV2.Interior
import Dreamscape.Theory.Serial

namespace Dreamscape.MonitorV2

set_option autoImplicit false

open Theory Kernel

/-! ## Runs -/

inductive Event where
  | write (env : Env)
  | step
  | fire (env : Env)
  | die (task : Task)
  | occur (occ : Occurrence)

/-- What the machine does between two calls of the writer. -/
inductive Weather where
  | fire (env : Env)
  | die (task : Task)
  | occur (occ : Occurrence)

def Weather.act : Weather → State → State
  | .fire env, s => (timerInterrupt.exec (kernel 0 env) s).state
  | .die task, s => s.bury task
  | .occur occ, s => { s with log := s.log ++ [occ] }

def Event.action : Event → Serial.Action sig Env Weather Int
  | .write env => .start ⟨env, pidWrite env.userBuf.length⟩
  | .step => .step
  | .fire env => .world (.fire env)
  | .die task => .world (.die task)
  | .occur occ => .world (.occur occ)

/-- The loaded module after a run. -/
def serialAfter (events : List Event) : Serial sig Env State Int :=
  Serial.run kernel Weather.act ⟨State.initial, 0, none⟩ (events.map Event.action)

theorem weather_holdings (w : Weather) (s : State) : (w.act s).holdings = s.holdings := by
  cases w with
  | fire env => exact timerInterrupt_holdings 0 env s
  | die task | occur occ => rfl

/-- Between invocations: the holdings are sound, and later threads have asked for nothing. -/
def Between (n : Nat) (h : Holdings) : Prop := h.Sound ∧ ∀ u, n < u → h.Fresh u

theorem run_obeys {c : Serial sig Env State Int}
    (obeys : c.Obeys ledger Between (fun _ => True) State.holdings) (events : List Event) :
    (Serial.run kernel Weather.act c (events.map Event.action)).Obeys ledger Between
      (fun _ => True) State.holdings := by
  refine Serial.run_obeys ledger_tracks (fun w s _ => ⟨trivial, weather_holdings w s⟩)
    (fun thread started n h between => ?_) obeys
  obtain ⟨event, -, same⟩ := List.mem_map.mp started
  cases event with
  | write env =>
      cases same
      obtain ⟨sound, fresh⟩ := between
      apply (pidWrite_ledger sound (fresh (n + 1) (Nat.lt_succ_self n))).mono
      intro h' _ leaves
      exact ⟨leaves.sound, fun u later =>
        leaves.others u (Nat.ne_of_gt later) (fresh u (Nat.lt_of_succ_lt later))⟩
  | step | fire env | die task | occur occ => cases same

theorem loaded_obeys : (⟨.initial, 0, none⟩ : Serial sig Env State Int).Obeys ledger Between
    (fun _ => True) State.holdings :=
  ⟨trivial, fun _ => ⟨sound_initial, fun u _ => fresh_initial u⟩, nofun⟩

theorem obeys_sound {c : Serial sig Env State Int}
    (obeys : c.Obeys ledger Between (fun _ => True) State.holdings) : c.shared.holdings.Sound :=
  obeys.holds (fun _ _ _ _ allowed => allowed) fun _ _ between => between.1

theorem serialAfter_sound (events : List Event) : (serialAfter events).shared.holdings.Sound :=
  obeys_sound (run_obeys loaded_obeys events)

/-! ## Coherence -/

/-- A firing in this state runs `sample_perf_counters`, which passes its test. -/
def State.Passes (s : State) : Prop :=
  s.enqueued = true ∧ s.running = none ∧
    ∃ task, s.holdings.monitoredTask = some task ∧ s.alive task = true

/-- `perf_data` holds live events, created by the call that set `monitored_task`. -/
def Holdings.Coherent (h : Holdings) : Prop :=
  ∃ p t, h.perfData = some p ∧ h.taskSetter = some t ∧ h.Complete p t

/-- The call that set `monitored_task` has assigned `perf_data` as well, and was refused
neither memory nor an event. -/
def Holdings.Equipped (h : Holdings) : Prop :=
  ∃ t, h.taskSetter = some t ∧ h.dataSetter = some t ∧ t ∉ h.refused

/-- At every firing of the run that passes the test, the holdings satisfy `J`. -/
def AtFirings (J : Holdings → Prop) (events : List Event) : Prop :=
  ∀ n env, events[n]? = some (.fire env) →
    (serialAfter (events.take n)).shared.Passes → J (serialAfter (events.take n)).shared.holdings

theorem coherent_iff_equipped {h : Holdings} (sound : h.Sound) : h.Coherent ↔ h.Equipped := by
  constructor
  · rintro ⟨p, t, published, setter, buf, evs, at_p, rfl, -⟩
    obtain ⟨-, u, assigner, granted, other, evs', at_p', rfl, -⟩ := sound.published p published
    rw [at_p, Option.some.injEq] at at_p'
    subst at_p'
    exact ⟨buf.maker, setter, assigner, granted⟩
  · rintro ⟨t, setter, assigner, granted⟩
    obtain ⟨p, published⟩ := Option.ne_none_iff_exists'.mp (sound.assigned t assigner granted)
    obtain ⟨-, u, same, -, complete⟩ := sound.published p published
    rw [assigner, Option.some.injEq] at same
    subst same
    exact ⟨p, t, published, setter, complete⟩

/-- **Sampling is coherent** in a run if and only if, at every firing that passes the
test, the start that last set `monitored_task` has gone on to assign `perf_data`, and the
kernel refused it nothing. -/
theorem sampling_coherent_iff (events : List Event) :
    AtFirings Holdings.Coherent events ↔ AtFirings Holdings.Equipped events := by
  have pointwise : ∀ n, (serialAfter (events.take n)).shared.holdings.Coherent ↔
      (serialAfter (events.take n)).shared.holdings.Equipped :=
    fun n => coherent_iff_equipped (serialAfter_sound (events.take n))
  constructor
  · intro coherent n env fires passes
    exact (pointwise n).mp (coherent n env fires passes)
  · intro equipped n env fires passes
    exact (pointwise n).mpr (equipped n env fires passes)

/-- A session for process 5, then a start for process 6 that gets no memory, and a tick. -/
def failedRestart : List Event :=
  .write (.echo "5\n".toList) :: List.replicate 60 .step ++
    .write { Env.echo "6\n".toList with kzallocFails := true } :: List.replicate 12 .step ++
    [.fire .quiet]

theorem tick_after_failed_restart : ¬∀ events, AtFirings Holdings.Coherent events := by
  intro coherent
  have passes : (serialAfter (failedRestart.take 74)).shared.Passes :=
    ⟨by decide +kernel, by decide +kernel, 6, by decide +kernel, by decide +kernel⟩
  have null : (serialAfter (failedRestart.take 74)).shared.holdings.perfData = none := by
    decide +kernel
  obtain ⟨p, t, published, -⟩ := coherent failedRestart 74 .quiet rfl passes
  rw [null] at published
  cases published

end Dreamscape.MonitorV2
