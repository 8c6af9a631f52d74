/-
# MonitorV2.Timer -- one timer, started again and again

Any number of writers and timer interrupts run beside each other, tasks die, and time
passes.  `start_monitoring` initialises and starts `sample_timer` without a look at it, so
a second start may find it queued, or running its callback.

The timer is idle again when a firing has found no living task and has returned.  A run in
which every start comes before the first session or after such a firing has one timer and
one schedule, and no other run has (`single_timer_iff`).

A sample carries the time its expiry was due and the time it was taken.  An interrupt may
come late, and then the sample is late, not the schedule.  So the samples of one schedule
keep an interval from each other if every sample comes as late as the others, as when all
interrupts are served at once; a late one before a punctual one comes too close to it.
-/
import Dreamscape.MonitorV2.Interior
import Dreamscape.Theory.History
import Mathlib.Data.List.Chain

namespace Dreamscape.MonitorV2.Timer

set_option autoImplicit false

open Theory Kernel

/-! ## Time -/

structure Sample where
  due : Nat
  taken : Nat
  deriving DecidableEq

/-- What is remembered of the schedule.  `due` is the expiry the timer is set for, `lost`
says that the firing under way has found no living task, and `ended` that no session has
been started since a firing that found none returned. -/
structure Schedule where
  now : Nat
  due : Nat
  samples : List Sample
  lost : Bool
  ended : Bool

abbrev Timed := State × Schedule

def Schedule.initial : Schedule := ⟨0, 0, [], false, true⟩

/-- `hrtimer_forward_now`: the first expiry of the schedule that is still to come. -/
def Schedule.forward (x : Schedule) (ns : Nat) : Nat :=
  if x.due ≤ x.now then x.due + ns * ((x.now - x.due) / ns + 1) else x.due

def note : Note sig Env State Schedule := fun t _ o a s x =>
  match o, a with
  | .hrtimerStart ns, _ => { x with due := x.now + ns, ended := false }
  | .timerExpires, _ => { x with lost := false }
  | .monitoredTask, task => if s.running = some t then { x with lost := task.isNone } else x
  | .pidAlive _, alive => if s.running = some t then { x with lost := !alive } else x
  | .taskPc _, _ => { x with samples := ⟨x.due, x.now⟩ :: x.samples }
  | .hrtimerForwardNow ns, _ => { x with due := x.forward ns }
  | .callbackReturns _, _ => { x with ended := x.lost }
  | _, _ => x

/-- The timer does not expire before it is due. -/
def Op.Early (o : Op) (x : Schedule) : Bool :=
  match o with
  | .timerExpires => decide (x.now < x.due)
  | _ => false

def timedKernel : Tid → Env → Handler sig Fault Timed := fun t e o c =>
  if Op.Early o c.2 then .blocked c else recorded kernel note t e o c

inductive Passing where
  | die (task : Task)
  | wait (ns : Nat)

def passing : Passing → Timed → Timed
  | .die task, c => (c.1.bury task, c.2)
  | .wait ns, c => (c.1, { c.2 with now := c.2.now + ns })

/-! ## Runs -/

inductive Deed where
  | write (e : Env)
  | expire (e : Env)
  | step (t : Tid)
  | die (task : Task)
  | wait (ns : Nat)

def Deed.action : Deed → Pool.Action sig Env Passing Unit
  | .write e => .spawn ⟨e, do let _ ← pidWrite e.userBuf.length⟩
  | .expire e => .spawn ⟨e, timerInterrupt⟩
  | .step t => .step t
  | .die task => .world (.die task)
  | .wait ns => .world (.wait ns)

def start : Pool sig Env Timed Unit := ⟨(.initial, .initial), []⟩

def after (deeds : List Deed) : Pool sig Env Timed Unit :=
  Pool.run timedKernel passing start (deeds.map Deed.action)

/-- `hrtimer_init` and `hrtimer_start` find the timer neither queued nor running. -/
def FindsIdle : Condition sig Env Timed := fun _ _ o _ c =>
  match o with
  | .hrtimerInit | .hrtimerStart _ => c.1.enqueued = false ∧ c.1.running = none
  | _ => True

/-- One timer, each sample due and taken an interval after the one before it. -/
structure OneSchedule (c : Timed) : Prop where
  single : ¬(c.1.enqueued = true ∧ c.1.running ≠ none)
  scheduled : c.2.samples.IsChain fun later earlier => earlier.due + oneSecond ≤ later.due
  onTime : ∀ sample ∈ c.2.samples, sample.due ≤ sample.taken
  spaced : c.2.samples.IsChain fun later earlier => earlier.taken + oneSecond ≤ later.taken

structure SingleTimer (deeds : List Deed) : Prop where
  findsIdle : Pool.Admitted timedKernel passing FindsIdle start (deeds.map Deed.action)
  oneSchedule : ∀ before, before <+: deeds → OneSchedule (after before).shared

/-- `start_monitoring` comes to the timer before the first session, or after a firing that
found no living task has returned. -/
def StartsOver : Condition sig Env Timed := fun _ _ o _ c =>
  match o with
  | .hrtimerInit | .hrtimerStart _ => c.2.ended = true
  | _ => True

/-- A sample is taken `latency` after its expiry was due. -/
def Punctual (latency : Nat) : Condition sig Env Timed := fun _ _ o _ c =>
  match o with
  | .taskPc _ => c.2.now = c.2.due + latency
  | _ => True

/-- The operations that set the timer up. -/
def Op.setsTimer : Op → Bool
  | .hrtimerInit | .hrtimerStart _ => true
  | _ => false

instance (t : Tid) (e : Env) (o : Op) (a : o.Ans) (c : Timed) : Decidable (FindsIdle t e o a c) :=
  decidable_of_iff (Op.setsTimer o = true → c.1.enqueued = false ∧ c.1.running = none) <| by
    cases o <;> simp [Op.setsTimer, FindsIdle]

instance (t : Tid) (e : Env) (o : Op) (a : o.Ans) (c : Timed) : Decidable (StartsOver t e o a c) :=
  decidable_of_iff (Op.setsTimer o = true → c.2.ended = true) <| by
    cases o <;> simp [Op.setsTimer, StartsOver]

/-- The operation that takes a sample. -/
def Op.samples : Op → Bool
  | .taskPc _ => true
  | _ => false

instance (latency : Nat) (t : Tid) (e : Env) (o : Op) (a : o.Ans) (c : Timed) :
    Decidable (Punctual latency t e o a c) :=
  decidable_of_iff (Op.samples o = true → c.2.now = c.2.due + latency) <| by
    cases o <;> simp [Op.samples, Punctual]

/-! ## What of the state the schedule depends on -/

structure Alarm where
  enqueued : Bool
  running : Option Tid
  interval : Nat

def alarm (s : State) : Alarm := ⟨s.enqueued, s.running, s.sampleInterval⟩

/-- The call neither sets nor fires the timer. -/
def Op.Timeless : Op → Prop
  | .setSampleInterval _ | .hrtimerStart _ | .hrtimerCancel | .timerExpires
  | .callbackReturns _ => False
  | _ => True

theorem kernel_timeless {t : Tid} {e : Env} {o : Op} (timeless : Op.Timeless o) (s : State) :
    alarm (kernel t e o s).state = alarm s := by
  have stay : alarm s = alarm s := rfl
  cases o with
  | setSampleInterval _ | hrtimerStart _ | hrtimerCancel | timerExpires | callbackReturns _ =>
      exact timeless.elim
  | getTaskStruct task => exact onTask_state (I := (alarm · = alarm s)) stay task fun _ => rfl
  | putTaskStruct task =>
      apply onTask_state (I := (alarm · = alarm s)) stay task
      intro _
      split <;> rfl
  | pidAlive task => exact onTask_state (I := (alarm · = alarm s)) stay task fun _ => rfl
  | taskPc task => exact onTask_state (I := (alarm · = alarm s)) stay task fun _ => rfl
  | kfree p =>
      simp only [kernel]
      exact onBuffer_state (I := (alarm · = alarm s)) stay (some p) fun _ _ => rfl
  | loadEvent p i => exact onBuffer_state (I := (alarm · = alarm s)) stay p fun _ _ => rfl
  | storeEvent p i ev => exact onBuffer_state (I := (alarm · = alarm s)) stay p fun _ _ => rfl
  | loadPrev p i => exact onBuffer_state (I := (alarm · = alarm s)) stay p fun _ _ => rfl
  | storePrev p i v => exact onBuffer_state (I := (alarm · = alarm s)) stay p fun _ _ => rfl
  | perfEventReleaseKernel ev =>
      exact onEvent_state (I := (alarm · = alarm s)) stay ev fun _ => rfl
  | perfEventReadValue ev => exact onEvent_state (I := (alarm · = alarm s)) stay ev fun _ => rfl
  | kzalloc | perfEventCreateKernelCounter _ _ _ | drain _ | spinLock | enter _ | leave _ =>
      simp only [kernel]
      split <;> rfl
  | _ => rfl

/-- The call shows neither in the alarm nor in the schedule. -/
def Op.Unnoted : Op → Prop
  | .monitoredTask | .pidAlive _ | .taskPc _ | .hrtimerForwardNow _ => False
  | o => Op.Timeless o

theorem unnoted_timeless {o : Op} (unnoted : Op.Unnoted o) : Op.Timeless o := by
  cases o <;> first | exact unnoted.elim | exact unnoted

section Calls

variable {t : Tid} {e : Env} {o : Op} {a : o.Ans} {c c' : Timed}

theorem timedKernel_done :
    timedKernel t e o c = .done a c' ↔
      Op.Early o c.2 = false ∧ kernel t e o c.1 = .done a c'.1 ∧ c'.2 = note t e o a c.1 c.2 := by
  unfold timedKernel
  cases Op.Early o c.2 with
  | false =>
      simp only [Bool.false_eq_true, if_false, true_and]
      exact recorded_done
  | true => simp

theorem timeless_alarm (timeless : Op.Timeless o) (answered : timedKernel t e o c = .done a c') :
    alarm c'.1 = alarm c.1 := by
  have same := kernel_timeless (t := t) (e := e) timeless c.1
  rw [(timedKernel_done.mp answered).2.1] at same
  exact same

theorem unnoted_schedule (unnoted : Op.Unnoted o) (answered : timedKernel t e o c = .done a c') :
    c'.2 = c.2 := by
  rw [(timedKernel_done.mp answered).2.2]
  cases o <;> first | exact unnoted.elim | rfl

end Calls

/-! ## Phases -/

/-- Where a thread is: a writer outside the callback, before and after it has set the
interval, or a firing. -/
inductive Phase where
  | outside
  | set
  | expired
  | lost
  | live
  | sampled
  | forwarded
  deriving DecidableEq

def phases : Protocol sig Phase where
  allowed o r :=
    match o with
    | .setSampleInterval ns => r = .outside ∧ ns = oneSecond
    | .hrtimerStart ns => r = .set ∧ ns = oneSecond
    | .hrtimerCancel => False
    | .timerExpires => r = .outside
    | .monitoredTask => r = .outside ∨ r = .expired ∨ r = .live
    | .pidAlive task => r = .expired ∨ task = none
    | .taskPc task => r = .live ∨ task = none
    | .hrtimerForwardNow ns => r = .sampled ∧ ns = oneSecond
    | .callbackReturns restart => r = if restart then .forwarded else .lost
    | _ => True
  possible o a r :=
    match o with
    | .pidAlive task | .taskPc task => task ≠ none
    | .sampleInterval => r = .set ∨ r = .sampled → a = oneSecond
    | _ => True
  next o a r :=
    match o, a with
    | .setSampleInterval _, _ => .set
    | .timerExpires, _ => .expired
    | .monitoredTask, task => if r ≠ .outside ∧ task = none then .lost else r
    | .pidAlive _, alive => if alive then .live else .lost
    | .taskPc _, _ => .sampled
    | .hrtimerForwardNow _, _ => .forwarded
    | .callbackReturns _, _ => .outside
    | _, _ => r

theorem phases_creates {r : Phase} (o : Op) (creates : o.Creates) :
    phases.allowed o r ∧ ∀ a, phases.next o a r = r := by
  cases o <;> first | exact creates.elim | exact ⟨trivial, fun a => rfl⟩

theorem phases_counts {r : Phase} (o : Op) (counts : o.Counts) :
    phases.allowed o r ∧ ∀ a, phases.next o a r = r := by
  cases o <;> first | exact counts.elim | exact ⟨trivial, fun a => rfl⟩

theorem startMonitoring_phases (codes : List (BitVec 32)) (pid : Int) :
    (startMonitoring codes pid).Follows phases (fun _ _ => True) .outside := by
  simp only [startMonitoring, pidTask, setMonitoredTask, getMonitoredTask, call, Prog.call_bind,
    Prog.ret_bind]
  refine ⟨trivial, fun _ _ => ⟨trivial, fun _ _ => ⟨Or.inl rfl, ?_⟩⟩⟩
  intro task _
  cases task with
  | none => trivial
  | some task =>
      simp only [getTaskStruct, call, Prog.call_bind, Prog.ret_bind]
      refine ⟨Or.inl rfl, fun _ _ => ⟨trivial, ?_⟩⟩
      intro _ _
      apply Prog.follows_bind.mpr
      apply (initPerfCounters_creates codes pid).follows phases_creates
      intro made
      refine ⟨trivial, fun _ _ => ⟨trivial, ?_⟩⟩
      intro p _
      cases p with
      | none => trivial
      | some p =>
          refine ⟨⟨rfl, rfl⟩, fun _ _ => ⟨trivial, fun _ _ => ⟨trivial, fun _ _ => ⟨trivial, ?_⟩⟩⟩⟩
          intro ns possible
          exact ⟨⟨rfl, possible (Or.inl rfl)⟩, fun _ _ => trivial⟩

theorem pidWrite_phases (count : Nat) :
    (pidWrite count).Follows phases (fun _ _ => True) .outside := by
  rw [Modules.pidWrite_monitors]
  refine Modules.storePid_follows count (fun _ => trivial) ⟨trivial, fun _ => rfl⟩ fun pid _ => ?_
  refine ⟨trivial, trivial, fun stored _ => ?_⟩
  exact (startMonitoring_phases eventCodes stored).mono fun _ _ _ _ => trivial

/-- A firing says that the timer is to be queued again exactly if it has sampled. -/
theorem samplePerfCounters_phases (codes : List (BitVec 32)) :
    (samplePerfCounters codes).Follows phases
      (fun r restart => r = if restart then .forwarded else .lost) .expired := by
  simp only [samplePerfCounters, getMonitoredTask, call, Prog.call_bind, Prog.ret_bind]
  refine ⟨Or.inr (Or.inl rfl), ?_⟩
  intro task _
  cases task with
  | none => rfl
  | some task =>
      simp only [pidAlive, taskPc, call, Prog.call_bind, Prog.ret_bind]
      refine ⟨Or.inr (Or.inl rfl), ?_⟩
      intro again _
      refine ⟨?_, ?_⟩
      · cases again with
        | none => exact Or.inr rfl
        | some again => exact Or.inl rfl
      intro alive found
      cases again with
      | none => exact absurd rfl found
      | some again =>
          cases alive with
          | false => rfl
          | true =>
              refine ⟨Or.inr (Or.inr rfl), ?_⟩
              intro third _
              refine ⟨?_, ?_⟩
              · cases third with
                | none => exact Or.inr rfl
                | some third => exact Or.inl rfl
              intro pc _
              apply Prog.follows_bind.mpr
              apply (sampleCounters_counts codes 0).follows phases_counts
              intro _
              refine ⟨trivial, ?_⟩
              intro ns possible
              exact ⟨⟨rfl, possible (Or.inr rfl)⟩, fun _ _ => rfl⟩

theorem timerInterrupt_phases : timerInterrupt.Follows phases (fun _ _ => True) .outside := by
  simp only [timerInterrupt, timerExpires, call, Prog.call_bind, Prog.ret_bind]
  refine ⟨rfl, ?_⟩
  intro _ _
  apply Prog.follows_bind.mpr
  apply (samplePerfCounters_phases eventCodes).mono
  intro r restart returns
  exact ⟨returns, fun _ _ => trivial⟩

/-! ## What holds as long as every start finds the timer idle -/

/-- The last sample was due at least an interval before the timer is due. -/
def Schedule.Ahead (x : Schedule) : Prop :=
  ∀ last ∈ x.samples.head?, last.due + oneSecond ≤ x.due

structure Sound (m : Alarm) (x : Schedule) : Prop where
  ended : x.ended = true ↔ m.enqueued = false ∧ m.running = none
  single : ¬(m.enqueued = true ∧ m.running ≠ none)
  interval : x.ended = false → m.interval = oneSecond
  spaced : x.samples.IsChain fun later earlier => earlier.due + oneSecond ≤ later.due
  onTime : ∀ sample ∈ x.samples, sample.due ≤ sample.taken ∧ sample.taken ≤ x.now
  ahead : m.enqueued = true → x.Ahead

namespace Sound

variable {m : Alarm} {x : Schedule} {t : Tid} (sound : Sound m x)

include sound

theorem unqueued (runs : m.running = some t) : m.enqueued = false := by
  cases enqueued : m.enqueued with
  | false => rfl
  | true => exact absurd ⟨enqueued, by simp [runs]⟩ sound.single

theorem begun (runs : m.running = some t) : x.ended = false := by
  cases ended : x.ended with
  | false => rfl
  | true => exact absurd (sound.ended.mp ended).2 (by simp [runs])

theorem later (ns : Nat) : Sound m { x with now := x.now + ns } :=
  { sound with
    onTime := fun sample taken =>
      ⟨(sound.onTime sample taken).1, Nat.le_add_right_of_le (sound.onTime sample taken).2⟩ }

theorem timed : Sound { m with interval := oneSecond } x := { sound with interval := fun _ => rfl }

theorem heard (lost : Bool) : Sound m { x with lost := lost } := { sound with }

theorem started (timed : m.interval = oneSecond) (idle : m.running = none) :
    Sound { m with enqueued := true } { x with due := x.now + oneSecond, ended := false } where
  ended := by simp
  single := fun both => both.2 idle
  interval := fun _ => timed
  spaced := sound.spaced
  onTime := sound.onTime
  ahead := by
    intro _ last found
    have taken := sound.onTime last (List.mem_of_mem_head? found)
    exact Nat.add_le_add_right (Nat.le_trans taken.1 taken.2) oneSecond

theorem expired (enqueued : m.enqueued = true) :
    Sound { m with enqueued := false, running := some t } { x with lost := false } where
  ended := by
    have begun : x.ended ≠ true := fun ended => by simp [(sound.ended.mp ended).1] at enqueued
    simp [begun]
  single := fun both => Bool.noConfusion both.1
  interval := sound.interval
  spaced := sound.spaced
  onTime := sound.onTime
  ahead := Bool.noConfusion

theorem sampled (runs : m.running = some t) (due : x.due ≤ x.now) (ahead : x.Ahead) :
    Sound m { x with samples := ⟨x.due, x.now⟩ :: x.samples } :=
  { sound with
    spaced := List.isChain_cons.mpr ⟨ahead, sound.spaced⟩
    onTime := by
      intro sample taken
      rcases List.mem_cons.mp taken with rfl | before
      · exact ⟨due, Nat.le_refl _⟩
      · exact sound.onTime sample before
    ahead := fun enqueued => by simp [sound.unqueued runs] at enqueued }

theorem forwarded (runs : m.running = some t) (due : Nat) : Sound m { x with due := due } :=
  { sound with ahead := fun enqueued => by simp [sound.unqueued runs] at enqueued }

theorem returned (runs : m.running = some t) {restart : Bool} (lost : x.lost = !restart)
    (ahead : restart = true → x.Ahead) :
    Sound { m with running := none, enqueued := m.enqueued || restart }
      { x with ended := x.lost } where
  ended := by simp [sound.unqueued runs, lost]
  single := fun both => both.2 rfl
  interval := fun _ => sound.interval (sound.begun runs)
  spaced := sound.spaced
  onTime := sound.onTime
  ahead := by
    rw [sound.unqueued runs, Bool.false_or]
    exact ahead

end Sound

/-! ## What a thread knows in its phase -/

def Phase.Fits (m : Alarm) (x : Schedule) (t : Tid) : Phase → Prop
  | .outside => m.running ≠ some t
  | .set => m.running ≠ some t ∧ m.interval = oneSecond
  | .expired => m.running = some t ∧ x.due ≤ x.now ∧ x.Ahead
  | .lost => m.running = some t ∧ x.lost = true
  | .live => m.running = some t ∧ x.due ≤ x.now ∧ x.Ahead ∧ x.lost = false
  | .sampled =>
      m.running = some t ∧ x.due ≤ x.now ∧ (∀ last ∈ x.samples.head?, last.due = x.due) ∧
        x.lost = false
  | .forwarded => m.running = some t ∧ x.Ahead ∧ x.lost = false

section Fits

variable {m m' : Alarm} {x x' : Schedule} {t : Tid} {r : Phase}

/-- What a thread knows holds until the timer starts or ends the callback in it, or the
schedule changes under its callback. -/
theorem Phase.Fits.still (fits : r.Fits m x t) (running : m'.running = some t ↔ m.running = some t)
    (interval : m.interval = oneSecond → m'.interval = oneSecond)
    (undisturbed : m.running = some t → x' = x) : r.Fits m' x' t := by
  cases r with
  | outside => exact fun runs => fits (running.mp runs)
  | set => exact ⟨fun runs => fits.1 (running.mp runs), interval fits.2⟩
  | expired | lost | live | sampled | forwarded =>
      rw [undisturbed fits.1]
      exact ⟨running.mpr fits.1, fits.2⟩

theorem Phase.Fits.later (fits : r.Fits m x t) (ns : Nat) :
    r.Fits m { x with now := x.now + ns } t := by
  cases r with
  | outside | set | lost | forwarded => exact fits
  | expired | live | sampled => exact ⟨fits.1, Nat.le_add_right_of_le fits.2.1, fits.2.2⟩

theorem forward_ahead (due : x.due ≤ x.now) (reached : ∀ last ∈ x.samples.head?, last.due = x.due) :
    Schedule.Ahead { x with due := x.forward oneSecond } := by
  intro last found
  show last.due + oneSecond ≤ x.forward oneSecond
  rw [reached last found, Schedule.forward, if_pos due]
  exact Nat.add_le_add_left (Nat.le_mul_of_pos_right _ (Nat.succ_pos _)) _

end Fits

/-! ## The kernel keeps to what threads know -/

section Steps

variable {t u : Tid} {e : Env} {o : Op} {a : o.Ans} {c c' : Timed} {r q : Phase}

/-- A writer or a firing looks at `monitored_task`. -/
theorem looked_own {s : State} {x : Schedule} (sound : Sound (alarm s) x)
    (fits : r.Fits (alarm s) x t) (allowed : phases.allowed .monitoredTask r) :
    Sound (alarm s) (note t e .monitoredTask s.holdings.monitoredTask s x) ∧
      (phases.next .monitoredTask s.holdings.monitoredTask r).Fits (alarm s)
        (note t e .monitoredTask s.holdings.monitoredTask s x) t := by
  constructor
  · simp only [note]
    split
    · exact sound.heard _
    · exact sound
  · rcases allowed with rfl | rfl | rfl
    · exact fits.still Iff.rfl id fun runs => absurd runs fits
    · have runs : s.running = some t := fits.1
      simp only [note, runs, if_true]
      cases found : s.holdings.monitoredTask with
      | none => exact ⟨runs, rfl⟩
      | some task => exact fits
    · have runs : s.running = some t := fits.1
      simp only [note, runs, if_true]
      cases found : s.holdings.monitoredTask with
      | none => exact ⟨runs, rfl⟩
      | some task => exact ⟨runs, fits.2.1, fits.2.2.1, rfl⟩

/-- A firing returns: it has found no living task, or it has forwarded the timer. -/
theorem returned_own {s : State} {x : Schedule} {restart : Bool} (sound : Sound (alarm s) x)
    (fits : r.Fits (alarm s) x t) (allowed : phases.allowed (.callbackReturns restart) r)
    (runs : s.running = some t) :
    let idle := { s with running := none, enqueued := s.enqueued || restart }
    Sound (alarm idle) { x with ended := x.lost } ∧
      Phase.outside.Fits (alarm idle) { x with ended := x.lost } t := by
  intro idle
  have left : (alarm idle).running ≠ some t := fun none => nomatch none
  cases restart with
  | false =>
      obtain rfl : r = .lost := allowed
      exact ⟨sound.returned runs fits.2 Bool.noConfusion, left⟩
  | true =>
      obtain rfl : r = .forwarded := allowed
      exact ⟨sound.returned runs fits.2.2 fun _ => fits.2.1, left⟩

theorem timed_own (sound : Sound (alarm c.1) c.2) (fits : r.Fits (alarm c.1) c.2 t)
    (allowed : phases.allowed o r) (admitted : guarded timedKernel FindsIdle t e o c = .done a c') :
    Sound (alarm c'.1) c'.2 ∧ phases.possible o a r ∧
      (phases.next o a r).Fits (alarm c'.1) c'.2 t := by
  obtain ⟨answered, idle⟩ := guarded_done.mp admitted
  clear admitted
  by_cases unnoted : Op.Unnoted o
  · rw [timeless_alarm (unnoted_timeless unnoted) answered, unnoted_schedule unnoted answered]
    refine ⟨sound, ?_, ?_⟩
    · cases o with
      | sampleInterval =>
          obtain ⟨-, same, -⟩ := timedKernel_done.mp answered
          simp only [kernel, Outcome.done.injEq] at same
          rw [← same.1]
          rintro (rfl | rfl)
          · exact fits.2
          · exact sound.interval (sound.begun fits.1)
      | _ => first | exact trivial | exact unnoted.elim
    · cases o <;> first | exact fits | exact unnoted.elim
  · obtain ⟨early, done, noted⟩ := timedKernel_done.mp answered
    obtain ⟨s, x⟩ := c
    obtain ⟨s', x'⟩ := c'
    simp only at early done noted sound fits idle
    clear answered
    subst noted
    cases o with
    | setSampleInterval ns =>
        obtain ⟨rfl, rfl⟩ := allowed
        cases done
        exact ⟨sound.timed, trivial, fits, rfl⟩
    | hrtimerStart ns =>
        obtain ⟨rfl, rfl⟩ := allowed
        obtain rfl := hrtimerStart_done done
        exact ⟨sound.started fits.2 idle.2, trivial, fits⟩
    | hrtimerCancel => exact allowed.elim
    | timerExpires =>
        obtain ⟨queued, -, rfl⟩ := timerExpires_done done
        have due : x.due ≤ x.now := Nat.le_of_not_lt (of_decide_eq_false early)
        exact ⟨sound.expired queued, trivial, rfl, due, sound.ahead queued⟩
    | monitoredTask =>
        cases done
        obtain ⟨sound', fits'⟩ := looked_own (e := e) sound fits allowed
        exact ⟨sound', trivial, fits'⟩
    | pidAlive task =>
        cases task with
        | none => cases done
        | some task =>
            obtain rfl : r = .expired := allowed.resolve_right (Option.some_ne_none task)
            have runs : s.running = some t := fits.1
            cases done
            simp only [note, runs, if_true]
            refine ⟨sound.heard _, Option.some_ne_none task, ?_⟩
            cases lives : s.alive task with
            | false => exact ⟨runs, rfl⟩
            | true => exact ⟨runs, fits.2.1, fits.2.2, rfl⟩
    | taskPc task =>
        cases task with
        | none => cases done
        | some task =>
            obtain rfl : r = .live := allowed.resolve_right (Option.some_ne_none task)
            obtain ⟨runs, due, ahead, found⟩ := fits
            cases done
            refine ⟨sound.sampled runs due ahead, Option.some_ne_none task, runs, due, ?_, found⟩
            intro last newest
            cases newest
            rfl
    | hrtimerForwardNow ns =>
        obtain ⟨rfl, rfl⟩ := allowed
        obtain ⟨runs, due, reached, found⟩ := fits
        cases done
        exact ⟨sound.forwarded runs _, trivial, runs, forward_ahead due reached, found⟩
    | callbackReturns restart =>
        obtain ⟨runs, rfl⟩ := callbackReturns_done done
        obtain ⟨sound', fits'⟩ := returned_own sound fits allowed runs
        exact ⟨sound', trivial, fits'⟩
    | _ => exact absurd trivial unnoted

theorem timed_stable (other : u ≠ t) (fits : r.Fits (alarm c.1) c.2 t) (allowed : phases.allowed o r)
    (admitted : guarded timedKernel FindsIdle t e o c = .done a c')
    (theirs : q.Fits (alarm c.1) c.2 u) : q.Fits (alarm c'.1) c'.2 u := by
  obtain ⟨answered, idle⟩ := guarded_done.mp admitted
  clear admitted
  by_cases unnoted : Op.Unnoted o
  · rw [timeless_alarm (unnoted_timeless unnoted) answered, unnoted_schedule unnoted answered]
    exact theirs
  · obtain ⟨early, done, noted⟩ := timedKernel_done.mp answered
    obtain ⟨s, x⟩ := c
    obtain ⟨s', x'⟩ := c'
    simp only at early done noted fits idle theirs
    clear answered
    subst noted
    have apart : s.running = some t → s.running ≠ some u := fun ours theirs =>
      other (Option.some.inj (theirs.symm.trans ours))
    cases o with
    | setSampleInterval ns =>
        obtain ⟨-, rfl⟩ := allowed
        cases done
        exact theirs.still Iff.rfl (fun _ => rfl) fun _ => rfl
    | hrtimerStart ns =>
        obtain rfl := hrtimerStart_done done
        exact theirs.still Iff.rfl id fun runs => absurd (idle.2.symm.trans runs) nofun
    | hrtimerCancel => exact allowed.elim
    | timerExpires =>
        obtain ⟨-, still, rfl⟩ := timerExpires_done done
        have idle : s.running ≠ some u := fun runs => nomatch still.symm.trans runs
        refine theirs.still ?_ id fun runs => absurd runs idle
        exact ⟨fun runs => absurd (Option.some.inj runs).symm other, fun runs => absurd runs idle⟩
    | monitoredTask =>
        cases done
        exact theirs.still Iff.rfl id fun runs => if_neg fun ours => apart ours runs
    | pidAlive task =>
        cases task with
        | none => cases done
        | some task =>
            cases done
            exact theirs.still Iff.rfl id fun runs => if_neg fun ours => apart ours runs
    | taskPc task =>
        cases task with
        | none => cases done
        | some task =>
            obtain rfl : r = .live := allowed.resolve_right (Option.some_ne_none task)
            cases done
            exact theirs.still Iff.rfl id fun runs => absurd runs (apart fits.1)
    | hrtimerForwardNow ns =>
        obtain ⟨rfl, rfl⟩ := allowed
        cases done
        exact theirs.still Iff.rfl id fun runs => absurd runs (apart fits.1)
    | callbackReturns restart =>
        obtain ⟨ours, rfl⟩ := callbackReturns_done done
        refine theirs.still ?_ id fun runs => absurd runs (apart ours)
        exact ⟨nofun, fun runs => absurd runs (apart ours)⟩
    | _ => exact absurd trivial unnoted

end Steps

/-! ## Runs with one timer -/

/-- What holds of the state, and what each thread knows of it. -/
def Sane (c : Pool sig Env Timed Unit) : Prop :=
  c.Relies phases (fun _ _ => True) (fun c => Sound (alarm c.1) c.2)
    (fun c t r => r.Fits (alarm c.1) c.2 t) .outside

theorem start_sane : Sane start := by
  refine ⟨⟨?_, ?_, ?_, ?_, ?_, ?_⟩, fun t thread found => ?_, fun t _ => nofun⟩
  · exact iff_of_true rfl ⟨rfl, rfl⟩
  · exact fun both => both.2 rfl
  · exact nofun
  · exact List.isChain_nil
  · exact nofun
  · exact nofun
  · cases found

theorem step_sane (deed : Deed) (c : Pool sig Env Timed Unit) (sane : Sane c) :
    Sane (Pool.step (guarded timedKernel FindsIdle) passing c deed.action) := by
  refine Pool.step_relies ?_ ?_ ?_ ?_ sane
  · intro t e o c a c' r sound fits allowed admitted
    exact timed_own sound fits allowed admitted
  · intro t u e o c a c' r q other fits allowed admitted theirs
    exact timed_stable other fits allowed admitted theirs
  · intro w c sound
    cases w with
    | die task => exact ⟨sound, fun t r fits => fits⟩
    | wait ns => exact ⟨sound.later ns, fun t r fits => fits.later ns⟩
  · intro thread spawned
    cases deed with
    | write e =>
        cases spawned
        apply Prog.follows_bind.mpr
        exact (pidWrite_phases e.userBuf.length).mono fun _ _ _ => trivial
    | expire e =>
        cases spawned
        exact timerInterrupt_phases
    | step t => cases spawned
    | die task => cases spawned
    | wait ns => cases spawned

theorem deeds_sane (deeds : List Deed) : ∀ action ∈ deeds.map Deed.action, ∀ c, Sane c →
    Sane (Pool.step (guarded timedKernel FindsIdle) passing c action) := by
  intro action made c sane
  obtain ⟨deed, -, rfl⟩ := List.mem_map.mp made
  exact step_sane deed c sane

/-- The timer is idle exactly if the session is over, as long as every start finds it so. -/
theorem findsIdle_iff (deeds : List Deed) :
    Pool.Admitted timedKernel passing FindsIdle start (deeds.map Deed.action) ↔
      Pool.Admitted timedKernel passing StartsOver start (deeds.map Deed.action) := by
  refine Pool.admitted_congr (deeds_sane deeds) ?_ start_sane
  intro c t sane
  have same : ∀ (e : Env) (o : Op) (a : o.Ans),
      FindsIdle t e o a c.shared ↔ StartsOver t e o a c.shared := by
    intro e o a
    cases o <;> first | exact sane.inv.ended.symm | exact Iff.rfl
  simp only [Pool.admits_iff, same]

theorem admitted_sane {deeds : List Deed}
    (findsIdle : Pool.Admitted timedKernel passing FindsIdle start (deeds.map Deed.action)) :
    Sane (after deeds) :=
  Pool.admitted_invariant (deeds_sane deeds) start_sane findsIdle

/-! ## When the samples are taken -/

/-- All samples are equally late. -/
def Schedule.Delayed (x : Schedule) (latency : Nat) : Prop :=
  ∀ sample ∈ x.samples, sample.taken = sample.due + latency

theorem note_delayed {latency : Nat} {t : Tid} {e : Env} {o : Op} {a : o.Ans} {c : Timed}
    (delayed : c.2.Delayed latency) (punctual : Punctual latency t e o a c) :
    (note t e o a c.1 c.2).Delayed latency := by
  cases o with
  | taskPc task =>
      intro sample taken
      rcases List.mem_cons.mp taken with rfl | before
      · exact punctual
      · exact delayed sample before
  | monitoredTask | pidAlive _ =>
      simp only [note]
      split <;> exact delayed
  | _ => exact delayed

theorem step_delayed {latency : Nat} (action : Pool.Action sig Env Passing Unit)
    {c : Pool sig Env Timed Unit} (delayed : c.shared.2.Delayed latency) :
    (Pool.step (guarded timedKernel (Punctual latency)) passing c action).shared.2.Delayed
      latency := by
  refine Pool.step_shared (I := fun c : Timed => c.2.Delayed latency) ?_ (fun w c delayed => ?_)
    delayed action
  · intro t e o c a c' delayed admitted
    obtain ⟨answered, punctual⟩ := guarded_done.mp admitted
    rw [(timedKernel_done.mp answered).2.2]
    exact note_delayed delayed punctual
  · cases w <;> exact delayed

theorem admitted_delayed {latency : Nat} {deeds : List Deed}
    (punctual : Pool.Admitted timedKernel passing (Punctual latency) start (deeds.map Deed.action)) :
    (after deeds).shared.2.Delayed latency :=
  Pool.admitted_invariant (I := fun c => c.shared.2.Delayed latency)
    (fun action _ _ delayed => step_delayed action delayed) nofun punctual

/-- Equally late samples are as far apart as their expiries. -/
theorem Schedule.Delayed.spaced {x : Schedule} {latency : Nat} (delayed : x.Delayed latency)
    (scheduled : x.samples.IsChain fun later earlier => earlier.due + oneSecond ≤ later.due) :
    x.samples.IsChain fun later earlier => earlier.taken + oneSecond ≤ later.taken := by
  apply scheduled.imp_of_mem_imp
  intro later earlier late early apart
  have lateness := delayed later late
  have earliness := delayed earlier early
  omega

/-- **A run has one timer and one schedule** exactly if every start comes before the first
session, or after a firing that has found no living task.  That is so whenever all samples
are equally late, above all when none is late. -/
theorem single_timer_iff (deeds : List Deed) (latency : Nat)
    (punctual : Pool.Admitted timedKernel passing (Punctual latency) start
      (deeds.map Deed.action)) :
    SingleTimer deeds ↔
      Pool.Admitted timedKernel passing StartsOver start (deeds.map Deed.action) := by
  rw [← findsIdle_iff]
  constructor
  · exact SingleTimer.findsIdle
  · intro findsIdle
    refine ⟨findsIdle, ?_⟩
    rintro before ⟨rest, rfl⟩
    rw [List.map_append, Pool.admitted_append] at findsIdle punctual
    have sound := (admitted_sane findsIdle.1).inv
    have delayed := admitted_delayed punctual.1
    exact ⟨sound.single, sound.spaced, fun sample taken => (sound.onTime sample taken).1,
      delayed.spaced sound.spaced⟩

/-- Task 5 is monitored and sampled; it dies, a firing finds it gone, and task 6 follows. -/
def succession : List Deed :=
  .write (.echo "5\n".toList) :: List.replicate 57 (.step 0) ++
    .wait oneSecond :: .expire .quiet :: List.replicate 113 (.step 1) ++
    .die 5 :: .wait oneSecond :: .expire .quiet :: List.replicate 5 (.step 2) ++
    .write (.echo "6\n".toList) :: List.replicate 57 (.step 3)

theorem succession_single_timer : SingleTimer succession :=
  (single_timer_iff succession 0 (by decide +kernel)).mpr (by decide +kernel)

/-- One session; its first interrupt comes 0.9 seconds late, the next one when it is due. -/
def lateTick : List Deed :=
  .write (.echo "5\n".toList) :: List.replicate 57 (.step 0) ++
    .wait (oneSecond + 900000000) :: .expire .quiet :: List.replicate 113 (.step 1) ++
    .wait 100000000 :: .expire .quiet :: List.replicate 113 (.step 2)

/-- The samples of one schedule come 0.1 seconds apart. -/
example : Pool.Admitted timedKernel passing StartsOver start (lateTick.map Deed.action) ∧
    (after lateTick).shared.2.samples = [⟨2000000000, 2000000000⟩, ⟨1000000000, 1900000000⟩] := by
  decide +kernel

/-- Two pids are written, one after the other. -/
def twoWrites : List Deed :=
  .write (.echo "5\n".toList) :: List.replicate 57 (.step 0) ++
    .write (.echo "6\n".toList) :: List.replicate 57 (.step 1)

theorem second_write_finds_timer_queued : ¬∀ deeds, SingleTimer deeds := by
  intro single
  have findsIdle := (single twoWrites).findsIdle
  revert findsIdle
  decide +kernel

end Dreamscape.MonitorV2.Timer
