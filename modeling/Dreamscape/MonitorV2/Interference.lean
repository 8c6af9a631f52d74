/-
# MonitorV2.Interference -- what other tasks contribute to the reports

The counters of a session are created on a CPU and without a task, so they count what
every task generates there.  Two runs are compared that differ only in the events of
tasks other than the monitored one.  They go through the same states (`Paired`), except
for the hardware's log and what was reported of it, and each counter has counted the
same events of the monitored task in both.  So they report the same if and only if, at
every sample, each counter has counted equally many events of the other tasks, modulo
`2 ^ 64` (`noninterference_iff`).
-/
import Dreamscape.MonitorV2.Coherence
import Dreamscape.MonitorV2.Sampling

namespace Dreamscape.MonitorV2

set_option autoImplicit false

open Theory Kernel

/-! ## Two runs -/

abbrev Session := Serial sig Env State Int

/-- Everything but the events of tasks other than `target`. -/
def Event.common (target : Nat) : Event → Bool
  | .occur occ => occ.pid == target
  | _ => true

def Session.step (c : Session) (event : Event) : Session :=
  Serial.step kernel Weather.act c event.action

def Session.run (c : Session) (events : List Event) : Session := events.foldl Session.step c

theorem serialAfter_run (events : List Event) :
    serialAfter events = Session.run ⟨.initial, 0, none⟩ events := by
  unfold serialAfter Serial.run Session.run
  rw [List.foldl_map]
  rfl

/-- What each counter of a sample has counted of the other tasks. -/
def State.noise (target : Nat) (s : State) : List U64 :=
  s.counters.map fun ev => ev.counted ((s.since ev).filter fun occ => !(occ.pid == target))

def Event.noise (target : Nat) (s : State) : Event → List (List U64)
  | .fire _ => if s.Due ∧ s.Watching then [s.noise target] else []
  | _ => []

def Session.noise (target : Nat) (c : Session) : List Event → List (List U64)
  | [] => []
  | event :: rest => event.noise target c.shared ++ (c.step event).noise target rest

/-! ## States that differ in their history only -/

/-- `s` with another history. -/
def State.recalling (s : State) (reports : List (BitVec 32 × U64 × U64)) (log : List Occurrence)
    (births : Nat → Nat) : State :=
  { s with reports := reports, log := log, births := births }

structure Alike (target : Nat) (s₁ s₂ : State) : Prop where
  same : s₂ = s₁.recalling s₂.reports s₂.log s₂.births
  born₁ : ∀ id, s₁.births id ≤ s₁.log.length
  born₂ : ∀ id, s₂.births id ≤ s₂.log.length
  own : ∀ ev, (s₁.since ev).filter (fun occ => occ.pid == target) =
    (s₂.since ev).filter fun occ => occ.pid == target
  even : s₁.reports.length = s₂.reports.length

theorem alike_initial (target : Nat) : Alike target .initial .initial where
  same := rfl
  born₁ := fun _ => Nat.le_refl 0
  born₂ := fun _ => Nat.le_refl 0
  own := fun _ => rfl
  even := rfl

section Alikeness

variable {target : Nat} {s₁ s₂ : State}

theorem Alike.symm (alike : Alike target s₁ s₂) : Alike target s₂ s₁ where
  same := by
    have same := alike.same
    generalize s₂.reports = r, s₂.log = l, s₂.births = b at same
    subst same
    rfl
  born₁ := alike.born₂
  born₂ := alike.born₁
  own := fun ev => (alike.own ev).symm
  even := alike.even.symm

/-- What a counter has counted, own events and others apart. -/
theorem counted_split (ev : PerfEvent) (occs : List Occurrence) (mine : Occurrence → Bool) :
    ev.counted occs = ev.counted (occs.filter mine) + ev.counted (occs.filter fun occ => !mine occ) := by
  unfold PerfEvent.counted
  split
  · rfl
  · rw [← BitVec.ofNat_add, List.countP_eq_countP_filter_add occs ev.observes mine]

/-- Two values of a counter are equal if the others' shares in them are. -/
theorem counted_iff (alike : Alike target s₁ s₂) (ev : PerfEvent) :
    ev.counted (s₁.since ev) = ev.counted (s₂.since ev) ↔
      ev.counted ((s₁.since ev).filter fun occ => !(occ.pid == target)) =
        ev.counted ((s₂.since ev).filter fun occ => !(occ.pid == target)) := by
  rw [counted_split ev (s₁.since ev) fun occ => occ.pid == target,
    counted_split ev (s₂.since ev) fun occ => occ.pid == target, alike.own ev]
  exact add_right_inj _

end Alikeness

/-! ## The calls of a writer do not look at the history -/

section Calls

variable {target : Nat} {t : Tid} {e : Env}

theorem onBuffer_recalling {α : Type} (s : State) (p : Option Ptr)
    (reports : List (BitVec 32 × U64 × U64)) (log : List Occurrence) (births : Nat → Nat)
    {f g : Ptr → Buffer → Answer α}
    (same : ∀ q buf, g q buf = (f q buf).mapState fun s => s.recalling reports log births) :
    (s.recalling reports log births).onBuffer p g =
      (s.onBuffer p f).mapState fun s => s.recalling reports log births := by
  cases p with
  | none => rfl
  | some q =>
      have untouched : (s.recalling reports log births).holdings = s.holdings := rfl
      simp only [State.onBuffer, untouched]
      cases s.holdings.buffers q with
      | none => rfl
      | some buf => exact same q buf

theorem onTask_recalling {α : Type} (s : State) (task : Option Task)
    (reports : List (BitVec 32 × U64 × U64)) (log : List Occurrence) (births : Nat → Nat)
    {f g : Task → Answer α}
    (same : ∀ found, g found = (f found).mapState fun s => s.recalling reports log births) :
    (s.recalling reports log births).onTask task g =
      (s.onTask task f).mapState fun s => s.recalling reports log births := by
  cases task with
  | none => rfl
  | some found => exact same found

theorem onEvent_recalling {α : Type} (s : State) (ev : EventPtr)
    (reports : List (BitVec 32 × U64 × U64)) (log : List Occurrence) (births : Nat → Nat)
    {f g : PerfEvent → Answer α}
    (same : ∀ found, g found = (f found).mapState fun s => s.recalling reports log births) :
    (s.recalling reports log births).onEvent ev g =
      (s.onEvent ev f).mapState fun s => s.recalling reports log births := by
  cases ev with
  | null => rfl
  | err code => rfl
  | ptr found =>
      show (if found ∈ s.holdings.released then _ else _ : Answer α) =
        Outcome.mapState _ (if found ∈ s.holdings.released then _ else _)
      split
      · rfl
      · exact same found

/-- A writer's call other than a creation neither reads nor changes the history. -/
theorem kernel_recalling {o : Op} (writes : o.Writes)
    (plain : ∀ attr cpu task, o ≠ .perfEventCreateKernelCounter attr cpu task) (s : State)
    (reports : List (BitVec 32 × U64 × U64)) (log : List Occurrence) (births : Nat → Nat) :
    kernel t e o (s.recalling reports log births) =
      (kernel t e o s).mapState fun s => s.recalling reports log births := by
  cases o with
  | perfEventCreateKernelCounter attr cpu task => exact absurd rfl (plain attr cpu task)
  | getTaskStruct task => exact onTask_recalling s task _ _ _ fun _ => rfl
  | putTaskStruct task =>
      apply onTask_recalling s task _ _ _
      intro found
      show (if s.holdings.puts.count found < s.holdings.gets.count found then _ else _) =
        Outcome.mapState _ (if s.holdings.puts.count found < s.holdings.gets.count found then _ else _)
      split <;> rfl
  | pidAlive task => exact onTask_recalling s task _ _ _ fun _ => rfl
  | taskPc task => exact onTask_recalling s task _ _ _ fun _ => rfl
  | kfree p =>
      simp only [kernel]
      exact onBuffer_recalling s (some p) _ _ _ fun _ _ => rfl
  | loadEvent p i => exact onBuffer_recalling s p _ _ _ fun _ _ => rfl
  | storeEvent p i ev => exact onBuffer_recalling s p _ _ _ fun _ _ => rfl
  | loadPrev p i => exact onBuffer_recalling s p _ _ _ fun _ _ => rfl
  | storePrev p i v => exact onBuffer_recalling s p _ _ _ fun _ _ => rfl
  | perfEventReleaseKernel ev => exact onEvent_recalling s ev _ _ _ fun _ => rfl
  | kzalloc =>
      simp only [kernel]
      split <;> rfl
  | hrtimerStart ns =>
      by_cases initialised : s.holdings.timerInitialised = true
      · simp only [kernel, State.recalling, initialised, if_true]
        rfl
      · simp [kernel, State.recalling, Outcome.mapState, initialised]
  | spinLock =>
      by_cases free : s.bufferLock = none <;>
        simp [kernel, State.recalling, Outcome.mapState, free]
  | perfEventReadValue _ | report _ _ _ | hrtimerCancel | timerExpires | callbackReturns _
  | enter _ | leave _ | unlist _ | drain _ => exact writes.elim
  | _ => rfl

variable {s₁ s₂ s₁' s₂' : State} {o : Op} {a : o.Ans}

/-- A change that both states go through, and that leaves their histories alone. -/
theorem alike_moved (alike : Alike target s₁ s₂)
    (same : s₂' = s₁'.recalling s₂.reports s₂.log s₂.births)
    (kept : s₁' = s₁'.recalling s₁.reports s₁.log s₁.births) : Alike target s₁' s₂' := by
  rw [same, kept]
  exact ⟨rfl, alike.born₁, alike.born₂, alike.own, alike.even⟩

theorem update_le {births : Nat → Nat} {now : Nat} (born : ∀ id, births id ≤ now) (id id' : Nat) :
    Function.update births id now id' ≤ now := by
  by_cases here : id' = id
  · rw [here, Function.update_self]
  · rw [Function.update_of_ne here]
    exact born id'

/-- An event created now has counted nothing yet. -/
theorem alike_born (alike : Alike target s₁ s₂) (h : Holdings) (id : Nat) :
    Alike target { s₁.holding h with births := Function.update s₁.births id s₁.log.length }
      { s₂.holding h with births := Function.update s₂.births id s₂.log.length } where
  same := congrArg (fun s : State => { s.holding h with
    births := Function.update s₂.births id s₂.log.length }) alike.same
  born₁ := update_le alike.born₁ id
  born₂ := update_le alike.born₂ id
  own := by
    intro ev
    show List.filter _ (s₁.log.drop (Function.update s₁.births id _ ev.id)) =
      List.filter _ (s₂.log.drop (Function.update s₂.births id _ ev.id))
    by_cases here : ev.id = id
    · rw [here, Function.update_self, Function.update_self, List.drop_length, List.drop_length]
    · rw [Function.update_of_ne here, Function.update_of_ne here]
      exact alike.own ev
  even := alike.even

/-- A writer's call that is answered in one of two alike states is answered alike in the
other. -/
theorem kernel_alike (writes : o.Writes) (alike : Alike target s₁ s₂)
    (answered : kernel t e o s₁ = .done a s₁') :
    ∃ s₂', kernel t e o s₂ = .done a s₂' ∧ Alike target s₁' s₂' ∧
      s₁'.reports = s₁.reports ∧ s₂'.reports = s₂.reports := by
  by_cases plain : ∀ attr cpu task, o ≠ .perfEventCreateKernelCounter attr cpu task
  · have kept := kernel_recalling (t := t) (e := e) writes plain s₁ s₁.reports s₁.log s₁.births
    have moved := kernel_recalling (t := t) (e := e) writes plain s₁ s₂.reports s₂.log s₂.births
    rw [← alike.same, answered] at moved
    have self : s₁.recalling s₁.reports s₁.log s₁.births = s₁ := rfl
    rw [self, answered] at kept
    have still : s₁' = s₁'.recalling s₁.reports s₁.log s₁.births := (Outcome.done.inj kept).2
    exact ⟨_, moved, alike_moved alike rfl still, (congrArg State.reports still).trans rfl, rfl⟩
  · push Not at plain
    obtain ⟨attr, cpu, task, rfl⟩ := plain
    have held : s₂.holdings = s₁.holdings := (congrArg State.holdings alike.same).trans rfl
    simp only [kernel] at answered ⊢
    rw [held]
    split at answered
    · cases answered
      have moved : Alike target (s₁.holding ((s₁.holdings.ask t).refuse t))
          (s₂.holding ((s₁.holdings.ask t).refuse t)) :=
        alike_moved alike (congrArg (fun s : State => s.holding _) alike.same) rfl
      exact ⟨_, rfl, moved, rfl, rfl⟩
    · cases answered
      exact ⟨_, rfl, alike_born alike _ _, rfl, rfl⟩

end Calls

/-! ## Samples -/

section Samples

variable {target : Nat} {s₁ s₂ : State}

theorem read_alike (alike : Alike target s₁ s₂) (p : Ptr) (i : Nat) (code : BitVec 32)
    {ev : PerfEvent} (value : ev.counted (s₁.since ev) = ev.counted (s₂.since ev)) :
    Alike target (s₁.read p i code ev) (s₂.read p i code ev) where
  same := by
    obtain ⟨r, l, b, rfl⟩ : ∃ r l b, s₂ = s₁.recalling r l b := ⟨_, _, _, alike.same⟩
    unfold State.read
    rw [← value]
    rfl
  born₁ := alike.born₁
  born₂ := alike.born₂
  own := alike.own
  even := by
    show (s₁.reports ++ [_]).length = (s₂.reports ++ [_]).length
    rw [List.length_append, List.length_append, alike.even]
    rfl

theorem readAll_grows (p : Ptr) (codes : List (BitVec 32)) (evs : List PerfEvent) (i : Nat)
    (s : State) : s.reports <+: (s.readAll p codes evs i).reports := by
  induction codes generalizing evs i s with
  | nil => exact List.prefix_rfl
  | cons code codes ih =>
      cases evs with
      | nil => exact List.prefix_rfl
      | cons ev evs => exact (List.prefix_append _ _).trans (ih evs (i + 1) (s.read p i code ev))

theorem readAll_length (p : Ptr) {codes : List (BitVec 32)} {evs : List PerfEvent}
    (same : codes.length = evs.length) (i : Nat) (s : State) :
    (s.readAll p codes evs i).reports.length = s.reports.length + evs.length := by
  induction codes generalizing evs i s with
  | nil =>
      rw [List.length_nil] at same
      rw [← same]
      rfl
  | cons code codes ih =>
      cases evs with
      | nil => cases same
      | cons ev evs =>
          have onward := ih (Nat.succ.inj same) (i + 1) (s.read p i code ev)
          have one : (s.read p i code ev).reports.length = s.reports.length + 1 :=
            List.length_append
          rw [one, Nat.add_assoc, Nat.add_comm 1] at onward
          exact onward

/-- Reports that have grown apart stay apart. -/
theorem grown_apart {α : Type} {r₁ r₂ f₁ f₂ : List α} (even : r₁.length = r₂.length)
    (grew₁ : r₁ <+: f₁) (grew₂ : r₂ <+: f₂) (same : f₁ = f₂) : r₁ = r₂ := by
  subst same
  exact (List.prefix_of_prefix_length_le grew₁ grew₂ (Nat.le_of_eq even)).eq_of_length even

/-- Two samples of the same counters report the same if and only if the shares of the
other tasks in them are the same, and then they leave alike states. -/
theorem readAll_alike (p : Ptr) {codes : List (BitVec 32)} {evs : List PerfEvent}
    (same : codes.length = evs.length) (i : Nat) (alike : Alike target s₁ s₂) :
    ((s₁.readAll p codes evs i).reports = (s₂.readAll p codes evs i).reports ↔
      s₁.reports = s₂.reports ∧
        ∀ ev ∈ evs, ev.counted (s₁.since ev) = ev.counted (s₂.since ev)) ∧
    ((∀ ev ∈ evs, ev.counted (s₁.since ev) = ev.counted (s₂.since ev)) →
      Alike target (s₁.readAll p codes evs i) (s₂.readAll p codes evs i)) := by
  induction codes generalizing evs i s₁ s₂ with
  | nil =>
      have none_read : evs = [] := List.length_eq_zero_iff.mp same.symm
      subst none_read
      exact ⟨⟨fun reports => ⟨reports, fun ev inside => absurd inside List.not_mem_nil⟩,
        fun both => both.1⟩, fun _ => alike⟩
  | cons code codes ih =>
      cases evs with
      | nil => cases same
      | cons ev evs =>
          have length : codes.length = evs.length := Nat.succ.inj same
          have apart : (s₁.readAll p (code :: codes) (ev :: evs) i).reports =
              (s₂.readAll p (code :: codes) (ev :: evs) i).reports →
              s₁.reports = s₂.reports ∧ ev.counted (s₁.since ev) = ev.counted (s₂.since ev) := by
            intro reports
            have even : (s₁.read p i code ev).reports.length = (s₂.read p i code ev).reports.length := by
              show (s₁.reports ++ [_]).length = (s₂.reports ++ [_]).length
              rw [List.length_append, List.length_append, alike.even]
              rfl
            have first := grown_apart even (readAll_grows p codes evs (i + 1) _)
              (readAll_grows p codes evs (i + 1) _) reports
            obtain ⟨before, report⟩ := List.append_inj first alike.even
            have value := congrArg (fun r => r.2.1) (List.head_eq_of_cons_eq report)
            exact ⟨before, value⟩
          by_cases value : ev.counted (s₁.since ev) = ev.counted (s₂.since ev)
          · obtain ⟨reports, onward⟩ := ih length (i + 1) (read_alike alike p i code value)
            refine ⟨⟨fun ended => ?_, fun ⟨before, values⟩ => ?_⟩, fun values => ?_⟩
            · refine ⟨(apart ended).1, ?_⟩
              intro other inside
              rcases List.mem_cons.mp inside with rfl | later
              · exact value
              · exact (reports.mp ended).2 other later
            · have previous : s₂.prevValues = s₁.prevValues :=
                (congrArg State.prevValues alike.same).trans rfl
              refine reports.mpr ⟨?_, fun other inside => values other (List.mem_cons_of_mem ev inside)⟩
              simp only [State.read, before, value, previous]
            · exact onward fun other inside => values other (List.mem_cons_of_mem ev inside)
          · refine ⟨⟨fun ended => absurd (apart ended).2 value, fun ⟨_, values⟩ => ?_⟩,
              fun values => ?_⟩
            · exact absurd (values ev List.mem_cons_self) value
            · exact absurd (values ev List.mem_cons_self) value

theorem noise_iff (alike : Alike target s₁ s₂) :
    s₁.noise target = s₂.noise target ↔
      ∀ ev ∈ s₁.counters, ev.counted (s₁.since ev) = ev.counted (s₂.since ev) := by
  have counters : s₂.counters = s₁.counters := by
    rw [alike.same]
    rfl
  unfold State.noise
  rw [counters, List.map_inj_left]
  exact forall₂_congr fun ev _ => (counted_iff alike ev).symm

end Samples

/-! ## Steps -/

/-- Two alike states have made a step together: they report the same if their noise is the
same, and then they are alike again. -/
structure Together (target : Nat) (s₁ s₂ s₁' s₂' : State) (n₁ n₂ : List (List U64)) : Prop where
  reports : s₁'.reports = s₂'.reports ↔ s₁.reports = s₂.reports ∧ n₁ = n₂
  onward : n₁ = n₂ → Alike target s₁' s₂'
  even : s₁'.reports.length = s₂'.reports.length
  silent : n₁.length = n₂.length

section Together

variable {target : Nat} {s₁ s₂ s₁' s₂' : State}

theorem together_quiet (alike : Alike target s₁' s₂') (kept₁ : s₁'.reports = s₁.reports)
    (kept₂ : s₂'.reports = s₂.reports) (noise : List (List U64)) :
    Together target s₁ s₂ s₁' s₂' noise noise where
  reports := by
    rw [kept₁, kept₂]
    exact (and_iff_left rfl).symm
  onward := fun _ => alike
  even := alike.even
  silent := rfl

theorem fire_together (alike : Alike target s₁ s₂) (sound : s₁.holdings.Sound) (env : Env) :
    Together target s₁ s₂ ((Weather.fire env).act s₁) ((Weather.fire env).act s₂)
      ((Event.fire env).noise target s₁) ((Event.fire env).noise target s₂) := by
  obtain ⟨r, l, b, rfl⟩ : ∃ r l b, s₂ = s₁.recalling r l b := ⟨_, _, _, alike.same⟩
  have due₂ : (s₁.recalling r l b).Due ↔ s₁.Due := Iff.rfl
  have watching₂ : (s₁.recalling r l b).Watching ↔ s₁.Watching := Iff.rfl
  simp only [Weather.act, Event.noise, due₂, watching₂]
  by_cases due : s₁.Due
  · by_cases watching : s₁.Watching
    · rw [if_pos ⟨due, watching⟩, if_pos ⟨due, watching⟩]
      cases published : s₁.holdings.perfData with
      | none =>
          have oops₂ := timerInterrupt_oops (t := 0) (e := env) (due₂.mpr due)
            (watching₂.mpr watching) published
          have unread : s₁.noise target = (s₁.recalling r l b).noise target := by
            simp [State.noise, State.counters, State.recalling, published]
          rw [timerInterrupt_oops due watching published, oops₂, unread]
          apply together_quiet
          · exact alike_moved alike rfl rfl
          · rfl
          · rfl
      | some p =>
          have reads₂ := timerInterrupt_reads (t := 0) (e := env) (due₂.mpr due)
            (watching₂.mpr watching) sound published
          rw [timerInterrupt_reads due watching sound published, reads₂]
          obtain ⟨-, -, -, full, -⟩ := counters_published sound published
          have length : eventCodes.length = s₁.counters.length :=
            eventCodes_length.trans full.symm
          obtain ⟨reports, onward⟩ := readAll_alike p length 0 alike
          have values := noise_iff alike
          refine ⟨reports.trans (and_congr_right' ?_), fun same => ?_, ?_, rfl⟩
          · rw [List.cons_eq_cons, and_iff_left rfl]
            exact values.symm
          · exact onward (values.mp (List.head_eq_of_cons_eq same))
          · have even : s₁.reports.length = r.length := alike.even
            have length₁ := readAll_length p length 0 s₁
            have length₂ := readAll_length p length 0 (s₁.recalling r l b)
            exact length₁.trans ((congrArg (· + _) even).trans length₂.symm)
    · have idle : ¬(s₁.Due ∧ s₁.Watching) := fun both => watching both.2
      have ends₂ := timerInterrupt_ends (t := 0) (e := env) (due₂.mpr due) (watching₂.not.mpr watching)
      rw [if_neg idle, if_neg idle, timerInterrupt_ends due watching, ends₂]
      apply together_quiet
      · exact alike_moved alike rfl rfl
      · rfl
      · rfl
  · have early : ¬(s₁.Due ∧ s₁.Watching) := fun both => due both.1
    have waits₂ := timerInterrupt_waits (t := 0) (e := env) (due₂.not.mpr due)
    rw [if_neg early, if_neg early, timerInterrupt_waits due, waits₂]
    exact together_quiet alike rfl rfl _

theorem since_occur {s : State} {ev : PerfEvent} (born : s.births ev.id ≤ s.log.length)
    (occ : Occurrence) : State.since { s with log := s.log ++ [occ] } ev = s.since ev ++ [occ] :=
  List.drop_append_of_le_length born

theorem born_occur {s : State} (born : ∀ id, s.births id ≤ s.log.length) (occ : Occurrence)
    (id : Nat) : s.births id ≤ (s.log ++ [occ]).length := by
  rw [List.length_append]
  exact Nat.le_add_right_of_le (born id)

/-- The other tasks' events change neither what was reported nor what a counter has
counted of the monitored task. -/
theorem others_alike (alike : Alike target s₁ s₂) {occ : Occurrence}
    (other : (occ.pid == target) = false) :
    Alike target { s₁ with log := s₁.log ++ [occ] } s₂ where
  same := by
    obtain ⟨r, l, b, rfl⟩ : ∃ r l b, s₂ = s₁.recalling r l b := ⟨_, _, _, alike.same⟩
    rfl
  born₁ := born_occur alike.born₁ occ
  born₂ := alike.born₂
  own := by
    intro ev
    rw [since_occur (alike.born₁ ev.id), List.filter_append, alike.own ev]
    simp [other]
  even := alike.even

/-- An event of the monitored task is counted in both states. -/
theorem own_alike (alike : Alike target s₁ s₂) (occ : Occurrence) :
    Alike target { s₁ with log := s₁.log ++ [occ] } { s₂ with log := s₂.log ++ [occ] } where
  same := by
    obtain ⟨r, l, b, rfl⟩ : ∃ r l b, s₂ = s₁.recalling r l b := ⟨_, _, _, alike.same⟩
    rfl
  born₁ := born_occur alike.born₁ occ
  born₂ := born_occur alike.born₂ occ
  own := by
    intro ev
    rw [since_occur (alike.born₁ ev.id), since_occur (alike.born₂ ev.id), List.filter_append,
      List.filter_append, alike.own ev]
  even := alike.even

end Together

/-! ## Reports are never taken back -/

theorem kernel_grows {t : Tid} {e : Env} {o : Op} {s : State} {r : List (BitVec 32 × U64 × U64)}
    (before : r <+: s.reports) : r <+: (kernel t e o s).state.reports := by
  cases o with
  | report code value delta => exact before.trans (List.prefix_append _ _)
  | getTaskStruct task =>
      exact onTask_state (I := fun s => r <+: s.reports) before task fun _ => before
  | putTaskStruct task =>
      refine onTask_state (I := fun s => r <+: s.reports) before task ?_
      intro _
      split <;> exact before
  | pidAlive task =>
      exact onTask_state (I := fun s => r <+: s.reports) before task fun _ => before
  | taskPc task =>
      exact onTask_state (I := fun s => r <+: s.reports) before task fun _ => before
  | kfree p =>
      simp only [kernel]
      exact onBuffer_state (I := fun s => r <+: s.reports) before (some p) fun _ _ => before
  | loadEvent p i =>
      exact onBuffer_state (I := fun s => r <+: s.reports) before p fun _ _ => before
  | storeEvent p i ev =>
      exact onBuffer_state (I := fun s => r <+: s.reports) before p fun _ _ => before
  | loadPrev p i =>
      exact onBuffer_state (I := fun s => r <+: s.reports) before p fun _ _ => before
  | storePrev p i v =>
      exact onBuffer_state (I := fun s => r <+: s.reports) before p fun _ _ => before
  | perfEventReleaseKernel ev =>
      exact onEvent_state (I := fun s => r <+: s.reports) before ev fun _ => before
  | perfEventReadValue ev =>
      exact onEvent_state (I := fun s => r <+: s.reports) before ev fun _ => before
  | kzalloc | hrtimerStart ns | spinLock | timerExpires | callbackReturns restart | enter g
  | leave g | drain g =>
      simp only [kernel]
      split <;> exact before
  | perfEventCreateKernelCounter attr cpu task =>
      simp only [kernel]
      split <;> exact before
  | hrtimerCancel =>
      simp only [kernel]
      split
      · split <;> exact before
      · exact before
  | _ => exact before

theorem step_grows (c : Session) (event : Event) :
    c.shared.reports <+: (c.step event).shared.reports := by
  unfold Session.step Serial.step
  cases event with
  | write env =>
      simp only [Event.action]
      split <;> exact List.prefix_rfl
  | step =>
      simp only [Event.action, Serial.advance]
      split
      · exact List.prefix_rfl
      · exact List.prefix_rfl
      · rename_i e o k under_way
        have grows := kernel_grows (t := c.calls) (e := e) (o := o) (s := c.shared) List.prefix_rfl
        split
        · rename_i answered
          rwa [answered] at grows
        · exact List.prefix_rfl
        · exact List.prefix_rfl
  | fire env =>
      exact timerInterrupt_observes.exec_invariant
        (I := fun s : State => c.shared.reports <+: s.reports)
        (fun _ _ _ before => kernel_grows before) List.prefix_rfl
  | die task | occur occ => exact List.prefix_rfl

theorem run_grows (c : Session) (events : List Event) :
    c.shared.reports <+: (c.run events).shared.reports := by
  induction events generalizing c with
  | nil => exact List.prefix_rfl
  | cons event rest ih => exact (step_grows c event).trans (ih (c.step event))

/-! ## Runs side by side -/

/-- The same invocation is under way in both runs, and both obey the ledger. -/
structure Abreast (c₁ c₂ : Session) : Prop where
  calls : c₂.calls = c₁.calls
  current : c₂.current = c₁.current
  writes : ∀ thread, c₁.current = some thread → thread.prog.Only Op.Writes
  obeys₁ : c₁.Obeys ledger Between (fun _ => True) State.holdings
  obeys₂ : c₂.Obeys ledger Between (fun _ => True) State.holdings

theorem step_obeys {c : Session} (obeys : c.Obeys ledger Between (fun _ => True) State.holdings)
    (event : Event) : (c.step event).Obeys ledger Between (fun _ => True) State.holdings :=
  run_obeys obeys [event]

section Abreast

variable {target : Nat} {c₁ c₂ : Session}

theorem advance_abreast (alike : Alike target c₁.shared c₂.shared) (abreast : Abreast c₁ c₂) :
    Together target c₁.shared c₂.shared (c₁.step .step).shared (c₂.step .step).shared [] [] ∧
      Abreast (c₁.step .step) (c₂.step .step) := by
  have obeys₁ := step_obeys abreast.obeys₁ .step
  have obeys₂ := step_obeys abreast.obeys₂ .step
  obtain ⟨s₁, n, current⟩ := c₁
  obtain ⟨s₂, n₂, current₂⟩ := c₂
  obtain rfl : n₂ = n := abreast.calls
  obtain rfl : current₂ = current := abreast.current
  cases current₂ with
  | none =>
      exact ⟨together_quiet alike rfl rfl [], rfl, rfl, nofun, obeys₁, obeys₂⟩
  | some thread =>
      obtain ⟨e, p⟩ := thread
      cases p with
      | ret a => exact ⟨together_quiet alike rfl rfl [], rfl, rfl, nofun, obeys₁, obeys₂⟩
      | call o k =>
          obtain ⟨writes, onward⟩ := abreast.writes _ rfl
          simp only [Session.step, Event.action, Serial.step, Serial.advance] at obeys₁ obeys₂ ⊢
          cases answered : kernel n₂ e o s₁ with
          | done a s₁' =>
              obtain ⟨s₂', answered₂, alike', kept₁, kept₂⟩ := kernel_alike writes alike answered
              rw [answered] at obeys₁
              rw [answered₂] at obeys₂ ⊢
              refine ⟨together_quiet alike' kept₁ kept₂ [], rfl, rfl, fun thread same => ?_, obeys₁,
                obeys₂⟩
              cases same
              exact onward a
          | blocked s | fault f s =>
              have stuck : ∀ a s', kernel n₂ e o s₂ ≠ .done a s' := by
                intro a s' answered₂
                obtain ⟨s₁', answered', -⟩ := kernel_alike writes alike.symm answered₂
                rw [answered] at answered'
                cases answered'
              rw [answered] at obeys₁
              cases answered₂ : kernel n₂ e o s₂ with
              | done a s' => exact absurd answered₂ (stuck a s')
              | blocked s' | fault g s' =>
                  rw [answered₂] at obeys₂
                  exact ⟨together_quiet alike rfl rfl [], rfl, rfl, abreast.writes, obeys₁, obeys₂⟩

/-- A step both runs make. -/
theorem step_together (alike : Alike target c₁.shared c₂.shared) (abreast : Abreast c₁ c₂)
    (event : Event) :
    Together target c₁.shared c₂.shared (c₁.step event).shared (c₂.step event).shared
        (event.noise target c₁.shared) (event.noise target c₂.shared) ∧
      Abreast (c₁.step event) (c₂.step event) := by
  have obeys₁ := step_obeys abreast.obeys₁ event
  have obeys₂ := step_obeys abreast.obeys₂ event
  cases event with
  | step => exact advance_abreast alike abreast
  | write env =>
      obtain ⟨s₁, n, current⟩ := c₁
      obtain ⟨s₂, n₂, current₂⟩ := c₂
      obtain rfl : n₂ = n := abreast.calls
      obtain rfl : current₂ = current := abreast.current
      cases current₂ with
      | none =>
          refine ⟨together_quiet alike rfl rfl [], rfl, rfl, fun thread same => ?_, obeys₁, obeys₂⟩
          cases same
          exact pidWrite_writes env.userBuf.length
      | some thread =>
          exact ⟨together_quiet alike rfl rfl [], rfl, rfl, abreast.writes, obeys₁, obeys₂⟩
  | fire env =>
      exact ⟨fire_together alike (obeys_sound abreast.obeys₁) env, abreast.calls, abreast.current,
        abreast.writes, obeys₁, obeys₂⟩
  | die task =>
      have moved : Alike target ((Weather.die task).act c₁.shared) ((Weather.die task).act c₂.shared) := by
        obtain ⟨r, l, b, same⟩ : ∃ r l b, c₂.shared = c₁.shared.recalling r l b :=
          ⟨_, _, _, alike.same⟩
        rw [same] at alike ⊢
        exact alike_moved alike rfl rfl
      refine ⟨?_, abreast.calls, abreast.current, abreast.writes, obeys₁, obeys₂⟩
      apply together_quiet
      · exact moved
      · rfl
      · rfl
  | occur occ =>
      refine ⟨?_, abreast.calls, abreast.current, abreast.writes, obeys₁, obeys₂⟩
      apply together_quiet
      · exact own_alike alike occ
      · rfl
      · rfl

/-- Events of other tasks in the first run. -/
theorem others_abreast (alike : Alike target c₁.shared c₂.shared) (abreast : Abreast c₁ c₂)
    {others : List Event} (other : ∀ event ∈ others, ¬event.common target = true)
    (rest : List Event) :
    Alike target (c₁.run others).shared c₂.shared ∧ Abreast (c₁.run others) c₂ ∧
      (c₁.run others).shared.reports = c₁.shared.reports ∧
      c₁.noise target (others ++ rest) = (c₁.run others).noise target rest := by
  induction others generalizing c₁ with
  | nil => exact ⟨alike, abreast, rfl, rfl⟩
  | cons event others ih =>
      have first := other event List.mem_cons_self
      cases event with
      | occur occ =>
          have apart : (occ.pid == target) = false := Bool.eq_false_iff.mpr first
          have obeys₁ := step_obeys abreast.obeys₁ (.occur occ)
          have onward : Abreast (c₁.step (.occur occ)) c₂ :=
            ⟨abreast.calls, abreast.current, abreast.writes, obeys₁, abreast.obeys₂⟩
          exact ih (others_alike alike apart) onward fun event inside =>
            other event (List.mem_cons_of_mem _ inside)
      | write env | step | fire env | die task => exact absurd rfl first

theorem Abreast.symm (abreast : Abreast c₁ c₂) : Abreast c₂ c₁ :=
  ⟨abreast.calls.symm, abreast.current.symm, fun thread same =>
    abreast.writes thread (abreast.current ▸ same), abreast.obeys₂, abreast.obeys₁⟩

theorem run_append (c : Session) (xs ys : List Event) : c.run (xs ++ ys) = (c.run xs).run ys :=
  List.foldl_append

/-- Runs from alike states with the same common events. -/
theorem run_alike {common : List Event} {xs ys : List Event}
    (alike : Alike target c₁.shared c₂.shared) (abreast : Abreast c₁ c₂)
    (first : xs.filter (Event.common target) = common)
    (second : ys.filter (Event.common target) = common) :
    (c₁.run xs).shared.reports = (c₂.run ys).shared.reports ↔
      c₁.shared.reports = c₂.shared.reports ∧ c₁.noise target xs = c₂.noise target ys := by
  induction common generalizing xs ys c₁ c₂ with
  | nil =>
      obtain ⟨alike₁, abreast₁, kept₁, noise₁⟩ :=
        others_abreast alike abreast (List.filter_eq_nil_iff.mp first) []
      obtain ⟨-, -, kept₂, noise₂⟩ :=
        others_abreast alike₁.symm abreast₁.symm (List.filter_eq_nil_iff.mp second) []
      rw [List.append_nil] at noise₁ noise₂
      rw [kept₁, kept₂, noise₁, noise₂]
      exact (and_iff_left rfl).symm
  | cons event rest ih =>
      obtain ⟨others₁, xs', rfl, other₁, -, first'⟩ := List.filter_eq_cons_iff.mp first
      obtain ⟨others₂, ys', rfl, other₂, -, second'⟩ := List.filter_eq_cons_iff.mp second
      obtain ⟨alike₁, abreast₁, kept₁, noise₁⟩ :=
        others_abreast alike abreast other₁ (event :: xs')
      obtain ⟨alike₂, abreast₂, kept₂, noise₂⟩ :=
        others_abreast alike₁.symm abreast₁.symm other₂ (event :: ys')
      rw [run_append, run_append, noise₁, noise₂, ← kept₁, ← kept₂]
      obtain ⟨together, onward⟩ := step_together alike₂.symm abreast₂.symm event
      show (((c₁.run others₁).step event).run xs').shared.reports =
          (((c₂.run others₂).step event).run ys').shared.reports ↔
        _ ∧ event.noise target _ ++ ((c₁.run others₁).step event).noise target xs' =
          event.noise target _ ++ ((c₂.run others₂).step event).noise target ys'
      by_cases same : event.noise target (c₁.run others₁).shared =
          event.noise target (c₂.run others₂).shared
      · rw [ih (together.onward same) onward first' second', together.reports, same,
          and_iff_left rfl, List.append_cancel_left_eq]
      · -- Once the noise has differed the reports differ for good.
        constructor
        · intro ended
          have reports := grown_apart together.even (run_grows _ xs') (run_grows _ ys') ended
          exact absurd (together.reports.mp reports).2 same
        · rintro ⟨-, noises⟩
          exact absurd (List.append_inj noises together.silent).1 same

end Abreast

/-! ## Noninterference -/

/-- What the other tasks contribute to the samples of a run: at each of them, and for each
counter, what it has counted of their events since it was created, modulo `2 ^ 64`. -/
def noise (target : Nat) (events : List Event) : List (List U64) :=
  Session.noise target ⟨.initial, 0, none⟩ events

theorem loaded_abreast : Abreast ⟨.initial, 0, none⟩ ⟨.initial, 0, none⟩ :=
  ⟨rfl, rfl, nofun, loaded_obeys, loaded_obeys⟩

/-- **Noninterference**: two runs that differ only in the events of tasks other than
`target` report the same if and only if, at every sample, the other tasks have contributed
the same to each counter. -/
theorem noninterference_iff (target : Nat) (xs ys : List Event)
    (alike : xs.filter (Event.common target) = ys.filter (Event.common target)) :
    (serialAfter xs).shared.reports = (serialAfter ys).shared.reports ↔
      noise target xs = noise target ys := by
  rw [serialAfter_run, serialAfter_run]
  rw [run_alike (alike_initial target) loaded_abreast alike rfl]
  exact and_iff_right rfl

/-- A session for process 5 on CPU 0 that is sampled once, while process 9 generates an
event on the CPU. -/
def besides (cpu : Nat) : List Event :=
  .write (.echo "5\n".toList) :: List.replicate 60 .step ++
    [.occur ⟨0, 5, 0x08, .user⟩, .occur ⟨cpu, 9, 0x08, .user⟩, .fire .quiet]

/-- Process 9 is on another CPU, or does nothing. -/
theorem elsewhere_unheard :
    (serialAfter (besides 1)).shared.reports =
      (serialAfter ((besides 1).filter (Event.common 5))).shared.reports :=
  (noninterference_iff 5 (besides 1) ((besides 1).filter (Event.common 5)) (by simp)).mpr
    (by decide +kernel)

/-- Process 9 is on the same CPU, or does nothing. -/
theorem neighbour_heard :
    ¬∀ target xs ys, xs.filter (Event.common target) = ys.filter (Event.common target) →
      (serialAfter xs).shared.reports = (serialAfter ys).shared.reports := by
  intro unheard
  have same := unheard 5 (besides 0) ((besides 0).filter (Event.common 5)) (by simp)
  exact absurd same (by decide +kernel)

end Dreamscape.MonitorV2
