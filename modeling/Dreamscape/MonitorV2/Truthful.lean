/-
# MonitorV2.Truthful -- what the answer of pid_write says

`pid_write` always returns.  It returns a negative error only for a text it rejects, and
then it has done nothing; whatever became of the session, it returns `count` otherwise,
because `start_monitoring` returns nothing.  So its answer is right exactly when the text
is rejected or the session starts (`truthful_iff`).
-/
import Dreamscape.MonitorV2.Unload

namespace Dreamscape.MonitorV2

set_option autoImplicit false

open Theory Kernel

/-! ## What a write promises -/

/-- The session thread `t` asked for is under way: the task with the pid it wrote is
monitored, `perf_data` holds the events created for it, and the timer is armed. -/
structure UnderWay (t : Tid) (e : Env) (s : State) : Prop where
  watching : ∃ pid task, e.parsed = some pid ∧ e.findTask pid = some task ∧
    s.holdings.monitoredTask = some task
  counters : ∃ p, s.holdings.perfData = some p ∧ s.holdings.Complete p t
  armed : s.enqueued = true

/-- The pid, the session, the timer and the references are as they were. -/
structure Unchanged (s s' : State) : Prop where
  targetPid : s'.holdings.targetPid = s.holdings.targetPid
  monitoredTask : s'.holdings.monitoredTask = s.holdings.monitoredTask
  perfData : s'.holdings.perfData = s.holdings.perfData
  timer : s'.holdings.timerInitialised = s.holdings.timerInitialised ∧
    s'.enqueued = s.enqueued ∧ s'.running = s.running
  gets : s'.holdings.gets = s.holdings.gets
  puts : s'.holdings.puts = s.holdings.puts

/-- The write returns `count` and its session is under way, or a negative error and nothing
has changed. -/
def Truthful (t : Tid) (e : Env) (s : State) : Prop :=
  ∃ a s', (pidWrite e.userBuf.length).exec (kernel t e) s = .done a s' ∧
    (a = e.userBuf.length ∧ UnderWay t e s' ∨ a < 0 ∧ Unchanged s s')

/-! ## The write returns -/

/-- A table is granted, or some code in it is the first to be refused. -/
theorem granted_or_refused (s : State) (t : Tid) (e : Env) (codes : List (BitVec 32)) :
    s.Granted t e codes ∨ ∃ done code rest, codes = done ++ code :: rest ∧ s.Granted t e done ∧
      s.answer t e done code ≠ none := by
  induction codes using List.reverseRecOn with
  | nil =>
      refine Or.inl fun before code after split => ?_
      simp at split
  | append_singleton codes last ih =>
      rcases ih with granted | ⟨done, code, rest, rfl, granted, refused⟩
      · by_cases answer : s.answer t e codes last = none
        · refine Or.inl fun before code after split => ?_
          rcases List.eq_nil_or_concat after with rfl | ⟨init, x, rfl⟩
          · obtain ⟨rfl, same⟩ := List.append_inj' split rfl
            cases same
            exact answer
          · rw [List.concat_eq_append, ← List.cons_append, ← List.append_assoc] at split
            exact granted before code init (List.append_inj' split rfl).1
        · exact Or.inr ⟨codes, last, [], rfl, granted, answer⟩
      · refine Or.inr ⟨done, code, rest ++ [last], ?_, granted, refused⟩
        rw [List.append_assoc, List.cons_append]

section Returns

variable {s : State} {t : Tid} {e : Env}

/-- Creating the counters returns, and says in its answer whether there are any. -/
theorem initPerfCounters_returns (numbered : ∀ ev ∈ s.holdings.released, ev.id < s.holdings.nextEvent)
    (codes : List (BitVec 32)) (pid : Int) :
    ∃ p s', (initPerfCounters codes pid).exec (kernel t e) s = .done p s' := by
  cases memory : e.kzallocFails with
  | true => exact ⟨_, _, initPerfCounters_starved memory codes pid⟩
  | false =>
      rcases granted_or_refused s t e codes with granted | ⟨done, code, rest, rfl, granted, refused⟩
      · obtain ⟨slots, births, -, run⟩ := initPerfCounters_granted memory granted pid
        exact ⟨_, _, run⟩
      · obtain ⟨births, run⟩ := initPerfCounters_refused numbered memory rest granted refused pid
        exact ⟨_, _, run⟩

/-- The machine when thread `t` has assigned what `init_perf_counters` returned, and started
the timer if that is a buffer. -/
def State.launched (s : State) (t : Tid) : Option Ptr → State
  | none => s.holding (s.holdings.publish t none)
  | some p =>
      { s with
        holdings := { s.holdings.publish t (some p) with timerInitialised := true }
        sampleInterval := oneSecond
        enqueued := true
        clobbered := s.clobbered || s.enqueued || s.running.isSome
        lateStarts := if s.cancelled then s.lateStarts + 1 else s.lateStarts }

theorem startMonitoring_launched {codes : List (BitVec 32)} {pid : Int} {task : Task}
    (found : e.findTask pid = some task) {p : Option Ptr} {s' : State}
    (made : (initPerfCounters codes pid).exec (kernel t e)
      (s.holding ((s.holdings.watch t (some task)).get task)) = .done p s') :
    (startMonitoring codes pid).exec (kernel t e) s = .done () (s'.launched t p) := by
  have watched : (s.holding (s.holdings.watch t (some task))).holdings.monitoredTask =
      some task := rfl
  simp only [startMonitoring, pidTask, setMonitoredTask, getMonitoredTask, getTaskStruct, call,
    Prog.call_bind, Prog.ret_bind, Prog.exec_call, Prog.exec_bind, kernel, found, watched,
    State.onTask, Outcome.bind_done]
  show ((initPerfCounters codes pid).exec (kernel t e)
    (s.holding ((s.holdings.watch t (some task)).get task))).bind _ = _
  rw [made]
  cases p with
  | none => rfl
  | some q => simp [kernel, State.holding, State.initTimer, Holdings.publish, State.launched]

/-- `start_monitoring` returns, with the timer armed if it comes to the end. -/
theorem startMonitoring_returns (numbered : ∀ ev ∈ s.holdings.released, ev.id < s.holdings.nextEvent)
    (codes : List (BitVec 32)) (pid : Int) :
    ∃ s', (startMonitoring codes pid).exec (kernel t e) s = .done () s' ∧
      (s'.holdings.monitoredTask ≠ none → s'.holdings.perfData ≠ none → s'.enqueued = true) := by
  cases found : e.findTask pid with
  | none =>
      refine ⟨s.holding (s.holdings.watch t none), ?_, fun watched => absurd rfl watched⟩
      simp [startMonitoring, kernel, found, State.holding, Holdings.watch]
  | some task =>
      obtain ⟨p, s', made⟩ := initPerfCounters_returns
        (s := s.holding ((s.holdings.watch t (some task)).get task)) (t := t) (e := e) numbered codes pid
      refine ⟨s'.launched t p, startMonitoring_launched found made, ?_⟩
      cases p with
      | none => exact fun _ published => absurd rfl published
      | some q => exact fun _ _ => rfl

/-- A rejected text changes nothing. -/
theorem pidWrite_rejected (rejected : e.parsed = none) :
    ∃ a, (pidWrite e.userBuf.length).exec (kernel t e) s = .done a s ∧ a < 0 := by
  unfold pidWrite
  by_cases long : 12 ≤ e.userBuf.length
  · rw [if_pos long]
    exact ⟨Errno.EINVAL.code, rfl, by decide⟩
  · rw [if_neg long]
    by_cases fails : e.copyFails = true
    · refine ⟨Errno.EFAULT.code, ?_, by decide⟩
      simp [kernel, fails]
    · rw [Env.parsed, if_neg (not_or.mpr ⟨long, fails⟩), List.take_length] at rejected
      refine ⟨Errno.EINVAL.code, ?_, by decide⟩
      cases converted : kstrtoint (cstr e.userBuf) with
      | error err => simp [kernel, fails, converted]
      | ok pid =>
          rw [converted] at rejected
          cases rejected

/-- An accepted text is answered with `count`, whatever becomes of the session. -/
theorem pidWrite_accepted (numbered : ∀ ev ∈ s.holdings.released, ev.id < s.holdings.nextEvent)
    {pid : Int} (accepted : e.parsed = some pid) :
    ∃ s', (pidWrite e.userBuf.length).exec (kernel t e) s = .done e.userBuf.length s' ∧
      (s'.holdings.monitoredTask ≠ none → s'.holdings.perfData ≠ none → s'.enqueued = true) := by
  have short : ¬(12 ≤ e.userBuf.length ∨ e.copyFails = true) := by
    intro bad
    rw [Env.parsed, if_pos bad] at accepted
    cases accepted
  rw [Env.parsed, if_neg short, List.take_length] at accepted
  obtain ⟨long, fails⟩ := not_or.mp short
  cases converted : kstrtoint (cstr e.userBuf) with
  | error err =>
      rw [converted] at accepted
      cases accepted
  | ok stored =>
      let named := s.holding { s.holdings with targetPid := stored }
      obtain ⟨s', started, armed⟩ :=
        startMonitoring_returns (s := named) (t := t) (e := e) numbered eventCodes stored
      refine ⟨s', ?_, armed⟩
      unfold pidWrite
      rw [if_neg long]
      simp only [copyFromUser, setTargetPid, getTargetPid, call, Prog.call_bind, Prog.ret_bind,
        Prog.exec_call, kernel, fails, Bool.false_eq_true, if_false, List.take_length,
        Outcome.bind_done, converted, Prog.exec_bind]
      show ((startMonitoring eventCodes stored).exec (kernel t e) named).bind _ = _
      rw [started]
      rfl

theorem attemptOn_found {pid : Int} {task : Task} (found : e.findTask pid = some task) :
    e.attemptOn pid =
      if !e.kzallocFails && grants e 0 eventCodes then .started task else .starved task := by
  rw [Env.attemptOn, found]

/-- A session is started for the task of the pid that was written. -/
theorem started_found {target : Task} (outcome : e.attempt = .started target) :
    ∃ pid, e.parsed = some pid ∧ e.findTask pid = some target := by
  cases written : e.parsed with
  | none =>
      rw [Env.attempt, written] at outcome
      cases outcome
  | some pid =>
      rw [Env.attempt, written] at outcome
      replace outcome : e.attemptOn pid = .started target := outcome
      cases found : e.findTask pid with
      | none =>
          rw [Env.attemptOn, found] at outcome
          cases outcome
      | some task =>
          rw [attemptOn_found found] at outcome
          split at outcome <;> cases outcome
          exact ⟨pid, rfl, found⟩

/-- What an accepted write leaves is told by its attempt. -/
theorem underWay_iff {s' : State} (sound : s.holdings.Sound) (fresh : s.holdings.Fresh t)
    (wrote : (pidWrite e.userBuf.length).exec (kernel t e) s = .done e.userBuf.length s')
    (armed : s'.holdings.monitoredTask ≠ none → s'.holdings.perfData ≠ none → s'.enqueued = true) :
    UnderWay t e s' ↔ e.attempt.hasStarted = true := by
  have leaves : Leaves t e.attempt s.holdings s'.holdings :=
    ((pidWrite_ledger sound fresh).exec_done (ledger_tracks t e) trivial wrote).2
  constructor
  · rintro ⟨⟨pid, task, written, found, watching⟩, ⟨p, published, -⟩, -⟩
    have attempt : e.attempt = e.attemptOn pid := by rw [Env.attempt, written]
    cases outcome : e.attempt with
    | started target => rfl
    | starved target =>
        rw [leaves.starved target outcome] at published
        cases published
    | rejected | missing =>
        rw [attempt, attemptOn_found found] at outcome
        split at outcome <;> cases outcome
  · intro started
    cases outcome : e.attempt with
    | started target =>
        obtain ⟨slots, evs, next, full, held, published, buffers, -, created, released, -⟩ :=
          leaves.started target outcome
        have watching : s'.holdings.monitoredTask = some target := by
          rw [leaves.watched, outcome]
          rfl
        refine ⟨?_, ⟨_, published, ⟨t, slots⟩, evs, ?_, rfl, held, full, next.nodup, ?_⟩, ?_⟩
        · obtain ⟨pid, written, found⟩ := started_found outcome
          exact ⟨pid, target, written, found, watching⟩
        · rw [buffers, Function.update_self]
        · intro ev inside
          rw [created, released]
          refine ⟨List.mem_append_right _ inside, ?_⟩
          intro gone
          have low := sound.released ev gone
          have high := (next.bounds inside).1
          omega
        · exact armed (by rw [watching]; exact Option.some_ne_none target)
            (by rw [published]; exact Option.some_ne_none _)
    | rejected | missing | starved target =>
        rw [outcome] at started
        cases started

theorem truthful_of_sound (sound : s.holdings.Sound) (fresh : s.holdings.Fresh t) :
    Truthful t e s ↔ e.attempt = .rejected ∨ e.attempt.hasStarted = true := by
  cases written : e.parsed with
  | none =>
      obtain ⟨a, run, negative⟩ := pidWrite_rejected (s := s) (t := t) written
      have outcome : e.attempt = .rejected := by rw [Env.attempt, written]
      refine ⟨fun _ => Or.inl outcome, fun _ => ⟨a, s, run, Or.inr ⟨negative, ?_⟩⟩⟩
      exact ⟨rfl, rfl, rfl, ⟨rfl, rfl, rfl⟩, rfl, rfl⟩
  | some pid =>
      obtain ⟨s', run, armed⟩ := pidWrite_accepted (t := t) sound.released written
      have accepted : e.attempt ≠ .rejected := by
        rw [Env.attempt, written]
        simp only [Env.attemptOn]
        split
        · exact Attempt.noConfusion
        · split <;> exact Attempt.noConfusion
      rw [or_iff_right accepted, ← underWay_iff sound fresh run armed]
      constructor
      · rintro ⟨a, s'', run', success | ⟨negative, -⟩⟩
        · rw [run] at run'
          cases run'
          exact success.2
        · rw [run] at run'
          cases run'
          omega
      · exact fun underWay => ⟨_, s', run, Or.inl ⟨rfl, underWay⟩⟩

end Returns

/-- **A truthful answer**: after any writes, ticks and deaths, the answer of a write is right
exactly if its text is rejected or its session starts. -/
theorem truthful_iff (items : List Item) {s : State} (reached : after items = .done () s) (e : Env) :
    Truthful items.length e s ↔ e.attempt = .rejected ∨ e.attempt.hasStarted = true := by
  have ran := ran_items ran_initial reached
  rw [Nat.zero_add] at ran
  exact truthful_of_sound ran.sound (ran.fresh _ (Nat.le_refl _))

/-- A session for task 5 has been sampled, and the task has died. -/
def earlierSession : List Item := [.write (.echo "5\n".toList), .tick .quiet, .die 5]

/-- The write that follows starts a session for task 6, and says so. -/
theorem next_write_truthful : ∃ s, after earlierSession = .done () s ∧
    Truthful 3 (.echo "6\n".toList) s := by
  obtain ⟨s, reached⟩ : ∃ s, after earlierSession = .done () s := ⟨_, rfl⟩
  have truthful := (truthful_iff earlierSession reached (.echo "6\n".toList)).mpr (Or.inr (by decide))
  exact ⟨s, reached, truthful⟩

/-- A write of a pid that nobody has is answered with success. -/
theorem missing_task_reported_started :
    ¬Truthful 0 { Env.echo "5\n".toList with findTask := fun _ => none } .initial := by
  rw [truthful_of_sound sound_initial (fresh_initial 0)]
  decide

end Dreamscape.MonitorV2
