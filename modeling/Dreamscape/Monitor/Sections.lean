/-
# Monitor.Sections -- commands and samples, section by section

`write_kinfo_to_file` and every section under `target_pid_mutex` are single steps here, and
so are the two steps of `command_handler` outside them: it copies the command, and a
`stop_pid` reads `target_pid`.  Put the sections in, and the code is the handlers'
(`sections_expand`), and a run is a run of theirs (`after_expands`).

A `stop_pid` reads, dumps and resets in three steps.  What it resets is what it has dumped,
and all that was recorded of the session is in the dump, in every run in which nobody sets
another target or records a sample in between (`nothing_lost`).
-/
import Dreamscape.Monitor.Schedule
import Dreamscape.Theory.Atomic

namespace Dreamscape.Monitor.Sections

set_option autoImplicit false

open Theory Kernel

/-! ## The code in sections -/

inductive Section where
  | copyFromUser (n : Nat)
  | targetPid
  | writeKinfoToFile (pid : Int)
  | startPid (pid : Int)
  | stopPid
  | preHandler (regs : PtRegs)

@[reducible] def Section.Ans : Section → Type
  | .copyFromUser _ => Option (List Char)
  | .targetPid | .preHandler _ => Int
  | .writeKinfoToFile _ | .startPid _ | .stopPid => Unit

abbrev sections : Sig := ⟨Section, Section.Ans⟩

def body : Bodies sections sig
  | .copyFromUser n => Monitor.copyFromUser n
  | .targetPid => getTargetPid
  | .writeKinfoToFile pid => Monitor.writeKinfoToFile pid
  | .startPid pid => setTarget pid
  | .stopPid => setTarget (-1)
  | .preHandler regs => Monitor.preHandler regs

@[simp] def perform (o : Section) : Prog sections o.Ans := .call (S := sections) o .ret

def commandSections (count : Nat) : Prog sections Int := do
  match ← perform (.copyFromUser (min count 255)) with
  | none => return Errno.EFAULT.code
  | some buf =>
      match scanCommand (cstr buf) with
      | some (.startPid pid) =>
          perform (.startPid pid)
          return count
      | some .stopPid =>
          perform (.writeKinfoToFile (← perform .targetPid))
          perform .stopPid
          return count
      | none => return Errno.EINVAL.code

def sectionsOf : Invocation → Prog sections Int
  | .write env => commandSections env.userBuf.length
  | .hit _ regs => perform (.preHandler regs)

theorem commandSections_expand (count : Nat) :
    (commandSections count).expand body = commandHandler count := by
  simp only [commandSections, commandHandler, perform, Prog.call_bind, Prog.ret_bind,
    Prog.expand_call, body]
  congr 1
  funext copied
  cases copied with
  | none => rfl
  | some buf =>
      simp only
      cases scanCommand (cstr buf) with
      | none => rfl
      | some command =>
          cases command with
          | startPid pid => rfl
          | stopPid =>
              simp only [Prog.expand_call, body]
              rfl

theorem sections_expand (i : Invocation) : (sectionsOf i).expand body = i.code := by
  cases i with
  | write env => exact commandSections_expand env.userBuf.length
  | hit env regs =>
      simp only [sectionsOf, perform, Prog.expand_call, Prog.expand_ret]
      exact Prog.bind_ret _

/-! ## Histories -/

/-- A dump for `pid`: what its file then held, and how many samples had been recorded and
how many `start_pid` had set the target by then. -/
structure Dumped where
  pid : Int
  text : Option (List Char)
  recorded : Nat
  starts : Nat

/-- A `stop_pid` under way, the pid it has read, and the dump it has written. -/
structure Stop where
  thread : Tid
  pid : Int
  dump : Option Dumped

/-- The reset of a `stop_pid`: the target it found, and the session it ended, which are the
samples from `opened` on, up to `closed`. -/
structure Ending where
  dump : Dumped
  target : Int
  opened : Nat
  closed : Nat
  starts : Nat

/-- `opened` is how many samples had been recorded when the target was last set. -/
structure History where
  samples : List Sample
  starts : Nat
  opened : Nat
  stops : List Stop
  endings : List Ending

def History.initial : History := ⟨[], 0, 0, [], []⟩

def History.stopsOf (x : History) (t : Tid) : List Stop := x.stops.filter (·.thread = t)

/-- The `stop_pid` of thread `t` has written its dump. -/
def Stop.wrote (t : Tid) (dump : Dumped) (stop : Stop) : Stop :=
  if stop.thread = t then { stop with dump := some dump } else stop

/-- The reset of a `stop_pid` that finds `target`. -/
def Stop.ending (x : History) (target : Int) (stop : Stop) : Option Ending :=
  stop.dump.map fun dump => ⟨dump, target, x.opened, x.samples.length, x.starts⟩

def note : Note sections Env State History := fun t e o a s x =>
  match o, a with
  | .targetPid, pid => { x with stops := ⟨t, pid, none⟩ :: x.stops }
  | .writeKinfoToFile pid, _ =>
      let text := ((writeKinfoToFile pid).exec (kernel t e) s).state.files (dumpName pid)
      let dump : Dumped := ⟨pid, text, x.samples.length, x.starts⟩
      { x with stops := x.stops.map (Stop.wrote t dump) }
  | .startPid _, _ => { x with starts := x.starts + 1, opened := x.samples.length }
  | .stopPid, _ =>
      { x with
        opened := x.samples.length
        stops := x.stops.filter (·.thread ≠ t)
        endings := (x.stopsOf t).filterMap (Stop.ending x s.targetPid) ++ x.endings }
  | .preHandler regs, _ =>
      if (e.currentPid : Int) = s.targetPid ∧ e.Grants then
        { x with samples := x.samples ++ [sampleOf e regs] }
      else x
  | .copyFromUser _, _ => x

abbrev Remembered := State × History

def sectionKernel : Tid → Env → Handler sections Fault Remembered :=
  recorded (atomically kernel body) note

/-! ## Runs -/

def action : Event → Pool.Action sections Env Empty Int
  | .start i => .spawn ⟨i.env, sectionsOf i⟩
  | .step t => .step t

/-- Nothing but the handlers changes the module's state. -/
def nothingElse (w : Empty) : Remembered → Remembered := nomatch w

def loaded : Pool sections Env Remembered Int := ⟨(.initial, .initial), []⟩

def after (events : List Event) : Pool sections Env Remembered Int :=
  Pool.run sectionKernel nothingElse loaded (events.map action)

/-- **A run in sections is a run of the handlers**, call by call. -/
theorem after_expands (events : List Event) :
    ∃ fine : List (Pool.Action sig Env Empty Int),
      Pool.run kernel undisturbed Monitor.loaded fine = (after events).expand body :=
  Pool.run_expands (fun w => nomatch w) loaded (events.map action)

/-- The reset undoes no command that came after the dump, and the dump has every sample of
the session. -/
structure Ending.Whole (samples : List Sample) (ending : Ending) : Prop where
  target : ending.target = ending.dump.pid
  starts : ending.starts = ending.dump.starts
  recorded : ∀ n, ending.opened ≤ n → n < ending.closed → n < ending.dump.recorded
  text : ending.opened < ending.closed →
    ending.dump.text = some (dumpText (Tally.recordAll (samples.take ending.dump.recorded)))

/-- Every `stop_pid` that has returned lost nothing. -/
def NothingLost (x : History) : Prop := ∀ ending ∈ x.endings, ending.Whole x.samples

/-- Between its read of `target_pid` and its reset, a `stop_pid` sees no other target set;
between its dump and its reset, no `start_pid` and no sample. -/
def Undisturbed : Condition sections Env Remembered := fun t e o _ c =>
  match o with
  | .startPid pid => ∀ stop ∈ c.2.stops, stop.pid = pid ∧ stop.dump.isNone
  | .stopPid => ∀ stop ∈ c.2.stops, stop.thread ≠ t → stop.pid = -1
  | .preHandler _ => (e.currentPid : Int) = c.1.targetPid → ∀ stop ∈ c.2.stops, stop.dump.isNone
  | _ => True

def Orderly (events : List Event) : Prop :=
  Pool.Admitted sectionKernel nothingElse Undisturbed loaded (events.map action)

instance (t : Tid) (e : Env) (o : Section) (a : o.Ans) (c : Remembered) :
    Decidable (Undisturbed t e o a c) := by
  unfold Undisturbed
  split <;> infer_instance

/-! ## What each section does -/

section Steps

variable {t : Tid} {e : Env} {s s' : State}

theorem setTarget_done {pid : Int} {a : Unit}
    (done : (setTarget pid).exec (kernel t e) s = .done a s') : s' = { s with targetPid := pid } := by
  cases owner : s.mutex with
  | some u => simp [setTarget, kernel, owner] at done
  | none =>
      have same : s = { s with mutex := none } := by rw [← owner]
      rw [same] at done
      simp only [setTarget, mutexLock, setTargetPid, mutexUnlock, call, Prog.call_bind,
        Prog.ret_bind, Prog.exec_call, Prog.exec_ret, kernel, reduceIte, Outcome.bind_done,
        Outcome.done.injEq] at done
      rw [← done.2, ← owner]

/-- The first event that is refused ends the creation loop. -/
theorem createEvents_refused {pid : Nat} {codes : List (BitVec 32)}
    (refused : ¬∀ code ∈ codes, e.create (configurePerfEvent code) pid none = none)
    (before : List PerfEvent) :
    ∃ err created nextEvent failed, (createEvents pid codes before).exec (kernel t e) s =
      .done (.error err)
        { s.withEvents created s.released nextEvent with failedCreates := failed } := by
  induction codes generalizing s before with
  | nil => exact absurd (fun code none => absurd none List.not_mem_nil) refused
  | cons code codes ih =>
      cases answer : e.create (configurePerfEvent code) pid none with
      | some err =>
          refine ⟨err, s.created, s.nextEvent, t :: s.failedCreates, ?_⟩
          simp only [createEvents, perfEventCreateKernelCounter, call, Prog.call_bind,
            Prog.ret_bind, Prog.exec_call, kernel, answer, Outcome.bind_done]
          rfl
      | none =>
          let ev : PerfEvent := ⟨s.nextEvent, configurePerfEvent code, pid, none⟩
          let made := s.withEvents (Function.update s.created t (s.created t ++ [ev])) s.released
            (s.nextEvent + 1)
          have later : ¬∀ code ∈ codes, e.create (configurePerfEvent code) pid none = none := by
            intro granted
            exact refused (List.forall_mem_cons.mpr ⟨answer, granted⟩)
          obtain ⟨err, created, nextEvent, failed, onward⟩ := ih (s := made) later (before ++ [ev])
          refine ⟨err, created, nextEvent, failed, ?_⟩
          simp only [createEvents, perfEventCreateKernelCounter, call, Prog.call_bind,
            Prog.ret_bind, Prog.exec_call, kernel, answer, Outcome.bind_done]
          exact onward

/-- **A probe that goes through records the sample of the target**, if it is given its
events, and nothing otherwise. -/
theorem preHandler_done {regs : PtRegs} {a : Int} (linked : Linked s)
    (done : (preHandler regs).exec (kernel t e) s = .done a s') :
    Linked s' ∧ s'.targetPid = s.targetPid ∧
      s'.rows = if (e.currentPid : Int) = s.targetPid ∧ e.Grants then
        Tally.record s.rows (sampleOf e regs) else s.rows := by
  cases owner : s.mutex with
  | some u => simp [preHandler, kernel, owner] at done
  | none =>
      by_cases target : (e.currentPid : Int) = s.targetPid
      · by_cases granted : e.Grants
        · rw [if_pos ⟨target, granted⟩]
          by_cases memory :
              e.kmallocFails = false ∨ (sampleOf e regs).1 ∈ Tally.keys s.rows
          · obtain ⟨s₁, returns, ready, view⟩ := hit_exec (t := t) regs granted memory
              ⟨owner, linked⟩ target
            rw [returns] at done
            cases done
            exact ⟨ready.linked, congrArg View.target view, congrArg View.rows view⟩
          · obtain ⟨fails, absent⟩ := not_or.mp memory
            rw [Bool.not_eq_false] at fails
            obtain ⟨created, released, nextEvent, begun⟩ :=
              preHandler_update (t := t) regs granted owner target
            have linked' : Linked ((s.locked t).withEvents created released nextEvent) :=
              linked_congr linked rfl rfl rfl
            rw [begun, updateCounters_starved linked' fails absent] at done
            cases done
        · rw [if_neg fun both => granted both.2]
          obtain ⟨err, created, nextEvent, failed, made⟩ :=
            createEvents_refused (t := t) (s := s.locked t) granted []
          rw [preHandler_begin owner target, Prog.exec_bind, made] at done
          cases done
          exact ⟨linked_congr linked rfl rfl rfl, rfl, rfl⟩
      · rw [if_neg fun both => target both.1]
        rw [preHandler_miss owner target] at done
        cases done
        exact ⟨linked, rfl, rfl⟩

end Steps

/-! ## The stops of a thread -/

section Stops

variable {x : History} {t u : Tid} {dump : Dumped} {stop : Stop}

@[simp] theorem wrote_thread : (stop.wrote t dump).thread = stop.thread := by
  unfold Stop.wrote
  split <;> rfl

@[simp] theorem wrote_pid : (stop.wrote t dump).pid = stop.pid := by
  unfold Stop.wrote
  split <;> rfl

theorem mem_stopsOf : stop ∈ x.stopsOf t ↔ stop ∈ x.stops ∧ stop.thread = t := by
  simp [History.stopsOf]

theorem stopsOf_wrote (x : History) (t u : Tid) (dump : Dumped) :
    (x.stops.map (Stop.wrote t dump)).filter (·.thread = u) =
      (x.stopsOf u).map (Stop.wrote t dump) := by
  rw [History.stopsOf, List.filter_map]
  congr 1
  apply List.filter_congr
  intro stop _
  simp

theorem stopsOf_wrote_ne (other : u ≠ t) :
    (x.stops.map (Stop.wrote t dump)).filter (·.thread = u) = x.stopsOf u := by
  rw [stopsOf_wrote]
  have unchanged : ∀ stop ∈ x.stopsOf u, stop.wrote t dump = id stop := by
    intro stop inside
    have mine : stop.thread ≠ t := fun same => other ((mem_stopsOf.mp inside).2.symm.trans same)
    exact if_neg mine
  rw [List.map_congr_left unchanged, List.map_id]

theorem stopsOf_wrote_self {pid : Int} (mine : x.stopsOf t = [⟨t, pid, none⟩]) :
    (x.stops.map (Stop.wrote t dump)).filter (·.thread = t) = [⟨t, pid, some dump⟩] := by
  rw [stopsOf_wrote, mine, List.map_singleton, Stop.wrote, if_pos rfl]

theorem stopsOf_left (other : u ≠ t) :
    (x.stops.filter (·.thread ≠ t)).filter (·.thread = u) = x.stopsOf u := by
  rw [History.stopsOf, List.filter_filter]
  apply List.filter_congr
  intro stop _
  by_cases mine : stop.thread = u
  · simp [mine, other]
  · simp [mine]

end Stops

/-! ## Phases of a command -/

/-- How far a `stop_pid` is. -/
inductive Phase where
  | idle
  | chosen (pid : Int)
  | dumped

def phases : Protocol sections Phase where
  allowed o r :=
    match o with
    | .targetPid => r = .idle
    | .writeKinfoToFile pid => r = .chosen pid
    | .stopPid => r = .dumped
    | _ => True
  possible _ _ _ := True
  next o a r :=
    match o, a with
    | .targetPid, pid => .chosen pid
    | .writeKinfoToFile _, _ => .dumped
    | .stopPid, _ => .idle
    | _, _ => r

theorem sectionsOf_phases (i : Invocation) :
    (sectionsOf i).Follows phases (fun _ _ => True) .idle := by
  cases i with
  | hit env regs => exact ⟨trivial, fun _ _ => trivial⟩
  | write env =>
      refine ⟨trivial, ?_⟩
      intro copied _
      cases copied with
      | none => trivial
      | some buf =>
          show (match scanCommand (cstr buf) with
            | some (.startPid pid) => _
            | some .stopPid => _
            | none => _ : Prog sections Int).Follows phases (fun _ _ => True) .idle
          cases scanCommand (cstr buf) with
          | none => trivial
          | some command =>
              cases command with
              | startPid pid => exact ⟨trivial, fun _ _ => trivial⟩
              | stopPid =>
                  refine ⟨rfl, fun pid _ => ⟨rfl, fun _ _ => ⟨rfl, fun _ _ => trivial⟩⟩⟩

/-- What the history says of a thread in its phase. -/
def Phase.Fits (x : History) (t : Tid) : Phase → Prop
  | .idle => x.stopsOf t = []
  | .chosen pid => x.stopsOf t = [⟨t, pid, none⟩]
  | .dumped => ∃ pid dump, x.stopsOf t = [⟨t, pid, some dump⟩]

theorem Phase.Fits.congr {x x' : History} {t : Tid} {r : Phase} (fits : r.Fits x t)
    (same : x'.stopsOf t = x.stopsOf t) : r.Fits x' t := by
  cases r <;> simpa only [Phase.Fits, same] using fits

/-! ## What holds in an orderly run -/

/-- A dump for the pid of its `stop_pid`, which nothing has happened since. -/
structure Dumped.Fresh (x : History) (pid : Int) (dump : Dumped) : Prop where
  pid : dump.pid = pid
  recorded : dump.recorded = x.samples.length
  starts : dump.starts = x.starts
  text : dump.text = some (dumpText (Tally.recordAll x.samples))

structure Sound (c : Remembered) : Prop where
  linked : Linked c.1
  rows : c.1.rows = Tally.recordAll c.2.samples
  current : ∀ stop ∈ c.2.stops, stop.pid = c.1.targetPid
  dumps : ∀ stop ∈ c.2.stops, ∀ dump, stop.dump = some dump → dump.Fresh c.2 stop.pid
  endings : ∀ ending ∈ c.2.endings,
    ending.Whole c.2.samples ∧ ending.dump.recorded ≤ c.2.samples.length

/-- A dump stays fresh as long as no sample is recorded and no target started. -/
theorem Dumped.Fresh.congr {x x' : History} {pid : Int} {dump : Dumped} (fresh : dump.Fresh x pid)
    (samples : x'.samples = x.samples) (starts : x'.starts = x.starts) : dump.Fresh x' pid where
  pid := fresh.pid
  recorded := by rw [samples, fresh.recorded]
  starts := by rw [starts, fresh.starts]
  text := by rw [samples, fresh.text]

namespace Sound

variable {s : State} {x : History} {t : Tid} {e : Env} (sound : Sound (s, x))

include sound

/-- A `stop_pid` reads the target. -/
theorem chose : Sound (s, { x with stops := ⟨t, s.targetPid, none⟩ :: x.stops }) where
  linked := sound.linked
  rows := sound.rows
  current := List.forall_mem_cons.mpr ⟨rfl, sound.current⟩
  dumps := by
    refine List.forall_mem_cons.mpr ⟨nofun, ?_⟩
    intro stop inside dump wrote
    exact (sound.dumps stop inside dump wrote).congr rfl rfl
  endings := sound.endings

/-- A `stop_pid` dumps for the pid it has read. -/
theorem dumped {pid : Int} (chosen : ∀ stop ∈ x.stopsOf t, stop.pid = pid) {dump : Dumped}
    (fresh : dump.Fresh x pid) :
    Sound (s.dumped pid, { x with stops := x.stops.map (Stop.wrote t dump) }) where
  linked := linked_congr sound.linked rfl rfl rfl
  rows := sound.rows
  current := by
    refine List.forall_mem_map.mpr ?_
    intro stop inside
    rw [wrote_pid]
    exact sound.current stop inside
  dumps := by
    refine List.forall_mem_map.mpr ?_
    intro stop inside written wrote
    rw [wrote_pid]
    by_cases mine : stop.thread = t
    · rw [Stop.wrote, if_pos mine] at wrote
      cases wrote
      rw [chosen stop (mem_stopsOf.mpr ⟨inside, mine⟩)]
      exact fresh.congr rfl rfl
    · rw [Stop.wrote, if_neg mine] at wrote
      exact (sound.dumps stop inside written wrote).congr rfl rfl
  endings := sound.endings

/-- A `start_pid` sets a target. -/
theorem started {pid : Int} (alone : ∀ stop ∈ x.stops, stop.pid = pid ∧ stop.dump.isNone) :
    Sound ({ s with targetPid := pid },
      { x with starts := x.starts + 1, opened := x.samples.length }) where
  linked := linked_congr sound.linked rfl rfl rfl
  rows := sound.rows
  current := fun stop inside => (alone stop inside).1
  dumps := by
    intro stop inside dump wrote
    have unwritten := (alone stop inside).2
    simp [wrote] at unwritten
  endings := sound.endings

/-- A `stop_pid` resets the target it has dumped. -/
theorem reset (alone : ∀ stop ∈ x.stops, stop.thread ≠ t → stop.pid = -1) :
    Sound ({ s with targetPid := -1 },
      { x with
        opened := x.samples.length
        stops := x.stops.filter (·.thread ≠ t)
        endings := (x.stopsOf t).filterMap (Stop.ending x s.targetPid) ++ x.endings }) where
  linked := linked_congr sound.linked rfl rfl rfl
  rows := sound.rows
  current := by
    intro stop left
    obtain ⟨inside, other⟩ := List.mem_filter.mp left
    exact alone stop inside (of_decide_eq_true other)
  dumps := by
    intro stop left dump wrote
    exact (sound.dumps stop (List.mem_filter.mp left).1 dump wrote).congr rfl rfl
  endings := by
    intro ending listed
    rcases List.mem_append.mp listed with new | old
    · obtain ⟨stop, mine, made⟩ := List.mem_filterMap.mp new
      obtain ⟨dump, wrote, rfl⟩ := Option.map_eq_some_iff.mp made
      have inside := (mem_stopsOf.mp mine).1
      have fresh := sound.dumps stop inside dump wrote
      refine ⟨⟨?_, fresh.starts.symm, ?_, ?_⟩, Nat.le_of_eq fresh.recorded⟩
      · exact (sound.current stop inside).symm.trans fresh.pid.symm
      · intro n _ before
        rw [fresh.recorded]
        exact before
      · intro _
        rw [fresh.recorded, List.take_length]
        exact fresh.text
    · exact sound.endings ending old

/-- The probe records a sample. -/
theorem sampled {s' : State} {sample : Sample} (linked : Linked s')
    (target : s'.targetPid = s.targetPid) (rows : s'.rows = Tally.record s.rows sample)
    (alone : ∀ stop ∈ x.stops, stop.dump.isNone) :
    Sound (s', { x with samples := x.samples ++ [sample] }) where
  linked := linked
  rows := by
    rw [rows, sound.rows, Tally.recordAll_append]
    rfl
  current := by
    rw [target]
    exact sound.current
  dumps := by
    intro stop inside dump wrote
    have unwritten := alone stop inside
    simp [wrote] at unwritten
  endings := by
    intro ending listed
    obtain ⟨whole, earlier⟩ := sound.endings ending listed
    refine ⟨⟨whole.target, whole.starts, whole.recorded, ?_⟩, ?_⟩
    · rw [List.take_append_of_le_length earlier]
      exact whole.text
    · rw [List.length_append]
      exact Nat.le_add_right_of_le earlier

end Sound

/-! ## The kernel keeps to it -/

/-- Nobody disturbs a `stop_pid`, and the file system gives every dump its file. -/
def Careful : Condition sections Env Remembered := fun t e o a c => Undisturbed t e o a c ∧ e.Stores

section Kernel

variable {t u : Tid} {e : Env} {o : Section} {a : o.Ans} {c c' : Remembered} {r q : Phase}

theorem section_own (sound : Sound c) (fits : r.Fits c.2 t) (allowed : phases.allowed o r)
    (admitted : guarded sectionKernel Careful t e o c = .done a c') :
    Sound c' ∧ (phases.next o a r).Fits c'.2 t := by
  obtain ⟨answered, alone, stores⟩ := guarded_done.mp admitted
  obtain ⟨done, noted⟩ := recorded_done.mp answered
  obtain ⟨s, x⟩ := c
  obtain ⟨s', x'⟩ := c'
  simp only at done noted fits
  clear admitted answered
  subst noted
  cases o with
  | copyFromUser n =>
      cases done
      exact ⟨sound, fits⟩
  | targetPid =>
      obtain rfl : r = .idle := allowed
      cases done
      refine ⟨sound.chose, ?_⟩
      have none : x.stopsOf t = [] := fits
      show History.stopsOf { x with stops := _ :: x.stops } t = _
      simp only [History.stopsOf, List.filter_cons, decide_true, if_true]
      exact congrArg _ none
  | writeKinfoToFile pid =>
      obtain rfl : r = .chosen pid := allowed
      have mine : x.stopsOf t = [⟨t, pid, none⟩] := fits
      have whole := writeKinfoToFile_exec (t := t) stores sound.linked pid
      have same : s' = s.dumped pid := by
        rw [atomically, body, whole] at done
        cases done
        rfl
      subst same
      have fresh : Dumped.Fresh x pid
          ⟨pid, ((writeKinfoToFile pid).exec (kernel t e) s).state.files (dumpName pid),
            x.samples.length, x.starts⟩ := by
        refine ⟨rfl, rfl, rfl, ?_⟩
        rw [whole, ← sound.rows]
        exact Function.update_self ..
      refine ⟨sound.dumped ?_ fresh, pid, _, stopsOf_wrote_self mine⟩
      intro stop inside
      rw [mine, List.mem_singleton] at inside
      rw [inside]
  | startPid pid =>
      obtain rfl := setTarget_done done
      exact ⟨sound.started alone, fits.congr rfl⟩
  | stopPid =>
      obtain rfl := setTarget_done done
      refine ⟨sound.reset alone, ?_⟩
      show (x.stops.filter (·.thread ≠ t)).filter (·.thread = t) = []
      rw [List.filter_filter, List.filter_eq_nil_iff]
      intro stop _
      simp
  | preHandler regs =>
      obtain ⟨linked, target, rows⟩ := preHandler_done sound.linked done
      by_cases hit : (e.currentPid : Int) = s.targetPid ∧ e.Grants
      · rw [if_pos hit] at rows
        simp only [note, if_pos hit]
        exact ⟨sound.sampled linked target rows (alone hit.1), fits.congr rfl⟩
      · rw [if_neg hit] at rows
        simp only [note, if_neg hit]
        refine ⟨⟨linked, rows.trans sound.rows, ?_, sound.dumps, sound.endings⟩, fits⟩
        intro stop inside
        rw [target]
        exact sound.current stop inside

theorem section_stable (other : u ≠ t)
    (admitted : guarded sectionKernel Careful t e o c = .done a c') (theirs : q.Fits c.2 u) :
    q.Fits c'.2 u := by
  obtain ⟨-, noted⟩ := recorded_done.mp (guarded_done.mp admitted).1
  rw [noted]
  refine theirs.congr ?_
  cases o with
  | copyFromUser n | startPid pid => rfl
  | targetPid =>
      have apart : ¬t = u := fun same => other same.symm
      simp [note, History.stopsOf, apart]
  | writeKinfoToFile pid => exact stopsOf_wrote_ne other
  | stopPid => exact stopsOf_left other
  | preHandler regs =>
      simp only [note]
      split <;> rfl

end Kernel

/-! ## Orderly runs -/

theorem careful_relies {events : List Event}
    (careful : Pool.Admitted sectionKernel nothingElse Careful loaded (events.map action)) :
    (after events).Relies phases (fun _ _ => True) Sound (fun c t r => r.Fits c.2 t) .idle := by
  rw [after, ← Pool.run_guarded careful]
  refine Pool.run_relies ?_ ?_ (fun w => w.elim) ?_ ⟨?_, nofun, fun t _ => rfl⟩
  · intro t e o c a c' r sound fits allowed admitted
    obtain ⟨sound', fits'⟩ := section_own sound fits allowed admitted
    exact ⟨sound', trivial, fits'⟩
  · intro t u e o c a c' r q other _ _ admitted theirs
    exact section_stable other admitted theirs
  · intro thread spawned
    obtain ⟨event, -, same⟩ := List.mem_map.mp spawned
    cases event with
    | start i =>
        cases same
        exact sectionsOf_phases i
    | step t => cases same
  · exact ⟨linked_of_empty rfl, rfl, nofun, nofun, nofun⟩

/-- **No command and no sample is lost** in a run in which nobody sets another target
between a `stop_pid`'s read of it and its reset, nobody sets one or records a sample between
its dump and its reset, and the file system takes what is dumped. -/
theorem nothing_lost (events : List Event) (orderly : Orderly events)
    (stores : ∀ i, .start i ∈ events → i.env.Stores) : NothingLost (after events).shared.2 := by
  have envs : ∀ thread : Thread sections Env Int, .spawn thread ∈ events.map action →
      thread.env.Stores := by
    intro thread spawned
    obtain ⟨event, started, same⟩ := List.mem_map.mp spawned
    cases event with
    | start i =>
        cases same
        exact stores i started
    | step t => cases same
  have careful := Pool.admitted_env envs (fun _ none => absurd none List.not_mem_nil) orderly
  intro ending listed
  exact ((careful_relies careful).inv.endings ending listed).1

/-- A session of process 2 with one sample, which is dumped. -/
def wholeSession : List Event :=
  .start (.write (.echo "start_pid 2\n".toList)) :: List.replicate 2 (.step 0) ++
    .start (.hit (.switchTo 2 3) ⟨fun _ => 16, 0⟩) :: .step 1 ::
    .start (.write (.echo "stop_pid\n".toList)) :: List.replicate 4 (.step 2)

theorem wholeSession_nothing_lost : NothingLost (after wholeSession).shared.2 := by
  apply nothing_lost
  · unfold Orderly
    decide +kernel
  · intro i started
    simp only [wholeSession, List.replicate, List.cons_append, List.nil_append, List.mem_cons,
      Event.start.injEq, reduceCtorEq, false_or, or_false, List.not_mem_nil] at started
    rcases started with rfl | rfl | rfl
    · exact (Env.echo_succeeds _).stores
    · exact (Env.switchTo_succeeds _ _).stores
    · exact (Env.echo_succeeds _).stores

/-- Process 7 becomes the target when a `stop_pid` has dumped for process 2. -/
def undoneStart : List Event :=
  .start (.write (.echo "start_pid 2\n".toList)) :: List.replicate 2 (.step 0) ++
    .start (.write (.echo "stop_pid\n".toList)) :: List.replicate 3 (.step 1) ++
    .start (.write (.echo "start_pid 7\n".toList)) :: List.replicate 2 (.step 2) ++ [.step 1]

theorem stop_undoes_later_start : ¬∀ events, NothingLost (after events).shared.2 := by
  intro lossless
  have found : (after undoneStart).shared.2.endings.map
      (fun ending => (ending.target, ending.dump.pid)) = [(7, 2)] := by decide +kernel
  have listed := List.mem_singleton_self ((7, 2) : Int × Int)
  rw [← found] at listed
  obtain ⟨ending, listed, same⟩ := List.mem_map.mp listed
  have kept := (lossless undoneStart ending listed).target
  simp only [Prod.mk.injEq] at same
  rw [same.1, same.2] at kept
  exact absurd kept (by decide)

end Dreamscape.Monitor.Sections
