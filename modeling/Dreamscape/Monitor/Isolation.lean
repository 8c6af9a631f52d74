/-
# Monitor.Isolation -- what one session's dump says

A session is opened by `start_pid` and closed by the next accepted command.  The
history of a run keeps the samples of the open session apart from the earlier
ones.  The monitor does not: `counter_list` is never emptied, so a dump adds up
both (`dump_holds`).  A `stop_pid` dumps for the target it reads, -1 when no session
is open.

A dump says what its session sampled exactly when the earlier samples add nothing
(`isolated_iff`): each of their program counters is sampled again in the session, and
for each of them the earlier values vanish modulo `2 ^ 64`.  With no session open that
says that nothing has been sampled at all (`addsNothing_closed_iff`).
-/
import Dreamscape.Monitor.Session

namespace Dreamscape.Monitor

set_option autoImplicit false

open Theory Kernel

/-! ## History -/

/-- The target of the open session, its samples, and every sample taken before. -/
structure History where
  target : Option Int
  earlier : List Sample
  current : List Sample

def History.initial : History := ⟨none, [], []⟩

/-- The session ends and `target` begins. -/
def History.turn (h : History) (target : Option Int) : History :=
  ⟨target, h.earlier ++ h.current, []⟩

def History.next (h : History) : Invocation → History
  | .write env =>
      match env.command with
      | some (.startPid pid) => h.turn (some pid)
      | some .stopPid => h.turn none
      | none => h
  | .hit env regs =>
      if h.target = some (env.currentPid : Int) then
        { h with current := h.current ++ [sampleOf env regs] }
      else h

def historyAfter (run : List Invocation) : History := run.foldl History.next .initial

def History.samples (h : History) : List Sample := h.earlier ++ h.current

/-- The monitor's target and table are those of the history, all sessions together. -/
structure Remembers (v : View) (h : History) : Prop where
  target : v.target = h.target.getD (-1)
  rows : v.rows = Tally.recordAll h.samples

theorem hit_iff {v : View} {h : History} (target : v.target = h.target.getD (-1)) (pid : Nat) :
    (pid : Int) = v.target ↔ h.target = some (pid : Int) := by
  rw [target]
  cases h.target with
  | none =>
      have apart : (pid : Int) ≠ -1 := by omega
      simp [apart]
  | some p => simpa using eq_comm

theorem next_remembers {v : View} {h : History} (remembers : Remembers v h) (i : Invocation) :
    Remembers (v.next i) (h.next i) := by
  obtain ⟨target, rows⟩ := remembers
  cases i with
  | write env =>
      simp only [View.next, History.next]
      cases env.command with
      | none => exact ⟨target, rows⟩
      | some command =>
          have turned : ∀ t, v.rows = Tally.recordAll (h.turn t).samples := by
            intro t
            rw [rows, History.turn, History.samples, History.samples, List.append_nil]
          cases command with
          | startPid pid => exact ⟨rfl, turned _⟩
          | stopPid => exact ⟨rfl, turned _⟩
  | hit env regs =>
      by_cases hit : h.target = some (env.currentPid : Int)
      · have taken : (env.currentPid : Int) = v.target := (hit_iff target _).mpr hit
        simp only [View.next, History.next, if_pos taken, if_pos hit]
        refine ⟨target, ?_⟩
        show Tally.record v.rows _ = Tally.recordAll (h.earlier ++ (h.current ++ [_]))
        rw [rows, ← List.append_assoc, Tally.recordAll_append _ [_]]
        rfl
      · have missed : ¬(env.currentPid : Int) = v.target := fun taken =>
          hit ((hit_iff target _).mp taken)
        simp only [View.next, History.next, if_neg missed, if_neg hit]
        exact ⟨target, rows⟩

theorem viewAfter_remembers (run : List Invocation) :
    Remembers (viewAfter run) (historyAfter run) := by
  induction run using List.reverseRecOn with
  | nil => exact ⟨rfl, rfl⟩
  | append_singleton run i ih =>
      have view : viewAfter (run ++ [i]) = (viewAfter run).next i := List.foldl_concat ..
      have history : historyAfter (run ++ [i]) = (historyAfter run).next i :=
        List.foldl_concat ..
      rw [view, history]
      exact next_remembers ih i

theorem next_closed {h : History} (none_taken : h.target = none → h.current = [])
    (i : Invocation) (closed : (h.next i).target = none) : (h.next i).current = [] := by
  revert closed
  cases i with
  | write env =>
      simp only [History.next]
      cases env.command with
      | none => exact none_taken
      | some command => cases command <;> exact fun _ => rfl
  | hit env regs =>
      simp only [History.next]
      split
      · rename_i hit
        exact fun closed => absurd (hit.symm.trans closed) (Option.some_ne_none _)
      · exact none_taken

/-- Samples are taken in a session only. -/
theorem current_of_closed (run : List Invocation) :
    (historyAfter run).target = none → (historyAfter run).current = [] := by
  induction run using List.reverseRecOn with
  | nil => exact fun _ => rfl
  | append_singleton run i ih =>
      have history : historyAfter (run ++ [i]) = (historyAfter run).next i :=
        List.foldl_concat ..
      rw [history]
      exact next_closed ih i

/-- The pid a `stop_pid` dumps for: the open session's target, -1 without a session. -/
def History.dumpedPid (h : History) : Int := h.target.getD (-1)

/-- **A dump adds up every session so far**: after `stop_pid` the file of the target it
has read holds the table of all samples since the module was loaded. -/
theorem dump_holds {pre : List Invocation} {stop : Invocation}
    (succeeds : ∀ i ∈ pre ++ [stop], i.env.Succeeds) (stops : stop.command = some .stopPid) :
    (stateAfter (pre ++ [stop])).files (dumpName (historyAfter pre).dumpedPid) =
      some (dumpText (Tally.recordAll (historyAfter pre).samples)) := by
  have moved : viewAfter (pre ++ [stop]) = (viewAfter pre).next stop := List.foldl_concat ..
  have files : (stateAfter (pre ++ [stop])).files = ((viewAfter pre).next stop).files := by
    rw [← moved, ← (stateAfter_refines succeeds).2]
    rfl
  obtain ⟨target, rows⟩ := viewAfter_remembers pre
  cases stop with
  | hit env regs => cases stops
  | write env =>
      have command : env.command = some .stopPid := stops
      simp only [View.next, command, target, rows] at files
      rw [files, History.dumpedPid, Function.update_self]

/-! ## Isolation -/

/-- The numbers sampled for one program counter, added up. -/
def sumFor (samples : List Sample) (pc : U64) (i : Fin numEvents) : Nat :=
  ((samples.filter fun sample => sample.1 = pc).map fun sample => (sample.2 i).toNat).sum

/-- The rows say what was sampled: one row for each program counter, with its sums. -/
structure Reports (rows samples : List Sample) : Prop where
  one_each : (rows.map Prod.fst).Nodup
  pcs : ∀ pc, pc ∈ rows.map Prod.fst ↔ pc ∈ samples.map Prod.fst
  sums : ∀ row ∈ rows, ∀ i, (row.2 i).toNat = sumFor samples row.1 i % 2 ^ 64

/-- Every dump reports the samples of the open session, and none without a session. -/
def Isolated (run : List Invocation) : Prop :=
  ∀ pre stop post, run = pre ++ stop :: post → stop.command = some .stopPid →
    ∃ rows, (stateAfter (pre ++ [stop])).files (dumpName (historyAfter pre).dumpedPid) =
        some (dumpText rows) ∧
      Reports rows (historyAfter pre).current

/-- What was sampled before the open session does not show beside its samples. -/
structure History.AddsNothing (h : History) : Prop where
  pcs : ∀ pc ∈ h.earlier.map Prod.fst, pc ∈ h.current.map Prod.fst
  sums : ∀ pc i, sumFor h.earlier pc i % 2 ^ 64 = 0

theorem total_toNat (samples : List Sample) (pc : U64) (i : Fin numEvents) :
    (Tally.total samples pc i).toNat = sumFor samples pc i % 2 ^ 64 := by
  rw [Tally.total, toNat_sum, List.map_map]
  rfl

theorem sumFor_append (samples later : List Sample) (pc : U64) (i : Fin numEvents) :
    sumFor (samples ++ later) pc i = sumFor samples pc i + sumFor later pc i := by
  simp [sumFor]

theorem sumFor_absent {samples : List Sample} {pc : U64} (absent : pc ∉ samples.map Prod.fst)
    (i : Fin numEvents) : sumFor samples pc i = 0 := by
  have none_left : (samples.filter fun sample => sample.1 = pc) = [] := by
    rw [List.filter_eq_nil_iff]
    intro sample inside
    simpa using fun same : sample.1 = pc => absent (same ▸ List.mem_map_of_mem inside)
  rw [sumFor, none_left]
  rfl

theorem reports_iff (h : History) :
    Reports (Tally.recordAll h.samples) h.current ↔ h.AddsNothing := by
  have distinct := Tally.nodup_recordAll h.samples
  have row_value : ∀ row ∈ Tally.recordAll h.samples, ∀ i,
      (row.2 i).toNat = (sumFor h.earlier row.1 i + sumFor h.current row.1 i) % 2 ^ 64 := by
    intro row inside i
    rw [Tally.total_of_mem distinct inside, Tally.total_recordAll, total_toNat,
      History.samples, sumFor_append]
  have known : ∀ pc, pc ∈ (Tally.recordAll h.samples).map Prod.fst ↔
      pc ∈ h.earlier.map Prod.fst ∨ pc ∈ h.current.map Prod.fst := by
    intro pc
    have all := Tally.mem_keys_recordAll h.samples pc
    simpa [Tally.keys, History.samples] using all
  constructor
  · intro reports
    refine ⟨fun pc earlier => ?_, fun pc i => ?_⟩
    · exact (reports.pcs pc).mp ((known pc).mpr (Or.inl earlier))
    · by_cases earlier : pc ∈ h.earlier.map Prod.fst
      · obtain ⟨row, inside, rfl⟩ := List.mem_map.mp ((known pc).mpr (Or.inl earlier))
        have value := row_value row inside i
        have reported := reports.sums row inside i
        omega
      · exact congrArg (· % 2 ^ 64) (sumFor_absent earlier i)
  · intro nothing
    refine ⟨distinct, fun pc => ?_, fun row inside i => ?_⟩
    · rw [known]
      constructor
      · rintro (earlier | current)
        · exact nothing.pcs pc earlier
        · exact current
      · exact Or.inr
    · have vanishes := nothing.sums row.1 i
      have value := row_value row inside i
      omega

/-- Between sessions the earlier samples add nothing only if there are none. -/
theorem addsNothing_closed_iff {run : List Invocation}
    (closed : (historyAfter run).target = none) :
    (historyAfter run).AddsNothing ↔ (historyAfter run).samples = [] := by
  have current := current_of_closed run closed
  constructor
  · intro nothing
    have earlier : (historyAfter run).earlier = [] := by
      rw [List.eq_nil_iff_forall_not_mem]
      intro sample inside
      have shown := nothing.pcs sample.1 (List.mem_map_of_mem inside)
      rw [current] at shown
      cases shown
    rw [History.samples, earlier, current]
    rfl
  · intro empty
    have earlier := (List.append_eq_nil_iff.mp empty).1
    exact ⟨fun pc inside => by simp [earlier] at inside, fun pc i => by simp [earlier, sumFor]⟩

/-- **Dumps are isolated exactly when nothing is left over**: in a run in which nothing
fails, every dump reports its own session if and only if, at every dump, the samples
taken before the session add nothing. -/
theorem isolated_iff (run : List Invocation) (succeeds : ∀ i ∈ run, i.env.Succeeds) :
    Isolated run ↔
      ∀ pre stop post, run = pre ++ stop :: post → stop.command = some .stopPid →
        (historyAfter pre).AddsNothing := by
  have dumped : ∀ pre stop post, run = pre ++ stop :: post → stop.command = some .stopPid →
      (stateAfter (pre ++ [stop])).files (dumpName (historyAfter pre).dumpedPid) =
        some (dumpText (Tally.recordAll (historyAfter pre).samples)) := by
    rintro pre stop post rfl stops
    refine dump_holds (fun i inside => succeeds i ?_) stops
    rcases List.mem_append.mp inside with before | last
    · exact List.mem_append_left _ before
    · rw [List.mem_singleton.mp last]
      exact List.mem_append_right _ List.mem_cons_self
  constructor
  · intro isolated pre stop post split stops
    obtain ⟨rows, holds, reports⟩ := isolated pre stop post split stops
    rw [dumped pre stop post split stops, Option.some.injEq] at holds
    rw [← dumpText_injective holds] at reports
    exact (reports_iff _).mp reports
  · intro nothing pre stop post split stops
    exact ⟨_, dumped pre stop post split stops,
      (reports_iff _).mpr (nothing pre stop post split stops)⟩

/-! ## Two sessions -/

def firstSession : List Invocation :=
  [.write (.echo "start_pid 5\n".toList), .hit (.switchTo 5 7) ⟨fun _ => 16, 0⟩,
    .write (.echo "stop_pid\n".toList)]

theorem firstSession_succeeds : ∀ i ∈ firstSession, i.env.Succeeds := by
  simp [firstSession, Invocation.env, Env.echo_succeeds, Env.switchTo_succeeds]

/-- The first session after loading is isolated. -/
theorem firstSession_isolated : Isolated firstSession := by
  apply (isolated_iff firstSession firstSession_succeeds).mpr
  intro pre stop post split stops
  match pre, split with
  | [], split =>
      obtain ⟨rfl, -⟩ := List.cons.inj split
      exact absurd stops (by decide)
  | [_], split =>
      obtain ⟨rfl, rest⟩ := List.cons.inj split
      obtain ⟨rfl, -⟩ := List.cons.inj rest
      cases stops
  | [_, _], split =>
      obtain ⟨rfl, rest⟩ := List.cons.inj split
      obtain ⟨rfl, -⟩ := List.cons.inj rest
      exact ⟨fun pc earlier => absurd earlier List.not_mem_nil, fun pc i => rfl⟩
  | _ :: _ :: _ :: pre, split => simp [firstSession] at split

/-- A session for another pid opened after it, with no switch to that pid. -/
def secondSession : List Invocation :=
  firstSession ++
    [.write (.echo "start_pid 6\n".toList), .write (.echo "stop_pid\n".toList)]

/-- The second session's dump shows the row of the first. -/
theorem sessions_not_isolated :
    ¬∀ run, (∀ i ∈ run, i.env.Succeeds) → Isolated run := by
  intro isolated
  let pre := firstSession ++ [.write (.echo "start_pid 6\n".toList)]
  have succeeds : ∀ i ∈ secondSession, i.env.Succeeds := by
    simp [secondSession, firstSession, Invocation.env, Env.echo_succeeds, Env.switchTo_succeeds]
  have history : historyAfter pre =
      ⟨some 6, [(16, fun _ => 7)], []⟩ := by rfl
  obtain ⟨rows, holds, reports⟩ := isolated secondSession succeeds pre
    (.write (.echo "stop_pid\n".toList)) [] rfl (by decide)
  rw [dump_holds succeeds (by decide), Option.some.injEq] at holds
  rw [← dumpText_injective holds, history] at reports
  have shown := (reports.pcs 16).mp (by decide)
  cases shown

end Dreamscape.Monitor
