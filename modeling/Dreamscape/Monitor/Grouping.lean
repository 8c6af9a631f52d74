/-
# Monitor.Grouping -- which samples share an entry

A context switch to the target brings two register files: the registers at the probe,
and the frame saved when the target last left user mode, where the user program counter
is (cache_kprobe_monitor_v2 samples it there).  `pre_handler` groups its samples by
`regs_return_value` of the first, which is `x0`.

An entry keeps the program counter it was made with, and no two entries have the same
one (`Keyed`), so two samples share an entry exactly when their `x0` agree.  Samples are
therefore grouped by user program counter exactly when each of them was taken with that
program counter in `x0` (`aggregates_by_pc_iff`).
-/
import Dreamscape.Monitor.Session
import Dreamscape.Monitor.Footprint

namespace Dreamscape.Monitor

set_option autoImplicit false

open Theory Kernel

/-! ## Runs -/

/-- A write to the command file, or a context switch with the registers at the probe and
the saved user frame. -/
inductive Visit where
  | command (env : Env)
  | hit (env : Env) (regs frame : PtRegs)

/-- The handler does not look at the user frame. -/
def Visit.invocation : Visit → Invocation
  | .command env => .write env
  | .hit env regs _ => .hit env regs

def visited (run : List Visit) : State := stateAfter (run.map Visit.invocation)

/-- The entry whose counters a call writes. -/
def Op.accumulates : Op → Option Ptr
  | .addCounter entry _ _ => some entry
  | .setEntryCounters entry _ => entry
  | _ => none

/-- The entries whose counters the invocation writes. -/
def Invocation.entries (i : Invocation) (s : State) : List Ptr :=
  (i.code.trace (kernel 0 i.env) s).filterMap Op.accumulates

/-- Visit `j` is a switch with these registers, and accumulates its sample in `entry`. -/
structure Sampled (run : List Visit) (j : Nat) (regs frame : PtRegs) (entry : Ptr) : Prop where
  accumulates : ∃ env, run[j]? = some (.hit env regs frame) ∧
    entry ∈ (Invocation.hit env regs).entries (visited (run.take j))

def State.pcAt (s : State) (entry : Ptr) : Option U64 := (s.heap entry).map CounterData.pc

/-- Samples share an entry exactly if they were taken at the same user program counter, and
the entry holds it. -/
structure AggregatesByPc (run : List Visit) : Prop where
  same_entry : ∀ j k regs regs' frame frame' entry entry', Sampled run j regs frame entry →
    Sampled run k regs' frame' entry' → (entry = entry' ↔ frame.pc = frame'.pc)
  entry_pc : ∀ j regs frame entry, Sampled run j regs frame entry →
    (visited run).pcAt entry = some frame.pc

/-! ## The table -/

/-- The list is a chain of entries with distinct program counters. -/
structure Keyed (s : State) : Prop where
  linked : Linked s
  distinct : ∀ p ∈ s.counterList, ∀ q ∈ s.counterList, s.pcAt p = s.pcAt q → p = q

/-- Entries stay in the list, with their program counters. -/
def Keeps (s s' : State) : Prop :=
  ∀ p ∈ s.counterList, p ∈ s'.counterList ∧ s'.pcAt p = s.pcAt p

theorem Keeps.refl (s : State) : Keeps s s := fun _ inside => ⟨inside, rfl⟩

theorem Keeps.trans {s s' s'' : State} (first : Keeps s s') (second : Keeps s' s'') :
    Keeps s s'' := by
  intro p inside
  obtain ⟨inside', same⟩ := first p inside
  obtain ⟨inside'', same'⟩ := second p inside'
  exact ⟨inside'', same'.trans same⟩

/-- The calls that neither change the list nor write an entry. -/
def Op.Apart : Op → Prop
  | .addCounter .. | .kmalloc | .setEntryPc .. | .setEntryCounters .. | .listAdd _ => False
  | _ => True

theorem accumulates_apart {o : Op} (apart : o.Apart) : o.accumulates = none := by
  cases o <;> first | exact apart.elim | rfl

theorem dumps_apart (o : Op) (dumps : o.Dumps) : o.Apart := by
  cases o <;> first | exact dumps.elim | trivial

theorem measures_apart (o : Op) (measures : o.Measures) : o.Apart := by
  cases o <;> first | exact measures.elim | trivial

theorem commands_apart (o : Op) (commands : o.Commands) : o.Apart := by
  rcases commands with targets | dumps | ⟨n, rfl⟩ | rfl
  · cases o <;> first | exact targets.elim | trivial
  · exact dumps_apart o dumps
  · trivial
  · trivial

/-- The two states have the same list and the same memory behind it. -/
structure SameTable (s s' : State) : Prop where
  heap : s'.heap = s.heap
  counterList : s'.counterList = s.counterList
  nextPtr : s'.nextPtr = s.nextPtr

theorem SameTable.keyed {s s' : State} (same : SameTable s s') (keyed : Keyed s) : Keyed s' where
  linked := linked_congr keyed.linked same.heap same.counterList same.nextPtr
  distinct := by
    simp only [State.pcAt, same.heap, same.counterList]
    exact keyed.distinct

theorem SameTable.keeps {s s' : State} (same : SameTable s s') : Keeps s s' := by
  intro p inside
  rw [same.counterList, State.pcAt, same.heap]
  exact ⟨inside, rfl⟩

theorem SameTable.trans {s s' s'' : State} (first : SameTable s s') (second : SameTable s' s'') :
    SameTable s s'' :=
  ⟨second.heap.trans first.heap, second.counterList.trans first.counterList,
    second.nextPtr.trans first.nextPtr⟩

section Calls

variable {t : Tid} {e : Env} {s : State}

theorem onEntry_table {α : Type} {s : State} (entry : Ptr) {f : CounterData → Answer α}
    (keeps : ∀ data, SameTable s (f data).state) : SameTable s (s.onEntry entry f).state := by
  unfold State.onEntry
  split
  · exact ⟨rfl, rfl, rfl⟩
  · exact keeps _

theorem onFile_table {α : Type} {s : State} (file : Nat) {f : OpenFile → Answer α}
    (keeps : ∀ data, SameTable s (f data).state) : SameTable s (s.onFile file f).state := by
  unfold State.onFile
  split
  · exact ⟨rfl, rfl, rfl⟩
  · exact keeps _

theorem kernel_apart {o : Op} (apart : o.Apart) (s : State) :
    SameTable s (kernel t e o s).state := by
  cases o with
  | addCounter _ _ _ | kmalloc | setEntryPc _ _ | setEntryCounters _ _ | listAdd _ =>
      exact apart.elim
  | entryPc entry => exact onEntry_table entry fun _ => ⟨rfl, rfl, rfl⟩
  | entryCounter entry i => exact onEntry_table entry fun _ => ⟨rfl, rfl, rfl⟩
  | filpClose file => exact onFile_table file fun _ => ⟨rfl, rfl, rfl⟩
  | setFPos file pos => exact onFile_table file fun _ => ⟨rfl, rfl, rfl⟩
  | hasWrite file => exact onFile_table file fun _ => ⟨rfl, rfl, rfl⟩
  | fOpWrite file text =>
      apply onFile_table file
      intro _
      split <;> exact ⟨rfl, rfl, rfl⟩
  | mutexLock | mutexUnlock | perfEventCreateKernelCounter _ _ _ | filpOpen _ =>
      simp only [kernel]
      split <;> exact ⟨rfl, rfl, rfl⟩
  | copyFromUser _ | targetPid | setTargetPid _ | currentPid | perfEventReadValue _
    | perfEventReleaseKernel _ | counterList | getFs | setFs _ => exact ⟨rfl, rfl, rfl⟩

theorem apart_table {α : Type} {p : Code α} (only : p.Only Op.Apart) (s : State) :
    SameTable s (p.exec (kernel t e) s).state :=
  only.exec_invariant (I := SameTable s) (fun _ apart s' same => same.trans (kernel_apart apart s'))
    ⟨rfl, rfl, rfl⟩

end Calls

/-! ## Code that records under one program counter -/

/-- Run alone on a keyed list, `p` keeps it keyed, and every entry it accumulates in is
one of the list and holds `pc`. -/
def Records {α : Type} (pc : U64) (p : Code α) : Prop :=
  ∀ t e s, Keyed s →
    Keyed (p.exec (kernel t e) s).state ∧ Keeps s (p.exec (kernel t e) s).state ∧
      ∀ q ∈ (p.trace (kernel t e) s).filterMap Op.accumulates,
        q ∈ (p.exec (kernel t e) s).state.counterList ∧
          (p.exec (kernel t e) s).state.pcAt q = some pc

section Recording

variable {α β : Type} {pc : U64}

theorem records_apart {p : Code α} (only : p.Only Op.Apart) : Records pc p := by
  intro t e s keyed
  have same := apart_table (t := t) (e := e) only s
  refine ⟨same.keyed keyed, same.keeps, fun q inside => ?_⟩
  obtain ⟨o, made, accumulates⟩ := List.mem_filterMap.mp inside
  rw [accumulates_apart (only.trace s o made)] at accumulates
  cases accumulates

theorem records_bind {p : Code α} {f : α → Code β} (first : Records pc p)
    (onward : ∀ a, Records pc (f a)) : Records pc (p >>= f) := by
  intro t e s keyed
  obtain ⟨keyed₁, keeps₁, entries₁⟩ := first t e s keyed
  rw [Prog.exec_bind, Prog.trace_bind]
  cases ran : p.exec (kernel t e) s with
  | done a s₁ =>
      rw [ran] at keyed₁ keeps₁ entries₁
      obtain ⟨keyed₂, keeps₂, entries₂⟩ := onward a t e s₁ keyed₁
      refine ⟨keyed₂, keeps₁.trans keeps₂, fun q inside => ?_⟩
      rw [List.filterMap_append, List.mem_append] at inside
      rcases inside with early | late
      · obtain ⟨inside₁, pc₁⟩ := entries₁ q early
        obtain ⟨inside₂, pc₂⟩ := keeps₂ q inside₁
        exact ⟨inside₂, pc₂.trans pc₁⟩
      · exact entries₂ q late
  | blocked s₁ =>
      rw [ran] at keyed₁ keeps₁ entries₁
      refine ⟨keyed₁, keeps₁, fun q inside => entries₁ q ?_⟩
      simpa using inside
  | fault err s₁ =>
      rw [ran] at keyed₁ keeps₁ entries₁
      refine ⟨keyed₁, keeps₁, fun q inside => entries₁ q ?_⟩
      simpa using inside

/-- Adding to an entry of the list. -/
theorem addCounters_records {t : Tid} {e : Env} {s : State} {p : Ptr} {data : CounterData}
    (keyed : Keyed s) (inside : p ∈ s.counterList) (at_p : s.heap p = some data) (v : Counters) :
    Keyed ((addCounters p v (List.finRange numEvents)).exec (kernel t e) s).state ∧
      Keeps s ((addCounters p v (List.finRange numEvents)).exec (kernel t e) s).state ∧
      ∀ q ∈ ((addCounters p v (List.finRange numEvents)).trace (kernel t e) s).filterMap
          Op.accumulates,
        q ∈ ((addCounters p v (List.finRange numEvents)).exec (kernel t e) s).state.counterList ∧
          ((addCounters p v (List.finRange numEvents)).exec (kernel t e) s).state.pcAt q =
            some data.pc := by
  have adds : (addCounters p v (List.finRange numEvents)).Only
      fun o : Op => o.accumulates = some p := by
    induction List.finRange numEvents with
    | nil => trivial
    | cons i is ih => exact ⟨rfl, fun _ => ih⟩
  have entries := adds.trace (h := kernel t e) s
  rw [addCounters_exec v (List.nodup_finRange _) at_p]
  let s' : State := { s with
    heap := Function.update s.heap p (some (addedAt (List.finRange numEvents) data v)) }
  have pcs : ∀ q, s'.pcAt q = s.pcAt q := by
    intro q
    by_cases here : q = p
    · subst here
      simp [s', State.pcAt, at_p, addedAt]
    · simp [s', State.pcAt, here]
  have linked : Linked s' := by
    refine ⟨keyed.linked.nodup, fun q at_q => ?_, keyed.linked.bound⟩
    by_cases here : q = p
    · subst here
      exact ⟨_, Function.update_self ..⟩
    · obtain ⟨other, held⟩ := keyed.linked.allocated q at_q
      exact ⟨other, by simpa only [s', Function.update_of_ne here] using held⟩
  refine ⟨⟨linked, fun q at_q r at_r same => ?_⟩, fun q at_q => ⟨at_q, pcs q⟩, fun q made => ?_⟩
  · apply keyed.distinct q at_q r at_r
    rw [← pcs q, ← pcs r]
    exact same
  · obtain ⟨o, called, accumulates⟩ := List.mem_filterMap.mp made
    rw [entries o called, Option.some.injEq] at accumulates
    subst accumulates
    refine ⟨inside, (pcs p).trans ?_⟩
    rw [State.pcAt, at_p]
    rfl

/-- The state with a new entry in front. -/
def State.entered (s : State) (pc : U64) (v : Counters) : State :=
  s.withList (Function.update s.heap s.nextPtr (some ⟨pc, v⟩)) (s.nextPtr + 1)
    (s.nextPtr :: s.counterList)

theorem entered_keyed {s : State} (keyed : Keyed s)
    (fresh : ∀ p ∈ s.counterList, s.pcAt p ≠ some pc) (v : Counters) :
    Keyed (s.entered pc v) ∧ Keeps s (s.entered pc v) ∧
      (s.entered pc v).pcAt s.nextPtr = some pc := by
  have outside : s.nextPtr ∉ s.counterList := fun inside =>
    Nat.lt_irrefl _ (keyed.linked.bound _ inside)
  have old : ∀ q ∈ s.counterList, (s.entered pc v).heap q = s.heap q := by
    intro q at_q
    have apart : q ≠ s.nextPtr := by
      rintro rfl
      exact outside at_q
    exact Function.update_of_ne apart ..
  have pcs : ∀ q ∈ s.counterList, (s.entered pc v).pcAt q = s.pcAt q := by
    intro q at_q
    rw [State.pcAt, old q at_q, State.pcAt]
  have new : (s.entered pc v).pcAt s.nextPtr = some pc := by
    simp [State.pcAt, State.entered, State.withList]
  refine ⟨⟨⟨?_, fun q at_q => ?_, fun q at_q => ?_⟩, fun q at_q r at_r same => ?_⟩,
    fun q at_q => ⟨List.mem_cons_of_mem _ at_q, pcs q at_q⟩, new⟩
  · exact List.nodup_cons.mpr ⟨outside, keyed.linked.nodup⟩
  · rcases List.mem_cons.mp at_q with rfl | at_q
    · exact ⟨_, Function.update_self ..⟩
    · rw [old q at_q]
      exact keyed.linked.allocated q at_q
  · rcases List.mem_cons.mp at_q with rfl | at_q
    · exact Nat.lt_succ_self _
    · exact Nat.lt_succ_of_lt (keyed.linked.bound q at_q)
  · rcases List.mem_cons.mp at_q with rfl | at_q <;> rcases List.mem_cons.mp at_r with rfl | at_r
    · rfl
    · rw [new, pcs r at_r] at same
      exact absurd same.symm (fresh r at_r)
    · rw [new, pcs q at_q] at same
      exact absurd same (fresh q at_q)
    · rw [pcs q at_q, pcs r at_r] at same
      exact keyed.distinct q at_q r at_r same

/-- `update_counters` after its search. -/
def recordAt (pc : U64) (v : Counters) : Option Ptr → Code Unit
  | some entry => addCounters entry v (List.finRange numEvents)
  | none => do
      let entry ← kmalloc
      setEntryPc entry pc
      setEntryCounters entry v
      listAdd entry

theorem updateCounters_eq (pc : U64) (v : Counters) :
    updateCounters pc v = (do recordAt pc v (← findEntry pc (← counterListEntries))) := by
  rfl

theorem updateCounters_records (pc : U64) (v : Counters) : Records pc (updateCounters pc v) := by
  intro t e s keyed
  have search := findEntry_exec (t := t) (e := e) pc keyed.linked.allocated
  have quiet : ((findEntry pc s.counterList).trace (kernel t e) s).filterMap Op.accumulates = [] := by
    rw [List.filterMap_eq_nil_iff]
    intro o made
    have searches : (findEntry pc s.counterList).Only Op.Apart :=
      findEntry_only (fun _ => trivial) pc s.counterList
    exact accumulates_apart (searches.trace s o made)
  have exec : (updateCounters pc v).exec (kernel t e) s =
      (recordAt pc v (s.counterList.find? (holdsPc s.heap pc))).exec (kernel t e) s := by
    simp only [updateCounters_eq, counterListEntries, call, Prog.call_bind, Prog.ret_bind,
      Prog.exec_call, Prog.exec_bind, kernel, Outcome.bind_done, search]
  have trace : ((updateCounters pc v).trace (kernel t e) s).filterMap Op.accumulates =
      ((recordAt pc v (s.counterList.find? (holdsPc s.heap pc))).trace (kernel t e) s).filterMap
        Op.accumulates := by
    simp only [updateCounters_eq, counterListEntries, call, Prog.call_bind, Prog.ret_bind,
      Prog.trace_call, Prog.trace_bind, kernel, Outcome.onward_done, search, List.filterMap_cons,
      Op.accumulates, List.filterMap_append, quiet, List.nil_append]
  rw [exec, trace]
  cases found : s.counterList.find? (holdsPc s.heap pc) with
  | some p =>
      have inside := List.mem_of_find?_eq_some found
      obtain ⟨data, at_p⟩ := keyed.linked.allocated p inside
      have held : data.pc = pc := by
        have hit := List.find?_some found
        simpa [holdsPc, at_p] using hit
      rw [← held]
      exact addCounters_records keyed inside at_p v
  | none =>
      cases memory : e.kmallocFails with
      | true =>
          have stuck : (recordAt pc v none).exec (kernel t e) s = .fault .nullDereference s := by
            simp [recordAt, kernel, memory, State.storeEntry]
          have nothing : ((recordAt pc v none).trace (kernel t e) s).filterMap Op.accumulates = [] := by
            simp [recordAt, kernel, memory, State.storeEntry, Op.accumulates]
          rw [stuck, nothing]
          exact ⟨keyed, Keeps.refl s, fun q inside => absurd inside List.not_mem_nil⟩
      | false =>
          have fresh : ∀ p ∈ s.counterList, s.pcAt p ≠ some pc := by
            intro p inside held
            have missed := List.find?_eq_none.mp found p inside
            obtain ⟨data, at_p⟩ := keyed.linked.allocated p inside
            simp only [State.pcAt, at_p, Option.map_some, Option.some.injEq] at held
            simp [holdsPc, at_p, held] at missed
          have added : (recordAt pc v none).exec (kernel t e) s = .done () (s.entered pc v) := by
            simp [recordAt, kernel, memory, State.storeEntry, State.onEntry, State.entered,
              State.withList]
          have entries : ((recordAt pc v none).trace (kernel t e) s).filterMap Op.accumulates =
              [s.nextPtr] := by
            simp [recordAt, kernel, memory, State.storeEntry, State.onEntry]
            rfl
          obtain ⟨keyed', keeps, new⟩ := entered_keyed keyed fresh v
          rw [added, entries]
          refine ⟨keyed', keeps, fun q inside => ?_⟩
          rw [List.mem_singleton.mp inside]
          exact ⟨List.mem_cons_self, new⟩

theorem preHandler_records (regs : PtRegs) :
    Records (regsReturnValue regs) (preHandler regs) := by
  have unlock : Records (regsReturnValue regs) (do mutexUnlock; return 0 : Code Int) :=
    records_apart ⟨trivial, fun _ => trivial⟩
  have begins : ∀ (o : Op) (k : o.Ans → Code Int), o.Apart →
      (∀ a, Records (regsReturnValue regs) (k a)) →
      Records (regsReturnValue regs) (Prog.call (S := sig) o k) := fun o k apart onward =>
    records_bind (p := call o) (records_apart ⟨apart, fun _ => trivial⟩) onward
  refine begins .currentPid _ trivial fun pid => begins .mutexLock _ trivial fun _ =>
    begins .targetPid _ trivial fun target => ?_
  show Records (regsReturnValue regs) (if (pid : Int) = target then _ else _)
  split
  · refine records_bind (records_apart ((createEvents_measures _ _ _).mono measures_apart)) ?_
    intro made
    cases made with
    | error err => exact records_apart trivial
    | ok events =>
        refine records_bind (records_apart ((readEvents_measures _ _).mono measures_apart)) ?_
        intro values
        exact records_bind (updateCounters_records _ _) fun _ => unlock
  · exact unlock

end Recording

/-! ## Whole runs -/

theorem exec_keyed {s : State} (keyed : Keyed s) (i : Invocation) :
    Keyed (i.exec s).state ∧ Keeps s (i.exec s).state := by
  cases i with
  | write env =>
      have same : SameTable s ((Invocation.write env).exec s).state :=
        apart_table ((commandHandler_commands _).mono commands_apart) s
      exact ⟨same.keyed keyed, same.keeps⟩
  | hit env regs =>
      obtain ⟨keyed', keeps, -⟩ := preHandler_records regs 0 env s keyed
      exact ⟨keyed', keeps⟩

theorem visited_append (run more : List Visit) :
    visited (run ++ more) =
      more.foldl (fun s visit => (visit.invocation.exec s).state) (visited run) := by
  simp only [visited, stateAfter, List.map_append, List.foldl_append, List.foldl_map]

theorem visited_keyed (run : List Visit) : Keyed (visited run) := by
  induction run using List.reverseRecOn with
  | nil => exact ⟨linked_of_empty rfl, fun p inside => absurd inside List.not_mem_nil⟩
  | append_singleton run visit ih =>
      rw [visited_append]
      exact (exec_keyed ih visit.invocation).1

theorem visited_keeps (run more : List Visit) : Keeps (visited run) (visited (run ++ more)) := by
  induction more using List.reverseRecOn with
  | nil =>
      rw [List.append_nil]
      exact Keeps.refl _
  | append_singleton more visit ih =>
      rw [← List.append_assoc, visited_append]
      exact ih.trans (exec_keyed (visited_keyed _) visit.invocation).2

/-- An entry that a sample was accumulated in is in the list at the end, and holds `x0`. -/
theorem sampled_entry {run : List Visit} {j : Nat} {regs frame : PtRegs} {entry : Ptr}
    (sampled : Sampled run j regs frame entry) :
    entry ∈ (visited run).counterList ∧
      (visited run).pcAt entry = some (regsReturnValue regs) := by
  obtain ⟨env, at_j, accumulates⟩ := sampled.accumulates
  obtain ⟨-, -, entries⟩ := preHandler_records regs 0 env _ (visited_keyed (run.take j))
  obtain ⟨listed, pc⟩ := entries entry accumulates
  have next : visited (run.take (j + 1)) =
      ((preHandler regs).exec (kernel 0 env) (visited (run.take j))).state := by
    rw [List.take_add_one, at_j, Option.toList_some, visited_append]
    rfl
  rw [← next] at listed pc
  have keeps := visited_keeps (run.take (j + 1)) (run.drop (j + 1))
  rw [List.take_append_drop] at keeps
  obtain ⟨listed', pc'⟩ := keeps entry listed
  exact ⟨listed', pc'.trans pc⟩

/-- **Samples are grouped by user program counter** if and only if each of them was taken
with the user program counter in `x0`. -/
theorem aggregates_by_pc_iff (run : List Visit) :
    AggregatesByPc run ↔
      ∀ j regs frame entry, Sampled run j regs frame entry → regsReturnValue regs = frame.pc := by
  constructor
  · intro aggregates j regs frame entry sampled
    have held := (sampled_entry sampled).2
    rw [aggregates.entry_pc j regs frame entry sampled, Option.some.injEq] at held
    exact held.symm
  · intro by_pc
    constructor
    · intro j k regs regs' frame frame' entry entry' sampled sampled'
      obtain ⟨listed, pc⟩ := sampled_entry sampled
      obtain ⟨listed', pc'⟩ := sampled_entry sampled'
      rw [by_pc j regs frame entry sampled] at pc
      rw [by_pc k regs' frame' entry' sampled'] at pc'
      constructor
      · rintro rfl
        rw [pc, Option.some.injEq] at pc'
        exact pc'
      · intro same
        apply (visited_keyed run).distinct entry listed entry' listed'
        rw [pc, pc', same]
    · intro j regs frame entry sampled
      rw [(sampled_entry sampled).2, by_pc j regs frame entry sampled]

/-- A session for process 5, and two switches to it with the same `x0`: the process was
interrupted at two places. -/
def twoPlaces : List Visit :=
  [.command (.echo "start_pid 5\n".toList),
    .hit (.switchTo 5 7) ⟨fun _ => 16, 0⟩ ⟨fun _ => 0, 0x1000⟩,
    .hit (.switchTo 5 7) ⟨fun _ => 16, 0⟩ ⟨fun _ => 0, 0x2000⟩]

theorem two_places_share_entry : ¬∀ run, AggregatesByPc run := by
  intro aggregates
  have first : Sampled twoPlaces 1 ⟨fun _ => 16, 0⟩ ⟨fun _ => 0, 0x1000⟩ 0 :=
    ⟨_, rfl, by decide +kernel⟩
  have second : Sampled twoPlaces 2 ⟨fun _ => 16, 0⟩ ⟨fun _ => 0, 0x2000⟩ 0 :=
    ⟨_, rfl, by decide +kernel⟩
  have apart := ((aggregates twoPlaces).same_entry _ _ _ _ _ _ _ _ first second).mp rfl
  exact absurd apart (by decide)

end Dreamscape.Monitor
