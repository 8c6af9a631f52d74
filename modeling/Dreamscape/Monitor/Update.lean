/-
# Monitor.Update -- what update_counters does to counter_list

`rows` reads the list off the heap, and `updateCounters_exec` says that one call
records one sample in it (`Theory.Tally.record`): the search loop finds the row of
the program counter, the inner loop adds in place, and a program counter without a
row gets one in front.  Nothing else in the state changes.
-/
import Dreamscape.Monitor.Handlers
import Dreamscape.Theory.Tally
import Mathlib.Data.List.FinRange

namespace Dreamscape.Monitor

set_option autoImplicit false

open Theory Kernel

/-! ## The list as a table -/

def rowsOf (heap : Ptr → Option CounterData) (list : List Ptr) : List (U64 × Counters) :=
  list.filterMap fun p => (heap p).map fun data => (data.pc, data.counters)

/-- The entries of `counter_list`, in list order. -/
def State.rows (s : State) : List (U64 × Counters) := rowsOf s.heap s.counterList

/-- The list is a chain of distinct allocated entries. -/
structure Linked (s : State) : Prop where
  nodup : s.counterList.Nodup
  allocated : ∀ p ∈ s.counterList, ∃ data, s.heap p = some data
  bound : ∀ p ∈ s.counterList, p < s.nextPtr

/-- Replace the list and the memory behind it. -/
def State.withList (s : State) (heap : Ptr → Option CounterData) (nextPtr : Ptr)
    (list : List Ptr) : State :=
  { s with heap := heap, nextPtr := nextPtr, counterList := list }

@[simp] theorem rows_withList (s : State) (heap : Ptr → Option CounterData) (nextPtr : Ptr)
    (list : List Ptr) : (s.withList heap nextPtr list).rows = rowsOf heap list := rfl

theorem linked_of_empty {s : State} (empty : s.counterList = []) : Linked s := by
  constructor <;> simp [empty]

/-- A list of one entry. -/
def State.oneRow : State :=
  { State.initial with
    counterList := [0]
    heap := fun p => if p = 0 then some ⟨16, fun _ => 1⟩ else none
    nextPtr := 1 }

theorem linked_oneRow : Linked .oneRow := by
  constructor
  · exact List.nodup_singleton 0
  · intro p inside
    rw [List.mem_singleton.mp inside]
    exact ⟨_, rfl⟩
  · intro p inside
    rw [List.mem_singleton.mp inside]
    exact Nat.one_pos

theorem rowsOf_cons {heap : Ptr → Option CounterData} {p : Ptr} {data : CounterData}
    (at_p : heap p = some data) (list : List Ptr) :
    rowsOf heap (p :: list) = (data.pc, data.counters) :: rowsOf heap list := by
  simp [rowsOf, at_p]

theorem rowsOf_update_ne {heap : Ptr → Option CounterData} {p : Ptr} {list : List Ptr}
    (outside : p ∉ list) (data : Option CounterData) :
    rowsOf (Function.update heap p data) list = rowsOf heap list := by
  apply List.filterMap_congr
  intro q inside
  rw [Function.update_of_ne]
  rintro rfl
  exact outside inside

/-! ## The search -/

/-- Does the entry hold this program counter? -/
def holdsPc (heap : Ptr → Option CounterData) (pc : U64) (p : Ptr) : Bool :=
  (heap p).any fun data => data.pc = pc

theorem findEntry_exec {t : Tid} {e : Env} {s : State} (pc : U64) {list : List Ptr}
    (allocated : ∀ p ∈ list, ∃ data, s.heap p = some data) :
    (findEntry pc list).exec (kernel t e) s = .done (list.find? (holdsPc s.heap pc)) s := by
  induction list with
  | nil => rfl
  | cons p rest ih =>
      obtain ⟨data, at_p⟩ := allocated p List.mem_cons_self
      have onward := ih fun q inside => allocated q (List.mem_cons_of_mem p inside)
      by_cases hit : data.pc = pc
      · simp [findEntry, kernel, State.onEntry, at_p, hit, holdsPc]
      · simp [findEntry, kernel, State.onEntry, at_p, hit, holdsPc, onward]

/-- The search finds nothing exactly when the program counter has no row. -/
theorem find_none_iff {heap : Ptr → Option CounterData} {list : List Ptr}
    (allocated : ∀ p ∈ list, ∃ data, heap p = some data) (pc : U64) :
    list.find? (holdsPc heap pc) = none ↔ pc ∉ Tally.keys (rowsOf heap list) := by
  induction list with
  | nil => simp [rowsOf, Tally.keys]
  | cons p rest ih =>
      obtain ⟨data, at_p⟩ := allocated p List.mem_cons_self
      have onward := ih fun q inside => allocated q (List.mem_cons_of_mem p inside)
      rw [rowsOf_cons at_p]
      by_cases hit : data.pc = pc
      · simp [Tally.keys, holdsPc, at_p, hit]
      · simpa [Tally.keys, holdsPc, at_p, hit, Ne.symm hit] using onward

/-! ## The update in place -/

/-- The entry after `counters[i] += v[i]` for the indices of `is`. -/
def addedAt (is : List (Fin numEvents)) (data : CounterData) (v : Counters) : CounterData :=
  { data with counters := fun i => if i ∈ is then data.counters i + v i else data.counters i }

theorem addedAt_cons {i : Fin numEvents} {is : List (Fin numEvents)} (fresh : i ∉ is)
    (data : CounterData) (v : Counters) :
    addedAt is { data with counters := Function.update data.counters i (data.counters i + v i) } v =
      addedAt (i :: is) data v := by
  simp only [addedAt, CounterData.mk.injEq, true_and]
  funext j
  by_cases same : j = i
  · subst same
    simp [fresh]
  · simp [same]

theorem addedAt_finRange (data : CounterData) (v : Counters) :
    addedAt (List.finRange numEvents) data v = { data with counters := data.counters + v } := by
  simp only [addedAt, List.mem_finRange, if_true]
  rfl

theorem addCounters_exec {t : Tid} {e : Env} {p : Ptr} (v : Counters) {is : List (Fin numEvents)}
    (distinct : is.Nodup) {s : State} {data : CounterData} (at_p : s.heap p = some data) :
    (addCounters p v is).exec (kernel t e) s =
      .done () { s with heap := Function.update s.heap p (some (addedAt is data v)) } := by
  induction is generalizing s data with
  | nil =>
      have same : addedAt [] data v = data := by simp [addedAt]
      have unchanged : Function.update s.heap p (some data) = s.heap := by
        rw [← at_p, Function.update_eq_self]
      simp [addCounters, same, unchanged]
  | cons i is ih =>
      obtain ⟨fresh, distinct⟩ := List.nodup_cons.mp distinct
      simp only [addCounters, addCounter, call, Prog.call_bind, Prog.ret_bind, Prog.exec_call, kernel,
        State.storeEntry, State.onEntry, at_p, Outcome.bind_done]
      rw [ih distinct (Function.update_self ..), addedAt_cons fresh]
      simp only [Function.update_idem]

/-- Adding to the first entry that holds the program counter adds to its row. -/
theorem rowsOf_addTo {heap : Ptr → Option CounterData} {list : List Ptr} {pc : U64} {p : Ptr}
    {data : CounterData} (v : Counters) (distinct : list.Nodup)
    (allocated : ∀ q ∈ list, ∃ data, heap q = some data)
    (found : list.find? (holdsPc heap pc) = some p) (at_p : heap p = some data) :
    rowsOf (Function.update heap p (some { data with counters := data.counters + v })) list =
      Tally.addTo pc v (rowsOf heap list) := by
  induction list with
  | nil => cases found
  | cons q rest ih =>
      obtain ⟨outside, distinct⟩ := List.nodup_cons.mp distinct
      obtain ⟨first, at_q⟩ := allocated q List.mem_cons_self
      by_cases hit : first.pc = pc
      · have same : q = p := by simpa [List.find?_cons, holdsPc, at_q, hit] using found
        subst same
        rw [at_q, Option.some.injEq] at at_p
        subst at_p
        rw [rowsOf_cons (Function.update_self ..), rowsOf_cons at_q, rowsOf_update_ne outside]
        simp [Tally.addTo, hit]
      · have deeper : rest.find? (holdsPc heap pc) = some p := by
          simpa [List.find?_cons, holdsPc, at_q, hit] using found
        have apart : q ≠ p := by
          rintro rfl
          exact outside (List.mem_of_find?_eq_some deeper)
        have at_q' : Function.update heap p (some { data with counters := data.counters + v }) q =
            some first := by rw [Function.update_of_ne apart, at_q]
        rw [rowsOf_cons at_q', rowsOf_cons at_q,
          ih distinct (fun r inside => allocated r (List.mem_cons_of_mem q inside)) deeper]
        simp [Tally.addTo, hit]

/-! ## One call -/

theorem updateCounters_begin {t : Tid} {e : Env} {s : State} (linked : Linked s) (pc : U64)
    (v : Counters) :
    (updateCounters pc v).exec (kernel t e) s =
      (match s.counterList.find? (holdsPc s.heap pc) with
        | some entry => addCounters entry v (List.finRange numEvents)
        | none => do
            let entry ← kmalloc
            setEntryPc entry pc
            setEntryCounters entry v
            listAdd entry).exec (kernel t e) s := by
  have search := findEntry_exec (t := t) (e := e) pc linked.allocated
  cases found : s.counterList.find? (holdsPc s.heap pc) <;>
    simp only [updateCounters, counterListEntries, call, Prog.call_bind, Prog.ret_bind,
      Prog.exec_call, Prog.exec_bind, kernel, Outcome.bind_done, search, found]

/-- **One call of `update_counters` records one sample**, and changes nothing but
the list and the memory behind it. -/
theorem updateCounters_exec {t : Tid} {e : Env} {s : State} {pc : U64} (linked : Linked s)
    (memory : e.kmallocFails = false ∨ pc ∈ Tally.keys s.rows) (v : Counters) :
    ∃ heap nextPtr list,
      (updateCounters pc v).exec (kernel t e) s = .done () (s.withList heap nextPtr list) ∧
      Linked (s.withList heap nextPtr list) ∧
      rowsOf heap list = Tally.record s.rows (pc, v) := by
  rw [updateCounters_begin linked]
  cases found : s.counterList.find? (holdsPc s.heap pc) with
  | some p =>
      have inside := List.mem_of_find?_eq_some found
      obtain ⟨data, at_p⟩ := linked.allocated p inside
      have known : pc ∈ Tally.keys s.rows := by
        by_contra absent
        rw [(find_none_iff linked.allocated pc).mpr absent] at found
        cases found
      refine ⟨_, s.nextPtr, s.counterList,
        addCounters_exec v (List.nodup_finRange _) at_p, ⟨linked.nodup, fun q at_q => ?_, linked.bound⟩, ?_⟩
      · by_cases same : q = p
        · subst same
          exact ⟨_, Function.update_self ..⟩
        · obtain ⟨other, held⟩ := linked.allocated q at_q
          exact ⟨other, by simpa only [State.withList, Function.update_of_ne same] using held⟩
      · rw [addedAt_finRange, rowsOf_addTo v linked.nodup linked.allocated found at_p]
        simp only [Tally.record, known, if_true]
        rfl
  | none =>
      have absent : pc ∉ Tally.keys s.rows := (find_none_iff linked.allocated pc).mp found
      have memory : e.kmallocFails = false := memory.resolve_right absent
      have outside : s.nextPtr ∉ s.counterList := fun inside =>
        Nat.lt_irrefl _ (linked.bound _ inside)
      refine ⟨Function.update s.heap s.nextPtr (some ⟨pc, v⟩), s.nextPtr + 1,
        s.nextPtr :: s.counterList, ?_, ⟨?_, fun q at_q => ?_, fun q at_q => ?_⟩, ?_⟩
      · simp [kernel, memory, State.storeEntry, State.onEntry, State.withList]
      · exact List.nodup_cons.mpr ⟨outside, linked.nodup⟩
      · rcases List.mem_cons.mp at_q with rfl | at_q
        · exact ⟨_, Function.update_self ..⟩
        · obtain ⟨other, held⟩ := linked.allocated q at_q
          have apart : q ≠ s.nextPtr := fun same => outside (same ▸ at_q)
          exact ⟨other, by simpa only [State.withList, Function.update_of_ne apart] using held⟩
      · rcases List.mem_cons.mp at_q with rfl | at_q
        · exact Nat.lt_succ_self _
        · exact Nat.lt_succ_of_lt (linked.bound q at_q)
      · rw [rowsOf_cons (Function.update_self ..), rowsOf_update_ne outside]
        simp only [Tally.record, absent, if_false]
        rfl

/-- Without memory a program counter that has no row is not recorded. -/
theorem updateCounters_starved {t : Tid} {e : Env} {s : State} {pc : U64} (linked : Linked s)
    (fails : e.kmallocFails = true) (absent : pc ∉ Tally.keys s.rows) (v : Counters) :
    (updateCounters pc v).exec (kernel t e) s = .fault .nullDereference s := by
  rw [updateCounters_begin linked, (find_none_iff linked.allocated pc).mpr absent]
  simp [kernel, fails, State.storeEntry]

/-! ## A sequence of calls -/

/-- One call of `update_counters`: the thread and environment it runs in, and its
arguments. -/
structure UpdateCall where
  tid : Tid
  env : Env
  pc : U64
  values : Counters

def UpdateCall.sample (c : UpdateCall) : U64 × Counters := (c.pc, c.values)

def updateAll : List UpdateCall → State → Answer Unit
  | [], s => .done () s
  | c :: rest, s =>
      ((updateCounters c.pc c.values).exec (kernel c.tid c.env) s).bind fun _ s' =>
        updateAll rest s'

theorem updateAll_exec {calls : List UpdateCall}
    (memory : ∀ c ∈ calls, c.env.kmallocFails = false) {s : State} (linked : Linked s) :
    ∃ s', updateAll calls s = .done () s' ∧ Linked s' ∧
      s'.rows = (calls.map UpdateCall.sample).foldl Tally.record s.rows := by
  induction calls generalizing s with
  | nil => exact ⟨s, rfl, linked, rfl⟩
  | cons c rest ih =>
      obtain ⟨heap, nextPtr, list, once, linked, rows⟩ :=
        updateCounters_exec (t := c.tid) linked (Or.inl (memory c List.mem_cons_self)) c.values
      obtain ⟨s', onward, linked', rows'⟩ :=
        ih (fun c' inside => memory c' (List.mem_cons_of_mem c inside)) linked
      refine ⟨s', ?_, linked', ?_⟩
      · rw [updateAll, once]
        exact onward
      · rw [rows', rows_withList, rows]
        rfl

/-- What the list says after a sequence of calls on the empty list. -/
structure Aggregates (calls : List UpdateCall) (entries : List (U64 × Counters)) : Prop where
  one_each : (entries.map Prod.fst).Nodup
  pcs : ∀ pc, pc ∈ entries.map Prod.fst ↔ pc ∈ calls.map UpdateCall.pc
  sums : ∀ entry ∈ entries, ∀ i : Fin numEvents, (entry.2 i).toNat =
    ((calls.filter fun c => c.pc = entry.1).map fun c => (c.values i).toNat).sum % 2 ^ 64
  order : (entries.map Prod.fst).Pairwise fun p q =>
    (calls.map UpdateCall.pc).idxOf q < (calls.map UpdateCall.pc).idxOf p

/-- A sum of counters is the sum of the numbers modulo `2 ^ 64`. -/
theorem toNat_sum (values : List Counters) (i : Fin numEvents) :
    (values.sum i).toNat = (values.map fun v => (v i).toNat).sum % 2 ^ 64 := by
  induction values with
  | nil => rfl
  | cons v values ih => simp [BitVec.toNat_add, ih]

theorem total_samples (calls : List UpdateCall) (pc : U64) (i : Fin numEvents) :
    (Tally.total (calls.map UpdateCall.sample) pc i).toNat =
      ((calls.filter fun c => c.pc = pc).map fun c => (c.values i).toNat).sum % 2 ^ 64 := by
  rw [Tally.total, toNat_sum, List.filter_map, List.map_map, List.map_map]
  rfl

theorem keys_samples (calls : List UpdateCall) :
    Tally.keys (calls.map UpdateCall.sample) = calls.map UpdateCall.pc := by
  simp [Tally.keys, UpdateCall.sample]

theorem aggregates_recordAll (calls : List UpdateCall) :
    Aggregates calls (Tally.recordAll (calls.map UpdateCall.sample)) where
  one_each := Tally.nodup_recordAll _
  pcs pc := by
    rw [← keys_samples]
    exact Tally.mem_keys_recordAll _ pc
  sums entry inside i := by
    rw [Tally.total_of_mem (Tally.nodup_recordAll _) inside, Tally.total_recordAll, total_samples]
  order := by
    have order := Tally.pairwise_idxOf_reverse_dedup (Tally.keys (calls.map UpdateCall.sample))
    rw [← Tally.keys_recordAll, keys_samples] at order
    exact order

/-- **Aggregation**: from the empty list, with memory to be had, any sequence of
calls returns and leaves one entry for each program counter, holding the sums of its
samples, the program counter that appeared last in front; another order of the calls
only reorders the entries. -/
theorem updateCounters_aggregates (calls : List UpdateCall)
    (memory : ∀ c ∈ calls, c.env.kmallocFails = false) (s : State) (empty : s.counterList = []) :
    ∃ s', updateAll calls s = .done () s' ∧ Aggregates calls s'.rows ∧
      ∀ calls', calls.Perm calls' →
        ∃ s'', updateAll calls' s = .done () s'' ∧ s'.rows.Perm s''.rows := by
  have rows_empty : s.rows = [] := by simp [State.rows, rowsOf, empty]
  have run : ∀ {calls' : List UpdateCall}, (∀ c ∈ calls', c.env.kmallocFails = false) →
      ∃ s', updateAll calls' s = .done () s' ∧
        s'.rows = Tally.recordAll (calls'.map UpdateCall.sample) := by
    intro calls' memory'
    obtain ⟨s', returns, -, rows⟩ := updateAll_exec memory' (linked_of_empty empty)
    exact ⟨s', returns, by rw [rows, rows_empty]; rfl⟩
  obtain ⟨s', returns, rows⟩ := run memory
  refine ⟨s', returns, rows ▸ aggregates_recordAll calls, ?_⟩
  intro calls' perm
  obtain ⟨s'', returns', rows'⟩ := run fun c inside => memory c (perm.mem_iff.mpr inside)
  refine ⟨s'', returns', ?_⟩
  rw [rows, rows']
  exact Tally.recordAll_perm (perm.map _)

/-- Three calls with two program counters. -/
def threeCalls : List UpdateCall :=
  [⟨0, .quiet, 16, fun _ => 1⟩, ⟨1, .quiet, 32, fun _ => 2⟩, ⟨0, .quiet, 16, fun _ => 3⟩]

theorem updateCounters_aggregates_three :
    ∃ s', updateAll threeCalls .initial = .done () s' ∧ Aggregates threeCalls s'.rows ∧
      ∀ calls', threeCalls.Perm calls' →
        ∃ s'', updateAll calls' .initial = .done () s'' ∧ s'.rows.Perm s''.rows :=
  updateCounters_aggregates threeCalls (by simp [threeCalls, Env.quiet]) .initial rfl

end Dreamscape.Monitor
