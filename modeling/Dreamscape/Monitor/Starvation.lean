/-
# Monitor.Starvation -- update_counters without memory

Only the first call for a program counter asks for memory, so which calls a failing
`kmalloc` meets depends on all the calls before.  The entry is not tested before it is
filled: a sequence of calls is contained exactly if no call has to allocate when it
cannot (`contained_iff`).
-/
import Dreamscape.Monitor.Update

namespace Dreamscape.Monitor

set_option autoImplicit false

open Theory Kernel

/-- The call finds an entry, when these program counters have one, or is given memory for it. -/
def UpdateCall.Served (c : UpdateCall) (known : List U64) : Prop :=
  c.env.kmallocFails = false ∨ c.pc ∈ known

instance (c : UpdateCall) (known : List U64) : Decidable (c.Served known) :=
  inferInstanceAs (Decidable (_ ∨ _))

/-- The calls of a sequence that find or allocate an entry, when these program counters have
one before it. -/
def servedCalls (known : List U64) : List UpdateCall → List UpdateCall
  | [] => []
  | c :: rest =>
      if c.Served known then c :: servedCalls (c.pc :: known) rest else servedCalls known rest

/-- Allocation failures stay with the call they meet: no call stores through a null entry, a
call that gets no memory leaves the list as it was, and the list left at the end aggregates the
calls that found or allocated an entry. -/
structure Contained (calls : List UpdateCall) (s : State) : Prop where
  never_null : ∀ s', updateAll calls s ≠ .fault .nullDereference s'
  failure_changes_nothing : ∀ before c after, calls = before ++ c :: after →
    ∀ s', updateAll before s = .done () s' → ¬c.Served (Tally.keys s'.rows) →
      ∃ s'', (updateCounters c.pc c.values).exec (kernel c.tid c.env) s' = .done () s'' ∧
        s''.counterList = s'.counterList ∧ s''.rows = s'.rows
  aggregates : ∃ s', updateAll calls s = .done () s' ∧
    s'.rows = ((servedCalls (Tally.keys s.rows) calls).map UpdateCall.sample).foldl Tally.record s.rows

/-- A call whose allocation would fail is for one of these program counters, or for that of an
earlier call. -/
def NeverStarved (known : List U64) (calls : List UpdateCall) : Prop :=
  ∀ before c after, calls = before ++ c :: after → c.env.kmallocFails = true →
    c.pc ∈ known ∨ c.pc ∈ before.map UpdateCall.pc

theorem neverStarved_cons {known : List U64} {c : UpdateCall} {rest : List UpdateCall} :
    NeverStarved known (c :: rest) ↔ c.Served known ∧ NeverStarved (c.pc :: known) rest := by
  constructor
  · intro fed
    refine ⟨?_, fun before d after split fails => ?_⟩
    · by_cases fails : c.env.kmallocFails = true
      · exact Or.inr ((fed [] c rest rfl fails).resolve_right List.not_mem_nil)
      · exact Or.inl (Bool.eq_false_iff.mpr fails)
    · have earlier := fed (c :: before) d after (by rw [split]; rfl) fails
      rw [List.map_cons, List.mem_cons] at earlier
      rw [List.mem_cons]
      tauto
  · rintro ⟨served, fed⟩ before d after split fails
    cases before with
    | nil =>
        cases split
        refine Or.inl (served.resolve_left fun memory => ?_)
        rw [fails] at memory
        cases memory
    | cons b before =>
        obtain ⟨rfl, rfl⟩ := List.cons.inj split
        have earlier := fed before d after rfl fails
        rw [List.mem_cons] at earlier
        rw [List.map_cons, List.mem_cons]
        tauto

theorem NeverStarved.mono {known known' : List U64} (more : ∀ pc ∈ known, pc ∈ known')
    {calls : List UpdateCall} (fed : NeverStarved known calls) : NeverStarved known' calls :=
  fun before c after split fails => (fed before c after split fails).imp_left (more c.pc)

theorem servedCalls_eq_self {known : List U64} {calls : List UpdateCall}
    (fed : NeverStarved known calls) : servedCalls known calls = calls := by
  induction calls generalizing known with
  | nil => rfl
  | cons c rest ih =>
      obtain ⟨served, fed⟩ := neverStarved_cons.mp fed
      rw [servedCalls, if_pos served, ih fed]

/-! ## One call -/

theorem mem_keys_record {table : List (U64 × Counters)} {sample : U64 × Counters} {pc : U64} :
    pc ∈ Tally.keys (Tally.record table sample) ↔ pc = sample.1 ∨ pc ∈ Tally.keys table := by
  rw [Tally.keys_record]
  split
  · rename_i known
    exact ⟨Or.inr, fun member => member.elim (fun same => same ▸ known) id⟩
  · exact List.mem_cons

/-- A call that is served records its sample. -/
theorem updateCounters_served {c : UpdateCall} {s : State} (linked : Linked s)
    (served : c.Served (Tally.keys s.rows)) :
    ∃ s', (updateCounters c.pc c.values).exec (kernel c.tid c.env) s = .done () s' ∧ Linked s' ∧
      s'.rows = Tally.record s.rows c.sample := by
  obtain ⟨heap, nextPtr, list, run, linked', rows⟩ :=
    updateCounters_exec (t := c.tid) linked served c.values
  exact ⟨_, run, linked', rows⟩

/-- One that is not stores through a null pointer. -/
theorem updateCounters_unserved {c : UpdateCall} {s : State} (linked : Linked s)
    (unserved : ¬c.Served (Tally.keys s.rows)) :
    (updateCounters c.pc c.values).exec (kernel c.tid c.env) s = .fault .nullDereference s := by
  obtain ⟨fails, absent⟩ := not_or.mp unserved
  exact updateCounters_starved linked (Bool.not_eq_false _ ▸ fails) absent c.values

/-! ## A sequence of calls -/

theorem updateAll_append (before after : List UpdateCall) (s : State) :
    updateAll (before ++ after) s = (updateAll before s).bind fun _ s' => updateAll after s' := by
  induction before generalizing s with
  | nil => rfl
  | cons c before ih =>
      rw [List.cons_append, updateAll, updateAll]
      cases (updateCounters c.pc c.values).exec (kernel c.tid c.env) s with
      | done a s' => exact ih s'
      | blocked s' => rfl
      | fault f s' => rfl

/-- A sequence that returns leaves the entries there were and those of its calls. -/
theorem updateAll_keys {calls : List UpdateCall} {s s' : State} (linked : Linked s)
    (returned : updateAll calls s = .done () s') :
    Linked s' ∧ ∀ pc, pc ∈ Tally.keys s'.rows ↔
      pc ∈ Tally.keys s.rows ∨ pc ∈ calls.map UpdateCall.pc := by
  induction calls generalizing s with
  | nil =>
      cases returned
      exact ⟨linked, fun pc => by simp⟩
  | cons c rest ih =>
      rw [updateAll] at returned
      by_cases served : c.Served (Tally.keys s.rows)
      · obtain ⟨s₁, run, linked₁, rows⟩ := updateCounters_served linked served
        rw [run, Outcome.bind_done] at returned
        obtain ⟨linked', keys⟩ := ih linked₁ returned
        refine ⟨linked', fun pc => ?_⟩
        rw [keys, rows, mem_keys_record, List.map_cons, List.mem_cons, UpdateCall.sample]
        tauto
      · rw [updateCounters_unserved linked served] at returned
        cases returned

/-- With every call served a sequence returns, and records every sample. -/
theorem updateAll_served {calls : List UpdateCall} {s : State} (linked : Linked s)
    (fed : NeverStarved (Tally.keys s.rows) calls) :
    ∃ s', updateAll calls s = .done () s' ∧
      s'.rows = (calls.map UpdateCall.sample).foldl Tally.record s.rows := by
  induction calls generalizing s with
  | nil => exact ⟨s, rfl, rfl⟩
  | cons c rest ih =>
      obtain ⟨served, fed⟩ := neverStarved_cons.mp fed
      obtain ⟨s₁, run, linked₁, rows₁⟩ := updateCounters_served linked served
      have known : ∀ pc ∈ c.pc :: Tally.keys s.rows, pc ∈ Tally.keys s₁.rows := by
        intro pc member
        rw [rows₁, mem_keys_record]
        exact List.mem_cons.mp member
      obtain ⟨s', onward, rows⟩ := ih linked₁ (fed.mono known)
      refine ⟨s', ?_, ?_⟩
      · rw [updateAll, run]
        exact onward
      · rw [rows, rows₁]
        rfl

/-- **Allocation failure is contained** exactly if no call has to allocate when it cannot. -/
theorem contained_iff (calls : List UpdateCall) {s : State} (linked : Linked s) :
    Contained calls s ↔ NeverStarved (Tally.keys s.rows) calls := by
  constructor
  · intro contained before c after split fails
    by_contra starved
    obtain ⟨s', returned, -⟩ := contained.aggregates
    rw [split, updateAll_append, Outcome.bind_eq_done] at returned
    obtain ⟨_, s₁, first, onward⟩ := returned
    obtain ⟨linked₁, keys⟩ := updateAll_keys linked first
    have unserved : ¬c.Served (Tally.keys s₁.rows) := by
      rintro (memory | known)
      · rw [fails] at memory
        cases memory
      · exact starved ((keys c.pc).mp known)
    rw [updateAll, updateCounters_unserved linked₁ unserved] at onward
    cases onward
  · intro fed
    obtain ⟨s', run, rows⟩ := updateAll_served linked fed
    refine ⟨fun s'' fault => ?_, fun before c after split s₁ first unserved => ?_, s', run, ?_⟩
    · rw [run] at fault
      cases fault
    · obtain ⟨fails, absent⟩ := not_or.mp unserved
      have earlier := fed before c after split (Bool.not_eq_false _ ▸ fails)
      exact absurd (((updateAll_keys linked first).2 c.pc).mpr earlier) absent
    · rw [rows, servedCalls_eq_self fed]

/-- An allocation that fails after the entry is there does no harm. -/
theorem second_call_contained :
    Contained [⟨0, .quiet, 16, fun _ => 1⟩, ⟨0, { Env.quiet with kmallocFails := true }, 16, fun _ => 2⟩]
      .initial :=
  (contained_iff _ (linked_of_empty rfl)).mpr
    (neverStarved_cons.mpr ⟨Or.inl rfl, neverStarved_cons.mpr
      ⟨Or.inr List.mem_cons_self, fun before c after split => by simp at split⟩⟩)

/-- One that fails before stores through a null pointer. -/
theorem first_call_starved :
    ¬Contained [⟨0, { Env.quiet with kmallocFails := true }, 16, fun _ => 1⟩] .initial :=
  fun contained => contained.never_null .initial rfl

end Dreamscape.Monitor
