/-
# Pmu.Wiring -- counters configured one by one

`configure_event_counter` and the reads of exit reach every counter through `PMSELR_EL0`, so
each of them depends on the selection, and makes its own first.  Counters that are configured
in any order, and read in any order after a trace, therefore stay apart
(`configureAll_wires`): each holds the number of its own events.

The event code goes into the type register as it is.  Its low ten bits are the number of the
event; a code with other bits set is no event number (`filter_bit_not_wired`).
-/
import Dreamscape.Theory.Writes
import Dreamscape.Pmu.AllCpus

namespace Dreamscape.Pmu

set_option autoImplicit false

open Theory Kernel

/-! ## Several counters -/

/-- Calls of `configure_event_counter`, one after the other. -/
def configureAll : List (BitVec 32 × BitVec 32) → Code Unit
  | [] => return ()
  | (counterIndex, eventCode) :: rest => do
      configureEventCounter counterIndex eventCode
      configureAll rest

/-- The two instructions with which exit reads a counter. -/
def readCounter (counterIndex : BitVec 32) : Code U64 := do
  msr .PMSELR_EL0 (counterIndex.setWidth 64)
  mrsPmxevcntr

def readCounters : List (BitVec 32) → Code (List U64)
  | [] => return []
  | counterIndex :: rest => do
      let value ← readCounter counterIndex
      let values ← readCounters rest
      return value :: values

/-- Implemented counters, each once, and the event codes for them. -/
structure Wiring (hw : Pmuv3) where
  pairs : List (BitVec 32 × BitVec 32)
  implemented : ∀ p ∈ pairs, p.1.toNat < hw.counters
  distinct : (pairs.map Prod.fst).Nodup

/-- The counters of a list of pairs. -/
def countersOf (pairs : List (BitVec 32 × BitVec 32)) : List Nat := pairs.map fun p => p.1.toNat

/-- The counters init configures. -/
def moduleWiring (hw : Pmuv3) : Wiring hw where
  pairs :=
    [(0, ARMV8_EVENT_L1D_CACHE_ACCESS), (1, ARMV8_EVENT_L1D_CACHE_REFILL),
      (2, ARMV8_EVENT_L1I_CACHE_ACCESS), (3, ARMV8_EVENT_L1I_CACHE_REFILL)]
  implemented p member := by
    have small : p.1.toNat < 4 := by
      simp only [List.mem_cons, List.not_mem_nil, or_false] at member
      obtain rfl | rfl | rfl | rfl := member <;> decide
    exact Nat.lt_of_lt_of_le small hw.four
  distinct := by decide

/-- Init configures its counters one after the other. -/
theorem pmuModuleInit_wires (hw : Pmuv3) :
    pmuModuleInit = (do
      msr .PMUSERENR_EL0 SYS_PMUSERENR_EL0
      msr .PMCNTENSET_EL0 SYS_PMCNTENSET_EL0
      let val ← mrsPmcr
      msr .PMCR_EL0 (val ||| ARMV8_PMCR_E)
      configureAll (moduleWiring hw).pairs
      if ← procCreate then
        printk "PMU kernel module loaded\n".toList
        return 0
      else return Errno.ENOMEM.code) := rfl

/-- What exit does with the counts. -/
def exitWith (daccess drefill iaccess irefill : U64) : Code Unit := do
  printk (valueLine "PMU counter value (L1 data cache access): ".toList daccess)
  printk (valueLine "PMU counter value (L1 data cache refill): ".toList drefill)
  printk (valueLine "PMU counter value (L1 instruction cache access): ".toList iaccess)
  printk (valueLine "PMU counter value (L1 instruction cache refill): ".toList irefill)
  let pmcrVal : BitVec 32 := (← mrsPmcr).setWidth 32
  msr .PMCR_EL0 ((pmcrVal &&& ~~~(ARMV8_PMCR_E.setWidth 32)).setWidth 64)
  setPmuCounter .l1DataCacheAccess daccess
  setPmuCounter .l1DataCacheRefill drefill
  setPmuCounter .l1InstCacheAccess iaccess
  setPmuCounter .l1InstCacheRefill irefill
  removeProcEntry
  printk "PMU kernel module unloaded\n".toList

/-- Exit reads the counters init has configured, first. -/
theorem pmuModuleExit_reads (hw : Pmuv3) :
    pmuModuleExit = readCounters ((moduleWiring hw).pairs.map Prod.fst) >>= fun values =>
      exitWith (values.getD 0 0) (values.getD 1 0) (values.getD 2 0) (values.getD 3 0) := rfl

/-! ## What a wiring promises -/

section Wiring

variable {n : Nat} {hw : Pmuv3}

/-- The machine after its counters have been configured on `cpu`, and a trace. -/
def wiredAfter (cpu : Fin n) (created : Bool) (m : Machine n) (w : Wiring hw)
    (trace : List (Fin n × HwEvent)) : Machine n :=
  trace.foldl (Machine.observe hw) ((configureAll w.pairs).exec (kernel hw cpu created) m).state

/-- The machine with another counter selected on `cpu`. -/
def Machine.select (m : Machine n) (cpu : Fin n) (selected : BitVec 5) : Machine n :=
  m.onBank cpu fun b => { b with pmselr := selected }

/-- How many events of the trace happened on `cpu` and have this code, modulo `2 ^ 32`. -/
def eventCount (cpu : Fin n) (trace : List (Fin n × HwEvent)) (eventCode : BitVec 32) : U64 :=
  BitVec.ofNat 64 (((eventsOn cpu trace).countP fun ev => ev.code.setWidth 32 == eventCode) % 2 ^ 32)

/-- Reads of configured counters, in any order, return for each whose event code is `covered` how
many of its events the trace has.  The other counters keep their type and enable bit, and
another order of configuring leaves another counter selected, at most. -/
structure Wired (cpu : Fin n) (created : Bool) (m : Machine n) (w : Wiring hw)
    (trace : List (Fin n × HwEvent)) (covered : BitVec 32 → Prop) : Prop where
  reads : ∀ asked : List (BitVec 32 × BitVec 32), (∀ p ∈ asked, p ∈ w.pairs) → ∃ value selected,
    (readCounters (asked.map Prod.fst)).exec (kernel hw cpu created) (wiredAfter cpu created m w trace) =
        .done (asked.map value) ((wiredAfter cpu created m w trace).select cpu selected) ∧
      ∀ p ∈ asked, covered p.2 → value p = eventCount cpu trace p.2
  others : ∀ i, i ∉ countersOf w.pairs →
    ((wiredAfter cpu created m w trace).banks cpu).pmevtyper i = (m.banks cpu).pmevtyper i ∧
      ((wiredAfter cpu created m w trace).banks cpu).pmcntenset.getLsbD i =
        (m.banks cpu).pmcntenset.getLsbD i
  order : ∀ w' : Wiring hw, w.pairs.Perm w'.pairs → ∃ selected,
    wiredAfter cpu created m w' trace = (wiredAfter cpu created m w trace).select cpu selected

/-- The event code is the number of an event. -/
def EventNumber (eventCode : BitVec 32) : Prop := eventCode.toNat < 2 ^ 10

/-! ## Configuring -/

/-- The bank after `configure_event_counter` for each pair. -/
def configuredAll (pairs : List (BitVec 32 × BitVec 32)) (b : Bank) : Bank :=
  pairs.foldl (fun b p => configured p.1 p.2 b) b

theorem configureAll_exec {cpu : Fin n} {created : Bool} {pairs : List (BitVec 32 × BitVec 32)}
    (implemented : ∀ p ∈ pairs, p.1.toNat < hw.counters) (m : Machine n) :
    (configureAll pairs).exec (kernel hw cpu created) m =
      .done () (m.onBank cpu (configuredAll pairs)) := by
  induction pairs generalizing m with
  | nil =>
      have same : m.onBank cpu (configuredAll []) = m := by
        simp [Machine.onBank, configuredAll]
      rw [same]
      rfl
  | cons p pairs ih =>
      obtain ⟨first, rest⟩ := List.forall_mem_cons.mp implemented
      rw [configureAll, Prog.exec_bind, configureEventCounter_exec m first, Outcome.bind_done,
        ih rest, onBank_onBank]
      rfl

/-- Configuring leaves alone what is not about event counters. -/
theorem configuredAll_apart (pairs : List (BitVec 32 × BitVec 32)) (b : Bank) :
    (configuredAll pairs b).pmcr = b.pmcr ∧ (configuredAll pairs b).pmuserenr = b.pmuserenr := by
  induction pairs generalizing b with
  | nil => exact ⟨rfl, rfl⟩
  | cons p pairs ih => exact ih (configured p.1 p.2 b)

theorem configuredAll_pmevtyper (pairs : List (BitVec 32 × BitVec 32)) (b : Bank) :
    (configuredAll pairs b).pmevtyper =
      writeAll b.pmevtyper (pairs.map fun p => (p.1.toNat, p.2)) := by
  induction pairs generalizing b with
  | nil => rfl
  | cons p pairs ih => exact ih (configured p.1 p.2 b)

theorem configuredAll_pmevcntr (pairs : List (BitVec 32 × BitVec 32)) (b : Bank) :
    (configuredAll pairs b).pmevcntr = writeAll b.pmevcntr (pairs.map fun p => (p.1.toNat, 0)) := by
  induction pairs generalizing b with
  | nil => rfl
  | cons p pairs ih => exact ih (configured p.1 p.2 b)

theorem enabled_bit (index : Nat) {i : Nat} (inside : i < 32) :
    (1#32 <<< index).getLsbD i = decide (i = index) := by
  simp only [BitVec.getLsbD_shiftLeft, BitVec.getLsbD_one, inside, decide_true, Bool.true_and]
  by_cases here : i = index
  · simp [here]
  · by_cases below : i < index
    · simp [here, below]
    · have above : i - index ≠ 0 := by omega
      simp [here, above]

/-- The enabled counters are those that were and the configured ones. -/
theorem configuredAll_enabled (pairs : List (BitVec 32 × BitVec 32)) (b : Bank) {i : Nat}
    (inside : i < 32) :
    (configuredAll pairs b).pmcntenset.getLsbD i =
      (b.pmcntenset.getLsbD i || decide (i ∈ countersOf pairs)) := by
  induction pairs generalizing b with
  | nil => simp [configuredAll, countersOf]
  | cons p pairs ih =>
      have split : decide (i ∈ countersOf (p :: pairs)) =
          (decide (i = p.1.toNat) || decide (i ∈ countersOf pairs)) := by
        simp [countersOf]
      have step := ih (configured p.1 p.2 b)
      rw [configured, BitVec.getLsbD_or, enabled_bit _ inside, Bool.or_assoc, ← split] at step
      exact step

theorem countersOf_nodup (w : Wiring hw) : (countersOf w.pairs).Nodup := by
  have mapped : countersOf w.pairs = (w.pairs.map Prod.fst).map BitVec.toNat := by
    rw [List.map_map]
    rfl
  rw [mapped]
  exact w.distinct.map fun _ _ => BitVec.eq_of_toNat_eq

/-- Whatever is written for each pair, no counter is written twice. -/
theorem Wiring.writes_distinct (w : Wiring hw) (value : BitVec 32 × BitVec 32 → BitVec 32) :
    ((w.pairs.map fun p => (p.1.toNat, value p)).map Prod.fst).Nodup := by
  rw [List.map_map]
  exact countersOf_nodup w

/-- A configured counter has its event code, counts from zero and is enabled. -/
theorem configuredAll_counter (w : Wiring hw) (b : Bank) {p : BitVec 32 × BitVec 32}
    (member : p ∈ w.pairs) :
    (configuredAll w.pairs b).pmevtyper p.1.toNat = p.2 ∧
      (configuredAll w.pairs b).pmevcntr p.1.toNat = 0 ∧
      (configuredAll w.pairs b).pmcntenset.getLsbD p.1.toNat = true := by
  have inside : p.1.toNat < 32 :=
    Nat.lt_of_lt_of_le (w.implemented p member) (Nat.le_succ_of_le hw.bound)
  refine ⟨?_, ?_, ?_⟩
  · rw [configuredAll_pmevtyper]
    exact writeAll_written (w.writes_distinct Prod.snd) (List.mem_map_of_mem member) b.pmevtyper
  · rw [configuredAll_pmevcntr]
    exact writeAll_written (w.writes_distinct fun _ => 0) (List.mem_map_of_mem member) b.pmevcntr
  · have here : p.1.toNat ∈ countersOf w.pairs := List.mem_map_of_mem member
    rw [configuredAll_enabled _ _ inside, decide_eq_true here, Bool.or_true]

/-- The others are as they were. -/
theorem configuredAll_other (pairs : List (BitVec 32 × BitVec 32)) (b : Bank) {i : Nat}
    (other : i ∉ countersOf pairs) :
    (configuredAll pairs b).pmevtyper i = b.pmevtyper i ∧
      (configuredAll pairs b).pmcntenset.getLsbD i = b.pmcntenset.getLsbD i := by
  constructor
  · rw [configuredAll_pmevtyper]
    refine writeAll_other ?_ b.pmevtyper
    rw [List.map_map]
    exact other
  · by_cases inside : i < 32
    · rw [configuredAll_enabled _ _ inside, decide_eq_false other, Bool.or_false]
    · rw [BitVec.getLsbD_of_ge _ _ (Nat.not_lt.mp inside), BitVec.getLsbD_of_ge _ _ (Nat.not_lt.mp inside)]

/-- Configuring in another order leaves another counter selected, at most. -/
theorem configuredAll_order {w w' : Wiring hw} (reordered : w.pairs.Perm w'.pairs) (b : Bank) :
    configuredAll w'.pairs b =
      { configuredAll w.pairs b with pmselr := (configuredAll w'.pairs b).pmselr } := by
  have typer : (configuredAll w'.pairs b).pmevtyper = (configuredAll w.pairs b).pmevtyper := by
    rw [configuredAll_pmevtyper, configuredAll_pmevtyper]
    exact (writeAll_perm (w.writes_distinct Prod.snd) (reordered.map _) b.pmevtyper).symm
  have count : (configuredAll w'.pairs b).pmevcntr = (configuredAll w.pairs b).pmevcntr := by
    rw [configuredAll_pmevcntr, configuredAll_pmevcntr]
    exact (writeAll_perm (w.writes_distinct fun _ => 0) (reordered.map _) b.pmevcntr).symm
  have enset : (configuredAll w'.pairs b).pmcntenset = (configuredAll w.pairs b).pmcntenset := by
    refine BitVec.eq_of_getLsbD_eq fun i inside => ?_
    have same : i ∈ countersOf w'.pairs ↔ i ∈ countersOf w.pairs := (reordered.map _).mem_iff.symm
    rw [configuredAll_enabled _ _ inside, configuredAll_enabled _ _ inside, decide_eq_decide.mpr same]
  obtain ⟨pmcr, userenr⟩ := configuredAll_apart w.pairs b
  obtain ⟨pmcr', userenr'⟩ := configuredAll_apart w'.pairs b
  have same : ∀ c c' : Bank, c'.pmcr = c.pmcr → c'.pmcntenset = c.pmcntenset →
      c'.pmevtyper = c.pmevtyper → c'.pmevcntr = c.pmevcntr → c'.pmuserenr = c.pmuserenr →
      c' = { c with pmselr := c'.pmselr } := by
    rintro ⟨⟩ ⟨⟩ rfl rfl rfl rfl rfl
    rfl
  exact same _ _ (pmcr'.trans pmcr.symm) enset typer count (userenr'.trans userenr.symm)

/-! ## Reading -/

variable {cpu : Fin n} {created : Bool}

@[simp] theorem select_select (m : Machine n) (first second : BitVec 5) :
    (m.select cpu first).select cpu second = m.select cpu second :=
  onBank_onBank ..

/-- Reads return the counts, whatever has been selected before. -/
theorem readCounters_exec {indices : List (BitVec 32)} (implemented : ∀ i ∈ indices, i.toNat < hw.counters)
    (m : Machine n) :
    ∃ selected, (readCounters indices).exec (kernel hw cpu created) m =
      .done (indices.map fun i => ((m.banks cpu).pmevcntr i.toNat).setWidth 64)
        (m.select cpu selected) := by
  induction indices generalizing m with
  | nil =>
      have same : m.select cpu (m.banks cpu).pmselr = m := by
        simp [Machine.select, Machine.onBank]
      exact ⟨(m.banks cpu).pmselr, by rw [same]; rfl⟩
  | cons i indices ih =>
      obtain ⟨first, rest⟩ := List.forall_mem_cons.mp implemented
      have wide : (i.setWidth 64).toNat = i.toNat := BitVec.toNat_setWidth_of_le (by decide)
      obtain ⟨selected, onward⟩ := ih rest (m.select cpu ((i.setWidth 64).setWidth 5))
      refine ⟨selected, ?_⟩
      have begins : readCounters (i :: indices) = msr .PMSELR_EL0 (i.setWidth 64) >>= fun _ =>
          mrsPmxevcntr >>= fun value => readCounters indices >>= fun values => return value :: values := rfl
      have kept : ((m.select cpu ((i.setWidth 64).setWidth 5)).banks cpu).pmevcntr =
          (m.banks cpu).pmevcntr := by
        rw [Machine.select, onBank_banks]
      rw [begins, exec_select_read m (wide ▸ first), wide, Prog.exec_bind, ← Machine.select, onward,
        Outcome.bind_done, select_select, kept]
      rfl

/-! ## The trace -/

theorem observe_select (m : Machine n) (selected : BitVec 5) (occurred : Fin n × HwEvent) :
    (m.select cpu selected).observe hw occurred = (m.observe hw occurred).select cpu selected := by
  by_cases here : occurred.1 = cpu
  · rw [Machine.observe, here, Machine.select, onBank_onBank, Machine.observe, here, Machine.select,
      onBank_onBank]
    rfl
  · simp only [Machine.observe, Machine.select, Machine.onBank, Function.update_of_ne here,
      Function.update_of_ne (Ne.symm here)]
    rw [Function.update_comm here]

/-- Hardware events do not look at the selection. -/
theorem observeEach_select (m : Machine n) (selected : BitVec 5) (trace : List (Fin n × HwEvent)) :
    trace.foldl (Machine.observe hw) (m.select cpu selected) =
      (trace.foldl (Machine.observe hw) m).select cpu selected := by
  induction trace generalizing m with
  | nil => rfl
  | cons first trace ih => rw [List.foldl_cons, List.foldl_cons, observe_select, ih]

theorem wiredAfter_eq (m : Machine n) (w : Wiring hw) (trace : List (Fin n × HwEvent)) :
    wiredAfter cpu created m w trace =
      trace.foldl (Machine.observe hw) (m.onBank cpu (configuredAll w.pairs)) := by
  rw [wiredAfter, configureAll_exec w.implemented, Outcome.state_done]

/-- The bank after the trace. -/
theorem wiredAfter_bank (m : Machine n) (w : Wiring hw) (trace : List (Fin n × HwEvent)) :
    (wiredAfter cpu created m w trace).banks cpu =
      (configuredAll w.pairs (m.banks cpu)).observeAll hw (eventsOn cpu trace) := by
  rw [wiredAfter_eq, observeEach_banks, onBank_banks]

/-- An event number selects its events. -/
theorem selects_number {eventCode : BitVec 32} (number : EventNumber eventCode) (ev : HwEvent) :
    selects eventCode ev = (ev.code.setWidth 32 == eventCode) := by
  have narrow : (eventCode.setWidth 10).setWidth 32 = eventCode := by
    apply BitVec.eq_of_toNat_eq
    have small : eventCode.toNat < 2 ^ 10 := number
    simp only [BitVec.toNat_setWidth]
    omega
  have embeds : ∀ c d : BitVec 10, c.setWidth 32 = d.setWidth 32 ↔ c = d := by
    intro c d
    refine ⟨fun same => ?_, fun same => same ▸ rfl⟩
    have back := congrArg (BitVec.setWidth 10) same
    simpa using back
  rw [← narrow, selects_code, Bool.eq_iff_iff, beq_iff_eq, beq_iff_eq, embeds]

/-- **A configured counter counts its events**, once `PMCR_EL0.E` is set. -/
theorem wiredAfter_count {m : Machine n} (enabled : (m.banks cpu).enabled = true) (w : Wiring hw)
    (trace : List (Fin n × HwEvent)) {p : BitVec 32 × BitVec 32} (member : p ∈ w.pairs)
    (number : EventNumber p.2) :
    (((wiredAfter cpu created m w trace).banks cpu).pmevcntr p.1.toNat).setWidth 64 =
      eventCount cpu trace p.2 := by
  obtain ⟨typer, zero, enset⟩ := configuredAll_counter w (m.banks cpu) member
  have on : (configuredAll w.pairs (m.banks cpu)).enabled = true := by
    rw [Bank.enabled, (configuredAll_apart w.pairs (m.banks cpu)).1]
    exact enabled
  have counts : ∀ ev, (configuredAll w.pairs (m.banks cpu)).counts ev p.1.toNat =
      (ev.code.setWidth 32 == p.2) := fun ev => by
    rw [Bank.counts, on, enset, typer, selects_number number]
    rfl
  have fromZero : ∀ c : BitVec 32, 0 + c = c := fun _ => BitVec.zero_add ..
  rw [wiredAfter_bank, Bank.observeAll_count hw _ _ (w.implemented p member), zero, fromZero]
  apply BitVec.eq_of_toNat_eq
  simp only [counts, eventCount, BitVec.toNat_setWidth, BitVec.toNat_ofNat]

/-- **Counter wiring**: with `PMCR_EL0.E` set, every wiring is wired, as far as its event codes are
event numbers. -/
theorem configureAll_wires (cpu : Fin n) (created : Bool) {m : Machine n}
    (enabled : (m.banks cpu).enabled = true) (w : Wiring hw) (trace : List (Fin n × HwEvent)) :
    Wired cpu created m w trace EventNumber := by
  have control := Bank.observeAll_control hw (configuredAll w.pairs (m.banks cpu)) (eventsOn cpu trace)
  obtain ⟨-, enset, -, typer, -⟩ := control
  refine ⟨fun asked configured => ?_, fun i other => ?_, fun w' reordered => ?_⟩
  · have implemented : ∀ i ∈ asked.map Prod.fst, i.toNat < hw.counters := by
      intro i member
      obtain ⟨p, here, rfl⟩ := List.mem_map.mp member
      exact w.implemented p (configured p here)
    obtain ⟨selected, run⟩ := readCounters_exec implemented
      (wiredAfter cpu created m w trace)
    refine ⟨fun p => (((wiredAfter cpu created m w trace).banks cpu).pmevcntr p.1.toNat).setWidth 64,
      selected, ?_, fun p here number => wiredAfter_count enabled w trace (configured p here) number⟩
    rw [run, List.map_map]
    rfl
  · obtain ⟨sameType, sameBit⟩ := configuredAll_other w.pairs (m.banks cpu) other
    rw [wiredAfter_bank, typer, enset]
    exact ⟨sameType, sameBit⟩
  · refine ⟨(configuredAll w'.pairs (m.banks cpu)).pmselr, ?_⟩
    have same : m.onBank cpu (configuredAll w'.pairs) = (m.onBank cpu (configuredAll w.pairs)).select cpu
        (configuredAll w'.pairs (m.banks cpu)).pmselr := by
      rw [Machine.select, onBank_onBank]
      exact onBank_congr (configuredAll_order reordered (m.banks cpu))
    rw [wiredAfter_eq, wiredAfter_eq, same, observeEach_select]

end Wiring

/-- A machine of one CPU on which only `PMCR_EL0.E` is set. -/
def enabledMachine : Machine 1 := .linked fun _ => { Bank.idle with pmcr := ARMV8_PMCR_E }

/-- The wiring of the module, and an access to each cache. -/
theorem module_counters_wired :
    Wired 0 true enabledMachine (moduleWiring cortexA53) [(0, ⟨0x04, true⟩), (0, ⟨0x14, false⟩)]
      EventNumber :=
  configureAll_wires 0 true (by decide) (moduleWiring cortexA53) _

/-- The code of an access with the bit that leaves out kernel mode. -/
def filteredWiring : Wiring cortexA53 :=
  ⟨[(0, 0x80000004)], List.forall_mem_singleton.mpr (by decide), List.nodup_singleton _⟩

/-- An access in user mode and one in kernel mode. -/
def twoAccesses {n : Nat} (cpu : Fin n) : List (Fin n × HwEvent) :=
  [(cpu, ⟨0x04, true⟩), (cpu, ⟨0x04, false⟩)]

/-- Of the two accesses one is counted, and none has that code. -/
theorem filter_bit_not_wired :
    (enabledMachine.banks 0).enabled = true ∧
      eventCount 0 (twoAccesses (0 : Fin 1)) 0x80000004 = 0 ∧
      eventCount 0 (twoAccesses (0 : Fin 1)) 0x04 = 2 ∧
      (∃ m, (readCounters [0]).exec (kernel cortexA53 0 true)
        (wiredAfter 0 true enabledMachine filteredWiring (twoAccesses 0)) = .done [1] m) ∧
      ¬Wired 0 true enabledMachine filteredWiring (twoAccesses 0) fun _ => True := by
  have none : eventCount 0 (twoAccesses (0 : Fin 1)) 0x80000004 = 0 := by decide
  have implemented : ∀ i ∈ [(0 : BitVec 32)], i.toNat < cortexA53.counters :=
    List.forall_mem_singleton.mpr (by decide)
  obtain ⟨selected, run⟩ := @readCounters_exec 1 cortexA53 0 true _ implemented
    (wiredAfter 0 true enabledMachine filteredWiring (twoAccesses 0))
  have read : (readCounters [0]).exec (kernel cortexA53 0 true)
      (wiredAfter 0 true enabledMachine filteredWiring (twoAccesses 0)) = .done [1] _ := run
  refine ⟨by decide, none, by decide, ⟨_, read⟩, fun wired => ?_⟩
  obtain ⟨value, selected', run', counted⟩ := wired.reads filteredWiring.pairs fun _ member => member
  have zero : value (0, 0x80000004) = 0 := (counted (0, 0x80000004) List.mem_cons_self trivial).trans none
  have one : value (0, 0x80000004) = 1 :=
    (List.cons.inj (Outcome.done.inj (run'.symm.trans read)).1).1
  rw [zero] at one
  exact absurd one (by decide)

end Dreamscape.Pmu
