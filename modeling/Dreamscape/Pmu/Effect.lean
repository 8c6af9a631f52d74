/-
# Pmu.Effect -- what init and exit do to the registers

`pmuModuleInit_exec` and `pmuModuleExit_exec` give the machine after init and after
exit in closed form.  From them come the one fact about counting the module rests on:
after init and any hardware events, each of its four counters holds the number of its
events since, modulo `2 ^ 32`.
-/
import Dreamscape.Pmu.Handlers

namespace Dreamscape.Pmu

set_option autoImplicit false

open Theory Kernel

section Effect

variable {n : Nat} {hw : Pmuv3} {cpu : Fin n} {created : Bool}

@[simp] theorem onBank_banks (m : Machine n) (f : Bank → Bank) :
    (m.onBank cpu f).banks cpu = f (m.banks cpu) := by
  simp [Machine.onBank]

@[simp] theorem onBank_onBank (m : Machine n) (f g : Bank → Bank) :
    (m.onBank cpu f).onBank cpu g = m.onBank cpu fun b => g (f b) := by
  simp [Machine.onBank]

theorem onBank_congr {m : Machine n} {f g : Bank → Bank}
    (agree : f (m.banks cpu) = g (m.banks cpu)) : m.onBank cpu f = m.onBank cpu g := by
  rw [Machine.onBank, agree]
  rfl

theorem onBank_other (m : Machine n) (f : Bank → Bank) {other : Fin n} (apart : other ≠ cpu) :
    (m.onBank cpu f).banks other = m.banks other := by
  simp [Machine.onBank, apart]

/-! ## Configuring a counter -/

/-- The bank after `configure_event_counter`. -/
def configured (index code : BitVec 32) (b : Bank) : Bank :=
  { b with
    pmselr := index.setWidth 5
    pmevtyper := Function.update b.pmevtyper index.toNat code
    pmevcntr := Function.update b.pmevcntr index.toNat 0
    pmcntenset := b.pmcntenset ||| 1#32 <<< index.toNat }

theorem enable_bit {index : Nat} (implemented : index < hw.counters) :
    ((1 : U64) <<< index).setWidth 32 &&& hw.mask = 1#32 <<< index := by
  have bound := hw.bound
  ext i inside
  simp only [Pmuv3.mask, BitVec.getElem_and, BitVec.getElem_setWidth, BitVec.getElem_or,
    BitVec.getLsbD_shiftLeft, BitVec.getElem_shiftLeft, BitVec.getLsbD_allOnes, BitVec.getElem_one]
  by_cases here : i = index
  · subst here
    simp [implemented]
    omega
  · by_cases below : i < index
    · simp [below]
    · have above : i - index ≠ 0 := by omega
      simp [above]

theorem msr_select (b : Bank) (index : BitVec 32) :
    b.msr hw .PMSELR_EL0 (index.setWidth 64) = { b with pmselr := index.setWidth 5 } := by
  simp [Bank.msr]

theorem msr_typer {b : Bank} (implemented : b.pmselr.toNat < hw.counters) (v : U64) :
    b.msr hw .PMXEVTYPER_EL0 v =
      { b with pmevtyper := Function.update b.pmevtyper b.pmselr.toNat (v.setWidth 32) } :=
  if_pos implemented

theorem msr_count {b : Bank} (implemented : b.pmselr.toNat < hw.counters) (v : U64) :
    b.msr hw .PMXEVCNTR_EL0 v =
      { b with pmevcntr := Function.update b.pmevcntr b.pmselr.toNat (v.setWidth 32) } :=
  if_pos implemented

theorem selected_index {index : BitVec 32} (implemented : index.toNat < hw.counters) :
    (index.setWidth 5).toNat = index.toNat := by
  have bound := hw.bound
  rw [BitVec.toNat_setWidth]
  omega

theorem bank_configured (b : Bank) {index : BitVec 32} (implemented : index.toNat < hw.counters)
    (code : BitVec 32) :
    (((b.msr hw .PMSELR_EL0 (index.setWidth 64)).msr hw .PMXEVTYPER_EL0 (code.setWidth 64)).msr hw
      .PMXEVCNTR_EL0 0).msr hw .PMCNTENSET_EL0 ((1 : U64) <<< index.toNat) =
        configured index code b := by
  have selected : (index.setWidth 5).toNat < hw.counters := by
    rw [selected_index implemented]
    exact implemented
  rw [msr_select, msr_typer selected, msr_count selected]
  simp only [Bank.msr, enable_bit implemented, selected_index implemented, configured]
  rw [BitVec.setWidth_setWidth_of_le _ (by decide), BitVec.setWidth_eq]
  rfl

theorem configureEventCounter_exec (m : Machine n) {index : BitVec 32}
    (implemented : index.toNat < hw.counters) (code : BitVec 32) :
    (configureEventCounter index code).exec (kernel hw cpu created) m =
      .done () (m.onBank cpu (configured index code)) := by
  simp only [configureEventCounter, msr, call, Prog.call_bind, Prog.ret_bind, Prog.exec_call,
    Prog.exec_ret, kernel, Outcome.bind_done, onBank_onBank, bank_configured _ implemented]

/-! ## Init -/

/-- The bank after the three registers init sets up first. -/
def opened (hw : Pmuv3) (b : Bank) : Bank :=
  { b with
    pmuserenr := 0
    pmcntenset := b.pmcntenset ||| SYS_PMCNTENSET_EL0.setWidth 32 &&& hw.mask
    pmcr := b.pmcr ||| ARMV8_PMCR_E }

/-- The bank after init. -/
def initialised (hw : Pmuv3) (b : Bank) : Bank :=
  configured 3 ARMV8_EVENT_L1I_CACHE_REFILL (configured 2 ARMV8_EVENT_L1I_CACHE_ACCESS
    (configured 1 ARMV8_EVENT_L1D_CACHE_REFILL (configured 0 ARMV8_EVENT_L1D_CACHE_ACCESS
      (opened hw b))))

/-- The machine after an init that succeeds. -/
def Machine.loaded (m : Machine n) (hw : Pmuv3) (cpu : Fin n) : Machine n :=
  { m.onBank cpu (initialised hw) with
    procEntry := true
    log := m.log ++ ["PMU kernel module loaded\n".toList] }

/-- Setting `E` keeps the rest of `PMCR_EL0`: the bits that are not kept are read-only or
read as zero. -/
theorem pmcr_enable (pmcr : U64) :
    pmcr &&& ~~~pmcrKept ||| (pmcr &&& ~~~6 ||| ARMV8_PMCR_E) &&& pmcrKept =
      pmcr ||| ARMV8_PMCR_E := by
  have readable : ~~~(6 : U64) &&& pmcrKept = pmcrKept := by decide
  have kept : ARMV8_PMCR_E &&& pmcrKept = ARMV8_PMCR_E := by decide
  calc pmcr &&& ~~~pmcrKept ||| (pmcr &&& ~~~6 ||| ARMV8_PMCR_E) &&& pmcrKept
      = pmcr &&& ~~~pmcrKept ||| (pmcr &&& (~~~6 &&& pmcrKept) ||| ARMV8_PMCR_E &&& pmcrKept) := by
        ext i inside
        simp
        grind
    _ = pmcr &&& ~~~pmcrKept ||| (pmcr &&& pmcrKept ||| ARMV8_PMCR_E) := by rw [readable, kept]
    _ = pmcr ||| ARMV8_PMCR_E := by
        ext i inside
        simp
        grind

theorem bank_opened (b : Bank) :
    ((b.msr hw .PMUSERENR_EL0 SYS_PMUSERENR_EL0).msr hw .PMCNTENSET_EL0 SYS_PMCNTENSET_EL0).msr hw
      .PMCR_EL0 (b.mrsPmcr ||| ARMV8_PMCR_E) = opened hw b := by
  have noReset : (b.mrsPmcr ||| ARMV8_PMCR_E).getLsbD 1 = false := by
    simp [Bank.mrsPmcr, ARMV8_PMCR_E]
  have disabled : SYS_PMUSERENR_EL0.setWidth 4 = 0#4 := by decide
  simp only [Bank.msr, noReset, disabled, opened]
  rw [Bank.mrsPmcr, pmcr_enable]
  rfl

theorem pmuModuleInit_configures (m : Machine n) :
    pmuModuleInit.exec (kernel hw cpu created) m =
      (do
        if ← procCreate then
          printk "PMU kernel module loaded\n".toList
          return 0
        else return Errno.ENOMEM.code : Code Int).exec (kernel hw cpu created)
          (m.onBank cpu (initialised hw)) := by
  have four := hw.four
  have kept : ∀ (b : Bank) (v w : U64),
      ((b.msr hw .PMUSERENR_EL0 v).msr hw .PMCNTENSET_EL0 w).mrsPmcr = b.mrsPmcr :=
    fun _ _ _ => rfl
  have first : m.onBank cpu (opened hw) = m.onBank cpu fun b =>
      ((b.msr hw .PMUSERENR_EL0 SYS_PMUSERENR_EL0).msr hw .PMCNTENSET_EL0 SYS_PMCNTENSET_EL0).msr hw
        .PMCR_EL0 ((m.banks cpu).mrsPmcr ||| ARMV8_PMCR_E) :=
    onBank_congr (bank_opened (m.banks cpu)).symm
  rw [pmuModuleInit]
  simp only [msr, mrsPmcr, call, Prog.call_bind, Prog.ret_bind, Prog.exec_call, Prog.exec_bind,
    kernel, Outcome.bind_done, onBank_onBank, onBank_banks, kept]
  rw [← first, configureEventCounter_exec _ (Nat.lt_of_lt_of_le (by decide) four),
    Outcome.bind_done, configureEventCounter_exec _ (Nat.lt_of_lt_of_le (by decide) four),
    Outcome.bind_done, configureEventCounter_exec _ (Nat.lt_of_lt_of_le (by decide) four),
    Outcome.bind_done, configureEventCounter_exec _ (Nat.lt_of_lt_of_le (by decide) four),
    Outcome.bind_done]
  simp only [onBank_onBank]
  rfl

theorem pmuModuleInit_exec (m : Machine n) :
    pmuModuleInit.exec (kernel hw cpu true) m = .done 0 (m.loaded hw cpu) := by
  rw [pmuModuleInit_configures]
  simp [kernel, Machine.loaded, Machine.onBank]

/-- An init that cannot create its proc entry has programmed the counters all the same. -/
theorem pmuModuleInit_fails (m : Machine n) :
    pmuModuleInit.exec (kernel hw cpu false) m =
      .done Errno.ENOMEM.code (m.onBank cpu (initialised hw)) := by
  rw [pmuModuleInit_configures]
  simp [kernel, Machine.onBank]

/-! ## Exit -/

/-- The counter init gives to a field. -/
def Field.counter : Field → Nat
  | .l1DataCacheAccess => 0
  | .l1DataCacheRefill => 1
  | .l1InstCacheAccess => 2
  | .l1InstCacheRefill => 3

/-- The event a field is about. -/
def Field.event : Field → BitVec 10
  | .l1DataCacheAccess => ARMV8_EVENT_L1D_CACHE_ACCESS.setWidth 10
  | .l1DataCacheRefill => ARMV8_EVENT_L1D_CACHE_REFILL.setWidth 10
  | .l1InstCacheAccess => ARMV8_EVENT_L1I_CACHE_ACCESS.setWidth 10
  | .l1InstCacheRefill => ARMV8_EVENT_L1I_CACHE_REFILL.setWidth 10

/-- What the four counters of a bank hold. -/
def readings (b : Bank) : PmuCounters := fun field => (b.pmevcntr field.counter).setWidth 64

/-- The bank after exit. -/
def closed (b : Bank) : Bank := { b with pmselr := 3, pmcr := b.pmcr &&& ~~~ARMV8_PMCR_E }

/-- The lines exit logs. -/
def report (c : PmuCounters) : List (List Char) :=
  [valueLine "PMU counter value (L1 data cache access): ".toList (c .l1DataCacheAccess),
    valueLine "PMU counter value (L1 data cache refill): ".toList (c .l1DataCacheRefill),
    valueLine "PMU counter value (L1 instruction cache access): ".toList (c .l1InstCacheAccess),
    valueLine "PMU counter value (L1 instruction cache refill): ".toList (c .l1InstCacheRefill)]

/-- The machine after exit. -/
def Machine.unloaded (m : Machine n) (cpu : Fin n) : Machine n :=
  { m.onBank cpu closed with
    pmuCounters := readings (m.banks cpu)
    procEntry := false
    log := m.log ++ report (readings (m.banks cpu)) ++ ["PMU kernel module unloaded\n".toList] }

theorem Field.counter_lt (field : Field) : field.counter < hw.counters := by
  have four := hw.four
  cases field <;> simp only [Field.counter] <;> omega

/-- Clearing `E` through a `u32` keeps the rest of `PMCR_EL0`. -/
theorem pmcr_disable (pmcr : U64) :
    pmcr &&& ~~~pmcrKept |||
        (((pmcr &&& ~~~6).setWidth 32 &&& ~~~(ARMV8_PMCR_E.setWidth 32) : BitVec 32).setWidth 64 : U64)
          &&& pmcrKept =
      pmcr &&& ~~~ARMV8_PMCR_E := by
  have written : ((((~~~6 : U64).setWidth 32 &&& ~~~(ARMV8_PMCR_E.setWidth 32) : BitVec 32)).setWidth 64
      : U64) &&& pmcrKept = pmcrKept &&& ~~~ARMV8_PMCR_E := by decide
  have rest : ~~~pmcrKept ||| pmcrKept &&& ~~~ARMV8_PMCR_E = ~~~ARMV8_PMCR_E := by decide
  have through : ∀ (a k : U64) (c : BitVec 32), (((pmcr &&& a).setWidth 32 &&& c).setWidth 64) &&& k =
      pmcr &&& (((a.setWidth 32 &&& c).setWidth 64) &&& k) := by
    intro a k c
    ext i inside
    simp
    grind
  rw [through, written, ← rest]
  ext i inside
  simp
  grind

theorem bank_closed (b : Bank) (sel : BitVec 5) :
    { b with pmselr := sel }.msr hw .PMCR_EL0
      (((b.mrsPmcr.setWidth 32 &&& ~~~(ARMV8_PMCR_E.setWidth 32) : BitVec 32)).setWidth 64) =
        { b with pmselr := sel, pmcr := b.pmcr &&& ~~~ARMV8_PMCR_E } := by
  have noReset : ((b.mrsPmcr.setWidth 32 &&& ~~~(ARMV8_PMCR_E.setWidth 32) : BitVec 32).setWidth 64
      : U64).getLsbD 1 = false := by
    simp [Bank.mrsPmcr]
  simp only [Bank.msr, noReset]
  rw [Bank.mrsPmcr, pmcr_disable]
  rfl

/-- A read of a counter, as exit does it: it selects the counter and leaves the counts alone. -/
theorem exec_select_read {α : Type} (m : Machine n) {v : U64} (implemented : v.toNat < hw.counters)
    (k : U64 → Code α) :
    (msr .PMSELR_EL0 v >>= fun _ => mrsPmxevcntr >>= k).exec (kernel hw cpu created) m =
      (k (((m.banks cpu).pmevcntr v.toNat).setWidth 64)).exec (kernel hw cpu created)
        (m.onBank cpu fun b => { b with pmselr := v.setWidth 5 }) := by
  have bound := hw.bound
  have selected : (v.setWidth 5).toNat = v.toNat := by
    rw [BitVec.toNat_setWidth]
    omega
  simp only [msr, mrsPmxevcntr, call, Prog.call_bind, Prog.ret_bind, Prog.exec_call, kernel,
    Outcome.bind_done, onBank_banks, Bank.msr, Bank.mrsPmxevcntr, selected, implemented, if_true]

/-- What exit stores is what it read. -/
theorem stored_readings (c : PmuCounters) (b : Bank) :
    Function.update (Function.update (Function.update (Function.update c
      .l1DataCacheAccess ((b.pmevcntr 0).setWidth 64)) .l1DataCacheRefill
        ((b.pmevcntr 1).setWidth 64)) .l1InstCacheAccess ((b.pmevcntr 2).setWidth 64))
          .l1InstCacheRefill ((b.pmevcntr 3).setWidth 64) = readings b := by
  funext field
  cases field <;> rfl

theorem pmuModuleExit_exec (m : Machine n) :
    pmuModuleExit.exec (kernel hw cpu created) m = .done () (m.unloaded cpu) := by
  have four : ∀ v : U64, v.toNat < 4 → v.toNat < hw.counters :=
    fun v small => Nat.lt_of_lt_of_le small hw.four
  rw [pmuModuleExit, exec_select_read _ (four 0 (by decide)), exec_select_read _ (four 1 (by decide)),
    exec_select_read _ (four 2 (by decide)), exec_select_read _ (four 3 (by decide))]
  obtain ⟨banks, counters, entry, log⟩ := m
  have three : (3 : U64).setWidth 5 = 3#5 := by decide
  have kept : ∀ sel : BitVec 5, { banks cpu with pmselr := sel }.mrsPmcr = (banks cpu).mrsPmcr :=
    fun _ => rfl
  simp only [printk, mrsPmcr, msr, setPmuCounter, removeProcEntry, call, Prog.call_bind,
    Prog.ret_bind, Prog.exec_call, Prog.exec_ret, kernel, Outcome.bind_done, Machine.onBank,
    Function.update_self, Function.update_idem, three, kept, bank_closed]
  have stored := stored_readings counters (banks cpu)
  have logged : ∀ a b c d e : List Char,
      log ++ [a] ++ [b] ++ [c] ++ [d] ++ [e] = log ++ [a, b, c, d] ++ [e] := by
    intro a b c d e
    simp
  rw [logged]
  exact congrArg (fun c => Outcome.done () (Machine.mk _ c _ _)) stored

/-! ## Counting -/

@[simp] theorem initialised_pmuserenr (b : Bank) : (initialised hw b).pmuserenr = 0 := rfl

@[simp] theorem initialised_pmcr (b : Bank) : (initialised hw b).pmcr = b.pmcr ||| ARMV8_PMCR_E := rfl

theorem initialised_pmcntenset (b : Bank) :
    (initialised hw b).pmcntenset =
      b.pmcntenset ||| SYS_PMCNTENSET_EL0.setWidth 32 &&& hw.mask ||| 1 ||| 2 ||| 4 ||| 8 := rfl

theorem initialised_counter (b : Bank) (field : Field) :
    (initialised hw b).pmevcntr field.counter = 0 := by
  cases field <;> simp [initialised, configured, Field.counter]

theorem initialised_enabled (b : Bank) : (initialised hw b).enabled = true := by
  simp [Bank.enabled, ARMV8_PMCR_E]

theorem initialised_pmevtyper (b : Bank) (field : Field) :
    (initialised hw b).pmevtyper field.counter = field.event.setWidth 32 := by
  cases field <;> simp [initialised, configured, Field.counter] <;> decide

theorem initialised_selected (b : Bank) (field : Field) :
    (initialised hw b).pmcntenset.getLsbD field.counter = true := by
  rw [initialised_pmcntenset]
  cases field <;> simp [Field.counter]

/-- An event type that is only a code selects the event in either mode. -/
theorem selects_code (code : BitVec 10) (ev : HwEvent) :
    selects (code.setWidth 32) ev = (ev.code == code) := by
  have same : (code.setWidth 32).setWidth 10 = code := by simp
  have unfiltered : (code.setWidth 32).getLsbD (if ev.user then 30 else 31) = false := by
    cases ev.user <;> simp
  rw [selects, same, unfiltered, Bool.beq_comm]
  simp

/-- After init the counter of a field counts the event of the field. -/
theorem initialised_counts (b : Bank) (field : Field) (ev : HwEvent) :
    (initialised hw b).counts ev field.counter = (ev.code == field.event) := by
  rw [Bank.counts, initialised_enabled, initialised_selected, initialised_pmevtyper, selects_code]
  rfl

/-- **The four counters**: after init and any hardware events, the counter of a field
holds the number of its events since, modulo `2 ^ 32`. -/
theorem initialised_count (b : Bank) (evs : List HwEvent) (field : Field) :
    ((initialised hw b).observeAll hw evs).pmevcntr field.counter =
      BitVec.ofNat 32 (evs.countP fun ev => ev.code == field.event) := by
  rw [Bank.observeAll_count hw _ evs field.counter_lt, initialised_counter]
  simp [initialised_counts]

end Effect

end Dreamscape.Pmu
