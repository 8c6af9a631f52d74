/-
# Pmu.AllCpus -- the module on a machine with several CPUs

Init programs the bank of the one CPU it runs on and exit reads and stops the bank of
the one CPU it runs on.  So exit reports what happened on its own CPU, provided init ran
there, and the totals of the machine only where the rest cancels out modulo `2 ^ 32`.
-/
import Dreamscape.Pmu.Live

namespace Dreamscape.Pmu

set_option autoImplicit false

open Theory Kernel

section AllCpus

variable {n : Nat} (hw : Pmuv3)

/-- A hardware event on one of the CPUs. -/
def Machine.observe (m : Machine n) (occurred : Fin n × HwEvent) : Machine n :=
  m.onBank occurred.1 fun b => b.observe hw occurred.2

/-- The machine after an init on `loader`, a trace, and an exit on `unloader`. -/
def roundTrip (banks : Fin n → Bank) (loader unloader : Fin n) (trace : List (Fin n × HwEvent)) :
    Machine n :=
  let loaded := (pmuModuleInit.exec (kernel hw loader true) (.linked banks)).state
  (pmuModuleExit.exec (kernel hw unloader true) (trace.foldl (Machine.observe hw) loaded)).state

def eventsOn (cpu : Fin n) (trace : List (Fin n × HwEvent)) : List HwEvent :=
  (trace.filter fun occurred => occurred.1 = cpu).map Prod.snd

def eventsOff (cpu : Fin n) (trace : List (Fin n × HwEvent)) : List HwEvent :=
  (trace.filter fun occurred => ¬occurred.1 = cpu).map Prod.snd

/-- Exit reports the events of all CPUs, in `pmu_counters` and in the log, and leaves no
CPU with the counters init enabled there. -/
structure CountsEverywhere (banks : Fin n → Bank) (loader unloader : Fin n)
    (trace : List (Fin n × HwEvent)) : Prop where
  stored : (roundTrip hw banks loader unloader trace).pmuCounters =
    occurrences (trace.map Prod.snd)
  logged : (roundTrip hw banks loader unloader trace).log =
    ["PMU kernel module loaded\n".toList] ++ report (occurrences (trace.map Prod.snd)) ++
      ["PMU kernel module unloaded\n".toList]
  stopped : ((roundTrip hw banks loader unloader trace).banks loader).enabled = false

variable {hw : Pmuv3}

theorem observeEach_banks (m : Machine n) (trace : List (Fin n × HwEvent)) (cpu : Fin n) :
    (trace.foldl (Machine.observe hw) m).banks cpu =
      (m.banks cpu).observeAll hw (eventsOn cpu trace) := by
  induction trace generalizing m with
  | nil => rfl
  | cons first trace ih =>
      rw [List.foldl_cons, ih]
      by_cases here : first.1 = cpu
      · subst here
        simp [eventsOn, Machine.observe, Bank.observeAll]
      · have other : cpu ≠ first.1 := fun same => here same.symm
        simp [eventsOn, Machine.observe, here, onBank_other _ _ other]

theorem observeEach_log (m : Machine n) (trace : List (Fin n × HwEvent)) :
    (trace.foldl (Machine.observe hw) m).log = m.log := by
  induction trace generalizing m with
  | nil => rfl
  | cons first trace ih => exact ih _

theorem roundTrip_eq (banks : Fin n → Bank) (loader unloader : Fin n)
    (trace : List (Fin n × HwEvent)) :
    roundTrip hw banks loader unloader trace =
      (trace.foldl (Machine.observe hw) ((Machine.linked banks).loaded hw loader)).unloaded unloader := by
  rw [roundTrip, pmuModuleInit_exec, pmuModuleExit_exec]
  rfl

/-- The bank exit finds on a CPU where init ran. -/
theorem loaded_banks (banks : Fin n → Bank) (loader : Fin n) :
    ((Machine.linked banks).loaded hw loader).banks loader = initialised hw (banks loader) :=
  onBank_banks (Machine.linked banks) (initialised hw)

theorem readings_initialised (b : Bank) (evs : List HwEvent) :
    readings ((initialised hw b).observeAll hw evs) = occurrences evs := by
  funext field
  rw [readings, initialised_count, occurrences]
  apply BitVec.eq_of_toNat_eq
  simp

/-- On the CPU init ran on, exit reads the events of this CPU. -/
theorem roundTrip_readings (banks : Fin n → Bank) (cpu : Fin n) (trace : List (Fin n × HwEvent)) :
    (roundTrip hw banks cpu cpu trace).pmuCounters = occurrences (eventsOn cpu trace) := by
  rw [roundTrip_eq, Machine.unloaded, observeEach_banks, loaded_banks, readings_initialised]

theorem roundTrip_log (banks : Fin n → Bank) (cpu : Fin n) (trace : List (Fin n × HwEvent)) :
    (roundTrip hw banks cpu cpu trace).log =
      ["PMU kernel module loaded\n".toList] ++ report (occurrences (eventsOn cpu trace)) ++
        ["PMU kernel module unloaded\n".toList] := by
  rw [roundTrip_eq, Machine.unloaded, observeEach_banks, loaded_banks, readings_initialised,
    observeEach_log]
  rfl

/-- Exit clears `E` on its own CPU only. -/
theorem roundTrip_enabled (banks : Fin n → Bank) (loader unloader : Fin n)
    (trace : List (Fin n × HwEvent)) :
    ((roundTrip hw banks loader unloader trace).banks loader).enabled = decide (loader ≠ unloader) := by
  have control := (Bank.observeAll_control hw (initialised hw (banks loader)) (eventsOn loader trace)).1
  rw [roundTrip_eq]
  by_cases same : loader = unloader
  · subst same
    simp [Machine.unloaded, closed, Bank.enabled, ARMV8_PMCR_E]
  · have kept : ((trace.foldl (Machine.observe hw) ((Machine.linked banks).loaded hw loader)).unloaded
        unloader).banks loader = (initialised hw (banks loader)).observeAll hw (eventsOn loader trace) := by
      rw [Machine.unloaded, onBank_other _ _ same, observeEach_banks, loaded_banks]
    rw [kept, Bank.enabled, control]
    simp [same, ARMV8_PMCR_E]

theorem countP_split (cpu : Fin n) (trace : List (Fin n × HwEvent)) (p : HwEvent → Bool) :
    (trace.map Prod.snd).countP p = (eventsOn cpu trace).countP p + (eventsOff cpu trace).countP p := by
  induction trace with
  | nil => rfl
  | cons first trace ih =>
      simp only [eventsOn, eventsOff] at ih ⊢
      by_cases here : first.1 = cpu <;> by_cases holds : p first.2 <;>
        simp [here, holds, ih] <;> omega

theorem occurrences_eq_iff (cpu : Fin n) (trace : List (Fin n × HwEvent)) :
    occurrences (eventsOn cpu trace) = occurrences (trace.map Prod.snd) ↔
      ∀ field : Field, 2 ^ 32 ∣ (eventsOff cpu trace).countP fun ev => ev.code == field.event := by
  constructor
  · intro same field
    have number := congrArg BitVec.toNat (congrFun same field)
    simp only [occurrences, BitVec.toNat_ofNat, countP_split cpu trace] at number
    apply Nat.dvd_of_mod_eq_zero
    omega
  · intro divides
    funext field
    obtain ⟨k, multiple⟩ := divides field
    rw [occurrences, occurrences, countP_split cpu trace, multiple, Nat.add_mul_mod_self_left]

/-- **All CPUs**: exit reports and stops everything exactly if it runs where init ran and
the events of the other CPUs are, for each of the four kinds, a multiple of `2 ^ 32`. -/
theorem countsEverywhere_iff (banks : Fin n → Bank) (loader unloader : Fin n)
    (trace : List (Fin n × HwEvent)) :
    CountsEverywhere hw banks loader unloader trace ↔
      unloader = loader ∧
        ∀ field : Field, 2 ^ 32 ∣ (eventsOff loader trace).countP fun ev => ev.code == field.event := by
  constructor
  · rintro ⟨stored, -, stopped⟩
    rw [roundTrip_enabled] at stopped
    have same : loader = unloader := by simpa using stopped
    subst same
    rw [roundTrip_readings] at stored
    exact ⟨rfl, (occurrences_eq_iff loader trace).mp stored⟩
  · rintro ⟨rfl, divides⟩
    have total := (occurrences_eq_iff unloader trace).mpr divides
    constructor
    · rw [roundTrip_readings, total]
    · rw [roundTrip_log, total]
    · rw [roundTrip_enabled]
      simp

end AllCpus

/-- Loaded and unloaded on CPU 0, one access to the data cache on CPU 1. -/
theorem other_cpu_not_counted :
    ¬CountsEverywhere cortexA53 (fun _ : Fin 2 => .idle) 0 0 [(1, ⟨0x04, true⟩)] := by
  rintro ⟨stored, -, -⟩
  rw [roundTrip_readings] at stored
  exact absurd (congrFun stored .l1DataCacheAccess) (by decide)

end Dreamscape.Pmu
