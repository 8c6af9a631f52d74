/-
# Pmu.Live -- what /proc/pmu_counters shows while the module is loaded

`pmu_proc_show` prints `pmu_counters`, and only exit stores anything there.  So
between init and exit every read shows four zeros, whatever the hardware counted, and
is right only where the counts happen to be zero modulo `2 ^ 32`.
-/
import Dreamscape.Pmu.Effect

namespace Dreamscape.Pmu

set_option autoImplicit false

open Theory Kernel

/-! ## The text of a read -/

/-- What `pmu_proc_show` prints. -/
def countersText (c : PmuCounters) : List Char :=
  valueLine "L1 data cache access: ".toList (c .l1DataCacheAccess) ++
    (valueLine "L1 data cache refill: ".toList (c .l1DataCacheRefill) ++
      (valueLine "L1 instruction cache access: ".toList (c .l1InstCacheAccess) ++
        valueLine "L1 instruction cache refill: ".toList (c .l1InstCacheRefill)))

theorem formatU64_injective {v w : U64} (same : formatU64 v = formatU64 w) : v = w := by
  have numbers := congrArg (fun digits => Nat.ofDigitChars 10 digits 0) same
  simp only [formatU64, Nat.ofDigitChars_ten_toDigits] at numbers
  exact BitVec.eq_of_toNat_eq numbers

/-- A line gives its value back, and what follows it. -/
theorem valueLine_injective {label rest rest' : List Char} {v w : U64}
    (same : valueLine label v ++ rest = valueLine label w ++ rest') : v = w ∧ rest = rest' := by
  simp only [valueLine, List.append_assoc, List.append_cancel_left_eq] at same
  have ends : ∀ text : List Char, EndsNumeral (['\n'] ++ text) := fun _ => rfl
  have digits : formatU64 v = formatU64 w := by
    have runs := congrArg digitRun same
    simpa only [formatU64, digitRun_toDigits _ (ends _)] using runs
  rw [digits] at same
  refine ⟨formatU64_injective digits, ?_⟩
  simpa using same

theorem countersText_injective {c d : PmuCounters} (same : countersText c = countersText d) :
    c = d := by
  obtain ⟨first, same⟩ := valueLine_injective same
  obtain ⟨second, same⟩ := valueLine_injective same
  obtain ⟨third, same⟩ := valueLine_injective same
  obtain ⟨fourth, -⟩ := valueLine_injective (congrArg (· ++ []) same)
  funext field
  cases field
  · exact first
  · exact second
  · exact third
  · exact fourth

/-! ## Runs -/

/-- What happens on the CPU while the module is loaded. -/
inductive Activity where
  | hardware (ev : HwEvent)
  | read
  deriving DecidableEq

def Activity.event : Activity → Option HwEvent
  | .hardware ev => some ev
  | .read => none

/-- The hardware events of a trace. -/
def hardware (trace : List Activity) : List HwEvent := trace.filterMap Activity.event

section Live

variable {n : Nat} (hw : Pmuv3) (cpu : Fin n)

/-- A read of /proc/pmu_counters. -/
def Machine.read (m : Machine n) : Outcome Empty (Machine n) (List Char) :=
  (pmuProcShow []).exec (kernel hw cpu true) m

def Machine.step (m : Machine n) : Activity → Machine n
  | .hardware ev => m.onBank cpu fun b => b.observe hw ev
  | .read => (m.read hw cpu).state

/-- The machine after a successful init and a trace. -/
def liveAfter (banks : Fin n → Bank) (trace : List Activity) : Machine n :=
  trace.foldl (Machine.step hw cpu) (pmuModuleInit.exec (kernel hw cpu true) (.linked banks)).state

/-- How often each field's event occurred, modulo `2 ^ 32`. -/
def occurrences (evs : List HwEvent) : PmuCounters := fun field =>
  BitVec.ofNat 64 (evs.countP (fun ev => ev.code == field.event) % 2 ^ 32)

/-- Every read shows the occurrences since init. -/
def LiveCounters (banks : Fin n → Bank) (trace : List Activity) : Prop :=
  ∀ before after, trace = before ++ .read :: after →
    ∃ m, (liveAfter hw cpu banks before).read hw cpu =
      .done (countersText (occurrences (hardware before))) m

variable {hw : Pmuv3} {cpu : Fin n}

theorem read_exec (m : Machine n) : m.read hw cpu = .done (countersText m.pmuCounters) m := by
  simp [Machine.read, pmuProcShow, kernel, countersText]

theorem step_pmuCounters (m : Machine n) (a : Activity) :
    (m.step hw cpu a).pmuCounters = m.pmuCounters := by
  cases a with
  | hardware ev => rfl
  | read => rw [Machine.step, read_exec, Outcome.state_done]

/-- Nothing refreshes `pmu_counters` while the module is loaded. -/
theorem liveAfter_pmuCounters (banks : Fin n → Bank) (trace : List Activity) :
    (liveAfter hw cpu banks trace).pmuCounters = fun _ => 0 := by
  induction trace using List.reverseRecOn with
  | nil =>
      rw [liveAfter, pmuModuleInit_exec]
      rfl
  | append_singleton trace a ih =>
      have last : liveAfter hw cpu banks (trace ++ [a]) = (liveAfter hw cpu banks trace).step hw cpu a := by
        rw [liveAfter, List.foldl_append]
        rfl
      rw [last, step_pmuCounters, ih]

theorem read_live (banks : Fin n → Bank) (trace : List Activity) :
    (liveAfter hw cpu banks trace).read hw cpu =
      .done (countersText fun _ => 0) (liveAfter hw cpu banks trace) := by
  rw [read_exec, liveAfter_pmuCounters]

theorem occurrences_eq_zero {evs : List HwEvent} :
    (occurrences evs = fun _ => 0) ↔
      ∀ field : Field, 2 ^ 32 ∣ evs.countP fun ev => ev.code == field.event := by
  constructor
  · intro zero field
    have number := congrArg BitVec.toNat (congrFun zero field)
    have none : (0 : U64).toNat = 0 := rfl
    simp only [occurrences, BitVec.toNat_ofNat, none] at number
    apply Nat.dvd_of_mod_eq_zero
    omega
  · intro divides
    funext field
    rw [occurrences, Nat.mod_eq_zero_of_dvd (divides field)]
    rfl

/-- **Live counters**: the reads are right exactly if at each of them the occurrences of
each of the four events are a multiple of `2 ^ 32`. -/
theorem liveCounters_iff (banks : Fin n → Bank) (trace : List Activity) :
    LiveCounters hw cpu banks trace ↔
      ∀ before after, trace = before ++ .read :: after → ∀ field : Field,
        2 ^ 32 ∣ (hardware before).countP fun ev => ev.code == field.event := by
  constructor
  · intro live before after split
    obtain ⟨m, shown⟩ := live before after split
    rw [read_live] at shown
    have zero := countersText_injective (Outcome.done.inj shown).1
    exact occurrences_eq_zero.mp zero.symm
  · intro divides before after split
    refine ⟨liveAfter hw cpu banks before, ?_⟩
    rw [read_live, occurrences_eq_zero.mpr (divides before after split)]

end Live

/-- One access to the data cache, and a read that shows none. -/
theorem read_shows_no_access :
    ¬LiveCounters cortexA53 (0 : Fin 1) (fun _ => .idle) [.hardware ⟨0x04, true⟩, .read] := by
  intro live
  obtain ⟨m, shown⟩ := live [.hardware ⟨0x04, true⟩] [] rfl
  rw [read_live] at shown
  have zero := congrFun (countersText_injective (Outcome.done.inj shown).1) .l1DataCacheAccess
  exact absurd zero (by decide)

end Dreamscape.Pmu
