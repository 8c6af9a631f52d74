/-
# Pmu.Frame -- what init touches besides its own counters

Init owns the event counters 0 to 3.  It leaves the types and counts of the others and all
of `PMCR_EL0` but `E` alone.  It writes the encoding of `PMCNTENSET_EL0` to that register,
which enables the counters of its bits, and the encoding of `PMUSERENR_EL0` to that one,
whose `EN` bit is clear in it: users never get access (`init_never_touches_only_its_own`).
-/
import Dreamscape.Pmu.Neutral

namespace Dreamscape.Pmu

set_option autoImplicit false

open Theory Kernel

/-- The bank of `cpu` after init has run there. -/
def afterInit {n : Nat} (hw : Pmuv3) (banks : Fin n → Bank) (cpu : Fin n) (created : Bool) : Bank :=
  (pmuModuleInit.exec (kernel hw cpu created) (.linked banks)).state.banks cpu

/-- The enabled counters are those that were and the four of the module. -/
def EnablesOnlyItsOwn (before after : Bank) : Prop :=
  ∀ i < 32, after.pmcntenset.getLsbD i = (before.pmcntenset.getLsbD i || decide (i < 4))

/-- The other counters keep their types and counts. -/
def KeepsOtherCounters (before after : Bank) : Prop :=
  ∀ i, 4 ≤ i → after.pmevtyper i = before.pmevtyper i ∧ after.pmevcntr i = before.pmevcntr i

/-- `PMCR_EL0` changes in `E` only. -/
def KeepsPmcr (before after : Bank) : Prop :=
  ∀ i, i ≠ 0 → after.pmcr.getLsbD i = before.pmcr.getLsbD i

/-- Init touches its own counters, `PMCR_EL0.E` and the user enable bit only. -/
structure TouchesOnlyItsOwn (before after : Bank) : Prop where
  enables : EnablesOnlyItsOwn before after
  others : KeepsOtherCounters before after
  pmcr : KeepsPmcr before after
  userEnable : after.pmuserenr.getLsbD 0 = true

/-- The counters beyond its own that init enables: the implemented ones among the bits of
the encoding of `PMCNTENSET_EL0`. -/
def strayCounter (hw : Pmuv3) (i : Nat) : Bool :=
  decide (4 ≤ i) && (SYS_PMCNTENSET_EL0.setWidth 32 &&& hw.mask).getLsbD i

section Frame

variable {n : Nat} {hw : Pmuv3} {cpu : Fin n} {created : Bool}

theorem afterInit_eq (banks : Fin n → Bank) :
    afterInit hw banks cpu created = initialised hw (banks cpu) := by
  cases created with
  | true => rw [afterInit, pmuModuleInit_exec, Outcome.state_done, Machine.loaded, onBank_banks]; rfl
  | false => rw [afterInit, pmuModuleInit_fails, Outcome.state_done, onBank_banks]; rfl

theorem initialised_others (b : Bank) : KeepsOtherCounters b (initialised hw b) := by
  intro i other
  have apart : i ≠ 0 ∧ i ≠ 1 ∧ i ≠ 2 ∧ i ≠ 3 := by omega
  obtain ⟨zero, one, two, three⟩ := apart
  constructor <;> simp [initialised, configured, opened, zero, one, two, three]

theorem initialised_keeps_pmcr (b : Bank) : KeepsPmcr b (initialised hw b) := by
  intro i other
  have clear : ARMV8_PMCR_E.getLsbD i = false := by
    simp [ARMV8_PMCR_E, other]
  rw [initialised_pmcr, BitVec.getLsbD_or, clear, Bool.or_false]

/-- The counters init enables are its own and the stray ones. -/
theorem initialised_enabled_iff (b : Bank) {i : Nat} (inside : i < 32) :
    (initialised hw b).pmcntenset.getLsbD i =
      (b.pmcntenset.getLsbD i || strayCounter hw i || decide (i < 4)) := by
  have own : ∀ i : Fin 32, (1 ||| 2 ||| 4 ||| 8 : BitVec 32).getLsbD i = decide (i.val < 4) := by
    decide
  have gathered : (initialised hw b).pmcntenset =
      b.pmcntenset ||| SYS_PMCNTENSET_EL0.setWidth 32 &&& hw.mask ||| (1 ||| 2 ||| 4 ||| 8) := by
    rw [initialised_pmcntenset]
    simp only [BitVec.or_assoc]
  rw [gathered, BitVec.getLsbD_or, BitVec.getLsbD_or, own ⟨i, inside⟩, strayCounter]
  by_cases mine : i < 4
  · simp [mine]
  · simp [mine, Nat.not_lt.mp mine]

theorem initialised_enables_iff (b : Bank) :
    EnablesOnlyItsOwn b (initialised hw b) ↔
      ∀ i < 32, strayCounter hw i = true → b.pmcntenset.getLsbD i = true := by
  constructor
  · intro enables i inside stray
    have foreign : decide (i < 4) = false := by
      rw [strayCounter, Bool.and_eq_true, decide_eq_true_eq] at stray
      exact decide_eq_false (Nat.not_lt.mpr stray.1)
    have bit := enables i inside
    rw [initialised_enabled_iff b inside, stray, foreign, Bool.or_true, Bool.or_false,
      Bool.or_false] at bit
    exact bit.symm
  · intro covered i inside
    rw [initialised_enabled_iff b inside]
    cases stray : strayCounter hw i with
    | false => rw [Bool.or_false]
    | true => rw [covered i inside stray, Bool.true_or]

theorem initialised_users_denied (b : Bank) : ¬(initialised hw b).pmuserenr.getLsbD 0 = true := by
  rw [initialised_pmuserenr]
  decide

end Frame

/-- **Init oversteps on every machine**: users never get access.  The other counters and the
rest of `PMCR_EL0` are left alone, and no counter of others is enabled exactly if the stray
ones were enabled before. -/
theorem init_never_touches_only_its_own {n : Nat} (hw : Pmuv3) (banks : Fin n → Bank) (cpu : Fin n)
    (created : Bool) :
    ¬TouchesOnlyItsOwn (banks cpu) (afterInit hw banks cpu created) ∧
      KeepsOtherCounters (banks cpu) (afterInit hw banks cpu created) ∧
      KeepsPmcr (banks cpu) (afterInit hw banks cpu created) ∧
      (EnablesOnlyItsOwn (banks cpu) (afterInit hw banks cpu created) ↔
        ∀ i < 32, strayCounter hw i = true → (banks cpu).pmcntenset.getLsbD i = true) := by
  rw [afterInit_eq]
  exact ⟨fun touches => initialised_users_denied _ touches.userEnable, initialised_others _,
    initialised_keeps_pmcr _, initialised_enables_iff _⟩

/-- On an idle Cortex-A53 init also enables counter 5. -/
theorem init_enables_stray_counter :
    ¬TouchesOnlyItsOwn Bank.idle (afterInit cortexA53 (fun _ : Fin 1 => .idle) 0 true) := by
  intro touches
  have enables := touches.enables
  rw [afterInit_eq, initialised_enables_iff] at enables
  exact absurd (enables 5 (by decide) (by decide)) (by decide)

end Dreamscape.Pmu
