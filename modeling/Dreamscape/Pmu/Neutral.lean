/-
# Pmu.Neutral -- what a load leaves in the control registers

Init overwrites `PMUSERENR_EL0`, can only set bits of `PMCNTENSET_EL0`, and sets
`PMCR_EL0.E`; exit clears `E` and restores nothing, and an init that fails does not even
do that.  So loading is neutral only for registers that were already as it leaves them.
-/
import Dreamscape.Pmu.AllCpus

namespace Dreamscape.Pmu

set_option autoImplicit false

open Theory Kernel

section Neutral

variable {n : Nat} (hw : Pmuv3)

/-- A load on `cpu`, a trace and, if init returned zero, an unload on `cpu`. -/
def session (banks : Fin n → Bank) (cpu : Fin n) (created : Bool) (trace : List (Fin n × HwEvent)) :
    Machine n :=
  (pmuModuleInit.exec (kernel hw cpu created) (.linked banks)).bind (fun result m =>
    let m := trace.foldl (Machine.observe hw) m
    if result = 0 then pmuModuleExit.exec (kernel hw cpu created) m else .done () m) |>.state

/-- The control registers of `cpu` are as they were before the load. -/
structure Neutral (banks : Fin n → Bank) (cpu : Fin n) (created : Bool)
    (trace : List (Fin n × HwEvent)) : Prop where
  pmcrE : ((session hw banks cpu created trace).banks cpu).enabled = (banks cpu).enabled
  pmcntenset : ((session hw banks cpu created trace).banks cpu).pmcntenset = (banks cpu).pmcntenset
  pmuserenr : ((session hw banks cpu created trace).banks cpu).pmuserenr = (banks cpu).pmuserenr

/-- The counters init enables: its own four, and those whose bits are set in the encoding
of `PMCNTENSET_EL0`. -/
def initEnables : BitVec 32 := SYS_PMCNTENSET_EL0.setWidth 32 &&& hw.mask ||| 0xf

variable {hw : Pmuv3} {cpu : Fin n} {created : Bool}

theorem session_created (banks : Fin n → Bank) (trace : List (Fin n × HwEvent)) :
    session hw banks cpu true trace =
      (trace.foldl (Machine.observe hw) ((Machine.linked banks).loaded hw cpu)).unloaded cpu := by
  rw [session, pmuModuleInit_exec, Outcome.bind_done]
  simp [pmuModuleExit_exec]

theorem session_failed (banks : Fin n → Bank) (trace : List (Fin n × HwEvent)) :
    session hw banks cpu false trace =
      trace.foldl (Machine.observe hw) ((Machine.linked banks).onBank cpu (initialised hw)) := by
  rw [session, pmuModuleInit_fails, Outcome.bind_done]
  simp [Errno.code]

/-- The control registers after a load: what init wrote, but for `E` after an exit. -/
theorem session_control (hw : Pmuv3) (created : Bool) (banks : Fin n → Bank) (trace : List (Fin n × HwEvent)) :
    ((session hw banks cpu created trace).banks cpu).enabled = !created ∧
      ((session hw banks cpu created trace).banks cpu).pmcntenset =
        (banks cpu).pmcntenset ||| initEnables hw ∧
      ((session hw banks cpu created trace).banks cpu).pmuserenr = 0 := by
  obtain ⟨pmcr, enset, -, -, userenr⟩ :=
    Bank.observeAll_control hw (initialised hw (banks cpu)) (eventsOn cpu trace)
  have gathered : (initialised hw (banks cpu)).pmcntenset = (banks cpu).pmcntenset ||| initEnables hw := by
    have four : (1 ||| 2 ||| 4 ||| 8 : BitVec 32) = 0xf := by decide
    rw [initialised_pmcntenset, initEnables, ← four]
    simp only [BitVec.or_assoc]
  cases created with
  | true =>
      rw [session_created, Machine.unloaded, onBank_banks, observeEach_banks, loaded_banks, closed]
      refine ⟨?_, enset.trans gathered, userenr⟩
      simp [Bank.enabled, ARMV8_PMCR_E]
  | false =>
      rw [session_failed, observeEach_banks, onBank_banks]
      refine ⟨?_, enset.trans gathered, userenr⟩
      have before : (Machine.linked banks).banks cpu = banks cpu := rfl
      rw [before, Bank.enabled, pmcr]
      simp [ARMV8_PMCR_E]

theorem or_eq_left_iff (kept added : BitVec 32) :
    kept ||| added = kept ↔ ∀ i < 32, added.getLsbD i = true → kept.getLsbD i = true := by
  constructor
  · intro same i _ set
    rw [← same, BitVec.getLsbD_or, set, Bool.or_true]
  · intro covered
    apply BitVec.eq_of_getLsbD_eq
    intro i inside
    rw [BitVec.getLsbD_or]
    cases set : added.getLsbD i with
    | false => exact Bool.or_false _
    | true => rw [covered i inside set, Bool.or_true]

/-- **Neutral loads**: exactly those that find `E` as they leave it (clear after an unload,
set after a failed init), the counters init enables enabled, and no access from user mode. -/
theorem neutral_iff (banks : Fin n → Bank) (trace : List (Fin n × HwEvent)) :
    Neutral hw banks cpu created trace ↔
      (banks cpu).enabled = !created ∧
        (∀ i < 32, (initEnables hw).getLsbD i = true → (banks cpu).pmcntenset.getLsbD i = true) ∧
        (banks cpu).pmuserenr = 0 := by
  obtain ⟨pmcrE, enset, userenr⟩ := session_control hw created banks trace
  rw [← or_eq_left_iff]
  constructor
  · rintro ⟨sameE, sameSet, sameUser⟩
    exact ⟨sameE.symm.trans pmcrE, enset.symm.trans sameSet, sameUser.symm.trans userenr⟩
  · rintro ⟨sameE, sameSet, sameUser⟩
    exact ⟨pmcrE.trans sameE.symm, enset.trans sameSet, userenr.trans sameUser.symm⟩

end Neutral

/-- Loaded and unloaded on an idle CPU: its counters stay enabled. -/
theorem unload_leaves_counters :
    ¬Neutral cortexA53 (fun _ : Fin 1 => .idle) 0 true [] := by
  rintro ⟨-, pmcntenset, -⟩
  rw [(session_control _ _ _ _).2.1] at pmcntenset
  exact absurd pmcntenset (by decide)

end Dreamscape.Pmu
