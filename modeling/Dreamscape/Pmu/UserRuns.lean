/-
# Pmu.UserRuns -- what user programs can do to the monitors, and when they are killed

In every run of loads, interrupts, migrating processes and hardware events
(`access_governed`):

* a CPU that was asked to run `enable_ccr`, has no call queued and its interrupts on is open to
  user mode, and stays so, whatever the processes do;
* a process is only killed on a CPU that granted no access at first and on which `enable_ccr`
  has not written `PMUSERENR` yet -- which may well be after init has returned;
* event types, the selector and the enable bits of the event counters stay as they were, and
  each event counter gains exactly the events it counts while the last write to `PMCR` had `E`
  set; that it has not can only be the doing of a process.
-/
import Dreamscape.Pmu.UserAccess

namespace Dreamscape.Pmu.UserAccess

set_option autoImplicit false

open Theory Kernel

section Spec

variable {n : Nat}

/-! ## What is seen on one CPU -/

/-- The register of this CPU has been written. -/
def written (reg : SysReg) (cpu : Fin n) (seen : List (Seen n)) : Bool :=
  seen.any fun
    | .wrote c _ r _ => c == cpu && r == reg
    | _ => false

/-- The last value that was written to `PMCR` of this CPU, and the mode it was written in. -/
def lastPmcr (cpu : Fin n) : List (Seen n) → Option (Mode × BitVec 32)
  | [] => none
  | .wrote c mode .PMCR_EL0 v :: older => if c = cpu then some (mode, v) else lastPmcr cpu older
  | _ :: older => lastPmcr cpu older

/-- The counters of this CPU are on: `E` as it was last written. -/
def counting (b : Bank) (cpu : Fin n) (seen : List (Seen n)) : Bool :=
  match lastPmcr cpu seen with
  | some (_, v) => v.getLsbD 0
  | none => b.enabled

/-- How often counter `i` of this CPU has counted. -/
def gained (b : Bank) (cpu : Fin n) (i : Nat) : List (Seen n) → Nat
  | [] => 0
  | .hardware c ev :: older =>
      gained b cpu i older +
        if c = cpu ∧ counting b cpu older ∧ b.pmcntenset.getLsbD i ∧ selects (b.pmevtyper i) ev then 1
        else 0
  | _ :: older => gained b cpu i older

/-- What has become of the bank `b₀` of this CPU. -/
structure Governed (hw : Pmuv3) (cpu : Fin n) (b₀ b : Bank) (seen : List (Seen n)) : Prop where
  pmuserenr : b.pmuserenr = if written .PMUSERENR_EL0 cpu seen then 1 else b₀.pmuserenr
  pmcntenset : b.pmcntenset =
    if written .PMCNTENSET_EL0 cpu seen then b₀.pmcntenset ||| 0x80000000 else b₀.pmcntenset
  enabled : b.enabled = counting b₀ cpu seen
  pmselr : b.pmselr = b₀.pmselr
  pmevtyper : b.pmevtyper = b₀.pmevtyper
  counts : ∀ i < hw.counters, b.pmevcntr i = b₀.pmevcntr i + BitVec.ofNat 32 (gained b₀ cpu i seen)

/-- User programs can reach the monitors, and the cycle counter is enabled. -/
def Opened (b : Bank) : Prop := b.pmuserenr = 1 ∧ b.pmcntenset.getLsbD 31 = true

/-- What may be written: 1 to `PMUSERENR`, bit 31 to `PMCNTENSET`, and to `PMCR` what does not
reset the event counters. -/
def Sane (reg : SysReg) (v : BitVec 32) : Prop :=
  match reg with
  | .PMUSERENR_EL0 => v = 1
  | .PMCNTENSET_EL0 => v = 0x80000000
  | .PMCR_EL0 => v.getLsbD 1 = false
  | .PMSELR_EL0 | .PMXEVTYPER_EL0 | .PMXEVCNTR_EL0 => False

variable {hw : Pmuv3} {cpu : Fin n} {b₀ b : Bank} {seen : List (Seen n)}

theorem Governed.refl : Governed hw cpu b b [] :=
  ⟨rfl, rfl, rfl, rfl, rfl, fun i _ => by simp [gained]⟩

/-- What is neither a write nor an event of this CPU. -/
def Seen.elsewhere (cpu : Fin n) : Seen n → Prop
  | .wrote c .. => c ≠ cpu
  | .hardware c _ => c ≠ cpu
  | .asked _ | .trapped .. => True

theorem Governed.elsewhere (governed : Governed hw cpu b₀ b seen) {what : Seen n}
    (apart : what.elsewhere cpu) : Governed hw cpu b₀ b (what :: seen) := by
  cases what with
  | asked c => exact ⟨governed.1, governed.2, governed.3, governed.4, governed.5, governed.6⟩
  | trapped c t => exact ⟨governed.1, governed.2, governed.3, governed.4, governed.5, governed.6⟩
  | wrote c mode reg v =>
      have other : (c == cpu) = false := beq_false_of_ne apart
      have same : ∀ r, written r cpu (.wrote c mode reg v :: seen) = written r cpu seen := by
        intro r
        simp [written, other]
      have last : lastPmcr cpu (.wrote c mode reg v :: seen) = lastPmcr cpu seen := by
        cases reg <;> first | rfl | exact if_neg apart
      refine ⟨?_, ?_, ?_, governed.pmselr, governed.pmevtyper, fun i inside => governed.counts i inside⟩
      · rw [same, governed.pmuserenr]
      · rw [same, governed.pmcntenset]
      · rw [counting, last, governed.enabled, counting]
  | hardware c ev =>
      refine ⟨governed.1, governed.2, governed.3, governed.4, governed.5, fun i inside => ?_⟩
      rw [gained, if_neg fun seen => apart seen.1, Nat.add_zero, governed.counts i inside]

/-- The mask of the counters has bit 31. -/
theorem mask_cycles (hw : Pmuv3) : (0x80000000 : BitVec 32) &&& hw.mask = 0x80000000 := by
  ext i inside
  simp only [Pmuv3.mask, BitVec.getElem_and, BitVec.getElem_or]
  have bit : (0x80000000 : BitVec 32) = 1#32 <<< 31 := rfl
  rw [bit]
  cases (1#32 <<< 31)[i] <;> simp

theorem Governed.write (governed : Governed hw cpu b₀ b seen) {mode : Mode} {reg : SysReg}
    {v : BitVec 32} (sane : Sane reg v) :
    Governed hw cpu b₀ (b.msr hw reg (v.setWidth 64)) (.wrote cpu mode reg v :: seen) := by
  have here : ∀ r, written r cpu (.wrote cpu mode reg v :: seen) = (reg == r || written r cpu seen) := by
    intro r
    simp [written]
  cases reg with
  | PMUSERENR_EL0 =>
      cases sane
      refine ⟨?_, ?_, governed.enabled, governed.pmselr, governed.pmevtyper, governed.counts⟩
      · rw [here]
        rfl
      · rw [here]
        exact governed.pmcntenset
  | PMCNTENSET_EL0 =>
      cases sane
      refine ⟨?_, ?_, governed.enabled, governed.pmselr, governed.pmevtyper, governed.counts⟩
      · rw [here]
        exact governed.pmuserenr
      · rw [here]
        show b.pmcntenset ||| (0x80000000 : BitVec 32) &&& hw.mask = b₀.pmcntenset ||| 0x80000000
        rw [mask_cycles, governed.pmcntenset]
        split
        · rw [BitVec.or_assoc, BitVec.or_self]
        · rfl
  | PMCR_EL0 =>
      have reset : (v.setWidth 64).getLsbD 1 = false := by
        rw [BitVec.getLsbD_setWidth, sane]
        rfl
      refine ⟨?_, ?_, ?_, governed.pmselr, governed.pmevtyper, fun i inside => ?_⟩
      · rw [here]
        exact governed.pmuserenr
      · rw [here]
        exact governed.pmcntenset
      · rw [counting, lastPmcr, if_pos rfl]
        simp [Bank.enabled, Bank.msr, pmcrKept]
      · show (if (v.setWidth 64).getLsbD 1 then fun _ => 0 else b.pmevcntr) i = _
        rw [reset, if_neg Bool.false_ne_true]
        exact governed.counts i inside
  | PMSELR_EL0 | PMXEVTYPER_EL0 | PMXEVCNTR_EL0 => cases sane

/-- The enable bit of an event counter is not that of the cycle counter. -/
theorem Governed.enable (governed : Governed hw cpu b₀ b seen) {i : Nat} (inside : i < hw.counters) :
    b.pmcntenset.getLsbD i = b₀.pmcntenset.getLsbD i := by
  have bound := hw.bound
  have other : (0x80000000 : BitVec 32).getLsbD i = false := by
    have bit : (0x80000000 : BitVec 32) = 1#32 <<< 31 := rfl
    rw [bit, BitVec.getLsbD_shiftLeft]
    simp
    omega
  rw [governed.pmcntenset]
  split
  · rw [BitVec.getLsbD_or, other, Bool.or_false]
  · rfl

theorem Governed.observe (governed : Governed hw cpu b₀ b seen) (ev : HwEvent) :
    Governed hw cpu b₀ (b.observe hw ev) (.hardware cpu ev :: seen) := by
  refine ⟨governed.1, governed.2, governed.3, governed.4, governed.5, fun i inside => ?_⟩
  have counts : b.counts ev i = true ↔
      (cpu = cpu ∧ counting b₀ cpu seen ∧ b₀.pmcntenset.getLsbD i ∧ selects (b₀.pmevtyper i) ev) := by
    rw [Bank.counts, governed.enabled, governed.enable inside, governed.pmevtyper]
    simp [and_assoc]
  rw [Bank.observe_count hw b ev inside, governed.counts i inside, gained, BitVec.ofNat_add,
    BitVec.add_assoc]
  by_cases counted : b.counts ev i = true
  · rw [if_pos counted, if_pos (counts.mp counted)]
    rfl
  · rw [if_neg counted, if_neg fun all => counted (counts.mpr all)]
    rfl

end Spec

/-! ## What the board keeps -/

section Board

variable {n : Nat}

/-- Whoever was trapped had no access: the CPU granted none at first, and had not been opened. -/
def Fair (banks₀ : Fin n → Bank) : List (Seen n) → Prop
  | [] => True
  | .trapped cpu _ :: older =>
      ((banks₀ cpu).pmuserenr.getLsbD 0 = false ∧ written .PMUSERENR_EL0 cpu older = false) ∧
        Fair banks₀ older
  | _ :: older => Fair banks₀ older

structure Kept (hw : Pmuv3) (banks₀ : Fin n → Bank) (b : Board n) : Prop where
  registers : ∀ cpu, Governed hw cpu (banks₀ cpu) (b.banks cpu) b.seen
  asked : ∀ cpu, .asked cpu ∈ b.seen →
    0 < b.queued cpu ∨ b.masked cpu ≠ none ∨ Opened (b.banks cpu)
  killed : ∀ t, b.killed t = true ↔ ∃ cpu, .trapped cpu t ∈ b.seen
  fair : Fair banks₀ b.seen
  byKernel : ∀ cpu mode v, .wrote cpu mode .PMCR_EL0 v ∈ b.seen → mode ≠ .user → v = 1

/-- Where a thread is: with interrupts on, or with those of a CPU off, after so many of the
three writes of `enable_ccr`. -/
inductive Stage (n : Nat) where
  | outside
  | inside (cpu : Fin n) (writes : Nat)

/-- Which accesses a thread makes at which stage. -/
def mayWrite (mode : Mode) (reg : SysReg) (v : BitVec 32) (r : Stage n) : Prop :=
  match mode, reg with
  | .kernel, .PMUSERENR_EL0 => v = 1 ∧ ∃ cpu, r = .inside cpu 0
  | .kernel, .PMCR_EL0 => v = 1 ∧ ∃ cpu, r = .inside cpu 1
  | .kernel, .PMCNTENSET_EL0 => v = 0x80000000 ∧ ∃ cpu, r = .inside cpu 2
  | .user, .PMCR_EL0 => v.getLsbD 1 = false ∧ r = .outside
  | _, _ => False

/-- The calls of the threads, from stage to stage. -/
def access : Protocol (sig n) (Stage n) where
  allowed o r :=
    match o with
    | .mcr mode reg v => mayWrite mode reg v r
    | .mrcPmcr mode => mode = .user ∧ r = .outside
    | .smpCallFunction | .localIrqSave | .takeCall | .printk _ => r = .outside
    | .localIrqRestore | .endCall => ∃ cpu, r = .inside cpu 3
  possible o a _ :=
    match o, a with
    | .mrcPmcr _, v => BitVec.getLsbD (w := 32) v 1 = false
    | _, _ => True
  next o a r :=
    match o, a, r with
    | .localIrqSave, cpu, _ | .takeCall, cpu, _ => .inside cpu 0
    | .mcr .kernel _ _, _, .inside cpu k => .inside cpu (k + 1)
    | .localIrqRestore, _, _ | .endCall, _, _ => .outside
    | _, _, r => r

/-- The stage of thread `t`, on the board. -/
def At (b : Board n) (t : Nat) : Stage n → Prop
  | .outside => ∀ cpu, b.masked cpu ≠ some t
  | .inside cpu k => b.masked cpu = some t ∧ (∀ c, b.masked c = some t → c = cpu) ∧
      (1 ≤ k → (b.banks cpu).pmuserenr = 1) ∧ (3 ≤ k → (b.banks cpu).pmcntenset.getLsbD 31 = true)

/-! ### The programs -/

theorem enableCcr_follows {Q : Stage n → Unit → Prop} {cpu : Fin n} (ends : Q (.inside cpu 3) ()) :
    enableCcr.Follows access Q (.inside cpu 0) :=
  ⟨⟨rfl, cpu, rfl⟩, fun _ _ => ⟨⟨rfl, cpu, rfl⟩, fun _ _ => ⟨⟨rfl, cpu, rfl⟩, fun _ _ => ends⟩⟩⟩

theorem initModule_follows : (initModule (n := n)).Follows access (fun _ _ => True) .outside := by
  refine ⟨rfl, fun _ _ => ⟨rfl, fun cpu _ => ?_⟩⟩
  show Prog.Follows access _ ((enableCcr >>= fun _ => localIrqRestore) >>= _) (.inside cpu 0)
  rw [Prog.follows_bind, Prog.follows_bind]
  exact enableCcr_follows ⟨⟨cpu, rfl⟩, fun _ _ => ⟨rfl, fun _ _ => trivial⟩⟩

theorem callInterrupt_follows : (callInterrupt (n := n)).Follows access (fun _ _ => True) .outside := by
  refine ⟨rfl, fun cpu _ => ?_⟩
  show Prog.Follows access _ (enableCcr >>= _) (.inside cpu 0)
  rw [Prog.follows_bind]
  exact enableCcr_follows ⟨⟨cpu, rfl⟩, fun _ _ => trivial⟩

/-- Neither write of the program resets the event counters. -/
theorem main_follows : (main (n := n)).Follows access (fun _ _ => True) .outside := by
  refine ⟨⟨rfl, rfl⟩, fun pmcr read => ⟨⟨?_, rfl⟩, fun _ _ => ⟨⟨rfl, rfl⟩, fun pmcr' read' => ⟨⟨?_, rfl⟩,
    fun _ _ => trivial⟩⟩⟩⟩
  · rw [BitVec.getLsbD_or, read]
    rfl
  · rw [BitVec.getLsbD_and, read']
    rfl

/-! ### One call -/

variable {hw : Pmuv3} {banks₀ : Fin n → Bank} {b : Board n} {t u : Nat} {cpu : Fin n}

/-- With interrupts off a thread stays on its CPU. -/
theorem At.cpu_eq {c : Fin n} {k : Nat} (stage : At b t (.inside c k)) (runs : b.Runs t cpu) :
    cpu = c :=
  ((runs.2 c t stage.1).mp rfl).symm

/-- Another thread does not run where the interrupts are off. -/
theorem Board.Runs.apart (runs : b.Runs t cpu) (other : u ≠ t) : b.masked cpu ≠ some u :=
  fun masked => other ((runs.2 cpu u masked).mpr rfl)

theorem Fair.asks {seen : List (Seen n)} (fair : Fair banks₀ seen) (cpus : List (Fin n)) :
    Fair banks₀ (cpus.map .asked ++ seen) := by
  induction cpus with
  | nil => exact fair
  | cons cpu cpus ih => exact ih

theorem Governed.asks {b₀ bank : Bank} {seen : List (Seen n)} (governed : Governed hw cpu b₀ bank seen)
    (cpus : List (Fin n)) : Governed hw cpu b₀ bank (cpus.map .asked ++ seen) := by
  induction cpus with
  | nil => exact governed
  | cons c cpus ih => exact ih.elsewhere trivial

theorem Opened.write {bank : Bank} (opened : Opened bank) {reg : SysReg} {v : BitVec 32}
    (sane : Sane reg v) : Opened (bank.msr hw reg (v.setWidth 64)) := by
  cases reg with
  | PMUSERENR_EL0 =>
      cases sane
      exact ⟨rfl, opened.2⟩
  | PMCNTENSET_EL0 =>
      refine ⟨opened.1, ?_⟩
      show (bank.pmcntenset ||| _).getLsbD 31 = true
      rw [BitVec.getLsbD_or, opened.2, Bool.true_or]
  | PMCR_EL0 => exact opened
  | PMSELR_EL0 | PMXEVTYPER_EL0 | PMXEVCNTR_EL0 => cases sane

theorem mayWrite_sane {mode : Mode} {reg : SysReg} {v : BitVec 32} {r : Stage n}
    (may : mayWrite mode reg v r) : Sane reg v := by
  cases mode with
  | user => cases reg <;> first | exact may.1 | cases may
  | kernel =>
      cases reg with
      | PMCR_EL0 =>
          cases may.1
          rfl
      | PMUSERENR_EL0 | PMCNTENSET_EL0 => exact may.1
      | PMSELR_EL0 | PMXEVTYPER_EL0 | PMXEVCNTR_EL0 => cases may
  | hypervisor => cases reg <;> cases may

theorem mayWrite_byKernel {mode : Mode} {v : BitVec 32} {r : Stage n} (may : mayWrite mode .PMCR_EL0 v r)
    (kernel : mode ≠ .user) : v = 1 := by
  cases mode with
  | user => exact absurd rfl kernel
  | kernel => exact may.1
  | hypervisor => cases may

/-- A write is seen, and keeps the board. -/
theorem Kept.write (kept : Kept hw banks₀ b) {mode : Mode} {reg : SysReg} {v : BitVec 32} {r : Stage n}
    (may : mayWrite mode reg v r) : Kept hw banks₀ (b.write hw cpu mode reg v) where
  registers c := by
    show Governed hw c (banks₀ c) (Function.update b.banks cpu _ c) _
    by_cases here : c = cpu
    · subst here
      rw [Function.update_self]
      exact (kept.registers c).write (mayWrite_sane may)
    · rw [Function.update_of_ne here]
      exact (kept.registers c).elsewhere (Ne.symm here)
  asked c asked := by
    rcases List.mem_cons.mp asked with now | before
    · cases now
    · refine (kept.asked c before).imp_right (Or.imp_right fun opened => ?_)
      show Opened (Function.update b.banks cpu _ c)
      by_cases here : c = cpu
      · subst here
        rw [Function.update_self]
        exact opened.write (mayWrite_sane may)
      · rw [Function.update_of_ne here]
        exact opened
  killed u := by
    refine (kept.killed u).trans (exists_congr fun c => ?_)
    show _ ↔ _ ∈ _ :: _
    simp
  fair := kept.fair
  byKernel c mode' v' wrote := by
    rcases List.mem_cons.mp wrote with now | before
    · cases now
      exact mayWrite_byKernel may
    · exact kept.byKernel c mode' v' before

/-- A process that is killed had no access. -/
theorem Kept.kill (kept : Kept hw banks₀ b) (refused : grants (b.banks cpu) .user .PMCR_EL0 = false) :
    Kept hw banks₀ (b.kill cpu t) where
  registers c := (kept.registers c).elsewhere trivial
  asked c asked := by
    rcases List.mem_cons.mp asked with now | before
    · cases now
    · exact kept.asked c before
  killed u := by
    show Function.update b.killed t true u = true ↔ ∃ c, _ ∈ _ :: _
    by_cases self : u = t
    · subst self
      rw [Function.update_self]
      exact iff_of_true rfl ⟨cpu, List.mem_cons_self⟩
    · rw [Function.update_of_ne self, kept.killed u]
      simp [self]
  fair := by
    refine ⟨?_, kept.fair⟩
    have off : (b.banks cpu).pmuserenr.getLsbD 0 = false := by
      simpa [grants] using refused
    have register := (kept.registers cpu).pmuserenr
    cases opened : written .PMUSERENR_EL0 cpu b.seen with
    | true =>
        rw [opened, if_pos rfl] at register
        rw [register] at off
        cases off
    | false =>
        rw [opened, if_neg Bool.false_ne_true] at register
        exact ⟨register ▸ off, rfl⟩
  byKernel c mode v wrote := by
    rcases List.mem_cons.mp wrote with now | before
    · cases now
    · exact kept.byKernel c mode v before

/-- The other CPUs are asked. -/
theorem Kept.ask (kept : Kept hw banks₀ b) :
    Kept hw banks₀ { b with
      queued := fun c => if c = cpu then b.queued c else b.queued c + 1
      seen := ((List.finRange n).filter (· ≠ cpu)).map .asked ++ b.seen } where
  registers c := (kept.registers c).asks _
  asked c asked := by
    show 0 < (if c = cpu then b.queued c else b.queued c + 1) ∨ _
    by_cases here : c = cpu
    · rw [if_pos here]
      rcases List.mem_append.mp asked with now | before
      · obtain ⟨c', others, same⟩ := List.mem_map.mp now
        cases same
        exact absurd here (by simpa using (List.mem_filter.mp others).2)
      · exact kept.asked c before
    · rw [if_neg here]
      exact .inl (Nat.succ_pos _)
  killed u := by
    refine (kept.killed u).trans (exists_congr fun c => ?_)
    show _ ↔ _ ∈ _ ++ _
    simp
  fair := kept.fair.asks _
  byKernel c mode v wrote := by
    rcases List.mem_append.mp wrote with now | before
    · obtain ⟨c', -, same⟩ := List.mem_map.mp now
      cases same
    · exact kept.byKernel c mode v before

/-- Interrupts are turned off, for a call that was queued or not. -/
theorem Kept.mask (kept : Kept hw banks₀ b) (cpu : Fin n) (t : Nat) {queued : Fin n → Nat}
    (others : ∀ c, c ≠ cpu → queued c = b.queued c) :
    Kept hw banks₀ { b with queued := queued, masked := Function.update b.masked cpu (some t) } where
  registers := kept.registers
  asked c asked := by
    show 0 < queued c ∨ Function.update b.masked cpu (some t) c ≠ none ∨ _
    by_cases here : c = cpu
    · subst here
      rw [Function.update_self]
      exact .inr (.inl nofun)
    · rw [Function.update_of_ne here, others c here]
      exact kept.asked c asked
  killed := kept.killed
  fair := kept.fair
  byKernel := kept.byKernel

/-- A CPU is asked by a thread that has its interrupts off. -/
theorem Kept.askOwn (kept : Kept hw banks₀ b) (masked : b.masked cpu ≠ none) :
    Kept hw banks₀ (b.note (.asked cpu)) where
  registers c := (kept.registers c).elsewhere trivial
  asked c asked := by
    rcases List.mem_cons.mp asked with now | before
    · cases now
      exact .inr (.inl masked)
    · exact kept.asked c before
  killed u := by
    refine (kept.killed u).trans (exists_congr fun c => ?_)
    show _ ↔ _ ∈ _ :: _
    simp
  fair := kept.fair
  byKernel c mode v wrote := by
    rcases List.mem_cons.mp wrote with now | before
    · cases now
    · exact kept.byKernel c mode v before

/-- Interrupts are turned on again once all three registers are written. -/
theorem Kept.unmask (kept : Kept hw banks₀ b) (opened : Opened (b.banks cpu)) :
    Kept hw banks₀ { b with masked := Function.update b.masked cpu none } where
  registers := kept.registers
  asked c asked := by
    show _ ∨ Function.update b.masked cpu none c ≠ none ∨ _
    by_cases here : c = cpu
    · subst here
      exact .inr (.inr opened)
    · rw [Function.update_of_ne here]
      exact kept.asked c asked
  killed := kept.killed
  fair := kept.fair
  byKernel := kept.byKernel

theorem Kept.world (kept : Kept hw banks₀ b) (w : World n) : Kept hw banks₀ (Board.act hw w b) := by
  cases w with
  | migrate u c => exact ⟨kept.1, kept.2, kept.3, kept.4, kept.5⟩
  | hardware cpu ev =>
      refine ⟨fun c => ?_, fun c asked => ?_, fun u => ?_, kept.fair, fun c mode v wrote => ?_⟩
      · show Governed hw c (banks₀ c) (Function.update b.banks cpu _ c) _
        by_cases here : c = cpu
        · subst here
          rw [Function.update_self]
          exact (kept.registers c).observe ev
        · rw [Function.update_of_ne here]
          exact (kept.registers c).elsewhere (Ne.symm here)
      · rcases List.mem_cons.mp asked with now | before
        · cases now
        · refine (kept.asked c before).imp_right (Or.imp_right fun opened => ?_)
          show Opened (Function.update b.banks cpu _ c)
          by_cases here : c = cpu
          · subst here
            rw [Function.update_self]
            exact opened
          · rw [Function.update_of_ne here]
            exact opened
      · refine (kept.killed u).trans (exists_congr fun c => ?_)
        show _ ↔ _ ∈ _ :: _
        simp
      · rcases List.mem_cons.mp wrote with now | before
        · cases now
        · exact kept.byKernel c mode v before

/-! ### Stages -/

/-- A thread that is on no masked CPU turns the interrupts of its own off. -/
theorem At.mask (stage : At b t .outside) {queued : Fin n → Nat} {seen : List (Seen n)} :
    At { b with queued := queued, masked := Function.update b.masked cpu (some t), seen := seen } t
      (.inside cpu 0) := by
  refine ⟨Function.update_self .., fun c masked => ?_, nofun, nofun⟩
  by_contra other
  have before : Function.update b.masked cpu (some t) c = some t := masked
  rw [Function.update_of_ne other] at before
  exact stage c before

theorem At.unmask {k : Nat} (stage : At b t (.inside cpu k)) :
    At { b with masked := Function.update b.masked cpu none } t .outside := by
  intro c masked
  have after : Function.update b.masked cpu none c = some t := masked
  by_cases here : c = cpu
  · rw [here, Function.update_self] at after
    cases after
  · rw [Function.update_of_ne here] at after
    exact here (stage.2.1 c after)

/-- What another CPU and another thread do leaves the stage. -/
theorem At.other {r : Stage n} {b' : Board n} (stage : At b u r)
    (masked : ∀ c, b'.masked c = some u ↔ b.masked c = some u)
    (banks : ∀ c, b.masked c = some u → (b'.banks c).pmuserenr = (b.banks c).pmuserenr ∧
      (b'.banks c).pmcntenset = (b.banks c).pmcntenset) : At b' u r := by
  cases r with
  | outside => exact fun c masked' => stage c ((masked c).mp masked')
  | inside c k =>
      obtain ⟨at_c, only, first, third⟩ := stage
      obtain ⟨same, same'⟩ := banks c at_c
      refine ⟨(masked c).mpr at_c, fun c' masked' => only c' ((masked c').mp masked'), ?_, ?_⟩
      · exact fun made => same.trans (first made)
      · exact fun made => same' ▸ third made

/-! ### Threads -/

/-- The three writes of `enable_ccr`, stage by stage. -/
theorem At.wrote {r : Stage n} {mode : Mode} {reg : SysReg} {v : BitVec 32} (stage : At b t r)
    (may : mayWrite mode reg v r) (runs : b.Runs t cpu) :
    At (b.write hw cpu mode reg v) t (access.next (.mcr mode reg v) () r) := by
  have here : (b.write hw cpu mode reg v).banks cpu = (b.banks cpu).msr hw reg (v.setWidth 64) :=
    Function.update_self ..
  cases mode with
  | hypervisor => cases reg <;> cases may
  | user =>
      cases reg with
      | PMCR_EL0 =>
          obtain ⟨-, rfl⟩ := may
          exact stage
      | PMUSERENR_EL0 | PMCNTENSET_EL0 | PMSELR_EL0 | PMXEVTYPER_EL0 | PMXEVCNTR_EL0 => cases may
  | kernel =>
      cases reg with
      | PMUSERENR_EL0 =>
          obtain ⟨rfl, c, rfl⟩ := may
          cases stage.cpu_eq runs
          refine ⟨stage.1, stage.2.1, fun _ => ?_, fun many => absurd many (by omega)⟩
          rw [here]
          rfl
      | PMCR_EL0 =>
          obtain ⟨rfl, c, rfl⟩ := may
          cases stage.cpu_eq runs
          refine ⟨stage.1, stage.2.1, fun _ => ?_, fun many => absurd many (by omega)⟩
          rw [here]
          exact stage.2.2.1 (Nat.le_refl 1)
      | PMCNTENSET_EL0 =>
          obtain ⟨rfl, c, rfl⟩ := may
          cases stage.cpu_eq runs
          refine ⟨stage.1, stage.2.1, fun _ => ?_, fun _ => ?_⟩
          · rw [here]
            exact stage.2.2.1 (by omega)
          · rw [here]
            show (_ ||| (0x80000000 : BitVec 32) &&& hw.mask).getLsbD 31 = true
            rw [mask_cycles, BitVec.getLsbD_or]
            exact Bool.or_true _
      | PMSELR_EL0 | PMXEVTYPER_EL0 | PMXEVCNTR_EL0 => cases may

/-- User mode is refused at `PMCR` only. -/
theorem mayWrite_refused {mode : Mode} {reg : SysReg} {v : BitVec 32} {r : Stage n} {bank : Bank}
    (may : mayWrite mode reg v r) (refused : grants bank mode reg = false) :
    grants bank .user .PMCR_EL0 = false ∧ r = .outside ∧ access.next (.mcr mode reg v) () r = r := by
  cases mode with
  | hypervisor => cases reg <;> cases may
  | kernel => cases refused
  | user =>
      cases reg with
      | PMCR_EL0 => exact ⟨refused, may.2, rfl⟩
      | PMUSERENR_EL0 | PMCNTENSET_EL0 | PMSELR_EL0 | PMXEVTYPER_EL0 | PMXEVCNTR_EL0 => cases may

variable {e : Context n} {b' : Board n} {r : Stage n}

/-- **A call of a thread** keeps the board and takes the thread to its next stage. -/
theorem kernel_own (kept : Kept hw banks₀ b) (stage : At b t r) {o : Op n} {a : o.Ans}
    (may : access.allowed o r) (answered : kernel hw t e o b = .done a b') :
    Kept hw banks₀ b' ∧ access.possible o a r ∧ At b' t (access.next o a r) := by
  unfold kernel at answered
  simp only at answered
  split at answered
  · rename_i runs
    cases o with
    | mcr mode reg v =>
        simp only at answered
        split at answered
        · cases answered
          exact ⟨kept.write may, trivial, stage.wrote may runs⟩
        · rename_i refused
          obtain ⟨off, rfl, same⟩ := mayWrite_refused may (Bool.eq_false_iff.mpr refused)
          cases answered
          refine ⟨kept.kill off, trivial, ?_⟩
          rw [same]
          exact stage
    | mrcPmcr mode =>
        obtain ⟨rfl, rfl⟩ := may
        simp only at answered
        split at answered
        · cases answered
          refine ⟨kept, ?_, stage⟩
          show BitVec.getLsbD (BitVec.setWidth 32 _) 1 = false
          rw [BitVec.getLsbD_setWidth, Bank.mrsPmcr, BitVec.getLsbD_and]
          simp
        · rename_i refused
          cases answered
          have zero : BitVec.getLsbD (0 : BitVec 32) 1 = false := rfl
          exact ⟨kept.kill (Bool.eq_false_iff.mpr refused), zero, stage⟩
    | smpCallFunction =>
        cases answered
        exact ⟨kept.ask, trivial, stage⟩
    | localIrqSave =>
        cases may
        cases answered
        have masked := kept.mask (b.runsOn t e) t fun c _ => rfl
        have off : Function.update b.masked (b.runsOn t e) (some t) (b.runsOn t e) ≠ none := by
          rw [Function.update_self]
          nofun
        exact ⟨masked.askOwn off, trivial, stage.mask⟩
    | takeCall =>
        cases may
        simp only at answered
        split at answered
        · cases answered
          exact ⟨kept.mask _ t fun c other => Function.update_of_ne other .., trivial, stage.mask⟩
        · cases answered
    | localIrqRestore | endCall =>
        obtain ⟨c, rfl⟩ := may
        cases answered
        rw [stage.cpu_eq runs]
        refine ⟨kept.unmask ⟨stage.2.2.1 (by omega), stage.2.2.2 (Nat.le_refl 3)⟩, trivial, stage.unmask⟩
    | printk text =>
        cases answered
        exact ⟨⟨kept.1, kept.2, kept.3, kept.4, kept.5⟩, trivial, stage⟩
  · cases answered

/-- **The calls of the others** leave a thread at its stage. -/
theorem kernel_stable {q : Stage n} (other : u ≠ t) {o : Op n} {a : o.Ans}
    (answered : kernel hw t e o b = .done a b') (at_ : At b u q) : At b' u q := by
  unfold kernel at answered
  simp only at answered
  split at answered
  · rename_i runs
    have apart : b.masked (b.runsOn t e) ≠ some u := runs.apart other
    -- the interrupts of this CPU are turned off by `t`, or on
    have remasked : ∀ (value : Option Nat) (c : Fin n), value ≠ some u →
        (Function.update b.masked (b.runsOn t e) value c = some u ↔ b.masked c = some u) := by
      intro value c foreign
      by_cases here : c = b.runsOn t e
      · rw [here, Function.update_self]
        exact iff_of_false foreign apart
      · rw [Function.update_of_ne here]
    have written_ : ∀ (bank : Bank) (c : Fin n), b.masked c = some u →
        Function.update b.banks (b.runsOn t e) bank c = b.banks c := by
      intro bank c masked
      have away : c ≠ b.runsOn t e := fun here => apart (here ▸ masked)
      exact Function.update_of_ne away ..
    cases o with
    | mcr mode reg v =>
        simp only at answered
        split at answered <;> cases answered
        · refine at_.other (fun c => Iff.rfl) fun c masked => ?_
          show (Function.update b.banks _ _ c).pmuserenr = _ ∧ (Function.update b.banks _ _ c).pmcntenset = _
          rw [written_ _ c masked]
          exact ⟨rfl, rfl⟩
        · exact at_.other (fun c => Iff.rfl) fun c _ => ⟨rfl, rfl⟩
    | mrcPmcr mode =>
        simp only at answered
        split at answered <;> cases answered
        · exact at_
        · exact at_.other (fun c => Iff.rfl) fun c _ => ⟨rfl, rfl⟩
    | smpCallFunction | printk text =>
        cases answered
        exact at_.other (fun c => Iff.rfl) fun c _ => ⟨rfl, rfl⟩
    | localIrqSave =>
        cases answered
        exact at_.other (fun c => remasked _ c fun same => other (Option.some.inj same).symm) fun c _ => ⟨rfl, rfl⟩
    | takeCall =>
        simp only at answered
        split at answered
        · cases answered
          exact at_.other (fun c => remasked _ c fun same => other (Option.some.inj same).symm) fun c _ => ⟨rfl, rfl⟩
        · cases answered
    | localIrqRestore | endCall =>
        cases answered
        exact at_.other (fun c => remasked none c nofun) fun c _ => ⟨rfl, rfl⟩
  · cases answered

/-- What has been seen stays seen. -/
theorem kernel_seen {o : Op n} {a : o.Ans} (answered : kernel hw t e o b = .done a b') :
    b.seen <:+ b'.seen := by
  unfold kernel at answered
  simp only at answered
  split at answered
  · cases o with
    | mcr mode reg v | mrcPmcr mode =>
        simp only at answered
        split at answered <;> cases answered
        · first | exact List.suffix_cons _ _ | exact List.suffix_rfl
        · exact List.suffix_cons _ _
    | smpCallFunction =>
        cases answered
        exact List.suffix_append _ _
    | localIrqSave =>
        cases answered
        exact List.suffix_cons _ _
    | takeCall =>
        simp only at answered
        split at answered <;> cases answered
        exact List.suffix_rfl
    | localIrqRestore | endCall | printk text =>
        cases answered
        exact List.suffix_rfl
  · cases answered

end Board

/-! ## Runs -/

section Runs

variable {n : Nat} (hw : Pmuv3) (banks₀ : Fin n → Bank) (place : Nat → Fin n)

/-- The system after these doings. -/
def after (doings : List (Doing n)) : System n := (System.booted banks₀ place).run hw doings

/-- The system follows the protocol, and the board keeps what it keeps. -/
abbrev Follows (x : System n) : Prop := x.Relies access (fun _ _ => True) (Kept hw banks₀) At .outside

theorem booted_follows : Follows hw banks₀ (System.booted banks₀ place) where
  inv := by
    refine ⟨fun cpu => .refl, fun cpu asked => absurd asked List.not_mem_nil, fun t => ?_, trivial,
      fun cpu mode v wrote => absurd wrote List.not_mem_nil⟩
    exact iff_of_false Bool.false_ne_true fun ⟨_, trapped⟩ => absurd trapped List.not_mem_nil
  follows t thread found := by cases found
  unused t _ cpu := nofun

theorem run_follows (doings : List (Doing n)) : Follows hw banks₀ (after hw banks₀ place doings) := by
  refine Pool.run_relies (fun kept stage may answered => kernel_own kept stage may answered)
    (fun other _ _ answered at_ => kernel_stable other answered at_) (fun w s kept => ?_)
    (fun thread spawns => ?_) (booted_follows hw banks₀ place)
  · refine ⟨kept.world w, fun t r at_ => ?_⟩
    cases w with
    | migrate u cpu => exact at_.other (fun c => Iff.rfl) fun c _ => ⟨rfl, rfl⟩
    | hardware cpu ev =>
        refine at_.other (fun c => Iff.rfl) fun c _ => ?_
        show (Function.update s.banks cpu _ c).pmuserenr = _ ∧
          (Function.update s.banks cpu _ c).pmcntenset = _
        by_cases here : c = cpu
        · rw [here, Function.update_self]
          exact ⟨rfl, rfl⟩
        · rw [Function.update_of_ne here]
          exact ⟨rfl, rfl⟩
  · obtain ⟨doing, -, same⟩ := List.mem_map.mp spawns
    cases doing with
    | load cpu =>
        cases same
        exact initModule_follows
    | interrupt cpu =>
        cases same
        exact callInterrupt_follows
    | execute =>
        cases same
        exact main_follows
    | step t => cases same
    | world w => cases same

theorem run_seen (doings later : List (Doing n)) :
    (after hw banks₀ place doings).shared.seen <:+ (after hw banks₀ place (doings ++ later)).shared.seen := by
  generalize start : after hw banks₀ place doings = y
  have onward : after hw banks₀ place (doings ++ later) = y.run hw later := by
    rw [← start, after, after, System.run, System.run, List.map_append, Pool.run_append]
    rfl
  rw [onward]
  refine Pool.run_shared (I := fun x => y.shared.seen <:+ x.seen)
    (fun grown answered => grown.trans (kernel_seen answered)) (fun w x grown => ?_)
    List.suffix_rfl _
  cases w with
  | migrate t cpu => exact grown
  | hardware cpu ev => exact grown.trans (List.suffix_cons _ _)

variable {hw banks₀ place}

/-! ### Loads -/

/-- An init that has returned has asked every CPU. -/
theorem initModule_asks :
    (initModule (n := n)).Always (fun calls v => v ≠ none →
      ⟨.smpCallFunction, ()⟩ ∈ calls ∧ ∃ own : Fin n, ⟨.localIrqSave, own⟩ ∈ calls) [] := by
  refine ⟨fun returned => absurd rfl returned, fun _ => ⟨fun returned => absurd rfl returned, fun own => ?_⟩⟩
  refine ⟨fun returned => absurd rfl returned, fun _ => ⟨fun returned => absurd rfl returned, fun _ => ?_⟩⟩
  refine ⟨fun returned => absurd rfl returned, fun _ => ⟨fun returned => absurd rfl returned, fun _ => ?_⟩⟩
  refine ⟨fun returned => absurd rfl returned, fun _ => fun _ => ⟨?_, own, ?_⟩⟩
  · exact List.mem_cons_self
  · exact List.mem_cons_of_mem _ List.mem_cons_self

/-- What happened in a run. -/
abbrev history (hw : Pmuv3) (banks₀ : Fin n → Bank) (place : Nat → Fin n) (doings : List (Doing n)) :
    List (Event (sig n) (Context n) (World n)) :=
  Pool.events (kernel hw) (Board.act hw) (System.booted banks₀ place) (doings.map Doing.action)

/-- A CPU is asked by the calls of init. -/
theorem history_asks (doings : List (Doing n)) {t : Nat} {cpu own : Fin n}
    (others : .call t (.pinned cpu) ⟨.smpCallFunction, ()⟩ ∈ history hw banks₀ place doings)
    (itself : .call t (.pinned cpu) ⟨.localIrqSave, own⟩ ∈ history hw banks₀ place doings) (c : Fin n) :
    .asked c ∈ (after hw banks₀ place doings).shared.seen := by
  let I : List (Event (sig n) (Context n) (World n)) → Board n → Prop := fun past b =>
    ∀ t cpu, (.call t (.pinned cpu) ⟨.smpCallFunction, ()⟩ ∈ past → ∀ c, c ≠ cpu → .asked c ∈ b.seen) ∧
      ∀ own, .call t (.pinned cpu) ⟨.localIrqSave, own⟩ ∈ past → .asked cpu ∈ b.seen
  have asked : I (history hw banks₀ place doings) (after hw banks₀ place doings).shared := by
    refine Pool.run_history (fun {past t e o a b b'} asked answered u cpu => ?_)
      (fun {past w b} asked u cpu => ?_) (fun t cpu => ⟨fun member => absurd member List.not_mem_nil,
        fun own member => absurd member List.not_mem_nil⟩) _
    · have kept := kernel_seen answered
      unfold kernel at answered
      simp only at answered
      constructor
      · intro member c other
        rcases List.mem_append.mp member with before | now
        · exact kept.subset ((asked u cpu).1 before c other)
        · cases List.mem_singleton.mp now
          split at answered
          · cases answered
            refine List.mem_append_left _ (List.mem_map_of_mem (List.mem_filter.mpr ⟨List.mem_finRange c, ?_⟩))
            exact decide_eq_true other
          · cases answered
      · intro own member
        rcases List.mem_append.mp member with before | now
        · exact kept.subset ((asked u cpu).2 own before)
        · cases List.mem_singleton.mp now
          split at answered
          · cases answered
            exact List.mem_cons_self
          · cases answered
    · have kept : b.seen <:+ (Board.act hw w b).seen := by
        cases w with
        | migrate u cpu => exact List.suffix_rfl
        | hardware cpu ev => exact List.suffix_cons _ _
      refine ⟨fun member c other => ?_, fun own member => ?_⟩
      · rcases List.mem_append.mp member with before | now
        · exact kept.subset ((asked u cpu).1 before c other)
        · cases List.mem_singleton.mp now
      · rcases List.mem_append.mp member with before | now
        · exact kept.subset ((asked u cpu).2 own before)
        · cases List.mem_singleton.mp now
  by_cases here : c = cpu
  · subst here
    exact (asked t c).2 own itself
  · exact (asked t cpu).1 others c here

/-- Thread `t` is a load of the module, and its init has returned. -/
def Loaded (hw : Pmuv3) (banks₀ : Fin n → Bank) (place : Nat → Fin n) (doings : List (Doing n))
    (t : Nat) : Prop :=
  (∃ cpu, (Pool.started (System.booted banks₀ place) (doings.map Doing.action))[t]? =
    some ⟨.pinned cpu, initModule⟩) ∧ (after hw banks₀ place doings).Returned t

theorem loaded_asked {doings : List (Doing n)} {t : Nat} (loaded : Loaded hw banks₀ place doings t)
    (c : Fin n) : .asked c ∈ (after hw banks₀ place doings).shared.seen := by
  obtain ⟨⟨cpu, begun⟩, e, a, returned⟩ := loaded
  obtain ⟨q, here, leaves⟩ := Pool.run_leaves (kernel hw) (Board.act hw) begun
  cases returned.symm.trans here
  obtain ⟨others, own, itself⟩ := initModule_asks.leaves leaves nofun
  obtain ⟨e₁, others⟩ := mem_callsOf.mp others
  obtain ⟨e₂, itself⟩ := mem_callsOf.mp itself
  cases Pool.env_of_call (kernel hw) (Board.act hw) begun others
  cases Pool.env_of_call (kernel hw) (Board.act hw) begun itself
  exact history_asks doings others itself c

/-! ### All of it -/

/-- What every run comes to. -/
structure AccessGoverned (hw : Pmuv3) (banks₀ : Fin n → Bank) (place : Nat → Fin n)
    (doings : List (Doing n)) : Prop where
  registers : ∀ cpu, Governed hw cpu (banks₀ cpu) ((after hw banks₀ place doings).shared.banks cpu)
    (after hw banks₀ place doings).shared.seen
  opened : ∀ t, Loaded hw banks₀ place doings t → ∀ cpu,
    (after hw banks₀ place doings).shared.queued cpu = 0 →
    (after hw banks₀ place doings).shared.masked cpu = none →
      Opened ((after hw banks₀ place doings).shared.banks cpu)
  killed : ∀ t, (after hw banks₀ place doings).shared.killed t = true →
    ∃ newer cpu older, (after hw banks₀ place doings).shared.seen = newer ++ .trapped cpu t :: older ∧
      (banks₀ cpu).pmuserenr.getLsbD 0 = false ∧ written .PMUSERENR_EL0 cpu older = false
  spared : (∀ cpu, Opened ((after hw banks₀ place doings).shared.banks cpu)) → ∀ later t,
    (after hw banks₀ place (doings ++ later)).shared.killed t = true →
      (after hw banks₀ place doings).shared.killed t = true
  stopped : ∀ cpu, ((after hw banks₀ place doings).shared.banks cpu).enabled = false →
    (banks₀ cpu).enabled = false ∧ lastPmcr cpu (after hw banks₀ place doings).shared.seen = none ∨
      ∃ v, lastPmcr cpu (after hw banks₀ place doings).shared.seen = some (.user, v) ∧
        v.getLsbD 0 = false

theorem Fair.trapped {seen : List (Seen n)} (fair : Fair banks₀ seen) {newer older : List (Seen n)}
    {cpu : Fin n} {t : Nat} (split : seen = newer ++ .trapped cpu t :: older) :
    (banks₀ cpu).pmuserenr.getLsbD 0 = false ∧ written .PMUSERENR_EL0 cpu older = false := by
  subst split
  induction newer with
  | nil => exact fair.1
  | cons what newer ih =>
      cases what with
      | trapped c u => exact ih fair.2
      | asked c => exact ih fair
      | wrote c mode reg v => exact ih fair
      | hardware c ev => exact ih fair

theorem lastPmcr_mem {cpu : Fin n} {seen : List (Seen n)} {mode : Mode} {v : BitVec 32}
    (last : lastPmcr cpu seen = some (mode, v)) : .wrote cpu mode .PMCR_EL0 v ∈ seen := by
  induction seen with
  | nil => cases last
  | cons what older ih =>
      unfold lastPmcr at last
      split at last
      · cases last
      · rename_i c mode' v' older' same
        cases same
        split at last
        · rename_i here
          cases here
          cases last
          exact List.mem_cons_self
        · exact List.mem_cons_of_mem _ (ih last)
      · rename_i same
        cases same
        exact List.mem_cons_of_mem _ (ih last)

/-- **User access is governed**: in every run of loads, interrupts, processes and hardware
events, on any number of CPUs. -/
theorem access_governed (hw : Pmuv3) (banks₀ : Fin n → Bank) (place : Nat → Fin n)
    (doings : List (Doing n)) : AccessGoverned hw banks₀ place doings := by
  have kept := (run_follows hw banks₀ place doings).inv
  refine ⟨kept.registers, fun t loaded cpu idle unmasked => ?_, fun t dead => ?_,
    fun opened later t dead => ?_, fun cpu off => ?_⟩
  · rcases kept.asked cpu (loaded_asked loaded cpu) with waiting | busy | opened
    · exact absurd waiting (by omega)
    · exact absurd unmasked busy
    · exact opened
  · obtain ⟨cpu, trapped⟩ := (kept.killed t).mp dead
    obtain ⟨newer, older, split⟩ := List.append_of_mem trapped
    exact ⟨newer, cpu, older, split, kept.fair.trapped split⟩
  · have keptLater := (run_follows hw banks₀ place (doings ++ later)).inv
    obtain ⟨more, grown⟩ := run_seen hw banks₀ place doings later
    obtain ⟨cpu, trapped⟩ := (keptLater.killed t).mp dead
    rw [← grown] at trapped
    rcases List.mem_append.mp trapped with now | before
    · -- an open CPU traps nobody
      obtain ⟨newer, mid, split⟩ := List.append_of_mem now
      have split' := grown.symm
      rw [split, List.append_assoc, List.cons_append] at split'
      obtain ⟨none, unwritten⟩ := keptLater.fair.trapped split'
      rw [written, List.any_append, Bool.or_eq_false_iff] at unwritten
      have register := (kept.registers cpu).pmuserenr
      rw [written, unwritten.2, if_neg Bool.false_ne_true, (opened cpu).1] at register
      rw [← register] at none
      cases none
    · exact (kept.killed t).mpr ⟨cpu, before⟩
  · rw [(kept.registers cpu).enabled, counting] at off
    cases last : lastPmcr cpu (after hw banks₀ place doings).shared.seen with
    | none =>
        rw [last] at off
        exact .inl ⟨off, rfl⟩
    | some write =>
        obtain ⟨mode, v⟩ := write
        rw [last] at off
        have bit : v.getLsbD 0 = false := off
        refine .inr ⟨v, ?_, bit⟩
        by_cases user : mode = .user
        · rw [user]
        · rw [kept.byKernel cpu mode v (lastPmcr_mem last) user] at bit
          cases bit

end Runs

/-- Init has returned on CPU 0, and yet a process is killed on CPU 1. -/
example : ((after cortexA53 (fun _ : Fin 2 => .idle) (fun _ => 1)
    ([.load 0, .execute] ++ List.replicate 7 (.step 0) ++ [.step 1])).shared.killed 1) = true := rfl

end Dreamscape.Pmu.UserAccess
