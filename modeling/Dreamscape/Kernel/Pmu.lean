/-
# Kernel.Pmu -- the performance monitors of one CPU

The registers of the ARMv8 performance monitors, what a write to each of them does,
and what a hardware event adds to the counters.  Every CPU has its own bank.

How many event counters there are is up to the processor (`PMCR_EL0.N`), so the bank
is read and written for a given `Pmuv3`; a bit or a counter that is not implemented
ignores writes and reads as zero.  The cycle counter is left out: nothing reads it.
-/
import Mathlib.Data.BitVec
import Mathlib.Logic.Function.Basic

namespace Dreamscape.Kernel

set_option autoImplicit false

/-! ## Registers -/

/-- `sys_reg(op0, op1, crn, crm, op2)`: the encoding of a system register. -/
def sysReg (op0 op1 crn crm op2 : BitVec 64) : BitVec 64 :=
  op0 <<< 19 ||| op1 <<< 16 ||| crn <<< 12 ||| crm <<< 8 ||| op2 <<< 5

def SYS_PMCNTENSET_EL0 : BitVec 64 := sysReg 3 3 9 12 1

def SYS_PMUSERENR_EL0 : BitVec 64 := sysReg 3 3 9 14 0

/-- The registers the module writes. -/
inductive SysReg where
  | PMCR_EL0
  | PMCNTENSET_EL0
  | PMSELR_EL0
  | PMXEVTYPER_EL0
  | PMXEVCNTR_EL0
  | PMUSERENR_EL0
  deriving DecidableEq

/-- A processor's performance monitors, with at least four event counters. -/
structure Pmuv3 where
  counters : Nat
  four : 4 ≤ counters
  bound : counters ≤ 31

def cortexA53 : Pmuv3 := ⟨6, by decide, by decide⟩

/-- The bits of `PMCNTENSET_EL0`: one for each event counter, and bit 31 for cycles. -/
def Pmuv3.mask (hw : Pmuv3) : BitVec 32 :=
  (BitVec.allOnes hw.counters).setWidth 32 ||| 1#32 <<< 31

/-- The state of one CPU's monitors.  `pmevtyper` and `pmevcntr` are the event type and
the count of each event counter. -/
structure Bank where
  pmcr : BitVec 64
  pmcntenset : BitVec 32
  pmselr : BitVec 5
  pmevtyper : Nat → BitVec 32
  pmevcntr : Nat → BitVec 32
  pmuserenr : BitVec 4

/-- A bank that nobody has programmed. -/
def Bank.idle : Bank := ⟨0, 0, 0, fun _ => 0, fun _ => 0, 0⟩

/-- `PMCR_EL0.E` -/
def Bank.enabled (b : Bank) : Bool := b.pmcr.getLsbD 0

/-- `E`, `D`, `X`, `DP` and `LC`; the rest of `PMCR_EL0` is read-only or not kept. -/
def pmcrKept : BitVec 64 := 0x79

/-- `msr <reg>, v` -/
def Bank.msr (hw : Pmuv3) (b : Bank) (reg : SysReg) (v : BitVec 64) : Bank :=
  match reg with
  | .PMCR_EL0 =>
      { b with
        pmcr := b.pmcr &&& ~~~pmcrKept ||| v &&& pmcrKept
        -- Bit `P` resets the event counters and is not kept.
        pmevcntr := if v.getLsbD 1 then fun _ => 0 else b.pmevcntr }
  | .PMCNTENSET_EL0 => { b with pmcntenset := b.pmcntenset ||| v.setWidth 32 &&& hw.mask }
  | .PMSELR_EL0 => { b with pmselr := v.setWidth 5 }
  | .PMXEVTYPER_EL0 =>
      if b.pmselr.toNat < hw.counters then
        { b with pmevtyper := Function.update b.pmevtyper b.pmselr.toNat (v.setWidth 32) }
      else b
  | .PMXEVCNTR_EL0 =>
      if b.pmselr.toNat < hw.counters then
        { b with pmevcntr := Function.update b.pmevcntr b.pmselr.toNat (v.setWidth 32) }
      else b
  | .PMUSERENR_EL0 => { b with pmuserenr := v.setWidth 4 }

/-- `mrs <v>, pmcr_el0`: bits `P` and `C` read as zero. -/
def Bank.mrsPmcr (b : Bank) : BitVec 64 := b.pmcr &&& ~~~6

/-- `mrs <v>, pmxevcntr_el0` -/
def Bank.mrsPmxevcntr (hw : Pmuv3) (b : Bank) : BitVec 64 :=
  if b.pmselr.toNat < hw.counters then (b.pmevcntr b.pmselr.toNat).setWidth 64 else 0

/-! ## Counting -/

/-- A hardware event in user (EL0) or kernel (EL1) mode. -/
structure HwEvent where
  code : BitVec 10
  user : Bool
  deriving DecidableEq

/-- The event an event type selects; its top bits leave out kernel and user mode. -/
def selects (typer : BitVec 32) (ev : HwEvent) : Bool :=
  typer.setWidth 10 == ev.code && !typer.getLsbD (if ev.user then 30 else 31)

def Bank.counts (b : Bank) (ev : HwEvent) (i : Nat) : Bool :=
  b.enabled && b.pmcntenset.getLsbD i && selects (b.pmevtyper i) ev

/-- A hardware event on this CPU. -/
def Bank.observe (hw : Pmuv3) (b : Bank) (ev : HwEvent) : Bank :=
  { b with
    pmevcntr := fun i =>
      if i < hw.counters && b.counts ev i then b.pmevcntr i + 1 else b.pmevcntr i }

def Bank.observeAll (hw : Pmuv3) (b : Bank) (evs : List HwEvent) : Bank := evs.foldl (Bank.observe hw) b

/-- Everything but the counts. -/
def Bank.SameControl (b b' : Bank) : Prop :=
  b'.pmcr = b.pmcr ∧ b'.pmcntenset = b.pmcntenset ∧ b'.pmselr = b.pmselr ∧
    b'.pmevtyper = b.pmevtyper ∧ b'.pmuserenr = b.pmuserenr

theorem Bank.observeAll_append (hw : Pmuv3) (b : Bank) (evs later : List HwEvent) :
    b.observeAll hw (evs ++ later) = (b.observeAll hw evs).observeAll hw later :=
  List.foldl_append

/-- Hardware events change nothing but counts. -/
theorem Bank.observeAll_control (hw : Pmuv3) (b : Bank) (evs : List HwEvent) :
    b.SameControl (b.observeAll hw evs) := by
  induction evs generalizing b with
  | nil => exact ⟨rfl, rfl, rfl, rfl, rfl⟩
  | cons ev evs ih => exact ih (b.observe hw ev)

theorem Bank.counts_congr {b b' : Bank} (same : b.SameControl b') (ev : HwEvent) (i : Nat) :
    b'.counts ev i = b.counts ev i := by
  obtain ⟨pmcr, enset, -, typer, -⟩ := same
  rw [Bank.counts, Bank.counts, Bank.enabled, Bank.enabled, pmcr, enset, typer]

theorem Bank.observe_count (hw : Pmuv3) (b : Bank) (ev : HwEvent) {i : Nat}
    (implemented : i < hw.counters) :
    (b.observe hw ev).pmevcntr i = b.pmevcntr i + if b.counts ev i then 1 else 0 := by
  by_cases counted : b.counts ev i <;> simp [Bank.observe, implemented, counted]

/-- **Counting**: an event counter gains, modulo `2 ^ 32`, the number of the events it
counts. -/
theorem Bank.observeAll_count (hw : Pmuv3) (b : Bank) (evs : List HwEvent) {i : Nat}
    (implemented : i < hw.counters) :
    (b.observeAll hw evs).pmevcntr i =
      b.pmevcntr i + BitVec.ofNat 32 (evs.countP fun ev => b.counts ev i) := by
  induction evs using List.reverseRecOn with
  | nil => simp [Bank.observeAll]
  | append_singleton evs ev ih =>
      have same := Bank.counts_congr (b.observeAll_control hw evs) ev i
      have last : (b.observeAll hw (evs ++ [ev])).pmevcntr i =
          (b.observeAll hw evs).pmevcntr i + if b.counts ev i then 1 else 0 := by
        rw [Bank.observeAll_append, ← same]
        exact Bank.observe_count hw _ ev implemented
      rw [last, ih, List.countP_append, BitVec.ofNat_add, BitVec.add_assoc]
      by_cases counted : b.counts ev i <;> simp [counted]

end Dreamscape.Kernel
