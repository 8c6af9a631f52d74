/-
# Pmu.UserAccess -- the performance monitors in the hands of user programs

`enable_ccr.c` opens the monitors of every CPU to user mode, and `pmu_enable.c` is a user
program that sets them up and stops them again.  `on_each_cpu` is called without waiting: the
other CPUs are asked to run `enable_ccr` and do so at any later time, with interrupts off, while
init goes on.  A process moves from CPU to CPU between any two of its instructions, and an
access its CPU does not grant kills it.

`Board` is `n` CPUs with their banks.  `seen` is kept for the proofs: what was asked of the
CPUs, written to their registers and refused, and the hardware events, the latest first.
-/
import Dreamscape.Theory.Transcript
import Dreamscape.Kernel.Perf
import Dreamscape.Kernel.Pmu
import Dreamscape.Kernel.Text

namespace Dreamscape.Pmu.UserAccess

set_option autoImplicit false

open Theory Kernel

/-! ## Calls -/

/-- The calls, with the mode a register is accessed in.  `takeCall` and `endCall` are the entry
and the exit of an interrupt that runs a call asked of its CPU; an interrupt, or code that turns
the interrupts off, learns which CPU it is on. -/
inductive Op (n : Nat) where
  | mcr (mode : Mode) (reg : SysReg) (v : BitVec 32)
  | mrcPmcr (mode : Mode)
  | smpCallFunction
  | localIrqSave
  | localIrqRestore
  | takeCall
  | endCall
  | printk (text : List Char)

@[reducible] def Op.Ans {n : Nat} : Op n → Type
  | .mrcPmcr _ => BitVec 32
  | .localIrqSave | .takeCall => Fin n
  | .mcr .. | .smpCallFunction | .localIrqRestore | .endCall | .printk _ => Unit

abbrev sig (n : Nat) : Sig := ⟨Op n, Op.Ans⟩

abbrev Code (n : Nat) (α : Type) := Prog (sig n) α

/-- Where a thread runs: init and an interrupt on a fixed CPU, a process where it is put. -/
inductive Context (n : Nat) where
  | pinned (cpu : Fin n)
  | process

inductive Seen (n : Nat) where
  | asked (cpu : Fin n)
  | wrote (cpu : Fin n) (mode : Mode) (reg : SysReg) (v : BitVec 32)
  | trapped (cpu : Fin n) (t : Nat)
  | hardware (cpu : Fin n) (ev : HwEvent)

structure Board (n : Nat) where
  banks : Fin n → Bank
  queued : Fin n → Nat
  /-- The thread that has the interrupts of a CPU off. -/
  masked : Fin n → Option Nat
  place : Nat → Fin n
  killed : Nat → Bool
  log : List (List Char)
  seen : List (Seen n)

/-- Nothing has been loaded or started. -/
def Board.booted {n : Nat} (banks : Fin n → Bank) (place : Nat → Fin n) : Board n :=
  ⟨banks, fun _ => 0, fun _ => none, place, fun _ => false, [], []⟩

section Board

variable {n : Nat}

@[simp] def call (o : Op n) : Code n o.Ans := .call (S := sig n) o .ret

@[simp] def mcr (mode : Mode) (reg : SysReg) (v : BitVec 32) : Code n Unit := call (.mcr mode reg v)
@[simp] def mrcPmcr (mode : Mode) : Code n (BitVec 32) := call (.mrcPmcr mode)
@[simp] def smpCallFunction : Code n Unit := call .smpCallFunction
@[simp] def localIrqSave : Code n (Fin n) := call .localIrqSave
@[simp] def localIrqRestore : Code n Unit := call .localIrqRestore
@[simp] def takeCall : Code n (Fin n) := call .takeCall
@[simp] def endCall : Code n Unit := call .endCall
@[simp] def printk (text : List Char) : Code n Unit := call (.printk text)

def Board.runsOn (b : Board n) (t : Nat) : Context n → Fin n
  | .pinned cpu => cpu
  | .process => b.place t

/-- Thread `t` can go on on this CPU: it has not been killed, nobody else has the interrupts
off there, and it has none off elsewhere. -/
def Board.Runs (b : Board n) (t : Nat) (cpu : Fin n) : Prop :=
  b.killed t = false ∧ ∀ c u, b.masked c = some u → (u = t ↔ c = cpu)

instance (b : Board n) (t : Nat) (cpu : Fin n) : Decidable (b.Runs t cpu) :=
  decidable_of_iff (b.killed t = false ∧ ∀ c, (b.masked c).all fun u => u = t ↔ c = cpu) (by
    refine and_congr_right fun _ => forall_congr' fun c => ?_
    cases b.masked c <;> simp)

/-- `PMUSERENR.EN` lets user mode at the registers, except `PMUSERENR` itself. -/
def grants (b : Bank) (mode : Mode) (reg : SysReg) : Bool :=
  mode != .user || (b.pmuserenr.getLsbD 0 && reg != .PMUSERENR_EL0)

def Board.note (b : Board n) (what : Seen n) : Board n := { b with seen := what :: b.seen }

def Board.write (hw : Pmuv3) (b : Board n) (cpu : Fin n) (mode : Mode) (reg : SysReg)
    (v : BitVec 32) : Board n :=
  { b with
    banks := Function.update b.banks cpu ((b.banks cpu).msr hw reg (v.setWidth 64))
    seen := .wrote cpu mode reg v :: b.seen }

/-- An access that is not granted. -/
def Board.kill (b : Board n) (cpu : Fin n) (t : Nat) : Board n :=
  { b with killed := Function.update b.killed t true, seen := .trapped cpu t :: b.seen }

def kernel (hw : Pmuv3) (t : Nat) (e : Context n) : Handler (sig n) Empty (Board n) := fun o b =>
  let cpu := b.runsOn t e
  if b.Runs t cpu then
    match o with
    | .mcr mode reg v =>
        if grants (b.banks cpu) mode reg then .done () (b.write hw cpu mode reg v)
        else .done () (b.kill cpu t)
    | .mrcPmcr mode =>
        if grants (b.banks cpu) mode .PMCR_EL0 then .done ((b.banks cpu).mrsPmcr.setWidth 32) b
        else .done 0 (b.kill cpu t)
    | .smpCallFunction =>
        .done () { b with
          queued := fun c => if c = cpu then b.queued c else b.queued c + 1
          seen := ((List.finRange n).filter (· ≠ cpu)).map .asked ++ b.seen }
    | .localIrqSave =>
        .done cpu ({ b with masked := Function.update b.masked cpu (some t) }.note (.asked cpu))
    | .localIrqRestore | .endCall => .done () { b with masked := Function.update b.masked cpu none }
    | .takeCall =>
        if 0 < b.queued cpu then
          .done cpu { b with
            queued := Function.update b.queued cpu (b.queued cpu - 1)
            masked := Function.update b.masked cpu (some t) }
        else .blocked b
    | .printk text => .done () { b with log := b.log ++ [text] }
  else .blocked b

/-- What happens between two calls. -/
inductive World (n : Nat) where
  | migrate (t : Nat) (cpu : Fin n)
  | hardware (cpu : Fin n) (ev : HwEvent)

def Board.act (hw : Pmuv3) : World n → Board n → Board n
  | .migrate t cpu, b => { b with place := Function.update b.place t cpu }
  | .hardware cpu ev, b =>
      { b with
        banks := Function.update b.banks cpu ((b.banks cpu).observe hw ev)
        seen := .hardware cpu ev :: b.seen }

/-! ## enable_ccr -/

def enableCcr : Code n Unit := do
  -- Set the User Enable register, bit 0
  mcr .kernel .PMUSERENR_EL0 1
  -- Enable all counters in the PNMC control-register
  mcr .kernel .PMCR_EL0 1
  -- Enable cycle counter specifically
  mcr .kernel .PMCNTENSET_EL0 0x80000000

/-- `on_each_cpu(func, NULL, 0)`: the others are asked, this CPU does it at once. -/
def onEachCpu (func : Code n Unit) : Code n Unit := do
  smpCallFunction
  let _ ← localIrqSave
  func
  localIrqRestore

def initModule : Code n Int := do
  onEachCpu enableCcr
  printk "Userspace access to CCR enabled\n".toList
  return 0

/-- The interrupt that runs a call asked of its CPU. -/
def callInterrupt : Code n Int := do
  let _ ← takeCall
  enableCcr
  endCall
  return 0

/-! ## pmu_enable -/

def PMCR_E : BitVec 32 := 1 <<< 0
def PMCR_C : BitVec 32 := 1 <<< 2
def PMCR_X : BitVec 32 := 1 <<< 4
def PMCR_DP : BitVec 32 := 1 <<< 5
def PMCR_XP : BitVec 32 := 1 <<< 6

def pmuEnable : Code n Unit := do
  let pmcr ← mrcPmcr .user
  mcr .user .PMCR_EL0 (pmcr ||| (PMCR_E ||| PMCR_C ||| PMCR_X ||| PMCR_DP ||| PMCR_XP))

def pmuDisable : Code n Unit := do
  let pmcr ← mrcPmcr .user
  mcr .user .PMCR_EL0 (pmcr &&& ~~~PMCR_E)

/-- `main` of pmu_enable -/
def main : Code n Int := do
  pmuEnable
  pmuDisable
  return 0

/-! ## Runs -/

/-- What is done with the board: the module is loaded, an interrupt is taken, the program is
started, a thread goes on, or something happens in between. -/
inductive Doing (n : Nat) where
  | load (cpu : Fin n)
  | interrupt (cpu : Fin n)
  | execute
  | step (t : Nat)
  | world (w : World n)

def Doing.action : Doing n → Pool.Action (sig n) (Context n) (World n) Int
  | .load cpu => .spawn ⟨.pinned cpu, initModule⟩
  | .interrupt cpu => .spawn ⟨.pinned cpu, callInterrupt⟩
  | .execute => .spawn ⟨.process, main⟩
  | .step t => .step t
  | .world w => .world w

abbrev System (n : Nat) := Pool (sig n) (Context n) (Board n) Int

def System.booted (banks : Fin n → Bank) (place : Nat → Fin n) : System n :=
  ⟨.booted banks place, []⟩

def System.run (hw : Pmuv3) (x : System n) (doings : List (Doing n)) : System n :=
  Pool.run (kernel hw) (Board.act hw) x (doings.map Doing.action)

end Board

end Dreamscape.Pmu.UserAccess
