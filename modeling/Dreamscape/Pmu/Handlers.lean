/-
# Pmu.Handlers -- the code of pmu_kernel_module

`pmu_module.c` on a machine with `n` CPUs, each with its own bank of performance
monitors: a register access goes to the bank of the CPU the code runs on.  The machine
also keeps `pmu_counters`, which starts at zero, the proc entry and the log.
`proc_create` is the one call that can fail.
-/
import Dreamscape.Theory.Program
import Dreamscape.Kernel.Pmu
import Dreamscape.Kernel.Text

namespace Dreamscape.Pmu

set_option autoImplicit false

open Theory Kernel

abbrev U64 := BitVec 64

/-! ## Calls -/

/-- The fields of `struct pmu_counters`. -/
inductive Field where
  | l1DataCacheAccess
  | l1DataCacheRefill
  | l1InstCacheAccess
  | l1InstCacheRefill
  deriving DecidableEq

/-- `struct pmu_counters` -/
abbrev PmuCounters := Field → U64

structure Machine (n : Nat) where
  banks : Fin n → Bank
  pmuCounters : PmuCounters
  procEntry : Bool
  log : List (List Char)

/-- The machine when the module has been linked in and its init has not run. -/
def Machine.linked {n : Nat} (banks : Fin n → Bank) : Machine n := ⟨banks, fun _ => 0, false, []⟩

inductive Op where
  | msr (reg : SysReg) (v : U64)
  | mrsPmcr
  | mrsPmxevcntr
  | pmuCounter (field : Field)
  | setPmuCounter (field : Field) (v : U64)
  | procCreate
  | removeProcEntry
  | printk (text : List Char)

@[reducible] def Op.Ans : Op → Type
  | .mrsPmcr | .mrsPmxevcntr | .pmuCounter _ => U64
  | .procCreate => Bool
  | .msr .. | .setPmuCounter .. | .removeProcEntry | .printk _ => Unit

abbrev sig : Sig := ⟨Op, Op.Ans⟩

/-- Change the bank of one CPU. -/
def Machine.onBank {n : Nat} (m : Machine n) (cpu : Fin n) (f : Bank → Bank) : Machine n :=
  { m with banks := Function.update m.banks cpu (f (m.banks cpu)) }

/-- How the machine answers code that runs on `cpu`; `created` says whether a proc entry
can be created. -/
def kernel {n : Nat} (hw : Pmuv3) (cpu : Fin n) (created : Bool) : Handler sig Empty (Machine n)
  | .msr reg v, m => .done () (m.onBank cpu fun b => b.msr hw reg v)
  | .mrsPmcr, m => .done (m.banks cpu).mrsPmcr m
  | .mrsPmxevcntr, m => .done ((m.banks cpu).mrsPmxevcntr hw) m
  | .pmuCounter field, m => .done (m.pmuCounters field) m
  | .setPmuCounter field v, m =>
      .done () { m with pmuCounters := Function.update m.pmuCounters field v }
  | .procCreate, m => .done created { m with procEntry := m.procEntry || created }
  | .removeProcEntry, m => .done () { m with procEntry := false }
  | .printk text, m => .done () { m with log := m.log ++ [text] }

abbrev Code (α : Type) := Prog sig α

@[simp] def call (o : Op) : Code o.Ans := .call (S := sig) o .ret

@[simp] def msr (reg : SysReg) (v : U64) : Code Unit := call (.msr reg v)
@[simp] def mrsPmcr : Code U64 := call .mrsPmcr
@[simp] def mrsPmxevcntr : Code U64 := call .mrsPmxevcntr
@[simp] def getPmuCounter (field : Field) : Code U64 := call (.pmuCounter field)
@[simp] def setPmuCounter (field : Field) (v : U64) : Code Unit := call (.setPmuCounter field v)
@[simp] def procCreate : Code Bool := call .procCreate
@[simp] def removeProcEntry : Code Unit := call .removeProcEntry
@[simp] def printk (text : List Char) : Code Unit := call (.printk text)

/-! ## The module -/

def ARMV8_PMCR_E : U64 := (1 : U64) <<< 0

def ARMV8_EVENT_L1D_CACHE_ACCESS : BitVec 32 := 0x04
def ARMV8_EVENT_L1D_CACHE_REFILL : BitVec 32 := 0x03
def ARMV8_EVENT_L1I_CACHE_REFILL : BitVec 32 := 0x01
def ARMV8_EVENT_L1I_CACHE_ACCESS : BitVec 32 := 0x14

/-- `label` with a value after it, as `seq_printf` and `printk` format it. -/
def valueLine (label : List Char) (v : U64) : List Char := label ++ formatU64 v ++ ['\n']

/-- `pmu_proc_show(m, v)`: the text of `m` grows by four lines. -/
def pmuProcShow (m : List Char) : Code (List Char) := do
  let m := m ++ valueLine "L1 data cache access: ".toList (← getPmuCounter .l1DataCacheAccess)
  let m := m ++ valueLine "L1 data cache refill: ".toList (← getPmuCounter .l1DataCacheRefill)
  let m := m ++ valueLine "L1 instruction cache access: ".toList (← getPmuCounter .l1InstCacheAccess)
  let m := m ++ valueLine "L1 instruction cache refill: ".toList (← getPmuCounter .l1InstCacheRefill)
  return m

def configureEventCounter (counterIndex eventCode : BitVec 32) : Code Unit := do
  msr .PMSELR_EL0 (counterIndex.setWidth 64)
  msr .PMXEVTYPER_EL0 (eventCode.setWidth 64)
  msr .PMXEVCNTR_EL0 0
  let counterSetBit := (1 : U64) <<< counterIndex.toNat
  msr .PMCNTENSET_EL0 counterSetBit

def pmuModuleInit : Code Int := do
  -- The encodings of the two registers are written as if they were their contents.
  msr .PMUSERENR_EL0 SYS_PMUSERENR_EL0
  msr .PMCNTENSET_EL0 SYS_PMCNTENSET_EL0
  let val ← mrsPmcr
  msr .PMCR_EL0 (val ||| ARMV8_PMCR_E)
  configureEventCounter 0 ARMV8_EVENT_L1D_CACHE_ACCESS
  configureEventCounter 1 ARMV8_EVENT_L1D_CACHE_REFILL
  configureEventCounter 2 ARMV8_EVENT_L1I_CACHE_ACCESS
  configureEventCounter 3 ARMV8_EVENT_L1I_CACHE_REFILL
  if ← procCreate then
    printk "PMU kernel module loaded\n".toList
    return 0
  else return Errno.ENOMEM.code

def pmuModuleExit : Code Unit := do
  msr .PMSELR_EL0 0
  let counterValueDaccess ← mrsPmxevcntr
  msr .PMSELR_EL0 1
  let counterValueDrefill ← mrsPmxevcntr
  msr .PMSELR_EL0 2
  let counterValueIaccess ← mrsPmxevcntr
  msr .PMSELR_EL0 3
  let counterValueIrefill ← mrsPmxevcntr
  printk (valueLine "PMU counter value (L1 data cache access): ".toList counterValueDaccess)
  printk (valueLine "PMU counter value (L1 data cache refill): ".toList counterValueDrefill)
  printk (valueLine "PMU counter value (L1 instruction cache access): ".toList counterValueIaccess)
  printk (valueLine "PMU counter value (L1 instruction cache refill): ".toList counterValueIrefill)
  -- `pmcr_val` is a `u32`.
  let pmcrVal : BitVec 32 := (← mrsPmcr).setWidth 32
  msr .PMCR_EL0 ((pmcrVal &&& ~~~(ARMV8_PMCR_E.setWidth 32)).setWidth 64)
  setPmuCounter .l1DataCacheAccess counterValueDaccess
  setPmuCounter .l1DataCacheRefill counterValueDrefill
  setPmuCounter .l1InstCacheAccess counterValueIaccess
  setPmuCounter .l1InstCacheRefill counterValueIrefill
  removeProcEntry
  printk "PMU kernel module unloaded\n".toList

end Dreamscape.Pmu
