/-
# Kernel.Perf -- performance events of the machine

The event codes both monitors count, the attributes an event is created with, and
what an event counts.  A counter created on a CPU without a task counts every task
that runs there; one created for a task counts that task only.  A counter created
disabled counts nothing until it is enabled, and neither monitor enables one.
-/
import Mathlib.Data.BitVec
import Mathlib.Data.List.Basic

namespace Dreamscape.Kernel

set_option autoImplicit false

/-- `enum event_code` -/
inductive EventCode where
  | L1I_CACHE_REFILL
  | L1I_TLB_REFILL
  | L1D_CACHE_REFILL
  | L1D_CACHE_ACCESS
  | L1D_TLB_REFILL
  | LD_RETIRED
  | ST_RETIRED
  | INST_RETIRED
  | CPU_CYCLES
  | BR_PRED
  | MEM_ACCESS
  | L1I_CACHE
  | L1D_CACHE_WB
  deriving DecidableEq

def EventCode.code : EventCode → BitVec 32
  | .L1I_CACHE_REFILL => 0x01
  | .L1I_TLB_REFILL => 0x02
  | .L1D_CACHE_REFILL => 0x03
  | .L1D_CACHE_ACCESS => 0x04
  | .L1D_TLB_REFILL => 0x05
  | .LD_RETIRED => 0x06
  | .ST_RETIRED => 0x07
  | .INST_RETIRED => 0x08
  | .CPU_CYCLES => 0x11
  | .BR_PRED => 0x12
  | .MEM_ACCESS => 0x13
  | .L1I_CACHE => 0x14
  | .L1D_CACHE_WB => 0x15

/-- `event_codes[]`, the same table in both monitors. -/
def eventCodes : List (BitVec 32) :=
  [EventCode.L1I_CACHE_REFILL, .L1I_TLB_REFILL, .L1D_CACHE_REFILL, .L1D_CACHE_ACCESS,
    .L1D_TLB_REFILL, .LD_RETIRED, .ST_RETIRED, .INST_RETIRED, .CPU_CYCLES, .BR_PRED, .MEM_ACCESS,
    .L1I_CACHE, .L1D_CACHE_WB].map EventCode.code

inductive PerfType where
  | PERF_TYPE_RAW
  deriving DecidableEq

/-- The fields of `struct perf_event_attr` the monitors set; `memset` clears the rest. -/
structure PerfEventAttr where
  type : PerfType
  config : BitVec 32
  disabled : Bool := false
  excludeKernel : Bool := false
  excludeHv : Bool := false
  excludeIdle : Bool := false
  deriving DecidableEq

/-- A created event.  `task = none` is the null task. -/
structure PerfEvent where
  id : Nat
  attr : PerfEventAttr
  cpu : Int
  task : Option Nat
  deriving DecidableEq

/-! ## What the hardware generates -/

inductive Mode where
  | user
  | kernel
  | hypervisor
  deriving DecidableEq

/-- One hardware event: the CPU it happened on, the task that ran there (a process
number, 0 for the idle task) and the mode it ran in. -/
structure Occurrence where
  cpu : Nat
  pid : Nat
  code : BitVec 32
  mode : Mode
  deriving DecidableEq

/-- The occurrences an enabled event counts. -/
def PerfEvent.observes (ev : PerfEvent) (occ : Occurrence) : Bool :=
  occ.code == ev.attr.config && (ev.cpu == -1 || ev.cpu == occ.cpu) && ev.task.all (· == occ.pid) &&
    !(ev.attr.excludeKernel && occ.mode == .kernel) &&
    !(ev.attr.excludeHv && occ.mode == .hypervisor) &&
    !(ev.attr.excludeIdle && occ.pid == 0)

/-- What an event has counted when `occs` happened since it was created. -/
def PerfEvent.counted (ev : PerfEvent) (occs : List Occurrence) : BitVec 64 :=
  if ev.attr.disabled then 0 else BitVec.ofNat 64 (occs.countP ev.observes)

/-- Without a task, an event needs a CPU of the machine. -/
def validTarget (cpus : Nat) (cpu : Int) (task : Option Nat) : Bool :=
  task.isSome || (0 ≤ cpu && cpu < cpus)

theorem eventCodes_length : eventCodes.length = 13 := rfl

end Dreamscape.Kernel
