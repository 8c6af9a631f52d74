/-
# Userland.CountersFile -- read_pmu_counters beside loads and unloads of pmu_kernel_module

`/proc/pmu_counters` is there between the init and the exit of the module, and the tool opens
it, reads it once and closes it.  Loads, unloads and tools run at once, call by call, on any
CPUs: a thread moves to another CPU between any two of its calls.

The kernel lets one load or unload go on at a time, and a load begins with `pmu_counters` at
zero.  While a read is inside the module the exit waits in `remove_proc_entry`, and a read that
comes after it is refused: the tool has the file open, but gets no text.  Removing the entry is
taken as one step, so a read that comes while the exit waits counts as come before.

Any call the code of the module makes while the module is not there is a fault.
-/
import Dreamscape.Theory.Sum
import Dreamscape.Modules.Load
import Dreamscape.Userland.ReadPmuCounters

namespace Dreamscape.Userland.CountersFile

set_option autoImplicit false

open Theory Kernel
open Pmu (U64 Field valueLine pmuProcShow pmuModuleInit pmuModuleExit)
open Modules.Load (Phase)

/-! ## Calls -/

/-- The calls of the kernel around the module, and of the tool.  `fopen` answers which entry was
opened, if any, and `enter` whether a read of that entry is let into the module. -/
inductive FileOp where
  | beginInit
  | endInit (ret : Int)
  | beginExit
  | endExit
  | fopen
  | enter (entry : Nat)
  | leave

@[reducible] def FileOp.Ans : FileOp → Type
  | .fopen => Option Nat
  | .enter _ => Bool
  | .beginInit | .endInit _ | .beginExit | .endExit | .leave => Unit

abbrev fileSig : Sig := ⟨FileOp, FileOp.Ans⟩

abbrev sig : Sig := Pmu.sig.sum fileSig

abbrev Code (α : Type) := Prog sig α

@[simp] def call (o : FileOp) : Code o.Ans := .call (S := sig) (.inr o) .ret

@[simp] def beginInit : Code Unit := call .beginInit
@[simp] def endInit (ret : Int) : Code Unit := call (.endInit ret)
@[simp] def beginExit : Code Unit := call .beginExit
@[simp] def endExit : Code Unit := call .endExit
@[simp] def fopen : Code (Option Nat) := call .fopen
@[simp] def enter (entry : Nat) : Code Bool := call (.enter entry)
@[simp] def leave : Code Unit := call .leave

/-! ## Programs -/

/-- What a thread meets: whether the proc entry and the file can be had, and what is on the
stack of the tool where its two variables are. -/
structure Setting where
  created : Bool
  opens : Bool
  strerror : List Char
  access : U64
  refill : U64

inductive Result where
  | done
  /-- A run of the tool, and what it left behind. -/
  | tool (setting : Setting) (ended : Ended)

/-- `init_module` -/
def load : Code Result := do
  beginInit
  endInit (← pmuModuleInit.inl)
  return .done

/-- `delete_module` -/
def unload : Code Result := do
  beginExit
  pmuModuleExit.inl
  endExit
  return .done

/-- The text the tool gets to scan, or the reason why it does not get the file. -/
def getText (e : Setting) : Code (Except (List Char) (List Char)) := do
  match ← fopen with
  | none => return .error e.strerror
  | some entry =>
      if ← enter entry then
        let text ← (pmuProcShow []).inl
        leave
        return .ok text
      else return .ok []

/-- `main` -/
def main (e : Setting) : Code Result := do
  return .tool e (readPmuCounters (← getText e) e.access e.refill)

/-! ## The machine -/

/-- The machine of the module, the number of its latest proc entry, the threads whose read is
inside the module, and the CPU each thread is on. -/
structure Board (n : Nat) where
  machine : Pmu.Machine n
  phase : Phase
  latest : Nat
  inside : List Nat
  place : Nat → Fin n

inductive Fault where
  | unmapped
  | notInside
  deriving DecidableEq

def absent : Phase → Bool
  | .unloaded | .failed => true
  | .loading _ | .loaded | .unloading _ => false

section Board

variable {n : Nat}

/-- Nothing has been loaded. -/
def Board.booted (banks : Fin n → Bank) (place : Nat → Fin n) : Board n :=
  ⟨.linked banks, .unloaded, 0, [], place⟩

/-- What becomes of the machine is seen on the board. -/
def Board.carry {α : Type} (b : Board n) : Outcome Empty (Pmu.Machine n) α → Outcome Fault (Board n) α
  | .done a m => .done a { b with machine := m }
  | .blocked m => .blocked { b with machine := m }
  | .fault f _ => f.elim

/-- The calls of the module's code. -/
def moduleCall (hw : Pmuv3) (t : Nat) (e : Setting) (o : Pmu.Op) (b : Board n) :
    Outcome Fault (Board n) o.Ans :=
  if absent b.phase then .fault .unmapped b
  else b.carry (Pmu.kernel hw (b.place t) e.created o b.machine)

def kernel (hw : Pmuv3) (t : Nat) (e : Setting) : Handler sig Fault (Board n)
  | .inl .procCreate, b => moduleCall hw t e .procCreate { b with latest := b.latest + 1 }
  | .inl .removeProcEntry, b =>
      if b.inside = [] then moduleCall hw t e .removeProcEntry b else .blocked b
  | .inl o, b => moduleCall hw t e o b
  | .inr .beginInit, b =>
      if absent b.phase then
        .done () { b with machine := { b.machine with pmuCounters := fun _ => 0 }, phase := .loading t }
      else .blocked b
  | .inr (.endInit ret), b => .done () { b with phase := if ret < 0 then .failed else .loaded }
  | .inr .beginExit, b =>
      if b.phase = .loaded then .done () { b with phase := .unloading t } else .blocked b
  | .inr .endExit, b => .done () { b with phase := .unloaded }
  | .inr .fopen, b => .done (if e.opens && b.machine.procEntry then some b.latest else none) b
  | .inr (.enter entry), b =>
      if b.machine.procEntry && entry = b.latest then .done true { b with inside := t :: b.inside }
      else .done false b
  | .inr .leave, b =>
      if t ∈ b.inside then .done () { b with inside := b.inside.erase t } else .fault .notInside b

/-- What happens between two calls. -/
inductive World (n : Nat) where
  | migrate (t : Nat) (cpu : Fin n)
  | hardware (cpu : Fin n) (ev : HwEvent)

def Board.act (hw : Pmuv3) : World n → Board n → Board n
  | .migrate t cpu, b => { b with place := Function.update b.place t cpu }
  | .hardware cpu ev, b => { b with machine := b.machine.onBank cpu fun bank => bank.observe hw ev }

/-! ## Runs -/

inductive Doing (n : Nat) where
  | load (e : Setting)
  | unload (e : Setting)
  | read (e : Setting)
  | step (t : Nat)
  | world (w : World n)

def Doing.action : Doing n → Pool.Action sig Setting (World n) Result
  | .load e => .spawn ⟨e, CountersFile.load⟩
  | .unload e => .spawn ⟨e, CountersFile.unload⟩
  | .read e => .spawn ⟨e, main e⟩
  | .step t => .step t
  | .world w => .world w

end Board

end Dreamscape.Userland.CountersFile
