/-
# Monitor.Lifecycle -- loading and unloading cache_kprobe_monitor

The init code registers the probe and then makes the proc entry, and takes the probe away
again when there is no entry.  The kernel begins and ends each load and unload, one at a
time; a load whose init returns an error has failed and its exit code never runs.

A load has statics, a list and entries of its own, numbered from 0; what an earlier load
came to is kept in `past`, when it is over.  The gates, the events and the files are the
kernel's and stay.
-/
import Dreamscape.Monitor.Reach
import Dreamscape.Modules.Load

namespace Dreamscape.Monitor.Lifecycle

set_option autoImplicit false

open Theory Kernel Unloading

open Modules.Load (Phase)

/-! ## State -/

/-- `module` is the present load.  `procEntry` is the static of that name; `opened` is
history: this load has made its proc entry. -/
structure Machine where
  module : Unloading.Machine
  phase : Phase
  procEntry : Option Gate
  opened : Bool
  past : List Unloading.Machine

/-- A module nobody has asked anything of, its gates not registered. -/
def unregistered : Unloading.Machine :=
  { Unloading.Machine.initial with entrance := fun _ => ⟨false, []⟩ }

/-- Before the first load. -/
def Machine.initial : Machine where
  module := unregistered
  phase := .unloaded
  procEntry := none
  opened := false
  past := []

namespace Machine

variable (s : Machine)

def withModule (module : Unloading.Machine) : Machine := { s with module := module }

def register (g : Gate) : Machine :=
  s.withModule (s.module.atGate g { s.module.entrance g with registered := true })

/-- The statics of the module as they stand in its file, and its list empty. -/
def fresh : Machine where
  module :=
    { core :=
        { s.module.core with
          targetPid := -1
          mutex := none
          counterList := []
          heap := fun _ => none
          nextPtr := 0 }
      entrance := s.module.entrance
      allocated := []
      unlinked := []
      freed := [] }
  phase := s.phase
  procEntry := none
  opened := false
  past := s.past

/-- The present load is over. -/
def conclude (phase : Phase) : Machine := { s with phase := phase, past := s.past ++ [s.module] }

end Machine

/-- What a load meets besides. -/
structure LoadEnv where
  core : Env
  registerKprobe : Int
  procCreateFails : Bool

/-- A thread that makes the module's own calls. -/
def LoadEnv.visiting (core : Env) : LoadEnv := ⟨core, 0, false⟩

/-! ## Calls -/

inductive Call where
  | module (o : Unloading.Call)
  | beginInit
  | endInit (ret : Int)
  | beginExit
  | endExit
  | registerKprobe
  | procCreate
  | procEntry
  | setProcEntry (entry : Option Gate)

@[reducible] def Call.Ans : Call → Type
  | .module o => o.Ans
  | .registerKprobe => Int
  | .procCreate | .procEntry => Option Gate
  | .beginInit | .endInit _ | .beginExit | .endExit | .setProcEntry _ => Unit

abbrev calls : Sig := ⟨Call, Call.Ans⟩

/-- How the kernel answers thread `t`.  A second proc entry of one name is refused. -/
def loader (t : Tid) (e : LoadEnv) : Handler calls Fault Machine
  | .module o, s => (machine t e.core o s.module).mapState s.withModule
  | .beginInit, s =>
      if s.phase = .unloaded ∨ s.phase = .failed then
        .done () { s.fresh with phase := .loading t }
      else .blocked s
  | .endInit ret, s =>
      .done () (if ret < 0 then s.conclude .failed else { s with phase := .loaded })
  | .beginExit, s =>
      if s.phase = .loaded then .done () { s with phase := .unloading t } else .blocked s
  | .endExit, s => .done () (s.conclude .unloaded)
  | .registerKprobe, s =>
      .done e.registerKprobe (if e.registerKprobe < 0 then s else s.register .probe)
  | .procCreate, s =>
      if e.procCreateFails = true ∨ (s.module.entrance .procEntry).registered = true then
        .done none s
      else .done (some .procEntry) { s.register .procEntry with opened := true }
  | .procEntry, s => .done s.procEntry s
  | .setProcEntry entry, s => .done () { s with procEntry := entry }

abbrev LoadCode (α : Type) := Prog calls α

@[simp] def request (o : Call) : LoadCode o.Ans := .call (S := calls) o .ret

@[simp] def beginInit : LoadCode Unit := request .beginInit
@[simp] def endInit (ret : Int) : LoadCode Unit := request (.endInit ret)
@[simp] def beginExit : LoadCode Unit := request .beginExit
@[simp] def endExit : LoadCode Unit := request .endExit
@[simp] def registerKprobe : LoadCode Int := request .registerKprobe
@[simp] def procCreate : LoadCode (Option Gate) := request .procCreate
@[simp] def getProcEntry : LoadCode (Option Gate) := request .procEntry
@[simp] def setProcEntry (entry : Option Gate) : LoadCode Unit := request (.setProcEntry entry)

def embedding : Bodies Unloading.calls calls := fun o => request (.module o)

/-- Code of the calls of the handlers and of the unload. -/
def lift {α : Type} (p : UnloadCode α) : LoadCode α := p.expand embedding

/-! ## Init and exit -/

def perfCacheKprobeModuleInit : LoadCode Int := do
  let ret ← registerKprobe
  if ret < 0 then return ret
  else
    setProcEntry (← procCreate)
    match ← getProcEntry with
    | none =>
        lift unregisterKprobe
        return Errno.ENOMEM.code
    | some _ => return 0

/-- `proc_remove` of a null pointer does nothing. -/
def procRemove : Option Gate → LoadCode Unit
  | none => return ()
  | some g => lift (closeGate g)

/-- The deletion loop of the exit code, from the head of the list on. -/
def freeCounterList : UnloadCode Unit := do
  -- The chain is read for its length only.
  let chain ← Unloading.lift counterListEntries
  let entry ← nextEntry none
  let temp ← nextEntry entry
  freeEntries chain.length entry temp

def perfCacheKprobeModuleExit : LoadCode Unit := do
  lift unregisterKprobe
  procRemove (← getProcEntry)
  lift freeCounterList

/-- The kernel loads the module. -/
def load : LoadCode Unit := do
  beginInit
  endInit (← perfCacheKprobeModuleInit)

def unload : LoadCode Unit := do
  beginExit
  perfCacheKprobeModuleExit
  endExit

/-! ## Runs -/

inductive Deed where
  | load (e : LoadEnv)
  | unload (e : Env)
  | write (e : Env)
  | hit (e : Env) (regs : PtRegs)
  | step (t : Tid)

def Deed.action : Deed → Pool.Action calls LoadEnv Empty Unit
  | .load e => .spawn ⟨e, Lifecycle.load⟩
  | .unload e => .spawn ⟨.visiting e, Lifecycle.unload⟩
  | .write e =>
      .spawn ⟨.visiting e, lift (visit .procEntry (commandHandler e.userBuf.length))⟩
  | .hit e regs => .spawn ⟨.visiting e, lift (visit .probe (preHandler regs))⟩
  | .step t => .step t

/-- Nothing but the threads changes the machine. -/
def alone (w : Empty) : Machine → Machine := nomatch w

abbrev Threads := Pool calls LoadEnv Machine Unit

def start : Threads := ⟨.initial, []⟩

def after (deeds : List Deed) : Threads := Pool.run loader alone start (deeds.map Deed.action)

end Dreamscape.Monitor.Lifecycle
