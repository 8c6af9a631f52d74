/-
# Modules.Load -- the init and exit code of the two modules

The code that loads and unloads a module makes calls of its own, beside those of the
module's handlers: it registers the probe, makes the proc entries, and keeps their addresses
in `proc_entry_pid` and `proc_entry_message`.  The kernel begins and ends it, one load or
unload at a time; a load whose init returns an error has failed.

A module that is loaded again has new statics, the timer among them.  The gates, the tasks
and the heap stay, and the events that were there before can be told from those of the load
by `earlier`.
-/
import Dreamscape.Modules.Handlers
import Dreamscape.MonitorV2.Quiescence
import Dreamscape.Theory.Atomic

namespace Dreamscape.Modules.Load

set_option autoImplicit false

open Theory Kernel MonitorV2

/-! ## State -/

/-- The state of the module in the kernel's eyes, and the thread that is changing it. -/
inductive Phase where
  | unloaded
  | failed
  | loading (t : Tid)
  | loaded
  | unloading (t : Tid)
  deriving DecidableEq

def Phase.owner : Phase → Option Tid
  | .loading t | .unloading t => some t
  | .unloaded | .failed | .loaded => none

structure Machine where
  core : State
  phase : Phase
  entries : Gate → Option Gate
  earlier : Nat

/-- Before the first load. -/
def Machine.initial : Machine where
  core := { State.initial with entrance := fun _ => ⟨false, []⟩ }
  phase := .unloaded
  entries := fun _ => none
  earlier := 0

namespace Machine

variable (s : Machine)

def withCore (core : State) : Machine := { s with core := core }

def registered (g : Gate) : Bool := (s.core.entrance g).registered

def inside (g : Gate) : List Tid := (s.core.entrance g).inside

def register (g : Gate) : Machine :=
  s.withCore (s.core.atGate g { s.core.entrance g with registered := true })

/-- The statics of the module as they stand in its file. -/
def fresh : Machine where
  core :=
    { s.core with
      holdings :=
        { s.core.holdings with
          targetPid := -1
          monitoredTask := none
          perfData := none
          timerInitialised := false }
      sampleInterval := 0
      enqueued := false
      running := none
      clobbered := false
      messageBuffer := []
      bufferLock := none }
  phase := s.phase
  entries := fun _ => none
  earlier := s.core.holdings.created.length

/-- The events made since the load began. -/
def events : List PerfEvent := s.core.holdings.created.drop s.earlier

end Machine

/-- What a load meets besides. -/
structure LoadEnv where
  core : Env
  registerKprobe : Int
  procCreateFails : Gate → Bool

/-- A load in which nothing fails. -/
def LoadEnv.quiet : LoadEnv := ⟨.quiet, 0, fun _ => false⟩

/-! ## Calls -/

inductive Call where
  | core (o : Op)
  | beginInit
  | endInit (ret : Int)
  | beginExit
  | endExit
  | registerKprobe
  | procCreate (g : Gate)
  | procEntry (g : Gate)
  | setProcEntry (g : Gate) (entry : Option Gate)

@[reducible] def Call.Ans : Call → Type
  | .core o => o.Ans
  | .registerKprobe => Int
  | .procCreate _ | .procEntry _ => Option Gate
  | .beginInit | .endInit _ | .beginExit | .endExit | .setProcEntry .. => Unit

abbrev calls : Sig := ⟨Call, Call.Ans⟩

/-- How the kernel answers thread `t`.  A second proc entry of one name is refused. -/
def loader (t : Tid) (e : LoadEnv) : Handler calls Fault Machine
  | .core o, s => (kernel t e.core o s.core).mapState s.withCore
  | .beginInit, s =>
      if s.phase = .unloaded ∨ s.phase = .failed then
        .done () { s.fresh with phase := .loading t }
      else .blocked s
  | .endInit ret, s => .done () { s with phase := if ret < 0 then .failed else .loaded }
  | .beginExit, s =>
      if s.phase = .loaded then .done () { s with phase := .unloading t } else .blocked s
  | .endExit, s => .done () { s with phase := .unloaded }
  | .registerKprobe, s =>
      .done e.registerKprobe (if e.registerKprobe < 0 then s else s.register .probe)
  | .procCreate g, s =>
      if e.procCreateFails g = true ∨ s.registered g = true then .done none s
      else .done (some g) (s.register g)
  | .procEntry g, s => .done (s.entries g) s
  | .setProcEntry g entry, s => .done () { s with entries := Function.update s.entries g entry }

abbrev LoadCode (α : Type) := Prog calls α

@[simp] def request (o : Call) : LoadCode o.Ans := .call (S := calls) o .ret

@[simp] def beginInit : LoadCode Unit := request .beginInit
@[simp] def endInit (ret : Int) : LoadCode Unit := request (.endInit ret)
@[simp] def beginExit : LoadCode Unit := request .beginExit
@[simp] def endExit : LoadCode Unit := request .endExit
@[simp] def registerKprobe : LoadCode Int := request .registerKprobe
@[simp] def procCreate (g : Gate) : LoadCode (Option Gate) := request (.procCreate g)
@[simp] def getProcEntry (g : Gate) : LoadCode (Option Gate) := request (.procEntry g)
@[simp] def setProcEntry (g : Gate) (entry : Option Gate) : LoadCode Unit :=
  request (.setProcEntry g entry)

def embedding : Bodies sig calls := fun o => request (.core o)

/-- Code of the module's own calls. -/
def lift {α : Type} (p : Code α) : LoadCode α := p.expand embedding

/-! ## Init and exit -/

def unregisterKprobe : LoadCode Unit := lift (closeGate .probe)

/-- `proc_remove` of a null pointer does nothing. -/
def procRemove : Option Gate → LoadCode Unit
  | none => return ()
  | some g => lift (closeGate g)

/-- The init code of either module; `undo` is what it does besides when it has no entry
for the pid. -/
def initModule (undo : LoadCode Unit) : LoadCode Int := do
  let ret ← registerKprobe
  if ret < 0 then return ret
  else
    setProcEntry .pidEntry (← procCreate .pidEntry)
    match ← getProcEntry .pidEntry with
    | none =>
        unregisterKprobe
        undo
        return Errno.ENOMEM.code
    | some _ =>
        setProcEntry .messageEntry (← procCreate .messageEntry)
        match ← getProcEntry .messageEntry with
        | none =>
            unregisterKprobe
            procRemove (← getProcEntry .messageEntry)
            return Errno.ENOMEM.code
        | some _ => return 0

def cacheKprobeMonitorV2Init : LoadCode Int :=
  initModule do procRemove (← getProcEntry .pidEntry)

def helloSwitchInit : LoadCode Int := initModule (return ())

/-- The end of the exit code of either module. -/
def exitModule : LoadCode Unit := do
  procRemove (← getProcEntry .messageEntry)
  procRemove (← getProcEntry .pidEntry)
  unregisterKprobe

def cacheKprobeMonitorV2Exit : LoadCode Unit := do
  lift (stopMonitoring eventCodes)
  exitModule

def helloSwitchExit : LoadCode Unit := exitModule

def init : Module → LoadCode Int
  | .cacheKprobeMonitorV2 => cacheKprobeMonitorV2Init
  | .testModule => helloSwitchInit

def exit : Module → LoadCode Unit
  | .cacheKprobeMonitorV2 => cacheKprobeMonitorV2Exit
  | .testModule => helloSwitchExit

/-- The kernel loads the module. -/
def load (m : Module) : LoadCode Unit := do
  beginInit
  endInit (← init m)

def unload (m : Module) : LoadCode Unit := do
  beginExit
  exit m
  endExit

/-! ## Runs -/

inductive Deed where
  | load (e : LoadEnv)
  | unload (e : Env)
  | write (e : Env)
  | read (e : Env) (count : Nat) (ppos : Int)
  | switch (e : Env)
  | expire (e : Env)
  | step (t : Tid)
  | die (task : Task)

/-- A thread of the module's own calls. -/
def visitor (e : Env) (p : Code Unit) : Thread calls LoadEnv Unit :=
  ⟨{ LoadEnv.quiet with core := e }, lift p⟩

def Deed.action (m : Module) : Deed → Pool.Action calls LoadEnv Task Unit
  | .load e => .spawn ⟨e, Load.load m⟩
  | .unload e => .spawn ⟨{ LoadEnv.quiet with core := e }, Load.unload m⟩
  | .write e => .spawn (visitor e (visit .pidEntry Errno.removed (m.pidWrite e.userBuf.length)))
  | .read e count ppos =>
      .spawn (visitor e (visit .messageEntry (Errno.removed, ppos) (m.messageRead count ppos)))
  | .switch e => .spawn (visitor e (visit .probe 0 m.helloSwitch))
  | .expire e => .spawn (visitor e timerInterrupt)
  | .step t => .step t
  | .die task => .world task

def buried (task : Task) (s : Machine) : Machine := s.withCore (s.core.bury task)

def start : Pool calls LoadEnv Machine Unit := ⟨.initial, []⟩

def after (m : Module) (deeds : List Deed) : Pool calls LoadEnv Machine Unit :=
  Pool.run loader buried start (deeds.map (Deed.action m))

end Dreamscape.Modules.Load
