/-
# Monitor.Unloading -- the exit code of cache_kprobe_monitor beside its handlers

The exit code takes the probe and the proc entry away and then goes through
`counter_list` and frees it.  It makes calls of its own, beside those of the handlers:
the kernel closes a gate and waits for who is inside, and the list is walked from one
entry to the next, since it changes under way.

A program is a finite tree, so the deletion loop gets the length of the list as a bound;
a loop that is not done by then spins and never returns.
-/
import Dreamscape.Monitor.Schedule
import Dreamscape.Theory.Atomic

namespace Dreamscape.Monitor.Unloading

set_option autoImplicit false

open Theory Kernel

/-! ## State -/

/-- A way into the module: the probe or its proc entry. -/
inductive Gate where
  | probe
  | procEntry
  deriving DecidableEq

/-- Who is inside, and whether others may enter. -/
structure Entrance where
  registered : Bool
  inside : List Tid

/-- The module with its gates, and the history of its entries: who allocated them, and
which were taken out of the list and freed, in that order. -/
structure Machine where
  core : State
  entrance : Gate → Entrance
  allocated : List (Tid × Ptr)
  unlinked : List Ptr
  freed : List Ptr

/-- After a successful load. -/
def Machine.initial : Machine where
  core := .initial
  entrance := fun _ => ⟨true, []⟩
  allocated := []
  unlinked := []
  freed := []

namespace Machine

variable (s : Machine)

def atGate (g : Gate) (e : Entrance) : Machine :=
  { s with entrance := Function.update s.entrance g e }

/-- The handlers' state after a call of thread `t`; the blocks the call was given are logged. -/
def withCore (t : Tid) (core : State) : Machine :=
  { s with
    core := core
    allocated := s.allocated ++
      (List.range' s.core.nextPtr (core.nextPtr - s.core.nextPtr)).map fun p => (t, p) }

/-- The entries ever allocated. -/
def entries : List Ptr := s.allocated.map Prod.snd

end Machine

/-- The entry behind `p` in the list. -/
def successor : List Ptr → Ptr → Option Ptr
  | [], _ => none
  | q :: rest, p => if q = p then rest.head? else successor rest p

/-! ## Calls -/

/-- `nextEntry` reads the link of an entry, or of the list's head; the answer is `none` if the
link leads to the head. -/
inductive Call where
  | core (o : Op)
  | enter (g : Gate)
  | leave (g : Gate)
  | unlist (g : Gate)
  | drain (g : Gate)
  | nextEntry (entry : Option Ptr)
  | listDel (entry : Ptr)
  | kfree (entry : Ptr)
  | spin

@[reducible] def Call.Ans : Call → Type
  | .core o => o.Ans
  | .enter _ => Bool
  | .nextEntry _ => Option Ptr
  | .leave _ | .unlist _ | .drain _ | .listDel _ | .kfree _ | .spin => Unit

abbrev calls : Sig := ⟨Call, Call.Ans⟩

/-- Use an allocated entry. -/
def Machine.onEntry {α : Type} (s : Machine) (p : Ptr) (x : Outcome Fault Machine α) :
    Outcome Fault Machine α :=
  match s.core.heap p with
  | none => .fault .badPointer s
  | some _ => x

/-- How the kernel answers thread `t`. -/
def machine (t : Tid) (e : Env) : Handler calls Fault Machine
  | .core o, s => (kernel t e o s.core).mapState (s.withCore t)
  | .enter g, s =>
      if (s.entrance g).registered then
        .done true (s.atGate g { s.entrance g with inside := t :: (s.entrance g).inside })
      else .done false s
  | .leave g, s =>
      .done () (s.atGate g { s.entrance g with inside := (s.entrance g).inside.erase t })
  | .unlist g, s => .done () (s.atGate g { s.entrance g with registered := false })
  | .drain g, s => if (s.entrance g).inside = [] then .done () s else .blocked s
  | .nextEntry none, s => .done s.core.counterList.head? s
  | .nextEntry (some p), s => s.onEntry p (.done (successor s.core.counterList p) s)
  | .listDel p, s =>
      s.onEntry p
        (if p ∈ s.core.counterList then
          .done ()
            { s with
              core := { s.core with counterList := s.core.counterList.erase p }
              unlinked := s.unlinked ++ [p] }
        else .fault .badPointer s)
  | .kfree p, s =>
      s.onEntry p (.done ()
        { s with
          core := { s.core with heap := Function.update s.core.heap p none }
          freed := s.freed ++ [p] })
  | .spin, s => .blocked s

abbrev UnloadCode (α : Type) := Prog calls α

@[simp] def request (o : Call) : UnloadCode o.Ans := .call (S := calls) o .ret

@[simp] def enter (g : Gate) : UnloadCode Bool := request (.enter g)
@[simp] def leave (g : Gate) : UnloadCode Unit := request (.leave g)
@[simp] def unlist (g : Gate) : UnloadCode Unit := request (.unlist g)
@[simp] def drain (g : Gate) : UnloadCode Unit := request (.drain g)
@[simp] def nextEntry (entry : Option Ptr) : UnloadCode (Option Ptr) := request (.nextEntry entry)
@[simp] def listDel (entry : Ptr) : UnloadCode Unit := request (.listDel entry)
@[simp] def kfree (entry : Ptr) : UnloadCode Unit := request (.kfree entry)
@[simp] def spin : UnloadCode Unit := request .spin

def embedding : Bodies sig calls := fun o => request (.core o)

/-- Code of the handlers' calls. -/
def lift {α : Type} (p : Code α) : UnloadCode α := p.expand embedding

/-! ## Handlers and exit -/

/-- A handler runs between `use_pde` and `unuse_pde`, or inside the probe. -/
def visit (g : Gate) (body : Code Int) : UnloadCode Unit := do
  if ← enter g then
    let _ ← lift body
    leave g
  else return ()

/-- Nobody enters any more, and who is inside is waited for. -/
def closeGate (g : Gate) : UnloadCode Unit := do
  unlist g
  drain g

def unregisterKprobe : UnloadCode Unit := closeGate .probe

def procRemove : UnloadCode Unit := closeGate .procEntry

/-- The body and the step of `list_for_each_entry_safe`: `temp` was read before `entry` is
deleted. -/
def freeEntries : Nat → Option Ptr → Option Ptr → UnloadCode Unit
  | _, none, _ => return ()
  | 0, some _, _ => spin
  | bound + 1, some entry, temp => do
      listDel entry
      kfree entry
      freeEntries bound temp (← nextEntry temp)

def perfCacheKprobeModuleExit : UnloadCode Unit := do
  unregisterKprobe
  procRemove
  -- The chain is read for its length only.
  let chain ← lift counterListEntries
  let entry ← nextEntry none
  let temp ← nextEntry entry
  freeEntries chain.length entry temp

/-! ## Runs -/

inductive Happening where
  | write (env : Env)
  | hit (env : Env) (regs : PtRegs)
  | step (t : Tid)

def Happening.action : Happening → Pool.Action calls Env Empty Unit
  | .write env => .spawn ⟨env, visit .procEntry (commandHandler env.userBuf.length)⟩
  | .hit env regs => .spawn ⟨env, visit .probe (preHandler regs)⟩
  | .step t => .step t

/-- Nothing but the module's threads changes the machine. -/
def alone (w : Empty) : Machine → Machine := nomatch w

abbrev Threads := Pool calls Env Machine Unit

/-- The loaded module; thread 0 is the unload, which may begin at any time. -/
def loaded : Threads := ⟨.initial, [⟨.quiet, perfCacheKprobeModuleExit⟩]⟩

def after (happenings : List Happening) : Threads :=
  Pool.run machine alone loaded (happenings.map Happening.action)

end Dreamscape.Monitor.Unloading
