/-
# Userland.Processes -- a program that forks, and the kernel under it

A tool starts as one process and may fork once.  Both processes then have the same code
left to run, and only the answer to `fork` tells them apart.  `execvp` puts another program
in place of the tool: of that one only its instructions and its exit matter.

`SIGSTOP` is taken some time after it was sent, at any point between two steps of the child;
a stopped process makes no step, and nobody here continues it.  A performance event counts
what happens in the process that opened it while it is enabled; its descriptor is shared
by both, and since there is one event the calls on it do not look at the descriptor.  A run
is any list of actions, so every interleaving is one; an action that is not possible changes
nothing.
-/
import Dreamscape.Theory.Protocol
import Dreamscape.Kernel.Perf
import Dreamscape.Kernel.Text

namespace Dreamscape.Userland

set_option autoImplicit false

open Theory Kernel

/-! ## Calls -/

/-- The requests of `ioctl` on a performance event. -/
inductive PerfRequest where
  | PERF_EVENT_IOC_RESET
  | PERF_EVENT_IOC_ENABLE
  | PERF_EVENT_IOC_DISABLE
  deriving DecidableEq

/-- The calls the tools make.  `execvp` is given no file when its argument is null, and then
the process crashes in it; `kill` sends `SIGSTOP`; `waitpid` is told whether `WUNTRACED` is set. -/
inductive Op where
  | fork
  | execvp (file : Option (List Char)) (argv : List (List Char))
  | exit (status : Int)
  | killStop (pid : Int)
  | waitpid (pid : Int) (untraced : Bool)
  | perror (text : List Char)
  | eprintf (text : List Char)
  | printf (text : List Char)
  | perfEventOpen (attr : PerfEventAttr) (pid cpu : Int)
  | ioctl (fd : Int) (request : PerfRequest)
  | readCount (fd : Int)
  | close (fd : Int)

/-- `execvp` only returns when it fails, and `exit` never does.  A read gives the count, or
nothing when it fails. -/
@[reducible] def Op.Ans : Op → Type
  | .fork | .execvp .. | .killStop _ | .waitpid .. | .perfEventOpen .. | .ioctl .. => Int
  | .exit _ => Empty
  | .readCount _ => Option (BitVec 64)
  | .perror _ | .eprintf _ | .printf _ | .close _ => Unit

abbrev sig : Sig := ⟨Op, Op.Ans⟩

abbrev Code (α : Type) := Prog sig α

@[simp] def call (o : Op) : Code o.Ans := .call (S := sig) o .ret

@[simp] def fork : Code Int := call .fork
@[simp] def execvp (file : Option (List Char)) (argv : List (List Char)) : Code Int :=
  call (.execvp file argv)
@[simp] def exit {α : Type} (status : Int) : Code α := .call (S := sig) (.exit status) nofun
@[simp] def killStop (pid : Int) : Code Int := call (.killStop pid)
@[simp] def waitpid (pid : Int) (untraced : Bool) : Code Int := call (.waitpid pid untraced)
@[simp] def perror (text : List Char) : Code Unit := call (.perror text)
@[simp] def eprintf (text : List Char) : Code Unit := call (.eprintf text)
@[simp] def printf (text : List Char) : Code Unit := call (.printf text)
@[simp] def perfEventOpen (attr : PerfEventAttr) (pid cpu : Int) : Code Int :=
  call (.perfEventOpen attr pid cpu)
@[simp] def ioctl (fd : Int) (request : PerfRequest) : Code Int := call (.ioctl fd request)
@[simp] def readCount (fd : Int) : Code (Option (BitVec 64)) := call (.readCount fd)
@[simp] def close (fd : Int) : Code Unit := call (.close fd)

/-! ## Processes -/

inductive Pid where
  | parent
  | child
  deriving DecidableEq

inductive Stream where
  | stdout
  | stderr
  deriving DecidableEq

/-- What a process runs: the rest of the tool, or the program `execvp` put in its place, which
has executed so many instructions. -/
inductive Image where
  | tool (rest : Code Int)
  | program (file : List Char) (argv : List (List Char)) (executed : Nat)

inductive Life where
  | running
  | stopped
  | exited (status : Int)
  | crashed
  deriving DecidableEq

structure Process where
  image : Image
  life : Life

/-- A performance event, whether it is enabled and what it has counted. -/
structure Counter where
  event : PerfEvent
  enabled : Bool
  count : BitVec 64

/-- A hardware event in one of the processes: did it happen in a program `execvp` started? -/
structure Witnessed where
  pid : Pid
  inProgram : Bool
  occurrence : Occurrence

/-- The two processes, the stop sent to the child and not yet taken, the open event, and what
was printed and what happened so far. -/
structure System where
  parent : Process
  child : Option Process
  stopPending : Bool
  counter : Option Counter
  output : List (Pid × Stream × List Char)
  happened : List Witnessed

/-- What the kernel grants: process numbers, whether a fork succeeds, which programs there
are, and which calls fail. -/
structure Env where
  pidOf : Pid → Nat
  positive : ∀ p, 0 < pidOf p
  distinct : pidOf .parent ≠ pidOf .child
  forks : Bool
  installed : List Char → Bool
  killFails : Bool
  waitFails : Bool
  perfOpens : Bool
  ioctlFails : Pid → PerfRequest → Bool
  readFails : Bool

/-- A kernel that grants everything. -/
def Env.granting : Env where
  pidOf
    | .parent => 100
    | .child => 101
  positive p := by cases p <;> decide
  distinct := by decide
  forks := true
  installed _ := true
  killFails := false
  waitFails := false
  perfOpens := true
  ioctlFails _ _ := false
  readFails := false

def System.proc (x : System) : Pid → Option Process
  | .parent => some x.parent
  | .child => x.child

def System.setProc (x : System) (p : Pid) (proc : Process) : System :=
  match p with
  | .parent => { x with parent := proc }
  | .child => { x with child := some proc }

/-- The process goes on with `rest`. -/
def System.resume (x : System) (p : Pid) (rest : Code Int) : System :=
  x.setProc p ⟨.tool rest, .running⟩

/-- The tool has been started with this code. -/
def System.started (main : Code Int) : System :=
  ⟨⟨.tool main, .running⟩, none, false, none, [], []⟩

def System.print (x : System) (p : Pid) (stream : Stream) (text : List Char) : System :=
  { x with output := x.output ++ [(p, stream, text)] }

def Counter.request (c : Counter) : PerfRequest → Counter
  | .PERF_EVENT_IOC_RESET => { c with count := 0 }
  | .PERF_EVENT_IOC_ENABLE => { c with enabled := true }
  | .PERF_EVENT_IOC_DISABLE => { c with enabled := false }

def Counter.observe (c : Counter) (occ : Occurrence) : Counter :=
  if c.enabled && c.event.observes occ then { c with count := c.count + 1 } else c

/-! ## Steps -/

/-- Process `p` makes a call of the tool, from which it goes on with `k`. -/
def System.perform (e : Env) (x : System) (p : Pid) : (o : Op) → (o.Ans → Code Int) → System
  | .fork, k =>
      if e.forks ∧ p = .parent ∧ x.child.isNone then
        { x.resume p (k (e.pidOf .child)) with child := some ⟨.tool (k 0), .running⟩ }
      else x.resume p (k (-1))
  | .execvp file argv, k =>
      match file with
      | some path =>
          if e.installed path then x.setProc p ⟨.program path argv 0, .running⟩
          else x.resume p (k (-1))
      | none => x.setProc p ⟨.tool (.call (.execvp none argv) k), .crashed⟩
  | .exit status, k => x.setProc p ⟨.tool (.call (.exit status) k), .exited status⟩
  | .killStop pid, k =>
      if e.killFails ∨ pid ≠ e.pidOf .child ∨ x.child.isNone then x.resume p (k (-1))
      else { x.resume p (k 0) with stopPending := true }
  | .waitpid pid untraced, k =>
      if e.waitFails ∨ p = .child ∨ pid ≠ e.pidOf .child then x.resume p (k (-1))
      else
        match x.child with
        | none => x.resume p (k (-1))
        | some proc =>
            match proc.life with
            | .exited _ | .crashed => x.resume p (k pid)
            | .stopped => if untraced then x.resume p (k pid) else x
            | .running => x
  | .perror text, k => (x.print p .stderr text).resume p (k ())
  | .eprintf text, k => (x.print p .stderr text).resume p (k ())
  | .printf text, k => (x.print p .stdout text).resume p (k ())
  | .perfEventOpen attr pid cpu, k =>
      if e.perfOpens then
        let task := if pid = 0 then e.pidOf p else pid.toNat
        { x.resume p (k 3) with counter := some ⟨⟨0, attr, cpu, some task⟩, !attr.disabled, 0⟩ }
      else x.resume p (k (-1))
  | .ioctl _ request, k =>
      if e.ioctlFails p request then x.resume p (k (-1))
      else { x.resume p (k 0) with counter := x.counter.map (·.request request) }
  | .readCount _, k =>
      x.resume p (k (if e.readFails then none else x.counter.map Counter.count))
  | .close _, k => x.resume p (k ())

inductive Action where
  | call (p : Pid)
  | takeStop
  | instruction (p : Pid)
  | programExits (p : Pid) (status : Int)
  | hardware (p : Pid) (cpu : Nat) (code : BitVec 32) (mode : Mode)

/-- The program of a process that `execvp` has started. -/
def Image.isProgram : Image → Bool
  | .tool _ => false
  | .program .. => true

def System.step (e : Env) (x : System) : Action → System
  | .call p =>
      match x.proc p with
      | some ⟨.tool (.ret status), .running⟩ => x.setProc p ⟨.tool (.ret status), .exited status⟩
      | some ⟨.tool (.call o k), .running⟩ => x.perform e p o k
      | _ => x
  | .takeStop =>
      match x.child with
      | some ⟨image, .running⟩ =>
          if x.stopPending then { x with child := some ⟨image, .stopped⟩, stopPending := false } else x
      | _ => x
  | .instruction p =>
      match x.proc p with
      | some ⟨.program file argv executed, .running⟩ =>
          x.setProc p ⟨.program file argv (executed + 1), .running⟩
      | _ => x
  | .programExits p status =>
      match x.proc p with
      | some ⟨.program file argv executed, .running⟩ =>
          x.setProc p ⟨.program file argv executed, .exited status⟩
      | _ => x
  | .hardware p cpu code mode =>
      match x.proc p with
      | some ⟨image, .running⟩ =>
          let occ : Occurrence := ⟨cpu, e.pidOf p, code, mode⟩
          { x with
            counter := x.counter.map (·.observe occ)
            happened := x.happened ++ [⟨p, image.isProgram, occ⟩] }
      | _ => x

def System.run (e : Env) (x : System) (actions : List Action) : System := actions.foldl (System.step e) x

/-! ## What a step changes -/

section Steps

variable {e : Env} {x : System}

theorem run_append (before after : List Action) :
    x.run e (before ++ after) = (x.run e before).run e after :=
  List.foldl_append

/-- What every step keeps holds after a run. -/
theorem run_invariant {I : System → Prop} (keeps : ∀ x a, I x → I (x.step e a)) (holds : I x)
    (actions : List Action) : I (x.run e actions) := by
  induction actions generalizing x with
  | nil => exact holds
  | cons a rest ih => exact ih (keeps x a holds)

/-- The child has stopped or ended. -/
def ChildHalted (x : System) : Prop := ∃ proc, x.child = some proc ∧ proc.life ≠ .running

/-- What an answer tells about the system: a wait that returned found the child halted. -/
def Tells (x : System) : (o : Op) → o.Ans → Prop
  | .waitpid .., a => 0 ≤ a → ChildHalted x
  | _, _ => True

/-- What a call may change beside its process: the stop, the event, and what is printed, by this
process, and on `stdout` only by `printf`. -/
structure Beside (p : Pid) (o : Op) (x y : System) : Prop where
  proc : ∀ q, y.proc q = x.proc q
  happened : y.happened = x.happened
  output : y.output = x.output ∨ ∃ stream text, y.output = x.output ++ [(p, stream, text)] ∧
    (stream = .stdout → o = .printf text)

/-- What a call leaves: the system as it is, while it waits; its process answered; after a fork,
also the child; or the process as another program, exited or crashed. -/
inductive Performed (e : Env) (x : System) (p : Pid) : (o : Op) → (o.Ans → Code Int) → System → Prop
  where
  | waits {o : Op} {k : o.Ans → Code Int} : Performed e x p o k x
  | answered {o : Op} {k : o.Ans → Code Int} {y : System} (a : o.Ans) (tells : Tells x o a)
      (beside : Beside p o x y) : Performed e x p o k (y.resume p (k a))
  | forks {k : Int → Code Int} (parent : p = .parent) (fresh : x.child = none) :
      Performed e x p .fork k
        { x.resume p (k (e.pidOf .child)) with child := some ⟨.tool (k 0), .running⟩ }
  | becomes {file : List Char} {argv : List (List Char)} {k : Int → Code Int} :
      Performed e x p (.execvp (some file) argv) k (x.setProc p ⟨.program file argv 0, .running⟩)
  | exits {status : Int} {k : Empty → Code Int} :
      Performed e x p (.exit status) k
        (x.setProc p ⟨.tool (.call (S := sig) (.exit status) k), .exited status⟩)
  | crashes {argv : List (List Char)} {k : Int → Code Int} :
      Performed e x p (.execvp none argv) k
        (x.setProc p ⟨.tool (.call (S := sig) (.execvp none argv) k), .crashed⟩)

/-- What a step leaves. -/
inductive Stepped (e : Env) (x : System) : Action → System → Prop where
  | idle {a : Action} : Stepped e x a x
  | returns {p : Pid} {status : Int} (here : x.proc p = some ⟨.tool (.ret status), .running⟩) :
      Stepped e x (.call p) (x.setProc p ⟨.tool (.ret status), .exited status⟩)
  | calls {p : Pid} {o : Op} {k : o.Ans → Code Int} {y : System}
      (here : x.proc p = some ⟨.tool (.call (S := sig) o k), .running⟩)
      (performed : Performed e x p o k y) : Stepped e x (.call p) y
  | stops {image : Image} (here : x.child = some ⟨image, .running⟩) (pending : x.stopPending = true) :
      Stepped e x .takeStop { x with child := some ⟨image, .stopped⟩, stopPending := false }
  | instructs {p : Pid} {file : List Char} {argv : List (List Char)} {executed : Nat}
      (here : x.proc p = some ⟨.program file argv executed, .running⟩) :
      Stepped e x (.instruction p) (x.setProc p ⟨.program file argv (executed + 1), .running⟩)
  | ends {p : Pid} {file : List Char} {argv : List (List Char)} {executed : Nat} {status : Int}
      (here : x.proc p = some ⟨.program file argv executed, .running⟩) :
      Stepped e x (.programExits p status) (x.setProc p ⟨.program file argv executed, .exited status⟩)
  | happens {p : Pid} {image : Image} {cpu : Nat} {code : BitVec 32} {mode : Mode}
      (here : x.proc p = some ⟨image, .running⟩) :
      Stepped e x (.hardware p cpu code mode)
        { x with
          counter := x.counter.map (·.observe ⟨cpu, e.pidOf p, code, mode⟩)
          happened := x.happened ++ [⟨p, image.isProgram, cpu, e.pidOf p, code, mode⟩] }

theorem Beside.refl (p : Pid) (o : Op) (x : System) : Beside p o x x := ⟨fun _ => rfl, rfl, Or.inl rfl⟩

theorem Beside.print {p : Pid} {o : Op} {stream : Stream} {text : List Char}
    (by_printf : stream = .stdout → o = .printf text) : Beside p o x (x.print p stream text) :=
  ⟨fun q => by cases q <;> rfl, rfl, Or.inr ⟨stream, text, rfl, by_printf⟩⟩

/-- A call that changes nothing but its process. -/
theorem Performed.plain {p : Pid} {o : Op} {k : o.Ans → Code Int} (a : o.Ans) (tells : Tells x o a) :
    Performed e x p o k (x.resume p (k a)) :=
  .answered a tells (.refl p o x)

/-- A call that sets the stop or the event. -/
theorem Performed.sets {p : Pid} {o : Op} {k : o.Ans → Code Int} (a : o.Ans) (tells : Tells x o a)
    (stop : Bool) (counter : Option Counter) :
    Performed e x p o k { x.resume p (k a) with stopPending := stop, counter := counter } := by
  let y : System := { x with stopPending := stop, counter := counter }
  have beside : Beside p o x y := ⟨fun q => by cases q <;> rfl, rfl, Or.inl rfl⟩
  have same : { x.resume p (k a) with stopPending := stop, counter := counter } = y.resume p (k a) := by
    cases p <;> rfl
  rw [same]
  exact .answered a tells beside

theorem performed (e : Env) (x : System) (p : Pid) (o : Op) (k : o.Ans → Code Int) :
    Performed e x p o k (x.perform e p o k) := by
  cases o with
  | fork =>
      simp only [System.perform]
      split
      · rename_i forks
        exact .forks forks.2.1 (Option.isNone_iff_eq_none.mp forks.2.2)
      · exact .plain (-1) trivial
  | execvp file argv =>
      cases file with
      | none => exact .crashes
      | some path =>
          simp only [System.perform]
          split
          · exact .becomes
          · exact .plain (-1) trivial
  | exit status => exact .exits
  | killStop pid =>
      simp only [System.perform]
      split
      · exact .plain (-1) trivial
      · exact .sets (o := .killStop pid) 0 trivial _ _
  | waitpid pid untraced =>
      have minus : Tells x (.waitpid pid untraced) (-1) := fun positive =>
        absurd positive (show ¬(0 : Int) ≤ -1 by decide)
      simp only [System.perform]
      split
      · exact .plain (-1) minus
      · split
        · exact .plain (-1) minus
        · rename_i proc here
          split
          · rename_i status exited
            exact .plain (o := .waitpid pid untraced) pid fun _ => ⟨proc, here, by rw [exited]; nofun⟩
          · rename_i crashed
            exact .plain (o := .waitpid pid untraced) pid fun _ => ⟨proc, here, by rw [crashed]; nofun⟩
          · rename_i stopped
            split
            · exact .plain (o := .waitpid pid untraced) pid fun _ => ⟨proc, here, by rw [stopped]; nofun⟩
            · exact .waits
          · exact .waits
  | perror text => exact .answered (o := .perror text) () trivial (.print nofun)
  | eprintf text => exact .answered (o := .eprintf text) () trivial (.print nofun)
  | printf text => exact .answered (o := .printf text) () trivial (.print fun _ => rfl)
  | perfEventOpen attr pid cpu =>
      simp only [System.perform]
      split
      · exact .sets (o := .perfEventOpen attr pid cpu) 3 trivial _ _
      · exact .plain (-1) trivial
  | ioctl fd request =>
      simp only [System.perform]
      split
      · exact .plain (-1) trivial
      · exact .sets (o := .ioctl fd request) 0 trivial _ _
  | readCount fd => exact .plain _ trivial
  | close fd => exact .plain (o := .close fd) () trivial

theorem stepped (e : Env) (x : System) (a : Action) : Stepped e x a (x.step e a) := by
  cases a with
  | call p =>
      simp only [System.step]
      split
      · rename_i status here
        exact .returns here
      · rename_i o k here
        exact .calls here (performed e x p o k)
      · exact .idle
  | takeStop =>
      simp only [System.step]
      split
      · rename_i image here
        split
        · rename_i pending
          exact .stops here pending
        · exact .idle
      · exact .idle
  | instruction p =>
      simp only [System.step]
      split
      · rename_i here
        exact .instructs here
      · exact .idle
  | programExits p status =>
      simp only [System.step]
      split
      · rename_i here
        exact .ends here
      · exact .idle
  | hardware p cpu code mode =>
      simp only [System.step]
      split
      · rename_i here
        exact .happens here
      · exact .idle

/-! ## Processes and output, step by step -/

theorem setProc_cases {p q : Pid} {proc new : Process} (after : (x.setProc q new).proc p = some proc) :
    (p = q ∧ proc = new) ∨ x.proc p = some proc := by
  cases p with
  | parent =>
      cases q with
      | parent => exact Or.inl ⟨rfl, (Option.some.inj after).symm⟩
      | child => exact Or.inr after
  | child =>
      cases q with
      | parent => exact Or.inr after
      | child => exact Or.inl ⟨rfl, (Option.some.inj after).symm⟩

@[simp] theorem setProc_output (p : Pid) (proc : Process) : (x.setProc p proc).output = x.output := by
  cases p <;> rfl

@[simp] theorem setProc_happened (p : Pid) (proc : Process) :
    (x.setProc p proc).happened = x.happened := by
  cases p <;> rfl

/-- **Where a process comes from**: it was there with the same image; or it made a call, and was
answered or has become another program; or it is a program, and executed an instruction; or it
is the child, and the parent has just forked. -/
theorem step_proc {a : Action} {p : Pid} {proc : Process}
    (after : (x.step e a).proc p = some proc) :
    (∃ life, x.proc p = some ⟨proc.image, life⟩) ∨
      (∃ o k, a = .call p ∧ x.proc p = some ⟨.tool (.call o k), .running⟩ ∧
        ((∃ ans, Tells x o ans ∧ proc = ⟨.tool (k ans), .running⟩) ∨
          ∃ file argv, o = .execvp (some file) argv ∧ proc = ⟨.program file argv 0, .running⟩)) ∨
      (∃ file argv executed, x.proc p = some ⟨.program file argv executed, .running⟩ ∧
        proc = ⟨.program file argv (executed + 1), .running⟩) ∨
      ∃ f : Int → Code Int, p = .child ∧ a = .call .parent ∧
        x.parent = ⟨.tool (.call (S := sig) .fork f), .running⟩ ∧ proc = ⟨.tool (f 0), .running⟩ := by
  have moved := stepped e x a
  generalize x.step e a = y at moved after
  cases moved with
  | idle => exact Or.inl ⟨proc.life, after⟩
  | returns here =>
      rcases setProc_cases after with ⟨rfl, rfl⟩ | kept
      · exact Or.inl ⟨_, here⟩
      · exact Or.inl ⟨proc.life, kept⟩
  | @calls q o k y here performed =>
      cases performed with
      | waits => exact Or.inl ⟨proc.life, after⟩
      | answered ans tells beside =>
          rcases setProc_cases after with ⟨rfl, rfl⟩ | kept
          · exact Or.inr (Or.inl ⟨o, k, rfl, here, Or.inl ⟨ans, tells, rfl⟩⟩)
          · exact Or.inl ⟨proc.life, (beside.proc p).symm.trans kept⟩
      | @forks k parent fresh =>
          subst parent
          cases p with
          | parent =>
              cases after
              exact Or.inr (Or.inl ⟨.fork, k, rfl, here, Or.inl ⟨_, trivial, rfl⟩⟩)
          | child =>
              cases after
              exact Or.inr (Or.inr (Or.inr ⟨k, rfl, rfl, Option.some.inj here, rfl⟩))
      | @becomes file argv k =>
          rcases setProc_cases after with ⟨rfl, rfl⟩ | kept
          · exact Or.inr (Or.inl ⟨_, k, rfl, here, Or.inr ⟨file, argv, rfl, rfl⟩⟩)
          · exact Or.inl ⟨proc.life, kept⟩
      | exits | crashes =>
          rcases setProc_cases after with ⟨rfl, rfl⟩ | kept
          · exact Or.inl ⟨_, here⟩
          · exact Or.inl ⟨proc.life, kept⟩
  | stops here pending =>
      cases p with
      | parent => exact Or.inl ⟨proc.life, after⟩
      | child =>
          cases after
          exact Or.inl ⟨_, here⟩
  | instructs here =>
      rcases setProc_cases after with ⟨rfl, rfl⟩ | kept
      · exact Or.inr (Or.inr (Or.inl ⟨_, _, _, here, rfl⟩))
      · exact Or.inl ⟨proc.life, kept⟩
  | ends here =>
      rcases setProc_cases after with ⟨rfl, rfl⟩ | kept
      · exact Or.inl ⟨_, here⟩
      · exact Or.inl ⟨proc.life, kept⟩
  | happens here => exact Or.inl ⟨proc.life, by cases p <;> exact after⟩

/-- **Where the code of a process comes from**: it had that code before; or it made a call and
was answered; or it is the child, and the parent has just forked. -/
theorem step_tool {a : Action} {p : Pid} {rest : Code Int} {life : Life}
    (after : (x.step e a).proc p = some ⟨.tool rest, life⟩) :
    (∃ life', x.proc p = some ⟨.tool rest, life'⟩) ∨
      (∃ o k ans, a = .call p ∧ x.proc p = some ⟨.tool (.call o k), .running⟩ ∧ Tells x o ans ∧
        rest = k ans) ∨
      ∃ f : Int → Code Int, p = .child ∧ a = .call .parent ∧
        x.parent = ⟨.tool (.call (S := sig) .fork f), .running⟩ ∧ rest = f 0 := by
  rcases step_proc after with same | ⟨o, k, called, here, answered | executed⟩ | instructed | forked
  · exact Or.inl same
  · obtain ⟨ans, tells, made⟩ := answered
    cases made
    exact Or.inr (Or.inl ⟨o, k, ans, called, here, tells, rfl⟩)
  · obtain ⟨file, argv, -, made⟩ := executed
    cases made
  · obtain ⟨file, argv, executed, -, made⟩ := instructed
    cases made
  · obtain ⟨f, child, called, here, made⟩ := forked
    cases made
    exact Or.inr (Or.inr ⟨f, child, called, here, rfl⟩)

/-- **Where a program comes from**: it was there, or the process has just made the `execvp`. -/
theorem step_program {a : Action} {p : Pid} {file : List Char} {argv : List (List Char)}
    {executed : Nat} {life : Life}
    (after : (x.step e a).proc p = some ⟨.program file argv executed, life⟩) :
    (∃ executed' life', x.proc p = some ⟨.program file argv executed', life'⟩) ∨
      ∃ k, x.proc p = some ⟨.tool (.call (S := sig) (.execvp (some file) argv) k), .running⟩ := by
  rcases step_proc after with ⟨life', same⟩ | ⟨o, k, -, here, answered | started⟩ | instructed | forked
  · exact Or.inl ⟨executed, life', same⟩
  · obtain ⟨ans, -, made⟩ := answered
    cases made
  · obtain ⟨file', argv', rfl, made⟩ := started
    cases made
    exact Or.inr ⟨k, here⟩
  · obtain ⟨file', argv', executed', here, made⟩ := instructed
    cases made
    exact Or.inl ⟨executed', _, here⟩
  · obtain ⟨f, -, -, -, made⟩ := forked
    cases made

/-- A step prints only by a call of a process. -/
theorem step_output (e : Env) (x : System) (a : Action) :
    (x.step e a).output = x.output ∨
      ∃ p o k stream text, a = .call p ∧ x.proc p = some ⟨.tool (.call o k), .running⟩ ∧
        (x.step e a).output = x.output ++ [(p, stream, text)] ∧
          (stream = .stdout → o = .printf text) := by
  have moved := stepped e x a
  generalize x.step e a = y at moved ⊢
  cases moved with
  | returns here | instructs here | ends here => exact Or.inl (setProc_output ..)
  | idle | stops here pending | happens here => exact Or.inl rfl
  | @calls p o k y here performed =>
      cases performed with
      | waits => exact Or.inl rfl
      | becomes | exits | crashes => exact Or.inl (setProc_output ..)
      | forks parent fresh =>
          subst parent
          exact Or.inl rfl
      | answered a tells beside =>
          rw [System.resume, setProc_output]
          rcases beside.output with silent | ⟨stream, text, printed, by_printf⟩
          · exact Or.inl silent
          · exact Or.inr ⟨p, o, k, stream, text, rfl, here, printed, by_printf⟩

/-- What happens in a step, happens in one of the two images. -/
theorem step_happened (e : Env) (x : System) (a : Action) :
    (x.step e a).happened = x.happened ∨
      ∃ p image occ, x.proc p = some ⟨image, .running⟩ ∧
        (x.step e a).happened = x.happened ++ [⟨p, image.isProgram, occ⟩] := by
  have moved := stepped e x a
  generalize x.step e a = y at moved ⊢
  cases moved with
  | returns here | instructs here | ends here => exact Or.inl (setProc_happened ..)
  | idle | stops here pending => exact Or.inl rfl
  | happens here => exact Or.inr ⟨_, _, _, here, rfl⟩
  | @calls p o k y here performed =>
      left
      cases performed with
      | waits => rfl
      | becomes | exits | crashes => exact setProc_happened ..
      | forks parent fresh =>
          subst parent
          rfl
      | answered a tells beside =>
          rw [System.resume, setProc_happened]
          exact beside.happened

/-! ## The child -/

/-- **What a step does to the child**: nothing; or it creates or moves a child that is not
halted and does not stop it; or the child takes the stop that was sent to it. -/
theorem child_step (e : Env) (x : System) (a : Action) :
    (x.step e a).child = x.child ∨
      ((∀ proc, x.child = some proc → proc.life = .running) ∧
        ∃ proc, (x.step e a).child = some proc ∧ proc.life ≠ .stopped) ∨
      (a = .takeStop ∧ x.stopPending = true ∧ ∃ image, x.child = some ⟨image, .running⟩ ∧
        (x.step e a).child = some ⟨image, .stopped⟩) := by
  -- a process that is given a new image or life was running
  have moves : ∀ {p : Pid} {image : Image} (y : System) (new : Process), x.proc p = some ⟨image, .running⟩ →
      y.child = x.child → new.life ≠ .stopped →
      (y.setProc p new).child = x.child ∨
        (∀ proc, x.child = some proc → proc.life = .running) ∧
          ∃ proc, (y.setProc p new).child = some proc ∧ proc.life ≠ .stopped := by
    intro p image y new here same moving
    cases p with
    | parent => exact Or.inl same
    | child =>
        refine Or.inr ⟨fun proc there => ?_, new, rfl, moving⟩
        cases here.symm.trans there
        rfl
  have moved := stepped e x a
  generalize x.step e a = y at moved ⊢
  cases moved with
  | idle | happens here => exact Or.inl rfl
  | returns here | instructs here | ends here => exact (moves x _ here rfl (by nofun)).imp_right Or.inl
  | @stops image here pending => exact Or.inr (Or.inr ⟨rfl, pending, image, here, rfl⟩)
  | @calls p o k y here performed =>
      cases performed with
      | waits => exact Or.inl rfl
      | @answered o k y a tells beside =>
          exact (moves y _ here (beside.proc .child) (by nofun)).imp_right Or.inl
      | becomes | exits | crashes => exact (moves x _ here rfl (by nofun)).imp_right Or.inl
      | forks parent fresh =>
          refine Or.inr (Or.inl ⟨fun proc there => ?_, _, rfl, nofun⟩)
          cases fresh.symm.trans there

/-- A halted child stays as it is. -/
theorem halted_step {proc : Process} (here : x.child = some proc) (halted : proc.life ≠ .running)
    (a : Action) : (x.step e a).child = some proc := by
  rcases child_step e x a with same | ⟨running, -⟩ | ⟨-, -, image, running, -⟩
  · rw [same, here]
  · exact absurd (running proc here) halted
  · rw [here] at running
    cases running
    exact absurd rfl halted

theorem halted_run {proc : Process} (here : x.child = some proc) (halted : proc.life ≠ .running)
    (actions : List Action) : (x.run e actions).child = some proc :=
  run_invariant (I := fun y => y.child = some proc) (fun _ a here => halted_step here halted a) here
    actions

/-! ## Programs that stay themselves -/

/-- A call that puts no other program in place of the tool. -/
def Op.stays : Op → Prop
  | .execvp .. => False
  | _ => True

/-- Neither process is or will be another program, and nothing happened in one. -/
structure Tools (x : System) : Prop where
  code : ∀ p rest life, x.proc p = some ⟨.tool rest, life⟩ → rest.Only Op.stays
  image : ∀ p file argv executed life, x.proc p ≠ some ⟨.program file argv executed, life⟩
  happened : ∀ w ∈ x.happened, w.inProgram = false

theorem tools_step {x : System} (tools : Tools x) (a : Action) : Tools (x.step e a) where
  code p rest life after := by
    rcases step_tool after with ⟨life', here⟩ | ⟨o, k, ans, -, here, -, rfl⟩ | ⟨f, -, -, here, rfl⟩
    · exact tools.code p rest life' here
    · exact (tools.code p _ _ here).2 ans
    · exact (tools.code .parent _ _ (congrArg some here)).2 0
  image p file argv executed life after := by
    rcases step_program after with ⟨executed', life', here⟩ | ⟨k, here⟩
    · exact tools.image p file argv executed' life' here
    · exact (tools.code p _ _ here).1
  happened w member := by
    rcases step_happened e x a with same | ⟨p, image, occ, here, grown⟩
    · rw [same] at member
      exact tools.happened w member
    · rw [grown] at member
      rcases List.mem_append.mp member with earlier | now
      · exact tools.happened w earlier
      · cases List.mem_singleton.mp now
        cases image with
        | tool rest => rfl
        | program file argv executed => exact absurd here (tools.image p file argv executed _)

/-- **A program that calls no `execvp`** runs no other program, in either process. -/
theorem tools_run {main : Code Int} (only : main.Only Op.stays) (actions : List Action) :
    Tools ((System.started main).run e actions) := by
  have start : Tools (System.started main) := by
    refine ⟨fun p rest life here => ?_, fun p file argv executed life here => ?_, nofun⟩
    · cases p with
      | parent =>
          cases here
          exact only
      | child => cases here
    · cases p <;> cases here
  exact run_invariant (I := Tools) (fun _ a tools => tools_step tools a) start actions

end Steps

end Dreamscape.Userland
