/-
# Userland.Forking -- the test program that forks ten times

`forking.c` forks ten children and says so of each; a child says its number, sleeps, says it
again and exits.  The parent waits for none of them.

`fork` copies the memory of the parent, so also what `stdio` has not written yet.  On a
terminal every line is written at once.  Into a file or a pipe a process writes when it exits,
so a child writes first the lines its parent had not written when it was forked: the line for
the second child is written by the parent and by the eight children that come after it.
`lines_written` says exactly what each process writes, in every order of their calls and
whatever forks are refused.  What is printed, with process numbers of seven digits at most, is
too little to fill the buffer of `stdio`.
-/
import Dreamscape.Theory.Protocol
import Dreamscape.Kernel.Text

namespace Dreamscape.Userland.Forking

set_option autoImplicit false

open Theory Kernel

/-! ## The program -/

inductive Op where
  | fork
  | getpid
  | sleep (seconds : Nat)
  | printf (text : List Char)
  | perror (text : List Char)
  | exit (status : Int)

@[reducible] def Op.Ans : Op → Type
  | .fork | .getpid => Int
  | .exit _ => Empty
  | .sleep _ | .printf _ | .perror _ => Unit

abbrev sig : Sig := ⟨Op, Op.Ans⟩

abbrev Code (α : Type) := Prog sig α

@[simp] def call (o : Op) : Code o.Ans := .call (S := sig) o .ret

@[simp] def fork : Code Int := call .fork
@[simp] def getpid : Code Int := call .getpid
@[simp] def sleep (seconds : Nat) : Code Unit := call (.sleep seconds)
@[simp] def printf (text : List Char) : Code Unit := call (.printf text)
@[simp] def perror (text : List Char) : Code Unit := call (.perror text)
@[simp] def exit {α : Type} (status : Int) : Code α := .call (S := sig) (.exit status) nofun

def childLine (pid : Int) : List Char := "Child process ".toList ++ formatInt pid ++ ['\n']

def orphanLine (pid : Int) : List Char := "Orphaned child process ".toList ++ formatInt pid ++ ['\n']

def parentLine (pid child : Int) : List Char :=
  "Parent process ".toList ++ formatInt pid ++ " forked child ".toList ++ formatInt child ++ ['\n']

/-- The loop of `main` with so many rounds to go, and what follows it. -/
def rounds : Nat → Code Int
  | 0 => return 0
  | i + 1 => do
      let pid ← fork
      if pid < 0 then
        perror "Failed to fork process".toList
        exit 1
      else if pid = 0 then
        printf (childLine (← getpid))
        sleep 10
        printf (orphanLine (← getpid))
        exit 0
      else
        printf (parentLine (← getpid) pid)
        rounds i

def main : Code Int := rounds 10

/-! ## Processes -/

/-- What the program runs with: the numbers processes get, and whether stdout is a terminal. -/
structure Setting where
  pidOf : Nat → Nat
  positive : ∀ t, 0 < pidOf t
  terminal : Bool
  strerror : List Char

inductive Image where
  | running (rest : Code Int)
  | exited (status : Int)

/-- A process, with what `stdio` has not written yet. -/
structure Process where
  image : Image
  buffer : List Char

/-- The processes in the order in which they were forked, and who has written what. -/
structure Family where
  procs : List Process
  stdout : List (Nat × List Char)
  stderr : List (Nat × List Char)

/-- The first process is started. -/
def Family.started : Family := ⟨[⟨.running main, []⟩], [], []⟩

/-- Writing what is in a buffer: an empty one is not written. -/
def flushed (text : List Char) : List (List Char) := if text = [] then [] else [text]

namespace Family

variable (x : Family) (t : Nat)

def setProc (proc : Process) : Family := { x with procs := x.procs.set t proc }

def write (texts : List (List Char)) : Family := { x with stdout := x.stdout ++ texts.map (t, ·) }

def complain (text : List Char) : Family := { x with stderr := x.stderr ++ [(t, text)] }

/-- Process `t` exits. -/
def exit (buffer : List Char) (status : Int) : Family :=
  (x.setProc t ⟨.exited status, []⟩).write t (flushed buffer)

end Family

section Step

variable (e : Setting)

/-- Process `t` goes on with one call; a fork it asks for may be granted. -/
def Family.step (x : Family) (granted : Bool) (t : Nat) : Family :=
  match x.procs[t]? with
  | some ⟨.running (.ret status), buffer⟩ => x.exit t buffer status
  | some ⟨.running (.call o k), buffer⟩ =>
      match o, k with
      | .fork, k =>
          if granted then
            let parent := x.setProc t ⟨.running (k (e.pidOf x.procs.length)), buffer⟩
            { parent with procs := parent.procs ++ [⟨.running (k (0 : Int)), buffer⟩] }
          else x.setProc t ⟨.running (k (-1 : Int)), buffer⟩
      | .getpid, k => x.setProc t ⟨.running (k (e.pidOf t)), buffer⟩
      | .sleep _, k => x.setProc t ⟨.running (k ()), buffer⟩
      | .printf text, k =>
          if e.terminal then (x.setProc t ⟨.running (k ()), buffer⟩).write t (flushed text)
          else x.setProc t ⟨.running (k ()), buffer ++ text⟩
      | .perror text, k =>
          (x.setProc t ⟨.running (k ()), buffer⟩).complain t
            (text ++ ": ".toList ++ e.strerror ++ ['\n'])
      | .exit status, _ => x.exit t buffer status
  | some ⟨.exited _, _⟩ | none => x

def Family.run (x : Family) (steps : List (Bool × Nat)) : Family :=
  steps.foldl (fun x step => x.step e step.1 step.2) x

end Step

/-! ## What is to be proved -/

section Lines

variable (e : Setting)

/-- What the parent says of a child. -/
def report (child : Nat) : List Char := parentLine (e.pidOf 0) (e.pidOf child)

/-- The reports of the first children. -/
def reports (k : Nat) : List (List Char) := (List.range k).map fun i => report e (i + 1)

def childLines (t : Nat) : List (List Char) := [childLine (e.pidOf t), orphanLine (e.pidOf t)]

/-- What process `t` says when there are `k` children. -/
def ownLines (k t : Nat) : List (List Char) := if t = 0 then reports e k else childLines e t

end Lines

/-- What process `t` has written. -/
def Family.writtenBy (x : Family) (t : Nat) : List (List Char) :=
  (x.stdout.filter (·.1 = t)).map Prod.snd

/-- What holds of every run. -/
structure Written (e : Setting) (x : Family) : Prop where
  few : x.procs.length ≤ 11
  /-- On a terminal a process writes line by line. -/
  terminal : e.terminal = true → ∀ t, x.writtenBy t <+: ownLines e (x.procs.length - 1) t
  terminalExited : e.terminal = true → ∀ t status buffer, x.procs[t]? = some ⟨.exited status, buffer⟩ →
    x.writtenBy t = ownLines e (x.procs.length - 1) t
  /-- Elsewhere it writes once, when it exits, and what it has inherited first. -/
  file : e.terminal = false → ∀ t rest buffer, x.procs[t]? = some ⟨.running rest, buffer⟩ →
    x.writtenBy t = []
  fileExited : e.terminal = false → ∀ t status buffer, x.procs[t]? = some ⟨.exited status, buffer⟩ →
    x.writtenBy t = flushed (reports e (t - 1) ++ ownLines e (x.procs.length - 1) t).flatten
  /-- Who exits with 0 is a child, or the parent after ten forks. -/
  succeeded : ∀ t buffer, x.procs[t]? = some ⟨.exited 0, buffer⟩ → t = 0 → x.procs.length = 11

/-! ## Roles -/

inductive Role where
  /-- The first process, which has forked and reported so many children. -/
  | parent (k : Nat)
  /-- It has forked one more. -/
  | forked (k : Nat)
  /-- A fork was refused. -/
  | failed (k : Nat)
  /-- A child that has said so many lines. -/
  | child (t said : Nat)

namespace Role

/-- The number of the process. -/
def number : Role → Nat
  | .parent _ | .forked _ | .failed _ => 0
  | .child t _ => t

/-- What it has said. -/
def said (e : Setting) : Role → List (List Char)
  | .parent k | .forked k | .failed k => reports e k
  | .child t said => (childLines e t).take said

/-- The first process knows how many processes there are, a child that it is one of them. -/
def Among (procs : Nat) : Role → Prop
  | .parent k | .failed k => k + 1 = procs
  | .forked k => k + 2 = procs
  | .child t _ => 0 < t ∧ t < procs

end Role

def forking (e : Setting) : Protocol sig Role where
  allowed o r :=
    match o with
    | .fork => ∃ k, r = .parent k ∧ k < 10
    | .printf text =>
        (∃ k, r = .forked k ∧ text = report e (k + 1)) ∨
          ∃ t said, r = .child t said ∧ (childLines e t)[said]? = some text
    | .perror _ => ∃ k, r = .failed k
    | .exit status => (∃ k, r = .failed k ∧ status = 1) ∨ ∃ t, r = .child t 2 ∧ status = 0
    | .getpid | .sleep _ => True
  possible o a r :=
    match o, a, r with
    | .fork, pid, .parent k => pid = -1 ∨ pid = (0 : Int) ∨ pid = (e.pidOf (k + 1) : Int)
    | .getpid, pid, r => pid = (e.pidOf r.number : Int)
    | _, _, _ => True
  next o a r :=
    match o, a, r with
    | .fork, pid, .parent k =>
        if pid < (0 : Int) then .failed k else if pid = (0 : Int) then .child (k + 1) 0 else .forked k
    | .printf _, _, .forked k => .parent (k + 1)
    | .printf _, _, .child t said => .child t (said + 1)
    | _, _, r => r

/-- The parent returns when it has forked ten children. -/
def Ends (r : Role) (status : Int) : Prop := r = .parent 10 ∧ status = 0

section Programs

variable {e : Setting}

theorem rounds_follows (i k : Nat) (all : i + k = 10) : (rounds i).Follows (forking e) Ends (.parent k) := by
  induction i generalizing k with
  | zero =>
      obtain rfl : k = 10 := by omega
      exact ⟨rfl, rfl⟩
  | succ i ih =>
      refine ⟨⟨k, rfl, by omega⟩, fun (pid : Int) possible => ?_⟩
      have positive := e.positive (k + 1)
      show Prog.Follows (forking e) Ends (if pid < 0 then _ else _ : Code Int)
        (if pid < 0 then Role.failed k else if pid = 0 then .child (k + 1) 0 else .forked k)
      rcases possible with rfl | rfl | rfl
      · exact ⟨⟨k, rfl⟩, fun _ _ => ⟨Or.inl ⟨k, rfl, rfl⟩, fun a => a.elim⟩⟩
      · rw [if_neg (by decide), if_pos rfl, if_neg (by decide), if_pos rfl]
        refine ⟨trivial, fun (pid : Int) here => ?_⟩
        obtain rfl : pid = e.pidOf (k + 1) := here
        refine ⟨Or.inr ⟨k + 1, 0, rfl, rfl⟩, fun _ _ => ⟨trivial, fun _ _ => ⟨trivial, ?_⟩⟩⟩
        rintro (pid : Int) here
        obtain rfl : pid = e.pidOf (k + 1) := here
        refine ⟨Or.inr ⟨k + 1, 1, rfl, rfl⟩, fun _ _ => ?_⟩
        exact ⟨Or.inr ⟨k + 1, rfl, rfl⟩, fun a => a.elim⟩
      · rw [if_neg (by omega), if_neg (by omega), if_neg (by omega), if_neg (by omega)]
        refine ⟨trivial, fun (pid : Int) here => ?_⟩
        obtain rfl : pid = e.pidOf 0 := here
        exact ⟨Or.inl ⟨k, rfl, rfl⟩, fun _ _ => ih (k + 1) (by omega)⟩

end Programs

/-! ## What holds in every run -/

/-- How a process may have exited. -/
def Final (r : Role) (status : Int) : Prop :=
  (∃ k, r = .failed k ∧ status = 1) ∨ (∃ t, r = .child t 2 ∧ status = 0) ∨ Ends r status

/-- What is in the buffer of process `t` and what it has written, when it has said these lines. -/
def Holds (e : Setting) (x : Family) (t : Nat) (lines : List (List Char)) (buffer : List Char) : Prop :=
  if e.terminal then buffer = [] ∧ x.writtenBy t = lines
  else buffer = (reports e (t - 1) ++ lines).flatten ∧ x.writtenBy t = []

/-- What it has written when it has exited. -/
def Left (e : Setting) (x : Family) (t : Nat) (lines : List (List Char)) : Prop :=
  if e.terminal then x.writtenBy t = lines
  else x.writtenBy t = flushed (reports e (t - 1) ++ lines).flatten

/-- The process is where its role says. -/
def Described (e : Setting) (x : Family) (t : Nat) (proc : Process) : Prop :=
  ∃ r : Role, r.number = t ∧ r.Among x.procs.length ∧
    match proc.image with
    | .running rest => rest.Follows (forking e) Ends r ∧ Holds e x t (r.said e) proc.buffer
    | .exited status => Final r status ∧ Left e x t (r.said e)

structure Sound (e : Setting) (x : Family) : Prop where
  procs : ∀ t proc, x.procs[t]? = some proc → Described e x t proc
  unborn : ∀ t, x.procs.length ≤ t → x.writtenBy t = []
  few : x.procs.length ≤ 11

section Steps

variable {e : Setting} {x : Family} {t u : Nat}

theorem writtenBy_write (texts : List (List Char)) :
    (x.write t texts).writtenBy u = if u = t then x.writtenBy u ++ texts else x.writtenBy u := by
  unfold Family.writtenBy Family.write
  rw [List.filter_append, List.map_append]
  by_cases same : u = t
  · subst same
    rw [if_pos rfl]
    simp [List.filter_map, Function.comp_def]
  · have other : t ≠ u := Ne.symm same
    rw [if_neg same]
    simp [List.filter_map, Function.comp_def, other]

theorem write_nil : x.write t [] = x := by
  simp [Family.write]

/-- A process is described alike in families that have as many processes and in which it has
written the same. -/
theorem Described.congr {x' : Family} {proc : Process} (length : x'.procs.length = x.procs.length)
    (written : x'.writtenBy t = x.writtenBy t) (described : Described e x t proc) :
    Described e x' t proc := by
  unfold Described Holds Left at described ⊢
  rw [length, written]
  exact described

/-- A process goes on, and writes. -/
theorem Sound.goes_on (sound : Sound e x) {proc proc' : Process} (found : x.procs[t]? = some proc)
    (texts : List (List Char)) (described : Described e ((x.setProc t proc').write t texts) t proc') :
    Sound e ((x.setProc t proc').write t texts) := by
  have length : ((x.setProc t proc').write t texts).procs.length = x.procs.length := List.length_set
  have bound : t < x.procs.length := (List.getElem?_eq_some_iff.mp found).1
  have elsewhere : ∀ u, u ≠ t → ((x.setProc t proc').write t texts).writtenBy u = x.writtenBy u := by
    intro u other
    rw [writtenBy_write, if_neg other]
    rfl
  refine ⟨fun u other there => ?_, fun u beyond => ?_, length ▸ sound.few⟩
  · by_cases same : u = t
    · subst same
      rw [show ((x.setProc u proc').write u texts).procs = x.procs.set u proc' from rfl,
        List.getElem?_set_self bound] at there
      cases there
      exact described
    · rw [show ((x.setProc t proc').write t texts).procs = x.procs.set t proc' from rfl,
        List.getElem?_set_ne (Ne.symm same)] at there
      exact (sound.procs u other there).congr length (elsewhere u same)
  · rw [length] at beyond
    rw [elsewhere u (Nat.ne_of_gt (Nat.lt_of_lt_of_le bound beyond))]
    exact sound.unborn u beyond

theorem Sound.complain (sound : Sound e x) (text : List Char) : Sound e (x.complain t text) :=
  ⟨sound.procs, sound.unborn, sound.few⟩

/-- A process goes on without saying anything. -/
theorem Sound.silent (sound : Sound e x) {proc : Process} (found : x.procs[t]? = some proc)
    {rest : Code Int} {buffer : List Char} {r : Role} (number : r.number = t)
    (among : r.Among x.procs.length) (follows : rest.Follows (forking e) Ends r)
    (holds : Holds e x t (r.said e) buffer) :
    Sound e (x.setProc t ⟨.running rest, buffer⟩) := by
  have length : (x.setProc t ⟨.running rest, buffer⟩).procs.length = x.procs.length := List.length_set
  have described : Described e (x.setProc t ⟨.running rest, buffer⟩) t ⟨.running rest, buffer⟩ :=
    ⟨r, number, length ▸ among, follows, holds⟩
  rw [← write_nil (x := x.setProc t ⟨.running rest, buffer⟩) (t := t)] at described ⊢
  exact sound.goes_on found [] described

/-- A process says a line. -/
theorem Sound.says (sound : Sound e x) {proc : Process} (found : x.procs[t]? = some proc)
    {rest : Code Int} {buffer text : List Char} {r q : Role} (number : q.number = t)
    (among : q.Among x.procs.length) (follows : rest.Follows (forking e) Ends q)
    (holds : Holds e x t (r.said e) buffer) (said : q.said e = r.said e ++ [text])
    (filled : text ≠ []) :
    Sound e (if e.terminal then (x.setProc t ⟨.running rest, buffer⟩).write t (flushed text)
      else x.setProc t ⟨.running rest, buffer ++ text⟩) := by
  unfold Holds at holds
  split at holds
  · rename_i terminal
    rw [if_pos terminal]
    apply sound.goes_on found
    have length : ((x.setProc t ⟨.running rest, buffer⟩).write t (flushed text)).procs.length =
        x.procs.length := List.length_set
    refine ⟨q, number, length ▸ among, follows, ?_⟩
    unfold Holds
    rw [if_pos terminal, writtenBy_write, if_pos rfl, said, flushed, if_neg filled, ← holds.2]
    exact ⟨holds.1, rfl⟩
  · rename_i terminal
    rw [if_neg terminal]
    apply sound.silent found number among follows
    unfold Holds
    rw [if_neg terminal, said, holds.1]
    exact ⟨by simp, holds.2⟩

/-- A process exits. -/
theorem Sound.exits (sound : Sound e x) {proc : Process} (found : x.procs[t]? = some proc)
    {buffer : List Char} {r : Role} {status : Int} (number : r.number = t)
    (among : r.Among x.procs.length) (final : Final r status)
    (holds : Holds e x t (r.said e) buffer) : Sound e (x.exit t buffer status) := by
  apply sound.goes_on found
  have length : (x.exit t buffer status).procs.length = x.procs.length := List.length_set
  refine ⟨r, number, length ▸ among, final, ?_⟩
  unfold Left
  unfold Holds at holds
  rw [writtenBy_write, if_pos rfl]
  show if e.terminal = true then x.writtenBy t ++ _ = _ else x.writtenBy t ++ _ = _
  split at holds
  · rename_i terminal
    rw [if_pos terminal, holds.1, holds.2]
    simp [flushed]
  · rename_i terminal
    rw [if_neg terminal, holds.1, holds.2]
    rfl

/-- Others are described alike when a process is born. -/
theorem Described.grows {x' : Family} {proc : Process} (described : Described e x t proc)
    (later : 0 < t) (length : x.procs.length ≤ x'.procs.length)
    (written : x'.writtenBy t = x.writtenBy t) : Described e x' t proc := by
  obtain ⟨r, number, among, there⟩ := described
  refine ⟨r, number, ?_, ?_⟩
  · cases r with
    | child u said => exact ⟨among.1, Nat.lt_of_lt_of_le among.2 length⟩
    | parent | forked | failed => exact absurd number (Nat.ne_of_lt later)
  · unfold Holds Left at there ⊢
    rw [written]
    exact there

/-- The first process forks: the child has the program, and what is in the buffer. -/
theorem Sound.forks (sound : Sound e x) {k : Nat} (few : k < 10) (among : k + 1 = x.procs.length)
    {parent child : Code Int} {buffer : List Char}
    (forked : parent.Follows (forking e) Ends (.forked k))
    (born : child.Follows (forking e) Ends (.child (k + 1) 0))
    (holds : Holds e x 0 (reports e k) buffer) :
    Sound e { x.setProc 0 ⟨.running parent, buffer⟩ with
      procs := (x.setProc 0 ⟨.running parent, buffer⟩).procs ++ [⟨.running child, buffer⟩] } := by
  have length : (x.setProc 0 ⟨.running parent, buffer⟩).procs.length = k + 1 := by
    rw [among]
    exact List.length_set
  refine ⟨fun u other there => ?_, fun u beyond => ?_, ?_⟩
  · rcases Nat.lt_trichotomy u (k + 1) with older | rfl | beyond
    · rw [List.getElem?_append_left (length ▸ older)] at there
      rcases Nat.eq_zero_or_pos u with rfl | later
      · rw [show (x.setProc 0 ⟨.running parent, buffer⟩).procs = x.procs.set 0 ⟨.running parent, buffer⟩
          from rfl, List.getElem?_set_self (among ▸ older)] at there
        cases there
        refine ⟨.forked k, rfl, ?_, forked, holds⟩
        show k + 2 = List.length (_ ++ _)
        rw [List.length_append, length]
        rfl
      · rw [show (x.setProc 0 ⟨.running parent, buffer⟩).procs = x.procs.set 0 ⟨.running parent, buffer⟩
          from rfl, List.getElem?_set_ne (Nat.ne_of_lt later)] at there
        refine (sound.procs u other there).grows later ?_ rfl
        rw [List.length_append, length, ← among]
        exact Nat.le_succ _
    · rw [List.getElem?_append_right (Nat.le_of_eq length), length, Nat.sub_self] at there
      cases there
      refine ⟨.child (k + 1) 0, rfl, ?_, born, ?_⟩
      · refine ⟨Nat.succ_pos k, ?_⟩
        rw [List.length_append, length]
        exact Nat.lt_succ_self _
      · have unborn : x.writtenBy (k + 1) = [] := sound.unborn (k + 1) (Nat.le_of_eq among.symm)
        unfold Holds at holds ⊢
        split at holds
        · rename_i terminal
          rw [if_pos terminal]
          exact ⟨holds.1, unborn⟩
        · rename_i terminal
          rw [if_neg terminal, holds.1]
          exact ⟨by simp [reports, Role.said], unborn⟩
    · rw [List.getElem?_eq_none] at there
      · cases there
      · rw [List.length_append, length]
        exact beyond
  · rw [List.length_append, length] at beyond
    apply sound.unborn u
    rw [← among]
    exact Nat.le_of_succ_le beyond
  · rw [List.length_append, length]
    exact Nat.succ_le_succ few

theorem childLines_filled {said : Nat} {text : List Char}
    (found : (childLines e t)[said]? = some text) : text ≠ [] := by
  have among : text ∈ childLines e t := List.mem_of_getElem? found
  rw [childLines, List.mem_cons, List.mem_singleton] at among
  rcases among with rfl | rfl
  · exact List.concat_ne_nil _ _
  · exact List.concat_ne_nil _ _

theorem child_said {said : Nat} {text : List Char} (found : (childLines e t)[said]? = some text) :
    (Role.child t (said + 1)).said e = (Role.child t said).said e ++ [text] := by
  obtain ⟨bound, rfl⟩ := List.getElem?_eq_some_iff.mp found
  exact List.take_succ_eq_append_getElem bound

theorem reports_succ (k : Nat) : reports e (k + 1) = reports e k ++ [report e (k + 1)] := by
  rw [reports, List.range_succ, List.map_append]
  rfl

theorem forked_said (k : Nat) :
    (Role.parent (k + 1)).said e = (Role.forked k).said e ++ [report e (k + 1)] := by
  rw [Role.said, reports_succ]
  rfl

theorem next_fork (pid : Int) (k : Nat) : (forking e).next .fork pid (.parent k) =
    if pid < 0 then .failed k else if pid = 0 then .child (k + 1) 0 else .forked k := rfl

/-- **Every call of every process keeps all of them where their roles say.** -/
theorem Sound.step (sound : Sound e x) (granted : Bool) (t : Nat) : Sound e (x.step e granted t) := by
  unfold Family.step
  split
  · rename_i status buffer found
    obtain ⟨r, number, among, ends, holds⟩ := sound.procs t _ found
    exact sound.exits found number among (Or.inr (Or.inr ends)) holds
  · rename_i o k buffer found
    obtain ⟨r, number, among, ⟨allowed, goes_on⟩, holds⟩ := sound.procs t _ found
    cases o with
    | fork =>
        obtain ⟨j, rfl, few⟩ := allowed
        obtain rfl : 0 = t := number
        have refused := goes_on (-1 : Int) (Or.inl rfl)
        have born := goes_on (0 : Int) (Or.inr (Or.inl rfl))
        have forked := goes_on (e.pidOf (j + 1) : Int) (Or.inr (Or.inr rfl))
        have positive := e.positive (j + 1)
        rw [next_fork, if_pos (by decide)] at refused
        rw [next_fork, if_neg (by decide), if_pos rfl] at born
        rw [next_fork, if_neg (by omega), if_neg (by omega),
          show j + 1 = x.procs.length from among] at forked
        cases granted with
        | true => exact sound.forks few among forked born holds
        | false => exact sound.silent (r := .failed j) found rfl among refused holds
    | getpid =>
        apply sound.silent found number among (goes_on (e.pidOf t : Int) ?_) holds
        rw [← number]
        rfl
    | sleep seconds => exact sound.silent found number among (goes_on () trivial) holds
    | printf text =>
        rcases allowed with ⟨j, rfl, rfl⟩ | ⟨u, said, rfl, found_text⟩
        · have filled : report e (j + 1) ≠ [] := List.concat_ne_nil _ _
          exact sound.says (r := .forked j) (q := .parent (j + 1)) found number among
            (goes_on () trivial) holds (forked_said j) filled
        · exact sound.says (r := .child u said) (q := .child u (said + 1)) found number among
            (goes_on () trivial) holds (child_said found_text) (childLines_filled found_text)
    | perror text =>
        obtain ⟨j, rfl⟩ := allowed
        apply Sound.complain
        exact sound.silent found number among (goes_on () trivial) holds
    | exit status =>
        apply sound.exits found number among ?_ holds
        rcases allowed with failed | done
        · exact Or.inl failed
        · exact Or.inr (Or.inl done)
  · exact sound
  · exact sound

theorem sound_started : Sound e Family.started := by
  refine ⟨fun t proc there => ?_, fun _ _ => rfl, by decide⟩
  cases t with
  | succ t => cases there
  | zero =>
      cases there
      refine ⟨.parent 0, rfl, rfl, rounds_follows 10 0 rfl, ?_⟩
      unfold Holds
      split
      · exact ⟨rfl, rfl⟩
      · exact ⟨rfl, rfl⟩

theorem Sound.run (sound : Sound e x) (steps : List (Bool × Nat)) : Sound e (x.run e steps) := by
  induction steps generalizing x with
  | nil => exact sound
  | cons step rest ih => exact ih (sound.step step.1 step.2)

/-! ## The lines -/

/-- What a process has said is the beginning of what it says. -/
theorem said_prefix {r : Role} (among : r.Among x.procs.length) :
    r.said e <+: ownLines e (x.procs.length - 1) r.number := by
  cases r with
  | parent k | failed k =>
      obtain rfl : k = x.procs.length - 1 := by
        rw [← show k + 1 = x.procs.length from among]
        rfl
      exact List.prefix_rfl
  | forked k =>
      rw [← show k + 2 = x.procs.length from among]
      show reports e k <+: reports e (k + 1)
      rw [reports_succ]
      exact List.prefix_append _ _
  | child u said =>
      have other : u ≠ 0 := Nat.ne_of_gt among.1
      show (childLines e u).take said <+: ownLines e _ u
      rw [ownLines, if_neg other]
      exact List.take_prefix _ _

/-- Who has exited has said everything. -/
theorem final_said {r : Role} {status : Int} (final : Final r status)
    (among : r.Among x.procs.length) : r.said e = ownLines e (x.procs.length - 1) r.number := by
  rcases final with ⟨k, rfl, -⟩ | ⟨u, rfl, -⟩ | ⟨rfl, -⟩
  · rw [← show k + 1 = x.procs.length from among]
    rfl
  · have other : u ≠ 0 := Nat.ne_of_gt among.1
    show (childLines e u).take 2 = ownLines e _ u
    rw [ownLines, if_neg other]
    rfl
  · rw [← show 10 + 1 = x.procs.length from among]
    rfl

theorem Sound.written (sound : Sound e x) : Written e x where
  few := sound.few
  terminal := by
    intro terminal t
    rcases Nat.lt_or_ge t x.procs.length with bound | beyond
    · have there := List.getElem?_eq_getElem bound
      obtain ⟨r, rfl, among, image⟩ := sound.procs t _ there
      cases which : (x.procs[r.number]).image with
      | running rest =>
          rw [which] at image
          have holds := image.2
          unfold Holds at holds
          rw [if_pos terminal] at holds
          rw [holds.2]
          exact said_prefix among
      | exited status =>
          rw [which] at image
          have left := image.2
          unfold Left at left
          rw [if_pos terminal] at left
          rw [left]
          exact said_prefix among
    · rw [sound.unborn t beyond]
      exact List.nil_prefix
  terminalExited := by
    intro terminal t status buffer there
    obtain ⟨r, rfl, among, final, left⟩ := sound.procs t _ there
    unfold Left at left
    rw [if_pos terminal] at left
    rw [left]
    exact final_said final among
  file := by
    intro file t rest buffer there
    obtain ⟨r, rfl, among, follows, holds⟩ := sound.procs t _ there
    unfold Holds at holds
    rw [if_neg (ne_true_of_eq_false file)] at holds
    exact holds.2
  fileExited := by
    intro file t status buffer there
    obtain ⟨r, rfl, among, final, left⟩ := sound.procs t _ there
    unfold Left at left
    rw [if_neg (ne_true_of_eq_false file)] at left
    rw [left, final_said final among]
  succeeded := by
    rintro t buffer there rfl
    obtain ⟨r, number, among, final, -⟩ := sound.procs 0 _ there
    rcases final with ⟨k, -, failed⟩ | ⟨u, rfl, -⟩ | ⟨rfl, -⟩
    · cases failed
    · exact absurd number (Nat.ne_of_gt among.1)
    · exact Eq.symm among

/-- **A child that writes into a file writes what its parent had not written yet, and then its
own lines; on a terminal everybody writes their own.** -/
theorem lines_written (e : Setting) (steps : List (Bool × Nat)) :
    Written e (Family.started.run e steps) :=
  (sound_started.run steps).written

end Steps

end Dreamscape.Userland.Forking
