/-
# Userland.MessageFile -- what read_proc_message leaves in its output file

A process looks at the message once, with `buffer_lock` held, so what it gets is nothing or
the whole line for a pid that was written to the module before: never a piece of a line, nor
pieces of two.  `message_copied` says so of every run, and of the output file, that it is the
texts of the processes that closed it since it was last emptied, laid over each other in that
order: one whole line unless a process lays a shorter line over a longer one.

No process writes or reads outside its buffer.
-/
import Dreamscape.Userland.ReadProcMessage
import Dreamscape.Modules.Message

namespace Dreamscape.Userland.ReadProcMessage

set_option autoImplicit false

open Theory Kernel
open MonitorV2 (State Tid)
open Modules (IsInt messageFor Talk talking)

/-! ## History -/

/-- What a thread has done so far. -/
inductive Part where
  | fresh
  /-- `hello_switch` has read the pid of the task switched in. -/
  | saw (pid : Nat)
  /-- It has found `target_pid` to be the same. -/
  | matched (pid : Nat)
  /-- It has read `target_pid` for its text. -/
  | holds (n : Int)
  /-- A process is in its `read`, and has looked at the message. -/
  | sees (message : List Char)
  /-- Its buffer begins with the text. -/
  | got (text : List Char)
  /-- It has opened the output file, and so emptied it. -/
  | opened (text : List Char)
  /-- The text is in its stream. -/
  | full (text : List Char)
  /-- It has closed the stream. -/
  | closed (text : List Char)
  /-- It has said so. -/
  | said (text : List Char)

/-- What the answer of the kernel makes of a thread. -/
def kernelNext (o : MonitorV2.Op) (a : o.Ans) (r : Part) : Part :=
  match o, a, r with
  | .currentPid, pid, .fresh => .saw pid
  | .targetPid, n, .saw pid => if n = pid then .matched pid else .fresh
  | .targetPid, n, .matched _ => .holds n
  | .message, message, .fresh => if message = [] then .got [] else .sees message
  | .copyToUser _, _, .sees message => .got message
  | _, _, r => r

/-- What the answer of the C library makes of a process. -/
def fileNext (o : FileOp) (a : o.Ans) (r : Part) : Part :=
  match o, a, r with
  | .fopenOutput, true, .got text => .opened text
  | .fwriteBuffer _, _, .opened text => .full text
  | .fcloseOutput, _, .full text => .closed text
  | .printf _, _, .closed text => .said text
  | _, _, r => r

def copying : Protocol sig Part where
  allowed o r :=
    match o with
    | .inl (.setTargetPid pid) => IsInt pid
    | .inl (.setMessage text) => ∃ n, r = .holds n ∧ text = messageFor n
    | .inl .message => r = .fresh
    | .inl (.copyToUser text) => r = .sees text ∧ text.length < bufSize
    | .inr (.storeChar i _) => ∃ text, r = .got text ∧ i = text.length ∧ text.length < bufSize
    | .inr .fopenOutput => ∃ text, r = .got text
    | .inr (.fwriteBuffer count) => ∃ text, r = .opened text ∧ count = text.length ∧ text.length < bufSize
    | .inr .fcloseOutput => ∃ text, r = .full text
    | .inr (.printf line) => ∃ text, r = .closed text ∧ line = contentsLine
    | _ => True
  possible o a _ :=
    match o, a with
    | .inl .message, message => message.length < bufSize
    | .inl (.copyToUser _), (left : Nat) => left = 0
    | _, _ => True
  next o a r :=
    match o, a with
    | .inl o, a => kernelNext o a r
    | .inr o, a => fileNext o a r

/-- A text handed on to the output file, and how much of it the disk took. -/
structure Piece where
  writer : Tid
  text : List Char
  accepted : Nat

def Piece.written (w : Piece) : List Char := w.text.take w.accepted

/-- What each thread has done, the pids that were stored, and what was written to the output
file since it was last emptied. -/
structure History where
  part : Tid → Part
  stored : List Int
  since : List Piece

def note (t : Tid) (e : Setting) (o : sig.Op) (a : sig.Ans o) (s : Machine) (x : History) : History where
  part := Function.update x.part t (copying.next o a (x.part t))
  stored :=
    match o with
    | .inl (.setTargetPid pid) => pid :: x.stored
    | _ => x.stored
  since :=
    match o, a with
    | .inr .fopenOutput, true => []
    | .inr .fcloseOutput, _ =>
        x.since ++ [⟨t, s.pending t, e.flushed (s.pending t).length⟩]
    | _, _ => x.since

abbrev Remembered := Machine × History

def History.blank : History := ⟨fun _ => .fresh, [], []⟩

def nothingElse (w : Empty) : Remembered → Remembered := nomatch w

/-- The machine and the threads after the given deeds. -/
def after (stack : Tid → Buffer) (before : Option (List Char)) (deeds : List Deed) :
    Pool sig Setting Remembered Result :=
  Pool.run (recorded kernel note) nothingElse ⟨(.loaded stack before, .blank), []⟩
    (deeds.map Deed.action)

/-! ## What is to be proved -/

/-- Nothing, or the line for a pid that was stored. -/
def IsReport (stored : List Int) (text : List Char) : Prop :=
  text = [] ∨ ∃ n ∈ stored, text = "hello world ".toList ++ formatInt n ++ ['\n']

/-- The pieces laid over each other. -/
def layers (pieces : List Piece) : List Char :=
  pieces.foldl (fun file w => overlay file w.written) []

/-- What holds of every run. -/
structure Copied (before : Option (List Char)) (c : Pool sig Setting Remembered Result) : Prop where
  /-- Nobody's next call is outside its buffer. -/
  inside : ∀ t e o k s, c.threads[t]? = some ⟨e, .call o k⟩ →
    kernel t e o c.shared.1 ≠ .fault .overrun s
  /-- The file is as it was, or what was written since it was last emptied. -/
  file : c.shared.1.output = before ∧ c.shared.2.since = [] ∨
    c.shared.1.output = some (layers c.shared.2.since)
  report : ∀ w ∈ c.shared.2.since, IsReport c.shared.2.stored w.text
  once : (c.shared.2.since.map Piece.writer).Nodup
  /-- A last piece at least as long as those before it is the file. -/
  last : ∀ w earlier, c.shared.2.since = earlier ++ [w] →
    (∀ v ∈ earlier, v.written.length ≤ w.written.length) → c.shared.1.output = some w.written
  returned : ∀ t e status, c.threads[t]? = some ⟨e, .ret (.exited status)⟩ →
    status = 0 ∧ (t, Stream.stdout, contentsLine) ∈ c.shared.1.printed

/-! ## What the programs do -/

/-- The part of a handler in the run, from its talk. -/
def partOf : Talk → Option Part
  | .silent => some .fresh
  | .saw pid => some (.saw pid)
  | .matched pid => some (.matched pid)
  | .holds n => some (.holds n)
  | .reading .. => none

theorem copying_allows {o : MonitorV2.Op} {r : Talk} {r' : Part} (related : partOf r = some r')
    (allowed : talking.allowed o r) : copying.allowed (.inl o) r' := by
  cases o with
  | setTargetPid pid => exact allowed
  | setMessage text =>
      obtain ⟨n, rfl, rfl⟩ := allowed
      cases related
      exact ⟨n, rfl, rfl⟩
  | message | copyToUser _ =>
      obtain ⟨got, text, rfl⟩ := allowed
      cases related
  | _ => trivial

theorem copying_answers {o : MonitorV2.Op} {a : o.Ans} {r : Talk} {r' : Part}
    (related : partOf r = some r') (allowed : talking.allowed o r) :
    talking.possible o a r ∧ partOf (talking.next o a r) = some (kernelNext o a r') := by
  cases o with
  | currentPid =>
      refine ⟨trivial, ?_⟩
      cases r <;> cases related <;> rfl
  | targetPid =>
      refine ⟨trivial, ?_⟩
      cases r with
      | saw pid =>
          cases related
          show partOf (if a = (pid : Int) then .matched pid else .silent) =
            some (if a = (pid : Int) then .matched pid else .fresh)
          split <;> rfl
      | silent | matched _ | holds _ | reading _ _ => cases related <;> rfl
  | message | copyToUser _ =>
      obtain ⟨got, text, rfl⟩ := allowed
      cases related
  | _ => exact ⟨trivial, related⟩

/-- A process that has returned has said that it wrote the file. -/
def Ends (r : Part) : Result → Prop
  | .handled _ => True
  | .exited status => status = 0 ∧ ∃ text, r = .said text

theorem handling_follows {p : MonitorV2.Code Int}
    (talks : p.Follows talking (fun r _ => r.NoReader) .silent) :
    (handling p).Follows copying Ends .fresh := by
  rw [handling, Prog.follows_bind]
  exact talks.inl (fun r r' => partOf r = some r') copying_allows
    (fun related allowed _ => copying_answers related allowed) (fun _ _ _ _ _ => trivial) rfl

/-- Where a `read` leaves a process: with an error, or with so many characters. -/
def HasRead (r : Part) (count : Int) : Prop :=
  0 ≤ count → ∃ text, r = .got text ∧ count = text.length ∧ text.length < bufSize

theorem messageRead_follows :
    ((TestModule.messageRead (bufSize - 1) 0).inl : Code (Int × Int)).Follows copying
      (fun r a => HasRead r a.1) .fresh := by
  have unlocks : ∀ {r : Part} {len : Int × Int}, HasRead r len.1 →
      ((do MonitorV2.spinUnlock; return len : MonitorV2.Code (Int × Int)).inl :
        Code (Int × Int)).Follows copying (fun r a => HasRead r a.1) r :=
    fun done => ⟨trivial, fun _ _ => done⟩
  refine ⟨trivial, fun _ _ => ⟨rfl, ?_⟩⟩
  intro (message : List Char) (short : message.length < bufSize)
  show ((MonitorV2.simpleReadFromBuffer (bufSize - 1) 0 message >>= fun len => do
    MonitorV2.spinUnlock
    return len : MonitorV2.Code (Int × Int)).inl : Code (Int × Int)).Follows copying _
    (if message = [] then .got [] else .sees message)
  unfold MonitorV2.simpleReadFromBuffer
  rw [if_neg (Int.lt_irrefl 0)]
  by_cases empty : message = []
  · subst empty
    rw [if_pos (Or.inl (by decide)), if_pos rfl]
    exact unlocks fun _ => ⟨[], rfl, rfl, short⟩
  · have nonempty : 0 < message.length := List.length_pos_iff.mpr empty
    rw [if_neg (by omega), if_neg empty]
    have whole : (message.drop (0 : Int).toNat).take (bufSize - 1) = message :=
      List.take_of_length_le (Nat.le_sub_one_of_lt short)
    simp only [whole]
    refine ⟨⟨rfl, short⟩, ?_⟩
    rintro (left : Nat) (rfl : left = 0)
    show ((if 0 = message.length then _ else _ : MonitorV2.Code (Int × Int)) >>= _).inl.Follows copying _
      (.got message)
    rw [if_neg (by omega)]
    exact unlocks fun _ => ⟨message, rfl, by simp, short⟩

theorem read_follows : (read (bufSize - 1)).Follows copying HasRead .fresh := by
  have failed : HasRead .fresh (-1) := fun positive => absurd positive (by decide)
  refine ⟨trivial, fun (delivered : Bool) _ => ?_⟩
  cases delivered with
  | false => exact failed
  | true =>
      show (Prog.inl _ >>= _).Follows copying HasRead .fresh
      rw [Prog.follows_bind]
      refine messageRead_follows.mono fun r a hasRead => ?_
      obtain ⟨ret, ppos⟩ := a
      show HasRead r (if ret < 0 then -1 else ret)
      split
      · exact fun positive => absurd positive (by decide)
      · exact hasRead

theorem exit_follows {α : Type} {Q : Part → α → Prop} {r : Part} (status : Int) :
    (exit status : Code α).Follows copying Q r :=
  ⟨trivial, fun a => a.elim⟩

/-- From the first byte behind the text to the end of `main`. -/
theorem copies_follows {text : List Char} (short : text.length < bufSize) (fd : Int) :
    (do
      storeChar text.length '\x00'
      if ← fopenOutput then
        fwriteBuffer text.length
        fcloseOutput
        close fd
        printf contentsLine
        return 0
      else
        perror "Error opening output file".toList
        close fd
        exit 1 : Code Int).Follows copying (fun r status => Ends r (.exited status)) (.got text) := by
  refine ⟨⟨text, rfl, rfl, short⟩, fun _ _ => ⟨⟨text, rfl⟩, ?_⟩⟩
  intro (opened : Bool) _
  cases opened with
  | false => exact ⟨trivial, fun _ _ => ⟨trivial, fun _ _ => exit_follows 1⟩⟩
  | true =>
      refine ⟨⟨text, rfl, rfl, short⟩, fun _ _ => ⟨⟨text, rfl⟩, fun _ _ => ⟨trivial, ?_⟩⟩⟩
      exact fun _ _ => ⟨⟨text, rfl, rfl⟩, fun _ _ => ⟨rfl, text, rfl⟩⟩

theorem main_follows : (running main).Follows copying Ends .fresh := by
  rw [running, Prog.follows_bind, main]
  refine ⟨trivial, fun (fd : Int) _ => ?_⟩
  show (if fd < 0 then _ else _ : Code Int).Follows copying _ .fresh
  split
  · exact ⟨trivial, fun _ _ => exit_follows 1⟩
  · show (read (bufSize - 1) >>= _).Follows copying _ .fresh
    rw [Prog.follows_bind]
    refine read_follows.mono fun r count hasRead => ?_
    split
    · exact ⟨trivial, fun _ _ => ⟨trivial, fun _ _ => exit_follows 1⟩⟩
    · rename_i positive
      obtain ⟨text, rfl, rfl, short⟩ := hasRead (Int.not_lt.mp positive)
      exact copies_follows short fd

/-! ## What the machine does -/

section Answers

variable {t : Tid} {e : Setting} {s s' : Machine}

/-- To the module it is the kernel that answers. -/
theorem kernel_state {o : MonitorV2.Op} {a : o.Ans} (answered : kernel t e (.inl o) s = .done a s') :
    MonitorV2.kernel t e.env o s.state = .done a s'.state := by
  cases o with
  | copyToUser text =>
      simp only [kernel] at answered
      split at answered
      · cases answered
        rfl
      · cases answered
  | _ =>
      simp only [kernel, kernelCall] at answered
      split at answered
      · rename_i inner
        cases answered
        exact inner
      · cases answered
      · cases answered

/-- Beside the module only `copy_to_user` changes anything. -/
theorem kernel_beside {o : MonitorV2.Op} {a : o.Ans} (other : ∀ text, o ≠ .copyToUser text)
    (answered : kernel t e (.inl o) s = .done a s') : s' = { s with state := s'.state } := by
  cases o with
  | copyToUser text => exact absurd rfl (other text)
  | _ =>
      simp only [kernel, kernelCall] at answered
      split at answered
      · cases answered
        rfl
      · cases answered
      · cases answered

/-- `copy_to_user` writes the whole text to the beginning of the buffer. -/
theorem copyToUser_done {text : List Char} {left : Nat}
    (answered : kernel t e (.inl (.copyToUser text)) s = .done left s') :
    left = 0 ∧ ∃ rest, s' = s.setBuffer t rest ∧ text <+: rest.chars := by
  simp only [kernel] at answered
  split at answered
  · cases answered
    rw [e.mapped]
    refine ⟨rfl, _, rfl, ?_⟩
    simp only [Nat.sub_zero, Buffer.store, overlay, List.take_length]
    exact List.prefix_append text _
  · cases answered

/-- The C library does not touch the module. -/
theorem kernel_file_state {o : FileOp} {a : o.Ans} (answered : kernel t e (.inr o) s = .done a s') :
    s'.state = s.state := by
  cases o <;> simp only [kernel] at answered <;> first
    | (cases answered; rfl)
    | (split at answered <;> cases answered <;> rfl)
    | cases answered

end Answers

/-! ## What holds in every run -/

/-- What a thread is to say or has got is about stored pids. -/
def Part.Known (stored : List Int) : Part → Prop
  | .fresh | .saw _ => True
  | .matched _ => ∃ n, n ∈ stored
  | .holds n => n ∈ stored
  | .sees text | .got text | .opened text | .full text | .closed text | .said text => IsReport stored text

/-- The text its buffer begins with. -/
def Part.held : Part → List Char
  | .got text | .opened text => text
  | _ => []

/-- The text in its stream. -/
def Part.pending : Part → List Char
  | .full text => text
  | _ => []

/-- It has the output file open. -/
def Part.Writing : Part → Prop
  | .opened _ | .full _ => True
  | _ => False

/-- What it has handed on. -/
def Part.copied : Part → Option (List Char)
  | .closed text | .said text => some text
  | _ => none

/-- It has nothing of the message yet, or it is no process. -/
def Part.Idle : Part → Prop
  | .fresh | .saw _ | .matched _ | .holds _ | .sees _ => True
  | .got text => text = []
  | .opened _ | .full _ | .closed _ | .said _ => False

structure Part.Untouched (r : Part) : Prop where
  held : r.held = []
  pending : r.pending = []
  writing : ¬r.Writing
  copied : r.copied = none

theorem Part.Idle.untouched {r : Part} (idle : r.Idle) : r.Untouched := by
  cases r with
  | got text => exact ⟨idle, rfl, not_false, rfl⟩
  | opened _ | full _ | closed _ | said _ => exact idle.elim
  | _ => exact ⟨rfl, rfl, not_false, rfl⟩

/-- What an answer of the kernel can make of a thread: only `copy_to_user` gets it something. -/
theorem kernelNext_cases (o : MonitorV2.Op) (a : o.Ans) (r : Part) :
    kernelNext o a r = r ∨ r.Idle ∧ (kernelNext o a r).Idle ∨
      ∃ text message, o = .copyToUser text ∧ r = .sees message ∧ kernelNext o a r = .got message := by
  cases o with
  | currentPid =>
      cases r with
      | fresh => exact Or.inr (Or.inl ⟨trivial, trivial⟩)
      | _ => exact Or.inl rfl
  | targetPid =>
      cases r with
      | saw pid =>
          refine Or.inr (Or.inl ⟨trivial, ?_⟩)
          show Part.Idle (if a = (pid : Int) then .matched pid else .fresh)
          split <;> trivial
      | matched pid => exact Or.inr (Or.inl ⟨trivial, trivial⟩)
      | _ => exact Or.inl rfl
  | message =>
      cases r with
      | fresh =>
          refine Or.inr (Or.inl ⟨trivial, ?_⟩)
          show Part.Idle (if a = [] then .got [] else .sees a)
          split <;> trivial
      | _ => exact Or.inl rfl
  | copyToUser text =>
      cases r with
      | sees message => exact Or.inr (Or.inr ⟨text, message, rfl, rfl, rfl⟩)
      | _ => exact Or.inl rfl
  | _ => exact Or.inl rfl

/-- What an answer of the C library can make of a process. -/
theorem fileNext_cases (o : FileOp) (a : o.Ans) (r : Part) :
    fileNext o a r = r ∨ ∃ text,
      o = .fopenOutput ∧ r = .got text ∧ fileNext o a r = .opened text ∨
      (∃ count, o = .fwriteBuffer count) ∧ r = .opened text ∧ fileNext o a r = .full text ∨
      o = .fcloseOutput ∧ r = .full text ∧ fileNext o a r = .closed text ∨
      (∃ line, o = .printf line) ∧ r = .closed text ∧ fileNext o a r = .said text := by
  cases o with
  | fopenOutput =>
      cases r with
      | got text =>
          cases a with
          | false => exact Or.inl rfl
          | true => exact Or.inr ⟨text, Or.inl ⟨rfl, rfl, rfl⟩⟩
      | _ => cases a <;> exact Or.inl rfl
  | fwriteBuffer count =>
      cases r with
      | opened text => exact Or.inr ⟨text, Or.inr (Or.inl ⟨⟨count, rfl⟩, rfl, rfl⟩)⟩
      | _ => exact Or.inl rfl
  | fcloseOutput =>
      cases r with
      | full text => exact Or.inr ⟨text, Or.inr (Or.inr (Or.inl ⟨rfl, rfl, rfl⟩))⟩
      | _ => exact Or.inl rfl
  | printf line =>
      cases r with
      | closed text => exact Or.inr ⟨text, Or.inr (Or.inr (Or.inr ⟨⟨line, rfl⟩, rfl, rfl⟩))⟩
      | _ => exact Or.inl rfl
  | _ => exact Or.inl rfl

structure Words (s : State) (x : History) : Prop where
  target : s.holdings.targetPid ∈ x.stored ∨ s.holdings.targetPid = -1 ∧ x.stored = []
  known : ∀ n ∈ x.stored, IsInt n
  message : IsReport x.stored s.messageBuffer
  parts : ∀ t, (x.part t).Known x.stored

structure Memory (s : Machine) (x : History) : Prop where
  buffer : ∀ t, (x.part t).held <+: (s.buffer t).chars
  pending : ∀ t, s.pending t = (x.part t).pending

structure Output (before : Option (List Char)) (s : Machine) (x : History) : Prop where
  file : s.output = before ∧ x.since = [] ∧ (∀ t, ¬(x.part t).Writing) ∨ s.output = some (layers x.since)
  since : ∀ w ∈ x.since, (x.part w.writer).copied = some w.text
  once : (x.since.map Piece.writer).Nodup
  printed : ∀ t text, x.part t = .said text → (t, Stream.stdout, contentsLine) ∈ s.printed

structure Sound (before : Option (List Char)) (c : Remembered) : Prop where
  words : Words c.1.state c.2
  memory : Memory c.1 c.2
  output : Output before c.1 c.2

/-! ## Words -/

theorem IsReport.mono {stored stored' : List Int} (grows : stored ⊆ stored') {text : List Char}
    (report : IsReport stored text) : IsReport stored' text := by
  rcases report with empty | ⟨n, member, same⟩
  · exact Or.inl empty
  · exact Or.inr ⟨n, grows member, same⟩

/-- A report fits the buffer. -/
theorem IsReport.short {stored : List Int} (known : ∀ n ∈ stored, IsInt n) {text : List Char}
    (report : IsReport stored text) : text.length < bufSize := by
  rcases report with rfl | ⟨n, member, rfl⟩
  · decide
  · rw [← Modules.messageFor_whole (known n member), messageFor, List.length_take]
    exact Nat.lt_of_le_of_lt (Nat.min_le_left ..) (by decide)

theorem Part.Known.mono {stored stored' : List Int} (grows : stored ⊆ stored') {r : Part}
    (known : r.Known stored) : r.Known stored' := by
  cases r with
  | fresh | saw _ => trivial
  | matched _ =>
      obtain ⟨n, member⟩ := known
      exact ⟨n, grows member⟩
  | holds n => exact grows known
  | sees _ | got _ | opened _ | full _ | closed _ | said _ => exact IsReport.mono grows known

section Words

variable {t : Tid} {s s' : State} {x : History}

theorem sameWords {env : MonitorV2.Env} {o : MonitorV2.Op} {a : o.Ans} (wordless : Modules.Op.Wordless o)
    (answered : MonitorV2.kernel t env o s = .done a s') : Modules.SameWords s s' := by
  have same := Modules.kernel_wordless (t := t) (e := env) wordless s
  rwa [answered] at same

/-- What a thread has been told by the module is about stored pids. -/
theorem kernelNext_known {env : MonitorV2.Env} {o : MonitorV2.Op} {a : o.Ans} (words : Words s x)
    (answered : MonitorV2.kernel t env o s = .done a s') :
    (kernelNext o a (x.part t)).Known x.stored := by
  have known := words.parts t
  cases o with
  | currentPid =>
      cases before : x.part t <;> rw [before] at known <;> exact known
  | targetPid =>
      cases answered
      cases before : x.part t with
      | saw pid =>
          show Part.Known _ (if s.holdings.targetPid = (pid : Int) then .matched pid else .fresh)
          split
          · rename_i same
            rcases words.target with member | unset
            · exact ⟨_, member⟩
            · exact absurd (unset.1.symm.trans same) (by omega)
          · trivial
      | matched pid =>
          rw [before] at known
          obtain ⟨n, member⟩ := known
          exact words.target.resolve_right fun unset => List.ne_nil_of_mem member unset.2
      | fresh | holds _ | sees _ | got _ | opened _ | full _ | closed _ | said _ =>
          rw [before] at known
          exact known
  | message =>
      cases answered
      cases before : x.part t with
      | fresh =>
          show Part.Known _ (if s.messageBuffer = [] then .got [] else .sees s.messageBuffer)
          split
          · exact Or.inl rfl
          · exact words.message
      | saw _ | matched _ | holds _ | sees _ | got _ | opened _ | full _ | closed _ | said _ =>
          rw [before] at known
          exact known
  | copyToUser text =>
      cases before : x.part t <;> rw [before] at known <;> exact known
  | _ => exact known

theorem fileNext_known {stored : List Int} {o : FileOp} {a : o.Ans} {r : Part} (known : r.Known stored) :
    (fileNext o a r).Known stored := by
  rcases fileNext_cases o a r with same | ⟨text, ⟨-, rfl, next⟩ | ⟨-, rfl, next⟩ | ⟨-, rfl, next⟩ |
    ⟨-, rfl, next⟩⟩
  · rwa [same]
  all_goals
    rw [next]
    exact known

end Words

section Note

variable {t : Tid} {e : Setting} {o : sig.Op} {a : sig.Ans o} {s : Machine} {x : History}

theorem note_own : (note t e o a s x).part t = copying.next o a (x.part t) := Function.update_self ..

theorem note_other {u : Tid} (other : u ≠ t) : (note t e o a s x).part u = x.part u :=
  Function.update_of_ne other ..

theorem note_grows : x.stored ⊆ (note t e o a s x).stored := by
  unfold note
  dsimp only
  split
  · exact List.subset_cons_self _ _
  · exact List.Subset.refl _

/-- What holds of the other threads holds of every thread if it does of the one that was
answered. -/
theorem note_parts (holds : Tid → Part → Prop) (others : ∀ u, u ≠ t → holds u (x.part u))
    (own : holds t (copying.next o a (x.part t))) : ∀ u, holds u ((note t e o a s x).part u) := by
  intro u
  by_cases same : u = t
  · rw [same, note_own]
    exact own
  · rw [note_other same]
    exact others u same

end Note

theorem words_step {t : Tid} {e : Setting} {o : sig.Op} {a : sig.Ans o} {s s' : Machine} {x : History}
    (words : Words s.state x) (allowed : copying.allowed o (x.part t))
    (answered : kernel t e o s = .done a s') : Words s'.state (note t e o a s x) := by
  have others : ∀ u, u ≠ t → (x.part u).Known (note t e o a s x).stored :=
    fun u _ => (words.parts u).mono note_grows
  cases o with
  | inr o =>
      rw [kernel_file_state answered]
      exact ⟨words.target, words.known, words.message,
        note_parts _ others (fileNext_known (words.parts t))⟩
  | inl o =>
      replace answered := kernel_state answered
      have parts : ∀ u, ((note t e (.inl o) a s x).part u).Known (note t e (.inl o) a s x).stored :=
        note_parts _ others ((kernelNext_known words answered).mono note_grows)
      by_cases wordless : Modules.Op.Wordless o
      · have same := sameWords wordless answered
        have kept : (note t e (.inl o) a s x).stored = x.stored := by
          cases o <;> first | exact wordless.elim | rfl
        refine ⟨?_, ?_, ?_, parts⟩
        · rw [kept, same.targetPid]
          exact words.target
        · rw [kept]
          exact words.known
        · rw [kept, same.message]
          exact words.message
      · cases o <;> first | exact absurd trivial wordless | skip
        · rename_i pid
          have same : s'.state = s.state.holding { s.state.holdings with targetPid := pid } :=
            (congrArg Outcome.state answered).symm
          refine ⟨?_, fun n member => ?_, ?_, parts⟩
          · rw [same]
            exact Or.inl List.mem_cons_self
          · rcases List.mem_cons.mp member with rfl | member
            · exact allowed
            · exact words.known n member
          · rw [same]
            exact words.message.mono note_grows
        · rename_i text
          have same : s'.state = { s.state with messageBuffer := text } :=
            (congrArg Outcome.state answered).symm
          obtain ⟨n, holds, rfl⟩ := allowed
          have member := words.parts t
          rw [holds] at member
          rw [same]
          exact ⟨words.target, words.known,
            Or.inr ⟨n, member, Modules.messageFor_whole (words.known n member)⟩, parts⟩

/-! ## Memory -/

section Memory

variable {t u : Tid} {e : Setting} {s s' : Machine} {x : History}

/-- A process writes its own memory only. -/
theorem kernel_elsewhere {o : sig.Op} {a : sig.Ans o} (other : u ≠ t)
    (answered : kernel t e o s = .done a s') : s'.buffer u = s.buffer u ∧ s'.pending u = s.pending u := by
  cases o with
  | inl o =>
      by_cases copies : ∃ text, o = .copyToUser text
      · obtain ⟨text, rfl⟩ := copies
        obtain ⟨-, rest, rfl, -⟩ := copyToUser_done answered
        exact ⟨Function.update_of_ne other .., rfl⟩
      · rw [kernel_beside (fun text same => copies ⟨text, same⟩) answered]
        exact ⟨rfl, rfl⟩
  | inr o =>
      cases o <;> simp only [kernel] at answered <;> first
        | (cases answered; exact ⟨rfl, rfl⟩)
        | (cases answered; exact ⟨rfl, Function.update_of_ne other ..⟩)
        | (split at answered <;> cases answered <;> exact ⟨rfl, rfl⟩)
        | (split at answered <;> cases answered <;> exact ⟨Function.update_of_ne other .., rfl⟩)
        | (split at answered <;> cases answered <;> exact ⟨rfl, Function.update_of_ne other ..⟩)
        | cases answered

/-- Only `copy_to_user` puts a text into the buffer. -/
theorem kernelNext_held {o : MonitorV2.Op} (other : ∀ text, o ≠ .copyToUser text) (a : o.Ans) (r : Part) :
    (kernelNext o a r).held = r.held := by
  rcases kernelNext_cases o a r with same | ⟨idle, still⟩ | ⟨text, _, copies, -, -⟩
  · rw [same]
  · rw [idle.untouched.held, still.untouched.held]
  · exact absurd copies (other text)

theorem kernelNext_pending (o : MonitorV2.Op) (a : o.Ans) (r : Part) :
    (kernelNext o a r).pending = r.pending := by
  rcases kernelNext_cases o a r with same | ⟨idle, still⟩ | ⟨_, message, -, rfl, next⟩
  · rw [same]
  · rw [idle.untouched.pending, still.untouched.pending]
  · rw [next]
    rfl

theorem fileNext_held (o : FileOp) (a : o.Ans) (r : Part) : (fileNext o a r).held <+: r.held := by
  rcases fileNext_cases o a r with same | ⟨text, ⟨-, rfl, next⟩ | ⟨-, rfl, next⟩ | ⟨-, rfl, next⟩ |
    ⟨-, rfl, next⟩⟩
  · rw [same]
  all_goals rw [next]
  · exact List.prefix_rfl
  · exact List.nil_prefix
  · exact List.prefix_rfl
  · exact List.prefix_rfl

/-- A character behind a text leaves it. -/
theorem prefix_set {text chars : List Char} (begins : text <+: chars) (c : Char) :
    text <+: chars.set text.length c := by
  obtain ⟨rest, rfl⟩ := begins
  rw [List.set_append_right _ _ (Nat.le_refl _)]
  exact List.prefix_append ..

theorem own_buffer {o : sig.Op} {a : sig.Ans o} (memory : Memory s x)
    (allowed : copying.allowed o (x.part t)) (answered : kernel t e o s = .done a s') :
    (copying.next o a (x.part t)).held <+: (s'.buffer t).chars := by
  have begins := memory.buffer t
  cases o with
  | inl o =>
      by_cases copies : ∃ text, o = .copyToUser text
      · obtain ⟨text, rfl⟩ := copies
        obtain ⟨-, rest, rfl, written⟩ := copyToUser_done answered
        obtain ⟨sees, -⟩ := allowed
        rw [sees]
        show text <+: (Function.update s.buffer t rest t).chars
        rwa [Function.update_self]
      · replace copies : ∀ text, o ≠ .copyToUser text := fun text same => copies ⟨text, same⟩
        have same : (copying.next (.inl o) a (x.part t)).held = (x.part t).held :=
          kernelNext_held copies a _
        rw [kernel_beside copies answered, same]
        exact begins
  | inr o =>
      have shrinks : (copying.next (.inr o) a (x.part t)).held <+: (x.part t).held := fileNext_held o a _
      cases o with
      | storeChar i c =>
          obtain ⟨text, got, rfl, -⟩ := allowed
          rw [got] at begins ⊢
          simp only [kernel] at answered
          split at answered
          · cases answered
            show text <+: (Function.update s.buffer t ((s.buffer t).set (text.length : Int).toNat c) t).chars
            rw [Function.update_self]
            exact prefix_set begins c
          · cases answered
      | exit status => exact a.elim
      | _ =>
          refine shrinks.trans ?_
          simp only [kernel] at answered
          first
            | (cases answered; exact begins)
            | (split at answered <;> cases answered <;> exact begins)

theorem own_pending {o : sig.Op} {a : sig.Ans o} (memory : Memory s x)
    (allowed : copying.allowed o (x.part t)) (answered : kernel t e o s = .done a s') :
    s'.pending t = (copying.next o a (x.part t)).pending := by
  have same := memory.pending t
  cases o with
  | inl o =>
      have kept : (copying.next (.inl o) a (x.part t)).pending = (x.part t).pending :=
        kernelNext_pending o a _
      rw [kept, ← same]
      by_cases copies : ∃ text, o = .copyToUser text
      · obtain ⟨text, rfl⟩ := copies
        obtain ⟨-, rest, rfl, -⟩ := copyToUser_done answered
        rfl
      · rw [kernel_beside (fun text same => copies ⟨text, same⟩) answered]
  | inr o =>
      cases o with
      | fwriteBuffer count =>
          obtain ⟨text, opened, rfl, -⟩ := allowed
          have begins := memory.buffer t
          rw [opened] at same begins ⊢
          simp only [kernel] at answered
          split at answered
          · cases answered
            show Function.update s.pending t _ t = text
            rw [Function.update_self, same]
            exact (List.prefix_iff_eq_take.mp begins).symm
          · cases answered
      | fcloseOutput =>
          obtain ⟨text, full⟩ := allowed
          rw [full]
          cases answered
          exact Function.update_self ..
      | fopenOutput =>
          obtain ⟨text, got⟩ := allowed
          rw [got] at same ⊢
          simp only [kernel] at answered
          split at answered <;> cases answered <;> exact same
      | storeChar i c =>
          simp only [kernel] at answered
          split at answered <;> cases answered
          exact same
      | printf line =>
          obtain ⟨text, closed, -⟩ := allowed
          rw [closed] at same ⊢
          cases answered
          exact same
      | exit status => exact a.elim
      | _ =>
          cases answered
          exact same

theorem memory_step {o : sig.Op} {a : sig.Ans o} (memory : Memory s x)
    (allowed : copying.allowed o (x.part t)) (answered : kernel t e o s = .done a s') :
    Memory s' (note t e o a s x) where
  buffer := by
    refine note_parts (fun u r => r.held <+: (s'.buffer u).chars) (fun u other => ?_)
      (own_buffer memory allowed answered)
    rw [(kernel_elsewhere other answered).1]
    exact memory.buffer u
  pending := by
    refine note_parts (fun u r => s'.pending u = r.pending) (fun u other => ?_)
      (own_pending memory allowed answered)
    exact (kernel_elsewhere other answered).2.trans (memory.pending u)

end Memory

/-! ## The output file -/

section Output

variable {t : Tid} {e : Setting} {s s' : Machine} {x : History} {before : Option (List Char)}

/-- Nobody forgets what it has handed on. -/
theorem next_copied (o : sig.Op) (a : sig.Ans o) {r : Part} {text : List Char}
    (copied : r.copied = some text) : (copying.next o a r).copied = some text := by
  cases o with
  | inl o =>
      rcases kernelNext_cases o a r with same | ⟨idle, -⟩ | ⟨_, message, -, rfl, -⟩
      · exact (congrArg Part.copied same).trans copied
      · rw [idle.untouched.copied] at copied
        cases copied
      · cases copied
  | inr o =>
      rcases fileNext_cases o a r with same | ⟨text', ⟨-, rfl, -⟩ | ⟨-, rfl, -⟩ | ⟨-, rfl, -⟩ |
        ⟨-, rfl, next⟩⟩
      · exact (congrArg Part.copied same).trans copied
      · cases copied
      · cases copied
      · cases copied
      · exact (congrArg Part.copied next).trans copied

/-- Who is writing after a call that does not open the file was writing before. -/
theorem next_writing {o : sig.Op} {a : sig.Ans o} (other : o ≠ .inr .fopenOutput) {r : Part}
    (writing : (copying.next o a r).Writing) : r.Writing := by
  cases o with
  | inl o =>
      change (kernelNext o a r).Writing at writing
      rcases kernelNext_cases o a r with same | ⟨-, still⟩ | ⟨_, message, -, -, next⟩
      · rwa [same] at writing
      · exact absurd writing still.untouched.writing
      · rw [next] at writing
        exact writing.elim
  | inr o =>
      change (fileNext o a r).Writing at writing
      rcases fileNext_cases o a r with same | ⟨text, ⟨rfl, -, -⟩ | ⟨-, rfl, -⟩ | ⟨-, -, next⟩ |
        ⟨-, -, next⟩⟩
      · rwa [same] at writing
      · exact absurd rfl other
      · trivial
      · rw [next] at writing
        exact writing.elim
      · rw [next] at writing
        exact writing.elim

/-- Who has said so after a call that prints nothing on stdout had said so before. -/
theorem next_said {o : sig.Op} {a : sig.Ans o} (other : ∀ line, o ≠ .inr (.printf line)) {r : Part}
    {text : List Char} (said : copying.next o a r = .said text) : r = .said text := by
  cases o with
  | inl o =>
      change kernelNext o a r = .said text at said
      rcases kernelNext_cases o a r with same | ⟨-, still⟩ | ⟨_, message, -, -, next⟩
      · exact same.symm.trans said
      · rw [said] at still
        exact still.elim
      · cases next.symm.trans said
  | inr o =>
      change fileNext o a r = .said text at said
      rcases fileNext_cases o a r with same | ⟨text', ⟨-, -, next⟩ | ⟨-, -, next⟩ | ⟨-, -, next⟩ |
        ⟨⟨line, rfl⟩, -, -⟩⟩
      · exact same.symm.trans said
      · cases next.symm.trans said
      · cases next.symm.trans said
      · cases next.symm.trans said
      · exact absurd rfl (other line)

theorem note_part (o : sig.Op) (a : sig.Ans o) (u : Tid) :
    (note t e o a s x).part u = x.part u ∨
      u = t ∧ (note t e o a s x).part u = copying.next o a (x.part u) := by
  by_cases same : u = t
  · subst same
    exact Or.inr ⟨rfl, note_own⟩
  · exact Or.inl (note_other same)

variable {o : sig.Op} {a : sig.Ans o}

theorem kernel_output (opens : o ≠ .inr .fopenOutput) (closes : o ≠ .inr .fcloseOutput)
    (answered : kernel t e o s = .done a s') : s'.output = s.output := by
  cases o with
  | inl o =>
      by_cases copies : ∃ text, o = .copyToUser text
      · obtain ⟨text, rfl⟩ := copies
        obtain ⟨-, rest, rfl, -⟩ := copyToUser_done answered
        rfl
      · rw [kernel_beside (fun text same => copies ⟨text, same⟩) answered]
  | inr o =>
      cases o with
      | fopenOutput => exact absurd rfl opens
      | fcloseOutput => exact absurd rfl closes
      | exit status => exact a.elim
      | storeChar _ _ | fwriteBuffer _ =>
          simp only [kernel] at answered
          split at answered <;> cases answered
          rfl
      | _ =>
          cases answered
          rfl

theorem kernel_printed (answered : kernel t e o s = .done a s') : s.printed ⊆ s'.printed := by
  cases o with
  | inl o =>
      by_cases copies : ∃ text, o = .copyToUser text
      · obtain ⟨text, rfl⟩ := copies
        obtain ⟨-, rest, rfl, -⟩ := copyToUser_done answered
        exact List.Subset.refl _
      · rw [kernel_beside (fun text same => copies ⟨text, same⟩) answered]
        exact List.Subset.refl _
  | inr o =>
      cases o with
      | exit status => exact a.elim
      | perror text | printf text =>
          cases answered
          exact List.subset_append_left _ _
      | storeChar _ _ | fwriteBuffer _ | fopenOutput =>
          simp only [kernel] at answered
          split at answered <;> cases answered <;> exact List.Subset.refl _
      | _ =>
          cases answered
          exact List.Subset.refl _

theorem note_since (opens : o ≠ .inr .fopenOutput) (closes : o ≠ .inr .fcloseOutput) :
    (note t e o a s x).since = x.since := by
  cases o with
  | inl o => rfl
  | inr o =>
      cases o with
      | fopenOutput => exact absurd rfl opens
      | fcloseOutput => exact absurd rfl closes
      | _ => rfl

theorem layers_snoc (pieces : List Piece) (w : Piece) :
    layers (pieces ++ [w]) = overlay (layers pieces) w.written :=
  List.foldl_append

theorem since_kept (output : Output before s x) :
    ∀ w ∈ x.since, ((note t e o a s x).part w.writer).copied = some w.text := by
  intro w member
  rcases note_part (t := t) (e := e) (s := s) (x := x) o a w.writer with same | ⟨-, next⟩
  · exact (congrArg Part.copied same).trans (output.since w member)
  · exact (congrArg Part.copied next).trans (next_copied o a (output.since w member))

theorem printed_kept (output : Output before s x) (allowed : copying.allowed o (x.part t))
    (answered : kernel t e o s = .done a s') :
    ∀ u text, (note t e o a s x).part u = .said text →
      (u, Stream.stdout, contentsLine) ∈ s'.printed := by
  intro u text said
  rcases note_part (t := t) (e := e) (s := s) (x := x) o a u with same | ⟨rfl, next⟩
  · exact kernel_printed answered (output.printed u text (same.symm.trans said))
  · by_cases prints : ∃ line, o = .inr (.printf line)
    · obtain ⟨line, rfl⟩ := prints
      obtain ⟨text', -, rfl⟩ := allowed
      cases answered
      exact List.mem_append_right _ List.mem_cons_self
    · have before := next_said (fun line same => prints ⟨line, same⟩) (next.symm.trans said)
      exact kernel_printed answered (output.printed u text before)

/-- A call after which the file is as it was, and nobody is writing who was not. -/
theorem output_kept (output : Output before s x) (allowed : copying.allowed o (x.part t))
    (answered : kernel t e o s = .done a s') (file : s'.output = s.output)
    (since : (note t e o a s x).since = x.since)
    (writing : (copying.next o a (x.part t)).Writing → (x.part t).Writing) :
    Output before s' (note t e o a s x) := by
  refine ⟨?_, ?_, ?_, printed_kept output allowed answered⟩
  · rw [file, since]
    rcases output.file with ⟨same, empty, nobody⟩ | laid
    · refine Or.inl ⟨same, empty, fun u here => nobody u ?_⟩
      rcases note_part (t := t) (e := e) (s := s) (x := x) o a u with same | ⟨rfl, next⟩
      · rwa [same] at here
      · rw [next] at here
        exact writing here
    · exact Or.inr laid
  · rw [since]
    exact since_kept output
  · rw [since]
    exact output.once

theorem refused_next (r : Part) : copying.next (.inr .fopenOutput) false r = r := by
  cases r <;> rfl

/-- A process opens the output file, or is refused. -/
theorem fopen_output {opened : sig.Ans (.inr .fopenOutput)} (output : Output before s x)
    (allowed : copying.allowed (.inr .fopenOutput) (x.part t))
    (answered : kernel t e (.inr .fopenOutput) s = .done opened s') :
    Output before s' (note t e (.inr .fopenOutput) opened s x) := by
  have printed := printed_kept output allowed answered
  have answer := answered
  simp only [kernel] at answer
  split at answer
  · cases answer
    exact ⟨Or.inr rfl, fun w member => absurd member List.not_mem_nil, List.nodup_nil, printed⟩
  · cases answer
    refine output_kept output allowed answered rfl rfl fun writing => ?_
    exact refused_next (x.part t) ▸ writing

/-- A process closes its stream, which hands the text on. -/
theorem fclose_output {done : sig.Ans (.inr .fcloseOutput)} (memory : Memory s x) (output : Output before s x)
    (allowed : copying.allowed (.inr .fcloseOutput) (x.part t))
    (answered : kernel t e (.inr .fcloseOutput) s = .done done s') :
    Output before s' (note t e (.inr .fcloseOutput) done s x) := by
  have printed := printed_kept output allowed answered
  obtain ⟨text, full⟩ := allowed
  have pending : s.pending t = text := by rw [memory.pending t, full]; rfl
  have laid : s.output = some (layers x.since) :=
    output.file.resolve_left fun untouched => untouched.2.2 t (by rw [full]; trivial)
  have new : t ∉ x.since.map Piece.writer := by
    intro member
    obtain ⟨w, earlier, same⟩ := List.mem_map.mp member
    have copied := output.since w earlier
    rw [same, full] at copied
    cases copied
  refine ⟨Or.inr ?_, fun w member => ?_, ?_, printed⟩
  · cases answered
    show some (overlay (s.output.getD []) _) = some (layers (x.since ++ [_]))
    rw [laid, layers_snoc]
    rfl
  · rcases List.mem_append.mp member with earlier | now
    · exact since_kept output w earlier
    · cases List.mem_singleton.mp now
      show ((note t e (.inr .fcloseOutput) done s x).part t).copied = some (s.pending t)
      rw [note_own, full, pending]
      rfl
  · show ((x.since ++ [_]).map Piece.writer).Nodup
    rw [List.map_append, List.nodup_append]
    refine ⟨output.once, List.nodup_singleton _, fun u earlier v now => ?_⟩
    rw [List.map_singleton, List.mem_singleton] at now
    subst now
    exact fun same => new (same ▸ earlier)

theorem output_step (memory : Memory s x) (output : Output before s x)
    (allowed : copying.allowed o (x.part t)) (answered : kernel t e o s = .done a s') :
    Output before s' (note t e o a s x) := by
  by_cases opens : o = .inr .fopenOutput
  · subst opens
    exact fopen_output output allowed answered
  · by_cases closes : o = .inr .fcloseOutput
    · subst closes
      exact fclose_output memory output allowed answered
    · exact output_kept output allowed answered (kernel_output opens closes answered)
        (note_since opens closes) (next_writing opens)

end Output

/-! ## Runs -/

/-- What the module answers is possible. -/
theorem possible_answer {t : Tid} {e : Setting} {o : sig.Op} {a : sig.Ans o} {s s' : Machine} {x : History}
    (words : Words s.state x) (answered : kernel t e o s = .done a s') :
    copying.possible o a (x.part t) := by
  cases o with
  | inr o => cases o <;> trivial
  | inl o =>
      cases o with
      | message =>
          have told : Outcome.done s.state.messageBuffer s.state = .done a s'.state := kernel_state answered
          obtain ⟨rfl, -⟩ := Outcome.done.inj told
          exact words.message.short words.known
      | copyToUser text => exact (copyToUser_done answered).1
      | _ => trivial

theorem sound_step {before : Option (List Char)} {t : Tid} {e : Setting} {o : sig.Op} {a : sig.Ans o}
    {c c' : Remembered} (sound : Sound before c) (allowed : copying.allowed o (c.2.part t))
    (answered : recorded kernel note t e o c = .done a c') :
    Sound before c' ∧ copying.possible o a (c.2.part t) ∧
      c'.2.part t = copying.next o a (c.2.part t) := by
  obtain ⟨answer, noted⟩ := recorded_done.mp answered
  refine ⟨⟨?_, ?_, ?_⟩, possible_answer sound.words answer, ?_⟩
  · rw [noted]
    exact words_step sound.words allowed answer
  · rw [noted]
    exact memory_step sound.memory allowed answer
  · rw [noted]
    exact output_step sound.memory sound.output allowed answer
  · rw [noted]
    exact note_own

theorem loaded_sound (stack : Tid → Buffer) (before : Option (List Char)) :
    Sound before (.loaded stack before, .blank) where
  words := ⟨Or.inr ⟨rfl, rfl⟩, fun _ member => absurd member List.not_mem_nil, Or.inl rfl,
    fun _ => trivial⟩
  memory := ⟨fun _ => List.nil_prefix, fun _ => rfl⟩
  output := ⟨Or.inl ⟨rfl, rfl, fun _ => not_false⟩, fun _ member => absurd member List.not_mem_nil,
    List.nodup_nil, fun _ _ said => Part.noConfusion said⟩

/-- Every thread of a run does what it may, and the machine is sound. -/
theorem after_relies (stack : Tid → Buffer) (before : Option (List Char)) (deeds : List Deed) :
    (after stack before deeds).Relies copying Ends (Sound before) (fun c t r => c.2.part t = r)
      .fresh := by
  refine Pool.run_relies ?_ ?_ (fun w => w.elim) ?_ ⟨loaded_sound stack before, ?_, fun _ _ => rfl⟩
  · rintro t e o c a c' r sound rfl allowed answered
    exact sound_step sound allowed answered
  · rintro t u e o c a c' r q other - - answered rfl
    rw [(recorded_done.mp answered).2]
    exact note_other other
  · intro thread started
    obtain ⟨deed, -, same⟩ := List.mem_map.mp started
    cases deed with
    | process e =>
        cases same
        exact main_follows
    | write e =>
        cases same
        exact handling_follows (Modules.pidWrite_talks .testModule _)
    | switch e =>
        cases same
        exact handling_follows Modules.helloSwitch_talks
    | step t => cases same
  · intro t thread found
    cases found

/-! ## The result -/

/-- An allowed call stays inside the buffer. -/
theorem allowed_inside {t : Tid} {e : Setting} {o : sig.Op} {r : Part} (allowed : copying.allowed o r)
    (s s' : Machine) : kernel t e o s ≠ .fault .overrun s' := by
  intro overrun
  cases o with
  | inl o =>
      cases o with
      | copyToUser text =>
          simp only [kernel] at overrun
          rw [dif_pos (Nat.le_of_lt allowed.2)] at overrun
          cases overrun
      | _ =>
          simp only [kernel, kernelCall] at overrun
          split at overrun <;> cases overrun
  | inr o =>
      cases o with
      | storeChar i c =>
          obtain ⟨text, -, rfl, short⟩ := allowed
          simp only [kernel] at overrun
          rw [if_pos ⟨by omega, by omega⟩] at overrun
          cases overrun
      | fwriteBuffer count =>
          obtain ⟨text, -, rfl, short⟩ := allowed
          simp only [kernel] at overrun
          rw [if_pos ⟨by omega, by omega⟩] at overrun
          cases overrun
      | fopenOutput =>
          simp only [kernel] at overrun
          split at overrun <;> cases overrun
      | _ => cases overrun

theorem layers_length {pieces : List Piece} {n : Nat} (bounded : ∀ v ∈ pieces, v.written.length ≤ n) :
    (layers pieces).length ≤ n := by
  induction pieces using List.reverseRecOn with
  | nil => exact Nat.zero_le n
  | append_singleton pieces w ih =>
      have earlier := ih fun v member => bounded v (List.mem_append_left _ member)
      have last := bounded w (List.mem_append_right _ List.mem_cons_self)
      rw [layers_snoc, overlay, List.length_append, List.length_drop]
      omega

/-- A text that is not shorter hides what is under it. -/
theorem overlay_longer {old text : List Char} (longer : old.length ≤ text.length) :
    overlay old text = text := by
  rw [overlay, List.drop_eq_nil_of_le longer, List.append_nil]

/-- **The message is copied whole**: in every run of processes, writes of pids and switches,
in any order of their calls. -/
theorem message_copied (stack : Tid → Buffer) (before : Option (List Char)) (deeds : List Deed) :
    Copied before (after stack before deeds) := by
  have relies := after_relies stack before deeds
  obtain ⟨words, -, output⟩ := relies.inv
  refine ⟨?_, ?_, ?_, output.once, ?_, ?_⟩
  · intro t e o k s found
    obtain ⟨r, -, allowed, -⟩ := relies.follows t _ found
    exact allowed_inside allowed _ s
  · exact output.file.imp_left fun ⟨same, empty, _⟩ => ⟨same, empty⟩
  · intro w member
    have copied := output.since w member
    have known := words.parts w.writer
    cases part : (after stack before deeds).shared.2.part w.writer with
    | closed text | said text =>
        rw [part] at copied known
        cases copied
        exact known
    | _ =>
        rw [part] at copied
        cases copied
  · intro w earlier written longest
    have laid := output.file.resolve_left fun untouched => by
      have empty := written.symm.trans untouched.2.1
      simp at empty
    rw [laid, written, layers_snoc, overlay_longer (layers_length longest)]
  · intro t e status found
    obtain ⟨r, done, ended⟩ := relies.follows t _ found
    obtain ⟨rfl, text, said⟩ := ended
    exact ⟨rfl, output.printed t text (done.trans said)⟩

/-- Everything is granted; the thread writes the text, or the task of that pid is switched in. -/
def granted (text : List Char) (pid : Nat) : Setting where
  env := { MonitorV2.Env.echo text with currentPid := pid }
  mapped _ := rfl
  procFd := 3
  delivered := true
  outputOpens := true
  flushed n := n
  strerror := []

/-- Two processes have both opened the file when the one with the longer line closes it. -/
def tornFile : List Deed :=
  .write (granted "5\n".toList 0) :: List.replicate 2 (.step 0) ++
    .switch (granted [] 5) :: List.replicate 6 (.step 1) ++
    .process (granted [] 0) :: List.replicate 9 (.step 2) ++
    .write (granted "12345\n".toList 0) :: List.replicate 2 (.step 3) ++
    .switch (granted [] 12345) :: List.replicate 6 (.step 4) ++
    .process (granted [] 0) :: List.replicate 12 (.step 5) ++ List.replicate 3 (.step 2)

/-- Then the shorter line does not hide the longer one. -/
example : (after (fun _ => ⟨List.replicate bufSize ' ', List.length_replicate⟩) none tornFile).shared.1.output =
    some "hello world 5\n345\n".toList := by decide +kernel

end Dreamscape.Userland.ReadProcMessage
