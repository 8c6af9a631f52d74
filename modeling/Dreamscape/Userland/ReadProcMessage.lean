/-
# Userland.ReadProcMessage -- the program that copies the message of test_module

`read_proc_message.c` reads `/proc/hello_switch_message` once, into a buffer on its stack, and
copies what it got into a file under `/tmp`.  Its signature is that of the kernel under
test_module, through which `read` goes, beside the calls of the C library.

Any number of these processes run at once, and beside them pids are written and tasks are
switched in.  The processes share the module and the output file.  `stdio` collects what is
written to a stream and hands it on in one piece when the stream is closed; the stream starts
at the beginning of the file, so the piece is laid over what another process has put there.
The program does not look at what `fwrite` and `fclose` return.
-/
import Dreamscape.Theory.Sum
import Dreamscape.Theory.History
import Dreamscape.TestModule.Handlers
import Dreamscape.Userland.Processes

namespace Dreamscape.Userland.ReadProcMessage

set_option autoImplicit false

open Theory Kernel
open MonitorV2 (State Tid)

/-! ## Calls -/

/-- `BUF_SIZE` -/
abbrev bufSize : Nat := 512

/-- The calls of the program itself.  `delivered` asks whether a `read` gets as far as the
module. -/
inductive FileOp where
  | openProc
  | delivered
  | storeChar (i : Int) (c : Char)
  | fopenOutput
  | fwriteBuffer (count : Int)
  | fcloseOutput
  | close (fd : Int)
  | perror (text : List Char)
  | printf (text : List Char)
  | exit (status : Int)

@[reducible] def FileOp.Ans : FileOp → Type
  | .openProc => Int
  | .delivered | .fopenOutput => Bool
  | .exit _ => Empty
  | .storeChar .. | .fwriteBuffer _ | .fcloseOutput | .close _ | .perror _ | .printf _ => Unit

abbrev fileSig : Sig := ⟨FileOp, FileOp.Ans⟩

abbrev sig : Sig := MonitorV2.sig.sum fileSig

abbrev Code (α : Type) := Prog sig α

@[simp] def call (o : FileOp) : Code o.Ans := .call (S := sig) (.inr o) .ret

@[simp] def openProc : Code Int := call .openProc
@[simp] def delivered : Code Bool := call .delivered
@[simp] def storeChar (i : Int) (c : Char) : Code Unit := call (.storeChar i c)
@[simp] def fopenOutput : Code Bool := call .fopenOutput
@[simp] def fwriteBuffer (count : Int) : Code Unit := call (.fwriteBuffer count)
@[simp] def fcloseOutput : Code Unit := call .fcloseOutput
@[simp] def close (fd : Int) : Code Unit := call (.close fd)
@[simp] def perror (text : List Char) : Code Unit := call (.perror text)
@[simp] def printf (text : List Char) : Code Unit := call (.printf text)
@[simp] def exit {α : Type} (status : Int) : Code α := .call (S := sig) (.inr (.exit status)) nofun

/-! ## The program -/

def filename : List Char := "/proc/hello_switch_message".toList

def outputFilename : List Char := "/tmp/hello_switch_output.txt".toList

def contentsLine : List Char :=
  "Contents of ".toList ++ filename ++ " written to ".toList ++ outputFilename ++ ['\n']

/-- `read(fd, buffer, count)` from the beginning of the proc file. -/
def read (count : Nat) : Code Int := do
  if ← delivered then
    let (ret, _) ← (TestModule.messageRead count 0).inl
    return if ret < 0 then -1 else ret
  else return -1

def main : Code Int := do
  let fd ← openProc
  if fd < 0 then
    perror "Error opening proc file".toList
    exit 1
  else
    let count ← read (bufSize - 1)
    if count < 0 then
      perror "Error reading proc file".toList
      close fd
      exit 1
    else
      storeChar count '\x00'
      if ← fopenOutput then
        fwriteBuffer count
        fcloseOutput
        close fd
        printf contentsLine
        return 0
      else
        perror "Error opening output file".toList
        close fd
        exit 1

/-! ## The machine -/

/-- A text written over the beginning of another. -/
def overlay (old text : List Char) : List Char := text ++ old.drop text.length

/-- The buffer of a process. -/
structure Buffer where
  chars : List Char
  whole : chars.length = bufSize

namespace Buffer

def store (b : Buffer) (text : List Char) (fits : text.length ≤ bufSize) : Buffer where
  chars := overlay b.chars text
  whole := by
    have whole := b.whole
    simp only [overlay, List.length_append, List.length_drop]
    omega

def set (b : Buffer) (i : Nat) (c : Char) : Buffer := ⟨b.chars.set i c, List.length_set.trans b.whole⟩

end Buffer

/-- The module, what each process has in its buffer and in its stream, the output file if it
exists, and what was printed. -/
structure Machine where
  state : State
  buffer : Tid → Buffer
  pending : Tid → List Char
  output : Option (List Char)
  printed : List (Tid × Stream × List Char)

/-- What the kernel grants one thread.  The buffer of a process is there, so `copy_to_user`
leaves nothing; `flushed` is how much of a piece the disk takes. -/
structure Setting where
  env : MonitorV2.Env
  mapped : ∀ n, env.uncopied n = 0
  procFd : Int
  delivered : Bool
  outputOpens : Bool
  flushed : Nat → Nat
  strerror : List Char

inductive Fault where
  | inModule (f : MonitorV2.Fault)
  | overrun
  deriving DecidableEq

namespace Machine

variable (s : Machine) (t : Tid)

def print (stream : Stream) (text : List Char) : Machine :=
  { s with printed := s.printed ++ [(t, stream, text)] }

def setBuffer (b : Buffer) : Machine := { s with buffer := Function.update s.buffer t b }

/-- `copy_to_user` of a text that is not too long. -/
def receive (text : List Char) (left : Nat) (fits : text.length ≤ bufSize) : Machine :=
  s.setBuffer t ((s.buffer t).store (text.take (text.length - left))
    ((List.length_take_le' _ _).trans fits))

def setPending (text : List Char) : Machine := { s with pending := Function.update s.pending t text }

end Machine

/-- How the machine answers the calls of the kernel. -/
def kernelCall (t : Tid) (e : Setting) (o : MonitorV2.Op) (s : Machine) : Outcome Fault Machine o.Ans :=
  match MonitorV2.kernel t e.env o s.state with
  | .done a m => .done a { s with state := m }
  | .blocked m => .blocked { s with state := m }
  | .fault f m => .fault (.inModule f) { s with state := m }

def kernel (t : Tid) (e : Setting) : Handler sig Fault Machine
  | .inl (.copyToUser text), s =>
      if fits : text.length ≤ bufSize then
        let left := e.env.uncopied text.length
        .done left (s.receive t text left fits)
      else .fault .overrun s
  | .inl o, s => kernelCall t e o s
  | .inr .openProc, s => .done e.procFd s
  | .inr .delivered, s => .done e.delivered s
  | .inr (.storeChar i c), s =>
      if 0 ≤ i ∧ i < bufSize then .done () (s.setBuffer t ((s.buffer t).set i.toNat c))
      else .fault .overrun s
  | .inr .fopenOutput, s =>
      if e.outputOpens then .done true { s with output := some [] } else .done false s
  | .inr (.fwriteBuffer count), s =>
      if 0 ≤ count ∧ count ≤ bufSize then
        .done () (s.setPending t (s.pending t ++ (s.buffer t).chars.take count.toNat))
      else .fault .overrun s
  | .inr .fcloseOutput, s =>
      let piece := (s.pending t).take (e.flushed (s.pending t).length)
      .done () { s.setPending t [] with output := some (overlay (s.output.getD []) piece) }
  | .inr (.close _), s => .done () s
  | .inr (.perror text), s =>
      .done () (s.print t .stderr (text ++ ": ".toList ++ e.strerror ++ ['\n']))
  | .inr (.printf text), s => .done () (s.print t .stdout text)
  | .inr (.exit _), s => .blocked s

/-! ## Runs -/

/-- What a thread leaves: the answer of a handler of the module, or the status of a process. -/
inductive Result where
  | handled (ret : Int)
  | exited (status : Int)

inductive Deed where
  | process (setting : Setting)
  | write (setting : Setting)
  | switch (setting : Setting)
  | step (t : Tid)

/-- A handler of the module, which any process may enter. -/
def handling (p : MonitorV2.Code Int) : Code Result := do return .handled (← p.inl)

def running (p : Code Int) : Code Result := do return .exited (← p)

def Deed.action : Deed → Pool.Action sig Setting Empty Result
  | .process e => .spawn ⟨e, running main⟩
  | .write e => .spawn ⟨e, handling (TestModule.pidWrite e.env.userBuf.length)⟩
  | .switch e => .spawn ⟨e, handling TestModule.helloSwitch⟩
  | .step t => .step t

/-- The loaded module, before anybody runs. -/
def Machine.loaded (stack : Tid → Buffer) (output : Option (List Char)) : Machine :=
  ⟨.initial, stack, fun _ => [], output, []⟩

end Dreamscape.Userland.ReadProcMessage
