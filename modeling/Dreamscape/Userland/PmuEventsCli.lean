/-
# Userland.PmuEventsCli -- the options of pmu_events_cli, and what it does then

`pmu_events_cli.c` reads its options with `getopt`, each one overwriting the one before, and
opens an event if there was a path and the low 32 bits of what `strtoul` returned for the last
`-e` are a valid code.  The usage text asks for one of three values, which is more:
`validates_iff` says for which options the two agree.
-/
import Dreamscape.Userland.Processes
import Dreamscape.Userland.Strtoul

namespace Dreamscape.Userland

set_option autoImplicit false

open Theory Kernel

/-! ## The option loop -/

/-- What a call of `getopt(argc, argv, "p:e:")` finds: an option and its argument, or `?`. -/
inductive Getopt where
  | found (option : Char) (optarg : List Char)
  | unknown

/-- The answers of `getopt`, up to the first `?` or the end of the options.  A word that is no
option is passed over, as it is without `POSIXLY_CORRECT`, and `--` ends the options.  The
message `getopt` prints with a `?` is left out. -/
def getopts : List (List Char) → List Getopt
  | [] => []
  | ['-', '-'] :: _ => []
  | ('-' :: option :: attached) :: words =>
      if option = 'p' ∨ option = 'e' then
        match attached, words with
        | [], [] => [.unknown]
        | [], optarg :: words => .found option optarg :: getopts words
        | c :: attached, words => .found option (c :: attached) :: getopts words
      else [.unknown]
  | _ :: words => getopts words

/-- The variables of the option loop. -/
structure Options where
  binaryPath : Option (List Char) := none
  perfEvent : BitVec 32 := 0

/-- The option loop; `none` is its usage error. -/
def readOptions (opts : Options) : List Getopt → Option Options
  | [] => some opts
  | .found 'p' optarg :: rest => readOptions { opts with binaryPath := some optarg } rest
  | .found 'e' optarg :: rest =>
      readOptions { opts with perfEvent := (strtoul optarg).setWidth 32 } rest
  | _ :: _ => none

/-- `is_valid_perf_event` -/
def isValidPerfEvent (event : BitVec 32) : Bool := event == 0x03 || event == 0x04 || event == 0x05

/-! ## The program -/

def usageLine (argv0 : List Char) : List Char :=
  "Usage: ".toList ++ argv0 ++ " -p /path/to/binary -e perf_event\n".toList

def countLine (event : BitVec 32) (count : U64) : List Char :=
  "event code ".toList ++ Nat.toDigits 10 event.toNat ++ " cache event count: ".toList ++
    formatInt count.toInt ++ ['\n']

/-- The texts behind the usage line when an option is missing or the code is not valid. -/
def validEvents : List (List Char) :=
  ["Valid perf_event values (hexadecimal) for ARM Cortex A53:\n".toList,
    "  0x03 : L1D_CACHE_REFILL\n".toList,
    "  0x04 : L1D_CACHE\n".toList,
    "  0x05 : L1D_TLB_REFILL\n".toList]

def eprintfs : List (List Char) → Code Unit
  | [] => return ()
  | text :: texts => do
      eprintf text
      eprintfs texts

/-- The usage line and these texts on `stderr`, and status 1. -/
def usageError (argv0 : List Char) (more : List (List Char)) : Code Int := do
  eprintf (usageLine argv0)
  eprintfs more
  exit 1

/-- `struct perf_event_attr pe` -/
def attributes (event : BitVec 32) : PerfEventAttr where
  type := .PERF_TYPE_RAW
  config := event
  disabled := true
  excludeKernel := true
  excludeHv := true

/-- `main` from the accepted options on.  A failed read leaves in `count` what was there. -/
def measureEvent (count : U64) (event : BitVec 32) : Code Int := do
  let fd ← perfEventOpen (attributes event) 0 (-1)
  if fd = -1 then
    eprintf "Error opening perf event\n".toList
    exit 1
  else
    let child ← fork
    if child < 0 then
      perror "fork".toList
      exit 1
    else if child = 0 then
      printf "in child process\n".toList
      let _ ← ioctl fd .PERF_EVENT_IOC_RESET
      let _ ← ioctl fd .PERF_EVENT_IOC_ENABLE
      return 0
    else
      printf "in parent process\n".toList
      let _ ← waitpid child false
      let _ ← ioctl fd .PERF_EVENT_IOC_DISABLE
      let read ← readCount fd
      printf (countLine event (read.getD count))
      close fd
      return 0

/-- `main` of pmu_events_cli; `count` is what the variable holds before it is assigned. -/
def pmuEventsCli (count : U64) (argv : List (List Char)) : Code Int :=
  let argv0 := argv.headD "(null)".toList
  match readOptions {} (getopts argv.tail) with
  | none => usageError argv0 []
  | some opts =>
      if opts.binaryPath = none ∨ opts.perfEvent = 0 ∨ isValidPerfEvent opts.perfEvent = false then
        usageError argv0 validEvents
      else measureEvent count opts.perfEvent

/-! ## Vectors of options -/

/-- One of the two options. -/
inductive Letter where
  | p
  | e
  deriving DecidableEq

def Letter.char : Letter → Char
  | .p => 'p'
  | .e => 'e'

/-- An option as it is given: its argument is the next word, or follows in the same one. -/
inductive Given where
  | apart (letter : Letter) (arg : List Char)
  | attached (letter : Letter) (c : Char) (cs : List Char)

def Given.letter : Given → Letter
  | .apart letter _ => letter
  | .attached letter _ _ => letter

def Given.arg : Given → List Char
  | .apart _ arg => arg
  | .attached _ c cs => c :: cs

def Given.words : Given → List (List Char)
  | .apart letter arg => [['-', letter.char], arg]
  | .attached letter c cs => ['-' :: letter.char :: c :: cs]

/-- The vector of a program that is called by `argv0` with these options. -/
def argvOf (argv0 : List Char) (options : List Given) : List (List Char) :=
  argv0 :: options.flatMap Given.words

/-- The arguments an option is given, in order. -/
def argsOf (letter : Letter) (options : List Given) : List (List Char) :=
  options.filterMap fun g => if g.letter = letter then some g.arg else none

/-- The argument of the last option with this letter. -/
def lastArg (letter : Letter) (options : List Given) : Option (List Char) :=
  (argsOf letter options).getLast?

theorem getopts_words (options : List Given) :
    getopts (options.flatMap Given.words) = options.map fun g => .found g.letter.char g.arg := by
  induction options with
  | nil => rfl
  | cons g options ih =>
      rw [List.flatMap_cons, List.map_cons, ← ih]
      cases g with
      | apart letter arg => cases letter <;> simp [Given.words, getopts, Letter.char, Given.letter, Given.arg]
      | attached letter c cs => cases letter <;> simp [Given.words, getopts, Letter.char, Given.letter, Given.arg]

theorem lastArg_cons (letter : Letter) (g : Given) (options : List Given) :
    lastArg letter (g :: options) =
      if g.letter = letter then some ((lastArg letter options).getD g.arg) else lastArg letter options := by
  unfold lastArg argsOf
  by_cases same : g.letter = letter
  · rw [List.filterMap_cons, if_pos same, if_pos same]
    exact List.getLast?_cons
  · rw [List.filterMap_cons, if_neg same, if_neg same]

/-- **The loop keeps the last argument of each option.** -/
theorem readOptions_given (opts : Options) (options : List Given) :
    readOptions opts (options.map fun g => .found g.letter.char g.arg) =
      some ⟨(lastArg .p options).or opts.binaryPath,
        (lastArg .e options).elim opts.perfEvent fun arg => (strtoul arg).setWidth 32⟩ := by
  induction options generalizing opts with
  | nil => rfl
  | cons g options ih =>
      rw [List.map_cons, lastArg_cons, lastArg_cons]
      cases letter : g.letter with
      | p =>
          show readOptions { opts with binaryPath := some g.arg } _ = _
          rw [ih, if_pos rfl, if_neg nofun]
          cases lastArg .p options <;> rfl
      | e =>
          show readOptions { opts with perfEvent := (strtoul g.arg).setWidth 32 } _ = _
          rw [ih, if_pos rfl, if_neg nofun]
          cases lastArg .e options <;> rfl

/-! ## What the options are checked for -/

/-- The valid codes, as numbers. -/
def ValidCode (n : Int) : Prop := n = 3 ∨ n = 4 ∨ n = 5

/-- There is a path, and the last `-e` argument is as a whole the numeral of a valid code. -/
def Requested (options : List Given) (n : Int) : Prop :=
  (lastArg .p options).isSome ∧ ValidCode n ∧ ∃ arg, lastArg .e options = some arg ∧ Numeral arg n

/-- A call that opens no event of another code than these. -/
def OpensOnly (wanted : BitVec 32 → Prop) : Op → Prop
  | .perfEventOpen attr .. => wanted attr.config
  | _ => True

/-- Every event the program may open is the requested one; without a request, it ends in the
usage error, and makes no other call. -/
structure Validates (count : U64) (argv0 : List Char) (options : List Given) : Prop where
  opens : (pmuEventsCli count (argvOf argv0 options)).Only
    (OpensOnly fun config => Requested options config.toNat)
  usage : (∀ n, ¬Requested options n) →
    ∃ more, pmuEventsCli count (argvOf argv0 options) = usageError argv0 more

/-- What is checked: there is a path, and the number at the front of the last `-e` argument,
however the text goes on, is below `2 ^ 64` in magnitude and a valid code modulo `2 ^ 32`. -/
def Accepted (options : List Given) : Prop :=
  (lastArg .p options).isSome ∧ ∃ arg, lastArg .e options = some arg ∧
    (front arg).natAbs < 2 ^ 64 ∧ ValidCode (front arg % 2 ^ 32)

/-- The event code the loop ends with. -/
def eventGiven (options : List Given) : BitVec 32 :=
  (lastArg .e options).elim 0 fun arg => (strtoul arg).setWidth 32

theorem isValidPerfEvent_iff (event : BitVec 32) :
    isValidPerfEvent event = true ↔ ValidCode event.toNat := by
  have number : ∀ k : BitVec 32, event = k ↔ (event.toNat : Int) = k.toNat := fun k => by
    rw [Int.ofNat_inj, BitVec.toNat_inj]
  simp only [isValidPerfEvent, Bool.or_eq_true, beq_iff_eq, or_assoc, ValidCode]
  exact or_congr (number 3) (or_congr (number 4) (number 5))

/-- The low word of what `strtoul` returns is valid in exactly these cases. -/
theorem valid_low_iff (arg : List Char) :
    ValidCode (((strtoul arg).setWidth 32).toNat : Int) ↔
      (front arg).natAbs < 2 ^ 64 ∧ ValidCode (front arg % 2 ^ 32) := by
  rw [strtoul_low]
  by_cases large : 2 ^ 64 ≤ (front arg).natAbs
  · rw [if_pos large]
    refine iff_of_false ?_ fun accepted => absurd accepted.1 (Nat.not_lt.mpr large)
    unfold ValidCode
    decide
  · rw [if_neg large]
    exact (and_iff_right (Nat.not_le.mp large)).symm

theorem accepted_iff (options : List Given) :
    Accepted options ↔
      (lastArg .p options).isSome ∧ isValidPerfEvent (eventGiven options) = true := by
  refine and_congr_right fun _ => ?_
  rw [isValidPerfEvent_iff, eventGiven]
  cases lastArg .e options with
  | none =>
      refine iff_of_false (fun given => ?_) (by unfold ValidCode; decide)
      obtain ⟨arg, none, -⟩ := given
      cases none
  | some arg =>
      rw [Option.elim_some, valid_low_iff]
      exact ⟨fun ⟨_, same, accepted⟩ => Option.some.inj same ▸ accepted, fun accepted => ⟨arg, rfl, accepted⟩⟩

/-- What the program does with a vector of options. -/
theorem pmuEventsCli_given (count : U64) (argv0 : List Char) (options : List Given) :
    (Accepted options ∧
      pmuEventsCli count (argvOf argv0 options) = measureEvent count (eventGiven options)) ∨
    (¬Accepted options ∧ ∃ more, pmuEventsCli count (argvOf argv0 options) = usageError argv0 more) := by
  have read : readOptions {} (getopts (argvOf argv0 options).tail) =
      some ⟨lastArg .p options, eventGiven options⟩ := by
    rw [argvOf, List.tail_cons, getopts_words, readOptions_given, Option.or_none]
    rfl
  rw [accepted_iff, pmuEventsCli, read]
  simp only
  split
  · rename_i bad
    refine Or.inr ⟨fun good => ?_, _, rfl⟩
    rcases bad with none | zero | invalid
    · rw [none] at good
      exact Bool.false_ne_true good.1
    · rw [zero] at good
      exact Bool.false_ne_true good.2
    · rw [invalid] at good
      exact Bool.false_ne_true good.2
  · rename_i good
    obtain ⟨path, good⟩ := not_or.mp good
    obtain ⟨-, valid⟩ := not_or.mp good
    exact Or.inl ⟨⟨Option.isSome_iff_ne_none.mpr path, Bool.not_eq_false _ ▸ valid⟩, rfl⟩

/-- A call that neither opens an event nor executes a program. -/
def Op.plain : Op → Prop
  | .perfEventOpen .. | .execvp .. => False
  | _ => True

section Calls

variable {ok : Op → Prop} (plain : ∀ o : Op, o.plain → ok o)
include plain

theorem eprintfs_only (texts : List (List Char)) : (eprintfs texts).Only ok := by
  induction texts with
  | nil => trivial
  | cons text texts ih => exact ⟨plain _ trivial, fun _ => ih⟩

/-- The usage error makes plain calls. -/
theorem usageError_only (argv0 : List Char) (more : List (List Char)) :
    (usageError argv0 more).Only ok :=
  Prog.only_bind ⟨plain _ trivial, fun _ => trivial⟩ fun _ =>
    Prog.only_bind (eprintfs_only plain more) fun _ => ⟨plain _ trivial, nofun⟩

/-- The measurement opens the event it is told, and makes plain calls. -/
theorem measureEvent_only {event : BitVec 32}
    (opens : ok (.perfEventOpen (attributes event) 0 (-1))) (count : U64) :
    (measureEvent count event).Only ok := by
  refine ⟨opens, fun fd => ?_⟩
  show Prog.Only ok (if fd = -1 then _ else _ : Code Int)
  split
  · exact ⟨plain _ trivial, fun _ => ⟨plain _ trivial, nofun⟩⟩
  · refine ⟨plain _ trivial, fun child => ?_⟩
    show Prog.Only ok (if child < 0 then _ else _ : Code Int)
    split
    · exact ⟨plain _ trivial, fun _ => ⟨plain _ trivial, nofun⟩⟩
    · split
      · exact ⟨plain _ trivial, fun _ => ⟨plain _ trivial, fun _ => ⟨plain _ trivial, fun _ => trivial⟩⟩⟩
      · refine ⟨plain _ trivial, fun _ => ⟨plain _ trivial, fun _ => ⟨plain _ trivial, fun _ => ?_⟩⟩⟩
        exact ⟨plain _ trivial, fun _ => ⟨plain _ trivial, fun _ => ⟨plain _ trivial, fun _ => trivial⟩⟩⟩

end Calls

theorem plain_opensOnly (wanted : BitVec 32 → Prop) (o : Op) (plain : o.plain) : OpensOnly wanted o := by
  cases o <;> trivial

/-- **The check does what the usage text says** exactly for the options it refuses, and for those
whose last `-e` argument is as a whole the numeral of a valid code. -/
theorem validates_iff (count : U64) (argv0 : List Char) (options : List Given) :
    Validates count argv0 options ↔ (Accepted options → ∃ n, Requested options n) := by
  rcases pmuEventsCli_given count argv0 options with ⟨accepted, main⟩ | ⟨refused, more, main⟩
  · rw [forall_prop_of_true accepted]
    constructor
    · intro validates
      have opened := validates.opens
      rw [main] at opened
      exact ⟨_, opened.1⟩
    · rintro ⟨n, path, valid, arg, last, numeral⟩
      have code : ((eventGiven options).toNat : Int) = n := by
        have value := numeral_front numeral
        obtain ⟨-, arg', same, fits, -⟩ := accepted
        cases last.symm.trans same
        rw [eventGiven, last, Option.elim_some, strtoul_low, if_neg (Nat.not_le.mpr fits), value]
        rcases valid with rfl | rfl | rfl <;> rfl
      have requested : Requested options (eventGiven options).toNat := by
        rw [code]
        exact ⟨path, valid, arg, last, numeral⟩
      refine ⟨?_, fun none => absurd requested (none _)⟩
      rw [main]
      have opens : OpensOnly (fun config => Requested options config.toNat)
          (.perfEventOpen (attributes (eventGiven options)) 0 (-1)) := requested
      exact measureEvent_only (plain_opensOnly _) opens count
  · refine iff_of_true ⟨?_, fun _ => ⟨more, main⟩⟩ fun accepted => absurd accepted refused
    rw [main]
    exact usageError_only (plain_opensOnly _) argv0 more

/-- `-p x -e 3abc` -/
def trailingText : List Given := [.apart .p ['x'], .apart .e ['3', 'a', 'b', 'c']]

theorem trailing_text_accepted : ¬Validates 0 "pmu_events_cli".toList trailingText := by
  intro validates
  obtain ⟨-, -, arg, last, numeral⟩ : Requested trailingText 3 := validates.opens.1
  cases last
  have letters : ∀ n, ¬Unsigned ['3', 'a', 'b', 'c'] n := by
    rintro n (⟨-, each⟩ | _ | _)
    exact absurd (each 'a' (by decide)) (by decide)
  cases numeral with
  | plain unsigned => exact letters _ unsigned

end Dreamscape.Userland
