/-
# Modules.PidText -- which texts pid_write takes for a pid

`pid_write` of either module copies less than twelve bytes, ends them with a zero byte and
gives them to `kstrtoint`.  Exactly the short numerals of the numbers an `int` holds set
`target_pid` (`pidWrite_parses`); what start_monitoring does then leaves it alone.
-/
import Dreamscape.Modules.Handlers
import Dreamscape.MonitorV2.Interior

namespace Dreamscape.Modules

set_option autoImplicit false

open Theory Kernel MonitorV2

/-- The write of this buffer asks for target `n`: it can be copied, leaves room for the zero
byte, and holds a numeral of `n`, which is an `int`. -/
structure AsksFor (e : Env) (n : Int) : Prop where
  copied : e.copyFails = false
  short : e.userBuf.length ≤ 11
  numeral : IntText (cstr e.userBuf) n
  fits : IsInt n

/-- `str` when `copied` has been copied over what the stack held and ended with a zero byte. -/
def strArray (stack copied : List Char) : List Char :=
  copied ++ nul :: stack.drop (copied.length + 1)

/-- A write of the pid file sets the target to the number its buffer asks for.  If it asks for
none an error is returned and nothing has changed.  Whatever is copied fits in the twelve bytes
of `str` with its zero byte, and is all that is read from there. -/
structure ParsesPid (m : Module) (t : Tid) (e : Env) (s : State) : Prop where
  sets : ∀ n, Op.setTargetPid n ∈ (m.pidWrite e.userBuf.length).trace (kernel t e) s ↔ AsksFor e n
  target : ∀ n, AsksFor e n →
    ((m.pidWrite e.userBuf.length).exec (kernel t e) s).state.holdings.targetPid = n
  rejects : (∀ n, ¬AsksFor e n) →
    ∃ a, (m.pidWrite e.userBuf.length).exec (kernel t e) s = .done a s ∧ a < 0
  inside : ∀ n, Op.copyFromUser n ∈ (m.pidWrite e.userBuf.length).trace (kernel t e) s →
    ∀ stack copied, stack.length = 12 → copied.length = n →
      (strArray stack copied).length = 12 ∧ (strArray stack copied)[n]? = some nul ∧
        cstr (strArray stack copied) = cstr copied

/-! ## After the pid is stored -/

/-- The calls of `start_monitoring` do not change the target. -/
theorem starts_keep_target {t : Tid} {e : Env} {o : Op} (starts : o.Starts) (s : State) :
    (kernel t e o s).state.holdings.targetPid = s.holdings.targetPid := by
  let Keeps : State → Prop := fun s' => s'.holdings.targetPid = s.holdings.targetPid
  have stay : Keeps s := rfl
  cases o with
  | getTaskStruct task => exact onTask_state (I := Keeps) stay task fun _ => rfl
  | kfree p =>
      simp only [kernel]
      exact onBuffer_state (I := Keeps) stay (some p) fun _ _ => rfl
  | loadEvent p i => exact onBuffer_state (I := Keeps) stay p fun _ _ => rfl
  | storeEvent p i ev => exact onBuffer_state (I := Keeps) stay p fun _ _ => rfl
  | storePrev p i v => exact onBuffer_state (I := Keeps) stay p fun _ _ => rfl
  | perfEventReleaseKernel ev => exact onEvent_state (I := Keeps) stay ev fun _ => rfl
  | kzalloc | hrtimerStart ns =>
      simp only [kernel]
      split <;> rfl
  | perfEventCreateKernelCounter attr cpu task =>
      simp only [kernel]
      split <;> rfl
  | _ => first | exact starts.elim | rfl

/-- What a module calls once the pid is stored: it reads it, and starts to monitor. -/
def Monitors (o : Op) : Prop := o = .targetPid ∨ o.Starts

theorem monitors_only (m : Module) : m.monitors.Only Monitors := by
  cases m with
  | testModule => trivial
  | cacheKprobeMonitorV2 =>
      exact ⟨Or.inl rfl, fun pid => (startMonitoring_starts eventCodes pid).mono fun _ => Or.inr⟩

theorem monitors_keep_target {t : Tid} {e : Env} (m : Module) (s : State) :
    (m.monitors.exec (kernel t e) s).state.holdings.targetPid = s.holdings.targetPid := by
  let Keeps : State → Prop := fun s' => s'.holdings.targetPid = s.holdings.targetPid
  refine (monitors_only m).exec_invariant (I := Keeps) (fun o monitors s' kept => ?_) rfl
  rcases monitors with rfl | starts
  · exact kept
  · exact (starts_keep_target starts s').trans kept

/-! ## The write -/

section Write

variable {t : Tid} {e : Env} {s : State}

theorem asksFor_iff {n : Int} :
    AsksFor e n ↔
      e.userBuf.length < 12 ∧ e.copyFails = false ∧ kstrtoint (cstr e.userBuf) = .ok n := by
  rw [kstrtoint_ok_iff]
  constructor
  · intro asks
    exact ⟨Nat.lt_succ_of_le asks.short, asks.copied, asks.numeral, asks.fits⟩
  · rintro ⟨short, copied, numeral, fits⟩
    exact ⟨copied, Nat.le_of_lt_succ short, numeral, fits⟩

/-- A buffer that asks for no pid is refused. -/
theorem pidWrite_refused (m : Module) (asksNothing : ∀ n, ¬AsksFor e n) :
    (∃ a, (m.pidWrite e.userBuf.length).exec (kernel t e) s = .done a s ∧ a < 0) ∧
      ∀ o ∈ (m.pidWrite e.userBuf.length).trace (kernel t e) s,
        o = .copyFromUser e.userBuf.length ∧ e.userBuf.length < 12 := by
  rw [m.pidWrite_eq, storePid]
  by_cases long : 12 ≤ e.userBuf.length
  · rw [if_pos long]
    exact ⟨⟨_, rfl, by decide⟩, fun o made => absurd made List.not_mem_nil⟩
  · rw [if_neg long]
    have short := Nat.not_le.mp long
    cases fails : e.copyFails with
    | true =>
        simp [kernel, fails, Errno.code, short]
    | false =>
        cases converted : kstrtoint (cstr e.userBuf) with
        | error err => simp [kernel, fails, List.take_length, converted, Errno.code, short]
        | ok n => exact absurd (asksFor_iff.mpr ⟨short, fails, converted⟩) (asksNothing n)

/-- A buffer that asks for `n` stores `n`, and monitoring begins. -/
theorem pidWrite_stores (m : Module) {n : Int} (asks : AsksFor e n) :
    (m.pidWrite e.userBuf.length).exec (kernel t e) s =
        (m.monitors.exec (kernel t e) (s.holding { s.holdings with targetPid := n })).bind
          (fun _ s' => .done (e.userBuf.length : Int) s') ∧
      (m.pidWrite e.userBuf.length).trace (kernel t e) s =
        .copyFromUser e.userBuf.length :: .setTargetPid n ::
          m.monitors.trace (kernel t e) (s.holding { s.holdings with targetPid := n }) := by
  obtain ⟨short, copied, converted⟩ := asksFor_iff.mp asks
  rw [m.pidWrite_eq, storePid, if_neg (Nat.not_le.mpr short)]
  constructor
  · simp [kernel, copied, List.take_length, converted]
  · simp [kernel, copied, List.take_length, converted, Prog.trace_bind]

/-- Such a write makes two calls and those of monitoring. -/
theorem pidWrite_makes (m : Module) {n : Int} (asks : AsksFor e n) {o : Op}
    (made : o ∈ (m.pidWrite e.userBuf.length).trace (kernel t e) s) :
    o = .copyFromUser e.userBuf.length ∨ o = .setTargetPid n ∨ Monitors o := by
  rw [(pidWrite_stores m asks).2] at made
  rcases List.mem_cons.mp made with copies | made
  · exact Or.inl copies
  · rcases List.mem_cons.mp made with stores | monitored
    · exact Or.inr (Or.inl stores)
    · exact Or.inr (Or.inr ((monitors_only m).trace _ o monitored))

theorem cstr_nul (text rest : List Char) : cstr (text ++ nul :: rest) = cstr text := by
  induction text with
  | nil => rfl
  | cons c text ih =>
      unfold cstr at ih ⊢
      by_cases ends : c = nul
      · simp [ends]
      · simp only [List.cons_append, List.takeWhile_cons, ne_eq, ends, not_false_eq_true,
          decide_true, if_true, ih]

theorem state_bind_done {α β : Type} (x : Answer α) (b : β) :
    (x.bind fun _ s' => (.done b s' : Answer β)).state = x.state := by
  cases x <;> rfl

/-- The array has room for the copied bytes and the zero byte, and is read up to there. -/
theorem strArray_reads {stack copied : List Char} (room : copied.length < stack.length) :
    (strArray stack copied).length = stack.length ∧
      (strArray stack copied)[copied.length]? = some nul ∧
        cstr (strArray stack copied) = cstr copied := by
  refine ⟨?_, ?_, cstr_nul copied _⟩
  · rw [strArray, List.length_append, List.length_cons, List.length_drop]
    omega
  · rw [strArray, List.getElem?_append_right (Nat.le_refl _), Nat.sub_self, List.getElem?_cons_zero]

theorem AsksFor.unique {n n' : Int} (asks : AsksFor e n) (asks' : AsksFor e n') : n = n' := by
  obtain ⟨-, -, converted⟩ := asksFor_iff.mp asks
  obtain ⟨-, -, converted'⟩ := asksFor_iff.mp asks'
  exact Except.ok.inj (converted.symm.trans converted')

/-- The decimal text of a pid asks for it, with or without a newline. -/
theorem asksFor_decimal {n : Nat} (fits : n < 2 ^ 31) (copied : e.copyFails = false)
    (text : e.userBuf = Nat.toDigits 10 n ∨ e.userBuf = Nat.toDigits 10 n ++ ['\n']) :
    AsksFor e n := by
  have digits : ∀ c ∈ Nat.toDigits 10 n, c.isDigit = true := isDigit_of_mem_toDigits
  have ten : (Nat.toDigits 10 n).length ≤ 10 :=
    (Nat.length_toDigits_le_iff (by decide) (by decide)).mpr (Nat.lt_trans fits (by decide))
  have whole : cstr e.userBuf = e.userBuf := by
    refine List.takeWhile_eq_self_iff.mpr fun c inside => decide_eq_true ?_
    rintro rfl
    have member : nul ∈ Nat.toDigits 10 n ∨ nul = '\n' := by
      rcases text with text | text <;> rw [text] at inside
      · exact Or.inl inside
      · simpa using inside
    rcases member with digit | newline
    · exact absurd (digits nul digit) (by decide)
    · exact absurd newline (by decide)
  have line : DigitsLine e.userBuf (Nat.toDigits 10 n) := ⟨Nat.toDigits_ne_nil, digits, text⟩
  have value : digitsValue (Nat.toDigits 10 n) = n := Nat.ofDigitChars_ten_toDigits
  refine ⟨copied, ?_, ?_, ?_⟩
  · rcases text with text | text
    · rw [text]
      exact Nat.le_succ_of_le ten
    · rw [text, List.length_append]
      exact Nat.add_le_add_right ten 1
  · rw [whole]
    simpa only [value] using IntText.plain line
  · constructor <;> omega

end Write

/-- **`pid_write` takes the numerals of ints**: on every buffer, either module sets the target
to the number the buffer asks for or returns an error; and the decimal text of every pid, with
or without a newline, asks for that pid. -/
theorem pidWrite_parses (m : Module) (t : Tid) (e : Env) (s : State) :
    ParsesPid m t e s ∧
      ∀ n : Nat, n < 2 ^ 31 → e.copyFails = false →
        e.userBuf = Nat.toDigits 10 n ∨ e.userBuf = Nat.toDigits 10 n ++ ['\n'] → AsksFor e n := by
  refine ⟨?_, fun n fits copied text => asksFor_decimal fits copied text⟩
  have array : ∀ {n : Nat}, n < 12 → ∀ stack copied : List Char, stack.length = 12 →
      copied.length = n → (strArray stack copied).length = 12 ∧
        (strArray stack copied)[n]? = some nul ∧ cstr (strArray stack copied) = cstr copied := by
    rintro n short stack copied size rfl
    rw [← size]
    exact strArray_reads (size ▸ short)
  by_cases asks : ∃ n, AsksFor e n
  · obtain ⟨n, asks⟩ := asks
    obtain ⟨run, calls⟩ := pidWrite_stores (t := t) (s := s) m asks
    refine ⟨fun n' => ⟨fun stored => ?_, fun asks' => ?_⟩, fun n' asks' => ?_,
      fun asksNothing => absurd asks (asksNothing n), fun k copies => ?_⟩
    · rcases pidWrite_makes m asks stored with same | same | reads | starts
      · cases same
      · cases same
        exact asks
      · cases reads
      · exact starts.elim
    · rw [calls, asks'.unique asks]
      exact List.mem_cons_of_mem _ List.mem_cons_self
    · rw [asks'.unique asks, run, state_bind_done]
      exact monitors_keep_target m _
    · rcases pidWrite_makes m asks copies with same | same | reads | starts
      · cases same
        exact array (asksFor_iff.mp asks).1
      · cases same
      · cases reads
      · exact starts.elim
  · have asksNothing : ∀ n, ¬AsksFor e n := fun n asked => asks ⟨n, asked⟩
    obtain ⟨run, calls⟩ := pidWrite_refused (t := t) (s := s) m asksNothing
    refine ⟨fun n => ⟨fun stored => ?_, fun asked => absurd asked (asksNothing n)⟩,
      fun n asked => absurd asked (asksNothing n), fun _ => run, fun k copies => ?_⟩
    · cases (calls _ stored).1
    · obtain ⟨same, short⟩ := calls _ copies
      cases same
      exact array short

end Dreamscape.Modules
