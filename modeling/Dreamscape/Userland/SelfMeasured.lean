/-
# Userland.SelfMeasured -- what the tools print of themselves

In every run, whatever else runs beside it, a tool prints how often its event happened in its
own process in user mode after it was enabled and before it was disabled, and nothing else
(`tools_measure_themselves`).  A request that is refused only moves the ends of that span: an
event never enabled is read as zero, and one not disabled is counted up to the read.  If the
read itself fails, what is printed is what the variable held before.
-/
import Dreamscape.Userland.SelfMeasuring
import Mathlib.Data.Nat.Choose.Basic

namespace Dreamscape.Userland.SelfMeasuring

set_option autoImplicit false

open Theory Kernel

abbrev Happening := Event sig Grants Occurrence

/-! ## What a process has to print -/

/-- Process `t` enables its event. -/
def enables (t : Nat) : Happening → Bool
  | .call u _ ⟨.ioctl _ .PERF_EVENT_IOC_ENABLE, a⟩ => u == t && a == (0 : Int)
  | _ => false

/-- Process `t` disables its event, or reads it. -/
def finishes (t : Nat) : Happening → Bool
  | .call u _ ⟨.ioctl _ .PERF_EVENT_IOC_DISABLE, a⟩ => u == t && a == (0 : Int)
  | .call u _ ⟨.readCount _, _⟩ => u == t
  | _ => false

/-- The event happens in the process, in user mode. -/
def happensIn (pid : Nat) (code : BitVec 32) : Happening → Bool
  | .world occ => occ.pid == pid && occ.code == code && occ.mode == .user
  | .call .. => false

/-- How often the event happened in process `t` while it was enabled. -/
def ownEvents (t pid : Nat) (code : BitVec 32) (past : List Happening) : Nat :=
  (between (enables t) (finishes t) past).countP (happensIn pid code)

/-- What process `t` printed on `stdout`. -/
def Machine.stdout (m : Machine) (t : Nat) : List (List Char) :=
  m.output.filterMap fun (u, stream, text) => if u = t ∧ stream = .stdout then some text else none

/-- The line of a tool that read `value`, and those it prints after it. -/
def Tool.report (tool : Tool) (more : List (List Char)) (value : U64) : List (List Char) :=
  tool.countLine value :: more

/-- The tools, each with the event it counts and the lines it prints after the count. -/
def tools (strerror : Int → List Char) : List (Tool × BitVec 32 × List (List Char)) :=
  [(pmuCycleCount, 0x11, []), (pmuCacheMiss strerror, 0x04, []), (l1CacheMisses, 0x04, []),
    (pmuCacheMissArraySum, 0x03, ["Sum: 704982704\n".toList])]

/-! ## The span in which a process is counted -/

inductive Phase where
  | before
  | within
  | after
  deriving DecidableEq

/-- The history is in this phase for process `t`, with so many events so far. -/
inductive Window (t pid : Nat) (code : BitVec 32) : List Happening → Phase → Nat → Prop
  | before {past : List Happening} (unopened : ∀ x ∈ past, enables t x = false) :
      Window t pid code past .before 0
  | within {before within : List Happening} {o : Happening}
      (unopened : ∀ x ∈ before, enables t x = false) (opened : enables t o = true)
      (unclosed : ∀ x ∈ within, finishes t x = false) :
      Window t pid code (before ++ o :: within) .within (within.countP (happensIn pid code))
  | after {before within after : List Happening} {o c : Happening}
      (unopened : ∀ x ∈ before, enables t x = false) (opened : enables t o = true)
      (unclosed : ∀ x ∈ within, finishes t x = false) (closed : finishes t c = true) :
      Window t pid code (before ++ o :: (within ++ c :: after)) .after
        (within.countP (happensIn pid code))

namespace Window

variable {t pid : Nat} {code : BitVec 32} {past : List Happening} {phase : Phase} {n : Nat}

theorem ownEvents_eq (window : Window t pid code past phase n) : ownEvents t pid code past = n := by
  cases window with
  | before unopened => rw [ownEvents, between_before unopened]; rfl
  | within unopened opened unclosed => rw [ownEvents, between_within unopened opened unclosed]
  | after unopened opened unclosed closed =>
      rw [ownEvents, between_after unopened opened unclosed closed]

theorem opens (window : Window t pid code past .before n) {o : Happening} (opened : enables t o = true) :
    Window t pid code (past ++ [o]) .within 0 := by
  cases window with
  | before unopened =>
      have unclosed : ∀ x ∈ ([] : List Happening), finishes t x = false :=
        fun x member => absurd member List.not_mem_nil
      exact .within unopened opened unclosed

theorem close (window : Window t pid code past .within n) {c : Happening}
    (closed : finishes t c = true) : Window t pid code (past ++ [c]) .after n := by
  cases window with
  | @within before within o unopened opened unclosed =>
      rw [List.append_assoc, List.cons_append]
      exact @Window.after _ _ _ _ _ [] _ _ unopened opened unclosed closed

/-- Once the span is over nothing counts. -/
theorem late (window : Window t pid code past .after n) (x : Happening) :
    Window t pid code (past ++ [x]) .after n := by
  cases window with
  | @after before within after o c unopened opened unclosed closed =>
      rw [List.append_assoc, List.cons_append, List.append_assoc, List.cons_append]
      exact .after unopened opened unclosed closed

/-- What does not enable the event does not begin the span. -/
theorem early (window : Window t pid code past .before n) {x : Happening}
    (quiet : enables t x = false) : Window t pid code (past ++ [x]) .before 0 := by
  cases window with
  | before unopened =>
      refine .before fun y member => ?_
      rcases List.mem_append.mp member with old | new
      · exact unopened y old
      · exact List.mem_singleton.mp new ▸ quiet

/-- Within the span an event counts if it happens in the process. -/
theorem more (window : Window t pid code past .within n) {x : Happening}
    (unclosed : finishes t x = false) :
    Window t pid code (past ++ [x]) .within (n + if happensIn pid code x then 1 else 0) := by
  cases window with
  | @within before within o unopened opened open_ =>
      have count : within.countP (happensIn pid code) + (if happensIn pid code x then 1 else 0) =
          (within ++ [x]).countP (happensIn pid code) := by
        rw [List.countP_append, List.countP_singleton]
      rw [List.append_assoc, List.cons_append, count]
      refine .within unopened opened fun y member => ?_
      rcases List.mem_append.mp member with old | new
      · exact open_ y old
      · exact List.mem_singleton.mp new ▸ unclosed

/-- What is nothing to the process leaves the phase and the count. -/
theorem skip (window : Window t pid code past phase n) {x : Happening} (quiet : enables t x = false)
    (unclosed : finishes t x = false) (elsewhere : happensIn pid code x = false) :
    Window t pid code (past ++ [x]) phase n := by
  cases phase with
  | before =>
      have none : n = 0 := by cases window; rfl
      exact none ▸ window.early quiet
  | within =>
      have further := window.more unclosed
      rw [elsewhere] at further
      exact further
  | after => exact window.late x

end Window

/-! ## The stages of a process -/

/-- How far a process is with its event: the descriptor, the event and, in the end, what was
read. -/
inductive Stage where
  | unopened
  | ready (fd : Int) (code : BitVec 32)
  | counting (fd : Int) (code : BitVec 32)
  | halted (fd : Int) (code : BitVec 32)
  | took (fd : Int) (code : BitVec 32) (value : Option U64)
  | closed (code : BitVec 32) (value : Option U64)

/-- The call does not concern the event. -/
def Op.idle : Op → Bool
  | .errno | .sleep _ | .malloc _ | .free | .segfault | .printf _ | .eprintf _ | .exit _ => true
  | .perfEventOpen .. | .ioctl .. | .readCount _ | .close _ => false

/-- Where an answered call takes a process; `none` where its calls are out of order. -/
def Stage.next (stage : Stage) (o : Op) (a : o.Ans) : Option Stage :=
  if o.idle then some stage
  else
    match stage, o with
    | .unopened, .perfEventOpen attr pid cpu _ _ =>
        if (a : Int) = -1 then some .unopened
        else if attr.disabled ∧ attr.excludeKernel ∧ attr.excludeHv ∧ pid = 0 ∧ cpu = -1 then
          attr.raw.map fun raw => .ready a raw.config
        else none
    | .ready fd code, .ioctl fd' .PERF_EVENT_IOC_RESET => if fd' = fd then some (.ready fd code) else none
    | .ready fd code, .ioctl fd' .PERF_EVENT_IOC_ENABLE =>
        if fd' = fd then some (if (a : Int) = 0 then .counting fd code else .ready fd code) else none
    | .ready fd code, .ioctl fd' .PERF_EVENT_IOC_DISABLE => if fd' = fd then some (.ready fd code) else none
    | .counting fd code, .ioctl fd' .PERF_EVENT_IOC_DISABLE =>
        if fd' = fd then some (if (a : Int) = 0 then .halted fd code else .counting fd code) else none
    | .ready fd code, .readCount fd' | .counting fd code, .readCount fd' | .halted fd code, .readCount fd' =>
        if fd' = fd then some (.took fd code a) else none
    | .took fd code value, .close fd' => if fd' = fd then some (.closed code value) else none
    | _, _ => none

/-- The stage after these calls. -/
def stageOf (calls : List (Answered sig)) : Option Stage :=
  calls.foldl (fun stage c => stage.bind fun s => s.next c.op c.ans) (some .unopened)

theorem stageOf_snoc (calls : List (Answered sig)) (c : Answered sig) :
    stageOf (calls ++ [c]) = (stageOf calls).bind fun s => s.next c.op c.ans := by
  rw [stageOf, List.foldl_append]
  rfl

section Kernel

variable (pidOf : Nat → Nat)

/-- The event of process `t`, as the tools open it. -/
def eventOf (t : Nat) (code : BitVec 32) : PerfEvent where
  id := t
  attr := { type := .PERF_TYPE_RAW, config := code, disabled := true, excludeKernel := true,
            excludeHv := true }
  cpu := -1
  task := some (pidOf t)

/-- The read gave the number of events, or it was refused. -/
def Settled (t : Nat) (past : List Happening) (code : BitVec 32) (value : Option U64) : Prop :=
  ∃ phase n, phase ≠ .within ∧ Window t (pidOf t) code past phase n ∧
    ∃ e fd, .call t e ⟨.readCount fd, value⟩ ∈ past ∧
      value = if e.reads then some (BitVec.ofNat 64 n) else none

/-- What a stage says of the history and of the event of process `t`. -/
def Describes (t : Nat) (past : List Happening) (event : Option (Int × Counter)) : Stage → Prop
  | .unopened => event = none ∧ ∀ x ∈ past, enables t x = false
  | .ready fd code => event = some (fd, ⟨eventOf pidOf t code, false, 0⟩) ∧
      ∀ x ∈ past, enables t x = false
  | .counting fd code => ∃ n, event = some (fd, ⟨eventOf pidOf t code, true, BitVec.ofNat 64 n⟩) ∧
      Window t (pidOf t) code past .within n
  | .halted fd code => ∃ n, event = some (fd, ⟨eventOf pidOf t code, false, BitVec.ofNat 64 n⟩) ∧
      Window t (pidOf t) code past .after n
  | .took fd code value => (∃ c, event = some (fd, c)) ∧ Settled pidOf t past code value
  | .closed code value => event = none ∧ Settled pidOf t past code value

variable {pidOf} {t : Nat} {past : List Happening} {event : Option (Int × Counter)} {stage : Stage}
  {code : BitVec 32} {value : Option U64}

/-- An event the tools open counts what happens in its process in user mode. -/
theorem observes_eventOf (occ : Occurrence) :
    (eventOf pidOf t code).observes occ = happensIn (pidOf t) code (.world occ) := by
  obtain ⟨cpu, pid, occCode, mode⟩ := occ
  rw [Bool.eq_iff_iff]
  cases mode with
  | user =>
      simp only [PerfEvent.observes, eventOf, happensIn]
      simp only [Bool.and_eq_true, beq_iff_eq, Option.all_some]
      exact ⟨fun seen => by simp_all, fun seen => by simp_all⟩
  | kernel => simp [PerfEvent.observes, eventOf, happensIn]
  | hypervisor => simp [PerfEvent.observes, eventOf, happensIn]

theorem Settled.snoc (settled : Settled pidOf t past code value) {x : Happening}
    (quiet : enables t x = false) : Settled pidOf t (past ++ [x]) code value := by
  obtain ⟨phase, n, ended, window, e, fd, member, read⟩ := settled
  have member : .call t e ⟨.readCount fd, value⟩ ∈ past ++ [x] := List.mem_append_left _ member
  cases phase with
  | before =>
      have zero : n = 0 := by cases window; rfl
      exact ⟨.before, n, ended, zero ▸ window.early quiet, e, fd, member, read⟩
  | within => exact absurd rfl ended
  | after => exact ⟨.after, n, ended, window.late x, e, fd, member, read⟩

theorem unopened_snoc {x : Happening} (unopened : ∀ y ∈ past, enables t y = false)
    (quiet : enables t x = false) : ∀ y ∈ past ++ [x], enables t y = false := by
  intro y member
  rcases List.mem_append.mp member with old | new
  · exact unopened y old
  · exact List.mem_singleton.mp new ▸ quiet

/-- What is nothing to the process leaves it at its stage. -/
theorem Describes.skip (describes : Describes pidOf t past event stage) {x : Happening}
    (quiet : enables t x = false) (unclosed : finishes t x = false)
    (elsewhere : ∀ code, happensIn (pidOf t) code x = false) :
    Describes pidOf t (past ++ [x]) event stage := by
  cases stage with
  | unopened => exact ⟨describes.1, unopened_snoc describes.2 quiet⟩
  | ready fd code => exact ⟨describes.1, unopened_snoc describes.2 quiet⟩
  | counting fd code =>
      obtain ⟨n, open_, window⟩ := describes
      exact ⟨n, open_, window.skip quiet unclosed (elsewhere code)⟩
  | halted fd code =>
      obtain ⟨n, open_, window⟩ := describes
      exact ⟨n, open_, window.late x⟩
  | took fd code value => exact ⟨describes.1, describes.2.snoc quiet⟩
  | closed code value => exact ⟨describes.1, describes.2.snoc quiet⟩

/-- A hardware event is counted in the span, and only there. -/
theorem Describes.world (describes : Describes pidOf t past event stage) (occ : Occurrence) :
    Describes pidOf t (past ++ [.world occ]) (event.map fun (fd, c) => (fd, c.observe occ)) stage := by
  cases stage with
  | unopened =>
      obtain ⟨rfl, unopened⟩ := describes
      exact ⟨rfl, unopened_snoc unopened rfl⟩
  | ready fd code =>
      obtain ⟨rfl, unopened⟩ := describes
      exact ⟨rfl, unopened_snoc unopened rfl⟩
  | counting fd code =>
      obtain ⟨n, rfl, window⟩ := describes
      refine ⟨_, ?_, window.more rfl⟩
      show some (fd, Counter.observe _ occ) = _
      rw [Counter.observe, observes_eventOf]
      cases happensIn (pidOf t) code (.world occ) with
      | false => rfl
      | true =>
          simp only [Bool.and_self, if_true, BitVec.ofNat_add]
          rfl
  | halted fd code =>
      obtain ⟨n, rfl, window⟩ := describes
      exact ⟨n, rfl, window.late _⟩
  | took fd code value =>
      obtain ⟨⟨c, rfl⟩, settled⟩ := describes
      exact ⟨⟨_, rfl⟩, settled.snoc rfl⟩
  | closed code value =>
      obtain ⟨rfl, settled⟩ := describes
      exact ⟨rfl, settled.snoc rfl⟩

end Kernel

/-! ## Calls -/

/-- What a call prints. -/
def Op.text : Op → Option (Stream × List Char)
  | .printf text => some (.stdout, text)
  | .eprintf text => some (.stderr, text)
  | _ => none

/-- What a call may change: the event of its own process, and what is printed. -/
structure Own (t : Nat) (o : Op) (m m' : Machine) : Prop where
  others : ∀ u, u ≠ t → m'.event u = m.event u
  idle : o.idle = true → m'.event t = m.event t
  output : m'.output = m.output ++ (o.text.map fun text => (t, text)).toList

section Calls

variable {pidOf : Nat → Nat} {t : Nat} {e : Grants} {m m' : Machine}

theorem Own.refl {o : Op} (silent : o.text = none) : Own t o m m :=
  ⟨fun _ _ => rfl, fun _ => rfl, by rw [silent]; exact (List.append_nil _).symm⟩

theorem Own.set {o : Op} (silent : o.text = none) (concerned : o.idle = false)
    (event : Option (Int × Counter)) : Own t o m (m.setEvent t event) where
  others u other := by
    show Function.update m.event t event u = m.event u
    rw [Function.update_of_ne other]
  idle idle := by rw [concerned] at idle; cases idle
  output := by rw [silent]; exact (List.append_nil _).symm

theorem kernel_own {o : Op} {a : o.Ans} (answered : kernel pidOf t e o m = .done a m') :
    Own t o m m' := by
  cases o with
  | perfEventOpen attr pid cpu groupFd flags =>
      simp only [kernel] at answered
      split at answered <;> cases answered
      · exact .set rfl rfl _
      · exact .refl rfl
  | errno =>
      simp only [kernel] at answered
      split at answered <;> cases answered <;> exact .refl rfl
  | ioctl fd request =>
      simp only [kernel] at answered
      split at answered
      · split at answered <;> cases answered
        · exact .set rfl rfl _
        · exact .refl rfl
      · cases answered
        exact .refl rfl
  | close fd =>
      simp only [kernel] at answered
      split at answered <;> cases answered
      · exact .set rfl rfl _
      · exact .refl rfl
  | readCount | sleep | malloc | free =>
      cases answered
      exact .refl rfl
  | printf text | eprintf text =>
      cases answered
      exact ⟨fun _ _ => rfl, fun _ => rfl, rfl⟩
  | segfault | exit => cases answered

/-- A call on the open descriptor finds the event. -/
theorem counter_own {fd : Int} {c : Counter} (open_ : m.event t = some (fd, c)) :
    m.counter t fd = some c := by
  rw [Machine.counter, open_]
  exact if_pos rfl

variable {past : List Happening} {stage stage' : Stage}

/-- An idle call leaves a process at its stage. -/
theorem Describes.idleCall (describes : Describes pidOf t past (m.event t) stage) {o : Op} {a : o.Ans}
    (idle : o.idle = true) (answered : kernel pidOf t e o m = .done a m') :
    Describes pidOf t (past ++ [.call t e ⟨o, a⟩]) (m'.event t) stage := by
  rw [(kernel_own answered).idle idle]
  refine describes.skip ?_ ?_ fun _ => rfl
  · cases o <;> first | rfl | cases idle
  · cases o <;> first | rfl | cases idle

theorem Describes.openCall (describes : Describes pidOf t past (m.event t) stage) {attr : Attributes}
    {pid cpu groupFd : Int} {flags : Nat} {a : Int}
    (answered : kernel pidOf t e (.perfEventOpen attr pid cpu groupFd flags) m = .done a m')
    (next : stage.next (.perfEventOpen attr pid cpu groupFd flags) a = some stage') :
    Describes pidOf t (past ++ [.call t e ⟨.perfEventOpen attr pid cpu groupFd flags, a⟩])
      (m'.event t) stage' := by
  cases stage with
  | unopened =>
      simp only [kernel, opening] at answered
      split at answered
      · rename_i event opened
        split at opened
        · rename_i fd raw _ selected
          cases opened
          cases answered
          have found : ¬(fd : Int) = -1 := by omega
          simp only [Stage.next, Op.idle, Bool.false_eq_true, if_false, if_neg found] at next
          split at next
          · rename_i plain
            obtain ⟨disabled, kernelOut, hvOut, rfl, rfl⟩ := plain
            rw [selected] at next
            cases next
            have attrs : raw = (eventOf pidOf t raw.config).attr := by
              simp only [Attributes.raw, disabled, kernelOut, hvOut] at selected
              split at selected
              · cases selected
                rfl
              · split at selected <;> cases selected
                rfl
            refine ⟨?_, unopened_snoc describes.2 rfl⟩
            show Function.update m.event t _ t = _
            rw [Function.update_self, disabled, if_pos rfl]
            nth_rewrite 1 [attrs]
            rfl
          · cases next
        · cases opened
        · cases opened
      · cases answered
        cases next
        exact ⟨describes.1, unopened_snoc describes.2 rfl⟩
  | ready | counting | halted | took | closed => cases next

/-- A request of the process, on its open event. -/
theorem Describes.ioctlCall (describes : Describes pidOf t past (m.event t) stage) {fd : Int}
    {request : PerfRequest} {a : Int}
    (answered : kernel pidOf t e (.ioctl fd request) m = .done a m')
    (next : stage.next (.ioctl fd request) a = some stage') :
    Describes pidOf t (past ++ [.call t e ⟨.ioctl fd request, a⟩]) (m'.event t) stage' := by
  -- a request on the open event is granted, and changes it, or is refused
  have asked : ∀ {c : Counter}, m.event t = some (fd, c) →
      (a = 0 ∧ m'.event t = some (fd, c.request request)) ∨ (a = -1 ∧ m'.event t = some (fd, c)) := by
    intro c open_
    simp only [kernel, counter_own open_] at answered
    split at answered <;> cases answered
    · exact .inl ⟨rfl, Function.update_self ..⟩
    · exact .inr ⟨rfl, open_⟩
  cases stage with
  | ready own code =>
      obtain ⟨open_, unopened⟩ := describes
      cases request with
      | PERF_EVENT_IOC_RESET =>
          obtain ⟨rfl, next⟩ := Option.ite_none_right_eq_some.mp next
          cases next
          rcases asked open_ with ⟨rfl, granted⟩ | ⟨rfl, refused⟩
          · exact ⟨granted, unopened_snoc unopened rfl⟩
          · exact ⟨refused, unopened_snoc unopened rfl⟩
      | PERF_EVENT_IOC_ENABLE =>
          obtain ⟨rfl, next⟩ := Option.ite_none_right_eq_some.mp next
          rcases asked open_ with ⟨rfl, granted⟩ | ⟨rfl, refused⟩
          · cases next
            refine ⟨0, granted, (Window.before unopened).opens ?_⟩
            simp [enables]
          · cases next
            exact ⟨refused, unopened_snoc unopened (by simp [enables])⟩
      | PERF_EVENT_IOC_DISABLE =>
          obtain ⟨rfl, next⟩ := Option.ite_none_right_eq_some.mp next
          cases next
          rcases asked open_ with ⟨rfl, granted⟩ | ⟨rfl, refused⟩
          · exact ⟨granted, unopened_snoc unopened rfl⟩
          · exact ⟨refused, unopened_snoc unopened rfl⟩
  | counting own code =>
      obtain ⟨n, open_, window⟩ := describes
      cases request with
      | PERF_EVENT_IOC_DISABLE =>
          obtain ⟨rfl, next⟩ := Option.ite_none_right_eq_some.mp next
          rcases asked open_ with ⟨rfl, granted⟩ | ⟨rfl, refused⟩
          · cases next
            exact ⟨n, granted, window.close (by simp [finishes])⟩
          · cases next
            exact ⟨n, refused, window.skip rfl (by simp [finishes]) rfl⟩
      | PERF_EVENT_IOC_RESET | PERF_EVENT_IOC_ENABLE => cases next
  | unopened | halted | took | closed => cases next

/-- The read ends the span, if nothing else did. -/
theorem Describes.readCall (describes : Describes pidOf t past (m.event t) stage) {fd : Int}
    {a : Option U64} (answered : kernel pidOf t e (.readCount fd) m = .done a m')
    (next : stage.next (.readCount fd) a = some stage') :
    Describes pidOf t (past ++ [.call t e ⟨.readCount fd, a⟩]) (m'.event t) stage' := by
  have reading : ∀ {c : Counter} {n : Nat}, m.event t = some (fd, c) → c.count = BitVec.ofNat 64 n →
      m'.event t = m.event t ∧
        ∃ e' fd', .call t e' ⟨.readCount fd', a⟩ ∈ past ++ [.call t e ⟨.readCount fd, a⟩] ∧
          a = if e'.reads then some (BitVec.ofNat 64 n) else none := by
    intro c n open_ counted
    simp only [kernel, counter_own open_, Option.map_some, counted] at answered
    cases answered
    exact ⟨rfl, e, fd, List.mem_append_right _ List.mem_cons_self, rfl⟩
  have finished : finishes t (.call t e ⟨.readCount fd, a⟩) = true := by simp [finishes]
  cases stage with
  | ready own code =>
      obtain ⟨open_, unopened⟩ := describes
      obtain ⟨rfl, next⟩ := Option.ite_none_right_eq_some.mp next
      cases next
      obtain ⟨same, read⟩ := reading (n := 0) open_ rfl
      exact ⟨⟨_, same.trans open_⟩, .before, 0, nofun, .before (unopened_snoc unopened rfl), read⟩
  | counting own code =>
      obtain ⟨n, open_, window⟩ := describes
      obtain ⟨rfl, next⟩ := Option.ite_none_right_eq_some.mp next
      cases next
      obtain ⟨same, read⟩ := reading open_ rfl
      exact ⟨⟨_, same.trans open_⟩, .after, n, nofun, window.close finished, read⟩
  | halted own code =>
      obtain ⟨n, open_, window⟩ := describes
      obtain ⟨rfl, next⟩ := Option.ite_none_right_eq_some.mp next
      cases next
      obtain ⟨same, read⟩ := reading open_ rfl
      exact ⟨⟨_, same.trans open_⟩, .after, n, nofun, window.late _, read⟩
  | unopened | took | closed => cases next

theorem Describes.closeCall (describes : Describes pidOf t past (m.event t) stage) {fd : Int}
    (answered : kernel pidOf t e (.close fd) m = .done () m')
    (next : stage.next (.close fd) () = some stage') :
    Describes pidOf t (past ++ [.call t e ⟨.close fd, ()⟩]) (m'.event t) stage' := by
  cases stage with
  | took own code value =>
      obtain ⟨⟨c, open_⟩, settled⟩ := describes
      obtain ⟨rfl, same⟩ := Option.ite_none_right_eq_some.mp next
      cases same
      simp only [kernel, counter_own open_] at answered
      cases answered
      exact ⟨Function.update_self .., settled.snoc rfl⟩
  | unopened | ready | counting | halted | closed => cases next

/-- **One call** of a process takes its stage on, and what the stage says with it. -/
theorem Describes.call (describes : Describes pidOf t past (m.event t) stage) {o : Op} {a : o.Ans}
    (answered : kernel pidOf t e o m = .done a m') (next : stage.next o a = some stage') :
    Describes pidOf t (past ++ [.call t e ⟨o, a⟩]) (m'.event t) stage' := by
  cases o with
  | perfEventOpen => exact describes.openCall answered next
  | ioctl => exact describes.ioctlCall answered next
  | readCount => exact describes.readCall answered next
  | close => exact describes.closeCall answered next
  | errno | sleep | malloc | free | printf | eprintf =>
      cases next
      exact describes.idleCall rfl answered
  | segfault | exit => cases answered

end Calls

/-! ## Runs -/

section Run

variable {pidOf : Nat → Nat}

/-- What a happening prints. -/
def printedBy : Happening → Option (Nat × Stream × List Char)
  | .call t _ made => made.op.text.map fun text => (t, text)
  | .world _ => none

/-- The history accounts for the output and, stage by stage, for the events. -/
structure Accounted (pidOf : Nat → Nat) (past : List Happening) (m : Machine) : Prop where
  output : m.output = past.filterMap printedBy
  stages : ∀ t stage, stageOf (callsOf t past) = some stage →
    Describes pidOf t past (m.event t) stage

theorem Accounted.call {past : List Happening} {m m' : Machine} {t : Nat} {e : Grants} {o : Op}
    {a : o.Ans} (accounted : Accounted pidOf past m) (answered : kernel pidOf t e o m = .done a m') :
    Accounted pidOf (past ++ [.call t e ⟨o, a⟩]) m' where
  output := by
    rw [(kernel_own answered).output, accounted.output, List.filterMap_append]
    cases text : o.text <;> simp [printedBy, text]
  stages u stage at_ := by
    rw [callsOf_append] at at_
    by_cases self : t = u
    · subst self
      rw [callsOf_own, stageOf_snoc] at at_
      obtain ⟨before, at_before, next⟩ := Option.bind_eq_some_iff.mp at_
      exact (accounted.stages t before at_before).call answered next
    · rw [callsOf_other self, List.append_nil] at at_
      rw [(kernel_own answered).others u (Ne.symm self)]
      have apart : (t == u) = false := beq_false_of_ne self
      refine (accounted.stages u stage at_).skip ?_ ?_ fun _ => rfl
      · unfold enables
        split
        · rename_i same
          cases same
          rw [apart, Bool.false_and]
        · rfl
      · unfold finishes
        split
        · rename_i same
          cases same
          rw [apart, Bool.false_and]
        · rename_i same
          cases same
          exact apart
        · rfl

theorem Accounted.world {past : List Happening} {m : Machine} (accounted : Accounted pidOf past m)
    (occ : Occurrence) : Accounted pidOf (past ++ [.world occ]) (m.observe occ) where
  output := by
    rw [List.filterMap_append]
    exact (List.append_nil _).symm ▸ accounted.output
  stages u stage at_ := by
    rw [callsOf_append, callsOf_world, List.append_nil] at at_
    exact (accounted.stages u stage at_).world occ

/-- No process has been started. -/
abbrev booted : Pool sig Grants Machine Int := ⟨.idle, []⟩

/-- The system after a run: any programs beside each other, and what happens to them. -/
abbrev after (pidOf : Nat → Nat) (actions : List (Pool.Action sig Grants Occurrence Int)) :
    Pool sig Grants Machine Int :=
  Pool.run (kernel pidOf) Machine.observe booted actions

/-- What happened in a run. -/
abbrev history (pidOf : Nat → Nat) (actions : List (Pool.Action sig Grants Occurrence Int)) :
    List Happening :=
  Pool.events (kernel pidOf) Machine.observe booted actions

theorem run_accounted (pidOf : Nat → Nat) (actions : List (Pool.Action sig Grants Occurrence Int)) :
    Accounted pidOf (history pidOf actions) (after pidOf actions).shared := by
  refine Pool.run_history (I := Accounted pidOf) (fun accounted answered => accounted.call answered)
    (fun {past w s} accounted => accounted.world w) ⟨rfl, fun t stage at_ => ?_⟩ actions
  cases at_
  exact ⟨rfl, fun x member => absurd member List.not_mem_nil⟩

/-- What these calls print on `stdout`. -/
def stdoutOf (calls : List (Answered sig)) : List (List Char) :=
  calls.filterMap fun c =>
    match c.op.text with
    | some (.stdout, text) => some text
    | _ => none

theorem stdout_eq {past : List Happening} {m : Machine} (accounted : Accounted pidOf past m) (t : Nat) :
    m.stdout t = stdoutOf (callsOf t past) := by
  rw [Machine.stdout, accounted.output, stdoutOf, callsOf, List.filterMap_filterMap,
    List.filterMap_filterMap]
  refine List.filterMap_congr fun x _ => ?_
  cases x with
  | world occ => rfl
  | call u e made =>
      by_cases self : u = t
      · simp only [printedBy, Event.callOf, self, if_true, Option.bind_some]
        cases made.op.text with
        | none => rfl
        | some text =>
            obtain ⟨stream, text⟩ := text
            cases stream <;> simp
      · simp only [printedBy, Event.callOf, self, if_false, Option.bind_none]
        cases made.op.text <;> simp [self]

end Run

/-! ## The calls of a tool -/

def Op.prints : Op → Bool
  | .printf _ => true
  | _ => false

/-- A call that neither concerns the event nor prints on `stdout`. -/
def Op.quiet (o : Op) : Prop := o.idle = true ∧ o.prints = false

/-- What a tool of the four is: it opens its event disabled and for user mode, gives back the
descriptor it got, complains quietly if there is none, and does something quiet meanwhile, from
which it goes on with these lines. -/
structure Tool.Plain (tool : Tool) (raw : PerfEventAttr) (more : List (List Char)) : Prop where
  selects : tool.attr.raw = some raw
  flags : tool.attr.disabled ∧ tool.attr.excludeKernel ∧ tool.attr.excludeHv
  gives : ∀ fd, fd ≠ -1 → tool.wrapper fd = .ret fd
  fails : (tool.wrapper (-1)).Only Op.quiet ∧ (tool.wrapper (-1)).Returns (· = -1)
  complains : tool.complain.Only Op.quiet
  profiles : tool.profiled.Only Op.quiet ∧ tool.profiled.Returns (· = more)

theorem stdoutOf_append (calls later : List (Answered sig)) :
    stdoutOf (calls ++ later) = stdoutOf calls ++ stdoutOf later :=
  List.filterMap_append

theorem stdoutOf_quiet (calls : List (Answered sig)) {o : Op} (a : o.Ans) (quiet : o.prints = false) :
    stdoutOf (calls ++ [⟨o, a⟩]) = stdoutOf calls := by
  rw [stdoutOf_append]
  cases o with
  | printf text => cases quiet
  | _ => exact List.append_nil _

theorem stageOf_idle {calls : List (Answered sig)} {o : Op} {a : o.Ans} (idle : o.idle = true) :
    stageOf (calls ++ [⟨o, a⟩]) = stageOf calls := by
  rw [stageOf_snoc]
  have stays : ∀ stage : Stage, stage.next o a = some stage := fun stage => if_pos idle
  cases stageOf calls with
  | none => rfl
  | some stage => exact stays stage

/-- What the calls of a tool come to: nothing printed and nothing returned yet; or a value read,
and part of the report printed; or all of it, the event closed and 0 returned. -/
def Fine (tool : Tool) (raw : PerfEventAttr) (more : List (List Char)) (count : U64)
    (calls : List (Answered sig)) (v : Option Int) : Prop :=
  (stdoutOf calls = [] ∧ v = none) ∨
  (∃ fd read, stageOf calls = some (.took fd raw.config read) ∧ v = none ∧
    stdoutOf calls <+: tool.report more (read.getD count)) ∨
  ∃ read, stageOf calls = some (.closed raw.config read) ∧
    stdoutOf calls = tool.report more (read.getD count) ∧ ∀ status, v = some status → status = 0

/-- A quiet part of a program leaves the stage and `stdout`. -/
theorem quiet_always {α : Type} {p : Code α} {Q : α → Prop} {calls : List (Answered sig)}
    (only : p.Only Op.quiet) (returns : p.Returns Q) :
    p.Always (fun later v => (stageOf later = stageOf calls ∧ stdoutOf later = stdoutOf calls) ∧
      ∀ a, v = some a → Q a) calls :=
  only.always returns
    (fun _ _ _ quiet same => ⟨(stageOf_idle quiet.1).trans same.1, (stdoutOf_quiet _ _ quiet.2).trans same.2⟩)
    ⟨rfl, rfl⟩

section Tool

variable {tool : Tool} {raw : PerfEventAttr} {more : List (List Char)} {count : U64}
  {calls : List (Answered sig)}

theorem returns_true {α : Type} (p : Code α) : p.Returns fun _ => True := by
  induction p with
  | ret a => trivial
  | call o k ih => exact ih

/-- The report, line by line, and the end. -/
theorem fine_report {fd : Int} {read : Option U64} (lines : List (List Char))
    (took : stageOf calls = some (.took fd raw.config read))
    (printed : stdoutOf calls ++ lines = tool.report more (read.getD count)) :
    (do printfs lines; close fd; return (0 : Int) : Code Int).Always (Fine tool raw more count) calls := by
  induction lines generalizing calls with
  | nil =>
      rw [List.append_nil] at printed
      refine ⟨.inr (.inl ⟨fd, read, took, rfl, printed ▸ List.prefix_rfl⟩), fun _ => .inr (.inr ⟨read, ?_, ?_, ?_⟩)⟩
      · rw [stageOf_snoc, took]
        exact if_pos rfl
      · exact (stdoutOf_quiet (o := .close fd) calls () rfl).trans printed
      · exact fun status same => (Option.some.inj same).symm
  | cons text lines ih =>
      refine ⟨.inr (.inl ⟨fd, read, took, rfl, printed ▸ List.prefix_append _ _⟩), fun _ => ih ?_ ?_⟩
      · rw [stageOf_idle rfl, took]
      · rw [stdoutOf_append, ← printed, List.append_assoc]
        rfl

/-- From the disabling of the event on. -/
theorem fine_finish {fd : Int} (lines : List (List Char))
    (open_ : stageOf calls = some (.ready fd raw.config) ∨
      stageOf calls = some (.counting fd raw.config)) (silent : stdoutOf calls = []) :
    (do
      let _ ← ioctl fd .PERF_EVENT_IOC_DISABLE
      let read ← readCount fd
      printf (tool.countLine (read.getD count))
      printfs lines
      close fd
      return (0 : Int) : Code Int).Always (Fine tool raw lines count) calls := by
  refine ⟨.inl ⟨silent, rfl⟩, fun disabled => ?_⟩
  have silent : stdoutOf (calls ++ [⟨.ioctl fd .PERF_EVENT_IOC_DISABLE, disabled⟩]) = [] :=
    (stdoutOf_quiet calls _ rfl).trans silent
  have open_ : ∃ stage, stageOf (calls ++ [⟨.ioctl fd .PERF_EVENT_IOC_DISABLE, disabled⟩]) = some stage ∧
      ∀ read, stage.next (.readCount fd) read = some (.took fd raw.config read) := by
    rw [stageOf_snoc]
    rcases open_ with ready | counting
    · rw [ready]
      exact ⟨_, if_pos rfl, fun read => if_pos rfl⟩
    · rw [counting]
      refine ⟨_, if_pos rfl, fun read => ?_⟩
      by_cases granted : (disabled : Int) = 0
      · rw [if_pos granted]
        exact if_pos rfl
      · rw [if_neg granted]
        exact if_pos rfl
  obtain ⟨stage, at_, next⟩ := open_
  refine ⟨.inl ⟨silent, rfl⟩, fun read => ?_⟩
  have took : stageOf (calls ++ [⟨.ioctl fd .PERF_EVENT_IOC_DISABLE, disabled⟩] ++ [⟨.readCount fd, read⟩]) =
      some (.took fd raw.config read) := by
    rw [stageOf_snoc, at_]
    exact next read
  refine fine_report (tool.countLine (read.getD count) :: lines) took ?_
  rw [stdoutOf_quiet _ _ rfl, silent]
  rfl

/-- From the open event on. -/
theorem fine_measure (plain : tool.Plain raw more) {fd : Int}
    (ready : stageOf calls = some (.ready fd raw.config)) (silent : stdoutOf calls = []) :
    (tool.measure count fd).Always (Fine tool raw more count) calls := by
  refine ⟨.inl ⟨silent, rfl⟩, fun reset => ?_⟩
  have silent := (stdoutOf_quiet (o := .ioctl fd .PERF_EVENT_IOC_RESET) calls reset rfl).trans silent
  have ready : stageOf (calls ++ [⟨.ioctl fd .PERF_EVENT_IOC_RESET, reset⟩]) =
      some (.ready fd raw.config) := by
    rw [stageOf_snoc, ready]
    exact if_pos rfl
  refine ⟨.inl ⟨silent, rfl⟩, fun enable => ?_⟩
  have silent := (stdoutOf_quiet (o := .ioctl fd .PERF_EVENT_IOC_ENABLE) _ enable rfl).trans silent
  have open_ : stageOf (calls ++ [⟨.ioctl fd .PERF_EVENT_IOC_RESET, reset⟩] ++
        [⟨.ioctl fd .PERF_EVENT_IOC_ENABLE, enable⟩]) = some (.ready fd raw.config) ∨
      stageOf (calls ++ [⟨.ioctl fd .PERF_EVENT_IOC_RESET, reset⟩] ++
        [⟨.ioctl fd .PERF_EVENT_IOC_ENABLE, enable⟩]) = some (.counting fd raw.config) := by
    rw [stageOf_snoc, ready]
    by_cases granted : (enable : Int) = 0
    · exact .inr ((if_pos rfl).trans (congrArg some (if_pos granted)))
    · exact .inl ((if_pos rfl).trans (congrArg some (if_neg granted)))
  -- what is measured prints nothing, and comes to an end with the lines of the tool or not at all
  show Prog.Always _ (tool.profiled >>= _) _
  refine Prog.always_bind (quiet_always plain.profiles.1 plain.profiles.2) ?_ ?_
  · exact fun past same => .inl ⟨same.1.2.trans silent, rfl⟩
  · intro past lines same
    obtain ⟨⟨stage, out⟩, lines_eq⟩ := same
    cases lines_eq lines rfl
    exact fine_finish more (stage ▸ open_) (out.trans silent)

/-- **The calls of a tool** come to its report of what it read. -/
theorem fine_main (plain : tool.Plain raw more) (count : U64) :
    (tool.main count).Always (Fine tool raw more count) [] := by
  refine ⟨.inl ⟨rfl, rfl⟩, fun ret => ?_⟩
  show Prog.Always _ (tool.wrapper ret >>= _) _
  by_cases failed : ret = (-1 : Int)
  · -- no event: the wrapper and the complaint are quiet, and nothing returns
    subst failed
    have unopened : stdoutOf [⟨.perfEventOpen tool.attr 0 (-1) (-1) 0, (-1 : Int)⟩] = [] := rfl
    refine Prog.always_bind (quiet_always plain.fails.1 plain.fails.2) ?_ ?_
    · exact fun past same => .inl ⟨same.1.2.trans unopened, rfl⟩
    · intro past fd same
      cases same.2 fd rfl
      show Prog.Always _ (tool.complain >>= fun _ => exit 1) _
      refine Prog.always_bind (quiet_always plain.complains (returns_true _)) ?_ ?_
      · exact fun past' same' => .inl ⟨same'.1.2.trans (same.1.2.trans unopened), rfl⟩
      · intro past' _ same'
        exact ⟨.inl ⟨same'.1.2.trans (same.1.2.trans unopened), rfl⟩, nofun⟩
  · rw [plain.gives ret failed]
    show Prog.Always _ (if ret = -1 then _ else _) _
    rw [if_neg failed]
    refine fine_measure plain ?_ rfl
    obtain ⟨disabled, kernelOut, hvOut⟩ := plain.flags
    show (if (ret : Int) = -1 then _ else if _ then _ else _) = _
    rw [if_neg failed, if_pos ⟨disabled, kernelOut, hvOut, rfl, rfl⟩, plain.selects]
    rfl

end Tool

/-! ## The four tools -/

theorem fillArray_get (array : Nat → BitVec 32) {arraySize i : Nat} (inside : i < arraySize) :
    fillArray array arraySize i = BitVec.ofNat 32 i := by
  induction arraySize with
  | zero => cases inside
  | succ arraySize ih =>
      rw [fillArray, List.range_succ, List.foldl_append]
      show Function.update (fillArray array arraySize) arraySize _ i = _
      by_cases last : i = arraySize
      · rw [last, Function.update_self]
      · rw [Function.update_of_ne last, ih (by omega)]

/-- The sum of the array, which wraps. -/
theorem sumArray_fillArray (array : Nat → BitVec 32) {arraySize size : Nat} (inside : size ≤ arraySize) :
    sumArray (fillArray array arraySize) size = BitVec.ofNat 32 (size * (size - 1) / 2) := by
  induction size with
  | zero => rfl
  | succ size ih =>
      rw [sumArray, List.range_succ, List.foldl_append, Nat.triangle_succ, BitVec.ofNat_add, ← ih (by omega)]
      show sumArray _ size + fillArray array arraySize size = _
      rw [fillArray_get array (by omega)]

theorem sumLine_toyExample (array : Nat → BitVec 32) :
    sumLine (sumArray (fillArray array 100000) 100000) = "Sum: 704982704\n".toList := by
  rw [sumArray_fillArray array (Nat.le_refl _)]
  rfl

theorem pmuCycleCount_plain : pmuCycleCount.Plain (eventOf id 0 0x11).attr [] where
  selects := rfl
  flags := ⟨rfl, rfl, rfl⟩
  gives _ _ := rfl
  fails := ⟨trivial, rfl⟩
  complains := ⟨⟨rfl, rfl⟩, fun _ => trivial⟩
  profiles := ⟨trivial, rfl⟩

theorem pmuCacheMiss_plain (strerror : Int → List Char) :
    (pmuCacheMiss strerror).Plain (eventOf id 0 0x04).attr [] where
  selects := rfl
  flags := ⟨rfl, rfl, rfl⟩
  gives _ _ := rfl
  fails := ⟨trivial, rfl⟩
  complains := ⟨⟨rfl, rfl⟩, fun _ => ⟨⟨rfl, rfl⟩, fun _ => trivial⟩⟩
  profiles := ⟨trivial, rfl⟩

theorem l1CacheMisses_plain : l1CacheMisses.Plain (eventOf id 0 0x04).attr [] where
  selects := rfl
  flags := ⟨rfl, rfl, rfl⟩
  gives fd found := if_neg found
  fails := by
    refine ⟨⟨⟨rfl, rfl⟩, fun n => ?_⟩, fun n => ?_⟩
    · show Prog.Only _ (if n = ENOSYS then _ else _)
      split
      · exact ⟨⟨rfl, rfl⟩, fun _ => ⟨⟨rfl, rfl⟩, nofun⟩⟩
      · trivial
    · show Prog.Returns _ (if n = ENOSYS then _ else _)
      split
      · exact fun _ => nofun
      · rfl
  complains := ⟨⟨rfl, rfl⟩, fun _ => trivial⟩
  profiles := ⟨⟨⟨rfl, rfl⟩, fun _ => trivial⟩, fun _ => rfl⟩

theorem pmuCacheMissArraySum_plain :
    pmuCacheMissArraySum.Plain (eventOf id 0 0x03).attr ["Sum: 704982704\n".toList] where
  selects := rfl
  flags := ⟨rfl, rfl, rfl⟩
  gives _ _ := rfl
  fails := ⟨trivial, rfl⟩
  complains := ⟨⟨rfl, rfl⟩, fun _ => trivial⟩
  profiles := by
    refine ⟨⟨⟨rfl, rfl⟩, fun block => ?_⟩, fun block => ?_⟩
    · cases block with
      | none => exact ⟨⟨rfl, rfl⟩, nofun⟩
      | some array => exact ⟨⟨rfl, rfl⟩, fun _ => trivial⟩
    · cases block with
      | none => exact nofun
      | some array => exact fun _ => congrArg (fun line => [line]) (sumLine_toyExample array)

theorem tools_plain {strerror : Int → List Char} {tool : Tool} {code : BitVec 32}
    {more : List (List Char)} (listed : (tool, code, more) ∈ tools strerror) :
    ∃ raw, tool.Plain raw more ∧ raw.config = code := by
  simp only [tools, List.mem_cons, List.not_mem_nil, or_false, Prod.mk.injEq] at listed
  rcases listed with ⟨rfl, rfl, rfl⟩ | ⟨rfl, rfl, rfl⟩ | ⟨rfl, rfl, rfl⟩ | ⟨rfl, rfl, rfl⟩
  · exact ⟨_, pmuCycleCount_plain, rfl⟩
  · exact ⟨_, pmuCacheMiss_plain strerror, rfl⟩
  · exact ⟨_, l1CacheMisses_plain, rfl⟩
  · exact ⟨_, pmuCacheMissArraySum_plain, rfl⟩

/-! ## What a tool prints -/

/-- The process prints what its own events came to, line by line; when it has returned, it has
printed all of it, and its event is closed. -/
structure ShowsItself (pidOf : Nat → Nat) (tool : Tool) (code : BitVec 32) (more : List (List Char))
    (count : U64) (t : Nat) (e : Grants)
    (actions : List (Pool.Action sig Grants Occurrence Int)) : Prop where
  prints : (after pidOf actions).shared.stdout t <+: tool.report more
    (if e.reads then BitVec.ofNat 64 (ownEvents t (pidOf t) code (history pidOf actions)) else count)
  ends : ∀ status, (after pidOf actions).threads[t]? = some ⟨e, .ret status⟩ →
    status = 0 ∧ (after pidOf actions).shared.event t = none ∧
      (after pidOf actions).shared.stdout t = tool.report more
        (if e.reads then BitVec.ofNat 64 (ownEvents t (pidOf t) code (history pidOf actions)) else count)

/-- What was read is the number of the process's own events. -/
theorem Settled.value {pidOf : Nat → Nat} {t : Nat} {past : List Happening} {code : BitVec 32}
    {read : Option U64} {e : Grants} (settled : Settled pidOf t past code read)
    (own : ∀ e' made, .call t e' made ∈ past → e' = e) (count : U64) :
    read.getD count =
      if e.reads then BitVec.ofNat 64 (ownEvents t (pidOf t) code past) else count := by
  obtain ⟨phase, n, -, window, e', fd, member, read⟩ := settled
  cases own e' _ member
  rw [read, window.ownEvents_eq]
  cases e.reads <;> rfl

/-- **The tools measure themselves**: in every run, beside any programs, and whatever is
refused. -/
theorem tools_measure_themselves (pidOf : Nat → Nat) (strerror : Int → List Char)
    (actions : List (Pool.Action sig Grants Occurrence Int)) {tool : Tool} {code : BitVec 32}
    {more : List (List Char)} (listed : (tool, code, more) ∈ tools strerror) {t : Nat} {e : Grants}
    {count : U64}
    (begun : (Pool.started booted actions)[t]? = some ⟨e, tool.main count⟩) :
    ShowsItself pidOf tool code more count t e actions := by
  obtain ⟨raw, plain, rfl⟩ := tools_plain listed
  have accounted := run_accounted pidOf actions
  have own : ∀ e' made, .call t e' made ∈ history pidOf actions → e' = e :=
    fun e' made member => Pool.env_of_call _ _ begun member
  obtain ⟨q, here, leaves⟩ := Pool.run_leaves (kernel pidOf) Machine.observe begun
  have fine := (fine_main plain count).leaves leaves
  rw [List.nil_append] at fine
  have out := stdout_eq accounted t
  rcases fine with ⟨silent, running⟩ | ⟨fd, read, took, running, part⟩ | ⟨read, closed, full, status_eq⟩
  · constructor
    · rw [out, silent]
      exact List.nil_prefix
    · intro status returned
      rw [here] at returned
      cases returned
      cases running
  · obtain ⟨-, settled⟩ := accounted.stages t _ took
    constructor
    · rw [out, ← settled.value own count]
      exact part
    · intro status returned
      rw [here] at returned
      cases returned
      cases running
  · obtain ⟨none, settled⟩ := accounted.stages t _ closed
    have printed := out.trans (full.trans (congrArg (tool.report more) (settled.value own count)))
    constructor
    · rw [printed]
    · intro status returned
      rw [here] at returned
      cases returned
      exact ⟨status_eq status rfl, none, printed⟩

/-- Two processes: the cycles of the first are counted in the first. -/
def twoTools : List (Pool.Action sig Grants Occurrence Int) :=
  [.spawn ⟨.all, pmuCycleCount.main 0⟩, .spawn ⟨.all, l1CacheMisses.main 0⟩,
    .step 0, .step 0, .step 1, .step 0, .world ⟨1, 0, 0x11, .user⟩, .world ⟨0, 1, 0x11, .user⟩,
    .world ⟨0, 0, 0x11, .kernel⟩, .world ⟨3, 0, 0x11, .user⟩, .step 0, .world ⟨0, 0, 0x11, .user⟩,
    .step 0, .step 0, .step 0]

theorem twoTools_measure :
    ShowsItself id pmuCycleCount 0x11 [] 0 0 .all twoTools ∧
      (after id twoTools).shared.stdout 0 = ["CPU cycles: 2\n".toList] :=
  ⟨tools_measure_themselves id (fun _ => []) twoTools List.mem_cons_self rfl, rfl⟩

end Dreamscape.Userland.SelfMeasuring
