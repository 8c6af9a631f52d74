/-
# Modules.Message -- what a reader gets

A reader goes on with `message_read` where it stopped, with buffers of any sizes, until it
gets 0.  Beside it run writers of the pid file and switches, each of them call by call.

Two things can spoil what it gets: `hello_switch` reads `target_pid` a second time for its
text, and the message may be replaced between two reads.  In a run in which neither
happens, what the reader has got in the end is empty or one whole message
(`message_consistent`).

A thread's part in this is a `Talk`: what it has read so far, which only its own calls
change.
-/
import Dreamscape.Modules.Handlers
import Dreamscape.MonitorV2.Interior
import Dreamscape.Theory.History

namespace Dreamscape.Modules

set_option autoImplicit false

open Theory Kernel MonitorV2

/-! ## Runs -/

/-- An environment in which `copy_to_user` leaves at most what it was given. -/
abbrev Setting := { e : Env // ∀ n, e.uncopied n ≤ n }

/-- Read with the given buffer sizes from `ppos` on, until the end: `true` if it was
reached. -/
def readMessage (m : Module) : List Nat → Int → Code Bool
  | [], _ => return false
  | count :: counts, ppos => do
      let (ret, ppos) ← m.messageRead count ppos
      if ret = 0 then return true else readMessage m counts ppos

structure Reader where
  setting : Setting
  counts : List Nat
  positive : ∀ count ∈ counts, 0 < count

inductive Deed where
  | write (setting : Setting)
  | switch (setting : Setting)
  | step (t : Tid)

def concluding (p : Code Int) : Code Bool := do
  let _ ← p
  return true

def Deed.action (m : Module) : Deed → Pool.Action sig Setting Empty Bool
  | .write e => .spawn ⟨e, concluding (m.pidWrite e.val.userBuf.length)⟩
  | .switch e => .spawn ⟨e, concluding m.helloSwitch⟩
  | .step t => .step t

/-! ## History -/

/-- What a thread has read of the pids and of the message. -/
inductive Talk where
  | silent
  /-- `hello_switch` has read the pid of the task switched in. -/
  | saw (pid : Nat)
  /-- It has found `target_pid` to be the same. -/
  | matched (pid : Nat)
  /-- It has read `target_pid` for its text. -/
  | holds (n : Int)
  /-- A reader has got a text, and last looked at a message. -/
  | reading (got text : List Char)

/-- "hello world n\n", as far as it fits. -/
def messageFor (n : Int) : List Char :=
  ("hello world ".toList ++ formatInt n ++ ['\n']).take 511

def talking : Protocol sig Talk where
  allowed o r :=
    match o with
    | .setTargetPid pid => IsInt pid
    | .setMessage text => ∃ n, r = .holds n ∧ text = messageFor n
    | .message | .copyToUser _ => ∃ got text, r = .reading got text
    | _ => True
  possible o a r :=
    match o, a, r with
    | .message, message, .reading got _ => got <+: message
    | .copyToUser text, left, .reading .. => left ≤ text.length
    | _, _, _ => True
  next o a r :=
    match o, a, r with
    | .currentPid, pid, .silent => .saw pid
    | .targetPid, n, .saw pid => if n = pid then .matched pid else .silent
    | .targetPid, n, .matched _ => .holds n
    | .message, message, .reading got _ => .reading got message
    | .copyToUser text, left, .reading got message =>
        .reading (got ++ text.take (text.length - left)) message
    | _, _, r => r

/-- What each thread has read, and the pids of the tasks that were switched in while
`target_pid` was the same. -/
structure History where
  talk : Tid → Talk
  monitored : List Int

def note (t : Tid) (_ : Setting) (o : Op) (a : o.Ans) (_ : State) (x : History) : History where
  talk := Function.update x.talk t (talking.next o a (x.talk t))
  monitored :=
    match o, a, x.talk t with
    | .targetPid, n, .saw pid => if n = pid then n :: x.monitored else x.monitored
    | _, _, _ => x.monitored

abbrev Remembered := State × History

/-- What the reader has got so far. -/
def History.received (x : History) : List Char :=
  match x.talk 0 with
  | .reading got _ => got
  | _ => []

def talkKernel : Tid → Setting → Handler sig Fault Remembered :=
  recorded (fun t e => kernel t e.val) note

def nothingElse (w : Empty) : Remembered → Remembered := nomatch w

/-- The loaded module with its reader, which is thread 0. -/
def Reader.loaded (m : Module) (r : Reader) : Pool sig Setting Remembered Bool where
  shared := (.initial, ⟨fun t => if t = 0 then .reading [] [] else .silent, []⟩)
  threads := [⟨r.setting, readMessage m r.counts 0⟩]

def Reader.after (m : Module) (r : Reader) (deeds : List Deed) : Pool sig Setting Remembered Bool :=
  Pool.run talkKernel nothingElse (r.loaded m) (deeds.map (Deed.action m))

/-! ## What is to be proved -/

/-- The reader has got nothing, or the message for one task that was switched in while it
was the target. -/
def Consistent (x : History) : Prop :=
  x.received = [] ∨ ∃ n ∈ x.monitored, x.received = "hello world ".toList ++ formatInt n ++ ['\n']

/-- `hello_switch` finds its target again when it reads it for the text, and a reader finds
a message that goes on from what it has got. -/
def Unspoilt (t : Tid) (_ : Setting) (o : Op) (a : o.Ans) (c : Remembered) : Prop :=
  match o, a, c.2.talk t with
  | .targetPid, n, .matched pid => n = pid
  | .message, message, .reading got _ => got <+: message
  | _, _, _ => True

instance (t : Tid) (e : Setting) (o : Op) (a : o.Ans) (c : Remembered) :
    Decidable (Unspoilt t e o a c) := by
  unfold Unspoilt
  split <;> infer_instance

/-- Every call of the run is unspoilt. -/
def Reader.Unspoilt (m : Module) (r : Reader) (deeds : List Deed) : Prop :=
  Pool.Admitted talkKernel nothingElse Modules.Unspoilt (r.loaded m) (deeds.map (Deed.action m))

/-! ## What the code says and hears -/

/-- A thread that is no reader. -/
def Talk.NoReader (r : Talk) : Prop := ∀ got text, r ≠ .reading got text

theorem silent_noReader : Talk.silent.NoReader := fun _ _ => Talk.noConfusion

theorem starts_talk (o : Op) (starts : o.Starts) :
    talking.allowed o .silent ∧ ∀ a, talking.next o a .silent = .silent := by
  cases o <;> first | exact starts.elim | exact ⟨trivial, fun a => rfl⟩

theorem pidWrite_talks (m : Module) (count : Nat) :
    (m.pidWrite count).Follows talking (fun r _ => r.NoReader) .silent := by
  rw [m.pidWrite_eq]
  refine storePid_follows count (fun _ => silent_noReader) ⟨trivial, fun _ => rfl⟩ ?_
  intro pid stored
  refine ⟨stored, ?_⟩
  cases m with
  | cacheKprobeMonitorV2 =>
      refine ⟨trivial, fun target _ => ?_⟩
      exact (startMonitoring_starts eventCodes target).follows starts_talk fun _ _ => silent_noReader
  | testModule => exact fun _ => silent_noReader

theorem helloSwitch_talks :
    MonitorV2.helloSwitch.Follows talking (fun r _ => r.NoReader) .silent := by
  simp only [MonitorV2.helloSwitch, currentPid, getTargetPid, call, Prog.call_bind, Prog.ret_bind,
    Prog.follows_call]
  refine ⟨trivial, fun pid _ => ⟨trivial, ?_⟩⟩
  intro target _
  by_cases same : target = (pid : Int)
  · subst same
    rw [if_pos rfl]
    refine ⟨trivial, fun _ _ => ⟨trivial, ?_⟩⟩
    intro n _
    have held : talking.next .targetPid n (talking.next .targetPid (pid : Int) (.saw pid)) =
        .holds n := by
      show talking.next .targetPid n (if (pid : Int) = pid then .matched pid else .silent) = _
      rw [if_pos rfl]
      rfl
    show (do setMessage (messageFor n); spinUnlock; return 0 : Code Int).Follows talking _
      (talking.next .targetPid n (talking.next .targetPid (pid : Int) (.saw pid)))
    rw [held]
    exact ⟨⟨n, rfl, rfl⟩, fun _ _ => ⟨trivial, fun _ _ _ _ => Talk.noConfusion⟩⟩
  · rw [if_neg (Ne.symm same)]
    show (if target = (pid : Int) then Talk.matched pid else .silent).NoReader
    rw [if_neg same]
    exact silent_noReader

/-- A reader that has reached the end has got what it last looked at. -/
def Finished (r : Talk) (ended : Bool) : Prop :=
  ∀ got text, r = .reading got text → ended = true → got = text

/-- Where a read leaves the reader: `*ppos` is behind what it has got, and the answer is 0
only at the end. -/
def Answered (r : Talk) (answer : Int × Int) : Prop :=
  ∃ got text, r = .reading got text ∧ answer.2 = (got.length : Int) ∧ (answer.1 = 0 → got = text)

theorem messageRead_talks {count : Nat} (positive : 0 < count) (got text : List Char) :
    (MonitorV2.messageRead count got.length).Follows talking Answered (.reading got text) := by
  simp only [MonitorV2.messageRead, spinLock, getMessage, call, Prog.call_bind, Prog.ret_bind,
    Prog.follows_call]
  refine ⟨trivial, fun _ _ => ⟨⟨got, text, rfl⟩, ?_⟩⟩
  intro message begins
  replace begins : got <+: message := begins
  have unlocks : ∀ {r : Talk} {len : Int × Int}, Answered r len →
      (do spinUnlock; return len : Code (Int × Int)).Follows talking Answered r :=
    fun answered => ⟨trivial, fun _ _ => answered⟩
  show (simpleReadFromBuffer count got.length message >>= _).Follows talking _ (.reading got message)
  rw [Prog.follows_bind]
  unfold simpleReadFromBuffer
  rw [if_neg (by simp)]
  by_cases finished : (message.length : Int) ≤ got.length ∨ count = 0
  · rw [if_pos finished]
    apply unlocks
    refine ⟨got, message, rfl, rfl, fun _ => ?_⟩
    have whole : message.length ≤ got.length := by omega
    exact begins.eq_of_length_le whole
  · rw [if_neg finished]
    simp only [copyToUser, call, Prog.call_bind, Prog.ret_bind, Prog.follows_call]
    refine ⟨⟨got, message, rfl⟩, ?_⟩
    intro (left : Nat) bounded
    generalize (message.drop (got.length : Int).toNat).take count = chunk at bounded ⊢
    replace bounded : left ≤ chunk.length := bounded
    show ((if left = chunk.length then _ else _ : Code (Int × Int))).Follows talking _
      (.reading (got ++ chunk.take (chunk.length - left)) message)
    split
    · rename_i faulted
      apply unlocks
      refine ⟨got, message, by simp [faulted], rfl, fun zero => ?_⟩
      exact absurd (show Errno.EFAULT.code = 0 from zero) (by decide)
    · rename_i copied
      apply unlocks
      refine ⟨got ++ chunk.take (chunk.length - left), message, rfl, ?_, fun zero => ?_⟩
      · rw [List.length_append, List.length_take]
        omega
      · replace zero : (chunk.length : Int) - left = 0 := zero
        omega

theorem readMessage_talks (m : Module) {counts : List Nat} (positive : ∀ count ∈ counts, 0 < count)
    (got text : List Char) :
    (readMessage m counts got.length).Follows talking Finished (.reading got text) := by
  induction counts generalizing got text with
  | nil => exact fun _ _ _ ended => Bool.noConfusion ended
  | cons count counts ih =>
      rw [readMessage, m.messageRead_eq, Prog.follows_bind]
      apply (messageRead_talks (positive count List.mem_cons_self) got text).mono
      rintro r ⟨ret, ppos⟩ ⟨got', text', rfl, place, last⟩
      obtain rfl : ppos = got'.length := place
      show (if ret = 0 then _ else _ : Code Bool).Follows talking Finished _
      split
      · rename_i zero
        rintro got'' text'' same -
        cases same
        exact last zero
      · exact ih (fun c later => positive c (List.mem_cons_of_mem count later)) got' text'

/-! ## The kernel -/

/-- The call changes neither `target_pid` nor the message. -/
def Op.Wordless : Op → Prop
  | .setTargetPid _ | .setMessage _ => False
  | _ => True

structure SameWords (s s' : State) : Prop where
  targetPid : s'.holdings.targetPid = s.holdings.targetPid
  message : s'.messageBuffer = s.messageBuffer

theorem kernel_wordless {t : Tid} {e : Env} {o : Op} (wordless : Op.Wordless o) (s : State) :
    SameWords s (kernel t e o s).state := by
  have stay : SameWords s s := ⟨rfl, rfl⟩
  cases o with
  | setTargetPid pid => exact wordless.elim
  | setMessage text => exact wordless.elim
  | getTaskStruct task => exact onTask_state stay task fun _ => ⟨rfl, rfl⟩
  | putTaskStruct task =>
      refine onTask_state stay task fun _ => ?_
      split <;> exact ⟨rfl, rfl⟩
  | pidAlive task => exact onTask_state stay task fun _ => stay
  | taskPc task => exact onTask_state stay task fun _ => stay
  | kfree p =>
      simp only [kernel]
      exact onBuffer_state stay (some p) fun _ _ => ⟨rfl, rfl⟩
  | loadEvent p i => exact onBuffer_state stay p fun _ _ => stay
  | storeEvent p i ev => exact onBuffer_state stay p fun _ _ => ⟨rfl, rfl⟩
  | loadPrev p i => exact onBuffer_state stay p fun _ _ => stay
  | storePrev p i v => exact onBuffer_state stay p fun _ _ => ⟨rfl, rfl⟩
  | perfEventReleaseKernel ev => exact onEvent_state stay ev fun _ => ⟨rfl, rfl⟩
  | perfEventReadValue ev => exact onEvent_state stay ev fun _ => stay
  | kzalloc | perfEventCreateKernelCounter _ _ _ | hrtimerStart _ | drain _ | spinLock
  | timerExpires | callbackReturns _ | enter _ | leave _ =>
      simp only [kernel]
      split <;> exact ⟨rfl, rfl⟩
  | hrtimerCancel =>
      simp only [kernel]
      split
      · split <;> exact ⟨rfl, rfl⟩
      · exact stay
  | _ => exact ⟨rfl, rfl⟩

/-! ## What holds in an unspoilt run -/

/-- Nothing has been said, or the pid of a monitored task. -/
def Said (x : History) (text : List Char) : Prop :=
  text = [] ∨ ∃ n ∈ x.monitored, text = messageFor n

/-- What a thread is to say or has heard is about monitored tasks. -/
def Talk.Sane (x : History) : Talk → Prop
  | .silent | .saw _ => True
  | .matched pid => (pid : Int) ∈ x.monitored
  | .holds n => n ∈ x.monitored
  | .reading _ text => Said x text

structure Sound (c : Remembered) : Prop where
  target : IsInt c.1.holdings.targetPid
  known : ∀ n ∈ c.2.monitored, IsInt n
  message : Said c.2 c.1.messageBuffer
  sane : ∀ t, (c.2.talk t).Sane c.2

section Step

variable {x x' : History}

theorem Said.mono (grows : x.monitored ⊆ x'.monitored) {text : List Char} (said : Said x text) :
    Said x' text := by
  rcases said with empty | ⟨n, monitored, same⟩
  · exact Or.inl empty
  · exact Or.inr ⟨n, grows monitored, same⟩

theorem Talk.Sane.mono (grows : x.monitored ⊆ x'.monitored) {r : Talk} (sane : r.Sane x) :
    r.Sane x' := by
  cases r with
  | silent | saw _ => trivial
  | matched pid | holds n => exact grows sane
  | reading got text => exact Said.mono grows sane

variable {t : Tid} {e : Setting} {o : Op} {a : o.Ans} {s s' : State}

theorem note_grows : x.monitored ⊆ (note t e o a s x).monitored := by
  unfold note
  dsimp only
  split
  · split
    · exact List.subset_cons_self _ _
    · exact List.Subset.refl _
  · exact List.Subset.refl _

/-- Only the present `target_pid` becomes monitored. -/
theorem note_new (answered : kernel t e.val o s = .done a s') :
    ∀ n ∈ (note t e o a s x).monitored, n ∈ x.monitored ∨ n = s.holdings.targetPid := by
  unfold note
  dsimp only
  split
  · cases answered
    split
    · intro n monitored
      exact (List.mem_cons.mp monitored).symm
    · exact fun n monitored => Or.inl monitored
  · exact fun n monitored => Or.inl monitored

/-- The answer to an unspoilt call keeps what the thread says and hears sane. -/
theorem next_sane (sound : Sound (s, x)) (unspoilt : Unspoilt t e o a (s, x))
    (answered : kernel t e.val o s = .done a s') :
    (talking.next o a (x.talk t)).Sane (note t e o a s x) := by
  have sane := sound.sane t
  have kept := sane.mono (note_grows (t := t) (e := e) (o := o) (a := a) (s := s))
  cases o with
  | currentPid =>
      cases heard : x.talk t with
      | silent => trivial
      | saw _ | matched _ | holds _ | reading _ _ =>
          rw [heard] at kept
          exact kept
  | targetPid =>
      cases heard : x.talk t with
      | saw pid =>
          show Talk.Sane _ (if a = (pid : Int) then .matched pid else .silent)
          split
          · rename_i same
            show (pid : Int) ∈ (note t e .targetPid a s x).monitored
            simp only [note, heard, ← same]
            exact List.mem_cons_self
          · trivial
      | matched pid =>
          have again : a = (pid : Int) := by simpa only [Unspoilt, heard] using unspoilt
          rw [heard] at kept
          rw [again]
          rw [again] at kept
          exact kept
      | silent | holds _ | reading _ _ =>
          rw [heard] at kept
          exact kept
  | message =>
      cases heard : x.talk t with
      | reading got text =>
          cases answered
          exact Said.mono note_grows sound.message
      | silent | saw _ | matched _ | holds _ =>
          rw [heard] at kept
          exact kept
  | copyToUser text =>
      cases heard : x.talk t with
      | reading got read =>
          rw [heard] at kept
          exact kept
      | silent | saw _ | matched _ | holds _ =>
          rw [heard] at kept
          exact kept
  | _ => exact kept

/-- The kernel keeps to what threads rely on. -/
theorem kernel_talks {c c' : Remembered} (sound : Sound c) (allowed : talking.allowed o (c.2.talk t))
    (admitted : guarded talkKernel Unspoilt t e o c = .done a c') :
    Sound c' ∧ talking.possible o a (c.2.talk t) ∧
      c'.2.talk t = talking.next o a (c.2.talk t) := by
  obtain ⟨recorded, unspoilt⟩ := guarded_done.mp admitted
  obtain ⟨answered, noted⟩ := recorded_done.mp recorded
  obtain ⟨s, x⟩ := c
  obtain ⟨s', x'⟩ := c'
  simp only at answered noted allowed unspoilt
  clear admitted recorded
  subst noted
  have others : ∀ u, u ≠ t → (note t e o a s x).talk u = x.talk u := fun u other =>
    Function.update_of_ne other ..
  have own : (note t e o a s x).talk t = talking.next o a (x.talk t) := Function.update_self ..
  have grows : x.monitored ⊆ (note t e o a s x).monitored := note_grows
  refine ⟨⟨?_, ?_, ?_, ?_⟩, ?_, own⟩
  · by_cases wordless : Op.Wordless o
    · have same := (kernel_wordless (t := t) (e := e.val) wordless s).targetPid
      rw [answered] at same
      show IsInt s'.holdings.targetPid
      rw [show s'.holdings.targetPid = s.holdings.targetPid from same]
      exact sound.target
    · cases o <;> first | exact absurd trivial wordless | cases answered
      · exact allowed
      · exact sound.target
  · intro n monitored
    rcases note_new answered n monitored with before | rfl
    · exact sound.known n before
    · exact sound.target
  · by_cases wordless : Op.Wordless o
    · have same := (kernel_wordless (t := t) (e := e.val) wordless s).message
      rw [answered] at same
      show Said _ s'.messageBuffer
      rw [show s'.messageBuffer = s.messageBuffer from same]
      exact sound.message.mono grows
    · cases o <;> first | exact absurd trivial wordless | cases answered
      · exact sound.message.mono grows
      · obtain ⟨n, holds, rfl⟩ := allowed
        have sane := sound.sane t
        rw [holds] at sane
        exact Or.inr ⟨n, grows sane, rfl⟩
  · intro u
    by_cases same : u = t
    · subst same
      rw [own]
      exact next_sane sound unspoilt answered
    · rw [others u same]
      exact (sound.sane u).mono grows
  · cases o with
    | message =>
        cases heard : x.talk t with
        | reading got text =>
            have goesOn : got <+: a := by simpa only [Unspoilt, heard] using unspoilt
            exact goesOn
        | silent | saw _ | matched _ | holds _ => trivial
    | copyToUser text =>
        cases heard : x.talk t with
        | reading got read =>
            cases answered
            exact e.property text.length
        | silent | saw _ | matched _ | holds _ => trivial
    | _ => trivial

end Step

/-- In an unspoilt run every thread says and hears what it should. -/
theorem unspoilt_relies {m : Module} {r : Reader} {deeds : List Deed} (unspoilt : r.Unspoilt m deeds) :
    (r.after m deeds).Relies talking (fun talk ended => Finished talk ended) Sound
      (fun c t talk => c.2.talk t = talk) .silent := by
  rw [Reader.after, ← Pool.run_guarded unspoilt]
  refine Pool.run_relies ?_ ?_ (fun w => w.elim) ?_ ⟨?_, ?_, ?_⟩
  · rintro t e o c a c' talk sound rfl allowed admitted
    exact kernel_talks sound allowed admitted
  · rintro t u e o c a c' talk q other - - admitted rfl
    obtain ⟨-, noted⟩ := recorded_done.mp (guarded_done.mp admitted).1
    rw [noted]
    exact Function.update_of_ne other ..
  · intro thread started
    obtain ⟨deed, -, same⟩ := List.mem_map.mp started
    have ended : ∀ {talk : Talk}, talk.NoReader → ∀ b, Finished talk b := by
      intro talk noReader b got text reading
      exact absurd reading (noReader got text)
    cases deed with
    | write e =>
        cases same
        rw [concluding, Prog.follows_bind]
        exact (pidWrite_talks m _).mono fun talk _ noReader => ended noReader true
    | switch e =>
        cases same
        rw [concluding, Prog.follows_bind, m.helloSwitch_eq]
        exact helloSwitch_talks.mono fun talk _ noReader => ended noReader true
    | step t => cases same
  · have unset : IsInt (-1) := ⟨by decide, by decide⟩
    refine ⟨unset, fun n monitored => absurd monitored List.not_mem_nil, Or.inl rfl, fun t => ?_⟩
    show Talk.Sane _ (if t = 0 then .reading [] [] else .silent)
    split
    · exact Or.inl rfl
    · trivial
  · intro t thread found
    cases t with
    | zero =>
        cases found
        exact ⟨.reading [] [], rfl, readMessage_talks m r.positive [] []⟩
    | succ t => cases found
  · intro t beyond
    exact if_neg (Nat.pos_iff_ne_zero.mp beyond)

/-- The message for a pid fits the buffer. -/
theorem messageFor_whole {n : Int} (small : IsInt n) :
    messageFor n = "hello world ".toList ++ formatInt n ++ ['\n'] := by
  obtain ⟨low, high⟩ := small
  have digits : ∀ k : Nat, k < 10 ^ 10 → (Nat.toDigits 10 k).length ≤ 10 := fun k bound =>
    (Nat.length_toDigits_le_iff (by decide) (by decide)).mpr bound
  have short : (formatInt n).length ≤ 11 := by
    cases n with
    | ofNat k =>
        rw [Int.ofNat_eq_natCast] at high
        exact Nat.le_succ_of_le (digits k (by omega))
    | negSucc k => exact Nat.succ_le_succ (digits (k + 1) (by omega))
  apply List.take_of_length_le
  rw [List.length_append, List.length_append]
  exact Nat.add_le_add (Nat.add_le_add (by decide : "hello world ".toList.length ≤ 12) short)
    (by decide : ['\n'].length ≤ 1) |>.trans (by decide)

/-- The reader has read to the end. -/
def AtEnd (c : Pool sig Setting Remembered Bool) : Prop := ∃ e, c.threads[0]? = some ⟨e, .ret true⟩

instance (c : Pool sig Setting Remembered Bool) : Decidable (AtEnd c) :=
  match found : (c.threads[0]? : Option (Thread sig Setting Bool)) with
  | some ⟨e, .ret true⟩ => .isTrue ⟨e, found⟩
  | some ⟨_, .ret false⟩ => .isFalse fun ⟨_, same⟩ => nomatch found.symm.trans same
  | some ⟨_, .call _ _⟩ => .isFalse fun ⟨_, same⟩ => nomatch found.symm.trans same
  | none => .isFalse fun ⟨_, same⟩ => nomatch found.symm.trans same

/-- **A reader gets one whole message, or nothing**, in every run in which `hello_switch`
finds its target again and no read finds another message than the one it goes on with. -/
theorem message_consistent (m : Module) (r : Reader) (deeds : List Deed)
    (unspoilt : r.Unspoilt m deeds) (ended : AtEnd (r.after m deeds)) :
    Consistent (r.after m deeds).shared.2 := by
  have relies := unspoilt_relies unspoilt
  obtain ⟨e, found⟩ := ended
  obtain ⟨talk, heard, finished⟩ := relies.follows 0 _ found
  have sane := relies.inv.sane 0
  rw [heard] at sane
  unfold Consistent History.received
  rw [heard]
  cases talk with
  | reading got text =>
      obtain rfl : got = text := finished got text rfl rfl
      rcases sane with empty | ⟨n, monitored, same⟩
      · exact Or.inl empty
      · exact Or.inr ⟨n, monitored, same.trans (messageFor_whole (relies.inv.known n monitored))⟩
  | silent | saw _ | matched _ | holds _ => exact Or.inl rfl

/-- A pid is written for which there is no task. -/
def wrote (text : List Char) : Setting :=
  ⟨{ Env.echo text with findTask := fun _ => none }, fun n => Nat.zero_le n⟩

def switchedTo (pid : Nat) : Setting := ⟨{ Env.quiet with currentPid := pid }, fun n => Nat.zero_le n⟩

/-- Task 5 is monitored and its message read in two pieces. -/
def wholeReader : Reader := ⟨switchedTo 7, [13, 20, 20], by decide⟩

def wholeRead : List Deed :=
  .write (wrote "5\n".toList) :: List.replicate 6 (.step 1) ++
    .switch (switchedTo 5) :: List.replicate 6 (.step 2) ++ List.replicate 11 (.step 0)

theorem wholeRead_consistent :
    Consistent (wholeReader.after .cacheKprobeMonitorV2 wholeRead).shared.2 := by
  apply message_consistent
  · unfold Reader.Unspoilt
    decide +kernel
  · decide +kernel

/-- Between the two pieces task 12 becomes the target, and is switched in. -/
def splicedRead : List Deed :=
  .write (wrote "5\n".toList) :: List.replicate 6 (.step 1) ++
    .switch (switchedTo 5) :: List.replicate 6 (.step 2) ++ List.replicate 4 (.step 0) ++
    .write (wrote "12\n".toList) :: List.replicate 6 (.step 3) ++
    .switch (switchedTo 12) :: List.replicate 6 (.step 4) ++ List.replicate 7 (.step 0)

theorem splicedRead_received (m : Module) :
    (wholeReader.after m splicedRead).shared.2.received = "hello world 52\n".toList ∧
      (wholeReader.after m splicedRead).shared.2.monitored = [12, 5] := by
  cases m <;> decide +kernel

theorem spliced_message_read :
    ¬∀ (m : Module) (r : Reader) (deeds : List Deed), AtEnd (r.after m deeds) →
      Consistent (r.after m deeds).shared.2 := by
  intro consistent
  obtain ⟨received, monitored⟩ := splicedRead_received .cacheKprobeMonitorV2
  have ended : AtEnd (wholeReader.after .cacheKprobeMonitorV2 splicedRead) := by decide +kernel
  rcases consistent .cacheKprobeMonitorV2 wholeReader splicedRead ended with empty | ⟨n, member, same⟩
  · rw [received] at empty
    exact absurd empty (by decide)
  · rw [monitored] at member
    rw [received] at same
    rcases List.mem_cons.mp member with rfl | member
    · exact absurd same (by decide)
    · rw [List.mem_singleton] at member
      subst member
      exact absurd same (by decide)

end Dreamscape.Modules
