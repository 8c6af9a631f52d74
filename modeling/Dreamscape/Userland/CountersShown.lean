/-
# Userland.CountersShown -- what read_pmu_counters can print

Loads, unloads and runs of the tool in any order of their calls.  Nobody runs code of the
module while it is not there.  What a read shows for a field is zero, or the value the exit of
the same load has logged for it: exit logs the four values before it stores the first, and it
ends only when no read is left inside the module.  So what the tool prints is either what its
stack held, when the entry it has open was removed before its read and the read was refused,
or such values (`counters_shown`).
-/
import Dreamscape.Userland.CountersFile

namespace Dreamscape.Userland.CountersFile

set_option autoImplicit false

open Theory Kernel
open Pmu (U64 Field PmuCounters valueLine countersText pmuProcShow pmuModuleInit pmuModuleExit)
open Modules.Load (Phase)

/-! ## History -/

/-- The fields in the order in which they are shown. -/
def fields : List Field :=
  [.l1DataCacheAccess, .l1DataCacheRefill, .l1InstCacheAccess, .l1InstCacheRefill]

/-- What exit logs a field under. -/
def exitLabel : Field → List Char
  | .l1DataCacheAccess => "PMU counter value (L1 data cache access): ".toList
  | .l1DataCacheRefill => "PMU counter value (L1 data cache refill): ".toList
  | .l1InstCacheAccess => "PMU counter value (L1 instruction cache access): ".toList
  | .l1InstCacheRefill => "PMU counter value (L1 instruction cache refill): ".toList

/-- Where a thread stands. -/
inductive Part where
  | outside
  /-- Its open was refused. -/
  | unopened
  /-- It has this entry open, and has not read it. -/
  | opened (entry : Nat)
  /-- Its read of this entry was refused. -/
  | missed (entry : Nat)
  /-- It runs the init, and has not made the entry. -/
  | starting
  | created
  /-- It runs the exit, and has logged these lines. -/
  | exiting (lines : List (List Char))
  | removed
  /-- It is inside with its read, and has read the first fields. -/
  | showing (vals : List U64)
  | shown (vals : List U64)

/-- It runs the init or the exit. -/
def Part.Working : Part → Prop
  | .starting | .created | .exiting _ | .removed => True
  | .outside | .unopened | .opened _ | .missed _ | .showing _ | .shown _ => False

/-- The module's own code. -/
def serving : Protocol Pmu.sig Part where
  allowed o r :=
    match o with
    | .pmuCounter field => ∃ vals, r = .showing vals ∧ fields[vals.length]? = some field
    | .setPmuCounter field v => ∃ lines, r = .exiting lines ∧ valueLine (exitLabel field) v ∈ lines
    | .procCreate => r = .starting
    | .removeProcEntry => ∃ lines, r = .exiting lines
    | _ => r.Working
  possible _ _ _ := True
  next o a r :=
    match o, a, r with
    | .procCreate, true, .starting => .created
    | .printk text, _, .exiting lines => .exiting (text :: lines)
    | .removeProcEntry, _, .exiting _ => .removed
    | .pmuCounter _, v, .showing vals => .showing (vals ++ [v])
    | _, _, r => r

/-- What the answer of the kernel makes of a thread. -/
def fileNext (o : FileOp) (a : o.Ans) (r : Part) : Part :=
  match o, a, r with
  | .beginInit, _, .outside => .starting
  | .beginExit, _, .outside => .exiting []
  | .endInit _, _, _ | .endExit, _, _ => .outside
  | .fopen, none, .outside => .unopened
  | .fopen, some entry, .outside => .opened entry
  | .enter _, true, .opened _ => .showing []
  | .enter _, false, .opened entry => .missed entry
  | .leave, _, .showing vals => .shown vals
  | _, _, r => r

/-- The code around it. -/
def visiting : Protocol sig Part where
  allowed o r :=
    match o with
    | .inl o => serving.allowed o r
    | .inr .beginInit | .inr .beginExit | .inr .fopen => r = .outside
    | .inr (.endInit ret) => r = .created ∧ ret = 0 ∨ r = .starting ∧ ret < 0
    | .inr .endExit => r = .removed
    | .inr (.enter entry) => r = .opened entry
    | .inr .leave => ∃ vals, r = .showing vals
  possible _ _ _ := True
  next o a r :=
    match o, a with
    | .inl o, a => serving.next o a r
    | .inr o, a => fileNext o a r

/-- Where each thread stands, how many loads have begun, what exits have logged and in which
load, the load in which each read went in, and the entries that were removed. -/
structure History where
  part : Nat → Part
  load : Nat
  logged : List (Nat × List Char)
  entered : Nat → Nat
  removed : List Nat

variable {n : Nat}

def note (t : Nat) (_ : Setting) (o : sig.Op) (a : sig.Ans o) (b : Board n) (x : History) : History where
  part := Function.update x.part t (visiting.next o a (x.part t))
  load :=
    match o with
    | .inr .beginInit => x.load + 1
    | _ => x.load
  logged :=
    match o, x.part t with
    | .inl (.printk text), .exiting _ => (x.load, text) :: x.logged
    | _, _ => x.logged
  entered :=
    match o with
    | .inr (.enter _) => Function.update x.entered t x.load
    | _ => x.entered
  removed :=
    match o with
    | .inl .removeProcEntry => b.latest :: x.removed
    | _ => x.removed

abbrev Remembered (n : Nat) := Board n × History

def History.blank : History := ⟨fun _ => .outside, 0, [], fun _ => 0, []⟩

def outside (hw : Pmuv3) (w : World n) (c : Remembered n) : Remembered n := (c.1.act hw w, c.2)

def after (hw : Pmuv3) (banks : Fin n → Bank) (place : Nat → Fin n) (doings : List (Doing n)) :
    Pool sig Setting (Remembered n) Result :=
  Pool.run (recorded (kernel hw) note) (outside hw) ⟨(.booted banks place, .blank), []⟩
    (doings.map Doing.action)

/-! ## What is to be proved -/

/-- Zero, or what the exit of the load has logged for the field. -/
def History.Shows (x : History) (load : Nat) (field : Field) (v : U64) : Prop :=
  v = 0 ∨ (load, valueLine (exitLabel field) v) ∈ x.logged

/-- What the tool prints. -/
def twoLines (access refill : U64) : List Char :=
  valueLine "L1 data cache access: ".toList access ++ valueLine "L1 data cache refill: ".toList refill

/-- What holds of every run. -/
structure Shown (hw : Pmuv3) (c : Pool sig Setting (Remembered n) Result) : Prop where
  /-- Nobody's next call is in a module that is not there. -/
  mapped : ∀ t e o k b, c.threads[t]? = some ⟨e, .call o k⟩ →
    kernel hw t e o c.shared.1 ≠ .fault .unmapped b
  /-- Without the module there is no entry, and nobody is inside. -/
  absent : absent c.shared.1.phase = true → c.shared.1.machine.procEntry = false ∧ c.shared.1.inside = []
  /-- The tool has not got the file, or has been refused its read of an entry that was removed,
  or has read four values and prints two of them. -/
  tool : ∀ t e' e ended, c.threads[t]? = some ⟨e', .ret (.tool e ended)⟩ →
    (c.shared.2.part t = .unopened ∧
      ended = ⟨1, [], "Error opening /proc/pmu_counters: ".toList ++ e.strerror ++ ['\n']⟩) ∨
    (∃ entry ∈ c.shared.2.removed, c.shared.2.part t = .missed entry ∧
      ended = ⟨0, twoLines e.access e.refill, []⟩) ∨
    ∃ vals : PmuCounters, c.shared.2.part t = .shown (fields.map vals) ∧
      ended = ⟨0, twoLines (vals .l1DataCacheAccess) (vals .l1DataCacheRefill), []⟩ ∧
      ∀ field, c.shared.2.Shows (c.shared.2.entered t) field (vals field)

/-! ## What the programs do -/

/-- Writes and reads of registers. -/
def Plain : Pmu.Op → Prop
  | .msr .. | .mrsPmcr | .mrsPmxevcntr => True
  | _ => False

theorem configure_serves {Q : Part → Int → Prop} {rest : Pmu.Code Int} (counterIndex eventCode : BitVec 32)
    (onward : rest.Follows serving Q .starting) :
    (Pmu.configureEventCounter counterIndex eventCode >>= fun _ => rest).Follows serving Q .starting := by
  have only : (Pmu.configureEventCounter counterIndex eventCode).Only Plain := by
    simp [Pmu.configureEventCounter, Plain]
  rw [Prog.follows_bind]
  refine (only.follows (Q := fun r _ => r = .starting) (fun o plain => ?_) fun _ => rfl).mono ?_
  · cases o <;> first | exact plain.elim | exact ⟨trivial, fun _ => rfl⟩
  · rintro r _ rfl
    exact onward

theorem pmuModuleInit_serves :
    pmuModuleInit.Follows serving (fun r ret => r = .created ∧ ret = 0 ∨ r = .starting ∧ ret < 0)
      .starting := by
  refine ⟨trivial, fun _ _ => ⟨trivial, fun _ _ => ⟨trivial, fun val _ => ⟨trivial, fun _ _ => ?_⟩⟩⟩⟩
  refine configure_serves _ _ (configure_serves _ _ (configure_serves _ _ (configure_serves _ _ ?_)))
  refine ⟨rfl, fun (created : Bool) _ => ?_⟩
  cases created with
  | false => exact Or.inr ⟨rfl, by decide⟩
  | true => exact ⟨trivial, fun _ _ => Or.inl ⟨rfl, rfl⟩⟩

theorem pmuModuleExit_serves :
    pmuModuleExit.Follows serving (fun r _ => r = .removed) (.exiting []) := by
  refine ⟨trivial, fun _ _ => ⟨trivial, fun daccess _ => ?_⟩⟩
  refine ⟨trivial, fun _ _ => ⟨trivial, fun drefill _ => ?_⟩⟩
  refine ⟨trivial, fun _ _ => ⟨trivial, fun iaccess _ => ?_⟩⟩
  refine ⟨trivial, fun _ _ => ⟨trivial, fun irefill _ => ?_⟩⟩
  -- the lines
  refine ⟨trivial, fun _ _ => ⟨trivial, fun _ _ => ⟨trivial, fun _ _ => ⟨trivial, fun _ _ => ?_⟩⟩⟩⟩
  refine ⟨trivial, fun _ _ => ⟨trivial, fun _ _ => ?_⟩⟩
  -- the stores
  let lines : List (List Char) :=
    [valueLine (exitLabel .l1InstCacheRefill) irefill, valueLine (exitLabel .l1InstCacheAccess) iaccess,
      valueLine (exitLabel .l1DataCacheRefill) drefill, valueLine (exitLabel .l1DataCacheAccess) daccess]
  refine ⟨⟨lines, rfl, by simp [lines]⟩, fun _ _ => ⟨⟨lines, rfl, by simp [lines]⟩, fun _ _ => ?_⟩⟩
  refine ⟨⟨lines, rfl, by simp [lines]⟩, fun _ _ => ⟨⟨lines, rfl, by simp [lines]⟩, fun _ _ => ?_⟩⟩
  exact ⟨⟨lines, rfl⟩, fun _ _ => ⟨trivial, fun _ _ => rfl⟩⟩

theorem pmuProcShow_serves :
    (pmuProcShow []).Follows serving (fun r text => ∃ c : PmuCounters,
      r = .showing (fields.map c) ∧ text = countersText c) (.showing []) := by
  refine ⟨⟨[], rfl, rfl⟩, fun daccess _ => ⟨⟨[daccess], rfl, rfl⟩, fun drefill _ => ?_⟩⟩
  refine ⟨⟨[daccess, drefill], rfl, rfl⟩, fun iaccess _ => ?_⟩
  refine ⟨⟨[daccess, drefill, iaccess], rfl, rfl⟩, fun irefill _ => ?_⟩
  refine ⟨fun
    | .l1DataCacheAccess => daccess
    | .l1DataCacheRefill => drefill
    | .l1InstCacheAccess => iaccess
    | .l1InstCacheRefill => irefill, rfl, ?_⟩
  simp [countersText]

/-- The module's code does around the kernel what it does by itself. -/
theorem inl_visits {α : Type} {Q : Part → α → Prop} {p : Pmu.Code α} {r : Part}
    (serves : p.Follows serving Q r) : (p.inl : Code α).Follows visiting Q r := by
  refine serves.inl (fun r r' => r = r') ?_ ?_ ?_ rfl
  · rintro o r _ rfl allowed
    exact allowed
  · rintro o a r _ rfl - -
    exact ⟨trivial, rfl⟩
  · rintro r _ a rfl ends
    exact ends

/-- The three ways in which a run of the tool ends. -/
def Ends (r : Part) : Result → Prop
  | .done => True
  | .tool e ended =>
      (r = .unopened ∧ ended = readPmuCounters (.error e.strerror) e.access e.refill) ∨
      (∃ entry, r = .missed entry ∧ ended = readPmuCounters (.ok []) e.access e.refill) ∨
      ∃ c : PmuCounters, r = .shown (fields.map c) ∧
        ended = readPmuCounters (.ok (countersText c)) e.access e.refill

theorem load_visits : load.Follows visiting Ends .outside := by
  refine ⟨rfl, fun _ _ => ?_⟩
  show (pmuModuleInit.inl >>= _ : Code Result).Follows visiting Ends .starting
  rw [Prog.follows_bind]
  exact (inl_visits pmuModuleInit_serves).mono fun r ret ended => ⟨ended, fun _ _ => trivial⟩

theorem unload_visits : unload.Follows visiting Ends .outside := by
  refine ⟨rfl, fun _ _ => ?_⟩
  show (pmuModuleExit.inl >>= _ : Code Result).Follows visiting Ends (.exiting [])
  rw [Prog.follows_bind]
  exact (inl_visits pmuModuleExit_serves).mono fun r _ removed => ⟨removed, fun _ _ => trivial⟩

theorem main_visits (e : Setting) : (main e).Follows visiting Ends .outside := by
  refine ⟨rfl, fun (found : Option Nat) _ => ?_⟩
  cases found with
  | none => exact Or.inl ⟨rfl, rfl⟩
  | some entry =>
      refine ⟨rfl, fun (entered : Bool) _ => ?_⟩
      cases entered with
      | false => exact Or.inr (Or.inl ⟨entry, rfl, rfl⟩)
      | true =>
          show (((pmuProcShow []).inl >>= fun text => do
            leave
            return .ok text : Code (Except (List Char) (List Char))) >>= _).Follows visiting Ends
              (.showing [])
          rw [Prog.follows_bind, Prog.follows_bind]
          refine (inl_visits pmuProcShow_serves).mono ?_
          rintro r text ⟨c, rfl, rfl⟩
          exact ⟨⟨_, rfl⟩, fun _ _ => Or.inr (Or.inr ⟨c, rfl, rfl⟩)⟩

/-! ## What holds in every run -/

/-- What a read has seen so far. -/
def History.Honest (x : History) (load : Nat) (vals : List U64) : Prop :=
  ∀ (i : Nat) (field : Field) (v : U64), fields[i]? = some field → vals[i]? = some v → x.Shows load field v

/-- The board as the part of a thread describes it. -/
def Part.Fits (b : Board n) (x : History) (t : Nat) : Part → Prop
  | .outside | .unopened => True
  | .opened entry => entry ∈ x.removed ∨ entry = b.latest ∧ b.machine.procEntry = true
  | .missed entry => entry ∈ x.removed
  | .starting => b.phase = .loading t ∧ b.machine.procEntry = false
  | .created => b.phase = .loading t
  | .exiting lines => b.phase = .unloading t ∧ ∀ line ∈ lines, (x.load, line) ∈ x.logged
  | .removed => b.phase = .unloading t ∧ b.machine.procEntry = false
  | .showing vals => t ∈ b.inside ∧ x.entered t = x.load ∧ x.Honest (x.entered t) vals
  | .shown vals => x.Honest (x.entered t) vals

structure Sound (b : Board n) (x : History) : Prop where
  fits : ∀ t, (x.part t).Fits b x t
  entry : CountersFile.absent b.phase = true → b.machine.procEntry = false
  inside : b.machine.procEntry = false → b.inside = []
  values : ∀ field, x.Shows x.load field (b.machine.pmuCounters field)

section Answers

variable {hw : Pmuv3} {t u : Nat} {e : Setting} {b b' : Board n} {x : History}

theorem moduleCall_done {o : Pmu.Op} {a : o.Ans} (answered : moduleCall hw t e o b = .done a b') :
    CountersFile.absent b.phase = false ∧
      Pmu.kernel hw (b.place t) e.created o b.machine = .done a b'.machine ∧
      b'.phase = b.phase ∧ b'.inside = b.inside := by
  unfold moduleCall at answered
  split at answered
  · cases answered
  · rename_i mapped
    refine ⟨by simpa using mapped, ?_⟩
    cases inner : Pmu.kernel hw (b.place t) e.created o b.machine with
    | done a' m =>
        rw [inner] at answered
        cases answered
        exact ⟨rfl, rfl, rfl⟩
    | blocked m =>
        rw [inner] at answered
        cases answered
    | fault f m => exact f.elim

theorem moduleCall_latest {o : Pmu.Op} {a : o.Ans} (answered : moduleCall hw t e o b = .done a b') :
    b'.latest = b.latest := by
  unfold moduleCall at answered
  split at answered
  · cases answered
  · cases inner : Pmu.kernel hw (b.place t) e.created o b.machine with
    | done a' m =>
        rw [inner] at answered
        cases answered
        rfl
    | blocked m =>
        rw [inner] at answered
        cases answered
    | fault f m => exact f.elim

/-- A call of the module's code finds the module there, and changes only its machine. -/
theorem kernel_module {o : Pmu.Op} {a : o.Ans} (answered : kernel hw t e (.inl o) b = .done a b') :
    CountersFile.absent b.phase = false ∧
      Pmu.kernel hw (b.place t) e.created o b.machine = .done a b'.machine ∧
      b'.phase = b.phase ∧ b'.inside = b.inside := by
  cases o with
  | removeProcEntry =>
      simp only [kernel] at answered
      by_cases empty : b.inside = []
      · rw [if_pos empty] at answered
        exact moduleCall_done answered
      · rw [if_neg empty] at answered
        cases answered
  | procCreate => exact moduleCall_done (b := { b with latest := b.latest + 1 }) answered
  | _ => exact moduleCall_done answered

/-- The entry is removed when nobody is inside. -/
theorem remove_inside {a : Unit} (answered : kernel hw t e (.inl .removeProcEntry) b = .done a b') :
    b.inside = [] := by
  by_contra nonempty
  simp only [kernel] at answered
  rw [if_neg nonempty] at answered
  cases answered

/-- The calls that make or remove the entry. -/
def entryAfter (created : Bool) : Pmu.Op → Bool → Bool
  | .procCreate, entry => entry || created
  | .removeProcEntry, _ => false
  | _, entry => entry

/-- The call that changes the counters. -/
def countersAfter : Pmu.Op → PmuCounters → PmuCounters
  | .setPmuCounter field v, counters => Function.update counters field v
  | _, counters => counters

section Machine

variable {cpu : Fin n} {created : Bool} {m m' : Pmu.Machine n}

theorem machine_entry {o : Pmu.Op} {a : o.Ans} (answered : Pmu.kernel hw cpu created o m = .done a m') :
    m'.procEntry = entryAfter created o m.procEntry := by
  cases o <;> cases answered <;> rfl

theorem machine_counters {o : Pmu.Op} {a : o.Ans} (answered : Pmu.kernel hw cpu created o m = .done a m') :
    m'.pmuCounters = countersAfter o m.pmuCounters := by
  cases o <;> cases answered <;> rfl

theorem pmuCounter_read {field : Field} {v : U64}
    (answered : Pmu.kernel hw cpu created (.pmuCounter field) m = .done v m') : v = m.pmuCounters field := by
  cases answered
  rfl

theorem procCreate_made {made : Bool}
    (answered : Pmu.kernel hw cpu created .procCreate m = .done made m') : made = created := by
  cases answered
  rfl

end Machine

end Answers

section Step

variable {hw : Pmuv3} {t u : Nat} {e : Setting} {o : sig.Op} {a : sig.Ans o} {b b' : Board n}
  {x : History}

theorem History.Shows.mono {x' : History} (grows : x.logged ⊆ x'.logged) {load : Nat} {field : Field}
    {v : U64} (shows : x.Shows load field v) : x'.Shows load field v :=
  shows.imp_right fun line => grows line

theorem History.Honest.mono {x' : History} (grows : x.logged ⊆ x'.logged) {load : Nat}
    {vals : List U64} (honest : x.Honest load vals) : x'.Honest load vals :=
  fun i field v place read => (honest i field v place read).mono grows

theorem note_own : (note t e o a b x).part t = visiting.next o a (x.part t) := Function.update_self ..

theorem note_other (other : u ≠ t) : (note t e o a b x).part u = x.part u :=
  Function.update_of_ne other ..

theorem note_logged : x.logged ⊆ (note t e o a b x).logged := by
  unfold note
  dsimp only
  split
  · exact List.subset_cons_self _ _
  · exact List.Subset.refl _

theorem note_removed : x.removed ⊆ (note t e o a b x).removed := by
  unfold note
  dsimp only
  split
  · exact List.subset_cons_self _ _
  · exact List.Subset.refl _

theorem note_entered (other : u ≠ t) : (note t e o a b x).entered u = x.entered u := by
  unfold note
  dsimp only
  split
  · exact Function.update_of_ne other ..
  · rfl

theorem note_load (running : o ≠ .inr .beginInit) : (note t e o a b x).load = x.load := by
  unfold note
  dsimp only
  split
  · exact absurd rfl running
  · rfl

/-- A load begins when the module is not there. -/
theorem beginInit_absent {a : sig.Ans (.inr .beginInit)}
    (answered : kernel hw t e (.inr .beginInit) b = .done a b') : CountersFile.absent b.phase = true := by
  by_contra present
  simp only [kernel] at answered
  rw [if_neg present] at answered
  cases answered

theorem Sound.present (sound : Sound b x) (somebody : u ∈ b.inside) :
    CountersFile.absent b.phase = false := by
  by_contra gone
  rw [Bool.not_eq_false] at gone
  rw [sound.inside (sound.entry gone)] at somebody
  cases somebody

/-- While the module is there its load goes on. -/
theorem load_kept (present : CountersFile.absent b.phase = false)
    (answered : kernel hw t e o b = .done a b') : (note t e o a b x).load = x.load := by
  apply note_load
  rintro rfl
  rw [beginInit_absent answered] at present
  cases present

theorem Part.Fits.owner {r : Part} (fits : r.Fits b x t) (working : r.Working) :
    b.phase.owner = some t := by
  cases r with
  | starting | removed => exact congrArg Phase.owner fits.1
  | created => exact congrArg Phase.owner fits
  | exiting lines => exact congrArg Phase.owner fits.1
  | outside | unopened | opened _ | missed _ | showing _ | shown _ => exact working.elim

/-- Who ends a load or an unload is the owner of the module. -/
theorem ends_owner (sound : Sound b x) (allowed : visiting.allowed o (x.part t))
    (ends : (∃ ret, o = .inr (.endInit ret)) ∨ o = .inr .endExit) : b.phase.owner = some t := by
  apply (sound.fits t).owner
  rcases ends with ⟨ret, rfl⟩ | rfl
  · rcases allowed with ⟨created, -⟩ | ⟨starting, -⟩
    · rw [created]
      trivial
    · rw [starting]
      trivial
  · rw [show x.part t = .removed from allowed]
    trivial

/-- While another thread is loading or unloading, it is the only one. -/
theorem phase_kept (sound : Sound b x) (allowed : visiting.allowed o (x.part t))
    (answered : kernel hw t e o b = .done a b') (other : u ≠ t) (owner : b.phase.owner = some u) :
    b'.phase = b.phase := by
  have stranger : ¬b.phase.owner = some t := fun same => other (Option.some.inj (owner.symm.trans same))
  cases o with
  | inl o => exact (kernel_module answered).2.2.1
  | inr o =>
      cases o with
      | beginInit =>
          have gone := beginInit_absent answered
          cases phase : b.phase <;> rw [phase] at gone owner <;> cases gone <;> cases owner
      | endInit ret => exact absurd (ends_owner sound allowed (Or.inl ⟨ret, rfl⟩)) stranger
      | endExit => exact absurd (ends_owner sound allowed (Or.inr rfl)) stranger
      | beginExit =>
          simp only [kernel] at answered
          split at answered
          · rename_i loaded
            rw [loaded] at owner
            cases owner
          · cases answered
      | fopen =>
          cases answered
          rfl
      | enter entry =>
          simp only [kernel] at answered
          split at answered <;> cases answered <;> rfl
      | leave =>
          simp only [kernel] at answered
          split at answered <;> cases answered
          rfl

/-- Only the thread that loads the module makes an entry. -/
theorem entry_kept (sound : Sound b x) (allowed : visiting.allowed o (x.part t))
    (answered : kernel hw t e o b = .done a b') (stranger : b.phase.owner ≠ some t)
    (none : b.machine.procEntry = false) : b'.machine.procEntry = false := by
  cases o with
  | inl o =>
      have after := machine_entry (kernel_module answered).2.1
      cases o with
      | procCreate =>
          have starting : x.part t = .starting := allowed
          have fits := sound.fits t
          rw [starting] at fits
          exact absurd (fits.owner trivial) stranger
      | removeProcEntry => exact after
      | _ => exact after.trans none
  | inr o =>
      cases o with
      | endInit _ | endExit | fopen =>
          cases answered
          exact none
      | beginInit | beginExit | enter _ | leave =>
          simp only [kernel] at answered
          split at answered <;> cases answered <;> exact none

/-- An entry is there under its number until it is removed. -/
theorem opened_kept (sound : Sound b x) (allowed : visiting.allowed o (x.part t))
    (answered : kernel hw t e o b = .done a b') {entry : Nat}
    (known : entry ∈ x.removed ∨ entry = b.latest ∧ b.machine.procEntry = true) :
    entry ∈ (note t e o a b x).removed ∨ entry = b'.latest ∧ b'.machine.procEntry = true := by
  rcases known with gone | ⟨rfl, there⟩
  · exact Or.inl (note_removed gone)
  cases o with
  | inl o =>
      have entry := machine_entry (kernel_module answered).2.1
      cases o with
      | procCreate =>
          have starting : x.part t = .starting := allowed
          have fits := sound.fits t
          rw [starting] at fits
          cases there.symm.trans fits.2
      | removeProcEntry => exact Or.inl List.mem_cons_self
      | _ => exact Or.inr ⟨(moduleCall_latest answered).symm, entry.trans there⟩
  | inr o =>
      cases o with
      | endInit _ | endExit | fopen =>
          cases answered
          exact Or.inr ⟨rfl, there⟩
      | beginInit | beginExit | enter _ | leave =>
          simp only [kernel] at answered
          split at answered <;> cases answered <;> exact Or.inr ⟨rfl, there⟩

/-- Who is inside stays there until it leaves. -/
theorem inside_kept (answered : kernel hw t e o b = .done a b') (other : u ≠ t) (inside : u ∈ b.inside) :
    u ∈ b'.inside := by
  cases o with
  | inl o => rwa [(kernel_module answered).2.2.2]
  | inr o =>
      cases o with
      | endInit _ | endExit | fopen =>
          cases answered
          exact inside
      | beginInit | beginExit =>
          simp only [kernel] at answered
          split at answered <;> cases answered
          exact inside
      | enter _ =>
          simp only [kernel] at answered
          split at answered <;> cases answered
          · exact List.mem_cons_of_mem t inside
          · exact inside
      | leave =>
          simp only [kernel] at answered
          split at answered <;> cases answered
          exact (List.mem_erase_of_ne other).mpr inside

/-- What describes another thread goes on describing it. -/
theorem others_fit (sound : Sound b x) (allowed : visiting.allowed o (x.part t))
    (answered : kernel hw t e o b = .done a b') (other : u ≠ t) :
    ((note t e o a b x).part u).Fits b' (note t e o a b x) u := by
  have fits := sound.fits u
  rw [note_other other]
  have phase (owner : b.phase.owner = some u) : b'.phase = b.phase :=
    phase_kept sound allowed answered other owner
  have stranger (owner : b.phase.owner = some u) : b.phase.owner ≠ some t :=
    fun same => other (Option.some.inj (owner.symm.trans same))
  cases part : x.part u with
  | outside | unopened => trivial
  | opened entry =>
      rw [part] at fits
      exact opened_kept sound allowed answered fits
  | missed entry =>
      rw [part] at fits
      exact note_removed fits
  | starting | removed =>
      rw [part] at fits
      have owner := fits.owner trivial
      exact ⟨(phase owner).trans fits.1, entry_kept sound allowed answered (stranger owner) fits.2⟩
  | created =>
      rw [part] at fits
      exact (phase (fits.owner trivial)).trans fits
  | exiting lines =>
      rw [part] at fits
      refine ⟨(phase (fits.owner trivial)).trans fits.1, fun line member => ?_⟩
      rw [load_kept (by rw [fits.1]; rfl) answered]
      exact note_logged (fits.2 line member)
  | showing vals =>
      rw [part] at fits
      obtain ⟨inside, entered, honest⟩ := fits
      refine ⟨inside_kept answered other inside, ?_, ?_⟩
      · rw [note_entered other, load_kept (sound.present inside) answered]
        exact entered
      · rw [note_entered other]
        exact honest.mono note_logged
  | shown vals =>
      rw [part] at fits
      show History.Honest _ _ _
      rw [note_entered other]
      exact History.Honest.mono note_logged fits

/-- One more field read. -/
theorem History.Honest.snoc {load : Nat} {vals : List U64} (honest : x.Honest load vals) {field : Field}
    {v : U64} (place : fields[vals.length]? = some field) (shows : x.Shows load field v) :
    x.Honest load (vals ++ [v]) := by
  intro i field' v' place' read
  rw [List.getElem?_append] at read
  split at read
  · exact honest i field' v' place' read
  · rename_i beyond
    obtain ⟨last, rfl⟩ : i - vals.length = 0 ∧ v = v' := by
      cases first : i - vals.length with
      | zero =>
          rw [first] at read
          exact ⟨rfl, Option.some.inj read⟩
      | succ k =>
          rw [first] at read
          cases read
    obtain rfl : i = vals.length := by omega
    cases place.symm.trans place'
    exact shows

/-- What describes a thread describes it when the module's code goes on. -/
theorem module_fits {o : Pmu.Op} {a : o.Ans} (sound : Sound b x)
    (allowed : serving.allowed o (x.part t)) (answered : kernel hw t e (.inl o) b = .done a b') :
    (serving.next o a (x.part t)).Fits b' (note t e (.inl o) a b x) t := by
  have fits := sound.fits t
  obtain ⟨present, inner, phase, inside⟩ := kernel_module answered
  have entry := machine_entry inner
  cases o with
  | pmuCounter field =>
      obtain ⟨vals, showing, place⟩ := allowed
      rw [showing] at fits ⊢
      obtain ⟨within, entered, honest⟩ := fits
      refine ⟨inside ▸ within, entered, ?_⟩
      refine History.Honest.snoc honest place ?_
      rw [pmuCounter_read inner, entered]
      exact sound.values field
  | setPmuCounter field v =>
      obtain ⟨lines, exiting, -⟩ := allowed
      rw [exiting] at fits ⊢
      exact ⟨phase.trans fits.1, fits.2⟩
  | procCreate =>
      have starting : x.part t = .starting := allowed
      rw [starting] at fits ⊢
      have made := procCreate_made inner
      cases a with
      | true => exact phase.trans fits.1
      | false =>
          refine ⟨phase.trans fits.1, entry.trans ?_⟩
          rw [fits.2, ← made]
          rfl
  | removeProcEntry =>
      obtain ⟨lines, exiting⟩ := allowed
      rw [exiting] at fits ⊢
      exact ⟨phase.trans fits.1, entry⟩
  | printk text =>
      cases part : x.part t with
      | exiting lines =>
          rw [part] at fits
          refine ⟨phase.trans fits.1, fun line member => ?_⟩
          have logged : (note t e (.inl (.printk text)) a b x).logged = (x.load, text) :: x.logged := by
            simp only [note, part]
          rw [logged]
          rcases List.mem_cons.mp member with rfl | earlier
          · exact List.mem_cons_self
          · exact List.mem_cons_of_mem _ (fits.2 line earlier)
      | starting | removed =>
          rw [part] at fits
          exact ⟨phase.trans fits.1, entry.trans fits.2⟩
      | created =>
          rw [part] at fits
          exact phase.trans fits
      | outside | unopened | opened _ | missed _ | showing _ | shown _ =>
          rw [part] at allowed
          exact allowed.elim
  | msr _ _ | mrsPmcr | mrsPmxevcntr =>
      cases part : x.part t with
      | starting | removed =>
          rw [part] at fits
          exact ⟨phase.trans fits.1, entry.trans fits.2⟩
      | exiting lines =>
          rw [part] at fits
          exact ⟨phase.trans fits.1, fits.2⟩
      | created =>
          rw [part] at fits
          exact phase.trans fits
      | outside | unopened | opened _ | missed _ | showing _ | shown _ =>
          rw [part] at allowed
          exact allowed.elim

/-- And when the kernel goes on around it. -/
theorem file_fits {o : FileOp} {a : o.Ans} (sound : Sound b x)
    (allowed : visiting.allowed (.inr o) (x.part t)) (answered : kernel hw t e (.inr o) b = .done a b') :
    (fileNext o a (x.part t)).Fits b' (note t e (.inr o) a b x) t := by
  have fits := sound.fits t
  cases o with
  | beginInit =>
      have outside : x.part t = .outside := allowed
      have gone := beginInit_absent answered
      rw [outside]
      simp only [kernel] at answered
      rw [if_pos gone] at answered
      cases answered
      exact ⟨rfl, sound.entry gone⟩
  | beginExit =>
      have outside : x.part t = .outside := allowed
      rw [outside]
      simp only [kernel] at answered
      split at answered <;> cases answered
      exact ⟨rfl, fun line member => absurd member List.not_mem_nil⟩
  | endInit ret => trivial
  | endExit => trivial
  | fopen =>
      have outside : x.part t = .outside := allowed
      rw [outside]
      simp only [kernel] at answered
      split at answered
      · rename_i opens
        cases answered
        exact Or.inr ⟨rfl, (Bool.and_eq_true_iff.mp opens).2⟩
      · cases answered
        trivial
  | enter entry =>
      have opened : x.part t = .opened entry := allowed
      rw [opened] at fits ⊢
      simp only [kernel] at answered
      split at answered
      · cases answered
        refine ⟨List.mem_cons_self, Function.update_self .., ?_⟩
        intro i field v place read
        cases read
      · rename_i refused
        cases answered
        refine fits.resolve_right fun present => refused ?_
        simp [present.1, present.2]
  | leave =>
      obtain ⟨vals, showing⟩ := allowed
      rw [showing] at fits ⊢
      exact fits.2.2

theorem entry_step (sound : Sound b x) (allowed : visiting.allowed o (x.part t))
    (answered : kernel hw t e o b = .done a b') (gone : CountersFile.absent b'.phase = true) :
    b'.machine.procEntry = false := by
  have fits := sound.fits t
  cases o with
  | inl o =>
      obtain ⟨present, -, phase, -⟩ := kernel_module answered
      rw [phase, present] at gone
      cases gone
  | inr o =>
      cases o with
      | beginInit =>
          have absent := beginInit_absent answered
          simp only [kernel] at answered
          rw [if_pos absent] at answered
          cases answered
          cases gone
      | beginExit =>
          simp only [kernel] at answered
          split at answered <;> cases answered
          cases gone
      | endInit ret =>
          cases answered
          rcases allowed with ⟨-, rfl⟩ | ⟨starting, -⟩
          · cases gone
          · rw [starting] at fits
            exact fits.2
      | endExit =>
          cases answered
          rw [show x.part t = .removed from allowed] at fits
          exact fits.2
      | fopen =>
          cases answered
          exact sound.entry gone
      | enter _ | leave =>
          simp only [kernel] at answered
          split at answered <;> cases answered <;> exact sound.entry gone

theorem inside_step (sound : Sound b x) (answered : kernel hw t e o b = .done a b')
    (none : b'.machine.procEntry = false) : b'.inside = [] := by
  cases o with
  | inl o =>
      obtain ⟨-, inner, -, inside⟩ := kernel_module answered
      have entry := (machine_entry inner).symm.trans none
      rw [inside]
      cases o with
      | removeProcEntry => exact remove_inside answered
      | procCreate => exact sound.inside (Bool.or_eq_false_iff.mp entry).1
      | _ => exact sound.inside entry
  | inr o =>
      cases o with
      | endInit _ | endExit | fopen =>
          cases answered
          exact sound.inside none
      | beginInit | beginExit =>
          simp only [kernel] at answered
          split at answered <;> cases answered
          exact sound.inside none
      | enter _ =>
          simp only [kernel] at answered
          split at answered
          · rename_i found
            cases answered
            rw [none] at found
            cases found
          · cases answered
            exact sound.inside none
      | leave =>
          simp only [kernel] at answered
          split at answered <;> cases answered
          rw [show b.inside = [] from sound.inside none]
          rfl

theorem values_step (sound : Sound b x) (allowed : visiting.allowed o (x.part t))
    (answered : kernel hw t e o b = .done a b') (field : Field) :
    (note t e o a b x).Shows (note t e o a b x).load field (b'.machine.pmuCounters field) := by
  have shows := (sound.values field).mono (note_logged (t := t) (e := e) (o := o) (a := a) (b := b))
  cases o with
  | inl o =>
      have counters := machine_counters (kernel_module answered).2.1
      rw [counters]
      cases o with
      | setPmuCounter written v =>
          obtain ⟨lines, exiting, logged⟩ := allowed
          have fits := sound.fits t
          rw [exiting] at fits
          by_cases same : field = written
          · subst same
            rw [countersAfter, Function.update_self]
            exact Or.inr (fits.2 _ logged)
          · rw [countersAfter, Function.update_of_ne same]
            exact shows
      | _ => exact shows
  | inr o =>
      cases o with
      | beginInit =>
          simp only [kernel] at answered
          split at answered <;> cases answered
          exact Or.inl rfl
      | endInit _ | endExit | fopen =>
          cases answered
          exact shows
      | beginExit | enter _ | leave =>
          simp only [kernel] at answered
          split at answered <;> cases answered <;> exact shows

theorem sound_step (sound : Sound b x) (allowed : visiting.allowed o (x.part t))
    (answered : kernel hw t e o b = .done a b') : Sound b' (note t e o a b x) where
  fits := by
    intro u
    by_cases same : u = t
    · subst same
      rw [note_own]
      cases o with
      | inl o => exact module_fits sound allowed answered
      | inr o => exact file_fits sound allowed answered
    · exact others_fit sound allowed answered same
  entry := entry_step sound allowed answered
  inside := inside_step sound answered
  values := values_step sound allowed answered

end Step

/-! ## Runs -/

section Runs

variable {hw : Pmuv3}

/-- The world changes neither the module nor its file. -/
theorem outside_sound (w : World n) {b : Board n} {x : History} (sound : Sound b x) :
    Sound (b.act hw w) x := by
  obtain ⟨fits, entry, inside, values⟩ := sound
  cases w with
  | migrate t cpu =>
      refine ⟨fun u => ?_, entry, inside, values⟩
      have before := fits u
      cases part : x.part u <;> rw [part] at before <;> exact before
  | hardware cpu ev =>
      refine ⟨fun u => ?_, entry, inside, values⟩
      have before := fits u
      cases part : x.part u <;> rw [part] at before <;> exact before

theorem booted_sound (banks : Fin n → Bank) (place : Nat → Fin n) :
    Sound (.booted banks place) .blank :=
  ⟨fun _ => trivial, fun _ => rfl, fun _ => rfl, fun _ => Or.inl rfl⟩

/-- Every thread of a run does what it may, and what is known of the board holds. -/
theorem after_relies (banks : Fin n → Bank) (place : Nat → Fin n) (doings : List (Doing n)) :
    (after hw banks place doings).Relies visiting Ends (fun c => Sound c.1 c.2)
      (fun c t r => c.2.part t = r) .outside := by
  refine Pool.run_relies ?_ ?_ (fun w c sound => ⟨outside_sound w sound, fun _ _ same => same⟩) ?_
    ⟨booted_sound banks place, ?_, fun _ _ => rfl⟩
  · rintro t e o c a c' r sound rfl allowed answered
    obtain ⟨answer, noted⟩ := recorded_done.mp answered
    rw [noted]
    exact ⟨sound_step sound allowed answer, trivial, note_own⟩
  · rintro t u e o c a c' r q other - - answered rfl
    rw [(recorded_done.mp answered).2]
    exact note_other other
  · intro thread started
    obtain ⟨doing, -, same⟩ := List.mem_map.mp started
    cases doing with
    | load e =>
        cases same
        exact load_visits
    | unload e =>
        cases same
        exact unload_visits
    | read e =>
        cases same
        exact main_visits e
    | step t => cases same
    | world w => cases same
  · intro t thread found
    cases found

end Runs

/-! ## The result -/

/-- The module's code runs for who loads it, unloads it or is inside. -/
theorem serves_present {b : Board n} {x : History} {t : Nat} {o : Pmu.Op} (sound : Sound b x)
    (allowed : serving.allowed o (x.part t)) : CountersFile.absent b.phase = false := by
  have fits := sound.fits t
  have working (working : (x.part t).Working) : CountersFile.absent b.phase = false := by
    have owner := fits.owner working
    cases phase : b.phase <;> rw [phase] at owner <;> first | rfl | cases owner
  cases o with
  | pmuCounter field =>
      obtain ⟨vals, showing, -⟩ := allowed
      rw [showing] at fits
      exact sound.present fits.1
  | setPmuCounter field v =>
      obtain ⟨lines, exiting, -⟩ := allowed
      exact working (by rw [exiting]; trivial)
  | procCreate => exact working (by rw [show x.part t = .starting from allowed]; trivial)
  | removeProcEntry =>
      obtain ⟨lines, exiting⟩ := allowed
      exact working (by rw [exiting]; trivial)
  | _ => exact working allowed

theorem moduleCall_mapped {hw : Pmuv3} {t : Nat} {e : Setting} {o : Pmu.Op} {b b' : Board n}
    (present : CountersFile.absent b.phase = false) : moduleCall hw t e o b ≠ .fault .unmapped b' := by
  unfold moduleCall
  rw [if_neg (by rw [present]; exact Bool.false_ne_true)]
  cases Pmu.kernel hw (b.place t) e.created o b.machine with
  | done a m =>
      intro same
      cases same
  | blocked m =>
      intro same
      cases same
  | fault f m => exact f.elim

theorem kernel_mapped {hw : Pmuv3} {b b' : Board n} {x : History} {t : Nat} {e : Setting} {o : sig.Op}
    (sound : Sound b x) (allowed : visiting.allowed o (x.part t)) :
    kernel hw t e o b ≠ .fault .unmapped b' := by
  intro unmapped
  cases o with
  | inl o =>
      have present := serves_present sound allowed
      cases o with
      | removeProcEntry =>
          simp only [kernel] at unmapped
          split at unmapped
          · exact moduleCall_mapped present unmapped
          · cases unmapped
      | procCreate => exact moduleCall_mapped (b := { b with latest := b.latest + 1 }) present unmapped
      | _ => exact moduleCall_mapped present unmapped
  | inr o =>
      cases o with
      | endInit _ | endExit | fopen => cases unmapped
      | _ =>
          simp only [kernel] at unmapped
          split at unmapped <;> cases unmapped

/-- What the tool makes of the text the module shows. -/
theorem readPmuCounters_text (c : PmuCounters) (access refill : U64) :
    readPmuCounters (.ok (countersText c)) access refill =
      ⟨0, twoLines (c .l1DataCacheAccess) (c .l1DataCacheRefill), []⟩ := by
  let others : List Char :=
    valueLine "L1 instruction cache access: ".toList (c .l1InstCacheAccess) ++
      valueLine "L1 instruction cache refill: ".toList (c .l1InstCacheRefill)
  have first : fscanf accessFormat (countersText c) =
      ⟨[c .l1DataCacheAccess], valueLine "L1 data cache refill: ".toList (c .l1DataCacheRefill) ++ others⟩ :=
    fscanf_line "L1 data cache access: ".toList (by decide) (by decide) _ (startsSolid_line rfl _ _)
  have second : fscanf refillFormat
      (valueLine "L1 data cache refill: ".toList (c .l1DataCacheRefill) ++ others) =
      ⟨[c .l1DataCacheRefill], others⟩ :=
    fscanf_line "L1 data cache refill: ".toList (by decide) (by decide) _ (startsSolid_line rfl _ _)
  simp only [readPmuCounters, first, second, List.headD_cons]
  rfl

/-- Without a text nothing is assigned. -/
theorem readPmuCounters_nothing (access refill : U64) :
    readPmuCounters (.ok []) access refill = ⟨0, twoLines access refill, []⟩ := rfl

/-- **What the tool prints**: in every run of loads, unloads and reads, on any CPUs and in any
order of their calls. -/
theorem counters_shown (hw : Pmuv3) (banks : Fin n → Bank) (place : Nat → Fin n)
    (doings : List (Doing n)) : Shown hw (after hw banks place doings) := by
  have relies : (after hw banks place doings).Relies visiting Ends (fun c => Sound c.1 c.2)
      (fun c t r => c.2.part t = r) .outside := after_relies banks place doings
  have sound := relies.inv
  refine ⟨?_, fun gone => ⟨sound.entry gone, sound.inside (sound.entry gone)⟩, ?_⟩
  · intro t e o k b found
    obtain ⟨r, rfl, allowed, -⟩ := relies.follows t _ found
    exact kernel_mapped sound allowed
  · intro t e' e ended found
    obtain ⟨r, part, ends⟩ := relies.follows t _ found
    have fits := sound.fits t
    rcases ends with ⟨unopened, refused⟩ | ⟨entry, missed, nothing⟩ | ⟨c, shown, read⟩
    · exact Or.inl ⟨part.trans unopened, refused⟩
    · rw [part, missed] at fits
      exact Or.inr (Or.inl
        ⟨entry, fits, part.trans missed, nothing.trans (readPmuCounters_nothing _ _)⟩)
    · rw [part, shown] at fits
      refine Or.inr (Or.inr
        ⟨c, part.trans shown, read.trans (readPmuCounters_text c _ _), fun field => ?_⟩)
      cases field with
      | l1DataCacheAccess => exact fits 0 _ _ rfl rfl
      | l1DataCacheRefill => exact fits 1 _ _ rfl rfl
      | l1InstCacheAccess => exact fits 2 _ _ rfl rfl
      | l1InstCacheRefill => exact fits 3 _ _ rfl rfl

/-- Everything is granted. -/
def granted : Setting := ⟨true, true, [], 0, 0⟩

/-- The module is loaded, an access and a refill are counted, and the tool reads when the unload
has stored the first field. -/
def betweenStores : List (Doing 1) :=
  let counted (code : BitVec 10) : Doing 1 := .world (.hardware ⟨0, Nat.zero_lt_one⟩ ⟨code, true⟩)
  .load granted :: List.replicate 24 (.step 0) ++ counted 0x04 :: counted 0x03 ::
    .unload granted :: List.replicate 16 (.step 1) ++ .read granted :: List.replicate 7 (.step 2)

/-- What a run of the tool has printed. -/
def printed (c : Pool sig Setting (Remembered n) Result) (t : Nat) : Option (List Char) :=
  match c.threads[t]? with
  | some ⟨_, .ret (.tool _ ended)⟩ => some ended.stdout
  | _ => none

/-- Then it shows the access, and no refill. -/
example : printed (after cortexA53 (fun _ => .idle) (fun _ => 0) betweenStores) 2 =
    some (twoLines 1 0) := by decide +kernel

/-- The module is unloaded between the open and the read of a tool with 7 and 9 on its stack. -/
def betweenOpenAndRead : List (Doing 1) :=
  .load granted :: List.replicate 24 (.step 0) ++
    .read { granted with access := 7, refill := 9 } :: .step 1 ::
    .unload granted :: List.replicate 22 (.step 2) ++ [.step 1]

example : printed (after cortexA53 (fun _ => .idle) (fun _ => 0) betweenOpenAndRead) 1 =
    some (twoLines 7 9) := by decide +kernel

end Dreamscape.Userland.CountersFile
