/-
# Monitor.Reload -- what a load of cache_kprobe_monitor leaves behind

Any number of loads and unloads, each in its own thread, beside writers and context
switches.  Before the proc entry is there no command can have set the target, and no task
has the number -1: so a probe hit in that time allocates nothing, and an init that fails
has nothing to free (`Sound.closed`).  What an unload finds it frees.  So nothing of a load
is left when it is over, whichever way it ends (`loads_leave_nothing`).
-/
import Dreamscape.Monitor.Roles
import Dreamscape.Monitor.FreedOnce

namespace Dreamscape.Monitor.Lifecycle

set_option autoImplicit false

open Theory Kernel Unloading
open Modules.Load (Phase)

/-! ## What holds of the module -/

/-- A load that is over: everything it allocated was freed, once, and nothing else was. -/
structure Ended (s : Unloading.Machine) : Prop where
  emptied : s.Emptied
  distinct : s.entries.Nodup
  freed : ∀ p ∈ s.freed, p ∈ s.entries

/-- Nobody is inside a module that is not loaded, or will be. -/
structure Gone (s : Unloading.Machine) : Prop where
  shut : ∀ g, s.Shut g
  ended : Ended s

/-- A load without a proc entry has no target and no entry of the list. -/
structure Unasked (s : Unloading.Machine) : Prop where
  shut : s.Shut .procEntry
  target : s.core.targetPid = -1
  allocated : s.allocated = []

structure Sound (s : Machine) : Prop where
  owned : Owned s.module
  closed : s.opened = false → Unasked s.module
  whole : s.phase = .loaded ∨ (∃ t, s.phase = .loading t) → s.module.unlinked = []
  loaded : s.phase = .loaded →
    (∀ g, (s.module.entrance g).registered = true) ∧ s.procEntry = some .procEntry ∧
      s.opened = true
  gone : s.phase = .unloaded ∨ s.phase = .failed → Gone s.module
  failed : s.phase = .failed → s.opened = false
  past : ∀ m ∈ s.past, Ended m

/-- What an init knows of the gates and of the static. -/
def Loading.Fits (s : Machine) : Loading → Prop
  | .begun => s.module.Shut .probe ∧ s.opened = false
  | .probed => (s.module.entrance .probe).registered = true ∧ s.opened = false
  | .answered made =>
      (s.module.entrance .probe).registered = true ∧
        (s.module.entrance .procEntry).registered = made ∧ s.opened = made
  | .stored made =>
      (s.module.entrance .probe).registered = true ∧
        (s.module.entrance .procEntry).registered = made ∧ s.opened = made ∧
          s.procEntry = entryOf made
  | .unlisted => (s.module.entrance .probe).registered = false ∧ s.opened = false

/-- Where the thread stands among the calls of the handlers and of the unload. -/
def Role.place : Role → Place
  | .outside | .loads _ => .outside
  | .inside g r _ => .inside g r
  | .unloads place => place

def Role.Knows (s : Machine) (t : Tid) : Role → Prop
  | .outside => True
  | .inside _ _ armed => armed = true → s.opened = true
  | .loads k => s.phase = .loading t ∧ k.Fits s
  | .unloads place =>
      s.phase = .unloading t ∧ place.Exits ∧ s.procEntry = some .procEntry ∧ s.opened = true

/-- The role describes thread `t`. -/
structure Fits (s : Machine) (t : Tid) (role : Role) : Prop where
  described : Describes s.module t role.place
  knows : role.Knows s t

theorem owned_ended {m : Unloading.Machine} (owned : Owned m) (emptied : m.Emptied) : Ended m where
  emptied := emptied
  distinct := owned.numbered ▸ List.nodup_range
  freed := by
    intro p gone
    rw [owned.numbered]
    exact List.mem_range.mpr (owned.freed_bound gone)

/-- Where nothing was allocated there is nothing to free. -/
theorem owned_unused {m : Unloading.Machine} (owned : Owned m) (none : m.allocated = []) :
    m.unlinked = [] ∧ Ended m := by
  have zero : m.core.nextPtr = 0 := by
    have numbered := owned.numbered
    rw [Machine.entries, none] at numbered
    exact List.range_eq_nil.mp numbered.symm
  have empty : ∀ list : List Ptr, (∀ p ∈ list, p < m.core.nextPtr) → list = [] := by
    intro list bound
    rw [zero] at bound
    exact List.eq_nil_iff_forall_not_mem.mpr fun p here => Nat.not_lt_zero p (bound p here)
  refine ⟨empty _ owned.unlinked.2, owned_ended owned ⟨empty _ fun p here => (owned.linked p here).1, ?_⟩⟩
  intro p known
  rw [Machine.entries, none] at known
  cases known

/-! ## What a call keeps -/

section Calls

variable {s s' : Machine} {m m' : Unloading.Machine} {t u : Tid} {e : LoadEnv} {role : Role} {g : Gate}

/-- What a call of a thread makes of the module and of its role. -/
def Moves (t : Tid) (o : Call) (a : o.Ans) (role : Role) (s' : Machine) : Prop :=
  Sound s' ∧ role.Possible o a ∧ Fits s' t (role.next o a)

/-! ### Handlers -/

/-- Handlers neither list nor unlist a gate. -/
def SameGates (m m' : Unloading.Machine) : Prop :=
  ∀ g, (m'.entrance g).registered = (m.entrance g).registered ∧ (m.Shut g → m'.Shut g)

theorem SameGates.atGate {x : Entrance} (registered : x.registered = (m.entrance g).registered)
    (shut : m.Shut g → x.inside = []) : SameGates m (m.atGate g x) := by
  intro g'
  by_cases here : g' = g
  · subst here
    rw [Machine.Shut, Machine.Shut, atGate_here]
    exact ⟨registered, fun closed => ⟨registered.trans closed.1, shut closed⟩⟩
  · rw [Machine.Shut, Machine.Shut, atGate_there here]
    exact ⟨rfl, id⟩

theorem Sound.visited (sound : Sound s) (owned : Owned m) (gates : SameGates s.module m)
    (unlinked : m.unlinked = s.module.unlinked)
    (asked : s.opened = false → m.core.targetPid = s.module.core.targetPid ∧
      m.allocated = s.module.allocated)
    (there : ¬ Gone s.module) : Sound (s.withModule m) where
  owned := owned
  closed := by
    intro unopened
    obtain ⟨shut, target, allocated⟩ := sound.closed unopened
    obtain ⟨target', allocated'⟩ := asked unopened
    exact ⟨(gates _).2 shut, target'.trans target, allocated'.trans allocated⟩
  whole ready := unlinked.trans (sound.whole ready)
  loaded := by
    intro loaded
    obtain ⟨registered, known⟩ := sound.loaded loaded
    exact ⟨fun g => (gates g).1.trans (registered g), known⟩
  gone away := absurd (sound.gone away) there
  failed := sound.failed
  past := sound.past

theorem Loading.Fits.visited {k : Loading} (fits : k.Fits s) (gates : SameGates s.module m) :
    k.Fits (s.withModule m) := by
  cases k with
  | begun => exact ⟨(gates _).2 fits.1, fits.2⟩
  | probed | unlisted => exact ⟨(gates _).1.trans fits.1, fits.2⟩
  | answered made => exact ⟨(gates _).1.trans fits.1, (gates _).1.trans fits.2.1, fits.2.2⟩
  | stored made => exact ⟨(gates _).1.trans fits.1, (gates _).1.trans fits.2.1, fits.2.2⟩

theorem Fits.visited (fits : Fits s u role) (described : Describes m u role.place)
    (gates : SameGates s.module m) : Fits (s.withModule m) u role := by
  refine ⟨described, ?_⟩
  cases role with
  | loads k => exact ⟨fits.knows.1, fits.knows.2.visited gates⟩
  | outside | inside g r armed | unloads place => exact fits.knows

/-- Only a command sets the target. -/
theorem kernel_target {c c' : State} {o : Op} {a : o.Ans} (still : ¬ Op.Acts o)
    (answered : kernel t e.core o c = .done a c') : c'.targetPid = c.targetPid := by
  cases o with
  | setTargetPid pid => exact absurd trivial still
  | addCounter _ _ _ | kmalloc | setEntryPc _ _ | setEntryCounters _ _ | listAdd _ =>
      obtain ⟨_, _, _, rfl⟩ := kernel_stores answered trivial
      rfl
  | filpOpen _ | filpClose _ | setFs _ | setFPos _ _ | fOpWrite _ _ =>
      obtain ⟨_, _, _, _, rfl⟩ := kernel_onFiles answered trivial
      rfl
  | mutexLock =>
      obtain ⟨-, rfl⟩ := kernel_mutexLock answered
      rfl
  | mutexUnlock =>
      obtain ⟨-, rfl⟩ := kernel_mutexUnlock answered
      rfl
  | perfEventCreateKernelCounter attr cpu task =>
      rcases kernel_create answered with ⟨err, -, rfl⟩ | ⟨ev, -, -, rfl⟩
      · rfl
      · rfl
  | perfEventReleaseKernel ev =>
      rw [kernel_release answered]
  | _ =>
      obtain rfl := kernel_reads answered trivial
      rfl

theorem core_asks {o : Op} {a : o.Ans} {core : State} (still : ¬ Op.Acts o)
    (answered : kernel t e.core o m.core = .done a core) :
    core.targetPid = m.core.targetPid ∧ (m.withCore t core).allocated = m.allocated := by
  refine ⟨kernel_target still answered, ?_⟩
  have same : core.nextPtr = m.core.nextPtr := by
    by_cases links : ∃ q, o = .listAdd q
    · obtain ⟨q, rfl⟩ := links
      obtain ⟨p, -, rfl⟩ := kernel_listAdd answered
      rfl
    · have allocates : o ≠ .kmalloc := by
        rintro rfl
        exact still trivial
      exact (kernel_entries allocates (fun q is => links ⟨q, is⟩) answered).nextPtr
  simp [Machine.withCore, same]

theorem Gone.nobody (gone : Gone m) : t ∉ (m.entrance g).inside := by
  rw [(gone.shut g).2]
  exact List.not_mem_nil

theorem enter_moves {a : Bool} (sound : Sound s) (fits : Fits s t .outside)
    (answered : machine t e.core (.enter g) s.module = .done a m) :
    Moves t (.module (.enter g)) a .outside (s.withModule m) := by
  obtain ⟨owned, -, described⟩ := enter_own sound.owned fits.described answered
  simp only [machine] at answered
  split at answered
  · rename_i registered
    cases answered
    have shut : ∀ g', s.module.Shut g' → g' ≠ g := by
      rintro g' closed rfl
      rw [closed.1] at registered
      cases registered
    refine ⟨sound.visited owned (.atGate rfl fun closed => absurd rfl (shut g closed)) rfl
      (fun _ => ⟨rfl, rfl⟩) fun gone => shut g (gone.shut g) rfl, trivial, described, ?_⟩
    intro armed
    cases opened : s.opened with
    | true => exact opened
    | false => exact absurd (beq_iff_eq.mp armed).symm (shut .procEntry (sound.closed opened).shut)
  · cases answered
    exact ⟨sound, trivial, fits⟩

theorem core_moves {r : Reach} {armed : Bool} {o : Op} {a : o.Ans} (sound : Sound s)
    (fits : Fits s t (.inside g r armed)) (allowed : reaches.allowed o r)
    (acts : Op.Acts o → armed = true)
    (answered : machine t e.core (.core o) s.module = .done a m) :
    Moves t (.module (.core o)) a (.inside g r armed) (s.withModule m) := by
  obtain ⟨core, made, rfl⟩ := Outcome.mapState_eq_done.mp answered
  obtain ⟨owned, reach⟩ := core_own sound.owned fits.described allowed made
  have inside := fits.described.inside
  refine ⟨sound.visited owned (fun g => ⟨rfl, id⟩) rfl ?_ fun gone => gone.nobody inside,
    trivial, reach, ?_⟩
  · intro unopened
    refine core_asks (fun acting => ?_) made
    rw [fits.knows (acts acting)] at unopened
    cases unopened
  · intro armed'
    cases opened : s.opened with
    | true => exact opened
    | false =>
        have unarmed : armed = false := by
          cases armed with
          | false => rfl
          | true => exact absurd (fits.knows rfl) (by rw [opened]; exact Bool.false_ne_true)
        rw [unarmed] at armed'
        cases o with
        | targetPid =>
            cases made
            have target := (sound.closed opened).target
            simp [arm, target] at armed'
        | _ => cases armed'

theorem leave_moves {r : Reach} {armed : Bool} {a : Unit} (sound : Sound s)
    (fits : Fits s t (.inside g r armed)) (unlinked : r.new = none)
    (answered : machine t e.core (.leave g) s.module = .done a m) :
    Moves t (.module (.leave g)) a (.inside g r armed) (s.withModule m) := by
  obtain ⟨owned, -, described⟩ := leave_own sound.owned fits.described unlinked answered
  have inside := fits.described.inside
  cases answered
  refine ⟨sound.visited owned (.atGate rfl ?_) rfl (fun _ => ⟨rfl, rfl⟩) fun gone =>
    gone.nobody inside, trivial, described, trivial⟩
  rintro ⟨-, empty⟩
  rw [empty]
  rfl

/-! ### Loading -/

/-- While a thread loads or unloads the module, it is neither loaded nor gone. -/
theorem Sound.managed (sound : Sound s) (managed : s.phase.owner = some t)
    (phase : s'.phase = s.phase) (past : s'.past = s.past) (owned : Owned s'.module)
    (closed : s'.opened = false → Unasked s'.module)
    (whole : (∃ t, s.phase = .loading t) → s'.module.unlinked = []) : Sound s' where
  owned := owned
  closed := closed
  whole := by
    rw [phase]
    rintro (loaded | loading)
    · rw [loaded] at managed
      cases managed
    · exact whole loading
  loaded := by
    rw [phase]
    intro loaded
    rw [loaded] at managed
    cases managed
  gone := by
    rw [phase]
    rintro (away | away)
    · rw [away] at managed
      cases managed
    · rw [away] at managed
      cases managed
  failed := by
    rw [phase]
    intro failed
    rw [failed] at managed
    cases managed
  past := past ▸ sound.past

/-- Listing a gate, or unlisting it, moves no entry. -/
theorem owned_listing (owned : Owned m) (registered : Bool) :
    Owned (m.atGate g { m.entrance g with registered := registered }) :=
  owned_atGate owned fun _ _ _ inside => Or.inl inside

/-- What is done to the probe does not concern the proc entry. -/
theorem Unasked.atProbe (unasked : Unasked m) (x : Entrance) : Unasked (m.atGate .probe x) where
  shut := by
    rw [Machine.Shut, atGate_there Gate.noConfusion]
    exact unasked.shut
  target := unasked.target
  allocated := unasked.allocated

theorem beginInit_moves {a : Unit} (sound : Sound s) (answered : loader t e .beginInit s = .done a s') :
    Moves t .beginInit a .outside s' := by
  simp only [loader] at answered
  split at answered
  · rename_i away
    cases answered
    have gone := sound.gone away
    refine ⟨⟨?_, fun _ => ⟨gone.shut .procEntry, rfl, rfl⟩, fun _ => rfl, nofun, ?_, fun _ => rfl,
      sound.past⟩, trivial, nofun, rfl, gone.shut .probe, rfl⟩
    · refine ⟨rfl, fun p => ⟨nofun, fun h => absurd h.1 (Nat.not_lt_zero _)⟩, List.nodup_nil, nofun,
        ⟨List.nodup_nil, nofun⟩, List.prefix_rfl, nofun⟩
    · rintro (unloaded | failed)
      · cases unloaded
      · cases failed
  · cases answered

theorem endInit_moves {a : Unit} {ret : Int} (sound : Sound s) (fits : Fits s t role)
    (may : May (.endInit ret) role) (answered : loader t e (.endInit ret) s = .done a s') :
    Moves t (.endInit ret) a role s' := by
  cases may with
  | fails negative =>
      obtain ⟨loading, shut, unopened⟩ := fits.knows
      cases answered
      have closed := sound.closed unopened
      obtain ⟨-, ended⟩ := owned_unused sound.owned closed.allocated
      rw [if_pos negative]
      refine ⟨⟨sound.owned, fun _ => closed, ?_, nofun, fun _ => ⟨?_, ended⟩, fun _ => unopened, ?_⟩,
        trivial, fits.described, trivial⟩
      · rintro (loaded | ⟨t, loading⟩)
        · cases loaded
        · cases loading
      · intro g
        cases g with
        | probe => exact shut
        | procEntry => exact closed.shut
      · intro m here
        rcases List.mem_append.mp here with before | now
        · exact sound.past m before
        · exact List.mem_singleton.mp now ▸ ended
  | succeeds fine =>
      obtain ⟨loading, probed, registered, opened, entry⟩ := fits.knows
      cases answered
      rw [if_neg fine]
      refine ⟨⟨sound.owned, sound.closed, fun _ => sound.whole (.inr ⟨t, loading⟩), fun _ =>
        ⟨?_, entry, opened⟩, ?_, nofun, sound.past⟩, trivial, fits.described, trivial⟩
      · intro g
        cases g with
        | probe => exact probed
        | procEntry => exact registered
      · rintro (unloaded | failed)
        · cases unloaded
        · cases failed

theorem registerKprobe_moves {a : Int} (sound : Sound s) (fits : Fits s t (.loads .begun))
    (answered : loader t e .registerKprobe s = .done a s') :
    Moves t .registerKprobe a (.loads .begun) s' := by
  obtain ⟨loading, shut, unopened⟩ := fits.knows
  cases answered
  show Sound (if _ then _ else _) ∧ _ ∧ Fits _ t (.loads (if _ then _ else _))
  split
  · exact ⟨sound, trivial, fits⟩
  · refine ⟨sound.managed (congrArg Phase.owner loading) rfl rfl (owned_listing sound.owned true)
      (fun _ => (sound.closed unopened).atProbe _) fun loading => sound.whole (.inr loading),
      trivial, fits.described, loading, ?_, unopened⟩
    exact congrArg Entrance.registered (atGate_here ..)

theorem procCreate_moves {a : Option Gate} (sound : Sound s) (fits : Fits s t (.loads .probed))
    (answered : loader t e .procCreate s = .done a s') :
    Moves t .procCreate a (.loads .probed) s' := by
  obtain ⟨loading, probed, unopened⟩ := fits.knows
  simp only [loader] at answered
  split at answered
  · cases answered
    exact ⟨sound, ⟨false, rfl⟩, fits.described, loading, probed,
      (sound.closed unopened).shut.1, unopened⟩
  · cases answered
    refine ⟨sound.managed (congrArg Phase.owner loading) rfl rfl (owned_listing sound.owned true)
      nofun fun loading => sound.whole (.inr loading), ⟨true, rfl⟩, fits.described, loading, ?_,
      ?_, rfl⟩
    · exact (congrArg Entrance.registered (atGate_there (by nofun) _)).trans probed
    · exact congrArg Entrance.registered (atGate_here ..)

theorem setProcEntry_moves {made : Bool} {a : Unit} (sound : Sound s)
    (fits : Fits s t (.loads (.answered made)))
    (answered : loader t e (.setProcEntry (entryOf made)) s = .done a s') :
    Moves t (.setProcEntry (entryOf made)) a (.loads (.answered made)) s' := by
  obtain ⟨loading, probed, registered, opened⟩ := fits.knows
  cases answered
  exact ⟨sound.managed (congrArg Phase.owner loading) rfl rfl sound.owned sound.closed
    fun loading => sound.whole (.inr loading), trivial, fits.described, loading, probed, registered,
    opened, rfl⟩

/-- An init without a proc entry takes the probe away. -/
theorem unlistProbe_moves {a : Unit} (sound : Sound s) (fits : Fits s t (.loads (.stored false)))
    (answered : machine t e.core (.unlist .probe) s.module = .done a m) :
    Moves t (.module (.unlist .probe)) a (.loads (.stored false)) (s.withModule m) := by
  obtain ⟨loading, -, -, unopened, -⟩ := fits.knows
  cases answered
  refine ⟨sound.managed (congrArg Phase.owner loading) rfl rfl (owned_listing sound.owned false)
    (fun _ => (sound.closed unopened).atProbe _) fun loading => sound.whole (.inr loading),
    trivial, fits.described, loading, ?_, unopened⟩
  exact congrArg Entrance.registered (atGate_here ..)

theorem drainProbe_moves {a : Unit} (sound : Sound s) (fits : Fits s t (.loads .unlisted))
    (answered : machine t e.core (.drain .probe) s.module = .done a m) :
    Moves t (.module (.drain .probe)) a (.loads .unlisted) (s.withModule m) := by
  obtain ⟨loading, unlisted, unopened⟩ := fits.knows
  simp only [machine] at answered
  split at answered
  · rename_i empty
    cases answered
    exact ⟨sound, trivial, fits.described, loading, ⟨unlisted, empty⟩, unopened⟩
  · cases answered

/-! ### Unloading -/

theorem beginExit_moves {a : Unit} (sound : Sound s)
    (answered : loader t e .beginExit s = .done a s') : Moves t .beginExit a .outside s' := by
  simp only [loader] at answered
  split at answered
  · rename_i loaded
    cases answered
    refine ⟨⟨sound.owned, sound.closed, ?_, nofun, ?_, nofun, sound.past⟩, trivial,
      ⟨nofun, nofun, sound.whole (.inl loaded)⟩, rfl, trivial, (sound.loaded loaded).2⟩
    · rintro (loaded | ⟨t, loading⟩)
      · cases loaded
      · cases loading
    · rintro (unloaded | failed)
      · cases unloaded
      · cases failed
  · cases answered

theorem unload_moves {o : Unloading.Call} {a : o.Ans} {place : Place} (sound : Sound s)
    (fits : Fits s t (.unloads place)) (turn : Unloading.Turn o place)
    (answered : machine t e.core o s.module = .done a m) :
    Moves t (.module o) a (.unloads place) (s.withModule m) := by
  obtain ⟨unloading, exits, entry, opened⟩ := fits.knows
  have described := fits.described
  have advances : Advances t o a place m ∧ (places.next o a place).Exits := by
    cases turn with
    | enter | core _ | leave _ => exact exits.elim
    | unlist => exact ⟨unlist_own sound.owned described answered, trivial⟩
    | drain gone => exact ⟨drain_own sound.owned described gone answered, trivial⟩
    | chain waited => exact ⟨chain_own sound.owned described waited answered, trivial⟩
    | nextEntry known => exact ⟨nextEntry_own sound.owned described answered, trivial⟩
    | listDel listed => exact ⟨listDel_own sound.owned described answered, trivial⟩
    | kfree => exact ⟨kfree_own sound.owned described answered, trivial⟩
  obtain ⟨⟨owned, possible, onward⟩, exits⟩ := advances
  refine ⟨sound.managed (congrArg Phase.owner unloading) rfl rfl owned ?_ ?_, possible, onward,
    unloading, exits, entry, opened⟩
  · intro unopened
    rw [show s.opened = false from unopened] at opened
    cases opened
  · rintro ⟨t, loading⟩
    rw [unloading] at loading
    cases loading

theorem endExit_moves {a : Unit} (sound : Sound s)
    (fits : Fits s t (.unloads (.deleting [] none)))
    (answered : loader t e .endExit s = .done a s') :
    Moves t .endExit a (.unloads (.deleting [] none)) s' := by
  have deleting : Deleting s.module [] none := fits.described
  have emptied := deleting_emptied sound.owned deleting
  have ended := owned_ended sound.owned emptied
  cases answered
  refine ⟨⟨sound.owned, sound.closed, ?_, nofun, fun _ => ⟨deleting.shut, ended⟩, nofun, ?_⟩,
    trivial, ?_, trivial⟩
  · rintro (loaded | ⟨t, loading⟩)
    · cases loaded
    · cases loading
  · intro m here
    rcases List.mem_append.mp here with before | now
    · exact sound.past m before
    · exact List.mem_singleton.mp now ▸ ended
  · intro p made
    rcases sound.owned.accounted t p made with listed | gone | ⟨g, inside⟩
    · exact .inl listed
    · exact .inr (.inl gone)
    · rw [(deleting.shut g).2] at inside
      cases inside

theorem module_done {o : Unloading.Call} {a : o.Ans}
    (answered : loader t e (.module o) s = .done a s') :
    ∃ m, machine t e.core o s.module = .done a m ∧ s' = s.withModule m :=
  Outcome.mapState_eq_done.mp answered

/-- A thread's own calls keep the module sound and take the thread along its role. -/
theorem role_own {o : Call} {a : o.Ans} (sound : Sound s) (fits : Fits s t role)
    (may : May o role) (answered : loader t e o s = .done a s') : Moves t o a role s' := by
  cases may with
  | enter =>
      obtain ⟨m, made, rfl⟩ := module_done answered
      exact enter_moves sound fits made
  | core allowed acts =>
      obtain ⟨m, made, rfl⟩ := module_done answered
      exact core_moves sound fits allowed acts made
  | leave unlinked =>
      obtain ⟨m, made, rfl⟩ := module_done answered
      exact leave_moves sound fits unlinked made
  | beginInit => exact beginInit_moves sound answered
  | beginExit => exact beginExit_moves sound answered
  | registerKprobe => exact registerKprobe_moves sound fits answered
  | procCreate => exact procCreate_moves sound fits answered
  | setProcEntry => exact setProcEntry_moves sound fits answered
  | procEntry =>
      cases answered
      exact ⟨sound, fits.knows.2.2.2.2, fits⟩
  | unlist =>
      obtain ⟨m, made, rfl⟩ := module_done answered
      exact unlistProbe_moves sound fits made
  | drain =>
      obtain ⟨m, made, rfl⟩ := module_done answered
      exact drainProbe_moves sound fits made
  | fails negative => exact endInit_moves sound fits (.fails negative) answered
  | succeeds fine => exact endInit_moves sound fits (.succeeds fine) answered
  | unload turn exits =>
      obtain ⟨m, made, rfl⟩ := module_done answered
      exact unload_moves sound fits turn made
  | exitEntry =>
      cases answered
      exact ⟨sound, fits.knows.2.2.1, fits⟩
  | endExit => exact endExit_moves sound fits answered

/-! ### The calls of others -/

/-- The thread is a handler, or has not begun. -/
def Role.Visits : Role → Prop
  | .outside | .inside .. => True
  | .loads _ | .unloads _ => False

/-- Only one thread at a time loads or unloads the module. -/
theorem Fits.visits (fits : Fits s u role) (elsewhere : s.phase.owner ≠ some u) : role.Visits := by
  cases role with
  | outside | inside g r armed => trivial
  | loads k => exact absurd (congrArg Phase.owner fits.knows.1) elsewhere
  | unloads place => exact absurd (congrArg Phase.owner fits.knows.1) elsewhere

theorem Role.Visits.handler (visits : role.Visits) : ¬ role.place.Exits := by
  cases role with
  | outside | inside g r armed => exact id
  | loads k | unloads place => exact visits.elim

/-- A handler knows of the module that its proc entry was made. -/
theorem Fits.visitor (fits : Fits s u role) (visits : role.Visits)
    (described : Describes s'.module u role.place) (opened : s.opened = true → s'.opened = true) :
    Fits s' u role := by
  refine ⟨described, ?_⟩
  cases role with
  | outside => trivial
  | inside g r armed => exact fun armed => opened (fits.knows armed)
  | loads k | unloads place => exact visits.elim

/-- Listing a gate is nothing to who is inside. -/
theorem describes_listing (visits : role.Visits) (registered : Bool)
    (described : Describes m u role.place) :
    Describes (m.atGate g { m.entrance g with registered := registered }) u role.place := by
  cases role with
  | outside => exact described
  | inside g' r armed => exact reaches_atGate described id
  | loads k | unloads place => exact visits.elim

/-- What describes a handler survives the unload. -/
theorem unload_stable {o : Unloading.Call} {a : o.Ans} {place : Place} (visits : role.Visits)
    (exits : place.Exits) (described : Describes m t place) (turn : Unloading.Turn o place)
    (answered : machine t e.core o m = .done a m') (described' : Describes m u role.place) :
    Describes m' u role.place := by
  cases turn with
  | enter | core _ | leave _ => exact exits.elim
  | unlist =>
      cases answered
      exact describes_listing visits false described'
  | drain gone =>
      rw [drain_stable answered]
      exact described'
  | chain waited =>
      cases answered
      exact describes_same described' (.refl _) id
  | @nextEntry chain entry known =>
      cases entry with
      | none =>
          cases answered
          exact described'
      | some p =>
          cases onEntry_answered answered
          exact described'
  | listDel listed => exact listDel_stable described visits.handler answered described'
  | kfree =>
      cases onEntry_answered answered
      exact deleting_stable described visits.handler (fun _ placed => placed) rfl described'

/-- What describes a thread survives the calls of the others. -/
theorem role_stable {o : Call} {a : o.Ans} {role' : Role} (sound : Sound s) (other : u ≠ t)
    (fits : Fits s t role) (may : May o role) (answered : loader t e o s = .done a s')
    (fits' : Fits s u role') : Fits s' u role' := by
  have apart : s.phase.owner = some t → role'.Visits := by
    intro managed
    apply fits'.visits
    rw [managed]
    exact fun same => other (Option.some.inj same).symm
  have idle : s.phase.owner = none → role'.Visits := by
    intro idle
    apply fits'.visits
    rw [idle]
    exact (Option.some_ne_none u).symm
  cases may with
  | enter =>
      obtain ⟨m, made, rfl⟩ := module_done answered
      have described := enter_stable made fits'.described
      simp only [machine] at made
      split at made
      · rename_i registered
        cases made
        refine fits'.visited described (.atGate rfl ?_)
        rintro ⟨closed, -⟩
        rw [closed] at registered
        cases registered
      · cases made
        exact fits'
  | core allowed acts =>
      obtain ⟨m, made, rfl⟩ := module_done answered
      obtain ⟨core, ran, rfl⟩ := Outcome.mapState_eq_done.mp made
      exact fits'.visited (core_stable other fits.described allowed ran fits'.described)
        fun g => ⟨rfl, id⟩
  | leave unlinked =>
      obtain ⟨m, made, rfl⟩ := module_done answered
      have described := leave_stable other made fits'.described
      cases made
      refine fits'.visited described (.atGate rfl ?_)
      rintro ⟨-, empty⟩
      rw [empty]
      rfl
  | beginInit =>
      simp only [loader] at answered
      split at answered
      · rename_i away
        cases answered
        have visits : role'.Visits := idle (by rcases away with away | away <;> rw [away] <;> rfl)
        cases role' with
        | outside => exact ⟨fun _ made => absurd made List.not_mem_nil, trivial⟩
        | inside g r armed => exact absurd fits'.described.inside (sound.gone away).nobody
        | loads k | unloads place => exact visits.elim
      · cases answered
  | beginExit =>
      simp only [loader] at answered
      split at answered
      · rename_i loaded
        cases answered
        exact fits'.visitor (idle (congrArg Phase.owner loaded)) fits'.described id
      · cases answered
  | registerKprobe =>
      have visits := apart (congrArg Phase.owner fits.knows.1)
      cases answered
      split
      · exact fits'
      · exact fits'.visitor visits (describes_listing visits true fits'.described) id
  | procCreate =>
      have visits := apart (congrArg Phase.owner fits.knows.1)
      simp only [loader] at answered
      split at answered
      · cases answered
        exact fits'
      · cases answered
        exact fits'.visitor visits (describes_listing visits true fits'.described) fun _ => rfl
  | setProcEntry =>
      cases answered
      exact fits'.visitor (apart (congrArg Phase.owner fits.knows.1)) fits'.described id
  | procEntry | exitEntry =>
      cases answered
      exact fits'
  | unlist =>
      have visits := apart (congrArg Phase.owner fits.knows.1)
      obtain ⟨m, made, rfl⟩ := module_done answered
      cases made
      exact fits'.visitor visits (describes_listing visits false fits'.described) id
  | drain =>
      obtain ⟨m, made, rfl⟩ := module_done answered
      rw [drain_stable made]
      exact fits'
  | fails negative =>
      have visits := apart (congrArg Phase.owner fits.knows.1)
      cases answered
      rw [if_pos negative]
      exact fits'.visitor visits fits'.described id
  | succeeds fine =>
      have visits := apart (congrArg Phase.owner fits.knows.1)
      cases answered
      rw [if_neg fine]
      exact fits'.visitor visits fits'.described id
  | unload turn exits =>
      have visits := apart (congrArg Phase.owner fits.knows.1)
      obtain ⟨m, made, rfl⟩ := module_done answered
      exact fits'.visitor visits (unload_stable visits exits fits.described turn made
        fits'.described) id
  | endExit =>
      cases answered
      exact fits'.visitor (apart (congrArg Phase.owner fits.knows.1)) fits'.described id

end Calls

/-! ## Runs -/

theorem gone_unregistered : Gone unregistered where
  shut _ := ⟨rfl, rfl⟩
  ended := ⟨⟨rfl, nofun⟩, List.nodup_nil, nofun⟩

theorem sound_initial : Sound .initial where
  owned :=
    ⟨rfl, fun _ => ⟨nofun, fun h => absurd h.1 (Nat.not_lt_zero _)⟩, List.nodup_nil, nofun,
      ⟨List.nodup_nil, nofun⟩, List.prefix_rfl, nofun⟩
  closed _ := ⟨⟨rfl, rfl⟩, rfl, rfl⟩
  whole _ := rfl
  loaded := nofun
  gone _ := gone_unregistered
  failed _ := rfl
  past := nofun

theorem spawned_roles {deeds : List Deed} {thread : Thread calls LoadEnv Unit}
    (started : .spawn thread ∈ deeds.map Deed.action) :
    thread.prog.Follows roles Outside .outside := by
  obtain ⟨deed, -, same⟩ := List.mem_map.mp started
  cases deed with
  | load e =>
      cases same
      exact load_roles
  | unload e =>
      cases same
      exact unload_roles
  | write e =>
      cases same
      exact visit_roles .procEntry (commandHandler_reaches e.userBuf.length) (armed_arming _)
  | hit e regs =>
      cases same
      exact visit_roles .probe (preHandler_reaches regs) (preHandler_arming regs)
  | step t => cases same

/-- The module is sound and the role describes thread `t` in it. -/
def Stands (s : Machine) (t : Tid) (role : Role) : Prop := Sound s ∧ Fits s t role

/-- Every thread stands in a role. -/
theorem after_relies (deeds : List Deed) :
    (after deeds).Relies roles Outside Sound Stands .outside := by
  refine Pool.run_relies ?_ ?_ (fun w => nomatch w) (fun thread => spawned_roles) ?_
  · rintro t e o s a s' role sound ⟨-, fits⟩ may answered
    obtain ⟨sound, possible, fits⟩ := role_own sound fits may answered
    exact ⟨sound, possible, sound, fits⟩
  · rintro t u e o s a s' role role' other ⟨sound, fits⟩ may answered ⟨-, fits'⟩
    exact ⟨(role_own sound fits may answered).1, role_stable sound other fits may answered fits'⟩
  · exact ⟨sound_initial, nofun, fun _ _ => ⟨sound_initial, nofun, trivial⟩⟩

/-- A thread touches live entries only. -/
theorem may_live {s : Machine} {t : Tid} {role : Role} {o : Unloading.Call} {p : Ptr}
    (sound : Sound s) (fits : Fits s t role) (may : May (.module o) role)
    (touched : p ∈ o.touches s.module.core) : s.module.Live p := by
  cases may with
  | enter | leave _ | unlist | drain => cases touched
  | core allowed _ => exact reaches_live sound.owned fits.described allowed touched
  | @unload _ place turn exits =>
      have described := fits.described
      cases turn with
      | enter | core _ | leave _ => exact exits.elim
      | unlist | drain _ => cases touched
      | chain waited => exact sound.owned.live_linked touched
      | nextEntry known =>
          have listed := known p (Option.mem_toList.mp touched)
          exact sound.owned.live_linked (described.chain ▸ listed)
      | listDel listed =>
          rcases List.mem_cons.mp touched with rfl | neighbour
          · exact sound.owned.live_linked (described.chain ▸ listed)
          · exact sound.owned.live_linked neighbour
      | kfree =>
          cases List.mem_singleton.mp touched
          exact sound.owned.live_detached described.detached

/-! ## Main result -/

/-- The runs so far: no call touches an entry of the present load that is not allocated or
was freed; a load that is over has freed everything it allocated, once, and nobody is
inside the module or can come in before the next load. -/
structure LeavesNothing (c : Threads) : Prop where
  touches : ∀ t o, c.next t = some (.module o) →
    ∀ p ∈ o.touches c.shared.module.core, c.shared.module.Live p
  gone : c.shared.phase = .unloaded ∨ c.shared.phase = .failed → Gone c.shared.module
  failed : c.shared.phase = .failed → c.shared.module.entries = []
  loaded : c.shared.phase = .loaded → ∀ g, (c.shared.module.entrance g).registered = true
  past : ∀ m ∈ c.shared.past, Ended m

/-- **A load leaves nothing behind**: in every run of loads, unloads, commands and context
switches, whichever loads fail and wherever, in any order of their calls. -/
theorem loads_leave_nothing (deeds : List Deed) : LeavesNothing (after deeds) := by
  have relies := after_relies deeds
  have sound := relies.inv
  refine ⟨?_, sound.gone, ?_, fun loaded => (sound.loaded loaded).1, sound.past⟩
  · intro t o next p touched
    obtain ⟨role, ⟨-, fits⟩, may⟩ := relies.allowed next
    exact may_live sound fits may touched
  · intro failed
    rw [Unloading.Machine.entries, (sound.closed (sound.failed failed)).allocated]
    rfl

/-- A load and an unload, beside nobody. -/
example : (after (.load (.visiting .quiet) :: .unload .quiet :: (List.replicate 20 (.step 0) ++
    List.replicate 20 (.step 1)))).shared.past.length = 1 := rfl

end Dreamscape.Monitor.Lifecycle
