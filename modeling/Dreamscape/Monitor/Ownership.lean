/-
# Monitor.Ownership -- the entries of counter_list, from kmalloc to kfree

Every entry has one owner: the handler that has allocated it and not linked it yet, the
list, or the exit code that has taken it out (`Owned`).  What describes a thread at its
place is kept by its own calls (`place_own`) and survives those of the others
(`place_stable`): the mutex keeps handlers from linking beside each other, and the gates
keep them away from the deletion loop.
-/
import Dreamscape.Monitor.Reach

namespace Dreamscape.Monitor.Unloading

set_option autoImplicit false

open Theory Kernel

/-! ## Who owns an entry -/

/-- Every entry allocated is in the list, has been taken out of it, or was allocated by
somebody still inside; the freed ones are the first of those taken out. -/
structure Owned (s : Machine) : Prop where
  numbered : s.entries = List.range s.core.nextPtr
  heap : ∀ p, (s.core.heap p).isSome ↔ p < s.core.nextPtr ∧ p ∉ s.freed
  distinct : s.core.counterList.Nodup
  linked : ∀ p ∈ s.core.counterList, p < s.core.nextPtr ∧ p ∉ s.unlinked
  unlinked : s.unlinked.Nodup ∧ ∀ p ∈ s.unlinked, p < s.core.nextPtr
  freed : s.freed <+: s.unlinked
  accounted : ∀ t p, (t, p) ∈ s.allocated →
    p ∈ s.core.counterList ∨ p ∈ s.unlinked ∨ ∃ g, t ∈ (s.entrance g).inside

/-- What thread `t` has allocated has been linked, but for `new`. -/
def Settles (s : Machine) (t : Tid) (new : Option Ptr) : Prop :=
  ∀ p, (t, p) ∈ s.allocated → p ∈ s.core.counterList ∨ p ∈ s.unlinked ∨ new = some p

/-- Nobody is inside `g` or will be. -/
def Machine.Shut (s : Machine) (g : Gate) : Prop :=
  (s.entrance g).registered = false ∧ (s.entrance g).inside = []

/-- `r` is what thread `t` can reach inside `g`. -/
structure Reaches (s : Machine) (t : Tid) (g : Gate) (r : Reach) : Prop where
  inside : t ∈ (s.entrance g).inside
  known : ∀ p ∈ r.known, p < s.core.nextPtr ∧ p ∉ s.unlinked
  new : ∀ p, r.new = some p →
    p < s.core.nextPtr ∧ p ∉ s.core.counterList ∧ p ∉ s.unlinked ∧ r.owns = true
  settles : Settles s t r.new
  owns : r.owns = true → s.core.mutex = some t

/-- The exit code is closing the gates. -/
structure Closing (s : Machine) (unlisted drained : Gate → Bool) : Prop where
  unlisted : ∀ g, unlisted g = true → (s.entrance g).registered = false
  drained : ∀ g, drained g = true → s.Shut g
  whole : s.unlinked = []

/-- The exit code is deleting. -/
structure Deleting (s : Machine) (chain : List Ptr) (detached : Option Ptr) : Prop where
  shut : ∀ g, s.Shut g
  chain : s.core.counterList = chain
  detached : s.unlinked = s.freed ++ detached.toList

/-- A place of the exit code. -/
def Place.Exits : Place → Prop
  | .outside | .inside .. => False
  | .closing .. | .deleting .. => True

/-- The place describes thread `t`. -/
def Describes (s : Machine) (t : Tid) : Place → Prop
  | .outside => Settles s t none
  | .inside g r => Reaches s t g r
  | .closing unlisted drained => Closing s unlisted drained
  | .deleting chain detached => Deleting s chain detached

/-- Thread `t` stands at the place: thread 0 exits, and the others are handlers. -/
structure Stands (s : Machine) (t : Tid) (place : Place) : Prop where
  role : place.Exits ↔ t = 0
  described : Describes s t place

/-! ## The handlers' calls -/

/-- The two states have the same entries in the same places. -/
structure SameEntries (s s' : State) : Prop where
  nextPtr : s'.nextPtr = s.nextPtr
  counterList : s'.counterList = s.counterList
  heap : ∀ p, (s'.heap p).isSome = (s.heap p).isSome

theorem SameEntries.refl (s : State) : SameEntries s s := ⟨rfl, rfl, fun _ => rfl⟩

section Calls

variable {t : Tid} {e : Env} {s s' : State}

theorem storeEntry_entries (entry : Option Ptr) {f : CounterData → CounterData} {a : Unit}
    (answered : s.storeEntry entry f = .done a s') : SameEntries s s' := by
  cases entry with
  | none => cases answered
  | some p =>
      simp only [State.storeEntry, State.onEntry] at answered
      cases held : s.heap p with
      | none =>
          rw [held] at answered
          cases answered
      | some data =>
          rw [held] at answered
          cases answered
          refine ⟨rfl, rfl, fun q => ?_⟩
          by_cases same : q = p
          · subst same
            simp [held]
          · simp [same]

/-- Only `kmalloc` and `list_add` change which entries there are and where. -/
theorem kernel_entries {o : Op} {a : o.Ans} (allocates : o ≠ .kmalloc)
    (links : ∀ q, o ≠ .listAdd q) (answered : kernel t e o s = .done a s') : SameEntries s s' := by
  cases o with
  | kmalloc => exact absurd rfl allocates
  | listAdd q => exact absurd rfl (links q)
  | addCounter entry i v => exact storeEntry_entries (some entry) answered
  | setEntryPc entry pc => exact storeEntry_entries entry answered
  | setEntryCounters entry values => exact storeEntry_entries entry answered
  | mutexLock =>
      obtain ⟨-, rfl⟩ := kernel_mutexLock answered
      exact ⟨rfl, rfl, fun _ => rfl⟩
  | mutexUnlock =>
      obtain ⟨-, rfl⟩ := kernel_mutexUnlock answered
      exact ⟨rfl, rfl, fun _ => rfl⟩
  | perfEventCreateKernelCounter attr cpu task =>
      rcases kernel_create answered with ⟨err, -, rfl⟩ | ⟨ev, -, -, rfl⟩
      · exact ⟨rfl, rfl, fun _ => rfl⟩
      · exact ⟨rfl, rfl, fun _ => rfl⟩
  | filpOpen _ | filpClose _ | setFs _ | setFPos _ _ | fOpWrite _ _ =>
      obtain ⟨_, _, _, _, rfl⟩ := kernel_onFiles answered trivial
      exact ⟨rfl, rfl, fun _ => rfl⟩
  | setTargetPid _ | perfEventReleaseKernel _ =>
      cases answered
      exact ⟨rfl, rfl, fun _ => rfl⟩
  | _ =>
      obtain rfl := kernel_reads answered trivial
      exact .refl _

theorem kernel_kmalloc {a : Option Ptr} (answered : kernel t e .kmalloc s = .done a s') :
    (a = none ∧ s' = s) ∨ (a = some s.nextPtr ∧
      s' = { s with
        heap := Function.update s.heap s.nextPtr (some e.slab)
        nextPtr := s.nextPtr + 1 }) := by
  simp only [kernel] at answered
  split at answered
  · cases answered
    exact Or.inl ⟨rfl, rfl⟩
  · cases answered
    exact Or.inr ⟨rfl, rfl⟩

theorem kernel_listAdd {q : Option Ptr} {a : Unit}
    (answered : kernel t e (.listAdd q) s = .done a s') :
    ∃ p, q = some p ∧ s' = { s with counterList := p :: s.counterList } := by
  cases q with
  | none => cases answered
  | some p =>
      cases answered
      exact ⟨p, rfl, rfl⟩

/-- Who holds the mutex keeps it through the calls of others. -/
theorem kernel_mutex_apart {u : Tid} {o : Op} {a : o.Ans} (other : u ≠ t)
    (answered : kernel t e o s = .done a s') (held : s.mutex = some u) : s'.mutex = some u := by
  rcases op_cases o with plain | rfl | rfl | ⟨attr, cpu, task, rfl⟩ | ⟨ev, rfl⟩
  · exact (kernel_plain plain answered).mutex.trans held
  · obtain ⟨free, -⟩ := kernel_mutexLock answered
    rw [free] at held
    cases held
  · obtain ⟨own, -⟩ := kernel_mutexUnlock answered
    rw [own] at held
    exact absurd (Option.some.inj held).symm other
  · rcases kernel_create answered with ⟨err, -, rfl⟩ | ⟨ev, -, -, rfl⟩
    · exact held
    · exact held
  · rw [kernel_release answered]
    exact held

/-- A thread that does not unlock keeps the mutex. -/
theorem kernel_mutex_own {o : Op} {a : o.Ans} (locked : o ≠ .mutexUnlock)
    (answered : kernel t e o s = .done a s') (held : s.mutex = some t) : s'.mutex = some t := by
  rcases op_cases o with plain | rfl | rfl | ⟨attr, cpu, task, rfl⟩ | ⟨ev, rfl⟩
  · exact (kernel_plain plain answered).mutex.trans held
  · obtain ⟨-, rfl⟩ := kernel_mutexLock answered
    rfl
  · exact absurd rfl locked
  · rcases kernel_create answered with ⟨err, -, rfl⟩ | ⟨ev, -, -, rfl⟩
    · exact held
    · exact held
  · rw [kernel_release answered]
    exact held

end Calls

/-! ## What one call keeps -/

/-- An entry that was linked once is in the list or was taken out of it. -/
def Machine.Placed (s : Machine) (p : Ptr) : Prop := p ∈ s.core.counterList ∨ p ∈ s.unlinked

section Steps

variable {s s' : Machine} {t u : Tid} {e : Env} {core : State} {g : Gate} {r : Reach}

theorem Settles.mono {new : Option Ptr} (settles : Settles s t new)
    (allocated : ∀ p, (t, p) ∈ s'.allocated → (t, p) ∈ s.allocated)
    (kept : ∀ p, s.Placed p → s'.Placed p) : Settles s' t new := by
  intro p made
  rcases settles p (allocated p made) with listed | gone | new
  · rcases kept p (Or.inl listed) with listed | gone
    · exact Or.inl listed
    · exact Or.inr (Or.inl gone)
  · rcases kept p (Or.inr gone) with listed | gone
    · exact Or.inl listed
    · exact Or.inr (Or.inl gone)
  · exact Or.inr (Or.inr new)

theorem Settles.placed (settles : Settles s t none) {p : Ptr} (made : (t, p) ∈ s.allocated) :
    s.Placed p := by
  rcases settles p made with listed | gone | new
  · exact Or.inl listed
  · exact Or.inr gone
  · cases new

/-! ### Calls that move no entry -/

theorem withCore_same (same : SameEntries s.core core) :
    s.withCore t core = { s with core := core } := by
  simp [Machine.withCore, same.nextPtr]

theorem owned_same (owned : Owned s) (same : SameEntries s.core core) :
    Owned (s.withCore t core) := by
  rw [withCore_same same]
  obtain ⟨nextPtr, counterList, heap⟩ := same
  refine ⟨?_, ?_, ?_, ?_, ?_, owned.freed, ?_⟩
  · show s.entries = List.range core.nextPtr
    rw [nextPtr]
    exact owned.numbered
  · intro p
    show (core.heap p).isSome ↔ p < core.nextPtr ∧ p ∉ s.freed
    rw [heap, nextPtr]
    exact owned.heap p
  · show core.counterList.Nodup
    rw [counterList]
    exact owned.distinct
  · show ∀ p ∈ core.counterList, p < core.nextPtr ∧ p ∉ s.unlinked
    rw [counterList, nextPtr]
    exact owned.linked
  · show s.unlinked.Nodup ∧ ∀ p ∈ s.unlinked, p < core.nextPtr
    rw [nextPtr]
    exact owned.unlinked
  · show ∀ t p, (t, p) ∈ s.allocated →
      p ∈ core.counterList ∨ p ∈ s.unlinked ∨ ∃ g, t ∈ (s.entrance g).inside
    rw [counterList]
    exact owned.accounted

theorem reaches_same (reach : Reaches s u g r) (same : SameEntries s.core core)
    (mutex : r.owns = true → core.mutex = some u) : Reaches (s.withCore t core) u g r := by
  rw [withCore_same same]
  refine ⟨reach.inside, ?_, ?_, ?_, mutex⟩
  · show ∀ p ∈ r.known, p < core.nextPtr ∧ p ∉ s.unlinked
    rw [same.nextPtr]
    exact reach.known
  · show ∀ p, r.new = some p →
      p < core.nextPtr ∧ p ∉ core.counterList ∧ p ∉ s.unlinked ∧ r.owns = true
    rw [same.nextPtr, same.counterList]
    exact reach.new
  · show ∀ p, (u, p) ∈ s.allocated → p ∈ core.counterList ∨ p ∈ s.unlinked ∨ r.new = some p
    rw [same.counterList]
    exact reach.settles

theorem describes_same {place : Place} (describes : Describes s u place)
    (same : SameEntries s.core core) (mutex : s.core.mutex = some u → core.mutex = some u) :
    Describes (s.withCore t core) u place := by
  cases place with
  | outside =>
      rw [withCore_same same]
      show ∀ p, (u, p) ∈ s.allocated → p ∈ core.counterList ∨ p ∈ s.unlinked ∨ none = some p
      rw [same.counterList]
      exact describes
  | inside g r => exact reaches_same describes same fun owns => mutex (Reaches.owns describes owns)
  | closing unlisted drained =>
      rw [withCore_same same]
      exact ⟨describes.unlisted, describes.drained, describes.whole⟩
  | deleting chain detached =>
      rw [withCore_same same]
      exact ⟨describes.shut, same.counterList.trans describes.chain, describes.detached⟩

/-! ### Allocation -/

/-- The handlers' state after `kmalloc` has handed out a block. -/
def allocating (s : Machine) (e : Env) : State :=
  { s.core with
    heap := Function.update s.core.heap s.core.nextPtr (some e.slab)
    nextPtr := s.core.nextPtr + 1 }

theorem withCore_allocating : (s.withCore t (allocating s e)).allocated =
    s.allocated ++ [(t, s.core.nextPtr)] := by
  simp [Machine.withCore, allocating]

theorem Owned.freed_bound (owned : Owned s) {p : Ptr} (gone : p ∈ s.freed) : p < s.core.nextPtr :=
  owned.unlinked.2 p (owned.freed.subset gone)

theorem owned_allocating (owned : Owned s) (inside : t ∈ (s.entrance g).inside) :
    Owned (s.withCore t (allocating s e)) := by
  refine ⟨?_, ?_, owned.distinct, ?_, ?_, owned.freed, ?_⟩
  · show (s.withCore t (allocating s e)).allocated.map Prod.snd = List.range (s.core.nextPtr + 1)
    rw [withCore_allocating, List.map_append, List.range_succ]
    exact congrArg (· ++ [s.core.nextPtr]) owned.numbered
  · intro p
    show (Function.update s.core.heap s.core.nextPtr (some e.slab) p).isSome ↔
      p < s.core.nextPtr + 1 ∧ p ∉ s.freed
    by_cases new : p = s.core.nextPtr
    · subst new
      rw [Function.update_self]
      refine ⟨fun _ => ⟨Nat.lt_succ_self _, fun gone => ?_⟩, fun _ => rfl⟩
      exact Nat.lt_irrefl _ (owned.freed_bound gone)
    · rw [Function.update_of_ne new, owned.heap p]
      have bound : p < s.core.nextPtr + 1 ↔ p < s.core.nextPtr :=
        ⟨fun low => Nat.lt_of_le_of_ne (Nat.le_of_lt_succ low) new, Nat.lt_succ_of_lt⟩
      rw [bound]
  · intro p listed
    obtain ⟨bound, kept⟩ := owned.linked p listed
    exact ⟨Nat.lt_succ_of_lt bound, kept⟩
  · exact ⟨owned.unlinked.1, fun p gone => Nat.lt_succ_of_lt (owned.unlinked.2 p gone)⟩
  · intro maker p made
    rw [withCore_allocating] at made
    rcases List.mem_append.mp made with before | now
    · exact owned.accounted maker p before
    · cases List.mem_singleton.mp now
      exact Or.inr (Or.inr ⟨g, inside⟩)

theorem reaches_allocating (owned : Owned s) (reach : Reaches s t g r) (owns : r.owns = true)
    (unlinked : r.new = none) :
    Reaches (s.withCore t (allocating s e)) t g
      { r with known := s.core.nextPtr :: r.known, new := some s.core.nextPtr } where
  inside := reach.inside
  known := by
    intro p known
    rcases List.mem_cons.mp known with rfl | known
    · exact ⟨Nat.lt_succ_self _, fun gone => Nat.lt_irrefl _ (owned.unlinked.2 _ gone)⟩
    · obtain ⟨bound, kept⟩ := reach.known p known
      exact ⟨Nat.lt_succ_of_lt bound, kept⟩
  new := by
    rintro _ ⟨⟩
    exact ⟨Nat.lt_succ_self _, fun listed => Nat.lt_irrefl _ (owned.linked _ listed).1,
      fun gone => Nat.lt_irrefl _ (owned.unlinked.2 _ gone), owns⟩
  settles := by
    intro p made
    rw [withCore_allocating] at made
    rcases List.mem_append.mp made with before | now
    · rcases reach.settles p before with listed | gone | new
      · exact Or.inl listed
      · exact Or.inr (Or.inl gone)
      · rw [unlinked] at new
        cases new
    · cases List.mem_singleton.mp now
      exact Or.inr (Or.inr rfl)
  owns := reach.owns

/-- What others have allocated is as before. -/
theorem allocated_apart (other : u ≠ t) {p : Ptr}
    (made : (u, p) ∈ (s.withCore t (allocating s e)).allocated) : (u, p) ∈ s.allocated := by
  rw [withCore_allocating] at made
  rcases List.mem_append.mp made with before | now
  · exact before
  · cases List.mem_singleton.mp now
    exact absurd rfl other

/-! ### Linking -/

/-- The handlers' state after `list_add`. -/
def linking (s : Machine) (p : Ptr) : State :=
  { s.core with counterList := p :: s.core.counterList }

theorem withCore_linking (p : Ptr) :
    s.withCore t (linking s p) = { s with core := linking s p } := by
  simp [Machine.withCore, linking]

theorem owned_linking (owned : Owned s) {p : Ptr} (bound : p < s.core.nextPtr)
    (unlisted : p ∉ s.core.counterList) (kept : p ∉ s.unlinked) :
    Owned (s.withCore t (linking s p)) := by
  rw [withCore_linking]
  refine ⟨owned.numbered, owned.heap, List.nodup_cons.mpr ⟨unlisted, owned.distinct⟩, ?_,
    owned.unlinked, owned.freed, ?_⟩
  · intro q listed
    rcases List.mem_cons.mp listed with rfl | listed
    · exact ⟨bound, kept⟩
    · exact owned.linked q listed
  · intro maker q made
    rcases owned.accounted maker q made with listed | rest
    · exact Or.inl (List.mem_cons_of_mem p listed)
    · exact Or.inr rest

theorem placed_linking (p : Ptr) {q : Ptr} (placed : s.Placed q) :
    Machine.Placed { s with core := linking s p } q := by
  rcases placed with listed | gone
  · exact Or.inl (List.mem_cons_of_mem p listed)
  · exact Or.inr gone

theorem reaches_linking (reach : Reaches s t g r) {p : Ptr} (new : r.new = some p) :
    Reaches (s.withCore t (linking s p)) t g { r with new := none } := by
  rw [withCore_linking]
  refine ⟨reach.inside, reach.known, nofun, ?_, reach.owns⟩
  intro q made
  rcases reach.settles q made with listed | gone | own
  · exact Or.inl (List.mem_cons_of_mem p listed)
  · exact Or.inr (Or.inl gone)
  · rw [new] at own
    cases own
    exact Or.inl List.mem_cons_self

/-! ### Gates -/

theorem atGate_here (s : Machine) (g : Gate) (entrance : Entrance) :
    (s.atGate g entrance).entrance g = entrance := Function.update_self ..

theorem atGate_there {g' : Gate} (other : g' ≠ g) (entrance : Entrance) :
    (s.atGate g entrance).entrance g' = s.entrance g' := Function.update_of_ne other ..

/-- A change at a gate is a matter of who is inside. -/
theorem owned_atGate (owned : Owned s) {entrance : Entrance}
    (accounted : ∀ u p, (u, p) ∈ s.allocated → u ∈ (s.entrance g).inside →
      u ∈ entrance.inside ∨ s.Placed p) : Owned (s.atGate g entrance) := by
  refine ⟨owned.numbered, owned.heap, owned.distinct, owned.linked, owned.unlinked, owned.freed, ?_⟩
  intro u p made
  rcases owned.accounted u p made with listed | gone | ⟨g', inside⟩
  · exact Or.inl listed
  · exact Or.inr (Or.inl gone)
  · by_cases here : g' = g
    · subst here
      rcases accounted u p made inside with inside | listed | gone
      · exact Or.inr (Or.inr ⟨g', by rwa [atGate_here]⟩)
      · exact Or.inl listed
      · exact Or.inr (Or.inl gone)
    · exact Or.inr (Or.inr ⟨g', by rwa [atGate_there here]⟩)

theorem reaches_atGate {g' : Gate} {entrance : Entrance} (reach : Reaches s u g' r)
    (inside : u ∈ (s.entrance g).inside → u ∈ entrance.inside) :
    Reaches (s.atGate g entrance) u g' r := by
  refine ⟨?_, reach.known, reach.new, reach.settles, reach.owns⟩
  by_cases here : g' = g
  · subst here
    rw [atGate_here]
    exact inside reach.inside
  · rw [atGate_there here]
    exact reach.inside

theorem shut_atGate {g' : Gate} {entrance : Entrance} (shut : s.Shut g')
    (kept : s.Shut g → entrance.registered = false ∧ entrance.inside = []) :
    (s.atGate g entrance).Shut g' := by
  by_cases here : g' = g
  · subst here
    rw [Machine.Shut, atGate_here]
    exact kept shut
  · rw [Machine.Shut, atGate_there here]
    exact shut

/-- What describes a thread survives a change at a gate that keeps it inside, and keeps the
gate shut. -/
theorem describes_atGate {place : Place} {entrance : Entrance} (describes : Describes s u place)
    (inside : u ∈ (s.entrance g).inside → u ∈ entrance.inside)
    (unlisted : (s.entrance g).registered = false → entrance.registered = false)
    (kept : s.Shut g → entrance.registered = false ∧ entrance.inside = []) :
    Describes (s.atGate g entrance) u place := by
  cases place with
  | outside => exact describes
  | inside g' r => exact reaches_atGate describes inside
  | closing known drained =>
      refine ⟨?_, fun g' gone => shut_atGate (describes.drained g' gone) kept,
        describes.whole⟩
      intro g' gone
      by_cases here : g' = g
      · subst here
        rw [atGate_here]
        exact unlisted (describes.unlisted g' gone)
      · rw [atGate_there here]
        exact describes.unlisted g' gone
  | deleting chain detached =>
      exact ⟨fun g' => shut_atGate (describes.shut g') kept, describes.chain, describes.detached⟩

/-! ### Deleting -/

/-- The machine after `list_del`. -/
def unlinking (s : Machine) (p : Ptr) : Machine :=
  { s with
    core := { s.core with counterList := s.core.counterList.erase p }
    unlinked := s.unlinked ++ [p] }

/-- The machine after `kfree`. -/
def freeing (s : Machine) (p : Ptr) : Machine :=
  { s with
    core := { s.core with heap := Function.update s.core.heap p none }
    freed := s.freed ++ [p] }

theorem placed_unlinking (p : Ptr) {q : Ptr} (placed : s.Placed q) : (unlinking s p).Placed q := by
  rcases placed with listed | gone
  · by_cases same : q = p
    · exact Or.inr (List.mem_append_right _ (List.mem_singleton.mpr same))
    · exact Or.inl ((List.mem_erase_of_ne same).mpr listed)
  · exact Or.inr (List.mem_append_left _ gone)

theorem owned_unlinking (owned : Owned s) {p : Ptr} (listed : p ∈ s.core.counterList) :
    Owned (unlinking s p) := by
  obtain ⟨bound, kept⟩ := owned.linked p listed
  refine ⟨owned.numbered, owned.heap, owned.distinct.erase p, ?_, ⟨?_, ?_⟩,
    owned.freed.trans (List.prefix_append _ _), ?_⟩
  · intro q there
    obtain ⟨bound', kept'⟩ := owned.linked q (List.mem_of_mem_erase there)
    refine ⟨bound', fun gone => ?_⟩
    rcases List.mem_append.mp gone with before | now
    · exact kept' before
    · rw [List.mem_singleton.mp now] at there
      exact owned.distinct.not_mem_erase there
  · refine List.nodup_append.mpr ⟨owned.unlinked.1, List.nodup_singleton p, ?_⟩
    intro q gone q' here same
    rw [List.mem_singleton.mp here] at same
    exact kept (same ▸ gone)
  · intro q gone
    rcases List.mem_append.mp gone with before | now
    · exact owned.unlinked.2 q before
    · rw [List.mem_singleton.mp now]
      exact bound
  · intro maker q made
    rcases owned.accounted maker q made with there | gone | inside
    · rcases placed_unlinking p (Or.inl there) with there | gone
      · exact Or.inl there
      · exact Or.inr (Or.inl gone)
    · exact Or.inr (Or.inl (List.mem_append_left _ gone))
    · exact Or.inr (Or.inr inside)

theorem owned_freeing (owned : Owned s) {p : Ptr} (last : s.unlinked = s.freed ++ [p]) :
    Owned (freeing s p) := by
  refine ⟨owned.numbered, ?_, owned.distinct, owned.linked, owned.unlinked, ?_, owned.accounted⟩
  · intro q
    show (Function.update s.core.heap p none q).isSome ↔ q < s.core.nextPtr ∧ q ∉ s.freed ++ [p]
    by_cases same : q = p
    · subst same
      simp
    · rw [Function.update_of_ne same, owned.heap q]
      simp [same]
  · show s.freed ++ [p] <+: s.unlinked
    rw [last]

/-! ### The thread's own call -/

theorem core_own {o : Op} {a : o.Ans} (owned : Owned s) (reach : Reaches s t g r)
    (allowed : reaches.allowed o r) (answered : kernel t e o s.core = .done a core) :
    Owned (s.withCore t core) ∧ Reaches (s.withCore t core) t g (reaches.next o a r) := by
  cases o with
  | kmalloc =>
      rcases kernel_kmalloc answered with ⟨rfl, rfl⟩ | ⟨rfl, rfl⟩
      · exact ⟨owned_same owned (.refl _), reaches_same reach (.refl _) reach.owns⟩
      · exact ⟨owned_allocating owned reach.inside,
          reaches_allocating owned reach allowed.1 allowed.2⟩
  | listAdd q =>
      obtain ⟨p, rfl, rfl⟩ := kernel_listAdd answered
      obtain ⟨bound, unlisted, kept, -⟩ := reach.new p (allowed.2 p rfl)
      exact ⟨owned_linking owned bound unlisted kept, reaches_linking reach (allowed.2 p rfl)⟩
  | counterList =>
      cases answered
      obtain ⟨inside, known, new, settles, owns⟩ := reaches_same (t := t) reach (.refl _) reach.owns
      refine ⟨owned_same owned (.refl _), inside, ?_, new, settles, owns⟩
      intro p found
      rcases List.mem_append.mp found with listed | found
      · exact owned.linked p listed
      · exact known p found
  | mutexLock =>
      have same : SameEntries s.core core := kernel_entries (by nofun) (by nofun) answered
      obtain ⟨-, rfl⟩ := kernel_mutexLock answered
      obtain ⟨inside, known, new, settles, -⟩ := reaches_same (t := t) reach same fun _ => rfl
      refine ⟨owned_same owned same, inside, known, ?_, settles, fun _ => rfl⟩
      intro p is
      obtain ⟨bound, unlisted, kept, -⟩ := new p is
      exact ⟨bound, unlisted, kept, rfl⟩
  | mutexUnlock =>
      have same : SameEntries s.core core := kernel_entries (by nofun) (by nofun) answered
      have unlinked : r.new = none := allowed
      have released : Reaches s t g { r with owns := false } := by
        refine ⟨reach.inside, reach.known, ?_, reach.settles, nofun⟩
        intro p is
        rw [unlinked] at is
        cases is
      exact ⟨owned_same owned same, reaches_same released same nofun⟩
  | _ =>
      have same : SameEntries s.core core := kernel_entries (by nofun) (by nofun) answered
      exact ⟨owned_same owned same, reaches_same reach same fun owns =>
        kernel_mutex_own (by nofun) answered (reach.owns owns)⟩

/-- A thread keeps its role. -/
theorem places_role {o : Call} {a : o.Ans} {place : Place} (allowed : places.allowed o place) :
    (places.next o a place).Exits ↔ place.Exits := by
  cases turn_of_allowed allowed with
  | enter => cases a <;> exact Iff.rfl
  | _ => exact Iff.rfl

/-- What a call of a thread makes of the machine and of what describes the thread. -/
def Advances (t : Tid) (o : Call) (a : o.Ans) (place : Place) (s' : Machine) : Prop :=
  Owned s' ∧ places.possible o a place ∧ Describes s' t (places.next o a place)

theorem enter_own {a : Bool} (owned : Owned s) (settles : Settles s t none)
    (answered : machine t e (.enter g) s = .done a s') : Advances t (.enter g) a .outside s' := by
  simp only [machine] at answered
  split at answered
  · cases answered
    refine ⟨owned_atGate owned ?_, trivial, ?_⟩
    · intro u p _ inside
      exact Or.inl (List.mem_cons_of_mem t inside)
    · refine ⟨?_, nofun, nofun, settles, nofun⟩
      rw [atGate_here]
      exact List.mem_cons_self
  · cases answered
    exact ⟨owned, trivial, settles⟩

theorem leave_own {a : Unit} (owned : Owned s) (reach : Reaches s t g r) (unlinked : r.new = none)
    (answered : machine t e (.leave g) s = .done a s') :
    Advances t (.leave g) a (.inside g r) s' := by
  cases answered
  have settles : Settles s t none := unlinked ▸ reach.settles
  refine ⟨owned_atGate owned ?_, trivial, settles⟩
  intro u p made inside
  by_cases self : u = t
  · subst self
    exact Or.inr (settles.placed made)
  · exact Or.inl ((List.mem_erase_of_ne self).mpr inside)

theorem unlist_own {a : Unit} {unlisted drained : Gate → Bool} (owned : Owned s)
    (closing : Closing s unlisted drained) (answered : machine t e (.unlist g) s = .done a s') :
    Advances t (.unlist g) a (.closing unlisted drained) s' := by
  cases answered
  refine ⟨owned_atGate owned fun _ _ _ inside => Or.inl inside, trivial, ?_, ?_, closing.whole⟩
  · intro g' gone
    by_cases here : g' = g
    · subst here
      rw [atGate_here]
    · rw [atGate_there here]
      exact closing.unlisted g' ((Function.update_of_ne here ..).symm.trans gone)
  · intro g' gone
    exact shut_atGate (closing.drained g' gone) fun shut => ⟨rfl, shut.2⟩

theorem drain_own {a : Unit} {unlisted drained : Gate → Bool} (owned : Owned s)
    (closing : Closing s unlisted drained) (gone : unlisted g = true)
    (answered : machine t e (.drain g) s = .done a s') :
    Advances t (.drain g) a (.closing unlisted drained) s' := by
  simp only [machine] at answered
  split at answered
  · rename_i empty
    cases answered
    refine ⟨owned, trivial, closing.unlisted, ?_, closing.whole⟩
    intro g' waited
    by_cases here : g' = g
    · subst here
      exact ⟨closing.unlisted g' gone, empty⟩
    · exact closing.drained g' ((Function.update_of_ne here ..).symm.trans waited)
  · cases answered

/-- The exit code finds the whole list. -/
theorem chain_own {a : List Ptr} {unlisted drained : Gate → Bool} (owned : Owned s)
    (closing : Closing s unlisted drained) (waited : ∀ g, drained g = true)
    (answered : machine t e (.core .counterList) s = .done a s') :
    Advances t (.core .counterList) a (.closing unlisted drained) s' := by
  cases answered
  refine ⟨owned_same owned (.refl _), trivial, ?_⟩
  rw [withCore_same (.refl _)]
  refine ⟨fun g => closing.drained g (waited g), rfl, ?_⟩
  have none : s.freed <+: [] := closing.whole ▸ owned.freed
  show s.unlinked = s.freed ++ []
  rw [closing.whole, List.prefix_nil.mp none]
  rfl

theorem onEntry_answered {α : Type} {p : Ptr} {x : Outcome Fault Machine α} {a : α}
    (answered : s.onEntry p x = .done a s') : x = .done a s' := by
  unfold Machine.onEntry at answered
  split at answered
  · cases answered
  · exact answered

theorem nextEntry_own {a : Option Ptr} {chain : List Ptr} {entry : Option Ptr} (owned : Owned s)
    (deleting : Deleting s chain none) (answered : machine t e (.nextEntry entry) s = .done a s') :
    Advances t (.nextEntry entry) a (.deleting chain none) s' := by
  cases entry with
  | none =>
      cases answered
      exact ⟨owned, congrArg List.head? deleting.chain, deleting⟩
  | some p =>
      cases onEntry_answered answered
      exact ⟨owned, congrArg (successor · p) deleting.chain, deleting⟩

theorem listDel_own {a : Unit} {chain : List Ptr} {p : Ptr} (owned : Owned s)
    (deleting : Deleting s chain none) (answered : machine t e (.listDel p) s = .done a s') :
    Advances t (.listDel p) a (.deleting chain none) s' := by
  have unlinked := onEntry_answered answered
  split at unlinked
  · rename_i listed
    cases unlinked
    refine ⟨owned_unlinking owned listed, trivial, deleting.shut, ?_, ?_⟩
    · exact congrArg (List.erase · p) deleting.chain
    · show s.unlinked ++ [p] = s.freed ++ [p]
      rw [deleting.detached]
      simp
  · cases unlinked

theorem kfree_own {a : Unit} {chain : List Ptr} {p : Ptr} (owned : Owned s)
    (deleting : Deleting s chain (some p)) (answered : machine t e (.kfree p) s = .done a s') :
    Advances t (.kfree p) a (.deleting chain (some p)) s' := by
  cases onEntry_answered answered
  refine ⟨owned_freeing owned deleting.detached, trivial, deleting.shut, deleting.chain, ?_⟩
  show s.unlinked = (s.freed ++ [p]) ++ []
  rw [deleting.detached, List.append_nil]
  rfl

/-- A thread's own calls keep the ownership, and take the thread along the protocol. -/
theorem place_own {o : Call} {a : o.Ans} {place : Place} (owned : Owned s)
    (stands : Stands s t place) (allowed : places.allowed o place)
    (answered : machine t e o s = .done a s') :
    Owned s' ∧ places.possible o a place ∧ Stands s' t (places.next o a place) := by
  have advances : Advances t o a place s' := by
    obtain ⟨-, described⟩ := stands
    cases turn_of_allowed allowed with
    | enter => exact enter_own owned described answered
    | core allowed =>
        obtain ⟨core, made, rfl⟩ := Outcome.mapState_eq_done.mp answered
        obtain ⟨owned, reach⟩ := core_own owned described allowed made
        exact ⟨owned, trivial, reach⟩
    | leave unlinked => exact leave_own owned described unlinked answered
    | unlist => exact unlist_own owned described answered
    | drain gone => exact drain_own owned described gone answered
    | chain waited => exact chain_own owned described waited answered
    | nextEntry known => exact nextEntry_own owned described answered
    | listDel listed => exact listDel_own owned described answered
    | kfree => exact kfree_own owned described answered
  obtain ⟨owned, possible, described⟩ := advances
  exact ⟨owned, possible, (places_role allowed).trans stands.role, described⟩

/-! ### The calls of others -/

theorem describes_allocating {place : Place} (other : u ≠ t) (described : Describes s u place) :
    Describes (s.withCore t (allocating s e)) u place := by
  have settled : ∀ {new}, Settles s u new → Settles (s.withCore t (allocating s e)) u new :=
    fun settles => settles.mono (fun _ => allocated_apart other) fun _ placed => placed
  cases place with
  | outside => exact settled described
  | inside g r =>
      refine ⟨described.inside, ?_, ?_, settled described.settles, described.owns⟩
      · intro p known
        obtain ⟨bound, kept⟩ := described.known p known
        exact ⟨Nat.lt_succ_of_lt bound, kept⟩
      · intro p new
        obtain ⟨bound, rest⟩ := described.new p new
        exact ⟨Nat.lt_succ_of_lt bound, rest⟩
  | closing unlisted drained => exact ⟨described.unlisted, described.drained, described.whole⟩
  | deleting chain detached => exact ⟨described.shut, described.chain, described.detached⟩

/-- Who holds the mutex links alone, and nobody deletes while somebody is inside. -/
theorem describes_linking {place : Place} (p : Ptr) (alone : s.core.mutex ≠ some u)
    (inside : t ∈ (s.entrance g).inside) (described : Describes s u place) :
    Describes (s.withCore t (linking s p)) u place := by
  rw [withCore_linking]
  have settled : ∀ {new}, Settles s u new → Settles { s with core := linking s p } u new :=
    fun settles => settles.mono (fun _ made => made) fun _ => placed_linking p
  cases place with
  | outside => exact settled described
  | inside g' r =>
      refine ⟨described.inside, described.known, ?_, settled described.settles, described.owns⟩
      intro q new
      obtain ⟨-, -, -, owns⟩ := described.new q new
      exact absurd (described.owns owns) alone
  | closing unlisted drained => exact ⟨described.unlisted, described.drained, described.whole⟩
  | deleting chain detached =>
      obtain ⟨-, empty⟩ := described.shut g
      rw [empty] at inside
      cases inside

theorem core_stable {o : Op} {a : o.Ans} {place : Place} (other : u ≠ t) (reach : Reaches s t g r)
    (allowed : reaches.allowed o r) (answered : kernel t e o s.core = .done a core)
    (described : Describes s u place) : Describes (s.withCore t core) u place := by
  cases o with
  | kmalloc =>
      rcases kernel_kmalloc answered with ⟨-, rfl⟩ | ⟨-, rfl⟩
      · exact describes_same described (.refl _) id
      · exact describes_allocating other described
  | listAdd q =>
      obtain ⟨p, -, rfl⟩ := kernel_listAdd answered
      refine describes_linking p ?_ reach.inside described
      rw [reach.owns allowed.1]
      exact fun same => other (Option.some.inj same).symm
  | _ =>
      have same : SameEntries s.core core := kernel_entries (by nofun) (by nofun) answered
      exact describes_same described same (kernel_mutex_apart other answered)

theorem enter_stable {a : Bool} {place : Place} (answered : machine t e (.enter g) s = .done a s')
    (described : Describes s u place) : Describes s' u place := by
  simp only [machine] at answered
  split at answered
  · rename_i registered
    cases answered
    refine describes_atGate described (List.mem_cons_of_mem t) id ?_
    rintro ⟨closed, -⟩
    rw [registered] at closed
    cases closed
  · cases answered
    exact described

theorem leave_stable {a : Unit} {place : Place} (other : u ≠ t)
    (answered : machine t e (.leave g) s = .done a s') (described : Describes s u place) :
    Describes s' u place := by
  cases answered
  refine describes_atGate described (List.mem_erase_of_ne other).mpr id ?_
  rintro ⟨closed, empty⟩
  refine ⟨closed, ?_⟩
  show (s.entrance g).inside.erase t = []
  rw [empty]
  rfl

theorem drain_stable {a : Unit} (answered : machine t e (.drain g) s = .done a s') : s' = s := by
  simp only [machine] at answered
  split at answered
  · cases answered
    rfl
  · cases answered

/-- While the entries are deleted the handlers are outside. -/
theorem deleting_stable {chain : List Ptr} {detached : Option Ptr} {place : Place}
    (deleting : Deleting s chain detached) (handler : ¬ place.Exits)
    (placed : ∀ p, s.Placed p → s'.Placed p) (allocated : s'.allocated = s.allocated)
    (described : Describes s u place) : Describes s' u place := by
  cases place with
  | outside => exact Settles.mono described (fun _ made => allocated ▸ made) placed
  | inside g r =>
      obtain ⟨-, empty⟩ := deleting.shut g
      have inside := described.inside
      rw [empty] at inside
      cases inside
  | closing unlisted drained => exact absurd trivial handler
  | deleting chain detached => exact absurd trivial handler

theorem listDel_stable {a : Unit} {chain : List Ptr} {p : Ptr} {place : Place}
    (deleting : Deleting s chain none) (handler : ¬ place.Exits)
    (answered : machine t e (.listDel p) s = .done a s') (described : Describes s u place) :
    Describes s' u place := by
  have unlinked := onEntry_answered answered
  split at unlinked
  · cases unlinked
    exact deleting_stable deleting handler (fun _ => placed_unlinking p) rfl described
  · cases unlinked

/-- What describes a thread survives the calls of the others. -/
theorem place_stable {o : Call} {a : o.Ans} {place place' : Place} (other : u ≠ t)
    (stands : Stands s t place) (allowed : places.allowed o place)
    (answered : machine t e o s = .done a s') (stands' : Stands s u place') :
    Stands s' u place' := by
  obtain ⟨role', described'⟩ := stands'
  refine ⟨role', ?_⟩
  obtain ⟨role, described⟩ := stands
  have handler : place.Exits → ¬ place'.Exits := fun exits exits' =>
    other ((role'.mp exits').trans (role.mp exits).symm)
  cases turn_of_allowed allowed with
  | enter => exact enter_stable answered described'
  | core allowed =>
      obtain ⟨core, made, rfl⟩ := Outcome.mapState_eq_done.mp answered
      exact core_stable other described allowed made described'
  | leave unlinked => exact leave_stable other answered described'
  | unlist =>
      cases answered
      exact describes_atGate described' id (fun _ => rfl) fun shut => ⟨rfl, shut.2⟩
  | drain gone =>
      rw [drain_stable answered]
      exact described'
  | chain waited =>
      cases answered
      exact describes_same described' (.refl _) id
  | @nextEntry chain entry known =>
      cases entry with
      | none =>
          cases answered
          exact described'
      | some p =>
          cases onEntry_answered answered
          exact described'
  | listDel listed => exact listDel_stable described (handler trivial) answered described'
  | kfree =>
      cases onEntry_answered answered
      exact deleting_stable described (handler trivial) (fun _ placed => placed) rfl described'

end Steps

end Dreamscape.Monitor.Unloading
