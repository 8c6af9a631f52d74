/-
# MonitorV2.Conserved -- buffers and events over whole runs

Writers, readers, context switches, timer interrupts and the unload run beside each other, call
by call, in any order.  No event is lost or released twice and no buffer is freed twice,
whatever the order.  A call meets a freed buffer or a released event only when somebody has
started the timer after the unload has cancelled it, or has initialised it while it was queued
or its callback ran, so that the unload could not cancel it.  A buffer that was assigned to `perf_data`
is never given back, with its thirteen events, unless it is the one that the unload finds
there: these are all that the module still holds when its unload has returned
(`events_conserved`).
-/
import Dreamscape.MonitorV2.Buffers

namespace Dreamscape.MonitorV2.Buffers

set_option autoImplicit false

open Theory Kernel

/-! ## The stock -/

/-- What of the holdings buffers and events depend on. -/
structure Stock where
  buffers : Ptr → Option Buffer
  nextPtr : Ptr
  nextEvent : Nat
  created : List PerfEvent
  released : List PerfEvent
  freed : List Ptr
  perfData : Option Ptr

def stock (h : Holdings) : Stock :=
  ⟨h.buffers, h.nextPtr, h.nextEvent, h.created, h.released, h.freed, h.perfData⟩

namespace Stock

variable (k : Stock)

/-- Slot `i` of the buffer holds the event. -/
def At (p : Ptr) (i : Nat) (ev : PerfEvent) : Prop :=
  ∃ buf, k.buffers p = some buf ∧ buf.events i = .ptr ev

/-- The event has been created and not released. -/
def Live (ev : PerfEvent) : Prop := ev ∈ k.created ∧ ev ∉ k.released

/-- The slots of the buffer from `lo` to `hi` hold live events, and the others none. -/
def Stocked (p : Ptr) (lo hi : Nat) : Prop :=
  ∃ buf, k.buffers p = some buf ∧ ∀ i,
    (lo ≤ i ∧ i < hi → ∃ ev, buf.events i = .ptr ev ∧ k.Live ev) ∧
      (¬(lo ≤ i ∧ i < hi) → ∀ ev, buf.events i = .ptr ev → ev ∈ k.released)

def allocate (t : Tid) : Stock :=
  { k with
    buffers := Function.update k.buffers k.nextPtr (some ⟨t, fun _ => .null⟩)
    nextPtr := k.nextPtr + 1 }

def make (ev : PerfEvent) : Stock :=
  { k with nextEvent := k.nextEvent + 1, created := k.created ++ [ev] }

def store (p : Ptr) (buf : Buffer) (i : Nat) (ev : EventPtr) : Stock :=
  { k with
    buffers := Function.update k.buffers p (some ⟨buf.maker, Function.update buf.events i ev⟩) }

def release (ev : PerfEvent) : Stock := { k with released := k.released ++ [ev] }

def free (p : Ptr) : Stock :=
  { k with buffers := Function.update k.buffers p none, freed := k.freed ++ [p] }

def publish (p : Option Ptr) : Stock := { k with perfData := p }

end Stock

/-! ## Invariants -/

structure Sound (k : Stock) (x : History) : Prop where
  numbered : k.created.map PerfEvent.id = List.range k.nextEvent
  allocated : ∀ p, (∃ buf, k.buffers p = some buf) ↔ p < k.nextPtr ∧ p ∉ k.freed
  freed : k.freed.Nodup ∧ ∀ p ∈ k.freed, p < k.nextPtr
  released : k.released.Nodup ∧ ∀ ev ∈ k.released, ev ∈ k.created
  stored : ∀ p i ev, k.At p i ev → ev ∈ k.created ∧ ∀ q j, k.At q j ev → q = p ∧ j = i
  held : ∀ t ev, x.hand t = some ev →
    k.Live ev ∧ (∀ p i, ¬k.At p i ev) ∧ ∀ u, x.hand u = some ev → u = t
  building : ∀ t p, x.building t = some p →
    (∃ buf, k.buffers p = some buf) ∧ p ∉ x.published ∧ ∀ u, x.building u = some p → u = t
  published : ∀ p ∈ x.published, p < k.nextPtr ∧ (x.found ≠ some p → k.Stocked p 0 numEvents)
  current : ∀ p, k.perfData = some p → p ∈ x.published
  found : ∀ p, x.found = some p → p ∈ x.published
  accounted : ∀ ev ∈ k.created,
    ev ∈ k.released ∨ (∃ p i, k.At p i ev) ∨ ∃ t, x.hand t = some ev
  owned : ∀ p buf, k.buffers p = some buf → p ∈ x.published ∨ ∃ t, x.building t = some p

/-- What a thread in the role knows of the stock. -/
def Role.Fits (k : Stock) (x : History) : Role → Prop
  | .idle => True
  | .fills p n | .fails p n | .undoes p n | .holds p n _ => k.Stocked p 0 n
  | .gives p n ev => k.Stocked p 0 (n + 1) ∧ k.At p n ev
  | .samples read loaded =>
      (∀ p, read = some p → p ∈ x.published) ∧ ∀ ev, loaded = some ev → x.found = none →
        ∃ p i made, ev = .ptr made ∧ p ∈ x.published ∧ i < numEvents ∧ k.At p i made
  | .exits | .cancels => x.found = none
  | .clears p n => x.found = some p ∧ k.Stocked p n numEvents
  | .drops p n ev => x.found = some p ∧ n < numEvents ∧ k.Stocked p n numEvents ∧ k.At p n ev
  | .cleared => ∀ p, x.found = some p → p ∈ k.freed

structure Describes (c : Remembered) (t : Tid) (r : Role) : Prop where
  unloads : r.unloads = decide (t = 0)
  building : c.2.building t = r.building
  hand : c.2.hand t = r.hand
  sampling : r.sampling = decide (c.1.running = some t)
  fits : r.Fits (stock c.1.holdings) c.2
  cancelled : r.cancelled = true → c.1.cancelled = true

structure Inv (c : Remembered) : Prop where
  sound : Sound (stock c.1.holdings) c.2
  stilled : c.1.Stilled
  unloading : ∀ p, c.2.found = some p → c.1.cancelled = true

/-! ## What one step does to the stock -/

section Steps

variable {k k' : Stock} {x : History} {t : Tid} {p q : Ptr} {i n lo hi : Nat} {ev made : PerfEvent}

theorem builds_building (u : Tid) (o : Option Ptr) :
    (x.builds t o).building u = if u = t then o else x.building u := Function.update_apply ..

theorem takes_hand (u : Tid) (o : Option PerfEvent) :
    (x.takes t o).hand u = if u = t then o else x.hand u := Function.update_apply ..

/-- The step leaves the buffer and its live events alone. -/
structure Undisturbed (k k' : Stock) (p : Ptr) : Prop where
  buffer : k'.buffers p = k.buffers p
  created : ∀ ev ∈ k.created, ev ∈ k'.created
  released : ∀ i ev, k.At p i ev → (ev ∈ k'.released ↔ ev ∈ k.released)

theorem Undisturbed.at_iff (calm : Undisturbed k k' p) : k'.At p i ev ↔ k.At p i ev := by
  unfold Stock.At
  rw [calm.buffer]

theorem Undisturbed.stocked (calm : Undisturbed k k' p) (stocked : k.Stocked p lo hi) :
    k'.Stocked p lo hi := by
  obtain ⟨buf, at_p, slots⟩ := stocked
  refine ⟨buf, calm.buffer.trans at_p, fun i => ⟨fun inside => ?_, fun outside ev slot => ?_⟩⟩
  · obtain ⟨ev, slot, created, kept⟩ := (slots i).1 inside
    refine ⟨ev, slot, calm.created ev created, fun gone => kept ?_⟩
    exact (calm.released i ev ⟨buf, at_p, slot⟩).mp gone
  · exact (calm.released i ev ⟨buf, at_p, slot⟩).mpr ((slots i).2 outside ev slot)

theorem at_slot {buf : Buffer} (at_p : k.buffers p = some buf) :
    k.At p i ev ↔ buf.events i = .ptr ev := by
  constructor
  · rintro ⟨buf', at_p', slot⟩
    rw [at_p, Option.some.injEq] at at_p'
    exact at_p' ▸ slot
  · intro slot
    exact ⟨buf, at_p, slot⟩

theorem Stock.Stocked.held (stocked : k.Stocked p lo hi) : ∃ buf, k.buffers p = some buf := by
  obtain ⟨buf, at_p, -⟩ := stocked
  exact ⟨buf, at_p⟩

theorem Stock.Stocked.slot (stocked : k.Stocked p lo hi) (inside : lo ≤ i ∧ i < hi) :
    ∃ ev, k.At p i ev ∧ k.Live ev := by
  obtain ⟨buf, at_p, slots⟩ := stocked
  obtain ⟨ev, slot, live⟩ := (slots i).1 inside
  exact ⟨ev, ⟨buf, at_p, slot⟩, live⟩

theorem Stock.Stocked.live (stocked : k.Stocked p lo hi) (inside : lo ≤ i ∧ i < hi)
    (there : k.At p i ev) : k.Live ev := by
  obtain ⟨buf, at_p, slots⟩ := stocked
  obtain ⟨made, slot, live⟩ := (slots i).1 inside
  rw [at_slot at_p, slot, EventPtr.ptr.injEq] at there
  exact there ▸ live

/-- The slots outside of the window hold nothing that is live. -/
theorem Stock.Stocked.dead (stocked : k.Stocked p lo hi) (outside : ¬(lo ≤ i ∧ i < hi))
    (there : k.At p i ev) : ev ∈ k.released := by
  obtain ⟨buf, at_p, slots⟩ := stocked
  exact (slots i).2 outside ev ((at_slot at_p).mp there)

section Allocating

variable (sound : Sound k x)

include sound

theorem Sound.unallocated : k.buffers k.nextPtr = none := by
  cases there : k.buffers k.nextPtr with
  | none => rfl
  | some buf => exact absurd ((sound.allocated k.nextPtr).mp ⟨buf, there⟩).1 (Nat.lt_irrefl _)

theorem Sound.allocate_calm (old : ∃ buf, k.buffers p = some buf) :
    Undisturbed k (k.allocate t) p where
  buffer := by
    have apart : p ≠ k.nextPtr := by
      rintro rfl
      obtain ⟨buf, there⟩ := old
      rw [sound.unallocated] at there
      cases there
    exact Function.update_of_ne apart ..
  created := fun _ created => created
  released := fun _ _ _ => Iff.rfl

theorem Sound.at_allocate : (k.allocate t).At p i ev ↔ k.At p i ev := by
  unfold Stock.At
  by_cases new : p = k.nextPtr
  · subst new
    rw [sound.unallocated]
    simp [Stock.allocate]
  · rw [show (k.allocate t).buffers p = k.buffers p from Function.update_of_ne new ..]

theorem Sound.allocate (idle : x.building t = none) :
    Sound (k.allocate t) (x.builds t (some k.nextPtr)) where
  numbered := sound.numbered
  allocated := by
    intro p
    by_cases new : p = k.nextPtr
    · subst new
      have kept : k.nextPtr ∉ k.freed := fun gone => Nat.lt_irrefl _ (sound.freed.2 _ gone)
      exact ⟨fun _ => ⟨Nat.lt_succ_self _, kept⟩, fun _ => ⟨_, Function.update_self ..⟩⟩
    · rw [show (k.allocate t).buffers p = k.buffers p from Function.update_of_ne new ..,
        sound.allocated]
      constructor
      · rintro ⟨bound, kept⟩
        exact ⟨Nat.lt_succ_of_lt bound, kept⟩
      · rintro ⟨bound, kept⟩
        exact ⟨Nat.lt_of_le_of_ne (Nat.le_of_lt_succ bound) new, kept⟩
  freed := ⟨sound.freed.1, fun p gone => Nat.lt_succ_of_lt (sound.freed.2 p gone)⟩
  released := sound.released
  stored := by
    intro p i ev there
    rw [sound.at_allocate] at there
    obtain ⟨created, once⟩ := sound.stored p i ev there
    exact ⟨created, fun q j again => once q j (sound.at_allocate.mp again)⟩
  held := by
    intro u ev hand
    obtain ⟨live, nowhere, alone⟩ := sound.held u ev hand
    exact ⟨live, fun p i there => nowhere p i (sound.at_allocate.mp there), alone⟩
  building := by
    intro u p building
    rw [builds_building] at building
    split at building
    · rename_i same
      cases building
      refine ⟨⟨_, Function.update_self ..⟩, fun published => ?_, fun v building => ?_⟩
      · exact Nat.lt_irrefl _ (sound.published _ published).1
      · rw [builds_building] at building
        split at building
        · rename_i same'
          exact same'.trans same.symm
        · obtain ⟨buf, there⟩ := (sound.building v _ building).1
          rw [sound.unallocated] at there
          cases there
    · obtain ⟨held, unpublished, alone⟩ := sound.building u p building
      refine ⟨?_, unpublished, fun v building' => ?_⟩
      · rw [(sound.allocate_calm held).buffer]
        exact held
      · rw [builds_building] at building'
        split at building'
        · cases building'
          obtain ⟨buf, there⟩ := held
          rw [sound.unallocated] at there
          cases there
        · exact alone v building'
  published := by
    intro p published
    obtain ⟨bound, stocked⟩ := sound.published p published
    refine ⟨Nat.lt_succ_of_lt bound, fun unfound => ?_⟩
    exact (sound.allocate_calm (stocked unfound).held).stocked (stocked unfound)
  current := sound.current
  found := sound.found
  accounted := by
    intro ev created
    rcases sound.accounted ev created with gone | ⟨p, i, there⟩ | held
    · exact Or.inl gone
    · exact Or.inr (Or.inl ⟨p, i, sound.at_allocate.mpr there⟩)
    · exact Or.inr (Or.inr held)
  owned := by
    intro p buf there
    by_cases new : p = k.nextPtr
    · subst new
      refine Or.inr ⟨t, ?_⟩
      rw [builds_building, if_pos rfl]
    · rw [show (k.allocate t).buffers p = k.buffers p from Function.update_of_ne new ..] at there
      rcases sound.owned p buf there with published | ⟨u, building⟩
      · exact Or.inl published
      · refine Or.inr ⟨u, ?_⟩
        have other : u ≠ t := by
          rintro rfl
          rw [idle] at building
          cases building
        rw [builds_building, if_neg other]
        exact building

end Allocating

/-- A new buffer is empty. -/
theorem allocate_stocked : (k.allocate t).Stocked k.nextPtr 0 0 :=
  ⟨_, Function.update_self .., fun i => ⟨fun inside => absurd inside.2 (Nat.not_lt_zero i), nofun⟩⟩

theorem make_calm (ev : PerfEvent) : Undisturbed k (k.make ev) p where
  buffer := rfl
  created := fun _ created => List.mem_append_left _ created
  released := fun _ _ _ => Iff.rfl

section Making

variable (sound : Sound k x)

include sound

theorem Sound.uncreated (fresh : ev.id = k.nextEvent) : ev ∉ k.created := by
  intro created
  have numbered : ev.id ∈ k.created.map PerfEvent.id := List.mem_map_of_mem created
  rw [sound.numbered, List.mem_range, fresh] at numbered
  exact Nat.lt_irrefl _ numbered

theorem Sound.make (idle : x.hand t = none) (fresh : ev.id = k.nextEvent) :
    Sound (k.make ev) (x.takes t (some ev)) where
  numbered := by
    show (k.created ++ [ev]).map PerfEvent.id = List.range (k.nextEvent + 1)
    rw [List.map_append, sound.numbered, List.range_succ, ← fresh]
    rfl
  allocated := sound.allocated
  freed := sound.freed
  released := ⟨sound.released.1, fun ev gone => List.mem_append_left _ (sound.released.2 ev gone)⟩
  stored := by
    intro p i made there
    obtain ⟨created, once⟩ := sound.stored p i made there
    exact ⟨List.mem_append_left _ created, once⟩
  held := by
    have new := sound.uncreated fresh
    intro u made hand
    rw [takes_hand] at hand
    split at hand
    · rename_i same
      cases hand
      refine ⟨⟨List.mem_append_right _ (List.mem_singleton_self _), fun gone => ?_⟩, fun p i there => ?_,
        fun v hand => ?_⟩
      · exact new (sound.released.2 _ gone)
      · exact new (sound.stored p i _ there).1
      · rw [takes_hand] at hand
        split at hand
        · rename_i same'
          exact same'.trans same.symm
        · exact absurd (sound.held v _ hand).1.1 new
    · obtain ⟨⟨created, kept⟩, nowhere, alone⟩ := sound.held u made hand
      refine ⟨⟨List.mem_append_left _ created, kept⟩, nowhere, fun v hand' => ?_⟩
      rw [takes_hand] at hand'
      split at hand'
      · cases hand'
        exact absurd created new
      · exact alone v hand'
  building := sound.building
  published := by
    intro p published
    obtain ⟨bound, stocked⟩ := sound.published p published
    exact ⟨bound, fun unfound => (make_calm ev).stocked (stocked unfound)⟩
  current := sound.current
  found := sound.found
  accounted := by
    intro made created
    rcases List.mem_append.mp created with old | new
    · rcases sound.accounted made old with gone | there | ⟨u, hand⟩
      · exact Or.inl gone
      · exact Or.inr (Or.inl there)
      · refine Or.inr (Or.inr ⟨u, ?_⟩)
        have other : u ≠ t := by
          rintro rfl
          rw [idle] at hand
          cases hand
        rw [takes_hand, if_neg other]
        exact hand
    · cases List.mem_singleton.mp new
      refine Or.inr (Or.inr ⟨t, ?_⟩)
      rw [takes_hand, if_pos rfl]
  owned := sound.owned

end Making

section Storing

variable {buf : Buffer} {o : EventPtr}

theorem at_store (at_p : k.buffers p = some buf) {j : Nat} :
    (k.store p buf n o).At q j made ↔ if q = p ∧ j = n then o = .ptr made else k.At q j made := by
  unfold Stock.At
  by_cases same : q = p
  · subst same
    have here : (k.store q buf n o).buffers q = some ⟨buf.maker, Function.update buf.events n o⟩ :=
      Function.update_self ..
    rw [here, at_p]
    by_cases slot : j = n
    · subst slot
      simp
    · simp [slot]
  · have there : (k.store p buf n o).buffers q = k.buffers q := Function.update_of_ne same ..
    simp [there, same]

theorem store_calm (apart : q ≠ p) : Undisturbed k (k.store p buf n o) q where
  buffer := Function.update_of_ne apart ..
  created := fun _ created => created
  released := fun _ _ _ => Iff.rfl

theorem store_held (at_p : k.buffers p = some buf) :
    (∃ buf', (k.store p buf n o).buffers q = some buf') ↔ ∃ buf', k.buffers q = some buf' := by
  by_cases same : q = p
  · subst same
    exact ⟨fun _ => ⟨buf, at_p⟩, fun _ => ⟨_, Function.update_self ..⟩⟩
  · rw [(store_calm same).buffer]

/-- A thread stores what it has in its hand, or an error when it has nothing. -/
theorem Sound.store (sound : Sound k x) (own : x.building t = some p) (at_p : k.buffers p = some buf)
    (stocked : k.Stocked p 0 n) (hand : ∀ made, o = .ptr made ↔ x.hand t = some made) :
    Sound (k.store p buf n o) (x.takes t none) where
  numbered := sound.numbered
  allocated := by
    intro q
    rw [store_held at_p]
    exact sound.allocated q
  freed := sound.freed
  released := sound.released
  stored := by
    intro q j made there
    rw [at_store at_p] at there
    split at there
    · rename_i here
      obtain ⟨live, nowhere, -⟩ := sound.held t made ((hand made).mp there)
      refine ⟨live.1, fun q' j' again => ?_⟩
      rw [at_store at_p] at again
      split at again
      · rename_i here'
        exact ⟨here'.1.trans here.1.symm, here'.2.trans here.2.symm⟩
      · exact absurd again (nowhere q' j')
    · obtain ⟨created, once⟩ := sound.stored q j made there
      refine ⟨created, fun q' j' again => ?_⟩
      rw [at_store at_p] at again
      split at again
      · exact absurd there ((sound.held t made ((hand made).mp again)).2.1 q j)
      · exact once q' j' again
  held := by
    intro u made hand'
    rw [takes_hand] at hand'
    split at hand'
    · cases hand'
    · rename_i other
      obtain ⟨live, nowhere, alone⟩ := sound.held u made hand'
      refine ⟨live, fun q j there => ?_, fun v hand'' => ?_⟩
      · rw [at_store at_p] at there
        split at there
        · exact other (alone t ((hand made).mp there)).symm
        · exact nowhere q j there
      · rw [takes_hand] at hand''
        split at hand''
        · cases hand''
        · exact alone v hand''
  building := by
    intro u q building
    obtain ⟨held, unpublished, alone⟩ := sound.building u q building
    exact ⟨(store_held at_p).mpr held, unpublished, alone⟩
  published := by
    intro q published
    obtain ⟨bound, full⟩ := sound.published q published
    refine ⟨bound, fun unfound => (store_calm ?_).stocked (full unfound)⟩
    rintro rfl
    exact (sound.building t q own).2.1 published
  current := sound.current
  found := sound.found
  accounted := by
    intro made created
    rcases sound.accounted made created with gone | ⟨q, j, there⟩ | ⟨u, hand'⟩
    · exact Or.inl gone
    · by_cases here : q = p ∧ j = n
      · obtain ⟨rfl, rfl⟩ := here
        have outside : ¬(0 ≤ j ∧ j < j) := fun inside => Nat.lt_irrefl _ inside.2
        exact Or.inl (stocked.dead outside there)
      · refine Or.inr (Or.inl ⟨q, j, ?_⟩)
        rw [at_store at_p, if_neg here]
        exact there
    · by_cases same : u = t
      · subst same
        refine Or.inr (Or.inl ⟨p, n, ?_⟩)
        rw [at_store at_p, if_pos ⟨rfl, rfl⟩]
        exact (hand made).mpr hand'
      · refine Or.inr (Or.inr ⟨u, ?_⟩)
        rw [takes_hand, if_neg same]
        exact hand'
  owned := by
    intro q buf' there
    obtain ⟨old, there⟩ := (store_held at_p).mp ⟨buf', there⟩
    exact sound.owned q old there

theorem store_stocked (at_p : k.buffers p = some buf) (stocked : k.Stocked p 0 n) (live : k.Live ev) :
    (k.store p buf n (.ptr ev)).Stocked p 0 (n + 1) := by
  obtain ⟨buf', at_p', slots⟩ := stocked
  rw [at_p, Option.some.injEq] at at_p'
  subst at_p'
  refine ⟨_, Function.update_self .., fun i => ?_⟩
  by_cases here : i = n
  · subst here
    refine ⟨fun _ => ⟨ev, Function.update_self .., live⟩, fun outside => absurd ⟨Nat.zero_le i, ?_⟩ outside⟩
    exact Nat.lt_succ_self i
  · have slot : Function.update buf.events n (.ptr ev) i = buf.events i := Function.update_of_ne here ..
    have window : 0 ≤ i ∧ i < n + 1 ↔ 0 ≤ i ∧ i < n := by omega
    dsimp only
    rw [slot, window]
    exact slots i

theorem spoil_stocked (at_p : k.buffers p = some buf) (stocked : k.Stocked p 0 n) (code : Int) :
    (k.store p buf n (.err code)).Stocked p 0 n := by
  obtain ⟨buf', at_p', slots⟩ := stocked
  rw [at_p, Option.some.injEq] at at_p'
  subst at_p'
  refine ⟨_, Function.update_self .., fun i => ?_⟩
  dsimp only
  by_cases here : i = n
  · subst here
    rw [Function.update_self]
    exact ⟨fun inside => absurd inside.2 (Nat.lt_irrefl i), nofun⟩
  · rw [Function.update_of_ne here]
    exact slots i

end Storing

section Releasing

variable (sound : Sound k x)

include sound

theorem Sound.release_calm (there : k.At p n ev) (apart : q ≠ p) :
    Undisturbed k (k.release ev) q where
  buffer := rfl
  created := fun _ created => created
  released := by
    intro i made here
    show made ∈ k.released ++ [ev] ↔ _
    rw [List.mem_append, List.mem_singleton, or_iff_left]
    rintro rfl
    exact apart ((sound.stored p n made there).2 q i here).1

theorem Sound.release (there : k.At p n ev) (live : k.Live ev)
    (unshared : p ∉ x.published ∨ x.found = some p) : Sound (k.release ev) x where
  numbered := sound.numbered
  allocated := sound.allocated
  freed := sound.freed
  released := by
    constructor
    · refine List.nodup_append.mpr ⟨sound.released.1, List.nodup_singleton ev, ?_⟩
      rintro made gone other new rfl
      exact live.2 (List.mem_singleton.mp new ▸ gone)
    · intro made gone
      rcases List.mem_append.mp gone with old | new
      · exact sound.released.2 made old
      · exact List.mem_singleton.mp new ▸ live.1
  stored := sound.stored
  held := by
    intro u made hand
    obtain ⟨⟨created, kept⟩, nowhere, alone⟩ := sound.held u made hand
    refine ⟨⟨created, fun gone => ?_⟩, nowhere, alone⟩
    rcases List.mem_append.mp gone with old | new
    · exact kept old
    · exact nowhere p n (List.mem_singleton.mp new ▸ there)
  building := sound.building
  published := by
    intro q published
    obtain ⟨bound, full⟩ := sound.published q published
    refine ⟨bound, fun unfound => (sound.release_calm there ?_).stocked (full unfound)⟩
    rintro rfl
    rcases unshared with unpublished | found
    · exact unpublished published
    · exact unfound found
  current := sound.current
  found := sound.found
  accounted := by
    intro made created
    rcases sound.accounted made created with gone | onward
    · exact Or.inl (List.mem_append_left _ gone)
    · exact Or.inr onward
  owned := sound.owned

/-- The window without the slot of the event. -/
theorem Sound.release_stocked (stocked : k.Stocked p lo hi) (there : k.At p n ev) {lo' hi' : Nat}
    (window : ∀ i, lo' ≤ i ∧ i < hi' ↔ (lo ≤ i ∧ i < hi) ∧ i ≠ n) :
    (k.release ev).Stocked p lo' hi' := by
  obtain ⟨buf, at_p, slots⟩ := stocked
  refine ⟨buf, at_p, fun i => ?_⟩
  rw [window]
  refine ⟨fun inside => ?_, fun outside made slot => ?_⟩
  · obtain ⟨made, slot, created, kept⟩ := (slots i).1 inside.1
    refine ⟨made, slot, created, fun gone => ?_⟩
    rcases List.mem_append.mp gone with old | new
    · exact kept old
    · have same := List.mem_singleton.mp new
      subst same
      exact inside.2 ((sound.stored p n made there).2 p i ⟨buf, at_p, slot⟩).2
  · by_cases here : i = n
    · subst here
      rw [at_slot at_p, slot, EventPtr.ptr.injEq] at there
      exact List.mem_append_right _ (List.mem_singleton.mpr there)
    · exact List.mem_append_left _ ((slots i).2 (fun inside => outside ⟨inside, here⟩) made slot)

end Releasing

section Freeing

theorem free_calm (apart : q ≠ p) : Undisturbed k (k.free p) q where
  buffer := Function.update_of_ne apart ..
  created := fun _ created => created
  released := fun _ _ _ => Iff.rfl

theorem free_held {buf : Buffer} (there : (k.free p).buffers q = some buf) :
    q ≠ p ∧ k.buffers q = some buf := by
  by_cases same : q = p
  · subst same
    rw [show (k.free q).buffers q = none from Function.update_self ..] at there
    cases there
  · exact ⟨same, (free_calm same).buffer.symm.trans there⟩

/-- A thread frees its own buffer or the one that the unload has found, with nothing live in it. -/
theorem Sound.free (sound : Sound k x) (empty : k.Stocked p n n)
    (own : x.building t = some p ∨ x.building t = none ∧ x.found = some p) :
    Sound (k.free p) (x.builds t none) where
  numbered := sound.numbered
  allocated := by
    intro q
    by_cases same : q = p
    · subst same
      constructor
      · rintro ⟨buf, there⟩
        exact absurd rfl (free_held there).1
      · rintro ⟨-, kept⟩
        exact absurd (List.mem_append_right _ (List.mem_singleton_self q)) kept
    · rw [(free_calm same).buffer, sound.allocated]
      show _ ↔ q < k.nextPtr ∧ q ∉ k.freed ++ [p]
      rw [List.mem_append, List.mem_singleton, or_iff_left same]
  freed := by
    obtain ⟨bound, kept⟩ := (sound.allocated p).mp empty.held
    constructor
    · refine List.nodup_append.mpr ⟨sound.freed.1, List.nodup_singleton p, ?_⟩
      rintro q gone other new rfl
      exact kept (List.mem_singleton.mp new ▸ gone)
    · intro q gone
      rcases List.mem_append.mp gone with old | new
      · exact sound.freed.2 q old
      · exact List.mem_singleton.mp new ▸ bound
  released := sound.released
  stored := by
    rintro q i made ⟨buf, there, slot⟩
    obtain ⟨-, there⟩ := free_held there
    obtain ⟨created, once⟩ := sound.stored q i made ⟨buf, there, slot⟩
    refine ⟨created, ?_⟩
    rintro q' j ⟨buf', there', slot'⟩
    exact once q' j ⟨buf', (free_held there').2, slot'⟩
  held := by
    intro u made hand
    obtain ⟨live, nowhere, alone⟩ := sound.held u made hand
    refine ⟨live, ?_, alone⟩
    rintro q i ⟨buf, there, slot⟩
    exact nowhere q i ⟨buf, (free_held there).2, slot⟩
  building := by
    intro u q building
    rw [builds_building] at building
    split at building
    · cases building
    · rename_i other
      obtain ⟨⟨buf, there⟩, unpublished, alone⟩ := sound.building u q building
      have apart : q ≠ p := by
        rintro rfl
        rcases own with own | ⟨-, found⟩
        · exact other (alone t own).symm
        · exact unpublished (sound.found q found)
      refine ⟨⟨buf, (free_calm apart).buffer.trans there⟩, unpublished, fun v building' => ?_⟩
      rw [builds_building] at building'
      split at building'
      · cases building'
      · exact alone v building'
  published := by
    intro q published
    obtain ⟨bound, full⟩ := sound.published q published
    refine ⟨bound, fun unfound => (free_calm ?_).stocked (full unfound)⟩
    rintro rfl
    rcases own with own | ⟨-, found⟩
    · exact (sound.building t q own).2.1 published
    · exact unfound found
  current := sound.current
  found := sound.found
  accounted := by
    intro made created
    rcases sound.accounted made created with gone | ⟨q, i, there⟩ | hand
    · exact Or.inl gone
    · by_cases same : q = p
      · subst same
        have outside : ¬(n ≤ i ∧ i < n) := fun inside => absurd inside.2 (Nat.not_lt.mpr inside.1)
        exact Or.inl (empty.dead outside there)
      · exact Or.inr (Or.inl ⟨q, i, (free_calm same).at_iff.mpr there⟩)
    · exact Or.inr (Or.inr hand)
  owned := by
    intro q buf there
    obtain ⟨apart, there⟩ := free_held there
    rcases sound.owned q buf there with published | ⟨u, building⟩
    · exact Or.inl published
    · refine Or.inr ⟨u, ?_⟩
      have other : u ≠ t := by
        rintro rfl
        rcases own with own | ⟨nothing, -⟩
        · rw [own, Option.some.injEq] at building
          exact apart building.symm
        · rw [nothing] at building
          cases building
      rw [builds_building, if_neg other]
      exact building

end Freeing

section Publishing

variable (sound : Sound k x)

include sound

/-- A thread assigns its full buffer to `perf_data`. -/
theorem Sound.publish (own : x.building t = some p) (full : k.Stocked p 0 numEvents) :
    Sound (k.publish (some p)) { x.builds t none with published := x.published ++ [p] } where
  numbered := sound.numbered
  allocated := sound.allocated
  freed := sound.freed
  released := sound.released
  stored := sound.stored
  held := sound.held
  building := by
    intro u q building
    replace building : (x.builds t none).building u = some q := building
    rw [builds_building] at building
    split at building
    · cases building
    · rename_i other
      obtain ⟨held, unpublished, alone⟩ := sound.building u q building
      refine ⟨held, fun published => ?_, fun v building' => ?_⟩
      · rcases List.mem_append.mp published with old | new
        · exact unpublished old
        · cases List.mem_singleton.mp new
          exact other (alone t own).symm
      · replace building' : (x.builds t none).building v = some q := building'
        rw [builds_building] at building'
        split at building'
        · cases building'
        · exact alone v building'
  published := by
    intro q published
    rcases List.mem_append.mp published with old | new
    · exact sound.published q old
    · cases List.mem_singleton.mp new
      exact ⟨((sound.allocated p).mp full.held).1, fun _ => full⟩
  current := by
    intro q assigned
    cases assigned
    exact List.mem_append_right _ (List.mem_singleton_self _)
  found := fun q found => List.mem_append_left _ (sound.found q found)
  accounted := sound.accounted
  owned := by
    intro q buf there
    rcases sound.owned q buf there with published | ⟨u, building⟩
    · exact Or.inl (List.mem_append_left _ published)
    · by_cases same : u = t
      · subst same
        rw [own, Option.some.injEq] at building
        exact Or.inl (List.mem_append_right _ (List.mem_singleton.mpr building.symm))
      · refine Or.inr ⟨u, ?_⟩
        show (x.builds t none).building u = _
        rw [builds_building, if_neg same]
        exact building

/-- `perf_data` is set to NULL. -/
theorem Sound.clear : Sound (k.publish none) x :=
  { sound with current := nofun }

/-- The unload reads `perf_data`. -/
theorem Sound.find (unfound : x.found = none) : Sound k { x with found := k.perfData } :=
  { sound with
    published := by
      intro q published
      obtain ⟨bound, full⟩ := sound.published q published
      have other : x.found ≠ some q := by
        rw [unfound]
        nofun
      exact ⟨bound, fun _ => full other⟩
    found := sound.current }

end Publishing

end Steps

/-! ## What one call does to the stock -/

/-- The calls that change the stock. -/
def Op.Stocks : Op → Prop
  | .kzalloc | .kfree _ | .storeEvent .. | .perfEventCreateKernelCounter ..
  | .perfEventReleaseKernel _ | .setPerfData _ => True
  | _ => False

/-- The buffer that the thread works on. -/
def Role.buffer : Role → Option Ptr
  | .fills p _ | .holds p _ _ | .fails p _ | .undoes p _ | .gives p _ _ | .clears p _
  | .drops p _ _ => some p
  | _ => none

/-- A thread with this role goes on. -/
structure Moved (k k' : Stock) (x x' : History) (t : Tid) (r r' : Role) : Prop where
  sound : Sound k' x'
  building : x'.building t = r'.building
  hand : x'.hand t = r'.hand
  unloads : r'.unloads = r.unloads
  fits : r'.Fits k' x'
  /-- Other buffers are left alone. -/
  calm : ∀ q, (∃ buf, k.buffers q = some buf) → r.buffer ≠ some q → Undisturbed k k' q
  freed : ∀ q ∈ k.freed, q ∈ k'.freed

section Calls

variable {s s' : State} {x : History} {t : Tid} {e : Env} {r : Role}

theorem stock_still {o : Op} {a : o.Ans} (still : ¬Op.Stocks o)
    (answered : kernel t e o s = .done a s') : stock s'.holdings = stock s.holdings := by
  rw [(kernel_ledger answered).2]
  cases o with
  | getTaskStruct task | putTaskStruct task => cases task <;> rfl
  | _ => first | exact absurd trivial still | rfl

theorem other_buffer {p q : Ptr} (other : some p ≠ some q) : q ≠ p := fun same =>
  other (congrArg some same.symm)

theorem undisturbed_refl (k : Stock) (q : Ptr) : Undisturbed k k q :=
  ⟨rfl, fun _ created => created, fun _ _ _ => Iff.rfl⟩

theorem builds_none (idle : x.building t = none) : x.builds t none = x := by
  unfold History.builds
  rw [← idle, Function.update_eq_self]

variable (sound : Sound (stock s.holdings) x) (building : x.building t = r.building)
  (hand : x.hand t = r.hand) (fits : r.Fits (stock s.holdings) x)

/-- Nothing has changed but the role. -/
theorem moved_still {k : Stock} (sound : Sound k x) {r' : Role} (building : x.building t = r'.building)
    (hand : x.hand t = r'.hand) (unloads : r'.unloads = r.unloads) (fits : r'.Fits k x) :
    Moved k k x x t r r' :=
  ⟨sound, building, hand, unloads, fits, fun q _ _ => undisturbed_refl k q, fun _ gone => gone⟩

include sound building hand fits

theorem moved_kzalloc {a : Option Ptr} (allowed : keepers.allowed .kzalloc r)
    (answered : kernel t e .kzalloc s = .done a s') :
    Moved (stock s.holdings) (stock s'.holdings) x (note t e .kzalloc a s x) t r
      (keepers.next .kzalloc a r) := by
  obtain rfl : r = .idle := allowed
  obtain ⟨answer, moved⟩ := kernel_ledger answered
  rw [moved]
  cases a with
  | none =>
      show Moved _ (stock s.holdings) x (x.builds t none) t .idle .idle
      rw [builds_none building]
      exact moved_still sound building hand rfl trivial
  | some p =>
      obtain rfl : p = s.holdings.nextPtr := by
        have same : some p = if e.kzallocFails then none else some s.holdings.nextPtr := answer
        split at same
        · cases same
        · exact Option.some.inj same
      refine ⟨sound.allocate building, ?_, hand, rfl, ?_, fun q old _ => ?_, fun _ gone => gone⟩
      · exact Function.update_self ..
      · exact allocate_stocked (k := stock s.holdings)
      · exact sound.allocate_calm old

theorem moved_create {attr : PerfEventAttr} {cpu : Int} {task : Option Nat} {a : EventPtr}
    (allowed : keepers.allowed (.perfEventCreateKernelCounter attr cpu task) r)
    (answered : kernel t e (.perfEventCreateKernelCounter attr cpu task) s = .done a s') :
    a ≠ .null ∧ Moved (stock s.holdings) (stock s'.holdings) x
      (note t e (.perfEventCreateKernelCounter attr cpu task) a s x) t r
      (keepers.next (.perfEventCreateKernelCounter attr cpu task) a r) := by
  obtain ⟨p, n, rfl⟩ := allowed
  obtain ⟨answer, moved⟩ := kernel_ledger answered
  rw [moved]
  rcases ledger_created t e s.holdings answer with ⟨code, -, rfl⟩ | ⟨-, rfl⟩
  · exact ⟨nofun, moved_still sound building hand rfl fits⟩
  · refine ⟨nofun, sound.make hand rfl, building, ?_, rfl, ?_, fun q _ _ => make_calm _, fun _ gone => gone⟩
    · exact Function.update_self ..
    · exact (make_calm _).stocked fits

theorem moved_store {p : Option Ptr} {i : Nat} {ev : EventPtr} {a : Unit}
    (allowed : keepers.allowed (.storeEvent p i ev) r)
    (answered : kernel t e (.storeEvent p i ev) s = .done a s') :
    Moved (stock s.holdings) (stock s'.holdings) x (note t e (.storeEvent p i ev) a s x) t r
      (keepers.next (.storeEvent p i ev) a r) := by
  obtain ⟨q, buf, rfl, at_q, stored⟩ := onBuffer_done answered
  cases stored
  have apart : ∀ q', (∃ buf', (stock s.holdings).buffers q' = some buf') → some q ≠ some q' →
      Undisturbed (stock s.holdings) ((stock s.holdings).store q buf i ev) q' := fun _ _ other =>
    store_calm (other_buffer other)
  rcases allowed with ⟨q', made, rfl, same, rfl⟩ | ⟨q', code, rfl, same, rfl⟩
  · cases same
    have live := (sound.held t made hand).1
    refine ⟨sound.store building at_q fits fun made' => ?_, building, Function.update_self .., rfl,
      store_stocked at_q fits live, apart, fun _ gone => gone⟩
    rw [hand]
    show EventPtr.ptr made = .ptr made' ↔ some made = some made'
    rw [EventPtr.ptr.injEq, Option.some.injEq]
  · cases same
    refine ⟨sound.store building at_q fits fun made' => ?_, building, Function.update_self .., rfl,
      spoil_stocked at_q fits code, apart, fun _ gone => gone⟩
    rw [hand]
    exact ⟨nofun, nofun⟩

theorem moved_load {p : Option Ptr} {i : Nat} {ev : EventPtr}
    (allowed : keepers.allowed (.loadEvent p i) r)
    (answered : kernel t e (.loadEvent p i) s = .done ev s') :
    (r.sampling = true ∨ ∃ made, ev = .ptr made) ∧
      Moved (stock s.holdings) (stock s'.holdings) x x t r (r.loaded ev) := by
  rw [stock_still (o := .loadEvent p i) id answered]
  obtain ⟨q, buf, rfl, at_q, rfl⟩ := (kernel_ledger answered).1
  rcases allowed with ⟨q', rfl, same⟩ | ⟨bound, ⟨q', rfl, same⟩ | ⟨before, rfl⟩⟩
  · cases same
    obtain ⟨made, there, -⟩ := Stock.Stocked.slot fits ⟨Nat.zero_le i, Nat.lt_succ_self i⟩
    rw [(at_slot at_q).mp there]
    exact ⟨Or.inr ⟨made, rfl⟩, moved_still sound building hand rfl ⟨fits, there⟩⟩
  · cases same
    obtain ⟨made, there, -⟩ := fits.2.slot ⟨Nat.le_refl i, bound⟩
    rw [(at_slot at_q).mp there]
    exact ⟨Or.inr ⟨made, rfl⟩,
      moved_still sound building hand rfl ⟨fits.1, bound, fits.2, there⟩⟩
  · refine ⟨Or.inl rfl, moved_still sound building hand rfl ⟨fits.1, ?_⟩⟩
    rintro ev loaded unfound
    have published := fits.1 q rfl
    have full := (sound.published q published).2 fun found => by
      rw [unfound] at found
      cases found
    obtain ⟨made, there, -⟩ := full.slot ⟨Nat.zero_le i, bound⟩
    have slot := (at_slot at_q).mp there
    exact ⟨q, i, made, (Option.some.inj loaded).symm.trans slot, published, bound, there⟩

theorem moved_release {ev : EventPtr} {a : Unit} (allowed : keepers.allowed (.perfEventReleaseKernel ev) r)
    (answered : kernel t e (.perfEventReleaseKernel ev) s = .done a s') :
    Moved (stock s.holdings) (stock s'.holdings) x x t r r.released := by
  rw [(kernel_ledger answered).2]
  rcases allowed with ⟨p, n, made, rfl, rfl⟩ | ⟨p, n, made, rfl, rfl⟩
  · obtain ⟨stocked, there⟩ := fits
    have live := stocked.live ⟨Nat.zero_le n, Nat.lt_succ_self n⟩ there
    have unshared := (sound.building t p building).2.1
    refine ⟨sound.release there live (Or.inl unshared), building, hand, rfl, ?_, fun q _ other => ?_,
      fun _ gone => gone⟩
    · exact sound.release_stocked stocked there fun i => by omega
    · exact sound.release_calm there (other_buffer other)
  · obtain ⟨found, bound, stocked, there⟩ := fits
    have live := stocked.live ⟨Nat.le_refl n, bound⟩ there
    refine ⟨sound.release there live (Or.inr found), building, hand, rfl, ⟨found, ?_⟩, fun q _ other => ?_,
      fun _ gone => gone⟩
    · exact sound.release_stocked stocked there fun i => by omega
    · exact sound.release_calm there (other_buffer other)

theorem moved_free {p : Ptr} {a : Unit} (allowed : keepers.allowed (.kfree p) r)
    (answered : kernel t e (.kfree p) s = .done a s') :
    Moved (stock s.holdings) (stock s'.holdings) x (x.builds t none) t r r.freed := by
  rw [(kernel_ledger answered).2]
  rcases allowed with rfl | rfl
  · refine ⟨sound.free fits (Or.inl building), Function.update_self .., hand, rfl, trivial,
      fun q _ other => free_calm (other_buffer other), fun _ gone => ?_⟩
    exact List.mem_append_left _ gone
  · refine ⟨sound.free fits.2 (Or.inr ⟨building, fits.1⟩), Function.update_self .., hand, rfl, ?_,
      fun q _ other => free_calm (other_buffer other), fun _ gone => ?_⟩
    · intro q found
      cases fits.1.symm.trans found
      exact List.mem_append_right _ (List.mem_singleton_self _)
    · exact List.mem_append_left _ gone

theorem moved_publish {p : Option Ptr} {a : Unit} (allowed : keepers.allowed (.setPerfData p) r)
    (answered : kernel t e (.setPerfData p) s = .done a s') :
    Moved (stock s.holdings) (stock s'.holdings) x (note t e (.setPerfData p) a s x) t r
      (keepers.next (.setPerfData p) a r) := by
  rw [(kernel_ledger answered).2]
  rcases allowed with ⟨q, rfl, rfl⟩ | ⟨rfl, rfl⟩
  · refine ⟨sound.publish building fits, Function.update_self .., hand, rfl, trivial, fun q' _ _ => ?_,
      fun _ gone => gone⟩
    exact ⟨rfl, fun _ created => created, fun _ _ _ => Iff.rfl⟩
  · refine ⟨sound.clear, building, hand, rfl, trivial, fun q' _ _ => ?_, fun _ gone => gone⟩
    exact ⟨rfl, fun _ created => created, fun _ _ _ => Iff.rfl⟩

theorem moved_read {p : Option Ptr} (unloads : r.unloads = decide (t = 0))
    (allowed : keepers.allowed .perfData r) (answered : kernel t e .perfData s = .done p s') :
    Moved (stock s.holdings) (stock s'.holdings) x (note t e .perfData p s x) t r (r.saw p) := by
  rw [stock_still (o := .perfData) id answered]
  have same : p = s.holdings.perfData := (kernel_ledger answered).1
  have noted : note t e .perfData p s x = if t = 0 then { x with found := p } else x := rfl
  have away : t ≠ 0 → note t e .perfData p s x = x := fun later => noted.trans (if_neg later)
  have later : r.unloads = false → t ≠ 0 := fun visits =>
    of_decide_eq_false (unloads.symm.trans visits)
  rcases allowed with rfl | rfl | ⟨before, loaded, rfl⟩
  · rw [away (later rfl)]
    exact moved_still sound building hand rfl trivial
  · obtain rfl : t = 0 := of_decide_eq_true unloads.symm
    have found : note 0 e .perfData p s x = { x with found := (stock s.holdings).perfData } := by
      rw [show (stock s.holdings).perfData = p from same.symm, noted, if_pos rfl]
    have sound' := sound.find fits
    rw [found]
    refine ⟨sound', ?_, ?_, ?_, ?_, fun q _ _ => undisturbed_refl _ q, fun _ gone => gone⟩
    · cases p <;> exact building
    · cases p <;> exact hand
    · cases p <;> rfl
    · cases p with
      | none =>
          intro q assigned
          rw [show (stock s.holdings).perfData = none from same.symm] at assigned
          cases assigned
      | some q =>
          have assigned : (stock s.holdings).perfData = some q := same.symm
          refine ⟨assigned, (sound.published q (sound.current q assigned)).2 fun found => ?_⟩
          rw [show x.found = none from fits] at found
          cases found
  · rw [away (later rfl)]
    refine moved_still sound building hand rfl ⟨fun q read => ?_, fits.2⟩
    exact sound.current q (same.symm.trans read)

/-- **What one call does to the stock**, and what its thread then has. -/
theorem moved_call {o : Op} {a : o.Ans} (unloads : r.unloads = decide (t = 0))
    (allowed : keepers.allowed o r) (answered : kernel t e o s = .done a s') :
    keepers.possible o a r ∧
      Moved (stock s.holdings) (stock s'.holdings) x (note t e o a s x) t r (keepers.next o a r) := by
  cases o with
  | kzalloc => exact ⟨trivial, moved_kzalloc sound building hand fits allowed answered⟩
  | perfEventCreateKernelCounter attr cpu task =>
      exact moved_create sound building hand fits allowed answered
  | storeEvent p i ev => exact ⟨trivial, moved_store sound building hand fits allowed answered⟩
  | loadEvent p i => exact moved_load sound building hand fits allowed answered
  | perfEventReleaseKernel ev =>
      exact ⟨trivial, moved_release sound building hand fits allowed answered⟩
  | kfree p => exact ⟨trivial, moved_free sound building hand fits allowed answered⟩
  | setPerfData p => exact ⟨trivial, moved_publish sound building hand fits allowed answered⟩
  | perfData => exact ⟨trivial, moved_read sound building hand fits unloads allowed answered⟩
  | hrtimerCancel =>
      obtain rfl : r = .exits := allowed
      rw [stock_still (o := .hrtimerCancel) id answered]
      exact ⟨trivial, moved_still sound building hand rfl fits⟩
  | timerExpires =>
      obtain rfl : r = .idle := allowed
      rw [stock_still (o := .timerExpires) id answered]
      exact ⟨trivial, moved_still sound building hand rfl ⟨nofun, nofun⟩⟩
  | callbackReturns restart =>
      obtain ⟨read, loaded, rfl⟩ := allowed
      rw [stock_still (o := .callbackReturns restart) id answered]
      exact ⟨trivial, moved_still sound building hand rfl trivial⟩
  | _ =>
      rw [stock_still id answered]
      exact ⟨trivial, moved_still sound building hand rfl fits⟩

end Calls

/-! ## What one call does to the other threads -/

section Beside

variable {k k' : Stock} {x x' : History} {t u : Tid} {r r' q : Role} {p : Ptr}

/-- A thread works on the buffer that it makes, or that the unload has found. -/
theorem buffer_source (building : x.building t = r.building) (fits : r.Fits k x)
    (works : r.buffer = some p) :
    x.building t = some p ∨ r.unloads = true ∧ x.found = some p := by
  cases r with
  | clears p' n | drops p' n ev =>
      cases works
      exact Or.inr ⟨rfl, fits.1⟩
  | fills _ _ | holds _ _ _ | fails _ _ | undoes _ _ | gives _ _ _ =>
      cases works
      exact Or.inl building
  | idle | samples _ _ | exits | cancels | cleared => cases works

/-- No two threads work on one buffer. -/
theorem buffers_apart (sound : Sound k x) (other : u ≠ t) (building : x.building t = r.building)
    (fits : r.Fits k x) (unloads : r.unloads = decide (t = 0)) (building' : x.building u = q.building)
    (fits' : q.Fits k x) (unloads' : q.unloads = decide (u = 0)) (works : q.buffer = some p) :
    r.buffer ≠ some p := by
  intro shared
  rcases buffer_source building fits shared with own | ⟨first, found⟩
  · obtain ⟨-, unpublished, alone⟩ := sound.building t p own
    rcases buffer_source building' fits' works with own' | ⟨-, found⟩
    · exact other (alone u own')
    · exact unpublished (sound.found p found)
  · rcases buffer_source building' fits' works with own' | ⟨first', -⟩
    · exact (sound.building u p own').2.1 (sound.found p found)
    · have here : t = 0 := of_decide_eq_true (unloads.symm.trans first)
      have there : u = 0 := of_decide_eq_true (unloads'.symm.trans first')
      exact other (there.trans here.symm)

/-- What is in `perf_data` is nobody's to change before the unload has found it. -/
theorem published_apart (sound : Sound k x) (building : x.building t = r.building)
    (fits : r.Fits k x) (published : p ∈ x.published) (unfound : x.found = none) :
    r.buffer ≠ some p := by
  intro works
  rcases buffer_source building fits works with own | ⟨-, found⟩
  · exact (sound.building t p own).2.1 published
  · rw [unfound] at found
    cases found

/-- A thread's role still fits after a call of another. -/
theorem fits_beside (moved : Moved k k' x x' t r r')
    (apart : ∀ p, q.buffer = some p → r.buffer ≠ some p)
    (unshared : ∀ p ∈ x.published, x.found = none → r.buffer ≠ some p)
    (published : ∀ p ∈ x.published, p ∈ x'.published) (found : q.unloads = true → x'.found = x.found)
    (unfound : x'.found = none → x.found = none) (fits : q.Fits k x) : q.Fits k' x' := by
  have keeps : ∀ {p lo hi}, q.buffer = some p → k.Stocked p lo hi → Undisturbed k k' p :=
    fun works stocked => moved.calm _ stocked.held (apart _ works)
  cases q with
  | idle => trivial
  | fills p n | fails p n | undoes p n | holds p n ev => exact (keeps rfl fits).stocked fits
  | gives p n ev =>
      have calm := keeps rfl fits.1
      exact ⟨calm.stocked fits.1, calm.at_iff.mpr fits.2⟩
  | samples read loaded =>
      refine ⟨fun p at_p => published p (fits.1 p at_p), fun ev at_ev ended => ?_⟩
      obtain ⟨p, i, made, same, known, bound, there⟩ := fits.2 ev at_ev (unfound ended)
      obtain ⟨buf, held, slot⟩ := there
      have calm := moved.calm p ⟨buf, held⟩ (unshared p known (unfound ended))
      exact ⟨p, i, made, same, published p known, bound, calm.at_iff.mpr ⟨buf, held, slot⟩⟩
  | exits | cancels => exact (found rfl).trans fits
  | clears p n => exact ⟨(found rfl).trans fits.1, (keeps rfl fits.2).stocked fits.2⟩
  | drops p n ev =>
      have calm := keeps rfl fits.2.2.1
      exact ⟨(found rfl).trans fits.1, fits.2.1, calm.stocked fits.2.2.1, calm.at_iff.mpr fits.2.2.2⟩
  | cleared =>
      intro p now
      rw [found rfl] at now
      exact moved.freed p (fits p now)

variable {e : Env} {o : Op} {a : o.Ans} {s s' : State}

theorem note_published (known : p ∈ x.published) : p ∈ (note t e o a s x).published := by
  cases o with
  | setPerfData q =>
      cases q with
      | none => exact known
      | some q => exact List.mem_append_left _ known
  | perfEventCreateKernelCounter _ _ _ => cases a <;> exact known
  | perfData =>
      simp only [note]
      split <;> exact known
  | _ => exact known

theorem note_beside (other : u ≠ t) : (note t e o a s x).building u = x.building u ∧
    (note t e o a s x).hand u = x.hand u := by
  cases o with
  | kzalloc | kfree _ => exact ⟨Function.update_of_ne other .., rfl⟩
  | storeEvent _ _ _ => exact ⟨rfl, Function.update_of_ne other ..⟩
  | setPerfData q =>
      cases q with
      | none => exact ⟨rfl, rfl⟩
      | some q => exact ⟨Function.update_of_ne other .., rfl⟩
  | perfEventCreateKernelCounter _ _ _ =>
      cases a with
      | ptr ev => exact ⟨rfl, Function.update_of_ne other ..⟩
      | null | err _ => exact ⟨rfl, rfl⟩
  | perfData =>
      simp only [note]
      split <;> exact ⟨rfl, rfl⟩
  | _ => exact ⟨rfl, rfl⟩

/-- Only the unload finds, and only once. -/
theorem note_found (unloads : r.unloads = decide (t = 0)) (allowed : keepers.allowed o r) :
    (note t e o a s x).found = x.found ∨ t = 0 ∧ r = .cancels := by
  cases o with
  | perfData =>
      simp only [note]
      split
      · rename_i first
        rcases allowed with rfl | rfl | ⟨read, loaded, rfl⟩
        · exact absurd first (of_decide_eq_false unloads.symm)
        · exact Or.inr ⟨first, rfl⟩
        · exact absurd first (of_decide_eq_false unloads.symm)
      · exact Or.inl rfl
  | setPerfData q => cases q <;> exact Or.inl rfl
  | perfEventCreateKernelCounter _ _ _ => cases a <;> exact Or.inl rfl
  | _ => exact Or.inl rfl

end Beside

/-! ## The timer -/

/-- The calls that begin or end a callback, or wait for it. -/
def Op.Times : Op → Prop
  | .hrtimerCancel | .timerExpires | .callbackReturns _ => True
  | _ => False

section Timer

variable {s s' : State} {t : Tid} {e : Env} {o : Op} {a : o.Ans} {r : Role}

theorem still_timer (still : ¬Op.Times o) (answered : kernel t e o s = .done a s') :
    s'.running = s.running ∧ s'.cancelled = s.cancelled := by
  cases o with
  | hrtimerCancel | timerExpires | callbackReturns _ => exact absurd trivial still
  | enter g =>
      obtain ⟨-, rfl⟩ := enter_done answered
      cases a <;> exact ⟨rfl, rfl⟩
  | leave g =>
      have left := leave_done answered
      subst left
      exact ⟨rfl, rfl⟩
  | unlist g =>
      cases answered
      exact ⟨rfl, rfl⟩
  | drain g =>
      obtain ⟨-, rfl⟩ := drain_done answered
      exact ⟨rfl, rfl⟩
  | _ =>
      have inside := inner_done (by trivial) answered
      exact ⟨inside.running, inside.cancelled⟩

theorem cancelled_stays (answered : kernel t e o s = .done a s') (cancelled : s.cancelled = true) :
    s'.cancelled = true := by
  by_cases times : Op.Times o
  · cases o with
    | hrtimerCancel =>
        obtain ⟨-, rfl⟩ := hrtimerCancel_done answered
        rfl
    | timerExpires =>
        obtain ⟨-, -, rfl⟩ := timerExpires_done answered
        exact cancelled
    | callbackReturns restart =>
        obtain ⟨-, rfl⟩ := callbackReturns_done answered
        exact cancelled
    | _ => exact times.elim
  · exact (still_timer times answered).2.trans cancelled

/-- What a role says of the timer changes with the calls that concern it only. -/
theorem next_timer (still : ¬Op.Times o) (allowed : keepers.allowed o r) :
    (keepers.next o a r).sampling = r.sampling ∧ (keepers.next o a r).cancelled = r.cancelled := by
  cases o with
  | hrtimerCancel | timerExpires | callbackReturns _ => exact absurd trivial still
  | kzalloc =>
      obtain rfl : r = .idle := allowed
      cases a <;> exact ⟨rfl, rfl⟩
  | perfEventCreateKernelCounter attr cpu task =>
      obtain ⟨p, n, rfl⟩ := allowed
      cases a <;> exact ⟨rfl, rfl⟩
  | storeEvent p i ev =>
      rcases allowed with ⟨q, made, rfl, -, -⟩ | ⟨q, code, rfl, -, -⟩ <;> exact ⟨rfl, rfl⟩
  | loadEvent p i =>
      rcases allowed with ⟨q, rfl, -⟩ | ⟨-, ⟨q, rfl, -⟩ | ⟨ev, rfl⟩⟩
      · cases a <;> exact ⟨rfl, rfl⟩
      · cases a <;> exact ⟨rfl, rfl⟩
      · exact ⟨rfl, rfl⟩
  | perfEventReleaseKernel ev =>
      rcases allowed with ⟨p, n, made, rfl, -⟩ | ⟨p, n, made, rfl, -⟩ <;> exact ⟨rfl, rfl⟩
  | kfree p => rcases allowed with rfl | rfl <;> exact ⟨rfl, rfl⟩
  | setPerfData p =>
      rcases allowed with ⟨q, rfl, rfl⟩ | ⟨rfl, rfl⟩ <;> exact ⟨rfl, rfl⟩
  | perfData =>
      rcases allowed with rfl | rfl | ⟨p, ev, rfl⟩
      · exact ⟨rfl, rfl⟩
      · cases a <;> exact ⟨rfl, rfl⟩
      · exact ⟨rfl, rfl⟩
  | _ => exact ⟨rfl, rfl⟩

end Timer

/-! ## Whole runs -/

section Runs

variable {c c' : Remembered} {t u : Tid} {e : Env} {o : Op} {a : o.Ans} {r q : Role}

theorem describes_own (inv : Inv c) (describes : Describes c t r) (allowed : keepers.allowed o r)
    (answered : recorded kernel note t e o c = .done a c') :
    Inv c' ∧ keepers.possible o a r ∧ Describes c' t (keepers.next o a r) := by
  obtain ⟨done, noted⟩ := recorded_done.mp answered
  obtain ⟨possible, moved⟩ := moved_call inv.sound describes.building describes.hand describes.fits
    describes.unloads allowed done
  rw [← noted] at moved
  refine ⟨⟨moved.sound, stilled_step inv.stilled done, fun p found => ?_⟩, possible,
    moved.unloads.trans describes.unloads, moved.building, moved.hand, ?_, moved.fits, ?_⟩
  · rw [noted] at found
    apply cancelled_stays done
    rcases note_found describes.unloads allowed with same | ⟨-, rfl⟩
    · exact inv.unloading p (same.symm.trans found)
    · exact describes.cancelled rfl
  · by_cases times : Op.Times o
    · cases o with
      | hrtimerCancel =>
          obtain ⟨-, moved⟩ := hrtimerCancel_done done
          rw [moved]
          obtain rfl : r = .exits := allowed
          exact describes.sampling
      | timerExpires =>
          obtain ⟨-, -, moved⟩ := timerExpires_done done
          rw [moved]
          exact (decide_eq_true rfl).symm
      | callbackReturns restart =>
          obtain ⟨-, moved⟩ := callbackReturns_done done
          rw [moved]
          exact (decide_eq_false nofun).symm
      | _ => exact times.elim
    · rw [(next_timer times allowed).1, (still_timer times done).1]
      exact describes.sampling
  · intro cancelled
    by_cases times : Op.Times o
    · cases o with
      | hrtimerCancel =>
          obtain ⟨-, moved⟩ := hrtimerCancel_done done
          rw [moved, cancel_cancelled]
      | timerExpires | callbackReturns _ => cases cancelled
      | _ => exact times.elim
    · rw [(next_timer times allowed).2] at cancelled
      exact cancelled_stays done (describes.cancelled cancelled)

theorem describes_beside (inv : Inv c) (other : u ≠ t) (describes : Describes c t r)
    (allowed : keepers.allowed o r) (answered : recorded kernel note t e o c = .done a c')
    (beside : Describes c u q) : Describes c' u q := by
  obtain ⟨done, noted⟩ := recorded_done.mp answered
  obtain ⟨-, moved⟩ := moved_call inv.sound describes.building describes.hand describes.fits
    describes.unloads allowed done
  rw [← noted] at moved
  obtain ⟨building, hand⟩ := note_beside (x := c.2) (e := e) (a := a) (s := c.1) other
  rw [← noted] at building hand
  have found := note_found (x := c.2) (e := e) (a := a) (s := c.1) describes.unloads allowed
  rw [← noted] at found
  refine ⟨beside.unloads, building.trans beside.building, hand.trans beside.hand, ?_, ?_,
    fun known => cancelled_stays done (beside.cancelled known)⟩
  · rw [beside.sampling]
    by_cases times : Op.Times o
    · cases o with
      | hrtimerCancel =>
          obtain ⟨-, moved⟩ := hrtimerCancel_done done
          rw [moved, cancel_running]
      | timerExpires =>
          obtain ⟨-, still, moved⟩ := timerExpires_done done
          rw [moved, still]
          simp [Ne.symm other]
      | callbackReturns restart =>
          obtain ⟨running, moved⟩ := callbackReturns_done done
          rw [moved, running]
          simp [Ne.symm other]
      | _ => exact times.elim
    · rw [(still_timer times done).1]
  · refine fits_beside moved (fun p works => ?_) (fun p known unfound => ?_) (fun p known => ?_)
      (fun unloads => ?_) (fun ended => ?_) beside.fits
    · exact buffers_apart inv.sound other describes.building describes.fits describes.unloads
        beside.building beside.fits beside.unloads works
    · exact published_apart inv.sound describes.building describes.fits known unfound
    · rw [noted]
      exact note_published known
    · rcases found with same | ⟨first, -⟩
      · exact same
      · have here : u = 0 := of_decide_eq_true (beside.unloads.symm.trans unloads)
        exact absurd (here.trans first.symm) other
    · rcases found with same | ⟨-, rfl⟩
      · exact same.symm.trans ended
      · exact describes.fits

theorem stock_initial : Sound (stock Holdings.initial) .initial := by
  have nowhere : ∀ p i ev, ¬(stock Holdings.initial).At p i ev := by
    rintro p i ev ⟨buf, there, -⟩
    cases there
  constructor
  · rfl
  · intro p
    constructor
    · rintro ⟨buf, there⟩
      cases there
    · rintro ⟨bound, -⟩
      exact absurd bound (Nat.not_lt_zero p)
  · exact ⟨List.nodup_nil, fun p gone => absurd gone List.not_mem_nil⟩
  · exact ⟨List.nodup_nil, fun ev gone => absurd gone List.not_mem_nil⟩
  · intro p i ev there
    exact absurd there (nowhere p i ev)
  · intro t ev hand
    cases hand
  · intro t p building
    cases building
  · intro p published
    exact absurd published List.not_mem_nil
  · intro p assigned
    cases assigned
  · intro p found
    cases found
  · intro ev created
    exact absurd created List.not_mem_nil
  · intro p buf there
    cases there

/-- A task that dies leaves buffers and events alone. -/
theorem inv_bury (inv : Inv c) (task : Task) : Inv (c.1.bury task, c.2) :=
  ⟨inv.sound, inv.stilled, inv.unloading⟩

theorem describes_bury (describes : Describes c t r) (task : Task) :
    Describes (c.1.bury task, c.2) t r :=
  ⟨describes.unloads, describes.building, describes.hand, describes.sampling, describes.fits,
    describes.cancelled⟩

/-- Every thread has a role that describes it. -/
theorem after_relies (happenings : List Happening) :
    (after happenings).Relies keepers Ended Inv (fun c t r => Inv c ∧ Describes c t r) .idle := by
  have stilled : State.initial.Stilled := by
    intro cancelled
    cases cancelled
  have begun : Inv (.initial, .initial) := by
    refine ⟨stock_initial, stilled, ?_⟩
    intro p found
    cases found
  refine Pool.run_relies ?_ ?_ ?_ ?_ ⟨begun, ?_, ?_⟩
  · rintro t e o c a c' r inv ⟨-, describes⟩ allowed answered
    obtain ⟨inv', possible, onward⟩ := describes_own inv describes allowed answered
    exact ⟨inv', possible, inv', onward⟩
  · rintro t u e o c a c' r q other ⟨inv, describes⟩ allowed answered ⟨-, beside⟩
    obtain ⟨inv', -, -⟩ := describes_own inv describes allowed answered
    exact ⟨inv', describes_beside inv other describes allowed answered beside⟩
  · intro task c inv
    have inv' := inv_bury inv task
    exact ⟨inv', fun t r ⟨_, describes⟩ => ⟨inv', describes_bury describes task⟩⟩
  · intro thread started
    obtain ⟨happening, -, same⟩ := List.mem_map.mp started
    exact happening_keeps same
  · intro t thread found
    cases t with
    | zero =>
        cases found
        refine ⟨.exits, ⟨begun, rfl, rfl, rfl, rfl, rfl, ?_⟩, moduleExit_keeps⟩
        intro cancelled
        cases cancelled
    | succ t => cases found
  · intro t later
    have other : t ≠ 0 := Nat.ne_of_gt later
    refine ⟨begun, (decide_eq_false other).symm, rfl, rfl, rfl, trivial, ?_⟩
    intro cancelled
    cases cancelled

/-- While a callback runs that the unload has waited for, it has found nothing. -/
theorem callback_unfound (inv : Inv c) (onTime : c.1.lateStarts = 0) (intact : c.1.clobbered = false)
    (running : c.1.running = some t) : c.2.found = none := by
  cases found : c.2.found with
  | none => rfl
  | some p =>
      have still := (inv.stilled (inv.unloading p found) onTime intact).2
      rw [running] at still
      cases still

end Runs

/-! ## What a call touches -/

/-- A buffer that is not null is allocated. -/
def Stock.Holds (k : Stock) (p : Option Ptr) : Prop := ∀ q, p = some q → ∃ buf, k.buffers q = some buf

/-- The call touches no freed buffer, and releases and reads live events only. -/
def Op.Spares (k : Stock) : Op → Prop
  | .kfree p => k.Holds (some p)
  | .loadEvent p _ | .storeEvent p _ _ | .loadPrev p _ | .storePrev p _ _ => k.Holds p
  | .perfEventReleaseKernel ev | .perfEventReadValue ev => ∃ made, ev = .ptr made ∧ k.Live made
  | _ => True

section Touching

variable {c : Remembered} {t : Tid} {o : Op} {r : Role}

theorem Stock.Stocked.holds {k : Stock} {p : Ptr} {q : Option Ptr} {lo hi : Nat}
    (stocked : k.Stocked p lo hi) (same : q = some p) : k.Holds q := by
  intro p' same'
  obtain rfl : p = p' := Option.some.inj (same.symm.trans same')
  exact stocked.held

/-- What a callback has read of `perf_data` is allocated, and the event it has loaded is live. -/
theorem samples_spares (inv : Inv c) {read : Option Ptr} {loaded : Option EventPtr}
    (describes : Describes c t (.samples read loaded)) (onTime : c.1.lateStarts = 0)
    (intact : c.1.clobbered = false) :
    (stock c.1.holdings).Holds read ∧
      ∀ ev, loaded = some ev → ∃ made, ev = .ptr made ∧ (stock c.1.holdings).Live made := by
  have running : c.1.running = some t := of_decide_eq_true describes.sampling.symm
  have unfound := callback_unfound inv onTime intact running
  have full : ∀ p ∈ c.2.published, (stock c.1.holdings).Stocked p 0 numEvents := by
    intro p published
    refine (inv.sound.published p published).2 fun found => ?_
    rw [unfound] at found
    cases found
  refine ⟨fun p at_p => (full p (describes.fits.1 p at_p)).held, fun ev at_ev => ?_⟩
  obtain ⟨p, i, made, same, published, bound, there⟩ := describes.fits.2 ev at_ev unfound
  exact ⟨made, same, (full p published).live ⟨Nat.zero_le i, bound⟩ there⟩

theorem call_spares (inv : Inv c) (describes : Describes c t r) (allowed : keepers.allowed o r)
    (outrun : c.1.lateStarts = 0 ∧ c.1.clobbered = false ∨ c.1.running ≠ some t) :
    Op.Spares (stock c.1.holdings) o := by
  have samples : ∀ read loaded, r = .samples read loaded → (stock c.1.holdings).Holds read ∧
      ∀ ev, loaded = some ev → ∃ made, ev = .ptr made ∧ (stock c.1.holdings).Live made := by
    rintro read loaded rfl
    have running : c.1.running = some t := of_decide_eq_true describes.sampling.symm
    obtain ⟨onTime, intact⟩ := outrun.resolve_right fun away => away running
    exact samples_spares inv describes onTime intact
  have fits := describes.fits
  cases o with
  | kfree p =>
      rcases allowed with rfl | rfl
      · exact Stock.Stocked.holds fits rfl
      · exact fits.2.holds rfl
  | loadEvent p i =>
      rcases allowed with ⟨q, rfl, same⟩ | ⟨-, ⟨q, rfl, same⟩ | ⟨ev, rfl⟩⟩
      · exact Stock.Stocked.holds fits same
      · exact fits.2.holds same
      · exact (samples _ _ rfl).1
  | storeEvent p i ev =>
      rcases allowed with ⟨q, made, rfl, same, -⟩ | ⟨q, code, rfl, same, -⟩
      · exact Stock.Stocked.holds fits same
      · exact Stock.Stocked.holds fits same
  | loadPrev p i =>
      obtain ⟨ev, rfl⟩ := allowed
      exact (samples _ _ rfl).1
  | storePrev p i v =>
      rcases allowed with ⟨q, n, rfl, same⟩ | ⟨ev, rfl⟩
      · exact Stock.Stocked.holds fits same
      · exact (samples _ _ rfl).1
  | perfEventReleaseKernel ev =>
      rcases allowed with ⟨p, n, made, rfl, same⟩ | ⟨p, n, made, rfl, same⟩
      · exact ⟨made, same, fits.1.live ⟨Nat.zero_le n, Nat.lt_succ_self n⟩ fits.2⟩
      · exact ⟨made, same, fits.2.2.1.live ⟨Nat.le_refl n, fits.2.1⟩ fits.2.2.2⟩
  | perfEventReadValue ev =>
      obtain ⟨p, rfl⟩ := allowed
      exact (samples _ _ rfl).2 ev rfl
  | _ => trivial

end Touching

/-! ## The end of the unload -/

section Unloaded

variable {r : Role}

theorem makes_hand (idle : r.building = none) : r.hand = none := by
  cases r <;> first | rfl | cases idle

/-- Who makes a buffer makes inner calls only. -/
theorem makes_inner {o : Op} (allowed : keepers.allowed o r) (makes : r.building ≠ none) :
    o.Inner ∧ r.sampling = false ∧ r.unloads = false := by
  have within : r.sampling = false ∧ r.unloads = false := by
    cases r <;> first | exact ⟨rfl, rfl⟩ | exact absurd rfl makes
  refine ⟨?_, within⟩
  cases o with
  | hrtimerCancel | timerExpires =>
      obtain rfl := allowed
      exact absurd rfl makes
  | callbackReturns restart =>
      obtain ⟨p, ev, rfl⟩ := allowed
      exact absurd rfl makes
  | enter g | leave g | unlist g | drain g => exact absurd allowed makes
  | _ => trivial

/-- When the unload has returned nobody makes a buffer. -/
theorem unloaded_idle {happenings : List Happening} (returned : (after happenings).Returned 0) (t : Tid) :
    (after happenings).shared.2.building t = none := by
  have relies := after_relies happenings
  have stands := machineAfter_relies happenings
  rw [← after_forgets] at stands
  rcases Nat.lt_or_ge t (after happenings).threads.length with bound | beyond
  · have there := List.getElem?_eq_getElem bound
    obtain ⟨r, ⟨-, describes⟩, follows⟩ := relies.follows t _ there
    rw [describes.building]
    by_contra makes
    obtain ⟨place, located, follows'⟩ := stands.follows t _ there
    -- The unload has closed every gate, so who is inside is a callback.
    obtain ⟨e, u, gone⟩ := returned
    obtain ⟨last, closes, settled⟩ := stands.follows 0 _ gone
    have unloads : last.unloads = true := closes.unloads.trans (decide_eq_true rfl)
    have known : Settled last u := settled
    rw [Settled, if_pos unloads] at known
    have closed := fun g => closes.closed g (known.2 g)
    cases rest : ((after happenings).threads[t]).prog with
    | ret a =>
        rw [rest] at follows
        rcases follows with rfl | rfl
        · exact makes rfl
        · exact makes rfl
    | call o k =>
        rw [rest] at follows follows'
        obtain ⟨inner, visits, stays⟩ := makes_inner follows.1 makes
        rcases (premises_allowed inner place).mp follows'.1 with unloading | inside
        · have first : t = 0 := of_decide_eq_true (located.unloads.symm.trans unloading)
          exact Bool.noConfusion (stays.symm.trans (describes.unloads.trans (decide_eq_true first)))
        · refine inside ⟨fun g => ?_, ?_⟩
          · rw [located.inside g, (closed g).2]
            rfl
          · have away : (after happenings).shared.1.running ≠ some t :=
              of_decide_eq_false (describes.sampling.symm.trans visits)
            exact located.calledBack.trans (decide_eq_false away)
  · obtain ⟨-, describes⟩ := relies.unused t beyond
    exact describes.building

theorem unloaded_empty {happenings : List Happening} (returned : (after happenings).Returned 0) (t : Tid) :
    (after happenings).shared.2.hand t = none := by
  have relies := after_relies happenings
  obtain ⟨r, describes⟩ : ∃ r, Describes (after happenings).shared t r := by
    rcases Nat.lt_or_ge t (after happenings).threads.length with bound | beyond
    · obtain ⟨r, ⟨-, describes⟩, -⟩ := relies.follows t _ (List.getElem?_eq_getElem bound)
      exact ⟨r, describes⟩
    · exact ⟨.idle, (relies.unused t beyond).2⟩
  have idle := unloaded_idle returned t
  rw [describes.building] at idle
  rw [describes.hand]
  exact makes_hand idle

/-- It has freed what it found in `perf_data`. -/
theorem unloaded_freed {happenings : List Happening} (returned : (after happenings).Returned 0) {p : Ptr}
    (found : (after happenings).shared.2.found = some p) :
    p ∈ (after happenings).shared.1.holdings.freed := by
  obtain ⟨r, a, ⟨-, describes⟩, ended⟩ := (after_relies happenings).returned returned
  rcases ended with rfl | rfl
  · exact absurd describes.unloads nofun
  · exact describes.fits p found

end Unloaded

/-! ## Main result -/

/-- What the module still holds of the buffers it has published: all but the one that the unload
has found. -/
def History.Keeps (x : History) (p : Ptr) : Prop := p ∈ x.published ∧ x.found ≠ some p

structure Conserved (c : Threads) : Prop where
  events : c.shared.1.holdings.created.Nodup ∧ c.shared.1.holdings.released.Nodup ∧
    ∀ ev ∈ c.shared.1.holdings.released, ev ∈ c.shared.1.holdings.created
  buffers : c.shared.1.holdings.freed.Nodup ∧
    ∀ p ∈ c.shared.1.holdings.freed, p < c.shared.1.holdings.nextPtr
  /-- An event that is not released is in a buffer, or in the hand of who has just made it. -/
  accounted : ∀ ev ∈ c.shared.1.holdings.created, ev ∈ c.shared.1.holdings.released ∨
    (∃ p i, (stock c.shared.1.holdings).At p i ev) ∨ ∃ t, c.shared.2.hand t = some ev
  /-- Only a callback that was started late, or of a clobbered timer, can meet what is gone. -/
  spares : ∀ t o, c.next t = some o →
    (c.shared.1.lateStarts = 0 ∧ c.shared.1.clobbered = false ∨ c.shared.1.running ≠ some t) →
      Op.Spares (stock c.shared.1.holdings) o
  kept : ∀ p, c.shared.2.Keeps p → (stock c.shared.1.holdings).Stocked p 0 numEvents
  /-- When the unload has returned, the module holds the buffers it keeps and their events,
  and nothing else. -/
  bufferHeld : c.Returned 0 → ∀ p < c.shared.1.holdings.nextPtr,
    (p ∉ c.shared.1.holdings.freed ↔ c.shared.2.Keeps p)
  eventHeld : c.Returned 0 → ∀ ev ∈ c.shared.1.holdings.created,
    (ev ∉ c.shared.1.holdings.released ↔
      ∃ p i, c.shared.2.Keeps p ∧ i < numEvents ∧ (stock c.shared.1.holdings).At p i ev)

/-- **No event is lost, none is released twice, and what start_monitoring has displaced is never
given back**, in every order of the calls of writers, callbacks and the unload. -/
theorem events_conserved (happenings : List Happening) : Conserved (after happenings) := by
  have relies := after_relies happenings
  have sound := relies.inv.sound
  have kept : ∀ p, (after happenings).shared.2.Keeps p →
      (stock (after happenings).shared.1.holdings).Stocked p 0 numEvents := fun p keeps =>
    (sound.published p keeps.1).2 keeps.2
  have bufferHeld : (after happenings).Returned 0 →
      ∀ p < (after happenings).shared.1.holdings.nextPtr,
        (p ∉ (after happenings).shared.1.holdings.freed ↔ (after happenings).shared.2.Keeps p) := by
    intro returned p bound
    constructor
    · intro unfreed
      obtain ⟨buf, there⟩ := (sound.allocated p).mpr ⟨bound, unfreed⟩
      rcases sound.owned p buf there with published | ⟨t, building⟩
      · exact ⟨published, fun found => unfreed (unloaded_freed returned found)⟩
      · rw [unloaded_idle returned t] at building
        cases building
    · intro keeps
      exact ((sound.allocated p).mp (kept p keeps).held).2
  refine ⟨⟨?_, sound.released⟩, sound.freed, sound.accounted, ?_, kept, bufferHeld, ?_⟩
  · have distinct := congrArg List.Nodup sound.numbered
    exact (distinct.mpr List.nodup_range).of_map
  · intro t o next outrun
    obtain ⟨r, ⟨inv, describes⟩, allowed⟩ := relies.allowed next
    exact call_spares inv describes allowed outrun
  · intro returned ev created
    constructor
    · intro unreleased
      rcases sound.accounted ev created with gone | ⟨p, i, there⟩ | ⟨t, hand⟩
      · exact absurd gone unreleased
      · obtain ⟨buf, at_p, slot⟩ := there
        obtain ⟨bound, unfreed⟩ := (sound.allocated p).mp ⟨buf, at_p⟩
        have keeps := (bufferHeld returned p bound).mp unfreed
        refine ⟨p, i, keeps, ?_, buf, at_p, slot⟩
        by_contra beyond
        refine unreleased ((kept p keeps).dead (fun inside => beyond inside.2) ⟨buf, at_p, slot⟩)
      · rw [unloaded_empty returned t] at hand
        cases hand
    · rintro ⟨p, i, keeps, bound, there⟩
      exact ((kept p keeps).live ⟨Nat.zero_le i, bound⟩ there).2

end Dreamscape.MonitorV2.Buffers
