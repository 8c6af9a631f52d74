/-
# Monitor.FreedOnce -- every entry is freed once, and nobody meets a freed one

The invariant of the entries over whole runs: handlers and context switches in any order,
with the unload at any time among them.  When the unload has returned, the list is empty
and every entry there ever was has been freed once (`entries_live_once`).
-/
import Dreamscape.Monitor.Ownership

namespace Dreamscape.Monitor.Unloading

set_option autoImplicit false

open Theory Kernel

/-! ## Runs -/

theorem owned_initial : Owned .initial where
  numbered := rfl
  heap _ := ⟨nofun, fun h => absurd h.1 (Nat.not_lt_zero _)⟩
  distinct := List.nodup_nil
  linked := nofun
  unlinked := ⟨List.nodup_nil, nofun⟩
  freed := List.prefix_rfl
  accounted := nofun

theorem spawned_places {happenings : List Happening} {thread : Thread calls Env Unit}
    (started : .spawn thread ∈ happenings.map Happening.action) :
    thread.prog.Follows places Settled .outside := by
  obtain ⟨happening, -, same⟩ := List.mem_map.mp started
  cases happening with
  | write env =>
      cases same
      exact visit_places .procEntry (commandHandler_reaches env.userBuf.length)
  | hit env regs =>
      cases same
      exact visit_places .probe (preHandler_reaches regs)
  | step t => cases same

/-- Every thread stands at a place that describes it. -/
theorem after_relies (happenings : List Happening) :
    (after happenings).Relies places Settled Owned Stands .outside := by
  refine Pool.run_relies ?_ ?_ (fun w => nomatch w) (fun thread => spawned_places) ?_
  · exact place_own
  · exact place_stable
  · refine ⟨owned_initial, ?_, ?_⟩
    · intro t thread found
      obtain ⟨bound, rfl⟩ := List.getElem?_eq_some_iff.mp found
      cases Nat.lt_one_iff.mp bound
      refine ⟨.exits, ⟨⟨fun _ => rfl, fun _ => trivial⟩, ?_⟩, exit_places⟩
      exact ⟨nofun, nofun, rfl⟩
    · intro t beyond
      refine ⟨⟨False.elim, fun exits => ?_⟩, nofun⟩
      exact absurd exits (Nat.ne_of_gt beyond)

/-- The unload is there in every run. -/
theorem unload_loaded (happenings : List Happening) :
    ∃ thread, (after happenings).threads[0]? = some thread := by
  have there : 0 < (after happenings).threads.length := by
    refine Pool.run_invariant (I := fun c => 0 < c.threads.length) machine alone ?_ Nat.one_pos
    intro action _ c there
    cases action with
    | spawn thread => exact Nat.lt_of_lt_of_le there (by simp [Pool.step])
    | step t => exact (Pool.advance_length c t).symm ▸ there
    | world w => exact there
  exact ⟨_, List.getElem?_eq_getElem there⟩

/-! ## What a call touches -/

/-- The entries that a call of a handler reads or writes, their links included.  A walk of the
list is one call; what it has found stays live while the handler is inside
(`Reaches.known`). -/
def Op.touches (s : State) : Op → List Ptr
  | .counterList => s.counterList
  | .entryPc p | .entryCounter p _ | .addCounter p _ _ => [p]
  | .setEntryPc q _ | .setEntryCounters q _ => q.toList
  | .listAdd q => q.toList ++ s.counterList.head?.toList
  | _ => []

/-- `list_del` writes the links of the neighbours. -/
def Call.touches (s : State) : Call → List Ptr
  | .core o => Op.touches s o
  | .nextEntry entry => entry.toList
  | .listDel p => p :: s.counterList
  | .kfree p => [p]
  | _ => []

section Touching

variable {s : Machine} {t : Tid} {g : Gate} {r : Reach} {p : Ptr}

/-- The entry was allocated and not freed. -/
def Machine.Live (s : Machine) (p : Ptr) : Prop := p ∈ s.entries ∧ p ∉ s.freed

theorem Owned.live (owned : Owned s) (bound : p < s.core.nextPtr) (kept : p ∉ s.unlinked) :
    s.Live p := by
  refine ⟨?_, fun gone => kept (owned.freed.subset gone)⟩
  rw [owned.numbered]
  exact List.mem_range.mpr bound

theorem Owned.live_linked (owned : Owned s) (listed : p ∈ s.core.counterList) : s.Live p := by
  obtain ⟨bound, kept⟩ := owned.linked p listed
  exact owned.live bound kept

/-- The entry that was taken out last. -/
theorem Owned.live_detached (owned : Owned s) (last : s.unlinked = s.freed ++ [p]) : s.Live p := by
  obtain ⟨distinct, bound⟩ := owned.unlinked
  rw [last] at distinct
  have out : p ∈ s.unlinked := last ▸ List.mem_append_right _ (List.mem_singleton_self p)
  refine ⟨?_, fun gone => ?_⟩
  · rw [owned.numbered]
    exact List.mem_range.mpr (bound p out)
  · exact (List.nodup_append.mp distinct).2.2 p gone p (List.mem_singleton_self p) rfl

/-- Handlers touch what they can reach. -/
theorem reaches_live {o : Op} (owned : Owned s) (reach : Reaches s t g r)
    (allowed : reaches.allowed o r) (touched : p ∈ Op.touches s.core o) : s.Live p := by
  have reached : p ∈ r.known → s.Live p := by
    intro known
    obtain ⟨bound, kept⟩ := reach.known p known
    exact owned.live bound kept
  cases o with
  | counterList => exact owned.live_linked touched
  | entryPc q =>
      cases List.mem_singleton.mp touched
      exact reached allowed
  | entryCounter q i =>
      cases List.mem_singleton.mp touched
      exact reached allowed
  | addCounter q i v =>
      cases List.mem_singleton.mp touched
      exact reached allowed
  | setEntryPc q pc => exact reached (allowed p (Option.mem_toList.mp touched))
  | setEntryCounters q values => exact reached (allowed p (Option.mem_toList.mp touched))
  | listAdd q =>
      rcases List.mem_append.mp touched with new | first
      · obtain ⟨bound, -, kept, -⟩ := reach.new p (allowed.2 p (Option.mem_toList.mp new))
        exact owned.live bound kept
      · exact owned.live_linked (List.mem_of_mem_head? (Option.mem_toList.mp first))
  | _ => cases touched

/-- A thread touches live entries only, wherever it stands. -/
theorem stands_live {o : Call} {place : Place} (owned : Owned s) (stands : Stands s t place)
    (allowed : places.allowed o place) (touched : p ∈ o.touches s.core) : s.Live p := by
  obtain ⟨-, described⟩ := stands
  cases turn_of_allowed allowed with
  | core allowed => exact reaches_live owned described allowed touched
  | chain waited => exact owned.live_linked touched
  | nextEntry known =>
      have listed := known p (Option.mem_toList.mp touched)
      exact owned.live_linked (described.chain ▸ listed)
  | listDel listed =>
      rcases List.mem_cons.mp touched with rfl | neighbour
      · exact owned.live_linked (described.chain ▸ listed)
      · exact owned.live_linked neighbour
  | kfree =>
      cases List.mem_singleton.mp touched
      exact owned.live_detached described.detached
  | enter | leave _ | unlist | drain _ => cases touched

end Touching

/-! ## The end of the unload -/

/-- Everything ever allocated has been freed once. -/
def Machine.Emptied (s : Machine) : Prop :=
  s.core.counterList = [] ∧ ∀ p ∈ s.entries, s.freed.count p = 1

theorem deleting_emptied {s : Machine} (owned : Owned s) (deleting : Deleting s [] none) :
    s.Emptied := by
  refine ⟨deleting.chain, ?_⟩
  intro p known
  have all : s.unlinked = s.freed := deleting.detached.trans (List.append_nil _)
  have once : s.freed.Nodup := all ▸ owned.unlinked.1
  rw [List.nodup_iff_count_eq_one] at once
  apply once
  obtain ⟨⟨t, p⟩, made, rfl⟩ := List.mem_map.mp known
  rcases owned.accounted t p made with listed | gone | ⟨g, inside⟩
  · rw [deleting.chain] at listed
    cases listed
  · rwa [all] at gone
  · rw [(deleting.shut g).2] at inside
    cases inside

/-- Nobody is inside a gate. -/
def Machine.Vacant (s : Machine) : Prop := ∀ g, (s.entrance g).inside = []

theorem onEntry_live {α : Type} {s : Machine} {p : Ptr} (owned : Owned s) (live : s.Live p)
    (x : Outcome Fault Machine α) : s.onEntry p x = x := by
  have known : p ∈ List.range s.core.nextPtr := owned.numbered ▸ live.1
  have held : (s.core.heap p).isSome := (owned.heap p).mpr ⟨List.mem_range.mp known, live.2⟩
  obtain ⟨data, held⟩ := Option.isSome_iff_exists.mp held
  simp only [Machine.onEntry, held]

/-- With nobody inside, the exit code is never held up. -/
theorem exits_answered {s : Machine} {t : Tid} {e : Env} {o : Call} {place : Place}
    (owned : Owned s) (stands : Stands s t place) (exits : place.Exits) (vacant : s.Vacant)
    (allowed : places.allowed o place) : ∃ a s', machine t e o s = .done a s' ∧ s'.Vacant := by
  have live : ∀ {p}, p ∈ o.touches s.core → s.Live p := fun touched =>
    stands_live owned stands allowed touched
  obtain ⟨-, described⟩ := stands
  cases turn_of_allowed allowed with
  | enter => exact exits.elim
  | core _ => exact exits.elim
  | leave _ => exact exits.elim
  | @unlist g =>
      refine ⟨_, _, rfl, fun g' => ?_⟩
      by_cases here : g' = g
      · subst here
        rw [atGate_here]
        exact vacant g'
      · rw [atGate_there here]
        exact vacant g'
  | @drain g => exact ⟨_, _, if_pos (vacant g), vacant⟩
  | chain _ => exact ⟨_, _, rfl, vacant⟩
  | @nextEntry chain entry _ =>
      cases entry with
      | none => exact ⟨_, _, rfl, vacant⟩
      | some p => exact ⟨_, _, onEntry_live owned (live List.mem_cons_self) _, vacant⟩
  | @listDel chain p listed =>
      have listed : p ∈ s.core.counterList := described.chain ▸ listed
      have alive : s.Live p := live List.mem_cons_self
      exact ⟨_, _, (onEntry_live owned alive _).trans (if_pos listed), vacant⟩
  | kfree => exact ⟨_, _, onEntry_live owned (live List.mem_cons_self) _, vacant⟩

/-- The rest of the exit code comes to its end when nobody is inside. -/
theorem exits_exec {t : Tid} {e : Env} {p : UnloadCode Unit} {s : Machine} {place : Place}
    (follows : p.Follows places Settled place) (owned : Owned s) (stands : Stands s t place)
    (exits : place.Exits) (vacant : s.Vacant) : ∃ s', p.exec (machine t e) s = .done () s' := by
  induction p generalizing s place with
  | ret a => exact ⟨s, rfl⟩
  | call o k ih =>
      obtain ⟨allowed, onward⟩ := follows
      obtain ⟨a, s', answered, vacant⟩ := exits_answered (e := e) owned stands exits vacant allowed
      obtain ⟨owned, possible, stands⟩ := place_own owned stands allowed answered
      obtain ⟨s'', done⟩ :=
        ih a (onward a possible) owned stands ((places_role allowed).mpr exits) vacant
      refine ⟨s'', ?_⟩
      rw [Prog.exec_call, answered]
      exact done

/-! ## Main result -/

/-- The run so far: every call still to be made touches live entries only, no entry was
allocated or freed twice, and nothing but an entry was freed.  When the unload has returned
everything has been freed, and it gets there by itself once nobody is inside. -/
structure LivesOnce (c : Threads) : Prop where
  touches : ∀ t o, c.next t = some o → ∀ p ∈ o.touches c.shared.core, c.shared.Live p
  distinct : c.shared.entries.Nodup
  freed : c.shared.freed.Nodup ∧ ∀ p ∈ c.shared.freed, p ∈ c.shared.entries
  emptied : c.Returned 0 → c.shared.Emptied
  ends : c.shared.Vacant →
    ∃ n, (Pool.run machine alone c (List.replicate n (.step 0))).Returned 0

theorem after_ends (happenings : List Happening) (vacant : (after happenings).shared.Vacant) :
    ∃ n, (Pool.run machine alone (after happenings) (List.replicate n (.step 0))).Returned 0 := by
  have relies := after_relies happenings
  obtain ⟨⟨e, p⟩, found⟩ := unload_loaded happenings
  obtain ⟨place, stands, follows⟩ := relies.follows 0 _ found
  obtain ⟨s, done⟩ := exits_exec (e := e) follows relies.inv stands (stands.role.mpr rfl) vacant
  have found' : (after happenings).threads[0]? = some ⟨e, p >>= .ret⟩ := by
    rw [found, Prog.bind_ret]
  obtain ⟨n, ran⟩ := Pool.run_through alone found' done
  refine ⟨n, e, (), ?_⟩
  rw [ran]
  exact List.getElem?_set_self (List.getElem?_eq_some_iff.mp found).1

/-- **Every entry is freed once**: in every run of handlers and an unload, in any order of
their calls, no call touches an entry that is not allocated or was freed, nothing is freed
twice, and when the unload has returned `counter_list` is empty and every entry ever
allocated has been freed. -/
theorem entries_live_once (happenings : List Happening) : LivesOnce (after happenings) := by
  have relies := after_relies happenings
  have owned := relies.inv
  refine ⟨?_, ?_, ⟨?_, ?_⟩, ?_, after_ends happenings⟩
  · intro t o next p touched
    obtain ⟨place, stands, allowed⟩ := relies.allowed next
    exact stands_live owned stands allowed touched
  · rw [owned.numbered]
    exact List.nodup_range
  · exact owned.unlinked.1.sublist owned.freed.sublist
  · intro p gone
    rw [owned.numbered]
    exact List.mem_range.mpr (owned.freed_bound gone)
  · intro returned
    obtain ⟨place, a, stands, settled⟩ := relies.returned returned
    rcases settled with rfl | rfl
    · exact (stands.role.mpr rfl).elim
    · exact deleting_emptied owned stands.described

/-- An unload with no handlers makes seven calls. -/
example : (after (List.replicate 7 (.step 0))).Returned 0 := by decide

end Dreamscape.Monitor.Unloading
