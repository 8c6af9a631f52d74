/-
# MonitorV2.Quiescence -- the module after its unload

The unload is thread 0.  Beside it run writers, readers, context switches and timer
interrupts, each of them call by call, in any order.  The unload first cancels the
timer and only then closes the ways into the module, so a writer that is still inside
can start the timer again.  And a writer that initialises the timer while it is queued, or
while its callback runs, leaves a timer that the unload cannot cancel.  If neither happens,
then once the unload has returned the timer is neither queued nor running, and every thread
that has not returned stands before a closed entrance (`unload_quiesces`).

What a thread may rely on is a `Place`: where it is, exactly, and what it knows of the
rest, which the others can only confirm.
-/
import Dreamscape.MonitorV2.Interior
import Dreamscape.Theory.Pool

namespace Dreamscape.MonitorV2

set_option autoImplicit false

open Theory Kernel

/-! ## Runs -/

inductive Happening where
  | write (env : Env)
  | read (env : Env) (count : Nat) (ppos : Int)
  | switch (env : Env)
  | expire (env : Env)
  | step (t : Tid)
  | die (task : Task)

/-- Run `body` through a gate for its effect. -/
def visit {α : Type} (g : Gate) (refused : α) (body : Code α) : Code Unit := do
  let _ ← throughGate g refused body
  return ()

def Happening.action : Happening → Pool.Action sig Env Task Unit
  | .write env =>
      .spawn ⟨env, visit .pidEntry Errno.removed (pidWrite env.userBuf.length)⟩
  | .read env count ppos =>
      .spawn ⟨env, visit .messageEntry (Errno.removed, ppos) (messageRead count ppos)⟩
  | .switch env => .spawn ⟨env, visit .probe 0 helloSwitch⟩
  | .expire env => .spawn ⟨env, timerInterrupt⟩
  | .step t => .step t
  | .die task => .world task

abbrev Machine := Pool sig Env State Unit

/-- The module is loaded, and thread 0 will unload it. -/
def loaded : Machine := ⟨.initial, [⟨.quiet, moduleExit⟩]⟩

def machineAfter (happenings : List Happening) : Machine :=
  Pool.run kernel (fun task s => s.bury task) loaded (happenings.map Happening.action)

/-! ## Places -/

/-- Where a thread is, and what it knows of the timer and the gates. -/
structure Place where
  unloads : Bool
  inside : Gate → Nat
  calledBack : Bool
  cancelled : Bool
  unlisted : Gate → Bool
  closed : Gate → Bool

def Place.Outside (r : Place) : Prop := (∀ g, r.inside g = 0) ∧ r.calledBack = false

/-- A thread that has made no call yet; thread 0 is the one that unloads. -/
def Place.start (unloads : Bool) : Place where
  unloads := unloads
  inside := fun _ => 0
  calledBack := false
  cancelled := false
  unlisted := fun _ => false
  closed := fun _ => false

def premises : Protocol sig Place where
  allowed o r :=
    match o with
    | .hrtimerCancel | .unlist _ | .drain _ => r.unloads = true
    | .enter _ | .timerExpires => r.unloads = false
    | .leave g => r.inside g ≠ 0
    | .callbackReturns _ => r.calledBack = true
    | _ => r.unloads = true ∨ ¬r.Outside
  possible _ _ _ := True
  next o a r :=
    match o, a with
    | .enter g, true => { r with inside := Function.update r.inside g (r.inside g + 1) }
    | .leave g, _ => { r with inside := Function.update r.inside g (r.inside g - 1) }
    | .timerExpires, _ => { r with calledBack := true }
    | .callbackReturns _, _ => { r with calledBack := false }
    | .hrtimerCancel, _ => { r with cancelled := true }
    | .unlist g, _ => { r with unlisted := Function.update r.unlisted g true }
    | .drain g, _ => { r with closed := Function.update r.closed g (r.unlisted g) }
    | _, _ => r

/-- The place describes thread `t`. -/
structure Describes (s : State) (t : Tid) (r : Place) : Prop where
  unloads : r.unloads = decide (t = 0)
  inside : ∀ g, r.inside g = (s.entrance g).inside.count t
  calledBack : r.calledBack = decide (s.running = some t)
  cancelled : r.cancelled = true → s.cancelled = true
  unlisted : ∀ g, r.unlisted g = true → (s.entrance g).registered = false
  closed : ∀ g, r.closed g = true → (s.entrance g).registered = false ∧ (s.entrance g).inside = []

/-- A cancelled timer stays still unless it is clobbered, or somebody starts it again. -/
def State.Stilled (s : State) : Prop :=
  s.cancelled = true → s.lateStarts = 0 → s.clobbered = false →
    s.enqueued = false ∧ s.running = none

/-- A thread leaves the module before it returns, and the unload closes it first. -/
def Settled (r : Place) (_ : Unit) : Prop :=
  if r.unloads then r.cancelled = true ∧ ∀ g, r.closed g = true else r.Outside

theorem premises_inner {o : Op} (inner : o.Inner) (a : o.Ans) (r : Place) :
    premises.next o a r = r := by
  cases o <;> first | exact inner.elim | rfl

theorem premises_allowed {o : Op} (inner : o.Inner) (r : Place) :
    premises.allowed o r ↔ r.unloads = true ∨ ¬r.Outside := by
  cases o <;> first | exact inner.elim | exact Iff.rfl

/-! ## What one call keeps -/

section Steps

variable {t u : Tid} {e : Env} {o : Op} {a : o.Ans} {s s' : State} {r q : Place}

theorem atGate_here (s : State) (g : Gate) (entrance : Entrance) :
    (s.atGate g entrance).entrance g = entrance := Function.update_self ..

theorem atGate_there {s : State} {g g' : Gate} {entrance : Entrance} (other : g' ≠ g) :
    (s.atGate g entrance).entrance g' = s.entrance g' := Function.update_of_ne other ..

theorem describes_congr (describes : Describes s t r) (entrance : s'.entrance = s.entrance)
    (running : s'.running = s.running) (cancelled : s.cancelled = true → s'.cancelled = true) :
    Describes s' t r where
  unloads := describes.unloads
  inside := by
    rw [entrance]
    exact describes.inside
  calledBack := by
    rw [running]
    exact describes.calledBack
  cancelled := fun known => cancelled (describes.cancelled known)
  unlisted := by
    rw [entrance]
    exact describes.unlisted
  closed := by
    rw [entrance]
    exact describes.closed

/-- After a change at one gate that confirms what is known of it. -/
theorem describes_atGate {g : Gate} (entrance : Entrance) (describes : Describes s u q)
    (registered : (s.entrance g).registered = false → entrance.registered = false)
    (emptied : (s.entrance g).registered = false → (s.entrance g).inside = [] →
      entrance.inside = []) :
    Describes (s.atGate g entrance) u
      { q with inside := Function.update q.inside g (entrance.inside.count u) } where
  unloads := describes.unloads
  inside := by
    intro g'
    by_cases here : g' = g
    · subst here
      rw [atGate_here]
      exact Function.update_self ..
    · rw [atGate_there here]
      exact (Function.update_of_ne here ..).trans (describes.inside g')
  calledBack := describes.calledBack
  cancelled := describes.cancelled
  unlisted := by
    intro g' known
    by_cases here : g' = g
    · subst here
      rw [atGate_here]
      exact registered (describes.unlisted g' known)
    · rw [atGate_there here]
      exact describes.unlisted g' known
  closed := by
    intro g' known
    obtain ⟨gone, empty⟩ := describes.closed g' known
    by_cases here : g' = g
    · subst here
      rw [atGate_here]
      exact ⟨registered gone, emptied gone empty⟩
    · rw [atGate_there here]
      exact ⟨gone, empty⟩

/-- A change at one gate that does not concern the thread. -/
theorem describes_beside {g : Gate} (entrance : Entrance) (describes : Describes s u q)
    (inside : entrance.inside.count u = (s.entrance g).inside.count u)
    (registered : (s.entrance g).registered = false → entrance.registered = false)
    (emptied : (s.entrance g).registered = false → (s.entrance g).inside = [] →
      entrance.inside = []) : Describes (s.atGate g entrance) u q := by
  have after := describes_atGate entrance describes registered emptied
  rwa [inside, ← describes.inside g, Function.update_eq_self] at after

/-- Another thread's call keeps what describes a thread. -/
theorem describes_stable (other : u ≠ t) (answered : kernel t e o s = .done a s')
    (describes : Describes s u q) : Describes s' u q := by
  cases o with
  | hrtimerCancel =>
      obtain ⟨-, rfl⟩ := hrtimerCancel_done answered
      exact describes_congr describes rfl rfl fun _ => rfl
  | timerExpires =>
      obtain ⟨-, still, rfl⟩ := timerExpires_done answered
      refine ⟨describes.unloads, describes.inside, ?_, describes.cancelled, describes.unlisted,
        describes.closed⟩
      rw [describes.calledBack, still]
      simp [Ne.symm other]
  | callbackReturns restart =>
      obtain ⟨running, rfl⟩ := callbackReturns_done answered
      refine ⟨describes.unloads, describes.inside, ?_, describes.cancelled, describes.unlisted,
        describes.closed⟩
      rw [describes.calledBack, running]
      simp [Ne.symm other]
  | enter g =>
      obtain ⟨registered, rfl⟩ := enter_done answered
      cases a with
      | false => exact describes
      | true =>
          refine describes_beside _ describes (List.count_cons_of_ne (Ne.symm other)) (fun gone => gone)
            fun gone _ => ?_
          rw [registered] at gone
          cases gone
  | leave g =>
      rw [leave_done answered]
      refine describes_beside _ describes (List.count_erase_of_ne other) (fun gone => gone)
        fun _ empty => ?_
      rw [empty]
      rfl
  | unlist g =>
      cases answered
      exact describes_beside _ describes rfl (fun _ => rfl) fun _ empty => empty
  | drain g =>
      obtain ⟨-, rfl⟩ := drain_done answered
      exact describes
  | _ =>
      have inside := inner_done (by trivial) answered
      exact describes_congr describes inside.entrance inside.running fun known =>
        inside.cancelled.trans known

/-- A thread's own call moves what describes it along the protocol. -/
theorem describes_own (describes : Describes s t r) (answered : kernel t e o s = .done a s') :
    Describes s' t (premises.next o a r) := by
  cases o with
  | hrtimerCancel =>
      obtain ⟨-, rfl⟩ := hrtimerCancel_done answered
      exact ⟨describes.unloads, describes.inside, describes.calledBack, fun _ => rfl,
        describes.unlisted, describes.closed⟩
  | timerExpires =>
      obtain ⟨-, -, rfl⟩ := timerExpires_done answered
      exact ⟨describes.unloads, describes.inside, (decide_eq_true rfl).symm, describes.cancelled,
        describes.unlisted, describes.closed⟩
  | callbackReturns restart =>
      obtain ⟨-, rfl⟩ := callbackReturns_done answered
      exact ⟨describes.unloads, describes.inside, (decide_eq_false nofun).symm,
        describes.cancelled, describes.unlisted, describes.closed⟩
  | enter g =>
      obtain ⟨registered, rfl⟩ := enter_done answered
      cases a with
      | false => exact describes
      | true =>
          have after := describes_atGate (g := g)
            { s.entrance g with inside := t :: (s.entrance g).inside } describes (fun gone => gone)
            fun gone _ => by
              rw [registered] at gone
              cases gone
          rwa [List.count_cons_self, ← describes.inside g] at after
  | leave g =>
      rw [leave_done answered]
      have after := describes_atGate (g := g)
        { s.entrance g with inside := (s.entrance g).inside.erase t } describes
        (fun gone => gone) fun _ empty => by
          rw [empty]
          rfl
      rwa [List.count_erase_self, ← describes.inside g] at after
  | unlist g =>
      cases answered
      have after := describes_beside (g := g)
        { s.entrance g with registered := false } describes rfl (fun _ => rfl)
        fun _ empty => empty
      refine ⟨after.unloads, after.inside, after.calledBack, after.cancelled, fun g' known => ?_,
        after.closed⟩
      by_cases here : g' = g
      · subst here
        rw [atGate_here]
      · have before : r.unlisted g' = true := by simpa [premises, here] using known
        exact after.unlisted g' before
  | drain g =>
      obtain ⟨empty, rfl⟩ := drain_done answered
      refine ⟨describes.unloads, describes.inside, describes.calledBack, describes.cancelled,
        describes.unlisted, fun g' known => ?_⟩
      by_cases here : g' = g
      · subst here
        exact ⟨describes.unlisted g' (by simpa [premises] using known), empty⟩
      · exact describes.closed g' (by simpa [premises, here] using known)
  | _ =>
      have inside := inner_done (by trivial) answered
      exact describes_congr describes inside.entrance inside.running fun known =>
        inside.cancelled.trans known

theorem stilled_step (stilled : s.Stilled) (answered : kernel t e o s = .done a s') :
    s'.Stilled := by
  intro cancelled onTime intact
  cases o with
  | hrtimerCancel =>
      obtain ⟨waited, rfl⟩ := hrtimerCancel_done answered
      have whole : s.clobbered = false := intact
      have still := waited.resolve_right (Bool.eq_false_iff.mp whole)
      exact ⟨by simp [State.cancel, whole], still⟩
  | timerExpires =>
      obtain ⟨queued, -, rfl⟩ := timerExpires_done answered
      have idle := (stilled cancelled onTime intact).1
      rw [queued] at idle
      cases idle
  | callbackReturns restart =>
      obtain ⟨running, rfl⟩ := callbackReturns_done answered
      have idle := (stilled cancelled onTime intact).2
      rw [running] at idle
      cases idle
  | enter g =>
      obtain ⟨-, rfl⟩ := enter_done answered
      cases a <;> exact stilled cancelled onTime intact
  | leave g =>
      have left := leave_done answered
      subst left
      exact stilled cancelled onTime intact
  | unlist g =>
      cases answered
      exact stilled cancelled onTime intact
  | drain g =>
      obtain ⟨-, rfl⟩ := drain_done answered
      exact stilled cancelled onTime intact
  | _ =>
      have inside := inner_done (by trivial) answered
      have before : s.cancelled = true := inside.cancelled.symm.trans cancelled
      have early : s.lateStarts = 0 := Nat.eq_zero_of_le_zero (onTime ▸ inside.lateStarts)
      rw [inside.enqueued before onTime, inside.running]
      exact stilled before early (inside.intact intact)

end Steps

/-! ## The threads keep to the premises -/

theorem inner_follows {α : Type} {r : Place} (within : r.unloads = true ∨ ¬r.Outside)
    {Q : Place → α → Prop} (ends : ∀ a, Q r a) {p : Code α} (only : p.Only Op.Inner) :
    p.Follows premises Q r :=
  only.follows (fun _ inner => ⟨(premises_allowed inner r).mpr within,
    fun a => premises_inner inner a r⟩) ends

/-- A visitor that has come in through gate `g`. -/
def Place.through (g : Gate) : Place :=
  { Place.start false with inside := Function.update (fun _ => 0) g 1 }

theorem through_not_outside (g : Gate) : ¬(Place.through g).Outside := by
  intro outside
  have empty := outside.1 g
  simp [Place.through] at empty

theorem visit_follows {α : Type} (g : Gate) (refused : α) {body : Code α}
    (inner : body.Only Op.Inner) :
    (visit g refused body).Follows premises Settled (Place.start false) := by
  have away : Settled (Place.start false) () := ⟨fun _ => rfl, rfl⟩
  simp only [visit, throughGate, enter, call, Prog.call_bind, Prog.ret_bind, Prog.follows_call]
  refine ⟨rfl, ?_⟩
  intro entered _
  cases entered with
  | false => exact away
  | true =>
      rw [if_pos rfl, Prog.follows_bind, Prog.follows_bind]
      refine inner_follows (r := Place.through g) (Or.inr (through_not_outside g)) (fun a => ?_) inner
      simp only [leave, call, Prog.call_bind, Prog.ret_bind, Prog.follows_call]
      refine ⟨?_, fun _ _ => ?_⟩
      · show Function.update (fun _ => 0) g 1 g ≠ 0
        rw [Function.update_self]
        exact Nat.one_ne_zero
      · refine ⟨fun g' => ?_, rfl⟩
        show Function.update (Function.update (fun _ => 0) g 1) g _ g' = 0
        rw [Function.update_idem]
        by_cases here : g' = g
        · subst here
          simp [Place.through]
        · rw [Function.update_of_ne here]

theorem timerInterrupt_follows : timerInterrupt.Follows premises Settled (Place.start false) := by
  simp only [timerInterrupt, timerExpires, call, Prog.call_bind, Prog.ret_bind, Prog.follows_call]
  refine ⟨rfl, ?_⟩
  intro _ _
  rw [Prog.follows_bind]
  have within : ¬Place.Outside { Place.start false with calledBack := true } := fun outside =>
    Bool.noConfusion outside.2
  refine inner_follows (Or.inr within) (fun restart => ?_)
    ((samplePerfCounters_samples eventCodes).mono samples_inner)
  exact ⟨rfl, fun _ _ => ⟨fun _ => rfl, rfl⟩⟩

/-- Closing a gate teaches that it is closed. -/
theorem closeGate_follows {r : Place} (unloads : r.unloads = true) (g : Gate) :
    (closeGate g).Follows premises
      (fun r' _ => r'.unloads = true ∧ r'.cancelled = r.cancelled ∧ r'.closed g = true ∧
        ∀ g', r.closed g' = true → r'.closed g' = true) r := by
  simp only [closeGate, unlist, drain, call, Prog.call_bind, Prog.ret_bind, Prog.follows_call]
  refine ⟨unloads, fun _ _ => ⟨unloads, fun _ _ => ⟨unloads, rfl, ?_, fun g' closed => ?_⟩⟩⟩
  · simp [premises]
  · by_cases here : g' = g
    · subst here
      simp [premises]
    · simpa [premises, here] using closed

theorem stopMonitoring_follows :
    (stopMonitoring eventCodes).Follows premises
      (fun r _ => r.unloads = true ∧ r.cancelled = true) (Place.start true) := by
  simp only [stopMonitoring, hrtimerCancel, getPerfData, call, Prog.call_bind, Prog.ret_bind,
    Prog.follows_call]
  refine ⟨rfl, fun _ _ => ⟨Or.inl rfl, ?_⟩⟩
  intro perfData _
  refine inner_follows (Or.inl rfl) (fun _ => ⟨rfl, rfl⟩) (Prog.only_bind ?_ fun _ => ?_)
  · exact (cleanupPerfCounters_clears eventCodes perfData).mono clears_inner
  · simp [Op.Inner]

theorem moduleExit_follows : moduleExit.Follows premises Settled (Place.start true) := by
  unfold moduleExit
  rw [Prog.follows_bind]
  refine stopMonitoring_follows.mono fun r₁ _ ⟨unloads₁, cancelled₁⟩ => ?_
  rw [Prog.follows_bind]
  refine (closeGate_follows unloads₁ .messageEntry).mono
    fun r₂ _ ⟨unloads₂, cancelled₂, message, _⟩ => ?_
  rw [Prog.follows_bind]
  refine (closeGate_follows unloads₂ .pidEntry).mono
    fun r₃ _ ⟨unloads₃, cancelled₃, pid, before₃⟩ => ?_
  refine (closeGate_follows unloads₃ .probe).mono
    fun r₄ _ ⟨unloads₄, cancelled₄, probe, before₄⟩ => ?_
  rw [Settled, if_pos unloads₄]
  refine ⟨by rw [cancelled₄, cancelled₃, cancelled₂, cancelled₁], ?_⟩
  intro g
  cases g with
  | messageEntry => exact before₄ _ (before₃ _ message)
  | pidEntry => exact before₄ _ pid
  | probe => exact probe

/-! ## Quiescence -/

theorem machineAfter_relies (happenings : List Happening) :
    (machineAfter happenings).Relies premises Settled State.Stilled Describes (Place.start false) := by
  have idle : ∀ t, t ≠ 0 → Describes .initial t (Place.start false) := fun t later =>
    ⟨(decide_eq_false later).symm, fun _ => rfl, rfl, nofun, nofun, nofun⟩
  refine Pool.run_relies ?_ ?_ ?_ ?_ ⟨nofun, ?_, ?_⟩
  · intro t e o s a s' r stilled describes _ answered
    exact ⟨stilled_step stilled answered, trivial, describes_own describes answered⟩
  · intro t u e o s a s' r q other _ _ answered describes
    exact describes_stable other answered describes
  · intro task s stilled
    exact ⟨stilled, fun t r describes => describes_congr describes rfl rfl fun known => known⟩
  · intro thread started
    obtain ⟨happening, -, same⟩ := List.mem_map.mp started
    cases happening with
    | write env =>
        cases same
        exact visit_follows _ _ (pidWrite_inner _)
    | read env count ppos =>
        cases same
        exact visit_follows _ _ (messageRead_inner count ppos)
    | switch env =>
        cases same
        exact visit_follows _ _ helloSwitch_inner
    | expire env =>
        cases same
        exact timerInterrupt_follows
    | step t => cases same
    | die task => cases same
  · intro t thread found
    cases t with
    | zero =>
        cases found
        exact ⟨Place.start true, ⟨rfl, fun _ => rfl, rfl, nofun, nofun, nofun⟩, moduleExit_follows⟩
    | succ t => cases found
  · intro t later
    exact idle t (Nat.ne_of_gt later)

/-- The thread has returned, or stands before an entrance through which it will never
come in. -/
def Closed (s : State) : Code Unit → Prop
  | .ret _ => True
  | .call (.enter g) _ => (s.entrance g).registered = false
  | .call .timerExpires _ => s.enqueued = false
  | .call _ _ => False

/-- The timer is neither queued nor running, and nobody is inside or can come in. -/
structure Quiesced (c : Machine) : Prop where
  unqueued : c.shared.enqueued = false
  still : c.shared.running = none
  away : ∀ (t : Nat) (thread : Thread sig Env Unit), c.threads[t]? = some thread → Closed c.shared thread.prog

/-- **The unload quiesces the module** in every run in which nobody starts the timer after
the unload has cancelled it, nor initialises it while it is queued or its callback runs. -/
theorem unload_quiesces (happenings : List Happening)
    (onTime : (machineAfter happenings).shared.lateStarts = 0)
    (intact : (machineAfter happenings).shared.clobbered = false)
    (returned : (machineAfter happenings).Returned 0) : Quiesced (machineAfter happenings) := by
  have relies := machineAfter_relies happenings
  obtain ⟨e, a, found⟩ := returned
  obtain ⟨r, describes, settled⟩ := relies.follows 0 _ found
  have unloads : r.unloads = true := describes.unloads.trans (decide_eq_true rfl)
  have known : Settled r a := settled
  rw [Settled, if_pos unloads] at known
  have closed := fun g => describes.closed g (known.2 g)
  obtain ⟨unqueued, still⟩ := relies.inv (describes.cancelled known.1) onTime intact
  refine ⟨unqueued, still, ?_⟩
  intro t thread at_t
  obtain ⟨q, place, follows⟩ := relies.follows t thread at_t
  obtain ⟨env, prog⟩ := thread
  cases prog with
  | ret a => trivial
  | call o k =>
      have later : t ≠ 0 := by
        rintro rfl
        rw [found] at at_t
        cases at_t
      have visits : q.unloads = false := place.unloads.trans (decide_eq_false later)
      have outside : q.Outside := by
        refine ⟨fun g => ?_, ?_⟩
        · rw [place.inside g, (closed g).2]
          rfl
        · rw [place.calledBack, still]
          rfl
      have allowed := follows.1
      cases o with
      | enter g => exact (closed g).1
      | timerExpires => exact unqueued
      | leave g => exact absurd (outside.1 g) allowed
      | callbackReturns restart => exact Bool.noConfusion (outside.2.symm.trans allowed)
      | hrtimerCancel | unlist g | drain g => exact Bool.noConfusion (visits.symm.trans allowed)
      | _ =>
          rcases (premises_allowed (by trivial) q).mp allowed with unloads | inside
          · exact Bool.noConfusion (visits.symm.trans unloads)
          · exact absurd outside inside

/-- A write that starts a session, and the unload. -/
def startAndUnload : List Happening :=
  .write (.echo "5\n".toList) :: List.replicate 59 (.step 1) ++ List.replicate 38 (.step 0)

theorem startAndUnload_quiesces : Quiesced (machineAfter startAndUnload) :=
  unload_quiesces startAndUnload (by decide +kernel) (by decide +kernel) (by decide +kernel)

/-- A second session is started while the first has the timer queued. -/
def startTwiceAndUnload : List Happening :=
  .write (.echo "5\n".toList) :: List.replicate 59 (.step 1) ++
    .write (.echo "6\n".toList) :: List.replicate 59 (.step 2) ++ List.replicate 38 (.step 0)

/-- Nobody starts the timer late, and still it is queued when the unload has returned. -/
example :
    (machineAfter startTwiceAndUnload).shared.lateStarts = 0 ∧
      (machineAfter startTwiceAndUnload).Returned 0 ∧
      (machineAfter startTwiceAndUnload).shared.enqueued = true := by
  decide +kernel

/-- A session is running, and a second writer has come in, when the module begins to be
unloaded; the writer starts its session once `stop_monitoring` is through. -/
def lateWriter : List Happening :=
  .write (.echo "5\n".toList) :: List.replicate 59 (.step 1) ++
    .write (.echo "6\n".toList) :: .step 2 :: List.replicate 32 (.step 0) ++
    List.replicate 58 (.step 2) ++ List.replicate 6 (.step 0)

theorem late_writer_rearms : ¬∀ happenings, (machineAfter happenings).Returned 0 →
    Quiesced (machineAfter happenings) := by
  intro quiesces
  have rearmed : (machineAfter lateWriter).shared.enqueued = true := by decide +kernel
  have quiesced := quiesces lateWriter (by decide +kernel)
  exact Bool.noConfusion (rearmed.symm.trans quiesced.unqueued)

end Dreamscape.MonitorV2
