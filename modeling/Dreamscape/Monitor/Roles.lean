/-
# Monitor.Roles -- what the threads do that load, unload and use cache_kprobe_monitor

Where a thread stands is its role: outside, inside a gate, loading the module or unloading
it.  A role says which calls come next.  A handler that sets the target or allocates is
armed: it came in through the proc entry, or has read a target that is a number of a task,
and the target that the module starts with is not.
-/
import Dreamscape.Monitor.Lifecycle
import Dreamscape.Monitor.Ownership

namespace Dreamscape.Monitor.Lifecycle

set_option autoImplicit false

open Theory Kernel Unloading

/-! ## Roles -/

/-- How far an init has come: `answered` and `stored` say whether there is a proc entry. -/
inductive Loading where
  | begun
  | probed
  | answered (made : Bool)
  | stored (made : Bool)
  | unlisted

/-- `armed`: the thread has come in through the proc entry, or has read a target that a
command set. -/
inductive Role where
  | outside
  | inside (g : Gate) (r : Reach) (armed : Bool)
  | loads (k : Loading)
  | unloads (place : Place)

/-- The calls that set the target or allocate. -/
def Op.Acts : Op → Prop
  | .setTargetPid _ | .kmalloc => True
  | _ => False

def arm (o : Op) (a : o.Ans) (armed : Bool) : Bool :=
  match o, a with
  | .targetPid, pid => armed || pid != -1
  | _, _ => armed

def entryOf (made : Bool) : Option Gate := if made then some .procEntry else none

/-- What a role allows, call by call. -/
inductive May : Call → Role → Prop
  | enter {g : Gate} : May (.module (.enter g)) .outside
  | core {g : Gate} {r : Reach} {armed : Bool} {o : Op} (allowed : reaches.allowed o r)
      (acts : Op.Acts o → armed = true) : May (.module (.core o)) (.inside g r armed)
  | leave {g : Gate} {r : Reach} {armed : Bool} (unlinked : r.new = none) :
      May (.module (.leave g)) (.inside g r armed)
  | beginInit : May .beginInit .outside
  | beginExit : May .beginExit .outside
  | registerKprobe : May .registerKprobe (.loads .begun)
  | procCreate : May .procCreate (.loads .probed)
  | setProcEntry {made : Bool} : May (.setProcEntry (entryOf made)) (.loads (.answered made))
  | procEntry {made : Bool} : May .procEntry (.loads (.stored made))
  | unlist : May (.module (.unlist .probe)) (.loads (.stored false))
  | drain : May (.module (.drain .probe)) (.loads .unlisted)
  | fails {ret : Int} (negative : ret < 0) : May (.endInit ret) (.loads .begun)
  | succeeds {ret : Int} (fine : ¬ ret < 0) : May (.endInit ret) (.loads (.stored true))
  | unload {o : Unloading.Call} {place : Place} (turn : Unloading.Turn o place) (exits : place.Exits) :
      May (.module o) (.unloads place)
  | exitEntry {place : Place} : May .procEntry (.unloads place)
  | endExit : May .endExit (.unloads (.deleting [] none))

def Role.next (o : Call) (a : o.Ans) (role : Role) : Role :=
  match role, o, a with
  | .outside, .module (.enter g), true => .inside g .nothing (g == .procEntry)
  | .inside g r armed, .module (.core o), a => .inside g (reaches.next o a r) (arm o a armed)
  | .inside .., .module (.leave _), _ => .outside
  | .outside, .beginInit, _ => .loads .begun
  | .outside, .beginExit, _ => .unloads .exits
  | .loads k, .registerKprobe, ret => .loads (if ret < 0 then k else .probed)
  | .loads _, .procCreate, entry => .loads (.answered entry.isSome)
  | .loads (.answered made), .setProcEntry _, _ => .loads (.stored made)
  | .loads _, .module (.unlist _), _ => .loads .unlisted
  | .loads _, .module (.drain _), _ => .loads .begun
  | .loads _, .endInit _, _ => .outside
  | .unloads place, .module o, a => .unloads (places.next o a place)
  | .unloads _, .endExit, _ => .outside
  | role, _, _ => role

def Role.Possible (o : Call) (a : o.Ans) (role : Role) : Prop :=
  match role, o, a with
  | .loads _, .procCreate, entry => ∃ made, entry = entryOf made
  | .loads (.stored made), .procEntry, entry => entry = entryOf made
  | .unloads _, .procEntry, entry => entry = some .procEntry
  | .unloads place, .module o, a => places.possible o a place
  | _, _, _ => True

def roles : Protocol calls Role where
  allowed := May
  possible o a role := role.Possible o a
  next o a role := role.next o a

def Outside (role : Role) (_ : Unit) : Prop := role = .outside

/-! ## Programs -/

/-- Setting the target and allocating are for who is armed. -/
def arming : Protocol sig Bool where
  allowed o armed := Op.Acts o → armed = true
  possible _ _ _ := True
  next := arm

/-- Who is armed stays so. -/
theorem armed_arming {α : Type} (p : Code α) : p.Follows arming (fun _ _ => True) true := by
  induction p with
  | ret a => trivial
  | call o k ih =>
      refine ⟨fun _ => rfl, fun a _ => ?_⟩
      have still : arm o a true = true := by cases o <;> rfl
      show (k a).Follows arming _ (arm o a true)
      rw [still]
      exact ih a

/-- A hit in a task with a number is armed by the comparison. -/
theorem preHandler_arming (regs : PtRegs) :
    (preHandler regs).Follows arming (fun _ _ => True) false := by
  refine ⟨False.elim, fun pid _ => ⟨False.elim, fun _ _ => ⟨False.elim, ?_⟩⟩⟩
  intro target _
  show (if (pid : Int) = target then _ else _ : Code Int).Follows arming _ (false || target != -1)
  split
  · rename_i same
    have set : (false || target != -1) = true := by
      rw [← same]
      simp
    rw [set]
    exact armed_arming _
  · exact ⟨False.elim, fun _ _ => trivial⟩

theorem handler_roles {α : Type} {p : Code α} {Q : Reach → α → Prop} {r : Reach} {armed : Bool}
    (reach : p.Follows reaches Q r) (arms : p.Follows arming (fun _ _ => True) armed) (g : Gate) :
    (lift (Unloading.lift p)).Follows roles
      (fun role a => ∃ r' armed', role = .inside g r' armed' ∧ Q r' a) (.inside g r armed) := by
  induction p generalizing r armed with
  | ret a => exact ⟨r, armed, rfl, reach⟩
  | call o k ih =>
      exact ⟨.core reach.1 arms.1, fun a _ => ih a (reach.2 a trivial) (arms.2 a trivial)⟩

theorem visit_roles (g : Gate) {body : Code Int}
    (reach : body.Follows reaches ReturnsLinked .nothing)
    (arms : body.Follows arming (fun _ _ => True) (g == .procEntry)) :
    (lift (visit g body)).Follows roles Outside .outside := by
  refine ⟨.enter, ?_⟩
  intro admitted _
  cases admitted with
  | false => rfl
  | true =>
      show (lift (Unloading.lift body >>= fun _ => leave g)).Follows roles Outside _
      rw [lift, Prog.expand_bind, Prog.follows_bind]
      apply (handler_roles reach arms g).mono
      rintro _ a ⟨r, armed, rfl, unlinked⟩
      exact ⟨.leave unlinked, fun _ _ => rfl⟩

/-- The exit code goes through its places. -/
theorem unloads_roles {α : Type} {p : UnloadCode α} {Q : Place → α → Prop} {place : Place}
    (follows : p.Follows places Q place) (exits : place.Exits) :
    (lift p).Follows roles
      (fun role a => ∃ place', role = .unloads place' ∧ place'.Exits ∧ Q place' a)
      (.unloads place) := by
  induction p generalizing place with
  | ret a => exact ⟨place, rfl, exits, follows⟩
  | call o k ih =>
      refine ⟨.unload (turn_of_allowed follows.1) exits, fun a possible => ?_⟩
      exact ih a (follows.2 a possible) ((places_role follows.1).mpr exits)

theorem exit_roles : perfCacheKprobeModuleExit.Follows roles
    (fun role _ => role = .unloads (.deleting [] none)) (.unloads .exits) := by
  have whole : (unregisterKprobe >>= fun _ => Unloading.procRemove >>= fun _ => freeCounterList
      : UnloadCode Unit).Follows places Settled .exits := exit_places
  rw [Prog.follows_bind] at whole
  show (lift unregisterKprobe >>= _).Follows roles _ _
  rw [Prog.follows_bind]
  apply (unloads_roles whole trivial).mono
  rintro _ _ ⟨place, rfl, exits, rest⟩
  refine ⟨.exitEntry, ?_⟩
  rintro _ rfl
  rw [Prog.follows_bind] at rest
  show (lift Unloading.procRemove >>= fun _ => lift freeCounterList).Follows roles _ _
  rw [Prog.follows_bind]
  apply (unloads_roles rest exits).mono
  rintro _ _ ⟨place, rfl, exits, rest⟩
  apply (unloads_roles rest exits).mono
  rintro _ _ ⟨place, rfl, exits, rfl | rfl⟩
  · exact exits.elim
  · rfl

theorem init_roles : perfCacheKprobeModuleInit.Follows roles
    (fun role ret => May (.endInit ret) role) (.loads .begun) := by
  refine ⟨.registerKprobe, ?_⟩
  intro ret _
  show (if ret < 0 then _ else _ : LoadCode Int).Follows roles _
    (.loads (if ret < 0 then .begun else .probed))
  split
  · rename_i negative
    exact .fails negative
  · refine ⟨.procCreate, ?_⟩
    rintro _ ⟨made, rfl⟩
    cases made with
    | true =>
        refine ⟨@May.setProcEntry true, fun _ _ => ⟨.procEntry, ?_⟩⟩
        rintro _ rfl
        exact .succeeds (by decide)
    | false =>
        refine ⟨@May.setProcEntry false, fun _ _ => ⟨.procEntry, ?_⟩⟩
        rintro _ rfl
        exact ⟨.unlist, fun _ _ => ⟨.drain, fun _ _ => .fails (by decide)⟩⟩

theorem load_roles : load.Follows roles Outside .outside := by
  refine ⟨.beginInit, fun _ _ => ?_⟩
  show (perfCacheKprobeModuleInit >>= endInit).Follows roles Outside (.loads .begun)
  rw [Prog.follows_bind]
  apply init_roles.mono
  intro role ret may
  refine ⟨may, fun _ _ => ?_⟩
  cases may <;> rfl

theorem unload_roles : unload.Follows roles Outside .outside := by
  refine ⟨.beginExit, fun _ _ => ?_⟩
  show (perfCacheKprobeModuleExit >>= fun _ => endExit).Follows roles Outside (.unloads .exits)
  rw [Prog.follows_bind]
  apply exit_roles.mono
  rintro _ _ rfl
  exact ⟨.endExit, fun _ _ => rfl⟩

end Dreamscape.Monitor.Lifecycle
