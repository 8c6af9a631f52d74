/-
# Monitor.Reach -- which entries a handler can reach, and where a thread stands in the unload

What a handler can reach is a protocol on its own calls: it uses the entries it has found in
`counter_list`, and allocates and links one at a time, under the mutex.  Where a thread stands
in the unload is a protocol over it: a handler is inside a gate while it can reach an entry,
and the exit code waits at both gates before it deletes.
-/
import Dreamscape.Monitor.Unloading

namespace Dreamscape.Monitor.Unloading

set_option autoImplicit false

open Theory Kernel

/-! ## What a handler can reach -/

/-- The entries a handler has pointers to, the one it has allocated and not linked, and
whether it holds the mutex. -/
structure Reach where
  known : List Ptr
  new : Option Ptr
  owns : Bool

def Reach.nothing : Reach := ⟨[], none, false⟩

/-- A handler uses the entries it knows, and allocates and links under the mutex. -/
def reaches : Protocol sig Reach where
  allowed o r :=
    match o with
    | .entryPc p | .entryCounter p _ | .addCounter p _ _ => p ∈ r.known
    | .setEntryPc q _ | .setEntryCounters q _ => ∀ p, q = some p → p ∈ r.known
    | .kmalloc => r.owns = true ∧ r.new = none
    | .listAdd q => r.owns = true ∧ ∀ p, q = some p → r.new = some p
    | .mutexUnlock => r.new = none
    | _ => True
  possible _ _ _ := True
  next o a r :=
    match o, a with
    | .counterList, list => { r with known := list ++ r.known }
    | .kmalloc, some p => { r with known := p :: r.known, new := some p }
    | .listAdd (some _), _ => { r with new := none }
    | .mutexLock, _ => { r with owns := true }
    | .mutexUnlock, _ => { r with owns := false }
    | _, _ => r

/-- A handler returns with nothing it has not linked. -/
def ReturnsLinked (r : Reach) (_ : Int) : Prop := r.new = none

/-- The calls that concern no entry and not the mutex. -/
def Op.Aloof : Op → Prop
  | .entryPc _ | .entryCounter .. | .addCounter .. | .setEntryPc .. | .setEntryCounters ..
  | .kmalloc | .listAdd _ | .counterList | .mutexLock | .mutexUnlock => False
  | _ => True

theorem reaches_aloof {r : Reach} (o : Op) (aloof : Op.Aloof o) :
    reaches.allowed o r ∧ ∀ a, reaches.next o a r = r := by
  cases o <;> first | exact aloof.elim | exact ⟨trivial, fun _ => rfl⟩

section Handlers

variable {r : Reach}

theorem writeCounters_reaches (file : Nat) {entry : Ptr} (known : entry ∈ r.known)
    (is : List (Fin numEvents)) :
    (writeCounters file entry is).Follows reaches (fun r' _ => r' = r) r := by
  induction is with
  | nil => rfl
  | cons i is ih => exact ⟨known, fun _ _ => ⟨trivial, fun _ _ => ih⟩⟩

theorem writeEntries_reaches (file : Nat) {list : List Ptr} (known : ∀ p ∈ list, p ∈ r.known) :
    (writeEntries file list).Follows reaches (fun r' _ => r' = r) r := by
  induction list with
  | nil => rfl
  | cons entry rest ih =>
      have here : entry ∈ r.known := known entry List.mem_cons_self
      have line : (do
          writeCounters file entry (List.finRange numEvents)
          fOpWrite file (snprintf 64 ['\n'])
          writeEntries file rest : Code Unit).Follows reaches (fun r' _ => r' = r) r := by
        rw [Prog.follows_bind]
        apply (writeCounters_reaches file here _).mono
        rintro _ _ rfl
        exact ⟨trivial, fun _ _ => ih fun p inside => known p (List.mem_cons_of_mem entry inside)⟩
      refine ⟨here, fun pc _ => ⟨trivial, ?_⟩⟩
      intro writable _
      cases writable with
      | false => exact line
      | true => exact ⟨trivial, fun _ _ => line⟩

theorem writeKinfoToFile_reaches (pid : Int) :
    (writeKinfoToFile pid).Follows reaches (fun r' _ => r'.new = r.new ∧ r'.owns = r.owns) r := by
  refine ⟨trivial, ?_⟩
  intro opened _
  cases opened with
  | error err => exact ⟨rfl, rfl⟩
  | ok file =>
      refine ⟨trivial, fun oldFs _ => ⟨trivial, fun _ _ => ⟨trivial, fun _ _ => ⟨trivial, ?_⟩⟩⟩⟩
      intro list _
      show (writeEntries file list >>= _).Follows reaches _ _
      rw [Prog.follows_bind]
      apply (writeEntries_reaches file fun p inside => List.mem_append_left _ inside).mono
      rintro _ _ rfl
      exact ⟨trivial, fun _ _ => ⟨trivial, fun _ _ => ⟨rfl, rfl⟩⟩⟩

/-- The section that sets the target leaves the entries alone. -/
theorem setTarget_reaches (unlinked : r.new = none) (pid : Int) (count : Nat) :
    (do
        mutexLock
        setTargetPid pid
        mutexUnlock
        return count : Code Int).Follows reaches ReturnsLinked r :=
  ⟨trivial, fun _ _ => ⟨trivial, fun _ _ => ⟨unlinked, fun _ _ => unlinked⟩⟩⟩

theorem commandHandler_reaches (count : Nat) :
    (commandHandler count).Follows reaches ReturnsLinked .nothing := by
  refine commandHandler_follows count (fun _ => rfl) ⟨trivial, fun _ => rfl⟩
    ⟨trivial, fun _ => rfl⟩ (fun pid => setTarget_reaches rfl pid count) fun pid => ?_
  apply (writeKinfoToFile_reaches pid).mono
  rintro r _ ⟨unlinked, -⟩
  exact setTarget_reaches unlinked (-1) count

theorem findEntry_reaches (pc : U64) {list : List Ptr} (known : ∀ p ∈ list, p ∈ r.known) :
    (findEntry pc list).Follows reaches
      (fun r' found => r' = r ∧ ∀ p, found = some p → p ∈ r.known) r := by
  induction list with
  | nil => exact ⟨rfl, nofun⟩
  | cons entry rest ih =>
      have here : entry ∈ r.known := known entry List.mem_cons_self
      refine ⟨here, ?_⟩
      intro held _
      show (if held = pc then _ else _ : Code (Option Ptr)).Follows reaches _ r
      split
      · refine ⟨rfl, ?_⟩
        rintro _ ⟨⟩
        exact here
      · exact ih fun p inside => known p (List.mem_cons_of_mem entry inside)

theorem addCounters_reaches {entry : Ptr} (known : entry ∈ r.known) (v : Counters)
    (is : List (Fin numEvents)) :
    (addCounters entry v is).Follows reaches (fun r' _ => r' = r) r := by
  induction is with
  | nil => rfl
  | cons i is ih => exact ⟨known, fun _ _ => ih⟩

/-- `update_counters` links what it allocates. -/
theorem updateCounters_reaches (owns : r.owns = true) (unlinked : r.new = none) (pc : U64)
    (v : Counters) :
    (updateCounters pc v).Follows reaches (fun r' _ => r'.new = none) r := by
  refine ⟨trivial, ?_⟩
  intro list _
  show (findEntry pc list >>= _).Follows reaches _ _
  rw [Prog.follows_bind]
  apply (findEntry_reaches pc fun p inside => List.mem_append_left _ inside).mono
  rintro _ found ⟨rfl, known⟩
  cases found with
  | some entry =>
      apply (addCounters_reaches (known entry rfl) v _).mono
      rintro _ _ rfl
      exact unlinked
  | none =>
      refine ⟨⟨owns, unlinked⟩, ?_⟩
      intro entry _
      cases entry with
      | none => exact ⟨nofun, fun _ _ => ⟨nofun, fun _ _ => ⟨⟨owns, nofun⟩, fun _ _ => unlinked⟩⟩⟩
      | some p =>
          have here : ∀ q, some p = some q → q ∈ p :: (list ++ r.known) := by
            rintro q ⟨⟩
            exact List.mem_cons_self
          have new : ∀ q, some p = some q → some p = some q := fun _ same => same
          exact ⟨here, fun _ _ => ⟨here, fun _ _ => ⟨⟨owns, new⟩, fun _ _ => rfl⟩⟩⟩

theorem measures_aloof (o : Op) (measures : o.Measures) : Op.Aloof o := by
  cases o <;> first | exact measures.elim | trivial

/-- The two loops over the events leave the entries alone. -/
theorem measuring_reaches {α : Type} {p : Code α} (only : p.Only Op.Measures) :
    p.Follows reaches (fun r' _ => r' = r) r :=
  (only.mono measures_aloof).follows reaches_aloof fun _ => rfl

theorem preHandler_reaches (regs : PtRegs) :
    (preHandler regs).Follows reaches ReturnsLinked .nothing := by
  refine ⟨trivial, fun pid _ => ⟨trivial, fun _ _ => ⟨trivial, ?_⟩⟩⟩
  intro target _
  show (if (pid : Int) = target then _ else _ : Code Int).Follows reaches ReturnsLinked _
  split
  · show (createEvents pid eventCodes [] >>= _).Follows reaches ReturnsLinked _
    rw [Prog.follows_bind]
    apply (measuring_reaches (createEvents_measures pid eventCodes [])).mono
    rintro _ made rfl
    cases made with
    | error err => rfl
    | ok events =>
        show (readEvents events [] >>= _).Follows reaches ReturnsLinked _
        rw [Prog.follows_bind]
        apply (measuring_reaches (readEvents_measures events [])).mono
        rintro _ values rfl
        show (updateCounters (regsReturnValue regs) (counterArray values) >>= _).Follows reaches
          ReturnsLinked _
        rw [Prog.follows_bind]
        apply (updateCounters_reaches rfl rfl _ _).mono
        intro r _ unlinked
        exact ⟨unlinked, fun _ _ => unlinked⟩
  · exact ⟨rfl, fun _ _ => rfl⟩

end Handlers

/-! ## Where a thread stands -/

/-- A handler outside its gate or inside, and the exit code closing the gates or deleting: then
`chain` is what is left of the list and `detached` an entry out of it and not freed yet. -/
inductive Place where
  | outside
  | inside (g : Gate) (r : Reach)
  | closing (unlisted drained : Gate → Bool)
  | deleting (chain : List Ptr) (detached : Option Ptr)

def Place.exits : Place := .closing (fun _ => false) (fun _ => false)

def places : Protocol calls Place where
  allowed o place :=
    match place, o with
    | .outside, .enter _ => True
    | .inside _ r, .core o => reaches.allowed o r
    | .inside g r, .leave g' => g' = g ∧ r.new = none
    | .closing _ _, .unlist _ => True
    | .closing unlisted _, .drain g => unlisted g = true
    | .closing _ drained, .core .counterList => ∀ g, drained g = true
    | .deleting chain none, .nextEntry entry => ∀ p, entry = some p → p ∈ chain
    | .deleting chain none, .listDel p => p ∈ chain
    | .deleting _ detached, .kfree p => detached = some p
    | _, _ => False
  possible o a place :=
    match place, o, a with
    | .deleting chain _, .nextEntry none, next => next = chain.head?
    | .deleting chain _, .nextEntry (some p), next => next = successor chain p
    | _, _, _ => True
  next o a place :=
    match place, o, a with
    | .outside, .enter g, true => .inside g .nothing
    | .inside g r, .core o, a => .inside g (reaches.next o a r)
    | .inside _ _, .leave _, _ => .outside
    | .closing unlisted drained, .unlist g, _ => .closing (Function.update unlisted g true) drained
    | .closing unlisted drained, .drain g, _ => .closing unlisted (Function.update drained g true)
    | .closing _ _, .core .counterList, list => .deleting list none
    | .deleting chain _, .listDel p, _ => .deleting (chain.erase p) (some p)
    | .deleting chain _, .kfree _, _ => .deleting chain none
    | place, _, _ => place

/-- What a place allows, call by call. -/
inductive Turn : Call → Place → Prop
  | enter {g : Gate} : Turn (.enter g) .outside
  | core {g : Gate} {r : Reach} {o : Op} (allowed : reaches.allowed o r) :
      Turn (.core o) (.inside g r)
  | leave {g : Gate} {r : Reach} (unlinked : r.new = none) : Turn (.leave g) (.inside g r)
  | unlist {g : Gate} {unlisted drained : Gate → Bool} :
      Turn (.unlist g) (.closing unlisted drained)
  | drain {g : Gate} {unlisted drained : Gate → Bool} (gone : unlisted g = true) :
      Turn (.drain g) (.closing unlisted drained)
  | chain {unlisted drained : Gate → Bool} (waited : ∀ g, drained g = true) :
      Turn (.core .counterList) (.closing unlisted drained)
  | nextEntry {chain : List Ptr} {entry : Option Ptr} (known : ∀ p, entry = some p → p ∈ chain) :
      Turn (.nextEntry entry) (.deleting chain none)
  | listDel {chain : List Ptr} {p : Ptr} (listed : p ∈ chain) :
      Turn (.listDel p) (.deleting chain none)
  | kfree {chain : List Ptr} {p : Ptr} : Turn (.kfree p) (.deleting chain (some p))

theorem turn_of_allowed {o : Call} {place : Place} (allowed : places.allowed o place) :
    Turn o place := by
  cases place with
  | outside =>
      cases o with
      | enter g => exact .enter
      | _ => exact allowed.elim
  | inside g r =>
      cases o with
      | core o => exact .core allowed
      | leave g' =>
          obtain ⟨rfl, unlinked⟩ := allowed
          exact .leave unlinked
      | _ => exact allowed.elim
  | closing unlisted drained =>
      cases o with
      | unlist g => exact .unlist
      | drain g => exact .drain allowed
      | core o =>
          cases o with
          | counterList => exact .chain allowed
          | _ => exact allowed.elim
      | _ => exact allowed.elim
  | deleting chain detached =>
      cases detached with
      | none =>
          cases o with
          | nextEntry entry => exact .nextEntry allowed
          | listDel p => exact .listDel allowed
          | kfree p => cases allowed
          | _ => exact allowed.elim
      | some held =>
          cases o with
          | kfree p =>
              cases allowed
              exact .kfree
          | _ => exact allowed.elim

/-- A handler leaves before it returns, and the exit code deletes everything. -/
def Settled (place : Place) (_ : Unit) : Prop := place = .outside ∨ place = .deleting [] none

/-- A handler inside its gate does what it can reach. -/
theorem lift_places {α : Type} {p : Code α} {Q : Reach → α → Prop} {r : Reach}
    (follows : p.Follows reaches Q r) (g : Gate) :
    (lift p).Follows places (fun place a => ∃ r', place = .inside g r' ∧ Q r' a) (.inside g r) := by
  induction p generalizing r with
  | ret a => exact ⟨r, rfl, follows⟩
  | call o k ih => exact ⟨follows.1, fun a _ => ih a (follows.2 a trivial)⟩

theorem visit_places (g : Gate) {body : Code Int}
    (reach : body.Follows reaches ReturnsLinked .nothing) :
    (visit g body).Follows places Settled .outside := by
  refine ⟨trivial, ?_⟩
  intro admitted _
  cases admitted with
  | false => exact Or.inl rfl
  | true =>
      show (lift body >>= fun _ => leave g).Follows places Settled _
      rw [Prog.follows_bind]
      apply (lift_places reach g).mono
      rintro _ a ⟨r, rfl, unlinked⟩
      exact ⟨⟨rfl, unlinked⟩, fun _ _ => Or.inl rfl⟩

/-- The deletion loop, from the first entry on with the second at hand. -/
theorem freeEntries_places (chain : List Ptr) :
    (freeEntries chain.length chain.head? chain.tail.head?).Follows places Settled
      (.deleting chain none) := by
  induction chain with
  | nil => exact Or.inr rfl
  | cons p rest ih =>
      refine ⟨List.mem_cons_self, fun _ _ => ⟨rfl, fun _ _ => ?_⟩⟩
      have erased : (p :: rest).erase p = rest := List.erase_cons_head ..
      show (nextEntry rest.head? >>= _).Follows places Settled
        (.deleting ((p :: rest).erase p) none)
      rw [erased]
      cases rest with
      | nil =>
          refine ⟨nofun, ?_⟩
          rintro _ rfl
          exact ih
      | cons q rest =>
          refine ⟨?_, ?_⟩
          · rintro _ ⟨⟩
            exact List.mem_cons_self
          · intro next same
            have second : next = rest.head? := same.trans (if_pos rfl)
            rw [second]
            exact ih

theorem exit_places : perfCacheKprobeModuleExit.Follows places Settled .exits := by
  refine ⟨trivial, fun _ _ => ⟨rfl, fun _ _ => ⟨trivial, fun _ _ => ⟨rfl, fun _ _ => ⟨?_, ?_⟩⟩⟩⟩⟩
  · intro g
    cases g <;> rfl
  · intro chain _
    refine ⟨nofun, ?_⟩
    rintro _ rfl
    show (nextEntry chain.head? >>= _).Follows places Settled (.deleting chain none)
    cases chain with
    | nil =>
        refine ⟨nofun, ?_⟩
        rintro _ rfl
        exact freeEntries_places []
    | cons p rest =>
        refine ⟨?_, ?_⟩
        · rintro _ ⟨⟩
          exact List.mem_cons_self
        · intro temp same
          have second : temp = rest.head? := same.trans (if_pos rfl)
          rw [second]
          exact freeEntries_places (p :: rest)

end Dreamscape.Monitor.Unloading
