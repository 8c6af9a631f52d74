/-
# Theory.Transcript -- what happened in a run, and what each thread did in it

A run of a pool has a history: the calls that were answered, each with its thread and its
answer, and what the world did in between.  It is read in two ways.

The shared state is a matter of the whole history, whatever programs there are: what holds
at the start and is kept by every answered call and every act of the world holds of the
history and the state at the end (`run_history`).

A thread is a matter of its own calls alone: what is left of it is what its program goes on
with after these calls and answers, whatever the others did (`run_leaves`).  So what it
can have called and returned is found out from its tree (`Always`).
-/
import Dreamscape.Theory.Pool
import Mathlib.Data.List.TakeWhile

namespace Dreamscape.Theory

set_option autoImplicit false

variable {S : Sig} {F E W σ α β : Type}

/-- A call that was answered. -/
structure Answered (S : Sig) where
  op : S.Op
  ans : S.Ans op

/-! ## The calls of one program -/

namespace Prog

/-- `p`, answered as `calls` say, goes on as `q`. -/
inductive Leaves : Prog S α → List (Answered S) → Prog S α → Prop
  | start {p : Prog S α} : Leaves p [] p
  | answered {o : S.Op} {k : S.Ans o → Prog S α} {a : S.Ans o} {calls : List (Answered S)}
      {q : Prog S α} (onward : (k a).Leaves calls q) : Leaves (.call o k) (⟨o, a⟩ :: calls) q

/-- The next call is answered. -/
theorem Leaves.snoc {p : Prog S α} {calls : List (Answered S)} {o : S.Op}
    {k : S.Ans o → Prog S α} (leaves : p.Leaves calls (.call o k)) (a : S.Ans o) :
    p.Leaves (calls ++ [⟨o, a⟩]) (k a) := by
  generalize left : Prog.call o k = q at leaves
  induction leaves with
  | start =>
      subst left
      exact .answered .start
  | answered onward ih => exact .answered (ih left)

/-- What a program has returned. -/
def value : Prog S α → Option α
  | .ret a => some a
  | .call _ _ => none

/-- Begun after the calls of `past`, `p` always keeps to `R`, of the calls so far and of what it
has returned. -/
def Always (R : List (Answered S) → Option α → Prop) : Prog S α → List (Answered S) → Prop
  | .ret a, past => R past (some a)
  | .call o k, past => R past none ∧ ∀ a, (k a).Always R (past ++ [⟨o, a⟩])

theorem Always.leaves {R : List (Answered S) → Option α → Prop} {p q : Prog S α}
    {past calls : List (Answered S)} (always : p.Always R past) (leaves : p.Leaves calls q) :
    R (past ++ calls) q.value := by
  induction leaves generalizing past with
  | @start p =>
      rw [List.append_nil]
      cases p with
      | ret a => exact always
      | call o k => exact always.1
  | @answered o k a calls q onward ih =>
      have next := ih (always.2 a)
      rw [List.append_assoc] at next
      exact next

/-- A program in two parts keeps to `R` if each part does, begun where the first returns. -/
theorem always_bind {Q : List (Answered S) → Option α → Prop} {R : List (Answered S) → Option β → Prop}
    {p : Prog S α} {f : α → Prog S β} {past : List (Answered S)} (first : p.Always Q past)
    (within : ∀ past, Q past none → R past none)
    (onward : ∀ past a, Q past (some a) → (f a).Always R past) : (p >>= f).Always R past := by
  induction p generalizing past with
  | ret a => exact onward past a first
  | call o k ih => exact ⟨within past first.1, fun a => ih a (first.2 a)⟩

/-- Whatever it is answered, what `p` returns, if it does, is `Q`. -/
def Returns (Q : α → Prop) : Prog S α → Prop
  | .ret a => Q a
  | .call _ k => ∀ a, (k a).Returns Q

/-- What each allowed call keeps, a program that only makes those keeps. -/
theorem Only.always {ok : S.Op → Prop} {I : List (Answered S) → Prop} {Q : α → Prop} {p : Prog S α}
    {past : List (Answered S)} (only : p.Only ok) (returns : p.Returns Q)
    (keeps : ∀ past o a, ok o → I past → I (past ++ [⟨o, a⟩])) (holds : I past) :
    p.Always (fun past v => I past ∧ ∀ a, v = some a → Q a) past := by
  induction p generalizing past with
  | ret a => exact ⟨holds, fun b same => Option.some.inj same ▸ returns⟩
  | call o k ih =>
      exact ⟨⟨holds, nofun⟩, fun a => ih a (only.2 a) (returns a) (keeps past o a only.1 holds)⟩

end Prog

/-! ## The history of a run -/

inductive Event (S : Sig) (E W : Type) where
  | call (t : Nat) (e : E) (made : Answered S)
  | world (w : W)

/-- The call of thread `t`, if it is one. -/
def Event.callOf (t : Nat) : Event S E W → Option (Answered S)
  | .call u _ made => if u = t then some made else none
  | .world _ => none

def callsOf (t : Nat) (events : List (Event S E W)) : List (Answered S) :=
  events.filterMap (Event.callOf t)

theorem callsOf_append (t : Nat) (before after : List (Event S E W)) :
    callsOf t (before ++ after) = callsOf t before ++ callsOf t after :=
  List.filterMap_append

@[simp] theorem callsOf_own (t : Nat) (e : E) (made : Answered S) :
    callsOf t [(.call t e made : Event S E W)] = [made] := by
  simp [callsOf, Event.callOf]

theorem callsOf_other {t u : Nat} (other : u ≠ t) (e : E) (made : Answered S) :
    callsOf t [(.call u e made : Event S E W)] = [] := by
  simp [callsOf, Event.callOf, other]

@[simp] theorem callsOf_world (t : Nat) (w : W) : callsOf t [(.world w : Event S E W)] = [] := rfl

theorem mem_callsOf {t : Nat} {made : Answered S} {events : List (Event S E W)} :
    made ∈ callsOf t events ↔ ∃ e, .call t e made ∈ events := by
  simp only [callsOf, List.mem_filterMap]
  constructor
  · rintro ⟨event, member, own⟩
    cases event with
    | world w => cases own
    | call u e made' =>
        simp only [Event.callOf, Option.ite_none_right_eq_some, Option.some.injEq] at own
        obtain ⟨rfl, rfl⟩ := own
        exact ⟨e, member⟩
  · rintro ⟨e, member⟩
    exact ⟨_, member, by simp [Event.callOf]⟩

/-! ## Spans of a history -/

section Between

variable {X : Type} (opens closes : X → Bool)

/-- What comes after the first that `opens`, up to the first after it that `closes`. -/
def between (xs : List X) : List X :=
  ((xs.dropWhile fun x => !opens x).tail).takeWhile fun x => !closes x

variable {opens closes}

theorem between_before {xs : List X} (unopened : ∀ x ∈ xs, opens x = false) :
    between opens closes xs = [] := by
  rw [between, List.dropWhile_eq_nil_iff.mpr fun x member => by rw [unopened x member]; rfl]
  rfl

theorem between_from {before within : List X} {o : X} (unopened : ∀ x ∈ before, opens x = false)
    (opened : opens o = true) :
    between opens closes (before ++ o :: within) = within.takeWhile fun x => !closes x := by
  have skips : ∀ x ∈ before, (!opens x) = true := fun x member => by rw [unopened x member]; rfl
  rw [between, List.dropWhile_append_of_pos skips, List.dropWhile_cons_of_neg (by rw [opened]; nofun),
    List.tail_cons]

theorem between_within {before within : List X} {o : X} (unopened : ∀ x ∈ before, opens x = false)
    (opened : opens o = true) (unclosed : ∀ x ∈ within, closes x = false) :
    between opens closes (before ++ o :: within) = within := by
  rw [between_from unopened opened, List.takeWhile_eq_self_iff.mpr fun x member => by
    rw [unclosed x member]; rfl]

theorem between_after {before within after : List X} {o c : X}
    (unopened : ∀ x ∈ before, opens x = false) (opened : opens o = true)
    (unclosed : ∀ x ∈ within, closes x = false) (closed : closes c = true) :
    between opens closes (before ++ o :: (within ++ c :: after)) = within := by
  have takes : ∀ x ∈ within, (!closes x) = true := fun x member => by rw [unclosed x member]; rfl
  rw [between_from unopened opened, List.takeWhile_append_of_pos takes,
    List.takeWhile_cons_of_neg (by rw [closed]; nofun), List.append_nil]

end Between

namespace Pool

variable (h : Nat → E → Handler S F σ) (act : W → σ → σ)

/-- The call thread `t` makes next, if it is answered. -/
def heard (c : Pool S E σ α) (t : Nat) : List (Event S E W) :=
  match c.threads[t]? with
  | some ⟨e, .call o _⟩ =>
      match h t e o c.shared with
      | .done a _ => [.call t e ⟨o, a⟩]
      | .blocked _ | .fault _ _ => []
  | some ⟨_, .ret _⟩ | none => []

/-- What an action adds to the history. -/
def told (c : Pool S E σ α) : Action S E W α → List (Event S E W)
  | .spawn _ => []
  | .world w => [.world w]
  | .step t => c.heard h t

/-- The history of a run. -/
def events : Pool S E σ α → List (Action S E W α) → List (Event S E W)
  | _, [] => []
  | c, a :: rest => c.told h a ++ events (c.step h act a) rest

/-- The threads there were, and those the run starts, as they start. -/
def started (c : Pool S E σ α) (actions : List (Action S E W α)) : List (Thread S E α) :=
  c.threads ++ actions.filterMap fun
    | .spawn thread => some thread
    | .step _ | .world _ => none

variable {h act}

/-- Letting a thread go on adds nothing, or the call that is answered. -/
theorem heard_cases (c : Pool S E σ α) (t : Nat) :
    (c.advance h t = c ∧ (c.heard h t : List (Event S E W)) = []) ∨
      ∃ e o k a s, c.threads[t]? = some ⟨e, .call o k⟩ ∧ h t e o c.shared = .done a s ∧
        c.advance h t = ⟨s, c.threads.set t ⟨e, k a⟩⟩ ∧
        (c.heard h t : List (Event S E W)) = [.call t e ⟨o, a⟩] := by
  unfold advance heard
  cases found : c.threads[t]? with
  | none => exact .inl ⟨rfl, rfl⟩
  | some thread =>
      obtain ⟨e, p⟩ := thread
      cases p with
      | ret a => exact .inl ⟨rfl, rfl⟩
      | call o k =>
          dsimp only
          cases answered : h t e o c.shared with
          | done a s => exact .inr ⟨e, o, k, a, s, rfl, answered, rfl, rfl⟩
          | blocked s => exact .inl ⟨rfl, rfl⟩
          | fault f s => exact .inl ⟨rfl, rfl⟩

/-! ### The shared state -/

/-- **History rule**: what every answered call and every act of the world keeps, of the
history and the shared state, holds at the end of the run. -/
theorem run_history {I : List (Event S E W) → σ → Prop}
    (calls : ∀ {past t e o a s s'}, I past s → h t e o s = .done a s' →
      I (past ++ [.call t e ⟨o, a⟩]) s')
    (world : ∀ {past w s}, I past s → I (past ++ [.world w]) (act w s))
    {c : Pool S E σ α} (start : I [] c.shared) (actions : List (Action S E W α)) :
    I (events h act c actions) (c.run h act actions).shared := by
  suffices onward : ∀ past, I past c.shared →
      I (past ++ events h act c actions) (c.run h act actions).shared from onward [] start
  clear start
  intro past holds
  induction actions generalizing c past with
  | nil => exact (List.append_nil past).symm ▸ holds
  | cons a rest ih =>
      have next : I (past ++ c.told h a) (c.step h act a).shared := by
        cases a with
        | spawn thread => exact (List.append_nil past).symm ▸ holds
        | world w => exact world holds
        | step t =>
            show I (past ++ c.heard h t) (c.advance h t).shared
            rcases heard_cases (W := W) c t with ⟨same, silent⟩ | ⟨e, o, k, a, s, -, answered, moved, said⟩
            · rw [same, silent, List.append_nil]
              exact holds
            · rw [moved, said]
              exact calls holds answered
      rw [events, ← List.append_assoc]
      exact ih _ next

/-! ### The threads -/

/-- Each thread is left with what its program goes on with after its own calls. -/
structure Told (c : Pool S E σ α) (begun : List (Thread S E α)) (past : List (Event S E W)) : Prop where
  number : c.threads.length = begun.length
  silent : ∀ t, begun.length ≤ t → callsOf t past = []
  env : ∀ (t : Nat) (e : E) (made : Answered S), .call t e made ∈ past →
    ∃ first, begun[t]? = some ⟨e, first⟩
  leaves : ∀ (t : Nat) (e : E) (p : Prog S α), c.threads[t]? = some ⟨e, p⟩ →
    ∃ first, begun[t]? = some ⟨e, first⟩ ∧ first.Leaves (callsOf t past) p

theorem Told.spawn {c : Pool S E σ α} {begun : List (Thread S E α)} {past : List (Event S E W)}
    (told : c.Told begun past) (thread : Thread S E α) :
    Told ⟨c.shared, c.threads ++ [thread]⟩ (begun ++ [thread]) past where
  number := by rw [List.length_append, List.length_append, told.number]
  silent t beyond := told.silent t (by rw [List.length_append] at beyond; omega)
  env t e made there := by
    obtain ⟨first, old⟩ := told.env t e made there
    have bound : t < begun.length := (List.getElem?_eq_some_iff.mp old).1
    exact ⟨first, by rw [List.getElem?_append_left bound, old]⟩
  leaves t e p found := by
    by_cases old : t < begun.length
    · rw [List.getElem?_append_left (told.number ▸ old)] at found
      obtain ⟨first, there, leaves⟩ := told.leaves t e p found
      exact ⟨first, by rw [List.getElem?_append_left old, there], leaves⟩
    · have beyond : begun.length ≤ t := Nat.le_of_not_lt old
      rw [List.getElem?_append_right (told.number ▸ beyond), told.number] at found
      refine ⟨p, by rw [List.getElem?_append_right beyond, found], ?_⟩
      rw [told.silent t beyond]
      exact .start

theorem Told.world {c : Pool S E σ α} {begun : List (Thread S E α)} {past : List (Event S E W)}
    (told : c.Told begun past) (w : W) :
    Told ⟨act w c.shared, c.threads⟩ begun (past ++ [.world w]) where
  number := told.number
  silent t beyond := by rw [callsOf_append, told.silent t beyond, callsOf_world, List.append_nil]
  env t e made there := by
    rcases List.mem_append.mp there with earlier | now
    · exact told.env t e made earlier
    · cases List.mem_singleton.mp now
  leaves t e p here := by
    rw [callsOf_append, callsOf_world, List.append_nil]
    exact told.leaves t e p here

theorem Told.advance {c : Pool S E σ α} {begun : List (Thread S E α)} {past : List (Event S E W)}
    (told : c.Told begun past) (t : Nat) : (c.advance h t).Told begun (past ++ c.heard h t) := by
  rcases heard_cases (W := W) c t with ⟨same, silent⟩ | ⟨e, o, k, a, s, found, -, moved, said⟩
  · rw [same, silent, List.append_nil]
    exact told
  · rw [moved, said]
    have bound : t < c.threads.length := (List.getElem?_eq_some_iff.mp found).1
    refine ⟨by rw [List.length_set, told.number], fun u beyond => ?_, fun u e' made there => ?_,
      fun u e' p at_u => ?_⟩
    · have other : t ≠ u := Nat.ne_of_lt (Nat.lt_of_lt_of_le (told.number ▸ bound) beyond)
      rw [callsOf_append, callsOf_other other, List.append_nil, told.silent u beyond]
    · rcases List.mem_append.mp there with earlier | now
      · exact told.env u e' made earlier
      · cases List.mem_singleton.mp now
        obtain ⟨first, begun, -⟩ := told.leaves _ _ _ found
        exact ⟨first, begun⟩
    · by_cases self : u = t
      · subst self
        rw [List.getElem?_set_self bound] at at_u
        cases at_u
        obtain ⟨first, there, leaves⟩ := told.leaves u e _ found
        refine ⟨first, there, ?_⟩
        rw [callsOf_append, callsOf_own]
        exact leaves.snoc a
      · rw [List.getElem?_set_ne (Ne.symm self)] at at_u
        obtain ⟨first, there, leaves⟩ := told.leaves u e' p at_u
        refine ⟨first, there, ?_⟩
        rw [callsOf_append, callsOf_other (Ne.symm self), List.append_nil]
        exact leaves

variable (h act)

/-- At the end of a run every thread is left with what its calls leave of its program. -/
theorem run_told (c : Pool S E σ α) (actions : List (Action S E W α)) :
    (c.run h act actions).Told (started c actions) (events h act c actions) := by
  suffices onward : ∀ begun past, c.Told begun past →
      (c.run h act actions).Told (started ⟨c.shared, begun⟩ actions) (past ++ events h act c actions) from
    onward c.threads [] ⟨rfl, fun _ _ => rfl, fun _ _ _ made => absurd made List.not_mem_nil,
      fun t e p here => ⟨p, here, .start⟩⟩
  intro begun past told
  induction actions generalizing c begun past with
  | nil =>
      rw [events, List.append_nil, started, List.filterMap_nil, List.append_nil]
      exact told
  | cons a rest ih =>
      rw [events, ← List.append_assoc]
      cases a with
      | spawn thread =>
          have more : started ⟨c.shared, begun⟩ (.spawn thread :: rest : List (Action S E W α)) =
              started ⟨c.shared, begun ++ [thread]⟩ rest := by
            simp only [started, List.filterMap_cons, List.append_assoc, List.singleton_append]
          rw [more, Pool.told, List.append_nil]
          exact ih _ _ _ (told.spawn thread)
      | world w => exact ih _ _ _ (told.world w)
      | step t => exact ih _ _ _ (told.advance t)

/-- **Transcript rule**: at the end of a run each thread is what its program goes on with
after the calls the thread made in the run. -/
theorem run_leaves {c : Pool S E σ α} {actions : List (Action S E W α)} {t : Nat} {e : E}
    {p : Prog S α} (begun : (started c actions)[t]? = some ⟨e, p⟩) :
    ∃ q, (c.run h act actions).threads[t]? = some ⟨e, q⟩ ∧
      p.Leaves (callsOf t (events h act c actions)) q := by
  have told := run_told h act c actions
  have bound := (List.getElem?_eq_some_iff.mp begun).1
  rw [← told.number] at bound
  obtain ⟨⟨e', q⟩, here⟩ : ∃ thread, (c.run h act actions).threads[t]? = some thread :=
    ⟨_, List.getElem?_eq_getElem bound⟩
  obtain ⟨first, there, leaves⟩ := told.leaves t e' q here
  cases begun.symm.trans there
  exact ⟨q, here, leaves⟩

/-- The calls of a thread are answered from its own environment. -/
theorem env_of_call {c : Pool S E σ α} {actions : List (Action S E W α)} {t : Nat} {e e' : E}
    {p : Prog S α} {made : Answered S} (begun : (started c actions)[t]? = some ⟨e, p⟩)
    (there : .call t e' made ∈ events h act c actions) : e' = e := by
  obtain ⟨first, own⟩ := (run_told h act c actions).env t e' made there
  cases begun.symm.trans own
  rfl

end Pool

end Dreamscape.Theory
