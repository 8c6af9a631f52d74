/-
# Theory.Pool -- programs run beside each other

A pool is a shared state and the threads started so far.  A step lets one thread
make one call; a blocked or faulting call leaves the pool as it is, so the thread
stays where it stands.  Between calls the world outside may change the shared
state.  A run is any list of such actions: every schedule is one.

A protocol is lifted from one program to a pool in two ways.  In a pool that `Relies`,
some resource describes each thread in the shared state, and the calls of the others
keep the description.  In one that `Obeys` the resource is a view of the shared state,
which changes by the thread's own calls only.  Either way each thread can be checked
alone (`run_relies`, `run_obeys`).
-/
import Dreamscape.Theory.Protocol

namespace Dreamscape.Theory

set_option autoImplicit false

/-- A program under way, with the environment its calls are answered from. -/
structure Thread (S : Sig) (E α : Type) where
  env : E
  prog : Prog S α

/-- The shared state and every thread started so far; a thread's number is its
position. -/
structure Pool (S : Sig) (E σ α : Type) where
  shared : σ
  threads : List (Thread S E α)

namespace Pool

variable {S : Sig} {F E W σ α R : Type}

inductive Action (S : Sig) (E W α : Type) where
  | spawn (thread : Thread S E α)
  | step (t : Nat)
  | world (w : W)

/-- The thread has returned. -/
def Returned (c : Pool S E σ α) (t : Nat) : Prop :=
  ∃ e a, c.threads[t]? = some ⟨e, .ret a⟩

instance (c : Pool S E σ α) (t : Nat) : Decidable (c.Returned t) :=
  match found : c.threads[t]? with
  | some ⟨e, .ret a⟩ => .isTrue ⟨e, a, found⟩
  | some ⟨_, .call _ _⟩ => .isFalse fun ⟨_, _, same⟩ => nomatch found.symm.trans same
  | none => .isFalse fun ⟨_, _, same⟩ => nomatch found.symm.trans same

/-- The call thread `t` makes next. -/
def next (c : Pool S E σ α) (t : Nat) : Option S.Op := c.threads[t]?.bind fun thread => thread.prog.head

theorem next_iff {c : Pool S E σ α} {t : Nat} {o : S.Op} :
    c.next t = some o ↔ ∃ e k, c.threads[t]? = some ⟨e, .call o k⟩ := by
  unfold next
  cases c.threads[t]? with
  | none => simp
  | some thread =>
      obtain ⟨e, p⟩ := thread
      cases p with
      | ret a => simp [Prog.head]
      | call o' k =>
          simp only [Option.bind_some, Prog.head, Option.some.injEq, Thread.mk.injEq]
          constructor
          · rintro rfl
            exact ⟨e, k, rfl, rfl⟩
          · rintro ⟨-, k', -, same⟩
            cases same
            rfl

/-- No thread is under way. -/
def Idle (c : Pool S E σ α) : Prop :=
  ∀ t < c.threads.length, c.Returned t

section Runs

variable (h : Nat → E → Handler S F σ) (act : W → σ → σ)

/-- Let thread `t` make its next call. -/
def advance (c : Pool S E σ α) (t : Nat) : Pool S E σ α :=
  match c.threads[t]? with
  | none => c
  | some thread =>
      match thread.prog with
      | .ret _ => c
      | .call o k =>
          match h t thread.env o c.shared with
          | .done a s => ⟨s, c.threads.set t ⟨thread.env, k a⟩⟩
          | .blocked _ => c
          | .fault _ _ => c

def step (c : Pool S E σ α) : Action S E W α → Pool S E σ α
  | .spawn thread => { c with threads := c.threads ++ [thread] }
  | .step t => c.advance h t
  | .world w => { c with shared := act w c.shared }

def run (c : Pool S E σ α) (actions : List (Action S E W α)) : Pool S E σ α :=
  actions.foldl (step h act) c

theorem run_append (c : Pool S E σ α) (xs ys : List (Action S E W α)) :
    run h act c (xs ++ ys) = run h act (run h act c xs) ys :=
  List.foldl_append

/-- **Run rule**: what every action of the run keeps holds at the end of it. -/
theorem run_invariant {I : Pool S E σ α → Prop} {actions : List (Action S E W α)}
    (keeps : ∀ a ∈ actions, ∀ c, I c → I (step h act c a)) {c : Pool S E σ α} (holds : I c) :
    I (run h act c actions) := by
  induction actions generalizing c with
  | nil => exact holds
  | cons a rest ih =>
      exact ih (fun b member => keeps b (List.mem_cons_of_mem a member))
        (keeps a List.mem_cons_self c holds)

variable {h act}

/-- What letting a thread go on can do: nothing, or answer its next call. -/
theorem advance_cases (c : Pool S E σ α) (t : Nat) :
    c.advance h t = c ∨ ∃ e o k a s, c.threads[t]? = some ⟨e, .call o k⟩ ∧
      h t e o c.shared = .done a s ∧ c.advance h t = ⟨s, c.threads.set t ⟨e, k a⟩⟩ := by
  unfold advance
  cases found : c.threads[t]? with
  | none => exact Or.inl rfl
  | some thread =>
      obtain ⟨e, p⟩ := thread
      cases p with
      | ret a => exact Or.inl rfl
      | call o k =>
          simp only
          cases answered : h t e o c.shared with
          | done a s => exact Or.inr ⟨e, o, k, a, s, rfl, answered, rfl⟩
          | blocked s => exact Or.inl rfl
          | fault f s => exact Or.inl rfl

/-- **Step rule** for what is said of the shared state alone. -/
theorem step_shared {I : σ → Prop} (answers : ∀ {t e o s a s'}, I s → h t e o s = .done a s' → I s')
    (outside : ∀ w s, I s → I (act w s)) {c : Pool S E σ α} (holds : I c.shared)
    (action : Action S E W α) : I (step h act c action).shared := by
  cases action with
  | spawn thread => exact holds
  | world w => exact outside w c.shared holds
  | step t =>
      rcases advance_cases (h := h) c t with same | ⟨e, o, k, a, s, -, answered, moved⟩
      · rw [step, same]
        exact holds
      · rw [step, moved]
        exact answers holds answered

/-- **Run rule** for what is said of the shared state alone. -/
theorem run_shared {I : σ → Prop} (answers : ∀ {t e o s a s'}, I s → h t e o s = .done a s' → I s')
    (outside : ∀ w s, I s → I (act w s)) {c : Pool S E σ α} (holds : I c.shared)
    (actions : List (Action S E W α)) : I (run h act c actions).shared :=
  run_invariant h act (I := fun c => I c.shared)
    (fun action _ _ holds => step_shared answers outside holds action) holds

theorem advance_length (c : Pool S E σ α) (t : Nat) :
    (c.advance h t).threads.length = c.threads.length := by
  rcases advance_cases (h := h) c t with same | ⟨e, o, k, a, s, -, -, moved⟩
  · rw [same]
  · rw [moved]
    exact List.length_set

theorem advance_threads_ne {c : Pool S E σ α} {t u : Nat} (other : u ≠ t) :
    (c.advance h t).threads[u]? = c.threads[u]? := by
  rcases advance_cases (h := h) c t with same | ⟨e, o, k, a, s, -, -, moved⟩
  · rw [same]
  · rw [moved]
    exact List.getElem?_set_ne (Ne.symm other)

end Runs

/-! ## Protocols in a pool -/

/-- Every thread still follows the protocol from a resource that describes it in the
shared state, and the fresh resource describes threads not yet started. -/
structure Relies (P : Protocol S R) (Q : R → α → Prop) (I : σ → Prop) (describes : σ → Nat → R → Prop)
    (fresh : R) (c : Pool S E σ α) : Prop where
  inv : I c.shared
  follows : ∀ t (thread : Thread S E α), c.threads[t]? = some thread →
    ∃ r, describes c.shared t r ∧ thread.prog.Follows P Q r
  unused : ∀ t, c.threads.length ≤ t → describes c.shared t fresh

/-- Every thread still follows the protocol from its own view of the shared state,
and threads not yet started have the fresh view. -/
structure Obeys (P : Protocol S R) (Q : R → α → Prop) (I : σ → Prop) (view : σ → Nat → R)
    (fresh : R) (c : Pool S E σ α) : Prop where
  inv : I c.shared
  follows : ∀ t (thread : Thread S E α), c.threads[t]? = some thread →
    thread.prog.Follows P Q (view c.shared t)
  unused : ∀ t, c.threads.length ≤ t → view c.shared t = fresh

section Relying

variable {h : Nat → E → Handler S F σ} {act : W → σ → σ} {P : Protocol S R}
  {Q : R → α → Prop} {I : σ → Prop} {describes : σ → Nat → R → Prop} {fresh : R}

theorem advance_relies {c : Pool S E σ α}
    (own : ∀ {t e o s a s' r}, I s → describes s t r → P.allowed o r → h t e o s = .done a s' →
      I s' ∧ P.possible o a r ∧ describes s' t (P.next o a r))
    (stable : ∀ {t u e o s a s' r q}, u ≠ t → describes s t r → P.allowed o r →
      h t e o s = .done a s' → describes s u q → describes s' u q)
    (relies : c.Relies P Q I describes fresh) (t : Nat) :
    (c.advance h t).Relies P Q I describes fresh := by
  rcases advance_cases c t with same | ⟨e, o, k, a, s, found, answered, moved⟩
  · rw [same]; exact relies
  · rw [moved]
    obtain ⟨r, described, follows⟩ := relies.follows t _ found
    obtain ⟨inv, possible, onward⟩ := own relies.inv described follows.1 answered
    have bound : t < c.threads.length := (List.getElem?_eq_some_iff.mp found).1
    refine ⟨inv, fun u thread at_u => ?_, fun u beyond => ?_⟩
    · by_cases self : u = t
      · subst self
        rw [List.getElem?_set_self bound, Option.some.injEq] at at_u
        subst at_u
        exact ⟨_, onward, follows.2 a possible⟩
      · rw [List.getElem?_set_ne (Ne.symm self)] at at_u
        obtain ⟨q, described', follows'⟩ := relies.follows u thread at_u
        exact ⟨q, stable self described follows.1 answered described', follows'⟩
    · rw [List.length_set] at beyond
      have apart : u ≠ t := Nat.ne_of_gt (Nat.lt_of_lt_of_le bound beyond)
      exact stable apart described follows.1 answered (relies.unused u beyond)

/-- A thread is started. -/
theorem Relies.spawn {c : Pool S E σ α} (relies : c.Relies P Q I describes fresh)
    {thread : Thread S E α} (starts : thread.prog.Follows P Q fresh) :
    Relies P Q I describes fresh { c with threads := c.threads ++ [thread] } := by
  refine ⟨relies.inv, fun t started found => ?_, fun t beyond => ?_⟩
  · simp only [List.getElem?_append] at found
    split at found
    · exact relies.follows t started found
    · rename_i beyond
      have same : thread = started := by
        rw [List.getElem?_singleton] at found
        split at found
        · exact Option.some.inj found
        · exact absurd found (by simp)
      rw [← same]
      exact ⟨fresh, relies.unused t (by omega), starts⟩
  · exact relies.unused t (by simp at beyond; omega)

/-- What an action does to a pool that relies. -/
theorem step_relies {c : Pool S E σ α} {action : Action S E W α}
    (own : ∀ {t e o s a s' r}, I s → describes s t r → P.allowed o r → h t e o s = .done a s' →
      I s' ∧ P.possible o a r ∧ describes s' t (P.next o a r))
    (stable : ∀ {t u e o s a s' r q}, u ≠ t → describes s t r → P.allowed o r →
      h t e o s = .done a s' → describes s u q → describes s' u q)
    (outside : ∀ w s, I s → I (act w s) ∧ ∀ t r, describes s t r → describes (act w s) t r)
    (starts : ∀ thread : Thread S E α, action = .spawn thread → thread.prog.Follows P Q fresh)
    (relies : c.Relies P Q I describes fresh) :
    (step h act c action).Relies P Q I describes fresh := by
  cases action with
  | spawn thread => exact relies.spawn (starts thread rfl)
  | step t =>
      refine advance_relies ?_ ?_ relies t
      · exact own
      · exact stable
  | world w =>
      obtain ⟨inv, kept⟩ := outside w c.shared relies.inv
      refine ⟨inv, fun t thread found => ?_, fun t beyond => kept t fresh (relies.unused t beyond)⟩
      obtain ⟨r, described, follows⟩ := relies.follows t thread found
      exact ⟨r, kept t r described, follows⟩

/-- **Rely rule**: if what describes a thread survives the calls of the others, and
every thread that is started follows the protocol from the fresh resource, then every
reachable pool relies. -/
theorem run_relies {c : Pool S E σ α} {actions : List (Action S E W α)}
    (own : ∀ {t e o s a s' r}, I s → describes s t r → P.allowed o r → h t e o s = .done a s' →
      I s' ∧ P.possible o a r ∧ describes s' t (P.next o a r))
    (stable : ∀ {t u e o s a s' r q}, u ≠ t → describes s t r → P.allowed o r →
      h t e o s = .done a s' → describes s u q → describes s' u q)
    (outside : ∀ w s, I s → I (act w s) ∧ ∀ t r, describes s t r → describes (act w s) t r)
    (starts : ∀ thread : Thread S E α, .spawn thread ∈ actions → thread.prog.Follows P Q fresh)
    (relies : c.Relies P Q I describes fresh) :
    (run h act c actions).Relies P Q I describes fresh := by
  refine run_invariant h act (fun action member c relies => ?_) relies
  refine step_relies ?_ ?_ outside (fun thread spawns => starts thread (spawns ▸ member)) relies
  · exact own
  · exact stable

end Relying

section Obeying

variable {h : Nat → E → Handler S F σ} {act : W → σ → σ} {P : Protocol S R}
  {Q : R → α → Prop} {I : σ → Prop} {view : σ → Nat → R} {fresh : R}

/-- A view is a description that leaves no choice. -/
theorem obeys_iff_relies {c : Pool S E σ α} :
    c.Obeys P Q I view fresh ↔ c.Relies P Q I (fun s t r => view s t = r) fresh := by
  constructor
  · intro obeys
    exact ⟨obeys.inv, fun t thread found => ⟨_, rfl, obeys.follows t thread found⟩, obeys.unused⟩
  · intro relies
    refine ⟨relies.inv, fun t thread found => ?_, relies.unused⟩
    obtain ⟨r, same, follows⟩ := relies.follows t thread found
    exact same ▸ follows

/-- What a thread calls next is allowed by what describes it. -/
theorem Relies.allowed {describes : σ → Nat → R → Prop} {c : Pool S E σ α}
    (relies : c.Relies P Q I describes fresh) {t : Nat} {o : S.Op} (next : c.next t = some o) :
    ∃ r, describes c.shared t r ∧ P.allowed o r := by
  obtain ⟨e, k, found⟩ := next_iff.mp next
  obtain ⟨r, described, follows⟩ := relies.follows t _ found
  exact ⟨r, described, follows.1⟩

/-- What describes a thread that has returned is what its program promises. -/
theorem Relies.returned {describes : σ → Nat → R → Prop} {c : Pool S E σ α}
    (relies : c.Relies P Q I describes fresh) {t : Nat} (returned : c.Returned t) :
    ∃ r a, describes c.shared t r ∧ Q r a := by
  obtain ⟨e, a, found⟩ := returned
  obtain ⟨r, described, promised⟩ := relies.follows t _ found
  exact ⟨r, a, described, promised⟩

/-- **Protocols hold in every schedule**: if every thread that is started follows
the protocol from the fresh resource, every reachable pool obeys it. -/
theorem run_obeys {c : Pool S E σ α} {actions : List (Action S E W α)}
    (tracks : ∀ t e, Tracks P (h t e) I fun s => view s t)
    (apart : ∀ {t u e o s a s'}, u ≠ t → h t e o s = .done a s' → view s' u = view s u)
    (outside : ∀ w s, I s → I (act w s) ∧ view (act w s) = view s)
    (starts : ∀ thread : Thread S E α, .spawn thread ∈ actions → thread.prog.Follows P Q fresh)
    (obeys : c.Obeys P Q I view fresh) : (run h act c actions).Obeys P Q I view fresh := by
  rw [obeys_iff_relies] at obeys ⊢
  refine run_relies (fun {t e o s a s' r} inv same _ answered => ?_)
    (fun {t u e o s a s' r q} other _ _ answered same => ?_) (fun w s inv => ?_) starts obeys
  · rw [← same]
    exact ⟨(tracks t e).keeps inv answered, (tracks t e).possible inv answered,
      (tracks t e).next inv answered⟩
  · exact (apart other answered).trans same
  · obtain ⟨kept, same⟩ := outside w s inv
    exact ⟨kept, fun t r before => (congrFun same t).trans before⟩

theorem Obeys.returned {c : Pool S E σ α} (obeys : c.Obeys P Q I view fresh) {t : Nat} {e : E}
    {a : α} (found : c.threads[t]? = some ⟨e, .ret a⟩) : Q (view c.shared t) a :=
  obeys.follows t _ found

end Obeying

end Pool

end Dreamscape.Theory
