/-
# Theory.History -- runs that are remembered, and runs that keep to a condition

`recorded` puts a history beside the state of a machine: it grows with every call that is
answered, and no call is answered from it.

A run is `Admitted` if every call answered in it meets a condition on the state the call
is made in.  The `guarded` machine does not answer any other call, so what holds in every
run of it holds in every admitted run (`run_guarded`).  A run is `Heeded` if moreover the
world keeps to a condition of its own.
-/
import Dreamscape.Theory.Pool

namespace Dreamscape.Theory

set_option autoImplicit false

variable {S : Sig} {F E W σ X α : Type}

/-! ## Histories -/

/-- What the answer to a call of a thread adds to the history. -/
abbrev Note (S : Sig) (E σ X : Type) := Nat → E → (o : S.Op) → S.Ans o → σ → X → X

def recorded (h : Nat → E → Handler S F σ) (note : Note S E σ X) : Nat → E → Handler S F (σ × X) :=
  fun t e o c =>
    match h t e o c.1 with
    | .done a s => .done a (s, note t e o a c.1 c.2)
    | .blocked s => .blocked (s, c.2)
    | .fault f s => .fault f (s, c.2)

theorem recorded_done {h : Nat → E → Handler S F σ} {note : Note S E σ X} {t : Nat} {e : E} {o : S.Op}
    {a : S.Ans o} {c c' : σ × X} :
    recorded h note t e o c = .done a c' ↔
      h t e o c.1 = .done a c'.1 ∧ c'.2 = note t e o a c.1 c.2 := by
  unfold recorded
  cases h t e o c.1 with
  | done b s =>
      simp only [Outcome.done.injEq]
      constructor
      · rintro ⟨rfl, rfl⟩
        exact ⟨⟨rfl, rfl⟩, rfl⟩
      · rintro ⟨⟨rfl, same⟩, noted⟩
        exact ⟨rfl, Prod.ext same noted.symm⟩
  | blocked s => simp
  | fault f s => simp

/-- A pool without its history. -/
def Pool.forget (c : Pool S E (σ × X) α) : Pool S E σ α := ⟨c.shared.1, c.threads⟩

section Forgetting

variable {h : Nat → E → Handler S F σ} {note : Note S E σ X} {act : W → σ → σ} {act' : W → σ × X → σ × X}

theorem Pool.forget_advance (c : Pool S E (σ × X) α) (t : Nat) :
    (c.advance (recorded h note) t).forget = c.forget.advance h t := by
  unfold Pool.advance Pool.forget
  cases found : c.threads[t]? with
  | none => rfl
  | some thread =>
      obtain ⟨e, p⟩ := thread
      cases p with
      | ret a => rfl
      | call o k =>
          simp only [recorded]
          cases answered : h t e o c.shared.1 <;> simp only

/-- **A run that is remembered is a run.** -/
theorem Pool.forget_run (outside : ∀ w c, (act' w c).1 = act w c.1) (c : Pool S E (σ × X) α)
    (actions : List (Pool.Action S E W α)) :
    (Pool.run (recorded h note) act' c actions).forget = Pool.run h act c.forget actions := by
  induction actions generalizing c with
  | nil => rfl
  | cons a rest ih =>
      have stepped : (Pool.step (recorded h note) act' c a).forget = Pool.step h act c.forget a := by
        cases a with
        | spawn thread => rfl
        | step t => exact forget_advance c t
        | world w =>
            simp only [Pool.step, forget, outside]
      show (Pool.run _ act' (Pool.step _ act' c a) rest).forget = Pool.run h act (Pool.step h act _ a) rest
      rw [ih, stepped]

end Forgetting

/-! ## Conditions on calls -/

abbrev Condition (S : Sig) (E σ : Type) := Nat → E → (o : S.Op) → S.Ans o → σ → Prop

/-- The machine that answers only calls that meet the condition. -/
noncomputable def guarded (h : Nat → E → Handler S F σ) (ok : Condition S E σ) :
    Nat → E → Handler S F σ :=
  open Classical in
  fun t e o s =>
    match h t e o s with
    | .done a s' => if ok t e o a s then .done a s' else .blocked s
    | .blocked s' => .blocked s'
    | .fault f s' => .fault f s'

theorem guarded_done {h : Nat → E → Handler S F σ} {ok : Condition S E σ} {t : Nat} {e : E}
    {o : S.Op} {a : S.Ans o} {s s' : σ} :
    guarded h ok t e o s = .done a s' ↔ h t e o s = .done a s' ∧ ok t e o a s := by
  unfold guarded
  cases h t e o s with
  | done b s₁ =>
      by_cases met : ok t e o b s
      · simp only [met, if_true, Outcome.done.injEq]
        constructor
        · rintro ⟨rfl, rfl⟩
          exact ⟨⟨rfl, rfl⟩, met⟩
        · rintro ⟨⟨rfl, rfl⟩, -⟩
          exact ⟨rfl, rfl⟩
      · simp only [met, if_false, Outcome.done.injEq]
        constructor
        · intro blocked
          cases blocked
        · rintro ⟨⟨rfl, rfl⟩, onward⟩
          exact absurd onward met
  | blocked s₁ => simp
  | fault f s₁ => simp

namespace Pool

/-- The call thread `t` makes next, if it is answered, meets the condition. -/
def Admits (h : Nat → E → Handler S F σ) (ok : Condition S E σ) (c : Pool S E σ α) (t : Nat) : Prop :=
  match c.threads[t]? with
  | some ⟨e, .call o _⟩ =>
      match h t e o c.shared with
      | .done a _ => ok t e o a c.shared
      | .blocked _ | .fault _ _ => True
  | some ⟨_, .ret _⟩ | none => True

def Action.Admitted (h : Nat → E → Handler S F σ) (ok : Condition S E σ) (c : Pool S E σ α) :
    Action S E W α → Prop
  | .step t => c.Admits h ok t
  | .spawn _ | .world _ => True

/-- Every call answered in the run meets the condition. -/
def Admitted (h : Nat → E → Handler S F σ) (act : W → σ → σ) (ok : Condition S E σ) :
    Pool S E σ α → List (Action S E W α) → Prop
  | _, [] => True
  | c, a :: rest => a.Admitted h ok c ∧ Admitted h act ok (c.step h act a) rest

/-- The action meets the conditions: `ok` for the call it answers, `fits` for what the
world does. -/
def Action.Heeds (h : Nat → E → Handler S F σ) (ok : Condition S E σ) (fits : W → σ → Prop)
    (c : Pool S E σ α) : Action S E W α → Prop
  | .spawn _ => True
  | .step t => c.Admits h ok t
  | .world w => fits w c.shared

/-- Every action of the run meets the conditions. -/
def Heeded (h : Nat → E → Handler S F σ) (act : W → σ → σ) (ok : Condition S E σ)
    (fits : W → σ → Prop) : Pool S E σ α → List (Action S E W α) → Prop
  | _, [] => True
  | c, a :: rest => a.Heeds h ok fits c ∧ Heeded h act ok fits (c.step h act a) rest

section Decide

variable {h : Nat → E → Handler S F σ} {act : W → σ → σ} {ok : Condition S E σ}
  [∀ t e o a s, Decidable (ok t e o a s)]

instance (c : Pool S E σ α) (t : Nat) : Decidable (c.Admits h ok t) :=
  match found : c.threads[t]? with
  | some ⟨e, .call o _⟩ =>
      match answered : h t e o c.shared with
      | .done a _ => decidable_of_iff (ok t e o a c.shared) (by simp [Admits, found, answered])
      | .blocked _ => .isTrue (by simp [Admits, found, answered])
      | .fault _ _ => .isTrue (by simp [Admits, found, answered])
  | some ⟨_, .ret _⟩ => .isTrue (by simp [Admits, found])
  | none => .isTrue (by simp [Admits, found])

instance (c : Pool S E σ α) (a : Action S E W α) : Decidable (a.Admitted h ok c) :=
  match a with
  | .step t => inferInstanceAs (Decidable (c.Admits h ok t))
  | .spawn _ => .isTrue trivial
  | .world _ => .isTrue trivial

instance decidableAdmitted : (c : Pool S E σ α) → (actions : List (Action S E W α)) →
    Decidable (Admitted h act ok c actions)
  | _, [] => .isTrue trivial
  | c, a :: rest =>
      have := decidableAdmitted (c.step h act a) rest
      inferInstanceAs (Decidable (_ ∧ _))

variable {fits : W → σ → Prop} [∀ w s, Decidable (fits w s)]

instance (c : Pool S E σ α) (a : Action S E W α) : Decidable (a.Heeds h ok fits c) :=
  match a with
  | .step t => inferInstanceAs (Decidable (c.Admits h ok t))
  | .spawn _ => .isTrue trivial
  | .world w => inferInstanceAs (Decidable (fits w c.shared))

instance decidableHeeded : (c : Pool S E σ α) → (actions : List (Action S E W α)) →
    Decidable (Heeded h act ok fits c actions)
  | _, [] => .isTrue trivial
  | c, a :: rest =>
      have := decidableHeeded (c.step h act a) rest
      inferInstanceAs (Decidable (_ ∧ _))

end Decide

section Runs

variable {h : Nat → E → Handler S F σ} {act : W → σ → σ} {ok : Condition S E σ}

theorem admits_iff {c : Pool S E σ α} {t : Nat} :
    c.Admits h ok t ↔ ∀ e o k a s, c.threads[t]? = some ⟨e, .call o k⟩ →
      h t e o c.shared = .done a s → ok t e o a c.shared := by
  unfold Admits
  constructor
  · intro admits e o k a s found answered
    rw [found] at admits
    simp only [answered] at admits
    exact admits
  · intro admits
    split
    · rename_i e o k found
      split
      · rename_i a s answered
        exact admits e o k a s found answered
      · trivial
      · trivial
    · trivial
    · trivial

theorem advance_guarded {c : Pool S E σ α} {t : Nat} (admits : c.Admits h ok t) :
    c.advance (guarded h ok) t = c.advance h t := by
  rw [admits_iff] at admits
  unfold advance
  cases found : c.threads[t]? with
  | none => rfl
  | some thread =>
      obtain ⟨e, p⟩ := thread
      cases p with
      | ret a => rfl
      | call o k =>
          simp only
          cases answered : h t e o c.shared with
          | done a s =>
              rw [guarded_done.mpr ⟨answered, admits e o k a s found answered⟩]
          | blocked s => simp only [guarded, answered]
          | fault f s => simp only [guarded, answered]

theorem step_guarded {c : Pool S E σ α} {a : Action S E W α} (admitted : a.Admitted h ok c) :
    step (guarded h ok) act c a = step h act c a := by
  cases a with
  | spawn thread => rfl
  | step t => exact advance_guarded admitted
  | world w => rfl

/-- **An admitted run is a run of the guarded machine.** -/
theorem run_guarded {c : Pool S E σ α} {actions : List (Action S E W α)}
    (admitted : Admitted h act ok c actions) :
    run (guarded h ok) act c actions = run h act c actions := by
  induction actions generalizing c with
  | nil => rfl
  | cons a rest ih =>
      show run (guarded h ok) act (step (guarded h ok) act c a) rest = run h act (step h act c a) rest
      rw [step_guarded admitted.1]
      exact ih admitted.2

/-- What every step of the guarded machine keeps holds at the end of an admitted run. -/
theorem admitted_invariant {I : Pool S E σ α → Prop} {actions : List (Action S E W α)}
    (keeps : ∀ a ∈ actions, ∀ c, I c → I (step (guarded h ok) act c a)) {c : Pool S E σ α}
    (holds : I c) (admitted : Admitted h act ok c actions) : I (run h act c actions) := by
  rw [← run_guarded admitted]
  exact run_invariant _ act keeps holds

theorem admitted_append {c : Pool S E σ α} {before after : List (Action S E W α)} :
    Admitted h act ok c (before ++ after) ↔
      Admitted h act ok c before ∧ Admitted h act ok (run h act c before) after := by
  induction before generalizing c with
  | nil => exact (and_iff_right trivial).symm
  | cons a rest ih =>
      show _ ∧ Admitted h act ok (step h act c a) (rest ++ after) ↔ (_ ∧ _) ∧ _
      rw [ih, and_assoc]
      exact Iff.rfl

/-- Two conditions that say the same wherever a guarded run gets admit the same runs. -/
theorem admitted_congr {ok' : Condition S E σ} {I : Pool S E σ α → Prop}
    {actions : List (Action S E W α)}
    (keeps : ∀ a ∈ actions, ∀ c, I c → I (step (guarded h ok) act c a))
    (same : ∀ c t, I c → (c.Admits h ok t ↔ c.Admits h ok' t)) {c : Pool S E σ α} (holds : I c) :
    Admitted h act ok c actions ↔ Admitted h act ok' c actions := by
  induction actions generalizing c with
  | nil => exact Iff.rfl
  | cons a rest ih =>
      have first : a.Admitted h ok c ↔ a.Admitted h ok' c := by
        cases a with
        | spawn thread => exact Iff.rfl
        | step t => exact same c t holds
        | world w => exact Iff.rfl
      have keepsRest := fun b later => keeps b (List.mem_cons_of_mem a later)
      have holds' := keeps a List.mem_cons_self c holds
      constructor
      · rintro ⟨now, later⟩
        rw [step_guarded now] at holds'
        exact ⟨first.mp now, (ih keepsRest holds').mp later⟩
      · rintro ⟨now, later⟩
        rw [step_guarded (first.mpr now)] at holds'
        exact ⟨first.mpr now, (ih keepsRest holds').mpr later⟩

/-- Every call of a run is made in an environment in which some thread was started. -/
theorem admitted_env {P : E → Prop} {actions : List (Action S E W α)}
    (starts : ∀ thread : Thread S E α, .spawn thread ∈ actions → P thread.env)
    {c : Pool S E σ α} (envs : ∀ thread ∈ c.threads, P thread.env)
    (admitted : Admitted h act ok c actions) :
    Admitted h act (fun t e o a s => ok t e o a s ∧ P e) c actions := by
  induction actions generalizing c with
  | nil => trivial
  | cons a rest ih =>
      replace ih := @ih fun thread later => starts thread (List.mem_cons_of_mem a later)
      cases a with
      | spawn thread =>
          refine ⟨trivial, ih ?_ admitted.2⟩
          intro started member
          rcases List.mem_append.mp member with before | new
          · exact envs started before
          · rw [List.mem_singleton.mp new]
            exact starts thread List.mem_cons_self
      | world w => exact ⟨trivial, ih envs admitted.2⟩
      | step t =>
          refine ⟨?_, ih ?_ admitted.2⟩
          · have now : c.Admits h ok t := admitted.1
            have meets : c.Admits h (fun t e o a s => ok t e o a s ∧ P e) t := by
              refine admits_iff.mpr fun e o k a s found answered => ?_
              exact ⟨admits_iff.mp now e o k a s found answered, envs _ (List.mem_of_getElem? found)⟩
            exact meets
          · intro thread member
            rcases advance_cases (h := h) c t with same | ⟨e, o, k, a, s, found, -, moved⟩
            · simp only [step, same] at member
              exact envs thread member
            · simp only [step, moved] at member
              rcases List.mem_or_eq_of_mem_set member with before | rfl
              · exact envs thread before
              · exact envs ⟨e, .call o k⟩ (List.mem_of_getElem? found)

/-- **What heeding one condition keeps grants another.** -/
theorem heeded_admits {fits : W → σ → Prop} {ok' : Condition S E σ} {I : Pool S E σ α → Prop}
    {actions : List (Action S E W α)}
    (keeps : ∀ a ∈ actions, ∀ c, I c → a.Heeds h ok fits c → I (step h act c a))
    (grants : ∀ c t, I c → c.Admits h ok' t) {c : Pool S E σ α} (holds : I c)
    (heeded : Heeded h act ok fits c actions) : Admitted h act ok' c actions := by
  induction actions generalizing c with
  | nil => trivial
  | cons a rest ih =>
      refine ⟨?_, ?_⟩
      · cases a with
        | spawn thread => trivial
        | step t => exact grants c t holds
        | world w => trivial
      · have holds' := keeps a List.mem_cons_self c holds heeded.1
        exact ih (fun b later => keeps b (List.mem_cons_of_mem a later)) holds' heeded.2

/-- **If everything the run reaches is good**, and nothing good comes of a step that fails
the condition, the run is admitted. -/
theorem admitted_of_good {I G : Pool S E σ α → Prop} {actions : List (Action S E W α)}
    (keeps : ∀ a ∈ actions, ∀ c, I c → I (step (guarded h ok) act c a))
    (shows : ∀ a ∈ actions, ∀ c, I c → G (step h act c a) → a.Admitted h ok c)
    {c : Pool S E σ α} (holds : I c) (good : ∀ before, before <+: actions → G (run h act c before)) :
    Admitted h act ok c actions := by
  induction actions generalizing c with
  | nil => trivial
  | cons a rest ih =>
      have first := shows a List.mem_cons_self c holds (good [a] ⟨rest, rfl⟩)
      have holds' := keeps a List.mem_cons_self c holds
      rw [step_guarded first] at holds'
      refine ⟨first, ih ?_ ?_ holds' ?_⟩
      · exact fun b later => keeps b (List.mem_cons_of_mem a later)
      · exact fun b later => shows b (List.mem_cons_of_mem a later)
      · intro before reached
        exact good (a :: before) (List.cons_prefix_cons.mpr ⟨rfl, reached⟩)

end Runs

end Pool

end Dreamscape.Theory
