/-
# Theory.Mutex -- sections under a lock are single steps

A lock guards a view of the shared state.  A thread takes it once and gives it back once;
with it the thread makes calls that are answered from the view alone, and without it calls
that leave the view as it is.  In between the others may do as they like: at every point
of every run at which nobody has the lock, the view is what the sections so far make of
the first one, each run from beginning to end by itself, in the order in which the lock
was given back (`run_linear`).
-/
import Dreamscape.Theory.Pool
import Mathlib.Data.List.Nodup

namespace Dreamscape.Theory

set_option autoImplicit false

variable {S : Sig} {F E W σ V α : Type}

/-- What outcomes alike go on with alike is alike. -/
theorem Outcome.bind_alike {τ β : Type} {view : σ → τ} {x y : Outcome F σ α}
    (alike : x.mapState view = y.mapState view) {f : α → σ → Outcome F σ β}
    (onward : ∀ a s s', view s = view s' → (f a s).mapState view = (f a s').mapState view) :
    (x.bind f).mapState view = (y.bind f).mapState view := by
  cases x with
  | done a s =>
      cases y with
      | done b s' =>
          simp only [mapState, done.injEq] at alike
          obtain ⟨rfl, views⟩ := alike
          exact onward a s s' views
      | blocked s' | fault f s' => cases alike
  | blocked s =>
      cases y with
      | blocked s' => exact congrArg Outcome.blocked (Outcome.blocked.inj alike)
      | done b s' | fault f s' => cases alike
  | fault f s =>
      cases y with
      | fault f' s' =>
          obtain ⟨rfl, views⟩ := Outcome.fault.inj alike
          exact congrArg (Outcome.fault f) views
      | done b s' | blocked s' => cases alike

/-! ## Parts of a program -/

namespace Prog

/-- `p` up to its first call of `stop`, and what is left of it then. -/
def upTo (stop : S.Op → Bool) : Prog S α → Prog S (Prog S α)
  | .ret a => .ret (.ret a)
  | .call o k => if stop o then .ret (.call o k) else .call o fun a => (k a).upTo stop

theorem upTo_bind {β : Type} {stop : S.Op → Bool} {p : Prog S α} {f : α → Prog S β}
    (only : p.Only fun o => stop o = false) :
    (p >>= f).upTo stop = p >>= fun a => (f a).upTo stop := by
  induction p with
  | ret a => rfl
  | call o k ih =>
      show (if stop o then _ else _ : Prog S (Prog S β)) = _
      rw [if_neg (by rw [only.1]; exact Bool.false_ne_true)]
      exact congrArg (Prog.call o) (funext fun a => ih a (only.2 a))

/-- `P` holds of what comes after each call of `start`, with the answers `h` can give. -/
def After (h : Handler S F σ) (start : S.Op → Bool) (P : Prog S α → Prop) : Prog S α → Prop
  | .ret _ => True
  | .call o k => ∀ s a s', h o s = .done a s' →
      if start o = true then P (k a) else (k a).After h start P

theorem after_pass {h : Handler S F σ} {start : S.Op → Bool} {P : Prog S α → Prop} {o : S.Op}
    {k : S.Ans o → Prog S α} (goes : start o = false)
    (onward : ∀ s a s', h o s = .done a s' → (k a).After h start P) :
    (Prog.call o k).After h start P := by
  intro s a s' answered
  rw [goes, if_neg Bool.false_ne_true]
  exact onward s a s' answered

theorem after_start {h : Handler S F σ} {start : S.Op → Bool} {P : Prog S α → Prop} {o : S.Op}
    {k : S.Ans o → Prog S α} (starts : start o = true) (onward : ∀ a, P (k a)) :
    (Prog.call o k).After h start P := by
  intro s a s' _
  rw [if_pos starts]
  exact onward a

/-- A part of a program that does not make the call. -/
theorem after_bind {β : Type} {h : Handler S F σ} {start : S.Op → Bool} {P : Prog S β → Prop}
    {p : Prog S α} {f : α → Prog S β} (only : p.Only fun o => start o = false)
    (onward : ∀ a, (f a).After h start P) : (p >>= f).After h start P := by
  induction p with
  | ret a => exact onward a
  | call o k ih => exact after_pass only.1 fun _ a _ _ => ih a (only.2 a)

end Prog

/-! ## Locks -/

/-- Who has the lock, what it guards, and the calls made without it and with it. -/
structure Lock (S : Sig) (σ V : Type) where
  owner : σ → Option Nat
  view : σ → V
  locks : S.Op → Bool
  unlocks : S.Op → Bool
  outer : S.Op → Prop
  inner : S.Op → Prop

namespace Lock

inductive Stage where
  | before
  | held
  | after
  deriving DecidableEq

variable (G : Lock S σ V)

/-- The machine keeps the lock, and guards the view. -/
structure Kept (h : Nat → E → Handler S F σ) : Prop where
  lock : ∀ {t e o s a s'}, G.locks o = true → h t e o s = .done a s' →
    G.owner s = none ∧ G.owner s' = some t ∧ G.view s' = G.view s
  unlock : ∀ {t e o s a s'}, G.unlocks o = true → h t e o s = .done a s' →
    G.owner s = some t ∧ G.owner s' = none ∧ G.view s' = G.view s
  outer : ∀ {t e o s a s'}, G.outer o → h t e o s = .done a s' →
    G.owner s' = G.owner s ∧ G.view s' = G.view s
  inner : ∀ {t e o s a s'}, G.inner o → h t e o s = .done a s' → G.owner s' = G.owner s
  alike : ∀ {t e o s s'}, G.inner o → G.view s = G.view s' →
    (h t e o s).mapState G.view = (h t e o s').mapState G.view

/-- A thread takes the lock once, and gives it back or returns with it. -/
def stages : Protocol S Stage where
  allowed o stage :=
    match stage with
    | .before => G.locks o = true ∨ G.outer o
    | .held => G.unlocks o = true ∨ G.inner o
    | .after => G.outer o
  possible _ _ _ := True
  next o _ stage :=
    match stage with
    | .before => if G.locks o then .held else .before
    | .held => if G.unlocks o then .after else .held
    | .after => .after

/-- `q`, run by itself to the point where it gives the lock back, does `spec` to the view. -/
def Does (h : Handler S F σ) (spec : V → V → Prop) (q : Prog S α) : Prop :=
  ∀ s o k s', (q.upTo G.unlocks).exec h s = .done (.call o k) s' → spec (G.view s) (G.view s')

/-- Where thread `t` is when the threads of `order` have given the lock back. -/
def stageOf (order : List Nat) (s : σ) (t : Nat) : Stage :=
  if G.owner s = some t then .held else if t ∈ order then .after else .before

section Stages

variable {G} {order : List Nat} {s s' : σ} {t : Nat}

theorem stageOf_held (owns : G.owner s = some t) : G.stageOf order s t = .held := if_pos owns

theorem owns_of_held (held : G.stageOf order s t = .held) : G.owner s = some t := by
  unfold stageOf at held
  split at held
  · assumption
  · split at held <;> cases held

theorem stageOf_congr (owner : G.owner s' = G.owner s) (t : Nat) :
    G.stageOf order s' t = G.stageOf order s t := by
  rw [stageOf, owner, stageOf]

/-- The stages are those of a thread that does not have the lock, before and after. -/
theorem stageOf_free (apart : G.owner s ≠ some t) (apart' : G.owner s' ≠ some t)
    {order' : List Nat} (same : t ∈ order' ↔ t ∈ order) :
    G.stageOf order' s' t = G.stageOf order s t := by
  simp only [stageOf, if_neg apart, if_neg apart', same]

end Stages

end Lock

/-! ## The order of the sections -/

namespace Pool

/-- Thread `t`, if it goes on with a call that is `marked`. -/
def marks (h : Nat → E → Handler S F σ) (marked : S.Op → Bool) (c : Pool S E σ α) (t : Nat) :
    List Nat :=
  match c.threads[t]? with
  | some ⟨e, .call o _⟩ =>
      match h t e o c.shared with
      | .done _ _ => if marked o then [t] else []
      | .blocked _ | .fault _ _ => []
  | some ⟨_, .ret _⟩ | none => []

/-- The threads that make a call that is `marked`, in the order in which they make it. -/
def order (h : Nat → E → Handler S F σ) (act : W → σ → σ) (marked : S.Op → Bool) :
    Pool S E σ α → List (Action S E W α) → List Nat
  | _, [] => []
  | c, .step t :: rest => c.marks h marked t ++ order h act marked (c.advance h t) rest
  | c, .spawn thread :: rest => order h act marked (c.step h act (.spawn thread)) rest
  | c, .world w :: rest => order h act marked (c.step h act (.world w)) rest

variable {h : Nat → E → Handler S F σ} {act : W → σ → σ} {marked : S.Op → Bool}

theorem order_append (c : Pool S E σ α) (before after : List (Action S E W α)) :
    order h act marked c (before ++ after) =
      order h act marked c before ++ order h act marked (run h act c before) after := by
  induction before generalizing c with
  | nil => rfl
  | cons a rest ih =>
      cases a with
      | step t => exact (congrArg (c.marks h marked t ++ ·) (ih _)).trans (List.append_assoc ..).symm
      | spawn thread => exact ih _
      | world w => exact ih _

/-- What has come before stays before. -/
theorem order_prefix (c : Pool S E σ α) {before actions : List (Action S E W α)}
    (first : before <+: actions) :
    order h act marked c before <+: order h act marked c actions := by
  obtain ⟨after, rfl⟩ := first
  rw [order_append]
  exact List.prefix_append _ _

theorem marks_cases (c : Pool S E σ α) (t : Nat) :
    (c.advance h t = c ∧ c.marks h marked t = []) ∨
      ∃ e o k a s, c.threads[t]? = some ⟨e, .call o k⟩ ∧ h t e o c.shared = .done a s ∧
        c.advance h t = ⟨s, c.threads.set t ⟨e, k a⟩⟩ ∧
        c.marks h marked t = if marked o then [t] else [] := by
  unfold advance marks
  cases found : c.threads[t]? with
  | none => exact .inl ⟨rfl, rfl⟩
  | some thread =>
      obtain ⟨e, p⟩ := thread
      cases p with
      | ret a => exact .inl ⟨rfl, rfl⟩
      | call o k =>
          dsimp only
          cases answered : h t e o c.shared with
          | done a s => exact .inr ⟨e, o, k, a, s, rfl, answered, rfl, rfl⟩
          | blocked s => exact .inl ⟨rfl, rfl⟩
          | fault f s => exact .inl ⟨rfl, rfl⟩

end Pool

/-! ## Sections one after another -/

/-- The sections of the threads, each run by itself, take the first view to the last. -/
inductive Replay (spec : Nat → V → V → Prop) (v : V) : List Nat → V → Prop
  | none : Replay spec v [] v
  | then {ts : List Nat} {t : Nat} {u w : V} (before : Replay spec v ts u) (does : spec t u w) :
      Replay spec v (ts ++ [t]) w

namespace Lock

variable (G : Lock S σ V) (h : Nat → E → Handler S F σ) (spec : Nat → V → V → Prop)

/-- Thread `t` is in its section: what is left of it does to the view as it is what the
whole section does to `v`. -/
def Amid (c : Pool S E σ α) (t : Nat) (v : V) : Prop :=
  ∃ (e : E) (p q : Prog S α) (s : σ), c.threads[t]? = some ⟨e, p⟩ ∧ G.Does (h t e) (spec t) q ∧
    G.view s = v ∧ ((p.upTo G.unlocks).exec (h t e) c.shared).mapState G.view =
      ((q.upTo G.unlocks).exec (h t e) s).mapState G.view

/-- The threads of `order` have given the lock back, in that order. -/
structure Linear (Q : Stage → α → Prop) (v₀ : V) (order : List Nat) (c : Pool S E σ α) : Prop where
  follows : ∀ t e (p : Prog S α), c.threads[t]? = some ⟨e, p⟩ →
    p.Follows G.stages Q (G.stageOf order c.shared t)
  sections : ∀ t e (p : Prog S α), c.threads[t]? = some ⟨e, p⟩ →
    G.stageOf order c.shared t = .before → p.After (h t e) G.locks (G.Does (h t e) (spec t))
  unused : ∀ t, c.threads.length ≤ t → G.stageOf order c.shared t = .before
  distinct : order.Nodup
  once : ∀ t, G.owner c.shared = some t → t ∉ order
  replay : ∃ v, Replay spec v₀ order v ∧ (G.owner c.shared = none → G.view c.shared = v) ∧
    ∀ t, G.owner c.shared = some t → G.Amid h spec c t v

variable {G h spec}

/-! ### What a section does -/

/-- The calls of a section are answered from the view. -/
theorem exec_alike (kept : G.Kept h) {t : Nat} {e : E} {p : Prog S α} {r : Stage}
    {Q : Stage → α → Prop} (follows : p.Follows G.stages Q r) (held : r = .held) {s s' : σ}
    (same : G.view s = G.view s') :
    ((p.upTo G.unlocks).exec (h t e) s).mapState G.view =
      ((p.upTo G.unlocks).exec (h t e) s').mapState G.view := by
  induction p generalizing r s s' with
  | ret a => exact congrArg (Outcome.done (Prog.ret a)) same
  | call o k ih =>
      subst held
      unfold Prog.upTo
      split
      · exact congrArg (Outcome.done (Prog.call o k)) same
      · rename_i going
        have inner : G.inner o := follows.1.resolve_left going
        rw [Prog.exec_call, Prog.exec_call]
        apply Outcome.bind_alike (kept.alike inner same)
        intro a s₁ s₂ views
        exact ih a (follows.2 a trivial) (if_neg going) views

/-! ### One call -/

section Step

variable {Q : Stage → α → Prop} {v₀ : V} {order : List Nat} {c : Pool S E σ α} {t : Nat} {e : E}
  {o : S.Op} {k : S.Ans o → Prog S α} {a : S.Ans o} {s : σ}

/-- The stages of the others stay, and the thread that made the call goes on as it may. -/
theorem Linear.moved (linear : G.Linear h spec Q v₀ order c)
    (found : c.threads[t]? = some ⟨e, .call o k⟩) {order' : List Nat}
    (apart : ∀ u, u ≠ t → G.stageOf order' s u = G.stageOf order c.shared u)
    (follows : (k a).Follows G.stages Q (G.stageOf order' s t))
    (sections : G.stageOf order' s t = .before →
      (k a).After (h t e) G.locks (G.Does (h t e) (spec t)))
    (distinct : order'.Nodup) (once : ∀ u, G.owner s = some u → u ∉ order')
    (replay : ∃ v, Replay spec v₀ order' v ∧ (G.owner s = none → G.view s = v) ∧
      ∀ u, G.owner s = some u → G.Amid h spec ⟨s, c.threads.set t ⟨e, k a⟩⟩ u v) :
    G.Linear h spec Q v₀ order' ⟨s, c.threads.set t ⟨e, k a⟩⟩ where
  follows := by
    intro u e' p at_u
    by_cases self : u = t
    · subst self
      rw [List.getElem?_set_self (List.getElem?_eq_some_iff.mp found).1] at at_u
      cases at_u
      exact follows
    · rw [List.getElem?_set_ne (Ne.symm self)] at at_u
      show p.Follows G.stages Q (G.stageOf order' s u)
      rw [apart u self]
      exact linear.follows u e' p at_u
  sections := by
    intro u e' p at_u before
    by_cases self : u = t
    · subst self
      rw [List.getElem?_set_self (List.getElem?_eq_some_iff.mp found).1] at at_u
      cases at_u
      exact sections before
    · rw [List.getElem?_set_ne (Ne.symm self)] at at_u
      exact linear.sections u e' p at_u ((apart u self).symm.trans before)
  unused := by
    intro u beyond
    rw [List.length_set] at beyond
    have bound := (List.getElem?_eq_some_iff.mp found).1
    exact (apart u (Nat.ne_of_gt (Nat.lt_of_lt_of_le bound beyond))).trans (linear.unused u beyond)
  distinct := distinct
  once := once
  replay := replay

/-- What the others do outside does not disturb a section. -/
theorem Linear.undisturbed (linear : G.Linear h spec Q v₀ order c) (kept : G.Kept h) {u : Nat}
    {v : V} (owns : G.owner c.shared = some u) (amid : G.Amid h spec c u v) {c' : Pool S E σ α}
    (threads : c'.threads[u]? = c.threads[u]?) (views : G.view c'.shared = G.view c.shared) :
    G.Amid h spec c' u v := by
  obtain ⟨e, p, q, s, found, does, at_v, same⟩ := amid
  have inside := linear.follows u e p found
  refine ⟨e, p, q, s, threads.trans found, does, at_v, ?_⟩
  rw [← same]
  exact exec_alike kept inside (stageOf_held owns) views

/-- Who has the lock gives it back or goes on with its section. -/
theorem Linear.held (linear : G.Linear h spec Q v₀ order c) (kept : G.Kept h)
    (found : c.threads[t]? = some ⟨e, .call o k⟩) (answered : h t e o c.shared = .done a s)
    (owns : G.owner c.shared = some t) :
    G.Linear h spec Q v₀ (order ++ if G.unlocks o then [t] else [])
      ⟨s, c.threads.set t ⟨e, k a⟩⟩ := by
  obtain ⟨v, replay, -, amid⟩ := linear.replay
  obtain ⟨e', p, q, s₀, found', does, at_v, same⟩ := amid t owns
  cases found.symm.trans found'
  have follows := linear.follows t e _ found
  rw [stageOf_held owns] at follows
  have fresh := linear.once t owns
  cases unlocks : G.unlocks o with
  | true =>
      obtain ⟨-, freed, views⟩ := kept.unlock unlocks answered
      have nobody : ∀ u, G.owner s ≠ some u := by
        intro u
        rw [freed]
        exact nofun
      have stage : G.stageOf (order ++ [t]) s t = .after := by
        rw [stageOf, if_neg (nobody t), if_pos (List.mem_append_right _ (List.mem_singleton_self t))]
      have done : spec t v (G.view s) := by
        rw [Prog.upTo, if_pos unlocks] at same
        obtain ⟨s₁, ran, seen⟩ := Outcome.mapState_eq_done.mp same.symm
        have does := does s₀ o k s₁ ran
        rwa [at_v, ← seen, ← views] at does
      rw [if_pos rfl]
      refine linear.moved found (fun u other => stageOf_free ?_ (nobody u) ?_) ?_ ?_ ?_
        (fun u owner => absurd owner (nobody u)) ⟨G.view s, replay.then done, fun _ => rfl, fun u
          owner => absurd owner (nobody u)⟩
      · rw [owns]
        exact fun is => other (Option.some.inj is).symm
      · simp [other]
      · have onward := follows.2 a trivial
        rw [show G.stages.next o a .held = .after from if_pos unlocks] at onward
        rw [stage]
        exact onward
      · rw [stage]
        exact nofun
      · refine List.nodup_append.mpr ⟨linear.distinct, List.nodup_singleton t, ?_⟩
        intro u before u' here is
        cases List.mem_singleton.mp here
        exact fresh (is ▸ before)
  | false =>
      have going : ¬ G.unlocks o = true := by
        rw [unlocks]
        exact Bool.false_ne_true
      have owner := kept.inner (follows.1.resolve_left going) answered
      have still : G.owner s = some t := owner.trans owns
      rw [if_neg Bool.false_ne_true, List.append_nil]
      refine linear.moved found (fun u _ => stageOf_congr owner u) ?_ ?_ linear.distinct
        (fun u is => linear.once u (owner ▸ is)) ⟨v, replay, ?_, ?_⟩
      · have onward := follows.2 a trivial
        rw [show G.stages.next o a .held = .held from if_neg going] at onward
        rw [stageOf_held still]
        exact onward
      · rw [stageOf_held still]
        exact nofun
      · rw [still]
        exact nofun
      · intro u is
        cases still.symm.trans is
        refine ⟨e, k a, q, s₀, ?_, does, at_v, ?_⟩
        · exact List.getElem?_set_self (List.getElem?_eq_some_iff.mp found).1
        · rw [← same, Prog.upTo, if_neg going, Prog.exec_call, answered]
          rfl

/-- Who has not the lock takes it or leaves the view alone. -/
theorem Linear.apart (linear : G.Linear h spec Q v₀ order c) (kept : G.Kept h)
    (found : c.threads[t]? = some ⟨e, .call o k⟩) (answered : h t e o c.shared = .done a s)
    (without : G.owner c.shared ≠ some t) :
    G.Linear h spec Q v₀ (order ++ if G.unlocks o then [t] else [])
      ⟨s, c.threads.set t ⟨e, k a⟩⟩ := by
  obtain ⟨v, replay, free, amid⟩ := linear.replay
  have follows := linear.follows t e _ found
  have going : ¬ G.unlocks o = true := fun unlocks => without (kept.unlock unlocks answered).1
  rw [if_neg going, List.append_nil]
  by_cases locks : G.locks o = true
  · obtain ⟨nobody, owns, views⟩ := kept.lock locks answered
    have before : G.stageOf order c.shared t = .before := by
      cases stage : G.stageOf order c.shared t with
      | before => rfl
      | held => exact absurd (owns_of_held stage) without
      | after =>
          rw [stage] at follows
          have same := (kept.outer follows.1 answered).1
          rw [nobody, owns] at same
          cases same
    rw [before] at follows
    refine linear.moved found (fun u other => stageOf_free ?_ ?_ Iff.rfl) ?_ ?_ linear.distinct ?_
      ⟨v, replay, ?_, ?_⟩
    · rw [nobody]
      exact nofun
    · rw [owns]
      exact fun is => other (Option.some.inj is).symm
    · have onward := follows.2 a trivial
      rw [show G.stages.next o a .before = .held from if_pos locks] at onward
      rw [stageOf_held owns]
      exact onward
    · rw [stageOf_held owns]
      exact nofun
    · intro u is
      cases owns.symm.trans is
      intro passed
      rw [stageOf, if_neg without, if_pos passed] at before
      cases before
    · rw [owns]
      exact nofun
    · intro u is
      cases owns.symm.trans is
      refine ⟨e, k a, k a, s, ?_, ?_, views.trans (free nobody), rfl⟩
      · exact List.getElem?_set_self (List.getElem?_eq_some_iff.mp found).1
      · have does := linear.sections t e _ found before c.shared a s answered
        rwa [if_pos locks] at does
  · have outer : G.outer o := by
      cases stage : G.stageOf order c.shared t with
      | before =>
          rw [stage] at follows
          exact follows.1.resolve_left locks
      | held => exact absurd (owns_of_held stage) without
      | after =>
          rw [stage] at follows
          exact follows.1
    obtain ⟨owner, views⟩ := kept.outer outer answered
    have stays : G.stages.next o a (G.stageOf order c.shared t) = G.stageOf order c.shared t := by
      cases stage : G.stageOf order c.shared t with
      | before => exact if_neg locks
      | held => exact absurd (owns_of_held stage) without
      | after => rfl
    refine linear.moved found (fun u _ => stageOf_congr owner u) ?_ ?_ linear.distinct
      (fun u is => linear.once u (owner ▸ is)) ⟨v, replay, ?_, ?_⟩
    · have onward := follows.2 a trivial
      rw [stays] at onward
      rw [stageOf_congr owner]
      exact onward
    · intro before
      rw [stageOf_congr owner] at before
      have sections := linear.sections t e _ found before c.shared a s answered
      rwa [if_neg locks] at sections
    · intro nobody
      exact views.trans (free (owner ▸ nobody))
    · intro u is
      rw [owner] at is
      have other : u ≠ t := fun self => without (self ▸ is)
      exact linear.undisturbed kept is (amid u is) (List.getElem?_set_ne (Ne.symm other)) views

end Step

/-! ### Runs -/

section Runs

variable {Q : Stage → α → Prop} {v₀ : V} {act : W → σ → σ}

theorem Linear.advance {order : List Nat} {c : Pool S E σ α} (kept : G.Kept h)
    (linear : G.Linear h spec Q v₀ order c) (t : Nat) :
    G.Linear h spec Q v₀ (order ++ c.marks h G.unlocks t) (c.advance h t) := by
  have moves : (c.advance h t = c ∧ c.marks h G.unlocks t = []) ∨ _ := Pool.marks_cases c t
  rcases moves with
    ⟨same, none⟩ | ⟨e, o, k, a, s, found, answered, moved, marked⟩
  · rw [same, none, List.append_nil]
    exact linear
  · rw [moved, marked]
    by_cases owns : G.owner c.shared = some t
    · exact linear.held kept found answered owns
    · exact linear.apart kept found answered owns

/-- Who is among the threads when one is started: it was before, or it is the new one. -/
theorem spawned {c : Pool S E σ α} {thread started : Thread S E α} {t : Nat}
    (found : (c.threads ++ [thread])[t]? = some started) :
    c.threads[t]? = some started ∨ t = c.threads.length ∧ started = thread := by
  rw [List.getElem?_append] at found
  split at found
  · exact .inl found
  · rename_i beyond
    rw [List.getElem?_singleton] at found
    split at found
    · exact .inr ⟨by omega, (Option.some.inj found).symm⟩
    · cases found

/-- A thread that is started is before its section. -/
theorem Linear.spawn {order : List Nat} {c : Pool S E σ α} (linear : G.Linear h spec Q v₀ order c)
    {thread : Thread S E α} (follows : thread.prog.Follows G.stages Q .before)
    (sections : thread.prog.After (h c.threads.length thread.env) G.locks
      (G.Does (h c.threads.length thread.env) (spec c.threads.length))) :
    G.Linear h spec Q v₀ order { c with threads := c.threads ++ [thread] } where
  follows := by
    intro t e p found
    rcases spawned found with before | ⟨rfl, rfl⟩
    · exact linear.follows t e p before
    · show p.Follows G.stages Q (G.stageOf order c.shared c.threads.length)
      rw [linear.unused _ (Nat.le_refl _)]
      exact follows
  sections := by
    intro t e p found
    rcases spawned found with before | ⟨rfl, rfl⟩
    · exact linear.sections t e p before
    · exact fun _ => sections
  unused := by
    intro t beyond
    apply linear.unused
    rw [List.length_append] at beyond
    exact Nat.le_of_add_right_le beyond
  distinct := linear.distinct
  once := linear.once
  replay := by
    obtain ⟨v, replay, free, amid⟩ := linear.replay
    refine ⟨v, replay, free, fun t owns => ?_⟩
    obtain ⟨e, p, q, s, found, rest⟩ := amid t owns
    refine ⟨e, p, q, s, ?_, rest⟩
    exact (List.getElem?_append_left (List.getElem?_eq_some_iff.mp found).1).trans found

/-- The world leaves the lock and the view alone. -/
theorem Linear.world {order : List Nat} {c : Pool S E σ α} (kept : G.Kept h)
    (linear : G.Linear h spec Q v₀ order c) {s : σ} (owner : G.owner s = G.owner c.shared)
    (views : G.view s = G.view c.shared) : G.Linear h spec Q v₀ order { c with shared := s } where
  follows := by
    intro t e p found
    show p.Follows G.stages Q (G.stageOf order s t)
    rw [stageOf_congr owner]
    exact linear.follows t e p found
  sections := by
    intro t e p found before
    exact linear.sections t e p found ((stageOf_congr owner t).symm.trans before)
  unused t beyond := (stageOf_congr owner t).trans (linear.unused t beyond)
  distinct := linear.distinct
  once t owns := linear.once t (owner ▸ owns)
  replay := by
    obtain ⟨v, replay, free, amid⟩ := linear.replay
    refine ⟨v, replay, fun nobody => views.trans (free (owner ▸ nobody)), fun t owns => ?_⟩
    have owns : G.owner c.shared = some t := owner ▸ owns
    exact linear.undisturbed kept owns (amid t owns) rfl views

/-- The threads that are started from position `n` on keep to the lock, and their sections
do what they should. -/
def Starts (G : Lock S σ V) (h : Nat → E → Handler S F σ) (spec : Nat → V → V → Prop)
    (Q : Stage → α → Prop) : Nat → List (Pool.Action S E W α) → Prop
  | _, [] => True
  | n, .spawn thread :: rest =>
      (thread.prog.Follows G.stages Q .before ∧
        thread.prog.After (h n thread.env) G.locks (G.Does (h n thread.env) (spec n))) ∧
          Starts G h spec Q (n + 1) rest
  | n, .step _ :: rest | n, .world _ :: rest => Starts G h spec Q n rest

/-- **Sections under a lock are single steps**: in every run, when nobody has the lock the
view is what the sections that are over make of the first one, one after another. -/
theorem run_linear (kept : G.Kept h)
    (outside : ∀ w s, G.owner (act w s) = G.owner s ∧ G.view (act w s) = G.view s)
    {order : List Nat} {c : Pool S E σ α} {actions : List (Pool.Action S E W α)}
    (starts : G.Starts h spec Q c.threads.length actions)
    (linear : G.Linear h spec Q v₀ order c) :
    G.Linear h spec Q v₀ (order ++ Pool.order h act G.unlocks c actions)
      (Pool.run h act c actions) := by
  induction actions generalizing c order with
  | nil =>
      rw [show Pool.order h act G.unlocks c [] = [] from rfl, List.append_nil]
      exact linear
  | cons action rest ih =>
      cases action with
      | spawn thread =>
          refine ih ?_ (linear.spawn starts.1.1 starts.1.2)
          show G.Starts h spec Q (c.threads ++ [thread]).length rest
          rw [List.length_append]
          exact starts.2
      | step t =>
          have starts' : G.Starts h spec Q (c.advance h t).threads.length rest := by
            rw [Pool.advance_length]
            exact starts
          have onward := ih starts' (linear.advance kept t)
          rwa [List.append_assoc] at onward
      | world w =>
          obtain ⟨owner, views⟩ := outside w c.shared
          exact ih starts (linear.world kept owner views)

end Runs

end Lock

end Dreamscape.Theory
