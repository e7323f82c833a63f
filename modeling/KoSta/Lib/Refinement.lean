import KoSta.Lib.System

/-! One system inside another: what it does is, in a view, what the other may do. -/
namespace Lib
open Prog Function

variable {σ τ ε α β κ : Type}

namespace Prog

/-- Section for section, the first program does in the view what the second does, up to what
`env` does after it. -/
def Follows (view : σ → τ) (env : τ → τ → Prop) : Prog σ ε α → Prog τ ε α → Prop
  | .done a, .done b => a = b
  | .fail e, .fail e' => e = e'
  | .atomic act next, .atomic act' next' => ∀ s,
    Relation.ReflTransGen env (act' (view s)) (view (act s)) ∧
      (next s).Follows view env (next' (view s))
  | _, _ => False

namespace Follows

variable {view : σ → τ} {env : τ → τ → Prop} {p : Prog σ ε α} {q : Prog τ ε α}
  {k : α → Prog σ ε β} {l : α → Prog τ ε β}

theorem pure (a : α) : (pure a : Prog σ ε α).Follows view env (pure a : Prog τ ε α) := rfl

theorem fail (e : ε) : (fail e : Prog σ ε α).Follows view env (fail e : Prog τ ε α) := rfl

theorem atomically {f : σ → α × σ} {g : τ → α × τ} (hvalue : ∀ s, (f s).1 = (g (view s)).1)
    (hstate : ∀ s, Relation.ReflTransGen env (g (view s)).2 (view (f s).2)) :
    (Prog.atomically f : Prog σ ε α).Follows view env (Prog.atomically g) :=
  fun s => ⟨hstate s, hvalue s⟩

theorem of_done {a : α} (h : (Prog.done a).Follows view env q) : q = .done a := by
  cases q with
  | done b => exact congrArg Prog.done (Eq.symm h)
  | fail e => cases h
  | atomic act next => cases h

theorem of_fail {e : ε} (h : (Prog.fail e).Follows view env q) : q = .fail e := by
  cases q with
  | done b => cases h
  | fail e' => exact congrArg Prog.fail (Eq.symm h)
  | atomic act next => cases h

theorem of_atomic {act : σ → σ} {next : σ → Prog σ ε α}
    (h : (Prog.atomic act next).Follows view env q) : ∃ act' next', q = .atomic act' next' ∧
      ∀ s, Relation.ReflTransGen env (act' (view s)) (view (act s)) ∧
        (next s).Follows view env (next' (view s)) := by
  cases q with
  | done b => cases h
  | fail e => cases h
  | atomic act' next' => exact ⟨act', next', rfl, h⟩

theorem bind (hp : p.Follows view env q) (hk : ∀ a, (k a).Follows view env (l a)) :
    (p >>= k).Follows view env (q >>= l) := by
  induction p generalizing q with
  | done a =>
    obtain rfl := hp.of_done
    exact hk a
  | fail e =>
    obtain rfl := hp.of_fail
    exact rfl
  | atomic act next ih =>
    obtain ⟨act', next', rfl, hsteps⟩ := hp.of_atomic
    exact fun s => ⟨(hsteps s).1, ih s (hsteps s).2⟩

end Follows

end Prog

/-! ### Systems -/

/-- Whatever the rules of the first system allow, those of the second allow in the view. -/
structure PoolRules.Refines (rules : PoolRules σ ε α κ) (rules' : PoolRules τ ε α κ)
    (view : σ → τ) : Prop where
  starts : ∀ {k p}, rules.starts k p → ∃ q, rules'.starts k q ∧ p.Follows view rules'.env q
  meets : ∀ s t, rules'.meets s t
  env : ∀ {s t}, rules.env s t → Relation.ReflTransGen rules'.env (view s) (view t)
  crash : ∀ {s t}, rules.crash s t → rules'.crash (view s) (view t)

namespace Pool

/-- Slot for slot, what runs in the one follows what runs in the other. -/
structure Matches (view : σ → τ) (env : τ → τ → Prop) (x : Pool σ ε α κ) (y : Pool τ ε α κ) :
    Prop where
  state : y.state = view x.state
  jobs : ∀ k, Option.Rel (Follows view env) (x.jobs k) (y.jobs k)

variable [DecidableEq κ] {rules : PoolRules σ ε α κ} {rules' : PoolRules τ ε α κ} {view : σ → τ}
  {x x' : Pool σ ε α κ} {y : Pool τ ε α κ}

theorem steps_env {s t : τ} (h : Relation.ReflTransGen rules'.env s t)
    (jobs : κ → Option (Prog τ ε α)) :
    Relation.ReflTransGen (Step rules') ⟨s, jobs⟩ ⟨t, jobs⟩ := by
  induction h with
  | refl => exact .refl
  | @tail u v _ henv ih => exact ih.tail (@Step.env _ _ _ _ _ rules' ⟨u, jobs⟩ v henv)

theorem rel_update {env : τ → τ → Prop}
    (h : ∀ k, Option.Rel (Follows view env) (x.jobs k) (y.jobs k)) {k : κ}
    {job : Option (Prog σ ε α)} {job' : Option (Prog τ ε α)}
    (hk : Option.Rel (Follows view env) job job') (k' : κ) :
    Option.Rel (Follows view env) (update x.jobs k job k') (update y.jobs k job' k') := by
  by_cases hk' : k' = k
  · subst hk'
    rwa [update_self, update_self]
  · rw [update_of_ne hk', update_of_ne hk']
    exact h k'

omit [DecidableEq κ] in
theorem matches_init (env : τ → τ → Prop) (s : σ) :
    Matches view env (init s : Pool σ ε α κ) (init (view s)) := ⟨rfl, fun _ => .none⟩

omit [DecidableEq κ] in
theorem Matches.idle {env : τ → τ → Prop} (h : Matches view env x y) {k : κ}
    (hnone : x.jobs k = none) : y.jobs k = none := by
  have hk := h.jobs k
  rw [hnone] at hk
  generalize y.jobs k = job at hk
  cases hk
  rfl

omit [DecidableEq κ] in
theorem Matches.job {env : τ → τ → Prop} (h : Matches view env x y) {k : κ} {p : Prog σ ε α}
    (hp : x.jobs k = some p) : ∃ q, y.jobs k = some q ∧ p.Follows view env q := by
  have hk := h.jobs k
  rw [hp] at hk
  generalize y.jobs k = job at hk
  cases hk with
  | some hfollows => exact ⟨_, rfl, hfollows⟩

/-- A step of the first system is some steps of the second. -/
theorem matches_step (hrules : rules.Refines rules' view) (h : Matches view rules'.env x y)
    (hstep : Step rules x x') :
    ∃ y', Relation.ReflTransGen (Step rules') y y' ∧ Matches view rules'.env x' y' := by
  cases hstep with
  | @start k p hnone hp =>
    obtain ⟨q, hq, hfollows⟩ := hrules.starts hp
    exact ⟨_, .single (.start (h.idle hnone) hq), h.state, rel_update h.jobs (.some hfollows)⟩
  | @run k act next hjob _ =>
    obtain ⟨q, hy, hfollows⟩ := h.job hjob
    obtain ⟨act', next', rfl, hsteps⟩ := hfollows.of_atomic
    obtain ⟨henv, hnext⟩ := hsteps x.state
    rw [← h.state] at henv hnext
    have hrun := @Step.run _ _ _ _ _ rules' y k act' next' hy (hrules.meets _ _)
    exact ⟨_, .head hrun (steps_env henv _), rfl, rel_update h.jobs (.some hnext)⟩
  | @done k a hjob =>
    obtain ⟨q, hy, hfollows⟩ := h.job hjob
    obtain rfl := hfollows.of_done
    exact ⟨_, .single (.done hy), h.state, rel_update h.jobs .none⟩
  | @fail k e hjob =>
    obtain ⟨q, hy, hfollows⟩ := h.job hjob
    obtain rfl := hfollows.of_fail
    exact ⟨_, .single (.fail hy), h.state, rel_update h.jobs .none⟩
  | @env t henv =>
    have hsteps := steps_env (hrules.env henv) y.jobs
    rw [← h.state] at hsteps
    exact ⟨_, hsteps, rfl, h.jobs⟩
  | @crash t hcrash =>
    have hcrash' := hrules.crash hcrash
    rw [← h.state] at hcrash'
    exact ⟨_, .single (.crash hcrash'), matches_init _ t⟩

/-- What the first system reaches is, in the view, something the second reaches. -/
theorem matches_reachable (hrules : rules.Refines rules' view) {s : σ}
    (h : Reachable rules s x) :
    ∃ y, Reachable rules' (view s) y ∧ Matches view rules'.env x y := by
  induction h with
  | init => exact ⟨_, .init, matches_init _ s⟩
  | step _ hstep ih =>
    obtain ⟨y, hy, hmatches⟩ := ih
    obtain ⟨y', hsteps, hmatches'⟩ := matches_step hrules hmatches hstep
    exact ⟨y', hy.trans hsteps, hmatches'⟩

end Pool

end Lib
