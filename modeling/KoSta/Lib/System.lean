import Mathlib.Logic.Function.Basic
import Mathlib.Logic.Relation
import KoSta.Lib.Prog

/-! Systems of programs over one state, interleaved section by section. -/
namespace Lib
open Prog Function

variable {σ ε α κ φ : Type}

/-- The shared state and what runs in each slot. With one slot, programs run one at a time. -/
structure Pool (σ ε α κ : Type) where
  state : σ
  jobs : κ → Option (Prog σ ε α)

/-- What can start in a slot, which sections are considered, what the environment does between
two sections, and what a crash leaves. -/
structure PoolRules (σ ε α κ : Type) where
  starts : κ → Prog σ ε α → Prop
  meets : σ → σ → Prop
  env : σ → σ → Prop
  crash : σ → σ → Prop

namespace Pool

def init (s : σ) : Pool σ ε α κ := ⟨s, fun _ => none⟩

@[simp] theorem state_init (s : σ) : (init s : Pool σ ε α κ).state = s := rfl

variable [DecidableEq κ]

inductive Step (rules : PoolRules σ ε α κ) : Pool σ ε α κ → Pool σ ε α κ → Prop where
  | start {x : Pool σ ε α κ} {k : κ} {p : Prog σ ε α} : x.jobs k = none → rules.starts k p →
    Step rules x ⟨x.state, update x.jobs k (some p)⟩
  | run {x : Pool σ ε α κ} {k : κ} {act : σ → σ} {next : σ → Prog σ ε α} :
    x.jobs k = some (.atomic act next) → rules.meets x.state (act x.state) →
    Step rules x ⟨act x.state, update x.jobs k (some (next x.state))⟩
  | done {x : Pool σ ε α κ} {k : κ} {a : α} : x.jobs k = some (.done a) →
    Step rules x ⟨x.state, update x.jobs k none⟩
  | fail {x : Pool σ ε α κ} {k : κ} {e : ε} : x.jobs k = some (.fail e) →
    Step rules x ⟨x.state, update x.jobs k none⟩
  | env {x : Pool σ ε α κ} {t : σ} : rules.env x.state t → Step rules x ⟨t, x.jobs⟩
  | crash {x : Pool σ ε α κ} {t : σ} : rules.crash x.state t → Step rules x (init t)

inductive Reachable (rules : PoolRules σ ε α κ) (s : σ) : Pool σ ε α κ → Prop where
  | init : Reachable rules s (init s)
  | step {x y : Pool σ ε α κ} : Reachable rules s x → Step rules x y → Reachable rules s y

theorem Reachable.trans {rules : PoolRules σ ε α κ} {s : σ} {x y : Pool σ ε α κ}
    (hx : Reachable rules s x) (h : Relation.ReflTransGen (Step rules) x y) :
    Reachable rules s y := by
  induction h with
  | refl => exact hx
  | tail _ hstep ih => exact ih.step hstep

/-- Every program follows the automaton, and every move keeps `inv`, which sees the state and
the phase of each slot. -/
structure Verified (rules : PoolRules σ ε α κ) (move : κ → φ → σ → σ → φ → Prop) (idle : φ)
    (inv : (κ → φ) → σ → Prop) : Prop where
  starts : ∀ {k p}, rules.starts k p → p.Obeys (move k) (fun _ ph => ph = idle) idle
  move : ∀ {phs s k t ph}, inv phs s → move k (phs k) s t ph → rules.meets s t →
    inv (update phs k ph) t
  env : ∀ {phs s t}, inv phs s → rules.env s t → inv phs t
  crash : ∀ {phs s t}, inv phs s → rules.crash s t → inv (fun _ => idle) t

variable {rules : PoolRules σ ε α κ} {move : κ → φ → σ → σ → φ → Prop} {idle : φ}
variable {inv : (κ → φ) → σ → Prop}

/-- What runs in a slot goes on from the phase the slot is in. -/
def Fits (move : φ → σ → σ → φ → Prop) (idle : φ) (job : Option (Prog σ ε α)) (ph : φ) : Prop :=
  match job with
  | none => ph = idle
  | some p => p.Obeys move (fun _ ph' => ph' = idle) ph

theorem fits_update {jobs : κ → Option (Prog σ ε α)} {phs : κ → φ}
    (h : ∀ k, Fits (move k) idle (jobs k) (phs k)) {k : κ} {job : Option (Prog σ ε α)} {ph : φ}
    (hk : Fits (move k) idle job ph) (k' : κ) :
    Fits (move k') idle (update jobs k job k') (update phs k ph k') := by
  by_cases hk' : k' = k
  · subst hk'
    rwa [update_self, update_self]
  · rw [update_of_ne hk', update_of_ne hk']
    exact h k'

theorem fits_over {jobs : κ → Option (Prog σ ε α)} {phs : κ → φ}
    (h : ∀ k, Fits (move k) idle (jobs k) (phs k)) {k : κ} (hk : phs k = idle) (k' : κ) :
    Fits (move k') idle (update jobs k none k') (phs k') := by
  by_cases hk' : k' = k
  · subst hk'
    rwa [update_self]
  · rw [update_of_ne hk']
    exact h k'

theorem holds_step (hv : Verified rules move idle inv) {x y : Pool σ ε α κ} {phs : κ → φ}
    (hinv : inv phs x.state) (hfits : ∀ k, Fits (move k) idle (x.jobs k) (phs k))
    (h : Step rules x y) :
    ∃ phs, inv phs y.state ∧ ∀ k, Fits (move k) idle (y.jobs k) (phs k) := by
  cases h with
  | @start k p hnone hp =>
    refine ⟨update phs k idle, ?_, fits_update hfits (hv.starts hp)⟩
    have hidle : phs k = idle := by
      have hk := hfits k
      rwa [hnone] at hk
    rwa [← hidle, update_eq_self]
  | @run k act next hjob hmeets =>
    have hk := hfits k
    rw [hjob] at hk
    obtain ⟨ph, hmove, hnext⟩ := hk x.state
    exact ⟨update phs k ph, hv.move hinv hmove hmeets, fits_update hfits hnext⟩
  | @done k a hjob =>
    have hk := hfits k
    rw [hjob] at hk
    exact ⟨phs, hinv, fits_over hfits hk⟩
  | @fail k e hjob =>
    have hk := hfits k
    rw [hjob] at hk
    exact ⟨phs, hinv, fits_over hfits hk⟩
  | env henv => exact ⟨phs, hv.env hinv henv, hfits⟩
  | crash hcrash => exact ⟨fun _ => idle, hv.crash hinv hcrash, fun _ => rfl⟩

/-- What one step does to the state, seen from the phases of the slots. -/
theorem state_step {x y : Pool σ ε α κ} {phs : κ → φ}
    (hfits : ∀ k, Fits (move k) idle (x.jobs k) (phs k)) (h : Step rules x y) :
    y.state = x.state ∨ (∃ k ph, move k (phs k) x.state y.state ph) ∨
      rules.env x.state y.state ∨ rules.crash x.state y.state := by
  cases h with
  | start hnone hp => exact .inl rfl
  | @run k act next hjob hmeets =>
    have hk := hfits k
    rw [hjob] at hk
    obtain ⟨ph, hmove, -⟩ := hk x.state
    exact .inr (.inl ⟨k, ph, hmove⟩)
  | done hjob => exact .inl rfl
  | fail hjob => exact .inl rfl
  | env henv => exact .inr (.inr (.inl henv))
  | crash hcrash => exact .inr (.inr (.inr hcrash))

/-- A program that runs alone, to its end, takes one idle state to another, when all it does is
considered on what holds there. -/
theorem reachable_exec {P : σ → Prop} {s t : σ}
    (h : Reachable rules s (init t : Pool σ ε α κ)) {k : κ} {p : Prog σ ε α}
    (hp : rules.starts k p) (hmeets : p.Always fun s t => P s → P t ∧ rules.meets s t) (ht : P t) :
    Reachable rules s (init (p.exec t).2 : Pool σ ε α κ) := by
  have hstart := h.step (.start rfl hp)
  have hnone (t : σ) : update (init t : Pool σ ε α κ).jobs k none = (init t).jobs :=
    update_eq_self k fun _ => none
  clear h hp
  induction p generalizing t with
  | done a =>
    have hdone := hstart.step (.done (update_self _ _ _))
    rwa [update_idem, hnone] at hdone
  | fail e =>
    have hfail := hstart.step (.fail (update_self _ _ _))
    rwa [update_idem, hnone] at hfail
  | atomic act next ih =>
    obtain ⟨hact, hnext⟩ := hmeets t
    obtain ⟨hafter, hmeet⟩ := hact ht
    have hrun := hstart.step (.run (update_self _ _ _) hmeet)
    rw [update_idem] at hrun
    exact ih t hnext hafter hrun

/-- The next section of what runs in a slot. -/
def advance (x : Pool σ ε α κ) (k : κ) : Pool σ ε α κ :=
  match x.jobs k with
  | some (.atomic act next) => ⟨act x.state, update x.jobs k (some (next x.state))⟩
  | _ => x

theorem jobs_advance {schedule : List κ} {k : κ} (h : k ∉ schedule) (x : Pool σ ε α κ) :
    (schedule.foldl advance x).jobs k = x.jobs k := by
  induction schedule generalizing x with
  | nil => rfl
  | cons l schedule ih =>
    have hne := List.ne_of_not_mem_cons h
    have hrest := List.not_mem_of_not_mem_cons h
    refine (ih hrest _).trans ?_
    unfold advance
    split
    · exact update_of_ne hne _ _
    · rfl

theorem steps_advance (hmeets : ∀ s t, rules.meets s t) (schedule : List κ)
    (x : Pool σ ε α κ) : Relation.ReflTransGen (Step rules) x (schedule.foldl advance x) := by
  induction schedule generalizing x with
  | nil => exact .refl
  | cons k schedule ih =>
    refine .trans ?_ (ih _)
    unfold advance
    split
    · exact .single (.run ‹_› (hmeets _ _))
    · exact .refl

theorem reachable_advance {s : σ} {x : Pool σ ε α κ} (h : Reachable rules s x)
    (hmeets : ∀ s t, rules.meets s t) (schedule : List κ) :
    Reachable rules s (schedule.foldl advance x) :=
  h.trans (steps_advance hmeets schedule x)

theorem holds_reachable (hv : Verified rules move idle inv) {s : σ}
    (hinit : inv (fun _ => idle) s) {x : Pool σ ε α κ} (h : Reachable rules s x) :
    ∃ phs, inv phs x.state ∧ ∀ k, Fits (move k) idle (x.jobs k) (phs k) := by
  induction h with
  | init => exact ⟨fun _ => idle, hinit, fun _ => rfl⟩
  | step _ hstep ih =>
    obtain ⟨phs, hinv, hfits⟩ := ih
    exact holds_step hv hinv hfits hstep

end Pool

end Lib
