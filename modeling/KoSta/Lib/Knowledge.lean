import Mathlib.Data.Set.Insert
import KoSta.Lib.System

/-! Programs that learn what stays true, whatever the programs beside them do. -/
namespace Lib
open Prog Function

variable {σ ε α β κ ι γ : Type}

/-! ### What a program has learnt -/

namespace Prog

variable {move : Set ι → σ → σ → Set ι → Prop} {Q : α → Set ι → Prop} {known : Set ι}

/-- From these facts on every section is a move, no fact is given up before the end, and a value the
program ends in has the postcondition. -/
def Learns (move : Set ι → σ → σ → Set ι → Prop) (Q : α → Set ι → Prop) (p : Prog σ ε α)
    (known : Set ι) : Prop :=
  p.Obeys move (fun r known' => known ⊆ known' ∧ ∀ a, r = .ok a → Q a known') known

namespace Learns

variable {p : Prog σ ε α} {k : α → Prog σ ε β} {Q' : β → Set ι → Prop}

theorem pure {a : α} (h : Q a known) : (pure a : Prog σ ε α).Learns move Q known := by
  refine ⟨subset_rfl, fun b hb => ?_⟩
  cases hb
  exact h

theorem fail (e : ε) : (fail e : Prog σ ε α).Learns move Q known := ⟨subset_rfl, nofun⟩

theorem atomically {f : σ → α × σ}
    (h : ∀ s, ∃ known', move known s (f s).2 known' ∧ known ⊆ known' ∧ Q (f s).1 known') :
    (Prog.atomically f : Prog σ ε α).Learns move Q known := by
  intro s
  obtain ⟨known', hmove, hsub, hvalue⟩ := h s
  refine ⟨known', hmove, hsub, fun a ha => ?_⟩
  cases ha
  exact hvalue

theorem bind (hp : p.Learns move Q known)
    (hk : ∀ a known', known ⊆ known' → Q a known' → (k a).Learns move Q' known') :
    (p >>= k).Learns move Q' known := by
  refine Obeys.bind (Obeys.mono hp ?_)
  rintro (e | a) known' ⟨hsub, hvalue⟩
  · exact ⟨hsub, nofun⟩
  · refine Obeys.mono (hk a known' hsub (hvalue a rfl)) fun r known'' h => ?_
    exact ⟨hsub.trans h.1, h.2⟩

theorem ite {c : Prop} [Decidable c] {q : Prog σ ε α} (hp : p.Learns move Q known)
    (hq : q.Learns move Q known) : (if c then p else q).Learns move Q known := by
  split
  · exact hp
  · exact hq

/-- Nothing has to be learnt where every section may be made with what is known. -/
theorem of_always {R : σ → σ → Prop} (hp : p.Always R)
    (hmove : ∀ {s t}, R s t → move known s t known) :
    p.Learns move (fun _ _ => True) known := by
  induction p with
  | done a => exact pure trivial
  | fail e => exact fail e
  | atomic act next ih => exact fun s => ⟨known, hmove (hp s).1, ih s (hp s).2⟩

end Learns

end Prog

/-! ### Facts that stay true -/

/-- A ghost value `g` goes along with the state. A move that is made on true facts keeps the
invariant, leads to true facts and makes no fact of anybody else's false. -/
structure Enduring (rules : PoolRules σ ε α κ) (move : Set ι → σ → σ → Set ι → Prop)
    (inv : γ → σ → Prop) (fact : γ → σ → ι → Prop) : Prop where
  starts : ∀ {k p}, rules.starts k p → p.Obeys move (fun _ known => known = ∅) ∅
  move : ∀ {g s t known known'}, inv g s → (∀ f ∈ known, fact g s f) → move known s t known' →
    ∃ g', inv g' t ∧ (∀ f, fact g s f → fact g' t f) ∧ ∀ f ∈ known', fact g' t f
  env : ∀ {g s t}, inv g s → rules.env s t → inv g t ∧ ∀ f, fact g s f → fact g t f
  crash : ∀ {g s t}, inv g s → rules.crash s t → inv g t

namespace Enduring

variable [DecidableEq κ] {rules : PoolRules σ ε α κ} {move : Set ι → σ → σ → Set ι → Prop}
  {inv : γ → σ → Prop} {fact : γ → σ → ι → Prop}

/-- The invariant holds, and what each slot has learnt is true. -/
def Informed (inv : γ → σ → Prop) (fact : γ → σ → ι → Prop) (known : κ → Set ι) (s : σ) : Prop :=
  ∃ g, inv g s ∧ ∀ k, ∀ f ∈ known k, fact g s f

theorem verified (h : Enduring rules move inv fact) :
    Pool.Verified rules (fun _ => move) ∅ (Informed inv fact) where
  starts := h.starts
  move := by
    rintro known s k t known' ⟨g, hinv, htrue⟩ hmove -
    obtain ⟨g', hinv', hstays, hnew⟩ := h.move hinv (htrue k) hmove
    refine ⟨g', hinv', fun k' => ?_⟩
    by_cases hk : k' = k
    · subst hk
      rwa [update_self]
    · rw [update_of_ne hk]
      exact fun f hf => hstays f (htrue k' f hf)
  env := by
    rintro known s t ⟨g, hinv, htrue⟩ henv
    obtain ⟨hinv', hstays⟩ := h.env hinv henv
    exact ⟨g, hinv', fun k f hf => hstays f (htrue k f hf)⟩
  crash := by
    rintro known s t ⟨g, hinv, -⟩ hcrash
    exact ⟨g, h.crash hinv hcrash, fun _ => nofun⟩

/-- The invariant holds in every state that any interleaving reaches. -/
theorem reachable (h : Enduring rules move inv fact) {g : γ} {s : σ} (hinv : inv g s)
    {x : Pool σ ε α κ} (hx : Pool.Reachable rules s x) : ∃ g', inv g' x.state := by
  have hinit : Informed inv fact (fun _ : κ => ∅) s := ⟨g, hinv, fun _ => nofun⟩
  obtain ⟨_, ⟨g', hinv', -⟩, -⟩ := Pool.holds_reachable h.verified hinit hx
  exact ⟨g', hinv'⟩

end Enduring

end Lib
