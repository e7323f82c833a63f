import Mathlib.Logic.Function.Basic
import Mathlib.Tactic.Common

/-! Slots that users hold, and one cell for each user in which every slot writes on its own. -/
namespace Lib
open Function

/-- Who holds each slot, and what the cell of each user has. -/
@[ext] structure Board (α υ ν : Type) where
  holder : α → Option υ
  cell : υ → Option ν

namespace Board

variable {α υ ν : Type} {up down : ν} {b : Board α υ ν} {a : α} {u : υ} {known : υ → Prop}

/-- The cell of a user tells whether the user holds some slot. -/
def Tells (up down : ν) (b : Board α υ ν) (u : υ) : Prop :=
  ((∃ a, b.holder a = some u) → b.cell u = some up) ∧
    ((∀ a, b.holder a ≠ some u) → b.cell u = some down)

def Right (up down : ν) (b : Board α υ ν) (known : υ → Prop) : Prop :=
  ∀ u, known u → b.Tells up down u

/-- Whoever is on the board has `P`. -/
structure Within (P : υ → Prop) (b : Board α υ ν) : Prop where
  cells : ∀ u, b.cell u ≠ none → P u
  holders : ∀ a u, b.holder a = some u → P u

theorem Within.mono {P Q : υ → Prop} (h : b.Within P) (hPQ : ∀ u, P u → Q u) : b.Within Q :=
  ⟨fun u hu => hPQ u (h.cells u hu), fun a u hu => hPQ u (h.holders a u hu)⟩

/-- Whoever holds a slot besides this one. -/
theorem holder_cases (v : υ) : (∃ a', b.holder a' = some v) ↔
    b.holder a = some v ∨ ∃ a' ≠ a, b.holder a' = some v := by
  constructor
  · rintro ⟨a', ha'⟩
    by_cases hne : a' = a
    · exact .inl (hne ▸ ha')
    · exact .inr ⟨a', hne, ha'⟩
  · rintro (ha | ⟨a', -, ha'⟩)
    · exact ⟨a, ha⟩
    · exact ⟨a', ha'⟩

theorem tells_of_held (h : ∃ a, b.holder a = some u) :
    b.Tells up down u ↔ b.cell u = some up := by
  constructor
  · exact fun ht => ht.1 h
  · intro hcell
    refine ⟨fun _ => hcell, fun hnone => ?_⟩
    obtain ⟨a, ha⟩ := h
    exact (hnone a ha).elim

theorem tells_of_free (h : ∀ a, b.holder a ≠ some u) :
    b.Tells up down u ↔ b.cell u = some down := by
  constructor
  · exact fun ht => ht.2 h
  · intro hcell
    refine ⟨fun ⟨a, ha⟩ => (h a ha).elim, fun _ => hcell⟩

/-- What a slot does that is not about a user leaves the user's cell right just when the user
holds a slot as before. -/
theorem tells_moved (hne : up ≠ down) {b' : Board α υ ν} {v : υ} (ht : b.Tells up down v)
    (hcell : b'.cell v = b.cell v) :
    b'.Tells up down v ↔ ((∃ a, b.holder a = some v) ↔ ∃ a, b'.holder a = some v) := by
  by_cases hheld : ∃ a, b.holder a = some v
  · rw [iff_true_left hheld]
    by_cases hheld' : ∃ a, b'.holder a = some v
    · rw [tells_of_held hheld', hcell]
      exact iff_of_true (ht.1 hheld) hheld'
    · have hfree := not_exists.mp hheld'
      rw [tells_of_free hfree, hcell, ht.1 hheld]
      exact iff_of_false (fun h => hne (Option.some.inj h)) hheld'
  · rw [iff_false_left hheld]
    by_cases hheld' : ∃ a, b'.holder a = some v
    · rw [tells_of_held hheld', hcell, ht.2 (not_exists.mp hheld)]
      exact iff_of_false (fun h => hne (Option.some.inj h).symm) (not_not.mpr hheld')
    · rw [tells_of_free (not_exists.mp hheld'), hcell]
      exact iff_of_true (ht.2 (not_exists.mp hheld)) hheld'

section Moves

variable [DecidableEq α]

theorem holder_update_of_ne {v : υ} {new : Option υ} (hv : new ≠ some v) :
    (∃ a', update b.holder a new a' = some v) ↔ ∃ a' ≠ a, b.holder a' = some v := by
  constructor
  · rintro ⟨a', ha'⟩
    have hne : a' ≠ a := by
      rintro rfl
      rw [update_self] at ha'
      exact hv ha'
    rw [update_of_ne hne] at ha'
    exact ⟨a', hne, ha'⟩
  · rintro ⟨a', hne, ha'⟩
    exact ⟨a', by rw [update_of_ne hne, ha']⟩

variable [DecidableEq υ]

/-- A slot comes to be held by a user, whoever held it before. -/
def enter (up : ν) (b : Board α υ ν) (a : α) (u : υ) : Board α υ ν where
  holder := update b.holder a (some u)
  cell := update b.cell u (some up)

/-- A slot is given up; whoever held it is written off. -/
def leave (down : ν) (b : Board α υ ν) (a : α) : Board α υ ν where
  holder := update b.holder a none
  cell := (b.holder a).elim b.cell fun u => update b.cell u (some down)

@[simp] theorem enter_holder : (b.enter up a u).holder = update b.holder a (some u) := rfl

@[simp] theorem enter_cell : (b.enter up a u).cell = update b.cell u (some up) := rfl

@[simp] theorem leave_holder : (b.leave down a).holder = update b.holder a none := rfl

theorem leave_cell_of_some (h : b.holder a = some u) :
    (b.leave down a).cell = update b.cell u (some down) := by
  unfold leave
  rw [h]
  rfl

theorem leave_cell_of_none (h : b.holder a = none) : (b.leave down a).cell = b.cell := by
  unfold leave
  rw [h]
  rfl

theorem Within.enter {P : υ → Prop} (h : b.Within P) (hu : P u) : (b.enter up a u).Within P where
  cells v hv := by
    by_cases hvu : v = u
    · rwa [hvu]
    · refine h.cells v ?_
      rwa [enter_cell, update_of_ne hvu] at hv
  holders a' v hv := by
    by_cases ha : a' = a
    · rw [enter_holder, ha, update_self] at hv
      exact Option.some.inj hv ▸ hu
    · refine h.holders a' v ?_
      rwa [enter_holder, update_of_ne ha] at hv

theorem Within.leave {P : υ → Prop} (h : b.Within P) : (b.leave down a).Within P where
  cells v hv := by
    cases hw : b.holder a with
    | none =>
      rw [leave_cell_of_none hw] at hv
      exact h.cells v hv
    | some w =>
      by_cases hvw : v = w
      · exact hvw ▸ h.holders a w hw
      · rw [leave_cell_of_some hw, update_of_ne hvw] at hv
        exact h.cells v hv
  holders a' v hv := by
    by_cases ha : a' = a
    · rw [leave_holder, ha, update_self] at hv
      cases hv
    · refine h.holders a' v ?_
      rwa [leave_holder, update_of_ne ha] at hv

theorem tells_enter_self : (b.enter up a u).Tells up down u :=
  (tells_of_held ⟨a, update_self ..⟩).mpr (update_self ..)

/-- Entering leaves the board right just when the holder before, if another, holds a slot still. -/
theorem right_enter_iff (hne : up ≠ down) (h : b.Right up down known)
    (hknown : ∀ a v, b.holder a = some v → known v) :
    (b.enter up a u).Right up down (fun v => v = u ∨ known v) ↔
      ∀ v, b.holder a = some v → v ≠ u → ∃ a' ≠ a, b.holder a' = some v := by
  have hmoved {v : υ} (hv : v ≠ u) (hk : known v) : (b.enter up a u).Tells up down v ↔
      ((∃ a', b.holder a' = some v) ↔ ∃ a' ≠ a, b.holder a' = some v) := by
    rw [tells_moved hne (h v hk) (update_of_ne hv _ _)]
    refine iff_congr Iff.rfl (holder_update_of_ne fun hu => hv (Option.some.inj hu).symm)
  constructor
  · intro hright v hv hvu
    have hk := hknown a v hv
    exact ((hmoved hvu hk).mp (hright v (.inr hk))).mp ⟨a, hv⟩
  · rintro hothers v hv
    by_cases hvu : v = u
    · rw [hvu]
      exact tells_enter_self
    · have hk := hv.resolve_left hvu
      refine (hmoved hvu hk).mpr ⟨fun hheld => ?_, fun ⟨a', _, ha'⟩ => ⟨a', ha'⟩⟩
      rcases (holder_cases v).mp hheld with ha | hother
      · exact hothers v ha hvu
      · exact hother

/-- Leaving leaves the board right just when the holder holds no other slot. -/
theorem right_leave_iff (hne : up ≠ down) (h : b.Right up down known)
    (hknown : ∀ a v, b.holder a = some v → known v) :
    (b.leave down a).Right up down known ↔
      ∀ v, b.holder a = some v → ∀ a' ≠ a, b.holder a' ≠ some v := by
  have hheld (v : υ) : (∃ a', (b.leave down a).holder a' = some v) ↔
      ∃ a' ≠ a, b.holder a' = some v := holder_update_of_ne nofun
  constructor
  · intro hright v hv a' hne' ha'
    have htold := (hright v (hknown a v hv)).1 ((hheld v).mpr ⟨a', hne', ha'⟩)
    rw [leave_cell_of_some hv] at htold
    exact hne (Option.some.inj ((update_self v _ _).symm.trans htold)).symm
  · intro halone v hk
    by_cases hv : b.holder a = some v
    · refine (tells_of_free (not_exists.mp fun hsome => ?_)).mpr ?_
      · obtain ⟨a', hne', ha'⟩ := (hheld v).mp hsome
        exact halone v hv a' hne' ha'
      · rw [leave_cell_of_some hv, update_self]
    · have hcell : (b.leave down a).cell v = b.cell v := by
        cases hold : b.holder a with
        | none => rw [leave_cell_of_none hold]
        | some w =>
          rw [leave_cell_of_some hold]
          refine update_of_ne ?_ _ _
          rintro rfl
          exact hv hold
      rw [tells_moved hne (h v hk) hcell, hheld v, holder_cases (a := a) v]
      exact or_iff_right hv

end Moves

end Board

end Lib
