import Mathlib.Data.Finset.Card
import Mathlib.Data.List.Nodup
import Mathlib.Logic.Function.Basic

/-! Caches of bounded size that drop what has not been used for longest. -/
namespace Lib
open Function

variable {κ ν : Type}

/-- Entries by their last use, the latest first. -/
structure Lru (κ ν : Type) (capacity : Nat) where
  entries : List (κ × ν)
  nodup : (entries.map Prod.fst).Nodup
  bounded : entries.length ≤ capacity

/-- The entry of a key comes first, and the key has no other. -/
def bringUp [DecidableEq κ] (k : κ) (v : ν) (entries : List (κ × ν)) : List (κ × ν) :=
  (k, v) :: entries.filter fun e => e.1 ≠ k

namespace Lru

variable [DecidableEq κ] {capacity : Nat} {k i : κ} {v x : ν} {entries : List (κ × ν)}

theorem nodup_bringUp (h : (entries.map Prod.fst).Nodup) (k : κ) (v : ν) :
    ((bringUp k v entries).map Prod.fst).Nodup := by
  have hsub := (List.filter_sublist (l := entries) (p := fun e => decide (e.1 ≠ k))).map Prod.fst
  refine List.nodup_cons.mpr ⟨fun hmem => ?_, h.sublist hsub⟩
  obtain ⟨e, he, rfl⟩ := List.mem_map.mp hmem
  exact of_decide_eq_true (List.mem_filter.mp he).2 rfl

theorem mem_bringUp : (i, x) ∈ bringUp k v entries ↔
    i = k ∧ x = v ∨ i ≠ k ∧ (i, x) ∈ entries := by
  simp [bringUp, and_comm]

def empty : Lru κ ν capacity := ⟨[], List.nodup_nil, Nat.zero_le _⟩

/-- Looking without using. -/
def lookup (l : Lru κ ν capacity) (k : κ) : Option ν :=
  (l.entries.find? fun e => e.1 = k).map Prod.snd

/-- A key that is new to a full cache takes the place of the one used least recently. -/
def put (l : Lru κ ν capacity) (k : κ) (v : ν) : Lru κ ν capacity where
  entries := (bringUp k v l.entries).take capacity
  nodup := (nodup_bringUp l.nodup k v).sublist ((List.take_sublist _ _).map Prod.fst)
  bounded := List.length_take_le _ _

/-- A key that is found is used by this. -/
def get (l : Lru κ ν capacity) (k : κ) : Option ν × Lru κ ν capacity :=
  match l.lookup k with
  | some v => (some v, l.put k v)
  | none => (none, l)

variable {l : Lru κ ν capacity}

omit [DecidableEq κ] in
theorem eq_of_mem (h : (entries.map Prod.fst).Nodup) (hv : (k, v) ∈ entries)
    (hx : (k, x) ∈ entries) : v = x := by
  have heq := List.inj_on_of_nodup_map h hv hx rfl
  exact congrArg Prod.snd heq

theorem lookup_eq_some : l.lookup k = some v ↔ (k, v) ∈ l.entries := by
  unfold lookup
  constructor
  · intro h
    obtain ⟨⟨k', v'⟩, hfind, rfl⟩ := Option.map_eq_some_iff.mp h
    have hkey : k' = k := by simpa using List.find?_some hfind
    subst hkey
    exact List.mem_of_find?_eq_some hfind
  · intro h
    cases hfind : l.entries.find? fun e => e.1 = k with
    | none =>
      have hne := List.find?_eq_none.mp hfind (k, v) h
      simp at hne
    | some e =>
      obtain ⟨k', v'⟩ := e
      have hkey : k' = k := by simpa using List.find?_some hfind
      subst hkey
      exact congrArg some (eq_of_mem l.nodup (List.mem_of_find?_eq_some hfind) h)

/-- What one cache holds for a key decides what it finds. -/
theorem lookup_congr {o : Option ν} (h : ∀ x, (i, x) ∈ l.entries ↔ o = some x) :
    l.lookup i = o := by
  refine Option.ext fun x => ?_
  rw [lookup_eq_some]
  exact h x

theorem mem_bringUp_iff (l : Lru κ ν capacity) : (i, x) ∈ bringUp k v l.entries ↔
    update l.lookup k (some v) i = some x := by
  rw [mem_bringUp]
  by_cases hi : i = k
  · subst hi
    simp [eq_comm]
  · simp [hi, lookup_eq_some]

/-- Where there is room, `put` is an update. -/
theorem lookup_put_room (h : (bringUp k v l.entries).length ≤ capacity) :
    (l.put k v).lookup = update l.lookup k (some v) := by
  funext i
  refine lookup_congr fun x => ?_
  change (i, x) ∈ (bringUp k v l.entries).take capacity ↔ _
  rw [List.take_of_length_le h, mem_bringUp_iff]

/-- Where there is none, the last entry goes. -/
theorem lookup_put_full (h : capacity < (bringUp k v l.entries).length) :
    ∃ i, (l.put k v).lookup = update (update l.lookup k (some v)) i none := by
  have hlength : (bringUp k v l.entries).length ≤ capacity + 1 :=
    Nat.succ_le_succ ((List.length_filter_le _ _).trans l.bounded)
  obtain ⟨kept, ⟨i, y⟩, hsplit⟩ : ∃ kept last, bringUp k v l.entries = kept ++ [last] :=
    ⟨_, _, (List.dropLast_append_getLast (List.cons_ne_nil _ _)).symm⟩
  have hkept : kept.length = capacity := by
    rw [hsplit, List.length_append, List.length_singleton] at hlength h
    omega
  have hentries : (l.put k v).entries = kept := by
    change (bringUp k v l.entries).take capacity = kept
    rw [hsplit, ← hkept, List.take_left]
  have hnodup := nodup_bringUp l.nodup k v
  rw [hsplit, List.map_append, List.nodup_append] at hnodup
  refine ⟨i, funext fun j => lookup_congr fun x => ?_⟩
  rw [hentries]
  by_cases hj : j = i
  · subst hj
    rw [update_self]
    refine ⟨fun hmem => ?_, nofun⟩
    exact absurd rfl (hnodup.2.2 j (List.mem_map_of_mem hmem) j (List.mem_singleton.mpr rfl))
  · rw [update_of_ne hj, ← mem_bringUp_iff, hsplit, List.mem_append, List.mem_singleton]
    constructor
    · exact Or.inl
    · rintro (hmem | heq)
      · exact hmem
      · exact absurd (congrArg Prod.fst heq) hj

/-- After `put`, the cache finds what a cache without bounds would find, or all of it but one. -/
theorem lookup_put (l : Lru κ ν capacity) (k : κ) (v : ν) :
    (l.put k v).lookup = update l.lookup k (some v) ∨
      ∃ i, (l.put k v).lookup = update (update l.lookup k (some v)) i none := by
  rcases Nat.lt_or_ge capacity (bringUp k v l.entries).length with hfull | hroom
  · exact Or.inr (lookup_put_full hfull)
  · exact Or.inl (lookup_put_room hroom)

theorem update_lookup (h : l.lookup k = some v) : update l.lookup k (some v) = l.lookup := by
  rw [← h, update_eq_self]

/-- A key that is found pushes nothing out. -/
theorem length_bringUp_found (h : l.lookup k = some v) (x : ν) :
    (bringUp k x l.entries).length ≤ capacity := by
  have hlt : (l.entries.filter fun e => e.1 ≠ k).length < l.entries.length := by
    refine List.length_filter_lt_length_iff_exists.mpr ⟨(k, v), lookup_eq_some.mp h, ?_⟩
    simp
  exact Nat.lt_of_lt_of_le hlt l.bounded

theorem get_some (h : l.lookup k = some v) : l.get k = (some v, l.put k v) := by
  unfold get
  rw [h]

theorem get_none (h : l.lookup k = none) : l.get k = (none, l) := by
  unfold get
  rw [h]

theorem lookup_get (k : κ) : (l.get k).2.lookup = l.lookup := by
  cases h : l.lookup k with
  | none => rw [get_none h]
  | some v =>
    rw [get_some h, lookup_put_room (length_bringUp_found h v)]
    exact update_lookup h

end Lru

end Lib
