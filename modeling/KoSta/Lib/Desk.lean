import Mathlib.Data.List.Perm.Basic
import Mathlib.Data.Set.Insert

/-! Requests that are judged by what they have seen, and an order in which they could have come one
at a time. -/
namespace Lib

variable {τ γ ν σ : Type}

/-- On a value a request is declined (`none`), or it leaves its note and is refused or granted. Once
a note has been left, whoever leaves it again is refused. -/
structure Desk (τ γ ν : Type) where
  judge : τ → γ → Option Bool
  note : τ → ν
  grant : τ → γ → γ
  sound : γ → Prop
  /-- After a grant the same note cannot be left any more. -/
  closes : ∀ {s t g}, sound g → judge t g = some true → sound (grant t g) → note s = note t →
    judge s (grant t g) = none

/-- A request in its place, with those behind it that have come with its note. -/
inductive Entry (τ : Type) where
  | declined (t : τ)
  | refused (t : τ) (again : List τ)
  | granted (t : τ) (again : List τ)

def Entry.requests : Entry τ → List τ
  | .declined t => [t]
  | .refused t again => t :: again
  | .granted t again => t :: again

namespace Desk

variable (d : Desk τ γ ν)

def note? : Entry τ → Option ν
  | .declined _ => none
  | .refused t _ => some (d.note t)
  | .granted t _ => some (d.note t)

def requests (book : List (Entry τ)) : List τ := book.flatMap Entry.requests

def notes (book : List (Entry τ)) : List ν := book.filterMap d.note?

/-- Served in this order, the requests turn one value into the other. -/
inductive Leads : γ → List (Entry τ) → γ → Prop where
  | nil {g} : Leads g [] g
  | declined {g g' t book} : d.judge t g = none → Leads g book g' →
    Leads g (.declined t :: book) g'
  | refused {g g' t again book} : d.judge t g = some false → (∀ s ∈ again, d.note s = d.note t) →
    Leads g book g' → Leads g (.refused t again :: book) g'
  | granted {g g' t again book} : d.judge t g = some true → d.sound (d.grant t g) →
    (∀ s ∈ again, d.note s = d.note t) → Leads (d.grant t g) book g' →
    Leads g (.granted t again :: book) g'

/-- The values on the way. -/
def values : γ → List (Entry τ) → List γ
  | g, [] => [g]
  | g, .granted t _ :: book => g :: values (d.grant t g) book
  | g, _ :: book => values g book

variable {d} {g g' m : γ} {t : τ} {book : List (Entry τ)}

theorem sound_values (h : d.Leads g book g') (hg : d.sound g) :
    ∀ m ∈ d.values g book, d.sound m := by
  induction h with
  | nil =>
    intro m hm
    rw [List.mem_singleton.mp hm]
    exact hg
  | declined _ _ ih => exact ih hg
  | refused _ _ _ ih => exact ih hg
  | granted _ hsound _ _ ih =>
    intro m hm
    rcases List.mem_cons.mp hm with rfl | hm
    · exact hg
    · exact ih hsound m hm

/-! ### New entries -/

/-- Wherever this value is reached the entry may stand. -/
def Still (d : Desk τ γ ν) (m : γ) (e : Entry τ) : Prop :=
  ∀ book g', d.Leads m book g' →
    d.Leads m (e :: book) g' ∧ d.values m (e :: book) = d.values m book

theorem still_declined (h : d.judge t m = none) : d.Still m (.declined t) :=
  fun _ _ hbook => ⟨.declined h hbook, rfl⟩

theorem still_refused (h : d.judge t m = some false) : d.Still m (.refused t []) :=
  fun _ _ hbook => ⟨.refused h nofun hbook, rfl⟩

theorem Leads.insert (h : d.Leads g book g') (hm : m ∈ d.values g book) {e : Entry τ}
    (he : d.Still m e) : ∃ l l', book = l ++ l' ∧ d.Leads g (l ++ e :: l') g' ∧
      d.values g (l ++ e :: l') = d.values g book := by
  induction h with
  | nil =>
    obtain rfl := List.mem_singleton.mp hm
    obtain ⟨hleads, hvalues⟩ := he [] m .nil
    exact ⟨[], [], rfl, hleads, hvalues⟩
  | declined hjudge _ ih =>
    obtain ⟨l, l', rfl, hleads, hvalues⟩ := ih hm
    exact ⟨_ :: l, l', rfl, .declined hjudge hleads, hvalues⟩
  | refused hjudge hagain _ ih =>
    obtain ⟨l, l', rfl, hleads, hvalues⟩ := ih hm
    exact ⟨_ :: l, l', rfl, .refused hjudge hagain hleads, hvalues⟩
  | @granted g g' t again book hjudge hsound hagain hrest ih =>
    rcases List.mem_cons.mp hm with rfl | hm
    · obtain ⟨hleads, hvalues⟩ := he _ _ (.granted hjudge hsound hagain hrest)
      exact ⟨[], _, rfl, hleads, hvalues⟩
    · obtain ⟨l, l', rfl, hleads, hvalues⟩ := ih hm
      exact ⟨_ :: l, l', rfl, .granted hjudge hsound hagain hleads, congrArg (g :: ·) hvalues⟩

theorem Leads.append_granted (h : d.Leads g book g') (hjudge : d.judge t g' = some true)
    (hsound : d.sound (d.grant t g')) :
    d.Leads g (book ++ [.granted t []]) (d.grant t g') ∧
      ∀ m, m ∈ d.values g (book ++ [.granted t []]) ↔ m = d.grant t g' ∨ m ∈ d.values g book := by
  induction h with
  | nil =>
    refine ⟨.granted hjudge hsound nofun .nil, fun m => ?_⟩
    change m ∈ [_, _] ↔ _ ∨ m ∈ [_]
    rw [List.mem_pair, List.mem_singleton, or_comm]
  | declined hdeclined _ ih =>
    obtain ⟨hleads, hvalues⟩ := ih hjudge hsound
    exact ⟨.declined hdeclined hleads, hvalues⟩
  | refused hrefused hagain _ ih =>
    obtain ⟨hleads, hvalues⟩ := ih hjudge hsound
    exact ⟨.refused hrefused hagain hleads, hvalues⟩
  | granted hgranted hfirst hagain _ ih =>
    obtain ⟨hleads, hvalues⟩ := ih hjudge hsound
    refine ⟨.granted hgranted hfirst hagain hleads, fun m => ?_⟩
    exact List.mem_cons.trans (((or_congr_right (hvalues m)).trans or_left_comm).trans
      (or_congr_right List.mem_cons.symm))

/-- A request that comes with a note again is put behind the one that has left it. -/
theorem Leads.again (h : d.Leads g book g') {s : τ} (hs : d.note s ∈ d.notes book) :
    ∃ book', d.Leads g book' g' ∧ d.values g book' = d.values g book ∧
      d.notes book' = d.notes book ∧ (requests book').Perm (s :: requests book) := by
  induction h with
  | nil => cases hs
  | declined hjudge _ ih =>
    obtain ⟨book', hleads, hvalues, hnotes, hperm⟩ := ih hs
    exact ⟨_ :: book', .declined hjudge hleads, hvalues, hnotes,
      (hperm.cons _).trans (.swap _ _ _)⟩
  | @refused g g' t again book hjudge hagain hrest ih =>
    rcases List.mem_cons.mp hs with hnote | hs
    · refine ⟨.refused t (s :: again) :: book, .refused hjudge ?_ hrest, rfl, rfl, .swap _ _ _⟩
      exact List.forall_mem_cons.mpr ⟨hnote, hagain⟩
    · obtain ⟨book', hleads, hvalues, hnotes, hperm⟩ := ih hs
      refine ⟨_ :: book', .refused hjudge hagain hleads, hvalues,
        congrArg (d.note t :: ·) hnotes, ?_⟩
      exact (hperm.append_left (t :: again)).trans List.perm_middle
  | @granted g g' t again book hjudge hsound hagain hrest ih =>
    rcases List.mem_cons.mp hs with hnote | hs
    · refine ⟨.granted t (s :: again) :: book, .granted hjudge hsound ?_ hrest,
        rfl, rfl, .swap _ _ _⟩
      exact List.forall_mem_cons.mpr ⟨hnote, hagain⟩
    · obtain ⟨book', hleads, hvalues, hnotes, hperm⟩ := ih hs
      refine ⟨_ :: book', .granted hjudge hsound hagain hleads, congrArg (g :: ·) hvalues,
        congrArg (d.note t :: ·) hnotes, ?_⟩
      exact (hperm.append_left (t :: again)).trans List.perm_middle

theorem requests_insert (l l' : List (Entry τ)) (e : Entry τ) :
    (requests (l ++ e :: l')).Perm (e.requests ++ requests (l ++ l')) := by
  unfold requests
  rw [List.flatMap_append, List.flatMap_cons, List.flatMap_append]
  exact List.perm_append_comm_assoc _ _ _

theorem notes_insert (l l' : List (Entry τ)) (e : Entry τ) :
    (d.notes (l ++ e :: l')).Perm ((d.note? e).toList ++ d.notes (l ++ l')) := by
  unfold notes
  rw [List.filterMap_append, List.filterMap_append]
  cases h : d.note? e with
  | none =>
    rw [List.filterMap_cons_none h]
    exact .refl _
  | some n =>
    rw [List.filterMap_cons_some h]
    exact List.perm_middle

/-! ### Requests in an order -/

/-- There is an order in which the requests served so far lead from one value to the other. In it
the value has been all that is `seen`, and the notes `left` have been there or been left. -/
structure InOrder (d : Desk τ γ ν) (g₀ : γ) (n₀ : List ν) (first : List τ) (book : List (Entry τ))
    (served : List τ) (g : γ) (seen : Set γ) (left : Set ν) : Prop where
  leads : d.Leads g₀ book g
  served : served.Perm (first ++ requests book)
  first : ∀ t ∈ first, d.note t ∈ n₀
  nodup : (d.notes book).Nodup
  apart : ∀ n ∈ d.notes book, n ∉ n₀
  seen : ∀ m, m ∈ seen ↔ m ∈ d.values g₀ book
  left : ∀ n, n ∈ left ↔ n ∈ n₀ ∨ n ∈ d.notes book

def Ordered (d : Desk τ γ ν) (g₀ : γ) (n₀ : List ν) (served : List τ) (g : γ) (seen : Set γ)
    (left : Set ν) : Prop :=
  ∃ first book, d.InOrder g₀ n₀ first book served g seen left

namespace Ordered

variable {g₀ : γ} {n₀ : List ν} {served : List τ} {seen : Set γ} {left : Set ν}

theorem init (d : Desk τ γ ν) (g₀ : γ) (n₀ : List ν) :
    d.Ordered g₀ n₀ [] g₀ {g₀} {n | n ∈ n₀} := by
  refine ⟨[], [],
    { leads := .nil, served := .refl _, first := nofun, nodup := .nil, apart := nofun
      seen := fun m => List.mem_singleton.symm, left := fun n => ?_ }⟩
  exact (or_iff_left List.not_mem_nil).symm

theorem sound (h : d.Ordered g₀ n₀ served g seen left) (hg : d.sound g₀) (hm : m ∈ seen) :
    d.sound m := by
  obtain ⟨_, _, h⟩ := h
  exact sound_values h.leads hg m ((h.seen m).mp hm)

theorem decline (h : d.Ordered g₀ n₀ served g seen left) (hm : m ∈ seen)
    (hjudge : d.judge t m = none) : d.Ordered g₀ n₀ (t :: served) g seen left := by
  obtain ⟨first, book, h⟩ := h
  obtain ⟨l, l', rfl, hleads, hvalues⟩ := h.leads.insert ((h.seen m).mp hm) (still_declined hjudge)
  have hnotes := notes_insert (d := d) l l' (.declined t)
  refine ⟨first, _,
    { leads := hleads, served := ?_, first := h.first, nodup := hnotes.nodup_iff.mpr h.nodup
      apart := fun n hn => h.apart n (hnotes.mem_iff.mp hn)
      seen := fun m => by rw [hvalues, h.seen]
      left := fun n => by rw [h.left, hnotes.mem_iff]; rfl }⟩
  refine (h.served.cons t).trans (List.perm_middle.symm.trans ?_)
  exact ((requests_insert l l' (.declined t)).symm).append_left first

/-- Who comes with a note that has been left is refused, or declined, behind the one that has left
it. -/
theorem again (h : d.Ordered g₀ n₀ served g seen left) (hleft : d.note t ∈ left) :
    d.Ordered g₀ n₀ (t :: served) g seen left := by
  obtain ⟨first, book, h⟩ := h
  rcases (h.left _).mp hleft with hn | hn
  · exact ⟨t :: first, book, { h with
      served := h.served.cons t
      first := List.forall_mem_cons.mpr ⟨hn, h.first⟩ }⟩
  · obtain ⟨book', hleads, hvalues, hnotes, hperm⟩ := h.leads.again hn
    refine ⟨first, book',
      { leads := hleads, served := ?_, first := h.first, nodup := hnotes ▸ h.nodup
        apart := hnotes ▸ h.apart, seen := hvalues ▸ h.seen, left := hnotes ▸ h.left }⟩
    exact (h.served.cons t).trans (List.perm_middle.symm.trans (hperm.symm.append_left first))

theorem refuse (h : d.Ordered g₀ n₀ served g seen left) (hm : m ∈ seen)
    (hjudge : d.judge t m = some false) (hnew : d.note t ∉ left) :
    d.Ordered g₀ n₀ (t :: served) g seen (insert (d.note t) left) := by
  obtain ⟨first, book, h⟩ := h
  obtain ⟨l, l', rfl, hleads, hvalues⟩ := h.leads.insert ((h.seen m).mp hm) (still_refused hjudge)
  have hnotes : (d.notes (l ++ .refused t [] :: l')).Perm (d.note t :: d.notes (l ++ l')) :=
    notes_insert l l' _
  rw [h.left, not_or] at hnew
  refine ⟨first, _,
    { leads := hleads, served := ?_, first := h.first
      nodup := hnotes.nodup_iff.mpr (List.nodup_cons.mpr ⟨hnew.2, h.nodup⟩)
      apart := fun n hn => ?_
      seen := fun m => by rw [hvalues, h.seen]
      left := fun n => ?_ }⟩
  · refine (h.served.cons t).trans (List.perm_middle.symm.trans ?_)
    exact ((requests_insert l l' (.refused t [])).symm).append_left first
  · rcases List.mem_cons.mp (hnotes.mem_iff.mp hn) with rfl | hn
    · exact hnew.1
    · exact h.apart n hn
  · rw [Set.mem_insert_iff, h.left, hnotes.mem_iff, List.mem_cons, or_left_comm]

theorem grant (h : d.Ordered g₀ n₀ served g seen left) (hjudge : d.judge t g = some true)
    (hsound : d.sound (d.grant t g)) (hnew : d.note t ∉ left) :
    d.Ordered g₀ n₀ (t :: served) (d.grant t g) (insert (d.grant t g) seen)
      (insert (d.note t) left) := by
  obtain ⟨first, book, h⟩ := h
  obtain ⟨hleads, hvalues⟩ := h.leads.append_granted hjudge hsound
  have hnotes := notes_insert (d := d) book [] (.granted t [])
  rw [List.append_nil] at hnotes
  have hnotes : (d.notes (book ++ [.granted t []])).Perm (d.note t :: d.notes book) := hnotes
  rw [h.left, not_or] at hnew
  refine ⟨first, _,
    { leads := hleads, served := ?_, first := h.first
      nodup := hnotes.nodup_iff.mpr (List.nodup_cons.mpr ⟨hnew.2, h.nodup⟩)
      apart := fun n hn => ?_
      seen := fun m => by rw [Set.mem_insert_iff, hvalues, h.seen]
      left := fun n => ?_ }⟩
  · have hrequests := requests_insert book [] (.granted t [])
    rw [List.append_nil] at hrequests
    refine (h.served.cons t).trans (List.perm_middle.symm.trans ?_)
    exact hrequests.symm.append_left first
  · rcases List.mem_cons.mp (hnotes.mem_iff.mp hn) with rfl | hn
    · exact hnew.1
    · exact h.apart n hn
  · rw [Set.mem_insert_iff, h.left, hnotes.mem_iff, List.mem_cons, or_left_comm]

end Ordered

/-! ### One at a time -/

/-- A system serves the requests one at a time. `rel` says which value and which notes it has,
`rel'` the same of a system that has served a request. -/
structure Serves (d : Desk τ γ ν) (serve : τ → σ → σ)
    (rel rel' : γ → List ν → σ → Prop) : Prop where
  weaken : ∀ {g r s}, rel' g r s → rel g r s
  declined : ∀ {g r s t}, d.sound g → rel g r s → d.judge t g = none → rel' g r (serve t s)
  again : ∀ {g r s t ok}, d.sound g → rel g r s → d.judge t g = some ok → d.note t ∈ r →
    rel' g r (serve t s)
  refused : ∀ {g r s t}, d.sound g → rel g r s → d.judge t g = some false → d.note t ∉ r →
    ∃ r', rel' g r' (serve t s) ∧ d.note t ∈ r' ∧ ∀ n ∈ r', n = d.note t ∨ n ∈ r
  granted : ∀ {g r s t}, d.sound g → rel g r s → d.judge t g = some true → d.note t ∉ r →
    d.sound (d.grant t g) →
    ∃ r', rel' (d.grant t g) r' (serve t s) ∧ ∀ n ∈ r', n = d.note t ∨ n ∈ r

def serveAll (serve : τ → σ → σ) : List τ → σ → σ
  | [], s => s
  | t :: ts, s => serveAll serve ts (serve t s)

theorem serveAll_append (serve : τ → σ → σ) (ts ts' : List τ) (s : σ) :
    serveAll serve (ts ++ ts') s = serveAll serve ts' (serveAll serve ts s) := by
  induction ts generalizing s with
  | nil => rfl
  | cons t ts ih => exact ih (serve t s)

namespace Serves

variable {serve : τ → σ → σ} {rel rel' : γ → List ν → σ → Prop} {r : List ν} {s : σ}

/-- Requests whose note is there already, or that do not get as far as leaving it. -/
theorem all_again (h : d.Serves serve rel rel') (hg : d.sound g) (ts : List τ)
    (hts : ∀ t ∈ ts, d.judge t g = none ∨ d.note t ∈ r) {s : σ} (hs : rel' g r s) :
    rel' g r (serveAll serve ts s) := by
  induction ts generalizing s with
  | nil => exact hs
  | cons t ts ih =>
    obtain ⟨ht, hrest⟩ := List.forall_mem_cons.mp hts
    refine ih hrest ?_
    cases hjudge : d.judge t g with
    | none => exact h.declined hg (h.weaken hs) hjudge
    | some ok =>
      refine h.again hg (h.weaken hs) hjudge (ht.resolve_left ?_)
      rw [hjudge]
      nofun

/-- Requests that are all too late leave the system as it is. -/
theorem all_first (h : d.Serves serve rel rel') (hg : d.sound g) {ts : List τ}
    (hts : ∀ t ∈ ts, d.note t ∈ r) (hs : rel g r s) :
    rel g r (serveAll serve ts s) ∧ (ts ≠ [] → rel' g r (serveAll serve ts s)) := by
  cases ts with
  | nil => exact ⟨hs, fun hne => absurd rfl hne⟩
  | cons t ts =>
    obtain ⟨ht, hrest⟩ := List.forall_mem_cons.mp hts
    have hfirst : rel' g r (serve t s) := by
      cases hjudge : d.judge t g with
      | none => exact h.declined hg hs hjudge
      | some ok => exact h.again hg hs hjudge ht
    have hall := h.all_again hg ts (fun t' ht' => Or.inr (hrest t' ht')) hfirst
    exact ⟨h.weaken hall, fun _ => hall⟩

theorem all_leads (h : d.Serves serve rel rel') (hleads : d.Leads g book g') (hg : d.sound g)
    (hs : rel g r s) (hnodup : (d.notes book).Nodup) (hapart : ∀ n ∈ d.notes book, n ∉ r) :
    (book = [] ∧ g = g') ∨ ∃ r', rel' g' r' (serveAll serve (requests book) s) := by
  have hsettled {g g' : γ} {book : List (Entry τ)} {r : List ν} {s : σ} (hs : rel' g r s)
      (hrest : (book = [] ∧ g = g') ∨ ∃ r', rel' g' r' (serveAll serve (requests book) s)) :
      ∃ r', rel' g' r' (serveAll serve (requests book) s) := by
    rcases hrest with ⟨rfl, rfl⟩ | hrest
    · exact ⟨r, hs⟩
    · exact hrest
  induction hleads generalizing r s with
  | nil => exact Or.inl ⟨rfl, rfl⟩
  | declined hjudge _ ih =>
    have hone := h.declined hg hs hjudge
    have hrest := hsettled hone (ih hg (h.weaken hone) hnodup hapart)
    exact Or.inr hrest
  | @refused g g' t again book hjudge hagain _ ih =>
    obtain ⟨hnew, hnodup⟩ := List.nodup_cons.mp hnodup
    obtain ⟨hfirst, hapart⟩ := List.forall_mem_cons.mp hapart
    obtain ⟨r', hone, hmem, hsub⟩ := h.refused hg hs hjudge hfirst
    have hall := h.all_again hg again (fun s hs => Or.inr (hagain s hs ▸ hmem)) hone
    have hrest := hsettled hall (ih hg (h.weaken hall) hnodup fun n hn hmem => ?_)
    · rw [← serveAll_append] at hrest
      exact Or.inr hrest
    · rcases hsub n hmem with rfl | hmem
      · exact hnew hn
      · exact hapart n hn hmem
  | @granted g g' t again book hjudge hsound hagain _ ih =>
    obtain ⟨hnew, hnodup⟩ := List.nodup_cons.mp hnodup
    obtain ⟨hfirst, hapart⟩ := List.forall_mem_cons.mp hapart
    obtain ⟨r', hone, hsub⟩ := h.granted hg hs hjudge hfirst hsound
    have hall := h.all_again hsound again
      (fun s hs => Or.inl (d.closes hg hjudge hsound (hagain s hs))) hone
    have hrest := hsettled hall (ih hsound (h.weaken hall) hnodup fun n hn hmem => ?_)
    · rw [← serveAll_append] at hrest
      exact Or.inr hrest
    · rcases hsub n hmem with rfl | hmem
      · exact hnew hn
      · exact hapart n hn hmem

end Serves

/-- Whatever has been served in whatever way, served one at a time in some order it leads to the
same value. -/
theorem Ordered.exists_order {g₀ : γ} {n₀ : List ν} {served : List τ} {seen : Set γ} {left : Set ν}
    {serve : τ → σ → σ} {rel rel' : γ → List ν → σ → Prop} {s : σ}
    (h : d.Ordered g₀ n₀ served g seen left) (hserves : d.Serves serve rel rel')
    (hsound : d.sound g₀) (hs : rel g₀ n₀ s) :
    ∃ order : List τ, order.Perm served ∧
      ((order = [] ∧ g = g₀) ∨ ∃ r, rel' g r (serveAll serve order s)) := by
  obtain ⟨first, book, h⟩ := h
  refine ⟨first ++ requests book, h.served.symm, ?_⟩
  obtain ⟨hfirst, hfirst'⟩ := hserves.all_first hsound h.first hs
  rw [serveAll_append]
  rcases hserves.all_leads h.leads hsound hfirst h.nodup h.apart with ⟨rfl, rfl⟩ | hall
  · cases first with
    | nil => exact Or.inl ⟨rfl, rfl⟩
    | cons t ts => exact Or.inr ⟨n₀, hfirst' (List.cons_ne_nil t ts)⟩
  · exact Or.inr hall

end Desk

end Lib
