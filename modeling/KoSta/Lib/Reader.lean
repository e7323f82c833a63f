import Mathlib.Algebra.Group.Int.Defs
import Mathlib.Algebra.Group.Nat.Defs
import Mathlib.Tactic.Common

/-! Readers over a finite byte string, with reported errors and panics kept apart. -/
namespace Lib

abbrev Bytes := List UInt8

/-- How one read ends: a value with the unread bytes, a reported error, or a panic. -/
inductive ReadResult (ε α : Type) where
  | ok (value : α) (unread : Bytes)
  | err (error : ε)
  | panic
  deriving DecidableEq, Repr

structure Reader (ε α : Type) where
  run : Bytes → ReadResult ε α

namespace Reader

variable {ε α β : Type} {r : Reader ε α} {k : α → Reader ε β} {bs rest x y : Bytes}

protected def pure (a : α) : Reader ε α := ⟨fun bs => .ok a bs⟩

protected def bind (r : Reader ε α) (k : α → Reader ε β) : Reader ε β := ⟨fun bs =>
  match r.run bs with
  | .ok a rest => (k a).run rest
  | .err e => .err e
  | .panic => .panic⟩

instance : Monad (Reader ε) where
  pure := Reader.pure
  bind := Reader.bind

def fail (e : ε) : Reader ε α := ⟨fun _ => .err e⟩

def panic : Reader ε α := ⟨fun _ => .panic⟩

/-- Fill a buffer of exactly `n` bytes, or fail with `eof`. -/
def exact (eof : ε) (n : Nat) : Reader ε (Vector UInt8 n) := ⟨fun bs =>
  if h : n ≤ bs.length then .ok ⟨(bs.take n).toArray, by simp [h]⟩ (bs.drop n) else .err eof⟩

/-- Run one reader `n` times and collect the values in order. -/
def times (r : Reader ε α) : Nat → Reader ε (List α)
  | 0 => pure []
  | n + 1 => do
    let a ← r
    let as ← times r n
    return a :: as

@[simp] theorem run_pure (a : α) (bs : Bytes) : (pure a : Reader ε α).run bs = .ok a bs := rfl

@[simp] theorem run_fail (e : ε) (bs : Bytes) : (fail e : Reader ε α).run bs = .err e := rfl

@[simp] theorem run_panic (bs : Bytes) : (panic : Reader ε α).run bs = .panic := rfl

theorem run_bind (r : Reader ε α) (k : α → Reader ε β) (bs : Bytes) :
    (r >>= k).run bs = match r.run bs with
      | .ok a rest => (k a).run rest
      | .err e => .err e
      | .panic => .panic := rfl

theorem ext_run {s : Reader ε α} (h : ∀ bs, r.run bs = s.run bs) : r = s :=
  congrArg Reader.mk (funext h)

instance : LawfulMonad (Reader ε) := LawfulMonad.mk' (Reader ε)
  (fun r => ext_run fun bs => by
    change (r >>= pure).run bs = r.run bs
    rw [run_bind]
    cases r.run bs <;> rfl)
  (fun _ _ => rfl)
  (fun r _ _ => ext_run fun bs => by
    simp only [run_bind]
    cases r.run bs <;> rfl)

@[simp] theorem panic_bind (k : α → Reader ε β) : (panic : Reader ε α) >>= k = panic := rfl

theorem run_bind_of_ok {a : α} (h : r.run bs = .ok a rest) :
    (r >>= k).run bs = (k a).run rest := by
  simp [run_bind, h]

theorem run_bind_eq_ok {b : β} : (r >>= k).run bs = .ok b rest ↔
    ∃ a mid, r.run bs = .ok a mid ∧ (k a).run mid = .ok b rest := by
  cases h : r.run bs <;> simp [run_bind, h]

theorem run_bind_eq_panic : (r >>= k).run bs = .panic ↔
    r.run bs = .panic ∨ ∃ a mid, r.run bs = .ok a mid ∧ (k a).run mid = .panic := by
  cases h : r.run bs <;> simp [run_bind, h]

theorem exists_vector {n : Nat} (h : bs.length = n) : ∃ v : Vector UInt8 n, v.toList = bs :=
  ⟨⟨bs.toArray, by simpa using h⟩, by simp [Vector.toList]⟩

theorem toList_singleton (v : Vector UInt8 1) : v.toList = [v.get ⟨0, Nat.one_pos⟩] := by
  obtain ⟨⟨l⟩, hl⟩ := v
  obtain ⟨b, rfl⟩ := List.length_eq_one_iff.mp hl
  rfl

theorem run_exact_append (eof : ε) {n : Nat} (v : Vector UInt8 n) (rest : Bytes) :
    (exact eof n).run (v.toList ++ rest) = .ok v rest := by
  have hv : v.toList.length = n := v.length_toList
  have ht : (v.toList ++ rest).take n = v.toList := List.take_left' hv
  have hd : (v.toList ++ rest).drop n = rest := List.drop_left' hv
  simp only [exact, List.length_append, hv, Nat.le_add_right, ↓reduceDIte, ht, hd]
  rfl

theorem run_exact_eq_ok {eof : ε} {n : Nat} {v : Vector UInt8 n} :
    (exact eof n).run bs = .ok v rest ↔ bs = v.toList ++ rest := by
  constructor
  · intro h
    unfold exact at h
    dsimp only at h
    split at h
    · cases h
      simp [Vector.toList]
    · cases h
  · rintro rfl
    exact run_exact_append _ v rest

theorem run_exact_ne_panic {eof : ε} {n : Nat} : (exact eof n).run bs ≠ .panic := by
  unfold exact
  dsimp only
  split <;> simp

/-! ### Reading back an encoding -/

/-- Below `limit`, `r` reads `a` off the encoding `x`, whatever follows it. -/
def Reads (limit : Nat) (r : Reader ε α) (x : Bytes) (a : α) : Prop :=
  x.length < limit → ∀ rest, r.run (x ++ rest) = .ok a rest

namespace Reads

variable {limit : Nat} {a : α} {b : β}

theorem pure (a : α) : Reads limit (pure a : Reader ε α) [] a := fun _ _ => rfl

theorem exact {eof : ε} {n : Nat} (v : Vector UInt8 n) :
    Reads limit (exact eof n) v.toList v := fun _ rest => run_exact_append _ v rest

theorem bind (hr : Reads limit r x a) (hk : Reads limit (k a) y b) :
    Reads limit (r >>= k) (x ++ y) b := by
  intro hlen rest
  rw [List.length_append] at hlen
  rw [List.append_assoc, run_bind_of_ok (hr (by omega) (y ++ rest))]
  exact hk (by omega) rest

theorem map {f : α → β} (hr : Reads limit r x a) :
    Reads limit (r >>= fun a => Pure.pure (f a)) x (f a) := by
  intro hlen rest
  rw [run_bind_of_ok (hr hlen rest), run_pure]

theorem times {enc : α → Bytes} (as : List α) (h : ∀ a ∈ as, Reads limit r (enc a) a) :
    Reads limit (times r as.length) (as.flatMap enc) as := by
  induction as with
  | nil => exact pure []
  | cons a as ih =>
    rw [List.flatMap_cons]
    exact (h a List.mem_cons_self).bind (ih fun b hb => h b (List.mem_cons_of_mem a hb)).map

end Reads

end Reader

/-! ### Layouts -/

/-- A description of the bytes a reader takes: `whole` are the complete encodings, `trap` the
inputs on which it runs into a panic. -/
structure Layout where
  whole : Bytes → Prop
  trap : Bytes → Prop

namespace Layout

def unit : Layout := ⟨fun x => x = [], fun _ => False⟩

def never : Layout := ⟨fun _ => False, fun _ => False⟩

def trapped : Layout := ⟨fun _ => False, fun _ => True⟩

/-- `n` bytes that decide how the encoding goes on. -/
def header (n : Nat) (f : Bytes → Layout) : Layout where
  whole x := ∃ h y, x = h ++ y ∧ h.length = n ∧ (f h).whole y
  trap x := ∃ h y, x = h ++ y ∧ h.length = n ∧ (f h).trap y

def seq (l m : Layout) : Layout where
  whole x := ∃ u v, x = u ++ v ∧ l.whole u ∧ m.whole v
  trap x := l.trap x ∨ ∃ u v, x = u ++ v ∧ l.whole u ∧ m.trap v

def record (fields : List Layout) : Layout := fields.foldr seq unit

def many (l : Layout) (n : Nat) : Layout := record (List.replicate n l)

/-- Whatever follows a trap, it stays one. -/
def Stable (l : Layout) : Prop := ∀ x y, l.trap x → l.trap (x ++ y)

namespace Stable

variable {l m : Layout}

theorem unit : Layout.unit.Stable := fun _ _ h => h

theorem never : Layout.never.Stable := fun _ _ h => h

theorem trapped : Layout.trapped.Stable := fun _ _ h => h

theorem ite {c : Prop} [Decidable c] (hl : l.Stable) (hm : m.Stable) :
    (if c then l else m).Stable := by
  split
  · exact hl
  · exact hm

theorem header {n : Nat} {f : Bytes → Layout} (hf : ∀ h, (f h).Stable) :
    (Layout.header n f).Stable := by
  rintro x z ⟨h, y, rfl, hn, hy⟩
  exact ⟨h, y ++ z, List.append_assoc h y z, hn, hf h y z hy⟩

theorem seq (hl : l.Stable) (hm : m.Stable) : (l.seq m).Stable := by
  rintro x y (hx | ⟨u, v, rfl, hu, hv⟩)
  · exact Or.inl (hl x y hx)
  · exact Or.inr ⟨u, v ++ y, List.append_assoc u v y, hu, hm v y hv⟩

theorem record {fields : List Layout} (h : ∀ l ∈ fields, l.Stable) : (record fields).Stable := by
  induction fields with
  | nil => exact unit
  | cons l fields ih =>
    apply seq (h l List.mem_cons_self)
    exact ih fun m hm => h m (List.mem_cons_of_mem l hm)

theorem many (hl : l.Stable) (n : Nat) : (l.many n).Stable := by
  apply record
  intro m hm
  rw [List.eq_of_mem_replicate hm]
  exact hl

end Stable

end Layout

namespace Reader

variable {ε α β : Type} {r : Reader ε α} {k : α → Reader ε β} {bs rest x y : Bytes}

/-- `r` accepts exactly the encodings of `l`, looks at nothing behind them, and panics exactly
on the traps of `l`. -/
structure Follows (r : Reader ε α) (l : Layout) : Prop where
  whole_of_ok : ∀ {bs a rest}, r.run bs = .ok a rest → ∃ x, bs = x ++ rest ∧ l.whole x
  ok_of_whole : ∀ {x}, l.whole x → ∃ a, ∀ rest, r.run (x ++ rest) = .ok a rest
  panic_iff : ∀ {bs}, r.run bs = .panic ↔ l.trap bs

namespace Follows

variable {l m : Layout}

theorem pure (a : α) : Follows (pure a : Reader ε α) .unit where
  whole_of_ok h := by
    rw [run_pure] at h
    cases h
    exact ⟨[], rfl, rfl⟩
  ok_of_whole h := by
    cases h
    exact ⟨a, fun _ => rfl⟩
  panic_iff := by simp [Layout.unit]

theorem fail (e : ε) : Follows (fail e : Reader ε α) .never where
  whole_of_ok h := by simp at h
  ok_of_whole h := h.elim
  panic_iff := by simp [Layout.never]

theorem panic : Follows (panic : Reader ε α) .trapped where
  whole_of_ok h := by simp at h
  ok_of_whole h := h.elim
  panic_iff := by simp [Layout.trapped]

theorem ite {c : Prop} [Decidable c] {s : Reader ε α} (hr : Follows r l) (hs : Follows s m) :
    Follows (if c then r else s) (if c then l else m) := by
  split
  · exact hr
  · exact hs

theorem header {eof : ε} {n : Nat} {k : Vector UInt8 n → Reader ε β} {f : Bytes → Layout}
    (hk : ∀ v, Follows (k v) (f v.toList)) :
    Follows (exact eof n >>= k) (.header n f) where
  whole_of_ok h := by
    obtain ⟨v, mid, hv, hmid⟩ := run_bind_eq_ok.mp h
    obtain ⟨y, rfl, hy⟩ := (hk v).whole_of_ok hmid
    exact ⟨v.toList ++ y, by rw [run_exact_eq_ok.mp hv, List.append_assoc],
      v.toList, y, rfl, v.length_toList, hy⟩
  ok_of_whole h := by
    obtain ⟨w, y, rfl, hn, hy⟩ := h
    obtain ⟨v, rfl⟩ := exists_vector hn
    obtain ⟨b, hb⟩ := (hk v).ok_of_whole hy
    refine ⟨b, fun rest => ?_⟩
    rw [List.append_assoc, run_bind_of_ok (run_exact_append _ v (y ++ rest))]
    exact hb rest
  panic_iff := by
    intro bs
    rw [run_bind_eq_panic]
    constructor
    · rintro (hp | ⟨v, mid, hv, hmid⟩)
      · exact (run_exact_ne_panic hp).elim
      · exact ⟨v.toList, mid, run_exact_eq_ok.mp hv, v.length_toList, (hk v).panic_iff.mp hmid⟩
    · rintro ⟨w, y, rfl, hn, hy⟩
      obtain ⟨v, rfl⟩ := exists_vector hn
      exact Or.inr ⟨v, y, run_exact_append _ v y, (hk v).panic_iff.mpr hy⟩

theorem bind (hr : Follows r l) (hk : ∀ a, Follows (k a) m) :
    Follows (r >>= k) (l.seq m) where
  whole_of_ok h := by
    obtain ⟨a, mid, ha, hmid⟩ := run_bind_eq_ok.mp h
    obtain ⟨u, rfl, hu⟩ := hr.whole_of_ok ha
    obtain ⟨v, rfl, hv⟩ := (hk a).whole_of_ok hmid
    exact ⟨u ++ v, by rw [List.append_assoc], u, v, rfl, hu, hv⟩
  ok_of_whole h := by
    obtain ⟨u, v, rfl, hu, hv⟩ := h
    obtain ⟨a, ha⟩ := hr.ok_of_whole hu
    obtain ⟨b, hb⟩ := (hk a).ok_of_whole hv
    refine ⟨b, fun rest => ?_⟩
    rw [List.append_assoc, run_bind_of_ok (ha (v ++ rest))]
    exact hb rest
  panic_iff := by
    intro bs
    rw [run_bind_eq_panic]
    constructor
    · rintro (hp | ⟨a, mid, ha, hmid⟩)
      · exact Or.inl (hr.panic_iff.mp hp)
      · obtain ⟨u, rfl, hu⟩ := hr.whole_of_ok ha
        exact Or.inr ⟨u, mid, rfl, hu, (hk a).panic_iff.mp hmid⟩
    · rintro (hp | ⟨u, v, rfl, hu, hv⟩)
      · exact Or.inl (hr.panic_iff.mpr hp)
      · obtain ⟨a, ha⟩ := hr.ok_of_whole hu
        exact Or.inr ⟨a, v, ha v, (hk a).panic_iff.mpr hv⟩

theorem map {f : α → β} (hr : Follows r l) :
    Follows (r >>= fun a => Pure.pure (f a)) l where
  whole_of_ok h := by
    obtain ⟨a, mid, ha, hmid⟩ := run_bind_eq_ok.mp h
    cases hmid
    exact hr.whole_of_ok ha
  ok_of_whole h := by
    obtain ⟨a, ha⟩ := hr.ok_of_whole h
    exact ⟨f a, fun rest => by rw [run_bind_of_ok (ha rest), run_pure]⟩
  panic_iff := by
    intro bs
    rw [run_bind_eq_panic, hr.panic_iff]
    simp only [run_pure, reduceCtorEq, and_false, exists_false, or_false]

theorem times (hr : Follows r l) (n : Nat) : Follows (times r n) (l.many n) := by
  induction n with
  | zero => exact pure []
  | succ n ih => exact hr.bind fun _ => ih.map

/-- What is read is decided by the bytes that are taken. -/
theorem taken {a : α} (hr : Follows r l) (h : r.run bs = .ok a rest) :
    ∃ x, bs = x ++ rest ∧ ∀ rest', r.run (x ++ rest') = .ok a rest' := by
  obtain ⟨x, rfl, hx⟩ := hr.whole_of_ok h
  obtain ⟨a', ha⟩ := hr.ok_of_whole hx
  cases (ha rest).symm.trans h
  exact ⟨x, rfl, ha⟩

/-- More input changes nothing of what has been read. -/
theorem extend {a : α} (hr : Follows r l) (h : r.run bs = .ok a rest) (tail : Bytes) :
    r.run (bs ++ tail) = .ok a (rest ++ tail) := by
  obtain ⟨x, rfl, hx⟩ := hr.taken h
  rw [List.append_assoc]
  exact hx (rest ++ tail)

/-- On a part of the bytes it takes, a reader reports an error. -/
theorem truncated {a : α} (hr : Follows r l) (hl : l.Stable)
    (h : ∀ rest, r.run (x ++ y ++ rest) = .ok a rest) (hy : y ≠ []) : ∃ e, r.run x = .err e := by
  cases hx : r.run x with
  | err e => exact ⟨e, rfl⟩
  | ok b unread =>
    have hwhole := h []
    rw [List.append_nil, hr.extend hx y] at hwhole
    have hnil : unread ++ y = [] := (ReadResult.ok.inj hwhole).2
    exact absurd (List.append_eq_nil_iff.mp hnil).2 hy
  | panic =>
    have htrap := hl x y (hr.panic_iff.mp hx)
    have hwhole := h []
    rw [List.append_nil, hr.panic_iff.mpr htrap] at hwhole
    cases hwhole

end Follows

end Reader

end Lib
