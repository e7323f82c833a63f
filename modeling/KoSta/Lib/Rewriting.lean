import KoSta.Lib.Reader

/-! Which of the inputs a reader takes are the ones a writer would have written. -/
namespace Lib.Reader

variable {ε α β : Type} {r : Reader ε α} {k : α → Reader ε β} {c d : Layout}
  {got x y t t' : Bytes}

/-- Written and read bytes that are equal, or differ at some place of both. -/
def Parts (written taken : Bytes) : Prop := ∀ t t', written ++ t = taken ++ t' → written = taken

theorem parts_of_length (h : x.length = y.length) : Parts x y := fun _ _ he =>
  (List.append_inj he h).1

theorem parts_of_ne (h : x.length = y.length) (hne : x ≠ y) (t t' : Bytes) :
    Parts (x ++ t) (y ++ t') := by
  intro u u' he
  rw [List.append_assoc, List.append_assoc] at he
  exact (hne (List.append_inj he h).1).elim

theorem Parts.append_left (h : Parts x y) (put : Bytes) : Parts (put ++ x) (put ++ y) := by
  intro t t' he
  rw [List.append_assoc, List.append_assoc] at he
  exact congrArg (put ++ ·) (h t t' (List.append_cancel_left he))

theorem Parts.append {x' y' : Bytes} (h : Parts x y) (h' : Parts x' y') :
    Parts (x ++ x') (y ++ y') := by
  intro t t' he
  rw [List.append_assoc, List.append_assoc] at he
  have hx := h _ _ he
  subst hx
  rw [h' t t' (List.append_cancel_left he)]

theorem Parts.eq_and_eq {x' y' : Bytes} (h : Parts x y) (he : x ++ x' = y ++ y') :
    x = y ∧ x' = y' := by
  have hx := h _ _ he
  subst hx
  exact ⟨rfl, List.append_cancel_left he⟩

/-- Once `got` has been taken, `r` goes on over what `w` writes of its value exactly on the
encodings of `c`, which it all accepts. -/
structure Continues (r : Reader ε α) (got : Bytes) (w : α → Bytes) (c : Layout) : Prop where
  rewritten : ∀ {bs a rest}, r.run bs = .ok a rest →
    ∃ x, bs = x ++ rest ∧ (w a = got ++ x ↔ c.whole x) ∧ Parts (w a) (got ++ x)
  accepted : ∀ {x}, c.whole x → ∃ a, ∀ rest, r.run (x ++ rest) = .ok a rest

/-- The inputs of `r` that `w` writes are the encodings of `c`. -/
abbrev Rewrites (r : Reader ε α) (w : α → Bytes) (c : Layout) : Prop := Continues r [] w c

namespace Continues

variable {w : β → Bytes}

theorem pure {b : β} (h : w b = got) : Continues (pure b : Reader ε β) got w .unit where
  rewritten hrun := by
    cases hrun
    rw [h]
    exact ⟨[], rfl, by simp [Layout.unit], parts_of_length (by simp)⟩
  accepted hx := by
    cases hx
    exact ⟨b, fun _ => rfl⟩

/-- Values that are written otherwise than they were read. -/
theorem stray {s : Reader ε β} (h : ∀ {bs b rest}, s.run bs = .ok b rest →
    ∃ x, bs = x ++ rest ∧ w b ≠ got ++ x ∧ Parts (w b) (got ++ x)) :
    Continues s got w .never where
  rewritten hrun := by
    obtain ⟨x, hbs, hne, hparts⟩ := h hrun
    exact ⟨x, hbs, ⟨fun he => hne he, fun hnever => hnever.elim⟩, hparts⟩
  accepted hx := hx.elim

theorem fail (e : ε) : Continues (fail e : Reader ε β) got w .never where
  rewritten hrun := by cases hrun
  accepted hx := hx.elim

theorem panic : Continues (panic : Reader ε β) got w .never where
  rewritten hrun := by cases hrun
  accepted hx := hx.elim

theorem ite {p : Prop} [Decidable p] {s s' : Reader ε β} (hs : p → Continues s got w c)
    (hs' : ¬ p → Continues s' got w d) :
    Continues (if p then s else s') got w (if p then c else d) := by
  split
  next hp => exact hs hp
  next hp => exact hs' hp

theorem header {eof : ε} {n : Nat} {k : Vector UInt8 n → Reader ε β} {f : Bytes → Layout}
    (hk : ∀ v, Continues (k v) (got ++ v.toList) w (f v.toList)) :
    Continues (exact eof n >>= k) got w (.header n f) where
  rewritten hrun := by
    obtain ⟨v, mid, hv, hmid⟩ := run_bind_eq_ok.mp hrun
    obtain ⟨x, rfl, hiff, hparts⟩ := (hk v).rewritten hmid
    rw [List.append_assoc] at hiff hparts
    refine ⟨v.toList ++ x, ?_, hiff.trans ⟨?_, ?_⟩, hparts⟩
    · rw [run_exact_eq_ok.mp hv, List.append_assoc]
    · intro hx
      exact ⟨v.toList, x, rfl, v.length_toList, hx⟩
    · rintro ⟨u, y, he, hu, hy⟩
      obtain ⟨rfl, rfl⟩ := List.append_inj he (v.length_toList.trans hu.symm)
      exact hy
  accepted hx := by
    obtain ⟨u, y, rfl, hu, hy⟩ := hx
    obtain ⟨v, rfl⟩ := exists_vector hu
    obtain ⟨b, hb⟩ := (hk v).accepted hy
    refine ⟨b, fun rest => ?_⟩
    rw [List.append_assoc, run_bind_of_ok (run_exact_append eof v (y ++ rest))]
    exact hb rest

/-- A value that is written as something known and then as `w'` writes it. -/
theorem written {s : Reader ε β} {w' : β → Bytes} (hs : Rewrites s w' c)
    (h : ∀ {bs b rest}, s.run bs = .ok b rest → w b = got ++ w' b) : Continues s got w c where
  rewritten hrun := by
    obtain ⟨x, hbs, hiff, hparts⟩ := hs.rewritten hrun
    rw [List.nil_append] at hiff hparts
    rw [h hrun]
    exact ⟨x, hbs, List.append_right_inj got |>.trans hiff, hparts.append_left got⟩
  accepted := hs.accepted

theorem map {f : α → β} {w' : α → Bytes} (hr : Rewrites r w' c)
    (h : ∀ a, w (f a) = got ++ w' a) :
    Continues (r >>= fun a => Pure.pure (f a)) got w c where
  rewritten hrun := by
    obtain ⟨a, mid, ha, hmid⟩ := run_bind_eq_ok.mp hrun
    cases hmid
    obtain ⟨x, hbs, hiff, hparts⟩ := hr.rewritten ha
    rw [List.nil_append] at hiff hparts
    rw [h a]
    exact ⟨x, hbs, List.append_right_inj got |>.trans hiff, hparts.append_left got⟩
  accepted hx := by
    obtain ⟨a, ha⟩ := hr.accepted hx
    exact ⟨f a, fun rest => by rw [run_bind_of_ok (ha rest), run_pure]⟩

theorem fixed {eof : ε} {n : Nat} {f : Vector UInt8 n → β} (h : ∀ v, w (f v) = v.toList) :
    Rewrites (exact eof n >>= fun v => Pure.pure (f v)) w (.header n fun _ => .unit) :=
  header fun v => pure (h v)

end Continues

/-- `r` reads the rest of a record; `put` puts what is written of its first fields in front. -/
structure Completes (r : Reader ε α) (put : Bytes → Bytes) (w : α → Bytes) (c : Layout) : Prop where
  rewritten : ∀ {bs a rest}, r.run bs = .ok a rest →
    ∃ x y, bs = x ++ rest ∧ w a = put y ∧ (y = x ↔ c.whole x) ∧ Parts y x
  accepted : ∀ {x}, c.whole x → ∃ a, ∀ rest, r.run (x ++ rest) = .ok a rest

namespace Completes

variable {w : β → Bytes} {put : Bytes → Bytes}

theorem pure {b : β} (h : w b = put []) : Completes (pure b : Reader ε β) put w .unit where
  rewritten hrun := by
    cases hrun
    exact ⟨[], [], rfl, h, by simp [Layout.unit], parts_of_length rfl⟩
  accepted hx := by
    cases hx
    exact ⟨b, fun _ => rfl⟩

theorem bind {w' : α → Bytes} (hr : Rewrites r w' c)
    (hk : ∀ a, Completes (k a) (fun y => put (w' a ++ y)) w d) :
    Completes (r >>= k) put w (c.seq d) where
  rewritten {bs b rest} hrun := by
    obtain ⟨a, mid, ha, hmid⟩ := run_bind_eq_ok.mp hrun
    obtain ⟨x, hx, hiff, hparts⟩ := hr.rewritten ha
    obtain ⟨x', y, rfl, hw, hiff', hparts'⟩ := (hk a).rewritten hmid
    rw [List.nil_append] at hiff hparts
    refine ⟨x ++ x', w' a ++ y, ?_, hw, ⟨?_, ?_⟩, hparts.append hparts'⟩
    · rw [hx, List.append_assoc]
    · intro he
      obtain ⟨hfirst, hsecond⟩ := hparts.eq_and_eq he
      exact ⟨x, x', rfl, hiff.mp hfirst, hiff'.mp hsecond⟩
    · rintro ⟨u, v, he, hu, hv⟩
      -- The reader takes `u` for its first part, so that the parts are the ones it took.
      obtain ⟨a', ha'⟩ := hr.accepted hu
      have hsame : r.run bs = .ok a' (v ++ rest) := by
        rw [hx, ← List.append_assoc, he, List.append_assoc]
        exact ha' _
      obtain ⟨rfl, hmid'⟩ := ReadResult.ok.inj (ha.symm.trans hsame)
      have hv' : x' = v := List.append_cancel_right hmid'
      subst hv'
      have hu' : x = u := List.append_cancel_right he
      subst hu'
      rw [hiff.mpr hu, hiff'.mpr hv]
  accepted hx := by
    obtain ⟨u, v, rfl, hu, hv⟩ := hx
    obtain ⟨a, ha⟩ := hr.accepted hu
    obtain ⟨b, hb⟩ := (hk a).accepted hv
    refine ⟨b, fun rest => ?_⟩
    rw [List.append_assoc, run_bind_of_ok (ha (v ++ rest))]
    exact hb rest

theorem map {f : α → β} {w' : α → Bytes} (hr : Rewrites r w' c)
    (h : ∀ a, w (f a) = put (w' a)) :
    Completes (r >>= fun a => Pure.pure (f a)) put w c where
  rewritten hrun := by
    obtain ⟨a, mid, ha, hmid⟩ := run_bind_eq_ok.mp hrun
    cases hmid
    obtain ⟨x, hbs, hiff, hparts⟩ := hr.rewritten ha
    exact ⟨x, w' a, hbs, h a, hiff, hparts⟩
  accepted hx := by
    obtain ⟨a, ha⟩ := hr.accepted hx
    exact ⟨f a, fun rest => by rw [run_bind_of_ok (ha rest), run_pure]⟩

/-- The last field of a record. -/
theorem last {f : α → β} {w' : α → Bytes} (hr : Rewrites r w' c)
    (h : ∀ a, w (f a) = put (w' a)) :
    Completes (r >>= fun a => Pure.pure (f a)) put w (c.seq .unit) :=
  bind hr fun a => pure (by rw [List.append_nil]; exact h a)

theorem rewrites {s : Reader ε β} (hs : Completes s (fun y => y) w c) : Rewrites s w c where
  rewritten hrun := by
    obtain ⟨x, y, hbs, hw, hiff, hparts⟩ := hs.rewritten hrun
    subst hw
    exact ⟨x, hbs, hiff, hparts⟩
  accepted := hs.accepted

end Completes

theorem length_of_times {n : Nat} {as : List α} {bs rest : Bytes}
    (h : (times r n).run bs = .ok as rest) : as.length = n := by
  induction n generalizing as bs with
  | zero =>
    cases h
    rfl
  | succ n ih =>
    obtain ⟨a, mid, -, hmid⟩ := run_bind_eq_ok.mp h
    obtain ⟨as', mid', has, hdone⟩ := run_bind_eq_ok.mp hmid
    cases hdone
    rw [List.length_cons, ih has]

theorem rewrites_times {w : α → Bytes} (hr : Rewrites r w c) (n : Nat) :
    Rewrites (times r n) (fun as => as.flatMap w) (c.many n) := by
  induction n with
  | zero => exact Continues.pure rfl
  | succ n ih =>
    apply Completes.rewrites
    apply Completes.bind hr
    intro a
    exact Completes.map ih fun as => rfl

end Lib.Reader
