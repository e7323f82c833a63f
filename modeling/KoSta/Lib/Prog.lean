import Mathlib.Tactic.Common

/-! Programs that share a state and touch it only in atomic sections. -/
namespace Lib

/-- `atomic act next` runs one section: it sees the state `s`, leaves `act s` behind and goes
on as `next s`. Everything between two sections is local to the program. -/
inductive Prog (σ ε α : Type) : Type where
  | done (a : α)
  | fail (e : ε)
  | atomic (act : σ → σ) (next : σ → Prog σ ε α)

namespace Prog

variable {σ ε α β : Type}

protected def bind (p : Prog σ ε α) (k : α → Prog σ ε β) : Prog σ ε β :=
  match p with
  | .done a => k a
  | .fail e => .fail e
  | .atomic act next => .atomic act fun s => (next s).bind k

instance : Monad (Prog σ ε) where
  pure := .done
  bind := Prog.bind

/-- One section that also returns a value. -/
def atomically (f : σ → β × σ) : Prog σ ε β := .atomic (fun s => (f s).2) fun s => .done (f s).1

/-- Failures become values. -/
def attempt {ε' : Type} : Prog σ ε α → Prog σ ε' (Except ε α)
  | .done a => .done (.ok a)
  | .fail e => .done (.error e)
  | .atomic act next => .atomic act fun s => (next s).attempt

/-- The run of a program alone, from its first section to its end. -/
def exec : Prog σ ε α → σ → Except ε α × σ
  | .done a, s => (.ok a, s)
  | .fail e, s => (.error e, s)
  | .atomic act next, s => (next s).exec (act s)

@[simp] theorem done_bind (a : α) (k : α → Prog σ ε β) : (done a >>= k) = k a := rfl

@[simp] theorem pure_bind (a : α) (k : α → Prog σ ε β) : (pure a >>= k) = k a := rfl

@[simp] theorem atomic_bind (act : σ → σ) (next : σ → Prog σ ε α) (k : α → Prog σ ε β) :
    (atomic act next >>= k) = atomic act fun s => next s >>= k := rfl

instance : LawfulMonad (Prog σ ε) := LawfulMonad.mk' (Prog σ ε)
  (fun p => by
    change p.bind (fun a => .done a) = p
    induction p with
    | done a => rfl
    | fail e => rfl
    | atomic act next ih => exact congrArg (atomic act) (funext ih))
  (fun _ _ => rfl)
  (fun p k l => by
    induction p with
    | done a => rfl
    | fail e => rfl
    | atomic act next ih => exact congrArg (atomic act) (funext ih))

theorem exec_bind (p : Prog σ ε α) (k : α → Prog σ ε β) (s : σ) :
    (p >>= k).exec s = match p.exec s with
      | (.ok a, s') => (k a).exec s'
      | (.error e, s') => (.error e, s') := by
  induction p generalizing s with
  | done a => rfl
  | fail e => rfl
  | atomic act next ih => exact ih s (act s)

/-- A run that ends well has passed through the end of its first part. -/
theorem exec_bind_ok {p : Prog σ ε α} {k : α → Prog σ ε β} {b : β} {s t : σ}
    (h : (p >>= k).exec s = (.ok b, t)) :
    ∃ a s', p.exec s = (.ok a, s') ∧ (k a).exec s' = (.ok b, t) := by
  rw [exec_bind] at h
  rcases hp : p.exec s with ⟨result, s'⟩
  rw [hp] at h
  cases result with
  | error e => cases h
  | ok a => exact ⟨a, s', rfl, h⟩

theorem exec_attempt {ε' : Type} (p : Prog σ ε α) (s : σ) :
    (p.attempt : Prog σ ε' _).exec s = (.ok (p.exec s).1, (p.exec s).2) := by
  induction p generalizing s with
  | done a => rfl
  | fail e => rfl
  | atomic act next ih => exact ih s (act s)

/-- Whatever state the sections find, the program does not fail. -/
def Sure : Prog σ ε α → Prop
  | .done _ => True
  | .fail _ => False
  | .atomic _ next => ∀ s, (next s).Sure

/-! ### Programs whose sections all keep to a relation -/

/-- Whatever state it finds, every section changes it by `R` at most. -/
def Always (R : σ → σ → Prop) : Prog σ ε α → Prop
  | .done _ => True
  | .fail _ => True
  | .atomic act next => ∀ s, R s (act s) ∧ (next s).Always R

namespace Always

variable {R : σ → σ → Prop} {p : Prog σ ε α} {k : α → Prog σ ε β}

theorem pure (a : α) : (pure a : Prog σ ε α).Always R := trivial

theorem fail (e : ε) : (fail e : Prog σ ε α).Always R := trivial

theorem bind (hp : p.Always R) (hk : ∀ a, (k a).Always R) : (p >>= k).Always R := by
  induction p with
  | done a => exact hk a
  | fail e => trivial
  | atomic act next ih => exact fun s => ⟨(hp s).1, ih s (hp s).2⟩

theorem ite {c : Prop} [Decidable c] {q : Prog σ ε α} (hp : p.Always R) (hq : q.Always R) :
    (if c then p else q).Always R := by
  split
  · exact hp
  · exact hq

theorem mono {R' : σ → σ → Prop} (hp : p.Always R) (h : ∀ {s t}, R s t → R' s t) :
    p.Always R' := by
  induction p with
  | done a => trivial
  | fail e => trivial
  | atomic act next ih => exact fun s => ⟨h (hp s).1, ih s (hp s).2⟩

theorem and {R' : σ → σ → Prop} (hp : p.Always R) (hp' : p.Always R') :
    p.Always fun s t => R s t ∧ R' s t := by
  induction p with
  | done a => trivial
  | fail e => trivial
  | atomic act next ih => exact fun s => ⟨⟨(hp s).1, (hp' s).1⟩, ih s (hp s).2 (hp' s).2⟩

theorem of_forall (h : ∀ s t, R s t) (p : Prog σ ε α) : p.Always R := by
  induction p with
  | done a => trivial
  | fail e => trivial
  | atomic act next ih => exact fun s => ⟨h s (act s), ih s⟩

/-- What the sections do one by one, a run of the program does as a whole. -/
theorem exec (hp : p.Always R) (hrefl : ∀ s, R s s)
    (htrans : ∀ {s t u}, R s t → R t u → R s u) (s : σ) : R s (p.exec s).2 := by
  induction p generalizing s with
  | done a => exact hrefl s
  | fail e => exact hrefl s
  | atomic act next ih => exact htrans (hp s).1 (ih s (hp s).2 (act s))

end Always

/-! ### Programs that keep an invariant -/

/-- From a state with the invariant every section leads to one with it again, and a value the
program ends in has the postcondition. -/
def Maintains (I : σ → Prop) (Q : α → Prop) : Prog σ ε α → Prop
  | .done a => Q a
  | .fail _ => True
  | .atomic act next => ∀ s, I s → I (act s) ∧ (next s).Maintains I Q

namespace Maintains

variable {I : σ → Prop} {Q : α → Prop} {p : Prog σ ε α} {k : α → Prog σ ε β}

theorem pure {a : α} (h : Q a) : (pure a : Prog σ ε α).Maintains I Q := h

theorem fail (e : ε) : (fail e : Prog σ ε α).Maintains I Q := trivial

theorem atomically {f : σ → α × σ} (h : ∀ s, I s → I (f s).2 ∧ Q (f s).1) :
    (Prog.atomically f : Prog σ ε α).Maintains I Q := h

theorem bind {Q' : β → Prop} (hp : p.Maintains I Q)
    (hk : ∀ a, Q a → (k a).Maintains I Q') : (p >>= k).Maintains I Q' := by
  induction p with
  | done a => exact hk a hp
  | fail e => trivial
  | atomic act next ih =>
    intro s hs
    obtain ⟨hact, hnext⟩ := hp s hs
    exact ⟨hact, ih s hnext⟩

theorem ite {c : Prop} [Decidable c] {q : Prog σ ε α} (hp : p.Maintains I Q)
    (hq : q.Maintains I Q) : (if c then p else q).Maintains I Q := by
  split
  · exact hp
  · exact hq

theorem attempt {ε' : Type} (hp : p.Maintains I Q) :
    (p.attempt : Prog σ ε' _).Maintains I fun _ => True := by
  induction p with
  | done a => trivial
  | fail e => trivial
  | atomic act next ih =>
    intro s hs
    obtain ⟨hact, hnext⟩ := hp s hs
    exact ⟨hact, ih s hnext⟩

theorem of_always {R : σ → σ → Prop} (hp : p.Always R) (hR : ∀ {s t}, R s t → I s → I t) :
    p.Maintains I fun _ => True := by
  induction p with
  | done a => trivial
  | fail e => trivial
  | atomic act next ih =>
    intro s hs
    exact ⟨hR (hp s).1 hs, ih s (hp s).2⟩

/-- What holds of the sections one by one holds of a run from such a state. -/
theorem exec (hp : p.Maintains I Q) {s : σ} (hs : I s) :
    I (p.exec s).2 ∧ ∀ a, (p.exec s).1 = .ok a → Q a := by
  induction p generalizing s with
  | done a =>
    refine ⟨hs, fun b hb => ?_⟩
    cases hb
    exact hp
  | fail e => exact ⟨hs, fun b hb => nomatch hb⟩
  | atomic act next ih =>
    obtain ⟨hact, hnext⟩ := hp s hs
    exact ih s hnext hact

end Maintains

/-! ### Programs that see the state through a view -/

/-- Every section changes the state by `R` at most, and the view alone decides what becomes of
the view and how the program goes on. -/
def Through {ν : Type} (view : σ → ν) (R : σ → σ → Prop) : Prog σ ε α → Prop
  | .done _ => True
  | .fail _ => True
  | .atomic act next =>
    (∀ s, R s (act s) ∧ (next s).Through view R) ∧
      ∀ s t, view s = view t → view (act s) = view (act t) ∧ next s = next t

namespace Through

variable {ν : Type} {view : σ → ν} {R : σ → σ → Prop} {p : Prog σ ε α} {k : α → Prog σ ε β}

theorem pure (a : α) : (pure a : Prog σ ε α).Through view R := trivial

theorem fail (e : ε) : (fail e : Prog σ ε α).Through view R := trivial

theorem atomically {f : σ → β × σ} (hR : ∀ s, R s (f s).2)
    (hview : ∀ s t, view s = view t → (f s).1 = (f t).1 ∧ view (f s).2 = view (f t).2) :
    (Prog.atomically f : Prog σ ε β).Through view R := by
  refine ⟨fun s => ⟨hR s, trivial⟩, fun s t h => ?_⟩
  obtain ⟨hvalue, hafter⟩ := hview s t h
  exact ⟨hafter, congrArg done hvalue⟩

theorem bind (hp : p.Through view R) (hk : ∀ a, (k a).Through view R) :
    (p >>= k).Through view R := by
  induction p with
  | done a => exact hk a
  | fail e => trivial
  | atomic act next ih =>
    refine ⟨fun s => ⟨(hp.1 s).1, ih s (hp.1 s).2⟩, fun s t h => ?_⟩
    obtain ⟨hafter, hnext⟩ := hp.2 s t h
    exact ⟨hafter, congrArg (· >>= k) hnext⟩

theorem ite {c : Prop} [Decidable c] {q : Prog σ ε α} (hp : p.Through view R)
    (hq : q.Through view R) : (if c then p else q).Through view R := by
  split
  · exact hp
  · exact hq

/-- From two states with one view such a program ends alike. -/
theorem exec_eq (hp : p.Through view R) {s t : σ} (h : view s = view t) :
    (p.exec s).1 = (p.exec t).1 ∧ view (p.exec s).2 = view (p.exec t).2 := by
  induction p generalizing s t with
  | done a => exact ⟨rfl, h⟩
  | fail e => exact ⟨rfl, h⟩
  | atomic act next ih =>
    obtain ⟨hafter, hnext⟩ := hp.2 s t h
    unfold exec
    rw [← hnext]
    exact ih s (hp.1 s).2 hafter

theorem always (hp : p.Through view R) : p.Always R := by
  induction p with
  | done a => trivial
  | fail e => trivial
  | atomic act next ih => exact fun s => ⟨(hp.1 s).1, ih s (hp.1 s).2⟩

/-- A program that sees the state through a view sees it through any finer one, as long as what it
leaves alone is the rest of that. -/
theorem imp {ν' : Type} {view' : σ → ν'} {R' : σ → σ → Prop} (hp : p.Through view R)
    (hR : ∀ {s t}, R s t → R' s t) (hview : ∀ {s t}, view' s = view' t → view s = view t)
    (hafter : ∀ {s t s' t'}, R s s' → R t t' → view' s = view' t → view s' = view t' →
      view' s' = view' t') : p.Through view' R' := by
  induction p with
  | done a => trivial
  | fail e => trivial
  | atomic act next ih =>
    obtain ⟨hall, hsame⟩ := hp
    refine ⟨fun s => ⟨hR (hall s).1, ih s (hall s).2⟩, fun s t h => ?_⟩
    obtain ⟨hact, hnext⟩ := hsame s t (hview h)
    exact ⟨hafter (hall s).1 (hall t).1 h hact, hnext⟩

theorem attempt {ε' : Type} (hp : p.Through view R) :
    (p.attempt : Prog σ ε' _).Through view R := by
  induction p with
  | done a => trivial
  | fail e => trivial
  | atomic act next ih =>
    obtain ⟨hall, hsame⟩ := hp
    refine ⟨fun s => ⟨(hall s).1, ih s (hall s).2⟩, fun s t h => ?_⟩
    obtain ⟨hact, hnext⟩ := hsame s t h
    exact ⟨hact, congrArg Prog.attempt hnext⟩

end Through

/-! ### Programs that follow an automaton -/

/-- From phase `ph` on, whatever state each section finds, it makes one of the moves, and the
program ends, if it does, in a phase that `final` allows. -/
def Obeys {φ : Type} (move : φ → σ → σ → φ → Prop) (final : Except ε α → φ → Prop) :
    Prog σ ε α → φ → Prop
  | .done a, ph => final (.ok a) ph
  | .fail e, ph => final (.error e) ph
  | .atomic act next, ph => ∀ s, ∃ ph', move ph s (act s) ph' ∧ Obeys move final (next s) ph'

namespace Obeys

variable {φ : Type} {move : φ → σ → σ → φ → Prop} {final : Except ε α → φ → Prop} {ph : φ}

theorem mono {final' : Except ε α → φ → Prop} {p : Prog σ ε α} (h : p.Obeys move final ph)
    (hfinal : ∀ r ph', final r ph' → final' r ph') : p.Obeys move final' ph := by
  induction p generalizing ph with
  | done a => exact hfinal _ _ h
  | fail e => exact hfinal _ _ h
  | atomic act next ih =>
    intro s
    obtain ⟨ph', hmove, hnext⟩ := h s
    exact ⟨ph', hmove, ih s hnext⟩

theorem always {R : σ → σ → Prop} {p : Prog σ ε α} (h : p.Obeys move final ph)
    (hmove : ∀ {ph s t ph'}, move ph s t ph' → R s t) : p.Always R := by
  induction p generalizing ph with
  | done a => trivial
  | fail e => trivial
  | atomic act next ih =>
    intro s
    obtain ⟨ph', hs, hnext⟩ := h s
    exact ⟨hmove hs, ih s hnext⟩

theorem mono_move {move' : φ → σ → σ → φ → Prop} {p : Prog σ ε α} (h : p.Obeys move final ph)
    (hmove : ∀ {ph s t ph'}, move ph s t ph' → move' ph s t ph') : p.Obeys move' final ph := by
  induction p generalizing ph with
  | done a => exact h
  | fail e => exact h
  | atomic act next ih =>
    intro s
    obtain ⟨ph', hs, hnext⟩ := h s
    exact ⟨ph', hmove hs, ih s hnext⟩

theorem bind {p : Prog σ ε β} {k : β → Prog σ ε α}
    (h : p.Obeys move (fun r ph' => match r with
      | .ok b => (k b).Obeys move final ph'
      | .error e => final (.error e) ph') ph) :
    (p >>= k).Obeys move final ph := by
  induction p generalizing ph with
  | done b => exact h
  | fail e => exact h
  | atomic act next ih =>
    intro s
    obtain ⟨ph', hmove, hnext⟩ := h s
    exact ⟨ph', hmove, ih s hnext⟩

theorem attempt {ε' : Type} {p : Prog σ ε α} {final : Except ε' (Except ε α) → φ → Prop}
    (h : p.Obeys move (fun r => final (.ok r)) ph) :
    (p.attempt : Prog σ ε' _).Obeys move final ph := by
  induction p generalizing ph with
  | done a => exact h
  | fail e => exact h
  | atomic act next ih =>
    intro s
    obtain ⟨ph', hmove, hnext⟩ := h s
    exact ⟨ph', hmove, ih s hnext⟩

/-- A program whose sections are all moves within one phase. -/
theorem of_through {ν : Type} {view : σ → ν} {R : σ → σ → Prop} {p : Prog σ ε α}
    (h : p.Through view R) (hmove : ∀ {s t}, R s t → move ph s t ph) :
    p.Obeys move (fun _ ph' => ph' = ph) ph := by
  induction p with
  | done a => rfl
  | fail e => rfl
  | atomic act next ih => exact fun s => ⟨ph, hmove (h.1 s).1, ih s (h.1 s).2⟩

end Obeys

/-! ### Two programs side by side -/

/-- From states that `R` relates the two programs end both well, in values and states that `Q`
relates, or both with one error, in states that `E` relates. -/
def Couples (R E : σ → σ → Prop) (Q : α → β → σ → σ → Prop) (p : Prog σ ε α) (q : Prog σ ε β) :
    Prop :=
  ∀ s t, R s t →
    (∃ a b s' t', p.exec s = (.ok a, s') ∧ q.exec t = (.ok b, t') ∧ Q a b s' t') ∨
    ∃ e s' t', p.exec s = (.error e, s') ∧ q.exec t = (.error e, t') ∧ E s' t'

namespace Couples

variable {γ δ : Type} {R E : σ → σ → Prop} {Q : α → β → σ → σ → Prop} {p : Prog σ ε α}
  {q : Prog σ ε β} {k : α → Prog σ ε γ} {l : β → Prog σ ε δ}

theorem pure {a : α} {b : β} (h : ∀ s t, R s t → Q a b s t) :
    Couples R E Q (pure a : Prog σ ε α) (pure b) :=
  fun s t hst => Or.inl ⟨a, b, s, t, rfl, rfl, h s t hst⟩

theorem fail {e : ε} (h : ∀ s t, R s t → E s t) :
    Couples R E Q (fail e : Prog σ ε α) (fail e) :=
  fun s t hst => Or.inr ⟨e, s, t, rfl, rfl, h s t hst⟩

theorem bind {Q' : γ → δ → σ → σ → Prop} (h : Couples R E Q p q)
    (hk : ∀ a b, Couples (Q a b) E Q' (k a) (l b)) : Couples R E Q' (p >>= k) (q >>= l) := by
  intro s t hst
  rcases h s t hst with ⟨a, b, s', t', hp, hq, hab⟩ | ⟨e, s', t', hp, hq, he⟩
  · rcases hk a b s' t' hab with ⟨c, d, s'', t'', hc, hd, hcd⟩ | ⟨e, s'', t'', hc, hd, he⟩
    · refine Or.inl ⟨c, d, s'', t'', ?_, ?_, hcd⟩
      · rw [exec_bind, hp]
        exact hc
      · rw [exec_bind, hq]
        exact hd
    · refine Or.inr ⟨e, s'', t'', ?_, ?_, he⟩
      · rw [exec_bind, hp]
        exact hc
      · rw [exec_bind, hq]
        exact hd
  · refine Or.inr ⟨e, s', t', ?_, ?_, he⟩
    · rw [exec_bind, hp]
    · rw [exec_bind, hq]

/-- The first parts end in one value. -/
theorem bind_eq {R' : σ → σ → Prop} {Q' : γ → δ → σ → σ → Prop} {q : Prog σ ε α}
    {l : α → Prog σ ε δ} (h : Couples R E (fun a b s t => a = b ∧ R' s t) p q)
    (hk : ∀ a, Couples R' E Q' (k a) (l a)) : Couples R E Q' (p >>= k) (q >>= l) := by
  refine h.bind fun a b => ?_
  rintro s t ⟨rfl, hst⟩
  exact hk a s t hst

theorem mono {R' : σ → σ → Prop} {Q' : α → β → σ → σ → Prop} (h : Couples R E Q p q)
    (hR : ∀ {s t}, R' s t → R s t) (hQ : ∀ {a b s t}, Q a b s t → Q' a b s t) :
    Couples R' E Q' p q := by
  intro s t hst
  rcases h s t (hR hst) with ⟨a, b, s', t', hp, hq, hab⟩ | hfail
  · exact Or.inl ⟨a, b, s', t', hp, hq, hQ hab⟩
  · exact Or.inr hfail

/-- What holds of every value of the first program. -/
theorem and_left {V : α → Prop} (h : Couples R E Q p q)
    (hV : ∀ {a s s'}, p.exec s = (.ok a, s') → V a) :
    Couples R E (fun a b s t => V a ∧ Q a b s t) p q := by
  intro s t hst
  rcases h s t hst with ⟨a, b, s', t', hp, hq, hab⟩ | hfail
  · exact Or.inl ⟨a, b, s', t', hp, hq, hV hp, hab⟩
  · exact Or.inr hfail

theorem ite {c : Prop} [Decidable c] {p' : Prog σ ε α} {q' : Prog σ ε β}
    (h : Couples R E Q p q) (h' : Couples R E Q p' q') :
    Couples R E Q (if c then p else p') (if c then q else q') := by
  split
  · exact h
  · exact h'

end Couples

/-! ### Programs with a record on the side -/

variable {γ : Type}

/-- The program with a record that no section reads: `note i` is what section `i`, which finds
the state `s`, adds to it. -/
def annotate (note : Nat → σ → γ → γ) : Nat → Prog σ ε α → Prog (σ × γ) ε α
  | _, .done a => .done a
  | _, .fail e => .fail e
  | i, .atomic act next =>
    .atomic (fun s => (act s.1, note i s.1 s.2)) fun s => (next s.1).annotate note (i + 1)

end Prog

end Lib
