import KoSta.Lib.Reader

/-! Reading from a stream whose reads may time out: what a failed read had taken is gone. -/
namespace Lib

/-- What a stream hands over, in order: a byte, or a read that times out. Behind the last item
the stream has ended. -/
abbrev Arrivals := List (Option UInt8)

/-- Bytes that come in without a stall. -/
def arriving (bs : Bytes) : Arrivals := bs.map some

inductive Interruption (ε : Type) where
  | timedOut
  | error (e : ε)
  deriving DecidableEq, Repr

abbrev Stalling (ε α : Type) := ExceptT (Interruption ε) (StateM Arrivals) α

namespace Stalling

variable {ε α β : Type} {m : Stalling ε α} {k : α → Stalling ε β} {s s' : Arrivals}

def next (eof : ε) : Stalling ε UInt8 := ExceptT.mk fun
  | [] => (.error (.error eof), [])
  | none :: s => (.error .timedOut, s)
  | some b :: s => (.ok b, s)

/-- Fill a buffer of exactly `n` bytes. -/
def exact (eof : ε) : Nat → Stalling ε Bytes
  | 0 => pure []
  | n + 1 => do
    let b ← next eof
    let bs ← exact eof n
    return b :: bs

theorem run_bind_of_ok {a : α} (h : m.run s = (.ok a, s')) : (m >>= k).run s = (k a).run s' := by
  change (ExceptT.bindCont k (m.run s).1) (m.run s).2 = _
  rw [h]
  rfl

theorem run_bind_of_error {e : Interruption ε} (h : m.run s = (.error e, s')) :
    (m >>= k).run s = (.error e, s') := by
  change (ExceptT.bindCont k (m.run s).1) (m.run s).2 = _
  rw [h]
  rfl

/-- A buffer is filled, or the stream stalls or ends before it is. -/
theorem exact_cases (eof : ε) (n : Nat) (s : Arrivals) :
    (∃ x s', x.length = n ∧ s = arriving x ++ s' ∧ (exact eof n).run s = (.ok x, s')) ∨
    (∃ x s', x.length < n ∧ s = arriving x ++ none :: s' ∧
      (exact eof n).run s = (.error .timedOut, s')) ∨
    ∃ x, x.length < n ∧ s = arriving x ∧ (exact eof n).run s = (.error (.error eof), []) := by
  induction n generalizing s with
  | zero => exact .inl ⟨[], s, rfl, rfl, rfl⟩
  | succ n ih =>
    rcases s with _ | ⟨_ | b, s⟩
    · exact .inr (.inr ⟨[], Nat.succ_pos n, rfl, rfl⟩)
    · exact .inr (.inl ⟨[], s, Nat.succ_pos n, rfl, rfl⟩)
    · have hnext : (next eof).run (some b :: s) = (.ok b, s) := rfl
      rcases ih s with ⟨x, s', hx, rfl, hrun⟩ | ⟨x, s', hx, rfl, hrun⟩ | ⟨x, hx, rfl, hrun⟩
      · refine .inl ⟨b :: x, s', congrArg Nat.succ hx, rfl, ?_⟩
        exact (run_bind_of_ok hnext).trans (run_bind_of_ok hrun)
      · refine .inr (.inl ⟨b :: x, s', Nat.succ_lt_succ hx, rfl, ?_⟩)
        exact (run_bind_of_ok hnext).trans (run_bind_of_error hrun)
      · refine .inr (.inr ⟨b :: x, Nat.succ_lt_succ hx, rfl, ?_⟩)
        exact (run_bind_of_ok hnext).trans (run_bind_of_error hrun)

/-! ### Against a reader of the whole input -/

/-- How a run over arrivals ends, told by a reader of the bytes it took: with the value, with a
time-out or the end of the stream where the reader lacks bytes, or with the reader's own error. -/
inductive Ending (r : Reader ε α) (eof : ε) : Arrivals → Except (Interruption ε) α × Arrivals → Prop
  | ok {x : Bytes} {a : α} {s : Arrivals} : (∀ rest, r.run (x ++ rest) = .ok a rest) →
    Ending r eof (arriving x ++ s) (.ok a, s)
  | stalled {x : Bytes} {s : Arrivals} : r.run x = .err eof →
    Ending r eof (arriving x ++ none :: s) (.error .timedOut, s)
  | ended {x : Bytes} : r.run x = .err eof → Ending r eof (arriving x) (.error (.error eof), [])
  | refused {x : Bytes} {e : ε} {s : Arrivals} : (∀ rest, r.run (x ++ rest) = .err e) →
    Ending r eof (arriving x ++ s) (.error (.error e), s)

def Mirrors (eof : ε) (m : Stalling ε α) (r : Reader ε α) : Prop :=
  ∀ s, Ending r eof s (m.run s)

namespace Mirrors

variable {eof : ε} {r : Reader ε α} {q : α → Reader ε β}

theorem pure (a : α) : Mirrors eof (Pure.pure a) (Pure.pure a : Reader ε α) := by
  intro s
  exact .ok (x := []) fun _ => rfl

theorem fail (e : ε) : Mirrors eof (throw (.error e)) (Reader.fail e : Reader ε α) := by
  intro s
  exact .refused (x := []) fun _ => rfl

theorem ite {c : Prop} [Decidable c] {n : Stalling ε α} {t : Reader ε α} (hm : Mirrors eof m r)
    (hn : Mirrors eof n t) : Mirrors eof (if c then m else n) (if c then r else t) := by
  split
  · exact hm
  · exact hn

theorem bind (hm : Mirrors eof m r) (hk : ∀ a, Mirrors eof (k a) (q a)) :
    Mirrors eof (m >>= k) (r >>= q) := by
  intro s
  have hfirst := hm s
  generalize hrun : m.run s = end₁ at hfirst
  cases hfirst with
  | stalled hr =>
    rw [run_bind_of_error hrun]
    refine .stalled ?_
    rw [Reader.run_bind, hr]
  | ended hr =>
    rw [run_bind_of_error hrun]
    refine .ended ?_
    rw [Reader.run_bind, hr]
  | refused hr =>
    rw [run_bind_of_error hrun]
    refine .refused fun rest => ?_
    rw [Reader.run_bind, hr]
  | ok hr =>
    rename_i x a s
    rw [run_bind_of_ok hrun]
    have hsecond := hk a s
    generalize (k a).run s = end₂ at hsecond
    have hjoin (y : Bytes) (t : Arrivals) :
        arriving x ++ (arriving y ++ t) = arriving (x ++ y) ++ t := by
      simp [arriving]
    cases hsecond with
    | ok hq =>
      rw [hjoin]
      refine .ok fun rest => ?_
      rw [List.append_assoc, Reader.run_bind_of_ok (hr _)]
      exact hq rest
    | stalled hq =>
      rw [hjoin]
      refine .stalled ?_
      rw [Reader.run_bind_of_ok (hr _)]
      exact hq
    | ended hq =>
      have hend := hjoin ‹Bytes› []
      rw [List.append_nil, List.append_nil] at hend
      rw [hend]
      refine .ended ?_
      rw [Reader.run_bind_of_ok (hr _)]
      exact hq
    | refused hq =>
      rw [hjoin]
      refine .refused fun rest => ?_
      rw [List.append_assoc, Reader.run_bind_of_ok (hr _)]
      exact hq rest

theorem exact (n : Nat) : Mirrors eof (Stalling.exact eof n)
    (Reader.exact eof n >>= fun v => Pure.pure v.toList) := by
  have hfew {x : Bytes} (hx : x.length < n) :
      (Reader.exact eof n >>= fun v => Pure.pure v.toList).run x = .err eof := by
    have hread : (Reader.exact eof n).run x = .err eof := dif_neg (Nat.not_le.mpr hx)
    rw [Reader.run_bind, hread]
  intro s
  rcases exact_cases eof n s with ⟨x, s', hx, rfl, hrun⟩ | ⟨x, s', hx, rfl, hrun⟩ |
    ⟨x, hx, rfl, hrun⟩
  · rw [hrun]
    refine .ok fun rest => ?_
    obtain ⟨v, rfl⟩ := Reader.exists_vector hx
    exact Reader.run_bind_of_ok (Reader.run_exact_append eof v rest)
  · rw [hrun]
    exact .stalled (hfew hx)
  · rw [hrun]
    exact .ended (hfew hx)

end Mirrors

end Stalling

end Lib
