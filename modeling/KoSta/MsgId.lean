import KoSta.Platform
import KoSta.Tl.Types

/-! Message identifiers: a clock reading in the upper half, a counter in the lower half. -/
namespace KoSta
open Lib Tl

/-- `(now.as_millis() as i64) << 32`, for a clock reading in milliseconds. -/
def timePart (now : Nat) : Int64 := Int64.ofNat now <<< 32

def msgId (now : Nat) (counter : UInt32) : Int64 := timePart now ||| counter.toUInt64.toInt64

/-- Both sides' `((msg_id - now_msg_id) >> 32).abs()`; `none` is the overflow panic. -/
def clockDiff [Platform] (id : Int64) (now : Nat) : Option Int64 := do
  let diff ← subI64 id (timePart now)
  return (diff >>> 32).abs

/-- The plaintext of an encrypted message: identifier, sequence number, boxed object. -/
def withHeader (id : Int64) (seqNo : Int32) (data : Bytes) : Bytes :=
  writeBytes id ++ (writeBytes seqNo ++ data)

def readHeader : Reader Tl.Error (Int64 × Int32) := do
  let id : Int64 ← readBytes
  let seqNo : Int32 ← readBytes
  return (id, seqNo)

/-! ### Order of the identifiers -/

theorem toNat_timePart (now : Nat) :
    (timePart now).toUInt64.toNat = now % 2 ^ 32 * 2 ^ 32 := by
  change (BitVec.ofNat 64 now <<< (BitVec.ofNat 64 32).smod 64).toNat = _
  have hs : (BitVec.ofNat 64 32).smod 64 = 32#64 := by decide
  rw [hs, BitVec.shiftLeft_eq', BitVec.toNat_shiftLeft, BitVec.toNat_ofNat, Nat.shiftLeft_eq]
  change now % 2 ^ 64 * 2 ^ 32 % 2 ^ 64 = _
  omega

theorem toNat_msgId (now : Nat) (counter : UInt32) :
    (msgId now counter).toUInt64.toNat = now % 2 ^ 32 * 2 ^ 32 + counter.toNat := by
  have hc := counter.toNat_lt
  have hor : (msgId now counter).toUInt64.toNat =
      (timePart now).toUInt64.toNat ||| counter.toUInt64.toNat := rfl
  rw [hor, toNat_timePart, UInt32.toNat_toUInt64, ← Nat.shiftLeft_eq,
    Nat.shiftLeft_add_eq_or_of_lt hc]

theorem toInt_eq_toNat (x : Int64) : x.toInt =
    if x.toUInt64.toNat < 2 ^ 63 then (x.toUInt64.toNat : Int) else x.toUInt64.toNat - 2 ^ 64 := by
  have hbits : x.toUInt64.toNat = x.toBitVec.toNat := rfl
  rw [← Int64.toInt_toBitVec, BitVec.toInt_eq_toNat_cond, hbits]
  split <;> split <;> omega

/-- Every identifier has a clock reading at which it is current. -/
theorem clockDiff_own [Platform] (id : Int64) :
    clockDiff id (id.toUInt64.toNat / 2 ^ 32) = some 0 := by
  have hlt : id.toUInt64.toNat < 2 ^ 64 := id.toUInt64.toNat_lt
  have htime := toNat_timePart (id.toUInt64.toNat / 2 ^ 32)
  generalize hy : timePart (id.toUInt64.toNat / 2 ^ 32) = y at htime
  have hsub : (id - y).toUInt64.toNat = id.toUInt64.toNat % 2 ^ 32 := by
    change (id.toUInt64 - y.toUInt64).toNat = _
    rw [UInt64.toNat_sub_of_le, htime]
    · omega
    · rw [UInt64.le_iff_toNat_le, htime]
      omega
  have hint : (id - y).toInt = id.toUInt64.toNat % 2 ^ 32 := by
    rw [toInt_eq_toNat, hsub, if_pos (by omega)]
    omega
  have hshift : (id - y) >>> 32 = 0 := by
    apply Int64.toInt_inj.mp
    have hs : (BitVec.ofNat 64 32).smod 64 = 32#64 := by decide
    change (BitVec.sshiftRight' (id - y).toBitVec ((BitVec.ofNat 64 32).smod 64)).toInt = 0
    rw [hs, BitVec.toInt_sshiftRight', Int64.toInt_toBitVec, hint, Int.shiftRight_eq_div_pow]
    change _ / ((2 ^ 32 : Nat) : Int) = 0
    omega
  have hexact : (id - y).toInt = id.toInt - y.toInt := by
    rw [hint, toInt_eq_toNat, toInt_eq_toNat, htime]
    split <;> split <;> omega
  unfold clockDiff subI64
  rw [hy, if_neg fun h => h.2 hexact]
  exact congrArg (fun diff : Int64 => some diff.abs) hshift

theorem msgId_pos_iff (now : Nat) (counter : UInt32) : 0 < msgId now counter ↔
    now % 2 ^ 32 < 2 ^ 31 ∧ (now % 2 ^ 32 ≠ 0 ∨ counter ≠ 0) := by
  have hc := counter.toNat_lt
  have hne : counter ≠ 0 ↔ counter.toNat ≠ 0 := not_congr UInt32.toNat_inj.symm
  have hzero : (0 : Int64).toInt = 0 := rfl
  rw [Int64.lt_iff_toInt_lt, hzero, toInt_eq_toNat, toNat_msgId, hne]
  split <;> omega

theorem msgId_lt_iff {now now' : Nat} {c c' : UInt32} (hnow : now % 2 ^ 32 < 2 ^ 31)
    (hnow' : now' % 2 ^ 32 < 2 ^ 31) (hc : c < c') :
    msgId now c < msgId now' c' ↔ now % 2 ^ 32 ≤ now' % 2 ^ 32 := by
  have h := c.toNat_lt
  have h' := c'.toNat_lt
  have hlt : c.toNat < c'.toNat := hc
  rw [Int64.lt_iff_toInt_lt, toInt_eq_toNat, toInt_eq_toNat, toNat_msgId, toNat_msgId,
    if_pos (by omega), if_pos (by omega)]
  omega

/-! ### A sender's run -/

/-- The receiver's check over a run delivered in order: no identifier at or below the last. -/
def receiverAccepts : Int64 → List Int64 → Prop
  | _, [] => True
  | last, id :: ids => ¬ id ≤ last ∧ receiverAccepts id ids

/-- What the other side needs of the identifiers a sender writes, oldest first. -/
structure Increasing (ids : List Int64) : Prop where
  sorted : ids.Pairwise (· < ·)
  positive : ∀ id ∈ ids, 0 < id
  accepted : receiverAccepts 0 ids

/-- Clock readings whose low 32 bits stay below 2^31, never fall back and do not start with
an all-zero identifier. -/
structure OrderedReadings (sends : List (Nat × UInt32)) : Prop where
  below : ∀ p ∈ sends, p.1 % 2 ^ 32 < 2 ^ 31
  sorted : sends.Pairwise fun p q => p.1 % 2 ^ 32 ≤ q.1 % 2 ^ 32
  first : ∀ p ∈ sends.head?, p.1 % 2 ^ 32 ≠ 0 ∨ p.2 ≠ 0

def idsOf (sends : List (Nat × UInt32)) : List Int64 := sends.map fun p => msgId p.1 p.2

theorem receiverAccepts_of_sorted {last : Int64} {ids : List Int64}
    (h : (last :: ids).Pairwise (· < ·)) : receiverAccepts last ids := by
  induction ids generalizing last with
  | nil => trivial
  | cons id ids ih =>
    obtain ⟨hlast, hids⟩ := List.pairwise_cons.mp h
    exact ⟨Int64.not_le.mpr (hlast id List.mem_cons_self), ih hids⟩

theorem increasing_of_positive {ids : List Int64} (hsorted : ids.Pairwise (· < ·))
    (hpos : ∀ id ∈ ids, 0 < id) : Increasing ids where
  sorted := hsorted
  positive := hpos
  accepted := receiverAccepts_of_sorted (List.pairwise_cons.mpr ⟨hpos, hsorted⟩)

/-- A larger counter is not zero, so only the first identifier of a run can be. -/
theorem counter_ne_zero {p : Nat × UInt32} {sends : List (Nat × UInt32)}
    (hc : (p :: sends).Pairwise fun p q => p.2 < q.2) {q : Nat × UInt32} (hq : q ∈ sends) :
    q.2 ≠ 0 := by
  have hlt := (List.pairwise_cons.mp hc).1 q hq
  rintro h
  rw [h] at hlt
  exact absurd hlt (UInt32.not_lt.mpr UInt32.zero_le)

theorem increasing_iff (sends : List (Nat × UInt32))
    (hc : sends.Pairwise fun p q => p.2 < q.2) :
    Increasing (idsOf sends) ↔ OrderedReadings sends := by
  have hmem (p) (hp : p ∈ sends) : msgId p.1 p.2 ∈ idsOf sends :=
    List.mem_map_of_mem (f := fun p : Nat × UInt32 => msgId p.1 p.2) hp
  constructor
  · intro h
    have hpos (p) (hp : p ∈ sends) := (msgId_pos_iff p.1 p.2).mp (h.positive _ (hmem p hp))
    refine ⟨fun p hp => (hpos p hp).1, ?_, fun p hp => (hpos p (List.mem_of_mem_head? hp)).2⟩
    have hids := List.pairwise_map.mp h.sorted
    refine (hids.and hc).imp_of_mem fun hp hq hpq => ?_
    exact (msgId_lt_iff (hpos _ hp).1 (hpos _ hq).1 hpq.2).mp hpq.1
  · intro h
    refine increasing_of_positive (List.pairwise_map.mpr ?_) ?_
    · refine (h.sorted.and hc).imp_of_mem fun hp hq hpq => ?_
      exact (msgId_lt_iff (h.below _ hp) (h.below _ hq) hpq.2).mpr hpq.1
    · rintro id hid
      obtain ⟨p, hp, rfl⟩ := List.mem_map.mp hid
      refine (msgId_pos_iff p.1 p.2).mpr ⟨h.below p hp, ?_⟩
      cases sends with
      | nil => cases hp
      | cons q sends =>
        rcases List.mem_cons.mp hp with rfl | hp
        · exact h.first p rfl
        · exact Or.inr (counter_ne_zero hc hp)

end KoSta
