import KoSta.MsgId
import Mathlib.Algebra.Order.Group.Int
import Mathlib.Algebra.Order.Group.Abs

/-! The timestamp test over two clocks: where it overflows and where it takes one reading for
another. -/
namespace KoSta
open Lib Tl

/-- A clock reading as the upper half of an identifier holds it: its low 32 bits, signed. -/
def signedLow (now : Nat) : Int :=
  if now % 2 ^ 32 < 2 ^ 31 then (now % 2 ^ 32 : Nat) else (now % 2 ^ 32 : Nat) - 2 ^ 32

theorem signedLow_bounds (now : Nat) : -2 ^ 31 ≤ signedLow now ∧ signedLow now < 2 ^ 31 := by
  unfold signedLow
  split <;> omega

theorem exists_signedLow (now : Nat) : ∃ k : Int, (now : Int) = signedLow now + k * 2 ^ 32 := by
  unfold signedLow
  split
  · exact ⟨(now / 2 ^ 32 : Nat), by omega⟩
  · exact ⟨(now / 2 ^ 32 : Nat) + 1, by omega⟩

theorem toInt_of_halves {x : Int64} {now low : Nat} (hlow : low < 2 ^ 32)
    (h : x.toUInt64.toNat = now % 2 ^ 32 * 2 ^ 32 + low) :
    x.toInt = signedLow now * 2 ^ 32 + low := by
  rw [toInt_eq_toNat, h, signedLow]
  split <;> split <;> omega

theorem toInt_timePart (now : Nat) : (timePart now).toInt = signedLow now * 2 ^ 32 := by
  have h : (timePart now).toInt = signedLow now * 2 ^ 32 + (0 : Nat) :=
    toInt_of_halves (by decide) (by rw [toNat_timePart, Nat.add_zero])
  simpa using h

theorem toInt_msgId (now : Nat) (counter : UInt32) :
    (msgId now counter).toInt = signedLow now * 2 ^ 32 + counter.toNat :=
  toInt_of_halves counter.toNat_lt (toNat_msgId now counter)

theorem toInt_shiftRight_32 (x : Int64) : (x >>> 32).toInt = x.toInt / 2 ^ 32 := by
  have hs : (BitVec.ofNat 64 32).smod 64 = 32#64 := by decide
  change (BitVec.sshiftRight' x.toBitVec ((BitVec.ofNat 64 32).smod 64)).toInt = _
  rw [hs, BitVec.toInt_sshiftRight', Int64.toInt_toBitVec, Int.shiftRight_eq_div_pow]
  rfl

theorem toInt_abs {x : Int64} (h : x.toInt ≠ -2 ^ 63) : x.abs.toInt = x.toInt.natAbs := by
  change x.toBitVec.abs.toInt = _
  rw [BitVec.toInt_abs_eq_natAbs_of_ne_intMin, Int64.toInt_toBitVec]
  intro hmin
  apply h
  rw [← Int64.toInt_toBitVec, hmin]
  rfl

/-- The subtraction of the test stays within an `i64`. -/
def SubtractionFits (id : Int64) (now : Nat) : Prop :=
  (id - timePart now).toInt = id.toInt - (timePart now).toInt

theorem subtractionFits_iff (ts tr : Nat) (counter : UInt32) :
    SubtractionFits (msgId ts counter) tr ↔
      -2 ^ 31 ≤ signedLow ts - signedLow tr ∧ signedLow ts - signedLow tr < 2 ^ 31 := by
  have hc := counter.toNat_lt
  have hlo := Int64.le_toInt (msgId ts counter - timePart tr)
  have hhi := Int64.toInt_lt (msgId ts counter - timePart tr)
  unfold SubtractionFits
  constructor
  · intro hfits
    rw [hfits, toInt_msgId, toInt_timePart] at hlo hhi
    omega
  · intro ⟨hlow, hhigh⟩
    rw [Int64.toInt_sub, toInt_msgId, toInt_timePart]
    apply Int.bmod_eq_of_le
    · omega
    · omega

/-- Where it fits, the test compares the readings as signed numbers of 32 bits. -/
theorem clockDiff_of_fits [Platform] {ts tr : Nat} {counter : UInt32}
    (hfits : SubtractionFits (msgId ts counter) tr) :
    ∃ diff, clockDiff (msgId ts counter) tr = some diff ∧
      diff.toInt = (signedLow ts - signedLow tr).natAbs := by
  have hc := counter.toNat_lt
  have hts := signedLow_bounds ts
  have htr := signedLow_bounds tr
  have hdiff : ((msgId ts counter - timePart tr) >>> 32).toInt
      = signedLow ts - signedLow tr := by
    rw [toInt_shiftRight_32, hfits, toInt_msgId, toInt_timePart]
    omega
  refine ⟨((msgId ts counter - timePart tr) >>> 32).abs, ?_, ?_⟩
  · unfold clockDiff subI64
    rw [if_neg fun h => h.2 hfits]
    rfl
  · rw [toInt_abs, hdiff]
    rw [hdiff]
    omega

/-- What is asked of the test: no overflow, and thirty seconds either way. -/
def JudgesClocks [Platform] (ts tr : Nat) (counter : UInt32) : Prop :=
  SubtractionFits (msgId ts counter) tr ∧
    ∃ diff, clockDiff (msgId ts counter) tr = some diff ∧
      (¬ diff > 30000 ↔ |(ts : Int) - tr| ≤ 30000)

/-- The readings lie within 2^31 of each other as signed numbers, and no 2^32 milliseconds apart,
give or take thirty seconds. -/
structure Comparable (ts tr : Nat) : Prop where
  near : -2 ^ 31 ≤ signedLow ts - signedLow tr ∧ signedLow ts - signedLow tr < 2 ^ 31
  apart : ∀ k : Int, k ≠ 0 → 30000 < |(ts : Int) - tr - k * 2 ^ 32|

theorem judgesClocks_iff [Platform] (ts tr : Nat) (counter : UInt32) :
    JudgesClocks ts tr counter ↔ Comparable ts tr := by
  obtain ⟨j, hts⟩ := exists_signedLow ts
  obtain ⟨k, htr⟩ := exists_signedLow tr
  constructor
  · rintro ⟨hfits, diff, hdiff, hjudge⟩
    have hnear := (subtractionFits_iff ts tr counter).mp hfits
    obtain ⟨diff', hdiff', hval⟩ := clockDiff_of_fits hfits
    rw [hdiff] at hdiff'
    cases hdiff'
    rw [Int64.not_lt, Int64.le_iff_toInt_le, hval] at hjudge
    change ((signedLow ts - signedLow tr).natAbs : Int) ≤ 30000 ↔ _ at hjudge
    refine ⟨hnear, ?_⟩
    intro m hm
    by_contra hclose
    rw [not_lt, abs_le] at hclose
    have hfar : ¬ |(ts : Int) - tr| ≤ 30000 := by
      rw [abs_le]
      omega
    have hm' : j - k = m := by omega
    apply hfar
    apply hjudge.mp
    omega
  · rintro ⟨hnear, hapart⟩
    have hfits := (subtractionFits_iff ts tr counter).mpr hnear
    obtain ⟨diff, hdiff, hval⟩ := clockDiff_of_fits hfits
    refine ⟨hfits, diff, hdiff, ?_⟩
    rw [Int64.not_lt, Int64.le_iff_toInt_le, hval, abs_le]
    change ((signedLow ts - signedLow tr).natAbs : Int) ≤ 30000 ↔ _
    constructor
    · intro hle
      by_cases hturn : j = k
      · omega
      · have hfar := hapart (j - k) (by omega)
        have hclose : |(ts : Int) - tr - (j - k) * 2 ^ 32| ≤ 30000 := by
          rw [abs_le]
          omega
        omega
    · intro hle
      omega

/-- Two readings a millisecond apart, on either side of an odd multiple of 2^31. -/
theorem not_judgesClocks :
    @clockDiff (Platform.constant true) (msgId 1737314271231 0) 1737314271232 = none ∧
      ¬ @JudgesClocks (Platform.constant true) 1737314271231 1737314271232 0 := by
  have hpanic :
      @clockDiff (Platform.constant true) (msgId 1737314271231 0) 1737314271232 = none := by
    decide +kernel
  refine ⟨hpanic, ?_⟩
  rintro ⟨-, diff, hdiff, -⟩
  rw [hpanic] at hdiff
  cases hdiff

end KoSta
