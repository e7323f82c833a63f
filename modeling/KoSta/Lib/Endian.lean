import KoSta.Lib.Reader

/-! Fixed-width and minimal byte forms of natural numbers. -/
namespace Lib

/-- The low `k` bytes of `n`, least significant first. -/
def leBytes : Nat → Nat → Bytes
  | 0, _ => []
  | k + 1, n => UInt8.ofNat n :: leBytes k (n / 256)

def ofLeBytes : Bytes → Nat
  | [] => 0
  | b :: bs => b.toNat + 256 * ofLeBytes bs

@[simp] theorem length_leBytes (k n : Nat) : (leBytes k n).length = k := by
  induction k generalizing n with
  | zero => rfl
  | succ k ih => simp [leBytes, ih]

theorem ofLeBytes_leBytes (k n : Nat) : ofLeBytes (leBytes k n) = n % 256 ^ k := by
  induction k generalizing n with
  | zero => simp [leBytes, ofLeBytes, Nat.mod_one]
  | succ k ih =>
    rw [leBytes, ofLeBytes, ih, UInt8.toNat_ofNat', Nat.pow_succ 256 k, Nat.mul_comm (256 ^ k),
      Nat.mod_mul]

theorem ofLeBytes_leBytes_of_lt {k n : Nat} (h : n < 256 ^ k) : ofLeBytes (leBytes k n) = n := by
  rw [ofLeBytes_leBytes, Nat.mod_eq_of_lt h]

theorem ofLeBytes_lt (bs : Bytes) : ofLeBytes bs < 256 ^ bs.length := by
  induction bs with
  | nil => simp [ofLeBytes]
  | cons b bs ih =>
    have hb := b.toNat_lt
    rw [ofLeBytes, List.length_cons, Nat.pow_succ]
    omega

theorem leBytes_ofLeBytes (bs : Bytes) : leBytes bs.length (ofLeBytes bs) = bs := by
  induction bs with
  | nil => rfl
  | cons b bs ih =>
    have hb := b.toNat_lt
    have hhead : UInt8.ofNat (b.toNat + 256 * ofLeBytes bs) = b := by
      apply UInt8.toNat_inj.mp
      rw [UInt8.toNat_ofNat']
      omega
    have htail : (b.toNat + 256 * ofLeBytes bs) / 256 = ofLeBytes bs := by omega
    rw [List.length_cons, leBytes, ofLeBytes, hhead, htail, ih]

/-! ### Minimal forms -/

def bitLength (n : Nat) : Nat := if n = 0 then 0 else Nat.log2 n + 1

theorem lt_two_pow_bitLength (n : Nat) : n < 2 ^ bitLength n := by
  unfold bitLength
  split
  · omega
  · exact Nat.lt_log2_self

theorem bitLength_le {n k : Nat} (h : n < 2 ^ k) : bitLength n ≤ k := by
  unfold bitLength
  split
  · omega
  · exact (Nat.log2_lt ‹_›).mpr h

def byteLength (n : Nat) : Nat := max 1 ((bitLength n + 7) / 8)

theorem lt_pow_byteLength (n : Nat) : n < 256 ^ byteLength n := by
  have h := lt_two_pow_bitLength n
  have hle : 2 ^ bitLength n ≤ 2 ^ (8 * byteLength n) :=
    Nat.pow_le_pow_right (by omega) (by unfold byteLength; omega)
  rw [Nat.pow_mul] at hle
  exact Nat.lt_of_lt_of_le h hle

theorem byteLength_le {n k : Nat} (hk : 0 < k) (h : n < 256 ^ k) : byteLength n ≤ k := by
  have hb : bitLength n ≤ 8 * k := bitLength_le (by rw [Nat.pow_mul]; exact h)
  unfold byteLength
  omega

/-- As few bytes as hold `n`, and one for zero, least significant first. -/
def toBytesLe (n : Nat) : Bytes := leBytes (byteLength n) n

def toBytesBe (n : Nat) : Bytes := (toBytesLe n).reverse

def fromBytesLe (bs : Bytes) : Nat := ofLeBytes bs

def fromBytesBe (bs : Bytes) : Nat := ofLeBytes bs.reverse

theorem length_toBytesBe (n : Nat) : (toBytesBe n).length = byteLength n := by
  simp [toBytesBe, toBytesLe]

@[simp] theorem fromBytesBe_toBytesBe (n : Nat) : fromBytesBe (toBytesBe n) = n := by
  rw [fromBytesBe, toBytesBe, List.reverse_reverse, toBytesLe]
  exact ofLeBytes_leBytes_of_lt (lt_pow_byteLength n)

end Lib
