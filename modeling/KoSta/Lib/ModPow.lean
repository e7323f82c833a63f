import Mathlib.Algebra.Group.Int.Defs
import Mathlib.Algebra.Group.Nat.Defs
import Mathlib.Tactic.Common
import KoSta.Lib.Endian

/-! Modular exponentiation by repeated squaring. -/
namespace Lib

/-- `b ^ e % m` for exponents of at most `k` bits. -/
def modPowBits (m : Nat) : Nat → Nat → Nat → Nat
  | 0, _, _ => 1 % m
  | k + 1, b, e =>
    let rest := modPowBits m k (b * b % m) (e / 2)
    if e % 2 = 1 then b * rest % m else rest

def modPow (b e m : Nat) : Nat := modPowBits m (bitLength e) b e

theorem modPowBits_eq (m : Nat) : ∀ (k b e : Nat), e < 2 ^ k → modPowBits m k b e = b ^ e % m
  | 0, b, e, h => by
    have he : e = 0 := by simpa using h
    simp [modPowBits, he]
  | k + 1, b, e, h => by
    have hhalf : e / 2 < 2 ^ k := by
      rw [Nat.pow_succ] at h
      omega
    have hrest : modPowBits m k (b * b % m) (e / 2) = b ^ (2 * (e / 2)) % m := by
      rw [modPowBits_eq m k _ _ hhalf, Nat.pow_mul, Nat.pow_two, ← Nat.pow_mod]
    rw [modPowBits, hrest]
    by_cases hodd : e % 2 = 1
    · rw [if_pos hodd, Nat.mul_mod_mod, Nat.mul_comm, ← Nat.pow_succ]
      congr 2
      omega
    · rw [if_neg hodd]
      congr 2
      omega

theorem modPow_eq (b e m : Nat) : modPow b e m = b ^ e % m :=
  modPowBits_eq m _ b e (lt_two_pow_bitLength e)

end Lib
