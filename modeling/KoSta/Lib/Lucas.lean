import KoSta.Lib.ModPow
import Mathlib.NumberTheory.LucasPrimality

/-! The primality test of Lucas, on exponentiation by repeated squaring. -/
namespace Lib

theorem natCast_modPow (a e n : Nat) : ((modPow a e n : Nat) : ZMod n) = (a : ZMod n) ^ e := by
  rw [modPow_eq, ZMod.natCast_mod, Nat.cast_pow]

theorem modPow_eq_one_iff {n : Nat} (hn : 1 < n) (a e : Nat) :
    modPow a e n = 1 ↔ (a : ZMod n) ^ e = 1 := by
  have hlt : modPow a e n < n := by
    rw [modPow_eq]
    exact Nat.mod_lt _ (by omega)
  have hcast := ZMod.natCast_eq_natCast_iff' (modPow a e n) 1 n
  rw [Nat.mod_eq_of_lt hlt, Nat.mod_eq_of_lt hn, natCast_modPow, Nat.cast_one] at hcast
  exact hcast.symm

/-- A number with a residue of order one less than itself is prime. -/
theorem prime_of_modPow {n : Nat} (hn : 1 < n) (a : Nat) (hone : modPow a (n - 1) n = 1)
    (hne : ∀ q, q.Prime → q ∣ n - 1 → modPow a ((n - 1) / q) n ≠ 1) : n.Prime := by
  refine lucas_primality n a ((modPow_eq_one_iff hn a _).mp hone) fun q hq hdvd heq => ?_
  exact hne q hq hdvd ((modPow_eq_one_iff hn a _).mpr heq)

end Lib
