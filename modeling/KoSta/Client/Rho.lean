import KoSta.Client.Factor
import KoSta.Lib.Lucas
import Mathlib.Tactic.NormNum.Prime

/-! How the rho loop of `factor_pq` ends, and what is left of `factor_pq` without it. -/
namespace KoSta.Client
open Lib

variable {n c k attempt : Nat} {r : Rho} {s : RhoStart} {draws : FactorDraws}

/-! ### The loop -/

/-- The difference that is compared with `n` in iteration `i`. -/
def compared (n : Nat) (s : RhoStart) (i : Nat) : Nat :=
  let r := (Rho.next n s.c)^[i + 1] (Rho.start s)
  absDiff r.x r.y

/-- The first common divisor with `n`, and the iteration it belongs to. -/
structure FirstCommon (n : Nat) (s : RhoStart) (i g : Nat) : Prop where
  within : i < maxIter
  common : Nat.gcd (compared n s i) n = g
  ne_one : g ≠ 1
  first : ∀ j < i, Nat.gcd (compared n s j) n = 1

/-- The loop ends with the first common divisor, and `factor_pq` with two primes if these are
what it splits `n` into. -/
def FindsFactors (draws : FactorDraws) (n attempt : Nat) : Prop :=
  ∀ i g, FirstCommon n (draws.starts attempt) i g →
    (rho n (draws.starts attempt)).iteration = i + 1 ∧ (rho n (draws.starts attempt)).d = g ∧
      (1 < g → g < n → g.Prime → (n / g).Prime →
        factorPq draws n = .ok (toBytesBe (min g (n / g)), toBytesBe (max g (n / g))))

/-- The greatest common divisor is taken with the `d` of the round before, which is one. -/
theorem next_d (h : r.d = 1) : (r.next n c).d = 1 := by
  change Nat.gcd r.d _ = 1
  rw [h, Nat.gcd_one_left]

theorem run_d (h : r.d = 1) (k : Nat) :
    (r.run n c k).d = 1 ∧ (r.run n c k).iteration = r.iteration + k := by
  induction k generalizing r with
  | zero => exact ⟨h, rfl⟩
  | succ k ih =>
    unfold Rho.run
    rw [if_pos h]
    obtain ⟨hd, hiteration⟩ := ih (next_d (n := n) (c := c) h)
    refine ⟨hd, hiteration.trans ?_⟩
    change r.iteration + 1 + k = r.iteration + (k + 1)
    omega

/-- The loop never ends before its last iteration. -/
theorem rho_ends (n : Nat) (s : RhoStart) : (rho n s).d = 1 ∧ (rho n s).iteration = maxIter := by
  obtain ⟨hd, hiteration⟩ := run_d (n := n) (c := s.c) (r := Rho.start s) rfl maxIter
  exact ⟨hd, hiteration.trans (Nat.zero_add _)⟩

theorem rhoFactors_none (draws : FactorDraws) (n attempt : Nat) :
    rhoFactors draws n attempt = none := by
  unfold rhoFactors
  dsimp only
  rw [(rho_ends n _).1, if_neg fun h => h.1 rfl]

/-- The loop does what it is for exactly where there is nothing to find. -/
theorem findsFactors_iff (draws : FactorDraws) (n attempt : Nat) :
    FindsFactors draws n attempt ↔
      ∀ i < maxIter, Nat.gcd (compared n (draws.starts attempt) i) n = 1 := by
  constructor
  · intro hfinds
    by_contra hnot
    have hex : ∃ i, i < maxIter ∧ Nat.gcd (compared n (draws.starts attempt) i) n ≠ 1 := by
      push Not at hnot
      exact hnot
    obtain ⟨hwithin, hne⟩ := Nat.find_spec hex
    have hfirst : FirstCommon n (draws.starts attempt) (Nat.find hex)
        (Nat.gcd (compared n (draws.starts attempt) (Nat.find hex)) n) := by
      refine ⟨hwithin, rfl, hne, fun j hj => ?_⟩
      by_contra hcommon
      exact Nat.find_min hex hj ⟨Nat.lt_trans hj hwithin, hcommon⟩
    obtain ⟨-, hd, -⟩ := hfinds _ _ hfirst
    exact hne (hd.symm.trans (rho_ends n _).1)
  · intro hnone i g hfirst
    exact absurd (hfirst.common.symm.trans (hnone i hfirst.within)) hfirst.ne_one

/-! ### What is left -/

theorem findSome_rho (draws : FactorDraws) (n : Nat) (attempts : List Nat) :
    attempts.findSome? (rhoFactors draws n) = none :=
  List.findSome?_eq_none_iff.mpr fun attempt _ => rhoFactors_none draws n attempt

theorem le_of_mem_smallPrimes {p : Nat} (h : p ∈ smallPrimes) : p ≤ 100000 := by
  obtain ⟨hrange, -⟩ := List.mem_filter.mp h
  exact Nat.le_of_lt_succ (List.mem_range.mp hrange)

/-- A number that neither fits `u64` nor has a small prime factor is never factored. -/
theorem factorPq_fails (draws : FactorDraws) (hlarge : 2 ^ 64 ≤ n)
    (hrough : ∀ p, 1 < p → p ≤ 100000 → ¬ p ∣ n) :
    factorPq draws n = .error (.protocol "Pollard's rho (Brent) failed to factor n") := by
  have hquick : quickFactors draws n = none := if_neg (Nat.not_lt.mpr hlarge)
  have htrial : smallPrimes.findSome? (trialFactors draws n) = none := by
    refine List.findSome?_eq_none_iff.mpr fun p hp => ?_
    unfold trialFactors
    rw [if_neg]
    rintro ⟨hmod, hone, -⟩
    exact hrough p hone (le_of_mem_smallPrimes hp) (Nat.dvd_of_mod_eq_zero hmod)
  have hpos : ¬ n ≤ 1 := by omega
  unfold factorPq
  rw [if_neg hpos, hquick, htrial, findSome_rho]
  rfl

/-! ### A number whose factor the third iteration compares -/

namespace Sample

def smaller : Nat := 281431

def larger : Nat := 7 * 2 ^ 50 + 1

def product : Nat := smaller * larger

def start : RhoStart := ⟨1, 23, by decide, by decide⟩

def fixed : FactorDraws := ⟨fun _ => start, fun _ _ => 0, fun _ _ _ => 0, fun _ _ _ => 0⟩

theorem prime_smaller : Nat.Prime smaller := by
  unfold smaller
  norm_num

theorem prime_larger : Nat.Prime larger := by
  refine prime_of_modPow (by decide) 6 (by decide +kernel) fun q hq hdvd => ?_
  have hsplit : larger - 1 = 7 * 2 ^ 50 := rfl
  have hcases : q = 7 ∨ q = 2 := by
    rw [hsplit] at hdvd
    rcases hq.dvd_mul.mp hdvd with hseven | htwo
    · exact Or.inl ((Nat.prime_dvd_prime_iff_eq hq (by norm_num)).mp hseven)
    · exact Or.inr ((Nat.prime_dvd_prime_iff_eq hq Nat.prime_two).mp (hq.dvd_of_dvd_pow htwo))
  rcases hcases with rfl | rfl
  · decide +kernel
  · decide +kernel

theorem rough : ∀ p, 1 < p → p ≤ 100000 → ¬ p ∣ product := by
  intro p hone hsmall hdvd
  have hfactor := Nat.minFac_prime (Nat.ne_of_gt hone)
  have hle : p.minFac ≤ 100000 := Nat.le_trans (Nat.minFac_le (by omega)) hsmall
  rcases hfactor.dvd_mul.mp ((Nat.minFac_dvd p).trans hdvd) with h | h
  · have heq := (Nat.prime_dvd_prime_iff_eq hfactor prime_smaller).mp h
    rw [heq] at hle
    exact absurd hle (by decide)
  · have heq := (Nat.prime_dvd_prime_iff_eq hfactor prime_larger).mp h
    rw [heq] at hle
    exact absurd hle (by decide)

theorem firstCommon : FirstCommon product start 2 smaller where
  within := by decide
  common := by decide +kernel
  ne_one := by decide
  first := by decide +kernel

end Sample

/-- The two primes of this number stay unfound, though one of them divides the third difference. -/
theorem not_findsFactors : 1 < Sample.product ∧
    FirstCommon Sample.product (Sample.fixed.starts 0) 2 Sample.smaller ∧
    Sample.smaller < Sample.product ∧ Sample.smaller.Prime ∧
    (Sample.product / Sample.smaller).Prime ∧
    (rho Sample.product (Sample.fixed.starts 0)).d = 1 ∧
    factorPq Sample.fixed Sample.product =
      .error (.protocol "Pollard's rho (Brent) failed to factor n") ∧
    ¬ FindsFactors Sample.fixed Sample.product 0 := by
  have hfirst := Sample.firstCommon
  have hd := (rho_ends Sample.product (Sample.fixed.starts 0)).1
  have hdiv : Sample.product / Sample.smaller = Sample.larger :=
    Nat.mul_div_cancel_left _ Sample.prime_smaller.pos
  refine ⟨by decide, hfirst, by decide, Sample.prime_smaller, hdiv ▸ Sample.prime_larger, hd,
    factorPq_fails _ (by decide) Sample.rough, ?_⟩
  intro hfinds
  obtain ⟨-, heq, -⟩ := hfinds 2 Sample.smaller hfirst
  exact hfirst.ne_one (heq.symm.trans hd)

end KoSta.Client
