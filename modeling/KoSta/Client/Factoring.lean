import KoSta.Client.Primality
import KoSta.Client.Rho

/-! What `factor_pq` finds without its rho loop. -/
namespace KoSta.Client
open Lib

variable {n limit : Nat}

/-! ### Square roots in floating point -/

/-- The rounded root is no smaller than `r` if the square of `r` is at most so much larger. -/
theorem le_sqrtF64 {x r f : Nat} (hf : f = 52 - (bitLength x - 1) / 2) (hr : 0 < r)
    (h : r * 2 ^ f * (r * 2 ^ f) < x * 4 ^ f + r * 2 ^ f) : r ≤ sqrtF64 x := by
  subst hf
  unfold sqrtF64
  dsimp only
  generalize 52 - (bitLength x - 1) / 2 = f at *
  have hpos : 0 < r * 2 ^ f := Nat.mul_pos hr (Nat.two_pow_pos f)
  generalize hR : r * 2 ^ f = R at *
  refine (Nat.le_div_iff_mul_le (Nat.two_pow_pos f)).mpr ?_
  rw [hR]
  by_cases hroot : R ≤ Nat.sqrt (x * 4 ^ f)
  · split <;> omega
  · have hbelow : R - 1 ≤ Nat.sqrt (x * 4 ^ f) := by
      refine Nat.le_sqrt.mpr ?_
      have hsquare : (R - 1) * (R - 1) + R ≤ R * R := by
        obtain ⟨S, rfl⟩ := Nat.exists_eq_add_of_le' hpos
        rw [Nat.add_sub_cancel]
        nlinarith
      omega
    have heq : Nat.sqrt (x * 4 ^ f) + 1 = R := by omega
    have hup : Nat.sqrt (x * 4 ^ f) * Nat.sqrt (x * 4 ^ f) + Nat.sqrt (x * 4 ^ f) < x * 4 ^ f := by
      rw [← heq] at h
      linarith
    rw [if_pos hup, heq]

/-- Rounding takes away half a unit in the last place at most. -/
theorem le_asF64 (n : Nat) : 2 * n ≤ 2 * asF64 n + 2 ^ (bitLength n - 53) := by
  unfold asF64
  dsimp only
  generalize hunit : 2 ^ (bitLength n - 53) = unit
  have hsplit := Nat.div_add_mod' n unit
  have hlow : n % unit < unit := Nat.mod_lt _ (hunit ▸ Nat.two_pow_pos _)
  split
  · rw [Nat.add_mul]
    omega
  · omega

theorem asF64_of_lt (h : n < 2 ^ 53) : asF64 n = n := by
  have hlen : bitLength n - 53 = 0 := Nat.sub_eq_zero_of_le (bitLength_le h)
  unfold asF64
  dsimp only
  rw [hlen, Nat.pow_zero, Nat.mod_one, Nat.div_one, if_neg (by omega), Nat.mul_one]

theorem two_pow_bitLength_le (hn : 0 < n) : 2 ^ (bitLength n - 1) ≤ n := by
  unfold bitLength
  rw [if_neg (by omega), Nat.add_sub_cancel]
  exact Nat.log2_self_le (by omega)

/-- Rounding takes no bit off the length. -/
theorem pow_le_asF64 (hn : 0 < n) : 2 ^ (bitLength n - 1) ≤ asF64 n := by
  have hpow := two_pow_bitLength_le hn
  have hdvd : 2 ^ (bitLength n - 53) ∣ 2 ^ (bitLength n - 1) := Nat.pow_dvd_pow 2 (by omega)
  have hfloor : 2 ^ (bitLength n - 1) ≤ n / 2 ^ (bitLength n - 53) * 2 ^ (bitLength n - 53) := by
    rw [← Nat.div_mul_cancel hdvd]
    exact Nat.mul_le_mul_right _ (Nat.div_le_div_right hpow)
  unfold asF64
  dsimp only
  split
  · rw [Nat.add_mul]
    omega
  · exact hfloor

theorem bitLength_asF64 (hn : 0 < n) : bitLength n ≤ bitLength (asF64 n) := by
  have hpow := Nat.lt_of_le_of_lt (pow_le_asF64 hn) (lt_two_pow_bitLength (asF64 n))
  have hlt := (Nat.pow_lt_pow_iff_right (by decide)).mp hpow
  omega

/-- A number of `t + 1` bits has a root of more than half as many. -/
theorem pow_lt_sqrt {t : Nat} (ht : 4 ≤ t) (h : 2 ^ t ≤ n) : 2 ^ (t - t / 2 - 1) < Nat.sqrt n := by
  refine Nat.le_sqrt.mpr (Nat.le_trans ?_ h)
  obtain ⟨k, hk⟩ : ∃ k, t - t / 2 - 1 = k := ⟨_, rfl⟩
  have hdouble : 2 ^ (2 * k + 1) ≤ 2 ^ t := Nat.pow_le_pow_right (by decide) (by omega)
  have hsquare : 2 ^ (2 * k + 1) = 2 * (2 ^ k * 2 ^ k) := by
    rw [Nat.pow_succ, Nat.two_mul, Nat.pow_add, Nat.mul_comm]
  have hfour : 2 ^ 2 ≤ 2 ^ k ∨ k = 1 := by
    rcases Nat.lt_or_ge k 2 with hlt | hge
    · exact Or.inr (by omega)
    · exact Or.inl (Nat.pow_le_pow_right (by decide) hge)
  rw [hk]
  rcases hfour with hfour | rfl
  · nlinarith
  · have hsixteen : 2 ^ 4 ≤ 2 ^ t := Nat.pow_le_pow_right (by decide) ht
    exact Nat.le_trans (by decide) hsixteen

/-- Rounded twice, the root is still not below the true one. -/
theorem sqrt_le_sqrtF64 (h : n < 2 ^ 64) : Nat.sqrt n ≤ sqrtF64 (asF64 n) := by
  rcases Nat.eq_zero_or_pos n with rfl | hn
  · exact Nat.zero_le _
  have hr : 0 < Nat.sqrt n := Nat.sqrt_pos.mpr hn
  have hsquare := Nat.sqrt_le n
  refine le_sqrtF64 rfl hr ?_
  obtain ⟨f, hf⟩ : ∃ f, f = 52 - (bitLength (asF64 n) - 1) / 2 := ⟨_, rfl⟩
  rw [← hf]
  have hscaled : Nat.sqrt n * 2 ^ f * (Nat.sqrt n * 2 ^ f) ≤ n * 4 ^ f := by
    have hfour : (4 : Nat) ^ f = 2 ^ f * 2 ^ f := by
      rw [← Nat.mul_pow]
    rw [hfour, Nat.mul_mul_mul_comm]
    exact Nat.mul_le_mul_right _ hsquare
  have hpos : 0 < Nat.sqrt n * 2 ^ f := Nat.mul_pos hr (Nat.two_pow_pos f)
  rcases Nat.lt_or_ge n (2 ^ 53) with hexact | hlarge
  · rw [asF64_of_lt hexact]
    omega
  · have hlen : bitLength n ≤ 64 := bitLength_le h
    have hlong : 53 < bitLength n :=
      (Nat.pow_lt_pow_iff_right (by decide)).mp (Nat.lt_of_le_of_lt hlarge (lt_two_pow_bitLength n))
    have hroot := pow_lt_sqrt (by omega) (two_pow_bitLength_le hn)
    -- The unit of the number, at the scale of the root, is less than twice the root.
    have hunit : 2 ^ (bitLength n - 53) * 2 ^ f < 2 * Nat.sqrt n := by
      have hgrow := bitLength_asF64 hn
      have hexp : 2 ^ (bitLength n - 53) * 2 ^ f ≤
          2 * 2 ^ (bitLength n - 1 - (bitLength n - 1) / 2 - 1) := by
        rw [← Nat.pow_add, ← Nat.pow_succ']
        exact Nat.pow_le_pow_right (by decide) (by omega)
      omega
    have hnear := Nat.mul_le_mul_right (2 ^ f * 2 ^ f) (le_asF64 n)
    have hfour : (4 : Nat) ^ f = 2 ^ f * 2 ^ f := by
      rw [← Nat.mul_pow]
    have hunit' := Nat.mul_lt_mul_of_pos_right hunit (Nat.two_pow_pos f)
    rw [hfour] at hscaled ⊢
    rw [Nat.add_mul] at hnear
    linarith

/-! ### `factor_u64` -/

theorem oddDivisor_of_prime (hn : n.Prime) (k : Nat) {d : Nat} (hd : 1 < d) :
    oddDivisor n limit k d = none := by
  induction k generalizing d with
  | zero => rfl
  | succ k ih =>
    unfold oddDivisor
    split
    · rw [if_neg, ih (by omega)]
      rintro ⟨hmod, hone⟩
      rcases (Nat.dvd_prime hn).mp (Nat.dvd_of_mod_eq_zero hmod) with rfl | rfl
      · omega
      · rw [Nat.div_self hn.pos] at hone
        omega
    · rfl

/-- The odd divisors are tried in order, so the least one is found. -/
theorem oddDivisor_of_composite (hodd : n % 2 = 1) (hone : 1 < n) (hn : ¬ n.Prime)
    (hlimit : n.minFac ≤ limit) (k : Nat) {d : Nat} (hd : d % 2 = 1) (hthree : 3 ≤ d)
    (hle : d ≤ n.minFac) (hfuel : n.minFac < d + 2 * k) :
    oddDivisor n limit k d = some (n.minFac, n / n.minFac) := by
  induction k generalizing d with
  | zero => omega
  | succ k ih =>
    unfold oddDivisor
    rw [if_pos (Nat.le_trans hle hlimit)]
    by_cases hdvd : d ∣ n
    · have heq : d = n.minFac := Nat.le_antisymm hle (Nat.minFac_le_of_dvd (by omega) hdvd)
      have hlt : n.minFac < n := (Nat.not_prime_iff_minFac_lt hone).mp hn
      have hcofactor : 1 < n / d := by
        rw [heq]
        rwa [Nat.lt_div_iff_mul_lt_of_dvd (Nat.minFac_pos n).ne' (Nat.minFac_dvd n), Nat.one_mul]
      rw [if_pos ⟨Nat.mod_eq_zero_of_dvd hdvd, hcofactor⟩, heq]
    · have hne : d ≠ n.minFac := fun heq => hdvd (heq ▸ Nat.minFac_dvd n)
      have hminOdd : n.minFac % 2 = 1 := by
        have hdvd := Nat.minFac_dvd n
        by_contra heven
        have htwo : 2 ∣ n := (Nat.dvd_of_mod_eq_zero (by omega)).trans hdvd
        omega
      rw [if_neg fun h => hdvd (Nat.dvd_of_mod_eq_zero h.1)]
      exact ih (by omega) (by omega) (by omega) (by omega)

theorem factorU64_of_prime (hn : n.Prime) : factorU64 n = none := by
  have hone := hn.one_lt
  unfold factorU64
  rw [if_neg (by omega), if_neg, oddDivisor_of_prime hn _ (by omega)]
  rintro ⟨heven, hhalf⟩
  have htwo := (Nat.prime_dvd_prime_iff_eq Nat.prime_two hn).mp (Nat.dvd_of_mod_eq_zero heven)
  subst htwo
  omega

/-- A composite number is split at its least prime factor. -/
theorem factorU64_of_composite (hlt : n < 2 ^ 64) (hone : 1 < n) (hn : ¬ n.Prime) :
    factorU64 n = some (n.minFac, n / n.minFac) := by
  have hfac : n.minFac ≤ Nat.sqrt n := by
    have hsquare := Nat.minFac_sq_le_self (by omega) hn
    rw [Nat.pow_two] at hsquare
    exact Nat.le_sqrt.mpr hsquare
  have hlimit := Nat.le_trans hfac (sqrt_le_sqrtF64 hlt)
  unfold factorU64
  rw [if_neg (by omega)]
  by_cases heven : n % 2 = 0
  · have htwo : n.minFac = 2 := (Nat.minFac_eq_two_iff n).mpr (Nat.dvd_of_mod_eq_zero heven)
    have hne : n ≠ 2 := fun h => hn (h ▸ Nat.prime_two)
    rw [if_pos ⟨heven, by omega⟩, htwo]
  · have hne : n.minFac ≠ 2 := fun h =>
      heven (Nat.mod_eq_zero_of_dvd ((Nat.minFac_eq_two_iff n).mp h))
    have htwo := (Nat.minFac_prime (Nat.ne_of_gt hone)).two_le
    rw [if_neg fun h => heven h.1]
    dsimp only
    exact oddDivisor_of_composite (by omega) hone hn hlimit _ rfl (by omega) (by omega) (by omega)

/-! ### The sieve -/

theorem getD_set (sieve : Array Bool) (j m : Nat) :
    (sieve.setIfInBounds j false).getD m false = true ↔ sieve.getD m false = true ∧ m ≠ j := by
  rw [Array.getD_eq_getD_getElem?, Array.getD_eq_getD_getElem?, Array.getElem?_setIfInBounds]
  by_cases hm : j = m
  · subst hm
    rw [if_pos rfl]
    split <;> simp
  · rw [if_neg hm]
    simp [Ne.symm hm]

theorem not_dvd_sub_iff {i j m : Nat} :
    (m ≠ j ∧ ¬ (j + i ≤ m ∧ i ∣ m - (j + i))) ↔ ¬ (j ≤ m ∧ i ∣ m - j) := by
  constructor
  · rintro ⟨hne, hnot⟩ ⟨hle, hdvd⟩
    have hstep : i ≤ m - j := Nat.le_of_dvd (by omega) hdvd
    refine hnot ⟨by omega, ?_⟩
    rw [← Nat.sub_sub]
    exact Nat.dvd_sub hdvd (Nat.dvd_refl i)
  · intro hnot
    constructor
    · rintro rfl
      exact hnot ⟨Nat.le_refl m, by simp⟩
    · rintro ⟨hle, hdvd⟩
      have hsplit : m - j = m - (j + i) + i := by omega
      exact hnot ⟨by omega, hsplit ▸ Nat.dvd_add hdvd (Nat.dvd_refl i)⟩

/-- What the inner loop strikes out: every `i`-th cell from `j` on. -/
theorem getD_strike {i : Nat} (k j : Nat) (sieve : Array Bool) {m : Nat}
    (hm : m ≤ limit) (hfuel : limit < j + k * i) :
    (strike limit i k j sieve).getD m false = true ↔
      sieve.getD m false = true ∧ ¬ (j ≤ m ∧ i ∣ m - j) := by
  induction k generalizing j sieve with
  | zero =>
    have hnot : ¬ j ≤ m := by omega
    simp [strike, hnot]
  | succ k ih =>
    have hnext : limit < j + i + k * i := by
      rw [Nat.succ_mul] at hfuel
      omega
    unfold strike
    split
    · rw [ih _ _ hnext, getD_set, and_assoc, not_dvd_sub_iff]
    · have hnot : ¬ j ≤ m := by omega
      simp [hnot]

/-- Struck out is what a number below `d` divides, from its square on. -/
def Sieved (limit d : Nat) (sieve : Array Bool) : Prop := ∀ m ≤ limit,
  sieve.getD m false = true ↔ 2 ≤ m ∧ ∀ p, 2 ≤ p → p < d → p * p ≤ m → ¬ p ∣ m

theorem sieved_start (h : 1 < limit) : Sieved limit 2 (sieveStart limit) := by
  intro m hm
  unfold sieveStart
  dsimp only
  rw [if_pos h, if_pos (Nat.lt_of_succ_lt h), getD_set, getD_set, Array.getD_eq_getD_getElem?,
    Array.getElem?_replicate, if_pos (Nat.lt_succ_of_le hm)]
  constructor
  · rintro ⟨⟨-, hzero⟩, hone⟩
    exact ⟨by omega, fun p hp hlt => absurd hp (Nat.not_le.mpr hlt)⟩
  · rintro ⟨htwo, -⟩
    exact ⟨⟨rfl, by omega⟩, by omega⟩

/-- A number that is struck out when its round comes has a divisor whose round is over, and which
divides all that its own round would strike out. -/
theorem Sieved.step {d : Nat} {sieve : Array Bool} (h : Sieved limit d sieve) (hd : 2 ≤ d) :
    Sieved limit (d + 1) (sieveStep limit sieve d) := by
  intro m hm
  have hround : (2 ≤ m ∧ ∀ p, 2 ≤ p → p < d + 1 → p * p ≤ m → ¬ p ∣ m) ↔
      (2 ≤ m ∧ ∀ p, 2 ≤ p → p < d → p * p ≤ m → ¬ p ∣ m) ∧ (d * d ≤ m → ¬ d ∣ m) := by
    constructor
    · rintro ⟨htwo, hall⟩
      exact ⟨⟨htwo, fun p hp hlt => hall p hp (Nat.lt_succ_of_lt hlt)⟩,
        hall d hd (Nat.lt_succ_self d)⟩
    · rintro ⟨⟨htwo, hall⟩, hself⟩
      refine ⟨htwo, fun p hp hlt => ?_⟩
      rcases Nat.lt_succ_iff_lt_or_eq.mp hlt with hlt | rfl
      · exact hall p hp hlt
      · exact hself
  unfold sieveStep
  split
  · have hfuel : limit < d * d + (limit + 1) * d := by nlinarith
    rw [getD_strike _ _ _ hm hfuel, h m hm, hround]
    refine and_congr_right fun _ => ⟨fun hnot hle hdvd => hnot ⟨hle, ?_⟩, ?_⟩
    · exact Nat.dvd_sub hdvd (Nat.dvd_mul_right d d)
    · rintro hself ⟨hle, hdvd⟩
      have hsum := Nat.dvd_add hdvd (Nat.dvd_mul_right d d)
      rw [Nat.sub_add_cancel hle] at hsum
      exact hself hle hsum
  · rename_i hcell
    rw [h m hm, hround]
    refine ⟨fun hold => ⟨hold, fun hle hdvd => ?_⟩, fun hnew => hnew.1⟩
    have hdle : d ≤ limit := by nlinarith
    rw [h d hdle] at hcell
    push Not at hcell
    obtain ⟨p, hp, hlt, hsquare, hpd⟩ := hcell hd
    exact hold.2 p hp hlt (by nlinarith) (hpd.trans hdvd)

theorem Sieved.rounds {d : Nat} {sieve : Array Bool} (h : Sieved limit d sieve) (hd : 2 ≤ d)
    (k : Nat) : Sieved limit (d + k) ((List.range' d k).foldl (sieveStep limit) sieve) := by
  induction k generalizing d sieve with
  | zero => exact h
  | succ k ih =>
    have hnext := ih (h.step hd) (Nat.le_succ_of_le hd)
    rwa [Nat.add_right_comm] at hnext

/-- From two on the sieve leaves the primes. -/
theorem primesUpTo_eq (hone : 1 < limit) (h : limit < 2 ^ 64) :
    primesUpTo limit = (List.range (limit + 1)).filter fun m => m.Prime := by
  have hsieved := (sieved_start hone).rounds (Nat.le_refl 2) (sqrtF64 (asF64 limit) - 1)
  have hroot := sqrt_le_sqrtF64 h
  refine List.filter_congr fun m hm => ?_
  have hm : m ≤ limit := Nat.le_of_lt_succ (List.mem_range.mp hm)
  rw [Bool.eq_iff_iff, decide_eq_true_iff, hsieved m hm, Nat.prime_def_le_sqrt]
  have hle : Nat.sqrt m ≤ Nat.sqrt limit := Nat.sqrt_le_sqrt hm
  refine and_congr_right fun _ => forall₂_congr fun p hp => ?_
  constructor
  · exact fun hall hsqrt => hall (by omega) (Nat.le_sqrt.mp hsqrt)
  · exact fun hall _ hsquare => hall (Nat.le_sqrt.mpr hsquare)

theorem mem_smallPrimes {p : Nat} : p ∈ smallPrimes ↔ p.Prime ∧ p ≤ 100000 := by
  unfold smallPrimes
  rw [primesUpTo_eq (by decide) (by decide), List.mem_filter, List.mem_range, Nat.lt_succ_iff,
    decide_eq_true_iff, and_comm]

/-! ### `factor_pq` -/

section Pairs

variable {p q : Nat} {draws : FactorDraws} {bases : Bool → Nat → Nat}

theorem primePair_of_primes (hp : p.Prime) (hq : q.Prime) :
    primePair bases p q = some (toBytesBe (min p q), toBytesBe (max p q)) := by
  unfold primePair
  rw [if_pos ⟨isPrime_of_prime hp _, isPrime_of_prime hq _⟩]
  split
  · rw [Nat.min_eq_left (by omega), Nat.max_eq_right (by omega)]
  · rw [Nat.min_eq_right (by omega), Nat.max_eq_left (by omega)]

theorem minFac_mul (hp : p.Prime) (hq : q.Prime) (hle : p ≤ q) : (p * q).minFac = p := by
  have hpos := hp.two_le
  have hone : p * q ≠ 1 := fun h => hp.ne_one (Nat.eq_one_of_mul_eq_one_right h)
  have hmin := Nat.minFac_le_of_dvd hpos (Nat.dvd_mul_right p q)
  rcases (Nat.minFac_prime hone).dvd_mul.mp (Nat.minFac_dvd (p * q)) with h | h
  · exact (Nat.prime_dvd_prime_iff_eq (Nat.minFac_prime hone) hp).mp h
  · have heq := (Nat.prime_dvd_prime_iff_eq (Nat.minFac_prime hone) hq).mp h
    omega

theorem quickFactors_mul (hp : p.Prime) (hq : q.Prime) (hle : p ≤ q) (h : p * q < 2 ^ 64) :
    quickFactors draws (p * q) = some (toBytesBe p, toBytesBe q) := by
  have hone : 1 < p * q := Nat.lt_of_lt_of_le hp.one_lt (Nat.le_mul_of_pos_right p hq.pos)
  have hsplit := factorU64_of_composite h hone (Nat.not_prime_mul hp.ne_one hq.ne_one)
  rw [minFac_mul hp hq hle, Nat.mul_div_cancel_left q hp.pos] at hsplit
  unfold quickFactors
  rw [if_pos h, hsplit]
  dsimp only
  rw [primePair_of_primes hp hq, Nat.min_eq_left hle, Nat.max_eq_right hle]

/-- Each of the two primes would do. -/
theorem trialFactors_mul (hp : p.Prime) (hq : q.Prime) (hle : p ≤ q) {prime : Nat}
    (hprime : prime.Prime) : trialFactors draws (p * q) prime =
      if prime = p ∨ prime = q then some (toBytesBe p, toBytesBe q) else none := by
  unfold trialFactors
  by_cases hone : prime = p ∨ prime = q
  · rw [if_pos hone]
    rcases hone with rfl | rfl
    · rw [Nat.mul_div_cancel_left q hp.pos, if_pos ⟨Nat.mul_mod_right _ _, hp.one_lt, hq.one_lt⟩,
        primePair_of_primes hp hq, Nat.min_eq_left hle, Nat.max_eq_right hle]
    · rw [Nat.mul_div_cancel p hq.pos, if_pos ⟨Nat.mul_mod_left _ _, hq.one_lt, hp.one_lt⟩,
        primePair_of_primes hq hp, Nat.min_eq_right hle, Nat.max_eq_left hle]
  · rw [if_neg hone, if_neg]
    rintro ⟨hmod, -⟩
    rcases hprime.dvd_mul.mp (Nat.dvd_of_mod_eq_zero hmod) with h | h
    · exact hone (Or.inl ((Nat.prime_dvd_prime_iff_eq hprime hp).mp h))
    · exact hone (Or.inr ((Nat.prime_dvd_prime_iff_eq hprime hq).mp h))

theorem findSome_trialFactors (hp : p.Prime) (hq : q.Prime) (hle : p ≤ q) (hsmall : p ≤ 100000) :
    smallPrimes.findSome? (trialFactors draws (p * q)) = some (toBytesBe p, toBytesBe q) := by
  cases hfound : smallPrimes.findSome? (trialFactors draws (p * q)) with
  | none =>
    have hmem := List.findSome?_eq_none_iff.mp hfound p (mem_smallPrimes.mpr ⟨hp, hsmall⟩)
    rw [trialFactors_mul hp hq hle hp, if_pos (Or.inl rfl)] at hmem
    cases hmem
  | some factors =>
    obtain ⟨prime, hmem, hprime⟩ := List.exists_of_findSome?_eq_some hfound
    rw [trialFactors_mul hp hq hle (mem_smallPrimes.mp hmem).1] at hprime
    split at hprime
    · exact hprime.symm
    · cases hprime

/-- Two primes that `is_prime` can count the twos of pass it, and they are found exactly if `u64`
holds their product or one of them is small. -/
theorem factorPq_finds [Platform] (draws : FactorDraws) (hp : p.Prime) (hq : q.Prime) (hle : p ≤ q)
    (hbits : bitLength q ≤ 2 ^ 32) :
    (∀ random, isPrimeChecked random p = some true ∧ isPrimeChecked random q = some true) ∧
      factorPq draws (p * q) = if p * q < 2 ^ 64 ∨ p ≤ 100000 then .ok (toBytesBe p, toBytesBe q)
        else .error (.protocol "Pollard's rho (Brent) failed to factor n") := by
  have hsmaller : bitLength p ≤ 2 ^ 32 := by
    have hlength := bitLength_le (Nat.lt_of_le_of_lt hle (lt_two_pow_bitLength q))
    omega
  refine ⟨fun random => ⟨?_, ?_⟩, ?_⟩
  · rw [isPrimeChecked_of_bits hsmaller, isPrime_of_prime hp]
  · rw [isPrimeChecked_of_bits hbits, isPrime_of_prime hq]
  have hone : ¬ p * q ≤ 1 := by
    have hlt := Nat.lt_of_lt_of_le hp.one_lt (Nat.le_mul_of_pos_right p hq.pos)
    omega
  by_cases hquick : p * q < 2 ^ 64
  · unfold factorPq
    rw [if_neg hone, quickFactors_mul hp hq hle hquick, if_pos (Or.inl hquick)]
    rfl
  · by_cases hsmall : p ≤ 100000
    · have hnone : quickFactors draws (p * q) = none := if_neg hquick
      unfold factorPq
      rw [if_neg hone, hnone, findSome_trialFactors hp hq hle hsmall, if_pos (Or.inr hsmall)]
      rfl
    · rw [if_neg (not_or.mpr ⟨hquick, hsmall⟩)]
      refine factorPq_fails draws (Nat.not_lt.mp hquick) fun r hr hrle hdvd => ?_
      have hfac := Nat.minFac_le_of_dvd hr hdvd
      rw [minFac_mul hp hq hle] at hfac
      omega

theorem factorPq_finds_fifteen : letI := Platform.constant true
    (∀ random, isPrimeChecked random 3 = some true ∧ isPrimeChecked random 5 = some true) ∧
      factorPq Sample.fixed (3 * 5) = .ok (toBytesBe 3, toBytesBe 5) :=
  @factorPq_finds 3 5 (Platform.constant true) Sample.fixed Nat.prime_three Nat.prime_five
    (by decide) (by decide +kernel)

/-- A factorization of `n` into two numbers, spelt out in this order. -/
def Splits (n : Nat) (a b : Bytes) : Prop :=
  ∃ p q, a = toBytesBe p ∧ b = toBytesBe q ∧ p * q = n ∧ 1 < p ∧ p ≤ q ∧ (p.Prime ∨ q.Prime)

theorem splits_of_primePair {a b : Bytes} (h : primePair bases p q = some (a, b)) (hn : p * q = n)
    (hp : p.Prime) (hq : 1 < q) : Splits n a b := by
  unfold primePair at h
  split at h
  · have hpair := Option.some.inj h
    split at hpair
    · cases hpair
      exact ⟨p, q, rfl, rfl, hn, hp.one_lt, by omega, Or.inl hp⟩
    · cases hpair
      exact ⟨q, p, rfl, rfl, (Nat.mul_comm q p).trans hn, hq, by omega, Or.inr hp⟩
  · cases h

/-- What is returned is a factorization, and one of the factors is a prime whatever the tests
say. -/
theorem factorPq_splits {a b : Bytes} (h : factorPq draws n = .ok (a, b)) : Splits n a b := by
  unfold factorPq at h
  split at h
  · cases h
  rename_i hone
  rw [findSome_rho, Option.or_none] at h
  cases hquick : quickFactors draws n with
  | some factors =>
    rw [hquick] at h
    cases h
    unfold quickFactors at hquick
    split at hquick
    · rename_i hlt
      by_cases hn : n.Prime
      · rw [factorU64_of_prime hn] at hquick
        cases hquick
      · rw [factorU64_of_composite hlt (by omega) hn] at hquick
        have hfac := Nat.minFac_prime (n := n) (by omega)
        have hle := Nat.minFac_le_div (by omega) hn
        have htwo := hfac.two_le
        exact splits_of_primePair hquick (Nat.mul_div_cancel' (Nat.minFac_dvd n)) hfac (by omega)
    · cases hquick
  | none =>
    rw [hquick] at h
    cases htrial : smallPrimes.findSome? (trialFactors draws n) with
    | none =>
      rw [htrial] at h
      cases h
    | some factors =>
      rw [htrial] at h
      cases h
      obtain ⟨prime, hmem, hprime⟩ := List.exists_of_findSome?_eq_some htrial
      unfold trialFactors at hprime
      split at hprime
      · rename_i hdivides
        obtain ⟨hmod, -, hcofactor⟩ := hdivides
        exact splits_of_primePair hprime
          (Nat.mul_div_cancel' (Nat.dvd_of_mod_eq_zero hmod)) (mem_smallPrimes.mp hmem).1 hcofactor
      · cases hprime

theorem factorPq_splits_fifteen : Splits 15 (toBytesBe 3) (toBytesBe 5) := by
  have hfound : factorPq Sample.fixed 15 = .ok (toBytesBe 3, toBytesBe 5) := by decide +kernel
  exact factorPq_splits hfound

end Pairs

end KoSta.Client
