import KoSta.Client.DhChecks
import KoSta.Platform
import Mathlib.FieldTheory.Finite.Basic

/-! The primality test: no base speaks against a prime, and some base against every composite. -/
namespace KoSta.Client
open Lib

variable {n : Nat}

theorem splitTwos_spec (k d : Nat) : 2 ^ (splitTwos k d).2 * (splitTwos k d).1 = d := by
  induction k generalizing d with
  | zero => simp [splitTwos]
  | succ k ih =>
    unfold splitTwos
    split
    · have hhalf := ih (d / 2)
      dsimp only
      rw [Nat.pow_succ, Nat.mul_right_comm, hhalf]
      omega
    · simp

theorem splitTwos_pos {k d : Nat} (hk : 0 < k) (hd : d % 2 = 0) : 0 < (splitTwos k d).2 := by
  cases k with
  | zero => omega
  | succ k =>
    unfold splitTwos
    rw [if_pos hd]
    exact Nat.succ_pos _

theorem bitLength_pos {d : Nat} (hd : 0 < d) : 0 < bitLength d := by
  unfold bitLength
  rw [if_neg (by omega)]
  exact Nat.succ_pos _

/-- One has no square roots besides itself and minus one. -/
theorem eq_of_square_eq_one (hn : n.Prime) {x : Nat} (hx : x < n) (h : x * x % n = 1) :
    x = 1 ∨ x = n - 1 := by
  have hone := hn.one_lt
  have hpos : 0 < x := by
    rcases Nat.eq_zero_or_pos x with rfl | hpos
    · simp at h
    · exact hpos
  have hprod : (x - 1) * (x + 1) + 1 = x * x := by
    obtain ⟨y, rfl⟩ := Nat.exists_eq_succ_of_ne_zero (Nat.pos_iff_ne_zero.mp hpos)
    simp only [Nat.succ_eq_add_one, Nat.add_sub_cancel]
    ring
  have hdvd : n ∣ (x - 1) * (x + 1) := by
    have hmod : (x * x - 1) % n = 0 := by
      have hdiv := Nat.div_add_mod (x * x) n
      rw [h] at hdiv
      rw [← hdiv, Nat.add_sub_cancel, Nat.mul_mod_right]
    rw [← hprod, Nat.add_sub_cancel] at hmod
    exact Nat.dvd_of_mod_eq_zero hmod
  rcases hn.dvd_mul.mp hdvd with hle | hle
  · rcases Nat.eq_zero_or_pos (x - 1) with hzero | hpos'
    · omega
    · have hbound := Nat.le_of_dvd hpos' hle
      omega
  · have hbound := Nat.le_of_dvd (Nat.succ_pos x) hle
    omega

/-- The squarings that end in one meet minus one on their way. -/
theorem squaresReach_of_prime (hn : n.Prime) {k x : Nat} (hx : x < n) (hone : x ≠ 1)
    (hlast : x ≠ n - 1) (h : x ^ 2 ^ (k + 1) % n = 1) : squaresReach n k x = true := by
  induction k generalizing x with
  | zero =>
    rw [Nat.zero_add, Nat.pow_one, Nat.pow_two] at h
    rcases eq_of_square_eq_one hn hx h with heq | heq
    · exact absurd heq hone
    · exact absurd heq hlast
  | succ k ih =>
    unfold squaresReach
    dsimp only
    split
    · rfl
    · rename_i hne
      refine ih (Nat.mod_lt _ hn.pos) (fun heq => ?_) hne ?_
      · rcases eq_of_square_eq_one hn hx heq with heq' | heq'
        · exact hone heq'
        · exact hlast heq'
      · rw [← Nat.pow_mod, ← Nat.pow_two, ← Nat.pow_mul, ← Nat.pow_succ']
        exact h

theorem millerRabinRound_of_prime (hn : n.Prime) {d s a : Nat} (hs : 0 < s)
    (hsplit : 2 ^ s * d = n - 1) (ha : 0 < a) (hlt : a < n) : millerRabinRound n d s a = true := by
  unfold millerRabinRound
  dsimp only
  split
  · rfl
  · rename_i hne
    obtain ⟨hone, hlast⟩ := not_or.mp hne
    rw [modPow_eq] at hone hlast ⊢
    refine squaresReach_of_prime hn (Nat.mod_lt _ hn.pos) hone hlast ?_
    have hcoprime : Nat.Coprime a n :=
      (Nat.coprime_of_lt_prime (Nat.pos_iff_ne_zero.mp ha) hlt hn).symm
    have hfermat : a ^ n.totient % n = 1 % n := Nat.ModEq.pow_totient hcoprime
    rw [Nat.totient_prime hn, Nat.mod_eq_of_lt hn.one_lt] at hfermat
    rw [Nat.sub_add_cancel hs, ← Nat.pow_mod, ← Nat.pow_mul, Nat.mul_comm d, hsplit]
    exact hfermat

theorem roundBase_bounds (h : 3 < n) (draw : Nat) :
    0 < roundBase n draw ∧ roundBase n draw < n := by
  unfold roundBase
  split
  · omega
  · have hmod : draw % (n - 3) < n - 3 := Nat.mod_lt _ (by omega)
    omega

/-- `is_prime` accepts every prime. -/
theorem isPrime_of_prime (hn : n.Prime) (draws : Nat → Nat) : isPrime draws n = true := by
  have hone := hn.one_lt
  unfold isPrime
  rw [if_neg (by omega)]
  split
  · rename_i heven
    exact decide_eq_true (((Nat.prime_dvd_prime_iff_eq Nat.prime_two hn).mp
      (Nat.dvd_of_mod_eq_zero heven)).symm)
  · rename_i hodd
    split
    · rename_i hthree
      exact decide_eq_true (((Nat.prime_dvd_prime_iff_eq Nat.prime_three hn).mp
        (Nat.dvd_of_mod_eq_zero hthree)).symm)
    · rename_i hthree
      have hlarge : 3 < n := by
        by_contra hsmall
        interval_cases n <;> simp_all
      refine List.all_eq_true.mpr fun i _ => ?_
      obtain ⟨hpos, hlt⟩ := roundBase_bounds hlarge (draws i)
      exact millerRabinRound_of_prime hn (splitTwos_pos (bitLength_pos (by omega)) (by omega))
        (splitTwos_spec _ _) hpos hlt

/-! ## Composites -/

theorem splitTwos_odd {k d : Nat} (hd : 0 < d) (hk : d < 2 ^ k) : (splitTwos k d).1 % 2 = 1 := by
  induction k generalizing d with
  | zero =>
    rw [Nat.pow_zero] at hk
    omega
  | succ k ih =>
    unfold splitTwos
    split
    next heven =>
      rw [Nat.pow_succ] at hk
      exact ih (d := d / 2) (by omega) (by omega)
    next hodd => omega

/-- A count of twos below `limit` means that the power beyond it does not divide. -/
theorem not_dvd_of_split {d e twos limit : Nat} (hsplit : d = 2 ^ twos * e) (hodd : e % 2 = 1)
    (hlt : twos < limit) : ¬ 2 ^ limit ∣ d := by
  intro hdvd
  have hnext : 2 ^ twos * 2 ∣ 2 ^ twos * e := by
    rw [← hsplit, ← Nat.pow_succ]
    exact (Nat.pow_dvd_pow 2 hlt).trans hdvd
  have htwo := Nat.dvd_of_mul_dvd_mul_left (Nat.two_pow_pos _) hnext
  omega

/-- The count of twos is at least that of any power of two in `d`. -/
theorem le_splitTwos {k d twos : Nat} (hd : 0 < d) (hk : d < 2 ^ k) (hdvd : 2 ^ twos ∣ d) :
    twos ≤ (splitTwos k d).2 :=
  Nat.le_of_not_lt fun hlt =>
    not_dvd_of_split (splitTwos_spec k d).symm (splitTwos_odd hd hk) hlt hdvd

theorem splitTwos_dvd {k d twos : Nat} (h : twos ≤ (splitTwos k d).2) : 2 ^ twos ∣ d := by
  have hspec := splitTwos_spec k d
  exact (Nat.pow_dvd_pow 2 h).trans ⟨_, hspec.symm⟩

/-- A multiple of a proper divisor of `n` is neither one nor minus one. -/
theorem ne_of_dvd {p : Nat} (hp : 1 < p) (hpn : p ∣ n) (hn : 1 < n) {x : Nat} (hx : p ∣ x) :
    x ≠ 1 ∧ x ≠ n - 1 := by
  have hnot : ¬ p ∣ 1 := by
    intro hone
    have hle := Nat.le_of_dvd Nat.one_pos hone
    omega
  constructor
  · rintro rfl
    exact hnot hx
  · rintro rfl
    exact hnot ((Nat.dvd_sub_iff_right (Nat.le_of_lt hn) hpn).mp hx)

/-- Squaring keeps a common divisor with `n`. -/
theorem squaresReach_of_dvd {p : Nat} (hp : 1 < p) (hpn : p ∣ n) (hn : 1 < n) {k x : Nat}
    (hx : p ∣ x) : squaresReach n k x = false := by
  induction k generalizing x with
  | zero => rfl
  | succ k ih =>
    have hnext : p ∣ x * x % n := (Nat.dvd_mod_iff hpn).mpr (hx.mul_right x)
    unfold squaresReach
    dsimp only
    rw [if_neg (ne_of_dvd hp hpn hn hnext).2, ih hnext]

theorem millerRabinRound_of_dvd {p : Nat} (hp : 1 < p) (hpn : p ∣ n) (hn : 1 < n) {d : Nat}
    (hd : 0 < d) (s : Nat) : millerRabinRound n d s p = false := by
  have hx : p ∣ modPow p d n := by
    rw [modPow_eq]
    exact (Nat.dvd_mod_iff hpn).mpr (dvd_pow_self p (Nat.pos_iff_ne_zero.mp hd))
  unfold millerRabinRound
  dsimp only
  rw [if_neg (not_or.mpr (ne_of_dvd hp hpn hn hx)), squaresReach_of_dvd hp hpn hn hx]

/-- What the divisions by two and three leave to the rounds. -/
def EntersRounds (n : Nat) : Prop := 1 < n ∧ n % 2 ≠ 0 ∧ n % 3 ≠ 0

theorem EntersRounds.large (h : EntersRounds n) : 4 < n := by
  obtain ⟨hone, htwo, hthree⟩ := h
  omega

theorem bitLength_pred_spec (h : EntersRounds n) :
    0 < n - 1 ∧ n - 1 < 2 ^ bitLength (n - 1) := by
  have hlarge := h.large
  exact ⟨by omega, lt_two_pow_bitLength _⟩

/-- The smallest factor is a base that shows `n` composite. -/
theorem isPrime_of_factor (h : EntersRounds n) {p draw : Nat} (hp : 1 < p) (hpn : p ∣ n)
    (hdraw : roundBase n draw = p) : isPrime (fun _ => draw) n = false := by
  obtain ⟨hone, htwo, hthree⟩ := h
  obtain ⟨hpos, hbits⟩ := bitLength_pred_spec ⟨hone, htwo, hthree⟩
  have hodd := splitTwos_odd hpos hbits
  unfold isPrime
  rw [if_neg (by omega), if_neg htwo, if_neg hthree]
  simp only [hdraw]
  rw [millerRabinRound_of_dvd hp hpn hone (by omega)]
  rfl

/-! ## The run in the arithmetic of its build -/

theorem splitTwos_lt {k d limit : Nat} (hfits : ¬ 2 ^ limit ∣ d) : (splitTwos k d).2 < limit :=
  Nat.lt_of_not_le fun hge => hfits (splitTwos_dvd hge)

/-- Subtraction of `BigUint`, which panics below zero in every build. -/
def subBig (x y : Nat) : Option Nat := if y ≤ x then some (x - y) else none

theorem subBig_of_le {x y : Nat} (h : y ≤ x) : subBig x y = some (x - y) := if_pos h

/-- How many random bytes a round asks for. -/
def baseBytes (n : Nat) : Nat := bitLength (n - 3) / 8 + 1

def drawBase (n : Nat) (bytes : Bytes) : Option Nat :=
  if n ≤ 4 then some 2 else do
    let range ← subBig n 3
    return ofLeBytes bytes % range + 2

theorem drawBase_eq (h : EntersRounds n) (bytes : Bytes) :
    drawBase n bytes = some (roundBase n (ofLeBytes bytes)) := by
  have hlarge := h.large
  have hrange := subBig_of_le (show 3 ≤ n by omega)
  simp [drawBase, roundBase, hrange, Nat.not_le.mpr hlarge]

theorem roundBase_range (h : EntersRounds n) (draw : Nat) :
    2 ≤ roundBase n draw ∧ roundBase n draw ≤ n - 2 := by
  have hlarge := h.large
  have hmod : draw % (n - 3) < n - 3 := Nat.mod_lt _ (by omega)
  unfold roundBase
  rw [if_neg (by omega)]
  omega

/-- The bytes of a round reach every base of its range. -/
theorem roundBase_reaches (h : EntersRounds n) {a : Nat} (htwo : 2 ≤ a) (hlast : a ≤ n - 2) :
    roundBase n (ofLeBytes (leBytes (baseBytes n) (a - 2))) = a := by
  have hlarge := h.large
  have hfits : a - 2 < 256 ^ baseBytes n := by
    have hbits := lt_two_pow_bitLength (n - 3)
    have hbytes : 2 ^ bitLength (n - 3) ≤ 2 ^ (8 * baseBytes n) := by
      apply Nat.pow_le_pow_right (by omega)
      unfold baseBytes
      omega
    rw [Nat.pow_mul] at hbytes
    exact (show a - 2 < n - 3 by omega).trans (hbits.trans_le hbytes)
  rw [ofLeBytes_leBytes_of_lt hfits]
  unfold roundBase
  rw [if_neg (by omega), Nat.mod_eq_of_lt (by omega)]
  omega

/-- Bytes that expose a composite. -/
theorem exists_exposing (hn : ¬ n.Prime) : ∃ random : Nat → Bytes,
    (∀ i, (random i).length = baseBytes n) ∧
      isPrime (fun i => ofLeBytes (random i)) n = false := by
  by_cases henters : EntersRounds n
  · have hfactor := Nat.minFac_prime (show n ≠ 1 by have := henters.large; omega)
    have hlarge := henters.large
    have hdvd := Nat.minFac_dvd n
    have hlt : n.minFac < n := (Nat.not_prime_iff_minFac_lt (by omega)).mp hn
    have hlast : n.minFac ≤ n - 2 := by
      by_contra hbig
      have heq : n.minFac = n - 1 := by omega
      exact (ne_of_dvd hfactor.one_lt hdvd (by omega) (dvd_refl _)).2 heq
    refine ⟨fun _ => leBytes (baseBytes n) (n.minFac - 2), fun _ => length_leBytes _ _, ?_⟩
    exact isPrime_of_factor henters hfactor.one_lt hdvd
      (roundBase_reaches henters hfactor.two_le hlast)
  · refine ⟨fun _ => leBytes (baseBytes n) 0, fun _ => length_leBytes _ _, ?_⟩
    unfold isPrime
    split
    · rfl
    · rename_i hone
      split
      · refine decide_eq_false ?_
        rintro rfl
        exact hn Nat.prime_two
      · rename_i htwo
        split
        · refine decide_eq_false ?_
          rintro rfl
          exact hn Nat.prime_three
        · rename_i hthree
          exact (henters ⟨by omega, htwo, hthree⟩).elim

section Checked

variable [Platform]

/-- `x - 1` on `u32`. -/
def predU32 (x : UInt32) : Option UInt32 :=
  if overflowChecks ∧ x = 0 then none else some (x - 1)

/-- The factoring loop with its counter; the first argument bounds the number of divisions. -/
def factorTwos : Nat → Nat → UInt32 → Option (Nat × UInt32)
  | 0, d, s => some (d, s)
  | k + 1, d, s =>
    if d % 2 = 0 then do
      let s ← succU32 s
      factorTwos k (d / 2) s
    else some (d, s)

def roundPasses (n nMinusOne d : Nat) (s : UInt32) (bytes : Bytes) : Option Bool := do
  let a ← drawBase n bytes
  let x := modPow a d n
  if x = 1 ∨ x = nMinusOne then
    return true
  let squarings ← predU32 s
  return squaresReach n squarings.toNat x

def roundsPass (n nMinusOne d : Nat) (s : UInt32) : List Bytes → Option Bool
  | [] => some true
  | bytes :: draws => do
    if ← roundPasses n nMinusOne d s bytes then roundsPass n nMinusOne d s draws else return false

/-- `is_prime` with its panics; `random` holds the bytes each of the rounds draws. -/
def isPrimeChecked (random : Nat → Bytes) (n : Nat) : Option Bool :=
  if n ≤ 1 then some false
  else if n % 2 = 0 then some (n = 2)
  else if n % 3 = 0 then some (n = 3)
  else do
    let nMinusOne ← subBig n 1
    let (d, s) ← factorTwos (bitLength nMinusOne) nMinusOne 0
    roundsPass n nMinusOne d s ((List.range 20).map random)

theorem factorTwos_eq {k d : Nat} {s : UInt32} (h : s.toNat + (splitTwos k d).2 < 2 ^ 32) :
    factorTwos k d s = some ((splitTwos k d).1, s + UInt32.ofNat (splitTwos k d).2) := by
  induction k generalizing d s with
  | zero => simp [factorTwos, splitTwos]
  | succ k ih =>
    unfold splitTwos at h ⊢
    unfold factorTwos
    split
    next heven =>
      rw [if_pos heven] at h
      dsimp only at h
      have hsucc : succU32 s = some (s + 1) := by
        unfold succU32
        rw [if_neg]
        omega
      have hval : (s + 1).toNat = s.toNat + 1 := by
        rw [UInt32.toNat_add]
        exact Nat.mod_eq_of_lt (by change s.toNat + 1 < _; omega)
      have hrest := ih (d := d / 2) (s := s + 1) (by omega)
      rw [hsucc]
      dsimp only [Option.bind_eq_bind, Option.bind_some]
      rw [hrest, UInt32.ofNat_add, UInt32.add_assoc, UInt32.add_comm 1]
      rfl
    next hodd => simp

theorem roundPasses_eq (h : EntersRounds n) {d twos : Nat} (hpos : 0 < twos)
    (hfits : twos < 2 ^ 32) (bytes : Bytes) :
    roundPasses n (n - 1) d (.ofNat twos) bytes
      = some (millerRabinRound n d twos (roundBase n (ofLeBytes bytes))) := by
  have hval : (UInt32.ofNat twos).toNat = twos := UInt32.toNat_ofNat_of_lt' hfits
  have hpred : predU32 (.ofNat twos) = some (.ofNat twos - 1) := by
    unfold predU32
    rw [if_neg]
    rintro ⟨-, hzero⟩
    rw [hzero] at hval
    have hz : (0 : UInt32).toNat = 0 := rfl
    omega
  have hsub : (UInt32.ofNat twos - 1).toNat = twos - 1 := by
    rw [UInt32.toNat_sub_of_le _ _ (by rw [UInt32.le_iff_toNat_le, hval]; exact hpos), hval]
    rfl
  unfold roundPasses millerRabinRound
  rw [drawBase_eq h, hpred]
  dsimp only [Option.bind_eq_bind, Option.bind_some]
  split
  · rfl
  · rw [hsub]
    rfl

theorem roundsPass_eq (h : EntersRounds n) {d twos : Nat} (hpos : 0 < twos)
    (hfits : twos < 2 ^ 32) (draws : List Bytes) :
    roundsPass n (n - 1) d (.ofNat twos) draws
      = some (draws.all fun bytes =>
        millerRabinRound n d twos (roundBase n (ofLeBytes bytes))) := by
  induction draws with
  | nil => rfl
  | cons bytes draws ih =>
    unfold roundsPass
    rw [roundPasses_eq h hpos hfits]
    dsimp only [Option.bind_eq_bind, Option.bind_some]
    cases hround : millerRabinRound n d twos (roundBase n (ofLeBytes bytes)) <;>
      simp [hround, ih]

/-- While the count of twos fits its counter, the run computes `isPrime`. -/
theorem isPrimeChecked_eq
    (hfits : EntersRounds n → (splitTwos (bitLength (n - 1)) (n - 1)).2 < 2 ^ 32)
    (random : Nat → Bytes) :
    isPrimeChecked random n = some (isPrime (fun i => ofLeBytes (random i)) n) := by
  unfold isPrimeChecked isPrime
  split
  · rfl
  · rename_i hone
    split
    · rfl
    · rename_i htwo
      split
      · rfl
      · rename_i hthree
        have henters : EntersRounds n := ⟨by omega, htwo, hthree⟩
        obtain ⟨hpos, hbits⟩ := bitLength_pred_spec henters
        have hcount := hfits henters
        have hsome : 0 < (splitTwos (bitLength (n - 1)) (n - 1)).2 :=
          splitTwos_pos (bitLength_pos hpos) (by omega)
        have hfactor := factorTwos_eq (k := bitLength (n - 1)) (d := n - 1) (s := 0)
          (by rw [UInt32.toNat_zero]; omega)
        rw [UInt32.zero_add] at hfactor
        rw [subBig_of_le (Nat.le_of_lt henters.1)]
        dsimp only [Option.bind_eq_bind, Option.bind_some]
        rw [hfactor]
        dsimp only [Option.bind_some]
        rw [roundsPass_eq henters hsome hcount, List.all_map]
        rfl

/-- So it is for a number of at most `2 ^ 32` bits, which has fewer twos before it. -/
theorem isPrimeChecked_of_bits (hbits : bitLength n ≤ 2 ^ 32) (random : Nat → Bytes) :
    isPrimeChecked random n = some (isPrime (fun i => ofLeBytes (random i)) n) := by
  refine isPrimeChecked_eq (fun henters => ?_) random
  obtain ⟨hpos, hlt⟩ := bitLength_pred_spec henters
  have hfew : (splitTwos (bitLength (n - 1)) (n - 1)).2 < bitLength (n - 1) := by
    refine splitTwos_lt fun hdvd => ?_
    have hle := Nat.le_of_dvd hpos hdvd
    omega
  have hless : n - 1 < 2 ^ bitLength n :=
    Nat.lt_of_le_of_lt (Nat.sub_le n 1) (lt_two_pow_bitLength n)
  have hlength := bitLength_le hless
  omega

/-- What is asked of the test at `n`: it tells primes from composites, every run of it returns,
and its loop and its bases are those of Miller and Rabin. -/
structure TestsPrimality (n : Nat) : Prop where
  exact : n.Prime ↔ ∀ random : Nat → Bytes, (∀ i, (random i).length = baseBytes n) →
    isPrimeChecked random n = some true
  returns : ∀ random : Nat → Bytes, (∀ i, (random i).length = baseBytes n) →
    ∃ answer, isPrimeChecked random n = some answer
  factors : EntersRounds n → ∃ d s, factorTwos (bitLength (n - 1)) (n - 1) 0 = some (d, s) ∧
    n - 1 = 2 ^ s.toNat * d ∧ d % 2 = 1 ∧ 1 ≤ s.toNat
  bases : EntersRounds n → ∀ bytes : Bytes, bytes.length = baseBytes n →
    ∃ a, drawBase n bytes = some a ∧ 2 ≤ a ∧ a ≤ n - 2

theorem testsPrimality_of_fits
    (hfits : EntersRounds n → (splitTwos (bitLength (n - 1)) (n - 1)).2 < 2 ^ 32) :
    TestsPrimality n := by
  have hrun := isPrimeChecked_eq hfits
  refine ⟨⟨?_, ?_⟩, ?_, ?_, ?_⟩
  · intro hn random _
    rw [hrun, isPrime_of_prime hn]
  · intro hall
    by_contra hn
    obtain ⟨random, hlength, hfalse⟩ := exists_exposing hn
    have htrue := hall random hlength
    rw [hrun, hfalse] at htrue
    cases htrue
  · intro random _
    exact ⟨_, hrun random⟩
  · intro henters
    obtain ⟨hpos, hbits⟩ := bitLength_pred_spec henters
    have hcount := hfits henters
    have heven := henters.2.1
    have hsome := splitTwos_pos (bitLength_pos hpos) (show (n - 1) % 2 = 0 by omega)
    have hval := UInt32.toNat_ofNat_of_lt' hcount
    have hfactor := factorTwos_eq (k := bitLength (n - 1)) (d := n - 1) (s := 0)
      (by rw [UInt32.toNat_zero]; omega)
    rw [UInt32.zero_add] at hfactor
    refine ⟨_, _, hfactor, ?_, splitTwos_odd hpos hbits, ?_⟩
    · rw [hval, splitTwos_spec]
    · rw [hval]
      exact hsome
  · intro henters bytes _
    exact ⟨_, drawBase_eq henters bytes, roundBase_range henters _⟩

theorem testsPrimality_iff_twos {limit : Nat} (hlimit : limit = 2 ^ 32) :
    TestsPrimality n ↔ (EntersRounds n → ¬ 2 ^ limit ∣ n - 1) := by
  constructor
  · intro htests henters hdvd
    obtain ⟨d, s, -, hsplit, hodd, -⟩ := htests.factors henters
    have hlt := s.toNat_lt
    exact not_dvd_of_split hsplit hodd (show s.toNat < limit by omega) hdvd
  · intro hfits
    apply testsPrimality_of_fits
    intro henters
    have hcount := splitTwos_lt (k := bitLength (n - 1)) (hfits henters)
    omega

/-- The test is right wherever its `u32` counts the twos of `n - 1`. -/
theorem testsPrimality_iff (n : Nat) :
    TestsPrimality n ↔ (EntersRounds n → ¬ 2 ^ 2 ^ 32 ∣ n - 1) :=
  testsPrimality_iff_twos rfl

/-- From here on the counter is past its `u32`. -/
theorem factorTwos_panics (hchecks : overflowChecks = true) {k d : Nat} {s : UInt32}
    (h : 2 ^ 32 ≤ s.toNat + (splitTwos k d).2) : factorTwos k d s = none := by
  induction k generalizing d s with
  | zero =>
    have hlt := s.toNat_lt
    simp only [splitTwos] at h
    omega
  | succ k ih =>
    have hlt := s.toNat_lt
    unfold splitTwos at h
    unfold factorTwos
    split
    next heven =>
      rw [if_pos heven] at h
      dsimp only at h
      unfold succU32
      split
      · rfl
      · next hroom =>
        have hne : s.toNat + 1 ≠ 2 ^ 32 := fun he => hroom ⟨hchecks, he⟩
        have hval : (s + 1).toNat = s.toNat + 1 := by
          rw [UInt32.toNat_add]
          exact Nat.mod_eq_of_lt (by change s.toNat + 1 < _; omega)
        exact ih (by omega)
    next hodd =>
      rw [if_neg hodd] at h
      dsimp only at h
      omega

theorem isPrimeChecked_panics (hchecks : overflowChecks = true) (henters : EntersRounds n)
    (htwos : 2 ^ 32 ≤ (splitTwos (bitLength (n - 1)) (n - 1)).2) (random : Nat → Bytes) :
    isPrimeChecked random n = none := by
  obtain ⟨hone, htwo, hthree⟩ := henters
  have hfactor := factorTwos_panics hchecks (k := bitLength (n - 1)) (d := n - 1) (s := 0)
    (by rw [UInt32.toNat_zero]; omega)
  unfold isPrimeChecked
  rw [if_neg (by omega), if_neg htwo, if_neg hthree, subBig_of_le (Nat.le_of_lt hone)]
  dsimp only [Option.bind_eq_bind, Option.bind_some]
  rw [hfactor]
  rfl

end Checked

theorem entersRounds_pow {limit k : Nat} (heven : limit = 2 * k) (hk : 0 < k) :
    EntersRounds (2 ^ limit + 1) := by
  have hfour : 2 ^ limit % 3 = 1 := by
    rw [heven, Nat.pow_mul, Nat.pow_mod]
    exact (congrArg (· % 3) (Nat.one_pow k)).trans rfl
  have htwo : 2 ^ limit % 2 = 0 := by
    obtain ⟨j, rfl⟩ := Nat.exists_eq_succ_of_ne_zero (Nat.pos_iff_ne_zero.mp hk)
    rw [heven, Nat.mul_succ, Nat.pow_succ, Nat.mul_mod_left]
  have hpos := Nat.two_pow_pos limit
  exact ⟨by omega, by omega, by omega⟩

theorem le_twos_pow (limit : Nat) :
    limit ≤ (splitTwos (bitLength (2 ^ limit + 1 - 1)) (2 ^ limit + 1 - 1)).2 := by
  rw [Nat.add_sub_cancel]
  exact le_splitTwos (Nat.two_pow_pos limit) (lt_two_pow_bitLength _) (dvd_refl _)

theorem not_testsPrimality_pow [Platform] (hchecks : overflowChecks = true) {limit k : Nat}
    (heven : limit = 2 * k) (hk : 0 < k) (hlimit : limit = 2 ^ 32) :
    (∀ random, isPrimeChecked random (2 ^ limit + 1) = none) ∧
      ¬ TestsPrimality (2 ^ limit + 1) := by
  have henters := entersRounds_pow heven hk
  refine ⟨?_, ?_⟩
  · exact isPrimeChecked_panics hchecks henters (hlimit ▸ le_twos_pow limit)
  · intro htests
    exact (testsPrimality_iff_twos hlimit).mp htests henters (dvd_refl _)

/-- Before `2 ^ 2 ^ 32 + 1` there are more twos than the counter holds. -/
theorem not_testsPrimality :
    (∀ random, @isPrimeChecked (Platform.constant true) random (2 ^ 2 ^ 32 + 1) = none) ∧
      ¬ @TestsPrimality (Platform.constant true) (2 ^ 2 ^ 32 + 1) :=
  @not_testsPrimality_pow (Platform.constant true) rfl (2 ^ 32) (2 ^ 31) rfl (by decide) rfl

end KoSta.Client
