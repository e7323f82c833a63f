import KoSta.Lib.ModPow

/-! The checks on primes and public values that client and server share. -/
namespace KoSta.Client
open Lib

/-- Divide by two while even; the first argument bounds the number of divisions. -/
def splitTwos : Nat → Nat → Nat × Nat
  | 0, d => (d, 0)
  | k + 1, d =>
    if d % 2 = 0 then
      let (d', s) := splitTwos k (d / 2)
      (d', s + 1)
    else (d, 0)

/-- Whether squaring `x` at most `k` times meets `n - 1`. -/
def squaresReach (n : Nat) : Nat → Nat → Bool
  | 0, _ => false
  | k + 1, x =>
    let x := x * x % n
    if x = n - 1 then true else squaresReach n k x

def millerRabinRound (n d s a : Nat) : Bool :=
  let x := modPow a d n
  if x = 1 ∨ x = n - 1 then true else squaresReach n (s - 1) x

/-- The base of one round, from the number the random bytes spell. -/
def roundBase (n draw : Nat) : Nat := if n ≤ 4 then 2 else draw % (n - 3) + 2

/-- The answer of `is_prime` when its `u32` has room for the twos of `n - 1`, as it has for up to
`2 ^ 32` bits (`isPrimeChecked_of_bits`); `isPrimeChecked` counts in a `u32` and may panic. -/
def isPrime (draws : Nat → Nat) (n : Nat) : Bool :=
  if n ≤ 1 then false
  else if n % 2 = 0 then n = 2
  else if n % 3 = 0 then n = 3
  else
    let (d, s) := splitTwos (bitLength (n - 1)) (n - 1)
    (List.range 20).all fun i => millerRabinRound n d s (roundBase n (draws i))

def validateDhParams (draws : Nat → Nat) (dhPrime g : Nat) : Except String Unit :=
  if !isPrime draws dhPrime then
    .error "dh_prime is not prime"
  else if bitLength dhPrime < 2048 then
    .error "dh_prime is too small (must be at least 2048 bits)"
  else if g ≤ 1 ∨ g ≥ dhPrime - 1 then
    .error "g must be in range (1, p-1)"
  else
    .ok ()

def validatePublicValue (value p : Nat) : Except String Unit :=
  if value ≤ 1 ∨ value ≥ p - 1 then .error "Public key out of range" else .ok ()

theorem validatePublicValue_ok {value p : Nat} :
    validatePublicValue value p = .ok () ↔ 1 < value ∧ value < p - 1 := by
  unfold validatePublicValue
  split
  · refine ⟨nofun, ?_⟩
    omega
  · refine ⟨fun _ => ?_, fun _ => rfl⟩
    omega

end KoSta.Client
