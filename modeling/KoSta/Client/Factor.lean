import KoSta.Client.DhChecks
import KoSta.Client.Session

/-! Factoring `pq`: trial division of small numbers, small primes, and Pollard's rho. -/
namespace KoSta.Client
open Lib

/-! ### Square roots in floating point -/

/-- `n as f64`: 53 significant bits, rounded to the nearest and to even between two. -/
def asF64 (n : Nat) : Nat :=
  let unit := 2 ^ (bitLength n - 53)
  let low := n % unit
  let up := unit < 2 * low ∨ unit = 2 * low ∧ n / unit % 2 = 1
  if up then (n / unit + 1) * unit else n / unit * unit

/-- `x.sqrt() as u64`: the root of an integer below `2 ^ 106` with 53 significant bits, rounded to
the nearest, without its fraction. -/
def sqrtF64 (x : Nat) : Nat :=
  let fraction := 52 - (bitLength x - 1) / 2
  let scaled := x * 4 ^ fraction
  let root := Nat.sqrt scaled
  let rounded := if root * root + root < scaled then root + 1 else root
  rounded / 2 ^ fraction

/-! ### `factor_u64` -/

/-- The loop over odd divisors; the first argument bounds their number. -/
def oddDivisor (n limit : Nat) : Nat → Nat → Option (Nat × Nat)
  | 0, _ => none
  | k + 1, d =>
    if d ≤ limit then
      if n % d = 0 ∧ 1 < n / d then some (d, n / d) else oddDivisor n limit k (d + 2)
    else none

def factorU64 (n : Nat) : Option (Nat × Nat) :=
  if n ≤ 1 then none
  else if n % 2 = 0 ∧ 1 < n / 2 then some (2, n / 2)
  else
    let limit := sqrtF64 (asF64 n)
    oddDivisor n limit limit 3

/-! ### The small primes -/

/-- The inner loop of the sieve; the first argument bounds the number of strokes. -/
def strike (limit i : Nat) : Nat → Nat → Array Bool → Array Bool
  | 0, _, sieve => sieve
  | k + 1, j, sieve =>
    if j ≤ limit then strike limit i k (j + i) (sieve.setIfInBounds j false) else sieve

def sieveStep (limit : Nat) (sieve : Array Bool) (i : Nat) : Array Bool :=
  if sieve.getD i false then strike limit i (limit + 1) (i * i) sieve else sieve

def sieveStart (limit : Nat) : Array Bool :=
  let sieve := Array.replicate (limit + 1) true
  let sieve := if 0 < limit then sieve.setIfInBounds 0 false else sieve
  if 1 < limit then sieve.setIfInBounds 1 false else sieve

def primesUpTo (limit : Nat) : List Nat :=
  let rounds := List.range' 2 (sqrtF64 (asF64 limit) - 1)
  let sieve := rounds.foldl (sieveStep limit) (sieveStart limit)
  (List.range (limit + 1)).filter fun i => sieve.getD i false

def smallPrimes : List Nat := primesUpTo 100000

/-! ### Pollard's rho -/

/-- What an attempt draws. -/
structure RhoStart where
  c : Nat
  x0 : Nat
  c_range : 1 ≤ c ∧ c < 1000
  x0_range : 2 ≤ x0 ∧ x0 < 100

/-- The variables of the loop. -/
structure Rho where
  x : Nat
  y : Nat
  d : Nat
  power : Nat
  iteration : Nat
  deriving DecidableEq

def Rho.start (s : RhoStart) : Rho where
  x := s.x0
  y := s.x0
  d := 1
  power := 1
  iteration := 0

def absDiff (x y : Nat) : Nat := if x > y then x - y else y - x

def Rho.next (n c : Nat) (r : Rho) : Rho :=
  let y := if r.iteration = r.power then r.x else r.y
  let x := (r.x * r.x + c) % n
  { x, y
    d := Nat.gcd r.d (absDiff x y)
    power := if r.iteration = r.power then r.power * 2 else r.power
    iteration := r.iteration + 1 }

/-- The loop, with the number of iterations that are left. -/
def Rho.run (n c : Nat) : Nat → Rho → Rho
  | 0, r => r
  | k + 1, r => if r.d = 1 then (r.next n c).run n c k else r

def maxIter : Nat := 200000

def maxAttempts : Nat := 500

def rho (n : Nat) (s : RhoStart) : Rho := (Rho.start s).run n s.c maxIter

/-! ### `factor_pq` -/

/-- What `factor_pq` draws: the start of each attempt, and the bases of each test of `p` and `q`. -/
structure FactorDraws where
  starts : Nat → RhoStart
  quick : Bool → Nat → Nat
  trial : Nat → Bool → Nat → Nat
  found : Nat → Bool → Nat → Nat

/-- Both factors are tested (`is_prime` answers as `isPrime` up to `2 ^ 32` bits), and the smaller
one comes first. -/
def primePair (bases : Bool → Nat → Nat) (p q : Nat) : Option (Bytes × Bytes) :=
  if isPrime (bases false) p ∧ isPrime (bases true) q then
    some (if p < q then (toBytesBe p, toBytesBe q) else (toBytesBe q, toBytesBe p))
  else none

def quickFactors (draws : FactorDraws) (n : Nat) : Option (Bytes × Bytes) :=
  if n < 2 ^ 64 then
    match factorU64 n with
    | some (p, q) => primePair draws.quick p q
    | none => none
  else none

def trialFactors (draws : FactorDraws) (n prime : Nat) : Option (Bytes × Bytes) :=
  if n % prime = 0 ∧ 1 < prime ∧ 1 < n / prime then primePair (draws.trial prime) prime (n / prime)
  else none

def rhoFactors (draws : FactorDraws) (n attempt : Nat) : Option (Bytes × Bytes) :=
  let d := (rho n (draws.starts attempt)).d
  if d ≠ 1 ∧ d ≠ n ∧ 1 < d ∧ 1 < n / d then primePair (draws.found attempt) d (n / d) else none

def factorPq (draws : FactorDraws) (n : Nat) : Except KostaError (Bytes × Bytes) :=
  if n ≤ 1 then .error (.protocol "n must be > 1")
  else
    match (quickFactors draws n).or ((smallPrimes.findSome? (trialFactors draws n)).or
      ((List.range maxAttempts).findSome? (rhoFactors draws n))) with
    | some factors => .ok factors
    | none => .error (.protocol "Pollard's rho (Brent) failed to factor n")

end KoSta.Client
