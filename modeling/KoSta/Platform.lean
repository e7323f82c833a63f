import KoSta.Lib.Reader

/-! What the program is built on: the cryptographic crates and the arithmetic of its build. -/
namespace KoSta
open Lib

/-- How a call ends without a value: an error its caller sees, or a panic of the thread. -/
inductive Failure (ε : Type) where
  | error (e : ε)
  | panic
  deriving DecidableEq, Repr

def Failure.map {ε ε' : Type} (f : ε → ε') : Failure ε → Failure ε'
  | .error e => .error (f e)
  | .panic => .panic

/-- The third-party functions the code calls, and whether the build checks for overflow. -/
class Platform where
  overflowChecks : Bool
  sha1 : Bytes → Vector UInt8 20
  sha256 : Bytes → Vector UInt8 32
  hmacSha256 (key data : Bytes) : Vector UInt8 32
  hkdfSha256 (salt ikm info : Bytes) : Vector UInt8 128
  aes256CtrKeystream (key : Vector UInt8 32) (nonce : Vector UInt8 16) : Nat → UInt8
  aes256GcmEncrypt (key : Vector UInt8 32) (nonce : Vector UInt8 12) (plaintext : Bytes) :
    Option Bytes
  aes256GcmDecrypt (key : Vector UInt8 32) (nonce : Vector UInt8 12) (ciphertext : Bytes) :
    Option Bytes
  ed25519VerifyingKey (secret : Vector UInt8 32) : Vector UInt8 32
  ed25519Sign (secret : Vector UInt8 32) (data : Bytes) : Vector UInt8 64
  ed25519Verify (verifyingKey : Vector UInt8 32) (data : Bytes) (signature : Vector UInt8 64) : Bool
  bcryptHash (salt : Vector UInt8 16) (password : String) : String

export Platform (overflowChecks sha1 sha256 hmacSha256 hkdfSha256 aes256CtrKeystream
  aes256GcmEncrypt aes256GcmDecrypt ed25519VerifyingKey ed25519Sign ed25519Verify bcryptHash)

/-- The plainest platform the code can be run on: its hashes and key streams are constant. -/
@[reducible] def Platform.constant (overflowChecks : Bool) : Platform where
  overflowChecks
  sha1 _ := Vector.replicate 20 1
  sha256 _ := Vector.replicate 32 0
  hmacSha256 _ _ := Vector.replicate 32 0
  hkdfSha256 _ _ _ := Vector.replicate 128 0
  aes256CtrKeystream _ _ _ := 0
  aes256GcmEncrypt _ _ plaintext := some (plaintext ++ List.replicate 16 0)
  aes256GcmDecrypt _ _ ciphertext :=
    if ciphertext.length < 16 then none else some (ciphertext.take (ciphertext.length - 16))
  ed25519VerifyingKey secret := secret
  ed25519Sign _ _ := Vector.replicate 64 0
  ed25519Verify _ _ _ := true
  bcryptHash _ password := password

/-! ### Arithmetic of the build -/

section Arithmetic

variable [Platform]

/-- `x + 1` on `u32`; `none` is the overflow panic of a checked build. -/
def succU32 (x : UInt32) : Option UInt32 :=
  if overflowChecks ∧ x.toNat + 1 = 2 ^ 32 then none else some (x + 1)

/-- `x + 1` on `i32`. -/
def succI32 (x : Int32) : Option Int32 :=
  if overflowChecks ∧ x.toInt + 1 = 2 ^ 31 then none else some (x + 1)

/-- `x - y` on `i64`. -/
def subI64 (x y : Int64) : Option Int64 :=
  if overflowChecks ∧ (x - y).toInt ≠ x.toInt - y.toInt then none else some (x - y)

@[simp] theorem succU32_zero : succU32 0 = some 1 := by
  simp [succU32]

@[simp] theorem succI32_neg_one : succI32 (-1) = some 0 := by
  simp [succI32]

theorem succU32_ne {x y : UInt32} (h : succU32 x = some y) : y ≠ x := by
  unfold succU32 at h
  split at h
  · cases h
  · cases h
    intro he
    have hval := congrArg UInt32.toNat he
    rw [UInt32.toNat_add] at hval
    have hone : (1 : UInt32).toNat = 1 := rfl
    have hlt := x.toNat_lt
    omega

end Arithmetic

/-! ### Byte slices -/

/-- `bytes[start..start + n]` as an array; the callers have checked the length. -/
def slice (bytes : Bytes) (start n : Nat) : Vector UInt8 n :=
  Vector.ofFn fun i => bytes.getD (start + i.val) 0

theorem toList_slice {bytes : Bytes} {n : Nat} (h : bytes.length = n) :
    (slice bytes 0 n).toList = bytes := by
  subst h
  apply List.ext_getElem
  · rw [Vector.length_toList]
  · intro i hi hi'
    simp [slice]

theorem slice_append {x y : Bytes} {n : Nat} (v : Vector UInt8 n) :
    slice (x ++ (v.toList ++ y)) x.length n = v := by
  ext i hi
  have hv : i < v.toList.length := by simpa using hi
  have hget : (v.toList ++ y)[i]? = some v[i] := by
    rw [List.getElem?_append_left hv, List.getElem?_eq_getElem hv, Vector.getElem_toList]
  simp [slice, List.getD_eq_getElem?_getD, List.getElem?_append_right, hget]

end KoSta
