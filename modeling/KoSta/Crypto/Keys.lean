import KoSta.Crypto.SessionCrypto
import KoSta.Lib.ModPow
import KoSta.Tl.Types

/-! Key material of the exchange: identifiers, temporary keys, padding, Diffie–Hellman. -/
namespace KoSta.Crypto
open Lib Tl

variable [Platform]

abbrev AuthKey := Vector UInt8 256

/-- Bytes 12 to 19 of a SHA-1 hash as a little-endian integer. -/
def hashTail (data : Bytes) : Int64 := i64FromLeBytes (slice (sha1 data).toList 12 8).toList

def computeKeyFingerprint (publicKey : Vector UInt8 32) : Int64 := hashTail publicKey.toList

def computeAuthKeyId (sharedSecret : Nat) : Int64 := hashTail (toBytesLe sharedSecret)

def newNonceHash1 (sharedSecret : Nat) : Int128 :=
  ⟨slice (sha1 (toBytesLe sharedSecret)).toList 0 16⟩

/-- The 32-byte blocks of `from_shared_secret`, each hashed from the one before. -/
def authKeyBlock (secretBytes : Bytes) (nonce serverNonce : Vector UInt8 16) :
    Nat → Vector UInt8 32
  | 0 => sha256 (secretBytes ++ (nonce.toList ++ serverNonce.toList))
  | i + 1 => sha256 ((authKeyBlock secretBytes nonce serverNonce i).toList ++ secretBytes)

def authKeyFromSharedSecret (secret : Nat) (nonce serverNonce : Vector UInt8 16) : AuthKey :=
  let block := authKeyBlock (toBytesLe secret) nonce serverNonce
  slice ((List.range 8).flatMap fun i => (block i).toList) 0 256

/-! ### Temporary keys -/

/-- The pair both `tmp_key` functions derive from a client value and the server nonce. -/
def tmpKeyOf (clientPart serverNonce : Bytes) : Vector UInt8 32 × Vector UInt8 12 :=
  (sha256 (clientPart ++ serverNonce), slice (sha256 (serverNonce ++ clientPart)).toList 0 12)

def tmpKey (newNonce : Int256) (serverNonce : Int128) : Vector UInt8 32 × Vector UInt8 12 :=
  tmpKeyOf newNonce.val.toList serverNonce.val.toList

def tmpKeyFromNonce (nonce serverNonce : Int128) : Vector UInt8 32 × Vector UInt8 12 :=
  tmpKeyOf nonce.val.toList serverNonce.val.toList

def encryptInner (key : Vector UInt8 32 × Vector UInt8 12) (data : Bytes) :
    Except CryptoError Bytes :=
  match aes256GcmEncrypt key.1 key.2 data with
  | some ciphertext => .ok ciphertext
  | none => .error (.custom "GCM encryption failed: aead::Error")

def decryptInner (key : Vector UInt8 32 × Vector UInt8 12) (data : Bytes) :
    Except CryptoError Bytes :=
  match aes256GcmDecrypt key.1 key.2 data with
  | some plaintext => .ok plaintext
  | none => .error (.custom "GCM decryption failed: aead::Error")

/-! ### Padding -/

/-- What `pad` draws: a position in its range and the bytes. -/
structure PadDraw where
  position : Nat
  bytes : Nat → UInt8

def minPad (len : Nat) : Nat := max 12 ((16 - len % 16) % 16)

/-- `gen_range(min_pad..=1024)`, then as many more as make the total a multiple of 16. -/
def totalPad (len position : Nat) : Nat :=
  let padLen := minPad len + position % (1025 - minPad len)
  padLen + (16 - (len + padLen) % 16) % 16

def pad (draw : PadDraw) (data : Bytes) : Bytes :=
  data ++ (List.range (totalPad data.length draw.position)).map draw.bytes

/-- `&padded[..original_len]`, which panics beyond the end. -/
def unpad (padded : Bytes) (originalLen : Nat) : Option Bytes :=
  if originalLen ≤ padded.length then some (padded.take originalLen) else none

omit [Platform] in
theorem length_pad (draw : PadDraw) (data : Bytes) :
    (pad draw data).length = data.length + totalPad data.length draw.position := by
  simp [pad]

omit [Platform] in
theorem totalPad_bounds (len position : Nat) :
    12 ≤ totalPad len position ∧ totalPad len position ≤ 1039 ∧
      (len + totalPad len position) % 16 = 0 := by
  have hmin : 12 ≤ minPad len ∧ minPad len ≤ 15 := by
    unfold minPad
    omega
  have hmod : position % (1025 - minPad len) < 1025 - minPad len := Nat.mod_lt _ (by omega)
  unfold totalPad
  dsimp only
  omega

/-! ### Diffie–Hellman -/

/-- The number in 256 random bytes. -/
def generatePrivateKey (bytes : Vector UInt8 256) : Nat := fromBytesLe bytes.toList

def computePublicKey (g priv p : Nat) : Nat := modPow g priv p

def computeSharedSecret (peerPublic priv p : Nat) : Nat := modPow peerPublic priv p

omit [Platform] in
/-- Both sides end with the same power of the generator. -/
theorem computeSharedSecret_comm (g a b p : Nat) :
    computeSharedSecret (computePublicKey g b p) a p =
      computeSharedSecret (computePublicKey g a p) b p := by
  simp only [computeSharedSecret, computePublicKey, modPow_eq]
  rw [← Nat.pow_mod, ← Nat.pow_mod, ← Nat.pow_mul, ← Nat.pow_mul, Nat.mul_comm]

end KoSta.Crypto
