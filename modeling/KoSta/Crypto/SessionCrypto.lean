import KoSta.Platform
import KoSta.Lib.Endian

/-! The session cipher: four keys, two counters, encryption in counter mode under a MAC. -/
namespace KoSta.Crypto
open Lib

variable [Platform]

inductive CryptoError where
  | custom (message : String)
  deriving DecidableEq, Repr

abbrev AesKey := Vector UInt8 32
abbrev MacKey := Vector UInt8 32
abbrev Nonce := Vector UInt8 16
abbrev Tag := Vector UInt8 16

/-- The keys in the order client write, client MAC, server write, server MAC. -/
def deriveKeys (sharedSecret : Bytes) (clientNonce serverNonce : Vector UInt8 16) :
    AesKey × MacKey × AesKey × MacKey :=
  let salt := sha256 (clientNonce.toList ++ serverNonce.toList)
  let okm := (hkdfSha256 salt.toList sharedSecret "kosta-keys".toUTF8.data.toList).toList
  (slice okm 0 32, slice okm 32 32, slice okm 64 32, slice okm 96 32)

def u32ToBeBytes (x : UInt32) : Vector UInt8 4 := slice (leBytes 4 x.toNat).reverse 0 4

/-- Four bytes of counter, then twelve random ones. -/
def generateNonce (counter : UInt32) (random : Vector UInt8 12) : Nonce :=
  slice ((u32ToBeBytes counter).toList ++ random.toList) 0 16

/-- `ctr::encrypt`, which is its own inverse and never fails. -/
def ctrEncrypt (key : AesKey) (nonce : Nonce) (plaintext : Bytes) : Bytes :=
  plaintext.mapIdx fun i b => b ^^^ aes256CtrKeystream key nonce i

def ctrDecrypt (key : AesKey) (nonce : Nonce) (ciphertext : Bytes) : Bytes :=
  ctrEncrypt key nonce ciphertext

/-- The first half of the MAC over nonce and ciphertext. -/
def computeTag (macKey : MacKey) (nonce : Nonce) (ciphertext : Bytes) : Tag :=
  slice (hmacSha256 macKey.toList (nonce.toList ++ ciphertext)).toList 0 16

/-- The MAC accepts a key of any length, so the error branch of the source is never taken. -/
def encryptAndTag (aesKey : AesKey) (macKey : MacKey) (nonce : Nonce) (plaintext : Bytes) :
    Bytes × Tag :=
  let ciphertext := ctrEncrypt aesKey nonce plaintext
  (ciphertext, computeTag macKey nonce ciphertext)

def decryptAndVerify (aesKey : AesKey) (macKey : MacKey) (nonce : Nonce) (ciphertext : Bytes)
    (tag : Tag) : Except CryptoError Bytes :=
  if computeTag macKey nonce ciphertext = tag then
    .ok (ctrDecrypt aesKey nonce ciphertext)
  else
    .error (.custom "MAC verification failed")

structure SessionCrypto where
  clientWriteKey : AesKey
  clientMacKey : MacKey
  serverWriteKey : AesKey
  serverMacKey : MacKey
  sendCounter : UInt32
  recvCounter : UInt32
  deriving DecidableEq, Repr

namespace SessionCrypto

def keys (crypto : SessionCrypto) : AesKey × MacKey × AesKey × MacKey :=
  (crypto.clientWriteKey, crypto.clientMacKey, crypto.serverWriteKey, crypto.serverMacKey)

def new (sharedSecret : Bytes) (clientNonce serverNonce : Vector UInt8 16) : SessionCrypto :=
  let (cw, cm, sw, sm) := deriveKeys sharedSecret clientNonce serverNonce
  { clientWriteKey := cw, clientMacKey := cm, serverWriteKey := sw, serverMacKey := sm,
    sendCounter := 0, recvCounter := 0 }

/-- Both `encrypt_outgoing` methods; `none` is the overflow panic of the counter. -/
def encryptWith (aesKey : AesKey) (macKey : MacKey) (crypto : SessionCrypto)
    (random : Vector UInt8 12) (plaintext : Bytes) :
    Option ((Nonce × Bytes × Tag) × SessionCrypto) := do
  let nonce := generateNonce crypto.sendCounter random
  let sendCounter ← succU32 crypto.sendCounter
  let (ciphertext, tag) := encryptAndTag aesKey macKey nonce plaintext
  return ((nonce, ciphertext, tag), { crypto with sendCounter })

/-- Both `decrypt_incoming` methods: the counter moves only once the MAC has been checked. -/
def decryptWith (aesKey : AesKey) (macKey : MacKey) (crypto : SessionCrypto) (nonce : Nonce)
    (ciphertext : Bytes) (tag : Tag) : Except (Failure CryptoError) (Bytes × SessionCrypto) :=
  match decryptAndVerify aesKey macKey nonce ciphertext tag with
  | .error e => .error (.error e)
  | .ok plaintext =>
    match succU32 crypto.recvCounter with
    | none => .error .panic
    | some recvCounter => .ok (plaintext, { crypto with recvCounter })

def encryptOutgoing (crypto : SessionCrypto) :=
  encryptWith crypto.clientWriteKey crypto.clientMacKey crypto

def decryptIncoming (crypto : SessionCrypto) :=
  decryptWith crypto.serverWriteKey crypto.serverMacKey crypto

def encryptOutgoingServer (crypto : SessionCrypto) :=
  encryptWith crypto.serverWriteKey crypto.serverMacKey crypto

def decryptIncomingServer (crypto : SessionCrypto) :=
  decryptWith crypto.clientWriteKey crypto.clientMacKey crypto

end SessionCrypto

/-! ### Facts about the cipher -/

@[simp] theorem length_ctrEncrypt (key : AesKey) (nonce : Nonce) (data : Bytes) :
    (ctrEncrypt key nonce data).length = data.length := by
  simp [ctrEncrypt]

@[simp] theorem ctrDecrypt_ctrEncrypt (key : AesKey) (nonce : Nonce) (data : Bytes) :
    ctrDecrypt key nonce (ctrEncrypt key nonce data) = data := by
  apply List.ext_getElem
  · simp [ctrDecrypt, ctrEncrypt]
  · intro i hi _
    simp only [ctrDecrypt, ctrEncrypt, List.getElem_mapIdx, UInt8.xor_assoc, UInt8.xor_self,
      UInt8.xor_zero]

theorem decryptAndVerify_encryptAndTag (aesKey : AesKey) (macKey : MacKey) (nonce : Nonce)
    (plaintext : Bytes) :
    decryptAndVerify aesKey macKey nonce (encryptAndTag aesKey macKey nonce plaintext).1
      (encryptAndTag aesKey macKey nonce plaintext).2 = .ok plaintext := by
  simp [decryptAndVerify, encryptAndTag]

/-- The three ways a decryption ends, each with what it needs. -/
theorem decryptWith_cases (aesKey : AesKey) (macKey : MacKey) (crypto : SessionCrypto)
    (nonce : Nonce) (ciphertext : Bytes) (tag : Tag) :
    (computeTag macKey nonce ciphertext ≠ tag ∧
      crypto.decryptWith aesKey macKey nonce ciphertext tag =
        .error (.error (.custom "MAC verification failed"))) ∨
    (computeTag macKey nonce ciphertext = tag ∧ succU32 crypto.recvCounter = none ∧
      crypto.decryptWith aesKey macKey nonce ciphertext tag = .error .panic) ∨
    ∃ recvCounter, computeTag macKey nonce ciphertext = tag ∧
      succU32 crypto.recvCounter = some recvCounter ∧
      crypto.decryptWith aesKey macKey nonce ciphertext tag =
        .ok (ctrDecrypt aesKey nonce ciphertext, { crypto with recvCounter }) := by
  by_cases h : computeTag macKey nonce ciphertext = tag
  · cases hc : succU32 crypto.recvCounter with
    | none => simp [SessionCrypto.decryptWith, decryptAndVerify, h, hc]
    | some c => simp [SessionCrypto.decryptWith, decryptAndVerify, h, hc]
  · simp [SessionCrypto.decryptWith, decryptAndVerify, h]

omit [Platform] in
theorem toList_u32ToBeBytes (x : UInt32) :
    (u32ToBeBytes x).toList = (leBytes 4 x.toNat).reverse := by
  apply toList_slice
  rw [List.length_reverse, length_leBytes]

omit [Platform] in
theorem toList_generateNonce (counter : UInt32) (random : Vector UInt8 12) :
    (generateNonce counter random).toList = (u32ToBeBytes counter).toList ++ random.toList := by
  apply toList_slice
  rw [List.length_append, Vector.length_toList, Vector.length_toList]

/-- Decryption changes the receive counter of the cipher, and nothing else. -/
theorem decryptIncomingServer_ok {crypto crypto' : SessionCrypto} {nonce : Nonce}
    {ciphertext plaintext : Bytes} {tag : Tag}
    (h : crypto.decryptIncomingServer nonce ciphertext tag = .ok (plaintext, crypto')) :
    ∃ recvCounter, crypto' = { crypto with recvCounter } := by
  change crypto.decryptWith crypto.clientWriteKey crypto.clientMacKey nonce ciphertext tag = _ at h
  rcases decryptWith_cases crypto.clientWriteKey crypto.clientMacKey crypto
    nonce ciphertext tag with
    ⟨_, heq⟩ | ⟨_, _, heq⟩ | ⟨recvCounter, _, _, heq⟩
  · rw [heq] at h
    cases h
  · rw [heq] at h
    cases h
  · rw [heq] at h
    cases h
    exact ⟨recvCounter, rfl⟩

/-- Encryption seals under the counter it finds and leaves the next one. -/
theorem encryptOutgoingServer_some {crypto : SessionCrypto} {random : Vector UInt8 12}
    {plaintext : Bytes} {sealed : (Nonce × Bytes × Tag) × SessionCrypto}
    (h : crypto.encryptOutgoingServer random plaintext = some sealed) :
    ∃ sendCounter, succU32 crypto.sendCounter = some sendCounter ∧
      sealed = ((generateNonce crypto.sendCounter random,
        (encryptAndTag crypto.serverWriteKey crypto.serverMacKey
          (generateNonce crypto.sendCounter random) plaintext).1,
        (encryptAndTag crypto.serverWriteKey crypto.serverMacKey
          (generateNonce crypto.sendCounter random) plaintext).2),
            { crypto with sendCounter }) := by
  unfold SessionCrypto.encryptOutgoingServer SessionCrypto.encryptWith at h
  cases hcounter : succU32 crypto.sendCounter with
  | none =>
    rw [hcounter] at h
    cases h
  | some sendCounter =>
    rw [hcounter] at h
    cases h
    exact ⟨sendCounter, rfl, rfl⟩

end KoSta.Crypto
