import KoSta.Crypto.SessionCrypto
import KoSta.MsgId
import KoSta.Tl.Roundtrip

/-! The bytes of an encrypted message: key id, nonce, ciphertext, tag. -/
namespace KoSta.Crypto
open Lib Tl

/-- What both senders put together before `transport.send`. -/
def sealFrame (authKeyId : Int64) (nonce : Nonce) (ciphertext : Bytes) (tag : Tag) : Bytes :=
  i64ToLeBytes authKeyId ++ (nonce.toList ++ (ciphertext ++ tag.toList))

/-- The shortest frame that can hold key id, nonce and tag. -/
def minFrame : Nat := 8 + 16 + 16

def frameAuthKeyId (raw : Bytes) : Int64 := i64FromLeBytes (raw.take 8)

def frameNonce (raw : Bytes) : Nonce := slice raw 8 16

def frameTag (raw : Bytes) : Tag := slice raw (raw.length - 16) 16

def frameCiphertext (raw : Bytes) : Bytes := (raw.take (raw.length - 16)).drop 24

section Sealed

variable (authKeyId : Int64) (nonce : Nonce) (ciphertext : Bytes) (tag : Tag)

@[simp] theorem length_sealFrame :
    (sealFrame authKeyId nonce ciphertext tag).length = 40 + ciphertext.length := by
  simp only [sealFrame, List.length_append, i64ToLeBytes, length_leBytes, Vector.length_toList]
  omega

@[simp] theorem frameAuthKeyId_sealFrame :
    frameAuthKeyId (sealFrame authKeyId nonce ciphertext tag) = authKeyId := by
  have h : (i64ToLeBytes authKeyId).length = 8 := length_leBytes 8 _
  rw [frameAuthKeyId, sealFrame, List.take_left' h, i64FromLeBytes_i64ToLeBytes]

@[simp] theorem frameNonce_sealFrame :
    frameNonce (sealFrame authKeyId nonce ciphertext tag) = nonce := by
  have h : (i64ToLeBytes authKeyId).length = 8 := length_leBytes 8 _
  have hslice := slice_append (x := i64ToLeBytes authKeyId) (y := ciphertext ++ tag.toList) nonce
  rwa [h] at hslice

@[simp] theorem frameTag_sealFrame :
    frameTag (sealFrame authKeyId nonce ciphertext tag) = tag := by
  have hslice := slice_append (x := i64ToLeBytes authKeyId ++ (nonce.toList ++ ciphertext))
    (y := []) tag
  have hlen : (i64ToLeBytes authKeyId ++ (nonce.toList ++ ciphertext)).length =
      (sealFrame authKeyId nonce ciphertext tag).length - 16 := by
    rw [length_sealFrame]
    simp only [List.length_append, i64ToLeBytes, length_leBytes, Vector.length_toList]
    omega
  have hbytes : i64ToLeBytes authKeyId ++ (nonce.toList ++ ciphertext) ++ (tag.toList ++ []) =
      sealFrame authKeyId nonce ciphertext tag := by
    simp [sealFrame]
  rwa [hbytes, hlen] at hslice

@[simp] theorem frameCiphertext_sealFrame :
    frameCiphertext (sealFrame authKeyId nonce ciphertext tag) = ciphertext := by
  have hfront : (i64ToLeBytes authKeyId ++ nonce.toList).length = 24 := by
    simp [i64ToLeBytes]
  have hbytes : sealFrame authKeyId nonce ciphertext tag =
      (i64ToLeBytes authKeyId ++ nonce.toList) ++ ciphertext ++ tag.toList := by
    simp [sealFrame]
  have hlen : ((i64ToLeBytes authKeyId ++ nonce.toList) ++ ciphertext).length =
      (sealFrame authKeyId nonce ciphertext tag).length - 16 := by
    rw [length_sealFrame]
    simp only [List.length_append, i64ToLeBytes, length_leBytes, Vector.length_toList]
    omega
  rw [frameCiphertext, ← hlen, hbytes, List.take_left, List.drop_left' hfront]

end Sealed

/-! ### Frames of a key holder -/

section KeyHolder

variable [Platform] (aesKey : AesKey) (macKey : MacKey) (authKeyId : Int64) (nonce : Nonce)
variable (plaintext : Bytes)

/-- The frame both senders build from a plaintext, their two keys and a nonce. -/
def encryptedFrame : Bytes :=
  let (ciphertext, tag) := encryptAndTag aesKey macKey nonce plaintext
  sealFrame authKeyId nonce ciphertext tag

theorem length_encryptedFrame :
    (encryptedFrame aesKey macKey authKeyId nonce plaintext).length = 40 + plaintext.length := by
  simp [encryptedFrame, encryptAndTag]

theorem frameAuthKeyId_encryptedFrame :
    frameAuthKeyId (encryptedFrame aesKey macKey authKeyId nonce plaintext) = authKeyId := by
  simp [encryptedFrame]

theorem computeTag_encryptedFrame : computeTag macKey
    (frameNonce (encryptedFrame aesKey macKey authKeyId nonce plaintext))
    (frameCiphertext (encryptedFrame aesKey macKey authKeyId nonce plaintext)) =
      frameTag (encryptedFrame aesKey macKey authKeyId nonce plaintext) := by
  simp [encryptedFrame, encryptAndTag]

theorem ctrDecrypt_encryptedFrame : ctrDecrypt aesKey
    (frameNonce (encryptedFrame aesKey macKey authKeyId nonce plaintext))
    (frameCiphertext (encryptedFrame aesKey macKey authKeyId nonce plaintext)) = plaintext := by
  simp [encryptedFrame, encryptAndTag]

/-- The server opens what a client with its keys has sealed. -/
theorem decryptIncomingServer_encryptedFrame {crypto : SessionCrypto} {recvCounter : UInt32}
    (h : succU32 crypto.recvCounter = some recvCounter) :
    let raw := encryptedFrame crypto.clientWriteKey crypto.clientMacKey authKeyId nonce plaintext
    crypto.decryptIncomingServer (frameNonce raw) (frameCiphertext raw) (frameTag raw) =
      .ok (plaintext, { crypto with recvCounter }) := by
  intro raw
  rcases decryptWith_cases crypto.clientWriteKey crypto.clientMacKey crypto (frameNonce raw)
    (frameCiphertext raw) (frameTag raw) with ⟨hne, -⟩ | ⟨-, hnone, -⟩ | ⟨c, -, hc, heq⟩
  · exact absurd (computeTag_encryptedFrame _ _ _ _ _) hne
  · rw [h] at hnone
    cases hnone
  · rw [h] at hc
    cases hc
    rw [ctrDecrypt_encryptedFrame] at heq
    exact heq

end KeyHolder

theorem run_readHeader (id : Int64) (seqNo : Int32) (data : Bytes) :
    readHeader.run (withHeader id seqNo data) = .ok (id, seqNo) data := by
  have h : Reader.Reads lengthLimit readHeader (writeBytes id ++ writeBytes seqNo) (id, seqNo) :=
    (reads id).bind (reads seqNo).map
  have hlen : (writeBytes id ++ writeBytes seqNo).length < lengthLimit := by
    simp [writeBytes, lengthLimit]
  rw [withHeader, ← List.append_assoc]
  exact h hlen data

end KoSta.Crypto
