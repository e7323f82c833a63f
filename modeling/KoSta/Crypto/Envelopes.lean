import KoSta.Crypto.Keys
import KoSta.Tl.Roundtrip

/-! Objects that are padded and encrypted: what comes out of the envelope again. -/
namespace KoSta.Crypto
open Lib Tl

variable [Platform]

/-- What the documentation of AES-GCM promises: messages of up to `2 ^ 36` bytes are encrypted, and
decryption inverts encryption. -/
def Inverts : Prop := ∀ key nonce data, data.length ≤ 2 ^ 36 → ∃ ciphertext,
  aes256GcmEncrypt key nonce data = some ciphertext ∧
    aes256GcmDecrypt key nonce ciphertext = some data

theorem exists_envelope (hgcm : Inverts) (key : Vector UInt8 32 × Vector UInt8 12) {data : Bytes}
    (h : data.length ≤ 2 ^ 36) : ∃ ciphertext,
    encryptInner key data = .ok ciphertext ∧ decryptInner key ciphertext = .ok data := by
  obtain ⟨ciphertext, hencrypt, hdecrypt⟩ := hgcm key.1 key.2 data h
  refine ⟨ciphertext, ?_, ?_⟩
  · unfold encryptInner
    rw [hencrypt]
  · unfold decryptInner
    rw [hdecrypt]

omit [Platform] in
theorem prefix_pad (draw : PadDraw) (data : Bytes) : data <+: pad draw data :=
  List.prefix_append _ _

omit [Platform] in
theorem unpad_pad (draw : PadDraw) (data : Bytes) :
    unpad (pad draw data) data.length = some data := by
  have hlen := length_pad draw data
  unfold unpad
  rw [if_pos (by omega), pad, List.take_left]

omit [Platform] in
/-- The reader stops where the object ends, whatever the padding. -/
theorem readBoxed_pad (draw : PadDraw) {o : TlObject}
    (h : o.writeBoxed.length ≤ Transport.maxFrameSize) : ∃ rest,
    TlObject.readBoxed.run (pad draw o.writeBoxed) = .ok o rest := by
  refine ⟨_, reads_writeBoxed o ?_ _⟩
  unfold Transport.maxFrameSize at h
  unfold lengthLimit
  omega

/-- A padded object is a multiple of the block size, a little longer than the object, and read
back from its envelope, whatever the padding. -/
theorem padded_read_back (hgcm : Inverts) (o : TlObject)
    (h : o.writeBoxed.length ≤ Transport.maxFrameSize) (draw : PadDraw)
    (key : Vector UInt8 32 × Vector UInt8 12) :
    o.writeBoxed <+: pad draw o.writeBoxed ∧
    (∃ added, (pad draw o.writeBoxed).length = o.writeBoxed.length + added ∧
      12 ≤ added ∧ added ≤ 1039) ∧
    (pad draw o.writeBoxed).length % 16 = 0 ∧
    unpad (pad draw o.writeBoxed) o.writeBoxed.length = some o.writeBoxed ∧
    ∃ ciphertext decrypted rest, encryptInner key (pad draw o.writeBoxed) = .ok ciphertext ∧
      decryptInner key ciphertext = .ok decrypted ∧
      TlObject.readBoxed.run decrypted = .ok o rest := by
  obtain ⟨hlow, hhigh, hmod⟩ := totalPad_bounds o.writeBoxed.length draw.position
  have hlen := length_pad draw o.writeBoxed
  refine ⟨prefix_pad draw _, ⟨_, hlen, hlow, hhigh⟩, hlen ▸ hmod, unpad_pad draw _, ?_⟩
  have hsmall : (pad draw o.writeBoxed).length ≤ 2 ^ 36 := by
    unfold Transport.maxFrameSize at h
    omega
  obtain ⟨ciphertext, hencrypt, hdecrypt⟩ := exists_envelope hgcm key hsmall
  obtain ⟨rest, hread⟩ := readBoxed_pad draw h
  exact ⟨ciphertext, _, rest, hencrypt, hdecrypt, hread⟩

omit [Platform] in
theorem inverts_constant : @Inverts (Platform.constant false) := by
  intro key nonce data _
  have hlen : (data ++ List.replicate 16 (0 : UInt8)).length = data.length + 16 := by
    rw [List.length_append, List.length_replicate]
  refine ⟨_, rfl, ?_⟩
  change (if (data ++ List.replicate 16 (0 : UInt8)).length < 16 then none else
    some ((data ++ List.replicate 16 0).take
      ((data ++ List.replicate 16 (0 : UInt8)).length - 16))) =
      some data
  rw [if_neg (by omega), hlen, Nat.add_sub_cancel, List.take_left]

omit [Platform] in
/-- A query for a page, padded with sevens. -/
theorem padded_read_back_getHistory : letI := Platform.constant false
    let o := TlObject.getHistory ⟨⟨7⟩, 0, 20⟩
    let key := (Vector.replicate 32 0, Vector.replicate 12 0)
    let padded := pad ⟨5, fun _ => 7⟩ o.writeBoxed
    unpad padded o.writeBoxed.length = some o.writeBoxed ∧
      ∃ ciphertext decrypted rest, encryptInner key padded = .ok ciphertext ∧
        decryptInner key ciphertext = .ok decrypted ∧
        TlObject.readBoxed.run decrypted = .ok o rest := by
  let _ := Platform.constant false
  obtain ⟨-, -, -, h⟩ := padded_read_back inverts_constant (.getHistory ⟨⟨7⟩, 0, 20⟩) (by decide)
    ⟨5, fun _ => 7⟩ (Vector.replicate 32 0, Vector.replicate 12 0)
  exact h

end KoSta.Crypto
