import KoSta.Client.Session

/-! What a failed receive leaves behind. -/
namespace KoSta.Client
open Lib Tl Crypto Transport

variable {T α β γ : Type}

/-! ### Parts of the session a call does not touch -/

/-- `x` never changes this part of the session, whether it fails or not. -/
def Keeps (part : Session T → γ) (x : ClientM T α) : Prop := ∀ s, part (x.exec s).2 = part s

namespace Keeps

variable {part : Session T → γ} {x y : ClientM T α} {f : α → ClientM T β}

theorem pure (a : α) : Keeps part (pure a) := fun _ => rfl

theorem throw (e : Failure KostaError) : Keeps part (throw e : ClientM T α) := fun _ => rfl

theorem get : Keeps part get := fun _ => rfl

theorem modify {g : Session T → Session T} (h : ∀ s, part (g s) = part s) :
    Keeps part (modify g) := h

theorem bind (hx : Keeps part x) (hf : ∀ a, Keeps part (f a)) : Keeps part (x >>= f) := by
  intro s
  have hs := hx s
  cases h : x.exec s with
  | mk result s' =>
    rw [h] at hs
    cases result with
    | error e => rwa [exec_bind_of_error h]
    | ok a => rw [exec_bind_of_ok h, hf a s', hs]

theorem ite {c : Prop} [Decidable c] (hx : Keeps part x) (hy : Keeps part y) :
    Keeps part (if c then x else y) := by
  split
  · exact hx
  · exact hy

theorem readFrom (r : Reader Tl.Error α) (bytes : Bytes) : Keeps part (readFrom r bytes) := by
  unfold Client.readFrom
  cases r.run bytes <;> exact fun _ => rfl

theorem orPanic (x : Option α) : Keeps part (orPanic x) := by
  cases x <;> exact fun _ => rfl

end Keeps

/-- Whether `x` succeeds, and what it returns, does not depend on the transport. -/
def Offline (x : ClientM T α) : Prop :=
  ∀ s t, x.exec { s with transport := t } =
    ((x.exec s).1, { (x.exec s).2 with transport := t })

namespace Offline

variable {x y : ClientM T α} {f : α → ClientM T β}

theorem pure (a : α) : Offline (pure a : ClientM T α) := fun _ _ => rfl

theorem throw (e : Failure KostaError) : Offline (throw e : ClientM T α) := fun _ _ => rfl

theorem modify {g : Session T → Session T}
    (h : ∀ s t, g { s with transport := t } = { g s with transport := t }) :
    Offline (modify g) := by
  intro s t
  rw [exec_modify, exec_modify, h]

theorem get {f : Session T → ClientM T β} (hf : ∀ s, Offline (f s))
    (heq : ∀ s t, f { s with transport := t } = f s) : Offline (get >>= f) := by
  intro s t
  rw [exec_bind_of_ok (exec_get _), exec_bind_of_ok (exec_get _), heq]
  exact hf s s t

theorem bind (hx : Offline x) (hf : ∀ a, Offline (f a)) : Offline (x >>= f) := by
  intro s t
  have ht := hx s t
  cases h : x.exec s with
  | mk result s' =>
    rw [h] at ht
    cases result with
    | error e => rw [exec_bind_of_error h, exec_bind_of_error ht]
    | ok a => rw [exec_bind_of_ok h, exec_bind_of_ok ht, hf a s' t]

theorem ite {c : Prop} [Decidable c] (hx : Offline x) (hy : Offline y) :
    Offline (if c then x else y) := by
  split
  · exact hx
  · exact hy

theorem readFrom (r : Reader Tl.Error α) (bytes : Bytes) :
    Offline (Client.readFrom r bytes : ClientM T _) := by
  unfold Client.readFrom
  cases r.run bytes <;> exact fun _ _ => rfl

theorem orPanic (x : Option α) : Offline (Client.orPanic x : ClientM T α) := by
  cases x <;> exact fun _ _ => rfl

theorem ofExcept {ε : Type} (g : ε → KostaError) (x : Except (Failure ε) α) :
    Offline (Client.ofExcept g x : ClientM T α) := by
  cases x <;> exact fun _ _ => rfl

end Offline

section Checks

variable [Platform] {s s' : Session T} {crypto : SessionCrypto} {raw : Bytes} {now : Nat}

theorem acceptPlaintext_keeps (part : Session T → γ)
    (hlast : ∀ s id, part { s with recvLastMsgId := id } = part s)
    (hseq : ∀ s n, part { s with recvSeqNo := n } = part s) (now : Nat) (plaintext : Bytes) :
    Keeps part (acceptPlaintext now plaintext : ClientM T TlObject) := by
  refine (Keeps.readFrom _ _).bind fun header => Keeps.get.bind fun s => ?_
  refine (Keeps.throw _).ite (Keeps.bind (Keeps.modify fun s => hlast s _) fun _ => ?_)
  refine (Keeps.orPanic _).bind fun expected => ?_
  refine (Keeps.throw _).ite (Keeps.bind (Keeps.modify fun s => hseq s _) fun _ => ?_)
  refine (Keeps.orPanic _).bind fun diff => ?_
  exact (Keeps.throw _).ite ((Keeps.readFrom _ _).bind fun _ => Keeps.pure _)

theorem acceptPlaintext_offline (now : Nat) (plaintext : Bytes) :
    Offline (acceptPlaintext now plaintext : ClientM T TlObject) := by
  refine (Offline.readFrom _ _).bind fun header => ?_
  refine Offline.get (fun s => ?_) fun _ _ => rfl
  refine (Offline.throw _).ite (Offline.bind (Offline.modify ?_) fun _ => ?_)
  · exact fun _ _ => rfl
  refine (Offline.orPanic _).bind fun expected => ?_
  refine (Offline.throw _).ite (Offline.bind (Offline.modify ?_) fun _ => ?_)
  · exact fun _ _ => rfl
  refine (Offline.orPanic _).bind fun diff => ?_
  exact (Offline.throw _).ite ((Offline.readFrom _ _).bind fun _ => Offline.pure _)

theorem receive_offline (now : Nat) (raw : Bytes) :
    Offline (receive now raw : ClientM T TlObject) := by
  refine Offline.get (fun s => ?_) fun _ _ => rfl
  cases s.crypto with
  | none => exact (Offline.readFrom _ _).bind fun _ => Offline.pure _
  | some crypto =>
    refine Offline.get (fun s => ?_) fun _ _ => rfl
    refine (Offline.throw _).ite ((Offline.throw _).ite ?_)
    refine (Offline.ofExcept _ _).bind fun opened => ?_
    refine Offline.bind (Offline.modify ?_) fun _ => acceptPlaintext_offline _ _
    exact fun _ _ => rfl

/-! ### Frames that pass the MAC -/

/-- A frame of the session's server, as far as key id and MAC can tell. -/
structure Authentic (s : Session T) (crypto : SessionCrypto) (raw : Bytes) : Prop where
  long : minFrame ≤ raw.length
  key : frameAuthKeyId raw = s.authKeyId.getD 0
  tag : computeTag crypto.serverMacKey (frameNonce raw) (frameCiphertext raw) = frameTag raw

/-- Neither the fields the checks compare with nor the fate of any later frame has changed. -/
structure Untouched (s s' : Session T) (crypto : SessionCrypto) : Prop where
  recvLastMsgId : s'.recvLastMsgId = s.recvLastMsgId
  recvSeqNo : s'.recvSeqNo = s.recvSeqNo
  counters : ∃ crypto', s'.crypto = some crypto' ∧ crypto'.sendCounter = crypto.sendCounter ∧
    crypto'.recvCounter = crypto.recvCounter
  next : ∀ now raw, ((receive now raw).exec s').1 = ((receive now raw).exec s).1

theorem openIncoming_of_not_authentic (now : Nat) (h : ¬ Authentic s crypto raw) :
    ∃ e, (openIncoming now crypto raw).exec s = (.error (.error e), s) := by
  unfold openIncoming
  rw [exec_bind_of_ok (exec_get s)]
  by_cases hlong : raw.length < minFrame
  · exact ⟨_, by rw [if_pos hlong, exec_protocolError]⟩
  by_cases hkey : frameAuthKeyId raw ≠ s.authKeyId.getD 0
  · exact ⟨_, by rw [if_neg hlong, if_pos hkey, exec_protocolError]⟩
  rw [if_neg hlong, if_neg hkey]
  rcases decryptWith_cases crypto.serverWriteKey crypto.serverMacKey crypto (frameNonce raw)
    (frameCiphertext raw) (frameTag raw) with ⟨_, heq⟩ | ⟨htag, _⟩ | ⟨_, htag, _⟩
  · refine ⟨.crypto (.custom "MAC verification failed"), exec_bind_of_error ?_⟩
    rw [SessionCrypto.decryptIncoming, heq]
    rfl
  · exact absurd ⟨Nat.not_lt.mp hlong, not_not.mp hkey, htag⟩ h
  · exact absurd ⟨Nat.not_lt.mp hlong, not_not.mp hkey, htag⟩ h

/-- Past the MAC the receive counter has moved, whatever the later checks say. -/
theorem openIncoming_of_authentic (now : Nat) {recvCounter : UInt32} (h : Authentic s crypto raw)
    (hc : succU32 crypto.recvCounter = some recvCounter) :
    (openIncoming now crypto raw).exec s =
      (acceptPlaintext now (ctrDecrypt crypto.serverWriteKey (frameNonce raw)
        (frameCiphertext raw))).exec { s with crypto := some { crypto with recvCounter } } := by
  unfold openIncoming
  rw [exec_bind_of_ok (exec_get s), if_neg (Nat.not_lt.mpr h.long), if_neg (not_not.mpr h.key)]
  rcases decryptWith_cases crypto.serverWriteKey crypto.serverMacKey crypto (frameNonce raw)
    (frameCiphertext raw) (frameTag raw) with ⟨htag, _⟩ | ⟨_, hn, _⟩ | ⟨c, _, hs, heq⟩
  · exact absurd h.tag htag
  · rw [hc] at hn
    cases hn
  · obtain rfl := Option.some.inj (hc.symm.trans hs)
    rw [SessionCrypto.decryptIncoming, heq]
    rfl

theorem openIncoming_of_overflow (now : Nat) (h : Authentic s crypto raw)
    (hc : succU32 crypto.recvCounter = none) :
    (openIncoming now crypto raw).exec s = (.error .panic, s) := by
  unfold openIncoming
  rw [exec_bind_of_ok (exec_get s), if_neg (Nat.not_lt.mpr h.long), if_neg (not_not.mpr h.key)]
  rcases decryptWith_cases crypto.serverWriteKey crypto.serverMacKey crypto (frameNonce raw)
    (frameCiphertext raw) (frameTag raw) with ⟨htag, _⟩ | ⟨_, _, heq⟩ | ⟨c, _, hs, _⟩
  · exact absurd h.tag htag
  · rw [SessionCrypto.decryptIncoming, heq]
    rfl
  · rw [hc] at hs
    cases hs

section Recv

variable [FrameTransport T] {t : T} {e : KostaError}

theorem exec_recvTl (hs : s.crypto = some crypto)
    (hraw : FrameTransport.recv s.transport = (.ok raw, t)) :
    (recvTl now).exec s = (openIncoming now crypto raw).exec { s with transport := t } := by
  have hrecv : (transportRecv : ClientM T Bytes).exec s = (.ok raw, { s with transport := t }) := by
    simp only [transportRecv, exec_bind, exec_get, hraw, exec_set]
    rfl
  rw [recvTl, exec_bind_of_ok hrecv, receive, exec_bind_of_ok (exec_get _)]
  simp only [hs]

/-- A refused frame leaves the session as it was exactly if it fails the length, key or MAC test:
every later check comes after a field has been set. -/
theorem recvTl_untouched_iff (hs : s.crypto = some crypto)
    (hraw : FrameTransport.recv s.transport = (.ok raw, t))
    (herr : (recvTl now).exec s = (.error (.error e), s')) :
    Untouched s s' crypto ↔ ¬ Authentic s crypto raw := by
  rw [exec_recvTl hs hraw] at herr
  constructor
  · rintro ⟨_, _, ⟨crypto', hcrypto', _, hcounter⟩, _⟩ hauth
    have hauth' : Authentic { s with transport := t } crypto raw :=
      ⟨hauth.long, hauth.key, hauth.tag⟩
    cases hc : succU32 crypto.recvCounter with
    | none =>
      have hp := openIncoming_of_overflow now hauth' hc
      rw [herr] at hp
      cases hp
    | some recvCounter =>
      have heq := openIncoming_of_authentic now hauth' hc
      have hkeep := acceptPlaintext_keeps Session.crypto (fun _ _ => rfl)
        (fun _ _ => rfl) now (ctrDecrypt crypto.serverWriteKey
        (frameNonce raw) (frameCiphertext raw))
        { s with transport := t, crypto := some { crypto with recvCounter } }
      rw [← heq, herr, hcrypto'] at hkeep
      cases hkeep
      exact succU32_ne hc hcounter
  · intro hauth
    have hauth' : ¬ Authentic { s with transport := t } crypto raw :=
      fun h => hauth ⟨h.long, h.key, h.tag⟩
    obtain ⟨e', heq⟩ := openIncoming_of_not_authentic now hauth'
    obtain rfl : { s with transport := t } = s' := congrArg Prod.snd (heq.symm.trans herr)
    refine ⟨rfl, rfl, ⟨crypto, hs, rfl, rfl⟩, fun now raw => ?_⟩
    rw [receive_offline now raw s t]

end Recv

end Checks

/-! ### A genuine frame that overtakes its predecessor -/

def blankCrypto : SessionCrypto where
  clientWriteKey := Vector.replicate 32 0
  clientMacKey := Vector.replicate 32 0
  serverWriteKey := Vector.replicate 32 0
  serverMacKey := Vector.replicate 32 0
  sendCounter := 0
  recvCounter := 0

/-- A session that has just been authenticated, with one frame waiting to be received. -/
def freshSession (raw : Bytes) : Session MockTransport where
  authKeyId := some 7
  crypto := some blankCrypto
  serverSalt := 0
  lastMsgId := 0
  recvLastMsgId := 0
  seqNo := -1
  transport := ⟨UInt8.ofNat raw.length :: raw, []⟩
  authKey := none
  recvSeqNo := -1
  msgIdCounter := 0
  userId := none

theorem recv_freshSession {raw : Bytes} (h : raw.length ≤ 0x7e) :
    FrameTransport.recv (freshSession raw).transport = (.ok raw, ⟨[], []⟩) := by
  have hdecode := decodeFrameFromSlice_short h []
  rw [List.append_nil] at hdecode
  simp only [FrameTransport.recv, freshSession, hdecode]

section SecondMessage

variable [Platform]

/-- The server's second message, received before its first. -/
def secondMessage : Bytes :=
  encryptedFrame blankCrypto.serverWriteKey blankCrypto.serverMacKey 7 (Vector.replicate 16 0)
    (withHeader (msgId 1 1) 1 [])

theorem authentic_secondMessage (t : MockTransport) :
    Authentic { freshSession secondMessage with transport := t } blankCrypto secondMessage where
  long := by
    rw [secondMessage, length_encryptedFrame]
    exact Nat.le_add_right _ _
  key := frameAuthKeyId_encryptedFrame _ _ _ _ _
  tag := computeTag_encryptedFrame _ _ _ _ _

theorem exec_recvTl_secondMessage (now : Nat) : (recvTl now).exec (freshSession secondMessage) =
    (.error (.error (.protocol "Unexpected seq_no (possible replay)")),
      { freshSession secondMessage with
        transport := ⟨[], []⟩
        crypto := some { blankCrypto with recvCounter := 1 }
        recvLastMsgId := msgId 1 1 }) := by
  have hlen : secondMessage.length ≤ 0x7e := by
    rw [secondMessage, length_encryptedFrame]
    decide
  have hplain : ctrDecrypt blankCrypto.serverWriteKey (frameNonce secondMessage)
      (frameCiphertext secondMessage) = withHeader (msgId 1 1) 1 [] :=
    ctrDecrypt_encryptedFrame _ _ _ _ _
  have hnew : ¬ msgId 1 1 ≤ (freshSession secondMessage).recvLastMsgId := by
    change ¬ msgId 1 1 ≤ 0
    decide
  rw [exec_recvTl rfl (recv_freshSession hlen),
    openIncoming_of_authentic now (authentic_secondMessage _) succU32_zero, hplain, acceptPlaintext]
  simp only [readFrom, run_readHeader, exec_bind, exec_pure, exec_get]
  rw [if_neg hnew]
  refine (exec_bind_of_ok (exec_modify _ _)).trans ?_
  have hexpected : succI32 (freshSession secondMessage).recvSeqNo = some 0 := succI32_neg_one
  rw [hexpected]
  rfl

end SecondMessage

/-- It is refused with the session changed, as it passes the three tests. -/
theorem recvTl_untouched_iff_secondMessage : letI := Platform.constant true
    Untouched (freshSession secondMessage)
      { freshSession secondMessage with
        transport := ⟨[], []⟩
        crypto := some { blankCrypto with recvCounter := 1 }
        recvLastMsgId := msgId 1 1 } blankCrypto ↔
      ¬ Authentic (freshSession secondMessage) blankCrypto secondMessage := by
  let _ := Platform.constant true
  have hlen : secondMessage.length ≤ 0x7e := by
    rw [secondMessage, length_encryptedFrame]
    decide
  exact recvTl_untouched_iff rfl (recv_freshSession hlen) (exec_recvTl_secondMessage 0)

theorem recvTl_touches : ¬ ∃ _ : Platform, ∀ (s s' : Session MockTransport)
    (crypto : SessionCrypto) (raw : Bytes) (t : MockTransport) (now : Nat) (e : KostaError),
    s.crypto = some crypto → FrameTransport.recv s.transport = (.ok raw, t) →
    (recvTl now).exec s = (.error (.error e), s') → Untouched s s' crypto := by
  rintro ⟨_, h⟩
  have hlen : secondMessage.length ≤ 0x7e := by
    rw [secondMessage, length_encryptedFrame]
    decide
  have hun := h _ _ blankCrypto _ _ 0 _ rfl (recv_freshSession hlen) (exec_recvTl_secondMessage 0)
  have hchanged : msgId 1 1 ≠ (0 : Int64) := by decide
  exact hchanged hun.recvLastMsgId

end KoSta.Client
