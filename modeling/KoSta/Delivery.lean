import KoSta.Client.Send
import KoSta.Server.Runs

/-! What one side puts into a frame is what the other side takes out of it. -/
namespace KoSta
open Lib Tl Crypto Transport Client Server

/-- What an encrypted frame says: whose it is and what it carries. -/
structure Parcel where
  authKeyId : Int64
  msgId : Int64
  seqNo : Int32
  obj : TlObject
  deriving DecidableEq

section Receivers

variable [Platform] {T : Type}

/-- The steps in which `handle_client` and `recv_tl` take a frame apart with the keys of its
sender. What they compare with their own state in between is left out. -/
def takeApart (aesKey : AesKey) (macKey : MacKey) (raw : Bytes) :
    Except (Failure KostaError) Parcel :=
  if raw.length < minFrame then .error (.error (.protocol "Message too short"))
  else
    match decryptAndVerify aesKey macKey (frameNonce raw) (frameCiphertext raw) (frameTag raw) with
    | .error e => .error (.error (.crypto e))
    | .ok plaintext =>
      match readHeader.run plaintext with
      | .err e => .error (.error (.core e))
      | .panic => .error .panic
      | .ok (msgId, seqNo) rest =>
        match TlObject.readBoxed.run rest with
        | .err e => .error (.error (.core e))
        | .panic => .error .panic
        | .ok obj _ => .ok ⟨frameAuthKeyId raw, msgId, seqNo, obj⟩

theorem takeApart_encryptedFrame (aesKey : AesKey) (macKey : MacKey) (authKeyId : Int64)
    (nonce : Nonce) (msgId : Int64) (seqNo : Int32) (obj : TlObject)
    (hfits : (encryptedFrame aesKey macKey authKeyId nonce
      (withHeader msgId seqNo obj.writeBoxed)).length ≤ maxFrameSize) :
    takeApart aesKey macKey (encryptedFrame aesKey macKey authKeyId nonce
      (withHeader msgId seqNo obj.writeBoxed)) = .ok ⟨authKeyId, msgId, seqNo, obj⟩ := by
  have hlong : ¬ (encryptedFrame aesKey macKey authKeyId nonce
      (withHeader msgId seqNo obj.writeBoxed)).length < minFrame := by
    rw [length_encryptedFrame]
    exact Nat.not_lt.mpr (Nat.le_add_right _ _)
  have hobj : obj.writeBoxed.length < lengthLimit := by
    rw [length_encryptedFrame] at hfits
    simp only [withHeader, List.length_append, maxFrameSize] at hfits
    unfold lengthLimit
    omega
  have hread := reads_writeBoxed obj hobj []
  rw [List.append_nil] at hread
  rw [takeApart, if_neg hlong, decryptAndVerify, if_pos (computeTag_encryptedFrame _ _ _ _ _),
    ctrDecrypt_encryptedFrame, frameAuthKeyId_encryptedFrame]
  simp only [run_readHeader, hread]

/-! ### The receivers -/

theorem acceptPlaintext_ok {now : Nat} {plaintext : Bytes} {obj : TlObject} {s s' : Session T}
    (h : (acceptPlaintext now plaintext).exec s = (.ok obj, s')) : ∃ rest rest',
      readHeader.run plaintext = .ok (s'.recvLastMsgId, s'.recvSeqNo) rest ∧
        TlObject.readBoxed.run rest = .ok obj rest' := by
  unfold acceptPlaintext at h
  obtain ⟨⟨⟨msgId, seqNo⟩, rest⟩, t₁, hread, h₁⟩ := exec_bind_ok h
  obtain ⟨hheader, rfl⟩ := Client.readFrom_ok hread
  dsimp only at h₁ hheader
  rw [exec_bind_of_ok (exec_get _)] at h₁
  split at h₁
  · cases h₁
  · rw [exec_bind_of_ok (exec_modify _ _)] at h₁
    obtain ⟨expected, t₂, hexpected, h₂⟩ := exec_bind_ok h₁
    obtain ⟨-, rfl⟩ := Client.orPanic_ok hexpected
    split at h₂
    · cases h₂
    · rw [exec_bind_of_ok (exec_modify _ _)] at h₂
      obtain ⟨diff, t₃, hdiff, h₃⟩ := exec_bind_ok h₂
      obtain ⟨-, rfl⟩ := Client.orPanic_ok hdiff
      split at h₃
      · cases h₃
      · obtain ⟨⟨obj', rest'⟩, t₄, hobj, h₄⟩ := exec_bind_ok h₃
        obtain ⟨hboxed, rfl⟩ := Client.readFrom_ok hobj
        cases h₄
        exact ⟨rest, rest', hheader, hboxed⟩

/-- A frame that `recv_tl` accepts says what `recv_tl` returns and leaves in the session. -/
theorem takeApart_of_receive {now : Nat} {raw : Bytes} {obj : TlObject} {s s' : Session T}
    {crypto : SessionCrypto} (hcrypto : s.crypto = some crypto)
    (h : (receive now raw).exec s = (.ok obj, s')) :
    takeApart crypto.serverWriteKey crypto.serverMacKey raw =
      .ok ⟨s.authKeyId.getD 0, s'.recvLastMsgId, s'.recvSeqNo, obj⟩ := by
  unfold receive at h
  rw [exec_bind_of_ok (exec_get s), hcrypto] at h
  dsimp only at h
  by_cases hauth : Authentic s crypto raw
  · cases hc : succU32 crypto.recvCounter with
    | none =>
      have hpanic := openIncoming_of_overflow now hauth hc
      rw [h] at hpanic
      cases hpanic
    | some counter =>
      rw [openIncoming_of_authentic now hauth hc] at h
      obtain ⟨rest, rest', hheader, hobj⟩ := acceptPlaintext_ok h
      rw [takeApart, if_neg (Nat.not_lt.mpr hauth.long), decryptAndVerify, if_pos hauth.tag,
        hauth.key]
      simp only [hheader, hobj]
  · obtain ⟨e, he⟩ := openIncoming_of_not_authentic now hauth
    rw [h] at he
    cases he

theorem acceptMessage_ok {now : Nat} {conn : ConnId} {id : Int64} {session : SessionData}
    {crypto : SessionCrypto} {plaintext tlData : Bytes} {found : FrameSession} {w w' : World}
    (h : (acceptMessage now conn id session crypto plaintext).exec w =
      (.ok (.ok (tlData, found)), w')) : found.crypto = crypto ∧ ∃ seqNo,
      readHeader.run plaintext = .ok (found.msgId, seqNo) tlData := by
  unfold acceptMessage at h
  obtain ⟨⟨⟨msgId, seqNo⟩, rest⟩, w₁, hread, h₁⟩ := Prog.exec_bind_ok h
  obtain ⟨hheader, -⟩ := Server.readFrom_ok hread
  dsimp only at h₁ hheader
  split at h₁
  · cases h₁
  · obtain ⟨fresh, w₂, -, h₂⟩ := Prog.exec_bind_ok h₁
    split at h₂
    · cases h₂
    · obtain ⟨expected, w₃, -, h₃⟩ := Prog.exec_bind_ok h₂
      split at h₃
      · cases h₃
      · obtain ⟨diff, w₄, -, h₄⟩ := Prog.exec_bind_ok h₃
        split at h₄
        · cases h₄
        · obtain ⟨_, w₅, -, h₅⟩ := Prog.exec_bind_ok h₄
          cases h₅
          exact ⟨rfl, seqNo, hheader⟩

/-- A frame that `handle_client` accepts says what is dispatched and under which identifier. -/
theorem takeApart_of_receiveEncrypted {now : Nat} {conn : ConnId} {id : Int64} {raw tlData : Bytes}
    {obj : TlObject} {rest : Bytes} {found : FrameSession} {w w' : World}
    (h : (receiveEncrypted now conn id raw).exec w = (.ok (.ok (tlData, found)), w'))
    (hobj : TlObject.readBoxed.run tlData = .ok obj rest) : ∃ seqNo,
      takeApart found.crypto.clientWriteKey found.crypto.clientMacKey raw =
        .ok ⟨frameAuthKeyId raw, found.msgId, seqNo, obj⟩ := by
  unfold receiveEncrypted at h
  obtain ⟨session, w₁, -, h⟩ := Prog.exec_bind_ok h
  cases session with
  | none => cases h
  | some session =>
    dsimp only at h
    split at h
    · cases h
    · rename_i hlong
      rcases decryptWith_cases session.crypto.clientWriteKey session.crypto.clientMacKey
        session.crypto (frameNonce raw) (frameCiphertext raw) (frameTag raw) with
        ⟨-, heq⟩ | ⟨-, -, heq⟩ | ⟨counter, htag, -, heq⟩
      · rw [SessionCrypto.decryptIncomingServer, heq] at h
        cases h
      · rw [SessionCrypto.decryptIncomingServer, heq] at h
        cases h
      · rw [SessionCrypto.decryptIncomingServer, heq] at h
        obtain ⟨hcrypto, seqNo, hheader⟩ := acceptMessage_ok h
        refine ⟨seqNo, ?_⟩
        rw [hcrypto, takeApart, if_neg hlong, decryptAndVerify, if_pos htag]
        simp only [hheader, hobj]

end Receivers

/-! ### The client's frames -/

/-- A connection with the frames that have been handed to it. -/
structure Recorder (T : Type) where
  inner : T
  sent : List Bytes

instance {T : Type} [FrameTransport T] : FrameTransport (Recorder T) where
  send data t :=
    match FrameTransport.send data t.inner with
    | (.ok (), inner) => (.ok (), ⟨inner, t.sent ++ [data]⟩)
    | (.error e, inner) => (.error e, { t with inner })
  recv t :=
    match FrameTransport.recv t.inner with
    | (result, inner) => (result, { t with inner })

section Client

variable [Platform] {T : Type} {s s' : Session T} {crypto : SessionCrypto}

omit [Platform] in
theorem withHeader_append (id : Int64) (seqNo : Int32) (data : Bytes) :
    withHeader id seqNo [] ++ data = withHeader id seqNo data := by
  simp [withHeader]

theorem exec_stampHeader (now : Nat) (s : Session T) : (stampHeader now).exec s =
    match succI32 s.seqNo with
    | none => (.error .panic, { s with
        msgIdCounter := s.msgIdCounter + 1, lastMsgId := msgId now s.msgIdCounter })
    | some seqNo => (.ok (withHeader (msgId now s.msgIdCounter) seqNo []), { s with
        msgIdCounter := s.msgIdCounter + 1, lastMsgId := msgId now s.msgIdCounter, seqNo }) := by
  unfold stampHeader
  rw [exec_bind_of_ok (exec_get s)]
  cases hseq : succI32 s.seqNo with
  | none => rfl
  | some seqNo => rfl

/-- What `send_tl` leaves for the transport to do: to send one frame. -/
theorem exec_sendTl [FrameTransport T] (hcrypto : s.crypto = some crypto) (now : Nat)
    (random : Vector UInt8 12) (obj : TlObject) :
    (∃ e s', (sendTl now random obj).exec s = (.error e, s') ∧ s'.transport = s.transport ∧
      s'.authKeyId = s.authKeyId ∧ s'.crypto = s.crypto) ∨
    ∃ seqNo nonce sendCounter, (sendTl now random obj).exec s =
      (transportSend (encryptedFrame crypto.clientWriteKey crypto.clientMacKey
        (s.authKeyId.getD 0) nonce
          (withHeader (msgId now s.msgIdCounter) seqNo obj.writeBoxed))).exec
        { s with
          msgIdCounter := s.msgIdCounter + 1, lastMsgId := msgId now s.msgIdCounter, seqNo
          crypto := some { crypto with sendCounter } } := by
  unfold sendTl
  rw [exec_bind_of_ok (exec_get s), hcrypto]
  dsimp only
  have hstamp := exec_stampHeader now s
  cases hseq : succI32 s.seqNo with
  | none =>
    rw [hseq] at hstamp
    exact Or.inl ⟨_, _, exec_bind_of_error hstamp, rfl, rfl, hcrypto⟩
  | some seqNo =>
    rw [hseq] at hstamp
    rw [exec_bind_of_ok hstamp]
    unfold SessionCrypto.encryptOutgoing SessionCrypto.encryptWith
    cases hcounter : succU32 crypto.sendCounter with
    | none => exact Or.inl ⟨_, _, exec_bind_of_error rfl, rfl, rfl, hcrypto⟩
    | some sendCounter =>
      refine Or.inr ⟨seqNo, generateNonce crypto.sendCounter random, sendCounter, ?_⟩
      rw [withHeader_append]
      rfl

/-- Whose frames a session sends and opens. -/
structure Keyed (id : Option Int64) (keys : AesKey × MacKey × AesKey × MacKey) (s : Session T) :
    Prop where
  authKeyId : s.authKeyId = id
  crypto : s.crypto.map SessionCrypto.keys = some keys

theorem keyed_openIncoming {id : Option Int64} {keys : AesKey × MacKey × AesKey × MacKey}
    (h : Keyed id keys s) (hcrypto : s.crypto = some crypto) (now : Nat) (raw : Bytes) :
    Keyed id keys ((openIncoming now crypto raw).exec s).2 ∧
      ((openIncoming now crypto raw).exec s).2.transport = s.transport := by
  by_cases hauth : Authentic s crypto raw
  · cases hc : succU32 crypto.recvCounter with
    | none =>
      rw [openIncoming_of_overflow now hauth hc]
      exact ⟨h, rfl⟩
    | some counter =>
      rw [openIncoming_of_authentic now hauth hc]
      have hkeep := acceptPlaintext_keeps (fun s => (s.authKeyId, s.crypto, s.transport))
        (fun _ _ => rfl) (fun _ _ => rfl) now (ctrDecrypt crypto.serverWriteKey (frameNonce raw)
          (frameCiphertext raw)) { s with crypto := some { crypto with recvCounter := counter } }
      obtain ⟨hid, hkeys⟩ := h
      simp only [Prod.mk.injEq] at hkeep
      rw [hcrypto] at hkeys
      exact ⟨⟨hkeep.1.trans hid, by rw [hkeep.2.1]; exact hkeys⟩, hkeep.2.2⟩
  · obtain ⟨e, he⟩ := openIncoming_of_not_authentic now hauth
    rw [he]
    exact ⟨h, rfl⟩

section Runs

variable [FrameTransport T] {id : Option Int64} {keys : AesKey × MacKey × AesKey × MacKey}

theorem keyed_recvTl (h : Keyed id keys s) (now : Nat) :
    Keyed id keys ((recvTl now).exec s).2 ∧
      ((recvTl now).exec s).2.transport = (FrameTransport.recv s.transport).2 := by
  obtain ⟨hid, hkeys⟩ := h
  obtain ⟨crypto, hcrypto, hsame⟩ := Option.map_eq_some_iff.mp hkeys
  rcases hraw : FrameTransport.recv s.transport with ⟨result, t⟩
  cases result with
  | ok raw =>
    have hs : Keyed id keys { s with transport := t } := ⟨hid, hkeys⟩
    rw [exec_recvTl hcrypto hraw]
    exact keyed_openIncoming hs hcrypto now raw
  | error e =>
    have hrecv : (transportRecv : ClientM T Bytes).exec s =
        (.error (Failure.map .transport e), { s with transport := t }) := by
      simp only [transportRecv, exec_bind, exec_get, hraw, exec_set]
      rfl
    rw [recvTl, exec_bind_of_error hrecv]
    exact ⟨⟨hid, hkeys⟩, rfl⟩

omit [Platform] in
theorem exec_transportSend_eq (data : Bytes) (s : Session T) :
    (Client.transportSend data).exec s =
      match FrameTransport.send data s.transport with
      | (.ok (), transport) => (.ok (), { s with transport })
      | (.error e, transport) => (.error (Failure.map .transport e), { s with transport }) := by
  unfold Client.transportSend
  rw [exec_bind_of_ok (exec_get s)]
  rcases FrameTransport.send data s.transport with ⟨result, transport⟩
  cases result with
  | ok _ => rfl
  | error e => rfl

theorem keyed_sendTl (h : Keyed id keys s) (now : Nat) (random : Vector UInt8 12)
    (obj : TlObject) : Keyed id keys ((sendTl now random obj).exec s).2 := by
  obtain ⟨hid, hkeys⟩ := h
  obtain ⟨crypto, hcrypto, hsame⟩ := Option.map_eq_some_iff.mp hkeys
  rcases exec_sendTl hcrypto now random obj with
    ⟨e, s', heq, -, hid', hcrypto'⟩ | ⟨seqNo, nonce, sendCounter, heq⟩
  · rw [heq]
    exact ⟨hid'.trans hid, by rw [hcrypto']; exact hkeys⟩
  · rw [heq, exec_transportSend_eq]
    rcases FrameTransport.send _ s.transport with ⟨result, transport⟩
    cases result with
    | ok _ => exact ⟨hid, congrArg some hsame⟩
    | error e => exact ⟨hid, congrArg some hsame⟩

def runCalls : List Call → Session T → Session T
  | [], s => s
  | .recv now :: calls, s => runCalls calls ((recvTl now).exec s).2
  | .send now random obj :: calls, s => runCalls calls ((sendTl now random obj).exec s).2

/-- What is sent in a run of calls, with the identifiers and sequence numbers it is sent under. -/
def parcels : List Call → Session T → List Parcel
  | [], _ => []
  | .recv now :: calls, s => parcels calls ((recvTl now).exec s).2
  | .send now random obj :: calls, s =>
    match (sendTl now random obj).exec s with
    | (.ok (), s') => ⟨s.authKeyId.getD 0, s'.lastMsgId, s'.seqNo, obj⟩ :: parcels calls s'
    | (.error _, s') => parcels calls s'

end Runs

/-- A frame that fits is taken apart into what was put into it. -/
def Delivers (aesKey : AesKey) (macKey : MacKey) (raw : Bytes) (parcel : Parcel) : Prop :=
  raw.length ≤ maxFrameSize → takeApart aesKey macKey raw = .ok parcel

/-- What one `send_tl` hands to the connection. -/
theorem sendTl_delivers [FrameTransport T] {s : Session (Recorder T)} {crypto : SessionCrypto}
    (hcrypto : s.crypto = some crypto) (now : Nat) (random : Vector UInt8 12) (obj : TlObject) :
    (∃ e s', (sendTl now random obj).exec s = (.error e, s') ∧
      s'.transport.sent = s.transport.sent) ∨
    ∃ raw s', (sendTl now random obj).exec s = (.ok (), s') ∧
      s'.transport.sent = s.transport.sent ++ [raw] ∧
      Delivers crypto.clientWriteKey crypto.clientMacKey raw
        ⟨s.authKeyId.getD 0, s'.lastMsgId, s'.seqNo, obj⟩ := by
  rcases exec_sendTl hcrypto now random obj with
    ⟨e, s', heq, htransport, -, -⟩ | ⟨seqNo, nonce, sendCounter, heq⟩
  · exact Or.inl ⟨e, s', heq, by rw [htransport]⟩
  · generalize hraw : encryptedFrame crypto.clientWriteKey crypto.clientMacKey (s.authKeyId.getD 0)
      nonce (withHeader (msgId now s.msgIdCounter) seqNo obj.writeBoxed) = raw at heq
    have hsend : FrameTransport.send raw s.transport =
        match FrameTransport.send raw s.transport.inner with
        | (.ok (), inner) => (.ok (), ⟨inner, s.transport.sent ++ [raw]⟩)
        | (.error e, inner) => (.error e, { s.transport with inner }) := rfl
    rw [exec_transportSend_eq] at heq
    dsimp only at heq
    rw [hsend] at heq
    rcases hinner : FrameTransport.send raw s.transport.inner with ⟨result, inner⟩
    rw [hinner] at heq
    cases result with
    | error e => exact Or.inl ⟨_, _, heq, rfl⟩
    | ok _ =>
      refine Or.inr ⟨raw, _, heq, rfl, ?_⟩
      subst hraw
      exact takeApart_encryptedFrame _ _ _ _ _ _ _

/-- A run of calls hands over one frame for each parcel. -/
theorem calls_deliver [FrameTransport T] (calls : List Call) {s : Session (Recorder T)}
    {id : Option Int64} {keys : AesKey × MacKey × AesKey × MacKey} (h : Keyed id keys s) :
    ∃ frames, (runCalls calls s).transport.sent = s.transport.sent ++ frames ∧
      List.Forall₂ (Delivers keys.1 keys.2.1) frames (parcels calls s) := by
  induction calls generalizing s with
  | nil => exact ⟨[], (List.append_nil _).symm, .nil⟩
  | cons call calls ih =>
    cases call with
    | recv now =>
      obtain ⟨hkeyed, htransport⟩ := keyed_recvTl h now
      obtain ⟨frames, hsent, hall⟩ := ih hkeyed
      refine ⟨frames, ?_, hall⟩
      rw [htransport] at hsent
      exact hsent
    | send now random obj =>
      have hkeyed := keyed_sendTl h now random obj
      obtain ⟨crypto, hcrypto, rfl⟩ := Option.map_eq_some_iff.mp h.crypto
      obtain ⟨frames, hsent, hall⟩ := ih hkeyed
      unfold runCalls parcels
      rcases sendTl_delivers hcrypto now random obj with
        ⟨e, s', heq, hsame⟩ | ⟨raw, s', heq, hmore, hdelivers⟩
      · rw [heq] at hsent hall ⊢
        exact ⟨frames, by rw [hsent, hsame], hall⟩
      · rw [heq] at hsent hall ⊢
        exact ⟨raw :: frames, by rw [hsent, hmore, List.append_assoc]; rfl, .cons hdelivers hall⟩

end Client

/-! ### The server's frames -/

section Server

variable [Platform]

/-- What a response hands to the connection, under the number and counter that were reserved. -/
theorem respondEncrypted_delivers (draws : FrameDraws) (conn : ConnId) (session : FrameSession)
    (obj : TlObject) (w w' : World)
    (h : (respondEncrypted draws conn session obj.writeBoxed).exec w = (.ok (), w')) :
    ∃ raw seqNo counter, ((reserveResponse conn session.id).exec w).1 = .ok (seqNo, counter) ∧
      (∃ older, w'.trace =
        .sent conn raw :: .stamped conn session.id draws.responseNow counter :: older) ∧
      Delivers session.crypto.serverWriteKey session.crypto.serverMacKey raw
        ⟨session.id, msgId draws.responseNow counter, seqNo, obj⟩ := by
  unfold respondEncrypted at h
  obtain ⟨⟨seqNo, counter⟩, w₁, hreserve, h₁⟩ := Prog.exec_bind_ok h
  obtain ⟨⟨⟨nonce, ciphertext, tag⟩, crypto⟩, w₂, hsealed, h₂⟩ := Prog.exec_bind_ok h₁
  obtain ⟨hsealed, rfl⟩ := Server.orPanic_ok hsealed
  obtain ⟨_, w₃, -, h₃⟩ := Prog.exec_bind_ok h₂
  unfold SessionCrypto.encryptOutgoingServer SessionCrypto.encryptWith at hsealed
  cases hcounter : succU32 session.crypto.sendCounter with
  | none =>
    rw [hcounter] at hsealed
    cases hsealed
  | some sendCounter =>
    rw [hcounter] at hsealed
    cases hsealed
    unfold Server.transportSend at h₃
    refine ⟨encryptedFrame session.crypto.serverWriteKey session.crypto.serverMacKey session.id
      (generateNonce session.crypto.sendCounter draws.responseRandom)
      (withHeader (msgId draws.responseNow counter) seqNo obj.writeBoxed), seqNo, counter,
      congrArg Prod.fst hreserve, ?_, takeApart_encryptedFrame _ _ _ _ _ _ _⟩
    dsimp only at h₃
    split at h₃
    · cases h₃
      exact ⟨_, rfl⟩
    · cases h₃

end Server

namespace Sample

/-- A client that sends one request over a recorded connection. -/
def requesting : Session (Recorder MockTransport) :=
  { freshSession [] with transport := ⟨(freshSession []).transport, []⟩ }

def requests : List Call := [.send 1 (Vector.replicate 12 0) (.getDialogs {})]

/-- A response of the sample's session. -/
def response : ServerM Unit :=
  letI := Server.Sample.platform
  respondEncrypted (Server.Sample.draws 0) 0 ⟨Server.Sample.id, 0, blankCrypto⟩
    (TlObject.dialogList ⟨[]⟩).writeBoxed

end Sample

end KoSta
