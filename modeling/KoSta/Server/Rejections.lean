import KoSta.Server.Coupling

/-! What a rejected frame leaves behind, and what that changes for the frames after it. -/
namespace KoSta.Server
open Lib Lib.Prog Tl Crypto Function

section Rejected

variable [Platform] {w w' w₁ : World} {id : Int64} {session : SessionData} {conn : ConnId}

/-! ### The checks -/

/-- The frame is addressed to this session, passes its MAC and carries an id that the session has
not seen. -/
structure Frame.Passes (f : Frame) (session : SessionData) (recent : List Int64) (plaintext : Bytes)
    (crypto : SessionCrypto) (msgId : Int64) (seqNo : Int32) (tlData : Bytes) : Prop where
  long : minFrame ≤ f.raw.length
  opened : session.crypto.decryptIncomingServer (frameNonce f.raw) (frameCiphertext f.raw)
    (frameTag f.raw) = .ok (plaintext, crypto)
  header : readHeader.run plaintext = .ok (msgId, seqNo) tlData
  later : session.lastRecvMsgId < msgId
  unseen : msgId ∉ recent

/-- The replay check lets the frame pass in this state. -/
def Frame.Unseen (f : Frame) (w : World) : Prop :=
  ∃ session recent plaintext crypto msgId seqNo tlData,
    w.session (frameAuthKeyId f.raw) = some (session, recent) ∧
      f.Passes session recent plaintext crypto msgId seqNo tlData

omit [Platform] in
theorem addressedSession_cases (conn : ConnId) (raw : Bytes) (h : Owned w) :
    (addressedSession conn raw).exec w = (.ok none, w) ∨
    ∃ session w₁, (addressedSession conn raw).exec w = (.ok (some (frameAuthKeyId raw)), w₁) ∧
      Found (frameAuthKeyId raw) session w w₁ ∧ 8 ≤ raw.length ∧ frameAuthKeyId raw ≠ 0 := by
  unfold addressedSession
  split
  · rename_i hlen
    dsimp only
    split
    · exact Or.inl rfl
    · rename_i hid
      rw [exec_bind]
      rcases getSession_cases conn (frameAuthKeyId raw) (fun _ => []) (fun _ => rfl) h with
        ⟨-, heq⟩ | ⟨session, w₁, heq, hfound⟩
      · rw [heq]
        exact Or.inl rfl
      · rw [heq]
        exact Or.inr ⟨session, w₁, rfl, hfound, hlen, hid⟩
  · exact Or.inl rfl

/-- What follows the lookup in `receiveEncrypted`. -/
def checkFrame (now : Nat) (conn : ConnId) (id : Int64) (raw : Bytes) (session : SessionData) :
    ServerM (Except Rejection (Bytes × FrameSession)) :=
  if raw.length < minFrame then
    return .error .tooShort
  else
    match session.crypto.decryptIncomingServer (frameNonce raw) (frameCiphertext raw)
      (frameTag raw) with
    | .error .panic => .fail .panic
    | .error (.error _) => return .error .badMac
    | .ok (plaintext, crypto) => acceptMessage now conn id session crypto plaintext

theorem exec_receiveEncrypted (now : Nat) (conn : ConnId) (raw : Bytes)
    (h : w.state.cache id = some session) : (receiveEncrypted now conn id raw).exec w =
      (checkFrame now conn id raw session).exec (w.log [.lookedUp conn id session]) := by
  unfold receiveEncrypted checkFrame
  rewrite [exec_bind, exec_getSession_hit conn _ h]
  refine congrArg (fun p : ServerM _ => p.exec _) (ite_congr rfl (fun _ => rfl) fun _ => ?_)
  cases session.crypto.decryptIncomingServer (frameNonce raw) (frameCiphertext raw)
    (frameTag raw) with
  | ok opened => rfl
  | error failure => cases failure <;> rfl

omit [Platform] in
theorem exec_recordMsgId (conn : ConnId) (id : Int64) (session : SessionData) (msgId : Int64)
    (w : World) : (recordMsgId conn id session msgId).exec w =
      if msgId ∈ w.state.recents session.recentMsgIds then (.ok false, w)
      else (.ok true, w.pass conn id session msgId) := by
  unfold recordMsgId
  rw [exec_locked]
  by_cases h : msgId ∈ w.state.recents session.recentMsgIds
  · simp only [List.contains_iff_mem, h, if_true]
    rfl
  · simp only [List.contains_iff_mem, h, if_false]
    rfl

/-- A rejected message has changed nothing or has left its id in the recent set. -/
theorem acceptMessage_rejected {now : Nat} {crypto : SessionCrypto} {plaintext : Bytes}
    {reason : Rejection} (h : (acceptMessage now conn id session crypto plaintext).exec w =
      (.ok (.error reason), w')) :
    ∃ msgId seqNo tlData, readHeader.run plaintext = .ok (msgId, seqNo) tlData ∧
      (w' = w ∧ (msgId ≤ session.lastRecvMsgId ∨ msgId ∈ w.state.recents session.recentMsgIds) ∨
      w' = w.pass conn id session msgId ∧ session.lastRecvMsgId < msgId ∧
        msgId ∉ w.state.recents session.recentMsgIds ∧
        ∃ expected, succI32 session.recvSeqNo = some expected) := by
  unfold acceptMessage at h
  obtain ⟨⟨⟨msgId, seqNo⟩, tlData⟩, w₁, hread, hchecks⟩ := exec_bind_ok h
  obtain ⟨hheader, rfl⟩ := readFrom_ok hread
  refine ⟨msgId, seqNo, tlData, hheader, ?_⟩
  dsimp only at hchecks
  split at hchecks
  · rename_i hold
    cases hchecks
    exact Or.inl ⟨rfl, Or.inl hold⟩
  · rename_i hnew
    obtain ⟨fresh, w₂, hrecord, hrest⟩ := exec_bind_ok hchecks
    rw [exec_recordMsgId] at hrecord
    split at hrecord
    · rename_i hseen
      cases hrecord
      cases hrest
      exact Or.inl ⟨rfl, Or.inr hseen⟩
    · rename_i hunseen
      cases hrecord
      obtain ⟨expected, w₃, hsucc, hseq⟩ := exec_bind_ok hrest
      obtain ⟨hexpected, rfl⟩ := orPanic_ok hsucc
      refine Or.inr ⟨?_, Int64.not_le.mp hnew, hunseen, expected, hexpected⟩
      split at hseq
      · cases hseq
        rfl
      · obtain ⟨diff, w₄, hdiff, htime⟩ := exec_bind_ok hseq
        obtain ⟨-, rfl⟩ := orPanic_ok hdiff
        split at htime
        · cases htime
          rfl
        · obtain ⟨_, w₅, -, hend⟩ := exec_bind_ok htime
          cases hend

/-- A rejected frame that does not pass the replay check has changed nothing. -/
theorem checkFrame_rejected {f : Frame} {now : Nat} {reason : Rejection}
    (h : (checkFrame now conn id f.raw session).exec w = (.ok (.error reason), w')) :
    (w' = w ∧ ∀ plaintext crypto msgId seqNo tlData,
      ¬ f.Passes session (w.state.recents session.recentMsgIds) plaintext crypto
        msgId seqNo tlData) ∨
    ∃ plaintext crypto msgId seqNo tlData expected,
      f.Passes session (w.state.recents session.recentMsgIds) plaintext crypto msgId seqNo tlData ∧
        succI32 session.recvSeqNo = some expected ∧ w' = w.pass conn id session msgId := by
  unfold checkFrame at h
  split at h
  · rename_i hshort
    cases h
    exact Or.inl ⟨rfl, fun _ _ _ _ _ hpasses => absurd hpasses.long (Nat.not_le.mpr hshort)⟩
  · rename_i hlong
    split at h
    · cases h
    · rename_i hopen
      cases h
      refine Or.inl ⟨rfl, fun _ _ _ _ _ hpasses => ?_⟩
      rw [hpasses.opened] at hopen
      cases hopen
    · rename_i plaintext crypto hopen
      obtain ⟨msgId, seqNo, tlData, hheader, ⟨rfl, hseen⟩ |
        ⟨rfl, hlater, hunseen, expected, hsucc⟩⟩ :=
        acceptMessage_rejected h
      · refine Or.inl ⟨rfl, fun p c m s t hpasses => ?_⟩
        have hopened := hopen.symm.trans hpasses.opened
        cases hopened
        have hread := hheader.symm.trans hpasses.header
        cases hread
        rcases hseen with hold | hmem
        · exact Int64.not_le.mpr hpasses.later hold
        · exact hpasses.unseen hmem
      · exact Or.inr ⟨plaintext, crypto, msgId, seqNo, tlData, expected,
          ⟨Nat.not_lt.mp hlong, hopen, hheader, hlater, hunseen⟩, hsucc, rfl⟩

/-- Only the checks reject. -/
theorem dispatch_not_rejected (statics : Statics) (draws : FrameDraws)
    (session : Option FrameSession)
    (tlData : Bytes) {reason : Rejection} :
    (dispatch statics draws conn session tlData).exec w ≠ (.ok (.rejected reason), w') := by
  intro h
  cases hread : TlObject.readBoxed.run tlData with
  | err e =>
    unfold dispatch at h
    rw [hread] at h
    cases h
  | panic =>
    unfold dispatch at h
    rw [hread] at h
    cases h
  | ok obj rest =>
    rw [dispatch_eq statics draws conn session hread] at h
    obtain ⟨-, w₁, -, hrequest⟩ := exec_bind_ok h
    obtain ⟨reply, w₂, -, hfinish⟩ := exec_bind_ok hrequest
    cases reply with
    | none => cases hfinish
    | some data =>
      obtain ⟨-, w₃, -, hend⟩ := exec_bind_ok hfinish
      cases hend

/-- A rejected frame was addressed to a session, which it has left in the cache. -/
theorem handleFrame_rejected {statics : Statics} {f : Frame} {reason : Rejection}
    (howned : Owned w)
    (h : (handleFrame statics f.draws f.conn f.raw).exec w = (.ok (.rejected reason), w')) :
    ∃ session w₁, Found (frameAuthKeyId f.raw) session w w₁ ∧ 8 ≤ f.raw.length ∧
      frameAuthKeyId f.raw ≠ 0 ∧
      (checkFrame f.draws.now f.conn (frameAuthKeyId f.raw) f.raw session).exec w₁ =
        (.ok (.error reason), w') := by
  obtain ⟨address, w₁, haddress, hturn⟩ := exec_bind_ok h
  rcases addressedSession_cases f.conn f.raw howned with heq | ⟨session, w₂, heq, hfound, hlen, hid⟩
  · cases haddress.symm.trans heq
    exact absurd hturn (dispatch_not_rejected statics f.draws none f.raw)
  · cases haddress.symm.trans heq
    obtain ⟨result, w₃, hreceive, hend⟩ := exec_bind_ok hturn
    rw [exec_receiveEncrypted _ _ _ hfound.entry] at hreceive
    cases result with
    | ok received => exact absurd hend (dispatch_not_rejected statics f.draws _ _)
    | error reason' =>
      cases hend
      refine ⟨session, _, ?_, hlen, hid, hreceive⟩
      exact { hfound with owned := hfound.owned.of_eq rfl rfl }

/-! ### A second frame with the same id -/

/-- A frame under the same id with the expected sequence number, sealed with the session's keys and
received while its id is current. -/
def Frame.again (f : Frame) (session : SessionData) (msgId : Int64) (seqNo : Int32) : Frame where
  draws := { f.draws with now := msgId.toUInt64.toNat / 2 ^ 32 }
  conn := f.conn
  raw := encryptedFrame session.crypto.clientWriteKey session.crypto.clientMacKey
    (frameAuthKeyId f.raw) (Vector.replicate 16 0) (withHeader msgId seqNo [])

theorem addressed_again {f : Frame} (msgId : Int64) (seqNo : Int32) {recent : List Int64}
    (howned : Owned w) (hid : frameAuthKeyId f.raw ≠ 0)
    (hsession : w.session (frameAuthKeyId f.raw) = some (session.bare, recent)) :
    ∃ session' w₁, session'.bare = session.bare ∧ w₁.state.recents session'.recentMsgIds = recent ∧
      Found (frameAuthKeyId f.raw) session' w w₁ ∧
      (addressedSession f.conn (f.again session msgId seqNo).raw).exec w =
        (.ok (some (frameAuthKeyId f.raw)), w₁) := by
  have hraw : frameAuthKeyId (f.again session msgId seqNo).raw = frameAuthKeyId f.raw :=
    frameAuthKeyId_encryptedFrame _ _ _ _ _
  have hlen : 8 ≤ (f.again session msgId seqNo).raw.length := by
    change 8 ≤ (encryptedFrame _ _ _ _ _).length
    rw [length_encryptedFrame]
    omega
  unfold addressedSession
  rw [if_pos hlen, hraw]
  dsimp only
  rw [if_neg hid, exec_bind]
  rcases getSession_cases f.conn (frameAuthKeyId f.raw) (fun _ => []) (fun _ => rfl) howned with
    ⟨hnone, -⟩ | ⟨session', w₁, heq, hfound⟩
  · rw [hsession] at hnone
    cases hnone
  · have hsame := hfound.sessions (frameAuthKeyId f.raw)
    rw [hsession, session_of_cache hfound.entry] at hsame
    have hpair := Prod.mk.inj (Option.some.inj hsame)
    rw [heq]
    exact ⟨session', w₁, hpair.1, hpair.2, hfound, rfl⟩

theorem checkFrame_again {f : Frame} {session' : SessionData} {msgId : Int64} {seqNo : Int32}
    {counter : UInt32} (now : Nat) (hbare : session'.bare = session.bare)
    (hcounter : succU32 session.crypto.recvCounter = some counter) :
    checkFrame now conn id (f.again session msgId seqNo).raw session' =
      acceptMessage now conn id session' { session.crypto with recvCounter := counter }
        (withHeader msgId seqNo []) := by
  have hcrypto := congrArg SessionData.crypto hbare
  change session'.crypto = session.crypto at hcrypto
  have hlong : ¬ (f.again session msgId seqNo).raw.length < minFrame := by
    change ¬ (encryptedFrame _ _ _ _ _).length < 40
    rw [length_encryptedFrame]
    omega
  unfold checkFrame
  rw [if_neg hlong, hcrypto]
  have hopen : session.crypto.decryptIncomingServer (frameNonce (f.again session msgId seqNo).raw)
      (frameCiphertext (f.again session msgId seqNo).raw)
      (frameTag (f.again session msgId seqNo).raw) =
        .ok (withHeader msgId seqNo [], { session.crypto with recvCounter := counter }) :=
    decryptIncomingServer_encryptedFrame _ _ _ hcounter
  rw [hopen]

theorem acceptMessage_seen {now : Nat} {crypto : SessionCrypto} {msgId : Int64} {seqNo : Int32}
    {data : Bytes} (hlater : session.lastRecvMsgId < msgId)
    (hseen : msgId ∈ w.state.recents session.recentMsgIds) :
    (acceptMessage now conn id session crypto (withHeader msgId seqNo data)).exec w =
      (.ok (.error .replayed), w) := by
  unfold acceptMessage readFrom
  rw [run_readHeader]
  dsimp only
  rw [pure_bind]
  dsimp only
  rw [if_neg (Int64.not_le.mpr hlater), exec_bind, exec_recordMsgId, if_pos hseen]
  rfl

theorem acceptMessage_unseen {now : Nat} (conn : ConnId) (id : Int64) (crypto : SessionCrypto)
    {msgId diff : Int64} {seqNo : Int32} (data : Bytes) (hlater : session.lastRecvMsgId < msgId)
    (hunseen : msgId ∉ w.state.recents session.recentMsgIds)
    (hseq : succI32 session.recvSeqNo = some seqNo) (hdiff : clockDiff msgId now = some diff)
    (hsmall : ¬ diff > 30000) :
    ∃ w', (acceptMessage now conn id session crypto (withHeader msgId seqNo data)).exec w =
      (.ok (.ok (data, ⟨id, msgId, crypto⟩)), w') := by
  unfold acceptMessage readFrom
  rw [run_readHeader]
  dsimp only
  rw [pure_bind]
  dsimp only
  rw [if_neg (Int64.not_le.mpr hlater), exec_bind, exec_recordMsgId, if_neg hunseen]
  dsimp only
  rw [hseq, hdiff]
  have hne : ¬ seqNo ≠ seqNo := fun h => h rfl
  simp only [orPanic, Bool.not_true, Bool.false_eq_true, if_false, pure_bind, if_neg hne,
    if_neg hsmall]
  exact ⟨_, rfl⟩

section Again

variable (statics : Statics) {f : Frame} {msgId : Int64} {seqNo : Int32} {recent : List Int64}
  {counter : UInt32}

/-- Up to the checks on the message the second frame goes through as any other. -/
theorem exec_again (msgId : Int64) (seqNo : Int32) (howned : Owned w)
    (hid : frameAuthKeyId f.raw ≠ 0)
    (hsession : w.session (frameAuthKeyId f.raw) = some (session.bare, recent))
    (hcounter : succU32 session.crypto.recvCounter = some counter) :
    ∃ session' w₁, session'.bare = session.bare ∧ w₁.state.recents session'.recentMsgIds = recent ∧
      (handleFrame statics (f.again session msgId seqNo).draws f.conn
        (f.again session msgId seqNo).raw).exec w =
      (acceptMessage (msgId.toUInt64.toNat / 2 ^ 32) f.conn (frameAuthKeyId f.raw) session'
        { session.crypto with recvCounter := counter } (withHeader msgId seqNo []) >>= fun
          | .error reason => pure (.rejected reason)
          | .ok (tlData, s) => dispatch statics (f.again session msgId seqNo).draws f.conn (some s)
            tlData).exec w₁ := by
  obtain ⟨session', w₁, hbare, hrecent, hfound, haddress⟩ :=
    addressed_again msgId seqNo howned hid hsession
  refine ⟨session', w₁.log [.lookedUp f.conn (frameAuthKeyId f.raw) session'], hbare, hrecent, ?_⟩
  unfold handleFrame
  rw [exec_bind, haddress]
  dsimp only
  rw [exec_bind, exec_receiveEncrypted _ _ _ hfound.entry,
    checkFrame_again _ hbare hcounter, exec_bind]
  rfl

theorem again_unseen (howned : Owned w) (hid : frameAuthKeyId f.raw ≠ 0)
    (hsession : w.session (frameAuthKeyId f.raw) = some (session.bare, recent))
    (hcounter : succU32 session.crypto.recvCounter = some counter)
    (hlater : session.lastRecvMsgId < msgId) (hunseen : msgId ∉ recent)
    (hseq : succI32 session.recvSeqNo = some seqNo) :
    (decisions ((serve statics (f.again session msgId seqNo).draws f.conn
      (f.again session msgId seqNo).raw).exec w).2.trace).head? = some (.accepted f.conn) := by
  obtain ⟨session', w₁, hbare, hrecent, heq⟩ :=
    exec_again statics msgId seqNo howned hid hsession hcounter
  have hlast := congrArg SessionData.lastRecvMsgId hbare
  change session'.lastRecvMsgId = session.lastRecvMsgId at hlast
  have hrecv := congrArg SessionData.recvSeqNo hbare
  change session'.recvSeqNo = session.recvSeqNo at hrecv
  obtain ⟨w₂, haccept⟩ := acceptMessage_unseen f.conn (frameAuthKeyId f.raw)
    { session.crypto with recvCounter := counter } [] (hlast ▸ hlater) (hrecent ▸ hunseen)
    (hrecv ▸ hseq) (clockDiff_own msgId) (by decide)
  rw [exec_bind, haccept] at heq
  obtain ⟨e, hrest⟩ : ∃ e, TlObject.readBoxed.run [] = .err e := ⟨_, rfl⟩
  dsimp only at heq
  unfold dispatch at heq
  rw [hrest] at heq
  rw [exec_serve_eq, heq]
  rfl

theorem again_seen (seqNo : Int32) (howned : Owned w) (hid : frameAuthKeyId f.raw ≠ 0)
    (hsession : w.session (frameAuthKeyId f.raw) = some (session.bare, recent))
    (hcounter : succU32 session.crypto.recvCounter = some counter)
    (hlater : session.lastRecvMsgId < msgId) (hseen : msgId ∈ recent) :
    (decisions ((serve statics (f.again session msgId seqNo).draws f.conn
      (f.again session msgId seqNo).raw).exec w).2.trace).head? = some (.rejected f.conn) := by
  obtain ⟨session', w₁, hbare, hrecent, heq⟩ :=
    exec_again statics msgId seqNo howned hid hsession hcounter
  have hlast := congrArg SessionData.lastRecvMsgId hbare
  change session'.lastRecvMsgId = session.lastRecvMsgId at hlast
  rw [exec_bind, acceptMessage_seen (hlast ▸ hlater) (hrecent ▸ hseen)] at heq
  rw [exec_serve_eq, heq]
  rfl

end Again

/-! ### The frames after a rejected one -/

/-- What a server in this state decides in the course of these happenings, newest first. -/
def decisionsAfter (statics : Statics) (later : List Happening) (w : World) : List Decision :=
  decisions (happen statics later ⟨w.state, []⟩).trace

/-- Whatever comes later, it is decided as if the frame had never arrived. -/
def Frame.Ignored (statics : Statics) (f : Frame) (w : World) : Prop :=
  ∀ later, decisionsAfter statics later (happen statics [.frame f] w) =
    decisionsAfter statics later w

theorem decisionsAfter_of_resembles {statics : Statics} (h : Resembles w' w) (howned : Owned w)
    (howned' : Owned w') (later : List Happening) :
    decisionsAfter statics later w' = decisionsAfter statics later w := by
  have hcoupled : Coupled none ⟨w'.state, []⟩ ⟨w.state, []⟩ :=
    { db := h.db, handshakes := h.handshakes, sessions := h.sessions
      owned := howned'.of_eq rfl rfl, owned' := howned.of_eq rfl rfl, told := rfl, held := nofun }
  exact (hcoupled.happen statics later).told

/-- The id of a frame that has passed the replay check cannot be used again. -/
theorem not_ignored {statics : Statics} {f : Frame} {session : SessionData} {msgId : Int64}
    {seqNo expected : Int32} {plaintext tlData : Bytes} {crypto : SessionCrypto} (howned : Owned w)
    (hfound : Found (frameAuthKeyId f.raw) session w w₁) (hid : frameAuthKeyId f.raw ≠ 0)
    (hpasses : f.Passes session (w₁.state.recents session.recentMsgIds) plaintext crypto msgId
      seqNo tlData) (hsucc : succI32 session.recvSeqNo = some expected)
    (hafter : (happen statics [.frame f] w).state =
      (w₁.pass f.conn (frameAuthKeyId f.raw) session msgId).state) : ¬ f.Ignored statics w := by
  intro hignored
  have hcounter : ∃ counter, succU32 session.crypto.recvCounter = some counter := by
    rcases decryptWith_cases session.crypto.clientWriteKey session.crypto.clientMacKey
      session.crypto (frameNonce f.raw) (frameCiphertext f.raw) (frameTag f.raw) with
      ⟨-, heq⟩ | ⟨-, -, heq⟩ | ⟨counter, -, hcounter, -⟩
    · cases heq.symm.trans hpasses.opened
    · cases heq.symm.trans hpasses.opened
    · exact ⟨counter, hcounter⟩
  obtain ⟨counter, hcounter⟩ := hcounter
  have hsession := (hfound.sessions (frameAuthKeyId f.raw)).symm
  rw [session_of_cache hfound.entry] at hsession
  have hwithout := again_unseen statics (w := ⟨w.state, []⟩) (howned.of_eq rfl rfl) hid hsession
    hcounter hpasses.later hpasses.unseen hsucc
  have hseen : (w₁.pass f.conn (frameAuthKeyId f.raw) session msgId).session
      (frameAuthKeyId f.raw) = some (session.bare,
        (msgId :: w₁.state.recents session.recentMsgIds).take recentCapacity) := by
    rw [session_of_cache (w := w₁.pass f.conn _ session msgId) hfound.entry]
    exact congrArg (fun recent => some (session.bare, recent)) (update_self _ _ _)
  have hwith := again_seen statics (w := ⟨(w₁.pass f.conn (frameAuthKeyId f.raw)
    session msgId).state, []⟩) expected (hfound.owned.of_eq rfl rfl) hid hseen hcounter
      hpasses.later List.mem_cons_self
  have hsame := hignored [.frame (f.again session msgId expected)]
  dsimp only [decisionsAfter, happen, Happening.exec] at hsame hafter
  rw [hafter] at hsame
  have hhead := congrArg List.head? hsame
  have hconn : (f.again session msgId expected).conn = f.conn := rfl
  rw [hconn, hwith, hwithout] at hhead
  cases hhead

/-- Every run of a server that handles one frame at a time keeps the recent sets apart. -/
theorem owned_happen (statics : Statics) (hs : List Happening) :
    Owned (happen statics hs World.init) := by
  have hinit : Coupled none World.init World.init :=
    { db := rfl, handshakes := rfl, sessions := fun _ => rfl, owned := ⟨nofun, nofun⟩
      owned' := ⟨nofun, nofun⟩, told := rfl, held := nofun }
  exact (hinit.happen statics hs).owned

end Rejected

/-! ### A frame that overtakes another -/

namespace Sample

def first : Frame := frame 0 1 0 0 (.getDialogs {})

/-- The second frame of the session. -/
def second : Frame := frame 0 1 1 1 (.getDialogs {})

theorem second_rejected : letI := platform
    ((handleFrame statics second.draws second.conn second.raw).exec
      (happen statics exchanged World.init)).1 = .ok (.rejected .wrongSeqNo) := by
  decide +kernel

theorem first_second : letI := platform
    decisionsAfter statics [.frame first, .frame second] (happen statics exchanged World.init) =
      [.accepted 0, .dispatched 0 (some (Sample.id, msgId 1 1)) (.getDialogs {}),
        .accepted 0, .dispatched 0 (some (Sample.id, msgId 1 0)) (.getDialogs {})] := by
  decide +kernel

theorem second_first_second : letI := platform
    decisionsAfter statics [.frame first, .frame second]
      (happen statics [.frame second] (happen statics exchanged World.init)) =
      [.rejected 0, .accepted 0, .dispatched 0 (some (Sample.id, msgId 1 0)) (.getDialogs {})] := by
  decide +kernel

end Sample

end KoSta.Server
