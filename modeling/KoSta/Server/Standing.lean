import KoSta.Server.Holdings
import KoSta.Server.Neighbours
import KoSta.Server.Receivable
import KoSta.Server.Works

/-! A genuine frame on its way through the server: where its session stands before and after. -/
namespace KoSta.Server
open Lib Lib.Prog Tl Crypto Transport Function

variable {w w' w'' : World} {id : Int64} {session : SessionData} {conn : ConnId}

/-! ### What goes out -/

/-- From the one world to the other these frames have been sent, in this order. -/
def Sends (conn : ConnId) (frames : List Bytes) (w w' : World) : Prop :=
  ∃ events, w'.trace = events ++ w.trace ∧
    events.filterMap Event.sent? = (frames.map fun frame => (conn, frame)).reverse

theorem Sends.trans {frames frames' : List Bytes} (h : Sends conn frames w w')
    (h' : Sends conn frames' w' w'') : Sends conn (frames ++ frames') w w'' := by
  obtain ⟨events, htrace, hsent⟩ := h
  obtain ⟨events', htrace', hsent'⟩ := h'
  refine ⟨events' ++ events, ?_, ?_⟩
  · rw [htrace', htrace, List.append_assoc]
  · rw [List.filterMap_append, hsent, hsent', List.map_append, List.reverse_append]

theorem Sends.of_events {events : List Event} (conn : ConnId)
    (htrace : w'.trace = events ++ w.trace) (hsent : events.filterMap Event.sent? = []) :
    Sends conn [] w w' := ⟨events, htrace, hsent⟩

/-! ### Where a session stands -/

/-- How many requests have been received under these keys, the last one with this identifier, and
how many of them replied to. -/
structure Standing where
  keys : AesKey × MacKey × AesKey × MacKey
  received : Nat
  replied : Nat
  last : Int64

structure SessionData.StandsAt (session : SessionData) (p : Standing) : Prop where
  keys : session.crypto.keys = p.keys
  recvSeqNo : session.recvSeqNo + 1 = Int32.ofNat p.received
  last : session.lastRecvMsgId = p.last
  sendSeqNo : session.sendSeqNo + 1 = Int32.ofNat p.replied
  msgIdCounter : session.msgIdCounter = UInt32.ofNat p.replied
  sealed : session.crypto.sendCounter.toNat ≤ p.replied
  opened : session.crypto.recvCounter.toNat ≤ p.received
  sendCounter : session.sendCounter.toNat ≤ p.replied
  recvCounter : session.recvCounter.toNat ≤ p.received

/-- The session is cached. The row may be behind in the counters, which no check looks at. -/
structure Live (id : Int64) (p : Standing) (session : SessionData) (w : World) : Prop where
  entry : w.state.cache id = some session
  stands : session.StandsAt p
  row : ∃ row, w.row id = some row ∧ row.userId = session.userId ∧
    (sessionOfRow id row session.recentMsgIds).StandsAt p
  recents : ∀ m ∈ w.state.recents session.recentMsgIds, m ≤ p.last

/-- The session is cached, or its row is all there is. -/
def Known (id : Int64) (p : Standing) (w : World) : Prop :=
  (∃ session, Live id p session w) ∨
    w.state.cache id = none ∧ ∃ row, w.row id = some row ∧ (sessionOfRow id row 0).StandsAt p

variable {p : Standing}

theorem SessionData.StandsAt.set (h : session.StandsAt p) (recentMsgIds : RecentMsgIds) :
    { session with recentMsgIds }.StandsAt p :=
  ⟨h.keys, h.recvSeqNo, h.last, h.sendSeqNo, h.msgIdCounter, h.sealed, h.opened, h.sendCounter,
    h.recvCounter⟩

/-- What is written to the row stands where the session does. -/
theorem SessionData.StandsAt.toRow (h : session.StandsAt p) :
    (sessionOfRow id (session.toRow id) session.recentMsgIds).StandsAt p :=
  ⟨h.keys, h.recvSeqNo, h.last, h.sendSeqNo, h.msgIdCounter, h.sendCounter, h.recvCounter,
    h.sendCounter, h.recvCounter⟩

theorem Live.isSome_row (h : Live id p session w) : (w.row id).isSome := by
  obtain ⟨row, hrow, -⟩ := h.row
  rw [hrow]
  rfl

/-- Logging changes nothing. -/
theorem Live.of_state (h : Live id p session w) (hstate : w'.state = w.state) :
    Live id p session w' := by
  obtain ⟨hentry, hstands, hrow, hrecents⟩ := h
  refine ⟨?_, hstands, ?_, ?_⟩
  · rwa [hstate]
  · unfold World.row
    rwa [hstate]
  · rwa [hstate]

theorem holdings_of_state (h : w'.state = w.state) : holdings w' = holdings w := by
  unfold holdings World.row
  rw [h]

/-- A statement on a row that leaves its user. -/
theorem holdings_modifyRow (i : Int64) {f : FullSession → FullSession}
    (hf : ∀ row, (f row).userId = row.userId) (w : World) :
    holdings (w.modifyRow i f) = holdings w := by
  refine congrArg (fun users => (w.state.db.bare, users, w.state.handshakes)) (funext fun j => ?_)
  change (if j = i then (w.row j).map f else w.row j).map FullSession.userId = _
  by_cases hj : j = i
  · rw [if_pos hj, Option.map_map]
    exact congrArg (fun g => Option.map g (w.row j)) (funext hf)
  · rw [if_neg hj]

/-! ### Writing the session back -/

/-- After `update_session`. -/
def World.write (w : World) (conn : ConnId) (id : Int64) (session : SessionData)
    (saved cached : List Event) : World :=
  (w.save (session.toRow id) saved).putEntry id session (cached ++ [.put conn id session])

theorem row_write (saved cached : List Event) (w : World) :
    (w.write conn id session saved cached).row id = some (session.toRow id) := if_pos rfl

/-- What is written stands where the session does. -/
theorem live_write {saved cached : List Event} (h : session.StandsAt p)
    (hrecents : ∀ m ∈ w.state.recents session.recentMsgIds, m ≤ p.last) :
    Live id p session (w.write conn id session saved cached) where
  entry := update_self _ _ _
  stands := h
  row := ⟨_, row_write saved cached w, rfl, h.toRow⟩
  recents := hrecents

/-- After a number has been taken for a reply. -/
def World.reserve (w : World) (conn : ConnId) (id : Int64) (session : SessionData)
    (seqNo : Int32) : World :=
  ((w.log [.lookedUp conn id session]).write conn id (session.reserve seqNo)
    [.reserved conn id session.msgIdCounter] []).modifyRow id fun row => { row with
      sendSeqNo := seqNo, msgIdCounter := session.msgIdCounter + 1 }

/-- After the cipher that a reply has been sealed with has been stored. -/
def World.settle (w : World) (conn : ConnId) (id : Int64) (session : SessionData)
    (crypto : SessionCrypto) : World :=
  ((w.log [.lookedUp conn id session]).modifyRow id fun row => { row with
    sendCounter := crypto.sendCounter, recvCounter := crypto.recvCounter }).write conn id
      (session.settle crypto) [] []

theorem exec_reserveResponse_hit [Platform] (h : w.state.cache id = some session) (conn : ConnId) :
    (succI32 session.sendSeqNo = none ∧ (reserveResponse conn id).exec w =
      (.error .panic, w.log [.lookedUp conn id session])) ∨
    ∃ seqNo, succI32 session.sendSeqNo = some seqNo ∧ (reserveResponse conn id).exec w =
      (.ok (seqNo, session.msgIdCounter), w.reserve conn id session seqNo) := by
  unfold reserveResponse
  rw [Prog.exec_bind, exec_getSession_hit conn _ h]
  dsimp only
  cases hseq : succI32 session.sendSeqNo with
  | none => exact Or.inl ⟨rfl, rfl⟩
  | some seqNo => exact Or.inr ⟨seqNo, rfl, rfl⟩

theorem exec_storeCounters_hit (h : w.state.cache id = some session) (conn : ConnId)
    (crypto : SessionCrypto) :
    (storeCounters conn id crypto).exec w = (.ok (), w.settle conn id session crypto) := by
  unfold storeCounters
  rw [Prog.exec_bind, exec_getSession_hit conn _ h]
  rfl

/-- The user that the holdings have for a session. -/
def World.userOf (w : World) (id : Int64) : Option Int64 := (w.row id).map FullSession.userId

theorem userOf_of_holdings (h : holdings w = holdings w') : w.userOf id = w'.userOf id := by
  obtain ⟨-, hrest⟩ := Prod.mk.inj h
  exact congrFun (Prod.mk.inj hrest).1 id

theorem holdings_write {saved cached : List Event} (huser : w.userOf id = some session.userId) :
    holdings (w.write conn id session saved cached) = holdings w := by
  refine congrArg (fun users => (w.state.db.bare, users, w.state.handshakes)) (funext fun i => ?_)
  change (if i = id then some (session.toRow id) else w.row i).map FullSession.userId = w.userOf i
  by_cases hi : i = id
  · rw [if_pos hi, hi, huser]
    rfl
  · rw [if_neg hi]
    rfl

theorem Live.userOf (h : Live id p session w) : w.userOf id = some session.userId := by
  obtain ⟨row, hrow, huser, -⟩ := h.row
  unfold World.userOf
  rw [hrow]
  exact congrArg some huser

/-! ### A frame comes in -/

section Counters

variable [Platform] {n : Nat}

theorem succI32_of_succ {x : Int32} (h : x + 1 = Int32.ofNat n) (hn : n < 2 ^ 31) :
    succI32 x = some (Int32.ofNat n) := by
  unfold succI32
  rw [if_neg, h]
  rintro ⟨-, hmax⟩
  have hval := congrArg Int32.toInt h
  have hone : Int32.toInt 1 = 1 := rfl
  rw [Int32.toInt_add, hone, hmax, Int32.toInt_ofNat_of_lt hn] at hval
  have hwrap : (2 ^ 31 : Int).bmod (2 ^ 32) = -2 ^ 31 := by decide
  omega

theorem succU32_of_le {x : UInt32} (h : x.toNat ≤ n) (hn : n < 2 ^ 31) :
    ∃ y, succU32 x = some y ∧ y.toNat ≤ n + 1 := by
  refine ⟨x + 1, if_neg fun hmax => ?_, ?_⟩
  · omega
  · have hone : (1 : UInt32).toNat = 1 := rfl
    rw [UInt32.toNat_add, hone]
    omega

end Counters

/-- The request that comes next. -/
def Standing.accept (p : Standing) (msgId : Int64) : Standing :=
  { p with received := p.received + 1, last := msgId }

def Standing.reply (p : Standing) : Standing := { p with replied := p.replied + 1 }

/-- A cipher that the next response can be sealed with. -/
structure Standing.Seals (p : Standing) (crypto : SessionCrypto) : Prop where
  keys : crypto.keys = p.keys
  sealed : crypto.sendCounter.toNat ≤ p.replied
  opened : crypto.recvCounter.toNat ≤ p.received

/-- The frame that the holder of the keys makes of the request that comes next. -/
def Standing.request [Platform] (p : Standing) (id : Int64) (nonce : Nonce) (msgId : Int64)
    (data : Bytes) : Bytes :=
  encryptedFrame p.keys.1 p.keys.2.1 id nonce (withHeader msgId (Int32.ofNat p.received) data)

section Accept

variable {now : Nat} {msgId : Int64} {data : Bytes} {diff : Int64}

theorem exec_commitFrame (session : SessionData) (crypto : SessionCrypto) (seqNo : Int32)
    (w : World) :
    (commitFrame conn id session crypto msgId seqNo).exec w =
      (.ok (), ((w.modifyRow id fun row => { row with
        recvSeqNo := seqNo, lastMsgId := msgId }).modifyRow id fun row => { row with
          sendCounter := crypto.sendCounter, recvCounter := crypto.recvCounter }).write conn id
        { session with crypto, recvSeqNo := seqNo, lastRecvMsgId := msgId } []
        [.accepted conn id msgId]) := rfl

theorem exec_recordMsgId_new (h : msgId ∉ w.state.recents session.recentMsgIds) :
    (recordMsgId conn id session msgId).exec w = (.ok true, w.pass conn id session msgId) := by
  have hfresh : (w.state.recents session.recentMsgIds).contains msgId = false := by
    rwa [List.contains_eq_mem, decide_eq_false_iff_not]
  unfold recordMsgId
  rw [exec_locked]
  dsimp only
  rw [hfresh]
  rfl

theorem holdings_commitFrame (huser : w.userOf id = some session.userId) (conn : ConnId)
    (msgId : Int64) (crypto : SessionCrypto) (seqNo : Int32) :
    holdings ((commitFrame conn id session crypto msgId seqNo).exec w).2 = holdings w := by
  rw [exec_commitFrame]
  have hrows : holdings ((w.modifyRow id fun row => { row with
      recvSeqNo := seqNo, lastMsgId := msgId }).modifyRow id fun row => { row with
        sendCounter := crypto.sendCounter, recvCounter := crypto.recvCounter }) = holdings w := by
    refine (holdings_modifyRow id ?_ _).trans (holdings_modifyRow id ?_ w)
    · exact fun _ => rfl
    · exact fun _ => rfl
  refine (holdings_write ?_).trans hrows
  exact (userOf_of_holdings hrows).trans huser

variable [Platform]

/-- The request that comes next passes all checks. -/
theorem exec_acceptMessage (h : Live id p session w) (conn : ConnId) (data : Bytes)
    {crypto : SessionCrypto} (hseals : (p.accept msgId).Seals crypto)
    (hreceived : p.received < 2 ^ 31) (hnew : p.last < msgId)
    (hclock : clockDiff msgId now = some diff) (hdiff : ¬ diff > 30000) :
    ∃ w' session', (acceptMessage now conn id session crypto
        (withHeader msgId (Int32.ofNat p.received) data)).exec w =
          (.ok (.ok (data, ⟨id, msgId, crypto⟩)), w') ∧
      Live id (p.accept msgId) session' w' ∧ holdings w' = holdings w ∧ Sends conn [] w w' := by
  have huser := h.userOf
  obtain ⟨hentry, hstands, -, hrecents⟩ := h
  have hnot : ¬ msgId ≤ session.lastRecvMsgId := by
    rw [hstands.last]
    exact Int64.not_le.mpr hnew
  have hfresh : msgId ∉ w.state.recents session.recentMsgIds :=
    fun hmem => Int64.not_le.mpr hnew (hrecents msgId hmem)
  have hread : (readFrom readHeader (withHeader msgId (Int32.ofNat p.received) data)).exec w =
      (.ok ((msgId, Int32.ofNat p.received), data), w) := by
    unfold readFrom
    rw [run_readHeader]
    rfl
  have hholds := holdings_commitFrame (w := w.pass conn id session msgId) huser conn
    msgId crypto (Int32.ofNat p.received)
  unfold acceptMessage
  rw [Prog.exec_bind, hread]
  dsimp only
  rw [if_neg hnot, Prog.exec_bind, exec_recordMsgId_new hfresh]
  dsimp only
  rw [succI32_of_succ hstands.recvSeqNo hreceived, hclock]
  dsimp only [orPanic]
  rw [if_neg (by decide), Prog.pure_bind, if_neg (not_not.mpr rfl), Prog.pure_bind, if_neg hdiff,
    Prog.exec_bind, exec_commitFrame]
  refine ⟨_, _, rfl, live_write ?_ ?_, hholds, ?_⟩
  · have hnext : Int32.ofNat p.received + 1 = Int32.ofNat (p.accept msgId).received := by
      rw [Standing.accept, Int32.ofNat_add]
      rfl
    exact ⟨hseals.keys, hnext, rfl, hstands.sendSeqNo, hstands.msgIdCounter, hseals.sealed,
      hseals.opened, hstands.sendCounter, Nat.le_succ_of_le hstands.recvCounter⟩
  · intro m hmem
    change m ∈ update w.state.recents session.recentMsgIds _ session.recentMsgIds at hmem
    rw [update_self] at hmem
    rcases List.mem_cons.mp (List.mem_of_mem_take hmem) with rfl | hmem
    · exact Int64.le_refl _
    · exact Int64.le_of_lt (Int64.lt_of_le_of_lt (hrecents m hmem) hnew)
  · exact ⟨[_, _, _], rfl, rfl⟩

omit [Platform] in
/-- A lookup finds the session, and from then on it is cached. -/
theorem exec_getSession_known (h : Known id p w) (conn : ConnId) (mark : SessionData → List Event)
    (hmark : ∀ session, (mark session).filterMap Event.sent? = []) :
    ∃ session w', (getSession conn id mark).exec w = (.ok (some session), w') ∧
      Live id p session w' ∧ holdings w' = holdings w ∧ Sends conn [] w w' := by
  rcases h with ⟨session, h⟩ | ⟨hnone, row, hrow, hstands⟩
  · rw [exec_getSession_hit conn _ h.entry]
    exact ⟨session, _, rfl, h.of_state rfl, holdings_of_state rfl,
      Sends.of_events conn rfl (hmark session)⟩
  · rw [exec_getSession_miss conn _ hnone hrow]
    refine ⟨_, _, rfl, ⟨update_self _ _ _, ?_, ⟨row, hrow, rfl, ?_⟩, fun m hmem => ?_⟩, rfl, ?_⟩
    · exact hstands.set w.state.nextRecent
    · exact hstands.set w.state.nextRecent
    · change m ∈ update w.state.recents w.state.nextRecent [] w.state.nextRecent at hmem
      rw [update_self] at hmem
      cases hmem
    · refine Sends.of_events conn rfl ?_
      rw [List.filterMap_append, hmark]
      rfl

theorem undisturbed_received {raw : Bytes} {found : Option Int64}
    {received : Except Rejection (Bytes × FrameSession)} (howned : Owned w)
    (hkey : frameAuthKeyId raw = id)
    (haddressed : (addressedSession conn raw).exec w = (.ok found, w'))
    (hreceived : (receiveEncrypted now conn id raw).exec w' = (.ok received, w'')) :
    Undisturbed id w w'' := by
  have hfound := Maintains.exec (minds_addressedSession howned conn hkey) (howned.undisturbed id)
  rw [haddressed] at hfound
  have hopened := Maintains.exec (minds_receiveEncrypted howned now conn raw) hfound.1
  rw [hreceived] at hopened
  exact hopened.1

/-- What a turn comes to once the request that comes next has been accepted. -/
theorem exec_handleFrame_request (h : Known id p w) (hid : id ≠ 0) (statics : Statics)
    (draws : FrameDraws) (conn : ConnId) (nonce : Nonce) (data : Bytes)
    (hreceived : p.received < 2 ^ 31) (hnew : p.last < msgId)
    (hclock : clockDiff msgId draws.now = some diff) (hdiff : ¬ diff > 30000) :
    ∃ w' session crypto, (handleFrame statics draws conn (p.request id nonce msgId data)).exec w =
        (dispatch statics draws conn (some ⟨id, msgId, crypto⟩) data).exec w' ∧
      Live id (p.accept msgId) session w' ∧ (p.accept msgId).Seals crypto ∧
      holdings w' = holdings w ∧ Sends conn [] w w' ∧
      (Owned w → Undisturbed id w w') := by
  obtain ⟨session, w₁, hget, hlive, hholds, hsends⟩ := exec_getSession_known h conn
    (fun _ => []) fun _ => rfl
  have hlength : (p.request id nonce msgId data).length = _ := length_encryptedFrame _ _ _ _ _
  have hlong : ¬ (p.request id nonce msgId data).length < minFrame := by
    rw [hlength]
    exact Nat.not_lt.mpr (Nat.le_add_right _ _)
  have hkey : frameAuthKeyId (p.request id nonce msgId data) = id :=
    frameAuthKeyId_encryptedFrame _ _ _ _ _
  have haddressed : (addressedSession conn (p.request id nonce msgId data)).exec w =
      (.ok (some id), w₁) := by
    unfold addressedSession
    rw [if_pos (by omega)]
    dsimp only
    rw [hkey, if_neg hid, Prog.exec_bind, hget]
    rfl
  obtain ⟨recvCounter, hsucc, hopened⟩ := succU32_of_le hlive.stands.opened hreceived
  have hdecrypt := decryptIncomingServer_encryptedFrame id nonce
    (withHeader msgId (Int32.ofNat p.received) data) hsucc
  have hraw : encryptedFrame session.crypto.clientWriteKey session.crypto.clientMacKey id nonce
      (withHeader msgId (Int32.ofNat p.received) data) = p.request id nonce msgId data := by
    unfold Standing.request
    rw [← hlive.stands.keys]
    rfl
  dsimp only at hdecrypt
  rw [hraw] at hdecrypt
  obtain ⟨crypto, hdecrypt, hseals⟩ : ∃ crypto,
      session.crypto.decryptIncomingServer (frameNonce (p.request id nonce msgId data))
        (frameCiphertext (p.request id nonce msgId data))
        (frameTag (p.request id nonce msgId data)) =
          .ok (withHeader msgId (Int32.ofNat p.received) data, crypto) ∧
      (p.accept msgId).Seals crypto :=
    ⟨_, hdecrypt, hlive.stands.keys, hlive.stands.sealed, hopened⟩
  have hlive' : Live id p session (w₁.log [.lookedUp conn id session]) := hlive.of_state rfl
  have hlogged : Sends conn [] w₁ (w₁.log [.lookedUp conn id session]) :=
    Sends.of_events conn rfl rfl
  obtain ⟨w₂, session', haccept, hlive₂, hholds₂, hsends₂⟩ := exec_acceptMessage hlive' conn
    data hseals hreceived hnew hclock hdiff
  have hreceive : (receiveEncrypted draws.now conn id (p.request id nonce msgId data)).exec w₁ =
      (.ok (.ok (data, ⟨id, msgId, crypto⟩)), w₂) := by
    unfold receiveEncrypted
    rw [Prog.exec_bind, exec_getSession_hit conn _ hlive.entry]
    dsimp only
    rw [if_neg hlong, hdecrypt]
    exact haccept
  refine ⟨w₂, session', _, ?_, hlive₂, hseals, hholds₂.trans ((holdings_of_state rfl).trans hholds),
    ?_, fun howned => ?_⟩
  · unfold handleFrame
    rw [Prog.exec_bind, haddressed]
    dsimp only
    rw [Prog.exec_bind, hreceive]
  · exact hsends.trans (hlogged.trans hsends₂)
  · exact undisturbed_received howned hkey haddressed hreceive

end Accept

/-! ### Its request is handled -/

section Handle

variable [Platform]

omit [Platform] in
theorem Live.of_quiet (h : Live id p session w) (hquiet : Quiet w w') : Live id p session w' := by
  obtain ⟨hentry, hstands, hrow, hrecents⟩ := h
  refine ⟨?_, hstands, ?_, ?_⟩
  · rwa [hquiet.cache]
  · unfold World.row
    rwa [hquiet.sessions]
  · rwa [hquiet.recents]

theorem live_handleSignUp (h : Live id p session w) (draws : Draws) (conn : ConnId) (req : SignUp) :
    (∃ session', Live id p session' ((handleSignUp draws conn (some id) req).exec w).2) ∧
      Sends conn [] w ((handleSignUp draws conn (some id) req).exec w).2 := by
  have hkeeps := (oblivious_insertUser req.phone (bcryptHash draws.salt req.password)).sessions
    w.state.db
  rcases hinsert : Database.insertUser req.phone (bcryptHash draws.salt req.password) w.state.db
    with ⟨result, db⟩
  rw [hinsert] at hkeeps
  cases result with
  | error e =>
    rw [handleSignUp_error id draws hinsert]
    obtain ⟨hentry, hstands, ⟨row, hrow, hrest⟩, hrecents⟩ := h
    refine ⟨⟨session, hentry, hstands, ⟨row, ?_, hrest⟩, hrecents⟩, [], rfl, rfl⟩
    exact (congrFun hkeeps id).trans hrow
  | ok userId =>
    have hentry : (w.signedUp id userId db).state.cache id = some session := h.entry
    rw [exec_handleSignUp id draws hinsert, Prog.exec_bind, exec_getSession_hit conn _ hentry]
    have hstands : SessionData.StandsAt { session with userId } p :=
      ⟨h.stands.keys, h.stands.recvSeqNo, h.stands.last, h.stands.sendSeqNo, h.stands.msgIdCounter,
        h.stands.sealed, h.stands.opened, h.stands.sendCounter, h.stands.recvCounter⟩
    exact ⟨⟨_, live_write hstands h.recents⟩, [_, _], rfl, rfl⟩

/-- A handler leaves the session where it stands, and sends nothing itself. -/
theorem live_handleRequest (h : Live id p session w) (statics : Statics) (draws : Draws)
    (conn : ConnId) {obj : TlObject} (hset : ∀ req, obj ≠ .setClientDHParams req) :
    (∃ session', Live id p session' ((handleRequest statics draws conn obj (some id)).exec w).2) ∧
      Sends conn [] w ((handleRequest statics draws conn obj (some id)).exec w).2 := by
  rcases handleRequest_cases (some id) statics draws conn obj with
    ⟨req, rfl⟩ | ⟨req, rfl⟩ | hquiet
  · exact live_handleSignUp h draws conn req
  · exact absurd rfl (hset req)
  · have hexec := hquiet.always.exec Quiet.refl Quiet.trans w
    exact ⟨⟨session, h.of_quiet hexec⟩, [], hexec.trace, rfl⟩

end Handle

/-! ### The reply goes out -/

theorem Live.modifyRow (h : Live id p session w) {f : FullSession → FullSession}
    (huser : ∀ row, (f row).userId = row.userId)
    (hf : ∀ row, (sessionOfRow id row session.recentMsgIds).StandsAt p →
      (sessionOfRow id (f row) session.recentMsgIds).StandsAt p) :
    Live id p session (w.modifyRow id f) := by
  obtain ⟨hentry, hstands, ⟨row, hrow, hsame, hrowStands⟩, hrecents⟩ := h
  refine ⟨hentry, hstands, ⟨f row, ?_, (huser row).trans hsame, hf row hrowStands⟩, hrecents⟩
  exact (if_pos rfl).trans (congrArg (Option.map f) hrow)

section Reply

variable [Platform] {data : Bytes}

/-- The frame of the next reply. -/
def Standing.response (p : Standing) (id : Int64) (nonce : Nonce) (now : Nat) (data : Bytes) :
    Bytes :=
  encryptedFrame p.keys.2.2.1 p.keys.2.2.2 id nonce
    (withHeader (msgId now (UInt32.ofNat p.replied)) (Int32.ofNat p.replied) data)

theorem exec_reserveResponse_live (h : Live id p session w) (conn : ConnId)
    (hreplied : p.replied < 2 ^ 31) :
    ∃ session' w', (reserveResponse conn id).exec w =
        (.ok (Int32.ofNat p.replied, UInt32.ofNat p.replied), w') ∧
      Live id p.reply session' w' ∧ holdings w' = holdings w ∧ Sends conn [] w w' := by
  have hsucc := succI32_of_succ h.stands.sendSeqNo hreplied
  have hexec : (reserveResponse conn id).exec w = (.ok (Int32.ofNat p.replied,
      session.msgIdCounter), w.reserve conn id session (Int32.ofNat p.replied)) := by
    rcases exec_reserveResponse_hit h.entry conn with ⟨hnone, -⟩ | ⟨seqNo, hseq, hexec⟩
    · cases hnone.symm.trans hsucc
    · cases hseq.symm.trans hsucc
      exact hexec
  have hseq : Int32.ofNat p.replied + 1 = Int32.ofNat p.reply.replied :=
    (Int32.ofNat_add p.replied 1).symm
  have hcounter : session.msgIdCounter + 1 = UInt32.ofNat p.reply.replied := by
    rw [h.stands.msgIdCounter]
    exact (UInt32.ofNat_add p.replied 1).symm
  have hstands : (session.reserve (Int32.ofNat p.replied)).StandsAt p.reply :=
    ⟨h.stands.keys, h.stands.recvSeqNo, h.stands.last, hseq, hcounter,
      Nat.le_succ_of_le h.stands.sealed, h.stands.opened, Nat.le_succ_of_le h.stands.sendCounter,
      h.stands.recvCounter⟩
  rw [h.stands.msgIdCounter] at hexec
  refine ⟨session.reserve (Int32.ofNat p.replied), _, hexec, ?_, ?_, [_, _, _], rfl, rfl⟩
  · have hlooked : Live id p session (w.log [.lookedUp conn id session]) := h.of_state rfl
    refine Live.modifyRow (live_write hstands hlooked.recents) ?_ fun row hrow => ?_
    · exact fun _ => rfl
    exact ⟨hrow.keys, hrow.recvSeqNo, hrow.last, hseq, hcounter, hrow.sealed, hrow.opened,
      hrow.sendCounter, hrow.recvCounter⟩
  · refine (holdings_modifyRow id ?_ _).trans ((holdings_write ?_).trans (holdings_of_state rfl))
    · exact fun _ => rfl
    · exact h.userOf

omit [Platform] in
theorem exec_storeCounters_live (h : Live id p session w) (conn : ConnId) {crypto : SessionCrypto}
    (hseals : p.Seals crypto) :
    ∃ session' w', (storeCounters conn id crypto).exec w = (.ok (), w') ∧
      Live id p session' w' ∧ holdings w' = holdings w ∧ Sends conn [] w w' := by
  have hexec := exec_storeCounters_hit h.entry conn crypto
  have hstands : (session.settle crypto).StandsAt p :=
    ⟨hseals.keys, h.stands.recvSeqNo, h.stands.last, h.stands.sendSeqNo, h.stands.msgIdCounter,
      hseals.sealed, hseals.opened, hseals.sealed, hseals.opened⟩
  refine ⟨_, _, hexec, live_write hstands h.recents, ?_, [_, _], rfl, rfl⟩
  refine (holdings_write ?_).trans ((holdings_modifyRow id ?_ _).trans (holdings_of_state rfl))
  · refine (userOf_of_holdings (holdings_modifyRow id ?_ _)).trans h.userOf
    exact fun _ => rfl
  · exact fun _ => rfl

/-- The reply is the one frame that is sent, under the number and counter that come next. -/
theorem exec_respondEncrypted_live (h : Live id p session w) (draws : FrameDraws) (conn : ConnId)
    (m : Int64) {crypto : SessionCrypto} (hseals : p.Seals crypto) (hreplied : p.replied < 2 ^ 31)
    (hfits : ∀ nonce, Receivable (p.response id nonce draws.responseNow data)) :
    ∃ session' w' nonce, (respondEncrypted draws conn ⟨id, m, crypto⟩ data).exec w = (.ok (), w') ∧
      Live id p.reply session' w' ∧ holdings w' = holdings w ∧
      Sends conn [p.response id nonce draws.responseNow data] w w' := by
  obtain ⟨session₁, w₁, hreserve, hlive₁, hholds₁, hsends₁⟩ :=
    exec_reserveResponse_live h conn hreplied
  obtain ⟨sendCounter, hsucc, hsealed⟩ := succU32_of_le hseals.sealed hreplied
  have hseals' : p.reply.Seals { crypto with sendCounter } := ⟨hseals.keys, hsealed, hseals.opened⟩
  obtain ⟨session₂, w₂, hstore, hlive₂, hholds₂, hsends₂⟩ :=
    exec_storeCounters_live hlive₁ conn hseals'
  let nonce := generateNonce crypto.sendCounter draws.responseRandom
  let plain := withHeader (msgId draws.responseNow (UInt32.ofNat p.replied))
    (Int32.ofNat p.replied) data
  let frame := p.response id nonce draws.responseNow data
  let events : List Event :=
    [.sent conn frame, .stamped conn id draws.responseNow (UInt32.ofNat p.replied),
      .sealed conn id frame]
  have hencrypt : crypto.encryptOutgoingServer draws.responseRandom plain =
      some ((nonce, encryptAndTag crypto.serverWriteKey crypto.serverMacKey nonce plain),
        { crypto with sendCounter }) := by
    unfold SessionCrypto.encryptOutgoingServer SessionCrypto.encryptWith
    rw [hsucc]
    rfl
  have hframe : sealFrame id nonce
      (encryptAndTag crypto.serverWriteKey crypto.serverMacKey nonce plain).1
      (encryptAndTag crypto.serverWriteKey crypto.serverMacKey nonce plain).2 = frame := by
    change _ = encryptedFrame p.keys.2.2.1 p.keys.2.2.2 id nonce plain
    rw [← hseals.keys]
    rfl
  obtain ⟨stream, hstream, -⟩ := hfits nonce
  have hsend : ∀ events, (transportSend conn frame events).exec w₂ =
      (.ok (), w₂.log (.sent conn frame :: events)) := by
    intro events
    unfold transportSend
    rw [hstream]
    rfl
  refine ⟨session₂, w₂.log events, nonce, ?_, hlive₂.of_state rfl,
    (holdings_of_state rfl).trans (hholds₂.trans hholds₁), ?_⟩
  · unfold respondEncrypted
    rw [Prog.exec_bind, hreserve]
    dsimp only
    rw [hencrypt]
    dsimp only [orPanic]
    rw [Prog.pure_bind]
    dsimp only
    rw [Prog.exec_bind, hstore, hframe]
    exact hsend _
  · exact hsends₁.trans (hsends₂.trans ⟨events, rfl, rfl⟩)

end Reply

/-! ### Whole turns -/

/-- A turn of another session does not move this one. -/
theorem Known.undisturbed {i : Int64} (h : Known i p w) (hi : i ≠ id) (hu : Undisturbed id w w') :
    Known i p w' := by
  rcases h with ⟨session, hentry, hstands, hrow, hrecents⟩ | ⟨hnone, row, hrow, hstands⟩
  · refine Or.inl ⟨session, (hu.entries i hi).trans hentry, hstands, ?_, ?_⟩
    · rwa [hu.rows i hi]
    · rwa [hu.recents i hi session hentry]
  · exact Or.inr ⟨(hu.entries i hi).trans hnone, row, (hu.rows i hi).trans hrow, hstands⟩

theorem Known.evict (h : Known id p w) (i : Int64) : Known id p (evict i w) := by
  rcases h with ⟨session, hentry, hstands, ⟨row, hrow, huser, hrowStands⟩, hrecents⟩ |
    ⟨hnone, row, hrow, hstands⟩
  · by_cases hi : i = id
    · subst hi
      exact Or.inr ⟨evict_cache_self i w, row, hrow, hrowStands.set 0⟩
    · refine Or.inl ⟨session, ?_, hstands, ⟨row, hrow, huser, hrowStands⟩, hrecents⟩
      exact (update_of_ne (Ne.symm hi) _ _).trans hentry
  · refine Or.inr ⟨?_, row, hrow, hstands⟩
    by_cases hi : i = id
    · rw [hi]
      exact evict_cache_self id w
    · exact (update_of_ne (Ne.symm hi) _ _).trans hnone

/-- The turn of a request has done what its handler does to a world that holds the same, and has
sent the handler's reply. -/
structure Turned [Platform] (id : Int64) (p : Standing) (draws : FrameDraws) (conn : ConnId)
    (reply : Option Bytes) (w v' w' : World) : Prop where
  holdings : holdings w' = holdings v'
  silent : reply = none → Known id p w' ∧ Sends conn [] w w'
  replied : ∀ data, reply = some data → Known id p.reply w' ∧
    ∃ nonce, Sends conn [p.response id nonce draws.responseNow data] w w'

theorem serve_request [Platform] (h : Known id p w) (hid : id ≠ 0) (statics : Statics)
    (draws : FrameDraws) (conn : ConnId) (nonce : Nonce) {m diff : Int64} {obj : TlObject}
    {reply : Option Bytes} {v v' : World} (hreceived : p.received < 2 ^ 31)
    (hreplied : p.replied < 2 ^ 31) (hnew : p.last < m) (hclock : clockDiff m draws.now = some diff)
    (hdiff : ¬ diff > 30000) (hobj : obj.writeBoxed.length < lengthLimit)
    (hset : ∀ req, obj ≠ .setClientDHParams req) (hv : holdings w = holdings v)
    (hhandle : (handleRequest statics draws.handler conn obj (some id)).exec v = (.ok reply, v'))
    (hfits : ∀ data, reply = some data →
      ∀ nonce, Receivable (p.response id nonce draws.responseNow data)) :
    Turned id (p.accept m) draws conn reply w v'
      ((serve statics draws conn (p.request id nonce m obj.writeBoxed)).exec w).2 := by
  obtain ⟨w₁, session, crypto, hframe, hlive, hseals, hholds, hsends, -⟩ := exec_handleFrame_request
    h hid statics draws conn nonce obj.writeBoxed hreceived hnew hclock hdiff
  have hread := reads_writeBoxed obj hobj []
  rw [List.append_nil] at hread
  let w₂ := w₁.log [.dispatched conn (some (id, m)) obj]
  have hlive₂ : Live id (p.accept m) session w₂ := hlive.of_state rfl
  have hholds₂ : holdings w₂ = holdings v := (holdings_of_state rfl).trans (hholds.trans hv)
  obtain ⟨hresult, hholds₃⟩ := handleRequest_alike id statics draws.handler conn hset hholds₂
    hlive₂.isSome_row
  obtain ⟨⟨session₃, hlive₃⟩, hsends₃⟩ := live_handleRequest hlive₂ statics draws.handler conn hset
  rcases hexec : (handleRequest statics draws.handler conn obj (some id)).exec w₂ with ⟨result, w₃⟩
  rw [hexec, hhandle] at hresult hholds₃
  rw [hexec] at hlive₃ hsends₃
  obtain rfl : result = .ok reply := hresult
  have hsends₂ : Sends conn [] w w₃ := hsends.trans
    ((Sends.of_events conn (rfl : w₂.trace = [_] ++ w₁.trace) rfl).trans hsends₃)
  have hfinish : (handleFrame statics draws conn (p.request id nonce m obj.writeBoxed)).exec w =
      (finishTurn draws conn (some ⟨id, m, crypto⟩) reply).exec w₃ := by
    rw [hframe, dispatch_eq statics draws conn _ hread]
    change (handleRequest statics draws.handler conn obj (some id) >>= fun reply =>
      finishTurn draws conn (some ⟨id, m, crypto⟩) reply).exec w₂ = _
    rw [Prog.exec_bind, hexec]
  rw [exec_serve_eq, hfinish]
  cases reply with
  | none =>
    refine ⟨(holdings_of_state rfl).trans hholds₃,
      fun _ => ⟨Or.inl ⟨session₃, hlive₃.of_state rfl⟩, ?_⟩, nofun⟩
    exact hsends₂.trans ⟨[_], rfl, rfl⟩
  | some data =>
    obtain ⟨session₄, w₄, nonce', hrespond, hlive₄, hholds₄, hsends₄⟩ :=
      exec_respondEncrypted_live hlive₃ draws conn m hseals hreplied (hfits data rfl)
    have hturn : (finishTurn draws conn (some ⟨id, m, crypto⟩) (some data)).exec w₃ =
        (.ok .answered, w₄) := by
      unfold finishTurn respond
      dsimp only
      rw [Prog.exec_bind, hrespond]
      rfl
    rw [hturn]
    refine ⟨(holdings_of_state rfl).trans (hholds₄.trans hholds₃), nofun, fun data' hdata => ?_⟩
    cases hdata
    refine ⟨Or.inl ⟨session₄, hlive₄.of_state rfl⟩, nonce', ?_⟩
    exact (hsends₂.trans hsends₄).trans ⟨[_], rfl, rfl⟩

/-- The turn of a request leaves every other session as it is. -/
theorem undisturbed_request [Platform] (h : Known id p w) (howned : Owned w) (hid : id ≠ 0)
    (statics : Statics) (draws : FrameDraws) (conn : ConnId) (nonce : Nonce) {m diff : Int64}
    {obj : TlObject} (hreceived : p.received < 2 ^ 31) (hnew : p.last < m)
    (hclock : clockDiff m draws.now = some diff) (hdiff : ¬ diff > 30000)
    (hobj : obj.writeBoxed.length < lengthLimit) (hset : ∀ req, obj ≠ .setClientDHParams req) :
    Undisturbed id w
      ((serve statics draws conn (p.request id nonce m obj.writeBoxed)).exec w).2 := by
  obtain ⟨w₁, session, crypto, hframe, -, -, -, -, hminds⟩ := exec_handleFrame_request
    h hid statics draws conn nonce obj.writeBoxed hreceived hnew hclock hdiff
  have hread := reads_writeBoxed obj hobj []
  rw [List.append_nil] at hread
  have hrest : Minds id w (fun _ => True)
      (handleRequest statics draws.handler conn obj (some id) >>= fun reply =>
        finishTurn draws conn (some ⟨id, m, crypto⟩) reply) :=
    Maintains.bind (minds_handleRequest howned statics draws.handler hset) fun reply _ =>
      minds_finishTurn howned draws (s := ⟨id, m, crypto⟩) rfl reply
  rw [exec_serve_eq, hframe, dispatch_eq statics draws conn _ hread]
  exact (Maintains.exec hrest ((hminds howned).log [.dispatched conn (some (id, m)) obj])).1.log _

/-- Every other session stands where it stood. -/
def Bypasses (id : Int64) (w w' : World) : Prop :=
  Owned w → Owned w' ∧ ∀ i ≠ id, ∀ p, Known i p w → Known i p w'

theorem Bypasses.refl (id : Int64) (w : World) : Bypasses id w w := fun h => ⟨h, fun _ _ _ hi => hi⟩

theorem bypasses_evict (id i : Int64) (w : World) : Bypasses id w (evict i w) :=
  fun h => ⟨h.evict i, fun _ _ _ hknown => hknown.evict i⟩

theorem bypasses_request [Platform] (h : Known id p w) (hid : id ≠ 0)
    (statics : Statics) (draws : FrameDraws) (conn : ConnId) (nonce : Nonce) {m diff : Int64}
    {obj : TlObject} (hreceived : p.received < 2 ^ 31) (hnew : p.last < m)
    (hclock : clockDiff m draws.now = some diff) (hdiff : ¬ diff > 30000)
    (hobj : obj.writeBoxed.length < lengthLimit) (hset : ∀ req, obj ≠ .setClientDHParams req) :
    Bypasses id w ((serve statics draws conn (p.request id nonce m obj.writeBoxed)).exec w).2 := by
  intro howned
  have hu := undisturbed_request h howned hid statics draws conn nonce hreceived hnew hclock hdiff
    hobj hset
  exact ⟨owned_serve howned statics draws conn _, fun i hi p hknown => hknown.undisturbed hi hu⟩

end KoSta.Server
