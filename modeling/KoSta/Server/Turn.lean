import KoSta.Server.Quiet

/-! An automaton for one turn: which sections on a session can follow each other. -/
namespace KoSta.Server
open Lib Lib.Prog Tl Crypto

variable {α β : Type}

/-! ### What the sections leave behind -/

namespace World

abbrev row (w : World) (id : Int64) : Option FullSession := w.state.db.sessions id

def log (w : World) (events : List Event) : World := ⟨w.state, events ++ w.trace⟩

/-- After `save_session_full`. -/
def save (w : World) (row : FullSession) (events : List Event) : World :=
  ⟨{ w.state with db := (Database.saveSessionFull row w.state.db).2 }, events ++ w.trace⟩

/-- After one of the statements that update a few columns of a session. -/
def modifyRow (w : World) (id : Int64) (f : FullSession → FullSession) : World :=
  ⟨{ w.state with db := w.state.db.modifySession id f }, w.trace⟩

/-- After a put into the cache. -/
def putEntry (w : World) (id : Int64) (session : SessionData) (events : List Event) : World :=
  ⟨{ w.state with cache := Function.update w.state.cache id (some session) }, events ++ w.trace⟩

/-- After the creation of a recent set. -/
def renew (w : World) : World :=
  ⟨{ w.state with
      recents := Function.update w.state.recents w.state.nextRecent []
      nextRecent := w.state.nextRecent + 1 }, w.trace⟩

/-- After the put that follows a load. -/
def load (w : World) (id : Int64) (full : FullSession) (events : List Event) : World :=
  w.renew.putEntry id (sessionOfRow id full w.state.nextRecent) events

/-- After a replay check that has let an identifier pass. -/
def pass (w : World) (conn : ConnId) (id : Int64) (session : SessionData) (msgId : Int64) : World :=
  ⟨{ w.state with
      recents := Function.update w.state.recents session.recentMsgIds
        ((msgId :: w.state.recents session.recentMsgIds).take recentCapacity) },
    .passed conn id session msgId :: w.trace⟩

end World

/-! ### The automaton -/

/-- What a clone is taken for: to check a frame, or to change the session while its request is
handled with the cipher of its frame, after a sequence number and a counter have been reserved for
the response or before. -/
inductive Holder where
  | receive
  | edit (crypto : SessionCrypto) (reserved : Option (Int32 × UInt32))

/-- What a turn has in hand between two sections. -/
inductive Phase where
  | idle
  | reading (id : Int64) (full : FullSession)
  | known (id : Int64) (holder : Holder)
  | loading (id : Int64) (holder : Holder) (full : FullSession)
  | looked (id : Int64) (holder : Holder) (session : SessionData)
  | passed (id : Int64) (session : SessionData) (msgId : Int64)
  | committing (id : Int64) (session : SessionData)
  | committed (id : Int64) (session : SessionData)
  | pending (session : FrameSession)
  | saved (id : Int64) (session : SessionData) (crypto : SessionCrypto)
    (reserved : Option (Int32 × UInt32))
  | settling (id : Int64) (session : SessionData) (crypto : SessionCrypto)
    (reserved : Int32 × UInt32)
  | stored (id : Int64) (session : SessionData) (crypto : SessionCrypto)
    (reserved : Int32 × UInt32)
  | settled (id : Int64) (crypto : SessionCrypto) (reserved : Int32 × UInt32)
  | creating (id : Int64) (session : SessionData) (back : Option FrameSession)
  | renewed (id : Int64) (session : SessionData) (back : Option FrameSession)
  | lost

/-- Where a request is handled: with a session or without one. -/
def Phase.serving : Option FrameSession → Phase
  | none => .idle
  | some session => .known session.id (.edit session.crypto none)

/-- Outside the stretches in which a row is ahead of its cache entry. -/
def Phase.Closed : Phase → Prop
  | .committing .. | .committed .. | .saved .. | .settling .. | .stored .. | .creating ..
  | .renewed .. => False
  | _ => True

/-- What `commit_frame` writes over the clone that has passed the checks. -/
def SessionData.accept (session : SessionData) (crypto : SessionCrypto) (seqNo : Int32)
    (msgId : Int64) : SessionData :=
  { session with crypto, recvSeqNo := seqNo, lastRecvMsgId := msgId }

def SessionData.settle (session : SessionData) (crypto : SessionCrypto) : SessionData :=
  { session with crypto, sendCounter := crypto.sendCounter, recvCounter := crypto.recvCounter }

def SessionData.reserve (session : SessionData) (seqNo : Int32) : SessionData :=
  { session with sendSeqNo := seqNo, msgIdCounter := session.msgIdCounter + 1 }

/-- A session as a key exchange leaves it. -/
structure Fresh (id : Int64) (session : SessionData) : Prop where
  authKeyId : session.authKeyId = id
  lastRecvMsgId : session.lastRecvMsgId = 0
  msgIdCounter : session.msgIdCounter = 0
  sendSeqNo : session.sendSeqNo = -1
  sendCounter : session.sendCounter = 0
  level : session.sendCounter = session.crypto.sendCounter ∧
    session.recvCounter = session.crypto.recvCounter

section Automaton

variable [Platform]

/-- A response as it is handed to the connection, sealed with the keys and the counter of this
cipher. -/
def responseFrame (id : Int64) (crypto : SessionCrypto) (random : Vector UInt8 12)
    (plaintext : Bytes) : Bytes :=
  encryptedFrame crypto.serverWriteKey crypto.serverMacKey id
    (generateNonce crypto.sendCounter random) plaintext

theorem sealFrame_encryptAndTag (id : Int64) (crypto : SessionCrypto)
    (random : Vector UInt8 12) (plaintext : Bytes) :
    sealFrame id (generateNonce crypto.sendCounter random)
      (encryptAndTag crypto.serverWriteKey crypto.serverMacKey
        (generateNonce crypto.sendCounter random) plaintext).1
      (encryptAndTag crypto.serverWriteKey crypto.serverMacKey
        (generateNonce crypto.sendCounter random) plaintext).2 =
      responseFrame id crypto random plaintext := rfl

inductive Move (conn : ConnId) : Phase → World → World → Phase → Prop where
  | quiet {ph w w'} : Quiet w w' → Move conn ph w w' ph
  | find {id session} {w : World} : w.state.cache id = some session →
    Move conn .idle w w (.known id .receive)
  | read {id full} {w : World} : w.row id = some full → Move conn .idle w w (.reading id full)
  | load {id full w} : Move conn (.reading id full) w (w.load id full
      [.put conn id (sessionOfRow id full w.state.nextRecent)]) (.known id .receive)
  | hold {id holder session} {w : World} : w.state.cache id = some session →
    Move conn (.known id holder) w (w.log [.lookedUp conn id session]) (.looked id holder session)
  | readHeld {id holder full} {w : World} : w.row id = some full →
    Move conn (.known id holder) w w (.loading id holder full)
  | loadHeld {id holder full w} : Move conn (.loading id holder full) w (w.load id full
      [.lookedUp conn id (sessionOfRow id full w.state.nextRecent),
        .put conn id (sessionOfRow id full w.state.nextRecent)])
      (.looked id holder (sessionOfRow id full w.state.nextRecent))
  | lose {id holder} {w : World} : w.row id = none → Move conn (.known id holder) w w .lost
  | lost {w w'} : Move conn .lost w w' .lost
  | pass {id session msgId} {w : World} : session.lastRecvMsgId < msgId →
    msgId ∉ w.state.recents session.recentMsgIds →
    Move conn (.looked id .receive session) w (w.pass conn id session msgId)
      (.passed id session msgId)
  | commit {id session msgId} {w : World} (recvCounter : UInt32) (seqNo : Int32) :
    Move conn (.passed id session msgId) w
      (w.modifyRow id fun row => { row with recvSeqNo := seqNo, lastMsgId := msgId })
      (.committing id (session.accept { session.crypto with recvCounter } seqNo msgId))
  | commitCounters {id session} {w : World} : Move conn (.committing id session) w
      (w.modifyRow id fun row => { row with
        sendCounter := session.crypto.sendCounter, recvCounter := session.crypto.recvCounter })
      (.committing id session)
  | commitRow {id session} {w : World} : Move conn (.committing id session) w
      (w.save (session.toRow id) []) (.committed id session)
  | accept {id session} {w : World} : Move conn (.committed id session) w
      (w.putEntry id session [.accepted conn id session.lastRecvMsgId, .put conn id session])
      (.pending ⟨id, session.lastRecvMsgId, session.crypto⟩)
  | dispatch {session obj} {w : World} : Move conn (.pending session) w
      (w.log [.dispatched conn (some (session.id, session.msgId)) obj]) (.serving (some session))
  | dispatchPlain {obj} {w : World} : Move conn .idle w (w.log [.dispatched conn none obj]) .idle
  | rename {id crypto} {w : World} (userId : Int64) : Move conn (.known id (.edit crypto none)) w
      (w.modifyRow id fun row => { row with userId }) (.known id (.edit crypto none))
  | saveUser {id session crypto} {w : World} (userId : Int64) :
    Move conn (.looked id (.edit crypto none) session) w
      (w.save (SessionData.toRow { session with userId } id) [])
      (.saved id { session with userId } crypto none)
  | reserve {id session crypto seqNo} {w : World} : succI32 session.sendSeqNo = some seqNo →
    Move conn (.looked id (.edit crypto none) session) w
      (w.save ((session.reserve seqNo).toRow id) [.reserved conn id session.msgIdCounter])
      (.saved id (session.reserve seqNo) crypto (some (seqNo, session.msgIdCounter)))
  | putSaved {id session crypto reserved} {w : World} :
    Move conn (.saved id session crypto reserved) w
      (w.putEntry id session [.put conn id session]) (.known id (.edit crypto reserved))
  | sendState {id crypto seqNo counter} {w : World} :
    Move conn (.known id (.edit crypto (some (seqNo, counter)))) w
      (w.modifyRow id fun row => { row with sendSeqNo := seqNo, msgIdCounter := counter + 1 })
      (.known id (.edit crypto (some (seqNo, counter))))
  | settle {id session crypto reserved sendCounter} {w : World} :
    succU32 crypto.sendCounter = some sendCounter →
    Move conn (.looked id (.edit crypto (some reserved)) session) w
      (w.modifyRow id fun row => { row with sendCounter, recvCounter := crypto.recvCounter })
      (.settling id (session.settle { crypto with sendCounter }) crypto reserved)
  | settleRow {id session crypto reserved} {w : World} :
    Move conn (.settling id session crypto reserved) w
      (w.save (session.toRow id) []) (.stored id session crypto reserved)
  | putSettled {id session crypto reserved} {w : World} :
    Move conn (.stored id session crypto reserved) w
      (w.putEntry id session [.put conn id session]) (.settled id crypto reserved)
  | stamp {id crypto seqNo counter} {w : World} (now : Nat) (random : Vector UInt8 12)
    (data : Bytes) : Move conn (.settled id crypto (seqNo, counter)) w
      (w.log
        [.sent conn (responseFrame id crypto random (withHeader (msgId now counter) seqNo data)),
          .stamped conn id now counter,
          .sealed conn id (responseFrame id crypto random
            (withHeader (msgId now counter) seqNo data))]) .idle
  | sendPlain {data} {w : World} : Move conn .idle w (w.log [.sent conn data]) .idle
  | establish {id session back} {w : World} : Fresh id session →
    Move conn (.serving back) w (w.save (session.toRow id) [.established id])
      (.creating id session back)
  | renew {id session back} {w : World} : Move conn (.creating id session back) w w.renew
      (.renewed id { session with recentMsgIds := w.state.nextRecent } back)
  | createRow {id session back} {w : World} : Move conn (.renewed id session back) w
      (w.save (session.toRow id) []) (.renewed id session back)
  | putCreated {id session back} {w : World} : Move conn (.renewed id session back) w
      (w.putEntry id session [.put conn id session]) (.serving back)
  | finish {ph result} {w : World} : ph.Closed →
    Move conn ph w (w.log [.finished conn result]) .idle

end Automaton

/-! ### The code follows the automaton -/

section Follows

variable [Platform] {conn : ConnId} {id : Int64} {ph ph' : Phase}
  {final : Except Stop β → Phase → Prop}

theorem obeys_locked {f : State → (α × List Event) × State} {k : α → ServerM β}
    (h : ∀ w : World, ∃ ph', Move conn ph w ⟨(f w.state).2, (f w.state).1.2 ++ w.trace⟩ ph' ∧
      (k (f w.state).1.1).Obeys (Move conn) final ph') :
    (locked f >>= k).Obeys (Move conn) final ph := h

/-- A statement that cannot fail and makes one and the same move wherever it is executed. -/
theorem obeys_sql {f : Statement Unit} {k : Unit → ServerM β} (hok : ∀ db, (f db).1 = .ok ())
    (hmove : ∀ w : World, Move conn ph w ⟨{ w.state with db := (f w.state.db).2 }, w.trace⟩ ph')
    (hk : (k ()).Obeys (Move conn) final ph') : (sql f >>= k).Obeys (Move conn) final ph := by
  intro w
  refine ⟨ph', hmove w, ?_⟩
  simp only [hok]
  exact hk

theorem obeys_orPanic {x : Option α} {k : α → ServerM β} (hnone : final (.error .panic) ph)
    (hsome : ∀ a, x = some a → (k a).Obeys (Move conn) final ph) :
    (orPanic x >>= k).Obeys (Move conn) final ph := by
  cases x with
  | none => exact hnone
  | some a => exact hsome a rfl

theorem obeys_readFrom {r : Reader Tl.Error α} {bytes : Bytes} {k : α × Bytes → ServerM β}
    (hfail : ∀ e, final (.error e) ph) (hok : ∀ a, (k a).Obeys (Move conn) final ph) :
    (readFrom r bytes >>= k).Obeys (Move conn) final ph := by
  unfold readFrom
  cases r.run bytes with
  | ok a rest => exact hok (a, rest)
  | err e => exact hfail _
  | panic => exact hfail _

theorem obeys_quietly {p : ServerM α} {k : α → ServerM β} (hp : Quietly p)
    (hfail : ∀ e, final (.error e) ph) (hok : ∀ a, (k a).Obeys (Move conn) final ph) :
    (p >>= k).Obeys (Move conn) final ph := by
  refine Obeys.bind ((Obeys.of_through hp Move.quiet).mono ?_)
  rintro (e | a) _ rfl
  · exact hfail e
  · exact hok a

/-- Once a session's row is gone anything may happen. -/
theorem obeys_lost (p : ServerM α) : p.Obeys (Move conn) (fun _ ph => ph = .lost) .lost := by
  induction p with
  | done a => rfl
  | fail e => rfl
  | atomic act next ih => exact fun w => ⟨.lost, .lost, ih w⟩

theorem obeys_lost_closed (p : ServerM α) :
    p.Obeys (Move conn) (fun _ ph => ph.Closed) .lost :=
  (obeys_lost p).mono fun _ _ h => h ▸ trivial

/-! #### Lookups and updates -/

omit [Platform] in
/-- The lookup with what follows it moved into its branches. -/
theorem getSession_bind (mark : SessionData → List Event) (k : Option SessionData → ServerM β) :
    (getSession conn id mark >>= k) = (cacheLookup id mark >>= fun hit => match hit with
      | some session => k (some session)
      | none => sql (Database.getFullSession id) >>= fun row => match row with
        | some full => putLoaded conn id full mark >>= fun session => k (some session)
        | none => k none) := by
  unfold getSession
  rw [bind_assoc]
  refine bind_congr fun hit => ?_
  cases hit with
  | some session => rfl
  | none =>
    dsimp only
    rw [bind_assoc]
    refine bind_congr fun row => ?_
    cases row with
    | some full => exact bind_assoc _ _ _
    | none => rfl

theorem obeys_cacheLookup {mark : SessionData → List Event} {k : Option SessionData → ServerM β}
    (hhit : ∀ (w : World) session, w.state.cache id = some session →
      ∃ ph', Move conn ph w (w.log (mark session)) ph' ∧
        (k (some session)).Obeys (Move conn) final ph')
    (hmiss : (k none).Obeys (Move conn) final ph) :
    (cacheLookup id mark >>= k).Obeys (Move conn) final ph := by
  refine obeys_locked fun w => ?_
  cases hcache : w.state.cache id with
  | some session => exact hhit w session hcache
  | none => exact ⟨ph, .quiet (Quiet.refl w), hmiss⟩

theorem obeys_getFullSession {k : Option FullSession → ServerM β}
    (hsome : ∀ (w : World) full, w.row id = some full →
      ∃ ph', Move conn ph w w ph' ∧ (k (some full)).Obeys (Move conn) final ph')
    (hnone : ∀ w : World, w.row id = none →
      ∃ ph', Move conn ph w w ph' ∧ (k none).Obeys (Move conn) final ph') :
    (sql (Database.getFullSession id) >>= k).Obeys (Move conn) final ph := by
  intro w
  change ∃ ph', Move conn ph w w ph' ∧ (k (w.row id)).Obeys (Move conn) final ph'
  cases hrow : w.row id with
  | some full => exact hsome w full hrow
  | none => exact hnone w hrow

/-- A lookup that takes a clone, to check a frame or to change the session. -/
theorem obeys_hold {holder : Holder} {k : Option SessionData → ServerM β}
    (hsome : ∀ session, (k (some session)).Obeys (Move conn) final (.looked id holder session))
    (hnone : (k none).Obeys (Move conn) final .lost) :
    (getSession conn id (fun session => [.lookedUp conn id session]) >>= k).Obeys (Move conn)
      final (.known id holder) := by
  rw [getSession_bind]
  refine obeys_cacheLookup (fun w session h => ⟨_, .hold h, hsome session⟩) ?_
  refine obeys_getFullSession (fun w full h => ⟨_, .readHeld h, ?_⟩) fun w h => ⟨_, .lose h, hnone⟩
  exact fun w => ⟨_, .loadHeld, hsome _⟩

/-- The lookup that finds out whether a frame belongs to a session. -/
theorem obeys_find {k : Option SessionData → ServerM β}
    (hsome : ∀ session, (k (some session)).Obeys (Move conn) final (.known id .receive))
    (hnone : (k none).Obeys (Move conn) final .idle) :
    (getSession conn id (fun _ => []) >>= k).Obeys (Move conn) final .idle := by
  rw [getSession_bind]
  refine obeys_cacheLookup (fun w session h => ⟨_, .find h, hsome session⟩) ?_
  refine obeys_getFullSession (fun w full h => ⟨_, .read h, ?_⟩) fun w h =>
    ⟨_, .quiet (Quiet.refl w), hnone⟩
  exact fun w => ⟨_, .load, hsome _⟩

theorem obeys_updateSession {session : SessionData} {saved cached : List Event} {ph₁ ph₂ : Phase}
    {k : Unit → ServerM β} (hsave : ∀ w, Move conn ph w (w.save (session.toRow id) saved) ph₁)
    (hput : ∀ w, Move conn ph₁ w
      (w.putEntry id session (cached ++ [.put conn id session])) ph₂)
    (hk : (k ()).Obeys (Move conn) final ph₂) :
    (updateSession conn id session saved cached >>= k).Obeys (Move conn) final ph := by
  unfold updateSession
  rw [bind_assoc]
  exact fun w => ⟨ph₁, hsave w, fun w' => ⟨ph₂, hput w', hk⟩⟩

theorem obeys_record {event : Event} {k : Unit → ServerM β} (ph' : Phase)
    (hmove : ∀ w : World, Move conn ph w (w.log [event]) ph')
    (hk : (k ()).Obeys (Move conn) final ph') : (record event >>= k).Obeys (Move conn) final ph :=
  fun w => ⟨ph', hmove w, hk⟩

theorem obeys_transportSend {data : Bytes} {events : List Event}
    {final : Except Stop Unit → Phase → Prop} (hpanic : final (.error .panic) ph)
    (hmove : ∀ w : World, Move conn ph w (w.log (.sent conn data :: events)) ph')
    (hsent : final (.ok ()) ph') : (transportSend conn data events).Obeys (Move conn) final ph := by
  unfold transportSend
  cases Transport.encodeFrame data with
  | none => exact hpanic
  | some _ => exact fun w => ⟨ph', hmove w, hsent⟩

/-! #### Receiving -/

section Receive

/-- What a lookup of the addressed session ends with. -/
def Addressed : Except Stop (Option Int64) → Phase → Prop
  | .ok (some id), ph => ph = .known id .receive
  | _, ph => ph = .idle

theorem obeys_addressedSession (raw : Bytes) :
    (addressedSession conn raw).Obeys (Move conn) Addressed .idle := by
  unfold addressedSession
  split
  · dsimp only
    split
    · rfl
    · exact obeys_find (fun session => rfl) rfl
  · rfl

theorem obeys_commitFrame {session : SessionData} {recvCounter : UInt32} {msgId : Int64}
    {seqNo : Int32} {k : Unit → ServerM β} (hk : (k ()).Obeys (Move conn) final
      (.pending ⟨id, msgId, { session.crypto with recvCounter }⟩)) :
    (commitFrame conn id session { session.crypto with recvCounter } msgId seqNo >>= k).Obeys
      (Move conn) final (.passed id session msgId) := by
  unfold commitFrame
  simp only [bind_assoc]
  refine obeys_sql (fun _ => rfl) (fun w => .commit recvCounter seqNo) ?_
  refine obeys_sql (fun _ => rfl) (fun w => .commitCounters) ?_
  exact obeys_updateSession (fun w => .commitRow) (fun w => .accept) hk

theorem obeys_recordMsgId {session : SessionData} {msgId : Int64} {k : Bool → ServerM β}
    (hlast : session.lastRecvMsgId < msgId)
    (hfresh : (k true).Obeys (Move conn) final (.passed id session msgId))
    (hagain : (k false).Obeys (Move conn) final (.looked id .receive session)) :
    (recordMsgId conn id session msgId >>= k).Obeys (Move conn) final
      (.looked id .receive session) := by
  refine obeys_locked fun w => ?_
  by_cases hmem : msgId ∈ w.state.recents session.recentMsgIds
  · simp only [List.contains_iff_mem.mpr hmem, if_true]
    exact ⟨_, .quiet (Quiet.refl w), hagain⟩
  · have hnot : (w.state.recents session.recentMsgIds).contains msgId = false := by
      simpa using hmem
    simp only [hnot, Bool.false_eq_true, if_false]
    exact ⟨_, .pass hlast hmem, hfresh⟩

/-- How receiving a frame ends: with a request that is about to be dispatched or without one. -/
def Received : Except Stop (Except Rejection (Bytes × FrameSession)) → Phase → Prop
  | .ok (.ok (_, session)), ph => ph = .pending session
  | _, ph => ph.Closed

theorem obeys_acceptMessage (now : Nat) (session : SessionData) (recvCounter : UInt32)
    (plaintext : Bytes) :
    (acceptMessage now conn id session { session.crypto with recvCounter } plaintext).Obeys
      (Move conn) Received (.looked id .receive session) := by
  refine obeys_readFrom (fun _ => trivial) ?_
  rintro ⟨⟨msgId, seqNo⟩, tlData⟩
  dsimp only
  split
  · trivial
  · rename_i hlast
    refine obeys_recordMsgId (Int64.not_le.mp hlast) ?_ trivial
    refine obeys_orPanic trivial fun expected _ => ?_
    split
    · trivial
    · refine obeys_orPanic trivial fun diff _ => ?_
      split
      · trivial
      · exact obeys_commitFrame rfl

theorem obeys_receiveEncrypted (now : Nat) (raw : Bytes) :
    (receiveEncrypted now conn id raw).Obeys (Move conn) Received (.known id .receive) := by
  refine obeys_hold (fun session => ?_) trivial
  dsimp only
  split
  · trivial
  · split
    · trivial
    · trivial
    · rename_i hdecrypt
      obtain ⟨recvCounter, rfl⟩ := decryptIncomingServer_ok hdecrypt
      exact obeys_acceptMessage now session recvCounter _

end Receive

/-! #### Handling and responding -/


section Handle

variable (statics : Statics) {session : Option FrameSession}

/-- A handler leaves what it was called with, unless the session's row was gone. -/
def Handled (session : Option FrameSession) : Except Stop (Option Bytes) → Phase → Prop
  | .ok _, ph => ph = .serving session ∨ ph = .lost
  | .error _, ph => ph.Closed

omit [Platform] in
theorem closed_serving (session : Option FrameSession) : (Phase.serving session).Closed := by
  cases session <;> trivial

theorem fresh_newSession (sharedSecret : Nat) (nonce serverNonce : Int128) (newNonce : Int256)
    (recentMsgIds : RecentMsgIds) : Fresh (computeAuthKeyId sharedSecret)
      (newSession sharedSecret nonce serverNonce newNonce recentMsgIds) :=
  ⟨rfl, rfl, rfl, rfl, rfl, rfl, rfl⟩

theorem obeys_handleSignUp (draws : Draws) (req : SignUp) :
    (handleSignUp draws conn (session.map FrameSession.id) req).Obeys (Move conn) (Handled session)
      (.serving session) := by
  refine obeys_quietly (quiet_sql (keepsSessions_insertUser _ _)) (fun _ => closed_serving _)
    fun userId => ?_
  cases session with
  | none => exact Or.inl rfl
  | some session =>
    refine obeys_sql (fun _ => rfl) (fun w => .rename userId) ?_
    refine obeys_hold (fun session => ?_) (Or.inr rfl)
    exact obeys_updateSession (fun w => .saveUser userId) (fun w => .putSaved)
      (Or.inl rfl)

theorem obeys_handleSetClientDhParams (draws : Draws) (req : SetClientDHParams) :
    (handleSetClientDhParams statics draws conn req).Obeys (Move conn) (Handled session)
      (.serving session) := by
  have hclosed : ∀ e, Handled session (.error e) (.serving session) := fun _ => closed_serving _
  refine obeys_quietly (quiet_cleanHandshakeStore _) hclosed fun _ => ?_
  refine obeys_quietly (quiet_getHandshake _) hclosed fun entry => ?_
  cases entry with
  | none => exact hclosed _
  | some entry =>
    refine obeys_quietly (quiet_ofCrypto _) hclosed fun decrypted => ?_
    refine obeys_quietly (quiet_readFrom _ _) hclosed fun parsed => ?_
    obtain ⟨obj, rest⟩ := parsed
    dsimp only
    split
    · split
      · exact hclosed _
      · split
        · exact hclosed _
        · -- the row, the recent set, the row again, the entry
          refine fun w => ⟨_, .establish (fresh_newSession _ _ _ _ _), ?_⟩
          refine fun w => ⟨_, .renew, ?_⟩
          refine obeys_updateSession (fun w => .createRow) (fun w => .putCreated) ?_
          refine obeys_quietly (quiet_removeHandshake _) hclosed fun _ => ?_
          exact Or.inl rfl
    · exact hclosed _

/-- Only `SignUp` and `SetClientDHParams` leave the phase they were called in. -/
theorem obeys_handleRequest (draws : Draws) (obj : TlObject) :
    (handleRequest statics draws conn obj (session.map FrameSession.id)).Obeys (Move conn)
      (Handled session) (.serving session) := by
  rcases handleRequest_cases (session.map FrameSession.id) statics draws conn obj with ⟨req, rfl⟩ |
    ⟨req, rfl⟩ | hq
  · exact obeys_handleSignUp draws req
  · exact obeys_handleSetClientDhParams statics draws req
  · refine (Obeys.of_through hq Move.quiet).mono ?_
    rintro (e | a) _ rfl
    · exact closed_serving session
    · exact Or.inl rfl

/-- How a turn's work ends. -/
abbrev Over : Except Stop α → Phase → Prop := fun _ ph => ph.Closed

theorem obeys_storeCounters {crypto : SessionCrypto} {sendCounter : UInt32}
    (hcounter : succU32 crypto.sendCounter = some sendCounter) {reserved : Int32 × UInt32}
    {k : Unit → ServerM β} (hk : (k ()).Obeys (Move conn) final (.settled id crypto reserved))
    (hlost : (k ()).Obeys (Move conn) final .lost) :
    (storeCounters conn id { crypto with sendCounter } >>= k).Obeys (Move conn) final
      (.known id (.edit crypto (some reserved))) := by
  unfold storeCounters
  rw [bind_assoc]
  refine obeys_hold (fun session => ?_) hlost
  dsimp only
  rw [bind_assoc]
  refine obeys_sql (fun _ => rfl) (fun w => .settle hcounter) ?_
  exact obeys_updateSession (fun w => .settleRow) (fun w => .putSettled) hk

theorem obeys_reserveResponse {crypto : SessionCrypto} {k : Int32 × UInt32 → ServerM β}
    (hpanic : ∀ session, final (.error .panic) (.looked id (.edit crypto none) session))
    (hk : ∀ reserved, (k reserved).Obeys (Move conn) final
      (.known id (.edit crypto (some reserved))))
    (hlost : ∀ r, (k r).Obeys (Move conn) final .lost) :
    (reserveResponse conn id >>= k).Obeys (Move conn) final (.known id (.edit crypto none)) := by
  unfold reserveResponse
  rw [bind_assoc]
  refine obeys_hold (fun session => ?_) (hlost _)
  dsimp only
  rw [bind_assoc]
  refine obeys_orPanic (hpanic session) fun seqNo hseq => ?_
  rw [bind_assoc]
  refine obeys_updateSession (fun w => .reserve hseq) (fun w => .putSaved) ?_
  rw [bind_assoc]
  exact obeys_sql (fun _ => rfl) (fun w => .sendState) (hk (seqNo, session.msgIdCounter))

theorem obeys_respondEncrypted (draws : FrameDraws) (session : FrameSession) (data : Bytes) :
    (respondEncrypted draws conn session data).Obeys (Move conn) Over
      (.known session.id (.edit session.crypto none)) := by
  refine obeys_reserveResponse (fun _ => trivial) (fun reserved => ?_) fun r =>
    obeys_lost_closed _
  obtain ⟨seqNo, counter⟩ := reserved
  refine obeys_orPanic trivial fun sealed hsealed => ?_
  obtain ⟨sendCounter, hcounter, heq⟩ := encryptOutgoingServer_some hsealed
  rw [heq]
  dsimp only
  rw [sealFrame_encryptAndTag]
  have hmove (w : World) := @Move.stamp _ conn session.id session.crypto seqNo counter w
    draws.responseNow draws.responseRandom data
  -- what the frame consists of is not looked at any more
  generalize responseFrame session.id session.crypto draws.responseRandom
    (withHeader (msgId draws.responseNow counter) seqNo data) = frame at hmove ⊢
  apply obeys_storeCounters hcounter
  · exact obeys_transportSend trivial hmove trivial
  · exact obeys_lost_closed _

theorem obeys_respond (draws : FrameDraws) (session : Option FrameSession) (data : Bytes) :
    (respond draws conn session data).Obeys (Move conn) Over (.serving session) := by
  cases session with
  | none => exact obeys_transportSend trivial (fun w => .sendPlain) trivial
  | some session => exact obeys_respondEncrypted draws session data

/-- Where a received object finds the turn. -/
def Phase.received : Option FrameSession → Phase
  | none => .idle
  | some session => .pending session

theorem obeys_dispatch (draws : FrameDraws) (session : Option FrameSession) (tlData : Bytes) :
    (dispatch statics draws conn session tlData).Obeys (Move conn) Over (.received session) := by
  have hclosed : (Phase.received session).Closed := by
    cases session <;> trivial
  unfold dispatch
  cases TlObject.readBoxed.run tlData with
  | err e => exact hclosed
  | panic => exact hclosed
  | ok obj rest =>
    refine obeys_record (.serving session) (fun w => ?_) ?_
    · cases session with
      | none => exact .dispatchPlain
      | some session => exact .dispatch
    · refine Obeys.bind ((obeys_handleRequest statics draws.handler obj).mono ?_)
      rintro (e | reply) ph hph
      · exact hph
      · cases reply with
        | none =>
          rcases hph with rfl | rfl
          · exact closed_serving _
          · trivial
        | some data =>
          refine Obeys.bind ?_
          rcases hph with rfl | rfl
          · refine (obeys_respond draws session data).mono ?_
            rintro (e | ⟨⟩) ph hph
            · exact hph
            · exact hph
          · refine (obeys_lost_closed _).mono ?_
            rintro (e | ⟨⟩) ph hph
            · exact hph
            · exact hph

theorem obeys_handleFrame (draws : FrameDraws) (raw : Bytes) :
    (handleFrame statics draws conn raw).Obeys (Move conn) Over .idle := by
  refine Obeys.bind ((obeys_addressedSession raw).mono ?_)
  rintro (e | id) ph hph
  · cases hph
    trivial
  · cases id with
    | none =>
      cases hph
      exact obeys_dispatch statics draws none raw
    | some id =>
      cases hph
      refine Obeys.bind ((obeys_receiveEncrypted draws.now raw).mono ?_)
      rintro (e | reason | ⟨tlData, session⟩) ph hph
      · exact hph
      · exact hph
      · cases hph
        exact obeys_dispatch statics draws (some session) tlData

/-- A whole turn, from idle to idle. -/
theorem obeys_serve (draws : FrameDraws) (raw : Bytes) :
    (serve statics draws conn raw).Obeys (Move conn) (fun _ ph => ph = .idle) .idle := by
  refine Obeys.bind (Obeys.attempt ((obeys_handleFrame statics draws raw).mono ?_))
  rintro result ph hclosed
  exact fun w => ⟨.idle, .finish hclosed, rfl⟩

end Handle

end Follows

end KoSta.Server
