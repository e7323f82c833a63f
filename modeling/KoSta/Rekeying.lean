import KoSta.Client.Histories
import KoSta.Link
import KoSta.Server.Exchanges

/-! A session that is authenticated again, and where its sequence numbers stand. -/
namespace KoSta
open Lib Tl Crypto Transport Client Server

section Agreement

variable [Platform] {T : Type}

/-- Each side's next frame passes the other's check of its sequence number. -/
structure InStep (client : Session T) (server : SessionData) : Prop where
  upward : client.seqNo = server.recvSeqNo
  downward : client.recvSeqNo = server.sendSeqNo

/-- The session a finished exchange leaves in the server. -/
structure Created (conn : ConnId) (w w' : World) (id : Int64) (session : SessionData) : Prop where
  trace : w'.trace = .put conn id session :: .established id :: w.trace
  cache : w'.state.cache id = some session
  row : w'.row id = some (session.toRow id)

/-- A request that finishes an exchange creates a session under whose sequence numbers nothing
has been sent or received. -/
theorem created_of_ok {statics : Statics} {draws : Draws} {conn : ConnId} {req : SetClientDHParams}
    {reply : Option Bytes} {w w' : World}
    (h : (handleSetClientDhParams statics draws conn req).exec w = (.ok reply, w')) :
    ∃ id session, Created conn w w' id session ∧ session.recvSeqNo = -1 ∧
      session.sendSeqNo = -1 := by
  rcases handleSetClientDhParams_cases statics draws conn req w with
    ⟨e, heq⟩ | ⟨entry, inner, -, -, heq⟩
  · rw [heq] at h
    cases h
  · rw [heq] at h
    obtain ⟨-, rfl⟩ := Prod.mk.inj h
    have hcache := World.create_cache (w.clean draws.instant) conn
      (computeAuthKeyId (secretOf statics entry inner)) (newSession (secretOf statics entry inner)
        req.nonce req.serverNonce entry.newNonce) (handshakeKey req.nonce req.serverNonce)
    exact ⟨_, _, ⟨World.create_trace _ _ _ _ _, hcache, World.create_row _ _ _ _ _⟩, rfl, rfl⟩

/-- A session that is not authenticated when it calls `authenticate` comes out in step with
whatever session the server has just created, whatever calls have gone before. -/
theorem authenticate_inStep [FrameTransport T] {publicKey : Vector UInt8 32}
    (actions : List (Action T)) (t : T) {draws : AuthDraws} {s' : Session T}
    (hplain : (history publicKey actions (Session.fromTransport t)).crypto = none)
    (hok : (authenticate publicKey draws).exec
      (history publicKey actions (Session.fromTransport t)) =
      (.ok (), s'))
    {statics : Statics} {serverDraws : Draws} {conn : ConnId} {req : SetClientDHParams}
    {reply : Option Bytes} {w w' : World}
    (hcreated : (handleSetClientDhParams statics serverDraws conn req).exec w = (.ok reply, w')) :
    ∃ id session, Created conn w w' id session ∧ InStep s' session := by
  obtain ⟨id, session, hsession, hrecv, hsend⟩ := created_of_ok hcreated
  refine ⟨id, session, hsession, ?_⟩
  rcases regular_history publicKey actions (Or.inl (plain_fromTransport t)) with
    hs | hsome
  · obtain ⟨hseq, hrecv'⟩ := seqNo_of_authenticate hs hok
    exact ⟨hseq.trans hrecv.symm, hrecv'.trans hsend.symm⟩
  · rw [hplain] at hsome
    cases hsome

end Agreement

namespace Trial

/-- A client authenticates, and connects anew to the same server. -/
def renewal [Platform] : List (Action Link) :=
  let once := history key [.authenticate (authDraws 1)] (Session.fromTransport link)
  [.authenticate (authDraws 1),
    .reconnect (.ok { link with conn := 1, world := once.transport.world })]

end Trial

/-- A second exchange on a new connection, and a session that the server creates. -/
theorem authenticate_inStep_renewal : letI := Server.Sample.platform
    ∃ s', (authenticate Trial.key (Trial.authDraws 2)).exec
        (history Trial.key Trial.renewal (Session.fromTransport Trial.link)) = (.ok (), s') ∧
      ∃ conn w w' id session, Created conn w w' id session ∧ InStep s' session := by
  have hok : letI := Server.Sample.platform
      ((authenticate Trial.key (Trial.authDraws 2)).exec
        (history Trial.key Trial.renewal (Session.fromTransport Trial.link))).1.isOk = true := by
    decide +kernel
  rcases hexec : letI := Server.Sample.platform
    (authenticate Trial.key (Trial.authDraws 2)).exec
      (history Trial.key Trial.renewal (Session.fromTransport Trial.link))
    with ⟨result, s'⟩
  rw [hexec] at hok
  cases result with
  | error e => cases hok
  | ok _ =>
    obtain ⟨reply, w', hfinish⟩ := Server.Sample.exec_finish
    have hstep := @authenticate_inStep Server.Sample.platform Link
      (@Link.frameTransport Server.Sample.platform) Trial.key
      (@Trial.renewal Server.Sample.platform) Trial.link
      (Trial.authDraws 2) s' rfl hexec _ _ _ _ reply _ w' hfinish
    exact ⟨s', rfl, _, _, w', hstep⟩

/-! ### A second exchange over the first one's session -/

namespace Trial

/-- The first exchange, on a new connection to the server. -/
def once : Session Link :=
  letI := platform
  history key [.authenticate (authDraws 1)] (Session.fromTransport link)

/-- The second, without a new connection. -/
def twice : Except (Failure KostaError) Unit × Session Link :=
  letI := platform
  (authenticate key (authDraws 2)).exec once

/-- An exchange has ended well, but the client counts on from the session before. -/
def outOfStep : Except (Failure KostaError) Unit × Session Link → Bool
  | (.ok (), s) =>
    match s.authKeyId.bind s.transport.world.state.cache with
    | some session => s.seqNo = 2 ∧ session.recvSeqNo = -1
    | none => false
  | (.error _, _) => false

theorem outOfStep_twice : outOfStep twice = true := by decide +kernel

theorem exists_of_outOfStep {r : Except (Failure KostaError) Unit × Session Link}
    (h : outOfStep r = true) : ∃ s id session, r = (.ok (), s) ∧ s.authKeyId = some id ∧
      s.transport.world.state.cache id = some session ∧ s.seqNo ≠ session.recvSeqNo := by
  rcases r with ⟨result, s⟩
  cases result with
  | error e => cases h
  | ok _ =>
    dsimp only [outOfStep] at h
    cases hbind : s.authKeyId.bind s.transport.world.state.cache with
    | none =>
      rw [hbind] at h
      cases h
    | some session =>
      rw [hbind] at h
      obtain ⟨id, hid, hcache⟩ := Option.bind_eq_some_iff.mp hbind
      obtain ⟨hseq, hrecv⟩ := of_decide_eq_true h
      refine ⟨s, id, session, rfl, hid, hcache, ?_⟩
      rw [hseq, hrecv]
      decide

end Trial

/-- The sequence numbers of the first session are carried into the second. -/
theorem not_authenticate_inStep : ¬ ∀ (_ : Platform) (publicKey : Vector UInt8 32)
    (actions : List (Action Link)) (l : Link) (draws : AuthDraws) (s : Session Link) (id : Int64)
    (session : SessionData),
    (authenticate publicKey draws).exec (history publicKey actions (Session.fromTransport l)) =
      (.ok (), s) → s.authKeyId = some id → s.transport.world.state.cache id = some session →
    InStep s session := by
  intro h
  obtain ⟨s, id, session, htwice, hid, hcache, hne⟩ :=
    Trial.exists_of_outOfStep Trial.outOfStep_twice
  exact hne (h Trial.platform Trial.key [.authenticate (Trial.authDraws 1)] Trial.link
    (Trial.authDraws 2) s id session htwice hid hcache).upward

end KoSta
