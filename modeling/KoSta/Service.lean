import KoSta.Client.Histories
import KoSta.Conversation
import KoSta.KeyAgreement

/-! From the key exchange to whatever a client does with its key. -/
namespace KoSta
open Lib Tl Crypto Transport Client Server

/-! ### What the exchange leaves alone -/

/-- Nothing has been sent or received under a key. -/
structure Unused {T : Type} (s : Session T) : Prop extends Plain s where
  msgIdCounter : s.msgIdCounter = 0

section Client

variable [Platform] {T : Type} [FrameTransport T]

theorem unused_sendTl (now : Nat) (random : Vector UInt8 12) (obj : TlObject) (s : Session T)
    (h : Unused s) : Unused ((sendTl now random obj).exec s).2 := by
  unfold sendTl
  rw [exec_bind_of_ok (exec_get s), h.crypto]
  exact exec_transportSend (fun _ => ⟨⟨h.crypto, h.seqNo, h.recvSeqNo⟩, h.msgIdCounter⟩) _

theorem unused_recvTl (now : Nat) (s : Session T) (h : Unused s) :
    Unused ((recvTl now).exec s).2 := by
  refine exec_then (exec_transportRecv fun _ =>
    ⟨⟨h.crypto, h.seqNo, h.recvSeqNo⟩, h.msgIdCounter⟩) fun raw t ht => ?_
  unfold receive
  rw [exec_bind_of_ok (exec_get t), ht.crypto]
  exact exec_then (exec_readFrom ht _ _) fun _ _ hu => hu

theorem unused_dhAnswer {s : Session T} (h : Unused s) (publicKey : Vector UInt8 32)
    (draws : AuthDraws) : Unused ((dhAnswer publicKey draws).exec s).2 := by
  have hexchange (draw : ExchangeDraw) (request : TlObject) (s : Session T) (hs : Unused s) :
      Unused ((exchange draw request).exec s).2 :=
    Client.exec_exchange unused_sendTl unused_recvTl hs draw request
  exact Client.exec_dhAnswer hexchange h publicKey draws

end Client

/-! ### The session that is stored -/

section Service

variable [Platform]

/-- A session stands at its beginning where the exchange has stored it. -/
theorem standsAt_newSession (secret : Nat) (nonce serverNonce : Int128) (newNonce : Int256)
    (recentMsgIds : RecentMsgIds) : (newSession secret nonce serverNonce newNonce
      recentMsgIds).StandsAt
        ⟨(SessionCrypto.new (toBytesLe secret) nonce.val serverNonce.val).keys, 0, 0, 0⟩ where
  keys := rfl
  recvSeqNo := (by decide : (-1 : Int32) + 1 = Int32.ofNat 0)
  last := rfl
  sendSeqNo := (by decide : (-1 : Int32) + 1 = Int32.ofNat 0)
  msgIdCounter := rfl
  sealed := Nat.le_refl 0
  opened := Nat.le_refl 0
  sendCounter := Nat.le_refl 0
  recvCounter := Nat.le_refl 0

theorem live_create (w : World) (conn : ConnId) (secret : Nat) (nonce serverNonce : Int128)
    (newNonce : Int256) (key : Bytes) :
    Live (computeAuthKeyId secret)
      ⟨(SessionCrypto.new (toBytesLe secret) nonce.val serverNonce.val).keys, 0, 0, 0⟩
      (newSession secret nonce serverNonce newNonce w.state.nextRecent)
      ((w.create conn (computeAuthKeyId secret)
        (newSession secret nonce serverNonce newNonce)).setHandshake key none) := by
  have hstands := standsAt_newSession secret nonce serverNonce newNonce w.state.nextRecent
  refine ⟨World.create_cache w conn _ _ key, hstands,
    ⟨_, World.create_row w conn _ _ key, rfl, hstands.toRow⟩, fun m hmem => ?_⟩
  change m ∈ Function.update w.state.recents w.state.nextRecent [] w.state.nextRecent at hmem
  rw [Function.update_self] at hmem
  cases hmem

/-- The exchange is over: the server has stored the session and the client has its key. -/
theorem inTouch_finished (k : Nat) {s : Session Link} (hs : Idle s) (hunused : Unused s)
    (draws : AuthDraws) (serverNonce : Int128) (req : SetClientDHParams) (secret : Nat) :
    let s' := (s.finished draws serverNonce req secret).install draws.nonce serverNonce secret
    InTouch k (SessionCrypto.new (toBytesLe secret) draws.nonce.val serverNonce.val).keys
      (computeAuthKeyId secret) s'.transport.statics s'.transport.conn s'.transport.draws 0 0 s'
      ⟨s'.transport.world, s'.transport.turn, [], 0, 0⟩ := by
  intro s'
  let w := (s.transport.world.log [.dispatched s.transport.conn none
    (.setClientDHParams req)]).clean (s.transport.draws s.transport.turn).handler.instant
  have hlive := live_create w s.transport.conn secret draws.nonce serverNonce draws.newNonce
    (handshakeKey draws.nonce serverNonce)
  have hknown : Known (computeAuthKeyId secret)
      ⟨(SessionCrypto.new (toBytesLe secret) draws.nonce.val serverNonce.val).keys, 0, 0, 0⟩
      s'.transport.world := Or.inl ⟨_, hlive.of_state rfl⟩
  exact inTouch_fresh (s := s') k rfl rfl rfl rfl hunused.seqNo hunused.msgIdCounter rfl
    hunused.recvSeqNo hs.inbox hknown

/-! ### The whole way -/

variable {p q : Nat} {draws : AuthDraws} {publicKey : Vector UInt8 32} {l : Link}

/-- The client ends the exchange in touch with the server. -/
theorem authenticate_inTouch (hgcm : Inverts) (htag : Expands) (hsign : Verifies)
    (h : Begins publicKey draws l p q) (hprompt : Prompt l) : ∃ s keys id,
      (authenticate publicKey draws).exec (Session.fromTransport l) = (.ok (), s) ∧
      s.authKeyId = some id ∧
      ∀ k, InTouch k keys id s.transport.statics s.transport.conn s.transport.draws 0 0 s
        ⟨s.transport.world, s.transport.turn, [], 0, 0⟩ := by
  obtain ⟨s, hidle, hstatics, hdraws, hturn, hentry, hanswer⟩ := exec_dhAnswer hgcm htag hsign h
  have hunused : Unused s := by
    have hkept := unused_dhAnswer (s := Session.fromTransport l)
      ⟨plain_fromTransport l, rfl⟩ publicKey draws
    rwa [hanswer] at hkept
  rw [← hstatics] at hentry hanswer
  have hvalid := h.valid
  rw [← hstatics] at hvalid
  have hrecent : (s.transport.draws s.transport.turn).handler.instant -
      (l.draws (l.turn + 1)).handler.instant < handshakeTimeout := by
    rw [hdraws, hturn]
    exact hprompt
  obtain ⟨req, hset⟩ := exec_setClientDh_finished hgcm htag hidle (hstatics ▸ h.wide)
    (clean_of_recent hentry hrecent) hvalid
  have htouch := fun k => inTouch_finished k hidle hunused draws
    ⟨(l.draws l.turn).handler.serverNonce⟩ req (sharedSecret draws (serverPart s.transport.statics
      (l.draws (l.turn + 1)).handler draws.nonce ⟨(l.draws l.turn).handler.serverNonce⟩))
  refine ⟨_, _, _, ?_, rfl, htouch⟩
  unfold authenticate
  rw [exec_bind_of_ok hanswer]
  dsimp only
  rw [exec_bind_of_ok hset]
  rfl

/-- So whatever it does with its key comes to what the handlers do. -/
theorem authenticate_conversation (hgcm : Inverts) (htag : Expands) (hsign : Verifies)
    (h : Begins publicKey draws l p q) (hprompt : Prompt l) : ∃ s id,
      (authenticate publicKey draws).exec (Session.fromTransport l) = (.ok (), s) ∧
      s.authKeyId = some id ∧
      ∀ k moves results d', id ≠ 0 → moves.length < 2 ^ 31 →
        Conversation s.transport.statics s.transport.conn s.transport.draws id k
          ⟨s.transport.world, s.transport.turn, [], 0, 0⟩ moves results d' →
        (converse moves s).1 = results.map .ok ∧
          Server.holdings (converse moves s).2.transport.world = Server.holdings d'.world := by
  obtain ⟨s, keys, id, hauth, hid, htouch⟩ := authenticate_inTouch hgcm htag hsign h hprompt
  refine ⟨s, id, hauth, hid, fun k moves results d' hne hfew hconversation => ?_⟩
  obtain ⟨hresults, _, _, htouch'⟩ := (htouch k).converse hne hconversation (by omega)
  exact ⟨hresults, htouch'.holdings⟩

end Service

/-! ### A client that signs up -/

namespace Trial

/-- The client once it has its key. -/
def authenticated : Session Link :=
  letI := platform
  ((authenticate key (authDraws 2)).exec (Session.fromTransport link)).2

def service : Direct := ⟨authenticated.transport.world, authenticated.transport.turn, [], 0, 0⟩

def moves : List Move :=
  [.send 1 (Vector.replicate 12 0) Sample.signUp,
    .send 1 (Vector.replicate 12 0) Sample.createGroup,
    .recv 1]

end Trial

theorem authenticate_conversation_trial : letI := Trial.platform
    (converse Trial.moves Trial.authenticated).1 =
      [.ok none, .ok none, .ok (some Sample.created)] := by
  let platform := Trial.platform
  obtain ⟨s, id, hauth, hid, hall⟩ := @authenticate_conversation Trial.platform 5 7
    (Trial.authDraws 2) Trial.key Trial.link inverts_constant Trial.expands (fun _ _ => rfl)
    (Trial.begins _ rfl) (show 0 - 0 < 60000 by decide)
  have hs : Trial.authenticated = s := congrArg Prod.snd hauth
  subst hs
  have hne : id ≠ 0 := by
    have hkey : Trial.authenticated.authKeyId ≠ some 0 := by decide +kernel
    rw [hid] at hkey
    exact fun hzero => hkey (congrArg some hzero)
  have hresults : (Trial.authenticated.authKeyId.bind fun id =>
      (Trial.service.converse Trial.authenticated.transport.statics
        Trial.authenticated.transport.conn Trial.authenticated.transport.draws id 0
        Trial.moves).map Prod.fst) = some [none, none, some Sample.created] := by
    decide +kernel
  rw [hid, Option.bind_some] at hresults
  obtain ⟨⟨_, d'⟩, hconverse, rfl⟩ := Option.map_eq_some_iff.mp hresults
  have hfew : Trial.moves.length < 2 ^ 31 := by decide
  exact (hall 0 _ _ d' hne hfew (conversation_spec hconverse)).1

end KoSta
