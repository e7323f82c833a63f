import KoSta.Client.Authenticate
import KoSta.Client.Send

/-! Histories of a session: any calls in any order. -/
namespace KoSta.Client
open Lib Tl Crypto Transport

variable {T : Type}

/-- What an application does with a session. -/
inductive Action (T : Type) where
  | authenticate (draws : AuthDraws)
  | send (now : Nat) (random : Vector UInt8 12) (obj : TlObject)
  | recv (now : Nat)
  | reconnect (connection : Except KostaError T)

variable [Platform] [FrameTransport T] {publicKey : Vector UInt8 32} {s : Session T}

def Action.exec (publicKey : Vector UInt8 32) (s : Session T) : Action T → Session T
  | .authenticate draws => ((Client.authenticate publicKey draws).exec s).2
  | .send now random obj => ((sendTl now random obj).exec s).2
  | .recv now => ((recvTl now).exec s).2
  | .reconnect connection => ((Client.reconnect connection).exec s).2

def history (publicKey : Vector UInt8 32) (actions : List (Action T)) (s : Session T) : Session T :=
  actions.foldl (Action.exec publicKey) s

/-! ### What the parts of a call keep -/

section Stages

variable {P : Session T → Prop}

theorem exec_exchange (hsend : ∀ now random obj s, P s → P ((sendTl now random obj).exec s).2)
    (hrecv : ∀ now s, P s → P ((recvTl now).exec s).2) (h : P s) (draw : ExchangeDraw)
    (request : TlObject) : P ((exchange draw request).exec s).2 :=
  exec_then (hsend _ _ _ _ h) fun _ t ht => hrecv _ t ht

variable (hexchange : ∀ draw request s, P s → P ((exchange draw request).exec s).2) (h : P s)

omit [Platform] [FrameTransport T] in
include h in
theorem exec_ofCrypto {α : Type} (x : Except CryptoError α) :
    P ((ofCrypto x : ClientM T α).exec s).2 := by
  cases x <;> exact h

include hexchange h

theorem exec_requestPq (draws : AuthDraws) : P ((requestPq draws).exec s).2 := by
  refine exec_then (hexchange _ _ _ h) fun reply t ht => ?_
  cases reply with
  | resPQ resPq => exact exec_ite ht ht
  | _ => exact ht

theorem exec_requestDhParams (draws : AuthDraws) (resPq : ResPQ) :
    P ((requestDhParams draws resPq).exec s).2 := by
  refine exec_then (exec_ofCrypto h _) fun encryptedData t ht => ?_
  refine exec_then (exec_orPanic ht _) fun fingerprint u hu => ?_
  refine exec_then (hexchange _ _ _ hu) fun reply v hv => ?_
  cases reply with
  | serverDHParamsOk dhParams => exact exec_ite hv hv
  | _ => exact hv

theorem exec_dhAnswer (publicKey : Vector UInt8 32) (draws : AuthDraws) :
    P ((dhAnswer publicKey draws).exec s).2 := by
  refine exec_then (exec_requestPq hexchange h draws) fun resPq t ht => ?_
  refine exec_then (x := checkPq publicKey draws resPq) ?_ fun _ u hu => ?_
  · exact exec_ite ht (exec_ite ht (exec_ite ht ht))
  refine exec_then (exec_requestDhParams hexchange hu draws resPq) fun dhParams v hv => ?_
  refine exec_then (x := checkSignature publicKey dhParams) ?_ fun _ w hw => ?_
  · unfold checkSignature
    dsimp only
    split <;> exact hv
  refine exec_then (x := openAnswer draws resPq.serverNonce dhParams.encryptedAnswer) ?_
    fun inner x hx => ?_
  · refine exec_then (exec_ofCrypto hw _) fun decrypted x hx => ?_
    refine exec_then (exec_readFrom hx _ _) fun read y hy => ?_
    obtain ⟨obj, rest⟩ := read
    cases obj with
    | serverDHInnerData inner => exact exec_ite hy hy
    | _ => exact hy
  refine exec_then (x := checkDh draws inner) ?_ fun _ y hy => hy
  unfold checkDh
  dsimp only
  split
  · exact hx
  · exact exec_ite hx hx

theorem exec_setClientDh (draws : AuthDraws) (serverNonce : Int128) (inner : ServerDHInnerData) :
    P ((setClientDh draws serverNonce inner).exec s).2 := by
  refine exec_then (exec_ofCrypto h _) fun encryptedData t ht => ?_
  refine exec_then (hexchange _ _ _ ht) fun reply u hu => ?_
  cases reply with
  | dhGenOk dhGen => exact exec_ite hu (exec_ite hu hu)
  | _ => exact hu

end Stages

/-- Ended well, a call has installed the session over what its last reply left. -/
theorem authenticate_ok {draws : AuthDraws} {s' : Session T}
    (h : (authenticate publicKey draws).exec s = (.ok (), s')) : ∃ serverNonce inner t u,
      (dhAnswer publicKey draws).exec s = (.ok (serverNonce, inner), t) ∧
      (setClientDh draws serverNonce inner).exec t = (.ok (), u) ∧
      s' = u.install draws.nonce serverNonce (sharedSecret draws inner) := by
  unfold authenticate at h
  obtain ⟨⟨serverNonce, inner⟩, t, hanswer, h₁⟩ := exec_bind_ok h
  obtain ⟨_, u, hset, h₂⟩ := exec_bind_ok h₁
  cases h₂
  exact ⟨serverNonce, inner, t, u, hanswer, hset, rfl⟩

/-! ### Sequence numbers -/

/-- Nothing has been sent or received under a sequence number. -/
structure Plain (s : Session T) : Prop where
  crypto : s.crypto = none
  seqNo : s.seqNo = -1
  recvSeqNo : s.recvSeqNo = -1

omit [Platform] [FrameTransport T] in
theorem plain_fromTransport (t : T) : Plain (Session.fromTransport t) := ⟨rfl, rfl, rfl⟩

theorem plain_sendTl (now : Nat) (random : Vector UInt8 12) (obj : TlObject) (s : Session T)
    (h : Plain s) : Plain ((sendTl now random obj).exec s).2 := by
  unfold sendTl
  rw [exec_bind_of_ok (exec_get s), h.crypto]
  exact exec_transportSend (fun _ => ⟨h.crypto, h.seqNo, h.recvSeqNo⟩) _

theorem plain_recvTl (now : Nat) (s : Session T) (h : Plain s) : Plain ((recvTl now).exec s).2 := by
  refine exec_then (exec_transportRecv fun _ => ⟨h.crypto, h.seqNo, h.recvSeqNo⟩) fun raw t ht => ?_
  unfold receive
  rw [exec_bind_of_ok (exec_get t), ht.crypto]
  exact exec_then (exec_readFrom ht _ _) fun _ _ hu => hu

theorem plain_exchange (draw : ExchangeDraw) (request : TlObject) (s : Session T) (h : Plain s) :
    Plain ((exchange draw request).exec s).2 :=
  exec_exchange plain_sendTl plain_recvTl h draw request

/-- Plain until an exchange is finished, and again only after a new connection. -/
def Regular (s : Session T) : Prop := Plain s ∨ s.crypto.isSome = true

theorem regular_sendTl (now : Nat) (random : Vector UInt8 12) (obj : TlObject) (s : Session T)
    (h : Regular s) : Regular ((sendTl now random obj).exec s).2 :=
  h.imp (plain_sendTl now random obj s) fun hs => (stamped_sendTl now random obj hs).crypto

theorem regular_recvTl (now : Nat) (s : Session T) (h : Regular s) :
    Regular ((recvTl now).exec s).2 :=
  h.imp (plain_recvTl now s) fun hs => (waiting_recvTl now hs).crypto

theorem regular_authenticate (draws : AuthDraws) (h : Regular s) :
    Regular ((authenticate publicKey draws).exec s).2 := by
  have hexchange (draw : ExchangeDraw) (request : TlObject) (s : Session T) (hs : Regular s) :
      Regular ((exchange draw request).exec s).2 :=
    exec_exchange regular_sendTl regular_recvTl hs draw request
  refine exec_then (exec_dhAnswer hexchange h publicKey draws) fun found t ht => ?_
  exact exec_then (exec_setClientDh hexchange ht draws _ _) fun _ u _ => Or.inr rfl

theorem regular_history (publicKey : Vector UInt8 32) (actions : List (Action T)) (h : Regular s) :
    Regular (history publicKey actions s) := by
  induction actions generalizing s with
  | nil => exact h
  | cons action actions ih =>
    refine ih (s := action.exec publicKey s) ?_
    cases action with
    | authenticate draws => exact regular_authenticate draws h
    | send now random obj => exact regular_sendTl now random obj s h
    | recv now => exact regular_recvTl now s h
    | reconnect connection =>
      cases connection with
      | error e => exact h
      | ok t => exact Or.inl (plain_fromTransport t)

/-- Authenticated from a plain session, both sequence numbers stand where they began. -/
theorem seqNo_of_authenticate {draws : AuthDraws} {s' : Session T} (h : Plain s)
    (hok : (authenticate publicKey draws).exec s = (.ok (), s')) :
    s'.seqNo = -1 ∧ s'.recvSeqNo = -1 := by
  obtain ⟨serverNonce, inner, t, u, hanswer, hset, rfl⟩ := authenticate_ok hok
  have ht := exec_dhAnswer plain_exchange h publicKey draws
  rw [hanswer] at ht
  have hu := exec_setClientDh plain_exchange ht draws serverNonce inner
  rw [hset] at hu
  exact ⟨hu.seqNo, hu.recvSeqNo⟩

end KoSta.Client
