import Mathlib.Data.List.Induction
import KoSta.Server.Runs

/-! The key exchange as the server runs it: what its three handlers do with the store. -/
namespace KoSta.Server
open Lib Lib.Prog Tl Crypto Function

namespace World

def clean (w : World) (now : Nat) : World :=
  ⟨{ w.state with handshakes := fun key =>
      (w.state.handshakes key).filter fun entry => now - entry.time < handshakeTimeout }, w.trace⟩

def setHandshake (w : World) (key : Bytes) (entry : Option Handshake) : World :=
  ⟨{ w.state with handshakes := update w.state.handshakes key entry }, w.trace⟩

/-- After the sections in which a finished exchange creates its session. -/
def create (w : World) (conn : ConnId) (id : Int64)
    (session : RecentMsgIds → SessionData) : World :=
  (((w.save ((session 0).toRow id) [.established id]).renew.save
    ((session w.state.nextRecent).toRow id) []).putEntry id (session w.state.nextRecent)
      [.put conn id (session w.state.nextRecent)])

theorem create_cache (w : World) (conn : ConnId) (id : Int64) (session : RecentMsgIds → SessionData)
    (key : Bytes) : ((w.create conn id session).setHandshake key none).state.cache id =
      some (session w.state.nextRecent) := update_self _ _ _

theorem create_row (w : World) (conn : ConnId) (id : Int64) (session : RecentMsgIds → SessionData)
    (key : Bytes) : ((w.create conn id session).setHandshake key none).row id =
      some ((session w.state.nextRecent).toRow id) := if_pos rfl

theorem create_trace (w : World) (conn : ConnId) (id : Int64) (session : RecentMsgIds → SessionData)
    (key : Bytes) : ((w.create conn id session).setHandshake key none).trace =
      .put conn id (session w.state.nextRecent) :: .established id :: w.trace := rfl

/-- The row is written twice, the second time with the pointer to the new recent set. -/
theorem create_db (w : World) (conn : ConnId) (id : Int64) (session : RecentMsgIds → SessionData)
    (key : Bytes) : ((w.create conn id session).setHandshake key none).state.db =
      { w.state.db with
        sessions := update w.state.db.sessions id
          (some ((session w.state.nextRecent).toRow id)) } := by
  refine congrArg (fun sessions => { w.state.db with sessions }) (funext fun i => ?_)
  by_cases hi : i = id
  · subst hi
    rw [update_self]
    exact if_pos rfl
  · rw [update_of_ne hi]
    exact (if_neg hi).trans (if_neg hi)

end World

variable [Platform] {statics : Statics} {w : World}

/-- What is in an envelope, once it has been opened. -/
def Contains (opened : Except CryptoError Bytes) (obj : TlObject) : Prop :=
  ∃ decrypted rest, opened = .ok decrypted ∧ TlObject.readBoxed.run decrypted = .ok obj rest

/-- What a request for parameters carries under its nonces. -/
structure Asks (req : ReqDHParams) (inner : PqInnerData) : Prop where
  opened : Contains (decryptInner (tmpKeyFromNonce req.nonce req.serverNonce) req.encryptedData)
    (.pqInnerData inner)
  nonce : inner.nonce = req.nonce
  serverNonce : inner.serverNonce = req.serverNonce

/-- The entry that is stored for it. -/
def handshakeOf (statics : Statics) (draws : Draws) (inner : PqInnerData) : Handshake where
  newNonce := inner.newNonce
  a := toBytesBe (generatePrivateKey draws.privateKey % statics.dhPrime)
  time := draws.instant

def answerOf (statics : Statics) (draws : Draws) (req : ReqDHParams) : ServerDHInnerData where
  nonce := req.nonce
  serverNonce := req.serverNonce
  g := 2
  dhPrime := toBytesBe statics.dhPrime
  gA := toBytesBe (computePublicKey dhG
    (generatePrivateKey draws.privateKey % statics.dhPrime) statics.dhPrime)
  serverTime := 0

/-- The answer, once it is encrypted. -/
def paramsOk (statics : Statics) (req : ReqDHParams) (encryptedAnswer : Bytes) : TlObject :=
  .serverDHParamsOk
    { nonce := req.nonce, serverNonce := req.serverNonce, encryptedAnswer
      signature := (ed25519Sign statics.signingKey
        (signedData req.nonce req.serverNonce encryptedAnswer)).toList }

/-- What a request to finish the exchange carries, given the entry of its pair. -/
structure Agrees (statics : Statics) (entry : Handshake) (req : SetClientDHParams)
    (inner : ClientDHInnerData) : Prop where
  opened : Contains (decryptInner (tmpKey entry.newNonce req.serverNonce) req.encryptedData)
    (.clientDHInnerData inner)
  nonce : inner.nonce = req.nonce
  serverNonce : inner.serverNonce = req.serverNonce
  range : 1 < fromBytesBe inner.gB ∧ fromBytesBe inner.gB < statics.dhPrime - 1

def secretOf (statics : Statics) (entry : Handshake) (inner : ClientDHInnerData) : Nat :=
  computeSharedSecret (fromBytesBe inner.gB) (fromBytesBe entry.a) statics.dhPrime

def genOk (req : SetClientDHParams) (secret : Nat) : TlObject :=
  .dhGenOk
    { nonce := req.nonce, serverNonce := req.serverNonce, newNonceHash1 := newNonceHash1 secret }

/-! ### Envelopes -/

omit [Platform] in
theorem Contains.unique {opened : Except CryptoError Bytes} {obj obj' : TlObject}
    (h : Contains opened obj) (h' : Contains opened obj') : obj = obj' := by
  obtain ⟨decrypted, rest, hopen, hread⟩ := h
  obtain ⟨decrypted', rest', hopen', hread'⟩ := h'
  obtain rfl := Except.ok.inj (hopen.symm.trans hopen')
  rw [hread] at hread'
  cases hread'
  rfl

omit [Platform] in
/-- An envelope that cannot be opened or read ends the request. -/
theorem open_eq {α : Type} (opened : Except CryptoError Bytes) (k : TlObject × Bytes → ServerM α) :
    (∃ e, (ofCrypto opened >>= fun decrypted => readFrom TlObject.readBoxed decrypted >>= k) =
      .fail e ∧ ∀ obj, ¬ Contains opened obj) ∨
    ∃ obj rest, Contains opened obj ∧
      (ofCrypto opened >>= fun decrypted => readFrom TlObject.readBoxed decrypted >>= k) =
        k (obj, rest) := by
  cases opened with
  | error e =>
    refine Or.inl ⟨_, rfl, ?_⟩
    rintro obj ⟨decrypted, rest, hopen, -⟩
    cases hopen
  | ok decrypted =>
    have hread (hno : ∀ obj rest, TlObject.readBoxed.run decrypted ≠ .ok obj rest)
      (obj : TlObject) :
        ¬ Contains (.ok decrypted) obj := by
      rintro ⟨d, rest, hd, hobj⟩
      cases hd
      exact hno obj rest hobj
    change (∃ e, (readFrom TlObject.readBoxed decrypted >>= k) = _ ∧ _) ∨
      ∃ obj rest, _ ∧ (readFrom TlObject.readBoxed decrypted >>= k) = _
    unfold readFrom
    cases hrun : TlObject.readBoxed.run decrypted with
    | ok obj rest => exact Or.inr ⟨obj, rest, ⟨decrypted, rest, rfl, hrun⟩, rfl⟩
    | err e => exact Or.inl ⟨_, rfl, hread fun obj rest h => by rw [hrun] at h; cases h⟩
    | panic => exact Or.inl ⟨_, rfl, hread fun obj rest h => by rw [hrun] at h; cases h⟩

/-! ### Each handler -/

theorem exec_handleReqPq (statics : Statics) (draws : Draws) (req : ReqPq) (w : World) :
    ((handleReqPq statics draws req).exec w).2 = w := by
  unfold handleReqPq
  cases generateRandomPrime draws.primes with
  | none => rfl
  | some found =>
    obtain ⟨p, rest⟩ := found
    change ((orSearching (generateOtherPrime p rest) >>= _ : ServerM (Option Bytes)).exec w).2 = w
    cases generateOtherPrime p rest <;> rfl

/-- The result of answering a request for parameters. -/
def answer (statics : Statics) (draws : Draws) (req : ReqDHParams) (inner : PqInnerData) :
    Except Stop (Option Bytes) :=
  match encryptInner (tmpKey inner.newNonce req.serverNonce) (pad draws.padding
    (TlObject.serverDHInnerData (answerOf statics draws req)).writeBoxed) with
  | .ok encryptedAnswer => .ok (some (paramsOk statics req encryptedAnswer).writeBoxed)
  | .error e => .error (.error (.crypto e))

/-- A request for parameters either changes nothing or stores an entry for its pair. -/
theorem handleReqDhParams_cases (statics : Statics) (draws : Draws) (req : ReqDHParams)
    (w : World) :
    (∃ e, (handleReqDhParams statics draws req).exec w = (.error e, w) ∧
      ∀ inner, ¬ Asks req inner) ∨
    ∃ inner, Asks req inner ∧ (handleReqDhParams statics draws req).exec w =
      (answer statics draws req inner, w.setHandshake (handshakeKey req.nonce req.serverNonce)
        (some (handshakeOf statics draws inner))) := by
  unfold handleReqDhParams
  rcases open_eq (decryptInner (tmpKeyFromNonce req.nonce req.serverNonce) req.encryptedData) _ with
    ⟨e, heq, hnot⟩ | ⟨obj, rest, hobj, heq⟩
  · rw [heq]
    exact Or.inl ⟨e, rfl, fun inner h => hnot _ h.opened⟩
  · rw [heq]
    cases obj with
    | pqInnerData inner =>
      dsimp only
      by_cases hnonce : inner.nonce ≠ req.nonce ∨ inner.serverNonce ≠ req.serverNonce
      · rw [if_pos hnonce]
        refine Or.inl ⟨_, rfl, fun inner' h => ?_⟩
        cases hobj.unique h.opened
        exact hnonce.elim (fun hn => hn h.nonce) fun hn => hn h.serverNonce
      · rw [if_neg hnonce]
        obtain ⟨hn, hsn⟩ := not_or.mp hnonce
        refine Or.inr ⟨inner, ⟨hobj, not_not.mp hn, not_not.mp hsn⟩, ?_⟩
        unfold insertHandshake answer answerOf
        rw [exec_bind, exec_locked]
        dsimp only
        cases encryptInner (tmpKey inner.newNonce req.serverNonce) _ <;> rfl
    | _ => exact Or.inl ⟨_, rfl, fun inner h => by cases hobj.unique h.opened⟩

/-- What a request to finish the exchange does once its checks have passed. -/
def establish (statics : Statics) (conn : ConnId) (req : SetClientDHParams) (entry : Handshake)
    (inner : ClientDHInnerData) : ServerM (Option Bytes) := do
  let secret := secretOf statics entry inner
  let session := newSession secret req.nonce req.serverNonce entry.newNonce
  saveSession ((session 0).toRow (computeAuthKeyId secret)) [.established (computeAuthKeyId secret)]
  let recent ← newRecent
  updateSession conn (computeAuthKeyId secret) (session recent) [] []
  removeHandshake (handshakeKey req.nonce req.serverNonce)
  reply (genOk req secret)

/-- What it does with the entry it has found. -/
def finishWith (statics : Statics) (conn : ConnId) (req : SetClientDHParams) :
    Option Handshake → ServerM (Option Bytes)
  | none => failWith "No handshake data for this nonce pair"
  | some entry => do
    let decrypted ← ofCrypto (decryptInner (tmpKey entry.newNonce req.serverNonce)
      req.encryptedData)
    let (obj, _) ← readFrom TlObject.readBoxed decrypted
    match obj with
    | .clientDHInnerData inner =>
      if inner.nonce ≠ req.nonce ∨ inner.serverNonce ≠ req.serverNonce then
        failWith "Nonce mismatch in ClientDHInnerData"
      else
        match Client.validatePublicValue (fromBytesBe inner.gB) statics.dhPrime with
        | .error e => failWith ("Invalid g_b: " ++ e)
        | .ok () => establish statics conn req entry inner
    | _ => failWith "Expected ClientDHInnerData"

theorem handleSetClientDhParams_eq (statics : Statics) (draws : Draws) (conn : ConnId)
    (req : SetClientDHParams) : handleSetClientDhParams statics draws conn req = (do
      cleanHandshakeStore draws.instant
      let found ← getHandshake (handshakeKey req.nonce req.serverNonce)
      finishWith statics conn req found) := by
  unfold handleSetClientDhParams
  refine bind_congr fun _ => bind_congr fun found => ?_
  cases found with
  | none => rfl
  | some entry => rfl

/-- The checks of one entry come to an end without a section. -/
theorem finishWith_cases (statics : Statics) (conn : ConnId) (req : SetClientDHParams)
    (entry : Handshake) :
    (∃ e, finishWith statics conn req (some entry) = .fail e ∧
      ∀ inner, ¬ Agrees statics entry req inner) ∨
    ∃ inner, Agrees statics entry req inner ∧
      finishWith statics conn req (some entry) = establish statics conn req entry inner := by
  unfold finishWith
  dsimp only
  rcases open_eq (decryptInner (tmpKey entry.newNonce req.serverNonce) req.encryptedData) _ with
    ⟨e, heq, hnot⟩ | ⟨obj, rest, hobj, heq⟩
  · rw [heq]
    exact Or.inl ⟨e, rfl, fun inner h => hnot _ h.opened⟩
  · rw [heq]
    cases obj with
    | clientDHInnerData inner =>
      dsimp only
      by_cases hnonce : inner.nonce ≠ req.nonce ∨ inner.serverNonce ≠ req.serverNonce
      · rw [if_pos hnonce]
        refine Or.inl ⟨_, rfl, fun inner' h => ?_⟩
        cases hobj.unique h.opened
        exact hnonce.elim (fun hn => hn h.nonce) fun hn => hn h.serverNonce
      · rw [if_neg hnonce]
        obtain ⟨hn, hsn⟩ := not_or.mp hnonce
        cases hvalid : Client.validatePublicValue (fromBytesBe inner.gB) statics.dhPrime with
        | error e =>
          refine Or.inl ⟨_, rfl, fun inner' h => ?_⟩
          cases hobj.unique h.opened
          rw [Client.validatePublicValue_ok.mpr h.range] at hvalid
          cases hvalid
        | ok _ =>
          exact Or.inr ⟨inner, ⟨hobj, not_not.mp hn, not_not.mp hsn,
            Client.validatePublicValue_ok.mp hvalid⟩, rfl⟩
    | _ => exact Or.inl ⟨_, rfl, fun inner h => by cases hobj.unique h.opened⟩

theorem exec_handleSetClientDhParams (statics : Statics) (draws : Draws) (conn : ConnId)
    (req : SetClientDHParams) (w : World) :
      (handleSetClientDhParams statics draws conn req).exec w =
      (finishWith statics conn req ((w.clean draws.instant).state.handshakes
        (handshakeKey req.nonce req.serverNonce))).exec (w.clean draws.instant) := by
  have hclean : (cleanHandshakeStore draws.instant).exec w = (.ok (), w.clean draws.instant) := rfl
  have hget (key : Bytes) : (getHandshake key).exec (w.clean draws.instant) =
    (.ok ((w.clean draws.instant).state.handshakes key), w.clean draws.instant) := rfl
  rw [handleSetClientDhParams_eq, exec_bind, hclean]
  dsimp only
  rw [exec_bind, hget]

theorem exec_handleSetClientDhParams_of_agrees (draws : Draws) (conn : ConnId)
    {req : SetClientDHParams} {entry : Handshake} {inner : ClientDHInnerData}
    (h : Agrees statics entry req inner) (hentry : (w.clean draws.instant).state.handshakes
      (handshakeKey req.nonce req.serverNonce) = some entry) :
    (handleSetClientDhParams statics draws conn req).exec w =
      (.ok (some (genOk req (secretOf statics entry inner)).writeBoxed),
        ((w.clean draws.instant).create conn (computeAuthKeyId (secretOf statics entry inner))
          (newSession (secretOf statics entry inner) req.nonce req.serverNonce
            entry.newNonce)).setHandshake (handshakeKey req.nonce req.serverNonce) none) := by
  rw [exec_handleSetClientDhParams, hentry]
  rcases finishWith_cases statics conn req entry with ⟨e, -, hnot⟩ | ⟨found, hfound, heq⟩
  · exact absurd h (hnot inner)
  · cases h.opened.unique hfound.opened
    rw [heq]
    rfl

/-- A request to finish the exchange either only clears the store of what has expired or creates
a session from the entry of its pair, which is then gone. -/
theorem handleSetClientDhParams_cases (statics : Statics) (draws : Draws) (conn : ConnId)
    (req : SetClientDHParams) (w : World) :
    (∃ e, (handleSetClientDhParams statics draws conn req).exec w =
      (.error e, w.clean draws.instant)) ∨
    ∃ entry inner,
      (w.clean draws.instant).state.handshakes (handshakeKey req.nonce req.serverNonce) =
        some entry ∧
      Agrees statics entry req inner ∧
      (handleSetClientDhParams statics draws conn req).exec w =
        (.ok (some (genOk req (secretOf statics entry inner)).writeBoxed),
          ((w.clean draws.instant).create conn (computeAuthKeyId (secretOf statics entry inner))
            (newSession (secretOf statics entry inner) req.nonce req.serverNonce
              entry.newNonce)).setHandshake (handshakeKey req.nonce req.serverNonce) none) := by
  cases hentry : (w.clean draws.instant).state.handshakes
    (handshakeKey req.nonce req.serverNonce) with
  | none =>
    rw [exec_handleSetClientDhParams, hentry]
    exact Or.inl ⟨_, rfl⟩
  | some entry =>
    rcases finishWith_cases statics conn req entry with ⟨e, heq, -⟩ | ⟨inner, hagrees, -⟩
    · rw [exec_handleSetClientDhParams, hentry, heq]
      exact Or.inl ⟨e, rfl⟩
    · exact Or.inr ⟨entry, inner, rfl, hagrees,
        exec_handleSetClientDhParams_of_agrees draws conn hagrees hentry⟩

/-! ### Where an entry comes from -/

/-- The three requests of an exchange. -/
def Request.Exchanges (r : Request) : Prop :=
  match r.obj with
  | .reqPq _ | .reqDHParams _ | .setClientDHParams _ => True
  | _ => False

/-- A request that stores an entry under this key. -/
def Request.AsksFor (r : Request) (key : Bytes) : Prop :=
  ∃ req inner, r.obj = .reqDHParams req ∧ handshakeKey req.nonce req.serverNonce = key ∧
    Asks req inner

/-- The entry is that of the latest request for its key. -/
structure Latest (statics : Statics) (rs : List Request) (key : Bytes) (entry : Handshake)
    (earlier : List Request) (q : Request) (asked : ReqDHParams) (inner : PqInnerData) : Prop where
  obj : q.obj = .reqDHParams asked
  pair : handshakeKey asked.nonce asked.serverNonce = key
  asks : Asks asked inner
  entry : entry = handshakeOf statics q.draws inner
  later : ∃ later, rs = earlier ++ q :: later ∧ ∀ r ∈ later, ¬ r.AsksFor key

def Stored (statics : Statics) (rs : List Request) (key : Bytes) (entry : Handshake) : Prop :=
  ∃ earlier q asked inner, Latest statics rs key entry earlier q asked inner

variable {rs : List Request} {r : Request} {key : Bytes} {entry : Handshake}

theorem Stored.snoc (h : Stored statics rs key entry) (hr : ¬ r.AsksFor key) :
    Stored statics (rs ++ [r]) key entry := by
  obtain ⟨earlier, q, asked, inner, hlatest⟩ := h
  obtain ⟨later, rfl, hlater⟩ := hlatest.later
  refine ⟨earlier, q, asked, inner, { hlatest with later := ⟨later ++ [r], ?_, fun p hp => ?_⟩ }⟩
  · rw [List.append_assoc, List.cons_append]
  · rcases List.mem_append.mp hp with hp | hp
    · exact hlater p hp
    · rwa [List.mem_singleton.mp hp]

theorem stored_exec (h : ∀ key entry, w.state.handshakes key = some entry →
    Stored statics rs key entry) (hr : r.Exchanges) (key : Bytes) (entry : Handshake)
    (hentry : (r.exec statics w).state.handshakes key = some entry) :
    Stored statics (rs ++ [r]) key entry := by
  have hnot {obj : TlObject} (hobj : r.obj = obj) (hother : ∀ req, obj ≠ .reqDHParams req) :
      ¬ r.AsksFor key := by
    rintro ⟨req, inner, hreq, -, -⟩
    exact hother req (hobj.symm.trans hreq)
  unfold Request.exec at hentry
  unfold Request.Exchanges at hr
  cases hobj : r.obj with
  | reqPq req =>
    rw [hobj] at hentry
    change ((handleReqPq statics r.draws req).exec w).2.state.handshakes key = _ at hentry
    rw [exec_handleReqPq] at hentry
    exact (h key entry hentry).snoc (hnot hobj nofun)
  | reqDHParams req =>
    rw [hobj] at hentry
    change ((handleReqDhParams statics r.draws req).exec w).2.state.handshakes key = _ at hentry
    rcases handleReqDhParams_cases statics r.draws req w with
      ⟨e, heq, hno⟩ | ⟨inner, hasks, heq⟩
    · rw [heq] at hentry
      refine (h key entry hentry).snoc ?_
      rintro ⟨req', inner, hreq, -, hasks⟩
      cases hobj.symm.trans hreq
      exact hno inner hasks
    · rw [heq] at hentry
      by_cases hkey : key = handshakeKey req.nonce req.serverNonce
      · subst hkey
        change update w.state.handshakes _ _ _ = _ at hentry
        rw [update_self] at hentry
        exact ⟨rs, r, req, inner, hobj, rfl, hasks, (Option.some.inj hentry).symm, [], rfl, nofun⟩
      · change update w.state.handshakes _ _ _ = _ at hentry
        rw [update_of_ne hkey] at hentry
        refine (h key entry hentry).snoc ?_
        rintro ⟨req', inner', hreq, hkey', -⟩
        cases hobj.symm.trans hreq
        exact hkey hkey'.symm
  | setClientDHParams req =>
    rw [hobj] at hentry
    change ((handleSetClientDhParams statics r.draws r.conn req).exec w).2.state.handshakes key = _
      at hentry
    have hclean : (w.clean r.draws.instant).state.handshakes key = some entry := by
      rcases handleSetClientDhParams_cases statics r.draws r.conn req w with
        ⟨e, heq⟩ | ⟨found, inner, -, -, heq⟩
      · rwa [heq] at hentry
      · rw [heq] at hentry
        change update (w.clean r.draws.instant).state.handshakes _ _ _ = _ at hentry
        by_cases hkey : key = handshakeKey req.nonce req.serverNonce
        · rw [hkey, update_self] at hentry
          cases hentry
        · rwa [update_of_ne hkey] at hentry
    exact (h key entry (Option.filter_eq_some_iff.mp hclean).1).snoc (hnot hobj nofun)
  | _ =>
    rw [hobj] at hr
    exact hr.elim

theorem stored_handleRequests (hempty : ∀ key, w.state.handshakes key = none)
    (hrs : ∀ r ∈ rs, r.Exchanges) (key : Bytes) (entry : Handshake)
    (hentry : (handleRequests statics rs w).state.handshakes key = some entry) :
    Stored statics rs key entry := by
  induction rs using List.reverseRecOn generalizing key entry with
  | nil =>
    rw [handleRequests, hempty] at hentry
    cases hentry
  | append_singleton rs r ih =>
    rw [handleRequests_append] at hentry
    refine stored_exec (fun key entry h => ih (fun p hp => ?_) key entry h) ?_ key entry hentry
    · exact hrs p (List.mem_append_left _ hp)
    · exact hrs r (List.mem_append_right _ (List.mem_singleton_self r))

end KoSta.Server
