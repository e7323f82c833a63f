import KoSta.Answers
import KoSta.Client.Primality
import KoSta.Crypto.Envelopes
import KoSta.Lib.Lucas
import Mathlib.Tactic.NormNum.Prime

/-! A whole key exchange over a link, and the session both sides have at its end. -/
namespace KoSta
open Lib Tl Crypto Transport Client Server

section Agreement

variable [Platform] {p q : Nat} {draws : AuthDraws} {publicKey : Vector UInt8 32}
  {w : World} {l : Link}

/-! ### What the crates promise -/

/-- Ciphertexts carry a tag of sixteen bytes. -/
def Expands : Prop := ∀ key nonce data ciphertext,
  aes256GcmEncrypt key nonce data = some ciphertext → ciphertext.length = data.length + 16

/-- A padded object comes out of its envelope, which is a little longer than the object. -/
theorem exists_contains (hgcm : Inverts) (htag : Expands) (key : Vector UInt8 32 × Vector UInt8 12)
    (draw : PadDraw) {o : TlObject} (h : o.writeBoxed.length ≤ maxFrameSize) : ∃ ciphertext,
      encryptInner key (pad draw o.writeBoxed) = .ok ciphertext ∧
      Contains (decryptInner key ciphertext) o ∧ o.writeBoxed.length + 28 ≤ ciphertext.length ∧
      ciphertext.length ≤ o.writeBoxed.length + 1055 := by
  obtain ⟨hlow, hhigh, -⟩ := totalPad_bounds o.writeBoxed.length draw.position
  have hlen := length_pad draw o.writeBoxed
  have hsmall : (pad draw o.writeBoxed).length ≤ 2 ^ 36 := by
    unfold maxFrameSize at h
    omega
  obtain ⟨ciphertext, hencrypt, hdecrypt⟩ := hgcm key.1 key.2 _ hsmall
  obtain ⟨rest, hread⟩ := readBoxed_pad draw h
  have htagged := htag _ _ _ _ hencrypt
  refine ⟨ciphertext, ?_, ⟨_, rest, ?_, hread⟩, by omega, by omega⟩
  · unfold encryptInner
    rw [hencrypt]
  · unfold decryptInner
    rw [hdecrypt]

/-- A signature is accepted under the key of its signer. -/
def Verifies : Prop := ∀ secret data,
  ed25519Verify (ed25519VerifyingKey secret) data (ed25519Sign secret data) = true

/-! ### The client's stages -/

section Stages

variable {T : Type} [FrameTransport T] {s s' : Session T}

/-- What the second request carries. -/
def pqInner (draws : AuthDraws) (resPq : ResPQ) : PqInnerData where
  pq := resPq.pq
  p := resPq.p
  q := resPq.q
  nonce := draws.nonce
  serverNonce := resPq.serverNonce
  newNonce := draws.newNonce

def dhRequest (draws : AuthDraws) (resPq : ResPQ) (publicKeyFingerprint : Int64)
    (encryptedData : Bytes) : ReqDHParams where
  nonce := draws.nonce
  serverNonce := resPq.serverNonce
  p := resPq.p
  q := resPq.q
  publicKeyFingerprint
  encryptedData

theorem requestPq_of_exchange {resPq : ResPQ}
    (h : (exchange draws.pq (.reqPq { nonce := draws.nonce })).exec s = (.ok (.resPQ resPq), s'))
    (hnonce : resPq.nonce = draws.nonce) : (requestPq draws).exec s = (.ok resPq, s') := by
  unfold requestPq
  rw [exec_bind_of_ok h]
  dsimp only
  rw [if_neg (not_not.mpr hnonce)]
  rfl

theorem requestDhParams_of_exchange {resPq : ResPQ} {fingerprint : Int64} {encryptedData : Bytes}
    {dhParams : ServerDHParamsOk}
    (hfingerprint : resPq.serverPublicKeyFingerprints.head? = some fingerprint)
    (hencrypt : encryptInner (tmpKeyFromNonce draws.nonce resPq.serverNonce) (pad draws.pqPadding
      (TlObject.pqInnerData (pqInner draws resPq)).writeBoxed) = .ok encryptedData)
    (h : (exchange draws.dhParams (.reqDHParams
      (dhRequest draws resPq fingerprint encryptedData))).exec s =
        (.ok (.serverDHParamsOk dhParams), s'))
    (hnonce : dhParams.nonce = draws.nonce)
    (hserverNonce : dhParams.serverNonce = resPq.serverNonce) :
    (requestDhParams draws resPq).exec s = (.ok dhParams, s') := by
  have hhead : (Client.orPanic resPq.serverPublicKeyFingerprints.head? : ClientM T Int64).exec s =
      (.ok fingerprint, s) := by
    rw [hfingerprint]
    rfl
  unfold requestDhParams
  refine (exec_bind_of_ok (exec_ofCrypto_of_ok hencrypt s)).trans
    ((exec_bind_of_ok hhead).trans ((exec_bind_of_ok h).trans ?_))
  dsimp only
  rw [if_neg (by simp [hnonce, hserverNonce])]
  rfl

omit [FrameTransport T] in
theorem exec_openAnswer {inner : ServerDHInnerData} {serverNonce : Int128} {encryptedAnswer : Bytes}
    (h : Contains (decryptInner (tmpKey draws.newNonce serverNonce) encryptedAnswer)
      (.serverDHInnerData inner)) (hnonce : inner.nonce = draws.nonce)
    (hserverNonce : inner.serverNonce = serverNonce) (s : Session T) :
    (openAnswer draws serverNonce encryptedAnswer).exec s = (.ok inner, s) := by
  obtain ⟨decrypted, rest, hopen, hread⟩ := h
  unfold openAnswer
  rw [exec_bind_of_ok (exec_ofCrypto_of_ok hopen s), exec_bind_of_ok (exec_readFrom_of_run hread s)]
  dsimp only
  rw [if_neg (by simp [hnonce, hserverNonce])]
  rfl

theorem setClientDh_of_exchange {serverNonce : Int128} {inner : ServerDHInnerData}
    {encryptedData : Bytes} {dhGen : DHGenOk}
    (hencrypt : encryptInner (tmpKey draws.newNonce serverNonce) (pad draws.clientPadding
      (TlObject.clientDHInnerData (clientInner draws serverNonce inner)).writeBoxed) =
        .ok encryptedData)
    (h : (exchange draws.dhGen (.setClientDHParams
      { nonce := draws.nonce, serverNonce, encryptedData })).exec s = (.ok (.dhGenOk dhGen), s'))
    (hnonce : dhGen.nonce = draws.nonce) (hserverNonce : dhGen.serverNonce = serverNonce)
    (hhash : dhGen.newNonceHash1 = newNonceHash1 (sharedSecret draws inner)) :
    (setClientDh draws serverNonce inner).exec s = (.ok (), s') := by
  unfold setClientDh
  refine (exec_bind_of_ok (exec_ofCrypto_of_ok hencrypt s)).trans ((exec_bind_of_ok h).trans ?_)
  dsimp only
  rw [if_neg (by simp [hnonce, hserverNonce]), if_neg (not_not.mpr hhash.symm)]
  rfl

end Stages

/-! ### The server's answers -/

/-- The pair of primes that a search through these draws ends with. -/
def Finds (primes : List PrimeDraw) (p q : Nat) : Prop :=
  ∃ rest, generateRandomPrime primes = some (p, rest) ∧ generateOtherPrime p rest = some q

/-- The server's answer to the first request. -/
def offer (statics : Statics) (draws : Server.Draws) (nonce : Int128) (p q : Nat) : ResPQ where
  nonce
  serverNonce := ⟨draws.serverNonce⟩
  pq := toBytesBe (p * q)
  p := toBytesBe p
  q := toBytesBe q
  serverPublicKeyFingerprints := [computeKeyFingerprint (ed25519VerifyingKey statics.signingKey)]

omit [Platform] in
theorem lt_of_finds {primes : List PrimeDraw} (h : Finds primes p q) : p < 2 ^ 32 ∧ q < 2 ^ 32 := by
  obtain ⟨rest, hp, hq⟩ := h
  exact ⟨generateRandomPrime_lt hp, generateOtherPrime_lt hq⟩

theorem exec_handleReqPq_of_finds {statics : Statics} {draws : Server.Draws}
    (h : Finds draws.primes p q) (req : ReqPq) (w : World) :
    (handleReqPq statics draws req).exec w =
      (.ok (some (TlObject.resPQ (offer statics draws req.nonce p q)).writeBoxed), w) := by
  obtain ⟨rest, hp, hq⟩ := h
  unfold handleReqPq
  rw [hp]
  change (orSearching (generateOtherPrime p rest) >>= _ : ServerM (Option Bytes)).exec w = _
  rw [hq]
  rfl

/-- An offer of two four-byte primes. -/
structure Short (resPq : ResPQ) : Prop where
  pq : resPq.pq.length ≤ 8
  p : resPq.p.length ≤ 4
  q : resPq.q.length ≤ 4

omit [Platform] in
theorem length_pqInner (draws : AuthDraws) {resPq : ResPQ} (h : Short resPq) :
    71 ≤ (TlObject.pqInnerData (pqInner draws resPq)).writeBoxed.length ∧
      (TlObject.pqInnerData (pqInner draws resPq)).writeBoxed.length ≤ 87 := by
  have hpq := tlSize_of_le (k := 2) h.pq (by decide)
  have hp := tlSize_of_le (k := 1) h.p (by decide)
  have hq := tlSize_of_le (k := 1) h.q (by decide)
  have hpq' := tlSize_pos resPq.pq.length
  have hp' := tlSize_pos resPq.p.length
  have hq' := tlSize_pos resPq.q.length
  rw [length_pqInnerData]
  dsimp only [pqInner]
  omega

omit [Platform] in
theorem receivable_dhRequest {resPq : ResPQ} (h : Short resPq) (fingerprint : Int64)
    {encryptedData : Bytes} (hlow : 99 ≤ encryptedData.length)
    (hhigh : encryptedData.length ≤ 2 ^ 12) :
    Receivable (TlObject.reqDHParams
      (dhRequest draws resPq fingerprint encryptedData)).writeBoxed := by
  have hp := tlSize_of_le (k := 1) h.p (by decide)
  have hq := tlSize_of_le (k := 1) h.q (by decide)
  have henvelope : encryptedData.length ≤ tlSize encryptedData.length ∧
      tlSize encryptedData.length ≤ encryptedData.length + 7 := by
    refine ⟨?_, tlSize_le _⟩
    unfold tlSize
    split <;> omega
  rw [receivable_iff, length_reqDHParams]
  dsimp only [dhRequest]
  unfold maxFrameSize
  omega

theorem short_offer {primes : List PrimeDraw} (h : Finds primes p q) (statics : Statics)
    (serverDraws : Server.Draws) (nonce : Int128) :
      Short (offer statics serverDraws nonce p q) := by
  obtain ⟨hp, hq⟩ := lt_of_finds h
  exact ⟨length_toBytesBe_mul_le hp hq, length_toBytesBe_le hp, length_toBytesBe_le hq⟩

/-- The server's part of the key, under these nonces. -/
def serverPart (statics : Statics) (draws : Server.Draws) (nonce serverNonce : Int128) :
    ServerDHInnerData :=
  answerOf statics draws
    { nonce, serverNonce, p := [], q := [], publicKeyFingerprint := 0, encryptedData := [] }

/-- The answer to the second request, once the server's part is encrypted. -/
def signedAnswer (statics : Statics) (nonce serverNonce : Int128) (encryptedAnswer : Bytes) :
    ServerDHParamsOk where
  nonce
  serverNonce
  encryptedAnswer
  signature := (ed25519Sign statics.signingKey
    (signedData nonce serverNonce encryptedAnswer)).toList

/-- A prime that takes 256 bytes. -/
structure Wide (n : Nat) : Prop where
  prime : n.Prime
  size : bitLength n = 2048

omit [Platform] in
theorem Wide.lt {n : Nat} (h : Wide n) : n < 2 ^ 2048 := h.size ▸ lt_two_pow_bitLength n

omit [Platform] in
theorem length_serverPart {statics : Statics} (h : Wide statics.dhPrime) (draws : Server.Draws)
    (nonce serverNonce : Int128) : (TlObject.serverDHInnerData
      (serverPart statics draws nonce serverNonce)).writeBoxed.length ≤ maxFrameSize := by
  have hpadded : (pad draws.padding (TlObject.serverDHInnerData
    (serverPart statics draws nonce serverNonce)).writeBoxed).length ≤ 2048 :=
      length_pad_answerOf h.prime.pos h.lt draws _
  rw [length_pad] at hpadded
  unfold maxFrameSize
  omega

theorem exec_handleReqDhParams_of_asks (hgcm : Inverts) (htag : Expands) {statics : Statics}
    (hwide : Wide statics.dhPrime) {req : ReqDHParams} {inner : PqInnerData} (h : Asks req inner)
    (draws : Server.Draws) (w : World) : ∃ encryptedAnswer,
    Contains (decryptInner (tmpKey inner.newNonce req.serverNonce) encryptedAnswer)
      (.serverDHInnerData (serverPart statics draws req.nonce req.serverNonce)) ∧
    (handleReqDhParams statics draws req).exec w =
      (.ok (some (TlObject.serverDHParamsOk
        (signedAnswer statics req.nonce req.serverNonce encryptedAnswer)).writeBoxed),
      w.setHandshake (handshakeKey req.nonce req.serverNonce)
        (some (handshakeOf statics draws inner))) := by
  obtain ⟨encryptedAnswer, hencrypt, hcontains, -⟩ := exists_contains hgcm htag
    (tmpKey inner.newNonce req.serverNonce) draws.padding
    (length_serverPart hwide draws req.nonce req.serverNonce)
  refine ⟨encryptedAnswer, hcontains, ?_⟩
  rcases handleReqDhParams_cases statics draws req w with ⟨e, -, hnot⟩ | ⟨found, hfound, heq⟩
  · exact absurd h (hnot inner)
  · cases h.opened.unique hfound.opened
    have hanswer : answerOf statics draws req =
      serverPart statics draws req.nonce req.serverNonce := rfl
    rw [heq]
    unfold answer
    rw [hanswer, hencrypt]
    rfl

omit [Platform] in
/-- Both sides raise the other's value to their own exponent. -/
theorem secretOf_eq (statics : Statics) (serverDraws : Server.Draws) (serverNonce : Int128)
    (asked : PqInnerData) : secretOf statics (handshakeOf statics serverDraws asked)
      (clientInner draws serverNonce (serverPart statics serverDraws draws.nonce serverNonce)) =
    sharedSecret draws (serverPart statics serverDraws draws.nonce serverNonce) := by
  have hprime : fromBytesBe (serverPart statics serverDraws draws.nonce serverNonce).dhPrime =
    statics.dhPrime := fromBytesBe_toBytesBe _
  have hg : generator (serverPart statics serverDraws draws.nonce serverNonce) = dhG := rfl
  have hgA : fromBytesBe (serverPart statics serverDraws draws.nonce serverNonce).gA = _ :=
    fromBytesBe_toBytesBe _
  unfold secretOf sharedSecret clientInner handshakeOf
  rw [hprime, hg, hgA]
  dsimp only
  rw [fromBytesBe_toBytesBe, fromBytesBe_toBytesBe]
  exact computeSharedSecret_comm _ _ _ _

/-- The session a finished exchange stores, with the key that the client installs. -/
def Agreed (s : Session Link) (w : World) : Prop := ∃ id session,
  s.authKeyId = some id ∧ w.state.cache id = some session ∧ w.row id = some (session.toRow id) ∧
    s.authKey = some session.authKey ∧
    s.crypto.map SessionCrypto.keys = some session.crypto.keys

theorem agreed_install (s : Session Link) (w : World) (conn : ConnId) (nonce serverNonce : Int128)
    (newNonce : Int256) (secret : Nat) (key : Bytes) : Agreed (s.install nonce serverNonce secret)
      ((w.create conn (computeAuthKeyId secret)
        (newSession secret nonce serverNonce newNonce)).setHandshake key none) := by
  let session := newSession secret nonce serverNonce newNonce w.state.nextRecent
  refine ⟨computeAuthKeyId secret, session, rfl, World.create_cache _ _ _ _ _,
    World.create_row _ _ _ _ _, rfl, rfl⟩

omit [Platform] in
theorem length_clientInner_le {publicValue : Nat} (h : publicValue < 2 ^ 2048)
    {inner : ClientDHInnerData} (hinner : inner.gB = toBytesBe publicValue) :
    (TlObject.clientDHInnerData inner).writeBoxed.length ≤ 307 := by
  have hbytes := length_toBytesBe_le h
  have hsize := tlSize_le inner.gB.length
  rw [hinner] at hsize
  rw [length_clientDHInnerData, hinner]
  omega

omit [Platform] in
theorem receivable_setClientDHParams (nonce serverNonce : Int128) {encryptedData : Bytes}
    (h : encryptedData.length ≤ 2 ^ 12) : Receivable (TlObject.setClientDHParams
      { nonce, serverNonce, encryptedData }).writeBoxed := by
  have hle := tlSize_le encryptedData.length
  have hmod := tlSize_mod encryptedData.length
  rw [receivable_iff, length_setClientDHParams]
  dsimp only
  unfold maxFrameSize
  omega

/-! ### The client's checks of these answers -/

/-- The client accepts two primes that it is offered by the holder of the key it knows. -/
theorem exec_checkPq (hp : p.Prime) (hq : q.Prime) (statics : Statics) (serverDraws : Server.Draws)
    (nonce : Int128) (s : Session Link) : (checkPq (ed25519VerifyingKey statics.signingKey) draws
      (offer statics serverDraws nonce p q)).exec s = (.ok (), s) := by
  unfold checkPq offer
  simp [isPrime_of_prime hp, isPrime_of_prime hq]

theorem exec_checkSignature (hsign : Verifies) (statics : Statics) (nonce serverNonce : Int128)
    (encryptedAnswer : Bytes) (s : Session Link) :
    (checkSignature (ed25519VerifyingKey statics.signingKey)
      (signedAnswer statics nonce serverNonce encryptedAnswer)).exec s = (.ok (), s) := by
  let signature := ed25519Sign statics.signingKey (signedData nonce serverNonce encryptedAnswer)
  have hslice : slice signature.toList 0 64 = signature := by
    have heq := slice_append (x := []) (y := []) signature
    rwa [List.append_nil] at heq
  have hverify : verify (ed25519VerifyingKey statics.signingKey)
      (writeBytes nonce ++ (writeBytes serverNonce ++ writeBytes encryptedAnswer))
      signature.toList = .ok () := by
    unfold verify
    rw [if_neg (not_not.mpr signature.length_toList), hslice]
    exact if_pos (hsign _ _)
  unfold checkSignature signedAnswer
  dsimp only
  rw [hverify]
  rfl

omit [Platform] in
theorem exec_checkDh {statics : Statics} (hwide : Wide statics.dhPrime)
    (serverDraws : Server.Draws) (nonce serverNonce : Int128) (s : Session Link) :
    (checkDh draws (serverPart statics serverDraws nonce serverNonce)).exec s = (.ok (), s) := by
  have hprime : fromBytesBe (serverPart statics serverDraws nonce serverNonce).dhPrime =
    statics.dhPrime := fromBytesBe_toBytesBe _
  have hg : generator (serverPart statics serverDraws nonce serverNonce) = 2 := rfl
  have hlarge : 4 ≤ statics.dhPrime := by
    by_contra hsmall
    have hbits := bitLength_le (k := 2) (n := statics.dhPrime) (by omega)
    have hsize := hwide.size
    omega
  have hvalid : validateDhParams draws.dhBases statics.dhPrime 2 = .ok () := by
    unfold validateDhParams
    rw [isPrime_of_prime hwide.prime, hwide.size]
    rw [if_neg (by decide), if_neg (by decide), if_neg (by omega)]
  unfold checkDh
  dsimp only
  rw [hprime, hg, hvalid]
  dsimp only
  rw [if_neg (by omega)]
  rfl

/-! ### Three exchanges -/

theorem exec_requestPq (draws : AuthDraws) {s : Session Link} (hs : Idle s)
    (h : Finds (s.transport.draws s.transport.turn).handler.primes p q) :
    ∃ s', Continues s s' ∧ (requestPq draws).exec s =
      (.ok (offer s.transport.statics (s.transport.draws s.transport.turn).handler draws.nonce p q),
        s') := by
  let request := TlObject.reqPq { nonce := draws.nonce }
  let handler := (s.transport.draws s.transport.turn).handler
  have hanswers : Answers s.transport request
      (.resPQ (offer s.transport.statics handler draws.nonce p q)) _ :=
    exec_handleReqPq_of_finds h _ _
  have hrequest : Receivable request.writeBoxed := by
    rw [receivable_iff, length_reqPq]
    decide
  have hreply : Receivable
      (TlObject.resPQ (offer s.transport.statics handler draws.nonce p q)).writeBoxed := by
    have hlen := length_handleReqPq hanswers
    rw [receivable_iff]
    unfold maxFrameSize
    omega
  have hexchange := exec_exchange hs draws.pq hrequest hreply hanswers
    [.dispatched s.transport.conn none request] rfl rfl
  exact ⟨_, hs.continues (hs.world.log _) _, requestPq_of_exchange hexchange rfl⟩

/-- A request for parameters stores what the client has drawn and comes back with the server's
part of the key. -/
theorem exec_requestDhParams (draws : AuthDraws) (hgcm : Inverts) (htag : Expands)
    {s : Session Link} (hs : Idle s)
    (hwide : Wide s.transport.statics.dhPrime) {resPq : ResPQ} (hshort : Short resPq)
    {fingerprint : Int64}
    (hfingerprint : resPq.serverPublicKeyFingerprints.head? = some fingerprint) :
    let handler := (s.transport.draws s.transport.turn).handler
    ∃ s' encryptedAnswer, Continues s s' ∧
      s'.transport.world.state.handshakes (handshakeKey draws.nonce resPq.serverNonce) =
        some (handshakeOf s.transport.statics handler (pqInner draws resPq)) ∧
      Contains (decryptInner (tmpKey draws.newNonce resPq.serverNonce) encryptedAnswer)
        (.serverDHInnerData
          (serverPart s.transport.statics handler draws.nonce resPq.serverNonce)) ∧
      (requestDhParams draws resPq).exec s = (.ok (signedAnswer s.transport.statics draws.nonce
        resPq.serverNonce encryptedAnswer), s') := by
  intro handler
  obtain ⟨hlow, hhigh⟩ := length_pqInner draws hshort
  obtain ⟨encryptedData, hencrypt, hcontains, hlow', hhigh'⟩ := exists_contains hgcm htag
    (tmpKeyFromNonce draws.nonce resPq.serverNonce) draws.pqPadding
    (o := .pqInnerData (pqInner draws resPq)) (by unfold maxFrameSize; omega)
  let req := dhRequest draws resPq fingerprint encryptedData
  have hrequest : Receivable (TlObject.reqDHParams req).writeBoxed :=
    receivable_dhRequest hshort fingerprint (by omega) (by omega)
  have hasks : Asks req (pqInner draws resPq) := ⟨hcontains, rfl, rfl⟩
  obtain ⟨encryptedAnswer, hopen, hhandle⟩ := exec_handleReqDhParams_of_asks hgcm htag hwide hasks
    handler (s.transport.world.log [.dispatched s.transport.conn none (.reqDHParams req)])
  have hanswers : Answers s.transport (.reqDHParams req) (.serverDHParamsOk
      (signedAnswer s.transport.statics draws.nonce resPq.serverNonce encryptedAnswer)) _ := hhandle
  have hreply : Receivable (TlObject.serverDHParamsOk
      (signedAnswer s.transport.statics draws.nonce resPq.serverNonce
        encryptedAnswer)).writeBoxed := by
    obtain ⟨len, hlen, hsize⟩ := length_handleReqDhParams htag hwide.prime.pos hwide.lt hanswers
    have hle := tlSize_le len
    have hmod := tlSize_mod len
    rw [receivable_iff, hsize]
    unfold maxFrameSize
    omega
  have hexchange := exec_exchange hs draws.dhParams hrequest hreply hanswers
    [.dispatched s.transport.conn none (.reqDHParams req)] rfl rfl
  have hcontinues := hs.continues (w := (s.transport.world.log
    [.dispatched s.transport.conn none (.reqDHParams req)]).setHandshake
      (handshakeKey draws.nonce resPq.serverNonce)
      (some (handshakeOf s.transport.statics handler (pqInner draws resPq))))
    ⟨hs.world.row, hs.world.entry⟩
  exact ⟨_, encryptedAnswer, hcontinues _, Function.update_self _ _ _, hopen,
    requestDhParams_of_exchange hfingerprint hencrypt hexchange rfl rfl⟩

/-- After the request that finishes an exchange: the server has stored the session and said so. -/
def Client.Session.finished (s : Session Link) (draws : AuthDraws) (serverNonce : Int128)
    (req : SetClientDHParams) (secret : Nat) : Session Link :=
  let w := s.transport.world.log [.dispatched s.transport.conn none (.setClientDHParams req)]
  s.answered ((((w.clean (s.transport.draws s.transport.turn).handler.instant).create
    s.transport.conn (computeAuthKeyId secret)
    (newSession secret draws.nonce serverNonce draws.newNonce)).setHandshake
      (handshakeKey draws.nonce serverNonce) none)) (genOk req secret).writeBoxed

/-- The request that finishes an exchange is answered. -/
theorem exec_setClientDh_finished (hgcm : Inverts) (htag : Expands) {s : Session Link} (hs : Idle s)
    (hwide : Wide s.transport.statics.dhPrime) {asked : Server.Draws} {serverNonce : Int128}
    {resPq : ResPQ}
    (hentry : (s.transport.world.clean
      (s.transport.draws s.transport.turn).handler.instant).state.handshakes
        (handshakeKey draws.nonce serverNonce) =
      some (handshakeOf s.transport.statics asked (pqInner draws resPq)))
    (hvalid : validatePublicValue (computePublicKey dhG (generatePrivateKey draws.privateKey %
      s.transport.statics.dhPrime) s.transport.statics.dhPrime) s.transport.statics.dhPrime =
        .ok ()) :
    let inner := serverPart s.transport.statics asked draws.nonce serverNonce
    ∃ req, (setClientDh draws serverNonce inner).exec s =
      (.ok (), s.finished draws serverNonce req (sharedSecret draws inner)) := by
  intro inner
  have hprime : fromBytesBe inner.dhPrime = s.transport.statics.dhPrime := fromBytesBe_toBytesBe _
  have hgB : (clientInner draws serverNonce inner).gB = toBytesBe (computePublicKey dhG
      (generatePrivateKey draws.privateKey % s.transport.statics.dhPrime)
      s.transport.statics.dhPrime) := by
    unfold clientInner exponent
    rw [hprime]
    rfl
  have hlen := length_clientInner_le (by
    rw [computePublicKey, modPow_eq]
    exact Nat.lt_trans (Nat.mod_lt _ hwide.prime.pos) hwide.lt) hgB
  obtain ⟨encryptedData, hencrypt, hcontains, -, hlength⟩ := exists_contains hgcm htag
    (tmpKey draws.newNonce serverNonce) draws.clientPadding
    (o := .clientDHInnerData (clientInner draws serverNonce inner)) (by unfold maxFrameSize; omega)
  let req : SetClientDHParams := { nonce := draws.nonce, serverNonce, encryptedData }
  have hrequest : Receivable (TlObject.setClientDHParams req).writeBoxed :=
    receivable_setClientDHParams draws.nonce serverNonce (by omega)
  have hagrees : Agrees s.transport.statics
      (handshakeOf s.transport.statics asked (pqInner draws resPq)) req
      (clientInner draws serverNonce inner) := by
    refine ⟨hcontains, rfl, rfl, ?_⟩
    rw [hgB, fromBytesBe_toBytesBe]
    exact validatePublicValue_ok.mp hvalid
  have hhandle := exec_handleSetClientDhParams_of_agrees
    (w := s.transport.world.log [.dispatched s.transport.conn none (.setClientDHParams req)])
    (s.transport.draws s.transport.turn).handler s.transport.conn hagrees hentry
  rw [secretOf_eq] at hhandle
  have hanswers : Answers s.transport (.setClientDHParams req)
    (genOk req (sharedSecret draws inner)) _ := hhandle
  have hreply : Receivable (genOk req (sharedSecret draws inner)).writeBoxed := by
    unfold genOk
    rw [receivable_iff, length_dhGenOk]
    decide
  have hexchange := exec_exchange hs draws.dhGen hrequest hreply hanswers
    [_, _, .dispatched s.transport.conn none (.setClientDHParams req)]
    (World.create_trace _ _ _ _ _) rfl
  exact ⟨req, setClientDh_of_exchange hencrypt hexchange rfl rfl rfl⟩

/-- The request that finishes an exchange creates the session for which the client has the key. -/
theorem exec_setClientDh (hgcm : Inverts) (htag : Expands) {s : Session Link} (hs : Idle s)
    (hwide : Wide s.transport.statics.dhPrime) {asked : Server.Draws} {serverNonce : Int128}
    {resPq : ResPQ}
    (hentry : (s.transport.world.clean
      (s.transport.draws s.transport.turn).handler.instant).state.handshakes
        (handshakeKey draws.nonce serverNonce) =
      some (handshakeOf s.transport.statics asked (pqInner draws resPq)))
    (hvalid : validatePublicValue (computePublicKey dhG (generatePrivateKey draws.privateKey %
      s.transport.statics.dhPrime) s.transport.statics.dhPrime) s.transport.statics.dhPrime =
        .ok ()) :
    let inner := serverPart s.transport.statics asked draws.nonce serverNonce
    ∃ s', Agreed (s'.install draws.nonce serverNonce (sharedSecret draws inner))
      s'.transport.world ∧
      (setClientDh draws serverNonce inner).exec s = (.ok (), s') := by
  intro inner
  obtain ⟨req, hexec⟩ := exec_setClientDh_finished hgcm htag hs hwide hentry hvalid
  exact ⟨_, agreed_install _ _ s.transport.conn draws.nonce serverNonce draws.newNonce
    (sharedSecret draws inner) (handshakeKey draws.nonce serverNonce), hexec⟩

/-! ### The whole exchange -/

/-- A client of this key before a server without sessions; two primes will be offered, and the
client's public value will be in range. -/
structure Begins (publicKey : Vector UInt8 32) (draws : AuthDraws) (l : Link)
    (p q : Nat) : Prop where
  sessionless : Sessionless l.world
  inbox : l.inbox = []
  known : publicKey = ed25519VerifyingKey l.statics.signingKey
  wide : Wide l.statics.dhPrime
  finds : Finds (l.draws l.turn).handler.primes p q
  first : p.Prime
  second : q.Prime
  valid : validatePublicValue (computePublicKey dhG (generatePrivateKey draws.privateKey %
    l.statics.dhPrime) l.statics.dhPrime) l.statics.dhPrime = .ok ()

/-- The last request comes before the entry of the one before it expires. -/
def Prompt (l : Link) : Prop :=
  (l.draws (l.turn + 2)).handler.instant - (l.draws (l.turn + 1)).handler.instant < handshakeTimeout

omit [Platform] in
theorem clean_of_recent {key : Bytes} {entry : Handshake} (h : w.state.handshakes key = some entry)
    {now : Nat} (hrecent : now - entry.time < handshakeTimeout) :
    (w.clean now).state.handshakes key = some entry := by
  change (w.state.handshakes key).filter _ = _
  rw [h, Option.filter_some, if_pos (decide_eq_true hrecent)]

/-- The client has checked and read the server's part, for which the store has the entry. -/
theorem exec_dhAnswer (hgcm : Inverts) (htag : Expands) (hsign : Verifies)
    (h : Begins publicKey draws l p q) :
    let serverNonce : Int128 := ⟨(l.draws l.turn).handler.serverNonce⟩
    let asked := (l.draws (l.turn + 1)).handler
    let resPq := offer l.statics (l.draws l.turn).handler draws.nonce p q
    ∃ s, Idle s ∧ s.transport.statics = l.statics ∧ s.transport.draws = l.draws ∧
      s.transport.turn = l.turn + 2 ∧
      s.transport.world.state.handshakes (handshakeKey draws.nonce serverNonce) =
        some (handshakeOf l.statics asked (pqInner draws resPq)) ∧
      (dhAnswer publicKey draws).exec (Session.fromTransport l) =
        (.ok (serverNonce, serverPart l.statics asked draws.nonce serverNonce), s) := by
  intro serverNonce asked resPq
  have hidle : Idle (Session.fromTransport l) := ⟨rfl, h.inbox, h.sessionless⟩
  obtain ⟨s, hs, hexec⟩ := exec_requestPq draws hidle h.finds
  have hpq : (requestPq draws).exec (Session.fromTransport l) =
    (.ok (offer l.statics (l.draws l.turn).handler draws.nonce p q), s) := hexec
  have hstatics : s.transport.statics = l.statics := hs.statics
  have hdraws : s.transport.draws = l.draws := hs.draws
  have hturn : s.transport.turn = l.turn + 1 := hs.turn
  have hwide : Wide s.transport.statics.dhPrime := hstatics ▸ h.wide
  obtain ⟨s', encryptedAnswer, hs', hentry, hcontains, hparams⟩ := exec_requestDhParams draws
    hgcm htag hs.idle hwide (short_offer h.finds l.statics (l.draws l.turn).handler draws.nonce) rfl
  rw [hstatics, hdraws, hturn] at hentry hcontains
  rw [hstatics] at hparams
  refine ⟨s', hs'.idle, hs'.statics.trans hstatics, hs'.draws.trans hdraws,
    hs'.turn.trans (congrArg (· + 1) hturn), hentry, ?_⟩
  unfold dhAnswer
  rw [h.known, exec_bind_of_ok hpq, exec_bind_of_ok (exec_checkPq h.first h.second _ _ _ _),
    exec_bind_of_ok hparams, exec_bind_of_ok (exec_checkSignature hsign _ _ _ _ _)]
  refine (exec_bind_of_ok (exec_openAnswer hcontains rfl rfl _)).trans ?_
  rw [exec_bind_of_ok (exec_checkDh h.wide _ _ _ _)]
  rfl

/-- If the last request comes in time, the client ends with the key of the session that the server
has stored. -/
theorem authenticate_agrees (hgcm : Inverts) (htag : Expands) (hsign : Verifies)
    (h : Begins publicKey draws l p q) (hprompt : Prompt l) : ∃ s,
      (authenticate publicKey draws).exec (Session.fromTransport l) = (.ok (), s) ∧
        Agreed s s.transport.world := by
  obtain ⟨s, hidle, hstatics, hdraws, hturn, hentry, hanswer⟩ := exec_dhAnswer hgcm htag hsign h
  rw [← hstatics] at hentry hanswer
  have hvalid := h.valid
  rw [← hstatics] at hvalid
  have hrecent : (s.transport.draws s.transport.turn).handler.instant -
      (l.draws (l.turn + 1)).handler.instant < handshakeTimeout := by
    rw [hdraws, hturn]
    exact hprompt
  have hwide : Wide s.transport.statics.dhPrime := hstatics ▸ h.wide
  obtain ⟨s', hagreed, hset⟩ := exec_setClientDh hgcm htag hidle hwide
    (clean_of_recent hentry hrecent) hvalid
  refine ⟨_, ?_, hagreed⟩
  unfold authenticate
  rw [exec_bind_of_ok hanswer]
  dsimp only
  rw [exec_bind_of_ok hset]
  rfl

end Agreement

/-! ### An exchange that is completed in time, and one that is not -/

namespace Trial

theorem prime_dhPrime : dhPrime.Prime := by
  refine prime_of_modPow (by decide +kernel) 5 (by decide +kernel) fun q hq hdvd => ?_
  have hsplit : dhPrime - 1 = 3 * 1087 * 2 ^ 2036 := by decide +kernel
  have hcases : q = 3 ∨ q = 1087 ∨ q = 2 := by
    rw [hsplit] at hdvd
    rcases hq.dvd_mul.mp hdvd with hodd | htwo
    · rcases hq.dvd_mul.mp hodd with hthree | hlarge
      · exact Or.inl ((Nat.prime_dvd_prime_iff_eq hq Nat.prime_three).mp hthree)
      · exact Or.inr (Or.inl ((Nat.prime_dvd_prime_iff_eq hq (by norm_num)).mp hlarge))
    · exact Or.inr (Or.inr
        ((Nat.prime_dvd_prime_iff_eq hq Nat.prime_two).mp (hq.dvd_of_dvd_pow htwo)))
  rcases hcases with rfl | rfl | rfl
  · decide +kernel
  · decide +kernel
  · decide +kernel

/-- The link on which the last request is handled a minute after the one before it. -/
def lateLink : Link :=
  { link with draws := fun turn =>
      { frameDraws with handler := { frameDraws.handler with instant := turn / 2 * 60000 } } }

theorem expands : @Expands platform := by
  rintro key nonce data ciphertext ⟨⟩
  rw [List.length_append, List.length_replicate]

theorem finds_frameDraws : Finds frameDraws.handler.primes 5 7 := ⟨_, rfl, rfl⟩

theorem wide_dhPrime : Wide dhPrime := ⟨prime_dhPrime, by decide +kernel⟩

/-- The client's public value is four. -/
theorem valid_four : validatePublicValue
    (computePublicKey dhG (generatePrivateKey (authDraws 2).privateKey % dhPrime) dhPrime) dhPrime =
      .ok () := by decide +kernel

theorem begins (draws : Nat → FrameDraws)
    (h : (draws 0).handler.primes = frameDraws.handler.primes) :
    @Begins platform key (authDraws 2) { link with draws } 5 7 := by
  let _ := platform
  exact ⟨⟨fun _ => rfl, fun _ => rfl⟩, rfl, rfl, wide_dhPrime, h ▸ finds_frameDraws,
    by norm_num, by norm_num, valid_four⟩

end Trial

theorem authenticate_agrees_trial : letI := Trial.platform
    ∃ s, (authenticate Trial.key (Trial.authDraws 2)).exec (Session.fromTransport Trial.link) =
      (.ok (), s) ∧ Agreed s s.transport.world :=
  @authenticate_agrees Trial.platform 5 7 (Trial.authDraws 2) Trial.key Trial.link inverts_constant
    Trial.expands (fun _ _ => rfl) (Trial.begins _ rfl) (show 0 - 0 < 60000 by decide)

/-- After a minute the server has forgotten the exchange, and ends the connection. -/
theorem not_authenticate_agrees : ¬ ∀ (_ : Platform) (publicKey : Vector UInt8 32)
    (draws : AuthDraws) (l : Link) (p q : Nat), Inverts → Expands → Verifies →
    Begins publicKey draws l p q → ∃ s,
      (authenticate publicKey draws).exec (Session.fromTransport l) = (.ok (), s) ∧
        Agreed s s.transport.world := by
  intro h
  obtain ⟨s, hok, -⟩ := h Trial.platform Trial.key (Trial.authDraws 2) Trial.lateLink 5 7
    inverts_constant Trial.expands (fun _ _ => rfl) (Trial.begins _ rfl)
  have hfails : letI := Trial.platform
      ((authenticate Trial.key (Trial.authDraws 2)).exec
        (Session.fromTransport Trial.lateLink)).1.isOk = false := by decide +kernel
  rw [hok] at hfails
  cases hfails

end KoSta
