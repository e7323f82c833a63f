import KoSta.Client.DhChecks
import KoSta.Client.Session

/-! The client's side of the key exchange. -/
namespace KoSta.Client
open Lib Tl Crypto Transport

/-- The clock readings and the random bytes of one request and its reply. -/
structure ExchangeDraw where
  sendNow : Nat
  random : Vector UInt8 12
  recvNow : Nat

/-- Everything random or timed that one call of `authenticate` reads. -/
structure AuthDraws where
  nonce : Int128
  newNonce : Int256
  pBases : Nat → Nat
  qBases : Nat → Nat
  dhBases : Nat → Nat
  pqPadding : PadDraw
  clientPadding : PadDraw
  privateKey : Vector UInt8 256
  pq : ExchangeDraw
  dhParams : ExchangeDraw
  dhGen : ExchangeDraw

variable {T : Type} [Platform]

def ofCrypto {α : Type} (x : Except CryptoError α) : ClientM T α :=
  match x with
  | .ok a => pure a
  | .error e => throw (.error (.crypto e))

omit [Platform] in
theorem exec_ofCrypto_of_ok {α : Type} {x : Except CryptoError α} {a : α} (h : x = .ok a)
    (s : Session T) : (ofCrypto x).exec s = (.ok a, s) := by
  rw [h]
  rfl

section Stages

variable [FrameTransport T]

def exchange (draw : ExchangeDraw) (request : TlObject) : ClientM T TlObject := do
  sendTl draw.sendNow draw.random request
  recvTl draw.recvNow

def requestPq (draws : AuthDraws) : ClientM T ResPQ := do
  match ← exchange draws.pq (.reqPq { nonce := draws.nonce }) with
  | .resPQ resPq =>
    if resPq.nonce ≠ draws.nonce then protocolError "Nonce mismatch" else return resPq
  | _ => protocolError "Expected ResPQ"

omit [FrameTransport T] in
def checkPq (publicKey : Vector UInt8 32) (draws : AuthDraws) (resPq : ResPQ) : ClientM T Unit :=
  if fromBytesBe resPq.p * fromBytesBe resPq.q ≠ fromBytesBe resPq.pq then
    protocolError "p*q != pq"
  else if !isPrime draws.pBases (fromBytesBe resPq.p) ∨
      !isPrime draws.qBases (fromBytesBe resPq.q) then
    protocolError "p or q not prime"
  else if !resPq.serverPublicKeyFingerprints.contains (computeKeyFingerprint publicKey) then
    protocolError "Server public key fingerprint mismatch"
  else
    pure ()

def requestDhParams (draws : AuthDraws) (resPq : ResPQ) : ClientM T ServerDHParamsOk := do
  let inner : PqInnerData :=
    { pq := resPq.pq, p := resPq.p, q := resPq.q, nonce := draws.nonce
      serverNonce := resPq.serverNonce, newNonce := draws.newNonce }
  let padded := pad draws.pqPadding (TlObject.pqInnerData inner).writeBoxed
  let encryptedData ← ofCrypto
    (encryptInner (tmpKeyFromNonce draws.nonce resPq.serverNonce) padded)
  let publicKeyFingerprint ← orPanic resPq.serverPublicKeyFingerprints.head?
  let reply ← exchange draws.dhParams (.reqDHParams
    { nonce := draws.nonce, serverNonce := resPq.serverNonce, p := resPq.p, q := resPq.q
      publicKeyFingerprint, encryptedData })
  match reply with
  | .serverDHParamsOk dhParams =>
    if dhParams.nonce ≠ draws.nonce ∨ dhParams.serverNonce ≠ resPq.serverNonce then
      protocolError "DH params nonce mismatch"
    else
      return dhParams
  | _ => protocolError "Expected ServerDHParamsOk"

/-- `ServerKeypair::verify`: a signature of any other length is malformed. -/
def verify (publicKey : Vector UInt8 32) (data sig : Bytes) : Except String Unit :=
  if sig.length ≠ 64 then
    .error "Invalid signature format"
  else if ed25519Verify publicKey data (slice sig 0 64) then
    .ok ()
  else
    .error "Signature verification failed"

omit [FrameTransport T] in
/-- The error's text is the `Debug` form of the one inside it. -/
def checkSignature (publicKey : Vector UInt8 32) (dhParams : ServerDHParamsOk) :
    ClientM T Unit :=
  let data := writeBytes dhParams.nonce ++ (writeBytes dhParams.serverNonce ++
    writeBytes dhParams.encryptedAnswer)
  match verify publicKey data dhParams.signature with
  | .ok () => pure ()
  | .error e => protocolError ("Signature verification failed: Protocol(\"" ++ e ++ "\")")

omit [FrameTransport T] in
def openAnswer (draws : AuthDraws) (serverNonce : Int128) (encryptedAnswer : Bytes) :
    ClientM T ServerDHInnerData := do
  let decrypted ← ofCrypto (decryptInner (tmpKey draws.newNonce serverNonce) encryptedAnswer)
  let (obj, _) ← readFrom TlObject.readBoxed decrypted
  match obj with
  | .serverDHInnerData inner =>
    if inner.nonce ≠ draws.nonce ∨ inner.serverNonce ≠ serverNonce then
      protocolError "Inner nonce mismatch"
    else
      return inner
  | _ => protocolError "Expected ServerDHInnerData"

/-- The generator in the answer, `as u32`. -/
def generator (inner : ServerDHInnerData) : Nat := inner.g.toUInt32.toNat

omit [Platform] [FrameTransport T] in
/-- The range of the generator is checked twice, that of the server's public value never. -/
def checkDh (draws : AuthDraws) (inner : ServerDHInnerData) : ClientM T Unit :=
  let dhPrime := fromBytesBe inner.dhPrime
  match validateDhParams draws.dhBases dhPrime (generator inner) with
  | .error e => protocolError e
  | .ok () =>
    if generator inner ≤ 1 ∨ generator inner ≥ dhPrime - 1 then
      protocolError "g is out of range"
    else
      pure ()

/-- The call up to the server's part of the key, with every check that is made on it. -/
def dhAnswer (publicKey : Vector UInt8 32) (draws : AuthDraws) :
    ClientM T (Int128 × ServerDHInnerData) := do
  let resPq ← requestPq draws
  checkPq publicKey draws resPq
  let dhParams ← requestDhParams draws resPq
  checkSignature publicKey dhParams
  let inner ← openAnswer draws resPq.serverNonce dhParams.encryptedAnswer
  checkDh draws inner
  return (resPq.serverNonce, inner)

/-- The private exponent `b`. -/
def exponent (draws : AuthDraws) (inner : ServerDHInnerData) : Nat :=
  generatePrivateKey draws.privateKey % fromBytesBe inner.dhPrime

def sharedSecret (draws : AuthDraws) (inner : ServerDHInnerData) : Nat :=
  computeSharedSecret (fromBytesBe inner.gA) (exponent draws inner) (fromBytesBe inner.dhPrime)

def clientInner (draws : AuthDraws) (serverNonce : Int128) (inner : ServerDHInnerData) :
    ClientDHInnerData where
  nonce := draws.nonce
  serverNonce
  retryId := 0
  gB := toBytesBe
    (computePublicKey (generator inner) (exponent draws inner) (fromBytesBe inner.dhPrime))

def setClientDh (draws : AuthDraws) (serverNonce : Int128) (inner : ServerDHInnerData) :
    ClientM T Unit := do
  let padded := pad draws.clientPadding
    (TlObject.clientDHInnerData (clientInner draws serverNonce inner)).writeBoxed
  let encryptedData ← ofCrypto (encryptInner (tmpKey draws.newNonce serverNonce) padded)
  let reply ← exchange draws.dhGen
    (.setClientDHParams { nonce := draws.nonce, serverNonce, encryptedData })
  match reply with
  | .dhGenOk dhGen =>
    if dhGen.nonce ≠ draws.nonce ∨ dhGen.serverNonce ≠ serverNonce then
      protocolError "DHGen nonce mismatch"
    else if newNonceHash1 (sharedSecret draws inner) ≠ dhGen.newNonceHash1 then
      protocolError "new_nonce_hash1 mismatch"
    else
      pure ()
  | _ => protocolError "Expected DHGenOk"

end Stages

/-- The fields a finished exchange sets. -/
def Session.install (s : Session T) (nonce serverNonce : Int128) (secret : Nat) : Session T :=
  { s with
    authKeyId := some (computeAuthKeyId secret)
    crypto := some (.new (toBytesLe secret) nonce.val serverNonce.val)
    authKey := some (authKeyFromSharedSecret secret nonce.val serverNonce.val)
    serverSalt := i64FromLeBytes (serverNonce.val.toList.take 8)
    recvLastMsgId := 0 }

def authenticate [FrameTransport T] (publicKey : Vector UInt8 32) (draws : AuthDraws) :
    ClientM T Unit := do
  let (serverNonce, inner) ← dhAnswer publicKey draws
  setClientDh draws serverNonce inner
  modify fun s => s.install draws.nonce serverNonce (sharedSecret draws inner)

omit [Platform] in
/-- `reconnect`, given the new connection if one could be made. -/
def reconnect (connection : Except KostaError T) : ClientM T Unit :=
  match connection with
  | .error e => throw (.error e)
  | .ok transport => set (Session.fromTransport transport)

end KoSta.Client
