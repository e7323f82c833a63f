import KoSta.Server.Handlers

/-! One turn of the loop in `handle_client`. -/
namespace KoSta.Server
open Lib Tl Crypto

/-- The clock readings and random bytes of one turn. -/
structure FrameDraws where
  now : Nat
  responseNow : Nat
  responseRandom : Vector UInt8 12
  handler : Draws

/-- The session of an encrypted frame: its key, the message's id, the decrypting clone. -/
structure FrameSession where
  id : Int64
  msgId : Int64
  crypto : SessionCrypto

/-- `transport.send`, whose framing panics on oversized payloads. -/
def transportSend (conn : ConnId) (data : Bytes) (events : List Event) : ServerM Unit :=
  match Transport.encodeFrame data with
  | some _ => locked fun s => (((), .sent conn data :: events), s)
  | none => .fail .panic

/-- The first eight bytes, if they name a session that exists. -/
def addressedSession (conn : ConnId) (raw : Bytes) : ServerM (Option Int64) := do
  if raw.length ≥ 8 then
    let id := frameAuthKeyId raw
    if id = 0 then
      return none
    else
      match ← getSession conn id fun _ => [] with
      | some _ => return some id
      | none => return none
  else
    return none

variable [Platform]

/-- The writes that follow the last check. -/
def commitFrame (conn : ConnId) (id : Int64) (session : SessionData) (crypto : SessionCrypto)
    (msgId : Int64) (seqNo : Int32) : ServerM Unit := do
  sql (Database.updateSessionRecvSeqAndLastMsg id seqNo msgId)
  sql (Database.updateSessionCounters id crypto.sendCounter crypto.recvCounter)
  updateSession conn id { session with crypto, recvSeqNo := seqNo, lastRecvMsgId := msgId }
    [] [.accepted conn id msgId]

/-- The checks on a decrypted message. The replay check records the id before the checks behind
it have passed. -/
def acceptMessage (now : Nat) (conn : ConnId) (id : Int64) (session : SessionData)
    (crypto : SessionCrypto) (plaintext : Bytes) :
      ServerM (Except Rejection (Bytes × FrameSession)) := do
  let ((msgId, seqNo), tlData) ← readFrom readHeader plaintext
  if msgId ≤ session.lastRecvMsgId then
    return .error .oldMsgId
  else if !(← recordMsgId conn id session msgId) then
    return .error .replayed
  else
    let expected ← orPanic (succI32 session.recvSeqNo)
    if seqNo ≠ expected then
      return .error .wrongSeqNo
    else
      let diff ← orPanic (clockDiff msgId now)
      if diff > 30000 then
        return .error .staleTimestamp
      else
        commitFrame conn id session crypto msgId seqNo
        return .ok (tlData, { id, msgId, crypto })

def receiveEncrypted (now : Nat) (conn : ConnId) (id : Int64) (raw : Bytes) :
    ServerM (Except Rejection (Bytes × FrameSession)) := do
  match ← getSession conn id fun session => [.lookedUp conn id session] with
  | none => failWith "Session not found"
  | some session =>
    if raw.length < minFrame then
      return .error .tooShort
    else
      match session.crypto.decryptIncomingServer (frameNonce raw) (frameCiphertext raw)
        (frameTag raw) with
      | .error .panic => .fail .panic
      | .error (.error _) => return .error .badMac
      | .ok (plaintext, crypto) => acceptMessage now conn id session crypto plaintext

/-- The sequence number and counter of a response, taken from the session and written back. -/
def reserveResponse (conn : ConnId) (id : Int64) : ServerM (Int32 × UInt32) := do
  match ← getSession conn id fun session => [.lookedUp conn id session] with
  | some session =>
    let seq ← orPanic (succI32 session.sendSeqNo)
    let counter := session.msgIdCounter
    updateSession conn id { session with sendSeqNo := seq, msgIdCounter := counter + 1 }
      [.reserved conn id counter] []
    sql (Database.updateSessionSendState id seq (counter + 1))
    return (seq, counter)
  | none => return (-1, 0)

/-- The cipher state after a response, written over the session the cache has by then. -/
def storeCounters (conn : ConnId) (id : Int64) (crypto : SessionCrypto) : ServerM Unit := do
  match ← getSession conn id fun session => [.lookedUp conn id session] with
  | some session =>
    sql (Database.updateSessionCounters id crypto.sendCounter crypto.recvCounter)
    updateSession conn id
      { session with crypto, sendCounter := crypto.sendCounter, recvCounter := crypto.recvCounter }
      [] []
  | none => pure ()

def respondEncrypted (draws : FrameDraws) (conn : ConnId) (session : FrameSession)
    (data : Bytes) : ServerM Unit := do
  let (seqNo, counter) ← reserveResponse conn session.id
  let plain := withHeader (msgId draws.responseNow counter) seqNo data
  let ((nonce, ciphertext, tag), crypto) ← orPanic
    (session.crypto.encryptOutgoingServer draws.responseRandom plain)
  storeCounters conn session.id crypto
  let frame := sealFrame session.id nonce ciphertext tag
  transportSend conn frame
    [.stamped conn session.id draws.responseNow counter, .sealed conn session.id frame]

def respond (draws : FrameDraws) (conn : ConnId) (session : Option FrameSession)
    (data : Bytes) : ServerM Unit :=
  match session with
  | some session => respondEncrypted draws conn session data
  | none => transportSend conn data []

/-- From the received object to the response. -/
def dispatch (statics : Statics) (draws : FrameDraws) (conn : ConnId)
    (session : Option FrameSession) (tlData : Bytes) : ServerM Verdict :=
  match TlObject.readBoxed.run tlData with
  | .err e => return .unparsable e
  | .panic => .fail .panic
  | .ok obj _ => do
    record (.dispatched conn (session.map fun s => (s.id, s.msgId)) obj)
    match ← handleRequest statics draws.handler conn obj (session.map FrameSession.id) with
    | none => return .silent
    | some data =>
      respond draws conn session data
      return .answered

/-- What is left of a turn once the request has been handled. -/
def finishTurn (draws : FrameDraws) (conn : ConnId) (session : Option FrameSession) :
    Option Bytes → ServerM Verdict
  | none => pure .silent
  | some data => do
    respond draws conn session data
    return .answered

theorem dispatch_eq (statics : Statics) (draws : FrameDraws) (conn : ConnId)
    (session : Option FrameSession) {tlData rest : Bytes} {obj : TlObject}
    (h : TlObject.readBoxed.run tlData = .ok obj rest) :
    dispatch statics draws conn session tlData = (do
      record (.dispatched conn (session.map fun s => (s.id, s.msgId)) obj)
      let reply ← handleRequest statics draws.handler conn obj (session.map FrameSession.id)
      finishTurn draws conn session reply) := by
  unfold dispatch
  rw [h]
  refine bind_congr fun _ => bind_congr fun reply => ?_
  cases reply <;> rfl

def handleFrame (statics : Statics) (draws : FrameDraws) (conn : ConnId) (raw : Bytes) :
    ServerM Verdict := do
  match ← addressedSession conn raw with
  | none => dispatch statics draws conn none raw
  | some id =>
    match ← receiveEncrypted draws.now conn id raw with
    | .error reason => return .rejected reason
    | .ok (tlData, session) => dispatch statics draws conn (some session) tlData

/-- The turn with its outcome recorded. -/
def serve (statics : Statics) (draws : FrameDraws) (conn : ConnId) (raw : Bytes) :
    ServerM Unit := do
  let result ← (handleFrame statics draws conn raw).attempt
  record (.finished conn result)

end KoSta.Server
