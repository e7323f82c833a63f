import KoSta.Server.World

/-! The session cache in front of the `sessions` table. -/
namespace KoSta.Server
open Lib Tl Crypto

/-- The capacity every recent set is created with. -/
def recentCapacity : Nat := 1000

/-- The session `get_session` rebuilds from its row, with a recent set of its own. -/
def sessionOfRow (id : Int64) (full : FullSession) (recentMsgIds : RecentMsgIds) : SessionData where
  authKey := full.authKey
  authKeyId := id
  userId := full.userId
  serverSalt := full.serverSalt
  nonce := ⟨full.nonce⟩
  serverNonce := ⟨full.serverNonce⟩
  newNonce := ⟨full.newNonce⟩
  crypto :=
    { clientWriteKey := full.clientWriteKey
      clientMacKey := full.clientMacKey
      serverWriteKey := full.serverWriteKey
      serverMacKey := full.serverMacKey
      sendCounter := full.sendCounter
      recvCounter := full.recvCounter }
  recvSeqNo := full.recvSeqNo
  lastRecvMsgId := full.lastMsgId
  sendCounter := full.sendCounter
  recvCounter := full.recvCounter
  sendSeqNo := full.sendSeqNo
  msgIdCounter := full.msgIdCounter
  recentMsgIds

/-- The row `update_session` writes: the counters are the outer ones, not those in `crypto`. -/
def SessionData.toRow (session : SessionData) (id : Int64) : FullSession where
  authKeyId := id
  userId := session.userId
  serverSalt := session.serverSalt
  nonce := session.nonce.val
  serverNonce := session.serverNonce.val
  newNonce := session.newNonce.val
  recvSeqNo := session.recvSeqNo
  authKey := session.authKey
  clientWriteKey := session.crypto.clientWriteKey
  clientMacKey := session.crypto.clientMacKey
  serverWriteKey := session.crypto.serverWriteKey
  serverMacKey := session.crypto.serverMacKey
  lastMsgId := session.lastRecvMsgId
  sendCounter := session.sendCounter
  recvCounter := session.recvCounter
  sendSeqNo := session.sendSeqNo
  msgIdCounter := session.msgIdCounter

/-- The lookup under the cache lock, recorded by `mark` when it hits. -/
def cacheLookup (id : Int64) (mark : SessionData → List Event) : ServerM (Option SessionData) :=
  locked fun s =>
    match s.cache id with
    | some session => ((some session, mark session), s)
    | none => ((none, []), s)

/-- The put under the cache lock after a load, with a new empty recent set. -/
def putLoaded (conn : ConnId) (id : Int64) (full : FullSession)
    (mark : SessionData → List Event) : ServerM SessionData :=
  locked fun s =>
    let session := sessionOfRow id full s.nextRecent
    ((session, mark session ++ [.put conn id session]),
      { s with
        cache := Function.update s.cache id (some session)
        recents := Function.update s.recents s.nextRecent []
        nextRecent := s.nextRecent + 1 })

/-- Lock, look up, unlock; on a miss load the row and put it, without looking again. -/
def getSession (conn : ConnId) (id : Int64) (mark : SessionData → List Event) :
    ServerM (Option SessionData) := do
  match ← cacheLookup id mark with
  | some session => return some session
  | none =>
    match ← sql (Database.getFullSession id) with
    | some full =>
      let session ← putLoaded conn id full mark
      return some session
    | none => return none

def cachePut (conn : ConnId) (id : Int64) (session : SessionData) (events : List Event) :
    ServerM Unit :=
  locked fun s => (((), events ++ [.put conn id session]),
    { s with cache := Function.update s.cache id (some session) })

/-- `save_session_full`, recorded by `events`. -/
def saveSession (row : FullSession) (events : List Event) : ServerM Unit :=
  locked fun s => (((), events), { s with db := (Database.saveSessionFull row s.db).2 })

/-- The whole row first, then the cache. -/
def updateSession (conn : ConnId) (id : Int64) (session : SessionData)
    (saved cached : List Event) : ServerM Unit := do
  saveSession (session.toRow id) saved
  cachePut conn id session cached

/-- The replay check under the recent set's lock: `false` when the id is already in it. -/
def recordMsgId (conn : ConnId) (id : Int64) (session : SessionData) (msgId : Int64) :
    ServerM Bool :=
  locked fun s =>
    let recent := s.recents session.recentMsgIds
    if recent.contains msgId then
      ((false, []), s)
    else
      ((true, [.passed conn id session msgId]),
        { s with
          recents := Function.update s.recents session.recentMsgIds
            ((msgId :: recent).take recentCapacity) })

end KoSta.Server
