import KoSta.Client.DhChecks
import KoSta.Crypto.Frame
import KoSta.Server.SessionCache

/-! The request handlers. -/
namespace KoSta.Server
open Lib Tl Crypto

/-- One candidate for a random prime: its bytes and what the primality test draws for it. -/
structure PrimeDraw where
  bytes : Vector UInt8 4
  bases : Nat → Nat

/-- Everything random or timed that the handling of one request reads. -/
structure Draws where
  serverNonce : Vector UInt8 16
  primes : List PrimeDraw
  privateKey : Vector UInt8 256
  padding : PadDraw
  instant : Nat
  seconds : Int64
  salt : Vector UInt8 16

/-- The server's key and group, which the source keeps in statics. -/
structure Statics where
  signingKey : Vector UInt8 32
  dhPrime : Nat

/-- `DH_PRIME`. -/
def dhPrime2048 : Nat :=
  0xFFFFFFFFFFFFFFFFC90FDAA22168C234C4C6628B80DC1CD129024E088A67CC74020BBEA63B139B22514A08798E3404DDEF9519B3CD3A431B302B0A6DF25F14374FE1356D6D51C245E485B576625E7EC6F44C42E9A637ED6B0BFF5CB6F406B7EDEE386BFB5A899FA5AE9F24117C4B1FE649286651ECE45B3DC2007CB8A163BF0598DA48361C55D39A69163FA8FD24CF5F83655D23DCA3AD961C62F356208552BB9ED529077096966D670C354E4ABC9804F1746C08CA18217C32905E462E36CE3BE39E772C180E86039B2783A2EC07A28FB5C55DF06F4C52C9DE2BCBF6955817183995497CEA956AE515D2261898FA051015728E5A8AACAA68FFFFFFFFFFFFFFFF

/-- `DH_G`. -/
def dhG : Nat := 2

/-- `Duration::from_secs(60)`, in milliseconds. -/
def handshakeTimeout : Nat := 60000

variable [Platform]

def ofCrypto {α : Type} (x : Except CryptoError α) : ServerM α :=
  match x with
  | .ok a => pure a
  | .error e => .fail (.error (.crypto e))

def reply (obj : TlObject) : ServerM (Option Bytes) := return some obj.writeBoxed

/-! ### Key exchange -/

/-- The number a candidate stands for. -/
def candidate (draw : PrimeDraw) : Nat :=
  let num := fromBytesLe draw.bytes.toList
  if num < 2 then 3 else num ||| 1

/-- `generate_random_prime(32)` and the draws it leaves; `none` while the search goes on. -/
def generateRandomPrime : List PrimeDraw → Option (Nat × List PrimeDraw)
  | [] => none
  | draw :: draws =>
    if Client.isPrime draw.bases (candidate draw) then some (candidate draw, draws)
    else generateRandomPrime draws

/-- `while q == p { q = generate_random_prime(32) }`, the first `q` included. -/
def generateOtherPrime (p : Nat) : List PrimeDraw → Option Nat
  | [] => none
  | draw :: draws =>
    if Client.isPrime draw.bases (candidate draw) ∧ candidate draw ≠ p then some (candidate draw)
    else generateOtherPrime p draws

def orSearching {α : Type} (x : Option α) : ServerM α :=
  match x with
  | some a => pure a
  | none => .fail .searching

def handleReqPq (statics : Statics) (draws : Draws) (req : ReqPq) : ServerM (Option Bytes) := do
  let (p, rest) ← orSearching (generateRandomPrime draws.primes)
  let q ← orSearching (generateOtherPrime p rest)
  let fingerprint := computeKeyFingerprint (ed25519VerifyingKey statics.signingKey)
  reply (.resPQ
    { nonce := req.nonce, serverNonce := ⟨draws.serverNonce⟩, pq := toBytesBe (p * q)
      p := toBytesBe p, q := toBytesBe q, serverPublicKeyFingerprints := [fingerprint] })

/-- The pair of nonces under which a handshake is stored. -/
def handshakeKey (nonce serverNonce : Int128) : Bytes :=
  nonce.val.toList ++ serverNonce.val.toList

def insertHandshake (key : Bytes) (entry : Handshake) : ServerM Unit :=
  locked fun s => (((), []),
    { s with handshakes := Function.update s.handshakes key (some entry) })

/-- The signed part of `ServerDHParamsOk`. -/
def signedData (nonce serverNonce : Int128) (encryptedAnswer : Bytes) : Bytes :=
  writeBytes nonce ++ (writeBytes serverNonce ++ writeBytes encryptedAnswer)

def handleReqDhParams (statics : Statics) (draws : Draws) (req : ReqDHParams) :
    ServerM (Option Bytes) := do
  let decrypted ← ofCrypto (decryptInner (tmpKeyFromNonce req.nonce req.serverNonce)
    req.encryptedData)
  let (obj, _) ← readFrom TlObject.readBoxed decrypted
  match obj with
  | .pqInnerData pqInner =>
    if pqInner.nonce ≠ req.nonce ∨ pqInner.serverNonce ≠ req.serverNonce then
      failWith "Nonce mismatch in PqInnerData"
    else
      let newNonce := pqInner.newNonce
      let a := generatePrivateKey draws.privateKey % statics.dhPrime
      let gA := computePublicKey dhG a statics.dhPrime
      insertHandshake (handshakeKey req.nonce req.serverNonce)
        { newNonce, a := toBytesBe a, time := draws.instant }
      let inner : ServerDHInnerData :=
        { nonce := req.nonce, serverNonce := req.serverNonce, g := 2
          dhPrime := toBytesBe statics.dhPrime, gA := toBytesBe gA, serverTime := 0 }
      let padded := pad draws.padding (TlObject.serverDHInnerData inner).writeBoxed
      let encryptedAnswer ← ofCrypto (encryptInner (tmpKey newNonce req.serverNonce) padded)
      let signature := ed25519Sign statics.signingKey
        (signedData req.nonce req.serverNonce encryptedAnswer)
      reply (.serverDHParamsOk
        { nonce := req.nonce, serverNonce := req.serverNonce, encryptedAnswer
          signature := signature.toList })
  | _ => failWith "Expected PqInnerData"

def cleanHandshakeStore (now : Nat) : ServerM Unit :=
  locked fun s => (((), []),
    { s with handshakes := fun key =>
        (s.handshakes key).filter fun entry => now - entry.time < handshakeTimeout })

def getHandshake (key : Bytes) : ServerM (Option Handshake) :=
  locked fun s => ((s.handshakes key, []), s)

def removeHandshake (key : Bytes) : ServerM Unit :=
  locked fun s => (((), []), { s with handshakes := Function.update s.handshakes key none })

/-- A new recent set, before its session is put into the cache. -/
def newRecent : ServerM RecentMsgIds :=
  locked fun s => ((s.nextRecent, []),
    { s with
      recents := Function.update s.recents s.nextRecent []
      nextRecent := s.nextRecent + 1 })

/-- The session a finished exchange creates: no user, no messages. -/
def newSession (sharedSecret : Nat) (nonce serverNonce : Int128) (newNonce : Int256)
    (recentMsgIds : RecentMsgIds) : SessionData where
  authKey := authKeyFromSharedSecret sharedSecret nonce.val serverNonce.val
  authKeyId := computeAuthKeyId sharedSecret
  userId := 0
  serverSalt := 0
  nonce
  serverNonce
  newNonce
  crypto := .new (toBytesLe sharedSecret) nonce.val serverNonce.val
  recvSeqNo := -1
  lastRecvMsgId := 0
  sendCounter := 0
  recvCounter := 0
  sendSeqNo := -1
  msgIdCounter := 0
  recentMsgIds

def handleSetClientDhParams (statics : Statics) (draws : Draws) (conn : ConnId)
    (req : SetClientDHParams) : ServerM (Option Bytes) := do
  cleanHandshakeStore draws.instant
  let key := handshakeKey req.nonce req.serverNonce
  match ← getHandshake key with
  | none => failWith "No handshake data for this nonce pair"
  | some entry =>
    let decrypted ← ofCrypto (decryptInner (tmpKey entry.newNonce req.serverNonce)
      req.encryptedData)
    let (obj, _) ← readFrom TlObject.readBoxed decrypted
    match obj with
    | .clientDHInnerData clientInner =>
      if clientInner.nonce ≠ req.nonce ∨ clientInner.serverNonce ≠ req.serverNonce then
        failWith "Nonce mismatch in ClientDHInnerData"
      else
        let gB := fromBytesBe clientInner.gB
        match Client.validatePublicValue gB statics.dhPrime with
        | .error e => failWith ("Invalid g_b: " ++ e)
        | .ok () =>
          let sharedSecret := computeSharedSecret gB (fromBytesBe entry.a) statics.dhPrime
          let id := computeAuthKeyId sharedSecret
          -- the source writes this row before it creates the recent set, which the row has not
          let row := (newSession sharedSecret req.nonce req.serverNonce entry.newNonce 0).toRow id
          saveSession row [.established id]
          let recent ← newRecent
          let session := newSession sharedSecret req.nonce req.serverNonce entry.newNonce recent
          updateSession conn id session [] []
          removeHandshake key
          reply (.dhGenOk
            { nonce := req.nonce, serverNonce := req.serverNonce
              newNonceHash1 := newNonceHash1 sharedSecret })
    | _ => failWith "Expected ClientDHInnerData"

/-! ### Users -/

def createUser (draws : Draws) (phone password : String) : ServerM Int64 :=
  sql (Database.insertUser phone (bcryptHash draws.salt password))

def handleSignUp (draws : Draws) (conn : ConnId) (authKeyId : Option Int64) (req : SignUp) :
    ServerM (Option Bytes) := do
  let userId ← createUser draws req.phone req.password
  match authKeyId with
  | none => return none
  | some id =>
    sql (Database.updateSessionUserId id userId)
    match ← getSession conn id fun session => [.lookedUp conn id session] with
    | some session => updateSession conn id { session with userId } [] []
    | none => pure ()
    return none

/-- The user a request acts for, read from the session's row. -/
def getUserId (authKeyId : Option Int64) : ServerM Int64 := do
  match authKeyId with
  | none => failWith "Missing auth_key_id"
  | some id =>
    match ← sql (Database.getSession id) with
    | none => failWith "Session not found"
    | some session => return session.1

def statusCode : UserStatus → Int32
  | .online => 0
  | .offline => 1
  | .typing => 2
  | .recently => 3
  | .lastWeek => 4
  | .lastMonth => 5

def handleUserStatus (authKeyId : Option Int64) (req : UserStatusUpdate) :
    ServerM (Option Bytes) := do
  let userId ← getUserId authKeyId
  if userId ≠ req.userId.val then
    failWith "Cannot update status for another user"
  else
    sql (Database.setUserStatus userId (statusCode req.status))
    return none

/-! ### Messages -/

def handleSendMessage (draws : Draws) (authKeyId : Option Int64) (req : SendMessage) :
    ServerM (Option Bytes) := do
  let userId ← getUserId authKeyId
  let msgId ← sql (Database.saveMessage req.chatId.val userId req.text draws.seconds true none none)
  reply (.message
    { id := ⟨msgId⟩, chatId := req.chatId, senderId := ⟨userId⟩, text := req.text
      timestamp := draws.seconds, isOutgoing := true, read := false, delivered := false })

/-- One row of the history as the client sees it. -/
def messageOfRow (chatId : ChatId) (row : MessageRow) : Message where
  id := ⟨row.id⟩
  chatId
  senderId := ⟨row.senderId⟩
  text := row.text
  timestamp := row.timestamp
  isOutgoing := row.isOutgoing
  read := row.readStatus
  delivered := row.deliveredStatus

def handleGetHistory (authKeyId : Option Int64) (req : GetHistory) : ServerM (Option Bytes) := do
  let _ ← getUserId authKeyId
  let rows ← sql (Database.getHistory req.chatId.val req.offset req.limit)
  let messages := rows.map (messageOfRow req.chatId)
  reply (.historyResult { messages, totalCount := Int32.ofNat messages.length })

def handleSendAck (authKeyId : Option Int64) (req : SendMessageAck) : ServerM (Option Bytes) := do
  let _ ← getUserId authKeyId
  sql (Database.markMessageDelivered req.messageId.val)
  return none

/-! ### Dialogs -/

def createPrivateDialog (user1 user2 : Int64) : ServerM Int64 := do
  match ← sql (Database.selectPrivateDialog user1 user2) with
  | some id => return id
  | none =>
    let dialogId ← sql (Database.insertDialog 0 "")
    sql (Database.insertParticipant dialogId user1)
    sql (Database.insertParticipant dialogId user2)
    return dialogId

def insertParticipants (dialogId : Int64) : List Int64 → ServerM Unit
  | [] => pure ()
  | userId :: rest => do
    sql (Database.insertParticipant dialogId userId)
    insertParticipants dialogId rest

def createGroupDialog (title : String) (creator : Int64) (participants : List Int64) :
    ServerM Int64 := do
  let dialogId ← sql (Database.insertDialog 1 title)
  insertParticipants dialogId (creator :: participants)
  return dialogId

/-- The title of a dialog that is not a group: the other member's phone number. -/
def otherTitle (participants : List UserId) (userId : Int64) : ServerM String := do
  let other := ((participants.find? fun u => u.val != userId).map UserId.val).getD 0
  if other ≠ 0 then
    let phone ← sql (Database.selectPhone other)
    return phone.getD "Unknown"
  else
    return "Unknown"

def dialogTitle (isGroup : Bool) (dialogId : Int64) (participants : List UserId)
    (userId : Int64) : ServerM String :=
  if isGroup then return s!"Group {dialogId}" else otherTitle participants userId

def buildDialogInfo (dialogId userId : Int64) : ServerM DialogInfo := do
  let users ← sql (Database.getDialogParticipants dialogId)
  let participants := users.map UserId.mk
  let isGroup : Bool := participants.length > 2
  let title ← dialogTitle isGroup dialogId participants userId
  return { id := ⟨dialogId⟩, title, isGroup, participants, lastMessage := none, unreadCount := 0 }

def replyDialogInfo (dialogId userId : Int64) : ServerM (Option Bytes) := do
  let info ← buildDialogInfo dialogId userId
  reply (.dialogInfo info)

def handleCreatePrivateDialog (authKeyId : Option Int64) (req : CreatePrivateDialog) :
    ServerM (Option Bytes) := do
  let userId ← getUserId authKeyId
  let dialogId ← createPrivateDialog userId req.userId.val
  replyDialogInfo dialogId userId

def handleCreateGroup (authKeyId : Option Int64) (req : CreateGroup) : ServerM (Option Bytes) := do
  let userId ← getUserId authKeyId
  let dialogId ← createGroupDialog req.title userId (req.participants.map UserId.val)
  replyDialogInfo dialogId userId

def handleAddGroupParticipant (authKeyId : Option Int64) (req : AddGroupParticipant) :
    ServerM (Option Bytes) := do
  let userId ← getUserId authKeyId
  let participants ← sql (Database.getDialogParticipants req.dialogId.val)
  if !participants.contains userId then
    failWith "You are not a member of this group"
  else
    sql (Database.addParticipant req.dialogId.val req.userId.val)
    replyDialogInfo req.dialogId.val userId

def handleRemoveGroupParticipant (authKeyId : Option Int64) (req : RemoveGroupParticipant) :
    ServerM (Option Bytes) := do
  let userId ← getUserId authKeyId
  let participants ← sql (Database.getDialogParticipants req.dialogId.val)
  if !participants.contains userId then
    failWith "You are not a member of this group"
  else if userId = req.userId.val then
    failWith "Cannot remove yourself from group"
  else
    sql (Database.removeParticipant req.dialogId.val req.userId.val)
    replyDialogInfo req.dialogId.val userId

def buildDialogInfos (userId : Int64) : List (Int64 × String × Int64 × String) →
    ServerM (List DialogInfo)
  | [] => pure []
  | dialog :: rest => do
    let info ← buildDialogInfo dialog.1 userId
    let infos ← buildDialogInfos userId rest
    return info :: infos

def handleGetDialogs (authKeyId : Option Int64) : ServerM (Option Bytes) := do
  let userId ← getUserId authKeyId
  let dialogs ← sql (Database.getUserDialogs userId)
  let infos ← buildDialogInfos userId dialogs
  reply (.dialogList { dialogs := infos })

/-- The dispatch on the parsed object. -/
def handleRequest (statics : Statics) (draws : Draws) (conn : ConnId) (obj : TlObject)
    (authKeyId : Option Int64) : ServerM (Option Bytes) :=
  match obj with
  | .reqPq req => handleReqPq statics draws req
  | .reqDHParams req => handleReqDhParams statics draws req
  | .setClientDHParams req => handleSetClientDhParams statics draws conn req
  | .signUp req => handleSignUp draws conn authKeyId req
  | .sendMessage req => handleSendMessage draws authKeyId req
  | .getHistory req => handleGetHistory authKeyId req
  | .sendMessageAck req => handleSendAck authKeyId req
  | .userStatusUpdate req => handleUserStatus authKeyId req
  | .createPrivateDialog req => handleCreatePrivateDialog authKeyId req
  | .createGroup req => handleCreateGroup authKeyId req
  | .addGroupParticipant req => handleAddGroupParticipant authKeyId req
  | .removeGroupParticipant req => handleRemoveGroupParticipant authKeyId req
  | .getDialogs _ => handleGetDialogs authKeyId
  | _ => failWith "Unsupported TL object"

end KoSta.Server
