import Mathlib.Data.List.Sort
import KoSta.Crypto.SessionCrypto
import KoSta.Tl.Constructors

/-! The database: its tables, and one function for each statement the TL server executes. Rows
come in the order of the index that SQLite finds them by: the primary key of
`dialog_participants` for those of a dialog, `idx_dialog_participants_user_id` for those of a
user, where the older row comes first. -/
namespace KoSta.Server
open Lib Tl Crypto

structure UserRow where
  id : Int64
  phone : String
  passwordHash : String
  deriving DecidableEq, Repr

/-- A row of `sessions`, which is also what `get_full_session` returns. -/
structure FullSession where
  authKeyId : Int64
  userId : Int64
  serverSalt : Int64
  nonce : Vector UInt8 16
  serverNonce : Vector UInt8 16
  newNonce : Vector UInt8 32
  recvSeqNo : Int32
  authKey : Vector UInt8 256
  clientWriteKey : AesKey
  clientMacKey : MacKey
  serverWriteKey : AesKey
  serverMacKey : MacKey
  lastMsgId : Int64
  sendCounter : UInt32
  recvCounter : UInt32
  sendSeqNo : Int32
  msgIdCounter : UInt32
  deriving DecidableEq, Repr

/-- `type` 0 is a private dialog, 1 a group. -/
structure DialogRow where
  id : Int64
  type : Int64
  title : String
  deriving DecidableEq, Repr

structure ParticipantRow where
  dialogId : Int64
  userId : Int64
  deriving DecidableEq, Repr

structure MessageRow where
  id : Int64
  dialogId : Int64
  senderId : Int64
  text : String
  timestamp : Int64
  isOutgoing : Bool
  readStatus : Bool
  deliveredStatus : Bool
  mediaPath : Option String
  mediaType : Option String
  editedAt : Option Int64
  deleted : Bool
  deriving DecidableEq, Repr

structure StatusRow where
  userId : Int64
  status : Int32
  deriving DecidableEq, Repr

/-- The tables, oldest row first; `messageSeq` is the AUTOINCREMENT sequence of `messages`. -/
structure Database where
  users : List UserRow
  sessions : Int64 → Option FullSession
  dialogs : List DialogRow
  participants : List ParticipantRow
  messages : List MessageRow
  messageSeq : Int64
  statuses : List StatusRow

/-- After `init`: the system user and nothing else. -/
def Database.init : Database where
  users := [⟨0, "system", ""⟩]
  sessions _ := none
  dialogs := []
  participants := []
  messages := []
  messageSeq := 0
  statuses := []

/-- The constraints a statement can violate, and the end of a table's row ids. -/
inductive SqlError where
  | unique (columns : String)
  | foreignKey
  | full
  deriving DecidableEq, Repr

/-- One statement: its result and the database after it. A violated constraint changes nothing. -/
abbrev Statement (α : Type) := Database → Except SqlError α × Database

/-- The row id after the largest in use; `none` when that is the last one there is. No row of
these tables is ever deleted, so every smaller one is in use then too, and SQLite gives up. -/
def nextRowid (largest : Int64) : Option Int64 :=
  if largest = Int64.maxValue then none else some (largest + 1)

/-- The largest row id in use. -/
def largestRowid (ids : List Int64) : Int64 := ids.foldl max 0

namespace Database

def hasUser (db : Database) (id : Int64) : Bool := db.users.any fun u => u.id == id

def hasDialog (db : Database) (id : Int64) : Bool := db.dialogs.any fun d => d.id == id

def hasParticipant (db : Database) (dialogId userId : Int64) : Bool :=
  db.participants.contains ⟨dialogId, userId⟩

def modifySession (db : Database) (authKeyId : Int64) (f : FullSession → FullSession) : Database :=
  { db with sessions := fun id =>
      if id = authKeyId then (db.sessions id).map f else db.sessions id }

/-! ### Users -/

def insertUser (phone passwordHash : String) : Statement Int64 := fun db =>
  if db.users.any fun u => u.phone == phone then
    (.error (.unique "users.phone"), db)
  else
    match nextRowid (largestRowid (db.users.map UserRow.id)) with
    | some id => (.ok id, { db with users := db.users ++ [⟨id, phone, passwordHash⟩] })
    | none => (.error .full, db)

def selectPhone (id : Int64) : Statement (Option String) := fun db =>
  (.ok ((db.users.find? fun u => u.id == id).map UserRow.phone), db)

/-! ### Sessions

The user a session row refers to exists whenever one of these is executed, so the foreign key of
`sessions` is never violated. -/

def saveSessionFull (row : FullSession) : Statement Unit := fun db =>
  (.ok (), { db with
    sessions := fun id => if id = row.authKeyId then some row else db.sessions id })

def updateSessionRecvSeqAndLastMsg (authKeyId : Int64) (recvSeqNo : Int32) (lastMsgId : Int64) :
    Statement Unit := fun db =>
  (.ok (), db.modifySession authKeyId fun row => { row with recvSeqNo, lastMsgId })

def updateSessionCounters (authKeyId : Int64) (sendCounter recvCounter : UInt32) :
    Statement Unit := fun db =>
  (.ok (), db.modifySession authKeyId fun row => { row with sendCounter, recvCounter })

def updateSessionSendState (authKeyId : Int64) (sendSeqNo : Int32) (msgIdCounter : UInt32) :
    Statement Unit := fun db =>
  (.ok (), db.modifySession authKeyId fun row => { row with sendSeqNo, msgIdCounter })

def updateSessionUserId (authKeyId userId : Int64) : Statement Unit := fun db =>
  (.ok (), db.modifySession authKeyId fun row => { row with userId })

def getFullSession (authKeyId : Int64) : Statement (Option FullSession) := fun db =>
  (.ok (db.sessions authKeyId), db)

/-- The older `get_session`, of which the handlers use the user. -/
def getSession (authKeyId : Int64) :
    Statement (Option (Int64 × Int64 × Bytes × Bytes × Bytes)) := fun db =>
  (.ok ((db.sessions authKeyId).map fun row => (row.userId, row.serverSalt, row.nonce.toList,
    row.serverNonce.toList, row.newNonce.toList)), db)

/-! ### Dialogs -/

def ascending (ids : List Int64) : List Int64 := ids.insertionSort (· ≤ ·)

/-- The users of a dialog, by the primary key. -/
def memberIds (db : Database) (dialogId : Int64) : List Int64 :=
  ascending ((db.participants.filter fun p => p.dialogId == dialogId).map ParticipantRow.userId)

/-- The dialogs that the rows of a user are joined with. -/
def dialogsOf (db : Database) (userId : Int64) : List DialogRow :=
  (db.participants.filter fun p => p.userId == userId).flatMap fun p =>
    db.dialogs.filter fun d => d.id == p.dialogId

def selectPrivateDialog (user1 user2 : Int64) : Statement (Option Int64) := fun db =>
  (.ok (((db.dialogsOf user1).find? fun d => d.type == 0 && db.hasParticipant d.id user2).map
    DialogRow.id), db)

def insertDialog (type : Int64) (title : String) : Statement Int64 := fun db =>
  match nextRowid (largestRowid (db.dialogs.map DialogRow.id)) with
  | some id => (.ok id, { db with dialogs := db.dialogs ++ [⟨id, type, title⟩] })
  | none => (.error .full, db)

def insertParticipant (dialogId userId : Int64) : Statement Unit := fun db =>
  if db.hasParticipant dialogId userId then
    (.error (.unique "dialog_participants.dialog_id, dialog_participants.user_id"), db)
  else if db.hasDialog dialogId && db.hasUser userId then
    (.ok (), { db with participants := db.participants ++ [⟨dialogId, userId⟩] })
  else
    (.error .foreignKey, db)

/-- `INSERT OR IGNORE`, which ignores a duplicate but not a missing user or dialog. -/
def addParticipant (dialogId userId : Int64) : Statement Unit := fun db =>
  if db.hasParticipant dialogId userId then
    (.ok (), db)
  else if db.hasDialog dialogId && db.hasUser userId then
    (.ok (), { db with participants := db.participants ++ [⟨dialogId, userId⟩] })
  else
    (.error .foreignKey, db)

def removeParticipant (dialogId userId : Int64) : Statement Unit := fun db =>
  (.ok (), { db with participants :=
    db.participants.filter fun p => !(p.dialogId == dialogId && p.userId == userId) })

def getDialogParticipants (dialogId : Int64) : Statement (List Int64) := fun db =>
  (.ok (db.memberIds dialogId), db)

/-- `MAX(timestamp)` over the messages of a dialog. -/
def lastTimestamp (db : Database) (dialogId : Int64) : Option Int64 :=
  ((db.messages.filter fun m => m.dialogId == dialogId).map MessageRow.timestamp).max?

/-- `ORDER BY … DESC` on a column that may be null; nulls come last. -/
def descending : Option Int64 → Option Int64 → Bool
  | some x, some y => y ≤ x
  | none, some _ => false
  | _, none => true

def otherPhone (db : Database) (dialogId userId : Int64) : String :=
  let phones := ((db.memberIds dialogId).filter fun id => id != userId)
    |>.filterMap fun id => (db.users.find? fun u => u.id == id).map UserRow.phone
  phones.headD ""

def getUserDialogs (userId : Int64) :
    Statement (List (Int64 × String × Int64 × String)) := fun db =>
  let sorted := (db.dialogsOf userId).mergeSort fun d d' =>
    descending (db.lastTimestamp d.id) (db.lastTimestamp d'.id)
  (.ok (sorted.map fun d => (d.id, d.title, d.type, db.otherPhone d.id userId)), db)

/-! ### Messages and statuses -/

def saveMessage (dialogId senderId : Int64) (text : String) (timestamp : Int64)
    (isOutgoing : Bool) (mediaPath mediaType : Option String) : Statement Int64 := fun db =>
  match nextRowid db.messageSeq with
  | none => (.error .full, db)
  | some id =>
    if db.hasDialog dialogId && db.hasUser senderId then
      let row : MessageRow :=
        { id, dialogId, senderId, text, timestamp, isOutgoing, readStatus := false
          deliveredStatus := false, mediaPath, mediaType, editedAt := none, deleted := false }
      (.ok id, { db with messages := db.messages ++ [row], messageSeq := id })
    else
      (.error .foreignKey, db)

/-- `LIMIT limit OFFSET offset`: a negative limit is none, a negative offset is zero. -/
def page {α : Type} (limit offset : Int32) (rows : List α) : List α :=
  let rows := rows.drop offset.toInt.toNat
  if limit < 0 then rows else rows.take limit.toInt.toNat

def getHistory (dialogId : Int64) (offset limit : Int32) : Statement (List MessageRow) := fun db =>
  let rows := db.messages.filter fun m => m.dialogId == dialogId && !m.deleted
  (.ok (page limit offset (rows.mergeSort fun m m' => m'.timestamp ≤ m.timestamp)), db)

def markMessageDelivered (messageId : Int64) : Statement Unit := fun db =>
  (.ok (), { db with messages := db.messages.map fun m =>
    if m.id == messageId then { m with deliveredStatus := true } else m })

def setUserStatus (userId : Int64) (status : Int32) : Statement Unit := fun db =>
  if db.hasUser userId then
    (.ok (), { db with statuses :=
      (db.statuses.filter fun s => s.userId != userId) ++ [⟨userId, status⟩] })
  else
    (.error .foreignKey, db)

end Database

end KoSta.Server
