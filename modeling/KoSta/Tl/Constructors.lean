import KoSta.Tl.Types

/-! The TL records, each with its own writer and reader. -/
namespace KoSta.Tl
open Lib

/-! ### Key exchange -/

structure ReqPq where
  nonce : Int128
  deriving DecidableEq, Repr

instance : TlWrite ReqPq where
  writeBytes o := writeBytes o.nonce

instance : TlRead ReqPq where
  readBytes := do
    let nonce : Int128 ← readBytes
    return { nonce }

structure ResPQ where
  nonce : Int128
  serverNonce : Int128
  pq : Bytes
  p : Bytes
  q : Bytes
  serverPublicKeyFingerprints : List Int64
  deriving DecidableEq, Repr

instance : TlWrite ResPQ where
  writeBytes o := writeBytes o.nonce ++ (writeBytes o.serverNonce ++ (writeBytes o.pq ++ (
    writeBytes o.p ++ (writeBytes o.q ++ writeBytes o.serverPublicKeyFingerprints))))

instance : TlRead ResPQ where
  readBytes := do
    let nonce : Int128 ← readBytes
    let serverNonce : Int128 ← readBytes
    let pq : Bytes ← readBytes
    let p : Bytes ← readBytes
    let q : Bytes ← readBytes
    let serverPublicKeyFingerprints : List Int64 ← readBytes
    return { nonce, serverNonce, pq, p, q, serverPublicKeyFingerprints }

structure PqInnerData where
  pq : Bytes
  p : Bytes
  q : Bytes
  nonce : Int128
  serverNonce : Int128
  newNonce : Int256
  deriving DecidableEq, Repr

instance : TlWrite PqInnerData where
  writeBytes o := writeBytes o.pq ++ (writeBytes o.p ++ (writeBytes o.q ++ (
    writeBytes o.nonce ++ (writeBytes o.serverNonce ++ writeBytes o.newNonce))))

instance : TlRead PqInnerData where
  readBytes := do
    let pq : Bytes ← readBytes
    let p : Bytes ← readBytes
    let q : Bytes ← readBytes
    let nonce : Int128 ← readBytes
    let serverNonce : Int128 ← readBytes
    let newNonce : Int256 ← readBytes
    return { pq, p, q, nonce, serverNonce, newNonce }

structure ReqDHParams where
  nonce : Int128
  serverNonce : Int128
  p : Bytes
  q : Bytes
  publicKeyFingerprint : Int64
  encryptedData : Bytes
  deriving DecidableEq, Repr

instance : TlWrite ReqDHParams where
  writeBytes o := writeBytes o.nonce ++ (writeBytes o.serverNonce ++ (writeBytes o.p ++ (
    writeBytes o.q ++ (writeBytes o.publicKeyFingerprint ++ writeBytes o.encryptedData))))

instance : TlRead ReqDHParams where
  readBytes := do
    let nonce : Int128 ← readBytes
    let serverNonce : Int128 ← readBytes
    let p : Bytes ← readBytes
    let q : Bytes ← readBytes
    let publicKeyFingerprint : Int64 ← readBytes
    let encryptedData : Bytes ← readBytes
    return { nonce, serverNonce, p, q, publicKeyFingerprint, encryptedData }

structure ServerDHParamsOk where
  nonce : Int128
  serverNonce : Int128
  encryptedAnswer : Bytes
  signature : Bytes
  deriving DecidableEq, Repr

instance : TlWrite ServerDHParamsOk where
  writeBytes o := writeBytes o.nonce ++ (writeBytes o.serverNonce ++ (
    writeBytes o.encryptedAnswer ++ writeBytes o.signature))

instance : TlRead ServerDHParamsOk where
  readBytes := do
    let nonce : Int128 ← readBytes
    let serverNonce : Int128 ← readBytes
    let encryptedAnswer : Bytes ← readBytes
    let signature : Bytes ← readBytes
    return { nonce, serverNonce, encryptedAnswer, signature }

structure ServerDHInnerData where
  nonce : Int128
  serverNonce : Int128
  g : Int32
  dhPrime : Bytes
  gA : Bytes
  serverTime : Int32
  deriving DecidableEq, Repr

instance : TlWrite ServerDHInnerData where
  writeBytes o := writeBytes o.nonce ++ (writeBytes o.serverNonce ++ (writeBytes o.g ++ (
    writeBytes o.dhPrime ++ (writeBytes o.gA ++ writeBytes o.serverTime))))

instance : TlRead ServerDHInnerData where
  readBytes := do
    let nonce : Int128 ← readBytes
    let serverNonce : Int128 ← readBytes
    let g : Int32 ← readBytes
    let dhPrime : Bytes ← readBytes
    let gA : Bytes ← readBytes
    let serverTime : Int32 ← readBytes
    return { nonce, serverNonce, g, dhPrime, gA, serverTime }

structure ClientDHInnerData where
  nonce : Int128
  serverNonce : Int128
  retryId : Int64
  gB : Bytes
  deriving DecidableEq, Repr

instance : TlWrite ClientDHInnerData where
  writeBytes o := writeBytes o.nonce ++ (writeBytes o.serverNonce ++ (writeBytes o.retryId ++
    writeBytes o.gB))

instance : TlRead ClientDHInnerData where
  readBytes := do
    let nonce : Int128 ← readBytes
    let serverNonce : Int128 ← readBytes
    let retryId : Int64 ← readBytes
    let gB : Bytes ← readBytes
    return { nonce, serverNonce, retryId, gB }

structure SetClientDHParams where
  nonce : Int128
  serverNonce : Int128
  encryptedData : Bytes
  deriving DecidableEq, Repr

instance : TlWrite SetClientDHParams where
  writeBytes o := writeBytes o.nonce ++ (writeBytes o.serverNonce ++ writeBytes o.encryptedData)

instance : TlRead SetClientDHParams where
  readBytes := do
    let nonce : Int128 ← readBytes
    let serverNonce : Int128 ← readBytes
    let encryptedData : Bytes ← readBytes
    return { nonce, serverNonce, encryptedData }

structure DHGenOk where
  nonce : Int128
  serverNonce : Int128
  newNonceHash1 : Int128
  deriving DecidableEq, Repr

instance : TlWrite DHGenOk where
  writeBytes o := writeBytes o.nonce ++ (writeBytes o.serverNonce ++ writeBytes o.newNonceHash1)

instance : TlRead DHGenOk where
  readBytes := do
    let nonce : Int128 ← readBytes
    let serverNonce : Int128 ← readBytes
    let newNonceHash1 : Int128 ← readBytes
    return { nonce, serverNonce, newNonceHash1 }

/-! ### Messages, chats and users -/

structure Message where
  id : MessageId
  chatId : ChatId
  senderId : UserId
  text : String
  timestamp : Int64
  isOutgoing : Bool
  read : Bool
  delivered : Bool
  deriving DecidableEq, Repr

instance : TlWrite Message where
  writeBytes o := writeBytes o.id ++ (writeBytes o.chatId ++ (writeBytes o.senderId ++ (
    writeBytes o.text ++ (writeBytes o.timestamp ++ (writeBytes o.isOutgoing ++ (
    writeBytes o.read ++ writeBytes o.delivered))))))

instance : TlRead Message where
  readBytes := do
    let id : MessageId ← readBytes
    let chatId : ChatId ← readBytes
    let senderId : UserId ← readBytes
    let text : String ← readBytes
    let timestamp : Int64 ← readBytes
    let isOutgoing : Bool ← readBytes
    let read : Bool ← readBytes
    let delivered : Bool ← readBytes
    return { id, chatId, senderId, text, timestamp, isOutgoing, read, delivered }

/-- Four 64-bit words, a `String` and three flags, rounded up to the alignment. -/
instance : MemSize Message := ⟨64⟩

structure Chat where
  id : ChatId
  title : String
  participants : List UserId
  isGroup : Bool
  deriving DecidableEq, Repr

instance : TlWrite Chat where
  writeBytes o := writeBytes o.id ++ (writeBytes o.title ++ (writeBytes o.participants ++
    writeBytes o.isGroup))

instance : TlRead Chat where
  readBytes := do
    let id : ChatId ← readBytes
    let title : String ← readBytes
    let participants : List UserId ← readBytes
    let isGroup : Bool ← readBytes
    return { id, title, participants, isGroup }

structure SendMessage where
  chatId : ChatId
  text : String
  randomId : Int64
  deriving DecidableEq, Repr

instance : TlWrite SendMessage where
  writeBytes o := writeBytes o.chatId ++ (writeBytes o.text ++ writeBytes o.randomId)

instance : TlRead SendMessage where
  readBytes := do
    let chatId : ChatId ← readBytes
    let text : String ← readBytes
    let randomId : Int64 ← readBytes
    return { chatId, text, randomId }

structure SendMessageAck where
  messageId : MessageId
  deriving DecidableEq, Repr

instance : TlWrite SendMessageAck where
  writeBytes o := writeBytes o.messageId

instance : TlRead SendMessageAck where
  readBytes := do
    let messageId : MessageId ← readBytes
    return { messageId }

structure GetHistory where
  chatId : ChatId
  offset : Int32
  limit : Int32
  deriving DecidableEq, Repr

instance : TlWrite GetHistory where
  writeBytes o := writeBytes o.chatId ++ (writeBytes o.offset ++ writeBytes o.limit)

instance : TlRead GetHistory where
  readBytes := do
    let chatId : ChatId ← readBytes
    let offset : Int32 ← readBytes
    let limit : Int32 ← readBytes
    return { chatId, offset, limit }

structure HistoryResult where
  messages : List Message
  totalCount : Int32
  deriving DecidableEq, Repr

instance : TlWrite HistoryResult where
  writeBytes o := writeBytes o.messages ++ writeBytes o.totalCount

instance : TlRead HistoryResult where
  readBytes := do
    let messages : List Message ← readBytes
    let totalCount : Int32 ← readBytes
    return { messages, totalCount }

structure UserStatusUpdate where
  userId : UserId
  status : UserStatus
  deriving DecidableEq, Repr

instance : TlWrite UserStatusUpdate where
  writeBytes o := writeBytes o.userId ++ writeBytes o.status

instance : TlRead UserStatusUpdate where
  readBytes := do
    let userId : UserId ← readBytes
    let status : UserStatus ← readBytes
    return { userId, status }

structure SignUp where
  phone : String
  password : String
  deriving DecidableEq, Repr

instance : TlWrite SignUp where
  writeBytes o := writeBytes o.phone ++ writeBytes o.password

instance : TlRead SignUp where
  readBytes := do
    let phone : String ← readBytes
    let password : String ← readBytes
    return { phone, password }

/-! ### Dialogs and groups -/

structure DialogInfo where
  id : DialogId
  title : String
  isGroup : Bool
  participants : List UserId
  lastMessage : Option Message
  unreadCount : Int32
  deriving DecidableEq, Repr

instance : TlWrite DialogInfo where
  writeBytes o := writeBytes o.id ++ (writeBytes o.title ++ (writeBytes o.isGroup ++ (
    writeBytes o.participants ++ (writeBytes o.lastMessage ++ writeBytes o.unreadCount))))

instance : TlRead DialogInfo where
  readBytes := do
    let id : DialogId ← readBytes
    let title : String ← readBytes
    let isGroup : Bool ← readBytes
    let participants : List UserId ← readBytes
    let lastMessage : Option Message ← readBytes
    let unreadCount : Int32 ← readBytes
    return { id, title, isGroup, participants, lastMessage, unreadCount }

/-- An id, a `String`, a `Vec`, an optional `Message`, a flag and a counter, rounded up. -/
instance : MemSize DialogInfo := ⟨128⟩

structure DialogList where
  dialogs : List DialogInfo
  deriving DecidableEq, Repr

instance : TlWrite DialogList where
  writeBytes o := writeBytes o.dialogs

instance : TlRead DialogList where
  readBytes := do
    let dialogs : List DialogInfo ← readBytes
    return { dialogs }

structure CreatePrivateDialog where
  userId : UserId
  deriving DecidableEq, Repr

instance : TlWrite CreatePrivateDialog where
  writeBytes o := writeBytes o.userId

instance : TlRead CreatePrivateDialog where
  readBytes := do
    let userId : UserId ← readBytes
    return { userId }

structure CreateGroup where
  title : String
  participants : List UserId
  deriving DecidableEq, Repr

instance : TlWrite CreateGroup where
  writeBytes o := writeBytes o.title ++ writeBytes o.participants

instance : TlRead CreateGroup where
  readBytes := do
    let title : String ← readBytes
    let participants : List UserId ← readBytes
    return { title, participants }

structure AddGroupParticipant where
  dialogId : DialogId
  userId : UserId
  deriving DecidableEq, Repr

instance : TlWrite AddGroupParticipant where
  writeBytes o := writeBytes o.dialogId ++ writeBytes o.userId

instance : TlRead AddGroupParticipant where
  readBytes := do
    let dialogId : DialogId ← readBytes
    let userId : UserId ← readBytes
    return { dialogId, userId }

structure RemoveGroupParticipant where
  dialogId : DialogId
  userId : UserId
  deriving DecidableEq, Repr

instance : TlWrite RemoveGroupParticipant where
  writeBytes o := writeBytes o.dialogId ++ writeBytes o.userId

instance : TlRead RemoveGroupParticipant where
  readBytes := do
    let dialogId : DialogId ← readBytes
    let userId : UserId ← readBytes
    return { dialogId, userId }

structure GetDialogs where
  deriving DecidableEq, Repr

instance : TlWrite GetDialogs where
  writeBytes _ := []

instance : TlRead GetDialogs where
  readBytes := return {}

end KoSta.Tl
