import KoSta.Tl.Constructors

/-! The boxed objects: a constructor id followed by the record it announces. -/
namespace KoSta.Tl
open Lib

/-! ### Constructor ids -/

def reqPqId : UInt32 := 0x60469778
def resPqId : UInt32 := 0x9a2b3c4d
def pqInnerDataId : UInt32 := 0x83c95aec
def reqDhParamsId : UInt32 := 0xd712e4be
def serverDhParamsOkId : UInt32 := 0xd0e60441
def serverDhInnerDataId : UInt32 := 0xb5890dba
def clientDhInnerDataId : UInt32 := 0x6643b654
def setClientDhParamsId : UInt32 := 0xf5045f1f
def dhGenOkId : UInt32 := 0x3bcbf734
def messageId : UInt32 := 0x9b9c4b5d
def chatId : UInt32 := 0x7a8f3c1e
def sendMessageId : UInt32 := 0x1a2b3c4d
def sendMessageAckId : UInt32 := 0x2b3c4d5e
def getHistoryId : UInt32 := 0x3c4d5e6f
def historyResultId : UInt32 := 0x4d5e6f70
def userStatusId : UInt32 := 0x5e6f7081
def signUpId : UInt32 := 0x8a9b7c6d
def createPrivateDialogId : UInt32 := 0xa1b2c3d4
def createGroupId : UInt32 := 0xb2c3d4e5
def addGroupParticipantId : UInt32 := 0xc3d4e5f6
def removeGroupParticipantId : UInt32 := 0xd4e5f607
def getDialogsId : UInt32 := 0xf6071829
def dialogInfoId : UInt32 := 0x0718293a
def dialogListId : UInt32 := 0x18293a4b

inductive TlObject where
  | reqPq (obj : ReqPq)
  | resPQ (obj : ResPQ)
  | pqInnerData (obj : PqInnerData)
  | reqDHParams (obj : ReqDHParams)
  | serverDHParamsOk (obj : ServerDHParamsOk)
  | serverDHInnerData (obj : ServerDHInnerData)
  | clientDHInnerData (obj : ClientDHInnerData)
  | setClientDHParams (obj : SetClientDHParams)
  | dhGenOk (obj : DHGenOk)
  | message (obj : Message)
  | chat (obj : Chat)
  | sendMessage (obj : SendMessage)
  | sendMessageAck (obj : SendMessageAck)
  | getHistory (obj : GetHistory)
  | historyResult (obj : HistoryResult)
  | userStatusUpdate (obj : UserStatusUpdate)
  | signUp (obj : SignUp)
  | createPrivateDialog (obj : CreatePrivateDialog)
  | createGroup (obj : CreateGroup)
  | addGroupParticipant (obj : AddGroupParticipant)
  | removeGroupParticipant (obj : RemoveGroupParticipant)
  | getDialogs (obj : GetDialogs)
  | dialogInfo (obj : DialogInfo)
  | dialogList (obj : DialogList)
  deriving DecidableEq, Repr

def TlObject.writeBoxed : TlObject → Bytes
  | .reqPq obj => u32ToLeBytes reqPqId ++ writeBytes obj
  | .resPQ obj => u32ToLeBytes resPqId ++ writeBytes obj
  | .pqInnerData obj => u32ToLeBytes pqInnerDataId ++ writeBytes obj
  | .reqDHParams obj => u32ToLeBytes reqDhParamsId ++ writeBytes obj
  | .serverDHParamsOk obj => u32ToLeBytes serverDhParamsOkId ++ writeBytes obj
  | .serverDHInnerData obj => u32ToLeBytes serverDhInnerDataId ++ writeBytes obj
  | .clientDHInnerData obj => u32ToLeBytes clientDhInnerDataId ++ writeBytes obj
  | .setClientDHParams obj => u32ToLeBytes setClientDhParamsId ++ writeBytes obj
  | .dhGenOk obj => u32ToLeBytes dhGenOkId ++ writeBytes obj
  | .message obj => u32ToLeBytes messageId ++ writeBytes obj
  | .chat obj => u32ToLeBytes chatId ++ writeBytes obj
  | .sendMessage obj => u32ToLeBytes sendMessageId ++ writeBytes obj
  | .sendMessageAck obj => u32ToLeBytes sendMessageAckId ++ writeBytes obj
  | .getHistory obj => u32ToLeBytes getHistoryId ++ writeBytes obj
  | .historyResult obj => u32ToLeBytes historyResultId ++ writeBytes obj
  | .userStatusUpdate obj => u32ToLeBytes userStatusId ++ writeBytes obj
  | .signUp obj => u32ToLeBytes signUpId ++ writeBytes obj
  | .createPrivateDialog obj => u32ToLeBytes createPrivateDialogId ++ writeBytes obj
  | .createGroup obj => u32ToLeBytes createGroupId ++ writeBytes obj
  | .addGroupParticipant obj => u32ToLeBytes addGroupParticipantId ++ writeBytes obj
  | .removeGroupParticipant obj => u32ToLeBytes removeGroupParticipantId ++ writeBytes obj
  | .getDialogs obj => u32ToLeBytes getDialogsId ++ writeBytes obj
  | .dialogInfo obj => u32ToLeBytes dialogInfoId ++ writeBytes obj
  | .dialogList obj => u32ToLeBytes dialogListId ++ writeBytes obj

/-- One arm of `read_boxed`: the record alone, wrapped in its constructor. -/
def boxed {α : Type} [TlRead α] (wrap : α → TlObject) : Reader Error TlObject := do
  let obj : α ← readBytes
  return wrap obj

/-- The `match` of `read_boxed`, its arms in the order of the source. -/
def readConstructor (constructorId : UInt32) : Reader Error TlObject :=
  if constructorId = reqPqId then boxed TlObject.reqPq
  else if constructorId = resPqId then boxed TlObject.resPQ
  else if constructorId = pqInnerDataId then boxed TlObject.pqInnerData
  else if constructorId = reqDhParamsId then boxed TlObject.reqDHParams
  else if constructorId = serverDhParamsOkId then boxed TlObject.serverDHParamsOk
  else if constructorId = serverDhInnerDataId then boxed TlObject.serverDHInnerData
  else if constructorId = clientDhInnerDataId then boxed TlObject.clientDHInnerData
  else if constructorId = setClientDhParamsId then boxed TlObject.setClientDHParams
  else if constructorId = dhGenOkId then boxed TlObject.dhGenOk
  else if constructorId = messageId then boxed TlObject.message
  else if constructorId = chatId then boxed TlObject.chat
  else if constructorId = sendMessageId then boxed TlObject.sendMessage
  else if constructorId = sendMessageAckId then boxed TlObject.sendMessageAck
  else if constructorId = getHistoryId then boxed TlObject.getHistory
  else if constructorId = historyResultId then boxed TlObject.historyResult
  else if constructorId = userStatusId then boxed TlObject.userStatusUpdate
  else if constructorId = signUpId then boxed TlObject.signUp
  else if constructorId = createPrivateDialogId then boxed TlObject.createPrivateDialog
  else if constructorId = createGroupId then boxed TlObject.createGroup
  else if constructorId = addGroupParticipantId then boxed TlObject.addGroupParticipant
  else if constructorId = removeGroupParticipantId then boxed TlObject.removeGroupParticipant
  else if constructorId = getDialogsId then boxed TlObject.getDialogs
  else if constructorId = dialogInfoId then boxed TlObject.dialogInfo
  else if constructorId = dialogListId then boxed TlObject.dialogList
  else Reader.fail (.invalidConstructor constructorId)

def TlObject.readBoxed : Reader Error TlObject := do
  let constructorId : UInt32 ← readBytes
  readConstructor constructorId

end KoSta.Tl
