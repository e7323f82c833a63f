import KoSta.Tl.Roundtrip
import Mathlib.Algebra.GroupWithZero.Nat

/-! How many bytes the records of an answer take. -/
namespace KoSta.Tl
open Lib

/-- The bytes that data of this length takes with its header and its padding. -/
def tlSize (len : Nat) : Nat := (if len ≤ 253 then 1 else 4) + (len + padding len)

def textSize (s : String) : Nat := tlSize (asBytes s).length

def messageSize (text : String) : Nat := 44 + textSize text

/-- A dialog without a last message. -/
def dialogInfoSize (title : String) (participants : Nat) : Nat :=
  24 + textSize title + 8 * participants

theorem length_writeTlBytes (data : Bytes) : (writeTlBytes data).length = tlSize data.length := by
  unfold writeTlBytes writeTlLength tlSize
  rw [List.length_append, List.length_append, List.length_replicate]
  split
  · rfl
  · rw [List.length_cons, length_leBytes]

theorem length_asBytes_replicate (n : Nat) :
    (asBytes (String.ofList (List.replicate n 'a'))).length = n := by
  have hsize : 'a'.utf8Size = 1 := by decide
  change (String.ofList (List.replicate n 'a')).toByteArray.data.size = n
  rw [String.toByteArray_ofList]
  simp [List.utf8Encode, hsize]

theorem tlSize_pos (len : Nat) : 0 < tlSize len := by
  unfold tlSize
  split <;> omega

theorem tlSize_mod (len : Nat) : tlSize len % 4 ≤ 1 := by
  unfold tlSize padding
  split <;> omega

theorem tlSize_of_le {len k : Nat} (h : len ≤ 4 * k) (hk : k ≤ 63) : tlSize len ≤ 4 * k + 1 := by
  unfold tlSize padding
  split <;> omega

theorem tlSize_le (len : Nat) : tlSize len ≤ len + 7 := by
  unfold tlSize padding
  split <;> omega

@[simp] theorem length_writeBytes_string (s : String) : (writeBytes s).length = textSize s :=
  length_writeTlBytes _

@[simp] theorem length_writeBytes_bytes (data : Bytes) : (writeBytes data).length =
    tlSize data.length :=
  length_writeTlBytes _

@[simp] theorem length_writeBytes_i32 (x : Int32) : (writeBytes x).length = 4 :=
  length_i32ToLeBytes x

@[simp] theorem length_writeBytes_i64 (x : Int64) : (writeBytes x).length = 8 :=
  length_i64ToLeBytes x

@[simp] theorem length_writeBytes_bool (b : Bool) : (writeBytes b).length = 4 :=
  length_i32ToLeBytes _

@[simp] theorem length_writeBytes_int128 (x : Int128) : (writeBytes x).length = 16 :=
  x.val.length_toList

@[simp] theorem length_writeBytes_int256 (x : Int256) : (writeBytes x).length = 32 :=
  x.val.length_toList

theorem length_flatMap_eq_sum {α : Type} {f : α → Bytes} {size : α → Nat} {as : List α}
    (h : ∀ a ∈ as, (f a).length = size a) : (as.flatMap f).length = (as.map size).sum := by
  rw [List.length_flatMap]
  exact congrArg List.sum (List.map_congr_left h)

theorem length_flatMap_const {α : Type} {f : α → Bytes} {n : Nat} (h : ∀ a, (f a).length = n)
    (as : List α) : (as.flatMap f).length = n * as.length := by
  rw [length_flatMap_eq_sum fun a _ => h a, List.map_const', List.sum_replicate_nat,
    Nat.mul_comm]

@[simp] theorem length_writeBytes_users (users : List UserId) :
    (writeBytes users).length = 4 + 8 * users.length := by
  change (i32ToLeBytes _ ++ users.flatMap writeBytes).length = _
  rw [List.length_append, length_i32ToLeBytes, length_flatMap_const (n := 8) fun u => ?_]
  exact length_i64ToLeBytes u.val

@[simp] theorem length_writeBytes_fingerprints (items : List Int64) :
    (writeBytes items).length = 4 + 8 * items.length := by
  change (i32ToLeBytes _ ++ items.flatMap writeBytes).length = _
  rw [List.length_append, length_i32ToLeBytes, length_flatMap_const (n := 8) length_writeBytes_i64]

theorem length_writeBytes_message (m : Message) : (writeBytes m).length = messageSize m.text := by
  have hids : (writeBytes m.id).length = 8 ∧ (writeBytes m.chatId).length = 8 ∧
      (writeBytes m.senderId).length = 8 :=
    ⟨length_i64ToLeBytes _, length_i64ToLeBytes _, length_i64ToLeBytes _⟩
  change (writeBytes m.id ++ (writeBytes m.chatId ++ (writeBytes m.senderId ++ (
    writeBytes m.text ++ (writeBytes m.timestamp ++ (writeBytes m.isOutgoing ++ (
    writeBytes m.read ++ writeBytes m.delivered))))))).length = _
  simp only [List.length_append, hids, length_writeBytes_string, length_writeBytes_i64,
    length_writeBytes_bool, messageSize]
  omega

theorem length_writeBytes_dialogInfo {info : DialogInfo} (h : info.lastMessage = none) :
    (writeBytes info).length = dialogInfoSize info.title info.participants.length := by
  have hid : (writeBytes info.id).length = 8 := length_i64ToLeBytes _
  have hlast : (writeBytes info.lastMessage).length = 4 := by
    rw [h]
    exact length_i32ToLeBytes 0
  change (writeBytes info.id ++ (writeBytes info.title ++ (writeBytes info.isGroup ++ (
    writeBytes info.participants ++ (writeBytes info.lastMessage ++
      writeBytes info.unreadCount))))).length = _
  simp only [List.length_append, hid, hlast, length_writeBytes_string, length_writeBytes_i32,
    length_writeBytes_bool, length_writeBytes_users, dialogInfoSize]
  omega

/-! ### Boxed objects -/

theorem length_sendMessage (req : SendMessage) :
    (TlObject.sendMessage req).writeBoxed.length = 20 + textSize req.text := by
  have hid : (writeBytes req.chatId).length = 8 := length_i64ToLeBytes _
  change (u32ToLeBytes _ ++ (writeBytes req.chatId ++ (writeBytes req.text ++
    writeBytes req.randomId))).length = _
  simp only [List.length_append, length_u32ToLeBytes, hid, length_writeBytes_string,
    length_writeBytes_i64]
  omega

theorem length_reqPq (req : ReqPq) : (TlObject.reqPq req).writeBoxed.length = 20 := by
  change (u32ToLeBytes _ ++ writeBytes req.nonce).length = _
  rw [List.length_append, length_u32ToLeBytes, length_writeBytes_int128]

theorem length_pqInnerData (inner : PqInnerData) :
    (TlObject.pqInnerData inner).writeBoxed.length =
      68 + tlSize inner.pq.length + tlSize inner.p.length + tlSize inner.q.length := by
  change (u32ToLeBytes _ ++ (writeBytes inner.pq ++ (writeBytes inner.p ++ (writeBytes inner.q ++ (
    writeBytes inner.nonce ++
      (writeBytes inner.serverNonce ++ writeBytes inner.newNonce)))))).length = _
  simp only [List.length_append, length_u32ToLeBytes, length_writeBytes_int128,
    length_writeBytes_int256, length_writeBytes_bytes]
  omega

theorem length_reqDHParams (req : ReqDHParams) :
    (TlObject.reqDHParams req).writeBoxed.length = 44 + tlSize req.p.length +
      tlSize req.q.length + tlSize req.encryptedData.length := by
  change (u32ToLeBytes _ ++ (writeBytes req.nonce ++ (writeBytes req.serverNonce ++ (
    writeBytes req.p ++ (writeBytes req.q ++ (writeBytes req.publicKeyFingerprint ++
      writeBytes req.encryptedData)))))).length = _
  simp only [List.length_append, length_u32ToLeBytes, length_writeBytes_int128,
    length_writeBytes_i64, length_writeBytes_bytes]
  omega

theorem length_clientDHInnerData (inner : ClientDHInnerData) :
    (TlObject.clientDHInnerData inner).writeBoxed.length = 44 + tlSize inner.gB.length := by
  change (u32ToLeBytes _ ++ (writeBytes inner.nonce ++ (writeBytes inner.serverNonce ++ (
    writeBytes inner.retryId ++ writeBytes inner.gB)))).length = _
  simp only [List.length_append, length_u32ToLeBytes, length_writeBytes_int128,
    length_writeBytes_i64, length_writeBytes_bytes]
  omega

theorem length_setClientDHParams (req : SetClientDHParams) :
    (TlObject.setClientDHParams req).writeBoxed.length = 36 + tlSize req.encryptedData.length := by
  change (u32ToLeBytes _ ++ (writeBytes req.nonce ++ (writeBytes req.serverNonce ++
    writeBytes req.encryptedData))).length = _
  simp only [List.length_append, length_u32ToLeBytes, length_writeBytes_int128,
    length_writeBytes_bytes]
  omega

theorem length_resPQ (answer : ResPQ) : (TlObject.resPQ answer).writeBoxed.length =
    40 + tlSize answer.pq.length + tlSize answer.p.length + tlSize answer.q.length +
      8 * answer.serverPublicKeyFingerprints.length := by
  change (u32ToLeBytes _ ++ (writeBytes answer.nonce ++ (writeBytes answer.serverNonce ++ (
    writeBytes answer.pq ++ (writeBytes answer.p ++ (writeBytes answer.q ++
      writeBytes answer.serverPublicKeyFingerprints)))))).length = _
  simp only [List.length_append, length_u32ToLeBytes, length_writeBytes_int128,
    length_writeBytes_bytes, length_writeBytes_fingerprints]
  omega

theorem length_serverDHParamsOk (answer : ServerDHParamsOk) :
    (TlObject.serverDHParamsOk answer).writeBoxed.length =
      36 + tlSize answer.encryptedAnswer.length + tlSize answer.signature.length := by
  change (u32ToLeBytes _ ++ (writeBytes answer.nonce ++ (writeBytes answer.serverNonce ++ (
    writeBytes answer.encryptedAnswer ++ writeBytes answer.signature)))).length = _
  simp only [List.length_append, length_u32ToLeBytes, length_writeBytes_int128,
    length_writeBytes_bytes]
  omega

theorem length_dhGenOk (answer : DHGenOk) : (TlObject.dhGenOk answer).writeBoxed.length = 52 := by
  change (u32ToLeBytes _ ++ (writeBytes answer.nonce ++ (writeBytes answer.serverNonce ++
    writeBytes answer.newNonceHash1))).length = _
  simp only [List.length_append, length_u32ToLeBytes, length_writeBytes_int128]

theorem length_message (m : Message) :
    (TlObject.message m).writeBoxed.length = 4 + messageSize m.text := by
  change (u32ToLeBytes _ ++ writeBytes m).length = _
  rw [List.length_append, length_u32ToLeBytes, length_writeBytes_message]

theorem length_historyResult (result : HistoryResult) :
    (TlObject.historyResult result).writeBoxed.length =
      12 + (result.messages.map fun m => messageSize m.text).sum := by
  change (u32ToLeBytes _ ++ ((i32ToLeBytes _ ++ result.messages.flatMap writeBytes) ++
    writeBytes result.totalCount)).length = _
  have hsum := length_flatMap_eq_sum fun m (_ : m ∈ result.messages) => length_writeBytes_message m
  simp only [List.length_append, length_u32ToLeBytes, length_i32ToLeBytes, length_writeBytes_i32,
    hsum]
  omega

theorem length_dialogInfo {info : DialogInfo} (h : info.lastMessage = none) :
    (TlObject.dialogInfo info).writeBoxed.length =
      4 + dialogInfoSize info.title info.participants.length := by
  change (u32ToLeBytes _ ++ writeBytes info).length = _
  rw [List.length_append, length_u32ToLeBytes, length_writeBytes_dialogInfo h]

theorem length_dialogList {dialogs : List DialogInfo} (h : ∀ d ∈ dialogs, d.lastMessage = none) :
    (TlObject.dialogList ⟨dialogs⟩).writeBoxed.length =
      8 + (dialogs.map fun d => dialogInfoSize d.title d.participants.length).sum := by
  change (u32ToLeBytes _ ++ (i32ToLeBytes _ ++ dialogs.flatMap writeBytes)).length = _
  have hsum := length_flatMap_eq_sum fun d hd => length_writeBytes_dialogInfo (h d hd)
  simp only [List.length_append, length_u32ToLeBytes, length_i32ToLeBytes, hsum]
  omega

end KoSta.Tl
