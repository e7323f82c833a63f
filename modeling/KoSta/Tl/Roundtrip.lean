import KoSta.Tl.Object
import KoSta.Transport.Abridged

/-! Every reader takes its own writer's bytes back, and not one byte more. -/
namespace KoSta.Tl
open Lib Lib.Reader

/-- The three-byte length form ends here; everything a frame can carry lies far below. -/
def lengthLimit : Nat := 2 ^ 24

class LawfulTl (α : Type) [TlWrite α] [TlRead α] : Prop where
  reads : ∀ a : α, Reads lengthLimit readBytes (writeBytes a) a

export LawfulTl (reads)

/-- What a vector needs of its elements: no empty encodings, and a sensible size in memory. -/
class LawfulElem (α : Type) [TlWrite α] [MemSize α] : Prop where
  encoding_pos : ∀ a : α, 0 < (writeBytes a).length
  memSize_pos : 0 < memSize α
  memSize_le : memSize α ≤ 2 ^ 31

/-! ### Integers -/

@[simp] theorem length_i32ToLeBytes (x : Int32) : (i32ToLeBytes x).length = 4 := length_leBytes 4 _

@[simp] theorem length_u32ToLeBytes (x : UInt32) : (u32ToLeBytes x).length = 4 := length_leBytes 4 _

@[simp] theorem length_i64ToLeBytes (x : Int64) : (i64ToLeBytes x).length = 8 := length_leBytes 8 _

@[simp] theorem i32FromLeBytes_i32ToLeBytes (x : Int32) : i32FromLeBytes (i32ToLeBytes x) = x := by
  have h : x.toUInt32.toNat < 256 ^ 4 := x.toUInt32.toNat_lt
  rw [i32FromLeBytes, i32ToLeBytes, ofLeBytes_leBytes_of_lt h, UInt32.ofNat_toNat,
    Int32.toInt32_toUInt32]

@[simp] theorem u32FromLeBytes_u32ToLeBytes (x : UInt32) : u32FromLeBytes (u32ToLeBytes x) = x := by
  have h : x.toNat < 256 ^ 4 := x.toNat_lt
  rw [u32FromLeBytes, u32ToLeBytes, ofLeBytes_leBytes_of_lt h, UInt32.ofNat_toNat]

@[simp] theorem i64FromLeBytes_i64ToLeBytes (x : Int64) : i64FromLeBytes (i64ToLeBytes x) = x := by
  have h : x.toUInt64.toNat < 256 ^ 8 := x.toUInt64.toNat_lt
  rw [i64FromLeBytes, i64ToLeBytes, ofLeBytes_leBytes_of_lt h, UInt64.ofNat_toNat,
    Int64.toInt64_toUInt64]

theorem reads_fixed {α : Type} {n : Nat} {bs : Bytes} (f : Bytes → α) (h : bs.length = n) :
    Reads lengthLimit (readExact n >>= fun v => pure (f v.toList)) bs (f bs) := by
  obtain ⟨v, rfl⟩ := exists_vector h
  exact (Reads.exact v).map

instance : LawfulTl Int32 where
  reads x := by
    have h := reads_fixed i32FromLeBytes (length_i32ToLeBytes x)
    rwa [i32FromLeBytes_i32ToLeBytes] at h

instance : LawfulTl UInt32 where
  reads x := by
    have h := reads_fixed u32FromLeBytes (length_u32ToLeBytes x)
    rwa [u32FromLeBytes_u32ToLeBytes] at h

instance : LawfulTl Int64 where
  reads x := by
    have h := reads_fixed i64FromLeBytes (length_i64ToLeBytes x)
    rwa [i64FromLeBytes_i64ToLeBytes] at h

instance : LawfulTl Int128 where
  reads x := (Reads.exact x.val).map

instance : LawfulTl Int256 where
  reads x := (Reads.exact x.val).map

/-! ### Strings -/

theorem reads_body {n : Nat} (v : Vector UInt8 n) : Reads lengthLimit (readTlBody n)
    (v.toList ++ List.replicate (padding n) 0) v.toList := by
  obtain ⟨w, hw⟩ : ∃ w : Vector UInt8 (padding n), w.toList = List.replicate (padding n) 0 :=
    exists_vector List.length_replicate
  rw [← hw]
  exact (Reads.exact v).bind (Reads.exact w).map

theorem reads_body_of_length {data : Bytes} {n : Nat} (h : data.length = n) :
    Reads lengthLimit (readTlBody n) (data ++ List.replicate (padding data.length) 0) data := by
  obtain ⟨v, rfl⟩ := exists_vector h
  rw [h]
  exact reads_body v

theorem reads_shortForm {data : Bytes} (h : data.length ≤ 253) :
    Reads lengthLimit readTlBytes (writeTlBytes data) data := by
  have hbyte : (UInt8.ofNat data.length).toNat = data.length := by
    rw [UInt8.toNat_ofNat']
    omega
  have hne : UInt8.ofNat data.length ≠ 254 := by
    intro he
    rw [he] at hbyte
    have : (254 : UInt8).toNat = 254 := rfl
    omega
  rw [writeTlBytes, writeTlLength, if_pos h]
  refine (Reads.exact #v[UInt8.ofNat data.length]).bind ?_
  have hhead : #v[UInt8.ofNat data.length][0] = UInt8.ofNat data.length := rfl
  rw [hhead, if_neg hne]
  exact reads_body_of_length hbyte.symm

/-- Below the limit the three length bytes lose nothing. -/
theorem reads_longForm {data : Bytes} (h : ¬ data.length ≤ 253) :
    Reads lengthLimit readTlBytes (writeTlBytes data) data := by
  intro hlen
  have hlt : data.length < 256 ^ 3 := by
    simp only [writeTlBytes, List.length_append, lengthLimit] at hlen
    omega
  obtain ⟨v, hv⟩ := exists_vector (length_leBytes 3 data.length)
  have hread : Reads lengthLimit readTlBytes ([254] ++ (v.toList ++ (data ++
      List.replicate (padding data.length) 0))) data := by
    refine (Reads.exact #v[254]).bind ((Reads.exact v).bind ?_)
    rw [hv, ofLeBytes_leBytes_of_lt hlt]
    exact reads_body_of_length rfl
  rw [hv] at hread
  rw [writeTlBytes, writeTlLength, if_neg h] at hlen ⊢
  exact hread hlen

theorem reads_tlBytes (data : Bytes) :
    Reads lengthLimit readTlBytes (writeTlBytes data) data := by
  by_cases h : data.length ≤ 253
  · exact reads_shortForm h
  · exact reads_longForm h

instance : LawfulTl Bytes where
  reads := reads_tlBytes

theorem fromUtf8_asBytes (s : String) : fromUtf8 (asBytes s) = pure s := by
  have hs : (⟨(asBytes s).toArray⟩ : ByteArray) = s.toUTF8 := rfl
  have hv : String.fromUTF8? s.toUTF8 = some s := by
    simp [String.fromUTF8?, String.toUTF8, s.isValidUTF8, String.fromUTF8]
  rw [fromUtf8, hs, hv]

instance : LawfulTl String where
  reads s := by
    have h := (reads_tlBytes (asBytes s)).bind (k := fromUtf8) (y := []) (b := s)
      (by rw [fromUtf8_asBytes]; exact Reads.pure s)
    rwa [List.append_nil] at h

/-! ### Vectors, booleans and optional values -/

theorem length_le_encoding {α : Type} [TlWrite α] [MemSize α] [LawfulElem α] (as : List α) :
    as.length ≤ (as.flatMap writeBytes).length := by
  induction as with
  | nil => simp
  | cons a as ih =>
    have ha := LawfulElem.encoding_pos a
    rw [List.flatMap_cons, List.length_append, List.length_cons]
    omega

instance {α : Type} [TlWrite α] [TlRead α] [MemSize α] [LawfulTl α] [LawfulElem α] :
    LawfulTl (List α) where
  reads as := by
    intro hlen
    have hcount := length_le_encoding as
    have hsize : memSize α ≤ 2 ^ 31 := LawfulElem.memSize_le
    have hlt : as.length < 2 ^ 24 := by
      simp only [writeBytes, List.length_append, lengthLimit] at hlen
      omega
    have husize := asUsize_ofNat (n := as.length) (by omega)
    have hcap : withCapacity (asUsize (Int32.ofNat as.length)) (memSize α) = pure () := by
      have : as.length * memSize α ≤ 2 ^ 24 * 2 ^ 31 := Nat.mul_le_mul (by omega) hsize
      rw [husize, withCapacity, if_pos]
      unfold isizeMax
      omega
    refine ((reads (Int32.ofNat as.length)).bind ?_) hlen
    rw [hcap, husize]
    exact (Reads.pure ()).bind (Reads.times as fun a _ => reads a)

instance : LawfulTl Bool where
  reads b := by
    have h := (reads (if b then 1 else 0 : Int32)).map (f := fun val => val != 0)
    cases b <;> exact h

instance {α : Type} [TlWrite α] [TlRead α] [LawfulTl α] : LawfulTl (Option α) where
  reads o := by
    cases o with
    | some val => exact (reads (1 : Int32)).bind (reads val).map
    | none => exact (reads (0 : Int32)).bind (y := []) (Reads.pure none)

/-! ### Identifiers and user status -/

instance : LawfulTl MessageId where
  reads x := (reads x.val).map

instance : LawfulTl ChatId where
  reads x := (reads x.val).map

instance : LawfulTl UserId where
  reads x := (reads x.val).map

instance : LawfulTl DialogId where
  reads x := (reads x.val).map

@[simp] theorem UserStatus.ofCode_code (s : UserStatus) : ofCode s.code = some s := by
  cases s <;> rfl

instance : LawfulTl UserStatus where
  reads s := by
    have h := (reads s.code).bind (y := []) (b := s)
      (k := fun code => match UserStatus.ofCode code with
        | some status => pure status
        | none => Reader.fail (.custom "Invalid UserStatus code"))
      (by rw [UserStatus.ofCode_code]; exact Reads.pure s)
    rwa [List.append_nil] at h

/-! ### Records -/

instance : LawfulTl ReqPq where
  reads o := (reads o.nonce).map

instance : LawfulElem Int64 where
  encoding_pos o := by simp [writeBytes]
  memSize_pos := by decide
  memSize_le := by decide

instance : LawfulElem UserId where
  encoding_pos o := by simp [writeBytes]
  memSize_pos := by decide
  memSize_le := by decide

instance : LawfulTl ResPQ where
  reads o := (reads o.nonce).bind ((reads o.serverNonce).bind ((reads o.pq).bind (
    (reads o.p).bind ((reads o.q).bind (reads o.serverPublicKeyFingerprints).map))))

instance : LawfulTl PqInnerData where
  reads o := (reads o.pq).bind ((reads o.p).bind ((reads o.q).bind ((reads o.nonce).bind (
    (reads o.serverNonce).bind (reads o.newNonce).map))))

instance : LawfulTl ReqDHParams where
  reads o := (reads o.nonce).bind ((reads o.serverNonce).bind ((reads o.p).bind ((reads o.q).bind (
    (reads o.publicKeyFingerprint).bind (reads o.encryptedData).map))))

instance : LawfulTl ServerDHParamsOk where
  reads o := (reads o.nonce).bind ((reads o.serverNonce).bind ((reads o.encryptedAnswer).bind
    (reads o.signature).map))

instance : LawfulTl ServerDHInnerData where
  reads o := (reads o.nonce).bind ((reads o.serverNonce).bind ((reads o.g).bind (
    (reads o.dhPrime).bind ((reads o.gA).bind (reads o.serverTime).map))))

instance : LawfulTl ClientDHInnerData where
  reads o := (reads o.nonce).bind ((reads o.serverNonce).bind ((reads o.retryId).bind
    (reads o.gB).map))

instance : LawfulTl SetClientDHParams where
  reads o := (reads o.nonce).bind ((reads o.serverNonce).bind (reads o.encryptedData).map)

instance : LawfulTl DHGenOk where
  reads o := (reads o.nonce).bind ((reads o.serverNonce).bind (reads o.newNonceHash1).map)

instance : LawfulTl Message where
  reads o := (reads o.id).bind ((reads o.chatId).bind ((reads o.senderId).bind (
    (reads o.text).bind ((reads o.timestamp).bind ((reads o.isOutgoing).bind ((reads o.read).bind
    (reads o.delivered).map))))))

instance : LawfulElem Message where
  encoding_pos o := by
    simp only [writeBytes, List.length_append, length_i64ToLeBytes]
    omega
  memSize_pos := by decide
  memSize_le := by decide

instance : LawfulTl Chat where
  reads o := (reads o.id).bind ((reads o.title).bind ((reads o.participants).bind
    (reads o.isGroup).map))

instance : LawfulTl SendMessage where
  reads o := (reads o.chatId).bind ((reads o.text).bind (reads o.randomId).map)

instance : LawfulTl SendMessageAck where
  reads o := (reads o.messageId).map

instance : LawfulTl GetHistory where
  reads o := (reads o.chatId).bind ((reads o.offset).bind (reads o.limit).map)

instance : LawfulTl HistoryResult where
  reads o := (reads o.messages).bind (reads o.totalCount).map

instance : LawfulTl UserStatusUpdate where
  reads o := (reads o.userId).bind (reads o.status).map

instance : LawfulTl SignUp where
  reads o := (reads o.phone).bind (reads o.password).map

instance : LawfulTl DialogInfo where
  reads o := (reads o.id).bind ((reads o.title).bind ((reads o.isGroup).bind (
    (reads o.participants).bind ((reads o.lastMessage).bind (reads o.unreadCount).map))))

instance : LawfulElem DialogInfo where
  encoding_pos o := by
    simp only [writeBytes, List.length_append, length_i64ToLeBytes]
    omega
  memSize_pos := by decide
  memSize_le := by decide

instance : LawfulTl DialogList where
  reads o := (reads o.dialogs).map

instance : LawfulTl CreatePrivateDialog where
  reads o := (reads o.userId).map

instance : LawfulTl CreateGroup where
  reads o := (reads o.title).bind (reads o.participants).map

instance : LawfulTl AddGroupParticipant where
  reads o := (reads o.dialogId).bind (reads o.userId).map

instance : LawfulTl RemoveGroupParticipant where
  reads o := (reads o.dialogId).bind (reads o.userId).map

instance : LawfulTl GetDialogs where
  reads _ := Reads.pure _

/-! ### Boxed objects -/

theorem reads_boxed {α : Type} [TlWrite α] [TlRead α] [LawfulTl α] {id : UInt32}
    {wrap : α → TlObject} (obj : α) (harm : readConstructor id = boxed wrap) :
    Reads lengthLimit TlObject.readBoxed (u32ToLeBytes id ++ writeBytes obj) (wrap obj) := by
  refine (reads id).bind ?_
  rw [harm]
  exact (reads obj).map

theorem reads_writeBoxed (o : TlObject) :
    Reads lengthLimit TlObject.readBoxed o.writeBoxed o := by
  cases o with
  | reqPq obj => exact reads_boxed obj rfl
  | resPQ obj => exact reads_boxed obj rfl
  | pqInnerData obj => exact reads_boxed obj rfl
  | reqDHParams obj => exact reads_boxed obj rfl
  | serverDHParamsOk obj => exact reads_boxed obj rfl
  | serverDHInnerData obj => exact reads_boxed obj rfl
  | clientDHInnerData obj => exact reads_boxed obj rfl
  | setClientDHParams obj => exact reads_boxed obj rfl
  | dhGenOk obj => exact reads_boxed obj rfl
  | message obj => exact reads_boxed obj rfl
  | chat obj => exact reads_boxed obj rfl
  | sendMessage obj => exact reads_boxed obj rfl
  | sendMessageAck obj => exact reads_boxed obj rfl
  | getHistory obj => exact reads_boxed obj rfl
  | historyResult obj => exact reads_boxed obj rfl
  | userStatusUpdate obj => exact reads_boxed obj rfl
  | signUp obj => exact reads_boxed obj rfl
  | createPrivateDialog obj => exact reads_boxed obj rfl
  | createGroup obj => exact reads_boxed obj rfl
  | addGroupParticipant obj => exact reads_boxed obj rfl
  | removeGroupParticipant obj => exact reads_boxed obj rfl
  | getDialogs obj => exact reads_boxed obj rfl
  | dialogInfo obj => exact reads_boxed obj rfl
  | dialogList obj => exact reads_boxed obj rfl

/-- Every object that fits a frame is read back as it was written. -/
theorem readBoxed_writeBoxed (o : TlObject) (rest : Bytes)
    (h : o.writeBoxed.length ≤ Transport.maxFrameSize) :
    TlObject.readBoxed.run (o.writeBoxed ++ rest) = .ok o rest := by
  refine reads_writeBoxed o ?_ rest
  unfold Transport.maxFrameSize at h
  unfold lengthLimit
  omega

theorem readBoxed_writeBoxed_getHistory :
    TlObject.readBoxed.run ((TlObject.getHistory ⟨⟨7⟩, 0, 20⟩).writeBoxed ++ [1, 2]) =
      .ok (.getHistory ⟨⟨7⟩, 0, 20⟩) [1, 2] :=
  readBoxed_writeBoxed (.getHistory ⟨⟨7⟩, 0, 20⟩) [1, 2] (by decide)

/-! ### Sizes -/

variable {bs rest : Bytes}

theorem length_writeTlBytes_le (data : Bytes) : (writeTlBytes data).length ≤ data.length + 7 := by
  have hpadding : padding data.length ≤ 3 := by
    unfold padding
    omega
  have hlength : (writeTlLength data.length).length ≤ 4 := by
    unfold writeTlLength
    split
    · exact Nat.le_add_left 1 3
    · simp
  simp only [writeTlBytes, List.length_append, List.length_replicate]
  omega

/-- A length header cannot announce more. -/
theorem length_of_readTlBytes {data : Bytes} (h : readTlBytes.run bs = .ok data rest) :
    data.length < lengthLimit := by
  have hbody {len : Nat} (hlen : len < lengthLimit) {bs : Bytes}
      (hb : (readTlBody len).run bs = .ok data rest) : data.length < lengthLimit := by
    obtain ⟨v, r₁, -, h₁⟩ := run_bind_eq_ok.mp hb
    obtain ⟨_, r₂, -, h₂⟩ := run_bind_eq_ok.mp h₁
    cases h₂
    rwa [Vector.length_toList]
  obtain ⟨first, r₁, -, h₁⟩ := run_bind_eq_ok.mp h
  split at h₁
  · obtain ⟨buf, r₂, -, h₂⟩ := run_bind_eq_ok.mp h₁
    refine hbody ?_ h₂
    have hlt := ofLeBytes_lt buf.toList
    rwa [Vector.length_toList] at hlt
  · refine hbody ?_ h₁
    have hlt := first[0].toNat_lt
    unfold lengthLimit
    omega

theorem boxed_eq_ok {α : Type} [TlRead α] {wrap : α → TlObject} {o : TlObject}
    (h : (boxed wrap).run bs = .ok o rest) : ∃ obj : α, o = wrap obj ∧
      readBytes.run bs = .ok obj rest := by
  obtain ⟨obj, r₁, hread, h₁⟩ := run_bind_eq_ok.mp h
  cases h₁
  exact ⟨obj, rfl, hread⟩

end KoSta.Tl
