import KoSta.Tl.Roundtrip

/-! Which bytes each reader takes, and the inputs on which a vector count makes it panic. -/
namespace KoSta.Tl
open Lib Lib.Reader

/-- The bytes that encode some value of `α`, written down without running the reader. -/
class TlLayout (α : Type) where
  layout : Layout

def layout (α : Type) [TlLayout α] : Layout := TlLayout.layout α

class LawfulRead (α : Type) [TlRead α] [TlLayout α] : Prop where
  follows : Follows (readBytes : Reader Error α) (layout α)

export LawfulRead (follows)

/-! ### Fixed widths -/

def fixedLayout (n : Nat) : Layout := .header n fun _ => .unit

theorem follows_fixed {α : Type} {n : Nat} (f : Vector UInt8 n → α) :
    Follows (readExact n >>= fun v => pure (f v)) (fixedLayout n) :=
  Follows.header fun v => Follows.pure (f v)

instance : TlLayout Int32 := ⟨fixedLayout 4⟩
instance : TlLayout UInt32 := ⟨fixedLayout 4⟩
instance : TlLayout Int64 := ⟨fixedLayout 8⟩
instance : TlLayout Int128 := ⟨fixedLayout 16⟩
instance : TlLayout Int256 := ⟨fixedLayout 32⟩
instance : TlLayout MessageId := ⟨layout Int64⟩
instance : TlLayout ChatId := ⟨layout Int64⟩
instance : TlLayout UserId := ⟨layout Int64⟩
instance : TlLayout DialogId := ⟨layout Int64⟩
instance : TlLayout Bool := ⟨layout Int32⟩

instance : LawfulRead Int32 where
  follows := follows_fixed fun buf => i32FromLeBytes buf.toList

instance : LawfulRead UInt32 where
  follows := follows_fixed fun buf => u32FromLeBytes buf.toList

instance : LawfulRead Int64 where
  follows := follows_fixed fun buf => i64FromLeBytes buf.toList

instance : LawfulRead Int128 where
  follows := follows_fixed Int128.mk

instance : LawfulRead Int256 where
  follows := follows_fixed Int256.mk

instance : LawfulRead MessageId where
  follows := Follows.map (follows (α := Int64))

instance : LawfulRead ChatId where
  follows := Follows.map (follows (α := Int64))

instance : LawfulRead UserId where
  follows := Follows.map (follows (α := Int64))

instance : LawfulRead DialogId where
  follows := Follows.map (follows (α := Int64))

instance : LawfulRead Bool where
  follows := Follows.map (follows (α := Int32))

/-! ### Strings -/

def bodyLayout (final : Bytes → Layout) (len : Nat) : Layout :=
  .header len fun data => .header (padding len) fun _ => final data

/-- A length header, the data, the padding, and what the data still has to satisfy. -/
def textLayout (final : Bytes → Layout) : Layout := .header 1 fun first =>
  if first = [254] then .header 3 fun buf => bodyLayout final (ofLeBytes buf)
  else bodyLayout final (ofLeBytes first)

theorem follows_body {α : Type} {final : Bytes → Layout} {k : Bytes → Reader Error α}
    (hk : ∀ data, Follows (k data) (final data)) (len : Nat) :
    Follows (readTlBody len >>= k) (bodyLayout final len) := by
  simp only [readTlBody, bind_assoc, pure_bind]
  exact Follows.header fun data => Follows.header fun _ => hk data.toList

theorem follows_text {α : Type} {final : Bytes → Layout} {k : Bytes → Reader Error α}
    (hk : ∀ data, Follows (k data) (final data)) :
    Follows (readTlBytes >>= k) (textLayout final) := by
  rw [readTlBytes, bind_assoc]
  refine Follows.header fun first => ?_
  have hfirst : first.toList = [first[0]] := toList_singleton first
  by_cases h : first[0] = 254
  · rw [if_pos h, if_pos (by rw [hfirst, h]), bind_assoc]
    exact Follows.header fun buf => follows_body hk _
  · have hne : first.toList ≠ [254] := by simp [hfirst, h]
    have hlen : ofLeBytes first.toList = first[0].toNat := by simp [hfirst, ofLeBytes]
    rw [if_neg h, if_neg hne, hlen]
    exact follows_body hk _

def utf8Layout (data : Bytes) : Layout :=
  if (String.fromUTF8? ⟨data.toArray⟩).isSome then .unit else .never

instance : TlLayout Bytes := ⟨textLayout fun _ => .unit⟩

instance : LawfulRead Bytes where
  follows := by
    have h := follows_text (k := fun data => pure data) fun data => Follows.pure data
    rwa [bind_pure] at h

instance : TlLayout String := ⟨textLayout utf8Layout⟩

instance : LawfulRead String where
  follows := by
    refine follows_text fun data => ?_
    unfold fromUtf8 utf8Layout
    cases String.fromUTF8? ⟨data.toArray⟩ with
    | some s => exact Follows.pure s
    | none => exact Follows.fail _

/-! ### Vectors and optional values -/

/-- A negative count asks for more memory than there can be. -/
def countLayout (l : Layout) (count : Int32) : Layout :=
  if count < 0 then .trapped else l.many (asUsize count)

theorem follows_int32 {α : Type} {f : Int32 → Layout} {k : Int32 → Reader Error α}
    (hk : ∀ x, Follows (k x) (f x)) :
    Follows ((readBytes : Reader Error Int32) >>= k)
      (.header 4 fun buf => f (i32FromLeBytes buf)) := by
  simp only [readBytes, bind_assoc, pure_bind]
  exact Follows.header fun buf => hk (i32FromLeBytes buf.toList)

theorem withCapacity_of_neg {size : Nat} (hpos : 0 < size) {count : Int32} (h : count < 0) :
    withCapacity (asUsize count) size = Reader.panic := by
  have husize := asUsize_eq count
  have hlow := count.le_toInt
  have hneg : count.toInt < 0 := Int32.lt_iff_toInt_lt.mp h
  have hmul := Nat.le_mul_of_pos_right (asUsize count) hpos
  rw [withCapacity, if_neg]
  unfold isizeMax
  omega

theorem withCapacity_of_nonneg {size : Nat} (hle : size ≤ 2 ^ 31) {count : Int32}
    (h : ¬ count < 0) : withCapacity (asUsize count) size = pure () := by
  have husize := asUsize_eq count
  have hhigh := count.toInt_lt
  have hnonneg : 0 ≤ count.toInt := by
    rw [Int32.lt_iff_toInt_lt] at h
    exact Int.not_lt.mp h
  have hmul : asUsize count * size ≤ 2 ^ 31 * 2 ^ 31 := Nat.mul_le_mul (by omega) hle
  rw [withCapacity, if_pos]
  unfold isizeMax
  omega

theorem follows_count {α : Type} [TlWrite α] [TlRead α] [MemSize α] [TlLayout α] [LawfulRead α]
    [LawfulElem α] (count : Int32) :
    Follows (do
      withCapacity (asUsize count) (memSize α)
      Reader.times (readBytes : Reader Error α) (asUsize count))
      (countLayout (layout α) count) := by
  unfold countLayout
  split
  next hneg =>
    rw [withCapacity_of_neg LawfulElem.memSize_pos hneg, panic_bind]
    exact Follows.panic
  next hnonneg =>
    rw [withCapacity_of_nonneg LawfulElem.memSize_le hnonneg, pure_bind]
    exact follows.times (asUsize count)

instance {α : Type} [TlLayout α] : TlLayout (List α) :=
  ⟨.header 4 fun buf => countLayout (layout α) (i32FromLeBytes buf)⟩

instance {α : Type} [TlWrite α] [TlRead α] [MemSize α] [TlLayout α] [LawfulRead α]
    [LawfulElem α] : LawfulRead (List α) where
  follows := follows_int32 follows_count

instance {α : Type} [TlLayout α] : TlLayout (Option α) :=
  ⟨.header 4 fun buf => if i32FromLeBytes buf != 0 then layout α else .unit⟩

instance {α : Type} [TlRead α] [TlLayout α] [LawfulRead α] : LawfulRead (Option α) where
  follows := by
    have h (present : Int32) : Follows
        (if present != 0 then do
          let val : α ← readBytes
          return some val
        else return none)
        (if present != 0 then layout α else .unit) :=
      Follows.ite follows.map (Follows.pure none)
    exact follows_int32 h

instance : TlLayout UserStatus :=
  ⟨.header 4 fun buf => if (UserStatus.ofCode (i32FromLeBytes buf)).isSome then .unit else .never⟩

instance : LawfulRead UserStatus where
  follows := by
    have h (code : Int32) : Follows
        (match UserStatus.ofCode code with
        | some status => pure status
        | none => Reader.fail (Error.custom "Invalid UserStatus code"))
        (if (UserStatus.ofCode code).isSome then .unit else .never) := by
      cases UserStatus.ofCode code with
      | some status => exact Follows.pure status
      | none => exact Follows.fail _
    exact follows_int32 h

/-! ### Records -/

instance : TlLayout ReqPq where
  layout := .record [layout Int128]

instance : LawfulRead ReqPq where
  follows := follows.bind fun _ => Follows.pure _

instance : TlLayout ResPQ where
  layout := .record [layout Int128, layout Int128, layout Bytes, layout Bytes, layout Bytes,
    layout (List Int64)]

instance : LawfulRead ResPQ where
  follows := follows.bind fun _ => follows.bind fun _ => follows.bind fun _ =>
    follows.bind fun _ => follows.bind fun _ => follows.bind fun _ => Follows.pure _

instance : TlLayout PqInnerData where
  layout := .record [layout Bytes, layout Bytes, layout Bytes, layout Int128, layout Int128,
    layout Int256]

instance : LawfulRead PqInnerData where
  follows := follows.bind fun _ => follows.bind fun _ => follows.bind fun _ =>
    follows.bind fun _ => follows.bind fun _ => follows.bind fun _ => Follows.pure _

instance : TlLayout ReqDHParams where
  layout := .record [layout Int128, layout Int128, layout Bytes, layout Bytes, layout Int64,
    layout Bytes]

instance : LawfulRead ReqDHParams where
  follows := follows.bind fun _ => follows.bind fun _ => follows.bind fun _ =>
    follows.bind fun _ => follows.bind fun _ => follows.bind fun _ => Follows.pure _

instance : TlLayout ServerDHParamsOk where
  layout := .record [layout Int128, layout Int128, layout Bytes, layout Bytes]

instance : LawfulRead ServerDHParamsOk where
  follows := follows.bind fun _ => follows.bind fun _ => follows.bind fun _ =>
    follows.bind fun _ => Follows.pure _

instance : TlLayout ServerDHInnerData where
  layout := .record [layout Int128, layout Int128, layout Int32, layout Bytes, layout Bytes,
    layout Int32]

instance : LawfulRead ServerDHInnerData where
  follows := follows.bind fun _ => follows.bind fun _ => follows.bind fun _ =>
    follows.bind fun _ => follows.bind fun _ => follows.bind fun _ => Follows.pure _

instance : TlLayout ClientDHInnerData where
  layout := .record [layout Int128, layout Int128, layout Int64, layout Bytes]

instance : LawfulRead ClientDHInnerData where
  follows := follows.bind fun _ => follows.bind fun _ => follows.bind fun _ =>
    follows.bind fun _ => Follows.pure _

instance : TlLayout SetClientDHParams where
  layout := .record [layout Int128, layout Int128, layout Bytes]

instance : LawfulRead SetClientDHParams where
  follows := follows.bind fun _ => follows.bind fun _ => follows.bind fun _ => Follows.pure _

instance : TlLayout DHGenOk where
  layout := .record [layout Int128, layout Int128, layout Int128]

instance : LawfulRead DHGenOk where
  follows := follows.bind fun _ => follows.bind fun _ => follows.bind fun _ => Follows.pure _

instance : TlLayout Message where
  layout := .record [layout MessageId, layout ChatId, layout UserId, layout String, layout Int64,
    layout Bool, layout Bool, layout Bool]

instance : LawfulRead Message where
  follows := follows.bind fun _ => follows.bind fun _ => follows.bind fun _ =>
    follows.bind fun _ => follows.bind fun _ => follows.bind fun _ => follows.bind fun _ =>
    follows.bind fun _ => Follows.pure _

instance : TlLayout Chat where
  layout := .record [layout ChatId, layout String, layout (List UserId), layout Bool]

instance : LawfulRead Chat where
  follows := follows.bind fun _ => follows.bind fun _ => follows.bind fun _ =>
    follows.bind fun _ => Follows.pure _

instance : TlLayout SendMessage where
  layout := .record [layout ChatId, layout String, layout Int64]

instance : LawfulRead SendMessage where
  follows := follows.bind fun _ => follows.bind fun _ => follows.bind fun _ => Follows.pure _

instance : TlLayout SendMessageAck where
  layout := .record [layout MessageId]

instance : LawfulRead SendMessageAck where
  follows := follows.bind fun _ => Follows.pure _

instance : TlLayout GetHistory where
  layout := .record [layout ChatId, layout Int32, layout Int32]

instance : LawfulRead GetHistory where
  follows := follows.bind fun _ => follows.bind fun _ => follows.bind fun _ => Follows.pure _

instance : TlLayout HistoryResult where
  layout := .record [layout (List Message), layout Int32]

instance : LawfulRead HistoryResult where
  follows := follows.bind fun _ => follows.bind fun _ => Follows.pure _

instance : TlLayout UserStatusUpdate where
  layout := .record [layout UserId, layout UserStatus]

instance : LawfulRead UserStatusUpdate where
  follows := follows.bind fun _ => follows.bind fun _ => Follows.pure _

instance : TlLayout SignUp where
  layout := .record [layout String, layout String]

instance : LawfulRead SignUp where
  follows := follows.bind fun _ => follows.bind fun _ => Follows.pure _

instance : TlLayout DialogInfo where
  layout := .record [layout DialogId, layout String, layout Bool, layout (List UserId),
    layout (Option Message), layout Int32]

instance : LawfulRead DialogInfo where
  follows := follows.bind fun _ => follows.bind fun _ => follows.bind fun _ =>
    follows.bind fun _ => follows.bind fun _ => follows.bind fun _ => Follows.pure _

instance : TlLayout DialogList where
  layout := .record [layout (List DialogInfo)]

instance : LawfulRead DialogList where
  follows := follows.bind fun _ => Follows.pure _

instance : TlLayout CreatePrivateDialog where
  layout := .record [layout UserId]

instance : LawfulRead CreatePrivateDialog where
  follows := follows.bind fun _ => Follows.pure _

instance : TlLayout CreateGroup where
  layout := .record [layout String, layout (List UserId)]

instance : LawfulRead CreateGroup where
  follows := follows.bind fun _ => follows.bind fun _ => Follows.pure _

instance : TlLayout AddGroupParticipant where
  layout := .record [layout DialogId, layout UserId]

instance : LawfulRead AddGroupParticipant where
  follows := follows.bind fun _ => follows.bind fun _ => Follows.pure _

instance : TlLayout RemoveGroupParticipant where
  layout := .record [layout DialogId, layout UserId]

instance : LawfulRead RemoveGroupParticipant where
  follows := follows.bind fun _ => follows.bind fun _ => Follows.pure _

instance : TlLayout GetDialogs where
  layout := .record []

instance : LawfulRead GetDialogs where
  follows := Follows.pure _

/-! ### Boxed objects -/

def constructorLayout (constructorId : UInt32) : Layout :=
  if constructorId = reqPqId then layout ReqPq
  else if constructorId = resPqId then layout ResPQ
  else if constructorId = pqInnerDataId then layout PqInnerData
  else if constructorId = reqDhParamsId then layout ReqDHParams
  else if constructorId = serverDhParamsOkId then layout ServerDHParamsOk
  else if constructorId = serverDhInnerDataId then layout ServerDHInnerData
  else if constructorId = clientDhInnerDataId then layout ClientDHInnerData
  else if constructorId = setClientDhParamsId then layout SetClientDHParams
  else if constructorId = dhGenOkId then layout DHGenOk
  else if constructorId = messageId then layout Message
  else if constructorId = chatId then layout Chat
  else if constructorId = sendMessageId then layout SendMessage
  else if constructorId = sendMessageAckId then layout SendMessageAck
  else if constructorId = getHistoryId then layout GetHistory
  else if constructorId = historyResultId then layout HistoryResult
  else if constructorId = userStatusId then layout UserStatusUpdate
  else if constructorId = signUpId then layout SignUp
  else if constructorId = createPrivateDialogId then layout CreatePrivateDialog
  else if constructorId = createGroupId then layout CreateGroup
  else if constructorId = addGroupParticipantId then layout AddGroupParticipant
  else if constructorId = removeGroupParticipantId then layout RemoveGroupParticipant
  else if constructorId = getDialogsId then layout GetDialogs
  else if constructorId = dialogInfoId then layout DialogInfo
  else if constructorId = dialogListId then layout DialogList
  else .never

theorem follows_boxed {α : Type} [TlRead α] [TlLayout α] [LawfulRead α] (wrap : α → TlObject) :
    Follows (boxed wrap) (layout α) := Follows.map follows

theorem follows_readConstructor (constructorId : UInt32) :
    Follows (readConstructor constructorId) (constructorLayout constructorId) := by
  unfold readConstructor constructorLayout
  repeat' apply Follows.ite
  all_goals first
    | exact follows_boxed _
    | exact Follows.fail _

/-- The layout of a boxed object: a constructor id and the record it announces. -/
def boxedLayout : Layout := .header 4 fun buf => constructorLayout (u32FromLeBytes buf)

theorem follows_readBoxed : Follows TlObject.readBoxed boxedLayout := by
  simp only [TlObject.readBoxed, readBytes, bind_assoc, pure_bind]
  exact Follows.header fun buf => follows_readConstructor _

/-! ### Truncated objects -/

theorem stable_fixed (n : Nat) : (fixedLayout n).Stable :=
  Layout.Stable.header fun _ => Layout.Stable.unit

theorem stable_text {final : Bytes → Layout} (h : ∀ data, (final data).Stable) :
    (textLayout final).Stable := by
  have hbody (len : Nat) : (bodyLayout final len).Stable :=
    Layout.Stable.header fun data => Layout.Stable.header fun _ => h data
  apply Layout.Stable.header
  intro first
  exact Layout.Stable.ite (Layout.Stable.header fun buf => hbody _) (hbody _)

theorem stable_utf8 (data : Bytes) : (utf8Layout data).Stable :=
  Layout.Stable.ite Layout.Stable.unit Layout.Stable.never

theorem stable_count {l : Layout} (h : l.Stable) (count : Int32) : (countLayout l count).Stable :=
  Layout.Stable.ite Layout.Stable.trapped (h.many _)

theorem stable_boxedLayout : boxedLayout.Stable := by
  refine Layout.Stable.header fun buf => ?_
  unfold constructorLayout
  repeat' apply Layout.Stable.ite
  all_goals
    repeat' first
      | exact Layout.Stable.unit
      | exact Layout.Stable.never
      | exact stable_fixed _
      | exact stable_text stable_utf8
      | exact stable_text fun _ => Layout.Stable.unit
      | refine Layout.Stable.seq ?_ ?_
      | refine Layout.Stable.header fun _ => stable_count ?_ _
      | refine Layout.Stable.header fun _ => Layout.Stable.ite ?_ ?_

/-- An object is read off its own bytes alone, and no part of them is read as an object. -/
theorem readBoxed_exact {b rest : Bytes} {o : TlObject}
    (h : TlObject.readBoxed.run b = .ok o rest) :
    ∃ x, b = x ++ rest ∧ (∀ rest', TlObject.readBoxed.run (x ++ rest') = .ok o rest') ∧
      ∀ p q, x = p ++ q → q ≠ [] → ∃ e, TlObject.readBoxed.run p = .err e := by
  obtain ⟨x, hb, hx⟩ := follows_readBoxed.taken h
  refine ⟨x, hb, hx, ?_⟩
  rintro p q rfl hq
  exact follows_readBoxed.truncated stable_boxedLayout hx hq

/-- `GetDialogs` is its constructor id, and no part of that is an object. -/
theorem readBoxed_exact_getDialogs :
    TlObject.readBoxed.run (u32ToLeBytes getDialogsId ++ [7]) = .ok (.getDialogs {}) [7] ∧
      ∃ x, u32ToLeBytes getDialogsId ++ [7] = x ++ [7] ∧
        (∀ rest', TlObject.readBoxed.run (x ++ rest') = .ok (.getDialogs {}) rest') ∧
        ∀ p q, x = p ++ q → q ≠ [] → ∃ e, TlObject.readBoxed.run p = .err e :=
  ⟨rfl, readBoxed_exact rfl⟩

/-- The parser panics exactly on the inputs that announce a vector of negative length where a
vector is due. -/
theorem readBoxed_ne_panic_iff (b : Bytes) :
    TlObject.readBoxed.run b ≠ .panic ↔ ¬ boxedLayout.trap b :=
  not_congr follows_readBoxed.panic_iff

theorem readBoxed_panics : ¬ ∀ b : Bytes, TlObject.readBoxed.run b ≠ .panic := by
  intro h
  exact h (u32ToLeBytes historyResultId ++ [0xff, 0xff, 0xff, 0xff]) rfl

end KoSta.Tl
