import KoSta.Lib.Rewriting
import KoSta.Tl.Layout

/-! Which of the encodings a reader takes are the ones the writer writes. -/
namespace KoSta.Tl
open Lib Lib.Reader

/-- The encodings of values of `α` that leave nothing to choose. -/
class TlCanonical (α : Type) where
  canonical : Layout

def canonical (α : Type) [TlCanonical α] : Layout := TlCanonical.canonical α

class LawfulCanonical (α : Type) [TlWrite α] [TlRead α] [TlCanonical α] : Prop where
  rewrites : Rewrites (readBytes : Reader Error α) writeBytes (canonical α)

export LawfulCanonical (rewrites)

/-! ### Integers -/

theorem i32ToLeBytes_i32FromLeBytes {bs : Bytes} (h : bs.length = 4) :
    i32ToLeBytes (i32FromLeBytes bs) = bs := by
  have hlt := ofLeBytes_lt bs
  rw [h] at hlt
  rw [i32ToLeBytes, i32FromLeBytes, UInt32.toUInt32_toInt32, UInt32.toNat_ofNat_of_lt' hlt, ← h]
  exact leBytes_ofLeBytes bs

theorem u32ToLeBytes_u32FromLeBytes {bs : Bytes} (h : bs.length = 4) :
    u32ToLeBytes (u32FromLeBytes bs) = bs := by
  have hlt := ofLeBytes_lt bs
  rw [h] at hlt
  rw [u32ToLeBytes, u32FromLeBytes, UInt32.toNat_ofNat_of_lt' hlt, ← h]
  exact leBytes_ofLeBytes bs

theorem i64ToLeBytes_i64FromLeBytes {bs : Bytes} (h : bs.length = 8) :
    i64ToLeBytes (i64FromLeBytes bs) = bs := by
  have hlt := ofLeBytes_lt bs
  rw [h] at hlt
  rw [i64ToLeBytes, i64FromLeBytes, UInt64.toUInt64_toInt64, UInt64.toNat_ofNat_of_lt' hlt, ← h]
  exact leBytes_ofLeBytes bs

instance : TlCanonical Int32 := ⟨fixedLayout 4⟩
instance : TlCanonical UInt32 := ⟨fixedLayout 4⟩
instance : TlCanonical Int64 := ⟨fixedLayout 8⟩
instance : TlCanonical Int128 := ⟨fixedLayout 16⟩
instance : TlCanonical Int256 := ⟨fixedLayout 32⟩
instance : TlCanonical MessageId := ⟨canonical Int64⟩
instance : TlCanonical ChatId := ⟨canonical Int64⟩
instance : TlCanonical UserId := ⟨canonical Int64⟩
instance : TlCanonical DialogId := ⟨canonical Int64⟩

instance : LawfulCanonical Int32 where
  rewrites := Continues.fixed fun v => i32ToLeBytes_i32FromLeBytes v.length_toList

instance : LawfulCanonical UInt32 where
  rewrites := Continues.fixed fun v => u32ToLeBytes_u32FromLeBytes v.length_toList

instance : LawfulCanonical Int64 where
  rewrites := Continues.fixed fun v => i64ToLeBytes_i64FromLeBytes v.length_toList

instance : LawfulCanonical Int128 where
  rewrites := Continues.fixed fun _ => rfl

instance : LawfulCanonical Int256 where
  rewrites := Continues.fixed fun _ => rfl

instance : LawfulCanonical MessageId where
  rewrites := Continues.map (rewrites (α := Int64)) fun _ => rfl

instance : LawfulCanonical ChatId where
  rewrites := Continues.map (rewrites (α := Int64)) fun _ => rfl

instance : LawfulCanonical UserId where
  rewrites := Continues.map (rewrites (α := Int64)) fun _ => rfl

instance : LawfulCanonical DialogId where
  rewrites := Continues.map (rewrites (α := Int64)) fun _ => rfl

/-! ### Flags and counts -/

theorem continues_int32 {α : Type} {w : α → Bytes} {f : Int32 → Layout}
    {k : Int32 → Reader Error α} (hk : ∀ x, Continues (k x) (i32ToLeBytes x) w (f x)) :
    Rewrites ((readBytes : Reader Error Int32) >>= k) w
      (.header 4 fun buf => f (i32FromLeBytes buf)) := by
  simp only [readBytes, bind_assoc, pure_bind]
  refine Continues.header fun v => ?_
  have hsame := hk (i32FromLeBytes v.toList)
  rw [i32ToLeBytes_i32FromLeBytes v.length_toList] at hsame
  exact hsame

/-- Two words, written and read, that are not the same. -/
theorem parts_of_flags {x y : Int32} (hne : x ≠ y) (t t' : Bytes) :
    i32ToLeBytes x ++ t ≠ i32ToLeBytes y ++ t' ∧
      Parts (i32ToLeBytes x ++ t) (i32ToLeBytes y ++ t') := by
  have hlength : (i32ToLeBytes x).length = (i32ToLeBytes y).length := by simp
  have hbytes : i32ToLeBytes x ≠ i32ToLeBytes y := by
    intro he
    apply hne
    rw [← i32FromLeBytes_i32ToLeBytes x, he, i32FromLeBytes_i32ToLeBytes]
  exact ⟨fun he => hbytes (List.append_inj he hlength).1, parts_of_ne hlength hbytes t t'⟩

instance : TlCanonical Bool :=
  ⟨.header 4 fun buf => if i32FromLeBytes buf = 0 ∨ i32FromLeBytes buf = 1 then .unit else .never⟩

instance : LawfulCanonical Bool where
  rewrites := by
    refine continues_int32 (f := fun val => if val = 0 ∨ val = 1 then .unit else .never) ?_
    intro val
    by_cases hval : val = 0 ∨ val = 1
    · rw [if_pos hval]
      rcases hval with rfl | rfl <;> exact Continues.pure rfl
    · rw [if_neg hval]
      refine Continues.stray fun hrun => ?_
      cases hrun
      have hne : (if (val != 0) = true then 1 else 0 : Int32) ≠ val := by
        intro he
        apply hval
        rw [← he]
        split
        · exact .inr rfl
        · exact .inl rfl
      have hparts := parts_of_flags hne [] []
      rw [List.append_nil] at hparts
      exact ⟨[], rfl, hparts⟩

instance {α : Type} [TlCanonical α] : TlCanonical (Option α) :=
  ⟨.header 4 fun buf => if i32FromLeBytes buf = 1 then canonical α
    else if i32FromLeBytes buf = 0 then .unit else .never⟩

instance {α : Type} [TlWrite α] [TlRead α] [TlCanonical α] [LawfulCanonical α] :
    LawfulCanonical (Option α) where
  rewrites := by
    refine continues_int32
      (f := fun present =>
        if present = 1 then canonical α else if present = 0 then .unit else .never) ?_
    intro present
    by_cases hone : present = 1
    · subst hone
      exact Continues.map rewrites fun _ => rfl
    · rw [if_neg hone]
      by_cases hzero : present = 0
      · subst hzero
        exact Continues.pure rfl
      · rw [if_neg hzero, if_pos (by simpa using hzero)]
        refine Continues.stray fun {bs val rest} hrun => ?_
        obtain ⟨a, mid, ha, hmid⟩ := run_bind_eq_ok.mp hrun
        cases hmid
        obtain ⟨x, hbs, -, -⟩ := rewrites.rewritten ha
        exact ⟨x, hbs, parts_of_flags (Ne.symm hone) (writeBytes a) x⟩

instance {α : Type} [TlCanonical α] : TlCanonical (List α) :=
  ⟨.header 4 fun buf => if i32FromLeBytes buf < 0 then .never
    else (canonical α).many (asUsize (i32FromLeBytes buf))⟩

theorem ofNat_asUsize {count : Int32} (h : ¬ count < 0) : Int32.ofNat (asUsize count) = count := by
  have husize := asUsize_eq count
  have hhigh := count.toInt_lt
  have hnonneg : 0 ≤ count.toInt := by
    rw [Int32.lt_iff_toInt_lt] at h
    exact Int.not_lt.mp h
  apply Int32.toInt_inj.mp
  rw [Int32.toInt_ofNat_of_lt (by omega)]
  omega

instance {α : Type} [TlWrite α] [TlRead α] [MemSize α] [LawfulElem α] [TlCanonical α]
    [LawfulCanonical α] : LawfulCanonical (List α) where
  rewrites := by
    refine continues_int32
      (f := fun count => if count < 0 then .never else (canonical α).many (asUsize count)) ?_
    intro count
    split
    next hneg =>
      rw [withCapacity_of_neg LawfulElem.memSize_pos hneg, panic_bind]
      exact Continues.panic
    next hnonneg =>
      rw [withCapacity_of_nonneg LawfulElem.memSize_le hnonneg, pure_bind]
      refine Continues.written (rewrites_times rewrites _) fun hrun => ?_
      have hlength := length_of_times hrun
      change i32ToLeBytes (Int32.ofNat _) ++ _ = _
      rw [hlength, ofNat_asUsize hnonneg]

instance : TlCanonical UserStatus := ⟨layout UserStatus⟩

theorem UserStatus.code_of_ofCode {code : Int32} {status : UserStatus}
    (h : ofCode code = some status) : status.code = code := by
  unfold ofCode at h
  repeat' split at h
  all_goals
    cases h
    first | exact Eq.symm ‹_› | skip

instance : LawfulCanonical UserStatus where
  rewrites := by
    refine continues_int32
      (f := fun code => if (UserStatus.ofCode code).isSome then .unit else .never) ?_
    intro code
    cases hcode : UserStatus.ofCode code with
    | some status => exact Continues.pure (congrArg i32ToLeBytes (UserStatus.code_of_ofCode hcode))
    | none => exact Continues.fail _

/-! ### Strings -/

/-- The data, and zeros behind it. -/
def bodyCanonical (final : Bytes → Layout) (len : Nat) : Layout :=
  .header len fun data => .header (padding len) fun pad =>
    if pad = List.replicate (padding len) 0 then final data else .never

/-- The three-byte form is for lengths the short form does not reach, and 255 for none. -/
def textCanonical (final : Bytes → Layout) : Layout := .header 1 fun first =>
  if first = [254] then .header 3 fun buf =>
    if 253 < ofLeBytes buf then bodyCanonical final (ofLeBytes buf) else .never
  else if first = [255] then .never
  else bodyCanonical final (ofLeBytes first)

section Text

variable {α : Type} {w : α → Bytes} {final : Bytes → Layout}
  {k : Bytes → Reader Error α} {len : Nat}

/-- What is made of a string's data takes no more bytes and is written as the data is. -/
structure Finishes (k : Bytes → Reader Error α) (w : α → Bytes)
    (final : Bytes → Layout) : Prop where
  written : ∀ {data bs a rest}, (k data).run bs = .ok a rest → bs = rest ∧ w a = writeTlBytes data
  continues : ∀ data, Continues (k data) (writeTlBytes data) w (final data)

theorem run_readTlBody {bs rest : Bytes} {a : α} (h : (readTlBody len >>= k).run bs = .ok a rest) :
    ∃ data pad mid, data.length = len ∧ pad.length = padding len ∧ bs = data ++ (pad ++ mid) ∧
      (k data).run mid = .ok a rest := by
  simp only [readTlBody, bind_assoc, pure_bind] at h
  obtain ⟨data, r₁, hdata, h₁⟩ := run_bind_eq_ok.mp h
  obtain ⟨pad, r₂, hpad, h₂⟩ := run_bind_eq_ok.mp h₁
  refine ⟨data.toList, pad.toList, r₂, data.length_toList, pad.length_toList, ?_, h₂⟩
  rw [run_exact_eq_ok.mp hdata, run_exact_eq_ok.mp hpad]

/-- Behind the length the writer would have chosen, the padding decides. -/
theorem continues_body (hk : Finishes k w final) :
    Continues (readTlBody len >>= k) (writeTlLength len) w (bodyCanonical final len) := by
  simp only [readTlBody, bind_assoc, pure_bind]
  refine Continues.header fun data => Continues.header fun pad => ?_
  have hlength := data.length_toList
  by_cases hzero : pad.toList = List.replicate (padding len) 0
  · rw [if_pos hzero, hzero]
    have hsame := hk.continues data.toList
    rw [writeTlBytes, hlength, ← List.append_assoc] at hsame
    exact hsame
  · rw [if_neg hzero]
    refine Continues.stray fun hrun => ?_
    obtain ⟨rfl, hw⟩ := hk.written hrun
    rw [writeTlBytes, hlength, ← List.append_assoc] at hw
    refine ⟨[], rfl, ?_, ?_⟩
    · rw [hw, List.append_nil]
      intro he
      exact hzero (List.append_cancel_left he).symm
    · rw [hw, List.append_nil]
      exact parts_of_length (by simp)

/-- Behind a length whose first byte the writer would not have chosen, nothing is canonical. -/
theorem stray_body (hk : Finishes k w final) {b b' : UInt8} {t t' : Bytes}
    (hlength : writeTlLength len = b :: t) (hne : b ≠ b') :
    Continues (readTlBody len >>= k) (b' :: t') w .never := by
  refine Continues.stray fun hrun => ?_
  obtain ⟨data, pad, mid, hdata, -, hbs, hrun⟩ := run_readTlBody hrun
  obtain ⟨rfl, hw⟩ := hk.written hrun
  rw [writeTlBytes, hdata, hlength] at hw
  refine ⟨data ++ pad, by rw [hbs, List.append_assoc], ?_, ?_⟩
  · rw [hw]
    intro he
    exact hne (List.cons.inj he).1
  · rw [hw]
    exact parts_of_ne (x := [b]) (y := [b']) rfl (by simpa using hne) _ _

theorem writeTlLength_of_le (h : len ≤ 253) : writeTlLength len = [UInt8.ofNat len] := if_pos h

theorem writeTlLength_of_lt (h : 253 < len) : writeTlLength len = 254 :: leBytes 3 len :=
  if_neg (Nat.not_le.mpr h)

theorem rewrites_text (hk : Finishes k w final) :
    Rewrites (readTlBytes >>= k) w (textCanonical final) := by
  rw [readTlBytes, bind_assoc]
  refine Continues.header fun first => ?_
  have hfirst : first.toList = [first[0]] := toList_singleton first
  have hlen : ofLeBytes first.toList = first[0].toNat := by simp [hfirst, ofLeBytes]
  have hlt := first[0].toNat_lt
  rw [List.nil_append, hlen, hfirst]
  by_cases hlong : first[0] = 254
  · rw [if_pos hlong, if_pos (by rw [hlong]), bind_assoc]
    refine Continues.header fun buf => ?_
    have hbuf : leBytes 3 (ofLeBytes buf.toList) = buf.toList := by
      have h := leBytes_ofLeBytes buf.toList
      rwa [buf.length_toList] at h
    split
    next hlarge =>
      have hlength := writeTlLength_of_lt hlarge
      rw [hbuf, ← hlong] at hlength
      rw [List.singleton_append, ← hlength]
      exact continues_body hk
    next hsmall =>
      refine stray_body hk (writeTlLength_of_le (Nat.le_of_not_lt hsmall)) ?_
      intro he
      have hval := congrArg UInt8.toNat (he.trans hlong)
      rw [UInt8.toNat_ofNat'] at hval
      change _ = 254 at hval
      omega
  · rw [if_neg hlong, if_neg (by simpa using hlong)]
    by_cases hmax : first[0] = 255
    · rw [if_pos (by rw [hmax]), hmax]
      exact stray_body hk (writeTlLength_of_lt (by decide)) (by decide)
    · rw [if_neg (by simpa using hmax)]
      have hshort : first[0].toNat ≤ 253 := by
        have hne : first[0].toNat ≠ 254 := fun he => hlong (UInt8.toNat_inj.mp he)
        have hne' : first[0].toNat ≠ 255 := fun he => hmax (UInt8.toNat_inj.mp he)
        omega
      have hlength := writeTlLength_of_le hshort
      rw [UInt8.ofNat_toNat] at hlength
      rw [← hlength]
      exact continues_body hk

end Text

instance : TlCanonical Bytes := ⟨textCanonical fun _ => .unit⟩

instance : LawfulCanonical Bytes where
  rewrites := by
    have hpure : Finishes (fun data => (pure data : Reader Error Bytes)) writeBytes
      fun _ => .unit :=
      ⟨fun hrun => by cases hrun; exact ⟨rfl, rfl⟩, fun _ => Continues.pure rfl⟩
    have h := rewrites_text hpure
    rwa [bind_pure] at h

instance : TlCanonical String := ⟨textCanonical utf8Layout⟩

theorem asBytes_of_fromUtf8 {data : Bytes} {s : String}
    (h : String.fromUTF8? ⟨data.toArray⟩ = some s) : asBytes s = data := by
  unfold String.fromUTF8? at h
  split at h
  · cases h
    rfl
  · cases h

theorem finishes_utf8 : Finishes fromUtf8 (writeBytes : String → Bytes) utf8Layout := by
  constructor
  · intro data bs s rest hrun
    unfold fromUtf8 at hrun
    split at hrun
    next hvalid =>
      cases hrun
      exact ⟨rfl, congrArg writeTlBytes (asBytes_of_fromUtf8 hvalid)⟩
    next => cases hrun
  · intro data
    unfold fromUtf8 utf8Layout
    cases hvalid : String.fromUTF8? ⟨data.toArray⟩ with
    | some s => exact Continues.pure (congrArg writeTlBytes (asBytes_of_fromUtf8 hvalid))
    | none => exact Continues.fail _

instance : LawfulCanonical String where
  rewrites := rewrites_text finishes_utf8

/-! ### Records -/

instance : TlCanonical ReqPq where
  canonical := .record [canonical Int128]

instance : LawfulCanonical ReqPq where
  rewrites := Completes.rewrites <| Completes.last rewrites fun _ => rfl

instance : TlCanonical ResPQ where
  canonical := .record [canonical Int128, canonical Int128, canonical Bytes, canonical Bytes,
    canonical Bytes, canonical (List Int64)]

instance : LawfulCanonical ResPQ where
  rewrites := Completes.rewrites <|
    Completes.bind rewrites fun _ => Completes.bind rewrites fun _ =>
    Completes.bind rewrites fun _ => Completes.bind rewrites fun _ =>
    Completes.bind rewrites fun _ => Completes.last rewrites fun _ => rfl

instance : TlCanonical PqInnerData where
  canonical := .record [canonical Bytes, canonical Bytes, canonical Bytes, canonical Int128,
    canonical Int128, canonical Int256]

instance : LawfulCanonical PqInnerData where
  rewrites := Completes.rewrites <|
    Completes.bind rewrites fun _ => Completes.bind rewrites fun _ =>
    Completes.bind rewrites fun _ => Completes.bind rewrites fun _ =>
    Completes.bind rewrites fun _ => Completes.last rewrites fun _ => rfl

instance : TlCanonical ReqDHParams where
  canonical := .record [canonical Int128, canonical Int128, canonical Bytes, canonical Bytes,
    canonical Int64, canonical Bytes]

instance : LawfulCanonical ReqDHParams where
  rewrites := Completes.rewrites <|
    Completes.bind rewrites fun _ => Completes.bind rewrites fun _ =>
    Completes.bind rewrites fun _ => Completes.bind rewrites fun _ =>
    Completes.bind rewrites fun _ => Completes.last rewrites fun _ => rfl

instance : TlCanonical ServerDHParamsOk where
  canonical := .record [canonical Int128, canonical Int128, canonical Bytes, canonical Bytes]

instance : LawfulCanonical ServerDHParamsOk where
  rewrites := Completes.rewrites <|
    Completes.bind rewrites fun _ => Completes.bind rewrites fun _ =>
    Completes.bind rewrites fun _ => Completes.last rewrites fun _ => rfl

instance : TlCanonical ServerDHInnerData where
  canonical := .record [canonical Int128, canonical Int128, canonical Int32, canonical Bytes,
    canonical Bytes, canonical Int32]

instance : LawfulCanonical ServerDHInnerData where
  rewrites := Completes.rewrites <|
    Completes.bind rewrites fun _ => Completes.bind rewrites fun _ =>
    Completes.bind rewrites fun _ => Completes.bind rewrites fun _ =>
    Completes.bind rewrites fun _ => Completes.last rewrites fun _ => rfl

instance : TlCanonical ClientDHInnerData where
  canonical := .record [canonical Int128, canonical Int128, canonical Int64, canonical Bytes]

instance : LawfulCanonical ClientDHInnerData where
  rewrites := Completes.rewrites <|
    Completes.bind rewrites fun _ => Completes.bind rewrites fun _ =>
    Completes.bind rewrites fun _ => Completes.last rewrites fun _ => rfl

instance : TlCanonical SetClientDHParams where
  canonical := .record [canonical Int128, canonical Int128, canonical Bytes]

instance : LawfulCanonical SetClientDHParams where
  rewrites := Completes.rewrites <|
    Completes.bind rewrites fun _ => Completes.bind rewrites fun _ =>
    Completes.last rewrites fun _ => rfl

instance : TlCanonical DHGenOk where
  canonical := .record [canonical Int128, canonical Int128, canonical Int128]

instance : LawfulCanonical DHGenOk where
  rewrites := Completes.rewrites <|
    Completes.bind rewrites fun _ => Completes.bind rewrites fun _ =>
    Completes.last rewrites fun _ => rfl

instance : TlCanonical Message where
  canonical := .record [canonical MessageId, canonical ChatId, canonical UserId, canonical String,
    canonical Int64, canonical Bool, canonical Bool, canonical Bool]

instance : LawfulCanonical Message where
  rewrites := Completes.rewrites <|
    Completes.bind rewrites fun _ => Completes.bind rewrites fun _ =>
    Completes.bind rewrites fun _ => Completes.bind rewrites fun _ =>
    Completes.bind rewrites fun _ => Completes.bind rewrites fun _ =>
    Completes.bind rewrites fun _ => Completes.last rewrites fun _ => rfl

instance : TlCanonical Chat where
  canonical := .record [canonical ChatId, canonical String, canonical (List UserId), canonical Bool]

instance : LawfulCanonical Chat where
  rewrites := Completes.rewrites <|
    Completes.bind rewrites fun _ => Completes.bind rewrites fun _ =>
    Completes.bind rewrites fun _ => Completes.last rewrites fun _ => rfl

instance : TlCanonical SendMessage where
  canonical := .record [canonical ChatId, canonical String, canonical Int64]

instance : LawfulCanonical SendMessage where
  rewrites := Completes.rewrites <|
    Completes.bind rewrites fun _ => Completes.bind rewrites fun _ =>
    Completes.last rewrites fun _ => rfl

instance : TlCanonical SendMessageAck where
  canonical := .record [canonical MessageId]

instance : LawfulCanonical SendMessageAck where
  rewrites := Completes.rewrites <| Completes.last rewrites fun _ => rfl

instance : TlCanonical GetHistory where
  canonical := .record [canonical ChatId, canonical Int32, canonical Int32]

instance : LawfulCanonical GetHistory where
  rewrites := Completes.rewrites <|
    Completes.bind rewrites fun _ => Completes.bind rewrites fun _ =>
    Completes.last rewrites fun _ => rfl

instance : TlCanonical HistoryResult where
  canonical := .record [canonical (List Message), canonical Int32]

instance : LawfulCanonical HistoryResult where
  rewrites := Completes.rewrites <|
    Completes.bind rewrites fun _ => Completes.last rewrites fun _ => rfl

instance : TlCanonical UserStatusUpdate where
  canonical := .record [canonical UserId, canonical UserStatus]

instance : LawfulCanonical UserStatusUpdate where
  rewrites := Completes.rewrites <|
    Completes.bind rewrites fun _ => Completes.last rewrites fun _ => rfl

instance : TlCanonical SignUp where
  canonical := .record [canonical String, canonical String]

instance : LawfulCanonical SignUp where
  rewrites := Completes.rewrites <|
    Completes.bind rewrites fun _ => Completes.last rewrites fun _ => rfl

instance : TlCanonical DialogInfo where
  canonical := .record [canonical DialogId, canonical String, canonical Bool,
    canonical (List UserId), canonical (Option Message), canonical Int32]

instance : LawfulCanonical DialogInfo where
  rewrites := Completes.rewrites <|
    Completes.bind rewrites fun _ => Completes.bind rewrites fun _ =>
    Completes.bind rewrites fun _ => Completes.bind rewrites fun _ =>
    Completes.bind rewrites fun _ => Completes.last rewrites fun _ => rfl

instance : TlCanonical DialogList where
  canonical := .record [canonical (List DialogInfo)]

instance : LawfulCanonical DialogList where
  rewrites := Completes.rewrites <| Completes.last rewrites fun _ => rfl

instance : TlCanonical CreatePrivateDialog where
  canonical := .record [canonical UserId]

instance : LawfulCanonical CreatePrivateDialog where
  rewrites := Completes.rewrites <| Completes.last rewrites fun _ => rfl

instance : TlCanonical CreateGroup where
  canonical := .record [canonical String, canonical (List UserId)]

instance : LawfulCanonical CreateGroup where
  rewrites := Completes.rewrites <|
    Completes.bind rewrites fun _ => Completes.last rewrites fun _ => rfl

instance : TlCanonical AddGroupParticipant where
  canonical := .record [canonical DialogId, canonical UserId]

instance : LawfulCanonical AddGroupParticipant where
  rewrites := Completes.rewrites <|
    Completes.bind rewrites fun _ => Completes.last rewrites fun _ => rfl

instance : TlCanonical RemoveGroupParticipant where
  canonical := .record [canonical DialogId, canonical UserId]

instance : LawfulCanonical RemoveGroupParticipant where
  rewrites := Completes.rewrites <|
    Completes.bind rewrites fun _ => Completes.last rewrites fun _ => rfl

instance : TlCanonical GetDialogs where
  canonical := .record []

instance : LawfulCanonical GetDialogs where
  rewrites := Continues.pure rfl

/-! ### Boxed objects -/

def constructorCanonical (constructorId : UInt32) : Layout :=
  if constructorId = reqPqId then canonical ReqPq
  else if constructorId = resPqId then canonical ResPQ
  else if constructorId = pqInnerDataId then canonical PqInnerData
  else if constructorId = reqDhParamsId then canonical ReqDHParams
  else if constructorId = serverDhParamsOkId then canonical ServerDHParamsOk
  else if constructorId = serverDhInnerDataId then canonical ServerDHInnerData
  else if constructorId = clientDhInnerDataId then canonical ClientDHInnerData
  else if constructorId = setClientDhParamsId then canonical SetClientDHParams
  else if constructorId = dhGenOkId then canonical DHGenOk
  else if constructorId = messageId then canonical Message
  else if constructorId = chatId then canonical Chat
  else if constructorId = sendMessageId then canonical SendMessage
  else if constructorId = sendMessageAckId then canonical SendMessageAck
  else if constructorId = getHistoryId then canonical GetHistory
  else if constructorId = historyResultId then canonical HistoryResult
  else if constructorId = userStatusId then canonical UserStatusUpdate
  else if constructorId = signUpId then canonical SignUp
  else if constructorId = createPrivateDialogId then canonical CreatePrivateDialog
  else if constructorId = createGroupId then canonical CreateGroup
  else if constructorId = addGroupParticipantId then canonical AddGroupParticipant
  else if constructorId = removeGroupParticipantId then canonical RemoveGroupParticipant
  else if constructorId = getDialogsId then canonical GetDialogs
  else if constructorId = dialogInfoId then canonical DialogInfo
  else if constructorId = dialogListId then canonical DialogList
  else .never

def boxedCanonical : Layout := .header 4 fun buf => constructorCanonical (u32FromLeBytes buf)

theorem continues_boxed {α : Type} [TlWrite α] [TlRead α] [TlCanonical α] [LawfulCanonical α]
    {id : UInt32} {wrap : α → TlObject}
    (hwrite : ∀ obj, (wrap obj).writeBoxed = u32ToLeBytes id ++ writeBytes obj) :
    Continues (boxed wrap) (u32ToLeBytes id) TlObject.writeBoxed (canonical α) :=
  Continues.map rewrites hwrite

theorem continues_readConstructor (constructorId : UInt32) :
    Continues (readConstructor constructorId) (u32ToLeBytes constructorId) TlObject.writeBoxed
      (constructorCanonical constructorId) := by
  unfold readConstructor constructorCanonical
  repeat' refine Continues.ite (fun h => ?_) fun _ => ?_
  all_goals first
    | subst h
      exact continues_boxed fun _ => rfl
    | exact Continues.fail _

theorem rewrites_readBoxed : Rewrites TlObject.readBoxed TlObject.writeBoxed boxedCanonical := by
  simp only [TlObject.readBoxed, readBytes, bind_assoc, pure_bind]
  refine Continues.header fun buf => ?_
  have hsame := continues_readConstructor (u32FromLeBytes buf.toList)
  rw [u32ToLeBytes_u32FromLeBytes buf.length_toList] at hsame
  exact hsame

/-- An object is written back as the bytes it was read from exactly when these are canonical: each
length in the form the writer chooses for it, zeros as padding, flags that are 0 or 1. -/
theorem writeBoxed_readBoxed_iff {b rest : Bytes} {o : TlObject}
    (h : TlObject.readBoxed.run b = .ok o rest) :
    ∃ x, b = x ++ rest ∧ (o.writeBoxed = x ↔ boxedCanonical.whole x) := by
  obtain ⟨x, hb, hiff, -⟩ := rewrites_readBoxed.rewritten h
  exact ⟨x, hb, hiff⟩

/-- A group: a title and its padding, flags and a list. -/
def group : TlObject := .dialogInfo ⟨⟨7⟩, "Ada", true, [⟨1⟩, ⟨2⟩], none, 3⟩

/-- One byte of data with other padding than zeros. -/
def padded : Bytes := u32ToLeBytes setClientDhParamsId ++ (List.replicate 32 0 ++ [1, 5, 9, 9, 9])

def unpadded : TlObject :=
  .setClientDHParams ⟨⟨Vector.replicate 16 0⟩, ⟨Vector.replicate 16 0⟩, [5]⟩

theorem run_padded : TlObject.readBoxed.run padded = .ok unpadded [] := by decide +kernel

/-- One object is read from the bytes it is written as, the other is not. -/
theorem writeBoxed_readBoxed_iff_group :
    (∃ x, group.writeBoxed ++ [1] = x ++ [1] ∧ (group.writeBoxed = x ↔ boxedCanonical.whole x)) ∧
      ∃ x, padded = x ++ [] ∧ (unpadded.writeBoxed = x ↔ boxedCanonical.whole x) :=
  ⟨writeBoxed_readBoxed_iff (reads_writeBoxed group (by decide) [1]),
    writeBoxed_readBoxed_iff run_padded⟩

theorem not_writeBoxed_readBoxed : ∃ o, TlObject.readBoxed.run padded = .ok o [] ∧
    o.writeBoxed ≠ padded := ⟨unpadded, run_padded, by decide +kernel⟩

end KoSta.Tl
