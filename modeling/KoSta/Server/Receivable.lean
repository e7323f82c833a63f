import KoSta.Server.Exchanges
import KoSta.Server.Replies
import KoSta.Transport.Frames

/-! Whether the frames of responses can be received. -/
namespace KoSta.Server
open Lib Lib.Prog Tl Crypto Transport

variable {α β : Type} {w w' : World} {db : Database} {data frame : Bytes}

/-! ### Frames -/

/-- The framing takes the payload, and the peer gets it back whatever follows on the stream. -/
def Receivable (frame : Bytes) : Prop :=
  ∃ stream, encodeFrame frame = some stream ∧
    ∀ rest, decodeFrame.run (stream ++ rest) = .ok frame rest

theorem length_le_of_decodePayload {len : Nat} {p bs rest : Bytes}
    (h : (decodePayload len).run bs = .ok p rest) : len ≤ maxFrameSize := by
  unfold decodePayload at h
  split at h
  · simp at h
  · omega

theorem length_le_of_decodeFrame {p bs rest : Bytes} (h : decodeFrame.run bs = .ok p rest) :
    p.length ≤ maxFrameSize := by
  obtain ⟨v, mid, -, hmid⟩ := Reader.run_bind_eq_ok.mp h
  obtain ⟨len, mid', -, hpayload⟩ := Reader.run_bind_eq_ok.mp hmid
  rw [(length_of_decodePayload hpayload).1]
  exact length_le_of_decodePayload hpayload

theorem receivable_iff : Receivable frame ↔ frame.length ≤ maxFrameSize ∧ frame.length ≠ 127 := by
  constructor
  · rintro ⟨stream, hstream, hread⟩
    refine ⟨length_le_of_decodeFrame (hread []), fun h127 => ?_⟩
    have htaken := length_of_decodeFrame (hread [])
    have hshort := (length_of_encodeFrame hstream).2 h127
    rw [List.append_nil, List.length_nil] at htaken
    omega
  · rintro ⟨hlen, hne⟩
    exact decodeFrame_encodeFrame hlen hne

/-! ### From the reply to the frame -/

section Hands

variable [Platform] (draws : FrameDraws) (conn : ConnId)

/-- The frame that a turn makes of a reply and hands to `transport.send`. -/
inductive Hands (data : Bytes) (w : World) : Option FrameSession → Bytes → Prop where
  | plain : Hands data w none data
  | sealed {session : FrameSession} {seqNo : Int32} {counter : UInt32} {w' : World} {nonce : Nonce}
    {ciphertext : Bytes} {tag : Tag} {crypto : SessionCrypto} :
    (reserveResponse conn session.id).exec w = (.ok (seqNo, counter), w') →
    session.crypto.encryptOutgoingServer draws.responseRandom
      (withHeader (msgId draws.responseNow counter) seqNo data) =
        some ((nonce, ciphertext, tag), crypto) →
    Hands data w (some session) (sealFrame session.id nonce ciphertext tag)

/-- The reply to a request, as the frame that is handed over. -/
def Responds (statics : Statics) (session : Option FrameSession) (obj : TlObject) (w : World)
    (frame : Bytes) : Prop :=
  ∃ data w', (handleRequest statics draws.handler conn obj (session.map FrameSession.id)).exec w =
    (.ok (some data), w') ∧ Hands draws conn data w' session frame

omit [Platform] in
theorem exec_getSession (id : Int64) (mark : SessionData → List Event) (w : World) :
    ∃ session w', (getSession conn id mark).exec w = (.ok session, w') := by
  unfold getSession cacheLookup
  rw [exec_bind, exec_locked]
  dsimp only
  cases w.state.cache id with
  | some session => exact ⟨_, _, rfl⟩
  | none =>
    rw [exec_sql_bind]
    dsimp only [Database.getFullSession]
    cases w.state.db.sessions id with
    | none => exact ⟨_, _, rfl⟩
    | some row => exact ⟨_, _, rfl⟩

theorem exec_reserveResponse (id : Int64) (w : World) :
    overflowChecks = true ∧ (∃ w', (reserveResponse conn id).exec w = (.error .panic, w')) ∨
      ∃ reserved w', (reserveResponse conn id).exec w = (.ok reserved, w') := by
  unfold reserveResponse
  rw [exec_bind]
  obtain ⟨session, w', heq⟩ := exec_getSession conn id
    (fun session => [.lookedUp conn id session]) w
  rw [heq]
  cases session with
  | none => exact Or.inr ⟨_, _, rfl⟩
  | some session =>
    dsimp only
    cases hseq : succI32 session.sendSeqNo with
    | none =>
      unfold succI32 at hseq
      split at hseq
      · rename_i hchecks
        exact Or.inl ⟨hchecks.1, w', rfl⟩
      · cases hseq
    | some seq => exact Or.inr ⟨_, _, rfl⟩

omit [Platform] in
theorem exec_storeCounters (id : Int64) (crypto : SessionCrypto) (w : World) :
    ∃ w', (storeCounters conn id crypto).exec w = (.ok (), w') := by
  unfold storeCounters
  rw [exec_bind]
  obtain ⟨session, w', heq⟩ := exec_getSession conn id
    (fun session => [.lookedUp conn id session]) w
  rw [heq]
  cases session with
  | none => exact ⟨_, rfl⟩
  | some session =>
    dsimp only
    rw [exec_sql_bind]
    exact ⟨_, rfl⟩

/-- A turn with a reply hands over one frame, unless a counter overflows before. -/
theorem respond_cases (session : Option FrameSession) (data : Bytes) (w : World) :
    overflowChecks = true ∧ (∃ w', (respond draws conn session data).exec w = (.error .panic, w')) ∨
    ∃ frame events w', Hands draws conn data w session frame ∧
      (respond draws conn session data).exec w = (transportSend conn frame events).exec w' := by
  cases session with
  | none => exact Or.inr ⟨data, [], w, .plain, rfl⟩
  | some session =>
    unfold respond respondEncrypted
    dsimp only
    rw [exec_bind]
    rcases exec_reserveResponse conn session.id w with
      ⟨hchecks, w', heq⟩ | ⟨⟨seqNo, counter⟩, w', heq⟩
    · rw [heq]
      exact Or.inl ⟨hchecks, w', rfl⟩
    · rw [heq]
      dsimp only
      cases hsealed : session.crypto.encryptOutgoingServer draws.responseRandom
        (withHeader (msgId draws.responseNow counter) seqNo data) with
      | none =>
        simp only [SessionCrypto.encryptOutgoingServer, SessionCrypto.encryptWith,
          Option.bind_eq_bind, Option.pure_def, Option.bind_eq_none_iff, reduceCtorEq] at hsealed
        have hnone : succU32 session.crypto.sendCounter = none :=
          Option.eq_none_iff_forall_ne_some.mpr fun counter hcounter => hsealed counter hcounter
        unfold succU32 at hnone
        split at hnone
        · rename_i hchecks
          exact Or.inl ⟨hchecks.1, w', rfl⟩
        · cases hnone
      | some sealed =>
        obtain ⟨⟨nonce, ciphertext, tag⟩, crypto⟩ := sealed
        obtain ⟨w'', hstore⟩ := exec_storeCounters conn session.id crypto w'
        let frame := sealFrame session.id nonce ciphertext tag
        refine Or.inr ⟨frame, [.stamped conn session.id draws.responseNow counter,
          .sealed conn session.id frame], w'', .sealed heq hsealed, ?_⟩
        change (storeCounters conn session.id crypto >>= _).exec w' = _
        rw [exec_bind, hstore]

theorem exists_responds (hchecks : overflowChecks = false) {statics : Statics}
    {session : Option FrameSession} {obj : TlObject}
    (h : (handleRequest statics draws.handler conn obj (session.map FrameSession.id)).exec w =
      (.ok (some data), w')) : ∃ frame, Responds draws conn statics session obj w frame := by
  rcases respond_cases draws conn session data w' with ⟨htrue, -⟩ | ⟨frame, -, -, hands, -⟩
  · cases hchecks.symm.trans htrue
  · exact ⟨frame, data, w', h, hands⟩

variable {draws conn} {session : Option FrameSession}

/-- A session adds its envelope and the header of the message. -/
def overhead (session : Option FrameSession) : Nat := session.elim 0 fun _ => 52

theorem Hands.length (h : Hands draws conn data w session frame) :
    frame.length = overhead session + data.length := by
  cases h with
  | plain => exact (Nat.zero_add _).symm
  | @sealed session seqNo counter w' nonce ciphertext tag crypto hreserve hsealed =>
    simp only [SessionCrypto.encryptOutgoingServer, SessionCrypto.encryptWith, encryptAndTag,
      Option.bind_eq_bind, Option.bind_eq_some_iff, Option.pure_def, Option.some.injEq,
      Prod.mk.injEq] at hsealed
    obtain ⟨sendCounter, -, ⟨-, rfl, -⟩, -⟩ := hsealed
    have hheader : (withHeader (msgId draws.responseNow counter) seqNo data).length =
        12 + data.length := by
      simp only [withHeader, List.length_append, length_writeBytes_i64, length_writeBytes_i32]
      omega
    rw [length_sealFrame, length_ctrEncrypt, hheader]
    change _ = 52 + _
    omega

end Hands

/-! ### The sizes of replies -/

namespace Database

/-- The row id that the next dialog gets. -/
def newDialogId (db : Database) : Int64 :=
  (nextRowid (largestRowid (db.dialogs.map DialogRow.id))).getD 0

/-- The dialog a request of the user is answered with, and its members by then. -/
def shown (db : Database) (u : Int64) : TlObject → Int64 × List Int64
  | .createPrivateDialog req =>
    match (selectPrivateDialog u req.userId.val db).1 with
    | .ok (some dialogId) => (dialogId, db.memberIds dialogId)
    | _ => (db.newDialogId, ascending [u, req.userId.val])
  | .createGroup req => (db.newDialogId, ascending (u :: req.participants.map UserId.val))
  | .addGroupParticipant req =>
    let members := db.memberIds req.dialogId.val
    (req.dialogId.val,
      if members.contains req.userId.val then members
      else ascending (members ++ [req.userId.val]))
  | .removeGroupParticipant req =>
    (req.dialogId.val, (db.memberIds req.dialogId.val).filter fun u => u != req.userId.val)
  | _ => (0, [])

def infoSize (users : List UserRow) (u : Int64) (dialog : Int64 × List Int64) : Nat :=
  dialogInfoSize (titleOf users dialog.2 dialog.1 u) dialog.2.length

/-- The bytes of the reply to a request of the user, from what is stored before. -/
def replySize (db : Database) (u : Int64) : TlObject → Nat
  | .sendMessage req => 4 + messageSize req.text
  | .getHistory req => 12 +
    ((db.historyRows req.chatId.val req.offset req.limit).map fun row => messageSize row.text).sum
  | .getDialogs _ => 8 +
    ((db.dialogIds u).map fun d => infoSize db.users u (d, db.memberIds d)).sum
  | .createPrivateDialog req => 4 + infoSize db.users u (db.shown u (.createPrivateDialog req))
  | .createGroup req => 4 + infoSize db.users u (db.shown u (.createGroup req))
  | .addGroupParticipant req => 4 + infoSize db.users u (db.shown u (.addGroupParticipant req))
  | .removeGroupParticipant req => 4 + infoSize db.users u
    (db.shown u (.removeGroupParticipant req))
  | _ => 0

end Database

/-- What has to be so, as nothing bounds a reply: with its envelope it is no longer than what a
peer reads. -/
def ReplyFits (w : World) (session : Option Int64) (obj : TlObject) : Prop :=
  ∀ u, requester w session = some u → 52 + w.state.db.replySize u obj ≤ maxFrameSize

theorem asUser_ok {session : Option Int64} {k : Int64 → ServerM α} {a : α}
    (h : (getUserId session >>= k).exec w = (.ok a, w')) :
    ∃ u, requester w session = some u ∧ (k u).exec w = (.ok a, w') := by
  rw [exec_asUser] at h
  cases hwho : requester w session with
  | none =>
    rw [hwho] at h
    cases h
  | some u =>
    rw [hwho] at h
    exact ⟨u, rfl, h⟩

/-- The user is shown a dialog with its members as they are by then. -/
structure Shows (w w' : World) (u : Int64) (dialog : Int64 × List Int64) (data : Bytes) : Prop where
  members : w'.state.db.memberIds dialog.1 = dialog.2
  users : w'.state.db.users = w.state.db.users
  data : data = (TlObject.dialogInfo (w'.state.db.info dialog.1 u)).writeBoxed

theorem Shows.length {u : Int64} {dialog : Int64 × List Int64} (h : Shows w w' u dialog data) :
    data.length = 4 + Database.infoSize w.state.db.users u dialog := by
  rw [h.data, length_dialogInfo rfl]
  simp only [Database.info, infoOf, List.length_map, Database.infoSize, h.members, h.users]

theorem replyDialogInfo_ok {p : ServerM Int64} {u : Int64}
    (h : (p >>= fun d => replyDialogInfo d u).exec w = (.ok (some data), w')) :
    ∃ d, p.exec w = (.ok d, w') ∧
      data = (TlObject.dialogInfo (w'.state.db.info d u)).writeBoxed := by
  rw [exec_bind] at h
  rcases hexec : p.exec w with ⟨e | d, w₁⟩
  · rw [hexec] at h
    cases h
  · rw [hexec] at h
    dsimp only at h
    rw [exec_replyDialogInfo] at h
    cases h
    exact ⟨d, rfl, rfl⟩

theorem insertParticipants_ok {d : Int64} (users : List Int64)
    (h : (insertParticipants d users).exec w = (.ok (), w')) :
    w'.state.db = { w.state.db with
      participants := w.state.db.participants ++ users.map (ParticipantRow.mk d) } := by
  induction users generalizing w with
  | nil =>
    cases h
    simp
  | cons user users ih =>
    rw [insertParticipants, exec_sql_bind] at h
    rcases insertParticipant_cases d user w.state.db with ⟨e, heq, -⟩ | ⟨heq, -⟩
    · rw [heq] at h
      cases h
    · rw [heq] at h
      have hrest := ih h
      simpa [Database.enter] using hrest

theorem Database.Sound.no_members (h : db.Sound) {id : Int64}
    (hid : nextRowid (largestRowid (db.dialogs.map DialogRow.id)) = some id) :
    (db.participants.filter fun p => p.dialogId == id) = [] := by
  rw [List.filter_eq_nil_iff]
  intro p hp heq
  apply not_mem_of_nextRowid hid
  rw [← beq_iff_eq.mp heq]
  exact Database.hasDialog_iff.mp (h.dialog p hp)

/-- There is one ascending order of some ids. -/
theorem ascending_eq {ids sorted : List Int64} (hsorted : sorted.Pairwise (· ≤ ·))
    (hperm : sorted.Perm ids) : Database.ascending ids = sorted := by
  unfold Database.ascending
  refine List.Perm.eq_of_pairwise (fun _ _ _ _ => Int64.le_antisymm)
    (List.pairwise_insertionSort _ ids) hsorted ?_
  exact (List.perm_insertionSort _ ids).trans hperm.symm

theorem pairwise_ascending (ids : List Int64) : (Database.ascending ids).Pairwise (· ≤ ·) :=
  List.pairwise_insertionSort _ ids

theorem perm_ascending (ids : List Int64) : (Database.ascending ids).Perm ids :=
  List.perm_insertionSort _ ids

theorem memberIds_append (d : Int64) (users : List Int64) (db : Database)
    (hnone : (db.participants.filter fun p => p.dialogId == d) = []) :
    Database.memberIds
      { db with participants := db.participants ++ users.map (ParticipantRow.mk d) } d =
        Database.ascending users := by
  unfold Database.memberIds
  rw [List.filter_append, hnone, List.nil_append, List.filter_map, List.map_map]
  have hall : users.filter ((fun p : ParticipantRow => p.dialogId == d) ∘ ParticipantRow.mk d) =
      users := List.filter_eq_self.mpr fun u _ => beq_self_eq_true d
  rw [hall]
  exact congrArg Database.ascending (List.map_id users)

/-- A new dialog has the members it is created with. -/
theorem insertMembers_ok {type id : Int64} {title : String} {users : List Int64}
    (hsound : w.state.db.Sound)
    (h : (insertMembers type title users).exec w = (.ok id, w')) :
    id = w.state.db.newDialogId ∧ w'.state.db.memberIds id = Database.ascending users ∧
      w'.state.db.users = w.state.db.users := by
  unfold insertMembers at h
  rw [exec_sql_bind] at h
  rcases insertDialog_cases type title w.state.db with ⟨-, hfull⟩ | ⟨new, hnew, hinserted⟩
  · rw [hfull] at h
    cases h
  · rw [hinserted] at h
    dsimp only at h
    rw [exec_bind] at h
    cases hexec : (insertParticipants new users).exec
      (w.withDb (w.state.db.found ⟨new, type, title⟩)) with
    | mk result w₁ =>
      rw [hexec] at h
      cases result with
      | error e => cases h
      | ok _ =>
        cases h
        have hdb := insertParticipants_ok users hexec
        have hid : w.state.db.newDialogId = id := by
          rw [Database.newDialogId, hnew]
          rfl
        refine ⟨hid.symm, ?_, ?_⟩
        · rw [hdb]
          exact memberIds_append id users _ (hsound.no_members hnew)
        · rw [hdb]
          rfl

theorem memberIds_removeParticipant (d u : Int64) (db : Database) :
    (Database.removeParticipant d u db).2.memberIds d = (db.memberIds d).filter
      fun v => v != u := by
  unfold Database.memberIds
  refine ascending_eq ((pairwise_ascending _).filter _) (((perm_ascending _).filter _).trans ?_)
  apply List.Perm.of_eq
  change _ = ((db.participants.filter fun p => !(p.dialogId == d && p.userId == u)).filter
    fun p => p.dialogId == d).map ParticipantRow.userId
  rw [List.filter_map, List.filter_filter, List.filter_filter]
  refine congrArg (List.map ParticipantRow.userId) (List.filter_congr fun p _ => ?_)
  simp only [Function.comp_apply, bne]
  cases p.dialogId == d <;> cases p.userId == u <;> rfl

theorem memberIds_addParticipant {d u : Int64} {db' : Database}
    (h : Database.addParticipant d u db = (.ok (), db')) :
    db'.memberIds d = (if (db.memberIds d).contains u then db.memberIds d
      else Database.ascending (db.memberIds d ++ [u])) ∧ db'.users = db.users := by
  unfold Database.addParticipant at h
  rw [contains_memberIds]
  split at h
  · rename_i hmember
    cases h
    rw [if_pos hmember]
    exact ⟨rfl, rfl⟩
  · rename_i hmember
    rw [if_neg hmember]
    split at h
    · cases h
      refine ⟨?_, rfl⟩
      have hrows : ((db.participants ++ [ParticipantRow.mk d u]).filter
        fun p => p.dialogId == d).map
          ParticipantRow.userId =
            (db.participants.filter fun p => p.dialogId == d).map ParticipantRow.userId ++ [u] := by
        simp [List.filter_append]
      unfold Database.memberIds
      rw [hrows]
      exact ascending_eq (pairwise_ascending _)
        ((perm_ascending _).trans ((perm_ascending _).append_right [u]))
    · cases h

/-! ### One reply after the other -/

section Replies

variable [Platform] {statics : Statics} {draws : Draws} {conn : ConnId} {session : Option Int64}

/-- The reply to a request of a user takes as many bytes as is said above. -/
def Sized (w : World) (session : Option Int64) (obj : TlObject) (data : Bytes) : Prop :=
  ∃ u, requester w session = some u ∧ data.length = w.state.db.replySize u obj

omit [Platform] in
theorem sized_handleSendMessage {req : SendMessage}
    (h : (handleSendMessage draws session req).exec w = (.ok (some data), w')) :
    Sized w session (.sendMessage req) data := by
  obtain ⟨u, hu, hexec⟩ := asUser_ok h
  refine ⟨u, hu, ?_⟩
  rw [exec_sql_bind] at hexec
  split at hexec
  · obtain ⟨hdata, -⟩ := Prod.mk.inj hexec
    cases hdata
    exact length_message _
  · cases hexec

omit [Platform] in
theorem sized_handleGetHistory {req : GetHistory}
    (h : (handleGetHistory session req).exec w = (.ok (some data), w')) :
    Sized w session (.getHistory req) data := by
  rw [exec_handleGetHistory] at h
  cases hwho : requester w session with
  | none =>
    rw [hwho] at h
    cases h
  | some u =>
    rw [hwho] at h
    obtain ⟨hdata, -⟩ := Prod.mk.inj h
    cases hdata
    refine ⟨u, hwho, ?_⟩
    rw [length_historyResult]
    simp only [historyOf, List.map_map, Database.replySize]
    rfl

omit [Platform] in
theorem sized_handleGetDialogs {req : GetDialogs}
    (h : (handleGetDialogs session).exec w = (.ok (some data), w')) :
    Sized w session (.getDialogs req) data := by
  rw [exec_handleGetDialogs] at h
  cases hwho : requester w session with
  | none =>
    rw [hwho] at h
    cases h
  | some u =>
    rw [hwho] at h
    obtain ⟨hdata, -⟩ := Prod.mk.inj h
    cases hdata
    refine ⟨u, hwho, ?_⟩
    rw [length_dialogList fun info hinfo => ?_]
    · simp only [List.map_map, Database.replySize, Database.infoSize]
      refine congrArg (fun sizes => 8 + sizes.sum) (List.map_congr_left fun d _ => ?_)
      simp only [Function.comp_apply, Database.info, infoOf, List.length_map]
    · obtain ⟨d, -, rfl⟩ := List.mem_map.mp hinfo
      rfl

omit [Platform] in
theorem shows_handleCreatePrivateDialog (hdb : w.state.db.Reachable) {req : CreatePrivateDialog}
    (h : (handleCreatePrivateDialog session req).exec w = (.ok (some data), w')) :
    ∃ u, requester w session = some u ∧
      Shows w w' u (w.state.db.shown u (.createPrivateDialog req)) data := by
  obtain ⟨u, hu, hexec⟩ := asUser_ok h
  refine ⟨u, hu, ?_⟩
  obtain ⟨d, hcreated, hdata⟩ := replyDialogInfo_ok hexec
  rw [createPrivateDialog_eq, exec_sql_bind] at hcreated
  dsimp only [Database.shown]
  rcases selectPrivateDialog_cases u req.userId.val w.state.db with ⟨row, -, hsome⟩ | ⟨-, hnone⟩
  · rw [hsome] at hcreated ⊢
    cases hcreated
    exact ⟨rfl, rfl, hdata⟩
  · rw [hnone] at hcreated ⊢
    obtain ⟨rfl, hmembers, husers⟩ := insertMembers_ok hdb.sound hcreated
    exact ⟨hmembers, husers, hdata⟩

omit [Platform] in
theorem shows_handleCreateGroup (hdb : w.state.db.Reachable) {req : CreateGroup}
    (h : (handleCreateGroup session req).exec w = (.ok (some data), w')) :
    ∃ u, requester w session = some u ∧
      Shows w w' u (w.state.db.shown u (.createGroup req)) data := by
  obtain ⟨u, hu, hexec⟩ := asUser_ok h
  refine ⟨u, hu, ?_⟩
  obtain ⟨d, hcreated, hdata⟩ := replyDialogInfo_ok hexec
  obtain ⟨rfl, hmembers, husers⟩ := insertMembers_ok hdb.sound hcreated
  exact ⟨hmembers, husers, hdata⟩

omit [Platform] in
theorem shows_handleAddGroupParticipant {req : AddGroupParticipant}
    (h : (handleAddGroupParticipant session req).exec w = (.ok (some data), w')) :
    ∃ u, requester w session = some u ∧
      Shows w w' u (w.state.db.shown u (.addGroupParticipant req)) data := by
  obtain ⟨u, hu, hexec⟩ := asUser_ok h
  refine ⟨u, hu, ?_⟩
  rw [exec_members_bind] at hexec
  split at hexec
  · cases hexec
  · rw [exec_sql_bind] at hexec
    split at hexec
    · rename_i db' hadded
      obtain ⟨hmembers, husers⟩ := memberIds_addParticipant hadded
      rw [exec_replyDialogInfo] at hexec
      cases hexec
      exact ⟨hmembers, husers, rfl⟩
    · cases hexec

omit [Platform] in
theorem shows_handleRemoveGroupParticipant {req : RemoveGroupParticipant}
    (h : (handleRemoveGroupParticipant session req).exec w = (.ok (some data), w')) :
    ∃ u, requester w session = some u ∧
      Shows w w' u (w.state.db.shown u (.removeGroupParticipant req)) data := by
  obtain ⟨u, hu, hexec⟩ := asUser_ok h
  refine ⟨u, hu, ?_⟩
  rw [exec_members_bind] at hexec
  split at hexec
  · cases hexec
  · split at hexec
    · cases hexec
    · rw [exec_sql_bind] at hexec
      change (replyDialogInfo req.dialogId.val u).exec
        (w.withDb (Database.removeParticipant req.dialogId.val req.userId.val w.state.db).2) =
          _ at hexec
      rw [exec_replyDialogInfo] at hexec
      cases hexec
      exact ⟨memberIds_removeParticipant _ _ _, rfl, rfl⟩

omit [Platform] in
/-- A dialog that is shown has the size it is said to have. -/
theorem sized_of_shows {obj : TlObject}
    (hsize : ∀ u, w.state.db.replySize u obj =
      4 + Database.infoSize w.state.db.users u (w.state.db.shown u obj))
    (h : ∃ u, requester w session = some u ∧ Shows w w' u (w.state.db.shown u obj) data) :
    Sized w session obj data := by
  obtain ⟨u, hu, hshows⟩ := h
  exact ⟨u, hu, hshows.length.trans (hsize u).symm⟩

/-! ### No reply at all -/

abbrev Silent (p : ServerM (Option Bytes)) : Prop :=
  p.Maintains (fun _ => True) fun reply => reply = none

omit [Platform] in
theorem silent_bind {p : ServerM α} {k : α → ServerM (Option Bytes)} (h : ∀ a, Silent (k a)) :
    Silent (p >>= k) := by
  have hp : p.Maintains (fun _ => True) fun _ => True :=
    Maintains.of_always (Always.of_forall (fun _ _ => trivial) p) fun {_ _} _ _ => trivial
  exact hp.bind fun a _ => h a

omit [Platform] in
theorem Silent.exec {p : ServerM (Option Bytes)} (h : Silent p) (w : World) :
    p.exec w ≠ (.ok (some data), w') := by
  intro hexec
  have hnone := (Maintains.exec h trivial).2 (some data) (by rw [hexec])
  cases hnone

theorem silent_handleSignUp {req : SignUp} : Silent (handleSignUp draws conn session req) := by
  apply silent_bind
  intro userId
  cases session with
  | none => exact Maintains.pure rfl
  | some id =>
    apply silent_bind
    intro _
    apply silent_bind
    intro found
    cases found with
    | none => exact Maintains.pure rfl
    | some session => exact silent_bind fun _ => Maintains.pure rfl

omit [Platform] in
theorem silent_handleSendAck {req : SendMessageAck} : Silent (handleSendAck session req) :=
  silent_bind fun _ => silent_bind fun _ => Maintains.pure rfl

omit [Platform] in
theorem silent_handleUserStatus {req : UserStatusUpdate} :
    Silent (handleUserStatus session req) := by
  apply silent_bind
  intro u
  exact Maintains.ite (Maintains.fail _) (silent_bind fun _ => Maintains.pure rfl)

/-! ### Key exchanges -/

omit [Platform] in
theorem candidate_lt (draw : PrimeDraw) : candidate draw < 2 ^ 32 := by
  have hnum : fromBytesLe draw.bytes.toList < 2 ^ 32 := by
    have hlt := ofLeBytes_lt draw.bytes.toList
    rw [Vector.length_toList] at hlt
    exact hlt
  unfold candidate
  dsimp only
  split
  · decide
  · exact Nat.or_lt_two_pow hnum (by decide)

omit [Platform] in
theorem generateRandomPrime_lt {primes rest : List PrimeDraw} {p : Nat}
    (h : generateRandomPrime primes = some (p, rest)) : p < 2 ^ 32 := by
  induction primes with
  | nil => cases h
  | cons draw primes ih =>
    unfold generateRandomPrime at h
    split at h
    · cases h
      exact candidate_lt draw
    · exact ih h

omit [Platform] in
theorem generateOtherPrime_lt {primes : List PrimeDraw} {p q : Nat}
    (h : generateOtherPrime p primes = some q) : q < 2 ^ 32 := by
  induction primes with
  | nil => cases h
  | cons draw primes ih =>
    unfold generateOtherPrime at h
    split at h
    · cases h
      exact candidate_lt draw
    · exact ih h

omit [Platform] in
theorem length_toBytesBe_mul_le {p q : Nat} (hp : p < 2 ^ 32) (hq : q < 2 ^ 32) :
    (toBytesBe (p * q)).length ≤ 8 := by
  have hpq : p * q < 2 ^ 64 := by
    calc p * q < 2 ^ 32 * 2 ^ 32 := Nat.mul_lt_mul'' hp hq
      _ = 2 ^ 64 := by decide
  exact length_toBytesBe_le hpq

/-- Both primes have four bytes at most, and their product has eight. -/
theorem length_handleReqPq {req : ReqPq}
    (h : (handleReqPq statics draws req).exec w = (.ok (some data), w')) : data.length ≤ 67 := by
  unfold handleReqPq at h
  cases hp : generateRandomPrime draws.primes with
  | none =>
    rw [hp] at h
    cases h
  | some found =>
    obtain ⟨p, rest⟩ := found
    rw [hp] at h
    change (orSearching (generateOtherPrime p rest) >>= _ : ServerM (Option Bytes)).exec w = _ at h
    cases hq : generateOtherPrime p rest with
    | none =>
      rw [hq] at h
      cases h
    | some q =>
      rw [hq] at h
      obtain ⟨hdata, -⟩ := Prod.mk.inj h
      cases hdata
      have hplt := generateRandomPrime_lt hp
      have hqlt := generateOtherPrime_lt hq
      have hproduct := tlSize_of_le (k := 2) (length_toBytesBe_mul_le hplt hqlt) (by decide)
      have hfirst := tlSize_of_le (k := 1) (length_toBytesBe_le hplt) (by decide)
      have hsecond := tlSize_of_le (k := 1) (length_toBytesBe_le hqlt) (by decide)
      rw [length_resPQ]
      dsimp only
      rw [List.length_singleton]
      omega

theorem length_handleReqDhParams (hgcm : ∀ key nonce data ciphertext,
      aes256GcmEncrypt key nonce data = some ciphertext → ciphertext.length = data.length + 16)
    (hpos : 0 < statics.dhPrime) (hsmall : statics.dhPrime < 2 ^ 2048) {req : ReqDHParams}
    (h : (handleReqDhParams statics draws req).exec w = (.ok (some data), w')) :
    ∃ len, len ≤ 2064 ∧ data.length = 101 + tlSize len := by
  have hpad := length_pad_answerOf hpos hsmall draws req
  rcases handleReqDhParams_cases statics draws req w with ⟨e, heq, -⟩ | ⟨inner, -, heq⟩
  · cases heq.symm.trans h
  · have hanswer := (Prod.mk.inj (heq.symm.trans h)).1
    unfold answer encryptInner at hanswer
    cases hencrypted : aes256GcmEncrypt (tmpKey inner.newNonce req.serverNonce).1
      (tmpKey inner.newNonce req.serverNonce).2
      (pad draws.padding (TlObject.serverDHInnerData (answerOf statics draws req)).writeBoxed) with
    | none =>
      rw [hencrypted] at hanswer
      cases hanswer
    | some encryptedAnswer =>
      rw [hencrypted] at hanswer
      cases hanswer
      have hexpanded := hgcm _ _ _ _ hencrypted
      refine ⟨encryptedAnswer.length, by omega, ?_⟩
      have hsignature : tlSize 64 = 65 := rfl
      rw [paramsOk, length_serverDHParamsOk, Vector.length_toList, hsignature]
      exact Nat.add_right_comm 36 _ 65

theorem length_handleSetClientDhParams {req : SetClientDHParams}
    (h : (handleSetClientDhParams statics draws conn req).exec w = (.ok (some data), w')) :
    data.length = 52 := by
  rcases handleSetClientDhParams_cases statics draws conn req w with
    ⟨e, heq⟩ | ⟨entry, inner, -, -, heq⟩
  · cases heq.symm.trans h
  · have hdata := (Prod.mk.inj (heq.symm.trans h)).1
    cases hdata
    exact length_dhGenOk _

end Replies

/-! ### No reply makes a frame of 127 bytes -/

theorem sum_ne (sizes : List Nat) (h : ∀ s ∈ sizes, s % 4 ≤ 1 ∧ 25 ≤ s) :
    sizes.sum ≠ 63 ∧ sizes.sum ≠ 67 := by
  rcases sizes with _ | ⟨a, _ | ⟨b, _ | ⟨c, sizes⟩⟩⟩
  · decide
  · have ha := h a (by simp)
    simp only [List.sum_cons, List.sum_nil]
    omega
  · have ha := h a (by simp)
    have hb := h b (by simp)
    simp only [List.sum_cons, List.sum_nil]
    omega
  · have ha := h a (by simp)
    have hb := h b (by simp)
    have hc := h c (by simp)
    simp only [List.sum_cons]
    omega

theorem messageSize_bounds (text : String) : messageSize text % 4 ≤ 1 ∧ 25 ≤ messageSize text := by
  have hmod := tlSize_mod (asBytes text).length
  unfold messageSize textSize
  omega

theorem infoSize_bounds (users : List UserRow) (u : Int64) (dialog : Int64 × List Int64) :
    Database.infoSize users u dialog % 4 ≤ 1 ∧ 25 ≤ Database.infoSize users u dialog := by
  unfold Database.infoSize dialogInfoSize textSize
  generalize (asBytes (titleOf users dialog.2 dialog.1 u)).length = len
  have hmod := tlSize_mod len
  have hpos := tlSize_pos len
  omega

theorem replySize_ne (db : Database) (u : Int64) (obj : TlObject) : db.replySize u obj ≠ 75 := by
  cases obj with
  | sendMessage req =>
    have := (messageSize_bounds req.text).1
    simp only [Database.replySize]
    omega
  | getHistory req =>
    have hsum := (sum_ne ((db.historyRows req.chatId.val req.offset req.limit).map fun row =>
      messageSize row.text) fun s hs => by
        obtain ⟨row, -, rfl⟩ := List.mem_map.mp hs
        exact messageSize_bounds row.text).1
    simp only [Database.replySize]
    omega
  | getDialogs req =>
    have hsum := (sum_ne
      ((db.dialogIds u).map fun d => Database.infoSize db.users u (d, db.memberIds d))
      fun s hs => by
        obtain ⟨d, -, rfl⟩ := List.mem_map.mp hs
        exact infoSize_bounds _ _ _).2
    simp only [Database.replySize]
    omega
  | createPrivateDialog req =>
    have := (infoSize_bounds db.users u (db.shown u (.createPrivateDialog req))).1
    simp only [Database.replySize]
    omega
  | createGroup req =>
    have := (infoSize_bounds db.users u (db.shown u (.createGroup req))).1
    simp only [Database.replySize]
    omega
  | addGroupParticipant req =>
    have := (infoSize_bounds db.users u (db.shown u (.addGroupParticipant req))).1
    simp only [Database.replySize]
    omega
  | removeGroupParticipant req =>
    have := (infoSize_bounds db.users u (db.shown u (.removeGroupParticipant req))).1
    simp only [Database.replySize]
    omega
  | _ => exact fun h => nomatch h

section Responses

variable [Platform] {statics : Statics} {draws : FrameDraws} {conn : ConnId}
  {session : Option FrameSession}

/-- A reply is sized by what is stored, or is one of a key exchange, which is small. -/
theorem reply_cases (hgcm : ∀ key nonce data ciphertext,
      aes256GcmEncrypt key nonce data = some ciphertext → ciphertext.length = data.length + 16)
    (hpos : 0 < statics.dhPrime) (hsmall : statics.dhPrime < 2 ^ 2048)
    (hdb : w.state.db.Reachable) {draws : Draws} {session : Option Int64} {obj : TlObject}
    (h : (handleRequest statics draws conn obj session).exec w = (.ok (some data), w')) :
    Sized w session obj data ∨ (∀ u, w.state.db.replySize u obj = 0) ∧
      data.length ≤ 4096 ∧ data.length ≠ 75 ∧ data.length ≠ 127 := by
  cases obj with
  | reqPq req =>
    have hlen := length_handleReqPq h
    exact Or.inr ⟨fun _ => rfl, by omega, by omega, by omega⟩
  | reqDHParams req =>
    obtain ⟨len, hle, hlen⟩ := length_handleReqDhParams hgcm hpos hsmall h
    have hmod := tlSize_mod len
    have hsize := tlSize_le len
    exact Or.inr ⟨fun _ => rfl, by omega, by omega, by omega⟩
  | setClientDHParams req =>
    have hlen := length_handleSetClientDhParams h
    exact Or.inr ⟨fun _ => rfl, by omega, by omega, by omega⟩
  | sendMessage req => exact Or.inl (sized_handleSendMessage h)
  | getHistory req => exact Or.inl (sized_handleGetHistory h)
  | getDialogs req => exact Or.inl (sized_handleGetDialogs h)
  | createPrivateDialog req =>
    exact Or.inl (sized_of_shows (fun _ => rfl) (shows_handleCreatePrivateDialog hdb h))
  | createGroup req =>
    exact Or.inl (sized_of_shows (fun _ => rfl) (shows_handleCreateGroup hdb h))
  | addGroupParticipant req =>
    exact Or.inl (sized_of_shows (fun _ => rfl) (shows_handleAddGroupParticipant h))
  | removeGroupParticipant req =>
    exact Or.inl (sized_of_shows (fun _ => rfl) (shows_handleRemoveGroupParticipant h))
  | signUp req => exact absurd h (silent_handleSignUp.exec w)
  | sendMessageAck req => exact absurd h (silent_handleSendAck.exec w)
  | userStatusUpdate req => exact absurd h (silent_handleUserStatus.exec w)
  | _ => cases h

/-- The frame of a response can be received just when the reply, as it is sized by what is stored,
is no longer than a frame can be. -/
theorem response_receivable_iff (hgcm : ∀ key nonce data ciphertext,
      aes256GcmEncrypt key nonce data = some ciphertext → ciphertext.length = data.length + 16)
    (hpos : 0 < statics.dhPrime) (hsmall : statics.dhPrime < 2 ^ 2048)
    (hdb : w.state.db.Reachable) {obj : TlObject}
    (h : Responds draws conn statics session obj w frame) :
    Receivable frame ↔ ReplyFits w (session.map FrameSession.id) obj := by
  obtain ⟨data, w', hhandled, hands⟩ := h
  rw [receivable_iff, hands.length]
  rcases reply_cases hgcm hpos hsmall hdb hhandled with ⟨u, hu, hsize⟩ | ⟨hzero, hle, hne, hne'⟩
  · cases session with
    | none => cases hu
    | some session =>
      have hne := replySize_ne w.state.db u obj
      have hunique : ReplyFits w (some session.id) obj ↔
          52 + w.state.db.replySize u obj ≤ maxFrameSize := by
        constructor
        · exact fun hfits => hfits u hu
        · intro hle u' hu'
          cases hu.symm.trans hu'
          exact hle
      refine Iff.trans ?_ hunique.symm
      change 52 + data.length ≤ maxFrameSize ∧ 52 + data.length ≠ 127 ↔ _
      omega
  · have hover : overhead session = 0 ∨ overhead session = 52 := by
      cases session with
      | none => exact Or.inl rfl
      | some session => exact Or.inr rfl
    have hmax : maxFrameSize = 1048576 := rfl
    refine iff_of_true (by omega) fun u _ => ?_
    rw [hzero u]
    omega

end Responses

/-! ### A long message -/

namespace Sample

/-- User 0 has a group of their own. -/
def grouped : World := after [.createGroup ⟨"g", []⟩]

/-- The clone of the session that has decrypted a frame. -/
def clone : FrameSession :=
  ⟨id, 1, ⟨Vector.replicate 32 0, Vector.replicate 32 0, Vector.replicate 32 0,
    Vector.replicate 32 0, 0, 0⟩⟩

def saying (text : String) : TlObject := .sendMessage ⟨⟨1⟩, text, 0⟩

def long : String := String.ofList (List.replicate 1048500 'a')

theorem requests_grouped :
    letI := platform
    Requests statics (fun _ _ => True) World.init grouped :=
  letI := platform
  requests_handleRequests (w := World.init) statics (requests [.createGroup ⟨"g", []⟩]) .refl
    ⟨trivial, trivial, trivial, trivial⟩

theorem reachable_grouped : grouped.state.db.Reachable := by
  refine .other (.insertParticipant 1 0 (.insertDialog 1 "g" .init)) ?_ ?_ ?_
  · decide +kernel
  · decide +kernel
  · decide +kernel

/-- Every text is stored and sent back. -/
theorem handleSendMessage_grouped (text : String) : letI := platform
    ∃ w', (handleSendMessage (draws 0).handler (some id) ⟨⟨1⟩, text, 0⟩).exec grouped =
      (.ok (some (TlObject.message ⟨⟨1⟩, ⟨1⟩, ⟨0⟩, text, 0, true, false, false⟩).writeBoxed),
        w') := by
  have hwho : requester grouped (some id) = some 0 := by decide +kernel
  have hid : nextRowid grouped.state.db.messageSeq = some 1 := by decide +kernel
  have hcan : (grouped.state.db.hasDialog 1 && grouped.state.db.hasUser 0) = true := by
    decide +kernel
  unfold handleSendMessage
  rw [exec_asUser, hwho, Option.elim_some, exec_sql_bind]
  unfold Database.saveMessage
  rw [hid]
  dsimp only
  rw [if_pos hcan]
  exact ⟨_, rfl⟩

theorem responds_grouped (text : String) : letI := platform
    ∃ frame, Responds (draws 0) 0 statics (some clone) (saying text) grouped frame := by
  let _ := platform
  obtain ⟨w', hexec⟩ := handleSendMessage_grouped text
  exact exists_responds (draws 0) 0 rfl hexec

theorem length_grouped {text : String} {frame : Bytes} : letI := platform
    Responds (draws 0) 0 statics (some clone) (saying text) grouped frame →
      frame.length = 100 + textSize text := by
  let _ := platform
  rintro ⟨data, w', hhandled, hands⟩
  obtain ⟨w'', hexec⟩ := handleSendMessage_grouped text
  have hdata := (Prod.mk.inj (hexec.symm.trans hhandled)).1
  cases hdata
  rw [hands.length, length_message]
  change 52 + (4 + (44 + textSize text)) = _
  omega

theorem textSize_long : textSize long = 1048504 := by
  have hlength : (asBytes long).length = 1048500 := length_asBytes_replicate 1048500
  rw [textSize, hlength]
  decide

theorem length_saying (text : String) : (saying text).writeBoxed.length = 20 + textSize text :=
  length_sendMessage ⟨⟨1⟩, text, 0⟩

end Sample

/-- A short text comes back in a frame that can be received. -/
theorem response_receivable_grouped : letI := Sample.platform
    ∃ frame, Responds (Sample.draws 0) 0 Sample.statics (some Sample.clone) (Sample.saying "hi")
      Sample.grouped frame ∧
        (Receivable frame ↔ ReplyFits Sample.grouped (some Sample.id) (Sample.saying "hi")) := by
  obtain ⟨frame, hresponds⟩ := Sample.responds_grouped "hi"
  refine ⟨frame, hresponds, @response_receivable_iff _ _ Sample.platform _ _ _ _ ?_ (by decide)
    Sample.dhPrime_small Sample.reachable_grouped _ hresponds⟩
  intro key nonce data ciphertext h
  cases h
  rw [List.length_append, List.length_replicate]

/-- A text that fits into a frame comes back in one that does not. -/
theorem not_response_receivable : ¬ ∀ (_ : Platform) (draws : FrameDraws) (conn : ConnId)
    (statics : Statics) (session : FrameSession) (obj : TlObject) (w : World) (frame : Bytes),
    Requests statics (fun _ _ => True) World.init w → 52 + obj.writeBoxed.length ≤ maxFrameSize →
    Responds draws conn statics (some session) obj w frame → Receivable frame := by
  intro h
  let _ := Sample.platform
  obtain ⟨frame, hresponds⟩ := Sample.responds_grouped Sample.long
  have hrequest : 52 + (Sample.saying Sample.long).writeBoxed.length ≤ maxFrameSize := by
    rw [Sample.length_saying, Sample.textSize_long]
    decide
  have hreceivable := h Sample.platform _ _ _ _ _ _ _ Sample.requests_grouped hrequest hresponds
  have hlength := (receivable_iff.mp hreceivable).1
  rw [Sample.length_grouped hresponds, Sample.textSize_long] at hlength
  exact absurd hlength (by decide)

end KoSta.Server
