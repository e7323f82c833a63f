import KoSta.Web.Runs

/-! Who can change the messages of a dialog. -/
namespace KoSta.Web
open Lib Lib.Prog Tl KoSta.Server

variable {db : Database} {u dialogId : Int64}

def messagesOf (db : Database) (dialogId : Int64) : List MessageRow :=
  db.messages.filter fun m => m.dialogId == dialogId

/-- The user an event acts for, if it acts for one. -/
def Site.actsFor (site : Site) : Input → Option Int64
  | .tl request => requester site.world request.session
  | .ws addr _ _ => (site.actors addr).bind WsActor.userId
  | _ => none

/-- If the event inserts or changes a message of a dialog, it acts for one of its participants. -/
def MembersOnly [Platform] [Bcrypt] (statics : Statics) (site : Site) (input : Input) : Prop :=
  ∀ dialogId, messagesOf (site.exec statics input).2.db dialogId ≠ messagesOf site.db dialogId →
    ∃ u, site.actsFor input = some u ∧ site.db.hasParticipant dialogId u = true

/-- What has to be so, as the two handlers check nothing: the sender is a participant, unless the
insertion fails anyway, and what is newly marked as delivered lies in dialogs of the user. -/
def Permitted (db : Database) (u : Int64) : TlObject → Prop
  | .sendMessage req => db.hasParticipant req.chatId.val u = true ∨
    db.hasDialog req.chatId.val = false ∨ db.hasUser u = false ∨ nextRowid db.messageSeq = none
  | .sendMessageAck req => ∀ m ∈ db.messages, m.id = req.messageId.val →
    m.deliveredStatus = false → db.hasParticipant m.dialogId u = true
  | _ => True

/-- The events of the web front end make their own checks. -/
def Site.Checked (site : Site) : Input → Prop
  | .tl request => ∀ u, requester site.world request.session = some u →
    Permitted site.db u request.obj
  | _ => True

/-! ### Requests that leave the messages alone -/

theorem messages_insertDialog (type : Int64) (title : String) (db : Database) :
    (Database.insertDialog type title db).2.messages = db.messages := by
  unfold Database.insertDialog
  split <;> rfl

theorem messages_insertParticipant (d u : Int64) (db : Database) :
    (Database.insertParticipant d u db).2.messages = db.messages := by
  rcases insertParticipant_cases d u db with ⟨e, h, -⟩ | ⟨h, -⟩
  · rw [h]
  · rw [h]
    rfl

theorem messages_addParticipant (d u : Int64) (db : Database) :
    (Database.addParticipant d u db).2.messages = db.messages := by
  unfold Database.addParticipant
  split
  · rfl
  · split <;> rfl

theorem messages_setUserStatus (u : Int64) (status : Int32) (db : Database) :
    (Database.setUserStatus u status db).2.messages = db.messages := by
  unfold Database.setUserStatus
  split <;> rfl

theorem admits_messages : Admits fun db db' => db'.messages = db.messages where
  refl _ := rfl
  trans h h' := h'.trans h
  dialog := messages_insertDialog
  participant := messages_insertParticipant

/-- Two kinds of requests write messages. -/
theorem messages_applied (draws : Draws) (w : World) (u : Int64) (obj : TlObject) :
    (∃ req, obj = .sendMessage req) ∨ (∃ req, obj = .sendMessageAck req) ∨
      (applied draws w u obj).messages = w.state.db.messages ∧ Permitted w.state.db u obj := by
  cases obj with
  | sendMessage req => exact Or.inl ⟨req, rfl⟩
  | sendMessageAck req => exact Or.inr (Or.inl ⟨req, rfl⟩)
  | userStatusUpdate req =>
    refine Or.inr (Or.inr ⟨?_, trivial⟩)
    dsimp only [applied]
    split
    · exact messages_setUserStatus u _ _
    · rfl
  | createPrivateDialog req =>
    exact Or.inr (Or.inr
      ⟨admits_messages.exec (admits_messages.createPrivateDialog u _) w, trivial⟩)
  | createGroup req =>
    exact Or.inr (Or.inr
      ⟨admits_messages.exec (admits_messages.insertMembers 1 req.title _) w, trivial⟩)
  | addGroupParticipant req =>
    refine Or.inr (Or.inr ⟨?_, trivial⟩)
    dsimp only [applied]
    split
    · exact messages_addParticipant _ _ _
    · rfl
  | removeGroupParticipant req =>
    refine Or.inr (Or.inr ⟨?_, trivial⟩)
    dsimp only [applied]
    split <;> rfl
  | _ => exact Or.inr (Or.inr ⟨rfl, trivial⟩)

/-! ### The two that do not -/

theorem messagesOf_of_eq {db' : Database} (h : db'.messages = db.messages) (d : Int64) :
    messagesOf db' d = messagesOf db d := by
  unfold messagesOf
  rw [h]

theorem permitted_saveMessage_iff (text : String) (now : Int64) :
    (∀ d, messagesOf (Database.saveMessage dialogId u text now true none none db).2 d ≠
      messagesOf db d → db.hasParticipant d u = true) ↔
    db.hasParticipant dialogId u = true ∨ db.hasDialog dialogId = false ∨ db.hasUser u = false ∨
      nextRowid db.messageSeq = none := by
  unfold Database.saveMessage
  cases hid : nextRowid db.messageSeq with
  | none => simp
  | some id =>
    by_cases hcan : (db.hasDialog dialogId && db.hasUser u) = true
    · obtain ⟨hdialog, huser⟩ := Bool.and_eq_true_iff.mp hcan
      simp only [hdialog, huser, Bool.and_self, if_true, reduceCtorEq, or_false]
      constructor
      · intro h
        apply h
        simp [messagesOf]
      · intro hmember d hd
        by_cases hsame : d = dialogId
        · rwa [hsame]
        · refine absurd ?_ hd
          simp [messagesOf, List.filter_append, Ne.symm hsame]
    · simp only [if_neg hcan]
      simp only [ne_eq, not_true_eq_false, false_implies, implies_true, true_iff]
      rw [Bool.and_eq_true_iff, not_and_or, Bool.not_eq_true, Bool.not_eq_true] at hcan
      rcases hcan with h | h
      · exact Or.inr (Or.inl h)
      · exact Or.inr (Or.inr (Or.inl h))

/-- What an acknowledgement makes of a row. -/
def MessageRow.deliver (messageId : Int64) (m : MessageRow) : MessageRow :=
  if m.id == messageId then { m with deliveredStatus := true } else m

theorem MessageRow.deliver_dialogId (messageId : Int64) (m : MessageRow) :
    (MessageRow.deliver messageId m).dialogId = m.dialogId := by
  unfold MessageRow.deliver
  split <;> rfl

theorem MessageRow.deliver_ne_iff {messageId : Int64} {m : MessageRow} :
    MessageRow.deliver messageId m ≠ m ↔ m.id = messageId ∧ m.deliveredStatus = false := by
  unfold MessageRow.deliver
  by_cases hid : m.id = messageId
  · obtain ⟨id, dialogId, senderId, text, timestamp, isOutgoing, readStatus, deliveredStatus⟩ := m
    simp_all
  · simp [hid]

theorem messagesOf_markMessageDelivered (messageId d : Int64) (db : Database) :
    messagesOf (Database.markMessageDelivered messageId db).2 d =
      (messagesOf db d).map (MessageRow.deliver messageId) := by
  change (db.messages.map (MessageRow.deliver messageId)).filter _ = _
  rw [List.filter_map]
  refine congrArg (fun p => (db.messages.filter p).map (MessageRow.deliver messageId))
    (funext fun m => ?_)
  rw [Function.comp_apply, MessageRow.deliver_dialogId]

theorem permitted_markMessageDelivered_iff {messageId : Int64} :
    (∀ d, messagesOf (Database.markMessageDelivered messageId db).2 d ≠ messagesOf db d →
      db.hasParticipant d u = true) ↔
    ∀ m ∈ db.messages, m.id = messageId → m.deliveredStatus = false →
      db.hasParticipant m.dialogId u = true := by
  constructor
  · intro h m hm hid hfresh
    apply h
    rw [messagesOf_markMessageDelivered]
    intro hsame
    have hmem : m ∈ messagesOf db m.dialogId := List.mem_filter.mpr ⟨hm, beq_self_eq_true _⟩
    have hrow := List.map_inj_left.mp (hsame.trans (List.map_id _).symm) m hmem
    exact MessageRow.deliver_ne_iff.mpr ⟨hid, hfresh⟩ hrow
  · intro h d hd
    rw [messagesOf_markMessageDelivered] at hd
    by_contra hmember
    refine hd ((List.map_congr_left fun m hm => ?_).trans (List.map_id _))
    obtain ⟨hm, hdialog⟩ := List.mem_filter.mp hm
    by_contra hrow
    obtain ⟨hid, hfresh⟩ := MessageRow.deliver_ne_iff.mp hrow
    exact hmember (beq_iff_eq.mp hdialog ▸ h m hm hid hfresh)

theorem permitted_iff (draws : Draws) (w : World) (u : Int64) (obj : TlObject) :
    (∀ d, messagesOf (applied draws w u obj) d ≠ messagesOf w.state.db d →
      w.state.db.hasParticipant d u = true) ↔ Permitted w.state.db u obj := by
  rcases messages_applied draws w u obj with ⟨req, rfl⟩ | ⟨req, rfl⟩ | ⟨hsame, hpermitted⟩
  · exact permitted_saveMessage_iff _ _
  · exact permitted_markMessageDelivered_iff
  · exact ⟨fun _ => hpermitted, fun _ d hd => absurd (messagesOf_of_eq hsame d) hd⟩

/-! ### Any event -/

section Events

variable [Platform] [Bcrypt] {statics : Statics} {site : Site} {input : Input}

theorem membersOnly_of_messages (h : (site.exec statics input).2.db.messages = site.db.messages) :
    MembersOnly statics site input := fun d hd => absurd (messagesOf_of_eq h d) hd

theorem membersOnly_tl (request : Request) :
    MembersOnly statics site (.tl request) ↔ site.Checked (.tl request) := by
  have hother (hsame : SameContent site.db (request.exec statics site.world).state.db)
      (hpermitted : ∀ u, Permitted site.db u request.obj) :
      MembersOnly statics site (.tl request) ↔ site.Checked (.tl request) :=
    ⟨fun _ u _ => hpermitted u, fun _ => membersOnly_of_messages hsame.messages⟩
  obtain ⟨draws, conn, session, obj⟩ := request
  rcases db_handleRequest statics draws conn session obj site.world with
    ⟨req, rfl⟩ | ⟨req, rfl⟩ | heq
  · exact hother (sameContent_handleSignUp draws conn session req site.world) fun _ => trivial
  · exact hother (sameContent_handleSetClientDhParams statics draws conn req site.world)
      fun _ => trivial
  · unfold MembersOnly Site.Checked Site.actsFor
    have hdb : (site.exec statics (.tl ⟨draws, conn, session, obj⟩)).2.db = _ := heq
    rw [hdb]
    dsimp only
    cases hwho : requester site.world session with
    | none => exact ⟨fun _ u hu => (nomatch hu), fun _ d hd => absurd rfl hd⟩
    | some u =>
      rw [Option.elim_some]
      simp only [Option.some.injEq, exists_eq_left', forall_eq']
      exact permitted_iff draws site.world u obj

/-- The web front end asks for membership before it stores a message. -/
theorem membersOnly_ws (addr : Addr) (message : WsMessage) (clock : Clock) :
    MembersOnly statics site (.ws addr message clock) := by
  cases hactor : site.actors addr with
  | none =>
    apply membersOnly_of_messages
    rw [exec_ws_none statics hactor]
  | some actor =>
    have hdoes := exec_ws_some statics hactor message clock
    dsimp only [MembersOnly, Site.actsFor]
    rw [hactor]
    generalize site.exec statics (.ws addr message clock) = outcome at hdoes
    cases hdoes with
    | refuse limiter hsent hauths => exact fun d hd => absurd rfl hd
    | authenticate hauths hstatus =>
      exact fun d hd => absurd (messagesOf_of_eq (messages_setUserStatus _ 0 site.db) d) hd
    | subscribe hsubscribes huser hmember => exact fun d hd => absurd rfl hd
    | @store u dialogId msgId seconds text db limiter hsends huser hmember hsave =>
      intro d hd
      refine ⟨u, huser, (permitted_saveMessage_iff text seconds).mpr (Or.inl hmember) d ?_⟩
      rw [hsave]
      exact hd
    | stop hauths =>
      obtain ⟨statuses, heq⟩ := stopped_eq actor addr site
      rw [heq]
      exact fun d hd => absurd rfl hd

/-- An event changes the messages of a dialog as one of its participants only, just when the two
TL requests that do not look at the membership have nothing to fear from it. -/
theorem members_only_iff (site : Site) (input : Input) :
    MembersOnly statics site input ↔ site.Checked input := by
  cases input with
  | connect => exact ⟨fun _ => trivial, fun _ => membersOnly_of_messages rfl⟩
  | ws addr message clock => exact ⟨fun _ => trivial, fun _ => membersOnly_ws addr message clock⟩
  | disconnect addr =>
    refine ⟨fun _ => trivial, fun _ => membersOnly_of_messages ?_⟩
    rcases exec_disconnect statics site addr with heq | ⟨actor, statuses, -, heq⟩
    · rw [heq]
    · rw [heq]
      rfl
  | http ip draws req =>
    refine ⟨fun _ => trivial, fun _ => membersOnly_of_messages ?_⟩
    obtain ⟨limiter, users, -, heq⟩ := handleHttp_site ip draws req site
    change (handleHttp ip draws req site).2.db.messages = _
    rw [heq]
    rfl
  | tl request => exact membersOnly_tl request

end Events

namespace Demo

/-- Dialog 1 is a group of user 0 alone; then user 1 signs up. -/
def foreignGroup : List Input :=
  Sample.exchanging.map .tl ++ [tl (.createGroup ⟨"g", []⟩), tl (.signUp ⟨"1", "secret"⟩)]

def intrusion : Input := tl (.sendMessage ⟨⟨1⟩, "hi", 0⟩)

end Demo

/-- User 1 writes to a dialog of which they are no participant. -/
theorem not_members_only : ¬ ∀ (_ : Platform) (_ : Bcrypt) (statics : Statics) (site : Site)
    (input : Input), Site.Reachable statics site → MembersOnly statics site input := by
  intro h
  have honly := h Sample.platform Demo.bcrypt Sample.statics _ Demo.intrusion
    (Demo.reachable_after Demo.foreignGroup) 1
  obtain ⟨u, hu, hmember⟩ := honly (by decide +kernel)
  have hwho : (Demo.after Demo.foreignGroup).actsFor Demo.intrusion = some 1 := by decide +kernel
  cases hwho.symm.trans hu
  exact absurd hmember (by decide +kernel)

end KoSta.Web
