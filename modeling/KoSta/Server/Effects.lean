import KoSta.Server.KeyExchange
import KoSta.Server.PrivateDialogs

/-! What each request makes of the tables, in terms of the user it acts for. -/
namespace KoSta.Server
open Lib Lib.Prog Tl Crypto

variable {α β : Type} {w : World} {db : Database}

/-! ### Programs that only read the tables -/

abbrev KeepsTables (p : ServerM α) : Prop := p.Always fun w w' => w'.state.db = w.state.db

theorem KeepsTables.exec {p : ServerM α} (h : KeepsTables p) (w : World) :
    (p.exec w).2.state.db = w.state.db :=
  Always.exec h (fun _ => rfl) (fun hst htu => htu.trans hst) w

theorem keeps_locked {f : State → (α × List Event) × State} (h : ∀ s, (f s).2.db = s.db) :
    KeepsTables (locked f) := fun w => ⟨h w.state, trivial⟩

theorem keeps_select {f : Statement α} (h : ∀ db, (f db).2 = db) : KeepsTables (sql f) := by
  refine Always.bind (keeps_locked fun s => h s.db) fun result => ?_
  cases result with
  | ok a => exact Always.pure a
  | error e => exact Always.fail _

theorem keeps_buildDialogInfo (dialogId userId : Int64) :
    KeepsTables (buildDialogInfo dialogId userId) := by
  refine Always.bind (keeps_select fun _ => rfl) fun users => Always.bind ?_ fun _ => Always.pure _
  refine Always.ite (Always.pure _) (Always.ite ?_ (Always.pure _))
  exact Always.bind (keeps_select fun _ => rfl) fun _ => Always.pure _

theorem keeps_replyDialogInfo (dialogId userId : Int64) :
    KeepsTables (replyDialogInfo dialogId userId) :=
  (keeps_buildDialogInfo dialogId userId).bind fun _ => Always.pure _

theorem keeps_buildDialogInfos (userId : Int64)
    (dialogs : List (Int64 × String × Int64 × String)) :
    KeepsTables (buildDialogInfos userId dialogs) := by
  induction dialogs with
  | nil => exact Always.pure _
  | cons dialog dialogs ih =>
    exact (keeps_buildDialogInfo _ _).bind fun _ => ih.bind fun _ => Always.pure _

theorem keeps_getSession (conn : ConnId) (id : Int64) (mark : SessionData → List Event) :
    KeepsTables (getSession conn id mark) := by
  refine Always.bind (keeps_locked fun s => ?_) fun hit => ?_
  · cases s.cache id <;> rfl
  · cases hit with
    | some session => exact Always.pure _
    | none =>
      refine Always.bind (keeps_select fun _ => rfl) fun row => ?_
      cases row with
      | none => exact Always.pure _
      | some full => exact Always.bind (keeps_locked fun _ => rfl) fun _ => Always.pure _

/-- What is left to do after `p` only reads the tables. -/
theorem db_exec_bind (p : ServerM α) {k : α → ServerM β} (hk : ∀ a, KeepsTables (k a))
    (w : World) : ((p >>= k).exec w).2.state.db = (p.exec w).2.state.db := by
  rw [exec_bind]
  cases hexec : p.exec w with
  | mk result w' =>
    cases result with
    | error e => rfl
    | ok a => exact (hk a).exec w'

theorem db_sql_bind (f : Statement α) {k : α → ServerM β} (hk : ∀ a, KeepsTables (k a))
    (w : World) : ((sql f >>= k).exec w).2.state.db = (f w.state.db).2 := by
  rw [exec_sql_bind]
  cases h : f w.state.db with
  | mk result db =>
    cases result with
    | ok a => exact (hk a).exec _
    | error e => rfl

/-! ### Creating a dialog -/

/-- What the insertions that create a dialog do to the tables, one by one and all together. -/
structure Admits (R : Database → Database → Prop) : Prop where
  refl : ∀ db, R db db
  trans : ∀ {db db' db''}, R db db' → R db' db'' → R db db''
  dialog : ∀ type title db, R db (Database.insertDialog type title db).2
  participant : ∀ d u db, R db (Database.insertParticipant d u db).2

namespace Admits

variable {R : Database → Database → Prop}

abbrev Tables (R : Database → Database → Prop) (p : ServerM α) : Prop :=
  p.Always fun w w' => R w.state.db w'.state.db

theorem exec (hR : Admits R) {p : ServerM α} (h : Tables R p) (w : World) :
    R w.state.db (p.exec w).2.state.db :=
  Always.exec h (fun w => hR.refl w.state.db) (fun hst htu => hR.trans hst htu) w

theorem sql {f : Statement α} (h : ∀ db, R db (f db).2) : Tables R (sql f) := by
  refine Always.bind (fun w => ⟨h w.state.db, trivial⟩) fun result => ?_
  cases result with
  | ok a => exact Always.pure a
  | error e => exact Always.fail _

theorem insertParticipants (hR : Admits R) (d : Int64) (users : List Int64) :
    Tables R (insertParticipants d users) := by
  induction users with
  | nil => exact Always.pure _
  | cons user users ih => exact (sql (hR.participant d user)).bind fun _ => ih

theorem insertMembers (hR : Admits R) (type : Int64) (title : String) (users : List Int64) :
    Tables R (insertMembers type title users) :=
  (sql (hR.dialog type title)).bind fun _ =>
    (hR.insertParticipants _ _).bind fun _ => Always.pure _

theorem createPrivateDialog (hR : Admits R) (u v : Int64) : Tables R (createPrivateDialog u v) := by
  rw [createPrivateDialog_eq]
  refine (sql fun db => hR.refl db).bind fun found => ?_
  cases found with
  | some id => exact Always.pure _
  | none => exact hR.insertMembers 0 "" _

end Admits

/-! ### Requests and the users they act for -/

/-- How a request ends for which no user is found. -/
def refusal : Option Int64 → Stop
  | none => .error (.message "Missing auth_key_id")
  | some _ => .error (.message "Session not found")

/-- Without a user the request ends where it is asked for. -/
theorem exec_asUser (session : Option Int64) (k : Int64 → ServerM α) (w : World) :
    (getUserId session >>= k).exec w =
      (requester w session).elim (.error (refusal session), w) fun u => (k u).exec w := by
  cases session with
  | none => rfl
  | some id =>
    have hread : Database.getSession id w.state.db =
        (.ok ((w.row id).map fun row => (row.userId, row.serverSalt, row.nonce.toList,
          row.serverNonce.toList, row.newNonce.toList)), w.state.db) := rfl
    have hwho : requester w (some id) = (w.row id).map FullSession.userId := rfl
    rw [getUserId, bind_assoc, exec_sql_bind, hread, hwho]
    cases w.row id with
    | none => rfl
    | some row => rfl

theorem db_asUser (session : Option Int64) (k : Int64 → ServerM α) (w : World) :
    ((getUserId session >>= k).exec w).2.state.db =
      (requester w session).elim w.state.db fun u => ((k u).exec w).2.state.db := by
  rw [exec_asUser]
  cases requester w session <;> rfl

/-- The tables after a request that is neither `SignUp` nor `SetClientDHParams`, as the user. -/
def applied (draws : Draws) (w : World) (u : Int64) : TlObject → Database
  | .sendMessage req =>
    (Database.saveMessage req.chatId.val u req.text draws.seconds true none none w.state.db).2
  | .sendMessageAck req => (Database.markMessageDelivered req.messageId.val w.state.db).2
  | .userStatusUpdate req =>
    if u = req.userId.val then (Database.setUserStatus u (statusCode req.status) w.state.db).2
    else w.state.db
  | .createPrivateDialog req => ((createPrivateDialog u req.userId.val).exec w).2.state.db
  | .createGroup req =>
    ((createGroupDialog req.title u (req.participants.map UserId.val)).exec w).2.state.db
  | .addGroupParticipant req =>
    if w.state.db.hasParticipant req.dialogId.val u then
      (Database.addParticipant req.dialogId.val req.userId.val w.state.db).2
    else w.state.db
  | .removeGroupParticipant req =>
    if w.state.db.hasParticipant req.dialogId.val u ∧ u ≠ req.userId.val then
      (Database.removeParticipant req.dialogId.val req.userId.val w.state.db).2
    else w.state.db
  | _ => w.state.db

/-- A new status changes the statuses, or nothing if there is no such user. -/
theorem setUserStatus_eq (u : Int64) (status : Int32) (db : Database) :
    ∃ statuses, (Database.setUserStatus u status db).2 = { db with statuses } := by
  unfold Database.setUserStatus
  split
  · exact ⟨_, rfl⟩
  · exact ⟨db.statuses, rfl⟩

theorem admits_users : Admits fun db db' => db'.users = db.users where
  refl _ := rfl
  trans h h' := h'.trans h
  dialog type title db := by
    unfold Database.insertDialog
    split <;> rfl
  participant d u db := by
    rcases insertParticipant_cases d u db with ⟨e, h, -⟩ | ⟨h, -⟩
    · rw [h]
    · rw [h]
      rfl

/-- None of them creates a user. -/
theorem users_applied (draws : Draws) (w : World) (u : Int64) (obj : TlObject) :
    (applied draws w u obj).users = w.state.db.users := by
  cases obj with
  | sendMessage req =>
    dsimp only [applied]
    unfold Database.saveMessage
    split
    · rfl
    · split <;> rfl
  | userStatusUpdate req =>
    dsimp only [applied]
    split
    · obtain ⟨statuses, heq⟩ := setUserStatus_eq u (statusCode req.status) w.state.db
      rw [heq]
    · rfl
  | createPrivateDialog req => exact admits_users.exec (admits_users.createPrivateDialog u _) w
  | createGroup req => exact admits_users.exec (admits_users.insertMembers 1 req.title _) w
  | addGroupParticipant req =>
    dsimp only [applied]
    unfold Database.addParticipant
    split
    · split
      · rfl
      · split <;> rfl
    · rfl
  | removeGroupParticipant req =>
    dsimp only [applied]
    split <;> rfl
  | _ => rfl

theorem contains_memberIds {dialogId u : Int64} :
    (db.memberIds dialogId).contains u = db.hasParticipant dialogId u := by
  rw [Bool.eq_iff_iff, Database.hasParticipant_iff, List.contains_iff_mem]
  unfold Database.memberIds Database.ascending
  rw [List.mem_insertionSort, List.mem_map]
  constructor
  · rintro ⟨⟨d, u⟩, hp, rfl⟩
    obtain ⟨hmem, hd⟩ := List.mem_filter.mp hp
    cases (beq_iff_eq.mp hd : d = dialogId)
    exact hmem
  · intro hmem
    exact ⟨⟨dialogId, u⟩, List.mem_filter.mpr ⟨hmem, beq_self_eq_true dialogId⟩, rfl⟩

theorem exec_members_bind (dialogId : Int64) (k : List Int64 → ServerM α) (w : World) :
    (sql (Database.getDialogParticipants dialogId) >>= k).exec w =
      (k (w.state.db.memberIds dialogId)).exec w := by
  rw [exec_sql_bind]
  rfl

section Handlers

variable (statics : Statics) (draws : Draws) (conn : ConnId) (session : Option Int64)

theorem db_handleAddGroupParticipant (req : AddGroupParticipant) (w : World) :
    ((handleAddGroupParticipant session req).exec w).2.state.db =
      (requester w session).elim w.state.db fun u =>
        applied draws w u (.addGroupParticipant req) := by
  refine (db_asUser session _ w).trans (congrArg (Option.elim _ _) (funext fun u => ?_))
  dsimp only [applied]
  rw [exec_members_bind, contains_memberIds]
  cases w.state.db.hasParticipant req.dialogId.val u with
  | true => exact db_sql_bind _ (fun _ => keeps_replyDialogInfo _ _) w
  | false => rfl

theorem db_handleRemoveGroupParticipant (req : RemoveGroupParticipant) (w : World) :
    ((handleRemoveGroupParticipant session req).exec w).2.state.db =
      (requester w session).elim w.state.db fun u =>
        applied draws w u (.removeGroupParticipant req) := by
  refine (db_asUser session _ w).trans (congrArg (Option.elim _ _) (funext fun u => ?_))
  dsimp only [applied]
  rw [exec_members_bind, contains_memberIds]
  cases w.state.db.hasParticipant req.dialogId.val u with
  | false => rfl
  | true =>
    by_cases hself : u = req.userId.val
    · simp only [hself, Bool.not_true, Bool.false_eq_true, if_false, if_true, ne_eq,
        not_true_eq_false, and_false]
      rfl
    · simp only [hself, Bool.not_true, Bool.false_eq_true, if_false, ne_eq, not_false_eq_true,
        and_true, if_true]
      exact db_sql_bind _ (fun _ => keeps_replyDialogInfo _ _) w

theorem db_handleUserStatus (req : UserStatusUpdate) (w : World) :
    ((handleUserStatus session req).exec w).2.state.db =
      (requester w session).elim w.state.db fun u => applied draws w u (.userStatusUpdate req) := by
  refine (db_asUser session _ w).trans (congrArg (Option.elim _ _) (funext fun u => ?_))
  dsimp only [applied]
  by_cases hu : u = req.userId.val
  · rw [if_neg (not_not.mpr hu), if_pos hu]
    exact db_sql_bind _ (fun _ => Always.pure _) w
  · rw [if_pos hu, if_neg hu]
    rfl

variable [Platform]

/-- Two requests write users and sessions; all others act for a user or change no table. -/
theorem db_handleRequest (obj : TlObject) (w : World) : (∃ req, obj = .signUp req) ∨
    (∃ req, obj = .setClientDHParams req) ∨
    ((handleRequest statics draws conn obj session).exec w).2.state.db =
      (requester w session).elim w.state.db fun u => applied draws w u obj := by
  have hsame : (requester w session).elim w.state.db (fun _ => w.state.db) = w.state.db := by
    cases requester w session <;> rfl
  cases obj with
  | signUp req => exact Or.inl ⟨req, rfl⟩
  | setClientDHParams req => exact Or.inr (Or.inl ⟨req, rfl⟩)
  | reqPq req =>
    refine Or.inr (Or.inr (Eq.trans ?_ hsame.symm))
    exact congrArg (fun w : World => w.state.db) (exec_handleReqPq statics draws req w)
  | reqDHParams req =>
    refine Or.inr (Or.inr (Eq.trans ?_ hsame.symm))
    change ((handleReqDhParams statics draws req).exec w).2.state.db = w.state.db
    rcases handleReqDhParams_cases statics draws req w with ⟨e, heq, -⟩ | ⟨inner, -, heq⟩
    · rw [heq]
    · rw [heq]
      rfl
  | sendMessage req =>
    refine Or.inr (Or.inr ((db_asUser session _ w).trans ?_))
    exact congrArg (Option.elim _ _) (funext fun u => db_sql_bind _ (fun _ => Always.pure _) w)
  | getHistory req =>
    refine Or.inr (Or.inr ((db_asUser session _ w).trans ?_))
    exact congrArg (Option.elim _ _) (funext fun u => db_sql_bind _ (fun _ => Always.pure _) w)
  | sendMessageAck req =>
    refine Or.inr (Or.inr ((db_asUser session _ w).trans ?_))
    exact congrArg (Option.elim _ _) (funext fun u => db_sql_bind _ (fun _ => Always.pure _) w)
  | userStatusUpdate req => exact Or.inr (Or.inr (db_handleUserStatus draws session req w))
  | createPrivateDialog req =>
    refine Or.inr (Or.inr ((db_asUser session _ w).trans ?_))
    refine congrArg (Option.elim _ _) (funext fun u => ?_)
    exact db_exec_bind _ (fun _ => keeps_replyDialogInfo _ _) w
  | createGroup req =>
    refine Or.inr (Or.inr ((db_asUser session _ w).trans ?_))
    refine congrArg (Option.elim _ _) (funext fun u => ?_)
    exact db_exec_bind _ (fun _ => keeps_replyDialogInfo _ _) w
  | addGroupParticipant req =>
    exact Or.inr (Or.inr (db_handleAddGroupParticipant draws session req w))
  | removeGroupParticipant req =>
    exact Or.inr (Or.inr (db_handleRemoveGroupParticipant draws session req w))
  | getDialogs req =>
    refine Or.inr (Or.inr ((db_asUser session _ w).trans ?_))
    refine congrArg (Option.elim _ _) (funext fun u => ?_)
    refine (db_sql_bind _ (fun dialogs => ?_) w)
    exact (keeps_buildDialogInfos _ _).bind fun _ => Always.pure _
  | resPQ | pqInnerData | serverDHParamsOk | serverDHInnerData | clientDHInnerData | dhGenOk
  | message | chat | historyResult | dialogInfo | dialogList =>
    exact Or.inr (Or.inr hsame.symm)

end Handlers

end KoSta.Server
