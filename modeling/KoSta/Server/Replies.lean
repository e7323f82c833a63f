import KoSta.Server.Effects
import KoSta.Tl.Sizes

/-! What the requests of a user are answered, as functions of the tables. -/
namespace KoSta.Server
open Lib Lib.Prog Tl

variable {α β : Type} {w : World} {db : Database}

/-! ### Dialogs -/

/-- A group is named by its id, any other dialog by the phone number of the other member. -/
def titleOf (users : List UserRow) (members : List Int64) (dialogId userId : Int64) : String :=
  if members.length > 2 then s!"Group {dialogId}"
  else
    let other := (members.find? fun u => u != userId).getD 0
    if other = 0 then "Unknown"
    else ((users.find? fun u => u.id == other).map UserRow.phone).getD "Unknown"

def infoOf (users : List UserRow) (members : List Int64) (dialogId userId : Int64) :
    DialogInfo where
  id := ⟨dialogId⟩
  title := titleOf users members dialogId userId
  isGroup := (members.map UserId.mk).length > 2
  participants := members.map UserId.mk
  lastMessage := none
  unreadCount := 0

/-- The dialog as the user sees it. -/
def Database.info (db : Database) (dialogId userId : Int64) : DialogInfo :=
  infoOf db.users (db.memberIds dialogId) dialogId userId

theorem find_userId (members : List Int64) (userId : Int64) :
    (((members.map UserId.mk).find? fun u => u.val != userId).map UserId.val) =
      members.find? fun u => u != userId := by
  rw [List.find?_map, Option.map_map]
  exact Option.map_id'

theorem exec_dialogTitle (members : List Int64) (dialogId userId : Int64) (w : World) :
    (dialogTitle (decide ((members.map UserId.mk).length > 2)) dialogId (members.map UserId.mk)
      userId).exec w = (.ok (titleOf w.state.db.users members dialogId userId), w) := by
  unfold dialogTitle titleOf
  rw [List.length_map]
  by_cases hgroup : members.length > 2
  · rw [if_pos (decide_eq_true hgroup), if_pos hgroup]
    rfl
  · rw [if_neg (by simpa using hgroup), if_neg hgroup]
    unfold otherTitle
    rw [find_userId]
    dsimp only
    by_cases hother : (members.find? fun u => u != userId).getD 0 = 0
    · rw [if_neg (not_not.mpr hother), if_pos hother]
      rfl
    · rw [if_pos hother, if_neg hother, exec_sql_bind]
      rfl

theorem exec_buildDialogInfo (dialogId userId : Int64) (w : World) :
    (buildDialogInfo dialogId userId).exec w = (.ok (w.state.db.info dialogId userId), w) := by
  unfold buildDialogInfo
  rw [exec_members_bind]
  dsimp only
  rw [exec_bind, exec_dialogTitle]
  rfl

theorem exec_replyDialogInfo (dialogId userId : Int64) (w : World) :
    (replyDialogInfo dialogId userId).exec w =
      (.ok (some (TlObject.dialogInfo (w.state.db.info dialogId userId)).writeBoxed), w) := by
  unfold replyDialogInfo
  rw [exec_bind, exec_buildDialogInfo]
  rfl

theorem exec_buildDialogInfos (userId : Int64) (dialogs : List (Int64 × String × Int64 × String))
    (w : World) : (buildDialogInfos userId dialogs).exec w =
      (.ok (dialogs.map fun d => w.state.db.info d.1 userId), w) := by
  induction dialogs with
  | nil => rfl
  | cons dialog dialogs ih =>
    unfold buildDialogInfos
    rw [exec_bind, exec_buildDialogInfo]
    dsimp only
    rw [exec_bind, ih]
    rfl

/-! ### Reading -/

/-- The rows of a history request, newest first. -/
def Database.historyRows (db : Database) (dialogId : Int64) (offset limit : Int32) :
    List MessageRow :=
  page limit offset ((db.messages.filter fun m => m.dialogId == dialogId && !m.deleted).mergeSort
    fun m m' => m'.timestamp ≤ m.timestamp)

def historyOf (rows : List MessageRow) (chatId : ChatId) : HistoryResult where
  messages := rows.map (messageOfRow chatId)
  totalCount := Int32.ofNat (rows.map (messageOfRow chatId)).length

theorem exec_handleGetHistory (session : Option Int64) (req : GetHistory) (w : World) :
    (handleGetHistory session req).exec w =
      (requester w session).elim (.error (refusal session), w) fun _ =>
        (.ok (some (TlObject.historyResult (historyOf (w.state.db.historyRows req.chatId.val
          req.offset req.limit) req.chatId)).writeBoxed), w) := by
  unfold handleGetHistory
  rw [exec_asUser]
  refine congrArg (Option.elim _ _) (funext fun u => ?_)
  rw [exec_sql_bind]
  rfl

/-- The dialogs of a user, the one with the latest message first. -/
def Database.dialogIds (db : Database) (userId : Int64) : List Int64 :=
  ((db.dialogsOf userId).mergeSort fun d d' =>
    descending (db.lastTimestamp d.id) (db.lastTimestamp d'.id)).map DialogRow.id

theorem exec_handleGetDialogs (session : Option Int64) (w : World) :
    (handleGetDialogs session).exec w =
      (requester w session).elim (.error (refusal session), w) fun u =>
        (.ok (some (TlObject.dialogList ⟨(w.state.db.dialogIds u).map fun d =>
          w.state.db.info d u⟩).writeBoxed), w) := by
  unfold handleGetDialogs
  rw [exec_asUser]
  refine congrArg (Option.elim _ _) (funext fun u => ?_)
  rw [exec_sql_bind]
  dsimp only [Database.getUserDialogs]
  rw [exec_bind, exec_buildDialogInfos, Database.dialogIds, List.map_map, List.map_map]
  rfl

end KoSta.Server
