import KoSta.Server.HandleClient
import KoSta.Server.Tables

/-! The handlers that leave every session alone. -/
namespace KoSta.Server
open Lib Lib.Prog Tl Crypto

variable {α β : Type} {w w' : World}

/-- Nothing of a session has changed: not its row, its cache entry or its recent set. The other
tables are those that some statements make of the ones before. -/
structure Quiet (w w' : World) : Prop where
  tables : w.state.db.Reachable → w'.state.db.Reachable
  trace : w'.trace = w.trace
  sessions : w'.state.db.sessions = w.state.db.sessions
  cache : w'.state.cache = w.state.cache
  recents : w'.state.recents = w.state.recents
  nextRecent : w'.state.nextRecent = w.state.nextRecent

theorem Quiet.refl (w : World) : Quiet w w := ⟨id, rfl, rfl, rfl, rfl, rfl⟩

theorem Quiet.trans {w'' : World} (h : Quiet w w') (h' : Quiet w' w'') : Quiet w w'' :=
  ⟨h'.tables ∘ h.tables, h'.trace.trans h.trace, h'.sessions.trans h.sessions,
    h'.cache.trans h.cache,
    h'.recents.trans h.recents, h'.nextRecent.trans h.nextRecent⟩

/-- What such a handler reads: the database and the handshake store. -/
def stored (w : World) : Database × (Bytes → Option Handshake) := (w.state.db, w.state.handshakes)

abbrev Quietly (p : ServerM α) : Prop := p.Through stored Quiet

theorem quietly_locked {f : State → (α × List Event) × State}
    (htables : ∀ s, s.db.Reachable → (f s).2.db.Reachable)
    (hquiet : ∀ s, (f s).1.2 = [] ∧ (f s).2.db.sessions = s.db.sessions ∧
      (f s).2.cache = s.cache ∧ (f s).2.recents = s.recents ∧ (f s).2.nextRecent = s.nextRecent)
    (hview : ∀ s t, s.db = t.db → s.handshakes = t.handshakes → (f s).1.1 = (f t).1.1 ∧
      (f s).2.db = (f t).2.db ∧ (f s).2.handshakes = (f t).2.handshakes) :
    Quietly (locked f) := by
  refine Through.atomically (fun w => ?_) fun w w' h => ?_
  · obtain ⟨hevents, hsessions, hcache, hrecents, hnext⟩ := hquiet w.state
    exact ⟨htables w.state, congrArg (· ++ w.trace) hevents, hsessions, hcache, hrecents, hnext⟩
  · obtain ⟨hdb, hhandshakes⟩ := Prod.mk.inj h
    obtain ⟨hvalue, hdb', hhandshakes'⟩ := hview _ _ hdb hhandshakes
    exact ⟨hvalue, Prod.ext hdb' hhandshakes'⟩

/-- A statement that does not write the `sessions` table. -/
structure KeepsSessions (f : Statement α) : Prop where
  sessions : ∀ db, (f db).2.sessions = db.sessions
  tables : ∀ db, db.Reachable → (f db).2.Reachable

theorem quiet_sql {f : Statement α} (h : KeepsSessions f) : Quietly (sql f) := by
  refine Through.bind (quietly_locked (fun s => h.tables s.db)
    (fun s => ⟨rfl, h.sessions _, rfl, rfl, rfl⟩) fun s t hdb ht => ?_) fun result => ?_
  · simp only [hdb, ht, and_self]
  · cases result with
    | ok a => exact Through.pure a
    | error e => exact Through.fail _

theorem quiet_orSearching (x : Option α) : Quietly (orSearching x) := by
  cases x
  · exact Through.fail _
  · exact Through.pure _

theorem quiet_readFrom (r : Reader Tl.Error α) (bytes : Bytes) : Quietly (readFrom r bytes) := by
  unfold readFrom
  cases r.run bytes
  · exact Through.pure _
  · exact Through.fail _
  · exact Through.fail _

theorem quiet_ofCrypto (x : Except CryptoError α) : Quietly (ofCrypto x) := by
  cases x
  · exact Through.fail _
  · exact Through.pure _

/-! ### Statements -/

theorem keepsSessions_select {f : Statement α} (h : ∀ db, (f db).2 = db) : KeepsSessions f where
  sessions db := by rw [h]
  tables db hdb := by rwa [h]

theorem quiet_select {f : Statement α} (h : ∀ db, (f db).2 = db) : Quietly (sql f) :=
  quiet_sql (keepsSessions_select h)

theorem keepsSessions_insertUser (phone hash : String) :
    KeepsSessions (Database.insertUser phone hash) := by
  refine ⟨fun db => ?_, fun db => .insertUser phone hash⟩
  unfold Database.insertUser
  split
  · rfl
  · split <;> rfl

theorem keepsSessions_insertDialog (type : Int64) (title : String) :
    KeepsSessions (Database.insertDialog type title) := by
  refine ⟨fun db => ?_, fun db => .insertDialog type title⟩
  unfold Database.insertDialog
  split <;> rfl

theorem keepsSessions_insertParticipant (dialogId userId : Int64) :
    KeepsSessions (Database.insertParticipant dialogId userId) := by
  refine ⟨fun db => ?_, fun db => .insertParticipant dialogId userId⟩
  unfold Database.insertParticipant
  split
  · rfl
  · split <;> rfl

theorem keepsSessions_addParticipant (dialogId userId : Int64) :
    KeepsSessions (Database.addParticipant dialogId userId) := by
  refine ⟨fun db => ?_, fun db => .addParticipant dialogId userId⟩
  unfold Database.addParticipant
  split
  · rfl
  · split <;> rfl

theorem keepsSessions_removeParticipant (dialogId userId : Int64) :
    KeepsSessions (Database.removeParticipant dialogId userId) :=
  ⟨fun _ => rfl, fun _ => .removeParticipant dialogId userId⟩

theorem keepsSessions_saveMessage (dialogId senderId : Int64) (text : String) (timestamp : Int64)
    (isOutgoing : Bool) (path type : Option String) :
    KeepsSessions (Database.saveMessage dialogId senderId text timestamp isOutgoing path type) := by
  refine ⟨fun db => ?_, fun db hdb => ?_⟩
  · unfold Database.saveMessage
    split
    · rfl
    · split <;> rfl
  · unfold Database.saveMessage
    split
    · exact hdb
    · split
      · exact .other hdb rfl rfl rfl
      · exact hdb

theorem keepsSessions_markMessageDelivered (messageId : Int64) :
    KeepsSessions (Database.markMessageDelivered messageId) :=
  ⟨fun _ => rfl, fun _ h => .other h rfl rfl rfl⟩

theorem keepsSessions_setUserStatus (userId : Int64) (status : Int32) :
    KeepsSessions (Database.setUserStatus userId status) := by
  refine ⟨fun db => ?_, fun db hdb => ?_⟩
  · unfold Database.setUserStatus
    split <;> rfl
  · unfold Database.setUserStatus
    split
    · exact .other hdb rfl rfl rfl
    · exact hdb

/-! ### The handshake store -/

theorem quiet_insertHandshake (key : Bytes) (entry : Handshake) :
    Quietly (insertHandshake key entry) := by
  refine quietly_locked (fun _ => id) (fun _ => ⟨rfl, rfl, rfl, rfl, rfl⟩) fun s t hdb hh => ?_
  exact ⟨rfl, hdb, congrArg (Function.update · key (some entry)) hh⟩

theorem quiet_cleanHandshakeStore (now : Nat) : Quietly (cleanHandshakeStore now) := by
  refine quietly_locked (fun _ => id) (fun _ => ⟨rfl, rfl, rfl, rfl, rfl⟩)
    fun s t hdb hh => ⟨rfl, hdb, ?_⟩
  simp only [hh]

theorem quiet_getHandshake (key : Bytes) : Quietly (getHandshake key) :=
  quietly_locked (fun _ => id) (fun _ => ⟨rfl, rfl, rfl, rfl, rfl⟩) fun _ _ hdb hh =>
    ⟨congrFun hh key, hdb, hh⟩

theorem quiet_removeHandshake (key : Bytes) : Quietly (removeHandshake key) :=
  quietly_locked (fun _ => id) (fun _ => ⟨rfl, rfl, rfl, rfl, rfl⟩) fun _ _ hdb hh =>
    ⟨rfl, hdb, congrArg (Function.update · key none) hh⟩

/-! ### Handlers -/

variable (authKeyId : Option Int64) (statics : Statics) (draws : Draws)

theorem quiet_getUserId : Quietly (getUserId authKeyId) := by
  cases authKeyId with
  | none => exact Through.fail _
  | some id =>
    refine (quiet_select fun _ => rfl).bind fun session => ?_
    cases session with
    | none => exact Through.fail _
    | some session => exact Through.pure _

theorem quiet_insertParticipants (dialogId : Int64) (users : List Int64) :
    Quietly (insertParticipants dialogId users) := by
  induction users with
  | nil => exact Through.pure _
  | cons user users ih =>
    exact (quiet_sql (keepsSessions_insertParticipant _ _)).bind fun _ => ih

theorem quiet_buildDialogInfo (dialogId userId : Int64) :
    Quietly (buildDialogInfo dialogId userId) := by
  refine (quiet_select fun _ => rfl).bind fun users => Through.bind ?_ fun _ => Through.pure _
  refine Through.ite (Through.pure _) (Through.ite ?_ (Through.pure _))
  exact (quiet_select fun _ => rfl).bind fun _ => Through.pure _

theorem quiet_replyDialogInfo (dialogId userId : Int64) :
    Quietly (replyDialogInfo dialogId userId) :=
  (quiet_buildDialogInfo dialogId userId).bind fun _ => Through.pure _

theorem quiet_createPrivateDialog (user1 user2 : Int64) :
    Quietly (createPrivateDialog user1 user2) := by
  refine (quiet_select fun _ => rfl).bind fun found => ?_
  cases found with
  | some id => exact Through.pure _
  | none =>
    refine (quiet_sql (keepsSessions_insertDialog _ _)).bind fun dialogId => ?_
    refine (quiet_sql (keepsSessions_insertParticipant _ _)).bind fun _ => ?_
    exact (quiet_sql (keepsSessions_insertParticipant _ _)).bind fun _ => Through.pure _

theorem quiet_buildDialogInfos (userId : Int64)
    (dialogs : List (Int64 × String × Int64 × String)) :
    Quietly (buildDialogInfos userId dialogs) := by
  induction dialogs with
  | nil => exact Through.pure _
  | cons dialog dialogs ih =>
    exact (quiet_buildDialogInfo _ _).bind fun _ => ih.bind fun _ => Through.pure _

theorem quiet_handleUserStatus (req : UserStatusUpdate) :
    Quietly (handleUserStatus authKeyId req) := by
  refine (quiet_getUserId authKeyId).bind fun userId => Through.ite (Through.fail _) ?_
  exact (quiet_sql (keepsSessions_setUserStatus _ _)).bind fun _ => Through.pure _

theorem quiet_handleSendMessage (req : SendMessage) :
    Quietly (handleSendMessage draws authKeyId req) := by
  refine (quiet_getUserId authKeyId).bind fun userId => ?_
  exact (quiet_sql (keepsSessions_saveMessage _ _ _ _ _ _ _)).bind fun _ => Through.pure _

theorem quiet_handleGetHistory (req : GetHistory) :
    Quietly (handleGetHistory authKeyId req) :=
  (quiet_getUserId authKeyId).bind fun _ => (quiet_select fun _ => rfl).bind fun _ => Through.pure _

theorem quiet_handleSendAck (req : SendMessageAck) :
    Quietly (handleSendAck authKeyId req) :=
  (quiet_getUserId authKeyId).bind fun _ =>
    (quiet_sql (keepsSessions_markMessageDelivered _)).bind fun _ => Through.pure _

theorem quiet_handleCreatePrivateDialog (req : CreatePrivateDialog) :
    Quietly (handleCreatePrivateDialog authKeyId req) := by
  refine (quiet_getUserId authKeyId).bind fun userId => ?_
  exact (quiet_createPrivateDialog _ _).bind fun _ => quiet_replyDialogInfo _ _

theorem quiet_handleCreateGroup (req : CreateGroup) :
    Quietly (handleCreateGroup authKeyId req) := by
  refine (quiet_getUserId authKeyId).bind fun userId => Through.bind ?_ fun dialogId =>
    quiet_replyDialogInfo _ _
  refine (quiet_sql (keepsSessions_insertDialog _ _)).bind fun dialogId => ?_
  exact (quiet_insertParticipants _ _).bind fun _ => Through.pure _

theorem quiet_handleAddGroupParticipant (req : AddGroupParticipant) :
    Quietly (handleAddGroupParticipant authKeyId req) := by
  refine (quiet_getUserId authKeyId).bind fun userId => (quiet_select fun _ => rfl).bind
    fun users =>
    Through.ite (Through.fail _) ?_
  exact (quiet_sql (keepsSessions_addParticipant _ _)).bind fun _ => quiet_replyDialogInfo _ _

theorem quiet_handleRemoveGroupParticipant (req : RemoveGroupParticipant) :
    Quietly (handleRemoveGroupParticipant authKeyId req) := by
  refine (quiet_getUserId authKeyId).bind fun userId => (quiet_select fun _ => rfl).bind
    fun users =>
    Through.ite (Through.fail _) (Through.ite (Through.fail _) ?_)
  exact (quiet_sql (keepsSessions_removeParticipant _ _)).bind fun _ => quiet_replyDialogInfo _ _

theorem quiet_handleGetDialogs : Quietly (handleGetDialogs authKeyId) := by
  refine (quiet_getUserId authKeyId).bind fun userId => (quiet_select fun _ => rfl).bind
    fun dialogs =>
    ?_
  exact (quiet_buildDialogInfos _ _).bind fun _ => Through.pure _

section Platform

variable [Platform]

theorem quiet_handleReqPq (req : ReqPq) : Quietly (handleReqPq statics draws req) := by
  refine (quiet_orSearching _).bind fun p => ?_
  exact (quiet_orSearching _).bind fun q => Through.pure _

theorem quiet_handleReqDhParams (req : ReqDHParams) :
    Quietly (handleReqDhParams statics draws req) := by
  refine (quiet_ofCrypto _).bind fun decrypted => (quiet_readFrom _ _).bind fun parsed => ?_
  obtain ⟨obj, rest⟩ := parsed
  dsimp only
  split
  · refine Through.ite (Through.fail _) ?_
    refine Through.bind (quiet_insertHandshake _ _) fun _ => ?_
    exact (quiet_ofCrypto _).bind fun _ => Through.pure _
  · exact Through.fail _

/-- Only `SignUp` and `SetClientDHParams` write a session. -/
theorem handleRequest_cases (conn : ConnId) (obj : TlObject) :
    (∃ req, obj = .signUp req) ∨ (∃ req, obj = .setClientDHParams req) ∨
      Quietly (handleRequest statics draws conn obj authKeyId) := by
  cases obj with
  | signUp req => exact Or.inl ⟨req, rfl⟩
  | setClientDHParams req => exact Or.inr (Or.inl ⟨req, rfl⟩)
  | reqPq req => exact Or.inr (Or.inr (quiet_handleReqPq statics draws req))
  | reqDHParams req => exact Or.inr (Or.inr (quiet_handleReqDhParams statics draws req))
  | sendMessage req => exact Or.inr (Or.inr (quiet_handleSendMessage authKeyId draws req))
  | getHistory req => exact Or.inr (Or.inr (quiet_handleGetHistory authKeyId req))
  | sendMessageAck req => exact Or.inr (Or.inr (quiet_handleSendAck authKeyId req))
  | userStatusUpdate req => exact Or.inr (Or.inr (quiet_handleUserStatus authKeyId req))
  | createPrivateDialog req => exact Or.inr (Or.inr (quiet_handleCreatePrivateDialog authKeyId req))
  | createGroup req => exact Or.inr (Or.inr (quiet_handleCreateGroup authKeyId req))
  | addGroupParticipant req => exact Or.inr (Or.inr (quiet_handleAddGroupParticipant authKeyId req))
  | removeGroupParticipant req =>
    exact Or.inr (Or.inr (quiet_handleRemoveGroupParticipant authKeyId req))
  | getDialogs req => exact Or.inr (Or.inr (quiet_handleGetDialogs authKeyId))
  | resPQ | pqInnerData | serverDHParamsOk | serverDHInnerData | clientDHInnerData | dhGenOk
  | message | chat | historyResult | dialogInfo | dialogList =>
    exact Or.inr (Or.inr (Through.fail _))

end Platform

end KoSta.Server
