import KoSta.Server.Dialogs

/-! Private dialogs over runs of requests: who is in them, and that no two are alike. -/
namespace KoSta.Server
open Lib Lib.Prog Tl Crypto

variable {α β : Type} {w w' : World} {db db' : Database}

/-! ### Requests that leave the dialogs alone -/

/-- Dialogs and participants are as before; users may have joined. -/
structure Apart (db db' : Database) : Prop where
  dialogs : db'.dialogs = db.dialogs
  participants : db'.participants = db.participants
  users : ∀ id, db.hasUser id = true → db'.hasUser id = true
  tables : db.Reachable → db'.Reachable

theorem Apart.refl (db : Database) : Apart db db := ⟨rfl, rfl, fun _ h => h, id⟩

theorem Apart.trans {db'' : Database} (h : Apart db db') (h' : Apart db' db'') : Apart db db'' :=
  ⟨h'.dialogs.trans h.dialogs, h'.participants.trans h.participants,
    fun id hid => h'.users id (h.users id hid), h'.tables ∘ h.tables⟩

theorem Apart.of_eq (husers : db'.users = db.users) (hdialogs : db'.dialogs = db.dialogs)
    (hparticipants : db'.participants = db.participants) : Apart db db' where
  dialogs := hdialogs
  participants := hparticipants
  users id hid := by rwa [Database.hasUser, husers]
  tables h := .other h husers hdialogs hparticipants

abbrev LeavesDialogs (p : ServerM α) : Prop :=
  p.Always fun w w' => Apart w.state.db w'.state.db

theorem leaves_locked {f : State → (α × List Event) × State}
    (h : ∀ s, Apart s.db (f s).2.db) : LeavesDialogs (locked f) := fun w => ⟨h w.state, trivial⟩

/-- A section that touches no table. -/
theorem leaves_memory {f : State → (α × List Event) × State} (h : ∀ s, (f s).2.db = s.db) :
    LeavesDialogs (locked f) := leaves_locked fun s => h s ▸ Apart.refl s.db

theorem leaves_sql {f : Statement α} (h : ∀ db, Apart db (f db).2) : LeavesDialogs (sql f) := by
  refine Always.bind (leaves_locked fun s => h s.db) fun result => ?_
  cases result with
  | ok a => exact Always.pure a
  | error e => exact Always.fail _

theorem leaves_select {f : Statement α} (h : ∀ db, (f db).2 = db) : LeavesDialogs (sql f) :=
  leaves_sql fun db => (h db).symm ▸ Apart.refl db

theorem leaves_readFrom (r : Reader Tl.Error α) (bytes : Bytes) :
    LeavesDialogs (readFrom r bytes) := by
  unfold readFrom
  cases r.run bytes <;> trivial

theorem leaves_ofCrypto (x : Except CryptoError α) : LeavesDialogs (ofCrypto x) := by
  cases x <;> trivial

theorem leaves_orSearching (x : Option α) : LeavesDialogs (orSearching x) := by
  cases x <;> trivial

theorem leaves_getSession (conn : ConnId) (id : Int64) (mark : SessionData → List Event) :
    LeavesDialogs (getSession conn id mark) := by
  refine Always.bind (leaves_memory fun s => ?_) fun hit => ?_
  · cases s.cache id <;> rfl
  · cases hit with
    | some session => exact Always.pure _
    | none =>
      refine Always.bind (leaves_select fun _ => rfl) fun row => ?_
      cases row with
      | none => exact Always.pure _
      | some full => exact Always.bind (leaves_memory fun _ => rfl) fun _ => Always.pure _

theorem leaves_saveSession (row : FullSession) (events : List Event) :
    LeavesDialogs (saveSession row events) := leaves_locked fun _ => .of_eq rfl rfl rfl

theorem leaves_updateSession (conn : ConnId) (id : Int64) (session : SessionData)
    (saved cached : List Event) : LeavesDialogs (updateSession conn id session saved cached) :=
  (leaves_saveSession _ _).bind fun _ => leaves_memory fun _ => rfl

theorem leaves_getUserId (authKeyId : Option Int64) : LeavesDialogs (getUserId authKeyId) := by
  cases authKeyId with
  | none => exact Always.fail _
  | some id =>
    refine Always.bind (leaves_select fun _ => rfl) fun session => ?_
    cases session <;> trivial

theorem apart_insertUser (phone hash : String) (db : Database) :
    Apart db (Database.insertUser phone hash db).2 := by
  refine ⟨?_, ?_, fun id hid => ?_, .insertUser phone hash⟩
  all_goals unfold Database.insertUser
  all_goals split
  all_goals try split
  all_goals try rfl
  · exact hid
  · rw [Database.hasUser_iff] at hid ⊢
    simp only [List.map_append, List.mem_append]
    exact Or.inl hid
  · exact hid

theorem apart_saveMessage (dialogId senderId : Int64) (text : String) (timestamp : Int64)
    (isOutgoing : Bool) (path type : Option String) (db : Database) :
    Apart db (Database.saveMessage dialogId senderId text timestamp isOutgoing path type db).2 := by
  unfold Database.saveMessage
  split
  · exact Apart.refl db
  · split
    · exact .of_eq rfl rfl rfl
    · exact Apart.refl db

theorem apart_setUserStatus (userId : Int64) (status : Int32) (db : Database) :
    Apart db (Database.setUserStatus userId status db).2 := by
  unfold Database.setUserStatus
  split
  · exact .of_eq rfl rfl rfl
  · exact Apart.refl db

theorem leaves_buildDialogInfo (dialogId userId : Int64) :
    LeavesDialogs (buildDialogInfo dialogId userId) := by
  refine Always.bind (leaves_select fun _ => rfl) fun users => Always.bind ?_ fun _ => Always.pure _
  refine Always.ite (Always.pure _) (Always.ite ?_ (Always.pure _))
  exact Always.bind (leaves_select fun _ => rfl) fun _ => Always.pure _

theorem leaves_replyDialogInfo (dialogId userId : Int64) :
    LeavesDialogs (replyDialogInfo dialogId userId) :=
  (leaves_buildDialogInfo dialogId userId).bind fun _ => Always.pure _

theorem leaves_buildDialogInfos (userId : Int64)
    (dialogs : List (Int64 × String × Int64 × String)) :
    LeavesDialogs (buildDialogInfos userId dialogs) := by
  induction dialogs with
  | nil => exact Always.pure _
  | cons dialog dialogs ih =>
    exact (leaves_buildDialogInfo _ _).bind fun _ => ih.bind fun _ => Always.pure _

theorem leaves_handleUserStatus (session : Option Int64) (req : UserStatusUpdate) :
    LeavesDialogs (handleUserStatus session req) := by
  refine (leaves_getUserId session).bind fun userId => Always.ite (Always.fail _) ?_
  exact Always.bind (leaves_sql fun db => apart_setUserStatus _ _ db) fun _ => Always.pure _

section Handlers

variable [Platform] (statics : Statics) (draws : Draws) (conn : ConnId) (session : Option Int64)

theorem leaves_handleSetClientDhParams (req : SetClientDHParams) :
    LeavesDialogs (handleSetClientDhParams statics draws conn req) := by
  refine Always.bind (leaves_memory fun _ => rfl) fun _ => ?_
  refine Always.bind (leaves_memory fun _ => rfl) fun entry => ?_
  cases entry with
  | none => exact Always.fail _
  | some entry =>
    refine (leaves_ofCrypto _).bind fun decrypted => (leaves_readFrom _ _).bind fun parsed => ?_
    obtain ⟨obj, rest⟩ := parsed
    dsimp only
    split
    · refine Always.ite (Always.fail _) ?_
      split
      · exact Always.fail _
      · refine (leaves_saveSession _ _).bind fun _ => Always.bind (leaves_memory fun _ => rfl)
          fun _ => ?_
        refine (leaves_updateSession _ _ _ _ _).bind fun _ => ?_
        exact Always.bind (leaves_memory fun _ => rfl) fun _ => Always.pure _
    · exact Always.fail _

theorem leaves_handleSignUp (req : SignUp) :
    LeavesDialogs (handleSignUp draws conn session req) := by
  refine Always.bind (leaves_sql fun db => apart_insertUser _ _ db) fun userId => ?_
  cases session with
  | none => exact Always.pure _
  | some id =>
    refine Always.bind (leaves_sql fun db => .of_eq rfl rfl rfl) fun _ => ?_
    refine Always.bind (leaves_getSession _ _ _) fun session => ?_
    cases session with
    | none => exact Always.pure _
    | some session => exact (leaves_updateSession _ _ _ _ _).bind fun _ => Always.pure _

theorem leaves_handleReqDhParams (req : ReqDHParams) :
    LeavesDialogs (handleReqDhParams statics draws req) := by
  refine (leaves_ofCrypto _).bind fun decrypted => (leaves_readFrom _ _).bind fun parsed => ?_
  obtain ⟨obj, rest⟩ := parsed
  dsimp only
  split
  · refine Always.ite (Always.fail _) ?_
    refine Always.bind (leaves_memory fun _ => rfl) fun _ => ?_
    exact (leaves_ofCrypto _).bind fun _ => Always.pure _
  · exact Always.fail _

/-- Four requests are about dialogs. -/
theorem handleRequest_dialogs (obj : TlObject) :
    (∃ req, obj = .createPrivateDialog req) ∨ (∃ req, obj = .createGroup req) ∨
      (∃ req, obj = .addGroupParticipant req) ∨ (∃ req, obj = .removeGroupParticipant req) ∨
      LeavesDialogs (handleRequest statics draws conn obj session) := by
  cases obj with
  | createPrivateDialog req => exact Or.inl ⟨req, rfl⟩
  | createGroup req => exact Or.inr (Or.inl ⟨req, rfl⟩)
  | addGroupParticipant req => exact Or.inr (Or.inr (Or.inl ⟨req, rfl⟩))
  | removeGroupParticipant req => exact Or.inr (Or.inr (Or.inr (Or.inl ⟨req, rfl⟩)))
  | reqPq req =>
    refine Or.inr (Or.inr (Or.inr (Or.inr ?_)))
    exact (leaves_orSearching _).bind fun p => (leaves_orSearching _).bind fun q => Always.pure _
  | reqDHParams req =>
    exact Or.inr (Or.inr (Or.inr (Or.inr (leaves_handleReqDhParams statics draws req))))
  | setClientDHParams req =>
    exact Or.inr (Or.inr (Or.inr (Or.inr (leaves_handleSetClientDhParams statics draws conn req))))
  | signUp req =>
    exact Or.inr (Or.inr (Or.inr (Or.inr (leaves_handleSignUp draws conn session req))))
  | sendMessage req =>
    refine Or.inr (Or.inr (Or.inr (Or.inr ?_)))
    refine (leaves_getUserId session).bind fun userId => ?_
    exact Always.bind (leaves_sql fun db => apart_saveMessage _ _ _ _ _ _ _ db)
      fun _ => Always.pure _
  | getHistory req =>
    refine Or.inr (Or.inr (Or.inr (Or.inr ?_)))
    refine (leaves_getUserId session).bind fun userId => ?_
    exact Always.bind (leaves_select fun _ => rfl) fun _ => Always.pure _
  | sendMessageAck req =>
    refine Or.inr (Or.inr (Or.inr (Or.inr ?_)))
    refine (leaves_getUserId session).bind fun userId => ?_
    exact Always.bind (leaves_sql fun db => .of_eq rfl rfl rfl) fun _ => Always.pure _
  | userStatusUpdate req =>
    exact Or.inr (Or.inr (Or.inr (Or.inr (leaves_handleUserStatus session req))))
  | getDialogs req =>
    refine Or.inr (Or.inr (Or.inr (Or.inr ?_)))
    refine (leaves_getUserId session).bind fun userId => ?_
    refine Always.bind (leaves_select fun _ => rfl) fun dialogs => ?_
    exact (leaves_buildDialogInfos _ _).bind fun _ => Always.pure _
  | resPQ | pqInnerData | serverDHParamsOk | serverDHInnerData | clientDHInnerData | dhGenOk
  | message | chat | historyResult | dialogInfo | dialogList =>
    exact Or.inr (Or.inr (Or.inr (Or.inr (Always.fail _))))

end Handlers

/-! ### Requests about dialogs -/

/-- The user a request acts for. -/
def requester (w : World) (session : Option Int64) : Option Int64 :=
  session.bind fun id => (w.row id).map FullSession.userId

theorem exec_getUserId (session : Option Int64) (w : World) :
    (∃ u, requester w session = some u ∧ (getUserId session).exec w = (.ok u, w)) ∨
      ∃ e, (getUserId session).exec w = (.error e, w) := by
  cases session with
  | none => exact Or.inr ⟨_, rfl⟩
  | some id =>
    rw [getUserId, exec_sql_bind, Database.getSession]
    cases hrow : w.state.db.sessions id with
    | none => exact Or.inr ⟨_, rfl⟩
    | some row => exact Or.inl ⟨row.userId, by simp [requester, World.row, hrow], rfl⟩

/-- Only the membership of the dialog `k` has changed. -/
structure Within (k : Int64) (db db' : Database) : Prop where
  dialogs : db'.dialogs = db.dialogs
  others : ∀ d u, d ≠ k → db'.hasParticipant d u = db.hasParticipant d u

theorem Within.refl (k : Int64) (db : Database) : Within k db db := ⟨rfl, fun _ _ _ => rfl⟩

theorem Within.trans {k : Int64} {db'' : Database} (h : Within k db db') (h' : Within k db' db'') :
    Within k db db'' :=
  ⟨h'.dialogs.trans h.dialogs, fun d u hd => (h'.others d u hd).trans (h.others d u hd)⟩

theorem Apart.within (h : Apart db db') (k : Int64) : Within k db db' where
  dialogs := h.dialogs
  others d u _ := by rw [Database.hasParticipant, h.participants]; rfl

theorem within_enter (k userId : Int64) (db : Database) : Within k db (db.enter k userId) := by
  refine ⟨rfl, fun d u hd => Bool.eq_iff_iff.mpr ?_⟩
  rw [hasParticipant_enter]
  simp [hd]

theorem within_insertParticipant (k userId : Int64) (db : Database) :
    Within k db (Database.insertParticipant k userId db).2 := by
  rcases insertParticipant_cases k userId db with ⟨e, heq, -⟩ | ⟨heq, -⟩
  · rw [heq]
    exact Within.refl k db
  · rw [heq]
    exact within_enter k userId db

theorem within_addParticipant (k userId : Int64) (db : Database) :
    Within k db (Database.addParticipant k userId db).2 := by
  unfold Database.addParticipant
  split
  · exact Within.refl k db
  · split
    · exact within_enter k userId db
    · exact Within.refl k db

theorem within_removeParticipant (k userId : Int64) (db : Database) :
    Within k db (Database.removeParticipant k userId db).2 := by
  refine ⟨rfl, fun d u hd => Bool.eq_iff_iff.mpr ?_⟩
  simp [Database.hasParticipant_iff, Database.removeParticipant, hd]

abbrev ChangesOnly (k : Int64) (p : ServerM α) : Prop :=
  p.Always fun w w' => Within k w.state.db w'.state.db

theorem changesOnly_sql {k : Int64} {f : Statement α} (h : ∀ db, Within k db (f db).2) :
    ChangesOnly k (sql f) := by
  refine Always.bind (fun w => ⟨h w.state.db, trivial⟩) fun result => ?_
  cases result with
  | ok a => exact Always.pure a
  | error e => exact Always.fail _

theorem changesOnly_of_leaves {p : ServerM α} (h : LeavesDialogs p) (k : Int64) :
    ChangesOnly k p := h.mono fun h => h.within k

theorem changesOnly_insertParticipants (k : Int64) (users : List Int64) :
    ChangesOnly k (insertParticipants k users) := by
  induction users with
  | nil => exact Always.pure _
  | cons user users ih =>
    exact Always.bind (changesOnly_sql (within_insertParticipant k user)) fun _ => ih

theorem changesOnly_handleAddGroupParticipant (session : Option Int64) (req : AddGroupParticipant) :
    ChangesOnly req.dialogId.val (handleAddGroupParticipant session req) := by
  refine Always.bind (changesOnly_of_leaves (leaves_getUserId session) _) fun userId => ?_
  refine Always.bind (changesOnly_sql fun db => Within.refl _ db) fun users => ?_
  refine Always.ite (Always.fail _) ?_
  refine Always.bind (changesOnly_sql (within_addParticipant _ _)) fun _ => ?_
  exact changesOnly_of_leaves (leaves_replyDialogInfo _ _) _

theorem changesOnly_handleRemoveGroupParticipant (session : Option Int64)
    (req : RemoveGroupParticipant) :
    ChangesOnly req.dialogId.val (handleRemoveGroupParticipant session req) := by
  refine Always.bind (changesOnly_of_leaves (leaves_getUserId session) _) fun userId => ?_
  refine Always.bind (changesOnly_sql fun db => Within.refl _ db) fun users => ?_
  refine Always.ite (Always.fail _) (Always.ite (Always.fail _) ?_)
  refine Always.bind (changesOnly_sql (within_removeParticipant _ _)) fun _ => ?_
  exact changesOnly_of_leaves (leaves_replyDialogInfo _ _) _

/-- What is left to do after `p` changes nothing of the dialogs. -/
theorem apart_exec_bind (p : ServerM α) {k : α → ServerM β} (hk : ∀ a, LeavesDialogs (k a))
    (w : World) : Apart (p.exec w).2.state.db ((p >>= k).exec w).2.state.db := by
  rw [exec_bind]
  cases hexec : p.exec w with
  | mk result w' =>
    cases result with
    | error e => exact Apart.refl _
    | ok a => exact (hk a).exec (fun w => Apart.refl _) Apart.trans w'

/-! ### Pairs -/

/-- A private dialog has two members, and no other one has the same two. -/
structure Paired (db : Database) : Prop where
  two : ∀ d ∈ db.dialogs, d.type = 0 → ∃ u v, u ≠ v ∧
    ∀ x, db.hasParticipant d.id x = true ↔ x = u ∨ x = v
  alone : ∀ d ∈ db.dialogs, ∀ d' ∈ db.dialogs, d.type = 0 → d'.type = 0 →
    (∀ x, db.hasParticipant d.id x = db.hasParticipant d'.id x) → d = d'

/-- Private dialogs stay, and stay as they are. -/
def Lasts (db db' : Database) : Prop :=
  ∀ d ∈ db.dialogs, d.type = 0 →
    d ∈ db'.dialogs ∧ ∀ x, db'.hasParticipant d.id x = db.hasParticipant d.id x

theorem Lasts.trans {db'' : Database} (h : Lasts db db') (h' : Lasts db' db'') : Lasts db db'' := by
  intro d hd htype
  obtain ⟨hd', hsame⟩ := h d hd htype
  obtain ⟨hd'', hsame'⟩ := h' d hd' htype
  exact ⟨hd'', fun x => (hsame' x).trans (hsame x)⟩

theorem Paired.of_lasts (h : Paired db) (hlasts : Lasts db db')
    (hold : ∀ d ∈ db'.dialogs, d.type = 0 → d ∈ db.dialogs) : Paired db' := by
  refine ⟨fun d hd htype => ?_, fun d hd d' hd' htype htype' hsame => ?_⟩
  · obtain ⟨u, v, hne, hmembers⟩ := h.two d (hold d hd htype) htype
    refine ⟨u, v, hne, fun x => ?_⟩
    rw [(hlasts d (hold d hd htype) htype).2]
    exact hmembers x
  · refine h.alone d (hold d hd htype) d' (hold d' hd' htype') htype htype' fun x => ?_
    rw [← (hlasts d (hold d hd htype) htype).2, ← (hlasts d' (hold d' hd' htype') htype').2]
    exact hsame x

theorem Apart.lasts (h : Apart db db') : Lasts db db' :=
  fun d hd _ => ⟨h.dialogs ▸ hd, fun x => by rw [Database.hasParticipant, h.participants]; rfl⟩

theorem Paired.apart (h : Paired db) (ha : Apart db db') : Paired db' :=
  h.of_lasts ha.lasts fun _ hd _ => ha.dialogs ▸ hd

theorem Within.lasts {k : Int64} (h : Within k db db')
    (hk : ∀ d ∈ db.dialogs, d.type = 0 → d.id ≠ k) : Lasts db db' :=
  fun d hd htype => ⟨h.dialogs ▸ hd, fun x => h.others d.id x (hk d hd htype)⟩

theorem Paired.within {k : Int64} (h : Paired db) (hw : Within k db db')
    (hk : ∀ d ∈ db.dialogs, d.type = 0 → d.id ≠ k) : Paired db' :=
  h.of_lasts (hw.lasts hk) fun _ hd _ => hw.dialogs ▸ hd

/-- A new dialog without members. -/
def Database.found (db : Database) (d : DialogRow) : Database :=
  { db with dialogs := db.dialogs ++ [d] }

/-- The row id of a new dialog is that of none before it. -/
theorem ne_of_nextRowid {id : Int64}
    (hid : nextRowid (largestRowid (db.dialogs.map DialogRow.id)) = some id) :
    ∀ d ∈ db.dialogs, d.id ≠ id := by
  rintro d hd rfl
  exact not_mem_of_nextRowid hid (List.mem_map_of_mem hd)

theorem insertDialog_cases (type : Int64) (title : String) (db : Database) :
    (db.NoRowid ∧ Database.insertDialog type title db = (.error .full, db)) ∨
      ∃ id, nextRowid (largestRowid (db.dialogs.map DialogRow.id)) = some id ∧
        Database.insertDialog type title db = (.ok id, db.found ⟨id, type, title⟩) := by
  unfold Database.insertDialog Database.NoRowid
  cases nextRowid (largestRowid (db.dialogs.map DialogRow.id)) with
  | none => exact Or.inl ⟨rfl, rfl⟩
  | some id => exact Or.inr ⟨id, rfl, rfl⟩

/-- A new dialog, whatever is then done to its membership. -/
theorem lasts_found {id : Int64} {type : Int64} {title : String}
    (hid : nextRowid (largestRowid (db.dialogs.map DialogRow.id)) = some id)
    (h : Within id (db.found ⟨id, type, title⟩) db') : Lasts db db' := by
  intro d hd htype
  refine ⟨?_, fun x => h.others d.id x (ne_of_nextRowid hid d hd)⟩
  rw [h.dialogs]
  exact List.mem_append_left _ hd

theorem mem_found {id : Int64} {type : Int64} {title : String} {d : DialogRow}
    (h : Within id (db.found ⟨id, type, title⟩) db') (hd : d ∈ db'.dialogs) :
    d ∈ db.dialogs ∨ d = ⟨id, type, title⟩ := by
  rw [h.dialogs] at hd
  rcases List.mem_append.mp hd with hd | hd
  · exact Or.inl hd
  · exact Or.inr (List.mem_singleton.mp hd)

/-! ### Creating a private dialog -/

/-- Between two different users who exist, the call finds their dialog or makes it. -/
theorem createPrivateDialog_cases {u v : Int64} (h : w.state.db.Sound) (hne : u ≠ v)
    (hu : w.state.db.hasUser u = true) (hv : w.state.db.hasUser v = true) :
    (∃ d, w.state.db.Joins u v d ∧ (createPrivateDialog u v).exec w = (.ok d.id, w)) ∨
    (∃ e, (createPrivateDialog u v).exec w = (.error e, w)) ∨
    ∃ id, (¬ ∃ d, w.state.db.Joins u v d) ∧
      nextRowid (largestRowid (w.state.db.dialogs.map DialogRow.id)) = some id ∧
      (createPrivateDialog u v).exec w =
        (.ok id, w.withDb (((w.state.db.found ⟨id, 0, ""⟩).enter id u).enter id v)) := by
  rw [createPrivateDialog_eq, exec_sql_bind]
  rcases selectPrivateDialog_cases u v w.state.db with ⟨d, hd, hsome⟩ | ⟨hd, hnone⟩
  · rw [hsome]
    exact Or.inl ⟨d, hd, rfl⟩
  · rw [hnone]
    dsimp only [insertMembers]
    rw [exec_sql_bind]
    rcases insertDialog_cases 0 "" w.state.db with ⟨-, hfull⟩ | ⟨id, hid, hnew⟩
    · exact Or.inr (Or.inl ⟨_, by rw [withDb_db, hfull]; rfl⟩)
    · refine Or.inr (Or.inr ⟨id, hd, hid, ?_⟩)
      have hfresh (x : Int64) : (w.state.db.found ⟨id, 0, ""⟩).hasParticipant id x = false :=
        h.fresh hid x
      have hdialog : (w.state.db.found ⟨id, 0, ""⟩).hasDialog id = true := by
        rw [Database.hasDialog_iff]
        simp [Database.found]
      have hfirst := insertParticipant_ok (hfresh u) hdialog hu
      have hsecond : ((w.state.db.found ⟨id, 0, ""⟩).enter id u).hasParticipant id v = false := by
        rw [← Bool.not_eq_true, hasParticipant_enter, hfresh v]
        simp [hne.symm]
      rw [withDb_db, hnew]
      dsimp only [insertParticipants]
      rw [bind_assoc, exec_sql_bind, withDb_db, hfirst]
      dsimp only
      rw [bind_assoc, exec_sql_bind, withDb_db, insertParticipant_ok hsecond hdialog hv]
      rfl

/-- The pair of a new private dialog. -/
theorem members_created {id u v : Int64} (h : db.Sound)
    (hid : nextRowid (largestRowid (db.dialogs.map DialogRow.id)) = some id) (x : Int64) :
    (((db.found ⟨id, 0, ""⟩).enter id u).enter id v).hasParticipant id x = true ↔
      x = u ∨ x = v := by
  have hfresh : (db.found ⟨id, 0, ""⟩).hasParticipant id x = false := h.fresh hid x
  rw [hasParticipant_enter, hasParticipant_enter, hfresh]
  simp

theorem within_created (id u v : Int64) (db : Database) :
    Within id (db.found ⟨id, 0, ""⟩) (((db.found ⟨id, 0, ""⟩).enter id u).enter id v) :=
  (within_enter id u _).trans (within_enter id v _)

theorem paired_created {id u v : Int64} (h : Paired db) (hsound : db.Sound) (hne : u ≠ v)
    (hnone : ¬ ∃ d, db.Joins u v d)
    (hid : nextRowid (largestRowid (db.dialogs.map DialogRow.id)) = some id) :
    Paired (((db.found ⟨id, 0, ""⟩).enter id u).enter id v) := by
  have hwithin := within_created id u v db
  have hlasts := lasts_found hid hwithin
  have hmembers := members_created (u := u) (v := v) hsound hid
  -- an old private dialog with the same members would have been found
  have hdiffer : ∀ d ∈ db.dialogs, d.type = 0 →
      ¬ ∀ x, db.hasParticipant d.id x = true ↔ x = u ∨ x = v := by
    intro d hd htype hsame
    exact hnone ⟨d, hd, htype, (hsame u).mpr (Or.inl rfl), (hsame v).mpr (Or.inr rfl)⟩
  refine ⟨fun d hd htype => ?_, fun d hd d' hd' htype htype' hsame => ?_⟩
  · rcases mem_found hwithin hd with hold | rfl
    · obtain ⟨u', v', hne', hsame⟩ := h.two d hold htype
      refine ⟨u', v', hne', fun x => ?_⟩
      rw [(hlasts d hold htype).2]
      exact hsame x
    · exact ⟨u, v, hne, hmembers⟩
  · rcases mem_found hwithin hd with hold | rfl
    · rcases mem_found hwithin hd' with hold' | rfl
      · refine h.alone d hold d' hold' htype htype' fun x => ?_
        rw [← (hlasts d hold htype).2, ← (hlasts d' hold' htype').2]
        exact hsame x
      · refine absurd (fun x => ?_) (hdiffer d hold htype)
        rw [← (hlasts d hold htype).2, hsame x]
        exact hmembers x
    · rcases mem_found hwithin hd' with hold' | rfl
      · refine absurd (fun x => ?_) (hdiffer d' hold' htype')
        rw [← (hlasts d' hold' htype').2, ← hsame x]
        exact hmembers x
      · rfl

/-! ### Runs of requests -/

/-- What happens between two requests: anything, so long as it leaves these tables alone. -/
structure Between (w w' : World) : Prop where
  users : w'.state.db.users = w.state.db.users
  dialogs : w'.state.db.dialogs = w.state.db.dialogs
  participants : w'.state.db.participants = w.state.db.participants

/-- Private dialogs are opened with another user who exists, and only groups change their
membership. -/
def Proper (w : World) (r : Request) : Prop :=
  match r.obj with
  | .createPrivateDialog req => ∀ u, requester w r.session = some u → u ≠ req.userId.val ∧
    w.state.db.hasUser u = true ∧ w.state.db.hasUser req.userId.val = true
  | .addGroupParticipant req => ∀ d ∈ w.state.db.dialogs, d.type = 0 → d.id ≠ req.dialogId.val
  | .removeGroupParticipant req => ∀ d ∈ w.state.db.dialogs, d.type = 0 → d.id ≠ req.dialogId.val
  | _ => True

section Requests

variable [Platform] (statics : Statics)

/-- Requests handled one at a time. -/
inductive Requests (meets : World → Request → Prop) (w : World) : World → Prop where
  | refl : Requests meets w w
  | between {w' w'' : World} : Requests meets w w' → Between w' w'' → Requests meets w w''
  | request {w' : World} (r : Request) : Requests meets w w' → meets w' r →
    Requests meets w (r.exec statics w')

/-- Each request meets the condition when its turn comes. -/
def Meeting (meets : World → Request → Prop) : List Request → World → Prop
  | [], _ => True
  | r :: rs, w => meets w r ∧ Meeting meets rs (r.exec statics w)

theorem requests_handleRequests {meets : World → Request → Prop} {w₀ : World} (rs : List Request)
    (h : Requests statics meets w₀ w) (hrs : Meeting statics meets rs w) :
    Requests statics meets w₀ (handleRequests statics rs w) := by
  induction rs generalizing w with
  | nil => exact h
  | cons r rs ih => exact ih (h.request r hrs.1) hrs.2

end Requests

/-- What a run of proper requests keeps. -/
structure Orderly (db : Database) : Prop where
  reachable : db.Reachable
  paired : Paired db

theorem Orderly.apart (h : Orderly db) (ha : Apart db db') : Orderly db' ∧ Lasts db db' :=
  ⟨⟨ha.tables h.reachable, h.paired.apart ha⟩, ha.lasts⟩

theorem orderly_createPrivateDialog {u v : Int64} (h : Orderly w.state.db) (hne : u ≠ v)
    (hu : w.state.db.hasUser u = true) (hv : w.state.db.hasUser v = true) :
    Orderly ((createPrivateDialog u v).exec w).2.state.db ∧
      Lasts w.state.db ((createPrivateDialog u v).exec w).2.state.db := by
  have htables := ((quiet_createPrivateDialog u v).always.exec Quiet.refl Quiet.trans w).tables
  rcases createPrivateDialog_cases h.reachable.sound hne hu hv with
    ⟨d, -, heq⟩ | ⟨e, heq⟩ | ⟨id, hnone, hid, heq⟩
  · rw [heq]
    exact ⟨h, (Apart.refl _).lasts⟩
  · rw [heq]
    exact ⟨h, (Apart.refl _).lasts⟩
  · rw [heq] at htables ⊢
    exact ⟨⟨htables h.reachable, paired_created h.paired h.reachable.sound hne hnone hid⟩,
      lasts_found hid (within_created id u v _)⟩

theorem orderly_handleCreatePrivateDialog {session : Option Int64} {req : CreatePrivateDialog}
    (h : Orderly w.state.db) (hproper : ∀ u, requester w session = some u → u ≠ req.userId.val ∧
      w.state.db.hasUser u = true ∧ w.state.db.hasUser req.userId.val = true) :
    Orderly ((handleCreatePrivateDialog session req).exec w).2.state.db ∧
      Lasts w.state.db ((handleCreatePrivateDialog session req).exec w).2.state.db := by
  unfold handleCreatePrivateDialog
  rw [exec_bind]
  rcases exec_getUserId session w with ⟨u, hu, heq⟩ | ⟨e, heq⟩
  · obtain ⟨hne, huser, hother⟩ := hproper u hu
    obtain ⟨horderly, hlasts⟩ := orderly_createPrivateDialog h hne huser hother
    rw [heq]
    have hapart := apart_exec_bind (createPrivateDialog u req.userId.val)
      (fun dialogId => leaves_replyDialogInfo dialogId u) w
    exact ⟨(horderly.apart hapart).1, hlasts.trans (horderly.apart hapart).2⟩
  · rw [heq]
    exact ⟨h, (Apart.refl _).lasts⟩

/-- Whatever becomes of a group, the private dialogs are as before. -/
theorem paired_createGroupDialog (h : Paired w.state.db) (title : String) (creator : Int64)
    (participants : List Int64) :
    Paired ((createGroupDialog title creator participants).exec w).2.state.db ∧
      Lasts w.state.db ((createGroupDialog title creator participants).exec w).2.state.db := by
  unfold createGroupDialog
  rw [exec_sql_bind]
  rcases insertDialog_cases 1 title w.state.db with ⟨-, hfull⟩ | ⟨id, hid, hnew⟩
  · rw [hfull]
    exact ⟨h, (Apart.refl _).lasts⟩
  · rw [hnew]
    have hwithin : Within id (w.state.db.found ⟨id, 1, title⟩)
        ((insertParticipants id (creator :: participants) >>= fun _ => pure id : ServerM Int64).exec
          (w.withDb (w.state.db.found ⟨id, 1, title⟩))).2.state.db :=
      ((changesOnly_insertParticipants id _).bind fun _ => Always.pure id).exec
        (fun w => Within.refl id _) Within.trans (w.withDb (w.state.db.found ⟨id, 1, title⟩))
    have hlasts := lasts_found hid hwithin
    refine ⟨h.of_lasts hlasts fun d hd htype => ?_, hlasts⟩
    rcases mem_found hwithin hd with hold | rfl
    · exact hold
    · cases htype

theorem paired_handleCreateGroup (session : Option Int64) (req : CreateGroup)
    (h : Paired w.state.db) :
    Paired ((handleCreateGroup session req).exec w).2.state.db ∧
      Lasts w.state.db ((handleCreateGroup session req).exec w).2.state.db := by
  unfold handleCreateGroup
  rw [exec_bind]
  rcases exec_getUserId session w with ⟨u, hu, heq⟩ | ⟨e, heq⟩
  · obtain ⟨hpaired, hlasts⟩ := paired_createGroupDialog h req.title u
      (req.participants.map UserId.val)
    rw [heq]
    have hapart := apart_exec_bind (createGroupDialog req.title u (req.participants.map UserId.val))
      (fun dialogId => leaves_replyDialogInfo dialogId u) w
    exact ⟨hpaired.apart hapart, hlasts.trans hapart.lasts⟩
  · rw [heq]
    exact ⟨h, (Apart.refl _).lasts⟩

section Steps

variable [Platform] (statics : Statics)

/-- One proper request. -/
theorem orderly_request {r : Request} (h : Orderly w.state.db) (hproper : Proper w r) :
    Orderly (r.exec statics w).state.db ∧ Lasts w.state.db (r.exec statics w).state.db := by
  obtain ⟨draws, conn, session, obj⟩ := r
  unfold Request.exec
  rcases handleRequest_dialogs statics draws conn session obj with
    ⟨req, rfl⟩ | ⟨req, rfl⟩ | ⟨req, rfl⟩ | ⟨req, rfl⟩ | hleaves
  · exact orderly_handleCreatePrivateDialog h hproper
  · have htables :=
      ((quiet_handleCreateGroup session req).always.exec Quiet.refl Quiet.trans w).tables
    obtain ⟨hpaired, hlasts⟩ := paired_handleCreateGroup session req h.paired
    exact ⟨⟨htables h.reachable, hpaired⟩, hlasts⟩
  · have htables := ((quiet_handleAddGroupParticipant session req).always.exec Quiet.refl
      Quiet.trans w).tables
    have hwithin := (changesOnly_handleAddGroupParticipant session req).exec
      (fun w => Within.refl _ _) Within.trans w
    exact ⟨⟨htables h.reachable, h.paired.within hwithin hproper⟩, hwithin.lasts hproper⟩
  · have htables := ((quiet_handleRemoveGroupParticipant session req).always.exec Quiet.refl
      Quiet.trans w).tables
    have hwithin := (changesOnly_handleRemoveGroupParticipant session req).exec
      (fun w => Within.refl _ _) Within.trans w
    exact ⟨⟨htables h.reachable, h.paired.within hwithin hproper⟩, hwithin.lasts hproper⟩
  · exact h.apart (hleaves.exec (fun w => Apart.refl _) Apart.trans w)

/-- A run of proper requests. -/
theorem orderly_requests (h : Orderly w.state.db) (hrun : Requests statics Proper w w') :
    Orderly w'.state.db ∧ Lasts w.state.db w'.state.db := by
  induction hrun with
  | refl => exact ⟨h, (Apart.refl _).lasts⟩
  | between _ hbetween ih =>
    have hapart := Apart.of_eq hbetween.users hbetween.dialogs hbetween.participants
    obtain ⟨horderly, hlasts⟩ := ih.1.apart hapart
    exact ⟨horderly, ih.2.trans hlasts⟩
  | request r _ hproper ih =>
    obtain ⟨horderly, hlasts⟩ := orderly_request statics ih.1 hproper
    exact ⟨horderly, ih.2.trans hlasts⟩

/-! ### What the calls return -/

omit [Platform] in
theorem createPrivateDialog_ok {u v id : Int64} (h : w.state.db.Sound) (hne : u ≠ v)
    (hok : (createPrivateDialog u v).exec w = (.ok id, w')) :
    (∃ d, w.state.db.Joins u v d ∧ d.id = id ∧ w' = w) ∨
      (¬ ∃ d, w.state.db.Joins u v d) ∧
      nextRowid (largestRowid (w.state.db.dialogs.map DialogRow.id)) = some id ∧
      w' = w.withDb (((w.state.db.found ⟨id, 0, ""⟩).enter id u).enter id v) := by
  by_cases hboth : w.state.db.hasUser u = true ∧ w.state.db.hasUser v = true
  · rcases createPrivateDialog_cases h hne hboth.1 hboth.2 with
      ⟨d, hd, heq⟩ | ⟨e, heq⟩ | ⟨id', hnone, hid, heq⟩
    · obtain ⟨hid, rfl⟩ := Prod.mk.inj (heq.symm.trans hok)
      exact Or.inl ⟨d, hd, Except.ok.inj hid, rfl⟩
    · cases heq.symm.trans hok
    · obtain ⟨hsame, rfl⟩ := Prod.mk.inj (heq.symm.trans hok)
      cases hsame
      exact Or.inr ⟨hnone, hid, rfl⟩
  · rw [createPrivateDialog_eq, exec_sql_bind] at hok
    rcases selectPrivateDialog_cases u v w.state.db with ⟨d, hd, hsome⟩ | ⟨-, hnone⟩
    · rw [hsome] at hok
      obtain ⟨hid, rfl⟩ := Prod.mk.inj hok
      exact Or.inl ⟨d, hd, Except.ok.inj hid, rfl⟩
    · -- the insertion of the user who does not exist fails
      rw [hnone] at hok
      dsimp only [insertMembers] at hok
      rw [exec_sql_bind, withDb_db] at hok
      rcases insertDialog_cases 0 "" w.state.db with ⟨-, hfull⟩ | ⟨id', hid', hnew⟩
      · rw [hfull] at hok
        cases hok
      · rw [hnew] at hok
        dsimp only at hok
        have hdialog : (w.state.db.found ⟨id', 0, ""⟩).hasDialog id' = true := by
          rw [Database.hasDialog_iff]
          simp [Database.found]
        have hinserted := insertParticipants_ok_iff
          (w := w.withDb (w.state.db.found ⟨id', 0, ""⟩)) [u, v] hdialog
        change (insertParticipants id' [u, v] >>= fun _ => pure id').exec
          (w.withDb (w.state.db.found ⟨id', 0, ""⟩)) = _ at hok
        rw [exec_bind] at hok
        cases hexec : (insertParticipants id' [u, v]).exec
          (w.withDb (w.state.db.found ⟨id', 0, ""⟩)) with
        | mk result w'' =>
          rw [hexec] at hok hinserted
          cases result with
          | error e => cases hok
          | ok _ =>
            have husers := (hinserted.mp rfl).2
            exact absurd ⟨(husers u (by simp)).1, (husers v (by simp)).1⟩ hboth

/-- A call has opened the dialog `id` of two users: they are in it, nobody else is, and from then
on every call for the two returns it. -/
structure Opened (u v id : Int64) (w : World) : Prop where
  members : ∀ x, w.state.db.hasParticipant id x = true ↔ x = u ∨ x = v
  again : ∀ w', Requests statics Proper w w' →
    ((createPrivateDialog u v).exec w').1 = .ok id ∧ ((createPrivateDialog v u).exec w').1 = .ok id

omit [Platform] in
/-- The pair of a dialog that joins two users. -/
theorem Paired.members {d : DialogRow} {u v : Int64} (h : Paired db) (hne : u ≠ v)
    (hd : db.Joins u v d) (x : Int64) : db.hasParticipant d.id x = true ↔ x = u ∨ x = v := by
  obtain ⟨hmem, htype, hu, hv⟩ := hd
  obtain ⟨a, b, -, hab⟩ := h.two d hmem htype
  rw [hab]
  rcases (hab u).mp hu with rfl | rfl <;> rcases (hab v).mp hv with rfl | rfl
  · exact absurd rfl hne
  · exact Iff.rfl
  · exact or_comm
  · exact absurd rfl hne

omit [Platform] in
/-- The two users' dialog is the one a call finds. -/
theorem createPrivateDialog_joined {d : DialogRow} {u v : Int64} (h : Paired w.state.db)
    (hne : u ≠ v) (hd : w.state.db.Joins u v d) :
    ((createPrivateDialog u v).exec w).1 = .ok d.id := by
  rw [createPrivateDialog_eq, exec_sql_bind]
  rcases selectPrivateDialog_cases u v w.state.db with ⟨d', hd', hsome⟩ | ⟨hnone, -⟩
  · rw [hsome]
    have hsame : d' = d := by
      refine h.alone d' hd'.1 d hd.1 hd'.2.1 hd.2.1 fun x => Bool.eq_iff_iff.mpr ?_
      rw [h.members hne hd', h.members hne hd]
    exact congrArg (fun d => Except.ok (DialogRow.id d)) hsame
  · exact absurd ⟨d, hd⟩ hnone

theorem opened_of_joins {d : DialogRow} {u v : Int64} (h : Orderly w.state.db) (hne : u ≠ v)
    (hd : w.state.db.Joins u v d) : Opened statics u v d.id w := by
  refine ⟨h.paired.members hne hd, fun w' hrun => ?_⟩
  obtain ⟨horderly, hlasts⟩ := orderly_requests statics h hrun
  obtain ⟨hmem, hsame⟩ := hlasts d hd.1 hd.2.1
  have hu : w'.state.db.hasParticipant d.id u = true := (hsame u).trans hd.2.2.1
  have hv : w'.state.db.hasParticipant d.id v = true := (hsame v).trans hd.2.2.2
  exact ⟨createPrivateDialog_joined horderly.paired hne ⟨hmem, hd.2.1, hu, hv⟩,
    createPrivateDialog_joined horderly.paired hne.symm ⟨hmem, hd.2.1, hv, hu⟩⟩

/-- In a run of proper requests private dialogs and pairs of users belong together. -/
theorem private_dialogs_paired (h : Requests statics Proper World.init w) :
    (∀ u v id, u ≠ v → ((createPrivateDialog u v).exec w).1 = .ok id →
      Opened statics u v id ((createPrivateDialog u v).exec w).2) ∧
    ∀ d ∈ w.state.db.dialogs, ∀ d' ∈ w.state.db.dialogs, d.type = 0 → d'.type = 0 →
      (∀ x, w.state.db.hasParticipant d.id x = w.state.db.hasParticipant d'.id x) → d = d' := by
  have horderly := (orderly_requests statics (w := World.init) ⟨.init, nofun, nofun⟩ h).1
  refine ⟨fun u v id hne hok => ?_, horderly.paired.alone⟩
  rcases hexec : (createPrivateDialog u v).exec w with ⟨result, w'⟩
  rw [hexec] at hok
  cases hok
  rcases createPrivateDialog_ok horderly.reachable.sound hne hexec with
    ⟨d, hd, rfl, rfl⟩ | ⟨hnone, hid, rfl⟩
  · exact opened_of_joins statics horderly hne hd
  · have htables := ((quiet_createPrivateDialog u v).always.exec Quiet.refl Quiet.trans w).tables
    have hpaired := paired_created horderly.paired horderly.reachable.sound hne hnone hid
    have hmembers := members_created (u := u) (v := v) horderly.reachable.sound hid
    rw [hexec] at htables
    refine opened_of_joins statics (d := ⟨id, 0, ""⟩) ⟨htables horderly.reachable, hpaired⟩ hne
      ⟨?_, rfl, (hmembers u).mpr (Or.inl rfl), (hmembers v).mpr (Or.inr rfl)⟩
    exact List.mem_append_right _ (List.mem_singleton.mpr rfl)

end Steps

/-! ### Two runs -/

namespace Sample

/-- A key exchange and requests under the session it leaves. -/
def requests (objs : List TlObject) : List Request :=
  handshake.map (Request.mk (draws 0).handler 0 none) ++
    objs.map (Request.mk (draws 0).handler 0 (some id))

def after (objs : List TlObject) : World :=
  letI := platform
  handleRequests statics (requests objs) World.init

/-- A user signs up and opens a dialog with the system user. -/
def opening : List TlObject := [.signUp ⟨"1", ""⟩, .createPrivateDialog ⟨⟨0⟩⟩]

theorem meeting_opening :
    letI := platform
    Meeting statics Proper (requests opening) World.init := by
  refine ⟨trivial, trivial, trivial, fun u hu => ?_, trivial⟩
  have huser : requester (after [.signUp ⟨"1", ""⟩]) (some id) = some 1 := by decide +kernel
  cases huser.symm.trans hu
  exact ⟨by decide, by decide +kernel, by decide +kernel⟩

theorem requests_opening :
    letI := platform
    Requests statics Proper World.init (after opening) :=
  letI := platform
  requests_handleRequests (w := World.init) statics (requests opening) .refl meeting_opening

/-- Two calls for a user who does not exist. -/
def unknown : List TlObject := [.createPrivateDialog ⟨⟨5⟩⟩, .createPrivateDialog ⟨⟨5⟩⟩]

theorem requests_unknown :
    letI := platform
    Requests statics (fun _ _ => True) World.init (after unknown) :=
  letI := platform
  requests_handleRequests (w := World.init) statics (requests unknown) .refl
    ⟨trivial, trivial, trivial, trivial, trivial⟩

end Sample

/-- The two are in the dialog that a call for them returns. -/
theorem private_dialogs_paired_opening :
    letI := Sample.platform
    ((createPrivateDialog 1 0).exec (Sample.after Sample.opening)).1 = .ok 1 ∧
      Opened Sample.statics 1 0 1
        ((createPrivateDialog 1 0).exec (Sample.after Sample.opening)).2 := by
  have hok : ((createPrivateDialog 1 0).exec (Sample.after Sample.opening)).1 = .ok 1 := by
    decide +kernel
  have hpaired := @private_dialogs_paired _ Sample.platform _ Sample.requests_opening
  exact ⟨hok, hpaired.1 1 0 1 (by decide) hok⟩

/-- The calls for a user who does not exist leave two dialogs with one and the same member. -/
theorem not_private_dialogs_paired : ¬ ∀ (_ : Platform) (statics : Statics) (w : World),
    Requests statics (fun _ _ => True) World.init w →
    (∀ u v id, ((createPrivateDialog u v).exec w).1 = .ok id →
      ∀ x, ((createPrivateDialog u v).exec w).2.state.db.hasParticipant id x = true ↔
        x = u ∨ x = v) ∧
    ∀ d ∈ w.state.db.dialogs, ∀ d' ∈ w.state.db.dialogs, d.type = 0 → d'.type = 0 →
      (∀ x, w.state.db.hasParticipant d.id x = w.state.db.hasParticipant d'.id x) → d = d' := by
  intro h
  have halone := (h Sample.platform _ _ Sample.requests_unknown).2
  have hdialogs : (Sample.after Sample.unknown).state.db.dialogs = [⟨1, 0, ""⟩, ⟨2, 0, ""⟩] := by
    decide +kernel
  have hpairs : (Sample.after Sample.unknown).state.db.participants = [⟨1, 0⟩, ⟨2, 0⟩] := by
    decide +kernel
  have hsame := halone ⟨1, 0, ""⟩ (by simp [hdialogs]) ⟨2, 0, ""⟩ (by simp [hdialogs]) rfl rfl
    fun x => by simp [Database.hasParticipant, hpairs]
  cases hsame

end KoSta.Server
