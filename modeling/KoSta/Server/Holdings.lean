import KoSta.Server.Dialogs

/-! What the handlers know of the server: of the sessions they read the users, and no more. -/
namespace KoSta.Server
open Lib Lib.Prog Tl Crypto Function

variable {α β : Type} {w w' : World} {db db' : Database}

/-- The tables other than `sessions`. -/
def Database.bare (db : Database) : Database := { db with sessions := fun _ => none }

/-- The other tables, the users of the sessions, the handshake store. -/
def holdings (w : World) : Database × (Int64 → Option Int64) × (Bytes → Option Handshake) :=
  (w.state.db.bare, fun id => (w.row id).map FullSession.userId, w.state.handshakes)

abbrev Plainly (p : ServerM α) : Prop := p.Through holdings Quiet

/-- A statement on the other tables. -/
def Oblivious (f : Statement α) : Prop :=
  ∀ db sessions, f { db with sessions } = ((f db).1, { (f db).2 with sessions })

theorem Oblivious.sessions {f : Statement α} (h : Oblivious f) (db : Database) :
    (f db).2.sessions = db.sessions := by
  have heq := congrArg (fun r => r.2.sessions) (h db db.sessions)
  exact heq

theorem Oblivious.alike {f : Statement α} (h : Oblivious f) (heq : db.bare = db'.bare) :
    (f db).1 = (f db').1 ∧ (f db).2.bare = (f db').2.bare := by
  have hdb := h db fun _ => none
  have hdb' := h db' fun _ => none
  change f db.bare = _ at hdb
  change f db'.bare = _ at hdb'
  rw [heq, hdb'] at hdb
  exact ⟨(congrArg Prod.fst hdb).symm, (congrArg Prod.snd hdb).symm⟩

theorem plain_sql {f : Statement α} (h : Oblivious f)
    (htables : ∀ db, db.Reachable → (f db).2.Reachable) : Plainly (sql f) := by
  have hquiet : KeepsSessions f := ⟨h.sessions, htables⟩
  refine Through.bind (Through.atomically (fun w => ?_) fun w w' heq => ?_) fun result => ?_
  · exact ⟨hquiet.tables w.state.db, rfl, hquiet.sessions _, rfl, rfl, rfl⟩
  · obtain ⟨hbare, hrest⟩ := Prod.mk.inj heq
    obtain ⟨husers, hhandshakes⟩ := Prod.mk.inj hrest
    obtain ⟨hresult, hafter⟩ := h.alike hbare
    refine ⟨hresult, Prod.ext hafter (Prod.ext ?_ hhandshakes)⟩
    funext id
    change ((f w.state.db).2.sessions id).map _ = ((f w'.state.db).2.sessions id).map _
    rw [h.sessions, h.sessions]
    exact congrFun husers id
  · cases result with
    | ok a => exact Through.pure a
    | error e => exact Through.fail _

theorem plain_keeps {f : Statement α} (h : Oblivious f) (hkeeps : KeepsSessions f) :
    Plainly (sql f) := plain_sql h hkeeps.tables

theorem plain_select {f : Statement α} (h : Oblivious f) (hselect : ∀ db, (f db).2 = db) :
    Plainly (sql f) := plain_keeps h (keepsSessions_select hselect)

/-! ### Statements -/

theorem oblivious_insertUser (phone hash : String) :
    Oblivious (Database.insertUser phone hash) := by
  intro db sessions
  unfold Database.insertUser
  dsimp only
  split
  · rfl
  · split <;> rfl

theorem oblivious_insertDialog (type : Int64) (title : String) :
    Oblivious (Database.insertDialog type title) := by
  intro db sessions
  unfold Database.insertDialog
  dsimp only
  split <;> rfl

theorem oblivious_insertParticipant (dialogId userId : Int64) :
    Oblivious (Database.insertParticipant dialogId userId) := by
  intro db sessions
  unfold Database.insertParticipant Database.hasParticipant Database.hasDialog Database.hasUser
  dsimp only
  split
  · rfl
  · split <;> rfl

theorem oblivious_addParticipant (dialogId userId : Int64) :
    Oblivious (Database.addParticipant dialogId userId) := by
  intro db sessions
  unfold Database.addParticipant Database.hasParticipant Database.hasDialog Database.hasUser
  dsimp only
  split
  · rfl
  · split <;> rfl

theorem oblivious_saveMessage (dialogId senderId : Int64) (text : String) (timestamp : Int64)
    (isOutgoing : Bool) (path type : Option String) :
    Oblivious (Database.saveMessage dialogId senderId text timestamp isOutgoing path type) := by
  intro db sessions
  unfold Database.saveMessage Database.hasDialog Database.hasUser
  dsimp only
  split
  · rfl
  · split <;> rfl

theorem oblivious_setUserStatus (userId : Int64) (status : Int32) :
    Oblivious (Database.setUserStatus userId status) := by
  intro db sessions
  unfold Database.setUserStatus Database.hasUser
  dsimp only
  split <;> rfl

/-! ### The handshake store -/

theorem plain_orSearching (x : Option α) : Plainly (orSearching x) := by
  cases x
  · exact Through.fail _
  · exact Through.pure _

theorem plain_readFrom (r : Reader Tl.Error α) (bytes : Bytes) : Plainly (readFrom r bytes) := by
  unfold readFrom
  cases r.run bytes
  · exact Through.pure _
  · exact Through.fail _
  · exact Through.fail _

theorem plain_ofCrypto (x : Except CryptoError α) : Plainly (ofCrypto x) := by
  cases x
  · exact Through.fail _
  · exact Through.pure _

theorem plain_insertHandshake (key : Bytes) (entry : Handshake) :
    Plainly (insertHandshake key entry) := by
  refine Through.atomically (fun w => ⟨fun h => h, rfl, rfl, rfl, rfl, rfl⟩) fun w w' heq => ?_
  obtain ⟨hbare, hrest⟩ := Prod.mk.inj heq
  obtain ⟨husers, hhandshakes⟩ := Prod.mk.inj hrest
  refine ⟨rfl, Prod.ext hbare (Prod.ext husers ?_)⟩
  exact congrArg (fun handshakes => update handshakes key (some entry)) hhandshakes

/-! ### Handlers -/

variable (id : Int64) (statics : Statics) (draws : Draws)

theorem getUserId_eq : getUserId (some id) =
    .atomic (fun w => w) fun w => match (w.row id).map FullSession.userId with
      | none => failWith "Session not found"
      | some userId => pure userId := by
  refine congrArg₂ Prog.atomic rfl (funext fun w => ?_)
  change (match (w.row id).map fun row => (row.userId, row.serverSalt, row.nonce.toList,
      row.serverNonce.toList, row.newNonce.toList) with
    | none => failWith "Session not found"
    | some session => pure session.1) = _
  cases w.row id <;> rfl

theorem plain_getUserId : Plainly (getUserId (some id)) := by
  rw [getUserId_eq]
  refine ⟨fun w => ⟨Quiet.refl w, ?_⟩, fun w w' heq => ⟨heq, ?_⟩⟩
  · beta_reduce
    cases (w.row id).map FullSession.userId with
    | none => exact Through.fail _
    | some userId => exact Through.pure _
  · obtain ⟨-, hrest⟩ := Prod.mk.inj heq
    have huser : (w.row id).map _ = (w'.row id).map _ := congrFun (Prod.mk.inj hrest).1 id
    beta_reduce
    rw [huser]

theorem plain_insertParticipants (dialogId : Int64) (users : List Int64) :
    Plainly (insertParticipants dialogId users) := by
  induction users with
  | nil => exact Through.pure _
  | cons user users ih =>
    exact (plain_keeps (oblivious_insertParticipant _ _)
      (keepsSessions_insertParticipant _ _)).bind fun _ => ih

theorem plain_buildDialogInfo (dialogId userId : Int64) :
    Plainly (buildDialogInfo dialogId userId) := by
  refine (plain_select (fun _ _ => rfl) fun _ => rfl).bind fun users =>
    Through.bind ?_ fun _ => Through.pure _
  refine Through.ite (Through.pure _) (Through.ite ?_ (Through.pure _))
  exact (plain_select (fun _ _ => rfl) fun _ => rfl).bind fun _ => Through.pure _

theorem plain_replyDialogInfo (dialogId userId : Int64) :
    Plainly (replyDialogInfo dialogId userId) :=
  (plain_buildDialogInfo dialogId userId).bind fun _ => Through.pure _

theorem plain_insertDialog (type : Int64) (title : String) :
    Plainly (sql (Database.insertDialog type title)) :=
  plain_keeps (oblivious_insertDialog type title) (keepsSessions_insertDialog type title)

theorem plain_insertParticipant (dialogId userId : Int64) :
    Plainly (sql (Database.insertParticipant dialogId userId)) :=
  plain_keeps (oblivious_insertParticipant _ _) (keepsSessions_insertParticipant _ _)

theorem plain_createPrivateDialog (user1 user2 : Int64) :
    Plainly (createPrivateDialog user1 user2) := by
  refine (plain_select (fun _ _ => rfl) fun _ => rfl).bind fun found => ?_
  cases found with
  | some id => exact Through.pure _
  | none =>
    refine (plain_insertDialog _ _).bind fun dialogId => ?_
    refine (plain_insertParticipant _ _).bind fun _ => ?_
    exact (plain_insertParticipant _ _).bind fun _ => Through.pure _

theorem plain_buildDialogInfos (userId : Int64)
    (dialogs : List (Int64 × String × Int64 × String)) :
    Plainly (buildDialogInfos userId dialogs) := by
  induction dialogs with
  | nil => exact Through.pure _
  | cons dialog dialogs ih =>
    exact (plain_buildDialogInfo _ _).bind fun _ => ih.bind fun _ => Through.pure _

theorem plain_handleSendMessage (req : SendMessage) :
    Plainly (handleSendMessage draws (some id) req) := by
  refine (plain_getUserId id).bind fun userId => Through.bind ?_ fun _ => Through.pure _
  exact plain_keeps (oblivious_saveMessage _ _ _ _ _ _ _) (keepsSessions_saveMessage _ _ _ _ _ _ _)

theorem plain_handleUserStatus (req : UserStatusUpdate) :
    Plainly (handleUserStatus (some id) req) := by
  refine (plain_getUserId id).bind fun userId => Through.ite (Through.fail _) ?_
  exact (plain_keeps (oblivious_setUserStatus _ _) (keepsSessions_setUserStatus _ _)).bind
    fun _ => Through.pure _

theorem plain_handleCreateGroup (req : CreateGroup) :
    Plainly (handleCreateGroup (some id) req) := by
  refine (plain_getUserId id).bind fun userId => Through.bind ?_ fun dialogId =>
    plain_replyDialogInfo _ _
  refine (plain_insertDialog _ _).bind fun dialogId => ?_
  exact (plain_insertParticipants _ _).bind fun _ => Through.pure _

theorem plain_handleAddGroupParticipant (req : AddGroupParticipant) :
    Plainly (handleAddGroupParticipant (some id) req) := by
  refine (plain_getUserId id).bind fun userId =>
    (plain_select (fun _ _ => rfl) fun _ => rfl).bind fun users => Through.ite (Through.fail _) ?_
  exact (plain_keeps (oblivious_addParticipant _ _) (keepsSessions_addParticipant _ _)).bind
    fun _ => plain_replyDialogInfo _ _

theorem plain_handleRemoveGroupParticipant (req : RemoveGroupParticipant) :
    Plainly (handleRemoveGroupParticipant (some id) req) := by
  refine (plain_getUserId id).bind fun userId =>
    (plain_select (fun _ _ => rfl) fun _ => rfl).bind fun users =>
    Through.ite (Through.fail _) (Through.ite (Through.fail _) ?_)
  exact (plain_keeps (fun _ _ => rfl) (keepsSessions_removeParticipant _ _)).bind
    fun _ => plain_replyDialogInfo _ _

variable [Platform]

theorem plain_handleReqDhParams (req : ReqDHParams) :
    Plainly (handleReqDhParams statics draws req) := by
  refine (plain_ofCrypto _).bind fun decrypted => (plain_readFrom _ _).bind fun parsed => ?_
  obtain ⟨obj, rest⟩ := parsed
  dsimp only
  split
  · refine Through.ite (Through.fail _) ?_
    refine Through.bind (plain_insertHandshake _ _) fun _ => ?_
    exact (plain_ofCrypto _).bind fun _ => Through.pure _
  · exact Through.fail _

theorem plain_handleRequest (conn : ConnId) {obj : TlObject} (hsign : ∀ req, obj ≠ .signUp req)
    (hset : ∀ req, obj ≠ .setClientDHParams req) :
    Plainly (handleRequest statics draws conn obj (some id)) := by
  cases obj with
  | signUp req => exact absurd rfl (hsign req)
  | setClientDHParams req => exact absurd rfl (hset req)
  | reqPq req =>
    exact (plain_orSearching _).bind fun p => (plain_orSearching _).bind fun q => Through.pure _
  | reqDHParams req => exact plain_handleReqDhParams statics draws req
  | sendMessage req => exact plain_handleSendMessage id draws req
  | getHistory req =>
    exact (plain_getUserId id).bind fun _ =>
      (plain_select (fun _ _ => rfl) fun _ => rfl).bind fun _ => Through.pure _
  | sendMessageAck req =>
    exact (plain_getUserId id).bind fun _ => (plain_keeps (fun _ _ => rfl)
      (keepsSessions_markMessageDelivered _)).bind fun _ => Through.pure _
  | userStatusUpdate req => exact plain_handleUserStatus id req
  | createPrivateDialog req =>
    exact (plain_getUserId id).bind fun userId =>
      (plain_createPrivateDialog _ _).bind fun _ => plain_replyDialogInfo _ _
  | createGroup req => exact plain_handleCreateGroup id req
  | addGroupParticipant req => exact plain_handleAddGroupParticipant id req
  | removeGroupParticipant req => exact plain_handleRemoveGroupParticipant id req
  | getDialogs req =>
    refine (plain_getUserId id).bind fun userId =>
      (plain_select (fun _ _ => rfl) fun _ => rfl).bind fun dialogs => ?_
    exact (plain_buildDialogInfos _ _).bind fun _ => Through.pure _
  | resPQ | pqInnerData | serverDHParamsOk | serverDHInnerData | clientDHInnerData | dhGenOk
  | message | chat | historyResult | dialogInfo | dialogList => exact Through.fail _

/-! ### Signing up -/

omit [Platform] in
theorem holdings_updateSession (conn : ConnId) (session : SessionData) (w : World) :
    holdings ((updateSession conn id session [] []).exec w).2 =
      (w.state.db.bare, update (fun i => (w.row i).map FullSession.userId) id (some session.userId),
        w.state.handshakes) := by
  refine congrArg (fun users => (w.state.db.bare, users, w.state.handshakes)) (funext fun i => ?_)
  change (if i = id then some (session.toRow id) else w.row i).map FullSession.userId = _
  by_cases hi : i = id
  · rw [if_pos hi, hi, update_self]
    rfl
  · rw [if_neg hi, update_of_ne hi]

/-- After `create_user` and the update of the row. -/
def World.signedUp (w : World) (id : Int64) (userId : Int64) (db : Database) : World :=
  w.withDb (db.modifySession id fun row => { row with userId })

theorem exec_handleSignUp {conn : ConnId} {req : SignUp} {userId : Int64}
    (h : Database.insertUser req.phone (bcryptHash draws.salt req.password) w.state.db =
      (.ok userId, db)) :
    (handleSignUp draws conn (some id) req).exec w =
      (getSession conn id (fun session => [.lookedUp conn id session]) >>= fun found => do
        match found with
        | some session => updateSession conn id { session with userId } [] []
        | none => pure ()
        return none).exec (w.signedUp id userId db) := by
  unfold handleSignUp createUser
  rw [exec_sql_bind, h]
  dsimp only
  rw [exec_sql_bind]
  rfl

omit [Platform] in
theorem users_signedUp (w : World) {userId : Int64} (h : db.sessions = w.state.db.sessions) :
    update (fun i => ((w.signedUp id userId db).row i).map FullSession.userId) id (some userId) =
      update (fun i => (w.row i).map FullSession.userId) id (some userId) := by
  funext i
  by_cases hi : i = id
  · rw [hi, update_self, update_self]
  · rw [update_of_ne hi, update_of_ne hi]
    change (if i = id then _ else db.sessions i).map FullSession.userId = _
    rw [if_neg hi, h]

/-- A session that has a row is given the new user, whether it is cached or not. -/
theorem holdings_handleSignUp (conn : ConnId) {req : SignUp} {userId : Int64}
    (h : Database.insertUser req.phone (bcryptHash draws.salt req.password) w.state.db =
      (.ok userId, db)) (hrow : (w.row id).isSome) :
    ∃ w', (handleSignUp draws conn (some id) req).exec w = (.ok none, w') ∧
      holdings w' = (db.bare, update (fun i => (w.row i).map FullSession.userId) id (some userId),
        w.state.handshakes) := by
  have hsessions : db.sessions = w.state.db.sessions := by
    have hkeeps := (oblivious_insertUser req.phone (bcryptHash draws.salt req.password)).sessions
      w.state.db
    rwa [h] at hkeeps
  rw [exec_handleSignUp id draws h, Prog.exec_bind]
  have hall (session : SessionData) (w₁ : World)
      (hdb : w₁.state.db = (w.signedUp id userId db).state.db)
      (hhandshakes : w₁.state.handshakes = w.state.handshakes) :
      holdings ((updateSession conn id { session with userId } [] []).exec w₁).2 =
        (db.bare, update (fun i => (w.row i).map FullSession.userId) id (some userId),
          w.state.handshakes) := by
    rw [holdings_updateSession, hhandshakes, ← users_signedUp id w hsessions]
    unfold World.row
    rw [hdb]
    rfl
  cases hentry : (w.signedUp id userId db).state.cache id with
  | some session =>
    rw [exec_getSession_hit conn _ hentry]
    exact ⟨_, rfl, hall session _ rfl rfl⟩
  | none =>
    obtain ⟨row, hsome⟩ := Option.isSome_iff_exists.mp hrow
    have hnew : (w.signedUp id userId db).row id = some { row with userId } := by
      change (if id = id then (db.sessions id).map _ else _) = _
      rw [if_pos rfl, hsessions]
      exact congrArg (Option.map _) hsome
    rw [exec_getSession_miss conn _ hentry hnew]
    exact ⟨_, rfl, hall _ _ rfl rfl⟩

theorem handleSignUp_error {conn : ConnId} {req : SignUp} {e : SqlError}
    (h : Database.insertUser req.phone (bcryptHash draws.salt req.password) w.state.db =
      (.error e, db)) :
    (handleSignUp draws conn (some id) req).exec w = (.error (.error (.sql e)), w.withDb db) := by
  unfold handleSignUp createUser
  rw [exec_sql_bind, h]

theorem handleSignUp_alike (conn : ConnId) (req : SignUp) (h : holdings w = holdings w')
    (hrow : (w.row id).isSome) :
    ((handleSignUp draws conn (some id) req).exec w).1 =
        ((handleSignUp draws conn (some id) req).exec w').1 ∧
      holdings ((handleSignUp draws conn (some id) req).exec w).2 =
        holdings ((handleSignUp draws conn (some id) req).exec w').2 := by
  obtain ⟨hbare, hrest⟩ := Prod.mk.inj h
  obtain ⟨husers, hhandshakes⟩ := Prod.mk.inj hrest
  have hrow' : (w'.row id).isSome := by
    have huser := congrArg Option.isSome (congrFun husers id)
    rw [Option.isSome_map, Option.isSome_map] at huser
    rwa [← huser]
  have hinsert := oblivious_insertUser req.phone (bcryptHash draws.salt req.password)
  obtain ⟨hresult, hafter⟩ := hinsert.alike hbare
  have hsessions := hinsert.sessions w.state.db
  have hsessions' := hinsert.sessions w'.state.db
  rcases heq : Database.insertUser req.phone (bcryptHash draws.salt req.password) w.state.db
    with ⟨result, db⟩
  rcases heq' : Database.insertUser req.phone (bcryptHash draws.salt req.password) w'.state.db
    with ⟨result', db'⟩
  rw [heq] at hresult hafter hsessions
  rw [heq'] at hresult hafter hsessions'
  obtain rfl : result = result' := hresult
  cases result with
  | error e =>
    rw [handleSignUp_error id draws heq, handleSignUp_error id draws heq']
    refine ⟨rfl, Prod.ext hafter (Prod.ext (funext fun i => ?_) hhandshakes)⟩
    change (db.sessions i).map _ = (db'.sessions i).map _
    rw [hsessions, hsessions']
    exact congrFun husers i
  | ok userId =>
    obtain ⟨w₁, hexec, hholds⟩ := holdings_handleSignUp id draws conn heq hrow
    obtain ⟨w₂, hexec', hholds'⟩ := holdings_handleSignUp id draws conn heq' hrow'
    rw [hexec, hexec']
    refine ⟨rfl, ?_⟩
    rw [hholds, hholds', husers, hhandshakes]
    exact congrArg (fun bare => (bare, _)) hafter

/-- From two worlds that hold the same a handler ends alike. -/
theorem handleRequest_alike (conn : ConnId) {obj : TlObject}
    (hset : ∀ req, obj ≠ .setClientDHParams req) (h : holdings w = holdings w')
    (hrow : (w.row id).isSome) :
    ((handleRequest statics draws conn obj (some id)).exec w).1 =
        ((handleRequest statics draws conn obj (some id)).exec w').1 ∧
      holdings ((handleRequest statics draws conn obj (some id)).exec w).2 =
        holdings ((handleRequest statics draws conn obj (some id)).exec w').2 := by
  by_cases hsign : ∃ req, obj = .signUp req
  · obtain ⟨req, rfl⟩ := hsign
    exact handleSignUp_alike id draws conn req h hrow
  · have hplain := plain_handleRequest id statics draws conn
      (fun req hreq => hsign ⟨req, hreq⟩) hset
    exact hplain.exec_eq h

end KoSta.Server
