import KoSta.Lib.Knowledge
import KoSta.Server.Outsiders
import KoSta.Server.Ownership
import KoSta.Server.Replays

/-! Who acts for whom and who has written what, on connections that are served at the same time. -/
namespace KoSta.Server
open Lib Lib.Prog Tl Crypto Function

variable {α : Type} {w : World} {conn : ConnId} {id u : Int64}

/-! ### Programs -/

section Programs

variable {known : Set Fact} {Q : α → Set Fact → Prop} {session : Option Int64}

/-- Whatever the turn knows, such a section may be made. -/
abbrev Calm (p : ServerM α) : Prop := p.Always (Tame ∅)

theorem learns_calm {p : ServerM α} (h : Calm p) : p.Learns Gains (fun _ _ => True) known :=
  Learns.of_always h fun ht => .learn (ht.mono (Set.empty_subset _)) fun _ => Or.inl

theorem calm_locked {f : State → (α × List Event) × State}
    (h : ∀ s, (f s).2.db = s.db ∧ (f s).2.cache = s.cache) : Calm (locked f) := by
  intro w
  obtain ⟨hdb, hcache⟩ := h w.state
  refine ⟨tame_of_eq (List.subset_append_right _ _) ?_ (congrArg Database.sessions hdb) hcache,
    trivial⟩
  exact grows_users (hdb ▸ List.Subset.refl _) (congrArg Database.messages hdb)
    (congrArg Database.statuses hdb)

theorem calm_quiet {p : ServerM α} (h : Quietly p) (ht : Admits.Tables (Grows ∅) p) : Calm p := by
  refine (h.always.and ht).mono ?_
  rintro w w' ⟨hquiet, hgrows⟩
  exact tame_of_eq (hquiet.trace ▸ List.Subset.refl _) hgrows hquiet.sessions hquiet.cache

theorem calm_modifyRow (id : Int64) {f : FullSession → FullSession}
    (h : ∀ row, (f row).userId = row.userId) :
    Calm (sql fun db => (.ok (), db.modifySession id f)) := by
  refine Always.bind (fun _ => ⟨tame_modifyRow fun row => Or.inl (h row), trivial⟩) fun result => ?_
  cases result with
  | ok a => exact Always.pure a
  | error e => exact Always.fail _

theorem calm_readFrom (r : Reader Tl.Error α) (bytes : Bytes) : Calm (readFrom r bytes) := by
  unfold readFrom
  cases r.run bytes <;> trivial

theorem calm_orPanic (x : Option α) : Calm (orPanic x) := by
  cases x <;> trivial

theorem calm_ofCrypto (x : Except CryptoError α) : Calm (ofCrypto x) := by
  cases x <;> trivial

theorem calm_recordMsgId (conn : ConnId) (id : Int64) (session : SessionData) (msgId : Int64) :
    Calm (recordMsgId conn id session msgId) := by
  refine calm_locked fun s => ?_
  dsimp only
  split <;> exact ⟨rfl, rfl⟩

theorem calm_transportSend (conn : ConnId) (data : Bytes) (events : List Event) :
    Calm (transportSend conn data events) := by
  unfold transportSend
  split
  · exact calm_locked fun _ => ⟨rfl, rfl⟩
  · trivial

theorem learns_locked {f : State → (α × List Event) × State}
    (h : ∀ w : World, ∃ known', Gains known w ⟨(f w.state).2, (f w.state).1.2 ++ w.trace⟩ known' ∧
      known ⊆ known' ∧ Q (f w.state).1.1 known') : (locked f).Learns Gains Q known :=
  Learns.atomically h

theorem learns_sql {f : Statement α}
    (h : ∀ w : World, ∃ known', Gains known w (w.withDb (f w.state.db).2) known' ∧
      known ⊆ known' ∧ ∀ a, (f w.state.db).1 = .ok a → Q a known') :
    (sql f).Learns Gains Q known := by
  refine Learns.bind (Q := fun (result : Except SqlError α) known' =>
    ∀ a, result = .ok a → Q a known') (learns_locked h) fun result known' _ hresult => ?_
  cases result with
  | ok a => exact Learns.pure (hresult a rfl)
  | error e => exact Learns.fail _

/-- A section after which the turn knows as much as before. -/
theorem learns_tame {f : State → (α × List Event) × State}
    (h : ∀ w : World, Tame known w ⟨(f w.state).2, (f w.state).1.2 ++ w.trace⟩) :
    (locked f).Learns Gains (fun _ _ => True) known :=
  learns_locked fun w => ⟨known, .learn (h w) fun _ => Or.inl, subset_rfl, trivial⟩

/-- Whoever looks a session up knows its user. -/
theorem learns_getSession (mark : SessionData → List Event) :
    (getSession conn id mark).Learns Gains
      (fun found known' => ∀ session, found = some session → Knows known' id session.userId)
      known := by
  refine Learns.bind (Q := fun hit known' => ∀ session, hit = some session →
    Knows known' id session.userId) (learns_locked fun w => ?_) fun hit known₁ _ hhit => ?_
  · cases hentry : w.state.cache id with
    | none => exact ⟨known, .learn (tame_log []) fun _ => Or.inl, subset_rfl, nofun⟩
    | some session =>
      refine ⟨insert (.acts id session.userId) known, .learn (tame_log (mark session)) ?_,
        Set.subset_insert _ _, ?_⟩
      · rintro f (rfl | hf)
        · exact Or.inr (.entry hentry)
        · exact Or.inl hf
      · rintro _ ⟨⟩
        exact Or.inr (Set.mem_insert _ _)
  · cases hit with
    | some session => exact Learns.pure hhit
    | none =>
      refine Learns.bind (Q := fun row known' => ∀ full, row = some full →
        Knows known' id full.userId) (learns_sql fun w => ?_) fun row known₂ _ hrow => ?_
      · cases hrow : w.row id with
        | none =>
          refine ⟨known₁, .learn (tame_log []) fun _ => Or.inl, subset_rfl, ?_⟩
          rintro _ heq full rfl
          exact absurd (hrow.symm.trans (Except.ok.inj heq)) nofun
        | some full =>
          refine ⟨insert (.acts id full.userId) known₁, .learn (tame_log []) ?_,
            Set.subset_insert _ _, ?_⟩
          · rintro f (rfl | hf)
            · exact Or.inr (.row hrow)
            · exact Or.inl hf
          · rintro _ heq full' rfl
            cases hrow.symm.trans (Except.ok.inj heq)
            exact Or.inr (Set.mem_insert _ _)
      · cases row with
        | none => exact Learns.pure nofun
        | some full =>
          refine Learns.bind (Q := fun session known' => Knows known' id session.userId)
            (learns_locked fun w => ⟨known₂, .learn (tame_load (hrow full rfl) _) fun _ => Or.inl,
              subset_rfl, hrow full rfl⟩) fun session known₃ _ hsession => ?_
          refine Learns.pure ?_
          rintro _ ⟨⟩
          exact hsession

theorem learns_saveSession {row : FullSession} {events : List Event}
    (h : Knows known row.authKeyId row.userId) :
    (saveSession row events).Learns Gains (fun _ _ => True) known :=
  learns_tame fun _ => tame_save h events

theorem learns_updateSession {session : SessionData} {saved cached : List Event}
    (h : Knows known id session.userId) :
    (updateSession conn id session saved cached).Learns Gains (fun _ _ => True) known :=
  Learns.bind (learns_saveSession h) fun _ _ hsub _ =>
    learns_tame fun _ => tame_putEntry (h.mono hsub) _

/-- Whoever acts for a user does so in a session. -/
theorem learns_getUserId : (getUserId session).Learns Gains
    (fun u known' => ∃ id, session = some id ∧ Knows known' id u) known := by
  cases session with
  | none => exact Learns.fail _
  | some id =>
    refine Learns.bind (Q := fun found known' => ∀ session, found = some session →
      Knows known' id session.1) (learns_sql fun w => ?_) fun found known₁ _ hfound => ?_
    · cases hrow : w.row id with
      | none =>
        refine ⟨known, .learn (tame_log []) fun _ => Or.inl, subset_rfl, ?_⟩
        rintro _ heq session rfl
        have hnone := congrArg (Option.map fun row : FullSession => (row.userId, row.serverSalt,
          row.nonce.toList, row.serverNonce.toList, row.newNonce.toList)) hrow
        exact absurd (hnone.symm.trans (Except.ok.inj heq)) nofun
      | some row =>
        refine ⟨insert (.acts id row.userId) known, .learn (tame_log []) ?_,
          Set.subset_insert _ _, ?_⟩
        · rintro f (rfl | hf)
          · exact Or.inr (.row hrow)
          · exact Or.inl hf
        · rintro _ heq session rfl
          have hsome := congrArg (Option.map fun row : FullSession => (row.userId, row.serverSalt,
            row.nonce.toList, row.serverNonce.toList, row.newNonce.toList)) hrow
          cases hsome.symm.trans (Except.ok.inj heq)
          exact Or.inr (Set.mem_insert _ _)
    · cases found with
      | none => exact Learns.fail _
      | some session => exact Learns.pure ⟨id, rfl, hfound session rfl⟩

end Programs

/-! ### Requests that sign up nobody and write nothing in a user's name -/

section Calm

variable {db : Database} {session : Option Int64}

theorem Grows.trans {known : Set Fact} {db' db'' : Database} (h : Grows known db db')
    (h' : Grows known db' db'') : Grows known db db'' where
  users := List.Subset.trans h.users h'.users
  messages m'' hm'' := by
    rcases h'.messages m'' hm'' with ⟨m', hm', hsender, hdialog, htext⟩ | hnew
    · rw [hsender, hdialog, htext]
      exact h.messages m' hm'
    · exact Or.inr hnew
  statuses s'' hs'' := by
    rcases h'.statuses s'' hs'' with hs' | hnew
    · exact h.statuses s'' hs'
    · exact Or.inr hnew

theorem grows_addParticipant (dialogId userId : Int64) (db : Database) :
    Grows ∅ db (Database.addParticipant dialogId userId db).2 := by
  unfold Database.addParticipant
  split
  · exact Grows.refl db
  · split
    · exact grows_users (List.Subset.refl _) rfl rfl
    · exact Grows.refl db

theorem grows_markMessageDelivered (messageId : Int64) (db : Database) :
    Grows ∅ db (Database.markMessageDelivered messageId db).2 where
  users := List.Subset.refl _
  messages m' hm' := by
    obtain ⟨m, hm, rfl⟩ := List.mem_map.mp hm'
    refine Or.inl ⟨m, hm, ?_⟩
    split <;> exact ⟨rfl, rfl, rfl⟩
  statuses _ hs := Or.inl hs

theorem admits_grows : Admits (Grows ∅) where
  refl := Grows.refl
  trans := Grows.trans
  dialog type title db := by
    unfold Database.insertDialog
    split
    · exact grows_users (List.Subset.refl _) rfl rfl
    · exact Grows.refl db
  participant dialogId userId db := by
    rcases insertParticipant_cases dialogId userId db with ⟨e, heq, -⟩ | ⟨heq, -⟩
    · rw [heq]
      exact Grows.refl db
    · rw [heq]
      exact grows_users (List.Subset.refl _) rfl rfl

/-- The tables besides `sessions` after a section that changes none of them in a user's name. -/
abbrev GrowsAlone (p : ServerM α) : Prop := Admits.Tables (Grows ∅) p

theorem growsAlone_of_keeps {p : ServerM α} (h : KeepsTables p) : GrowsAlone p :=
  Always.mono h fun heq => by
    rw [heq]
    exact Grows.refl _

theorem growsAlone_asUser {k : Int64 → ServerM α} (hk : ∀ u, GrowsAlone (k u)) :
    GrowsAlone (getUserId session >>= k) := by
  refine Always.bind ?_ hk
  cases session with
  | none => exact Always.fail _
  | some id =>
    refine (Admits.sql Grows.refl).bind fun found => ?_
    cases found with
    | none => exact Always.fail _
    | some session => exact Always.pure _

theorem growsAlone_replyDialogInfo (dialogId userId : Int64) :
    GrowsAlone (replyDialogInfo dialogId userId) :=
  growsAlone_of_keeps (keeps_replyDialogInfo dialogId userId)

theorem growsAlone_handleGetHistory (req : GetHistory) :
    GrowsAlone (handleGetHistory session req) :=
  growsAlone_asUser fun _ => (Admits.sql Grows.refl).bind fun _ => Always.pure _

theorem growsAlone_handleSendAck (req : SendMessageAck) : GrowsAlone (handleSendAck session req) :=
  growsAlone_asUser fun _ =>
    (Admits.sql (grows_markMessageDelivered _)).bind fun _ => Always.pure _

theorem growsAlone_handleCreatePrivateDialog (req : CreatePrivateDialog) :
    GrowsAlone (handleCreatePrivateDialog session req) :=
  growsAlone_asUser fun _ =>
    (admits_grows.createPrivateDialog _ _).bind fun _ => growsAlone_replyDialogInfo _ _

theorem growsAlone_handleCreateGroup (req : CreateGroup) :
    GrowsAlone (handleCreateGroup session req) :=
  growsAlone_asUser fun _ =>
    (admits_grows.insertMembers 1 _ _).bind fun _ => growsAlone_replyDialogInfo _ _

theorem growsAlone_handleGetDialogs : GrowsAlone (handleGetDialogs session) :=
  growsAlone_asUser fun _ => (Admits.sql Grows.refl).bind fun _ =>
    growsAlone_of_keeps ((keeps_buildDialogInfos _ _).bind fun _ => Always.pure _)

theorem growsAlone_handleAddGroupParticipant (req : AddGroupParticipant) :
    GrowsAlone (handleAddGroupParticipant session req) := by
  refine growsAlone_asUser fun u => (Admits.sql Grows.refl).bind fun users =>
    Always.ite (Always.fail _) ?_
  exact (Admits.sql (grows_addParticipant _ _)).bind fun _ => growsAlone_replyDialogInfo _ _

theorem growsAlone_handleRemoveGroupParticipant (req : RemoveGroupParticipant) :
    GrowsAlone (handleRemoveGroupParticipant session req) := by
  refine growsAlone_asUser fun u => (Admits.sql Grows.refl).bind fun users =>
    Always.ite (Always.fail _) (Always.ite (Always.fail _) ?_)
  refine Always.bind (Admits.sql fun db => ?_) fun _ => growsAlone_replyDialogInfo _ _
  exact grows_users (List.Subset.refl _) rfl rfl

theorem keeps_ofCrypto (x : Except CryptoError α) : KeepsTables (ofCrypto x) := by
  cases x <;> trivial

variable [Platform] (statics : Statics) (draws : Draws)

theorem growsAlone_handleReqPq (req : ReqPq) : GrowsAlone (handleReqPq statics draws req) := by
  refine Always.bind ?_ fun p => Always.bind ?_ fun q => Always.pure _
  · cases generateRandomPrime draws.primes <;> trivial
  · cases generateOtherPrime p.1 p.2 <;> trivial

theorem growsAlone_handleReqDhParams (req : ReqDHParams) :
    GrowsAlone (handleReqDhParams statics draws req) := by
  refine growsAlone_of_keeps ((keeps_ofCrypto _).bind fun decrypted =>
    (keeps_readFrom _ _).bind fun parsed => ?_)
  obtain ⟨obj, rest⟩ := parsed
  dsimp only
  split
  · refine Always.ite (Always.fail _) (Always.bind (keeps_locked fun _ => rfl) fun _ => ?_)
    exact (keeps_ofCrypto _).bind fun _ => Always.pure _
  · exact Always.fail _

end Calm

/-! ### Requests that sign up or write in a user's name -/

section Requests

variable {known : Set Fact} {session : Option Int64} (draws : Draws)

theorem learns_handleSendMessage {req : SendMessage}
    (hasked : ∀ id, session = some id → Fact.asked id (.sendMessage req) ∈ known) :
    (handleSendMessage draws session req).Learns Gains (fun _ _ => True) known := by
  refine learns_getUserId.bind fun u known' hsub hwho => ?_
  obtain ⟨id, rfl, hknows⟩ := hwho
  have hauthor : KnowsAuthor known' u (.sendMessage req) := ⟨id, hknows, hsub (hasked id rfl)⟩
  have hsave (w : World) : Tame known' w (w.withDb (Database.saveMessage req.chatId.val u req.text
      draws.seconds true none none w.state.db).2) := by
    refine tame_of_eq (List.Subset.refl _) ?_ ((keepsSessions_saveMessage ..).sessions _) rfl
    dsimp only [withDb_db]
    unfold Database.saveMessage
    split
    · exact Grows.refl _
    · split
      · refine ⟨List.Subset.refl _, fun m hm => ?_, fun _ => Or.inl⟩
        rcases List.mem_append.mp hm with hold | hnew
        · exact Or.inl ⟨m, hold, rfl, rfl, rfl⟩
        · rw [List.mem_singleton.mp hnew]
          exact Or.inr ⟨req, hauthor, rfl, rfl⟩
      · exact Grows.refl _
  exact (learns_sql (Q := fun _ _ => True) fun w => ⟨known', .learn (hsave w) fun _ => Or.inl,
    subset_rfl, fun _ _ => trivial⟩).bind fun _ _ _ _ => Learns.pure trivial

theorem learns_handleUserStatus {req : UserStatusUpdate}
    (hasked : ∀ id, session = some id → Fact.asked id (.userStatusUpdate req) ∈ known) :
    (handleUserStatus session req).Learns Gains (fun _ _ => True) known := by
  refine learns_getUserId.bind fun u known' hsub hwho => Learns.ite (Learns.fail _) ?_
  obtain ⟨id, rfl, hknows⟩ := hwho
  have hauthor : KnowsAuthor known' u (.userStatusUpdate req) := ⟨id, hknows, hsub (hasked id rfl)⟩
  have hset (w : World) : Tame known' w
      (w.withDb (Database.setUserStatus u (statusCode req.status) w.state.db).2) := by
    refine tame_of_eq (List.Subset.refl _) ?_ ((keepsSessions_setUserStatus _ _).sessions _) rfl
    dsimp only [withDb_db]
    unfold Database.setUserStatus
    split
    · refine ⟨List.Subset.refl _, fun m hm => Or.inl ⟨m, hm, rfl, rfl, rfl⟩, fun s hs => ?_⟩
      rcases List.mem_append.mp hs with hold | hnew
      · exact Or.inl (List.mem_filter.mp hold).1
      · rw [List.mem_singleton.mp hnew]
        exact Or.inr ⟨req, hauthor, rfl⟩
    · exact Grows.refl _
  exact (learns_sql (Q := fun _ _ => True) fun w => ⟨known', .learn (hset w) fun _ => Or.inl,
    subset_rfl, fun _ _ => trivial⟩).bind fun _ _ _ _ => Learns.pure trivial

variable [Platform]

/-- The session that asked becomes the owner of the new user. -/
theorem learns_createUser {req : SignUp}
    (hasked : ∀ id, session = some id → Fact.asked id (.signUp req) ∈ known) :
    (createUser draws req.phone req.password).Learns Gains
      (fun u known' => ∀ id, session = some id → Knows known' id u) known := by
  refine learns_sql fun w => ?_
  rcases insertUser_cases req.phone (bcryptHash draws.salt req.password) w.state.db with
    ⟨e, heq⟩ | ⟨u, hnew, heq⟩
  · rw [heq]
    exact ⟨known, .learn (tame_log []) fun _ => Or.inl, subset_rfl, nofun⟩
  · rw [heq]
    have htame : Tame known w (w.withDb { w.state.db with
        users := w.state.db.users ++ [⟨u, req.phone, bcryptHash draws.salt req.password⟩] }) :=
      tame_of_eq (List.Subset.refl _) (grows_users (List.subset_append_left _ _) rfl rfl) rfl rfl
    cases session with
    | none => exact ⟨known, .learn htame fun _ => Or.inl, subset_rfl, nofun⟩
    | some id =>
      refine ⟨insert (.acts id u) known, .enroll htame (hasked id rfl) hnew
        (List.mem_append_right _ (List.mem_singleton_self _)), Set.subset_insert _ _, ?_⟩
      rintro _ ⟨⟩ _ ⟨⟩
      exact Or.inr (Set.mem_insert _ _)

theorem learns_handleSignUp {req : SignUp}
    (hasked : ∀ id, session = some id → Fact.asked id (.signUp req) ∈ known) :
    (handleSignUp draws conn session req).Learns Gains (fun _ _ => True) known := by
  refine (learns_createUser draws hasked).bind fun u known₁ _ hu => ?_
  cases session with
  | none => exact Learns.pure trivial
  | some id =>
    have hbind : (sql (Database.updateSessionUserId id u)).Learns Gains
        (fun _ _ => True) known₁ := by
      refine learns_sql fun w => ⟨known₁, .learn ?_ fun _ => Or.inl, subset_rfl, fun _ _ => trivial⟩
      exact tame_modifyRow fun _ => Or.inr (hu id rfl)
    refine hbind.bind fun _ known₂ hsub _ => (learns_getSession _).bind
      fun found known₃ hsub' _ => ?_
    cases found with
    | none => exact Learns.pure trivial
    | some session =>
      have hupdate : (updateSession conn id { session with userId := u } [] []).Learns Gains
          (fun _ _ => True) known₃ := learns_updateSession ((hu id rfl).mono (hsub.trans hsub'))
      exact hupdate.bind fun _ _ _ _ => Learns.pure trivial

/-- A new session acts for nobody. -/
theorem learns_handleSetClientDhParams (statics : Statics) (req : SetClientDHParams) :
    (handleSetClientDhParams statics draws conn req).Learns Gains (fun _ _ => True) known := by
  have hzero (known' : Set Fact) (id : Int64) : Knows known' id 0 := Or.inl rfl
  refine Learns.bind (learns_calm (calm_locked fun _ => ⟨rfl, rfl⟩)) fun _ _ _ _ => ?_
  refine Learns.bind (learns_calm (calm_locked fun _ => ⟨rfl, rfl⟩)) fun found _ _ _ => ?_
  cases found with
  | none => exact Learns.fail _
  | some entry =>
    refine Learns.bind (learns_calm (calm_ofCrypto _)) fun decrypted _ _ _ => ?_
    refine Learns.bind (learns_calm (calm_readFrom _ _)) fun parsed _ _ _ => ?_
    obtain ⟨obj, rest⟩ := parsed
    dsimp only
    split
    · refine Learns.ite (Learns.fail _) ?_
      split
      · exact Learns.fail _
      · refine Learns.bind (learns_saveSession (hzero _ _)) fun _ _ _ _ => ?_
        refine Learns.bind (learns_calm (calm_locked fun _ => ⟨rfl, rfl⟩)) fun recent _ _ _ => ?_
        refine Learns.bind (learns_updateSession (hzero _ _)) fun _ _ _ _ => ?_
        refine Learns.bind (learns_calm (calm_locked fun _ => ⟨rfl, rfl⟩)) fun _ _ _ _ => ?_
        exact Learns.pure trivial
    · exact Learns.fail _

theorem learns_handleRequest (statics : Statics) {obj : TlObject}
    (hasked : ∀ id, session = some id → Fact.asked id obj ∈ known) :
    (handleRequest statics draws conn obj session).Learns Gains (fun _ _ => True) known := by
  cases obj with
  | signUp req => exact learns_handleSignUp draws hasked
  | setClientDHParams req => exact learns_handleSetClientDhParams draws statics req
  | sendMessage req => exact learns_handleSendMessage draws hasked
  | userStatusUpdate req => exact learns_handleUserStatus hasked
  | reqPq req =>
    exact learns_calm (calm_quiet (quiet_handleReqPq statics draws req)
      (growsAlone_handleReqPq statics draws req))
  | reqDHParams req =>
    exact learns_calm (calm_quiet (quiet_handleReqDhParams statics draws req)
      (growsAlone_handleReqDhParams statics draws req))
  | getHistory req =>
    exact learns_calm (calm_quiet (quiet_handleGetHistory session req)
      (growsAlone_handleGetHistory req))
  | sendMessageAck req =>
    exact learns_calm (calm_quiet (quiet_handleSendAck session req) (growsAlone_handleSendAck req))
  | createPrivateDialog req =>
    exact learns_calm (calm_quiet (quiet_handleCreatePrivateDialog session req)
      (growsAlone_handleCreatePrivateDialog req))
  | createGroup req =>
    exact learns_calm (calm_quiet (quiet_handleCreateGroup session req)
      (growsAlone_handleCreateGroup req))
  | addGroupParticipant req =>
    exact learns_calm (calm_quiet (quiet_handleAddGroupParticipant session req)
      (growsAlone_handleAddGroupParticipant req))
  | removeGroupParticipant req =>
    exact learns_calm (calm_quiet (quiet_handleRemoveGroupParticipant session req)
      (growsAlone_handleRemoveGroupParticipant req))
  | getDialogs req =>
    exact learns_calm (calm_quiet (quiet_handleGetDialogs session) growsAlone_handleGetDialogs)
  | resPQ | pqInnerData | serverDHParamsOk | serverDHInnerData | clientDHInnerData | dhGenOk
  | message | chat | historyResult | dialogInfo | dialogList => exact Learns.fail _

end Requests

/-! ### Whole turns -/

section Turns

variable {known : Set Fact}

theorem learns_addressedSession (raw : Bytes) :
    (addressedSession conn raw).Learns Gains (fun _ _ => True) known := by
  unfold addressedSession
  refine Learns.ite (Learns.ite (Learns.pure trivial) ?_) (Learns.pure trivial)
  refine (learns_getSession _).bind fun found _ _ _ => ?_
  cases found <;> exact Learns.pure trivial

theorem learns_commitFrame {session : SessionData} {crypto : SessionCrypto} {msgId : Int64}
    {seqNo : Int32} (h : Knows known id session.userId) :
    (commitFrame conn id session crypto msgId seqNo).Learns Gains (fun _ _ => True) known := by
  refine Learns.bind (learns_calm (calm_modifyRow id fun _ => rfl)) fun _ _ hsub _ => ?_
  refine Learns.bind (learns_calm (calm_modifyRow id fun _ => rfl)) fun _ _ hsub' _ => ?_
  exact learns_updateSession (h.mono (hsub.trans hsub'))

theorem learns_storeCounters (crypto : SessionCrypto) :
    (storeCounters conn id crypto).Learns Gains (fun _ _ => True) known := by
  refine (learns_getSession _).bind fun found known₁ _ hfound => ?_
  cases found with
  | none => exact Learns.pure trivial
  | some session =>
    refine Learns.bind (learns_calm (calm_modifyRow id fun _ => rfl)) fun _ _ hsub _ => ?_
    exact learns_updateSession ((hfound session rfl).mono hsub)

variable [Platform]

theorem learns_acceptMessage {session : SessionData} {crypto : SessionCrypto} (now : Nat)
    (plaintext : Bytes) (h : Knows known id session.userId) :
    (acceptMessage now conn id session crypto plaintext).Learns Gains
      (fun _ _ => True) known := by
  refine Learns.bind (learns_calm (calm_readFrom _ _)) fun header _ hsub _ => ?_
  obtain ⟨⟨msgId, seqNo⟩, tlData⟩ := header
  refine Learns.ite (Learns.pure trivial) ?_
  refine Learns.bind (learns_calm (calm_recordMsgId _ _ _ _)) fun _ _ hsub₁ _ => ?_
  refine Learns.ite (Learns.pure trivial) ?_
  refine Learns.bind (learns_calm (calm_orPanic _)) fun _ _ hsub₂ _ => ?_
  refine Learns.ite (Learns.pure trivial) ?_
  refine Learns.bind (learns_calm (calm_orPanic _)) fun _ _ hsub₃ _ => ?_
  refine Learns.ite (Learns.pure trivial) ?_
  refine Learns.bind (learns_commitFrame ?_) fun _ _ _ _ => Learns.pure trivial
  exact h.mono (((hsub.trans hsub₁).trans hsub₂).trans hsub₃)

theorem learns_receiveEncrypted (now : Nat) (raw : Bytes) :
    (receiveEncrypted now conn id raw).Learns Gains (fun _ _ => True) known := by
  refine (learns_getSession _).bind fun found known' _ hfound => ?_
  cases found with
  | none => exact Learns.fail _
  | some session =>
    refine Learns.ite (Learns.pure trivial) ?_
    split
    · exact Learns.fail _
    · exact Learns.pure trivial
    · exact learns_acceptMessage now _ (hfound session rfl)

theorem learns_reserveResponse :
    (reserveResponse conn id).Learns Gains (fun _ _ => True) known := by
  refine (learns_getSession _).bind fun found known₁ _ hfound => ?_
  cases found with
  | none => exact Learns.pure trivial
  | some session =>
    refine Learns.bind (learns_calm (calm_orPanic _)) fun seq known₂ hsub _ => ?_
    refine Learns.bind (learns_updateSession ((hfound session rfl).mono hsub)) fun _ _ _ _ => ?_
    exact Learns.bind (learns_calm (calm_modifyRow id fun _ => rfl)) fun _ _ _ _ =>
      Learns.pure trivial

theorem learns_respond (draws : FrameDraws) (session : Option FrameSession) (data : Bytes) :
    (respond draws conn session data).Learns Gains (fun _ _ => True) known := by
  cases session with
  | none => exact learns_calm (calm_transportSend _ _ _)
  | some session =>
    refine learns_reserveResponse.bind fun reserved _ _ _ => ?_
    refine Learns.bind (learns_calm (calm_orPanic _)) fun sealed _ _ _ => ?_
    refine (learns_storeCounters _).bind fun _ _ _ _ => ?_
    exact learns_calm (calm_transportSend _ _ _)

/-- The turn knows what it hands to the handlers. -/
theorem learns_dispatch (statics : Statics) (draws : FrameDraws) (session : Option FrameSession)
    (tlData : Bytes) :
    (dispatch statics draws conn session tlData).Learns Gains (fun _ _ => True) known := by
  unfold dispatch
  split
  · exact Learns.pure trivial
  · exact Learns.fail _
  · rename_i obj rest _
    refine Learns.bind (Q := fun _ known' => ∀ id, session.map FrameSession.id = some id →
      Fact.asked id obj ∈ known') (learns_locked fun w => ?_) fun _ known₁ _ hasked => ?_
    · cases session with
      | none => exact ⟨known, .learn (tame_log [_]) fun _ => Or.inl, subset_rfl, nofun⟩
      | some session =>
        refine ⟨insert (.asked session.id obj) known, .learn (tame_log [_]) ?_,
          Set.subset_insert _ _, ?_⟩
        · rintro f (rfl | hf)
          · exact Or.inr (.request List.mem_cons_self)
          · exact Or.inl hf
        · rintro _ ⟨⟩
          exact Set.mem_insert _ _
    · refine (learns_handleRequest draws.handler statics hasked).bind fun reply _ _ _ => ?_
      cases reply with
      | none => exact Learns.pure trivial
      | some data =>
        exact (learns_respond draws session data).bind fun _ _ _ _ => Learns.pure trivial

theorem learns_handleFrame (statics : Statics) (draws : FrameDraws) (raw : Bytes) :
    (handleFrame statics draws conn raw).Learns Gains (fun _ _ => True) known := by
  refine (learns_addressedSession raw).bind fun found _ _ _ => ?_
  cases found with
  | none => exact learns_dispatch statics draws none raw
  | some id =>
    refine (learns_receiveEncrypted draws.now raw).bind fun received _ _ _ => ?_
    cases received with
    | error reason => exact Learns.pure trivial
    | ok accepted => exact learns_dispatch statics draws (some accepted.2) accepted.1

/-- What a turn knows at its end is forgotten. -/
theorem obeys_gains (statics : Statics) (draws : FrameDraws) (raw : Bytes) :
    (serve statics draws conn raw).Obeys Gains (fun _ known => known = ∅) ∅ := by
  refine Obeys.bind (Obeys.attempt (Obeys.mono (learns_handleFrame statics draws raw) ?_))
  rintro result known -
  exact fun w => ⟨∅, .learn (tame_log [_]) nofun, rfl⟩

end Turns

/-! ### Runs -/

theorem tame_evict (id : Int64) (w : World) : Tame ∅ w (evict id w) where
  trace := List.Subset.refl _
  tables := Grows.refl _
  rows _ row' hrow' := Or.inl ⟨row', hrow', rfl⟩
  entries i session' hentry' := by
    change update w.state.cache id none i = some session' at hentry'
    by_cases hi : i = id
    · subst hi
      rw [update_self] at hentry'
      cases hentry'
    · rw [update_of_ne hi] at hentry'
      exact Or.inl ⟨session', hentry', rfl⟩

theorem tame_restart (w : World) : Tame ∅ w (restart w) where
  trace := List.subset_cons_self _ _
  tables := Grows.refl _
  rows _ row' hrow' := Or.inl ⟨row', hrow', rfl⟩
  entries _ _ := nofun

section Runs

variable [Platform] {statics : Statics}

theorem enduring_authentic : Enduring (concurrentRules statics fun _ _ => True) Gains Authentic
    Fact.Holds where
  starts := by
    rintro conn p ⟨draws, raw, rfl⟩
    exact obeys_gains statics draws raw
  move := authentic_turn
  env := by
    rintro owner w _ h ⟨id, rfl⟩
    exact ⟨h.calm (tame_evict id w), fun _ => (tame_evict id w).holds⟩
  crash := by
    rintro owner w _ h rfl
    exact h.calm (tame_restart w)

/-- In any interleaving, a session acts only for users that it has signed up and that no other
session acts for, and every message and status in a user's name is one that such a session has
asked for. -/
theorem reachable_authentic {x : Pool World Stop Unit ConnId}
    (h : Pool.Reachable (concurrentRules statics fun _ _ => True) World.init x) :
    ∃ owner, Authentic owner x.state := by
  have hinit : Authentic (fun _ => 0) World.init := ⟨nofun, nofun, nofun, nofun⟩
  exact enduring_authentic.reachable hinit h

end Runs

/-- A user who has signed up and writes to a group of one. -/
def Sample.chat : List Frame :=
  [frame 0 1 0 0 (.signUp ⟨"1", ""⟩), frame 0 2 1 1 (.createGroup ⟨"", []⟩),
    frame 1 3 2 2 (.sendMessage ⟨⟨1⟩, "hi", 0⟩)]

theorem reachable_authentic_chat : letI := Sample.platform
    (Sample.run Sample.chat).state.db.messages.map MessageRow.senderId = [1] ∧
      ∃ owner, Authentic owner (Sample.run Sample.chat) := by
  let _ := Sample.platform
  have hreachable : Pool.Reachable (concurrentRules Sample.statics fun _ _ => True) World.init
      (Pool.init (Sample.run Sample.chat)) := reachable_frames .init _
  have hauthentic := reachable_authentic hreachable
  rw [Pool.state_init] at hauthentic
  exact ⟨by decide +kernel, hauthentic⟩

end KoSta.Server
