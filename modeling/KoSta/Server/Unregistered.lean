import KoSta.Server.Exchanges
import KoSta.Server.Outsiders

/-! Sessions on which nobody has signed up, and what their requests change. -/
namespace KoSta.Server
open Lib Lib.Prog Tl Crypto Function

variable {α β : Type} {w w' : World} {db db' : Database} {id : Int64}

/-- The tables that the requests of registered users are about. -/
structure SameContent (db db' : Database) : Prop where
  messages : db'.messages = db.messages
  dialogs : db'.dialogs = db.dialogs
  participants : db'.participants = db.participants
  statuses : db'.statuses = db.statuses

theorem SameContent.refl (db : Database) : SameContent db db := ⟨rfl, rfl, rfl, rfl⟩

theorem SameContent.trans {db'' : Database} (h : SameContent db db')
    (h' : SameContent db' db'') : SameContent db db'' :=
  ⟨h'.messages.trans h.messages, h'.dialogs.trans h.dialogs,
    h'.participants.trans h.participants, h'.statuses.trans h.statuses⟩

/-! ### The user of one session -/

/-- The session's row and its cache entry, where there are any, have a user of this kind, and the
content of the tables is that of `before`, where that is given. -/
structure Kept (users : Int64 → Prop) (before : Option Database) (id : Int64) (w : World) :
    Prop where
  row : ∀ row, w.row id = some row → users row.userId
  entry : ∀ session, w.state.cache id = some session → users session.userId
  content : ∀ db, before = some db → SameContent db w.state.db

/-- What a clone of session `i` has to be when it is about to be written. -/
def Fits (users : Int64 → Prop) (id i : Int64) (session : SessionData) : Prop :=
  i = id → users session.userId

variable {users : Int64 → Prop} {before : Option Database}

abbrev Keeping (users : Int64 → Prop) (before : Option Database) (id : Int64) (post : α → Prop)
    (p : ServerM α) : Prop :=
  p.Maintains (Kept users before id) post

theorem Kept.of_eq (h : Kept users before id w) (hdb : w'.state.db = w.state.db)
    (hcache : w'.state.cache = w.state.cache) : Kept users before id w' := by
  constructor
  · rw [World.row, hdb]
    exact h.row
  · rw [hcache]
    exact h.entry
  · rw [hdb]
    exact h.content

theorem Kept.putEntry {i : Int64} {session : SessionData} (h : Kept users before id w)
    (hfits : Fits users id i session) {w' : World} (hdb : w'.state.db = w.state.db)
    (hcache : w'.state.cache = update w.state.cache i (some session)) :
    Kept users before id w' := by
  refine ⟨?_, ?_, ?_⟩
  · rw [World.row, hdb]
    exact h.row
  · intro found hfound
    rw [hcache] at hfound
    by_cases hi : id = i
    · rw [hi, update_self] at hfound
      cases hfound
      exact hfits hi.symm
    · rw [update_of_ne hi] at hfound
      exact h.entry found hfound
  · rw [hdb]
    exact h.content

theorem Kept.evict (h : Kept users none id w) (i : Int64) : Kept users none id (evict i w) := by
  refine ⟨h.row, fun session hs => ?_, nofun⟩
  by_cases hi : id = i
  · rw [hi] at hs
    cases (evict_cache_self i w).symm.trans hs
  · exact h.entry session ((update_of_ne hi _ _ : _ = w.state.cache id).symm.trans hs)

theorem keeping_still {f : State → (α × List Event) × State} (hdb : ∀ s, (f s).2.db = s.db)
    (hcache : ∀ s, (f s).2.cache = s.cache) :
    Keeping users before id (fun _ => True) (locked f) :=
  Maintains.atomically fun w hw => ⟨hw.of_eq (hdb w.state) (hcache w.state), trivial⟩

/-- The statements that change some columns of a session, but not its user. -/
theorem keeping_modify (i : Int64) {f : FullSession → FullSession}
    (hf : ∀ row, (f row).userId = row.userId) :
    Keeping users before id (fun _ => True) (sql fun db => (.ok (), db.modifySession i f)) := by
  refine Maintains.bind (Q := fun _ => True) (Maintains.atomically fun w hw => ⟨?_, trivial⟩) ?_
  · refine ⟨fun row hrow => ?_, hw.entry, fun db hdb => (hw.content db hdb).trans
      ⟨rfl, rfl, rfl, rfl⟩⟩
    change (if id = i then (w.row id).map f else w.row id) = some row at hrow
    by_cases hi : id = i
    · rw [if_pos hi] at hrow
      obtain ⟨old, hold, rfl⟩ := Option.map_eq_some_iff.mp hrow
      rw [hf]
      exact hw.row old hold
    · rw [if_neg hi] at hrow
      exact hw.row row hrow
  · intro result _
    cases result <;> trivial

theorem keeping_counters (i : Int64) (sendCounter recvCounter : UInt32) :
    Keeping users before id (fun _ => True)
      (sql (Database.updateSessionCounters i sendCounter recvCounter)) := by
  apply keeping_modify
  intro row
  rfl

theorem keeping_recvSeq (i : Int64) (recvSeqNo : Int32) (lastMsgId : Int64) :
    Keeping users before id (fun _ => True)
      (sql (Database.updateSessionRecvSeqAndLastMsg i recvSeqNo lastMsgId)) := by
  apply keeping_modify
  intro row
  rfl

theorem keeping_sendState (i : Int64) (sendSeqNo : Int32) (msgIdCounter : UInt32) :
    Keeping users before id (fun _ => True)
      (sql (Database.updateSessionSendState i sendSeqNo msgIdCounter)) := by
  apply keeping_modify
  intro row
  rfl

theorem keeping_saveSession {row : FullSession} (hrow : row.authKeyId = id → users row.userId)
    (events : List Event) : Keeping users before id (fun _ => True) (saveSession row events) := by
  refine Maintains.atomically fun w hw => ⟨⟨fun found hfound => ?_, hw.entry, fun db hdb =>
    (hw.content db hdb).trans ⟨rfl, rfl, rfl, rfl⟩⟩, trivial⟩
  change (if id = row.authKeyId then some row else w.row id) = some found at hfound
  by_cases hi : id = row.authKeyId
  · rw [if_pos hi] at hfound
    cases hfound
    exact hrow hi.symm
  · rw [if_neg hi] at hfound
    exact hw.row found hfound

theorem keeping_updateSession {i : Int64} {session : SessionData} (h : Fits users id i session)
    (conn : ConnId) (saved cached : List Event) :
    Keeping users before id (fun _ => True) (updateSession conn i session saved cached) := by
  refine Maintains.bind (keeping_saveSession ?_ saved) fun _ _ => ?_
  · exact h
  exact Maintains.atomically fun w hw => ⟨hw.putEntry h rfl rfl, trivial⟩

theorem keeping_getSession (conn : ConnId) (i : Int64) (mark : SessionData → List Event) :
    Keeping users before id (fun found => ∀ session ∈ found, Fits users id i session)
      (getSession conn i mark) := by
  have hlookup : Keeping users before id (fun found => ∀ session ∈ found, Fits users id i session)
      (cacheLookup i mark) := by
    apply Maintains.atomically
    intro w hw
    dsimp only
    cases hentry : w.state.cache i with
    | none => exact ⟨hw.of_eq rfl rfl, nofun⟩
    | some session =>
      refine ⟨hw.of_eq rfl rfl, fun found hfound hi => ?_⟩
      cases hfound
      exact hw.entry session (hi ▸ hentry)
  have hread : Keeping users before id (fun found => ∀ row ∈ found, i = id → users row.userId)
      (sql (Database.getFullSession i)) := by
    intro w hw
    refine ⟨Kept.of_eq hw rfl rfl, fun row hrow hi => ?_⟩
    exact hw.row row (hi ▸ hrow)
  apply hlookup.bind
  intro hit hhit
  cases hit with
  | some session => exact hhit
  | none =>
    apply hread.bind
    intro found hfound
    cases found with
    | none => exact nofun
    | some full =>
      have hfits (recent : RecentMsgIds) : Fits users id i (sessionOfRow i full recent) :=
        hfound full rfl
      apply Maintains.bind (Q := Fits users id i)
      · exact Maintains.atomically fun w hw => ⟨hw.putEntry (hfits _) rfl rfl, hfits _⟩
      · intro session hsession found hf
        cases hf
        exact hsession

/-! ### What a turn does to a session, its request apart -/

theorem keeping_readFrom (r : Reader Tl.Error α) (bytes : Bytes) :
    Keeping users before id (fun _ => True) (readFrom r bytes) := by
  unfold readFrom
  cases r.run bytes <;> trivial

theorem keeping_orPanic (x : Option α) : Keeping users before id (fun _ => True) (orPanic x) := by
  cases x <;> trivial

theorem keeping_transportSend (conn : ConnId) (data : Bytes) (events : List Event) :
    Keeping users before id (fun _ => True) (transportSend conn data events) := by
  unfold transportSend
  split
  · exact keeping_still (fun _ => rfl) fun _ => rfl
  · trivial

theorem keeping_addressedSession (conn : ConnId) (raw : Bytes) :
    Keeping users before id (fun _ => True) (addressedSession conn raw) := by
  unfold addressedSession
  refine Maintains.ite (Maintains.ite (Maintains.pure trivial) ?_) (Maintains.pure trivial)
  refine (keeping_getSession conn _ _).bind fun found _ => ?_
  cases found <;> trivial

theorem keeping_commitFrame {i : Int64} {session : SessionData} (h : Fits users id i session)
    (conn : ConnId) (crypto : SessionCrypto) (msgId : Int64) (seqNo : Int32) :
    Keeping users before id (fun _ => True) (commitFrame conn i session crypto msgId seqNo) := by
  refine (keeping_recvSeq i _ _).bind fun _ _ => (keeping_counters i _ _).bind fun _ _ => ?_
  refine keeping_updateSession ?_ conn _ _
  exact h

theorem keeping_storeCounters (conn : ConnId) (i : Int64) (crypto : SessionCrypto) :
    Keeping users before id (fun _ => True) (storeCounters conn i crypto) := by
  apply (keeping_getSession conn i _).bind
  intro found hfound
  cases found with
  | none => trivial
  | some session =>
    refine (keeping_counters i _ _).bind fun _ _ => ?_
    refine keeping_updateSession ?_ conn _ _
    exact hfound session rfl

section Turns

variable [Platform] (statics : Statics)

theorem keeping_acceptMessage {i : Int64} {session : SessionData} (h : Fits users id i session)
    (now : Nat) (conn : ConnId) (crypto : SessionCrypto) (plaintext : Bytes) :
    Keeping users before id (fun _ => True)
      (acceptMessage now conn i session crypto plaintext) := by
  apply (keeping_readFrom _ _).bind
  rintro ⟨⟨msgId, seqNo⟩, tlData⟩ _
  refine Maintains.ite (Maintains.pure trivial) ?_
  refine Maintains.bind (Q := fun _ => True) ?_ fun fresh _ => ?_
  · apply keeping_still <;> intro s <;> dsimp only <;> split <;> rfl
  refine Maintains.ite (Maintains.pure trivial) ?_
  refine (keeping_orPanic _).bind fun expected _ => ?_
  refine Maintains.ite (Maintains.pure trivial) ?_
  refine (keeping_orPanic _).bind fun diff _ => ?_
  refine Maintains.ite (Maintains.pure trivial) ?_
  exact (keeping_commitFrame h conn _ _ _).bind fun _ _ => Maintains.pure trivial

theorem keeping_receiveEncrypted (now : Nat) (conn : ConnId) (i : Int64) (raw : Bytes) :
    Keeping users before id (fun _ => True) (receiveEncrypted now conn i raw) := by
  apply (keeping_getSession conn i _).bind
  intro found hfound
  cases found with
  | none => trivial
  | some session =>
    refine Maintains.ite (Maintains.pure trivial) ?_
    split
    · trivial
    · trivial
    · exact keeping_acceptMessage (hfound session rfl) now conn _ _

theorem keeping_reserveResponse (conn : ConnId) (i : Int64) :
    Keeping users before id (fun _ => True) (reserveResponse conn i) := by
  apply (keeping_getSession conn i _).bind
  intro found hfound
  cases found with
  | none => trivial
  | some session =>
    refine (keeping_orPanic _).bind fun seq _ => ?_
    refine Maintains.bind (keeping_updateSession ?_ conn _ _) fun _ _ => ?_
    · exact hfound session rfl
    · exact (keeping_sendState i _ _).bind fun _ _ => trivial

theorem keeping_respond (draws : FrameDraws) (conn : ConnId) (session : Option FrameSession)
    (data : Bytes) : Keeping users before id (fun _ => True) (respond draws conn session data) := by
  cases session with
  | none => exact keeping_transportSend conn data _
  | some session =>
    refine (keeping_reserveResponse conn session.id).bind fun reserved _ => ?_
    refine (keeping_orPanic _).bind fun sealed _ => ?_
    exact (keeping_storeCounters conn session.id _).bind fun _ _ => keeping_transportSend conn _ _

/-! ### Requests -/

omit [Platform] in
theorem keeping_quietly {p : ServerM α} (h : Quietly p) :
    Keeping users none id (fun _ => True) p := by
  apply Maintains.of_always h.always
  intro w w' hquiet hw
  refine ⟨?_, ?_, nofun⟩
  · rw [World.row, hquiet.sessions]
    exact hw.row
  · rw [hquiet.cache]
    exact hw.entry

theorem keeping_handleSetClientDhParams (hzero : users 0) (draws : Draws) (conn : ConnId)
    (req : SetClientDHParams) : Keeping users before id (fun _ => True)
      (handleSetClientDhParams statics draws conn req) := by
  rw [handleSetClientDhParams_eq]
  refine Maintains.bind (keeping_still (fun _ => rfl) fun _ => rfl) fun _ _ => ?_
  refine Maintains.bind (keeping_still (fun _ => rfl) fun _ => rfl) fun found _ => ?_
  cases found with
  | none => trivial
  | some entry =>
    rcases finishWith_cases statics conn req entry with ⟨e, heq, -⟩ | ⟨inner, -, heq⟩
    · rw [heq]
      trivial
    · rw [heq]
      refine Maintains.bind (keeping_saveSession ?_ _) fun _ _ => ?_
      · exact fun _ => hzero
      refine Maintains.bind (keeping_still (fun _ => rfl) fun _ => rfl) fun recent _ => ?_
      refine Maintains.bind (keeping_updateSession ?_ conn _ _) fun _ _ => ?_
      · exact fun _ => hzero
      exact Maintains.bind (keeping_still (fun _ => rfl) fun _ => rfl) fun _ _ => trivial

theorem keeping_createUser (draws : Draws) (phone password : String) :
    Keeping users before id (fun _ => True) (createUser draws phone password) := by
  refine Maintains.bind (Q := fun _ => True) (Maintains.atomically fun w hw => ⟨?_, trivial⟩)
    fun result _ => ?_
  · have hinsert :
      (Database.insertUser phone (bcryptHash draws.salt password) w.state.db).2.sessions =
          w.state.db.sessions ∧ SameContent w.state.db
        (Database.insertUser phone (bcryptHash draws.salt password) w.state.db).2 := by
      unfold Database.insertUser
      split
      · exact ⟨rfl, SameContent.refl _⟩
      · split <;> exact ⟨rfl, rfl, rfl, rfl, rfl⟩
    refine ⟨fun row hrow => hw.row row ?_, hw.entry, fun db hdb => ?_⟩
    · exact (congrFun hinsert.1 id).symm.trans hrow
    · exact (hw.content db hdb).trans hinsert.2
  · cases result <;> trivial

theorem keeping_handleSignUp {session : Option Int64} (h : session = some id → ∀ u, users u)
    (draws : Draws) (conn : ConnId) (req : SignUp) : Keeping users before id (fun _ => True)
      (handleSignUp draws conn session req) := by
  refine (keeping_createUser draws _ _).bind fun userId _ => ?_
  cases session with
  | none => trivial
  | some i =>
    have hbound : Keeping users before id (fun _ => True)
        (sql (Database.updateSessionUserId i userId)) := by
      intro w hw
      refine ⟨⟨fun row hrow => ?_, hw.entry, fun db hdb => (hw.content db hdb).trans
        ⟨rfl, rfl, rfl, rfl⟩⟩, trivial⟩
      by_cases hi : id = i
      · exact h (congrArg some hi.symm) row.userId
      · exact hw.row row ((if_neg hi : _ = w.row id).symm.trans hrow)
    refine hbound.bind fun _ _ => (keeping_getSession conn i _).bind fun found _ => ?_
    cases found with
    | none => trivial
    | some session =>
      refine Maintains.bind (keeping_updateSession ?_ conn _ _) fun _ _ => trivial
      exact fun hi => h (congrArg some hi) userId

omit [Platform] in
/-- Before a world is changed there is nothing to ask of its sessions. -/
theorem kept_self (id : Int64) (w : World) : Kept (fun _ => True) (some w.state.db) id w :=
  ⟨fun _ _ => trivial, fun _ _ => trivial, fun _ hdb => Option.some.inj hdb ▸ SameContent.refl _⟩

theorem sameContent_handleSignUp (draws : Draws) (conn : ConnId) (session : Option Int64)
    (req : SignUp) (w : World) :
    SameContent w.state.db ((handleSignUp draws conn session req).exec w).2.state.db := by
  have hkeeping : Keeping (fun _ => True) (some w.state.db) 0 (fun _ => True)
      (handleSignUp draws conn session req) :=
    keeping_handleSignUp (fun _ _ => trivial) draws conn req
  exact (hkeeping.exec (kept_self 0 w)).1.content _ rfl

theorem sameContent_handleSetClientDhParams (draws : Draws) (conn : ConnId)
    (req : SetClientDHParams) (w : World) :
    SameContent w.state.db
      ((handleSetClientDhParams statics draws conn req).exec w).2.state.db := by
  have hkeeping : Keeping (fun _ => True) (some w.state.db) 0 (fun _ => True)
      (handleSetClientDhParams statics draws conn req) :=
    keeping_handleSetClientDhParams statics trivial draws conn req
  exact (hkeeping.exec (kept_self 0 w)).1.content _ rfl

/-- Only a `SignUp` under the session itself can give it a user. -/
theorem keeping_handleRequest (hzero : users 0) {session : Option Int64} {obj : TlObject}
    (h : session = some id → ∀ req, obj ≠ .signUp req) (draws : Draws) (conn : ConnId) :
    Keeping users none id (fun _ => True) (handleRequest statics draws conn obj session) := by
  rcases handleRequest_cases session statics draws conn obj with ⟨req, rfl⟩ | ⟨req, rfl⟩ | hquiet
  · exact keeping_handleSignUp (fun hs => absurd rfl (h hs req)) draws conn req
  · exact keeping_handleSetClientDhParams statics hzero draws conn req
  · exact keeping_quietly hquiet

/-! ### Frames -/

/-- The frame is accepted under this session, with this object; `w'` is the state in which its
request is handled. -/
def Frame.Carries (f : Frame) (id : Int64) (obj : TlObject) (w w' : World) : Prop :=
  ∃ w₁ tlData session rest, (addressedSession f.conn f.raw).exec w = (.ok (some id), w₁) ∧
    (receiveEncrypted f.draws.now f.conn id f.raw).exec w₁ = (.ok (.ok (tlData, session)), w') ∧
    TlObject.readBoxed.run tlData = .ok obj rest

/-- What the frame carries under this session, with the state in which its request is handled. -/
def Frame.carried (f : Frame) (id : Int64) (w : World) : Option (TlObject × World) :=
  match (addressedSession f.conn f.raw).exec w with
  | (.ok (some i), w₁) =>
    match (receiveEncrypted f.draws.now f.conn i f.raw).exec w₁ with
    | (.ok (.ok (tlData, _)), w') =>
      match TlObject.readBoxed.run tlData with
      | .ok obj _ => if i = id then some (obj, w') else none
      | _ => none
    | _ => none
  | _ => none

theorem carries_of_carried {f : Frame} {obj : TlObject} (h : f.carried id w = some (obj, w')) :
    f.Carries id obj w w' := by
  unfold Frame.carried at h
  split at h
  · rename_i i w₁ haddress
    split at h
    · rename_i tlData session w₂ hreceive
      split at h
      · rename_i obj' rest hread
        split at h
        · rename_i hid
          cases hid
          cases h
          exact ⟨w₁, tlData, session, rest, haddress, hreceive, hread⟩
        · cases h
      · cases h
    · cases h
  · cases h

/-- It carries a `SignUp` that is handled without an error. -/
def Frame.SignsUp (f : Frame) (id : Int64) (w : World) : Prop :=
  ∃ req w', f.Carries id (.signUp req) w w' ∧
    ((handleFrame statics f.draws f.conn f.raw).exec w).1 = .ok .silent

theorem receiveEncrypted_id {now : Nat} {conn : ConnId} {i : Int64} {raw tlData : Bytes}
    {session : FrameSession}
    (h : (receiveEncrypted now conn i raw).exec w = (.ok (.ok (tlData, session)), w')) :
    session.id = i := by
  have hall : (receiveEncrypted now conn i raw).Maintains (fun _ => True)
      fun result => ∀ tlData session, result = .ok (tlData, session) → session.id = i := by
    have hany {γ : Type} (p : ServerM γ) : p.Maintains (fun _ => True) fun _ => True :=
      Maintains.of_always (Always.of_forall (R := fun _ _ => True) (fun _ _ => trivial) p)
        fun _ h => h
    refine (hany _).bind fun found _ => ?_
    cases found with
    | none => trivial
    | some session =>
      refine Maintains.ite (Maintains.pure nofun) ?_
      split
      · trivial
      · exact Maintains.pure nofun
      · refine (hany _).bind fun header _ => Maintains.ite (Maintains.pure nofun) ?_
        refine (hany _).bind fun fresh _ => Maintains.ite (Maintains.pure nofun) ?_
        refine (hany _).bind fun expected _ => Maintains.ite (Maintains.pure nofun) ?_
        refine (hany _).bind fun diff _ => Maintains.ite (Maintains.pure nofun) ?_
        refine (hany _).bind fun _ _ => Maintains.pure fun tlData session hok => ?_
        cases hok
        rfl
  have hpost := (hall.exec (s := w) trivial).2
  rw [h] at hpost
  exact hpost _ rfl tlData session rfl

/-- A `SignUp` that fails has changed nothing. -/
theorem handleSignUp_cases (draws : Draws) (conn : ConnId) (session : Option Int64) (req : SignUp)
    (w : World) : (∃ e, (handleSignUp draws conn session req).exec w = (.error e, w)) ∨
    ∃ w', (handleSignUp draws conn session req).exec w = (.ok none, w') := by
  unfold handleSignUp createUser
  rw [exec_sql_bind]
  have hinsert : (∃ e, Database.insertUser req.phone (bcryptHash draws.salt req.password)
      w.state.db = (.error e, w.state.db)) ∨ ∃ userId db,
      Database.insertUser req.phone (bcryptHash draws.salt req.password) w.state.db =
        (.ok userId, db) := by
    unfold Database.insertUser
    split
    · exact Or.inl ⟨_, rfl⟩
    · split
      · exact Or.inr ⟨_, _, rfl⟩
      · exact Or.inl ⟨_, rfl⟩
  rcases hinsert with ⟨e, heq⟩ | ⟨userId, db, heq⟩
  · rw [heq]
    exact Or.inl ⟨_, rfl⟩
  · rw [heq]
    right
    cases session with
    | none => exact ⟨_, rfl⟩
    | some id =>
      dsimp only
      rw [exec_sql_bind]
      dsimp only [Database.updateSessionUserId]
      generalize World.withDb _ _ = w₁
      rw [exec_bind]
      cases hentry : w₁.state.cache id with
      | some session =>
        rw [exec_getSession_hit conn _ hentry]
        exact ⟨_, rfl⟩
      | none =>
        cases hrow : w₁.row id with
        | none =>
          rw [exec_getSession_none conn _ hentry hrow]
          exact ⟨_, rfl⟩
        | some full =>
          rw [exec_getSession_miss conn _ hentry hrow]
          exact ⟨_, rfl⟩

theorem keeping_finishTurn (draws : FrameDraws) (conn : ConnId) (session : Option FrameSession)
    (reply : Option Bytes) :
    Keeping users before id (fun _ => True) (finishTurn draws conn session reply) := by
  cases reply with
  | none => trivial
  | some data => exact (keeping_respond draws conn session data).bind fun _ _ => trivial

/-- A frame that carries an object ends as the request and the response to it do. -/
theorem Frame.Carries.exec {f : Frame} {obj : TlObject} (h : f.Carries id obj w w') :
    ∃ session : FrameSession, (handleFrame statics f.draws f.conn f.raw).exec w =
      (handleRequest statics f.draws.handler f.conn obj (some id) >>=
        finishTurn f.draws f.conn (some session)).exec
          (w'.log [.dispatched f.conn (some (session.id, session.msgId)) obj]) := by
  obtain ⟨w₁, tlData, session, rest, haddress, hreceive, hread⟩ := h
  obtain rfl := receiveEncrypted_id hreceive
  refine ⟨session, ?_⟩
  unfold handleFrame
  rw [exec_bind, haddress]
  dsimp only
  rw [exec_bind, hreceive]
  dsimp only
  rw [dispatch_eq statics f.draws f.conn (some session) hread]
  rfl

variable {statics}

theorem Frame.Carries.kept {f : Frame} {obj : TlObject} (h : f.Carries id obj w w')
    {i : Int64} (hw : Kept users before i w) : Kept users before i w' := by
  obtain ⟨w₁, tlData, session, rest, haddress, hreceive, -⟩ := h
  have hfound := ((keeping_addressedSession f.conn f.raw).exec hw).1
  rw [haddress] at hfound
  have haccepted := ((keeping_receiveEncrypted f.draws.now f.conn id f.raw).exec hfound).1
  rwa [hreceive] at haccepted

/-- A `SignUp` that fails leaves everything as it found it. -/
theorem Frame.Carries.failed {f : Frame} {req : SignUp} (h : f.Carries id (.signUp req) w w')
    (hnot : ¬ f.SignsUp statics id w) : ∃ events,
      ((handleFrame statics f.draws f.conn f.raw).exec w).2 = w'.log events := by
  obtain ⟨session, heq⟩ := h.exec statics
  have hhandle : handleRequest statics f.draws.handler f.conn (.signUp req) (some id) =
    handleSignUp f.draws.handler f.conn (some id) req := rfl
  rw [exec_bind, hhandle] at heq
  rcases handleSignUp_cases f.draws.handler f.conn (some id) req (w'.log _) with
    ⟨e, hexec⟩ | ⟨w'', hexec⟩
  · rw [hexec] at heq
    exact ⟨_, congrArg Prod.snd heq⟩
  · rw [hexec] at heq
    exact absurd ⟨req, w', h, congrArg Prod.fst heq⟩ hnot

/-- The frame's object is handled under this session, or under none; `w'` is the state in which
that happens. -/
def Frame.Dispatches (f : Frame) (session : Option FrameSession) (obj : TlObject)
    (w w' : World) : Prop :=
  ∃ w₁ w₂ tlData rest, TlObject.readBoxed.run tlData = .ok obj rest ∧
    w' = w₂.log [.dispatched f.conn (session.map fun s => (s.id, s.msgId)) obj] ∧
    match session with
    | none => (addressedSession f.conn f.raw).exec w = (.ok none, w₂) ∧ tlData = f.raw
    | some s => (addressedSession f.conn f.raw).exec w = (.ok (some s.id), w₁) ∧
      (receiveEncrypted f.draws.now f.conn s.id f.raw).exec w₁ = (.ok (.ok (tlData, s)), w₂)

theorem Frame.Dispatches.carries {f : Frame} {session : FrameSession} {obj : TlObject}
    (h : f.Dispatches (some session) obj w w') : ∃ w₂, f.Carries session.id obj w w₂ ∧
      w' = w₂.log [.dispatched f.conn (some (session.id, session.msgId)) obj] := by
  obtain ⟨w₁, w₂, tlData, rest, hread, hlog, haddress, hreceive⟩ := h
  exact ⟨w₂, ⟨w₁, tlData, session, rest, haddress, hreceive, hread⟩, hlog⟩

/-- A frame leaves the user of the session as it is if its request does. -/
theorem kept_dispatches {f : Frame} (h : Kept users none id w)
    (hobj : ∀ session obj w', f.Dispatches session obj w w' → Kept users none id w' →
      Kept users none id ((handleRequest statics f.draws.handler f.conn obj
        (session.map FrameSession.id)).exec w').2) :
    Kept users none id ((handleFrame statics f.draws f.conn f.raw).exec w).2 := by
  have hdispatch {session : Option FrameSession} {tlData : Bytes} {w₂ : World}
      (hkept : Kept users none id w₂)
      (hto : ∀ obj rest, TlObject.readBoxed.run tlData = .ok obj rest →
        f.Dispatches session obj w
          (w₂.log [.dispatched f.conn (session.map fun s => (s.id, s.msgId)) obj])) :
      Kept users none id ((dispatch statics f.draws f.conn session tlData).exec w₂).2 := by
    cases hread : TlObject.readBoxed.run tlData with
    | err e =>
      unfold dispatch
      rw [hread]
      exact hkept
    | panic =>
      unfold dispatch
      rw [hread]
      exact hkept
    | ok obj rest =>
      rw [dispatch_eq statics f.draws f.conn session hread]
      have hhandled := hobj session obj _ (hto obj rest hread) (hkept.of_eq rfl rfl)
      change Kept users none id ((handleRequest statics f.draws.handler f.conn obj
        (session.map FrameSession.id) >>= finishTurn f.draws f.conn session).exec
          (w₂.log [.dispatched f.conn (session.map fun s => (s.id, s.msgId)) obj])).2
      rw [exec_bind]
      cases hexec : (handleRequest statics f.draws.handler f.conn obj
          (session.map FrameSession.id)).exec
          (w₂.log [.dispatched f.conn (session.map fun s => (s.id, s.msgId)) obj]) with
      | mk result w₃ =>
        rw [hexec] at hhandled
        cases result with
        | error e => exact hhandled
        | ok reply => exact ((keeping_finishTurn f.draws f.conn session reply).exec hhandled).1
  have hfound := ((keeping_addressedSession f.conn f.raw).exec h).1
  unfold handleFrame
  rw [exec_bind]
  cases haddress : (addressedSession f.conn f.raw).exec w with
  | mk result w₁ =>
    rw [haddress] at hfound
    cases result with
    | error e => exact hfound
    | ok address =>
      cases address with
      | none =>
        exact hdispatch hfound fun obj rest hread =>
          ⟨w₁, w₁, f.raw, rest, hread, rfl, haddress, rfl⟩
      | some i =>
        dsimp only
        rw [exec_bind]
        have haccepted := ((keeping_receiveEncrypted f.draws.now f.conn i f.raw).exec hfound).1
        cases hreceive : (receiveEncrypted f.draws.now f.conn i f.raw).exec w₁ with
        | mk result w₂ =>
          rw [hreceive] at haccepted
          cases result with
          | error e => exact haccepted
          | ok received =>
            cases received with
            | error reason => exact haccepted
            | ok accepted =>
              obtain ⟨tlData, session⟩ := accepted
              obtain rfl := receiveEncrypted_id hreceive
              exact hdispatch haccepted fun obj rest hread =>
                ⟨w₁, w₂, tlData, rest, hread, rfl, haddress, hreceive⟩

/-- A frame that does not sign up under the session leaves its user as it is. -/
theorem kept_handleFrame {f : Frame} (hzero : users 0) (h : Kept users none id w)
    (hnot : ¬ f.SignsUp statics id w) :
    Kept users none id ((handleFrame statics f.draws f.conn f.raw).exec w).2 := by
  by_cases hsign : ∃ req w', f.Carries id (.signUp req) w w'
  · obtain ⟨req, w', hcarries⟩ := hsign
    obtain ⟨events, heq⟩ := hcarries.failed hnot
    rw [heq]
    exact (hcarries.kept h).of_eq rfl rfl
  · refine kept_dispatches h fun session obj w' hdispatches hkept =>
      ((keeping_handleRequest statics hzero (fun hs req hobj => ?_) _ _).exec hkept).1
    obtain ⟨session, rfl, rfl⟩ := Option.map_eq_some_iff.mp hs
    obtain ⟨w₂, hcarries, -⟩ := hdispatches.carries
    exact hsign ⟨req, w₂, hobj ▸ hcarries⟩

end Turns

/-! ### What a request of the system user changes -/

/-- Nothing is changed by this request on behalf of user 0. -/
def Harmless (db : Database) : TlObject → Prop
  | .sendMessage req => db.hasDialog req.chatId.val = false ∨ nextRowid db.messageSeq = none
  | .sendMessageAck req => ∀ m ∈ db.messages, m.id = req.messageId.val → m.deliveredStatus = true
  | .userStatusUpdate req => req.userId.val ≠ 0
  | .createPrivateDialog req => (∃ d, db.Joins 0 req.userId.val d) ∨ db.NoRowid
  | .createGroup _ => db.NoRowid
  | .addGroupParticipant req => db.hasParticipant req.dialogId.val 0 = true →
    db.hasParticipant req.dialogId.val req.userId.val = true ∨ db.hasUser req.userId.val = false
  | .removeGroupParticipant req => db.hasParticipant req.dialogId.val 0 = true →
    req.userId.val = 0 ∨ db.hasParticipant req.dialogId.val req.userId.val = false
  | _ => True

theorem harmless_saveMessage {dialogId u : Int64}
    (h : db.hasDialog dialogId = false ∨ nextRowid db.messageSeq = none) (text : String)
    (now : Int64) : (Database.saveMessage dialogId u text now true none none db).2 = db := by
  unfold Database.saveMessage
  rcases h with hdialog | hfull
  · rw [hdialog]
    split <;> rfl
  · rw [hfull]

theorem harmless_markMessageDelivered {messageId : Int64}
    (h : ∀ m ∈ db.messages, m.id = messageId → m.deliveredStatus = true) :
    (Database.markMessageDelivered messageId db).2 = db := by
  have hrow : ∀ m ∈ db.messages,
      (if m.id == messageId then { m with deliveredStatus := true } else m) = m := by
    intro m hm
    by_cases hid : m.id = messageId
    · have hdelivered := h m hm hid
      rw [if_pos (beq_iff_eq.mpr hid), ← hdelivered]
    · exact if_neg (mt beq_iff_eq.mp hid)
  have hsame := (List.map_congr_left hrow).trans (List.map_id' db.messages)
  exact congrArg (fun messages => { db with messages }) hsame

theorem harmless_createPrivateDialog {v : Int64}
    (h : (∃ d, w.state.db.Joins 0 v d) ∨ w.state.db.NoRowid) :
    ((createPrivateDialog 0 v).exec w).2.state.db = w.state.db := by
  unfold createPrivateDialog
  rw [exec_sql_bind]
  rcases selectPrivateDialog_cases 0 v w.state.db with ⟨d, -, heq⟩ | ⟨hnone, heq⟩
  · rw [heq]
    rfl
  · rw [heq]
    dsimp only
    rw [exec_sql_bind]
    rcases h with ⟨d, hd⟩ | hfull
    · exact absurd ⟨d, hd⟩ hnone
    · unfold Database.insertDialog
      rw [withDb_db, hfull]
      rfl

theorem harmless_createGroupDialog (h : w.state.db.NoRowid) (title : String) (creator : Int64)
    (participants : List Int64) :
    ((createGroupDialog title creator participants).exec w).2.state.db = w.state.db := by
  unfold createGroupDialog
  rw [exec_sql_bind]
  unfold Database.insertDialog
  rw [h]
  rfl

theorem harmless_removeParticipant {dialogId userId : Int64}
    (h : db.hasParticipant dialogId userId = false) :
    (Database.removeParticipant dialogId userId db).2 = db := by
  have hsame : (db.participants.filter fun p => !(p.dialogId == dialogId && p.userId == userId)) =
      db.participants := by
    rw [List.filter_eq_self]
    rintro ⟨d, u⟩ hp
    rw [Bool.not_eq_true', Bool.and_eq_false_iff]
    by_contra hboth
    obtain ⟨hd, hu⟩ := not_or.mp hboth
    obtain rfl := beq_iff_eq.mp (Bool.not_eq_false _ ▸ hd)
    obtain rfl := beq_iff_eq.mp (Bool.not_eq_false _ ▸ hu)
    have hmem := Database.hasParticipant_iff.mpr hp
    rw [h] at hmem
    cases hmem
  exact congrArg (fun participants => { db with participants }) hsame

theorem harmless_applied {obj : TlObject} (h : Harmless w.state.db obj) (draws : Draws) :
    applied draws w 0 obj = w.state.db := by
  cases obj with
  | sendMessage req => exact harmless_saveMessage h _ _
  | sendMessageAck req => exact harmless_markMessageDelivered h
  | userStatusUpdate req => exact if_neg (Ne.symm h)
  | createPrivateDialog req => exact harmless_createPrivateDialog h
  | createGroup req => exact harmless_createGroupDialog h _ _ _
  | addGroupParticipant req =>
    dsimp only [applied]
    split
    · rename_i hmember
      unfold Database.addParticipant
      split
      · rfl
      · rename_i hnew
        rcases h hmember with hold | hmissing
        · exact absurd hold hnew
        · rw [hmissing, Bool.and_false]
          rfl
    · rfl
  | removeGroupParticipant req =>
    dsimp only [applied]
    split
    · rename_i hmember
      rcases h hmember.1 with hself | hmissing
      · exact absurd hself.symm hmember.2
      · exact harmless_removeParticipant hmissing
    · rfl
  | _ => rfl

/-! ### Runs -/

/-- What a server that handles one frame at a time goes through. -/
inductive Happening where
  | frame (f : Frame)
  | evicted (id : Int64)
  | restarted

section Runs

variable [Platform] (statics : Statics)

def Happening.exec (w : World) : Happening → World
  | .frame f => ((serve statics f.draws f.conn f.raw).exec w).2
  | .evicted id => evict id w
  | .restarted => restart w

def happen : List Happening → World → World
  | [], w => w
  | h :: hs, w => happen hs (h.exec statics w)

/-- No `SignUp` under this session succeeds in the run. -/
def Unregistered (id : Int64) : List Happening → World → Prop
  | [], _ => True
  | .frame f :: hs, w =>
    ¬ f.SignsUp statics id w ∧ Unregistered id hs ((Happening.frame f).exec statics w)
  | h :: hs, w => Unregistered id hs (h.exec statics w)

variable {statics}

/-- The session of an exchange stays with user 0 until somebody signs up. -/
theorem kept_happen {hs : List Happening} (hw : Kept (· = 0) none id w)
    (h : Unregistered statics id hs w) : Kept (· = 0) none id (happen statics hs w) := by
  induction hs generalizing w with
  | nil => exact hw
  | cons happening hs ih =>
    cases happening with
    | frame f =>
      refine ih ?_ h.2
      change Kept _ _ _ ((serve statics f.draws f.conn f.raw).exec w).2
      rw [exec_serve_eq]
      have hstep : Kept (· = 0) none id _ := kept_handleFrame rfl hw h.1
      exact hstep.of_eq rfl rfl
    | evicted i => exact ih (hw.evict i) h
    | restarted => exact ih ⟨hw.row, nofun, nofun⟩ h

variable (statics) in
theorem sameContent_handleRequest {obj : TlObject} (h : Kept (· = 0) (some db) id w)
    (hharmless : Harmless w.state.db obj) (draws : Draws) (conn : ConnId) :
    SameContent db ((handleRequest statics draws conn obj (some id)).exec w).2.state.db := by
  have hbefore := h.content db rfl
  rcases db_handleRequest statics draws conn (some id) obj w with
    ⟨req, rfl⟩ | ⟨req, rfl⟩ | heq
  · exact hbefore.trans (sameContent_handleSignUp draws conn (some id) req w)
  · exact hbefore.trans (sameContent_handleSetClientDhParams statics draws conn req w)
  · rw [heq]
    have hwho : requester w (some id) = (w.row id).map FullSession.userId := rfl
    rw [hwho]
    cases hrow : w.row id with
    | none => exact hbefore
    | some row =>
      have hzero := h.row row hrow
      change SameContent db (applied draws w row.userId obj)
      rw [hzero, harmless_applied hharmless]
      exact hbefore

/-- For as long as nobody has signed up under a session, a request under it that is harmless for
the system user changes no message, dialog, member or status. -/
theorem unregistered_harmless {hs : List Happening} {f : Frame} {obj : TlObject} {w' : World}
    (hrun : Unregistered statics id hs World.init)
    (hcarries : f.Carries id obj (happen statics hs World.init) w')
    (hharmless : Harmless w'.state.db obj) :
    SameContent (happen statics hs World.init).state.db
      ((serve statics f.draws f.conn f.raw).exec (happen statics hs World.init)).2.state.db := by
  have hinit : Kept (· = 0) none id World.init := ⟨nofun, nofun, nofun⟩
  have hw := kept_happen hinit hrun
  generalize happen statics hs World.init = w at hw hcarries ⊢
  have hbefore : Kept (· = 0) (some w.state.db) id w :=
    ⟨hw.row, hw.entry, fun db hdb => Option.some.inj hdb ▸ SameContent.refl _⟩
  have hreceived := hcarries.kept hbefore
  obtain ⟨session, heq⟩ := hcarries.exec statics
  rw [exec_serve_eq, heq]
  have hhandled := sameContent_handleRequest statics
    (w := w'.log [.dispatched f.conn (some (session.id, session.msgId)) obj])
    (hreceived.of_eq rfl rfl) hharmless f.draws.handler f.conn
  rw [exec_bind]
  cases hexec : (handleRequest statics f.draws.handler f.conn obj (some id)).exec
    (w'.log [.dispatched f.conn (some (session.id, session.msgId)) obj]) with
  | mk result w₂ =>
    rw [hexec] at hhandled
    cases result with
    | error e => exact hhandled
    | ok reply =>
      have hfinal : Kept (fun _ => True) (some w.state.db) id w₂ :=
        ⟨fun _ _ => trivial, fun _ _ => trivial, fun db hdb => Option.some.inj hdb ▸ hhandled⟩
      exact ((keeping_finishTurn f.draws f.conn (some session) reply).exec hfinal).1.content _ rfl

end Runs

/-! ### An unregistered session at work -/

namespace Sample

def exchanged : List Happening := exchange.map .frame

/-- A request of user 0, who is nobody, sent once the exchange is over. -/
def early (obj : TlObject) : Frame := frame 0 1 0 0 obj

theorem unregistered_exchanged : letI := platform
    Unregistered statics Sample.id exchanged World.init := by
  let _ := platform
  have hnot {f : Frame} {w : World} (h : ((addressedSession f.conn f.raw).exec w).1 = .ok none) :
      ¬ f.SignsUp statics Sample.id w := by
    rintro ⟨req, w', ⟨w₁, tlData, session, rest, haddress, -, -⟩, -⟩
    rw [haddress] at h
    cases h
  refine ⟨hnot ?_, hnot ?_, trivial⟩
  · decide +kernel
  · decide +kernel

/-- The plaintext of a frame that is accepted. -/
def accepted (result : Except Stop (Except Rejection (Bytes × FrameSession))) : Option Bytes :=
  match result with
  | .ok (.ok (tlData, _)) => some tlData
  | _ => none

theorem carries_early (obj : TlObject) : letI := platform
    let w := happen statics exchanged World.init
    ((addressedSession 0 (early obj).raw).exec w).1 = .ok (some Sample.id) →
    accepted ((receiveEncrypted 1 0 Sample.id (early obj).raw).exec
      ((addressedSession 0 (early obj).raw).exec w).2).1 = some obj.writeBoxed →
    TlObject.readBoxed.run obj.writeBoxed = .ok obj [] →
    ∃ w', (early obj).Carries Sample.id obj w w' := by
  let _ := platform
  intro w haddress haccepted hread
  cases hfound : (addressedSession 0 (early obj).raw).exec w with
  | mk address w₁ =>
    rw [hfound] at haddress haccepted
    cases hreceive : (receiveEncrypted 1 0 Sample.id (early obj).raw).exec w₁ with
    | mk result w₂ =>
      rw [hreceive] at haccepted
      match result, haccepted with
      | .ok (.ok (tlData, session)), haccepted =>
        cases Option.some.inj haccepted
        cases haddress
        exact ⟨w₂, w₁, obj.writeBoxed, session, [], hfound, hreceive, hread⟩

end Sample

/-- A request for another user's status is refused, and changes nothing. -/
theorem unregistered_harmless_status : letI := Sample.platform
    let w := happen Sample.statics Sample.exchanged World.init
    let f := Sample.early (.userStatusUpdate ⟨⟨5⟩, .online⟩)
    SameContent w.state.db ((serve Sample.statics f.draws f.conn f.raw).exec w).2.state.db := by
  obtain ⟨w', hcarries⟩ := Sample.carries_early (.userStatusUpdate ⟨⟨5⟩, .online⟩)
    (by decide +kernel) (by decide +kernel) (by decide +kernel)
  have hother : Harmless w'.state.db (.userStatusUpdate ⟨⟨5⟩, .online⟩) := by
    have hne : (5 : Int64) ≠ 0 := by decide
    exact hne
  have hall := @unregistered_harmless Sample.id Sample.platform Sample.statics Sample.exchanged
    (Sample.early (.userStatusUpdate ⟨⟨5⟩, .online⟩)) _ w' Sample.unregistered_exchanged hcarries
  exact hall hother

/-- Right after the exchange a group is created, by user 0. -/
theorem not_unregistered_sameContent : ¬ ∀ (_ : Platform) (statics : Statics)
    (hs : List Happening) (id : Int64) (f : Frame) (obj : TlObject) (w' : World),
    Unregistered statics id hs World.init → f.Carries id obj (happen statics hs World.init) w' →
    SameContent (happen statics hs World.init).state.db
      ((serve statics f.draws f.conn f.raw).exec (happen statics hs World.init)).2.state.db := by
  intro h
  obtain ⟨w', hcarries⟩ := Sample.carries_early (.createGroup ⟨"g", []⟩)
    (by decide +kernel) (by decide +kernel) (by decide +kernel)
  have hsame := h Sample.platform Sample.statics Sample.exchanged Sample.id _ _ w'
    Sample.unregistered_exchanged hcarries
  exact absurd hsame.dialogs (by decide +kernel)

end KoSta.Server
