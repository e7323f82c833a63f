import KoSta.Client.Calls
import KoSta.Rekeying
import KoSta.Server.Unregistered
import KoSta.Web.Presence

/-! What becomes of the status updates of a client that has signed up. -/
namespace KoSta
open Lib Lib.Prog Tl Crypto Transport Client Server Function

variable {T : Type} {w w' : World} {id u : Int64} {f : Frame}

section Definitions

variable [Platform] (statics : Statics)

/-- The frame finishes an exchange of keys that gives this id. -/
def Establishes (f : Frame) (id : Int64) (w : World) : Prop :=
  ∃ session req w' reply w'' created, f.Dispatches session (.setClientDHParams req) w w' ∧
    (handleSetClientDhParams statics f.draws.handler f.conn req).exec w' = (.ok reply, w'') ∧
    Created f.conn w' w'' id created

/-- The frame carries a `SignUp` under the session that `create_user` stores as this user. -/
def SignsUpAs (f : Frame) (id u : Int64) (req : SignUp) (w : World) : Prop :=
  ∃ w', f.Carries id (.signUp req) w w' ∧
    (Database.insertUser req.phone (bcryptHash f.draws.handler.salt req.password)
      w'.state.db).1 = .ok u

/-- What the server accepts under the session is what its client has sent, and no exchange gives
the session's id once more. -/
structure Genuine (id : Int64) (sent : List TlObject) (w : World) (f : Frame) : Prop where
  sent : ∀ obj w', f.Carries id obj w w' → obj ∈ sent
  once : ¬ Establishes statics f id w

/-- The frame is handled without error and leaves the user's status at this one. -/
def Updates (f : Frame) (u : Int64) (status : UserStatus) (w : World) : Prop :=
  ((handleFrame statics f.draws f.conn f.raw).exec w).1 = .ok .silent ∧
    Web.statusOf ((Happening.frame f).exec statics w).state.db u = some (statusCode status)

/-- A client and the server, with what the client has sent since its `SignUp`. -/
structure Parties (T : Type) where
  client : Session T
  sent : List TlObject
  world : World

/-- A new client session authenticates and signs up, as user `u`. Then come its high-level calls
and whatever happens at the server, in any order. -/
inductive Membership [FrameTransport T] (publicKey : Vector UInt8 32) (id u : Int64) :
    Parties T → Prop where
  | signedUp {connection : T} {draws : AuthDraws} {s s' : Session T} {now : Nat}
    {random : Vector UInt8 12} {req : SignUp} {f : Frame} {w : World} :
    (authenticate publicKey draws).exec (Session.fromTransport connection) = (.ok (), s) →
    s.authKeyId = some id → (sendTl now random (.signUp req)).exec s = (.ok (), s') →
    SignsUpAs f id u req w →
    Membership publicKey id u ⟨s', [], (Happening.frame f).exec statics w⟩
  | calls {s : Session T} {sent : List TlObject} {w : World} (m : Method) :
    Membership publicKey id u ⟨s, sent, w⟩ →
    Membership publicKey id u ⟨m.exec s, m.request s :: sent, w⟩
  | happens {s : Session T} {sent : List TlObject} {w : World} (h : Happening) :
    Membership publicKey id u ⟨s, sent, w⟩ → (∀ f, h = .frame f → Genuine statics id sent w f) →
    Membership publicKey id u ⟨s, sent, h.exec statics w⟩

end Definitions

section Users

variable [Platform] {statics : Statics} {users : Int64 → Prop}

omit [Platform] in
theorem ne_zero_of_insertUser {phone hash : String} {db : Database}
    (h : (Database.insertUser phone hash db).1 = .ok u) : u ≠ 0 := by
  have hle := (le_foldl_max (db.users.map UserRow.id) 0).1
  unfold Database.insertUser nextRowid largestRowid at h
  split at h
  · cases h
  · split at h
    · rename_i hnext
      split at hnext
      · cases hnext
      · rename_i hmax
        have hlt := lt_add_one_int64 hmax
        cases hnext
        cases h
        intro hzero
        rw [hzero] at hlt
        exact Int64.lt_irrefl (Int64.lt_of_lt_of_le hlt hle)
    · cases h

omit [Platform] in
theorem kept_updateSession (conn : ConnId) (session : SessionData) (w : World) :
    Kept (· = u) none id
      ((updateSession conn id { session with userId := u } [] []).exec w).2 := by
  refine ⟨fun row hrow => ?_, fun entry hentry => ?_, nofun⟩
  · have hself : some (SessionData.toRow { session with userId := u } id) = some row :=
      (if_pos rfl).symm.trans hrow
    cases hself
    rfl
  · have hself : some ({ session with userId := u } : SessionData) = some entry :=
      (update_self id _ w.state.cache).symm.trans hentry
    cases hself
    rfl

/-- A `SignUp` that is stored gives the session its user, in the row and in the cache. -/
theorem kept_handleSignUp {draws : Draws} {req : SignUp} (conn : ConnId) (id : Int64) (w : World)
    (h : (Database.insertUser req.phone (bcryptHash draws.salt req.password) w.state.db).1 =
      .ok u) :
    ((handleSignUp draws conn (some id) req).exec w).1 = .ok none ∧
      Kept (· = u) none id ((handleSignUp draws conn (some id) req).exec w).2 := by
  unfold handleSignUp createUser
  rw [exec_sql_bind]
  cases hinsert : Database.insertUser req.phone (bcryptHash draws.salt req.password) w.state.db with
  | mk result db =>
    rw [hinsert] at h
    dsimp only at h
    rw [h]
    dsimp only
    rw [exec_sql_bind]
    dsimp only [Database.updateSessionUserId]
    rw [Prog.exec_bind]
    generalize World.withDb _ _ = w₁
    cases hentry : w₁.state.cache id with
    | some session =>
      rw [exec_getSession_hit conn _ hentry]
      exact ⟨rfl, kept_updateSession conn session _⟩
    | none =>
      cases hfull : w₁.row id with
      | none =>
        rw [exec_getSession_none conn _ hentry hfull]
        refine ⟨rfl, fun row hr => ?_, fun session hs => ?_, nofun⟩
        · cases hfull.symm.trans hr
        · cases hentry.symm.trans hs
      | some full =>
        rw [exec_getSession_miss conn _ hentry hfull]
        exact ⟨rfl, kept_updateSession conn _ _⟩

variable (statics) in
theorem kept_signsUpAs {req : SignUp} (h : SignsUpAs f id u req w) :
    Kept (· = u) none id ((Happening.frame f).exec statics w) ∧ u ≠ 0 := by
  obtain ⟨w', hcarries, hinsert⟩ := h
  refine ⟨?_, ne_zero_of_insertUser hinsert⟩
  obtain ⟨session, heq⟩ := hcarries.exec statics
  obtain ⟨hok, hkept⟩ := kept_handleSignUp f.conn id
    (w'.log [.dispatched f.conn (some (session.id, session.msgId)) (.signUp req)]) hinsert
  have hhandle : handleRequest statics f.draws.handler f.conn (.signUp req) (some id) =
    handleSignUp f.draws.handler f.conn (some id) req := rfl
  rw [Prog.exec_bind, hhandle] at heq
  cases hexec : (handleSignUp f.draws.handler f.conn (some id) req).exec
      (w'.log [.dispatched f.conn (some (session.id, session.msgId)) (.signUp req)]) with
  | mk result w₁ =>
    rw [hexec] at heq hok hkept
    dsimp only at hok
    subst hok
    change Kept _ _ _ ((serve statics f.draws f.conn f.raw).exec w).2
    rw [exec_serve_eq, heq]
    exact hkept.of_eq rfl rfl

omit [Platform] in
theorem kept_create {conn : ConnId} {id' : Int64} {session : RecentMsgIds → SessionData}
    (h : Kept users none id w) (hne : id' ≠ id) (key : Bytes) :
    Kept users none id ((w.create conn id' session).setHandshake key none) := by
  refine ⟨fun row hrow => h.row row ?_, fun entry hentry => h.entry entry ?_, nofun⟩
  · rw [World.row, World.create_db] at hrow
    exact (update_of_ne (Ne.symm hne) _ _).symm.trans hrow
  · exact (update_of_ne (Ne.symm hne) _ _).symm.trans hentry

/-- What is left of the session's user by a frame that neither signs up under the session nor
establishes it again. -/
theorem kept_of_spared (h : Kept users none id w)
    (hsign : ∀ req w', ¬ f.Carries id (.signUp req) w w')
    (honce : ¬ Establishes statics f id w) :
    Kept users none id ((handleFrame statics f.draws f.conn f.raw).exec w).2 := by
  refine kept_dispatches h fun session obj w' hdispatches hkept => ?_
  rcases handleRequest_cases (session.map FrameSession.id) statics f.draws.handler f.conn obj with
    ⟨req, rfl⟩ | ⟨req, rfl⟩ | hquiet
  · refine ((keeping_handleSignUp (fun hs => ?_) f.draws.handler f.conn req).exec hkept).1
    obtain ⟨session, rfl, rfl⟩ := Option.map_eq_some_iff.mp hs
    obtain ⟨w₂, hcarries, -⟩ := hdispatches.carries
    exact (hsign req w₂ hcarries).elim
  · change Kept users none id
      ((handleSetClientDhParams statics f.draws.handler f.conn req).exec w').2
    rcases handleSetClientDhParams_cases statics f.draws.handler f.conn req w' with
      ⟨e, heq⟩ | ⟨entry, inner, -, -, heq⟩
    · rw [heq]
      exact hkept.of_eq rfl rfl
    · rw [heq]
      have hclean : Kept users none id (w'.clean f.draws.handler.instant) := hkept.of_eq rfl rfl
      refine kept_create hclean (fun hid => honce ?_) _
      subst hid
      exact ⟨session, req, w', _, _, _, hdispatches, heq, World.create_trace _ _ _ _ _,
        World.create_cache _ _ _ _ _, World.create_row _ _ _ _ _⟩
  · exact ((keeping_quietly hquiet).exec hkept).1

end Users

/-! ### Runs -/

section Runs

variable [Platform] [FrameTransport T] {statics : Statics} {publicKey : Vector UInt8 32}
  {x : Parties T}

/-- What the client sends are requests of its calls, for user 0 where they name one. -/
def Own : TlObject → Prop
  | .userStatusUpdate req => req.userId = ⟨0⟩
  | .signUp _ => False
  | _ => True

omit [Platform] [FrameTransport T] in
theorem own_request {s : Session T} (h : Nameless s) (m : Method) : Own (m.request s) := by
  cases m with
  | updateStatus now random status =>
    change s.userId.getD ⟨0⟩ = ⟨0⟩
    rw [show s.userId = none from h]
    rfl
  | _ => trivial

/-- In a run the client is given no user, and the session has user `u`. -/
structure Divided (id u : Int64) (x : Parties T) : Prop where
  nameless : Nameless x.client
  own : ∀ obj ∈ x.sent, Own obj
  kept : Kept (· = u) none id x.world
  registered : u ≠ 0

omit [FrameTransport T] in
theorem divided_happening {h : Happening} {s : Session T} {sent : List TlObject} {w : World}
    (hx : Divided id u ⟨s, sent, w⟩) (hgenuine : ∀ f, h = .frame f → Genuine statics id sent w f) :
    Divided id u ⟨s, sent, h.exec statics w⟩ := by
  refine ⟨hx.nameless, hx.own, ?_, hx.registered⟩
  cases h with
  | frame f =>
    obtain ⟨hsent, honce⟩ := hgenuine f rfl
    have hkept := kept_of_spared hx.kept (fun req w' hc => hx.own _ (hsent _ w' hc)) honce
    change Kept _ _ _ ((serve statics f.draws f.conn f.raw).exec w).2
    rw [exec_serve_eq]
    exact hkept.of_eq rfl rfl
  | evicted i => exact hx.kept.evict i
  | restarted => exact ⟨hx.kept.row, nofun, nofun⟩

theorem Membership.divided (h : Membership statics publicKey id u x) : Divided id u x := by
  induction h with
  | @signedUp connection draws s s' now random req f w hauth hid hsend hsign =>
    obtain ⟨hkept, hne⟩ := kept_signsUpAs statics hsign
    have hs := nameless_authenticate publicKey draws
      (rfl : Nameless (Session.fromTransport connection))
    rw [hauth] at hs
    have hs' := nameless_sendTl now random (.signUp req) s hs
    rw [hsend] at hs'
    exact ⟨hs', nofun, hkept, hne⟩
  | calls m h ih =>
    refine ⟨nameless_method m ih.nameless, fun obj hobj => ?_, ih.kept, ih.registered⟩
    rcases List.mem_cons.mp hobj with rfl | hobj
    · exact own_request ih.nameless m
    · exact ih.own obj hobj
  | happens h hrun hgenuine ih => exact divided_happening ih hgenuine

omit [FrameTransport T] in
/-- An update for user 0 under a session of another user is refused. -/
theorem refused_of_divided (hx : Divided id u x) {req : UserStatusUpdate}
    (hcarries : f.Carries id (.userStatusUpdate req) x.world w')
    (hsent : .userStatusUpdate req ∈ x.sent) :
    ((handleFrame statics f.draws f.conn f.raw).exec x.world).1 ≠ .ok .silent := by
  intro hok
  have hown : req.userId = ⟨0⟩ := hx.own _ hsent
  have hkept := hcarries.kept hx.kept
  obtain ⟨session, heq⟩ := hcarries.exec statics
  have hhandle : handleRequest statics f.draws.handler f.conn (.userStatusUpdate req) (some id) =
    handleUserStatus (some id) req := rfl
  rw [heq, Prog.exec_bind, hhandle, handleUserStatus, exec_asUser] at hok
  cases hwho : requester (w'.log [.dispatched f.conn (some (session.id, session.msgId))
      (.userStatusUpdate req)]) (some id) with
  | none =>
    rw [hwho] at hok
    cases hok
  | some v =>
    rw [hwho] at hok
    obtain ⟨row, hrow, rfl⟩ := Option.map_eq_some_iff.mp hwho
    have hother : row.userId ≠ req.userId.val := by
      rw [hkept.row row hrow, hown]
      exact hx.registered
    dsimp only [Option.elim] at hok
    rw [if_pos hother] at hok
    cases hok

/-- No status update of a client that has signed up does what it is for. -/
theorem status_updates_fail (h : Membership statics publicKey id u x) {req : UserStatusUpdate}
    (hcarries : f.Carries id (.userStatusUpdate req) x.world w')
    (hsent : .userStatusUpdate req ∈ x.sent) : ¬ Updates statics f u req.status x.world :=
  fun hupdates => refused_of_divided h.divided hcarries hsent hupdates.1

end Runs

/-! ### A client that signs up and reports its status -/

namespace Trial

def blank : Vector UInt8 12 := Vector.replicate 12 0

/-- The frame in which the session sends an object. -/
def frameOf [Platform] (s : Session Link) (obj : TlObject) : Frame :=
  let buffered : Session MockTransport := { s with transport := MockTransport.new }
  ⟨frameDraws, 0, ((sendTl 1 blank obj).exec buffered).2.transport.writer.drop 1⟩

def enrolment : SignUp := ⟨"1", "secret"⟩

def report : UserStatusUpdate := ⟨⟨0⟩, .online⟩

/-- The exchange has ended well, user 1 signs up and the report that follows is accepted. -/
def enrols : Except (Failure KostaError) Unit × Session Link → Bool
  | (.ok (), s) =>
    letI := platform
    let f := frameOf s (.signUp enrolment)
    match s.authKeyId, (sendTl 1 blank (.signUp enrolment)).exec s with
    | some id, (.ok (), s') =>
      match f.carried id s.transport.world with
      | some (obj, w') =>
        obj = .signUp enrolment ∧ (Database.insertUser enrolment.phone
            (bcryptHash frameDraws.handler.salt enrolment.password) w'.state.db).1 = .ok 1 ∧
          ((frameOf s' (.userStatusUpdate report)).carried id
            ((Happening.frame f).exec link.statics s.transport.world)).map Prod.fst =
              some (.userStatusUpdate report)
      | none => false
    | _, _ => false
  | (.error _, _) => false

theorem enrols_first : (let _ := platform
    enrols ((authenticate key (authDraws 1)).exec (Session.fromTransport link))) = true := by
  decide +kernel

/-- User 1 has signed up and reports to be online. -/
theorem exists_of_enrols {r : Except (Failure KostaError) Unit × Session Link}
    (hr : (let _ := platform
      (authenticate key (authDraws 1)).exec (Session.fromTransport link)) = r)
    (h : enrols r = true) : let _ := platform
    ∃ (id : Int64) (x : Parties Link) (f : Frame) (w' : World),
      Membership link.statics key id 1 x ∧ f.Carries id (.userStatusUpdate report) x.world w' ∧
        .userStatusUpdate report ∈ x.sent := by
  let _ := platform
  rcases r with ⟨result, s⟩
  cases result with
  | error e => cases h
  | ok done =>
    dsimp only [enrols] at h
    split at h
    · rename_i id s' hid hsend
      split at h
      · rename_i obj w' hcarried
        obtain ⟨rfl, hinsert, hreport⟩ := of_decide_eq_true h
        obtain ⟨⟨obj, w''⟩, hlast, hobj⟩ := Option.map_eq_some_iff.mp hreport
        dsimp only at hobj
        subst hobj
        have hsigned : Membership link.statics key id 1 ⟨s', [], _⟩ :=
          .signedUp hr hid hsend ⟨w', carries_of_carried hcarried, hinsert⟩
        have hnobody : s'.userId = none := hsigned.divided.nameless
        refine ⟨id, _, _, w'', hsigned.calls (.updateStatus 1 blank .online),
          carries_of_carried hlast, List.mem_singleton.mpr ?_⟩
        change _ = TlObject.userStatusUpdate ⟨s'.userId.getD ⟨0⟩, .online⟩
        rw [hnobody]
        rfl
      · cases h
    · cases h

end Trial

/-- User 1 reports to be online. -/
theorem status_updates_fail_online : let _ := Trial.platform
    ∃ (id : Int64) (x : Parties Link) (f : Frame) (w' : World),
      f.Carries id (.userStatusUpdate Trial.report) x.world w' ∧
        ¬ Updates Trial.link.statics f 1 .online x.world := by
  let _ := Trial.platform
  obtain ⟨id, x, f, w', hmember, hcarries, hsent⟩ := Trial.exists_of_enrols rfl Trial.enrols_first
  exact ⟨id, x, f, w', hcarries, status_updates_fail hmember hcarries hsent⟩

/-- The client reports for user 0 and is refused. -/
theorem not_status_updates : ¬ ∀ (_ : Platform) (statics : Statics) (T : Type)
    (_ : FrameTransport T) (publicKey : Vector UInt8 32) (id u : Int64) (x : Parties T) (f : Frame)
    (req : UserStatusUpdate) (w' : World), Membership statics publicKey id u x →
    f.Carries id (.userStatusUpdate req) x.world w' → .userStatusUpdate req ∈ x.sent →
    Updates statics f u req.status x.world := by
  intro h
  let _ := Trial.platform
  obtain ⟨id, x, f, w', hmember, hcarries, hsent⟩ := Trial.exists_of_enrols rfl Trial.enrols_first
  have hupdates := h Trial.platform Trial.link.statics Link _ Trial.key _ 1 x f Trial.report w'
    hmember hcarries hsent
  exact refused_of_divided hmember.divided hcarries hsent hupdates.1

end KoSta
