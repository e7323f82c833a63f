import KoSta.Server.Checks
import KoSta.Server.KeyExchange

/-! What the handling of an accepted frame depends on, and what it leaves of its session. -/
namespace KoSta.Server
open Lib Lib.Prog Tl Crypto Function

variable {α β : Type} {w w' : World} {id : Int64} {set : RecentMsgIds} {session : SessionData}

/-! ### All but the recent sets -/

/-- A process apart from what its recent sets hold, and the frames it has sent. -/
structure Core where
  db : Database
  cache : Int64 → Option SessionData
  nextRecent : RecentMsgIds
  handshakes : Bytes → Option Handshake
  sent : List (ConnId × Bytes)

def World.core (w : World) : Core where
  db := w.state.db
  cache := w.state.cache
  nextRecent := w.state.nextRecent
  handshakes := w.state.handshakes
  sent := w.trace.filterMap Event.sent?

/-- A process of this kind whose recent sets are empty. -/
def Core.world (g : Core) : World where
  state :=
    { db := g.db, cache := g.cache, recents := fun _ => [], nextRecent := g.nextRecent
      handshakes := g.handshakes }
  trace := g.sent.map fun s => .sent s.1 s.2

@[simp] theorem core_world (g : Core) : g.world.core = g := by
  have hsent : (g.sent.map fun s => Event.sent s.1 s.2).filterMap Event.sent? = g.sent := by
    rw [List.filterMap_map]
    exact List.filterMap_some
  exact congrArg (Core.mk g.db g.cache g.nextRecent g.handshakes) hsent

/-- Sections that log no frame as sent leave the core as it is. -/
theorem core_log {events : List Event} (h : events.filterMap Event.sent? = []) :
    (w.log events).core = w.core := by
  have hsent : (events ++ w.trace).filterMap Event.sent? = w.trace.filterMap Event.sent? := by
    rw [List.filterMap_append, h, List.nil_append]
  exact congrArg (Core.mk w.state.db w.state.cache w.state.nextRecent w.state.handshakes) hsent

/-- The row of the session is not deleted, and this recent set is left alone. -/
structure Spares (id : Int64) (set : RecentMsgIds) (w w' : World) : Prop where
  row : (w.row id).isSome → (w'.row id).isSome
  next : set < w.state.nextRecent → set < w'.state.nextRecent
  recents : set < w.state.nextRecent → w'.state.recents set = w.state.recents set

theorem Spares.refl (w : World) : Spares id set w w := ⟨fun h => h, fun h => h, fun _ => rfl⟩

theorem Spares.trans {w'' : World} (h : Spares id set w w') (h' : Spares id set w' w'') :
    Spares id set w w'' where
  row hrow := h'.row (h.row hrow)
  next hnext := h'.next (h.next hnext)
  recents hnext := (h'.recents (h.next hnext)).trans (h.recents hnext)

/-- The program spares the recent set, and the core alone decides what becomes of it. -/
abbrev Blind (id : Int64) (set : RecentMsgIds) (p : ServerM α) : Prop :=
  p.Through World.core (Spares id set)

section Blind

theorem blind_locked {f : State → (α × List Event) × State}
    (hspares : ∀ s trace, Spares id set ⟨s, trace⟩ ⟨(f s).2, (f s).1.2 ++ trace⟩)
    (hview : ∀ s recents, (f { s with recents }).1 = (f s).1 ∧
      ∃ recents', (f { s with recents }).2 = { (f s).2 with recents := recents' }) :
    Blind id set (locked f) := by
  refine Through.atomically (fun w => hspares w.state w.trace) fun w w' h => ?_
  obtain ⟨hdb, hcache, hnext, hhandshakes, hsent⟩ := Core.mk.inj h
  have hstate : w'.state = { w.state with recents := w'.state.recents } := by
    rw [State.mk.injEq]
    exact ⟨hdb.symm, hcache.symm, rfl, hnext.symm, hhandshakes.symm⟩
  obtain ⟨hvalue, recents', hafter⟩ := hview w.state w'.state.recents
  rw [← hstate] at hvalue hafter
  refine ⟨(congrArg Prod.fst hvalue).symm, ?_⟩
  have hevents : (f w'.state).1.2 = (f w.state).1.2 := congrArg Prod.snd hvalue
  unfold World.core
  rw [Core.mk.injEq]
  refine ⟨(congrArg State.db hafter).symm, (congrArg State.cache hafter).symm,
    (congrArg State.nextRecent hafter).symm, (congrArg State.handshakes hafter).symm, ?_⟩
  dsimp only
  rw [List.filterMap_append, List.filterMap_append, hsent, hevents]

theorem blind_record (event : Event) : Blind id set (record event) :=
  blind_locked (fun _ _ => ⟨fun h => h, fun h => h, fun _ => rfl⟩)
    fun _ recents => ⟨rfl, recents, rfl⟩

/-- A statement that deletes no session. -/
theorem blind_sql {f : Statement α}
    (h : ∀ db, (db.sessions id).isSome → ((f db).2.sessions id).isSome) :
    Blind id set (sql f) := by
  refine Through.bind (blind_locked (fun s trace => ⟨h s.db, fun h => h, fun _ => rfl⟩)
    fun _ recents => ⟨rfl, recents, rfl⟩) fun result => ?_
  cases result with
  | ok a => exact Through.pure a
  | error e => exact Through.fail _

theorem isSome_modifySession {db : Database} (i : Int64) (f : FullSession → FullSession)
    (h : (db.sessions id).isSome) : ((db.modifySession i f).sessions id).isSome := by
  change (if id = i then (db.sessions id).map f else db.sessions id).isSome
  split
  · rwa [Option.isSome_map]
  · exact h

theorem isSome_saveSessionFull {db : Database} (row : FullSession) (h : (db.sessions id).isSome) :
    ((Database.saveSessionFull row db).2.sessions id).isSome := by
  change (if id = row.authKeyId then some row else db.sessions id).isSome
  split
  · rfl
  · exact h

theorem blind_getSession (conn : ConnId) (i : Int64) (mark : SessionData → List Event) :
    Blind id set (getSession conn i mark) := by
  refine Through.bind ?_ fun hit => ?_
  · refine blind_locked (fun s trace => ?_) fun s recents => ?_
    · split <;> exact ⟨fun h => h, fun h => h, fun _ => rfl⟩
    · dsimp only
      split <;> exact ⟨rfl, recents, rfl⟩
  · cases hit with
    | some session => exact Through.pure _
    | none =>
      refine (blind_sql fun _ h => h).bind fun row => ?_
      cases row with
      | none => exact Through.pure _
      | some full =>
        refine Through.bind (blind_locked (fun s trace => ?_) fun s recents => ?_)
          fun _ => Through.pure _
        · refine ⟨fun h => h, Nat.lt_succ_of_lt, fun hset => ?_⟩
          exact update_of_ne (Nat.ne_of_lt hset) _ _
        · exact ⟨rfl, _, rfl⟩

theorem blind_updateSession (conn : ConnId) (i : Int64) (session : SessionData)
    (saved cached : List Event) : Blind id set (updateSession conn i session saved cached) := by
  refine Through.bind (blind_locked (fun s trace => ?_) fun s recents => ⟨rfl, recents, rfl⟩)
    fun _ =>
    blind_locked (fun s trace => ⟨fun h => h, fun h => h, fun _ => rfl⟩)
      fun s recents => ⟨rfl, recents, rfl⟩
  exact ⟨isSome_saveSessionFull _, fun h => h, fun _ => rfl⟩

theorem blind_orPanic (x : Option α) : Blind id set (orPanic x) := by
  cases x with
  | none => exact Through.fail _
  | some a => exact Through.pure a

theorem blind_quietly {p : ServerM α} (hp : Quietly p) : Blind id set p := by
  refine Through.imp hp (fun {w w'} h => ?_) (fun {w w'} h => ?_)
    fun {w t w' t'} h h' hcore hview => ?_
  · refine ⟨fun hrow => ?_, fun hset => ?_, fun _ => congrFun h.recents set⟩
    · rwa [World.row, h.sessions]
    · rwa [h.nextRecent]
  · exact Prod.ext (congrArg Core.db h) (congrArg Core.handshakes h)
  · obtain ⟨hdb, hhandshakes⟩ := Prod.mk.inj hview
    obtain ⟨-, hcache, hnext, -, hsent⟩ := Core.mk.inj hcore
    unfold World.core
    rw [hdb, hhandshakes, h.cache, h'.cache, hcache, h.nextRecent, h'.nextRecent, hnext, h.trace,
      h'.trace, hsent]

theorem blind_transportSend (conn : ConnId) (data : Bytes) (events : List Event) :
    Blind id set (transportSend conn data events) := by
  unfold transportSend
  split
  · exact blind_locked (fun _ _ => ⟨fun h => h, fun h => h, fun _ => rfl⟩)
      fun _ recents => ⟨rfl, recents, rfl⟩
  · exact Through.fail _

theorem blind_commitFrame (conn : ConnId) (i : Int64) (session : SessionData)
    (crypto : SessionCrypto) (msgId : Int64) (seqNo : Int32) :
    Blind id set (commitFrame conn i session crypto msgId seqNo) := by
  refine (blind_sql fun _ => isSome_modifySession _ _).bind fun _ => ?_
  refine (blind_sql fun _ => isSome_modifySession _ _).bind fun _ => ?_
  exact blind_updateSession _ _ _ _ _

variable [Platform]

theorem blind_respond (draws : FrameDraws) (conn : ConnId) (session : Option FrameSession)
    (data : Bytes) : Blind id set (respond draws conn session data) := by
  cases session with
  | none => exact blind_transportSend conn data []
  | some session =>
    refine Through.bind ?_ fun ⟨seqNo, counter⟩ => ?_
    · refine (blind_getSession conn _ _).bind fun found => ?_
      cases found with
      | none => exact Through.pure _
      | some session =>
        refine (blind_orPanic _).bind fun seq => (blind_updateSession _ _ _ _ _).bind fun _ => ?_
        exact (blind_sql fun _ => isSome_modifySession _ _).bind fun _ => Through.pure _
    · refine (blind_orPanic _).bind fun ⟨sealed, crypto⟩ => Through.bind ?_ fun _ =>
        blind_transportSend _ _ _
      refine (blind_getSession conn _ _).bind fun found => ?_
      cases found with
      | none => exact Through.pure _
      | some session =>
        refine (blind_sql fun _ => isSome_modifySession _ _).bind fun _ => ?_
        exact blind_updateSession _ _ _ _ _

theorem blind_handleSignUp (draws : Draws) (conn : ConnId) (authKeyId : Option Int64)
    (req : SignUp) : Blind id set (handleSignUp draws conn authKeyId req) := by
  refine (blind_quietly (quiet_sql (keepsSessions_insertUser _ _))).bind fun userId => ?_
  cases authKeyId with
  | none => exact Through.pure _
  | some i =>
    refine (blind_sql fun _ => isSome_modifySession _ _).bind fun _ => ?_
    refine (blind_getSession conn _ _).bind fun found => ?_
    cases found with
    | none => exact Through.pure _
    | some session => exact (blind_updateSession _ _ _ _ _).bind fun _ => Through.pure _

theorem blind_establish (statics : Statics) (conn : ConnId) (req : SetClientDHParams)
    (entry : Handshake) (inner : ClientDHInnerData) :
    Blind id set (establish statics conn req entry inner) := by
  refine Through.bind
    (blind_locked (fun _ _ => ⟨isSome_saveSessionFull _, fun h => h, fun _ => rfl⟩)
    fun _ recents => ⟨rfl, recents, rfl⟩) fun _ => ?_
  refine Through.bind (blind_locked (fun _ _ => ⟨fun h => h, Nat.lt_succ_of_lt, fun hset => ?_⟩)
    fun _ recents => ⟨rfl, _, rfl⟩) fun recent => ?_
  · exact update_of_ne (Nat.ne_of_lt hset) _ _
  · refine (blind_updateSession _ _ _ _ _).bind fun _ => ?_
    exact (blind_quietly (quiet_removeHandshake _)).bind fun _ => Through.pure _

theorem blind_handleRequest (statics : Statics) (draws : Draws) (conn : ConnId) (obj : TlObject)
    (authKeyId : Option Int64) :
    Blind id set (handleRequest statics draws conn obj authKeyId) := by
  rcases handleRequest_cases authKeyId statics draws conn obj with ⟨req, rfl⟩ | ⟨req, rfl⟩ | hquiet
  · exact blind_handleSignUp draws conn authKeyId req
  · change Blind id set (handleSetClientDhParams statics draws conn req)
    rw [handleSetClientDhParams_eq]
    refine (blind_quietly (quiet_cleanHandshakeStore _)).bind fun _ => ?_
    refine (blind_quietly (quiet_getHandshake _)).bind fun found => ?_
    cases found with
    | none => exact Through.fail _
    | some entry =>
      rcases finishWith_cases statics conn req entry with ⟨e, heq, -⟩ | ⟨inner, -, heq⟩
      · rw [heq]
        exact Through.fail e
      · rw [heq]
        exact blind_establish statics conn req entry inner
  · exact blind_quietly hquiet

theorem blind_dispatch (statics : Statics) (draws : FrameDraws) (conn : ConnId)
    (session : Option FrameSession) (tlData : Bytes) :
    Blind id set (dispatch statics draws conn session tlData) := by
  unfold dispatch
  cases TlObject.readBoxed.run tlData with
  | err e => exact Through.pure _
  | panic => exact Through.fail _
  | ok obj rest =>
    refine (blind_record _).bind fun _ => (blind_handleRequest _ _ _ _ _).bind fun reply => ?_
    cases reply with
    | none => exact Through.pure _
    | some data => exact (blind_respond _ _ _ _).bind fun _ => Through.pure _

/-- What follows the checks does not look at a recent set. -/
theorem blind_rest (statics : Statics) (f : Frame) (b : Checked) :
    Blind id set (f.rest statics b) := by
  refine Through.bind (Through.attempt ?_) fun _ => blind_record _
  cases b with
  | unknown => exact blind_dispatch _ _ _ _ _
  | ended e => exact Through.fail e
  | rejected reason => exact Through.pure _
  | admitted a => exact (blind_commitFrame _ _ _ _ _ _).bind fun _ => blind_dispatch _ _ _ _ _

end Blind

/-! ### What the checks go by -/

/-- The client's keys and the counter of what has been received. -/
def inbound (crypto : SessionCrypto) : AesKey × MacKey × UInt32 :=
  (crypto.clientWriteKey, crypto.clientMacKey, crypto.recvCounter)

/-- The part of a session that the checks of a frame go by. -/
structure Criteria where
  inbound : AesKey × MacKey × UInt32
  recvSeqNo : Int32
  lastRecvMsgId : Int64

def SessionData.criteria (session : SessionData) : Criteria :=
  ⟨inbound session.crypto, session.recvSeqNo, session.lastRecvMsgId⟩

/-- While the cached session has this recent set, the checks go by this. -/
structure Judges (id : Int64) (set : RecentMsgIds) (e : Criteria) (w : World) : Prop where
  next : set < w.state.nextRecent
  entry : ∀ session, w.state.cache id = some session → session.recentMsgIds = set →
    session.criteria = e

/-- So it is with a clone. -/
def Meets (set : RecentMsgIds) (e : Criteria) (found : Option SessionData) : Prop :=
  ∀ session, found = some session → session.recentMsgIds = set → session.criteria = e

section Keeping

variable {e : Criteria} {Q : α → Prop}

/-- A section that does not touch the cache, and creates recent sets at most. -/
theorem Judges.of_cache (h : Judges id set e w) (hcache : w'.state.cache = w.state.cache)
    (hnext : w.state.nextRecent ≤ w'.state.nextRecent) : Judges id set e w' :=
  ⟨Nat.lt_of_lt_of_le h.next hnext, fun session hs => h.entry session (hcache ▸ hs)⟩

theorem Judges.put (h : Judges id set e w) (i : Int64)
    (hsession : i = id → session.recentMsgIds = set → session.criteria = e)
    (hcache : w'.state.cache = update w.state.cache i (some session))
    (hnext : w.state.nextRecent ≤ w'.state.nextRecent) : Judges id set e w' := by
  refine ⟨Nat.lt_of_lt_of_le h.next hnext, fun s hs => ?_⟩
  rw [hcache] at hs
  by_cases hi : id = i
  · subst hi
    rw [update_self] at hs
    cases hs
    exact hsession rfl
  · rw [update_of_ne hi] at hs
    exact h.entry s hs

/-- A part of the handling after which the checks go by what they went by. -/
abbrev Steadily (id : Int64) (set : RecentMsgIds) (e : Criteria) (p : ServerM α) (Q : α → Prop) :
    Prop :=
  p.Maintains (Judges id set e) Q

theorem steadily_locked {f : State → (α × List Event) × State}
    (h : ∀ s trace, Judges id set e ⟨s, trace⟩ →
      Judges id set e ⟨(f s).2, (f s).1.2 ++ trace⟩ ∧ Q (f s).1.1) :
    Steadily id set e (locked f) Q :=
  Maintains.atomically fun w hw => h w.state w.trace hw

theorem steadily_record (event : Event) : Steadily id set e (record event) fun _ => True :=
  steadily_locked fun _ _ h => ⟨h.of_cache rfl (Nat.le_refl _), trivial⟩

theorem steadily_sql (f : Statement α) : Steadily id set e (sql f) fun _ => True := by
  refine Maintains.bind (Q := fun _ => True)
    (steadily_locked fun _ _ h => ⟨h.of_cache rfl (Nat.le_refl _), trivial⟩) fun result _ => ?_
  cases result with
  | ok a => exact Maintains.pure trivial
  | error e => exact Maintains.fail _

theorem steadily_orPanic (x : Option α) : Steadily id set e (orPanic x) fun a => x = some a := by
  cases x with
  | none => exact Maintains.fail _
  | some a => exact Maintains.pure rfl

theorem steadily_quietly {p : ServerM α} (hp : Quietly p) :
    Steadily id set e p fun _ => True :=
  Maintains.of_always hp.always fun hq hj => hj.of_cache hq.cache (Nat.le_of_eq hq.nextRecent.symm)

theorem steadily_getSession (conn : ConnId) (i : Int64) (mark : SessionData → List Event) :
    Steadily id set e (getSession conn i mark) fun found => i = id → Meets set e found := by
  refine Maintains.bind (Q := fun hit => i = id → Meets set e hit) ?_ fun hit hhit => ?_
  · refine steadily_locked fun s trace h => ?_
    cases hcache : s.cache i with
    | none => exact ⟨h, fun _ => nofun⟩
    | some session =>
      refine ⟨h.of_cache rfl (Nat.le_refl _), ?_⟩
      rintro rfl _ ⟨⟩
      exact h.entry session hcache
  · cases hit with
    | some session => exact Maintains.pure hhit
    | none =>
      refine (steadily_sql _).bind fun row _ => ?_
      cases row with
      | none => exact Maintains.pure fun _ => nofun
      | some full =>
        refine Maintains.bind (Q := fun session => session.recentMsgIds ≠ set)
          (steadily_locked fun s trace h => ?_) fun session hne => Maintains.pure ?_
        · refine ⟨h.put i (fun _ hset => ?_) rfl (Nat.le_succ _), (Nat.ne_of_lt h.next).symm⟩
          exact absurd hset (Nat.ne_of_lt h.next).symm
        · rintro - _ ⟨⟩ hset
          exact absurd hset hne

theorem steadily_updateSession (conn : ConnId) (i : Int64) (session : SessionData)
    (saved cached : List Event)
    (h : i = id → session.recentMsgIds = set → session.criteria = e) :
    Steadily id set e (updateSession conn i session saved cached) fun _ => True :=
  Maintains.bind (Q := fun _ => True)
    (steadily_locked fun _ _ hj => ⟨hj.of_cache rfl (Nat.le_refl _), trivial⟩) fun _ _ =>
      steadily_locked fun _ _ hj => ⟨hj.put i h rfl (Nat.le_refl _), trivial⟩

theorem steadily_transportSend (conn : ConnId) (data : Bytes) (events : List Event) :
    Steadily id set e (transportSend conn data events) fun _ => True := by
  unfold transportSend
  split
  · exact steadily_locked fun _ _ h => ⟨h.of_cache rfl (Nat.le_refl _), trivial⟩
  · exact Maintains.fail _

variable [Platform]

theorem steadily_reserveResponse (conn : ConnId) (i : Int64) :
    Steadily id set e (reserveResponse conn i) fun _ => True := by
  refine (steadily_getSession conn i _).bind fun found hfound => ?_
  cases found with
  | none => exact Maintains.pure trivial
  | some session =>
    refine (steadily_orPanic _).bind fun seq _ => ?_
    refine (steadily_updateSession conn i _ _ _ fun hi hset => ?_).bind fun _ _ => ?_
    · exact hfound hi session rfl hset
    · exact (steadily_sql _).bind fun _ _ => Maintains.pure trivial

omit [Platform] in
theorem steadily_storeCounters (conn : ConnId) (i : Int64) (crypto : SessionCrypto)
    (hcrypto : i = id → inbound crypto = e.inbound) :
    Steadily id set e (storeCounters conn i crypto) fun _ => True := by
  refine (steadily_getSession conn i _).bind fun found hfound => ?_
  cases found with
  | none => exact Maintains.pure trivial
  | some session =>
    refine (steadily_sql _).bind fun _ _ => steadily_updateSession conn i _ _ _ fun hi hset => ?_
    have hsession := hfound hi session rfl hset
    unfold SessionData.criteria
    dsimp only
    rw [hcrypto hi, ← hsession]
    rfl

theorem steadily_respond (draws : FrameDraws) (conn : ConnId) (session : Option FrameSession)
    (data : Bytes) (hsession : ∀ s, session = some s → s.id = id → inbound s.crypto = e.inbound) :
    Steadily id set e (respond draws conn session data) fun _ => True := by
  cases session with
  | none => exact steadily_transportSend conn data []
  | some session =>
    refine (steadily_reserveResponse conn session.id).bind fun ⟨seqNo, counter⟩ _ => ?_
    refine (steadily_orPanic _).bind fun sealed hsealed => ?_
    obtain ⟨sendCounter, -, heq⟩ := encryptOutgoingServer_some hsealed
    refine (steadily_storeCounters conn session.id _ fun hi => ?_).bind fun _ _ =>
      steadily_transportSend conn _ _
    rw [heq]
    exact hsession session rfl hi

theorem steadily_handleSignUp (draws : Draws) (conn : ConnId) (authKeyId : Option Int64)
    (req : SignUp) : Steadily id set e (handleSignUp draws conn authKeyId req) fun _ => True := by
  refine (steadily_sql _).bind fun userId _ => ?_
  cases authKeyId with
  | none => exact Maintains.pure trivial
  | some i =>
    refine (steadily_sql _).bind fun _ _ => (steadily_getSession conn i _).bind
      fun found hfound => ?_
    cases found with
    | none => exact Maintains.pure trivial
    | some session =>
      refine (steadily_updateSession conn i _ _ _ fun hi hset => ?_).bind fun _ _ =>
        Maintains.pure trivial
      exact hfound hi session rfl hset

theorem steadily_establish (statics : Statics) (conn : ConnId) (req : SetClientDHParams)
    (entry : Handshake) (inner : ClientDHInnerData) :
    Steadily id set e (establish statics conn req entry inner) fun _ => True := by
  refine Maintains.bind (Q := fun _ => True)
    (steadily_locked fun _ _ hj => ⟨hj.of_cache rfl (Nat.le_refl _), trivial⟩) fun _ _ => ?_
  refine Maintains.bind (Q := fun recent => recent ≠ set) (steadily_locked fun _ _ hj =>
    ⟨hj.of_cache rfl (Nat.le_succ _), (Nat.ne_of_lt hj.next).symm⟩) fun recent hne => ?_
  refine (steadily_updateSession conn _ _ _ _ fun _ hset => absurd hset hne).bind fun _ _ => ?_
  exact (steadily_quietly (quiet_removeHandshake _)).bind fun _ _ => Maintains.pure trivial

theorem steadily_handleRequest (statics : Statics) (draws : Draws) (conn : ConnId) (obj : TlObject)
    (authKeyId : Option Int64) :
    Steadily id set e (handleRequest statics draws conn obj authKeyId) fun _ => True := by
  rcases handleRequest_cases authKeyId statics draws conn obj with ⟨req, rfl⟩ | ⟨req, rfl⟩ | hquiet
  · exact steadily_handleSignUp draws conn authKeyId req
  · change Steadily id set e (handleSetClientDhParams statics draws conn req) fun _ => True
    rw [handleSetClientDhParams_eq]
    refine (steadily_quietly (quiet_cleanHandshakeStore _)).bind fun _ _ => ?_
    refine (steadily_quietly (quiet_getHandshake _)).bind fun found _ => ?_
    cases found with
    | none => exact Maintains.fail _
    | some entry =>
      rcases finishWith_cases statics conn req entry with ⟨e, heq, -⟩ | ⟨inner, -, heq⟩
      · rw [heq]
        exact Maintains.fail e
      · rw [heq]
        exact steadily_establish statics conn req entry inner
  · exact steadily_quietly hquiet

/-- Once a frame has been accepted, the checks go by the session as it was put back then. -/
theorem steadily_dispatch (statics : Statics) (draws : FrameDraws) (conn : ConnId)
    (session : Option FrameSession) (tlData : Bytes)
    (hsession : ∀ s, session = some s → s.id = id → inbound s.crypto = e.inbound) :
    Steadily id set e (dispatch statics draws conn session tlData) fun _ => True := by
  unfold dispatch
  cases TlObject.readBoxed.run tlData with
  | err e => exact Maintains.pure trivial
  | panic => exact Maintains.fail _
  | ok obj rest =>
    refine (steadily_record _).bind fun _ _ => (steadily_handleRequest _ _ _ _ _).bind
      fun reply _ => ?_
    cases reply with
    | none => exact Maintains.pure trivial
    | some data => exact (steadily_respond _ _ _ _ hsession).bind fun _ _ => Maintains.pure trivial

end Keeping

end KoSta.Server
