import KoSta.Server.Coupling

/-! What a turn of one session leaves to the others. -/
namespace KoSta.Server
open Lib Lib.Prog Tl Crypto Function

variable {α β : Type} {w₀ w w' : World} {conn : ConnId} {id : Int64} {session : SessionData}

/-- No other session's entry has this recent set. -/
def Free (id : Int64) (w₀ : World) (set : RecentMsgIds) : Prop :=
  ∀ i ≠ id, ∀ session, w₀.state.cache i = some session → session.recentMsgIds ≠ set

/-- Of every other session the row, the entry and the recent set are still what they were. -/
structure Undisturbed (id : Int64) (w₀ w : World) : Prop where
  rows : ∀ i ≠ id, w.row i = w₀.row i
  entries : ∀ i ≠ id, w.state.cache i = w₀.state.cache i
  recents : ∀ i ≠ id, ∀ session, w₀.state.cache i = some session →
    w.state.recents session.recentMsgIds = w₀.state.recents session.recentMsgIds
  next : w₀.state.nextRecent ≤ w.state.nextRecent
  own : ∀ session, w.state.cache id = some session → Free id w₀ session.recentMsgIds

theorem Owned.undisturbed (h : Owned w) (id : Int64) : Undisturbed id w w where
  rows _ _ := rfl
  entries _ _ := rfl
  recents _ _ _ _ := rfl
  next := Nat.le_refl _
  own session hentry i hi session' hentry' hsame :=
    hi (h.apart i id session' session hentry' hentry hsame)

/-- A recent set that is created now is nobody's. -/
theorem Undisturbed.free_next (h : Undisturbed id w₀ w) (howned : Owned w₀) :
    Free id w₀ w.state.nextRecent := by
  intro i _ session hentry hsame
  have hbelow := howned.below i session hentry
  have hnext := h.next
  rw [hsame] at hbelow
  exact Nat.lt_irrefl _ (Nat.lt_of_lt_of_le hbelow hnext)

theorem Undisturbed.of_eq (h : Undisturbed id w₀ w)
    (hrows : w'.state.db.sessions = w.state.db.sessions) (hcache : w'.state.cache = w.state.cache)
    (hrecents : w'.state.recents = w.state.recents)
    (hnext : w'.state.nextRecent = w.state.nextRecent) : Undisturbed id w₀ w' where
  rows i hi := (congrFun hrows i).trans (h.rows i hi)
  entries i hi := (congrFun hcache i).trans (h.entries i hi)
  recents i hi session hentry := (congrFun hrecents _).trans (h.recents i hi session hentry)
  next := hnext ▸ h.next
  own session hentry := h.own session (hcache ▸ hentry)

theorem Undisturbed.quiet (h : Undisturbed id w₀ w) (hquiet : Quiet w w') :
    Undisturbed id w₀ w' :=
  h.of_eq hquiet.sessions hquiet.cache hquiet.recents hquiet.nextRecent

theorem Undisturbed.log (h : Undisturbed id w₀ w) (events : List Event) :
    Undisturbed id w₀ (w.log events) := h.of_eq rfl rfl rfl rfl

theorem Undisturbed.putEntry (h : Undisturbed id w₀ w) (hset : Free id w₀ session.recentMsgIds)
    (events : List Event) : Undisturbed id w₀ (w.putEntry id session events) where
  rows := h.rows
  entries i hi := by
    change update w.state.cache id (some session) i = _
    rw [update_of_ne hi]
    exact h.entries i hi
  recents := h.recents
  next := h.next
  own session' hentry := by
    change update w.state.cache id (some session) id = some session' at hentry
    rw [update_self] at hentry
    cases hentry
    exact hset

theorem Undisturbed.renew (h : Undisturbed id w₀ w) (howned : Owned w₀) :
    Undisturbed id w₀ w.renew where
  rows := h.rows
  entries := h.entries
  recents i hi session hentry := by
    have hne := h.free_next howned i hi session hentry
    exact (update_of_ne hne [] w.state.recents).trans (h.recents i hi session hentry)
  next := Nat.le_succ_of_le h.next
  own := h.own

theorem Undisturbed.load (h : Undisturbed id w₀ w) (howned : Owned w₀) (full : FullSession)
    (events : List Event) : Undisturbed id w₀ (w.load id full events) := by
  have hfree : Free id w₀ (sessionOfRow id full w.state.nextRecent).recentMsgIds :=
    h.free_next howned
  exact (h.renew howned).putEntry hfree events

theorem Undisturbed.save (h : Undisturbed id w₀ w) {row : FullSession} (hrow : row.authKeyId = id)
    (events : List Event) : Undisturbed id w₀ (w.save row events) where
  rows i hi := (if_neg (hrow ▸ hi)).trans (h.rows i hi)
  entries := h.entries
  recents := h.recents
  next := h.next
  own := h.own

theorem Undisturbed.modifyRow (h : Undisturbed id w₀ w) (f : FullSession → FullSession) :
    Undisturbed id w₀ (w.modifyRow id f) where
  rows i hi := (if_neg hi).trans (h.rows i hi)
  entries := h.entries
  recents := h.recents
  next := h.next
  own := h.own

theorem Undisturbed.pass (h : Undisturbed id w₀ w) (hset : Free id w₀ session.recentMsgIds)
    (conn : ConnId) (msgId : Int64) : Undisturbed id w₀ (w.pass conn id session msgId) where
  rows := h.rows
  entries := h.entries
  recents i hi session' hentry :=
    (update_of_ne (hset i hi session' hentry) _ w.state.recents).trans
      (h.recents i hi session' hentry)
  next := h.next
  own := h.own

/-! ### Programs -/

section Programs

variable {Q : α → Prop}

/-- Whatever the program does, it does to this session. -/
abbrev Minds (id : Int64) (w₀ : World) (Q : α → Prop) (p : ServerM α) : Prop :=
  p.Maintains (Undisturbed id w₀) Q

theorem minds_locked {f : State → (α × List Event) × State}
    (h : ∀ w, Undisturbed id w₀ w →
      Undisturbed id w₀ ⟨(f w.state).2, (f w.state).1.2 ++ w.trace⟩ ∧ Q (f w.state).1.1) :
    Minds id w₀ Q (locked f) := h

theorem minds_quietly {p : ServerM α} (h : Quietly p) : Minds id w₀ (fun _ => True) p :=
  Maintains.of_always h.always fun hquiet hu => hu.quiet hquiet

theorem minds_modifyRow (f : FullSession → FullSession) :
    Minds id w₀ (fun _ => True) (sql fun db => (.ok (), db.modifySession id f)) := by
  refine Maintains.bind (Q := fun _ => True) (fun _ hu => ⟨hu.modifyRow f, trivial⟩)
    fun result _ => ?_
  cases result with
  | ok a => exact Maintains.pure trivial
  | error e => exact Maintains.fail _

theorem minds_orPanic (x : Option α) : Minds id w₀ (fun _ => True) (orPanic x) := by
  cases x with
  | none => exact Maintains.fail _
  | some a => exact Maintains.pure trivial

theorem minds_transportSend (data : Bytes) (events : List Event) :
    Minds id w₀ (fun _ => True) (transportSend conn data events) := by
  unfold transportSend
  split
  · exact minds_locked fun _ hu => ⟨hu.log _, trivial⟩
  · exact Maintains.fail _

variable (howned : Owned w₀)

include howned

/-- What a lookup finds has a recent set of its own. -/
theorem minds_getSession (mark : SessionData → List Event) :
    Minds id w₀ (fun found => ∀ session, found = some session → Free id w₀ session.recentMsgIds)
      (getSession conn id mark) := by
  refine Maintains.bind (Q := fun hit => ∀ session, hit = some session →
    Free id w₀ session.recentMsgIds) (minds_locked fun w hu => ?_) fun hit hhit => ?_
  · cases hentry : w.state.cache id with
    | none => exact ⟨hu, nofun⟩
    | some session =>
      refine ⟨hu.log (mark session), ?_⟩
      rintro _ ⟨⟩
      exact hu.own session hentry
  · cases hit with
    | some session => exact Maintains.pure hhit
    | none =>
      refine Maintains.bind (minds_quietly (quiet_select fun _ => rfl)) fun row _ => ?_
      cases row with
      | none => exact Maintains.pure nofun
      | some full =>
        refine Maintains.bind (Q := fun session => Free id w₀ session.recentMsgIds)
          (minds_locked fun w hu => ⟨hu.load howned full _, hu.free_next howned⟩)
          fun session hsession => Maintains.pure ?_
        rintro _ ⟨⟩
        exact hsession

omit howned

theorem minds_updateSession {session : SessionData} {saved cached : List Event}
    (h : Free id w₀ session.recentMsgIds) :
    Minds id w₀ (fun _ => True) (updateSession conn id session saved cached) :=
  Maintains.bind (Q := fun _ => True) (minds_locked fun _ hu => ⟨hu.save rfl saved, trivial⟩)
    fun _ _ => minds_locked fun _ hu => ⟨hu.putEntry h _, trivial⟩

theorem minds_recordMsgId {session : SessionData} (h : Free id w₀ session.recentMsgIds)
    (msgId : Int64) : Minds id w₀ (fun _ => True) (recordMsgId conn id session msgId) := by
  refine minds_locked fun w hu => ?_
  dsimp only
  split
  · exact ⟨hu, trivial⟩
  · exact ⟨hu.pass h conn msgId, trivial⟩

theorem minds_commitFrame {session : SessionData} {crypto : SessionCrypto} {msgId : Int64}
    {seqNo : Int32} (h : Free id w₀ session.recentMsgIds) :
    Minds id w₀ (fun _ => True) (commitFrame conn id session crypto msgId seqNo) := by
  refine Maintains.bind (minds_modifyRow _) fun _ _ => ?_
  refine Maintains.bind (minds_modifyRow _) fun _ _ => ?_
  exact minds_updateSession h

include howned

theorem minds_addressedSession (conn : ConnId) {raw : Bytes} (h : frameAuthKeyId raw = id) :
    Minds id w₀ (fun _ => True) (addressedSession conn raw) := by
  subst h
  unfold addressedSession
  refine Maintains.ite (Maintains.ite (Maintains.pure trivial) ?_) (Maintains.pure trivial)
  refine Maintains.bind (minds_getSession howned _) fun found _ => ?_
  cases found <;> exact Maintains.pure trivial

theorem minds_storeCounters (crypto : SessionCrypto) :
    Minds id w₀ (fun _ => True) (storeCounters conn id crypto) := by
  refine Maintains.bind (minds_getSession howned _) fun found hfound => ?_
  cases found with
  | none => exact Maintains.pure trivial
  | some session =>
    refine Maintains.bind (minds_modifyRow _) fun _ _ => ?_
    have hupdate : Minds id w₀ (fun _ => True) (updateSession conn id
        { session with
          crypto, sendCounter := crypto.sendCounter, recvCounter := crypto.recvCounter } [] []) :=
      minds_updateSession (hfound session rfl)
    exact hupdate

end Programs

/-! ### Turns -/

section Turns

variable [Platform] (howned : Owned w₀)

theorem minds_acceptMessage {session : SessionData} {crypto : SessionCrypto} (now : Nat)
    (plaintext : Bytes) (h : Free id w₀ session.recentMsgIds) :
    Minds id w₀ (fun _ => True) (acceptMessage now conn id session crypto plaintext) := by
  refine Maintains.bind (minds_quietly (quiet_readFrom _ _)) fun header _ => ?_
  obtain ⟨⟨msgId, seqNo⟩, tlData⟩ := header
  refine Maintains.ite (Maintains.pure trivial) ?_
  refine Maintains.bind (minds_recordMsgId h msgId) fun _ _ => ?_
  refine Maintains.ite (Maintains.pure trivial) ?_
  refine Maintains.bind (minds_orPanic _) fun _ _ => ?_
  refine Maintains.ite (Maintains.pure trivial) ?_
  refine Maintains.bind (minds_orPanic _) fun _ _ => ?_
  refine Maintains.ite (Maintains.pure trivial) ?_
  exact Maintains.bind (minds_commitFrame h) fun _ _ => Maintains.pure trivial

include howned

theorem minds_receiveEncrypted (now : Nat) (conn : ConnId) (raw : Bytes) :
    Minds id w₀ (fun _ => True) (receiveEncrypted now conn id raw) := by
  refine Maintains.bind (minds_getSession howned _) fun found hfound => ?_
  cases found with
  | none => exact Maintains.fail _
  | some session =>
    refine Maintains.ite (Maintains.pure trivial) ?_
    split
    · exact Maintains.fail _
    · exact Maintains.pure trivial
    · exact minds_acceptMessage now _ (hfound session rfl)

theorem minds_handleSignUp (draws : Draws) (req : SignUp) :
    Minds id w₀ (fun _ => True) (handleSignUp draws conn (some id) req) := by
  refine Maintains.bind (minds_quietly (quiet_sql (keepsSessions_insertUser _ _)))
    fun userId _ => ?_
  refine Maintains.bind (minds_modifyRow _) fun _ _ => ?_
  refine Maintains.bind (minds_getSession howned _) fun found hfound => ?_
  cases found with
  | none => exact Maintains.pure trivial
  | some session =>
    have hupdate : Minds id w₀ (fun _ => True)
        (updateSession conn id { session with userId } [] []) :=
      minds_updateSession (hfound session rfl)
    exact Maintains.bind hupdate fun _ _ => Maintains.pure trivial

/-- Only a key exchange can write another session. -/
theorem minds_handleRequest (statics : Statics) (draws : Draws) {obj : TlObject}
    (hset : ∀ req, obj ≠ .setClientDHParams req) :
    Minds id w₀ (fun _ => True) (handleRequest statics draws conn obj (some id)) := by
  rcases handleRequest_cases (some id) statics draws conn obj with ⟨req, rfl⟩ | ⟨req, rfl⟩ | hquiet
  · exact minds_handleSignUp howned draws req
  · exact absurd rfl (hset req)
  · exact minds_quietly hquiet

theorem minds_reserveResponse : Minds id w₀ (fun _ => True) (reserveResponse conn id) := by
  refine Maintains.bind (minds_getSession howned _) fun found hfound => ?_
  cases found with
  | none => exact Maintains.pure trivial
  | some session =>
    refine Maintains.bind (minds_orPanic _) fun seq _ => ?_
    have hupdate : Minds id w₀ (fun _ => True) (updateSession conn id
        { session with sendSeqNo := seq, msgIdCounter := session.msgIdCounter + 1 }
        [.reserved conn id session.msgIdCounter] []) := minds_updateSession (hfound session rfl)
    refine Maintains.bind hupdate fun _ _ => ?_
    exact Maintains.bind (minds_modifyRow _) fun _ _ => Maintains.pure trivial

theorem minds_finishTurn (draws : FrameDraws) {s : FrameSession} (hs : s.id = id)
    (reply : Option Bytes) :
    Minds id w₀ (fun _ => True) (finishTurn draws conn (some s) reply) := by
  subst hs
  cases reply with
  | none => exact Maintains.pure trivial
  | some data =>
    refine Maintains.bind (Q := fun _ => True) ?_ fun _ _ => Maintains.pure trivial
    refine Maintains.bind (minds_reserveResponse howned) fun reserved _ => ?_
    refine Maintains.bind (minds_orPanic _) fun sealed _ => ?_
    refine Maintains.bind (minds_storeCounters howned _) fun _ _ => ?_
    exact minds_transportSend _ _

end Turns

/-- Recent sets that belong to one session each still do after a turn. -/
theorem owned_serve [Platform] (h : Owned w) (statics : Statics) (draws : FrameDraws)
    (conn : ConnId) (raw : Bytes) : Owned ((serve statics draws conn raw).exec w).2 := by
  have hself : Coupled none w w :=
    { db := rfl, handshakes := rfl, sessions := fun _ => rfl, owned := h, owned' := h, told := rfl
      held := nofun }
  exact (hself.happen statics [.frame ⟨draws, conn, raw⟩]).owned

end KoSta.Server
