import KoSta.Server.Accounts

/-! What the connections have in hand of the cached sessions, and the invariant of the replay
check. -/
namespace KoSta.Server
open Lib Lib.Prog Tl Crypto Function

variable {conn c d : ConnId} {ph ph' : Phase} {w w' : World} {id : Int64} {session : SessionData}

/-! ### What the connections have in hand -/

/-- A clone of a session that is in use, with the message id it has let pass. -/
structure Clone where
  id : Int64
  session : SessionData
  passed : Option Int64

/-- What the connection has in hand after an event, if the event says so. -/
def Event.hand? (conn : ConnId) : Event → Option (Option Clone)
  | .lookedUp c id session => if c = conn then some (some ⟨id, session, none⟩) else none
  | .passed c id session msgId => if c = conn then some (some ⟨id, session, some msgId⟩) else none
  | .put c _ _ | .finished c _ => if c = conn then some none else none
  | .restarted => some none
  | _ => none

/-- The clone a connection has looked up and not yet put back. -/
def inHand (trace : List Event) (conn : ConnId) : Option Clone :=
  (trace.findSome? (Event.hand? conn)).join

def Event.acceptance? : Event → Option (Int64 × Int64)
  | .accepted _ id msgId => some (id, msgId)
  | _ => none

def Event.dispatch? : Event → Option (Int64 × Int64)
  | .dispatched _ session _ => session
  | _ => none

/-- The sessions and message ids of all frames that have been dispatched, newest first. -/
def dispatches (trace : List Event) : List (Int64 × Int64) := trace.filterMap Event.dispatch?

/-- What the replay check has to do with. -/
structure Watch where
  cache : Int64 → Option SessionData
  recents : RecentMsgIds → List Int64
  nextRecent : RecentMsgIds
  hands : ConnId → Option Clone
  accepted : List (Int64 × Int64)
  dispatched : List (Int64 × Int64)

def World.watch (w : World) : Watch where
  cache := w.state.cache
  recents := w.state.recents
  nextRecent := w.state.nextRecent
  hands := inHand w.trace
  accepted := w.trace.filterMap Event.acceptance?
  dispatched := dispatches w.trace

namespace Watch

/-- The cached session, and the clones in hand with the ids they have let pass. -/
inductive Kept (v : Watch) (id : Int64) : SessionData → Option Int64 → Prop where
  | entry {session : SessionData} : v.cache id = some session → Kept v id session none
  | hand {conn : ConnId} {session : SessionData} {passed : Option Int64} :
    v.hands conn = some ⟨id, session, passed⟩ → Kept v id session passed

/-- The message id has been accepted, or it has passed the replay check and may be. -/
def Claimed (v : Watch) (id msgId : Int64) : Prop :=
  (id, msgId) ∈ v.accepted ∨ ∃ conn session, v.hands conn = some ⟨id, session, some msgId⟩

/-- A frame with this id is a replay by the lights of this session. -/
def Covers (v : Watch) (session : SessionData) (msgId : Int64) : Prop :=
  msgId ≤ session.lastRecvMsgId ∨ msgId ∈ v.recents session.recentMsgIds

/-- A session enters the cache with a recent set of its own only while nobody has a clone of it
in hand and with a last id no accepted one is above, and no set forgets an id that is still
needed. -/
structure Careful (v v' : Watch) : Prop where
  enters : ∀ id session, v'.cache id = some session → v.cache id ≠ some session →
    (∃ conn clone, v.hands conn = some clone ∧ clone.id = id ∧
      clone.session.recentMsgIds = session.recentMsgIds) ∨
    (∀ conn clone, v.hands conn = some clone → clone.id ≠ id) ∧
      ∀ msgId, (id, msgId) ∈ v.accepted → msgId ≤ session.lastRecvMsgId
  remembers : ∀ id msgId session passed, v.Claimed id msgId → v.Kept id session passed →
    passed ≠ some msgId → v.Covers session msgId → v'.Covers session msgId

/-! #### Changes -/

def hold (v : Watch) (conn : ConnId) (hand : Option Clone) : Watch :=
  { v with hands := update v.hands conn hand }

def put (v : Watch) (id : Int64) (session : SessionData) : Watch :=
  { v with cache := update v.cache id (some session) }

def renew (v : Watch) : Watch :=
  { v with recents := update v.recents v.nextRecent [], nextRecent := v.nextRecent + 1 }

def pass (v : Watch) (session : SessionData) (msgId : Int64) : Watch :=
  { v with
    recents := update v.recents session.recentMsgIds
      ((msgId :: v.recents session.recentMsgIds).take recentCapacity) }

def accept (v : Watch) (id msgId : Int64) : Watch :=
  { v with accepted := (id, msgId) :: v.accepted }

def dispatch (v : Watch) (id msgId : Int64) : Watch :=
  { v with dispatched := (id, msgId) :: v.dispatched }

@[simp] theorem hold_self (v : Watch) (conn : ConnId) (hand : Option Clone) :
    (v.hold conn hand).hands conn = hand := update_self _ _ _

theorem hold_of_ne (v : Watch) (hand : Option Clone) (h : c ≠ conn) :
    (v.hold conn hand).hands c = v.hands c := update_of_ne h _ _

@[simp] theorem put_self (v : Watch) (id : Int64) (session : SessionData) :
    (v.put id session).cache id = some session := update_self _ _ _

theorem put_of_ne (v : Watch) (session : SessionData) {id₀ : Int64} (h : id ≠ id₀) :
    (v.put id₀ session).cache id = v.cache id := update_of_ne h _ _

end Watch

/-! ### What a turn does with sets and clones -/

/-- What a connection has in hand in this phase. -/
def Phase.Holding : Phase → Option Clone → Prop
  | .looked id _ session, hand => hand = some ⟨id, session, none⟩
  | .passed id session msgId, hand =>
    hand = some ⟨id, session, some msgId⟩ ∧ session.lastRecvMsgId < msgId
  | .committing id session, hand | .committed id session, hand =>
    ∃ clone, hand = some ⟨id, clone, some session.lastRecvMsgId⟩ ∧
      clone.recentMsgIds = session.recentMsgIds ∧ clone.lastRecvMsgId < session.lastRecvMsgId
  | .saved id session _ _, hand | .settling id session _ _, hand | .stored id session _ _, hand =>
    ∃ clone, hand = some ⟨id, clone, none⟩ ∧
      clone.recentMsgIds = session.recentMsgIds ∧ clone.lastRecvMsgId = session.lastRecvMsgId
  | _, hand => hand = none

/-- The message that has passed the replay check and may still be dispatched in this turn. -/
def Phase.token? : Phase → Option (Int64 × Int64)
  | .passed id _ msgId => some (id, msgId)
  | .committing id session | .committed id session => some (id, session.lastRecvMsgId)
  | .pending session => some (session.id, session.msgId)
  | _ => none

/-- The recent set of a session that is being created. -/
def Phase.set? : Phase → Option RecentMsgIds
  | .renewed _ session _ => some session.recentMsgIds
  | _ => none

/-- The phase that follows has nothing in hand but this. -/
structure Phase.Plain (ph : Phase) (hand : Option Clone) : Prop where
  holding : ph.Holding hand
  token : ph.token? = none
  set : ph.set? = none

/-- What a move does with recent sets, clones and message ids. -/
inductive Handles (conn : ConnId) : Phase → Watch → Watch → Phase → Prop where
  | keep {ph ph' : Phase} {v : Watch} : (∀ hand, ph.Holding hand → ph'.Holding hand) →
    (∀ token, ph'.token? = some token → ph.token? = some token) →
    (∀ set, ph'.set? = some set → ph.set? = some set) → Handles conn ph v v ph'
  | take {ph ph' : Phase} {v : Watch} {id : Int64} {session : SessionData} :
    v.cache id = some session → ph.Holding none →
    ph'.Plain (some ⟨id, session, none⟩) →
    Handles conn ph v (v.hold conn (some ⟨id, session, none⟩)) ph'
  | load {ph ph' : Phase} {v : Watch} {id : Int64} {session : SessionData} {hand : Option Clone} :
    session.recentMsgIds = v.nextRecent →
    hand = none ∨ hand = some ⟨id, session, none⟩ → ph'.Plain hand →
    Handles conn ph v ((v.renew.put id session).hold conn hand) ph'
  | pass {v : Watch} {id msgId : Int64} {session : SessionData} : session.lastRecvMsgId < msgId →
    msgId ∉ v.recents session.recentMsgIds →
    Handles conn (.looked id .receive session) v
      ((v.pass session msgId).hold conn (some ⟨id, session, some msgId⟩)) (.passed id session msgId)
  | accept {v : Watch} {id : Int64} {session : SessionData} : Handles conn (.committed id session) v
    (((v.accept id session.lastRecvMsgId).put id session).hold conn none)
    (.pending ⟨id, session.lastRecvMsgId, session.crypto⟩)
  | put {ph ph' : Phase} {v : Watch} {id : Int64} {session : SessionData} :
    (∀ hand, ph.Holding hand → ∃ clone, hand = some ⟨id, clone, none⟩ ∧
      clone.recentMsgIds = session.recentMsgIds ∧ clone.lastRecvMsgId = session.lastRecvMsgId) →
    ph'.Plain none → Handles conn ph v ((v.put id session).hold conn none) ph'
  | renew {v : Watch} {id : Int64} {session : SessionData} {back : Option FrameSession} :
    Handles conn (.creating id session back) v v.renew
    (.renewed id { session with recentMsgIds := v.nextRecent } back)
  | create {v : Watch} {id : Int64} {session : SessionData} {back : Option FrameSession} :
    Handles conn (.renewed id session back) v
    ((v.put id session).hold conn none) (.serving back)
  | dispatch {v : Watch} {session : FrameSession} : Handles conn (.pending session) v
    (v.dispatch session.id session.msgId) (.serving (some session))
  | finish {ph : Phase} {v : Watch} : Handles conn ph v (v.hold conn none) .idle

theorem plain_serving (back : Option FrameSession) : (Phase.serving back).Plain none := by
  cases back with
  | none => exact ⟨rfl, rfl, rfl⟩
  | some session => exact ⟨rfl, rfl, rfl⟩

theorem inHand_self {e : Event} {hand : Option Clone} (h : e.hand? conn = some hand)
    (hother : ∀ c, c ≠ conn → e.hand? c = none) (trace : List Event) :
    inHand (e :: trace) = update (inHand trace) conn hand := by
  funext c
  by_cases hc : c = conn
  · subst hc
    rw [update_self, inHand, List.findSome?_cons_of_isSome (by rw [h]; rfl), h]
    rfl
  · rw [update_of_ne hc, inHand, List.findSome?_cons, hother c hc]
    rfl

theorem inHand_lookedUp (trace : List Event) :
    inHand (.lookedUp conn id session :: trace) =
      update (inHand trace) conn (some ⟨id, session, none⟩) :=
  inHand_self (by exact if_pos rfl) (fun _ hc => by exact if_neg (Ne.symm hc)) trace

theorem inHand_passed (msgId : Int64) (trace : List Event) :
    inHand (.passed conn id session msgId :: trace) =
      update (inHand trace) conn (some ⟨id, session, some msgId⟩) :=
  inHand_self (by exact if_pos rfl) (fun _ hc => by exact if_neg (Ne.symm hc)) trace

theorem inHand_put (trace : List Event) :
    inHand (.put conn id session :: trace) = update (inHand trace) conn none :=
  inHand_self (by exact if_pos rfl) (fun _ hc => by exact if_neg (Ne.symm hc)) trace

theorem inHand_finished (result : Except Stop Verdict) (trace : List Event) :
    inHand (.finished conn result :: trace) = update (inHand trace) conn none :=
  inHand_self (by exact if_pos rfl) (fun _ hc => by exact if_neg (Ne.symm hc)) trace

theorem watch_quiet (h : Quiet w w') : w'.watch = w.watch := by
  unfold World.watch
  rw [h.cache, h.recents, h.nextRecent, h.trace]

theorem handles_of_move [Platform] (h : Move conn ph w w' ph') (hlost : ph ≠ .lost) :
    Handles conn ph w.watch w'.watch ph' := by
  have hkeep {ph ph' : Phase} {w w' : World} (hwatch : w'.watch = w.watch)
      (hholding : ∀ hand, ph.Holding hand → ph'.Holding hand)
      (htoken : ∀ token, ph'.token? = some token → ph.token? = some token)
      (hset : ∀ set, ph'.set? = some set → ph.set? = some set) :
      Handles conn ph w.watch w'.watch ph' := by
    rw [hwatch]
    exact .keep hholding htoken hset
  cases h with
  | quiet hq => exact hkeep (watch_quiet hq) (fun _ h => h) (fun _ h => h) fun _ h => h
  | lost => exact absurd rfl hlost
  | find | read | readHeld | lose | dispatchPlain | rename | sendState | stamp | sendPlain =>
    exact hkeep rfl (fun _ h => h) nofun nofun
  | commitCounters | commitRow | createRow =>
    exact hkeep rfl (fun _ h => h) (fun _ h => h) fun _ h => h
  | commit =>
    refine hkeep rfl ?_ (fun _ h => h) nofun
    rintro hand ⟨rfl, hlast⟩
    exact ⟨_, rfl, rfl, hlast⟩
  | saveUser | reserve | settle =>
    refine hkeep rfl ?_ nofun nofun
    rintro hand rfl
    exact ⟨_, rfl, rfl, rfl⟩
  | settleRow => exact hkeep rfl (fun _ h => h) nofun nofun
  | @establish id session back =>
    refine hkeep rfl ?_ nofun nofun
    intro hand h
    cases back with
    | none => exact h
    | some session => exact h
  | @hold id holder session w hcache =>
    have hwatch : (w.log [.lookedUp conn id session]).watch =
        w.watch.hold conn (some ⟨id, session, none⟩) :=
      congrArg (fun hands => { w.watch with hands }) (inHand_lookedUp w.trace)
    rw [hwatch]
    exact .take hcache rfl ⟨rfl, rfl, rfl⟩
  | @load id full w =>
    have hwatch : (w.load id full [.put conn id (sessionOfRow id full w.state.nextRecent)]).watch =
        (w.watch.renew.put id (sessionOfRow id full w.state.nextRecent)).hold conn none :=
      congrArg (fun hands => { w.watch.renew.put id (sessionOfRow id full w.state.nextRecent) with
        hands }) (inHand_put w.trace)
    rw [hwatch]
    exact .load rfl (Or.inl rfl) ⟨rfl, rfl, rfl⟩
  | @loadHeld id holder full w =>
    have hwatch : (w.load id full [.lookedUp conn id (sessionOfRow id full w.state.nextRecent),
        .put conn id (sessionOfRow id full w.state.nextRecent)]).watch =
        (w.watch.renew.put id (sessionOfRow id full w.state.nextRecent)).hold conn
          (some ⟨id, sessionOfRow id full w.state.nextRecent, none⟩) := by
      refine congrArg (fun hands =>
        { w.watch.renew.put id (sessionOfRow id full w.state.nextRecent) with hands }) ?_
      exact (inHand_lookedUp _).trans ((congrArg (update · conn _) (inHand_put _)).trans
        (update_idem _ _ _))
    rw [hwatch]
    exact .load rfl (Or.inr rfl) ⟨rfl, rfl, rfl⟩
  | @pass id session msgId w hlast hnot =>
    have hwatch : (w.pass conn id session msgId).watch =
        (w.watch.pass session msgId).hold conn (some ⟨id, session, some msgId⟩) :=
      congrArg (fun hands => { w.watch.pass session msgId with hands })
        (inHand_passed msgId w.trace)
    rw [hwatch]
    exact .pass hlast hnot
  | @accept id session w =>
    have hwatch : (w.putEntry id session [.accepted conn id session.lastRecvMsgId,
        .put conn id session]).watch =
        ((w.watch.accept id session.lastRecvMsgId).put id session).hold conn none :=
      congrArg (fun hands =>
        { (w.watch.accept id session.lastRecvMsgId).put id session with hands })
        (inHand_put w.trace)
    rw [hwatch]
    exact .accept
  | @putSaved id session crypto reserved w =>
    have hwatch : (w.putEntry id session [.put conn id session]).watch =
        (w.watch.put id session).hold conn none :=
      congrArg (fun hands => { w.watch.put id session with hands }) (inHand_put w.trace)
    rw [hwatch]
    exact .put (fun _ h => h) ⟨rfl, rfl, rfl⟩
  | @putSettled id session crypto reserved w =>
    have hwatch : (w.putEntry id session [.put conn id session]).watch =
        (w.watch.put id session).hold conn none :=
      congrArg (fun hands => { w.watch.put id session with hands }) (inHand_put w.trace)
    rw [hwatch]
    exact .put (fun _ h => h) ⟨rfl, rfl, rfl⟩
  | renew => exact .renew
  | @putCreated id session back w =>
    have hwatch : (w.putEntry id session [.put conn id session]).watch =
        (w.watch.put id session).hold conn none :=
      congrArg (fun hands => { w.watch.put id session with hands }) (inHand_put w.trace)
    rw [hwatch]
    exact .create
  | dispatch => exact .dispatch
  | @finish ph result w =>
    have hwatch : (w.log [.finished conn result]).watch = w.watch.hold conn none :=
      congrArg (fun hands => { w.watch with hands }) (inHand_finished result w.trace)
    rw [hwatch]
    exact .finish

/-! ### The invariant -/

/-- Whose recent set is whose: a session's entry and its clones have one and the same. -/
structure Sets (phs : ConnId → Phase) (v : Watch) : Prop where
  below : ∀ id session passed, v.Kept id session passed → session.recentMsgIds < v.nextRecent
  shared : ∀ id session passed session' passed', v.Kept id session passed →
    v.Kept id session' passed' → session.recentMsgIds = session'.recentMsgIds
  fresh : ∀ c set, (phs c).set? = some set → set < v.nextRecent ∧
    ∀ id session passed, v.Kept id session passed → session.recentMsgIds ≠ set
  apart : ∀ c d set, (phs c).set? = some set → (phs d).set? = some set → c = d

/-- Whatever may still be dispatched is in one turn's hands and has not been dispatched. -/
structure Tokens (phs : ConnId → Phase) (v : Watch) : Prop where
  claims : ∀ c token, (phs c).token? = some token → token ∈ v.accepted ∨
    ∃ session, v.hands c = some ⟨token.1, session, some token.2⟩
  apart : ∀ c d token, (phs c).token? = some token → (phs d).token? = some token → c = d
  undispatched : ∀ c token, (phs c).token? = some token → token ∉ v.dispatched
  accepted : ∀ token ∈ v.dispatched, token ∈ v.accepted
  once : v.dispatched.Nodup

structure Guarded (phs : ConnId → Phase) (v : Watch) : Prop where
  holding : ∀ c, (phs c).Holding (v.hands c)
  sets : Sets phs v
  covered : ∀ id msgId session passed, v.Claimed id msgId → v.Kept id session passed →
    passed ≠ some msgId → v.Covers session msgId
  tokens : Tokens phs v

section Steps

variable {phs : ConnId → Phase} {v v' : Watch} {passed : Option Int64} {hand : Option Clone}

theorem kept_hold (h : (v.hold conn hand).Kept id session passed) :
    hand = some ⟨id, session, passed⟩ ∨ v.Kept id session passed := by
  cases h with
  | entry hcache => exact Or.inr (.entry hcache)
  | @hand c _ _ hc =>
    by_cases hcc : c = conn
    · subst hcc
      exact Or.inl ((v.hold_self c hand).symm.trans hc)
    · exact Or.inr (.hand ((v.hold_of_ne hand hcc).symm.trans hc))

/-- What is kept after a put: what was put, what is in hand, and what was kept before under
another session or in other hands. -/
theorem kept_put {id₀ : Int64} {session₀ : SessionData}
    (h : ((v.put id₀ session₀).hold conn hand).Kept id session passed) :
    hand = some ⟨id, session, passed⟩ ∨ (id = id₀ ∧ session = session₀ ∧ passed = none) ∨
      v.Kept id session passed ∧ (id = id₀ → ∃ c, v.hands c = some ⟨id, session, passed⟩) := by
  rcases kept_hold h with hhand | hkept
  · exact Or.inl hhand
  · refine Or.inr ?_
    cases hkept with
    | entry hcache =>
      by_cases hid : id = id₀
      · subst hid
        have heq : some session₀ = some session := (v.put_self id session₀).symm.trans hcache
        exact Or.inl ⟨rfl, (Option.some.inj heq).symm, rfl⟩
      · exact Or.inr ⟨.entry ((v.put_of_ne session₀ hid).symm.trans hcache), fun h => absurd h hid⟩
    | @hand c _ _ hc => exact Or.inr ⟨.hand hc, fun _ => ⟨c, hc⟩⟩

theorem kept_congr (v v' : Watch) (hcache : v'.cache = v.cache) (hhands : v'.hands = v.hands)
    (h : v'.Kept id session passed) : v.Kept id session passed := by
  cases h with
  | entry h => exact .entry (hcache ▸ h)
  | hand h => exact .hand (hhands ▸ h)

theorem claimed_hold {msgId : Int64} (h : (v.hold conn hand).Claimed id msgId) :
    (∃ session, hand = some ⟨id, session, some msgId⟩) ∨ v.Claimed id msgId := by
  rcases h with haccepted | ⟨c, session, hc⟩
  · exact Or.inr (Or.inl haccepted)
  · by_cases hcc : c = conn
    · subst hcc
      exact Or.inl ⟨session, (v.hold_self c hand).symm.trans hc⟩
    · exact Or.inr (Or.inr ⟨c, session, (v.hold_of_ne hand hcc).symm.trans hc⟩)

/-! #### Sets -/

/-- Nothing more is kept, and the turn has no new set. -/
theorem Sets.shrink (h : Sets phs v) (hnext : v.nextRecent ≤ v'.nextRecent)
    (hkept : ∀ id session passed, v'.Kept id session passed → v.Kept id session passed)
    (hset : ∀ set, ph'.set? = some set → (phs conn).set? = some set) :
    Sets (update phs conn ph') v' := by
  have hsets (c : ConnId) (set : RecentMsgIds) (hc : (update phs conn ph' c).set? = some set) :
      (phs c).set? = some set := by
    by_cases hcc : c = conn
    · subst hcc
      rw [update_self] at hc
      exact hset set hc
    · rwa [update_of_ne hcc] at hc
  constructor
  · intro id session passed hk
    exact Nat.lt_of_lt_of_le (h.below _ _ _ (hkept _ _ _ hk)) hnext
  · intro id session passed session' passed' hk hk'
    exact h.shared _ _ _ _ _ (hkept _ _ _ hk) (hkept _ _ _ hk')
  · intro c set hc
    obtain ⟨hlt, hnot⟩ := h.fresh c set (hsets c set hc)
    exact ⟨Nat.lt_of_lt_of_le hlt hnext, fun id session passed hk => hnot _ _ _ (hkept _ _ _ hk)⟩
  · exact fun c d set hc hd => h.apart c d set (hsets c set hc) (hsets d set hd)

/-- What is kept newly belongs to one session and has the set its entry and clones have. -/
theorem Sets.grow (h : Sets phs v) (id₀ : Int64) (set₀ : RecentMsgIds)
    (hnext : v.nextRecent ≤ v'.nextRecent) (hset₀ : set₀ < v'.nextRecent)
    (hkept : ∀ id session passed, v'.Kept id session passed →
      (id = id₀ ∧ session.recentMsgIds = set₀) ∨
        v.Kept id session passed ∧ (id = id₀ → session.recentMsgIds = set₀))
    (hfresh : ∀ c set, c ≠ conn → (phs c).set? = some set → set ≠ set₀) (hset : ph'.set? = none) :
    Sets (update phs conn ph') v' := by
  have hsets (c : ConnId) (set : RecentMsgIds) (hc : (update phs conn ph' c).set? = some set) :
      c ≠ conn ∧ (phs c).set? = some set := by
    by_cases hcc : c = conn
    · subst hcc
      rw [update_self, hset] at hc
      cases hc
    · rw [update_of_ne hcc] at hc
      exact ⟨hcc, hc⟩
  have hown {session : SessionData} {passed : Option Int64} (hk : v'.Kept id₀ session passed) :
      session.recentMsgIds = set₀ := by
    rcases hkept _ _ _ hk with ⟨-, heq⟩ | ⟨-, heq⟩
    · exact heq
    · exact heq rfl
  constructor
  · intro id session passed hk
    rcases hkept _ _ _ hk with ⟨-, heq⟩ | ⟨hold, -⟩
    · exact heq ▸ hset₀
    · exact Nat.lt_of_lt_of_le (h.below _ _ _ hold) hnext
  · intro id session passed session' passed' hk hk'
    by_cases hid : id = id₀
    · subst hid
      exact (hown hk).trans (hown hk').symm
    · rcases hkept _ _ _ hk with ⟨heq, -⟩ | ⟨hold, -⟩
      · exact absurd heq hid
      · rcases hkept _ _ _ hk' with ⟨heq, -⟩ | ⟨hold', -⟩
        · exact absurd heq hid
        · exact h.shared _ _ _ _ _ hold hold'
  · intro c set hc
    obtain ⟨hcc, hc⟩ := hsets c set hc
    obtain ⟨hlt, hnot⟩ := h.fresh c set hc
    refine ⟨Nat.lt_of_lt_of_le hlt hnext, fun id session passed hk => ?_⟩
    rcases hkept _ _ _ hk with ⟨-, heq⟩ | ⟨hold, -⟩
    · exact heq ▸ Ne.symm (hfresh c set hcc hc)
    · exact hnot _ _ _ hold
  · exact fun c d set hc hd => h.apart c d set (hsets c set hc).2 (hsets d set hd).2

/-! #### Tokens -/

/-- Nothing is dispatched, and no message has newly passed the check. -/
theorem Tokens.step (h : Tokens phs v) (hdispatched : v'.dispatched = v.dispatched)
    (haccepted : ∀ token ∈ v.accepted, token ∈ v'.accepted)
    (hother : ∀ c, c ≠ conn → v'.hands c = v.hands c)
    (htoken : ∀ token, ph'.token? = some token → (phs conn).token? = some token ∧
      (token ∈ v'.accepted ∨ ∃ session, v'.hands conn = some ⟨token.1, session, some token.2⟩)) :
    Tokens (update phs conn ph') v' := by
  have htokens (c : ConnId) (token : Int64 × Int64)
      (hc : (update phs conn ph' c).token? = some token) : (phs c).token? = some token := by
    by_cases hcc : c = conn
    · subst hcc
      rw [update_self] at hc
      exact (htoken token hc).1
    · rwa [update_of_ne hcc] at hc
  constructor
  · intro c token hc
    by_cases hcc : c = conn
    · subst hcc
      rw [update_self] at hc
      exact (htoken token hc).2
    · rw [hother c hcc]
      exact (h.claims c token (htokens c token hc)).imp_left (haccepted token)
  · exact fun c d token hc hd => h.apart c d token (htokens c token hc) (htokens d token hd)
  · rw [hdispatched]
    exact fun c token hc => h.undispatched c token (htokens c token hc)
  · rw [hdispatched]
    exact fun token hmem => haccepted token (h.accepted token hmem)
  · rw [hdispatched]
    exact h.once

/-! #### The steps -/

theorem holding_step (h : ∀ c, (phs c).Holding (v.hands c))
    (hother : ∀ c, c ≠ conn → v'.hands c = v.hands c) (hself : ph'.Holding (v'.hands conn))
    (c : ConnId) :
    (update phs conn ph' c).Holding (v'.hands c) := by
  by_cases hcc : c = conn
  · subst hcc
    rwa [update_self]
  · rw [update_of_ne hcc, hother c hcc]
    exact h c

theorem Guarded.keep (h : Guarded phs v)
    (hholding : ∀ hand, (phs conn).Holding hand → ph'.Holding hand)
    (htoken : ∀ token, ph'.token? = some token → (phs conn).token? = some token)
    (hset : ∀ set, ph'.set? = some set → (phs conn).set? = some set) :
    Guarded (update phs conn ph') v where
  holding := holding_step h.holding (fun _ _ => rfl) (hholding _ (h.holding conn))
  sets := h.sets.shrink (Nat.le_refl _) (fun _ _ _ hk => hk) hset
  covered := h.covered
  tokens := h.tokens.step rfl (fun _ hmem => hmem) (fun _ _ => rfl) fun token ht =>
    ⟨htoken token ht, h.tokens.claims conn token (htoken token ht)⟩

/-- A new recent set is nobody's, so nothing is known of it. -/
theorem Guarded.renew (h : Guarded phs v) : Guarded phs v.renew where
  holding := h.holding
  sets := by
    have hkept {id : Int64} {session : SessionData} {passed : Option Int64}
        (hk : v.renew.Kept id session passed) : v.Kept id session passed :=
      kept_congr v v.renew rfl rfl hk
    constructor
    · exact fun id session passed hk => Nat.lt_succ_of_lt (h.sets.below _ _ _ (hkept hk))
    · exact fun id _ _ _ _ hk hk' => h.sets.shared _ _ _ _ _ (hkept hk) (hkept hk')
    · intro c set hc
      obtain ⟨hlt, hnot⟩ := h.sets.fresh c set hc
      exact ⟨Nat.lt_succ_of_lt hlt, fun id session passed hk => hnot _ _ _ (hkept hk)⟩
    · exact h.sets.apart
  covered id msgId session passed hclaimed hkept hne := by
    have hold : v.Kept id session passed := kept_congr v v.renew rfl rfl hkept
    have hset : v.renew.recents session.recentMsgIds = v.recents session.recentMsgIds :=
      update_of_ne (Nat.ne_of_lt (h.sets.below _ _ _ hold)) _ _
    unfold Watch.Covers
    rw [hset]
    exact h.covered id msgId session passed hclaimed hold hne
  tokens := ⟨h.tokens.claims, h.tokens.apart, h.tokens.undispatched,
    h.tokens.accepted, h.tokens.once⟩

theorem Guarded.claimed (h : Guarded phs v) {msgId : Int64}
    (htoken : (phs conn).token? = some (id, msgId)) : v.Claimed id msgId := by
  rcases h.tokens.claims conn _ htoken with hmem | ⟨session, hhand⟩
  · exact Or.inl hmem
  · exact Or.inr ⟨conn, session, hhand⟩

/-- What has passed the check may be accepted. -/
theorem Guarded.accept (h : Guarded phs v) {msgId : Int64}
    (htoken : (phs conn).token? = some (id, msgId)) : Guarded phs (v.accept id msgId) where
  holding := h.holding
  sets := by
    have hkept {id₀ : Int64} {session : SessionData} {passed : Option Int64}
        (hk : (v.accept id msgId).Kept id₀ session passed) : v.Kept id₀ session passed :=
      kept_congr v (v.accept id msgId) rfl rfl hk
    exact ⟨fun _ _ _ hk => h.sets.below _ _ _ (hkept hk),
      fun _ _ _ _ _ hk hk' => h.sets.shared _ _ _ _ _ (hkept hk) (hkept hk'),
      fun c set hc => ⟨(h.sets.fresh c set hc).1,
        fun _ _ _ hk => (h.sets.fresh c set hc).2 _ _ _ (hkept hk)⟩, h.sets.apart⟩
  covered id₀ msgId₀ session passed hclaimed hkept hne := by
    refine h.covered id₀ msgId₀ session passed ?_
      (kept_congr v (v.accept id msgId) rfl rfl hkept) hne
    rcases hclaimed with hmem | hhand
    · rcases List.mem_cons.mp hmem with heq | hmem
      · cases heq
        exact h.claimed htoken
      · exact Or.inl hmem
    · exact Or.inr hhand
  tokens := ⟨fun c token hc => (h.tokens.claims c token hc).imp_left (List.mem_cons_of_mem _),
    h.tokens.apart, h.tokens.undispatched,
    fun token hmem => List.mem_cons_of_mem _ (h.tokens.accepted token hmem), h.tokens.once⟩

/-- A session enters the cache with a set of its own. -/
theorem Guarded.enter (h : Guarded phs v) (hbelow : session.recentMsgIds < v.nextRecent)
    (hfresh : ∀ c set, c ≠ conn → (phs c).set? = some set → set ≠ session.recentMsgIds)
    (hnone : ∀ c clone, v.hands c = some clone → clone.id ≠ id)
    (hbound : ∀ msgId, (id, msgId) ∈ v.accepted → msgId ≤ session.lastRecvMsgId)
    (hhand : hand = none ∨ hand = some ⟨id, session, none⟩) (hplain : ph'.Plain hand) :
    Guarded (update phs conn ph') ((v.put id session).hold conn hand) := by
  have hkept {id₀ : Int64} {session₀ : SessionData} {passed : Option Int64}
      (hk : ((v.put id session).hold conn hand).Kept id₀ session₀ passed) :
      (id₀ = id ∧ session₀ = session) ∨ v.Kept id₀ session₀ passed ∧ id₀ ≠ id := by
    rcases kept_put hk with hnew | ⟨rfl, rfl, -⟩ | ⟨hold, hc⟩
    · rcases hhand with rfl | rfl
      · cases hnew
      · cases hnew
        exact Or.inl ⟨rfl, rfl⟩
    · exact Or.inl ⟨rfl, rfl⟩
    · refine Or.inr ⟨hold, fun hid => ?_⟩
      obtain ⟨c, hc⟩ := hc hid
      exact hnone c _ hc hid
  have hclaimed {id₀ msgId : Int64} (hcl : ((v.put id session).hold conn hand).Claimed id₀ msgId) :
      v.Claimed id₀ msgId := by
    rcases claimed_hold hcl with ⟨session₀, hnew⟩ | hold
    · rcases hhand with rfl | rfl
      · cases hnew
      · cases hnew
    · exact hold
  constructor
  · refine holding_step h.holding (fun c hc => Watch.hold_of_ne _ _ hc) ?_
    rw [Watch.hold_self]
    exact hplain.holding
  · refine h.sets.grow id session.recentMsgIds (Nat.le_refl _) hbelow ?_ hfresh hplain.set
    intro id₀ session₀ passed hk
    rcases hkept hk with ⟨rfl, rfl⟩ | ⟨hold, hid⟩
    · exact Or.inl ⟨rfl, rfl⟩
    · exact Or.inr ⟨hold, fun heq => absurd heq hid⟩
  · intro id₀ msgId session₀ passed hcl hk hne
    rcases hkept hk with ⟨rfl, rfl⟩ | ⟨hold, -⟩
    · refine Or.inl ?_
      rcases hclaimed hcl with hmem | ⟨c, session, hc⟩
      · exact hbound msgId hmem
      · exact absurd rfl (hnone c _ hc)
    · exact h.covered id₀ msgId session₀ passed (hclaimed hcl) hold hne
  · refine h.tokens.step rfl (fun _ hmem => hmem) (fun c hc => Watch.hold_of_ne _ _ hc) ?_
    intro token ht
    rw [hplain.token] at ht
    cases ht

/-- A clone is put back, with a last id that has not gone back. -/
theorem Guarded.back (h : Guarded phs v) {clone : SessionData}
    (hhand : v.hands conn = some ⟨id, clone, passed⟩)
    (hset : clone.recentMsgIds = session.recentMsgIds)
    (hlast : ∀ msgId, msgId ≤ clone.lastRecvMsgId ∨ passed = some msgId →
      msgId ≤ session.lastRecvMsgId)
    (hholding : ph'.Holding none) (hnone : ph'.set? = none)
    (htoken : ∀ token, ph'.token? = some token →
      (phs conn).token? = some token ∧ token ∈ v.accepted) :
    Guarded (update phs conn ph') ((v.put id session).hold conn none) := by
  have hclone : v.Kept id clone passed := .hand hhand
  constructor
  · refine holding_step h.holding (fun c hc => Watch.hold_of_ne _ _ hc) ?_
    rw [Watch.hold_self]
    exact hholding
  · refine h.sets.grow id session.recentMsgIds (Nat.le_refl _)
      (hset ▸ h.sets.below _ _ _ hclone) ?_ ?_ hnone
    · intro id₀ session₀ passed₀ hk
      rcases kept_put hk with hnew | ⟨rfl, rfl, -⟩ | ⟨hold, -⟩
      · cases hnew
      · exact Or.inl ⟨rfl, rfl⟩
      · refine Or.inr ⟨hold, ?_⟩
        rintro rfl
        exact (h.sets.shared _ _ _ _ _ hold hclone).trans hset
    · intro c set _ hc
      exact hset ▸ ((h.sets.fresh c set hc).2 _ _ _ hclone).symm
  · intro id₀ msgId session₀ passed₀ hcl hk hne
    have hclaimed : v.Claimed id₀ msgId := by
      rcases claimed_hold hcl with ⟨_, hnew⟩ | hold
      · cases hnew
      · exact hold
    rcases kept_put hk with hnew | ⟨rfl, rfl, -⟩ | ⟨hold, -⟩
    · cases hnew
    · by_cases hpassed : passed = some msgId
      · exact Or.inl (hlast msgId (Or.inr hpassed))
      · rcases h.covered _ msgId clone passed hclaimed hclone hpassed with hle | hmem
        · exact Or.inl (hlast msgId (Or.inl hle))
        · exact Or.inr (hset ▸ hmem)
    · exact h.covered id₀ msgId session₀ passed₀ hclaimed hold hne
  · refine h.tokens.step rfl (fun _ hmem => hmem) (fun c hc => Watch.hold_of_ne _ _ hc) ?_
    intro token ht
    exact ⟨(htoken token ht).1, Or.inl (htoken token ht).2⟩

theorem Guarded.take (h : Guarded phs v) (hcache : v.cache id = some session)
    (hplain : ph'.Plain (some ⟨id, session, none⟩)) :
    Guarded (update phs conn ph') (v.hold conn (some ⟨id, session, none⟩)) := by
  have hentry : v.Kept id session none := .entry hcache
  have hkept {id₀ : Int64} {session₀ : SessionData} {passed : Option Int64}
      (hk : (v.hold conn (some ⟨id, session, none⟩)).Kept id₀ session₀ passed) :
      v.Kept id₀ session₀ passed := by
    rcases kept_hold hk with hnew | hold
    · cases hnew
      exact hentry
    · exact hold
  constructor
  · refine holding_step h.holding (fun c hc => Watch.hold_of_ne _ _ hc) ?_
    rw [Watch.hold_self]
    exact hplain.holding
  · refine h.sets.shrink (Nat.le_refl _) (fun _ _ _ hk => hkept hk) ?_
    intro set hset
    rw [hplain.set] at hset
    cases hset
  · intro id₀ msgId session₀ passed hcl hk hne
    rcases claimed_hold hcl with ⟨_, hnew⟩ | hold
    · cases hnew
    · exact h.covered id₀ msgId session₀ passed hold (hkept hk) hne
  · refine h.tokens.step rfl (fun _ hmem => hmem) (fun c hc => Watch.hold_of_ne _ _ hc) ?_
    intro token ht
    rw [hplain.token] at ht
    cases ht

theorem Guarded.finish (h : Guarded phs v) :
    Guarded (update phs conn .idle) (v.hold conn none) := by
  have hkept {id : Int64} {session : SessionData} {passed : Option Int64}
      (hk : (v.hold conn none).Kept id session passed) : v.Kept id session passed :=
    (kept_hold hk).resolve_left nofun
  constructor
  · refine holding_step h.holding (fun c hc => Watch.hold_of_ne _ _ hc) ?_
    rw [Watch.hold_self]
    rfl
  · exact h.sets.shrink (Nat.le_refl _) (fun _ _ _ hk => hkept hk) nofun
  · intro id msgId session passed hcl hk hne
    refine h.covered id msgId session passed ?_ (hkept hk) hne
    exact (claimed_hold hcl).resolve_left (by rintro ⟨_, ⟨⟩⟩)
  · exact h.tokens.step rfl (fun _ hmem => hmem) (fun c hc => Watch.hold_of_ne _ _ hc) nofun

/-- What passes the check has never been accepted and is in nobody else's hands. -/
theorem Guarded.unclaimed (h : Guarded phs v) {msgId : Int64}
    (hkept : v.Kept id session none) (hlast : session.lastRecvMsgId < msgId)
    (hnot : msgId ∉ v.recents session.recentMsgIds) : ¬ v.Claimed id msgId := by
  intro hclaimed
  rcases h.covered id msgId session none hclaimed hkept nofun with hle | hmem
  · exact absurd hlast (Int64.not_lt.mpr hle)
  · exact hnot hmem

theorem mem_recents_pass (v : Watch) (session : SessionData) (msgId : Int64) :
    msgId ∈ (v.pass session msgId).recents session.recentMsgIds := by
  have hrecents : (v.pass session msgId).recents session.recentMsgIds =
      (msgId :: v.recents session.recentMsgIds).take recentCapacity := update_self _ _ _
  rw [hrecents, recentCapacity, List.take_succ_cons]
  exact List.mem_cons_self

theorem Guarded.pass (h : Guarded phs v) {msgId : Int64}
    (hphase : phs conn = .looked id .receive session) (hlast : session.lastRecvMsgId < msgId)
    (hnot : msgId ∉ v.recents session.recentMsgIds)
    (hcareful : v.Careful ((v.pass session msgId).hold conn (some ⟨id, session, some msgId⟩))) :
    Guarded (update phs conn (.passed id session msgId))
      ((v.pass session msgId).hold conn (some ⟨id, session, some msgId⟩)) := by
  have hhand : v.hands conn = some ⟨id, session, none⟩ := by
    have hheld := h.holding conn
    rwa [hphase] at hheld
  have hown : v.Kept id session none := .hand hhand
  have hfree := h.unclaimed hown hlast hnot
  have hkept {id₀ : Int64} {session₀ : SessionData} {passed : Option Int64}
      (hk : ((v.pass session msgId).hold conn (some ⟨id, session, some msgId⟩)).Kept id₀ session₀
        passed) : (id₀ = id ∧ session₀ = session ∧ passed = some msgId) ∨
        v.Kept id₀ session₀ passed := by
    rcases kept_hold hk with hnew | hold
    · cases hnew
      exact Or.inl ⟨rfl, rfl, rfl⟩
    · exact Or.inr (kept_congr v (v.pass session msgId) rfl rfl hold)
  constructor
  · refine holding_step h.holding (fun c hc => Watch.hold_of_ne _ _ hc) ?_
    rw [Watch.hold_self]
    exact ⟨rfl, hlast⟩
  · refine h.sets.grow id session.recentMsgIds (Nat.le_refl _) (h.sets.below _ _ _ hown) ?_ ?_ rfl
    · intro id₀ session₀ passed hk
      rcases hkept hk with ⟨rfl, rfl, -⟩ | hold
      · exact Or.inl ⟨rfl, rfl⟩
      · refine Or.inr ⟨hold, ?_⟩
        rintro rfl
        exact h.sets.shared _ _ _ _ _ hold hown
    · exact fun c set _ hc => ((h.sets.fresh c set hc).2 _ _ _ hown).symm
  · intro id₀ msgId₀ session₀ passed hcl hk hne
    rcases claimed_hold hcl with ⟨_, hnew⟩ | hold
    · -- the message that has just passed is in the set all of them have
      cases hnew
      rcases hkept hk with ⟨-, -, rfl⟩ | hold
      · exact absurd rfl hne
      · rw [Watch.Covers, h.sets.shared _ _ _ _ _ hold hown]
        exact Or.inr (mem_recents_pass v session msgId)
    · have hold : v.Claimed id₀ msgId₀ := hold
      rcases hkept hk with ⟨rfl, rfl, rfl⟩ | hk
      · exact hcareful.remembers _ msgId₀ _ none hold hown nofun (h.covered _ _ _ _ hold hown nofun)
      · exact hcareful.remembers _ msgId₀ _ passed hold hk hne (h.covered _ _ _ _ hold hk hne)
  · have htokens (c : ConnId) (token : Int64 × Int64) :
        (update phs conn (.passed id session msgId) c).token? = some token →
        (c = conn ∧ token = (id, msgId)) ∨ c ≠ conn ∧ (phs c).token? = some token := by
      intro hc
      by_cases hcc : c = conn
      · subst hcc
        rw [update_self] at hc
        exact Or.inl ⟨rfl, (Option.some.inj hc).symm⟩
      · rw [update_of_ne hcc] at hc
        exact Or.inr ⟨hcc, hc⟩
    constructor
    · intro c token hc
      rcases htokens c token hc with ⟨rfl, rfl⟩ | ⟨hcc, hc⟩
      · exact Or.inr ⟨session, Watch.hold_self _ _ _⟩
      · rw [Watch.hold_of_ne _ _ hcc]
        exact h.tokens.claims c token hc
    · intro c d token hc hd
      rcases htokens c token hc with ⟨rfl, rfl⟩ | ⟨-, hold⟩
      · rcases htokens d _ hd with ⟨rfl, -⟩ | ⟨-, hold⟩
        · rfl
        · exact absurd (h.claimed hold) hfree
      · rcases htokens d token hd with ⟨rfl, rfl⟩ | ⟨-, hold'⟩
        · exact absurd (h.claimed hold) hfree
        · exact h.tokens.apart c d token hold hold'
    · intro c token hc
      rcases htokens c token hc with ⟨rfl, rfl⟩ | ⟨-, hc⟩
      · exact fun hmem => hfree (Or.inl (h.tokens.accepted _ hmem))
      · exact h.tokens.undispatched c token hc
    · exact h.tokens.accepted
    · exact h.tokens.once

theorem Guarded.dispatch (h : Guarded phs v) {session : FrameSession}
    (hphase : phs conn = .pending session) :
    Guarded (update phs conn (.serving (some session))) (v.dispatch session.id session.msgId) := by
  have htoken : (phs conn).token? = some (session.id, session.msgId) := by
    rw [hphase]
    rfl
  have hhand : v.hands conn = none := by
    have hheld := h.holding conn
    rwa [hphase] at hheld
  have haccepted : (session.id, session.msgId) ∈ v.accepted := by
    rcases h.tokens.claims conn _ htoken with hmem | ⟨_, hsome⟩
    · exact hmem
    · rw [hhand] at hsome
      cases hsome
  have hkept {id : Int64} {clone : SessionData} {passed : Option Int64}
      (hk : (v.dispatch session.id session.msgId).Kept id clone passed) : v.Kept id clone passed :=
    kept_congr v (v.dispatch session.id session.msgId) rfl rfl hk
  have htokens (c : ConnId) (token : Int64 × Int64) :
      (update phs conn (.serving (some session)) c).token? = some token →
      c ≠ conn ∧ (phs c).token? = some token := by
    intro hc
    by_cases hcc : c = conn
    · subst hcc
      rw [update_self] at hc
      cases hc
    · rw [update_of_ne hcc] at hc
      exact ⟨hcc, hc⟩
  constructor
  · exact holding_step h.holding (fun _ _ => rfl) hhand
  · exact h.sets.shrink (Nat.le_refl _) (fun _ _ _ hk => hkept hk) nofun
  · exact fun id msgId clone passed hcl hk hne => h.covered id msgId clone passed hcl (hkept hk) hne
  · constructor
    · exact fun c token hc => h.tokens.claims c token (htokens c token hc).2
    · exact fun c d token hc hd => h.tokens.apart c d token (htokens c token hc).2
        (htokens d token hd).2
    · intro c token hc hmem
      obtain ⟨hcc, hc⟩ := htokens c token hc
      rcases List.mem_cons.mp hmem with rfl | hmem
      · exact hcc (h.tokens.apart c conn _ hc htoken)
      · exact h.tokens.undispatched c token hc hmem
    · intro token hmem
      rcases List.mem_cons.mp hmem with rfl | hmem
      · exact haccepted
      · exact h.tokens.accepted token hmem
    · exact List.nodup_cons.mpr ⟨h.tokens.undispatched conn _ htoken, h.tokens.once⟩

/-- A key exchange gets itself a set. -/
theorem Guarded.create (h : Guarded phs v) {back : Option FrameSession}
    (hphase : phs conn = .creating id session back) :
    Guarded (update phs conn (.renewed id { session with recentMsgIds := v.nextRecent } back))
      v.renew := by
  have hhand : v.hands conn = none := by
    have hheld := h.holding conn
    rwa [hphase] at hheld
  have hrenewed := h.renew
  have hsets (c : ConnId) (set : RecentMsgIds)
      (hc : (update phs conn (.renewed id { session with recentMsgIds := v.nextRecent } back)
        c).set? = some set) :
      (c = conn ∧ set = v.nextRecent) ∨ c ≠ conn ∧ (phs c).set? = some set := by
    by_cases hcc : c = conn
    · subst hcc
      rw [update_self] at hc
      exact Or.inl ⟨rfl, (Option.some.inj hc).symm⟩
    · rw [update_of_ne hcc] at hc
      exact Or.inr ⟨hcc, hc⟩
  refine ⟨?_, ⟨hrenewed.sets.below, hrenewed.sets.shared, ?_, ?_⟩, hrenewed.covered, ?_⟩
  · exact holding_step hrenewed.holding (fun _ _ => rfl) hhand
  · intro c set hc
    rcases hsets c set hc with ⟨rfl, rfl⟩ | ⟨-, hc⟩
    · refine ⟨Nat.lt_succ_self _, fun id session passed hk => Nat.ne_of_lt ?_⟩
      exact h.sets.below _ _ _ (kept_congr v v.renew rfl rfl hk)
    · exact hrenewed.sets.fresh c set hc
  · intro c d set hc hd
    rcases hsets c set hc with ⟨rfl, rfl⟩ | ⟨-, hold⟩
    · rcases hsets d _ hd with ⟨rfl, -⟩ | ⟨-, hold⟩
      · rfl
      · exact absurd (h.sets.fresh d _ hold).1 (Nat.lt_irrefl _)
    · rcases hsets d set hd with ⟨rfl, rfl⟩ | ⟨-, hold'⟩
      · exact absurd (h.sets.fresh c _ hold).1 (Nat.lt_irrefl _)
      · exact h.sets.apart c d set hold hold'
  · exact hrenewed.tokens.step rfl (fun _ hmem => hmem) (fun _ _ => rfl) nofun

/-- A set that is nobody's enters the cache only while no clone is in hand. -/
theorem Guarded.entering (hcareful : v.Careful v') (hcache : v'.cache id = some session)
    (hnew : ∀ id₀ session₀ passed, v.Kept id₀ session₀ passed →
      session₀.recentMsgIds ≠ session.recentMsgIds) :
    (∀ c clone, v.hands c = some clone → clone.id ≠ id) ∧
      ∀ msgId, (id, msgId) ∈ v.accepted → msgId ≤ session.lastRecvMsgId := by
  refine (hcareful.enters id session hcache ?_).resolve_left ?_
  · exact fun hentry => hnew id session none (.entry hentry) rfl
  · rintro ⟨c, ⟨id₀, session₀, passed⟩, hc, rfl, hset⟩
    exact hnew _ _ _ (.hand hc) hset

theorem guarded_handles (h : Guarded phs v) (hcareful : v.Careful v')
    (hhandles : Handles conn (phs conn) v v' ph') : Guarded (update phs conn ph') v' := by
  generalize hphase : phs conn = ph at hhandles
  have hheld := h.holding conn
  rw [hphase] at hheld
  cases hhandles with
  | keep hholding htoken hset =>
    subst hphase
    exact h.keep hholding htoken hset
  | take hcache _ hplain => exact h.take hcache hplain
  | @load ph _ v id session hand hset hhand hplain =>
    obtain ⟨hnone, hbound⟩ := Guarded.entering hcareful
      ((Watch.put_self v.renew id session) : _ = some session) fun id₀ session₀ passed hk =>
        hset ▸ Nat.ne_of_lt (h.sets.below _ _ _ hk)
    refine h.renew.enter (hset ▸ Nat.lt_succ_self _) ?_ hnone hbound hhand hplain
    exact fun c set _ hc => hset ▸ Nat.ne_of_lt (h.sets.fresh c set hc).1
  | pass hlast hnot => exact h.pass hphase hlast hnot hcareful
  | @accept v id session =>
    obtain ⟨clone, hhand, hset, hlast⟩ := hheld
    have htoken : (phs conn).token? = some (id, session.lastRecvMsgId) := by
      rw [hphase]
      rfl
    refine (h.accept htoken).back hhand hset ?_ rfl rfl ?_
    · rintro msgId (hle | heq)
      · exact Int64.le_trans hle (Int64.le_of_lt hlast)
      · exact Option.some.inj heq ▸ Int64.le_refl _
    · rintro token ⟨⟩
      exact ⟨htoken, List.mem_cons_self⟩
  | put hclone hplain =>
    obtain ⟨clone, hhand, hset, hlast⟩ := hclone _ hheld
    refine h.back hhand hset ?_ hplain.holding hplain.set ?_
    · rintro msgId (hle | heq)
      · exact hlast ▸ hle
      · cases heq
    · intro token ht
      rw [hplain.token] at ht
      cases ht
  | renew => exact h.create hphase
  | @create v id session back =>
    have hown : (phs conn).set? = some session.recentMsgIds := by
      rw [hphase]
      rfl
    obtain ⟨hlt, hnew⟩ := h.sets.fresh conn _ hown
    obtain ⟨hnone, hbound⟩ := Guarded.entering hcareful (Watch.put_self v id session) hnew
    refine h.enter hlt ?_ hnone hbound (Or.inl rfl) (plain_serving back)
    rintro c set hcc hc rfl
    exact hcc (h.sets.apart c conn _ hc hown)
  | dispatch => exact h.dispatch hphase
  | finish => exact h.finish

end Steps

end KoSta.Server
