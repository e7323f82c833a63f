import KoSta.Server.Responses

/-! One turn at a time: what rows, entries and histories have to do with each other. -/
namespace KoSta.Server
open Lib Lib.Prog Tl Crypto Function

/-! ### Accounts and sessions -/

/-- `n - 1`, …, `1`, `0`. -/
def countdown : Nat → List UInt32
  | 0 => []
  | n + 1 => UInt32.ofNat n :: countdown n

/-- What the row and the history of a session agree on at every moment. -/
structure Ledger [Platform] (a : Account) : Prop where
  sorted : (dispatchedIds a.events).Pairwise (· > ·)
  bounded : ∀ m ∈ dispatchedIds a.events, ∃ row, a.row = some row ∧ m ≤ row.lastMsgId
  counted : ∃ n, reservedCounters a.events = countdown n ∧
    ∀ row, a.row = some row → row.msgIdCounter = UInt32.ofNat n
  stamped : ((stampings a.events).map Prod.snd).Sublist (reservedCounters a.events)
  created : ∀ row, a.row = some row → 0 < (a.events.filter Event.establishes).length
  answers : Once a.events → Answers a.row a.events

/-- A clone is up to date with the session's row in what the checks and the counters use. -/
structure Tracks (id : Int64) (session : SessionData) (row : FullSession) : Prop where
  authKeyId : session.authKeyId = id
  last : session.lastRecvMsgId = row.lastMsgId
  counter : session.msgIdCounter = row.msgIdCounter
  sendSeqNo : session.sendSeqNo = row.sendSeqNo

/-- And its responses would be sealed with what is in the row. -/
structure Mirrors (id : Int64) (session : SessionData) (row : FullSession) : Prop
    extends Tracks id session row where
  sendCounter : session.sendCounter = row.sendCounter
  carries : Carries session.crypto row

/-- Once the session is settled, a clone is what its row would be loaded as. -/
def Matches (a : Account) (id : Int64) (session : SessionData) : Prop :=
  ∃ row, a.row = some row ∧ Mirrors id session row ∧
    (Settled a.events → sessionOfRow id row session.recentMsgIds = session)

/-- The counters in the cipher are those next to it. -/
structure Level (session : SessionData) : Prop where
  sendCounter : session.sendCounter = session.crypto.sendCounter
  recvCounter : session.recvCounter = session.crypto.recvCounter

/-- Every cached entry, apart from that of `but`, matches its account. -/
def Coherent (but : Option Int64) (accounts : Int64 → Account)
    (cache : Int64 → Option SessionData) : Prop :=
  ∀ id session, but ≠ some id → cache id = some session → Matches (accounts id) id session

theorem sessionOfRow_toRow {id : Int64} {session : SessionData} (hid : session.authKeyId = id)
    (h : Level session) : sessionOfRow id (session.toRow id) session.recentMsgIds = session := by
  subst hid
  have hcrypto : { session.crypto with
      sendCounter := session.sendCounter, recvCounter := session.recvCounter } =
        session.crypto := by
    rw [h.sendCounter, h.recvCounter]
  exact congrArg (fun crypto => { session with crypto }) hcrypto

theorem mirrors_toRow {id : Int64} {session : SessionData} (hid : session.authKeyId = id)
    (hlevel : session.crypto.sendCounter = session.sendCounter) :
    Mirrors id session (session.toRow id) := ⟨⟨hid, rfl, rfl, rfl⟩, rfl, hlevel, rfl⟩

theorem matches_loaded {a : Account} {full : FullSession} (h : a.row = some full) (id : Int64)
    (recent : RecentMsgIds) : Matches a id (sessionOfRow id full recent) :=
  ⟨full, h, ⟨⟨rfl, rfl, rfl, rfl⟩, rfl, rfl, rfl⟩, fun _ => rfl⟩

/-- An entry of an unsettled session has to mirror its row, no more. -/
theorem matches_of_mirrors {a : Account} {id : Int64} {session : SessionData} {row : FullSession}
    (hrow : a.row = some row) (h : Mirrors id session row) (hun : ¬ Settled a.events) :
    Matches a id session := ⟨row, hrow, h, fun hset => absurd hset hun⟩

/-- A clone that mirrors its row can be written over it. -/
theorem Mirrors.alike {id : Int64} {session : SessionData} {row : FullSession}
    (h : Mirrors id session row) : SendsAlike row (session.toRow id) :=
  ⟨h.sendCounter, h.sendSeqNo, h.carries.key⟩

theorem Mirrors.level {id : Int64} {session : SessionData} {row : FullSession}
    (h : Mirrors id session row) : session.crypto.sendCounter = session.sendCounter :=
  h.carries.sendCounter.trans h.sendCounter.symm

/-! ### What holds in each phase -/

/-- All that has been dispatched is older. -/
def Above (a : Account) (msgId : Int64) : Prop := ∀ m ∈ dispatchedIds a.events, m < msgId

/-- The counter reserved last has not been used yet. -/
def Unused (a : Account) (counter : UInt32) : Prop :=
  ∃ older, reservedCounters a.events = counter :: older ∧
    ((stampings a.events).map Prod.snd).Sublist older

/-- The next response can be sealed with the cipher of the frame, whose session is not settled. -/
structure Prepared [Platform] (a : Account) (crypto : SessionCrypto)
    (seqNo : Int32) (counter : UInt32) :
    Prop where
  row : ∃ row, a.row = some row ∧ row.sendSeqNo = seqNo
  unsettled : ¬ Settled a.events
  unused : Unused a counter
  ready : Once a.events → Ready a.events crypto seqNo

/-- The session exists; while its request is handled it is not settled. -/
def Held [Platform] (a : Account) : Holder → Prop
  | .receive => ∃ row, a.row = some row
  | .edit crypto none => ¬ Settled a.events ∧
    ∃ row, a.row = some row ∧ (Once a.events → Carries crypto row)
  | .edit crypto (some (seqNo, counter)) => Prepared a crypto seqNo counter ∧
    ∃ row, a.row = some row ∧ (Once a.events → crypto.serverWriteKey = row.serverWriteKey)

/-- The session whose row is ahead of its cache entry. -/
def Phase.window : Phase → Option Int64
  | .committing id _ | .committed id _ | .saved id _ _ _ | .settling id _ _ _
  | .stored id _ _ _ | .creating id _ _ | .renewed id _ _ => some id
  | _ => none

/-- What a turn knows about the session it has in hand. -/
def Local [Platform] (accounts : Int64 → Account) (cache : Int64 → Option SessionData) :
    Phase → Prop
  | .idle => True
  | .lost => False
  | .reading id full => (accounts id).row = some full
  | .known id holder => Held (accounts id) holder
  | .loading id holder full => Held (accounts id) holder ∧ (accounts id).row = some full
  | .looked id holder session => Held (accounts id) holder ∧ Matches (accounts id) id session
  | .passed id session msgId => Matches (accounts id) id session ∧ session.lastRecvMsgId < msgId
  | .committing id session => Above (accounts id) session.lastRecvMsgId ∧
    ∃ row, (accounts id).row = some row ∧ Mirrors id session row
  | .committed id session => Above (accounts id) session.lastRecvMsgId ∧
    Mirrors id session (session.toRow id) ∧ (accounts id).row = some (session.toRow id)
  | .pending session => Above (accounts session.id) session.msgId ∧
    ¬ Settled (accounts session.id).events ∧ ∃ row, (accounts session.id).row = some row ∧
      row.lastMsgId = session.msgId ∧ Carries session.crypto row
  | .saved id session crypto reserved => Held (accounts id) (.edit crypto reserved) ∧
    Mirrors id session (session.toRow id) ∧ (accounts id).row = some (session.toRow id)
  | .settling id session crypto reserved => Prepared (accounts id) crypto reserved.1 reserved.2 ∧
    Level session ∧ Advanced crypto session.crypto ∧
    ∃ row, (accounts id).row = some row ∧ Tracks id session row
  | .stored id session crypto reserved => Prepared (accounts id) crypto reserved.1 reserved.2 ∧
    Level session ∧ Advanced crypto session.crypto ∧ session.authKeyId = id ∧
    (accounts id).row = some (session.toRow id)
  | .settled id crypto reserved => Prepared (accounts id) crypto reserved.1 reserved.2 ∧
    (∃ row crypto', (accounts id).row = some row ∧ Advanced crypto crypto' ∧ Carries crypto' row) ∧
    ∀ session, cache id = some session → ∃ row, (accounts id).row = some row ∧
      Mirrors id session row ∧ sessionOfRow id row session.recentMsgIds = session
  | .creating id session back | .renewed id session back => Fresh id session ∧
    (accounts id).row = some (session.toRow id) ∧ epoch (accounts id).events = [] ∧
    ∀ s, back = some s → Held (accounts s.id) (.edit s.crypto none)

structure Inv [Platform] (ph : Phase) (accounts : Int64 → Account)
    (cache : Int64 → Option SessionData) :
    Prop where
  ledger : ∀ id, Ledger (accounts id)
  coherent : Coherent ph.window accounts cache
  here : Local accounts cache ph

section Rules

variable {ph ph' : Phase} {accounts : Int64 → Account} {cache : Int64 → Option SessionData}
variable {id : Int64} {session : SessionData} {a : Account} {but : Option Int64}

/-! ### Coherence -/

theorem Coherent.enter (h : Coherent but accounts cache) (hbut : but = none ∨ but = some id) :
    Coherent (some id) accounts cache := by
  intro i session hi hs
  refine h i session ?_ hs
  rcases hbut with rfl | rfl
  · exact fun hn => nomatch hn
  · exact hi

/-- Whatever happens to the account of the session under way, the other entries match. -/
theorem Coherent.account (h : Coherent (some id) accounts cache) (a : Account) :
    Coherent (some id) (update accounts id a) cache := by
  intro i session hi hs
  have hne : i ≠ id := fun he => hi (congrArg Option.some he.symm)
  rw [update_of_ne hne]
  exact h i session hi hs

theorem Coherent.put (h : Coherent (some id) accounts cache)
    (hs : Matches (accounts id) id session) :
    Coherent none accounts (update cache id (some session)) := by
  intro i session' _ hs'
  by_cases hi : i = id
  · subst hi
    rw [update_self] at hs'
    cases hs'
    exact hs
  · rw [update_of_ne hi] at hs'
    exact h i session' (fun he => hi (Option.some.inj he).symm) hs'

/-- A change of an account that every matching clone survives. -/
theorem Coherent.change (h : Coherent none accounts cache)
    (hs : ∀ session, cache id = some session → Matches a id session) :
    Coherent none (update accounts id a) cache := by
  intro i session hi hc
  by_cases he : i = id
  · subst he
    rw [update_self]
    exact hs session hc
  · rw [update_of_ne he]
    exact h i session hi hc

theorem Coherent.evict (h : Coherent but accounts cache) (id : Int64) :
    Coherent but accounts (update cache id none) := by
  intro i session hi hs
  by_cases he : i = id
  · subst he
    rw [update_self] at hs
    cases hs
  · rw [update_of_ne he] at hs
    exact h i session hi hs

/-! ### Ledgers -/

variable [Platform]

theorem Ledger.of_answers (h : Ledger a) {row row' : FullSession} (hrow : a.row = some row)
    (hlast : row.lastMsgId ≤ row'.lastMsgId) (hcounter : row'.msgIdCounter = row.msgIdCounter)
    (hanswers : Once a.events → Answers (some row') a.events) : Ledger ⟨some row', a.events⟩ where
  sorted := h.sorted
  bounded m hm := by
    obtain ⟨r, hr, hle⟩ := h.bounded m hm
    rw [hrow] at hr
    cases hr
    exact ⟨row', rfl, Int64.le_trans hle hlast⟩
  counted := by
    obtain ⟨n, hn, hr⟩ := h.counted
    refine ⟨n, hn, fun r he => ?_⟩
    cases he
    rw [hcounter]
    exact hr row hrow
  stamped := h.stamped
  created _ _ := h.created row hrow
  answers := hanswers

theorem Ledger.of_row (h : Ledger a) {row row' : FullSession} (hrow : a.row = some row)
    (hlast : row.lastMsgId ≤ row'.lastMsgId) (hcounter : row'.msgIdCounter = row.msgIdCounter)
    (hsame : SendsAlike row row') : Ledger ⟨some row', a.events⟩ := by
  apply h.of_answers hrow hlast hcounter
  intro honce
  have hanswers := h.answers honce
  rw [hrow] at hanswers
  exact hanswers.alike hsame

theorem Ledger.accepted (h : Ledger a) (conn : ConnId) (id msgId : Int64) :
    Ledger ⟨a.row, .accepted conn id msgId :: a.events⟩ :=
  ⟨h.sorted, h.bounded, h.counted, h.stamped, h.created,
    fun honce => (h.answers honce).event rfl rfl⟩

theorem Ledger.dispatched (h : Ledger a) {msgId : Int64} (habove : Above a msgId)
    {row : FullSession} (hrow : a.row = some row) (hlast : row.lastMsgId = msgId) (conn : ConnId)
    (id : Int64) (obj : TlObject) :
    Ledger ⟨a.row, .dispatched conn (some (id, msgId)) obj :: a.events⟩ where
  sorted := List.pairwise_cons.mpr ⟨habove, h.sorted⟩
  bounded m hm := by
    rcases List.mem_cons.mp hm with rfl | hm
    · exact ⟨row, hrow, Int64.le_of_eq hlast.symm⟩
    · exact h.bounded m hm
  counted := h.counted
  stamped := h.stamped
  created := h.created
  answers honce := (h.answers honce).event rfl rfl

theorem Ledger.reserved (h : Ledger a) {row row' : FullSession} (hrow : a.row = some row)
    (hlast : row'.lastMsgId = row.lastMsgId) (hcounter : row'.msgIdCounter = row.msgIdCounter + 1)
    (conn : ConnId) (id : Int64) (hanswers : Once a.events →
      Answers (some row') (.reserved conn id row.msgIdCounter :: a.events)) :
    Ledger ⟨some row', .reserved conn id row.msgIdCounter :: a.events⟩ ∧
      Unused ⟨some row', .reserved conn id row.msgIdCounter :: a.events⟩ row.msgIdCounter := by
  obtain ⟨n, hn, hr⟩ := h.counted
  refine ⟨⟨h.sorted, fun m hm => ?_, ⟨n + 1, ?_, fun r he => ?_⟩, h.stamped.cons _,
    fun _ _ => h.created row hrow, hanswers⟩, _, rfl, h.stamped⟩
  · obtain ⟨r, hr', hle⟩ := h.bounded m hm
    rw [hrow] at hr'
    cases hr'
    exact ⟨row', rfl, hlast ▸ hle⟩
  · exact congrArg₂ List.cons (hr row hrow) hn
  · cases he
    rw [hcounter, hr row hrow, UInt32.ofNat_add]
    rfl

theorem Ledger.stampedWith (h : Ledger a) {counter : UInt32} (hunused : Unused a counter)
    (conn : ConnId) (id : Int64) (now : Nat) (frame : Bytes) (hanswers : Once a.events →
      Answers a.row (.stamped conn id now counter :: .sealed conn id frame :: a.events)) :
    Ledger ⟨a.row, .stamped conn id now counter :: .sealed conn id frame :: a.events⟩ := by
  obtain ⟨older, hcounters, hsub⟩ := hunused
  refine ⟨h.sorted, h.bounded, h.counted, ?_, h.created, hanswers⟩
  change (counter :: (stampings a.events).map Prod.snd).Sublist (reservedCounters a.events)
  rw [hcounters]
  exact hsub.cons_cons counter

theorem ledger_created {row : FullSession} (hcounter : row.msgIdCounter = 0)
    (hsend : row.sendCounter = 0) (hseq : row.sendSeqNo = -1) (id : Int64) (events : List Event) :
    Ledger ⟨some row, .established id :: events⟩ := by
  refine ⟨List.Pairwise.nil, nofun, ⟨0, rfl, ?_⟩, List.nil_sublist _,
    fun _ _ => Nat.succ_pos _, fun _ => answers_created hsend hseq rfl⟩
  rintro r ⟨⟩
  exact hcounter

theorem ledger_update {accounts : Int64 → Account} (h : ∀ i, Ledger (accounts i)) (ha : Ledger a)
    (i : Int64) : Ledger (update accounts id a i) := by
  by_cases hi : i = id
  · subst hi
    rwa [update_self]
  · rw [update_of_ne hi]
    exact h i

/-! ### Writes and puts -/

theorem Inv.put (h : Inv ph accounts cache) (hph : ph.window = none ∨ ph.window = some id)
    (hs : Matches (accounts id) id session) (hph' : ph'.window = none)
    (hhere : Local accounts (update cache id (some session)) ph') :
    Inv ph' accounts (update cache id (some session)) := by
  refine ⟨h.ledger, ?_, hhere⟩
  rw [hph']
  exact (h.coherent.enter hph).put hs

/-- A write to the row that opens the window of its session, or is made in it. -/
theorem Inv.write (h : Inv ph accounts cache) (hph : ph.window = none ∨ ph.window = some id)
    (ha : Ledger a) (hph' : ph'.window = some id) (hhere : Local (update accounts id a) cache ph') :
    Inv ph' (update accounts id a) cache := by
  refine ⟨ledger_update h.ledger ha, ?_, hhere⟩
  rw [hph']
  exact (h.coherent.enter hph).account a

/-- A write to the row, or an event, that every cached entry survives. -/
theorem Inv.change (h : Inv ph accounts cache) (hph : ph.window = none) (ha : Ledger a)
    (hs : ∀ session, cache id = some session → Matches a id session) (hph' : ph'.window = none)
    (hhere : Local (update accounts id a) cache ph') : Inv ph' (update accounts id a) cache := by
  refine ⟨ledger_update h.ledger ha, ?_, hhere⟩
  have hc := h.coherent
  rw [hph] at hc
  rw [hph']
  exact hc.change hs

theorem Held.exists_row {holder : Holder} (h : Held a holder) : ∃ row, a.row = some row := by
  cases holder with
  | receive => exact h
  | edit crypto reserved =>
    cases reserved with
    | none =>
      obtain ⟨-, row, hrow, -⟩ := h
      exact ⟨row, hrow⟩
    | some reserved =>
      obtain ⟨-, row, hrow, -⟩ := h
      exact ⟨row, hrow⟩

theorem Held.unsettled {crypto : SessionCrypto} {reserved : Option (Int32 × UInt32)}
    (h : Held a (.edit crypto reserved)) : ¬ Settled a.events := by
  cases reserved with
  | none => exact h.1
  | some reserved => exact h.1.unsettled

/-- A row that sends alike serves the holder as well. -/
theorem Held.of_row {crypto : SessionCrypto} {reserved : Option (Int32 × UInt32)}
    (h : Held a (.edit crypto reserved)) {row row' : FullSession} (hrow : a.row = some row)
    (hsame : SendsAlike row row') : Held ⟨some row', a.events⟩ (.edit crypto reserved) := by
  cases reserved with
  | none =>
    obtain ⟨hun, r, hr, hcarries⟩ := h
    cases hrow.symm.trans hr
    exact ⟨hun, row', rfl, fun honce => (hcarries honce).alike hsame⟩
  | some reserved =>
    obtain ⟨hprepared, r, hr, hkey⟩ := h
    cases hrow.symm.trans hr
    obtain ⟨r, hr, hseq⟩ := hprepared.row
    cases hrow.symm.trans hr
    refine ⟨⟨⟨row', rfl, hsame.sendSeqNo.trans hseq⟩, hprepared.unsettled, hprepared.unused,
      hprepared.ready⟩, row', rfl, ?_⟩
    intro honce
    exact (hkey honce).trans hsame.key.symm

theorem above_of_matches (h : Ledger a) (hs : Matches a id session) {msgId : Int64}
    (hlt : session.lastRecvMsgId < msgId) : Above a msgId := by
  intro m hm
  obtain ⟨row, hrow, htracks, -⟩ := hs
  obtain ⟨r, hr, hle⟩ := h.bounded m hm
  rw [hrow] at hr
  cases hr
  rw [← htracks.last] at hle
  exact Int64.lt_of_le_of_lt hle hlt

end Rules

/-! ### Every move keeps the invariant -/

section Moves

variable [Platform] {conn : ConnId} {ph ph' : Phase} {w w' : World}

/-- The invariant of the world a turn finds in phase `ph`. -/
abbrev Keeps (ph : Phase) (w : World) : Prop := Inv ph w.accounts w.state.cache

section Receive

variable {id : Int64} {session : SessionData}

theorem keeps_load {full : FullSession} (h : Keeps (.reading id full) w) :
    Keeps (.known id .receive)
      (w.load id full [.put conn id (sessionOfRow id full w.state.nextRecent)]) := by
  rw [Keeps, accounts_load (by simp [Event.Neutral])]
  exact h.put (Or.inl rfl) (matches_loaded h.here id _) rfl ⟨full, h.here⟩

theorem keeps_hold {holder : Holder} (h : Keeps (.known id holder) w)
    (hcache : w.state.cache id = some session) :
    Keeps (.looked id holder session) (w.log [.lookedUp conn id session]) := by
  rw [Keeps, accounts_log (by simp [Event.Neutral])]
  exact ⟨h.ledger, h.coherent, h.here, h.coherent id session nofun hcache⟩

theorem keeps_loadHeld {holder : Holder} {full : FullSession}
    (h : Keeps (.loading id holder full) w) :
    Keeps (.looked id holder (sessionOfRow id full w.state.nextRecent)) (w.load id full
      [.lookedUp conn id (sessionOfRow id full w.state.nextRecent),
        .put conn id (sessionOfRow id full w.state.nextRecent)]) := by
  rw [Keeps, accounts_load (by simp [Event.Neutral])]
  have hmatches := matches_loaded h.here.2 id w.state.nextRecent
  exact h.put (Or.inl rfl) hmatches rfl ⟨h.here.1, hmatches⟩

theorem keeps_commit {msgId : Int64} (h : Keeps (.passed id session msgId) w)
    (recvCounter : UInt32) (seqNo : Int32) :
    Keeps (.committing id (session.accept { session.crypto with recvCounter } seqNo msgId))
      (w.modifyRow id fun row => { row with recvSeqNo := seqNo, lastMsgId := msgId }) := by
  obtain ⟨hmatches, hlt⟩ := h.here
  have habove := above_of_matches (h.ledger id) hmatches hlt
  obtain ⟨row, hrow, hmirrors, -⟩ := hmatches
  have hle : row.lastMsgId ≤ msgId := hmirrors.last ▸ Int64.le_of_lt hlt
  rw [Keeps, accounts_modifyRow hrow]
  refine h.write (Or.inl rfl) ((h.ledger id).of_row hrow hle rfl ⟨rfl, rfl, rfl⟩) rfl ?_
  simp only [Local, update_self]
  exact ⟨habove, _, rfl, ⟨hmirrors.authKeyId, rfl, hmirrors.counter, hmirrors.sendSeqNo⟩,
    hmirrors.sendCounter, hmirrors.carries.sendCounter, hmirrors.carries.key⟩

theorem keeps_commitCounters (h : Keeps (.committing id session) w) :
    Keeps (.committing id session) (w.modifyRow id fun row => { row with
      sendCounter := session.crypto.sendCounter, recvCounter := session.crypto.recvCounter }) := by
  obtain ⟨habove, row, hrow, hmirrors⟩ := h.here
  rw [Keeps, accounts_modifyRow hrow]
  have hledger : Ledger
      ⟨some { row with
        sendCounter := session.crypto.sendCounter
        recvCounter := session.crypto.recvCounter }, (w.accounts id).events⟩ :=
    (h.ledger id).of_row hrow (Int64.le_refl row.lastMsgId) rfl
      ⟨hmirrors.carries.sendCounter, rfl, rfl⟩
  refine h.write (Or.inr rfl) hledger rfl ?_
  simp only [Local, update_self]
  exact ⟨habove, _, rfl, ⟨hmirrors.authKeyId, hmirrors.last, hmirrors.counter, hmirrors.sendSeqNo⟩,
    hmirrors.level.symm, rfl, hmirrors.carries.key⟩

theorem keeps_commitRow (h : Keeps (.committing id session) w) :
    Keeps (.committed id session) (w.save (session.toRow id) []) := by
  obtain ⟨habove, row, hrow, hmirrors⟩ := h.here
  rw [Keeps, accounts_save]
  have hle : row.lastMsgId ≤ (session.toRow id).lastMsgId := Int64.le_of_eq hmirrors.last.symm
  refine h.write (Or.inr rfl)
    ((h.ledger id).of_row hrow hle hmirrors.counter hmirrors.alike) rfl ?_
  simp only [Local, update_self]
  exact ⟨habove, mirrors_toRow hmirrors.authKeyId hmirrors.level, trivial⟩

theorem keeps_accept (h : Keeps (.committed id session) w) :
    Keeps (.pending ⟨id, session.lastRecvMsgId, session.crypto⟩) (w.putEntry id session
      [.accepted conn id session.lastRecvMsgId, .put conn id session]) := by
  obtain ⟨habove, hmirrors, hrow⟩ := h.here
  rw [Keeps, accounts_accept]
  have hun := not_settled_accepted conn id session.lastRecvMsgId (w.accounts id).events
  have hw : Inv (.committed id session) (update w.accounts id
      ⟨w.row id, .accepted conn id session.lastRecvMsgId :: (w.accounts id).events⟩)
      w.state.cache := by
    refine h.write (Or.inr rfl) ((h.ledger id).accepted conn id _) rfl ?_
    simp only [Local, update_self]
    exact ⟨habove, hmirrors, hrow⟩
  refine hw.put (Or.inr rfl) ?_ rfl ?_
  · rw [update_self]
    exact matches_of_mirrors hrow hmirrors hun
  · simp only [Local, update_self]
    exact ⟨habove, hun, _, hrow, rfl, hmirrors.carries⟩

theorem keeps_dispatch {s : FrameSession} (h : Keeps (.pending s) w) (obj : TlObject) :
    Keeps (.serving (some s)) (w.log [.dispatched conn (some (s.id, s.msgId)) obj]) := by
  obtain ⟨habove, hun, row, hrow, hlast, hcarries⟩ := h.here
  rw [Keeps, accounts_dispatch]
  refine h.change rfl ((h.ledger s.id).dispatched habove hrow hlast conn s.id obj) ?_ rfl ?_
  · intro session hc
    obtain ⟨r, hr, hmirrors, -⟩ := h.coherent s.id session nofun hc
    exact matches_of_mirrors hr hmirrors hun
  · simp only [Phase.serving, Local, update_self]
    exact ⟨hun, row, hrow, fun _ => hcarries⟩

end Receive

section Edit

variable {id : Int64} {session : SessionData}

variable {crypto : SessionCrypto}

/-- A change of columns that neither the checks nor the responses read, while the session is not
settled. -/
theorem keeps_modifyRow {reserved : Option (Int32 × UInt32)}
    (h : Keeps (.known id (.edit crypto reserved)) w) {f : FullSession → FullSession}
    (hlast : ∀ row, (f row).lastMsgId = row.lastMsgId)
    (hcounter : ∀ row, (w.accounts id).row = some row → (f row).msgIdCounter = row.msgIdCounter)
    (hsends : ∀ row, (w.accounts id).row = some row → SendsAlike row (f row)) :
    Keeps (.known id (.edit crypto reserved)) (w.modifyRow id f) := by
  have hheld : Held (w.accounts id) (.edit crypto reserved) := h.here
  obtain ⟨row, hrow⟩ := hheld.exists_row
  have hsame := hsends row hrow
  rw [Keeps, accounts_modifyRow hrow]
  have hle : row.lastMsgId ≤ (f row).lastMsgId := Int64.le_of_eq (hlast row).symm
  refine h.change rfl ((h.ledger id).of_row hrow hle (hcounter row hrow) hsame) ?_ rfl ?_
  · intro session hc
    obtain ⟨r, hr, hmirrors, -⟩ := h.coherent id session nofun hc
    cases hrow.symm.trans hr
    refine matches_of_mirrors rfl ⟨⟨hmirrors.authKeyId, ?_, ?_, ?_⟩, ?_,
      hmirrors.carries.alike hsame⟩ hheld.unsettled
    · exact hmirrors.last.trans (hlast row).symm
    · exact hmirrors.counter.trans (hcounter row hrow).symm
    · exact hmirrors.sendSeqNo.trans hsame.sendSeqNo.symm
    · exact hmirrors.sendCounter.trans hsame.sendCounter.symm
  · simp only [Local, update_self]
    exact hheld.of_row hrow hsame

/-- The row counts on from the counter reserved last. -/
theorem Ledger.next_counter {a : Account} (h : Ledger a) {counter : UInt32} (hu : Unused a counter)
    {row : FullSession} (hrow : a.row = some row) : row.msgIdCounter = counter + 1 := by
  obtain ⟨older, holder, -⟩ := hu
  obtain ⟨n, hn, hr⟩ := h.counted
  cases n with
  | zero => exact nomatch holder.symm.trans hn
  | succ n =>
    obtain ⟨hcounter, -⟩ := List.cons.inj (holder.symm.trans hn)
    rw [hr row hrow, hcounter, UInt32.ofNat_add]
    rfl

theorem keeps_saveUser (h : Keeps (.looked id (.edit crypto none) session) w) (userId : Int64) :
    Keeps (.saved id { session with userId } crypto none)
      (w.save (SessionData.toRow { session with userId } id) []) := by
  obtain ⟨hheld, row, hrow, hmirrors, -⟩ := h.here
  have hsame : SendsAlike row (SessionData.toRow { session with userId } id) :=
    ⟨hmirrors.sendCounter, hmirrors.sendSeqNo, hmirrors.carries.key⟩
  rw [Keeps, accounts_save]
  have hle : row.lastMsgId ≤ session.lastRecvMsgId := Int64.le_of_eq hmirrors.last.symm
  refine h.write (Or.inl rfl) ((h.ledger id).of_row hrow hle hmirrors.counter hsame) rfl ?_
  simp only [Local, update_self]
  exact ⟨hheld.of_row hrow hsame, mirrors_toRow hmirrors.authKeyId hmirrors.level, trivial⟩

theorem keeps_reserve {seqNo : Int32} (h : Keeps (.looked id (.edit crypto none) session) w)
    (hseq : succI32 session.sendSeqNo = some seqNo) :
    Keeps (.saved id (session.reserve seqNo) crypto (some (seqNo, session.msgIdCounter)))
      (w.save ((session.reserve seqNo).toRow id) [.reserved conn id session.msgIdCounter]) := by
  obtain ⟨⟨hun, row, hrow, hcarries⟩, r, hr, hmirrors, -⟩ := h.here
  cases hrow.symm.trans hr
  rw [Keeps, accounts_saveEvent (e := .reserved conn id _) (beq_self_eq_true id), hmirrors.counter]
  have hcounter : ((session.reserve seqNo).toRow id).msgIdCounter = row.msgIdCounter + 1 :=
    congrArg (· + 1) hmirrors.counter
  have hnext (honce : Once (w.accounts id).events) :
      Answers (some ((session.reserve seqNo).toRow id))
        (.reserved conn id row.msgIdCounter :: (w.accounts id).events) ∧
      Ready (.reserved conn id row.msgIdCounter :: (w.accounts id).events) crypto seqNo := by
    have hanswers := (h.ledger id).answers honce
    rw [hrow] at hanswers
    rw [hmirrors.sendSeqNo] at hseq
    exact hanswers.reserve (hcarries honce) hseq hmirrors.sendCounter rfl hmirrors.carries.key conn
      id row.msgIdCounter
  obtain ⟨hledger, hunused⟩ := (h.ledger id).reserved hrow hmirrors.last hcounter conn id
    fun honce => (hnext honce).1
  refine h.write (Or.inl rfl) hledger rfl ?_
  simp only [Local, update_self]
  refine ⟨⟨⟨⟨_, rfl, rfl⟩, hun, hunused, fun honce => (hnext honce).2⟩, _, rfl, fun honce => ?_⟩,
    mirrors_toRow hmirrors.authKeyId hmirrors.level, trivial⟩
  exact (hcarries honce).key.trans hmirrors.carries.key.symm

theorem keeps_putSaved {reserved : Option (Int32 × UInt32)}
    (h : Keeps (.saved id session crypto reserved) w) :
    Keeps (.known id (.edit crypto reserved)) (w.putEntry id session [.put conn id session]) := by
  obtain ⟨hheld, hmirrors, hrow⟩ := h.here
  rw [Keeps, accounts_putEntry (by simp [Event.Neutral])]
  exact h.put (Or.inr rfl) (matches_of_mirrors hrow hmirrors hheld.unsettled) rfl hheld

theorem keeps_settle {reserved : Int32 × UInt32} {sendCounter : UInt32}
    (h : Keeps (.looked id (.edit crypto (some reserved)) session) w)
    (hcounter : succU32 crypto.sendCounter = some sendCounter) :
    Keeps (.settling id (session.settle { crypto with sendCounter }) crypto reserved)
      (w.modifyRow id fun row => { row with sendCounter, recvCounter := crypto.recvCounter }) := by
  obtain ⟨⟨hprepared, row, hrow, hkey⟩, r, hr, hmirrors, -⟩ := h.here
  cases hrow.symm.trans hr
  obtain ⟨r, hr, hseq⟩ := hprepared.row
  cases hrow.symm.trans hr
  have hadvanced : Advanced crypto { crypto with sendCounter } := ⟨sendCounter, hcounter, rfl⟩
  rw [Keeps, accounts_modifyRow hrow]
  have hledger : Ledger ⟨some { row with sendCounter, recvCounter := crypto.recvCounter },
      (w.accounts id).events⟩ :=
    (h.ledger id).of_answers hrow (Int64.le_refl row.lastMsgId) rfl fun honce =>
      (hprepared.ready honce).settle hadvanced ⟨rfl, hkey honce⟩ hseq
  refine h.write (Or.inl rfl) hledger rfl ?_
  simp only [Local, update_self]
  exact ⟨⟨⟨_, rfl, hseq⟩, hprepared.unsettled, hprepared.unused, hprepared.ready⟩, ⟨rfl, rfl⟩,
    hadvanced, _, rfl, hmirrors.authKeyId, hmirrors.last, hmirrors.counter, hmirrors.sendSeqNo⟩

theorem keeps_settleRow {reserved : Int32 × UInt32}
    (h : Keeps (.settling id session crypto reserved) w) :
    Keeps (.stored id session crypto reserved) (w.save (session.toRow id) []) := by
  obtain ⟨hprepared, hlevel, hadvanced, row, hrow, htracks⟩ := h.here
  obtain ⟨r, hr, hseq⟩ := hprepared.row
  cases hrow.symm.trans hr
  have hsent : (session.toRow id).sendSeqNo = reserved.1 := htracks.sendSeqNo.trans hseq
  rw [Keeps, accounts_save]
  have hle : row.lastMsgId ≤ (session.toRow id).lastMsgId := Int64.le_of_eq htracks.last.symm
  have hledger := (h.ledger id).of_answers hrow hle htracks.counter fun honce =>
    (hprepared.ready honce).settle hadvanced ⟨hlevel.sendCounter.symm, rfl⟩ hsent
  refine h.write (Or.inr rfl) hledger rfl ?_
  simp only [Local, update_self]
  exact ⟨⟨⟨_, rfl, hsent⟩, hprepared.unsettled, hprepared.unused, hprepared.ready⟩, hlevel,
    hadvanced, htracks.authKeyId, trivial⟩

theorem keeps_putSettled {reserved : Int32 × UInt32}
    (h : Keeps (.stored id session crypto reserved) w) :
    Keeps (.settled id crypto reserved) (w.putEntry id session [.put conn id session]) := by
  obtain ⟨hprepared, hlevel, hadvanced, hid, hrow⟩ := h.here
  have hmirrors := mirrors_toRow hid hlevel.sendCounter.symm
  rw [Keeps, accounts_putEntry (by simp [Event.Neutral])]
  have hmatches := matches_of_mirrors hrow hmirrors hprepared.unsettled
  refine h.put (Or.inr rfl) hmatches rfl ⟨hprepared, ?_, fun entry hentry => ?_⟩
  · exact ⟨_, _, hrow, hadvanced, hmirrors.carries⟩
  · rw [update_self] at hentry
    cases hentry
    exact ⟨_, hrow, hmirrors, sessionOfRow_toRow hid hlevel⟩

theorem keeps_stamp {seqNo : Int32} {counter : UInt32}
    (h : Keeps (.settled id crypto (seqNo, counter)) w) (now : Nat) (random : Vector UInt8 12)
    (data : Bytes) : Keeps .idle (w.log
      [.sent conn (responseFrame id crypto random (withHeader (msgId now counter) seqNo data)),
        .stamped conn id now counter,
        .sealed conn id (responseFrame id crypto random
          (withHeader (msgId now counter) seqNo data))]) := by
  obtain ⟨hprepared, ⟨row, crypto', hrow, hadvanced, hcarries⟩, hfull⟩ := h.here
  obtain ⟨r, hr, hseq⟩ := hprepared.row
  cases hrow.symm.trans hr
  have hanswers (honce : Once (w.accounts id).events) := by
    have hstamp := (hprepared.ready honce).stamp hadvanced hcarries hseq conn id now counter random
      (msgId now counter) data
    rwa [← hrow] at hstamp
  rw [Keeps, accounts_stamp]
  refine h.change rfl ((h.ledger id).stampedWith hprepared.unused conn id now _ hanswers) ?_ rfl
    trivial
  intro session hc
  obtain ⟨row, hrow, hmirrors, heq⟩ := hfull session hc
  exact ⟨row, hrow, hmirrors, fun _ => heq⟩

end Edit

section Create

variable {id : Int64} {session : SessionData} {back : Option FrameSession}

theorem held_of_serving {s : FrameSession} (h : Keeps (.serving (some s)) w) :
    Held (w.accounts s.id) (.edit s.crypto none) := h.here

theorem keeps_establish (h : Keeps (.serving back) w) (hfresh : Fresh id session) :
    Keeps (.creating id session back) (w.save (session.toRow id) [.established id]) := by
  rw [Keeps, accounts_saveEvent (e := .established id) (beq_self_eq_true id)]
  have hwindow : (Phase.serving back).window = none := by cases back <;> rfl
  refine h.write (Or.inl hwindow) (ledger_created hfresh.msgIdCounter hfresh.sendCounter
    hfresh.sendSeqNo id _) rfl ?_
  refine ⟨hfresh, ?_, ?_, fun s hs => ?_⟩
  · rw [update_self]
  · rw [update_self]
    rfl
  · subst hs
    have hheld := held_of_serving h
    by_cases he : s.id = id
    · obtain ⟨hun, row, hrow, -⟩ := hheld
      subst he
      rw [update_self]
      refine ⟨hun, _, rfl, fun honce => ?_⟩
      -- the row has been rewritten while its request is handled
      have hcreated := (h.ledger s.id).created row hrow
      change ((history s.id w.trace).filter Event.establishes).length + 1 ≤ 1 at honce
      change 0 < ((history s.id w.trace).filter Event.establishes).length at hcreated
      omega
    · rw [update_of_ne he]
      exact hheld

theorem keeps_renew (h : Keeps (.creating id session back) w) :
    Keeps (.renewed id { session with recentMsgIds := w.state.nextRecent } back) w.renew := by
  obtain ⟨hfresh, hrow, hepoch, hback⟩ := h.here
  refine ⟨h.ledger, h.coherent, ?_, hrow, hepoch, hback⟩
  exact ⟨hfresh.authKeyId, hfresh.lastRecvMsgId, hfresh.msgIdCounter, hfresh.sendSeqNo,
    hfresh.sendCounter, hfresh.level⟩

theorem keeps_createRow (h : Keeps (.renewed id session back) w) :
    Keeps (.renewed id session back) (w.save (session.toRow id) []) := by
  have hrow : w.row id = some (session.toRow id) := h.here.2.1
  rw [Keeps, accounts_save, ← hrow]
  have hsame : update w.accounts id ⟨w.row id, history id w.trace⟩ = w.accounts :=
    update_eq_self id w.accounts
  rw [hsame]
  exact h

theorem keeps_putCreated (h : Keeps (.renewed id session back) w) :
    Keeps (.serving back) (w.putEntry id session [.put conn id session]) := by
  obtain ⟨hfresh, hrow, -, hback⟩ := h.here
  rw [Keeps, accounts_putEntry (by simp [Event.Neutral])]
  have hwindow : (Phase.serving back).window = none := by cases back <;> rfl
  refine h.put (Or.inr rfl) ?_ hwindow ?_
  · refine ⟨_, hrow, mirrors_toRow hfresh.authKeyId hfresh.level.1.symm, fun _ => ?_⟩
    exact sessionOfRow_toRow hfresh.authKeyId ⟨hfresh.level.1, hfresh.level.2⟩
  · cases back with
    | none => trivial
    | some s => exact hback s rfl

end Create

theorem keeps_move (h : Keeps ph w) (hm : Move conn ph w w' ph') : Keeps ph' w' := by
  cases hm with
  | quiet hq =>
    rw [Keeps, accounts_quiet hq, hq.cache]
    exact h
  | find hcache =>
    obtain ⟨row, hrow, -⟩ := h.coherent _ _ nofun hcache
    exact ⟨h.ledger, h.coherent, row, hrow⟩
  | read hrow => exact ⟨h.ledger, h.coherent, hrow⟩
  | load => exact keeps_load h
  | hold hcache => exact keeps_hold h hcache
  | readHeld hrow => exact ⟨h.ledger, h.coherent, h.here, hrow⟩
  | loadHeld => exact keeps_loadHeld h
  | lose hnone =>
    obtain ⟨row, hrow⟩ := Held.exists_row h.here
    exact absurd (hrow.symm.trans hnone) nofun
  | lost => exact h.here.elim
  | pass hlast => exact ⟨h.ledger, h.coherent, h.here.2, hlast⟩
  | commit => exact keeps_commit h _ _
  | commitCounters => exact keeps_commitCounters h
  | commitRow => exact keeps_commitRow h
  | accept => exact keeps_accept h
  | dispatch => exact keeps_dispatch h _
  | dispatchPlain =>
    rw [Keeps, accounts_log (by simp [Event.Neutral])]
    exact h
  | rename => exact keeps_modifyRow h (fun _ => rfl) (fun _ _ => rfl) fun _ _ => ⟨rfl, rfl, rfl⟩
  | saveUser => exact keeps_saveUser h _
  | reserve hseq => exact keeps_reserve h hseq
  | putSaved => exact keeps_putSaved h
  | @sendState id crypto seqNo counter =>
    have hprepared : Prepared (w.accounts id) crypto seqNo counter := h.here.1
    refine keeps_modifyRow h (fun _ => rfl) (fun row hrow => ?_) fun row hrow => ?_
    · exact ((h.ledger id).next_counter hprepared.unused hrow).symm
    · obtain ⟨r, hr, hseq⟩ := hprepared.row
      cases hrow.symm.trans hr
      exact ⟨rfl, hseq.symm, rfl⟩
  | settle hcounter => exact keeps_settle h hcounter
  | settleRow => exact keeps_settleRow h
  | putSettled => exact keeps_putSettled h
  | stamp => exact keeps_stamp h _ _ _
  | sendPlain =>
    rw [Keeps, accounts_log (by simp [Event.Neutral])]
    exact h
  | establish hfresh => exact keeps_establish h hfresh
  | renew => exact keeps_renew h
  | createRow => exact keeps_createRow h
  | putCreated => exact keeps_putCreated h
  | finish hclosed =>
    have hwindow : ph.window = none := by
      cases ph with
      | committing | committed | saved | settling | stored | creating | renewed =>
        exact hclosed.elim
      | _ => rfl
    have hcoherent := h.coherent
    rw [hwindow] at hcoherent
    rw [Keeps, accounts_log (by simp [Event.Neutral])]
    exact ⟨h.ledger, hcoherent, trivial⟩

end Moves

end KoSta.Server
