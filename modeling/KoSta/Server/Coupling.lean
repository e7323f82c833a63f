import KoSta.Server.Unregistered

/-! Two servers that no frame can tell apart, side by side. -/
namespace KoSta.Server
open Lib Lib.Prog Tl Crypto Function

variable {α β : Type} {w w' w₁ : World} {id : Int64}

/-! ### What the loop decides -/

inductive Decision where
  | dispatched (conn : ConnId) (session : Option (Int64 × Int64)) (obj : TlObject)
  | accepted (conn : ConnId)
  | rejected (conn : ConnId)
  | ended (conn : ConnId)
  deriving DecidableEq

def Event.decision? : Event → Option Decision
  | .dispatched conn session obj => some (.dispatched conn session obj)
  | .finished conn (.ok (.rejected _)) => some (.rejected conn)
  | .finished conn (.ok _) => some (.accepted conn)
  | .finished conn (.error _) => some (.ended conn)
  | _ => none

/-- The decisions of a run, newest first. -/
def decisions (trace : List Event) : List Decision := trace.filterMap Event.decision?

theorem decisions_append (events trace : List Event) :
    decisions (events ++ trace) = decisions events ++ decisions trace := List.filterMap_append

/-! ### Sessions as the next frame finds them -/

/-- The session apart from where its recent set is kept. -/
def SessionData.bare (session : SessionData) : SessionData := { session with recentMsgIds := 0 }

/-- The session and its recent ids, from the cache or as they would be loaded. -/
def World.session (w : World) (id : Int64) : Option (SessionData × List Int64) :=
  match w.state.cache id with
  | some session => some (session.bare, w.state.recents session.recentMsgIds)
  | none => (w.row id).map fun full => (sessionOfRow id full 0, [])

/-- Every recent set belongs to one entry, and the next one to none. -/
structure Owned (w : World) : Prop where
  below : ∀ i session, w.state.cache i = some session → session.recentMsgIds < w.state.nextRecent
  apart : ∀ i j session session', w.state.cache i = some session →
    w.state.cache j = some session' → session.recentMsgIds = session'.recentMsgIds → i = j

/-- The frames that follow cannot tell the two states apart. -/
structure Resembles (w w' : World) : Prop where
  db : w.state.db = w'.state.db
  handshakes : w.state.handshakes = w'.state.handshakes
  sessions : ∀ i, w.session i = w'.session i

variable {session : SessionData}

theorem Resembles.symm (h : Resembles w w') : Resembles w' w :=
  ⟨h.db.symm, h.handshakes.symm, fun i => (h.sessions i).symm⟩

theorem Resembles.trans {w'' : World} (h : Resembles w w') (h' : Resembles w' w'') :
    Resembles w w'' :=
  ⟨h.db.trans h'.db, h.handshakes.trans h'.handshakes,
    fun i => (h.sessions i).trans (h'.sessions i)⟩

theorem session_of_cache (h : w.state.cache id = some session) :
    w.session id = some (session.bare, w.state.recents session.recentMsgIds) := by
  unfold World.session
  rw [h]

theorem session_of_row (h : w.state.cache id = none) :
    w.session id = (w.row id).map fun full => (sessionOfRow id full 0, []) := by
  unfold World.session
  rw [h]

/-- A session depends on its entry, on the recent set of that entry and on its row. -/
theorem session_congr (hcache : w'.state.cache id = w.state.cache id)
    (hrow : w'.row id = w.row id)
    (hrecents : ∀ session, w.state.cache id = some session →
      w'.state.recents session.recentMsgIds = w.state.recents session.recentMsgIds) :
    w'.session id = w.session id := by
  cases hentry : w.state.cache id with
  | none =>
    rw [session_of_row hentry, session_of_row (hcache.trans hentry), hrow]
  | some session =>
    rw [session_of_cache hentry, session_of_cache (hcache.trans hentry), hrecents session hentry]

theorem Owned.of_eq (h : Owned w) (hcache : w'.state.cache = w.state.cache)
    (hnext : w'.state.nextRecent = w.state.nextRecent) : Owned w' := by
  constructor
  · intro i session hs
    rw [hnext]
    exact h.below i session (hcache ▸ hs)
  · intro i j session session' hs hs'
    exact h.apart i j session session' (hcache ▸ hs) (hcache ▸ hs')

/-- An entry may be replaced by one with the same recent set. -/
theorem Owned.put {t : SessionData} (h : Owned w) (ht : w.state.cache id = some t)
    (hs : session.recentMsgIds = t.recentMsgIds)
    (hcache : w'.state.cache = update w.state.cache id (some session))
    (hnext : w'.state.nextRecent = w.state.nextRecent) : Owned w' := by
  have hentry (i : Int64) (s : SessionData) (hi : w'.state.cache i = some s) :
      ∃ s', w.state.cache i = some s' ∧ s.recentMsgIds = s'.recentMsgIds := by
    rw [hcache] at hi
    by_cases hid : i = id
    · subst hid
      rw [update_self] at hi
      cases hi
      exact ⟨t, ht, hs⟩
    · rw [update_of_ne hid] at hi
      exact ⟨s, hi, rfl⟩
  constructor
  · intro i s hi
    obtain ⟨s', hs', heq⟩ := hentry i s hi
    rw [hnext, heq]
    exact h.below i s' hs'
  · intro i j s s' hi hj hsame
    obtain ⟨t₁, ht₁, heq₁⟩ := hentry i s hi
    obtain ⟨t₂, ht₂, heq₂⟩ := hentry j s' hj
    exact h.apart i j t₁ t₂ ht₁ ht₂ (heq₁.symm.trans (hsame.trans heq₂))

/-- A new entry takes the next recent set. -/
theorem Owned.install (h : Owned w) (hs : session.recentMsgIds = w.state.nextRecent)
    (hcache : w'.state.cache = update w.state.cache id (some session))
    (hnext : w'.state.nextRecent = w.state.nextRecent + 1) : Owned w' := by
  have hentry (i : Int64) (s : SessionData) (hi : w'.state.cache i = some s) :
      (i = id ∧ s = session) ∨ (i ≠ id ∧ w.state.cache i = some s) := by
    rw [hcache] at hi
    by_cases hid : i = id
    · subst hid
      rw [update_self] at hi
      exact Or.inl ⟨rfl, (Option.some.inj hi).symm⟩
    · rw [update_of_ne hid] at hi
      exact Or.inr ⟨hid, hi⟩
  constructor
  · intro i s hi
    rw [hnext]
    rcases hentry i s hi with ⟨-, rfl⟩ | ⟨-, hold⟩
    · rw [hs]
      exact Nat.lt_succ_self _
    · exact Nat.lt_succ_of_lt (h.below i s hold)
  · intro i j s s' hi hj hsame
    rcases hentry i s hi with ⟨rfl, rfl⟩ | ⟨-, hold⟩ <;>
      rcases hentry j s' hj with ⟨rfl, rfl⟩ | ⟨-, hold'⟩
    · rfl
    · exact absurd (hsame.symm.trans hs) (Nat.ne_of_lt (h.below j s' hold'))
    · exact absurd (hsame.trans hs) (Nat.ne_of_lt (h.below i s hold))
    · exact h.apart i j s s' hold hold' hsame

theorem Owned.evict (h : Owned w) (id : Int64) : Owned (evict id w) := by
  have hentry (i : Int64) (s : SessionData)
    (hi : (KoSta.Server.evict id w).state.cache i = some s) :
      w.state.cache i = some s := by
    by_cases hid : i = id
    · rw [hid] at hi
      cases (evict_cache_self id w).symm.trans hi
    · exact (update_of_ne hid _ _ : _ = w.state.cache i).symm.trans hi
  exact ⟨fun i s hi => h.below i s (hentry i s hi),
    fun i j s s' hi hj => h.apart i j s s' (hentry i s hi) (hentry j s' hj)⟩

/-! ### Lookups -/

/-- A lookup has put the session into the cache and changed nothing that a frame can tell. -/
structure Found (id : Int64) (session : SessionData) (w w₁ : World) : Prop extends
    Resembles w₁ w where
  owned : Owned w₁
  entry : w₁.state.cache id = some session
  told : decisions w₁.trace = decisions w.trace

theorem getSession_cases (conn : ConnId) (id : Int64) (mark : SessionData → List Event)
    (hmark : ∀ session, decisions (mark session) = []) (h : Owned w) :
    (w.session id = none ∧ (getSession conn id mark).exec w = (.ok none, w)) ∨
    ∃ session w₁, (getSession conn id mark).exec w = (.ok (some session), w₁) ∧
      Found id session w w₁ := by
  cases hentry : w.state.cache id with
  | some session =>
    refine Or.inr ⟨session, _, exec_getSession_hit conn mark hentry, ?_⟩
    refine { db := rfl, handshakes := rfl, sessions := fun _ => rfl, owned := h.of_eq rfl rfl
             entry := hentry, told := ?_ }
    change decisions (mark session ++ w.trace) = _
    rw [decisions_append, hmark, List.nil_append]
  | none =>
    cases hrow : w.row id with
    | none =>
      refine Or.inl ⟨?_, exec_getSession_none conn mark hentry hrow⟩
      rw [session_of_row hentry, hrow]
      rfl
    | some full =>
      refine Or.inr ⟨_, _, exec_getSession_miss conn mark hentry hrow, ?_⟩
      refine { db := rfl, handshakes := rfl, sessions := fun i => ?_
               owned := h.install rfl rfl rfl, entry := update_self _ _ _, told := ?_ }
      · by_cases hi : i = id
        · subst hi
          rw [session_of_row hentry, hrow, session_of_cache (update_self _ _ _)]
          have hempty : update w.state.recents w.state.nextRecent [] w.state.nextRecent = [] :=
            update_self _ _ _
          exact congrArg some (Prod.ext rfl hempty)
        · refine session_congr (update_of_ne hi _ _) rfl fun s hs => ?_
          exact update_of_ne (Nat.ne_of_lt (h.below i s hs)) _ _
      · change decisions (mark _ ++ [_] ++ w.trace) = _
        rw [decisions_append, decisions_append, hmark]
        rfl

/-! ### Two servers side by side -/

/-- Two states that no frame can tell apart and runs that have decided alike. Both have the
session in hand, if there is one, in the cache. -/
structure Coupled (held : Option Int64) (w w' : World) : Prop extends Resembles w w' where
  owned : Owned w
  owned' : Owned w'
  told : decisions w.trace = decisions w'.trace
  held : ∀ i ∈ held, (w.state.cache i).isSome ∧ (w'.state.cache i).isSome

theorem Coupled.release {held : Option Int64} (h : Coupled held w w') : Coupled none w w' :=
  { h with held := nofun }

/-- The clones that two lookups of one session have handed out. -/
structure Clones (id : Int64) (session session' : SessionData) (w w' : World) : Prop extends
    Coupled (some id) w w' where
  bare : session.bare = session'.bare
  entry : ∃ s, w.state.cache id = some s ∧ session.recentMsgIds = s.recentMsgIds
  entry' : ∃ s, w'.state.cache id = some s ∧ session'.recentMsgIds = s.recentMsgIds

/-- Both runs of the program end in one value, with the session still in hand. -/
abbrev Together (held : Option Int64) (p : ServerM α) : Prop :=
  Couples (Coupled held) (Coupled none) (fun a b w w' => a = b ∧ Coupled held w w') p p

theorem Together.pure {held : Option Int64} (a : α) : Together held (pure a) :=
  Couples.pure fun _ _ h => ⟨rfl, h⟩

theorem Together.fail {held : Option Int64} (e : Stop) : Together held (fail e : ServerM α) :=
  Couples.fail fun _ _ h => h.release

/-! ### What each section keeps -/

theorem isSome_update {i : Int64} (h : (w.state.cache i).isSome)
    (hcache : w'.state.cache = update w.state.cache id (some session)) :
    (w'.state.cache i).isSome := by
  rw [hcache]
  by_cases hi : i = id
  · rw [hi, update_self]
    rfl
  · rwa [update_of_ne hi]

theorem Coupled.log {held : Option Int64} {events events' : List Event} (h : Coupled held w w')
    (htold : decisions events = decisions events') : Coupled held (w.log events) (w'.log events') :=
  { h with
    owned := h.owned.of_eq rfl rfl
    owned' := h.owned'.of_eq rfl rfl
    told := by
      change decisions (events ++ w.trace) = decisions (events' ++ w'.trace)
      rw [decisions_append, decisions_append, htold, h.told] }

/-- The session in hand is in the cache, so its row can change behind it. -/
theorem session_modifyRow {f : FullSession → FullSession} (h : (w.state.cache id).isSome)
    (i : Int64) : (w.modifyRow id f).session i = w.session i := by
  by_cases hi : i = id
  · obtain ⟨session, hs⟩ := Option.isSome_iff_exists.mp h
    subst hi
    rw [session_of_cache hs, session_of_cache (w := w.modifyRow i f) hs]
    rfl
  · refine session_congr rfl ?_ fun _ _ => rfl
    exact if_neg hi

theorem Coupled.modifyRow (h : Coupled (some id) w w') (f : FullSession → FullSession) :
    Coupled (some id) (w.modifyRow id f) (w'.modifyRow id f) := by
  obtain ⟨hcached, hcached'⟩ := h.held id rfl
  refine { h with
    db := congrArg (Database.modifySession · id f) h.db
    sessions := fun i => ?_
    owned := h.owned.of_eq rfl rfl
    owned' := h.owned'.of_eq rfl rfl }
  rw [session_modifyRow hcached, session_modifyRow hcached']
  exact h.sessions i

theorem Clones.modifyRow {session' : SessionData} (h : Clones id session session' w w')
    (f : FullSession → FullSession) :
    Clones id session session' (w.modifyRow id f) (w'.modifyRow id f) :=
  { h.toCoupled.modifyRow f with bare := h.bare, entry := h.entry, entry' := h.entry' }

theorem Clones.recents {session' : SessionData} (h : Clones id session session' w w') :
    w.state.recents session.recentMsgIds = w'.state.recents session'.recentMsgIds := by
  obtain ⟨s, hs, heq⟩ := h.entry
  obtain ⟨s', hs', heq'⟩ := h.entry'
  have hsessions := h.sessions id
  rw [session_of_cache hs, session_of_cache hs'] at hsessions
  rw [heq, heq']
  exact congrArg Prod.snd (Option.some.inj hsessions)

/-- A clone with other fields is written back: its row first, then its entry. -/
theorem session_writeBack {t : SessionData} {saved events : List Event} {i : Int64} (hi : i ≠ id) :
    ((w.save (t.toRow id) saved).putEntry id t events).session i = w.session i :=
  session_congr (update_of_ne hi _ _) (if_neg hi) fun _ _ => rfl

theorem Clones.writeBack {session' t t' : SessionData} {saved saved' events events' : List Event}
    (h : Clones id session session' w w') (hbare : t.bare = t'.bare)
    (ht : t.recentMsgIds = session.recentMsgIds) (ht' : t'.recentMsgIds = session'.recentMsgIds)
    (hsaved : decisions saved = decisions saved') (hevents : decisions events = decisions events') :
    Coupled (some id) ((w.save (t.toRow id) saved).putEntry id t events)
      ((w'.save (t'.toRow id) saved').putEntry id t' events') := by
  have hrow := congrArg (fun s : SessionData => s.toRow id) hbare
  change t.toRow id = t'.toRow id at hrow
  obtain ⟨s, hs, heq⟩ := h.entry
  obtain ⟨s', hs', heq'⟩ := h.entry'
  refine
    { db := ?_, handshakes := h.handshakes, sessions := fun i => ?_
      owned := h.owned.put hs (ht.trans heq) rfl rfl
      owned' := h.owned'.put hs' (ht'.trans heq') rfl rfl
      told := ?_, held := fun i hi => ?_ }
  · change (Database.saveSessionFull (t.toRow id) w.state.db).2 =
      (Database.saveSessionFull (t'.toRow id) w'.state.db).2
    rw [hrow, h.db]
  · by_cases hi : i = id
    · subst hi
      rw [session_of_cache (update_self _ _ _), session_of_cache (update_self _ _ _)]
      refine congrArg some (Prod.ext hbare ?_)
      change w.state.recents t.recentMsgIds = w'.state.recents t'.recentMsgIds
      rw [ht, ht']
      exact h.recents
    · rw [session_writeBack hi, session_writeBack hi]
      exact h.sessions i
  · change decisions (events ++ (saved ++ w.trace)) = decisions (events' ++ (saved' ++ w'.trace))
    rw [decisions_append, decisions_append, decisions_append, decisions_append, hevents, hsaved,
      h.told]
  · obtain ⟨hcached, hcached'⟩ := h.held i hi
    exact ⟨isSome_update hcached rfl, isSome_update hcached' rfl⟩

/-- A new id goes into the recent set of this session and of no other. -/
theorem session_pass {s : SessionData} (howned : Owned w) (hs : w.state.cache id = some s)
    (hsame : session.recentMsgIds = s.recentMsgIds) (conn : ConnId) (msgId : Int64) {i : Int64}
    (hi : i ≠ id) : (w.pass conn id session msgId).session i = w.session i := by
  refine session_congr rfl rfl fun t ht => ?_
  refine update_of_ne (fun hp => hi ?_) _ _
  exact howned.apart i id t s ht hs (hp.trans hsame)

theorem Clones.pass {session' : SessionData} (h : Clones id session session' w w')
    (conn : ConnId) (msgId : Int64) : Clones id session session'
      (w.pass conn id session msgId) (w'.pass conn id session' msgId) := by
  obtain ⟨s, hs, heq⟩ := h.entry
  obtain ⟨s', hs', heq'⟩ := h.entry'
  refine { h with
    sessions := fun i => ?_
    owned := h.owned.of_eq rfl rfl
    owned' := h.owned'.of_eq rfl rfl
    told := h.told }
  by_cases hi : i = id
  · subst hi
    have hbare := h.sessions i
    rw [session_of_cache hs, session_of_cache hs'] at hbare
    rw [session_of_cache (w := w.pass conn i session msgId) hs,
      session_of_cache (w := w'.pass conn i session' msgId) hs']
    have hfst := congrArg Prod.fst (Option.some.inj hbare)
    refine congrArg some (Prod.ext hfst ?_)
    change update w.state.recents session.recentMsgIds _ s.recentMsgIds =
      update w'.state.recents session'.recentMsgIds _ s'.recentMsgIds
    rw [← heq, ← heq', update_self, update_self, h.recents]
  · rw [session_pass h.owned hs heq conn msgId hi, session_pass h.owned' hs' heq' conn msgId hi]
    exact h.sessions i

/-! ### The parts of a turn -/

section Parts

variable {held : Option Int64} {session' : SessionData} (conn : ConnId)

theorem couples_getSession (id : Int64) {mark : SessionData → List Event}
    (hmark : ∀ session, decisions (mark session) = []) :
    Couples (Coupled held) (Coupled none)
      (fun a b w w' => (a = none ∧ b = none ∧ w.session id = none ∧ Coupled held w w') ∨
        ∃ session session', a = some session ∧ b = some session' ∧
          Clones id session session' w w')
      (getSession conn id mark) (getSession conn id mark) := by
  intro w w' h
  left
  rcases getSession_cases conn id mark hmark h.owned with
    ⟨hnone, heq⟩ | ⟨session, w₁, heq, hfound⟩ <;>
  rcases getSession_cases conn id mark hmark h.owned' with
    ⟨hnone', heq'⟩ | ⟨session', w₁', heq', hfound'⟩
  · exact ⟨none, none, w, w', heq, heq', Or.inl ⟨rfl, rfl, hnone, h⟩⟩
  · have hsome := hfound'.sessions id
    rw [← h.sessions id, hnone, session_of_cache hfound'.entry] at hsome
    cases hsome
  · have hsome := hfound.sessions id
    rw [h.sessions id, hnone', session_of_cache hfound.entry] at hsome
    cases hsome
  · have hresembles : Resembles w₁ w₁' :=
      hfound.toResembles.trans (h.toResembles.trans hfound'.toResembles.symm)
    have hsession := hresembles.sessions id
    rw [session_of_cache hfound.entry, session_of_cache hfound'.entry] at hsession
    refine ⟨some session, some session', w₁, w₁', heq, heq',
      Or.inr ⟨session, session', rfl, rfl, ?_⟩⟩
    exact
      { hresembles with
        owned := hfound.owned
        owned' := hfound'.owned
        told := hfound.told.trans (h.told.trans hfound'.told.symm)
        held := by
          rintro i ⟨⟩
          rw [hfound.entry, hfound'.entry]
          exact ⟨rfl, rfl⟩
        bare := congrArg Prod.fst (Option.some.inj hsession)
        entry := ⟨session, hfound.entry, rfl⟩
        entry' := ⟨session', hfound'.entry, rfl⟩ }

/-- A session in hand is found. -/
theorem couples_getSession_held {id : Int64} {mark : SessionData → List Event}
    (hmark : ∀ session, decisions (mark session) = []) {Q : β → β → World → World → Prop}
    {k : Option SessionData → ServerM β}
    (hk : ∀ session session', session.bare = session'.bare →
      Couples (Clones id session session') (Coupled none) Q (k (some session))
        (k (some session'))) :
    Couples (Coupled (some id)) (Coupled none) Q (getSession conn id mark >>= k)
      (getSession conn id mark >>= k) := by
  refine Couples.bind (couples_getSession conn id hmark) fun a b => ?_
  rintro w w' (⟨-, -, hnone, h⟩ | ⟨session, session', rfl, rfl, h⟩)
  · obtain ⟨session, hs⟩ := Option.isSome_iff_exists.mp (h.held id rfl).1
    rw [session_of_cache hs] at hnone
    cases hnone
  · exact hk session session' h.bare w w' h

theorem couples_modify {R : World → World → Prop} {stmt : Statement Unit}
    {f : FullSession → FullSession} (hstmt : ∀ db, stmt db = (.ok (), db.modifySession id f))
    (hR : ∀ {w w'}, R w w' → R (w.modifyRow id f) (w'.modifyRow id f)) :
    Couples R (Coupled none) (fun _ _ => R) (sql stmt) (sql stmt) := by
  have hexec (w : World) : (sql stmt).exec w = (.ok (), w.modifyRow id f) := by
    rw [exec_sql (a := ()) (by rw [hstmt]), hstmt]
    rfl
  exact fun w w' h => Or.inl ⟨(), (), _, _, hexec w, hexec w', hR h⟩

theorem couples_updateSession {t t' : SessionData} {saved saved' cached cached' : List Event}
    (hbare : t.bare = t'.bare) (ht : t.recentMsgIds = session.recentMsgIds)
    (ht' : t'.recentMsgIds = session'.recentMsgIds) (hsaved : decisions saved = decisions saved')
    (hcached : decisions cached = decisions cached') :
    Couples (Clones id session session') (Coupled none) (fun _ _ => Coupled (some id))
      (updateSession conn id t saved cached) (updateSession conn id t' saved' cached') := by
  intro w w' h
  refine Or.inl ⟨(), (), _, _, rfl, rfl, h.writeBack hbare ht ht' hsaved ?_⟩
  rw [decisions_append, decisions_append, hcached]
  rfl

theorem couples_recordMsgId (msgId : Int64) :
    Couples (Clones id session session') (Coupled none)
      (fun a b w w' => a = b ∧ Clones id session session' w w')
      (recordMsgId conn id session msgId) (recordMsgId conn id session' msgId) := by
  intro w w' h
  left
  unfold recordMsgId
  rw [exec_locked, exec_locked, h.recents]
  dsimp only
  split
  · exact ⟨_, _, _, _, rfl, rfl, rfl, h⟩
  · refine ⟨_, _, _, _, rfl, rfl, rfl, ?_⟩
    have hpass := h.pass conn msgId
    unfold World.pass at hpass
    rwa [h.recents] at hpass

theorem couples_readFrom {R : World → World → Prop} (hR : ∀ {w w'}, R w w' → Coupled none w w')
    (r : Reader Tl.Error α) (bytes : Bytes) :
    Couples R (Coupled none) (fun a b w w' => a = b ∧ R w w') (readFrom r bytes)
      (readFrom r bytes) := by
  unfold readFrom
  cases r.run bytes with
  | ok a rest => exact Couples.pure fun _ _ h => ⟨rfl, h⟩
  | err e => exact Couples.fail fun _ _ h => hR h
  | panic => exact Couples.fail fun _ _ h => hR h

theorem couples_orPanic {R : World → World → Prop} (hR : ∀ {w w'}, R w w' → Coupled none w w')
    (x : Option α) :
    Couples R (Coupled none) (fun a b w w' => a = b ∧ R w w') (orPanic x) (orPanic x) := by
  cases x with
  | none => exact Couples.fail fun _ _ h => hR h
  | some a => exact Couples.pure fun _ _ h => ⟨rfl, h⟩

theorem couples_commitFrame (hbare : session.bare = session'.bare) (crypto : SessionCrypto)
    (msgId : Int64) (seqNo : Int32) :
    Couples (Clones id session session') (Coupled none) (fun _ _ => Coupled (some id))
      (commitFrame conn id session crypto msgId seqNo)
      (commitFrame conn id session' crypto msgId seqNo) := by
  refine Couples.bind (couples_modify (fun _ => rfl) fun h => h.modifyRow _) fun _ _ => ?_
  refine Couples.bind (couples_modify (fun _ => rfl) fun h => h.modifyRow _) fun _ _ => ?_
  refine couples_updateSession conn ?_ rfl rfl rfl rfl
  exact congrArg (fun s : SessionData => { s with
    crypto, recvSeqNo := seqNo, lastRecvMsgId := msgId })
    hbare

variable [Platform]

theorem couples_acceptMessage (hbare : session.bare = session'.bare) (now : Nat)
    (crypto : SessionCrypto) (plaintext : Bytes) :
    Couples (Clones id session session') (Coupled none)
      (fun a b w w' => a = b ∧ Coupled (some id) w w')
      (acceptMessage now conn id session crypto plaintext)
      (acceptMessage now conn id session' crypto plaintext) := by
  have hlast := congrArg SessionData.lastRecvMsgId hbare
  change session.lastRecvMsgId = session'.lastRecvMsgId at hlast
  have hseq := congrArg SessionData.recvSeqNo hbare
  change session.recvSeqNo = session'.recvSeqNo at hseq
  have hrelease {w w' : World} (h : Clones id session session' w w') : Coupled none w w' :=
    h.release
  have hreject (reason : Rejection) : Couples (Clones id session session') (Coupled none)
      (fun a b w w' => a = b ∧ Coupled (some id) w w')
      (pure (.error reason) : ServerM (Except Rejection (Bytes × FrameSession)))
      (pure (.error reason)) := Couples.pure fun _ _ h => ⟨rfl, h.toCoupled⟩
  unfold acceptMessage
  rw [hlast, hseq]
  refine Couples.bind_eq (couples_readFrom hrelease _ _) fun ⟨⟨msgId, seqNo⟩, tlData⟩ => ?_
  refine Couples.ite (hreject _) ?_
  refine Couples.bind_eq (couples_recordMsgId conn msgId) fun fresh => ?_
  refine Couples.ite (hreject _) ?_
  refine Couples.bind_eq (couples_orPanic hrelease _) fun expected => ?_
  refine Couples.ite (hreject _) ?_
  refine Couples.bind_eq (couples_orPanic hrelease _) fun diff => ?_
  refine Couples.ite (hreject _) ?_
  refine Couples.bind (couples_commitFrame conn hbare _ _ _) fun _ _ => ?_
  exact Couples.pure fun _ _ h => ⟨rfl, h⟩

theorem couples_receiveEncrypted (now : Nat) (raw : Bytes) :
    Together (some id) (receiveEncrypted now conn id raw) := by
  refine couples_getSession_held conn (fun _ => rfl) fun session session' hbare => ?_
  have hcrypto := congrArg SessionData.crypto hbare
  change session.crypto = session'.crypto at hcrypto
  have hreject (reason : Rejection) : Couples (Clones id session session') (Coupled none)
      (fun a b w w' => a = b ∧ Coupled (some id) w w')
      (pure (.error reason) : ServerM (Except Rejection (Bytes × FrameSession)))
      (pure (.error reason)) := Couples.pure fun _ _ h => ⟨rfl, h.toCoupled⟩
  refine Couples.ite (hreject _) ?_
  rw [← hcrypto]
  split
  · exact Couples.fail fun _ _ h => h.release
  · exact hreject _
  · exact couples_acceptMessage conn hbare _ _ _

theorem couples_reserveResponse : Together (some id) (reserveResponse conn id) := by
  refine couples_getSession_held conn (fun _ => rfl) fun session session' hbare => ?_
  have hseq := congrArg SessionData.sendSeqNo hbare
  change session.sendSeqNo = session'.sendSeqNo at hseq
  have hcounter := congrArg SessionData.msgIdCounter hbare
  change session.msgIdCounter = session'.msgIdCounter at hcounter
  dsimp only
  rw [← hseq, ← hcounter]
  refine Couples.bind_eq (couples_orPanic (fun h => h.release) _) fun seq => ?_
  refine Couples.bind (couples_updateSession conn ?_ rfl rfl rfl rfl) fun _ _ => ?_
  · exact congrArg (fun s : SessionData =>
      { s with sendSeqNo := seq, msgIdCounter := session.msgIdCounter + 1 }) hbare
  · refine Couples.bind (couples_modify (fun _ => rfl) fun h => h.modifyRow _) fun _ _ => ?_
    exact Together.pure _

omit [Platform] in
theorem couples_storeCounters (crypto : SessionCrypto) :
    Couples (Coupled (some id)) (Coupled none) (fun _ _ => Coupled (some id))
      (storeCounters conn id crypto) (storeCounters conn id crypto) := by
  refine couples_getSession_held conn (fun _ => rfl) fun session session' hbare => ?_
  refine Couples.bind (couples_modify (fun _ => rfl) fun h => h.modifyRow _) fun _ _ => ?_
  refine couples_updateSession conn ?_ rfl rfl rfl rfl
  exact congrArg (fun s : SessionData =>
    { s with crypto, sendCounter := crypto.sendCounter, recvCounter := crypto.recvCounter }) hbare

omit [Platform] in
theorem couples_log {events : List Event} {f : State → (Unit × List Event) × State}
    (hf : ∀ s, f s = (((), events), s)) : Together held (locked f) := by
  intro w w' h
  refine Or.inl ⟨(), (), w.log events, w'.log events, ?_, ?_, rfl, h.log rfl⟩
  · rw [exec_locked, hf]
    rfl
  · rw [exec_locked, hf]
    rfl

omit [Platform] in
theorem couples_transportSend (data : Bytes) (events : List Event) :
    Together held (transportSend conn data events) := by
  unfold transportSend
  split
  · exact couples_log fun _ => rfl
  · exact Together.fail _

theorem couples_respond (draws : FrameDraws) (session : Option FrameSession) (data : Bytes) :
    Together (session.map FrameSession.id) (respond draws conn session data) := by
  cases session with
  | none => exact couples_transportSend conn data []
  | some session =>
    refine Couples.bind_eq (couples_reserveResponse conn) fun ⟨seqNo, counter⟩ => ?_
    refine Couples.bind_eq (couples_orPanic (fun h => h.release) _) fun ⟨sealed, crypto⟩ => ?_
    refine Couples.bind (couples_storeCounters conn crypto) fun _ _ => ?_
    exact couples_transportSend conn _ _

theorem couples_finishTurn (draws : FrameDraws) (session : Option FrameSession)
    (reply : Option Bytes) :
    Together (session.map FrameSession.id) (finishTurn draws conn session reply) := by
  cases reply with
  | none => exact Together.pure _
  | some data =>
    exact Couples.bind_eq (couples_respond conn draws session data) fun _ => Together.pure _

/-! #### Requests -/

omit [Platform] in
theorem session_of_quiet (h : Quiet w w₁) (i : Int64) : w₁.session i = w.session i :=
  session_congr (congrFun h.cache i) (congrFun h.sessions i) fun _ _ => congrFun h.recents _

omit [Platform] in
theorem couples_quietly {p : ServerM α} (hp : Quietly p) : Together held p := by
  intro w w' h
  have hquiet (w : World) : Quiet w (p.exec w).2 :=
    hp.always.exec Quiet.refl (fun h h' => h.trans h') w
  obtain ⟨hresult, hview⟩ := hp.exec_eq (Prod.ext h.db h.handshakes : stored w = stored w')
  have hafter : Coupled held (p.exec w).2 (p.exec w').2 :=
    { db := congrArg Prod.fst hview
      handshakes := congrArg Prod.snd hview
      sessions := fun i => by rw [session_of_quiet (hquiet w),
        session_of_quiet (hquiet w'), h.sessions]
      owned := h.owned.of_eq (hquiet w).cache (hquiet w).nextRecent
      owned' := h.owned'.of_eq (hquiet w').cache (hquiet w').nextRecent
      told := by rw [(hquiet w).trace, (hquiet w').trace, h.told]
      held := by
        rw [(hquiet w).cache, (hquiet w').cache]
        exact h.held }
  cases hresult' : (p.exec w).1 with
  | ok a =>
    exact Or.inl ⟨a, a, _, _, Prod.ext hresult' rfl, Prod.ext (hresult.symm.trans hresult') rfl,
      rfl, hafter⟩
  | error e =>
    exact Or.inr ⟨e, _, _, Prod.ext hresult' rfl, Prod.ext (hresult.symm.trans hresult') rfl,
      hafter.release⟩

omit [Platform] in
/-- Both servers create the same session, each with its next recent set. -/
theorem Coupled.create {make : RecentMsgIds → SessionData} (h : Coupled held w w')
    (hmake : ∀ p, make p = { make 0 with recentMsgIds := p }) (conn : ConnId) (id : Int64) :
    Coupled held (w.create conn id make) (w'.create conn id make) := by
  have hbare (p p' : RecentMsgIds) : (make p).bare = (make p').bare := by
    rw [hmake p, hmake p']
    rfl
  have hrow (p : RecentMsgIds) : (make p).toRow id = (make 0).toRow id := by
    rw [hmake p]
    rfl
  have hpointer (p : RecentMsgIds) : (make p).recentMsgIds = p := by
    rw [hmake p]
  have hother {w : World} (howned : Owned w) {i : Int64} (hi : i ≠ id) :
      (w.create conn id make).session i = w.session i := by
    refine session_congr (update_of_ne hi _ _) ?_ fun s hs => ?_
    · exact (if_neg hi).trans (if_neg hi)
    · exact update_of_ne (Nat.ne_of_lt (howned.below i s hs)) _ _
  have hself (w : World) : (w.create conn id make).session id = some ((make 0).bare, []) := by
    rw [session_of_cache (update_self _ _ _), hbare _ 0, hpointer]
    exact congrArg (fun recent => some ((make 0).bare, recent)) (update_self _ _ _)
  refine
    { db := ?_, handshakes := h.handshakes, sessions := fun i => ?_
      owned := h.owned.install (hpointer _) rfl rfl
      owned' := h.owned'.install (hpointer _) rfl rfl
      told := h.told, held := fun i hi => ?_ }
  · change (Database.saveSessionFull ((make w.state.nextRecent).toRow id)
        (Database.saveSessionFull ((make 0).toRow id) w.state.db).2).2 =
      (Database.saveSessionFull ((make w'.state.nextRecent).toRow id)
        (Database.saveSessionFull ((make 0).toRow id) w'.state.db).2).2
    rw [hrow, hrow w'.state.nextRecent, h.db]
  · by_cases hi : i = id
    · rw [hi, hself, hself]
    · rw [hother h.owned hi, hother h.owned' hi, h.sessions]
  · obtain ⟨hcached, hcached'⟩ := h.held i hi
    exact ⟨isSome_update hcached rfl, isSome_update hcached' rfl⟩

theorem couples_establish (statics : Statics) (req : SetClientDHParams) (entry : Handshake)
    (inner : ClientDHInnerData) : Together held (establish statics conn req entry inner) := by
  intro w w' h
  let key := handshakeKey req.nonce req.serverNonce
  let make := newSession (secretOf statics entry inner) req.nonce req.serverNonce entry.newNonce
  let id := computeAuthKeyId (secretOf statics entry inner)
  have hexec (w : World) : (establish statics conn req entry inner).exec w =
      (.ok (some (genOk req (secretOf statics entry inner)).writeBoxed),
        (w.create conn id make).setHandshake key none) := rfl
  have hcreate : Coupled held (w.create conn id make) (w'.create conn id make) :=
    h.create (fun _ => rfl) conn id
  refine Or.inl ⟨_, _, _, _, hexec w, hexec w', rfl, ?_⟩
  exact
    { db := hcreate.db
      handshakes := congrArg (fun store : Bytes → Option Handshake => update store key none)
        hcreate.handshakes
      sessions := hcreate.sessions
      owned := hcreate.owned.of_eq rfl rfl
      owned' := hcreate.owned'.of_eq rfl rfl
      told := hcreate.told
      held := hcreate.held }

theorem couples_handleSetClientDhParams (statics : Statics) (draws : Draws)
    (req : SetClientDHParams) :
    Together held (handleSetClientDhParams statics draws conn req) := by
  rw [handleSetClientDhParams_eq]
  refine Couples.bind_eq (couples_quietly (quiet_cleanHandshakeStore _)) fun _ => ?_
  refine Couples.bind_eq (couples_quietly (quiet_getHandshake _)) fun found => ?_
  cases found with
  | none => exact Together.fail _
  | some entry =>
    rcases finishWith_cases statics conn req entry with ⟨e, heq, -⟩ | ⟨inner, -, heq⟩
    · rw [heq]
      exact Together.fail e
    · rw [heq]
      exact couples_establish conn statics req entry inner

theorem couples_handleSignUp (draws : Draws) (held : Option Int64) (req : SignUp) :
    Together held (handleSignUp draws conn held req) := by
  refine Couples.bind_eq (couples_quietly (quiet_sql (keepsSessions_insertUser _ _)))
    fun userId => ?_
  cases held with
  | none => exact Together.pure _
  | some id =>
    refine Couples.bind (couples_modify (fun _ => rfl) fun h => h.modifyRow _) fun _ _ => ?_
    refine couples_getSession_held conn (fun _ => rfl) fun session session' hbare => ?_
    refine Couples.bind (couples_updateSession conn ?_ rfl rfl rfl rfl) fun _ _ => Together.pure _
    exact congrArg (fun s : SessionData => { s with userId }) hbare

theorem couples_handleRequest (statics : Statics) (draws : Draws) (obj : TlObject)
    (held : Option Int64) : Together held (handleRequest statics draws conn obj held) := by
  rcases handleRequest_cases held statics draws conn obj with
    ⟨req, rfl⟩ | ⟨req, rfl⟩ | hquiet
  · exact couples_handleSignUp conn draws held req
  · exact couples_handleSetClientDhParams conn statics draws req
  · exact couples_quietly hquiet

theorem couples_dispatch (statics : Statics) (draws : FrameDraws) (session : Option FrameSession)
    (tlData : Bytes) :
    Together (session.map FrameSession.id) (dispatch statics draws conn session tlData) := by
  cases hread : TlObject.readBoxed.run tlData with
  | err e =>
    unfold dispatch
    rw [hread]
    exact Together.pure _
  | panic =>
    unfold dispatch
    rw [hread]
    exact Together.fail _
  | ok obj rest =>
    rw [dispatch_eq statics draws conn session hread]
    refine Couples.bind_eq (couples_log fun _ => rfl) fun _ => ?_
    refine Couples.bind_eq (couples_handleRequest conn statics _ _ _) fun reply => ?_
    exact couples_finishTurn conn draws session reply

omit [Platform] in
theorem couples_addressedSession (raw : Bytes) :
    Couples (Coupled none) (Coupled none) (fun a b w w' => a = b ∧ Coupled a w w')
      (addressedSession conn raw) (addressedSession conn raw) := by
  have hnone : Couples (Coupled none) (Coupled none) (fun a b w w' => a = b ∧ Coupled a w w')
      (pure none : ServerM (Option Int64)) (pure none) := Couples.pure fun _ _ h => ⟨rfl, h⟩
  refine Couples.ite (Couples.ite hnone ?_) hnone
  refine Couples.bind (couples_getSession conn _ fun _ => rfl) fun a b => ?_
  rintro w w' (⟨rfl, rfl, -, h⟩ | ⟨session, session', rfl, rfl, h⟩)
  · exact hnone w w' h
  · exact Or.inl ⟨_, _, w, w', rfl, rfl, rfl, h.toCoupled⟩

theorem couples_handleFrame (statics : Statics) (draws : FrameDraws) (raw : Bytes) :
    Couples (Coupled none) (Coupled none) (fun a b w w' => a = b ∧ Coupled none w w')
      (handleFrame statics draws conn raw) (handleFrame statics draws conn raw) := by
  refine Couples.bind (couples_addressedSession conn raw) fun a b => ?_
  rintro w w' ⟨rfl, h⟩
  cases a with
  | none => exact couples_dispatch conn statics draws none raw w w' h
  | some id =>
    have hid {result : Except Rejection (Bytes × FrameSession)} {w w' : World}
        (h : (receiveEncrypted draws.now conn id raw).exec w = (.ok result, w')) :
        ∀ received, result = .ok received → received.2.id = id := by
      rintro ⟨tlData, session⟩ rfl
      exact receiveEncrypted_id h
    refine Couples.bind ((couples_receiveEncrypted conn _ _).and_left hid) (fun a b => ?_) w w' h
    rintro w w' ⟨hid, rfl, h⟩
    cases a with
    | error reason => exact Or.inl ⟨_, _, w, w', rfl, rfl, rfl, h.release⟩
    | ok received =>
      obtain ⟨tlData, session⟩ := received
      obtain rfl := hid _ rfl
      refine (couples_dispatch conn statics draws (some session) tlData).mono (fun h => h) ?_ w w' h
      exact fun h => ⟨h.1, h.2.release⟩

end Parts

/-! ### Runs from the two states -/

section Runs

variable [Platform] (statics : Statics)

theorem Coupled.serve (h : Coupled none w w') (f : Frame) :
    Coupled none ((serve statics f.draws f.conn f.raw).exec w).2
      ((serve statics f.draws f.conn f.raw).exec w').2 := by
  rw [exec_serve_eq, exec_serve_eq]
  rcases couples_handleFrame f.conn statics f.draws f.raw w w' h with
    ⟨a, b, t, t', heq, heq', rfl, hafter⟩ | ⟨e, t, t', heq, heq', hafter⟩
  · rw [heq, heq']
    exact hafter.log rfl
  · rw [heq, heq']
    exact hafter.log rfl

omit [Platform] in
theorem session_evict (id i : Int64) (w : World) : (evict id w).session i =
    if i = id then (w.row id).map fun full => (sessionOfRow id full 0, []) else w.session i := by
  split
  · rename_i hi
    rw [hi, session_of_row (evict_cache_self id w)]
    rfl
  · rename_i hi
    exact session_congr (update_of_ne hi _ _) rfl fun _ _ => rfl

omit [Platform] in
theorem Coupled.evict (h : Coupled none w w') (id : Int64) :
    Coupled none (evict id w) (evict id w') := by
  refine { h with
    sessions := fun i => ?_
    owned := h.owned.evict id
    owned' := h.owned'.evict id
    held := nofun }
  rw [session_evict, session_evict, h.sessions]
  simp only [World.row, h.db]

omit [Platform] in
theorem Owned.restart (w : World) : Owned (restart w) := ⟨nofun, nofun⟩

omit [Platform] in
theorem Coupled.restart (h : Coupled none w w') : Coupled none (restart w) (restart w') := by
  refine
    { db := h.db, handshakes := rfl, sessions := fun i => ?_, owned := .restart w
      owned' := .restart w', told := h.told, held := nofun }
  rw [session_of_row rfl, session_of_row rfl]
  change (w.state.db.sessions i).map _ = (w'.state.db.sessions i).map _
  rw [h.db]

theorem Coupled.happen (h : Coupled none w w') (hs : List Happening) :
    Coupled none (happen statics hs w) (happen statics hs w') := by
  induction hs generalizing w w' with
  | nil => exact h
  | cons happening hs ih =>
    cases happening with
    | frame f => exact ih (h.serve statics f)
    | evicted id => exact ih (h.evict id)
    | restarted => exact ih h.restart

end Runs

end KoSta.Server
