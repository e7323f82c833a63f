import KoSta.Lib.Lru
import KoSta.Lib.Refinement
import KoSta.Server.Runs

/-! The session cache as the process has it: a bounded one that drops what has not been used for
longest. -/
namespace KoSta.Server
open Lib Lib.Prog Tl Crypto Function

variable {α β : Type}

/-! ### The process -/

/-- The process without its session cache. -/
structure Rest where
  db : Database
  recents : RecentMsgIds → List Int64
  nextRecent : RecentMsgIds
  handshakes : Bytes → Option Handshake
  trace : List Event

def World.rest (w : World) : Rest :=
  ⟨w.state.db, w.state.recents, w.state.nextRecent, w.state.handshakes, w.trace⟩

def Rest.world (r : Rest) (cache : Int64 → Option SessionData) : World :=
  ⟨⟨r.db, cache, r.recents, r.nextRecent, r.handshakes⟩, r.trace⟩

def Rest.log (r : Rest) (events : List Event) : Rest := { r with trace := events ++ r.trace }

/-- The capacity `run_server` creates the cache with. -/
def cacheCapacity : Nat := 1000

structure Process where
  cache : Lru Int64 SessionData cacheCapacity
  rest : Rest

def Process.init : Process := ⟨Lru.empty, World.init.rest⟩

/-- What can be told of the process without the order of its cache. -/
def Process.world (s : Process) : World := s.rest.world s.cache.lookup

abbrev ProcessM (α : Type) := Prog Process Stop α

/-! ### The methods of the cache -/

namespace SessionCache

def lookup (id : Int64) (mark : SessionData → List Event) : ProcessM (Option SessionData) :=
  .atomically fun s =>
    match s.cache.get id with
    | (some session, cache) => (some session, ⟨cache, s.rest.log (mark session)⟩)
    | (none, cache) => (none, ⟨cache, s.rest⟩)

def load (id : Int64) : ProcessM (Option FullSession) :=
  .atomically fun s => (s.rest.db.sessions id, s)

def putLoaded (conn : ConnId) (id : Int64) (full : FullSession)
    (mark : SessionData → List Event) : ProcessM SessionData :=
  .atomically fun s =>
    let session := sessionOfRow id full s.rest.nextRecent
    let rest := s.rest.log (mark session ++ [.put conn id session])
    (session, ⟨s.cache.put id session, { rest with
      recents := update s.rest.recents s.rest.nextRecent []
      nextRecent := s.rest.nextRecent + 1 }⟩)

def getSession (conn : ConnId) (id : Int64) (mark : SessionData → List Event) :
    ProcessM (Option SessionData) := do
  match ← lookup id mark with
  | some session => return some session
  | none =>
    match ← load id with
    | some full =>
      let session ← putLoaded conn id full mark
      return some session
    | none => return none

def save (row : FullSession) (events : List Event) : ProcessM Unit :=
  .atomically fun s =>
    ((), { s with rest :=
      { s.rest.log events with db := (Database.saveSessionFull row s.rest.db).2 } })

def put (conn : ConnId) (id : Int64) (session : SessionData) (events : List Event) :
    ProcessM Unit :=
  .atomically fun s =>
    ((), ⟨s.cache.put id session, s.rest.log (events ++ [.put conn id session])⟩)

def updateSession (conn : ConnId) (id : Int64) (session : SessionData)
    (saved cached : List Event) : ProcessM Unit := do
  save (session.toRow id) saved
  put conn id session cached

end SessionCache

/-! ### Code that uses it -/

/-- Code that has the cache by its two methods only. -/
inductive CacheUser (α : Type) where
  | done (a : α)
  | fail (e : Stop)
  | aside (act : Rest → Rest) (next : Rest → CacheUser α)
  | getSession (conn : ConnId) (id : Int64) (mark : SessionData → List Event)
    (next : Option SessionData → CacheUser α)
  | updateSession (conn : ConnId) (id : Int64) (session : SessionData)
    (saved cached : List Event) (next : CacheUser α)

namespace CacheUser

/-- The code on a cache that may drop anything at any time. -/
def onMap : CacheUser α → ServerM α
  | .done a => .done a
  | .fail e => .fail e
  | .aside act next =>
    .atomic (fun w => (act w.rest).world w.state.cache) fun w => (next w.rest).onMap
  | .getSession conn id mark next => Server.getSession conn id mark >>= fun found =>
    (next found).onMap
  | .updateSession conn id session saved cached next =>
    Server.updateSession conn id session saved cached >>= fun _ => next.onMap

/-- The same code in the process. -/
def onCache : CacheUser α → ProcessM α
  | .done a => .done a
  | .fail e => .fail e
  | .aside act next => .atomic (fun s => ⟨s.cache, act s.rest⟩) fun s => (next s.rest).onCache
  | .getSession conn id mark next => SessionCache.getSession conn id mark >>= fun found =>
    (next found).onCache
  | .updateSession conn id session saved cached next =>
    SessionCache.updateSession conn id session saved cached >>= fun _ => next.onCache

end CacheUser

/-! ### What the order of the cache is for -/

/-- One entry is dropped. -/
def Evicts (w w' : World) : Prop := ∃ id, w' = evict id w

theorem evicts_put (cache : Lru Int64 SessionData cacheCapacity) (id : Int64)
    (session : SessionData) (r : Rest) :
    Relation.ReflTransGen Evicts (r.world (update cache.lookup id (some session)))
      (r.world (cache.put id session).lookup) := by
  rcases cache.lookup_put id session with heq | ⟨i, heq⟩
  · rw [heq]
  · rw [heq]
    exact .single ⟨i, rfl⟩

namespace SessionCache

variable (conn : ConnId) (id : Int64) (mark : SessionData → List Event)

theorem follows_lookup : (lookup id mark).Follows Process.world Evicts (cacheLookup id mark) := by
  refine Follows.atomically (fun s => ?_) fun s => ?_
  · have hentry : s.world.state.cache id = s.cache.lookup id := rfl
    cases hfound : s.cache.lookup id with
    | none => simp only [Lru.get_none hfound, hentry, hfound]
    | some session => simp only [Lru.get_some hfound, hentry, hfound]
  · have hentry : s.world.state.cache id = s.cache.lookup id := rfl
    have hsame := s.cache.lookup_get id
    cases hfound : s.cache.lookup id with
    | none =>
      simp only [Lru.get_none hfound, hentry, hfound, List.nil_append]
      exact .refl
    | some session =>
      rw [Lru.get_some hfound] at hsame
      simp only [Lru.get_some hfound, hentry, hfound]
      unfold Process.world
      rw [hsame]
      exact .refl

theorem follows_load :
    (load id).Follows Process.world Evicts (sql (Database.getFullSession id)) :=
  fun _ => ⟨.refl, rfl⟩

theorem follows_putLoaded (full : FullSession) :
    (putLoaded conn id full mark).Follows Process.world Evicts
      (Server.putLoaded conn id full mark) := by
  refine Follows.atomically (fun _ => rfl) fun s => ?_
  let session := sessionOfRow id full s.rest.nextRecent
  let rest := { s.rest.log (mark session ++ [.put conn id session]) with
    recents := update s.rest.recents s.rest.nextRecent []
    nextRecent := s.rest.nextRecent + 1 }
  exact evicts_put s.cache id session rest

theorem follows_getSession : (getSession conn id mark).Follows Process.world Evicts
    (Server.getSession conn id mark) := by
  refine (follows_lookup id mark).bind fun found => ?_
  cases found with
  | some session => exact Follows.pure _
  | none =>
    refine (follows_load id).bind fun row => ?_
    cases row with
    | none => exact Follows.pure _
    | some full => exact (follows_putLoaded conn id mark full).bind fun _ => Follows.pure _

theorem follows_updateSession (session : SessionData) (saved cached : List Event) :
    (updateSession conn id session saved cached).Follows Process.world Evicts
      (Server.updateSession conn id session saved cached) := by
  refine Follows.bind (Follows.atomically (fun _ => rfl) fun _ => .refl) fun _ => ?_
  refine Follows.atomically (fun _ => rfl) fun s => ?_
  exact evicts_put s.cache id session (s.rest.log (cached ++ [.put conn id session]))

end SessionCache

/-- The same code does the same on both, up to entries that the second has yet to drop. -/
theorem CacheUser.follows (c : CacheUser α) : c.onCache.Follows Process.world Evicts c.onMap := by
  induction c with
  | done a => exact Follows.pure a
  | fail e => exact Follows.fail e
  | aside act next ih => exact fun s => ⟨.refl, ih s.rest⟩
  | getSession conn id mark next ih =>
    exact (SessionCache.follows_getSession conn id mark).bind ih
  | updateSession conn id session saved cached next ih =>
    exact (SessionCache.follows_updateSession conn id session saved cached).bind fun _ => ih

/-! ### Runs -/

/-- Any number of connections, each with one frame at a time. Nothing is dropped but by the
cache. -/
def processRules [Platform] (statics : Statics) : PoolRules Process Stop Unit ConnId where
  starts conn p := ∃ draws raw c, CacheUser.onMap c = serve statics draws conn raw ∧ p = c.onCache
  meets _ _ := True
  env _ _ := False
  crash s s' := s' = ⟨Lru.empty, (restart s.world).rest⟩

theorem processRules_refines [Platform] (statics : Statics) :
    (processRules statics).Refines (concurrentRules statics fun _ _ => True) Process.world where
  starts := by
    rintro conn p ⟨draws, raw, c, hc, rfl⟩
    exact ⟨_, ⟨draws, raw, rfl⟩, hc ▸ c.follows⟩
  meets _ _ := trivial
  env := nofun
  crash := by
    rintro s _ rfl
    rfl

end KoSta.Server
