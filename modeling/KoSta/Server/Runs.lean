import KoSta.Lib.System
import KoSta.Server.Turn

/-! Runs of the server: turns, evictions between any two sections, crashes. -/
namespace KoSta.Server
open Lib Lib.Prog Tl Crypto

/-- The cache drops one entry. -/
def evict (id : Int64) (w : World) : World :=
  ⟨{ w.state with cache := Function.update w.state.cache id none }, w.trace⟩

@[simp] theorem evict_cache_self (id : Int64) (w : World) : (evict id w).state.cache id = none :=
  Function.update_self _ _ _

/-- A crash and the restart after it: what was in memory is gone. The recent sets are kept as
they are, for nothing points to them any more. -/
def restart (w : World) : World :=
  ⟨{ w.state with cache := fun _ => none, handshakes := fun _ => none }, .restarted :: w.trace⟩

/-- One frame at a time, from any connection. -/
def serialRules [Platform] (statics : Statics) : PoolRules World Stop Unit Unit where
  starts _ p := ∃ draws conn raw, p = serve statics draws conn raw
  meets _ _ := True
  env w w' := ∃ id, w' = evict id w
  crash w w' := w' = restart w

/-- Any number of connections, each with one frame at a time. -/
def concurrentRules [Platform] (statics : Statics) (meets : World → World → Prop) :
    PoolRules World Stop Unit ConnId where
  starts conn p := ∃ draws raw, p = serve statics draws conn raw
  meets
  env w w' := ∃ id, w' = evict id w
  crash w w' := w' = restart w

/-! ### Sections that run alone -/

section Exec

variable {α : Type} {w : World} {id : Int64} (conn : ConnId) (mark : SessionData → List Event)

theorem exec_locked (f : State → (α × List Event) × State) (w : World) :
    (locked f).exec w =
      (.ok (f w.state).1.1, ⟨(f w.state).2, (f w.state).1.2 ++ w.trace⟩) := rfl

theorem exec_sql {f : Statement α} {a : α} (h : (f w.state.db).1 = .ok a) :
    (sql f).exec w = (.ok a, ⟨{ w.state with db := (f w.state.db).2 }, w.trace⟩) := by
  unfold sql
  rw [exec_bind, exec_locked]
  simp only [h, List.nil_append]
  rfl

theorem readFrom_ok {r : Reader Tl.Error α} {bytes : Bytes} {a : α × Bytes} {w' : World}
    (h : (readFrom r bytes).exec w = (.ok a, w')) : r.run bytes = .ok a.1 a.2 ∧ w' = w := by
  unfold readFrom at h
  cases hr : r.run bytes with
  | ok b rest =>
    rw [hr] at h
    cases h
    exact ⟨rfl, rfl⟩
  | err e =>
    rw [hr] at h
    cases h
  | panic =>
    rw [hr] at h
    cases h

theorem orPanic_ok {o : Option α} {a : α} {w' : World} (h : (orPanic o).exec w = (.ok a, w')) :
    o = some a ∧ w' = w := by
  cases o with
  | none => cases h
  | some b =>
    cases h
    exact ⟨rfl, rfl⟩

theorem exec_cacheLookup (w : World) : (cacheLookup id mark).exec w =
    match w.state.cache id with
    | some session => (.ok (some session), w.log (mark session))
    | none => (.ok none, w) := by
  unfold cacheLookup
  rw [exec_locked]
  cases w.state.cache id <;> rfl

theorem exec_getSession_hit {session : SessionData} (h : w.state.cache id = some session) :
    (getSession conn id mark).exec w = (.ok (some session), w.log (mark session)) := by
  unfold getSession
  rw [exec_bind, exec_cacheLookup, h]
  rfl

theorem exec_getSession_miss {full : FullSession} (h : w.state.cache id = none)
    (hrow : w.row id = some full) : (getSession conn id mark).exec w =
      (.ok (some (sessionOfRow id full w.state.nextRecent)), w.load id full
        (mark (sessionOfRow id full w.state.nextRecent) ++
          [.put conn id (sessionOfRow id full w.state.nextRecent)])) := by
  have hfull : (Database.getFullSession id w.state.db).1 = .ok (some full) :=
    congrArg Except.ok hrow
  unfold getSession
  rw [exec_bind, exec_cacheLookup, h]
  dsimp only
  rw [exec_bind, exec_sql hfull]
  rfl

theorem exec_getSession_none (h : w.state.cache id = none) (hrow : w.row id = none) :
    (getSession conn id mark).exec w = (.ok none, w) := by
  have hfull : (Database.getFullSession id w.state.db).1 = .ok none := congrArg Except.ok hrow
  unfold getSession
  rw [exec_bind, exec_cacheLookup, h]
  dsimp only
  rw [exec_bind, exec_sql hfull]
  rfl

end Exec

/-! ### Turns that run alone -/

/-- One frame with what its turn draws. -/
structure Frame where
  draws : FrameDraws
  conn : ConnId
  raw : Bytes

section Alone

variable [Platform] (statics : Statics)

theorem exec_serve_eq (draws : FrameDraws) (conn : ConnId) (raw : Bytes) (w : World) :
    ((serve statics draws conn raw).exec w).2 =
      ((handleFrame statics draws conn raw).exec w).2.log
        [.finished conn ((handleFrame statics draws conn raw).exec w).1] := by
  unfold serve
  rw [exec_bind, exec_attempt]
  rfl

def handleFrames : List Frame → World → World
  | [], w => w
  | f :: frames, w => handleFrames frames ((serve statics f.draws f.conn f.raw).exec w).2

theorem reachable_handleFrames {w : World} (h : Pool.Reachable (serialRules statics) World.init
      (Pool.init w)) (frames : List Frame) :
    Pool.Reachable (serialRules statics) World.init
      (Pool.init (handleFrames statics frames w)) := by
  induction frames generalizing w with
  | nil => exact h
  | cons f frames ih =>
    have hall := Prog.Always.of_forall (R := fun _ _ => True → True ∧ True)
      (fun _ _ _ => ⟨trivial, trivial⟩) (serve statics f.draws f.conn f.raw)
    exact ih (Pool.reachable_exec h (k := ()) ⟨f.draws, f.conn, f.raw, rfl⟩ hall trivial)

end Alone

/-! ### Requests that are handled alone -/

/-- A request as the loop hands it over: under a session or under none. -/
structure Request where
  draws : Draws
  conn : ConnId
  session : Option Int64
  obj : TlObject

section Requests

variable [Platform] (statics : Statics)

def Request.handle (r : Request) : ServerM (Option Bytes) :=
  handleRequest statics r.draws r.conn r.obj r.session

def Request.exec (r : Request) (w : World) : World :=
  ((handleRequest statics r.draws r.conn r.obj r.session).exec w).2

def handleRequests : List Request → World → World
  | [], w => w
  | r :: rs, w => handleRequests rs (r.exec statics w)

theorem handleRequests_append (rs rs' : List Request) (w : World) :
    handleRequests statics (rs ++ rs') w =
      handleRequests statics rs' (handleRequests statics rs w) := by
  induction rs generalizing w with
  | nil => rfl
  | cons r rs ih => exact ih (r.exec statics w)

end Requests

/-! ### A small run

A key exchange over a small group on the plainest platform, and frames of its session. -/

namespace Sample

abbrev platform : Platform := Platform.constant false

def statics : Statics := ⟨Vector.replicate 32 0, 23⟩

def nonce : Int128 := ⟨Vector.replicate 16 7⟩

/-- The id the constant hash gives every session. -/
def id : Int64 := 0x0101010101010101

def draws (now : Nat) : FrameDraws where
  now
  responseNow := now
  responseRandom := Vector.replicate 12 0
  handler :=
    { serverNonce := Vector.replicate 16 0, primes := [], privateKey := Vector.replicate 256 0
      padding := ⟨0, fun _ => 0⟩, instant := 0, seconds := 0, salt := Vector.replicate 16 0 }

def plain (obj : TlObject) : Frame := ⟨draws 0, 0, obj.writeBoxed⟩

/-- What the platform's authenticated encryption makes of an object. -/
def inner (obj : TlObject) : Bytes := obj.writeBoxed ++ List.replicate 16 0

def reqDHParams : ReqDHParams where
  nonce
  serverNonce := nonce
  p := []
  q := []
  publicKeyFingerprint := 0
  encryptedData := inner (.pqInnerData
    { pq := [], p := [], q := [], nonce, serverNonce := nonce
      newNonce := ⟨Vector.replicate 32 9⟩ })

def setClientDHParams : SetClientDHParams where
  nonce
  serverNonce := nonce
  encryptedData := inner (.clientDHInnerData
    { nonce, serverNonce := nonce, retryId := 0, gB := [2] })

/-- The requests of a key exchange. -/
def handshake : List TlObject :=
  [.reqDHParams reqDHParams, .setClientDHParams setClientDHParams]

def exchange : List Frame := handshake.map plain

/-- A frame of the session, sent and received at one clock reading. -/
def frame (conn : ConnId) (now : Nat) (counter : UInt32) (seqNo : Int32) (obj : TlObject) : Frame :=
  ⟨draws now, conn, letI := platform
    encryptedFrame (Vector.replicate 32 0) (Vector.replicate 32 0) id (Vector.replicate 16 0)
      (withHeader (msgId now counter) seqNo obj.writeBoxed)⟩

def run (frames : List Frame) : World :=
  letI := platform
  handleFrames statics (exchange ++ frames) World.init

theorem reachable_run (frames : List Frame) :
    letI := platform
    Pool.Reachable (serialRules statics) World.init ⟨run frames, fun _ => none⟩ :=
  letI := platform
  reachable_handleFrames statics .init _

end Sample

end KoSta.Server
