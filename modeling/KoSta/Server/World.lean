import Mathlib.Logic.Function.Basic
import KoSta.Lib.Prog
import KoSta.Crypto.Keys
import KoSta.Server.Database
import KoSta.Tl.Object
import KoSta.Transport.Abridged

/-! The state all connections share, and the sections in which they touch it. -/
namespace KoSta.Server
open Lib Tl Crypto

abbrev ConnId := Nat

/-- An `Arc`: clones of one cache entry point to the same recent set. -/
abbrev RecentMsgIds := Nat

structure SessionData where
  authKey : AuthKey
  authKeyId : Int64
  userId : Int64
  serverSalt : Int64
  nonce : Int128
  serverNonce : Int128
  newNonce : Int256
  crypto : SessionCrypto
  recvSeqNo : Int32
  lastRecvMsgId : Int64
  sendCounter : UInt32
  recvCounter : UInt32
  sendSeqNo : Int32
  msgIdCounter : UInt32
  recentMsgIds : RecentMsgIds
  deriving DecidableEq, Repr

/-- An entry of the handshake store: new nonce, private exponent, time of the request. -/
structure Handshake where
  newNonce : Int256
  a : Bytes
  time : Nat
  deriving DecidableEq, Repr

/-- The process: its database and what it keeps in memory. The order of the cache does not
matter here, as an entry may be evicted at any time. -/
structure State where
  db : Database
  cache : Int64 → Option SessionData
  recents : RecentMsgIds → List Int64
  nextRecent : RecentMsgIds
  handshakes : Bytes → Option Handshake

def State.init : State where
  db := Database.init
  cache _ := none
  recents _ := []
  nextRecent := 0
  handshakes _ := none

/-- What `handle_client` logs as an error before it goes on with the next frame. -/
inductive Rejection where
  | tooShort
  | badMac
  | oldMsgId
  | replayed
  | wrongSeqNo
  | staleTimestamp
  deriving DecidableEq, Repr

/-- One turn of the loop that does not end the connection. -/
inductive Verdict where
  | rejected (reason : Rejection)
  | unparsable (e : Tl.Error)
  | answered
  | silent
  deriving DecidableEq, Repr

inductive ServerError where
  | message (text : String)
  | core (e : Tl.Error)
  | crypto (e : CryptoError)
  | sql (e : SqlError)
  deriving DecidableEq, Repr

/-- How a turn ends early: an error or panic ends the connection, and a search for a random
prime may still be going on when its draws are used up. -/
inductive Stop where
  | error (e : ServerError)
  | panic
  | searching
  deriving DecidableEq, Repr

/-- What the sections of a run have done. No section reads it. -/
inductive Event where
  | established (id : Int64)
  | lookedUp (conn : ConnId) (id : Int64) (session : SessionData)
  | passed (conn : ConnId) (id : Int64) (session : SessionData) (msgId : Int64)
  | put (conn : ConnId) (id : Int64) (session : SessionData)
  | accepted (conn : ConnId) (id : Int64) (msgId : Int64)
  | dispatched (conn : ConnId) (session : Option (Int64 × Int64)) (obj : TlObject)
  | reserved (conn : ConnId) (id : Int64) (counter : UInt32)
  | stamped (conn : ConnId) (id : Int64) (now : Nat) (counter : UInt32)
  | sealed (conn : ConnId) (id : Int64) (frame : Bytes)
  | sent (conn : ConnId) (frame : Bytes)
  | finished (conn : ConnId) (result : Except Stop Verdict)
  | restarted
  deriving DecidableEq

def Event.sent? : Event → Option (ConnId × Bytes)
  | .sent conn frame => some (conn, frame)
  | .established _ | .lookedUp .. | .passed .. | .put .. | .accepted .. | .dispatched ..
  | .reserved .. | .stamped .. | .sealed .. | .finished .. | .restarted => none

/-- The process together with the events of its run, newest first. -/
structure World where
  state : State
  trace : List Event

def World.init : World := ⟨State.init, []⟩

abbrev ServerM (α : Type) := Prog World Stop α

variable {α : Type}

def failWith (text : String) : ServerM α := .fail (.error (.message text))

def orPanic (x : Option α) : ServerM α :=
  match x with
  | some a => pure a
  | none => .fail .panic

/-- Reading from a cursor over a finished buffer. -/
def readFrom (r : Reader Tl.Error α) (bytes : Bytes) : ServerM (α × Bytes) :=
  match r.run bytes with
  | .ok a rest => pure (a, rest)
  | .err e => .fail (.error (.core e))
  | .panic => .fail .panic

/-- One section on the process, with the events it is recorded by. -/
def locked (f : State → (α × List Event) × State) : ServerM α :=
  .atomically fun w =>
    let ((a, events), state) := f w.state
    (a, ⟨state, events ++ w.trace⟩)

def record (event : Event) : ServerM Unit := locked fun s => (((), [event]), s)

/-- A statement whose violated constraints end the request. -/
def sql (f : Statement α) : ServerM α := do
  let result ← locked fun s =>
    let (result, db) := f s.db
    ((result, []), { s with db })
  match result with
  | .ok a => pure a
  | .error e => .fail (.error (.sql e))

end KoSta.Server
