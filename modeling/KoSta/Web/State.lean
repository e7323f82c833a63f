import Mathlib.Data.List.AList
import KoSta.Server.Dialogs
import KoSta.Server.RateLimiter
import KoSta.Web.Models

/-! The registry of WebSocket connections, and the state the web front end shares. -/
namespace KoSta.Web
open KoSta.Server Function

/-- The address of an actor. -/
abbrev Addr := Nat

/-- The addresses that have subscribed to each dialog. Nothing removes an address. -/
structure WebState where
  connections : AList fun _ : Int64 => List Addr

/-- A text with the actor whose client it is for. -/
abbrev Sent := List (Addr × Text)

namespace WebState

def new : WebState := ⟨∅⟩

def registered (state : WebState) (dialogId : Int64) : List Addr :=
  (state.connections.lookup dialogId).getD []

/-- Every subscription pushes the address once more. -/
def addConnection (state : WebState) (dialogId : Int64) (addr : Addr) : WebState :=
  ⟨state.connections.insert dialogId (state.registered dialogId ++ [addr])⟩

@[simp] theorem registered_addConnection_self (state : WebState) (dialogId : Int64) (addr : Addr) :
    (state.addConnection dialogId addr).registered dialogId =
      state.registered dialogId ++ [addr] := by
  simp [registered, addConnection]

theorem registered_addConnection_of_ne {dialogId d : Int64} (h : d ≠ dialogId) (state : WebState)
    (addr : Addr) : (state.addConnection dialogId addr).registered d = state.registered d := by
  simp [registered, addConnection, AList.lookup_insert_ne h]

/-- `do_send` drops what is for an actor that has stopped. The source takes a user to exclude and
does not look at it. -/
def broadcastToDialog (state : WebState) (isOpen : Addr → Bool) (dialogId : Int64)
    (message : Text) (_excludeUser : Option Int64) : Sent :=
  ((state.registered dialogId).filter isOpen).map fun addr => (addr, message)

/-- To every address of every dialog, as often as it is registered. -/
def broadcastStatus (state : WebState) (isOpen : Addr → Bool) (userId : Int64) (status : Int32) :
    Sent :=
  state.connections.entries.flatMap fun entry =>
    (entry.2.filter isOpen).map fun addr => (addr, userStatusText userId status)

end WebState

/-- The fields of an actor that its events change. -/
structure WsActor where
  userId : Option Int64
  dialogId : Option Int64
  deriving DecidableEq, Repr

/-- The process with its web front end: the limiters are statics of the source. -/
structure Site where
  world : World
  state : WebState
  actors : Addr → Option WsActor
  nextAddr : Addr
  messageLimiter : RateLimiter Int64
  httpLimiter : RateLimiter String

namespace Site

def init : Site where
  world := World.init
  state := .new
  actors _ := none
  nextAddr := 0
  messageLimiter := wsMessageLimiter
  httpLimiter := Server.httpLimiter

abbrev db (site : Site) : Database := site.world.state.db

def withDb (site : Site) (db : Database) : Site :=
  { site with world := site.world.withDb db }

def setActor (site : Site) (addr : Addr) (actor : Option WsActor) : Site :=
  { site with actors := update site.actors addr actor }

def isOpen (site : Site) (addr : Addr) : Bool := (site.actors addr).isSome

@[simp] theorem withDb_db (site : Site) (db : Database) : (site.withDb db).db = db := rfl

@[simp] theorem setActor_db (site : Site) (addr : Addr) (actor : Option WsActor) :
    (site.setActor addr actor).db = site.db := rfl

@[simp] theorem setActor_self (site : Site) (addr : Addr) (actor : Option WsActor) :
    (site.setActor addr actor).actors addr = actor := update_self _ _ _

theorem setActor_of_ne {addr a : Addr} (h : a ≠ addr) (site : Site) (actor : Option WsActor) :
    (site.setActor addr actor).actors a = site.actors a := update_of_ne h _ _

end Site

end KoSta.Web
