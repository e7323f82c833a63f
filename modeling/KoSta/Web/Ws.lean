import KoSta.Server.Effects
import KoSta.Web.State

/-! The WebSocket actor: what each of its events does. -/
namespace KoSta.Server.Database

/-- `get_user_status`, without the time of the status. -/
def getUserStatus (userId : Int64) : Statement (Option Int32) := fun db =>
  (.ok ((db.statuses.find? fun s => s.userId == userId).map StatusRow.status), db)

end KoSta.Server.Database

namespace KoSta.Web
open KoSta.Server Site

/-- What arrives on a WebSocket. A text that is no JSON is `text none`. -/
inductive WsMessage where
  | text (json : Option Value)
  | binary
  | ping
  | pong
  | close
  | other

/-- The two clocks an event reads. -/
structure Clock where
  instant : Nat
  seconds : Int64

/-- What an event does: the texts that go out, and the site after it. An actor's own texts come
before what a broadcast leaves in its mailbox, which it reads when the event is over. -/
abbrev Outcome := Sent × Site

namespace WsActor

def notParticipant : Text := errorText "You are not a participant of this dialog"

def dialogNotFound : Text := errorText "Dialog not found"

def handleAuth (actor : WsActor) (addr : Addr) (payload : Value) (site : Site) : Outcome :=
  match (payload.get "user_id").bind Value.asI64 with
  | none => ([], site)
  | some userId =>
    match (Database.getUserStatus userId site.db).1 with
    | .ok (some _) =>
      -- a status that cannot be stored is only logged
      let site := (site.setActor addr (some { actor with userId := some userId })).withDb
        (Database.setUserStatus userId 0 site.db).2
      ((addr, authSuccess userId) :: site.state.broadcastStatus site.isOpen userId 0, site)
    | _ => ([(addr, authFailed)], site)

def handleSubscribe (actor : WsActor) (addr : Addr) (payload : Value) (site : Site) : Outcome :=
  match (payload.get "dialog_id").bind Value.asI64 with
  | none => ([], site)
  | some dialogId =>
    match (Database.getDialogParticipants dialogId site.db).1 with
    | .error _ => ([(addr, dialogNotFound)], site)
    | .ok participants =>
      match actor.userId with
      | none => ([], site)
      | some userId =>
        if participants.contains userId then
          let site := site.setActor addr (some { actor with dialogId := some dialogId })
          ([(addr, subscribed dialogId)],
            { site with state := site.state.addConnection dialogId addr })
        else
          ([(addr, notParticipant)], site)

/-- The row is stored before anything is sent. -/
def storeMessage (addr : Addr) (dialogId userId : Int64) (text : String) (seconds : Int64)
    (site : Site) : Outcome :=
  match Database.saveMessage dialogId userId text seconds true none none site.db with
  | (.ok msgId, db) =>
    let message := newMessage msgId dialogId userId text seconds
    ((addr, message) :: site.state.broadcastToDialog site.isOpen dialogId message (some userId),
      site.withDb db)
  | (.error _, db) => ([(addr, errorText "Failed to save message")], site.withDb db)

def handleSendMessage (actor : WsActor) (addr : Addr) (payload : Value) (clock : Clock)
    (site : Site) : Outcome :=
  match (payload.get "dialog_id").bind Value.asI64, (payload.get "text").bind Value.asStr,
    actor.userId with
  | some dialogId, some text, some userId =>
    match site.messageLimiter.check userId clock.instant with
    | (.error e, messageLimiter) => ([(addr, errorText e)], { site with messageLimiter })
    | (.ok (), messageLimiter) =>
      let site := { site with messageLimiter }
      match (Database.getDialogParticipants dialogId site.db).1 with
      | .error _ => ([(addr, dialogNotFound)], site)
      | .ok participants =>
        if participants.contains userId then
          storeMessage addr dialogId userId text clock.seconds site
        else
          ([(addr, notParticipant)], site)
  | _, _, _ => ([(addr, errorText "Missing dialog_id, text, or not authenticated")], site)

def handleJson (actor : WsActor) (addr : Addr) (json : Value) (clock : Clock) (site : Site) :
    Outcome :=
  let payload := (json.get "payload").getD .null
  match (json.get "action").bind Value.asStr with
  | some "auth" => actor.handleAuth addr payload site
  | some "subscribe" => actor.handleSubscribe addr payload site
  | some "send_message" => actor.handleSendMessage addr payload clock site
  | _ => ([], site)

/-- `started`: the client of the new actor is told. -/
def started (site : Site) : Outcome :=
  ([(site.nextAddr, connected)],
    { site.setActor site.nextAddr (some ⟨none, none⟩) with nextAddr := site.nextAddr + 1 })

/-- `stopped`: the user is marked offline; the registry keeps the address. -/
def stopped (actor : WsActor) (addr : Addr) (site : Site) : Outcome :=
  let site := site.setActor addr none
  match actor.userId with
  | some userId => ([], site.withDb (Database.setUserStatus userId 1 site.db).2)
  | none => ([], site)

def handle (actor : WsActor) (addr : Addr) (message : WsMessage) (clock : Clock) (site : Site) :
    Outcome :=
  match message with
  | .text (some json) => actor.handleJson addr json clock site
  | .text none => ([], site)
  | .binary => ([], site)
  | .ping => ([], site)
  | .pong => ([], site)
  | .close => actor.stopped addr site
  | .other => actor.stopped addr site

end WsActor

/-! ### What an event can do -/

namespace WsMessage

def action : WsMessage → Option String
  | .text (some json) => (json.get "action").bind Value.asStr
  | _ => none

def payload : WsMessage → Value
  | .text (some json) => (json.get "payload").getD .null
  | _ => .null

/-- The user an `auth` is for. -/
def auths (message : WsMessage) : Option Int64 :=
  if message.action = some "auth" then (message.payload.get "user_id").bind Value.asI64 else none

/-- The dialog of a `subscribe`. -/
def subscribes (message : WsMessage) : Option Int64 :=
  if message.action = some "subscribe" then (message.payload.get "dialog_id").bind Value.asI64
  else none

/-- The dialog and the text of a `send_message`. -/
def sends (message : WsMessage) : Option (Int64 × String) :=
  if message.action = some "send_message" then
    ((message.payload.get "dialog_id").bind Value.asI64).bind fun dialogId =>
      ((message.payload.get "text").bind Value.asStr).map fun text => (dialogId, text)
  else none

end WsMessage

/-- The user has a row in `user_status`. -/
def HasStatus (db : Database) (userId : Int64) : Prop :=
  ∃ s ∈ db.statuses, s.userId = userId

/-- One event of an actor, by what it leaves behind. -/
inductive Does (actor : WsActor) (addr : Addr) (message : WsMessage) (site : Site) :
    Outcome → Prop where
  | refuse {sent : Sent} (messageLimiter : RateLimiter Int64) :
    (∀ s ∈ sent, s.1 = addr ∧ s.2.type ≠ "new_message") →
    (∀ u, message.auths = some u → ¬ HasStatus site.db u) →
    Does actor addr message site (sent, { site with messageLimiter })
  | authenticate {u : Int64} : message.auths = some u → HasStatus site.db u →
    Does actor addr message site
      ((addr, authSuccess u) :: site.state.broadcastStatus
        (site.setActor addr (some { actor with userId := some u })).isOpen u 0,
        (site.setActor addr (some { actor with userId := some u })).withDb
          (Database.setUserStatus u 0 site.db).2)
  | subscribe {u dialogId : Int64} : message.subscribes = some dialogId →
    actor.userId = some u → site.db.hasParticipant dialogId u = true →
    Does actor addr message site
      ([(addr, subscribed dialogId)],
        { site.setActor addr (some { actor with dialogId := some dialogId }) with
          state := site.state.addConnection dialogId addr })
  | store {u dialogId msgId seconds : Int64} {text : String} {db : Database}
    (messageLimiter : RateLimiter Int64) : message.sends = some (dialogId, text) →
    actor.userId = some u → site.db.hasParticipant dialogId u = true →
    Database.saveMessage dialogId u text seconds true none none site.db = (.ok msgId, db) →
    Does actor addr message site
      ((addr, newMessage msgId dialogId u text seconds) ::
        site.state.broadcastToDialog site.isOpen dialogId
          (newMessage msgId dialogId u text seconds) (some u),
        { site with messageLimiter }.withDb db)
  | stop : message.auths = none → Does actor addr message site (actor.stopped addr site)

theorem stopped_eq (actor : WsActor) (addr : Addr) (site : Site) :
    ∃ statuses, actor.stopped addr site =
      ([], (site.setActor addr none).withDb { site.db with statuses }) := by
  unfold WsActor.stopped
  cases actor.userId with
  | none => exact ⟨site.db.statuses, rfl⟩
  | some u =>
    obtain ⟨statuses, heq⟩ := setUserStatus_eq u 1 site.db
    refine ⟨statuses, ?_⟩
    dsimp only
    rw [setActor_db, heq]

theorem contains_getDialogParticipants {dialogId u : Int64} {participants : List Int64}
    {db : Database} (h : (Database.getDialogParticipants dialogId db).1 = .ok participants) :
    participants.contains u = db.hasParticipant dialogId u := by
  cases h
  exact contains_memberIds

theorem saveMessage_error {dialogId u seconds : Int64} {text : String} {e : SqlError}
    {db db' : Database}
    (h : Database.saveMessage dialogId u text seconds true none none db = (.error e, db')) :
    db' = db := by
  unfold Database.saveMessage at h
  split at h
  · cases h
    rfl
  · split at h
    · cases h
    · cases h
      rfl

theorem getUserStatus_some_iff {u : Int64} {db : Database} :
    (∃ status, (Database.getUserStatus u db).1 = .ok (some status)) ↔ HasStatus db u := by
  unfold Database.getUserStatus HasStatus
  constructor
  · rintro ⟨status, h⟩
    obtain ⟨row, hrow, -⟩ := Option.map_eq_some_iff.mp (Except.ok.inj h)
    exact ⟨row, List.mem_of_find?_eq_some hrow, by simpa using List.find?_some hrow⟩
  · rintro ⟨row, hrow, rfl⟩
    cases hfind : db.statuses.find? fun s => s.userId == row.userId with
    | none => simpa using List.find?_eq_none.mp hfind row hrow
    | some found => exact ⟨found.status, rfl⟩

variable {actor : WsActor} {addr : Addr} {message : WsMessage} {site : Site}

theorem does_nothing (h : message.auths = none) :
    Does actor addr message site ([], site) :=
  .refuse site.messageLimiter nofun fun u hu => by rw [h] at hu; cases hu

theorem does_reply {text : Text} (hnew : text.type ≠ "new_message") (h : message.auths = none) :
    Does actor addr message site ([(addr, text)], site) := by
  refine .refuse site.messageLimiter (fun s hs => ?_) fun u hu => ?_
  · cases List.mem_singleton.mp hs
    exact ⟨rfl, hnew⟩
  · rw [h] at hu
    cases hu

theorem errorText_type (e : String) : (errorText e).type ≠ "new_message" := by
  change "error" ≠ "new_message"
  decide

theorem does_refuseAuth {u : Int64} (hu : message.auths = some u)
    (h : ∀ status, (Database.getUserStatus u site.db).1 ≠ .ok (some status)) :
    Does actor addr message site ([(addr, authFailed)], site) := by
  refine .refuse site.messageLimiter (fun s hs => ?_) fun u' hu' hstatus => ?_
  · cases List.mem_singleton.mp hs
    refine ⟨rfl, ?_⟩
    change "auth_failed" ≠ "new_message"
    decide
  · cases hu.symm.trans hu'
    obtain ⟨status, hok⟩ := getUserStatus_some_iff.mpr hstatus
    exact h status hok

theorem handleAuth_does (h : message.action = some "auth") :
    Does actor addr message site (actor.handleAuth addr message.payload site) := by
  have hauths : message.auths = (message.payload.get "user_id").bind Value.asI64 := if_pos h
  unfold WsActor.handleAuth
  rw [← hauths]
  cases hu : message.auths with
  | none => exact does_nothing hu
  | some u =>
    dsimp only
    cases hstatus : (Database.getUserStatus u site.db).1 with
    | ok found =>
      cases found with
      | some status => exact .authenticate hu (getUserStatus_some_iff.mp ⟨status, hstatus⟩)
      | none => exact does_refuseAuth hu fun status h => by rw [hstatus] at h; cases h
    | error e => exact does_refuseAuth hu fun status h => by rw [hstatus] at h; cases h

theorem handleSubscribe_does (h : message.action = some "subscribe")
    (hauths : message.auths = none) :
    Does actor addr message site (actor.handleSubscribe addr message.payload site) := by
  have hsubscribes : message.subscribes = (message.payload.get "dialog_id").bind Value.asI64 :=
    if_pos h
  unfold WsActor.handleSubscribe
  rw [← hsubscribes]
  cases hd : message.subscribes with
  | none => exact does_nothing hauths
  | some dialogId =>
    dsimp only
    cases hmembers : (Database.getDialogParticipants dialogId site.db).1 with
    | error e => exact does_reply (by decide) hauths
    | ok participants =>
      dsimp only
      cases huser : actor.userId with
      | none => exact does_nothing hauths
      | some u =>
        dsimp only
        rw [contains_getDialogParticipants hmembers]
        by_cases hmember : site.db.hasParticipant dialogId u = true
        · rw [if_pos hmember]
          have hdone : Does actor addr message site _ := .subscribe hd huser hmember
          rwa [huser] at hdone
        · rw [if_neg hmember]
          exact does_reply (by decide) hauths

theorem handleSendMessage_does (h : message.action = some "send_message")
    (hauths : message.auths = none) (clock : Clock) :
    Does actor addr message site (actor.handleSendMessage addr message.payload clock site) := by
  have hrefuse {sent : Sent} (limiter : RateLimiter Int64)
      (hsent : ∀ s ∈ sent, s.1 = addr ∧ s.2.type ≠ "new_message") :
      Does actor addr message site (sent, { site with messageLimiter := limiter }) :=
    .refuse limiter hsent fun u hu => by rw [hauths] at hu; cases hu
  have hreply {text : Text} (limiter : RateLimiter Int64) (hnew : text.type ≠ "new_message") :
      Does actor addr message site ([(addr, text)], { site with messageLimiter := limiter }) :=
    hrefuse limiter fun s hs => by cases List.mem_singleton.mp hs; exact ⟨rfl, hnew⟩
  have hsends : message.sends = ((message.payload.get "dialog_id").bind Value.asI64).bind
      fun dialogId => ((message.payload.get "text").bind Value.asStr).map fun text =>
        (dialogId, text) := if_pos h
  unfold WsActor.handleSendMessage
  cases hd : (message.payload.get "dialog_id").bind Value.asI64 with
  | none => exact hreply site.messageLimiter (by decide)
  | some dialogId =>
    cases ht : (message.payload.get "text").bind Value.asStr with
    | none => exact hreply site.messageLimiter (by decide)
    | some text =>
      cases hu : actor.userId with
      | none => exact hreply site.messageLimiter (by decide)
      | some u =>
        rw [hd, ht] at hsends
        dsimp only
        cases site.messageLimiter.check u clock.instant with
        | mk verdict limiter =>
          cases verdict with
          | error e => exact hreply limiter (errorText_type e)
          | ok _ =>
            dsimp only
            cases hmembers : (Database.getDialogParticipants dialogId site.db).1 with
            | error e => exact hreply limiter (by decide)
            | ok participants =>
              dsimp only
              rw [contains_getDialogParticipants hmembers]
              by_cases hmember : site.db.hasParticipant dialogId u = true
              · rw [if_pos hmember]
                unfold WsActor.storeMessage
                cases hsave : Database.saveMessage dialogId u text clock.seconds true none none
                  site.db with
                | mk result db =>
                  cases result with
                  | ok msgId => exact .store limiter hsends hu hmember hsave
                  | error e =>
                    obtain rfl := saveMessage_error hsave
                    exact hreply limiter (by decide)
              · rw [if_neg hmember]
                exact hreply limiter (by decide)

/-- Whatever arrives, the actor does one of these. -/
theorem handle_does (clock : Clock) :
    Does actor addr message site (actor.handle addr message clock site) := by
  cases message with
  | text json =>
    cases json with
    | none => exact does_nothing rfl
    | some json =>
      have haction : (WsMessage.text (some json)).action =
        (json.get "action").bind Value.asStr := rfl
      change Does _ _ _ _ (actor.handleJson addr json clock site)
      unfold WsActor.handleJson
      dsimp only
      rw [← haction]
      split
      · rename_i h
        exact handleAuth_does h
      · rename_i h
        exact handleSubscribe_does h (if_neg (by rw [h]; decide))
      · rename_i h
        exact handleSendMessage_does h (if_neg (by rw [h]; decide)) clock
      · rename_i h _ _
        exact does_nothing (if_neg h)
  | binary => exact does_nothing rfl
  | ping => exact does_nothing rfl
  | pong => exact does_nothing rfl
  | close => exact .stop rfl
  | other => exact .stop rfl

end KoSta.Web
