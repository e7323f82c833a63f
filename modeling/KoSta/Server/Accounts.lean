import KoSta.Server.Runs

/-! What the rows and the events say about each session. -/
namespace KoSta.Server
open Lib Tl Crypto Function

/-! ### The history of a session -/

/-- The events that count for the session `id`. -/
def Event.concerns (id : Int64) : Event → Bool
  | .established id' | .accepted _ id' _ | .reserved _ id' _ | .stamped _ id' _ _
  | .sealed _ id' _ => id' == id
  | .dispatched _ (some (id', _)) _ => id' == id
  | _ => false

/-- What has happened to a session, newest first. -/
def history (id : Int64) (trace : List Event) : List Event := trace.filter (Event.concerns id)

def Event.establishes : Event → Bool
  | .established _ => true
  | _ => false

/-- What has happened to a session since a key exchange last wrote its row. -/
def epoch (events : List Event) : List Event := events.takeWhile fun e => !e.establishes

def Event.dispatchedId? : Event → Option Int64
  | .dispatched _ (some (_, msgId)) _ => some msgId
  | _ => none

def Event.reserved? : Event → Option UInt32
  | .reserved _ _ counter => some counter
  | _ => none

def Event.stamping? : Event → Option (Nat × UInt32)
  | .stamped _ _ now counter => some (now, counter)
  | _ => none

def Event.sealed? : Event → Option Bytes
  | .sealed _ _ frame => some frame
  | _ => none

/-- Whether an event leaves the session's row and entry in agreement. -/
def Event.settles? : Event → Option Bool
  | .accepted .. => some false
  | .stamped .. => some true
  | _ => none

/-- The message ids dispatched under a session, newest first. -/
def dispatchedIds (events : List Event) : List Int64 :=
  (epoch events).filterMap Event.dispatchedId?

def reservedCounters (events : List Event) : List UInt32 :=
  (epoch events).filterMap Event.reserved?

/-- The clock readings and counters of the responses sent under a session, newest first. -/
def stampings (events : List Event) : List (Nat × UInt32) :=
  (epoch events).filterMap Event.stamping?

/-- The responses handed to a connection under a session, as they are sent, newest first. -/
def sealedFrames (events : List Event) : List Bytes :=
  (epoch events).filterMap Event.sealed?

/-- The last frame accepted under a session has been answered. -/
def Settled (events : List Event) : Prop := (events.findSome? Event.settles?).getD true = true

instance (events : List Event) : Decidable (Settled events) :=
  inferInstanceAs (Decidable (_ = true))

theorem not_settled_accepted (conn : ConnId) (id msgId : Int64) (events : List Event) :
    ¬ Settled (.accepted conn id msgId :: events) := Bool.false_ne_true

/-- Events that no session's history contains. -/
def Event.Neutral : Event → Prop
  | .lookedUp .. | .passed .. | .put .. | .sent .. | .finished .. | .restarted => True
  | .dispatched _ none _ => True
  | _ => False

theorem Event.Neutral.concerns {e : Event} (h : e.Neutral) (id : Int64) :
    e.concerns id = false := by
  cases e with
  | dispatched conn session obj =>
    cases session with
    | none => rfl
    | some s => exact h.elim
  | established | accepted | reserved | stamped | sealed => exact h.elim
  | lookedUp | passed | put | sent | finished | restarted => rfl

theorem history_neutral {e : Event} (h : e.Neutral) (id : Int64) (trace : List Event) :
    history id (e :: trace) = history id trace :=
  List.filter_cons_of_neg (by simp [h.concerns id])

theorem history_append {events : List Event} (h : ∀ e ∈ events, e.Neutral) (id : Int64)
    (trace : List Event) : history id (events ++ trace) = history id trace := by
  induction events with
  | nil => rfl
  | cons e events ih =>
    rw [List.cons_append, history_neutral (h e List.mem_cons_self)]
    exact ih fun e' he' => h e' (List.mem_cons_of_mem _ he')

/-- An event counts for one session only. -/
theorem concerns_of_ne {e : Event} {id i : Int64} (h : e.concerns id = true) (hi : i ≠ id) :
    e.concerns i = false := by
  cases e with
  | established | accepted | reserved | stamped | sealed => simp_all [Event.concerns, Ne.symm hi]
  | dispatched conn session obj =>
    cases session with
    | none => cases h
    | some s => simp_all [Event.concerns, Ne.symm hi]
  | lookedUp | passed | put | sent | finished | restarted => cases h

/-! ### Accounts -/

/-- The row of a session and its history. -/
structure Account where
  row : Option FullSession
  events : List Event

def World.accounts (w : World) (id : Int64) : Account := ⟨w.row id, history id w.trace⟩

variable {w w' : World} {id : Int64}

theorem accounts_quiet (h : Quiet w w') : w'.accounts = w.accounts := by
  funext i
  simp only [World.accounts, World.row, h.sessions, h.trace]

theorem accounts_log {events : List Event} (h : ∀ e ∈ events, e.Neutral) (w : World) :
    (w.log events).accounts = w.accounts := by
  funext i
  exact congrArg (Account.mk (w.row i)) (history_append h i w.trace)

theorem accounts_putEntry {events : List Event} (h : ∀ e ∈ events, e.Neutral) (w : World)
    (session : SessionData) : (w.putEntry id session events).accounts = w.accounts := by
  funext i
  exact congrArg (Account.mk (w.row i)) (history_append h i w.trace)

theorem accounts_load {events : List Event} (h : ∀ e ∈ events, e.Neutral) (w : World)
    (full : FullSession) : (w.load id full events).accounts = w.accounts :=
  accounts_putEntry h w.renew _

theorem accounts_restart (w : World) : (restart w).accounts = w.accounts := rfl

theorem accounts_modifyRow {row : FullSession} (hrow : (w.accounts id).row = some row)
    (f : FullSession → FullSession) : (w.modifyRow id f).accounts =
      update w.accounts id ⟨some (f row), (w.accounts id).events⟩ := by
  funext i
  by_cases hi : i = id
  · subst hi
    rw [update_self]
    refine congrArg (Account.mk · _) ((if_pos rfl).trans ?_)
    exact congrArg (Option.map f) hrow
  · rw [update_of_ne hi]
    exact congrArg (Account.mk · _) (if_neg hi)

/-- The accounts after a section that writes one session's row at most and records one event
of that session. -/
theorem accounts_event {e : Event} (h : e.concerns id = true)
    (hrow : ∀ i, i ≠ id → w'.row i = w.row i)
    (htrace : ∀ i, history i w'.trace = history i (e :: w.trace)) :
    w'.accounts = update w.accounts id ⟨w'.row id, e :: history id w.trace⟩ := by
  funext i
  by_cases hi : i = id
  · subst hi
    rw [update_self, World.accounts, htrace]
    exact congrArg (Account.mk (w'.row i)) (List.filter_cons_of_pos h)
  · have hnot : ¬ e.concerns i = true := by
      rw [concerns_of_ne h hi]
      exact Bool.false_ne_true
    rw [update_of_ne hi, World.accounts, htrace, hrow i hi]
    exact congrArg (Account.mk (w.row i)) (List.filter_cons_of_neg hnot)

theorem save_row_self (w : World) (row : FullSession) (events : List Event) :
    (w.save row events).row row.authKeyId = some row := if_pos rfl

theorem save_row_of_ne {row : FullSession} (h : id ≠ row.authKeyId) (w : World)
    (events : List Event) : (w.save row events).row id = w.row id := if_neg h

theorem accounts_save (w : World) (id : Int64) (session : SessionData) :
    (w.save (session.toRow id) []).accounts =
      update w.accounts id ⟨some (session.toRow id), history id w.trace⟩ := by
  funext i
  by_cases hi : i = id
  · subst hi
    rw [update_self]
    exact congrArg (Account.mk · _) (save_row_self w (session.toRow i) [])
  · rw [update_of_ne hi]
    exact congrArg (Account.mk · _) (save_row_of_ne hi w [])

theorem accounts_saveEvent {e : Event} (h : e.concerns id = true) (w : World)
    (session : SessionData) : (w.save (session.toRow id) [e]).accounts =
      update w.accounts id ⟨some (session.toRow id), e :: history id w.trace⟩ := by
  have hrow := save_row_self w (session.toRow id) [e]
  rw [accounts_event h (fun i hi => save_row_of_ne hi w [e]) fun i => rfl]
  exact congrArg (fun row => update w.accounts id ⟨row, e :: history id w.trace⟩) hrow

theorem accounts_dispatch (w : World) (conn : ConnId) (msgId : Int64) (obj : TlObject) :
    (w.log [.dispatched conn (some (id, msgId)) obj]).accounts = update w.accounts id
      ⟨w.row id, .dispatched conn (some (id, msgId)) obj :: history id w.trace⟩ :=
  accounts_event (beq_self_eq_true id) (fun _ _ => rfl) fun _ => rfl

theorem accounts_stamp (w : World) (conn : ConnId) (frame : Bytes) (now : Nat)
    (counter : UInt32) :
    (w.log [.sent conn frame, .stamped conn id now counter, .sealed conn id frame]).accounts =
      update w.accounts id
        ⟨w.row id, .stamped conn id now counter :: .sealed conn id frame ::
          history id w.trace⟩ := by
  have hsealed : history id (.sealed conn id frame :: w.trace) =
      .sealed conn id frame :: history id w.trace :=
    List.filter_cons_of_pos (beq_self_eq_true id)
  have hlogged : (w.log [.sealed conn id frame]).accounts = update w.accounts id
      ⟨w.row id, .sealed conn id frame :: history id w.trace⟩ :=
    accounts_event (beq_self_eq_true id) (fun _ _ => rfl) fun _ => rfl
  have hstamped : (w.log
      [.sent conn frame, .stamped conn id now counter, .sealed conn id frame]).accounts =
      update (w.log [.sealed conn id frame]).accounts id ⟨w.row id, .stamped conn id now counter ::
        history id (.sealed conn id frame :: w.trace)⟩ :=
    accounts_event (beq_self_eq_true id) (fun _ _ => rfl) fun i =>
      history_neutral (e := .sent conn frame) trivial i _
  rw [hstamped, hlogged, update_idem]
  exact congrArg (update w.accounts id)
    (congrArg (Account.mk (w.row id)) (congrArg (List.cons _) hsealed))

theorem accounts_accept (w : World) (conn : ConnId) (session : SessionData) (msgId : Int64) :
    (w.putEntry id session [.accepted conn id msgId, .put conn id session]).accounts =
      update w.accounts id ⟨w.row id, .accepted conn id msgId :: history id w.trace⟩ := by
  refine accounts_event (beq_self_eq_true id) (fun _ _ => rfl) fun i => ?_
  simp [World.putEntry, history, List.filter_cons, Event.concerns]

end KoSta.Server
