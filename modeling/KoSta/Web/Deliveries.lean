import KoSta.Web.Members

/-! Who is sent a message that is stored over a WebSocket. -/
namespace KoSta.Web
open KoSta.Server Tl

variable {a addr : Addr} {d : Int64} {m : MessageRow} {msg : Text} {site : Site}

/-- The dialog an open connection has subscribed to last. -/
def Site.current (site : Site) (a : Addr) : Option Int64 := (site.actors a).bind WsActor.dialogId

/-- The user an open connection is authenticated as. -/
def Site.user (site : Site) (a : Addr) : Option Int64 := (site.actors a).bind WsActor.userId

/-- The new messages among what is sent, for one address. -/
def newMessages (sent : Sent) (a : Addr) : List Text :=
  ((sent.filter fun s => s.1 == a).map Prod.snd).filter fun t => t.type == "new_message"

/-- What a row is announced as. -/
def announcement (m : MessageRow) : Text :=
  newMessage m.id m.dialogId m.senderId m.text m.timestamp

/-- The sender and every other open connection on the dialog get the message once, nobody else. -/
def DeliveredOnce (site : Site) (addr : Addr) (m : MessageRow) (sent : Sent) : Prop :=
  ∀ a, newMessages sent a =
    if a = addr ∨ site.current a = some m.dialogId then [announcement m] else []

/-- The registry has the open connections on a dialog once each, and no other open one: not the
sender, and none that has moved on to another dialog. -/
def ListedOnce (site : Site) (addr : Addr) (d : Int64) : Prop :=
  addr ∉ site.state.registered d ∧
    ∀ a ∈ site.state.registered d, site.isOpen a = true →
      (site.state.registered d).count a = 1 ∧ site.current a = some d

/-! ### What a broadcast sends -/

theorem newMessages_cons_of_eq (h : msg.type = "new_message") (a : Addr) (sent : Sent) :
    newMessages ((a, msg) :: sent) a = msg :: newMessages sent a := by
  simp [newMessages, h]

theorem newMessages_cons_of_ne (h : a ≠ addr) (msg : Text) (sent : Sent) :
    newMessages ((addr, msg) :: sent) a = newMessages sent a := by
  simp [newMessages, Ne.symm h]

theorem newMessages_map (h : msg.type = "new_message") (a : Addr) (addrs : List Addr) :
    newMessages (addrs.map fun addr => (addr, msg)) a = List.replicate (addrs.count a) msg := by
  induction addrs with
  | nil => rfl
  | cons addr addrs ih =>
    rw [List.map_cons]
    by_cases heq : addr = a
    · subst heq
      rw [newMessages_cons_of_eq h, ih, List.count_cons_self, List.replicate_succ]
    · rw [newMessages_cons_of_ne (Ne.symm heq), ih, List.count_cons_of_ne heq]

/-- An open connection gets a copy for every time it is registered. -/
theorem newMessages_broadcastToDialog (h : msg.type = "new_message") (state : WebState)
    (isOpen : Addr → Bool) (d : Int64) (u : Option Int64) (a : Addr) :
    newMessages (state.broadcastToDialog isOpen d msg u) a =
      List.replicate (if isOpen a then (state.registered d).count a else 0) msg := by
  unfold WebState.broadcastToDialog
  rw [newMessages_map h]
  by_cases hopen : isOpen a = true
  · rw [if_pos hopen, List.count_filter hopen]
  · rw [if_neg hopen, List.count_eq_zero.mpr fun hmem => hopen (List.mem_filter.mp hmem).2]

/-! ### The registry -/

/-- A connection is registered for the dialog it is on. -/
def Registered (site : Site) : Prop :=
  ∀ a d, site.current a = some d → a ∈ site.state.registered d

theorem mem_registered_addConnection {state : WebState} {dialogId : Int64}
    (h : a ∈ state.registered d) : a ∈ (state.addConnection dialogId addr).registered d := by
  by_cases heq : d = dialogId
  · subst heq
    rw [WebState.registered_addConnection_self]
    exact List.mem_append_left _ h
  · rwa [WebState.registered_addConnection_of_ne heq]

theorem Registered.setActor (h : Registered site) {actor : Option WsActor}
    (hactor : ∀ d, actor.bind WsActor.dialogId = some d → addr ∈ site.state.registered d) :
    Registered (site.setActor addr actor) := by
  intro a d hd
  by_cases heq : a = addr
  · subst heq
    rw [Site.current, Site.setActor_self] at hd
    exact hactor d hd
  · rw [Site.current, Site.setActor_of_ne heq] at hd
    exact h a d hd

/-! ### What an event stores -/

theorem saveMessage_ok {dialogId u seconds msgId : Int64} {text : String} {db db' : Database}
    (h : Database.saveMessage dialogId u text seconds true none none db = (.ok msgId, db')) :
    ∃ m, db'.messages = db.messages ++ [m] ∧ m.dialogId = dialogId ∧ m.senderId = u ∧
      announcement m = newMessage msgId dialogId u text seconds := by
  unfold Database.saveMessage at h
  split at h
  · cases h
  · split at h
    · cases h
      exact ⟨_, rfl, rfl, rfl, rfl⟩
    · cases h

theorem append_singleton_ne {α : Type} (xs : List α) (x : α) : xs ≠ xs ++ [x] := fun h =>
  List.cons_ne_nil x [] (List.self_eq_append_right.mp h)

section Events

variable [Platform] [Bcrypt] (statics : Statics) {message : WsMessage} {clock : Clock}

/-- An event that stores a message answers the sender, then goes through the registry. -/
theorem exec_ws_stores (h : (site.exec statics (.ws addr message clock)).2.db.messages =
      site.db.messages ++ [m]) :
    ∃ actor, site.actors addr = some actor ∧ actor.userId = some m.senderId ∧
      site.db.hasParticipant m.dialogId m.senderId = true ∧
      (site.exec statics (.ws addr message clock)).1 = (addr, announcement m) ::
        site.state.broadcastToDialog site.isOpen m.dialogId (announcement m) (some m.senderId) := by
  cases hactor : site.actors addr with
  | none =>
    rw [exec_ws_none statics hactor] at h
    exact absurd h (append_singleton_ne _ _)
  | some actor =>
    have hdoes := exec_ws_some statics hactor message clock
    generalize site.exec statics (.ws addr message clock) = outcome at h hdoes
    cases hdoes with
    | refuse limiter hsent hauths => exact absurd h (append_singleton_ne _ _)
    | @authenticate u hauths hstatus =>
      have hsame : (Database.setUserStatus u 0 site.db).2.messages = site.db.messages :=
        messages_setUserStatus u 0 site.db
      exact absurd (hsame.symm.trans h) (append_singleton_ne _ _)
    | subscribe hsubscribes huser hmember => exact absurd h (append_singleton_ne _ _)
    | @store u dialogId msgId seconds text db limiter hsends huser hmember hsave =>
      obtain ⟨row, hrow, rfl, rfl, hannounce⟩ := saveMessage_ok hsave
      obtain rfl : row = m := by
        have hlists : site.db.messages ++ [row] = site.db.messages ++ [m] := hrow.symm.trans h
        exact List.singleton_injective (List.append_cancel_left hlists)
      exact ⟨actor, rfl, huser, hmember, by rw [hannounce]⟩
    | stop hauths =>
      obtain ⟨statuses, heq⟩ := stopped_eq actor addr site
      rw [heq] at h
      exact absurd h (append_singleton_ne _ _)

/-! ### Any event -/

theorem registered_exec (input : Input) (h : Registered site) :
    Registered (site.exec statics input).2 := by
  cases input with
  | connect => exact h.setActor (fun d hd => by cases hd)
  | ws addr message clock =>
    cases hactor : site.actors addr with
    | none => rwa [exec_ws_none statics hactor]
    | some actor =>
      have hdoes := exec_ws_some statics hactor message clock
      generalize site.exec statics (.ws addr message clock) = outcome at hdoes
      have hdialog : ∀ d, actor.dialogId = some d → addr ∈ site.state.registered d := by
        intro d hd
        exact h addr d (by rw [Site.current, hactor]; exact hd)
      cases hdoes with
      | refuse limiter hsent hauths => exact h
      | authenticate hauths hstatus => exact h.setActor hdialog
      | @subscribe u dialogId hsubscribes huser hmember =>
        intro a d hd
        by_cases heq : a = addr
        · subst heq
          simp only [Site.current, Site.setActor_self, Option.bind_some, Option.some.injEq] at hd
          subst hd
          change _ ∈ (site.state.addConnection dialogId a).registered dialogId
          rw [WebState.registered_addConnection_self]
          exact List.mem_append_right _ (List.mem_singleton_self a)
        · simp only [Site.current, Site.setActor_of_ne heq] at hd
          exact mem_registered_addConnection (h a d hd)
      | store limiter hsends huser hmember hsave => exact h
      | stop hauths =>
        obtain ⟨statuses, heq⟩ := stopped_eq actor addr site
        rw [heq]
        exact h.setActor (fun d hd => by cases hd)
  | disconnect addr =>
    rcases exec_disconnect statics site addr with heq | ⟨actor, statuses, -, heq⟩
    · rwa [heq]
    · rw [heq]
      exact h.setActor (fun d hd => by cases hd)
  | http ip draws req =>
    obtain ⟨limiter, users, -, heq⟩ := handleHttp_site ip draws req site
    change Registered (handleHttp ip draws req site).2
    rw [heq]
    exact h
  | tl request => exact h

theorem Site.Reachable.registered (h : Site.Reachable statics site) : Registered site :=
  Site.Runs.invariant statics (fun a d hd => by cases hd)
    (fun _ input hregistered _ => registered_exec statics input hregistered)
    (fun _ _ hregistered _ => hregistered) h

/-- The message that is stored is delivered as it should be, just when the registry has the
connections of its dialog once each, without the sender and without any that have moved on. -/
theorem delivered_once_iff (hreach : Site.Reachable statics site)
    (hstores : (site.exec statics (.ws addr message clock)).2.db.messages =
      site.db.messages ++ [m]) :
    DeliveredOnce site addr m (site.exec statics (.ws addr message clock)).1 ↔
      ListedOnce site addr m.dialogId := by
  obtain ⟨actor, hactor, -, -, hsent⟩ := exec_ws_stores statics hstores
  have hregistered := hreach.registered
  have hnew : (announcement m).type = "new_message" := rfl
  have hopen : site.isOpen addr = true := by rw [Site.isOpen, hactor]; rfl
  have hself : newMessages (site.exec statics (.ws addr message clock)).1 addr =
      announcement m :: List.replicate ((site.state.registered m.dialogId).count addr)
        (announcement m) := by
    rw [hsent, newMessages_cons_of_eq hnew, newMessages_broadcastToDialog hnew, if_pos hopen]
  have hother : ∀ a, a ≠ addr → newMessages (site.exec statics (.ws addr message clock)).1 a =
      List.replicate (if site.isOpen a then (site.state.registered m.dialogId).count a else 0)
        (announcement m) := by
    intro a ha
    rw [hsent, newMessages_cons_of_ne ha, newMessages_broadcastToDialog hnew]
  constructor
  · intro h
    have hsender : addr ∉ site.state.registered m.dialogId := by
      have hone := h addr
      rw [hself, if_pos (Or.inl rfl), List.cons.injEq, List.replicate_eq_nil_iff] at hone
      exact List.count_eq_zero.mp hone.2
    refine ⟨hsender, fun a ha hopen => ?_⟩
    have hne : a ≠ addr := fun heq => hsender (heq ▸ ha)
    have hcopies := h a
    rw [hother a hne, if_pos hopen] at hcopies
    have hpos := List.count_pos_iff.mpr ha
    by_cases hcurrent : site.current a = some m.dialogId
    · rw [if_pos (Or.inr hcurrent)] at hcopies
      have hlen := congrArg List.length hcopies
      rw [List.length_replicate, List.length_singleton] at hlen
      exact ⟨hlen, hcurrent⟩
    · rw [if_neg (not_or.mpr ⟨hne, hcurrent⟩), List.replicate_eq_nil_iff] at hcopies
      omega
  · rintro ⟨hsender, hlisted⟩ a
    by_cases heq : a = addr
    · subst heq
      rw [if_pos (Or.inl rfl), hself, List.count_eq_zero.mpr hsender]
      rfl
    · rw [hother a heq]
      by_cases hcurrent : site.current a = some m.dialogId
      · have hlive : site.isOpen a = true := by
          rw [Site.isOpen, Option.isSome_iff_ne_none]
          intro hnone
          rw [Site.current, hnone] at hcurrent
          cases hcurrent
        rw [if_pos (Or.inr hcurrent), if_pos hlive,
          (hlisted a (hregistered a _ hcurrent) hlive).1]
        rfl
      · rw [if_neg (not_or.mpr ⟨heq, hcurrent⟩), List.replicate_eq_nil_iff]
        by_cases hlive : site.isOpen a = true
        · rw [if_pos hlive]
          refine List.count_eq_zero.mpr fun ha => ?_
          exact hcurrent (hlisted a ha hlive).2
        · exact if_neg hlive

end Events

namespace Demo

def request (action : String) (payload : List (String × Value)) : WsMessage :=
  .text (some (.object [("action", .string action), ("payload", .object payload)]))

def auth (addr : Addr) (u : Int) : Input :=
  .ws addr (request "auth" [("user_id", .number (some u))]) ⟨0, 0⟩

def subscribe (addr : Addr) (d : Int) : Input :=
  .ws addr (request "subscribe" [("dialog_id", .number (some d))]) ⟨0, 0⟩

def hi (d : Int) : WsMessage :=
  request "send_message" [("dialog_id", .number (some d)), ("text", .string "hi")]

/-- The users 0 and 1 are in dialog 1 and have a status each; two connections are open. -/
def connecting : List Input :=
  Sample.exchanging.map .tl ++ [tl (.userStatusUpdate ⟨⟨0⟩, .online⟩), tl (.signUp ⟨"1", "secret"⟩),
    tl (.userStatusUpdate ⟨⟨1⟩, .online⟩), tl (.createGroup ⟨"g", [⟨0⟩]⟩), .connect, .connect]

/-- The first connection is user 0 and has subscribed to the dialog, the second is user 1. -/
def chatting : List Input := connecting ++ [auth 0 0, auth 1 1, subscribe 0 1]

/-- What user 1 then says. -/
def saying : MessageRow := ⟨1, 1, 1, "hi", 0, true, false, false, none, none, none, false⟩

end Demo

/-- User 1 has not subscribed: each of the two gets the message once. -/
theorem delivered_once_chatting : let _ := Sample.platform
    let _ := Demo.bcrypt
    let site := Demo.after Demo.chatting
    DeliveredOnce site 1 Demo.saying (site.exec Sample.statics (.ws 1 (Demo.hi 1) ⟨0, 0⟩)).1 ↔
      ListedOnce site 1 1 :=
  @delivered_once_iff 1 Demo.saying (Demo.after Demo.chatting) Sample.platform Demo.bcrypt
    Sample.statics (Demo.hi 1) ⟨0, 0⟩ (Demo.reachable_after Demo.chatting) (by decide +kernel)

/-- A sender who has subscribed to the dialog gets the message twice. -/
theorem not_delivered_once : ¬ ∀ (_ : Platform) (_ : Bcrypt) (statics : Statics) (site : Site)
    (addr : Addr) (message : WsMessage) (clock : Clock) (m : MessageRow),
    Site.Reachable statics site →
    (site.exec statics (.ws addr message clock)).2.db.messages = site.db.messages ++ [m] →
    DeliveredOnce site addr m (site.exec statics (.ws addr message clock)).1 := by
  intro h
  have honce := h Sample.platform Demo.bcrypt Sample.statics _ 1 (Demo.hi 1) ⟨0, 0⟩ Demo.saying
    (Demo.reachable_after (Demo.chatting ++ [Demo.subscribe 1 1])) (by decide +kernel) 1
  exact absurd honce (by decide +kernel)

end KoSta.Web
