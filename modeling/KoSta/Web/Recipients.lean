import KoSta.Web.Deliveries

/-! Whether those who are sent a message are participants of its dialog. -/
namespace KoSta.Web
open Lib Lib.Prog Tl KoSta.Server

variable {a addr : Addr} {d u v : Int64} {db : Database} {site : Site}

def dialogOf (message : Text) : Option Int64 :=
  match message.payload.lookup "dialog_id" with
  | some (.int d) => some d
  | _ => none

/-- Whoever is sent a new message of a dialog is authenticated as one of its participants. -/
def SentToMembers (site : Site) (sent : Sent) : Prop :=
  ∀ a message d, (a, message) ∈ sent → message.type = "new_message" → dialogOf message = some d →
    ∃ u, site.user a = some u ∧ site.db.hasParticipant d u = true

/-- The request takes the user out of the dialog: another participant asks for it. -/
def Removes (w : World) (request : Request) (d v : Int64) : Prop :=
  ∃ req u, request.obj = .removeGroupParticipant req ∧ req.dialogId.val = d ∧
    req.userId.val = v ∧ requester w request.session = some u ∧
    w.state.db.hasParticipant d u = true ∧ u ≠ v

/-- What has to be so, as the membership is looked at only when a connection subscribes: nobody
loses it while they are connected and registered for the dialog, and a registered connection
changes its user only to a participant of all its dialogs. -/
def Site.Lasting (site : Site) : Input → Prop
  | .tl request => ∀ d v, Removes site.world request d v →
    ∀ a ∈ site.state.registered d, site.user a ≠ some v
  | .ws addr message _ => ∀ u, site.isOpen addr = true → message.auths = some u →
    HasStatus site.db u → ∀ d, addr ∈ site.state.registered d → site.db.hasParticipant d u = true
  | _ => True

/-- Every open connection is registered for dialogs of its user only. -/
structure Entitled (site : Site) : Prop where
  opened : ∀ a, site.isOpen a = true → a < site.nextAddr
  known : ∀ a d, a ∈ site.state.registered d → a < site.nextAddr
  member : ∀ a d, a ∈ site.state.registered d → site.isOpen a = true →
    ∃ u, site.user a = some u ∧ site.db.hasParticipant d u = true

/-! ### Requests that take nobody out of a dialog -/

theorem mem_insertParticipant (d u : Int64) (db : Database) :
    db.participants ⊆ (Database.insertParticipant d u db).2.participants := by
  rcases insertParticipant_cases d u db with ⟨e, h, -⟩ | ⟨h, -⟩
  · rw [h]
    exact List.Subset.refl _
  · rw [h]
    exact List.subset_append_left _ _

theorem mem_addParticipant (d u : Int64) (db : Database) :
    db.participants ⊆ (Database.addParticipant d u db).2.participants := by
  unfold Database.addParticipant
  split
  · exact List.Subset.refl _
  · split
    · exact List.subset_append_left _ _
    · exact List.Subset.refl _

theorem admits_participants : Admits fun db db' => db.participants ⊆ db'.participants where
  refl _ := List.Subset.refl _
  trans h h' := List.Subset.trans h h'
  dialog type title db := by
    unfold Database.insertDialog
    split <;> exact List.Subset.refl _
  participant := mem_insertParticipant

/-- One kind of requests removes participants. -/
theorem participants_applied (draws : Draws) (w : World) (u : Int64) (obj : TlObject) :
    (∃ req, obj = .removeGroupParticipant req) ∨
      w.state.db.participants ⊆ (applied draws w u obj).participants := by
  cases obj with
  | removeGroupParticipant req => exact Or.inl ⟨req, rfl⟩
  | sendMessage req =>
    refine Or.inr ?_
    dsimp only [applied]
    unfold Database.saveMessage
    split
    · exact List.Subset.refl _
    · split <;> exact List.Subset.refl _
  | userStatusUpdate req =>
    refine Or.inr ?_
    dsimp only [applied]
    split
    · obtain ⟨statuses, heq⟩ := setUserStatus_eq u (statusCode req.status) w.state.db
      rw [heq]
      exact List.Subset.refl _
    · exact List.Subset.refl _
  | createPrivateDialog req =>
    exact Or.inr (admits_participants.exec (admits_participants.createPrivateDialog u _) w)
  | createGroup req =>
    exact Or.inr (admits_participants.exec (admits_participants.insertMembers 1 req.title _) w)
  | addGroupParticipant req =>
    refine Or.inr ?_
    dsimp only [applied]
    split
    · exact mem_addParticipant _ _ _
    · exact List.Subset.refl _
  | _ => exact Or.inr (List.Subset.refl _)

theorem hasParticipant_mono {db' : Database} (h : db.participants ⊆ db'.participants)
    (hmember : db.hasParticipant d u = true) : db'.hasParticipant d u = true :=
  Database.hasParticipant_iff.mpr (h (Database.hasParticipant_iff.mp hmember))

theorem hasParticipant_of_eq {db' : Database} (h : db'.participants = db.participants)
    (hmember : db.hasParticipant d u = true) : db'.hasParticipant d u = true := by
  rwa [Database.hasParticipant, h]

theorem hasParticipant_removeParticipant {dialogId userId : Int64}
    (h : db.hasParticipant d u = true) (hother : ¬ (d = dialogId ∧ u = userId)) :
    (Database.removeParticipant dialogId userId db).2.hasParticipant d u = true := by
  rw [Database.hasParticipant_iff] at h ⊢
  refine List.mem_filter.mpr ⟨h, ?_⟩
  rw [Bool.not_eq_true', Bool.and_eq_false_imp]
  intro hd
  exact beq_false_of_ne fun hu => hother ⟨beq_iff_eq.mp hd, hu⟩

section Requests

variable [Platform] [Bcrypt] (statics : Statics)

omit [Bcrypt] in
/-- A participant is one after a request too, unless the request removes them. -/
theorem hasParticipant_exec (request : Request) (w : World)
    (hmember : w.state.db.hasParticipant d v = true) :
    (request.exec statics w).state.db.hasParticipant d v = true ∨ Removes w request d v := by
  obtain ⟨draws, conn, session, obj⟩ := request
  rcases db_handleRequest statics draws conn session obj w with ⟨req, rfl⟩ | ⟨req, rfl⟩ | heq
  · have hsame := (sameContent_handleSignUp draws conn session req w).participants
    exact Or.inl (hasParticipant_of_eq hsame hmember)
  · have hsame := (sameContent_handleSetClientDhParams statics draws conn req w).participants
    exact Or.inl (hasParticipant_of_eq hsame hmember)
  · change ((handleRequest statics draws conn obj session).exec w).2.state.db.hasParticipant d v =
      true ∨ _
    rw [heq]
    cases hwho : requester w session with
    | none => exact Or.inl hmember
    | some u =>
      rw [Option.elim_some]
      rcases participants_applied draws w u obj with ⟨req, rfl⟩ | hsubset
      · dsimp only [applied]
        by_cases hallowed : w.state.db.hasParticipant req.dialogId.val u = true ∧ u ≠ req.userId.val
        · rw [if_pos hallowed]
          by_cases hsame : d = req.dialogId.val ∧ v = req.userId.val
          · obtain ⟨rfl, rfl⟩ := hsame
            exact Or.inr ⟨req, u, rfl, rfl, rfl, hwho, hallowed⟩
          · exact Or.inl (hasParticipant_removeParticipant hmember hsame)
        · rw [if_neg hallowed]
          exact Or.inl hmember
      · exact Or.inl (hasParticipant_mono hsubset hmember)

end Requests

/-! ### Registered connections and their users -/

theorem user_setActor (site : Site) (actor : Option WsActor) :
    (site.setActor addr actor).user a =
      if a = addr then actor.bind WsActor.userId else site.user a := by
  unfold Site.user
  by_cases heq : a = addr
  · subst heq
    rw [Site.setActor_self, if_pos rfl]
  · rw [Site.setActor_of_ne heq, if_neg heq]

theorem isOpen_setActor (site : Site) (actor : Option WsActor) :
    (site.setActor addr actor).isOpen a = if a = addr then actor.isSome else site.isOpen a := by
  unfold Site.isOpen
  by_cases heq : a = addr
  · subst heq
    rw [Site.setActor_self, if_pos rfl]
  · rw [Site.setActor_of_ne heq, if_neg heq]

theorem Entitled.withDb (h : Entitled site) {db : Database}
    (hmembers : db.participants = site.db.participants) : Entitled (site.withDb db) where
  opened := h.opened
  known := h.known
  member a d ha hopen := by
    obtain ⟨u, hu, hmember⟩ := h.member a d ha hopen
    exact ⟨u, hu, hasParticipant_of_eq hmembers hmember⟩

theorem Entitled.setActor (h : Entitled site) {actor : WsActor} (hopen : site.isOpen addr = true)
    (hactor : ∀ d, addr ∈ site.state.registered d →
      ∃ u, actor.userId = some u ∧ site.db.hasParticipant d u = true) :
    Entitled (site.setActor addr (some actor)) where
  opened a ha := by
    rw [isOpen_setActor] at ha
    by_cases heq : a = addr
    · rw [heq]
      exact h.opened addr hopen
    · rw [if_neg heq] at ha
      exact h.opened a ha
  known := h.known
  member a d ha hlive := by
    rw [isOpen_setActor] at hlive
    rw [user_setActor]
    by_cases heq : a = addr
    · subst heq
      rw [if_pos rfl]
      exact hactor d ha
    · rw [if_neg heq] at hlive ⊢
      exact h.member a d ha hlive

theorem Entitled.close (h : Entitled site) (addr : Addr) : Entitled (site.setActor addr none) where
  opened a ha := by
    rw [isOpen_setActor] at ha
    split at ha
    · cases ha
    · exact h.opened a ha
  known := h.known
  member a d ha hlive := by
    rw [isOpen_setActor] at hlive
    rw [user_setActor]
    split at hlive
    · cases hlive
    · rename_i hne
      rw [if_neg hne]
      exact h.member a d ha hlive

theorem Entitled.connect (h : Entitled site) : Entitled (WsActor.started site).2 where
  opened a ha := by
    change (site.setActor site.nextAddr (some ⟨none, none⟩)).isOpen a = true at ha
    change a < site.nextAddr + 1
    rw [isOpen_setActor] at ha
    split at ha
    · rename_i heq
      exact heq ▸ Nat.lt_succ_self _
    · exact Nat.lt_succ_of_lt (h.opened a ha)
  known a d ha := Nat.lt_succ_of_lt (h.known a d ha)
  member a d ha hlive := by
    have hne : a ≠ site.nextAddr := Nat.ne_of_lt (h.known a d ha)
    change (site.setActor site.nextAddr (some ⟨none, none⟩)).isOpen a = true at hlive
    change ∃ u, (site.setActor site.nextAddr (some ⟨none, none⟩)).user a = some u ∧ _
    rw [isOpen_setActor, if_neg hne] at hlive
    rw [user_setActor, if_neg hne]
    exact h.member a d ha hlive

theorem Entitled.subscribe (h : Entitled site) {actor : WsActor}
    (hactor : site.actors addr = some actor)
    (huser : actor.userId = some u) (hmember : site.db.hasParticipant d u = true) :
    Entitled { site.setActor addr (some { actor with dialogId := some d }) with
      state := site.state.addConnection d addr } := by
  have hopen : site.isOpen addr = true := by rw [Site.isOpen, hactor]; rfl
  have hregistered : ∀ {a d'}, a ∈ (site.state.addConnection d addr).registered d' →
      a ∈ site.state.registered d' ∨ a = addr ∧ d' = d := by
    intro a d' ha
    by_cases heq : d' = d
    · subst heq
      rw [WebState.registered_addConnection_self, List.mem_append, List.mem_singleton] at ha
      exact ha.imp_right fun h => ⟨h, rfl⟩
    · rw [WebState.registered_addConnection_of_ne heq] at ha
      exact Or.inl ha
  have hsame : Entitled (site.setActor addr (some { actor with dialogId := some d })) := by
    refine h.setActor hopen fun d' hd' => ?_
    obtain ⟨u', hu', hmember'⟩ := h.member addr d' hd' hopen
    rw [Site.user, hactor] at hu'
    exact ⟨u', hu', hmember'⟩
  refine ⟨hsame.opened, fun a d' ha => ?_, fun a d' ha hlive => ?_⟩
  · rcases hregistered ha with hold | ⟨rfl, -⟩
    · exact h.known a d' hold
    · exact h.opened a hopen
  · rcases hregistered ha with hold | ⟨rfl, rfl⟩
    · exact hsame.member a d' hold hlive
    · refine ⟨u, ?_, hmember⟩
      change (site.setActor a _).user a = some u
      rw [user_setActor, if_pos rfl]
      exact huser

/-! ### What an event sends -/

theorem mem_broadcastToDialog {state : WebState} {isOpen : Addr → Bool} {message msg : Text}
    {excluded : Option Int64} (h : (a, message) ∈ state.broadcastToDialog isOpen d msg excluded) :
    message = msg ∧ a ∈ state.registered d ∧ isOpen a = true := by
  obtain ⟨addr, haddr, heq⟩ := List.mem_map.mp h
  cases heq
  exact ⟨rfl, List.mem_filter.mp haddr⟩

theorem mem_broadcastStatus {state : WebState} {isOpen : Addr → Bool} {message : Text}
    {status : Int32} (h : (a, message) ∈ state.broadcastStatus isOpen u status) :
    message = userStatusText u status := by
  obtain ⟨entry, -, hentry⟩ := List.mem_flatMap.mp h
  obtain ⟨addr, -, heq⟩ := List.mem_map.mp hentry
  cases heq
  rfl

section Events

variable [Platform] [Bcrypt] (statics : Statics)

theorem entitled_exec (input : Input) (h : Entitled site) (hlasting : site.Lasting input) :
    Entitled (site.exec statics input).2 := by
  cases input with
  | connect => exact h.connect
  | ws addr message clock =>
    cases hactor : site.actors addr with
    | none => rwa [exec_ws_none statics hactor]
    | some actor =>
      have hopen : site.isOpen addr = true := by rw [Site.isOpen, hactor]; rfl
      have hdoes := exec_ws_some statics hactor message clock
      generalize site.exec statics (.ws addr message clock) = outcome at hdoes
      cases hdoes with
      | refuse limiter hsent hauths => exact ⟨h.opened, h.known, h.member⟩
      | @authenticate u hauths hstatus =>
        obtain ⟨statuses, heq⟩ := setUserStatus_eq u 0 site.db
        rw [heq]
        have hactor : Entitled (site.setActor addr (some { actor with userId := some u })) :=
          h.setActor hopen fun d hd => ⟨u, rfl, hlasting u hopen hauths hstatus d hd⟩
        exact hactor.withDb rfl
      | subscribe hsubscribes huser hmember => exact h.subscribe hactor huser hmember
      | @store u dialogId msgId seconds text db limiter hsends huser hmember hsave =>
        have hsame : db.participants = site.db.participants := by
          unfold Database.saveMessage at hsave
          split at hsave
          · cases hsave
          · split at hsave
            · cases hsave
              rfl
            · cases hsave
        have hlimiter : Entitled { site with messageLimiter := limiter } :=
          ⟨h.opened, h.known, h.member⟩
        exact hlimiter.withDb hsame
      | stop hauths =>
        obtain ⟨statuses, heq⟩ := stopped_eq actor addr site
        rw [heq]
        exact (h.close addr).withDb rfl
  | disconnect addr =>
    rcases exec_disconnect statics site addr with heq | ⟨actor, statuses, -, heq⟩
    · rwa [heq]
    · rw [heq]
      exact (h.close addr).withDb rfl
  | http ip draws req =>
    obtain ⟨limiter, users, -, heq⟩ := handleHttp_site ip draws req site
    change Entitled (handleHttp ip draws req site).2
    rw [heq]
    have hlimiter : Entitled { site with httpLimiter := limiter } :=
      ⟨h.opened, h.known, h.member⟩
    exact hlimiter.withDb rfl
  | tl request =>
    refine ⟨h.opened, h.known, fun a d ha hlive => ?_⟩
    obtain ⟨u, hu, hmember⟩ := h.member a d ha hlive
    rcases hasParticipant_exec statics request site.world hmember with hstill | hremoves
    · exact ⟨u, hu, hstill⟩
    · exact absurd hu (hlasting d u hremoves a ha)

theorem Site.Runs.entitled (h : Site.Runs statics Site.Lasting site) : Entitled site := by
  have hinit : Entitled Site.init :=
    ⟨fun _ ha => (nomatch ha), fun _ _ ha => (nomatch ha), fun _ _ ha => (nomatch ha)⟩
  refine Site.Runs.invariant statics hinit
    (fun _ input hentitled hlasting => entitled_exec statics input hentitled hlasting)
    (fun site w' hentitled hw => ?_) h
  refine ⟨hentitled.opened, hentitled.known, fun a d ha hlive => ?_⟩
  obtain ⟨u, hu, hmember⟩ := hentitled.member a d ha hlive
  exact ⟨u, hu, hasParticipant_of_eq hw.content.participants hmember⟩

/-- In one event of a connection, from what the registry is before it. -/
theorem sentToMembers_ws (h : Entitled site) (message : WsMessage) (clock : Clock) :
    SentToMembers site (site.exec statics (.ws addr message clock)).1 := by
  cases hactor : site.actors addr with
  | none =>
    rw [exec_ws_none statics hactor]
    exact fun a msg d hsent => (nomatch hsent)
  | some actor =>
    have hdoes := exec_ws_some statics hactor message clock
    generalize site.exec statics (.ws addr message clock) = outcome at hdoes
    intro a msg d hsent hnew hd
    cases hdoes with
    | refuse limiter hrefused hauths => exact absurd hnew (hrefused _ hsent).2
    | authenticate hauths hstatus =>
      rcases List.mem_cons.mp hsent with heq | hstatuses
      · cases heq
        exact absurd hnew (by decide : "auth_success" ≠ "new_message")
      · rw [mem_broadcastStatus hstatuses] at hnew
        exact absurd hnew (by decide : "user_status" ≠ "new_message")
    | subscribe hsubscribes huser hmember =>
      cases List.mem_singleton.mp hsent
      exact absurd hnew (by decide : "subscribed" ≠ "new_message")
    | @store u dialogId msgId seconds text db limiter hsends huser hmember hsave =>
      rcases List.mem_cons.mp hsent with heq | hbroadcast
      · cases heq
        cases hd
        exact ⟨u, by rw [Site.user, hactor]; exact huser, hmember⟩
      · obtain ⟨rfl, ha, hlive⟩ := mem_broadcastToDialog hbroadcast
        cases hd
        exact h.member a _ ha hlive
    | stop hauths =>
      obtain ⟨statuses, heq⟩ := stopped_eq actor addr site
      rw [heq] at hsent
      cases hsent

/-- Only the events of connections send new messages. -/
theorem sentToMembers_exec (h : Entitled site) (input : Input) :
    SentToMembers site (site.exec statics input).1 := by
  cases input with
  | connect =>
    intro a msg d hsent hnew
    cases List.mem_singleton.mp hsent
    exact absurd hnew (by decide : "connected" ≠ "new_message")
  | ws addr message clock => exact sentToMembers_ws statics h message clock
  | disconnect addr =>
    intro a msg d hsent
    rcases exec_disconnect statics site addr with heq | ⟨actor, statuses, -, heq⟩
    · rw [heq] at hsent
      cases hsent
    · rw [heq] at hsent
      cases hsent
  | http ip draws req => exact fun a msg d hsent => (nomatch hsent)
  | tl request => exact fun a msg d hsent => (nomatch hsent)

/-- In a run in which nobody loses a membership under an open subscription, new messages reach
participants only. -/
theorem sent_to_members (hruns : Site.Runs statics Site.Lasting site) (input : Input) :
    SentToMembers site (site.exec statics input).1 :=
  sentToMembers_exec statics (hruns.entitled statics) input

end Events

/-- Requests of other kinds take nobody out of a dialog. -/
theorem lasting_tl {request : Request} (h : ∀ req, request.obj ≠ .removeGroupParticipant req) :
    site.Lasting (.tl request) := by
  rintro d v ⟨req, u, hobj, -⟩
  exact absurd hobj (h req)

theorem lasting_of_new {message : WsMessage} {clock : Clock}
    (h : site.state.connections.entries = []) : site.Lasting (.ws addr message clock) := by
  intro u _ _ _ d hd
  have hnone : site.state.registered d = [] := by
    unfold WebState.registered AList.lookup
    rw [h]
    rfl
  rw [hnone] at hd
  cases hd

theorem lasting_of_auths_none {message : WsMessage} {clock : Clock} (h : message.auths = none) :
    site.Lasting (.ws addr message clock) := by
  intro u _ hauths
  rw [h] at hauths
  cases hauths

namespace Demo

theorem lasting_connecting : ∀ input ∈ connecting, ∀ site, Site.Lasting site input := by
  intro input hinput site
  rcases List.mem_append.mp hinput with htl | hrest
  · obtain ⟨request, hrequest, rfl⟩ := List.mem_map.mp htl
    obtain ⟨obj, hobj, rfl⟩ := List.mem_map.mp hrequest
    rcases List.mem_pair.mp hobj with rfl | rfl
    · exact lasting_tl (by rintro _ ⟨⟩)
    · exact lasting_tl (by rintro _ ⟨⟩)
  · simp only [List.mem_cons, List.not_mem_nil, or_false] at hrest
    rcases hrest with rfl | rfl | rfl | rfl | rfl | rfl
    · exact lasting_tl (by rintro _ ⟨⟩)
    · exact lasting_tl (by rintro _ ⟨⟩)
    · exact lasting_tl (by rintro _ ⟨⟩)
    · exact lasting_tl (by rintro _ ⟨⟩)
    · trivial
    · trivial

section Chatting

variable [Platform] [Bcrypt] {statics : Statics}

/-- Nothing is registered until both connections have their users. -/
theorem runs_subscribing (hruns : Site.Runs statics Site.Lasting site)
    (hnew : site.state.connections.entries = [])
    (hstill : (site.exec statics (auth 0 0)).2.state.connections.entries = []) :
    Site.Runs statics Site.Lasting
      (happenings statics [auth 0 0, auth 1 1, subscribe 0 1] site) := by
  have hzero := hruns.step (auth 0 0) (lasting_of_new hnew)
  have hone := hzero.step (auth 1 1) (lasting_of_new hstill)
  exact hone.step (subscribe 0 1) (lasting_of_auths_none (by decide))

end Chatting

theorem runs_chatting : letI := Sample.platform
    letI := bcrypt
    Site.Runs Sample.statics Site.Lasting (after chatting) := by
  let _ := Sample.platform
  let _ := bcrypt
  have heq : after chatting = happenings Sample.statics [auth 0 0, auth 1 1, subscribe 0 1]
      (happenings Sample.statics connecting .init) := happenings_append ..
  rw [heq]
  have hruns := runs_happenings Sample.statics connecting .init lasting_connecting
  exact runs_subscribing hruns (by decide +kernel) (by decide +kernel)

/-- User 1 takes user 0 out of the dialog. -/
def removing : List Input := chatting ++ [tl (.removeGroupParticipant ⟨⟨1⟩, ⟨0⟩⟩)]

end Demo

/-- Both are in the dialog when user 1 speaks. -/
theorem sent_to_members_chatting : let _ := Sample.platform
    let _ := Demo.bcrypt
    let site := Demo.after Demo.chatting
    SentToMembers site (site.exec Sample.statics (.ws 1 (Demo.hi 1) ⟨0, 0⟩)).1 :=
  @sent_to_members (Demo.after Demo.chatting) Sample.platform Demo.bcrypt Sample.statics
    Demo.runs_chatting (.ws 1 (Demo.hi 1) ⟨0, 0⟩)

/-- User 0 is still sent what is said after they have been removed. -/
theorem not_sent_to_members : ¬ ∀ (_ : Platform) (_ : Bcrypt) (statics : Statics) (site : Site)
    (input : Input), Site.Reachable statics site →
    SentToMembers site (site.exec statics input).1 := by
  intro h
  obtain ⟨u, hu, hmember⟩ := h Sample.platform Demo.bcrypt Sample.statics _
    (.ws 1 (Demo.hi 1) ⟨0, 0⟩)
    (Demo.reachable_after Demo.removing) 0 (announcement Demo.saying) 1 (by decide +kernel)
    (by decide) (by decide)
  have hzero : (Demo.after Demo.removing).user 0 = some 0 := by decide +kernel
  cases hzero.symm.trans hu
  exact absurd hmember (by decide +kernel)

end KoSta.Web
