import KoSta.Lib.Presence
import KoSta.Web.Logins

/-! Whether the stored status of a user tells if the user is connected. -/
namespace KoSta.Web
open Lib Lib.Prog Tl KoSta.Server Function

variable {a addr : Addr} {u v : Int64} {db : Database} {site : Site} {input : Input}

/-- The status `get_user_status` finds. -/
def statusOf (db : Database) (u : Int64) : Option Int32 :=
  (db.statuses.find? fun s => s.userId == u).map StatusRow.status

/-- The connections with their users, and the statuses that are stored. -/
def Site.board (site : Site) : Board Addr Int64 Int32 := ⟨site.user, statusOf site.db⟩

/-- The connection authenticates as a user. -/
def Site.Arrives (site : Site) (input : Input) (addr : Addr) (u : Int64) : Prop :=
  site.isOpen addr = true ∧ input.Auths addr u ∧ HasStatus site.db u

/-- The connection is closed, by its client or otherwise. -/
def Input.Closes (input : Input) (addr : Addr) : Prop :=
  input = .disconnect addr ∨ ∃ clock, input = .ws addr .close clock ∨ input = .ws addr .other clock

/-- The one request that writes statuses besides the connections. -/
def Input.SetsStatus : Input → Prop
  | .tl request => ∃ req, request.obj = .userStatusUpdate req
  | _ => False

/-- What has to be so, as a connection writes the status of its user whoever else is there: who
closes a connection has no other, and who loses one to another user has another. -/
structure Site.Undivided (site : Site) (input : Input) : Prop where
  closes : ∀ addr v, site.user addr = some v → input.Closes addr → ∀ a ≠ addr, site.user a ≠ some v
  changes : ∀ addr u v, site.user addr = some v → site.Arrives input addr u → v ≠ u →
    ∃ a ≠ addr, site.user a = some v

/-- The process when the WebSocket front end starts: nobody is connected, and the rows of
`user_status` refer to users. -/
structure Opening (site : Site) : Prop where
  closed : ∀ a, site.actors a = none
  users : ∀ u, HasStatus site.db u → site.db.hasUser u = true

section Runs

variable [Platform] [Bcrypt] (statics : Statics)

/-- The users that authenticate in a run. -/
def Attended : List Input → Site → Int64 → Prop
  | [], _, _ => False
  | input :: inputs, site, u =>
    (∃ addr, site.Arrives input addr u) ∨ Attended inputs (site.exec statics input).2 u

/-- After every event, each user that has authenticated has status 0, online, if some open
connection is theirs, and status 1, offline, if none is. -/
def ShowsPresence (site : Site) (inputs : List Input) : Prop :=
  ∀ earlier later, inputs = earlier ++ later →
    (happenings statics earlier site).board.Right 0 1 (Attended statics earlier site)

end Runs

/-! ### The status of one user -/

theorem hasStatus_iff : HasStatus db u ↔ statusOf db u ≠ none := by
  unfold HasStatus statusOf
  rw [ne_eq, Option.map_eq_none_iff, List.find?_eq_none]
  constructor
  · rintro ⟨s, hs, hu⟩ hnone
    exact hnone s hs (beq_iff_eq.mpr hu)
  · intro h
    by_contra hnone
    exact h fun s hs hu => hnone ⟨s, hs, beq_iff_eq.mp hu⟩

theorem statusOf_setUserStatus (hu : db.hasUser u = true) (status : Int32) :
    statusOf (Database.setUserStatus u status db).2 = update (statusOf db) u (some status) := by
  unfold Database.setUserStatus
  rw [if_pos hu]
  funext v
  unfold statusOf
  rw [List.find?_append, List.find?_filter]
  by_cases hv : v = u
  · subst hv
    have hnone : db.statuses.find? (fun s => decide ((s.userId != v) = true ∧
        (s.userId == v) = true)) = none :=
      List.find?_eq_none.mpr fun s _ => by simp
    rw [update_self, hnone]
    simp
  · have hother : (fun s : StatusRow => decide ((s.userId != u) = true ∧ (s.userId == v) = true)) =
        fun s => s.userId == v := by
      funext s
      by_cases hs : s.userId = v
      · simp [hs, hv]
      · simp [hs]
    rw [update_of_ne hv, hother]
    simp [Ne.symm hv]

theorem user_setActor_eq (site : Site) (addr : Addr) (actor : Option WsActor) :
    (site.setActor addr actor).user = update site.user addr (actor.bind WsActor.userId) := by
  funext a
  rw [user_setActor, update_apply]

/-! ### Events and the board -/

/-- What holds of the connections all along. -/
structure Staffed (site : Site) : Prop where
  opened : ∀ a, site.isOpen a = true → a < site.nextAddr
  board : site.board.Within fun u => site.db.hasUser u = true

theorem Opening.staffed (h : Opening site) : Staffed site where
  opened a ha := by
    rw [Site.isOpen, h.closed a] at ha
    cases ha
  board := by
    refine ⟨fun u hu => h.users u (hasStatus_iff.mpr hu), fun a u ha => ?_⟩
    change (site.actors a).bind WsActor.userId = some u at ha
    rw [h.closed a] at ha
    cases ha

/-- What an event can do to the board. -/
inductive Turns (site : Site) (input : Input) (site' : Site) : Prop where
  | arrives (addr : Addr) (u : Int64) : site.Arrives input addr u →
    site'.board = site.board.enter 0 addr u → Turns site input site'
  | closes (addr : Addr) : site.isOpen addr = true → input.Closes addr →
    site'.board = site.board.leave 1 addr → Turns site input site'
  | stays : (∀ addr u, ¬ site.Arrives input addr u) →
    (∀ addr, site.isOpen addr = true → ¬ input.Closes addr) → site'.board = site.board →
    Turns site input site'

theorem isOpen_handleJson {actor : WsActor} (hopen : site.isOpen addr = true) (json : Value)
    (clock : Clock) : (actor.handleJson addr json clock site).2.isOpen addr = true := by
  have hset (actor' : WsActor) : (site.setActor addr (some actor')).isOpen addr = true := by
    rw [isOpen_setActor, if_pos rfl]
    rfl
  unfold WsActor.handleJson
  dsimp only
  split
  · unfold WsActor.handleAuth
    split
    · exact hopen
    · split
      · exact hset _
      · exact hopen
  · unfold WsActor.handleSubscribe
    split
    · exact hopen
    · split
      · exact hopen
      · split
        · exact hopen
        · split
          · exact hset _
          · exact hopen
  · unfold WsActor.handleSendMessage
    split
    · split
      · exact hopen
      · dsimp only
        split
        · exact hopen
        · split
          · unfold WsActor.storeMessage
            split <;> exact hopen
          · exact hopen
    · exact hopen
  · exact hopen

theorem board_stopped (h : Staffed site) {actor : WsActor}
    (hactor : site.actors addr = some actor) :
    (actor.stopped addr site).2.board = site.board.leave 1 addr := by
  have huser : site.user addr = actor.userId := by rw [Site.user, hactor]; rfl
  unfold WsActor.stopped
  dsimp only
  cases hu : actor.userId with
  | none =>
    apply Board.ext
    · exact user_setActor_eq site addr none
    · change statusOf site.db = (site.user addr).elim (statusOf site.db) _
      rw [huser, hu]
      rfl
  | some u =>
    apply Board.ext
    · exact user_setActor_eq site addr none
    · change statusOf (Database.setUserStatus u 1 site.db).2 =
        (site.user addr).elim (statusOf site.db) _
      rw [huser, hu, statusOf_setUserStatus (h.board.holders addr u (huser.trans hu))]
      rfl

/-- Tables whose statuses are as before show the same. -/
theorem board_eq {site' : Site} (huser : site'.user = site.user)
    (hstatuses : site'.db.statuses = site.db.statuses) : site'.board = site.board := by
  unfold Site.board statusOf
  rw [huser, hstatuses]

theorem statuses_saveMessage {dialogId senderId timestamp : Int64} {text : String}
    {isOutgoing : Bool} {mediaPath mediaType : Option String} :
    (Database.saveMessage dialogId senderId text timestamp isOutgoing mediaPath
      mediaType db).2.statuses =
      db.statuses := by
  unfold Database.saveMessage
  split
  · rfl
  · split <;> rfl

theorem admits_statuses : Admits fun db db' => db'.statuses = db.statuses where
  refl _ := rfl
  trans h h' := h'.trans h
  dialog type title db := by
    unfold Database.insertDialog
    split <;> rfl
  participant d u db := by
    rcases insertParticipant_cases d u db with ⟨e, h, -⟩ | ⟨h, -⟩
    · rw [h]
    · rw [h]
      rfl

theorem statuses_applied (draws : Draws) (w : World) (u : Int64) {obj : TlObject}
    (hobj : ¬ ∃ req, obj = .userStatusUpdate req) :
    (applied draws w u obj).statuses = w.state.db.statuses := by
  cases obj with
  | userStatusUpdate req => exact (hobj ⟨req, rfl⟩).elim
  | sendMessage req => exact statuses_saveMessage
  | createPrivateDialog req =>
    exact admits_statuses.exec (admits_statuses.createPrivateDialog u _) w
  | createGroup req => exact admits_statuses.exec (admits_statuses.insertMembers 1 req.title _) w
  | addGroupParticipant req =>
    dsimp only [applied]
    unfold Database.addParticipant
    split
    · split
      · rfl
      · split <;> rfl
    · rfl
  | removeGroupParticipant req =>
    dsimp only [applied]
    split <;> rfl
  | _ => rfl

theorem hasUser_mono {db' : Database} (h : db.users ⊆ db'.users) (hu : db.hasUser u = true) :
    db'.hasUser u = true := by
  obtain ⟨row, hrow, hid⟩ := List.any_eq_true.mp hu
  exact List.any_eq_true.mpr ⟨row, h hrow, hid⟩

section Events

variable [Platform] [Bcrypt] {statics : Statics}

omit [Bcrypt] in
theorem statuses_request {request : Request} (hobj : ¬ ∃ req, request.obj = .userStatusUpdate req)
    (w : World) : (request.exec statics w).state.db.statuses = w.state.db.statuses := by
  obtain ⟨draws, conn, session, obj⟩ := request
  unfold Request.exec
  rcases db_handleRequest statics draws conn session obj w with ⟨req, rfl⟩ | ⟨req, rfl⟩ | heq
  · exact (sameContent_handleSignUp draws conn session req w).statuses
  · exact (sameContent_handleSetClientDhParams statics draws conn req w).statuses
  · rw [heq]
    cases requester w session with
    | none => rfl
    | some u => exact statuses_applied draws w u hobj

theorem turns_ws (h : Staffed site) (message : WsMessage) (clock : Clock) :
    Turns site (.ws addr message clock) (site.exec statics (.ws addr message clock)).2 := by
  have hauths {addr' : Addr} {u : Int64} (hu : (Input.ws addr message clock).Auths addr' u) :
      addr' = addr ∧ message.auths = some u := by
    obtain ⟨message', clock', heq, hu⟩ := hu
    cases heq
    exact ⟨rfl, hu⟩
  have hcloses {addr' : Addr} (hc : (Input.ws addr message clock).Closes addr') :
      addr' = addr ∧ (message = .close ∨ message = .other) := by
    rcases hc with hc | ⟨clock', hc | hc⟩
    · cases hc
    · cases hc
      exact ⟨rfl, .inl rfl⟩
    · cases hc
      exact ⟨rfl, .inr rfl⟩
  cases hactor : site.actors addr with
  | none =>
    have hclosed : ¬ site.isOpen addr = true := by
      rw [Site.isOpen, hactor]
      exact Bool.false_ne_true
    rw [exec_ws_none statics hactor]
    refine .stays (fun addr' u harrives => ?_) (fun addr' hopen hc => ?_) rfl
    · exact hclosed ((hauths harrives.2.1).1 ▸ harrives.1)
    · exact hclosed ((hcloses hc).1 ▸ hopen)
  | some actor =>
    have hopen : site.isOpen addr = true := by rw [Site.isOpen, hactor]; rfl
    have huser : site.user addr = actor.userId := by rw [Site.user, hactor]; rfl
    have hexec : site.exec statics (.ws addr message clock) =
      actor.handle addr message clock site := by
      dsimp only [Site.exec]
      rw [hactor]
    by_cases hclose : message = .close ∨ message = .other
    · refine .closes addr hopen ?_ ?_
      · rcases hclose with rfl | rfl
        · exact .inr ⟨clock, .inl rfl⟩
        · exact .inr ⟨clock, .inr rfl⟩
      · rw [hexec, ← board_stopped h hactor]
        rcases hclose with rfl | rfl <;> rfl
    · have hstays {site' : Site} (hnone : ∀ u, message.auths = some u → ¬ HasStatus site.db u)
          (hboard : site'.board = site.board) : Turns site (.ws addr message clock) site' :=
        .stays (fun addr' u harrives => hnone u (hauths harrives.2.1).2 harrives.2.2)
          (fun addr' _ hc => hclose (hcloses hc).2) hboard
      have hdoes := exec_ws_some statics hactor message clock
      have hlive : (site.exec statics (.ws addr message clock)).2.isOpen addr = true := by
        rw [hexec]
        rcases message with (_ | json) | _ | _ | _ | _ | _
        · exact hopen
        · exact isOpen_handleJson hopen json clock
        · exact hopen
        · exact hopen
        · exact hopen
        · exact (hclose (.inl rfl)).elim
        · exact (hclose (.inr rfl)).elim
      generalize site.exec statics (.ws addr message clock) = outcome at hdoes hlive
      cases hdoes with
      | refuse limiter hsent hrefused => exact hstays hrefused rfl
      | @authenticate u hu hstatus =>
        refine .arrives addr u ⟨hopen, ⟨message, clock, rfl, hu⟩, hstatus⟩ ?_
        apply Board.ext
        · exact user_setActor_eq site addr _
        · exact statusOf_setUserStatus (h.board.cells u (hasStatus_iff.mp hstatus)) 0
      | @subscribe u dialogId hsubscribes hwho hmember =>
        refine hstays (fun u' hu' => ?_) (board_eq ?_ rfl)
        · cases (auths_of_subscribes hsubscribes).symm.trans hu'
        · change (site.setActor addr (some { actor with dialogId := some dialogId })).user = _
          rw [user_setActor_eq]
          exact update_eq_self_iff.mpr huser.symm
      | store limiter hsends hwho hmember hsave =>
        refine hstays (fun u' hu' => ?_) (board_eq rfl ?_)
        · cases (auths_of_sends hsends).symm.trans hu'
        · exact (congrArg (fun r => r.2.statuses) hsave).symm.trans statuses_saveMessage
      | stop hnone =>
        obtain ⟨statuses, heq⟩ := stopped_eq actor addr site
        rw [heq] at hlive
        change (site.setActor addr none).isOpen addr = true at hlive
        rw [isOpen_setActor, if_pos rfl] at hlive
        cases hlive

omit [Platform] [Bcrypt] in
/-- Events that are none of a connection. -/
theorem Turns.other {site' : Site} (hws : ∀ addr message clock, input ≠ .ws addr message clock)
    (hdisconnect : ∀ addr, input ≠ .disconnect addr) (hboard : site'.board = site.board) :
    Turns site input site' := by
  refine .stays ?_ ?_ hboard
  · rintro addr u ⟨-, ⟨message, clock, hinput, -⟩, -⟩
    exact hws addr message clock hinput
  · intro addr _ hcloses
    rcases hcloses with hinput | ⟨clock, hinput | hinput⟩
    · exact hdisconnect addr hinput
    · exact hws addr _ clock hinput
    · exact hws addr _ clock hinput

variable (statics)

/-- Whatever happens, one connection at most changes its user and a cell of the board. -/
theorem turns_exec (h : Staffed site) (hsets : ¬ input.SetsStatus) :
    Turns site input (site.exec statics input).2 := by
  cases input with
  | ws addr message clock => exact turns_ws h message clock
  | connect =>
    refine .other (by rintro _ _ _ ⟨⟩) (by rintro _ ⟨⟩) (board_eq ?_ rfl)
    change (site.setActor site.nextAddr (some ⟨none, none⟩)).user = site.user
    rw [user_setActor_eq]
    refine update_eq_self_iff.mpr ?_
    unfold Site.user
    cases hactor : site.actors site.nextAddr with
    | none => rfl
    | some actor =>
      have hlt := h.opened site.nextAddr (by rw [Site.isOpen, hactor]; rfl)
      exact (Nat.lt_irrefl _ hlt).elim
  | disconnect addr =>
    cases hactor : site.actors addr with
    | none =>
      have hsame : (site.exec statics (.disconnect addr)).2 = site := by
        dsimp only [Site.exec]
        rw [hactor]
      rw [hsame]
      refine .stays ?_ ?_ rfl
      · rintro addr' u ⟨-, ⟨_, _, ⟨⟩, _⟩, -⟩
      · intro addr' hopen hcloses
        rcases hcloses with hinput | ⟨clock, hinput | hinput⟩
        · cases hinput
          rw [Site.isOpen, hactor] at hopen
          cases hopen
        · cases hinput
        · cases hinput
    | some actor =>
      have hstopped : site.exec statics (.disconnect addr) = actor.stopped addr site := by
        dsimp only [Site.exec]
        rw [hactor]
      refine .closes addr (by rw [Site.isOpen, hactor]; rfl) (.inl rfl) ?_
      rw [hstopped]
      exact board_stopped h hactor
  | http ip draws req =>
    obtain ⟨limiter, users, -, heq⟩ := handleHttp_site ip draws req site
    refine .other (by rintro _ _ _ ⟨⟩) (by rintro _ ⟨⟩) ?_
    change (handleHttp ip draws req site).2.board = _
    rw [heq]
    rfl
  | tl request =>
    exact .other (by rintro _ _ _ ⟨⟩) (by rintro _ ⟨⟩)
      (board_eq rfl (statuses_request hsets site.world))

theorem opened_exec (h : ∀ a, site.isOpen a = true → a < site.nextAddr) (input : Input) :
    ∀ a, (site.exec statics input).2.isOpen a = true → a <
      (site.exec statics input).2.nextAddr := by
  have hclosed (addr : Addr) : ∀ a, (site.setActor addr none).isOpen a = true →
    a < site.nextAddr := by
    intro a ha
    rw [isOpen_setActor] at ha
    split at ha
    · cases ha
    · exact h a ha
  have hset {addr : Addr} {actor : WsActor} (hopen : site.isOpen addr = true) :
      ∀ a, (site.setActor addr (some actor)).isOpen a = true → a < site.nextAddr := by
    intro a ha
    rw [isOpen_setActor] at ha
    split at ha
    · rename_i heq
      exact heq ▸ h addr hopen
    · exact h a ha
  cases input with
  | connect =>
    intro a ha
    change (site.setActor site.nextAddr (some ⟨none, none⟩)).isOpen a = true at ha
    change a < site.nextAddr + 1
    rw [isOpen_setActor] at ha
    split at ha
    · rename_i heq
      exact heq ▸ Nat.lt_succ_self _
    · exact Nat.lt_succ_of_lt (h a ha)
  | ws addr message clock =>
    cases hactor : site.actors addr with
    | none =>
      rw [exec_ws_none statics hactor]
      exact h
    | some actor =>
      have hopen : site.isOpen addr = true := by rw [Site.isOpen, hactor]; rfl
      have hdoes := exec_ws_some statics hactor message clock
      generalize site.exec statics (.ws addr message clock) = outcome at hdoes
      cases hdoes with
      | refuse limiter hsent hauths => exact h
      | authenticate hauths hstatus => exact hset hopen
      | subscribe hsubscribes hwho hmember => exact hset hopen
      | store limiter hsends hwho hmember hsave => exact h
      | stop hauths =>
        obtain ⟨statuses, heq⟩ := stopped_eq actor addr site
        rw [heq]
        exact hclosed addr
  | disconnect addr =>
    rcases exec_disconnect statics site addr with heq | ⟨actor, statuses, -, heq⟩
    · rw [heq]
      exact h
    · rw [heq]
      exact hclosed addr
  | http ip draws req =>
    obtain ⟨limiter, users, -, heq⟩ := handleHttp_site ip draws req site
    change ∀ a, (handleHttp ip draws req site).2.isOpen a = true →
      a < (handleHttp ip draws req site).2.nextAddr
    rw [heq]
    exact h
  | tl request => exact h

theorem staffed_exec (h : Staffed site) (hsets : ¬ input.SetsStatus) :
    Staffed (site.exec statics input).2 := by
  refine ⟨opened_exec statics h.opened input, ?_⟩
  have hgrow := users_exec statics input site
  have hboard := h.board.mono fun u hu => hasUser_mono hgrow hu
  cases turns_exec statics h hsets with
  | stays harrives hcloses hsame => exact hsame ▸ hboard
  | arrives addr u harrives henter =>
    rw [henter]
    exact hboard.enter (hboard.cells u (hasStatus_iff.mp harrives.2.2))
  | closes addr hopen hc hleave =>
    rw [hleave]
    exact hboard.leave

end Events

/-! ### One event -/

theorem Input.Auths.unique {a' : Addr} (h : input.Auths a u) (h' : input.Auths a' v) :
    a' = a ∧ v = u := by
  obtain ⟨message, clock, rfl, hu⟩ := h
  obtain ⟨message', clock', heq, hv⟩ := h'
  cases heq
  exact ⟨rfl, Option.some.inj (hv.symm.trans hu)⟩

theorem Input.Closes.unique {a' : Addr} (h : input.Closes a) (h' : input.Closes a') : a' = a := by
  rcases h with rfl | ⟨clock, rfl | rfl⟩ <;>
    rcases h' with heq | ⟨clock', heq | heq⟩ <;>
    cases heq <;>
    rfl

theorem Input.Closes.not_auths {a' : Addr} (h : input.Closes a) : ¬ input.Auths a' u := by
  rintro ⟨message, clock, rfl, hu⟩
  rcases h with heq | ⟨clock', heq | heq⟩
  · cases heq
  · cases heq
    cases hu
  · cases heq
    cases hu

section Runs

variable [Platform] [Bcrypt] (statics : Statics) {known : Int64 → Prop}

/-- A board that is right stays so just when the event leaves nobody half there. -/
theorem right_exec_iff (h : Staffed site) (hsets : ¬ input.SetsStatus)
    (hknown : ∀ a u, site.user a = some u → known u) (hright : site.board.Right 0 1 known) :
    (site.exec statics input).2.board.Right 0 1
      (fun u => known u ∨ ∃ addr, site.Arrives input addr u) ↔ site.Undivided input := by
  cases turns_exec statics h hsets with
  | stays harrives hcloses hsame =>
    refine iff_of_true ?_ ⟨fun addr v hv hc => ?_, fun addr u v _ ha => (harrives addr u ha).elim⟩
    · rw [hsame]
      intro u hu
      exact hright u (hu.resolve_right fun ⟨addr, ha⟩ => harrives addr u ha)
    · have hopen : site.isOpen addr = true := by
        rw [Site.isOpen]
        cases hactor : site.actors addr with
        | none =>
          rw [Site.user, hactor] at hv
          cases hv
        | some actor => rfl
      exact (hcloses addr hopen hc).elim
  | arrives addr u harrives henter =>
    have hattended : (fun v => known v ∨ ∃ addr, site.Arrives input addr v) =
        fun v => v = u ∨ known v := by
      funext v
      refine propext ⟨?_, ?_⟩
      · rintro (hv | ⟨addr', hv⟩)
        · exact .inr hv
        · exact .inl (harrives.2.1.unique hv.2.1).2
      · rintro (rfl | hv)
        · exact .inr ⟨addr, harrives⟩
        · exact .inl hv
    rw [hattended, henter, Board.right_enter_iff (by decide) hright hknown]
    constructor
    · intro hothers
      refine ⟨fun addr' v _ hc => (hc.not_auths harrives.2.1).elim, fun addr' u' v hv ha hne => ?_⟩
      obtain ⟨rfl, rfl⟩ := harrives.2.1.unique ha.2.1
      exact hothers v hv hne
    · exact fun hundivided v hv hne => hundivided.changes addr u v hv harrives hne
  | closes addr hopen hc hleave =>
    have hattended : (fun v => known v ∨ ∃ addr, site.Arrives input addr v) = known := by
      funext v
      exact propext ⟨fun hv => hv.resolve_right fun ⟨_, ha⟩ => hc.not_auths ha.2.1, .inl⟩
    rw [hattended, hleave, Board.right_leave_iff (by decide) hright hknown]
    constructor
    · intro halone
      refine ⟨fun addr' v hv hc' => ?_, fun addr' u v _ ha => (hc.not_auths ha.2.1).elim⟩
      obtain rfl := hc.unique hc'
      exact halone v hv
    · exact fun hundivided v hv => hundivided.closes addr v hv hc

theorem attended_append (inputs : List Input) (input : Input) (site : Site) (u : Int64) :
    Attended statics (inputs ++ [input]) site u ↔ Attended statics inputs site u ∨
      ∃ addr, (happenings statics inputs site).Arrives input addr u := by
  induction inputs generalizing site with
  | nil => exact or_comm
  | cons first inputs ih =>
    change _ ∨ Attended statics (inputs ++ [input]) _ u ↔ (_ ∨ _) ∨ _
    rw [ih, or_assoc]
    rfl

/-- After a run every connection is staffed, by users that have authenticated in it. -/
theorem staffed_happenings (h : Opening site) (inputs : List Input)
    (hsets : ∀ input ∈ inputs, ¬ input.SetsStatus) :
    Staffed (happenings statics inputs site) ∧ ∀ a u,
      (happenings statics inputs site).user a = some u → Attended statics inputs site u := by
  induction inputs using List.reverseRecOn with
  | nil =>
    refine ⟨h.staffed, fun a u ha => ?_⟩
    change site.user a = some u at ha
    rw [Site.user, h.closed a] at ha
    cases ha
  | append_singleton inputs input ih =>
    obtain ⟨hstaffed, hknown⟩ := ih fun input hinput => hsets input (List.mem_append_left _ hinput)
    have hsets := hsets input (List.mem_append_right _ (List.mem_singleton_self input))
    rw [happenings_append]
    refine ⟨staffed_exec statics hstaffed hsets,
      fun a u ha => (attended_append statics _ _ _ _).mpr ?_⟩
    by_cases hold : (happenings statics inputs site).user a = some u
    · exact .inl (hknown a u hold)
    · exact .inr ⟨a, (becomes_iff statics input hold).mp ha⟩

theorem showsPresence_append (inputs : List Input) (input : Input) (site : Site) :
    ShowsPresence statics site (inputs ++ [input]) ↔ ShowsPresence statics site inputs ∧
      (happenings statics (inputs ++ [input]) site).board.Right 0 1
        (Attended statics (inputs ++ [input]) site) := by
  constructor
  · intro hshows
    refine ⟨fun earlier later heq => hshows earlier (later ++ [input]) ?_, hshows _ [] (by simp)⟩
    rw [heq, List.append_assoc]
  · rintro ⟨hshows, hright⟩ earlier later heq
    rcases List.eq_nil_or_concat later with rfl | ⟨later, last, rfl⟩
    · rwa [← (heq.trans (List.append_nil earlier))]
    · rw [List.concat_eq_append, ← List.append_assoc] at heq
      exact hshows earlier later (List.append_inj' heq rfl).1

/-- In a run the statuses tell who is connected after every event just when no event leaves a user
half there. -/
theorem shows_presence_iff (h : Opening site) (inputs : List Input)
    (hsets : ∀ input ∈ inputs, ¬ input.SetsStatus) :
    ShowsPresence statics site inputs ↔ ∀ earlier input later, inputs = earlier ++ input :: later →
      (happenings statics earlier site).Undivided input := by
  induction inputs using List.reverseRecOn with
  | nil =>
    refine iff_of_true ?_ ?_
    · intro earlier later heq
      obtain ⟨rfl, -⟩ := List.append_eq_nil_iff.mp heq.symm
      exact fun u hu => hu.elim
    · intro earlier input later heq
      cases (List.append_eq_nil_iff.mp heq.symm).2
  | append_singleton inputs input ih =>
    have hbefore : ∀ i ∈ inputs, ¬ i.SetsStatus := fun i hi => hsets i (List.mem_append_left _ hi)
    have hlast := hsets input (List.mem_append_right _ (List.mem_singleton_self input))
    obtain ⟨hstaffed, hknown⟩ := staffed_happenings statics h inputs hbefore
    rw [showsPresence_append]
    constructor
    · rintro ⟨hshows, hright⟩ earlier input' later heq
      rcases List.eq_nil_or_concat later with rfl | ⟨later, last, rfl⟩
      · obtain ⟨rfl, hinput⟩ := List.append_inj' heq rfl
        cases hinput
        rw [happenings_append] at hright
        refine (right_exec_iff statics hstaffed hlast hknown (hshows inputs [] (by simp))).mp
          fun u hu => ?_
        exact hright u ((attended_append statics _ _ _ _).mpr hu)
      · rw [List.concat_eq_append, ← List.cons_append, ← List.append_assoc] at heq
        obtain ⟨heq, -⟩ := List.append_inj' heq rfl
        exact (ih hbefore).mp hshows earlier input' later heq
    · intro hundivided
      have hshows : ShowsPresence statics site inputs := by
        refine (ih hbefore).mpr fun earlier input' later heq => ?_
        refine hundivided earlier input' (later ++ [input]) ?_
        rw [heq, List.append_assoc, List.cons_append]
      refine ⟨hshows, fun u hu => ?_⟩
      rw [happenings_append]
      have hlatest := hundivided inputs input [] rfl
      refine (right_exec_iff statics hstaffed hlast hknown (hshows inputs [] (by simp))).mpr
        hlatest u ?_
      exact (attended_append statics _ _ _ _).mp hu

end Runs

namespace Demo

/-- User 0 is offline, and nobody is connected. -/
def lobby : List Input := Sample.exchanging.map .tl ++ [tl (.userStatusUpdate ⟨⟨0⟩, .offline⟩)]

theorem opening_lobby : Opening (after lobby) where
  closed _ := rfl
  users u hu := by
    have hstatuses : (after lobby).db.statuses.map StatusRow.userId = [0] := by decide +kernel
    obtain ⟨s, hs, rfl⟩ := hu
    have hmem := List.mem_map_of_mem (f := StatusRow.userId) hs
    rw [hstatuses] at hmem
    rw [List.mem_singleton.mp hmem]
    decide +kernel

/-- User 0 comes and goes. -/
def visiting : List Input := [.connect, auth 0 0, .disconnect 0]

/-- User 0 comes twice and closes one of the connections. -/
def leavingOne : List Input := [.connect, .connect, auth 0 0, auth 1 0, .disconnect 0]

end Demo

/-- One connection of a user at a time is told right. -/
theorem shows_presence_visiting : let _ := Sample.platform
    let _ := Demo.bcrypt
    ShowsPresence Sample.statics (Demo.after Demo.lobby) Demo.visiting ↔
      ∀ earlier input later, Demo.visiting = earlier ++ input :: later →
        (happenings Sample.statics earlier (Demo.after Demo.lobby)).Undivided input :=
  @shows_presence_iff (Demo.after Demo.lobby) Sample.platform Demo.bcrypt Sample.statics
    Demo.opening_lobby Demo.visiting (by
      intro input hinput
      simp only [Demo.visiting, List.mem_cons, List.not_mem_nil, or_false] at hinput
      rcases hinput with rfl | rfl | rfl <;> exact not_false)

/-- User 0 is written off though the second connection is open. -/
theorem not_shows_presence : ¬ ∀ (_ : Platform) (_ : Bcrypt) (statics : Statics) (site : Site)
    (inputs : List Input), Site.Reachable statics site → Opening site →
    (∀ input ∈ inputs, ¬ input.SetsStatus) → ShowsPresence statics site inputs := by
  intro h
  let _ := Sample.platform
  let _ := Demo.bcrypt
  have hshows := h Sample.platform Demo.bcrypt Sample.statics _ Demo.leavingOne
    (Demo.reachable_after Demo.lobby) Demo.opening_lobby (by
      intro input hinput
      simp only [Demo.leavingOne, List.mem_cons, List.not_mem_nil, or_false] at hinput
      rcases hinput with rfl | rfl | rfl | rfl | rfl <;> exact not_false)
  have hattended : Attended Sample.statics Demo.leavingOne (Demo.after Demo.lobby) 0 :=
    .inr (.inr (.inl ⟨0, by decide +kernel, ⟨_, _, rfl, by decide⟩, by
      unfold HasStatus
      decide +kernel⟩))
  have honline := (hshows Demo.leavingOne [] rfl 0 hattended).1 ⟨1, by decide +kernel⟩
  exact absurd honline (by decide +kernel)

end KoSta.Web
