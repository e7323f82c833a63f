import KoSta.Web.Reads
import KoSta.Web.Recipients

/-! Logging in over HTTP, and the users that connections are authenticated as. -/
namespace KoSta.Web
open Lib Lib.Prog Tl KoSta.Server Function

/-- The clients of the connections, and the logins that have succeeded with their requests. -/
structure Ledger (κ : Type) where
  owner : Addr → Option κ
  logins : List (κ × LoginRequest × Int64)

variable {κ : Type} {a addr : Addr} {u : Int64} {db db' : Database} {site : Site}
  {ledger : Ledger κ}

def HttpResponse.loggedIn (response : HttpResponse) : Option Int64 :=
  match response.body with
  | .login response => if response.success then response.userId else none
  | _ => none

/-- The connection sends an `auth` for the user. -/
def Input.Auths (input : Input) (addr : Addr) (u : Int64) : Prop :=
  ∃ message clock, input = .ws addr message clock ∧ message.auths = some u

namespace Ledger

def empty : Ledger κ := ⟨fun _ => none, []⟩

/-- The client of the connection has logged in as the user. -/
def LoggedIn (ledger : Ledger κ) (addr : Addr) (u : Int64) : Prop :=
  ∃ client req, ledger.owner addr = some client ∧ (client, req, u) ∈ ledger.logins

end Ledger

section Definitions

variable [Platform] [Bcrypt] (statics : Statics)

/-- What an event of a client adds. -/
def Ledger.note (ledger : Ledger κ) (client : κ) (site : Site) : Input → Ledger κ
  | .connect => { ledger with owner := update ledger.owner site.nextAddr (some client) }
  | .http ip draws (.login req) =>
    match (handleHttp ip draws (.login req) site).1.loggedIn with
    | some u => { ledger with logins := ledger.logins ++ [(client, req, u)] }
    | none => ledger
  | _ => ledger

/-- The password of the request is the one the user's row was made with, or fits it. -/
def Presented (db : Database) (req : LoginRequest) (u : Int64) : Prop :=
  ∃ row ∈ db.users, row.id = u ∧ row.phone = req.phone ∧
    (Bcrypt.verify req.password row.passwordHash = some true ∨
      ∃ salt, row.passwordHash = bcryptHash salt req.password)

/-- Runs of any number of clients. -/
inductive Visits (meets : Ledger κ → Site → Input → Prop) : Ledger κ → Site → Prop where
  | init : Visits meets .empty .init
  | step {ledger : Ledger κ} {site : Site} (client : κ) (input : Input) : Visits meets ledger site →
    meets ledger site input →
    Visits meets (ledger.note client site input) (site.exec statics input).2
  | elsewhere {ledger : Ledger κ} {site : Site} {w' : World} : Visits meets ledger site →
    Elsewhere site.world w' → Visits meets ledger { site with world := w' }

/-- A connection comes to be a user when its client has logged in as them and says so, and at no
other time; whatever it stores has a sender whose password its client has presented. -/
structure Authentic (ledger : Ledger κ) (site : Site) (input : Input) : Prop where
  becomes : ∀ addr u, site.user addr ≠ some u →
    ((site.exec statics input).2.user addr = some u ↔
      site.isOpen addr = true ∧ input.Auths addr u ∧ ledger.LoggedIn addr u)
  stores : ∀ addr message clock m, input = .ws addr message clock →
    (site.exec statics input).2.db.messages = site.db.messages ++ [m] →
    ∃ client req, ledger.owner addr = some client ∧ (client, req, m.senderId) ∈ ledger.logins ∧
      Presented site.db req m.senderId

/-- What has to be so, as `auth` asks for a status and not for a login: the users a connection
asks to be have a status just when its client has logged in as them. -/
def StatusOfLogin (ledger : Ledger κ) (site : Site) (input : Input) : Prop :=
  ∀ addr u, site.isOpen addr = true → input.Auths addr u →
    (HasStatus site.db u ↔ ledger.LoggedIn addr u)

end Definitions

/-! ### The users of connections -/

theorem auths_of_subscribes {message : WsMessage} {d : Int64} (h : message.subscribes = some d) :
    message.auths = none := by
  refine if_neg fun haction => ?_
  have hnone : message.subscribes = none := if_neg (by rw [haction]; decide)
  rw [hnone] at h
  cases h

theorem auths_of_sends {message : WsMessage} {sending : Int64 × String}
    (h : message.sends = some sending) : message.auths = none := by
  refine if_neg fun haction => ?_
  have hnone : message.sends = none := if_neg (by rw [haction]; decide)
  rw [hnone] at h
  cases h

theorem not_auths {message : WsMessage} {clock : Clock} (h : message.auths = none) :
    ¬ (Input.ws addr message clock).Auths a u := by
  rintro ⟨message', clock', heq, hauths⟩
  cases heq
  rw [h] at hauths
  cases hauths

/-- An event that changes no user, and does not ask to. -/
theorem becomes_of_same {input : Input} {site' : Site} (hne : site.user a ≠ some u)
    (hsame : site'.user a = some u → site.user a = some u)
    (hnot : ¬ (site.isOpen a = true ∧ input.Auths a u ∧ HasStatus site.db u)) :
    site'.user a = some u ↔ site.isOpen a = true ∧ input.Auths a u ∧ HasStatus site.db u :=
  iff_of_false (fun h => hne (hsame h)) hnot

section Users

variable [Platform] [Bcrypt] (statics : Statics)

theorem becomes_ws (message : WsMessage) (clock : Clock) (hne : site.user a ≠ some u) :
    (site.exec statics (.ws addr message clock)).2.user a = some u ↔
      site.isOpen a = true ∧ (Input.ws addr message clock).Auths a u ∧ HasStatus site.db u := by
  cases hactor : site.actors addr with
  | none =>
    rw [exec_ws_none statics hactor]
    refine becomes_of_same hne id ?_
    rintro ⟨hopen, ⟨message', clock', heq, -⟩, -⟩
    cases heq
    rw [Site.isOpen, hactor] at hopen
    cases hopen
  | some actor =>
    have hopen : site.isOpen addr = true := by rw [Site.isOpen, hactor]; rfl
    have huser : site.user addr = actor.userId := by rw [Site.user, hactor]; rfl
    have hdoes := exec_ws_some statics hactor message clock
    generalize site.exec statics (.ws addr message clock) = outcome at hdoes
    cases hdoes with
    | refuse limiter hsent hauths =>
      refine becomes_of_same hne id ?_
      rintro ⟨-, ⟨message', clock', heq, hu⟩, hstatus⟩
      cases heq
      exact hauths u hu hstatus
    | @authenticate u' hauths hstatus =>
      change (site.setActor addr (some { actor with userId := some u' })).user a = some u ↔ _
      rw [user_setActor]
      by_cases ha : a = addr
      · subst ha
        rw [if_pos rfl]
        constructor
        · intro hsome
          cases hsome
          exact ⟨hopen, ⟨message, clock, rfl, hauths⟩, hstatus⟩
        · rintro ⟨-, ⟨message', clock', heq, hu⟩, -⟩
          cases heq
          exact hauths.symm.trans hu
      · rw [if_neg ha]
        refine iff_of_false hne ?_
        rintro ⟨-, ⟨message', clock', heq, -⟩, -⟩
        cases heq
        exact ha rfl
    | @subscribe u' dialogId hsubscribes hwho hmember =>
      refine becomes_of_same hne (fun h => ?_)
        fun h => not_auths (auths_of_subscribes hsubscribes) h.2.1
      change (site.setActor addr (some { actor with dialogId := some dialogId })).user a =
        some u at h
      rw [user_setActor] at h
      by_cases ha : a = addr
      · rw [if_pos ha] at h
        rw [ha, huser]
        exact h
      · rwa [if_neg ha] at h
    | store limiter hsends hwho hmember hsave =>
      exact becomes_of_same hne id fun h => not_auths (auths_of_sends hsends) h.2.1
    | stop hauths =>
      obtain ⟨statuses, heq⟩ := stopped_eq actor addr site
      rw [heq]
      refine becomes_of_same hne (fun h => ?_) fun h => not_auths hauths h.2.1
      change (site.setActor addr none).user a = some u at h
      rw [user_setActor] at h
      split at h
      · cases h
      · exact h

/-- A connection comes to be a user by asking for one who has a status, and in no other way. -/
theorem becomes_iff (input : Input) (hne : site.user a ≠ some u) :
    (site.exec statics input).2.user a = some u ↔
      site.isOpen a = true ∧ input.Auths a u ∧ HasStatus site.db u := by
  have hother (hnot : ¬ input.Auths a u) {site' : Site}
      (hsame : site'.user a = some u → site.user a = some u) :
      site'.user a = some u ↔ site.isOpen a = true ∧ input.Auths a u ∧ HasStatus site.db u :=
    becomes_of_same hne hsame fun h => hnot h.2.1
  cases input with
  | ws addr message clock => exact becomes_ws statics message clock hne
  | connect =>
    refine hother (by rintro ⟨_, _, ⟨⟩, _⟩) fun h => ?_
    change (site.setActor site.nextAddr (some ⟨none, none⟩)).user a = some u at h
    rw [user_setActor] at h
    split at h
    · cases h
    · exact h
  | disconnect addr =>
    refine hother (by rintro ⟨_, _, ⟨⟩, _⟩) fun h => ?_
    rcases exec_disconnect statics site addr with heq | ⟨actor, statuses, -, heq⟩
    · rwa [heq] at h
    · rw [heq] at h
      change (site.setActor addr none).user a = some u at h
      rw [user_setActor] at h
      split at h
      · cases h
      · exact h
  | http ip draws req =>
    refine hother (by rintro ⟨_, _, ⟨⟩, _⟩) fun h => ?_
    obtain ⟨limiter, users, -, heq⟩ := handleHttp_site ip draws req site
    change (handleHttp ip draws req site).2.user a = some u at h
    rwa [heq] at h
  | tl request => exact hother (by rintro ⟨_, _, ⟨⟩, _⟩) fun h => h

end Users

/-! ### Rows of users -/

theorem users_insertUser (phone hash : String) (db : Database) :
    db.users ⊆ (Database.insertUser phone hash db).2.users := by
  unfold Database.insertUser
  split
  · exact List.Subset.refl _
  · split
    · exact List.subset_append_left _ _
    · exact List.Subset.refl _

abbrev GrowsUsers {α : Type} (p : ServerM α) : Prop :=
  Admits.Tables (fun db db' => db.users ⊆ db'.users) p

theorem growsUsers_of_keeps {α : Type} {p : ServerM α} (h : KeepsTables p) : GrowsUsers p :=
  Always.mono h fun {w w'} heq => by rw [heq]; exact List.Subset.refl _

section Rows

variable [Platform] [Bcrypt] (statics : Statics)

omit [Bcrypt] in
theorem users_handleSignUp (draws : Draws) (conn : ConnId) (session : Option Int64) (req : SignUp)
    (w : World) :
    w.state.db.users ⊆ ((handleSignUp draws conn session req).exec w).2.state.db.users := by
  have hcreate : GrowsUsers (createUser draws req.phone req.password) :=
    Admits.sql (users_insertUser _ _)
  have hgrows : GrowsUsers (handleSignUp draws conn session req) := by
    refine hcreate.bind fun userId => ?_
    cases session with
    | none => exact Always.pure _
    | some id =>
      have hbound : GrowsUsers (sql (Database.updateSessionUserId id userId)) :=
        Admits.sql fun db => List.Subset.refl _
      refine hbound.bind fun _ => Always.bind (growsUsers_of_keeps (keeps_getSession conn id _))
        fun found => ?_
      cases found with
      | none => exact Always.pure _
      | some session =>
        have hupdate : GrowsUsers (updateSession conn id { session with userId } [] []) :=
          Always.bind (fun w => ⟨List.Subset.refl _, trivial⟩) fun _ =>
            growsUsers_of_keeps (keeps_locked fun _ => rfl)
        exact hupdate.bind fun _ => Always.pure _
  exact Always.exec hgrows (fun _ => List.Subset.refl _) (fun h h' => List.Subset.trans h h') w

omit [Bcrypt] in
theorem users_request (request : Request) (w : World) :
    w.state.db.users ⊆ (request.exec statics w).state.db.users := by
  obtain ⟨draws, conn, session, obj⟩ := request
  rcases db_handleRequest statics draws conn session obj w with ⟨req, rfl⟩ | ⟨req, rfl⟩ | heq
  · exact users_handleSignUp draws conn session req w
  · change w.state.db.users ⊆
      ((handleSetClientDhParams statics draws conn req).exec w).2.state.db.users
    rcases handleSetClientDhParams_cases statics draws conn req w with
      ⟨e, heq⟩ | ⟨entry, inner, -, -, heq⟩
    · rw [heq]
      exact List.Subset.refl _
    · rw [heq, World.create_db]
      exact List.Subset.refl _
  · change w.state.db.users ⊆
      ((handleRequest statics draws conn obj session).exec w).2.state.db.users
    rw [heq]
    cases requester w session with
    | none => exact List.Subset.refl _
    | some u =>
      rw [Option.elim_some, users_applied]
      exact List.Subset.refl _

/-- No event loses or changes the row of a user. -/
theorem users_exec (input : Input) (site : Site) :
    site.db.users ⊆ (site.exec statics input).2.db.users := by
  cases input with
  | connect => exact List.Subset.refl _
  | ws addr message clock =>
    cases hactor : site.actors addr with
    | none =>
      rw [exec_ws_none statics hactor]
      exact List.Subset.refl _
    | some actor =>
      have hdoes := exec_ws_some statics hactor message clock
      generalize site.exec statics (.ws addr message clock) = outcome at hdoes
      cases hdoes with
      | refuse limiter hsent hauths => exact List.Subset.refl _
      | @authenticate u hauths hstatus =>
        obtain ⟨statuses, heq⟩ := setUserStatus_eq u 0 site.db
        rw [heq]
        exact List.Subset.refl _
      | subscribe hsubscribes huser hmember => exact List.Subset.refl _
      | @store u dialogId msgId seconds text db limiter hsends huser hmember hsave =>
        change site.db.users ⊆ db.users
        unfold Database.saveMessage at hsave
        split at hsave
        · cases hsave
        · split at hsave
          · cases hsave
            exact List.Subset.refl _
          · cases hsave
      | stop hauths =>
        obtain ⟨statuses, heq⟩ := stopped_eq actor addr site
        rw [heq]
        exact List.Subset.refl _
  | disconnect addr =>
    rcases exec_disconnect statics site addr with heq | ⟨actor, statuses, -, heq⟩
    · rw [heq]
      exact List.Subset.refl _
    · rw [heq]
      exact List.Subset.refl _
  | http ip draws req =>
    obtain ⟨limiter, users, hprefix, heq⟩ := handleHttp_site ip draws req site
    change site.db.users ⊆ (handleHttp ip draws req site).2.db.users
    rw [heq]
    exact hprefix.subset
  | tl request => exact users_request statics request site.world

/-! ### Logins -/

omit statics in
theorem Presented.mono {req : LoginRequest} (h : Presented db req u)
    (hgrow : db.users ⊆ db'.users) :
    Presented db' req u := by
  obtain ⟨row, hrow, hrest⟩ := h
  exact ⟨row, hgrow hrow, hrest⟩

omit statics in
/-- A login succeeds for the user whose password it presents, a new one if need be. -/
theorem presented_login {ip : String} {draws : HttpDraws} {req : LoginRequest}
    (h : (handleHttp ip draws (.login req) site).1.loggedIn = some u) :
    Presented (handleHttp ip draws (.login req) site).2.db req u := by
  unfold handleHttp at h ⊢
  cases hcheck : site.httpLimiter.check ip draws.instant with
  | mk verdict limiter =>
    rw [hcheck] at h
    cases verdict with
    | error e => cases h
    | ok _ =>
      dsimp only [login] at h ⊢
      split at h
      · rename_i userId hauthenticate
        cases h
        unfold Database.authenticate at hauthenticate
        split at hauthenticate
        · cases hauthenticate
        · rename_i row hrow
          split at hauthenticate
          · rename_i hverify
            cases hauthenticate
            have hphone := List.find?_some hrow
            exact ⟨row, List.mem_of_find?_eq_some hrow, rfl, beq_iff_eq.mp hphone, Or.inl hverify⟩
          · cases hauthenticate
          · cases hauthenticate
      · split at h
        · rename_i userId db hinsert
          cases h
          unfold Database.insertUser at hinsert
          split at hinsert
          · cases hinsert
          · split at hinsert
            · cases hinsert
              exact ⟨_, List.mem_append_right _ (List.mem_singleton_self _), rfl, rfl,
                Or.inr ⟨draws.salt, rfl⟩⟩
            · cases hinsert
        · cases h
      · cases h

end Rows

/-! ### Whole runs -/

section Runs

variable [Platform] [Bcrypt] (statics : Statics)

/-- The events of the clients one after the other. -/
def visit : List (κ × Input) → Ledger κ × Site → Ledger κ × Site
  | [], visited => visited
  | (client, input) :: rest, (ledger, site) =>
    visit rest (ledger.note client site input, (site.exec statics input).2)

theorem visits_visit {meets : Ledger κ → Site → Input → Prop} (events : List (κ × Input))
    (h : Visits statics meets ledger site)
    (hmeets : ∀ event ∈ events, ∀ ledger site, meets ledger site event.2) :
    Visits statics meets (visit statics events (ledger, site)).1
      (visit statics events (ledger, site)).2 := by
  induction events generalizing ledger site with
  | nil => exact h
  | cons event events ih =>
    obtain ⟨client, input⟩ := event
    refine ih (h.step client input (hmeets (client, input) (List.mem_cons_self ..) ledger site)) ?_
    exact fun event hevent => hmeets event (List.mem_cons_of_mem _ hevent)

theorem Visits.reachable {meets : Ledger κ → Site → Input → Prop}
    (h : Visits statics meets ledger site) : Site.Reachable statics site := by
  induction h with
  | init => exact .init
  | step client input _ _ ih => exact ih.step input trivial
  | elsewhere _ hw ih => exact ih.elsewhere hw

/-- What the ledger says of a connection is lost only when its address is given out. -/
theorem loggedIn_note (client : κ) {input : Input} (hnew : input = .connect → a ≠ site.nextAddr)
    (h : ledger.LoggedIn a u) : (ledger.note client site input).LoggedIn a u := by
  obtain ⟨owner, req, howner, hlogin⟩ := h
  cases input with
  | connect => exact ⟨owner, req, (update_of_ne (hnew rfl) _ _).trans howner, hlogin⟩
  | http ip draws req' =>
    cases req' with
    | login req' =>
      dsimp only [Ledger.note]
      split
      · exact ⟨owner, req, howner, List.mem_append_left _ hlogin⟩
      · exact ⟨owner, req, howner, hlogin⟩
    | chats => exact ⟨owner, req, howner, hlogin⟩
    | history query => exact ⟨owner, req, howner, hlogin⟩
  | _ => exact ⟨owner, req, howner, hlogin⟩

/-- The connections are the users their clients have logged in as, with the users' passwords. -/
structure Credible (ledger : Ledger κ) (site : Site) : Prop where
  user : ∀ a u, site.user a = some u → ledger.LoggedIn a u
  presented : ∀ client req u, (client, req, u) ∈ ledger.logins → Presented site.db req u

theorem presented_note (client : κ) (input : Input)
    (h : ∀ client req u, (client, req, u) ∈ ledger.logins → Presented site.db req u)
    {client' : κ} {req : LoginRequest}
    (hlogin : (client', req, u) ∈ (ledger.note client site input).logins) :
    Presented (site.exec statics input).2.db req u := by
  have hold (hlogin : (client', req, u) ∈ ledger.logins) :
      Presented (site.exec statics input).2.db req u :=
    (h client' req u hlogin).mono (users_exec statics input site)
  cases input with
  | http ip draws req' =>
    cases req' with
    | login req' =>
      dsimp only [Ledger.note] at hlogin
      split at hlogin
      · rename_i u' hsuccess
        rcases List.mem_append.mp hlogin with hlogin | hnew
        · exact hold hlogin
        · cases List.mem_singleton.mp hnew
          exact presented_login hsuccess
      · exact hold hlogin
    | chats => exact hold hlogin
    | history query => exact hold hlogin
  | _ => exact hold hlogin

theorem credible_exec (client : κ) (input : Input) (h : Credible ledger site)
    (hmeets : StatusOfLogin ledger site input) :
    Credible (ledger.note client site input) (site.exec statics input).2 := by
  refine ⟨fun a u hu => ?_, fun client' req u => presented_note statics client input h.presented⟩
  have hnew : input = .connect → a ≠ site.nextAddr := by
    rintro rfl rfl
    change (site.setActor site.nextAddr (some ⟨none, none⟩)).user site.nextAddr = some u at hu
    rw [user_setActor, if_pos rfl] at hu
    cases hu
  apply loggedIn_note client hnew
  by_cases hbefore : site.user a = some u
  · exact h.user a u hbefore
  · obtain ⟨hopen, hauths, hstatus⟩ := (becomes_iff statics input hbefore).mp hu
    exact (hmeets a u hopen hauths).mp hstatus

theorem Visits.credible (h : Visits statics StatusOfLogin ledger site) : Credible ledger site := by
  induction h with
  | init => exact ⟨fun a u hu => (nomatch hu), fun client req u hlogin => (nomatch hlogin)⟩
  | step client input _ hmeets ih => exact credible_exec statics client input ih hmeets
  | elsewhere _ hw ih =>
    refine ⟨ih.user, fun client req u hlogin => (ih.presented client req u hlogin).mono ?_⟩
    exact fun row hrow => hw.users ▸ hrow

/-- In a run in which those who ask to be a user have a status just when their client has logged
in, connections and messages belong to those who have presented the passwords. -/
theorem authentic (hvisits : Visits statics StatusOfLogin ledger site) {input : Input}
    (hmeets : StatusOfLogin ledger site input) : Authentic statics ledger site input := by
  refine ⟨fun addr u hne => ?_, fun addr message clock m heq hstores => ?_⟩
  · rw [becomes_iff statics input hne]
    constructor
    · rintro ⟨hopen, hauths, hstatus⟩
      exact ⟨hopen, hauths, (hmeets addr u hopen hauths).mp hstatus⟩
    · rintro ⟨hopen, hauths, hlogin⟩
      exact ⟨hopen, hauths, (hmeets addr u hopen hauths).mpr hlogin⟩
  · subst heq
    obtain ⟨actor, hactor, huser, -, -⟩ := exec_ws_stores statics hstores
    have hcredible := hvisits.credible statics
    obtain ⟨client, req, howner, hlogin⟩ :=
      hcredible.user addr m.senderId (by rw [Site.user, hactor]; exact huser)
    exact ⟨client, req, howner, hlogin, hcredible.presented client req _ hlogin⟩

end Runs

theorem statusOfLogin_of_not_auths {input : Input} (h : ∀ addr u, ¬ input.Auths addr u) :
    StatusOfLogin ledger site input := fun addr u _ hauths => absurd hauths (h addr u)

namespace Demo

def credentials : LoginRequest := ⟨"1", "secret"⟩

def loggingIn : Input := .http "192.0.2.1" draws (.login credentials)

def registering : List Input := Sample.exchanging.map .tl ++
  [tl (.signUp ⟨"1", "secret"⟩), tl (.userStatusUpdate ⟨⟨1⟩, .online⟩), loggingIn, .connect]

/-- User 1 signs up over TL and sets a status; then a client logs in as them and connects. -/
def returning : List (Nat × Input) := registering.map fun input => (0, input)

/-- A client logs in for the first time and connects. -/
def arriving : List (Nat × Input) := [(0, loggingIn), (0, .connect)]

def visited (events : List (Nat × Input)) : Ledger Nat × Site :=
  letI := Sample.platform
  letI := bcrypt
  visit Sample.statics events (.empty, .init)

theorem returning_not_auths : ∀ event ∈ returning, ∀ addr u, ¬ event.2.Auths addr u := by
  intro event hevent addr u hauths
  obtain ⟨input, hinput, rfl⟩ := List.mem_map.mp hevent
  obtain ⟨message, clock, heq, -⟩ := hauths
  rcases List.mem_append.mp hinput with htl | hrest
  · obtain ⟨request, -, rfl⟩ := List.mem_map.mp htl
    cases heq
  · simp only [List.mem_cons, List.not_mem_nil, or_false] at hrest
    rcases hrest with rfl | rfl | rfl | rfl <;> cases heq

theorem statusOfLogin_returning :
    StatusOfLogin (visited returning).1 (visited returning).2 (auth 0 1) := by
  rintro addr u - ⟨message, clock, heq, hauths⟩
  have hone : (request "auth" [("user_id", .number (some 1))]).auths = some 1 := by decide
  cases heq
  cases hone.symm.trans hauths
  refine iff_of_true ?_ ⟨0, credentials, ?_, ?_⟩
  · unfold HasStatus
    decide +kernel
  · decide +kernel
  · decide +kernel

end Demo

/-- A user who has a status is let in after a login. -/
theorem authentic_returning : let _ := Sample.platform
    let _ := Demo.bcrypt
    Authentic Sample.statics (Demo.visited Demo.returning).1 (Demo.visited Demo.returning).2
      (Demo.auth 0 1) := by
  let _ := Sample.platform
  let _ := Demo.bcrypt
  have hvisits : Visits Sample.statics StatusOfLogin (Demo.visited Demo.returning).1
      (Demo.visited Demo.returning).2 :=
    visits_visit Sample.statics Demo.returning .init fun event hevent ledger site =>
      statusOfLogin_of_not_auths (Demo.returning_not_auths event hevent)
  exact authentic Sample.statics hvisits Demo.statusOfLogin_returning

/-- A client who has just logged in for the first time is refused: no login sets a status. -/
theorem not_authentic : ¬ ∀ (κ : Type) (_ : Platform) (_ : Bcrypt) (statics : Statics)
    (ledger : Ledger κ) (site : Site) (input : Input),
    Visits statics (fun _ _ _ => True) ledger site → Authentic statics ledger site input := by
  intro h
  let _ := Sample.platform
  let _ := Demo.bcrypt
  have hvisits : Visits Sample.statics (fun _ _ _ => True) (Demo.visited Demo.arriving).1
      (Demo.visited Demo.arriving).2 :=
    visits_visit Sample.statics Demo.arriving .init fun _ _ _ _ => trivial
  have hbecomes := (h Nat Sample.platform Demo.bcrypt Sample.statics _ _ (Demo.auth 0 1)
    hvisits).becomes 0 1 (by decide +kernel)
  have huser := hbecomes.mpr ⟨by decide +kernel, ⟨_, _, rfl, by decide⟩, 0, Demo.credentials,
    by decide +kernel, by decide +kernel⟩
  exact absurd huser (by decide +kernel)

end KoSta.Web
