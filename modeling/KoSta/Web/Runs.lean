import KoSta.Server.Unregistered
import KoSta.Web.Handlers
import KoSta.Web.Ws

/-! Runs of the process: WebSocket events, HTTP requests and requests of the TL server. -/
namespace KoSta.Web
open KoSta.Server Tl

inductive Input where
  | connect
  | ws (addr : Addr) (message : WsMessage) (clock : Clock)
  | disconnect (addr : Addr)
  | http (ip : String) (draws : HttpDraws) (req : HttpRequest)
  | tl (request : Request)

/-- What the loop of the TL server does around its requests leaves these tables alone. -/
structure Elsewhere (w w' : World) : Prop where
  users : w'.state.db.users = w.state.db.users
  content : SameContent w.state.db w'.state.db
  messageSeq : w'.state.db.messageSeq = w.state.db.messageSeq

section Runs

variable [Platform] [Bcrypt] (statics : Statics)

/-- Events are handled one at a time, each from its start to its end. -/
def Site.exec (site : Site) : Input → Outcome
  | .connect => WsActor.started site
  | .ws addr message clock =>
    match site.actors addr with
    | some actor => actor.handle addr message clock site
    | none => ([], site)
  | .disconnect addr =>
    match site.actors addr with
    | some actor => actor.stopped addr site
    | none => ([], site)
  | .http ip draws req => ([], (handleHttp ip draws req site).2)
  | .tl request => ([], { site with world := request.exec statics site.world })

variable {site : Site} {addr : Addr} {actor : WsActor}

/-- A closed connection has no events. -/
theorem exec_ws_none (h : site.actors addr = none) (message : WsMessage) (clock : Clock) :
    site.exec statics (.ws addr message clock) = ([], site) := by
  dsimp only [Site.exec]
  rw [h]

theorem exec_ws_some (h : site.actors addr = some actor) (message : WsMessage) (clock : Clock) :
    Does actor addr message site (site.exec statics (.ws addr message clock)) := by
  dsimp only [Site.exec]
  rw [h]
  exact handle_does clock

theorem exec_disconnect (site : Site) (addr : Addr) :
    site.exec statics (.disconnect addr) = ([], site) ∨ ∃ actor statuses,
      site.actors addr = some actor ∧ site.exec statics (.disconnect addr) =
        ([], (site.setActor addr none).withDb { site.db with statuses }) := by
  dsimp only [Site.exec]
  cases hactor : site.actors addr with
  | none => exact Or.inl rfl
  | some actor =>
    obtain ⟨statuses, heq⟩ := stopped_eq actor addr site
    exact Or.inr ⟨actor, statuses, rfl, heq⟩

/-- The sites of the runs in which every event meets a condition when its turn comes. -/
inductive Site.Runs (meets : Site → Input → Prop) : Site → Prop where
  | init : Site.Runs meets Site.init
  | step {site : Site} (input : Input) : Site.Runs meets site → meets site input →
    Site.Runs meets (site.exec statics input).2
  | elsewhere {site : Site} {w' : World} : Site.Runs meets site → Elsewhere site.world w' →
    Site.Runs meets { site with world := w' }

/-- Any event may happen at any time. -/
abbrev Site.Reachable (site : Site) : Prop := Site.Runs statics (fun _ _ => True) site

theorem Site.Runs.reachable {meets : Site → Input → Prop} {site : Site}
    (h : Site.Runs statics meets site) : Site.Reachable statics site := by
  induction h with
  | init => exact .init
  | step input _ _ ih => exact ih.step input trivial
  | elsewhere _ hw ih => exact ih.elsewhere hw

/-- An invariant of all runs, from what it is at first and what one step makes of it. -/
theorem Site.Runs.invariant {meets : Site → Input → Prop} {P : Site → Prop}
    (hinit : P Site.init)
    (hstep : ∀ site input, P site → meets site input → P (site.exec statics input).2)
    (hworld : ∀ site w', P site → Elsewhere site.world w' → P { site with world := w' })
    {site : Site} (h : Site.Runs statics meets site) : P site := by
  induction h with
  | init => exact hinit
  | step input _ hmeets ih => exact hstep _ input ih hmeets
  | elsewhere _ hw ih => exact hworld _ _ ih hw

/-- Any list of events makes a run. -/
def happenings : List Input → Site → Site
  | [], site => site
  | input :: inputs, site => happenings inputs (site.exec statics input).2

theorem happenings_append (inputs inputs' : List Input) (site : Site) :
    happenings statics (inputs ++ inputs') site =
      happenings statics inputs' (happenings statics inputs site) := by
  induction inputs generalizing site with
  | nil => rfl
  | cons input inputs ih => exact ih (site.exec statics input).2

theorem runs_happenings {meets : Site → Input → Prop} (inputs : List Input) {site : Site}
    (h : Site.Runs statics meets site) (hmeets : ∀ input ∈ inputs, ∀ site, meets site input) :
    Site.Runs statics meets (happenings statics inputs site) := by
  induction inputs generalizing site with
  | nil => exact h
  | cons input inputs ih =>
    exact ih (h.step input (hmeets input (List.mem_cons_self ..) site))
      fun input' hinput' => hmeets input' (List.mem_cons_of_mem _ hinput')

theorem reachable_happenings (inputs : List Input) {site : Site}
    (h : Site.Reachable statics site) : Site.Reachable statics (happenings statics inputs site) :=
  runs_happenings statics inputs h fun _ _ _ => trivial

end Runs

/-! ### A small site -/

namespace Demo

/-- The hashes of the plainest platform are the passwords; an empty text is no hash. -/
@[reducible] def bcrypt : Bcrypt where
  verify password hash := if hash = "" then none else some (password == hash)

def after (inputs : List Input) : Site :=
  letI := Sample.platform
  letI := bcrypt
  happenings Sample.statics inputs .init

theorem reachable_after (inputs : List Input) : letI := Sample.platform
    letI := bcrypt
    Site.Reachable Sample.statics (after inputs) :=
  letI := Sample.platform
  letI := bcrypt
  reachable_happenings Sample.statics inputs .init

/-- A request under the sample's session. -/
def tl (obj : TlObject) : Input := .tl ⟨(Sample.draws 0).handler, 0, some Sample.id, obj⟩

end Demo

end KoSta.Web
