import KoSta.Lib.System
import KoSta.Server.OneByOne

/-! The loops of connections that handle frames of one session, section by section. -/
namespace KoSta.Server
open Lib Lib.Prog Tl Crypto Function

variable {id : Int64} {set : RecentMsgIds} {keys : AesKey × MacKey}

/-! ### Loops -/

/-- What the loop of a connection is at: the checks of a frame, or what follows how they end. -/
inductive Job (id : Int64) where
  | checking (f : Framed id) (p : ServerM Checked)
  | handling (b : Checked) (p : ServerM Unit)

/-- The job follows checks that have been passed. -/
def Job.admitted : Job id → Bool
  | .checking _ _ => false
  | .handling b _ => b.passed

/-- The process and the loops of its connections. -/
structure Loops (id : Int64) where
  state : World
  jobs : ConnId → Option (Job id)

namespace Loops

def init (w : World) : Loops id := ⟨w, fun _ => none⟩

/-- The loop of a connection goes on. -/
def turn (x : Loops id) (conn : ConnId) (job : Option (Job id)) (w : World) : Loops id :=
  ⟨w, update x.jobs conn job⟩

theorem jobs_turn {x : Loops id} {conn : ConnId} {job : Option (Job id)} {w : World}
    {conn' : ConnId} {j : Job id} (h : (x.turn conn job w).jobs conn' = some j) :
    (conn' = conn ∧ job = some j) ∨ (conn' ≠ conn ∧ x.jobs conn' = some j) := by
  change update x.jobs conn job conn' = some j at h
  by_cases hc : conn' = conn
  · subst hc
    rw [update_self] at h
    exact Or.inl ⟨rfl, h⟩
  · rw [update_of_ne hc] at h
    exact Or.inr ⟨hc, h⟩

variable [Platform]

/-- A run, with the frames whose checks are over, latest first: which sections are considered, and
when a frame may be admitted. -/
inductive Run (statics : Statics) (meets : World → World → Prop)
    (admits : Loops id → Admission → Prop) (w₀ : World) :
    List (Framed id) → Loops id → Prop where
  | init : Run statics meets admits w₀ [] (init w₀)
  | start {fs x conn} {f : Framed id} : Run statics meets admits w₀ fs x → x.jobs conn = none →
    f.conn = conn → Run statics meets admits w₀ fs
      (x.turn conn (some (.checking f f.check)) x.state)
  | check {fs x conn f act next} : Run statics meets admits w₀ fs x →
    x.jobs conn = some (.checking f (.atomic act next)) → meets x.state (act x.state) →
    (∀ b, next x.state ≠ .done b) →
    Run statics meets admits w₀ fs
      (x.turn conn (some (.checking f (next x.state))) (act x.state))
  | decide {fs x conn f act next b} : Run statics meets admits w₀ fs x →
    x.jobs conn = some (.checking f (.atomic act next)) → meets x.state (act x.state) →
    next x.state = .done b → (∀ a, b = .admitted a → admits x a) →
    Run statics meets admits w₀ (f :: fs)
      (x.turn conn (some (.handling b (f.rest statics b))) (act x.state))
  | work {fs x conn b act next} : Run statics meets admits w₀ fs x →
    x.jobs conn = some (.handling b (.atomic act next)) → meets x.state (act x.state) →
    Run statics meets admits w₀ fs
      (x.turn conn (some (.handling b (next x.state))) (act x.state))
  | ends {fs x conn b p} : Run statics meets admits w₀ fs x →
    x.jobs conn = some (.handling b p) → (∀ act next, p ≠ .atomic act next) →
    Run statics meets admits w₀ fs (x.turn conn none x.state)

/-! ### They are runs of the server -/

variable (statics : Statics)

/-- What is left of the turn. -/
def program : Job id → ServerM Unit
  | .checking f p => p >>= f.rest statics
  | .handling _ p => p

def pool (x : Loops id) : Pool World Stop Unit ConnId :=
  ⟨x.state, fun conn => (x.jobs conn).map (program statics)⟩

variable {statics} {x : Loops id}

theorem pool_turn (conn : ConnId) (job : Option (Job id)) (w : World) :
    (x.turn conn job w).pool statics =
      ⟨w, update (x.pool statics).jobs conn (job.map (program statics))⟩ :=
  congrArg (Pool.mk w) (comp_update (Option.map (program statics)) x.jobs conn job)

theorem pool_jobs {conn : ConnId} {job : Job id} (h : x.jobs conn = some job) :
    (x.pool statics).jobs conn = some (program statics job) := by
  change (x.jobs conn).map _ = _
  rw [h]
  rfl

theorem Run.reachable {meets : World → World → Prop} {admits : Loops id → Admission → Prop}
    {w₀ : World} {fs : List (Framed id)} (h : Run statics meets admits w₀ fs x) :
    Pool.Reachable (concurrentRules statics meets) w₀ (x.pool statics) := by
  induction h with
  | init => exact .init
  | @start fs x conn f _ hnone hconn ih =>
    rw [pool_turn]
    refine ih.step (.start ?_ ⟨f.draws, f.raw, ?_⟩)
    · change (x.jobs conn).map _ = none
      rw [hnone]
      rfl
    · rw [← hconn, Frame.serve_eq f.of]
      rfl
  | check _ hjob hmeets _ ih =>
    rw [pool_turn]
    exact ih.step (.run (pool_jobs hjob) hmeets)
  | @decide fs x conn f act next b _ hjob hmeets hnext _ ih =>
    rw [pool_turn]
    have hrun := ih.step (.run (pool_jobs hjob) hmeets)
    change Pool.Reachable _ _
      ⟨act x.state, update _ conn (some (next x.state >>= f.rest statics))⟩ at hrun
    rw [hnext] at hrun
    exact hrun
  | work _ hjob hmeets ih =>
    rw [pool_turn]
    exact ih.step (.run (pool_jobs hjob) hmeets)
  | @ends fs x conn b p _ hjob hover ih =>
    rw [pool_turn]
    cases p with
    | done _ => exact ih.step (.done (pool_jobs hjob))
    | fail e => exact ih.step (.fail (pool_jobs hjob))
    | atomic act next => exact absurd rfl (hover act next)

omit [Platform] in
theorem checking_turn {P : Framed id → ServerM Checked → Prop} {conn : ConnId}
    {job : Option (Job id)} {w : World}
    (h : ∀ c f p, x.jobs c = some (.checking f p) → P f p)
    (hnew : ∀ f p, job = some (.checking f p) → P f p) :
    ∀ c f p, (x.turn conn job w).jobs c = some (.checking f p) → P f p := by
  intro c f p hjob
  rcases jobs_turn hjob with ⟨-, hjob⟩ | ⟨-, hjob⟩
  · exact hnew f p hjob
  · exact h c f p hjob

theorem Run.checking {meets : World → World → Prop} {admits : Loops id → Admission → Prop}
    {w₀ : World} {fs : List (Framed id)} (h : Run statics meets admits w₀ fs x) :
    ∀ conn f p, x.jobs conn = some (.checking f p) → p.Sure ∧ ∀ b, p ≠ .done b := by
  induction h with
  | init => exact nofun
  | start _ _ _ ih =>
    refine checking_turn ih fun f p hjob => ?_
    cases hjob
    refine ⟨Frame.sure_check _, ?_⟩
    unfold Frame.check
    rw [getSession_eq]
    nofun
  | check _ hjob _ hnext ih =>
    obtain ⟨hsure, -⟩ := ih _ _ _ hjob
    refine checking_turn ih fun f p hjob => ?_
    cases hjob
    exact ⟨hsure _, hnext⟩
  | decide _ _ _ _ _ ih => exact checking_turn ih nofun
  | work _ _ _ ih => exact checking_turn ih nofun
  | ends _ _ _ ih => exact checking_turn ih nofun

/-- Checks that are not over have a section to go. -/
theorem Run.atomic_of_checking {meets : World → World → Prop}
    {admits : Loops id → Admission → Prop} {w₀ : World} {fs : List (Framed id)} {conn : ConnId}
    {f : Framed id} {p : ServerM Checked} (h : Run statics meets admits w₀ fs x)
    (hjob : x.jobs conn = some (.checking f p)) : ∃ act next, p = .atomic act next := by
  obtain ⟨hsure, hnot⟩ := h.checking conn f p hjob
  cases p with
  | done b => exact absurd rfl (hnot b)
  | fail e => exact hsure.elim
  | atomic act next => exact ⟨act, next, rfl⟩

/-- Runs of connections that are sent frames of the session only. -/
def sessionRules (statics : Statics) (id : Int64) (meets : World → World → Prop) :
    PoolRules World Stop Unit ConnId where
  starts conn p := ∃ f : Framed id, f.conn = conn ∧ p = serve statics f.draws f.conn f.raw
  meets
  env _ _ := False
  crash _ _ := False

theorem pool_none {conn : ConnId} (h : (x.pool statics).jobs conn = none) : x.jobs conn = none :=
  Option.map_eq_none_iff.mp h

/-- Every such run of the server is one of its loops. -/
theorem exists_run {meets : World → World → Prop} {w₀ : World} {y : Pool World Stop Unit ConnId}
    (h : Pool.Reachable (sessionRules statics id meets) w₀ y) :
    ∃ fs x, Run statics meets (fun _ _ => True) w₀ fs x ∧ (x : Loops id).pool statics = y := by
  induction h with
  | init => exact ⟨[], init w₀, .init, rfl⟩
  | step _ hstep ih =>
    obtain ⟨fs, x, hrun, rfl⟩ := ih
    cases hstep with
    | @start conn p hnone hp =>
      obtain ⟨f, hconn, rfl⟩ := hp
      refine ⟨_, _, hrun.start (pool_none hnone) hconn, ?_⟩
      rw [pool_turn, Frame.serve_eq f.of]
      rfl
    | @run conn act next hjob hmeets =>
      obtain ⟨job, hx, hprogram⟩ := Option.map_eq_some_iff.mp hjob
      cases job with
      | handling b q =>
        obtain rfl : q = .atomic act next := hprogram
        refine ⟨_, _, hrun.work hx hmeets, ?_⟩
        rw [pool_turn]
        rfl
      | checking f p =>
        obtain ⟨act', next', rfl⟩ := hrun.atomic_of_checking hx
        obtain ⟨rfl, rfl⟩ := Prog.atomic.inj hprogram
        by_cases hdone : ∃ b, next' x.state = .done b
        · obtain ⟨b, hb⟩ := hdone
          refine ⟨_, _, hrun.decide hx hmeets hb fun _ _ => trivial, ?_⟩
          rw [pool_turn]
          change Pool.mk _ (update _ conn (some (f.rest statics b))) =
            ⟨_, update _ conn (some (next' x.state >>= f.rest statics))⟩
          rw [hb]
          rfl
        · refine ⟨_, _, hrun.check hx hmeets (not_exists.mp hdone), ?_⟩
          rw [pool_turn]
          rfl
    | @done conn a hjob =>
      obtain ⟨job, hx, hprogram⟩ := Option.map_eq_some_iff.mp hjob
      cases job with
      | handling b q =>
        obtain rfl : q = .done a := hprogram
        refine ⟨_, _, hrun.ends hx nofun, ?_⟩
        rw [pool_turn]
        rfl
      | checking f p =>
        obtain ⟨_, _, rfl⟩ := hrun.atomic_of_checking hx
        cases hprogram
    | @fail conn e hjob =>
      obtain ⟨job, hx, hprogram⟩ := Option.map_eq_some_iff.mp hjob
      cases job with
      | handling b q =>
        obtain rfl : q = .fail e := hprogram
        refine ⟨_, _, hrun.ends hx nofun, ?_⟩
        rw [pool_turn]
        rfl
      | checking f p =>
        obtain ⟨_, _, rfl⟩ := hrun.atomic_of_checking hx
        cases hprogram
    | env henv => exact henv.elim
    | crash hcrash => exact hcrash.elim

/-- As long as no checks are over, no frame has gone either. -/
theorem Run.of_nil {meets : World → World → Prop} {admits : Loops id → Admission → Prop}
    {w₀ : World} {fs : List (Framed id)} (h : Run statics meets admits w₀ fs x) (hfs : fs = []) :
    (∀ conn job, x.jobs conn = some job → ∃ f p, job = .checking f p) ∧
      (x.state = w₀ ∨ ∃ conn job, x.jobs conn = some job) := by
  induction h with
  | init => exact ⟨nofun, Or.inl rfl⟩
  | @start fs x conn f _ _ _ ih =>
    refine ⟨fun c job hjob => ?_, Or.inr ⟨conn, _, update_self _ _ _⟩⟩
    rcases jobs_turn hjob with ⟨-, hnew⟩ | ⟨-, hold⟩
    · cases hnew
      exact ⟨_, _, rfl⟩
    · exact (ih hfs).1 c job hold
  | @check fs x conn f act next _ _ _ _ ih =>
    refine ⟨fun c job hjob => ?_, Or.inr ⟨conn, _, update_self _ _ _⟩⟩
    rcases jobs_turn hjob with ⟨-, hnew⟩ | ⟨-, hold⟩
    · cases hnew
      exact ⟨_, _, rfl⟩
    · exact (ih hfs).1 c job hold
  | decide => cases hfs
  | work _ hjob _ ih =>
    obtain ⟨_, _, hcheck⟩ := (ih hfs).1 _ _ hjob
    cases hcheck
  | ends _ hjob _ ih =>
    obtain ⟨_, _, hcheck⟩ := (ih hfs).1 _ _ hjob
    cases hcheck

end Loops

/-! ### When the frames do not get in each other's way -/

/-- Once the session is cached its entry keeps its recent set, and that forgets nothing but what
the entry counts as old. -/
structure Stays (id : Int64) (w w' : World) : Prop where
  entry : ∀ session, w.state.cache id = some session →
    ∃ session', w'.state.cache id = some session' ∧ session'.recentMsgIds = session.recentMsgIds
  remembers : ∀ session m, w.state.cache id = some session →
    m ∈ w.state.recents session.recentMsgIds →
      m ∈ w'.state.recents session.recentMsgIds ∨ m ≤ session.lastRecvMsgId

/-- No frame that has been admitted is still being handled, and the clone that the checks have read
is still the entry. -/
structure Loops.Alone (x : Loops id) (a : Admission) : Prop where
  free : ∀ conn job, x.jobs conn = some job → job.admitted = false
  current : x.state.state.cache id = some a.session

/-! ### Runs by a schedule -/

/-- The same two conditions, tested. -/
def World.stays (id : Int64) (w w' : World) : Bool :=
  match w.state.cache id with
  | none => true
  | some session =>
    match w'.state.cache id with
    | none => false
    | some session' => session'.recentMsgIds == session.recentMsgIds &&
      (w.state.recents session.recentMsgIds).all fun m =>
        (w'.state.recents session.recentMsgIds).contains m || decide (m ≤ session.lastRecvMsgId)

theorem stays_spec {w w' : World} (h : w.stays id w' = true) : Stays id w w' := by
  unfold World.stays at h
  constructor
  · intro session hs
    rw [hs] at h
    dsimp only at h
    split at h
    · cases h
    · next session' hs' => exact ⟨session', hs', eq_of_beq (Bool.and_eq_true_iff.mp h).1⟩
  · intro session m hs hm
    rw [hs] at h
    dsimp only at h
    split at h
    · cases h
    · have hall := List.all_eq_true.mp (Bool.and_eq_true_iff.mp h).2 m hm
      rcases Bool.or_eq_true_iff.mp hall with hmem | hold
      · exact Or.inl (List.contains_iff_mem.mp hmem)
      · exact Or.inr (of_decide_eq_true hold)

namespace Loops

/-- No connection but these has anything to do. -/
def Among (conns : List ConnId) (x : Loops id) : Prop := ∀ conn, conn ∉ conns → x.jobs conn = none

def alone (conns : List ConnId) (x : Loops id) (b : Checked) : Bool :=
  match b with
  | .admitted a => conns.all (fun conn => (x.jobs conn).all fun job => !job.admitted) &&
    decide (x.state.state.cache id = some a.session)
  | _ => true

theorem alone_spec {conns : List ConnId} {x : Loops id} {a : Admission} (hamong : Among conns x)
    (h : x.alone conns (.admitted a) = true) : x.Alone a := by
  obtain ⟨hfree, hcurrent⟩ := Bool.and_eq_true_iff.mp h
  refine ⟨fun conn job hjob => ?_, of_decide_eq_true hcurrent⟩
  by_cases hconn : conn ∈ conns
  · have hall := List.all_eq_true.mp hfree conn hconn
    rw [hjob] at hall
    exact Bool.not_eq_true' _ ▸ hall
  · cases (hamong conn hconn).symm.trans hjob

variable [Platform] (statics : Statics) (conns : List ConnId)

/-- The next step of a loop, if it has one that is considered. -/
def advance (s : List (Framed id) × Loops id) (conn : ConnId) :
    Option (List (Framed id) × Loops id) :=
  match s.2.jobs conn with
  | some (.checking f (.atomic act next)) =>
    if s.2.state.stays id (act s.2.state) then
      match next s.2.state with
      | .done b =>
        if s.2.alone conns b then
          some (f :: s.1, s.2.turn conn (some (.handling b (f.rest statics b))) (act s.2.state))
        else none
      | p => some (s.1, s.2.turn conn (some (.checking f p)) (act s.2.state))
    else none
  | some (.handling b (.atomic act next)) =>
    if s.2.state.stays id (act s.2.state) then
      some (s.1, s.2.turn conn (some (.handling b (next s.2.state))) (act s.2.state))
    else none
  | some (.handling _ _) => some (s.1, s.2.turn conn none s.2.state)
  | _ => none

variable {statics conns}

omit [Platform] in
theorem Among.idle {x : Loops id} (h : Among conns x) (hidle : ∀ conn ∈ conns, x.jobs conn = none)
    (conn : ConnId) : x.jobs conn = none := by
  by_cases hconn : conn ∈ conns
  · exact hidle conn hconn
  · exact h conn hconn

omit [Platform] in
theorem Among.turn {x : Loops id} {conn : ConnId} {job : Job id} (h : Among conns x)
    (hjob : x.jobs conn = some job) (job' : Option (Job id)) (w : World) :
    Among conns (x.turn conn job' w) := by
  intro c hc
  refine (update_of_ne ?_ _ _).trans (h c hc)
  rintro rfl
  cases (h c hc).symm.trans hjob

theorem run_advance {w₀ : World} {s s' : List (Framed id) × Loops id} {conn : ConnId}
    (h : Run statics (Stays id) Alone w₀ s.1 s.2) (hamong : Among conns s.2)
    (hs : advance statics conns s conn = some s') :
    Run statics (Stays id) Alone w₀ s'.1 s'.2 ∧ Among conns s'.2 := by
  unfold advance at hs
  split at hs
  · next f act next hjob =>
    split at hs
    · next hstays =>
      split at hs
      · next b hnext =>
        split at hs
        · next halone =>
          cases hs
          refine ⟨h.decide hjob (stays_spec hstays) hnext ?_, hamong.turn hjob _ _⟩
          rintro a rfl
          exact alone_spec hamong halone
        · cases hs
      · next hnot =>
        cases hs
        exact ⟨h.check hjob (stays_spec hstays) hnot, hamong.turn hjob _ _⟩
    · cases hs
  · next b act next hjob =>
    split at hs
    · next hstays =>
      cases hs
      exact ⟨h.work hjob (stays_spec hstays), hamong.turn hjob _ _⟩
    · cases hs
  · next b p hnot hjob =>
    cases hs
    refine ⟨h.ends hjob ?_, hamong.turn hjob _ _⟩
    intro act next hp
    exact hnot act next hp
  · cases hs

theorem run_schedule {w₀ : World} {s s' : List (Framed id) × Loops id} {schedule : List ConnId}
    (h : Run statics (Stays id) Alone w₀ s.1 s.2) (hamong : Among conns s.2)
    (hs : schedule.foldlM (advance statics conns) s = some s') :
    Run statics (Stays id) Alone w₀ s'.1 s'.2 ∧ Among conns s'.2 := by
  induction schedule generalizing s with
  | nil =>
    cases hs
    exact ⟨h, hamong⟩
  | cons conn schedule ih =>
    rw [List.foldlM_cons] at hs
    obtain ⟨s₁, hfirst, hrest⟩ := Option.bind_eq_some_iff.mp hs
    obtain ⟨hrun, hamong'⟩ := run_advance h hamong hfirst
    exact ih hrun hamong' hrest

end Loops

/-! ### Sections of the checks -/

/-- Nothing changes but what has been looked up. -/
structure Peeks (w w' : World) : Prop where
  core : w'.core = w.core
  recents : w'.state.recents = w.state.recents

section Looking

variable {w w' : World} {session : SessionData}

theorem peeks_log {events : List Event} (h : events.filterMap Event.sent? = []) :
    Peeks w (w.log events) := ⟨core_log h, rfl⟩

/-- A lookup that hits. -/
theorem atomic_hit {α : Type} {i : Int64} {conn : ConnId} {mark : SessionData → List Event}
    {k : Option SessionData → ServerM α} {act : World → World} {next : World → ServerM α}
    (h : getSession conn i mark >>= k = .atomic act next)
    (hcache : w.state.cache i = some session) :
    act w = w.log (mark session) ∧ next w = k (some session) := by
  rw [getSession_eq] at h
  obtain ⟨rfl, rfl⟩ := Prog.atomic.inj h
  dsimp only
  rw [hcache]
  exact ⟨rfl, rfl⟩

variable [Platform] {f : Framed id} {P : SessionData → Int64 → Checked → Prop}

/-- Where a loop is in the checks. What is about to be asked of the replay check has `P`. -/
inductive Looking (P : SessionData → Int64 → Checked → Prop) (f : Framed id) :
    ServerM Checked → Prop where
  | first : Looking P f f.check
  | second : Looking P f f.receive
  | missing {mark} {k : Option SessionData → ServerM Checked} :
    Looking P f (missing f.conn f.id mark k)
  | loading {mark full} {k : Option SessionData → ServerM Checked} :
    Looking P f (loading f.conn f.id mark k full)
  | asking {session m b} : P session m b → Looking P f ((Judged.asks m b).ask f.conn f.id session)

theorem Looking.mono {P' : SessionData → Int64 → Checked → Prop} {p : ServerM Checked}
    (h : Looking P f p) (hP : ∀ session m b, P session m b → P' session m b) : Looking P' f p := by
  cases h with
  | first => exact .first
  | second => exact .second
  | missing => exact .missing
  | loading => exact .loading
  | asking hask => exact .asking (hP _ _ _ hask)

/-- What a section of the checks does while the session is cached as `session`. -/
inductive Looked (P : SessionData → Int64 → Checked → Prop) (f : Framed id) (session : SessionData)
    (w : World) : World → ServerM Checked → Prop where
  | onward {w' p} : Peeks w w' → (∀ b, p ≠ .done b) →
    (∀ P' : SessionData → Int64 → Checked → Prop,
      (∀ m b, f.judge session = .asks m b → P' session m b) → Looking P' f p) →
    Looked P f session w w' p
  | decided {w' b} : Peeks w w' → f.judge session = .decided b → Looked P f session w w' (.done b)
  | again {s m b} : P s m b → m ∈ w.state.recents s.recentMsgIds →
    Looked P f session w w (.done (.rejected .replayed))
  | passed {s m b} : P s m b → m ∉ w.state.recents s.recentMsgIds →
    Looked P f session w (w.pass f.conn f.id s m) (.done b)

theorem Looking.looked {p : ServerM Checked} {act : World → World} {next : World → ServerM Checked}
    (h : Looking P f p) (hp : p = .atomic act next) (hentry : w.state.cache id = some session)
    (hbelow : session.recentMsgIds < w.state.nextRecent) (hrow : (w.row id).isSome)
    (hstays : Stays id w (act w)) : Looked P f session w (act w) (next w) := by
  have hid : f.id = id := f.of.names
  have hcache : w.state.cache f.id = some session := by
    rw [hid]
    exact hentry
  cases h with
  | first =>
    obtain ⟨hact, hnext⟩ := atomic_hit hp hcache
    rw [hact, hnext]
    refine .onward (peeks_log rfl) ?_ fun _ _ => .second
    change ∀ b, f.receive ≠ .done b
    unfold Frame.receive
    rw [getSession_eq]
    nofun
  | second =>
    obtain ⟨hact, hnext⟩ := atomic_hit hp hcache
    rw [hact, hnext]
    change Looked P f session w _ ((f.judge session).ask f.conn f.id session)
    cases hjudge : f.judge session with
    | decided b => exact .decided (peeks_log rfl) hjudge
    | asks m b =>
      refine .onward (peeks_log rfl) ?_ fun P' hP => .asking (hP m b hjudge)
      change ∀ c, (recordMsgId f.conn f.id session m >>= fun fresh =>
        if fresh = true then pure b else pure (.rejected .replayed)) ≠ .done c
      rw [recordMsgId_eq]
      nofun
  | missing =>
    obtain ⟨full, hfull⟩ := Option.isSome_iff_exists.mp hrow
    obtain ⟨rfl, rfl⟩ := Prog.atomic.inj hp
    have hrow : w.row f.id = some full := by
      rw [hid]
      exact hfull
    dsimp only
    rw [hrow]
    exact .onward ⟨rfl, rfl⟩ nofun fun _ _ => .loading
  | loading =>
    obtain ⟨rfl, rfl⟩ := Prog.atomic.inj hp
    obtain ⟨session', hentry', hset⟩ := hstays.entry session hentry
    have hloaded : session'.recentMsgIds = w.state.nextRecent := by
      have hput := (congrArg _ hid).trans hentry'
      cases (update_self _ _ _).symm.trans hput
      rfl
    exact absurd (hset.symm.trans hloaded) (Nat.ne_of_lt hbelow)
  | @asking s m b hask =>
    have hp : (recordMsgId f.conn f.id s m >>= fun fresh =>
        if fresh = true then pure b else pure (.rejected .replayed)) = .atomic act next := hp
    rw [recordMsgId_eq] at hp
    obtain ⟨rfl, rfl⟩ := Prog.atomic.inj hp
    by_cases hmem : m ∈ w.state.recents s.recentMsgIds
    · simp only [hmem, if_true, not_true_eq_false, decide_false]
      exact .again hask hmem
    · simp only [hmem, if_false, not_false_eq_true, decide_true]
      exact .passed hask hmem

/-- How the checks can end. -/
theorem Looked.ended {b : Checked} (h : Looked P f session w w' (.done b)) :
    (Peeks w w' ∧ f.judge session = .decided b) ∨
    (w' = w ∧ b = .rejected .replayed ∧ ∃ s m c, P s m c ∧ m ∈ w.state.recents s.recentMsgIds) ∨
    ∃ s m, P s m b ∧ m ∉ w.state.recents s.recentMsgIds ∧ w' = w.pass f.conn f.id s m := by
  cases h with
  | onward _ hnot _ => exact absurd rfl (hnot b)
  | decided hpeeks hjudge => exact Or.inl ⟨hpeeks, hjudge⟩
  | again hask hmem => exact Or.inr (Or.inl ⟨rfl, rfl, _, _, _, hask, hmem⟩)
  | passed hask hnot => exact Or.inr (Or.inr ⟨_, _, hask, hnot, rfl⟩)

end Looking

end KoSta.Server
