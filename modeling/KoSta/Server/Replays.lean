import KoSta.Server.Watch

/-! Frames of one session on several connections: how often a message id is dispatched. -/
namespace KoSta.Server
open Lib Lib.Prog Tl Crypto Function

variable {conn c d : ConnId} {ph ph' : Phase} {w w' : World} {id : Int64} {session : SessionData}

/-! ### Runs -/

/-- The rows of the sessions a turn is about exist, so that it never gets lost. -/
def Phase.Rooted (has : Int64 → Prop) : Phase → Prop
  | .idle => True
  | .reading id _ | .known id _ | .loading id _ _ | .looked id _ _ | .passed id _ _
  | .committing id _ | .committed id _ | .saved id _ _ _ | .settling id _ _ _ | .stored id _ _ _
  | .settled id _ _ => has id
  | .pending session => has session.id
  | .creating id _ back | .renewed id _ back =>
    has id ∧ ∀ session, back = some session → has session.id
  | .lost => False

def World.hasRow (w : World) (id : Int64) : Prop := (w.row id).isSome = true

/-- Every session a turn is about or the cache has an entry of has a row. -/
structure Grounded (phs : ConnId → Phase) (w : World) : Prop where
  phases : ∀ c, (phs c).Rooted w.hasRow
  entries : ∀ id session, w.state.cache id = some session → w.hasRow id

theorem Phase.Rooted.mono {has has' : Int64 → Prop} (h : ph.Rooted has)
    (hmono : ∀ id, has id → has' id) : ph.Rooted has' := by
  cases ph with
  | idle => trivial
  | lost => exact h
  | creating id session back => exact ⟨hmono _ h.1, fun session heq => hmono _ (h.2 session heq)⟩
  | renewed id session back => exact ⟨hmono _ h.1, fun session heq => hmono _ (h.2 session heq)⟩
  | _ => exact hmono _ h

theorem rooted_serving {has : Int64 → Prop} {back : Option FrameSession} :
    (Phase.serving back).Rooted has ↔ ∀ session, back = some session → has session.id := by
  cases back with
  | none => exact ⟨fun _ => nofun, fun _ => trivial⟩
  | some session =>
    constructor
    · rintro h _ ⟨⟩
      exact h
    · exact fun h => h session rfl

theorem hasRow_save {row : FullSession} (events : List Event)
    (h : w.hasRow id ∨ id = row.authKeyId) : (w.save row events).hasRow id := by
  unfold World.hasRow
  by_cases hid : id = row.authKeyId
  · rw [hid, save_row_self]
    rfl
  · rw [save_row_of_ne hid]
    exact h.resolve_right hid

theorem hasRow_modifyRow {f : FullSession → FullSession} (id₀ : Int64) (h : w.hasRow id) :
    (w.modifyRow id₀ f).hasRow id := by
  change ((if id = id₀ then (w.row id).map f else w.row id).isSome) = true
  split
  · rw [Option.isSome_map]
    exact h
  · exact h

section Runs

variable {phs : ConnId → Phase}

/-- Rows are never deleted. -/
theorem hasRow_move [Platform] (h : Move conn ph w w' ph') (hlost : ph ≠ .lost)
    (hrow : w.hasRow id) : w'.hasRow id := by
  cases h with
  | lost => exact absurd rfl hlost
  | quiet hq =>
    unfold World.hasRow
    rw [World.row, hq.sessions]
    exact hrow
  | commit | commitCounters | rename | sendState | settle => exact hasRow_modifyRow _ hrow
  | commitRow | saveUser | reserve | settleRow | establish | createRow =>
    exact hasRow_save _ (Or.inl hrow)
  | _ => exact hrow

theorem entry_putEntry {events : List Event} {session₀ : SessionData} {id₀ : Int64}
    (h : (w.putEntry id₀ session₀ events).state.cache id = some session) :
    id = id₀ ∨ w.state.cache id = some session := by
  by_cases hid : id = id₀
  · exact Or.inl hid
  · exact Or.inr ((Watch.put_of_ne w.watch session₀ hid).symm.trans h)

theorem grounded_move [Platform] (h : Grounded phs w) (hmove : Move conn (phs conn) w w' ph') :
    Grounded (update phs conn ph') w' := by
  have hrooted := h.phases conn
  have hlost : phs conn ≠ .lost := by
    intro heq
    rw [heq] at hrooted
    exact hrooted
  have hrows (id : Int64) (hrow : w.hasRow id) : w'.hasRow id := hasRow_move hmove hlost hrow
  have hself : ph'.Rooted w'.hasRow ∧
      ∀ id session, w'.state.cache id = some session → w'.hasRow id := by
    generalize phs conn = ph at hmove hrooted hlost
    have hsame (id : Int64) (session : SessionData) (hentry : w.state.cache id = some session) :
        w'.hasRow id := hrows id (h.entries id session hentry)
    have hput {id₀ : Int64} {session₀ : SessionData} {w₀ : World} {events : List Event}
        (hw : w' = w₀.putEntry id₀ session₀ events) (hcache : w₀.state.cache = w.state.cache)
        (hrow : w'.hasRow id₀) (id : Int64) (session : SessionData)
        (hentry : w'.state.cache id = some session) : w'.hasRow id := by
      rw [hw] at hentry
      rcases entry_putEntry hentry with rfl | hold
      · exact hrow
      · exact hsame id session (hcache ▸ hold)
    cases hmove with
    | lost => exact absurd rfl hlost
    | quiet hq =>
      exact ⟨hrooted.mono hrows, fun id session hentry => hsame id session (hq.cache ▸ hentry)⟩
    | find hcache => exact ⟨hsame _ _ hcache, hsame⟩
    | @read id full w hrow =>
      exact ⟨(congrArg Option.isSome hrow : _), hsame⟩
    | lose hrow =>
      rw [Phase.Rooted, World.hasRow, hrow] at hrooted
      cases hrooted
    | load => exact ⟨hrooted, hput rfl rfl hrooted⟩
    | loadHeld => exact ⟨hrooted, hput rfl rfl hrooted⟩
    | accept => exact ⟨hrooted, hput rfl rfl hrooted⟩
    | putSaved => exact ⟨hrooted, hput rfl rfl hrooted⟩
    | putSettled => exact ⟨hrooted, hput rfl rfl hrooted⟩
    | putCreated => exact ⟨rooted_serving.mpr hrooted.2, hput rfl rfl hrooted.1⟩
    | establish =>
      exact ⟨⟨hasRow_save _ (Or.inr rfl), fun session heq =>
        hrows _ (rooted_serving.mp hrooted session heq)⟩, hsame⟩
    | dispatch => exact ⟨hrooted, hsame⟩
    | dispatchPlain | sendPlain | stamp | finish => exact ⟨trivial, hsame⟩
    | renew => exact ⟨hrooted, hsame⟩
    | createRow =>
      exact ⟨⟨hrows _ hrooted.1, fun session heq => hrows _ (hrooted.2 session heq)⟩, hsame⟩
    | _ => exact ⟨hrows _ hrooted, hsame⟩
  constructor
  · intro c
    by_cases hcc : c = conn
    · subst hcc
      rw [update_self]
      exact hself.1
    · rw [update_of_ne hcc]
      exact (h.phases c).mono hrows
  · exact hself.2

theorem Grounded.idle (hcache : ∀ id, w.state.cache id = none) :
    Grounded (fun _ => .idle) w where
  phases _ := trivial
  entries id session hentry := by
    rw [hcache] at hentry
    cases hentry

theorem Guarded.idle {v : Watch} (hcache : ∀ id, v.cache id = none)
    (hhands : ∀ c, v.hands c = none) (haccepted : ∀ token ∈ v.dispatched, token ∈ v.accepted)
    (honce : v.dispatched.Nodup) : Guarded (fun _ => .idle) v := by
  have hnone {id : Int64} {session : SessionData} {passed : Option Int64} :
      ¬ v.Kept id session passed := by
    rintro (hentry | hhand)
    · rw [hcache] at hentry
      cases hentry
    · rw [hhands] at hhand
      cases hhand
  refine ⟨hhands, ⟨?_, ?_, nofun, nofun⟩, ?_, ⟨nofun, nofun, nofun, haccepted, honce⟩⟩
  · exact fun _ _ _ hk => absurd hk hnone
  · exact fun _ _ _ _ _ hk => absurd hk hnone
  · exact fun _ _ _ _ _ hk => absurd hk hnone

theorem Guarded.evict (h : Guarded phs w.watch) (id : Int64) :
    Guarded phs (KoSta.Server.evict id w).watch := by
  have hkept {id₀ : Int64} {session : SessionData} {passed : Option Int64}
      (hk : (KoSta.Server.evict id w).watch.Kept id₀ session passed) :
      w.watch.Kept id₀ session passed := by
    cases hk with
    | entry hcache =>
      by_cases hid : id₀ = id
      · subst hid
        cases (evict_cache_self id₀ w).symm.trans hcache
      · exact .entry ((update_of_ne hid _ _ : _ = w.state.cache id₀).symm.trans hcache)
    | hand hhand => exact .hand hhand
  refine ⟨h.holding, ⟨?_, ?_, ?_, h.sets.apart⟩, ?_, ⟨h.tokens.claims, h.tokens.apart,
    h.tokens.undispatched, h.tokens.accepted, h.tokens.once⟩⟩
  · exact fun _ _ _ hk => h.sets.below _ _ _ (hkept hk)
  · exact fun _ _ _ _ _ hk hk' => h.sets.shared _ _ _ _ _ (hkept hk) (hkept hk')
  · exact fun c set hc => ⟨(h.sets.fresh c set hc).1,
      fun _ _ _ hk => (h.sets.fresh c set hc).2 _ _ _ (hkept hk)⟩
  · exact fun id msgId session passed hcl hk hne => h.covered id msgId session passed hcl
      (hkept hk) hne

variable [Platform] {statics : Statics}

/-- The rules under which sections are careful. -/
abbrev carefulRules (statics : Statics) : PoolRules World Stop Unit ConnId :=
  concurrentRules statics fun w w' => w.watch.Careful w'.watch

theorem verified_careful : Pool.Verified (carefulRules statics) Move .idle
    fun phs w => Grounded phs w ∧ Guarded phs w.watch where
  starts := by
    rintro conn p ⟨draws, raw, rfl⟩
    exact obeys_serve statics draws raw
  move := by
    rintro phs w conn w' ph ⟨hground, hguard⟩ hmove hcareful
    refine ⟨grounded_move hground hmove, guarded_handles hguard hcareful (handles_of_move hmove ?_)⟩
    intro hlost
    have hrooted := hground.phases conn
    rw [hlost] at hrooted
    exact hrooted
  env := by
    rintro phs w w' ⟨hground, hguard⟩ ⟨id, rfl⟩
    refine ⟨⟨hground.phases, fun id₀ session hentry => ?_⟩, hguard.evict id⟩
    by_cases hid : id₀ = id
    · subst hid
      cases (evict_cache_self id₀ w).symm.trans hentry
    · exact hground.entries id₀ session
        ((update_of_ne hid _ _ : _ = w.state.cache id₀).symm.trans hentry)
  crash := by
    rintro phs w _ ⟨hground, hguard⟩ rfl
    exact ⟨.idle fun _ => rfl, .idle (fun _ => rfl) (fun _ => rfl) hguard.tokens.accepted
      hguard.tokens.once⟩

theorem holds_careful {x : Pool World Stop Unit ConnId}
    (h : Pool.Reachable (carefulRules statics) World.init x) :
    ∃ phs, (Grounded phs x.state ∧ Guarded phs x.state.watch) ∧
      ∀ conn, Pool.Fits (Move conn) .idle (x.jobs conn) (phs conn) := by
  refine Pool.holds_reachable verified_careful ⟨.idle fun _ => rfl, ?_⟩ h
  exact .idle (fun _ => rfl) (fun _ => rfl) nofun List.nodup_nil

/-- As long as all sections are careful no message of a session is dispatched twice. -/
theorem dispatched_once {x : Pool World Stop Unit ConnId}
    (h : Pool.Reachable (carefulRules statics) World.init x) :
    (dispatches x.state.trace).Nodup := by
  obtain ⟨phs, ⟨-, hguard⟩, -⟩ := holds_careful h
  exact hguard.tokens.once

end Runs

/-! ### One frame on two connections -/

/-- The event is no acceptance, and what was taken with it is not in hand any more. -/
def Event.over (trace : List Event) : Event → Bool
  | .accepted .. => false
  | .lookedUp conn _ _ | .passed conn _ _ _ => (inHand trace conn).isNone
  | _ => true

/-- Nothing has been accepted yet, and nobody has a clone in hand. -/
def untouched (trace : List Event) : Bool := trace.all (Event.over trace)

/-- A put is of a clone in hand or comes before all messages, and no set is full. -/
def Event.calm (w : World) : Event → Bool
  | .put conn _ _ => (inHand w.trace conn).isSome || untouched w.trace
  | .passed _ _ session _ => (w.state.recents session.recentMsgIds).length < recentCapacity
  | _ => true

def World.calm (w w' : World) : Bool :=
  (w'.trace.take (w'.trace.length - w.trace.length)).all (Event.calm w)

theorem untouched_spec (h : untouched w.trace = true) :
    w.watch.accepted = [] ∧ ∀ c, w.watch.hands c = none := by
  have hall := List.all_eq_true.mp h
  constructor
  · refine List.filterMap_eq_nil_iff.mpr fun e he => ?_
    have hover := hall e he
    cases e with
    | accepted => cases hover
    | _ => rfl
  · intro c
    by_contra hsome
    obtain ⟨clone, hclone⟩ := Option.ne_none_iff_exists'.mp hsome
    have hhand : inHand w.trace c = some clone := hclone
    obtain ⟨e, he, hevent⟩ := List.exists_of_findSome?_eq_some (Option.join_eq_some_iff.mp hhand)
    have hover := hall e he
    have hclosed (conn : ConnId) (hc : conn = c) : (inHand w.trace conn).isNone ≠ true := by
      rw [hc, hhand]
      exact Bool.false_ne_true
    cases e with
    | lookedUp conn id session =>
      by_cases hc : conn = c
      · exact hclosed conn hc hover
      · cases (if_neg hc).symm.trans hevent
    | passed conn id session msgId =>
      by_cases hc : conn = c
      · exact hclosed conn hc hover
      · cases (if_neg hc).symm.trans hevent
    | put conn id session =>
      by_cases hc : conn = c
      · cases (if_pos hc).symm.trans hevent
      · cases (if_neg hc).symm.trans hevent
    | finished conn result =>
      by_cases hc : conn = c
      · cases (if_pos hc).symm.trans hevent
      · cases (if_neg hc).symm.trans hevent
    | _ => cases hevent

theorem calm_events (events : List Event) (h : w'.trace = events ++ w.trace)
    (hcalm : w.calm w' = true) : ∀ e ∈ events, e.calm w = true := by
  unfold World.calm at hcalm
  rw [h, List.length_append, Nat.add_sub_cancel, List.take_left] at hcalm
  exact List.all_eq_true.mp hcalm

section Calm

variable {phs : ConnId → Phase}

/-- Neither the cache nor a recent set changes. -/
theorem careful_same (hcache : w'.state.cache = w.state.cache)
    (hrecents : w'.state.recents = w.state.recents) : w.watch.Careful w'.watch where
  enters id session hentry hne := absurd ((congrFun hcache id).symm.trans hentry) hne
  remembers id msgId session passed _ _ _ hcovers := by
    change _ ∨ _ ∈ w'.state.recents _
    rw [hrecents]
    exact hcovers

/-- A put of a clone in hand. -/
theorem careful_back {clone : SessionData} {passed : Option Int64}
    (hhand : w.watch.hands conn = some ⟨id, clone, passed⟩)
    (hset : clone.recentMsgIds = session.recentMsgIds)
    (hcache : w'.state.cache = update w.state.cache id (some session))
    (hrecents : w'.state.recents = w.state.recents) : w.watch.Careful w'.watch where
  enters id₀ session₀ hentry hne := by
    have hput : update w.state.cache id (some session) id₀ = some session₀ := hcache ▸ hentry
    by_cases hid : id₀ = id
    · subst hid
      rw [update_self] at hput
      cases hput
      exact Or.inl ⟨conn, _, hhand, rfl, hset⟩
    · rw [update_of_ne hid] at hput
      exact absurd hput hne
  remembers id msgId session passed _ _ _ hcovers := by
    change _ ∨ _ ∈ w'.state.recents _
    rw [hrecents]
    exact hcovers

/-- Before all messages any session may enter the cache. -/
theorem careful_untouched (h : untouched w.trace = true) : w.watch.Careful w'.watch := by
  obtain ⟨haccepted, hhands⟩ := untouched_spec h
  constructor
  · intro id session _ _
    refine Or.inr ⟨fun c clone hc => ?_, fun msgId hmem => ?_⟩
    · rw [hhands] at hc
      cases hc
    · rw [haccepted] at hmem
      cases hmem
  · rintro id msgId session passed (hmem | ⟨c, clone, hc⟩)
    · rw [haccepted] at hmem
      cases hmem
    · rw [hhands] at hc
      cases hc

theorem careful_of_calm [Platform] (h : Guarded phs w.watch) (hmove : Move conn (phs conn) w w' ph')
    (hlost : phs conn ≠ .lost) (hcalm : w.calm w' = true) : w.watch.Careful w'.watch := by
  have hheld := h.holding conn
  generalize phs conn = ph at hmove hlost hheld
  have hentering {id : Int64} {session : SessionData} (events : List Event)
      (htrace : w'.trace = events ++ w.trace) (hmem : .put conn id session ∈ events)
      (hnone : w.watch.hands conn = none) : w.watch.Careful w'.watch := by
    have hput := calm_events events htrace hcalm _ hmem
    have hfree : inHand w.trace conn = none := hnone
    rw [Event.calm, hfree] at hput
    exact careful_untouched hput
  cases hmove with
  | lost => exact absurd rfl hlost
  | quiet hq => exact careful_same hq.cache hq.recents
  | load => exact hentering [_] rfl List.mem_cons_self hheld
  | loadHeld => exact hentering [_, _] rfl (List.mem_cons_of_mem _ List.mem_cons_self) hheld
  | putCreated => exact hentering [_] rfl List.mem_cons_self hheld
  | accept =>
    obtain ⟨clone, hhand, hset, -⟩ := hheld
    exact careful_back hhand hset rfl rfl
  | putSaved | putSettled =>
    obtain ⟨clone, hhand, hset, -⟩ := hheld
    exact careful_back hhand hset rfl rfl
  | renew =>
    refine ⟨fun id session hentry hne => absurd hentry hne, ?_⟩
    intro id msgId session passed _ hkept _ hcovers
    have hset : w.watch.renew.recents session.recentMsgIds = w.watch.recents session.recentMsgIds :=
      update_of_ne (Nat.ne_of_lt (h.sets.below _ _ _ hkept)) _ _
    change _ ∨ _ ∈ w.watch.renew.recents _
    rw [hset]
    exact hcovers
  | @pass id session msgId w hlast hnot =>
    have hroom : (w.state.recents session.recentMsgIds).length < recentCapacity :=
      of_decide_eq_true (calm_events [.passed conn id session msgId] rfl hcalm _ List.mem_cons_self)
    refine ⟨fun id session hentry hne => absurd hentry hne, ?_⟩
    intro id₀ msgId₀ session₀ passed _ _ _ hcovers
    refine hcovers.imp_right fun hmem => ?_
    change msgId₀ ∈ update w.state.recents session.recentMsgIds _ session₀.recentMsgIds
    by_cases hset : session₀.recentMsgIds = session.recentMsgIds
    · rw [hset, update_self, List.take_of_length_le hroom]
      exact List.mem_cons_of_mem _ (hset ▸ hmem)
    · rw [update_of_ne hset]
      exact hmem
  | _ => exact careful_same rfl rfl

end Calm

/-- Whether every section of a turn that runs alone is calm. -/
def calmTurn : ServerM Unit → World → Bool
  | .done _, _ => true
  | .fail _, _ => true
  | .atomic act next, w => w.calm (act w) && calmTurn (next w) (act w)

/-- Whether every section of the schedule is calm. -/
def calmly : List ConnId → Pool World Stop Unit ConnId → Bool
  | [], _ => true
  | conn :: schedule, x => x.state.calm (x.advance conn).state && calmly schedule (x.advance conn)

section Careful

variable [Platform] {statics : Statics} {x : Pool World Stop Unit ConnId}

theorem careful_section (h : Pool.Reachable (carefulRules statics) World.init x)
    {act : World → World} {next : World → ServerM Unit}
    (hjob : x.jobs conn = some (.atomic act next))
    (hcalm : x.state.calm (act x.state) = true) : x.state.watch.Careful (act x.state).watch := by
  obtain ⟨phs, ⟨hground, hguard⟩, hfits⟩ := holds_careful h
  have hfit := hfits conn
  rw [hjob] at hfit
  obtain ⟨ph, hmove, -⟩ := hfit x.state
  refine careful_of_calm hguard hmove ?_ hcalm
  intro hlost
  have hrooted := hground.phases conn
  rw [hlost] at hrooted
  exact hrooted

theorem reachable_calmTurn {w : World}
    (h : Pool.Reachable (carefulRules statics) World.init (Pool.init w)) (f : Frame)
    (hcalm : calmTurn (serve statics f.draws f.conn f.raw) w = true) :
    Pool.Reachable (carefulRules statics) World.init
      (Pool.init ((serve statics f.draws f.conn f.raw).exec w).2) := by
  have hp : ∃ draws raw, serve statics f.draws f.conn f.raw = serve statics draws f.conn raw :=
    ⟨_, _, rfl⟩
  generalize serve statics f.draws f.conn f.raw = p at hp hcalm ⊢
  generalize f.conn = conn at hp
  have hnone (w : World) : update (Pool.init w : Pool World Stop Unit ConnId).jobs conn none =
      (Pool.init w : Pool World Stop Unit ConnId).jobs := update_eq_self conn fun _ => none
  have hstart := h.step (.start rfl hp)
  clear h hp
  induction p generalizing w with
  | done a =>
    have hdone := hstart.step (.done (update_self _ _ _))
    rwa [update_idem, hnone] at hdone
  | fail e =>
    have hfail := hstart.step (.fail (update_self _ _ _))
    rwa [update_idem, hnone] at hfail
  | atomic act next ih =>
    obtain ⟨hstep, hrest⟩ := Bool.and_eq_true_iff.mp hcalm
    have hcareful := careful_section hstart (update_self _ _ _) hstep
    have hrun := hstart.step (.run (update_self _ _ _) hcareful)
    rw [update_idem] at hrun
    exact ih w hrest hrun

/-- Frames that are handled one after the other. -/
theorem reachable_frames {w : World}
    (h : Pool.Reachable (concurrentRules statics fun _ _ => True) World.init (Pool.init w))
    (frames : List Frame) : Pool.Reachable (concurrentRules statics fun _ _ => True) World.init
      (Pool.init (handleFrames statics frames w)) := by
  induction frames generalizing w with
  | nil => exact h
  | cons f frames ih =>
    have hall := Prog.Always.of_forall (R := fun _ _ => True → True ∧ True)
      (fun _ _ _ => ⟨trivial, trivial⟩) (serve statics f.draws f.conn f.raw)
    exact ih (Pool.reachable_exec h ⟨f.draws, f.raw, rfl⟩ hall trivial)

theorem reachable_evict {w : World}
    (h : Pool.Reachable (concurrentRules statics fun _ _ => True) World.init (Pool.init w))
    (id : Int64) : Pool.Reachable (concurrentRules statics fun _ _ => True) World.init
      (Pool.init (evict id w)) := h.step (.env ⟨id, rfl⟩)

theorem reachable_calmly (schedule : List ConnId)
    (h : Pool.Reachable (carefulRules statics) World.init x) (hcalm : calmly schedule x = true) :
    Pool.Reachable (carefulRules statics) World.init (schedule.foldl Pool.advance x) := by
  induction schedule generalizing x with
  | nil => exact h
  | cons conn schedule ih =>
    obtain ⟨hstep, hrest⟩ := Bool.and_eq_true_iff.mp hcalm
    refine ih ?_ hrest
    unfold Pool.advance at hstep ⊢
    split at hstep
    · next act next hjob => exact h.step (.run hjob (careful_section h hjob hstep))
    · exact h

end Careful

namespace Sample

/-- A connection that receives the first frame of the session. -/
abbrev receiving (conn : ConnId) : ServerM Unit :=
  letI := platform
  serve statics (draws 1) conn (frame 0 1 0 0 (.getDialogs {})).raw

/-- The same frame on two connections. -/
def both (w : World) : Pool World Stop Unit ConnId :=
  ⟨w, update (update (fun _ => none) 0 (some (receiving 0))) 1 (some (receiving 1))⟩

/-- Both look the session up before either of them checks the frame. -/
def sharing : List ConnId := [0, 1, 0, 1] ++ List.replicate 6 0 ++ List.replicate 6 1

/-- Both miss the session, and each loads it for itself. -/
def racing : List ConnId :=
  [0, 0, 1, 1, 0, 0, 1, 1] ++ List.replicate 6 0 ++ List.replicate 6 1

theorem reachable_run_calm : letI := platform
    Pool.Reachable (carefulRules statics) World.init (Pool.init (run [])) := by
  let _ := platform
  have hasked : Pool.Reachable (carefulRules statics) World.init _ :=
    reachable_calmTurn .init (plain (.reqDHParams reqDHParams)) (by decide +kernel)
  exact reachable_calmTurn hasked (plain (.setClientDHParams setClientDHParams)) (by decide +kernel)

theorem reachable_both {meets : World → World → Prop} {w : World} : letI := platform
    Pool.Reachable (concurrentRules statics meets) World.init (Pool.init w) →
    Pool.Reachable (concurrentRules statics meets) World.init (both w) := by
  let _ := platform
  intro h
  have hfirst := h.step (.start (k := 0) (p := receiving 0) rfl ⟨_, _, rfl⟩)
  exact hfirst.step (.start (k := 1) (p := receiving 1) rfl ⟨_, _, rfl⟩)

theorem calmly_sharing : calmly sharing (both (run [])) = true := by decide +kernel

theorem dispatches_sharing :
    dispatches (sharing.foldl Pool.advance (both (run []))).state.trace =
      [(Sample.id, 4294967296)] := by
  decide +kernel

theorem dispatches_racing :
    dispatches (racing.foldl Pool.advance (both (evict Sample.id (run [])))).state.trace =
      [(Sample.id, 4294967296), (Sample.id, 4294967296)] := by
  decide +kernel

end Sample

/-- Two connections that share a recent set receive one frame. -/
theorem dispatched_once_sharing : letI := Sample.platform
    ∃ x, Pool.Reachable (carefulRules Sample.statics) World.init x ∧
      dispatches x.state.trace = [(Sample.id, 4294967296)] ∧ (dispatches x.state.trace).Nodup := by
  let _ := Sample.platform
  have hdone := reachable_calmly Sample.sharing (Sample.reachable_both Sample.reachable_run_calm)
    Sample.calmly_sharing
  exact ⟨_, hdone, Sample.dispatches_sharing, dispatched_once hdone⟩

/-- Two connections that have loaded the session at the same time dispatch one frame twice. -/
theorem not_dispatched_once : ¬ ∀ (_ : Platform) (statics : Statics)
    (x : Pool World Stop Unit ConnId),
    Pool.Reachable (concurrentRules statics fun _ _ => True) World.init x →
    (dispatches x.state.trace).Nodup := by
  intro h
  let _ := Sample.platform
  have hexchanged : Pool.Reachable (concurrentRules Sample.statics fun _ _ => True) World.init
      (Pool.init (Sample.run [])) := reachable_frames .init _
  have hboth := Pool.reachable_advance
    (Sample.reachable_both (reachable_evict hexchanged Sample.id))
      (fun _ _ => trivial) Sample.racing
  have hnodup := h _ Sample.statics _ hboth
  rw [Sample.dispatches_racing] at hnodup
  exact absurd hnodup (by decide)

end KoSta.Server
