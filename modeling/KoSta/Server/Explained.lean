import KoSta.Server.Coupling
import KoSta.Server.Loops

/-! What an order of the frames of one session says about loops that are in the middle of them. -/
namespace KoSta.Server
open Lib Lib.Prog Tl Crypto Function

/-! ### The handling of an accepted frame -/

/-- Up to the section that puts the session back. -/
inductive Committing (id : Int64) (set : RecentMsgIds) (a : Admission) : ServerM Unit → Prop where
  | write {act q} : (∀ w : World, (act w).state.cache = w.state.cache) → Committing id set a q →
    Committing id set a (.atomic act fun _ => q)
  | put {i events q} : i = id → Steadily id set a.accepted.criteria q (fun _ => True) →
    Committing id set a (.atomic (fun w => w.putEntry i a.accepted events) fun _ => q)

/-- The session has yet to be put back, or the checks go by what has been put back. -/
def Underway (id : Int64) (set : RecentMsgIds) (a : Admission) (q : ServerM Unit)
    (w : World) : Prop :=
  (Committing id set a q ∧ w.state.cache id = some a.session ∧
    a.session.lastRecvMsgId < a.msgId) ∨
  (Steadily id set a.accepted.criteria q (fun _ => True) ∧ Judges id set a.accepted.criteria w)

section Handling

variable {id : Int64} {set : RecentMsgIds} {a : Admission} {w : World}

/-- What one section of it does to the entry. -/
theorem Underway.step {act : World → World} {next : World → ServerM Unit}
    (h : Underway id set a (.atomic act next) w) (hnext : set < (act w).state.nextRecent) :
    Underway id set a (next w) (act w) ∧
      ((act w).state.cache id = w.state.cache id ∨
        Steadily id set a.accepted.criteria (next w) (fun _ => True) ∧
          Judges id set a.accepted.criteria (act w)) ∧
      ∀ s s', w.state.cache id = some s → (act w).state.cache id = some s' →
        s.recentMsgIds = set → s'.recentMsgIds = set → s.lastRecvMsgId ≤ s'.lastRecvMsgId := by
  rcases h with ⟨hcommit, hcache, hlast⟩ | ⟨hsteady, hjudges⟩
  · cases hcommit with
    | write hwrite hrest =>
      have hsame := congrFun (hwrite w) id
      refine ⟨Or.inl ⟨hrest, hsame.trans hcache, hlast⟩, Or.inl hsame, ?_⟩
      intro s s' hs hs' _ _
      cases (hsame.symm.trans hs').symm.trans hs
      exact Int64.le_refl _
    | @put i events q hi hq =>
      subst hi
      have hnext : set < w.state.nextRecent := hnext
      have hjudges : Judges i set a.accepted.criteria (w.putEntry i a.accepted events) :=
        Frame.judges_putBack hnext events
      refine ⟨Or.inr ⟨hq, hjudges⟩, Or.inr ⟨hq, hjudges⟩, ?_⟩
      intro s s' hs hs' _ _
      cases hcache.symm.trans hs
      cases (update_self _ _ _).symm.trans hs'
      exact Int64.le_of_lt hlast
  · obtain ⟨hjudges', hsteady'⟩ := hsteady w hjudges
    refine ⟨Or.inr ⟨hsteady', hjudges'⟩, Or.inr ⟨hsteady', hjudges'⟩, ?_⟩
    intro s s' hs hs' hset hset'
    have hsame := (hjudges.entry s hs hset).trans (hjudges'.entry s' hs' hset').symm
    have hlast : s.lastRecvMsgId = s'.lastRecvMsgId := congrArg Criteria.lastRecvMsgId hsame
    rw [hlast]
    exact Int64.le_refl _

theorem committing_rest [Platform] {statics : Statics} (f : Framed id) (set : RecentMsgIds)
    (a : Admission) : Committing id set a (f.rest statics (.admitted a)) := by
  rw [Frame.rest_admitted]
  refine .write (fun _ => rfl) (.write (fun _ => rfl) (.write (fun _ => rfl) ?_))
  exact .put f.of.names Frame.steadily_attend

/-- As long as neither the cache nor the recent sets in use change. -/
theorem Underway.of_cache {q : ServerM Unit} {w' : World} (h : Underway id set a q w)
    (hcache : w'.state.cache = w.state.cache) (hnext : w'.state.nextRecent = w.state.nextRecent) :
    Underway id set a q w' := by
  rcases h with ⟨hcommit, hentry, hlast⟩ | ⟨hsteady, hjudges⟩
  · exact Or.inl ⟨hcommit, (congrFun hcache id).trans hentry, hlast⟩
  · exact Or.inr ⟨hsteady, hjudges.of_cache hcache (Nat.le_of_eq hnext.symm)⟩

end Handling

/-! ### What holds of the loops whatever is still to come -/

section Shapes

variable [Platform] {id : Int64}

/-- What the job is bound to do: a frame that is turned away touches nothing any more, an accepted
frame does not look at the recent set. -/
def Job.Shape (set : RecentMsgIds) : Job id → Prop
  | .checking f p => Looking (fun session m b => f.judge session = .asks m b) f p
  | .handling b q => (b.passed = true → Blind id set q) ∧ (b.passed = false → q.Always Peeks)

/-- The session is cached with this recent set, and no two accepted frames are being handled. -/
structure Shaped (set : RecentMsgIds) (x : Loops id) : Prop where
  entry : ∃ session, x.state.state.cache id = some session ∧ session.recentMsgIds = set
  next : set < x.state.state.nextRecent
  row : (x.state.row id).isSome
  jobs : ∀ conn job, x.jobs conn = some job → job.Shape set
  alone : ∀ conn conn' job job', x.jobs conn = some job → x.jobs conn' = some job' →
    job.admitted = true → job'.admitted = true → conn = conn'

/-- Run to its end alone, an accepted frame would leave the session with its recent set. -/
def Good (set : RecentMsgIds) (x : Loops id) : Prop :=
  ∀ conn b q, x.jobs conn = some (.handling b q) → b.passed = true →
    ∃ session, (q.exec x.state).2.state.cache id = some session ∧ session.recentMsgIds = set

variable {set : RecentMsgIds} {x : Loops id} {conn : ConnId} {job : Option (Job id)} {w : World}

/-- The others go on as they were, and at most the job has an accepted frame in hand. -/
theorem Shaped.turn (h : Shaped set x)
    (hentry : ∃ session, w.state.cache id = some session ∧ session.recentMsgIds = set)
    (hnext : set < w.state.nextRecent) (hrow : (w.row id).isSome)
    (hshape : ∀ j, job = some j → j.Shape set)
    (hadmitted : ∀ j, job = some j → j.admitted = true →
      ∀ conn' j', x.jobs conn' = some j' → j'.admitted = true → conn' = conn) :
    Shaped set (x.turn conn job w) where
  entry := hentry
  next := hnext
  row := hrow
  jobs conn' j hj := by
    rcases Loops.jobs_turn hj with ⟨-, hjob⟩ | ⟨-, hjob⟩
    · exact hshape j hjob
    · exact h.jobs conn' j hjob
  alone c c' j j' hj hj' hadm hadm' := by
    rcases Loops.jobs_turn hj with ⟨rfl, hjob⟩ | ⟨-, hjob⟩ <;>
      rcases Loops.jobs_turn hj' with ⟨rfl, hjob'⟩ | ⟨-, hjob'⟩
    · rfl
    · exact (hadmitted j hjob hadm c' j' hjob' hadm').symm
    · exact hadmitted j' hjob' hadm' c j hjob hadm
    · exact h.alone c c' j j' hjob hjob' hadm hadm'

/-- A section that does not touch the core. -/
theorem Shaped.of_core (h : Shaped set x) (hcore : w.core = x.state.core)
    (hshape : ∀ j, job = some j → j.Shape set)
    (hadmitted : ∀ j, job = some j → j.admitted = true →
      ∀ conn' j', x.jobs conn' = some j' → j'.admitted = true → conn' = conn) :
    Shaped set (x.turn conn job w) := by
  have hcache : w.state.cache = x.state.state.cache := congrArg Core.cache hcore
  have hnext : w.state.nextRecent = x.state.state.nextRecent := congrArg Core.nextRecent hcore
  have hdb : w.state.db = x.state.state.db := congrArg Core.db hcore
  refine h.turn ?_ ?_ ?_ hshape hadmitted
  · rw [hcache]
    exact h.entry
  · rw [hnext]
    exact h.next
  · rw [World.row, hdb]
    exact h.row

/-- What another loop does without touching the core changes nothing about how a frame ends. -/
theorem Shaped.exec_core (h : Shaped set x) {b : Checked} {q : ServerM Unit}
    (hjob : x.jobs conn = some (.handling b q)) (hb : b.passed = true)
    (hcore : w.core = x.state.core) :
    (q.exec w).2.core = (q.exec x.state).2.core := by
  have hblind : Blind id set q := (h.jobs conn _ hjob).1 hb
  exact (hblind.exec_eq hcore).2

theorem Good.of_core (h : Good set (x.turn conn job w)) (hshaped : Shaped set x)
    (hcore : w.core = x.state.core)
    (hold : ∀ j, x.jobs conn = some j → j.admitted = false) : Good set x := by
  intro c b q hjob hb
  have hne : c ≠ conn := by
    rintro rfl
    have hfalse : b.passed = false := hold _ hjob
    rw [hb] at hfalse
    cases hfalse
  obtain ⟨session, hentry, hset⟩ := h c b q ((update_of_ne hne _ _).trans hjob) hb
  refine ⟨session, ?_, hset⟩
  rw [← hentry]
  exact (congrFun (congrArg Core.cache (hshaped.exec_core hjob hb hcore)) id).symm

end Shapes

/-! ### An order that explains the state -/

section Orders

variable [Platform] {id : Int64}

/-- What is about to be asked of the replay check has been judged by a state of the order. -/
structure Asked (keys : AesKey × MacKey) (set : RecentMsgIds) (seen : Set Core) (f : Framed id)
    (session : SessionData) (m : Int64) (b : Checked) : Prop where
  set : session.recentMsgIds = set
  msgId : m = f.msgId keys
  judged : f.judge session = .asks m b
  seen : ∃ g ∈ seen, g.judge f = some b.passed

/-- Run alone from here, an accepted frame leads to the last state of the order. -/
def Job.Fits (keys : AesKey × MacKey) (set : RecentMsgIds) (g : Core)
    (seen : Set Core) (w : World) :
    Job id → Prop
  | .checking f p => Looking (Asked keys set seen f) f p
  | .handling b q => ∀ a, b = .admitted a → (q.exec w).2.core = g ∧ Underway id set a q w

/-- How the state follows from an order that ends in `g`. -/
structure Explained (keys : AesKey × MacKey) (set : RecentMsgIds) (x : Loops id) (g : Core)
    (seen : Set Core) (left : Set Int64) : Prop where
  mem : g ∈ seen
  idle : (∀ conn job, x.jobs conn = some job → job.admitted = false) → x.state.core = g
  jobs : ∀ conn job, x.jobs conn = some job → job.Fits keys set g seen x.state
  current : ∃ m ∈ seen, ∃ s s', x.state.state.cache id = some s ∧ m.cache id = some s' ∧
    s.criteria = s'.criteria
  recents : ∀ n ∈ x.state.state.recents set, n ∈ left
  kept : ∀ n ∈ left, n ∈ x.state.state.recents set ∨
    ∀ s, x.state.state.cache id = some s → n ≤ s.lastRecvMsgId

variable {set : RecentMsgIds} {keys : AesKey × MacKey} {x : Loops id} {conn : ConnId}
variable {job : Option (Job id)} {w : World} {g : Core} {seen : Set Core} {left left' : Set Int64}

theorem Explained.fits_of_core (h : Explained keys set x g seen left) (hshaped : Shaped set x)
    (hcore : w.core = x.state.core) {j : Job id} (hjob : x.jobs conn = some j) :
    j.Fits keys set g seen w := by
  have hfits := h.jobs conn j hjob
  cases j with
  | checking f p => exact hfits
  | handling b q =>
    rintro a rfl
    obtain ⟨hexec, hunder⟩ := hfits a rfl
    refine ⟨(hshaped.exec_core hjob rfl hcore).trans hexec, hunder.of_cache ?_ ?_⟩
    · exact congrArg Core.cache hcore
    · exact congrArg Core.nextRecent hcore

/-- A loop that has no accepted frame in hand goes on. -/
theorem Explained.aside (h : Explained keys set x g seen left) (hshaped : Shaped set x)
    (hcore : w.core = x.state.core) (hold : ∀ j, x.jobs conn = some j → j.admitted = false)
    (hnew : ∀ j, job = some j → j.admitted = false ∧ j.Fits keys set g seen w)
    (hrecents : ∀ n ∈ w.state.recents set, n ∈ left')
    (hkept : ∀ n ∈ left', n ∈ w.state.recents set ∨
      ∀ s, x.state.state.cache id = some s → n ≤ s.lastRecvMsgId) :
    Explained keys set (x.turn conn job w) g seen left' := by
  have hcache : w.state.cache = x.state.state.cache := congrArg Core.cache hcore
  refine ⟨h.mem, fun hfree => hcore.trans (h.idle fun c j hj => ?_),
    fun c j hj => ?_, ?_, hrecents, ?_⟩
  · by_cases hc : c = conn
    · subst hc
      exact hold j hj
    · exact hfree c j ((update_of_ne hc _ _).trans hj)
  · rcases Loops.jobs_turn hj with ⟨-, hjob⟩ | ⟨-, hjob⟩
    · exact (hnew j hjob).2
    · exact h.fits_of_core hshaped hcore hjob
  · obtain ⟨m, hm, s, s', hs, hrest⟩ := h.current
    exact ⟨m, hm, s, s', (congrFun hcache id).trans hs, hrest⟩
  · intro n hn
    refine (hkept n hn).imp_right fun hold s hs => hold s ?_
    exact (congrFun hcache id).symm.trans hs

/-- The frame that has been accepted is handled further. -/
theorem Explained.work {b : Checked} {act : World → World} {next : World → ServerM Unit}
    (h : Explained keys set x g seen left) (hshaped : Shaped set x)
    (hjob : x.jobs conn = some (.handling b (.atomic act next))) (hb : b.passed = true)
    (hshaped' : Shaped set (x.turn conn (some (.handling b (next x.state))) (act x.state)))
    (hkeeps : ∃ session, g.cache id = some session ∧ session.recentMsgIds = set) :
    Explained keys set
      (x.turn conn (some (.handling b (next x.state))) (act x.state)) g seen left := by
  obtain ⟨a, rfl⟩ := Checked.eq_admitted hb
  obtain ⟨hexec, hunder⟩ := h.jobs conn _ hjob a rfl
  have hblind : Blind id set (.atomic act next) := (hshaped.jobs conn _ hjob).1 rfl
  have hrecents : (act x.state).state.recents set = x.state.state.recents set :=
    (hblind.1 x.state).1.recents hshaped.next
  obtain ⟨hunder', hentry, hlast⟩ := hunder.step hshaped'.next
  obtain ⟨s', hs', hset'⟩ := hshaped'.entry
  obtain ⟨s, hs, hset⟩ := hshaped.entry
  have hs' : (act x.state).state.cache id = some s' := hs'
  refine ⟨h.mem, fun hfree => ?_, fun c j hj => ?_, ?_, fun n hn => ?_, fun n hn => ?_⟩
  · cases hfree conn _ (update_self _ _ _)
  · rcases Loops.jobs_turn hj with ⟨-, hjob'⟩ | ⟨hne, hjob'⟩
    · cases hjob'
      rintro _ ⟨⟩
      exact ⟨hexec, hunder'⟩
    · have hfits := h.jobs c j hjob'
      cases j with
      | checking f p => exact hfits
      | handling b' q =>
        rintro a' rfl
        exact absurd (hshaped.alone c conn _ _ hjob' hjob rfl rfl) hne
  · rcases hentry with hsame | ⟨hsteady, hjudges⟩
    · obtain ⟨m, hm, t, t', ht, hrest⟩ := h.current
      exact ⟨m, hm, t, t', hsame.trans ht, hrest⟩
    · obtain ⟨t, ht, hsett⟩ := hkeeps
      have hend : Judges id set a.accepted.criteria ((next x.state).exec (act x.state)).2 :=
        (hsteady.exec hjudges).1
      have ht' := (congrFun (congrArg Core.cache hexec) id).trans ht
      have hsame := (hjudges.entry s' hs' hset').trans (hend.entry t ht' hsett).symm
      exact ⟨g, h.mem, s', t, hs', ht, hsame⟩
  · exact h.recents n (hrecents ▸ hn)
  · rcases h.kept n hn with hmem | hold
    · exact Or.inl (hrecents ▸ hmem)
    · refine Or.inr fun t ht => ?_
      cases hs'.symm.trans ht
      exact Int64.le_trans (hold s hs) (hlast s s' hs hs' hset hset')

/-- Its handling is over. -/
theorem Explained.ends {b : Checked} {p : ServerM Unit} (h : Explained keys set x g seen left)
    (hjob : x.jobs conn = some (.handling b p))
    (hover : ∀ act next, p ≠ .atomic act next) (hb : b.passed = true) :
    Explained keys set (x.turn conn none x.state) g seen left := by
  obtain ⟨a, rfl⟩ := Checked.eq_admitted hb
  obtain ⟨hexec, -⟩ := h.jobs conn _ hjob a rfl
  have hend : (p.exec x.state).2 = x.state := by
    cases p with
    | done _ => rfl
    | fail e => rfl
    | atomic act next => exact absurd rfl (hover act next)
  rw [hend] at hexec
  refine ⟨h.mem, fun _ => hexec, fun c j hj => ?_, h.current, h.recents, h.kept⟩
  rcases Loops.jobs_turn hj with ⟨-, hjob'⟩ | ⟨-, hjob'⟩
  · cases hjob'
  · exact h.jobs c j hjob'

variable {f : Framed id} {session : SessionData} {m : Int64} {b : Checked}

/-- The clone of a lookup is as a state of the order has it. -/
theorem Explained.verdict (h : Explained keys set x g seen left)
    (hentry : x.state.state.cache id = some session) :
    ∃ g ∈ seen, g.judge f = f.verdict session := by
  obtain ⟨g, hg, s, s', hs, hs', hsame⟩ := h.current
  cases hs.symm.trans hentry
  refine ⟨g, hg, ?_⟩
  rw [judge_of_entry hs', Frame.verdict_congr hsame]

theorem Explained.asked (h : Explained keys set x g seen left)
    (hsound : ∀ g ∈ seen, g.Holds id set keys) (hentry : x.state.state.cache id = some session)
    (hset : session.recentMsgIds = set) (hjudge : f.judge session = .asks m b) :
    Asked keys set seen f session m b := by
  obtain ⟨hverdict, -, hm, -⟩ := Frame.asks_of_judge hjudge
  refine ⟨hset, ?_, hjudge, ?_⟩
  · obtain ⟨g, hg, s, s', hs, hs', hsame⟩ := h.current
    cases hs.symm.trans hentry
    obtain ⟨held, hheld, -, hkeys, -⟩ := hsound g hg
    cases hs'.symm.trans hheld
    have hsession : session.keys = s'.keys :=
      congrArg (fun e : Criteria => (e.inbound.1, e.inbound.2.1)) hsame
    rw [hm, hsession, hkeys]
  · obtain ⟨g, hg, hjudged⟩ := h.verdict (f := f) hentry
    exact ⟨g, hg, hjudged.trans hverdict⟩

omit [Platform] in
/-- What has passed the replay check is remembered. -/
theorem recents_pass (hset : session.recentMsgIds = set) (conn : ConnId) (i : Int64) :
    (w.pass conn i session m).state.recents set = remembered m (w.state.recents set) := by
  subst hset
  exact update_self _ _ _

theorem Explained.kept_pass (h : Explained keys set x g seen left) {s : SessionData}
    (hentry : x.state.state.cache id = some s) (hs : s.recentMsgIds = set)
    (hset : session.recentMsgIds = set) (conn : ConnId) (i : Int64)
    (hstays : Stays id x.state (x.state.pass conn i session m)) :
    ∀ n ∈ insert m left, n ∈ (x.state.pass conn i session m).state.recents set ∨
      ∀ s, x.state.state.cache id = some s → n ≤ s.lastRecvMsgId := by
  rintro n (rfl | hn)
  · refine Or.inl ?_
    rw [recents_pass hset]
    exact mem_remembered_self _ _
  · rcases h.kept n hn with hmem | hold
    · rw [← hs] at hmem ⊢
      refine (hstays.remembers s n hentry hmem).imp_right fun hold t ht => ?_
      cases hentry.symm.trans ht
      exact hold
    · exact Or.inr hold

theorem Explained.recents_pass (h : Explained keys set x g seen left)
    (hset : session.recentMsgIds = set) (conn : ConnId) (i : Int64) :
    ∀ n ∈ (x.state.pass conn i session m).state.recents set, n ∈ insert m left := by
  intro n hn
  rw [Server.recents_pass hset] at hn
  exact (mem_of_remembered hn).imp_right (h.recents n)

/-- A frame that has been let pass, and is not old, comes with a note of its own. -/
theorem Explained.fresh (h : Explained keys set x g seen left)
    (hentry : x.state.state.cache id = some session) (hset : session.recentMsgIds = set)
    (hlast : session.lastRecvMsgId < m) (hnot : m ∉ x.state.state.recents session.recentMsgIds) :
    m ∉ left := by
  intro hmem
  rcases h.kept m hmem with hrecent | hold
  · exact hnot (hset ▸ hrecent)
  · exact absurd hlast (Int64.not_lt.mpr (hold session hentry))

variable {statics : Statics} {a : Admission}

/-- The state after an accepted frame is sound if the frame would leave the session its recent
set. -/
theorem holds_after (hg : g.Holds id set keys) (hcore : w.core = g)
    (hentry : g.cache id = some session) (hpasses : f.Admits session a)
    (hafter : g.after statics f = ((f.rest statics (.admitted a)).exec w).2.core)
    (hkeeps : ∃ s, ((f.rest statics (.admitted a)).exec w).2.state.cache id = some s ∧
      s.recentMsgIds = set) : (g.after statics f).Holds id set keys := by
  obtain ⟨held, hheld, -, hkeys, hnext⟩ := hg
  cases hentry.symm.trans hheld
  obtain ⟨s, hs, hset⟩ := hkeeps
  have hnext : set < w.state.nextRecent := by
    rw [← hcore] at hnext
    exact hnext
  have hjudges : Judges id set a.accepted.criteria ((f.rest statics (.admitted a)).exec w).2 :=
    Frame.judges_rest f.of.names hnext
  have hblind : Blind id set (f.rest statics (.admitted a)) := blind_rest statics f.toFrame _
  have hspares := hblind.always.exec (fun w => Spares.refl w) (fun h h' => h.trans h') w
  rw [hafter]
  refine ⟨s, hs, hset, ?_, hspares.next hnext⟩
  obtain ⟨recvCounter, hcrypto⟩ := hpasses.crypto
  have hsame : s.keys = a.accepted.keys :=
    congrArg (fun e : Criteria => (e.inbound.1, e.inbound.2.1)) (hjudges.entry s hs hset)
  rw [hsame, ← hkeys]
  unfold SessionData.keys Admission.accepted SessionData.accept
  rw [hcrypto]

/-- A frame is accepted while no other accepted frame is being handled. -/
theorem Explained.grant (h : Explained keys set x g seen left)
    (halone : x.Alone a) (hpasses : f.Admits session a)
    (hentry : x.state.state.cache id = some session) (hset : session.recentMsgIds = set)
    (hlast : session.lastRecvMsgId < m) (hm : m = a.msgId)
    (hstays : Stays id x.state (x.state.pass f.conn f.id session m))
    (hafter : g.after statics f =
      ((f.rest statics (.admitted a)).exec (x.state.pass f.conn f.id session m)).2.core) :
    Explained keys set (x.turn conn (some (.handling (.admitted a) (f.rest statics (.admitted a))))
      (x.state.pass f.conn f.id session m)) (g.after statics f)
      (insert (g.after statics f) seen) (insert m left) := by
  obtain hcore := h.idle halone.free
  have hentry' : g.cache id = some session := by
    rw [← hcore]
    exact hentry
  refine ⟨Set.mem_insert _ _, fun hfree => ?_, fun c j hj => ?_, ?_, h.recents_pass hset _ _,
    h.kept_pass hentry hset hset _ _ hstays⟩
  · cases hfree conn _ (update_self _ _ _)
  · rcases Loops.jobs_turn hj with ⟨-, hjob⟩ | ⟨-, hjob⟩
    · cases hjob
      rintro _ ⟨⟩
      refine ⟨hafter.symm, Or.inl ⟨committing_rest f set a, ?_, ?_⟩⟩
      · rw [hpasses.clone]
        exact hentry
      · rw [hpasses.clone, ← hm]
        exact hlast
    · have hfits := h.jobs c j hjob
      cases j with
      | checking f' p =>
        refine Looking.mono hfits fun s n b' hask => ⟨hask.set, hask.msgId, hask.judged, ?_⟩
        obtain ⟨g', hg', hjudge⟩ := hask.seen
        exact ⟨g', Set.mem_insert_of_mem _ hg', hjudge⟩
      | handling b' q =>
        rintro a' rfl
        cases halone.free c _ hjob
  · exact ⟨g, Set.mem_insert_of_mem _ h.mem, session, session, hentry, hentry', rfl⟩

end Orders

end KoSta.Server
