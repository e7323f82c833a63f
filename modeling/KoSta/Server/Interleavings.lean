import KoSta.Server.Explained

/-! Frames of one session on several connections, section by section: when it is as if they had come
one at a time. -/

namespace KoSta.Server
open Lib Lib.Prog Tl Crypto Function

/-! ### Runs of which the session is cached -/

section Loaded

variable [Platform] {id : Int64}

/-- The loops keep to their shapes, and if every frame in hand would leave the session its recent
set there is an order that explains the state. -/
structure Loaded (statics : Statics) (keys : AesKey × MacKey) (set : RecentMsgIds) (g₀ : Core)
    (r₀ : List Int64) (fs : List (Framed id)) (x : Loops id) : Prop where
  shaped : Shaped set x
  explained : Good set x → ∃ g seen left,
    (desk statics id set keys).Ordered g₀ r₀ fs g seen left ∧ Explained keys set x g seen left

variable {statics : Statics} {keys : AesKey × MacKey} {set : RecentMsgIds} {g₀ : Core}
variable {r₀ : List Int64} {fs : List (Framed id)} {x : Loops id} {conn : ConnId} {f : Framed id}
variable {act : World → World}

theorem peeks_rest {b : Checked} (hb : b.passed = false) (hne : b ≠ .unknown) :
    (f.rest statics b).Always Peeks := by
  obtain ⟨result, hrest⟩ := rest_turned statics f.toFrame hb hne
  rw [hrest]
  exact fun w => ⟨⟨rfl, rfl⟩, trivial⟩

theorem shape_rest {b : Checked} (hne : b ≠ .unknown) :
    (Job.handling b (f.rest statics b) : Job id).Shape set :=
  ⟨fun _ => blind_rest statics f.toFrame b, fun hb => peeks_rest hb hne⟩

/-- A loop without an accepted frame in hand does something that touches neither the core nor the
recent sets. -/
theorem Loaded.peek {job : Option (Job id)} {w : World} (h : Loaded statics keys set g₀ r₀ fs x)
    (hpeeks : Peeks x.state w) (hold : ∀ j, x.jobs conn = some j → j.admitted = false)
    (hshape : ∀ j, job = some j → j.admitted = false ∧ j.Shape set)
    (hfits : ∀ j g seen left, job = some j →
      (desk statics id set keys).Ordered g₀ r₀ fs g seen left →
      Explained keys set x g seen left → j.Fits keys set g seen w) :
    Loaded statics keys set g₀ r₀ fs (x.turn conn job w) where
  shaped := by
    refine h.shaped.of_core hpeeks.core (fun j hj => (hshape j hj).2) fun j hj hadm => ?_
    rw [(hshape j hj).1] at hadm
    cases hadm
  explained hgood := by
    obtain ⟨g, seen, left, hordered, hexplained⟩ :=
      h.explained (hgood.of_core h.shaped hpeeks.core hold)
    refine ⟨g, seen, left, hordered, hexplained.aside h.shaped hpeeks.core hold (fun j hj => ?_)
      (fun n hn => ?_) fun n hn => ?_⟩
    · exact ⟨(hshape j hj).1, hfits j g seen left hj hordered hexplained⟩
    · rw [hpeeks.recents] at hn
      exact hexplained.recents n hn
    · rw [hpeeks.recents]
      exact hexplained.kept n hn

theorem Loaded.start (h : Loaded statics keys set g₀ r₀ fs x) (hnone : x.jobs conn = none)
    (f : Framed id) :
    Loaded statics keys set g₀ r₀ fs (x.turn conn (some (.checking f f.check)) x.state) := by
  refine h.peek ⟨rfl, rfl⟩ (fun j hj => ?_) (fun j hj => ?_) fun j g seen left hj _ _ => ?_
  · cases hnone.symm.trans hj
  · cases hj
    exact ⟨rfl, .first⟩
  · cases hj
    exact .first

omit [Platform] in
theorem not_admitted {p : ServerM Checked} (hjob : x.jobs conn = some (.checking f p)) :
    ∀ j, x.jobs conn = some j → j.admitted = false := by
  intro j hj
  cases hjob.symm.trans hj
  rfl

theorem Loaded.check {next : World → ServerM Checked} (h : Loaded statics keys set g₀ r₀ fs x)
    (hg₀ : g₀.Holds id set keys) (hjob : x.jobs conn = some (.checking f (.atomic act next)))
    (hstays : Stays id x.state (act x.state)) (hnext : ∀ b, next x.state ≠ .done b) :
    Loaded statics keys set g₀ r₀ fs
      (x.turn conn (some (.checking f (next x.state))) (act x.state)) := by
  obtain ⟨session, hentry, hset⟩ := h.shaped.entry
  subst hset
  have hon {P : SessionData → Int64 → Checked → Prop} (hlook : Looking P f (.atomic act next)) :
      Peeks x.state (act x.state) ∧ ∀ P' : SessionData → Int64 → Checked → Prop,
        (∀ m b, f.judge session = .asks m b → P' session m b) → Looking P' f (next x.state) := by
    have hlooked := hlook.looked rfl hentry h.shaped.next h.shaped.row hstays
    generalize act x.state = w at hlooked
    generalize hp : next x.state = p at hlooked hnext
    cases hlooked with
    | onward hpeeks _ hlook => exact ⟨hpeeks, hlook⟩
    | decided _ _ => exact absurd rfl (hnext _)
    | again _ _ => exact absurd rfl (hnext _)
    | passed _ _ => exact absurd rfl (hnext _)
  obtain ⟨hpeeks, hlook⟩ := hon (h.shaped.jobs conn _ hjob)
  refine h.peek hpeeks (not_admitted hjob) (fun j hj => ?_)
    fun j g seen left hj hordered hexplained => ?_
  · cases hj
    exact ⟨rfl, hlook _ fun m b hjudge => hjudge⟩
  · cases hj
    exact hlook _ fun m b hjudge =>
      hexplained.asked (fun g hg => hordered.sound hg₀ hg) hentry rfl hjudge

/-- How the checks of a frame can end, by what is known of its clone. -/
def Ended (keys : AesKey × MacKey) (set : RecentMsgIds) (seen : Set Core) (f : Framed id)
    (session : SessionData) (w w' : World) (b : Checked) : Prop :=
  (Peeks w w' ∧ f.judge session = .decided b) ∨
  (w' = w ∧ b = .rejected .replayed ∧
    ∃ s m c, Asked keys set seen f s m c ∧ m ∈ w.state.recents s.recentMsgIds) ∨
  ∃ s m, Asked keys set seen f s m b ∧ m ∉ w.state.recents s.recentMsgIds ∧
    w' = w.pass f.conn f.id s m

variable {g : Core} {seen : Set Core} {left : Set Int64} {session : SessionData} {w : World}

/-- A frame that has been turned away has its place in the order. -/
theorem Explained.turned {b : Checked} (h : Explained keys set x g seen left)
    (hshaped : Shaped set x) (hordered : (desk statics id set keys).Ordered g₀ r₀ fs g seen left)
    {p : ServerM Checked} (hjob : x.jobs conn = some (.checking f p)) (hstays : Stays id x.state w)
    (hentry : x.state.state.cache id = some session)
    (hended : Ended keys set seen f session x.state w b) (hb : b.passed = false) :
    ∃ left', (desk statics id set keys).Ordered g₀ r₀ (f :: fs) g seen left' ∧
      Explained keys set (x.turn conn (some (.handling b (f.rest statics b))) w) g seen left' := by
  have hnew (j : Job id) (hj : some (Job.handling b (f.rest statics b)) = some j) :
      j.admitted = false ∧ j.Fits keys set g seen w := by
    cases hj
    refine ⟨hb, ?_⟩
    rintro a rfl
    cases hb
  have hold := not_admitted hjob
  rcases hended with ⟨hpeeks, hjudge⟩ | ⟨rfl, -, s, m, c, hask, hmem⟩ | ⟨s, m, hask, hnot, rfl⟩
  · obtain ⟨g', hg', hjudge'⟩ := h.verdict (f := f) hentry
    have hdeclined : (desk statics id set keys).judge f g' = none :=
      hjudge'.trans (Frame.decided_of_judge hjudge).1
    refine ⟨left, hordered.decline hg' hdeclined, h.aside hshaped hpeeks.core hold hnew ?_ ?_⟩
    · rw [hpeeks.recents]
      exact h.recents
    · rw [hpeeks.recents]
      exact h.kept
  · have hleft : (desk statics id set keys).note f ∈ left := by
      rw [note_desk, ← hask.msgId]
      exact h.recents m (hask.set ▸ hmem)
    exact ⟨left, hordered.again hleft, h.aside hshaped rfl hold hnew h.recents h.kept⟩
  · obtain ⟨t, ht, hset⟩ := hshaped.entry
    have hrecents := h.recents_pass (m := m) hask.set f.conn f.id
    have hkept := h.kept_pass ht hset hask.set f.conn f.id hstays
    by_cases hleft : m ∈ left
    · have hnote : (desk statics id set keys).note f ∈ left := by
        rw [note_desk, ← hask.msgId]
        exact hleft
      rw [Set.insert_eq_of_mem hleft] at hrecents hkept
      exact ⟨left, hordered.again hnote, h.aside hshaped rfl hold hnew hrecents hkept⟩
    · obtain ⟨g', hg', hjudge⟩ := hask.seen
      rw [hb] at hjudge
      have hnote : (desk statics id set keys).note f = m := by
        rw [note_desk, ← hask.msgId]
      have hrefused := hordered.refuse hg' hjudge (hnote ▸ hleft)
      rw [hnote] at hrefused
      exact ⟨insert m left, hrefused, h.aside hshaped rfl hold hnew hrecents hkept⟩

/-- So has one that is accepted while no other accepted frame is being handled: it comes last. -/
theorem Explained.admitted {a : Admission} (h : Explained keys set x g seen left)
    (hg₀ : g₀.Holds id set keys)
    (hordered : (desk statics id set keys).Ordered g₀ r₀ fs g seen left)
    (hstays : Stays id x.state w) (hended : Ended keys set seen f session x.state w (.admitted a))
    (halone : x.Alone a)
    (hkeeps : ∃ s, ((f.rest statics (.admitted a)).exec w).2.state.cache id = some s ∧
      s.recentMsgIds = set) :
    ∃ left', (desk statics id set keys).Ordered g₀ r₀ (f :: fs) (g.after statics f)
        (insert (g.after statics f) seen) left' ∧
      Explained keys set
        (x.turn conn (some (.handling (.admitted a) (f.rest statics (.admitted a)))) w)
        (g.after statics f) (insert (g.after statics f) seen) left' := by
  rcases hended with ⟨hpeeks, hjudge⟩ | ⟨-, hb, -⟩ | ⟨s, m, hask, hnot, rfl⟩
  · cases (Frame.decided_of_judge hjudge).2.1
  · cases hb
  · have hpasses := Frame.admits_of_judge hask.judged
    obtain ⟨hverdict, hlast, hm, -⟩ := Frame.asks_of_judge hask.judged
    have hcurrent : x.state.state.cache id = some s := by
      rw [← hpasses.clone]
      exact halone.current
    have hcore := h.idle halone.free
    have hentry' : g.cache id = some s := by
      rw [← hcore]
      exact hcurrent
    have hadmission : f.admission s = some a := by
      unfold Frame.admission
      rw [hask.judged]
      rfl
    have hpass : (x.state.pass f.conn f.id s m).core = g := (core_pass _ _ _ _).trans hcore
    have hblind : Blind id set (f.rest statics (.admitted a)) := blind_rest statics f.toFrame _
    have hafter : g.after statics f =
        ((f.rest statics (.admitted a)).exec (x.state.pass f.conn f.id s m)).2.core := by
      rw [after_of_entry hentry' hadmission]
      exact (hblind.exec_eq ((core_world g).trans hpass.symm)).2
    have hsound := hordered.sound hg₀ h.mem
    have hholds := holds_after hsound hpass hentry' hpasses hafter hkeeps
    have hnote : (desk statics id set keys).note f = m := by
      rw [note_desk, ← hask.msgId]
    have hfresh := h.fresh hcurrent hask.set hlast hnot
    have hjudge : (desk statics id set keys).judge f g = some true :=
      (judge_of_entry hentry').trans hverdict
    have hgranted := hordered.grant hjudge hholds (hnote ▸ hfresh)
    rw [hnote] at hgranted
    exact ⟨insert m left, hgranted, h.grant halone hpasses hcurrent hask.set hlast
      (hm.trans hpasses.msgId.symm) hstays hafter⟩

/-- The checks of a frame are over. -/
theorem Loaded.decide {next : World → ServerM Checked} {b : Checked}
    (h : Loaded statics keys set g₀ r₀ fs x) (hg₀ : g₀.Holds id set keys)
    (hjob : x.jobs conn = some (.checking f (.atomic act next)))
    (hstays : Stays id x.state (act x.state)) (hnext : next x.state = .done b)
    (halone : ∀ a, b = .admitted a → x.Alone a) :
    Loaded statics keys set g₀ r₀ (f :: fs)
      (x.turn conn (some (.handling b (f.rest statics b))) (act x.state)) := by
  obtain ⟨session, hentry, hset⟩ := h.shaped.entry
  have hlooked {P : SessionData → Int64 → Checked → Prop} (hlook : Looking P f (.atomic act next)) :
      Looked P f session x.state (act x.state) (.done b) := by
    rw [← hnext]
    exact hlook.looked rfl hentry (hset ▸ h.shaped.next) h.shaped.row hstays
  obtain ⟨hcore, hne⟩ : (act x.state).core = x.state.core ∧ b ≠ .unknown := by
    rcases (hlooked (h.shaped.jobs conn _ hjob)).ended with ⟨hpeeks, hjudge⟩ | ⟨hw, rfl, -⟩ |
      ⟨s, m, hjudge, -, hw⟩
    · exact ⟨hpeeks.core, (Frame.decided_of_judge hjudge).2.2⟩
    · exact ⟨congrArg World.core hw, nofun⟩
    · exact ⟨(congrArg World.core hw).trans rfl, (Frame.asks_of_judge hjudge).2.2.2⟩
  constructor
  · refine h.shaped.of_core hcore (fun j hj => ?_) fun j hj hadm c j' hj' hadm' => ?_
    · cases hj
      exact shape_rest hne
    · cases hj
      obtain ⟨a, rfl⟩ := Checked.eq_admitted hadm
      rw [(halone a rfl).free c j' hj'] at hadm'
      cases hadm'
  · intro hgood
    obtain ⟨g, seen, left, hordered, hexplained⟩ :=
      h.explained (hgood.of_core h.shaped hcore (not_admitted hjob))
    have hended := (hlooked (hexplained.jobs conn _ hjob)).ended
    cases hb : b.passed with
    | false =>
      obtain ⟨left', hordered', hexplained'⟩ :=
        hexplained.turned h.shaped hordered hjob hstays hentry hended hb
      exact ⟨g, seen, left', hordered', hexplained'⟩
    | true =>
      obtain ⟨a, rfl⟩ := Checked.eq_admitted hb
      obtain ⟨left', hordered', hexplained'⟩ := hexplained.admitted hg₀ hordered hstays hended
        (halone a rfl) (hgood conn _ _ (update_self _ _ _) rfl)
      exact ⟨_, _, left', hordered', hexplained'⟩

/-- A frame whose checks are over is handled further. -/
theorem Loaded.work {next : World → ServerM Unit} {b : Checked}
    (h : Loaded statics keys set g₀ r₀ fs x)
    (hjob : x.jobs conn = some (.handling b (.atomic act next)))
    (hstays : Stays id x.state (act x.state)) :
    Loaded statics keys set g₀ r₀ fs
      (x.turn conn (some (.handling b (next x.state))) (act x.state)) := by
  obtain ⟨hblind, hpeeks⟩ := h.shaped.jobs conn _ hjob
  cases hb : b.passed with
  | false =>
    obtain ⟨hact, hrest⟩ := hpeeks hb x.state
    refine h.peek hact (fun j hj => ?_) (fun j hj => ?_) fun j g seen left hj _ _ => ?_
    · cases hjob.symm.trans hj
      exact hb
    · cases hj
      exact ⟨hb, fun htrue => Bool.noConfusion (htrue.symm.trans hb), fun _ => hrest⟩
    · cases hj
      rintro a rfl
      cases hb
  | true =>
    have hthrough : Blind id set (.atomic act next) := hblind hb
    obtain ⟨hspares, hrest⟩ := hthrough.1 x.state
    have hshaped' : Shaped set (x.turn conn (some (.handling b (next x.state))) (act x.state)) := by
      obtain ⟨session, hentry, hset⟩ := h.shaped.entry
      obtain ⟨session', hentry', hset'⟩ := hstays.entry session hentry
      refine h.shaped.turn ⟨session', hentry', hset'.trans hset⟩ (hspares.next h.shaped.next)
        (hspares.row h.shaped.row) (fun j hj => ?_) fun j hj hadm c j' hj' hadm' => ?_
      · cases hj
        exact ⟨fun _ => hrest, fun hfalse => Bool.noConfusion (hb.symm.trans hfalse)⟩
      · exact h.shaped.alone c conn j' _ hj' hjob hadm' hb
    refine ⟨hshaped', fun hgood => ?_⟩
    have hkeeps := hgood conn b _ (update_self _ _ _) hb
    have hgood₀ : Good set x := by
      intro c b' q hq hb'
      obtain rfl := h.shaped.alone c conn _ _ hq hjob hb' hb
      cases hjob.symm.trans hq
      exact hkeeps
    obtain ⟨g, seen, left, hordered, hexplained⟩ := h.explained hgood₀
    refine ⟨g, seen, left, hordered, hexplained.work h.shaped hjob hb hshaped' ?_⟩
    obtain ⟨a, rfl⟩ := Checked.eq_admitted hb
    rw [← (hexplained.jobs conn _ hjob a rfl).1]
    exact hkeeps

/-- A frame has been handled. -/
theorem Loaded.ends {b : Checked} {p : ServerM Unit} (h : Loaded statics keys set g₀ r₀ fs x)
    (hjob : x.jobs conn = some (.handling b p)) (hover : ∀ act next, p ≠ .atomic act next) :
    Loaded statics keys set g₀ r₀ fs (x.turn conn none x.state) := by
  cases hb : b.passed with
  | false =>
    refine h.peek ⟨rfl, rfl⟩ (fun j hj => ?_) nofun nofun
    cases hjob.symm.trans hj
    exact hb
  | true =>
    refine ⟨h.shaped.of_core rfl nofun nofun, fun hgood => ?_⟩
    have hgood₀ : Good set x := by
      intro c b' q hq hb'
      obtain rfl := h.shaped.alone c conn _ _ hq hjob hb' hb
      cases hjob.symm.trans hq
      cases p with
      | done _ => exact h.shaped.entry
      | fail e => exact h.shaped.entry
      | atomic act next => exact absurd rfl (hover act next)
    obtain ⟨g, seen, left, hordered, hexplained⟩ := h.explained hgood₀
    exact ⟨g, seen, left, hordered, hexplained.ends hjob hover hb⟩

end Loaded

/-! ### Up to the load -/

section Unloaded

variable [Platform] {id : Int64} {statics : Statics} {keys : AesKey × MacKey} {set : RecentMsgIds}
variable {g₀ : Core} {r₀ : List Int64} {w₀ : World} {x : Loops id} {conn : ConnId} {f : Framed id}

/-- The loops are in their checks, on a session as it was at the start. -/
theorem Loaded.init (hg₀ : g₀.Holds id set keys) (hcore : x.state.core = g₀)
    (hrecents : x.state.state.recents set = r₀) (hrow : (x.state.row id).isSome)
    (hjobs : ∀ conn job, x.jobs conn = some job → ∃ f p, job = .checking f p ∧ ∀ P, Looking P f p) :
    Loaded statics keys set g₀ r₀ [] x := by
  subst hcore hrecents
  have hfree (conn : ConnId) (job : Job id) (hjob : x.jobs conn = some job) :
      job.admitted = false := by
    obtain ⟨f, p, rfl, -⟩ := hjobs conn job hjob
    rfl
  obtain ⟨session, hentry, hset, -, hnext⟩ := hg₀
  constructor
  · refine ⟨⟨session, hentry, hset⟩, hnext, hrow, fun conn job hjob => ?_, ?_⟩
    · obtain ⟨f, p, rfl, hlook⟩ := hjobs conn job hjob
      exact hlook _
    · intro conn _ job _ hjob _ hadm _
      rw [hfree conn job hjob] at hadm
      cases hadm
  · intro _
    refine ⟨_, _, _, Desk.Ordered.init (desk statics id set keys) x.state.core _, ?_⟩
    refine ⟨Set.mem_singleton _, fun _ => rfl, fun conn job hjob => ?_,
      ⟨_, Set.mem_singleton _, session, session, hentry, hentry, rfl⟩, fun n hn => hn,
      fun n hn => Or.inl hn⟩
    obtain ⟨f, p, rfl, hlook⟩ := hjobs conn job hjob
    exact hlook _

/-- The first lookup of a frame on the way to the row. -/
inductive Waiting (w₀ : World) (f : Framed id) : ServerM Checked → Prop where
  | first : Waiting w₀ f f.check
  | missing : Waiting w₀ f (missing f.conn f.id (fun _ => []) f.found)
  | loading {full} : w₀.row id = some full →
    Waiting w₀ f (loading f.conn f.id (fun _ => []) f.found full)

theorem Waiting.looking {p : ServerM Checked} (h : Waiting w₀ f p)
    (P : SessionData → Int64 → Checked → Prop) : Looking P f p := by
  cases h with
  | first => exact .first
  | missing => exact .missing
  | loading _ => exact .loading

/-- What it does while the session is not cached. -/
theorem Waiting.step {p : ServerM Checked} {act : World → World} {next : World → ServerM Checked}
    {w : World} (h : Waiting w₀ f p) (hp : p = .atomic act next) (hmiss : w.state.cache id = none)
    (hrow : (w₀.row id).isSome) (hcore : w.core = w₀.core) :
    ((act w).core = w₀.core ∧ Waiting w₀ f (next w) ∧ ∀ b, next w ≠ .done b) ∨
    ∃ full, w₀.row id = some full ∧ next w = f.receive ∧
      act w = w.load f.id full [.put f.conn f.id (sessionOfRow f.id full w.state.nextRecent)] := by
  have hid : f.id = id := f.of.names
  cases h with
  | first =>
    have hp : getSession f.conn f.id (fun _ => []) >>= f.found = .atomic act next := hp
    rw [getSession_eq] at hp
    obtain ⟨rfl, rfl⟩ := Prog.atomic.inj hp
    have hmiss : w.state.cache f.id = none := by
      rw [hid]
      exact hmiss
    dsimp only
    rw [hmiss]
    exact Or.inl ⟨hcore, .missing, nofun⟩
  | missing =>
    obtain ⟨full, hfull⟩ := Option.isSome_iff_exists.mp hrow
    obtain ⟨rfl, rfl⟩ := Prog.atomic.inj hp
    have hrow : w.row f.id = some full := by
      rw [hid, ← hfull]
      exact congrArg (fun g : Core => g.db.sessions id) hcore
    dsimp only
    rw [hrow]
    exact Or.inl ⟨hcore, .loading hfull, nofun⟩
  | @loading full hfull =>
    obtain ⟨rfl, rfl⟩ := Prog.atomic.inj hp
    exact Or.inr ⟨full, hfull, rfl, rfl⟩

/-- All loops are on their first lookup. -/
structure Unloaded (w₀ : World) (x : Loops id) : Prop where
  core : x.state.core = w₀.core
  jobs : ∀ conn job, x.jobs conn = some job → ∃ f p, job = .checking f p ∧ Waiting w₀ f p

theorem Unloaded.turn {p : ServerM Checked} {w : World} (h : Unloaded w₀ x)
    (hcore : w.core = w₀.core)
    (hp : Waiting w₀ f p) : Unloaded w₀ (x.turn conn (some (.checking f p)) w) := by
  refine ⟨hcore, fun c j hj => ?_⟩
  rcases Loops.jobs_turn hj with ⟨-, hjob⟩ | ⟨-, hjob⟩
  · cases hjob
    exact ⟨f, p, rfl, hp⟩
  · exact h.jobs c j hjob

omit [Platform] in
theorem core_load_congr {w w' : World} (h : w.core = w'.core) (i : Int64) (full : FullSession)
    (conn : ConnId) (session : SessionData) :
    (w.load i full [.put conn i session]).core = (w'.load i full []).core := by
  obtain ⟨hdb, hcache, hnext, hhandshakes, hsent⟩ := Core.mk.inj h
  unfold World.load World.putEntry World.renew World.core
  dsimp only
  rw [hdb, hcache, hnext, hhandshakes]
  exact congrArg (Core.mk _ _ _ _) hsent

/-- The first load. -/
theorem Unloaded.load {full : FullSession} (h : Unloaded w₀ x) (hfull : w₀.row id = some full)
    (conn : ConnId) (f : Framed id) :
    Loaded statics (sessionOfRow id full w₀.state.nextRecent).keys w₀.state.nextRecent
      (w₀.load id full []).core [] []
      (x.turn conn (some (.checking f f.receive)) (x.state.load f.id full
        [.put f.conn f.id (sessionOfRow f.id full x.state.state.nextRecent)])) := by
  have hid : f.id = id := f.of.names
  have hnext : x.state.state.nextRecent = w₀.state.nextRecent := congrArg Core.nextRecent h.core
  rw [hid]
  refine Loaded.init ?_ (core_load_congr h.core _ _ _ _) ?_ ?_ fun c j hj => ?_
  · exact ⟨_, update_self _ _ _, rfl, rfl, Nat.lt_succ_self _⟩
  · rw [← hnext]
    exact update_self _ _ _
  · change (x.state.row id).isSome
    have hrow : x.state.row id = w₀.row id :=
      congrArg (fun g : Core => g.db.sessions id) h.core
    rw [hrow, hfull]
    rfl
  · rcases Loops.jobs_turn hj with ⟨-, hjob⟩ | ⟨-, hjob⟩
    · cases hjob
      exact ⟨f, _, rfl, fun _ => .second⟩
    · obtain ⟨f', p, rfl, hp⟩ := h.jobs c j hjob
      exact ⟨f', p, rfl, hp.looking⟩

end Unloaded

/-! ### Whole runs -/

section Runs

variable [Platform] {id : Int64} {statics : Statics} {w₀ : World} {fs : List (Framed id)}
variable {x : Loops id}

/-- The session has yet to be loaded, or the frames so far have come to what an order of them makes
of the session as it was found. -/
def Followed (statics : Statics) (w₀ : World) (fs : List (Framed id)) (x : Loops id) : Prop :=
  (Unloaded w₀ x ∧ fs = [] ∧ w₀.state.cache id = none) ∨
  ∃ set keys g₀ r₀, Core.Holds id set keys g₀ ∧
    (Has id set g₀ r₀ w₀ ∨ WillHave id set g₀ r₀ w₀) ∧ Loaded statics keys set g₀ r₀ fs x

theorem followed_init (howned : Owned w₀) (hrow : (w₀.row id).isSome) :
    Followed statics w₀ [] (Loops.init w₀ : Loops id) := by
  cases hentry : w₀.state.cache id with
  | none => exact Or.inl ⟨⟨rfl, nofun⟩, rfl, hentry⟩
  | some session =>
    have hholds : w₀.core.Holds id session.recentMsgIds session.keys :=
      ⟨session, hentry, rfl, rfl, howned.below id session hentry⟩
    exact Or.inr ⟨_, _, _, _, hholds, Or.inl ⟨rfl, rfl⟩, .init hholds rfl rfl hrow nofun⟩

theorem followed (h : Loops.Run statics (Stays id) Loops.Alone w₀ fs x) (howned : Owned w₀)
    (hrow : (w₀.row id).isSome) : Followed statics w₀ fs x := by
  induction h with
  | init => exact followed_init howned hrow
  | @start fs x conn f _ hnone _ ih =>
    rcases ih with ⟨hun, hfs, hmiss⟩ | ⟨set, keys, g₀, r₀, hg₀, hfirst, hloaded⟩
    · exact Or.inl ⟨hun.turn hun.core .first, hfs, hmiss⟩
    · exact Or.inr ⟨set, keys, g₀, r₀, hg₀, hfirst, hloaded.start hnone f⟩
  | @check fs x conn f act next _ hjob hstays hnext ih =>
    rcases ih with ⟨hun, hfs, hmiss⟩ | ⟨set, keys, g₀, r₀, hg₀, hfirst, hloaded⟩
    · obtain ⟨f', p, heq, hwaiting⟩ := hun.jobs conn _ hjob
      cases heq
      have hmiss' : x.state.state.cache id = none :=
        (congrFun (congrArg Core.cache hun.core) id).trans hmiss
      rcases hwaiting.step rfl hmiss' hrow hun.core with ⟨hcore, hwaiting', -⟩ |
        ⟨full, hfull, hreceive, hload⟩
      · exact Or.inl ⟨hun.turn hcore hwaiting', hfs, hmiss⟩
      · subst hfs
        rw [hreceive, hload]
        refine Or.inr ⟨_, _, _, _, ?_, Or.inr ⟨hmiss, ⟨full, hfull, rfl⟩, rfl, rfl⟩,
          hun.load hfull conn f⟩
        exact ⟨_, update_self _ _ _, rfl, rfl, Nat.lt_succ_self _⟩
    · exact Or.inr ⟨set, keys, g₀, r₀, hg₀, hfirst, hloaded.check hg₀ hjob hstays hnext⟩
  | @decide fs x conn f act next b _ hjob hstays hnext halone ih =>
    rcases ih with ⟨hun, hfs, hmiss⟩ | ⟨set, keys, g₀, r₀, hg₀, hfirst, hloaded⟩
    · obtain ⟨f', p, heq, hwaiting⟩ := hun.jobs conn _ hjob
      cases heq
      have hmiss' : x.state.state.cache id = none :=
        (congrFun (congrArg Core.cache hun.core) id).trans hmiss
      rcases hwaiting.step rfl hmiss' hrow hun.core with ⟨-, -, hnot⟩ | ⟨full, -, hreceive, -⟩
      · exact absurd hnext (hnot b)
      · have hreceive := hreceive.symm.trans hnext
        unfold Frame.receive at hreceive
        rw [getSession_eq] at hreceive
        cases hreceive
    · exact Or.inr ⟨set, keys, g₀, r₀, hg₀, hfirst, hloaded.decide hg₀ hjob hstays hnext halone⟩
  | @work fs x conn b act next _ hjob hstays ih =>
    rcases ih with ⟨hun, -, -⟩ | ⟨set, keys, g₀, r₀, hg₀, hfirst, hloaded⟩
    · obtain ⟨_, _, heq, -⟩ := hun.jobs conn _ hjob
      cases heq
    · exact Or.inr ⟨set, keys, g₀, r₀, hg₀, hfirst, hloaded.work hjob hstays⟩
  | @ends fs x conn b p _ hjob hover ih =>
    rcases ih with ⟨hun, -, -⟩ | ⟨set, keys, g₀, r₀, hg₀, hfirst, hloaded⟩
    · obtain ⟨_, _, heq, -⟩ := hun.jobs conn _ hjob
      cases heq
    · exact Or.inr ⟨set, keys, g₀, r₀, hg₀, hfirst, hloaded.ends hjob hover⟩

theorem serveAll_handle (order : List (Framed id)) (w : World) :
    Desk.serveAll (handle statics) order w = handleFrames statics (order.map Framed.toFrame) w := by
  induction order generalizing w with
  | nil => rfl
  | cons f order ih => exact ih _

/-- Loops whose checks have not been over yet have come to nothing. -/
theorem state_of_nil (h : Loops.Run statics (Stays id) Loops.Alone w₀ fs x)
    (hover : ∀ conn, x.jobs conn = none) (hfs : fs = []) : x.state = w₀ := by
  refine (h.of_nil hfs).2.resolve_right ?_
  rintro ⟨conn, job, hjob⟩
  rw [hover] at hjob
  cases hjob

/-- Once nothing is in hand, the frames in an order lead from the session as it was found to what
there is. -/
theorem ordered_of_over (h : Loops.Run statics (Stays id) Loops.Alone w₀ fs x) (howned : Owned w₀)
    (hrow : (w₀.row id).isSome) (hover : ∀ conn, x.jobs conn = none) (hfs : fs ≠ []) :
    ∃ set keys g₀ r₀ seen left, Core.Holds id set keys g₀ ∧
      (Has id set g₀ r₀ w₀ ∨ WillHave id set g₀ r₀ w₀) ∧
      (desk statics id set keys).Ordered g₀ r₀ fs x.state.core seen left := by
  have hfree (conn : ConnId) (job : Job id) (hjob : x.jobs conn = some job) :
      job.admitted = false := by
    rw [hover] at hjob
    cases hjob
  rcases followed h howned hrow with ⟨-, hnil, -⟩ | ⟨set, keys, g₀, r₀, hg₀, hfirst, hloaded⟩
  · exact absurd hnil hfs
  · have hgood : Good set x := by
      intro conn b q hjob
      rw [hover] at hjob
      cases hjob
    obtain ⟨g, seen, left, hordered, hexplained⟩ := hloaded.explained hgood
    rw [hexplained.idle hfree]
    exact ⟨set, keys, g₀, r₀, seen, left, hg₀, hfirst, hordered⟩

theorem core_of_ordered {set : RecentMsgIds} {keys : AesKey × MacKey} {g g₀ : Core}
    {r₀ : List Int64} {seen : Set Core} {left : Set Int64}
    (h : (desk statics id set keys).Ordered g₀ r₀ fs g seen left) (hg₀ : g₀.Holds id set keys)
    (hfirst : Has id set g₀ r₀ w₀ ∨ WillHave id set g₀ r₀ w₀) (hfs : fs ≠ []) :
    ∃ order : List (Framed id), order.Perm fs ∧
      (handleFrames statics (order.map Framed.toFrame) w₀).core = g := by
  obtain ⟨order, hperm, horder⟩ := h.exists_order (serves statics id set keys) hg₀ hfirst
  rcases horder with ⟨rfl, -⟩ | ⟨r, hhas⟩
  · exact absurd hperm.symm.eq_nil hfs
  · refine ⟨order, hperm, ?_⟩
    rw [← serveAll_handle]
    exact hhas.core

/-- Loops that handle frames of one session, the accepted ones one after the other, leave the
database, the cache and the frames sent as handling the same frames one at a time in some order. -/
theorem in_some_order (h : Loops.Run statics (Stays id) Loops.Alone w₀ fs x) (howned : Owned w₀)
    (hrow : (w₀.row id).isSome) (hover : ∀ conn, x.jobs conn = none) :
    ∃ order : List (Framed id), order.Perm fs ∧
      (handleFrames statics (order.map Framed.toFrame) w₀).core = x.state.core := by
  by_cases hfs : fs = []
  · rw [state_of_nil h hover hfs, hfs]
    exact ⟨[], .refl _, rfl⟩
  · obtain ⟨set, keys, g₀, r₀, seen, left, hg₀, hfirst, hordered⟩ :=
      ordered_of_over h howned hrow hover hfs
    exact core_of_ordered hordered hg₀ hfirst hfs

end Runs

namespace Sample

theorem of_first : (frame 0 1 0 0 (.getDialogs {})).Of Sample.id :=
  ⟨by decide +kernel, by decide +kernel, by decide⟩

/-- The first frame of the session, on any connection. -/
def shared (conn : ConnId) : Framed Sample.id :=
  { frame conn 1 0 0 (.getDialogs {}) with
    of := ⟨of_first.long, of_first.names, of_first.encrypted⟩ }

/-- The session as its key exchange has stored it. -/
def stored : FullSession where
  authKeyId := Sample.id
  userId := 0
  serverSalt := 0
  nonce := Vector.replicate 16 0
  serverNonce := Vector.replicate 16 0
  newNonce := Vector.replicate 32 0
  recvSeqNo := -1
  authKey := Vector.replicate 256 0
  clientWriteKey := Vector.replicate 32 0
  clientMacKey := Vector.replicate 32 0
  serverWriteKey := Vector.replicate 32 0
  serverMacKey := Vector.replicate 32 0
  lastMsgId := 0
  sendCounter := 0
  recvCounter := 0
  sendSeqNo := -1
  msgIdCounter := 0

/-- A server that has been started again. -/
def restarted : World := World.init.save stored []

theorem owned_restarted : Owned restarted := ⟨nofun, nofun⟩

/-- Two connections receive a frame each. -/
def receivers [Platform] {id : Int64} (f g : Framed id) (w : World) : Loops id :=
  ((Loops.init w).turn f.conn (some (.checking f f.check)) w).turn g.conn
    (some (.checking g g.check)) w

theorem run_receivers [Platform] (statics : Statics) {id : Int64} (f g : Framed id) (w : World)
    (h : g.conn ≠ f.conn) :
    Loops.Run statics (Stays id) Loops.Alone w [] (receivers f g w) ∧
      Loops.Among [f.conn, g.conn] (receivers f g w) := by
  refine ⟨.start (.start .init rfl rfl) (update_of_ne h _ _) rfl, fun conn hconn => ?_⟩
  obtain ⟨hfirst, hsecond⟩ := not_or.mp (mt List.mem_pair.mpr hconn)
  exact (update_of_ne hsecond _ _).trans (update_of_ne hfirst _ _)

def sharers : Loops Sample.id :=
  letI := platform
  receivers (shared 0) (shared 1) restarted

/-- The second connection checks the frame while the first handles it. -/
def overlapping : List ConnId :=
  [0, 0, 0, 1, 0, 1, 0, 0, 1, 1, 0, 1] ++ List.replicate 16 0

theorem overlapping_ends : letI := platform
    (overlapping.foldlM (Loops.advance statics [0, 1]) ([], sharers)).any (fun s =>
      (s.1.map fun f => f.conn) == [1, 0] && (s.2.jobs 0).isNone && (s.2.jobs 1).isNone) =
        true := by
  decide +kernel

end Sample

theorem in_some_order_overlapping : letI := Sample.platform
    ∃ (fs : List (Framed Sample.id)) (x : Loops Sample.id),
      Loops.Run Sample.statics (Stays Sample.id) Loops.Alone Sample.restarted fs x ∧
      (fs.map fun f => f.conn) = [1, 0] ∧ ∃ order : List (Framed Sample.id), order.Perm fs ∧
        (handleFrames Sample.statics (order.map Framed.toFrame) Sample.restarted).core =
          x.state.core := by
  let _ := Sample.platform
  obtain ⟨s, hs, hends⟩ := (Option.any_eq_true _ _).mp Sample.overlapping_ends
  obtain ⟨hstart, hamong⟩ := Sample.run_receivers Sample.statics (Sample.shared 0)
    (Sample.shared 1) Sample.restarted (by decide)
  obtain ⟨hrun, hamong'⟩ := Loops.run_schedule (s := ([], Sample.sharers)) hstart hamong hs
  rw [Bool.and_eq_true_iff, Bool.and_eq_true_iff] at hends
  obtain ⟨⟨hconns, hzero⟩, hone⟩ := hends
  refine ⟨s.1, s.2, hrun, eq_of_beq hconns, in_some_order hrun Sample.owned_restarted rfl ?_⟩
  apply hamong'.idle
  intro conn hconn
  rcases List.mem_pair.mp hconn with rfl | rfl
  · exact Option.isNone_iff_eq_none.mp hzero
  · exact Option.isNone_iff_eq_none.mp hone

end KoSta.Server
