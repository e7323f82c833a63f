import KoSta.Server.Verdicts

/-! Frames of a session that come one at a time. -/
namespace KoSta.Server
open Lib Lib.Prog Tl Crypto Function

/-- The recent set after an identifier that it has let pass. -/
def remembered (m : Int64) (r : List Int64) : List Int64 := (m :: r).take recentCapacity

theorem mem_remembered_self (m : Int64) (r : List Int64) : m ∈ remembered m r := List.mem_cons_self

theorem mem_of_remembered {m n : Int64} {r : List Int64} (h : n ∈ remembered m r) : n = m ∨ n ∈ r :=
  List.mem_cons.mp (List.mem_of_mem_take h)

section OneAtATime

variable [Platform] {statics : Statics} {id : Int64} {set : RecentMsgIds} {keys : AesKey × MacKey}
variable {w : World} {g : Core} {r : List Int64} {session : SessionData}
  {f : Framed id} {b : Checked}
variable {P : World → Prop}

/-! ### Turns that run alone -/

omit [Platform] in
theorem core_pass (conn : ConnId) (i : Int64) (session : SessionData) (m : Int64) :
    (w.pass conn i session m).core = w.core := rfl

/-- A frame that is turned away leaves no more than the record of that. -/
theorem rest_turned (statics : Statics) (f : Frame) (hb : b.passed = false) (hne : b ≠ .unknown) :
    ∃ result, f.rest statics b = record (.finished f.conn result) := by
  cases b with
  | unknown => exact absurd rfl hne
  | ended e => exact ⟨.error e, rfl⟩
  | rejected reason => exact ⟨.ok (.rejected reason), rfl⟩
  | admitted a => cases hb

/-- The process with this core and this recent set of the session. -/
structure Has (id : Int64) (set : RecentMsgIds) (g : Core) (r : List Int64) (w : World) : Prop where
  core : w.core = g
  recents : w.state.recents set = r

/-- The same of a process that has yet to load the session. -/
structure WillHave (id : Int64) (set : RecentMsgIds) (g : Core) (r : List Int64) (w : World) :
    Prop where
  miss : w.state.cache id = none
  row : ∃ full, w.row id = some full ∧ g = (w.load id full []).core
  set : w.state.nextRecent = set
  recents : r = []

/-- Whether it has to be loaded or not, the checks see the session. -/
theorem exec_check (h : Has id set g r w ∨ WillHave id set g r w)
    (hentry : g.cache id = some session) :
    ∃ w₁, Has id set g r w₁ ∧
      f.check.exec w = ((f.judge session).ask f.conn f.id session).exec w₁ := by
  have hid : f.id = id := f.of.names
  have hreceive {w : World} (hw : Has id set g r w) : ∃ w₁, Has id set g r w₁ ∧
      f.receive.exec w = ((f.judge session).ask f.conn f.id session).exec w₁ := by
    have hcache : w.state.cache f.id = some session := by
      rw [hid]
      exact (congrFun (congrArg Core.cache hw.core) id).trans hentry
    refine ⟨w.log [.lookedUp f.conn f.id session], ⟨hw.core, hw.recents⟩, ?_⟩
    unfold Frame.receive
    rw [exec_bind, exec_getSession_hit _ _ hcache]
    rfl
  unfold Frame.check
  rw [exec_bind]
  rcases h with h | h
  · have hcache : w.state.cache f.id = some session := by
      rw [hid]
      exact (congrFun (congrArg Core.cache h.core) id).trans hentry
    rw [exec_getSession_hit _ _ hcache]
    exact hreceive (w := w.log []) ⟨h.core, h.recents⟩
  · obtain ⟨full, hrow, rfl⟩ := h.row
    have hmiss : w.state.cache f.id = none := by rw [hid]; exact h.miss
    have hrow : w.row f.id = some full := by rw [hid]; exact hrow
    rw [exec_getSession_miss _ _ hmiss hrow]
    refine hreceive (w := w.load f.id full _) ⟨?_, ?_⟩
    · rw [hid]
      rfl
    · rw [h.recents, ← h.set]
      exact update_self _ _ _

omit [Platform] in
/-- The replay check, run alone. -/
theorem exec_ask (conn : ConnId) (i : Int64) (session : SessionData) (m : Int64) (b : Checked) :
    ((Judged.asks m b).ask conn i session).exec w =
      if m ∈ w.state.recents session.recentMsgIds then (.ok (.rejected .replayed), w)
      else (.ok b, w.pass conn i session m) := by
  change (recordMsgId conn i session m >>= fun fresh =>
    if fresh = true then pure b else pure (.rejected .replayed)).exec w = _
  rw [recordMsgId_eq]
  unfold exec
  by_cases h : m ∈ w.state.recents session.recentMsgIds
  · simp only [h, if_true, not_true_eq_false, decide_false]
    rfl
  · simp only [h, if_false, not_false_eq_true, decide_true]
    rfl

variable (statics)

/-- One frame after the other. -/
def handle (f : Framed id) (w : World) : World :=
  ((serve statics f.draws f.conn f.raw).exec w).2

theorem handle_eq (h : Has id set g r w ∨ WillHave id set g r w)
    (hentry : g.cache id = some session) (hask : ∀ w₁, Has id set g r w₁ →
      ∃ w₂, ((f.judge session).ask f.conn f.id session).exec w₁ = (.ok b, w₂) ∧ P w₂) :
    ∃ w₂, P w₂ ∧ handle statics f w = ((f.rest statics b).exec w₂).2 := by
  obtain ⟨w₁, hw₁, hcheck⟩ := exec_check (f := f) h hentry
  obtain ⟨w₂, hask, hw₂⟩ := hask w₁ hw₁
  refine ⟨w₂, hw₂, ?_⟩
  unfold handle
  rw [Frame.serve_eq f.of, exec_bind, hcheck, hask]

variable {statics}

omit [Platform] in
theorem Has.finished (h : Has id set g r w) (conn : ConnId) (result : Except Stop Verdict) :
    Has id set g r ((record (.finished conn result)).exec w).2 := ⟨h.core, h.recents⟩

/-- A frame that is turned away whatever the recent set holds. -/
theorem handle_declined (h : Has id set g r w ∨ WillHave id set g r w)
    (hg : g.Holds id set keys) (hjudge : g.judge f = none) :
      Has id set g r (handle statics f w) := by
  obtain ⟨session, hentry, -⟩ := hg
  rw [judge_of_entry hentry] at hjudge
  obtain ⟨b, hover, hb, hne⟩ := Frame.verdict_none hjudge
  have hask (w₁ : World) (hw₁ : Has id set g r w₁) :
      ∃ w₂, ((f.judge session).ask f.conn f.id session).exec w₁ = (.ok b, w₂) ∧
        Has id set g r w₂ := by
    rw [hover]
    exact ⟨w₁, rfl, hw₁⟩
  obtain ⟨w₂, hw₂, heq⟩ := handle_eq statics h hentry hask
  obtain ⟨result, hrest⟩ := rest_turned statics f.toFrame hb hne
  rw [heq, hrest]
  exact hw₂.finished _ _

/-- A frame whose identifier has been there. -/
theorem handle_again {ok : Bool} (h : Has id set g r w ∨ WillHave id set g r w)
    (hg : g.Holds id set keys) (hjudge : g.judge f = some ok) (hmem : f.msgId keys ∈ r) :
    Has id set g r (handle statics f w) := by
  obtain ⟨session, hentry, hset, hkeys, -⟩ := hg
  rw [judge_of_entry hentry] at hjudge
  obtain ⟨-, b, hasks, -, -⟩ := Frame.verdict_some hjudge
  have hask (w₁ : World) (hw₁ : Has id set g r w₁) :
      ∃ w₂, ((f.judge session).ask f.conn f.id session).exec w₁ = (.ok (.rejected .replayed), w₂) ∧
        Has id set g r w₂ := by
    have hseen : f.msgId session.keys ∈ w₁.state.recents session.recentMsgIds := by
      rw [hset, hw₁.recents, hkeys]
      exact hmem
    rw [hasks, exec_ask, if_pos hseen]
    exact ⟨w₁, rfl, hw₁⟩
  obtain ⟨w₂, hw₂, heq⟩ := handle_eq statics h hentry hask
  rw [heq]
  exact hw₂.finished _ _

variable (statics)

/-- A frame that the replay check lets pass. -/
theorem handle_fresh {ok : Bool} (h : Has id set g r w ∨ WillHave id set g r w)
    (hg : g.Holds id set keys) (hjudge : g.judge f = some ok) (hmem : f.msgId keys ∉ r) :
    ∃ session b w₂, g.cache id = some session ∧ f.judge session = .asks (f.msgId keys) b ∧
      b.passed = ok ∧ b ≠ .unknown ∧ Has id set g (remembered (f.msgId keys) r) w₂ ∧
      handle statics f w = ((f.rest statics b).exec w₂).2 := by
  obtain ⟨session, hentry, hset, hkeys, -⟩ := hg
  rw [judge_of_entry hentry] at hjudge
  obtain ⟨-, b, hasks, hb, hne⟩ := Frame.verdict_some hjudge
  rw [hkeys] at hasks
  have hask (w₁ : World) (hw₁ : Has id set g r w₁) :
      ∃ w₂, ((f.judge session).ask f.conn f.id session).exec w₁ = (.ok b, w₂) ∧
        Has id set g (remembered (f.msgId keys) r) w₂ := by
    have hnew : f.msgId keys ∉ w₁.state.recents session.recentMsgIds := by
      rw [hset, hw₁.recents]
      exact hmem
    rw [hasks, exec_ask, if_neg hnew]
    refine ⟨_, rfl, hw₁.core, ?_⟩
    change update _ _ _ _ = _
    rw [hset, update_self, hw₁.recents]
    rfl
  obtain ⟨w₂, hw₂, heq⟩ := handle_eq statics h hentry hask
  exact ⟨session, b, w₂, hentry, hasks, hb, hne, hw₂, heq⟩

variable {statics}

theorem Has.rest (h : Has id set g r w) (hnext : set < g.nextRecent) (b : Checked) :
    Has id set ((f.rest statics b).exec g.world).2.core r ((f.rest statics b).exec w).2 := by
  have hblind : Blind id set (f.rest statics b) := blind_rest statics f.toFrame b
  refine ⟨(hblind.exec_eq (h.core.trans (core_world g).symm)).2, ?_⟩
  have hspares := hblind.always.exec (fun w => Spares.refl w) (fun h h' => h.trans h') w
  rw [hspares.recents, h.recents]
  rw [← h.core] at hnext
  exact hnext

/-- A frame that is refused behind the replay check. -/
theorem handle_refused (h : Has id set g r w ∨ WillHave id set g r w) (hg : g.Holds id set keys)
    (hjudge : g.judge f = some false) (hmem : f.msgId keys ∉ r) :
    Has id set g (remembered (f.msgId keys) r) (handle statics f w) := by
  obtain ⟨session, b, w₂, -, -, hb, hne, hw₂, heq⟩ := handle_fresh statics h hg hjudge hmem
  obtain ⟨result, hrest⟩ := rest_turned statics f.toFrame hb hne
  rw [heq, hrest]
  exact hw₂.finished _ _

/-- A frame that is accepted. -/
theorem handle_granted (h : Has id set g r w ∨ WillHave id set g r w) (hg : g.Holds id set keys)
    (hjudge : g.judge f = some true) (hmem : f.msgId keys ∉ r) :
    Has id set (g.after statics f) (remembered (f.msgId keys) r) (handle statics f w) := by
  obtain ⟨session, b, w₂, hentry, hasks, hb, -, hw₂, heq⟩ :=
    handle_fresh statics h hg hjudge hmem
  obtain ⟨-, -, -, -, hnext⟩ := hg
  obtain ⟨a, rfl⟩ := Checked.eq_admitted hb
  have hadmission : f.admission session = some a := by
    unfold Frame.admission
    rw [hasks]
    rfl
  rw [heq, after_of_entry hentry hadmission]
  exact hw₂.rest hnext _

variable (statics id set keys)

/-- Handling one frame after the other, the server is a desk for them. -/
theorem serves : (desk statics id set keys).Serves (handle statics)
    (fun g r w => Has id set g r w ∨ WillHave id set g r w) (Has id set) where
  weaken h := Or.inl h
  declined hg h hjudge := handle_declined h hg hjudge
  again {g r w f ok} hg h hjudge hmem := by
    rw [note_desk] at hmem
    exact handle_again h hg hjudge hmem
  refused {g r w f} hg h hjudge hmem := by
    rw [note_desk] at hmem ⊢
    exact ⟨_, handle_refused h hg hjudge hmem, mem_remembered_self _ _, fun _ => mem_of_remembered⟩
  granted {g r w f} hg h hjudge hmem _ := by
    rw [note_desk] at hmem ⊢
    exact ⟨_, handle_granted h hg hjudge hmem, fun _ => mem_of_remembered⟩

end OneAtATime

end KoSta.Server
