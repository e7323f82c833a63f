import KoSta.Server.BoundedCache
import KoSta.Server.Checks
import KoSta.Server.Holdings

/-! The server has its session cache by the two methods only. -/
namespace KoSta.Server
open Lib Lib.Prog Tl Crypto Function

variable {α β : Type} {conn : ConnId} {id : Int64} {session : SessionData}

/-! ### Putting code together -/

namespace CacheUser

def bind : CacheUser α → (α → CacheUser β) → CacheUser β
  | .done a, k => k a
  | .fail e, _ => .fail e
  | .aside act next, k => .aside act fun r => (next r).bind k
  | .getSession conn id mark next, k => .getSession conn id mark fun found => (next found).bind k
  | .updateSession conn id session saved cached next, k =>
    .updateSession conn id session saved cached (next.bind k)

def attempt : CacheUser α → CacheUser (Except Stop α)
  | .done a => .done (.ok a)
  | .fail e => .done (.error e)
  | .aside act next => .aside act fun r => (next r).attempt
  | .getSession conn id mark next => .getSession conn id mark fun found => (next found).attempt
  | .updateSession conn id session saved cached next =>
    .updateSession conn id session saved cached next.attempt

theorem onMap_bind (c : CacheUser α) (k : α → CacheUser β) :
    (c.bind k).onMap = c.onMap >>= fun a => (k a).onMap := by
  induction c with
  | done a => rfl
  | fail e => rfl
  | aside act next ih => exact congrArg (Prog.atomic _) (funext fun w => ih w.rest)
  | getSession conn id mark next ih =>
    exact (bind_congr ih).trans (bind_assoc (Server.getSession conn id mark) _ _).symm
  | updateSession conn id session saved cached next ih =>
    have hassoc := bind_assoc (Server.updateSession conn id session saved cached)
      (fun _ => next.onMap) fun a => (k a).onMap
    exact (bind_congr fun _ => ih).trans hassoc.symm

theorem onMap_attempt (c : CacheUser α) :
    c.attempt.onMap = (c.onMap.attempt : ServerM (Except Stop α)) := by
  induction c with
  | done a => rfl
  | fail e => rfl
  | aside act next ih => exact congrArg (Prog.atomic _) (funext fun w => ih w.rest)
  | getSession conn id mark next ih =>
    unfold attempt onMap
    rw [attempt_getSession]
    exact bind_congr ih
  | updateSession conn id session saved cached next ih =>
    unfold attempt onMap
    rw [ih]
    rfl

end CacheUser

/-- Some code that has the cache by its methods does this. -/
def Encapsulated (p : ServerM α) : Prop := ∃ c : CacheUser α, c.onMap = p

namespace Encapsulated

variable {p q : ServerM α} {k : α → ServerM β}

theorem pure (a : α) : Encapsulated (pure a) := ⟨.done a, rfl⟩

theorem fail (e : Stop) : Encapsulated (.fail e : ServerM α) := ⟨.fail e, rfl⟩

theorem bind (hp : Encapsulated p) (hk : ∀ a, Encapsulated (k a)) : Encapsulated (p >>= k) := by
  obtain ⟨c, rfl⟩ := hp
  choose user huser using hk
  refine ⟨c.bind user, ?_⟩
  rw [CacheUser.onMap_bind]
  exact bind_congr huser

theorem attempt (hp : Encapsulated p) : Encapsulated (p.attempt : ServerM (Except Stop α)) := by
  obtain ⟨c, rfl⟩ := hp
  exact ⟨c.attempt, c.onMap_attempt⟩

theorem ite {c : Prop} [Decidable c] (hp : Encapsulated p) (hq : Encapsulated q) :
    Encapsulated (if c then p else q) := by
  split
  · exact hp
  · exact hq

/-- The cache is as it was. -/
def KeepsCache (w w' : World) : Prop := w'.state.cache = w.state.cache

/-- Code that neither reads nor writes the cache need not have it. -/
theorem of_through (hp : p.Through World.rest KeepsCache) : Encapsulated p := by
  induction p with
  | done a => exact pure a
  | fail e => exact fail e
  | atomic act next ih =>
    obtain ⟨hall, hsame⟩ := hp
    choose user huser using fun w => ih w (hall w).2
    let blank (r : Rest) : World := r.world fun _ => none
    refine ⟨.aside (fun r => (act (blank r)).rest) fun r => user (blank r), ?_⟩
    refine congrArg₂ Prog.atomic (funext fun w => ?_) (funext fun w => ?_)
    · beta_reduce
      have hrest := (hsame w (blank w.rest) rfl).1
      have hcache : (act w).state.cache = w.state.cache := (hall w).1
      rw [← hrest, ← hcache]
      rfl
    · rw [huser]
      exact (hsame w (blank w.rest) rfl).2.symm

/-- Code that sees the holdings alone does not see the cache. -/
theorem of_plainly (hp : Plainly p) : Encapsulated p := by
  refine of_through (hp.imp (fun hquiet => hquiet.cache) ?_ ?_)
  · intro w w' heq
    change holdings (w.rest.world fun _ => none) = holdings (w'.rest.world fun _ => none)
    rw [heq]
  · intro w w' v v' hquiet hquiet' heq hholds
    obtain ⟨hbare, hothers⟩ := Prod.mk.inj hholds
    have hsessions : v.state.db.sessions = v'.state.db.sessions :=
      (hquiet.sessions.trans (congrArg (fun r => r.db.sessions) heq)).trans hquiet'.sessions.symm
    have hdb : v.state.db = v'.state.db := by
      change { v.state.db.bare with sessions := v.state.db.sessions } = _
      rw [hbare, hsessions]
      rfl
    have hrecents : v.state.recents = v'.state.recents :=
      (hquiet.recents.trans (congrArg Rest.recents heq)).trans hquiet'.recents.symm
    have hnext : v.state.nextRecent = v'.state.nextRecent :=
      (hquiet.nextRecent.trans (congrArg Rest.nextRecent heq)).trans hquiet'.nextRecent.symm
    have htrace : v.trace = v'.trace :=
      (hquiet.trace.trans (congrArg Rest.trace heq)).trans hquiet'.trace.symm
    unfold World.rest
    rw [hdb, hrecents, hnext, htrace, (Prod.mk.inj hothers).2]

end Encapsulated

theorem encapsulated_getSession (mark : SessionData → List Event) :
    Encapsulated (getSession conn id mark) :=
  ⟨.getSession conn id mark .done, bind_pure _⟩

theorem encapsulated_updateSession (session : SessionData) (saved cached : List Event) :
    Encapsulated (updateSession conn id session saved cached) :=
  ⟨.updateSession conn id session saved cached (.done ()), rfl⟩

/-- A section that leaves the cache alone, whatever is in it. -/
theorem encapsulated_locked {f : State → (α × List Event) × State}
    (h : ∀ s cache, f { s with cache } = ((f s).1, { (f s).2 with cache })) :
    Encapsulated (locked f) := by
  have hkeeps (s : State) : (f s).2.cache = s.cache := by
    have hsame := h s s.cache
    exact congrArg (fun r => r.2.cache) hsame
  refine Encapsulated.of_through (Through.atomically (fun w => hkeeps w.state) fun w w' heq => ?_)
  have hstate : { w'.state with cache := w.state.cache } = w.state := by
    change (w'.rest.world w.state.cache).state = w.state
    rw [← heq]
    rfl
  have hafter := h w'.state w.state.cache
  rw [hstate] at hafter
  have htrace : w.trace = w'.trace := congrArg Rest.trace heq
  dsimp only
  rw [hafter, htrace]
  exact ⟨rfl, rfl⟩

theorem encapsulated_sql {f : Statement α} : Encapsulated (sql f) := by
  refine Encapsulated.bind (encapsulated_locked fun _ _ => rfl) fun result => ?_
  cases result with
  | ok a => exact Encapsulated.pure a
  | error e => exact Encapsulated.fail _

theorem encapsulated_orPanic (x : Option α) : Encapsulated (orPanic x) := by
  cases x with
  | none => exact Encapsulated.fail _
  | some a => exact Encapsulated.pure a

theorem encapsulated_recordMsgId (session : SessionData) (msgId : Int64) :
    Encapsulated (recordMsgId conn id session msgId) := by
  refine encapsulated_locked fun s cache => ?_
  dsimp only
  split <;> rfl

theorem encapsulated_transportSend (data : Bytes) (events : List Event) :
    Encapsulated (transportSend conn data events) := by
  unfold transportSend
  split
  · exact encapsulated_locked fun _ _ => rfl
  · exact Encapsulated.fail _

/-! ### Turns -/

section Turns

theorem encapsulated_addressedSession (raw : Bytes) :
    Encapsulated (addressedSession conn raw) := by
  refine Encapsulated.ite (Encapsulated.ite (Encapsulated.pure _) ?_) (Encapsulated.pure _)
  refine (encapsulated_getSession _).bind fun found => ?_
  cases found <;> exact Encapsulated.pure _

theorem encapsulated_storeCounters (crypto : SessionCrypto) :
    Encapsulated (storeCounters conn id crypto) := by
  refine (encapsulated_getSession _).bind fun found => ?_
  cases found with
  | none => exact Encapsulated.pure _
  | some session => exact encapsulated_sql.bind fun _ => encapsulated_updateSession _ _ _

variable [Platform]

theorem encapsulated_handleSignUp (draws : Draws) (authKeyId : Option Int64) (req : SignUp) :
    Encapsulated (handleSignUp draws conn authKeyId req) := by
  refine encapsulated_sql.bind fun userId => ?_
  cases authKeyId with
  | none => exact Encapsulated.pure _
  | some id =>
    refine encapsulated_sql.bind fun _ => (encapsulated_getSession _).bind fun found => ?_
    cases found with
    | none => exact Encapsulated.pure _
    | some session => exact (encapsulated_updateSession _ _ _).bind fun _ => Encapsulated.pure _

theorem encapsulated_reserveResponse : Encapsulated (reserveResponse conn id) := by
  refine (encapsulated_getSession _).bind fun found => ?_
  cases found with
  | none => exact Encapsulated.pure _
  | some session =>
    refine (encapsulated_orPanic _).bind fun seq => (encapsulated_updateSession _ _ _).bind
      fun _ => ?_
    exact encapsulated_sql.bind fun _ => Encapsulated.pure _

theorem encapsulated_handleSetClientDhParams (statics : Statics) (draws : Draws)
    (req : SetClientDHParams) :
    Encapsulated (handleSetClientDhParams statics draws conn req) := by
  refine Encapsulated.bind (encapsulated_locked fun _ _ => rfl) fun _ => ?_
  refine Encapsulated.bind (encapsulated_locked fun _ _ => rfl) fun entry => ?_
  cases entry with
  | none => exact Encapsulated.fail _
  | some entry =>
    refine (Encapsulated.of_plainly (plain_ofCrypto _)).bind fun decrypted => ?_
    refine (Encapsulated.of_plainly (plain_readFrom _ _)).bind fun parsed => ?_
    obtain ⟨obj, rest⟩ := parsed
    dsimp only
    split
    · refine Encapsulated.ite (Encapsulated.fail _) ?_
      split
      · exact Encapsulated.fail _
      · refine Encapsulated.bind (encapsulated_locked fun _ _ => rfl) fun _ => ?_
        refine Encapsulated.bind (encapsulated_locked fun _ _ => rfl) fun recent => ?_
        refine (encapsulated_updateSession _ _ _).bind fun _ => ?_
        exact Encapsulated.bind (encapsulated_locked fun _ _ => rfl) fun _ => Encapsulated.pure _
    · exact Encapsulated.fail _

theorem encapsulated_handleRequest (statics : Statics) (draws : Draws) (obj : TlObject)
    (authKeyId : Option Int64) :
    Encapsulated (handleRequest statics draws conn obj authKeyId) := by
  cases authKeyId with
  | some id =>
    by_cases hsign : ∃ req, obj = .signUp req
    · obtain ⟨req, rfl⟩ := hsign
      exact encapsulated_handleSignUp draws (some id) req
    · by_cases hset : ∃ req, obj = .setClientDHParams req
      · obtain ⟨req, rfl⟩ := hset
        exact encapsulated_handleSetClientDhParams statics draws req
      · exact Encapsulated.of_plainly (plain_handleRequest id statics draws conn
          (fun req heq => hsign ⟨req, heq⟩) fun req heq => hset ⟨req, heq⟩)
  | none =>
    cases obj with
    | reqPq req =>
      have hplain : Plainly (handleReqPq statics draws req) := (plain_orSearching _).bind fun _ =>
        (plain_orSearching _).bind fun _ => Through.pure _
      exact Encapsulated.of_plainly hplain
    | reqDHParams req =>
      exact Encapsulated.of_plainly (plain_handleReqDhParams statics draws req)
    | setClientDHParams req => exact encapsulated_handleSetClientDhParams statics draws req
    | signUp req =>
      have hsign : Encapsulated (handleSignUp draws conn none req) :=
        encapsulated_handleSignUp draws none req
      exact hsign
    | _ => exact Encapsulated.fail _

theorem encapsulated_respond (draws : FrameDraws) (session : Option FrameSession)
    (data : Bytes) : Encapsulated (respond draws conn session data) := by
  cases session with
  | none => exact encapsulated_transportSend data []
  | some session =>
    refine encapsulated_reserveResponse.bind fun reserved => ?_
    refine (encapsulated_orPanic _).bind fun sealed => ?_
    refine (encapsulated_storeCounters _).bind fun _ => ?_
    exact encapsulated_transportSend _ _

theorem encapsulated_dispatch (statics : Statics) (draws : FrameDraws)
    (session : Option FrameSession) (tlData : Bytes) :
    Encapsulated (dispatch statics draws conn session tlData) := by
  unfold dispatch
  split
  · exact Encapsulated.pure _
  · exact Encapsulated.fail _
  · refine Encapsulated.bind (encapsulated_locked fun _ _ => rfl) fun _ => ?_
    refine (encapsulated_handleRequest statics draws.handler _ _).bind fun reply => ?_
    cases reply with
    | none => exact Encapsulated.pure _
    | some data =>
      exact (encapsulated_respond draws session data).bind fun _ => Encapsulated.pure _

theorem encapsulated_acceptMessage (now : Nat) (crypto : SessionCrypto) (plaintext : Bytes) :
    Encapsulated (acceptMessage now conn id session crypto plaintext) := by
  refine (Encapsulated.of_plainly (plain_readFrom _ _)).bind fun header => ?_
  obtain ⟨⟨msgId, seqNo⟩, tlData⟩ := header
  refine Encapsulated.ite (Encapsulated.pure _) ?_
  refine (encapsulated_recordMsgId session msgId).bind fun _ => ?_
  refine Encapsulated.ite (Encapsulated.pure _) ?_
  refine (encapsulated_orPanic _).bind fun _ => Encapsulated.ite (Encapsulated.pure _) ?_
  refine (encapsulated_orPanic _).bind fun _ => Encapsulated.ite (Encapsulated.pure _) ?_
  refine Encapsulated.bind ?_ fun _ => Encapsulated.pure _
  refine encapsulated_sql.bind fun _ => encapsulated_sql.bind fun _ => ?_
  exact encapsulated_updateSession _ _ _

theorem encapsulated_receiveEncrypted (now : Nat) (raw : Bytes) :
    Encapsulated (receiveEncrypted now conn id raw) := by
  refine (encapsulated_getSession _).bind fun found => ?_
  cases found with
  | none => exact Encapsulated.fail _
  | some session =>
    refine Encapsulated.ite (Encapsulated.pure _) ?_
    split
    · exact Encapsulated.fail _
    · exact Encapsulated.pure _
    · exact encapsulated_acceptMessage now _ _

/-- A turn has the cache by its methods. -/
theorem encapsulated_serve (statics : Statics) (draws : FrameDraws) (conn : ConnId)
    (raw : Bytes) : Encapsulated (serve statics draws conn raw) := by
  have hframe : Encapsulated (handleFrame statics draws conn raw) := by
    refine (encapsulated_addressedSession raw).bind fun found => ?_
    cases found with
    | none => exact encapsulated_dispatch statics draws none raw
    | some id =>
      refine (encapsulated_receiveEncrypted draws.now raw).bind fun received => ?_
      cases received with
      | error reason => exact Encapsulated.pure _
      | ok accepted => exact encapsulated_dispatch statics draws (some accepted.2) accepted.1
  exact hframe.attempt.bind fun _ => encapsulated_locked fun _ _ => rfl

end Turns

/-! ### Runs -/

section Runs

variable [Platform] {statics : Statics}

/-- The process can take the turn of every frame, and whatever it reaches is reached when the cache
may drop anything at any time. -/
theorem process_refines :
    (∀ draws conn raw, ∃ p, (processRules statics).starts conn p ∧
      p.Follows Process.world Evicts (serve statics draws conn raw)) ∧
    ∀ x, Pool.Reachable (processRules statics) Process.init x →
      ∃ y, Pool.Reachable (concurrentRules statics fun _ _ => True) World.init y ∧
        y.state = x.state.world := by
  constructor
  · intro draws conn raw
    obtain ⟨c, hc⟩ := encapsulated_serve statics draws conn raw
    exact ⟨c.onCache, ⟨draws, raw, c, hc, rfl⟩, hc ▸ c.follows⟩
  · intro x h
    obtain ⟨y, hy, hmatches⟩ := Pool.matches_reachable (processRules_refines statics) h
    exact ⟨y, hy, hmatches.state⟩

/-- The turn of a frame, as code that has the cache by its methods. -/
def IsTurn (statics : Statics) (c : CacheUser Unit) (f : Frame) : Prop :=
  c.onMap = serve statics f.draws f.conn f.raw

/-- The process takes one turn after the other. -/
def Process.turns (cs : List (CacheUser Unit)) (s : Process) : Process :=
  cs.foldl (fun s c => (c.onCache.exec s).2) s

theorem exists_turns (statics : Statics) (frames : List Frame) :
    ∃ cs, List.Forall₂ (IsTurn statics) cs frames := by
  induction frames with
  | nil => exact ⟨[], .nil⟩
  | cons f frames ih =>
    obtain ⟨c, hc⟩ := encapsulated_serve statics f.draws f.conn f.raw
    obtain ⟨cs, hcs⟩ := ih
    exact ⟨c :: cs, .cons hc hcs⟩

theorem reachable_turns {cs : List (CacheUser Unit)} {frames : List Frame}
    (hcs : List.Forall₂ (IsTurn statics) cs frames) {s : Process}
    (h : Pool.Reachable (processRules statics) Process.init (Pool.init s)) :
    Pool.Reachable (processRules statics) Process.init (Pool.init (s.turns cs)) := by
  induction hcs generalizing s with
  | nil => exact h
  | @cons c f cs frames hc _ ih =>
    have hall : c.onCache.Always fun _ _ => True → True ∧ True :=
      Always.of_forall (fun _ _ _ => ⟨trivial, trivial⟩) _
    exact ih (Pool.reachable_exec h (k := f.conn) ⟨f.draws, f.raw, c, hc, rfl⟩ hall trivial)

end Runs

/-- A key exchange and a frame of its session, on the process and on the model. -/
theorem process_refines_frames : letI := Sample.platform
    let frames := Sample.exchange ++ [Sample.frame 0 1 0 0 (.getDialogs {})]
    ∃ cs, List.Forall₂ (IsTurn Sample.statics) cs frames ∧
      ∃ y, Pool.Reachable (concurrentRules Sample.statics fun _ _ => True) World.init y ∧
        y.state = (Process.init.turns cs).world := by
  let _ := Sample.platform
  intro frames
  obtain ⟨cs, hcs⟩ := exists_turns Sample.statics frames
  exact ⟨cs, hcs, process_refines.2 _ (reachable_turns hcs .init)⟩

end KoSta.Server
