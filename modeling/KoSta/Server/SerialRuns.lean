import KoSta.MsgId
import KoSta.Server.Serial

/-! Runs in which the server handles one frame at a time. -/
namespace KoSta.Server
open Lib Lib.Prog Tl Crypto Function

variable {w w' : World} {id : Int64}

section Environment

variable [Platform]

theorem keeps_init : Keeps .idle World.init := by
  refine ⟨fun id => ?_, nofun, trivial⟩
  refine ⟨List.Pairwise.nil, nofun, ⟨0, rfl, nofun⟩, List.nil_sublist _, nofun, fun _ => ?_⟩
  exact ⟨[], 0, ⟨rfl, List.Pairwise.nil, nofun⟩, Nat.le_refl 0, nofun⟩

theorem keeps_evict {ph : Phase} (h : Keeps ph w) (id : Int64) : Keeps ph (evict id w) := by
  refine ⟨h.ledger, h.coherent.evict id, ?_⟩
  have hhere := h.here
  cases ph with
  | settled i crypto reserved =>
    refine ⟨hhere.1, hhere.2.1, fun session hs => ?_⟩
    by_cases hi : i = id
    · subst hi
      change update _ _ _ _ = _ at hs
      rw [update_self] at hs
      cases hs
    · refine hhere.2.2 session ?_
      change update _ _ _ _ = _ at hs
      rwa [update_of_ne hi] at hs
  | _ => exact hhere

theorem keeps_restart {ph : Phase} (h : Keeps ph w) : Keeps .idle (restart w) := by
  rw [Keeps, accounts_restart]
  refine ⟨h.ledger, fun id session _ hs => ?_, trivial⟩
  cases hs

end Environment

section Runs

variable [Platform] (statics : Statics)

theorem serial_verified : Pool.Verified (serialRules statics)
    (fun _ ph w w' ph' => ∃ conn, Move conn ph w w' ph') Phase.idle
    (fun phs w => Keeps (phs ()) w) where
  starts := by
    rintro k p ⟨draws, conn, raw, rfl⟩
    exact (obeys_serve statics draws raw).mono_move fun hm => ⟨conn, hm⟩
  move := by
    rintro phs w k w' ph h ⟨conn, hm⟩ -
    change Keeps (update phs () ph ()) w'
    rw [update_self]
    exact keeps_move h hm
  env := by
    rintro phs w w' h ⟨id, rfl⟩
    exact keeps_evict h id
  crash := by
    rintro phs w w' h rfl
    exact keeps_restart h

variable {x : Pool World Stop Unit Unit}

theorem keeps_reachable (h : Pool.Reachable (serialRules statics) World.init x) :
    ∃ ph, Keeps ph x.state ∧ (x.jobs () = none → ph = .idle) := by
  obtain ⟨phs, hkeeps, hfits⟩ := Pool.holds_reachable (serial_verified statics) keeps_init h
  refine ⟨phs (), hkeeps, fun hnone => ?_⟩
  have hfit := hfits ()
  rwa [hnone] at hfit

theorem ledger_reachable (h : Pool.Reachable (serialRules statics) World.init x) (id : Int64) :
    Ledger (x.state.accounts id) := by
  obtain ⟨ph, hkeeps, -⟩ := keeps_reachable statics h
  exact hkeeps.ledger id

/-! ### No frame is dispatched twice -/

/-- The ids of the frames dispatched under a session since its key exchange, oldest first. -/
def dispatched (id : Int64) (w : World) : List Int64 :=
  (dispatchedIds (history id w.trace)).reverse

theorem dispatched_increasing (h : Pool.Reachable (serialRules statics) World.init x)
    (id : Int64) : (dispatched id x.state).Pairwise (· < ·) ∧ (dispatched id x.state).Nodup := by
  have hsorted : (dispatched id x.state).Pairwise (· < ·) :=
    List.pairwise_reverse.mpr (ledger_reachable statics h id).sorted
  exact ⟨hsorted, hsorted.imp Int64.ne_of_lt⟩

end Runs

/-- Two frames, the first of them delivered twice. -/
def Sample.replay : List Frame :=
  [frame 0 1 0 0 (.getDialogs {}), frame 1 1 0 0 (.getDialogs {}), frame 1 2 1 1 (.getDialogs {})]

theorem dispatched_increasing_replay :
    dispatched Sample.id (Sample.run Sample.replay) = [msgId 1 0, msgId 2 1] ∧
      (dispatched Sample.id (Sample.run Sample.replay)).Nodup := by
  refine ⟨?_, ?_⟩
  · decide +kernel
  · have h := Sample.reachable_run Sample.replay
    have hboth := @dispatched_increasing Sample.platform _ _ h Sample.id
    dsimp only at hboth
    exact hboth.2

/-! ### The counters of the responses -/

/-- The clock readings and counters of the responses sent under a session, oldest first. -/
def responses (id : Int64) (w : World) : List (Nat × UInt32) :=
  (stampings (history id w.trace)).reverse

theorem mem_countdown {c : UInt32} {n : Nat} (h : c ∈ countdown n) :
    ∃ i < n, c = UInt32.ofNat i := by
  induction n with
  | zero => cases h
  | succ n ih =>
    rcases List.mem_cons.mp h with rfl | h
    · exact ⟨n, by omega, rfl⟩
    · obtain ⟨i, hi, hc⟩ := ih h
      exact ⟨i, by omega, hc⟩

theorem length_countdown (n : Nat) : (countdown n).length = n := by
  induction n with
  | zero => rfl
  | succ n ih => rw [countdown, List.length_cons, ih]

/-- Before the counter wraps, it has never been as large as now. -/
theorem countdown_decreasing {n : Nat} (h : n ≤ 2 ^ 32) : (countdown n).Pairwise (· > ·) := by
  induction n with
  | zero => exact List.Pairwise.nil
  | succ n ih =>
    refine List.pairwise_cons.mpr ⟨fun c hc => ?_, ih (by omega)⟩
    obtain ⟨i, hi, rfl⟩ := mem_countdown hc
    refine UInt32.lt_iff_toNat_lt.mpr ?_
    rw [UInt32.toNat_ofNat', UInt32.toNat_ofNat']
    omega

theorem responses_counters [Platform] (statics : Statics) {x : Pool World Stop Unit Unit}
    (h : Pool.Reachable (serialRules statics) World.init x) {id : Int64}
    (hfew : (reservedCounters (history id x.state.trace)).length ≤ 2 ^ 32) :
    (responses id x.state).Pairwise fun p q => p.2 < q.2 := by
  obtain ⟨n, hn, -⟩ := (ledger_reachable statics h id).counted
  have hsub := (ledger_reachable statics h id).stamped
  change reservedCounters (history id x.state.trace) = _ at hn
  rw [hn, length_countdown] at hfew
  have hdecreasing := countdown_decreasing hfew
  rw [← hn] at hdecreasing
  exact List.pairwise_reverse.mpr (List.pairwise_map.mp (hdecreasing.sublist hsub))

/-! ### Rows and cache entries -/

/-- A cache entry agrees with its session's row: loaded anew it would be the same, apart from its
recent set. -/
structure Reloads (w : World) (id : Int64) (session : SessionData) : Prop where
  row : ∃ row, w.row id = some row ∧ sessionOfRow id row session.recentMsgIds = session
  reload : ∀ conn mark, ∃ reloaded,
    ((getSession conn id mark).exec (evict id w)).1 = .ok (some reloaded) ∧
      { reloaded with recentMsgIds := session.recentMsgIds } = session

section Reload

variable [Platform] (statics : Statics) {x : Pool World Stop Unit Unit} {session : SessionData}

/-- Between two frames a session whose last accepted frame has been answered can be reloaded. -/
theorem reloads_of_settled (h : Pool.Reachable (serialRules statics) World.init x)
    (hidle : x.jobs () = none) (hcache : x.state.state.cache id = some session)
    (hsettled : Settled (history id x.state.trace)) : Reloads x.state id session := by
  obtain ⟨ph, hkeeps, hph⟩ := keeps_reachable statics h
  cases hph hidle
  obtain ⟨row, hrow, -, hfull⟩ := hkeeps.coherent id session nofun hcache
  have heq : sessionOfRow id row session.recentMsgIds = session := hfull hsettled
  refine ⟨⟨row, hrow, heq⟩, fun conn mark => ?_⟩
  have hmiss := exec_getSession_miss (w := evict id x.state) conn mark (evict_cache_self id _) hrow
  exact ⟨_, congrArg Prod.fst hmiss, heq⟩

end Reload

theorem Reloads.recvCounter {session : SessionData} (h : Reloads w id session) :
    (w.row id).map FullSession.recvCounter = some session.crypto.recvCounter := by
  obtain ⟨row, hrow, heq⟩ := h.row
  rw [hrow, ← heq]
  rfl

/-- The entry a run of the sample leaves, if it leaves one. -/
theorem Sample.exists_entry (frames : List Frame)
    (h : ((Sample.run frames).state.cache Sample.id).isSome = true) :
    ∃ session, (Sample.run frames).state.cache Sample.id = some session :=
  Option.isSome_iff_exists.mp h

theorem reloads_of_settled_answered : ∃ session,
    (Sample.run Sample.replay).state.cache Sample.id = some session ∧
      Reloads (Sample.run Sample.replay) Sample.id session := by
  obtain ⟨session, hs⟩ := Sample.exists_entry Sample.replay (by decide +kernel)
  have hsettled : Settled (history Sample.id (Sample.run Sample.replay).trace) := by
    decide +kernel
  have h := Sample.reachable_run Sample.replay
  have hreloads := @reloads_of_settled Sample.id Sample.platform _ _ session h rfl
  dsimp only at hreloads
  exact ⟨session, hs, hreloads hs hsettled⟩

/-- A run that ends with an acknowledgement, which gets no response. -/
def Sample.acknowledged : List Frame := [frame 0 1 0 0 (.sendMessageAck ⟨⟨1⟩⟩)]

/-- The cipher's counter has moved in the entry but not in the row. -/
theorem not_reloads_acknowledged : ¬ ∀ (_ : Platform) (statics : Statics)
    (x : Pool World Stop Unit Unit) (id : Int64) (session : SessionData),
    Pool.Reachable (serialRules statics) World.init x → x.jobs () = none →
      x.state.state.cache id = some session → Reloads x.state id session := by
  intro h
  obtain ⟨session, hs⟩ := Sample.exists_entry Sample.acknowledged (by decide +kernel)
  have hreloads := h Sample.platform _ _ Sample.id session
    (Sample.reachable_run Sample.acknowledged) rfl
  dsimp only at hreloads
  have hcounter := (hreloads hs).recvCounter
  have hrow : ((Sample.run Sample.acknowledged).row Sample.id).map FullSession.recvCounter =
    some 0 := by decide +kernel
  have hentry : ((Sample.run Sample.acknowledged).state.cache Sample.id).map
    (fun s => s.crypto.recvCounter) = some 1 := by decide +kernel
  rw [hs] at hentry
  rw [hrow] at hcounter
  exact absurd (hcounter.trans hentry) (by decide)

end KoSta.Server
