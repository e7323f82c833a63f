import KoSta.Server.SerialRuns

/-! No nonce is used for two responses of a session. -/
namespace KoSta.Server
open Lib Tl Crypto

/-- The responses handed to connections under a session, oldest first. -/
def responseFrames (id : Int64) (w : World) : List Bytes :=
  (sealedFrames (history id w.trace)).reverse

/-- Nonces whose first bytes increase are different. -/
theorem nodup_nonces {nonces : List Nonce} (h : (nonces.map noncePrefix).Pairwise (· < ·)) :
    nonces.Nodup := by
  apply h.of_map
  intro nonce nonce' hlt heq
  rw [heq] at hlt
  exact Nat.lt_irrefl _ hlt

section Few

variable [Platform] {events : List Event} {rs : List Response} {m n : Nat}

theorem Sealing.prefixes (h : Sealing events rs m n) (hm : m < 2 ^ 31) :
    ((sealedFrames events).map frameNonce).map noncePrefix = rs.map Response.count := by
  rw [h.frames, List.map_map, List.map_map]
  apply List.map_congr_left
  intro r hr
  have hlt := (h.below r hr).1
  rw [Function.comp_apply, Function.comp_apply, noncePrefix_frame, UInt32.toNat_ofNat']
  omega

theorem Sealing.numbers (h : Sealing events rs m n) {key : AesKey} (hkey : ∀ r ∈ rs, r.key = key) :
    (sealedFrames events).map (sentSeqNo key) =
      (rs.map fun r => Int32.ofNat r.number).map some := by
  rw [h.frames, List.map_map, List.map_map]
  apply List.map_congr_left
  intro r hr
  rw [Function.comp_apply, ← hkey r hr]
  exact sentSeqNo_frame r

theorem Sealing.numbers_ascending (h : Sealing events rs m n) (hn : n < 2 ^ 31) :
    rs.Pairwise fun r s => Int32.ofNat s.number < Int32.ofNat r.number := by
  apply h.ascending.imp_of_mem
  intro r s hr hs hlt
  have hrn := (h.below r hr).2
  have hsn := (h.below s hs).2
  rw [Int32.lt_iff_toInt_lt, Int32.toInt_ofNat_of_lt (by omega),
    Int32.toInt_ofNat_of_lt (by omega)]
  omega

/-- The responses of a session carry increasing counters and increasing sequence numbers, whatever
the random generator returns. -/
theorem responses_fresh (statics : Statics) {x : Pool World Stop Unit Unit}
    (h : Pool.Reachable (serialRules statics) World.init x) {id : Int64}
    (honce : Once (history id x.state.trace))
    (hfew : reservations (history id x.state.trace) < 2 ^ 31) :
    (((responseFrames id x.state).map frameNonce).map noncePrefix).Pairwise (· < ·) ∧
      ((responseFrames id x.state).map frameNonce).Nodup ∧
      ∀ row, x.state.row id = some row → ∃ seqNos : List Int32,
        (responseFrames id x.state).map (sentSeqNo row.serverWriteKey) = seqNos.map some ∧
          seqNos.Pairwise (· < ·) := by
  obtain ⟨rs, m, hsealing, hm, hrow⟩ := (ledger_reachable statics h id).answers honce
  have hprefixes :
      (((responseFrames id x.state).map frameNonce).map noncePrefix).Pairwise (· < ·) := by
    have hcounts := hsealing.prefixes (Nat.lt_of_le_of_lt hm hfew)
    change ((sealedFrames (history id x.state.trace)).map frameNonce).map noncePrefix = _ at hcounts
    rw [responseFrames, List.map_reverse, List.map_reverse, hcounts, List.pairwise_reverse,
      List.pairwise_map]
    exact hsealing.ascending.imp And.left
  refine ⟨hprefixes, nodup_nonces hprefixes, ?_⟩
  intro row hsome
  have hnumbers := hsealing.numbers (hrow row hsome).key
  change (sealedFrames (history id x.state.trace)).map _ = _ at hnumbers
  refine ⟨(rs.map fun r => Int32.ofNat r.number).reverse, ?_, ?_⟩
  · rw [responseFrames, List.map_reverse, hnumbers, List.map_reverse]
  · rw [List.pairwise_reverse, List.pairwise_map]
    exact hsealing.numbers_ascending hfew

end Few

/-- The two responses of the sample. -/
theorem responses_fresh_replay : letI := Sample.platform
    ((responseFrames Sample.id (Sample.run Sample.replay)).map frameNonce).map noncePrefix =
        [0, 1] ∧
      ((responseFrames Sample.id (Sample.run Sample.replay)).map frameNonce).Nodup := by
  have hcounts : ((responseFrames Sample.id (Sample.run Sample.replay)).map frameNonce).map
      noncePrefix = [0, 1] := by decide +kernel
  have honce : Once (history Sample.id (Sample.run Sample.replay).trace) := by
    unfold Once
    decide +kernel
  have hfresh := @responses_fresh Sample.platform _ _ (Sample.reachable_run Sample.replay) Sample.id
  dsimp only at hfresh
  exact ⟨hcounts, (hfresh honce (by decide +kernel)).2.1⟩

end KoSta.Server
