import KoSta.Client.Send
import KoSta.Server.SerialRuns

/-! When the message identifiers of either side increase. -/
namespace KoSta
open Lib Tl Crypto Transport Client Server

section Runs

variable [Platform]

theorem sentIds_increasing_iff {T : Type} [FrameTransport T] (calls : List Call) {s : Session T}
    (hcrypto : s.crypto.isSome = true)
    (hfew : s.msgIdCounter.toNat + sendCount calls ≤ 2 ^ 32) :
    Increasing (sentIds calls s) ↔ OrderedReadings (sends calls s) := by
  rw [sentIds_eq calls hcrypto]
  exact increasing_iff _ (sends_counters calls hcrypto hfew).1

/-- Neither sender's identifiers increase for all clock readings: the low 32 bits of a reading
end up in the upper half of a signed number. -/
theorem senders_increasing_iff :
    (∀ (T : Type) [FrameTransport T] (calls : List Call) (s : Session T),
      s.crypto.isSome = true → s.msgIdCounter.toNat + sendCount calls ≤ 2 ^ 32 →
        (Increasing (sentIds calls s) ↔ OrderedReadings (sends calls s))) ∧
    ∀ (statics : Statics) (x : Pool World Stop Unit Unit) (id : Int64),
      Pool.Reachable (serialRules statics) World.init x →
        (reservedCounters (history id x.state.trace)).length ≤ 2 ^ 32 →
          (Increasing (idsOf (responses id x.state)) ↔ OrderedReadings (responses id x.state)) := by
  refine ⟨fun T _ calls s hcrypto hfew => sentIds_increasing_iff calls hcrypto hfew, ?_⟩
  intro statics x id hx hfew
  exact increasing_iff _ (responses_counters statics hx hfew)

end Runs

/-- One request at a small clock reading and the responses of a small run. -/
theorem senders_increasing_iff_small : letI := Platform.constant false
    (Increasing (sentIds [.send 1 (Vector.replicate 12 0) (.getDialogs {})] (freshSession [])) ↔
      OrderedReadings
        (sends [.send 1 (Vector.replicate 12 0) (.getDialogs {})] (freshSession []))) ∧
    (Increasing (idsOf (responses Sample.id (Sample.run Sample.replay))) ↔
      OrderedReadings (responses Sample.id (Sample.run Sample.replay))) := by
  have h := @senders_increasing_iff Sample.platform
  refine ⟨h.1 MockTransport _ _ rfl (by decide), ?_⟩
  have hserver := h.2 _ _ Sample.id (Sample.reachable_run Sample.replay)
  dsimp only at hserver
  exact hserver (by decide +kernel)

/-- One call of a client whose clock has a one in bit 31 of its milliseconds. -/
def signBitCall : Call := .send 1700000000000 (Vector.replicate 12 0) (.getDialogs {})

theorem sentIds_signBitCall : letI := Platform.constant false
    sentIds [signBitCall] (freshSession []) = [msgId 1700000000000 0] ∧
      sends [signBitCall] (freshSession []) = [(1700000000000, 0)] := by
  decide +kernel

theorem not_increasing_signBit : ¬ ∀ (_ : Platform) (T : Type) (_ : FrameTransport T)
    (calls : List Call) (s : Session T), s.crypto.isSome = true → s.msgIdCounter = 0 →
      sendCount calls < 2 ^ 32 → ((sends calls s).map Prod.fst).Pairwise (· ≤ ·) →
        Increasing (sentIds calls s) := by
  intro h
  obtain ⟨hids, hsends⟩ := sentIds_signBitCall
  have hall := h (Platform.constant false) MockTransport inferInstance [signBitCall]
    (freshSession []) rfl rfl (by decide) (by rw [hsends]; exact List.pairwise_singleton _ _)
  rw [hids] at hall
  exact absurd (hall.positive _ List.mem_cons_self) (by decide)

end KoSta
