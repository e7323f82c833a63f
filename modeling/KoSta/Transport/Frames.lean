import KoSta.Transport.Abridged

/-! Which payloads come back out of a stream of frames. -/
namespace KoSta.Transport
open Lib Lib.Reader

variable {p frame bs rest : Bytes} {ps : List Bytes}

/-- The bytes the decoder takes at least for a payload of this length. -/
def frameSize (len : Nat) : Nat := if len ≤ 0x7e then 1 + len else 4 + len

/-- The stream of these payloads, followed by `rest`, is read back as exactly them. -/
def Recovers (ps : List Bytes) (rest : Bytes) : Prop :=
  ∃ stream, encodeFrames ps = some stream ∧
    (decodeFrames ps.length).run (stream ++ rest) = .ok ps rest

theorem run_decodePayload (h : p.length ≤ maxFrameSize) (rest : Bytes) :
    (decodePayload p.length).run (p ++ rest) = .ok p rest := by
  obtain ⟨v, hv⟩ := exists_vector (rfl : p.length = p.length)
  rw [decodePayload, if_neg (by omega)]
  have hread := run_exact_append (TransportError.io .unexpectedEof) v rest
  rw [hv] at hread
  rw [readExact, run_bind_of_ok hread, run_pure, hv]

theorem run_decodeFrame_short (hlen : p.length ≤ 0x7e) (rest : Bytes) :
    decodeFrame.run (UInt8.ofNat p.length :: p ++ rest) = .ok p rest := by
  have hbyte : (UInt8.ofNat p.length).toNat = p.length := by
    rw [UInt8.toNat_ofNat']
    omega
  have hle : UInt8.ofNat p.length ≤ 0x7e := by
    rw [UInt8.le_iff_toNat_le, hbyte]
    exact hlen
  have hread := run_exact_append (TransportError.io .unexpectedEof)
    #v[UInt8.ofNat p.length] (p ++ rest)
  have hhead : #v[UInt8.ofNat p.length].get ⟨0, Nat.one_pos⟩ = UInt8.ofNat p.length := rfl
  rw [decodeFrame, readExact]
  refine (run_bind_of_ok hread).trans ?_
  rw [hhead, decodeLength, if_pos hle, hbyte, run_bind_of_ok (run_pure _ _)]
  exact run_decodePayload (by unfold maxFrameSize; omega) rest

theorem run_decodeLength_extended {len : Nat} (hlt : len < 256 ^ 3) (rest : Bytes) :
    (decodeLength 0x7f).run (leBytes 3 len ++ rest) = .ok len rest := by
  obtain ⟨v, hv⟩ := exists_vector (length_leBytes 3 len)
  have hread := run_exact_append (TransportError.io .unexpectedEof) v rest
  rw [hv] at hread
  have hne : ¬ (0x7f : UInt8) ≤ 0x7e := by decide
  rw [decodeLength, if_neg hne, if_pos rfl, readExact, run_bind_of_ok hread, run_pure, hv,
    ofLeBytes_leBytes_of_lt hlt]

theorem run_decodeFrame_extended (hlen : p.length ≤ maxFrameSize) (rest : Bytes) :
    decodeFrame.run (0x7f :: (leBytes 3 p.length ++ p) ++ rest) = .ok p rest := by
  have hlt : p.length < 256 ^ 3 := by
    unfold maxFrameSize at hlen
    omega
  have hlength := run_decodeLength_extended hlt (p ++ rest)
  have hread := run_exact_append (TransportError.io .unexpectedEof)
    #v[(0x7f : UInt8)] (leBytes 3 p.length ++ (p ++ rest))
  rw [decodeFrame, readExact, List.cons_append, List.append_assoc]
  refine (run_bind_of_ok hread).trans ?_
  refine (run_bind_of_ok hlength).trans ?_
  exact run_decodePayload hlen rest

/-- Both sides agree on every payload but those of 127 bytes. -/
theorem decodeFrame_encodeFrame (hlen : p.length ≤ maxFrameSize) (hne : p.length ≠ 127) :
    ∃ frame, encodeFrame p = some frame ∧ ∀ rest, decodeFrame.run (frame ++ rest) = .ok p rest := by
  by_cases hshort : p.length ≤ 0x7f
  · refine ⟨UInt8.ofNat p.length :: p, if_pos hshort, fun rest => ?_⟩
    exact run_decodeFrame_short (by omega) rest
  · have hlong : p.length ≤ 0xffffff := by
      unfold maxFrameSize at hlen
      omega
    refine ⟨0x7f :: (leBytes 3 p.length ++ p), ?_, run_decodeFrame_extended hlen⟩
    rw [encodeFrame, if_neg hshort, if_pos hlong]

theorem recovers_of_lengths (hlen : ∀ p ∈ ps, p.length ≤ maxFrameSize)
    (hne : ∀ p ∈ ps, p.length ≠ 127) (rest : Bytes) : Recovers ps rest := by
  induction ps with
  | nil => exact ⟨[], rfl, rfl⟩
  | cons p ps ih =>
    obtain ⟨frame, hframe, hread⟩ := decodeFrame_encodeFrame (hlen p List.mem_cons_self)
      (hne p List.mem_cons_self)
    obtain ⟨stream, hstream, htail⟩ := ih (fun q hq => hlen q (List.mem_cons_of_mem p hq))
      (fun q hq => hne q (List.mem_cons_of_mem p hq))
    refine ⟨frame ++ stream, by simp [encodeFrames, hframe, hstream], ?_⟩
    rw [List.append_assoc, List.length_cons, decodeFrames, times,
      run_bind_of_ok (hread (stream ++ rest)), ← decodeFrames, run_bind_of_ok htail, run_pure]

/-! ### Counting the bytes taken -/

theorem length_of_decodePayload {len : Nat} (h : (decodePayload len).run bs = .ok p rest) :
    p.length = len ∧ bs.length = p.length + rest.length := by
  unfold decodePayload at h
  split at h
  · simp at h
  · obtain ⟨v, mid, hv, hmid⟩ := run_bind_eq_ok.mp h
    cases hmid
    rw [run_exact_eq_ok.mp hv]
    simp

theorem length_of_decodeLength {b : UInt8} {len : Nat}
    (h : (decodeLength b).run bs = .ok len rest) :
    frameSize len + rest.length ≤ 1 + len + bs.length := by
  unfold decodeLength at h
  split at h
  · rename_i hb
    cases h
    have hle : b.toNat ≤ 0x7e := UInt8.le_iff_toNat_le.mp hb
    simp [frameSize, hle]
  · split at h
    · obtain ⟨v, mid, hv, hmid⟩ := run_bind_eq_ok.mp h
      cases hmid
      rw [run_exact_eq_ok.mp hv]
      simp only [frameSize, List.length_append, Vector.length_toList]
      split <;> omega
    · simp at h

theorem length_of_decodeFrame (h : decodeFrame.run bs = .ok p rest) :
    frameSize p.length + rest.length ≤ bs.length := by
  obtain ⟨v, mid, hv, hmid⟩ := run_bind_eq_ok.mp h
  obtain ⟨len, mid', hlen, hpayload⟩ := run_bind_eq_ok.mp hmid
  have hbs := congrArg List.length (run_exact_eq_ok.mp hv)
  obtain ⟨rfl, hmid'⟩ := length_of_decodePayload hpayload
  have hheader := length_of_decodeLength hlen
  simp only [List.length_append, Vector.length_toList] at hbs
  omega

theorem length_of_encodeFrame (h : encodeFrame p = some frame) :
    frame.length ≤ frameSize p.length ∧ (p.length = 127 → frame.length < frameSize p.length) := by
  unfold encodeFrame at h
  split at h
  · cases h
    simp only [List.length_cons, frameSize]
    split <;> omega
  · split at h
    · cases h
      simp only [List.length_cons, List.length_append, length_leBytes, frameSize]
      split <;> omega
    · cases h

/-- A reader that takes its fill for every payload of the list took the whole stream. -/
theorem lengths_of_recovers {stream : Bytes} (hstream : encodeFrames ps = some stream)
    (h : (decodeFrames ps.length).run bs = .ok ps rest) :
    stream.length + rest.length ≤ bs.length ∧
      ((∃ p ∈ ps, p.length = 127) → stream.length + rest.length < bs.length) := by
  induction ps generalizing bs stream with
  | nil =>
    cases hstream
    cases h
    simp
  | cons p ps ih =>
    simp only [encodeFrames, Option.bind_eq_bind, Option.bind_eq_some_iff, Option.pure_def,
      Option.some.injEq] at hstream
    obtain ⟨frame, hframe, frames, hframes, rfl⟩ := hstream
    obtain ⟨q, mid, hq, hmid⟩ := run_bind_eq_ok.mp h
    obtain ⟨qs, mid', hqs, hdone⟩ := run_bind_eq_ok.mp hmid
    cases hdone
    obtain ⟨hle, hlt⟩ := ih hframes hqs
    obtain ⟨hsize, hshort⟩ := length_of_encodeFrame hframe
    have htaken := length_of_decodeFrame hq
    rw [List.length_append]
    refine ⟨by omega, ?_⟩
    rintro ⟨r, hr, h127⟩
    rcases List.mem_cons.mp hr with rfl | hr
    · have := hshort h127
      omega
    · have := hlt ⟨r, hr, h127⟩
      omega

/-- Of the payloads a frame may carry, exactly those of 127 bytes break the stream. -/
theorem recovers_iff (ps : List Bytes) (rest : Bytes)
    (hlen : ∀ p ∈ ps, p.length ≤ maxFrameSize) :
    Recovers ps rest ↔ ∀ p ∈ ps, p.length ≠ 127 := by
  constructor
  · rintro ⟨stream, hstream, hread⟩ p hp h127
    have hlt := (lengths_of_recovers hstream hread).2 ⟨p, hp, h127⟩
    rw [List.length_append] at hlt
    omega
  · exact fun hne => recovers_of_lengths hlen hne rest

theorem recovers_iff_two : Recovers [[1, 2, 3], []] [0x7f] ↔
    ∀ p ∈ [[1, 2, 3], ([] : Bytes)], p.length ≠ 127 :=
  recovers_iff [[1, 2, 3], []] [0x7f] (by decide)

/-- The encoder's 0x7f is a length; the decoder reads the first three payload bytes as one. -/
theorem decodeFrame_zeros (rest : Bytes) :
    decodeFrame.run (0x7f :: 0 :: 0 :: 0 :: rest) = .ok [] rest := rfl

theorem not_recovers_zeros (tail : Bytes) (h : tail.length = 124) :
    ¬ Recovers [0 :: 0 :: 0 :: tail] [] := by
  rintro ⟨stream, hstream, hread⟩
  simp only [encodeFrames, encodeFrame, List.length_cons, h, Nat.reduceAdd, Nat.reduceLeDiff,
    ↓reduceIte, Option.bind_eq_bind, Option.bind_some, Option.pure_def, List.append_nil,
    Option.some.injEq] at hstream
  subst hstream
  have hmid := decodeFrame_zeros (tail ++ [])
  rw [List.length_singleton, decodeFrames, times] at hread
  cases (run_bind_of_ok hmid).symm.trans hread

theorem not_recovers_127 :
    ¬ ∀ (ps : List Bytes) (rest : Bytes), (∀ p ∈ ps, p.length ≤ maxFrameSize) →
      Recovers ps rest := by
  intro h
  exact not_recovers_zeros (List.replicate 124 0) List.length_replicate
    (h _ [] (by simp [maxFrameSize]))

end KoSta.Transport
