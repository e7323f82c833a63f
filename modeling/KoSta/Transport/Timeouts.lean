import KoSta.Lib.Stalling
import KoSta.Transport.Chunks

/-! A connection with a read timeout: a call that times out inside a frame leaves the rest of the
frame to the next. -/
namespace KoSta.Transport
open Lib Lib.Reader Lib.Stalling

variable {p q frame more : Bytes} {ps : List Bytes} {s s' : Arrivals}

def streamExact (n : Nat) : Stalling TransportError Bytes := Stalling.exact (.io .unexpectedEof) n

def streamLength (lenByte : UInt8) : Stalling TransportError Nat :=
  if lenByte ≤ 0x7e then
    pure lenByte.toNat
  else if lenByte = 0x7f then do
    let buf ← streamExact 3
    return ofLeBytes buf
  else
    throw (.error (unsupportedLength lenByte))

def streamPayload (len : Nat) : Stalling TransportError Bytes :=
  if len > maxFrameSize then throw (.error (frameTooLarge len)) else streamExact len

/-- `StreamTransport::recv`, which keeps nothing from one call to the next. -/
def streamRecv : Stalling TransportError Bytes := do
  let lenByte ← streamExact 1
  let len ← streamLength (lenByte.headD 0)
  streamPayload len

/-- What `n` calls in a row return, whatever each of them ends with. -/
def recvs : Nat → Arrivals → List (Except (Interruption TransportError) Bytes)
  | 0, _ => []
  | n + 1, s => (streamRecv.run s).1 :: recvs n (streamRecv.run s).2

def received (results : List (Except (Interruption TransportError) Bytes)) : List Bytes :=
  results.filterMap Except.toOption

/-! ### One call -/

theorem mirrors_streamLength (lenByte : UInt8) :
    Mirrors (.io .unexpectedEof) (streamLength lenByte) (decodeLength lenByte) := by
  apply Mirrors.ite
  · exact Mirrors.pure _
  · apply Mirrors.ite
    · have hread := (@Mirrors.exact _ (TransportError.io .unexpectedEof) 3).bind
        fun buf => Mirrors.pure (ofLeBytes buf)
      rw [bind_assoc] at hread
      exact hread
    · exact Mirrors.fail _

theorem mirrors_streamPayload (len : Nat) :
    Mirrors (.io .unexpectedEof) (streamPayload len) (decodePayload len) := by
  apply Mirrors.ite
  · exact Mirrors.fail _
  · exact Mirrors.exact len

theorem mirrors_streamRecv : Mirrors (.io .unexpectedEof) streamRecv decodeFrame := by
  have hread := (@Mirrors.exact _ (TransportError.io .unexpectedEof) 1).bind fun lenByte =>
    (mirrors_streamLength (lenByte.headD 0)).bind mirrors_streamPayload
  rw [bind_assoc] at hread
  have hsame : (readExact 1 >>= fun v => (pure v.toList : Reader TransportError Bytes) >>=
      fun lenByte => decodeLength (lenByte.headD 0) >>= decodePayload) = decodeFrame :=
    congrArg (readExact 1 >>= ·) (funext fun v => by rw [pure_bind, headD_toList])
  rw [← hsame]
  exact hread

/-- The bytes among the arrivals. -/
def arrived (s : Arrivals) : Bytes := s.filterMap id

theorem arrived_append (x : Bytes) (s : Arrivals) : arrived (arriving x ++ s) = x ++ arrived s := by
  simp [arrived, arriving]

/-- Nothing comes out of a stream that only stalls. -/
theorem received_of_silent (n : Nat) (h : arrived s = []) : received (recvs n s) = [] := by
  induction n generalizing s with
  | zero => rfl
  | succ n ih =>
    rcases s with _ | ⟨_ | b, s⟩
    · exact ih (s := []) rfl
    · exact ih (s := s) h
    · cases h

/-- A frame that decodes is what a call at its start returns, if it returns anything. -/
theorem streamRecv_ok (hframe : ∀ rest, decodeFrame.run (frame ++ rest) = .ok p rest)
    (hsent : arrived s <+: frame ++ more) (hok : streamRecv.run s = (.ok q, s')) :
    q = p ∧ s = arriving frame ++ s' ∧ arrived s' <+: more := by
  have hend := mirrors_streamRecv s
  rw [hok] at hend
  cases hend with
  | ok hread =>
    rename_i x
    obtain ⟨t, ht⟩ := hsent
    rw [arrived_append, List.append_assoc] at ht
    have hboth := hread (arrived s' ++ t)
    rw [ht, hframe] at hboth
    cases hboth
    have hx : x = frame := List.append_cancel_right ht
    exact ⟨rfl, by rw [hx], List.prefix_append _ t⟩

/-- A call that fails on a frame which comes in whole has met the end of the stream. -/
theorem streamRecv_error {e : Interruption TransportError}
    (hframe : ∀ rest, decodeFrame.run (frame ++ rest) = .ok p rest)
    (hsent : arrived s <+: frame ++ more) (hwhole : none ∉ s.take frame.length)
    (herror : streamRecv.run s = (.error e, s')) : s' = [] := by
  have hend := mirrors_streamRecv s
  rw [herror] at hend
  obtain ⟨t, ht⟩ := hsent
  cases hend with
  | ended => rfl
  | stalled hread =>
    rename_i x
    exfalso
    have hlong : frame.length ≤ x.length := by
      by_contra hshort
      apply hwhole
      rw [List.mem_take_iff_getElem]
      refine ⟨x.length, ?_, ?_⟩
      · simp [arriving]
        omega
      · simp [arriving]
    rw [arrived_append, List.append_assoc] at ht
    obtain ⟨y, rfl⟩ := List.prefix_of_prefix_length_le ⟨more, rfl⟩ ⟨_, ht⟩ hlong
    rw [hframe] at hread
    cases hread
  | refused hread =>
    exfalso
    rw [arrived_append, List.append_assoc] at ht
    have hboth := hread (arrived s' ++ t)
    rw [ht, hframe] at hboth
    cases hboth

/-! ### Calls in a row -/

/-- With `calls` still to be made: every call but the last finds a frame that comes in without a
stall and fits the decoder, or stalls before its first byte. -/
def Intact : Nat → List Bytes → Arrivals → Prop
  | calls + 1, p :: ps, none :: s => Intact calls (p :: ps) s
  | calls + 1, p :: ps, some b :: s => p.length ≠ 127 ∧
    (calls = 0 ∨ p.length ≤ maxFrameSize ∧
      none ∉ (some b :: s).take (frameSize p.length) ∧
      Intact calls ps ((some b :: s).drop (frameSize p.length)))
  | _, _, _ => True

theorem length_encodeFrame (hframe : encodeFrame p = some frame) (hne : p.length ≠ 127) :
    frame.length = frameSize p.length := by
  unfold encodeFrame at hframe
  unfold frameSize
  split at hframe
  · cases hframe
    rw [if_pos (by omega), List.length_cons, Nat.add_comm]
  · split at hframe
    · cases hframe
      rw [if_neg (by omega), List.length_cons, List.length_append, length_leBytes]
      omega
    · cases hframe

theorem decodeFrame_oversize (hframe : encodeFrame p = some frame) (hmax : maxFrameSize < p.length)
    (rest : Bytes) : ∃ e, decodeFrame.run (frame ++ rest) = .err e := by
  unfold encodeFrame at hframe
  rw [if_neg (by unfold maxFrameSize at hmax; omega)] at hframe
  split at hframe
  · cases hframe
    have hlength := run_decodeLength_extended (show p.length < 256 ^ 3 by omega) (p ++ rest)
    refine ⟨frameTooLarge p.length, ?_⟩
    rw [List.cons_append, List.append_assoc, run_decodeFrame_cons, run_bind_of_ok hlength,
      decodePayload, if_pos hmax, run_fail]
  · cases hframe

theorem recvs_of_run {n : Nat} {result : Except (Interruption TransportError) Bytes}
    (hrun : streamRecv.run s = (result, s')) : recvs (n + 1) s = result :: recvs n s' := by
  rw [recvs, hrun]

theorem streamRecv_oversize (hframe : encodeFrame p = some frame) (hmax : maxFrameSize < p.length)
    (hsent : arrived s <+: frame ++ more) : streamRecv.run s ≠ (.ok q, s') := by
  intro hok
  have hend := mirrors_streamRecv s
  rw [hok] at hend
  cases hend with
  | ok hread =>
    obtain ⟨t, ht⟩ := hsent
    rw [arrived_append, List.append_assoc] at ht
    have hboth := hread (arrived s' ++ t)
    obtain ⟨e, he⟩ := decodeFrame_oversize hframe hmax more
    rw [ht, he] at hboth
    cases hboth

/-- One call of a run: it returns the next payload, or the last call fails, or nothing is left. -/
theorem call_cases {calls : Nat} {b : UInt8} (hframe : encodeFrame p = some frame)
    (hsent : arrived (some b :: s) <+: frame ++ more)
    (hintact : Intact (calls + 1) (p :: ps) (some b :: s)) :
    (∃ s', streamRecv.run (some b :: s) = (.ok p, s') ∧ arrived s' <+: more ∧ Intact calls ps s') ∨
    ∃ e s', streamRecv.run (some b :: s) = (.error e, s') ∧ (calls = 0 ∨ s' = []) := by
  obtain ⟨hne, hrest⟩ := hintact
  have hsize := length_encodeFrame hframe hne
  rcases hrun : streamRecv.run (some b :: s) with ⟨e | q, s'⟩
  · right
    refine ⟨e, s', rfl, ?_⟩
    rcases hrest with hlast | ⟨hmax, hwhole, -⟩
    · exact .inl hlast
    · obtain ⟨frame', hframe', hread⟩ := decodeFrame_encodeFrame hmax hne
      cases hframe.symm.trans hframe'
      rw [← hsize] at hwhole
      exact .inr (streamRecv_error hread hsent hwhole hrun)
  · left
    rcases Nat.lt_or_ge maxFrameSize p.length with hbig | hmax
    · exact (streamRecv_oversize hframe hbig hsent hrun).elim
    · obtain ⟨frame', hframe', hread⟩ := decodeFrame_encodeFrame hmax hne
      cases hframe.symm.trans hframe'
      obtain ⟨rfl, hs, hmore⟩ := streamRecv_ok hread hsent hrun
      refine ⟨s', rfl, hmore, ?_⟩
      rcases hrest with rfl | ⟨-, -, hnext⟩
      · trivial
      · rw [hs, ← hsize, List.drop_left' (by simp [arriving])] at hnext
        exact hnext

/-- In a run whose calls all meet `Intact`, what is received is what was sent, in order and
without gaps. -/
theorem recvs_in_order {stream : Bytes} {calls : Nat} (hstream : encodeFrames ps = some stream)
    (hsent : arrived s <+: stream) (hintact : Intact calls ps s) :
    received (recvs calls s) <+: ps := by
  induction calls generalizing ps s stream with
  | zero => exact List.nil_prefix
  | succ calls ih =>
    rcases ps with _ | ⟨p, ps⟩
    · cases hstream
      have hnone := received_of_silent (calls + 1) (List.prefix_nil.mp hsent)
      exact hnone.symm ▸ List.nil_prefix
    · rcases s with _ | ⟨_ | b, s⟩
      · rw [received_of_silent _ rfl]
        exact List.nil_prefix
      · exact ih (s := s) hstream hsent hintact
      · simp only [encodeFrames, Option.bind_eq_bind, Option.bind_eq_some_iff, Option.pure_def,
          Option.some.injEq] at hstream
        obtain ⟨frame, hframe, frames, hframes, rfl⟩ := hstream
        rcases call_cases hframe hsent hintact with ⟨s', hrun, hmore, hnext⟩ |
          ⟨e, s', hrun, hlast⟩
        · rw [recvs_of_run hrun]
          exact (List.prefix_cons_inj p).mpr (ih hframes hmore hnext)
        · rw [recvs_of_run hrun]
          have hnone : received (recvs calls s') = [] := by
            rcases hlast with rfl | rfl
            · rfl
            · exact received_of_silent calls rfl
          change received (recvs calls s') <+: p :: ps
          rw [hnone]
          exact List.nil_prefix

/-- Two payloads, a stall between them and another inside the second, where the run ends. -/
theorem recvs_in_order_two :
    received (recvs 3 [some 1, some 9, none, some 2, some 8, none, some 7]) <+: [[9], [8, 7]] :=
  recvs_in_order (show encodeFrames [[9], [8, 7]] = some [1, 9, 2, 8, 7] from rfl) (by decide)
    ⟨by decide, .inr ⟨by decide, by decide, by decide, .inl rfl⟩⟩

/-- The stall behind the length byte makes the payload's first byte the next length. -/
theorem not_recvs_in_order :
    encodeFrames [[2, 1, 7]] = some [3, 2, 1, 7] ∧
      arrived [some 3, none, some 2, some 1, some 7] = [3, 2, 1, 7] ∧
      received (recvs 2 [some 3, none, some 2, some 1, some 7]) = [[1, 7]] := by
  decide

end KoSta.Transport
