import KoSta.Transport.Mock

/-! A stream that arrives in chunks: the buffer gives out what a reader of the stream gets. -/
namespace KoSta.Transport
open Lib Lib.Reader

variable {bs buf rest tail p : Bytes}

/-! ### The frame at the front -/

def payloadLayout (len : Nat) : Layout :=
  if len > maxFrameSize then .never else .header len fun _ => .unit

/-- What follows the first byte. -/
def lengthLayout (lenByte : UInt8) : Layout :=
  if lenByte ≤ 0x7e then payloadLayout lenByte.toNat
  else if lenByte = 0x7f then .header 3 fun buf => payloadLayout (ofLeBytes buf)
  else .never

def frameLayout : Layout := .header 1 fun first => lengthLayout (first.headD 0)

theorem follows_decodePayload (len : Nat) : Follows (decodePayload len) (payloadLayout len) :=
  Follows.ite (Follows.fail _) (Follows.header fun _ => Follows.pure _)

theorem follows_decodeLength (lenByte : UInt8) :
    Follows (decodeLength lenByte >>= decodePayload) (lengthLayout lenByte) := by
  unfold decodeLength lengthLayout
  split
  · exact follows_decodePayload _
  · split
    · rw [bind_assoc]
      exact Follows.header fun buf => follows_decodePayload _
    · exact Follows.fail _

theorem headD_toList (v : Vector UInt8 1) : v.toList.headD 0 = v.get ⟨0, Nat.one_pos⟩ := by
  rw [toList_singleton]
  rfl

theorem follows_decodeFrame : Follows decodeFrame frameLayout := by
  apply Follows.header
  intro v
  rw [headD_toList]
  exact follows_decodeLength _

theorem run_decodeFrame_cons (b : UInt8) (bs : Bytes) :
    decodeFrame.run (b :: bs) = (decodeLength b >>= decodePayload).run bs :=
  run_bind_of_ok (run_exact_append (TransportError.io .unexpectedEof) #v[b] bs)

theorem run_decodePayload_cases (len : Nat) (bs : Bytes) :
    (len ≤ maxFrameSize ∧ len ≤ bs.length ∧
      (decodePayload len).run bs = .ok (bs.take len) (bs.drop len)) ∨
    (maxFrameSize < len ∨ bs.length < len) ∧ ∃ e, (decodePayload len).run bs = .err e := by
  unfold decodePayload
  by_cases hmax : len > maxFrameSize
  · rw [if_pos hmax]
    exact Or.inr ⟨Or.inl hmax, _, rfl⟩
  · rw [if_neg hmax]
    by_cases hlen : len ≤ bs.length
    · obtain ⟨v, hv⟩ := exists_vector (List.length_take_of_le hlen)
      have hread := run_exact_append (TransportError.io .unexpectedEof) v (bs.drop len)
      rw [hv, List.take_append_drop] at hread
      refine Or.inl ⟨by omega, hlen, ?_⟩
      rw [readExact, run_bind_of_ok hread, run_pure, hv]
    · refine Or.inr ⟨Or.inr (by omega), .io .unexpectedEof, ?_⟩
      have hshort : (readExact len).run bs = .err (.io .unexpectedEof) := dif_neg hlen
      rw [run_bind, hshort]

/-- Both decoders read the same first frame. -/
def ReadsBoth (buf : Bytes) : Prop :=
  ∃ p rest, decodeFrameFromSlice buf = (.ok p, rest) ∧ decodeFrame.run buf = .ok p rest

/-- Both decoders fail, and the buffer stays as it is. -/
def FailsBoth (buf : Bytes) : Prop :=
  ∃ e e', decodeFrameFromSlice buf = (.error e, buf) ∧ decodeFrame.run buf = .err e'

/-- The two decoders read the length alike; then they see the same payload. -/
theorem reads_or_fails_of_lengths {first : UInt8} {len headerLen : Nat}
    (hlengths : sliceLengths (first :: bs) first = .ok (len, headerLen))
    (hle : headerLen ≤ (first :: bs).length)
    (hrun : decodeFrame.run (first :: bs) = (decodePayload len).run
      ((first :: bs).drop headerLen)) :
    ReadsBoth (first :: bs) ∨ FailsBoth (first :: bs) := by
  have hdrop : ((first :: bs).drop headerLen).length = (first :: bs).length - headerLen :=
    List.length_drop
  have hslice : decodeFrameFromSlice (first :: bs) =
      if len > maxFrameSize then (.error (frameTooLarge len), first :: bs)
      else if (first :: bs).length < headerLen + len then
        (.error (.custom "Incomplete frame"), first :: bs)
      else (.ok (((first :: bs).drop headerLen).take len),
        (first :: bs).drop (headerLen + len)) := by
    simp only [decodeFrameFromSlice, hlengths]
  rcases run_decodePayload_cases len ((first :: bs).drop headerLen) with
    ⟨hmax, hlen, hok⟩ | ⟨hbad, e, herr⟩
  · left
    rw [if_neg (by omega), if_neg (by omega)] at hslice
    rw [← List.drop_drop] at hslice
    exact ⟨_, _, hslice, hrun.trans hok⟩
  · right
    by_cases hmax : len > maxFrameSize
    · rw [if_pos hmax] at hslice
      exact ⟨_, e, hslice, hrun.trans herr⟩
    · rw [if_neg hmax, if_pos (by omega)] at hslice
      exact ⟨_, e, hslice, hrun.trans herr⟩

theorem reads_or_fails (buf : Bytes) : ReadsBoth buf ∨ FailsBoth buf := by
  cases buf with
  | nil => exact Or.inr ⟨_, _, rfl, rfl⟩
  | cons first bs =>
    by_cases hshort : first ≤ 0x7e
    · refine reads_or_fails_of_lengths (if_pos hshort) (Nat.succ_le_succ (Nat.zero_le _)) ?_
      rw [run_decodeFrame_cons, decodeLength, if_pos hshort]
      rfl
    · by_cases hlong : first = 0x7f
      · subst hlong
        have hrun : decodeFrame.run (0x7f :: bs) =
            (readExact 3 >>= fun buf => decodePayload (ofLeBytes buf.toList)).run bs := by
          rw [run_decodeFrame_cons, decodeLength, if_neg hshort, if_pos rfl, bind_assoc]
          rfl
        by_cases hlen : bs.length < 3
        · have hfew : (readExact 3).run bs = .err (.io .unexpectedEof) := dif_neg (by omega)
          have hheader : sliceLengths (0x7f :: bs) 0x7f =
            .error (.custom "Incomplete length header") :=
            if_pos (Nat.succ_lt_succ hlen)
          refine Or.inr ⟨.custom "Incomplete length header", .io .unexpectedEof, ?_, ?_⟩
          · simp only [decodeFrameFromSlice, hheader]
          · rw [hrun, run_bind, hfew]
        · obtain ⟨v, hv⟩ := exists_vector (List.length_take_of_le (Nat.le_of_not_lt hlen))
          have hread := run_exact_append (TransportError.io .unexpectedEof) v (bs.drop 3)
          rw [hv, List.take_append_drop] at hread
          have hheader : sliceLengths (0x7f :: bs) 0x7f = .ok (ofLeBytes (bs.take 3), 4) :=
            if_neg (Nat.not_lt.mpr (Nat.succ_le_succ (Nat.le_of_not_lt hlen)))
          refine reads_or_fails_of_lengths hheader (Nat.succ_le_succ (Nat.le_of_not_lt hlen)) ?_
          rw [hrun, readExact, run_bind_of_ok hread, hv]
          rfl
      · refine Or.inr ⟨unsupportedLength first, unsupportedLength first, ?_, ?_⟩
        · simp only [decodeFrameFromSlice, sliceLengths, if_neg hshort, if_neg hlong]
        · rw [run_decodeFrame_cons, decodeLength, if_neg hshort, if_neg hlong]
          rfl

/-! ### All frames of a stream -/

/-- The payloads of at most `n` frames, up to the first that cannot be read. -/
def payloadsWithin : Nat → Bytes → List Bytes
  | 0, _ => []
  | n + 1, bs =>
    match decodeFrame.run bs with
    | .ok p rest => p :: payloadsWithin n rest
    | _ => []

/-- What repeated reading returns; a frame takes a byte at least. -/
def payloads (bs : Bytes) : List Bytes := payloadsWithin bs.length bs

theorem length_lt_of_decodeFrame (h : decodeFrame.run bs = .ok p rest) :
    rest.length < bs.length := by
  have hlen := length_of_decodeFrame h
  unfold frameSize at hlen
  split at hlen <;> omega

theorem payloadsWithin_of_le {n : Nat} (h : bs.length ≤ n) : payloadsWithin n bs = payloads bs := by
  have hmany : ∀ m n (bs : Bytes), bs.length ≤ m → bs.length ≤ n →
      payloadsWithin m bs = payloadsWithin n bs := by
    intro m
    induction m with
    | zero =>
      intro n bs hm hn
      cases List.length_eq_zero_iff.mp (Nat.le_zero.mp hm)
      cases n <;> rfl
    | succ m ih =>
      intro n bs hm hn
      cases n with
      | zero =>
        cases List.length_eq_zero_iff.mp (Nat.le_zero.mp hn)
        rfl
      | succ n =>
        unfold payloadsWithin
        split
        · rename_i p rest hread
          have hlt := length_lt_of_decodeFrame hread
          rw [ih n rest (by omega) (by omega)]
        · rfl
  exact hmany n bs.length bs h (Nat.le_refl _)

theorem payloads_of_ok (h : decodeFrame.run bs = .ok p rest) :
    payloads bs = p :: payloads rest := by
  have hlt := length_lt_of_decodeFrame h
  have hstep : payloadsWithin (bs.length + 1) bs = p :: payloadsWithin bs.length rest := by
    rw [payloadsWithin, h]
  rw [← payloadsWithin_of_le (Nat.le_succ bs.length), hstep,
    payloadsWithin_of_le (Nat.le_of_lt hlt)]

theorem payloads_of_err {e : TransportError} (h : decodeFrame.run bs = .err e) :
    payloads bs = [] := by
  have hstep : payloadsWithin (bs.length + 1) bs = [] := by
    rw [payloadsWithin, h]
  rw [← payloadsWithin_of_le (Nat.le_succ bs.length), hstep]

/-! ### Receiving while the stream comes in -/

inductive MockCall where
  | addIncoming (data : Bytes)
  | recv

/-- A connection in memory and what its successful reads have returned, oldest first. -/
structure Receiver where
  transport : MockTransport
  received : List Bytes

def Receiver.call (r : Receiver) : MockCall → Receiver
  | .addIncoming data => { r with transport := r.transport.addIncoming data }
  | .recv =>
    match FrameTransport.recv r.transport with
    | (.ok p, transport) => ⟨transport, r.received ++ [p]⟩
    | (.error _, transport) => { r with transport }

def receive (calls : List MockCall) : Receiver := calls.foldl Receiver.call ⟨.new, []⟩

/-- The bytes a call adds. -/
def MockCall.incoming : MockCall → Bytes
  | .addIncoming data => data
  | .recv => []

def incoming (calls : List MockCall) : Bytes := calls.flatMap MockCall.incoming

def Fails (t : MockTransport) : Prop := ∃ e, (FrameTransport.recv t).1 = .error e

theorem recv_of_reads {t : MockTransport} (h : decodeFrameFromSlice t.reader = (.ok p, rest)) :
    FrameTransport.recv t = (.ok p, { t with reader := rest }) := by
  simp only [FrameTransport.recv, h]

theorem recv_of_fails {t : MockTransport} {e : TransportError}
    (h : decodeFrameFromSlice t.reader = (.error e, t.reader)) :
    FrameTransport.recv t = (.error (.error e), t) := by
  simp only [FrameTransport.recv, h]

/-- What has been received and what can still be read make up the same payloads. -/
theorem payloads_call (r : Receiver) (c : MockCall) (tail : Bytes) :
    (r.call c).received ++ payloads ((r.call c).transport.reader ++ tail) =
      r.received ++ payloads (r.transport.reader ++ (c.incoming ++ tail)) := by
  cases c with
  | addIncoming data =>
    change r.received ++ payloads (r.transport.reader ++ data ++ tail) = _
    rw [List.append_assoc]
    rfl
  | recv =>
    rcases reads_or_fails r.transport.reader with ⟨p, rest, hslice, hread⟩ | ⟨e, e', hslice, -⟩
    · have hmore := payloads_of_ok (follows_decodeFrame.extend hread tail)
      have hcall : r.call .recv =
          ⟨{ r.transport with reader := rest }, r.received ++ [p]⟩ := by
        simp only [Receiver.call, recv_of_reads hslice]
      rw [hcall, List.append_assoc]
      exact congrArg (r.received ++ ·) hmore.symm
    · have hcall : r.call .recv = r := by
        simp only [Receiver.call, recv_of_fails hslice]
      rw [hcall]
      rfl

theorem payloads_calls (calls : List MockCall) (r : Receiver) (tail : Bytes) :
    (calls.foldl Receiver.call r).received ++
        payloads ((calls.foldl Receiver.call r).transport.reader ++ tail) =
      r.received ++ payloads (r.transport.reader ++ (incoming calls ++ tail)) := by
  induction calls generalizing r with
  | nil => rfl
  | cons c calls ih =>
    have hstep := payloads_call r c (incoming calls ++ tail)
    rw [← List.append_assoc c.incoming] at hstep
    exact (ih (r.call c)).trans hstep

theorem payloads_receive (calls : List MockCall) (tail : Bytes) :
    (receive calls).received ++ payloads ((receive calls).transport.reader ++ tail) =
      payloads (incoming calls ++ tail) :=
  payloads_calls calls ⟨.new, []⟩ tail

/-- A read that fails has nothing to read. -/
theorem payloads_of_fails {t : MockTransport} (h : Fails t) : payloads t.reader = [] := by
  rcases reads_or_fails t.reader with ⟨p, rest, hslice, -⟩ | ⟨e, e', -, hread⟩
  · obtain ⟨e, he⟩ := h
    rw [recv_of_reads hslice] at he
    cases he
  · exact payloads_of_err hread

theorem incoming_recvs (calls : List MockCall) (n : Nat) :
    incoming (calls ++ List.replicate n .recv) = incoming calls := by
  have hnone : (List.replicate n MockCall.recv).flatMap MockCall.incoming = [] := by
    induction n with
    | zero => rfl
    | succ n ih => exact ih
  rw [incoming, List.flatMap_append, hnone, List.append_nil]
  rfl

/-- Every successful read takes bytes out of the buffer, so that one of them fails. -/
theorem fails_after (r : Receiver) : ∃ n,
    Fails ((List.replicate n MockCall.recv).foldl Receiver.call r).transport := by
  induction h : r.transport.reader.length using Nat.strongRecOn generalizing r with
  | ind len ih =>
    rcases reads_or_fails r.transport.reader with ⟨p, rest, hslice, hread⟩ | ⟨e, e', hslice, -⟩
    · have hcall : r.call .recv =
          ⟨{ r.transport with reader := rest }, r.received ++ [p]⟩ := by
        simp only [Receiver.call, recv_of_reads hslice]
      have hlt := length_lt_of_decodeFrame hread
      obtain ⟨n, hn⟩ := ih rest.length (h ▸ hlt) (r.call .recv) (by rw [hcall])
      exact ⟨n + 1, hn⟩
    · refine ⟨0, .error e, ?_⟩
      exact congrArg Prod.fst (recv_of_fails hslice)

/-- However the stream is cut into chunks, the buffer gives out a prefix of what repeated reading
of the whole stream returns, and all of it once the stream has come in and a read fails, which
happens after finitely many reads; a read that fails leaves the buffer as it is. -/
theorem receive_prefix (calls : List MockCall) :
    (∀ tail, (receive calls).received <+: payloads (incoming calls ++ tail)) ∧
      (Fails (receive calls).transport → (receive calls).received = payloads (incoming calls)) ∧
      (∃ n, Fails (receive (calls ++ List.replicate n .recv)).transport ∧
        (receive (calls ++ List.replicate n .recv)).received = payloads (incoming calls)) ∧
      ∀ t t' : MockTransport, ∀ e, FrameTransport.recv t = (.error e, t') → t' = t := by
  have hall (calls : List MockCall) (h : Fails (receive calls).transport) :
      (receive calls).received = payloads (incoming calls) := by
    have heq := payloads_receive calls []
    rwa [List.append_nil, List.append_nil, payloads_of_fails h, List.append_nil] at heq
  refine ⟨?_, hall calls, ?_, ?_⟩
  · intro tail
    exact ⟨_, payloads_receive calls tail⟩
  · obtain ⟨n, hn⟩ := fails_after (receive calls)
    have hfails : Fails (receive (calls ++ List.replicate n .recv)).transport := by
      rwa [receive, List.foldl_append]
    refine ⟨n, hfails, ?_⟩
    rw [hall _ hfails, incoming_recvs]
  · intro t t' e h
    rcases reads_or_fails t.reader with ⟨p, rest, hslice, -⟩ | ⟨e, e', hslice, -⟩
    · rw [recv_of_reads hslice] at h
      cases h
    · rw [recv_of_fails hslice] at h
      cases h
      rfl

end KoSta.Transport
