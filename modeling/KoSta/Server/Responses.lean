import KoSta.Server.Accounts

/-! What the responses of a session are sealed with. -/
namespace KoSta.Server
open Lib Tl Crypto

/-- What a response consists of: `count` of them have been sealed before under its key, and
`number` have been numbered. -/
structure Response where
  id : Int64
  key : AesKey
  macKey : MacKey
  count : Nat
  random : Vector UInt8 12
  msgId : Int64
  number : Nat
  data : Bytes

/-- The first four bytes of a nonce. -/
def noncePrefix (nonce : Nonce) : Nat := fromBytesBe (nonce.toList.take 4)

section Frames

variable [Platform]

def Response.frame (r : Response) : Bytes :=
  encryptedFrame r.key r.macKey r.id (generateNonce (UInt32.ofNat r.count) r.random)
    (withHeader r.msgId (Int32.ofNat r.number) r.data)

/-- The sequence number a holder of the key reads in a frame. -/
def sentSeqNo (key : AesKey) (frame : Bytes) : Option Int32 :=
  match readHeader.run (ctrDecrypt key (frameNonce frame) (frameCiphertext frame)) with
  | .ok (_, seqNo) _ => some seqNo
  | _ => none

theorem frameNonce_encryptedFrame (key : AesKey) (macKey : MacKey) (id : Int64) (nonce : Nonce)
    (plaintext : Bytes) : frameNonce (encryptedFrame key macKey id nonce plaintext) = nonce :=
  frameNonce_sealFrame id nonce _ _

theorem sentSeqNo_encryptedFrame (key : AesKey) (macKey : MacKey) (id : Int64) (nonce : Nonce)
    (msgId : Int64) (seqNo : Int32) (data : Bytes) :
    sentSeqNo key (encryptedFrame key macKey id nonce (withHeader msgId seqNo data)) =
      some seqNo := by
  unfold sentSeqNo
  rw [ctrDecrypt_encryptedFrame, run_readHeader]

theorem sentSeqNo_frame (r : Response) :
    sentSeqNo r.key r.frame = some (Int32.ofNat r.number) :=
  sentSeqNo_encryptedFrame _ _ _ _ _ _ _

theorem noncePrefix_frame (r : Response) :
    noncePrefix (frameNonce r.frame) = (UInt32.ofNat r.count).toNat := by
  have hlen : (u32ToBeBytes (UInt32.ofNat r.count)).toList.length = 4 := Vector.length_toList
  have hlt : (UInt32.ofNat r.count).toNat < 256 ^ 4 := UInt32.toNat_lt _
  unfold noncePrefix Response.frame
  rw [frameNonce_encryptedFrame, toList_generateNonce, List.take_left' hlen,
    toList_u32ToBeBytes, fromBytesBe, List.reverse_reverse]
  exact ofLeBytes_leBytes_of_lt hlt

end Frames

/-! ### How far a session has got -/

/-- No key exchange has rewritten the session's row. -/
def Once (events : List Event) : Prop := (events.filter Event.establishes).length ≤ 1

/-- How many responses have been numbered. -/
def reservations (events : List Event) : Nat := (reservedCounters events).length

section Sealing

variable [Platform] {events : List Event} {rs : List Response} {m n : Nat}

/-- The responses are these, newest first. -/
structure Sealing (events : List Event) (rs : List Response) (m n : Nat) : Prop where
  frames : sealedFrames events = rs.map Response.frame
  ascending : rs.Pairwise fun r s => s.count < r.count ∧ s.number < r.number
  below : ∀ r ∈ rs, r.count < m ∧ r.number < n

/-- The row counts on from these responses. -/
structure Stands (row : FullSession) (rs : List Response) (m n : Nat) : Prop where
  sendCounter : row.sendCounter = UInt32.ofNat m
  sendSeqNo : row.sendSeqNo + 1 = Int32.ofNat n
  key : ∀ r ∈ rs, r.key = row.serverWriteKey

/-- What the row of a session and its responses have to do with each other. -/
def Answers (row : Option FullSession) (events : List Event) : Prop :=
  ∃ rs m, Sealing events rs m (reservations events) ∧ m ≤ reservations events ∧
    ∀ r, row = some r → Stands r rs m (reservations events)

/-- The next response can be sealed under this cipher, with this number. -/
def Ready (events : List Event) (crypto : SessionCrypto) (seqNo : Int32) : Prop :=
  ∃ rs m n, Sealing events rs m n ∧ m ≤ n ∧ reservations events = n + 1 ∧
    crypto.sendCounter = UInt32.ofNat m ∧ seqNo = Int32.ofNat n ∧
    ∀ r ∈ rs, r.key = crypto.serverWriteKey

/-- The cipher seals with the key and the counter of the row. -/
structure Carries (crypto : SessionCrypto) (row : FullSession) : Prop where
  sendCounter : crypto.sendCounter = row.sendCounter
  key : crypto.serverWriteKey = row.serverWriteKey

/-- What a response does to the cipher it is sealed with. -/
def Advanced (crypto crypto' : SessionCrypto) : Prop :=
  ∃ sendCounter, succU32 crypto.sendCounter = some sendCounter ∧
    crypto' = { crypto with sendCounter }

/-- The row's columns that matter for responses are the same. -/
structure SendsAlike (row row' : FullSession) : Prop where
  sendCounter : row'.sendCounter = row.sendCounter
  sendSeqNo : row'.sendSeqNo = row.sendSeqNo
  key : row'.serverWriteKey = row.serverWriteKey

theorem Sealing.mono {m' n' : Nat} (h : Sealing events rs m n) (hm : m ≤ m') (hn : n ≤ n') :
    Sealing events rs m' n' := by
  refine ⟨h.frames, h.ascending, ?_⟩
  intro r hr
  obtain ⟨hcount, hnumber⟩ := h.below r hr
  exact ⟨Nat.lt_of_lt_of_le hcount hm, Nat.lt_of_lt_of_le hnumber hn⟩

theorem Sealing.seal {r : Response} (h : Sealing events rs m n) (hcount : r.count = m)
    (hnumber : r.number = n) (conn : ConnId) (id : Int64) (now : Nat) (counter : UInt32) :
    Sealing (.stamped conn id now counter :: .sealed conn id r.frame :: events) (r :: rs)
      (m + 1) (n + 1) := by
  constructor
  · exact congrArg (List.cons r.frame) h.frames
  · apply List.pairwise_cons.mpr
    refine ⟨?_, h.ascending⟩
    intro s hs
    rw [hcount, hnumber]
    exact h.below s hs
  · intro s hs
    rcases List.mem_cons.mp hs with rfl | hs
    · omega
    · obtain ⟨hc, hn⟩ := h.below s hs
      omega

omit [Platform] in
theorem Carries.alike {crypto : SessionCrypto} {row row' : FullSession} (h : Carries crypto row)
    (hsame : SendsAlike row row') : Carries crypto row' :=
  ⟨h.sendCounter.trans hsame.sendCounter.symm, h.key.trans hsame.key.symm⟩

variable {row row' : FullSession} {crypto : SessionCrypto} {seqNo : Int32}

theorem Answers.alike (h : Answers (some row) events) (hsame : SendsAlike row row') :
    Answers (some row') events := by
  obtain ⟨rs, m, hsealing, hm, hrow⟩ := h
  refine ⟨rs, m, hsealing, hm, ?_⟩
  rintro r ⟨⟩
  obtain ⟨hcounter, hseq, hkey⟩ := hrow row rfl
  constructor
  · rw [hsame.sendCounter, hcounter]
  · rw [hsame.sendSeqNo, hseq]
  · intro s hs
    rw [hsame.key, hkey s hs]

theorem succI32_some {x y : Int32} (h : succI32 x = some y) : y = x + 1 := by
  unfold succI32 at h
  split at h
  · cases h
  · exact (Option.some.inj h).symm

theorem succU32_some {x y : UInt32} (h : succU32 x = some y) : y = x + 1 := by
  unfold succU32 at h
  split at h
  · cases h
  · exact (Option.some.inj h).symm

/-- An event that neither numbers nor seals a response. -/
theorem Answers.event {row : Option FullSession} {e : Event} (h : Answers row events)
    (hframes : sealedFrames (e :: events) = sealedFrames events)
    (hnumber : reservations (e :: events) = reservations events) : Answers row (e :: events) := by
  obtain ⟨rs, m, hsealing, hm, hrow⟩ := h
  rw [Answers, hnumber]
  exact ⟨rs, m, ⟨hframes.trans hsealing.frames, hsealing.ascending, hsealing.below⟩, hm, hrow⟩

/-- A number for the next response has been taken. -/
theorem Answers.reserve (h : Answers (some row) events) (hcarries : Carries crypto row)
    (hseq : succI32 row.sendSeqNo = some seqNo) (hcounter : row'.sendCounter = row.sendCounter)
    (hnumber : row'.sendSeqNo = seqNo) (hkey : row'.serverWriteKey = row.serverWriteKey)
    (conn : ConnId) (id : Int64) (counter : UInt32) :
    Answers (some row') (.reserved conn id counter :: events) ∧
      Ready (.reserved conn id counter :: events) crypto seqNo := by
  obtain ⟨rs, m, hsealing, hm, hrow⟩ := h
  have hstands := hrow row rfl
  have hmore : reservations (.reserved conn id counter :: events) = reservations events + 1 := rfl
  have hnext : seqNo = Int32.ofNat (reservations events) := by
    rw [succI32_some hseq]
    exact hstands.sendSeqNo
  have hsame : Sealing (.reserved conn id counter :: events) rs m (reservations events) :=
    ⟨hsealing.frames, hsealing.ascending, hsealing.below⟩
  constructor
  · refine ⟨rs, m, hsame.mono (Nat.le_refl m) (by omega), by omega, ?_⟩
    rintro r ⟨⟩
    constructor
    · rw [hcounter, hstands.sendCounter]
    · rw [hnumber, hnext, hmore]
      exact (Int32.ofNat_add _ 1).symm
    · intro s hs
      rw [hkey, hstands.key s hs]
  · refine ⟨rs, m, reservations events, hsame, hm, hmore, ?_, hnext, ?_⟩
    · rw [hcarries.sendCounter, hstands.sendCounter]
    · intro s hs
      rw [hcarries.key, hstands.key s hs]

/-- The cipher the response has been sealed with is in the row, the response not yet on its way. -/
theorem Ready.settle {crypto' : SessionCrypto} (h : Ready events crypto seqNo)
    (hadvanced : Advanced crypto crypto') (hcarries : Carries crypto' row)
    (hnumber : row.sendSeqNo = seqNo) : Answers (some row) events := by
  obtain ⟨rs, m, n, hsealing, hm, hmore, hcounter, hnext, hkey⟩ := h
  obtain ⟨sendCounter, hsucc, rfl⟩ := hadvanced
  rw [Answers, hmore]
  refine ⟨rs, m + 1, hsealing.mono (by omega) (by omega), by omega, ?_⟩
  rintro r ⟨⟩
  constructor
  · rw [← hcarries.sendCounter, succU32_some hsucc, hcounter]
    exact (UInt32.ofNat_add m 1).symm
  · rw [hnumber, hnext]
    exact (Int32.ofNat_add n 1).symm
  · intro s hs
    rw [hkey s hs]
    exact hcarries.key

theorem Ready.stamp {crypto' : SessionCrypto} (h : Ready events crypto seqNo)
    (hadvanced : Advanced crypto crypto') (hcarries : Carries crypto' row)
    (hnumber : row.sendSeqNo = seqNo) (conn : ConnId) (id : Int64) (now : Nat) (counter : UInt32)
    (random : Vector UInt8 12) (msgId : Int64) (data : Bytes) :
    Answers (some row) (.stamped conn id now counter ::
      .sealed conn id
        (responseFrame id crypto random (withHeader msgId seqNo data)) :: events) := by
  obtain ⟨rs, m, n, hsealing, hm, hmore, hcounter, hnext, hkey⟩ := h
  obtain ⟨sendCounter, hsucc, rfl⟩ := hadvanced
  let r : Response := ⟨id, crypto.serverWriteKey, crypto.serverMacKey, m, random, msgId, n, data⟩
  have hframe : responseFrame id crypto random (withHeader msgId seqNo data) = r.frame := by
    unfold responseFrame Response.frame
    rw [hcounter, hnext]
  have hsame : reservations (.stamped conn id now counter :: .sealed conn id r.frame :: events) =
      n + 1 := hmore
  rw [Answers, hframe, hsame]
  refine ⟨r :: rs, m + 1, hsealing.seal rfl rfl conn id now counter, by omega, ?_⟩
  rintro s ⟨⟩
  constructor
  · rw [← hcarries.sendCounter, succU32_some hsucc, hcounter]
    exact (UInt32.ofNat_add m 1).symm
  · rw [hnumber, hnext]
    exact (Int32.ofNat_add n 1).symm
  · intro s hs
    rcases List.mem_cons.mp hs with rfl | hs
    · exact hcarries.key
    · rw [hkey s hs]
      exact hcarries.key

/-- A row as a key exchange leaves it. -/
theorem answers_created (hcounter : row.sendCounter = 0) (hseq : row.sendSeqNo = -1)
    (hepoch : epoch events = []) : Answers (some row) events := by
  have hreserved : reservations events = 0 := by
    rw [reservations, reservedCounters, hepoch]
    rfl
  have hframes : sealedFrames events = [] := by
    rw [sealedFrames, hepoch]
    rfl
  rw [Answers, hreserved]
  refine ⟨[], 0, ⟨hframes, List.Pairwise.nil, nofun⟩, Nat.le_refl 0, ?_⟩
  rintro r ⟨⟩
  refine ⟨hcounter, ?_, nofun⟩
  rw [hseq]
  rfl

end Sealing

end KoSta.Server
