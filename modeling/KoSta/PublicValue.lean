import KoSta.Client.Histories
import KoSta.Link
import KoSta.Tl.Sizes

/-! What the client accepts as the server's public value. -/
namespace KoSta
open Lib Tl Crypto Transport Client

/-- A peer whose replies are known beforehand, and to whom anything can be sent. -/
structure Script where
  replies : List Bytes

instance : FrameTransport Script where
  send _ t := (.ok (), t)
  recv t :=
    match t.replies with
    | [] => (.error (.error (.io .unexpectedEof)), t)
    | reply :: replies => (.ok reply, ⟨replies⟩)

/-- The same session, with one more reply to come. -/
def withReply (reply : Bytes) (s : Session Script) : Session Script :=
  { s with transport := ⟨s.transport.replies ++ [reply]⟩ }

/-- A call that ends well on a plain session ends as well if another reply is to come. -/
def Patient {α : Type} (x : ClientM Script α) : Prop :=
  ∀ reply s a s', s.crypto = none → x.exec s = (.ok a, s') →
    s'.crypto = none ∧ x.exec (withReply reply s) = (.ok a, withReply reply s')

namespace Patient

variable {α β : Type} {x y : ClientM Script α} {f : α → ClientM Script β}

theorem pure (a : α) : Patient (pure a : ClientM Script α) := by
  rintro reply s _ _ hs ⟨⟩
  exact ⟨hs, rfl⟩

theorem throw (e : Failure KostaError) : Patient (throw e : ClientM Script α) := nofun

theorem bind (hx : Patient x) (hf : ∀ a, Patient (f a)) : Patient (x >>= f) := by
  intro reply s b s' hs h
  obtain ⟨a, t, hxa, hfa⟩ := exec_bind_ok h
  obtain ⟨ht, hmore⟩ := hx reply s a t hs hxa
  rw [exec_bind_of_ok hmore]
  exact hf a reply t b s' ht hfa

theorem ite {c : Prop} [Decidable c] (hx : Patient x) (hy : Patient y) :
    Patient (if c then x else y) := by
  split
  · exact hx
  · exact hy

theorem orPanic (x : Option α) : Patient (orPanic x) := by
  cases x with
  | none => exact throw _
  | some a => exact pure a

theorem ofCrypto (x : Except CryptoError α) : Patient (ofCrypto x) := by
  cases x with
  | error e => exact throw _
  | ok a => exact pure a

theorem readFrom (r : Reader Tl.Error α) (bytes : Bytes) : Patient (readFrom r bytes) := by
  unfold Client.readFrom
  cases r.run bytes with
  | ok a rest => exact pure _
  | err e => exact throw _
  | panic => exact throw _

end Patient

section Exchange

variable [Platform] {publicKey : Vector UInt8 32} {draws : AuthDraws}

theorem exec_sendTl_script {s : Session Script} (hs : s.crypto = none) (now : Nat)
    (random : Vector UInt8 12) (obj : TlObject) : (sendTl now random obj).exec s = (.ok (), s) := by
  unfold sendTl
  rw [exec_bind_of_ok (exec_get s), hs]
  rfl

theorem exec_recvTl_script {s : Session Script} (hs : s.crypto = none) {reply : Bytes}
    {replies : List Bytes} (h : s.transport.replies = reply :: replies) (now : Nat) :
    (recvTl now).exec s = (do
      let (obj, _) ← readFrom TlObject.readBoxed reply
      return obj : ClientM Script TlObject).exec { s with transport := ⟨replies⟩ } := by
  have hrecv : (transportRecv : ClientM Script Bytes).exec s =
      (.ok reply, { s with transport := ⟨replies⟩ }) := by
    unfold transportRecv
    rw [exec_bind_of_ok (exec_get s)]
    simp only [FrameTransport.recv, h]
    rfl
  unfold recvTl
  rw [exec_bind_of_ok hrecv]
  unfold receive
  rw [exec_bind_of_ok (exec_get _)]
  simp only [hs]

theorem patient_exchange (draw : ExchangeDraw) (request : TlObject) :
    Patient (exchange draw request) := by
  intro reply s obj s' hs h
  unfold exchange at h ⊢
  rw [exec_bind_of_ok (exec_sendTl_script hs _ _ _)] at h
  rw [exec_bind_of_ok (exec_sendTl_script (s := withReply reply s) hs _ _ _)]
  cases hreplies : s.transport.replies with
  | nil =>
    have hnone : (transportRecv : ClientM Script Bytes).exec s =
        (.error (.error (.transport (.io .unexpectedEof))), s) := by
      unfold transportRecv
      rw [exec_bind_of_ok (exec_get s)]
      simp only [FrameTransport.recv, hreplies]
      rfl
    rw [recvTl, exec_bind_of_error hnone] at h
    cases h
  | cons first replies =>
    have hmore : (withReply reply s).transport.replies = first :: (replies ++ [reply]) := by
      rw [withReply, hreplies]
      rfl
    rw [exec_recvTl_script hs hreplies] at h
    rw [exec_recvTl_script (s := withReply reply s) hs hmore]
    exact ((Patient.readFrom _ _).bind fun _ => Patient.pure _) reply
      { s with transport := ⟨replies⟩ } obj s' hs h

theorem patient_dhAnswer : Patient (dhAnswer publicKey draws) := by
  refine Patient.bind ?_ fun resPq => Patient.bind ?_ fun _ => Patient.bind ?_ fun dhParams => ?_
  · refine (patient_exchange _ _).bind fun reply => ?_
    cases reply with
    | resPQ resPq => exact (Patient.throw _).ite (Patient.pure _)
    | _ => exact Patient.throw _
  · exact (Patient.throw _).ite ((Patient.throw _).ite ((Patient.throw _).ite (Patient.pure _)))
  · refine (Patient.ofCrypto _).bind fun data => (Patient.orPanic _).bind fun fingerprint => ?_
    refine (patient_exchange _ _).bind fun reply => ?_
    cases reply with
    | serverDHParamsOk dhParams => exact (Patient.throw _).ite (Patient.pure _)
    | _ => exact Patient.throw _
  refine Patient.bind ?_ fun _ => Patient.bind ?_ fun inner => Patient.bind ?_ fun _ => ?_
  · unfold checkSignature
    dsimp only
    split
    · exact Patient.pure _
    · exact Patient.throw _
  · refine (Patient.ofCrypto _).bind fun decrypted => (Patient.readFrom _ _).bind fun read => ?_
    obtain ⟨obj, rest⟩ := read
    cases obj with
    | serverDHInnerData inner => exact (Patient.throw _).ite (Patient.pure _)
    | _ => exact Patient.throw _
  · unfold checkDh
    dsimp only
    split
    · exact Patient.throw _
    · exact (Patient.throw _).ite (Patient.pure _)
  · exact Patient.pure _

/-- The reply that finishes the exchange, for a peer that knows the secret. -/
def lastReply (draws : AuthDraws) (serverNonce : Int128) (inner : ServerDHInnerData) : TlObject :=
  .dhGenOk
    { nonce := draws.nonce, serverNonce
      newNonceHash1 := newNonceHash1 (sharedSecret draws inner) }

theorem run_lastReply (serverNonce : Int128) (inner : ServerDHInnerData) :
    TlObject.readBoxed.run (lastReply draws serverNonce inner).writeBoxed =
      .ok (lastReply draws serverNonce inner) [] := by
  have hlen : (lastReply draws serverNonce inner).writeBoxed.length < lengthLimit := by
    rw [lastReply, length_dhGenOk]
    decide
  have hread := reads_writeBoxed (lastReply draws serverNonce inner) hlen []
  rwa [List.append_nil] at hread

omit [Platform] in
theorem length_dhPrime_of_read {bs rest : Bytes} {inner : ServerDHInnerData}
    (h : TlObject.readBoxed.run bs = .ok (.serverDHInnerData inner) rest) :
    inner.dhPrime.length < lengthLimit := by
  obtain ⟨buf, r₁, -, h₁⟩ := Reader.run_bind_eq_ok.mp h
  have hinner : (readBytes : Reader Error ServerDHInnerData).run r₁ = .ok inner rest := by
    have hbranch {c : Prop} [Decidable c] {r r' : Reader Error TlObject} {o : TlObject}
        (hread : (if c then r else r').run r₁ = .ok o rest) :
        r.run r₁ = .ok o rest ∨ r'.run r₁ = .ok o rest := by
      split at hread
      · exact Or.inl hread
      · exact Or.inr hread
    unfold readConstructor at h₁
    repeat
      rcases hbranch h₁ with hread | h₁
      · obtain ⟨obj, hobj, hobject⟩ := boxed_eq_ok hread
        cases hobj <;> exact hobject
    cases h₁
  obtain ⟨nonce, r₂, -, h₂⟩ := Reader.run_bind_eq_ok.mp hinner
  obtain ⟨serverNonce, r₃, -, h₃⟩ := Reader.run_bind_eq_ok.mp h₂
  obtain ⟨g, r₄, -, h₄⟩ := Reader.run_bind_eq_ok.mp h₃
  obtain ⟨dhPrime, r₅, hprime, h₅⟩ := Reader.run_bind_eq_ok.mp h₄
  obtain ⟨gA, r₆, -, h₆⟩ := Reader.run_bind_eq_ok.mp h₅
  obtain ⟨serverTime, r₇, -, h₇⟩ := Reader.run_bind_eq_ok.mp h₆
  cases h₇
  exact length_of_readTlBytes hprime
/-- What the last checks of an accepted answer say about it. -/
theorem dhAnswer_ok {T : Type} [FrameTransport T] {s t : Session T} {serverNonce : Int128}
    {inner : ServerDHInnerData}
    (h : (dhAnswer publicKey draws).exec s = (.ok (serverNonce, inner), t)) :
    (∃ decrypted rest, TlObject.readBoxed.run decrypted = .ok (.serverDHInnerData inner) rest) ∧
      validateDhParams draws.dhBases (fromBytesBe inner.dhPrime) (generator inner) = .ok () := by
  unfold dhAnswer at h
  obtain ⟨resPq, t₁, -, h₁⟩ := exec_bind_ok h
  obtain ⟨_, t₂, -, h₂⟩ := exec_bind_ok h₁
  obtain ⟨dhParams, t₃, -, h₃⟩ := exec_bind_ok h₂
  obtain ⟨_, t₄, -, h₄⟩ := exec_bind_ok h₃
  obtain ⟨found, t₅, hopen, h₅⟩ := exec_bind_ok h₄
  obtain ⟨_, t₆, hcheck, h₆⟩ := exec_bind_ok h₅
  cases h₆
  constructor
  · unfold openAnswer at hopen
    obtain ⟨decrypted, u₁, -, hread⟩ := exec_bind_ok hopen
    obtain ⟨⟨obj, rest⟩, u₂, hobj, hnonce⟩ := exec_bind_ok hread
    obtain ⟨hrun, -⟩ := readFrom_ok hobj
    cases obj with
    | serverDHInnerData obj =>
      dsimp only at hnonce hrun
      split at hnonce
      · cases hnonce
      · cases hnonce
        exact ⟨decrypted, rest, hrun⟩
    | _ => cases hnonce
  · unfold checkDh at hcheck
    dsimp only at hcheck
    split at hcheck
    · cases hcheck
    · assumption

omit [Platform] in
theorem prime_pos_of_valid {bases : Nat → Nat} {p g : Nat}
    (h : validateDhParams bases p g = .ok ()) : 0 < p := by
  refine Nat.pos_of_ne_zero ?_
  rintro rfl
  cases h

omit [Platform] in
/-- The client's part of the key is no longer than the prime of the answer. -/
theorem length_clientInner (serverNonce : Int128) {inner : ServerDHInnerData}
    (hprime : inner.dhPrime.length < lengthLimit) (hpos : 0 < fromBytesBe inner.dhPrime) :
    (pad draws.clientPadding
      (TlObject.clientDHInnerData (clientInner draws serverNonce inner)).writeBoxed).length ≤
      2 ^ 36 := by
  have hlt := ofLeBytes_lt inner.dhPrime.reverse
  rw [List.length_reverse] at hlt
  have hpublic : computePublicKey (generator inner) (exponent draws inner)
      (fromBytesBe inner.dhPrime) < 256 ^ inner.dhPrime.length := by
    rw [computePublicKey, modPow_eq]
    exact Nat.lt_trans (Nat.mod_lt _ hpos) hlt
  have hne : 0 < inner.dhPrime.length := by
    refine List.length_pos_iff.mpr fun hnil => ?_
    rw [hnil] at hpos
    exact absurd hpos (by decide)
  have hbytes := byteLength_le hne hpublic
  have hgB := tlSize_le (clientInner draws serverNonce inner).gB.length
  have hlen : (clientInner draws serverNonce inner).gB.length ≤ inner.dhPrime.length := by
    rw [clientInner, length_toBytesBe]
    exact hbytes
  have hwritten : (TlObject.clientDHInnerData
      (clientInner draws serverNonce inner)).writeBoxed.length ≤ 2 ^ 25 := by
    rw [length_clientDHInnerData]
    unfold lengthLimit at hprime
    omega
  have hpad := (totalPad_bounds (TlObject.clientDHInnerData
    (clientInner draws serverNonce inner)).writeBoxed.length draws.clientPadding.position).2.1
  rw [length_pad]
  omega

/-- With that reply the exchange is finished, whatever the server's part of the key is. -/
theorem exec_setClientDh_lastReply (hgcm : ∀ key nonce data, data.length ≤ 2 ^ 36 →
      (aes256GcmEncrypt key nonce data).isSome = true) {s : Session Script} (hs : s.crypto = none)
    {serverNonce : Int128} {inner : ServerDHInnerData}
    (hprime : inner.dhPrime.length < lengthLimit) (hpos : 0 < fromBytesBe inner.dhPrime)
    (hreplies : s.transport.replies = [(lastReply draws serverNonce inner).writeBoxed]) :
    (setClientDh draws serverNonce inner).exec s = (.ok (), { s with transport := ⟨[]⟩ }) := by
  obtain ⟨ciphertext, hc⟩ := Option.isSome_iff_exists.mp (hgcm (tmpKey draws.newNonce serverNonce).1
    (tmpKey draws.newNonce serverNonce).2 (pad draws.clientPadding
      (TlObject.clientDHInnerData (clientInner draws serverNonce inner)).writeBoxed)
      (length_clientInner serverNonce hprime hpos))
  have hencrypt : (ofCrypto (encryptInner (tmpKey draws.newNonce serverNonce)
      (pad draws.clientPadding (TlObject.clientDHInnerData
        (clientInner draws serverNonce inner)).writeBoxed)) : ClientM Script Bytes).exec s =
      (.ok ciphertext, s) := by
    rw [encryptInner, hc]
    rfl
  have hexchange (request : TlObject) : (exchange draws.dhGen request).exec s =
      (.ok (lastReply draws serverNonce inner), { s with transport := ⟨[]⟩ }) := by
    unfold exchange
    rw [exec_bind_of_ok (exec_sendTl_script hs _ _ _), exec_recvTl_script hs hreplies]
    unfold readFrom
    rw [run_lastReply]
    rfl
  unfold setClientDh
  rw [exec_bind_of_ok hencrypt, exec_bind_of_ok (hexchange _)]
  unfold lastReply
  dsimp only
  rw [if_neg (by simp), if_neg (by simp)]
  rfl

/-- The server's part of the key in the answer that the client has accepted. -/
def Received [FrameTransport T] (publicKey : Vector UInt8 32) (draws : AuthDraws) (s : Session T)
    (inner : ServerDHInnerData) : Prop :=
  ∃ serverNonce t, (dhAnswer publicKey draws).exec s = (.ok (serverNonce, inner), t)

/-- The public value is strictly between 1 and one less than the prime. -/
def InRange (inner : ServerDHInnerData) : Prop :=
  1 < fromBytesBe inner.gA ∧ fromBytesBe inner.gA < fromBytesBe inner.dhPrime - 1

/-- A client that has accepted an answer goes on to finish the exchange. -/
theorem exists_authenticate (hgcm : ∀ key nonce data, data.length ≤ 2 ^ 36 →
      (aes256GcmEncrypt key nonce data).isSome = true) {replies : List Bytes} {serverNonce : Int128}
    {inner : ServerDHInnerData} {t : Session Script}
    (hanswer : (dhAnswer publicKey draws).exec (Session.fromTransport ⟨replies⟩) =
      (.ok (serverNonce, inner), t)) (hread : t.transport.replies = []) :
    ∃ s s', Received publicKey draws s inner ∧
      (authenticate publicKey draws).exec (T := Script) s = (.ok (), s') := by
  obtain ⟨⟨decrypted, rest, hinner⟩, hvalid⟩ := dhAnswer_ok hanswer
  obtain ⟨ht, hmore⟩ := patient_dhAnswer (lastReply draws serverNonce inner).writeBoxed
    (Session.fromTransport ⟨replies⟩) _ _ rfl hanswer
  have hreplies : (withReply (lastReply draws serverNonce inner).writeBoxed t).transport.replies =
      [(lastReply draws serverNonce inner).writeBoxed] := by
    rw [withReply, hread]
    rfl
  have hcrypto : (withReply (lastReply draws serverNonce inner).writeBoxed t).crypto = none := ht
  have hset := exec_setClientDh_lastReply hgcm hcrypto (length_dhPrime_of_read hinner)
    (prime_pos_of_valid hvalid) hreplies
  refine ⟨_, Session.install { t with transport := ⟨[]⟩ } draws.nonce serverNonce
    (sharedSecret draws inner), ⟨serverNonce, _, hmore⟩, ?_⟩
  unfold authenticate
  rw [exec_bind_of_ok hmore]
  dsimp only
  rw [exec_bind_of_ok hset]
  rfl

/-- Whether the server's public value is in range makes no difference to the client: of an answer
that has passed its checks it accepts every value there is. -/
theorem received_inRange_iff (hgcm : ∀ key nonce data, data.length ≤ 2 ^ 36 →
      (aes256GcmEncrypt key nonce data).isSome = true) {replies : List Bytes} {serverNonce : Int128}
    {inner : ServerDHInnerData} {t : Session Script}
    (hanswer : (dhAnswer publicKey draws).exec (Session.fromTransport ⟨replies⟩) =
      (.ok (serverNonce, inner), t)) (hread : t.transport.replies = []) :
    (∀ (T : Type) [FrameTransport T] (draws' : AuthDraws) (s s' : Session T)
        (inner' : ServerDHInnerData), Received publicKey draws' s inner' →
        inner'.gA = inner.gA → inner'.dhPrime = inner.dhPrime →
        (authenticate publicKey draws').exec s = (.ok (), s') → InRange inner') ↔
      validatePublicValue (fromBytesBe inner.gA) (fromBytesBe inner.dhPrime) = .ok () := by
  rw [validatePublicValue_ok]
  constructor
  · intro h
    obtain ⟨s, s', hreceived, hok⟩ := exists_authenticate hgcm hanswer hread
    exact h Script draws s s' inner hreceived rfl rfl hok
  · rintro h T _ draws' s s' inner' - hgA hprime -
    unfold InRange
    rwa [hgA, hprime]

end Exchange

/-! ### A peer that sends a public value of its choice -/

namespace Trial

def serverNonce : Int128 := ⟨Vector.replicate 16 8⟩

/-- The answer of a peer with the key of the server. -/
def answerWith (gA : Bytes) : ServerDHInnerData where
  nonce := (authDraws 2).nonce
  serverNonce
  g := 2
  dhPrime := toBytesBe dhPrime
  gA
  serverTime := 0

def repliesWith (gA : Bytes) : List Bytes :=
  [(TlObject.resPQ
    { nonce := (authDraws 2).nonce, serverNonce, pq := [35], p := [5], q := [7]
      serverPublicKeyFingerprints := [0] }).writeBoxed,
   (TlObject.serverDHParamsOk
    { nonce := (authDraws 2).nonce, serverNonce
      encryptedAnswer := (TlObject.serverDHInnerData (answerWith gA)).writeBoxed ++
        List.replicate 16 0
      signature := List.replicate 64 0 }).writeBoxed]

/-- Whether a client has accepted this public value and read every reply. -/
def accepts (gA : Bytes) :
    Except (Failure KostaError) (Int128 × ServerDHInnerData) × Session Script → Bool
  | (.ok (_, inner), t) => inner.gA = gA ∧ t.transport.replies = []
  | (.error _, _) => false

def received (gA : Bytes) :
    Except (Failure KostaError) (Int128 × ServerDHInnerData) × Session Script :=
  letI := platform
  (dhAnswer key (authDraws 2)).exec (Session.fromTransport ⟨repliesWith gA⟩)

theorem accepts_one : accepts [1] (received [1]) = true := by decide +kernel

theorem accepts_four : accepts [4] (received [4]) = true := by decide +kernel

theorem exists_of_accepts {gA : Bytes}
    {r : Except (Failure KostaError) (Int128 × ServerDHInnerData) × Session Script}
    (h : accepts gA r = true) : ∃ serverNonce inner t, r = (.ok (serverNonce, inner), t) ∧
      inner.gA = gA ∧ t.transport.replies = [] := by
  rcases r with ⟨result, t⟩
  cases result with
  | error e => cases h
  | ok found =>
    obtain ⟨hgA, hread⟩ := of_decide_eq_true h
    exact ⟨found.1, found.2, t, rfl, hgA, hread⟩

end Trial

/-- A value that the server would have accepted, too. -/
theorem received_inRange_iff_four : letI := Trial.platform
    ∃ inner : ServerDHInnerData, inner.gA = [4] ∧
      ((∀ (T : Type) [FrameTransport T] (draws' : AuthDraws)
        (s s' : Session T) (inner' : ServerDHInnerData), Received Trial.key draws' s inner' →
        inner'.gA = inner.gA → inner'.dhPrime = inner.dhPrime →
        (authenticate Trial.key draws').exec s = (.ok (), s') → InRange inner') ↔
      validatePublicValue (fromBytesBe inner.gA) (fromBytesBe inner.dhPrime) = .ok ()) := by
  obtain ⟨serverNonce, inner, t, hanswer, hgA, hread⟩ :=
    Trial.exists_of_accepts Trial.accepts_four
  exact ⟨inner, hgA, @received_inRange_iff Trial.platform _ _ (fun _ _ _ _ => rfl) _ _ _ _
    hanswer hread⟩

/-- The client ends up with the public value 1, and so with the secret 1. -/
theorem not_received_inRange : ¬ ∀ (_ : Platform) (publicKey : Vector UInt8 32) (T : Type)
    [FrameTransport T] (draws : AuthDraws) (s s' : Session T) (inner : ServerDHInnerData),
    Received publicKey draws s inner → (authenticate publicKey draws).exec s = (.ok (), s') →
    InRange inner := by
  intro h
  obtain ⟨serverNonce, inner, t, hanswer, hgA, hread⟩ :=
    Trial.exists_of_accepts Trial.accepts_one
  obtain ⟨s, s', hreceived, hok⟩ := @exists_authenticate Trial.platform _ _ (fun _ _ _ _ => rfl)
    _ _ _ _ hanswer hread
  have hrange := h Trial.platform Trial.key Script (Trial.authDraws 2) s s' inner hreceived hok
  have hone : 1 < fromBytesBe inner.gA := hrange.1
  rw [hgA] at hone
  exact absurd hone (by decide)

end KoSta
