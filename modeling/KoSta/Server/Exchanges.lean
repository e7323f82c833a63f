import KoSta.Server.KeyExchange

/-! Which requests a finished exchange goes back to. -/
namespace KoSta.Server
open Lib Lib.Prog Tl Crypto Function

/-! ### Answers are small -/

theorem length_toBytesBe_le {n k : Nat} (h : n < 2 ^ k) :
    (toBytesBe n).length ≤ max 1 ((k + 7) / 8) := by
  have hbits := bitLength_le h
  rw [length_toBytesBe]
  unfold byteLength
  omega

theorem length_pad_serverDHInnerData (draw : PadDraw) (inner : ServerDHInnerData)
    (hp : inner.dhPrime.length ≤ 256) (hg : inner.gA.length ≤ 256) :
    (pad draw (TlObject.serverDHInnerData inner).writeBoxed).length ≤ 2048 := by
  have hprime := length_writeTlBytes_le inner.dhPrime
  have hpublic := length_writeTlBytes_le inner.gA
  have hwritten : (TlObject.serverDHInnerData inner).writeBoxed.length ≤ 1000 := by
    simp only [TlObject.writeBoxed, writeBytes, List.length_append, length_u32ToLeBytes,
      length_i32ToLeBytes, Vector.length_toList]
    omega
  have hpad := (totalPad_bounds (TlObject.serverDHInnerData inner).writeBoxed.length
    draw.position).2.1
  rw [length_pad]
  omega

section Runs

variable [Platform] {statics : Statics}

omit [Platform] in
theorem length_pad_answerOf (hpos : 0 < statics.dhPrime) (hsmall : statics.dhPrime < 2 ^ 2048)
    (draws : Draws) (req : ReqDHParams) :
    (pad draws.padding
      (TlObject.serverDHInnerData (answerOf statics draws req)).writeBoxed).length ≤
      2048 := by
  have hpublic : computePublicKey dhG (generatePrivateKey draws.privateKey % statics.dhPrime)
      statics.dhPrime < 2 ^ 2048 := by
    rw [computePublicKey, modPow_eq]
    exact Nat.lt_trans (Nat.mod_lt _ hpos) hsmall
  exact length_pad_serverDHInnerData draws.padding (answerOf statics draws req)
    (length_toBytesBe_le hsmall) (length_toBytesBe_le hpublic)

/-- The encryption of an answer succeeds, as that of any message of such a size. -/
theorem exists_answer (hgcm : ∀ key nonce data, data.length ≤ 2 ^ 36 →
      (aes256GcmEncrypt key nonce data).isSome = true)
    (hpos : 0 < statics.dhPrime) (hsmall : statics.dhPrime < 2 ^ 2048) (draws : Draws)
    (req : ReqDHParams) (inner : PqInnerData) : ∃ encryptedAnswer,
      answer statics draws req inner =
        .ok (some (paramsOk statics req encryptedAnswer).writeBoxed) := by
  have hlen := length_pad_answerOf hpos hsmall draws req
  obtain ⟨ciphertext, hc⟩ := Option.isSome_iff_exists.mp
    (hgcm (tmpKey inner.newNonce req.serverNonce).1 (tmpKey inner.newNonce req.serverNonce).2 _
      (Nat.le_trans hlen (by decide)))
  refine ⟨ciphertext, ?_⟩
  unfold answer encryptInner
  rw [hc]

omit [Platform] in
theorem handshakeKey_inj {nonce serverNonce nonce' serverNonce' : Int128}
    (h : handshakeKey nonce serverNonce = handshakeKey nonce' serverNonce') :
    nonce = nonce' ∧ serverNonce = serverNonce' := by
  obtain ⟨hn, hsn⟩ := List.append_inj h (by simp)
  exact ⟨congrArg Int128.mk (Vector.toList_inj.mp hn),
    congrArg Int128.mk (Vector.toList_inj.mp hsn)⟩

/-! ### Runs -/

/-- A finished exchange with the request it goes back to: its answer, the nonces in both
envelopes, the session with the exponent and the new nonce of that request. -/
structure Follows (statics : Statics) (w₀ : World) (rs : List Request) (r : Request)
    (req : SetClientDHParams) (earlier : List Request) (q : Request) (asked : ReqDHParams)
    (pqInner : PqInnerData) (clientInner : ClientDHInnerData) (reply : Option Bytes) (w' : World) :
    Prop where
  latest : Latest statics rs (handshakeKey req.nonce req.serverNonce)
    (handshakeOf statics q.draws pqInner) earlier q asked pqInner
  nonces : asked.nonce = req.nonce ∧ asked.serverNonce = req.serverNonce
  answered : ∃ encryptedAnswer, ((q.handle statics).exec (handleRequests statics earlier w₀)).1 =
    .ok (some (paramsOk statics asked encryptedAnswer).writeBoxed)
  recent : r.draws.instant - q.draws.instant < handshakeTimeout
  agrees : Agrees statics (handshakeOf statics q.draws pqInner) req clientInner
  reply : reply = some (genOk req (computeSharedSecret (fromBytesBe clientInner.gB)
    (generatePrivateKey q.draws.privateKey % statics.dhPrime) statics.dhPrime)).writeBoxed
  session : ∃ id recent, w'.state.cache id = some (newSession (computeSharedSecret
    (fromBytesBe clientInner.gB) (generatePrivateKey q.draws.privateKey % statics.dhPrime)
      statics.dhPrime) req.nonce req.serverNonce pqInner.newNonce recent)

/-- Neither a session nor an entry of the store that has not expired has changed. -/
structure Untouched (now : Nat) (w w' : World) : Prop where
  sessions : w'.state.db.sessions = w.state.db.sessions
  handshakes : ∀ key entry, now - entry.time < handshakeTimeout →
    (w'.state.handshakes key = some entry ↔ w.state.handshakes key = some entry)

omit [Platform] in
theorem untouched_clean (now : Nat) (w : World) : Untouched now w (w.clean now) := by
  refine ⟨rfl, fun key entry hnow => ?_⟩
  change (w.state.handshakes key).filter _ = some entry ↔ _
  rw [Option.filter_eq_some_iff]
  exact ⟨fun h => h.1, fun h => ⟨h, decide_eq_true hnow⟩⟩

theorem follows_of_ok (hgcm : ∀ key nonce data, data.length ≤ 2 ^ 36 →
      (aes256GcmEncrypt key nonce data).isSome = true)
    (hpos : 0 < statics.dhPrime) (hsmall : statics.dhPrime < 2 ^ 2048) {w₀ : World}
    {rs : List Request} {r : Request} {req : SetClientDHParams} {reply : Option Bytes} {w' : World}
    (hempty : ∀ key, w₀.state.handshakes key = none) (hrs : ∀ p ∈ rs, p.Exchanges)
    (hobj : r.obj = .setClientDHParams req)
    (hok : (r.handle statics).exec (handleRequests statics rs w₀) = (.ok reply, w')) :
    ∃ earlier q asked pqInner clientInner,
      Follows statics w₀ rs r req earlier q asked pqInner clientInner reply w' := by
  unfold Request.handle at hok
  rw [hobj] at hok
  change (handleSetClientDhParams statics r.draws r.conn req).exec _ = _ at hok
  rcases handleSetClientDhParams_cases statics r.draws r.conn req
    (handleRequests statics rs w₀) with ⟨e, heq⟩ | ⟨entry, clientInner, hentry, hagrees, heq⟩
  · rw [heq] at hok
    cases hok
  · obtain ⟨hstored, hfresh⟩ := Option.filter_eq_some_iff.mp hentry
    obtain ⟨earlier, q, asked, pqInner, hlatest⟩ := stored_handleRequests hempty hrs _ _ hstored
    obtain rfl := hlatest.entry
    rw [heq] at hok
    obtain ⟨hreply, rfl⟩ := Prod.mk.inj hok
    have hsecret : secretOf statics (handshakeOf statics q.draws pqInner) clientInner =
        computeSharedSecret (fromBytesBe clientInner.gB)
          (generatePrivateKey q.draws.privateKey % statics.dhPrime) statics.dhPrime := by
      rw [secretOf, handshakeOf, fromBytesBe_toBytesBe]
    rw [hsecret] at hreply ⊢
    have hcache := World.create_cache ((handleRequests statics rs w₀).clean r.draws.instant) r.conn
      (computeAuthKeyId (computeSharedSecret (fromBytesBe clientInner.gB)
        (generatePrivateKey q.draws.privateKey % statics.dhPrime) statics.dhPrime))
      (newSession (computeSharedSecret (fromBytesBe clientInner.gB)
        (generatePrivateKey q.draws.privateKey % statics.dhPrime) statics.dhPrime) req.nonce
        req.serverNonce pqInner.newNonce) (handshakeKey req.nonce req.serverNonce)
    refine ⟨earlier, q, asked, pqInner, clientInner,
      { latest := hlatest
        nonces := handshakeKey_inj hlatest.pair
        answered := ?_
        recent := of_decide_eq_true hfresh
        agrees := hagrees
        reply := (Except.ok.inj hreply).symm
        session := ⟨_, _, hcache⟩ }⟩
    unfold Request.handle
    rw [hlatest.obj]
    change ∃ a, ((handleReqDhParams statics q.draws asked).exec _).1 = _
    rcases handleReqDhParams_cases statics q.draws asked
      (handleRequests statics earlier w₀) with ⟨e, -, hno⟩ | ⟨inner, -, hq⟩
    · exact absurd hlatest.asks (hno pqInner)
    · rw [hq]
      exact exists_answer hgcm hpos hsmall q.draws asked inner

theorem untouched_of_error (hgcm : ∀ key nonce data, data.length ≤ 2 ^ 36 →
      (aes256GcmEncrypt key nonce data).isSome = true)
    (hpos : 0 < statics.dhPrime) (hsmall : statics.dhPrime < 2 ^ 2048) {w w' : World} {r : Request}
    {e : Stop} (hr : r.Exchanges) (herr : (r.handle statics).exec w = (.error e, w')) :
    Untouched r.draws.instant w w' := by
  unfold Request.handle at herr
  unfold Request.Exchanges at hr
  cases hobj : r.obj with
  | reqPq req =>
    rw [hobj] at herr
    have hsame := exec_handleReqPq statics r.draws req w
    change (handleReqPq statics r.draws req).exec w = _ at herr
    rw [herr] at hsame
    obtain rfl := hsame
    exact ⟨rfl, fun _ _ _ => Iff.rfl⟩
  | reqDHParams req =>
    rw [hobj] at herr
    change (handleReqDhParams statics r.draws req).exec w = _ at herr
    rcases handleReqDhParams_cases statics r.draws req w with
      ⟨e', heq, -⟩ | ⟨inner, -, heq⟩
    · rw [heq] at herr
      obtain ⟨-, rfl⟩ := Prod.mk.inj herr
      exact ⟨rfl, fun _ _ _ => Iff.rfl⟩
    · obtain ⟨a, ha⟩ := exists_answer hgcm hpos hsmall r.draws req inner
      rw [heq, ha] at herr
      cases herr
  | setClientDHParams req =>
    rw [hobj] at herr
    change (handleSetClientDhParams statics r.draws r.conn req).exec w = _ at herr
    rcases handleSetClientDhParams_cases statics r.draws r.conn req
      w with ⟨e', heq⟩ | ⟨entry, inner, -, -, heq⟩
    · rw [heq] at herr
      obtain ⟨-, rfl⟩ := Prod.mk.inj herr
      exact untouched_clean _ _
    · rw [heq] at herr
      cases herr
  | _ =>
    rw [hobj] at hr
    exact hr.elim

/-- The server finishes an exchange only on a request for parameters it has answered for the same
pair within the minute, and a request that fails changes nothing that has not expired. -/
theorem exchanges_follow (hgcm : ∀ key nonce data, data.length ≤ 2 ^ 36 →
      (aes256GcmEncrypt key nonce data).isSome = true)
    (hpos : 0 < statics.dhPrime) (hsmall : statics.dhPrime < 2 ^ 2048) {w₀ : World}
    (hempty : ∀ key, w₀.state.handshakes key = none) {rs : List Request}
    (hrs : ∀ r ∈ rs, r.Exchanges)
    (hclock : rs.Pairwise fun p r => p.draws.instant ≤ r.draws.instant) :
    ∀ before r after, rs = before ++ r :: after →
      (∀ req reply w', r.obj = .setClientDHParams req →
        (r.handle statics).exec (handleRequests statics before w₀) = (.ok reply, w') →
        ∃ earlier q asked pqInner clientInner,
          Follows statics w₀ before r req earlier q asked pqInner clientInner reply w' ∧
            q.draws.instant ≤ r.draws.instant) ∧
      ∀ e w', (r.handle statics).exec (handleRequests statics before w₀) = (.error e, w') →
        Untouched r.draws.instant (handleRequests statics before w₀) w' := by
  rintro before r after rfl
  refine ⟨fun req reply w' hobj hok => ?_, fun e w' herr => ?_⟩
  · obtain ⟨earlier, q, asked, pqInner, clientInner, hfollows⟩ := follows_of_ok hgcm hpos hsmall
      hempty (fun p hp => hrs p (List.mem_append_left _ hp)) hobj hok
    obtain ⟨later, rfl, -⟩ := hfollows.latest.later
    have hq : q ∈ earlier ++ q :: later := List.mem_append_right _ List.mem_cons_self
    exact ⟨earlier, q, asked, pqInner, clientInner, hfollows,
      (List.pairwise_append.mp hclock).2.2 q hq r List.mem_cons_self⟩
  · exact untouched_of_error hgcm hpos hsmall
      (hrs r (List.mem_append_right _ List.mem_cons_self)) herr

end Runs

/-! ### A small exchange -/

namespace Sample

def exchanging : List Request := handshake.map (Request.mk (draws 0).handler 0 none)

def asking : List Request := exchanging.take 1

/-- The last request of the exchange. -/
def finish : Request := exchanging.getLast (by decide)

theorem exchanges_exchanging : ∀ r ∈ exchanging, r.Exchanges := by
  intro r hr
  obtain ⟨obj, hobj, rfl⟩ := List.mem_map.mp hr
  rcases List.mem_cons.mp hobj with rfl | hobj
  · trivial
  · cases List.mem_singleton.mp hobj
    trivial

theorem dhPrime_small : statics.dhPrime < 2 ^ 2048 := by
  have hsmall : statics.dhPrime < 2 ^ 5 := by decide
  refine Nat.lt_trans hsmall ?_
  apply Nat.pow_lt_pow_right <;> decide

theorem exec_finish : letI := platform
    ∃ reply w', (finish.handle statics).exec (handleRequests statics asking World.init) =
      (.ok reply, w') := by
  have hok : letI := platform
      ((finish.handle statics).exec (handleRequests statics asking World.init)).1.isOk = true := by
    decide +kernel
  rcases hexec : letI := platform
    (finish.handle statics).exec (handleRequests statics asking World.init) with ⟨result, w'⟩
  rw [hexec] at hok
  cases result with
  | error e => cases hok
  | ok reply => exact ⟨reply, w', rfl⟩

end Sample

/-- The last request of the sample is answered, and goes back to the one before. -/
theorem exchanges_follow_sample : letI := Sample.platform
    ∃ req reply w', (Sample.finish.handle Sample.statics).exec
      (handleRequests Sample.statics Sample.asking World.init) = (.ok reply, w') ∧
      ∃ earlier q asked pqInner clientInner, Follows Sample.statics World.init Sample.asking
        Sample.finish req earlier q asked pqInner clientInner reply w' ∧
          q.draws.instant ≤ Sample.finish.draws.instant := by
  obtain ⟨reply, w', hexec⟩ := Sample.exec_finish
  have hfollow := @exchanges_follow Sample.platform Sample.statics (fun _ _ _ _ => rfl) (by decide)
    Sample.dhPrime_small World.init (fun _ => rfl) Sample.exchanging Sample.exchanges_exchanging
    (by decide) Sample.asking Sample.finish [] rfl
  exact ⟨_, reply, w', hexec, hfollow.1 _ reply w' rfl hexec⟩

/-! ### What an exchange does not depend on -/

section Ignored

variable [Platform] {statics : Statics}

/-- Two requests for parameters that differ in the factors, the product and the fingerprint. -/
structure Alike (r r' : Request) (asked asked' : ReqDHParams) : Prop where
  draws : r'.draws = r.draws
  obj : r.obj = .reqDHParams asked
  obj' : r'.obj = .reqDHParams asked'
  nonce : asked'.nonce = asked.nonce
  serverNonce : asked'.serverNonce = asked.serverNonce
  inner : ∃ inner inner', Asks asked inner ∧ Asks asked' inner' ∧ inner'.newNonce = inner.newNonce

/-- The same requests, without those for factors, and with other factors in those for parameters. -/
inductive Ignoring : List Request → List Request → Prop where
  | nil : Ignoring [] []
  | factors {r : Request} {req : ReqPq} {rs rs' : List Request} : r.obj = .reqPq req →
    Ignoring rs rs' → Ignoring (r :: rs) rs'
  | alike {r r' : Request} {asked asked' : ReqDHParams} {rs rs' : List Request} :
    Alike r r' asked asked' → Ignoring rs rs' → Ignoring (r :: rs) (r' :: rs')
  | same {r : Request} {rs rs' : List Request} : Ignoring rs rs' → Ignoring (r :: rs) (r :: rs')

theorem Alike.handle {r r' : Request} {asked asked' : ReqDHParams} (h : Alike r r' asked asked')
    (w : World) : (r'.handle statics).exec w = (r.handle statics).exec w := by
  obtain ⟨inner, inner', hasks, hasks', hnew⟩ := h.inner
  unfold Request.handle
  rw [h.obj, h.obj', h.draws]
  change (handleReqDhParams statics r.draws asked').exec w =
    (handleReqDhParams statics r.draws asked).exec w
  rcases handleReqDhParams_cases statics r.draws asked w with
    ⟨e, -, hno⟩ | ⟨found, hfound, heq⟩
  · exact absurd hasks (hno inner)
  rcases handleReqDhParams_cases statics r.draws asked' w with
    ⟨e, -, hno⟩ | ⟨found', hfound', heq'⟩
  · exact absurd hasks' (hno inner')
  cases hasks.opened.unique hfound.opened
  cases hasks'.opened.unique hfound'.opened
  rw [heq, heq']
  unfold answer answerOf paramsOk handshakeOf
  rw [hnew, h.nonce, h.serverNonce]

theorem Ignoring.handleRequests {rs rs' : List Request} (h : Ignoring rs rs') (w : World) :
    handleRequests statics rs' w = handleRequests statics rs w := by
  induction h generalizing w with
  | nil => rfl
  | @factors r req rs rs' hobj _ ih =>
    rw [ih]
    change _ = Server.handleRequests statics rs (r.exec statics w)
    unfold Request.exec
    rw [hobj]
    exact congrArg _ (exec_handleReqPq statics r.draws req w).symm
  | @alike r r' asked asked' rs rs' halike _ ih =>
    change Server.handleRequests statics rs' ((r'.handle statics).exec w).2 =
      Server.handleRequests statics rs ((r.handle statics).exec w).2
    rw [halike.handle, ih]
  | same _ ih => exact ih _

/-- The server has issued the factors that the latest request for this pair names. -/
def Issued (statics : Statics) (w₀ : World) (rs : List Request) (nonce serverNonce : Int128) :
    Prop :=
  ∃ before p after req resPq, rs = before ++ p :: after ∧ p.obj = .reqPq req ∧
    ((p.handle statics).exec (handleRequests statics before w₀)).1 =
      .ok (some (TlObject.resPQ resPq).writeBoxed) ∧
    resPq.nonce = nonce ∧ resPq.serverNonce = serverNonce ∧
    ∃ entry earlier q asked inner,
      Latest statics rs (handshakeKey nonce serverNonce) entry earlier q asked inner ∧
      asked.p = resPq.p ∧ asked.q = resPq.q ∧ inner.p = resPq.p ∧ inner.q = resPq.q ∧
      inner.pq = resPq.pq

/-- A finished exchange goes back to an answered request for parameters with the same nonces, and
would be finished with any other factors, issued or not. -/
theorem exchanges_ignore_factors (hgcm : ∀ key nonce data, data.length ≤ 2 ^ 36 →
      (aes256GcmEncrypt key nonce data).isSome = true)
    (hpos : 0 < statics.dhPrime) (hsmall : statics.dhPrime < 2 ^ 2048) {w₀ : World}
    {rs : List Request} {r : Request} {req : SetClientDHParams} {reply : Option Bytes} {w' : World}
    (hempty : ∀ key, w₀.state.handshakes key = none) (hrs : ∀ p ∈ rs, p.Exchanges)
    (hobj : r.obj = .setClientDHParams req)
    (hok : (r.handle statics).exec (handleRequests statics rs w₀) = (.ok reply, w')) :
    (∃ earlier q later asked inner encryptedAnswer, rs = earlier ++ q :: later ∧
      q.obj = .reqDHParams asked ∧ asked.nonce = req.nonce ∧ asked.serverNonce = req.serverNonce ∧
      Asks asked inner ∧ ((q.handle statics).exec (handleRequests statics earlier w₀)).1 =
        .ok (some (paramsOk statics asked encryptedAnswer).writeBoxed)) ∧
    ∀ rs', Ignoring rs rs' →
      (r.handle statics).exec (handleRequests statics rs' w₀) = (.ok reply, w') := by
  refine ⟨?_, fun rs' hrs' => ?_⟩
  · obtain ⟨earlier, q, asked, inner, clientInner, hfollows⟩ :=
      follows_of_ok hgcm hpos hsmall hempty hrs hobj hok
    obtain ⟨later, hsplit, -⟩ := hfollows.latest.later
    obtain ⟨encryptedAnswer, hanswer⟩ := hfollows.answered
    exact ⟨earlier, q, later, asked, inner, encryptedAnswer, hsplit, hfollows.latest.obj,
      hfollows.nonces.1, hfollows.nonces.2, hfollows.latest.asks, hanswer⟩
  · rwa [hrs'.handleRequests]

end Ignored

/-- The sample goes back to its request for parameters, and to nothing else. -/
theorem exchanges_ignore_factors_sample : letI := Sample.platform
    ∃ req reply w', (Sample.finish.handle Sample.statics).exec
      (handleRequests Sample.statics Sample.asking World.init) = (.ok reply, w') ∧
      Sample.finish.obj = .setClientDHParams req ∧
      ∀ rs', Ignoring Sample.asking rs' → (Sample.finish.handle Sample.statics).exec
        (handleRequests Sample.statics rs' World.init) = (.ok reply, w') := by
  obtain ⟨reply, w', hexec⟩ := Sample.exec_finish
  have hall := @exchanges_ignore_factors Sample.platform Sample.statics (fun _ _ _ _ => rfl)
    (by decide) Sample.dhPrime_small World.init Sample.asking Sample.finish _ reply w'
    (fun _ => rfl) (fun r hr => Sample.exchanges_exchanging r (List.mem_of_mem_take hr)) rfl hexec
  exact ⟨_, reply, w', hexec, rfl, hall.2⟩

/-- The sample is finished although the server has issued no factors at all. -/
theorem not_issued : ¬ ∀ (_ : Platform) (statics : Statics) (w₀ : World) (rs : List Request)
    (r : Request) (req : SetClientDHParams) (reply : Option Bytes) (w' : World),
    (∀ key, w₀.state.handshakes key = none) → (∀ p ∈ rs, p.Exchanges) →
    r.obj = .setClientDHParams req →
    (r.handle statics).exec (handleRequests statics rs w₀) = (.ok reply, w') →
    Issued statics w₀ rs req.nonce req.serverNonce := by
  intro h
  obtain ⟨reply, w', hexec⟩ := Sample.exec_finish
  obtain ⟨before, p, after, req, resPq, hsplit, hobj, -⟩ := h Sample.platform Sample.statics
    World.init Sample.asking Sample.finish _ reply w' (fun _ => rfl)
    (fun r hr => Sample.exchanges_exchanging r (List.mem_of_mem_take hr)) rfl hexec
  have hp : p ∈ Sample.asking := hsplit ▸ List.mem_append_right _ List.mem_cons_self
  cases List.mem_singleton.mp hp
  cases hobj

end KoSta.Server
