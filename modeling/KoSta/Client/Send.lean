import KoSta.Client.Receive

/-! The identifiers a client writes. -/
namespace KoSta.Client
open Lib Tl Crypto Transport

variable {T : Type}

/-- A call on an authenticated session, with its clock reading. -/
inductive Call where
  | send (now : Nat) (random : Vector UInt8 12) (obj : TlObject)
  | recv (now : Nat)

section Runs

variable [Platform] [FrameTransport T]

/-- The msg_ids of the messages written in a run of calls: each is in `last_msg_id` afterwards. -/
def sentIds : List Call → Session T → List Int64
  | [], _ => []
  | .recv now :: calls, s => sentIds calls ((recvTl now).exec s).2
  | .send now random obj :: calls, s =>
    match (sendTl now random obj).exec s with
    | (.ok (), s') => s'.lastMsgId :: sentIds calls s'
    | (.error _, s') => sentIds calls s'

/-- The clock readings and counters of these messages. -/
def sends : List Call → Session T → List (Nat × UInt32)
  | [], _ => []
  | .recv now :: calls, s => sends calls ((recvTl now).exec s).2
  | .send now random obj :: calls, s =>
    match (sendTl now random obj).exec s with
    | (.ok (), s') => (now, s.msgIdCounter) :: sends calls s'
    | (.error _, s') => sends calls s'

/-- How many messages a run of calls sends at most. -/
def sendCount : List Call → Nat
  | [] => 0
  | .recv _ :: calls => sendCount calls
  | .send .. :: calls => sendCount calls + 1

/-! ### One call -/

section Rules

omit [Platform] [FrameTransport T]

variable {α β : Type} {P : Session T → Prop} {s : Session T}

/-- What the first part of a call leaves true and the rest keeps. -/
theorem exec_then {x : ClientM T α} {f : α → ClientM T β} (hx : P (x.exec s).2)
    (hf : ∀ a t, P t → P ((f a).exec t).2) : P ((x >>= f).exec s).2 := by
  cases h : x.exec s with
  | mk result t =>
    rw [h] at hx
    cases result with
    | error e => rwa [exec_bind_of_error h]
    | ok a =>
      rw [exec_bind_of_ok h]
      exact hf a t hx

theorem exec_ite {c : Prop} [Decidable c] {x y : ClientM T α} (hx : P (x.exec s).2)
    (hy : P (y.exec s).2) : P ((if c then x else y).exec s).2 := by
  split
  · exact hx
  · exact hy

theorem exec_orPanic (h : P s) (x : Option α) : P ((orPanic x : ClientM T α).exec s).2 := by
  cases x <;> exact h

theorem exec_ofExcept (h : P s) {ε : Type} (g : ε → KostaError) (x : Except (Failure ε) α) :
    P ((ofExcept g x : ClientM T α).exec s).2 := by
  cases x <;> exact h

theorem exec_readFrom (h : P s) (r : Reader Tl.Error α) (bytes : Bytes) :
    P ((readFrom r bytes : ClientM T _).exec s).2 := by
  unfold readFrom
  cases r.run bytes <;> exact h

end Rules

variable {s s' : Session T}

omit [Platform] in
theorem exec_transportSend {P : Session T → Prop} (h : ∀ transport, P { s with transport })
    (data : Bytes) : P ((transportSend data : ClientM T Unit).exec s).2 := by
  unfold transportSend
  rw [exec_bind_of_ok (exec_get s)]
  cases FrameTransport.send data s.transport with
  | mk result transport =>
    dsimp only
    rw [exec_bind_of_ok (exec_set _ s)]
    exact exec_ofExcept (h transport) _ result

omit [Platform] in
theorem exec_transportRecv {P : Session T → Prop} (h : ∀ transport, P { s with transport }) :
    P ((transportRecv : ClientM T Bytes).exec s).2 := by
  unfold transportRecv
  rw [exec_bind_of_ok (exec_get s)]
  cases FrameTransport.recv s.transport with
  | mk result transport =>
    dsimp only
    rw [exec_bind_of_ok (exec_set _ s)]
    exact exec_ofExcept (h transport) _ result

/-- What sending changes: an identifier has been used up, whether the message got out or not. -/
structure Stamped (now : Nat) (s s' : Session T) : Prop where
  msgIdCounter : s'.msgIdCounter = s.msgIdCounter + 1
  lastMsgId : s'.lastMsgId = msgId now s.msgIdCounter
  crypto : s'.crypto.isSome = true

omit [FrameTransport T] in
theorem stamped_stampHeader (now : Nat) (h : s.crypto.isSome = true) :
    Stamped now s ((stampHeader now).exec s).2 := by
  unfold stampHeader
  rw [exec_bind_of_ok (exec_get s)]
  refine exec_then (x := set _) (P := Stamped now s) ⟨rfl, rfl, h⟩ fun _ t ht => ?_
  refine exec_then (exec_orPanic ht _) fun seqNo u hu => ?_
  exact ⟨hu.msgIdCounter, hu.lastMsgId, hu.crypto⟩

theorem stamped_sendTl (now : Nat) (random : Vector UInt8 12) (obj : TlObject)
    (h : s.crypto.isSome = true) : Stamped now s ((sendTl now random obj).exec s).2 := by
  obtain ⟨crypto, hcrypto⟩ := Option.isSome_iff_exists.mp h
  unfold sendTl
  rw [exec_bind_of_ok (exec_get s), hcrypto]
  refine exec_then (stamped_stampHeader now h) fun header t ht => ?_
  refine exec_then (exec_orPanic ht _) fun sealed u hu => ?_
  refine exec_then (x := modify _) (P := Stamped now s) ⟨hu.msgIdCounter, hu.lastMsgId, rfl⟩
    fun _ v hv => ?_
  exact exec_transportSend (fun _ => ⟨hv.msgIdCounter, hv.lastMsgId, hv.crypto⟩) _

/-- What receiving leaves of the sending side. -/
structure Waiting (counter : UInt32) (s : Session T) : Prop where
  msgIdCounter : s.msgIdCounter = counter
  crypto : s.crypto.isSome = true

omit [FrameTransport T] in
theorem waiting_acceptPlaintext {counter : UInt32} (h : Waiting counter s) (now : Nat)
    (plaintext : Bytes) : Waiting counter
      ((acceptPlaintext now plaintext : ClientM T TlObject).exec s).2 := by
  refine exec_then (exec_readFrom h _ _) fun header t ht => ?_
  dsimp only
  rw [exec_bind_of_ok (exec_get t)]
  refine exec_ite ht (exec_then (x := modify _) ⟨ht.msgIdCounter, ht.crypto⟩ fun _ u hu => ?_)
  refine exec_then (exec_orPanic hu _) fun expected v hv => ?_
  refine exec_ite hv (exec_then (x := modify _) ⟨hv.msgIdCounter, hv.crypto⟩ fun _ w hw => ?_)
  refine exec_then (exec_orPanic hw _) fun diff z hz => exec_ite hz ?_
  exact exec_then (exec_readFrom hz _ _) fun _ _ h => h

theorem waiting_recvTl (now : Nat) (h : s.crypto.isSome = true) :
    Waiting s.msgIdCounter ((recvTl now).exec s).2 := by
  have hs : Waiting s.msgIdCounter s := ⟨rfl, h⟩
  refine exec_then (exec_transportRecv fun _ => ⟨rfl, h⟩) fun raw t ht => ?_
  obtain ⟨crypto, hcrypto⟩ := Option.isSome_iff_exists.mp ht.crypto
  unfold receive
  rw [exec_bind_of_ok (exec_get t), hcrypto]
  dsimp only [openIncoming]
  rw [exec_bind_of_ok (exec_get t)]
  refine exec_ite ht (exec_ite ht (exec_then (exec_ofExcept ht _ _) fun opened u hu => ?_))
  refine exec_then (x := modify _) (P := Waiting s.msgIdCounter) ⟨hu.msgIdCounter, rfl⟩
    fun _ v hv => waiting_acceptPlaintext hv _ _

/-! ### A run of calls -/

theorem sentIds_eq (calls : List Call) (h : s.crypto.isSome = true) :
    sentIds calls s = idsOf (sends calls s) := by
  induction calls generalizing s with
  | nil => rfl
  | cons call calls ih =>
    cases call with
    | recv now => exact ih (waiting_recvTl now h).crypto
    | send now random obj =>
      have hs := stamped_sendTl now random obj h
      unfold sentIds sends
      cases hexec : (sendTl now random obj).exec s with
      | mk result t =>
        rw [hexec] at hs
        cases result with
        | error e => exact ih hs.crypto
        | ok _ => exact congrArg₂ List.cons hs.lastMsgId (ih hs.crypto)

/-- A run that sends nothing. -/
theorem sends_of_sendCount {calls : List Call} (h : sendCount calls = 0) (s : Session T) :
    sends calls s = [] := by
  induction calls generalizing s with
  | nil => rfl
  | cons call calls ih =>
    cases call with
    | recv now => exact ih h _
    | send now random obj => cases h

omit [Platform] in
theorem counter_succ {c : UInt32} (h : c.toNat + 1 < 2 ^ 32) :
    c < c + 1 ∧ (c + 1).toNat = c.toNat + 1 := by
  have hsucc : (c + 1).toNat = c.toNat + 1 := by
    rw [UInt32.toNat_add]
    exact Nat.mod_eq_of_lt h
  refine ⟨UInt32.lt_iff_toNat_lt.mpr ?_, hsucc⟩
  omega

/-- The counter of a run counts on from where it stands, until it wraps. -/
theorem sends_counters (calls : List Call) (h : s.crypto.isSome = true)
    (hfew : s.msgIdCounter.toNat + sendCount calls ≤ 2 ^ 32) :
    ((sends calls s).Pairwise fun p q => p.2 < q.2) ∧ ∀ p ∈ sends calls s,
      s.msgIdCounter ≤ p.2 := by
  induction calls generalizing s with
  | nil => exact ⟨List.Pairwise.nil, nofun⟩
  | cons call calls ih =>
    cases call with
    | recv now =>
      have hw := waiting_recvTl now h
      have hrest := ih hw.crypto (by rw [hw.msgIdCounter]; exact hfew)
      rw [hw.msgIdCounter] at hrest
      exact hrest
    | send now random obj =>
      have hs := stamped_sendTl now random obj h
      have hrest (t : Session T) (ht : Stamped now s t) :
          ((sends calls t).Pairwise fun p q => p.2 < q.2) ∧
            ∀ p ∈ sends calls t, s.msgIdCounter < p.2 := by
        by_cases hnone : sendCount calls = 0
        · rw [sends_of_sendCount hnone t]
          exact ⟨List.Pairwise.nil, nofun⟩
        · simp only [sendCount] at hfew
          obtain ⟨hlt, hsucc⟩ := counter_succ (c := s.msgIdCounter) (by omega)
          have hih := ih ht.crypto (by rw [ht.msgIdCounter, hsucc]; omega)
          rw [ht.msgIdCounter] at hih
          exact ⟨hih.1, fun p hp => UInt32.lt_of_lt_of_le hlt (hih.2 p hp)⟩
      unfold sends
      cases hexec : (sendTl now random obj).exec s with
      | mk result t =>
        rw [hexec] at hs
        obtain ⟨hsorted, habove⟩ := hrest t hs
        cases result with
        | error e => exact ⟨hsorted, fun p hp => UInt32.le_of_lt (habove p hp)⟩
        | ok _ =>
          refine ⟨List.pairwise_cons.mpr ⟨habove, hsorted⟩, fun p hp => ?_⟩
          rcases List.mem_cons.mp hp with rfl | hp
          · exact UInt32.le_refl _
          · exact UInt32.le_of_lt (habove p hp)

end Runs

end KoSta.Client
