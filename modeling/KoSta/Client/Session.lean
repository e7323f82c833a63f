import KoSta.Crypto.Frame
import KoSta.Crypto.Keys
import KoSta.Transport.Mock
import KoSta.Tl.Object

/-! The client session: sending and receiving objects, encrypted once it is authenticated. -/
namespace KoSta.Client
open Lib Tl Crypto Transport

inductive KostaError where
  | transport (e : TransportError)
  | crypto (e : CryptoError)
  | core (e : Tl.Error)
  | protocol (message : String)
  deriving DecidableEq, Repr

structure Session (T : Type) where
  authKeyId : Option Int64
  crypto : Option SessionCrypto
  serverSalt : Int64
  lastMsgId : Int64
  recvLastMsgId : Int64
  seqNo : Int32
  transport : T
  authKey : Option AuthKey
  recvSeqNo : Int32
  msgIdCounter : UInt32
  userId : Option UserId

def Session.fromTransport {T : Type} (transport : T) : Session T where
  authKeyId := none
  crypto := none
  serverSalt := 0
  lastMsgId := 0
  recvLastMsgId := 0
  seqNo := -1
  transport
  authKey := none
  recvSeqNo := -1
  msgIdCounter := 0
  userId := none

/-- A method on `&mut self`: what it has written stays written when it fails. -/
abbrev ClientM (T α : Type) := ExceptT (Failure KostaError) (StateM (Session T)) α

variable {T α : Type}

def protocolError (message : String) : ClientM T α := throw (.error (.protocol message))

/-- The outcome of a call together with the session it leaves behind. -/
def ClientM.exec (x : ClientM T α) (s : Session T) : Except (Failure KostaError) α × Session T :=
  StateT.run (ExceptT.run x) s

def orPanic (x : Option α) : ClientM T α :=
  match x with
  | some a => pure a
  | none => throw .panic

def ofExcept {ε : Type} (f : ε → KostaError) (x : Except (Failure ε) α) : ClientM T α :=
  match x with
  | .ok a => pure a
  | .error e => throw (Failure.map f e)

/-- Reading from a cursor over a finished buffer: the value and the bytes behind it. -/
def readFrom (r : Reader Tl.Error α) (bytes : Bytes) : ClientM T (α × Bytes) :=
  match r.run bytes with
  | .ok a rest => pure (a, rest)
  | .err e => throw (.error (.core e))
  | .panic => throw .panic

def transportSend [FrameTransport T] (data : Bytes) : ClientM T Unit := do
  let s ← get
  let (result, transport) := FrameTransport.send data s.transport
  set { s with transport }
  ofExcept .transport result

def transportRecv [FrameTransport T] : ClientM T Bytes := do
  let s ← get
  let (result, transport) := FrameTransport.recv s.transport
  set { s with transport }
  ofExcept .transport result

section Methods

variable [Platform] [FrameTransport T]

/-- The identifier and sequence number `send_tl` puts in front of an encrypted message. -/
def stampHeader (now : Nat) : ClientM T Bytes := do
  let s ← get
  let id := msgId now s.msgIdCounter
  set { s with msgIdCounter := s.msgIdCounter + 1, lastMsgId := id }
  let seqNo ← orPanic (succI32 s.seqNo)
  modify fun s => { s with seqNo }
  return withHeader id seqNo []

def sendTl (now : Nat) (random : Vector UInt8 12) (obj : TlObject) : ClientM T Unit := do
  let s ← get
  match s.crypto with
  | some crypto =>
    let header ← stampHeader now
    let plainBytes := header ++ obj.writeBoxed
    let ((nonce, ciphertext, tag), crypto) ← orPanic (crypto.encryptOutgoing random plainBytes)
    modify fun s => { s with crypto := some crypto }
    transportSend (sealFrame (s.authKeyId.getD 0) nonce ciphertext tag)
  | none => transportSend obj.writeBoxed

/-- The checks `recv_tl` makes on a decrypted message, each after the field before it is set. -/
def acceptPlaintext (now : Nat) (plaintext : Bytes) : ClientM T TlObject := do
  let ((id, seqNo), rest) ← readFrom readHeader plaintext
  let s ← get
  if id ≤ s.recvLastMsgId then
    protocolError "msg_id not monotonically increasing"
  else
    modify fun s => { s with recvLastMsgId := id }
    let expected ← orPanic (succI32 s.recvSeqNo)
    if seqNo ≠ expected then
      protocolError "Unexpected seq_no (possible replay)"
    else
      modify fun s => { s with recvSeqNo := seqNo }
      let diff ← orPanic (clockDiff id now)
      if diff > 30000 then
        protocolError "Message timestamp out of range"
      else
        let (obj, _) ← readFrom TlObject.readBoxed rest
        return obj

def openIncoming (now : Nat) (crypto : SessionCrypto) (raw : Bytes) : ClientM T TlObject := do
  let s ← get
  if raw.length < minFrame then
    protocolError "Message too short"
  else if frameAuthKeyId raw ≠ s.authKeyId.getD 0 then
    protocolError "AuthKey ID mismatch"
  else
    let (plaintext, crypto) ← ofExcept .crypto
      (crypto.decryptIncoming (frameNonce raw) (frameCiphertext raw) (frameTag raw))
    modify fun s => { s with crypto := some crypto }
    acceptPlaintext now plaintext

/-- `recv_tl` from the moment the transport has delivered a frame. -/
def receive (now : Nat) (raw : Bytes) : ClientM T TlObject := do
  let s ← get
  match s.crypto with
  | some crypto => openIncoming now crypto raw
  | none =>
    let (obj, _) ← readFrom TlObject.readBoxed raw
    return obj

def recvTl (now : Nat) : ClientM T TlObject := do
  let raw ← transportRecv
  receive now raw

end Methods

/-! ### Running the methods -/

variable {β : Type} {x : ClientM T α} {f : α → ClientM T β} {s s' : Session T}

theorem exec_bind (x : ClientM T α) (f : α → ClientM T β) (s : Session T) :
    (x >>= f).exec s = match x.exec s with
      | (.ok a, s') => (f a).exec s'
      | (.error e, s') => (.error e, s') := by
  have h : (x >>= f).exec s =
      match x.exec s with
      | (r, s') => (ExceptT.bindCont f r : StateM (Session T) _) s' := rfl
  rw [h]
  rcases x.exec s with ⟨r, s'⟩
  cases r <;> rfl

theorem exec_bind_of_ok {a : α} (h : x.exec s = (.ok a, s')) :
    (x >>= f).exec s = (f a).exec s' := by
  simp only [exec_bind, h]

theorem exec_bind_of_error {e : Failure KostaError} (h : x.exec s = (.error e, s')) :
    (x >>= f).exec s = (.error e, s') := by
  simp only [exec_bind, h]

/-- A call that ends well has passed through the end of its first part. -/
theorem exec_bind_ok {b : β} (h : (x >>= f).exec s = (.ok b, s')) :
    ∃ a t, x.exec s = (.ok a, t) ∧ (f a).exec t = (.ok b, s') := by
  rw [exec_bind] at h
  rcases hx : x.exec s with ⟨result, t⟩
  rw [hx] at h
  cases result with
  | error e => cases h
  | ok a => exact ⟨a, t, rfl, h⟩

@[simp] theorem exec_pure (a : α) (s : Session T) :
    (pure a : ClientM T α).exec s = (.ok a, s) := rfl

@[simp] theorem exec_throw (e : Failure KostaError) (s : Session T) :
    (throw e : ClientM T α).exec s = (.error e, s) := rfl

@[simp] theorem exec_get (s : Session T) : (get : ClientM T (Session T)).exec s = (.ok s, s) := rfl

@[simp] theorem exec_set (t s : Session T) : (set t : ClientM T Unit).exec s = (.ok (), t) := rfl

@[simp] theorem exec_modify (g : Session T → Session T) (s : Session T) :
    (modify g : ClientM T Unit).exec s = (.ok (), g s) := rfl

@[simp] theorem exec_protocolError (message : String) (s : Session T) :
    (protocolError message : ClientM T α).exec s = (.error (.error (.protocol message)), s) := rfl

theorem exec_readFrom_of_run {r : Reader Tl.Error α} {bytes rest : Bytes} {a : α}
    (h : r.run bytes = .ok a rest) (s : Session T) :
    (readFrom r bytes).exec s = (.ok (a, rest), s) := by
  unfold readFrom
  rw [h]
  rfl

theorem readFrom_ok {r : Reader Tl.Error α} {bytes : Bytes} {a : α × Bytes}
    (h : (readFrom r bytes).exec s = (.ok a, s')) : r.run bytes = .ok a.1 a.2 ∧ s' = s := by
  unfold readFrom at h
  cases hr : r.run bytes with
  | ok b rest =>
    rw [hr] at h
    cases h
    exact ⟨rfl, rfl⟩
  | err e =>
    rw [hr] at h
    cases h
  | panic =>
    rw [hr] at h
    cases h

theorem orPanic_ok {o : Option α} {a : α} (h : (orPanic o).exec s = (.ok a, s')) :
    o = some a ∧ s' = s := by
  cases o with
  | none => cases h
  | some b =>
    cases h
    exact ⟨rfl, rfl⟩

end KoSta.Client
