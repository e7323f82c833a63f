import KoSta.Client.Histories

/-! The calls that applications make on a session that is authenticated. -/
namespace KoSta.Client
open Lib Tl Crypto Transport

variable {T : Type} [Platform] [FrameTransport T]

def sendMessage (draw : ExchangeDraw) (randomId : Int64) (chatId : ChatId) (text : String) :
    ClientM T Message := do
  match ← exchange draw (.sendMessage { chatId, text, randomId }) with
  | .message message => return message
  | _ => protocolError "Expected Message response"

def getHistory (draw : ExchangeDraw) (chatId : ChatId) (offset limit : Int32) :
    ClientM T HistoryResult := do
  match ← exchange draw (.getHistory { chatId, offset, limit }) with
  | .historyResult result => return result
  | _ => protocolError "Expected HistoryResult"

def sendAck (now : Nat) (random : Vector UInt8 12) (messageId : MessageId) : ClientM T Unit :=
  sendTl now random (.sendMessageAck { messageId })

/-- The user is the one the session has been given, and user 0 if it has been given none. -/
def updateStatus (now : Nat) (random : Vector UInt8 12) (status : UserStatus) : ClientM T Unit := do
  let s ← get
  let userId := s.userId.getD ⟨0⟩
  sendTl now random (.userStatusUpdate { userId, status })

/-- One of these calls, with what it draws. -/
inductive Method where
  | sendMessage (draw : ExchangeDraw) (randomId : Int64) (chatId : ChatId) (text : String)
  | getHistory (draw : ExchangeDraw) (chatId : ChatId) (offset limit : Int32)
  | sendAck (now : Nat) (random : Vector UInt8 12) (messageId : MessageId)
  | updateStatus (now : Nat) (random : Vector UInt8 12) (status : UserStatus)

def Method.exec (s : Session T) : Method → Session T
  | .sendMessage draw randomId chatId text =>
    ((Client.sendMessage draw randomId chatId text).exec s).2
  | .getHistory draw chatId offset limit => ((Client.getHistory draw chatId offset limit).exec s).2
  | .sendAck now random messageId => ((Client.sendAck now random messageId).exec s).2
  | .updateStatus now random status => ((Client.updateStatus now random status).exec s).2

/-- What the call sends. -/
def Method.request (s : Session T) : Method → TlObject
  | .sendMessage _ randomId chatId text => .sendMessage { chatId, text, randomId }
  | .getHistory _ chatId offset limit => .getHistory { chatId, offset, limit }
  | .sendAck _ _ messageId => .sendMessageAck { messageId }
  | .updateStatus _ _ status => .userStatusUpdate { userId := s.userId.getD ⟨0⟩, status }

/-- The clock reading and the random bytes of the call's frame. -/
def Method.sendDraw : Method → Nat × Vector UInt8 12
  | .sendMessage draw .. | .getHistory draw .. => (draw.sendNow, draw.random)
  | .sendAck now random _ | .updateStatus now random _ => (now, random)

/-- What the call does when its frame has been sent: two of them wait for a reply. -/
def Method.await (s : Session T) : Method → Session T
  | .sendMessage draw .. | .getHistory draw .. => ((recvTl draw.recvNow).exec s).2
  | _ => s

variable {m : Method} {s t : Session T} {e : Failure KostaError}

omit [Platform] [FrameTransport T] in
theorem exec_reply {α : Type} (x : ClientM T TlObject) (f : TlObject → ClientM T α)
    (hf : ∀ obj t, ((f obj).exec t).2 = t) : ((x >>= f).exec s).2 = (x.exec s).2 := by
  cases h : x.exec s with
  | mk result t =>
    cases result with
    | error e => rw [exec_bind_of_error h]
    | ok obj => rw [exec_bind_of_ok h, hf]

theorem exec_exchange_of_ok {draw : ExchangeDraw} {request : TlObject}
    (h : (sendTl draw.sendNow draw.random request).exec s = (.ok (), t)) :
    ((exchange draw request).exec s).2 = ((recvTl draw.recvNow).exec t).2 := by
  unfold exchange
  rw [exec_bind_of_ok h]

theorem exec_exchange_of_error {draw : ExchangeDraw} {request : TlObject}
    (h : (sendTl draw.sendNow draw.random request).exec s = (.error e, t)) :
    ((exchange draw request).exec s).2 = t := by
  unfold exchange
  rw [exec_bind_of_error h]

theorem exec_sendMessage (draw : ExchangeDraw) (randomId : Int64) (chatId : ChatId) (text : String)
    (s : Session T) : ((sendMessage draw randomId chatId text).exec s).2 =
      ((exchange draw (.sendMessage { chatId, text, randomId })).exec s).2 := by
  refine exec_reply _ _ fun obj t => ?_
  cases obj <;> rfl

theorem exec_getHistory (draw : ExchangeDraw) (chatId : ChatId) (offset limit : Int32)
    (s : Session T) : ((getHistory draw chatId offset limit).exec s).2 =
      ((exchange draw (.getHistory { chatId, offset, limit })).exec s).2 := by
  refine exec_reply _ _ fun obj t => ?_
  cases obj <;> rfl

/-- A call sends its request, and if it could be sent the rest follows. -/
theorem Method.exec_of_ok
    (h : (sendTl m.sendDraw.1 m.sendDraw.2 (m.request s)).exec s = (.ok (), t)) :
    m.exec s = m.await t := by
  cases m with
  | sendMessage draw randomId chatId text =>
    exact (exec_sendMessage draw randomId chatId text s).trans (exec_exchange_of_ok h)
  | getHistory draw chatId offset limit =>
    exact (exec_getHistory draw chatId offset limit s).trans (exec_exchange_of_ok h)
  | sendAck now random messageId => exact congrArg Prod.snd h
  | updateStatus now random status => exact congrArg Prod.snd h

theorem Method.exec_of_error
    (h : (sendTl m.sendDraw.1 m.sendDraw.2 (m.request s)).exec s = (.error e, t)) :
    m.exec s = t := by
  cases m with
  | sendMessage draw randomId chatId text =>
    exact (exec_sendMessage draw randomId chatId text s).trans (exec_exchange_of_error h)
  | getHistory draw chatId offset limit =>
    exact (exec_getHistory draw chatId offset limit s).trans (exec_exchange_of_error h)
  | sendAck now random messageId => exact congrArg Prod.snd h
  | updateStatus now random status => exact congrArg Prod.snd h

/-! ### The user of a session -/

/-- The session has been given no user. -/
def Nameless (s : Session T) : Prop := s.userId = none

omit [FrameTransport T] in
theorem nameless_stampHeader (now : Nat) (h : Nameless s) :
    Nameless ((stampHeader now).exec s).2 := by
  unfold stampHeader
  rw [exec_bind_of_ok (exec_get s)]
  refine exec_then (x := set _) (P := Nameless) h fun _ t ht => ?_
  exact exec_then (exec_orPanic ht _) fun seqNo u hu => hu

theorem nameless_sendTl (now : Nat) (random : Vector UInt8 12) (obj : TlObject) (s : Session T)
    (h : Nameless s) : Nameless ((sendTl now random obj).exec s).2 := by
  unfold sendTl
  rw [exec_bind_of_ok (exec_get s)]
  split
  · refine exec_then (nameless_stampHeader now h) fun header t ht => ?_
    refine exec_then (exec_orPanic ht _) fun sealed u hu => ?_
    exact exec_then (x := modify _) (P := Nameless) hu fun _ v hv =>
      exec_transportSend (fun _ => hv) _
  · exact exec_transportSend (fun _ => h) _

omit [FrameTransport T] in
theorem nameless_acceptPlaintext (now : Nat) (plaintext : Bytes) (h : Nameless s) :
    Nameless ((acceptPlaintext now plaintext : ClientM T TlObject).exec s).2 := by
  refine exec_then (exec_readFrom h _ _) fun header t ht => ?_
  dsimp only
  rw [exec_bind_of_ok (exec_get t)]
  refine exec_ite ht (exec_then (x := modify _) (P := Nameless) ht fun _ u hu => ?_)
  refine exec_then (exec_orPanic hu _) fun expected v hv => ?_
  refine exec_ite hv (exec_then (x := modify _) (P := Nameless) hv fun _ w hw => ?_)
  refine exec_then (exec_orPanic hw _) fun diff z hz => exec_ite hz ?_
  exact exec_then (exec_readFrom hz _ _) fun _ _ h => h

theorem nameless_recvTl (now : Nat) (s : Session T) (h : Nameless s) :
    Nameless ((recvTl now).exec s).2 := by
  refine exec_then (exec_transportRecv fun _ => h) fun raw t ht => ?_
  unfold receive
  rw [exec_bind_of_ok (exec_get t)]
  split
  · unfold openIncoming
    rw [exec_bind_of_ok (exec_get t)]
    refine exec_ite ht (exec_ite ht (exec_then (exec_ofExcept ht _ _) fun opened u hu => ?_))
    exact exec_then (x := modify _) (P := Nameless) hu fun _ v hv => nameless_acceptPlaintext _ _ hv
  · exact exec_then (exec_readFrom ht _ _) fun _ _ h => h

theorem nameless_authenticate (publicKey : Vector UInt8 32) (draws : AuthDraws) (h : Nameless s) :
    Nameless ((authenticate publicKey draws).exec s).2 := by
  have hexchange (draw : ExchangeDraw) (request : TlObject) (s : Session T) (hs : Nameless s) :
      Nameless ((exchange draw request).exec s).2 :=
    exec_exchange nameless_sendTl nameless_recvTl hs draw request
  refine exec_then (exec_dhAnswer hexchange h publicKey draws) fun found t ht => ?_
  exact exec_then (exec_setClientDh hexchange ht draws _ _) fun _ u hu => hu

/-- No call gives the session a user. -/
theorem nameless_method (m : Method) (h : Nameless s) : Nameless (m.exec s) := by
  have hsent := nameless_sendTl m.sendDraw.1 m.sendDraw.2 (m.request s) s h
  cases hexec : (sendTl m.sendDraw.1 m.sendDraw.2 (m.request s)).exec s with
  | mk result t =>
    rw [hexec] at hsent
    cases result with
    | error e =>
      rw [Method.exec_of_error hexec]
      exact hsent
    | ok done =>
      rw [Method.exec_of_ok hexec]
      cases m with
      | sendMessage draw randomId chatId text => exact nameless_recvTl draw.recvNow t hsent
      | getHistory draw chatId offset limit => exact nameless_recvTl draw.recvNow t hsent
      | sendAck now random messageId => exact hsent
      | updateStatus now random status => exact hsent

end KoSta.Client
