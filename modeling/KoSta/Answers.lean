import KoSta.Client.Authenticate
import KoSta.Link
import KoSta.Server.Receivable

/-! One request over a link without sessions, and the reply that comes back. -/
namespace KoSta
open Lib Tl Crypto Transport Client Server

variable {w w' : World} {l : Link}

/-- No frame can be taken for one of a session. -/
structure Sessionless (w : World) : Prop where
  row : ∀ id, w.row id = none
  entry : ∀ id, w.state.cache id = none

theorem Sessionless.log (h : Sessionless w) (events : List Event) : Sessionless (w.log events) :=
  ⟨h.row, h.entry⟩

theorem exec_addressedSession (h : Sessionless w) (conn : ConnId) (raw : Bytes) :
    (addressedSession conn raw).exec w = (.ok none, w) := by
  unfold addressedSession
  split
  · dsimp only
    split
    · rfl
    · rw [Prog.exec_bind, exec_getSession_none conn _ (h.entry _) (h.row _)]
      rfl
  · rfl

theorem sentOn_append (conn : ConnId) (events older : List Event) :
    sentOn conn (events ++ older) = sentOn conn older ++ sentOn conn events := by
  unfold sentOn
  rw [List.filterMap_append, List.reverse_append]

/-- The connection after the server has answered a request. -/
def Link.answered (l : Link) (w : World) (reply : Bytes) : Link :=
  { l with
    world := w.log [.finished l.conn (.ok .answered), .sent l.conn reply]
    turn := l.turn + 1 }

def Client.Session.answered (s : Session Link) (w : World) (reply : Bytes) : Session Link :=
  { s with transport := s.transport.answered w reply }

/-- Nothing is on its way between a client and a server that have no session yet. -/
structure Idle (s : Session Link) : Prop where
  crypto : s.crypto = none
  inbox : s.transport.inbox = []
  world : Sessionless s.transport.world

/-- The server has taken one turn, and there is no session still. -/
structure Continues (s s' : Session Link) : Prop where
  idle : Idle s'
  statics : s'.transport.statics = s.transport.statics
  draws : s'.transport.draws = s.transport.draws
  turn : s'.transport.turn = s.transport.turn + 1

theorem Idle.continues {s : Session Link} (hs : Idle s) (hw : Sessionless w) (reply : Bytes) :
    Continues s (s.answered w reply) :=
  ⟨⟨hs.crypto, hs.inbox, hw.log _⟩, rfl, rfl, rfl⟩

section Turns

variable [Platform]

/-- The server's handling of a request that no session is named for. -/
def Answers (l : Link) (request reply : TlObject) (w : World) : Prop :=
  (handleRequest l.statics (l.draws l.turn).handler l.conn request none).exec
    (l.world.log [.dispatched l.conn none request]) = (.ok (some reply.writeBoxed), w)

omit [Platform] in
theorem run_writeBoxed {o : TlObject} (h : Receivable o.writeBoxed) :
    TlObject.readBoxed.run o.writeBoxed = .ok o [] := by
  have hlen := (receivable_iff.mp h).1
  have hlimit : o.writeBoxed.length < lengthLimit := by
    unfold maxFrameSize at hlen
    unfold lengthLimit
    omega
  have hread := reads_writeBoxed o hlimit []
  rwa [List.append_nil] at hread

theorem exec_handleFrame (hfree : Sessionless l.world) {request reply : TlObject}
    (hrequest : Receivable request.writeBoxed) (hreply : Receivable reply.writeBoxed)
    (h : Answers l request reply w) :
    (handleFrame l.statics (l.draws l.turn) l.conn request.writeBoxed).exec l.world =
      (.ok .answered, w.log [.sent l.conn reply.writeBoxed]) := by
  obtain ⟨stream, hstream, -⟩ := hreply
  unfold handleFrame
  rw [Prog.exec_bind, exec_addressedSession hfree]
  dsimp only
  rw [dispatch_eq l.statics (l.draws l.turn) l.conn none (run_writeBoxed hrequest)]
  change (handleRequest l.statics (l.draws l.turn).handler l.conn request none >>= fun reply =>
    finishTurn (l.draws l.turn) l.conn none reply).exec
      (l.world.log [.dispatched l.conn none request]) = _
  rw [Prog.exec_bind, h]
  dsimp only [finishTurn, respond, Server.transportSend]
  rw [hstream]
  rfl

/-- The reply of a handler that hands no frame to the connection itself is all that goes out. -/
theorem serve_answered (hfree : Sessionless l.world) {request reply : TlObject}
    (hrequest : Receivable request.writeBoxed) (hreply : Receivable reply.writeBoxed)
    (h : Answers l request reply w) {events : List Event}
    (htrace : w.trace = events ++ l.world.trace)
    (hquiet : sentOn l.conn events = []) {stream : Bytes}
    (hstream : encodeFrame reply.writeBoxed = some stream) :
    l.serve request.writeBoxed =
      { l.answered w reply.writeBoxed with inbox := l.inbox ++ stream } := by
  have hserve : ((Server.serve l.statics (l.draws l.turn) l.conn request.writeBoxed).exec
      l.world).2 = w.log [.finished l.conn (.ok .answered), .sent l.conn reply.writeBoxed] := by
    rw [exec_serve_eq, exec_handleFrame hfree hrequest hreply h]
    rfl
  unfold Link.serve
  rw [hserve]
  have hevents : (w.log [.finished l.conn (.ok .answered), .sent l.conn reply.writeBoxed]).trace =
      (.finished l.conn (.ok .answered) :: .sent l.conn reply.writeBoxed :: events) ++
        l.world.trace := by
    change _ :: _ :: w.trace = _
    rw [htrace]
    rfl
  have htake : (w.log [.finished l.conn (.ok .answered), .sent l.conn reply.writeBoxed]).trace.take
      ((w.log [.finished l.conn (.ok .answered), .sent l.conn reply.writeBoxed]).trace.length -
        l.world.trace.length) =
      .finished l.conn (.ok .answered) :: .sent l.conn reply.writeBoxed :: events := by
    rw [hevents, List.length_append, Nat.add_sub_cancel, List.take_left]
  have hsent : sentOn l.conn (.finished l.conn (.ok .answered) ::
      .sent l.conn reply.writeBoxed :: events) = [reply.writeBoxed] := by
    change sentOn l.conn ([_, _] ++ events) = _
    rw [sentOn_append, hquiet]
    simp [sentOn]
  dsimp only
  rw [htake, hsent]
  simp [encodeFrames, hstream, Link.answered]

theorem send_receivable {data : Bytes} (h : Receivable data) :
    FrameTransport.send data l = (.ok (), l.serve data) := by
  obtain ⟨stream, hstream, hread⟩ := h
  have hread := hread []
  rw [List.append_nil] at hread
  simp only [FrameTransport.send, hstream, hread]

theorem exec_sendTl_link {s : Session Link} (hs : s.crypto = none) (now : Nat)
    (random : Vector UInt8 12)
    {request : TlObject} (hrequest : Receivable request.writeBoxed) :
    (sendTl now random request).exec s =
      (.ok (), { s with transport := s.transport.serve request.writeBoxed }) := by
  have hsend : (Client.transportSend request.writeBoxed : ClientM Link Unit).exec s =
      (.ok (), { s with transport := s.transport.serve request.writeBoxed }) := by
    unfold Client.transportSend
    rw [exec_bind_of_ok (exec_get s), send_receivable hrequest]
    rfl
  refine Eq.trans ?_ hsend
  unfold sendTl
  rw [exec_bind_of_ok (exec_get s), hs]

theorem exec_recvTl_link {s : Session Link} (hs : s.crypto = none) {reply : TlObject}
    (hreply : Receivable reply.writeBoxed) {rest : Bytes}
    (hinbox : decodeFrame.run s.transport.inbox = .ok reply.writeBoxed rest) (now : Nat) :
    (recvTl now).exec s =
      (.ok reply, { s with transport := { s.transport with inbox := rest } }) := by
  have hrecv : (transportRecv : ClientM Link Bytes).exec s =
      (.ok reply.writeBoxed, { s with transport := { s.transport with inbox := rest } }) := by
    unfold transportRecv
    rw [exec_bind_of_ok (exec_get s)]
    simp only [FrameTransport.recv, hinbox]
    rfl
  unfold recvTl
  rw [exec_bind_of_ok hrecv]
  unfold receive
  rw [exec_bind_of_ok (exec_get _)]
  simp only [hs]
  rw [exec_bind_of_ok (exec_readFrom_of_run (run_writeBoxed hreply) _)]
  rfl

/-- A request that the server answers comes back to the client as that answer. -/
theorem exec_exchange {s : Session Link} (hs : Idle s) (draw : ExchangeDraw)
    {request reply : TlObject} (hrequest : Receivable request.writeBoxed)
    (hreply : Receivable reply.writeBoxed) (h : Answers s.transport request reply w)
    (events : List Event) (htrace : w.trace = events ++ s.transport.world.trace)
    (hquiet : sentOn s.transport.conn events = []) : (exchange draw request).exec s =
      (.ok reply, s.answered w reply.writeBoxed) := by
  obtain ⟨stream, hstream, hread⟩ := hreply
  have hserve := serve_answered hs.world hrequest ⟨stream, hstream, hread⟩ h htrace hquiet hstream
  rw [hs.inbox, List.nil_append] at hserve
  have hinbox := hread []
  rw [List.append_nil] at hinbox
  have hempty : s.transport.answered w reply.writeBoxed =
      { s.transport.answered w reply.writeBoxed with inbox := [] } := by
    unfold Link.answered
    rw [hs.inbox]
  unfold exchange Client.Session.answered
  rw [exec_bind_of_ok (exec_sendTl_link hs.crypto _ _ hrequest), hserve, hempty]
  exact exec_recvTl_link (s := { s with transport :=
    { s.transport.answered w reply.writeBoxed with inbox := stream } }) hs.crypto
    ⟨stream, hstream, hread⟩ hinbox _

end Turns

end KoSta
