import KoSta.Answers
import KoSta.Clocks
import KoSta.Delivery
import KoSta.Server.Standing

/-! A client in touch with the server: what its calls return is what the handlers answer. -/
namespace KoSta
open Lib Tl Crypto Transport Client Server

/-! ### Clocks -/

/-- The low 32 bits of the reading stand in the lower half of round `k`. -/
def InRound (k now : Nat) : Prop := k * 2 ^ 32 < now ∧ now < k * 2 ^ 32 + 2 ^ 31
  deriving Decidable

/-- At most thirty seconds apart. -/
def Close (t t' : Nat) : Prop := |(t : Int) - t'| ≤ 30000
  deriving Decidable

theorem InRound.low {k now : Nat} (h : InRound k now) : now % 2 ^ 32 = now - k * 2 ^ 32 := by
  obtain ⟨hlow, hhigh⟩ := h
  omega

theorem InRound.signedLow {k now : Nat} (h : InRound k now) :
    signedLow now = (now : Int) - k * 2 ^ 32 := by
  have hmod := h.low
  obtain ⟨hlow, hhigh⟩ := h
  unfold KoSta.signedLow
  rw [if_pos (by omega), hmod]
  omega

/-- Readings of one round can be compared. -/
theorem comparable_of_inRound {k t t' : Nat} (h : InRound k t) (h' : InRound k t') :
    Comparable t t' := by
  have hlow := h.signedLow
  have hlow' := h'.signedLow
  obtain ⟨hgt, hlt⟩ := h
  obtain ⟨hgt', hlt'⟩ := h'
  refine ⟨by omega, fun j hj => ?_⟩
  rw [lt_abs]
  omega

theorem clockDiff_of_close [Platform] {k t t' : Nat} (h : InRound k t) (h' : InRound k t')
    (hclose : Close t t') (counter : UInt32) :
    ∃ diff, clockDiff (msgId t counter) t' = some diff ∧ ¬ diff > 30000 := by
  obtain ⟨-, diff, hdiff, hjudge⟩ :=
    (judgesClocks_iff t t' counter).mpr (comparable_of_inRound h h')
  exact ⟨diff, hdiff, hjudge.mpr hclose⟩

/-- Whatever is stamped from now on comes after this identifier. -/
def Behind (k : Nat) (id : Int64) (now counter : Nat) : Prop :=
  ∀ t c, InRound k t → now ≤ t → counter ≤ c → c < 2 ^ 31 → id < msgId t (UInt32.ofNat c)

theorem behind_zero (k now counter : Nat) : Behind k 0 now counter := by
  intro t c ht _ _ _
  have hlow := ht.low
  obtain ⟨hgt, hlt⟩ := ht
  exact (msgId_pos_iff t _).mpr ⟨by omega, Or.inl (by omega)⟩

theorem behind_msgId {k now counter : Nat} (hnow : InRound k now) (hcounter : counter < 2 ^ 31) :
    Behind k (msgId now (UInt32.ofNat counter)) now (counter + 1) := by
  intro t c ht hle hlt hc
  have hlow := hnow.low
  have hlow' := ht.low
  obtain ⟨hgt, hlt⟩ := hnow
  obtain ⟨hgt', hlt'⟩ := ht
  have hless : UInt32.ofNat counter < UInt32.ofNat c := by
    rw [UInt32.lt_iff_toNat_lt, UInt32.toNat_ofNat', UInt32.toNat_ofNat']
    omega
  exact (msgId_lt_iff (by omega) (by omega) hless).mpr (by omega)

/-! ### The service without sessions and frames -/

/-- The server's handlers under one session, the replies that have yet to be read, oldest first and
each with the clock reading it was made at, and the clock readings of the last request and reply. -/
structure Direct where
  world : World
  turn : Nat
  waiting : List (Nat × Bytes)
  askedAt : Nat
  repliedAt : Nat

/-- A call of the client, or an entry that the server's cache drops. -/
inductive Move where
  | send (now : Nat) (random : Vector UInt8 12) (obj : TlObject)
  | recv (now : Nat)
  | evict (id : Int64)

/-- The length of a frame around so many bytes is one that the framing can carry. -/
def FitsFrame (data : Bytes) : Prop :=
  52 + data.length ≤ maxFrameSize ∧ 52 + data.length ≠ 127
  deriving Decidable

section Service

variable [Platform] (statics : Statics) (conn : ConnId) (draws : Nat → FrameDraws) (id : Int64)

def Direct.handle (d : Direct) (obj : TlObject) : Except Stop (Option Bytes) × World :=
  (handleRequest statics (draws d.turn).handler conn obj (some id)).exec d.world

/-- The request has been handled. -/
def Direct.asked (d : Direct) (now : Nat) (world : World) : Direct :=
  { d with world, turn := d.turn + 1, askedAt := now }

/-- The reply is waiting. -/
def Direct.replied (d : Direct) (now : Nat) (data : Bytes) : Direct :=
  { d with waiting := d.waiting ++ [(now, data)], repliedAt := now }

/-- One move: a request is handled, a reply is read. There is none if the handler fails, or if no
reply is waiting that can be read. -/
def Direct.move (d : Direct) : Move → Option (Option TlObject × Direct)
  | .send now _ obj =>
    match d.handle statics conn draws id obj with
    | (.ok none, world) => some (none, d.asked now world)
    | (.ok (some data), world) =>
      some (none, (d.asked now world).replied (draws d.turn).responseNow data)
    | (.error _, _) => none
  | .recv _ =>
    match d.waiting with
    | [] => none
    | (_, data) :: waiting =>
      match TlObject.readBoxed.run data with
      | .ok obj _ => some (some obj, { d with waiting })
      | _ => none
  | .evict _ => some (none, d)

/-- A request and its reply fit into frames, and no clock falls back or is off by too much. A
second key exchange over the session is left out, as it replaces the session's keys. (A request
whose handler fails, and a reply that is not there, are left out by `Direct.move`.) -/
structure Sendable (k : Nat) (d : Direct) (now : Nat) (obj : TlObject) : Prop where
  established : ∀ req, obj ≠ .setClientDHParams req
  request : FitsFrame obj.writeBoxed
  reply : ∀ data world, d.handle statics conn draws id obj = (.ok (some data), world) →
    FitsFrame data
  sent : InRound k now ∧ d.askedAt ≤ now
  received : InRound k (draws d.turn).now ∧ Close now (draws d.turn).now
  replied : InRound k (draws d.turn).responseNow ∧ d.repliedAt ≤ (draws d.turn).responseNow

def Direct.Allows (k : Nat) (d : Direct) : Move → Prop
  | .send now _ obj => Sendable statics conn draws id k d now obj
  | .recv now => InRound k now ∧ ∀ t data, d.waiting.head? = some (t, data) → Close t now
  | .evict _ => True

/-- A run of moves with what they return. -/
inductive Conversation (k : Nat) : Direct → List Move → List (Option TlObject) → Direct → Prop where
  | nil {d} : Conversation k d [] [] d
  | cons {d d' d'' m moves result results} : d.Allows statics conn draws id k m →
    d.move statics conn draws id m = some (result, d') → Conversation k d' moves results d'' →
    Conversation k d (m :: moves) (result :: results) d''

/-- The conditions of a request, tested. -/
def Direct.sendable (k : Nat) (d : Direct) (now : Nat) (obj : TlObject) : Bool :=
  (match obj with | .setClientDHParams _ => false | _ => true) &&
  decide (FitsFrame obj.writeBoxed) &&
  (match (d.handle statics conn draws id obj).1 with
    | .ok (some data) => decide (FitsFrame data)
    | _ => true) &&
  decide (InRound k now ∧ d.askedAt ≤ now) &&
  decide (InRound k (draws d.turn).now ∧ Close now (draws d.turn).now) &&
  decide (InRound k (draws d.turn).responseNow ∧ d.repliedAt ≤ (draws d.turn).responseNow)

def Direct.allows (k : Nat) (d : Direct) : Move → Bool
  | .send now _ obj => d.sendable statics conn draws id k now obj
  | .recv now =>
    decide (InRound k now) && d.waiting.head?.all fun first => decide (Close first.1 now)
  | .evict _ => true

/-- The conversation of these moves, if there is one. -/
def Direct.converse (k : Nat) : List Move → Direct → Option (List (Option TlObject) × Direct)
  | [], d => some ([], d)
  | m :: moves, d =>
    if d.allows statics conn draws id k m then do
      let (result, d) ← d.move statics conn draws id m
      let (results, d) ← Direct.converse k moves d
      return (result :: results, d)
    else
      none

variable {statics : Statics} {conn : ConnId} {draws : Nat → FrameDraws} {id : Int64} {k : Nat}
  {d d' : Direct}

theorem sendable_spec {now : Nat} {obj : TlObject}
    (h : d.sendable statics conn draws id k now obj = true) :
    Sendable statics conn draws id k d now obj := by
  simp only [Direct.sendable, Bool.and_eq_true, decide_eq_true_eq] at h
  obtain ⟨⟨⟨⟨⟨hobj, hrequest⟩, hreply⟩, hsent⟩, hreceived⟩, hreplied⟩ := h
  refine ⟨?_, hrequest, fun data world hhandle => ?_, hsent, hreceived, hreplied⟩
  · rintro req rfl
    cases hobj
  · rw [hhandle] at hreply
    exact of_decide_eq_true hreply

theorem allows_spec {m : Move} (h : d.allows statics conn draws id k m = true) :
    d.Allows statics conn draws id k m := by
  cases m with
  | send now random obj => exact sendable_spec h
  | recv now =>
    obtain ⟨hround, hclose⟩ := Bool.and_eq_true_iff.mp h
    refine ⟨of_decide_eq_true hround, fun t data hhead => ?_⟩
    rw [hhead] at hclose
    exact of_decide_eq_true hclose
  | evict i => trivial

theorem conversation_spec {moves : List Move} {results : List (Option TlObject)}
    (h : d.converse statics conn draws id k moves = some (results, d')) :
    Conversation statics conn draws id k d moves results d' := by
  induction moves generalizing d results with
  | nil =>
    cases h
    exact .nil
  | cons m moves ih =>
    unfold Direct.converse at h
    split at h
    · rename_i hallows
      obtain ⟨⟨result, d₁⟩, hmove, h⟩ := Option.bind_eq_some_iff.mp h
      obtain ⟨⟨results', d₂⟩, hrest, h⟩ := Option.bind_eq_some_iff.mp h
      cases h
      exact .cons (allows_spec hallows) hmove (ih hrest)
    · cases h

end Service

/-! ### The client on its link -/

section Client

variable [Platform]

def Move.exec (s : Session Link) :
    Move → Except (Failure KostaError) (Option TlObject) × Session Link
  | .send now random obj => ((do
      sendTl now random obj
      return none) : ClientM Link (Option TlObject)).exec s
  | .recv now => ((do
      let obj ← recvTl now
      return some obj) : ClientM Link (Option TlObject)).exec s
  | .evict id =>
    let world := Server.evict id s.transport.world
    (.ok none, { s with transport := { s.transport with world } })

/-- What the moves return, and the session they leave behind. -/
def converse : List Move → Session Link →
    List (Except (Failure KostaError) (Option TlObject)) × Session Link
  | [], s => ([], s)
  | m :: moves, s =>
    ((m.exec s).1 :: (converse moves (m.exec s).2).1, (converse moves (m.exec s).2).2)

end Client

/-! ### In touch -/

section Touch

variable [Platform]

/-- The stream holds the frames of these replies from number `n` on, in rising order above the last
identifier received. -/
inductive Inbox (k : Nat) (keys : AesKey × MacKey × AesKey × MacKey) (id : Int64)
    (repliedAt : Nat) : Int64 → Nat → List (Nat × Bytes) → Bytes → Prop where
  | nil {last n} : Behind k last repliedAt n → Inbox k keys id repliedAt last n [] []
  | cons {last n t data waiting frame stream inbox} : InRound k t →
    last < msgId t (UInt32.ofNat n) →
    (∃ nonce, frame = Standing.response ⟨keys, 0, n, 0⟩ id nonce t data) →
    (∀ rest, decodeFrame.run (stream ++ rest) = .ok frame rest) →
    Inbox k keys id repliedAt (msgId t (UInt32.ofNat n)) (n + 1) waiting inbox →
    Inbox k keys id repliedAt last n ((t, data) :: waiting) (stream ++ inbox)

/-- Client and server agree after `n` requests, `r` of whose replies the client has read. -/
structure InTouch (k : Nat) (keys : AesKey × MacKey × AesKey × MacKey) (id : Int64)
    (statics : Statics) (conn : ConnId) (draws : Nat → FrameDraws) (n r : Nat) (s : Session Link)
    (d : Direct) : Prop where
  authKeyId : s.authKeyId = some id
  crypto : ∃ crypto, s.crypto = some crypto ∧ crypto.keys = keys ∧ crypto.sendCounter.toNat ≤ n ∧
    crypto.recvCounter.toNat ≤ r
  seqNo : s.seqNo + 1 = Int32.ofNat n
  msgIdCounter : s.msgIdCounter = UInt32.ofNat n
  recvSeqNo : s.recvSeqNo + 1 = Int32.ofNat r
  known : ∃ last, Known id ⟨keys, n, r + d.waiting.length, last⟩ s.transport.world ∧
    Behind k last d.askedAt n
  inbox : Inbox k keys id d.repliedAt s.recvLastMsgId r d.waiting s.transport.inbox
  holdings : holdings s.transport.world = holdings d.world
  few : r + d.waiting.length ≤ n
  setting : s.transport.statics = statics ∧ s.transport.conn = conn ∧ s.transport.draws = draws ∧
    s.transport.turn = d.turn

/-! ### A request -/

variable {k : Nat} {keys : AesKey × MacKey × AesKey × MacKey} {id : Int64} {statics : Statics}
  {conn : ConnId} {draws : Nat → FrameDraws} {n r : Nat} {s : Session Link} {d : Direct}

theorem Inbox.append {repliedAt now last n waiting inbox} {data stream : Bytes}
    (h : Inbox k keys id repliedAt last n waiting inbox) (hnow : InRound k now)
    (hle : repliedAt ≤ now) (hfew : n + waiting.length < 2 ^ 31) (nonce : Nonce)
    (hstream : ∀ rest, decodeFrame.run (stream ++ rest) =
      .ok (Standing.response ⟨keys, 0, n + waiting.length, 0⟩ id nonce now data) rest) :
    Inbox k keys id now last n (waiting ++ [(now, data)]) (inbox ++ stream) := by
  induction h with
  | @nil last n hbehind =>
    have hlast := hbehind now n hnow hle (Nat.le_refl n) hfew
    have hone := Inbox.cons hnow hlast ⟨nonce, rfl⟩ hstream
      (@Inbox.nil _ k keys id now _ _ (behind_msgId hnow hfew))
    rwa [List.append_nil] at hone
  | @cons last n t data' waiting frame stream' inbox ht hlast hframe hread _ ih =>
    rw [List.append_assoc]
    refine .cons ht hlast hframe hread (ih ?_ ?_)
    · rw [List.length_cons] at hfew
      omega
    · rw [List.length_cons] at hstream
      rwa [Nat.add_right_comm, Nat.add_assoc]

omit [Platform] in
theorem sentOn_eq (conn : ConnId) (events : List Event) : sentOn conn events =
    ((events.filterMap Event.sent?).filterMap fun sent =>
      if sent.1 = conn then some sent.2 else none).reverse := by
  unfold sentOn
  rw [List.filterMap_filterMap]
  refine congrArg (fun f => (events.filterMap f).reverse) (funext fun event => ?_)
  cases event <;> rfl

omit [Platform] in
theorem sentOn_of_sends {frames : List Bytes} {events : List Event}
    (h : events.filterMap Event.sent? = (frames.map fun frame => (conn, frame)).reverse) :
    sentOn conn events = frames := by
  have hall : ((fun sent : ConnId × Bytes => if sent.1 = conn then some sent.2 else none) ∘
      fun frame => (conn, frame)) = some := funext fun _ => if_pos rfl
  rw [sentOn_eq, h, ← List.filterMap_reverse, List.reverse_reverse, List.filterMap_map, hall]
  exact List.filterMap_some

/-- The server's turn on a frame, with what it sends. -/
theorem link_serve {l : Link} {raw : Bytes} {frames : List Bytes} {w : World}
    (hexec : ((Server.serve l.statics (l.draws l.turn) l.conn raw).exec l.world).2 = w)
    (hsends : Sends l.conn frames l.world w) :
    l.serve raw =
      { l with
        world := w, turn := l.turn + 1, inbox := l.inbox ++ (encodeFrames frames).getD [] } := by
  obtain ⟨events, htrace, hsent⟩ := hsends
  have htake : w.trace.take (w.trace.length - l.world.trace.length) = events := by
    rw [htrace, List.length_append, Nat.add_sub_cancel, List.take_left]
  unfold Link.serve
  rw [hexec]
  dsimp only
  rw [htake, sentOn_of_sends hsent]

/-- What `send_tl` leaves to the link. -/
theorem InTouch.exec_sendTl (h : InTouch k keys id statics conn draws n r s d) (hn : n < 2 ^ 31)
    (last : Int64) (now : Nat) (random : Vector UInt8 12) (obj : TlObject) :
    ∃ crypto nonce, crypto.keys = keys ∧ crypto.sendCounter.toNat ≤ n + 1 ∧
      crypto.recvCounter.toNat ≤ r ∧ (sendTl now random obj).exec s =
        (Client.transportSend (Standing.request ⟨keys, n, r + d.waiting.length, last⟩ id nonce
          (msgId now (UInt32.ofNat n)) obj.writeBoxed)).exec
            { s with
              msgIdCounter := UInt32.ofNat (n + 1), lastMsgId := msgId now (UInt32.ofNat n)
              seqNo := Int32.ofNat n, crypto := some crypto } := by
  obtain ⟨crypto, hcrypto, rfl, hsealed, hopened⟩ := h.crypto
  obtain ⟨sendCounter, hsucc, hnext⟩ := succU32_of_le hsealed hn
  have hseq := succI32_of_succ h.seqNo hn
  have hcounter : UInt32.ofNat n + 1 = UInt32.ofNat (n + 1) := (UInt32.ofNat_add n 1).symm
  have hstamp := exec_stampHeader now s
  rw [hseq, h.msgIdCounter] at hstamp
  have hencrypt : crypto.encryptOutgoing random (withHeader (msgId now (UInt32.ofNat n))
      (Int32.ofNat n) obj.writeBoxed) =
      some ((generateNonce crypto.sendCounter random, encryptAndTag crypto.clientWriteKey
        crypto.clientMacKey (generateNonce crypto.sendCounter random)
        (withHeader (msgId now (UInt32.ofNat n)) (Int32.ofNat n) obj.writeBoxed)),
          { crypto with sendCounter }) := by
    unfold SessionCrypto.encryptOutgoing SessionCrypto.encryptWith
    rw [hsucc]
    rfl
  refine ⟨{ crypto with sendCounter }, generateNonce crypto.sendCounter random, rfl, hnext, hopened,
    ?_⟩
  unfold sendTl
  rw [exec_bind_of_ok (exec_get s), hcrypto]
  dsimp only
  rw [exec_bind_of_ok hstamp, withHeader_append, hencrypt, ← hcounter]
  refine (exec_bind_of_ok rfl).trans ((exec_bind_of_ok (exec_modify _ _)).trans ?_)
  dsimp only
  rw [h.authKeyId, Option.getD_some]
  rfl

theorem length_sealed (aesKey : AesKey) (macKey : MacKey) (nonce : Nonce) (m : Int64)
    (seqNo : Int32) (data : Bytes) :
    (encryptedFrame aesKey macKey id nonce (withHeader m seqNo data)).length =
      52 + data.length := by
  rw [length_encryptedFrame]
  simp only [withHeader, List.length_append, length_writeBytes_i64, length_writeBytes_i32]
  omega

theorem receivable_sealed {data : Bytes} (h : FitsFrame data) (aesKey : AesKey) (macKey : MacKey)
    (nonce : Nonce) (m : Int64) (seqNo : Int32) :
    Receivable (encryptedFrame aesKey macKey id nonce (withHeader m seqNo data)) := by
  rw [receivable_iff, length_sealed]
  exact h

/-- The state of the service after a request. -/
def Direct.after (d : Direct) (draws : Nat → FrameDraws) (now : Nat) (world : World) :
    Option Bytes → Direct
  | none => d.asked now world
  | some data => (d.asked now world).replied (draws d.turn).responseNow data

/-- A request reaches the handlers, and its reply is on its way. -/
theorem InTouch.send (h : InTouch k keys id statics conn draws n r s d) (hid : id ≠ 0)
    (hn : n + 1 < 2 ^ 31) {now : Nat} {obj : TlObject}
    (hsend : Sendable statics conn draws id k d now obj) {reply : Option Bytes} {world : World}
    (hhandle : d.handle statics conn draws id obj = (.ok reply, world)) (random : Vector UInt8 12) :
    ∃ s', (sendTl now random obj).exec s = (.ok (), s') ∧
      InTouch k keys id statics conn draws (n + 1) r s' (d.after draws now world reply) ∧
      Bypasses id s.transport.world s'.transport.world := by
  obtain ⟨last, hknown, hbehind⟩ := h.known
  obtain ⟨crypto, nonce, hkeys, hsealed, hopened, hexec⟩ :=
    h.exec_sendTl (by omega) last now random obj
  obtain ⟨hstatics, hconn, hdraws, hturn⟩ := h.setting
  have hnew := hbehind now n hsend.sent.1 hsend.sent.2 (Nat.le_refl n) (by omega)
  obtain ⟨diff, hclock, hdiff⟩ := clockDiff_of_close hsend.sent.1 hsend.received.1
    hsend.received.2 (UInt32.ofNat n)
  have hfew := h.few
  have hsmall : obj.writeBoxed.length < lengthLimit := by
    have hfits := hsend.request.1
    unfold maxFrameSize at hfits
    unfold lengthLimit
    omega
  have hturned := serve_request hknown hid statics (draws d.turn) conn nonce (by dsimp only; omega)
    (by dsimp only; omega) hnew hclock hdiff hsmall hsend.established h.holdings hhandle
    fun data hdata nonce => receivable_sealed (hsend.reply data world (hdata ▸ hhandle)) _ _ _ _ _
  have hbypass := bypasses_request hknown hid statics (draws d.turn) conn nonce
    (by dsimp only; omega)
    hnew hclock hdiff hsmall hsend.established
  have hraw : Receivable (Standing.request ⟨keys, n, r + d.waiting.length, last⟩ id nonce
      (msgId now (UInt32.ofNat n)) obj.writeBoxed) := receivable_sealed hsend.request _ _ _ _ _
  rw [exec_transportSend_eq, send_receivable hraw] at hexec
  generalize hserve : ((Server.serve statics (draws d.turn) conn (Standing.request
    ⟨keys, n, r + d.waiting.length, last⟩ id nonce (msgId now (UInt32.ofNat n))
      obj.writeBoxed)).exec s.transport.world).2 = w at hturned hbypass
  have hown : ((Server.serve s.transport.statics (s.transport.draws s.transport.turn)
      s.transport.conn (Standing.request ⟨keys, n, r + d.waiting.length, last⟩ id nonce
        (msgId now (UInt32.ofNat n)) obj.writeBoxed)).exec s.transport.world).2 = w := by
    rw [hstatics, hconn, hdraws, hturn]
    exact hserve
  have hlast : Behind k (msgId now (UInt32.ofNat n)) now (n + 1) :=
    behind_msgId hsend.sent.1 (by omega)
  refine ⟨_, hexec, ?_⟩
  cases reply with
  | none =>
    obtain ⟨hknown', hsends⟩ := hturned.silent rfl
    have hlink := link_serve hown (hconn ▸ hsends)
    rw [hlink]
    refine ⟨⟨h.authKeyId, ⟨crypto, rfl, hkeys, hsealed, hopened⟩, ?_, rfl, h.recvSeqNo,
      ⟨_, hknown', hlast⟩, ?_, hturned.holdings, ?_, ⟨hstatics, hconn, hdraws, ?_⟩⟩, hbypass⟩
    · exact (Int32.ofNat_add n 1).symm
    · exact (List.append_nil s.transport.inbox).symm ▸ h.inbox
    · exact Nat.le_succ_of_le hfew
    · exact congrArg (· + 1) hturn
  | some data =>
    obtain ⟨hknown', nonce', hsends⟩ := hturned.replied data rfl
    have hlink := link_serve hown (hconn ▸ hsends)
    have hframe : Receivable (Standing.response ⟨keys, 0, r + d.waiting.length, 0⟩ id nonce'
        (draws d.turn).responseNow data) :=
      receivable_sealed (hsend.reply data world hhandle) _ _ _ _ _
    obtain ⟨stream, hstream, hread⟩ := hframe
    have hinbox : (encodeFrames [Standing.response ⟨keys, 0, r + d.waiting.length, 0⟩ id nonce'
        (draws d.turn).responseNow data]).getD [] = stream := by
      simp [encodeFrames, hstream]
    have hlen : (d.after draws now world (some data)).waiting.length = d.waiting.length + 1 :=
      List.length_append
    rw [hlink]
    refine ⟨⟨h.authKeyId, ⟨crypto, rfl, hkeys, hsealed, hopened⟩, ?_, rfl, h.recvSeqNo,
      ⟨_, ?_, hlast⟩, ?_, hturned.holdings, ?_, ⟨hstatics, hconn, hdraws, ?_⟩⟩, hbypass⟩
    · exact (Int32.ofNat_add n 1).symm
    · rw [hlen]
      exact hknown'
    · have happend := h.inbox.append hsend.replied.1 hsend.replied.2 (by omega) nonce' hread
      rw [← hinbox] at happend
      exact happend
    · rw [hlen]
      omega
    · exact congrArg (· + 1) hturn

/-! ### A reply -/

theorem Inbox.uncons {repliedAt t last n waiting bytes} {data : Bytes}
    (h : Inbox k keys id repliedAt last n ((t, data) :: waiting) bytes) :
    ∃ nonce rest, InRound k t ∧ last < msgId t (UInt32.ofNat n) ∧
      decodeFrame.run bytes = .ok (Standing.response ⟨keys, 0, n, 0⟩ id nonce t data) rest ∧
      Inbox k keys id repliedAt (msgId t (UInt32.ofNat n)) (n + 1) waiting rest := by
  cases h with
  | cons ht hlast hframe hread hinbox =>
    obtain ⟨nonce, rfl⟩ := hframe
    exact ⟨nonce, _, ht, hlast, hread _, hinbox⟩

theorem exec_acceptPlaintext {T : Type} {s : Session T} {m diff : Int64} {seqNo : Int32} {now : Nat}
    {data rest : Bytes} {obj : TlObject} (hnew : s.recvLastMsgId < m)
    (hseq : succI32 s.recvSeqNo = some seqNo) (hclock : clockDiff m now = some diff)
    (hdiff : ¬ diff > 30000) (hread : TlObject.readBoxed.run data = .ok obj rest) :
    (acceptPlaintext now (withHeader m seqNo data)).exec s =
      (.ok obj, { s with recvLastMsgId := m, recvSeqNo := seqNo }) := by
  have hheader : (Client.readFrom readHeader (withHeader m seqNo data)).exec s =
      (.ok ((m, seqNo), data), s) := exec_readFrom_of_run (run_readHeader m seqNo data) s
  unfold acceptPlaintext
  rw [exec_bind_of_ok hheader]
  dsimp only
  rw [exec_bind_of_ok (exec_get _), if_neg (Int64.not_le.mpr hnew),
    exec_bind_of_ok (exec_modify _ _), hseq]
  refine (exec_bind_of_ok rfl).trans ?_
  rw [if_neg (not_not.mpr rfl), exec_bind_of_ok (exec_modify _ _), hclock]
  refine (exec_bind_of_ok rfl).trans ?_
  rw [if_neg hdiff, exec_bind_of_ok (exec_readFrom_of_run hread _)]
  rfl

/-- The oldest reply that is waiting is what the client reads next. -/
theorem InTouch.recv (h : InTouch k keys id statics conn draws n r s d) (hn : n < 2 ^ 31)
    {now t : Nat} {data tail : Bytes} {waiting : List (Nat × Bytes)} {obj : TlObject}
    (hwaiting : d.waiting = (t, data) :: waiting) (hnow : InRound k now) (hclose : Close t now)
    (hread : TlObject.readBoxed.run data = .ok obj tail) :
    ∃ s', (recvTl now).exec s = (.ok obj, s') ∧
      InTouch k keys id statics conn draws n (r + 1) s' { d with waiting } ∧
      s'.transport.world = s.transport.world := by
  have hin := h.inbox
  rw [hwaiting] at hin
  obtain ⟨nonce, rest, ht, hnew, hdecode, hinbox⟩ := hin.uncons
  obtain ⟨crypto, hcrypto, rfl, hsealed, hopened⟩ := h.crypto
  have hfew := h.few
  have hlen : r + d.waiting.length = r + 1 + waiting.length := by
    rw [hwaiting, List.length_cons]
    omega
  obtain ⟨recvCounter, hsucc, hnext⟩ := succU32_of_le hopened (by omega)
  obtain ⟨diff, hclock, hdiff⟩ := clockDiff_of_close ht hnow hclose (UInt32.ofNat r)
  let frame := Standing.response ⟨crypto.keys, 0, r, 0⟩ id nonce t data
  have hrecv : FrameTransport.recv s.transport =
      (.ok frame, { s.transport with inbox := rest }) := by
    simp only [FrameTransport.recv, hdecode]
    rfl
  have hauth :
      Authentic { s with transport := { s.transport with inbox := rest } } crypto frame := by
    refine ⟨?_, ?_, computeTag_encryptedFrame _ _ _ _ _⟩
    · exact (Nat.le_add_right _ _).trans_eq (length_encryptedFrame _ _ _ _ _).symm
    · refine (frameAuthKeyId_encryptedFrame _ _ _ _ _).trans ?_
      rw [h.authKeyId]
      rfl
  have hplain : ctrDecrypt crypto.serverWriteKey (frameNonce frame) (frameCiphertext frame) =
      withHeader (msgId t (UInt32.ofNat r)) (Int32.ofNat r) data :=
    ctrDecrypt_encryptedFrame _ _ _ _ _
  let s' : Session Link :=
    { s with
      transport := { s.transport with inbox := rest }
      crypto := some { crypto with recvCounter }
      recvLastMsgId := msgId t (UInt32.ofNat r), recvSeqNo := Int32.ofNat r }
  have hexec : (recvTl now).exec s = (.ok obj, s') := by
    rw [Client.exec_recvTl hcrypto hrecv, openIncoming_of_authentic now hauth hsucc, hplain]
    exact exec_acceptPlaintext hnew (succI32_of_succ h.recvSeqNo (by omega)) hclock hdiff hread
  obtain ⟨last, hknown, hbehind⟩ := h.known
  rw [hlen] at hknown
  refine ⟨s', hexec, ⟨h.authKeyId, ⟨_, rfl, rfl, hsealed, hnext⟩, h.seqNo, h.msgIdCounter, ?_,
    ⟨last, hknown, hbehind⟩, hinbox, h.holdings, hlen ▸ hfew, h.setting⟩, rfl⟩
  exact (Int32.ofNat_add r 1).symm

/-! ### Whole conversations -/

theorem InTouch.evict (h : InTouch k keys id statics conn draws n r s d) (i : Int64) :
    InTouch k keys id statics conn draws n r ((Move.evict i).exec s).2 d := by
  obtain ⟨last, hknown, hbehind⟩ := h.known
  exact { h with known := ⟨last, hknown.evict i, hbehind⟩ }

/-- The client's move returns what the direct move does, and is no other session's. -/
theorem InTouch.move (h : InTouch k keys id statics conn draws n r s d) (hid : id ≠ 0)
    (hn : n + 1 < 2 ^ 31) {m : Move} {result : Option TlObject} {d' : Direct}
    (hallows : d.Allows statics conn draws id k m)
    (hmove : d.move statics conn draws id m = some (result, d')) :
    ∃ n' r', n' ≤ n + 1 ∧ (m.exec s).1 = .ok result ∧
      InTouch k keys id statics conn draws n' r' (m.exec s).2 d' ∧
      Bypasses id s.transport.world (m.exec s).2.transport.world := by
  cases m with
  | send now random obj =>
    rcases hhandle : d.handle statics conn draws id obj with ⟨reply, world⟩
    simp only [Direct.move, hhandle] at hmove
    cases reply with
    | error e => cases hmove
    | ok reply =>
      obtain ⟨s', hexec, htouch, hbypass⟩ := h.send hid hn hallows hhandle random
      have hall : (Move.send now random obj).exec s = (.ok none, s') := exec_bind_of_ok hexec
      rw [hall]
      cases reply with
      | none =>
        cases hmove
        exact ⟨n + 1, r, Nat.le_refl _, rfl, htouch, hbypass⟩
      | some data =>
        cases hmove
        exact ⟨n + 1, r, Nat.le_refl _, rfl, htouch, hbypass⟩
  | recv now =>
    obtain ⟨hnow, hclose⟩ := hallows
    cases hwaiting : d.waiting with
    | nil =>
      simp only [Direct.move, hwaiting] at hmove
      cases hmove
    | cons first waiting =>
      obtain ⟨t, data⟩ := first
      simp only [Direct.move, hwaiting] at hmove
      rw [hwaiting] at hclose
      cases hread : TlObject.readBoxed.run data with
      | ok obj tail =>
        rw [hread] at hmove
        cases hmove
        obtain ⟨s', hexec, htouch, hworld⟩ :=
          h.recv (by omega) hwaiting hnow (hclose t data rfl) hread
        have hall : (Move.recv now).exec s = (.ok (some obj), s') := exec_bind_of_ok hexec
        rw [hall]
        refine ⟨n, r + 1, Nat.le_succ n, rfl, htouch, ?_⟩
        rw [hworld]
        exact Bypasses.refl id _
      | err e =>
        rw [hread] at hmove
        cases hmove
      | panic =>
        rw [hread] at hmove
        cases hmove
  | evict i =>
    cases hmove
    exact ⟨n, r, Nat.le_succ n, rfl, h.evict i, bypasses_evict id i _⟩

/-- So does every move of a conversation, and the two are in touch again at its end. -/
theorem InTouch.converse (h : InTouch k keys id statics conn draws n r s d) (hid : id ≠ 0)
    {moves : List Move} {results : List (Option TlObject)} {d' : Direct}
    (hconversation : Conversation statics conn draws id k d moves results d')
    (hfew : n + moves.length < 2 ^ 31) :
    (converse moves s).1 = results.map .ok ∧
      ∃ n' r', InTouch k keys id statics conn draws n' r' (converse moves s).2 d' := by
  induction hconversation generalizing n r s with
  | nil => exact ⟨rfl, n, r, h⟩
  | @cons d d' d'' m moves result results hallows hmove _ ih =>
    rw [List.length_cons] at hfew
    obtain ⟨n', r', hn', hresult, htouch, -⟩ := h.move hid (by omega) hallows hmove
    obtain ⟨hresults, hend⟩ := ih htouch (by omega)
    exact ⟨congrArg₂ List.cons hresult hresults, hend⟩

/-- What a client in touch gets from its calls, and what they leave in the tables, is what the
handlers answer and leave when they are run directly. -/
theorem conversation_direct (h : InTouch k keys id statics conn draws n r s d) (hid : id ≠ 0)
    {moves : List Move} {results : List (Option TlObject)} {d' : Direct}
    (hconversation : Conversation statics conn draws id k d moves results d')
    (hfew : n + moves.length < 2 ^ 31) :
    (converse moves s).1 = results.map .ok ∧
      Server.holdings (converse moves s).2.transport.world = Server.holdings d'.world := by
  obtain ⟨hresults, _, _, htouch⟩ := h.converse hid hconversation hfew
  exact ⟨hresults, htouch.holdings⟩

/-- A client that has its key and has not used it. -/
theorem inTouch_fresh (k : Nat) (hid : s.authKeyId = some id) {crypto : SessionCrypto}
    (hcrypto : s.crypto = some crypto) (hsealed : crypto.sendCounter = 0)
    (hopened : crypto.recvCounter = 0) (hseqNo : s.seqNo = -1) (hcounter : s.msgIdCounter = 0)
    (hlast : s.recvLastMsgId = 0) (hrecvSeqNo : s.recvSeqNo = -1) (hinbox : s.transport.inbox = [])
    (hknown : Known id ⟨crypto.keys, 0, 0, 0⟩ s.transport.world) :
    InTouch k crypto.keys id s.transport.statics s.transport.conn s.transport.draws 0 0 s
      ⟨s.transport.world, s.transport.turn, [], 0, 0⟩ where
  authKeyId := hid
  crypto :=
    have hsealed : crypto.sendCounter.toNat ≤ 0 := by
      rw [hsealed]
      exact Nat.le_refl 0
    have hopened : crypto.recvCounter.toNat ≤ 0 := by
      rw [hopened]
      exact Nat.le_refl 0
    ⟨crypto, hcrypto, rfl, hsealed, hopened⟩
  seqNo := by rw [hseqNo]; rfl
  msgIdCounter := hcounter
  recvSeqNo := by rw [hrecvSeqNo]; rfl
  known := ⟨0, hknown, behind_zero k 0 0⟩
  inbox := by
    rw [hlast, hinbox]
    exact .nil (behind_zero k 0 0)
  holdings := rfl
  few := Nat.le_refl 0
  setting := ⟨rfl, rfl, rfl, rfl⟩

end Touch

/-! ### A small conversation -/

namespace Sample

/-- The session as its key exchange has stored it. -/
def storedRow : FullSession where
  authKeyId := 7
  userId := 0
  serverSalt := 0
  nonce := Vector.replicate 16 0
  serverNonce := Vector.replicate 16 0
  newNonce := Vector.replicate 32 0
  recvSeqNo := -1
  authKey := Vector.replicate 256 0
  clientWriteKey := Vector.replicate 32 0
  clientMacKey := Vector.replicate 32 0
  serverWriteKey := Vector.replicate 32 0
  serverMacKey := Vector.replicate 32 0
  lastMsgId := 0
  sendCounter := 0
  recvCounter := 0
  sendSeqNo := -1
  msgIdCounter := 0

def turns (_ : Nat) : FrameDraws := Server.Sample.draws 1

/-- A client whose server has been started again. -/
def caller : Session Link where
  authKeyId := some 7
  crypto := some blankCrypto
  serverSalt := 0
  lastMsgId := 0
  recvLastMsgId := 0
  seqNo := -1
  transport := ⟨Server.Sample.statics, 0, World.init.save storedRow [], turns, 0, []⟩
  authKey := none
  recvSeqNo := -1
  msgIdCounter := 0
  userId := none

def signUp : TlObject := .signUp { phone := "1", password := "" }

def createGroup : TlObject := .createGroup { title := "", participants := [⟨0⟩] }

/-- What the group's creator is told. -/
def created : TlObject := .dialogInfo
  { id := ⟨1⟩, title := "Unknown", isGroup := false, participants := [⟨0⟩, ⟨1⟩]
    lastMessage := none, unreadCount := 0 }

def moves : List Move :=
  [.send 1 (Vector.replicate 12 0) signUp, .send 1 (Vector.replicate 12 0) createGroup, .evict 7,
    .recv 2]

/-- The service that the client's first request finds. -/
def service : Direct := ⟨caller.transport.world, caller.transport.turn, [], 0, 0⟩

end Sample

/-- A client signs up and creates a group, and is told so when the server's cache has dropped the
session. -/
theorem conversation_direct_small :
    letI := Server.Sample.platform
    (converse Sample.moves Sample.caller).1 =
      [.ok none, .ok none, .ok none, .ok (some Sample.created)] := by
  let platform := Server.Sample.platform
  have hstands : (sessionOfRow 7 Sample.storedRow 0).StandsAt ⟨blankCrypto.keys, 0, 0, 0⟩ :=
    ⟨rfl, rfl, rfl, rfl, rfl, Nat.le_refl 0, Nat.le_refl 0, Nat.le_refl 0, Nat.le_refl 0⟩
  have hknown : Known 7 ⟨blankCrypto.keys, 0, 0, 0⟩ Sample.caller.transport.world :=
    Or.inr ⟨rfl, Sample.storedRow, rfl, hstands⟩
  have htouch := inTouch_fresh (s := Sample.caller) 0 rfl rfl rfl rfl rfl rfl rfl rfl rfl hknown
  have hresults : (Sample.service.converse Server.Sample.statics 0 Sample.turns 7 0
      Sample.moves).map Prod.fst = some [none, none, none, some Sample.created] := by
    decide +kernel
  obtain ⟨⟨_, d'⟩, hconverse, rfl⟩ := Option.map_eq_some_iff.mp hresults
  exact (conversation_direct htouch (by decide) (conversation_spec hconverse) (by decide)).1

end KoSta
