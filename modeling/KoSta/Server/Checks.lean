import KoSta.Server.Runs

/-! A frame of a session in two parts: the checks it has to pass, and what follows them. -/
namespace KoSta.Server
open Lib Lib.Prog Tl Crypto

/-! ### Lookups, section by section -/

section Lookup

variable {α β : Type} (conn : ConnId) (id : Int64) (mark : SessionData → List Event)
variable (k : Option SessionData → ServerM β)

/-- What is left of a lookup that has missed and loaded the row. -/
def loading (full : FullSession) : ServerM β :=
  .atomic (fun w => w.load id full (mark (sessionOfRow id full w.state.nextRecent) ++
      [.put conn id (sessionOfRow id full w.state.nextRecent)]))
    fun w => k (some (sessionOfRow id full w.state.nextRecent))

/-- What is left of a lookup that has missed. -/
def missing : ServerM β :=
  .atomic (fun w => w) fun w =>
    match w.row id with
    | some full => loading conn id mark k full
    | none => k none

theorem cacheLookup_eq : cacheLookup id mark =
    .atomic (fun w => match w.state.cache id with
      | some session => w.log (mark session)
      | none => w) fun w => .done (w.state.cache id) := by
  unfold cacheLookup locked atomically
  refine congrArg₂ Prog.atomic (funext fun w => ?_) (funext fun w => ?_)
  · dsimp only
    cases w.state.cache id <;> rfl
  · dsimp only
    cases w.state.cache id <;> rfl

theorem getSession_eq : (getSession conn id mark >>= k) =
    .atomic (fun w => match w.state.cache id with
      | some session => w.log (mark session)
      | none => w) fun w =>
      match w.state.cache id with
      | some session => k (some session)
      | none => missing conn id mark k := by
  have hmissing : (sql (Database.getFullSession id) >>= fun row => match row with
      | some full => putLoaded conn id full mark >>= fun session => k (some session)
      | none => k none) = missing conn id mark k := by
    refine congrArg (Prog.atomic _) (funext fun w => ?_)
    change (match w.row id with
      | some full => putLoaded conn id full mark >>= fun session => k (some session)
      | none => k none) = _
    cases w.row id <;> rfl
  rw [getSession_bind, cacheLookup_eq, atomic_bind]
  refine congrArg (Prog.atomic _) (funext fun w => ?_)
  rw [done_bind]
  cases w.state.cache id with
  | some session => rfl
  | none => exact hmissing

/-- A lookup cannot fail. -/
theorem attempt_getSession :
    ((getSession conn id mark >>= k).attempt : ServerM (Except Stop β)) =
      getSession conn id mark >>= fun found => (k found).attempt := by
  rw [getSession_eq, getSession_eq]
  refine congrArg (Prog.atomic _) (funext fun w => ?_)
  dsimp only
  cases w.state.cache id with
  | some session => rfl
  | none =>
    refine congrArg (Prog.atomic _) (funext fun w => ?_)
    dsimp only
    cases w.row id <;> rfl

/-- The replay check as one section. -/
theorem recordMsgId_eq (session : SessionData) (msgId : Int64) (k : Bool → ServerM β) :
    (recordMsgId conn id session msgId >>= k) =
      .atomic (fun w => if msgId ∈ w.state.recents session.recentMsgIds then w
        else w.pass conn id session msgId)
        fun w => k (decide (msgId ∉ w.state.recents session.recentMsgIds)) := by
  unfold recordMsgId locked atomically
  rw [atomic_bind]
  refine congrArg₂ Prog.atomic (funext fun w => ?_) (funext fun w => ?_)
  · dsimp only
    by_cases h : msgId ∈ w.state.recents session.recentMsgIds
    · simp only [List.contains_iff_mem, h, if_true]
      rfl
    · simp only [List.contains_iff_mem, h, if_false]
      rfl
  · rw [done_bind]
    dsimp only
    by_cases h : msgId ∈ w.state.recents session.recentMsgIds
    · simp only [List.contains_iff_mem, h, if_true, not_true_eq_false, decide_false]
    · simp only [List.contains_iff_mem, h, if_false, not_false_eq_true, decide_true]

end Lookup

/-! ### The checks -/

/-- A frame that has passed the checks, with the clone they have read. -/
structure Admission where
  session : SessionData
  crypto : SessionCrypto
  msgId : Int64
  seqNo : Int32
  tlData : Bytes

/-- How the checks end. A frame that names no known session is taken for plaintext. -/
inductive Checked where
  | unknown
  | ended (e : Stop)
  | rejected (reason : Rejection)
  | admitted (a : Admission)

def Checked.passed : Checked → Bool
  | .admitted _ => true
  | _ => false

theorem Checked.eq_admitted {b : Checked} (h : b.passed = true) : ∃ a, b = .admitted a := by
  cases b with
  | admitted a => exact ⟨a, rfl⟩
  | unknown => cases h
  | ended e => cases h
  | rejected reason => cases h

/-- What a clone says about a frame: how the checks end, whatever the recent set holds, or how
they end once the replay check lets this identifier pass. -/
inductive Judged where
  | decided (b : Checked)
  | asks (msgId : Int64) (b : Checked)

namespace Frame

/-- The session the frame names. -/
def id (f : Frame) : Int64 := frameAuthKeyId f.raw

/-- The frame belongs to this session. -/
structure Of (f : Frame) (id : Int64) : Prop where
  long : 8 ≤ f.raw.length
  names : f.id = id
  encrypted : id ≠ 0

variable [Platform]

/-- The checks behind the replay check. -/
def judgeNumbers (f : Frame) (session : SessionData) (crypto : SessionCrypto) (msgId : Int64)
    (seqNo : Int32) (tlData : Bytes) : Checked :=
  match succI32 session.recvSeqNo with
  | none => .ended .panic
  | some expected =>
    if seqNo ≠ expected then .rejected .wrongSeqNo
    else
      match clockDiff msgId f.draws.now with
      | none => .ended .panic
      | some diff =>
        if diff > 30000 then .rejected .staleTimestamp
        else .admitted ⟨session, crypto, msgId, seqNo, tlData⟩

def judgeMessage (f : Frame) (session : SessionData) (crypto : SessionCrypto) (plaintext : Bytes) :
    Judged :=
  match readHeader.run plaintext with
  | .err e => .decided (.ended (.error (.core e)))
  | .panic => .decided (.ended .panic)
  | .ok (msgId, seqNo) tlData =>
    if msgId ≤ session.lastRecvMsgId then .decided (.rejected .oldMsgId)
    else .asks msgId (f.judgeNumbers session crypto msgId seqNo tlData)

def judge (f : Frame) (session : SessionData) : Judged :=
  if f.raw.length < minFrame then .decided (.rejected .tooShort)
  else
    match session.crypto.decryptIncomingServer (frameNonce f.raw) (frameCiphertext f.raw)
      (frameTag f.raw) with
    | .error .panic => .decided (.ended .panic)
    | .error (.error _) => .decided (.rejected .badMac)
    | .ok (plaintext, crypto) => f.judgeMessage session crypto plaintext

end Frame

/-- A frame of the session. -/
structure Framed (id : Int64) extends Frame where
  of : toFrame.Of id

/-- The replay check, where it comes to that. -/
def Judged.ask (conn : ConnId) (id : Int64) (session : SessionData) : Judged → ServerM Checked
  | .decided b => pure b
  | .asks msgId b => do
    if ← recordMsgId conn id session msgId then
      return b
    else
      return .rejected .replayed

namespace Frame

variable [Platform]

/-- The checks on what the second lookup has found. -/
def examine (f : Frame) : Option SessionData → ServerM Checked
  | some session => (f.judge session).ask f.conn f.id session
  | none => pure (.ended (.error (.message "Session not found")))

def receive (f : Frame) : ServerM Checked :=
  getSession f.conn f.id (fun session => [.lookedUp f.conn f.id session]) >>= f.examine

/-- What follows the first lookup. -/
def found (f : Frame) : Option SessionData → ServerM Checked
  | some _ => f.receive
  | none => pure .unknown

def check (f : Frame) : ServerM Checked := getSession f.conn f.id (fun _ => []) >>= f.found

/-- What follows the checks. -/
def proceed (statics : Statics) (f : Frame) : Checked → ServerM Verdict
  | .unknown => dispatch statics f.draws f.conn none f.raw
  | .ended e => .fail e
  | .rejected reason => pure (.rejected reason)
  | .admitted a => do
    commitFrame f.conn f.id a.session a.crypto a.msgId a.seqNo
    dispatch statics f.draws f.conn (some ⟨f.id, a.msgId, a.crypto⟩) a.tlData

/-- The same with its outcome recorded. -/
def rest (statics : Statics) (f : Frame) (b : Checked) : ServerM Unit := do
  let result ← (f.proceed statics b).attempt
  record (.finished f.conn result)

/-! #### A turn is its checks and the rest -/

variable {f : Frame} {id : Int64}

theorem judgeNumbers_bind (session : SessionData) (crypto : SessionCrypto) (msgId : Int64)
    (seqNo : Int32) (tlData : Bytes) (statics : Statics) :
    (do
      let expected ← orPanic (succI32 session.recvSeqNo)
      if seqNo ≠ expected then
        return Verdict.rejected .wrongSeqNo
      else
        let diff ← orPanic (clockDiff msgId f.draws.now)
        if diff > 30000 then
          return .rejected .staleTimestamp
        else
          commitFrame f.conn f.id session crypto msgId seqNo
          dispatch statics f.draws f.conn (some ⟨f.id, msgId, crypto⟩) tlData) =
      f.proceed statics (f.judgeNumbers session crypto msgId seqNo tlData) := by
  unfold judgeNumbers
  cases succI32 session.recvSeqNo with
  | none => rfl
  | some expected =>
    change (if _ then _ else _) = f.proceed statics (if _ then _ else _)
    split
    · rfl
    · cases clockDiff msgId f.draws.now with
      | none => rfl
      | some diff =>
        change (if _ then _ else _) = f.proceed statics (if _ then _ else _)
        split <;> rfl

/-- What the loop does with a frame that has been received. -/
def answer (statics : Statics) (f : Frame) :
    Except Rejection (Bytes × FrameSession) → ServerM Verdict
  | .error reason => pure (.rejected reason)
  | .ok (tlData, session) => dispatch statics f.draws f.conn (some session) tlData

theorem acceptMessage_bind (session : SessionData) (crypto : SessionCrypto) (plaintext : Bytes)
    (statics : Statics) :
    acceptMessage f.draws.now f.conn f.id session crypto plaintext >>= f.answer statics =
      (f.judgeMessage session crypto plaintext).ask f.conn f.id session >>= f.proceed statics := by
  unfold acceptMessage judgeMessage readFrom
  cases readHeader.run plaintext with
  | err e => rfl
  | panic => rfl
  | ok header tlData =>
    obtain ⟨msgId, seqNo⟩ := header
    change (if msgId ≤ session.lastRecvMsgId then _ else recordMsgId f.conn f.id session msgId >>=
      fun fresh => _) >>= f.answer statics = _
    dsimp only
    by_cases hold : msgId ≤ session.lastRecvMsgId
    · rw [if_pos hold, if_pos hold]
      rfl
    · rw [if_neg hold, if_neg hold]
      unfold Judged.ask
      rw [bind_assoc, bind_assoc]
      refine bind_congr fun fresh => ?_
      cases fresh with
      | false => rfl
      | true =>
        change _ = f.proceed statics (f.judgeNumbers session crypto msgId seqNo tlData)
        rw [← judgeNumbers_bind]
        change (_ >>= _) >>= f.answer statics = _
        rw [bind_assoc]
        refine bind_congr fun expected => ?_
        split
        · rfl
        · rw [bind_assoc]
          refine bind_congr fun diff => ?_
          split
          · rfl
          · rw [bind_assoc]
            rfl

theorem receiveEncrypted_bind (statics : Statics) :
    receiveEncrypted f.draws.now f.conn f.id f.raw >>= f.answer statics =
      f.receive >>= f.proceed statics := by
  unfold receiveEncrypted receive
  rw [bind_assoc, bind_assoc]
  refine bind_congr fun found => ?_
  cases found with
  | none => rfl
  | some session =>
    unfold examine judge
    dsimp only
    split
    · rfl
    · cases session.crypto.decryptIncomingServer (frameNonce f.raw) (frameCiphertext f.raw)
        (frameTag f.raw) with
      | ok opened => exact acceptMessage_bind session opened.2 opened.1 statics
      | error failure => cases failure <;> rfl

theorem handleFrame_eq (h : f.Of id) (statics : Statics) :
    handleFrame statics f.draws f.conn f.raw = f.check >>= f.proceed statics := by
  have haddressed : addressedSession f.conn f.raw =
      getSession f.conn f.id (fun _ => []) >>= fun found => match found with
        | some _ => pure (some f.id)
        | none => pure none := by
    unfold addressedSession
    rw [if_pos h.long]
    exact if_neg fun hzero => h.encrypted (h.names.symm.trans hzero)
  unfold handleFrame check
  rw [haddressed, bind_assoc, bind_assoc]
  refine bind_congr fun found => ?_
  cases found with
  | none => rfl
  | some _ =>
    refine Eq.trans ?_ (receiveEncrypted_bind statics)
    change receiveEncrypted f.draws.now f.conn f.id f.raw >>= _ = _
    refine bind_congr fun received => ?_
    cases received with
    | error reason => rfl
    | ok received => rfl

/-- The checks themselves cannot fail. -/
theorem attempt_check (k : Checked → ServerM Verdict) :
    ((f.check >>= k).attempt : ServerM (Except Stop Verdict)) =
      f.check >>= fun b => (k b).attempt := by
  have hask (session : SessionData) (judged : Judged) :
      ((judged.ask f.conn f.id session >>= k).attempt : ServerM (Except Stop Verdict)) =
        judged.ask f.conn f.id session >>= fun b => (k b).attempt := by
    cases judged with
    | decided b => rfl
    | asks msgId b =>
      unfold Judged.ask
      rw [bind_assoc, bind_assoc, recordMsgId_eq, recordMsgId_eq]
      refine congrArg (Prog.atomic _) (funext fun w => ?_)
      dsimp only
      split <;> rfl
  have hreceive : ((f.receive >>= k).attempt : ServerM (Except Stop Verdict)) =
      f.receive >>= fun b => (k b).attempt := by
    unfold receive
    rw [bind_assoc, bind_assoc, attempt_getSession]
    refine bind_congr fun found => ?_
    cases found with
    | some session => exact hask session _
    | none => rfl
  unfold check
  rw [bind_assoc, bind_assoc, attempt_getSession]
  refine bind_congr fun found => ?_
  cases found with
  | some session => exact hreceive
  | none => rfl

/-- So the checks can always go on, and end in a value. -/
theorem sure_check (f : Frame) : f.check.Sure := by
  have hlookup {k : Option SessionData → ServerM Checked} (mark : SessionData → List Event)
      (hk : ∀ found, (k found).Sure) : (getSession f.conn f.id mark >>= k).Sure := by
    rw [getSession_eq]
    intro w
    dsimp only
    cases w.state.cache f.id with
    | some session => exact hk _
    | none =>
      intro w
      dsimp only
      cases w.row f.id with
      | some full => exact fun w => hk _
      | none => exact hk _
  refine hlookup _ fun found => ?_
  cases found with
  | none => exact trivial
  | some _ =>
    refine hlookup _ fun found => ?_
    cases found with
    | none => exact trivial
    | some session =>
      change ((f.judge session).ask f.conn f.id session).Sure
      cases f.judge session with
      | decided b => exact trivial
      | asks m b =>
        change (recordMsgId f.conn f.id session m >>= fun fresh =>
          if fresh = true then pure b else pure (.rejected .replayed)).Sure
        rw [recordMsgId_eq]
        intro w
        dsimp only
        split <;> exact trivial

/-- A turn on a frame of the session is its checks and what follows them. -/
theorem serve_eq (h : f.Of id) (statics : Statics) :
    serve statics f.draws f.conn f.raw = f.check >>= f.rest statics := by
  unfold serve
  rw [handleFrame_eq h, attempt_check, bind_assoc]
  rfl

end Frame

end KoSta.Server
