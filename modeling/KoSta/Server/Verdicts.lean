import KoSta.Lib.Desk
import KoSta.Server.Works

/-! The checks as a function of the session, and a session as a desk for its frames. -/
namespace KoSta.Server
open Lib Lib.Prog Tl Crypto Function

/-! ### The checks as a function of the session -/

namespace Judged

/-- Whether the frame is refused or accepted once the replay check lets it pass, if it comes to
that. -/
def verdict : Judged → Option Bool
  | .decided _ => none
  | .asks _ b => some b.passed

def admission : Judged → Option Admission
  | .asks _ (.admitted a) => some a
  | _ => none

end Judged

namespace Frame

variable [Platform]

def verdict (f : Frame) (session : SessionData) : Option Bool := (f.judge session).verdict

def admission (f : Frame) (session : SessionData) : Option Admission := (f.judge session).admission

/-- The identifier in the frame, under these keys of the client. -/
def msgId (f : Frame) (keys : AesKey × MacKey) : Int64 :=
  match decryptAndVerify keys.1 keys.2 (frameNonce f.raw) (frameCiphertext f.raw)
    (frameTag f.raw) with
  | .error _ => 0
  | .ok plaintext =>
    match readHeader.run plaintext with
    | .ok (msgId, _) _ => msgId
    | _ => 0

end Frame

/-- The client's keys of a session. -/
def SessionData.keys (session : SessionData) : AesKey × MacKey :=
  (session.crypto.clientWriteKey, session.crypto.clientMacKey)

/-- The session as the frame leaves it in the cache when it is accepted. -/
def Admission.accepted (a : Admission) : SessionData := a.session.accept a.crypto a.seqNo a.msgId

namespace Frame

variable [Platform] {f : Frame} {session session' : SessionData} {m : Int64} {b : Checked}

theorem judgeNumbers_admitted {crypto : SessionCrypto} {seqNo : Int32} {tlData : Bytes}
    {a : Admission} (h : f.judgeNumbers session crypto m seqNo tlData = .admitted a) :
    a = ⟨session, crypto, m, seqNo, tlData⟩ := by
  unfold judgeNumbers at h
  split at h
  · cases h
  · split at h
    · cases h
    · split at h
      · cases h
      · split at h
        · cases h
        · cases h
          rfl

theorem judgeNumbers_ne_unknown (session : SessionData) (crypto : SessionCrypto) (m : Int64)
    (seqNo : Int32) (tlData : Bytes) :
    f.judgeNumbers session crypto m seqNo tlData ≠ .unknown := by
  unfold judgeNumbers
  split
  · nofun
  · split
    · nofun
    · split
      · nofun
      · split <;> nofun

theorem judgeMessage_cases (f : Frame) (session : SessionData) (crypto : SessionCrypto)
    (plaintext : Bytes) :
    (∃ b, f.judgeMessage session crypto plaintext = .decided b ∧ b.passed = false ∧ b ≠ .unknown) ∨
    ∃ m seqNo tlData, readHeader.run plaintext = .ok (m, seqNo) tlData ∧
      session.lastRecvMsgId < m ∧
      f.judgeMessage session crypto plaintext =
        .asks m (f.judgeNumbers session crypto m seqNo tlData) := by
  unfold judgeMessage
  cases hread : readHeader.run plaintext with
  | err e => exact Or.inl ⟨_, rfl, rfl, nofun⟩
  | panic => exact Or.inl ⟨_, rfl, rfl, nofun⟩
  | ok header tlData =>
    obtain ⟨m, seqNo⟩ := header
    by_cases hold : m ≤ session.lastRecvMsgId
    · exact Or.inl ⟨_, if_pos hold, rfl, nofun⟩
    · exact Or.inr ⟨m, seqNo, tlData, rfl, Int64.not_le.mp hold, if_neg hold⟩

/-- What decides about a frame: how it opens under the session's keys, and the session's numbers. -/
theorem judge_cases (f : Frame) (session : SessionData) :
    (∃ b, f.judge session = .decided b ∧ b.passed = false ∧ b ≠ .unknown) ∨
    ∃ recvCounter seqNo tlData, session.lastRecvMsgId < f.msgId session.keys ∧
      f.judge session = .asks (f.msgId session.keys)
        (f.judgeNumbers session { session.crypto with recvCounter } (f.msgId session.keys) seqNo
          tlData) := by
  unfold judge
  by_cases hlen : f.raw.length < minFrame
  · exact Or.inl ⟨_, if_pos hlen, rfl, nofun⟩
  · rw [if_neg hlen]
    rcases decryptWith_cases session.crypto.clientWriteKey
      session.crypto.clientMacKey session.crypto
      (frameNonce f.raw) (frameCiphertext f.raw) (frameTag f.raw) with
      ⟨-, heq⟩ | ⟨-, -, heq⟩ | ⟨recvCounter, htag, -, heq⟩ <;>
      change session.crypto.decryptIncomingServer _ _ _ = _ at heq <;> rw [heq]
    · exact Or.inl ⟨.rejected .badMac, rfl, rfl, nofun⟩
    · exact Or.inl ⟨.ended .panic, rfl, rfl, nofun⟩
    · have hopen : decryptAndVerify session.keys.1 session.keys.2 (frameNonce f.raw)
          (frameCiphertext f.raw) (frameTag f.raw) =
          .ok (ctrDecrypt session.crypto.clientWriteKey (frameNonce f.raw)
            (frameCiphertext f.raw)) := by
        unfold decryptAndVerify
        exact if_pos htag
      rcases judgeMessage_cases f session { session.crypto with recvCounter }
        (ctrDecrypt session.crypto.clientWriteKey (frameNonce f.raw) (frameCiphertext f.raw)) with
        hover | ⟨m, seqNo, tlData, hread, hlast, hasks⟩
      · exact Or.inl hover
      · have hid : f.msgId session.keys = m := by
          unfold msgId
          rw [hopen]
          dsimp only
          rw [hread]
        rw [hid]
        exact Or.inr ⟨recvCounter, seqNo, tlData, hlast, hasks⟩

theorem passed_judgeNumbers (h : session.recvSeqNo = session'.recvSeqNo)
    (crypto crypto' : SessionCrypto) (m : Int64) (seqNo : Int32) (tlData : Bytes) :
    (f.judgeNumbers session crypto m seqNo tlData).passed =
      (f.judgeNumbers session' crypto' m seqNo tlData).passed := by
  unfold judgeNumbers
  rw [h]
  cases succI32 session'.recvSeqNo with
  | none => rfl
  | some expected =>
    dsimp only
    split
    · rfl
    · cases clockDiff m f.draws.now with
      | none => rfl
      | some diff =>
        dsimp only
        split <;> rfl

/-- Sessions that give the checks the same to go by are told apart by no verdict. -/
theorem verdict_congr (h : session.criteria = session'.criteria) :
    f.verdict session = f.verdict session' := by
  obtain ⟨hinbound, hseq, hlast⟩ := Criteria.mk.inj h
  obtain ⟨hwrite, hinbound⟩ := Prod.mk.inj hinbound
  obtain ⟨hmac, hcounter⟩ := Prod.mk.inj hinbound
  unfold verdict judge SessionCrypto.decryptIncomingServer SessionCrypto.decryptWith
  rw [hwrite, hmac, hcounter]
  by_cases hlen : f.raw.length < minFrame
  · rw [if_pos hlen, if_pos hlen]
  · rw [if_neg hlen, if_neg hlen]
    cases decryptAndVerify session'.crypto.clientWriteKey session'.crypto.clientMacKey
      (frameNonce f.raw) (frameCiphertext f.raw) (frameTag f.raw) with
    | error e => rfl
    | ok plaintext =>
      dsimp only
      cases succU32 session'.crypto.recvCounter with
      | none => rfl
      | some recvCounter =>
        unfold judgeMessage
        dsimp only
        cases readHeader.run plaintext with
        | err e => rfl
        | panic => rfl
        | ok header tlData =>
          dsimp only
          rw [hlast]
          by_cases hold : header.1 ≤ session'.lastRecvMsgId
          · rw [if_pos hold, if_pos hold]
          · rw [if_neg hold, if_neg hold]
            exact congrArg some (passed_judgeNumbers hseq _ _ _ _ _)

theorem verdict_none (h : f.verdict session = none) :
    ∃ b, f.judge session = .decided b ∧ b.passed = false ∧ b ≠ .unknown := by
  rcases judge_cases f session with hover | ⟨_, _, _, _, hasks⟩
  · exact hover
  · unfold verdict at h
    rw [hasks] at h
    cases h

theorem verdict_some {ok : Bool} (h : f.verdict session = some ok) :
    session.lastRecvMsgId < f.msgId session.keys ∧
      ∃ b, f.judge session = .asks (f.msgId session.keys) b ∧ b.passed = ok ∧ b ≠ .unknown := by
  unfold verdict at h
  rcases judge_cases f session with ⟨b, hover, -, -⟩ | ⟨_, _, _, hlast, hasks⟩
  · rw [hover] at h
    cases h
  · rw [hasks] at h
    exact ⟨hlast, _, hasks, Option.some.inj h, judgeNumbers_ne_unknown _ _ _ _ _⟩

theorem decided_of_judge {b : Checked} (h : f.judge session = .decided b) :
    f.verdict session = none ∧ b.passed = false ∧ b ≠ .unknown := by
  have hnone : f.verdict session = none := by
    unfold verdict
    rw [h]
    rfl
  obtain ⟨b', hover, hb, hne⟩ := verdict_none hnone
  cases h.symm.trans hover
  exact ⟨hnone, hb, hne⟩

theorem asks_of_judge {m : Int64} {b : Checked} (h : f.judge session = .asks m b) :
    f.verdict session = some b.passed ∧ session.lastRecvMsgId < m ∧ m = f.msgId session.keys ∧
      b ≠ .unknown := by
  have hsome : f.verdict session = some b.passed := by
    unfold verdict
    rw [h]
    rfl
  obtain ⟨hlast, b', hasks, -, hne⟩ := verdict_some hsome
  obtain ⟨hm, rfl⟩ := Judged.asks.inj (h.symm.trans hasks)
  rw [← hm] at hlast
  exact ⟨hsome, hlast, hm, hne⟩

/-- What has been accepted is the clone and the message that the checks have seen. -/
structure Admits (f : Frame) (session : SessionData) (a : Admission) : Prop where
  judged : f.judge session = .asks (f.msgId session.keys) (.admitted a)
  msgId : a.msgId = f.msgId session.keys
  crypto : ∃ recvCounter, a.crypto = { session.crypto with recvCounter }
  clone : a.session = session

theorem admits_of_judge {m : Int64} {a : Admission} (h : f.judge session = .asks m (.admitted a)) :
    f.Admits session a := by
  rcases judge_cases f session with ⟨b, hover, -, -⟩ | ⟨recvCounter, seqNo, tlData, -, hasks⟩
  · rw [hover] at h
    cases h
  · have hnumbers := hasks.symm.trans h
    injection hnumbers with hm hnumbers
    rw [hm] at hnumbers
    obtain rfl := judgeNumbers_admitted hnumbers
    refine ⟨?_, hm.symm, ⟨recvCounter, rfl⟩, rfl⟩
    rw [hm]
    exact h

theorem verdict_true (h : f.verdict session = some true) :
    ∃ a, f.admission session = some a ∧ f.Admits session a := by
  unfold verdict at h
  unfold admission
  cases hjudge : f.judge session with
  | decided b =>
    rw [hjudge] at h
    cases h
  | asks m b =>
    rw [hjudge] at h
    cases b with
    | admitted a => exact ⟨a, rfl, admits_of_judge hjudge⟩
    | unknown => cases h
    | ended e => cases h
    | rejected reason => cases h

/-! ### What an accepted frame does -/

variable (statics : Statics) (f) (a : Admission)

/-- From the request to the response. -/
def attend : ServerM Unit := do
  let result ← (dispatch statics f.draws f.conn (some ⟨f.id, a.msgId, a.crypto⟩) a.tlData).attempt
  record (.finished f.conn result)

/-- The session is put back, and the request is handled. -/
def putBack : ServerM Unit :=
  .atomic (fun w => w.putEntry f.id a.accepted
    [.accepted f.conn f.id a.msgId, .put f.conn f.id a.accepted]) fun _ => f.attend statics a

/-- The statements that come before that. -/
theorem rest_admitted : f.rest statics (.admitted a) =
    .atomic (fun w => w.modifyRow f.id fun row =>
        { row with recvSeqNo := a.seqNo, lastMsgId := a.msgId }) fun _ =>
      .atomic (fun w => w.modifyRow f.id fun row =>
          { row with
            sendCounter := a.crypto.sendCounter
            recvCounter := a.crypto.recvCounter }) fun _ =>
        .atomic (fun w => w.save (a.accepted.toRow f.id) []) fun _ => f.putBack statics a := by
  have hmodify {β : Type} (stmt : Statement Unit) {g : FullSession → FullSession}
      (hstmt : ∀ db, stmt db = (.ok (), db.modifySession f.id g)) (k : Unit → ServerM β) :
      (sql stmt >>= k) = .atomic (fun w => w.modifyRow f.id g) fun _ => k () := by
    obtain rfl : stmt = fun db => (.ok (), db.modifySession f.id g) := funext hstmt
    rfl
  have hcommit (k : Unit → ServerM Verdict) :
      commitFrame f.conn f.id a.session a.crypto a.msgId a.seqNo >>= k =
        sql (Database.updateSessionRecvSeqAndLastMsg f.id a.seqNo a.msgId) >>= fun _ =>
        sql (Database.updateSessionCounters f.id a.crypto.sendCounter a.crypto.recvCounter) >>=
        fun _ => updateSession f.conn f.id a.accepted [] [.accepted f.conn f.id a.msgId] >>= k := by
    unfold commitFrame
    rw [bind_assoc]
    refine bind_congr fun _ => ?_
    rw [bind_assoc]
    rfl
  change (Prog.attempt (commitFrame f.conn f.id a.session a.crypto a.msgId a.seqNo >>= _) >>= _) = _
  rw [hcommit, hmodify (Database.updateSessionRecvSeqAndLastMsg f.id a.seqNo a.msgId) fun _ => rfl,
    hmodify (Database.updateSessionCounters f.id a.crypto.sendCounter a.crypto.recvCounter)
      fun _ => rfl]
  rfl

variable {statics f a} {id : Int64} {set : RecentMsgIds} {w : World}

omit [Platform] in
theorem judges_putBack (h : set < w.state.nextRecent) (events : List Event) :
    Judges id set a.accepted.criteria (w.putEntry id a.accepted events) := by
  refine ⟨h, fun session hs _ => ?_⟩
  have hself : (w.putEntry id a.accepted events).state.cache id = some a.accepted :=
    update_self _ _ _
  rw [hself] at hs
  cases hs
  rfl

theorem steadily_attend :
    Steadily id set a.accepted.criteria (f.attend statics a) fun _ => True := by
  refine Maintains.bind (Q := fun _ => True)
    (Maintains.attempt (steadily_dispatch statics _ _ _ _ ?_))
    fun _ _ => steadily_record _
  rintro _ ⟨⟩ -
  rfl

theorem judges_rest (hid : f.id = id) (h : set < w.state.nextRecent) :
    Judges id set a.accepted.criteria ((f.rest statics (.admitted a)).exec w).2 := by
  subst hid
  rw [rest_admitted]
  have hattend : Steadily f.id set a.accepted.criteria (f.attend statics a) fun _ => True :=
    steadily_attend
  refine (hattend.exec (judges_putBack ?_ _)).1
  exact h

end Frame

/-! ### A session as a desk for its frames -/

section Sessions

variable [Platform] (statics : Statics) (id : Int64) (set : RecentMsgIds) (keys : AesKey × MacKey)

/-- What has to hold of a process for its session to be judged by. -/
def Core.Holds (g : Core) : Prop :=
  ∃ session, g.cache id = some session ∧ session.recentMsgIds = set ∧ session.keys = keys ∧
    set < g.nextRecent

variable {id}

def Core.judge (g : Core) (f : Framed id) : Option Bool := (g.cache id).bind f.verdict

/-- The process after the frame, if it is accepted and handled alone. -/
def Core.after (g : Core) (f : Framed id) : Core :=
  match (g.cache id).bind f.admission with
  | some a => ((f.rest statics (.admitted a)).exec g.world).2.core
  | none => g

variable {statics set keys} {g : Core} {f : Framed id} {session : SessionData}

theorem judge_of_entry (h : g.cache id = some session) : g.judge f = f.verdict session := by
  unfold Core.judge
  rw [h]
  rfl

theorem after_of_entry {a : Admission} (h : g.cache id = some session)
    (ha : f.admission session = some a) :
    g.after statics f = ((f.rest statics (.admitted a)).exec g.world).2.core := by
  unfold Core.after
  rw [h]
  change (match f.admission session with
    | some a => _
    | none => _) = _
  rw [ha]

/-- After an accepted frame the session has its numbers. -/
theorem after_entry (hg : g.Holds id set keys) (hjudge : g.judge f = some true)
    (hafter : (g.after statics f).Holds id set keys) :
    ∃ session a, g.cache id = some session ∧ f.Admits session a ∧
      ∃ session', (g.after statics f).cache id = some session' ∧
        session'.criteria = a.accepted.criteria := by
  obtain ⟨session, hentry, -, -, hnext⟩ := hg
  rw [judge_of_entry hentry] at hjudge
  obtain ⟨a, hadmission, hpasses⟩ := Frame.verdict_true hjudge
  obtain ⟨session', hentry', hset', -, -⟩ := hafter
  refine ⟨session, a, hentry, hpasses, session', hentry', ?_⟩
  rw [after_of_entry hentry hadmission] at hentry'
  exact (Frame.judges_rest f.of.names hnext).entry session' hentry' hset'

variable (statics id set keys)

def desk : Desk (Framed id) Core Int64 where
  judge f g := g.judge f
  note f := f.msgId keys
  grant f g := g.after statics f
  sound g := g.Holds id set keys
  closes := by
    intro s t g hg hjudge hafter hnote
    obtain ⟨session, a, hentry, hpasses, session', hentry', hcriteria⟩ :=
      after_entry hg hjudge hafter
    obtain ⟨held, hheld, -, hkeys, -⟩ := hg
    obtain rfl := Option.some.inj (hentry.symm.trans hheld)
    obtain ⟨held', hheld', -, hkeys', -⟩ := hafter
    obtain rfl := Option.some.inj (hentry'.symm.trans hheld')
    have hlast : session'.lastRecvMsgId = t.msgId keys := by
      rw [← hkeys, ← hpasses.msgId]
      exact congrArg Criteria.lastRecvMsgId hcriteria
    cases hagain : (g.after statics t).judge s with
    | none => rfl
    | some ok =>
      rw [judge_of_entry hentry'] at hagain
      have hlt := (Frame.verdict_some hagain).1
      rw [hkeys', hlast, hnote] at hlt
      exact absurd rfl (Int64.ne_of_lt hlt)

@[simp] theorem note_desk (f : Framed id) : (desk statics id set keys).note f = f.msgId keys := by
  simp only [desk]

end Sessions

end KoSta.Server
