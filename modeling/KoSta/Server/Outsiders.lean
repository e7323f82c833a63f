import KoSta.Server.Effects

/-! What a frame can change that is accepted under no session. -/
namespace KoSta.Server
open Lib Lib.Prog Tl Crypto Function

variable {α β : Type} {w : World}

/-- What a frame that is not accepted makes of the tables. -/
inductive Intrusion (raw : Bytes) (db : Database) : Database → Prop where
  | nothing : Intrusion raw db db
  | user {req : SignUp} {rest : Bytes} (id : Int64) (hash : String) :
    TlObject.readBoxed.run raw = .ok (.signUp req) rest →
    Intrusion raw db { db with users := db.users ++ [⟨id, req.phone, hash⟩] }
  | session {req : SetClientDHParams} {rest : Bytes} (row : FullSession) :
    TlObject.readBoxed.run raw = .ok (.setClientDHParams req) rest →
    Intrusion raw db { db with sessions := update db.sessions row.authKeyId (some row) }

/-! ### Checks before the first write -/

/-- Only a run with a good result writes a table. -/
def KeepsUnless (good : α → Prop) (p : ServerM α) : Prop :=
  ∀ w, (p.exec w).2.state.db = w.state.db ∨ ∃ a, (p.exec w).1 = .ok a ∧ good a

namespace KeepsUnless

variable {good : β → Prop}

theorem of_keeps {p : ServerM β} (h : KeepsTables p) : KeepsUnless good p := fun w =>
  Or.inl (h.exec w)

theorem bind {p : ServerM α} {k : α → ServerM β} (hp : KeepsTables p)
    (hk : ∀ a, KeepsUnless good (k a)) : KeepsUnless good (p >>= k) := by
  intro w
  rw [exec_bind]
  have hdb := hp.exec w
  cases hexec : p.exec w with
  | mk result w' =>
    rw [hexec] at hdb
    cases result with
    | error e => exact Or.inl hdb
    | ok a =>
      rcases hk a w' with hsame | hgood
      · exact Or.inl (hsame.trans hdb)
      · exact Or.inr hgood

theorem ite {c : Prop} [Decidable c] {p q : ServerM β} (hp : KeepsUnless good p)
    (hq : KeepsUnless good q) : KeepsUnless good (if c then p else q) := by
  split
  · exact hp
  · exact hq

end KeepsUnless

theorem keeps_readFrom (r : Reader Tl.Error α) (bytes : Bytes) :
    KeepsTables (readFrom r bytes) := by
  unfold readFrom
  cases r.run bytes <;> trivial

theorem keeps_orPanic (x : Option α) : KeepsTables (orPanic x) := by
  cases x <;> trivial

theorem keeps_recordMsgId (conn : ConnId) (id : Int64) (session : SessionData) (msgId : Int64) :
    KeepsTables (recordMsgId conn id session msgId) := by
  apply keeps_locked
  intro s
  dsimp only
  split <;> rfl

theorem keeps_transportSend (conn : ConnId) (data : Bytes) (events : List Event) :
    KeepsTables (transportSend conn data events) := by
  unfold transportSend
  split
  · exact keeps_locked fun _ => rfl
  · trivial

theorem keeps_addressedSession (conn : ConnId) (raw : Bytes) :
    KeepsTables (addressedSession conn raw) := by
  unfold addressedSession
  refine Always.ite (Always.ite (Always.pure _) ?_) (Always.pure _)
  refine (keeps_getSession _ _ _).bind fun found => ?_
  cases found <;> trivial

section Frames

variable [Platform] (statics : Statics)

/-- The frame names a session that the server knows and passes every check. -/
def Frame.Accepted (f : Frame) (w : World) : Prop :=
  ∃ id w₁ accepted w₂, (addressedSession f.conn f.raw).exec w = (.ok (some id), w₁) ∧
    (receiveEncrypted f.draws.now f.conn id f.raw).exec w₁ = (.ok (.ok accepted), w₂)

/-- Nothing is written before the last check has passed. -/
theorem keepsUnless_acceptMessage (now : Nat) (conn : ConnId) (id : Int64) (session : SessionData)
    (crypto : SessionCrypto) (plaintext : Bytes) :
    KeepsUnless (fun result => ∃ accepted, result = .ok accepted)
      (acceptMessage now conn id session crypto plaintext) := by
  refine KeepsUnless.bind (keeps_readFrom _ _) fun header => ?_
  obtain ⟨⟨msgId, seqNo⟩, tlData⟩ := header
  refine KeepsUnless.ite (KeepsUnless.of_keeps (Always.pure _)) ?_
  refine KeepsUnless.bind (keeps_recordMsgId _ _ _ _) fun fresh => ?_
  refine KeepsUnless.ite (KeepsUnless.of_keeps (Always.pure _)) ?_
  refine KeepsUnless.bind (keeps_orPanic _) fun expected => ?_
  refine KeepsUnless.ite (KeepsUnless.of_keeps (Always.pure _)) ?_
  refine KeepsUnless.bind (keeps_orPanic _) fun diff => ?_
  refine KeepsUnless.ite (KeepsUnless.of_keeps (Always.pure _)) ?_
  intro w
  exact Or.inr ⟨_, rfl, _, rfl⟩

theorem keepsUnless_receiveEncrypted (now : Nat) (conn : ConnId) (id : Int64) (raw : Bytes) :
    KeepsUnless (fun result => ∃ accepted, result = .ok accepted)
      (receiveEncrypted now conn id raw) := by
  refine KeepsUnless.bind (keeps_getSession _ _ _) fun session => ?_
  cases session with
  | none => exact KeepsUnless.of_keeps (Always.fail _)
  | some session =>
    refine KeepsUnless.ite (KeepsUnless.of_keeps (Always.pure _)) ?_
    split
    · exact KeepsUnless.of_keeps (Always.fail _)
    · exact KeepsUnless.of_keeps (Always.pure _)
    · exact keepsUnless_acceptMessage now conn id session _ _

/-! ### Requests without a session -/

theorem intrusion_signUp {raw rest : Bytes} {req : SignUp} (draws : Draws) (conn : ConnId)
    (hraw : TlObject.readBoxed.run raw = .ok (.signUp req) rest) (w : World) :
    Intrusion raw w.state.db ((handleSignUp draws conn none req).exec w).2.state.db := by
  have hdb : ((handleSignUp draws conn none req).exec w).2.state.db =
      (Database.insertUser req.phone (bcryptHash draws.salt req.password) w.state.db).2 :=
    db_sql_bind _ (fun _ => Always.pure _) w
  rw [hdb]
  unfold Database.insertUser
  split
  · exact Intrusion.nothing
  · split
    · exact Intrusion.user _ _ hraw
    · exact Intrusion.nothing

theorem intrusion_setClientDhParams {raw rest : Bytes} {req : SetClientDHParams} (draws : Draws)
    (conn : ConnId) (hraw : TlObject.readBoxed.run raw = .ok (.setClientDHParams req) rest)
    (w : World) :
    Intrusion raw w.state.db
      ((handleSetClientDhParams statics draws conn req).exec w).2.state.db := by
  rcases handleSetClientDhParams_cases statics draws conn req w with
    ⟨e, heq⟩ | ⟨entry, inner, -, -, heq⟩
  · rw [heq]
    exact Intrusion.nothing
  · rw [heq, World.create_db]
    generalize newSession _ _ _ _ = session
    generalize computeAuthKeyId _ = id
    exact Intrusion.session ((session w.state.nextRecent).toRow id) hraw

theorem intrusion_dispatch (draws : FrameDraws) (conn : ConnId) (raw : Bytes) (w : World) :
    Intrusion raw w.state.db ((dispatch statics draws conn none raw).exec w).2.state.db := by
  unfold dispatch
  cases hraw : TlObject.readBoxed.run raw with
  | err e => exact Intrusion.nothing
  | panic => exact Intrusion.nothing
  | ok obj rest =>
    let w' := w.log [.dispatched conn none obj]
    have hhandled {k : Option Bytes → ServerM Verdict} (hk : ∀ reply, KeepsTables (k reply)) :
        Intrusion raw w.state.db
          ((handleRequest statics draws.handler conn obj none >>= k).exec w').2.state.db := by
      rw [db_exec_bind _ hk]
      rcases db_handleRequest statics draws.handler conn none obj w' with
        ⟨req, rfl⟩ | ⟨req, rfl⟩ | hsame
      · exact intrusion_signUp draws.handler conn hraw w'
      · exact intrusion_setClientDhParams statics draws.handler conn hraw w'
      · rw [hsame]
        exact Intrusion.nothing
    apply hhandled
    intro reply
    cases reply with
    | none => exact Always.pure _
    | some data => exact (keeps_transportSend _ _ _).bind fun _ => Always.pure _

/-! ### Frames that are not accepted -/

theorem intrusion_handleFrame {f : Frame} (h : ¬ f.Accepted w) :
    Intrusion f.raw w.state.db
      ((handleFrame statics f.draws f.conn f.raw).exec w).2.state.db := by
  unfold handleFrame
  rw [exec_bind]
  have hfound := (keeps_addressedSession f.conn f.raw).exec w
  cases haddress : (addressedSession f.conn f.raw).exec w with
  | mk result w₁ =>
    rw [haddress] at hfound
    rw [← hfound]
    cases result with
    | error e => exact Intrusion.nothing
    | ok address =>
      cases address with
      | none => exact intrusion_dispatch statics f.draws f.conn f.raw w₁
      | some id =>
        dsimp only
        rw [exec_bind]
        have hreceive := keepsUnless_receiveEncrypted f.draws.now f.conn id f.raw w₁
        cases hexec : (receiveEncrypted f.draws.now f.conn id f.raw).exec w₁ with
        | mk result w₂ =>
          rw [hexec] at hreceive
          rcases hreceive with hsame | ⟨_, hok, accepted, rfl⟩
          · rw [← hsame]
            cases result with
            | error e => exact Intrusion.nothing
            | ok verdict =>
              cases verdict with
              | error reason => exact Intrusion.nothing
              | ok accepted => exact absurd ⟨id, w₁, accepted, w₂, haddress, hexec⟩ h
          · cases hok
            exact absurd ⟨id, w₁, accepted, w₂, haddress, hexec⟩ h

theorem db_serve (f : Frame) (w : World) :
    ((serve statics f.draws f.conn f.raw).exec w).2.state.db =
      ((handleFrame statics f.draws f.conn f.raw).exec w).2.state.db := by
  unfold serve
  rw [exec_bind, exec_attempt]
  rfl

/-- A frame that is accepted under no session leaves messages, dialogs, members and statuses
alone; all it can do is add one user or write one session. -/
theorem unaccepted_effect {f : Frame} {w : World} (h : ¬ f.Accepted w) :
    let db := ((serve statics f.draws f.conn f.raw).exec w).2.state.db
    db.messages = w.state.db.messages ∧ db.dialogs = w.state.db.dialogs ∧
      db.participants = w.state.db.participants ∧ db.statuses = w.state.db.statuses ∧
      w.state.db.users <+: db.users ∧ Intrusion f.raw w.state.db db := by
  intro db
  have heffect := intrusion_handleFrame statics h
  rw [← db_serve] at heffect
  change Intrusion f.raw w.state.db db at heffect
  clear_value db
  cases heffect with
  | nothing => exact ⟨rfl, rfl, rfl, rfl, List.prefix_refl _, Intrusion.nothing⟩
  | user id hash hraw =>
    exact ⟨rfl, rfl, rfl, rfl, List.prefix_append _ _, Intrusion.user id hash hraw⟩
  | session row hraw => exact ⟨rfl, rfl, rfl, rfl, List.prefix_refl _, Intrusion.session row hraw⟩

end Frames

/-- A registration in plain text. -/
theorem unaccepted_effect_signUp : letI := Sample.platform
    let f := Sample.plain (.signUp ⟨"1", "secret"⟩)
    let db := ((serve Sample.statics f.draws f.conn f.raw).exec World.init).2.state.db
    db.users = [⟨0, "system", ""⟩, ⟨1, "1", "secret"⟩] ∧ db.messages = [] ∧ db.dialogs = [] ∧
      db.participants = [] ∧ db.statuses = [] := by
  let _ := Sample.platform
  intro f db
  have haddress : ((addressedSession f.conn f.raw).exec World.init).1 = .ok none := by
    decide +kernel
  have hrefused : ¬ f.Accepted World.init := by
    rintro ⟨id, w₁, accepted, w₂, h, -⟩
    rw [h] at haddress
    cases haddress
  obtain ⟨hmessages, hdialogs, hparticipants, hstatuses, -, -⟩ :=
    unaccepted_effect Sample.statics hrefused
  exact ⟨by decide +kernel, hmessages, hdialogs, hparticipants, hstatuses⟩

end KoSta.Server
