import Mathlib.Data.List.Nodup
import KoSta.Lib.System
import KoSta.Server.Tables
import KoSta.Server.World

/-! The calls of the database that read and change messages, statement by statement. -/
namespace KoSta.Server
open Lib Lib.Prog

namespace Database

/-- `UPDATE messages SET … WHERE id = ?`. -/
def modifyMessage (db : Database) (messageId : Int64) (f : MessageRow → MessageRow) : Database :=
  { db with messages := db.messages.map fun m => if m.id == messageId then f m else m }

/-- `SELECT sender_id FROM messages WHERE id = ? AND deleted = 0`. -/
def selectSender (messageId : Int64) : Statement (Option Int64) := fun db =>
  (.ok ((db.messages.find? fun m => m.id == messageId && !m.deleted).map MessageRow.senderId), db)

def updateText (text : String) (editedAt messageId : Int64) : Statement Unit := fun db =>
  (.ok (), db.modifyMessage messageId fun m => { m with text, editedAt := some editedAt })

def updateDeleted (messageId : Int64) : Statement Unit := fun db =>
  (.ok (), db.modifyMessage messageId fun m => { m with deleted := true })

def markMessageRead (messageId : Int64) : Statement Unit := fun db =>
  (.ok (), db.modifyMessage messageId fun m => { m with readStatus := true })

/-- The primary key of `messages`, and the sequence it is drawn from. -/
structure Keyed (db : Database) : Prop where
  ids : (db.messages.map MessageRow.id).Nodup
  below : ∀ m ∈ db.messages, m.id ≤ db.messageSeq

/-- There is a row with this id, and it has `P`. -/
def Holds (db : Database) (messageId : Int64) (P : MessageRow → Prop) : Prop :=
  (∃ m ∈ db.messages, m.id = messageId) ∧ ∀ m ∈ db.messages, m.id = messageId → P m

namespace Keyed

variable {db : Database} {messageId : Int64} {f : MessageRow → MessageRow}

theorem holds (h : db.Keyed) {m : MessageRow} {P : MessageRow → Prop} (hm : m ∈ db.messages)
    (hid : m.id = messageId) (hP : P m) : db.Holds messageId P := by
  refine ⟨⟨m, hm, hid⟩, fun m' hm' hid' => ?_⟩
  cases List.inj_on_of_nodup_map h.ids hm' hm (hid'.trans hid.symm)
  exact hP

theorem modify (h : db.Keyed) (hf : ∀ m, (f m).id = m.id) :
    (db.modifyMessage messageId f).Keyed := by
  have hid (m : MessageRow) : (if m.id == messageId then f m else m).id = m.id := by
    split
    · exact hf m
    · rfl
  constructor
  · have hids : (db.modifyMessage messageId f).messages.map MessageRow.id =
        db.messages.map MessageRow.id := by
      simp only [modifyMessage, List.map_map]
      exact List.map_congr_left fun m _ => hid m
    exact hids ▸ h.ids
  · intro m hm
    obtain ⟨m₀, hm₀, rfl⟩ := List.mem_map.mp hm
    exact (hid m₀).symm ▸ h.below m₀ hm₀

theorem snoc (h : db.Keyed) {row : MessageRow} (hrow : nextRowid db.messageSeq = some row.id) :
    Keyed { db with messages := db.messages ++ [row], messageSeq := row.id } := by
  have hlt : db.messageSeq < row.id := by
    unfold nextRowid at hrow
    split at hrow
    · cases hrow
    · rename_i hmax
      exact Option.some.inj hrow ▸ lt_add_one_int64 hmax
  constructor
  · simp only [List.map_append, List.map_cons, List.map_nil]
    apply List.nodup_append.mpr
    refine ⟨h.ids, by simp, ?_⟩
    intro id hid _ hrowid heq
    cases List.mem_singleton.mp hrowid
    obtain ⟨m, hm, rfl⟩ := List.mem_map.mp hid
    have hle := h.below m hm
    rw [heq] at hle
    exact Int64.lt_irrefl (Int64.lt_of_lt_of_le hlt hle)
  · intro m hm
    rcases List.mem_append.mp hm with hm | hm
    · exact Int64.le_trans (h.below m hm) (Int64.le_of_lt hlt)
    · cases List.mem_singleton.mp hm
      exact Int64.le_refl _

end Keyed

end Database

namespace Edits

/-! ### The calls -/

/-- What the calls have done. No statement reads it. -/
inductive Entry where
  | checked (conn : ConnId) (messageId : Int64)
  | edited (conn : ConnId) (messageId userId : Int64)
  | deleted (conn : ConnId) (messageId : Int64)
  | listed (conn : ConnId) (rows : List MessageRow)

def Entry.conn : Entry → ConnId
  | .checked conn _ | .edited conn _ _ | .deleted conn _ | .listed conn _ => conn

/-- The database together with what the calls have done to it, newest first. -/
structure Store where
  db : Database
  log : List Entry

inductive CallError where
  | sql (e : SqlError)
  | noRows
  | message (text : String)
  deriving DecidableEq, Repr

abbrev CallM (α : Type) := Prog Store CallError α

variable {α : Type}

/-- One statement, with what it is recorded by when it succeeds. -/
def execute (f : Statement α) (entries : α → List Entry) : CallM α := do
  let result ← Prog.atomically fun s =>
    let (result, db) := f s.db
    (result, ⟨db, (match result with | .ok a => entries a | .error _ => []) ++ s.log⟩)
  match result with
  | .ok a => pure a
  | .error e => .fail (.sql e)

/-- The check at the head of an edit and of a deletion. -/
def checkSender (messageId userId : Int64) (entries : List Entry) : CallM Unit := do
  let sender ← execute (Database.selectSender messageId) fun sender =>
    if sender = some userId then entries else []
  match sender with
  | none => .fail .noRows
  | some senderId =>
    if senderId ≠ userId then
      .fail (.message "You are not the sender of this message")
    else
      pure ()

def editMessage (conn : ConnId) (now : Nat) (messageId userId : Int64) (newText : String) :
    CallM Unit := do
  checkSender messageId userId [.checked conn messageId]
  execute (Database.updateText newText (Int64.ofNat now) messageId)
    fun _ => [.edited conn messageId userId]

def deleteMessage (conn : ConnId) (messageId userId : Int64) : CallM Unit := do
  checkSender messageId userId []
  execute (Database.updateDeleted messageId) fun _ => [.deleted conn messageId]

inductive Call where
  | saveMessage (dialogId senderId : Int64) (text : String) (timestamp : Int64)
    (isOutgoing : Bool) (mediaPath mediaType : Option String)
  | editMessage (now : Nat) (messageId userId : Int64) (newText : String)
  | deleteMessage (messageId userId : Int64)
  | markMessageRead (messageId : Int64)
  | markMessageDelivered (messageId : Int64)
  | getHistory (dialogId : Int64) (offset limit : Int32)

/-- What a call executes on its pooled connection; its log has what it returns. -/
def Call.run (conn : ConnId) : Call → CallM Unit
  | .saveMessage dialogId senderId text timestamp isOutgoing mediaPath mediaType => do
    let _ ← execute (Database.saveMessage dialogId senderId text timestamp isOutgoing mediaPath
      mediaType) fun _ => []
  | .editMessage now messageId userId newText => Edits.editMessage conn now messageId userId newText
  | .deleteMessage messageId userId => Edits.deleteMessage conn messageId userId
  | .markMessageRead messageId => execute (Database.markMessageRead messageId) fun _ => []
  | .markMessageDelivered messageId =>
    execute (Database.markMessageDelivered messageId) fun _ => []
  | .getHistory dialogId offset limit => do
    let _ ← execute (Database.getHistory dialogId offset limit) fun rows => [.listed conn rows]

/-- Any call can start on any connection that is free, and the statements of all connections
come in any order; `meets` restricts the statements considered. -/
def callRules (meets : Store → Store → Prop) : PoolRules Store CallError Unit ConnId where
  starts conn p := ∃ call : Call, p = call.run conn
  meets := meets
  env _ _ := False
  crash _ _ := False

/-- An edit of the message that has passed its check and not reached its UPDATE. -/
def Pending (log : List Entry) (conn : ConnId) (messageId : Int64) : Prop :=
  log.find? (fun entry => entry.conn == conn) = some (.checked conn messageId)

/-- The statement is no deletion of a message some edit is pending on. -/
def Undisturbed (s t : Store) : Prop :=
  ∀ conn messageId, t.log = .deleted conn messageId :: s.log →
    ∀ conn', ¬ Pending s.log conn' messageId

open Pool in
/-- A text changes by an edit of its sender only; a message once deleted stays deleted, keeps
its text and is listed no more. -/
structure KeepsTexts (meets : Store → Store → Prop) (db : Database) : Prop where
  edited : ∀ {x y : Pool Store CallError Unit ConnId},
    Reachable (callRules meets) ⟨db, []⟩ x → Step (callRules meets) x y →
    ∀ m ∈ x.state.db.messages, y.state.db.Holds m.id fun m' => m'.text ≠ m.text →
      ∃ conn, y.state.log = .edited conn m.id m.senderId :: x.state.log
  deleted : ∀ {x y : Pool Store CallError Unit ConnId},
    Reachable (callRules meets) ⟨db, []⟩ x → Relation.ReflTransGen (Step (callRules meets)) x y →
    ∀ m ∈ x.state.db.messages, m.deleted = true →
      (y.state.db.Holds m.id fun m' => m'.deleted = true ∧ m'.text = m.text) ∧
      ∃ later, y.state.log = later ++ x.state.log ∧
        ∀ conn rows, .listed conn rows ∈ later → ∀ r ∈ rows, r.id ≠ m.id

/-! ### What one statement does -/

inductive Phase where
  | idle
  | editing (messageId userId : Int64)
  | deleting (messageId : Int64)

inductive Does (conn : ConnId) : Phase → Store → Store → Phase → Prop where
  | nothing {s : Store} : Does conn .idle s s .idle
  | saves {s : Store} {row : MessageRow} : nextRowid s.db.messageSeq = some row.id →
    Does conn .idle s
      ⟨{ s.db with messages := s.db.messages ++ [row], messageSeq := row.id }, s.log⟩ .idle
  | marks {s : Store} {messageId : Int64} {f : MessageRow → MessageRow} :
    (∀ m, (f m).id = m.id ∧ (f m).senderId = m.senderId ∧ (f m).text = m.text ∧
      (f m).deleted = m.deleted) →
    Does conn .idle s ⟨s.db.modifyMessage messageId f, s.log⟩ .idle
  | lists {s : Store} {rows : List MessageRow} :
    (∀ r ∈ rows, r ∈ s.db.messages ∧ r.deleted = false) →
    Does conn .idle s ⟨s.db, .listed conn rows :: s.log⟩ .idle
  | checks {s : Store} {m : MessageRow} : m ∈ s.db.messages → m.deleted = false →
    Does conn .idle s ⟨s.db, .checked conn m.id :: s.log⟩ (.editing m.id m.senderId)
  | edits {s : Store} {messageId userId : Int64} {text : String} {now : Int64} :
    Does conn (.editing messageId userId) s
      ⟨s.db.modifyMessage messageId fun m => { m with text, editedAt := some now },
        .edited conn messageId userId :: s.log⟩ .idle
  | checksDeletion {s : Store} {messageId : Int64} : Does conn .idle s s (.deleting messageId)
  | deletes {s : Store} {messageId : Int64} :
    Does conn (.deleting messageId) s
      ⟨s.db.modifyMessage messageId fun m => { m with deleted := true },
        .deleted conn messageId :: s.log⟩ .idle

variable {conn : ConnId} {ph ph' : Phase} {s t : Store} {m : MessageRow}

theorem obeys_execute {f : Statement α} {entries : α → List Entry}
    {final : Except CallError α → Phase → Prop}
    (hok : ∀ s a db, f s.db = (.ok a, db) →
      ∃ ph', Does conn ph s ⟨db, entries a ++ s.log⟩ ph' ∧ final (.ok a) ph')
    (herror : ∀ s e db, f s.db = (.error e, db) →
      ∃ ph', Does conn ph s ⟨db, s.log⟩ ph' ∧ final (.error (.sql e)) ph') :
    (execute f entries).Obeys (Does conn) final ph := by
  intro s
  dsimp only
  rcases hf : f s.db with ⟨e | a, db⟩
  · exact herror s e db hf
  · exact hok s a db hf

theorem obeys_checkSender {messageId userId : Int64} {entries : List Entry} (armed : Phase)
    (h : ∀ s m, m ∈ s.db.messages → m.deleted = false → m.id = messageId → m.senderId = userId →
      Does conn .idle s ⟨s.db, entries ++ s.log⟩ armed) :
    (checkSender messageId userId entries).Obeys (Does conn)
      (fun r ph' => ph' = if r.isOk then armed else .idle) .idle := by
  refine Obeys.bind (obeys_execute ?_ nofun)
  rintro s _ _ ⟨⟩
  cases hfind : s.db.messages.find? (fun m => m.id == messageId && !m.deleted) with
  | none => exact ⟨.idle, .nothing, rfl⟩
  | some m =>
    have hm := List.find?_some hfind
    simp only [Bool.and_eq_true, beq_iff_eq, Bool.not_eq_true'] at hm
    simp only [Option.map_some, Option.some.injEq]
    by_cases huser : m.senderId = userId
    · refine ⟨armed, ?_⟩
      rw [if_pos huser, if_neg (not_not.mpr huser)]
      exact ⟨h s m (List.mem_of_find?_eq_some hfind) hm.2 hm.1 huser, rfl⟩
    · refine ⟨.idle, ?_⟩
      rw [if_neg huser, if_pos huser]
      exact ⟨.nothing, rfl⟩

theorem mem_page {limit offset : Int32} {rows : List α} {a : α}
    (h : a ∈ Database.page limit offset rows) : a ∈ rows := by
  unfold Database.page at h
  dsimp only at h
  split at h
  · exact List.mem_of_mem_drop h
  · exact List.mem_of_mem_drop (List.mem_of_mem_take h)

theorem saveMessage_cases {dialogId senderId timestamp : Int64} {text : String} {isOutgoing : Bool}
    {mediaPath mediaType : Option String} {db db' : Database} {result : Except SqlError Int64}
    (h : Database.saveMessage dialogId senderId text timestamp isOutgoing mediaPath mediaType db =
      (result, db')) :
    (∃ e, result = .error e ∧ db' = db) ∨ ∃ row : MessageRow, result = .ok row.id ∧
      nextRowid db.messageSeq = some row.id ∧
      db' = { db with messages := db.messages ++ [row], messageSeq := row.id } := by
  unfold Database.saveMessage at h
  split at h
  · cases h
    exact .inl ⟨_, rfl, rfl⟩
  · rename_i id hid
    split at h
    · cases h
      exact .inr ⟨_, rfl, hid, rfl⟩
    · cases h
      exact .inl ⟨_, rfl, rfl⟩

theorem obeys_run (call : Call) :
    (call.run conn).Obeys (Does conn) (fun _ ph' => ph' = .idle) .idle := by
  cases call with
  | saveMessage dialogId senderId text timestamp isOutgoing mediaPath mediaType =>
    refine Obeys.bind (obeys_execute ?_ ?_)
    · intro s id db h
      rcases saveMessage_cases h with ⟨e, he, -⟩ | ⟨row, -, hrow, rfl⟩
      · cases he
      · exact ⟨.idle, .saves hrow, rfl⟩
    · intro s e db h
      rcases saveMessage_cases h with ⟨-, -, rfl⟩ | ⟨row, he, -⟩
      · exact ⟨.idle, .nothing, rfl⟩
      · cases he
  | editMessage now messageId userId newText =>
    refine Obeys.bind ((obeys_checkSender (.editing messageId userId) ?_).mono ?_)
    · rintro s m hm hlive rfl rfl
      exact .checks hm hlive
    · rintro (e | ⟨⟩) ph' rfl
      · rfl
      · refine obeys_execute ?_ nofun
        rintro s _ _ ⟨⟩
        exact ⟨.idle, .edits, rfl⟩
  | deleteMessage messageId userId =>
    refine Obeys.bind ((obeys_checkSender (.deleting messageId) ?_).mono ?_)
    · intro s m hm hlive hid huser
      exact .checksDeletion
    · rintro (e | ⟨⟩) ph' rfl
      · rfl
      · refine obeys_execute ?_ nofun
        rintro s _ _ ⟨⟩
        exact ⟨.idle, .deletes, rfl⟩
  | markMessageRead messageId =>
    unfold Call.run
    refine obeys_execute ?_ ?_
    · rintro s _ _ ⟨⟩
      exact ⟨.idle, .marks fun m => ⟨rfl, rfl, rfl, rfl⟩, rfl⟩
    · nofun
  | markMessageDelivered messageId =>
    unfold Call.run
    refine obeys_execute ?_ ?_
    · rintro s _ _ ⟨⟩
      exact ⟨.idle, .marks (f := fun m => { m with deliveredStatus := true })
        fun m => ⟨rfl, rfl, rfl, rfl⟩, rfl⟩
    · nofun
  | getHistory dialogId offset limit =>
    refine Obeys.bind (obeys_execute ?_ nofun)
    rintro s _ _ ⟨⟩
    refine ⟨.idle, .lists fun r hr => ?_, rfl⟩
    have hmem := (List.mergeSort_perm _ _).mem_iff.mp (mem_page hr)
    simp only [List.mem_filter, Bool.and_eq_true, Bool.not_eq_true'] at hmem
    exact ⟨hmem.1, hmem.2.2⟩

/-! ### What it leaves of the messages -/

theorem Does.keyed (h : Does conn ph s t ph') (hs : s.db.Keyed) : t.db.Keyed := by
  cases h with
  | nothing => exact hs
  | saves hrow => exact hs.snoc hrow
  | marks hf => exact hs.modify fun m => (hf m).1
  | lists hrows => exact hs
  | checks hm hlive => exact hs
  | edits => exact hs.modify fun m => rfl
  | checksDeletion => exact hs
  | deletes => exact hs.modify fun m => rfl

/-- What a statement makes of one message. -/
structure Remains (ph : Phase) (s t : Store) (m m' : MessageRow) : Prop where
  id : m'.id = m.id
  sender : m'.senderId = m.senderId
  kept : m.deleted = true → m'.deleted = true
  deleted : m'.deleted = true → m.deleted = true ∨ ∃ conn, t.log = .deleted conn m.id :: s.log
  edited : m'.text ≠ m.text →
    ∃ conn userId, ph = .editing m.id userId ∧ t.log = .edited conn m.id userId :: s.log

theorem Remains.refl (ph : Phase) (s t : Store) (m : MessageRow) : Remains ph s t m m :=
  ⟨rfl, rfl, fun h => h, .inl, fun h => (h rfl).elim⟩

theorem Does.remains (h : Does conn ph s t ph') (hm : m ∈ s.db.messages) :
    ∃ m' ∈ t.db.messages, Remains ph s t m m' := by
  have hmodified {messageId : Int64} {f : MessageRow → MessageRow} {log : List Entry}
      (hf : m.id = messageId → Remains ph s ⟨s.db.modifyMessage messageId f, log⟩ m (f m)) :
      ∃ m' ∈ (s.db.modifyMessage messageId f).messages,
        Remains ph s ⟨s.db.modifyMessage messageId f, log⟩ m m' := by
    refine ⟨_, List.mem_map_of_mem hm, ?_⟩
    split
    · rename_i hid
      exact hf (beq_iff_eq.mp hid)
    · exact .refl _ _ _ m
  cases h with
  | nothing => exact ⟨m, hm, .refl _ _ _ m⟩
  | saves hrow => exact ⟨m, List.mem_append_left _ hm, .refl _ _ _ m⟩
  | marks hf =>
    obtain ⟨hid, hsender, htext, hdeleted⟩ := hf m
    exact hmodified fun _ => ⟨hid, hsender, hdeleted.trans, fun h => .inl (hdeleted.symm.trans h),
      fun h => (h htext).elim⟩
  | lists hrows => exact ⟨m, hm, .refl _ _ _ m⟩
  | checks hmem hlive => exact ⟨m, hm, .refl _ _ _ m⟩
  | edits =>
    refine hmodified fun hid => ⟨rfl, rfl, fun h => h, .inl, fun _ => ?_⟩
    subst hid
    exact ⟨conn, _, rfl, rfl⟩
  | checksDeletion => exact ⟨m, hm, .refl _ _ _ m⟩
  | deletes =>
    refine hmodified fun hid => ⟨rfl, rfl, fun _ => rfl, fun _ => ?_, fun h => (h rfl).elim⟩
    subst hid
    exact .inr ⟨conn, rfl⟩

/-! ### Runs -/

variable {meets : Store → Store → Prop} {phs : ConnId → Phase}

/-- An edit that has passed its check is pending on a message of its user, and, where no deletion
disturbs it, one that is not deleted. -/
structure Inv (meets : Store → Store → Prop) (phs : ConnId → Phase) (s : Store) : Prop where
  keyed : s.db.Keyed
  pending : ∀ {conn messageId userId}, phs conn = .editing messageId userId →
    Pending s.log conn messageId ∧ s.db.Holds messageId fun m => m.senderId = userId ∧
      ((∀ s t, meets s t → Undisturbed s t) → m.deleted = false)

theorem Does.logged (h : Does conn ph s t ph') :
    t.log = s.log ∨ ∃ entry, entry.conn = conn ∧ t.log = entry :: s.log := by
  cases h with
  | nothing => exact .inl rfl
  | saves hrow => exact .inl rfl
  | marks hf => exact .inl rfl
  | lists hrows => exact .inr ⟨_, rfl, rfl⟩
  | checks hm hlive => exact .inr ⟨_, rfl, rfl⟩
  | edits => exact .inr ⟨_, rfl, rfl⟩
  | checksDeletion => exact .inl rfl
  | deletes => exact .inr ⟨_, rfl, rfl⟩

/-- Nothing another connection does settles a pending edit. -/
theorem Does.pending (h : Does conn ph s t ph') {conn' : ConnId} {messageId : Int64}
    (hne : conn' ≠ conn) (hpending : Pending s.log conn' messageId) :
    Pending t.log conn' messageId := by
  unfold Pending at *
  rcases h.logged with hlog | ⟨entry, rfl, hlog⟩
  · exact hlog ▸ hpending
  · rw [hlog, List.find?_cons_of_neg (by simpa using hne.symm)]
    exact hpending

theorem Inv.does (h : Inv meets phs s) (hdoes : Does conn (phs conn) s t ph')
    (hmeets : meets s t) : Inv meets (Function.update phs conn ph') t := by
  refine ⟨hdoes.keyed h.keyed, fun {conn' messageId userId} hph => ?_⟩
  by_cases hconn : conn' = conn
  · subst hconn
    rw [Function.update_self] at hph
    subst hph
    generalize phs conn' = ph at hdoes
    cases hdoes with
    | checks hm hlive =>
      exact ⟨List.find?_cons_of_pos (by simp [Entry.conn]),
        h.keyed.holds hm rfl ⟨rfl, fun _ => hlive⟩⟩
  · rw [Function.update_of_ne hconn] at hph
    obtain ⟨hpending, ⟨m, hm, rfl⟩, hall⟩ := h.pending hph
    obtain ⟨hsender, hlive⟩ := hall m hm rfl
    obtain ⟨m', hm', hremains⟩ := hdoes.remains hm
    refine ⟨hdoes.pending hconn hpending, ?_⟩
    refine (hdoes.keyed h.keyed).holds hm' hremains.id ⟨hremains.sender.trans hsender, ?_⟩
    intro hstrict
    by_contra hdeleted
    rcases hremains.deleted (Bool.not_eq_false _ ▸ hdeleted) with hbefore | ⟨by', hlog⟩
    · exact Bool.false_ne_true ((hlive hstrict).symm.trans hbefore)
    · exact hstrict s t hmeets by' m.id hlog conn' hpending

theorem verified (meets : Store → Store → Prop) :
    Pool.Verified (callRules meets) Does .idle (Inv meets) where
  starts := by
    rintro conn p ⟨call, rfl⟩
    exact obeys_run call
  move := fun h hdoes hmeets => h.does hdoes hmeets
  env := fun _ henv => henv.elim
  crash := fun _ hcrash => hcrash.elim

section Runs

open Pool Relation

variable {db : Database} {x y : Pool Store CallError Unit ConnId}

theorem inv_reachable (hkeyed : db.Keyed) (hx : Reachable (callRules meets) ⟨db, []⟩ x) :
    ∃ phs, Inv meets phs x.state ∧
      ∀ conn, Fits (Does conn) .idle (x.jobs conn) (phs conn) :=
  holds_reachable (verified meets) ⟨hkeyed, nofun⟩ hx

theorem does_of_step (hfits : ∀ conn, Fits (Does conn) .idle (x.jobs conn) (phs conn))
    (h : Step (callRules meets) x y) :
    y.state = x.state ∨ ∃ conn ph', Does conn (phs conn) x.state y.state ph' := by
  rcases state_step hfits h with hsame | ⟨conn, ph', hdoes⟩ | henv | hcrash
  · exact .inl hsame
  · exact .inr ⟨conn, ph', hdoes⟩
  · exact henv.elim
  · exact hcrash.elim

/-- Whatever the order of the statements, a text changes by an edit of its sender only. -/
theorem edited_by_sender (hkeyed : db.Keyed) (hx : Reachable (callRules meets) ⟨db, []⟩ x)
    (h : Step (callRules meets) x y) (hm : m ∈ x.state.db.messages) :
    y.state.db.Holds m.id fun m' => m'.text ≠ m.text →
      ∃ conn, y.state.log = .edited conn m.id m.senderId :: x.state.log := by
  obtain ⟨phs, hinv, hfits⟩ := inv_reachable hkeyed hx
  rcases does_of_step hfits h with hsame | ⟨conn, ph', hdoes⟩
  · rw [hsame]
    exact hinv.keyed.holds hm rfl fun hne => (hne rfl).elim
  · obtain ⟨m', hm', hremains⟩ := hdoes.remains hm
    refine (hdoes.keyed hinv.keyed).holds hm' hremains.id fun hne => ?_
    obtain ⟨editor, userId, hph, hlog⟩ := hremains.edited hne
    obtain ⟨-, -, hsender⟩ := hinv.pending hph
    cases (hsender m hm rfl).1
    exact ⟨editor, hlog⟩

theorem Does.listed (h : Does conn ph s t ph') {lister : ConnId} {rows : List MessageRow}
    (hlog : t.log = .listed lister rows :: s.log) :
    ∀ r ∈ rows, r ∈ s.db.messages ∧ r.deleted = false := by
  cases h with
  | lists hrows =>
    cases hlog
    exact hrows
  | nothing => exact (List.cons_ne_self _ _ hlog.symm).elim
  | saves hrow => exact (List.cons_ne_self _ _ hlog.symm).elim
  | marks hf => exact (List.cons_ne_self _ _ hlog.symm).elim
  | checks hm hlive => cases hlog
  | edits => cases hlog
  | checksDeletion => exact (List.cons_ne_self _ _ hlog.symm).elim
  | deletes => cases hlog

/-- A deleted message after one more statement. -/
theorem deleted_step (hkeyed : db.Keyed) (hx : Reachable (callRules meets) ⟨db, []⟩ x)
    (h : Step (callRules meets) x y) (hm : m ∈ x.state.db.messages) (hdeleted : m.deleted = true) :
    (∃ m' ∈ y.state.db.messages, m'.id = m.id ∧ m'.deleted = true ∧
      ((∀ s t, meets s t → Undisturbed s t) → m'.text = m.text)) ∧
    ∃ later, y.state.log = later ++ x.state.log ∧
      ∀ conn rows, .listed conn rows ∈ later → ∀ r ∈ rows, r.id ≠ m.id := by
  obtain ⟨phs, hinv, hfits⟩ := inv_reachable hkeyed hx
  rcases does_of_step hfits h with hsame | ⟨conn, ph', hdoes⟩
  · rw [hsame]
    exact ⟨⟨m, hm, rfl, hdeleted, fun _ => rfl⟩, [], rfl, nofun⟩
  · obtain ⟨m', hm', hremains⟩ := hdoes.remains hm
    constructor
    · refine ⟨m', hm', hremains.id, hremains.kept hdeleted, fun hstrict => ?_⟩
      by_contra hne
      obtain ⟨editor, userId, hph, -⟩ := hremains.edited hne
      obtain ⟨-, -, hlive⟩ := hinv.pending hph
      exact Bool.false_ne_true (((hlive m hm rfl).2 hstrict).symm.trans hdeleted)
    · rcases hdoes.logged with hlog | ⟨entry, -, hlog⟩
      · exact ⟨[], hlog, nofun⟩
      · refine ⟨[entry], hlog, fun lister rows hlisted r hr hid => ?_⟩
        cases List.mem_singleton.mp hlisted
        obtain ⟨hmem, hlive⟩ := hdoes.listed hlog r hr
        obtain ⟨-, hall⟩ := hinv.keyed.holds (P := fun r => r.deleted = true) hm rfl hdeleted
        exact Bool.false_ne_true (hlive.symm.trans (hall r hmem hid))

/-- Whatever the order of the statements, a deleted message stays deleted and is listed no
more; its text stays where no deletion disturbs an edit. -/
theorem deleted_stays (hkeyed : db.Keyed) (hx : Reachable (callRules meets) ⟨db, []⟩ x)
    (h : ReflTransGen (Step (callRules meets)) x y) (hm : m ∈ x.state.db.messages)
    (hdeleted : m.deleted = true) :
    (∃ m' ∈ y.state.db.messages, m'.id = m.id ∧ m'.deleted = true ∧
      ((∀ s t, meets s t → Undisturbed s t) → m'.text = m.text)) ∧
    ∃ later, y.state.log = later ++ x.state.log ∧
      ∀ conn rows, .listed conn rows ∈ later → ∀ r ∈ rows, r.id ≠ m.id := by
  induction h with
  | refl => exact ⟨⟨m, hm, rfl, hdeleted, fun _ => rfl⟩, [], rfl, nofun⟩
  | tail hsteps hstep ih =>
    obtain ⟨⟨m₁, hm₁, hid₁, hdeleted₁, htext₁⟩, later, hlog, hlater⟩ := ih
    obtain ⟨⟨m₂, hm₂, hid₂, hdeleted₂, htext₂⟩, more, hmore, hlisted⟩ :=
      deleted_step hkeyed (hx.trans hsteps) hstep hm₁ hdeleted₁
    refine ⟨⟨m₂, hm₂, hid₂.trans hid₁, hdeleted₂, fun hstrict =>
      (htext₂ hstrict).trans (htext₁ hstrict)⟩, more ++ later, ?_, ?_⟩
    · rw [hmore, hlog, List.append_assoc]
    · intro conn rows hentry
      rcases List.mem_append.mp hentry with hentry | hentry
      · exact hid₁ ▸ hlisted conn rows hentry
      · exact hlater conn rows hentry

/-- Where no message is deleted under a pending edit, texts are kept. -/
theorem keepsTexts_undisturbed (hkeyed : db.Keyed) : KeepsTexts Undisturbed db where
  edited := fun hx h _ hm => edited_by_sender hkeyed hx h hm
  deleted := by
    intro x y hx h m hm hdeleted
    obtain ⟨⟨m', hm', hid, hdeleted', htext⟩, hlater⟩ := deleted_stays hkeyed hx h hm hdeleted
    obtain ⟨phs, hinv, -⟩ := inv_reachable hkeyed (hx.trans h)
    exact ⟨hinv.keyed.holds hm' hid ⟨hdeleted', htext fun _ _ h => h⟩, hlater⟩

end Runs

/-! ### A deletion between the check of an edit and its UPDATE -/

namespace Sample

/-- One message of the system user. -/
def chat : Database :=
  { Database.init with
    dialogs := [⟨1, 0, ""⟩]
    messages := [⟨1, 1, 0, "first", 0, true, false, false, none, none, none, false⟩]
    messageSeq := 1 }

theorem keyed_chat : chat.Keyed := ⟨by decide, by decide⟩

/-- An edit on the first connection and a deletion on the second. -/
def started : Pool Store CallError Unit ConnId :=
  ⟨⟨chat, []⟩, Function.update (Function.update (fun _ => none)
    0 (some ((Call.editMessage 7 1 0 "second").run 0))) 1 (some ((Call.deleteMessage 1 0).run 1))⟩

/-- Both have checked, and the deletion is through. -/
def deleted : Pool Store CallError Unit ConnId := [0, 1, 1].foldl Pool.advance started

end Sample

theorem keepsTexts_undisturbed_chat :
    Sample.chat.Keyed ∧ KeepsTexts Undisturbed Sample.chat :=
  ⟨Sample.keyed_chat, keepsTexts_undisturbed Sample.keyed_chat⟩

theorem not_keepsTexts : ¬ ∀ db : Database, db.Keyed → KeepsTexts (fun _ _ => True) db := by
  intro h
  have hkeeps := h Sample.chat Sample.keyed_chat
  have hedit : (callRules fun _ _ => True).starts 0 ((Call.editMessage 7 1 0 "second").run 0) :=
    ⟨_, rfl⟩
  have hdelete : (callRules fun _ _ => True).starts 1 ((Call.deleteMessage 1 0).run 1) := ⟨_, rfl⟩
  have hstarted : Pool.Reachable (callRules fun _ _ => True) ⟨Sample.chat, []⟩ Sample.started :=
    (Pool.Reachable.init.step (.start rfl hedit)).step (.start rfl hdelete)
  have hdeleted := Pool.reachable_advance hstarted (fun _ _ => trivial) [0, 1, 1]
  have hedited : Relation.ReflTransGen (Pool.Step (callRules fun _ _ => True)) Sample.deleted
      (Pool.advance Sample.deleted 0) := Pool.steps_advance (fun _ _ => trivial) [0] _
  obtain ⟨⟨-, hall⟩, -⟩ := hkeeps.deleted hdeleted hedited _ List.mem_cons_self rfl
  have hkept := hall _ List.mem_cons_self rfl
  exact absurd hkept.2 (by decide)

end Edits

end KoSta.Server
