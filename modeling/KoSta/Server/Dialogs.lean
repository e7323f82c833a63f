import KoSta.Server.Runs

/-! Creating a dialog: the statements one after the other, and what a failed one leaves behind. -/
namespace KoSta.Server
open Lib Lib.Prog Tl

variable {α β : Type} {w : World} {db : Database}

/-! ### Statements that run alone -/

def World.withDb (w : World) (db : Database) : World := ⟨{ w.state with db }, w.trace⟩

@[simp] theorem withDb_db (w : World) (db : Database) : (w.withDb db).state.db = db := rfl

theorem exec_sql_bind (f : Statement α) (k : α → ServerM β) (w : World) :
    (sql f >>= k).exec w = match f w.state.db with
      | (.ok a, db) => (k a).exec (w.withDb db)
      | (.error e, db) => (.error (.error (.sql e)), w.withDb db) := by
  unfold sql
  rw [bind_assoc, exec_bind, exec_locked]
  dsimp only
  cases h : f w.state.db with
  | mk result db =>
    cases result with
    | ok a => rfl
    | error e => rfl

/-! ### Creation -/

/-- A failed call leaves the dialogs and their participants as they were. -/
def Restores (p : ServerM α) (w : World) : Prop :=
  ∀ e, (p.exec w).1 = .error e → (p.exec w).2.state.db.dialogs = w.state.db.dialogs ∧
    (p.exec w).2.state.db.participants = w.state.db.participants

/-- The two creations differ in the row and in the list of participants only. -/
def insertMembers (type : Int64) (title : String) (users : List Int64) : ServerM Int64 := do
  let dialogId ← sql (Database.insertDialog type title)
  insertParticipants dialogId users
  return dialogId

theorem createPrivateDialog_eq (user1 user2 : Int64) : createPrivateDialog user1 user2 =
    (sql (Database.selectPrivateDialog user1 user2) >>= fun found => match found with
      | some id => pure id
      | none => insertMembers 0 "" [user1, user2]) := by
  unfold createPrivateDialog insertMembers
  refine bind_congr fun found => ?_
  cases found with
  | some id => rfl
  | none =>
    refine bind_congr fun dialogId => ?_
    simp only [insertParticipants, bind_assoc, pure_bind]

/-- The dialogs `selectPrivateDialog` looks for. -/
def Database.Joins (db : Database) (user1 user2 : Int64) (d : DialogRow) : Prop :=
  d ∈ db.dialogs ∧ d.type = 0 ∧ db.hasParticipant d.id user1 = true ∧
    db.hasParticipant d.id user2 = true

theorem mem_dialogsOf {d : DialogRow} {userId : Int64} :
    d ∈ db.dialogsOf userId ↔ d ∈ db.dialogs ∧ db.hasParticipant d.id userId = true := by
  unfold Database.dialogsOf
  rw [List.mem_flatMap, Database.hasParticipant_iff]
  constructor
  · rintro ⟨⟨dialogId, u⟩, hrow, hdialog⟩
    obtain ⟨hp, huser⟩ := List.mem_filter.mp hrow
    obtain ⟨hd, hid⟩ := List.mem_filter.mp hdialog
    cases (beq_iff_eq.mp huser : u = userId)
    cases (beq_iff_eq.mp hid : d.id = dialogId)
    exact ⟨hd, hp⟩
  · rintro ⟨hd, hp⟩
    exact ⟨⟨d.id, userId⟩, List.mem_filter.mpr ⟨hp, beq_self_eq_true userId⟩,
      List.mem_filter.mpr ⟨hd, beq_self_eq_true d.id⟩⟩

theorem selectPrivateDialog_cases (user1 user2 : Int64) (db : Database) :
    (∃ d, db.Joins user1 user2 d ∧
      Database.selectPrivateDialog user1 user2 db = (.ok (some d.id), db)) ∨
    (¬ ∃ d, db.Joins user1 user2 d) ∧
      Database.selectPrivateDialog user1 user2 db = (.ok none, db) := by
  unfold Database.selectPrivateDialog Database.Joins
  cases hfind : (db.dialogsOf user1).find? fun d => d.type == 0 && db.hasParticipant d.id user2 with
  | some d =>
    have hd := List.find?_some hfind
    obtain ⟨hdialog, huser⟩ := mem_dialogsOf.mp (List.mem_of_find?_eq_some hfind)
    simp only [Bool.and_eq_true, beq_iff_eq] at hd
    exact Or.inl ⟨d, ⟨hdialog, hd.1, huser, hd.2⟩, rfl⟩
  | none =>
    refine Or.inr ⟨?_, rfl⟩
    rintro ⟨d, hd, htype, h1, h2⟩
    have hnot := List.find?_eq_none.mp hfind d (mem_dialogsOf.mpr ⟨hd, h1⟩)
    simp [htype, h2] at hnot

/-- With one more participant. -/
def Database.enter (db : Database) (dialogId userId : Int64) : Database :=
  { db with participants := db.participants ++ [⟨dialogId, userId⟩] }

theorem hasParticipant_enter {dialogId userId d u : Int64} :
    (db.enter dialogId userId).hasParticipant d u = true ↔
      db.hasParticipant d u = true ∨ d = dialogId ∧ u = userId := by
  simp [Database.hasParticipant_iff, Database.enter]

/-- An insertion writes one table at most. -/
theorem insertParticipant_cases (dialogId userId : Int64) (db : Database) :
    (∃ e, Database.insertParticipant dialogId userId db = (.error e, db) ∧
      ¬ (db.hasParticipant dialogId userId = false ∧ db.hasDialog dialogId = true ∧
        db.hasUser userId = true)) ∨
    (Database.insertParticipant dialogId userId db = (.ok (), db.enter dialogId userId) ∧
      db.hasParticipant dialogId userId = false ∧ db.hasDialog dialogId = true ∧
        db.hasUser userId = true) := by
  unfold Database.insertParticipant
  by_cases hp : db.hasParticipant dialogId userId = true
  · rw [if_pos hp]
    exact Or.inl ⟨_, rfl, fun h => absurd (hp.symm.trans h.1) nofun⟩
  · rw [if_neg hp]
    have hnot : db.hasParticipant dialogId userId = false := Bool.eq_false_iff.mpr hp
    by_cases he : (db.hasDialog dialogId && db.hasUser userId) = true
    · rw [if_pos he]
      exact Or.inr ⟨rfl, hnot, Bool.and_eq_true_iff.mp he⟩
    · rw [if_neg he]
      exact Or.inl ⟨_, rfl, fun h => he (Bool.and_eq_true_iff.mpr h.2)⟩

theorem insertParticipant_ok {dialogId userId : Int64}
    (hfresh : db.hasParticipant dialogId userId = false) (hdialog : db.hasDialog dialogId = true)
    (huser : db.hasUser userId = true) :
    Database.insertParticipant dialogId userId db = (.ok (), db.enter dialogId userId) := by
  rcases insertParticipant_cases dialogId userId db with ⟨e, -, hnot⟩ | ⟨heq, -⟩
  · exact absurd ⟨hfresh, hdialog, huser⟩ hnot
  · exact heq

theorem dialogs_insertParticipants (dialogId : Int64) (users : List Int64) (w : World) :
    ((insertParticipants dialogId users).exec w).2.state.db.dialogs = w.state.db.dialogs := by
  induction users generalizing w with
  | nil => rfl
  | cons user users ih =>
    rw [insertParticipants, exec_sql_bind]
    rcases insertParticipant_cases dialogId user w.state.db with ⟨e, heq, -⟩ | ⟨heq, -⟩
    · rw [heq]
      rfl
    · rw [heq]
      exact ih _

/-- All goes well exactly if the users exist, none comes twice and none is in the dialog. -/
theorem insertParticipants_ok_iff {dialogId : Int64} (users : List Int64)
    (hdialog : w.state.db.hasDialog dialogId = true) :
    ((insertParticipants dialogId users).exec w).1 = .ok () ↔ users.Nodup ∧
      ∀ u ∈ users, w.state.db.hasUser u = true ∧
        w.state.db.hasParticipant dialogId u = false := by
  induction users generalizing w with
  | nil => exact ⟨fun _ => ⟨List.nodup_nil, nofun⟩, fun _ => rfl⟩
  | cons user users ih =>
    rw [insertParticipants, exec_sql_bind, List.nodup_cons, List.forall_mem_cons]
    rcases insertParticipant_cases dialogId user w.state.db with ⟨e, heq, hnot⟩ |
      ⟨heq, hfresh, -, huser⟩
    · rw [heq]
      refine ⟨nofun, fun h => absurd ⟨h.2.1.2, hdialog, h.2.1.1⟩ hnot⟩
    · rw [heq]
      have hgrown (u : Int64) : (w.state.db.enter dialogId user).hasParticipant dialogId u =
          false ↔ w.state.db.hasParticipant dialogId u = false ∧ u ≠ user := by
        simp [← Bool.not_eq_true, hasParticipant_enter]
      dsimp only
      rw [ih (w := w.withDb (w.state.db.enter dialogId user)) hdialog]
      simp only [withDb_db, hgrown]
      constructor
      · rintro ⟨hnodup, hall⟩
        refine ⟨⟨fun hmem => (hall user hmem).2.2 rfl, hnodup⟩, ⟨huser, hfresh⟩, fun u hu => ?_⟩
        exact ⟨(hall u hu).1, (hall u hu).2.1⟩
      · rintro ⟨⟨hnotin, hnodup⟩, -, hall⟩
        refine ⟨hnodup, fun u hu => ⟨(hall u hu).1, (hall u hu).2, ?_⟩⟩
        rintro rfl
        exact hnotin hu

/-- A new row id is in no pair. -/
theorem Database.Sound.fresh (h : db.Sound) {id : Int64}
    (hid : nextRowid (largestRowid (db.dialogs.map DialogRow.id)) = some id) (userId : Int64) :
    db.hasParticipant id userId = false := by
  refine Bool.eq_false_iff.mpr fun hp => not_mem_of_nextRowid hid ?_
  exact Database.hasDialog_iff.mp (h.dialog _ (Database.hasParticipant_iff.mp hp))

/-- The row is there before the first participant is looked at, and it stays. -/
theorem restores_insertMembers_iff (h : w.state.db.Sound) (type : Int64) (title : String)
    (users : List Int64) : Restores (insertMembers type title users) w ↔
      w.state.db.NoRowid ∨ users.Nodup ∧ ∀ u ∈ users, w.state.db.hasUser u = true := by
  unfold Restores insertMembers Database.NoRowid
  rw [exec_sql_bind, Database.insertDialog]
  cases hid : nextRowid (largestRowid (w.state.db.dialogs.map DialogRow.id)) with
  | none => exact ⟨fun _ => Or.inl rfl, fun _ _ _ => ⟨rfl, rfl⟩⟩
  | some id =>
    let w' := w.withDb { w.state.db with dialogs := w.state.db.dialogs ++ [⟨id, type, title⟩] }
    have hdialog : w'.state.db.hasDialog id = true := by
      rw [Database.hasDialog_iff]
      simp [w']
    have hok := insertParticipants_ok_iff (w := w') users hdialog
    have hfresh (u : Int64) : w'.state.db.hasParticipant id u = false := h.fresh hid u
    have hdialogs := dialogs_insertParticipants id users w'
    simp only [hfresh, and_true] at hok
    dsimp only
    rw [exec_bind]
    constructor
    · intro hrestores
      refine Or.inr (hok.mp ?_)
      cases hexec : (insertParticipants id users).exec w' with
      | mk result w'' =>
        cases result with
        | ok a => rfl
        | error e =>
          rw [hexec] at hrestores hdialogs
          have hsame := (hrestores e rfl).1
          rw [hdialogs] at hsame
          exact absurd (List.append_right_eq_self.mp hsame) nofun
    · rintro (hnone | hall) e he
      · cases hnone
      · have hdone := hok.mpr hall
        cases hexec : (insertParticipants id users).exec w' with
        | mk result w'' =>
          rw [hexec] at hdone he
          cases hdone
          cases he

/-- Exactly when a failed creation leaves nothing behind. -/
theorem creation_restores_iff (h : w.state.db.Reachable) :
    (∀ user1 user2, Restores (createPrivateDialog user1 user2) w ↔
      w.state.db.NoRowid ∨ (∃ d, w.state.db.Joins user1 user2 d) ∨
        user1 ≠ user2 ∧ w.state.db.hasUser user1 = true ∧ w.state.db.hasUser user2 = true) ∧
    ∀ title creator participants, Restores (createGroupDialog title creator participants) w ↔
      w.state.db.NoRowid ∨ (creator :: participants).Nodup ∧
        ∀ u ∈ creator :: participants, w.state.db.hasUser u = true := by
  constructor
  · intro user1 user2
    rw [createPrivateDialog_eq]
    unfold Restores
    rw [exec_sql_bind]
    rcases selectPrivateDialog_cases user1 user2 w.state.db with ⟨d, hd, hsome⟩ | ⟨hd, hnone⟩
    · rw [hsome]
      exact ⟨fun _ => Or.inr (Or.inl ⟨d, hd⟩), fun _ e he => nomatch he⟩
    · rw [hnone]
      refine (restores_insertMembers_iff h.sound 0 "" [user1, user2]).trans ?_
      simp only [hd, false_or]
      simp
  · exact fun title creator participants => restores_insertMembers_iff h.sound 1 title _

theorem creation_restores_iff_init : Restores (createGroupDialog "g" 0 []) World.init ∧
    ¬ Restores (createPrivateDialog 0 5) World.init := by
  obtain ⟨hprivate, hgroup⟩ := creation_restores_iff (w := World.init) .init
  have hmembers : ∀ u ∈ [(0 : Int64)], Database.hasUser World.init.state.db u = true := by
    intro u hu
    cases List.mem_singleton.mp hu
    decide
  refine ⟨(hgroup "g" 0 []).mpr (Or.inr ⟨List.pairwise_singleton _ 0, hmembers⟩), fun h => ?_⟩
  rcases (hprivate 0 5).mp h with hnone | ⟨d, hd, -⟩ | ⟨-, -, huser⟩
  · have hsome : nextRowid (largestRowid []) ≠ none := by decide
    exact absurd hnone hsome
  · cases hd
  · exact absurd huser (by decide)

/-- A group whose creator is also invited. -/
theorem not_creation_restores : ¬ ∀ w : World, w.state.db.Reachable →
    (∀ user1 user2, Restores (createPrivateDialog user1 user2) w) ∧
      ∀ title creator participants, Restores (createGroupDialog title creator participants) w := by
  intro h
  obtain ⟨-, hgroup⟩ := h World.init .init
  have hleft := (hgroup "g" 0 [0] _ rfl).1
  exact absurd hleft (by decide)

end KoSta.Server
