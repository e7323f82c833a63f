import KoSta.Server.Database

/-! What the statements promise of the tables of users, dialogs and participants. -/
namespace KoSta.Server

variable {db : Database}

/-! ### Row ids -/

theorem le_max_int64 (x y : Int64) : x ≤ max x y ∧ y ≤ max x y := by
  change x ≤ (if x ≤ y then y else x) ∧ y ≤ (if x ≤ y then y else x)
  split
  · rename_i h
    exact ⟨h, Int64.le_refl y⟩
  · rename_i h
    exact ⟨Int64.le_refl x, Int64.le_of_lt (Int64.not_le.mp h)⟩

theorem lt_add_one_int64 {x : Int64} (h : x ≠ Int64.maxValue) : x < x + 1 := by
  have hne : x.toInt ≠ 2 ^ 63 - 1 := fun he => h (Int64.toInt_inj.mp he)
  have hlt := x.toInt_lt
  have hle := x.le_toInt
  rw [Int64.lt_iff_toInt_lt, Int64.toInt_add, Int64.toInt_one]
  rw [Int.bmod_eq_of_le] <;> omega

theorem le_foldl_max (ids : List Int64) : ∀ top : Int64,
    top ≤ ids.foldl max top ∧ ∀ id ∈ ids, id ≤ ids.foldl max top := by
  induction ids with
  | nil => exact fun top => ⟨Int64.le_refl top, nofun⟩
  | cons id ids ih =>
    intro top
    obtain ⟨htop, hids⟩ := ih (max top id)
    obtain ⟨hleft, hright⟩ := le_max_int64 top id
    refine ⟨Int64.le_trans hleft htop, fun i hi => ?_⟩
    rcases List.mem_cons.mp hi with rfl | hi
    · exact Int64.le_trans hright htop
    · exact hids i hi

/-- A new row id is in use nowhere. -/
theorem not_mem_of_nextRowid {ids : List Int64} {id : Int64}
    (h : nextRowid (largestRowid ids) = some id) : id ∉ ids := by
  intro hmem
  have hle := (le_foldl_max ids 0).2 id hmem
  unfold nextRowid largestRowid at h
  split at h
  · cases h
  · rename_i hmax
    cases h
    have hlt := lt_add_one_int64 hmax
    exact Int64.lt_irrefl (Int64.lt_of_lt_of_le hlt hle)

theorem insertUser_cases (phone hash : String) (db : Database) :
    (∃ e, Database.insertUser phone hash db = (.error e, db)) ∨
      ∃ u, u ∉ db.users.map UserRow.id ∧ Database.insertUser phone hash db =
        (.ok u, { db with users := db.users ++ [⟨u, phone, hash⟩] }) := by
  unfold Database.insertUser
  split
  · exact Or.inl ⟨_, rfl⟩
  · split
    · rename_i u hu
      exact Or.inr ⟨u, not_mem_of_nextRowid hu, rfl⟩
    · exact Or.inl ⟨_, rfl⟩

namespace Database

/-- Nothing more can be put into `dialogs`. -/
def NoRowid (db : Database) : Prop := nextRowid (largestRowid (db.dialogs.map DialogRow.id)) = none

/-- What the schema promises of `dialogs` and `dialog_participants`. -/
structure Sound (db : Database) : Prop where
  ids : (db.dialogs.map DialogRow.id).Nodup
  pairs : db.participants.Nodup
  dialog : ∀ p ∈ db.participants, db.hasDialog p.dialogId = true
  user : ∀ p ∈ db.participants, db.hasUser p.userId = true

/-- The databases that some sequence of statements leads to, whoever executes them. -/
inductive Reachable : Database → Prop where
  | init : Reachable Database.init
  | insertUser {db : Database} (phone hash : String) : Reachable db →
    Reachable (Database.insertUser phone hash db).2
  | insertDialog {db : Database} (type : Int64) (title : String) : Reachable db →
    Reachable (Database.insertDialog type title db).2
  | insertParticipant {db : Database} (dialogId userId : Int64) : Reachable db →
    Reachable (Database.insertParticipant dialogId userId db).2
  | addParticipant {db : Database} (dialogId userId : Int64) : Reachable db →
    Reachable (Database.addParticipant dialogId userId db).2
  | removeParticipant {db : Database} (dialogId userId : Int64) : Reachable db →
    Reachable (Database.removeParticipant dialogId userId db).2
  | other {db db' : Database} : Reachable db → db'.users = db.users → db'.dialogs = db.dialogs →
    db'.participants = db.participants → Reachable db'

theorem hasDialog_iff {id : Int64} :
    db.hasDialog id = true ↔ id ∈ db.dialogs.map DialogRow.id := by
  simp only [hasDialog, List.any_eq_true, beq_iff_eq, List.mem_map]

theorem hasUser_iff {id : Int64} : db.hasUser id = true ↔ id ∈ db.users.map UserRow.id := by
  simp only [hasUser, List.any_eq_true, beq_iff_eq, List.mem_map]

theorem hasParticipant_iff {dialogId userId : Int64} :
    db.hasParticipant dialogId userId = true ↔ ⟨dialogId, userId⟩ ∈ db.participants :=
  List.contains_iff_mem

/-- Rows of users and dialogs are never lost, and new participants exist. -/
theorem Sound.grow {db' : Database} (h : db.Sound)
    (hids : (db'.dialogs.map DialogRow.id).Nodup) (hpairs : db'.participants.Nodup)
    (hdialogs : ∀ id, db.hasDialog id = true → db'.hasDialog id = true)
    (husers : ∀ id, db.hasUser id = true → db'.hasUser id = true)
    (hnew : ∀ p ∈ db'.participants, p ∈ db.participants ∨
      db'.hasDialog p.dialogId = true ∧ db'.hasUser p.userId = true) : db'.Sound := by
  refine ⟨hids, hpairs, fun p hp => ?_, fun p hp => ?_⟩
  · rcases hnew p hp with hold | ⟨hdialog, -⟩
    · exact hdialogs _ (h.dialog p hold)
    · exact hdialog
  · rcases hnew p hp with hold | ⟨-, huser⟩
    · exact husers _ (h.user p hold)
    · exact huser

theorem sound_append {dialogId userId : Int64} (h : db.Sound)
    (hnot : ¬ db.hasParticipant dialogId userId = true)
    (hexist : (db.hasDialog dialogId && db.hasUser userId) = true) :
    Sound { db with participants := db.participants ++ [⟨dialogId, userId⟩] } := by
  rw [hasParticipant_iff] at hnot
  refine h.grow h.ids ?_ (fun _ h => h) (fun _ h => h) fun p hp => ?_
  · refine List.nodup_append.mpr ⟨h.pairs, List.pairwise_singleton _ _, ?_⟩
    rintro p hp q hq rfl
    exact hnot (List.mem_singleton.mp hq ▸ hp)
  · rcases List.mem_append.mp hp with hp | hp
    · exact Or.inl hp
    · rw [List.mem_singleton.mp hp]
      exact Or.inr (Bool.and_eq_true_iff.mp hexist)

theorem sound_insertUser (h : db.Sound) (phone hash : String) :
    Sound (insertUser phone hash db).2 := by
  unfold insertUser
  split
  · exact h
  · split
    · refine h.grow h.ids h.pairs (fun _ h => h) (fun id hid => ?_) fun p hp => Or.inl hp
      rw [hasUser_iff] at hid ⊢
      simp only [List.map_append, List.mem_append]
      exact Or.inl hid
    · exact h

theorem sound_insertDialog (h : db.Sound) (type : Int64) (title : String) :
    Sound (insertDialog type title db).2 := by
  unfold insertDialog
  split
  · rename_i id hid
    refine h.grow ?_ h.pairs (fun i hi => ?_) (fun _ h => h) fun p hp => Or.inl hp
    · simp only [List.map_append]
      refine List.nodup_append.mpr ⟨h.ids, List.pairwise_singleton _ _, ?_⟩
      rintro i hi j hj rfl
      rw [List.mem_singleton.mp hj] at hi
      exact not_mem_of_nextRowid hid hi
    · rw [hasDialog_iff] at hi ⊢
      simp only [List.map_append, List.mem_append]
      exact Or.inl hi
  · exact h

theorem sound_insertParticipant (h : db.Sound) (dialogId userId : Int64) :
    Sound (insertParticipant dialogId userId db).2 := by
  unfold insertParticipant
  split
  · exact h
  · rename_i hnot
    split
    · rename_i hexist
      exact sound_append h hnot hexist
    · exact h

theorem sound_addParticipant (h : db.Sound) (dialogId userId : Int64) :
    Sound (addParticipant dialogId userId db).2 := by
  unfold addParticipant
  split
  · exact h
  · rename_i hnot
    split
    · rename_i hexist
      exact sound_append h hnot hexist
    · exact h

theorem sound_removeParticipant (h : db.Sound) (dialogId userId : Int64) :
    Sound (removeParticipant dialogId userId db).2 :=
  h.grow h.ids (h.pairs.filter _) (fun _ h => h) (fun _ h => h) fun _ hp =>
    Or.inl (List.mem_filter.mp hp).1

theorem Reachable.sound (h : db.Reachable) : db.Sound := by
  induction h with
  | init => exact ⟨List.nodup_nil, List.nodup_nil, nofun, nofun⟩
  | insertUser phone hash _ ih => exact sound_insertUser ih phone hash
  | insertDialog type title _ ih => exact sound_insertDialog ih type title
  | insertParticipant dialogId userId _ ih => exact sound_insertParticipant ih dialogId userId
  | addParticipant dialogId userId _ ih => exact sound_addParticipant ih dialogId userId
  | removeParticipant dialogId userId _ ih => exact sound_removeParticipant ih dialogId userId
  | other _ husers hdialogs hparticipants ih =>
    refine ⟨hdialogs ▸ ih.ids, hparticipants ▸ ih.pairs, fun p hp => ?_, fun p hp => ?_⟩
    · rw [hasDialog, hdialogs]
      exact ih.dialog p (hparticipants ▸ hp)
    · rw [hasUser, husers]
      exact ih.user p (hparticipants ▸ hp)

end Database

end KoSta.Server
