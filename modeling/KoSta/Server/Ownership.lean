import KoSta.Lib.Knowledge
import KoSta.Server.Runs

/-! Sessions and the users they act for. -/
namespace KoSta.Server
open Lib Lib.Prog Tl Crypto Function

variable {w w' : World} {id u : Int64} {owner : Int64 → Int64}

/-! ### Owners -/

/-- A frame accepted under this session has carried this request. -/
def Requested (w : World) (id : Int64) (obj : TlObject) : Prop :=
  ∃ conn msgId, Event.dispatched conn (some (id, msgId)) obj ∈ w.trace

/-- The user stands for nobody or has been signed up under the session that owns it. -/
def ActsFor (owner : Int64 → Int64) (w : World) (id u : Int64) : Prop :=
  u = 0 ∨ owner u = id ∧ ∃ req hash, Requested w id (.signUp req) ∧
    (⟨u, req.phone, hash⟩ : UserRow) ∈ w.state.db.users

/-- Sessions act for the users they own, and messages and statuses come from their users. -/
structure Authentic (owner : Int64 → Int64) (w : World) : Prop where
  rows : ∀ id row, w.row id = some row → ActsFor owner w id row.userId
  entries : ∀ id session, w.state.cache id = some session → ActsFor owner w id session.userId
  messages : ∀ m ∈ w.state.db.messages, ∃ id req, Requested w id (.sendMessage req) ∧
    ActsFor owner w id m.senderId ∧ m.dialogId = req.chatId.val ∧ m.text = req.text
  statuses : ∀ s ∈ w.state.db.statuses, ∃ id req, Requested w id (.userStatusUpdate req) ∧
    ActsFor owner w id s.userId ∧ s.status = statusCode req.status

/-- What a turn gets to know. -/
inductive Fact where
  | acts (id u : Int64)
  | asked (id : Int64) (obj : TlObject)

def Fact.Holds (owner : Int64 → Int64) (w : World) : Fact → Prop
  | .acts id u => ActsFor owner w id u
  | .asked id obj => Requested w id obj

/-! ### What a section does with what the turn knows -/

/-- A user a session may be bound to. -/
def Knows (known : Set Fact) (id u : Int64) : Prop := u = 0 ∨ Fact.acts id u ∈ known

/-- Someone who acts for the user has asked for this. -/
def KnowsAuthor (known : Set Fact) (u : Int64) (obj : TlObject) : Prop :=
  ∃ id, Knows known id u ∧ Fact.asked id obj ∈ known

/-- The tables besides `sessions`. -/
structure Grows (known : Set Fact) (db db' : Database) : Prop where
  users : db.users ⊆ db'.users
  messages : ∀ m' ∈ db'.messages,
    (∃ m ∈ db.messages, m'.senderId = m.senderId ∧ m'.dialogId = m.dialogId ∧ m'.text = m.text) ∨
      ∃ req, KnowsAuthor known m'.senderId (.sendMessage req) ∧ m'.dialogId = req.chatId.val ∧
        m'.text = req.text
  statuses : ∀ s' ∈ db'.statuses, s' ∈ db.statuses ∨
    ∃ req, KnowsAuthor known s'.userId (.userStatusUpdate req) ∧ s'.status = statusCode req.status

/-- A section that writes only what the turn knows. -/
structure Tame (known : Set Fact) (w w' : World) : Prop where
  trace : w.trace ⊆ w'.trace
  tables : Grows known w.state.db w'.state.db
  rows : ∀ id row', w'.row id = some row' →
    (∃ row, w.row id = some row ∧ row'.userId = row.userId) ∨ Knows known id row'.userId
  entries : ∀ id session', w'.state.cache id = some session' →
    (∃ session, w.state.cache id = some session ∧ session'.userId = session.userId) ∨
      Knows known id session'.userId

/-- What there is to learn in a section. -/
inductive Learnt (w w' : World) : Fact → Prop where
  | row {id row} : w.row id = some row → Learnt w w' (.acts id row.userId)
  | entry {id session} : w.state.cache id = some session → Learnt w w' (.acts id session.userId)
  | request {conn id msgId obj} : .dispatched conn (some (id, msgId)) obj ∈ w'.trace →
    Learnt w w' (.asked id obj)

inductive Gains (known : Set Fact) (w w' : World) : Set Fact → Prop where
  | learn {known'} : Tame known w w' → (∀ f ∈ known', f ∈ known ∨ Learnt w w' f) →
    Gains known w w' known'
  | enroll {id u req hash} : Tame known w w' → Fact.asked id (.signUp req) ∈ known →
    u ∉ w.state.db.users.map UserRow.id → ⟨u, req.phone, hash⟩ ∈ w'.state.db.users →
    Gains known w w' (insert (.acts id u) known)

/-! ### Owners stay owners -/

theorem Requested.mono {obj : TlObject} (h : Requested w id obj) (htrace : w.trace ⊆ w'.trace) :
    Requested w' id obj := by
  obtain ⟨conn, msgId, hmem⟩ := h
  exact ⟨conn, msgId, htrace hmem⟩

theorem ActsFor.mono (h : ActsFor owner w id u) (htrace : w.trace ⊆ w'.trace)
    (husers : w.state.db.users ⊆ w'.state.db.users) : ActsFor owner w' id u := by
  rcases h with rfl | ⟨hown, req, hash, hasked, hmem⟩
  · exact Or.inl rfl
  · exact Or.inr ⟨hown, req, hash, hasked.mono htrace, husers hmem⟩

theorem Fact.Holds.mono {f : Fact} (h : f.Holds owner w) (htrace : w.trace ⊆ w'.trace)
    (husers : w.state.db.users ⊆ w'.state.db.users) : f.Holds owner w' := by
  cases f with
  | acts id u => exact ActsFor.mono h htrace husers
  | asked id obj => exact Requested.mono h htrace

/-- The owner of a user that does not exist yet can be chosen. -/
theorem ActsFor.choose {v i : Int64} (h : ActsFor owner w id u)
    (hnew : v ∉ w.state.db.users.map UserRow.id) : ActsFor (update owner v i) w id u := by
  rcases h with rfl | ⟨hown, req, hash, hasked, hmem⟩
  · exact Or.inl rfl
  · have hne : u ≠ v := by
      rintro rfl
      exact hnew (List.mem_map_of_mem (f := UserRow.id) hmem)
    exact Or.inr ⟨(update_of_ne hne _ _).trans hown, req, hash, hasked, hmem⟩

theorem Fact.Holds.choose {v i : Int64} {f : Fact} (h : f.Holds owner w)
    (hnew : v ∉ w.state.db.users.map UserRow.id) : f.Holds (update owner v i) w := by
  cases f with
  | acts id u => exact ActsFor.choose h hnew
  | asked id obj => exact h

theorem Authentic.choose {v i : Int64} (h : Authentic owner w)
    (hnew : v ∉ w.state.db.users.map UserRow.id) : Authentic (update owner v i) w where
  rows id row hrow := (h.rows id row hrow).choose hnew
  entries id session hentry := (h.entries id session hentry).choose hnew
  messages m hm := by
    obtain ⟨id, req, hasked, hacts, hsame⟩ := h.messages m hm
    exact ⟨id, req, hasked, hacts.choose hnew, hsame⟩
  statuses s hs := by
    obtain ⟨id, req, hasked, hacts, hstatus⟩ := h.statuses s hs
    exact ⟨id, req, hasked, hacts.choose hnew, hstatus⟩

section Tame

variable {known : Set Fact}

theorem Tame.holds (ht : Tame known w w') {f : Fact} (h : f.Holds owner w) : f.Holds owner w' :=
  h.mono ht.trace ht.tables.users

variable (htrue : ∀ f ∈ known, Fact.Holds owner w f) (ht : Tame known w w')

include htrue ht

theorem Tame.actsFor (h : Knows known id u) : ActsFor owner w' id u := by
  rcases h with rfl | hmem
  · exact Or.inl rfl
  · exact ht.holds (htrue _ hmem)

theorem Tame.author {obj : TlObject} (h : KnowsAuthor known u obj) :
    ∃ id, Requested w' id obj ∧ ActsFor owner w' id u := by
  obtain ⟨id, hacts, hasked⟩ := h
  exact ⟨id, ht.holds (htrue _ hasked), ht.actsFor htrue hacts⟩

theorem Authentic.tame (h : Authentic owner w) : Authentic owner w' where
  rows id row' hrow' := by
    rcases ht.rows id row' hrow' with ⟨row, hrow, heq⟩ | hknows
    · rw [heq]
      exact (h.rows id row hrow).mono ht.trace ht.tables.users
    · exact ht.actsFor htrue hknows
  entries id session' hentry' := by
    rcases ht.entries id session' hentry' with ⟨session, hentry, heq⟩ | hknows
    · rw [heq]
      exact (h.entries id session hentry).mono ht.trace ht.tables.users
    · exact ht.actsFor htrue hknows
  messages m' hm' := by
    rcases ht.tables.messages m' hm' with ⟨m, hm, hsender, hdialog, htext⟩ | ⟨req, hauthor, hsame⟩
    · obtain ⟨id, req, hasked, hacts, hsame⟩ := h.messages m hm
      rw [hsender, hdialog, htext]
      exact ⟨id, req, hasked.mono ht.trace, hacts.mono ht.trace ht.tables.users, hsame⟩
    · obtain ⟨id, hasked, hacts⟩ := ht.author htrue hauthor
      exact ⟨id, req, hasked, hacts, hsame⟩
  statuses s' hs' := by
    rcases ht.tables.statuses s' hs' with hs | ⟨req, hauthor, hstatus⟩
    · obtain ⟨id, req, hasked, hacts, hstatus⟩ := h.statuses s' hs
      exact ⟨id, req, hasked.mono ht.trace, hacts.mono ht.trace ht.tables.users, hstatus⟩
    · obtain ⟨id, hasked, hacts⟩ := ht.author htrue hauthor
      exact ⟨id, req, hasked, hacts, hstatus⟩

end Tame

/-- Nothing has to be known for this. -/
theorem Authentic.calm (h : Authentic owner w) (ht : Tame ∅ w w') : Authentic owner w' :=
  h.tame (fun f hf => absurd hf (Set.notMem_empty f)) ht

theorem Learnt.holds {f : Fact} (h : Authentic owner w) (htrace : w.trace ⊆ w'.trace)
    (husers : w.state.db.users ⊆ w'.state.db.users) (hl : Learnt w w' f) : f.Holds owner w' := by
  cases hl with
  | row hrow => exact (h.rows _ _ hrow).mono htrace husers
  | entry hentry => exact (h.entries _ _ hentry).mono htrace husers
  | request hmem => exact ⟨_, _, hmem⟩

/-- One section, whichever it is. A user it signs up is given to the session that asked. -/
theorem authentic_turn {known known' : Set Fact} (h : Authentic owner w)
    (htrue : ∀ f ∈ known, f.Holds owner w) (hturn : Gains known w w' known') :
    ∃ owner', Authentic owner' w' ∧ (∀ f : Fact, f.Holds owner w → f.Holds owner' w') ∧
      ∀ f ∈ known', f.Holds owner' w' := by
  cases hturn with
  | learn ht hlearnt =>
    refine ⟨owner, h.tame htrue ht, fun f => ht.holds, fun f hf => ?_⟩
    rcases hlearnt f hf with hold | hnew
    · exact ht.holds (htrue f hold)
    · exact hnew.holds h ht.trace ht.tables.users
  | @enroll id u req hash ht hasked hnew hmem =>
    have htrue' (f : Fact) (hf : f ∈ known) : f.Holds (update owner u id) w :=
      (htrue f hf).choose hnew
    refine ⟨update owner u id, (h.choose hnew).tame htrue' ht,
      fun f hf => ht.holds (hf.choose hnew), fun f hf => ?_⟩
    rcases Set.mem_insert_iff.mp hf with rfl | hf
    · exact Or.inr ⟨update_self _ _ _, req, hash, ht.holds (htrue _ hasked), hmem⟩
    · exact ht.holds (htrue' f hf)

/-! ### Sections and statements -/

section Sections

variable {known known' : Set Fact} {session : SessionData} {db : Database}

theorem Knows.mono (h : Knows known id u) (hsub : known ⊆ known') : Knows known' id u :=
  h.imp_right fun hmem => hsub hmem

theorem KnowsAuthor.mono {obj : TlObject} (h : KnowsAuthor known u obj) (hsub : known ⊆ known') :
    KnowsAuthor known' u obj := by
  obtain ⟨id, hacts, hasked⟩ := h
  exact ⟨id, hacts.mono hsub, hsub hasked⟩

theorem Grows.mono {db' : Database} (h : Grows known db db') (hsub : known ⊆ known') :
    Grows known' db db' where
  users := h.users
  messages m' hm' := by
    rcases h.messages m' hm' with hold | ⟨req, hauthor, hsame⟩
    · exact Or.inl hold
    · exact Or.inr ⟨req, hauthor.mono hsub, hsame⟩
  statuses s' hs' := by
    rcases h.statuses s' hs' with hold | ⟨req, hauthor, hstatus⟩
    · exact Or.inl hold
    · exact Or.inr ⟨req, hauthor.mono hsub, hstatus⟩

theorem Tame.mono (h : Tame known w w') (hsub : known ⊆ known') : Tame known' w w' where
  trace := h.trace
  tables := h.tables.mono hsub
  rows id row' hrow' := (h.rows id row' hrow').imp_right fun hknows => hknows.mono hsub
  entries id session' hentry' :=
    (h.entries id session' hentry').imp_right fun hknows => hknows.mono hsub

theorem grows_users {db' : Database} (husers : db.users ⊆ db'.users)
    (hmessages : db'.messages = db.messages) (hstatuses : db'.statuses = db.statuses) :
    Grows known db db' where
  users := husers
  messages m hm := Or.inl ⟨m, hmessages ▸ hm, rfl, rfl, rfl⟩
  statuses _ hs := Or.inl (hstatuses ▸ hs)

theorem Grows.refl (db : Database) : Grows known db db := grows_users (List.Subset.refl _) rfl rfl

/-- A section that writes no session. -/
theorem tame_of_eq (htrace : w.trace ⊆ w'.trace) (htables : Grows known w.state.db w'.state.db)
    (hrows : w'.state.db.sessions = w.state.db.sessions)
    (hentries : w'.state.cache = w.state.cache) : Tame known w w' where
  trace := htrace
  tables := htables
  rows id row' hrow' := Or.inl ⟨row', (congrFun hrows id).symm.trans hrow', rfl⟩
  entries id session' hentry' := Or.inl ⟨session', (congrFun hentries id).symm.trans hentry', rfl⟩

theorem tame_log (events : List Event) : Tame known w (w.log events) :=
  tame_of_eq (List.subset_append_right _ _) (Grows.refl _) rfl rfl

theorem tame_putEntry (h : Knows known id session.userId) (events : List Event) :
    Tame known w (w.putEntry id session events) where
  trace := List.subset_append_right _ _
  tables := Grows.refl _
  rows id row' hrow' := Or.inl ⟨row', hrow', rfl⟩
  entries i session' hentry' := by
    change update w.state.cache id (some session) i = some session' at hentry'
    by_cases hi : i = id
    · subst hi
      rw [update_self] at hentry'
      cases hentry'
      exact Or.inr h
    · rw [update_of_ne hi] at hentry'
      exact Or.inl ⟨session', hentry', rfl⟩

theorem tame_load {full : FullSession} (h : Knows known id full.userId) (events : List Event) :
    Tame known w (w.load id full events) := by
  have hput : Tame known w.renew (w.load id full events) := tame_putEntry h events
  exact ⟨hput.trace, hput.tables, hput.rows, hput.entries⟩

theorem tame_save {row : FullSession} (h : Knows known row.authKeyId row.userId)
    (events : List Event) : Tame known w (w.save row events) where
  trace := List.subset_append_right _ _
  tables := grows_users (List.Subset.refl _) rfl rfl
  rows i row' hrow' := by
    by_cases hi : i = row.authKeyId
    · have heq : row = row' := Option.some.inj ((if_pos hi).symm.trans hrow')
      rw [hi, ← heq]
      exact Or.inr h
    · exact Or.inl ⟨row', (if_neg hi).symm.trans hrow', rfl⟩
  entries id session' hentry' := Or.inl ⟨session', hentry', rfl⟩

theorem tame_modifyRow {f : FullSession → FullSession}
    (h : ∀ row, (f row).userId = row.userId ∨ Knows known id (f row).userId) :
    Tame known w (w.modifyRow id f) where
  trace := List.Subset.refl _
  tables := grows_users (List.Subset.refl _) rfl rfl
  rows i row' hrow' := by
    by_cases hi : i = id
    · obtain ⟨row, hrow, rfl⟩ := Option.map_eq_some_iff.mp ((if_pos hi).symm.trans hrow')
      rw [hi]
      exact (h row).imp_left fun heq => ⟨row, hi ▸ hrow, heq⟩
    · exact Or.inl ⟨row', (if_neg hi).symm.trans hrow', rfl⟩
  entries id session' hentry' := Or.inl ⟨session', hentry', rfl⟩

end Sections

end KoSta.Server
