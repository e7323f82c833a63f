import Mathlib.Data.List.Nodup
import KoSta.Server.Receivable

/-! What the answers about dialogs say of them. -/
namespace KoSta.Server
open Lib Lib.Prog Tl

variable {w w' : World} {db : Database} {data : Bytes}

/-! ### Answers -/

def AsksDialogs : TlObject → Prop
  | .createPrivateDialog _ | .createGroup _ | .addGroupParticipant _ | .removeGroupParticipant _
  | .getDialogs _ => True
  | _ => False

/-- The dialogs a request shows its user, each with its members by then. -/
def Database.dialogsShown (db : Database) (u : Int64) : TlObject → List (Int64 × List Int64)
  | .getDialogs _ => (db.dialogIds u).map fun d => (d, db.memberIds d)
  | .createPrivateDialog req => [db.shown u (.createPrivateDialog req)]
  | .createGroup req => [db.shown u (.createGroup req)]
  | .addGroupParticipant req => [db.shown u (.addGroupParticipant req)]
  | .removeGroupParticipant req => [db.shown u (.removeGroupParticipant req)]
  | _ => []

/-- What the user is told of a dialog. -/
def Database.told (db : Database) (u : Int64) (dialog : Int64 × List Int64) : DialogInfo :=
  infoOf db.users dialog.2 dialog.1 u

/-- The bytes of an answer with these infos. -/
def Written (infos : List DialogInfo) (data : Bytes) : TlObject → Prop
  | .getDialogs _ => data = (TlObject.dialogList ⟨infos⟩).writeBoxed
  | _ => infos.map (fun info => (TlObject.dialogInfo info).writeBoxed) = [data]

theorem Shows.answer {u : Int64} {dialog : Int64 × List Int64} (h : Shows w w' u dialog data) :
    ([dialog].map (w.state.db.told u)).map (fun info => (TlObject.dialogInfo info).writeBoxed) =
      [data] ∧ ∀ dialog' ∈ [dialog], w'.state.db.memberIds dialog'.1 = dialog'.2 := by
  constructor
  · rw [h.data, Database.info, h.members, h.users]
    rfl
  · exact List.forall_mem_singleton.mpr h.members

section Requests

variable [Platform] (statics : Statics)

/-- The answer is about the dialogs that are shown, and has their members by then. -/
theorem written_answer (hdb : w.state.db.Reachable) {r : Request} (hobj : AsksDialogs r.obj)
    {u : Int64} (hu : requester w r.session = some u)
    (h : (r.handle statics).exec w = (.ok (some data), w')) :
    Written ((w.state.db.dialogsShown u r.obj).map (w.state.db.told u)) data r.obj ∧
      ∀ dialog ∈ w.state.db.dialogsShown u r.obj, w'.state.db.memberIds dialog.1 = dialog.2 := by
  obtain ⟨draws, conn, session, obj⟩ := r
  dsimp only at hobj hu
  cases obj with
  | createPrivateDialog req =>
    obtain ⟨v, hv, hshows⟩ := shows_handleCreatePrivateDialog hdb h
    cases hu.symm.trans hv
    exact hshows.answer
  | createGroup req =>
    obtain ⟨v, hv, hshows⟩ := shows_handleCreateGroup hdb h
    cases hu.symm.trans hv
    exact hshows.answer
  | addGroupParticipant req =>
    obtain ⟨v, hv, hshows⟩ := shows_handleAddGroupParticipant h
    cases hu.symm.trans hv
    exact hshows.answer
  | removeGroupParticipant req =>
    obtain ⟨v, hv, hshows⟩ := shows_handleRemoveGroupParticipant h
    cases hu.symm.trans hv
    exact hshows.answer
  | getDialogs req =>
    have hlist := (exec_handleGetDialogs session w).symm.trans h
    rw [hu] at hlist
    cases hlist
    constructor
    · change _ = _
      rw [Database.dialogsShown, List.map_map]
      rfl
    · intro dialog hdialog
      obtain ⟨d, -, rfl⟩ := List.mem_map.mp hdialog
      rfl
  | _ => exact hobj.elim

/-! ### Where a dialog comes from -/

/-- The request of a run that a dialog has come to be with. -/
def creator : List Request → World → Int64 → Option TlObject
  | [], _, _ => none
  | r :: rs, w, d =>
    if !w.state.db.hasDialog d && (r.exec statics w).state.db.hasDialog d then some r.obj
    else creator rs (r.exec statics w) d

/-- What is told of a dialog is what it was created as, and who is in it by then. -/
structure Faithful (origin : Option TlObject) (db : Database) (info : DialogInfo) : Prop where
  isGroup : info.isGroup = true ↔ ∃ req, origin = some (.createGroup req)
  title : ∀ req, origin = some (.createGroup req) → info.title = req.title
  distinct : info.participants.Nodup
  members : ∀ v, v ∈ info.participants ↔ db.hasParticipant info.id.val v.val = true

/-- A group has more than two members and the title that is made up for it; any other dialog has
no more than two. -/
def Fitting (dialog : Int64 × List Int64) : Option TlObject → Prop
  | some (.createGroup req) => 2 < dialog.2.length ∧ req.title = s!"Group {dialog.1}"
  | _ => dialog.2.length ≤ 2

variable {statics}

theorem reachable_request (r : Request) (h : w.state.db.Reachable) :
    (r.exec statics w).state.db.Reachable := by
  obtain ⟨draws, conn, session, obj⟩ := r
  unfold Request.exec
  rcases handleRequest_cases session statics draws conn obj with ⟨req, rfl⟩ | ⟨req, rfl⟩ | hquiet
  · exact (Always.exec (leaves_handleSignUp draws conn session req) (fun w => Apart.refl _)
      Apart.trans w).tables h
  · exact (Always.exec (leaves_handleSetClientDhParams statics draws conn req)
      (fun w => Apart.refl _) Apart.trans w).tables h
  · exact (hquiet.always.exec Quiet.refl Quiet.trans w).tables h

theorem reachable_requests (rs : List Request) (h : w.state.db.Reachable) :
    (handleRequests statics rs w).state.db.Reachable := by
  induction rs generalizing w with
  | nil => exact h
  | cons r rs ih => exact ih (reachable_request r h)

end Requests

theorem Database.Sound.nodup_memberIds (h : db.Sound) (d : Int64) : (db.memberIds d).Nodup := by
  unfold Database.memberIds
  rw [(perm_ascending _).nodup_iff]
  refine List.Nodup.map_on ?_ (h.pairs.filter _)
  intro p hp q hq huser
  have hp := beq_iff_eq.mp (List.mem_filter.mp hp).2
  have hq := beq_iff_eq.mp (List.mem_filter.mp hq).2
  obtain ⟨d₁, u₁⟩ := p
  obtain ⟨d₂, u₂⟩ := q
  cases hp.trans hq.symm
  cases huser
  rfl

theorem told_members {told : Database} {u : Int64} {dialog : Int64 × List Int64}
    (hmembers : db.memberIds dialog.1 = dialog.2) (v : UserId) :
    v ∈ (told.told u dialog).participants ↔ db.hasParticipant dialog.1 v.val = true := by
  rw [← contains_memberIds, hmembers, List.contains_iff_mem]
  constructor
  · intro hv
    obtain ⟨id, hid, rfl⟩ := List.mem_map.mp hv
    exact hid
  · exact fun hv => List.mem_map.mpr ⟨v.val, hv, rfl⟩

theorem told_isGroup (told : Database) (u : Int64) (dialog : Int64 × List Int64) :
    (told.told u dialog).isGroup = true ↔ 2 < dialog.2.length := by
  unfold Database.told infoOf
  rw [List.length_map, decide_eq_true_eq]

theorem told_title {told : Database} {u : Int64} {dialog : Int64 × List Int64}
    (h : 2 < dialog.2.length) : (told.told u dialog).title = s!"Group {dialog.1}" := if_pos h

/-- The kind and the title are made up from the number of members, which fits some dialogs. -/
theorem faithful_iff (h : db.Sound) {told : Database} {u : Int64} {dialog : Int64 × List Int64}
    (hmembers : db.memberIds dialog.1 = dialog.2) (origin : Option TlObject) :
    Faithful origin db (told.told u dialog) ↔ Fitting dialog origin := by
  have hdistinct : (told.told u dialog).participants.Nodup := by
    change (dialog.2.map UserId.mk).Nodup
    rw [← hmembers]
    exact (h.nodup_memberIds dialog.1).map fun v v' hv => congrArg UserId.val hv
  have hgroup := told_isGroup told u dialog
  by_cases horigin : ∃ req, origin = some (.createGroup req)
  · obtain ⟨req, rfl⟩ := horigin
    constructor
    · intro hf
      have hmany := hgroup.mp (hf.isGroup.mpr ⟨req, rfl⟩)
      exact ⟨hmany, (hf.title req rfl).symm.trans (told_title hmany)⟩
    · rintro ⟨hmany, htitle⟩
      refine ⟨⟨fun _ => ⟨req, rfl⟩, fun _ => hgroup.mpr hmany⟩, ?_, hdistinct,
        told_members hmembers⟩
      rintro _ ⟨⟩
      rw [told_title hmany, htitle]
  · have hfitting : Fitting dialog origin ↔ dialog.2.length ≤ 2 := by
      unfold Fitting
      split
      · exact (horigin ⟨_, rfl⟩).elim
      · exact Iff.rfl
    rw [hfitting]
    constructor
    · intro hf
      exact Nat.not_lt.mp fun hmany => horigin (hf.isGroup.mp (hgroup.mpr hmany))
    · intro hfew
      refine ⟨⟨fun hmarked => ?_, fun h => (horigin h).elim⟩,
        fun req hreq => (horigin ⟨req, hreq⟩).elim,
        hdistinct, told_members hmembers⟩
      have hmany := hgroup.mp hmarked
      omega

section Runs

variable [Platform] {statics : Statics}

/-- In every run, each dialog that a request shows its user is told as it is just when the number
of its members and its title happen to fit how it was created. -/
theorem dialogs_told_iff (rs : List Request) {r : Request} (hobj : AsksDialogs r.obj) {u : Int64}
    (hu : requester (handleRequests statics rs World.init) r.session = some u)
    (h : ((r.handle statics).exec (handleRequests statics rs World.init)).1 = .ok (some data)) :
    let db := (handleRequests statics rs World.init).state.db
    let db' := (handleRequests statics (rs ++ [r]) World.init).state.db
    Written ((db.dialogsShown u r.obj).map (db.told u)) data r.obj ∧
      ∀ dialog ∈ db.dialogsShown u r.obj,
        (Faithful (creator statics (rs ++ [r]) World.init dialog.1) db' (db.told u dialog) ↔
          Fitting dialog (creator statics (rs ++ [r]) World.init dialog.1)) := by
  have hreach : (handleRequests statics rs World.init).state.db.Reachable :=
    reachable_requests rs .init
  have hexec : (r.handle statics).exec (handleRequests statics rs World.init) =
      (.ok (some data), handleRequests statics (rs ++ [r]) World.init) := by
    rw [handleRequests_append]
    exact Prod.ext h rfl
  obtain ⟨hwritten, hmembers⟩ := written_answer statics hreach hobj hu hexec
  have hafter : (handleRequests statics (rs ++ [r]) World.init).state.db.Reachable := by
    rw [handleRequests_append]
    exact reachable_request r hreach
  exact ⟨hwritten, fun dialog hdialog => faithful_iff hafter.sound (hmembers dialog hdialog) _⟩

end Runs

/-! ### A group of one -/

namespace Sample

/-- A group without other members, as user 0 creates it. -/
def lonely : Request := ⟨(draws 0).handler, 0, some id, .createGroup ⟨"g", []⟩⟩

def lonelyInfo : DialogInfo := ⟨⟨1⟩, "Unknown", false, [⟨0⟩], none, 0⟩

theorem requester_lonely : letI := platform
    requester (handleRequests statics (requests []) World.init) lonely.session = some 0 := by
  decide +kernel

theorem answer_lonely : letI := platform
    ((lonely.handle statics).exec (handleRequests statics (requests []) World.init)).1 =
      .ok (some (TlObject.dialogInfo lonelyInfo).writeBoxed) := by
  decide +kernel

end Sample

theorem dialogs_told_iff_lonely : letI := Sample.platform
    let db := (handleRequests Sample.statics (Sample.requests []) World.init).state.db
    let db' := (handleRequests Sample.statics (Sample.requests [] ++ [Sample.lonely])
      World.init).state.db
    Written ((db.dialogsShown 0 Sample.lonely.obj).map (db.told 0))
      (TlObject.dialogInfo Sample.lonelyInfo).writeBoxed Sample.lonely.obj ∧
      ∀ dialog ∈ db.dialogsShown 0 Sample.lonely.obj,
        (Faithful (creator Sample.statics
          (Sample.requests [] ++ [Sample.lonely]) World.init dialog.1)
            db' (db.told 0 dialog) ↔
          Fitting dialog
            (creator Sample.statics (Sample.requests [] ++ [Sample.lonely]) World.init dialog.1)) :=
  @dialogs_told_iff _ Sample.platform Sample.statics (Sample.requests []) Sample.lonely trivial 0
    Sample.requester_lonely Sample.answer_lonely

/-- The group is told to be none. -/
theorem not_dialogs_told : ¬ ∀ (_ : Platform) (statics : Statics) (rs : List Request) (r : Request)
    (u : Int64) (data : Bytes), AsksDialogs r.obj →
    requester (handleRequests statics rs World.init) r.session = some u →
    ((r.handle statics).exec (handleRequests statics rs World.init)).1 = .ok (some data) →
    let db := (handleRequests statics rs World.init).state.db
    let db' := (handleRequests statics (rs ++ [r]) World.init).state.db
    Written ((db.dialogsShown u r.obj).map (db.told u)) data r.obj ∧
      ∀ dialog ∈ db.dialogsShown u r.obj,
        Faithful (creator statics (rs ++ [r]) World.init dialog.1) db' (db.told u dialog) := by
  intro h
  obtain ⟨-, hall⟩ := h Sample.platform Sample.statics (Sample.requests []) Sample.lonely 0
    (TlObject.dialogInfo Sample.lonelyInfo).writeBoxed trivial Sample.requester_lonely
    Sample.answer_lonely
  have hfaithful := hall (1, [0]) (by decide +kernel)
  have hgroup := hfaithful.isGroup.mpr ⟨⟨"g", []⟩, by decide +kernel⟩
  exact absurd hgroup (by decide +kernel)

end KoSta.Server
