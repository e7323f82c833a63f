import KoSta.Server.Replies
import KoSta.Web.Members

/-! What readers learn about the messages of a dialog they are not in. -/
namespace KoSta.Web
open Lib Lib.Prog Tl KoSta.Server

variable {db db' : Database} {d dialogId : Int64} {offset limit : Int32}

/-- Two states of the tables that differ in the messages of one dialog. -/
structure DifferOnly (d : Int64) (db db' : Database) : Prop where
  tables : db' = { db with messages := db'.messages }
  others : ∀ dialogId, dialogId ≠ d → messagesOf db' dialogId = messagesOf db dialogId

/-- The requests that read messages or dialogs. -/
inductive Read where
  | history (draws : Draws) (conn : ConnId) (session : Option Int64) (req : GetHistory)
  | dialogs (draws : Draws) (conn : ConnId) (session : Option Int64)
  | httpHistory (ip : String) (draws : HttpDraws) (query : GetHistoryQuery)
  | httpChats (ip : String) (draws : HttpDraws)

inductive Answer where
  | tl (result : Except Stop (Option Bytes))
  | http (response : HttpResponse)
  deriving DecidableEq

namespace Read

def input : Read → Input
  | .history draws conn session req => .tl ⟨draws, conn, session, .getHistory req⟩
  | .dialogs draws conn session => .tl ⟨draws, conn, session, .getDialogs {}⟩
  | .httpHistory ip draws query => .http ip draws (.history query)
  | .httpChats ip draws => .http ip draws .chats

/-- Whoever reads is no participant of the dialog; a peer over HTTP is nobody at all. -/
def Outside (d : Int64) (site : Site) : Read → Prop
  | .history _ _ session _ => ∀ u, requester site.world session = some u →
    site.db.hasParticipant d u = false
  | .dialogs _ _ session => ∀ u, requester site.world session = some u →
    site.db.hasParticipant d u = false
  | _ => True

/-- A request for a history is refused, is for another dialog, or is for no messages. -/
def Blind (d : Int64) (site : Site) : Read → Prop
  | .history _ _ session req =>
    requester site.world session = none ∨ req.chatId.val ≠ d ∨ req.limit = 0
  | .httpHistory ip draws query => (site.httpLimiter.check ip draws.instant).1 ≠ .ok () ∨
    query.chatId ≠ d ∨ query.limit.getD 50 = 0
  | _ => True

section Answers

variable [Platform] [Bcrypt] (statics : Statics)

def answer (site : Site) : Read → Answer
  | .history draws conn session req =>
    .tl ((Request.handle statics ⟨draws, conn, session, .getHistory req⟩).exec site.world).1
  | .dialogs draws conn session =>
    .tl ((Request.handle statics ⟨draws, conn, session, .getDialogs {}⟩).exec site.world).1
  | .httpHistory ip draws query => .http (handleHttp ip draws (.history query) site).1
  | .httpChats ip draws => .http (handleHttp ip draws .chats site).1

end Answers

end Read

section Runs

variable [Platform] [Bcrypt] (statics : Statics)

/-- The answers to one request after the other. -/
def answers : List Read → Site → List Answer
  | [], _ => []
  | r :: rs, site => r.answer statics site :: answers rs (site.exec statics r.input).2

/-- Each request is blind when its turn comes. -/
def AllBlind (d : Int64) : List Read → Site → Prop
  | [], _ => True
  | r :: rs, site => r.Blind d site ∧ AllBlind d rs (site.exec statics r.input).2

end Runs

/-! ### The rows of one dialog -/

theorem historyRows_eq (db : Database) (dialogId : Int64) (offset limit : Int32) :
    db.historyRows dialogId offset limit = Database.page limit offset
      (((messagesOf db dialogId).filter fun m => !m.deleted).mergeSort
        fun m m' => m'.timestamp ≤ m.timestamp) := by
  unfold Database.historyRows messagesOf
  rw [List.filter_filter]
  simp only [Bool.and_comm]

theorem lastTimestamp_eq (db : Database) (dialogId : Int64) :
    db.lastTimestamp dialogId = ((messagesOf db dialogId).map MessageRow.timestamp).max? := rfl

theorem page_zero {α : Type} (offset : Int32) (rows : List α) :
    Database.page 0 offset rows = [] := by
  unfold Database.page
  rw [if_neg (by decide)]
  exact List.take_zero

/-- A page is empty if it is for no rows, or starts after the last one. -/
theorem page_eq_nil_iff {α : Type} (limit offset : Int32) (rows : List α) :
    Database.page limit offset rows = [] ↔ limit = 0 ∨ rows.length ≤ offset.toInt.toNat := by
  unfold Database.page
  have hzero : limit = 0 ↔ limit.toInt = 0 := by
    rw [← Int32.toInt_inj]
    rfl
  have hneg : limit < 0 ↔ limit.toInt < 0 := Int32.lt_iff_toInt_lt
  dsimp only
  by_cases h : limit < 0
  · rw [if_pos h, List.drop_eq_nil_iff, hzero]
    have := hneg.mp h
    omega
  · rw [if_neg h, List.take_eq_nil_iff, List.drop_eq_nil_iff, hzero]
    have := mt hneg.mpr h
    omega

namespace DifferOnly

theorem historyRows (h : DifferOnly d db db') (hne : dialogId ≠ d) :
    db'.historyRows dialogId offset limit = db.historyRows dialogId offset limit := by
  rw [historyRows_eq, historyRows_eq, h.others dialogId hne]

theorem info (h : DifferOnly d db db') (dialogId u : Int64) :
    db'.info dialogId u = db.info dialogId u := by
  rw [h.tables]
  rfl

/-- A dialog the user is not in has no part in the order of their dialogs. -/
theorem dialogIds (h : DifferOnly d db db') {u : Int64} (hu : db.hasParticipant d u = false) :
    db'.dialogIds u = db.dialogIds u := by
  have hdialogs : db'.dialogsOf u = db.dialogsOf u := by
    rw [h.tables]
    rfl
  unfold Database.dialogIds
  rw [hdialogs]
  refine congrArg (List.map DialogRow.id) ?_
  have hlast : ∀ dialog ∈ db.dialogsOf u,
      db'.lastTimestamp dialog.id = db.lastTimestamp dialog.id := by
    intro dialog hdialog
    have hmember := (mem_dialogsOf.mp hdialog).2
    rw [lastTimestamp_eq, lastTimestamp_eq, h.others]
    rintro rfl
    rw [hu] at hmember
    cases hmember
  have hsort := List.map_mergeSort (f := fun dialog : DialogRow => dialog)
    (r := fun d d' => Database.descending (db'.lastTimestamp d.id) (db'.lastTimestamp d'.id))
    (s := fun d d' => Database.descending (db.lastTimestamp d.id) (db.lastTimestamp d'.id))
    fun a ha b hb => by rw [hlast a ha, hlast b hb]
  rwa [List.map_id', List.map_id'] at hsort

end DifferOnly

/-- The same tables with other messages in one dialog. -/
def withRows (db : Database) (d : Int64) (rows : List MessageRow) : Database :=
  { db with messages := db.messages.filter (fun m => m.dialogId != d) ++ rows }

theorem messagesOf_withRows {rows : List MessageRow} (h : ∀ m ∈ rows, m.dialogId = d)
    (dialogId : Int64) :
    messagesOf (withRows db d rows) dialogId =
      if dialogId = d then rows else messagesOf db dialogId := by
  unfold messagesOf withRows
  rw [List.filter_append, List.filter_filter]
  by_cases hd : dialogId = d
  · subst hd
    rw [if_pos rfl, List.filter_eq_nil_iff.mpr fun m _ => by simp,
      List.filter_eq_self.mpr fun m hm => beq_iff_eq.mpr (h m hm), List.nil_append]
  · rw [if_neg hd]
    have hrows : rows.filter (fun m => m.dialogId == dialogId) = [] := by
      rw [List.filter_eq_nil_iff]
      intro m hm heq
      exact hd (beq_iff_eq.mp heq ▸ h m hm)
    rw [hrows, List.append_nil]
    refine List.filter_congr fun m _ => ?_
    by_cases hm : m.dialogId = dialogId
    · simp [hm, hd]
    · simp [hm]

theorem differOnly_withRows {rows : List MessageRow} (h : ∀ m ∈ rows, m.dialogId = d) :
    DifferOnly d db (withRows db d rows) where
  tables := rfl
  others dialogId hne := (messagesOf_withRows h dialogId).trans (if_neg hne)

/-- A message that is only there to be counted. -/
def filler (d : Int64) : MessageRow :=
  ⟨0, d, 0, "", 0, true, false, false, none, none, none, false⟩

/-- A page that is for any rows at all is empty for some messages and is not for others. -/
theorem exists_differOnly (db : Database) (offset : Int32) (hlimit : limit ≠ 0) :
    ∃ db', DifferOnly d db db' ∧
    ¬ (db'.historyRows d offset limit = [] ↔ db.historyRows d offset limit = []) := by
  by_cases hempty : db.historyRows d offset limit = []
  · let rows := List.replicate (offset.toInt.toNat + 1) (filler d)
    have hrows : ∀ m ∈ rows, m.dialogId = d := fun m hm => by rw [List.eq_of_mem_replicate hm]; rfl
    refine ⟨withRows db d rows, differOnly_withRows hrows, fun h => ?_⟩
    have hpage := h.mpr hempty
    rw [historyRows_eq, page_eq_nil_iff, messagesOf_withRows hrows, if_pos rfl,
      List.length_mergeSort, List.filter_eq_self.mpr fun m hm => by
        rw [List.eq_of_mem_replicate hm]; rfl, List.length_replicate] at hpage
    rcases hpage with hzero | hle
    · exact hlimit hzero
    · exact absurd hle (by omega)
  · have hrows : ∀ m ∈ ([] : List MessageRow), m.dialogId = d := nofun
    refine ⟨withRows db d [], differOnly_withRows hrows, fun h => hempty (h.mp ?_)⟩
    rw [historyRows_eq, page_eq_nil_iff, messagesOf_withRows hrows, if_pos rfl]
    exact Or.inr (by rw [List.length_mergeSort]; exact Nat.zero_le _)

/-! ### One request -/

section Reading

variable [Platform] [Bcrypt] (statics : Statics) {site : Site}

omit [Platform] [Bcrypt] in
/-- A history of no messages is written differently from any other. -/
theorem historyOf_writeBoxed_ne {rows rows' : List MessageRow} {chatId : ChatId}
    (h : ¬ (rows' = [] ↔ rows = [])) :
      (TlObject.historyResult (historyOf rows' chatId)).writeBoxed ≠
      (TlObject.historyResult (historyOf rows chatId)).writeBoxed := by
  intro hsame
  have hlen := congrArg List.length hsame
  rw [length_historyResult, length_historyResult] at hlen
  have hsize (rows : List MessageRow) : rows ≠ [] →
      0 < ((historyOf rows chatId).messages.map fun m => messageSize m.text).sum := by
    intro hne
    cases rows with
    | nil => exact absurd rfl hne
    | cons row rows =>
      simp only [historyOf, List.map_cons, List.sum_cons, messageSize]
      omega
  have hnil : ((historyOf [] chatId).messages.map fun m => messageSize m.text).sum = 0 := rfl
  apply h
  constructor
  · rintro rfl
    by_contra hne
    have := hsize rows hne
    omega
  · rintro rfl
    by_contra hne
    have := hsize rows' hne
    omega

omit [Platform] [Bcrypt] in
theorem requester_withDb {db' : Database} (h : DifferOnly d site.db db') (session : Option Int64) :
    requester (site.withDb db').world session = requester site.world session := by
  have hsessions : db'.sessions = site.db.sessions := by rw [h.tables]
  cases session with
  | none => rfl
  | some id =>
    change (db'.sessions id).map _ = (site.db.sessions id).map _
    rw [hsessions]

theorem answer_history (draws : Draws) (conn : ConnId) (session : Option Int64) (req : GetHistory)
    (site : Site) : Read.answer statics site (.history draws conn session req) =
      .tl ((requester site.world session).elim (.error (refusal session)) fun _ =>
        .ok (some (TlObject.historyResult (historyOf (site.db.historyRows req.chatId.val
          req.offset req.limit) req.chatId)).writeBoxed)) := by
  change Answer.tl ((handleGetHistory session req).exec site.world).1 = _
  rw [exec_handleGetHistory]
  cases requester site.world session <;> rfl

theorem answer_dialogs (draws : Draws) (conn : ConnId) (session : Option Int64) (site : Site) :
    Read.answer statics site (.dialogs draws conn session) =
      .tl ((requester site.world session).elim (.error (refusal session)) fun u =>
        .ok (some (TlObject.dialogList ⟨(site.db.dialogIds u).map fun d =>
          site.db.info d u⟩).writeBoxed)) := by
  change Answer.tl ((handleGetDialogs session).exec site.world).1 = _
  rw [exec_handleGetDialogs]
  cases requester site.world session <;> rfl

omit [Platform] [Bcrypt] in
theorem getHistory_eq (query : GetHistoryQuery) (db : Database) : Web.getHistory query db =
    ⟨200, .messages ((db.historyRows query.chatId (query.offset.getD 0)
      (query.limit.getD 50)).map messageItem)⟩ := rfl

theorem answer_httpHistory (ip : String) (draws : HttpDraws) (query : GetHistoryQuery)
    (site : Site) : Read.answer statics site (.httpHistory ip draws query) =
      .http (match (site.httpLimiter.check ip draws.instant).1 with
        | .ok _ => Web.getHistory query site.db
        | .error e => ⟨429, .text e⟩) := by
  change Answer.http (handleHttp ip draws (.history query) site).1 = _
  unfold handleHttp
  cases site.httpLimiter.check ip draws.instant with
  | mk verdict limiter => cases verdict <;> rfl

theorem answer_httpChats (ip : String) (draws : HttpDraws) (site : Site) :
    Read.answer statics site (.httpChats ip draws) =
      .http (match (site.httpLimiter.check ip draws.instant).1 with
        | .ok _ => getChats
        | .error e => ⟨429, .text e⟩) := by
  change Answer.http (handleHttp ip draws .chats site).1 = _
  unfold handleHttp
  cases site.httpLimiter.check ip draws.instant with
  | mk verdict limiter => cases verdict <;> rfl

variable {statics} {r : Read}

/-- Nothing is learnt from a blind request. -/
theorem answer_of_blind (houtside : r.Outside d site) (hblind : r.Blind d site)
    (h : DifferOnly d site.db db') : r.answer statics (site.withDb db') =
      r.answer statics site := by
  cases r with
  | history draws conn session req =>
    rw [answer_history, answer_history, requester_withDb h]
    rcases hblind with hnobody | hother | hzero
    · rw [hnobody]
      rfl
    · rw [Site.withDb_db, h.historyRows hother]
    · rw [hzero, Site.withDb_db, historyRows_eq, historyRows_eq, page_zero, page_zero]
  | dialogs draws conn session =>
    rw [answer_dialogs, answer_dialogs, requester_withDb h]
    cases hwho : requester site.world session with
    | none => rfl
    | some u =>
      rw [Site.withDb_db, Option.elim_some, Option.elim_some, h.dialogIds (houtside u hwho)]
      simp only [h.info]
  | httpHistory ip draws query =>
    rw [answer_httpHistory, answer_httpHistory]
    change Answer.http (match (site.httpLimiter.check ip draws.instant).1 with
      | .ok _ => Web.getHistory query db'
      | .error e => ⟨429, .text e⟩) = _
    cases hcheck : (site.httpLimiter.check ip draws.instant).1 with
    | error e => rfl
    | ok _ =>
      rcases hblind with hrefused | hother | hzero
      · exact absurd hcheck hrefused
      · rw [getHistory_eq, getHistory_eq, h.historyRows hother]
      · rw [getHistory_eq, getHistory_eq, hzero, historyRows_eq, historyRows_eq,
          page_zero, page_zero]
  | httpChats ip draws =>
    rw [answer_httpChats, answer_httpChats]
    rfl

/-- From a request that is not blind something is learnt. -/
theorem exists_answer_ne (hblind : ¬ r.Blind d site) :
    ∃ db', DifferOnly d site.db db' ∧ r.answer statics (site.withDb db') ≠
      r.answer statics site := by
  cases r with
  | history draws conn session req =>
    obtain ⟨hsome, hrest⟩ := not_or.mp hblind
    obtain ⟨hd, hlimit⟩ := not_or.mp hrest
    obtain ⟨u, hu⟩ := Option.ne_none_iff_exists'.mp hsome
    obtain ⟨db', hdiffer, hne⟩ := exists_differOnly site.db req.offset hlimit
    refine ⟨db', hdiffer, fun hsame => ?_⟩
    rw [answer_history, answer_history, requester_withDb hdiffer, hu, not_not.mp hd] at hsame
    simp only [Option.elim_some, Answer.tl.injEq, Except.ok.injEq, Option.some.injEq] at hsame
    exact historyOf_writeBoxed_ne hne hsame
  | httpHistory ip draws query =>
    obtain ⟨hallowed, hrest⟩ := not_or.mp hblind
    obtain ⟨hd, hlimit⟩ := not_or.mp hrest
    obtain ⟨db', hdiffer, hne⟩ :=
      exists_differOnly site.db (query.offset.getD 0) hlimit
    refine ⟨db', hdiffer, fun hsame => ?_⟩
    rw [answer_httpHistory, answer_httpHistory] at hsame
    change Answer.http (match (site.httpLimiter.check ip draws.instant).1 with
      | .ok _ => Web.getHistory query db'
      | .error e => ⟨429, .text e⟩) = _ at hsame
    rw [not_not.mp hallowed] at hsame
    simp only [getHistory_eq, not_not.mp hd, Answer.http.injEq, HttpResponse.mk.injEq, true_and,
      Body.messages.injEq] at hsame
    apply hne
    rw [← List.map_eq_nil_iff (f := messageItem), hsame, List.map_eq_nil_iff]
  | _ => exact absurd trivial hblind

variable (statics)

omit statics in
/-- A request that is no login leaves only a reading of the clock behind. -/
theorem handleHttp_of_read (req : HttpRequest) (h : ∀ login, req ≠ .login login) (ip : String)
    (draws : HttpDraws) (site : Site) : (handleHttp ip draws req site).2 =
      { site with httpLimiter := (site.httpLimiter.check ip draws.instant).2 } := by
  unfold handleHttp
  cases site.httpLimiter.check ip draws.instant with
  | mk verdict limiter =>
    cases verdict with
    | error e => rfl
    | ok _ =>
      cases req with
      | login login => exact absurd rfl (h login)
      | chats => rfl
      | history query => rfl

/-- Reading leaves everything as it is but the limiter, whatever the tables are. -/
theorem exec_read (r : Read) (site : Site) : ∃ httpLimiter, ∀ db,
    ((site.withDb db).exec statics r.input).2 = { site with httpLimiter }.withDb db := by
  cases r with
  | history draws conn session req =>
    refine ⟨site.httpLimiter, fun db => ?_⟩
    change { site.withDb db with
      world := ((handleGetHistory session req).exec (site.withDb db).world).2 } = _
    rw [exec_handleGetHistory]
    cases requester (site.withDb db).world session <;> rfl
  | dialogs draws conn session =>
    refine ⟨site.httpLimiter, fun db => ?_⟩
    change { site.withDb db with
      world := ((handleGetDialogs session).exec (site.withDb db).world).2 } = _
    rw [exec_handleGetDialogs]
    cases requester (site.withDb db).world session <;> rfl
  | httpHistory ip draws query =>
    refine ⟨(site.httpLimiter.check ip draws.instant).2, fun db => ?_⟩
    exact handleHttp_of_read (.history query) (by rintro _ ⟨⟩) ip draws (site.withDb db)
  | httpChats ip draws =>
    refine ⟨(site.httpLimiter.check ip draws.instant).2, fun db => ?_⟩
    exact handleHttp_of_read .chats (by rintro _ ⟨⟩) ip draws (site.withDb db)

/-- Readers outside a dialog get the same answers whatever its messages are, just when each
request for a history of that dialog is refused or asks for nothing. -/
theorem reads_alike_iff (reads : List Read) (site : Site)
    (houtside : ∀ r ∈ reads, r.Outside d site) :
    (∀ db', DifferOnly d site.db db' →
      answers statics reads (site.withDb db') = answers statics reads site) ↔
    AllBlind statics d reads site := by
  induction reads generalizing site with
  | nil => exact ⟨fun _ => trivial, fun _ _ _ => rfl⟩
  | cons r rs ih =>
    obtain ⟨httpLimiter, hexec⟩ := exec_read statics r site
    have hsite : (site.exec statics r.input).2 = { site with httpLimiter } := hexec site.db
    have hrest : ∀ r' ∈ rs, r'.Outside d { site with httpLimiter } := by
      intro r' hr'
      have := houtside r' (List.mem_cons_of_mem _ hr')
      cases r' <;> exact this
    specialize ih { site with httpLimiter } hrest
    simp only [answers, AllBlind, hsite, hexec, List.cons.injEq]
    constructor
    · intro h
      refine ⟨?_, ih.mp fun db' hdiffer => (h db' hdiffer).2⟩
      by_contra hblind
      obtain ⟨db', hdiffer, hne⟩ : ∃ db', DifferOnly d site.db db' ∧
          r.answer statics (site.withDb db') ≠ r.answer statics site := exists_answer_ne hblind
      exact hne (h db' hdiffer).1
    · rintro ⟨hblind, hall⟩ db' hdiffer
      exact ⟨answer_of_blind (houtside r (List.mem_cons_self ..)) hblind hdiffer,
        ih.mpr hall db' hdiffer⟩

end Reading

namespace Demo

/-- User 0 has written to dialog 1, their own group; then user 1 signs up. -/
def writtenGroup : List Input :=
  Sample.exchanging.map .tl ++ [tl (.createGroup ⟨"g", []⟩),
    tl (.sendMessage ⟨⟨1⟩, "secret", 0⟩), tl (.signUp ⟨"1", "secret"⟩)]

def draws : HttpDraws := ⟨0, Vector.replicate 16 0, fun _ => none⟩

/-- Anybody can ask for the history of any dialog. -/
def snooping : List Read := [.httpHistory "192.0.2.1" draws ⟨1, none, none⟩]

/-- Neither of these is about the history of dialog 1. -/
def elsewhere : List Read :=
  [.dialogs (Sample.draws 0).handler 0 (some Sample.id),
    .httpHistory "192.0.2.1" draws ⟨2, none, none⟩]

end Demo

/-- What user 0 has written, a peer without an identity reads. -/
theorem not_reads_alike : ¬ ∀ (_ : Platform) (_ : Bcrypt) (statics : Statics) (site : Site)
    (db' : Database) (d : Int64) (reads : List Read), DifferOnly d site.db db' →
    (∀ r ∈ reads, r.Outside d site) →
    answers statics reads (site.withDb db') = answers statics reads site := by
  intro h
  have hsame := h Sample.platform Demo.bcrypt Sample.statics (Demo.after Demo.writtenGroup)
    (withRows (Demo.after Demo.writtenGroup).db 1 []) 1 Demo.snooping
    (differOnly_withRows fun _ hm => nomatch hm)
    (fun r hr => by cases List.mem_singleton.mp hr; trivial)
  exact absurd hsame (by decide +kernel)

/-- User 1 asks for their own dialogs, a peer for another history. -/
theorem reads_alike_elsewhere : let _ := Sample.platform
    let _ := Demo.bcrypt
    let site := Demo.after Demo.writtenGroup
    (∀ db', DifferOnly 1 site.db db' → answers Sample.statics Demo.elsewhere (site.withDb db') =
      answers Sample.statics Demo.elsewhere site) ↔
    AllBlind Sample.statics 1 Demo.elsewhere site := by
  have hwho : requester (Demo.after Demo.writtenGroup).world (some Sample.id) = some 1 := by
    decide +kernel
  refine @reads_alike_iff 1 Sample.platform Demo.bcrypt Sample.statics Demo.elsewhere
    (Demo.after Demo.writtenGroup) fun r hr => ?_
  rcases List.mem_pair.mp hr with rfl | rfl
  · intro u hu
    cases hwho.symm.trans hu
    decide +kernel
  · trivial

end KoSta.Web
