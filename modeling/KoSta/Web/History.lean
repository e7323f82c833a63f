import Mathlib.Order.Basic
import KoSta.Web.Reads

/-! What the history of a dialog tells the user who asks for it. -/
namespace KoSta.Web
open Lib Lib.Prog Tl KoSta.Server

variable {db : Database} {d u : Int64}

/-! ### A page of the history -/

/-- The messages of a dialog that are not deleted. -/
def live (db : Database) (dialogId : Int64) : List MessageRow :=
  (messagesOf db dialogId).filter fun m => !m.deleted

/-- The answer to a history request, before it is written. -/
def history (db : Database) (req : GetHistory) : HistoryResult :=
  historyOf (db.historyRows req.chatId.val req.offset req.limit) req.chatId

/-- The answer is a page of the dialog, latest messages first, that tells the user's own messages
from the others and counts all there are. -/
structure Tells (db : Database) (u : Int64) (req : GetHistory) (result : HistoryResult) :
    Prop where
  slice : ∃ sorted : List MessageRow, sorted.Perm (live db req.chatId.val) ∧
    sorted.Pairwise (fun m m' => m'.timestamp ≤ m.timestamp) ∧
    result.messages.map (fun m => (m.id.val, m.senderId.val, m.text, m.timestamp)) =
      ((sorted.drop req.offset.toInt.toNat).take req.limit.toInt.toNat).map
        fun m => (m.id, m.senderId, m.text, m.timestamp)
  outgoing : ∀ m ∈ result.messages, m.isOutgoing = true ↔ m.senderId.val = u
  total : result.totalCount.toInt = (live db req.chatId.val).length

/-- The user's own messages fill the dialog, and the page has them all. -/
def AllOwn (db : Database) (u : Int64) (req : GetHistory) : Prop :=
  live db req.chatId.val = [] ∨ req.offset = 0 ∧
    ((live db req.chatId.val).length : Int) ≤ req.limit.toInt ∧
    ∀ m ∈ live db req.chatId.val, m.senderId = u

/-- All the messages of the dialog in the order of the pages. -/
def latestFirst (db : Database) (dialogId : Int64) : List MessageRow :=
  (live db dialogId).mergeSort fun m m' => m'.timestamp ≤ m.timestamp

theorem perm_latestFirst (db : Database) (d : Int64) : (latestFirst db d).Perm (live db d) :=
  List.mergeSort_perm _ _

theorem pairwise_latestFirst (db : Database) (d : Int64) :
    (latestFirst db d).Pairwise fun m m' => m'.timestamp ≤ m.timestamp := by
  have h : (latestFirst db d).Pairwise fun m m' => decide (m'.timestamp ≤ m.timestamp) = true := by
    apply List.pairwise_mergeSort
    · intro a b c hab hbc
      have hab := of_decide_eq_true hab
      have hbc := of_decide_eq_true hbc
      exact decide_eq_true (Int64.le_trans hbc hab)
    · intro a b
      rcases Int64.le_total a.timestamp b.timestamp with h | h
      · simp [h]
      · simp [h]
  exact h.imp of_decide_eq_true

variable {req : GetHistory}

theorem historyRows_of_nonneg (hlimit : 0 ≤ req.limit) :
    db.historyRows req.chatId.val req.offset req.limit =
      ((latestFirst db req.chatId.val).drop req.offset.toInt.toNat).take req.limit.toInt.toNat := by
  rw [historyRows_eq]
  exact if_neg (Int32.not_lt.mpr hlimit)

/-- A page has all rows there are only if there are none or it starts with the first. -/
theorem length_page_eq_iff {α : Type} (offset limit : Nat) (rows : List α) :
    ((rows.drop offset).take limit).length = rows.length ↔
      rows = [] ∨ offset = 0 ∧ rows.length ≤ limit := by
  rw [List.length_take, List.length_drop, ← List.length_eq_zero_iff]
  omega

theorem toInt_totalCount (hlimit : 0 ≤ req.limit) :
    (history db req).totalCount.toInt =
      (db.historyRows req.chatId.val req.offset req.limit).length := by
  have hrows : db.historyRows req.chatId.val req.offset req.limit = _ :=
    historyRows_of_nonneg hlimit
  have hle := List.length_take_le req.limit.toInt.toNat
    ((latestFirst db req.chatId.val).drop req.offset.toInt.toNat)
  have hlt := req.limit.toInt_lt
  have hpos : 0 ≤ req.limit.toInt := Int32.le_iff_toInt_le.mp hlimit
  unfold history historyOf
  rw [List.length_map]
  rw [hrows] at *
  rw [Int32.toInt_ofNat_of_lt]
  omega

theorem mem_live {m : MessageRow} (h : m ∈ live db d) : m ∈ db.messages :=
  (List.mem_filter.mp (List.mem_filter.mp h).1).1

/-- The count is right for the pages that have all rows. -/
theorem total_iff (hoffset : 0 ≤ req.offset) (hlimit : 0 ≤ req.limit) :
    (history db req).totalCount.toInt = (live db req.chatId.val).length ↔
      live db req.chatId.val = [] ∨ req.offset = 0 ∧
        ((live db req.chatId.val).length : Int) ≤ req.limit.toInt := by
  have hoffset' : 0 ≤ req.offset.toInt := Int32.le_iff_toInt_le.mp hoffset
  have hlimit' : 0 ≤ req.limit.toInt := Int32.le_iff_toInt_le.mp hlimit
  have hzero : req.offset = 0 ↔ req.offset.toInt = 0 := Int32.toInt_inj.symm
  have hlen := (perm_latestFirst db req.chatId.val).length_eq
  have hpage := length_page_eq_iff req.offset.toInt.toNat req.limit.toInt.toNat
    (latestFirst db req.chatId.val)
  rw [← historyRows_of_nonneg hlimit, ← List.length_eq_zero_iff, hlen] at hpage
  rw [toInt_totalCount hlimit, hzero, ← List.length_eq_zero_iff]
  omega

/-- Every stored message is marked as outgoing, which is right for the user's own ones. -/
theorem outgoing_iff (hmarked : ∀ m ∈ db.messages, m.isOutgoing = true) (hlimit : 0 ≤ req.limit) :
    (∀ m ∈ (history db req).messages, m.isOutgoing = true ↔ m.senderId.val = u) ↔
      ∀ m ∈ db.historyRows req.chatId.val req.offset req.limit, m.senderId = u := by
  have hmark : ∀ m ∈ db.historyRows req.chatId.val req.offset req.limit, m.isOutgoing = true := by
    rw [historyRows_of_nonneg hlimit]
    intro m hm
    have hlatest := List.mem_of_mem_drop (List.mem_of_mem_take hm)
    exact hmarked m (mem_live ((perm_latestFirst db _).mem_iff.mp hlatest))
  unfold history historyOf
  rw [List.forall_mem_map]
  refine forall₂_congr fun m hm => ?_
  exact ⟨fun h => h.mp (hmark m hm), fun h => ⟨fun _ => h, fun _ => hmark m hm⟩⟩

theorem slice_history (db : Database) (hlimit : 0 ≤ req.limit) :
    ∃ sorted : List MessageRow, sorted.Perm (live db req.chatId.val) ∧
      sorted.Pairwise (fun m m' => m'.timestamp ≤ m.timestamp) ∧
      (history db req).messages.map (fun m => (m.id.val, m.senderId.val, m.text, m.timestamp)) =
        ((sorted.drop req.offset.toInt.toNat).take req.limit.toInt.toNat).map
          fun m => (m.id, m.senderId, m.text, m.timestamp) := by
  refine ⟨latestFirst db req.chatId.val, perm_latestFirst _ _, pairwise_latestFirst _ _, ?_⟩
  rw [← historyRows_of_nonneg hlimit]
  unfold history historyOf
  rw [List.map_map]
  rfl

theorem tells_iff_allOwn (hmarked : ∀ m ∈ db.messages, m.isOutgoing = true)
    (hoffset : 0 ≤ req.offset) (hlimit : 0 ≤ req.limit) :
    Tells db u req (history db req) ↔ AllOwn db u req := by
  have hrows : db.historyRows req.chatId.val req.offset req.limit = _ :=
    historyRows_of_nonneg hlimit
  have hperm := perm_latestFirst db req.chatId.val
  constructor
  · intro h
    rcases (total_iff hoffset hlimit).mp h.total with hnone | ⟨hfirst, hall⟩
    · exact .inl hnone
    · refine .inr ⟨hfirst, hall, fun m hm => (outgoing_iff hmarked hlimit).mp h.outgoing m ?_⟩
      have hlen := hperm.length_eq
      rw [hrows, hfirst]
      change m ∈ List.take _ (latestFirst db req.chatId.val)
      rw [List.take_of_length_le (by omega)]
      exact hperm.mem_iff.mpr hm
  · intro h
    refine ⟨slice_history db hlimit, (outgoing_iff hmarked hlimit).mpr fun m hm => ?_, ?_⟩
    · rw [hrows] at hm
      have hmem := hperm.mem_iff.mp (List.mem_of_mem_drop (List.mem_of_mem_take hm))
      rcases h with hnone | ⟨-, -, hown⟩
      · rw [hnone] at hmem
        exact (List.not_mem_nil hmem).elim
      · exact hown m hmem
    · exact (total_iff hoffset hlimit).mpr (h.imp id fun h => ⟨h.1, h.2.1⟩)

/-! ### Every message is marked -/

theorem messages_saveMessage {dialogId senderId timestamp : Int64} {text : String}
    {mediaPath mediaType : Option String} {result : Except SqlError Int64} {db' : Database}
    (h : Database.saveMessage dialogId senderId text timestamp true mediaPath mediaType db =
      (result, db')) (hmarked : ∀ m ∈ db.messages, m.isOutgoing = true) :
    ∀ m ∈ db'.messages, m.isOutgoing = true := by
  unfold Database.saveMessage at h
  split at h
  · cases h
    exact hmarked
  · split at h
    · cases h
      intro m hm
      rcases List.mem_append.mp hm with hm | hm
      · exact hmarked m hm
      · cases List.mem_singleton.mp hm
        rfl
    · cases h
      exact hmarked

theorem marked_applied (draws : Draws) (w : World) (u : Int64) (obj : TlObject)
    (hmarked : ∀ m ∈ w.state.db.messages, m.isOutgoing = true) :
    ∀ m ∈ (applied draws w u obj).messages, m.isOutgoing = true := by
  rcases messages_applied draws w u obj with ⟨req, rfl⟩ | ⟨req, rfl⟩ | ⟨hsame, -⟩
  · exact messages_saveMessage rfl hmarked
  · intro m hm
    obtain ⟨m₀, hm₀, rfl⟩ := List.mem_map.mp hm
    have hmark := hmarked m₀ hm₀
    split
    · exact hmark
    · exact hmark
  · rw [hsame]
    exact hmarked

section Runs

variable [Platform] [Bcrypt] {statics : Statics} {site : Site}

omit [Bcrypt] in
theorem marked_request (request : Request) (w : World)
    (hmarked : ∀ m ∈ w.state.db.messages, m.isOutgoing = true) :
    ∀ m ∈ (request.exec statics w).state.db.messages, m.isOutgoing = true := by
  obtain ⟨draws, conn, session, obj⟩ := request
  rcases db_handleRequest statics draws conn session obj w with ⟨req, rfl⟩ | ⟨req, rfl⟩ | heq
  · change ∀ m ∈ ((handleSignUp draws conn session req).exec w).2.state.db.messages, _
    rw [(sameContent_handleSignUp draws conn session req w).messages]
    exact hmarked
  · change ∀ m ∈ ((handleSetClientDhParams statics draws conn req).exec w).2.state.db.messages, _
    rw [(sameContent_handleSetClientDhParams statics draws conn req w).messages]
    exact hmarked
  · rw [Request.exec, heq]
    cases requester w session with
    | none => exact hmarked
    | some u => exact marked_applied draws w u obj hmarked

theorem marked_exec (input : Input) (hmarked : ∀ m ∈ site.db.messages, m.isOutgoing = true) :
    ∀ m ∈ (site.exec statics input).2.db.messages, m.isOutgoing = true := by
  cases input with
  | connect => exact hmarked
  | ws addr message clock =>
    cases hactor : site.actors addr with
    | none =>
      rw [exec_ws_none statics hactor]
      exact hmarked
    | some actor =>
      have hdoes := exec_ws_some statics hactor message clock
      generalize site.exec statics (.ws addr message clock) = outcome at hdoes
      cases hdoes with
      | refuse limiter hsent hauths => exact hmarked
      | authenticate hauths hstatus =>
        change ∀ m ∈ (Database.setUserStatus _ 0 site.db).2.messages, m.isOutgoing = true
        rw [messages_setUserStatus]
        exact hmarked
      | subscribe hsubscribes huser hmember => exact hmarked
      | store limiter hsends huser hmember hsave => exact messages_saveMessage hsave hmarked
      | stop hauths =>
        obtain ⟨statuses, heq⟩ := stopped_eq actor addr site
        rw [heq]
        exact hmarked
  | disconnect addr =>
    rcases exec_disconnect statics site addr with heq | ⟨actor, statuses, -, heq⟩
    · rw [heq]
      exact hmarked
    · rw [heq]
      exact hmarked
  | http ip draws req =>
    obtain ⟨limiter, users, -, heq⟩ := handleHttp_site ip draws req site
    change ∀ m ∈ (handleHttp ip draws req site).2.db.messages, m.isOutgoing = true
    rw [heq]
    exact hmarked
  | tl request => exact marked_request request site.world hmarked

theorem Site.Reachable.marked (h : Site.Reachable statics site) :
    ∀ m ∈ site.db.messages, m.isOutgoing = true := by
  refine Site.Runs.invariant statics (P := fun site => ∀ m ∈ site.db.messages, m.isOutgoing = true)
    nofun (fun site input hmarked _ => marked_exec input hmarked) ?_ h
  intro site w' hmarked helse
  change ∀ m ∈ w'.state.db.messages, m.isOutgoing = true
  rw [helse.content.messages]
  exact hmarked

/-- A history request of a user is answered, and the answer tells what it should just when the
dialog has the user's own messages only and all of them are on the page. -/
theorem history_tells_iff (h : Site.Reachable statics site) (draws : Draws) (conn : ConnId)
    {session : Option Int64} (huser : requester site.world session = some u)
    (hoffset : 0 ≤ req.offset) (hlimit : 0 ≤ req.limit) :
    ((Request.handle statics ⟨draws, conn, session, .getHistory req⟩).exec site.world).1 =
      .ok (some (TlObject.historyResult (history site.db req)).writeBoxed) ∧
    (Tells site.db u req (history site.db req) ↔ AllOwn site.db u req) := by
  constructor
  · change ((handleGetHistory session req).exec site.world).1 = _
    rw [exec_handleGetHistory, huser]
    rfl
  · exact tells_iff_allOwn h.marked hoffset hlimit

end Runs

namespace Demo

/-- User 0 writes twice to a dialog of their own. -/
def twoMessages : List Input :=
  Sample.exchanging.map .tl ++ [tl (.createGroup ⟨"g", []⟩), tl (.sendMessage ⟨⟨1⟩, "a", 0⟩),
    tl (.sendMessage ⟨⟨1⟩, "b", 0⟩)]

/-- Then user 1 signs up in their place. -/
def otherReader : List Input := twoMessages ++ [tl (.signUp ⟨"1", "secret"⟩)]

end Demo

theorem history_tells_iff_twoMessages : let _ := Sample.platform
    let req : GetHistory := ⟨⟨1⟩, 0, 10⟩
    ((Request.handle Sample.statics ⟨(Sample.draws 0).handler, 0, some Sample.id,
      .getHistory req⟩).exec (Demo.after Demo.twoMessages).world).1 =
      .ok (some (TlObject.historyResult
        (history (Demo.after Demo.twoMessages).db req)).writeBoxed) ∧
    (Tells (Demo.after Demo.twoMessages).db 0 req (history (Demo.after Demo.twoMessages).db req) ↔
      AllOwn (Demo.after Demo.twoMessages).db 0 req) :=
  @history_tells_iff 0 ⟨⟨1⟩, 0, 10⟩ Sample.platform Demo.bcrypt Sample.statics _
    (Demo.reachable_after Demo.twoMessages) (Sample.draws 0).handler 0 (some Sample.id)
    (by decide +kernel) (by decide) (by decide)

/-- One of the two messages, both of them of user 0, is asked for by user 1. -/
theorem not_history_tells : ¬ ∀ (_ : Platform) (_ : Bcrypt) (statics : Statics) (site : Site)
    (draws : Draws) (conn : ConnId) (session : Option Int64) (u : Int64) (req : GetHistory),
    Site.Reachable statics site → requester site.world session = some u → 0 ≤ req.offset →
    0 ≤ req.limit →
    ((Request.handle statics ⟨draws, conn, session, .getHistory req⟩).exec site.world).1 =
      .ok (some (TlObject.historyResult (history site.db req)).writeBoxed) ∧
    Tells site.db u req (history site.db req) := by
  intro h
  have hreach := Demo.reachable_after Demo.otherReader
  obtain ⟨-, htells⟩ := h Sample.platform Demo.bcrypt Sample.statics _ (Sample.draws 0).handler 0
    (some Sample.id) 1 ⟨⟨1⟩, 0, 1⟩ hreach (by decide +kernel) (by decide) (by decide)
  have hmarked := @Site.Reachable.marked Sample.platform Demo.bcrypt Sample.statics _ hreach
  rcases (tells_iff_allOwn hmarked (by decide) (by decide)).mp htells with hnone | ⟨-, -, hown⟩
  · exact absurd hnone (by decide +kernel)
  · exact absurd hown (by decide +kernel)

end KoSta.Web
