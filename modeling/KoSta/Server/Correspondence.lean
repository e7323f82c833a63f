import KoSta.Server.Replays

/-! Responses and the messages they answer, on connections that are served at the same time. -/
namespace KoSta.Server
open Lib Lib.Prog Tl Crypto Function

variable {conn c : ConnId} {ph ph' : Phase} {w w' : World} {id msgId : Int64} {counter : UInt32}
  {trace : List Event}

/-! ### The way of a message -/

/-- A connection has got on with a message of a session. -/
def Event.marks (conn : ConnId) : Event → Bool
  | .passed c _ _ _ | .accepted c _ _ | .dispatched c (some _) _ | .reserved c _ _
  | .stamped c _ _ _ => c == conn
  | _ => false

/-- How a connection has got on, latest first. -/
def marks (conn : ConnId) (trace : List Event) : List Event := trace.filter (Event.marks conn)

/-- The last message has passed the replay check. -/
def Passed (conn : ConnId) (id msgId : Int64) (events : List Event) : Prop :=
  ∃ session rest, events = .passed conn id session msgId :: rest

/-- It has also been accepted. -/
def Taken (conn : ConnId) (id msgId : Int64) (events : List Event) : Prop :=
  ∃ rest, events = .accepted conn id msgId :: rest ∧ Passed conn id msgId rest

/-- It has been handed to the handlers. -/
def Handed (conn : ConnId) (id : Int64) (events : List Event) : Prop :=
  ∃ msgId obj rest, events = .dispatched conn (some (id, msgId)) obj :: rest ∧
    Taken conn id msgId rest

/-- A response to it has its counter. -/
def Reserved (conn : ConnId) (id : Int64) (counter : UInt32) (events : List Event) : Prop :=
  ∃ rest, events = .reserved conn id counter :: rest ∧ Handed conn id rest

/-- Where a turn stands with the message it has in hand. -/
def Holder.Stands (conn : ConnId) (id : Int64) (events : List Event) : Holder → Prop
  | .receive => True
  | .edit _ none => Handed conn id events
  | .edit _ (some (_, counter)) => Reserved conn id counter events

def Phase.Stands (conn : ConnId) (events : List Event) : Phase → Prop
  | .known id holder | .loading id holder _ | .looked id holder _ => holder.Stands conn id events
  | .passed id _ msgId => Passed conn id msgId events
  | .committing id session | .committed id session =>
    Passed conn id session.lastRecvMsgId events
  | .pending session => Taken conn session.id session.msgId events
  | .saved id _ crypto reserved => (Holder.edit crypto reserved).Stands conn id events
  | .settling id _ crypto reserved | .stored id _ crypto reserved | .settled id crypto reserved =>
    (Holder.edit crypto (some reserved)).Stands conn id events
  | .creating _ _ back | .renewed _ _ back =>
    ∀ session, back = some session → Handed conn session.id events
  | .idle | .reading .. | .lost => True

theorem stands_serving {back : Option FrameSession} {events : List Event} :
    (Phase.serving back).Stands conn events ↔
      ∀ session, back = some session → Handed conn session.id events := by
  cases back with
  | none => exact ⟨fun _ => nofun, fun _ => trivial⟩
  | some session =>
    constructor
    · rintro h _ ⟨⟩
      exact h
    · exact fun h => h session rfl

/-- Every response comes right after the steps of the message it answers. -/
def Corresponds (conn : ConnId) : List Event → Prop
  | [] => True
  | e :: older => Corresponds conn older ∧
    ∀ id now counter, e = .stamped conn id now counter → Reserved conn id counter (marks conn older)

theorem marks_own {e : Event} (h : e.marks conn = true) :
    marks conn (e :: trace) = e :: marks conn trace := List.filter_cons_of_pos h

theorem marks_other {e : Event} (h : e.marks conn = false) :
    marks conn (e :: trace) = marks conn trace := by
  refine List.filter_cons_of_neg ?_
  rw [h]
  exact Bool.false_ne_true

def Event.stamps : Event → Bool
  | .stamped .. => true
  | _ => false

theorem Corresponds.cons {e : Event} (h : Corresponds conn trace) (he : e.stamps = false) :
    Corresponds conn (e :: trace) := by
  refine ⟨h, fun id now counter heq => ?_⟩
  rw [heq] at he
  cases he

theorem Corresponds.append {newer : List Event} (h : Corresponds conn (newer ++ trace)) :
    Corresponds conn trace := by
  induction newer with
  | nil => exact h
  | cons e newer ih => exact ih h.1

section Steps

variable [Platform]

/-- What one section does to the connection whose turn it is of. -/
theorem stands_move (h : Move conn ph w w' ph') (hlost : ph ≠ .lost)
    (hstands : ph.Stands conn (marks conn w.trace)) (hall : Corresponds conn w.trace) :
    ph'.Stands conn (marks conn w'.trace) ∧ Corresponds conn w'.trace := by
  have hself : (conn == conn) = true := beq_self_eq_true conn
  cases h with
  | lost => exact absurd rfl hlost
  | quiet hq =>
    rw [hq.trace]
    exact ⟨hstands, hall⟩
  | find | read | lose => exact ⟨trivial, hall⟩
  | load => exact ⟨trivial, hall.cons rfl⟩
  | hold => exact ⟨hstands, hall.cons rfl⟩
  | loadHeld => exact ⟨hstands, (hall.cons rfl).cons rfl⟩
  | pass => exact ⟨⟨_, _, marks_own hself⟩, hall.cons rfl⟩
  | accept => exact ⟨⟨_, marks_own hself, hstands⟩, (hall.cons rfl).cons rfl⟩
  | dispatch => exact ⟨⟨_, _, _, marks_own hself, hstands⟩, hall.cons rfl⟩
  | reserve => exact ⟨⟨_, marks_own hself, hstands⟩, hall.cons rfl⟩
  | putSaved | putSettled => exact ⟨hstands, hall.cons rfl⟩
  | stamp =>
    refine ⟨trivial, Corresponds.cons ⟨hall.cons rfl, fun _ _ _ heq => ?_⟩ rfl⟩
    cases heq
    exact hstands
  | establish => exact ⟨stands_serving.mp hstands, hall.cons rfl⟩
  | putCreated => exact ⟨stands_serving.mpr hstands, hall.cons rfl⟩
  | dispatchPlain | sendPlain | finish => exact ⟨trivial, hall.cons rfl⟩
  | _ => exact ⟨hstands, hall⟩

/-- What it does to any other. -/
theorem marks_move (h : Move conn ph w w' ph') (hlost : ph ≠ .lost) (hc : c ≠ conn) :
    marks c w'.trace = marks c w.trace ∧ (Corresponds c w.trace → Corresponds c w'.trace) := by
  have hother : (conn == c) = false := beq_false_of_ne (Ne.symm hc)
  cases h with
  | lost => exact absurd rfl hlost
  | quiet hq =>
    rw [hq.trace]
    exact ⟨rfl, id⟩
  | load | hold | putSaved | putSettled | establish | putCreated | dispatchPlain | sendPlain
  | finish => exact ⟨rfl, fun hall => hall.cons rfl⟩
  | loadHeld => exact ⟨rfl, fun hall => (hall.cons rfl).cons rfl⟩
  | pass | dispatch | reserve => exact ⟨marks_other hother, fun hall => hall.cons rfl⟩
  | accept => exact ⟨marks_other hother, fun hall => (hall.cons rfl).cons rfl⟩
  | @stamp id crypto seqNo counter w now =>
    have hstamped : (Event.stamped conn id now counter).marks c = false := hother
    refine ⟨marks_other hstamped, fun hall => Corresponds.cons ⟨hall.cons rfl, ?_⟩ rfl⟩
    intro _ _ _ heq
    cases heq
    exact absurd rfl hc
  | _ => exact ⟨rfl, id⟩

end Steps

/-! ### Runs -/

/-- Every turn stands where the steps of its connection say, and no response has come out of
turn. -/
structure Matched (phs : ConnId → Phase) (w : World) : Prop where
  grounded : Grounded phs w
  stands : ∀ c, (phs c).Stands c (marks c w.trace)
  corresponds : ∀ c, Corresponds c w.trace

variable {phs : ConnId → Phase}

theorem Grounded.evict (h : Grounded phs w) (id : Int64) : Grounded phs (evict id w) := by
  refine ⟨h.phases, fun i session hentry => ?_⟩
  by_cases hi : i = id
  · subst hi
    cases (evict_cache_self i w).symm.trans hentry
  · exact h.entries i session ((update_of_ne hi _ _ : _ = w.state.cache i).symm.trans hentry)

section Runs

variable [Platform] {statics : Statics}

theorem matched_move (h : Matched phs w) (hmove : Move conn (phs conn) w w' ph') :
    Matched (update phs conn ph') w' := by
  have hlost : phs conn ≠ .lost := by
    intro heq
    have hrooted := h.grounded.phases conn
    rw [heq] at hrooted
    exact hrooted
  obtain ⟨hstands, hcorresponds⟩ := stands_move hmove hlost (h.stands conn) (h.corresponds conn)
  refine ⟨grounded_move h.grounded hmove, fun c => ?_, fun c => ?_⟩
  · by_cases hc : c = conn
    · subst hc
      rwa [update_self]
    · rw [update_of_ne hc, (marks_move hmove hlost hc).1]
      exact h.stands c
  · by_cases hc : c = conn
    · subst hc
      exact hcorresponds
    · exact (marks_move hmove hlost hc).2 (h.corresponds c)

theorem verified_matched :
    Pool.Verified (concurrentRules statics fun _ _ => True) Move .idle Matched where
  starts := by
    rintro conn p ⟨draws, raw, rfl⟩
    exact obeys_serve statics draws raw
  move h hmove _ := matched_move h hmove
  env := by
    rintro phs w w' h ⟨id, rfl⟩
    exact ⟨h.grounded.evict id, h.stands, h.corresponds⟩
  crash := by
    rintro phs w _ h rfl
    exact ⟨.idle fun _ => rfl, fun _ => trivial, fun c => (h.corresponds c).cons rfl⟩

/-- In any interleaving, what a connection has done last when it stamps a response is, in this
order, to let a message of the same session pass the replay check, to accept it, to dispatch it and
to reserve the counter of the response. So it answers what it has accepted itself, once each
time. -/
theorem response_answers {x : Pool World Stop Unit ConnId}
    (h : Pool.Reachable (concurrentRules statics fun _ _ => True) World.init x)
    {newer older : List Event} {now : Nat}
    (htrace : x.state.trace = newer ++ .stamped conn id now counter :: older) :
    ∃ msgId obj session rest, marks conn older = .reserved conn id counter ::
      .dispatched conn (some (id, msgId)) obj :: .accepted conn id msgId ::
        .passed conn id session msgId :: rest := by
  have hinit : Matched (fun _ => .idle) World.init :=
    ⟨.idle fun _ => rfl, fun _ => trivial, fun _ => trivial⟩
  obtain ⟨phs, hmatched, -⟩ := Pool.holds_reachable verified_matched hinit h
  have hall := hmatched.corresponds conn
  rw [htrace] at hall
  obtain ⟨_, hlast⟩ := hall.append
  obtain ⟨rest, hreserved, msgId, obj, rest₁, hhanded, rest₂, htaken, session, rest₃, hpassed⟩ :=
    hlast id now counter rfl
  refine ⟨msgId, obj, session, rest₃, ?_⟩
  rw [hreserved, hhanded, htaken, hpassed]

end Runs

/-- The response to a first message, in the trace of the run that handles it. -/
theorem response_answers_first : letI := Sample.platform
    ∃ newer older conn id now counter,
      (Sample.run [Sample.frame 0 1 0 0 (.getDialogs {})]).trace =
        newer ++ .stamped conn id now counter :: older ∧
      ∃ msgId obj session rest, marks conn older = .reserved conn id counter ::
        .dispatched conn (some (id, msgId)) obj :: .accepted conn id msgId ::
          .passed conn id session msgId :: rest := by
  let _ := Sample.platform
  have hreachable : Pool.Reachable (concurrentRules Sample.statics fun _ _ => True) World.init
      (Pool.init (Sample.run [Sample.frame 0 1 0 0 (.getDialogs {})])) := reachable_frames .init _
  have hany :
      (Sample.run [Sample.frame 0 1 0 0 (.getDialogs {})]).trace.any Event.stamps = true := by
    decide +kernel
  obtain ⟨e, hmem, hstamps⟩ := List.any_eq_true.mp hany
  obtain ⟨newer, older, htrace⟩ := List.append_of_mem hmem
  cases e with
  | stamped conn id now counter =>
    exact ⟨newer, older, conn, id, now, counter, htrace, response_answers hreachable htrace⟩
  | _ => cases hstamps

end KoSta.Server
