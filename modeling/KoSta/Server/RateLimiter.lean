import Mathlib.Logic.Function.Basic
import Mathlib.Data.List.Induction

/-! How often one key may come back within a window of time. -/
namespace KoSta.Server
open Function

/-- The window and the readings of the clock are in milliseconds. -/
structure RateLimiter (K : Type) where
  window : Nat
  maxRequests : Nat
  storage : K → List Nat

namespace RateLimiter

variable {K : Type}

def new (window maxRequests : Nat) : RateLimiter K := ⟨window, maxRequests, fun _ => []⟩

variable [DecidableEq K]

/-- Readings that have left the window are dropped first, accepted or not. -/
def check (limiter : RateLimiter K) (key : K) (now : Nat) :
    Except String Unit × RateLimiter K :=
  let timestamps := (limiter.storage key).filter fun t => now - t < limiter.window
  if timestamps.length ≥ limiter.maxRequests then
    (.error "Rate limit exceeded",
      { limiter with storage := update limiter.storage key timestamps })
  else
    (.ok (), { limiter with storage := update limiter.storage key (timestamps ++ [now]) })

end RateLimiter

/-- `WS_MESSAGE_LIMITER`, by user. -/
def wsMessageLimiter : RateLimiter Int64 := .new 1000 10

/-- `HTTP_LIMITER`, by peer address. -/
def httpLimiter : RateLimiter String := .new 60000 100

/-! ## Runs of calls -/
namespace RateLimiter

variable {K : Type} [DecidableEq K]

def after (limiter : RateLimiter K) (calls : List (K × Nat)) : RateLimiter K :=
  calls.foldl (fun limiter call => (limiter.check call.1 call.2).2) limiter

def outcomes (limiter : RateLimiter K) : List (K × Nat) → List (Except String Unit)
  | [] => []
  | call :: calls =>
    (limiter.check call.1 call.2).1 :: (limiter.check call.1 call.2).2.outcomes calls

/-- The readings at which the calls for `key` were accepted. -/
def accepted (limiter : RateLimiter K) (calls : List (K × Nat)) (key : K) : List Nat :=
  ((calls.zip (limiter.outcomes calls)).filter fun call =>
    call.1.1 = key ∧ call.2.isOk).map (·.1.2)

/-- How many of the readings lie in the interval from `now - window`, exclusive, to `now`. -/
def within (window now : Nat) (readings : List Nat) : Nat :=
  readings.countP fun t => t ≤ now ∧ now < t + window

/-- The readings a call at `now` would still find. -/
def recent (limiter : RateLimiter K) (key : K) (now : Nat) : List Nat :=
  (limiter.storage key).filter fun t => now - t < limiter.window

theorem after_append (limiter : RateLimiter K) (calls others : List (K × Nat)) :
    limiter.after (calls ++ others) = (limiter.after calls).after others :=
  List.foldl_append

theorem outcomes_append (limiter : RateLimiter K) (calls others : List (K × Nat)) :
    limiter.outcomes (calls ++ others)
      = limiter.outcomes calls ++ (limiter.after calls).outcomes others := by
  induction calls generalizing limiter with
  | nil => rfl
  | cons call calls ih => simp [outcomes, after, ih]

@[simp] theorem outcomes_length (limiter : RateLimiter K) (calls : List (K × Nat)) :
    (limiter.outcomes calls).length = calls.length := by
  induction calls generalizing limiter with
  | nil => rfl
  | cons call calls ih => simp [outcomes, ih]

theorem accepted_append (limiter : RateLimiter K) (calls : List (K × Nat)) (call : K × Nat)
    (key : K) :
    limiter.accepted (calls ++ [call]) key = limiter.accepted calls key ++
      if call.1 = key ∧ ((limiter.after calls).check call.1 call.2).1.isOk then [call.2]
      else [] := by
  simp only [accepted, outcomes_append, List.zip_append (outcomes_length limiter calls).symm,
    List.filter_append, List.map_append, outcomes, List.zip_cons_cons, List.zip_nil_right]
  congr 2
  by_cases hkey : call.1 = key
  · subst hkey
    cases ((limiter.after calls).check call.1 call.2).1 <;>
      simp [Except.isOk, Except.toBool]
  · simp [hkey]

/-! ## One call -/

theorem check_of_room {limiter : RateLimiter K} {key : K} {now : Nat}
    (hroom : (limiter.recent key now).length < limiter.maxRequests) :
    limiter.check key now = (.ok (), { limiter with
      storage := update limiter.storage key (limiter.recent key now ++ [now]) }) :=
  if_neg (Nat.not_le.mpr hroom)

theorem check_of_full {limiter : RateLimiter K} {key : K} {now : Nat}
    (hfull : limiter.maxRequests ≤ (limiter.recent key now).length) :
    limiter.check key now = (.error "Rate limit exceeded", { limiter with
      storage := update limiter.storage key (limiter.recent key now) }) :=
  if_pos hfull

theorem check_cases (limiter : RateLimiter K) (key : K) (now : Nat) :
    ((limiter.recent key now).length < limiter.maxRequests ∧
      limiter.check key now = (.ok (), { limiter with
        storage := update limiter.storage key (limiter.recent key now ++ [now]) })) ∨
    (limiter.maxRequests ≤ (limiter.recent key now).length ∧
      limiter.check key now = (.error "Rate limit exceeded", { limiter with
        storage := update limiter.storage key (limiter.recent key now) })) := by
  rcases Nat.lt_or_ge (limiter.recent key now).length limiter.maxRequests with hroom | hfull
  · exact .inl ⟨hroom, check_of_room hroom⟩
  · exact .inr ⟨hfull, check_of_full hfull⟩

theorem check_isOk (limiter : RateLimiter K) (key : K) (now : Nat) :
    (limiter.check key now).1.isOk = true ↔
      (limiter.recent key now).length < limiter.maxRequests := by
  rcases check_cases limiter key now with ⟨hroom, he⟩ | ⟨hfull, he⟩
  · simp [he, hroom, Except.isOk, Except.toBool]
  · simp [he, hfull, Except.isOk, Except.toBool]

theorem check_eq_ok (limiter : RateLimiter K) (key : K) (now : Nat) :
    (limiter.check key now).1 = .ok () ↔ (limiter.check key now).1.isOk = true := by
  cases (limiter.check key now).1 <;> simp [Except.isOk, Except.toBool]

@[simp] theorem check_window (limiter : RateLimiter K) (key : K) (now : Nat) :
    (limiter.check key now).2.window = limiter.window := by
  rcases check_cases limiter key now with ⟨-, he⟩ | ⟨-, he⟩ <;> rw [he]

@[simp] theorem check_maxRequests (limiter : RateLimiter K) (key : K) (now : Nat) :
    (limiter.check key now).2.maxRequests = limiter.maxRequests := by
  rcases check_cases limiter key now with ⟨-, he⟩ | ⟨-, he⟩ <;> rw [he]

theorem check_storage_of_ne {limiter : RateLimiter K} {key other : K} (hne : other ≠ key)
    (now : Nat) : (limiter.check key now).2.storage other = limiter.storage other := by
  rcases check_cases limiter key now with ⟨-, he⟩ | ⟨-, he⟩ <;> simp [he, hne]

theorem check_storage_self (limiter : RateLimiter K) (key : K) (now : Nat) :
    (limiter.check key now).2.storage key = limiter.recent key now ++
      if (limiter.check key now).1.isOk then [now] else [] := by
  rcases check_cases limiter key now with ⟨-, he⟩ | ⟨-, he⟩ <;>
    simp [he, Except.isOk, Except.toBool]

@[simp] theorem after_window (limiter : RateLimiter K) (calls : List (K × Nat)) :
    (limiter.after calls).window = limiter.window := by
  induction calls generalizing limiter with
  | nil => rfl
  | cons call calls ih => exact (ih _).trans (check_window limiter _ _)

@[simp] theorem after_maxRequests (limiter : RateLimiter K) (calls : List (K × Nat)) :
    (limiter.after calls).maxRequests = limiter.maxRequests := by
  induction calls generalizing limiter with
  | nil => rfl
  | cons call calls ih => exact (ih _).trans (check_maxRequests limiter _ _)

/-- What a call dropped is out of every later window. -/
theorem recent_check (limiter : RateLimiter K) (call : K × Nat) (key : K) {later : Nat}
    (hlater : call.2 ≤ later) :
    (limiter.check call.1 call.2).2.recent key later = limiter.recent key later ++
      (if call.1 = key ∧ (limiter.check call.1 call.2).1.isOk then [call.2] else []).filter
        fun t => later - t < limiter.window := by
  unfold recent
  rw [check_window]
  by_cases hkey : call.1 = key
  · subst hkey
    have hdrop : (limiter.recent call.1 call.2).filter (fun t => later - t < limiter.window)
        = limiter.recent call.1 later := by
      simp only [recent, List.filter_filter]
      apply List.filter_congr
      intro t _
      simp only [← Bool.decide_and, decide_eq_decide]
      omega
    rw [check_storage_self, List.filter_append, hdrop, recent]
    simp
  · rw [check_storage_of_ne (Ne.symm hkey)]
    simp [hkey]

/-! ## The whole history -/

/-- The kept readings and the accepted ones agree on every window still to come. -/
theorem recent_after (limiter : RateLimiter K) (hnew : limiter.storage = fun _ => [])
    {calls : List (K × Nat)} {now : Nat} (hcalls : ∀ call ∈ calls, call.2 ≤ now) (key : K) :
    (limiter.after calls).recent key now
      = (limiter.accepted calls key).filter fun t => now - t < limiter.window := by
  induction calls using List.reverseRecOn with
  | nil => simp [recent, after, accepted, hnew]
  | append_singleton calls call ih =>
    have hprev := ih fun other hother => hcalls other (by simp [hother])
    rw [after_append]
    change ((limiter.after calls).check call.1 call.2).2.recent key now = _
    rw [recent_check _ _ _ (hcalls call (by simp)), hprev, accepted_append, List.filter_append,
      after_window]

theorem accepted_le (limiter : RateLimiter K) {calls : List (K × Nat)} {now : Nat}
    (hcalls : ∀ call ∈ calls, call.2 ≤ now) (key : K) :
    ∀ t ∈ limiter.accepted calls key, t ≤ now := by
  intro t ht
  obtain ⟨⟨call, outcome⟩, hmem, rfl⟩ := List.mem_map.mp ht
  exact hcalls call (List.of_mem_zip (List.mem_filter.mp hmem).1).1

theorem within_eq (window : Nat) {now : Nat} {readings : List Nat}
    (hreadings : ∀ t ∈ readings, t ≤ now) :
    within window now readings = (readings.filter fun t => now - t < window).length := by
  rw [within, List.countP_eq_length_filter]
  congr 1
  apply List.filter_congr
  intro t ht
  have hle := hreadings t ht
  simp only [decide_eq_decide]
  omega

theorem check_after_isOk (limiter : RateLimiter K) (hnew : limiter.storage = fun _ => [])
    {calls : List (K × Nat)} {now : Nat} (hcalls : ∀ call ∈ calls, call.2 ≤ now) (key : K) :
    ((limiter.after calls).check key now).1.isOk = true ↔
      within limiter.window now (limiter.accepted calls key) < limiter.maxRequests := by
  rw [check_isOk, recent_after limiter hnew hcalls key, after_maxRequests,
    within_eq _ (accepted_le limiter hcalls key)]

theorem within_append (window now : Nat) (readings others : List Nat) :
    within window now (readings ++ others)
      = within window now readings + within window now others := List.countP_append

/-- Past the last reading an interval only loses readings. -/
theorem within_le_of_le (window : Nat) {now later : Nat} (hlater : now ≤ later)
    {readings : List Nat} (hreadings : ∀ t ∈ readings, t ≤ now) :
    within window later readings ≤ within window now readings := by
  apply List.countP_mono_left
  intro t ht
  have hle := hreadings t ht
  simp only [decide_eq_true_eq]
  omega

theorem within_accepted_le (limiter : RateLimiter K) (hnew : limiter.storage = fun _ => [])
    {calls : List (K × Nat)} (hclock : calls.Pairwise (·.2 ≤ ·.2)) (key : K) (now : Nat) :
    within limiter.window now (limiter.accepted calls key) ≤ limiter.maxRequests := by
  induction calls using List.reverseRecOn with
  | nil => simp [accepted, within]
  | append_singleton calls call ih =>
    have hcalls : ∀ other ∈ calls, other.2 ≤ call.2 := fun other hother =>
      (List.pairwise_append.mp hclock).2.2 other hother call (by simp)
    have hprev := ih (List.pairwise_append.mp hclock).1
    rw [accepted_append, within_append]
    split
    next haccept =>
      obtain ⟨rfl, haccept⟩ := haccept
      rcases Nat.lt_or_ge now call.2 with hbefore | hafter
      · have hout : within limiter.window now [call.2] = 0 := by
          simp [within, Nat.not_le.mpr hbefore]
        omega
      · have hroom := (check_after_isOk limiter hnew hcalls call.1).mp haccept
        have hpast := within_le_of_le limiter.window hafter (accepted_le limiter hcalls call.1)
        have hone : within limiter.window now [call.2] ≤ 1 := List.countP_le_length
        omega
    next => simpa [within] using hprev

/-! ## What a call leaves alone -/

/-- Two limiters that will answer alike from the reading `now` on. -/
structure SameFrom (now : Nat) (limiter other : RateLimiter K) : Prop where
  window : limiter.window = other.window
  maxRequests : limiter.maxRequests = other.maxRequests
  recent : ∀ key later, now ≤ later → limiter.recent key later = other.recent key later

theorem check_fst_congr {limiter other : RateLimiter K} {key : K} {now : Nat}
    (hrecent : limiter.recent key now = other.recent key now)
    (hmax : limiter.maxRequests = other.maxRequests) :
    (limiter.check key now).1 = (other.check key now).1 := by
  rcases check_cases limiter key now with ⟨hroom, he⟩ | ⟨hfull, he⟩
  · rw [hrecent, hmax] at hroom
    rw [he, check_of_room hroom]
  · rw [hrecent, hmax] at hfull
    rw [he, check_of_full hfull]

theorem SameFrom.check_fst {now : Nat} {limiter other : RateLimiter K}
    (hsame : SameFrom now limiter other) {call : K × Nat} (hnow : now ≤ call.2) :
    (limiter.check call.1 call.2).1 = (other.check call.1 call.2).1 :=
  check_fst_congr (hsame.recent call.1 call.2 hnow) hsame.maxRequests

theorem SameFrom.check {now : Nat} {limiter other : RateLimiter K}
    (hsame : SameFrom now limiter other) {call : K × Nat} (hnow : now ≤ call.2) :
    SameFrom call.2 (limiter.check call.1 call.2).2 (other.check call.1 call.2).2 where
  window := by simpa using hsame.window
  maxRequests := by simpa using hsame.maxRequests
  recent key later hlater := by
    rw [recent_check _ _ _ hlater, recent_check _ _ _ hlater, hsame.check_fst hnow, hsame.window,
      hsame.recent key later (Nat.le_trans hnow hlater)]

theorem SameFrom.outcomes {now : Nat} {limiter other : RateLimiter K}
    (hsame : SameFrom now limiter other) {calls : List (K × Nat)}
    (hclock : calls.Pairwise (·.2 ≤ ·.2)) (hnow : ∀ call ∈ calls, now ≤ call.2) :
    limiter.outcomes calls = other.outcomes calls := by
  induction calls generalizing now limiter other with
  | nil => rfl
  | cons call calls ih =>
    have hcall := hnow call (by simp)
    have hrest := List.pairwise_cons.mp hclock
    exact congrArg₂ List.cons (hsame.check_fst hcall) (ih (hsame.check hcall) hrest.2 hrest.1)

/-- A refused call leaves a limiter that answers as if it had not been made. -/
theorem sameFrom_of_refused (limiter : RateLimiter K) {call : K × Nat}
    (hrefused : (limiter.check call.1 call.2).1 ≠ .ok ()) :
    SameFrom call.2 (limiter.check call.1 call.2).2 limiter where
  window := check_window limiter call.1 call.2
  maxRequests := check_maxRequests limiter call.1 call.2
  recent key later hlater := by
    have herror : (limiter.check call.1 call.2).1.isOk = false := by
      cases h : (limiter.check call.1 call.2).1 with
      | ok => exact (hrefused h).elim
      | error => rfl
    rw [recent_check _ _ _ hlater]
    simp [herror]

/-- The outcomes of the calls for `key`. -/
def outcomesOf (limiter : RateLimiter K) (calls : List (K × Nat)) (key : K) :
    List (Except String Unit) :=
  ((calls.zip (limiter.outcomes calls)).filter (·.1.1 = key)).map (·.2)

theorem outcomesOf_eq {limiter other : RateLimiter K} {key : K}
    (hwindow : limiter.window = other.window) (hmax : limiter.maxRequests = other.maxRequests)
    (hstorage : limiter.storage key = other.storage key) (calls : List (K × Nat)) :
    limiter.outcomesOf calls key = other.outcomes (calls.filter (·.1 = key)) := by
  induction calls generalizing limiter other with
  | nil => rfl
  | cons call calls ih =>
    by_cases hkey : call.1 = key
    · subst hkey
      have hrecent : limiter.recent call.1 call.2 = other.recent call.1 call.2 := by
        rw [recent, recent, hwindow, hstorage]
      have hfst := check_fst_congr hrecent hmax
      have hrest : (limiter.check call.1 call.2).2.outcomesOf calls call.1
          = (other.check call.1 call.2).2.outcomes (calls.filter (·.1 = call.1)) :=
        ih (by simpa using hwindow) (by simpa using hmax)
          (by rw [check_storage_self, check_storage_self, hrecent, hfst])
      simpa [outcomesOf, outcomes, hfst] using hrest
    · have hrest : (limiter.check call.1 call.2).2.outcomesOf calls key
          = other.outcomes (calls.filter (·.1 = key)) :=
        ih (by simpa using hwindow) (by simpa using hmax)
          (by rwa [check_storage_of_ne (Ne.symm hkey)])
      simpa [outcomesOf, outcomes, hkey] using hrest

/-- A call is accepted exactly when the accepted calls of its key leave room in the window that
ends with it. No window ever holds more than the limit, a refused call may as well not have been
made, and each key has the outcomes it would have on its own. -/
theorem check_exact (window maxRequests : Nat) (calls : List (K × Nat))
    (hclock : calls.Pairwise (·.2 ≤ ·.2)) :
    (∀ before key now later, calls = before ++ (key, now) :: later →
      ((((new window maxRequests).after before).check key now).1 = .ok () ↔
        within window now ((new window maxRequests).accepted before key) < maxRequests)) ∧
    (∀ key now, within window now ((new window maxRequests).accepted calls key) ≤ maxRequests) ∧
    (∀ before call later, calls = before ++ call :: later →
      (((new window maxRequests).after before).check call.1 call.2).1 ≠ .ok () →
      ((new window maxRequests).after (before ++ [call])).outcomes later
        = ((new window maxRequests).after before).outcomes later) ∧
    ∀ key, (new window maxRequests).outcomesOf calls key
      = (new window maxRequests).outcomes (calls.filter (·.1 = key)) := by
  refine ⟨?_, ?_, ?_, ?_⟩
  · intro before key now later hcalls
    subst hcalls
    have hbefore : ∀ call ∈ before, call.2 ≤ now := fun call hcall =>
      (List.pairwise_append.mp hclock).2.2 call hcall (key, now) (by simp)
    rw [check_eq_ok]
    exact check_after_isOk (new window maxRequests) rfl hbefore key
  · intro key now
    exact within_accepted_le (new window maxRequests) rfl hclock key now
  · intro before call later hcalls hrefused
    subst hcalls
    have hlater := List.pairwise_cons.mp (List.pairwise_append.mp hclock).2.1
    rw [after_append]
    exact (sameFrom_of_refused _ hrefused).outcomes hlater.2 hlater.1
  · intro key
    exact outcomesOf_eq rfl rfl rfl calls

/-- Three calls at one instant and one a window later, with room for two. -/
theorem check_exact_burst :
    ((new 1000 2).outcomes [("a", 5), ("a", 5), ("a", 5), ("a", 1005)]).map (·.isOk)
      = [true, true, false, true] ∧
    ∀ now, within 1000 now ((new 1000 2).accepted
      [("a", 5), ("a", 5), ("a", 5), ("a", 1005)] "a") ≤ 2 :=
  ⟨by decide, (check_exact 1000 2 [("a", 5), ("a", 5), ("a", 5), ("a", 1005)]
    (by decide)).2.1 "a"⟩

end RateLimiter

end KoSta.Server
