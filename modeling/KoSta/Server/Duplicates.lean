import KoSta.Server.KeyExchange

/-! Exchanges that are finished at the same time: how often a stored entry is used. -/
namespace KoSta.Server
open Lib Lib.Prog Tl Crypto Function

/-- A record of what becomes of the entries of the store, which are numbered as they come. -/
structure Tally where
  stored : Nat
  number : Bytes → Nat
  holds : ConnId → Option Nat
  established : List Nat
  granted : List Nat

namespace Tally

def init : Tally := ⟨0, fun _ => 0, fun _ => none, [], []⟩

def store (t : Tally) (key : Bytes) : Tally :=
  { t with number := update t.number key t.stored, stored := t.stored + 1 }

def hold (t : Tally) (conn : ConnId) (key : Bytes) : Tally :=
  { t with holds := update t.holds conn (some (t.number key)) }

def establish (t : Tally) (conn : ConnId) : Tally :=
  { t with established := (t.holds conn).toList ++ t.established }

def grant (t : Tally) (conn : ConnId) : Tally :=
  { t with granted := (t.holds conn).toList ++ t.granted, holds := update t.holds conn none }

end Tally

section Requests

variable [Platform]

/-- The request will finish the exchange, given this entry. -/
def passes (statics : Statics) (entry : Handshake) (req : SetClientDHParams) : Bool :=
  match decryptInner (tmpKey entry.newNonce req.serverNonce) req.encryptedData with
  | .error _ => false
  | .ok decrypted =>
    match TlObject.readBoxed.run decrypted with
    | .ok (.clientDHInnerData inner) _ => inner.nonce = req.nonce ∧
        inner.serverNonce = req.serverNonce ∧ 1 < fromBytesBe inner.gB ∧
        fromBytesBe inner.gB < statics.dhPrime - 1
    | _ => false

/-- A request for parameters has one section: it stores its entry. -/
def askingNote (req : ReqDHParams) (i : Nat) (_ : World) (t : Tally) : Tally :=
  if i = 0 then t.store (handshakeKey req.nonce req.serverNonce) else t

/-- Of the sections of a request to finish the exchange the second finds the entry, the third
writes the session's row for the first time and the last removes the entry. -/
def finishingNote (statics : Statics) (conn : ConnId) (req : SetClientDHParams) :
    Nat → World → Tally → Tally
  | 1, w, t =>
    match w.state.handshakes (handshakeKey req.nonce req.serverNonce) with
    | some entry =>
      if passes statics entry req then t.hold conn (handshakeKey req.nonce req.serverNonce) else t
    | none => t
  | 2, _, t => t.establish conn
  | 6, _, t => t.grant conn
  | _, _, t => t

/-- Any number of connections with requests of key exchanges. Whatever else the server does
between two of their sections leaves the store alone. -/
def exchangeRules (statics : Statics) (meets : World × Tally → World × Tally → Prop) :
    PoolRules (World × Tally) Stop (Option Bytes) ConnId where
  starts conn p :=
    (∃ draws req, p = (handleReqDhParams statics draws req).annotate (askingNote req) 0) ∨
    ∃ draws req, p = (handleSetClientDhParams statics draws conn req).annotate
      (finishingNote statics conn req) 0
  meets
  env x y := y.2 = x.2 ∧ y.1.state.handshakes = x.1.state.handshakes
  crash x y := y = (restart x.1, { x.2 with holds := fun _ => none })

end Requests

/-- No entry is looked up while another request is about to use it. -/
def Careful (x y : World × Tally) : Prop :=
  ∀ conn n, y.2.holds conn = some n → x.2.holds conn ≠ some n → ∀ other, x.2.holds other ≠ some n

/-! ### The requests follow an automaton -/

/-- What a request has in hand between two sections. -/
inductive Stage where
  | idle
  | looking (key : Bytes)
  | holding (key : Bytes) (n : Nat) (next : Nat)

/-- Whether the store has an entry under this key. -/
def World.has (w : World) (key : Bytes) : Prop := (w.state.handshakes key).isSome = true

inductive Exchange (conn : ConnId) : Stage → World × Tally → World × Tally → Stage → Prop where
  | ask {w : World} {t : Tally} {key : Bytes} {entry : Handshake} :
    Exchange conn .idle (w, t) (w.setHandshake key (some entry), t.store key) .idle
  | clean {w : World} {t : Tally} {now : Nat} {key : Bytes} :
    Exchange conn .idle (w, t) (w.clean now, t) (.looking key)
  | miss {x : World × Tally} {key : Bytes} : Exchange conn (.looking key) x x .idle
  | find {w : World} {t : Tally} {key : Bytes} : w.has key →
    Exchange conn (.looking key) (w, t) (w, t.hold conn key) (.holding key (t.number key) 2)
  | establish {w w' : World} {t : Tally} {key : Bytes} {n : Nat} :
    w'.state.handshakes = w.state.handshakes →
    Exchange conn (.holding key n 2) (w, t) (w', t.establish conn) (.holding key n 3)
  | write {w w' : World} {t : Tally} {key : Bytes} {n i : Nat} : 3 ≤ i → i < 6 →
    w'.state.handshakes = w.state.handshakes →
    Exchange conn (.holding key n i) (w, t) (w', t) (.holding key n (i + 1))
  | grant {w : World} {t : Tally} {key : Bytes} {n : Nat} :
    Exchange conn (.holding key n 6) (w, t) (w.setHandshake key none, t.grant conn) .idle

section Follows

variable [Platform] {statics : Statics} {conn : ConnId}

theorem passes_iff {entry : Handshake} {req : SetClientDHParams} :
    passes statics entry req = true ↔ ∃ inner, Agrees statics entry req inner := by
  unfold passes
  constructor
  · intro h
    split at h
    · cases h
    · rename_i decrypted hdec
      split at h
      · rename_i inner rest hread
        obtain ⟨hn, hsn, hrange⟩ := of_decide_eq_true h
        exact ⟨inner, ⟨decrypted, rest, hdec, hread⟩, hn, hsn, hrange⟩
      · cases h
  · rintro ⟨inner, ⟨decrypted, rest, hdec, hread⟩, hn, hsn, hrange⟩
    simp only [hdec, hread]
    exact decide_eq_true ⟨hn, hsn, hrange⟩

theorem follows_asking (draws : Draws) (req : ReqDHParams) :
    ((handleReqDhParams statics draws req).annotate (askingNote req) 0).Obeys (Exchange conn)
      (fun _ stage => stage = .idle) .idle := by
  unfold handleReqDhParams
  rcases open_eq (decryptInner (tmpKeyFromNonce req.nonce req.serverNonce) req.encryptedData) _ with
    ⟨e, heq, -⟩ | ⟨obj, rest, -, heq⟩
  · rw [heq]
    rfl
  · rw [heq]
    cases obj with
    | pqInnerData inner =>
      dsimp only
      split
      · rfl
      · intro x
        refine ⟨_, .ask, ?_⟩
        unfold encryptInner
        dsimp only
        split <;> rfl
    | _ => rfl

theorem follows_establish (req : SetClientDHParams) (entry : Handshake) (inner : ClientDHInnerData)
    (n : Nat) : ((establish statics conn req entry inner).annotate
      (finishingNote statics conn req) 2).Obeys (Exchange conn) (fun _ stage => stage = .idle)
      (.holding (handshakeKey req.nonce req.serverNonce) n 2) := by
  intro x
  refine ⟨_, .establish rfl, ?_⟩
  intro x
  refine ⟨_, .write (by decide) (by decide) rfl, ?_⟩
  intro x
  refine ⟨_, .write (by decide) (by decide) rfl, ?_⟩
  intro x
  refine ⟨_, .write (by decide) (by decide) rfl, ?_⟩
  intro x
  exact ⟨_, .grant, rfl⟩

theorem follows_finishing (draws : Draws) (req : SetClientDHParams) :
    ((handleSetClientDhParams statics draws conn req).annotate
      (finishingNote statics conn req) 0).Obeys (Exchange conn)
      (fun _ stage => stage = .idle) .idle := by
  rw [handleSetClientDhParams_eq]
  intro x
  refine ⟨.looking (handshakeKey req.nonce req.serverNonce), .clean, ?_⟩
  intro x
  change ∃ stage, Exchange conn (.looking (handshakeKey req.nonce req.serverNonce)) x
    (x.1, finishingNote statics conn req 1 x.1 x.2) stage ∧
    ((finishWith statics conn req (x.1.state.handshakes
      (handshakeKey req.nonce req.serverNonce))).annotate (finishingNote statics conn req) 2).Obeys
      (Exchange conn) (fun _ stage => stage = .idle) stage
  cases hentry : x.1.state.handshakes (handshakeKey req.nonce req.serverNonce) with
  | none =>
    have hnote : finishingNote statics conn req 1 x.1 x.2 = x.2 := by
      simp only [finishingNote, hentry]
    rw [hnote]
    exact ⟨.idle, .miss, rfl⟩
  | some entry =>
    rcases finishWith_cases statics conn req entry with ⟨e, heq, hnot⟩ | ⟨inner, hagrees, heq⟩
    · have hpasses : ¬ passes statics entry req = true := by
        rw [passes_iff]
        rintro ⟨inner, h⟩
        exact hnot inner h
      have hnote : finishingNote statics conn req 1 x.1 x.2 = x.2 := by
        simp only [finishingNote, hentry, if_neg hpasses]
      rw [hnote, heq]
      exact ⟨.idle, .miss, rfl⟩
    · have hnote : finishingNote statics conn req 1 x.1 x.2 =
          x.2.hold conn (handshakeKey req.nonce req.serverNonce) := by
        simp only [finishingNote, hentry, if_pos (passes_iff.mpr ⟨inner, hagrees⟩)]
      have hhas : x.1.has (handshakeKey req.nonce req.serverNonce) := by
        rw [World.has, hentry]
        rfl
      rw [hnote, heq]
      exact ⟨_, .find hhas, follows_establish req entry inner _⟩

end Follows

/-! ### Every entry is used once -/

/-- The numbers of the entries in the store and in the hands of the requests. -/
structure Counted (stages : ConnId → Stage) (x : World × Tally) : Prop where
  holds : ∀ conn n, x.2.holds conn = some n ↔ ∃ key i, stages conn = .holding key n i
  apart : ∀ c d n, x.2.holds c = some n → x.2.holds d = some n → c = d
  numbered : ∀ key, x.1.has key → x.2.number key < x.2.stored
  distinct : ∀ key key', x.1.has key → x.1.has key' → x.2.number key = x.2.number key' → key = key'
  home : ∀ conn key n i, stages conn = .holding key n i →
    n < x.2.stored ∧ ∀ key', x.1.has key' → x.2.number key' = n → key' = key
  unused : ∀ conn key n, stages conn = .holding key n 2 → n ∉ x.2.established
  used : ∀ conn key n i, stages conn = .holding key n i → 3 ≤ i → n ∈ x.2.established
  gone : ∀ n ∈ x.2.established, n < x.2.stored ∧
    ((∃ conn, x.2.holds conn = some n) ∨ ∀ key, x.1.has key → x.2.number key ≠ n)
  granted : ∀ n ∈ x.2.granted, n ∈ x.2.established ∧ ∀ conn, x.2.holds conn ≠ some n
  once : x.2.established.Nodup ∧ x.2.granted.Nodup

theorem has_setHandshake {w : World} {key key' : Bytes} {entry : Option Handshake}
    (h : (w.setHandshake key entry).has key') : key' = key ∧ entry.isSome = true ∨
      key' ≠ key ∧ w.has key' := by
  change (update w.state.handshakes key entry key').isSome = true at h
  by_cases hkey : key' = key
  · subst hkey
    rw [update_self] at h
    exact Or.inl ⟨rfl, h⟩
  · rw [update_of_ne hkey] at h
    exact Or.inr ⟨hkey, h⟩

theorem has_clean {w : World} {now : Nat} {key : Bytes} (h : (w.clean now).has key) :
    w.has key := by
  obtain ⟨entry, hentry⟩ := Option.isSome_iff_exists.mp h
  exact Option.isSome_iff_exists.mpr ⟨entry, (Option.filter_eq_some_iff.mp hentry).1⟩

variable {stages : ConnId → Stage} {conn : ConnId} {w w' : World} {t : Tally}

/-- The store has lost entries at most, and no request has gone on. -/
theorem Counted.shrink (h : Counted stages (w, t)) (hw : ∀ key, w'.has key → w.has key) :
    Counted stages (w', t) where
  holds := h.holds
  apart := h.apart
  numbered key hkey := h.numbered key (hw key hkey)
  distinct key key' hkey hkey' := h.distinct key key' (hw key hkey) (hw key' hkey')
  home c key n i hc := by
    obtain ⟨hn, hhome⟩ := h.home c key n i hc
    exact ⟨hn, fun key' hkey' => hhome key' (hw key' hkey')⟩
  unused := h.unused
  used := h.used
  gone n hn := by
    obtain ⟨hlt, hheld | hnone⟩ := h.gone n hn
    · exact ⟨hlt, Or.inl hheld⟩
    · exact ⟨hlt, Or.inr fun key hkey => hnone key (hw key hkey)⟩
  granted := h.granted
  once := h.once

/-- Which stages a request has left matters only as long as it holds an entry. -/
theorem Counted.restage (h : Counted stages (w, t)) {stage : Stage}
    (hbefore : ∀ key n i, stages conn ≠ .holding key n i)
    (hafter : ∀ key n i, stage ≠ .holding key n i) :
    Counted (update stages conn stage) (w, t) := by
  have hstage (c : ConnId) (key : Bytes) (n i : Nat) :
      update stages conn stage c = .holding key n i ↔ stages c = .holding key n i := by
    by_cases hc : c = conn
    · subst hc
      rw [update_self]
      exact ⟨fun he => absurd he (hafter key n i), fun he => absurd he (hbefore key n i)⟩
    · rw [update_of_ne hc]
  constructor
  · intro c n
    simp only [hstage]
    exact h.holds c n
  · exact h.apart
  · exact h.numbered
  · exact h.distinct
  · intro c key n i hc
    exact h.home c key n i ((hstage c key n i).mp hc)
  · intro c key n hc
    exact h.unused c key n ((hstage c key n 2).mp hc)
  · intro c key n i hc
    exact h.used c key n i ((hstage c key n i).mp hc)
  · exact h.gone
  · exact h.granted
  · exact h.once

theorem Counted.ask (h : Counted stages (w, t)) (key : Bytes) (entry : Handshake) :
    Counted stages (w.setHandshake key (some entry), t.store key) := by
  have hnumber {key' : Bytes} (hne : key' ≠ key) : (t.store key).number key' = t.number key' :=
    update_of_ne hne _ _
  have hself : (t.store key).number key = t.stored := update_self _ _ _
  have hstored : (t.store key).stored = t.stored + 1 := rfl
  constructor
  · exact h.holds
  · exact h.apart
  · intro key' hkey'
    rcases has_setHandshake hkey' with ⟨rfl, -⟩ | ⟨hne, hhas⟩
    · change (t.store key').number key' < t.stored + 1
      omega
    · have hlt := h.numbered key' hhas
      change (t.store key).number key' < t.stored + 1
      rw [hnumber hne]
      exact Nat.lt_succ_of_lt hlt
  · intro key₁ key₂ h₁ h₂ heq
    change (t.store key).number key₁ = (t.store key).number key₂ at heq
    rcases has_setHandshake h₁ with ⟨rfl, -⟩ | ⟨hne₁, hhas₁⟩
    · rcases has_setHandshake h₂ with ⟨rfl, -⟩ | ⟨hne₂, hhas₂⟩
      · rfl
      · have hlt := h.numbered key₂ hhas₂
        rw [hself, hnumber hne₂] at heq
        change t.number key₂ < t.stored at hlt
        omega
    · rcases has_setHandshake h₂ with ⟨rfl, -⟩ | ⟨hne₂, hhas₂⟩
      · have hlt := h.numbered key₁ hhas₁
        rw [hself, hnumber hne₁] at heq
        change t.number key₁ < t.stored at hlt
        omega
      · rw [hnumber hne₁, hnumber hne₂] at heq
        exact h.distinct key₁ key₂ hhas₁ hhas₂ heq
  · intro c key' n i hc
    obtain ⟨hlt, hhome⟩ := h.home c key' n i hc
    refine ⟨Nat.lt_succ_of_lt hlt, ?_⟩
    intro key₁ h₁ heq
    change (t.store key).number key₁ = n at heq
    rcases has_setHandshake h₁ with ⟨rfl, -⟩ | ⟨hne, hhas⟩
    · rw [hself] at heq
      change n < t.stored at hlt
      omega
    · rw [hnumber hne] at heq
      exact hhome key₁ hhas heq
  · exact h.unused
  · exact h.used
  · intro n hn
    obtain ⟨hlt, hgone⟩ := h.gone n hn
    refine ⟨Nat.lt_succ_of_lt hlt, hgone.imp_right ?_⟩
    intro hnone key' hkey'
    change (t.store key).number key' ≠ n
    rcases has_setHandshake hkey' with ⟨rfl, -⟩ | ⟨hne, hhas⟩
    · rw [hself]
      change n < t.stored at hlt
      omega
    · rw [hnumber hne]
      exact hnone key' hhas
  · exact h.granted
  · exact h.once

theorem Counted.find {key : Bytes} (h : Counted stages (w, t)) (hlook : stages conn = .looking key)
    (hhas : w.has key) (hcareful : ∀ other, t.holds other ≠ some (t.number key)) :
    Counted (update stages conn (.holding key (t.number key) 2)) (w, t.hold conn key) := by
  have hself : (t.hold conn key).holds conn = some (t.number key) := update_self _ _ _
  have hother {c : ConnId} (hc : c ≠ conn) : (t.hold conn key).holds c = t.holds c :=
    update_of_ne hc _ _
  have hfree : t.holds conn = none := by
    cases hholds : t.holds conn with
    | none => rfl
    | some n =>
      obtain ⟨key', i, hstage⟩ := (h.holds conn n).mp hholds
      rw [hlook] at hstage
      cases hstage
  have hfresh : t.number key ∉ t.established := by
    intro hmem
    obtain ⟨-, ⟨other, hheld⟩ | hnone⟩ := h.gone _ hmem
    · exact hcareful other hheld
    · exact hnone key hhas rfl
  constructor
  · intro c n
    by_cases hc : c = conn
    · subst hc
      rw [hself, update_self]
      constructor
      · intro heq
        cases heq
        exact ⟨key, 2, rfl⟩
      · rintro ⟨key', i, heq⟩
        cases heq
        rfl
    · rw [hother hc, update_of_ne hc]
      exact h.holds c n
  · intro c d n hc hd
    by_cases hcc : c = conn
    · by_cases hdc : d = conn
      · rw [hcc, hdc]
      · rw [hcc, hself] at hc
        rw [hother hdc, ← hc] at hd
        exact absurd hd (hcareful d)
    · rw [hother hcc] at hc
      by_cases hdc : d = conn
      · rw [hdc, hself] at hd
        rw [← hd] at hc
        exact absurd hc (hcareful c)
      · rw [hother hdc] at hd
        exact h.apart c d n hc hd
  · exact h.numbered
  · exact h.distinct
  · intro c key' n i hc
    by_cases hcc : c = conn
    · rw [hcc, update_self] at hc
      cases hc
      exact ⟨h.numbered key hhas, fun key' hkey' heq => h.distinct key' key hkey' hhas heq⟩
    · rw [update_of_ne hcc] at hc
      exact h.home c key' n i hc
  · intro c key' n hc
    by_cases hcc : c = conn
    · rw [hcc, update_self] at hc
      cases hc
      exact hfresh
    · rw [update_of_ne hcc] at hc
      exact h.unused c key' n hc
  · intro c key' n i hc hi
    by_cases hcc : c = conn
    · rw [hcc, update_self] at hc
      cases hc
      omega
    · rw [update_of_ne hcc] at hc
      exact h.used c key' n i hc hi
  · intro n hn
    obtain ⟨hlt, ⟨c, hheld⟩ | hnone⟩ := h.gone n hn
    · have hcc : c ≠ conn := by
        rintro rfl
        rw [hfree] at hheld
        cases hheld
      exact ⟨hlt, Or.inl ⟨c, (hother hcc).trans hheld⟩⟩
    · exact ⟨hlt, Or.inr hnone⟩
  · intro n hn
    obtain ⟨hmem, hnot⟩ := h.granted n hn
    refine ⟨hmem, ?_⟩
    intro c
    by_cases hcc : c = conn
    · rw [hcc, hself]
      intro heq
      cases heq
      exact hfresh hmem
    · rw [hother hcc]
      exact hnot c
  · exact h.once

theorem Counted.establish {key : Bytes} {n : Nat} (h : Counted stages (w, t))
    (hstage : stages conn = .holding key n 2) :
    Counted (update stages conn (.holding key n 3)) (w, t.establish conn) := by
  have hheld : t.holds conn = some n := (h.holds conn n).mpr ⟨key, 2, hstage⟩
  have hnew : (t.establish conn).established = n :: t.established := by
    change (t.holds conn).toList ++ t.established = _
    rw [hheld]
    rfl
  have hne {c : ConnId} {m : Nat} (hc : c ≠ conn) (hm : t.holds c = some m) : m ≠ n := by
    rintro rfl
    exact hc (h.apart c conn m hm hheld)
  constructor
  · intro c m
    by_cases hcc : c = conn
    · subst hcc
      rw [update_self]
      refine (h.holds c m).trans ⟨?_, ?_⟩
      · rintro ⟨key', i, heq⟩
        cases hstage.symm.trans heq
        exact ⟨key, 3, rfl⟩
      · rintro ⟨key', i, heq⟩
        cases heq
        exact ⟨key, 2, hstage⟩
    · rw [update_of_ne hcc]
      exact h.holds c m
  · exact h.apart
  · exact h.numbered
  · exact h.distinct
  · intro c key' m i hc
    by_cases hcc : c = conn
    · rw [hcc, update_self] at hc
      cases hc
      exact h.home conn key n 2 hstage
    · rw [update_of_ne hcc] at hc
      exact h.home c key' m i hc
  · intro c key' m hc
    by_cases hcc : c = conn
    · rw [hcc, update_self] at hc
      cases hc
    · rw [update_of_ne hcc] at hc
      change m ∉ (t.establish conn).established
      rw [hnew, List.mem_cons, not_or]
      exact ⟨hne hcc ((h.holds c m).mpr ⟨key', 2, hc⟩), h.unused c key' m hc⟩
  · intro c key' m i hc hi
    change m ∈ (t.establish conn).established
    rw [hnew, List.mem_cons]
    by_cases hcc : c = conn
    · rw [hcc, update_self] at hc
      cases hc
      exact Or.inl rfl
    · rw [update_of_ne hcc] at hc
      exact Or.inr (h.used c key' m i hc hi)
  · intro m hm
    change m ∈ (t.establish conn).established at hm
    rw [hnew, List.mem_cons] at hm
    rcases hm with rfl | hm
    · exact ⟨(h.home conn key m 2 hstage).1, Or.inl ⟨conn, hheld⟩⟩
    · exact h.gone m hm
  · intro m hm
    obtain ⟨hmem, hnot⟩ := h.granted m hm
    refine ⟨?_, hnot⟩
    change m ∈ (t.establish conn).established
    rw [hnew]
    exact List.mem_cons_of_mem n hmem
  · refine ⟨?_, h.once.2⟩
    change (t.establish conn).established.Nodup
    rw [hnew]
    exact List.nodup_cons.mpr ⟨h.unused conn key n hstage, h.once.1⟩

theorem Counted.write {key : Bytes} {n i : Nat} (h : Counted stages (w, t))
    (hstage : stages conn = .holding key n i) (hi : 3 ≤ i) :
    Counted (update stages conn (.holding key n (i + 1))) (w, t) := by
  constructor
  · intro c m
    by_cases hcc : c = conn
    · subst hcc
      rw [update_self]
      refine (h.holds c m).trans ⟨?_, ?_⟩
      · rintro ⟨key', j, heq⟩
        cases hstage.symm.trans heq
        exact ⟨key, i + 1, rfl⟩
      · rintro ⟨key', j, heq⟩
        cases heq
        exact ⟨key, i, hstage⟩
    · rw [update_of_ne hcc]
      exact h.holds c m
  · exact h.apart
  · exact h.numbered
  · exact h.distinct
  · intro c key' m j hc
    by_cases hcc : c = conn
    · rw [hcc, update_self] at hc
      cases hc
      exact h.home conn key n i hstage
    · rw [update_of_ne hcc] at hc
      exact h.home c key' m j hc
  · intro c key' m hc
    by_cases hcc : c = conn
    · rw [hcc, update_self] at hc
      cases hc
      omega
    · rw [update_of_ne hcc] at hc
      exact h.unused c key' m hc
  · intro c key' m j hc hj
    by_cases hcc : c = conn
    · rw [hcc, update_self] at hc
      cases hc
      exact h.used conn key n i hstage hi
    · rw [update_of_ne hcc] at hc
      exact h.used c key' m j hc hj
  · exact h.gone
  · exact h.granted
  · exact h.once

theorem Counted.grant {key : Bytes} {n : Nat} (h : Counted stages (w, t))
    (hstage : stages conn = .holding key n 6) :
    Counted (update stages conn .idle) (w.setHandshake key none, t.grant conn) := by
  have hheld : t.holds conn = some n := (h.holds conn n).mpr ⟨key, 6, hstage⟩
  have hself : (t.grant conn).holds conn = none := update_self _ _ _
  have hother {c : ConnId} (hc : c ≠ conn) : (t.grant conn).holds c = t.holds c :=
    update_of_ne hc _ _
  have hholds {c : ConnId} {m : Nat} (hc : (t.grant conn).holds c = some m) :
      c ≠ conn ∧ t.holds c = some m := by
    by_cases hcc : c = conn
    · rw [hcc, hself] at hc
      cases hc
    · rw [hother hcc] at hc
      exact ⟨hcc, hc⟩
  have hhas {key' : Bytes} (hkey' : (w.setHandshake key none).has key') :
      key' ≠ key ∧ w.has key' := by
    rcases has_setHandshake hkey' with ⟨-, hsome⟩ | hold
    · cases hsome
    · exact hold
  have hnew : (t.grant conn).granted = n :: t.granted := by
    change (t.holds conn).toList ++ t.granted = _
    rw [hheld]
    rfl
  constructor
  · intro c m
    by_cases hcc : c = conn
    · subst hcc
      rw [update_self]
      constructor
      · intro heq
        cases hself.symm.trans heq
      · rintro ⟨key', i, heq⟩
        cases heq
    · rw [update_of_ne hcc]
      rw [hother hcc]
      exact h.holds c m
  · intro c d m hc hd
    exact h.apart c d m (hholds hc).2 (hholds hd).2
  · intro key' hkey'
    exact h.numbered key' (hhas hkey').2
  · intro key₁ key₂ h₁ h₂ heq
    exact h.distinct key₁ key₂ (hhas h₁).2 (hhas h₂).2 heq
  · intro c key' m i hc
    by_cases hcc : c = conn
    · rw [hcc, update_self] at hc
      cases hc
    · rw [update_of_ne hcc] at hc
      obtain ⟨hlt, hhome⟩ := h.home c key' m i hc
      exact ⟨hlt, fun key₁ h₁ heq => hhome key₁ (hhas h₁).2 heq⟩
  · intro c key' m hc
    by_cases hcc : c = conn
    · rw [hcc, update_self] at hc
      cases hc
    · rw [update_of_ne hcc] at hc
      exact h.unused c key' m hc
  · intro c key' m i hc hi
    by_cases hcc : c = conn
    · rw [hcc, update_self] at hc
      cases hc
    · rw [update_of_ne hcc] at hc
      exact h.used c key' m i hc hi
  · intro m hm
    obtain ⟨hlt, ⟨c, hc⟩ | hnone⟩ := h.gone m hm
    · by_cases hcc : c = conn
      · rw [hcc, hheld] at hc
        cases hc
        refine ⟨hlt, Or.inr ?_⟩
        intro key' hkey' heq
        -- the entry the request was about is the one that is removed
        exact (hhas hkey').1 ((h.home conn key n 6 hstage).2 key' (hhas hkey').2 heq)
      · exact ⟨hlt, Or.inl ⟨c, (hother hcc).trans hc⟩⟩
    · exact ⟨hlt, Or.inr fun key' hkey' => hnone key' (hhas hkey').2⟩
  · intro m hm
    change m ∈ (t.grant conn).granted at hm
    rw [hnew, List.mem_cons] at hm
    rcases hm with rfl | hm
    · refine ⟨h.used conn key m 6 hstage (by decide), ?_⟩
      intro c hc
      exact (hholds hc).1 (h.apart c conn m (hholds hc).2 hheld)
    · obtain ⟨hmem, hnot⟩ := h.granted m hm
      exact ⟨hmem, fun c hc => hnot c (hholds hc).2⟩
  · refine ⟨h.once.1, ?_⟩
    change (t.grant conn).granted.Nodup
    rw [hnew]
    exact List.nodup_cons.mpr ⟨fun hmem => (h.granted n hmem).2 conn hheld, h.once.2⟩

theorem Counted.restart (h : Counted stages (w, t)) :
    Counted (fun _ => .idle) (restart w, { t with holds := fun _ => none }) where
  holds c n := by
    constructor
    · intro heq
      cases heq
    · rintro ⟨key, i, heq⟩
      cases heq
  apart c d n hc := by cases hc
  numbered key hkey := by cases hkey
  distinct key key' hkey := by cases hkey
  home c key n i hc := by cases hc
  unused c key n hc := by cases hc
  used c key n i hc := by cases hc
  gone n hn := ⟨(h.gone n hn).1, Or.inr fun key hkey => by cases hkey⟩
  granted n hn := ⟨(h.granted n hn).1, fun c hc => by cases hc⟩
  once := h.once

theorem counted_init (w : World) (hempty : ∀ key, w.state.handshakes key = none) :
    Counted (fun _ => .idle) (w, Tally.init) := by
  have hnone {key : Bytes} (h : w.has key) : False := by
    rw [World.has, hempty] at h
    cases h
  constructor
  · intro c n
    constructor
    · intro heq
      cases heq
    · rintro ⟨key, i, heq⟩
      cases heq
  · exact fun c d n hc => nomatch hc
  · exact fun key hkey => (hnone hkey).elim
  · exact fun key key' hkey => (hnone hkey).elim
  · exact fun c key n i hc => nomatch hc
  · exact fun c key n hc => nomatch hc
  · exact fun c key n i hc => nomatch hc
  · exact fun n hn => nomatch hn
  · exact fun n hn => nomatch hn
  · exact ⟨List.nodup_nil, List.nodup_nil⟩

theorem counted_move {stage : Stage} {x y : World × Tally} (h : Counted stages x)
    (hmove : Exchange conn (stages conn) x y stage) (hmeets : Careful x y) :
    Counted (update stages conn stage) y := by
  generalize hstage : stages conn = before at hmove
  have hidle {before : Stage} (hbefore : stages conn = before)
      (hnot : ∀ key n i, before ≠ .holding key n i) (key : Bytes) (n i : Nat) :
      stages conn ≠ .holding key n i := by
    rw [hbefore]
    exact hnot key n i
  cases hmove with
  | ask => exact (h.ask _ _).restage (hidle hstage nofun) nofun
  | clean =>
    exact (h.shrink fun key hkey => has_clean hkey).restage (hidle hstage nofun) nofun
  | miss => exact h.restage (hidle hstage nofun) nofun
  | @find w t key hhas =>
    refine h.find hstage hhas (hmeets conn (t.number key) (update_self _ _ _) ?_)
    intro hheld
    obtain ⟨key', i, heq⟩ := (h.holds conn _).mp hheld
    exact hidle hstage nofun key' _ i heq
  | establish hsame =>
    refine (h.establish hstage).shrink ?_
    intro key hkey
    rwa [World.has, hsame] at hkey
  | write hlow _ hsame =>
    refine (h.write hstage hlow).shrink ?_
    intro key hkey
    rwa [World.has, hsame] at hkey
  | grant => exact h.grant hstage

section Runs

variable [Platform] {statics : Statics}

theorem verified_exchange :
    Pool.Verified (exchangeRules statics Careful) Exchange .idle Counted where
  starts := by
    intro conn p hp
    rcases hp with ⟨draws, req, rfl⟩ | ⟨draws, req, rfl⟩
    · exact follows_asking draws req
    · exact follows_finishing draws req
  move h hmove hmeets := counted_move h hmove hmeets
  env := by
    rintro stages ⟨w, t⟩ ⟨w', t'⟩ h ⟨rfl, hsame⟩
    refine h.shrink ?_
    intro key hkey
    change w'.state.handshakes = w.state.handshakes at hsame
    rwa [World.has, hsame] at hkey
  crash := by
    rintro stages ⟨w, t⟩ y h rfl
    exact h.restart

/-- As long as no request looks up an entry another one is about to use, every entry establishes
a session and is answered once at most. -/
theorem used_once {w : World} (hempty : ∀ key, w.state.handshakes key = none)
    {x : Pool (World × Tally) Stop (Option Bytes) ConnId}
    (h : Pool.Reachable (exchangeRules statics Careful) (w, Tally.init) x) :
    x.state.2.established.Nodup ∧ x.state.2.granted.Nodup := by
  obtain ⟨stages, hcounted, -⟩ :=
    Pool.holds_reachable verified_exchange (counted_init w hempty) h
  exact hcounted.once

/-! ### A small exchange, finished twice -/

omit [Platform] in
/-- A request that runs while no other one is in hand is careful. -/
theorem careful_alone {p : Prog (World × Tally) Stop (Option Bytes)}
    (hp : p.Obeys (Exchange conn) (fun _ stage => stage = .idle) .idle) :
    p.Always fun x y => (∀ other, other ≠ conn → x.2.holds other = none) →
      (∀ other, other ≠ conn → y.2.holds other = none) ∧ Careful x y := by
  apply hp.always
  intro stage x y stage' hmove hnone
  have hfree {c other : ConnId} {n : Nat} (hc : y.2.holds c = some n)
      (hold : ∀ other, other ≠ conn → y.2.holds other = none) (hnot : x.2.holds c ≠ some n) :
      x.2.holds other ≠ some n := by
    by_cases hother : other = conn
    · by_cases hcc : c = conn
      · rwa [hother, ← hcc]
      · rw [hold c hcc] at hc
        cases hc
    · rw [hnone other hother]
      nofun
  have hafter : ∀ other, other ≠ conn → y.2.holds other = none := by
    intro other hother
    cases hmove with
    | find => exact (update_of_ne hother _ _).trans (hnone other hother)
    | grant => exact (update_of_ne hother _ _).trans (hnone other hother)
    | _ => exact hnone other hother
  exact ⟨hafter, fun c n hc hnot other => hfree hc hafter hnot⟩

end Runs

namespace Sample

abbrev noted := letI := platform
  (handleReqDhParams statics (draws 0).handler reqDHParams).annotate (askingNote reqDHParams) 0

abbrev finishing (conn : ConnId) := letI := platform
  (handleSetClientDhParams statics (draws 0).handler conn setClientDHParams).annotate
    (finishingNote statics conn setClientDHParams) 0

def asked : World × Tally := (noted.exec (World.init, Tally.init)).2

theorem holds_asked (other : ConnId) : asked.2.holds other = none := rfl

/-- The request to finish is handled to its end. -/
def finished : World × Tally := ((finishing 0).exec asked).2

theorem holds_finished (other : ConnId) : finished.2.holds other = none := by
  let _ := platform
  have hkeeps : (finishing 0).Always fun x y => (∀ other, other ≠ 0 → x.2.holds other = none) →
      ∀ other, other ≠ 0 → y.2.holds other = none :=
    (careful_alone (follows_finishing (draws 0).handler setClientDHParams)).mono
      fun h hnone => (h hnone).1
  have hothers := hkeeps.exec (fun _ h => h) (fun h h' hnone => h' (h hnone)) asked
    fun other _ => holds_asked other
  by_cases hother : other = 0
  · subst hother
    decide +kernel
  · exact hothers other hother

/-- Sent again, it finds no entry, and the tally stays as it is. -/
theorem exec_finished : ((finishing 1).exec finished).1 =
      .error (.error (.message "No handshake data for this nonce pair")) ∧
    ((finishing 1).exec finished).2.2.granted = [0] := by
  decide +kernel

theorem reachable_asked (meets : World × Tally → World × Tally → Prop)
    (hmeets : letI := platform
      noted.Always fun x y => (∀ other, other ≠ 0 → x.2.holds other = none) →
        (∀ other, other ≠ 0 → y.2.holds other = none) ∧ meets x y) :
    letI := platform
    Pool.Reachable (exchangeRules statics meets) (World.init, Tally.init) (Pool.init asked) :=
  letI := platform
  Pool.reachable_exec .init (k := 0) (Or.inl ⟨_, _, rfl⟩) hmeets fun _ _ => rfl

/-- The request to finish arrives on two connections. -/
def twice : Pool (World × Tally) Stop (Option Bytes) ConnId :=
  ⟨asked, update (update (fun _ => none) 0 (some (finishing 0))) 1 (some (finishing 1))⟩

/-- Both look the entry up before either of them goes on. -/
def schedule : List ConnId := [0, 0, 1, 1] ++ List.replicate 5 0 ++ List.replicate 5 1

theorem granted_twice : (schedule.foldl Pool.advance twice).state.2.granted = [0, 0] := by
  decide +kernel

end Sample

/-- The request to finish arrives again once it has been handled, and is refused. -/
theorem used_once_sample : letI := Sample.platform
    let x := ((Sample.finishing 1).exec Sample.finished).2
    Pool.Reachable (exchangeRules Sample.statics Careful) (World.init, Tally.init)
        (Pool.init x : Pool (World × Tally) Stop (Option Bytes) ConnId) ∧
      x.2.granted = [0] ∧ x.2.established.Nodup ∧ x.2.granted.Nodup := by
  let _ := Sample.platform
  have hasked := Sample.reachable_asked Careful (careful_alone (follows_asking _ _))
  have hfinished := Pool.reachable_exec hasked (k := 0)
    (Or.inr ⟨(Sample.draws 0).handler, Sample.setClientDHParams, rfl⟩)
    (careful_alone (follows_finishing _ _)) (fun other _ => Sample.holds_asked other)
  have hagain := Pool.reachable_exec hfinished (k := 1)
    (Or.inr ⟨(Sample.draws 0).handler, Sample.setClientDHParams, rfl⟩)
    (careful_alone (follows_finishing _ _)) (fun other _ => Sample.holds_finished other)
  exact ⟨hagain, Sample.exec_finished.2, used_once (fun _ => rfl) hagain⟩

/-- Two requests in progress at once are both answered from one entry. -/
theorem not_used_once : ¬ ∀ (_ : Platform) (statics : Statics)
    (x : Pool (World × Tally) Stop (Option Bytes) ConnId),
    Pool.Reachable (exchangeRules statics fun _ _ => True) (World.init, Tally.init) x →
    x.state.2.established.Nodup ∧ x.state.2.granted.Nodup := by
  intro h
  have halone := @careful_alone 0 _ (@follows_asking Sample.platform Sample.statics 0
    (Sample.draws 0).handler Sample.reqDHParams)
  have hasked := Sample.reachable_asked (fun _ _ => True)
    (halone.mono fun h hnone => ⟨(h hnone).1, trivial⟩)
  have hfirst := hasked.step (.start (k := 0) (p := Sample.finishing 0) rfl (Or.inr ⟨_, _, rfl⟩))
  have hsecond := hfirst.step (.start (k := 1) (p := Sample.finishing 1) rfl (Or.inr ⟨_, _, rfl⟩))
  have hboth := Pool.reachable_advance hsecond (fun _ _ => trivial) Sample.schedule
  have hnodup := (h Sample.platform Sample.statics _ hboth).2
  change (Sample.schedule.foldl Pool.advance Sample.twice).state.2.granted.Nodup at hnodup
  rw [Sample.granted_twice] at hnodup
  exact absurd hnodup (by decide)

end KoSta.Server
