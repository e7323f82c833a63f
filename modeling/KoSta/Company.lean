import KoSta.Conversation

/-! Any number of clients in touch with one server: each is told what the handlers answer when the
requests of all are put to them one after another. -/
namespace KoSta
open Lib Tl Crypto Transport Client Server Function

/-- What a client holds of the server: its key with the identifier, its connection and what the
server draws on it. -/
structure Party where
  id : Int64
  keys : AesKey × MacKey × AesKey × MacKey
  conn : ConnId
  draws : Nat → FrameDraws

/-- Clients and the server they share. The worlds of their own links do not count. -/
structure Company (κ : Type) where
  world : World
  clients : κ → Session Link

/-- The handlers under many sessions. -/
structure Services (κ : Type) where
  world : World
  sides : κ → Direct

variable {κ : Type}

def Company.client (g : Company κ) (c : κ) : Session Link :=
  { g.clients c with transport := { (g.clients c).transport with world := g.world } }

def Services.side (d : Services κ) (c : κ) : Direct := { d.sides c with world := d.world }

section Moves

variable [Platform] [DecidableEq κ]

/-- One client's move, on the world that the others have left. -/
def Company.exec (g : Company κ) (c : κ) (m : Move) :
    Except (Failure KostaError) (Option TlObject) × Company κ :=
  let (result, s) := m.exec (g.client c)
  (result, ⟨s.transport.world, update g.clients c s⟩)

def Company.converse : List (κ × Move) → Company κ →
    List (Except (Failure KostaError) (Option TlObject)) × Company κ
  | [], g => ([], g)
  | (c, m) :: moves, g =>
    ((g.exec c m).1 :: (converse moves (g.exec c m).2).1, (converse moves (g.exec c m).2).2)

variable (statics : Statics) (party : κ → Party)

def Services.move (d : Services κ) (c : κ) (m : Move) : Option (Option TlObject × Services κ) :=
  ((d.side c).move statics (party c).conn (party c).draws (party c).id m).map
    fun (result, side) => (result, ⟨side.world, update d.sides c side⟩)

/-- A run of moves, each of one client, with what they return. -/
inductive Conversations (k : Nat) :
    Services κ → List (κ × Move) → List (Option TlObject) → Services κ → Prop where
  | nil {d} : Conversations k d [] [] d
  | cons {d d' d'' c m moves result results} :
    (d.side c).Allows statics (party c).conn (party c).draws (party c).id k m →
    d.move statics party c m = some (result, d') → Conversations k d' moves results d'' →
    Conversations k d ((c, m) :: moves) (result :: results) d''

/-- The conversations of these moves, if there are any. -/
def Services.converse (k : Nat) :
    List (κ × Move) → Services κ → Option (List (Option TlObject) × Services κ)
  | [], d => some ([], d)
  | (c, m) :: moves, d =>
    if (d.side c).allows statics (party c).conn (party c).draws (party c).id k m then do
      let (result, d) ← d.move statics party c m
      let (results, d) ← Services.converse k moves d
      return (result :: results, d)
    else
      none

variable {statics party} {k : Nat} {d d' : Services κ}

theorem conversations_spec {moves : List (κ × Move)} {results : List (Option TlObject)}
    (h : d.converse statics party k moves = some (results, d')) :
    Conversations statics party k d moves results d' := by
  induction moves generalizing d results with
  | nil =>
    cases h
    exact .nil
  | cons first moves ih =>
    obtain ⟨c, m⟩ := first
    unfold Services.converse at h
    split at h
    · rename_i hallows
      obtain ⟨⟨result, d₁⟩, hmove, h⟩ := Option.bind_eq_some_iff.mp h
      obtain ⟨⟨results', d₂⟩, hrest, h⟩ := Option.bind_eq_some_iff.mp h
      cases h
      exact .cons (allows_spec hallows) hmove (ih hrest)
    · cases h

end Moves

/-! ### In touch -/

section Touch

variable [Platform] {statics : Statics} {party : κ → Party} {k : Nat} {n r : κ → Nat}
  {g : Company κ} {d d' : Services κ}

/-- Every client is in touch. -/
structure Company.InTouch (k : Nat) (statics : Statics) (party : κ → Party) (n r : κ → Nat)
    (g : Company κ) (d : Services κ) : Prop where
  each : ∀ c, KoSta.InTouch k (party c).keys (party c).id statics (party c).conn (party c).draws
    (n c) (r c) (g.client c) (d.side c)
  owned : Owned g.world
  holdings : Server.holdings g.world = Server.holdings d.world

/-- A client stays in touch while the server is occupied with another. -/
theorem InTouch.wait {keys : AesKey × MacKey × AesKey × MacKey} {id i : Int64} {conn : ConnId}
    {draws : Nat → FrameDraws} {n r : Nat} {s : Session Link} {d : Direct} {world world' : World}
    (h : InTouch k keys i statics conn draws n r s d) (hi : i ≠ id)
    (howned : Owned s.transport.world) (hbypass : Bypasses id s.transport.world world)
    (hholds : Server.holdings world = Server.holdings world') :
    InTouch k keys i statics conn draws n r { s with transport := { s.transport with world } }
      { d with world := world' } := by
  obtain ⟨last, hknown, hbehind⟩ := h.known
  exact { h with
    known := ⟨last, (hbypass howned).2 i hi _ hknown, hbehind⟩
    holdings := hholds }

variable [DecidableEq κ]

/-- A client's move returns what the direct move does, and everyone is in touch after it. -/
theorem Company.InTouch.move (h : Company.InTouch k statics party n r g d)
    (hdistinct : Injective fun c => (party c).id) {c : κ} (hid : (party c).id ≠ 0)
    (hn : n c + 1 < 2 ^ 31) {m : Move} {result : Option TlObject}
    (hallows : (d.side c).Allows statics (party c).conn (party c).draws (party c).id k m)
    (hmove : d.move statics party c m = some (result, d')) :
    ∃ n' r', (∀ i, n' i ≤ n i + 1) ∧ (g.exec c m).1 = .ok result ∧
      Company.InTouch k statics party n' r' (g.exec c m).2 d' := by
  obtain ⟨⟨_, side⟩, hside, heq⟩ := Option.map_eq_some_iff.mp hmove
  cases heq
  obtain ⟨n', r', hn', hresult, htouch, hbypass⟩ := (h.each c).move hid hn hallows hside
  refine ⟨update n c n', update r c r', fun i => ?_, hresult,
    ⟨fun i => ?_, (hbypass h.owned).1, htouch.holdings⟩⟩
  · by_cases hi : i = c
    · subst hi
      rw [update_self]
      exact hn'
    · rw [update_of_ne hi]
      exact Nat.le_succ _
  · unfold Company.client Services.side Company.exec
    dsimp only
    by_cases hi : i = c
    · subst hi
      simp only [update_self]
      exact htouch
    · simp only [update_of_ne hi]
      have hne : (party i).id ≠ (party c).id := fun heq => hi (hdistinct heq)
      exact (h.each i).wait hne h.owned hbypass htouch.holdings

theorem Company.InTouch.converse (h : Company.InTouch k statics party n r g d)
    (hdistinct : Injective fun c => (party c).id) (hid : ∀ c, (party c).id ≠ 0)
    {moves : List (κ × Move)} {results : List (Option TlObject)}
    (hconversations : Conversations statics party k d moves results d')
    (hfew : ∀ c, n c + moves.length < 2 ^ 31) :
    (g.converse moves).1 = results.map .ok ∧
      ∃ n' r', Company.InTouch k statics party n' r' (g.converse moves).2 d' := by
  induction hconversations generalizing n r g with
  | nil => exact ⟨rfl, n, r, h⟩
  | @cons d d' d'' c m moves result results hallows hmove _ ih =>
    have hn : n c + 1 < 2 ^ 31 := by
      have hc := hfew c
      rw [List.length_cons] at hc
      omega
    obtain ⟨n', r', hn', hresult, htouch⟩ := h.move hdistinct (hid c) hn hallows hmove
    have hfew' : ∀ i, n' i + moves.length < 2 ^ 31 := by
      intro i
      have hi := hfew i
      have hle := hn' i
      rw [List.length_cons] at hi
      omega
    obtain ⟨hresults, hend⟩ := ih htouch hfew'
    exact ⟨congrArg₂ List.cons hresult hresults, hend⟩

/-- What each client gets from its calls, and what the calls of all leave in the tables, is what
the handlers answer and leave when all requests are put to them directly. -/
theorem company_direct (h : Company.InTouch k statics party n r g d)
    (hdistinct : Injective fun c => (party c).id) (hid : ∀ c, (party c).id ≠ 0)
    {moves : List (κ × Move)} {results : List (Option TlObject)}
    (hconversations : Conversations statics party k d moves results d')
    (hfew : ∀ c, n c + moves.length < 2 ^ 31) :
    (g.converse moves).1 = results.map .ok ∧
      Server.holdings (g.converse moves).2.world = Server.holdings d'.world := by
  obtain ⟨hresults, _, _, htouch⟩ := h.converse hdistinct hid hconversations hfew
  exact ⟨hresults, htouch.holdings⟩

end Touch

/-! ### Two clients -/

namespace Sample

/-- The session of the second client as its key exchange has stored it. -/
def secondRow : FullSession := { storedRow with authKeyId := 8 }

def parties : Bool → Party
  | false => ⟨7, blankCrypto.keys, 0, turns⟩
  | true => ⟨8, blankCrypto.keys, 1, turns⟩

def sharedWorld : World := (World.init.save storedRow []).save secondRow []

/-- Two clients whose server has been started again. -/
def company : Company Bool where
  world := sharedWorld
  clients c := { caller with
    authKeyId := some (parties c).id
    transport := { caller.transport with conn := (parties c).conn } }

def services : Services Bool := ⟨sharedWorld, fun _ => service⟩

def groupOfTwo : TlObject := .createGroup { title := "", participants := [⟨2⟩] }

def hello : TlObject := .sendMessage { chatId := ⟨1⟩, text := "hello", randomId := 0 }

def readBack : TlObject := .getHistory { chatId := ⟨1⟩, offset := 0, limit := 10 }

/-- What the second client reads of what the first has written. -/
def history : TlObject := .historyResult
  { messages := [{
      id := ⟨1⟩, chatId := ⟨1⟩, senderId := ⟨1⟩, text := "hello", timestamp := 0
      isOutgoing := true, read := false, delivered := false }], totalCount := 1 }

def sharedMoves : List (Bool × Move) :=
  [(false, .send 1 (Vector.replicate 12 0) signUp),
    (true, .send 1 (Vector.replicate 12 0) (.signUp { phone := "2", password := "" })),
    (false, .send 1 (Vector.replicate 12 0) groupOfTwo),
    (false, .send 1 (Vector.replicate 12 0) hello), (true, .evict 8),
    (true, .send 1 (Vector.replicate 12 0) readBack), (true, .recv 2)]

end Sample

/-- Two clients sign up, and the second reads what the first has written. -/
theorem company_direct_two :
    letI := Server.Sample.platform
    (Sample.company.converse Sample.sharedMoves).1 =
      [.ok none, .ok none, .ok none, .ok none, .ok none, .ok none, .ok (some Sample.history)] := by
  let platform := Server.Sample.platform
  have hseqNo : (-1 : Int32) + 1 = Int32.ofNat 0 := by decide
  have hstands : ∀ i, (sessionOfRow i { Sample.storedRow with authKeyId := i } 0).StandsAt
      ⟨blankCrypto.keys, 0, 0, 0⟩ := fun i =>
    ⟨rfl, hseqNo, rfl, hseqNo, rfl, Nat.le_refl 0, Nat.le_refl 0, Nat.le_refl 0, Nat.le_refl 0⟩
  have hknown : ∀ c, Known (Sample.parties c).id ⟨blankCrypto.keys, 0, 0, 0⟩
      Sample.sharedWorld := by
    intro c
    cases c with
    | false => exact Or.inr ⟨rfl, Sample.storedRow, rfl, hstands 7⟩
    | true => exact Or.inr ⟨rfl, Sample.secondRow, rfl, hstands 8⟩
  have htouch : Company.InTouch 0 Server.Sample.statics Sample.parties (fun _ => 0) (fun _ => 0)
      Sample.company Sample.services := by
    refine ⟨fun c => ?_, ⟨nofun, nofun⟩, rfl⟩
    have hfresh := inTouch_fresh (s := Sample.company.client c) 0 rfl rfl rfl rfl rfl rfl rfl rfl
      rfl (hknown c)
    cases c <;> exact hfresh
  have hresults : (Sample.services.converse Server.Sample.statics Sample.parties 0
      Sample.sharedMoves).map Prod.fst =
        some [none, none, none, none, none, none, some Sample.history] := by
    decide +kernel
  obtain ⟨⟨_, d'⟩, hconverse, rfl⟩ := Option.map_eq_some_iff.mp hresults
  have hdistinct : ∀ c c', (Sample.parties c).id = (Sample.parties c').id → c = c' := by decide
  exact (company_direct htouch (fun c c' => hdistinct c c') (by decide)
    (conversations_spec hconverse)
    fun _ => by decide).1

end KoSta
