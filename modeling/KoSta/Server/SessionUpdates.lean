import KoSta.Server.Effects
import KoSta.Server.Interleavings
import KoSta.Server.Responses
import KoSta.Server.Standing

/-! Frames of one session on several connections: whether an update of the session is lost. -/
namespace KoSta.Server
open Lib Lib.Prog Tl Crypto Function

/-! ### How a session gets on -/

/-- The session is cached, and its row has the same user and the same key for replies. -/
structure Core.Stores (g : Core) (id : Int64) (session : SessionData) : Prop where
  entry : g.cache id = some session
  row : ∃ row, g.db.sessions id = some row ∧ row.userId = session.userId ∧
    row.serverWriteKey = session.crypto.serverWriteKey

section Advances

variable [Platform]

/-- To the holder of the key these replies, latest first, carry ascending numbers, which are among
the `n` that follow this one. -/
def Numbered (key : AesKey) (first : Int32) (n : Nat) (replies : List (ConnId × Bytes)) : Prop :=
  ∃ ks : List Nat, (replies.map fun reply => sentSeqNo key reply.2) =
      ks.map (fun k => some (first + Int32.ofNat k)) ∧
    ks.Pairwise (· > ·) ∧ ∀ k ∈ ks, 0 < k ∧ k ≤ n

theorem Numbered.nil (key : AesKey) (first : Int32) (n : Nat) : Numbered key first n [] :=
  ⟨[], rfl, .nil, nofun⟩

theorem Numbered.append {key : AesKey} {first : Int32} {n n' : Nat}
    {replies replies' : List (ConnId × Bytes)} (h : Numbered key first n replies)
    (h' : Numbered key (first + Int32.ofNat n) n' replies') :
    Numbered key first (n + n') (replies' ++ replies) := by
  obtain ⟨ks, hks, hdescends, hbounds⟩ := h
  obtain ⟨ks', hks', hdescends', hbounds'⟩ := h'
  refine ⟨ks'.map (n + ·) ++ ks, ?_, ?_, ?_⟩
  · rw [List.map_append, List.map_append, List.map_map, hks, hks']
    refine congrArg (· ++ _) (List.map_congr_left fun k _ => ?_)
    rw [Function.comp_apply, Int32.ofNat_add, Int32.add_assoc]
  · refine List.pairwise_append.mpr ⟨hdescends'.map _ fun k l hlt => by omega, hdescends, ?_⟩
    intro k hk l hl
    obtain ⟨k', hk', rfl⟩ := List.mem_map.mp hk
    have hlow := (hbounds l hl).2
    have hhigh := (hbounds' k' hk').1
    omega
  · intro k hk
    rcases List.mem_append.mp hk with hk | hk
    · obtain ⟨k', hk', rfl⟩ := List.mem_map.mp hk
      have hbound := hbounds' k' hk'
      omega
    · have hbound := hbounds k hk
      omega

omit [Platform] in
theorem eq_of_ofNat_eq {k l : Nat} (hk : k < 2 ^ 32) (hl : l < 2 ^ 32)
    (h : Int32.ofNat k = Int32.ofNat l) : k = l := by
  have hbits : k % 2 ^ 32 = l % 2 ^ 32 := congrArg (fun x : Int32 => x.toBitVec.toNat) h
  rwa [Nat.mod_eq_of_lt hk, Nat.mod_eq_of_lt hl] at hbits

/-- As long as the numbers do not come round, no two of them carry one number. -/
theorem Numbered.nodup {key : AesKey} {first : Int32} {n : Nat} {replies : List (ConnId × Bytes)}
    (h : Numbered key first n replies) (hn : n < 2 ^ 32) :
    (replies.map fun reply => sentSeqNo key reply.2).Nodup ∧
      none ∉ replies.map fun reply => sentSeqNo key reply.2 := by
  obtain ⟨ks, hks, hdescends, hbounds⟩ := h
  rw [hks]
  constructor
  · refine List.Nodup.map_on ?_ ?_
    · intro k hk l hl heq
      have hsum := Option.some.inj heq
      have hk := (hbounds k hk).2
      have hl := (hbounds l hl).2
      exact eq_of_ofNat_eq (by omega) (by omega) ((Int32.add_right_inj first).mp hsum)
    · exact hdescends.imp fun hlt heq => by omega
  · intro hmem
    obtain ⟨k, -, hk⟩ := List.mem_map.mp hmem
    cases hk

/-- From the one to the other these users have been created and these replies sent. The session has
the user created last, and `n` more numbers have been taken. -/
structure Advances (id : Int64) (session : SessionData) (g : Core) (session' : SessionData)
    (g' : Core) (created : List UserRow) (n : Nat) (replies : List (ConnId × Bytes)) : Prop where
  stores : g'.Stores id session'
  users : g'.db.users = g.db.users ++ created
  sent : g'.sent = replies ++ g.sent
  recents : session'.recentMsgIds = session.recentMsgIds
  key : session'.crypto.serverWriteKey = session.crypto.serverWriteKey
  userId : session'.userId = (created.getLast?.map UserRow.id).getD session.userId
  sendSeqNo : session'.sendSeqNo = session.sendSeqNo + Int32.ofNat n
  checked : overflowChecks = true → session'.sendSeqNo.toInt = session.sendSeqNo.toInt + n
  numbered : Numbered session.crypto.serverWriteKey session.sendSeqNo n replies

variable {id : Int64} {session session' session'' : SessionData} {g g' g'' : Core}
variable {created created' : List UserRow} {n n' : Nat} {replies replies' : List (ConnId × Bytes)}

/-- Something has been done that is not the session's. -/
theorem Advances.aside (h : g'.Stores id session) (husers : g'.db.users = g.db.users)
    (hsent : g'.sent = g.sent) : Advances id session g session g' [] 0 [] where
  stores := h
  users := husers.trans (List.append_nil _).symm
  sent := hsent
  recents := rfl
  key := rfl
  userId := rfl
  sendSeqNo := (Int32.add_zero _).symm
  checked := fun _ => (Int.add_zero _).symm
  numbered := .nil _ _ _

theorem Advances.trans (h : Advances id session g session' g' created n replies)
    (h' : Advances id session' g' session'' g'' created' n' replies') :
    Advances id session g session'' g'' (created ++ created') (n + n')
      (replies' ++ replies) where
  stores := h'.stores
  users := by rw [h'.users, h.users, List.append_assoc]
  sent := by rw [h'.sent, h.sent, List.append_assoc]
  recents := h'.recents.trans h.recents
  key := h'.key.trans h.key
  userId := by
    rw [h'.userId, h.userId, List.getLast?_append]
    cases created'.getLast? with
    | none => rfl
    | some u => rfl
  sendSeqNo := by rw [h'.sendSeqNo, h.sendSeqNo, Int32.ofNat_add, Int32.add_assoc]
  checked hchecks := by rw [h'.checked hchecks, h.checked hchecks, Int.natCast_add, Int.add_assoc]
  numbered := by
    have hnumbered := h'.numbered
    rw [h.key, h.sendSeqNo] at hnumbered
    exact h.numbered.append hnumbered

/-- A build that checks for overflows runs out of numbers before they come round. -/
theorem Advances.lt_of_checked (h : Advances id session g session' g' created n replies)
    (hchecks : overflowChecks = true) : n < 2 ^ 32 := by
  have hsum := h.checked hchecks
  have hlow := session.sendSeqNo.le_toInt
  have hhigh := session'.sendSeqNo.toInt_lt
  omega

/-- The reply goes out under the last number that has been taken. -/
theorem Advances.send {reply : ConnId × Bytes} (h : Advances id session g session' g' created n [])
    (hn : 0 < n) (hstores : g''.Stores id session') (husers : g''.db.users = g'.db.users)
    (hsent : g''.sent = reply :: g'.sent)
    (hread : sentSeqNo session.crypto.serverWriteKey reply.2 = some session'.sendSeqNo) :
    Advances id session g session' g'' created n [reply] :=
  { h with
    stores := hstores
    users := husers.trans h.users
    sent := hsent.trans (congrArg (reply :: ·) h.sent)
    numbered := by
      refine ⟨[n], ?_, List.pairwise_singleton _ _, fun k hk => ?_⟩
      · rw [List.map_singleton, List.map_singleton, hread, h.sendSeqNo]
      · rw [List.mem_singleton.mp hk]
        exact ⟨hn, Nat.le_refl n⟩ }

/-- The session has got from the one to the other with at most `n` numbers taken, unless it has been
given a new recent set. -/
def Proceeds (id : Int64) (session : SessionData) (n : Nat) (g g' : Core) : Prop :=
  ∃ session', g'.Stores id session' ∧ (session'.recentMsgIds = session.recentMsgIds →
    ∃ created m replies, m ≤ n ∧ Advances id session g session' g' created m replies)

theorem Advances.proceeds (h : Advances id session g session' g' created n replies) :
    Proceeds id session n g g' :=
  ⟨session', h.stores, fun _ => ⟨created, n, replies, Nat.le_refl n, h⟩⟩

theorem Proceeds.aside (h : g'.Stores id session) (husers : g'.db.users = g.db.users)
    (hsent : g'.sent = g.sent) : Proceeds id session 0 g g' :=
  (Advances.aside h husers hsent).proceeds

theorem Proceeds.mono (h : Proceeds id session n g g') (hn : n ≤ n') :
    Proceeds id session n' g g' := by
  obtain ⟨session', hstores, hadvances⟩ := h
  refine ⟨session', hstores, fun hset => ?_⟩
  obtain ⟨created, m, replies, hm, hadvances⟩ := hadvances hset
  exact ⟨created, m, replies, Nat.le_trans hm hn, hadvances⟩

theorem Proceeds.after (h : Advances id session g session' g' created n replies)
    (h' : Proceeds id session' n' g' g'') : Proceeds id session (n + n') g g'' := by
  obtain ⟨session'', hstores, hadvances⟩ := h'
  refine ⟨session'', hstores, fun hset => ?_⟩
  obtain ⟨created', m, replies', hm, hadvances⟩ := hadvances (hset.trans h.recents.symm)
  exact ⟨_, _, _, Nat.add_le_add_left hm n, h.trans hadvances⟩

end Advances

/-! ### What a frame that is accepted does -/

section Frames

variable {w : World} {id : Int64} {session : SessionData} {conn : ConnId}

/-- What is written is both in the row and in the cache. -/
theorem stores_write (w : World) (conn : ConnId) (session : SessionData)
    (saved cached : List Event) :
    (w.write conn id session saved cached).core.Stores id session := by
  have hrow : (w.write conn id session saved cached).row id = some (session.toRow id) :=
    row_write saved cached w
  exact ⟨update_self _ _ _, _, hrow, rfl, rfl⟩

/-- A statement that changes neither the user nor the key. -/
theorem Core.Stores.modifyRow (h : w.core.Stores id session) {f : FullSession → FullSession}
    (huser : ∀ row, (f row).userId = row.userId)
    (hkey : ∀ row, (f row).serverWriteKey = row.serverWriteKey) :
    (w.modifyRow id f).core.Stores id session := by
  obtain ⟨hentry, row, hrow, hsame, hsealed⟩ := h
  refine ⟨hentry, f row, ?_, (huser row).trans hsame, (hkey row).trans hsealed⟩
  exact (if_pos rfl).trans (congrArg (Option.map f) hrow)

variable [Platform]

/-! #### The request -/

theorem proceeds_handleSignUp (h : w.core.Stores id session) (draws : Draws) (conn : ConnId)
    (req : SignUp) :
    Proceeds id session 0 w.core ((handleSignUp draws conn (some id) req).exec w).2.core := by
  rcases insertUser_cases req.phone (bcryptHash draws.salt req.password) w.state.db with
    ⟨e, hinsert⟩ | ⟨u, -, hinsert⟩
  · rw [handleSignUp_error id draws hinsert]
    exact .aside h rfl rfl
  · let user : UserRow := ⟨u, req.phone, bcryptHash draws.salt req.password⟩
    let w₁ := (w.signedUp id u { w.state.db with users := w.state.db.users ++ [user] }).log
      [.lookedUp conn id session]
    have hentry : (w.signedUp id u { w.state.db with
        users := w.state.db.users ++ [user] }).state.cache id = some session := h.entry
    have hadvances : Advances id session w.core { session with userId := u }
        (w₁.write conn id { session with userId := u } [] []).core [user] 0 [] :=
      { stores := stores_write w₁ conn _ [] []
        users := rfl
        sent := rfl
        recents := rfl
        key := rfl
        userId := rfl
        sendSeqNo := (Int32.add_zero _).symm
        checked := fun _ => (Int.add_zero _).symm
        numbered := .nil _ _ _ }
    rw [exec_handleSignUp id draws hinsert, Prog.exec_bind, exec_getSession_hit conn _ hentry]
    exact hadvances.proceeds

/-- A finished key exchange leaves the session alone, or gives it a new recent set. -/
theorem proceeds_create (h : w.core.Stores id session)
    (hnext : session.recentMsgIds < w.state.nextRecent) (created : RecentMsgIds → SessionData)
    (hcreated : (created w.state.nextRecent).recentMsgIds = w.state.nextRecent) (conn : ConnId)
    (other : Int64) (key : Bytes) : Proceeds id session 0 w.core
      ((w.create conn other created).setHandshake key none).core := by
  by_cases hid : other = id
  · subst hid
    refine ⟨created w.state.nextRecent, ⟨World.create_cache w conn other created key, _,
      World.create_row w conn other created key, rfl, rfl⟩, fun hset => ?_⟩
    rw [← hset, hcreated] at hnext
    exact absurd hnext (Nat.lt_irrefl _)
  · have hdb := World.create_db w conn other created key
    obtain ⟨hentry, row, hrow, hsame⟩ := h
    refine .aside ⟨(update_of_ne (Ne.symm hid) _ _).trans hentry, row, ?_, hsame⟩ rfl rfl
    refine (congrFun (congrArg Database.sessions hdb) id).trans ?_
    exact (update_of_ne (Ne.symm hid) _ _).trans hrow

theorem proceeds_handleSetClientDhParams (h : w.core.Stores id session)
    (hnext : session.recentMsgIds < w.state.nextRecent) (statics : Statics) (draws : Draws)
    (conn : ConnId) (req : SetClientDHParams) : Proceeds id session 0 w.core
      ((handleSetClientDhParams statics draws conn req).exec w).2.core := by
  have hclean : (w.clean draws.instant).core.Stores id session := ⟨h.entry, h.row⟩
  rcases handleSetClientDhParams_cases statics draws conn req w with
    ⟨e, heq⟩ | ⟨entry, inner, -, -, heq⟩
  · rw [heq]
    exact .aside hclean rfl rfl
  · rw [heq]
    have hcreate := proceeds_create hclean hnext (newSession (secretOf statics entry inner)
      req.nonce req.serverNonce entry.newNonce) rfl conn
      (computeAuthKeyId (secretOf statics entry inner)) (handshakeKey req.nonce req.serverNonce)
    exact .after (.aside (g := w.core) hclean rfl rfl) hcreate

/-- A handler leaves the session with the user that has signed up, or gives it a new recent set. -/
theorem proceeds_handleRequest (h : w.core.Stores id session)
    (hnext : session.recentMsgIds < w.state.nextRecent) (statics : Statics) (draws : Draws)
    (conn : ConnId) (obj : TlObject) : Proceeds id session 0 w.core
      ((handleRequest statics draws conn obj (some id)).exec w).2.core := by
  rcases db_handleRequest statics draws conn (some id) obj w with ⟨req, rfl⟩ | ⟨req, rfl⟩ | hdb
  · exact proceeds_handleSignUp h draws conn req
  · exact proceeds_handleSetClientDhParams h hnext statics draws conn req
  · rcases handleRequest_cases (some id) statics draws conn obj with
      ⟨req, rfl⟩ | ⟨req, rfl⟩ | hquiet
    · exact proceeds_handleSignUp h draws conn req
    · exact proceeds_handleSetClientDhParams h hnext statics draws conn req
    · have hexec := hquiet.always.exec Quiet.refl Quiet.trans w
      generalize ((handleRequest statics draws conn obj (some id)).exec w).2 = w' at hdb hexec ⊢
      have husers : w'.state.db.users = w.state.db.users := by
        rw [hdb]
        cases requester w (some id) with
        | none => rfl
        | some u => exact users_applied draws w u obj
      obtain ⟨hentry, row, hrow, hsame⟩ := h
      refine .aside ⟨(congrFun hexec.cache id).trans hentry, row, ?_, hsame⟩ husers ?_
      · exact (congrFun hexec.sessions id).trans hrow
      · exact congrArg (List.filterMap Event.sent?) hexec.trace

/-! #### The reply -/

omit [Platform] in
theorem exec_transportSend (conn : ConnId) (data : Bytes) (events : List Event) (w : World) :
    (transportSend conn data events).exec w = (.error .panic, w) ∨
      (transportSend conn data events).exec w = (.ok (), w.log (.sent conn data :: events)) := by
  unfold transportSend
  cases Transport.encodeFrame data with
  | none => exact Or.inl rfl
  | some stream => exact Or.inr rfl

theorem toInt_of_succI32 {x y : Int32} (h : succI32 x = some y) (hchecks : overflowChecks = true) :
    y.toInt = x.toInt + 1 := by
  have hlow := x.le_toInt
  have hhigh := x.toInt_lt
  unfold succI32 at h
  split at h
  · cases h
  · next hnot =>
    cases h
    have hmax : x.toInt + 1 ≠ 2 ^ 31 := fun heq => hnot ⟨hchecks, heq⟩
    have hone : Int32.toInt 1 = 1 := rfl
    rw [Int32.toInt_add, hone, Int.bmod_eq_of_le] <;> omega

/-- How a reply can end. -/
inductive Responded (conn : ConnId) (id : Int64) (session : SessionData) (key : AesKey)
    (w : World) : World → Prop where
  | unnumbered : Responded conn id session key w (w.log [.lookedUp conn id session])
  | unsealed {seqNo} : succI32 session.sendSeqNo = some seqNo →
    Responded conn id session key w (w.reserve conn id session seqNo)
  | unsent {seqNo crypto} : succI32 session.sendSeqNo = some seqNo → crypto.serverWriteKey = key →
    Responded conn id session key w
      ((w.reserve conn id session seqNo).settle conn id (session.reserve seqNo) crypto)
  | sent {seqNo crypto frame events} : succI32 session.sendSeqNo = some seqNo →
    crypto.serverWriteKey = key → sentSeqNo key frame = some seqNo →
    events.filterMap Event.sent? = [] → Responded conn id session key w
      (((w.reserve conn id session seqNo).settle conn id (session.reserve seqNo) crypto).log
        (.sent conn frame :: events))

theorem responded_respondEncrypted (h : w.state.cache id = some session) (draws : FrameDraws)
    (conn : ConnId) (m : Int64) (crypto : SessionCrypto) (data : Bytes) :
    Responded conn id session crypto.serverWriteKey w
      ((respondEncrypted draws conn ⟨id, m, crypto⟩ data).exec w).2 := by
  unfold respondEncrypted
  rw [Prog.exec_bind]
  rcases exec_reserveResponse_hit h conn with ⟨-, hexec⟩ | ⟨seqNo, hseq, hexec⟩
  · rw [hexec]
    exact .unnumbered
  · rw [hexec]
    dsimp only
    cases hsealed : crypto.encryptOutgoingServer draws.responseRandom
        (withHeader (msgId draws.responseNow session.msgIdCounter) seqNo data) with
    | none => exact .unsealed hseq
    | some sealed =>
      obtain ⟨sendCounter, -, rfl⟩ := encryptOutgoingServer_some hsealed
      have hentry : (w.reserve conn id session seqNo).state.cache id =
          some (session.reserve seqNo) := update_self _ _ _
      dsimp only [orPanic]
      rw [Prog.pure_bind]
      dsimp only
      rw [Prog.exec_bind, exec_storeCounters_hit hentry conn]
      dsimp only
      rw [sealFrame_encryptAndTag]
      have hread := sentSeqNo_encryptedFrame crypto.serverWriteKey crypto.serverMacKey id
        (generateNonce crypto.sendCounter draws.responseRandom)
        (msgId draws.responseNow session.msgIdCounter) seqNo data
      rcases exec_transportSend conn (responseFrame id crypto draws.responseRandom
        (withHeader (msgId draws.responseNow session.msgIdCounter) seqNo data)) _ _ with
        hsend | hsend
      · rw [hsend]
        exact .unsent hseq rfl
      · rw [hsend]
        exact .sent hseq rfl hread rfl

omit [Platform] in
theorem stores_settle (w : World) (conn : ConnId) (session : SessionData) (crypto : SessionCrypto) :
    (w.settle conn id session crypto).core.Stores id (session.settle crypto) :=
  stores_write _ conn _ _ _

omit [Platform] in
theorem stores_reserve (w : World) (conn : ConnId) (session : SessionData) (seqNo : Int32) :
    (w.reserve conn id session seqNo).core.Stores id (session.reserve seqNo) :=
  (stores_write _ conn _ _ _).modifyRow (fun _ => rfl) fun _ => rfl

theorem advances_reserve {seqNo : Int32} (hseq : succI32 session.sendSeqNo = some seqNo) (w : World)
    (conn : ConnId) : Advances id session w.core (session.reserve seqNo)
      (w.reserve conn id session seqNo).core [] 1 [] where
  stores := stores_reserve w conn session seqNo
  users := (List.append_nil _).symm
  sent := rfl
  recents := rfl
  key := rfl
  userId := rfl
  sendSeqNo := succI32_some hseq
  checked := toInt_of_succI32 hseq
  numbered := .nil _ _ _

theorem advances_settle {seqNo : Int32} {crypto : SessionCrypto}
    (hseq : succI32 session.sendSeqNo = some seqNo)
    (hkey : crypto.serverWriteKey = session.crypto.serverWriteKey) (w : World) (conn : ConnId) :
    Advances id session w.core ((session.reserve seqNo).settle crypto)
      ((w.reserve conn id session seqNo).settle conn id (session.reserve seqNo) crypto).core [] 1
      [] where
  stores := stores_settle _ conn _ crypto
  users := (List.append_nil _).symm
  sent := rfl
  recents := rfl
  key := hkey
  userId := rfl
  sendSeqNo := succI32_some hseq
  checked := toInt_of_succI32 hseq
  numbered := .nil _ _ _

/-- A reply is sent under the number that comes next, or none is sent. -/
theorem Responded.advances {key : AesKey} {w' : World} (h : Responded conn id session key w w')
    (hstores : w.core.Stores id session) : ∃ session', w'.core.Stores id session' ∧
      session'.recentMsgIds = session.recentMsgIds ∧
      (key = session.crypto.serverWriteKey → ∃ n replies, n ≤ 1 ∧
        Advances id session w.core session' w'.core [] n replies) := by
  cases h with
  | unnumbered =>
    have hsame : (w.log [.lookedUp conn id session]).core.Stores id session :=
      ⟨hstores.entry, hstores.row⟩
    exact ⟨session, hsame, rfl, fun _ => ⟨0, [], Nat.zero_le 1, .aside hsame rfl rfl⟩⟩
  | @unsealed seqNo hseq =>
    refine ⟨_, stores_reserve w conn session seqNo, rfl, fun _ => ⟨1, [], Nat.le_refl 1, ?_⟩⟩
    exact advances_reserve hseq w conn
  | @unsent seqNo crypto hseq hcrypto =>
    refine ⟨_, stores_settle _ conn _ crypto, rfl, fun hkey => ⟨1, [], Nat.le_refl 1, ?_⟩⟩
    exact advances_settle hseq (hcrypto.trans hkey) w conn
  | @sent seqNo crypto frame events hseq hcrypto hread hevents =>
    have hsettled : Core.Stores _ id _ := stores_settle (w.reserve conn id session seqNo) conn
      (session.reserve seqNo) crypto
    refine ⟨_, ⟨hsettled.entry, hsettled.row⟩, rfl,
      fun hkey => ⟨1, [(conn, frame)], Nat.le_refl 1, ?_⟩⟩
    refine (advances_settle hseq (hcrypto.trans hkey) w conn).send Nat.one_pos
      ⟨hsettled.entry, hsettled.row⟩ rfl ?_ (hkey ▸ hread)
    exact congrArg ((conn, frame) :: ·) (congrArg Core.sent (core_log hevents))

/-! #### The frame as a whole -/

theorem Proceeds.respond {key : AesKey} {w' : World} {n : Nat} {g : Core}
    (h : Proceeds id session n g w.core) (hkey : key = session.crypto.serverWriteKey)
    (hrespond : ∀ session', w.core.Stores id session' → Responded conn id session' key w w') :
    Proceeds id session (n + 1) g w'.core := by
  obtain ⟨session', hstores', hadvances'⟩ := h
  obtain ⟨session'', hstores'', hrecents, hadvances''⟩ :=
    (hrespond session' hstores').advances hstores'
  refine ⟨session'', hstores'', fun hset => ?_⟩
  obtain ⟨created, m, replies, hm, hfirst⟩ := hadvances' (hrecents.symm.trans hset)
  obtain ⟨m', replies', hm', hsecond⟩ := hadvances'' (hkey.trans hfirst.key.symm)
  exact ⟨_, _, _, Nat.add_le_add hm hm', hfirst.trans hsecond⟩

theorem proceeds_finishTurn {n : Nat} {g : Core} (h : Proceeds id session n g w.core)
    (draws : FrameDraws) (conn : ConnId) (m : Int64) {crypto : SessionCrypto}
    (hkey : crypto.serverWriteKey = session.crypto.serverWriteKey) (reply : Option Bytes) :
    Proceeds id session (n + 1) g
      ((finishTurn draws conn (some ⟨id, m, crypto⟩) reply).exec w).2.core := by
  cases reply with
  | none => exact h.mono (Nat.le_succ n)
  | some data =>
    have hexec : ((finishTurn draws conn (some ⟨id, m, crypto⟩) (some data)).exec w).2 =
        ((respondEncrypted draws conn ⟨id, m, crypto⟩ data).exec w).2 := by
      change ((respondEncrypted draws conn ⟨id, m, crypto⟩ data >>= _).exec w).2 = _
      rw [Prog.exec_bind]
      rcases (respondEncrypted draws conn ⟨id, m, crypto⟩ data).exec w with ⟨e | a, w'⟩
      · rfl
      · rfl
    rw [hexec]
    exact h.respond hkey fun session' hstores =>
      responded_respondEncrypted hstores.entry draws conn m crypto data

theorem proceeds_dispatch (h : w.core.Stores id session)
    (hnext : session.recentMsgIds < w.state.nextRecent) (statics : Statics) (draws : FrameDraws)
    (conn : ConnId) (m : Int64) {crypto : SessionCrypto}
    (hkey : crypto.serverWriteKey = session.crypto.serverWriteKey) (tlData : Bytes) :
    Proceeds id session 1 w.core
      ((dispatch statics draws conn (some ⟨id, m, crypto⟩) tlData).exec w).2.core := by
  have hsame : Proceeds id session 1 w.core w.core :=
    (Proceeds.aside h rfl rfl).mono (Nat.zero_le 1)
  cases hread : TlObject.readBoxed.run tlData with
  | err e =>
    unfold dispatch
    rw [hread]
    exact hsame
  | panic =>
    unfold dispatch
    rw [hread]
    exact hsame
  | ok obj rest =>
    let w₁ := w.log [.dispatched conn (some (id, m)) obj]
    have hlogged : w₁.core.Stores id session := ⟨h.entry, h.row⟩
    have hrequest : Proceeds id session 0 w.core _ := .after (.aside hlogged rfl rfl)
      (proceeds_handleRequest hlogged hnext statics draws.handler conn obj)
    rw [dispatch_eq statics draws conn _ hread]
    change Proceeds id session 1 w.core ((handleRequest statics draws.handler conn obj (some id) >>=
      finishTurn draws conn (some ⟨id, m, crypto⟩)).exec w₁).2.core
    rw [Prog.exec_bind]
    rcases hexec : (handleRequest statics draws.handler conn obj (some id)).exec w₁ with
      ⟨e | reply, w₂⟩
    · rw [hexec] at hrequest
      exact hrequest.mono (Nat.zero_le 1)
    · rw [hexec] at hrequest
      exact proceeds_finishTurn hrequest draws conn m hkey reply

/-- What the session goes through from the first write of a frame that is accepted to the last. -/
theorem proceeds_rest (f : Frame) {a : Admission}
    (hnext : a.session.recentMsgIds < w.state.nextRecent)
    (hkey : a.crypto.serverWriteKey = a.session.crypto.serverWriteKey) (statics : Statics) :
    Proceeds f.id a.session 1 w.core ((f.rest statics (.admitted a)).exec w).2.core := by
  let w₁ := (w.modifyRow f.id fun row => { row with
    recvSeqNo := a.seqNo, lastMsgId := a.msgId }).modifyRow f.id fun row => { row with
      sendCounter := a.crypto.sendCounter, recvCounter := a.crypto.recvCounter }
  have hcommit : Advances f.id a.session w.core a.accepted
      (w₁.write f.conn f.id a.accepted [] [.accepted f.conn f.id a.msgId]).core [] 0 [] :=
    { stores := stores_write w₁ f.conn _ _ _
      users := (List.append_nil _).symm
      sent := rfl
      recents := rfl
      key := hkey
      userId := rfl
      sendSeqNo := (Int32.add_zero _).symm
      checked := fun _ => (Int.add_zero _).symm
      numbered := .nil _ _ _ }
  have hdispatch := proceeds_dispatch hcommit.stores hnext statics f.draws f.conn a.msgId rfl
    a.tlData
  rw [Frame.rest_admitted]
  change Proceeds f.id a.session 1 w.core ((f.attend statics a).exec
    (w₁.write f.conn f.id a.accepted [] [.accepted f.conn f.id a.msgId])).2.core
  unfold Frame.attend
  rw [Prog.exec_bind, exec_attempt]
  exact .after hcommit hdispatch

end Frames

/-! ### What an order of the frames comes to -/

section Orders

variable [Platform] {id : Int64} {set : RecentMsgIds} {keys : AesKey × MacKey}
variable {statics : Statics} {g g' : Core}

theorem advances_after {f : Framed id} (hg : g.Holds id set keys)
    (hjudge : g.judge f = some true) (hafter : (g.after statics f).Holds id set keys) :
    ∃ session session' created n replies, g.cache id = some session ∧ n ≤ 1 ∧
      Advances id session g session' (g.after statics f) created n replies := by
  obtain ⟨session, hentry, hset, -, hnext⟩ := hg
  obtain ⟨held, hheld, hheldSet, -⟩ := hafter
  rw [judge_of_entry hentry] at hjudge
  obtain ⟨a, hadmission, hadmits⟩ := Frame.verdict_true hjudge
  obtain ⟨recvCounter, hcrypto⟩ := hadmits.crypto
  have hclone := hadmits.clone
  subst hclone
  have hkey : a.crypto.serverWriteKey = a.session.crypto.serverWriteKey := by rw [hcrypto]
  have hrest := proceeds_rest (w := g.world) f.toFrame (hset ▸ hnext) hkey statics
  rw [← after_of_entry hentry hadmission, core_world, f.of.names] at hrest
  obtain ⟨session', hstores, hadvances⟩ := hrest
  have hsame : session' = held := Option.some.inj (hstores.entry.symm.trans hheld)
  obtain ⟨created, n, replies, hn, hadvances⟩ :=
    hadvances ((congrArg _ hsame).trans (hheldSet.trans hset.symm))
  exact ⟨a.session, session', created, n, replies, hentry, hn, hadvances⟩

/-- The accepted ones of the frames, taken one after the other. -/
theorem advances_leads {book : List (Entry (Framed id))}
    (h : (desk statics id set keys).Leads g book g') (hg : g.Holds id set keys) :
    g' = g ∨ ∃ session session' created n replies, g.cache id = some session ∧
      n ≤ (Desk.requests book).length ∧ Advances id session g session' g' created n replies := by
  induction h with
  | nil => exact Or.inl rfl
  | declined _ _ ih =>
    refine (ih hg).imp_right ?_
    rintro ⟨session, session', created, n, replies, hentry, hn, hadvances⟩
    exact ⟨session, session', created, n, replies, hentry, Nat.le_succ_of_le hn, hadvances⟩
  | @refused g g' t again book _ _ _ ih =>
    refine (ih hg).imp_right ?_
    rintro ⟨session, session', created, n, replies, hentry, hn, hadvances⟩
    refine ⟨session, session', created, n, replies, hentry, ?_, hadvances⟩
    have hlen : (Desk.requests (.refused t again :: book)).length =
        (t :: again).length + (Desk.requests book).length := List.length_append
    omega
  | @granted g g' t again book hjudge hsound _ _ ih =>
    obtain ⟨session, session', created, n, replies, hentry, hn, hadvances⟩ :=
      advances_after hg hjudge hsound
    have hlen : (Desk.requests (.granted t again :: book)).length =
        (t :: again).length + (Desk.requests book).length := List.length_append
    rw [List.length_cons] at hlen
    refine Or.inr ?_
    rcases ih hsound with rfl | ⟨held, session'', created', n', replies', hheld, hn', hrest⟩
    · exact ⟨session, session', created, n, replies, hentry, by omega, hadvances⟩
    · cases hadvances.stores.entry.symm.trans hheld
      exact ⟨session, session'', _, _, _, hentry, by omega, hadvances.trans hrest⟩

end Orders

/-! ### Runs in which no update is lost -/

/-- The session is bound to the user, in its row and, if it is cached, in the cache. -/
structure World.BoundTo (w : World) (id userId : Int64) : Prop where
  row : w.userOf id = some userId
  entry : ∀ session, w.state.cache id = some session → session.userId = userId

/-- The session and the replies are as after the same frames in some order, whoever has signed up
last is the user, and no two replies carry one number. -/
structure KeepsUpdates [Platform] (statics : Statics) {id : Int64} (w₀ : World)
    (fs : List (Framed id)) (w : World) : Prop where
  serial : ∃ order : List (Framed id), order.Perm fs ∧
    let v := handleFrames statics (order.map Framed.toFrame) w₀
    w.row id = v.row id ∧ w.state.cache id = v.state.cache id ∧ w.core.sent = v.core.sent
  bound : ∃ created, w.state.db.users = w₀.state.db.users ++ created ∧
    ∀ userId, (created.getLast?.map UserRow.id = some userId ∨
      created = [] ∧ w₀.BoundTo id userId) → w.BoundTo id userId
  distinct : ∃ replies, w.core.sent = replies ++ w₀.core.sent ∧
    ∀ row, w.row id = some row →
      (replies.map fun reply => sentSeqNo row.serverWriteKey reply.2).Nodup ∧
        none ∉ replies.map fun reply => sentSeqNo row.serverWriteKey reply.2

section Runs

variable [Platform] {id : Int64} {statics : Statics} {w₀ : World} {fs : List (Framed id)}
variable {x : Loops id} {keys : AesKey × MacKey}

omit [Platform] in
/-- Where the frames find the session, it is bound as it has been. -/
theorem boundTo_found {set : RecentMsgIds} {g₀ : Core} {r₀ : List Int64} {userId : Int64}
    {session : SessionData} (h : Has id set g₀ r₀ w₀ ∨ WillHave id set g₀ r₀ w₀)
    (hbound : w₀.BoundTo id userId) (hentry : g₀.cache id = some session) :
    (g₀.db.sessions id).map FullSession.userId = some userId ∧ session.userId = userId := by
  rcases h with h | h
  · obtain rfl := h.core
    exact ⟨hbound.row, hbound.entry session hentry⟩
  · obtain ⟨full, hrow, rfl⟩ := h.row
    refine ⟨hbound.row, ?_⟩
    have hloaded : (w₀.load id full []).core.cache id =
        some (sessionOfRow id full w₀.state.nextRecent) := update_self _ _ _
    cases hloaded.symm.trans hentry
    have huser := hbound.row
    unfold World.userOf at huser
    rw [hrow] at huser
    exact Option.some.inj huser

omit [Platform] in
theorem tables_found {set : RecentMsgIds} {g₀ : Core} {r₀ : List Int64}
    (h : Has id set g₀ r₀ w₀ ∨ WillHave id set g₀ r₀ w₀) :
    g₀.db = w₀.state.db ∧ g₀.sent = w₀.core.sent := by
  rcases h with h | h
  · rw [← h.core]
    exact ⟨rfl, rfl⟩
  · obtain ⟨full, -, rfl⟩ := h.row
    exact ⟨rfl, rfl⟩

omit [Platform] in
/-- After frames none of which has been accepted. -/
theorem bound_of_found {w : World} {set : RecentMsgIds} {g₀ : Core} {r₀ : List Int64}
    (h : Has id set g₀ r₀ w₀ ∨ WillHave id set g₀ r₀ w₀) (hg₀ : g₀.Holds id set keys)
    (hcore : w.core = g₀) {userId : Int64} (hbound : w₀.BoundTo id userId) :
    w.BoundTo id userId := by
  subst hcore
  obtain ⟨session, hentry, -⟩ := hg₀
  obtain ⟨hrow, huser⟩ := boundTo_found h hbound hentry
  refine ⟨hrow, fun held hheld => ?_⟩
  cases hentry.symm.trans hheld
  exact huser

/-- After frames some of which have been accepted. -/
theorem Advances.bound {w : World} {set : RecentMsgIds} {g₀ : Core} {r₀ : List Int64}
    {session session' : SessionData} {created : List UserRow} {n : Nat}
    {replies : List (ConnId × Bytes)}
    (hadvances : Advances id session g₀ session' w.core created n replies)
    (h : Has id set g₀ r₀ w₀ ∨ WillHave id set g₀ r₀ w₀) (hentry : g₀.cache id = some session)
    {userId : Int64} (hbound : created.getLast?.map UserRow.id = some userId ∨
      created = [] ∧ w₀.BoundTo id userId) : w.BoundTo id userId := by
  have huser : session'.userId = userId := by
    rw [hadvances.userId]
    rcases hbound with hlast | ⟨rfl, hbound⟩
    · rw [hlast]
      rfl
    · exact (boundTo_found h hbound hentry).2
  obtain ⟨hheld, row, hrow, hsame, -⟩ := hadvances.stores
  constructor
  · exact (congrArg (Option.map FullSession.userId) hrow).trans
      (congrArg some (hsame.trans huser))
  · intro held hheld'
    cases hheld.symm.trans hheld'
    exact huser

/-- Frames that are accepted one after the other, each with the session as it is, lose no update of
it. -/
theorem updates_kept (h : Loops.Run statics (Stays id) Loops.Alone w₀ fs x)
    (howned : Owned w₀) (hrow : (w₀.row id).isSome) (hover : ∀ conn, x.jobs conn = none)
    (hfew : overflowChecks = true ∨ fs.length < 2 ^ 32) : KeepsUpdates statics w₀ fs x.state := by
  by_cases hfs : fs = []
  · rw [state_of_nil h hover hfs, hfs]
    refine ⟨⟨[], .refl _, rfl, rfl, rfl⟩, ⟨[], (List.append_nil _).symm, ?_⟩, ⟨[], rfl, ?_⟩⟩
    · rintro userId (hlast | ⟨-, hbound⟩)
      · cases hlast
      · exact hbound
    · exact fun _ _ => ⟨.nil, List.not_mem_nil⟩
  · obtain ⟨set, keys, g₀, r₀, seen, left, hg₀, hfirst, hordered⟩ :=
      ordered_of_over h howned hrow hover hfs
    obtain ⟨order, hperm, hcore⟩ := core_of_ordered hordered hg₀ hfirst hfs
    obtain ⟨hdb, hsent⟩ := tables_found hfirst
    obtain ⟨first, book, hin⟩ := hordered
    have hlen : (Desk.requests book).length ≤ fs.length := by
      rw [hin.served.length_eq, List.length_append]
      omega
    have hserial : ∃ order : List (Framed id), order.Perm fs ∧
        let v := handleFrames statics (order.map Framed.toFrame) w₀
        x.state.row id = v.row id ∧ x.state.state.cache id = v.state.cache id ∧
          x.state.core.sent = v.core.sent := by
      refine ⟨order, hperm, ?_, ?_, ?_⟩
      · exact congrArg (fun g : Core => g.db.sessions id) hcore.symm
      · exact congrArg (fun g : Core => g.cache id) hcore.symm
      · exact congrArg Core.sent hcore.symm
    rcases advances_leads hin.leads hg₀ with
      hsame | ⟨session, session', created, n, replies, hentry, hn, hadvances⟩
    · refine ⟨hserial, ⟨[], ?_, ?_⟩, ⟨[], ?_, fun _ _ => ⟨.nil, List.not_mem_nil⟩⟩⟩
      · rw [List.append_nil, ← hdb, ← hsame]
        rfl
      · rintro userId (hlast | ⟨-, hbound⟩)
        · cases hlast
        · exact bound_of_found hfirst hg₀ hsame hbound
      · rw [List.nil_append, ← hsent, hsame]
    · refine ⟨hserial, ⟨created, ?_, fun _ => hadvances.bound hfirst hentry⟩,
        ⟨replies, ?_, fun row hrow => ?_⟩⟩
      · rw [← hdb]
        exact hadvances.users
      · rw [← hsent]
        exact hadvances.sent
      · obtain ⟨-, row', hrow', -, hkey⟩ := hadvances.stores
        cases hrow.symm.trans hrow'
        rw [hkey, hadvances.key]
        refine hadvances.numbered.nodup (hfew.elim hadvances.lt_of_checked fun hfew => ?_)
        omega

end Runs

namespace Sample

/-- A session signs up. -/
def signingUp : Framed Sample.id :=
  { frame 0 1 0 0 (.signUp ⟨"1", ""⟩) with
    of := ⟨by decide +kernel, by decide +kernel, by decide⟩ }

/-- Its next request, on another connection. -/
def listing : Framed Sample.id :=
  { frame 1 2 1 1 (.getDialogs {}) with
    of := ⟨by decide +kernel, by decide +kernel, by decide⟩ }

def newcomers : Loops Sample.id :=
  letI := platform
  receivers signingUp listing restarted

/-- The checks of the second frame begin while the first signs up, and end when that is over. -/
def waiting : List ConnId :=
  List.replicate 12 0 ++ [1] ++ List.replicate 3 0 ++ [1] ++ List.replicate 2 0 ++
    List.replicate 19 1

theorem waiting_ends : letI := platform
    (waiting.foldlM (Loops.advance statics [0, 1]) ([], newcomers)).any (fun s =>
      (s.1.map fun f => f.conn) == [1, 0] && (s.2.jobs 0).isNone && (s.2.jobs 1).isNone &&
        s.2.state.userOf Sample.id == some 1) = true := by
  decide +kernel

end Sample

theorem updates_kept_waiting : letI := Sample.platform
    ∃ (fs : List (Framed Sample.id)) (x : Loops Sample.id),
      Loops.Run Sample.statics (Stays Sample.id) Loops.Alone Sample.restarted fs x ∧
      (fs.map fun f => f.conn) = [1, 0] ∧ x.state.userOf Sample.id = some 1 ∧
      KeepsUpdates Sample.statics Sample.restarted fs x.state := by
  let _ := Sample.platform
  obtain ⟨s, hs, hends⟩ := (Option.any_eq_true _ _).mp Sample.waiting_ends
  obtain ⟨hstart, hamong⟩ := Sample.run_receivers Sample.statics Sample.signingUp Sample.listing
    Sample.restarted (by decide)
  obtain ⟨hrun, hamong'⟩ := Loops.run_schedule (s := ([], Sample.newcomers)) hstart hamong hs
  rw [Bool.and_eq_true_iff, Bool.and_eq_true_iff, Bool.and_eq_true_iff] at hends
  obtain ⟨⟨⟨hconns, hzero⟩, hone⟩, huser⟩ := hends
  have hconns : (s.1.map fun f => f.conn) = [1, 0] := eq_of_beq hconns
  have hlen : s.1.length = 2 := by
    rw [← List.length_map (fun f : Framed Sample.id => f.conn), hconns]
    rfl
  refine ⟨s.1, s.2, hrun, hconns, eq_of_beq huser,
    updates_kept hrun Sample.owned_restarted rfl ?_ (Or.inr (by omega))⟩
  apply hamong'.idle
  intro conn hconn
  rcases List.mem_pair.mp hconn with rfl | rfl
  · exact Option.isNone_iff_eq_none.mp hzero
  · exact Option.isNone_iff_eq_none.mp hone

namespace Sample

/-- Both frames have been received. -/
def received : Pool World Stop Unit ConnId :=
  letI := platform
  ⟨restarted, update
    (update (fun _ => none) 0 (some (serve statics signingUp.draws 0 signingUp.raw)))
    1 (some (serve statics listing.draws 1 listing.raw))⟩

/-- The second frame is checked after the first has found its session to write the user into it. -/
def overtaking : List ConnId :=
  List.replicate 13 0 ++ List.replicate 3 1 ++ List.replicate 3 0 ++ List.replicate 30 1

@[irreducible] def raced : Pool World Stop Unit ConnId := overtaking.foldl Pool.advance received

def ended (job : Option (ServerM Unit)) : Bool :=
  match job with
  | some (.done _) => true
  | _ => false

theorem raced_loses : ended (raced.jobs 0) = true ∧ ended (raced.jobs 1) = true ∧
    raced.state.userOf Sample.id = some 0 ∧ raced.state.state.db.users.map UserRow.id = [0, 1] := by
  decide +kernel

theorem eq_done_of_ended {job : Option (ServerM Unit)} (h : ended job = true) :
    job = some (.done ()) := by
  unfold ended at h
  split at h
  · rfl
  · cases h

theorem jobs_raced {conn : ConnId} (hzero : conn ≠ 0) (hone : conn ≠ 1) :
    raced.jobs conn = none := by
  have hnot : conn ∉ overtaking := by simp [overtaking, hzero, hone]
  unfold raced
  rw [Pool.jobs_advance hnot]
  exact (update_of_ne hone _ _).trans (update_of_ne hzero _ _)

/-- Both turns come to an end. -/
theorem reachable_raced : letI := platform
    Pool.Reachable (Loops.sessionRules statics Sample.id fun _ _ => True) restarted
      ⟨raced.state, fun _ => none⟩ := by
  let _ := platform
  obtain ⟨hzero, hone, -, -⟩ := raced_loses
  have hfirst : Pool.Reachable (Loops.sessionRules statics Sample.id fun _ _ => True) restarted
      (Pool.init restarted) := .init
  have hsecond := hfirst.step (.start (k := 0) rfl ⟨signingUp, rfl, rfl⟩)
  have hboth := hsecond.step (.start (k := 1) rfl ⟨listing, rfl, rfl⟩)
  have hraced : Pool.Reachable (Loops.sessionRules statics Sample.id fun _ _ => True) restarted
      raced := by
    unfold raced
    exact Pool.reachable_advance hboth (fun _ _ => trivial) overtaking
  have hended := hraced.step (.done (eq_done_of_ended hzero))
  have hlast : update raced.jobs 0 none 1 = some (.done ()) :=
    (update_of_ne (by decide) _ _).trans (eq_done_of_ended hone)
  have hidle : update (update raced.jobs 0 none) 1 none = fun _ => none := by
    funext conn
    by_cases hone : conn = 1
    · rw [hone, update_self]
    · rw [update_of_ne hone]
      by_cases hzero : conn = 0
      · rw [hzero, update_self]
      · rw [update_of_ne hzero]
        exact jobs_raced hzero hone
  rw [← hidle]
  exact hended.step (.done hlast)

end Sample

/-- The second frame writes the session back as it was before it signed up. -/
theorem not_updates_kept : ¬ ∀ (_ : Platform) (statics : Statics) (id : Int64) (w₀ : World)
    (fs : List (Framed id)) (x : Loops id),
    Loops.Run statics (fun _ _ => True) (fun _ _ => True) w₀ fs x → Owned w₀ →
    (w₀.row id).isSome → (∀ conn, x.jobs conn = none) → KeepsUpdates statics w₀ fs x.state := by
  intro h
  let _ := Sample.platform
  obtain ⟨-, -, huser, husers⟩ := Sample.raced_loses
  obtain ⟨fs, x, hrun, hx⟩ := Loops.exists_run Sample.reachable_raced
  have hstate : x.state = Sample.raced.state := congrArg Pool.state hx
  have hidle (conn : ConnId) : x.jobs conn = none :=
    Loops.pool_none (congrFun (congrArg Pool.jobs hx) conn)
  have hkeeps := h _ _ _ _ fs x hrun Sample.owned_restarted rfl hidle
  obtain ⟨created, hcreated, hbound⟩ := hkeeps.bound
  rw [hstate] at hcreated hbound
  have hids : (Sample.restarted.state.db.users ++ created).map UserRow.id = [0, 1] := by
    rw [← hcreated]
    exact husers
  have hids : created.map UserRow.id = [1] := by
    rw [List.map_append] at hids
    exact List.append_cancel_left hids
  have hlast : created.getLast?.map UserRow.id = some 1 := by
    rw [← List.getLast?_map, hids]
    rfl
  cases huser.symm.trans (hbound 1 (Or.inl hlast)).row

end KoSta.Server
