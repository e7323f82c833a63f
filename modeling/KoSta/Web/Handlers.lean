import KoSta.Web.State

/-! The HTTP endpoints under `/api`. -/
namespace KoSta.Server

/-- The hash check of the password crate; `none` is its error for a hash it cannot read. -/
class Bcrypt where
  verify (password hash : String) : Option Bool

/-- How `authenticate` can fail: no constraint, but a stored hash that is no hash. -/
abbrev Authenticated := Except String (Option Int64)

/-- `authenticate`: the user with this phone number, if the password is theirs. -/
def Database.authenticate [Bcrypt] (phone password : String) (db : Database) : Authenticated :=
  match db.users.find? fun u => u.phone == phone with
  | none => .ok none
  | some user =>
    match Bcrypt.verify password user.passwordHash with
    | some true => .ok (some user.id)
    | some false => .ok none
    | none => .error "bcrypt verify error"

/-- The latest session of a user. The rows of the model do not say when they were created, so the
latest is an argument, and it counts only if it is a session of that user. -/
def Database.getFullSessionForUser (userId : Int64) (latest : Option Int64) (db : Database) :
    Option FullSession :=
  (latest.bind db.sessions).filter fun row => row.userId == userId

end KoSta.Server

namespace KoSta.Web
open KoSta.Server

structure LoginRequest where
  phone : String
  password : String
  deriving DecidableEq, Repr

structure GetHistoryQuery where
  chatId : Int64
  limit : Option Int32
  offset : Option Int32

/-- What a request draws: its clock, a salt, and which session is the user's latest. -/
structure HttpDraws where
  instant : Nat
  salt : Vector UInt8 16
  latest : Int64 → Option Int64

/-- The requests a peer can make; none of them says who it is. -/
inductive HttpRequest where
  | login (req : LoginRequest)
  | chats
  | history (query : GetHistoryQuery)

def refused (e : String) : LoginResponse := ⟨false, none, none, some e⟩

/-- How SQLite words a violated constraint. -/
def sqlText : SqlError → String
  | .unique columns => "UNIQUE constraint failed: " ++ columns
  | .foreignKey => "FOREIGN KEY constraint failed"
  | .full => "database or disk is full"

section Login

variable [Platform] [Bcrypt]

/-- A phone number and password that fit no user create one, unless the number is taken. -/
def login (draws : HttpDraws) (req : LoginRequest) (site : Site) : HttpResponse × Site :=
  match site.db.authenticate req.phone req.password with
  | .ok (some userId) =>
    let authKeyId := (site.db.getFullSessionForUser userId (draws.latest userId)).map
      FullSession.authKeyId
    (⟨200, .login ⟨true, authKeyId, some userId, none⟩⟩, site)
  | .ok none =>
    match Database.insertUser req.phone (bcryptHash draws.salt req.password) site.db with
    | (.ok userId, db) => (⟨200, .login ⟨true, none, some userId, none⟩⟩, site.withDb db)
    | (.error e, db) =>
      (⟨500, .login (refused ("Failed to create user: " ++ sqlText e))⟩, site.withDb db)
  | .error e => (⟨500, .login (refused ("Database error: " ++ e))⟩, site)

end Login

/-- The same list for everybody. -/
def getChats : HttpResponse :=
  ⟨200, .chats [⟨1, "General", false, some "Hello", some 1234567890⟩]⟩

def messageItem (row : MessageRow) : MessageItem where
  id := row.id
  senderId := row.senderId
  text := row.text
  timestamp := row.timestamp
  isOutgoing := row.isOutgoing
  read := row.readStatus
  delivered := row.deliveredStatus
  mediaPath := row.mediaPath
  mediaType := row.mediaType
  mediaSize := row.editedAt
  isMedia := row.deleted

def getHistory (query : GetHistoryQuery) (db : Database) : HttpResponse :=
  match (Database.getHistory query.chatId (query.offset.getD 0) (query.limit.getD 50) db).1 with
  | .ok rows => ⟨200, .messages (rows.map messageItem)⟩
  | .error e => ⟨500, .error (sqlText e)⟩

/-- The answer to a peer that has asked too often. -/
def tooMany (e : String) : HttpRequest → HttpResponse
  | .login _ => ⟨429, .login (refused e)⟩
  | .chats => ⟨429, .text e⟩
  | .history _ => ⟨429, .text e⟩

/-- Every endpoint looks at the limiter first. -/
def handleHttp [Platform] [Bcrypt] (ip : String) (draws : HttpDraws) (req : HttpRequest)
    (site : Site) : HttpResponse × Site :=
  match site.httpLimiter.check ip draws.instant with
  | (.error e, httpLimiter) => (tooMany e req, { site with httpLimiter })
  | (.ok (), httpLimiter) =>
    let site := { site with httpLimiter }
    match req with
    | .login req => login draws req site
    | .chats => (getChats, site)
    | .history query => (getHistory query site.db, site)

/-- All that a request leaves behind is a reading of the clock and, if it is a login, a user. -/
theorem handleHttp_site [Platform] [Bcrypt] (ip : String) (draws : HttpDraws) (req : HttpRequest)
    (site : Site) : ∃ httpLimiter users, site.db.users <+: users ∧
      (handleHttp ip draws req site).2 =
        { site with httpLimiter }.withDb { site.db with users } := by
  have hsame (httpLimiter : RateLimiter String) : { site with httpLimiter } =
    { site with httpLimiter }.withDb { site.db with users := site.db.users } := rfl
  unfold handleHttp
  cases site.httpLimiter.check ip draws.instant with
  | mk verdict httpLimiter =>
    cases verdict with
    | error e => exact ⟨httpLimiter, site.db.users, List.prefix_refl _, hsame httpLimiter⟩
    | ok _ =>
      refine ⟨httpLimiter, ?_⟩
      cases req with
      | chats => exact ⟨site.db.users, List.prefix_refl _, hsame httpLimiter⟩
      | history query => exact ⟨site.db.users, List.prefix_refl _, hsame httpLimiter⟩
      | login req =>
        dsimp only
        unfold login
        split
        · exact ⟨site.db.users, List.prefix_refl _, hsame httpLimiter⟩
        · unfold Database.insertUser
          split
          · rename_i h
            split at h
            · cases h
            · split at h
              · cases h
                exact ⟨_, List.prefix_append _ _, rfl⟩
              · cases h
          · rename_i h
            split at h
            · cases h
              exact ⟨site.db.users, List.prefix_refl _, hsame httpLimiter⟩
            · split at h
              · cases h
              · cases h
                exact ⟨site.db.users, List.prefix_refl _, hsame httpLimiter⟩
        · exact ⟨site.db.users, List.prefix_refl _, hsame httpLimiter⟩

end KoSta.Web
