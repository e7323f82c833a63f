import KoSta.Server.Database

/-! What the web front end reads and writes: JSON values, texts and response bodies. -/
namespace KoSta.Web
open KoSta.Server

/-! ### JSON -/

/-- A parsed text. A number that is no integer is `number none`; the keys of an object are
different from each other. -/
inductive Value where
  | null
  | bool (b : Bool)
  | number (integer : Option Int)
  | string (s : String)
  | array (items : List Value)
  | object (fields : List (String × Value))

namespace Value

def get (key : String) : Value → Option Value
  | .object fields => fields.lookup key
  | _ => none

/-- An integer out of the range of an `i64` is none. -/
def asI64 : Value → Option Int64
  | .number (some n) => if -2 ^ 63 ≤ n ∧ n < 2 ^ 63 then some (Int64.ofInt n) else none
  | _ => none

def asStr : Value → Option String
  | .string s => some s
  | _ => none

end Value

/-- A field of a payload the server sends. -/
inductive Field where
  | int (n : Int64)
  | bool (b : Bool)
  | string (s : String)
  deriving DecidableEq, Repr

/-- A text the server sends: `{"type": …, "payload": {…}}`. -/
structure Text where
  type : String
  payload : List (String × Field)
  deriving DecidableEq, Repr

def connected : Text := ⟨"connected", []⟩

def authSuccess (userId : Int64) : Text := ⟨"auth_success", [("user_id", .int userId)]⟩

def authFailed : Text := ⟨"auth_failed", [("error", .string "Invalid user_id")]⟩

def subscribed (dialogId : Int64) : Text := ⟨"subscribed", [("dialog_id", .int dialogId)]⟩

def errorText (error : String) : Text := ⟨"error", [("error", .string error)]⟩

def newMessage (id dialogId senderId : Int64) (text : String) (timestamp : Int64) : Text :=
  ⟨"new_message", [("id", .int id), ("dialog_id", .int dialogId), ("sender_id", .int senderId),
    ("text", .string text), ("timestamp", .int timestamp), ("is_outgoing", .bool true),
    ("read", .bool false), ("delivered", .bool false)]⟩

def userStatusText (userId : Int64) (status : Int32) : Text :=
  ⟨"user_status", [("user_id", .int userId), ("status", .int status.toInt64)]⟩

/-! ### Responses over HTTP -/

structure LoginResponse where
  success : Bool
  authKeyId : Option Int64
  userId : Option Int64
  error : Option String
  deriving DecidableEq, Repr

structure ChatItem where
  id : Int64
  title : String
  isGroup : Bool
  lastMessage : Option String
  lastTimestamp : Option Int64
  deriving DecidableEq, Repr

/-- `mediaSize` and `isMedia` are filled from the columns `edited_at` and `deleted`. -/
structure MessageItem where
  id : Int64
  senderId : Int64
  text : String
  timestamp : Int64
  isOutgoing : Bool
  read : Bool
  delivered : Bool
  mediaPath : Option String
  mediaType : Option String
  mediaSize : Option Int64
  isMedia : Bool
  deriving DecidableEq, Repr

inductive Body where
  | login (response : LoginResponse)
  | chats (items : List ChatItem)
  | messages (items : List MessageItem)
  | text (s : String)
  | error (s : String)
  deriving DecidableEq, Repr

structure HttpResponse where
  status : Nat
  body : Body
  deriving DecidableEq, Repr

end KoSta.Web
