import KoSta.Lib.Endian

/-! The TL primitives: integers, strings, vectors, flags and optional values. -/
namespace KoSta.Tl
open Lib

/-- The only I/O error a read from memory can meet is running out of input. -/
inductive IoError where
  | unexpectedEof
  deriving DecidableEq, Repr

inductive Error where
  | io (e : IoError)
  | unexpectedEof
  | invalidConstructor (id : UInt32)
  | custom (message : String)
  deriving DecidableEq, Repr

class TlWrite (α : Type) where
  writeBytes : α → Bytes

class TlRead (α : Type) where
  readBytes : Reader Error α

export TlWrite (writeBytes)
export TlRead (readBytes)

def readExact (n : Nat) : Reader Error (Vector UInt8 n) := Reader.exact (.io .unexpectedEof) n

/-! ### Integers -/

def i32ToLeBytes (x : Int32) : Bytes := leBytes 4 x.toUInt32.toNat

def i32FromLeBytes (bs : Bytes) : Int32 := (UInt32.ofNat (ofLeBytes bs)).toInt32

instance : TlWrite Int32 where
  writeBytes := i32ToLeBytes

instance : TlRead Int32 where
  readBytes := do
    let buf ← readExact 4
    return i32FromLeBytes buf.toList

def u32ToLeBytes (x : UInt32) : Bytes := leBytes 4 x.toNat

def u32FromLeBytes (bs : Bytes) : UInt32 := UInt32.ofNat (ofLeBytes bs)

instance : TlWrite UInt32 where
  writeBytes := u32ToLeBytes

instance : TlRead UInt32 where
  readBytes := do
    let buf ← readExact 4
    return u32FromLeBytes buf.toList

def i64ToLeBytes (x : Int64) : Bytes := leBytes 8 x.toUInt64.toNat

def i64FromLeBytes (bs : Bytes) : Int64 := (UInt64.ofNat (ofLeBytes bs)).toInt64

instance : TlWrite Int64 where
  writeBytes := i64ToLeBytes

instance : TlRead Int64 where
  readBytes := do
    let buf ← readExact 8
    return i64FromLeBytes buf.toList

structure Int128 where
  val : Vector UInt8 16
  deriving DecidableEq, Repr

instance : TlWrite Int128 where
  writeBytes x := x.val.toList

instance : TlRead Int128 where
  readBytes := do
    let buf ← readExact 16
    return ⟨buf⟩

structure Int256 where
  val : Vector UInt8 32
  deriving DecidableEq, Repr

instance : TlWrite Int256 where
  writeBytes x := x.val.toList

instance : TlRead Int256 where
  readBytes := do
    let buf ← readExact 32
    return ⟨buf⟩

/-! ### Strings -/

/-- Zero bytes after the data, counted from the data alone: the length header is left out. -/
def padding (len : Nat) : Nat := (4 - len % 4) % 4

/-- The length in front of the data: one byte, or the byte 254 and three more. -/
def writeTlLength (len : Nat) : Bytes :=
  if len ≤ 253 then [UInt8.ofNat len] else 254 :: leBytes 3 len

def writeTlBytes (data : Bytes) : Bytes :=
  writeTlLength data.length ++ (data ++ List.replicate (padding data.length) 0)

/-- What `read_tl_bytes` does once the length is known. -/
def readTlBody (len : Nat) : Reader Error Bytes := do
  let data ← readExact len
  let _ ← readExact (padding len)
  return data.toList

def readTlBytes : Reader Error Bytes := do
  let firstByte ← readExact 1
  if firstByte[0] = 254 then
    let buf ← readExact 3
    readTlBody (ofLeBytes buf.toList)
  else
    readTlBody firstByte[0].toNat

instance : TlWrite Bytes where
  writeBytes := writeTlBytes

instance : TlRead Bytes where
  readBytes := readTlBytes

def asBytes (s : String) : Bytes := s.toUTF8.data.toList

/-- `String::from_utf8`; the position the standard library adds to its message is left out. -/
def fromUtf8 (bs : Bytes) : Reader Error String :=
  match String.fromUTF8? ⟨bs.toArray⟩ with
  | some s => pure s
  | none => Reader.fail (.custom "Invalid UTF-8")

instance : TlWrite String where
  writeBytes s := writeTlBytes (asBytes s)

instance : TlRead String where
  readBytes := do
    let bytes ← readTlBytes
    fromUtf8 bytes

/-! ### Vectors, booleans and optional values -/

/-- `std::mem::size_of` on a 64-bit target. -/
class MemSize (α : Type) where
  memSize : Nat

export MemSize (memSize)

def isizeMax : Nat := 2 ^ 63 - 1

/-- `i32 as usize`: the sign is extended before the bits are read as unsigned. -/
def asUsize (x : Int32) : Nat := x.toInt64.toUInt64.toNat

theorem asUsize_eq (x : Int32) : (asUsize x : Int) = x.toInt % 2 ^ 64 := by
  have hbits : asUsize x = x.toInt64.toBitVec.toNat := rfl
  have hlt := x.toInt64.toBitVec.isLt
  rw [← Int32.toInt_toInt64, ← Int64.toInt_toBitVec, BitVec.toInt_eq_toNat_cond, hbits]
  split <;> omega

theorem asUsize_ofNat {n : Nat} (h : n < 2 ^ 31) : asUsize (Int32.ofNat n) = n := by
  have heq := asUsize_eq (Int32.ofNat n)
  rw [Int32.toInt_ofNat_of_lt (by omega)] at heq
  omega

/-- `Vec::with_capacity`, which panics when the buffer would exceed `isize::MAX` bytes. -/
def withCapacity (count size : Nat) : Reader Error Unit :=
  if count * size ≤ isizeMax then pure () else Reader.panic

instance {α : Type} [TlWrite α] : TlWrite (List α) where
  writeBytes items := i32ToLeBytes (Int32.ofNat items.length) ++ items.flatMap writeBytes

instance {α : Type} [TlRead α] [MemSize α] : TlRead (List α) where
  readBytes := do
    let count : Int32 ← readBytes
    withCapacity (asUsize count) (memSize α)
    Reader.times readBytes (asUsize count)

instance : TlWrite Bool where
  writeBytes b := i32ToLeBytes (if b then 1 else 0)

instance : TlRead Bool where
  readBytes := do
    let val : Int32 ← readBytes
    return val != 0

instance {α : Type} [TlWrite α] : TlWrite (Option α) where
  writeBytes
    | some val => i32ToLeBytes 1 ++ writeBytes val
    | none => i32ToLeBytes 0

instance {α : Type} [TlRead α] : TlRead (Option α) where
  readBytes := do
    let present : Int32 ← readBytes
    if present != 0 then
      let val : α ← readBytes
      return some val
    else
      return none

/-! ### Identifiers and user status -/

structure MessageId where
  val : Int64
  deriving DecidableEq, Repr

instance : TlWrite MessageId where
  writeBytes x := writeBytes x.val

instance : TlRead MessageId where
  readBytes := do
    let val : Int64 ← readBytes
    return ⟨val⟩

structure ChatId where
  val : Int64
  deriving DecidableEq, Repr

instance : TlWrite ChatId where
  writeBytes x := writeBytes x.val

instance : TlRead ChatId where
  readBytes := do
    let val : Int64 ← readBytes
    return ⟨val⟩

structure UserId where
  val : Int64
  deriving DecidableEq, Repr

instance : TlWrite UserId where
  writeBytes x := writeBytes x.val

instance : TlRead UserId where
  readBytes := do
    let val : Int64 ← readBytes
    return ⟨val⟩

structure DialogId where
  val : Int64
  deriving DecidableEq, Repr

instance : TlWrite DialogId where
  writeBytes x := writeBytes x.val

instance : TlRead DialogId where
  readBytes := do
    let val : Int64 ← readBytes
    return ⟨val⟩

inductive UserStatus where
  | online
  | offline
  | typing
  | recently
  | lastWeek
  | lastMonth
  deriving DecidableEq, Repr

def UserStatus.code : UserStatus → Int32
  | .online => 0
  | .offline => 1
  | .typing => 2
  | .recently => 3
  | .lastWeek => 4
  | .lastMonth => 5

def UserStatus.ofCode (code : Int32) : Option UserStatus :=
  if code = 0 then some .online
  else if code = 1 then some .offline
  else if code = 2 then some .typing
  else if code = 3 then some .recently
  else if code = 4 then some .lastWeek
  else if code = 5 then some .lastMonth
  else none

instance : TlWrite UserStatus where
  writeBytes s := i32ToLeBytes s.code

instance : TlRead UserStatus where
  readBytes := do
    let code : Int32 ← readBytes
    match UserStatus.ofCode code with
    | some status => return status
    | none => Reader.fail (.custom "Invalid UserStatus code")

instance : MemSize Int64 := ⟨8⟩

instance : MemSize UserId := ⟨8⟩

end KoSta.Tl
