import KoSta.Tl.Types

/-! The abridged framing: a short length byte, or the byte 0x7f and three length bytes. -/
namespace KoSta.Transport
open Lib

/-- The errors a stream in memory can report. -/
inductive TransportError where
  | io (e : Tl.IoError)
  | custom (message : String)
  deriving DecidableEq, Repr

def maxFrameSize : Nat := 1048576

/-- `none` is the failed assertion on payloads of 2^24 bytes and more. -/
def encodeFrame (payload : Bytes) : Option Bytes :=
  if payload.length ≤ 0x7f then
    some (UInt8.ofNat payload.length :: payload)
  else if payload.length ≤ 0xffffff then
    some (0x7f :: (leBytes 3 payload.length ++ payload))
  else
    none

def readExact (n : Nat) : Reader TransportError (Vector UInt8 n) :=
  Reader.exact (.io .unexpectedEof) n

/-- Two lowercase hexadecimal digits. -/
def hexByte (b : UInt8) : String :=
  String.ofList [Nat.digitChar (b.toNat / 16), Nat.digitChar (b.toNat % 16)]

def unsupportedLength (b : UInt8) : TransportError :=
  .custom ("Unsupported Abridged length byte: 0x" ++ hexByte b)

def frameTooLarge (len : Nat) : TransportError :=
  .custom s!"Frame too large: {len} bytes (max {maxFrameSize} bytes)"

/-- The `match` on the first byte. -/
def decodeLength (lenByte : UInt8) : Reader TransportError Nat :=
  if lenByte ≤ 0x7e then
    pure lenByte.toNat
  else if lenByte = 0x7f then do
    let buf ← readExact 3
    return ofLeBytes buf.toList
  else
    Reader.fail (unsupportedLength lenByte)

def decodePayload (len : Nat) : Reader TransportError Bytes :=
  if len > maxFrameSize then
    Reader.fail (frameTooLarge len)
  else do
    let payload ← readExact len
    return payload.toList

def decodeFrame : Reader TransportError Bytes := do
  let lenByte ← readExact 1
  let len ← decodeLength (lenByte.get ⟨0, Nat.one_pos⟩)
  decodePayload len

/-- What a sender of several payloads puts on the stream. -/
def encodeFrames : List Bytes → Option Bytes
  | [] => some []
  | p :: ps => do
    let frame ← encodeFrame p
    let frames ← encodeFrames ps
    return frame ++ frames

def decodeFrames (n : Nat) : Reader TransportError (List Bytes) := Reader.times decodeFrame n

end KoSta.Transport
