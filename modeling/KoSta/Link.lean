import KoSta.Client.Authenticate
import KoSta.Server.Runs

/-! A client connected to the server: what one sends, the other reads off its stream. -/
namespace KoSta
open Lib Tl Crypto Transport Server

/-- A connection together with the server behind it, which handles each frame on its arrival. -/
structure Link where
  statics : Statics
  conn : ConnId
  world : World
  draws : Nat → FrameDraws
  turn : Nat
  inbox : Bytes

/-- The frames sent on a connection, oldest first. -/
def sentOn (conn : ConnId) (events : List Event) : List Bytes :=
  (events.filterMap fun event => match event with
    | .sent c data => if c = conn then some data else none
    | _ => none).reverse

section Turns

variable [Platform]

/-- The server's turn on a frame, whose replies go out on the stream. -/
def Link.serve (l : Link) (raw : Bytes) : Link :=
  let world := ((Server.serve l.statics (l.draws l.turn) l.conn raw).exec l.world).2
  let events := world.trace.take (world.trace.length - l.world.trace.length)
  { l with
    world
    turn := l.turn + 1
    inbox := l.inbox ++ (encodeFrames (sentOn l.conn events)).getD [] }

instance Link.frameTransport : FrameTransport Link where
  send data l :=
    match encodeFrame data with
    | none => (.error .panic, l)
    | some stream =>
      match decodeFrame.run stream with
      | .ok raw _ => (.ok (), l.serve raw)
      | _ => (.ok (), l)
  recv l :=
    match decodeFrame.run l.inbox with
    | .ok data inbox => (.ok data, { l with inbox })
    | .err e => (.error (.error e), l)
    | .panic => (.error .panic, l)

end Turns

/-! ### A small setting -/

namespace Trial

/-- A prime of 2048 bits. -/
def dhPrime : Nat := 3261 * 2 ^ 2036 + 1

/-- Spells a base that the first power of a round takes to one less than the prime. -/
def primeDraw : Nat :=
  0xcc2fef058b9998ffc8d0a8249b74de3188abdf46c5c37338fe857be85cb87db852c137c28d1600e4db21817a79b4f8e221d6d4c2ca4596f10bd5d45a4344237fcc405b83a7cafc54dd69d4ed6e3436421f97160b8a5ad5909fdde06a913798006e62b84a2f864cd9d9192eaf7e8328ceaf14a8ce0a060f8e97c1655d4ec0725f8fba22c930c1e24bbe82b0bf306cfddd93ec892bcbb611db96ec3a2825ab39c29a3add1d4511620d274291e3a01c23a36471cca382ddc0c20899a62ff1f0e409e760ef8b5ef13c9d951cbe628abc0514c6ed3519a8f76b68bb68d2b94997d8291fb5cda117a7f46c4b9ed91088288643953a6e2d3e1ebe07cb60e7b99b7c9f6

/-- A platform that can tell one secret from another by its lowest byte. -/
@[reducible] def platform : Platform :=
  { Platform.constant false with sha1 := fun data => Vector.replicate 20 (data.headD 0) }

def key : Vector UInt8 32 := Vector.replicate 32 0

/-- The exponent in the lowest byte. -/
def exponent (n : UInt8) : Vector UInt8 256 := (Vector.replicate 256 0).set 0 n

def exchangeDraw : Client.ExchangeDraw := ⟨1, Vector.replicate 12 0, 1⟩

def authDraws (b : UInt8) : Client.AuthDraws where
  nonce := ⟨Vector.replicate 16 7⟩
  newNonce := ⟨Vector.replicate 32 9⟩
  pBases _ := 0
  qBases _ := 0
  dhBases _ := primeDraw
  pqPadding := ⟨0, fun _ => 0⟩
  clientPadding := ⟨0, fun _ => 0⟩
  privateKey := exponent b
  pq := exchangeDraw
  dhParams := exchangeDraw
  dhGen := exchangeDraw

def frameDraws : FrameDraws where
  now := 1
  responseNow := 1
  responseRandom := Vector.replicate 12 0
  handler :=
    { serverNonce := Vector.replicate 16 8, primes := [⟨#v[5, 0, 0, 0], fun _ => 0⟩,
        ⟨#v[7, 0, 0, 0], fun _ => 0⟩]
      privateKey := exponent 3, padding := ⟨0, fun _ => 0⟩, instant := 0, seconds := 0
      salt := Vector.replicate 16 0 }

/-- A new connection to a server that has just been started. -/
def link : Link := ⟨⟨key, dhPrime⟩, 0, World.init, fun _ => frameDraws, 0, []⟩

end Trial

end KoSta
