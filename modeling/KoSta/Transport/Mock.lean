import KoSta.Transport.Frames
import KoSta.Platform

/-! Connections that carry whole frames, and the buffer that stands in for one. -/
namespace KoSta.Transport
open Lib

/-- The `Transport` trait. -/
class FrameTransport (T : Type) where
  send : Bytes → T → Except (Failure TransportError) Unit × T
  recv : T → Except (Failure TransportError) Bytes × T

/-- Payload length and header length of the frame at the front of the buffer. -/
def sliceLengths (buf : Bytes) (first : UInt8) : Except TransportError (Nat × Nat) :=
  if first ≤ 0x7e then
    .ok (first.toNat, 1)
  else if first = 0x7f then
    if buf.length < 4 then .error (.custom "Incomplete length header")
    else .ok (ofLeBytes ((buf.drop 1).take 3), 4)
  else
    .error (unsupportedLength first)

/-- The payload of the first frame and what is left of the buffer; a failure drains nothing. -/
def decodeFrameFromSlice (buf : Bytes) : Except TransportError Bytes × Bytes :=
  match buf with
  | [] => (.error (.custom "No data"), buf)
  | first :: _ =>
    match sliceLengths buf first with
    | .error e => (.error e, buf)
    | .ok (payloadLen, headerLen) =>
      if payloadLen > maxFrameSize then
        (.error (frameTooLarge payloadLen), buf)
      else if buf.length < headerLen + payloadLen then
        (.error (.custom "Incomplete frame"), buf)
      else
        (.ok ((buf.drop headerLen).take payloadLen), buf.drop (headerLen + payloadLen))

structure MockTransport where
  reader : Bytes
  writer : Bytes
  deriving DecidableEq, Repr

def MockTransport.new : MockTransport := ⟨[], []⟩

def MockTransport.addIncoming (t : MockTransport) (data : Bytes) : MockTransport :=
  { t with reader := t.reader ++ data }

instance : FrameTransport MockTransport where
  send data t :=
    match encodeFrame data with
    | some frame => (.ok (), { t with writer := t.writer ++ frame })
    | none => (.error .panic, t)
  recv t :=
    match decodeFrameFromSlice t.reader with
    | (.ok data, reader) => (.ok data, { t with reader })
    | (.error e, reader) => (.error (.error e), { t with reader })

/-- The short form, which is all a small frame needs. -/
theorem decodeFrameFromSlice_short {p : Bytes} (hlen : p.length ≤ 0x7e) (rest : Bytes) :
    decodeFrameFromSlice (UInt8.ofNat p.length :: (p ++ rest)) = (.ok p, rest) := by
  have hbyte : (UInt8.ofNat p.length).toNat = p.length := by
    rw [UInt8.toNat_ofNat']
    omega
  have hle : UInt8.ofNat p.length ≤ 0x7e := by
    rw [UInt8.le_iff_toNat_le, hbyte]
    exact hlen
  have hmax : ¬ p.length > maxFrameSize := by
    unfold maxFrameSize
    omega
  have hfits : ¬ (UInt8.ofNat p.length :: (p ++ rest)).length < p.length + 1 := by
    simp only [List.length_cons, List.length_append]
    omega
  simp only [decodeFrameFromSlice, sliceLengths, if_pos hle, hbyte, if_neg hmax, Nat.add_comm 1,
    if_neg hfits, List.drop_succ_cons, List.drop_zero, List.take_left, List.drop_left]

end KoSta.Transport
