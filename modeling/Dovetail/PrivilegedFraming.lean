import Dovetail.LengthDelimited
import Dovetail.PrivilegedChannel

/-!
# Frames as bytes of the stream

The framer behind `send_frame` and `recv_frame` is the length-delimited codec
with `MAX_FRAME_BYTES` for its limit, so the check that `send_frame` makes
before it writes is the one the codec makes on either end.
-/

namespace Dovetail.PrivilegedChannel

open LengthDelimited (Accepts Incoming decode encode frames)
open PrefixCode

variable {Req Resp : Type*}

/-! ## Both ends -/

/-- `send_frame` on a framer that has written so far and whose stream takes
all the bytes: the outcome and what is then written. -/
def send (json : SerdeJson Req Resp) (written : Bytes)
    (frame : Frame Req Resp) : Except Failure Unit × Bytes :=
  match json.toVec frame with
  | .error cause => (.error (.serialize cause), written)
  | .ok bytes =>
      if bytes.length > MAX_FRAME_BYTES then
        (.error (.send { size := bytes.length, limit := MAX_FRAME_BYTES }),
          written)
      else
        match encode MAX_FRAME_BYTES bytes with
        | none => (.error (.transport "frame size too big"), written)
        | some encoded => (.ok (), written ++ encoded)

def sendAll (json : SerdeJson Req Resp) (sent : List (Frame Req Resp)) :
    Bytes :=
  sent.foldl (fun written frame => (send json written frame).2) []

/-- The payload of a frame that `send_frame` accepts. -/
def payload? (json : SerdeJson Req Resp) (frame : Frame Req Resp) :
    Option Bytes :=
  (json.toVec frame).toOption.filter (·.length ≤ MAX_FRAME_BYTES)

def payloads (json : SerdeJson Req Resp) (sent : List (Frame Req Resp)) :
    List Bytes :=
  sent.filterMap (payload? json)

def CodecError.of : LengthDelimited.Failure → CodecError
  | .tooLong => .lengthDelimited
  | .leftover => .io "bytes remaining on stream"

/-- What the stream of a framer gives at a poll, the bytes arriving in some
reads. -/
def arrival (reads : List Bytes) (index : Nat) : Arrival :=
  ((Incoming.start reads).arrival MAX_FRAME_BYTES index).map
    (Except.mapError CodecError.of)

/-! ## Sending -/

section

variable {json : SerdeJson Req Resp} {written : Bytes}
  {frame : Frame Req Resp}

/-- The codec never refuses what `send_frame` hands to it. -/
theorem send_fst :
    (send json written frame).1 = sendFrame json (.ok ()) frame := by
  unfold send sendFrame
  cases json.toVec frame with
  | error cause => rfl
  | ok bytes =>
      by_cases hlong : bytes.length > MAX_FRAME_BYTES
      · simp [hlong]
      · simp [encode, hlong]

theorem send_snd :
    (send json written frame).2 =
      written ++ frames (payload? json frame).toList := by
  unfold send payload?
  cases json.toVec frame with
  | error cause => simp [Except.toOption]
  | ok bytes =>
      by_cases hlong : bytes.length > MAX_FRAME_BYTES
      · simp [Except.toOption, Option.filter_some, hlong, Nat.not_le.mpr hlong]
      · simp [Except.toOption, Option.filter_some, encode, hlong,
          Nat.le_of_not_lt hlong]

theorem sendAll_eq (sent : List (Frame Req Resp)) :
    sendAll json sent = frames (payloads json sent) := by
  induction sent using List.reverseRecOn with
  | nil => rfl
  | append_singleton sent frame ih =>
      have hlast : sendAll json (sent ++ [frame]) =
          (send json (sendAll json sent) frame).2 := by
        simp [sendAll]
      have hpayloads : payloads json (sent ++ [frame]) =
          payloads json sent ++ (payload? json frame).toList := by
        rw [payloads, List.filterMap_append]
        cases hpayload : payload? json frame <;>
          simp [payloads, hpayload]
      rw [hlast, send_snd, ih, hpayloads, LengthDelimited.frames_append]

theorem payload?_eq_none {error : Failure}
    (herror : sendFrame json (.ok ()) frame = .error error) :
    payload? json frame = none := by
  unfold sendFrame at herror
  unfold payload?
  cases hbytes : json.toVec frame with
  | error cause => rfl
  | ok bytes =>
      by_cases hlong : bytes.length > MAX_FRAME_BYTES
      · simpa [Except.toOption] using hlong
      · simp [hbytes, hlong] at herror

theorem length_le_of_mem_payloads {sent : List (Frame Req Resp)}
    {payload : Bytes} (hpayload : payload ∈ payloads json sent) :
    payload.length ≤ MAX_FRAME_BYTES := by
  obtain ⟨frame, -, hframe⟩ := List.mem_filterMap.mp hpayload
  simpa using (Option.filter_eq_some_iff.mp hframe).2

/-- `send_frame` refuses a frame for its length. -/
def RefusesLength (json : SerdeJson Req Resp) (frame : Frame Req Resp) :
    Prop :=
  ∃ error, (send json [] frame).1 = .error (.send error)

theorem refusesLength_iff {bytes : Bytes}
    (hbytes : json.toVec frame = .ok bytes) :
    RefusesLength json frame ↔ MAX_FRAME_BYTES < bytes.length := by
  unfold RefusesLength
  rw [send_fst]
  simp only [sendFrame, hbytes]
  split <;> simp_all

end

/-! ## Losslessness -/

structure Lossless (json : SerdeJson Req Resp) : Prop where
  /-- The payloads arrive as they were written, however the bytes are read,
  and then the end of the stream. -/
  delivers : ∀ sent reads, reads.flatten = sendAll json sent →
    ∀ index, arrival reads index = (payloads json sent)[index]?.map .ok
  ends : ∀ sent reads, reads.flatten = sendAll json sent →
    ∀ index, (payloads json sent).length ≤ index →
      recvFrame json (arrival reads index) = .ok none
  /-- A frame that is refused leaves the stream as it was. -/
  keeps : ∀ written frame error, (send json written frame).1 = .error error →
    (send json written frame).2 = written
  /-- The sender's ceiling is the receiver's. -/
  agrees : ∀ frame bytes, json.toVec frame = .ok bytes →
    (RefusesLength json frame ↔ ¬ Accepts MAX_FRAME_BYTES bytes)
  /-- The receiver tells a payload too long from its head. -/
  tells : ∀ frame bytes, json.toVec frame = .ok bytes →
    bytes.length < 2 ^ 32 →
    (RefusesLength json frame ↔
      decode MAX_FRAME_BYTES
        ⟨none, be32 (UInt32.ofNat bytes.length) ++ bytes⟩ =
          .error .tooLong)

theorem MAX_FRAME_BYTES_lt : MAX_FRAME_BYTES < 2 ^ 32 := by
  decide

theorem arrival_of_sendAll {json : SerdeJson Req Resp}
    {sent : List (Frame Req Resp)} {reads : List Bytes}
    (hreads : reads.flatten = sendAll json sent) (index : Nat) :
    arrival reads index = (payloads json sent)[index]?.map .ok := by
  rw [sendAll_eq] at hreads
  rw [arrival, LengthDelimited.arrival_of_frames MAX_FRAME_BYTES_lt
    (fun _ => length_le_of_mem_payloads) hreads index, Option.map_map]
  rfl

end Dovetail.PrivilegedChannel
