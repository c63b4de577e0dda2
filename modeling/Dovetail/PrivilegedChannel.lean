import Mathlib.Tactic

/-!
# Frames of the privileged channel

The envelope, the framing and the two ends of the handshake.  The transport
is the length-delimited codec: it hands over whole frames, the end of the
stream, a length above its ceiling, or an io error.  `serde_json` is a
parameter here; `PrivilegedWire` gives the JSON of a frame.
-/

namespace Dovetail.PrivilegedChannel

abbrev Bytes := List UInt8

def PROTOCOL_MAJOR : UInt16 := 1
def PROTOCOL_MINOR : UInt16 := 1
def MAX_FRAME_BYTES : Nat := 64 * 1024

/-! ## Envelope -/

structure ErrorCode where
  code : String
  deriving DecidableEq, Repr

namespace ErrorCode

def versionUnsupported : ErrorCode := ⟨"VERSION_UNSUPPORTED"⟩
def handshakeRequired : ErrorCode := ⟨"HANDSHAKE_REQUIRED"⟩
def frameTooLarge : ErrorCode := ⟨"FRAME_TOO_LARGE"⟩
def malformedFrame : ErrorCode := ⟨"MALFORMED_FRAME"⟩
def invalidParams : ErrorCode := ⟨"INVALID_PARAMS"⟩
def timeout : ErrorCode := ⟨"TIMEOUT"⟩

end ErrorCode

structure ErrorBody where
  code : ErrorCode
  message : String
  retryable : Bool
  deriving DecidableEq, Repr

def ErrorBody.new (code : ErrorCode) (message : String) : ErrorBody :=
  { code, message, retryable := false }

structure Request (Req : Type*) where
  id : UInt64
  cmd : Req
  deriving DecidableEq, Repr

inductive RespPayload (Resp : Type*) where
  | ok (reply : Resp)
  | err (body : ErrorBody)
  deriving DecidableEq, Repr

def RespPayload.erro {Resp : Type*} (code : ErrorCode) (message : String)
    (retryable : Bool) : RespPayload Resp :=
  .err { code, message, retryable }

structure Response (Resp : Type*) where
  id : UInt64
  payload : RespPayload Resp
  deriving DecidableEq, Repr

/-! ## Handshake frames -/

abbrev Nonce := Vector UInt8 16

structure Hello where
  protoMajor : UInt16
  protoMinor : UInt16
  clientVersion : String
  nonce : Nonce
  deriving DecidableEq, Repr

structure PeerCheck where
  method : String
  subject : String
  deriving DecidableEq, Repr

structure ServerHello where
  accepted : Bool
  protoMajor : UInt16
  protoMinor : UInt16
  helperVersion : String
  nonce : Nonce
  peerCheck : PeerCheck
  reject : Option ErrorBody
  deriving DecidableEq, Repr

inductive Frame (Req Resp : Type*) where
  | hello (hello : Hello)
  | serverHello (serverHello : ServerHello)
  | request (request : Request Req)
  | response (response : Response Resp)
  deriving DecidableEq, Repr

def Frame.name {Req Resp : Type*} : Frame Req Resp → String
  | .hello _ => "Hello"
  | .serverHello _ => "ServerHello"
  | .request _ => "Request"
  | .response _ => "Response"

/-! ## Failures -/

structure SendError where
  size : Nat
  limit : Nat
  deriving DecidableEq, Repr

inductive RecvError where
  | tooLarge
  | malformed (cause : String)
  | io (cause : String)
  deriving DecidableEq, Repr

inductive HandshakeError where
  | unexpectedFrame (expected got : String)
  | streamEnded
  | rejected (reject : Option ErrorBody)
  | versionMismatch (client server : UInt16)
  | timeout
  deriving DecidableEq, Repr

/-- What an `anyhow::Error` of this channel holds. -/
inductive Failure where
  | send (error : SendError)
  | recv (error : RecvError)
  | handshake (error : HandshakeError)
  | serialize (cause : String)
  | transport (cause : String)
  deriving DecidableEq, Repr

/-! ## Framing -/

/-- What a deadline makes of a future: it elapses, or the future is ready. -/
inductive Timed (α : Type*) where
  | elapsed
  | ready (value : α)
  deriving DecidableEq, Repr

def Timed.map {α β : Type*} (f : α → β) : Timed α → Timed β
  | .elapsed => .elapsed
  | .ready value => .ready (f value)

/-- The error of the codec's stream: a length above its ceiling, which is a
`LengthDelimitedCodecError` inside the io error, or any other io error. -/
inductive CodecError where
  | lengthDelimited
  | io (cause : String)
  deriving DecidableEq, Repr

/-- What the codec's stream gives next, `none` at its end. -/
abbrev Arrival := Option (Except CodecError Bytes)

abbrev Received (Req Resp : Type*) :=
  Except RecvError (Option (Frame Req Resp))

structure SerdeJson (Req Resp : Type*) where
  toVec : Frame Req Resp → Except String Bytes
  fromSlice : Bytes → Except String (Frame Req Resp)

variable {Req Resp : Type*}

/-- The outcome of sending, when the transport takes the bytes as
`delivery` says. -/
def sendFrame (json : SerdeJson Req Resp) (delivery : Except String Unit)
    (frame : Frame Req Resp) : Except Failure Unit :=
  match json.toVec frame with
  | .error cause => .error (.serialize cause)
  | .ok bytes =>
      if bytes.length > MAX_FRAME_BYTES then
        .error (.send { size := bytes.length, limit := MAX_FRAME_BYTES })
      else
        match delivery with
        | .error cause => .error (.transport cause)
        | .ok () => .ok ()

def RecvError.fromCodec : CodecError → RecvError
  | .lengthDelimited => .tooLarge
  | .io cause => .io cause

def recvFrame (json : SerdeJson Req Resp) (next : Arrival) :
    Received Req Resp :=
  match next with
  | some (.ok bytes) =>
      match json.fromSlice bytes with
      | .ok frame => .ok (some frame)
      | .error cause => .error (.malformed cause)
  | some (.error error) => .error (RecvError.fromCodec error)
  | none => .ok none

/-- The frame serialises, and to no more bytes than a frame may have. -/
def Fits (json : SerdeJson Req Resp) (frame : Frame Req Resp) : Prop :=
  ∃ bytes, json.toVec frame = .ok bytes ∧ bytes.length ≤ MAX_FRAME_BYTES

theorem sendFrame_eq_ok_iff {json : SerdeJson Req Resp}
    {delivery : Except String Unit} {frame : Frame Req Resp} :
    sendFrame json delivery frame = .ok () ↔
      Fits json frame ∧ delivery = .ok () := by
  unfold sendFrame Fits
  cases hbytes : json.toVec frame with
  | error cause => simp
  | ok bytes =>
      by_cases hlength : bytes.length > MAX_FRAME_BYTES
      · simp [hlength]
      · cases delivery with
        | error cause => simp [hlength]
        | ok _ => simp [Nat.le_of_not_lt hlength, hlength]

end Dovetail.PrivilegedChannel
