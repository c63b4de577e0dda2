import Dovetail.PrivilegedHandshake
import Dovetail.TransitionRun

/-!
# A connection to the privileged daemon

`handle_conn` as a machine.  The environment decides what arrives, how a
dispatched command ends and whether the transport takes a write; the machine
keeps a transcript of what it received, dispatched and wrote.
-/

namespace Dovetail.PrivilegedChannel

variable {Req Resp : Type*}

structure DaemonApp (Req : Type*) where
  version : String
  validate : Req → Except String Unit

/-- What the environment does next.  A dispatch that ran into the command's
time limit has `elapsed`. -/
inductive Event (Resp : Type*) where
  | received (next : Timed Arrival)
  | dispatched (outcome : Timed (RespPayload Resp))
  | delivered (delivery : Except String Unit)

inductive Entry (Req Resp : Type*) where
  | received (next : Timed (Received Req Resp))
  | dispatch (cmd : Req)
  | wrote (frame : Frame Req Resp)

/-- The place where `handle_conn` waits for the environment. -/
inductive Phase (Req Resp : Type*) where
  | awaitingHello
  | refusing (failure : Failure) (reject : ErrorBody)
  | greeting (hello : Hello)
  | awaitingFrame
  | dispatching (request : Request Req)
  | answering (response : Response Resp)
  | closed (result : Except Failure Unit)

structure Session (Req Resp : Type*) where
  phase : Phase Req Resp
  transcript : List (Entry Req Resp)

/-- What `handle_conn` is given, and what it runs on. -/
structure Connection (Req Resp : Type*) where
  json : SerdeJson Req Resp
  app : DaemonApp Req
  peer : PeerCheck
  nonce : Nonce

namespace Connection

def config (connection : Connection Req Resp) : ServerConfig where
  serverMajor := PROTOCOL_MAJOR
  serverMinor := PROTOCOL_MINOR
  helperVersion := connection.app.version
  peerCheck := connection.peer

def start : Session Req Resp := ⟨.awaitingHello, []⟩

/-- The handshake has its first frame, or has run out of time for it. -/
def shake (next : Timed (Received Req Resp)) : Phase Req Resp :=
  match readHello next with
  | .error (failure, reject) => .refusing failure reject
  | .ok hello => .greeting hello

/-- The request loop has its next frame: anything but a request closes the
connection, and a request is validated before it is dispatched. -/
def serve (app : DaemonApp Req) (next : Timed (Received Req Resp)) :
    Phase Req Resp × List (Entry Req Resp) :=
  match next with
  | .elapsed => (.closed (.ok ()), [])
  | .ready (.ok none) => (.closed (.ok ()), [])
  | .ready (.error _) => (.closed (.ok ()), [])
  | .ready (.ok (some (.request request))) =>
      match app.validate request.cmd with
      | .error message =>
          (.answering
            { id := request.id
              payload := .erro ErrorCode.invalidParams message false }, [])
      | .ok () => (.dispatching request, [.dispatch request.cmd])
  | .ready (.ok (some _)) => (.closed (.ok ()), [])

/-- The reply to a dispatched command. -/
def reply (request : Request Req) (outcome : Timed (RespPayload Resp)) :
    Response Resp where
  id := request.id
  payload :=
    match outcome with
    | .ready payload => payload
    | .elapsed =>
        .erro ErrorCode.timeout "comando excedeu o tempo limite" true

/-- After sending a frame: its failure ends the connection, otherwise the
frame is on the transcript. -/
def sent (session : Session Req Resp) (frame : Frame Req Resp)
    (outcome : Except Failure Unit) (next : Phase Req Resp) :
    Session Req Resp :=
  match outcome with
  | .error failure => { session with phase := .closed (.error failure) }
  | .ok () => ⟨next, session.transcript ++ [.wrote frame]⟩

def step (connection : Connection Req Resp) (session : Session Req Resp)
    (event : Event Resp) : Option (Session Req Resp) :=
  let ⟨json, app, _, nonce⟩ := connection
  match session.phase, event with
  | .awaitingHello, .received next =>
      let next := next.map (recvFrame json)
      some ⟨shake next, session.transcript ++ [.received next]⟩
  | .refusing failure reject, .delivered delivery =>
      let frame := .serverHello (refusal connection.config nonce reject)
      let outcome := sendFrame json delivery frame
      some { sent session frame outcome session.phase with
        phase := .closed (.error failure) }
  | .greeting hello, .delivered delivery =>
      let frame := .serverHello (verdict connection.config nonce hello)
      some (sent session frame (sendFrame json delivery frame)
        (if accepts connection.config hello then .awaitingFrame
          else .closed (.ok ())))
  | .awaitingFrame, .received next =>
      let next := next.map (recvFrame json)
      let (phase, dispatched) := serve app next
      some ⟨phase, session.transcript ++ .received next :: dispatched⟩
  | .dispatching request, .dispatched outcome =>
      some { session with phase := .answering (reply request outcome) }
  | .answering response, .delivered delivery =>
      let frame := .response response
      some (sent session frame (sendFrame json delivery frame) .awaitingFrame)
  | _, _ => none

end Connection

end Dovetail.PrivilegedChannel
