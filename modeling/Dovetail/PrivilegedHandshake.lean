import Dovetail.PrivilegedChannel

/-!
# The two ends of the handshake

Each end is a function of what it receives within its deadline.  The server
answers every first frame: a `Hello` by its verdict on the major, anything
else by a refusal that names the reason.
-/

namespace Dovetail.PrivilegedChannel

variable {Req Resp : Type*}

/-! ## Server -/

structure ServerConfig where
  serverMajor : UInt16
  serverMinor : UInt16
  helperVersion : String
  peerCheck : PeerCheck

structure ServerHandshakeResult where
  accepted : Bool
  negotiatedMinor : UInt16
  clientHello : Hello
  deriving DecidableEq, Repr

abbrev HelloFailure := Failure × ErrorBody

def unexpected (frame : Frame Req Resp) : Failure :=
  .handshake (.unexpectedFrame "Hello" frame.name)

def readHello (next : Timed (Received Req Resp)) :
    Except HelloFailure Hello :=
  match next with
  | .elapsed =>
      .error (.handshake .timeout, ErrorBody.new ErrorCode.handshakeRequired
        "handshake nao recebido dentro do prazo")
  | .ready (.ok none) =>
      .error (.handshake .streamEnded,
        ErrorBody.new ErrorCode.handshakeRequired
          "conexao fechada antes do handshake")
  | .ready (.error (.io cause)) =>
      .error (.recv (.io cause), ErrorBody.new ErrorCode.handshakeRequired
        "conexao interrompida antes do handshake")
  | .ready (.error .tooLarge) =>
      .error (.recv .tooLarge, ErrorBody.new ErrorCode.frameTooLarge
        "frame de handshake acima do teto")
  | .ready (.error (.malformed cause)) =>
      .error (.recv (.malformed cause),
        ErrorBody.new ErrorCode.malformedFrame
          "frame de handshake malformado")
  | .ready (.ok (some (.hello hello))) => .ok hello
  | .ready (.ok (some (.request request))) =>
      .error (unexpected (.request request : Frame Req Resp),
        ErrorBody.new ErrorCode.handshakeRequired
          "Request recebido antes do Hello")
  | .ready (.ok (some other)) =>
      .error (unexpected other, ErrorBody.new ErrorCode.malformedFrame
        "primeiro frame deve ser Hello")

/-- The answer to anything that is not a `Hello`. -/
def refusal (config : ServerConfig) (nonce : Nonce) (reject : ErrorBody) :
    ServerHello where
  accepted := false
  protoMajor := config.serverMajor
  protoMinor := config.serverMinor
  helperVersion := config.helperVersion
  nonce := nonce
  peerCheck := config.peerCheck
  reject := some reject

def accepts (config : ServerConfig) (hello : Hello) : Bool :=
  hello.protoMajor == config.serverMajor

def negotiated (config : ServerConfig) (hello : Hello) : UInt16 :=
  min hello.protoMinor config.serverMinor

/-- The answer to a `Hello`. -/
def verdict (config : ServerConfig) (nonce : Nonce) (hello : Hello) :
    ServerHello where
  accepted := accepts config hello
  protoMajor := config.serverMajor
  protoMinor :=
    if accepts config hello then negotiated config hello
    else config.serverMinor
  helperVersion := config.helperVersion
  nonce := nonce
  peerCheck := config.peerCheck
  reject :=
    if accepts config hello then none
    else some (ErrorBody.new ErrorCode.versionUnsupported
      s!"protocolo major {hello.protoMajor.toNat} nao suportado (helper fala {config.serverMajor.toNat})")

def serverResult (config : ServerConfig) (hello : Hello) :
    ServerHandshakeResult where
  accepted := accepts config hello
  negotiatedMinor := negotiated config hello
  clientHello := hello

/-- What the server writes, and what it returns when the send has the given
outcome.  A refusal is sent without looking at that outcome. -/
def serverHandshake (config : ServerConfig) (nonce : Nonce)
    (next : Timed (Received Req Resp)) :
    ServerHello × (Except Failure Unit → Except Failure ServerHandshakeResult) :=
  match readHello next with
  | .error (failure, reject) =>
      (refusal config nonce reject, fun _ => .error failure)
  | .ok hello =>
      (verdict config nonce hello,
        fun sent => sent.map fun _ => serverResult config hello)

theorem readHello_eq_ok_iff {next : Timed (Received Req Resp)}
    {hello : Hello} :
    readHello next = .ok hello ↔
      next = .ready (.ok (some (.hello hello))) := by
  unfold readHello
  split <;> simp_all [eq_comm]

/-! ## Client -/

structure ClientConfig where
  clientMajor : UInt16
  clientMinor : UInt16
  clientVersion : String

structure ClientHandshakeResult where
  serverHello : ServerHello
  negotiatedMinor : UInt16
  deriving DecidableEq, Repr

def clientHello (config : ClientConfig) (nonce : Nonce) : Hello where
  protoMajor := config.clientMajor
  protoMinor := config.clientMinor
  clientVersion := config.clientVersion
  nonce := nonce

/-- What the client makes of the answer to its `Hello`; `debug` is the text
of `{other:?}`. -/
def clientHandshake (config : ClientConfig) (debug : Frame Req Resp → String)
    (next : Timed (Received Req Resp)) :
    Except Failure ClientHandshakeResult :=
  match next with
  | .elapsed => .error (.handshake .timeout)
  | .ready (.error error) => .error (.recv error)
  | .ready (.ok none) => .error (.handshake .streamEnded)
  | .ready (.ok (some (.serverHello serverHello))) =>
      if !serverHello.accepted then
        .error (.handshake (.rejected serverHello.reject))
      else if serverHello.protoMajor != config.clientMajor then
        .error (.handshake
          (.versionMismatch config.clientMajor serverHello.protoMajor))
      else
        .ok { serverHello, negotiatedMinor := serverHello.protoMinor }
  | .ready (.ok (some other)) =>
      .error (.handshake (.unexpectedFrame "ServerHello" (debug other)))

theorem clientHandshake_eq_ok_iff {config : ClientConfig}
    {debug : Frame Req Resp → String} {next : Timed (Received Req Resp)}
    {result : ClientHandshakeResult} :
    clientHandshake config debug next = .ok result ↔
      ∃ serverHello, next = .ready (.ok (some (.serverHello serverHello))) ∧
        serverHello.accepted = true ∧
        serverHello.protoMajor = config.clientMajor ∧
        result = ⟨serverHello, serverHello.protoMinor⟩ := by
  unfold clientHandshake
  split
  · simp
  · simp
  · simp
  · next serverHello =>
      have hready : ∀ other : ServerHello,
          (Timed.ready (.ok (some (.serverHello serverHello))) :
              Timed (Received Req Resp)) =
            .ready (.ok (some (.serverHello other))) ↔
          serverHello = other := by
        simp
      simp only [hready, exists_eq_left']
      by_cases haccepted : serverHello.accepted = true
      · by_cases hmajor : serverHello.protoMajor = config.clientMajor
        · simp only [haccepted, hmajor, Bool.not_true, Bool.false_eq_true,
            bne_self_eq_false, if_false, Except.ok.injEq, true_and]
          exact eq_comm
        · simp [haccepted, hmajor]
      · simp [haccepted]
  · next other hother =>
      simp only [reduceCtorEq, false_iff]
      rintro ⟨serverHello, hnext, -⟩
      simp only [Timed.ready.injEq, Except.ok.injEq, Option.some.injEq] at hnext
      exact hother serverHello hnext

end Dovetail.PrivilegedChannel
