import Dovetail.PrivilegedHandshake
import Dovetail.TransitionRun

/-!
# Agreement of the two ends of a handshake

Client and server run against each other over a channel in each direction.
The order of their steps is arbitrary, a receive may run out of time, fail
or find the stream ended at any moment, a send may fail, and frames under
way may be lost.
-/

namespace Dovetail.PrivilegedChannel

open TransitionRun

variable {Req Resp : Type*}

/-- What the two ends are configured with. -/
structure HandshakePair (Req Resp : Type*) where
  client : ClientConfig
  clientNonce : Nonce
  debug : Frame Req Resp → String
  server : ServerConfig
  serverNonce : Nonce

inductive ClientEnd where
  | ready
  | waiting
  | done (result : Except Failure ClientHandshakeResult)
  deriving DecidableEq

inductive ServerEnd (Req Resp : Type*) where
  | waiting
  | replying (next : Timed (Received Req Resp))
  | done (result : Except Failure ServerHandshakeResult)

structure Link (Req Resp : Type*) where
  client : ClientEnd
  server : ServerEnd Req Resp
  toServer : List (Frame Req Resp)
  toClient : List (Frame Req Resp)

/-- What a receive finds: the next frame under way, or something else. -/
inductive Delivery where
  | frame
  | elapsed
  | ended
  | failed (error : RecvError)

inductive Action where
  | clientSends (outcome : Except Failure Unit)
  | serverReceives (delivery : Delivery)
  | serverSends (outcome : Except Failure Unit)
  | clientReceives (delivery : Delivery)
  | lost

def receive (delivery : Delivery) (channel : List (Frame Req Resp)) :
    Option (Timed (Received Req Resp) × List (Frame Req Resp)) :=
  match delivery, channel with
  | .frame, [] => none
  | .frame, frame :: rest => some (.ready (.ok (some frame)), rest)
  | .elapsed, _ => some (.elapsed, channel)
  | .ended, _ => some (.ready (.ok none), channel)
  | .failed error, _ => some (.ready (.error error), channel)

/-- A frame is under way once its send succeeds. -/
def put (channel : List (Frame Req Resp)) (frame : Frame Req Resp)
    (outcome : Except Failure Unit) : List (Frame Req Resp) :=
  match outcome with
  | .ok () => channel ++ [frame]
  | .error _ => channel

namespace HandshakePair

def start : Link Req Resp := ⟨.ready, .waiting, [], []⟩

def step (pair : HandshakePair Req Resp) (link : Link Req Resp)
    (action : Action) : Option (Link Req Resp) :=
  match action with
  | .clientSends outcome =>
      match link.client with
      | .ready =>
          let frame := .hello (clientHello pair.client pair.clientNonce)
          some { link with
            client := match outcome with
              | .ok () => .waiting
              | .error failure => .done (.error failure)
            toServer := put link.toServer frame outcome }
      | _ => none
  | .serverReceives delivery =>
      match link.server with
      | .waiting =>
          (receive delivery link.toServer).map fun (next, toServer) =>
            { link with server := .replying next, toServer }
      | _ => none
  | .serverSends outcome =>
      match link.server with
      | .replying next =>
          let (serverHello, result) :=
            serverHandshake pair.server pair.serverNonce next
          some { link with
            server := .done (result outcome)
            toClient := put link.toClient (.serverHello serverHello) outcome }
      | _ => none
  | .clientReceives delivery =>
      match link.client with
      | .waiting =>
          (receive delivery link.toClient).map fun (next, toClient) =>
            { link with
              client := .done (clientHandshake pair.client pair.debug next)
              toClient }
      | _ => none
  | .lost => some { link with toServer := [], toClient := [] }

end HandshakePair

/-! ## What is under way -/

/-- The accepted answer is there only when the server holds its result, and
it is the verdict on the client's own `Hello`. -/
def Backed (pair : HandshakePair Req Resp) (link : Link Req Resp)
    (serverHello : ServerHello) : Prop :=
  serverHello = verdict pair.server pair.serverNonce
      (clientHello pair.client pair.clientNonce) ∧
    link.server = .done (.ok (serverResult pair.server
      (clientHello pair.client pair.clientNonce)))

structure Coherent (pair : HandshakePair Req Resp) (link : Link Req Resp) :
    Prop where
  /-- Only the client's `Hello` travels to the server. -/
  toServer : ∀ frame ∈ link.toServer,
    frame = .hello (clientHello pair.client pair.clientNonce)
  /-- The server answers that `Hello` or nothing it would accept. -/
  replying : ∀ next, link.server = .replying next → ∀ hello,
    readHello next = .ok hello →
      hello = clientHello pair.client pair.clientNonce
  /-- An accepted answer under way is backed by the server. -/
  toClient : ∀ serverHello, .serverHello serverHello ∈ link.toClient →
    serverHello.accepted = true → Backed pair link serverHello
  /-- So is the one the client returned with. -/
  client : ∀ result, link.client = .done (.ok result) →
    result.serverHello.accepted = true ∧
      result.serverHello.protoMajor = pair.client.clientMajor ∧
      result.negotiatedMinor = result.serverHello.protoMinor ∧
      Backed pair link result.serverHello

section

variable {pair : HandshakePair Req Resp} {link next : Link Req Resp}

theorem mem_put {channel : List (Frame Req Resp)}
    {frame found : Frame Req Resp} {outcome : Except Failure Unit}
    (hmem : found ∈ put channel frame outcome) :
    found ∈ channel ∨ (found = frame ∧ outcome = .ok ()) := by
  cases outcome with
  | error failure => exact Or.inl hmem
  | ok _ => simpa [put] using hmem

/-- A receive yields a frame under way, and leaves the others. -/
theorem receive_spec {delivery : Delivery}
    {channel rest : List (Frame Req Resp)} {next : Timed (Received Req Resp)}
    (hreceive : receive delivery channel = some (next, rest)) :
    (∀ frame, next = .ready (.ok (some frame)) → frame ∈ channel) ∧
      ∀ frame ∈ rest, frame ∈ channel := by
  unfold receive at hreceive
  split at hreceive
  · simp at hreceive
  · obtain ⟨rfl, rfl⟩ := by simpa using hreceive
    simp +contextual
  all_goals
    obtain ⟨rfl, rfl⟩ := by simpa using hreceive
    simp

theorem coherent_start : Coherent pair HandshakePair.start := by
  constructor <;> simp [HandshakePair.start]

theorem Coherent.clientSends (hcoherent : Coherent pair link)
    {outcome : Except Failure Unit}
    (hstep : pair.step link (.clientSends outcome) = some next) :
    Coherent pair next := by
  simp only [HandshakePair.step] at hstep
  split at hstep
  · obtain rfl := by simpa using hstep
    refine ⟨?_, hcoherent.replying, hcoherent.toClient, ?_⟩
    · intro frame hframe
      rcases mem_put hframe with hold | ⟨rfl, -⟩
      · exact hcoherent.toServer frame hold
      · rfl
    · intro result hresult
      cases outcome <;> simp at hresult
  · simp at hstep

/-- What is backed stays so until the server changes. -/
theorem Backed.of_server_eq {serverHello : ServerHello}
    (hbacked : Backed pair link serverHello)
    (hserver : next.server = link.server) :
    Backed pair next serverHello :=
  ⟨hbacked.1, by rw [hserver, hbacked.2]⟩

/-- A server that has not returned backs nothing. -/
theorem not_backed {serverHello : ServerHello}
    (hserver : ∀ result, link.server ≠ .done result) :
    ¬ Backed pair link serverHello := fun hbacked =>
  hserver _ hbacked.2

theorem Coherent.serverReceives (hcoherent : Coherent pair link)
    {delivery : Delivery}
    (hstep : pair.step link (.serverReceives delivery) = some next) :
    Coherent pair next := by
  simp only [HandshakePair.step] at hstep
  split at hstep
  · next hwaiting =>
      obtain ⟨⟨received, rest⟩, hreceive, rfl⟩ := Option.map_eq_some_iff.mp hstep
      obtain ⟨htaken, hrest⟩ := receive_spec hreceive
      have hunbacked : ∀ serverHello, ¬ Backed pair link serverHello :=
        fun _ => not_backed (by simp [hwaiting])
      refine ⟨?_, ?_, ?_, ?_⟩
      · intro frame hframe
        exact hcoherent.toServer frame (hrest frame hframe)
      · intro arrived harrived hello hhello
        obtain rfl : received = arrived := by simpa using harrived
        have hframe := htaken _ (readHello_eq_ok_iff.mp hhello)
        simpa using hcoherent.toServer _ hframe
      · intro serverHello hmem haccepted
        exact absurd (hcoherent.toClient serverHello hmem haccepted)
          (hunbacked serverHello)
      · intro result hresult
        exact absurd (hcoherent.client result hresult).2.2.2
          (hunbacked result.serverHello)
  · simp at hstep

theorem Coherent.serverSends (hcoherent : Coherent pair link)
    {outcome : Except Failure Unit}
    (hstep : pair.step link (.serverSends outcome) = some next) :
    Coherent pair next := by
  simp only [HandshakePair.step] at hstep
  split at hstep
  · next received hreplying =>
      obtain rfl := by simpa using hstep
      have hunbacked : ∀ serverHello, ¬ Backed pair link serverHello :=
        fun _ => not_backed (by simp [hreplying])
      refine ⟨hcoherent.toServer, by simp, ?_, ?_⟩
      · intro serverHello hmem haccepted
        rcases mem_put hmem with hold | ⟨hnew, rfl⟩
        · exact absurd (hcoherent.toClient serverHello hold haccepted)
            (hunbacked serverHello)
        · simp only [Frame.serverHello.injEq] at hnew
          subst hnew
          unfold serverHandshake at haccepted ⊢
          cases hhello : readHello received with
          | error refused => simp [hhello, refusal] at haccepted
          | ok hello =>
              have hclient := hcoherent.replying received hreplying hello hhello
              subst hclient
              exact ⟨rfl, rfl⟩
      · intro result hresult
        exact absurd (hcoherent.client result hresult).2.2.2
          (hunbacked result.serverHello)
  · simp at hstep

theorem Coherent.clientReceives (hcoherent : Coherent pair link)
    {delivery : Delivery}
    (hstep : pair.step link (.clientReceives delivery) = some next) :
    Coherent pair next := by
  simp only [HandshakePair.step] at hstep
  split at hstep
  · obtain ⟨⟨received, rest⟩, hreceive, rfl⟩ := Option.map_eq_some_iff.mp hstep
    obtain ⟨htaken, hrest⟩ := receive_spec hreceive
    refine ⟨hcoherent.toServer, hcoherent.replying, ?_, ?_⟩
    · intro serverHello hmem haccepted
      exact hcoherent.toClient serverHello (hrest _ hmem) haccepted
    · intro result hresult
      obtain ⟨serverHello, rfl, haccepted, hmajor, rfl⟩ :=
        clientHandshake_eq_ok_iff.mp (ClientEnd.done.inj hresult)
      have hmem := htaken _ rfl
      exact ⟨haccepted, hmajor, rfl,
        hcoherent.toClient serverHello hmem haccepted⟩
  · simp at hstep

theorem Coherent.step (hcoherent : Coherent pair link) {action : Action}
    (hstep : pair.step link action = some next) : Coherent pair next := by
  cases action with
  | clientSends outcome => exact hcoherent.clientSends hstep
  | serverReceives delivery => exact hcoherent.serverReceives hstep
  | serverSends outcome => exact hcoherent.serverSends hstep
  | clientReceives delivery => exact hcoherent.clientReceives hstep
  | lost =>
      obtain rfl := by simpa [HandshakePair.step] using hstep
      exact ⟨by simp, hcoherent.replying, by simp, hcoherent.client⟩

theorem run_coherent {actions : List Action}
    (hrun : run pair.step HandshakePair.start actions = some link) :
    Coherent pair link :=
  run_invariant coherent_start (fun _ _ _ hcoherent => hcoherent.step) hrun

end

/-! ## Agreement -/

/-- Both ends hold the same minor, the lesser of the two, and the same
major. -/
structure Agree (pair : HandshakePair Req Resp) (link : Link Req Resp)
    (result : ClientHandshakeResult) : Prop where
  major : pair.client.clientMajor = pair.server.serverMajor
  accepted : result.serverHello.accepted = true
  minor : result.negotiatedMinor =
    min pair.client.clientMinor pair.server.serverMinor
  held : ∃ held, link.server = .done (.ok held) ∧ held.accepted = true ∧
    held.negotiatedMinor = result.negotiatedMinor

theorem Coherent.agree {pair : HandshakePair Req Resp}
    {link : Link Req Resp} (hcoherent : Coherent pair link)
    {result : ClientHandshakeResult}
    (hresult : link.client = .done (.ok result)) : Agree pair link result := by
  obtain ⟨haccepted, -, hminor, hanswer, hheld⟩ :=
    hcoherent.client result hresult
  have haccepts : accepts pair.server
      (clientHello pair.client pair.clientNonce) = true := by
    rw [hanswer] at haccepted
    exact haccepted
  have hnegotiated : result.negotiatedMinor =
      negotiated pair.server (clientHello pair.client pair.clientNonce) := by
    rw [hminor, hanswer]
    simp [verdict, haccepts]
  exact ⟨beq_iff_eq.mp haccepts, haccepted, hnegotiated,
    _, hheld, haccepts, hnegotiated.symm⟩

/-- The client runs no minor above its own, whatever it received. -/
def MinorBounded (config : ClientConfig) (debug : Frame Req Resp → String)
    (next : Timed (Received Req Resp)) : Prop :=
  ∀ result, clientHandshake config debug next = .ok result →
    result.negotiatedMinor ≤ config.clientMinor

/-- A `ServerHello` that accepts the client's major names no minor above the
client's. -/
def Clamped (config : ClientConfig) (next : Timed (Received Req Resp)) :
    Prop :=
  ∀ serverHello, next = .ready (.ok (some (.serverHello serverHello))) →
    serverHello.accepted = true →
    serverHello.protoMajor = config.clientMajor →
      serverHello.protoMinor ≤ config.clientMinor

theorem minorBounded_iff_clamped (config : ClientConfig)
    (debug : Frame Req Resp → String) (next : Timed (Received Req Resp)) :
    MinorBounded config debug next ↔ Clamped config next := by
  constructor
  · intro hbounded serverHello hnext haccepted hmajor
    exact hbounded ⟨serverHello, serverHello.protoMinor⟩
      (clientHandshake_eq_ok_iff.mpr
        ⟨serverHello, hnext, haccepted, hmajor, rfl⟩)
  · intro hclamped result hresult
    obtain ⟨serverHello, hnext, haccepted, hmajor, rfl⟩ :=
      clientHandshake_eq_ok_iff.mp hresult
    exact hclamped serverHello hnext haccepted hmajor

/-- Against the server of this channel the ends agree in every run.  What the
client makes of an arbitrary answer is within its own minor exactly when the
answer is: the client takes `proto_minor` over as it comes. -/
theorem handshake_agreement :
    (∀ (pair : HandshakePair Req Resp) (actions : List Action)
        (link : Link Req Resp) (result : ClientHandshakeResult),
      run pair.step HandshakePair.start actions = some link →
        link.client = .done (.ok result) → Agree pair link result) ∧
    ∀ (config : ClientConfig) (debug : Frame Req Resp → String)
        (next : Timed (Received Req Resp)),
      MinorBounded config debug next ↔ Clamped config next :=
  ⟨fun _ _ _ _ hrun hresult => (run_coherent hrun).agree hresult,
    minorBounded_iff_clamped⟩

namespace Sample

/-- Client 1.5 and server 1.1. -/
def pair : HandshakePair Unit Unit where
  client := ⟨1, 5, "1.0.0"⟩
  clientNonce := Vector.replicate 16 1
  debug := Frame.name
  server := ⟨1, 1, "1.0.0", ⟨"peercred", "uid=0"⟩⟩
  serverNonce := Vector.replicate 16 2

def shaking : List Action :=
  [.clientSends (.ok ()), .serverReceives .frame, .serverSends (.ok ()),
    .clientReceives .frame]

def serverHello : ServerHello :=
  verdict pair.server pair.serverNonce
    (clientHello pair.client pair.clientNonce)

def shaken : Link Unit Unit where
  client := .done (.ok ⟨serverHello, 1⟩)
  server := .done (.ok (serverResult pair.server
    (clientHello pair.client pair.clientNonce)))
  toServer := []
  toClient := []

theorem run_shaking :
    run pair.step HandshakePair.start shaking = some shaken := by
  rfl

end Sample

theorem handshake_agreement_sample :
    Agree Sample.pair Sample.shaken ⟨Sample.serverHello, 1⟩ :=
  handshake_agreement.1 Sample.pair Sample.shaking Sample.shaken _
    Sample.run_shaking rfl

/-- A server that answers minor 2 to a client of minor 1 is believed. -/
theorem minor_above_the_clients_is_taken_over :
    ¬ ∀ (config : ClientConfig) (serverHello : ServerHello)
        (result : ClientHandshakeResult),
      clientHandshake config (@Frame.name Unit Unit)
        (.ready (.ok (some (.serverHello serverHello)))) = .ok result →
          result.negotiatedMinor ≤ config.clientMinor := by
  intro hall
  have hbound := hall ⟨1, 1, "1.0.0"⟩
    { Sample.serverHello with protoMinor := 2 } _ rfl
  revert hbound
  decide

end Dovetail.PrivilegedChannel
