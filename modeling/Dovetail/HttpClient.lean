import Dovetail.CodeUnits
import Dovetail.TransitionRun

/-!
# A request of the HTTP client

`ApiClient.request` sends a call, sends it again after a failure worth
retrying, and once more after a 401 that a new token may answer.  Its future
is a machine: the phases are the points it awaits at, with the failure it
carries across them, and the events are what resumes it.  The log keeps what
the request did to, and heard from, the world around it.
-/

namespace Dovetail.Http

open CodeUnits
open TransitionRun

/-! ## Errors -/

structure ApiErrorPayload where
  message : Option Text
  error : Option Text
  statusCode : Option UInt16
  code : Option Text
  activeConnections : Option UInt32
  raw : Option Text
  deriving DecidableEq

/-- What `request` asks of an error of the transport. -/
structure TransportError where
  isTimeout : Bool
  isConnect : Bool
  isRequest : Bool
  deriving DecidableEq

inductive ApiError where
  | transport (source : TransportError)
  | unauthorized (status : UInt16) (body : Option ApiErrorPayload)
  | forbidden (status : UInt16) (body : Option ApiErrorPayload)
  | tooManyRequests (status : UInt16) (body : Option ApiErrorPayload)
  | badRequest (status : UInt16) (body : Option ApiErrorPayload)
  | server (status : UInt16) (body : Option ApiErrorPayload)
  | decode (source : TransportError)
  | tokenStore (reason : Text)
  | missingToken
  | accountNotConfirmed
  | roleNotAllowed
  | alreadyConnected (message : Text) (activeConnections : UInt32)
  | internal (reason : Text)
  deriving DecidableEq

namespace ApiError

def isRetryable : ApiError → Bool
  | transport source =>
      source.isTimeout || source.isConnect || source.isRequest
  | server _ _ => true
  | _ => false

def isUnauthorized : ApiError → Bool
  | unauthorized _ _ => true
  | _ => false

/-- The refresher's answers that leave the request with its own error. -/
def isMissingOrRefused (error : ApiError) : Bool :=
  decide (error = missingToken) || error.isUnauthorized

theorem isRetryable_of_isUnauthorized {error : ApiError}
    (hunauthorized : error.isUnauthorized = true) :
    error.isRetryable = false := by
  cases error <;> simp_all [isUnauthorized, isRetryable]

end ApiError

/-! ## Answers of the server -/

structure StatusCode where
  code : UInt16
  inRange : 100 ≤ code ∧ code < 1000

namespace StatusCode

def isSuccess (status : StatusCode) : Bool :=
  decide (200 ≤ status.code ∧ status.code < 300)

def isServerError (status : StatusCode) : Bool :=
  decide (500 ≤ status.code ∧ status.code < 600)

end StatusCode

def mapStatusError (status : StatusCode)
    (body : Option ApiErrorPayload) : ApiError :=
  if status.code = 401 then .unauthorized status.code body
  else if status.code = 403 then .forbidden status.code body
  else if status.code = 429 then .tooManyRequests status.code body
  else if status.isServerError then .server status.code body
  else .badRequest status.code body

/-- How a send ends: without a response, or with one whose body reads as the
value, as the payload of an error, or as neither. -/
inductive Reply (R : Type*) where
  | failed (source : TransportError)
  | answered (status : StatusCode) (value : Except TransportError R)
      (payload : Option ApiErrorPayload)

def executeOnce {R : Type*} : Reply R → Except ApiError R
  | .failed source => .error (.transport source)
  | .answered status value payload =>
      if status.isSuccess then value.mapError .decode
      else .error (mapStatusError status payload)

/-! ## The client -/

/-- A span of nanoseconds that fits 64 bits of seconds. -/
structure Duration where
  nanos : Nat
  fits : nanos < 2 ^ 64 * 10 ^ 9

namespace Duration

/-- Multiplying panics where the product does not fit. -/
def times (span : Duration) (factor : Nat) : Option Duration :=
  if hfits : span.nanos * factor < 2 ^ 64 * 10 ^ 9 then
    some ⟨span.nanos * factor, hfits⟩
  else none

end Duration

structure ClientConfig where
  baseUrl : Text
  maxRetries : UInt32
  retryBaseDelay : Duration

structure ApiClient where
  config : ClientConfig
  /-- Whether the client was built with a token refresher. -/
  refresher : Bool

/-- What a verb hands to `request`; the body is what serialising it gives. -/
structure Call where
  method : Text
  path : Text
  body : Option (Except Text (List UInt8))
  auth : Bool

structure Outgoing where
  method : Text
  url : Text
  bearer : Option Text
  /-- Sent with the content type `application/json`. -/
  body : Option (List UInt8)
  deriving DecidableEq

namespace ApiClient

def url (client : ApiClient) (path : Text) : Text :=
  let slash : UInt16 := 47
  client.config.baseUrl.rdropWhile (· = slash) ++
    slash :: path.dropWhile (· = slash)

def outgoing (client : ApiClient) (call : Call)
    (bearer : Option Text) : Outgoing :=
  { method := call.method
    url := client.url call.path
    bearer
    body := call.body.bind Except.toOption }

def backoffDelay (client : ApiClient) (attempt : Nat) : Option Duration :=
  client.config.retryBaseDelay.times (2 ^ min attempt 6)

end ApiClient

/-- The bearer a call starts with, from what the token store holds. -/
def Call.credential (call : Call)
    (stored : Except ApiError (Option Text)) : Except ApiError (Option Text) :=
  if call.auth then
    match stored with
    | .error error => .error error
    | .ok none => .error .missingToken
    | .ok (some token) => .ok (some token)
  else .ok none

/-! ## The machine -/

inductive Phase (R : Type*) where
  | created
  /-- Awaits `execute_once`. -/
  | sending
  /-- Awaits the refresh lock. -/
  | queued (refusal : ApiError)
  /-- Holds the lock and is about to read the store. -/
  | locked (refusal : ApiError)
  /-- Holds the lock and awaits the refresher. -/
  | refreshing (refusal : ApiError)
  /-- Holds the lock and is about to read the new token. -/
  | refreshed (refusal : ApiError)
  /-- Awaits the timer of a retry. -/
  | sleeping (delay : Duration)
  | returned (result : Except ApiError R)
  | panicked

def Phase.isOver {R : Type*} : Phase R → Bool
  | .returned _ => true
  | .panicked => true
  | _ => false

inductive Entry (R : Type*) where
  | sent (request : Outgoing)
  | got (result : Except ApiError R)
  | read (stored : Except ApiError (Option Text))
  | called
  | finished (outcome : Except ApiError Unit)

inductive Event (R : Type*) where
  | started (stored : Except ApiError (Option Text))
  | replied (reply : Reply R)
  | granted
  | read (stored : Except ApiError (Option Text))
  | finished (outcome : Except ApiError Unit)
  | woke

/-- The loop's variables, the point it awaits at and the log. -/
structure Request (R : Type*) where
  bearer : Option Text
  alreadyRefreshed : Bool
  attempt : Nat
  phase : Phase R
  log : List (Entry R)

namespace Request

variable {R : Type*}

def created : Request R :=
  { bearer := none
    alreadyRefreshed := false
    attempt := 0
    phase := .created
    log := [] }

def note (request : Request R) (entry : Entry R) : Request R :=
  { request with log := request.log ++ [entry] }

def finish (request : Request R) (result : Except ApiError R) : Request R :=
  { request with phase := .returned result }

/-- A turn of the loop up to its send. -/
def send (client : ApiClient) (call : Call) (request : Request R)
    (bearer : Option Text) (attempt : Nat) : Request R :=
  { request with
    bearer
    attempt
    phase := .sending
    log := request.log ++ [.sent (client.outgoing call bearer)] }

def start (client : ApiClient) (call : Call) (request : Request R)
    (stored : Except ApiError (Option Text)) : Request R :=
  match call.credential stored with
  | .error error => request.finish (.error error)
  | .ok bearer =>
      match call.body with
      | some (.error reason) => request.finish (.error (.internal reason))
      | _ => request.send client call bearer 0

/-- What the loop does with the result of a send. -/
def settle (client : ApiClient) (call : Call) (request : Request R) :
    Except ApiError R → Request R
  | .ok value => request.finish (.ok value)
  | .error error =>
      if call.auth && !request.alreadyRefreshed && error.isUnauthorized then
        if client.refresher then
          { request with alreadyRefreshed := true, phase := .queued error }
        else { request with alreadyRefreshed := true }.finish (.error error)
      else if error.isRetryable ∧
          request.attempt < client.config.maxRetries.toNat then
        match client.backoffDelay request.attempt with
        | some delay => { request with phase := .sleeping delay }
        | none => { request with phase := .panicked }
      else request.finish (.error error)

/-- What the loop does with the result of `refresh_session`. -/
def resume (client : ApiClient) (call : Call) (request : Request R)
    (refusal : ApiError) : Except ApiError (Option Text) → Request R
  | .error error => request.finish (.error error)
  | .ok none => request.finish (.error refusal)
  | .ok (some token) => request.send client call (some token) request.attempt

/-- The token another request has stored meanwhile. -/
def replacement (used : Option Text) : Option Text → Option Text
  | none => none
  | some current =>
      match used with
      | none => none
      | some used => if current = used then none else some current

theorem replacement_eq_some_iff {used stored : Option Text}
    {current : Text} :
    replacement used stored = some current ↔
      stored = some current ∧ ∃ token, used = some token ∧ current ≠ token := by
  unfold replacement
  cases stored with
  | none => simp
  | some token =>
      cases used with
      | none => simp
      | some used =>
          by_cases hsame : token = used
          · simp [hsame, eq_comm]
          · simp only [if_neg hsame, Option.some.injEq, exists_eq_left']
            constructor
            · rintro rfl
              exact ⟨rfl, hsame⟩
            · exact And.left

/-- `refresh_session` between taking the lock and calling the refresher. -/
def compare (client : ApiClient) (call : Call) (request : Request R)
    (refusal : ApiError) : Except ApiError (Option Text) → Request R
  | .error error => request.resume client call refusal (.error error)
  | .ok stored =>
      match replacement request.bearer stored with
      | some current => request.resume client call refusal (.ok (some current))
      | none => { request.note .called with phase := .refreshing refusal }

/-- `refresh_session` once the refresher has answered. -/
def conclude (client : ApiClient) (call : Call) (request : Request R)
    (refusal : ApiError) : Except ApiError Unit → Request R
  | .ok () => { request with phase := .refreshed refusal }
  | .error error =>
      if error.isMissingOrRefused then
        request.resume client call refusal (.ok none)
      else request.resume client call refusal (.error error)

def step (client : ApiClient) (call : Call) (request : Request R)
    (event : Event R) : Option (Request R) :=
  match request.phase, event with
  | .created, .started stored => some (request.start client call stored)
  | .sending, .replied reply =>
      some ((request.note (.got (executeOnce reply))).settle client call
        (executeOnce reply))
  | .queued refusal, .granted =>
      some { request with phase := .locked refusal }
  | .locked refusal, .read stored =>
      some ((request.note (.read stored)).compare client call refusal stored)
  | .refreshing refusal, .finished outcome =>
      some ((request.note (.finished outcome)).conclude client call refusal
        outcome)
  | .refreshed refusal, .read stored =>
      some ((request.note (.read stored)).resume client call refusal stored)
  | .sleeping _, .woke =>
      some (request.send client call request.bearer (request.attempt + 1))
  | _, _ => none

/-! ## What each phase awaits -/

section

variable {client : ApiClient} {call : Call} {request next : Request R}
  {event : Event R} {refusal : ApiError} {delay : Duration}

attribute [local simp] step

theorem step_of_created (hphase : request.phase = .created)
    (hstep : request.step client call event = some next) :
    ∃ stored, event = .started stored ∧
      next = request.start client call stored := by
  cases event <;> simp [step, hphase] at hstep
  exact ⟨_, rfl, hstep.symm⟩

theorem step_of_sending (hphase : request.phase = .sending)
    (hstep : request.step client call event = some next) :
    ∃ reply, event = .replied reply ∧
      next = (request.note (.got (executeOnce reply))).settle client call
        (executeOnce reply) := by
  cases event <;> simp [step, hphase] at hstep
  exact ⟨_, rfl, hstep.symm⟩

theorem step_of_queued (hphase : request.phase = .queued refusal)
    (hstep : request.step client call event = some next) :
    event = .granted ∧ next = { request with phase := .locked refusal } := by
  cases event <;> simp [step, hphase] at hstep
  exact ⟨rfl, hstep.symm⟩

theorem step_of_locked (hphase : request.phase = .locked refusal)
    (hstep : request.step client call event = some next) :
    ∃ stored, event = .read stored ∧
      next = (request.note (.read stored)).compare client call refusal
        stored := by
  cases event <;> simp [step, hphase] at hstep
  exact ⟨_, rfl, hstep.symm⟩

theorem step_of_refreshing (hphase : request.phase = .refreshing refusal)
    (hstep : request.step client call event = some next) :
    ∃ outcome, event = .finished outcome ∧
      next = (request.note (.finished outcome)).conclude client call refusal
        outcome := by
  cases event <;> simp [step, hphase] at hstep
  exact ⟨_, rfl, hstep.symm⟩

theorem step_of_refreshed (hphase : request.phase = .refreshed refusal)
    (hstep : request.step client call event = some next) :
    ∃ stored, event = .read stored ∧
      next = (request.note (.read stored)).resume client call refusal
        stored := by
  cases event <;> simp [step, hphase] at hstep
  exact ⟨_, rfl, hstep.symm⟩

theorem step_of_sleeping (hphase : request.phase = .sleeping delay)
    (hstep : request.step client call event = some next) :
    event = .woke ∧
      next = request.send client call request.bearer
        (request.attempt + 1) := by
  cases event <;> simp [step, hphase] at hstep
  exact ⟨rfl, hstep.symm⟩

theorem step_of_isOver (hover : request.phase.isOver = true) :
    request.step client call event = none := by
  unfold step
  cases hphase : request.phase <;>
    simp_all [Phase.isOver]

end

end Request

end Dovetail.Http
