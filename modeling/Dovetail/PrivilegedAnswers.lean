import Dovetail.PrivilegedSession

/-!
# One response to each request

The `k`-th response carries the id of the `k`-th request, and a frame is read
only when every request before it has been answered.  The code keeps this
exactly as long as every response it means to write serialises within
`MAX_FRAME_BYTES`: `send_frame` refuses a longer one after the command ran,
and the session ends without an answer.
-/

namespace Dovetail.PrivilegedChannel

open TransitionRun

variable {Req Resp : Type*}

/-- The id of a request that waits for its response. -/
def waiting : Phase Req Resp → List UInt64
  | .dispatching request => [request.id]
  | .answering response => [response.id]
  | _ => []

/-- The responses so far answer the requests so far, but for one that is
still under way. -/
def Corresponds (session : Session Req Resp) : Prop :=
  (requests session.transcript).map Request.id =
    (responses session.transcript).map Response.id ++ waiting session.phase

/-- The response about to be written can be. -/
def ResponseFits (json : SerdeJson Req Resp) (session : Session Req Resp)
    (_event : Event Resp) : Prop :=
  ∀ response, session.phase = .answering response →
    Fits json (.response response)

/-- The transport takes every write. -/
def Healthy (events : List (Event Resp)) : Prop :=
  ∀ delivery, .delivered delivery ∈ events → delivery = .ok ()

section

variable {app : DaemonApp Req} {transcript : List (Entry Req Resp)}

theorem requests_append (hopened : Opened transcript)
    (entries : List (Entry Req Resp)) :
    requests (transcript ++ entries) =
      requests transcript ++ entries.filterMap Entry.request? := by
  simp [requests, hopened.drop_append]

theorem responses_append (entries : List (Entry Req Resp)) :
    responses (transcript ++ entries) =
      responses transcript ++ entries.filterMap Entry.response? := by
  simp [responses]

@[simp] theorem filterMap_request?_underWay (request : Request Req) :
    (underWay app request : List (Entry Req Resp)).filterMap
      Entry.request? = [request] := by
  unfold underWay
  split <;> rfl

@[simp] theorem filterMap_response?_underWay (request : Request Req) :
    (underWay app request : List (Entry Req Resp)).filterMap
      Entry.response? = [] := by
  unfold underWay
  split <;> rfl

theorem Conversation.ids_eq (hconversation : Conversation app transcript) :
    (requests transcript).map Request.id =
      (responses transcript).map Response.id := by
  induction hconversation with
  | opened _ _ => rfl
  | @exchange transcript request response hearlier hid ih =>
      have hopened := hearlier.idle.opened
      rw [List.append_assoc, requests_append hopened, responses_append]
      simp [ih, hid, answered, Entry.request?, Entry.response?,
        List.filterMap_cons]

/-- A request under way adds its own id to those asked. -/
theorem Conversation.ids_underWay (hconversation : Conversation app transcript)
    (request : Request Req) :
    (requests (transcript ++ underWay app request)).map Request.id =
      (responses (transcript ++ underWay app request)).map Response.id ++
        [request.id] := by
  rw [requests_append hconversation.idle.opened, responses_append]
  simp [hconversation.ids_eq]

theorem Conversation.ids_ended (hconversation : Conversation app transcript)
    {next : Timed (Received Req Resp)}
    (hother : ∀ request, next ≠ .ready (.ok (some (.request request)))) :
    (requests (transcript ++ [.received next])).map Request.id =
      (responses (transcript ++ [.received next])).map Response.id := by
  have hnone := request?_eq_none hother
  rw [requests_append hconversation.idle.opened, responses_append]
  simp [hconversation.ids_eq, hnone, Entry.response?, List.filterMap_cons]

end

/-- A session that is still open, or ended where a frame was to be read,
corresponds. -/
theorem Reaches.corresponds {app : DaemonApp Req}
    {session : Session Req Resp}
    (hreaches : Reaches app session.phase session.transcript)
    (hphase : ∀ failure, session.phase ≠ .closed (.error failure)) :
    Corresponds session := by
  obtain ⟨phase, transcript⟩ := session
  unfold Corresponds
  dsimp only at hreaches hphase ⊢
  cases hreaches with
  | awaitingHello => rfl
  | refusing => rfl
  | greeting => rfl
  | awaitingFrame hconversation => simpa [waiting] using hconversation.ids_eq
  | dispatching hconversation => exact hconversation.ids_underWay _
  | answering hconversation hid =>
      rw [waiting, hid]
      exact hconversation.ids_underWay _
  | unopened hgreeting =>
      rcases hgreeting with rfl | ⟨serverHello, rfl⟩ <;> rfl
  | ended hconversation hother =>
      simpa [waiting] using hconversation.ids_ended hother
  | unanswered hconversation => exact absurd rfl (hphase _)

namespace Connection

variable {connection : Connection Req Resp} {session next : Session Req Resp}
  {event : Event Resp}

theorem shake_ne_closed (first : Timed (Received Req Resp))
    (result : Except Failure Unit) : shake first ≠ .closed result := by
  unfold shake
  split <;> simp

theorem serve_ne_error (app : DaemonApp Req)
    (arrived : Timed (Received Req Resp)) (failure : Failure) :
    (serve app arrived).1 ≠ .closed (.error failure) := by
  unfold serve
  split <;> try simp
  split <;> simp

/-- Sending the first answer of a session leaves no request waiting. -/
theorem corresponds_sent_first (first : Timed (Received Req Resp))
    {phase after : Phase Req Resp} {serverHello : ServerHello}
    (hafter : waiting after = []) (outcome : Except Failure Unit) :
    Corresponds (sent ⟨phase, [.received first]⟩ (.serverHello serverHello)
      outcome after) := by
  cases outcome with
  | error failure => rfl
  | ok _ =>
      unfold Corresponds
      rw [sent, hafter]
      rfl

/-- An answer to a request in a conversation corresponds when it is sent and
only then. -/
theorem corresponds_sent_answer {app : DaemonApp Req}
    {transcript : List (Entry Req Resp)}
    (hconversation : Conversation app transcript) {request : Request Req}
    {response : Response Resp} (hid : response.id = request.id)
    (phase : Phase Req Resp) (outcome : Except Failure Unit) :
    Corresponds (sent ⟨phase, transcript ++ underWay app request⟩
      (.response response) outcome .awaitingFrame) ↔ outcome = .ok () := by
  cases outcome with
  | error failure =>
      have hasked := hconversation.ids_underWay request
      simp [Corresponds, sent, hasked, waiting]
  | ok _ =>
      have hanswered := (hconversation.exchange hid).ids_eq
      simpa [Corresponds, sent, waiting, answered] using hanswered

/-- One step on a healthy transport. -/
theorem corresponds_step
    (hreaches : Reaches connection.app session.phase session.transcript)
    (hhealthy : ∀ delivery, event = .delivered delivery → delivery = .ok ())
    (hstep : connection.step session event = some next) :
    Corresponds next ↔ ResponseFits connection.json session event := by
  have hnext := reaches_step hreaches hstep
  obtain ⟨phase, transcript⟩ := session
  unfold ResponseFits
  dsimp only at hreaches ⊢
  cases hreaches with
  | awaitingHello =>
      cases event <;> simp only [Connection.step, reduceCtorEq,
        Option.some.injEq] at hstep
      subst hstep
      simpa using hnext.corresponds fun _ => shake_ne_closed _ _
  | refusing =>
      cases event <;> simp only [Connection.step, reduceCtorEq,
        Option.some.injEq] at hstep
      subst hstep
      simp only [sent, reduceCtorEq, false_implies, implies_true, iff_true]
      split <;> rfl
  | @greeting hello =>
      cases event <;> simp only [Connection.step, reduceCtorEq,
        Option.some.injEq] at hstep
      subst hstep
      have hwaiting : waiting (if accepts connection.config hello = true
          then (.awaitingFrame : Phase Req Resp) else .closed (.ok ())) = [] := by
        split <;> rfl
      simp only [reduceCtorEq, false_implies, implies_true, iff_true]
      exact corresponds_sent_first _ hwaiting _
  | awaitingFrame hconversation =>
      cases event <;> simp only [Connection.step, reduceCtorEq,
        Option.some.injEq] at hstep
      subst hstep
      simpa using hnext.corresponds fun _ => serve_ne_error _ _ _
  | dispatching hconversation =>
      cases event <;> simp only [Connection.step, reduceCtorEq,
        Option.some.injEq] at hstep
      subst hstep
      simpa using hnext.corresponds fun _ => by simp
  | answering hconversation hid =>
      cases event <;> simp only [Connection.step, reduceCtorEq,
        Option.some.injEq] at hstep
      subst hstep
      rw [corresponds_sent_answer hconversation hid, sendFrame_eq_ok_iff,
        hhealthy _ rfl]
      simp
  | unopened _ => simp [Connection.step] at hstep
  | ended _ _ => simp [Connection.step] at hstep
  | unanswered _ => simp [Connection.step] at hstep

theorem closed_step (failure : Failure)
    {transcript : List (Entry Req Resp)} :
    connection.step ⟨.closed (.error failure), transcript⟩ event = none := by
  cases event <;> rfl

end Connection

/-- On a healthy transport the responses answer the requests one by one
exactly when every response that is to be written fits in a frame. -/
theorem corresponds_iff_responses_fit (connection : Connection Req Resp)
    {events : List (Event Resp)} {session : Session Req Resp}
    (hhealthy : Healthy events)
    (hrun : run connection.step Connection.start events = some session) :
    Corresponds session ↔
      EveryStep connection.step Connection.start
        (ResponseFits connection.json) events := by
  induction events using List.reverseRecOn generalizing session with
  | nil =>
      obtain rfl : Connection.start = session := by simpa using hrun
      simpa using (Connection.run_reaches hrun).corresponds
        fun failure => by simp [Connection.start]
  | append_singleton events event ih =>
      obtain ⟨previous, hprevious, hstep⟩ := run_concat.mp hrun
      have hearlier : Healthy events := fun delivery hmem =>
        hhealthy delivery (List.mem_append_left _ hmem)
      have hreaches := Connection.run_reaches hprevious
      -- A session that can still step has answered everything so far.
      have hopen : Corresponds previous := hreaches.corresponds <| by
        rintro failure hclosed
        obtain ⟨phase, transcript⟩ := previous
        obtain rfl : phase = .closed (.error failure) := hclosed
        simp [Connection.closed_step] at hstep
      rw [everyStep_concat hprevious, ← ih hearlier hprevious,
        Connection.corresponds_step hreaches
          (fun delivery hdelivered => hhealthy delivery (by
            simp [← hdelivered])) hstep]
      simp [hopen]

namespace Sample

/-- The transport takes the reply. -/
def answeredEvents (letters : Nat) : List (Event Nat) :=
  events letters ++ [.delivered (.ok ())]

theorem healthy_answeredEvents (letters : Nat) :
    Healthy (answeredEvents letters) := by
  intro delivery hmem
  simpa [answeredEvents, events] using hmem

theorem run_short :
    run connection.step Connection.start (answeredEvents 3) =
      some ⟨.awaitingFrame, opening ++ [answered ⟨1, .ok 3⟩]⟩ := by
  have hsend : sendFrame json (.ok ()) (.response ⟨1, .ok 3⟩) = .ok () :=
    sendFrame_eq_ok_iff.mpr ⟨⟨responseText 3, rfl, by
      rw [length_responseText]
      decide⟩, rfl⟩
  refine run_concat.mpr ⟨_, run_answering 3, ?_⟩
  simp [Connection.step, connection, Connection.sent, hsend, answered]

theorem run_of_not_fits {letters : Nat}
    (hlong : MAX_FRAME_BYTES < letters + 31) :
    run connection.step Connection.start (answeredEvents letters) =
      some ⟨.closed (.error (.send
        ⟨letters + 31, MAX_FRAME_BYTES⟩)), opening⟩ := by
  have hsend : sendFrame json (.ok ()) (.response ⟨1, .ok letters⟩) =
      .error (.send ⟨letters + 31, MAX_FRAME_BYTES⟩) := by
    simp [sendFrame, json, length_responseText, hlong]
  refine run_concat.mpr ⟨_, run_answering letters, ?_⟩
  simp [Connection.step, connection, Connection.sent, hsend]

/-- A reply of as many letters as a frame has bytes does not fit in one. -/
theorem run_long :
    run connection.step Connection.start (answeredEvents MAX_FRAME_BYTES) =
      some ⟨.closed (.error (.send
        ⟨MAX_FRAME_BYTES + 31, MAX_FRAME_BYTES⟩)), opening⟩ :=
  run_of_not_fits (Nat.lt_add_of_pos_right (by decide))

end Sample

theorem corresponds_fails_for_a_long_reply :
    ¬ ∀ (connection : Connection Unit Nat) (events : List (Event Nat))
        (session : Session Unit Nat), Healthy events →
      run connection.step Connection.start events = some session →
        Corresponds session := by
  intro hall
  have hlong := hall Sample.connection _ _
    (Sample.healthy_answeredEvents MAX_FRAME_BYTES) Sample.run_long
  have hids : ([1] : List UInt64) = [] := hlong
  simp at hids

theorem corresponds_iff_responses_fit_sample :
    Corresponds
        ⟨.awaitingFrame, Sample.opening ++ [answered ⟨1, .ok 3⟩]⟩ ↔
      EveryStep Sample.connection.step Connection.start
        (ResponseFits Sample.connection.json) (Sample.answeredEvents 3) :=
  corresponds_iff_responses_fit Sample.connection
    (Sample.healthy_answeredEvents 3) Sample.run_short

end Dovetail.PrivilegedChannel
