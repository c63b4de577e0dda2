import Dovetail.PrivilegedConversation

/-!
# Every session is a conversation

The transcript of `handle_conn` is the handshake alone or a conversation with
at most one more request, under way or ending the session.  Safety of the
dispatch is then read off the conversation.
-/

namespace Dovetail.PrivilegedChannel

open TransitionRun

variable {Req Resp : Type*}

/-- The transcripts a phase can be reached with. -/
inductive Reaches (app : DaemonApp Req) :
    Phase Req Resp → List (Entry Req Resp) → Prop where
  | awaitingHello : Reaches app .awaitingHello []
  | refusing {next : Timed (Received Req Resp)} {failure : Failure}
      {reject : ErrorBody} :
      Reaches app (.refusing failure reject) [.received next]
  | greeting {hello : Hello} : Reaches app (.greeting hello) [greeted hello]
  | awaitingFrame {transcript : List (Entry Req Resp)} :
      Conversation app transcript → Reaches app .awaitingFrame transcript
  | dispatching {transcript : List (Entry Req Resp)}
      {request : Request Req} :
      Conversation app transcript →
        Reaches app (.dispatching request)
          (transcript ++ underWay app request)
  | answering {transcript : List (Entry Req Resp)} {request : Request Req}
      {response : Response Resp} :
      Conversation app transcript → response.id = request.id →
        Reaches app (.answering response)
          (transcript ++ underWay app request)
  | unopened {next : Timed (Received Req Resp)}
      {greeting : List (Entry Req Resp)} {result : Except Failure Unit} :
      (greeting = [] ∨
        ∃ serverHello, greeting = [.wrote (.serverHello serverHello)]) →
        Reaches app (.closed result) (.received next :: greeting)
  | ended {transcript : List (Entry Req Resp)}
      {next : Timed (Received Req Resp)} :
      Conversation app transcript →
        (∀ request, next ≠ .ready (.ok (some (.request request)))) →
        Reaches app (.closed (.ok ())) (transcript ++ [.received next])
  | unanswered {transcript : List (Entry Req Resp)} {request : Request Req}
      {failure : Failure} :
      Conversation app transcript →
        Reaches app (.closed (.error failure))
          (transcript ++ underWay app request)

/-! ## Steps -/

namespace Connection

variable {connection : Connection Req Resp} {session next : Session Req Resp}
  {event : Event Resp}

theorem reaches_shake {app : DaemonApp Req}
    (first : Timed (Received Req Resp)) :
    Reaches app (shake first) [.received first] := by
  unfold shake
  cases hhello : readHello first with
  | error refused => exact .refusing
  | ok hello =>
      obtain rfl := readHello_eq_ok_iff.mp hhello
      exact .greeting

theorem reaches_serve {app : DaemonApp Req}
    {transcript : List (Entry Req Resp)}
    (hconversation : Conversation app transcript)
    (arrived : Timed (Received Req Resp)) :
    Reaches app (serve app arrived).1
      (transcript ++ .received arrived :: (serve app arrived).2) := by
  unfold serve
  split
  · exact .ended hconversation (by simp)
  · exact .ended hconversation (by simp)
  · exact .ended hconversation (by simp)
  · next request =>
      cases hvalidate : app.validate request.cmd with
      | error message =>
          have hrefused : underWay app request =
              [(asked request : Entry Req Resp)] := by
            simp [underWay, allows, hvalidate, Except.isOk, Except.toBool]
          have hanswering :
              Reaches app
                (.answering ⟨request.id,
                  .erro ErrorCode.invalidParams message false⟩)
                (transcript ++ underWay app request) :=
            .answering hconversation rfl
          rw [hrefused] at hanswering
          exact hanswering
      | ok _ =>
          have hallowed : underWay app request =
              [(asked request : Entry Req Resp), .dispatch request.cmd] := by
            simp [underWay, allows, hvalidate, Except.isOk, Except.toBool]
          have hdispatching :
              Reaches app (.dispatching request)
                (transcript ++ underWay app request) :=
            .dispatching hconversation
          rw [hallowed] at hdispatching
          exact hdispatching
  · next other hother =>
      exact .ended hconversation fun request hrequest => by
        simp only [Timed.ready.injEq, Except.ok.injEq, Option.some.injEq]
          at hrequest
        exact hother request hrequest

theorem reaches_step
    (hreaches : Reaches connection.app session.phase session.transcript)
    (hstep : connection.step session event = some next) :
    Reaches connection.app next.phase next.transcript := by
  obtain ⟨phase, transcript⟩ := session
  dsimp only at hreaches
  cases hreaches with
  | awaitingHello =>
      cases event <;> simp only [Connection.step, reduceCtorEq,
        Option.some.injEq] at hstep
      subst hstep
      exact reaches_shake _
  | refusing =>
      cases event <;> simp only [Connection.step, reduceCtorEq,
        Option.some.injEq] at hstep
      subst hstep
      simp only [sent]
      split
      · exact .unopened (Or.inl rfl)
      · exact .unopened (Or.inr ⟨_, rfl⟩)
  | @greeting hello =>
      cases event <;> simp only [Connection.step, reduceCtorEq,
        Option.some.injEq] at hstep
      subst hstep
      simp only [sent]
      split
      · exact .unopened (Or.inl rfl)
      · by_cases haccepts : accepts connection.config hello = true
        · rw [if_pos haccepts]
          exact .awaitingFrame (.opened (beq_iff_eq.mp haccepts) haccepts)
        · rw [if_neg haccepts]
          exact .unopened (Or.inr ⟨_, rfl⟩)
  | awaitingFrame hconversation =>
      cases event <;> simp only [Connection.step, reduceCtorEq,
        Option.some.injEq] at hstep
      subst hstep
      exact reaches_serve hconversation _
  | dispatching hconversation =>
      cases event <;> simp only [Connection.step, reduceCtorEq,
        Option.some.injEq] at hstep
      subst hstep
      exact .answering hconversation rfl
  | answering hconversation hid =>
      cases event <;> simp only [Connection.step, reduceCtorEq,
        Option.some.injEq] at hstep
      subst hstep
      simp only [sent]
      split
      · exact .unanswered hconversation
      · exact .awaitingFrame (.exchange hconversation hid)
  | unopened _ => simp [Connection.step] at hstep
  | ended _ _ => simp [Connection.step] at hstep
  | unanswered _ => simp [Connection.step] at hstep

theorem run_reaches {events : List (Event Resp)}
    (hrun : run connection.step start events = some session) :
    Reaches connection.app session.phase session.transcript :=
  run_invariant
    (P := fun session : Session Req Resp =>
      Reaches connection.app session.phase session.transcript)
    Reaches.awaitingHello (fun _ _ _ => reaches_step) hrun

end Connection

/-! ## Safety of the dispatch -/

/-- What `handle_conn` owes the app about the commands it dispatches. -/
structure SessionSafe (app : DaemonApp Req) (session : Session Req Resp) :
    Prop where
  /-- Nothing is dispatched before an accepted handshake. -/
  authenticated : ∀ before cmd after,
    session.transcript = before ++ .dispatch cmd :: after → Opened before
  /-- A dispatched command is the one of the request just read, and valid. -/
  carried : ∀ before cmd after,
    session.transcript = before ++ .dispatch cmd :: after →
      ∃ earlier request, before = earlier ++ [asked request] ∧
        request.cmd = cmd ∧ app.validate cmd = .ok ()
  /-- The valid requests are dispatched in their order, each once. -/
  inOrder : InOrder app session.transcript
  /-- Every command dispatched earlier has been answered by then. -/
  answered : ∀ before cmd after,
    session.transcript = before ++ .dispatch cmd :: after → Settled before
  /-- Anything but a request ends the session. -/
  ended : ∀ before next after,
    session.transcript = before ++ .received next :: after →
      2 ≤ before.length →
      (∀ request, next ≠ .ready (.ok (some (.request request)))) →
        after = [] ∧ session.phase = .closed (.ok ())

section

variable {app : DaemonApp Req} {session : Session Req Resp}

/-- Entries that follow each other on an orderly transcript. -/
theorem Orderly.follow {transcript : List (Entry Req Resp)}
    (horderly : Orderly app transcript)
    {before after : List (Entry Req Resp)}
    {next : Timed (Received Req Resp)}
    (hsplit : transcript = before ++ .received next :: after)
    (hlength : 2 ≤ before.length)
    (hother : ∀ request, next ≠ .ready (.ok (some (.request request)))) :
    after = [] := by
  cases after with
  | nil => rfl
  | cons entry rest =>
      have hadmissible := horderly.admissible (before ++ [.received next])
        entry rest (by simp [hsplit])
      obtain ⟨request, hrequest⟩ := hadmissible.requests next (by
        rw [List.drop_append_of_le_length hlength]
        simp)
      exact absurd hrequest (hother request)

theorem orderly_unopened {next : Timed (Received Req Resp)}
    {greeting : List (Entry Req Resp)}
    (hgreeting : greeting = [] ∨
      ∃ serverHello, greeting = [.wrote (.serverHello serverHello)]) :
    Orderly app (.received next :: greeting) := by
  have hfirst : Preceded (Admissible app)
      ([] ++ [(.received next : Entry Req Resp)]) :=
    preceded_concat.mpr ⟨preceded_nil, by simp [OnlyRequests], by simp⟩
  rcases hgreeting with rfl | ⟨serverHello, rfl⟩
  · exact ⟨hfirst, rfl⟩
  · exact ⟨preceded_concat.mpr ⟨hfirst, by simp [OnlyRequests], by simp⟩,
      rfl⟩

theorem request?_eq_none {next : Timed (Received Req Resp)}
    (hother : ∀ request, next ≠ .ready (.ok (some (.request request)))) :
    (Entry.received next : Entry Req Resp).request? = none := by
  unfold Entry.request?
  split
  · next request heq => exact absurd (by simpa using heq) (hother request)
  · rfl

theorem Idle.ended {transcript : List (Entry Req Resp)}
    (hidle : Idle app transcript) {next : Timed (Received Req Resp)}
    (hother : ∀ request, next ≠ .ready (.ok (some (.request request)))) :
    Orderly app (transcript ++ [.received next]) := by
  refine ⟨hidle.received next, ?_⟩
  have hnone := request?_eq_none hother
  have horder := hidle.orderly.inOrder
  unfold InOrder dispatches PrivilegedChannel.requests at *
  rw [hidle.opened.drop_append]
  simpa [List.filterMap_cons, hnone, Entry.dispatched?] using horder

theorem Reaches.orderly {phase : Phase Req Resp}
    {transcript : List (Entry Req Resp)}
    (hreaches : Reaches app phase transcript) : Orderly app transcript := by
  cases hreaches with
  | awaitingHello => exact ⟨preceded_nil, rfl⟩
  | refusing => exact orderly_unopened (Or.inl rfl)
  | greeting => exact orderly_unopened (Or.inl rfl)
  | awaitingFrame hconversation => exact hconversation.idle.orderly
  | dispatching hconversation =>
      exact hconversation.idle.append_underWay _
  | answering hconversation _ => exact hconversation.idle.append_underWay _
  | unopened hgreeting => exact orderly_unopened hgreeting
  | ended hconversation hother => exact hconversation.idle.ended hother
  | unanswered hconversation => exact hconversation.idle.append_underWay _

/-- While the session is not over, or when an answer could not be sent, only
requests have been read after the handshake. -/
theorem Reaches.onlyRequests_or_ended {phase : Phase Req Resp}
    {transcript : List (Entry Req Resp)}
    (hreaches : Reaches app phase transcript) :
    OnlyRequests transcript ∨ phase = .closed (.ok ()) := by
  cases hreaches with
  | awaitingHello => exact Or.inl (by simp [OnlyRequests])
  | refusing => exact Or.inl (by simp [OnlyRequests])
  | greeting => exact Or.inl (by simp [OnlyRequests])
  | awaitingFrame hconversation =>
      exact Or.inl hconversation.idle.requests
  | dispatching hconversation =>
      exact Or.inl (hconversation.idle.onlyRequests_underWay _)
  | answering hconversation _ =>
      exact Or.inl (hconversation.idle.onlyRequests_underWay _)
  | unopened hgreeting =>
      rcases hgreeting with rfl | ⟨serverHello, rfl⟩ <;>
        exact Or.inl (by simp [OnlyRequests])
  | ended _ _ => exact Or.inr rfl
  | unanswered hconversation =>
      exact Or.inl (hconversation.idle.onlyRequests_underWay _)

theorem Reaches.sessionSafe
    (hreaches : Reaches app session.phase session.transcript) :
    SessionSafe app session := by
  have horderly := hreaches.orderly
  constructor
  · intro before cmd after hsplit
    exact ((horderly.admissible _ _ _ hsplit).dispatch cmd rfl).1
  · intro before cmd after hsplit
    exact ((horderly.admissible _ _ _ hsplit).dispatch cmd rfl).2.2
  · exact horderly.inOrder
  · intro before cmd after hsplit
    exact ((horderly.admissible _ _ _ hsplit).dispatch cmd rfl).2.1
  · intro before next after hsplit hlength hother
    refine ⟨horderly.follow hsplit hlength hother, ?_⟩
    rcases hreaches.onlyRequests_or_ended with honly | hended
    · obtain ⟨request, hrequest⟩ := honly next (by
        rw [hsplit, List.drop_append_of_le_length hlength]
        simp)
      exact absurd hrequest (hother request)
    · exact hended

end

/-! ## A sample session

The reply of the sample app is a text of so many letters. -/

namespace Sample

def text (source : String) : Bytes :=
  source.toUTF8.data.toList

def helloText : Bytes := text
  "\x7b\"t\":\"hello\",\"proto_major\":1,\"proto_minor\":1,\"client_version\":\"1.0.0\",\"nonce\":[0,0,0,0,0,0,0,0,0,0,0,0,0,0,0,0]\x7d"

def serverHelloText : Bytes := text
  "\x7b\"t\":\"server_hello\",\"accepted\":true,\"proto_major\":1,\"proto_minor\":1,\"helper_version\":\"1.0.0\",\"nonce\":[0,0,0,0,0,0,0,0,0,0,0,0,0,0,0,0],\"peer_check\":\x7b\"method\":\"peercred\",\"subject\":\"uid=0\"\x7d,\"reject\":null\x7d"

def requestText : Bytes := text
  "\x7b\"t\":\"request\",\"id\":1,\"cmd\":null\x7d"

def hello : Hello := ⟨1, 1, "1.0.0", Vector.replicate 16 0⟩

def responseText (letters : Nat) : Bytes :=
  text "\x7b\"t\":\"response\",\"id\":1,\"ok\":\"" ++
    List.replicate letters 120 ++ text "\"\x7d"

def json : SerdeJson Unit Nat where
  toVec
    | .serverHello _ => .ok serverHelloText
    | .response ⟨_, .ok letters⟩ => .ok (responseText letters)
    | _ => .error "not part of the sample"
  fromSlice bytes :=
    if bytes = helloText then .ok (.hello hello)
    else if bytes = requestText then .ok (.request ⟨1, ()⟩)
    else .error "not part of the sample"

def connection : Connection Unit Nat where
  json := json
  app := ⟨"1.0.0", fun _ => .ok ()⟩
  peer := ⟨"peercred", "uid=0"⟩
  nonce := Vector.replicate 16 0

/-- A greeting and one request, whose reply is ready. -/
def events (letters : Nat) : List (Event Nat) :=
  [.received (.ready (some (.ok helloText))), .delivered (.ok ()),
    .received (.ready (some (.ok requestText))),
    .dispatched (.ready (.ok letters))]

def opening : List (Entry Unit Nat) :=
  [greeted hello,
    .wrote (.serverHello
      (verdict connection.config connection.nonce hello)),
    asked ⟨1, ()⟩, .dispatch ()]

theorem fromSlice_helloText :
    json.fromSlice helloText = .ok (.hello hello) := by
  simp [json]

theorem fromSlice_requestText :
    json.fromSlice requestText = .ok (.request ⟨1, ()⟩) := by
  have hother : requestText ≠ helloText := by decide
  simp [json, hother]

theorem length_responseText (letters : Nat) :
    (responseText letters).length = letters + 31 := by
  have hopening :
      (text "\x7b\"t\":\"response\",\"id\":1,\"ok\":\"").length = 29 := by
    decide
  have hclosing : (text "\"\x7d").length = 2 := by decide
  simp only [responseText, List.length_append, hopening, hclosing,
    List.length_replicate]
  omega

theorem run_answering (letters : Nat) :
    run connection.step Connection.start (events letters) =
      some ⟨.answering ⟨1, .ok letters⟩, opening⟩ := by
  have hhello : recvFrame json (some (.ok helloText)) =
      .ok (some (.hello hello)) := by
    simp [recvFrame, fromSlice_helloText]
  have hrequest : recvFrame json (some (.ok requestText)) =
      .ok (some (.request ⟨1, ()⟩)) := by
    simp [recvFrame, fromSlice_requestText]
  have hsent : ∀ serverHello : ServerHello,
      sendFrame json (.ok ()) (.serverHello serverHello) = .ok () := fun _ =>
    sendFrame_eq_ok_iff.mpr ⟨⟨serverHelloText, rfl, by decide +kernel⟩, rfl⟩
  have haccepts : accepts connection.config hello = true := rfl
  have hshake : connection.step Connection.start
      (.received (.ready (some (.ok helloText)))) =
        some ⟨.greeting hello, [greeted hello]⟩ := by
    simp [Connection.step, Connection.start, connection, Timed.map, hhello,
      Connection.shake, readHello, greeted]
  have hgreet : connection.step ⟨.greeting hello, [greeted hello]⟩
      (.delivered (.ok ())) = some ⟨.awaitingFrame, opening.take 2⟩ := by
    simp [Connection.step, connection, hsent, Connection.sent, opening]
    rfl
  have hserve : connection.step ⟨.awaitingFrame, opening.take 2⟩
      (.received (.ready (some (.ok requestText)))) =
        some ⟨.dispatching ⟨1, ()⟩, opening⟩ := by
    simp [Connection.step, connection, Timed.map, hrequest, Connection.serve,
      opening, asked]
  simp only [run, events, List.foldlM_cons, List.foldlM_nil, hshake, hgreet, hserve,
    Option.bind_eq_bind, Option.bind_some]
  rfl

end Sample

/-- Whatever arrives, in any order and any number, the session is safe. -/
theorem handleConn_sessionSafe (connection : Connection Req Resp)
    {events : List (Event Resp)} {session : Session Req Resp}
    (hrun : run connection.step Connection.start events = some session) :
    SessionSafe connection.app session :=
  (Connection.run_reaches hrun).sessionSafe

theorem handleConn_sessionSafe_sample :
    SessionSafe Sample.connection.app
      ⟨.answering ⟨1, .ok 3⟩, Sample.opening⟩ :=
  handleConn_sessionSafe Sample.connection (Sample.run_answering 3)

end Dovetail.PrivilegedChannel
