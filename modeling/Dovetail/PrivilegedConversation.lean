import Dovetail.PrivilegedConnection

/-!
# Conversations with the daemon

What a session that passed the handshake is meant to be: the accepted
greeting, then whole exchanges, each a request, the dispatch of its command
when the app allows it, and one response that carries the request's id.  The
facts below hold of every conversation, whatever machine produces it.
-/

namespace Dovetail.PrivilegedChannel

open TransitionRun

variable {Req Resp : Type*}

/-! ## Reading a transcript -/

def greeted (hello : Hello) : Entry Req Resp :=
  .received (.ready (.ok (some (.hello hello))))

def asked (request : Request Req) : Entry Req Resp :=
  .received (.ready (.ok (some (.request request))))

def answered (response : Response Resp) : Entry Req Resp :=
  .wrote (.response response)

def Entry.request? : Entry Req Resp → Option (Request Req)
  | .received (.ready (.ok (some (.request request)))) => some request
  | _ => none

def Entry.dispatched? : Entry Req Resp → Option Req
  | .dispatch cmd => some cmd
  | _ => none

def Entry.response? : Entry Req Resp → Option (Response Resp)
  | .wrote (.response response) => some response
  | _ => none

/-- The requests read after the handshake. -/
def requests (transcript : List (Entry Req Resp)) : List (Request Req) :=
  (transcript.drop 2).filterMap Entry.request?

def dispatches (transcript : List (Entry Req Resp)) : List Req :=
  transcript.filterMap Entry.dispatched?

def responses (transcript : List (Entry Req Resp)) : List (Response Resp) :=
  transcript.filterMap Entry.response?

/-- The app lets the command through. -/
def allows (app : DaemonApp Req) (request : Request Req) : Bool :=
  (app.validate request.cmd).isOk

/-- The entries of a request that has no response yet. -/
def underWay (app : DaemonApp Req) (request : Request Req) :
    List (Entry Req Resp) :=
  if allows app request then [asked request, .dispatch request.cmd]
  else [asked request]

/-! ## Conversations -/

inductive Conversation (app : DaemonApp Req) :
    List (Entry Req Resp) → Prop where
  | opened {hello : Hello} {serverHello : ServerHello} :
      hello.protoMajor = PROTOCOL_MAJOR → serverHello.accepted = true →
        Conversation app [greeted hello, .wrote (.serverHello serverHello)]
  | exchange {transcript : List (Entry Req Resp)} {request : Request Req}
      {response : Response Resp} :
      Conversation app transcript → response.id = request.id →
        Conversation app
          (transcript ++ underWay app request ++ [answered response])

/-- A `Hello` with the daemon's major was answered by an accepted
`ServerHello`. -/
def Opened (transcript : List (Entry Req Resp)) : Prop :=
  ∃ hello serverHello rest,
    transcript = greeted hello :: .wrote (.serverHello serverHello) :: rest ∧
      hello.protoMajor = PROTOCOL_MAJOR ∧ serverHello.accepted = true

/-- Every dispatched command comes right after its request and right before
the response to it. -/
def Settled (transcript : List (Entry Req Resp)) : Prop :=
  ∀ before cmd after, transcript = before ++ .dispatch cmd :: after →
    ∃ earlier request response rest, before = earlier ++ [asked request] ∧
      after = answered response :: rest ∧ response.id = request.id

/-- After the handshake nothing but requests has been received. -/
def OnlyRequests (transcript : List (Entry Req Resp)) : Prop :=
  ∀ next, .received next ∈ transcript.drop 2 →
    ∃ request, next = .ready (.ok (some (.request request)))

/-- What may come next on a transcript: anything while only requests have
been received, and a dispatch only of the request just read. -/
structure Admissible (app : DaemonApp Req) (before : List (Entry Req Resp))
    (entry : Entry Req Resp) : Prop where
  requests : OnlyRequests before
  dispatch : ∀ cmd, entry = .dispatch cmd → Opened before ∧ Settled before ∧
    ∃ earlier request, before = earlier ++ [asked request] ∧
      request.cmd = cmd ∧ app.validate cmd = .ok ()

/-- The allowed requests are dispatched, in their order. -/
def InOrder (app : DaemonApp Req) (transcript : List (Entry Req Resp)) :
    Prop :=
  dispatches transcript =
    ((requests transcript).filter (allows app)).map Request.cmd

/-- Whenever a command is dispatched every command before it has been
answered. -/
structure Orderly (app : DaemonApp Req) (transcript : List (Entry Req Resp)) :
    Prop where
  admissible : Preceded (Admissible app) transcript
  inOrder : InOrder app transcript

variable {app : DaemonApp Req} {transcript : List (Entry Req Resp)}

theorem Opened.append (hopened : Opened transcript)
    (entries : List (Entry Req Resp)) : Opened (transcript ++ entries) := by
  obtain ⟨hello, serverHello, rest, rfl, hmajor, haccepted⟩ := hopened
  exact ⟨hello, serverHello, rest ++ entries, by simp, hmajor, haccepted⟩

theorem Opened.drop_append (hopened : Opened transcript)
    (entries : List (Entry Req Resp)) :
    (transcript ++ entries).drop 2 = transcript.drop 2 ++ entries := by
  obtain ⟨hello, serverHello, rest, rfl, -⟩ := hopened
  rfl

theorem OnlyRequests.concat (honly : OnlyRequests transcript)
    (hopened : Opened transcript) {entry : Entry Req Resp}
    (hentry : ∀ next, entry = .received next →
      ∃ request, next = .ready (.ok (some (.request request)))) :
    OnlyRequests (transcript ++ [entry]) := by
  intro next hmem
  rw [hopened.drop_append, List.mem_append, List.mem_singleton] at hmem
  rcases hmem with hold | hnew
  · exact honly next hold
  · exact hentry next hnew.symm

theorem OnlyRequests.concat_asked (honly : OnlyRequests transcript)
    (hopened : Opened transcript) (request : Request Req) :
    OnlyRequests (transcript ++ [asked request]) := by
  refine honly.concat hopened fun next hnext => ⟨request, ?_⟩
  simpa [asked, eq_comm] using hnext

theorem Settled.concat (hsettled : Settled transcript)
    {entry : Entry Req Resp} (hentry : ∀ cmd, entry ≠ .dispatch cmd) :
    Settled (transcript ++ [entry]) := by
  intro before cmd after hsplit
  rcases snoc_eq_append_cons.mp hsplit with
    ⟨-, -, hdispatch⟩ | ⟨rest, rfl, hold⟩
  · exact absurd hdispatch.symm (hentry cmd)
  · obtain ⟨earlier, request, response, others, hbefore, hafter, hid⟩ :=
      hsettled before cmd rest hold
    exact ⟨earlier, request, response, others ++ [entry], hbefore,
      by simp [hafter], hid⟩

/-- The response settles the command dispatched last. -/
theorem Settled.answer {request : Request Req} {response : Response Resp}
    (hsettled : Settled transcript) (hid : response.id = request.id) :
    Settled (transcript ++ [asked request, .dispatch request.cmd,
      answered response]) := by
  intro before cmd after hsplit
  have hconcat : (transcript ++ [asked request, .dispatch request.cmd]) ++
      [answered response] = before ++ .dispatch cmd :: after := by
    simpa using hsplit
  rcases snoc_eq_append_cons.mp hconcat with
    ⟨-, -, hdispatch⟩ | ⟨rest, rfl, hold⟩
  · simp [answered] at hdispatch
  · have hconcat : (transcript ++ [asked request]) ++
        [.dispatch request.cmd] = before ++ .dispatch cmd :: rest := by
      simpa using hold
    rcases snoc_eq_append_cons.mp hconcat with
      ⟨rfl, rfl, -⟩ | ⟨others, rfl, hearlier⟩
    · exact ⟨transcript, request, response, [], rfl, rfl, hid⟩
    · have hbefore : Settled (transcript ++ [asked request]) :=
        hsettled.concat fun cmd => by simp [asked]
      obtain ⟨earlier, first, reply, trailing, hfirst, hreply, hids⟩ :=
        hbefore before cmd others hearlier
      exact ⟨earlier, first, reply,
        trailing ++ [.dispatch request.cmd, answered response],
        hfirst, by simp [hreply], hids⟩

/-! ## Between exchanges -/

/-- A transcript to which a request may come next. -/
structure Idle (app : DaemonApp Req) (transcript : List (Entry Req Resp)) :
    Prop where
  opened : Opened transcript
  settled : Settled transcript
  requests : OnlyRequests transcript
  orderly : Orderly app transcript

theorem InOrder.append_underWay (hinOrder : InOrder app transcript)
    (hopened : Opened transcript) (request : Request Req) :
    InOrder app (transcript ++ underWay app request) := by
  unfold InOrder dispatches PrivilegedChannel.requests at *
  rw [hopened.drop_append]
  unfold underWay
  split <;> rename_i hallowed <;>
    simp [hinOrder, hallowed, asked, Entry.dispatched?, Entry.request?,
      List.filterMap_cons]

theorem allows_eq_true_iff {request : Request Req} :
    allows app request = true ↔ app.validate request.cmd = .ok () := by
  unfold allows
  cases app.validate request.cmd <;> simp [Except.isOk, Except.toBool]

theorem Idle.received (hidle : Idle app transcript)
    (next : Timed (Received Req Resp)) :
    Preceded (Admissible app) (transcript ++ [.received next]) := by
  refine preceded_concat.mpr ⟨hidle.orderly.admissible, hidle.requests, ?_⟩
  intro cmd hcmd
  simp at hcmd

theorem Idle.append_underWay (hidle : Idle app transcript) (request : Request Req) :
    Orderly app (transcript ++ underWay app request) := by
  refine ⟨?_, hidle.orderly.inOrder.append_underWay hidle.opened request⟩
  have hasked := hidle.received (.ready (.ok (some (.request request))))
  unfold underWay
  by_cases hallowed : allows app request = true
  · rw [if_pos hallowed]
    have hconcat : transcript ++ [asked request, .dispatch request.cmd] =
        (transcript ++ [asked request]) ++ [.dispatch request.cmd] := by simp
    rw [hconcat, preceded_concat]
    refine ⟨hasked, hidle.requests.concat_asked hidle.opened request, ?_⟩
    intro cmd hcmd
    obtain rfl : request.cmd = cmd := by simpa using hcmd
    exact ⟨hidle.opened.append _,
      hidle.settled.concat fun cmd => by simp [asked],
      transcript, request, rfl, rfl, allows_eq_true_iff.mp hallowed⟩
  · rw [if_neg hallowed]
    exact hasked

theorem OnlyRequests.append_underWay (honly : OnlyRequests transcript)
    (hopened : Opened transcript) (request : Request Req) :
    OnlyRequests (transcript ++ underWay app request) := by
  have hasked := honly.concat_asked hopened request
  unfold underWay
  split
  · have hconcat : transcript ++ [asked request, .dispatch request.cmd] =
        (transcript ++ [asked request]) ++ [.dispatch request.cmd] := by simp
    rw [hconcat]
    exact hasked.concat (hopened.append _) fun next hnext => by simp at hnext
  · exact hasked

theorem Idle.onlyRequests_underWay (hidle : Idle app transcript)
    (request : Request Req) :
    OnlyRequests (transcript ++ underWay app request) :=
  hidle.requests.append_underWay hidle.opened request

theorem Idle.exchange (hidle : Idle app transcript)
    {request : Request Req} {response : Response Resp}
    (hid : response.id = request.id) :
    Idle app (transcript ++ underWay app request ++ [answered response]) := by
  have hpending := hidle.append_underWay request
  have hopened := hidle.opened.append (underWay app request)
  have hrequests := hidle.onlyRequests_underWay request
  refine ⟨hopened.append _, ?_, ?_, ?_, ?_⟩
  · unfold underWay
    split
    · simpa using hidle.settled.answer hid
    · exact (hidle.settled.concat fun cmd => by simp [asked]).concat
        fun cmd => by simp [answered]
  · exact hrequests.concat hopened fun next hnext => by
      simp [answered] at hnext
  · refine preceded_concat.mpr ⟨hpending.admissible, hrequests, ?_⟩
    intro cmd hcmd
    simp [answered] at hcmd
  · have horder := hpending.inOrder
    unfold InOrder dispatches PrivilegedChannel.requests at *
    rw [hopened.drop_append]
    simpa [answered, Entry.dispatched?, Entry.request?,
      List.filterMap_cons] using horder

/-- A transcript of the handshake alone is idle once it is accepted. -/
theorem idle_opened {hello : Hello} {serverHello : ServerHello}
    (hmajor : hello.protoMajor = PROTOCOL_MAJOR)
    (haccepted : serverHello.accepted = true) :
    Idle app ([greeted hello, .wrote (.serverHello serverHello)] :
      List (Entry Req Resp)) := by
  have hshort : OnlyRequests ([greeted hello] : List (Entry Req Resp)) := by
    simp [OnlyRequests]
  refine ⟨⟨hello, serverHello, [], rfl, hmajor, haccepted⟩, ?_, ?_, ?_, ?_⟩
  · intro before cmd after hsplit
    have hmem : Entry.dispatch cmd ∈ before ++ .dispatch cmd :: after := by
      simp
    rw [← hsplit] at hmem
    simp [greeted] at hmem
  · simp [OnlyRequests]
  · have hconcat : ([greeted hello, .wrote (.serverHello serverHello)] :
        List (Entry Req Resp)) =
        ([] ++ [greeted hello]) ++ [.wrote (.serverHello serverHello)] := rfl
    rw [hconcat, preceded_concat, preceded_concat]
    refine ⟨⟨preceded_nil, by simp [OnlyRequests], ?_⟩, hshort, ?_⟩
    · intro cmd hcmd
      simp [greeted] at hcmd
    · intro cmd hcmd
      simp at hcmd
  · rfl

theorem Conversation.idle (hconversation : Conversation app transcript) :
    Idle app transcript := by
  induction hconversation with
  | opened hmajor haccepted => exact idle_opened hmajor haccepted
  | exchange _ hid ih => exact ih.exchange hid

end Dovetail.PrivilegedChannel
