import Mathlib.Tactic

/-!
# A byte stream over XPC messages

Each message of the peer is queued by an event handler, and a reader takes its
bytes out in pieces of any size.  The handler gives up the sender of the queue
at the first event that is no message, which is how the end gets through.
-/

namespace Dovetail.Xpc

abbrev Bytes := List UInt8

inductive XpcEvent where
  /-- A dictionary, with the data under its key `f` if there is some. -/
  | dictionary (frame : Option Bytes)
  /-- Any other event: the connection is invalid or interrupted, or its peer
  does not meet the code signing requirement. -/
  | error (codeSigning : Bool)
  deriving DecidableEq

inductive Poll (Result : Type) where
  | pending
  | ready (result : Result)
  deriving DecidableEq

structure XpcConnection where
  cancelled : Bool
  /-- The event handler still has the sender. -/
  sink : Bool
  inbound : List Bytes
  pending : Bytes
  /-- The bytes that were handed out, in order. -/
  handed : Bytes
  deriving DecidableEq

namespace XpcConnection

def opened : XpcConnection where
  cancelled := false
  sink := true
  inbound := []
  pending := []
  handed := []

variable (connection : XpcConnection)

def offer (item : Option Bytes) : XpcConnection :=
  match item, connection.sink with
  | some item, true =>
      { connection with inbound := connection.inbound ++ [item] }
  | some _, false => connection
  | none, _ => { connection with sink := false }

/-- The event handler of the shim. -/
def route : XpcEvent → XpcConnection
  | .error codeSigning =>
      { connection.offer none with
        cancelled := connection.cancelled || codeSigning }
  | .dictionary none => connection
  | .dictionary (some bytes) =>
      if bytes.isEmpty then connection else connection.offer (some bytes)

/-- A receiver that does not proceed has used up its turn, or has met a
message that is just being put there. -/
def pollRecv (proceeds : Bool) : Poll (Option Bytes) × XpcConnection :=
  match proceeds, connection.inbound with
  | false, _ => (.pending, connection)
  | true, bytes :: rest =>
      (.ready (some bytes), { connection with inbound := rest })
  | true, [] =>
      if connection.sink then (.pending, connection)
      else (.ready none, connection)

/-- The bytes that fit leave the buffer. -/
def fill (remaining : Nat) : Poll Bytes × XpcConnection :=
  let taken := min connection.pending.length remaining
  (.ready (connection.pending.take taken),
    { connection with
      pending := connection.pending.drop taken
      handed := connection.handed ++ connection.pending.take taken })

/-- A read into a buffer with so many bytes left. -/
def pollRead (remaining : Nat) (proceeds : Bool) :
    Poll Bytes × XpcConnection :=
  if connection.pending.isEmpty then
    match connection.pollRecv proceeds with
    | (.pending, connection) => (.pending, connection)
    | (.ready none, connection) => (.ready [], connection)
    | (.ready (some bytes), connection) =>
        { connection with pending := bytes }.fill remaining
  else connection.fill remaining

/-- One poll of `recv`, which hands out a message or what is left of one. -/
def recv (proceeds : Bool) : Poll (Option Bytes) × XpcConnection :=
  if connection.pending.isEmpty then
    match connection.pollRecv proceeds with
    | (.pending, connection) => (.pending, connection)
    | (.ready none, connection) => (.ready none, connection)
    | (.ready (some bytes), connection) =>
        (.ready (some bytes),
          { connection with handed := connection.handed ++ bytes })
  else
    (.ready (some connection.pending),
      { connection with
        pending := []
        handed := connection.handed ++ connection.pending })

end XpcConnection

/-- What happens to a connection. -/
inductive StreamEvent where
  | arrives (event : XpcEvent)
  | reads (remaining : Nat) (proceeds : Bool)
  | receives (proceeds : Bool)
  deriving DecidableEq

namespace XpcConnection

def step (connection : XpcConnection) : StreamEvent → XpcConnection
  | .arrives event => connection.route event
  | .reads remaining proceeds => (connection.pollRead remaining proceeds).2
  | .receives proceeds => (connection.recv proceeds).2

def after (events : List StreamEvent) : XpcConnection :=
  events.foldl step opened

end XpcConnection

/-! ## What the peer sends -/

def StreamEvent.closes : StreamEvent → Bool
  | .arrives (.error _) => true
  | .arrives (.dictionary _) | .reads _ _ | .receives _ => false

def StreamEvent.message : StreamEvent → Bytes
  | .arrives (.dictionary frame) => frame.getD []
  | .arrives (.error _) | .reads _ _ | .receives _ => []

/-- The peer has closed. -/
def Closed (events : List StreamEvent) : Prop :=
  ∃ event ∈ events, event.closes = true

/-- The bytes of the messages up to where the peer closes, in order. -/
def sent : List StreamEvent → Bytes
  | [] => []
  | event :: events =>
      if event.closes then [] else event.message ++ sent events

theorem sent_concat_of_closed {events : List StreamEvent}
    (hclosed : Closed events) (event : StreamEvent) :
    sent (events ++ [event]) = sent events := by
  induction events with
  | nil =>
      rcases hclosed with ⟨found, hmem, _⟩
      cases hmem
  | cons first events ih =>
      rw [List.cons_append, sent, sent]
      by_cases hfirst : first.closes = true
      · rw [if_pos hfirst, if_pos hfirst]
      · rw [if_neg hfirst, if_neg hfirst]
        rcases hclosed with ⟨found, hmem, hfound⟩
        rcases List.mem_cons.mp hmem with rfl | hmem
        · exact absurd hfound hfirst
        · rw [ih ⟨found, hmem, hfound⟩]

theorem sent_concat_of_not_closed {events : List StreamEvent}
    (hopen : ¬ Closed events) (event : StreamEvent) :
    sent (events ++ [event]) =
      sent events ++ if event.closes then [] else event.message := by
  induction events with
  | nil => simp [sent]
  | cons first events ih =>
      have hfirst : ¬ first.closes = true := fun hcloses =>
        hopen ⟨first, List.mem_cons_self, hcloses⟩
      have hrest : ¬ Closed events := fun ⟨found, hmem, hfound⟩ =>
        hopen ⟨found, List.mem_cons_of_mem first hmem, hfound⟩
      rw [List.cons_append, sent, sent, if_neg hfirst, if_neg hfirst, ih hrest,
        List.append_assoc]

theorem closed_concat {events : List StreamEvent} {event : StreamEvent} :
    Closed (events ++ [event]) ↔ Closed events ∨ event.closes = true := by
  simp [Closed, or_and_right, exists_or]

/-! ## What a step keeps -/

namespace XpcConnection

/-- What was handed out and what is still to be. -/
def stream (connection : XpcConnection) : Bytes :=
  connection.handed ++ (connection.pending ++ connection.inbound.flatten)

/-- Reading only moves bytes along. -/
structure Reads (connection next : XpcConnection) : Prop where
  stream : next.stream = connection.stream
  sink : next.sink = connection.sink
  inbound : ∀ message ∈ next.inbound, message ∈ connection.inbound

variable {connection next : XpcConnection}

theorem Reads.refl (connection : XpcConnection) :
    Reads connection connection :=
  ⟨rfl, rfl, fun _ hmem => hmem⟩

theorem fill_reads (remaining : Nat) :
    Reads connection (connection.fill remaining).2 := by
  constructor
  case stream =>
    unfold XpcConnection.stream fill
    dsimp only
    rw [List.append_assoc, ← List.append_assoc (List.take _ _),
      List.take_append_drop]
  case sink => rfl
  case inbound => exact fun _ hmem => hmem

/-- What the receiver comes to. -/
theorem pollRecv_cases (connection : XpcConnection) (proceeds : Bool) :
    ((proceeds = true → connection.inbound = [] ∧ connection.sink = true) ∧
        connection.pollRecv proceeds = (.pending, connection)) ∨
      (connection.inbound = [] ∧ connection.sink = false ∧
        connection.pollRecv proceeds = (.ready none, connection)) ∨
      ∃ bytes rest, connection.inbound = bytes :: rest ∧
        connection.pollRecv proceeds =
          (.ready (some bytes), { connection with inbound := rest }) := by
  cases proceeds with
  | false => exact .inl ⟨Bool.noConfusion, rfl⟩
  | true =>
      cases hinbound : connection.inbound with
      | nil =>
          cases hsink : connection.sink with
          | true => simp [pollRecv, hinbound, hsink]
          | false => simp [pollRecv, hinbound, hsink]
      | cons bytes rest => simp [pollRecv, hinbound]

/-- What a read comes to, as no message is empty: it waits, it is at the end,
or it is filled from a buffer that holds something. -/
theorem pollRead_cases {connection : XpcConnection}
    (hfull : ∀ message ∈ connection.inbound, message ≠ [])
    (remaining : Nat) (proceeds : Bool) :
    ((proceeds = true → connection.pending = [] ∧ connection.inbound = [] ∧
        connection.sink = true) ∧
        connection.pollRead remaining proceeds = (.pending, connection)) ∨
      (connection.pending = [] ∧ connection.inbound = [] ∧
        connection.sink = false ∧
        connection.pollRead remaining proceeds = (.ready [], connection)) ∨
      ∃ filled : XpcConnection, filled.pending ≠ [] ∧
        filled.handed = connection.handed ∧
        connection.pollRead remaining proceeds = filled.fill remaining := by
  unfold pollRead
  by_cases hempty : connection.pending.isEmpty = true
  · rw [if_pos hempty]
    have hpending := List.isEmpty_iff.mp hempty
    rcases pollRecv_cases connection proceeds with
      ⟨hwaits, heq⟩ | ⟨hinbound, hsink, heq⟩ | ⟨bytes, rest, hinbound, heq⟩
    · rw [heq]
      exact .inl ⟨fun hproceeds => ⟨hpending, hwaits hproceeds⟩, rfl⟩
    · rw [heq]
      exact .inr (.inl ⟨hpending, hinbound, hsink, rfl⟩)
    · rw [heq]
      have hbytes : bytes ≠ [] := by
        apply hfull
        rw [hinbound]
        exact List.mem_cons_self
      exact .inr (.inr
        ⟨{ connection with inbound := rest, pending := bytes }, hbytes, rfl,
          rfl⟩)
  · rw [if_neg hempty]
    have hpending : connection.pending ≠ [] := fun hnil =>
      hempty (List.isEmpty_iff.mpr hnil)
    exact .inr (.inr ⟨connection, hpending, rfl, rfl⟩)

theorem pollRead_reads (remaining : Nat) (proceeds : Bool) :
    Reads connection (connection.pollRead remaining proceeds).2 := by
  unfold pollRead
  split
  · next hempty =>
      rcases pollRecv_cases connection proceeds with
        ⟨_, hpending⟩ | ⟨_, _, hnone⟩ | ⟨bytes, rest, hinbound, hsome⟩
      · rw [hpending]
        exact Reads.refl connection
      · rw [hnone]
        exact Reads.refl connection
      · rw [hsome]
        have hfilled := @fill_reads
          { connection with inbound := rest, pending := bytes } remaining
        constructor
        case stream =>
          rw [hfilled.stream]
          unfold XpcConnection.stream
          dsimp only
          rw [hinbound, List.isEmpty_iff.mp hempty]
          rfl
        case sink => exact hfilled.sink
        case inbound =>
          intro message hmem
          rw [hinbound]
          exact List.mem_cons_of_mem bytes (hfilled.inbound message hmem)
  · exact fill_reads remaining

theorem recv_reads (proceeds : Bool) :
    Reads connection (connection.recv proceeds).2 := by
  unfold recv
  split
  · next hempty =>
      rcases pollRecv_cases connection proceeds with
        ⟨_, hpending⟩ | ⟨_, _, hnone⟩ | ⟨bytes, rest, hinbound, hsome⟩
      · rw [hpending]
        exact Reads.refl connection
      · rw [hnone]
        exact Reads.refl connection
      · rw [hsome]
        constructor
        case stream =>
          unfold XpcConnection.stream
          dsimp only
          rw [hinbound, List.isEmpty_iff.mp hempty, List.append_assoc]
          rfl
        case sink => rfl
        case inbound =>
          intro message hmem
          rw [hinbound]
          exact List.mem_cons_of_mem bytes hmem
  · constructor
    case stream =>
      unfold XpcConnection.stream
      dsimp only
      rw [List.append_assoc]
      rfl
    case sink => rfl
    case inbound => exact fun _ hmem => hmem

end XpcConnection

/-! ## What a run keeps -/

/-- The bytes of the messages are handed out or still there, in order. -/
structure Carries (connection : XpcConnection) (events : List StreamEvent) :
    Prop where
  stream : connection.stream = sent events
  full : ∀ message ∈ connection.inbound, message ≠ []
  closed : connection.sink = false ↔ Closed events

theorem carries_opened : Carries .opened [] := by
  constructor
  case stream => rfl
  case full =>
    intro message hmem
    cases hmem
  case closed => simp [XpcConnection.opened, Closed]

section

variable {connection next : XpcConnection} {events : List StreamEvent}

/-- A step that is no arrival keeps what is carried. -/
theorem Carries.reads (hcarries : Carries connection events)
    (hreads : XpcConnection.Reads connection next) {event : StreamEvent}
    (hmessage : event.message = []) (hcloses : event.closes = false) :
    Carries next (events ++ [event]) := by
  constructor
  case stream =>
    rw [hreads.stream, hcarries.stream]
    by_cases hclosed : Closed events
    · rw [sent_concat_of_closed hclosed]
    · rw [sent_concat_of_not_closed hclosed, hmessage, ite_self,
        List.append_nil]
  case full =>
    intro message hmem
    exact hcarries.full message (hreads.inbound message hmem)
  case closed =>
    rw [hreads.sink, hcarries.closed, closed_concat, hcloses]
    simp

theorem Carries.error (hcarries : Carries connection events)
    (codeSigning : Bool) :
    Carries (connection.route (.error codeSigning))
      (events ++ [.arrives (.error codeSigning)]) := by
  constructor
  case stream =>
    have hsame : (connection.route (.error codeSigning)).stream =
        connection.stream := rfl
    rw [hsame, hcarries.stream]
    by_cases hclosed : Closed events
    · rw [sent_concat_of_closed hclosed]
    · rw [sent_concat_of_not_closed hclosed]
      exact (List.append_nil _).symm
  case full => exact hcarries.full
  case closed =>
    rw [closed_concat]
    exact iff_of_true rfl (.inr rfl)

theorem Carries.offer (hcarries : Carries connection events) {bytes : Bytes}
    (hbytes : bytes ≠ []) :
    Carries (connection.offer (some bytes))
      (events ++ [.arrives (.dictionary (some bytes))]) := by
  have hclosed : Closed (events ++ [.arrives (.dictionary (some bytes))]) ↔
      Closed events := by
    rw [closed_concat]
    simp [StreamEvent.closes]
  cases hsink : connection.sink with
  | false =>
      have hgone := hcarries.closed.mp hsink
      have hsame : connection.offer (some bytes) = connection := by
        simp [XpcConnection.offer, hsink]
      rw [hsame]
      constructor
      case stream => rw [hcarries.stream, sent_concat_of_closed hgone]
      case full => exact hcarries.full
      case closed => rw [hclosed, hcarries.closed]
  | true =>
      have hopen : ¬ Closed events := by
        rw [← hcarries.closed, hsink]
        exact Bool.noConfusion
      have hoffer : connection.offer (some bytes) =
          { connection with inbound := connection.inbound ++ [bytes] } := by
        simp [XpcConnection.offer, hsink]
      rw [hoffer]
      constructor
      case stream =>
        rw [sent_concat_of_not_closed hopen, ← hcarries.stream]
        simp [XpcConnection.stream, StreamEvent.closes, StreamEvent.message]
      case full =>
        intro message hmem
        rcases List.mem_append.mp hmem with hold | hnew
        · exact hcarries.full message hold
        · rw [List.mem_singleton.mp hnew]
          exact hbytes
      case closed => rw [hclosed, ← hcarries.closed]

theorem Carries.handed_eq (hcarries : Carries connection events)
    (hpending : connection.pending = []) (hinbound : connection.inbound = []) :
    connection.handed = sent events := by
  rw [← hcarries.stream, XpcConnection.stream, hpending, hinbound]
  exact (List.append_nil _).symm

theorem Carries.step (hcarries : Carries connection events)
    (event : StreamEvent) :
    Carries (connection.step event) (events ++ [event]) := by
  cases event with
  | arrives event =>
      cases event with
      | error codeSigning => exact hcarries.error codeSigning
      | dictionary frame =>
          cases frame with
          | none => exact hcarries.reads (.refl connection) rfl rfl
          | some bytes =>
              cases bytes with
              | nil => exact hcarries.reads (.refl connection) rfl rfl
              | cons byte bytes =>
                  exact hcarries.offer (List.cons_ne_nil byte bytes)
  | reads remaining proceeds =>
      exact hcarries.reads (XpcConnection.pollRead_reads remaining proceeds)
        rfl rfl
  | receives proceeds =>
      exact hcarries.reads (XpcConnection.recv_reads proceeds) rfl rfl

end

theorem after_concat (events : List StreamEvent) (event : StreamEvent) :
    XpcConnection.after (events ++ [event]) =
      (XpcConnection.after events).step event := by
  unfold XpcConnection.after
  rw [List.foldl_concat]

theorem carries_after (events : List StreamEvent) :
    Carries (XpcConnection.after events) events := by
  induction events using List.reverseRecOn with
  | nil => exact carries_opened
  | append_singleton events event ih =>
      rw [after_concat]
      exact ih.step event

/-! ## The stream -/

/-- A read hands out the next bytes of what the peer sent, no more of them than
fit; it hands out none into a buffer with space only at the end, and some
whenever there are some and the receiver proceeds. -/
structure Faithful (events : List StreamEvent) : Prop where
  kept : (XpcConnection.after events).handed ++
      ((XpcConnection.after events).pending ++
        (XpcConnection.after events).inbound.flatten) = sent events
  hands : ∀ remaining proceeds bytes,
    ((XpcConnection.after events).pollRead remaining proceeds).1 =
        .ready bytes →
      bytes.length ≤ remaining ∧
        (XpcConnection.after (events ++ [.reads remaining proceeds])).handed =
          (XpcConnection.after events).handed ++ bytes
  waits : ∀ remaining proceeds,
    ((XpcConnection.after events).pollRead remaining proceeds).1 = .pending →
      XpcConnection.after (events ++ [.reads remaining proceeds]) =
        XpcConnection.after events
  endsLast : ∀ remaining proceeds, 0 < remaining →
    ((XpcConnection.after events).pollRead remaining proceeds).1 =
        .ready [] →
      Closed events ∧ (XpcConnection.after events).handed = sent events
  goesOn : ∀ remaining, 0 < remaining →
    (XpcConnection.after events).handed ≠ sent events →
      ∃ bytes, bytes ≠ [] ∧
        ((XpcConnection.after events).pollRead remaining true).1 =
          .ready bytes

theorem take_min_ne_nil {bytes : Bytes} (hbytes : bytes ≠ []) {remaining : Nat}
    (hremaining : 0 < remaining) :
    bytes.take (min bytes.length remaining) ≠ [] := by
  have hlength := List.length_pos_of_ne_nil hbytes
  rw [Ne, List.take_eq_nil_iff, not_or]
  constructor
  · omega
  · exact hbytes

theorem faithful_after (events : List StreamEvent) : Faithful events := by
  have hcarries := carries_after events
  have hcases := XpcConnection.pollRead_cases hcarries.full
  constructor
  case kept => exact hcarries.stream
  case hands =>
    intro remaining proceeds bytes hready
    rw [after_concat]
    unfold XpcConnection.step
    dsimp only
    rcases hcases remaining proceeds with
      ⟨_, heq⟩ | ⟨_, _, _, heq⟩ | ⟨filled, _, hhanded, heq⟩
    · rw [heq] at hready
      cases hready
    · rw [heq] at hready ⊢
      cases hready
      exact ⟨Nat.zero_le remaining, (List.append_nil _).symm⟩
    · rw [heq] at hready ⊢
      cases hready
      constructor
      · rw [List.length_take]
        omega
      · rw [← hhanded]
        rfl
  case waits =>
    intro remaining proceeds hpending
    rw [after_concat]
    unfold XpcConnection.step
    dsimp only
    rcases hcases remaining proceeds with
      ⟨_, heq⟩ | ⟨_, _, _, heq⟩ | ⟨filled, _, _, heq⟩
    · rw [heq]
    · rw [heq]
    · rw [heq] at hpending
      cases hpending
  case endsLast =>
    intro remaining proceeds hremaining hready
    rcases hcases remaining proceeds with
      ⟨_, heq⟩ | ⟨hpending, hinbound, hsink, _⟩ | ⟨filled, hfilled, _, heq⟩
    · rw [heq] at hready
      cases hready
    · constructor
      · exact hcarries.closed.mp hsink
      · exact hcarries.handed_eq hpending hinbound
    · rw [heq] at hready
      exact absurd (Poll.ready.inj hready) (take_min_ne_nil hfilled hremaining)
  case goesOn =>
    intro remaining hremaining hmore
    rcases hcases remaining true with
      ⟨hwaits, _⟩ | ⟨hpending, hinbound, _, _⟩ | ⟨filled, hfilled, _, heq⟩
    · rcases hwaits rfl with ⟨hpending, hinbound, _⟩
      exact absurd (hcarries.handed_eq hpending hinbound) hmore
    · exact absurd (hcarries.handed_eq hpending hinbound) hmore
    · rw [heq]
      exact ⟨_, take_min_ne_nil hfilled hremaining, rfl⟩

end Dovetail.Xpc
