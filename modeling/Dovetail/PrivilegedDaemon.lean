import Dovetail.PrivilegedAcceptLoop
import Dovetail.PrivilegedSession
import Dovetail.SpawnedMachines

/-!
# The privileged daemon of Linux

The listener lets in whom the declared policy admits by the credentials the
kernel gives of a peer, and the loop spawns a session for each.  Sessions run
among each other and outlive the loop.  Nobody the policy does not name comes
to a session, and no session is moved by what another one hears.
-/

namespace Dovetail.PrivilegedChannel

open TransitionRun SpawnedMachines

/-! ## Who may speak -/

structure PeerPolicy where
  uids : List UInt32
  gids : List UInt32
  code : Option String

namespace PeerPolicy

def default : PeerPolicy where
  uids := []
  gids := []
  code := none

def allowUid (policy : PeerPolicy) (uid : UInt32) : PeerPolicy :=
  { policy with uids := policy.uids ++ [uid] }

def allowGid (policy : PeerPolicy) (gid : UInt32) : PeerPolicy :=
  { policy with gids := policy.gids ++ [gid] }

def admits (policy : PeerPolicy) (uid gid : UInt32) : Bool :=
  policy.uids.contains uid || policy.gids.contains gid

end PeerPolicy

structure PeerCred where
  pid : Int32
  uid : UInt32
  gid : UInt32

def PeerCred.subject (peer : PeerCred) : String :=
  "pid=" ++ toString peer.pid.toInt ++ " uid=" ++ toString peer.uid.toNat ++
    " gid=" ++ toString peer.gid.toNat

def PeerCred.check (peer : PeerCred) : PeerCheck :=
  { method := "peercred+policy"
    subject := peer.subject }

def judge (policy : Option PeerPolicy) (peer : PeerCred) :
    Except String PeerCheck :=
  match policy with
  | none =>
      .error ("politica de peer ausente, " ++ peer.subject ++
        " recusado: no Linux o canal recusa todo peer ate o produto declarar quem pode falar com Endpoint::with_peer_policy(PeerPolicy::default().allow_uid(..))")
  | some policy =>
      if policy.admits peer.uid peer.gid then .ok peer.check
      else .error (peer.subject ++ " fora da politica de peer")

/-! ## The daemon -/

/-- What the socket gives: an error of its own, or a stream with what the
kernel says of its peer, what the generator of the system will give for the
session, and the instant that is read where the peer is refused. -/
inductive Incoming where
  | io (error : String)
  | stream (credentials : Except String PeerCred)
      (nonce : Except String Nonce) (now : Nat)

/-- `LinuxListener::accept`: a peer whose credentials cannot be read is
refused like one the policy does not name. -/
def LinuxListener.accept (policy : Option PeerPolicy) :
    Incoming → AcceptOutcome (Except String Nonce)
  | .io error => .io error
  | .stream credentials nonce now =>
      match credentials.bind (judge policy) with
      | .error reason => .peerRefused reason now
      | .ok peer => .accepted nonce peer

/-- What the product gives to `run`. -/
structure DaemonProgram (Req Resp : Type*) where
  json : SerdeJson Req Resp
  app : DaemonApp Req
  policy : Option PeerPolicy

structure Daemon (Req Resp : Type*) where
  accepting : Bool
  loop : AcceptLoop (Except String Nonce)
  sessions : List (Connection Req Resp × Session Req Resp)

inductive DaemonEvent (Resp : Type*) where
  | comes (incoming : Incoming)
  | shutsDown
  | session (index : Nat) (event : Event Resp)

variable {Req Resp : Type*}

def Daemon.start : Daemon Req Resp where
  accepting := true
  loop := .start
  sessions := []

def sessionFamily :
    Family (Connection Req Resp) (Session Req Resp) (Event Resp) where
  start _ := Connection.start
  act := Connection.step

namespace DaemonProgram

variable (program : DaemonProgram Req Resp)

/-- `handle_conn` ends at once where the generator of the system fails. -/
def connectionOf : Except String Nonce × PeerCheck →
    Option (Connection Req Resp)
  | (.error _, _) => none
  | (.ok nonce, peer) =>
      some { json := program.json
             app := program.app
             peer
             nonce }

def outcomeOf (incoming : Incoming) : AcceptOutcome (Except String Nonce) :=
  LinuxListener.accept program.policy incoming

def served? (incoming : Incoming) : Option (Connection Req Resp) :=
  (program.outcomeOf incoming).accepted?.bind program.connectionOf

def step (daemon : Daemon Req Resp) :
    DaemonEvent Resp → Option (Daemon Req Resp)
  | .comes incoming =>
      if daemon.accepting then
        some { daemon with
          loop := daemon.loop.turn (program.outcomeOf incoming)
          sessions := daemon.sessions ++
            (program.served? incoming).toList.map
              fun connection => (connection, Connection.start) }
      else none
  | .shutsDown =>
      if daemon.accepting then
        some { daemon with
          accepting := false
          loop := { daemon.loop with effects := daemon.loop.flush } }
      else none
  | .session index event =>
      (sessionFamily.move daemon.sessions index event).map
        fun sessions => { daemon with sessions }

/-! ## What a run consists of -/

def turn? : DaemonEvent Resp → Option (Turn (Connection Req Resp) (Event Resp))
  | .comes incoming => (program.served? incoming).map .spawns
  | .shutsDown => none
  | .session index event => some (.moves index event)

end DaemonProgram

def DaemonEvent.incoming? : DaemonEvent Resp → Option Incoming
  | .comes incoming => some incoming
  | _ => none

def DaemonEvent.own? (index : Nat) : DaemonEvent Resp → Option (Event Resp)
  | .session other event => if other = index then some event else none
  | _ => none

/-- Whom the daemon was asked to let in. -/
def incomings (events : List (DaemonEvent Resp)) : List Incoming :=
  events.filterMap DaemonEvent.incoming?

/-- What a session heard. -/
def heardBy (index : Nat) (events : List (DaemonEvent Resp)) :
    List (Event Resp) :=
  events.filterMap (DaemonEvent.own? index)

/-- What the session of a stream is to run under, where the declared policy
names its peer. -/
def entitled (policy : Option PeerPolicy) :
    Incoming → Option (PeerCheck × Nonce)
  | .stream (.ok peer) (.ok nonce) _ =>
      if policy.any fun declared => declared.admits peer.uid peer.gid then
        some (peer.check, nonce)
      else none
  | _ => none

/-- A stream that is turned away: its credentials could not be read, or the
policy does not name its peer. -/
def turnedAway (policy : Option PeerPolicy) : Incoming → Bool
  | .io _ => false
  | .stream (.error _) _ _ => true
  | .stream (.ok peer) _ _ =>
      !policy.any fun declared => declared.admits peer.uid peer.gid

section

variable {program : DaemonProgram Req Resp} {daemon later : Daemon Req Resp}
  {events : List (DaemonEvent Resp)}

theorem judge_eq (policy : Option PeerPolicy) (peer : PeerCred) :
    (judge policy peer).toOption =
      if policy.any fun declared => declared.admits peer.uid peer.gid then
        some peer.check
      else none := by
  cases policy with
  | none => rfl
  | some declared =>
      cases hadmits : declared.admits peer.uid peer.gid with
      | true => simp [judge, hadmits, Except.toOption]
      | false => simp [judge, hadmits, Except.toOption]

theorem map_served? (incoming : Incoming) :
    (program.served? incoming).map
        (fun connection => (connection.peer, connection.nonce)) =
      entitled program.policy incoming := by
  cases incoming with
  | io error => rfl
  | stream credentials nonce now =>
      cases credentials with
      | error reason => rfl
      | ok peer =>
          have hjudge := judge_eq program.policy peer
          cases hjudged : judge program.policy peer with
          | error reason =>
              rw [hjudged] at hjudge
              cases nonce <;>
                simp_all [DaemonProgram.served?, DaemonProgram.outcomeOf,
                  LinuxListener.accept, entitled, Except.bind,
                  Except.toOption, AcceptOutcome.accepted?]
          | ok check =>
              rw [hjudged] at hjudge
              cases nonce <;>
                simp_all [DaemonProgram.served?, DaemonProgram.outcomeOf,
                  LinuxListener.accept, entitled, Except.bind,
                  Except.toOption, AcceptOutcome.accepted?,
                  DaemonProgram.connectionOf]

theorem isRefused_outcomeOf (incoming : Incoming) :
    (program.outcomeOf incoming).isRefused =
      turnedAway program.policy incoming := by
  cases incoming with
  | io error => rfl
  | stream credentials nonce now =>
      cases credentials with
      | error reason => rfl
      | ok peer =>
          have hjudge := judge_eq program.policy peer
          cases hjudged : judge program.policy peer <;>
            rw [hjudged] at hjudge <;>
            simp_all [DaemonProgram.outcomeOf, LinuxListener.accept,
              turnedAway, Except.bind, Except.toOption,
              AcceptOutcome.isRefused]

/-! ## The invariant -/

/-- The sessions are those of the streams let in, each moved by its own
events, and the loop has seen every stream. -/
structure Serves (program : DaemonProgram Req Resp)
    (events : List (DaemonEvent Resp)) (daemon : Daemon Req Resp) : Prop where
  sessions : sessionFamily.Separate (events.filterMap program.turn?)
    daemon.sessions
  going : daemon.accepting = true → daemon.loop =
    AcceptLoop.turns ((incomings events).map program.outcomeOf)
  ended : daemon.accepting = false → daemon.loop.effects =
    AcceptLoop.acceptLoop ((incomings events).map program.outcomeOf)

theorem incomings_concat (event : DaemonEvent Resp) :
    incomings (events ++ [event]) =
      incomings events ++ event.incoming?.toList := by
  unfold incomings
  rw [List.filterMap_append]
  cases hincoming : event.incoming? <;> simp [hincoming]

theorem turns_concat (event : DaemonEvent Resp) :
    (events ++ [event]).filterMap program.turn? =
      events.filterMap program.turn? ++ (program.turn? event).toList := by
  rw [List.filterMap_append]
  cases hturn : program.turn? event <;> simp [hturn]

/-- A stream that leads to no session leads to no turn. -/
theorem turn?_comes (incoming : Incoming) :
    (program.turn? (.comes incoming : DaemonEvent Resp)).toList =
      (program.served? incoming).toList.map .spawns := by
  cases hserved : program.served? incoming <;>
    simp [DaemonProgram.turn?, hserved]

theorem serves_start : Serves program [] (.start : Daemon Req Resp) := by
  constructor
  case sessions =>
    exact Family.separate_nil
  case going =>
    intro _
    rfl
  case ended =>
    intro hended
    cases hended

theorem Serves.comes (hserves : Serves program events daemon)
    (haccepting : daemon.accepting = true) (incoming : Incoming) :
    Serves program (events ++ [.comes incoming])
      { daemon with
        loop := daemon.loop.turn (program.outcomeOf incoming)
        sessions := daemon.sessions ++
          (program.served? incoming).toList.map
            fun connection => (connection, Connection.start) } := by
  constructor
  case sessions =>
    rw [turns_concat, turn?_comes]
    cases hserved : program.served? incoming with
    | none =>
        simp only [Option.toList_none, List.map_nil, List.append_nil]
        exact hserves.sessions
    | some connection => exact hserves.sessions.spawns connection
  case going =>
    intro _
    rw [incomings_concat, List.map_append, hserves.going haccepting]
    exact (AcceptLoop.turns_concat _ _).symm
  case ended =>
    intro hended
    rw [haccepting] at hended
    cases hended

theorem Serves.shutsDown (hserves : Serves program events daemon)
    (haccepting : daemon.accepting = true) :
    Serves program (events ++ [.shutsDown])
      { daemon with
        accepting := false
        loop := { daemon.loop with effects := daemon.loop.flush } } := by
  constructor
  case sessions =>
    rw [turns_concat]
    simp only [DaemonProgram.turn?, Option.toList_none, List.append_nil]
    exact hserves.sessions
  case going =>
    intro hgoing
    cases hgoing
  case ended =>
    intro _
    rw [incomings_concat, AcceptLoop.acceptLoop]
    simp only [DaemonEvent.incoming?, Option.toList_none, List.append_nil]
    rw [hserves.going haccepting]

theorem Serves.session (hserves : Serves program events daemon) {index : Nat}
    {event : Event Resp}
    {sessions : List (Connection Req Resp × Session Req Resp)}
    (hmove : sessionFamily.move daemon.sessions index event =
      some sessions) :
    Serves program (events ++ [.session index event])
      { daemon with sessions } := by
  constructor
  case sessions =>
    rw [turns_concat]
    exact hserves.sessions.moves hmove
  case going =>
    intro hgoing
    rw [incomings_concat]
    simp only [DaemonEvent.incoming?, Option.toList_none, List.append_nil]
    exact hserves.going hgoing
  case ended =>
    intro hended
    rw [incomings_concat]
    simp only [DaemonEvent.incoming?, Option.toList_none, List.append_nil]
    exact hserves.ended hended

theorem serves_of_run
    (hrun : run program.step .start events = some daemon) :
    Serves program events daemon := by
  induction events using List.reverseRecOn generalizing daemon with
  | nil =>
      cases hrun
      exact serves_start
  | append_singleton events event ih =>
      rcases run_concat.mp hrun with ⟨before, hbefore, hstep⟩
      have hserves := ih hbefore
      cases event with
      | comes incoming =>
          simp only [DaemonProgram.step, Option.ite_none_right_eq_some,
            Option.some.injEq] at hstep
          rcases hstep with ⟨haccepting, hlater⟩
          subst hlater
          exact hserves.comes haccepting incoming
      | shutsDown =>
          simp only [DaemonProgram.step, Option.ite_none_right_eq_some,
            Option.some.injEq] at hstep
          rcases hstep with ⟨haccepting, hlater⟩
          subst hlater
          exact hserves.shutsDown haccepting
      | session index event =>
          rcases Option.map_eq_some_iff.mp hstep with
            ⟨sessions, hmove, hlater⟩
          subst hlater
          exact hserves.session hmove

/-! ## What a session is told -/

/-- Every greeting names the check the session runs under. -/
def Tells (peer : PeerCheck) (transcript : List (Entry Req Resp)) : Prop :=
  ∀ serverHello, .wrote (.serverHello serverHello) ∈ transcript →
    serverHello.peerCheck = peer

theorem Tells.append {peer : PeerCheck}
    {transcript more : List (Entry Req Resp)} (htells : Tells peer transcript)
    (hmore : Tells peer more) : Tells peer (transcript ++ more) := by
  intro serverHello hwrote
  rcases List.mem_append.mp hwrote with hold | hnew
  · exact htells serverHello hold
  · exact hmore serverHello hnew

theorem Tells.sent {peer : PeerCheck} {session : Session Req Resp}
    (htells : Tells peer session.transcript) {frame : Frame Req Resp}
    (hframe : Tells peer [.wrote frame]) (outcome : Except Failure Unit)
    (next : Phase Req Resp) :
    Tells peer (Connection.sent session frame outcome next).transcript := by
  unfold Connection.sent
  split
  · exact htells
  · exact htells.append hframe

theorem tells_serve (peer : PeerCheck) (app : DaemonApp Req)
    (next : Timed (Received Req Resp)) :
    Tells peer (.received next :: (Connection.serve app next).2) := by
  intro serverHello hwrote
  unfold Connection.serve at hwrote
  repeat' split at hwrote
  all_goals simp at hwrote

theorem tells_step {connection : Connection Req Resp}
    {session next : Session Req Resp} {event : Event Resp}
    (htells : Tells connection.peer session.transcript)
    (hstep : connection.step session event = some next) :
    Tells connection.peer next.transcript := by
  unfold Connection.step at hstep
  dsimp only at hstep
  split at hstep
  all_goals cases hstep
  · exact htells.append (by simp [Tells])
  · apply htells.sent
    simp [Tells, refusal, Connection.config]
  · apply htells.sent
    simp [Tells, verdict, Connection.config]
  · exact htells.append (tells_serve _ _ _)
  · exact htells
  · apply htells.sent
    simp [Tells]

theorem tells_of_run {connection : Connection Req Resp}
    {events : List (Event Resp)} {session : Session Req Resp}
    (hrun : run connection.step Connection.start events = some session) :
    Tells connection.peer session.transcript := by
  apply run_invariant (P := fun session : Session Req Resp =>
    Tells connection.peer session.transcript) _ _ hrun
  · intro serverHello hwrote
    cases hwrote
  · intro session event next htells hstep
    exact tells_step htells hstep

/-! ## Reading the turns -/

theorem spawned_turns :
    spawned (events.filterMap program.turn?) =
      (incomings events).filterMap program.served? := by
  unfold spawned incomings
  rw [List.filterMap_filterMap, List.filterMap_filterMap]
  apply List.filterMap_congr
  intro event _
  cases event with
  | comes incoming =>
      cases hserved : program.served? incoming <;>
        simp [DaemonProgram.turn?, DaemonEvent.incoming?, hserved,
          Turn.spawned?]
  | shutsDown => rfl
  | session index event => rfl

theorem eventsOf_turns (index : Nat) :
    eventsOf index (events.filterMap program.turn?) =
      heardBy index events := by
  unfold eventsOf heardBy
  rw [List.filterMap_filterMap]
  apply List.filterMap_congr
  intro event _
  cases event with
  | comes incoming =>
      cases hserved : program.served? incoming <;>
        simp [DaemonProgram.turn?, DaemonEvent.own?, hserved, Turn.own?]
  | shutsDown => rfl
  | session other event => rfl

theorem app_of_served? {incoming : Incoming}
    {connection : Connection Req Resp}
    (hserved : program.served? incoming = some connection) :
    connection.app = program.app := by
  rcases Option.bind_eq_some_iff.mp hserved with ⟨⟨nonce, peer⟩, -, hof⟩
  cases nonce with
  | error reason => cases hof
  | ok nonce =>
      cases hof
      rfl

theorem refusedCount_eq {Conn : Type*} (outcomes : List (AcceptOutcome Conn)) :
    refusedCount outcomes = accounted (AcceptLoop.acceptLoop outcomes) := by
  have hrefused := (accounts_turns outcomes).refused
  unfold AcceptLoop.acceptLoop AcceptLoop.flush
  split_ifs with hpending
  · simp only [accounted_concat, AcceptEffect.line?, AcceptEffect.reported,
      Option.toList_none, List.length_nil]
    omega
  · omega

theorem refusedCount_outcomes (incomings : List Incoming) :
    refusedCount (incomings.map program.outcomeOf) =
      incomings.countP (turnedAway program.policy) := by
  unfold refusedCount
  rw [List.countP_map]
  apply List.countP_congr
  intro incoming _
  rw [Function.comp_apply, isRefused_outcomeOf]

end

/-! ## A stranger and a friend -/

def guardedProgram : DaemonProgram Unit Nat where
  json := Sample.json
  app := Sample.connection.app
  policy := some (PeerPolicy.default.allowUid 1000)

/-- The stranger is turned away, and the session goes on after the loop. -/
def strangerFirst : List (DaemonEvent Nat) :=
  [.comes (.stream (.ok ⟨7, 0, 0⟩) (.ok Sample.connection.nonce) 5),
    .comes (.stream (.ok ⟨8, 1000, 27⟩) (.ok Sample.connection.nonce) 6),
    .shutsDown, .session 0 (.received .elapsed)]

end Dovetail.PrivilegedChannel
