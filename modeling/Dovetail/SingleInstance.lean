import Dovetail.TransitionRun

/-!
# Single instance over a socket file

`SocketSingleInstance` becomes secondary where somebody answers behind the
socket file, and otherwise deletes the file and binds its own.  Processes
share nothing but the file: a call is a machine whose steps interleave with
those of every other call, and a process may crash between any two of them.
-/

namespace Dovetail.Instance

open TransitionRun

/-! ## Calls -/

inductive SingleInstanceVerdict where
  | primary
  | secondary
  deriving DecidableEq

inductive Phase where
  | ready
  /-- `_takeOver`, before it looks for the file. -/
  | refused
  /-- `_takeOver` has found the file and is about to delete it. -/
  | stale
  /-- `_takeOver` is about to bind. -/
  | vacant
  | told (verdict : SingleInstanceVerdict)
  /-- `release` has closed the listener and is about to look for the file. -/
  | closed
  /-- `release` has found the file and is about to delete it. -/
  | leftover
  | released
  | thrown
  deriving DecidableEq

/-- The steps of `claim` and `release`. -/
inductive Action where
  | connect
  | check
  | delete
  | bind
  | close
  deriving DecidableEq

inductive Event (Process Call : Type*) where
  | act (call : Call) (action : Action)
  | crash (process : Process)

/-! ## The file system and the sockets -/

/-- What the socket path names: a socket by its number, or another file. -/
inductive Node where
  | socket (id : Nat)
  | file
  deriving DecidableEq

/-- The payload of a claim, taken by the process behind the file. -/
structure Acceptance (Process Call : Type*) where
  call : Call
  host : Process
  hostIsPrimary : Bool

structure World (Process Call : Type*) where
  path : Option Node
  /-- How many sockets were bound. -/
  bound : Nat
  /-- Who listens on a socket. -/
  listening : Nat → Option Process
  /-- The field `_listener`. -/
  listener : Process → Option Nat
  alive : Process → Bool
  /-- Told primary and not released since. -/
  primary : Process → Bool
  phase : Call → Phase
  accepted : List (Acceptance Process Call)

variable {Process Call : Type*}

namespace World

/-- No call has begun; a crash before may have left something at the path. -/
def before (path : Option Node) : World Process Call :=
  { path
    bound := 0
    listening := fun _ => none
    listener := fun _ => none
    alive := fun _ => true
    primary := fun _ => false
    phase := fun _ => .ready
    accepted := [] }

/-- Who answers behind the socket path. -/
def host (world : World Process Call) : Option Process :=
  match world.path with
  | some (.socket id) => world.listening id
  | _ => none

variable [DecidableEq Process] [DecidableEq Call]

def move (world : World Process Call) (call : Call) (phase : Phase) :
    World Process Call :=
  { world with phase := Function.update world.phase call phase }

/-- Connects and sends, or is refused where nobody listens. -/
def connect (world : World Process Call) (call : Call) :
    World Process Call :=
  match world.host with
  | some host =>
      { world.move call (.told .secondary) with
        accepted := world.accepted ++ [⟨call, host, world.primary host⟩] }
  | none => world.move call .refused

def check (world : World Process Call) (call : Call) (found missing : Phase) :
    World Process Call :=
  world.move call (if world.path.isSome then found else missing)

/-- Deleting a file that is gone throws. -/
def delete (world : World Process Call) (call : Call) (next : Phase) :
    World Process Call :=
  if world.path.isSome then { world.move call next with path := none }
  else world.move call .thrown

/-- Binding to a path that exists throws. -/
def bind (world : World Process Call) (process : Process) (call : Call) :
    World Process Call :=
  if world.path.isSome then world.move call .thrown
  else
    { world.move call (.told .primary) with
      path := some (.socket world.bound)
      bound := world.bound + 1
      listening := Function.update world.listening world.bound (some process)
      listener := Function.update world.listener process (some world.bound)
      primary := Function.update world.primary process true }

/-- Closes the listener, where there is one. -/
def close (world : World Process Call) (process : Process) (call : Call) :
    World Process Call :=
  { world.move call .closed with
    listening := fun id =>
      if world.listening id = some process ∧
          world.listener process = some id then none
      else world.listening id
    listener := Function.update world.listener process none
    primary := Function.update world.primary process false }

/-- The file stays behind, without a listener. -/
def crash (world : World Process Call) (process : Process) :
    World Process Call :=
  { world with
    listening := fun id =>
      if world.listening id = some process then none else world.listening id
    alive := Function.update world.alive process false
    primary := Function.update world.primary process false }

def act (owner : Call → Process) (world : World Process Call) (call : Call)
    (action : Action) : Option (World Process Call) :=
  match world.phase call, action with
  | .ready, .connect => some (world.connect call)
  | .refused, .check => some (world.check call .stale .vacant)
  | .stale, .delete => some (world.delete call .vacant)
  | .vacant, .bind => some (world.bind (owner call) call)
  | .ready, .close => some (world.close (owner call) call)
  | .closed, .check => some (world.check call .leftover .released)
  | .leftover, .delete => some (world.delete call .released)
  | _, _ => none

def step (owner : Call → Process) (world : World Process Call) :
    Event Process Call → Option (World Process Call)
  | .act call action =>
      if world.alive (owner call) then world.act owner call action else none
  | .crash process =>
      if world.alive process then some (world.crash process) else none

end World

/-! ## One primary at most -/

/-- The primary is alone and behind its socket path, and who was told
secondary was taken by a primary. -/
structure Excludes (world : World Process Call) : Prop where
  alone : ∀ first second, world.alive first = true →
    world.primary first = true → world.alive second = true →
    world.primary second = true → first = second
  reachable : ∀ process, world.alive process = true →
    world.primary process = true → world.host = some process
  forwarded : ∀ call, world.phase call = .told .secondary →
    ∃ acceptance ∈ world.accepted, acceptance.call = call ∧
      acceptance.hostIsPrimary = true

/-- A step that deletes the socket file deletes one nobody listens behind. -/
def SparesListener (world : World Process Call) :
    Event Process Call → Prop
  | .act _ .delete => world.host = none
  | _ => True

/-- Whoever listens is the primary, behind the socket path. -/
structure Guarded (world : World Process Call) : Prop where
  listening : ∀ id process, world.listening id = some process →
    world.path = some (.socket id) ∧ world.alive process = true ∧
      world.listener process = some id ∧ world.primary process = true
  primary : ∀ process, world.primary process = true →
    ∃ id, world.listening id = some process
  forwarded : ∀ call, world.phase call = .told .secondary →
    ∃ acceptance ∈ world.accepted, acceptance.call = call ∧
      acceptance.hostIsPrimary = true

theorem guarded_before (path : Option Node) :
    Guarded (.before path : World Process Call) where
  listening := by simp [World.before]
  primary := by simp [World.before]
  forwarded := by simp [World.before]

namespace Guarded

variable {world : World Process Call}

theorem host_of_primary (hguarded : Guarded world) {process : Process}
    (hprimary : world.primary process = true) :
    world.host = some process := by
  obtain ⟨id, hlistening⟩ := hguarded.primary process hprimary
  obtain ⟨hpath, -⟩ := hguarded.listening id process hlistening
  simp [World.host, hpath, hlistening]

theorem primary_of_host (hguarded : Guarded world) {process : Process}
    (hhost : world.host = some process) :
    world.alive process = true ∧ world.primary process = true := by
  unfold World.host at hhost
  split at hhost
  · obtain ⟨-, halive, -, hprimary⟩ := hguarded.listening _ _ hhost
    exact ⟨halive, hprimary⟩
  · cases hhost

theorem excludes (hguarded : Guarded world) : Excludes world where
  alone := by
    intro first second _ hfirst _ hsecond
    have hhost := hguarded.host_of_primary hfirst
    rw [hguarded.host_of_primary hsecond] at hhost
    exact (Option.some.inj hhost).symm
  reachable := fun _ _ => hguarded.host_of_primary
  forwarded := hguarded.forwarded

/-- Where nobody answers nobody listens. -/
theorem listening_eq_none (hguarded : Guarded world)
    (hhost : world.host = none) (id : Nat) : world.listening id = none := by
  cases hlistening : world.listening id with
  | none => rfl
  | some process =>
      obtain ⟨-, -, -, hprimary⟩ := hguarded.listening id process hlistening
      simp [hguarded.host_of_primary hprimary] at hhost

theorem primary_eq_false (hguarded : Guarded world)
    (hhost : world.host = none) (process : Process) :
    world.primary process = false := by
  cases hprimary : world.primary process with
  | false => rfl
  | true => simp [hguarded.host_of_primary hprimary] at hhost

/-- Listening without a process keeps the others as they were. -/
theorem without (hguarded : Guarded world) {process : Process}
    {next : World Process Call}
    (hlistening : ∀ id other, next.listening id = some other ↔
      world.listening id = some other ∧ other ≠ process)
    (hpath : next.path = world.path)
    (halive : ∀ other, other ≠ process → next.alive other = world.alive other)
    (hlistener : ∀ other, other ≠ process →
      next.listener other = world.listener other)
    (hprimary : ∀ other, next.primary other = true ↔
      world.primary other = true ∧ other ≠ process)
    (hforwarded : ∀ call, next.phase call = .told .secondary →
      ∃ acceptance ∈ next.accepted, acceptance.call = call ∧
        acceptance.hostIsPrimary = true) : Guarded next where
  listening := by
    intro id other hother
    obtain ⟨hworld, hne⟩ := (hlistening id other).mp hother
    obtain ⟨hnode, hlive, hfield, htold⟩ := hguarded.listening id other hworld
    exact ⟨hpath.trans hnode, (halive other hne).trans hlive,
      (hlistener other hne).trans hfield, (hprimary other).mpr ⟨htold, hne⟩⟩
  primary := by
    intro other hother
    obtain ⟨hworld, hne⟩ := (hprimary other).mp hother
    obtain ⟨id, hid⟩ := hguarded.primary other hworld
    exact ⟨id, (hlistening id other).mpr ⟨hid, hne⟩⟩
  forwarded := hforwarded

theorem crash [DecidableEq Process] (hguarded : Guarded world)
    {process : Process} : Guarded (world.crash process) := by
  refine @without _ _ _ hguarded process _ ?_ rfl
    (fun other hne => Function.update_of_ne hne _ _) (fun _ _ => rfl) ?_
    hguarded.forwarded
  · intro id other
    simp only [World.crash, Option.ite_none_left_eq_some]
    constructor
    · rintro ⟨hopen, hlistening⟩
      refine ⟨hlistening, ?_⟩
      rintro rfl
      exact hopen hlistening
    · rintro ⟨hlistening, hne⟩
      refine ⟨?_, hlistening⟩
      intro hown
      rw [hlistening] at hown
      exact hne (Option.some.inj hown)
  · intro other
    by_cases hother : other = process <;>
      simp [World.crash, hother]

section

variable [DecidableEq Call] {call : Call}

theorem forwarded_move (hguarded : Guarded world) {phase : Phase}
    (hphase : phase ≠ .told .secondary) (other : Call)
    (hother : (world.move call phase).phase other = .told .secondary) :
    ∃ acceptance ∈ world.accepted, acceptance.call = other ∧
      acceptance.hostIsPrimary = true := by
  by_cases hsame : other = call
  · subst hsame
    exact absurd (by simpa [World.move] using hother) hphase
  · exact hguarded.forwarded other
      (by simpa [World.move, Function.update_of_ne hsame] using hother)

theorem move (hguarded : Guarded world) {phase : Phase}
    (hphase : phase ≠ .told .secondary) :
    Guarded (world.move call phase) where
  listening := hguarded.listening
  primary := hguarded.primary
  forwarded := hguarded.forwarded_move hphase

theorem connect (hguarded : Guarded world) :
    Guarded (world.connect call) := by
  unfold World.connect
  cases hhost : world.host with
  | none => exact hguarded.move (by simp)
  | some host =>
      obtain ⟨-, hprimary⟩ := hguarded.primary_of_host hhost
      refine ⟨hguarded.listening, hguarded.primary, ?_⟩
      intro other hother
      by_cases hsame : other = call
      · exact ⟨⟨call, host, world.primary host⟩, by simp, hsame.symm, hprimary⟩
      · obtain ⟨acceptance, hmem, hacceptance⟩ := hguarded.forwarded other
          (by simpa [World.move, Function.update_of_ne hsame] using hother)
        exact ⟨acceptance, List.mem_append_left _ hmem, hacceptance⟩

theorem delete (hguarded : Guarded world) (hhost : world.host = none)
    {next : Phase} (hnext : next ≠ .told .secondary) :
    Guarded (world.delete call next) := by
  unfold World.delete
  split
  · exact
      { listening := fun id process hlistening => by
          simp [World.move, hguarded.listening_eq_none hhost id] at hlistening
        primary := hguarded.primary
        forwarded := hguarded.forwarded_move hnext }
  · exact hguarded.move (by simp)

/-- Deleting the file a process listens behind leaves a primary nobody
reaches. -/
theorem not_excludes_of_delete (hguarded : Guarded world)
    (hanswers : world.host ≠ none) {next : Phase} :
    ¬ Excludes (world.delete call next) := by
  intro hexcludes
  obtain ⟨process, hhost⟩ := Option.ne_none_iff_exists'.mp hanswers
  obtain ⟨halive, hprimary⟩ := hguarded.primary_of_host hhost
  have hpath : world.path.isSome = true := by
    unfold World.host at hhost
    cases hnode : world.path with
    | none => simp [hnode] at hhost
    | some node => rfl
  have hreached := hexcludes.reachable process
    (by simpa [World.delete, hpath, World.move] using halive)
    (by simpa [World.delete, hpath, World.move] using hprimary)
  simp [World.delete, hpath, World.host] at hreached

variable [DecidableEq Process]

theorem bind (hguarded : Guarded world) {process : Process}
    (halive : world.alive process = true) :
    Guarded (world.bind process call) := by
  unfold World.bind
  split
  · exact hguarded.move (by simp)
  · rename_i hpath
    have hhost : world.host = none := by
      simp only [Option.not_isSome_iff_eq_none] at hpath
      simp [World.host, hpath]
    refine ⟨?_, ?_, hguarded.forwarded_move (by simp)⟩
    · intro id other hlistening
      by_cases hid : id = world.bound
      · obtain rfl : process = other := by
          simpa [hid] using hlistening
        simp [hid, World.move, halive]
      · simp [Function.update_of_ne hid,
          hguarded.listening_eq_none hhost id] at hlistening
    · intro other hprimary
      by_cases hother : other = process
      · exact ⟨world.bound, by simp [hother]⟩
      · simp [Function.update_of_ne hother,
          hguarded.primary_eq_false hhost other] at hprimary

theorem close (hguarded : Guarded world) {process : Process} :
    Guarded (world.close process call) := by
  refine @without _ _ _ hguarded process _ ?_ rfl (fun _ _ => rfl)
    (fun other hne => Function.update_of_ne hne _ _) ?_
    (hguarded.forwarded_move (by simp))
  · intro id other
    simp only [World.close, Option.ite_none_left_eq_some]
    constructor
    · rintro ⟨hopen, hlistening⟩
      refine ⟨hlistening, ?_⟩
      rintro rfl
      exact hopen ⟨hlistening, (hguarded.listening id other hlistening).2.2.1⟩
    · rintro ⟨hlistening, hne⟩
      refine ⟨?_, hlistening⟩
      rintro ⟨hown, -⟩
      rw [hlistening] at hown
      exact hne (Option.some.inj hown)
  · intro other
    by_cases hother : other = process <;>
      simp [World.close, hother]

theorem step (hguarded : Guarded world) {owner : Call → Process}
    {event : Event Process Call} {next : World Process Call}
    (hspares : SparesListener world event)
    (hstep : world.step owner event = some next) : Guarded next := by
  cases event with
  | crash process =>
      simp only [World.step, Option.ite_none_right_eq_some,
        Option.some.injEq] at hstep
      obtain ⟨-, rfl⟩ := hstep
      exact hguarded.crash
  | act call action =>
      simp only [World.step, Option.ite_none_right_eq_some] at hstep
      obtain ⟨halive, hact⟩ := hstep
      unfold World.act at hact
      split at hact <;> cases hact
      · exact hguarded.connect
      · exact hguarded.move (by split <;> simp)
      · exact hguarded.delete hspares (by simp)
      · exact hguarded.bind halive
      · exact hguarded.close
      · exact hguarded.move (by split <;> simp)
      · exact hguarded.delete hspares (by simp)

theorem not_excludes_of_step (hguarded : Guarded world)
    {owner : Call → Process} {event : Event Process Call}
    {next : World Process Call} (hspares : ¬ SparesListener world event)
    (hstep : world.step owner event = some next) : ¬ Excludes next := by
  cases event with
  | crash process => exact absurd trivial hspares
  | act call action =>
      simp only [World.step, Option.ite_none_right_eq_some] at hstep
      obtain ⟨-, hact⟩ := hstep
      unfold World.act at hact
      split at hact <;> cases hact
      · exact absurd trivial hspares
      · exact absurd trivial hspares
      · exact hguarded.not_excludes_of_delete hspares
      · exact absurd trivial hspares
      · exact absurd trivial hspares
      · exact absurd trivial hspares
      · exact hguarded.not_excludes_of_delete hspares

end

end Guarded

/-! ## Runs -/

section

variable [DecidableEq Process] [DecidableEq Call]

/-- At all times of a run one primary at most is alive, its path leads to it
and it took every launch told secondary, exactly where no step deletes the
socket file of a listener. -/
theorem excludes_iff_sparesListener {owner : Call → Process}
    {path : Option Node} {events : List (Event Process Call)}
    {final : World Process Call}
    (hrun : run (World.step owner) (.before path) events = some final) :
    Throughout (World.step owner) (.before path) Excludes events ↔
      EveryStep (World.step owner) (.before path) SparesListener events :=
  throughout_iff_everyStep_of_run (guarded_before path)
    (fun _ hguarded => hguarded.excludes)
    (fun _ _ _ hguarded hspares hstep => hguarded.step hspares hstep)
    (fun _ _ _ hguarded hspares hstep =>
      hguarded.not_excludes_of_step hspares hstep) hrun

/-- A launch, a second one that reaches it, and its release. -/
def launchedTwice : List (Event Bool Nat) :=
  [.act 0 .connect, .act 0 .check, .act 0 .bind, .act 1 .connect,
    .act 2 .close, .act 2 .check, .act 2 .delete]

theorem excludes_iff_sparesListener_demo :
    ∃ final, run (World.step fun call => call == 1) (.before none)
        launchedTwice = some final ∧ final.phase 1 = .told .secondary ∧
      (Throughout (World.step fun call => call == 1) (.before none) Excludes
          launchedTwice ↔
        EveryStep (World.step fun call => call == 1) (.before none)
          SparesListener launchedTwice) :=
  ⟨_, rfl, rfl, excludes_iff_sparesListener rfl⟩

/-- Two launches that are both refused before either binds. -/
def launchedTogether : List (Event Bool Bool) :=
  [.act true .connect, .act false .connect, .act true .check,
    .act true .bind, .act false .check, .act false .delete,
    .act false .bind]

/-- Both launches are told primary. -/
theorem not_excludes_launchedTogether :
    ∃ final, run (World.step id) (.before none) launchedTogether =
        some final ∧
      final.phase true = .told .primary ∧
      final.phase false = .told .primary ∧ ¬ Excludes final := by
  refine ⟨_, rfl, rfl, rfl, fun hexcludes => ?_⟩
  have hsame := hexcludes.alone true false rfl rfl rfl rfl
  cases hsame

end

end Dovetail.Instance
