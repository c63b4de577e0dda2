import Dovetail.TransitionRun

/-!
# A run of the Windows service

`run` registers a handler with the service manager, starts the daemon on a
thread of its own and waits for its endpoint, reporting that it is pending.
The manager calls the handler, and the thread ends, at any time in between.
The manager is told of a life that goes through its stages once and in order.
-/

namespace Dovetail.Daemon.Windows

open TransitionRun

/-! ## What the manager is told -/

namespace ExitCodes

def OK : Int32 := 0

def FAILED : Int32 := 2

def START_TIMEOUT : Int32 := 23

end ExitCodes

inductive ServiceState where
  | startPending
  | running
  | stopped
  deriving DecidableEq

structure ServiceControlAccept where
  stop : Bool
  shutdown : Bool
  deriving DecidableEq

def ServiceControlAccept.empty : ServiceControlAccept where
  stop := false
  shutdown := false

inductive ServiceExitCode where
  | win32 (code : UInt32)
  | serviceSpecific (code : UInt32)
  deriving DecidableEq

/-- The wait hint in milliseconds. -/
structure ServiceStatus where
  currentState : ServiceState
  controlsAccepted : ServiceControlAccept
  exitCode : ServiceExitCode
  checkpoint : Nat
  waitHint : Nat
  deriving DecidableEq

def status (estado : ServiceState) (aceita : ServiceControlAccept)
    (saida : ServiceExitCode) : ServiceStatus where
  currentState := estado
  controlsAccepted := aceita
  exitCode := saida
  checkpoint := 0
  waitHint := 0

/-- The loop waits a quarter of a second between two of these, and for twenty
seconds, so that the checkpoints stay small. -/
def pendente (checkpoint : Nat) : ServiceStatus :=
  { status .startPending .empty (.win32 0) with
    checkpoint
    waitHint := 20000 }

def emExecucao : ServiceStatus :=
  status .running { stop := true, shutdown := true } (.win32 0)

def encerrado (saida : ServiceExitCode) : ServiceStatus :=
  status .stopped .empty saida

def saidaDe (resultado : Except String Unit) (pronto : Bool) :
    ServiceExitCode :=
  match resultado, pronto with
  | .ok (), true => .win32 0
  | .ok (), false =>
      .serviceSpecific ExitCodes.START_TIMEOUT.toUInt32
  | .error _, _ => .serviceSpecific ExitCodes.FAILED.toUInt32

/-- The code `service_main_inner` keeps, which is the one of the process. -/
def codigoDe : Except String Unit → Int32
  | .ok () => ExitCodes.OK
  | .error _ => ExitCodes.FAILED

inductive ServiceControl where
  | interrogate
  | stop
  | shutdown
  | other

inductive ServiceControlHandlerResult where
  | noError
  | notImplemented

/-- What the handler answers, and whether it sends a stop. -/
def eventHandler : ServiceControl → ServiceControlHandlerResult × Bool
  | .interrogate => (.noError, false)
  | .stop => (.noError, true)
  | .shutdown => (.noError, true)
  | .other => (.notImplemented, false)

/-! ## The run -/

inductive Worker where
  | absent
  | running
  | finished (resultado : Except String Unit)
  deriving DecidableEq

/-- Where the main thread of the service is: about to register, to report for
the first time, to start the thread; in its loop; about to report that it
runs; waiting for the thread; returned. -/
inductive Phase where
  | registering
  | announcing
  | spawning
  | waiting (checkpoint : Nat)
  | ready
  | joining (pronto : Bool)
  | returned (resultado : Except String Unit)
  deriving DecidableEq

/-- The reports and whether the manager took them. -/
structure Service where
  phase : Phase
  registered : Bool
  stopSent : Bool
  worker : Worker
  reports : List (ServiceStatus × Except String Unit)
  deriving DecidableEq

/-- What happens next: the main thread takes its next step, the manager calls
the handler, or the thread of the daemon ends. -/
inductive ServiceEvent where
  | registers (outcome : Except String Unit)
  | reports (outcome : Except String Unit)
  | spawns (outcome : Except String Unit)
  | polls (endpointPronto : Bool) (outcome : Except String Unit)
  | timesOut
  | joins (outcome : Except String Unit)
  | controls (control : ServiceControl)
  | finishes (resultado : Except String Unit)

namespace Service

def start : Service where
  phase := .registering
  registered := false
  stopSent := false
  worker := .absent
  reports := []

def report (service : Service) (status : ServiceStatus)
    (outcome : Except String Unit) : Service :=
  { service with reports := service.reports ++ [(status, outcome)] }

/-- The next phase, where a failure is handed on with `?`. -/
def orReturn (outcome : Except String Unit) (next : Phase) : Phase :=
  match outcome with
  | .ok () => next
  | .error failure => .returned (.error failure)

/-- The accept loop ends well only after a stop was sent. -/
def mayFinish (service : Service) (resultado : Except String Unit) : Bool :=
  service.worker = .running ∧ (resultado = .ok () → service.stopSent)

def step (service : Service) (event : ServiceEvent) : Option Service :=
  match service.phase, event with
  | .registering, .registers outcome =>
      some { service with
        phase := orReturn outcome .announcing
        registered := outcome.toBool }
  | .announcing, .reports outcome =>
      some { service.report (pendente 1) outcome with
        phase := orReturn outcome .spawning }
  | .spawning, .spawns outcome =>
      some { service with
        phase := orReturn outcome (.waiting 1)
        worker := if outcome.toBool then .running else .absent }
  | .waiting checkpoint, .polls endpointPronto outcome =>
      if endpointPronto then some { service with phase := .ready }
      else if service.worker = .running then
        some { service.report (pendente (checkpoint + 1)) outcome with
          phase := .waiting (checkpoint + 1) }
      else some { service with phase := .joining false, stopSent := true }
  | .waiting _, .timesOut =>
      some { service with phase := .joining false, stopSent := true }
  | .ready, .reports outcome =>
      some { service.report emExecucao outcome with
        phase := orReturn outcome (.joining true) }
  | .joining pronto, .joins outcome =>
      match service.worker with
      | .finished resultado =>
          some { service.report (encerrado (saidaDe resultado pronto))
              outcome with
            phase := .returned resultado }
      | _ => none
  | _, .controls control =>
      if service.registered then
        some { service with
          stopSent := service.stopSent || (eventHandler control).2 }
      else none
  | _, .finishes resultado =>
      if service.mayFinish resultado then
        some { service with worker := .finished resultado }
      else none
  | _, _ => none

/-- The statuses the manager was to be told, in their order. -/
def statuses (service : Service) : List ServiceStatus :=
  service.reports.map Prod.fst

/-- A status the manager did not take. -/
def refused (service : Service) (status : ServiceStatus) : Prop :=
  ∃ failure, (status, .error failure) ∈ service.reports

end Service

/-! ## The stages of a life -/

/-- Pending with rising checkpoints, then perhaps running, then perhaps
stopped. -/
def stages (beats : Nat) (shown : Bool) (closed : Option ServiceExitCode) :
    List ServiceStatus :=
  (List.range' 1 beats).map pendente ++
    (if shown then [emExecucao] else []) ++ closed.toList.map encerrado

theorem stages_beat (beats : Nat) :
    stages beats false none ++ [pendente (beats + 1)] =
      stages (beats + 1) false none := by
  simp [stages, List.range'_1_concat, Nat.add_comm]

theorem stages_show (beats : Nat) :
    stages beats false none ++ [emExecucao] = stages beats true none := by
  simp [stages]

theorem stages_close (beats : Nat) (shown : Bool) (saida : ServiceExitCode) :
    stages beats shown none ++ [encerrado saida] =
      stages beats shown (some saida) := by
  simp [stages]

variable {service next : Service}

/-- What has been told when the main thread has returned. -/
inductive Returned (service : Service) (resultado : Except String Unit) :
    Prop where
  | unstarted (beats : Nat) (failure : String) :
      beats ≤ 1 → resultado = .error failure →
        service.worker = .absent →
        service.statuses = stages beats false none →
        Returned service resultado
  | unshown (beats : Nat) (failure : String) :
      0 < beats → resultado = .error failure → service.refused emExecucao →
        service.statuses = stages beats true none →
        Returned service resultado
  | closed (beats : Nat) (shown : Bool) :
      0 < beats → service.worker = .finished resultado →
        service.statuses = stages beats shown (some (saidaDe resultado shown)) →
        Returned service resultado

/-- What has been told when the main thread is in a phase. -/
def Stage (service : Service) : Phase → Prop
  | .registering => service.worker = .absent ∧
      service.statuses = stages 0 false none
  | .announcing => service.worker = .absent ∧
      service.statuses = stages 0 false none
  | .spawning => service.worker = .absent ∧
      service.statuses = stages 1 false none
  | .waiting checkpoint => 0 < checkpoint ∧ service.worker ≠ .absent ∧
      service.statuses = stages checkpoint false none
  | .ready => service.worker ≠ .absent ∧
      ∃ beats, 0 < beats ∧ service.statuses = stages beats false none
  | .joining pronto => service.worker ≠ .absent ∧
      (pronto = false → service.stopSent = true) ∧
      ∃ beats, 0 < beats ∧ service.statuses = stages beats pronto none
  | .returned resultado => Returned service resultado

def Told (service : Service) : Prop := Stage service service.phase

theorem told_start : Told .start := by
  exact ⟨rfl, rfl⟩

theorem statuses_report (service : Service) (status : ServiceStatus)
    (outcome : Except String Unit) :
    (service.report status outcome).statuses =
      service.statuses ++ [status] := by
  simp [Service.report, Service.statuses]

theorem Returned.controlled {resultado : Except String Unit}
    (hreturned : Returned service resultado) (stopSent : Bool) :
    Returned { service with stopSent } resultado := by
  cases hreturned with
  | unstarted beats failure hbeats hfailure hworker hstatuses =>
      exact .unstarted beats failure hbeats hfailure hworker hstatuses
  | unshown beats failure hbeats hfailure hrefused hstatuses =>
      exact .unshown beats failure hbeats hfailure hrefused hstatuses
  | closed beats shown hbeats hworker hstatuses =>
      exact .closed beats shown hbeats hworker hstatuses

theorem Stage.controlled {phase : Phase} (hstage : Stage service phase)
    (sends : Bool) :
    Stage { service with stopSent := service.stopSent || sends } phase := by
  cases phase with
  | registering => exact hstage
  | announcing => exact hstage
  | spawning => exact hstage
  | waiting checkpoint => exact hstage
  | ready => exact hstage
  | joining pronto =>
      rcases hstage with ⟨hworker, hstop, hstatuses⟩
      refine ⟨hworker, ?_, hstatuses⟩
      intro hpronto
      rw [hstop hpronto]
      rfl
  | returned resultado => exact Returned.controlled hstage _

theorem Service.mayFinish_iff {resultado : Except String Unit} :
    service.mayFinish resultado = true ↔ service.worker = .running ∧
      (resultado = .ok () → service.stopSent = true) :=
  decide_eq_true_iff

theorem Returned.finished {resultado ended : Except String Unit}
    (hreturned : Returned service resultado)
    (hrunning : service.worker = .running) :
    Returned { service with worker := .finished ended } resultado := by
  cases hreturned with
  | unstarted beats failure hbeats hfailure hworker hstatuses =>
      rw [hrunning] at hworker
      cases hworker
  | unshown beats failure hbeats hfailure hrefused hstatuses =>
      exact .unshown beats failure hbeats hfailure hrefused hstatuses
  | closed beats shown hbeats hworker hstatuses =>
      rw [hrunning] at hworker
      cases hworker

theorem Stage.finished {phase : Phase} (hstage : Stage service phase)
    (hrunning : service.worker = .running)
    (resultado : Except String Unit) :
    Stage { service with worker := .finished resultado } phase := by
  have hpresent : service.worker ≠ .absent := by
    rw [hrunning]
    exact Worker.noConfusion
  have hfinished : Worker.finished resultado ≠ .absent := Worker.noConfusion
  cases phase with
  | registering => exact absurd hstage.1 hpresent
  | announcing => exact absurd hstage.1 hpresent
  | spawning => exact absurd hstage.1 hpresent
  | waiting checkpoint => exact ⟨hstage.1, hfinished, hstage.2.2⟩
  | ready => exact ⟨hfinished, hstage.2⟩
  | joining pronto => exact ⟨hfinished, hstage.2⟩
  | returned ended => exact Returned.finished hstage hrunning

theorem told_of_registers (htold : Told service)
    (hphase : service.phase = .registering) (outcome : Except String Unit) :
    Told { service with
      phase := Service.orReturn outcome .announcing
      registered := outcome.toBool } := by
  rw [Told, hphase] at htold
  cases outcome with
  | ok _ => exact htold
  | error failure =>
      exact .unstarted 0 failure (Nat.zero_le 1) rfl htold.1 htold.2

theorem told_of_announces (htold : Told service)
    (hphase : service.phase = .announcing) (outcome : Except String Unit) :
    Told { service.report (pendente 1) outcome with
      phase := Service.orReturn outcome .spawning } := by
  rw [Told, hphase] at htold
  have hstatuses : (service.report (pendente 1) outcome).statuses =
      stages 1 false none := by
    rw [statuses_report, htold.2]
    exact stages_beat 0
  cases outcome with
  | ok _ => exact ⟨htold.1, hstatuses⟩
  | error failure =>
      exact .unstarted 1 failure (Nat.le_refl 1) rfl htold.1 hstatuses

theorem told_of_spawns (htold : Told service)
    (hphase : service.phase = .spawning) (outcome : Except String Unit) :
    Told { service with
      phase := Service.orReturn outcome (.waiting 1)
      worker := if outcome.toBool then .running else .absent } := by
  rw [Told, hphase] at htold
  cases outcome with
  | ok _ => exact ⟨Nat.one_pos, Worker.noConfusion, htold.2⟩
  | error failure =>
      exact .unstarted 1 failure (Nat.le_refl 1) rfl rfl htold.2

theorem told_of_waits (htold : Told service) {checkpoint : Nat}
    (hphase : service.phase = .waiting checkpoint)
    (outcome : Except String Unit) :
    Told { service.report (pendente (checkpoint + 1)) outcome with
      phase := .waiting (checkpoint + 1) } := by
  rw [Told, hphase] at htold
  refine ⟨Nat.succ_pos checkpoint, htold.2.1, ?_⟩
  rw [← stages_beat, ← htold.2.2]
  exact statuses_report service _ outcome

theorem told_of_gives_up (htold : Told service) {checkpoint : Nat}
    (hphase : service.phase = .waiting checkpoint) :
    Told { service with phase := .joining false, stopSent := true } := by
  rw [Told, hphase] at htold
  exact ⟨htold.2.1, fun _ => rfl, checkpoint, htold.1, htold.2.2⟩

theorem told_of_ready (htold : Told service) {checkpoint : Nat}
    (hphase : service.phase = .waiting checkpoint) :
    Told { service with phase := .ready } := by
  rw [Told, hphase] at htold
  exact ⟨htold.2.1, checkpoint, htold.1, htold.2.2⟩

theorem told_of_shows (htold : Told service)
    (hphase : service.phase = .ready) (outcome : Except String Unit) :
    Told { service.report emExecucao outcome with
      phase := Service.orReturn outcome (.joining true) } := by
  rw [Told, hphase] at htold
  rcases htold with ⟨hworker, beats, hbeats, hstatuses⟩
  have hshown : (service.report emExecucao outcome).statuses =
      stages beats true none := by
    rw [statuses_report, hstatuses]
    exact stages_show beats
  cases outcome with
  | ok _ => exact ⟨hworker, Bool.noConfusion, beats, hbeats, hshown⟩
  | error failure =>
      refine .unshown beats failure hbeats rfl ⟨failure, ?_⟩ hshown
      exact List.mem_append_right _ List.mem_cons_self

theorem told_of_joins (htold : Told service) {pronto : Bool}
    (hphase : service.phase = .joining pronto)
    {resultado : Except String Unit}
    (hworker : service.worker = .finished resultado)
    (outcome : Except String Unit) :
    Told { service.report (encerrado (saidaDe resultado pronto)) outcome with
      phase := .returned resultado } := by
  rw [Told, hphase] at htold
  rcases htold with ⟨-, -, beats, hbeats, hstatuses⟩
  refine .closed beats pronto hbeats hworker ?_
  rw [← stages_close, ← hstatuses]
  exact statuses_report service _ outcome

theorem Told.step (htold : Told service) {event : ServiceEvent}
    (hstep : service.step event = some next) : Told next := by
  unfold Service.step at hstep
  split at hstep
  next outcome hphase =>
    cases hstep
    exact told_of_registers htold hphase outcome
  next outcome hphase =>
    cases hstep
    exact told_of_announces htold hphase outcome
  next outcome hphase =>
    cases hstep
    exact told_of_spawns htold hphase outcome
  next checkpoint endpointPronto outcome hphase =>
    split_ifs at hstep
    · cases hstep
      exact told_of_ready htold hphase
    · cases hstep
      exact told_of_waits htold hphase outcome
    · cases hstep
      exact told_of_gives_up htold hphase
  next checkpoint hphase =>
    cases hstep
    exact told_of_gives_up htold hphase
  next outcome hphase =>
    cases hstep
    exact told_of_shows htold hphase outcome
  next pronto outcome hphase =>
    split at hstep
    next resultado hworker =>
      cases hstep
      exact told_of_joins htold hphase hworker outcome
    next =>
      cases hstep
  next control =>
    rw [Option.ite_none_right_eq_some] at hstep
    rcases hstep with ⟨-, hnext⟩
    cases hnext
    exact Stage.controlled htold _
  next resultado =>
    rw [Option.ite_none_right_eq_some] at hstep
    rcases hstep with ⟨hmay, hnext⟩
    cases hnext
    exact Stage.finished htold (Service.mayFinish_iff.mp hmay).1 resultado
  next =>
    cases hstep

theorem told_of_run {events : List ServiceEvent}
    (hrun : run Service.step .start events = some service) : Told service := by
  apply run_invariant _ _ hrun
  · exact told_start
  · intro state event next htold hstep
    exact htold.step hstep

/-! ## What a run owes the manager -/

/-- The stop is told exactly where the thread has ended and the main thread
has returned its result, with a code that agrees with the one of the process
unless the thread ended well and never showed its endpoint.  A main thread that
has returned and not told so has failed, before there was a thread or because
the manager would not take that the service runs. -/
structure TellsLife (service : Service) (beats : Nat) (shown : Bool)
    (ending : Option ServiceExitCode) : Prop where
  statuses : service.statuses = stages beats shown ending
  stopped : ∀ saida, ending = some saida → ∃ resultado,
    service.phase = .returned resultado ∧
      service.worker = .finished resultado ∧
      saida = saidaDe resultado shown ∧
      ((saida = .win32 0 ↔ codigoDe resultado = ExitCodes.OK) ↔
        (shown = true ∨ resultado ≠ .ok ()))
  failed : ∀ resultado, service.phase = .returned resultado →
    ending = none → codigoDe resultado = ExitCodes.FAILED ∧
      (service.worker = .absent ∨ service.refused emExecucao)

theorem codes_agree_iff (resultado : Except String Unit) (shown : Bool) :
    (saidaDe resultado shown = .win32 0 ↔
        codigoDe resultado = ExitCodes.OK) ↔
      (shown = true ∨ resultado ≠ .ok ()) := by
  cases resultado with
  | ok _ => cases shown <;> simp [saidaDe, codigoDe]
  | error failure =>
      have hcode : ExitCodes.FAILED ≠ ExitCodes.OK := by decide
      simp [saidaDe, codigoDe, hcode]

theorem tellsLife_of_going {beats : Nat} {shown : Bool}
    (hstatuses : service.statuses = stages beats shown none)
    (hgoing : ∀ resultado, service.phase ≠ .returned resultado) :
    TellsLife service beats shown none := by
  constructor
  case statuses =>
    exact hstatuses
  case stopped =>
    intro saida hnone
    cases hnone
  case failed =>
    intro resultado hreturned
    exact absurd hreturned (hgoing resultado)

theorem Returned.tellsLife {resultado : Except String Unit}
    (hreturned : Returned service resultado)
    (hphase : service.phase = .returned resultado) :
    ∃ beats shown ending, TellsLife service beats shown ending := by
  have hfailing : ∀ {failure : String} {beats : Nat} {shown : Bool},
      resultado = .error failure →
      service.statuses = stages beats shown none →
      (service.worker = .absent ∨ service.refused emExecucao) →
      TellsLife service beats shown none := by
    intro failure beats shown hfailure hstatuses hwhy
    constructor
    case statuses =>
      exact hstatuses
    case stopped =>
      intro saida hnone
      cases hnone
    case failed =>
      intro other hother _
      rw [hphase, Phase.returned.injEq] at hother
      rw [← hother, hfailure]
      exact ⟨rfl, hwhy⟩
  cases hreturned with
  | unstarted beats failure _ hfailure hworker hstatuses =>
      exact ⟨beats, false, none,
        hfailing hfailure hstatuses (Or.inl hworker)⟩
  | unshown beats failure _ hfailure hrefused hstatuses =>
      exact ⟨beats, true, none,
        hfailing hfailure hstatuses (Or.inr hrefused)⟩
  | closed beats shown _ hworker hstatuses =>
      refine ⟨beats, shown, some (saidaDe resultado shown), ?_⟩
      constructor
      case statuses =>
        exact hstatuses
      case stopped =>
        intro saida hsaida
        cases hsaida
        exact ⟨resultado, hphase, hworker, rfl, codes_agree_iff _ _⟩
      case failed =>
        intro other _ hnone
        cases hnone

/-- The endpoint never shows, and the stop that is sent for it ends the
thread well. -/
def unshownEvents : List ServiceEvent :=
  [.registers (.ok ()), .reports (.ok ()), .spawns (.ok ()),
    .polls false (.ok ()), .timesOut, .finishes (.ok ()), .joins (.ok ())]

theorem Service.step_controls (service : Service) (control : ServiceControl) :
    service.step (.controls control) =
      if service.registered then
        some { service with
          stopSent := service.stopSent || (eventHandler control).2 }
      else none := by
  unfold Service.step
  cases service.phase <;> rfl

theorem Service.step_finishes (service : Service)
    (resultado : Except String Unit) :
    service.step (.finishes resultado) =
      if service.mayFinish resultado then
        some { service with worker := .finished resultado }
      else none := by
  unfold Service.step
  cases service.phase <;> rfl

/-- Without a handler there is no thread. -/
def Handled (service : Service) : Prop :=
  service.registered = false → service.worker = .absent ∧
    (service.phase = .registering ∨
      ∃ resultado, service.phase = .returned resultado)

theorem Handled.of_phase (hhandled : Handled service) {phase : Phase}
    (hphase : service.phase = phase) (hlater : phase ≠ .registering)
    (hgoing : ∀ resultado, phase ≠ .returned resultado) :
    service.registered = true := by
  by_contra hregistered
  rw [Bool.not_eq_true] at hregistered
  rcases (hhandled hregistered).2 with hfirst | ⟨resultado, hreturned⟩
  · exact hlater (hphase.symm.trans hfirst)
  · exact hgoing resultado (hphase.symm.trans hreturned)

theorem handled_of_registered (hregistered : service.registered = true) :
    Handled service := by
  intro hnone
  rw [hregistered] at hnone
  cases hnone

theorem Handled.step (hhandled : Handled service) (htold : Told service)
    {event : ServiceEvent} (hstep : service.step event = some next) :
    Handled next := by
  unfold Service.step at hstep
  split at hstep
  next outcome hphase =>
    cases hstep
    rw [Told, hphase] at htold
    cases outcome with
    | ok _ => exact handled_of_registered rfl
    | error failure =>
        intro _
        exact ⟨htold.1, Or.inr ⟨_, rfl⟩⟩
  next outcome hphase =>
    cases hstep
    exact handled_of_registered (hhandled.of_phase hphase (by simp) (by simp))
  next outcome hphase =>
    cases hstep
    exact handled_of_registered (hhandled.of_phase hphase (by simp) (by simp))
  next checkpoint endpointPronto outcome hphase =>
    have hregistered := hhandled.of_phase hphase (by simp) (by simp)
    split_ifs at hstep <;> cases hstep <;>
      exact handled_of_registered hregistered
  next checkpoint hphase =>
    cases hstep
    exact handled_of_registered (hhandled.of_phase hphase (by simp) (by simp))
  next outcome hphase =>
    cases hstep
    exact handled_of_registered (hhandled.of_phase hphase (by simp) (by simp))
  next pronto outcome hphase =>
    have hregistered := hhandled.of_phase hphase (by simp) (by simp)
    split at hstep
    · cases hstep
      exact handled_of_registered hregistered
    · cases hstep
  next control =>
    rw [Option.ite_none_right_eq_some] at hstep
    rcases hstep with ⟨hregistered, hnext⟩
    cases hnext
    exact handled_of_registered hregistered
  next resultado =>
    rw [Option.ite_none_right_eq_some] at hstep
    rcases hstep with ⟨hmay, hnext⟩
    cases hnext
    intro hregistered
    rcases hhandled hregistered with ⟨habsent, -⟩
    rw [(Service.mayFinish_iff.mp hmay).1] at habsent
    cases habsent
  next =>
    cases hstep

theorem handled_of_run {events : List ServiceEvent}
    (hrun : run Service.step .start events = some service) :
    Handled service := by
  have hboth : Told service ∧ Handled service := by
    apply run_invariant (P := fun service => Told service ∧ Handled service)
      _ _ hrun
    · exact ⟨told_start, fun _ => ⟨rfl, Or.inl rfl⟩⟩
    · intro state event next hboth hstep
      exact ⟨hboth.1.step hstep, hboth.2.step hboth.1 hstep⟩
  exact hboth.2

theorem exists_joined (service : Service)
    {resultado : Except String Unit} {pronto : Bool}
    (hphase : service.phase = .joining pronto)
    (hfinished : service.worker = .finished resultado) :
    ∃ stopped, service.step (.joins (.ok ())) = some stopped ∧
      stopped.phase = .returned resultado ∧
      stopped.statuses.getLast? =
        some (encerrado (saidaDe resultado pronto)) := by
  refine ⟨{ service.report (encerrado (saidaDe resultado pronto)) (.ok ()) with
    phase := .returned resultado }, ?_, rfl, ?_⟩
  · simp [Service.step, hphase, hfinished]
  · have hstatuses := statuses_report service
      (encerrado (saidaDe resultado pronto)) (.ok ())
    exact (congrArg List.getLast? hstatuses).trans (List.getLast?_concat)

/-- The thread has ended: two turns of the main thread tell of the stop. -/
theorem closes_of_finished (service : Service)
    (resultado : Except String Unit)
    (hfinished : service.worker = .finished resultado)
    (htold : Told service)
    (hopen : ∀ resultado, service.phase ≠ .returned resultado) :
    ∃ more stopped saida, run Service.step service more = some stopped ∧
      more.length ≤ 2 ∧ stopped.phase = .returned resultado ∧
      stopped.statuses.getLast? = some (encerrado saida) := by
  have hpresent : service.worker ≠ .absent := by
    rw [hfinished]
    exact Worker.noConfusion
  rw [Told] at htold
  cases hphase : service.phase with
  | registering =>
      rw [hphase] at htold
      exact absurd htold.1 hpresent
  | announcing =>
      rw [hphase] at htold
      exact absurd htold.1 hpresent
  | spawning =>
      rw [hphase] at htold
      exact absurd htold.1 hpresent
  | waiting checkpoint =>
      have hgives : service.step (.polls false (.ok ())) = some
          { service with phase := .joining false, stopSent := true } := by
        simp [Service.step, hphase, hfinished]
      rcases exists_joined { service with
        phase := .joining false, stopSent := true } rfl hfinished with
        ⟨stopped, hjoins, hreturned, hlast⟩
      refine ⟨[.polls false (.ok ()), .joins (.ok ())], stopped, _, ?_,
        by simp, hreturned, hlast⟩
      rw [run_cons, hgives, Option.bind_some, run_cons, hjoins]
      rfl
  | ready =>
      have hshows : service.step (.reports (.ok ())) = some
          { service.report emExecucao (.ok ()) with
            phase := .joining true } := by
        simp [Service.step, hphase, Service.orReturn]
      rcases exists_joined { service.report emExecucao (.ok ())
        with phase := .joining true } rfl hfinished with
        ⟨stopped, hjoins, hreturned, hlast⟩
      refine ⟨[.reports (.ok ()), .joins (.ok ())], stopped, _, ?_, by simp,
        hreturned, hlast⟩
      rw [run_cons, hshows, Option.bind_some, run_cons, hjoins]
      rfl
  | joining pronto =>
      rcases exists_joined service hphase hfinished with
        ⟨stopped, hjoins, hreturned, hlast⟩
      refine ⟨[.joins (.ok ())], stopped, _, ?_, by simp, hreturned, hlast⟩
      rw [run_cons, hjoins]
      rfl
  | returned ended => exact absurd hphase (hopen ended)

/-- A thread that was sent a stop may end well. -/
theorem finishes_of_stopSent (service : Service)
    (hrunning : service.worker = .running)
    (hsent : service.stopSent = true) :
    service.step (.finishes (.ok ())) =
      some { service with worker := .finished (.ok ()) } := by
  rw [Service.step_finishes, if_pos]
  exact Service.mayFinish_iff.mpr ⟨hrunning, fun _ => hsent⟩

end Dovetail.Daemon.Windows
