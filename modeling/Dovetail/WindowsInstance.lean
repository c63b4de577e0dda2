import Dovetail.LaunchPayload
import Dovetail.OneOfMany
import Dovetail.TransitionRun

/-!
# Single instance over a named mutex

On Windows the process that creates the mutex of the instance key opens a
guard window and is primary; one that finds the mutex there looks for the
window and sends its launch to it.  The primary queues the launches its window
receives until the application takes them, and a release empties the queue.
Every process goes its way step by step, and may crash between any two steps.
-/

namespace Dovetail.Instance.Windows

open CodeUnits OneOfMany TransitionRun

/-! ## The processes -/

inductive Verdict where
  | primary
  | secondary
  | unavailable
  deriving DecidableEq

inductive Phase where
  | ready
  /-- It has created the mutex and waits for its guard window. -/
  | opens
  /-- It has no window, and is about to close the mutex. -/
  | fails
  /-- It has found the mutex there, and is about to close it. -/
  | finds (launch : ForwardedLaunch)
  | forwards (launch : ForwardedLaunch) (attempts : Nat)
  | primary
  /-- `release` has told the guard window to close. -/
  | closes
  /-- `release` has emptied the queue, and is about to close the mutex. -/
  | leaves
  | crashed
  deriving DecidableEq

namespace Phase

/-- The mutex is this process's own. -/
def owns : Phase → Bool
  | opens | fails | primary | closes | leaves => true
  | _ => false

/-- A handle of the mutex is open. -/
def holds : Phase → Bool
  | finds _ => true
  | phase => phase.owns

end Phase

structure Guard where
  phase : Phase
  /-- The guard window is there. -/
  window : Bool
  queue : List Text
  /-- What has left the queue, and whether the application took it. -/
  settled : List (Text × Bool)
  /-- What the application was given. -/
  launches : List ForwardedLaunch
  verdicts : List Verdict
  deriving DecidableEq

/-- A launch that a guard window has received. -/
structure Delivery where
  sender : Nat
  host : Nat
  launch : ForwardedLaunch
  /-- The sender was told in time. -/
  answered : Bool
  deriving DecidableEq

structure World where
  guards : List Guard
  deliveries : List Delivery
  deriving DecidableEq

inductive Event where
  | starts
  | claims (process : Nat) (launch : ForwardedLaunch)
  /-- The mutex can be neither created nor opened. -/
  | refuses (process : Nat)
  | shows (process : Nat)
  | opens (process : Nat) (opened : Bool)
  | frees (process : Nat)
  | forwards (process : Nat)
  | misses (process : Nat)
  /-- The sender finds the host's window; whether the launch is received, and
  whether the sender is told so. -/
  | sends (process host : Nat) (received answered : Bool)
  | takes (process : Nat)
  | releases (process : Nat)
  | hides (process : Nat)
  | empties (process : Nat)
  | crashes (process : Nat)

/-- The process a step is made by. -/
def Event.process : Event → Nat
  | starts => 0
  | claims process _ | refuses process | shows process | opens process _
  | frees process | forwards process | misses process | sends process _ _ _
  | takes process | releases process | hides process | empties process
  | crashes process => process

namespace Guard

def start : Guard where
  phase := .ready
  window := false
  queue := []
  settled := []
  launches := []
  verdicts := []

def told (guard : Guard) (verdict : Verdict) (phase : Phase) : Guard :=
  { guard with
    phase
    verdicts := guard.verdicts ++ [verdict] }

/-- The queue is cleared. -/
def drop (guard : Guard) (phase : Phase) : Guard :=
  { guard with
    phase
    queue := []
    settled := guard.settled ++ guard.queue.map fun payload => (payload, false) }

def receive (guard : Guard) (payload : Text) : Guard :=
  { guard with queue := guard.queue ++ [payload] }

/-- The application is given the launch at the front of the queue. -/
def take (guard : Guard) : Option Guard :=
  match guard.queue with
  | [] => none
  | payload :: queue =>
      some { guard with
        queue
        settled := guard.settled ++ [(payload, true)]
        launches := guard.launches ++ [WindowsSingleInstance.decode payload] }

end Guard

/-- What reaches the queue of the host. -/
def payloadOf (launch : ForwardedLaunch) : Text :=
  enqueue (deliver (encodeLaunch launch.workingDirectory
    (passed launch.arguments)))

/-- `kForwardAttempts` -/
def forwardAttempts : Nat := 40

namespace World

def start : World where
  guards := []
  deliveries := []

def set (world : World) (process : Nat) (guard : Guard) : World :=
  { world with guards := world.guards.set process guard }

/-- Nobody has a handle of the mutex open. -/
def isFree (world : World) : Bool :=
  world.guards.all fun guard => !guard.phase.holds

def hasWindow (world : World) : Bool :=
  world.guards.any (·.window)

def send (world : World) (process host : Nat) (launch : ForwardedLaunch)
    (answered : Bool) : World :=
  { guards := world.guards.modify host (·.receive (payloadOf launch))
    deliveries := world.deliveries ++ [{ sender := process, host, launch, answered }] }

def claim (world : World) (process : Nat) (guard : Guard)
    (launch : ForwardedLaunch) : Option World :=
  match guard.phase with
  | .primary => some (world.set process (guard.told .primary .primary))
  | .ready =>
      if guard.window then none
      else if world.isFree then
        some (world.set process { guard with phase := .opens })
      else some (world.set process { guard with phase := .finds launch })
  | _ => none

/-- What a process does on its own. -/
def act (world : World) (guard : Guard) : Event → Option Guard
  | .refuses _ =>
      if guard.phase = .ready then some (guard.told .unavailable .ready)
      else none
  | .shows _ =>
      if guard.phase = .opens ∧ guard.window = false then
        some { guard with window := true }
      else none
  | .opens _ opened =>
      match guard.phase, opened with
      | .opens, true =>
          if guard.window then some (guard.told .primary .primary) else none
      | .opens, false => some (guard.drop .fails)
      | _, _ => none
  | .frees _ =>
      match guard.phase with
      | .fails => some (guard.told .unavailable .ready)
      | .leaves => some { guard with phase := .ready }
      | _ => none
  | .forwards _ =>
      match guard.phase with
      | .finds launch =>
          some { guard with phase := .forwards launch forwardAttempts }
      | _ => none
  | .misses _ =>
      match guard.phase with
      | .forwards launch (attempts + 1) =>
          if world.hasWindow then none
          else some { guard with phase := .forwards launch attempts }
      | .forwards _ 0 => some (guard.told .unavailable .ready)
      | _ => none
  | .takes _ => if guard.phase = .primary then guard.take else none
  | .releases _ =>
      if guard.phase = .primary then some { guard with phase := .closes }
      else none
  | .hides _ =>
      if guard.window ∧ guard.phase ≠ .opens ∧ guard.phase ≠ .primary then
        some { guard with window := false }
      else none
  | .empties _ =>
      if guard.phase = .closes then some (guard.drop .leaves) else none
  | .crashes _ =>
      if guard.phase = .crashed then none
      else some { guard.drop .crashed with window := false }
  | _ => none

/-- The sender is told so only where the launch is received. -/
def deliver (world : World) (process host : Nat) (guard target : Guard)
    (received answered : Bool) : Option World :=
  match guard.phase with
  | .forwards launch (_ + 1) =>
      if target.window then
        match received, answered with
        | true, true => some ((world.set process
            (guard.told .secondary .ready)).send process host launch true)
        | true, false => some ((world.set process
            (guard.told .unavailable .ready)).send process host launch false)
        | false, true => none
        | false, false =>
            some (world.set process (guard.told .unavailable .ready))
      else none
  | _ => none

def step (world : World) (event : Event) : Option World :=
  match event with
  | .starts => some { world with guards := world.guards ++ [.start] }
  | .claims process launch => do
      let guard ← world.guards[process]?
      world.claim process guard launch
  | .sends process host received answered => do
      let guard ← world.guards[process]?
      let target ← world.guards[host]?
      world.deliver process host guard target received answered
  | event => do
      let guard ← world.guards[event.process]?
      let next ← world.act guard event
      return world.set event.process next

end World

/-! ## What a process does on its own -/

/-- Nothing is received and nobody is told secondary; what leaves the queue is
settled, and given to the application where it was taken. -/
structure Keeps (guard next : Guard) : Prop where
  received : next.settled.map Prod.fst ++ next.queue =
    guard.settled.map Prod.fst ++ guard.queue
  told : next.verdicts.count .secondary = guard.verdicts.count .secondary
  launches : guard.launches = (guard.settled.filter (·.2)).map
      (fun entry => WindowsSingleInstance.decode entry.1) →
    next.launches = (next.settled.filter (·.2)).map
      (fun entry => WindowsSingleInstance.decode entry.1)

namespace Keeps

variable {guard next : Guard}

theorem of_eq (hqueue : next.queue = guard.queue)
    (hsettled : next.settled = guard.settled)
    (hlaunches : next.launches = guard.launches)
    (hverdicts : next.verdicts = guard.verdicts) : Keeps guard next where
  received := by rw [hqueue, hsettled]
  told := by rw [hverdicts]
  launches := by
    rw [hlaunches, hsettled]
    exact id

theorem told_of_ne {verdict : Verdict} (hverdict : verdict ≠ .secondary)
    (phase : Phase) : Keeps guard (guard.told verdict phase) where
  received := rfl
  told := by
    show (guard.verdicts ++ [verdict]).count .secondary = _
    rw [List.count_append, List.count_singleton, if_neg]
    · rfl
    · simpa using hverdict
  launches := id

theorem drop (phase : Phase) : Keeps guard (guard.drop phase) where
  received := by
    simp [Guard.drop, Function.comp_def]
  told := rfl
  launches := by
    intro hlaunches
    show guard.launches = _
    rw [hlaunches]
    simp [Guard.drop, List.filter_append]

theorem take (htake : guard.take = some next) : Keeps guard next := by
  unfold Guard.take at htake
  cases hqueue : guard.queue with
  | nil =>
      rw [hqueue] at htake
      cases htake
  | cons payload queue =>
      rw [hqueue] at htake
      cases htake
      constructor
      case received => simp [hqueue]
      case told => rfl
      case launches =>
        intro hlaunches
        simp [List.filter_append, hlaunches]

end Keeps

section

variable {world later : World} {process : Nat} {guard next : Guard}
  {event : Event}

/-- A process on its own keeps its books, and makes no mutex its own. -/
theorem World.act_keeps (hact : world.act guard event = some next) :
    Keeps guard next ∧
      (next.phase.owns = true → guard.phase.owns = true) := by
  cases event with
  | starts => cases hact
  | claims process launch => cases hact
  | sends process host received answered => cases hact
  | refuses process =>
      simp only [World.act] at hact
      split at hact
      · cases hact
        exact ⟨.told_of_ne (by simp) _, Bool.noConfusion⟩
      · cases hact
  | shows process =>
      simp only [World.act] at hact
      split at hact
      · cases hact
        exact ⟨.of_eq rfl rfl rfl rfl, id⟩
      · cases hact
  | opens process opened =>
      simp only [World.act] at hact
      split at hact
      · next hphase =>
          split at hact
          · cases hact
            exact ⟨.told_of_ne (by simp) _, by simp [hphase, Phase.owns]⟩
          · cases hact
      · next hphase =>
          cases hact
          exact ⟨.drop _, by simp [hphase, Phase.owns]⟩
      · cases hact
  | frees process =>
      simp only [World.act] at hact
      split at hact
      · cases hact
        exact ⟨.told_of_ne (by simp) _, Bool.noConfusion⟩
      · cases hact
        exact ⟨.of_eq rfl rfl rfl rfl, Bool.noConfusion⟩
      · cases hact
  | forwards process =>
      simp only [World.act] at hact
      split at hact
      · cases hact
        exact ⟨.of_eq rfl rfl rfl rfl, Bool.noConfusion⟩
      · cases hact
  | misses process =>
      simp only [World.act] at hact
      split at hact
      · split at hact
        · cases hact
        · cases hact
          exact ⟨.of_eq rfl rfl rfl rfl, Bool.noConfusion⟩
      · cases hact
        exact ⟨.told_of_ne (by simp) _, Bool.noConfusion⟩
      · cases hact
  | takes process =>
      simp only [World.act] at hact
      split at hact
      · next hphase =>
          refine ⟨.take hact, ?_⟩
          intro _
          rw [hphase]
          rfl
      · cases hact
  | releases process =>
      simp only [World.act] at hact
      split at hact
      · next hphase =>
          cases hact
          exact ⟨.of_eq rfl rfl rfl rfl, by simp [hphase, Phase.owns]⟩
      · cases hact
  | hides process =>
      simp only [World.act] at hact
      split at hact
      · cases hact
        exact ⟨.of_eq rfl rfl rfl rfl, id⟩
      · cases hact
  | empties process =>
      simp only [World.act] at hact
      split at hact
      · next hphase =>
          cases hact
          exact ⟨.drop _, by simp [hphase, Phase.owns]⟩
      · cases hact
  | crashes process =>
      simp only [World.act] at hact
      split at hact
      · cases hact
      · cases hact
        refine ⟨?_, Bool.noConfusion⟩
        have hdrop : Keeps guard (guard.drop .crashed) := .drop _
        exact ⟨hdrop.received, hdrop.told, hdrop.launches⟩

/-! ## The books of every process -/

/-- What a process has received, in order. -/
def World.receivedBy (world : World) (process : Nat) : List Delivery :=
  world.deliveries.filter (·.host = process)

/-- The launches a process was told of that somebody has received them. -/
def World.answeredTo (world : World) (process : Nat) : List Delivery :=
  world.deliveries.filter fun delivery =>
    delivery.sender = process ∧ delivery.answered = true

/-- Whatever a process has received is in its queue or settled, in the order
it came in; it is told secondary as often as a launch of it was received and
answered. -/
structure Accounted (world : World) (process : Nat) (guard : Guard) : Prop where
  received : guard.settled.map Prod.fst ++ guard.queue =
    (world.receivedBy process).map fun delivery => payloadOf delivery.launch
  told : guard.verdicts.count .secondary = (world.answeredTo process).length
  launches : guard.launches = (guard.settled.filter (·.2)).map
    fun entry => WindowsSingleInstance.decode entry.1

structure Coherent (world : World) : Prop where
  alone : world.guards.countP (·.phase.owns) ≤ 1
  accounted : ∀ process guard, world.guards[process]? = some guard →
    Accounted world process guard
  known : ∀ delivery ∈ world.deliveries,
    delivery.sender < world.guards.length ∧ delivery.host < world.guards.length

namespace Coherent

theorem start : Coherent .start where
  alone := Nat.zero_le 1
  accounted := by
    intro process guard hguard
    cases hguard
  known := by
    intro delivery hdelivery
    cases hdelivery

theorem set (hcoherent : Coherent world)
    (hguard : world.guards[process]? = some guard) (hkeeps : Keeps guard next)
    (halone : (world.set process next).guards.countP (·.phase.owns) ≤ 1) :
    Coherent (world.set process next) where
  alone := halone
  accounted := by
    intro other found hfound
    by_cases hsame : process = other
    · have hlt := (List.getElem?_eq_some_iff.mp hguard).1
      rw [← hsame] at hfound ⊢
      rw [World.set, List.getElem?_set_self hlt, Option.some.injEq] at hfound
      rw [← hfound]
      have haccounted := hcoherent.accounted process guard hguard
      constructor
      · exact hkeeps.received.trans haccounted.received
      · exact hkeeps.told.trans haccounted.told
      · exact hkeeps.launches haccounted.launches
    · rw [World.set, List.getElem?_set_ne hsame] at hfound
      have haccounted := hcoherent.accounted other found hfound
      exact ⟨haccounted.received, haccounted.told, haccounted.launches⟩
  known := by
    intro delivery hdelivery
    rw [World.set, List.length_set]
    exact hcoherent.known delivery hdelivery

theorem countP_set_le (hguard : world.guards[process]? = some guard)
    (howns : next.phase.owns = true → guard.phase.owns = true) :
    (world.set process next).guards.countP (·.phase.owns) ≤
      world.guards.countP (·.phase.owns) := by
  have hcount : _ = _ :=
    countP_set_add (p := fun guard : Guard => guard.phase.owns) hguard next
  show (world.guards.set process next).countP (·.phase.owns) ≤ _
  cases hnext : next.phase.owns with
  | false =>
      rw [if_neg (show ¬ next.phase.owns = true by simp [hnext])] at hcount
      omega
  | true =>
      rw [if_pos hnext, if_pos (howns hnext)] at hcount
      omega

theorem starts (hcoherent : Coherent world) :
    Coherent { world with guards := world.guards ++ [.start] } where
  alone := by
    rw [List.countP_append, List.countP_singleton, if_neg (by simp [Guard.start, Phase.owns])]
    exact hcoherent.alone
  accounted := by
    intro process guard hguard
    by_cases hlt : process < world.guards.length
    · rw [List.getElem?_append_left hlt] at hguard
      have haccounted := hcoherent.accounted process guard hguard
      exact ⟨haccounted.received, haccounted.told, haccounted.launches⟩
    · rw [List.getElem?_append_right (Nat.not_lt.mp hlt)] at hguard
      rw [List.mem_singleton.mp (List.mem_of_getElem? hguard)]
      have hreceived : world.receivedBy process = [] := by
        apply List.filter_eq_nil_iff.mpr
        intro delivery hdelivery hhost
        have hknown := (hcoherent.known delivery hdelivery).2
        rw [of_decide_eq_true hhost] at hknown
        exact hlt hknown
      have hanswered : world.answeredTo process = [] := by
        apply List.filter_eq_nil_iff.mpr
        intro delivery hdelivery hsender
        have hknown := (hcoherent.known delivery hdelivery).1
        rw [(of_decide_eq_true hsender).1] at hknown
        exact hlt hknown
      constructor
      case received =>
        show _ = (world.receivedBy process).map _
        rw [hreceived]
        rfl
      case told =>
        show _ = (world.answeredTo process).length
        rw [hanswered]
        rfl
      case launches => rfl
  known := by
    intro delivery hdelivery
    have hknown := hcoherent.known delivery hdelivery
    rw [List.length_append]
    exact ⟨Nat.lt_add_right _ hknown.1, Nat.lt_add_right _ hknown.2⟩

/-- Where nobody has the mutex open, it is nobody's own. -/
theorem countP_of_isFree (hfree : world.isFree = true) :
    world.guards.countP (·.phase.owns) = 0 := by
  apply List.countP_eq_zero.mpr
  intro guard hguard howns
  have hnone := List.all_eq_true.mp hfree guard hguard
  cases hphase : guard.phase <;> simp_all [Phase.holds, Phase.owns]

theorem claim (hcoherent : Coherent world)
    (hguard : world.guards[process]? = some guard) {launch : ForwardedLaunch}
    (hclaim : world.claim process guard launch = some later) :
    Coherent later := by
  have halone := hcoherent.alone
  unfold World.claim at hclaim
  split at hclaim
  · next hphase =>
      cases hclaim
      apply hcoherent.set hguard (.told_of_ne (by simp) _)
      apply (countP_set_le hguard _).trans halone
      intro _
      rw [hphase]
      rfl
  · split at hclaim
    · cases hclaim
    · split at hclaim
      · next hfree =>
          cases hclaim
          refine hcoherent.set hguard (.of_eq rfl rfl rfl rfl) ?_
          have hnone := countP_of_isFree hfree
          have hcount := countP_set_add
            (p := fun guard : Guard => guard.phase.owns) hguard
            { guard with phase := .opens }
          rw [hnone] at hcount
          show (world.guards.set process _).countP (·.phase.owns) ≤ 1
          split at hcount <;> split at hcount <;> omega
      · cases hclaim
        refine hcoherent.set hguard (.of_eq rfl rfl rfl rfl) ?_
        exact (countP_set_le hguard Bool.noConfusion).trans halone
  · cases hclaim

theorem countP_modify {host : Nat} {payload : Text} :
    (world.guards.modify host (·.receive payload)).countP (·.phase.owns) =
      world.guards.countP (·.phase.owns) := by
  rw [List.modify_eq_set_getElem?]
  cases hhost : world.guards[host]? with
  | none => rfl
  | some target =>
      have hcount := countP_set_add (p := fun guard : Guard => guard.phase.owns)
        hhost (target.receive payload)
      have hsame : (target.receive payload).phase = target.phase := rfl
      rw [hsame] at hcount
      exact Nat.add_right_cancel hcount

theorem receivedBy_send (host place : Nat) (launch : ForwardedLaunch)
    (answered : Bool) :
    (world.send process host launch answered).receivedBy place =
      world.receivedBy place ++
        if host = place then [⟨process, host, launch, answered⟩] else [] := by
  unfold World.receivedBy World.send
  rw [List.filter_append, List.filter_singleton]
  simp

theorem answeredTo_send (host place : Nat) (launch : ForwardedLaunch)
    (answered : Bool) :
    (world.send process host launch answered).answeredTo place =
      world.answeredTo place ++
        if process = place ∧ answered = true then
          [⟨process, host, launch, answered⟩] else [] := by
  unfold World.answeredTo World.send
  rw [List.filter_append, List.filter_singleton]
  simp

/-- What is told changes the verdicts of one process. -/
theorem getElem?_told (hguard : world.guards[process]? = some guard)
    (verdict : Verdict) {place : Nat} {found : Guard}
    (hfound : (world.guards.set process
      (guard.told verdict .ready))[place]? = some found) :
    ∃ old, world.guards[place]? = some old ∧ found.settled = old.settled ∧
      found.queue = old.queue ∧ found.launches = old.launches ∧
      found.verdicts =
        old.verdicts ++ if process = place then [verdict] else [] := by
  by_cases hsame : process = place
  · have hlt := (List.getElem?_eq_some_iff.mp hguard).1
    rw [← hsame, List.getElem?_set_self hlt, Option.some.injEq] at hfound
    rw [← hfound, if_pos hsame, ← hsame]
    exact ⟨guard, hguard, rfl, rfl, rfl, rfl⟩
  · rw [List.getElem?_set_ne hsame] at hfound
    rw [if_neg hsame]
    exact ⟨found, hfound, rfl, rfl, rfl, (List.append_nil _).symm⟩

/-- What is received changes the queue of one process. -/
theorem getElem?_received {guards : List Guard} {host place : Nat}
    {payload : Text} {found : Guard}
    (hfound : (guards.modify host (·.receive payload))[place]? = some found) :
    ∃ old, guards[place]? = some old ∧ found.settled = old.settled ∧
      found.launches = old.launches ∧ found.verdicts = old.verdicts ∧
      found.queue = old.queue ++ if host = place then [payload] else [] := by
  rw [List.getElem?_modify] at hfound
  rcases Option.map_eq_some_iff.mp hfound with ⟨old, hold, hmodified⟩
  refine ⟨old, hold, ?_⟩
  by_cases hsame : host = place
  · rw [if_pos hsame] at hmodified
    rw [← hmodified, if_pos hsame]
    exact ⟨rfl, rfl, rfl, rfl⟩
  · rw [if_neg hsame] at hmodified
    rw [← hmodified, if_neg hsame, List.append_nil]
    exact ⟨rfl, rfl, rfl, rfl⟩

/-- A launch that is received, with what its sender is told of it. -/
theorem sent (hcoherent : Coherent world)
    (hguard : world.guards[process]? = some guard) {host : Nat}
    (hhost : host < world.guards.length) (launch : ForwardedLaunch)
    (answered : Bool) :
    Coherent ((world.set process (guard.told
      (if answered then .secondary else .unavailable) .ready)).send process
        host launch answered) := by
  have hprocess := (List.getElem?_eq_some_iff.mp hguard).1
  constructor
  case alone =>
    show (List.modify (world.set process _).guards _ _).countP _ ≤ 1
    rw [countP_modify]
    exact (countP_set_le hguard Bool.noConfusion).trans hcoherent.alone
  case accounted =>
    intro place found hfound
    rcases getElem?_received hfound with
      ⟨base, hbase, hsettled, hlaunches, hverdicts, hqueue⟩
    rcases getElem?_told hguard _ hbase with
      ⟨old, hold, hsettledOld, hqueueOld, hlaunchesOld, hverdictsOld⟩
    have haccounted := hcoherent.accounted place old hold
    constructor
    case received =>
      rw [receivedBy_send, List.map_append, hsettled, hsettledOld, hqueue,
        hqueueOld, ← List.append_assoc, haccounted.received]
      apply congrArg (_ ++ ·)
      split <;> rfl
    case told =>
      rw [answeredTo_send, List.length_append, hverdicts, hverdictsOld,
        List.count_append, haccounted.told]
      apply congrArg (_ + ·)
      by_cases hsender : process = place
      · cases answered <;> simp [hsender]
      · simp [hsender]
    case launches =>
      rw [hlaunches, hlaunchesOld, hsettled, hsettledOld]
      exact haccounted.launches
  case known =>
    intro delivery hdelivery
    show delivery.sender < (List.modify _ _ _).length ∧
      delivery.host < (List.modify _ _ _).length
    rw [List.length_modify, World.set, List.length_set]
    rcases List.mem_append.mp hdelivery with hold | hnew
    · exact hcoherent.known delivery hold
    · rw [List.mem_singleton.mp hnew]
      exact ⟨hprocess, hhost⟩

theorem deliver (hcoherent : Coherent world)
    (hguard : world.guards[process]? = some guard) {host : Nat}
    {target : Guard} (hhost : world.guards[host]? = some target)
    {received answered : Bool}
    (hdeliver : world.deliver process host guard target received answered =
      some later) : Coherent later := by
  have hlt := (List.getElem?_eq_some_iff.mp hhost).1
  unfold World.deliver at hdeliver
  split at hdeliver
  · next launch attempts hphase =>
      split at hdeliver
      · cases received <;> cases answered <;> cases hdeliver
        · apply hcoherent.set hguard (.told_of_ne (by simp) _)
          exact (countP_set_le hguard Bool.noConfusion).trans hcoherent.alone
        · exact hcoherent.sent hguard hlt launch false
        · exact hcoherent.sent hguard hlt launch true
      · cases hdeliver
  · cases hdeliver

/-- What a step does, but for the processes that are new, is what one of them
does on its own, claims or sends. -/
theorem step (hcoherent : Coherent world)
    (hstep : world.step event = some later) : Coherent later := by
  unfold World.step at hstep
  split at hstep
  · cases hstep
    exact hcoherent.starts
  · rcases Option.bind_eq_some_iff.mp hstep with ⟨guard, hguard, hclaim⟩
    exact hcoherent.claim hguard hclaim
  · rcases Option.bind_eq_some_iff.mp hstep with ⟨guard, hguard, hrest⟩
    rcases Option.bind_eq_some_iff.mp hrest with ⟨target, htarget, hdeliver⟩
    exact hcoherent.deliver hguard htarget hdeliver
  · rcases Option.bind_eq_some_iff.mp hstep with ⟨guard, hguard, hrest⟩
    rcases Option.bind_eq_some_iff.mp hrest with ⟨next, hact, hset⟩
    cases hset
    rcases World.act_keeps hact with ⟨hkeeps, howns⟩
    exact hcoherent.set hguard hkeeps
      ((countP_set_le hguard howns).trans hcoherent.alone)

end Coherent

end

theorem coherent_of_run {events : List Event} {world : World}
    (hrun : run World.step .start events = some world) : Coherent world := by
  apply run_invariant _ _ hrun
  · exact Coherent.start
  · intro state event next hcoherent hstep
    exact hcoherent.step hstep

/-- However any number of processes claim, send, take, release and crash, at
most one of them is primary or about to be or to have been; each keeps the
launches it has received in their order, in its queue or settled; and it was
told secondary as often as one of its launches was received and answered. -/
theorem windows_instance_excludes (events : List Event) (world : World)
    (hrun : run World.step .start events = some world) :
    world.guards.countP (·.phase.owns) ≤ 1 ∧
      ∀ process guard, world.guards[process]? = some guard →
        guard.settled.map Prod.fst ++ guard.queue =
            (world.receivedBy process).map
              (fun delivery => payloadOf delivery.launch) ∧
          guard.launches = (guard.settled.filter (·.2)).map
            (fun entry => WindowsSingleInstance.decode entry.1) ∧
          guard.verdicts.count .secondary =
            (world.answeredTo process).length := by
  have hcoherent := coherent_of_run hrun
  refine ⟨hcoherent.alone, ?_⟩
  intro process guard hguard
  have haccounted := hcoherent.accounted process guard hguard
  exact ⟨haccounted.received, haccounted.launches, haccounted.told⟩

/-- A launch that was told it is secondary is lost where the primary releases
before the application takes it. -/
theorem windows_instance_excludes_released :
    ∃ world, run World.step .start
          [.starts, .starts, .claims 0 ⟨[67], []⟩, .claims 1 ⟨[68], [[65]]⟩,
            .shows 0, .forwards 1, .opens 0 true, .sends 1 0 true true,
            .releases 0, .hides 0, .empties 0, .frees 0] = some world ∧
        world.guards.countP (·.phase.owns) ≤ 1 ∧
        ∃ primary secondary, world.guards = [primary, secondary] ∧
          secondary.verdicts = [.secondary] ∧ primary.launches = [] ∧
          primary.settled.map Prod.fst ++ primary.queue =
            (world.receivedBy 0).map
              fun delivery => payloadOf delivery.launch := by
  have hrun : run World.step .start
      [.starts, .starts, .claims 0 ⟨[67], []⟩, .claims 1 ⟨[68], [[65]]⟩,
        .shows 0, .forwards 1, .opens 0 true, .sends 1 0 true true,
        .releases 0, .hides 0, .empties 0, .frees 0] = some
      { guards :=
          [{ phase := .ready
             window := false
             queue := []
             settled := [([68, 0, 0, 65], false)]
             launches := []
             verdicts := [.primary] },
           { phase := .ready
             window := false
             queue := []
             settled := []
             launches := []
             verdicts := [.secondary] }]
        deliveries :=
          [{ sender := 1
             host := 0
             launch := ⟨[68], [[65]]⟩
             answered := true }] } := by
    decide
  have hexcludes := windows_instance_excludes _ _ hrun
  exact ⟨_, hrun, hexcludes.1, _, _, rfl, rfl, rfl, (hexcludes.2 0 _ rfl).1⟩

end Dovetail.Instance.Windows
