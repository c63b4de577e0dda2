import Dovetail.CodeUnits
import Dovetail.TransitionRun

/-!
# A watch over the privileged helper

`HelperWatch.refreshedOn` reads the helper's status once, and again after each
event of a broadcast stream.  The status changes at any time, a read takes its
answer at some instant before it completes, and the generator hears the
triggers from the moment it reaches its loop.
-/

namespace Dovetail.Helper

open CodeUnits TransitionRun

inductive HelperState where
  | unsupported
  | notRegistered
  | requiresApproval
  | enabled
  | blockedByPolicy
  | failed
  deriving DecidableEq

inductive HelperBackend where
  | none
  | launchDaemon
  | networkExtension
  | windowsService
  | systemdUnit
  deriving DecidableEq

structure HelperStatus where
  state : HelperState
  backend : HelperBackend
  detail : Option Text
  deriving DecidableEq

/-! ## The generator -/

/-- Where the generator stands; a read that has its answer holds it. -/
inductive WatchPhase where
  | idle
  | readsFirst (answer : Option HelperStatus)
  | yieldsFirst
  | waits
  | reads (answer : Option HelperStatus)
  | yields
  | done
  deriving DecidableEq

namespace WatchPhase

/-- The loop has a subscription to the triggers. -/
def subscribed : WatchPhase → Bool
  | waits | reads _ | yields => true
  | idle | readsFirst _ | yieldsFirst | done => false

/-- The stream has a listener and no read is under way. -/
def settled : WatchPhase → Bool
  | yieldsFirst | waits | yields | done => true
  | idle | readsFirst _ | reads _ => false

end WatchPhase

inductive WatchEvent where
  | listens
  | changes (status : HelperStatus)
  | fires
  | closes
  /-- The platform answers the read that is under way. -/
  | samples
  /-- The future of the read completes. -/
  | completes
  /-- The generator goes on behind a yield. -/
  | resumes
  /-- The loop takes an event of its subscription. -/
  | takes
  | ends
  deriving DecidableEq

/-- The helper, the stream of triggers and the generator over them. -/
structure HelperWatch where
  status : HelperStatus
  closed : Bool
  phase : WatchPhase
  /-- Triggers the subscription was given and the loop has not taken. -/
  buffered : Nat
  last : Option HelperStatus
  emitted : List HelperStatus
  deriving DecidableEq

namespace HelperWatch

def ofHelper (status : HelperStatus) : HelperWatch :=
  { status
    closed := false
    phase := .idle
    buffered := 0
    last := none
    emitted := [] }

def yield (watch : HelperWatch) (fresh : HelperStatus) (phase : WatchPhase) :
    HelperWatch :=
  { watch with
    phase
    last := some fresh
    emitted := watch.emitted ++ [fresh] }

def complete (watch : HelperWatch) : Option HelperWatch :=
  match watch.phase with
  | .readsFirst (some read) => some (watch.yield read .yieldsFirst)
  | .reads (some fresh) =>
      if some fresh ≠ watch.last then some (watch.yield fresh .yields)
      else some { watch with phase := .waits }
  | _ => none

def step (watch : HelperWatch) (event : WatchEvent) : Option HelperWatch :=
  match event with
  | .listens =>
      if watch.phase = .idle then
        some { watch with phase := .readsFirst none }
      else none
  | .changes status => some { watch with status }
  | .fires =>
      if watch.closed then none
      else if watch.phase.subscribed then
        some { watch with buffered := watch.buffered + 1 }
      else some watch
  | .closes => some { watch with closed := true }
  | .samples =>
      match watch.phase with
      | .readsFirst none =>
          some { watch with phase := .readsFirst (some watch.status) }
      | .reads none =>
          some { watch with phase := .reads (some watch.status) }
      | _ => none
  | .completes => watch.complete
  | .resumes =>
      if watch.phase = .yieldsFirst ∨ watch.phase = .yields then
        some { watch with phase := .waits }
      else none
  | .takes =>
      if watch.phase = .waits ∧ 0 < watch.buffered then
        some
          { watch with
            phase := .reads none
            buffered := watch.buffered - 1 }
      else none
  | .ends =>
      if watch.phase = .waits ∧ watch.buffered = 0 ∧ watch.closed then
        some { watch with phase := .done }
      else none

/-- Every trigger was delivered and no read is under way. -/
def Settled (watch : HelperWatch) : Prop :=
  watch.phase.settled = true ∧ watch.buffered = 0

instance (watch : HelperWatch) : Decidable watch.Settled :=
  inferInstanceAs (Decidable (_ ∧ _))

end HelperWatch

/-! ## Instants of a run -/

def statusAfter (start : HelperStatus) (events : List WatchEvent) :
    HelperStatus :=
  events.foldl
    (fun status event =>
      match event with
      | .changes fresh => fresh
      | _ => status)
    start

/-- The helper had the status at an instant of the run behind which no
trigger fired and no listening began. -/
def HadSinceTrigger (start : HelperStatus) (events : List WatchEvent)
    (status : HelperStatus) : Prop :=
  ∃ before after, events = before ++ after ∧
    WatchEvent.fires ∉ after ∧ WatchEvent.listens ∉ after ∧
      statusAfter start before = status

section Instants

variable {start status : HelperStatus} {events : List WatchEvent}

theorem statusAfter_concat (event : WatchEvent) :
    statusAfter start (events ++ [event]) =
      match event with
      | .changes fresh => fresh
      | _ => statusAfter start events := by
  rw [statusAfter, List.foldl_append]
  rfl

theorem hadSinceTrigger_now :
    HadSinceTrigger start events (statusAfter start events) :=
  ⟨events, [], by simp, by simp, by simp, rfl⟩

theorem HadSinceTrigger.concat (hhad : HadSinceTrigger start events status)
    {event : WatchEvent} (hfires : event ≠ .fires)
    (hlistens : event ≠ .listens) :
    HadSinceTrigger start (events ++ [event]) status := by
  rcases hhad with ⟨before, after, hevents, hfree, hlistened, hstatus⟩
  refine ⟨before, after ++ [event], ?_, ?_, ?_, hstatus⟩
  · rw [hevents, List.append_assoc]
  · simp [hfree, hfires.symm]
  · simp [hlistened, hlistens.symm]

end Instants

/-! ## Triggers that are missed -/

namespace HelperWatch

/-- A trigger that fires behind the first read and before the subscription
finds the helper as it was read. -/
def Heard (watch : HelperWatch) : WatchEvent → Prop
  | .fires =>
      match watch.phase with
      | .readsFirst (some read) => watch.status = read
      | .yieldsFirst => some watch.status = watch.last
      | _ => True
  | _ => True

/-- What the generator holds is not older than the last trigger it will not
answer. -/
def UpToDate (start : HelperStatus) (events : List WatchEvent)
    (watch : HelperWatch) : Prop :=
  match watch.phase with
  | .idle | .readsFirst none | .reads none => True
  | .readsFirst (some read) => HadSinceTrigger start events read
  | .reads (some fresh) =>
      watch.buffered = 0 → HadSinceTrigger start events fresh
  | .yieldsFirst | .waits | .yields | .done =>
      watch.buffered = 0 →
        ∃ last, watch.last = some last ∧ HadSinceTrigger start events last

structure Sound (start : HelperStatus) (events : List WatchEvent)
    (watch : HelperWatch) : Prop where
  status : watch.status = statusAfter start events
  last : watch.emitted.getLast? = watch.last
  chain : watch.emitted.IsChain (· ≠ ·)
  unread : watch.phase = .idle ∨ (∃ answer, watch.phase = .readsFirst answer) →
    watch.last = none
  ended : watch.phase = .done → watch.closed = true
  unheard : watch.phase.subscribed = false → watch.buffered = 0
  upToDate : watch.UpToDate start events

section

variable {start : HelperStatus} {events : List WatchEvent}
variable {watch next : HelperWatch} {event : WatchEvent}

theorem UpToDate.concat (hupToDate : watch.UpToDate start events)
    (hfires : event ≠ .fires) (hlistens : event ≠ .listens) :
    watch.UpToDate start (events ++ [event]) := by
  unfold UpToDate at hupToDate ⊢
  have hlater {status : HelperStatus}
      (hhad : HadSinceTrigger start events status) :
      HadSinceTrigger start (events ++ [event]) status :=
    hhad.concat hfires hlistens
  have hlast (hheld : watch.buffered = 0 →
      ∃ last, watch.last = some last ∧ HadSinceTrigger start events last) :
      watch.buffered = 0 → ∃ last, watch.last = some last ∧
        HadSinceTrigger start (events ++ [event]) last := by
    intro hbuffered
    rcases hheld hbuffered with ⟨last, hsome, hhad⟩
    exact ⟨last, hsome, hlater hhad⟩
  cases hphase : watch.phase with
  | idle => trivial
  | readsFirst answer =>
      rw [hphase] at hupToDate
      cases answer with
      | none => trivial
      | some read => exact hlater hupToDate
  | yieldsFirst =>
      rw [hphase] at hupToDate
      exact hlast hupToDate
  | waits =>
      rw [hphase] at hupToDate
      exact hlast hupToDate
  | reads answer =>
      rw [hphase] at hupToDate
      cases answer with
      | none => trivial
      | some fresh => exact fun hbuffered => hlater (hupToDate hbuffered)
  | yields =>
      rw [hphase] at hupToDate
      exact hlast hupToDate
  | done =>
      rw [hphase] at hupToDate
      exact hlast hupToDate

theorem Sound.status_concat (hsound : watch.Sound start events)
    (hevent : ∀ fresh, event ≠ .changes fresh) :
    watch.status = statusAfter start (events ++ [event]) := by
  rw [statusAfter_concat]
  cases event with
  | changes fresh => exact absurd rfl (hevent fresh)
  | _ => exact hsound.status

/-- A status that was not the last one goes out behind it. -/
theorem sound_yield (hsound : watch.Sound start events)
    {fresh : HelperStatus} {phase : WatchPhase}
    (hphase : phase = .yieldsFirst ∨ phase = .yields)
    (hunheard : phase = .yieldsFirst → watch.buffered = 0)
    (hnew : watch.last ≠ some fresh)
    (hstatus : watch.status = statusAfter start (events ++ [event]))
    (hhad : watch.buffered = 0 →
      HadSinceTrigger start (events ++ [event]) fresh) :
    (watch.yield fresh phase).Sound start (events ++ [event]) := by
  constructor
  case status => exact hstatus
  case last => simp [HelperWatch.yield]
  case chain =>
    apply List.isChain_append.mpr
    refine ⟨hsound.chain, List.isChain_singleton _, ?_⟩
    intro last hlast first hfirst hsame
    rw [hsound.last] at hlast
    simp only [List.head?_cons, Option.mem_def, Option.some.injEq] at hfirst
    apply hnew
    rw [hfirst, ← hsame]
    exact hlast
  case unread =>
    intro hunread
    rcases hphase with rfl | rfl
    · simp [HelperWatch.yield] at hunread
    · simp [HelperWatch.yield] at hunread
  case ended =>
    intro hended
    rcases hphase with rfl | rfl
    · simp [HelperWatch.yield] at hended
    · simp [HelperWatch.yield] at hended
  case unheard =>
    intro hunsubscribed
    rcases hphase with rfl | rfl
    · exact hunheard rfl
    · simp [HelperWatch.yield, WatchPhase.subscribed] at hunsubscribed
  case upToDate =>
    rcases hphase with rfl | rfl
    · exact fun hbuffered => ⟨fresh, rfl, hhad hbuffered⟩
    · exact fun hbuffered => ⟨fresh, rfl, hhad hbuffered⟩

theorem Sound.fires (hsound : watch.Sound start events)
    (hheard : watch.Heard .fires) (hstep : watch.step .fires = some next) :
    next.Sound start (events ++ [.fires]) := by
  have hstatus : watch.status = statusAfter start (events ++ [.fires]) :=
    hsound.status_concat (by simp)
  have hnow : HadSinceTrigger start (events ++ [.fires]) watch.status := by
    rw [hstatus]
    exact hadSinceTrigger_now
  simp only [HelperWatch.step] at hstep
  by_cases hclosed : watch.closed = true
  · rw [if_pos hclosed] at hstep
    cases hstep
  rw [if_neg hclosed] at hstep
  by_cases hsubscribed : watch.phase.subscribed = true
  · rw [if_pos hsubscribed] at hstep
    cases hstep
    constructor
    case status => exact hstatus
    case last => exact hsound.last
    case chain => exact hsound.chain
    case unread => exact hsound.unread
    case ended => exact hsound.ended
    case unheard =>
      intro hunsubscribed
      rw [hsubscribed] at hunsubscribed
      cases hunsubscribed
    case upToDate =>
      have hmore : watch.buffered + 1 ≠ 0 := Nat.succ_ne_zero _
      unfold UpToDate
      cases hphase : watch.phase with
      | waits => exact fun hnone => absurd hnone hmore
      | yields => exact fun hnone => absurd hnone hmore
      | reads answer =>
          cases answer with
          | none => trivial
          | some fresh => exact fun hnone => absurd hnone hmore
      | _ => simp [hphase, WatchPhase.subscribed] at hsubscribed
  · rw [if_neg hsubscribed] at hstep
    cases hstep
    constructor
    case status => exact hstatus
    case last => exact hsound.last
    case chain => exact hsound.chain
    case unread => exact hsound.unread
    case ended => exact hsound.ended
    case unheard => exact hsound.unheard
    case upToDate =>
      have hheld := hsound.upToDate
      unfold UpToDate at hheld ⊢
      unfold Heard at hheard
      cases hphase : watch.phase with
      | idle => trivial
      | readsFirst answer =>
          rw [hphase] at hheard
          cases answer with
          | none => trivial
          | some read =>
              have hread : watch.status = read := hheard
              change HadSinceTrigger start (events ++ [.fires]) read
              rw [← hread]
              exact hnow
      | yieldsFirst =>
          rw [hphase] at hheard
          exact fun _ => ⟨watch.status, hheard.symm, hnow⟩
      | done => exact absurd (hsound.ended hphase) hclosed
      | _ => simp [hphase, WatchPhase.subscribed] at hsubscribed

/-- A step that moves the generator and neither fires nor emits. -/
theorem Sound.moved (hsound : watch.Sound start events)
    {phase : WatchPhase} {buffered : Nat}
    (hstatus : watch.status = statusAfter start (events ++ [event]))
    (hidle : phase ≠ .idle)
    (hfirst : (∃ answer, phase = .readsFirst answer) →
      ∃ answer, watch.phase = .readsFirst answer ∨ watch.phase = .idle)
    (hdone : phase = .done → watch.closed = true)
    (hunheard : phase.subscribed = false → buffered = 0)
    (hupToDate : UpToDate start (events ++ [event])
      { watch with phase, buffered }) :
    Sound start (events ++ [event]) { watch with phase, buffered } := by
  constructor
  case status => exact hstatus
  case last => exact hsound.last
  case chain => exact hsound.chain
  case unread =>
    intro hunread
    apply hsound.unread
    rcases hunread with hunread | hunread
    · exact absurd hunread hidle
    · rcases hfirst hunread with ⟨answer, hreads | hunlistened⟩
      · exact Or.inr ⟨answer, hreads⟩
      · exact Or.inl hunlistened
  case ended => exact hdone
  case unheard => exact hunheard
  case upToDate => exact hupToDate

theorem Sound.samples (hsound : watch.Sound start events)
    (hstep : watch.step .samples = some next) :
    next.Sound start (events ++ [.samples]) := by
  have hstatus : watch.status = statusAfter start (events ++ [.samples]) :=
    hsound.status_concat (by simp)
  have hnow :
      HadSinceTrigger start (events ++ [.samples]) watch.status := by
    rw [hstatus]
    exact hadSinceTrigger_now
  simp only [HelperWatch.step] at hstep
  cases hphase : watch.phase with
  | readsFirst answer =>
      rw [hphase] at hstep
      cases answer with
      | some read => cases hstep
      | none =>
          cases hstep
          apply hsound.moved hstatus
          · simp
          · exact fun _ => ⟨none, Or.inl hphase⟩
          · simp
          · exact fun _ => hsound.unheard (by rw [hphase]; rfl)
          · exact hnow
  | reads answer =>
      rw [hphase] at hstep
      cases answer with
      | some fresh => cases hstep
      | none =>
          cases hstep
          apply hsound.moved hstatus
          · simp
          · simp
          · simp
          · simp [WatchPhase.subscribed]
          · exact fun _ => hnow
  | _ =>
      rw [hphase] at hstep
      cases hstep

theorem Sound.completes (hsound : watch.Sound start events)
    (hstep : watch.step .completes = some next) :
    next.Sound start (events ++ [.completes]) := by
  have hstatus : watch.status = statusAfter start (events ++ [.completes]) :=
    hsound.status_concat (by simp)
  have hheld : watch.UpToDate start (events ++ [.completes]) :=
    hsound.upToDate.concat (by simp) (by simp)
  simp only [HelperWatch.step, HelperWatch.complete] at hstep
  unfold UpToDate at hheld
  cases hphase : watch.phase with
  | readsFirst answer =>
      rw [hphase] at hstep hheld
      cases answer with
      | none => cases hstep
      | some read =>
          cases hstep
          apply sound_yield hsound (Or.inl rfl) _ _ hstatus fun _ => hheld
          · exact fun _ => hsound.unheard (by rw [hphase]; rfl)
          · rw [hsound.unread (Or.inr ⟨_, hphase⟩)]
            simp
  | reads answer =>
      rw [hphase] at hstep hheld
      cases answer with
      | none => cases hstep
      | some fresh =>
          simp only at hstep
          by_cases hnew : some fresh ≠ watch.last
          · rw [if_pos hnew] at hstep
            cases hstep
            exact sound_yield hsound (Or.inr rfl) (by simp) hnew.symm hstatus
              hheld
          · rw [if_neg hnew] at hstep
            cases hstep
            have hsame : watch.last = some fresh := (not_not.mp hnew).symm
            apply hsound.moved hstatus
            · simp
            · simp
            · simp
            · simp [WatchPhase.subscribed]
            · exact fun hbuffered => ⟨fresh, hsame, hheld hbuffered⟩
  | _ =>
      rw [hphase] at hstep
      cases hstep

theorem Sound.resumes (hsound : watch.Sound start events)
    (hstep : watch.step .resumes = some next) :
    next.Sound start (events ++ [.resumes]) := by
  have hstatus : watch.status = statusAfter start (events ++ [.resumes]) :=
    hsound.status_concat (by simp)
  have hheld : watch.UpToDate start (events ++ [.resumes]) :=
    hsound.upToDate.concat (by simp) (by simp)
  simp only [HelperWatch.step] at hstep
  by_cases hyields : watch.phase = .yieldsFirst ∨ watch.phase = .yields
  · rw [if_pos hyields] at hstep
    cases hstep
    apply hsound.moved hstatus
    · simp
    · simp
    · simp
    · simp [WatchPhase.subscribed]
    · unfold UpToDate at hheld
      rcases hyields with hphase | hphase
      · rw [hphase] at hheld
        exact hheld
      · rw [hphase] at hheld
        exact hheld
  · rw [if_neg hyields] at hstep
    cases hstep

theorem Sound.step (hsound : watch.Sound start events)
    (hheard : watch.Heard event) (hstep : watch.step event = some next) :
    next.Sound start (events ++ [event]) := by
  cases event with
  | fires => exact hsound.fires hheard hstep
  | samples => exact hsound.samples hstep
  | completes => exact hsound.completes hstep
  | resumes => exact hsound.resumes hstep
  | listens =>
      have hstatus : watch.status = statusAfter start (events ++ [.listens]) :=
        hsound.status_concat (by simp)
      simp only [HelperWatch.step] at hstep
      by_cases hidle : watch.phase = .idle
      · rw [if_pos hidle] at hstep
        cases hstep
        apply hsound.moved hstatus
        · simp
        · exact fun _ => ⟨none, Or.inr hidle⟩
        · simp
        · exact fun _ => hsound.unheard (by rw [hidle]; rfl)
        · trivial
      · rw [if_neg hidle] at hstep
        cases hstep
  | changes fresh =>
      have hheld : watch.UpToDate start (events ++ [.changes fresh]) :=
        hsound.upToDate.concat (by simp) (by simp)
      cases hstep
      constructor
      case status =>
        rw [statusAfter_concat]
      case last => exact hsound.last
      case chain => exact hsound.chain
      case unread => exact hsound.unread
      case ended => exact hsound.ended
      case unheard => exact hsound.unheard
      case upToDate => exact hheld
  | closes =>
      have hheld : watch.UpToDate start (events ++ [.closes]) :=
        hsound.upToDate.concat (by simp) (by simp)
      cases hstep
      constructor
      case status =>
        rw [statusAfter_concat]
        exact hsound.status
      case last => exact hsound.last
      case chain => exact hsound.chain
      case unread => exact hsound.unread
      case ended => exact fun _ => rfl
      case unheard => exact hsound.unheard
      case upToDate => exact hheld
  | takes =>
      have hstatus : watch.status = statusAfter start (events ++ [.takes]) :=
        hsound.status_concat (by simp)
      simp only [HelperWatch.step] at hstep
      by_cases hwaits : watch.phase = .waits ∧ 0 < watch.buffered
      · rw [if_pos hwaits] at hstep
        cases hstep
        apply hsound.moved hstatus
        · simp
        · simp
        · simp
        · simp [WatchPhase.subscribed]
        · trivial
      · rw [if_neg hwaits] at hstep
        cases hstep
  | ends =>
      have hstatus : watch.status = statusAfter start (events ++ [.ends]) :=
        hsound.status_concat (by simp)
      have hheld : watch.UpToDate start (events ++ [.ends]) :=
        hsound.upToDate.concat (by simp) (by simp)
      simp only [HelperWatch.step] at hstep
      by_cases hends :
          watch.phase = .waits ∧ watch.buffered = 0 ∧ watch.closed = true
      · rw [if_pos hends] at hstep
        cases hstep
        apply hsound.moved hstatus
        · simp
        · simp
        · exact fun _ => hends.2.2
        · exact fun _ => hends.2.1
        · unfold UpToDate at hheld
          rw [hends.1] at hheld
          exact hheld
      · rw [if_neg hends] at hstep
        cases hstep

theorem sound_ofHelper (start : HelperStatus) :
    (ofHelper start).Sound start [] := by
  constructor
  case status => rfl
  case last => rfl
  case chain => exact List.isChain_nil
  case unread => exact fun _ => rfl
  case ended => exact fun hdone => absurd hdone (by simp [ofHelper])
  case unheard => exact fun _ => rfl
  case upToDate => trivial

theorem sound_of_run
    (hrun : run HelperWatch.step (ofHelper start) events = some watch)
    (hheard : EveryStep HelperWatch.step (ofHelper start) Heard events) :
    watch.Sound start events := by
  induction events using List.reverseRecOn generalizing watch with
  | nil =>
      cases hrun
      exact sound_ofHelper start
  | append_singleton events event ih =>
      rcases run_concat.mp hrun with ⟨previous, hprevious, hlast⟩
      rcases (everyStep_concat hprevious).mp hheard with ⟨hbefore, hevent⟩
      exact (ih hprevious hbefore).step hevent hlast

/-- The last status that went out is one the helper had since the last
trigger. -/
def ShowsCurrent (start : HelperStatus) (events : List WatchEvent)
    (watch : HelperWatch) : Prop :=
  ∃ last, watch.emitted.getLast? = some last ∧
    HadSinceTrigger start events last

theorem Sound.showsCurrent (hsound : watch.Sound start events)
    (hsettled : watch.Settled) : watch.ShowsCurrent start events := by
  have hheld := hsound.upToDate
  unfold UpToDate at hheld
  unfold ShowsCurrent
  rw [hsound.last]
  rcases hsettled with ⟨hphase, hbuffered⟩
  cases hcase : watch.phase with
  | yieldsFirst =>
      rw [hcase] at hheld
      exact hheld hbuffered
  | waits =>
      rw [hcase] at hheld
      exact hheld hbuffered
  | yields =>
      rw [hcase] at hheld
      exact hheld hbuffered
  | done =>
      rw [hcase] at hheld
      exact hheld hbuffered
  | _ => simp [hcase, WatchPhase.settled] at hphase

/-- Behind a trigger nothing but the helper's own changes makes another
status current. -/
theorem eq_of_hadSinceTrigger {status : HelperStatus}
    {after : List WatchEvent}
    (hhad : HadSinceTrigger start (events ++ .fires :: after) status)
    (hunchanged : ∀ fresh, .changes fresh ∉ after) :
    status = statusAfter start events := by
  rcases hhad with ⟨before, behind, hevents, hfree, -, hstatus⟩
  have hbefore : ∃ middle, before = events ++ .fires :: middle ∧
      ∀ fresh, .changes fresh ∉ middle := by
    rcases List.append_eq_append_iff.mp hevents with
      ⟨middle, hbefore, hmiddle⟩ | ⟨middle, -, hbehind⟩
    · cases middle with
      | nil =>
          rw [List.nil_append] at hmiddle
          apply absurd _ hfree
          rw [← hmiddle]
          exact List.mem_cons_self
      | cons event middle =>
          rcases List.cons.inj hmiddle with ⟨hevent, hrest⟩
          refine ⟨middle, ?_, ?_⟩
          · rw [hbefore, hevent]
          · intro fresh hfresh
            apply hunchanged fresh
            rw [hrest]
            exact List.mem_append_left _ hfresh
    · apply absurd _ hfree
      rw [hbehind]
      exact List.mem_append_right _ List.mem_cons_self
  rcases hbefore with ⟨middle, rfl, hmiddle⟩
  rw [← hstatus, statusAfter, List.foldl_append, List.foldl_cons]
  change middle.foldl _ (statusAfter start events) = statusAfter start events
  clear hevents hstatus hfree
  induction middle using List.reverseRecOn with
  | nil => rfl
  | append_singleton middle event ih =>
      rw [List.foldl_append, ih fun fresh hfresh =>
        hmiddle fresh (List.mem_append_left _ hfresh)]
      cases event with
      | changes fresh => exact absurd (by simp) (hmiddle fresh)
      | _ => rfl

/-- A missed trigger is never made up for: where the status has moved on, the
watch comes to rest on the old one. -/
theorem stale_of_not_heard
    (hrun : run HelperWatch.step (ofHelper start) events = some watch)
    (hsound : watch.Sound start events) (hopen : watch.closed = false)
    (hmissed : ¬ watch.Heard .fires) :
    ∃ after final,
      run HelperWatch.step (ofHelper start) (events ++ .fires :: after) =
        some final ∧
      final.Settled ∧
      ¬ final.ShowsCurrent start (events ++ .fires :: after) := by
  have hfires (hunsubscribed : watch.phase.subscribed = false) :
      run HelperWatch.step (ofHelper start) (events ++ [.fires]) =
        some watch := by
    apply run_concat.mpr
    exact ⟨watch, hrun, by simp [HelperWatch.step, hopen, hunsubscribed]⟩
  cases hphase : watch.phase with
  | readsFirst answer =>
      cases answer with
      | none => simp [Heard, hphase] at hmissed
      | some read =>
          have hread : watch.status ≠ read := by
            simpa [Heard, hphase] using hmissed
          refine ⟨[.completes], watch.yield read .yieldsFirst, ?_, ?_, ?_⟩
          · rw [List.append_cons]
            apply run_concat.mpr
            refine ⟨watch, hfires (by rw [hphase]; rfl), ?_⟩
            simp [HelperWatch.step, HelperWatch.complete, hphase]
          · exact ⟨rfl, hsound.unheard (by rw [hphase]; rfl)⟩
          · intro hcurrent
            rcases hcurrent with ⟨last, hlast, hhad⟩
            apply hread
            have hsame := eq_of_hadSinceTrigger hhad (by simp)
            have hlastRead : read = last := by
              simpa [HelperWatch.yield] using hlast
            rw [hsound.status, hlastRead, hsame]
  | yieldsFirst =>
      have hlast : some watch.status ≠ watch.last := by
        simpa [Heard, hphase] using hmissed
      refine ⟨[], watch, hfires (by rw [hphase]; rfl), ?_, ?_⟩
      · exact ⟨by rw [hphase]; rfl, hsound.unheard (by rw [hphase]; rfl)⟩
      · intro hcurrent
        rcases hcurrent with ⟨last, hemitted, hhad⟩
        apply hlast
        have hsame := eq_of_hadSinceTrigger hhad (by simp)
        rw [← hsound.last, hemitted, hsound.status, hsame]
  | _ => simp [Heard, hphase] at hmissed

/-- In every order of the helper's changes, the triggers and the reads, a
watch that missed no trigger shows a current status whenever it rests. -/
theorem showsCurrent_of_heard
    (hrun : run HelperWatch.step (ofHelper start) events = some watch)
    (hheard : EveryStep HelperWatch.step (ofHelper start) Heard events) :
    watch.emitted.IsChain (· ≠ ·) ∧
      (watch.Settled → watch.ShowsCurrent start events) := by
  have hsound := sound_of_run hrun hheard
  exact ⟨hsound.chain, hsound.showsCurrent⟩

end

/-! ## A person who comes back too early -/

def awaiting : HelperStatus :=
  { state := .requiresApproval
    backend := .launchDaemon
    detail := none }

def approved : HelperStatus := { awaiting with state := .enabled }

/-- The approval and the focus come while the loop waits. -/
def comesBack : List WatchEvent :=
  [.listens, .samples, .completes, .resumes, .changes approved, .fires,
    .takes, .samples, .completes]

theorem showsCurrent_comesBack :
    ∃ watch, run HelperWatch.step (ofHelper awaiting) comesBack =
        some watch ∧
      watch.Settled ∧ watch.emitted = [awaiting, approved] ∧
      (watch.emitted.IsChain (· ≠ ·) ∧
        (watch.Settled → watch.ShowsCurrent awaiting comesBack)) := by
  refine ⟨_, rfl, by decide, rfl, ?_⟩
  apply showsCurrent_of_heard rfl
  unfold comesBack
  iterate 9 rw [everyStep_cons rfl]
  simp [Heard, ofHelper, HelperWatch.yield]

/-- They come while the first read is on its way back. -/
def comesBackEarly : List WatchEvent :=
  [.listens, .samples, .changes approved, .fires, .completes, .resumes]

theorem not_showsCurrent_comesBackEarly :
    ∃ watch, run HelperWatch.step (ofHelper awaiting) comesBackEarly =
        some watch ∧
      watch.Settled ∧ watch.emitted = [awaiting] ∧
      ¬ watch.ShowsCurrent awaiting comesBackEarly := by
  refine ⟨_, rfl, by decide, rfl, ?_⟩
  intro hcurrent
  rcases hcurrent with ⟨last, hlast, hhad⟩
  have hsame := @eq_of_hadSinceTrigger awaiting
    [.listens, .samples, .changes approved] last [.completes, .resumes] hhad
    (by simp)
  have hold : awaiting = last := Option.some.inj hlast
  rw [← hold] at hsame
  exact absurd hsame (by decide)

end HelperWatch

end Dovetail.Helper
