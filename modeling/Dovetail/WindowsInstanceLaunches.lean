import Dovetail.WindowsInstance

/-!
# The launches of an instance nobody leaves

Where every guard window opens and no process releases or crashes, the first
process that claims stays the only one with the mutex and the only one with a
window, so all launches that are received come to it.
-/

namespace Dovetail.Instance.Windows

open CodeUnits OneOfMany TransitionRun

/-! ## Where nobody leaves -/

/-- No window that cannot be opened, no release and no crash; and no launch
that the payload cannot carry. -/
def Event.Stays : Event → Prop
  | claims _ launch =>
      nul ∉ launch.workingDirectory ∧
        (∀ argument ∈ launch.arguments, nul ∉ argument) ∧
        launch.arguments ≠ [[]]
  | opens _ opened => opened = true
  | releases _ | crashes _ => False
  | _ => True

/-- A launch that comes out of the payload as it went in. -/
def Carried (launch : ForwardedLaunch) : Prop :=
  WindowsSingleInstance.decode (payloadOf launch) = launch

theorem carried_of_stays {process : Nat} {launch : ForwardedLaunch}
    (hstays : (Event.claims process launch).Stays) : Carried launch := by
  rcases hstays with ⟨hdirectory, harguments, hblank⟩
  unfold Carried payloadOf WindowsSingleInstance.decode
  rw [enqueue_deliver, encodeLaunch_passed harguments]
  exact (decode_encode_iff hdirectory harguments).mpr hblank

/-- What a process has where nobody leaves. -/
structure Steady (guard : Guard) : Prop where
  phase : guard.phase.owns = true →
    guard.phase = .opens ∨ guard.phase = .primary
  alive : guard.phase ≠ .crashed
  window : guard.window = true → guard.phase.owns = true
  taken : ∀ entry ∈ guard.settled, entry.2 = true
  carries : ∀ launch, guard.phase = .finds launch ∨
    (∃ attempts, guard.phase = .forwards launch attempts) → Carried launch

structure Gathered (world : World) : Prop where
  steady : ∀ guard ∈ world.guards, Steady guard
  hosts : ∀ delivery ∈ world.deliveries, Carried delivery.launch ∧
    ∃ guard, world.guards[delivery.host]? = some guard ∧
      guard.phase.owns = true

namespace Steady

variable {world : World} {guard next : Guard} {event : Event}

theorem window_eq_false (hsteady : Steady guard)
    (howns : guard.phase.owns = false) : guard.window = false := by
  cases hwindow : guard.window with
  | false => rfl
  | true =>
      have hheld := hsteady.window hwindow
      rw [howns] at hheld
      cases hheld

/-- A process that has no mutex has no window either. -/
theorem without (hsteady : Steady guard) (howns : guard.phase.owns = false)
    (phase : Phase) (hphase : phase.owns = false) (halive : phase ≠ .crashed)
    (hcarries : ∀ launch, phase = .finds launch ∨
      (∃ attempts, phase = .forwards launch attempts) → Carried launch)
    (hnext : next.phase = phase) (hwindow : next.window = guard.window)
    (hsettled : next.settled = guard.settled) : Steady next where
  phase := by
    intro hheld
    rw [hnext, hphase] at hheld
    cases hheld
  alive := by
    rw [hnext]
    exact halive
  window := by
    intro hshown
    rw [hwindow, hsteady.window_eq_false howns] at hshown
    cases hshown
  taken := by
    rw [hsettled]
    exact hsteady.taken
  carries := by
    rw [hnext]
    exact hcarries

/-- The mutex stays with the process that has it. -/
theorem within {phase : Phase} (hphase : phase = .opens ∨ phase = .primary)
    (hnext : next.phase = phase)
    (htaken : ∀ entry ∈ next.settled, entry.2 = true) : Steady next where
  phase := by
    intro _
    rw [hnext]
    exact hphase
  alive := by
    rw [hnext]
    rcases hphase with rfl | rfl <;> simp
  window := by
    intro _
    rw [hnext]
    rcases hphase with rfl | rfl <;> rfl
  taken := htaken
  carries := by
    intro launch hlaunch
    rw [hnext] at hlaunch
    rcases hphase with rfl | rfl <;> simp at hlaunch

theorem ready_carries (launch : ForwardedLaunch)
    (hlaunch : Phase.ready = .finds launch ∨
      ∃ attempts, Phase.ready = .forwards launch attempts) :
    Carried launch := by
  simp at hlaunch

theorem taken_of_take (hsteady : Steady guard)
    (htake : guard.take = some next) :
    next.phase = guard.phase ∧ ∀ entry ∈ next.settled, entry.2 = true := by
  unfold Guard.take at htake
  cases hqueue : guard.queue with
  | nil =>
      rw [hqueue] at htake
      cases htake
  | cons payload queue =>
      rw [hqueue] at htake
      cases htake
      refine ⟨rfl, ?_⟩
      intro entry hentry
      rcases List.mem_append.mp hentry with hold | hnew
      · exact hsteady.taken entry hold
      · rw [List.mem_singleton.mp hnew]

theorem act (hsteady : Steady guard) (hstays : event.Stays)
    (hact : world.act guard event = some next) :
    Steady next ∧ next.phase.owns = guard.phase.owns := by
  cases event with
  | starts => cases hact
  | claims process launch => cases hact
  | sends process host received answered => cases hact
  | refuses process =>
      simp only [World.act] at hact
      split at hact
      · next hphase =>
          cases hact
          have howns : guard.phase.owns = false := by
            rw [hphase]
            rfl
          refine ⟨?_, howns.symm⟩
          exact hsteady.without howns .ready rfl (by simp)
            ready_carries rfl rfl rfl
      · cases hact
  | shows process =>
      simp only [World.act] at hact
      split at hact
      · next hshows =>
          cases hact
          refine ⟨?_, rfl⟩
          exact within (Or.inl rfl) hshows.1 hsteady.taken
      · cases hact
  | opens process opened =>
      simp only [World.act] at hact
      split at hact
      · next hphase =>
          split at hact
          · cases hact
            refine ⟨within (Or.inr rfl) rfl hsteady.taken, ?_⟩
            rw [hphase]
            rfl
          · cases hact
      · cases hstays
      · cases hact
  | frees process =>
      simp only [World.act] at hact
      split at hact
      · next hphase =>
          have hheld := hsteady.phase (by rw [hphase]; rfl)
          rw [hphase] at hheld
          simp at hheld
      · next hphase =>
          have hheld := hsteady.phase (by rw [hphase]; rfl)
          rw [hphase] at hheld
          simp at hheld
      · cases hact
  | forwards process =>
      simp only [World.act] at hact
      split at hact
      · next launch hphase =>
          cases hact
          have howns : guard.phase.owns = false := by
            rw [hphase]
            rfl
          refine ⟨?_, howns.symm⟩
          refine hsteady.without howns (.forwards launch forwardAttempts) rfl
            (by simp) ?_ rfl rfl rfl
          intro other hother
          apply hsteady.carries
          simp only [reduceCtorEq, Phase.forwards.injEq, false_or] at hother
          rcases hother with ⟨attempts, rfl, -⟩
          exact Or.inl hphase
      · cases hact
  | misses process =>
      simp only [World.act] at hact
      split at hact
      · next launch attempts hphase =>
          split at hact
          · cases hact
          · cases hact
            have howns : guard.phase.owns = false := by
              rw [hphase]
              rfl
            refine ⟨?_, howns.symm⟩
            refine hsteady.without howns (.forwards launch attempts) rfl
              (by simp) ?_ rfl rfl rfl
            intro other hother
            apply hsteady.carries
            simp only [reduceCtorEq, Phase.forwards.injEq, false_or] at hother
            rcases hother with ⟨rest, rfl, -⟩
            exact Or.inr ⟨_, hphase⟩
      · next launch hphase =>
          cases hact
          have howns : guard.phase.owns = false := by
            rw [hphase]
            rfl
          refine ⟨?_, howns.symm⟩
          exact hsteady.without howns .ready rfl (by simp)
            ready_carries rfl rfl rfl
      · cases hact
  | takes process =>
      simp only [World.act] at hact
      split at hact
      · next hphase =>
          rcases hsteady.taken_of_take hact with ⟨hsame, htaken⟩
          refine ⟨within (Or.inr rfl) (hsame.trans hphase) htaken, ?_⟩
          rw [hsame]
      · cases hact
  | releases process => cases hstays
  | hides process =>
      simp only [World.act] at hact
      split at hact
      · next hhides =>
          rcases hsteady.phase (hsteady.window hhides.1) with hopens | hprimary
          · exact absurd hopens hhides.2.1
          · exact absurd hprimary hhides.2.2
      · cases hact
  | empties process =>
      simp only [World.act] at hact
      split at hact
      · next hphase =>
          have hheld := hsteady.phase (by rw [hphase]; rfl)
          rw [hphase] at hheld
          simp at hheld
      · cases hact
  | crashes process => cases hstays

end Steady

namespace Gathered

variable {world later : World} {process : Nat} {guard next : Guard}
  {event : Event}

theorem start : Gathered .start where
  steady := by
    intro guard hguard
    cases hguard
  hosts := by
    intro delivery hdelivery
    cases hdelivery

theorem set (hgathered : Gathered world)
    (hguard : world.guards[process]? = some guard) (hsteady : Steady next)
    (howns : guard.phase.owns = true → next.phase.owns = true) :
    Gathered (world.set process next) where
  steady := by
    intro other hother
    rcases List.mem_or_eq_of_mem_set hother with hold | rfl
    · exact hgathered.steady other hold
    · exact hsteady
  hosts := by
    intro delivery hdelivery
    rcases hgathered.hosts delivery hdelivery with
      ⟨hcarried, host, hhost, hheld⟩
    refine ⟨hcarried, ?_⟩
    by_cases hsame : process = delivery.host
    · have hlt := (List.getElem?_eq_some_iff.mp hguard).1
      rw [← hsame, hguard, Option.some.injEq] at hhost
      rw [← hhost] at hheld
      refine ⟨next, ?_, howns hheld⟩
      rw [← hsame, World.set, List.getElem?_set_self hlt]
    · refine ⟨host, ?_, hheld⟩
      rw [World.set, List.getElem?_set_ne hsame]
      exact hhost

theorem starts (hgathered : Gathered world) :
    Gathered { world with guards := world.guards ++ [.start] } where
  steady := by
    intro guard hguard
    rcases List.mem_append.mp hguard with hold | hnew
    · exact hgathered.steady guard hold
    · rw [List.mem_singleton.mp hnew]
      constructor <;> simp [Guard.start, Phase.owns]
  hosts := by
    intro delivery hdelivery
    rcases hgathered.hosts delivery hdelivery with
      ⟨hcarried, host, hhost, hheld⟩
    refine ⟨hcarried, host, ?_, hheld⟩
    have hlt := (List.getElem?_eq_some_iff.mp hhost).1
    rw [List.getElem?_append_left hlt]
    exact hhost

theorem claim (hgathered : Gathered world)
    (hguard : world.guards[process]? = some guard) {launch : ForwardedLaunch}
    (hcarried : Carried launch)
    (hclaim : world.claim process guard launch = some later) :
    Gathered later := by
  have hsteady := hgathered.steady guard (List.mem_of_getElem? hguard)
  unfold World.claim at hclaim
  split at hclaim
  · next hphase =>
      cases hclaim
      apply hgathered.set hguard
      · exact Steady.within (Or.inr rfl) rfl hsteady.taken
      · intro _
        rfl
  · next hphase =>
      have howns : guard.phase.owns = false := by
        rw [hphase]
        rfl
      split at hclaim
      · cases hclaim
      · split at hclaim
        · cases hclaim
          apply hgathered.set hguard
          · exact Steady.within (Or.inl rfl) rfl hsteady.taken
          · intro _
            rfl
        · cases hclaim
          apply hgathered.set hguard
          · refine hsteady.without howns (.finds launch) rfl (by simp) ?_ rfl
              rfl rfl
            intro other hother
            simp only [Phase.finds.injEq, reduceCtorEq, exists_false,
              or_false] at hother
            rw [← hother]
            exact hcarried
          · intro hheld
            rw [howns] at hheld
            cases hheld
  · cases hclaim

theorem receive (hgathered : Gathered world) {host : Nat} {target : Guard}
    (hhost : world.guards[host]? = some target)
    (howns : target.phase.owns = true) {launch : ForwardedLaunch}
    (hcarried : Carried launch) (answered : Bool) :
    Gathered (world.send process host launch answered) where
  steady := by
    intro found hfound
    rcases List.getElem?_of_mem hfound with ⟨place, hplace⟩
    rw [World.send, List.getElem?_modify] at hplace
    rcases Option.map_eq_some_iff.mp hplace with ⟨old, hold, hmodified⟩
    have hsteady := hgathered.steady old (List.mem_of_getElem? hold)
    rw [← hmodified]
    split
    · exact ⟨hsteady.phase, hsteady.alive, hsteady.window, hsteady.taken,
        hsteady.carries⟩
    · exact hsteady
  hosts := by
    have hstays : ∀ (place : Nat) (guard : Guard),
        world.guards[place]? = some guard → guard.phase.owns = true →
        ∃ found : Guard,
          (world.send process host launch answered).guards[place]? =
            some found ∧ found.phase.owns = true := by
      intro place guard hguard hheld
      refine ⟨if host = place then guard.receive (payloadOf launch) else guard,
        ?_, ?_⟩
      · rw [World.send, List.getElem?_modify, hguard]
        rfl
      · split <;> exact hheld
    intro delivery hdelivery
    rcases List.mem_append.mp hdelivery with hold | hnew
    · rcases hgathered.hosts delivery hold with ⟨hcarries, guard, hguard, hheld⟩
      exact ⟨hcarries, hstays _ guard hguard hheld⟩
    · rw [List.mem_singleton.mp hnew]
      exact ⟨hcarried, hstays host target hhost howns⟩

theorem deliver (hgathered : Gathered world)
    (hguard : world.guards[process]? = some guard) {host : Nat}
    {target : Guard} (hhost : world.guards[host]? = some target)
    {received answered : Bool}
    (hdeliver : world.deliver process host guard target received answered =
      some later) : Gathered later := by
  have hsteady := hgathered.steady guard (List.mem_of_getElem? hguard)
  have htarget := hgathered.steady target (List.mem_of_getElem? hhost)
  unfold World.deliver at hdeliver
  split at hdeliver
  · next launch attempts hphase =>
      have howns : guard.phase.owns = false := by
        rw [hphase]
        rfl
      have hcarried := hsteady.carries launch (Or.inr ⟨_, hphase⟩)
      have htold : ∀ verdict, Gathered (world.set process
          (guard.told verdict .ready)) := by
        intro verdict
        apply hgathered.set hguard
        · exact hsteady.without howns .ready rfl (by simp)
            Steady.ready_carries rfl rfl rfl
        · intro hheld
          rw [howns] at hheld
          cases hheld
      split at hdeliver
      · next hwindow =>
          have hheld := htarget.window hwindow
          have hother : process ≠ host := by
            intro hsame
            rw [hsame, hhost, Option.some.injEq] at hguard
            rw [← hguard, hheld] at howns
            cases howns
          have hfound : ∀ verdict, (world.set process
              (guard.told verdict .ready)).guards[host]? = some target := by
            intro verdict
            rw [World.set, List.getElem?_set_ne hother]
            exact hhost
          cases received <;> cases answered <;> cases hdeliver
          · exact htold _
          · exact (htold _).receive (hfound _) hheld hcarried false
          · exact (htold _).receive (hfound _) hheld hcarried true
      · cases hdeliver
  · cases hdeliver

theorem step (hgathered : Gathered world) (hstays : event.Stays)
    (hstep : world.step event = some later) : Gathered later := by
  unfold World.step at hstep
  split at hstep
  · cases hstep
    exact hgathered.starts
  · rcases Option.bind_eq_some_iff.mp hstep with ⟨guard, hguard, hclaim⟩
    exact hgathered.claim hguard (carried_of_stays hstays) hclaim
  · rcases Option.bind_eq_some_iff.mp hstep with ⟨guard, hguard, hrest⟩
    rcases Option.bind_eq_some_iff.mp hrest with ⟨target, htarget, hdeliver⟩
    exact hgathered.deliver hguard htarget hdeliver
  · rcases Option.bind_eq_some_iff.mp hstep with ⟨guard, hguard, hrest⟩
    rcases Option.bind_eq_some_iff.mp hrest with ⟨next, hact, hset⟩
    cases hset
    have hsteady := hgathered.steady guard (List.mem_of_getElem? hguard)
    rcases hsteady.act hstays hact with ⟨hnext, howns⟩
    apply hgathered.set hguard hnext
    intro hheld
    rw [howns]
    exact hheld

end Gathered

theorem gathered_of_run {events : List Event} {world : World}
    (hstays : ∀ event ∈ events, event.Stays)
    (hrun : run World.step .start events = some world) : Gathered world := by
  induction events using List.reverseRecOn generalizing world with
  | nil =>
      cases hrun
      exact Gathered.start
  | append_singleton events event ih =>
      rcases run_concat.mp hrun with ⟨before, hbefore, hstep⟩
      have hbeforeStays : ∀ event ∈ events, event.Stays := by
        intro event hevent
        exact hstays event (List.mem_append_left _ hevent)
      exact (ih hbeforeStays hbefore).step
        (hstays event (List.mem_append_right _ List.mem_cons_self)) hstep

end Dovetail.Instance.Windows
