import Mathlib.Tactic

/-!
# Runs of a deterministic machine

A machine is a partial step function on states and events.  Its run on a
list of events is the state the last of them leads to, when every step was
possible.  What one step preserves holds along every run, and what a run
leaves behind can be read off its last step.
-/

namespace TransitionRun

variable {State Event Entry : Type*}

/-- The state the events lead to from the start. -/
def run (step : State → Event → Option State) (start : State)
    (events : List Event) : Option State :=
  events.foldlM step start

variable {step : State → Event → Option State} {start : State}

@[simp] theorem run_nil : run step start [] = some start := rfl

@[simp] theorem run_cons (event : Event) (events : List Event) :
    run step start (event :: events) =
      (step start event).bind fun next => run step next events := rfl

/-- A run continues where the one before it stopped. -/
theorem run_append_of_eq_some {before : List Event} {state : State}
    (hbefore : run step start before = some state) (after : List Event) :
    run step start (before ++ after) = run step state after := by
  unfold run at *
  simp [List.foldlM_append, hbefore]

theorem run_concat {events : List Event} {event : Event} {next : State} :
    run step start (events ++ [event]) = some next ↔
      ∃ state, run step start events = some state ∧
        step state event = some next := by
  simp [run, List.foldlM_append, Option.bind_eq_some_iff]

/-- What holds at the start and is preserved by every step holds after every
run. -/
theorem run_invariant {P : State → Prop} (hstart : P start)
    (hstep : ∀ state event next, P state →
      step state event = some next → P next)
    {events : List Event} {state : State}
    (hrun : run step start events = some state) : P state := by
  induction events using List.reverseRecOn generalizing state with
  | nil =>
      cases hrun
      exact hstart
  | append_singleton events event ih =>
      obtain ⟨previous, hprevious, hlast⟩ := run_concat.mp hrun
      exact hstep previous event state (ih hprevious) hlast

/-- Every step of the run, taken from the state it is taken in, meets the
condition. -/
def EveryStep (step : State → Event → Option State) (start : State)
    (condition : State → Event → Prop) (events : List Event) : Prop :=
  ∀ before event after state, events = before ++ event :: after →
    run step start before = some state → condition state event

@[simp] theorem everyStep_nil {condition : State → Event → Prop} :
    EveryStep step start condition [] := by
  intro before event after state hevents
  simp at hevents

/-! ## Splitting at an entry -/

/-- An entry of an extended transcript is an old one or the new one. -/
theorem snoc_eq_append_cons {old before after : List Entry}
    {entry found : Entry} :
    old ++ [entry] = before ++ found :: after ↔
      (after = [] ∧ before = old ∧ found = entry) ∨
        ∃ rest, after = rest ++ [entry] ∧ old = before ++ found :: rest := by
  constructor
  · intro heq
    cases after using List.reverseRecOn with
    | nil =>
        obtain ⟨hold, hentry⟩ := List.append_inj' heq rfl
        exact Or.inl ⟨rfl, hold.symm, (List.cons.inj hentry).1.symm⟩
    | append_singleton rest last =>
        have hsplit : old ++ [entry] = (before ++ found :: rest) ++ [last] := by
          simpa using heq
        obtain ⟨hold, hentry⟩ := List.append_inj' hsplit rfl
        exact Or.inr ⟨rest, by rw [(List.cons.inj hentry).1], hold⟩
  · rintro (⟨rfl, rfl, rfl⟩ | ⟨rest, rfl, rfl⟩)
    · rfl
    · simp

/-- Every entry of a transcript and what precedes it meet the condition. -/
def Preceded (condition : List Entry → Entry → Prop)
    (transcript : List Entry) : Prop :=
  ∀ before entry after, transcript = before ++ entry :: after →
    condition before entry

section

variable {condition : List Entry → Entry → Prop}

@[simp] theorem preceded_nil : Preceded condition [] := by
  intro before entry after hnil
  simp at hnil

@[simp] theorem preceded_concat {transcript : List Entry} {entry : Entry} :
    Preceded condition (transcript ++ [entry]) ↔
      Preceded condition transcript ∧ condition transcript entry := by
  constructor
  · intro hpreceded
    refine ⟨?_, hpreceded transcript entry [] rfl⟩
    intro before found after hsplit
    exact hpreceded before found (after ++ [entry]) (by simp [hsplit])
  · rintro ⟨hpreceded, hlast⟩ before found after hsplit
    rcases snoc_eq_append_cons.mp hsplit with
      ⟨-, rfl, rfl⟩ | ⟨rest, -, hold⟩
    · exact hlast
    · exact hpreceded before found rest hold

/-- Entries that ask for nothing may follow any transcript. -/
theorem Preceded.append_of_forall {transcript : List Entry}
    (hpreceded : Preceded condition transcript) :
    ∀ entries : List Entry,
      (∀ entry ∈ entries, ∀ before, condition before entry) →
        Preceded condition (transcript ++ entries)
  | [], _ => by simpa using hpreceded
  | entry :: rest, hfree => by
      have hnext : Preceded condition (transcript ++ [entry]) :=
        preceded_concat.mpr ⟨hpreceded, hfree entry (by simp) transcript⟩
      have hrest := hnext.append_of_forall rest fun found hfound =>
        hfree found (List.mem_cons_of_mem entry hfound)
      simpa using hrest

end

/-- A condition on every step of a run is one on the run so far and one on
its last step. -/
theorem everyStep_concat {condition : State → Event → Prop}
    {events : List Event} {event : Event} {state : State}
    (hrun : run step start events = some state) :
    EveryStep step start condition (events ++ [event]) ↔
      EveryStep step start condition events ∧ condition state event := by
  constructor
  · intro hevery
    refine ⟨?_, hevery events event [] state rfl hrun⟩
    intro before found after reached hevents hreached
    exact hevery before found (after ++ [event]) reached
      (by simp [hevents]) hreached
  · rintro ⟨hevery, hlast⟩ before found after reached hevents hreached
    rcases snoc_eq_append_cons.mp hevents with
      ⟨-, rfl, rfl⟩ | ⟨rest, -, hold⟩
    · obtain rfl : state = reached := by simpa [hrun] using hreached
      exact hlast
    · exact hevery before found rest reached hold hreached

theorem everyStep_cons {condition : State → Event → Prop}
    {event : Event} {events : List Event} {next : State}
    (hnext : step start event = some next) :
    EveryStep step start condition (event :: events) ↔
      condition start event ∧ EveryStep step next condition events := by
  constructor
  · intro hevery
    refine ⟨hevery [] event events start rfl rfl, ?_⟩
    intro before found after state hevents hstate
    exact hevery (event :: before) found after state (by simp [hevents])
      (by simpa [hnext] using hstate)
  · rintro ⟨hfirst, hrest⟩ before found after state hevents hstate
    cases before with
    | nil =>
        obtain ⟨rfl, -⟩ := List.cons.inj hevents
        obtain rfl : start = state := Option.some.inj hstate
        exact hfirst
    | cons head before =>
        obtain ⟨rfl, htail⟩ := List.cons.inj hevents
        exact hrest before found after state htail
          (by simpa [hnext] using hstate)

theorem EveryStep.of_append {condition : State → Event → Prop}
    {before after : List Event}
    (hevery : EveryStep step start condition (before ++ after)) :
    EveryStep step start condition before := by
  intro first event rest state hbefore hstate
  exact hevery first event (rest ++ after) state (by simp [hbefore]) hstate

/-- What holds at the start and after every step. -/
def Throughout (step : State → Event → Option State) (start : State)
    (P : State → Prop) (events : List Event) : Prop :=
  ∀ before after state, events = before ++ after →
    run step start before = some state → P state

/-- Where a step leaves a property exactly under a condition, the property
holds throughout a run exactly when every step meets the condition. -/
theorem throughout_iff_everyStep {P : State → Prop}
    {condition : State → Event → Prop} (hstart : P start)
    (htotal : ∀ state event, ∃ next, step state event = some next)
    (hstep : ∀ state event next, P state → step state event = some next →
      (P next ↔ condition state event)) (events : List Event) :
    Throughout step start P events ↔
      EveryStep step start condition events := by
  constructor
  · intro hall before event after state hevents hstate
    have hholds := hall before (event :: after) state hevents hstate
    obtain ⟨next, hnext⟩ := htotal state event
    have hreached : run step start (before ++ [event]) = some next :=
      run_concat.mpr ⟨state, hstate, hnext⟩
    have hafter := hall (before ++ [event]) after next (by simp [hevents])
      hreached
    exact (hstep state event next hholds hnext).mp hafter
  · rintro hevery before after state rfl hstate
    have hbefore := hevery.of_append
    clear hevery
    induction before using List.reverseRecOn generalizing state with
    | nil =>
        cases hstate
        exact hstart
    | append_singleton before event ih =>
        obtain ⟨previous, hprevious, hlast⟩ := run_concat.mp hstate
        obtain ⟨hbefore, hcondition⟩ := (everyStep_concat hprevious).mp hbefore
        have hholds := ih previous hprevious hbefore
        exact (hstep previous event state hholds hlast).mpr hcondition

/-- What holds at the start and outlives every step that meets the condition
holds after a run whose steps all meet it. -/
theorem EveryStep.invariant {invariant : State → Prop}
    {condition : State → Event → Prop} (hstart : invariant start)
    (hkeeps : ∀ state event next, invariant state → condition state event →
      step state event = some next → invariant next)
    {events : List Event} {state : State}
    (hevery : EveryStep step start condition events)
    (hrun : run step start events = some state) : invariant state := by
  induction events using List.reverseRecOn generalizing state with
  | nil =>
      cases hrun
      exact hstart
  | append_singleton events event ih =>
      obtain ⟨previous, hprevious, hlast⟩ := run_concat.mp hrun
      obtain ⟨hbefore, hcondition⟩ := (everyStep_concat hprevious).mp hevery
      exact hkeeps previous event state (ih hbefore hprevious) hcondition hlast

/-- Where an invariant outlives exactly the steps that meet a condition, and a
step that does not meet it breaks the property at once, the property holds
throughout a run exactly when every step meets the condition. -/
theorem throughout_iff_everyStep_of_run {P invariant : State → Prop}
    {condition : State → Event → Prop} (hstart : invariant start)
    (hholds : ∀ state, invariant state → P state)
    (hkeeps : ∀ state event next, invariant state → condition state event →
      step state event = some next → invariant next)
    (hbreaks : ∀ state event next, invariant state →
      ¬ condition state event → step state event = some next → ¬ P next)
    {events : List Event} {final : State}
    (hrun : run step start events = some final) :
    Throughout step start P events ↔
      EveryStep step start condition events := by
  constructor
  · intro hall
    induction events using List.reverseRecOn generalizing final with
    | nil => exact everyStep_nil
    | append_singleton events event ih =>
        obtain ⟨previous, hprevious, hlast⟩ := run_concat.mp hrun
        have hbefore := ih hprevious fun before after state hevents =>
          hall before (after ++ [event]) state (by simp [hevents])
        refine (everyStep_concat hprevious).mpr ⟨hbefore, ?_⟩
        by_contra hnot
        exact hbreaks previous event final
          (hbefore.invariant hstart hkeeps hprevious) hnot hlast
          (hall (events ++ [event]) [] final (by simp) hrun)
  · rintro hevery before after state rfl hstate
    exact hholds state (hevery.of_append.invariant hstart hkeeps hstate)

end TransitionRun
