import Dovetail.TransitionRun

/-!
# Machines that are spawned while others run

A family of machines, each with parameters of its own.  Members are spawned
one after another, and in between any of them may take a step.  However the
steps interleave, every member has made the run of its own events.
-/

namespace SpawnedMachines

open TransitionRun

variable {Parameters State Event : Type*}

structure Family (Parameters State Event : Type*) where
  start : Parameters → State
  act : Parameters → State → Event → Option State

inductive Turn (Parameters Event : Type*) where
  | spawns (parameters : Parameters)
  | moves (member : Nat) (event : Event)

def Turn.spawned? : Turn Parameters Event → Option Parameters
  | .spawns parameters => some parameters
  | .moves _ _ => none

/-- The event of a turn that is a member's own. -/
def Turn.own? (member : Nat) : Turn Parameters Event → Option Event
  | .spawns _ => none
  | .moves other event => if other = member then some event else none

def spawned (turns : List (Turn Parameters Event)) : List Parameters :=
  turns.filterMap Turn.spawned?

def eventsOf (member : Nat) (turns : List (Turn Parameters Event)) :
    List Event :=
  turns.filterMap (Turn.own? member)

namespace Family

variable (family : Family Parameters State Event)

def move (members : List (Parameters × State)) (member : Nat)
    (event : Event) : Option (List (Parameters × State)) :=
  members[member]?.bind fun (parameters, state) =>
    (family.act parameters state event).map fun next =>
      members.set member (parameters, next)

def step (members : List (Parameters × State)) :
    Turn Parameters Event → Option (List (Parameters × State))
  | .spawns parameters =>
      some (members ++ [(parameters, family.start parameters)])
  | .moves member event => family.move members member event

/-! ## What the members are after a run -/

/-- The members are those that were spawned, each after its own events, and
nobody else was given an event. -/
structure Separate (turns : List (Turn Parameters Event))
    (members : List (Parameters × State)) : Prop where
  spawned : members.map Prod.fst = spawned turns
  runs : ∀ member parameters state,
    members[member]? = some (parameters, state) →
      run (family.act parameters) (family.start parameters)
        (eventsOf member turns) = some state
  silent : ∀ member, members.length ≤ member → eventsOf member turns = []

variable {family} {turns : List (Turn Parameters Event)}
  {members later : List (Parameters × State)}

theorem separate_nil :
    family.Separate ([] : List (Turn Parameters Event)) [] := by
  constructor
  case spawned =>
    rfl
  case runs =>
    intro member parameters state hmember
    cases hmember
  case silent =>
    intro member _
    rfl

theorem eventsOf_spawns (member : Nat) (parameters : Parameters) :
    eventsOf member (turns ++ [.spawns parameters]) =
      eventsOf member turns := by
  simp [eventsOf, Turn.own?]

theorem eventsOf_moves_self (member : Nat) (event : Event) :
    eventsOf member (turns ++ [.moves member event]) =
      eventsOf member turns ++ [event] := by
  simp [eventsOf, Turn.own?]

theorem eventsOf_moves_of_ne {member other : Nat} (hother : other ≠ member)
    (event : Event) :
    eventsOf member (turns ++ [.moves other event]) =
      eventsOf member turns := by
  simp [eventsOf, Turn.own?, hother]

theorem Separate.spawns (hseparate : family.Separate turns members)
    (parameters : Parameters) :
    family.Separate (turns ++ [.spawns parameters])
      (members ++ [(parameters, family.start parameters)]) := by
  constructor
  case spawned =>
    rw [List.map_append, hseparate.spawned]
    simp [SpawnedMachines.spawned, Turn.spawned?]
  case runs =>
    intro member found state hmember
    rw [eventsOf_spawns]
    by_cases hold : member < members.length
    · rw [List.getElem?_append_left hold] at hmember
      exact hseparate.runs member found state hmember
    · have hnew : members.length ≤ member := Nat.le_of_not_lt hold
      rw [List.getElem?_append_right hnew,
        List.getElem?_singleton] at hmember
      split at hmember
      · cases hmember
        rw [hseparate.silent member hnew]
        rfl
      · cases hmember
  case silent =>
    intro member hmember
    rw [eventsOf_spawns]
    apply hseparate.silent
    rw [List.length_append] at hmember
    omega

theorem move_eq_some {member : Nat} {event : Event}
    (hmove : family.move members member event = some later) :
    ∃ parameters state next, members[member]? = some (parameters, state) ∧
      family.act parameters state event = some next ∧
      later = members.set member (parameters, next) := by
  rcases Option.bind_eq_some_iff.mp hmove with
    ⟨⟨parameters, state⟩, hmember, hrest⟩
  rcases Option.map_eq_some_iff.mp hrest with ⟨next, hnext, hlater⟩
  exact ⟨parameters, state, next, hmember, hnext, hlater.symm⟩

theorem Separate.moves (hseparate : family.Separate turns members)
    {member : Nat} {event : Event}
    (hmove : family.move members member event = some later) :
    family.Separate (turns ++ [.moves member event]) later := by
  rcases move_eq_some hmove with
    ⟨parameters, state, next, hmember, hnext, hlater⟩
  have hbound : member < members.length :=
    (List.getElem?_eq_some_iff.mp hmember).1
  subst hlater
  constructor
  case spawned =>
    have hfound : (members.map Prod.fst)[member]? = some parameters := by
      rw [List.getElem?_map, hmember]
      rfl
    rcases List.getElem?_eq_some_iff.mp hfound with ⟨hlt, hsame⟩
    have hkept : (members.map Prod.fst).set member parameters =
        members.map Prod.fst := by
      rw [← hsame]
      exact List.set_getElem_self hlt
    rw [List.map_set, hkept, hseparate.spawned]
    simp [SpawnedMachines.spawned, Turn.spawned?]
  case runs =>
    intro other found after hother
    by_cases hsame : member = other
    · subst hsame
      rw [List.getElem?_set_self hbound] at hother
      cases hother
      rw [eventsOf_moves_self]
      exact run_concat.mpr ⟨state, hseparate.runs _ _ _ hmember, hnext⟩
    · rw [List.getElem?_set_ne hsame] at hother
      rw [eventsOf_moves_of_ne hsame]
      exact hseparate.runs other found after hother
  case silent =>
    intro other hother
    rw [List.length_set] at hother
    rw [eventsOf_moves_of_ne (Nat.ne_of_lt (hbound.trans_le hother))]
    exact hseparate.silent other hother

/-- However the turns interleave, each member has made the run of its own
events. -/
theorem separate_of_run
    (hrun : run family.step [] turns = some members) :
    family.Separate turns members := by
  induction turns using List.reverseRecOn generalizing members with
  | nil =>
      cases hrun
      exact separate_nil
  | append_singleton turns turn ih =>
      rcases run_concat.mp hrun with ⟨before, hbefore, hstep⟩
      cases turn with
      | spawns parameters =>
          cases hstep
          exact (ih hbefore).spawns parameters
      | moves member event => exact (ih hbefore).moves hstep

end Family

end SpawnedMachines
