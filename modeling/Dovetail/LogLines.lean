import Dovetail.EventPump

/-!
# The lines of the log

`log_lines` makes a subscriber the default of the process, which writes every
event of `tracing` that is loud enough as a line to one channel, and gives
each caller a receiver of it.  A pump that falls behind warns through
`tracing` as well, so its warning is a line of the channel it reads.
-/

namespace Dovetail.Pumps

open BroadcastChannel CodeUnits TransitionRun

/-! ## Lines -/

inductive Level where
  | error
  | warn
  | info
  | debug
  | trace
  deriving DecidableEq

namespace Level

/-- What is louder is less verbose. -/
def verbosity : Level → Nat
  | error => 0
  | warn => 1
  | info => 2
  | debug => 3
  | trace => 4

def name : Level → Text
  | error => text "ERROR"
  | warn => text "WARN"
  | info => text "INFO"
  | debug => text "DEBUG"
  | trace => text "TRACE"

end Level

/-- A field with its value as it is written: a text as it stands, anything
else as it is debugged. -/
structure Field where
  name : Text
  value : Text
  deriving DecidableEq

structure LogEvent where
  level : Level
  target : Text
  fields : List Field

structure Line where
  message : Text
  fields : Text

namespace Line

def record (line : Line) (field : Field) : Line :=
  if field.name = text "message" then
    { line with message := line.message ++ field.value }
  else
    { line with
      fields := line.fields ++ text " " ++ field.name ++ text "=" ++
        field.value }

end Line

structure LineSubscriber where
  maxLevel : Level

namespace LineSubscriber

def enabled (subscriber : LineSubscriber) (event : LogEvent) : Bool :=
  event.level.verbosity ≤ subscriber.maxLevel.verbosity

def line (event : LogEvent) : Text :=
  let line := event.fields.foldl Line.record { message := [], fields := [] }
  event.level.name ++ text " " ++ event.target ++ text ": " ++ line.message ++
    line.fields

end LineSubscriber

/-- The warning of a pump that has missed so many events. -/
def lagWarning (missed : Nat) : LogEvent where
  level := .warn
  target := text "dovetail_rust_core::data::event_pump"
  fields :=
    [{ name := text "message", value := text "event pump lagged; resuming" },
      { name := text "lost", value := text (toString missed) }]

/-! ## The process -/

/-- What `log_lines` has found, once it was called, and the pumps over its
receivers. -/
inductive LINES where
  | unset
  | unavailable (reason : Text)
  | lines (pumped : Pumped Text)

structure LogProcess where
  /-- Another subscriber is the default. -/
  taken : Bool
  lines : LINES

inductive LogStep where
  /-- Somebody else sets a default subscriber. -/
  | sets
  /-- `log_lines` is called and its receiver pumped. -/
  | subscribes
  | logs (event : LogEvent)
  | turns (index : Nat) (emit : Bool)

namespace LogProcess

def start : LogProcess where
  taken := false
  lines := .unset

def subscriber : LineSubscriber where
  maxLevel := .info

def subscribed (pumped : Pumped Text) : Pumped Text :=
  { pumped with pumps := pumped.pumps ++ [.subscribe pumped.channel] }

def logged (pumped : Pumped Text) (event : LogEvent) : Pumped Text :=
  if subscriber.enabled event then
    pumped.send (LineSubscriber.line event)
  else pumped

/-- What a pump warns of in a turn, if it does. -/
def warned (before after : EventPump Text) : Option LogEvent :=
  if after.lost = before.lost then none
  else after.lost.getLast?.map lagWarning

def turned (pumped : Pumped Text) (index : Nat) (emit : Bool) :
    Option (Pumped Text) := do
  let pump ← pumped.pumps[index]?
  let after ← pump.turn pumped.channel emit
  let gone := { pumped with pumps := pumped.pumps.set index after }
  return ((warned pump after).map (logged gone)).getD gone

def step (process : LogProcess) : LogStep → Option LogProcess
  | .sets =>
      match process.lines with
      | .lines _ => some process
      | _ => some { process with taken := true }
  | .subscribes =>
      match process.lines with
      | .unset =>
          if process.taken then
            some { process with
              lines := .unavailable
                (text "a global default trace dispatcher has already been set") }
          else
            some { process with
              lines := .lines (subscribed (.ofCapacity 1024)) }
      | .unavailable _ => some process
      | .lines pumped =>
          some { process with lines := .lines (subscribed pumped) }
  | .logs event =>
      match process.lines with
      | .lines pumped =>
          some { process with lines := .lines (logged pumped event) }
      | _ => some process
  | .turns index emit =>
      match process.lines with
      | .lines pumped => do
          let pumped ← turned pumped index emit
          return { process with lines := .lines pumped }
      | _ => none

end LogProcess

/-! ## Pumps that are behind -/

open LogProcess

section

variable {pumped later : Pumped Text} {index : Nat} {pump : EventPump Text}

/-- The pump at the index has emitted so much, and what it would read next is
written over. -/
def Behind (pumped : Pumped Text) (index : Nat) (emitted : List Text) : Prop :=
  ∃ pump, pumped.pumps[index]? = some pump ∧ pump.ended = none ∧
    pump.emitted = emitted ∧ pump.next < pumped.channel.oldest

theorem oldest_le_sent (pumped : Pumped Text) (line : Text) :
    pumped.channel.oldest ≤ (pumped.send line).channel.oldest := by
  unfold Pumped.send
  dsimp only
  split
  · exact pumped.channel.oldest_le_send line
  · exact le_rfl

theorem getElem?_send (line : Text) :
    (pumped.send line).pumps[index]? =
      pumped.pumps[index]?.map (·.offer line) :=
  List.getElem?_map

theorem Behind.send {emitted : List Text}
    (hbehind : Behind pumped index emitted) (line : Text) :
    Behind (pumped.send line) index emitted := by
  rcases hbehind with ⟨pump, hpump, hgoing, hemitted, hnext⟩
  refine ⟨pump.offer line, ?_, hgoing, hemitted, ?_⟩
  · rw [getElem?_send, hpump]
    rfl
  · exact hnext.trans_le (oldest_le_sent pumped line)

theorem Behind.logged {emitted : List Text}
    (hbehind : Behind pumped index emitted) (event : LogEvent) :
    Behind (logged pumped event) index emitted := by
  unfold LogProcess.logged
  split
  · exact hbehind.send _
  · exact hbehind

theorem Behind.subscribed {emitted : List Text}
    (hbehind : Behind pumped index emitted) :
    Behind (subscribed pumped) index emitted := by
  rcases hbehind with ⟨pump, hpump, hrest⟩
  refine ⟨pump, ?_, hrest⟩
  have hlt := (List.getElem?_eq_some_iff.mp hpump).1
  show (pumped.pumps ++ [_])[index]? = some pump
  rw [List.getElem?_append_left hlt, hpump]

theorem enabled_lagWarning (missed : Nat) :
    subscriber.enabled (lagWarning missed) = true := rfl

theorem turned_of_value {after : EventPump Text} {emit : Bool}
    (hpump : pumped.pumps[index]? = some pump)
    (hturn : pump.turn pumped.channel emit = some after)
    (hlost : after.lost = pump.lost) :
    turned pumped index emit =
      some { pumped with pumps := pumped.pumps.set index after } := by
  simp [turned, hpump, hturn, warned, hlost]

/-- The warning of a pump is one more line. -/
theorem turned_of_lag {emit : Bool}
    (hpump : pumped.pumps[index]? = some pump) (hgoing : pump.ended = none)
    (hbehind : pump.next < pumped.channel.oldest) :
    turned pumped index emit =
      some (({ pumped with
        pumps := pumped.pumps.set index (pump.resumed pumped.channel) } :
          Pumped Text).send (LineSubscriber.line
            (lagWarning (pumped.channel.oldest - pump.next)))) := by
  have hturn : pump.turn pumped.channel emit = _ :=
    turn_lagged hgoing hbehind
  have hwarned : warned pump (pump.resumed pumped.channel) =
      some (lagWarning (pumped.channel.oldest - pump.next)) := by
    simp [warned, EventPump.resumed]
  simp [turned, hpump, hturn, hwarned, logged, enabled_lagWarning]

/-- The warning of a lag writes over the very line the pump was to go on
with. -/
theorem behind_of_lag {emit : Bool}
    (hpump : pumped.pumps[index]? = some pump) (hgoing : pump.ended = none)
    (hbehind : pump.next < pumped.channel.oldest)
    (hturned : turned pumped index emit = some later) :
    Behind later index pump.emitted := by
  rw [turned_of_lag hpump hgoing hbehind, Option.some.injEq] at hturned
  rw [← hturned]
  have hset : (pumped.pumps.set index (pump.resumed pumped.channel))[index]? =
      some (pump.resumed pumped.channel) :=
    List.getElem?_set_self (List.getElem?_eq_some_iff.mp hpump).1
  have hpumping : (pumped.pumps.set index
      (pump.resumed pumped.channel)).any (·.isPumping) = true := by
    apply List.any_eq_true.mpr
    refine ⟨pump.resumed pumped.channel, List.mem_of_getElem? hset, ?_⟩
    simp [EventPump.isPumping, EventPump.resumed, hgoing]
  refine ⟨(pump.resumed pumped.channel).offer (LineSubscriber.line
    (lagWarning (pumped.channel.oldest - pump.next))), ?_, hgoing, rfl, ?_⟩
  · rw [getElem?_send]
    dsimp only
    rw [hset, Option.map_some]
  · have hfull : 0 < pumped.channel.oldest := Nat.zero_lt_of_lt hbehind
    unfold Pumped.send
    dsimp only
    rw [if_pos hpumping, Channel.oldest_send _ hfull]
    exact Nat.lt_succ_self _

/-- A turn of another pump leaves the pump where it is. -/
theorem Behind.turned_other {emitted : List Text} {other : Nat} {emit : Bool}
    (hbehind : Behind pumped index emitted) (hother : other ≠ index)
    (hturned : turned pumped other emit = some later) :
    Behind later index emitted := by
  rcases Option.bind_eq_some_iff.mp hturned with ⟨turning, -, hrest⟩
  rcases Option.bind_eq_some_iff.mp hrest with ⟨after, -, hlater⟩
  rw [Option.pure_def, Option.some.injEq] at hlater
  have hgone : Behind { pumped with
      pumps := pumped.pumps.set other after } index emitted := by
    rcases hbehind with ⟨pump, hpump, hpumps⟩
    refine ⟨pump, ?_, hpumps⟩
    rw [List.getElem?_set_ne hother]
    exact hpump
  rw [← hlater]
  cases warned turning after with
  | none => exact hgone
  | some warning => exact hgone.logged warning

theorem Behind.turn {emitted : List Text} {other : Nat} {emit : Bool}
    (hbehind : Behind pumped index emitted)
    (hturned : turned pumped other emit = some later) :
    Behind later index emitted := by
  by_cases hother : other = index
  · rcases hbehind with ⟨pump, hpump, hgoing, rfl, hnext⟩
    rw [hother] at hturned
    exact behind_of_lag hpump hgoing hnext hturned
  · exact hbehind.turned_other hother hturned

/-- A pump that is behind never waits: whenever it is given a turn it warns
once more. -/
theorem Behind.turns {emitted : List Text}
    (hbehind : Behind pumped index emitted) (emit : Bool) :
    ∃ after, turned pumped index emit = some after := by
  rcases hbehind with ⟨pump, hpump, hgoing, -, hnext⟩
  exact ⟨_, turned_of_lag hpump hgoing hnext⟩

/-! ## Runs of the process -/

/-- What holds of the pumps of the lines: every pump delivers, none has left a
line out and then emitted another, and one that has lost lines is behind. -/
structure Settled (pumped : Pumped Text) : Prop where
  isOpen : pumped.channel.isOpen = true
  delivering : pumped.Delivering
  unbroken : ∀ pump ∈ pumped.pumps, pump.emitted <+: pump.offered
  behind : ∀ index pump, pumped.pumps[index]? = some pump →
    pump.lost ≠ [] → Behind pumped index pump.emitted

theorem isOpen_send (pumped : Pumped Text) (line : Text) :
    (pumped.send line).channel.isOpen = pumped.channel.isOpen := by
  unfold Pumped.send
  dsimp only
  split <;> rfl

namespace Settled

theorem ofCapacity (capacity : Nat) : Settled (.ofCapacity capacity) where
  isOpen := rfl
  delivering := by
    intro pump hpump
    cases hpump
  unbroken := by
    intro pump hpump
    cases hpump
  behind := by
    intro index pump hpump
    cases hpump

theorem send (hsettled : Settled pumped) (line : Text) :
    Settled (pumped.send line) := by
  have hstep : pumped.step (.sends line) = some (pumped.send line) :=
    if_pos hsettled.isOpen
  constructor
  case isOpen =>
    rw [isOpen_send]
    exact hsettled.isOpen
  case delivering => exact hsettled.delivering.step hstep
  case unbroken =>
    intro offered hoffered
    rcases List.mem_map.mp hoffered with ⟨pump, hpump, rfl⟩
    exact (hsettled.unbroken pump hpump).trans (List.prefix_append _ _)
  case behind =>
    intro index offered hoffered hlost
    rw [getElem?_send] at hoffered
    rcases Option.map_eq_some_iff.mp hoffered with ⟨pump, hpump, rfl⟩
    exact (hsettled.behind index pump hpump hlost).send line

theorem logged (hsettled : Settled pumped) (event : LogEvent) :
    Settled (LogProcess.logged pumped event) := by
  unfold LogProcess.logged
  split
  · exact hsettled.send _
  · exact hsettled

theorem subscribed (hsettled : Settled pumped) :
    Settled (LogProcess.subscribed pumped) := by
  have hstep : pumped.step .subscribes =
      some (LogProcess.subscribed pumped) := rfl
  constructor
  case isOpen => exact hsettled.isOpen
  case delivering => exact hsettled.delivering.step hstep
  case unbroken =>
    intro pump hpump
    rcases List.mem_append.mp hpump with hold | hnew
    · exact hsettled.unbroken pump hold
    · rw [List.mem_singleton.mp hnew]
      exact List.prefix_rfl
  case behind =>
    intro index pump hpump hlost
    have hmem : pump ∈ pumped.pumps := by
      rcases List.mem_append.mp (List.mem_of_getElem? hpump) with hold | hnew
      · exact hold
      · rw [List.mem_singleton.mp hnew] at hlost
        exact absurd rfl hlost
    by_cases hlt : index < pumped.pumps.length
    · have hold : pumped.pumps[index]? = some pump := by
        rw [← hpump]
        exact (List.getElem?_append_left hlt).symm
      exact (hsettled.behind index pump hold hlost).subscribed
    · rw [show (LogProcess.subscribed pumped).pumps = pumped.pumps ++
          [.subscribe pumped.channel] from rfl,
        List.getElem?_append_right (Nat.not_lt.mp hlt)] at hpump
      rw [List.mem_singleton.mp (List.mem_of_getElem? hpump)] at hlost
      exact absurd rfl hlost

/-- A pump that has emitted another event has lost none before. -/
theorem lost_eq_nil (hsettled : Settled pumped)
    (hpump : pumped.pumps[index]? = some pump)
    (hkept : pumped.channel.oldest ≤ pump.next) : pump.lost = [] := by
  by_contra hlost
  rcases hsettled.behind index pump hpump hlost with
    ⟨behind, hbehind, -, -, hnext⟩
  rw [hpump, Option.some.injEq] at hbehind
  rw [← hbehind] at hnext
  exact absurd hkept (Nat.not_le.mpr hnext)

theorem emitting (hsettled : Settled pumped) {emit : Bool}
    {after : EventPump Text} (hpump : pumped.pumps[index]? = some pump)
    (hturn : pump.turn pumped.channel emit = some after)
    (hlost : after.lost = []) :
    Settled { pumped with pumps := pumped.pumps.set index after } := by
  have hdelivers := hsettled.delivering.step (step_turns hpump hturn)
  constructor
  case isOpen => exact hsettled.isOpen
  case delivering => exact hdelivers
  case unbroken =>
    intro other hother
    rcases List.mem_or_eq_of_mem_set hother with hold | rfl
    · exact hsettled.unbroken other hold
    · exact (hdelivers other hother).unbroken hlost
  case behind =>
    intro place other hother hlagged
    by_cases hplace : index = place
    · rw [← hplace, getElem?_after_turn hpump hturn,
        Option.some.injEq] at hother
      rw [← hother] at hlagged
      exact absurd hlost hlagged
    · have hold : pumped.pumps[place]? = some other := by
        rw [← hother]
        exact (List.getElem?_set_ne hplace).symm
      rcases hsettled.behind place other hold hlagged with
        ⟨found, hfound, hrest⟩
      refine ⟨found, ?_, hrest⟩
      rw [← hfound]
      exact List.getElem?_set_ne hplace

theorem warning (hsettled : Settled pumped) {emit : Bool}
    (hpump : pumped.pumps[index]? = some pump) (hgoing : pump.ended = none)
    (hbehind : pump.next < pumped.channel.oldest)
    (hturned : LogProcess.turned pumped index emit = some later) :
    Settled later := by
  have hsent : LogProcess.turned pumped index emit = _ :=
    turned_of_lag hpump hgoing hbehind
  rw [hturned, Option.some.injEq] at hsent
  have hturn : pump.turn pumped.channel emit = _ :=
    turn_lagged hgoing hbehind
  have hresumed := hsettled.delivering.step (step_turns hpump hturn)
  constructor
  case isOpen =>
    rw [hsent, isOpen_send]
    exact hsettled.isOpen
  case delivering =>
    rw [hsent]
    have hstep : Pumped.step { pumped with
        pumps := pumped.pumps.set index (pump.resumed pumped.channel) }
          (.sends (LineSubscriber.line
            (lagWarning (pumped.channel.oldest - pump.next)))) = some _ :=
      if_pos hsettled.isOpen
    exact hresumed.step hstep
  case unbroken =>
    intro offered hoffered
    rw [hsent] at hoffered
    rcases List.mem_map.mp hoffered with ⟨other, hother, rfl⟩
    apply List.IsPrefix.trans _ (List.prefix_append _ _)
    rcases List.mem_or_eq_of_mem_set hother with hold | rfl
    · exact hsettled.unbroken other hold
    · exact hsettled.unbroken pump (List.mem_of_getElem? hpump)
  case behind =>
    intro place offered hoffered hlost
    by_cases hplace : index = place
    · have hnow := behind_of_lag hpump hgoing hbehind hturned
      rw [← hplace] at hoffered ⊢
      rcases hnow with ⟨found, hfound, hstill, hemitted, hnext⟩
      rw [hoffered, Option.some.injEq] at hfound
      rw [← hfound] at hstill hnext
      exact ⟨offered, hoffered, hstill, rfl, hnext⟩
    · have hplaced := hoffered
      rw [hsent, getElem?_send] at hoffered
      rcases Option.map_eq_some_iff.mp hoffered with ⟨other, hother, rfl⟩
      have hold : pumped.pumps[place]? = some other := by
        rw [← hother]
        exact (List.getElem?_set_ne hplace).symm
      exact (hsettled.behind place other hold hlost).turned_other hplace
        hturned

/-- A pump that warns, warns for the first time or once more; any other has
lost nothing. -/
theorem turned (hsettled : Settled pumped) {emit : Bool}
    (hturned : LogProcess.turned pumped index emit = some later) :
    Settled later := by
  rcases Option.bind_eq_some_iff.mp hturned with ⟨pump, hpump, hrest⟩
  rcases Option.bind_eq_some_iff.mp hrest with ⟨after, hturn, -⟩
  rcases EventPump.turn_cases hturn with ⟨hgoing, hcases⟩
  rcases hcases with
    ⟨event, hkept, -, hafter⟩ | ⟨hbehind, -⟩ | ⟨-, hclosed, -⟩
  · have hsame : after.lost = pump.lost := by
      rw [hafter]
    rw [turned_of_value hpump hturn hsame, Option.some.injEq] at hturned
    rw [← hturned]
    apply hsettled.emitting hpump hturn
    rw [hsame]
    exact hsettled.lost_eq_nil hpump hkept
  · exact hsettled.warning hpump hgoing hbehind hturned
  · rw [hsettled.isOpen] at hclosed
    cases hclosed

end Settled

end

/-! ## Runs of the process -/

/-- How the lines of a process change. -/
inductive LineChange (pumped : Pumped Text) : Pumped Text → Prop where
  | same : LineChange pumped pumped
  | subscribed : LineChange pumped (subscribed pumped)
  | logged (event : LogEvent) : LineChange pumped (logged pumped event)
  | turned {index : Nat} {emit : Bool} {later : Pumped Text}
      (hturned : turned pumped index emit = some later) :
      LineChange pumped later

/-- A process finds its lines once, and keeps what it has found. -/
theorem LogProcess.step_cases {process next : LogProcess} {step : LogStep}
    (hstep : process.step step = some next) :
    (process.lines = .unset ∧
        (next.lines = .unset ∨ (∃ reason, next.lines = .unavailable reason) ∨
          next.lines = .lines (subscribed (.ofCapacity 1024)))) ∨
      (∃ reason, process.lines = .unavailable reason ∧
        next.lines = .unavailable reason) ∨
      (∃ pumped later, process.lines = .lines pumped ∧
        next.lines = .lines later ∧ LineChange pumped later) := by
  rcases process with ⟨taken, lines⟩
  cases lines with
  | unset =>
      refine Or.inl ⟨rfl, ?_⟩
      cases step with
      | sets =>
          cases hstep
          exact Or.inl rfl
      | subscribes =>
          cases taken
          · cases hstep
            exact Or.inr (Or.inr rfl)
          · cases hstep
            exact Or.inr (Or.inl ⟨_, rfl⟩)
      | logs event =>
          cases hstep
          exact Or.inl rfl
      | turns index emit => cases hstep
  | unavailable reason =>
      refine Or.inr (Or.inl ⟨reason, rfl, ?_⟩)
      cases step with
      | sets =>
          cases hstep
          rfl
      | subscribes =>
          cases hstep
          rfl
      | logs event =>
          cases hstep
          rfl
      | turns index emit => cases hstep
  | lines pumped =>
      refine Or.inr (Or.inr ⟨pumped, ?_⟩)
      cases step with
      | sets =>
          cases hstep
          exact ⟨pumped, rfl, rfl, .same⟩
      | subscribes =>
          cases hstep
          exact ⟨_, rfl, rfl, .subscribed⟩
      | logs event =>
          cases hstep
          exact ⟨_, rfl, rfl, .logged event⟩
      | turns index emit =>
          rcases Option.bind_eq_some_iff.mp hstep with
            ⟨later, hturned, hnext⟩
          cases hnext
          exact ⟨later, rfl, rfl, .turned hturned⟩

section

variable {pumped later : Pumped Text} {index : Nat} {emitted : List Text}

theorem Settled.change (hsettled : Settled pumped)
    (hchange : LineChange pumped later) : Settled later := by
  cases hchange with
  | same => exact hsettled
  | subscribed => exact hsettled.subscribed
  | logged event => exact hsettled.logged event
  | turned hturned => exact hsettled.turned hturned

theorem Behind.change (hbehind : Behind pumped index emitted)
    (hchange : LineChange pumped later) : Behind later index emitted := by
  cases hchange with
  | same => exact hbehind
  | subscribed => exact hbehind.subscribed
  | logged event => exact hbehind.logged event
  | turned hturned => exact hbehind.turn hturned

theorem settled_of_run {steps : List LogStep} {process : LogProcess}
    (hrun : run LogProcess.step .start steps = some process)
    (hlines : process.lines = .lines pumped) : Settled pumped := by
  revert hlines
  revert pumped
  apply run_invariant _ _ hrun
  · intro pumped hlines
    cases hlines
  · intro state step next hsettled hstep later hlater
    rcases LogProcess.step_cases hstep with
      ⟨-, hnext⟩ | ⟨reason, -, hnext⟩ | ⟨pumped, after, hold, hnew, hchange⟩
    · rcases hnext with hunset | ⟨reason, hunavailable⟩ | hfirst
      · rw [hunset] at hlater
        cases hlater
      · rw [hunavailable] at hlater
        cases hlater
      · rw [hfirst] at hlater
        cases hlater
        exact (Settled.ofCapacity 1024).subscribed
    · rw [hnext] at hlater
      cases hlater
    · rw [hnew] at hlater
      cases hlater
      exact (hsettled hold).change hchange

theorem behind_of_run {steps : List LogStep} {process next : LogProcess}
    (hlines : process.lines = .lines pumped)
    (hbehind : Behind pumped index emitted)
    (hrun : run LogProcess.step process steps = some next) :
    ∃ later, next.lines = .lines later ∧ Behind later index emitted := by
  apply run_invariant _ _ hrun
  · exact ⟨pumped, hlines, hbehind⟩
  · intro state step next hstate hstep
    rcases hstate with ⟨found, hfound, hstill⟩
    rcases LogProcess.step_cases hstep with
      ⟨hunset, -⟩ | ⟨reason, hunavailable, -⟩ | ⟨old, new, hold, hnew, hchange⟩
    · rw [hfound] at hunset
      cases hunset
    · rw [hfound] at hunavailable
      cases hunavailable
    · rw [hfound, LINES.lines.injEq] at hold
      rw [hold] at hstill
      exact ⟨new, hnew, hstill.change hchange⟩

/-- The lines of a process that has written so many lines alike, before the
one pump of them was given a turn. -/
def flooded (event : LogEvent) (count : Nat) : Pumped Text where
  channel :=
    { slots := 1024
      sent := List.replicate count (LineSubscriber.line event)
      isOpen := true }
  pumps :=
    [{ start := 0
       next := 0
       emitted := []
       lost := []
       ended := none
       offered := List.replicate count (LineSubscriber.line event) }]

theorem slots_lines :
    (Channel.ofCapacity 1024 : Channel Text).slots = 1024 := by
  show 2 ^ Nat.clog 2 (2 ^ 10) = 1024
  rw [Nat.clog_pow 2 10 one_lt_two]
  rfl

theorem logged_flooded {event : LogEvent}
    (hloud : subscriber.enabled event = true) (count : Nat) :
    logged (flooded event count) event = flooded event (count + 1) := by
  have hmore : List.replicate count (LineSubscriber.line event) ++
      [LineSubscriber.line event] =
        List.replicate (count + 1) (LineSubscriber.line event) :=
    List.replicate_succ'.symm
  simp [logged, hloud, flooded, Pumped.send, EventPump.offer,
    EventPump.isPumping, Channel.send, hmore]

theorem run_flooded {event : LogEvent}
    (hloud : subscriber.enabled event = true) (count : Nat) :
    run LogProcess.step .start
        (.subscribes :: List.replicate count (.logs event)) =
      some { taken := false, lines := .lines (flooded event count) } := by
  induction count with
  | zero =>
      have hchannel : (Channel.ofCapacity 1024 : Channel Text) =
          { slots := 1024, sent := [], isOpen := true } := by
        rw [← slots_lines]
        rfl
      simp [LogProcess.step, LogProcess.start, subscribed, Pumped.ofCapacity,
        EventPump.subscribe, flooded, hchannel]
  | succ count ih =>
      rw [List.replicate_succ', ← List.cons_append, run_concat]
      refine ⟨_, ih, ?_⟩
      show some _ = some _
      rw [logged_flooded hloud]

/-- One line more than the channel has slots is lost to the pump. -/
theorem turned_flooded (event : LogEvent) (emit : Bool) :
    ∃ later pump, turned (flooded event 1025) 0 emit = some later ∧
      later.pumps[0]? = some pump ∧ pump.emitted = [] ∧ pump.lost = [1] := by
  have holdest : (flooded event 1025).channel.oldest = 1 := by
    show (List.replicate 1025 (LineSubscriber.line event)).length - 1024 = 1
    rw [List.length_replicate]
  have hbehind : 0 < (flooded event 1025).channel.oldest := by
    rw [holdest]
    exact Nat.one_pos
  have hlag : turned (flooded event 1025) 0 emit = _ :=
    turned_of_lag rfl rfl hbehind
  refine ⟨_, _, hlag, rfl, rfl, ?_⟩
  show [(flooded event 1025).channel.oldest - 0] = [1]
  rw [holdest]

def greeting : LogEvent where
  level := .info
  target := text "probe"
  fields := [{ name := text "message", value := text "hello from rust" }]

end

end Dovetail.Pumps
