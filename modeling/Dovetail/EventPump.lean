import Dovetail.BroadcastChannel
import Dovetail.CodeUnits
import Dovetail.TransitionRun

/-!
# Pumps from a channel to their sinks

`pump` hands what it receives to a sink, goes on behind values it has missed,
and ends when the sink takes no more or every sender is gone.  Any number of
pumps read one channel, each at its own pace, while values are sent to it.
-/

namespace Dovetail.Pumps

open BroadcastChannel TransitionRun

variable {T : Type}

/-! ## The pumps of a channel -/

inductive PumpEnd where
  | refused
  | closed
  deriving DecidableEq

structure EventPump (T : Type) where
  /-- Where the receiver stood when it subscribed. -/
  start : Nat
  next : Nat
  emitted : List T
  /-- What the warnings say was lost. -/
  lost : List Nat
  ended : Option PumpEnd
  /-- What was sent since it subscribed. -/
  offered : List T

namespace EventPump

def subscribe (channel : Channel T) : EventPump T where
  start := channel.sent.length
  next := channel.sent.length
  emitted := []
  lost := []
  ended := none
  offered := []

def offer (event : T) (pump : EventPump T) : EventPump T :=
  { pump with offered := pump.offered ++ [event] }

def isPumping (pump : EventPump T) : Bool := pump.ended.isNone

/-- Where a pump that has fallen behind goes on. -/
def resumed (channel : Channel T) (pump : EventPump T) : EventPump T :=
  { pump with
    next := channel.oldest
    lost := pump.lost ++ [channel.oldest - pump.next] }

/-- One turn of the loop, given what the sink would answer to an event. -/
def turn (channel : Channel T) (emit : Bool) (pump : EventPump T) :
    Option (EventPump T) :=
  if pump.isPumping then
    match channel.recv pump.next with
    | none => none
    | some (.value event, next) =>
        some { pump with
          next
          emitted := pump.emitted ++ [event]
          ended := if emit then none else some .refused }
    | some (.lagged missed, next) =>
        some { pump with
          next
          lost := pump.lost ++ [missed] }
    | some (.closed, _) => some { pump with ended := some .closed }
  else none

/-- A turn emits the next event, or warns of those that were written over, or
ends the pump with the channel. -/
theorem turn_cases {channel : Channel T} {emit : Bool}
    {pump turned : EventPump T} (hturn : pump.turn channel emit = some turned) :
    pump.ended = none ∧
      ((∃ event, channel.oldest ≤ pump.next ∧
          channel.sent[pump.next]? = some event ∧
          turned = { pump with
            next := pump.next + 1
            emitted := pump.emitted ++ [event]
            ended := if emit then none else some .refused }) ∨
        (pump.next < channel.oldest ∧ turned = pump.resumed channel) ∨
        (channel.sent.length ≤ pump.next ∧ channel.isOpen = false ∧
          turned = { pump with ended := some .closed })) := by
  unfold turn at hturn
  split at hturn
  · next hpumping =>
      have hgoing : pump.ended = none := by
        simpa [isPumping] using hpumping
      refine ⟨hgoing, ?_⟩
      cases hrecv : channel.recv pump.next with
      | none =>
          rw [hrecv] at hturn
          cases hturn
      | some answer =>
          rcases answer with ⟨received, after⟩
          rw [hrecv] at hturn
          rcases Channel.recv_cases hrecv with
            ⟨event, hkept, hsent, rfl, rfl⟩ | ⟨hbehind, rfl, rfl⟩ |
              ⟨hend, hclosed, rfl, rfl⟩
          · cases hturn
            exact Or.inl ⟨event, hkept, hsent, rfl⟩
          · cases hturn
            exact Or.inr (Or.inl ⟨hbehind, rfl⟩)
          · cases hturn
            exact Or.inr (Or.inr ⟨hend, hclosed, rfl⟩)
  · cases hturn

end EventPump

inductive ChannelEvent (T : Type) where
  | sends (event : T)
  /-- The last sender is dropped. -/
  | closes
  | subscribes
  | turns (index : Nat) (emit : Bool)

/-- A channel and the pumps that have subscribed to it. -/
structure Pumped (T : Type) where
  channel : Channel T
  pumps : List (EventPump T)

namespace Pumped

def ofCapacity (capacity : Nat) : Pumped T where
  channel := .ofCapacity capacity
  pumps := []

/-- A value that nobody could receive is not kept. -/
def send (pumped : Pumped T) (event : T) : Pumped T where
  channel :=
    if pumped.pumps.any (·.isPumping) then pumped.channel.send event
    else pumped.channel
  pumps := pumped.pumps.map (·.offer event)

def step (pumped : Pumped T) : ChannelEvent T → Option (Pumped T)
  | .sends event =>
      if pumped.channel.isOpen then some (pumped.send event) else none
  | .closes => some { pumped with channel := pumped.channel.close }
  | .subscribes =>
      some { pumped with
        pumps := pumped.pumps ++ [.subscribe pumped.channel] }
  | .turns index emit => do
      let pump ← pumped.pumps[index]?
      let turned ← pump.turn pumped.channel emit
      return { pumped with pumps := pumped.pumps.set index turned }

end Pumped

/-! ## What a pump delivers -/

/-- Everything a pump has passed was emitted, in order and once, or is counted
by a warning; a pump that has nothing more to wait for has emitted the last
events there are slots for. -/
structure Delivers (channel : Channel T) (pump : EventPump T) : Prop where
  reads : Reads channel pump.start pump.next pump.emitted pump.lost
  current : pump.ended = none ∨ pump.ended = some .closed →
    channel.sent.drop pump.start = pump.offered
  ordered : pump.emitted.Sublist pump.offered
  accounted : pump.emitted.length + pump.lost.sum ≤ pump.offered.length
  unbroken : pump.lost = [] → pump.emitted <+: pump.offered
  drained : pump.ended = some .closed →
    channel.isOpen = false ∧ pump.next = channel.sent.length

namespace Delivers

variable {channel : Channel T} {pump : EventPump T}

theorem subscribe (channel : Channel T) :
    Delivers channel (EventPump.subscribe channel) where
  reads := Reads.refl le_rfl
  current := by
    intro _
    exact List.drop_length
  ordered := List.Sublist.refl _
  accounted := by simp [EventPump.subscribe]
  unbroken := by
    intro _
    exact List.prefix_rfl
  drained := by
    intro hended
    cases hended

theorem close (hdelivers : Delivers channel pump) :
    Delivers channel.close pump where
  reads := hdelivers.reads.close
  current := hdelivers.current
  ordered := hdelivers.ordered
  accounted := hdelivers.accounted
  unbroken := hdelivers.unbroken
  drained := by
    intro hended
    exact ⟨rfl, (hdelivers.drained hended).2⟩

/-- Nothing is sent to a channel that is closed, so a pump that ended at its
end stays there. -/
theorem offer (hdelivers : Delivers channel pump)
    (hopen : channel.isOpen = true) (event : T) {kept : Bool}
    (hkept : pump.isPumping = true → kept = true) :
    Delivers (if kept then channel.send event else channel)
      (pump.offer event) := by
  have hnotClosed : pump.ended ≠ some .closed := by
    intro hended
    have hclosed := (hdelivers.drained hended).1
    rw [hopen] at hclosed
    cases hclosed
  constructor
  case reads =>
    split
    · exact hdelivers.reads.send event
    · exact hdelivers.reads
  case current =>
    intro hended
    have hnone : pump.ended = none := hended.resolve_right hnotClosed
    have hpumping : pump.isPumping = true := by
      simp [EventPump.isPumping, hnone]
    have hstart : pump.start ≤ channel.sent.length :=
      hdelivers.reads.ahead.trans hdelivers.reads.within
    rw [if_pos (hkept hpumping)]
    show (channel.send event).sent.drop pump.start = pump.offered ++ [event]
    rw [Channel.sent_send, List.drop_append_of_le_length hstart,
      hdelivers.current (Or.inl hnone)]
  case ordered =>
    exact hdelivers.ordered.trans (List.sublist_append_left _ _)
  case accounted =>
    have hlength : (pump.offer event).offered.length =
        pump.offered.length + 1 := List.length_append
    rw [hlength]
    exact Nat.le_succ_of_le hdelivers.accounted
  case unbroken =>
    intro hlost
    exact (hdelivers.unbroken hlost).trans (List.prefix_append _ _)
  case drained =>
    intro hended
    exact absurd hended hnotClosed

/-- What a pump that has not ended has passed is a part of what it was
offered. -/
theorem of_current {next : Nat} {emitted : List T} {lost : List Nat}
    {ended : Option PumpEnd}
    (hreads : Reads channel pump.start next emitted lost)
    (hcurrent : channel.sent.drop pump.start = pump.offered)
    (hdrained : ended = some .closed →
      channel.isOpen = false ∧ next = channel.sent.length) :
    Delivers channel { pump with next, emitted, lost, ended } where
  reads := hreads
  current := by
    intro _
    exact hcurrent
  ordered := by
    rw [← hcurrent]
    exact hreads.ordered.trans ((List.take_sublist _ _).drop _)
  accounted := by
    have haccounted := hreads.accounted
    have hwithin := hreads.within
    show emitted.length + lost.sum ≤ pump.offered.length
    rw [← hcurrent, List.length_drop]
    omega
  unbroken := by
    intro hlost
    replace hlost : lost = [] := hlost
    rw [hlost] at hreads
    show emitted <+: pump.offered
    rw [hreads.eq_of_missed_nil, ← hcurrent]
    exact (List.take_prefix _ _).drop _
  drained := hdrained

theorem turn (hdelivers : Delivers channel pump) {emit : Bool}
    {turned : EventPump T} (hturn : pump.turn channel emit = some turned) :
    Delivers channel turned := by
  have hreads := hdelivers.reads
  rcases EventPump.turn_cases hturn with ⟨hgoing, hcases⟩
  have hcurrent := hdelivers.current (Or.inl hgoing)
  rcases hcases with
    ⟨event, -, hsent, rfl⟩ | ⟨hbehind, rfl⟩ | ⟨hend, hclosed, rfl⟩
  · apply of_current (hreads.value hsent) hcurrent
    cases emit <;> simp
  · apply of_current (hreads.lagged hbehind) hcurrent
    simp [hgoing]
  · apply of_current hreads hcurrent
    intro _
    exact ⟨hclosed, Nat.le_antisymm hreads.within hend⟩

end Delivers

/-! ## Runs -/

section

variable {pumped later : Pumped T}

/-- Every pump of the channel delivers. -/
def Pumped.Delivering (pumped : Pumped T) : Prop :=
  ∀ pump ∈ pumped.pumps, Delivers pumped.channel pump

theorem Pumped.Delivering.step (hall : pumped.Delivering)
    {event : ChannelEvent T} (hstep : pumped.step event = some later) :
    later.Delivering := by
  cases event with
  | sends event =>
      unfold Pumped.step at hstep
      dsimp only at hstep
      split at hstep
      · next hopen =>
          cases hstep
          intro offered hoffered
          rcases List.mem_map.mp hoffered with ⟨pump, hpump, rfl⟩
          apply (hall pump hpump).offer hopen event
          intro hpumping
          exact List.any_eq_true.mpr ⟨pump, hpump, hpumping⟩
      · cases hstep
  | closes =>
      cases hstep
      intro pump hpump
      exact (hall pump hpump).close
  | subscribes =>
      cases hstep
      intro pump hpump
      rcases List.mem_append.mp hpump with hold | hnew
      · exact hall pump hold
      · rw [List.mem_singleton.mp hnew]
        exact Delivers.subscribe _
  | turns index emit =>
      rcases Option.bind_eq_some_iff.mp hstep with ⟨pump, hpump, hrest⟩
      rcases Option.bind_eq_some_iff.mp hrest with ⟨turned, hturn, hset⟩
      cases hset
      have hmem : pump ∈ pumped.pumps := List.mem_of_getElem? hpump
      intro other hother
      rcases List.mem_or_eq_of_mem_set hother with hold | rfl
      · exact hall other hold
      · exact (hall pump hmem).turn hturn

/-- Where a pump stands at the end, everything is accounted for, and the last
events there are slots for were emitted. -/
structure CaughtUp (channel : Channel T) (pump : EventPump T) : Prop where
  accounted : pump.emitted.length + pump.lost.sum = pump.offered.length
  latest : pump.offered.drop (pump.offered.length - channel.slots) <:+
    pump.emitted

theorem Delivers.caughtUp {channel : Channel T} {pump : EventPump T}
    (hdelivers : Delivers channel pump)
    (hcurrent : pump.ended = none ∨ pump.ended = some .closed)
    (hend : pump.next = channel.sent.length) : CaughtUp channel pump := by
  have hoffered := hdelivers.current hcurrent
  have hreads := hdelivers.reads
  have hstart := hreads.ahead
  have haccounted := hreads.accounted
  rw [hend] at hreads hstart haccounted
  have hlength : pump.offered.length =
      channel.sent.length - pump.start := by
    rw [← hoffered, List.length_drop]
  constructor
  · rw [haccounted, hlength]
  · have horigin : pump.start + (pump.offered.length - channel.slots) =
        max pump.start channel.oldest := by
      rw [hlength, Channel.oldest]
      omega
    have hlatest := hreads.latest_suffix
    rw [← horigin, ← List.drop_drop, hoffered] at hlatest
    exact hlatest

theorem delivering_of_run {capacity : Nat} {events : List (ChannelEvent T)}
    (hrun : run Pumped.step (.ofCapacity capacity) events = some pumped) :
    pumped.Delivering := by
  apply run_invariant _ _ hrun
  · intro pump hpump
    cases hpump
  · intro state event next hall hstep
    exact hall.step hstep

/-- A pump with a value in front of it emits that. -/
theorem turn_value {channel : Channel T} {pump : EventPump T}
    (hgoing : pump.ended = none) (hkept : channel.oldest ≤ pump.next)
    (hbefore : pump.next < channel.sent.length) :
    pump.turn channel true = some { pump with
      next := pump.next + 1
      emitted := pump.emitted ++ [channel.sent[pump.next]]
      ended := none } := by
  have hrecv : channel.recv pump.next =
      some (.value channel.sent[pump.next], pump.next + 1) := by
    unfold Channel.recv
    rw [if_neg (Nat.not_lt.mpr hkept), List.getElem?_eq_getElem hbefore]
  unfold EventPump.turn
  rw [if_pos (by simp [EventPump.isPumping, hgoing]), hrecv]
  rfl

/-- A pump that has fallen behind warns, and goes on with the oldest value. -/
theorem turn_lagged {channel : Channel T} {pump : EventPump T} {emit : Bool}
    (hgoing : pump.ended = none) (hbehind : pump.next < channel.oldest) :
    pump.turn channel emit = some (pump.resumed channel) := by
  have hrecv : channel.recv pump.next =
      some (.lagged (channel.oldest - pump.next), channel.oldest) := by
    unfold Channel.recv
    rw [if_pos hbehind]
  unfold EventPump.turn
  rw [if_pos (by simp [EventPump.isPumping, hgoing]), hrecv]
  rfl

/-- A turn of one pump leaves the others and the channel as they are. -/
theorem step_turns {index : Nat} {emit : Bool} {pump turned : EventPump T}
    (hpump : pumped.pumps[index]? = some pump)
    (hturn : pump.turn pumped.channel emit = some turned) :
    pumped.step (.turns index emit) = some { pumped with
      pumps := pumped.pumps.set index turned } := by
  simp [Pumped.step, hpump, hturn]

theorem getElem?_after_turn {index : Nat} {emit : Bool}
    {pump turned : EventPump T} (hpump : pumped.pumps[index]? = some pump)
    (_hturn : pump.turn pumped.channel emit = some turned) :
    ({ pumped with pumps := pumped.pumps.set index turned } :
      Pumped T).pumps[index]? = some turned :=
  List.getElem?_set_self (List.getElem?_eq_some_iff.mp hpump).1

/-- Turn by turn a pump emits what is in front of it. -/
theorem run_values {index : Nat} (count : Nat) :
    ∀ {pumped : Pumped T} {pump : EventPump T},
      pumped.pumps[index]? = some pump → pump.ended = none →
      pumped.channel.oldest ≤ pump.next →
      pump.next + count = pumped.channel.sent.length →
      ∃ later turned, run Pumped.step pumped
          (List.replicate count (.turns index true)) = some later ∧
        later.channel = pumped.channel ∧
        later.pumps[index]? = some turned ∧ turned.ended = none ∧
        turned.next = pumped.channel.sent.length := by
  induction count with
  | zero =>
      intro pumped pump hpump hgoing _ hend
      exact ⟨pumped, pump, rfl, rfl, hpump, hgoing, hend⟩
  | succ count ih =>
      intro pumped pump hpump hgoing hkept hend
      have hbefore : pump.next < pumped.channel.sent.length := by omega
      have hturn := turn_value hgoing hkept hbefore
      have hstep := step_turns hpump hturn
      have hset := getElem?_after_turn hpump hturn
      have hnext : pump.next + 1 + count = pumped.channel.sent.length := by
        omega
      rcases ih hset rfl (Nat.le_succ_of_le hkept) hnext with
        ⟨later, turned, hrun, hchannel, hturned, hstill, hlast⟩
      refine ⟨later, turned, ?_, hchannel, hturned, hstill, hlast⟩
      rw [List.replicate_succ, run_cons, hstep]
      exact hrun

end

end Dovetail.Pumps
