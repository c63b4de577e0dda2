import Mathlib.Tactic

/-!
# Bounded broadcast channels

A channel keeps the last values that were sent in a ring of slots.  A receiver
that has fallen further behind is told how many values it has missed, and goes
on with the oldest one that is left.  So every value a receiver has passed was
either received, in order and once, or counted as missed.
-/

namespace BroadcastChannel

variable {Value : Type}

/-! ## Channels -/

/-- A ring of slots; everything that was ever sent is its history. -/
structure Channel (Value : Type) where
  slots : Nat
  sent : List Value
  isOpen : Bool

inductive Received (Value : Type) where
  | value (value : Value)
  | lagged (missed : Nat)
  | closed

namespace Channel

/-- The ring has a power of two of slots. -/
def ofCapacity (capacity : Nat) : Channel Value where
  slots := 2 ^ Nat.clog 2 capacity
  sent := []
  isOpen := true

def send (channel : Channel Value) (value : Value) : Channel Value :=
  { channel with sent := channel.sent ++ [value] }

def close (channel : Channel Value) : Channel Value :=
  { channel with isOpen := false }

/-- The position of the oldest value whose slot was not written over. -/
def oldest (channel : Channel Value) : Nat :=
  channel.sent.length - channel.slots

/-- What a receiver at a position is given, and where it goes on; nothing
while it has to wait. -/
def recv (channel : Channel Value) (next : Nat) :
    Option (Received Value × Nat) :=
  if next < channel.oldest then
    some (.lagged (channel.oldest - next), channel.oldest)
  else
    match channel.sent[next]? with
    | some value => some (.value value, next + 1)
    | none => if channel.isOpen then none else some (.closed, next)

theorem le_slots_ofCapacity (capacity : Nat) :
    capacity ≤ (ofCapacity capacity : Channel Value).slots :=
  Nat.le_pow_clog one_lt_two capacity

@[simp] theorem sent_send (channel : Channel Value) (value : Value) :
    (channel.send value).sent = channel.sent ++ [value] := rfl

@[simp] theorem slots_send (channel : Channel Value) (value : Value) :
    (channel.send value).slots = channel.slots := rfl

@[simp] theorem sent_close (channel : Channel Value) :
    channel.close.sent = channel.sent := rfl

@[simp] theorem oldest_close (channel : Channel Value) :
    channel.close.oldest = channel.oldest := rfl

theorem oldest_le_length (channel : Channel Value) :
    channel.oldest ≤ channel.sent.length :=
  Nat.sub_le _ _

theorem oldest_le_send (channel : Channel Value) (value : Value) :
    channel.oldest ≤ (channel.send value).oldest := by
  simp only [oldest, sent_send, slots_send, List.length_append,
    List.length_singleton]
  omega

/-- Where a slot was written over before, every value costs another one. -/
theorem oldest_send {channel : Channel Value} (value : Value)
    (hfull : 0 < channel.oldest) :
    (channel.send value).oldest = channel.oldest + 1 := by
  unfold oldest at *
  rw [sent_send, slots_send, List.length_append, List.length_singleton]
  omega

/-- The one who waits has everything there is. -/
theorem recv_eq_none_iff {channel : Channel Value} {next : Nat} :
    channel.recv next = none ↔
      channel.sent.length ≤ next ∧ channel.isOpen = true := by
  have holdest := channel.oldest_le_length
  unfold recv
  split
  · next hbehind =>
      simp
      omega
  · cases hsent : channel.sent[next]? with
    | some value =>
        have hlt := (List.getElem?_eq_some_iff.mp hsent).1
        simp
        omega
    | none =>
        have hle := List.getElem?_eq_none_iff.mp hsent
        cases channel.isOpen <;> simp [hle]

/-- What is received is the next value, or how many of them were written
over, or that there is nothing left to wait for. -/
theorem recv_cases {channel : Channel Value} {next after : Nat}
    {received : Received Value}
    (hrecv : channel.recv next = some (received, after)) :
    (∃ value, channel.oldest ≤ next ∧ channel.sent[next]? = some value ∧
        received = .value value ∧ after = next + 1) ∨
      (next < channel.oldest ∧ received = .lagged (channel.oldest - next) ∧
        after = channel.oldest) ∨
      (channel.sent.length ≤ next ∧ channel.isOpen = false ∧
        received = .closed ∧ after = next) := by
  unfold recv at hrecv
  split at hrecv
  · next hbehind =>
      cases hrecv
      exact Or.inr (Or.inl ⟨hbehind, rfl, rfl⟩)
  · next hkept =>
    cases hsent : channel.sent[next]? with
    | some value =>
        rw [hsent] at hrecv
        cases hrecv
        exact Or.inl ⟨value, Nat.not_lt.mp hkept, rfl, rfl, rfl⟩
    | none =>
        rw [hsent] at hrecv
        dsimp only at hrecv
        split at hrecv
        · cases hrecv
        · next hclosed =>
            cases hrecv
            right
            right
            exact ⟨List.getElem?_eq_none_iff.mp hsent,
              Bool.eq_false_of_not_eq_true hclosed, rfl, rfl⟩

end Channel

/-! ## What was received -/

/-- What a receiver that was at a position has received and missed on its way
to the next one. -/
structure Reads (channel : Channel Value) (start next : Nat)
    (received : List Value) (missed : List Nat) : Prop where
  ahead : start ≤ next
  within : next ≤ channel.sent.length
  ordered : received.Sublist ((channel.sent.take next).drop start)
  accounted : received.length + missed.sum = next - start
  /-- From some position on, which is no later than that of the oldest value
  left, nothing was missed. -/
  latest : ∃ origin, start ≤ origin ∧ origin ≤ next ∧
    origin ≤ max start channel.oldest ∧
    (channel.sent.take next).drop origin <:+ received

namespace Reads

variable {channel : Channel Value} {start next : Nat}
  {received : List Value} {missed : List Nat}

theorem refl (hstart : start ≤ channel.sent.length) :
    Reads channel start start [] [] where
  ahead := le_rfl
  within := hstart
  ordered := List.nil_sublist _
  accounted := by simp
  latest := by
    refine ⟨start, le_rfl, le_rfl, le_max_left _ _, ?_⟩
    rw [List.drop_eq_nil_of_le (List.length_take_le _ _)]

/-- What is sent is not received yet. -/
theorem send (hreads : Reads channel start next received missed)
    (value : Value) : Reads (channel.send value) start next received missed := by
  have hsame : (channel.send value).sent.take next = channel.sent.take next := by
    rw [Channel.sent_send, List.take_append_of_le_length hreads.within]
  constructor
  case ahead => exact hreads.ahead
  case within =>
    rw [Channel.sent_send, List.length_append]
    exact Nat.le_add_right_of_le hreads.within
  case ordered =>
    rw [hsame]
    exact hreads.ordered
  case accounted => exact hreads.accounted
  case latest =>
    rcases hreads.latest with ⟨origin, hfirst, hlast, hkept, hsuffix⟩
    refine ⟨origin, hfirst, hlast, ?_, ?_⟩
    · exact hkept.trans (max_le_max le_rfl (channel.oldest_le_send value))
    · rw [hsame]
      exact hsuffix

theorem close (hreads : Reads channel start next received missed) :
    Reads channel.close start next received missed where
  ahead := hreads.ahead
  within := hreads.within
  ordered := hreads.ordered
  accounted := hreads.accounted
  latest := hreads.latest

theorem take_succ_eq {value : Value}
    (hvalue : channel.sent[next]? = some value) (origin : Nat)
    (horigin : origin ≤ next) :
    (channel.sent.take (next + 1)).drop origin =
      (channel.sent.take next).drop origin ++ [value] := by
  have hlt := (List.getElem?_eq_some_iff.mp hvalue).1
  have hlong : origin ≤ (channel.sent.take next).length := by
    rw [List.length_take, Nat.min_eq_left hlt.le]
    exact horigin
  rw [List.take_add_one, hvalue, Option.toList_some,
    List.drop_append_of_le_length hlong]

/-- A value that is received is the next one. -/
theorem value (hreads : Reads channel start next received missed)
    {value : Value} (hvalue : channel.sent[next]? = some value) :
    Reads channel start (next + 1) (received ++ [value]) missed := by
  have hlt := (List.getElem?_eq_some_iff.mp hvalue).1
  have hahead := hreads.ahead
  have haccounted := hreads.accounted
  constructor
  case ahead => omega
  case within => omega
  case ordered =>
    rw [take_succ_eq hvalue start hahead]
    exact hreads.ordered.append (List.Sublist.refl _)
  case accounted =>
    rw [List.length_append, List.length_singleton]
    omega
  case latest =>
    rcases hreads.latest with ⟨origin, hfirst, hlast, hkept, hsuffix⟩
    refine ⟨origin, hfirst, hlast.trans (Nat.le_succ _), hkept, ?_⟩
    rw [take_succ_eq hvalue origin hlast]
    rcases hsuffix with ⟨before, rfl⟩
    exact ⟨before, by rw [List.append_assoc]⟩

/-- What was written over is missed. -/
theorem lagged (hreads : Reads channel start next received missed)
    (hbehind : next < channel.oldest) :
    Reads channel start channel.oldest received
      (missed ++ [channel.oldest - next]) := by
  have hahead := hreads.ahead
  have haccounted := hreads.accounted
  have hbegins : channel.sent.take next <+: channel.sent.take channel.oldest :=
    List.take_prefix_take_left hbehind.le
  constructor
  case ahead => omega
  case within => exact channel.oldest_le_length
  case ordered =>
    exact hreads.ordered.trans (hbegins.sublist.drop start)
  case accounted =>
    rw [List.sum_append, List.sum_singleton]
    omega
  case latest =>
    refine ⟨channel.oldest, by omega, le_rfl, le_max_right _ _, ?_⟩
    rw [List.drop_eq_nil_of_le (List.length_take_le _ _)]
    exact List.nil_suffix

/-- Where nothing was missed, everything was received. -/
theorem eq_of_missed_nil (hreads : Reads channel start next received []) :
    received = (channel.sent.take next).drop start := by
  apply hreads.ordered.eq_of_length
  have haccounted := hreads.accounted
  have hwithin := hreads.within
  rw [List.length_drop, List.length_take, Nat.min_eq_left hwithin]
  simpa using haccounted

/-- A receiver that is at the end has received the last values there are slots
for. -/
theorem latest_suffix
    (hreads : Reads channel start channel.sent.length received missed) :
    channel.sent.drop (max start channel.oldest) <:+ received := by
  rcases hreads.latest with ⟨origin, -, -, hkept, hsuffix⟩
  rw [List.take_length] at hsuffix
  exact (List.drop_suffix_drop_left _ hkept).trans hsuffix

end Reads

end BroadcastChannel
