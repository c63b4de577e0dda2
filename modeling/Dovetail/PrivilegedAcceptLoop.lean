import Dovetail.PrivilegedChannel

/-!
# The daemon's accept loop

The loop serves who is accepted, waits after a failure and logs who is
refused, at most one line a window; the refusals without a line of their own
are counted, and the next line or the end of the loop reports the count.
-/

namespace Dovetail.PrivilegedChannel

/-! ## The refusal log -/

/-- Instants and windows in nanoseconds.  The count of the silenced is at
most that of the refused, which 64 bits hold. -/
structure RefusalLog where
  window : Nat
  lastLine : Option Nat
  silenced : Nat

namespace RefusalLog

def new (window : Nat) : RefusalLog :=
  { window
    lastLine := none
    silenced := 0 }

/-- `now - last` saturates, as `saturating_duration_since` does. -/
def isSilent (log : RefusalLog) (now : Nat) : Bool :=
  match log.lastLine with
  | some last => decide (now - last < log.window)
  | none => false

def refused (log : RefusalLog) (now : Nat) : Option Nat × RefusalLog :=
  if log.isSilent now then
    (none, { log with silenced := log.silenced + 1 })
  else
    (some log.silenced, { log with lastLine := some now, silenced := 0 })

end RefusalLog

/-! ## The loop -/

def REFUSAL_LOG_WINDOW : Nat := 60 * 10 ^ 9

theorem REFUSAL_LOG_WINDOW_pos : 0 < REFUSAL_LOG_WINDOW := by
  decide

/-- What `incoming.next()` gives; the instant is the one read for a refused
peer.  The loop ends where the outcomes do, at the shutdown or at the end of
the stream. -/
inductive AcceptOutcome (Conn : Type*) where
  | accepted (conn : Conn) (peer : PeerCheck)
  | peerRefused (reason : String) (now : Nat)
  | io (error : String)

inductive AcceptEffect (Conn : Type*) where
  | serve (conn : Conn) (peer : PeerCheck)
  /-- `refusal_line(Some(reason), silenced)`, at its instant. -/
  | reasonLine (reason : String) (silenced : Nat) (now : Nat)
  /-- `refusal_line(None, silenced)` -/
  | lastLine (silenced : Nat)
  | sleep (milliseconds : Nat)

structure AcceptLoop (Conn : Type*) where
  failures : Nat
  refusals : RefusalLog
  effects : List (AcceptEffect Conn)

namespace AcceptLoop

variable {Conn : Type*}

def start : AcceptLoop Conn :=
  { failures := 0
    refusals := .new REFUSAL_LOG_WINDOW
    effects := [] }

def note (state : AcceptLoop Conn) (effect : AcceptEffect Conn) :
    AcceptLoop Conn :=
  { state with effects := state.effects ++ [effect] }

def turn (state : AcceptLoop Conn) : AcceptOutcome Conn → AcceptLoop Conn
  | .accepted conn peer => { state with failures := 0 }.note (.serve conn peer)
  | .peerRefused reason now =>
      match state.refusals.refused now with
      | (some silenced, log) =>
          { state with refusals := log }.note (.reasonLine reason silenced now)
      | (none, log) => { state with refusals := log }
  | .io _ =>
      let failures := state.failures + 1
      { state with failures }.note (.sleep (min (100 * failures) 2000))

/-- The state after some turns. -/
def turns (outcomes : List (AcceptOutcome Conn)) : AcceptLoop Conn :=
  outcomes.foldl turn start

/-- The line for the refusals without one, when the loop ends. -/
def flush (state : AcceptLoop Conn) : List (AcceptEffect Conn) :=
  if state.refusals.silenced > 0 then
    state.effects ++ [.lastLine state.refusals.silenced]
  else state.effects

def acceptLoop (outcomes : List (AcceptOutcome Conn)) :
    List (AcceptEffect Conn) :=
  (turns outcomes).flush

@[simp] theorem turns_nil : turns ([] : List (AcceptOutcome Conn)) = start :=
  rfl

@[simp] theorem turns_concat (outcomes : List (AcceptOutcome Conn))
    (outcome : AcceptOutcome Conn) :
    turns (outcomes ++ [outcome]) = (turns outcomes).turn outcome := by
  simp [turns]

end AcceptLoop

/-! ## Reading the effects -/

section

variable {Conn : Type*}

def AcceptOutcome.accepted? : AcceptOutcome Conn → Option (Conn × PeerCheck)
  | .accepted conn peer => some (conn, peer)
  | _ => none

def AcceptOutcome.isRefused : AcceptOutcome Conn → Bool
  | .peerRefused _ _ => true
  | _ => false

def AcceptEffect.served? : AcceptEffect Conn → Option (Conn × PeerCheck)
  | .serve conn peer => some (conn, peer)
  | _ => none

/-- The instant of a line with a reason. -/
def AcceptEffect.line? : AcceptEffect Conn → Option Nat
  | .reasonLine _ _ now => some now
  | _ => none

/-- The count a line reports. -/
def AcceptEffect.reported : AcceptEffect Conn → Nat
  | .reasonLine _ silenced _ => silenced
  | .lastLine silenced => silenced
  | _ => 0

def accepted (outcomes : List (AcceptOutcome Conn)) :
    List (Conn × PeerCheck) :=
  outcomes.filterMap AcceptOutcome.accepted?

def served (effects : List (AcceptEffect Conn)) : List (Conn × PeerCheck) :=
  effects.filterMap AcceptEffect.served?

def lines (effects : List (AcceptEffect Conn)) : List Nat :=
  effects.filterMap AcceptEffect.line?

/-- How many refusals some effects account for: the lines with a reason and
the counts reported. -/
def accounted (effects : List (AcceptEffect Conn)) : Nat :=
  (lines effects).length + (effects.map AcceptEffect.reported).sum

def refusedCount (outcomes : List (AcceptOutcome Conn)) : Nat :=
  outcomes.countP AcceptOutcome.isRefused

theorem filterMap_concat {α β : Type*} (f : α → Option β) (items : List α)
    (item : α) :
    (items ++ [item]).filterMap f = items.filterMap f ++ (f item).toList := by
  cases hitem : f item <;> simp [List.filterMap_append, hitem]

@[simp] theorem accepted_concat (outcomes : List (AcceptOutcome Conn))
    (outcome : AcceptOutcome Conn) :
    accepted (outcomes ++ [outcome]) =
      accepted outcomes ++ outcome.accepted?.toList :=
  filterMap_concat _ _ _

@[simp] theorem served_concat (effects : List (AcceptEffect Conn))
    (effect : AcceptEffect Conn) :
    served (effects ++ [effect]) = served effects ++ effect.served?.toList :=
  filterMap_concat _ _ _

@[simp] theorem lines_concat (effects : List (AcceptEffect Conn))
    (effect : AcceptEffect Conn) :
    lines (effects ++ [effect]) = lines effects ++ effect.line?.toList :=
  filterMap_concat _ _ _

@[simp] theorem refusedCount_concat (outcomes : List (AcceptOutcome Conn))
    (outcome : AcceptOutcome Conn) :
    refusedCount (outcomes ++ [outcome]) =
      refusedCount outcomes + if outcome.isRefused then 1 else 0 := by
  simp [refusedCount, List.countP_cons]

theorem accounted_concat (effects : List (AcceptEffect Conn))
    (effect : AcceptEffect Conn) :
    accounted (effects ++ [effect]) =
      accounted effects + effect.line?.toList.length + effect.reported := by
  simp only [accounted, lines_concat, List.length_append, List.map_append,
    List.map_singleton, List.sum_append, List.sum_singleton]
  omega

/-! ## The invariant -/

/-- What the loop has done after some outcomes. -/
structure Accounts (outcomes : List (AcceptOutcome Conn))
    (state : AcceptLoop Conn) : Prop where
  window : state.refusals.window = REFUSAL_LOG_WINDOW
  served : served state.effects = accepted outcomes
  refused : refusedCount outcomes =
    accounted state.effects + state.refusals.silenced
  last : ∀ instant ∈ lines state.effects,
    ∃ last, state.refusals.lastLine = some last ∧ instant ≤ last
  apart : (lines state.effects).Pairwise
    fun earlier later => earlier + REFUSAL_LOG_WINDOW ≤ later

variable {outcomes : List (AcceptOutcome Conn)} {state : AcceptLoop Conn}

theorem accounts_start : Accounts ([] : List (AcceptOutcome Conn)) .start where
  window := rfl
  served := rfl
  refused := rfl
  last := by simp [AcceptLoop.start, lines]
  apart := by simp [AcceptLoop.start, lines]

theorem Accounts.accepted (haccounts : Accounts outcomes state) (conn : Conn)
    (peer : PeerCheck) :
    Accounts (outcomes ++ [.accepted conn peer])
      (state.turn (.accepted conn peer)) where
  window := haccounts.window
  served := by
    simp [AcceptLoop.turn, AcceptLoop.note, haccounts.served,
      AcceptEffect.served?, AcceptOutcome.accepted?]
  refused := by
    simp [AcceptLoop.turn, AcceptLoop.note, haccounts.refused,
      accounted_concat, AcceptOutcome.isRefused, AcceptEffect.line?,
      AcceptEffect.reported]
  last := by
    simpa [AcceptLoop.turn, AcceptLoop.note, AcceptEffect.line?] using
      haccounts.last
  apart := by
    simpa [AcceptLoop.turn, AcceptLoop.note, AcceptEffect.line?] using
      haccounts.apart

theorem Accounts.io (haccounts : Accounts outcomes state) (error : String) :
    Accounts (outcomes ++ [.io error]) (state.turn (.io error)) where
  window := haccounts.window
  served := by
    simp [AcceptLoop.turn, AcceptLoop.note, haccounts.served,
      AcceptEffect.served?, AcceptOutcome.accepted?]
  refused := by
    simp [AcceptLoop.turn, AcceptLoop.note, haccounts.refused,
      accounted_concat, AcceptOutcome.isRefused, AcceptEffect.line?,
      AcceptEffect.reported]
  last := by
    simpa [AcceptLoop.turn, AcceptLoop.note, AcceptEffect.line?] using
      haccounts.last
  apart := by
    simpa [AcceptLoop.turn, AcceptLoop.note, AcceptEffect.line?] using
      haccounts.apart

theorem Accounts.silent (haccounts : Accounts outcomes state)
    (reason : String) {now : Nat}
    (hsilent : state.refusals.isSilent now = true) :
    Accounts (outcomes ++ [.peerRefused reason now])
      (state.turn (.peerRefused reason now)) := by
  have hturn : state.turn (.peerRefused reason now) =
      { state with refusals := { state.refusals with
          silenced := state.refusals.silenced + 1 } } := by
    simp [AcceptLoop.turn, RefusalLog.refused, hsilent]
  rw [hturn]
  exact
    { window := haccounts.window
      served := by simp [haccounts.served, AcceptOutcome.accepted?]
      refused := by
        have hrefused := haccounts.refused
        simp only [refusedCount_concat, AcceptOutcome.isRefused, if_true]
        omega
      last := haccounts.last
      apart := haccounts.apart }

/-- A line that is not silenced comes a window after every line before. -/
theorem Accounts.line_apart (haccounts : Accounts outcomes state) {now : Nat}
    (hsilent : state.refusals.isSilent now = false) {instant : Nat}
    (hinstant : instant ∈ lines state.effects) :
    instant + REFUSAL_LOG_WINDOW ≤ now := by
  obtain ⟨last, hlast, hle⟩ := haccounts.last instant hinstant
  have hwindow : REFUSAL_LOG_WINDOW ≤ now - last := by
    simpa [RefusalLog.isSilent, hlast, haccounts.window] using hsilent
  have hpositive := REFUSAL_LOG_WINDOW_pos
  omega

theorem Accounts.line (haccounts : Accounts outcomes state)
    (reason : String) {now : Nat}
    (hsilent : state.refusals.isSilent now = false) :
    Accounts (outcomes ++ [.peerRefused reason now])
      (state.turn (.peerRefused reason now)) := by
  have hturn : state.turn (.peerRefused reason now) =
      ({ state with refusals := { state.refusals with
          lastLine := some now, silenced := 0 } }).note
        (.reasonLine reason state.refusals.silenced now) := by
    simp [AcceptLoop.turn, RefusalLog.refused, hsilent]
  have happart (instant : Nat) (hinstant : instant ∈ lines state.effects) :
      instant + REFUSAL_LOG_WINDOW ≤ now :=
    haccounts.line_apart hsilent hinstant
  rw [hturn]
  exact
    { window := haccounts.window
      served := by
        simp [AcceptLoop.note, haccounts.served, AcceptEffect.served?,
          AcceptOutcome.accepted?]
      refused := by
        have hrefused := haccounts.refused
        simp only [AcceptLoop.note, refusedCount_concat, accounted_concat,
          AcceptOutcome.isRefused, AcceptEffect.line?, AcceptEffect.reported,
          if_true, Option.toList_some, List.length_singleton]
        omega
      last := by
        intro instant hinstant
        refine ⟨now, rfl, ?_⟩
        simp only [AcceptLoop.note, lines_concat, AcceptEffect.line?,
          List.mem_append, Option.toList_some, List.mem_singleton] at hinstant
        rcases hinstant with hold | rfl
        · exact (Nat.le_add_right _ _).trans (happart instant hold)
        · exact le_rfl
      apart := by
        simp only [AcceptLoop.note, lines_concat, AcceptEffect.line?,
          Option.toList_some]
        refine List.pairwise_append.mpr
          ⟨haccounts.apart, List.pairwise_singleton _ _, ?_⟩
        intro earlier hearlier later hlater
        obtain rfl := List.mem_singleton.mp hlater
        exact happart earlier hearlier }

theorem Accounts.turn (haccounts : Accounts outcomes state)
    (outcome : AcceptOutcome Conn) :
    Accounts (outcomes ++ [outcome]) (state.turn outcome) := by
  cases outcome with
  | accepted conn peer => exact haccounts.accepted conn peer
  | io error => exact haccounts.io error
  | peerRefused reason now =>
      cases hsilent : state.refusals.isSilent now with
      | true => exact haccounts.silent reason hsilent
      | false => exact haccounts.line reason hsilent

theorem accounts_turns (outcomes : List (AcceptOutcome Conn)) :
    Accounts outcomes (AcceptLoop.turns outcomes) := by
  induction outcomes using List.reverseRecOn with
  | nil => exact accounts_start
  | append_singleton outcomes outcome ih =>
      rw [AcceptLoop.turns_concat]
      exact ih.turn outcome

/-- Whoever is accepted is served once and in order, every refused peer has a
line or is counted in one, and the lines with a reason are a window apart. -/
theorem acceptLoop_accounts (outcomes : List (AcceptOutcome Conn)) :
    served (AcceptLoop.acceptLoop outcomes) = accepted outcomes ∧
      refusedCount outcomes = accounted (AcceptLoop.acceptLoop outcomes) ∧
      (lines (AcceptLoop.acceptLoop outcomes)).Pairwise
        fun earlier later => earlier + REFUSAL_LOG_WINDOW ≤ later := by
  have haccounts := accounts_turns outcomes
  have hrefused := haccounts.refused
  unfold AcceptLoop.acceptLoop AcceptLoop.flush
  split_ifs with hpending
  · refine ⟨by simp [haccounts.served, AcceptEffect.served?], ?_,
      by simpa [AcceptEffect.line?] using haccounts.apart⟩
    simp only [accounted_concat, AcceptEffect.line?, AcceptEffect.reported,
      Option.toList_none, List.length_nil]
    omega
  · exact ⟨haccounts.served, by omega, haccounts.apart⟩

end

end Dovetail.PrivilegedChannel
