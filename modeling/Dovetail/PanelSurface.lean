import Dovetail.ScreenGeometry
import Dovetail.TransitionRun

/-!
# A panel made of the main window

`PlacedPanelSurface` lifts the window beside the tray and puts it back.  An
opening and a closing are chains of window calls with an await after each, so
that any number of them interleave over the same three fields.
-/

namespace Dovetail.Platform

open TransitionRun

/-! ## The surface -/

inductive PanelDismissal where
  | focusLost
  | trayToggled
  | programmatic
  deriving DecidableEq

structure PanelSpec where
  size : Size
  edgeGap : ℚ
  dismissOnFocusLoss : Bool
  restorePreviousPlacement : Bool
  deriving DecidableEq

structure PanelWindow where
  visible : Bool
  alwaysOnTop : Bool
  skipTaskbar : Bool
  bounds : Rect
  deriving DecidableEq

/-- The window call an opening waits for. -/
inductive Lift where
  | skipTaskbar
  | alwaysOnTop
  | bounds
  | shown
  | focused
  deriving DecidableEq

namespace Lift

def order : Lift → Nat
  | skipTaskbar => 0
  | alwaysOnTop => 1
  | bounds => 2
  | shown => 3
  | focused => 4

end Lift

/-- The call a closing waits for. -/
inductive Lower where
  | cancelled
  | hidden
  | alwaysOnTop
  | skipTaskbar
  | bounds
  deriving DecidableEq

namespace Lower

def order : Lower → Nat
  | cancelled => 0
  | hidden => 1
  | alwaysOnTop => 2
  | skipTaskbar => 3
  | bounds => 4

end Lower

inductive PanelPhase where
  | idle
  | awaitsCursor (spec : PanelSpec)
  | awaitsWorkArea (spec : PanelSpec) (anchor : Offset)
  | awaitsBounds (spec : PanelSpec) (placement : PanelPlacement)
      (bounds : Rect)
  | lifting (awaited : Lift) (spec : PanelSpec) (placement : PanelPlacement)
  | lowering (awaited : Lower) (spec : PanelSpec) (reason : PanelDismissal)
  | done (placement : Option PanelPlacement)
  deriving DecidableEq

inductive PanelEvent (Call : Type*) where
  | opens (call : Call) (spec : PanelSpec) (anchorPoint : Option Offset)
  | closes (call : Call) (reason : PanelDismissal)
  /-- A live subscription hears that the window is not focused. -/
  | losesFocus (subscription : Nat) (call : Call)
  | cursorPoint (call : Call) (point : Offset)
  | workArea (call : Call) (area : Rect)
  | resumes (call : Call)

structure PlacedPanelSurface (Call : Type*) where
  /-- The field `_open`. -/
  opened : Option PanelSpec
  restore : Option Rect
  frames : Option Nat
  /-- The subscriptions to the window's frames that are live. -/
  live : List Nat
  /-- How many subscriptions were taken. -/
  listened : Nat
  window : PanelWindow
  phase : Call → PanelPhase
  dismissals : List PanelDismissal

variable {Call : Type*}

namespace PlacedPanelSurface

/-- The window is hidden at its own frame and no call has begun. -/
def resting (home : Rect) : PlacedPanelSurface Call :=
  { opened := none
    restore := none
    frames := none
    live := []
    listened := 0
    window :=
      { visible := false
        alwaysOnTop := false
        skipTaskbar := false
        bounds := home }
    phase := fun _ => .idle
    dismissals := [] }

def isOpen (surface : PlacedPanelSurface Call) : Bool := surface.opened.isSome

variable [DecidableEq Call]

def move (surface : PlacedPanelSurface Call) (call : Call)
    (phase : PanelPhase) : PlacedPanelSurface Call :=
  { surface with phase := Function.update surface.phase call phase }

/-! ### Opening -/

/-- Sets `_open` and asks for the first window call. -/
def lift (surface : PlacedPanelSurface Call) (call : Call) (spec : PanelSpec)
    (placement : PanelPlacement) : PlacedPanelSurface Call :=
  { surface.move call (.lifting .skipTaskbar spec placement) with
    opened := some spec
    window := { surface.window with skipTaskbar := true } }

def place (surface : PlacedPanelSurface Call) (call : Call) (spec : PanelSpec)
    (placement : PanelPlacement) : PlacedPanelSurface Call :=
  if spec.restorePreviousPlacement then
    surface.move call (.awaitsBounds spec placement surface.window.bounds)
  else surface.lift call spec placement

def listen (surface : PlacedPanelSurface Call) : PlacedPanelSurface Call :=
  { surface with
    frames := some surface.listened
    live := surface.live ++ [surface.listened]
    listened := surface.listened + 1 }

/-- What an opening does when the window call it waits for is over. -/
def lifted (surface : PlacedPanelSurface Call) (call : Call)
    (awaited : Lift) (spec : PanelSpec) (placement : PanelPlacement) :
    PlacedPanelSurface Call :=
  match awaited with
  | .skipTaskbar =>
      { surface.move call (.lifting .alwaysOnTop spec placement) with
        window := { surface.window with alwaysOnTop := true } }
  | .alwaysOnTop =>
      { surface.move call (.lifting .bounds spec placement) with
        window := { surface.window with bounds := placement.bounds } }
  | .bounds =>
      { surface.move call (.lifting .shown spec placement) with
        window := { surface.window with visible := true } }
  | .shown => surface.move call (.lifting .focused spec placement)
  | .focused =>
      let next := surface.move call (.done (some placement))
      if spec.dismissOnFocusLoss then next.listen else next

/-! ### Closing -/

def close (surface : PlacedPanelSurface Call) (call : Call)
    (reason : PanelDismissal) : PlacedPanelSurface Call :=
  match surface.opened with
  | none => surface.move call (.done none)
  | some spec =>
      { surface.move call (.lowering .cancelled spec reason) with
        opened := none
        live := surface.live.filter fun subscription =>
          surface.frames ≠ some subscription }

def publish (surface : PlacedPanelSurface Call) (call : Call)
    (reason : PanelDismissal) : PlacedPanelSurface Call :=
  { surface.move call (.done none) with
    dismissals := surface.dismissals ++ [reason] }

/-- What a closing does when the call it waits for is over. -/
def lowered (surface : PlacedPanelSurface Call) (call : Call)
    (awaited : Lower) (spec : PanelSpec) (reason : PanelDismissal) :
    PlacedPanelSurface Call :=
  match awaited with
  | .cancelled =>
      { surface.move call (.lowering .hidden spec reason) with
        frames := none
        window := { surface.window with visible := false } }
  | .hidden =>
      { surface.move call (.lowering .alwaysOnTop spec reason) with
        window := { surface.window with alwaysOnTop := false } }
  | .alwaysOnTop =>
      { surface.move call (.lowering .skipTaskbar spec reason) with
        window := { surface.window with skipTaskbar := false } }
  | .skipTaskbar =>
      match spec.restorePreviousPlacement, surface.restore with
      | true, some bounds =>
          { surface.move call (.lowering .bounds spec reason) with
            restore := none
            window := { surface.window with bounds } }
      | _, _ => { surface.publish call reason with restore := none }
  | .bounds => surface.publish call reason

/-! ### Steps -/

/-- A call begins; `_onFrame` is one that nobody awaits. -/
def start (surface : PlacedPanelSurface Call) :
    PanelEvent Call → Option (PlacedPanelSurface Call)
  | .opens call spec anchorPoint =>
      if surface.isOpen then some (surface.close call .trayToggled)
      else
        match anchorPoint with
        | none => some (surface.move call (.awaitsCursor spec))
        | some anchor => some (surface.move call (.awaitsWorkArea spec anchor))
  | .closes call reason => some (surface.close call reason)
  | .losesFocus subscription call =>
      if subscription ∈ surface.live then
        some (surface.close call .focusLost)
      else none
  | _ => none

def advance (surface : PlacedPanelSurface Call) :
    PanelPhase → PanelEvent Call → Option (PlacedPanelSurface Call)
  | .awaitsCursor spec, .cursorPoint call point =>
      some (surface.move call (.awaitsWorkArea spec point))
  | .awaitsWorkArea spec anchor, .workArea call area =>
      some (surface.place call spec
        (PanelGeometry.place anchor spec.size area spec.edgeGap))
  | .awaitsBounds spec placement bounds, .resumes call =>
      some ({ surface with restore := some bounds }.lift call spec placement)
  | .lifting awaited spec placement, .resumes call =>
      some (surface.lifted call awaited spec placement)
  | .lowering awaited spec reason, .resumes call =>
      some (surface.lowered call awaited spec reason)
  | _, _ => none

end PlacedPanelSurface

def PanelEvent.call : PanelEvent Call → Call
  | .opens call _ _ => call
  | .closes call _ => call
  | .losesFocus _ call => call
  | .cursorPoint call _ => call
  | .workArea call _ => call
  | .resumes call => call

namespace PlacedPanelSurface

variable [DecidableEq Call]

def step (surface : PlacedPanelSurface Call) (event : PanelEvent Call) :
    Option (PlacedPanelSurface Call) :=
  match surface.phase event.call with
  | .idle => surface.start event
  | phase => surface.advance phase event

end PlacedPanelSurface

/-! ## The window is given back -/

def PanelPhase.isOver : PanelPhase → Bool
  | .idle => true
  | .done _ => true
  | _ => false

/-- An opening that waits for one of its window calls up to the given one. -/
def PanelPhase.LiftsBy (bound : Nat) : PanelPhase → Prop
  | .lifting awaited _ _ => awaited.order ≤ bound
  | _ => False

/-- A closing that waits for one of its calls up to the given one. -/
def PanelPhase.LowersBy (bound : Nat) : PanelPhase → Prop
  | .lowering awaited _ _ => awaited.order ≤ bound
  | _ => False

theorem PanelPhase.LowersBy.mono {bound upper : Nat} (hle : bound ≤ upper)
    {phase : PanelPhase} (hlowers : phase.LowersBy bound) :
    phase.LowersBy upper := by
  cases phase with
  | lowering awaited spec reason => exact Nat.le_trans hlowers hle
  | _ => exact hlowers

/-- An opening under way that will listen for a focus loss. -/
def PanelPhase.WillListen : PanelPhase → Prop
  | .lifting _ spec _ => spec.dismissOnFocusLoss = true
  | _ => False

/-- A call that is over neither lowers nor lifts nor listens. -/
theorem PanelPhase.not_of_isOver {phase : PanelPhase}
    (hover : phase.isOver = true) :
    (∀ bound, ¬ phase.LowersBy bound) ∧ (∀ bound, ¬ phase.LiftsBy bound) ∧
      ¬ phase.WillListen := by
  cases phase with
  | idle => simp [LowersBy, LiftsBy, WillListen]
  | done placement => simp [LowersBy, LiftsBy, WillListen]
  | _ => simp [isOver] at hover

def PanelPhase.spec : PanelPhase → Option PanelSpec
  | .idle => none
  | .awaitsCursor spec => some spec
  | .awaitsWorkArea spec _ => some spec
  | .awaitsBounds spec _ _ => some spec
  | .lifting _ spec _ => some spec
  | .lowering _ spec _ => some spec
  | .done _ => none

/-- Every opening asks for the frame from before it. -/
def PanelEvent.Restoring : PanelEvent Call → Prop
  | .opens _ spec _ => spec.restorePreviousPlacement = true
  | _ => True

namespace PlacedPanelSurface

def Settled (surface : PlacedPanelSurface Call) : Prop :=
  ∀ call, (surface.phase call).isOver = true

structure Restored (home : Rect) (surface : PlacedPanelSurface Call) :
    Prop where
  closed : surface.isOpen = false →
    surface.window =
      { visible := false
        alwaysOnTop := false
        skipTaskbar := false
        bounds := home } ∧ surface.live = []
  opened : ∀ spec, surface.opened = some spec →
    surface.window.visible = true ∧ surface.window.alwaysOnTop = true ∧
      (spec.dismissOnFocusLoss = true → surface.live.length = 1)

/-- The panel is open, or the closing that has begun is still to make the
call with the given number. -/
def Held (bound : Nat) (surface : PlacedPanelSurface Call) : Prop :=
  surface.isOpen = true ∨ ∃ call, (surface.phase call).LowersBy bound

/-- A closed panel with nothing closing holds nothing. -/
theorem not_held {surface : PlacedPanelSurface Call} {bound : Nat}
    (hbound : bound ≤ Lower.skipTaskbar.order)
    (hclosed : surface.opened = none)
    (hquiet : ∀ call,
      ¬ (surface.phase call).LowersBy Lower.skipTaskbar.order) :
    ¬ surface.Held bound := by
  rintro (hopen | ⟨call, hcall⟩)
  · simp [isOpen, hclosed] at hopen
  · exact hquiet call (hcall.mono hbound)

/-- The bounds are read where the window is at its own frame, a panel becomes
open while nothing closes, an opening goes on while the panel is open or a
closing is still to undo what it does, and no second subscription is taken. -/
def Coordinated (home : Rect) (surface : PlacedPanelSurface Call) :
    PanelEvent Call → Prop
  | .workArea _ _ => surface.window.bounds = home
  | .resumes call =>
      match surface.phase call with
      | .awaitsBounds _ _ _ =>
          ∀ other, ¬ (surface.phase other).LowersBy Lower.skipTaskbar.order
      | .lifting .skipTaskbar _ _ => surface.Held Lower.hidden.order
      | .lifting .alwaysOnTop _ _ => surface.Held Lower.skipTaskbar.order
      | .lifting .bounds _ _ => surface.Held Lower.cancelled.order
      | .lifting .focused spec _ =>
          spec.dismissOnFocusLoss = true →
            surface.isOpen = true ∧ surface.live = []
      | _ => True
  | _ => True

/-! ### The invariant -/

/-- The panel is closed and no closing is under way. -/
structure Shut (home : Rect) (surface : PlacedPanelSurface Call) :
    Prop where
  window : surface.window =
    { visible := false
      alwaysOnTop := false
      skipTaskbar := false
      bounds := home }
  live : surface.live = []
  frames : surface.frames = none

/-- A closing is under way. -/
structure Lowering (home : Rect) (awaited : Lower)
    (surface : PlacedPanelSurface Call) : Prop where
  opened : surface.opened = none
  restore : surface.restore = some home
  live : surface.live = []
  frames : Lower.hidden.order ≤ awaited.order → surface.frames = none
  visible : Lower.hidden.order ≤ awaited.order →
    surface.window.visible = false
  alwaysOnTop : Lower.alwaysOnTop.order ≤ awaited.order →
    surface.window.alwaysOnTop = false
  skipTaskbar : Lower.skipTaskbar.order ≤ awaited.order →
    surface.window.skipTaskbar = false

/-- The panel is open: what it does not show yet some opening is about to. -/
structure Lifted (home : Rect) (spec : PanelSpec)
    (surface : PlacedPanelSurface Call) : Prop where
  restoring : spec.restorePreviousPlacement = true
  restore : surface.restore = some home
  live : surface.live = surface.frames.toList
  visible : surface.window.visible = true ∨
    ∃ call, (surface.phase call).LiftsBy Lift.bounds.order
  alwaysOnTop : surface.window.alwaysOnTop = true ∨
    ∃ call, (surface.phase call).LiftsBy Lift.skipTaskbar.order
  listened : spec.dismissOnFocusLoss = true → surface.live ≠ [] ∨
    ∃ call, (surface.phase call).WillListen

structure Kept (home : Rect) (surface : PlacedPanelSurface Call) :
    Prop where
  read : ∀ call spec placement bounds,
    surface.phase call = .awaitsBounds spec placement bounds → bounds = home
  restoring : ∀ call spec, (surface.phase call).spec = some spec →
    spec.restorePreviousPlacement = true
  alone : ∀ first second,
    (surface.phase first).LowersBy Lower.skipTaskbar.order →
      (surface.phase second).LowersBy Lower.skipTaskbar.order →
        first = second
  shut : surface.opened = none →
    (∀ call, ¬ (surface.phase call).LowersBy Lower.skipTaskbar.order) →
      Shut home surface
  lowering : ∀ call awaited spec reason,
    surface.phase call = .lowering awaited spec reason →
      awaited.order ≤ Lower.skipTaskbar.order → Lowering home awaited surface
  lifted : ∀ spec, surface.opened = some spec → Lifted home spec surface

theorem kept_resting (home : Rect) :
    Kept home (resting home : PlacedPanelSurface Call) where
  read := by simp [resting]
  restoring := by simp [resting, PanelPhase.spec]
  alone := by simp [resting, PanelPhase.LowersBy]
  shut := fun _ _ => ⟨rfl, rfl, rfl⟩
  lowering := by simp [resting]
  lifted := by simp [resting]

namespace Kept

variable {home : Rect} {surface : PlacedPanelSurface Call}

/-- Nothing closes an open panel but a closing that begins. -/
theorem quiet_of_opened (hkept : Kept home surface) {spec : PanelSpec}
    (hopened : surface.opened = some spec) (call : Call) :
    ¬ (surface.phase call).LowersBy Lower.skipTaskbar.order := by
  intro hlowers
  cases hphase : surface.phase call with
  | lowering awaited found reason =>
      have hlower := hkept.lowering call awaited found reason hphase
        (by simpa [hphase, PanelPhase.LowersBy] using hlowers)
      simp [hlower.opened] at hopened
  | _ => simp [hphase, PanelPhase.LowersBy] at hlowers

/-- Nothing is closing, so that what is live is what the surface holds. -/
theorem live_eq (hkept : Kept home surface)
    (hquiet : ∀ other,
      ¬ (surface.phase other).LowersBy Lower.skipTaskbar.order) :
    surface.live = surface.frames.toList := by
  cases hopened : surface.opened with
  | none =>
      have hshut := hkept.shut hopened hquiet
      simp [hshut.live, hshut.frames]
  | some spec => exact (hkept.lifted spec hopened).live

/-- Where every call is over nothing lifts and nothing lowers, and what was
still to come has come. -/
theorem restored (hkept : Kept home surface) (hsettled : surface.Settled) :
    Restored home surface where
  closed := by
    intro hclosed
    have hquiet : ∀ call,
        ¬ (surface.phase call).LowersBy Lower.skipTaskbar.order := by
      intro call
      exact PanelPhase.not_of_isOver (hsettled call) |>.1 _
    have hshut := hkept.shut (by simpa [isOpen] using hclosed) hquiet
    exact ⟨hshut.window, hshut.live⟩
  opened := by
    intro spec hopened
    have hlifted := hkept.lifted spec hopened
    have hlifts : ∀ bound, ¬ ∃ call, (surface.phase call).LiftsBy bound := by
      rintro bound ⟨call, hcall⟩
      exact (PanelPhase.not_of_isOver (hsettled call)).2.1 bound hcall
    refine ⟨hlifted.visible.resolve_right (hlifts _),
      hlifted.alwaysOnTop.resolve_right (hlifts _), ?_⟩
    intro hdismiss
    have hlive := (hlifted.listened hdismiss).resolve_right (by
      rintro ⟨call, hcall⟩
      exact (PanelPhase.not_of_isOver (hsettled call)).2.2 hcall)
    rw [hlifted.live] at hlive ⊢
    cases hframes : surface.frames with
    | none => simp [hframes] at hlive
    | some subscription => rfl

/-- The closing under way is at the call something is held by, or before. -/
theorem order_le (hkept : Kept home surface) {bound : Nat}
    (hbound : bound ≤ Lower.skipTaskbar.order) (hheld : surface.Held bound)
    (hclosed : surface.opened = none) {call : Call} {awaited : Lower}
    {spec : PanelSpec} {reason : PanelDismissal}
    (hphase : surface.phase call = .lowering awaited spec reason)
    (hunder : awaited.order ≤ Lower.skipTaskbar.order) :
    awaited.order ≤ bound := by
  obtain hopen | ⟨other, hother⟩ := hheld
  · simp [isOpen, hclosed] at hopen
  · obtain rfl : other = call := by
      refine hkept.alone other call (hother.mono hbound) ?_
      simpa [hphase, PanelPhase.LowersBy] using hunder
    simpa [hphase, PanelPhase.LowersBy] using hother

end Kept

section

variable [DecidableEq Call] {home : Rect} {call : Call} {phase : PanelPhase}
  {surface next : PlacedPanelSurface Call}

/-- Some call is still at a phase of a kind when the one that moves stays at
that kind. -/
theorem exists_move {P : PanelPhase → Prop}
    (hphase : next.phase = Function.update surface.phase call phase)
    (hmove : P (surface.phase call) → P phase)
    (hsome : ∃ other, P (surface.phase other)) :
    ∃ other, P (next.phase other) := by
  obtain ⟨other, hother⟩ := hsome
  rw [hphase]
  by_cases hsame : other = call
  · exact ⟨call, by simpa using hmove (hsame ▸ hother)⟩
  · exact ⟨other, by simpa [Function.update_of_ne hsame] using hother⟩

/-- A call at a phase of a kind was there before unless it is the one that
moved to it. -/
theorem of_phase_move {P : PanelPhase → Prop}
    (hphase : next.phase = Function.update surface.phase call phase)
    (hnot : ¬ P phase) {other : Call} (hother : P (next.phase other)) :
    other ≠ call ∧ P (surface.phase other) := by
  rw [hphase] at hother
  by_cases hsame : other = call
  · exact absurd (by simpa [hsame] using hother) hnot
  · exact ⟨hsame, by simpa [Function.update_of_ne hsame] using hother⟩

namespace Kept

/-- A call moves between phases that close nothing. -/
theorem move (hkept : Kept home surface)
    (hphase : next.phase = Function.update surface.phase call phase)
    (hopened : next.opened = surface.opened)
    (hold : ¬ (surface.phase call).LowersBy Lower.skipTaskbar.order)
    (hnew : ¬ phase.LowersBy Lower.skipTaskbar.order)
    (hread : ∀ spec placement bounds,
      phase = .awaitsBounds spec placement bounds → bounds = home)
    (hspec : ∀ spec, phase.spec = some spec →
      spec.restorePreviousPlacement = true)
    (hshut : surface.opened = none →
      (∀ other, ¬ (surface.phase other).LowersBy Lower.skipTaskbar.order) →
        Shut home surface → Shut home next)
    (hlowering : ∀ other awaited spec reason,
      surface.phase other = .lowering awaited spec reason →
        surface.opened = none → awaited.order ≤ Lower.skipTaskbar.order →
          Lowering home awaited surface → Lowering home awaited next)
    (hlifted : ∀ spec, surface.opened = some spec →
      Lifted home spec surface → Lifted home spec next) : Kept home next where
  read := by
    intro other spec placement bounds hother
    rw [hphase] at hother
    by_cases hsame : other = call
    · exact hread spec placement bounds (by simpa [hsame] using hother)
    · exact hkept.read other spec placement bounds
        (by simpa [Function.update_of_ne hsame] using hother)
  restoring := by
    intro other spec hother
    rw [hphase] at hother
    by_cases hsame : other = call
    · exact hspec spec (by simpa [hsame] using hother)
    · exact hkept.restoring other spec
        (by simpa [Function.update_of_ne hsame] using hother)
  alone := by
    intro first second hfirst hsecond
    exact hkept.alone first second (of_phase_move hphase hnew hfirst).2
      (of_phase_move hphase hnew hsecond).2
  shut := by
    intro hnone hquiet
    have hbefore : ∀ other,
        ¬ (surface.phase other).LowersBy Lower.skipTaskbar.order := by
      intro other hother
      obtain ⟨found, hfound⟩ := exists_move hphase (fun hlowers =>
        absurd hlowers hold) ⟨other, hother⟩
      exact hquiet found hfound
    have hclosed := hopened ▸ hnone
    exact hshut hclosed hbefore (hkept.shut hclosed hbefore)
  lowering := by
    intro other awaited spec reason hother hbound
    obtain ⟨-, hbefore⟩ := of_phase_move
      (P := fun found => found = .lowering awaited spec reason) hphase
      (by rintro rfl; exact hnew hbound) hother
    have hlower := hkept.lowering other awaited spec reason hbefore hbound
    exact hlowering other awaited spec reason hbefore hlower.opened hbound
      hlower
  lifted := by
    intro spec hsome
    rw [hopened] at hsome
    exact hlifted spec hsome (hkept.lifted spec hsome)

/-- A waiting call moves on; the surface stays as it is. -/
theorem wait (hkept : Kept home surface)
    (hold : ¬ (surface.phase call).LowersBy Lower.skipTaskbar.order)
    (hidle : ∀ bound, ¬ (surface.phase call).LiftsBy bound)
    (hdeaf : ¬ (surface.phase call).WillListen)
    (hnew : ¬ phase.LowersBy Lower.skipTaskbar.order)
    (hread : ∀ spec placement bounds,
      phase = .awaitsBounds spec placement bounds → bounds = home)
    (hspec : ∀ spec, phase.spec = some spec →
      spec.restorePreviousPlacement = true)
    {dismissals : List PanelDismissal} :
    Kept home { surface.move call phase with dismissals } := by
  refine hkept.move rfl rfl hold hnew hread hspec ?_ ?_ ?_
  · intro _ _ hshut
    exact ⟨hshut.window, hshut.live, hshut.frames⟩
  · intro _ _ _ _ _ _ _ hlower
    exact ⟨hlower.opened, hlower.restore, hlower.live, hlower.frames,
      hlower.visible, hlower.alwaysOnTop, hlower.skipTaskbar⟩
  · intro _ _ hlifted
    refine ⟨hlifted.restoring, hlifted.restore, hlifted.live, ?_, ?_, ?_⟩
    · exact hlifted.visible.imp_right
        (exists_move rfl fun hlifts => absurd hlifts (hidle _))
    · exact hlifted.alwaysOnTop.imp_right
        (exists_move rfl fun hlifts => absurd hlifts (hidle _))
    · intro hdismiss
      exact (hlifted.listened hdismiss).imp_right
        (exists_move rfl fun hlistens => absurd hlistens hdeaf)

theorem lift (hkept : Kept home surface) {spec : PanelSpec}
    {placement : PanelPlacement}
    (hquiet : ∀ other,
      ¬ (surface.phase other).LowersBy Lower.skipTaskbar.order)
    (hrestoring : spec.restorePreviousPlacement = true) :
    Kept home
      ({ surface with restore := some home }.lift call spec placement) := by
  have hphase : ({ surface with restore := some home }.lift call spec
      placement).phase = Function.update surface.phase call
        (.lifting .skipTaskbar spec placement) := rfl
  have hnone : ∀ other, ¬ (({ surface with restore := some home }.lift call
      spec placement).phase other).LowersBy Lower.skipTaskbar.order := by
    intro other hother
    exact hquiet other (of_phase_move hphase (by simp [PanelPhase.LowersBy])
      hother).2
  refine ⟨?_, ?_, ?_, ?_, ?_, ?_⟩
  · intro other spec placement bounds hother
    exact hkept.read other spec placement bounds
      (of_phase_move (P := fun found =>
        found = .awaitsBounds spec placement bounds) hphase (by simp) hother).2
  · intro other found hother
    by_cases hsame : other = call
    · obtain rfl : spec = found := by
        simpa [hphase, hsame, PanelPhase.spec] using hother
      exact hrestoring
    · exact hkept.restoring other found
        (by simpa [hphase, Function.update_of_ne hsame] using hother)
  · intro first second hfirst
    exact absurd hfirst (hnone first)
  · intro hclosed
    simp [PlacedPanelSurface.lift] at hclosed
  · intro other awaited found reason hother hbound
    exact absurd (by simpa [hother, PanelPhase.LowersBy] using hbound)
      (hnone other)
  · intro found hfound
    obtain rfl : spec = found := Option.some.inj hfound
    have hself : ({ surface with restore := some home }.lift call spec
        placement).phase call = .lifting .skipTaskbar spec placement := by
      simp [hphase]
    refine ⟨hrestoring, rfl, hkept.live_eq hquiet,
      Or.inr ⟨call, ?_⟩, Or.inr ⟨call, ?_⟩,
      fun hdismiss => Or.inr ⟨call, ?_⟩⟩
    · simp [hself, PanelPhase.LiftsBy, Lift.order]
    · simp [hself, PanelPhase.LiftsBy]
    · simpa [hself, PanelPhase.WillListen] using hdismiss

/-- The one closing under way moves on. -/
theorem down (hkept : Kept home surface)
    (hphase : next.phase = Function.update surface.phase call phase)
    (hothers : ∀ other, other ≠ call →
      ¬ (surface.phase other).LowersBy Lower.skipTaskbar.order)
    (hopened : next.opened = none)
    (hread : ∀ spec placement bounds,
      phase ≠ .awaitsBounds spec placement bounds)
    (hspec : ∀ spec, phase.spec = some spec →
      spec.restorePreviousPlacement = true)
    (hshut : ¬ phase.LowersBy Lower.skipTaskbar.order → Shut home next)
    (hlowering : ∀ awaited spec reason,
      phase = .lowering awaited spec reason →
        awaited.order ≤ Lower.skipTaskbar.order →
          Lowering home awaited next) : Kept home next where
  read := by
    intro other spec placement bounds hother
    exact hkept.read other spec placement bounds
      (of_phase_move (P := fun found =>
        found = .awaitsBounds spec placement bounds) hphase
        (hread spec placement bounds) hother).2
  restoring := by
    intro other spec hother
    rw [hphase] at hother
    by_cases hsame : other = call
    · exact hspec spec (by simpa [hsame] using hother)
    · exact hkept.restoring other spec
        (by simpa [Function.update_of_ne hsame] using hother)
  alone := by
    have hcall : ∀ other,
        (next.phase other).LowersBy Lower.skipTaskbar.order →
          other = call := by
      intro other hother
      by_contra hne
      rw [hphase, Function.update_of_ne hne] at hother
      exact hothers other hne hother
    intro first second hfirst hsecond
    rw [hcall first hfirst, hcall second hsecond]
  shut := by
    intro _ hquiet
    exact hshut (by simpa [hphase] using hquiet call)
  lowering := by
    intro other awaited spec reason hother hbound
    rw [hphase] at hother
    by_cases hsame : other = call
    · exact hlowering awaited spec reason (by simpa [hsame] using hother) hbound
    · rw [Function.update_of_ne hsame] at hother
      exact absurd (by simpa [hother, PanelPhase.LowersBy] using hbound)
        (hothers other hsame)
  lifted := by
    intro spec hsome
    simp [hopened] at hsome

theorem close (hkept : Kept home surface) (hidle : surface.phase call = .idle)
    {reason : PanelDismissal} : Kept home (surface.close call reason) := by
  unfold PlacedPanelSurface.close
  cases hopened : surface.opened with
  | none =>
      exact hkept.wait (by simp [hidle, PanelPhase.LowersBy])
        (by simp [hidle, PanelPhase.LiftsBy])
        (by simp [hidle, PanelPhase.WillListen])
        (by simp [PanelPhase.LowersBy]) (by simp)
        (by simp [PanelPhase.spec])
  | some spec =>
      have hlifted := hkept.lifted spec hopened
      refine hkept.down rfl (fun other _ => hkept.quiet_of_opened hopened other)
        rfl (by simp) (by simp [PanelPhase.spec, hlifted.restoring]) ?_ ?_
      · intro hshut
        simp [PanelPhase.LowersBy, Lower.order] at hshut
      · rintro awaited found reason heq -
        obtain ⟨rfl, -, -⟩ : Lower.cancelled = awaited ∧ _ ∧ _ := by
          simpa using heq
        refine ⟨rfl, hlifted.restore, ?_, ?_, ?_, ?_, ?_⟩
        · cases hframes : surface.frames <;>
            simp [hlifted.live, hframes]
        all_goals simp [Lower.order]

section

variable {spec : PanelSpec} {placement : PanelPlacement}

/-- An opening moves on to its next window call. -/
theorem raise (hkept : Kept home surface) {awaited later : Lift}
    (hphase : surface.phase call = .lifting awaited spec placement)
    {window : PanelWindow}
    (hshut : surface.opened = none →
      (∀ other, ¬ (surface.phase other).LowersBy Lower.skipTaskbar.order) →
        window = surface.window)
    (hlowering : ∀ other lower found reason,
      surface.phase other = .lowering lower found reason →
        surface.opened = none → lower.order ≤ Lower.skipTaskbar.order →
          Lowering home lower surface →
            Lowering home lower { surface with window })
    (hvisible : surface.window.visible = true → window.visible = true)
    (hlifts : awaited.order ≤ Lift.bounds.order →
      window.visible = true ∨ later.order ≤ Lift.bounds.order)
    (hontop : surface.window.alwaysOnTop = true → window.alwaysOnTop = true)
    (hfirst : awaited.order ≤ Lift.skipTaskbar.order →
      window.alwaysOnTop = true ∨ later.order ≤ Lift.skipTaskbar.order) :
    Kept home
      { surface.move call (.lifting later spec placement) with window } := by
  refine hkept.move rfl rfl (by simp [hphase, PanelPhase.LowersBy])
    (by simp [PanelPhase.LowersBy]) (by simp) ?_ ?_ ?_ ?_
  · intro found hfound
    exact hkept.restoring call found
      (by simpa [hphase, PanelPhase.spec] using hfound)
  · intro hclosed hquiet hbefore
    refine ⟨?_, hbefore.live, hbefore.frames⟩
    rw [← hbefore.window]
    exact hshut hclosed hquiet
  · intro other lower found reason hother hclosed hbound hbefore
    have hafter := hlowering other lower found reason hother hclosed hbound
      hbefore
    exact ⟨hafter.opened, hafter.restore, hafter.live, hafter.frames,
      hafter.visible, hafter.alwaysOnTop, hafter.skipTaskbar⟩
  · intro found _ hlifted
    refine ⟨hlifted.restoring, hlifted.restore, hlifted.live, ?_, ?_, ?_⟩
    · by_cases hshown : window.visible = true
      · exact Or.inl hshown
      · refine Or.inr (exists_move rfl ?_
          (hlifted.visible.resolve_left (hshown ∘ hvisible)))
        rw [hphase]
        exact fun hby => (hlifts hby).resolve_left hshown
    · by_cases htop : window.alwaysOnTop = true
      · exact Or.inl htop
      · refine Or.inr (exists_move rfl ?_
          (hlifted.alwaysOnTop.resolve_left (htop ∘ hontop)))
        rw [hphase]
        exact fun hby => (hfirst hby).resolve_left htop
    · intro hdismiss
      refine (hlifted.listened hdismiss).imp_right (exists_move rfl ?_)
      simp [hphase, PanelPhase.WillListen]

theorem lifted_skipTaskbar (hkept : Kept home surface)
    (hphase : surface.phase call = .lifting .skipTaskbar spec placement)
    (hheld : surface.Held Lower.hidden.order) :
    Kept home (surface.lifted call .skipTaskbar spec placement) := by
  have hbound : Lower.hidden.order ≤ Lower.skipTaskbar.order := by
    simp [Lower.order]
  refine hkept.raise hphase ?_ ?_ id (fun _ => Or.inr ?_) (fun _ => rfl)
    (fun _ => Or.inl rfl)
  · intro hclosed hquiet
    exact absurd hheld (not_held hbound hclosed hquiet)
  · intro other lower found reason hother hclosed hunder hlower
    have hle := hkept.order_le hbound hheld hclosed hother hunder
    refine ⟨hlower.opened, hlower.restore, hlower.live, hlower.frames,
      hlower.visible, ?_, hlower.skipTaskbar⟩
    intro htop
    have := htop.trans hle
    simp [Lower.order] at this
  · simp [Lift.order]

theorem lifted_alwaysOnTop (hkept : Kept home surface)
    (hphase : surface.phase call = .lifting .alwaysOnTop spec placement)
    (hheld : surface.Held Lower.skipTaskbar.order) :
    Kept home (surface.lifted call .alwaysOnTop spec placement) := by
  refine hkept.raise hphase ?_ ?_ id (fun _ => Or.inr le_rfl) id ?_
  · intro hclosed hquiet
    exact absurd hheld (not_held le_rfl hclosed hquiet)
  · intro other lower found reason hother hclosed hunder hlower
    exact ⟨hlower.opened, hlower.restore, hlower.live, hlower.frames,
      hlower.visible, hlower.alwaysOnTop, hlower.skipTaskbar⟩
  · simp [Lift.order]

theorem lifted_bounds (hkept : Kept home surface)
    (hphase : surface.phase call = .lifting .bounds spec placement)
    (hheld : surface.Held Lower.cancelled.order) :
    Kept home (surface.lifted call .bounds spec placement) := by
  have hbound : Lower.cancelled.order ≤ Lower.skipTaskbar.order := by
    simp [Lower.order]
  refine hkept.raise hphase ?_ ?_ (fun _ => rfl) (fun _ => Or.inl rfl) id ?_
  · intro hclosed hquiet
    exact absurd hheld (not_held hbound hclosed hquiet)
  · intro other lower found reason hother hclosed hunder hlower
    have hle := hkept.order_le hbound hheld hclosed hother hunder
    refine ⟨hlower.opened, hlower.restore, hlower.live, hlower.frames, ?_,
      hlower.alwaysOnTop, hlower.skipTaskbar⟩
    intro hhidden
    have := hhidden.trans hle
    simp [Lower.order] at this
  · simp [Lift.order]

theorem lifted_shown (hkept : Kept home surface)
    (hphase : surface.phase call = .lifting .shown spec placement) :
    Kept home (surface.lifted call .shown spec placement) := by
  refine hkept.raise hphase (fun _ _ => rfl) ?_ id ?_ id ?_
  · intro other lower found reason _ _ _ hlower
    exact hlower
  · simp [Lift.order]
  · simp [Lift.order]

/-- The last step of an opening takes the subscription. -/
theorem lifted_focused (hkept : Kept home surface)
    (hphase : surface.phase call = .lifting .focused spec placement)
    (hlistens : spec.dismissOnFocusLoss = true →
      surface.isOpen = true ∧ surface.live = []) :
    Kept home (surface.lifted call .focused spec placement) := by
  have hold : ¬ (surface.phase call).LowersBy Lower.skipTaskbar.order := by
    simp [hphase, PanelPhase.LowersBy]
  have hnew : ¬ (PanelPhase.done (some placement)).LowersBy
      Lower.skipTaskbar.order := by
    simp [PanelPhase.LowersBy]
  unfold PlacedPanelSurface.lifted
  by_cases hdismiss : spec.dismissOnFocusLoss = true
  · obtain ⟨hopen, hlive⟩ := hlistens hdismiss
    simp only [hdismiss, if_true]
    refine hkept.move rfl rfl hold hnew (by simp)
      (by simp [PanelPhase.spec]) ?_ ?_ ?_
    · intro hclosed
      simp [isOpen, hclosed] at hopen
    · intro _ _ _ _ _ hclosed
      simp [isOpen, hclosed] at hopen
    · intro found _ hlifted
      refine ⟨hlifted.restoring, hlifted.restore, ?_, ?_, ?_, ?_⟩
      · simp [listen, PlacedPanelSurface.move, hlive]
      · exact hlifted.visible.imp_right (exists_move rfl
          (by simp [hphase, PanelPhase.LiftsBy, Lift.order]))
      · exact hlifted.alwaysOnTop.imp_right (exists_move rfl
          (by simp [hphase, PanelPhase.LiftsBy, Lift.order]))
      · intro _
        exact Or.inl (by simp [listen])
  · simp only [hdismiss, Bool.false_eq_true, if_false]
    refine hkept.move rfl rfl hold hnew (by simp)
      (by simp [PanelPhase.spec]) ?_ ?_ ?_
    · intro _ _ hshut
      exact ⟨hshut.window, hshut.live, hshut.frames⟩
    · intro _ _ _ _ _ _ _ hlower
      exact ⟨hlower.opened, hlower.restore, hlower.live, hlower.frames,
        hlower.visible, hlower.alwaysOnTop, hlower.skipTaskbar⟩
    · intro found _ hlifted
      refine ⟨hlifted.restoring, hlifted.restore, hlifted.live, ?_, ?_, ?_⟩
      · exact hlifted.visible.imp_right (exists_move rfl
          (by simp [hphase, PanelPhase.LiftsBy, Lift.order]))
      · exact hlifted.alwaysOnTop.imp_right (exists_move rfl
          (by simp [hphase, PanelPhase.LiftsBy, Lift.order]))
      · intro hasks
        exact (hlifted.listened hasks).imp_right (exists_move rfl
          (by simp [hphase, PanelPhase.WillListen, hdismiss]))

end

theorem lowered (hkept : Kept home surface) {awaited : Lower}
    {spec : PanelSpec} {reason : PanelDismissal}
    (hphase : surface.phase call = .lowering awaited spec reason) :
    Kept home (surface.lowered call awaited spec reason) := by
  have hrestoring : spec.restorePreviousPlacement = true :=
    hkept.restoring call spec (by simp [hphase, PanelPhase.spec])
  have hspec : ∀ next found, (PanelPhase.lowering next spec reason).spec =
      some found → found.restorePreviousPlacement = true := by
    simp [PanelPhase.spec, hrestoring]
  have hothers : awaited ≠ .bounds → ∀ other, other ≠ call →
      ¬ (surface.phase other).LowersBy Lower.skipTaskbar.order := by
    intro hlast other hne hother
    refine hne (hkept.alone other call hother ?_)
    rw [hphase]
    cases awaited with
    | bounds => exact absurd rfl hlast
    | _ => simp [PanelPhase.LowersBy, Lower.order]
  cases awaited with
  | cancelled =>
      have hlower := hkept.lowering call _ spec reason hphase
        (by simp [Lower.order])
      refine hkept.down rfl (hothers (by simp)) hlower.opened (by simp)
        (hspec _) ?_ ?_
      · simp [PanelPhase.LowersBy, Lower.order]
      · rintro awaited found reason heq -
        obtain ⟨rfl, -, -⟩ : Lower.hidden = awaited ∧ _ ∧ _ := by
          simpa using heq
        exact ⟨hlower.opened, hlower.restore, hlower.live, fun _ => rfl,
          fun _ => rfl, by simp [Lower.order], by simp [Lower.order]⟩
  | hidden =>
      have hlower := hkept.lowering call _ spec reason hphase
        (by simp [Lower.order])
      refine hkept.down rfl (hothers (by simp)) hlower.opened (by simp)
        (hspec _) ?_ ?_
      · simp [PanelPhase.LowersBy, Lower.order]
      · rintro awaited found reason heq -
        obtain ⟨rfl, -, -⟩ : Lower.alwaysOnTop = awaited ∧ _ ∧ _ := by
          simpa using heq
        exact ⟨hlower.opened, hlower.restore, hlower.live,
          fun _ => hlower.frames le_rfl, fun _ => hlower.visible le_rfl,
          fun _ => rfl, by simp [Lower.order]⟩
  | alwaysOnTop =>
      have hlower := hkept.lowering call _ spec reason hphase
        (by simp [Lower.order])
      have hhidden : Lower.hidden.order ≤ Lower.alwaysOnTop.order := by
        simp [Lower.order]
      refine hkept.down rfl (hothers (by simp)) hlower.opened (by simp)
        (hspec _) ?_ ?_
      · simp [PanelPhase.LowersBy]
      · rintro awaited found reason heq -
        obtain ⟨rfl, -, -⟩ : Lower.skipTaskbar = awaited ∧ _ ∧ _ := by
          simpa using heq
        exact ⟨hlower.opened, hlower.restore, hlower.live,
          fun _ => hlower.frames hhidden, fun _ => hlower.visible hhidden,
          fun _ => hlower.alwaysOnTop le_rfl, fun _ => rfl⟩
  | skipTaskbar =>
      have hlower := hkept.lowering call _ spec reason hphase le_rfl
      have hhidden : Lower.hidden.order ≤ Lower.skipTaskbar.order := by
        simp [Lower.order]
      have htop : Lower.alwaysOnTop.order ≤ Lower.skipTaskbar.order := by
        simp [Lower.order]
      simp only [PlacedPanelSurface.lowered, hrestoring, hlower.restore]
      refine hkept.down rfl (hothers (by simp)) hlower.opened (by simp)
        (hspec _) ?_ ?_
      · intro _
        refine ⟨?_, hlower.live, hlower.frames hhidden⟩
        simp [hlower.visible hhidden, hlower.alwaysOnTop htop,
          hlower.skipTaskbar le_rfl]
      · rintro awaited found reason heq hbound
        obtain ⟨rfl, -, -⟩ : Lower.bounds = awaited ∧ _ ∧ _ := by
          simpa using heq
        simp [Lower.order] at hbound
  | bounds =>
      exact hkept.wait (by simp [hphase, PanelPhase.LowersBy, Lower.order])
        (by simp [hphase, PanelPhase.LiftsBy])
        (by simp [hphase, PanelPhase.WillListen])
        (by simp [PanelPhase.LowersBy]) (by simp)
        (by simp [PanelPhase.spec])

theorem start {event : PanelEvent Call} (hkept : Kept home surface)
    (hidle : surface.phase event.call = .idle) (hspec : event.Restoring)
    (hstart : surface.start event = some next) : Kept home next := by
  have hwait : ∀ {phase : PanelPhase},
      ¬ phase.LowersBy Lower.skipTaskbar.order →
        (∀ spec placement bounds,
          phase ≠ .awaitsBounds spec placement bounds) →
          (∀ spec, phase.spec = some spec →
            spec.restorePreviousPlacement = true) →
            Kept home (surface.move event.call phase) := by
    intro phase hlowers hbounds hrestoring
    refine hkept.wait ?_ ?_ ?_ hlowers ?_ hrestoring
    · simp [hidle, PanelPhase.LowersBy]
    · simp [hidle, PanelPhase.LiftsBy]
    · simp [hidle, PanelPhase.WillListen]
    · intro spec placement bounds heq
      exact absurd heq (hbounds spec placement bounds)
  cases event with
  | opens call spec anchorPoint =>
      simp only [PlacedPanelSurface.start] at hstart
      split at hstart
      · cases hstart
        exact hkept.close hidle
      · cases anchorPoint with
        | none =>
            cases hstart
            exact hwait (by simp [PanelPhase.LowersBy]) (by simp)
              (by simpa [PanelPhase.spec, PanelEvent.Restoring] using hspec)
        | some anchor =>
            cases hstart
            exact hwait (by simp [PanelPhase.LowersBy]) (by simp)
              (by simpa [PanelPhase.spec, PanelEvent.Restoring] using hspec)
  | closes call reason =>
      cases hstart
      exact hkept.close hidle
  | losesFocus subscription call =>
      simp only [PlacedPanelSurface.start] at hstart
      split at hstart
      · cases hstart
        exact hkept.close hidle
      · cases hstart
  | cursorPoint call point => cases hstart
  | workArea call area => cases hstart
  | resumes call => cases hstart

theorem advance {event : PanelEvent Call} (hkept : Kept home surface)
    (hcondition : surface.Coordinated home event)
    (hadvance : surface.advance (surface.phase event.call) event =
      some next) : Kept home next := by
  cases event with
  | opens call spec anchorPoint =>
      cases hphase : surface.phase call <;>
        simp [PanelEvent.call, hphase, PlacedPanelSurface.advance] at hadvance
  | closes call reason =>
      cases hphase : surface.phase call <;>
        simp [PanelEvent.call, hphase, PlacedPanelSurface.advance] at hadvance
  | losesFocus subscription call =>
      cases hphase : surface.phase call <;>
        simp [PanelEvent.call, hphase, PlacedPanelSurface.advance] at hadvance
  | cursorPoint call point =>
      cases hphase : surface.phase call with
      | awaitsCursor spec =>
          simp only [PanelEvent.call, hphase] at hadvance
          cases hadvance
          refine hkept.wait ?_ ?_ ?_ (by simp [PanelPhase.LowersBy])
            (by simp) ?_
          · simp [hphase, PanelPhase.LowersBy]
          · simp [hphase, PanelPhase.LiftsBy]
          · simp [hphase, PanelPhase.WillListen]
          · intro found hfound
            exact hkept.restoring call found
              (by simpa [hphase, PanelPhase.spec] using hfound)
      | _ =>
          simp [PanelEvent.call, hphase, PlacedPanelSurface.advance]
            at hadvance
  | workArea call area =>
      cases hphase : surface.phase call with
      | awaitsWorkArea spec anchor =>
          have hrestoring : spec.restorePreviousPlacement = true :=
            hkept.restoring call spec (by simp [hphase, PanelPhase.spec])
          simp only [PanelEvent.call, hphase] at hadvance
          cases hadvance
          rw [PlacedPanelSurface.place, if_pos hrestoring]
          refine hkept.wait ?_ ?_ ?_ (by simp [PanelPhase.LowersBy]) ?_
            (by simp [PanelPhase.spec, hrestoring])
          · simp [hphase, PanelPhase.LowersBy]
          · simp [hphase, PanelPhase.LiftsBy]
          · simp [hphase, PanelPhase.WillListen]
          · intro found placement bounds heq
            obtain ⟨-, -, rfl⟩ := PanelPhase.awaitsBounds.inj heq
            exact hcondition
      | _ =>
          simp [PanelEvent.call, hphase, PlacedPanelSurface.advance]
            at hadvance
  | resumes call =>
      simp only [Coordinated] at hcondition
      cases hphase : surface.phase call with
      | awaitsBounds spec placement bounds =>
          obtain rfl := hkept.read call spec placement bounds hphase
          simp only [hphase] at hcondition
          simp only [PanelEvent.call, hphase] at hadvance
          cases hadvance
          exact hkept.lift hcondition
            (hkept.restoring call spec (by simp [hphase, PanelPhase.spec]))
      | lifting awaited spec placement =>
          simp only [PanelEvent.call, hphase] at hadvance
          cases hadvance
          rw [hphase] at hcondition
          cases awaited with
          | skipTaskbar => exact hkept.lifted_skipTaskbar hphase hcondition
          | alwaysOnTop => exact hkept.lifted_alwaysOnTop hphase hcondition
          | bounds => exact hkept.lifted_bounds hphase hcondition
          | shown => exact hkept.lifted_shown hphase
          | focused => exact hkept.lifted_focused hphase hcondition
      | lowering awaited spec reason =>
          simp only [PanelEvent.call, hphase] at hadvance
          cases hadvance
          exact hkept.lowered hphase
      | _ =>
          simp [PanelEvent.call, hphase, PlacedPanelSurface.advance]
            at hadvance

theorem step {event : PanelEvent Call} (hkept : Kept home surface)
    (hcondition : surface.Coordinated home event)
    (hspec : event.Restoring)
    (hstep : surface.step event = some next) : Kept home next := by
  unfold PlacedPanelSurface.step at hstep
  cases hphase : surface.phase event.call with
  | idle =>
      rw [hphase] at hstep
      exact hkept.start hphase hspec hstep
  | _ =>
      rw [hphase] at hstep
      exact hkept.advance hcondition (by rw [hphase]; exact hstep)

end Kept

end

end PlacedPanelSurface

/-- In a run whose openings and closings are coordinated the window is given
back wherever every call is over. -/
theorem restored_of_coordinated [DecidableEq Call] {home : Rect}
    {events : List (PanelEvent Call)}
    (hspecs : ∀ event ∈ events, event.Restoring)
    (hcoordinated : EveryStep PlacedPanelSurface.step (.resting home)
      (PlacedPanelSurface.Coordinated home) events) :
    Throughout PlacedPanelSurface.step (.resting home)
      (fun surface => surface.Settled → surface.Restored home) events := by
  rintro before after surface rfl hrun hsettled
  have hevery : EveryStep PlacedPanelSurface.step (.resting home)
      (fun surface event => surface.Coordinated home event ∧ event.Restoring)
      before := by
    intro first event rest state hbefore hstate
    exact ⟨hcoordinated.of_append first event rest state hbefore hstate,
      hspecs event (by simp [hbefore])⟩
  have hkept : PlacedPanelSurface.Kept home surface := by
    refine hevery.invariant (PlacedPanelSurface.kept_resting home) ?_ hrun
    intro state event next hkept hcondition hstep
    exact hkept.step hcondition.1 hcondition.2 hstep
  exact hkept.restored hsettled

/-! ### Toggled twice -/

namespace PlacedPanelSurface

def home : Rect := .fromLTWH 300 300 900 700

def trayPanel : PanelSpec :=
  { size := ⟨360, 480⟩
    edgeGap := 8
    dismissOnFocusLoss := true
    restorePreviousPlacement := true }

def openedByTray : List (PanelEvent Bool) :=
  [.opens false trayPanel (some ⟨1300, 25⟩),
    .workArea false (.fromLTWH 0 25 1512 957), .resumes false]

/-- One click opens the panel and, when that is done, another closes it. -/
def toggled : List (PanelEvent Bool) :=
  openedByTray ++ List.replicate 5 (.resumes false) ++
    .opens true trayPanel none :: List.replicate 5 (.resumes true)

/-- The second click comes while the first one still lifts the window. -/
def toggledTwice : List (PanelEvent Bool) :=
  openedByTray ++ .opens true trayPanel none ::
    List.replicate 5 (.resumes true) ++ List.replicate 5 (.resumes false)

end PlacedPanelSurface

theorem restored_of_coordinated_toggled :
    (∀ event ∈ PlacedPanelSurface.toggled, event.Restoring) ∧
      EveryStep PlacedPanelSurface.step (.resting PlacedPanelSurface.home)
        (PlacedPanelSurface.Coordinated PlacedPanelSurface.home)
        PlacedPanelSurface.toggled ∧
      Throughout PlacedPanelSurface.step (.resting PlacedPanelSurface.home)
        (fun surface => surface.Settled →
          surface.Restored PlacedPanelSurface.home)
        PlacedPanelSurface.toggled := by
  have hspecs : ∀ event ∈ PlacedPanelSurface.toggled, event.Restoring := by
    simp [PlacedPanelSurface.toggled, PlacedPanelSurface.openedByTray,
      PlacedPanelSurface.trayPanel, PanelEvent.Restoring]
  have hcoordinated : EveryStep PlacedPanelSurface.step
      (.resting PlacedPanelSurface.home)
      (PlacedPanelSurface.Coordinated PlacedPanelSurface.home)
      PlacedPanelSurface.toggled := by
    refine (everyStep_cons rfl).mpr ⟨trivial, ?_⟩
    refine (everyStep_cons rfl).mpr ⟨rfl, ?_⟩
    refine (everyStep_cons rfl).mpr ⟨?_, ?_⟩
    · intro other
      cases other <;> exact not_false
    · refine (everyStep_cons rfl).mpr ⟨Or.inl rfl, ?_⟩
      refine (everyStep_cons rfl).mpr ⟨Or.inl rfl, ?_⟩
      refine (everyStep_cons rfl).mpr ⟨Or.inl rfl, ?_⟩
      refine (everyStep_cons rfl).mpr ⟨trivial, ?_⟩
      refine (everyStep_cons rfl).mpr ⟨fun _ => ⟨rfl, rfl⟩, ?_⟩
      refine (everyStep_cons rfl).mpr ⟨trivial, ?_⟩
      refine (everyStep_cons rfl).mpr ⟨trivial, ?_⟩
      refine (everyStep_cons rfl).mpr ⟨trivial, ?_⟩
      refine (everyStep_cons rfl).mpr ⟨trivial, ?_⟩
      refine (everyStep_cons rfl).mpr ⟨trivial, ?_⟩
      exact (everyStep_cons rfl).mpr ⟨trivial, everyStep_nil⟩
  exact ⟨hspecs, hcoordinated, restored_of_coordinated hspecs hcoordinated⟩

theorem not_restored_toggledTwice :
    ∃ surface,
      run PlacedPanelSurface.step (.resting PlacedPanelSurface.home)
        PlacedPanelSurface.toggledTwice = some surface ∧
      (∀ event ∈ PlacedPanelSurface.toggledTwice, event.Restoring) ∧
      surface.Settled ∧ surface.isOpen = false ∧
      surface.window.visible = true ∧ surface.window.alwaysOnTop = true ∧
      surface.live = [0] ∧ ¬ surface.Restored PlacedPanelSurface.home := by
  refine ⟨_, rfl, ?_, ?_, rfl, rfl, rfl, rfl, ?_⟩
  · simp [PlacedPanelSurface.toggledTwice, PlacedPanelSurface.openedByTray,
      PlacedPanelSurface.trayPanel, PanelEvent.Restoring]
  · intro call
    cases call <;> rfl
  · intro hrestored
    obtain ⟨-, hlive⟩ := hrestored.closed rfl
    cases hlive

end Dovetail.Platform
