import Dovetail.ScreenGeometry
import Dovetail.TransitionRun

/-!
# The frame a window is restored to

`WindowStateKeeper` saves where the window is and where it goes back to when
it is un-maximised, and restores both in the next session.  A save asks the
window twice, with an await after each question.
-/

namespace Dovetail.Platform

open TransitionRun

/-! ## Placements -/

structure WindowPlacement where
  size : Option Size
  position : Option Offset
  maximized : Bool
  restoredSize : Option Size
  restoredPosition : Option Offset
  deriving DecidableEq

inductive PlacementKey where
  | width
  | height
  | x
  | y
  | maximized
  | restoredWidth
  | restoredHeight
  | restoredX
  | restoredY
  deriving DecidableEq

inductive JsonValue where
  | number (value : ℚ)
  | flag (value : Bool)
  deriving DecidableEq

abbrev PlacementJson := PlacementKey → Option JsonValue

namespace WindowPlacement

def unknown : WindowPlacement :=
  { size := none
    position := none
    maximized := false
    restoredSize := none
    restoredPosition := none }

def isEmpty (placement : WindowPlacement) : Bool :=
  placement.size.isNone && placement.position.isNone && !placement.maximized

def toJson (placement : WindowPlacement) : PlacementJson
  | .width => placement.size.map fun size => .number size.width
  | .height => placement.size.map fun size => .number size.height
  | .x => placement.position.map fun position => .number position.dx
  | .y => placement.position.map fun position => .number position.dy
  | .maximized => some (.flag placement.maximized)
  | .restoredWidth =>
      placement.restoredSize.map fun size => .number size.width
  | .restoredHeight =>
      placement.restoredSize.map fun size => .number size.height
  | .restoredX =>
      placement.restoredPosition.map fun position => .number position.dx
  | .restoredY =>
      placement.restoredPosition.map fun position => .number position.dy

/-- `_size`: a size without an area is no size. -/
def readSize : Option JsonValue → Option JsonValue → Option Size
  | some (.number width), some (.number height) =>
      if width ≤ 0 ∨ height ≤ 0 then none else some { width, height }
  | _, _ => none

/-- `_offset`. -/
def readOffset : Option JsonValue → Option JsonValue → Option Offset
  | some (.number dx), some (.number dy) => some { dx, dy }
  | _, _ => none

def fromJson (json : PlacementJson) : WindowPlacement :=
  { size := readSize (json .width) (json .height)
    position := readOffset (json .x) (json .y)
    maximized := decide (json .maximized = some (.flag true))
    restoredSize := readSize (json .restoredWidth) (json .restoredHeight)
    restoredPosition := readOffset (json .restoredX) (json .restoredY) }

/-- `_frameOf`. -/
def frameOf : Option Size → Option Offset → Option Rect
  | some size, some position => some (.frame position size)
  | _, _ => none

def frame (placement : WindowPlacement) : Option Rect :=
  frameOf placement.size placement.position

def restoredFrame (placement : WindowPlacement) : Option Rect :=
  frameOf placement.restoredSize placement.restoredPosition

@[simp] theorem frameOf_map (frame : Option Rect) :
    frameOf (frame.map Rect.size) (frame.map Rect.topLeft) = frame := by
  cases frame <;> simp [frameOf]

/-! ### Written and read back -/

def hasArea (size : Size) : Bool :=
  decide (¬ (size.width ≤ 0 ∨ size.height ≤ 0))

/-- What reading a written placement gives: sizes without an area are gone. -/
def readBack (placement : WindowPlacement) : WindowPlacement :=
  { placement with
    size := placement.size.filter hasArea
    restoredSize := placement.restoredSize.filter hasArea }

theorem readSize_number (size : Option Size) :
    readSize (size.map fun found => .number found.width)
        (size.map fun found => .number found.height) =
      size.filter hasArea := by
  cases size with
  | none => rfl
  | some size =>
      by_cases hempty : size.width ≤ 0 ∨ size.height ≤ 0 <;>
        simp [readSize, Option.filter, hasArea, hempty]

theorem readOffset_number (position : Option Offset) :
    readOffset (position.map fun found => .number found.dx)
        (position.map fun found => .number found.dy) = position := by
  cases position <;> rfl

theorem fromJson_toJson (placement : WindowPlacement) :
    fromJson placement.toJson = placement.readBack := by
  simp [fromJson, toJson, readSize_number, readOffset_number, readBack]

/-- A frame read back is the one that was written. -/
theorem restoredFrame_of_readBack {placement : WindowPlacement} {found : Rect}
    (hfound : placement.readBack.restoredFrame = some found) :
    placement.restoredFrame = some found := by
  unfold restoredFrame readBack at hfound
  cases hsize : placement.restoredSize with
  | none => simp [hsize, frameOf] at hfound
  | some size =>
      by_cases harea : hasArea size = true
      · simpa [restoredFrame, hsize, Option.filter, harea] using hfound
      · simp [hsize, Option.filter, harea, frameOf] at hfound

end WindowPlacement

/-! ## Screens -/

namespace PlacementGuard

def minimumVisiblePatch : Size :=
  { width := 96
    height := 48 }

def visibleEnough (window screen : Rect) : Bool :=
  let overlap := window.intersect screen
  if overlap.isEmpty then false
  else
    decide (overlap.width ≥ minimumVisiblePatch.width ∧
      overlap.height ≥ minimumVisiblePatch.height)

def withoutPosition (placement : WindowPlacement) : WindowPlacement :=
  { placement with
    position := none
    restoredPosition := none }

def clampToScreens (placement : WindowPlacement) (screens : List Rect) :
    WindowPlacement :=
  match placement.position, placement.size with
  | some position, some size =>
      if screens.isEmpty then withoutPosition placement
      else if screens.any (visibleEnough (.frame position size)) then placement
      else withoutPosition placement
  | _, _ => placement

/-- A placement with a frame that some screen shows enough of. -/
def reachable (placement : WindowPlacement) (screens : List Rect) : Bool :=
  match placement.frame with
  | some frame => screens.any (visibleEnough frame)
  | none => false

theorem clampToScreens_of_reachable {placement : WindowPlacement}
    {screens : List Rect} (hreachable : reachable placement screens = true) :
    clampToScreens placement screens = placement := by
  unfold reachable WindowPlacement.frame at hreachable
  unfold clampToScreens
  cases hposition : placement.position with
  | none =>
      cases hsize : placement.size <;>
        simp [hposition, hsize, WindowPlacement.frameOf] at hreachable
  | some position =>
      cases hsize : placement.size with
      | none => rfl
      | some size =>
          simp only [hposition, hsize, WindowPlacement.frameOf] at hreachable
          cases screens with
          | nil => simp at hreachable
          | cons screen rest => simp [hreachable]

/-- The clamp invents no frame to restore to. -/
theorem restoredFrame_of_clampToScreens {placement : WindowPlacement}
    {screens : List Rect} {found : Rect}
    (hfound : (clampToScreens placement screens).restoredFrame = some found) :
    placement.restoredFrame = some found := by
  have hwithout : (withoutPosition placement).restoredFrame = none := by
    cases hsize : placement.restoredSize <;>
      simp [withoutPosition, WindowPlacement.restoredFrame, hsize,
        WindowPlacement.frameOf]
  unfold clampToScreens at hfound
  split at hfound
  · split at hfound
    · simp [hwithout] at hfound
    · split at hfound
      · exact hfound
      · simp [hwithout] at hfound
  · exact hfound

end PlacementGuard

/-! ## The keeper -/

/-- The window system's window: `normal` are the last bounds it was given or
took while it was not maximised. -/
structure KeptWindow where
  bounds : Rect
  normal : Rect
  maximized : Bool
  deriving DecidableEq

namespace KeptWindow

def fresh (bounds : Rect) : KeptWindow :=
  { bounds
    normal := bounds
    maximized := false }

def setBounds (window : KeptWindow) (bounds : Rect) : KeptWindow :=
  if window.maximized then { window with bounds } else fresh bounds

def maximize (window : KeptWindow) (full : Rect) : KeptWindow :=
  if window.maximized then window
  else { window with bounds := full, maximized := true }

def unmaximize (window : KeptWindow) : KeptWindow :=
  if window.maximized then fresh window.normal else window

end KeptWindow

inductive SavePhase where
  | idle
  | awaitsMaximized (maximized : Bool)
  | awaitsBounds (maximized : Bool) (bounds : Rect)
  deriving DecidableEq

inductive KeeperEvent (Call : Type*) where
  /-- A session: a new window at some bounds, and `restore`.  A window
  maximised in it fills `full`. -/
  | opens (bounds : Rect) (workAreas : List Rect) (full : Rect)
  | moves (bounds : Rect)
  | maximizes (full : Rect)
  | unmaximizes
  | saves (call : Call)
  | resumes (call : Call)

/-- The last three fields are not the keeper's: the frames the window had
while it was not maximised, what was written, and the frame the window owes
since the last `restore`, until somebody touches it. -/
structure WindowStateKeeper (Call : Type*) where
  file : Option PlacementJson
  lastRestoredFrame : Option Rect
  window : KeptWindow
  phase : Call → SavePhase
  had : List Rect
  written : List WindowPlacement
  due : Option Rect

variable {Call : Type*}

namespace WindowStateKeeper

/-- Nothing was saved yet. -/
def before (bounds : Rect) : WindowStateKeeper Call :=
  { file := none
    lastRestoredFrame := none
    window := .fresh bounds
    phase := fun _ => .idle
    had := [bounds]
    written := []
    due := none }

def load (keeper : WindowStateKeeper Call) : WindowPlacement :=
  match keeper.file with
  | none => .unknown
  | some json => .fromJson json

/-- The window becomes another one. -/
def turn (keeper : WindowStateKeeper Call) (window : KeptWindow) :
    WindowStateKeeper Call :=
  { keeper with
    window
    had :=
      if window.maximized then keeper.had
      else keeper.had ++ [window.bounds] }

/-! ### Restoring -/

def place (keeper : WindowStateKeeper Call) (placement : WindowPlacement) :
    WindowStateKeeper Call :=
  match placement.size, placement.position with
  | some size, some position =>
      keeper.turn (keeper.window.setBounds (.frame position size))
  | _, _ => keeper

def fill (keeper : WindowStateKeeper Call) (placement : WindowPlacement)
    (full : Rect) : WindowStateKeeper Call :=
  if placement.maximized then keeper.turn (keeper.window.maximize full)
  else keeper

/-- The frame a placement saved while maximised owes where it is reachable. -/
def dueFrame (saved : WindowPlacement) (workAreas : List Rect) :
    Option Rect :=
  if saved.maximized && PlacementGuard.reachable saved workAreas then
    saved.restoredFrame
  else none

def restore (keeper : WindowStateKeeper Call) (bounds : Rect)
    (workAreas : List Rect) (full : Rect) : WindowStateKeeper Call :=
  let placement := PlacementGuard.clampToScreens keeper.load workAreas
  { ((keeper.turn (.fresh bounds)).place placement).fill placement full with
    lastRestoredFrame := placement.restoredFrame
    phase := fun _ => .idle
    due := dueFrame keeper.load workAreas }

/-! ### Saving -/

variable [DecidableEq Call]

def move (keeper : WindowStateKeeper Call) (call : Call) (phase : SavePhase) :
    WindowStateKeeper Call :=
  { keeper with phase := Function.update keeper.phase call phase }

def store (keeper : WindowStateKeeper Call) (placement : WindowPlacement) :
    WindowStateKeeper Call :=
  if placement.isEmpty then keeper
  else
    { keeper with
      file := some placement.toJson
      written := keeper.written ++ [placement] }

/-- The end of `save`, with what its two questions gave. -/
def save (keeper : WindowStateKeeper Call) (call : Call) (maximized : Bool)
    (bounds : Rect) : WindowStateKeeper Call :=
  let restored := if maximized then keeper.lastRestoredFrame else some bounds
  { keeper.move call .idle with lastRestoredFrame := restored }.store
    { size := some bounds.size
      position := some bounds.topLeft
      maximized
      restoredSize := restored.map Rect.size
      restoredPosition := restored.map Rect.topLeft }

def resume (keeper : WindowStateKeeper Call) (call : Call) :
    Option (WindowStateKeeper Call) :=
  match keeper.phase call with
  | .idle => none
  | .awaitsMaximized maximized =>
      some (keeper.move call (.awaitsBounds maximized keeper.window.bounds))
  | .awaitsBounds maximized bounds => some (keeper.save call maximized bounds)

def step (keeper : WindowStateKeeper Call) :
    KeeperEvent Call → Option (WindowStateKeeper Call)
  | .opens bounds workAreas full => some (keeper.restore bounds workAreas full)
  | .moves bounds =>
      some { keeper.turn (keeper.window.setBounds bounds) with due := none }
  | .maximizes full =>
      some { keeper.turn (keeper.window.maximize full) with due := none }
  | .unmaximizes =>
      some { keeper.turn keeper.window.unmaximize with due := none }
  | .saves call =>
      match keeper.phase call with
      | .idle =>
          some (keeper.move call (.awaitsMaximized keeper.window.maximized))
      | _ => none
  | .resumes call => keeper.resume call

end WindowStateKeeper

/-! ## The frame is kept -/

namespace WindowStateKeeper

structure KeepsFrame (keeper : WindowStateKeeper Call) : Prop where
  written : ∀ placement ∈ keeper.written, ∀ frame,
    placement.restoredFrame = some frame → frame ∈ keeper.had
  restored : ∀ frame, keeper.due = some frame →
    keeper.window.unmaximize.bounds = frame

/-- A save that was told the window is not maximised asks for the bounds while
it still is not, and a placement saved while maximised and still reachable has
the frame it goes back to. -/
def Steady (keeper : WindowStateKeeper Call) : KeeperEvent Call → Prop
  | .opens _ workAreas _ => ∀ frame,
      dueFrame keeper.load workAreas = some frame →
        keeper.load.frame = some frame
  | .resumes call =>
      keeper.phase call = .awaitsMaximized false →
        keeper.window.maximized = false ∨ keeper.window.bounds ∈ keeper.had
  | _ => True

structure Kept (keeper : WindowStateKeeper Call) : Prop where
  keeps : KeepsFrame keeper
  loaded : ∀ frame, keeper.load.restoredFrame = some frame →
    frame ∈ keeper.had
  last : ∀ frame, keeper.lastRestoredFrame = some frame →
    frame ∈ keeper.had
  asked : ∀ call bounds, keeper.phase call = .awaitsBounds false bounds →
    bounds ∈ keeper.had
  current : keeper.window.maximized = false →
    keeper.window.bounds ∈ keeper.had

theorem kept_before (bounds : Rect) :
    Kept (before bounds : WindowStateKeeper Call) where
  keeps := ⟨by simp [before], by simp [before]⟩
  loaded := by
    simp [load, before, WindowPlacement.unknown,
      WindowPlacement.restoredFrame, WindowPlacement.frameOf]
  last := by simp [before]
  asked := by simp [before]
  current := by simp [before, KeptWindow.fresh]

/-! ### The window -/

section

variable {keeper next : WindowStateKeeper Call}

theorem mem_had_turn {window : KeptWindow} {frame : Rect}
    (hhad : frame ∈ keeper.had) : frame ∈ (keeper.turn window).had := by
  unfold turn
  split
  · exact hhad
  · exact List.mem_append_left _ hhad

theorem current_turn {window : KeptWindow}
    (hnormal : (keeper.turn window).window.maximized = false) :
    (keeper.turn window).window.bounds ∈ (keeper.turn window).had := by
  have hwindow : window.maximized = false := hnormal
  simp [turn, hwindow]

theorem mem_had_place {placement : WindowPlacement} {frame : Rect}
    (hhad : frame ∈ keeper.had) : frame ∈ (keeper.place placement).had := by
  unfold place
  split
  · exact mem_had_turn hhad
  · exact hhad

theorem mem_had_fill {placement : WindowPlacement} {full frame : Rect}
    (hhad : frame ∈ keeper.had) :
    frame ∈ (keeper.fill placement full).had := by
  unfold fill
  split
  · exact mem_had_turn hhad
  · exact hhad

/-- Placing and filling leave the rest of the keeper alone. -/
theorem place_rest (placement : WindowPlacement) :
    (keeper.place placement).file = keeper.file ∧
      (keeper.place placement).written = keeper.written := by
  unfold place
  split <;> exact ⟨rfl, rfl⟩

theorem fill_rest (placement : WindowPlacement) (full : Rect) :
    (keeper.fill placement full).file = keeper.file ∧
      (keeper.fill placement full).written = keeper.written := by
  unfold fill
  split <;> exact ⟨rfl, rfl⟩

theorem current_place {placement : WindowPlacement}
    (hcurrent : keeper.window.maximized = false →
      keeper.window.bounds ∈ keeper.had)
    (hnormal : (keeper.place placement).window.maximized = false) :
    (keeper.place placement).window.bounds ∈
      (keeper.place placement).had := by
  revert hnormal
  unfold place
  split
  · exact current_turn
  · exact hcurrent

theorem current_fill {placement : WindowPlacement} {full : Rect}
    (hcurrent : keeper.window.maximized = false →
      keeper.window.bounds ∈ keeper.had)
    (hnormal : (keeper.fill placement full).window.maximized = false) :
    (keeper.fill placement full).window.bounds ∈
      (keeper.fill placement full).had := by
  revert hnormal
  unfold fill
  split
  · exact current_turn
  · exact hcurrent

/-- A fresh window placed at a frame and filled goes back to that frame. -/
theorem unmaximize_fill_place {placement : WindowPlacement}
    {full frame : Rect} (hfresh : keeper.window.maximized = false)
    (hframe : placement.frame = some frame)
    (hmaximized : placement.maximized = true) :
    ((keeper.place placement).fill placement full).window.unmaximize.bounds =
      frame := by
  unfold WindowPlacement.frame WindowPlacement.frameOf at hframe
  split at hframe
  · rename_i size position hsize hposition
    obtain rfl := Option.some.inj hframe
    simp [place, fill, hsize, hposition, hmaximized, turn,
      KeptWindow.setBounds, hfresh, KeptWindow.fresh, KeptWindow.maximize,
      KeptWindow.unmaximize]
  · cases hframe

/-! ### Steps -/

namespace Kept

/-- Nothing is written: what the window had it still had. -/
theorem grow (hkept : Kept keeper) (hfile : next.file = keeper.file)
    (hwritten : next.written = keeper.written)
    (hhad : ∀ frame ∈ keeper.had, frame ∈ next.had)
    (hlast : ∀ frame, next.lastRestoredFrame = some frame →
      frame ∈ keeper.had)
    (hasked : ∀ call bounds, next.phase call = .awaitsBounds false bounds →
      bounds ∈ next.had)
    (hcurrent : next.window.maximized = false →
      next.window.bounds ∈ next.had)
    (hdue : ∀ frame, next.due = some frame →
      next.window.unmaximize.bounds = frame) : Kept next where
  keeps := by
    refine ⟨?_, hdue⟩
    intro placement hmem frame hframe
    rw [hwritten] at hmem
    exact hhad frame (hkept.keeps.written placement hmem frame hframe)
  loaded := by
    intro frame hframe
    have hload : next.load = keeper.load := by
      unfold load
      rw [hfile]
    exact hhad frame (hkept.loaded frame (hload ▸ hframe))
  last := fun frame hframe => hhad frame (hlast frame hframe)
  asked := hasked
  current := hcurrent

/-- Somebody touches the window. -/
theorem touch (hkept : Kept keeper) (window : KeptWindow) :
    Kept { keeper.turn window with due := none } := by
  refine hkept.grow rfl rfl (fun _ => mem_had_turn) hkept.last ?_
    current_turn (by simp)
  intro call bounds hphase
  exact mem_had_turn (hkept.asked call bounds hphase)

theorem restore (hkept : Kept keeper) {bounds full : Rect}
    {workAreas : List Rect}
    (hframe : ∀ frame, dueFrame keeper.load workAreas = some frame →
      keeper.load.frame = some frame) :
    Kept (keeper.restore bounds workAreas full) := by
  unfold WindowStateKeeper.restore
  refine hkept.grow ?_ ?_ ?_ ?_ (by simp) ?_ ?_
  · exact (fill_rest _ full).1.trans (place_rest _).1
  · exact (fill_rest _ full).2.trans (place_rest _).2
  · intro frame hhad
    exact mem_had_fill (mem_had_place (mem_had_turn hhad))
  · intro frame hlast
    exact hkept.loaded frame
      (PlacementGuard.restoredFrame_of_clampToScreens hlast)
  · exact current_fill (current_place current_turn)
  · intro frame hdue
    have howes := hframe frame hdue
    unfold dueFrame at hdue
    split at hdue
    · rename_i hsaved
      obtain ⟨hmaximized, hreachable⟩ := Bool.and_eq_true_iff.mp hsaved
      rw [PlacementGuard.clampToScreens_of_reachable hreachable]
      exact unmaximize_fill_place rfl howes hmaximized
    · cases hdue

/-- What is written with a frame to restore to reads back as that frame. -/
theorem store (hkept : Kept keeper) {placement : WindowPlacement}
    (hframe : ∀ frame, placement.restoredFrame = some frame →
      frame ∈ keeper.had) : Kept (keeper.store placement) := by
  unfold WindowStateKeeper.store
  split
  · exact hkept
  · refine ⟨⟨?_, hkept.keeps.restored⟩, ?_, hkept.last, hkept.asked,
      hkept.current⟩
    · intro found hmem frame hfound
      rcases List.mem_append.mp hmem with hold | hnew
      · exact hkept.keeps.written found hold frame hfound
      · obtain rfl := List.mem_singleton.mp hnew
        exact hframe frame hfound
    · intro frame hloaded
      refine hframe frame (WindowPlacement.restoredFrame_of_readBack ?_)
      rw [← WindowPlacement.fromJson_toJson]
      exact hloaded

section

variable [DecidableEq Call] {call : Call}

theorem move (hkept : Kept keeper) {phase : SavePhase}
    (hphase : ∀ bounds, phase = .awaitsBounds false bounds →
      bounds ∈ keeper.had) : Kept (keeper.move call phase) := by
  refine hkept.grow rfl rfl (fun _ => id) hkept.last ?_ hkept.current
    hkept.keeps.restored
  intro other bounds hother
  by_cases hsame : other = call
  · exact hphase bounds (by simpa [WindowStateKeeper.move, hsame] using hother)
  · exact hkept.asked other bounds
      (by simpa [WindowStateKeeper.move, Function.update_of_ne hsame]
        using hother)

theorem save (hkept : Kept keeper) {maximized : Bool} {bounds : Rect}
    (hphase : keeper.phase call = .awaitsBounds maximized bounds) :
    Kept (keeper.save call maximized bounds) := by
  have hrestored : ∀ frame,
      (if maximized then keeper.lastRestoredFrame else some bounds) =
        some frame → frame ∈ keeper.had := by
    intro frame hframe
    cases maximized with
    | true => exact hkept.last frame hframe
    | false =>
        obtain rfl := Option.some.inj hframe
        exact hkept.asked call bounds hphase
  unfold WindowStateKeeper.save
  refine store ?_ ?_
  · refine hkept.grow rfl rfl (fun _ => id) hrestored ?_ hkept.current
      hkept.keeps.restored
    have hidle : Kept (keeper.move call .idle) := hkept.move (by simp)
    exact hidle.asked
  · intro frame hframe
    refine hrestored frame ?_
    rw [← hframe, WindowPlacement.restoredFrame,
      WindowPlacement.frameOf_map]

theorem step {event : KeeperEvent Call} (hkept : Kept keeper)
    (hsteady : keeper.Steady event)
    (hstep : keeper.step event = some next) : Kept next := by
  cases event with
  | opens bounds workAreas full =>
      cases hstep
      exact hkept.restore hsteady
  | moves bounds =>
      cases hstep
      exact hkept.touch _
  | maximizes full =>
      cases hstep
      exact hkept.touch _
  | unmaximizes =>
      cases hstep
      exact hkept.touch _
  | saves call =>
      simp only [WindowStateKeeper.step] at hstep
      split at hstep
      · cases hstep
        exact hkept.move (by simp)
      · cases hstep
  | resumes call =>
      simp only [WindowStateKeeper.step, resume] at hstep
      split at hstep
      · cases hstep
      · rename_i maximized hphase
        cases hstep
        refine hkept.move ?_
        intro bounds hbounds
        obtain ⟨rfl, rfl⟩ := SavePhase.awaitsBounds.inj hbounds
        rcases hsteady hphase with hnormal | hhad
        · exact hkept.current hnormal
        · exact hhad
      · rename_i maximized bounds hphase
        cases hstep
        exact hkept.save hphase

end

end Kept

end

/-- In a run whose saves ask about one state of the window, and which finds no
placement saved at another frame than the one it goes back to, the frame is
kept. -/
theorem keepsFrame_of_steady [DecidableEq Call] {bounds : Rect}
    {events : List (KeeperEvent Call)}
    (hsteady : EveryStep step (before bounds) Steady events) :
    Throughout step (before bounds) KeepsFrame events := by
  rintro first rest keeper rfl hrun
  have hkept : Kept keeper := by
    refine hsteady.of_append.invariant (kept_before bounds) ?_ hrun
    intro state event next hkept hcondition hstep
    exact hkept.step hcondition hstep
  exact hkept.keeps

/-! ### Sessions on one screen -/

def screen : Rect := .fromLTWH 0 25 1512 957

def usual : Rect := .fromLTWH 200 120 1000 700

def saved : List (KeeperEvent Unit) := [.saves (), .resumes (), .resumes ()]

def unmaximizedAtTheEnd : List (KeeperEvent Unit) :=
  saved ++ .maximizes screen :: saved ++ .unmaximizes :: saved ++
    [.opens (.fromLTWH 0 0 800 600) [screen] screen]

/-- The window is maximised between the two questions of a save. -/
def maximizedBetween : List (KeeperEvent Unit) :=
  [.saves (), .maximizes screen, .resumes (), .resumes ()]

def maximizedAtTheEnd : List (KeeperEvent Unit) :=
  saved ++ .maximizes screen :: saved ++
    [.opens (.fromLTWH 0 0 800 600) [screen] screen]

theorem keepsFrame_of_steady_unmaximized :
    EveryStep step (before usual) Steady unmaximizedAtTheEnd ∧
      Throughout step (before usual) KeepsFrame unmaximizedAtTheEnd := by
  have hsteady : EveryStep step (before usual) Steady
      unmaximizedAtTheEnd := by
    refine (everyStep_cons rfl).mpr ⟨trivial, ?_⟩
    refine (everyStep_cons rfl).mpr ⟨fun _ => Or.inl rfl, ?_⟩
    refine (everyStep_cons rfl).mpr ⟨nofun, ?_⟩
    refine (everyStep_cons rfl).mpr ⟨trivial, ?_⟩
    refine (everyStep_cons rfl).mpr ⟨trivial, ?_⟩
    refine (everyStep_cons rfl).mpr ⟨nofun, ?_⟩
    refine (everyStep_cons rfl).mpr ⟨nofun, ?_⟩
    refine (everyStep_cons rfl).mpr ⟨trivial, ?_⟩
    refine (everyStep_cons rfl).mpr ⟨trivial, ?_⟩
    refine (everyStep_cons rfl).mpr ⟨fun _ => Or.inl rfl, ?_⟩
    refine (everyStep_cons rfl).mpr ⟨nofun, ?_⟩
    exact (everyStep_cons rfl).mpr ⟨nofun, everyStep_nil⟩
  exact ⟨hsteady, keepsFrame_of_steady hsteady⟩

theorem not_keepsFrame_maximized :
    (∃ keeper, run step (before usual) maximizedBetween = some keeper ∧
      (∃ placement ∈ keeper.written,
        placement.restoredFrame = some screen) ∧
      screen ∉ keeper.had ∧ ¬ KeepsFrame keeper) ∧
    ∃ keeper, run step (before usual) maximizedAtTheEnd = some keeper ∧
      keeper.due = some usual ∧ keeper.window.unmaximize.bounds = screen ∧
      ¬ KeepsFrame keeper := by
  constructor
  · have hnever : ∀ keeper : WindowStateKeeper Unit,
        (∃ placement ∈ keeper.written,
          placement.restoredFrame = some screen) →
          screen ∉ keeper.had → ¬ KeepsFrame keeper := by
      rintro keeper ⟨placement, hmem, hframe⟩ hhad hkeeps
      exact hhad (hkeeps.written placement hmem screen hframe)
    refine ⟨_, rfl, ?_, ?_, hnever _ ?_ ?_⟩ <;> decide +kernel
  · refine ⟨_, rfl, by decide +kernel, by decide +kernel, ?_⟩
    intro hkeeps
    have hback := hkeeps.restored usual (by decide +kernel)
    revert hback
    decide +kernel

end WindowStateKeeper

end Dovetail.Platform
