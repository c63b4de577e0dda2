import Mathlib.Tactic

/-!
# Frames on a screen

Points, sizes and rectangles in exact coordinates, and the place of a panel
beside its anchor.
-/

namespace Dovetail.Platform

structure Offset where
  dx : ℚ
  dy : ℚ
  deriving DecidableEq

structure Size where
  width : ℚ
  height : ℚ
  deriving DecidableEq

structure Rect where
  left : ℚ
  top : ℚ
  right : ℚ
  bottom : ℚ
  deriving DecidableEq

namespace Rect

def fromLTWH (left top width height : ℚ) : Rect :=
  { left
    top
    right := left + width
    bottom := top + height }

def width (rect : Rect) : ℚ := rect.right - rect.left

def height (rect : Rect) : ℚ := rect.bottom - rect.top

def size (rect : Rect) : Size :=
  { width := rect.width
    height := rect.height }

def topLeft (rect : Rect) : Offset :=
  { dx := rect.left
    dy := rect.top }

def isEmpty (rect : Rect) : Bool :=
  decide (rect.right ≤ rect.left ∨ rect.bottom ≤ rect.top)

def intersect (rect other : Rect) : Rect :=
  { left := max rect.left other.left
    top := max rect.top other.top
    right := min rect.right other.right
    bottom := min rect.bottom other.bottom }

/-- The rectangle of a corner and a size. -/
def frame (position : Offset) (size : Size) : Rect :=
  fromLTWH position.dx position.dy size.width size.height

@[simp] theorem frame_topLeft_size (rect : Rect) :
    frame rect.topLeft rect.size = rect := by
  simp [frame, fromLTWH, topLeft, size, width, height]

@[simp] theorem topLeft_frame (position : Offset) (size : Size) :
    (frame position size).topLeft = position := rfl

@[simp] theorem size_frame (position : Offset) (size : Size) :
    (frame position size).size = size := by
  simp [frame, fromLTWH, Rect.size, width, height]

end Rect

/-! ## Beside the anchor -/

inductive PanelSide where
  | above
  | below
  deriving DecidableEq

structure PanelPlacement where
  bounds : Rect
  side : PanelSide
  shrunk : Bool
  deriving DecidableEq

namespace PanelGeometry

def side (anchor : Offset) (size : Size) (workArea : Rect) (gap : ℚ) :
    PanelSide :=
  let roomBelow := workArea.bottom - anchor.dy - gap * 2
  let roomAbove := anchor.dy - workArea.top - gap * 2
  if roomBelow ≥ size.height then .below
  else if roomAbove ≥ size.height then .above
  else if roomBelow ≥ roomAbove then .below
  else .above

def topFor (side : PanelSide) (anchor : Offset) (size : Size) (gap : ℚ) : ℚ :=
  if side = .below then anchor.dy + gap else anchor.dy - gap - size.height

def clamp (value low high : ℚ) : ℚ :=
  if high < low then low else min (max value low) high

def place (anchor : Offset) (size : Size) (workArea : Rect) (gap : ℚ) :
    PanelPlacement :=
  let fitted : Size :=
    { width := min size.width (max (workArea.width - gap * 2) 1)
      height := min size.height (max (workArea.height - gap * 2) 1) }
  let side := side anchor fitted workArea gap
  let top := clamp (topFor side anchor fitted gap) (workArea.top + gap)
    (workArea.bottom - gap - fitted.height)
  let left := clamp (anchor.dx - fitted.width / 2) (workArea.left + gap)
    (workArea.right - gap - fitted.width)
  { bounds := .fromLTWH left top fitted.width fitted.height
    side
    shrunk := decide (fitted ≠ size) }

end PanelGeometry

/-! ## Where the panel lands -/

namespace Rect

def deflate (rect : Rect) (gap : ℚ) : Rect :=
  { left := rect.left + gap
    top := rect.top + gap
    right := rect.right - gap
    bottom := rect.bottom - gap }

/-- The inner rectangle is a real one and no point of it is outside. -/
structure Encloses (outer inner : Rect) : Prop where
  left : outer.left ≤ inner.left
  top : outer.top ≤ inner.top
  right : inner.right ≤ outer.right
  bottom : inner.bottom ≤ outer.bottom
  width : 0 ≤ inner.width
  height : 0 ≤ inner.height

def StrictlyHolds (rect : Rect) (point : Offset) : Prop :=
  (rect.left < point.dx ∧ point.dx < rect.right) ∧
    rect.top < point.dy ∧ point.dy < rect.bottom

@[simp] theorem size_fromLTWH (left top width height : ℚ) :
    (fromLTWH left top width height).size =
      { width := width, height := height } := by
  simp [fromLTWH, size, Rect.width, Rect.height]

end Rect

namespace PanelSide

/-- The height and a gap on either side of it fit between the anchor and the
edge of the area. -/
def Fits (side : PanelSide) (anchor : Offset) (height : ℚ) (workArea : Rect)
    (gap : ℚ) : Prop :=
  match side with
  | below => anchor.dy + (height + 2 * gap) ≤ workArea.bottom
  | above => workArea.top ≤ anchor.dy - (height + 2 * gap)

def Holds (side : PanelSide) (anchor : Offset) (bounds : Rect) : Prop :=
  match side with
  | below => anchor.dy ≤ bounds.top
  | above => bounds.bottom ≤ anchor.dy

/-- A panel on one side of the anchor does not cover it. -/
theorem not_strictlyHolds_of_holds {side : PanelSide} {anchor : Offset}
    {bounds : Rect} (hside : side.Holds anchor bounds) :
    ¬ bounds.StrictlyHolds anchor := by
  intro hinside
  cases side with
  | above =>
      have hbottom : bounds.bottom ≤ anchor.dy := hside
      exact absurd hinside.2.2 (not_lt.mpr hbottom)
  | below =>
      have htop : anchor.dy ≤ bounds.top := hside
      exact absurd hinside.2.1 (not_lt.mpr htop)

end PanelSide

namespace PanelGeometry

section Clamp

variable {value low high : ℚ}

theorem low_le_clamp : low ≤ clamp value low high := by
  unfold clamp
  by_cases hcrossed : high < low
  · rw [if_pos hcrossed]
  · rw [if_neg hcrossed]
    apply le_min
    · exact le_max_right value low
    · exact not_lt.mp hcrossed

theorem clamp_le_high (hbounds : low ≤ high) :
    clamp value low high ≤ high := by
  unfold clamp
  rw [if_neg (not_lt.mpr hbounds)]
  exact min_le_right _ _

/-- A value under the upper bound is only moved up. -/
theorem le_clamp (hvalue : value ≤ high) : value ≤ clamp value low high := by
  unfold clamp
  by_cases hcrossed : high < low
  · rw [if_pos hcrossed]
    exact hvalue.trans hcrossed.le
  · rw [if_neg hcrossed]
    apply le_min
    · exact le_max_left value low
    · exact hvalue

/-- A value over the lower bound is only moved down. -/
theorem clamp_le (hvalue : low ≤ value) : clamp value low high ≤ value := by
  unfold clamp
  by_cases hcrossed : high < low
  · rw [if_pos hcrossed]
    exact hvalue
  · rw [if_neg hcrossed, max_eq_left hvalue]
    exact min_le_left value high

end Clamp

/-- The size the panel is given. -/
def fitted (size : Size) (workArea : Rect) (gap : ℚ) : Size :=
  { width := min size.width (max (workArea.width - gap * 2) 1)
    height := min size.height (max (workArea.height - gap * 2) 1) }

section Placed

variable {anchor : Offset} {size : Size} {workArea : Rect} {gap : ℚ}

@[simp] theorem size_bounds_place :
    (place anchor size workArea gap).bounds.size =
      fitted size workArea gap := by
  simp [place, fitted]

theorem width_bounds_place :
    (place anchor size workArea gap).bounds.width =
      (fitted size workArea gap).width :=
  congrArg Size.width size_bounds_place

theorem height_bounds_place :
    (place anchor size workArea gap).bounds.height =
      (fitted size workArea gap).height :=
  congrArg Size.height size_bounds_place

/-- The side that is reported has the room whenever either of them has. -/
theorem fits_side (fittedSize : Size)
    (hfits : ∃ side : PanelSide,
      side.Fits anchor fittedSize.height workArea gap) :
    (side anchor fittedSize workArea gap).Fits anchor fittedSize.height
      workArea gap := by
  unfold side
  by_cases hbelow :
      workArea.bottom - anchor.dy - gap * 2 ≥ fittedSize.height
  · simp only [hbelow, if_true, PanelSide.Fits]
    linarith
  · rcases hfits with ⟨side, hside⟩
    cases side with
    | below =>
        have hroom : anchor.dy + (fittedSize.height + 2 * gap) ≤
            workArea.bottom := hside
        apply absurd _ hbelow
        linarith
    | above =>
        have hroom : workArea.top ≤
            anchor.dy - (fittedSize.height + 2 * gap) := hside
        have habove :
            anchor.dy - workArea.top - gap * 2 ≥ fittedSize.height := by
          linarith
        simp only [hbelow, habove, if_true, if_false]
        exact hside

/-- The clamp never pushes a panel back over the anchor on a side with room. -/
theorem holds_of_fits (hgap : 0 ≤ gap)
    (hfits : (place anchor size workArea gap).side.Fits anchor
      (fitted size workArea gap).height workArea gap) :
    (place anchor size workArea gap).side.Holds anchor
      (place anchor size workArea gap).bounds := by
  cases hside : (place anchor size workArea gap).side with
  | below =>
      rw [hside] at hfits
      have hreported :
          side anchor (fitted size workArea gap) workArea gap = .below := hside
      have hroom : anchor.dy + ((fitted size workArea gap).height + 2 * gap) ≤
          workArea.bottom := hfits
      have htop : anchor.dy + gap ≤
          (place anchor size workArea gap).bounds.top := by
        change anchor.dy + gap ≤ clamp
          (topFor (side anchor (fitted size workArea gap) workArea gap) anchor
            (fitted size workArea gap) gap) _ _
        rw [hreported]
        apply le_clamp
        change anchor.dy + gap ≤
          workArea.bottom - gap - (fitted size workArea gap).height
        linarith
      change anchor.dy ≤ (place anchor size workArea gap).bounds.top
      linarith
  | above =>
      rw [hside] at hfits
      have hreported :
          side anchor (fitted size workArea gap) workArea gap = .above := hside
      have hroom : workArea.top ≤
          anchor.dy - ((fitted size workArea gap).height + 2 * gap) := hfits
      have htop : (place anchor size workArea gap).bounds.top ≤
          anchor.dy - gap - (fitted size workArea gap).height := by
        change clamp
          (topFor (side anchor (fitted size workArea gap) workArea gap) anchor
            (fitted size workArea gap) gap) _ _ ≤ _
        rw [hreported]
        apply clamp_le
        change workArea.top + gap ≤
          anchor.dy - gap - (fitted size workArea gap).height
        linarith
      change (place anchor size workArea gap).bounds.top +
        (fitted size workArea gap).height ≤ anchor.dy
      linarith

/-- In an area with room for a point between the gaps, the fitted panel has
room between them too. -/
theorem fitted_le (hwidth : 2 * gap + 1 ≤ workArea.width)
    (hheight : 2 * gap + 1 ≤ workArea.height) :
    (fitted size workArea gap).width ≤ workArea.width - 2 * gap ∧
      (fitted size workArea gap).height ≤ workArea.height - 2 * gap := by
  have hmaxWidth : max (workArea.width - gap * 2) 1 =
      workArea.width - 2 * gap := by
    rw [max_eq_left (by linarith)]
    ring
  have hmaxHeight : max (workArea.height - gap * 2) 1 =
      workArea.height - 2 * gap := by
    rw [max_eq_left (by linarith)]
    ring
  constructor
  · rw [← hmaxWidth]
    exact min_le_right _ _
  · rw [← hmaxHeight]
    exact min_le_right _ _

theorem fitted_nonneg (hsize : 0 ≤ size.width ∧ 0 ≤ size.height) :
    0 ≤ (fitted size workArea gap).width ∧
      0 ≤ (fitted size workArea gap).height := by
  constructor
  · apply le_min hsize.1
    exact zero_le_one.trans (le_max_right _ _)
  · apply le_min hsize.2
    exact zero_le_one.trans (le_max_right _ _)

theorem encloses_place (hsize : 0 ≤ size.width ∧ 0 ≤ size.height)
    (hwidth : 2 * gap + 1 ≤ workArea.width)
    (hheight : 2 * gap + 1 ≤ workArea.height) :
    (workArea.deflate gap).Encloses
      (place anchor size workArea gap).bounds := by
  have hfitted := @fitted_le size workArea gap hwidth hheight
  have hnonneg := @fitted_nonneg size workArea gap hsize
  simp only [Rect.width] at hwidth hfitted
  simp only [Rect.height] at hheight hfitted
  constructor
  case left => exact low_le_clamp
  case top => exact low_le_clamp
  case right =>
    have hleft : (place anchor size workArea gap).bounds.left ≤
        workArea.right - gap - (fitted size workArea gap).width := by
      apply clamp_le_high
      change workArea.left + gap ≤
        workArea.right - gap - (fitted size workArea gap).width
      linarith
    change (place anchor size workArea gap).bounds.left +
      (fitted size workArea gap).width ≤ workArea.right - gap
    linarith
  case bottom =>
    have htop : (place anchor size workArea gap).bounds.top ≤
        workArea.bottom - gap - (fitted size workArea gap).height := by
      apply clamp_le_high
      change workArea.top + gap ≤
        workArea.bottom - gap - (fitted size workArea gap).height
      linarith
    change (place anchor size workArea gap).bounds.top +
      (fitted size workArea gap).height ≤ workArea.bottom - gap
    linarith
  case width =>
    rw [width_bounds_place]
    exact hnonneg.1
  case height =>
    rw [height_bounds_place]
    exact hnonneg.2

end Placed

/-- What a caller may rely on about the place of a panel. -/
structure PlacedWell (anchor : Offset) (size : Size) (workArea : Rect)
    (gap : ℚ) (placement : PanelPlacement) : Prop where
  inside : (workArea.deflate gap).Encloses placement.bounds
  width : placement.bounds.width ≤ size.width
  height : placement.bounds.height ≤ size.height
  shrunk : placement.shrunk = true ↔ placement.bounds.size ≠ size
  beside : (∃ side : PanelSide,
      side.Fits anchor placement.bounds.height workArea gap) →
    placement.side.Holds anchor placement.bounds ∧
      ¬ placement.bounds.StrictlyHolds anchor

/-- The clamps and the choice of the side agree: the panel stays on the screen,
and it covers the anchor only where neither side has room for it. -/
theorem placedWell_place (anchor : Offset) (size : Size) (workArea : Rect)
    (gap : ℚ) (hsize : 0 ≤ size.width ∧ 0 ≤ size.height) (hgap : 0 ≤ gap)
    (hwidth : 2 * gap + 1 ≤ workArea.width)
    (hheight : 2 * gap + 1 ≤ workArea.height) :
    PlacedWell anchor size workArea gap (place anchor size workArea gap) := by
  constructor
  case inside => exact encloses_place hsize hwidth hheight
  case width =>
    rw [width_bounds_place]
    exact min_le_left _ _
  case height =>
    rw [height_bounds_place]
    exact min_le_left _ _
  case shrunk =>
    rw [size_bounds_place]
    exact decide_eq_true_iff
  case beside =>
    intro hfits
    rw [height_bounds_place] at hfits
    have hreported := fits_side (fitted size workArea gap) hfits
    have hholds := holds_of_fits hgap hreported
    exact ⟨hholds, PanelSide.not_strictlyHolds_of_holds hholds⟩

/-- A panel too tall for the screen, opened from a menu bar above it. -/
theorem placedWell_place_tall :
    PlacedWell ⟨760, 10⟩ ⟨360, 2000⟩ ⟨0, 25, 1512, 982⟩ 8
      (place ⟨760, 10⟩ ⟨360, 2000⟩ ⟨0, 25, 1512, 982⟩ 8) := by
  apply placedWell_place
  · norm_num
  · norm_num
  · norm_num [Rect.width]
  · norm_num [Rect.height]

end PanelGeometry

end Dovetail.Platform
