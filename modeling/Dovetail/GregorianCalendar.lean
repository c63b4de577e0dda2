import Mathlib.Tactic

/-!
# The Gregorian calendar

The calendar is taken to go on without end in both directions.  Its dates are
counted by the days since the first of January 1970, and every number of days
is the one of a single date.
-/

namespace GregorianCalendar

def isLeapYear (year : Int) : Bool :=
  year % 4 = 0 ∧ (year % 100 ≠ 0 ∨ year % 400 = 0)

/-- The days of a year before its months, of which the first is numbered 0. -/
def daysBeforeMonth (leap : Bool) (month : Nat) : Nat :=
  [0, 31, 59, 90, 120, 151, 181, 212, 243, 273, 304, 334, 365].getD month 365 +
    if leap ∧ 2 ≤ month then 1 else 0

/-- The days of a month, of which the first is numbered 1. -/
def daysInMonth (year : Int) (month : Nat) : Nat :=
  daysBeforeMonth (isLeapYear year) month -
    daysBeforeMonth (isLeapYear year) (month - 1)

/-- The days between the first of January 1970 and the start of a year. -/
def daysBeforeYear (year : Int) : Int :=
  365 * (year - 1) + (year - 1) / 4 - (year - 1) / 100 + (year - 1) / 400 -
    719162

structure Date where
  year : Int
  month : Nat
  day : Nat
  deriving DecidableEq

namespace Date

structure Valid (date : Date) : Prop where
  month_pos : 1 ≤ date.month
  month_le : date.month ≤ 12
  day_pos : 1 ≤ date.day
  day_le : date.day ≤ daysInMonth date.year date.month

instance (date : Date) : Decidable date.Valid :=
  decidable_of_iff
    (1 ≤ date.month ∧ date.month ≤ 12 ∧ 1 ≤ date.day ∧
      date.day ≤ daysInMonth date.year date.month)
    ⟨fun ⟨hmonth, hle, hday, hlast⟩ => ⟨hmonth, hle, hday, hlast⟩,
      fun hvalid => ⟨hvalid.month_pos, hvalid.month_le, hvalid.day_pos,
        hvalid.day_le⟩⟩

/-- The day of its year, of which the first is numbered 0. -/
def dayOfYear (date : Date) : Nat :=
  daysBeforeMonth (isLeapYear date.year) (date.month - 1) + (date.day - 1)

def toDays (date : Date) : Int :=
  daysBeforeYear date.year + date.dayOfYear

end Date

/-! ## Days of a year -/

/-- The month a day of the year falls in. -/
def monthOf (leap : Bool) (dayOfYear : Nat) : Nat :=
  ((List.range 12).filter fun month =>
    daysBeforeMonth leap month ≤ dayOfYear).length

theorem monthOf_spec (leap : Bool) {dayOfYear : Nat}
    (hday : dayOfYear < daysBeforeMonth leap 12) :
    1 ≤ monthOf leap dayOfYear ∧ monthOf leap dayOfYear ≤ 12 ∧
      daysBeforeMonth leap (monthOf leap dayOfYear - 1) ≤ dayOfYear ∧
      dayOfYear < daysBeforeMonth leap (monthOf leap dayOfYear) := by
  have hall : ∀ leap, ∀ dayOfYear < daysBeforeMonth leap 12,
      1 ≤ monthOf leap dayOfYear ∧ monthOf leap dayOfYear ≤ 12 ∧
        daysBeforeMonth leap (monthOf leap dayOfYear - 1) ≤ dayOfYear ∧
        dayOfYear < daysBeforeMonth leap (monthOf leap dayOfYear) := by
    decide +kernel
  exact hall leap dayOfYear hday

theorem daysBeforeMonth_mono (leap : Bool) {before after : Nat}
    (hle : before ≤ after) (hafter : after ≤ 12) :
    daysBeforeMonth leap before ≤ daysBeforeMonth leap after := by
  have hall : ∀ leap, ∀ after ≤ 12, ∀ before ≤ after,
      daysBeforeMonth leap before ≤ daysBeforeMonth leap after := by
    decide
  exact hall leap after hafter before hle

/-- Days of the same year are told apart by their number. -/
theorem date_unique {leap : Bool} {month other : Nat} {day last : Nat}
    (hmonth : 1 ≤ month ∧ month ≤ 12) (hother : 1 ≤ other ∧ other ≤ 12)
    (hday : 1 ≤ day ∧ day ≤ daysBeforeMonth leap month -
      daysBeforeMonth leap (month - 1))
    (hlast : 1 ≤ last ∧ last ≤ daysBeforeMonth leap other -
      daysBeforeMonth leap (other - 1))
    (heq : daysBeforeMonth leap (month - 1) + (day - 1) =
      daysBeforeMonth leap (other - 1) + (last - 1)) :
    month = other ∧ day = last := by
  have hsame : month = other := by
    rcases lt_trichotomy month other with hlt | heq | hlt
    · have hmono := daysBeforeMonth_mono leap
        (show month ≤ other - 1 by omega) (by omega)
      omega
    · exact heq
    · have hmono := daysBeforeMonth_mono leap
        (show other ≤ month - 1 by omega) (by omega)
      omega
  subst hsame
  omega

/-! ## Years -/

theorem daysBeforeMonth_twelve (leap : Bool) :
    daysBeforeMonth leap 12 = if leap then 366 else 365 := by
  cases leap <;> rfl

theorem isLeapYear_eq_true_iff (year : Int) :
    isLeapYear year = true ↔
      year % 4 = 0 ∧ (year % 100 ≠ 0 ∨ year % 400 = 0) := by
  simp [isLeapYear]

theorem daysBeforeYear_succ (year : Int) :
    daysBeforeYear (year + 1) =
      daysBeforeYear year + daysBeforeMonth (isLeapYear year) 12 := by
  rw [daysBeforeMonth_twelve]
  unfold daysBeforeYear
  cases hleap : isLeapYear year with
  | true =>
      rw [isLeapYear_eq_true_iff] at hleap
      simp only [if_true]
      omega
  | false =>
      have hnot : ¬ (year % 4 = 0 ∧ (year % 100 ≠ 0 ∨ year % 400 = 0)) := by
        rw [← isLeapYear_eq_true_iff, hleap]
        exact Bool.false_ne_true
      simp only [Bool.false_eq_true, if_false]
      omega

theorem daysBeforeYear_mono {before after : Int} (hle : before ≤ after) :
    daysBeforeYear before ≤ daysBeforeYear after := by
  unfold daysBeforeYear
  omega

/-! ## Dates and days -/

/-- The year a number of days since 1970 falls in: whole spans of 400, 100, 4
and 1 years, of which the last of a span may be a day longer. -/
def yearOf (days : Int) : Int :=
  let counted := days + 719162
  let era := counted / 146097
  let ofEra := counted % 146097
  let century := min (ofEra / 36524) 3
  let ofCentury := ofEra - 36524 * century
  let four := ofCentury / 1461
  let ofFour := ofCentury % 1461
  400 * era + 100 * century + 4 * four + min (ofFour / 365) 3 + 1

/-- The days before a year that is so many spans after the year 1. -/
theorem daysBeforeYear_spans {era century four year : Int}
    (hcentury : 0 ≤ century ∧ century ≤ 3) (hfour : 0 ≤ four ∧ four ≤ 24)
    (hyear : 0 ≤ year ∧ year ≤ 3) :
    daysBeforeYear (400 * era + 100 * century + 4 * four + year + 1) =
      146097 * era + 36524 * century + 1461 * four + 365 * year - 719162 := by
  unfold daysBeforeYear
  omega

/-- The year after it starts a year later, or a day more in a leap year. -/
theorem daysBeforeYear_spans_succ {era century four year : Int}
    (hcentury : 0 ≤ century ∧ century ≤ 3) (hfour : 0 ≤ four ∧ four ≤ 24)
    (hyear : 0 ≤ year ∧ year ≤ 3) :
    daysBeforeYear (400 * era + 100 * century + 4 * four + year + 1 + 1) =
      146097 * era + 36524 * century + 1461 * four + 365 * year - 719162 +
        if year = 3 ∧ (four < 24 ∨ century = 3) then 366 else 365 := by
  unfold daysBeforeYear
  split <;> omega

theorem yearOf_spec (days : Int) :
    daysBeforeYear (yearOf days) ≤ days ∧
      days < daysBeforeYear (yearOf days + 1) := by
  unfold yearOf
  dsimp only
  generalize hera : (days + 719162) / 146097 = era
  generalize hofEra : (days + 719162) % 146097 = ofEra
  have hdays : days + 719162 = 146097 * era + ofEra ∧ 0 ≤ ofEra ∧
      ofEra < 146097 := by omega
  generalize hcentury : min (ofEra / 36524) 3 = century
  have hcenturies : 0 ≤ century ∧ century ≤ 3 ∧ 36524 * century ≤ ofEra ∧
      (ofEra < 36524 * (century + 1) ∨
        century = 3 ∧ ofEra ≤ 36524 * (century + 1)) := by omega
  generalize hofCentury : ofEra - 36524 * century = ofCentury
  generalize hfour : ofCentury / 1461 = four
  generalize hofFour : ofCentury % 1461 = ofFour
  have hfours : 0 ≤ four ∧ four ≤ 24 ∧ ofCentury = 1461 * four + ofFour ∧
      0 ≤ ofFour ∧ ofFour < 1461 := by omega
  generalize hyear : min (ofFour / 365) 3 = year
  have hyears : 0 ≤ year ∧ year ≤ 3 ∧ 365 * year ≤ ofFour ∧
      (ofFour < 365 * (year + 1) ∨ year = 3 ∧ ofFour ≤ 365 * (year + 1)) := by
    omega
  rw [daysBeforeYear_spans_succ ⟨hcenturies.1, hcenturies.2.1⟩
      ⟨hfours.1, hfours.2.1⟩ ⟨hyears.1, hyears.2.1⟩,
    daysBeforeYear_spans ⟨hcenturies.1, hcenturies.2.1⟩
      ⟨hfours.1, hfours.2.1⟩ ⟨hyears.1, hyears.2.1⟩]
  clear hera hofEra hcentury hfour hofFour hyear
  constructor
  · omega
  · split <;> omega

def ofDays (days : Int) : Date :=
  let year := yearOf days
  let dayOfYear := (days - daysBeforeYear year).toNat
  let month := monthOf (isLeapYear year) dayOfYear
  { year, month
    day := dayOfYear - daysBeforeMonth (isLeapYear year) (month - 1) + 1 }

/-- The day of its year is in that year. -/
theorem ofDays_spec (days : Int) :
    (ofDays days).Valid ∧ (ofDays days).toDays = days := by
  obtain ⟨hstart, hend⟩ := yearOf_spec days
  rw [daysBeforeYear_succ] at hend
  generalize hyear : yearOf days = year at hstart hend
  generalize hday : (days - daysBeforeYear year).toNat = dayOfYear
  have hbound : dayOfYear < daysBeforeMonth (isLeapYear year) 12 := by omega
  obtain ⟨hpos, hle, hafter, hbefore⟩ :=
    monthOf_spec (isLeapYear year) hbound
  have hdate : ofDays days =
      { year, month := monthOf (isLeapYear year) dayOfYear
        day := dayOfYear - daysBeforeMonth (isLeapYear year)
          (monthOf (isLeapYear year) dayOfYear - 1) + 1 } := by
    unfold ofDays
    rw [hyear]
    dsimp only
    rw [hday]
  rw [hdate]
  constructor
  · constructor
    · exact hpos
    · exact hle
    · exact Nat.le_add_left 1 _
    · unfold daysInMonth
      dsimp only
      omega
  · unfold Date.toDays Date.dayOfYear
    dsimp only
    omega

theorem Date.Valid.dayOfYear_lt {date : Date} (hvalid : date.Valid) :
    date.dayOfYear < daysBeforeMonth (isLeapYear date.year) 12 := by
  have hlast := daysBeforeMonth_mono (isLeapYear date.year) hvalid.month_le
    le_rfl
  have hpos := hvalid.day_pos
  have hle := hvalid.day_le
  unfold daysInMonth at hle
  unfold Date.dayOfYear
  omega

theorem Date.Valid.year_le {date other : Date} (hvalid : date.Valid)
    (heq : date.toDays = other.toDays) : other.year ≤ date.year := by
  have hlt := hvalid.dayOfYear_lt
  by_contra hyears
  have hmono := daysBeforeYear_mono (show date.year + 1 ≤ other.year by omega)
  rw [daysBeforeYear_succ] at hmono
  unfold Date.toDays at heq
  omega

/-- Different dates are different days. -/
theorem Date.Valid.eq_of_toDays {date other : Date} (hvalid : date.Valid)
    (hother : other.Valid) (heq : date.toDays = other.toDays) :
    date = other := by
  have hyear : date.year = other.year :=
    le_antisymm (hother.year_le heq.symm) (hvalid.year_le heq)
  obtain ⟨year, month, day⟩ := date
  obtain ⟨otherYear, otherMonth, otherDay⟩ := other
  obtain rfl : year = otherYear := hyear
  unfold Date.toDays Date.dayOfYear at heq
  dsimp only at heq
  have hday : daysBeforeMonth (isLeapYear year) (month - 1) + (day - 1) =
      daysBeforeMonth (isLeapYear year) (otherMonth - 1) + (otherDay - 1) := by
    omega
  obtain ⟨hmonth, hday⟩ := date_unique ⟨hvalid.month_pos, hvalid.month_le⟩
    ⟨hother.month_pos, hother.month_le⟩ ⟨hvalid.day_pos, hvalid.day_le⟩
    ⟨hother.day_pos, hother.day_le⟩ hday
  subst hmonth hday
  rfl

/-- A day is a date exactly when the date is valid and falls on it. -/
theorem ofDays_eq_iff (days : Int) (date : Date) :
    ofDays days = date ↔ date.Valid ∧ date.toDays = days := by
  obtain ⟨hvalid, hdays⟩ := ofDays_spec days
  constructor
  · intro heq
    rw [← heq]
    exact ⟨hvalid, hdays⟩
  · rintro ⟨hother, heq⟩
    apply hvalid.eq_of_toDays hother
    rw [hdays, heq]

/-- A leap day, and the day before the year 0. -/
example : ofDays 19782 = ⟨2024, 2, 29⟩ ∧ ofDays (-719529) = ⟨-1, 12, 31⟩ := by
  decide

end GregorianCalendar
