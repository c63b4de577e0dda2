import Dovetail.UpdaterPublication

/-!
# Past dates

A rule of a form takes a date that is read, written again and compared with
what was typed.  The reading rolls a field that is out of range over, so what
is written again differs just where the fields were none of a date.
-/

namespace Dovetail.FormValidation

open CodeUnits GregorianCalendar
open Updater (DateTime LocalClock WrittenTime digits? microsecondsPerDay)

inductive ValidationFailure where
  | isNotADate (field : Text)
  | isTooOld (field : Text) (earliestYear : Int)
  | isInTheFuture (field : Text)
  deriving DecidableEq

/-- Absent and null read as empty. -/
def valueOf (input : Text → Option (Option Text)) (field : Text) : Text :=
  ((input field).join).getD []

structure PastDate where
  field : Text
  earliestYear : Int
  now : DateTime

namespace PastDate

def dash : UInt16 := 45

def zero : UInt16 := 48

/-- `^\d{4}-\d{2}-\d{2}$` with its three numbers. -/
def iso? (value : Text) : Option (Nat × Nat × Nat) := do
  let (year, rest) ← digits? 4 value
  let rest ← rest.dropPrefix? (text "-")
  let (month, rest) ← digits? 2 rest
  let rest ← rest.dropPrefix? (text "-")
  let (day, rest) ← digits? 2 rest
  if rest = [] then some (year, month, day) else none

def padLeft (width : Nat) (source : Text) : Text :=
  List.replicate (width - source.length) zero ++ source

def asIso (date : Date) : Text :=
  padLeft 4 (text (toString date.year)) ++ text "-" ++
    padLeft 2 (text (toString date.month)) ++ text "-" ++
    padLeft 2 (text (toString date.day))

def validate (clock : LocalClock) (rule : PastDate)
    (input : Text → Option (Option Text)) : Option ValidationFailure :=
  let value := valueOf input rule.field
  if (iso? value).isNone then some (.isNotADate rule.field)
  else
    match DateTime.tryParse clock value with
    | none => some (.isNotADate rule.field)
    | some parsed =>
        let date := parsed.date clock
        if asIso date ≠ value then some (.isNotADate rule.field)
        else if date.year < rule.earliestYear then
          some (.isTooOld rule.field rule.earliestYear)
        else if rule.now.microseconds < parsed.microseconds then
          some (.isInTheFuture rule.field)
        else none

end PastDate

/-! ## What is to be accepted -/

def digitUnit (value : Nat) : UInt16 := UInt16.ofNat (48 + value % 10)

/-- The last digits of a number, so many of them. -/
def decimal : Nat → Nat → Text
  | 0, _ => []
  | width + 1, value => decimal width (value / 10) ++ [digitUnit value]

/-- A date as `YYYY-MM-DD`. -/
def isoText (year month day : Nat) : Text :=
  decimal 4 year ++ PastDate.dash ::
    (decimal 2 month ++ PastDate.dash :: decimal 2 day)

/-- The instant that the constructor makes of a local midnight. -/
def midnight (clock : LocalClock) (day : Int) : Int :=
  clock.instantOf (day * microsecondsPerDay)

/-- The day that the local clock shows at an instant. -/
def dayAt (clock : LocalClock) (instant : Int) : Int :=
  clock.shownAt instant / microsecondsPerDay

/-- No zone is more than a day away. -/
def WithinADay (clock : LocalClock) : Prop :=
  ∀ shown, (clock.instantOf shown - shown).natAbs ≤ microsecondsPerDay

/-- The midnight of a day that has begun lies behind and is shown on that day;
the midnight of one that is still to come, if it is shown on that day, lies
ahead. -/
structure CountsDay (clock : LocalClock) (now : DateTime) (day : Int) :
    Prop where
  begun : day ≤ dayAt clock now.microseconds →
    dayAt clock (midnight clock day) = day ∧
      midnight clock day ≤ now.microseconds
  ahead : dayAt clock now.microseconds < day →
    dayAt clock (midnight clock day) = day →
      now.microseconds < midnight clock day

/-- The date of the local clock. -/
def currentDate (clock : LocalClock) (now : DateTime) : Date :=
  ofDays (dayAt clock now.microseconds)

/-- A date of the calendar, written so, from the earliest year on. -/
structure Names (rule : PastDate) (value : Text) (year month day : Nat) :
    Prop where
  year_le : year ≤ 9999
  valid : (⟨year, month, day⟩ : Date).Valid
  written : value = isoText year month day
  earliest : rule.earliestYear ≤ year

/-- Such a date that is not after the current one. -/
def IsPastDate (clock : LocalClock) (rule : PastDate) (value : Text) : Prop :=
  ∃ year month day, Names rule value year month day ∧
    (⟨year, month, day⟩ : Date).toDays ≤
      (currentDate clock rule.now).toDays

/-! ## Digits -/

theorem toNat_digitUnit (value : Nat) :
    (digitUnit value).toNat = 48 + value % 10 := by
  have hsmall : 48 + value % 10 < 65536 := by omega
  unfold digitUnit
  rw [UInt16.toNat_ofNat_of_lt' hsmall]

theorem length_decimal (width value : Nat) :
    (decimal width value).length = width := by
  induction width generalizing value with
  | zero => rfl
  | succ width ih => simp [decimal, ih]

theorem digits?_one (value : Nat) (rest : Text) :
    digits? 1 (digitUnit value :: rest) = some (value % 10, rest) := by
  have hunit := toNat_digitUnit value
  have hdigit : JsonDocument.isDigit (digitUnit value) = true := by
    simp only [JsonDocument.isDigit, hunit, Bool.and_eq_true,
      decide_eq_true_eq]
    omega
  simp [digits?, hdigit, hunit]

theorem digits?_decimal {width value : Nat} (hvalue : value < 10 ^ width)
    (rest : Text) :
    digits? width (decimal width value ++ rest) = some (value, rest) := by
  induction width generalizing value rest with
  | zero =>
      have hzero : value = 0 := by simpa using hvalue
      rw [hzero]
      rfl
  | succ width ih =>
      have hsmaller : value / 10 < 10 ^ width := by
        rw [Nat.pow_succ] at hvalue
        omega
      rw [Updater.digits?_add, decimal, List.append_assoc,
        List.singleton_append, ih hsmaller]
      simp only [Option.bind_some, digits?_one, Option.map_some, pow_one]
      rw [Nat.div_add_mod']

theorem digits?_one_eq_some {source rest : Text} {value : Nat}
    (hdigits : digits? 1 source = some (value, rest)) :
    source = digitUnit value :: rest ∧ value < 10 := by
  cases source with
  | nil => cases hdigits
  | cons unit others =>
      unfold digits? at hdigits
      split at hdigits
      · next hdigit =>
          simp only [JsonDocument.isDigit, Bool.and_eq_true,
            decide_eq_true_eq] at hdigit
          simp only [digits?, Option.map_some, pow_zero, mul_one, add_zero,
            Option.some.injEq, Prod.mk.injEq] at hdigits
          rcases hdigits with ⟨rfl, rfl⟩
          have hsmall : unit.toNat - 48 < 10 := by omega
          refine ⟨?_, hsmall⟩
          congr 1
          apply UInt16.toNat_inj.mp
          rw [toNat_digitUnit, Nat.mod_eq_of_lt hsmall]
          omega
      · cases hdigits

/-- Digits that are read are the ones of the number. -/
theorem eq_decimal_of_digits? {width value : Nat} {source rest : Text}
    (hdigits : digits? width source = some (value, rest)) :
    source = decimal width value ++ rest ∧ value < 10 ^ width := by
  induction width generalizing value rest with
  | zero =>
      cases hdigits
      exact ⟨rfl, Nat.one_pos⟩
  | succ width ih =>
      rw [Updater.digits?_add] at hdigits
      rcases Option.bind_eq_some_iff.mp hdigits with
        ⟨⟨first, others⟩, hfirst, hlast⟩
      rcases Option.map_eq_some_iff.mp hlast with
        ⟨⟨last, behind⟩, hone, hsame⟩
      simp only [pow_one, Prod.mk.injEq] at hsame
      rcases hsame with ⟨rfl, rfl⟩
      rcases ih hfirst with ⟨hsource, hsmall⟩
      rcases digits?_one_eq_some hone with ⟨hothers, hunit⟩
      have hdiv : (first * 10 + last) / 10 = first := by omega
      have hdigit : digitUnit (first * 10 + last) = digitUnit last := by
        unfold digitUnit
        congr 1
        omega
      constructor
      · rw [hsource, hothers, decimal, hdiv, hdigit, List.append_assoc]
        rfl
      · rw [Nat.pow_succ]
        omega

theorem dropPrefix?_dash_eq_some {source rest : Text} :
    source.dropPrefix? (text "-") = some rest ↔
      source = PastDate.dash :: rest := by
  constructor
  · intro hdropped
    rcases List.dropPrefix?_eq_some_iff.mp hdropped with
      ⟨first, hfirst, hsame⟩
    rw [hfirst, eq_of_beq hsame]
    rfl
  · rintro rfl
    have hdash : text "-" = [PastDate.dash] := rfl
    rw [hdash]
    simp [List.dropPrefix?]

/-- The pattern takes just what is written of three numbers. -/
theorem iso?_eq_some_iff {value : Text} {year month day : Nat} :
    PastDate.iso? value = some (year, month, day) ↔
      value = isoText year month day ∧ year ≤ 9999 ∧ month ≤ 99 ∧
        day ≤ 99 := by
  unfold PastDate.iso? isoText
  constructor
  · intro hread
    rcases Option.bind_eq_some_iff.mp hread with
      ⟨⟨foundYear, afterYear⟩, hyear, hread⟩
    rcases Option.bind_eq_some_iff.mp hread with ⟨months, hmonths, hread⟩
    rcases Option.bind_eq_some_iff.mp hread with
      ⟨⟨foundMonth, afterMonth⟩, hmonth, hread⟩
    rcases Option.bind_eq_some_iff.mp hread with ⟨days, hdays, hread⟩
    rcases Option.bind_eq_some_iff.mp hread with
      ⟨⟨foundDay, rest⟩, hday, hread⟩
    rcases Option.ite_none_right_eq_some.mp hread with ⟨hrest, hsame⟩
    cases hsame
    have hrest : rest = [] := hrest
    rcases eq_decimal_of_digits? hyear with ⟨hvalue, hyear⟩
    rcases eq_decimal_of_digits? hmonth with ⟨hmonths', hmonth⟩
    rcases eq_decimal_of_digits? hday with ⟨hdays', hday⟩
    rw [hvalue, dropPrefix?_dash_eq_some.mp hmonths, hmonths',
      dropPrefix?_dash_eq_some.mp hdays, hdays', hrest, List.append_nil]
    refine ⟨rfl, ?_, ?_, ?_⟩ <;> omega
  · rintro ⟨rfl, hyear, hmonth, hday⟩
    have hlast := @digits?_decimal 2 day (by omega) []
    rw [List.append_nil] at hlast
    have hdash (rest : Text) :
        (PastDate.dash :: rest).dropPrefix? (text "-") = some rest :=
      dropPrefix?_dash_eq_some.mpr rfl
    rw [digits?_decimal (by omega)]
    simp only [Option.bind_eq_bind, Option.bind_some, hdash]
    rw [digits?_decimal (by omega)]
    simp only [Option.bind_some, hdash, hlast, if_true]

/-! ## Numbers that are padded -/

theorem units_digitChar {digit : Nat} (hdigit : digit < 10) :
    units (Nat.digitChar digit) = [digitUnit digit] := by
  interval_cases digit <;> rfl

/-- The last digit of a number stands at the end. -/
theorem text_toString_last (value : Nat) :
    text (toString value) =
      (if value < 10 then [] else text (toString (value / 10))) ++
        [digitUnit value] := by
  have hlast : digitUnit (value % 10) = digitUnit value := by
    unfold digitUnit
    rw [Nat.mod_mod]
  rw [text_toString_eq, Nat.toDigits_eq_if (by omega)]
  split
  · next hsmall => simp [units_digitChar hsmall]
  · have hdigit := units_digitChar (Nat.mod_lt value (show 10 > 0 by omega))
    rw [List.flatMap_append, ← text_toString_eq, List.flatMap_singleton,
      hdigit, hlast]

theorem decimal_zero (width : Nat) :
    decimal width 0 = List.replicate width PastDate.zero := by
  induction width with
  | zero => rfl
  | succ width ih =>
      rw [decimal, Nat.zero_div, ih, List.replicate_succ']
      rfl

theorem padLeft_eq_decimal {width value : Nat}
    (hvalue : value < 10 ^ (width + 1)) :
    PastDate.padLeft (width + 1) (text (toString value)) =
      decimal (width + 1) value := by
  induction width generalizing value with
  | zero =>
      have hsmall : value < 10 := by simpa using hvalue
      rw [text_toString_last, if_pos hsmall]
      rfl
  | succ width ih =>
      rw [text_toString_last, decimal]
      by_cases hsmall : value < 10
      · rw [if_pos hsmall, Nat.div_eq_of_lt hsmall, decimal_zero]
        rfl
      · have hsmaller : value / 10 < 10 ^ (width + 1) := by
          rw [Nat.pow_succ] at hvalue
          omega
        rw [if_neg hsmall, ← ih hsmaller]
        simp [PastDate.padLeft]

/-- The number that digits stand for. -/
def valueOfDigits (digits : Text) : Nat :=
  digits.foldl (fun value unit => 10 * value + (unit.toNat - 48)) 0

theorem valueOfDigits_concat (digits : Text) (value : Nat) :
    valueOfDigits (digits ++ [digitUnit value]) =
      10 * valueOfDigits digits + value % 10 := by
  have hunit := toNat_digitUnit value
  simp [valueOfDigits, hunit]

theorem valueOfDigits_text (value : Nat) :
    valueOfDigits (text (toString value)) = value := by
  induction value using Nat.strong_induction_on with
  | _ value ih =>
      rw [text_toString_last, valueOfDigits_concat]
      by_cases hsmall : value < 10
      · rw [if_pos hsmall]
        have hnil : valueOfDigits [] = 0 := rfl
        omega
      · rw [if_neg hsmall, ih (value / 10) (by omega)]
        omega

theorem valueOfDigits_padLeft (width : Nat) (digits : Text) :
    valueOfDigits (PastDate.padLeft width digits) = valueOfDigits digits := by
  unfold PastDate.padLeft valueOfDigits
  rw [List.foldl_append]
  congr 1
  generalize width - digits.length = count
  induction count with
  | zero => rfl
  | succ count ih =>
      rw [List.replicate_succ, List.foldl_cons]
      exact ih

theorem dash_not_mem_decimal (width value : Nat) :
    PastDate.dash ∉ decimal width value := by
  induction width generalizing value with
  | zero => exact List.not_mem_nil
  | succ width ih =>
      rw [decimal, List.mem_append, not_or]
      constructor
      · exact ih _
      · rw [List.mem_singleton]
        intro hsame
        have hunit := congrArg UInt16.toNat hsame
        rw [toNat_digitUnit] at hunit
        simp only [PastDate.dash, UInt16.reduceToNat] at hunit
        omega

/-- A year is only written as four digits if it is the number of these. -/
theorem year_of_padLeft {year : Int} {value : Nat} (hvalue : value ≤ 9999)
    (hsame : PastDate.padLeft 4 (text (toString year)) = decimal 4 value) :
    year = value := by
  cases year with
  | ofNat number =>
      have hnumber : PastDate.padLeft 4 (text (toString number)) =
          decimal 4 value := hsame
      rw [← padLeft_eq_decimal (by omega)] at hnumber
      have hdigits := congrArg valueOfDigits hnumber
      rw [valueOfDigits_padLeft, valueOfDigits_padLeft, valueOfDigits_text,
        valueOfDigits_text] at hdigits
      rw [hdigits]
      rfl
  | negSucc number =>
      exfalso
      apply dash_not_mem_decimal 4 value
      rw [← hsame]
      have htext : text (toString (Int.negSucc number)) =
          PastDate.dash :: text (toString (number + 1)) := by
        have hshown : toString (Int.negSucc number) =
            "-" ++ toString (number + 1) := rfl
        rw [hshown]
        simp [text, String.toList_append]
        rfl
      rw [htext]
      simp [PastDate.padLeft]

theorem decimal_inj {width value other : Nat} (hvalue : value < 10 ^ width)
    (hother : other < 10 ^ width)
    (hsame : decimal width value = decimal width other) : value = other := by
  have hread := digits?_decimal hvalue []
  rw [hsame, digits?_decimal hother [], Option.some.injEq,
    Prod.mk.injEq] at hread
  exact hread.1.symm

theorem daysInMonth_le (year : Int) {month : Nat} (hpos : 1 ≤ month)
    (hle : month ≤ 12) : daysInMonth year month ≤ 31 := by
  unfold daysInMonth
  generalize isLeapYear year = leap
  interval_cases month <;> cases leap <;> decide

theorem asIso_eq {date : Date} (hmonth : date.month < 10 ^ 2)
    (hday : date.day < 10 ^ 2) :
    PastDate.asIso date =
      PastDate.padLeft 4 (text (toString date.year)) ++ PastDate.dash ::
        (decimal 2 date.month ++ PastDate.dash :: decimal 2 date.day) := by
  unfold PastDate.asIso
  rw [padLeft_eq_decimal hmonth, padLeft_eq_decimal hday]
  simp only [List.append_assoc]
  rfl

section

variable {year month day : Nat} (hyear : year ≤ 9999) (hmonth : month ≤ 99)
  (hday : day ≤ 99)

include hyear hmonth hday

theorem asIso_eq_isoText :
    PastDate.asIso ⟨year, month, day⟩ = isoText year month day := by
  have hshown : toString (year : Int) = toString year := rfl
  have hmonths : month < 10 ^ 2 := by omega
  have hdays : day < 10 ^ 2 := by omega
  rw [asIso_eq hmonths hdays]
  dsimp only
  rw [hshown, padLeft_eq_decimal (by omega)]
  rfl

/-- A date is only written so if it is of these three numbers. -/
theorem asIso_eq_iff {date : Date} (hvalid : date.Valid) :
    PastDate.asIso date = isoText year month day ↔
      date = ⟨year, month, day⟩ := by
  constructor
  · intro hsame
    have hmonths : date.month < 10 ^ 2 := by
      have hle := hvalid.month_le
      omega
    have hdays : date.day < 10 ^ 2 := by
      have hle := hvalid.day_le
      have hmost := daysInMonth_le date.year hvalid.month_pos hvalid.month_le
      omega
    rw [asIso_eq hmonths hdays, isoText] at hsame
    rcases List.append_inj' hsame (by simp [length_decimal]) with
      ⟨hyears, hrest⟩
    rcases List.append_inj (List.tail_eq_of_cons_eq hrest)
      (by rw [length_decimal, length_decimal]) with ⟨hmonthText, hdayText⟩
    have hdayText := List.tail_eq_of_cons_eq hdayText
    rcases date with ⟨otherYear, otherMonth, otherDay⟩
    have hsameMonth := decimal_inj hmonths (by omega) hmonthText
    have hsameDay := decimal_inj hdays (by omega) hdayText
    rw [Date.mk.injEq]
    exact ⟨year_of_padLeft hyear hyears, hsameMonth, hsameDay⟩
  · rintro rfl
    exact asIso_eq_isoText hyear hmonth hday

end

/-! ## Reading what the pattern takes -/

/-- Three numbers without a time. -/
def writtenOf (year month day : Nat) : WrittenTime :=
  ⟨year, month, day, 0, 0, 0, 0, none⟩

section

variable {year month day : Nat} (hyear : year ≤ 9999) (hmonth : month ≤ 99)
  (hday : day ≤ 99) {clock : LocalClock}

include hyear hmonth hday

theorem scan_isoText :
    WrittenTime.scan (isoText year month day) =
      some (writtenOf year month day) := by
  have hlast := @digits?_decimal 2 day (by omega) []
  rw [List.append_nil] at hlast
  have hdashed : WrittenTime.Dashed (isoText year month day) year month day
      [] := by
    constructor
    · exact digits?_decimal (by omega) _
    · exact digits?_decimal (by omega) _
    · exact hlast
  exact hdashed.scan_eq

theorem days_writtenOf :
    (writtenOf year month day).days.natAbs ≤ 5000000 := by
  have hmost (leap : Bool) {count : Nat} (hle : count ≤ 12) :
      daysBeforeMonth leap count ≤ 366 := by
    have hmono := daysBeforeMonth_mono leap hle le_rfl
    rw [daysBeforeMonth_twelve] at hmono
    split at hmono <;> omega
  unfold WrittenTime.days writtenOf daysBeforeYear
  dsimp only
  have hle := hmost (isLeapYear ((year : Int) + ((month : Int) - 1) / 12))
    (show (((month : Int) - 1) % 12).toNat ≤ 12 by omega)
  omega

/-- What the pattern takes is always an instant. -/
theorem tryParse_isoText (hnear : WithinADay clock) :
    DateTime.tryParse clock (isoText year month day) =
      some ⟨midnight clock (writtenOf year month day).days, false⟩ := by
  have hdays := days_writtenOf hyear hmonth hday
  have hshown : (writtenOf year month day).shown =
      (writtenOf year month day).days * microsecondsPerDay := by
    unfold WrittenTime.shown WrittenTime.timeOfDay writtenOf
    simp
  have hinstant := hnear (writtenOf year month day).shown
  unfold DateTime.tryParse
  rw [scan_isoText hyear hmonth hday, Option.bind_some]
  unfold WrittenTime.instant
  have hnone : (writtenOf year month day).offset = none := rfl
  rw [hnone]
  dsimp only
  unfold midnight
  rw [← hshown]
  unfold Updater.maxMicroseconds
  unfold microsecondsPerDay at *
  rw [if_neg (by omega), if_pos (by omega)]

end

section

variable {clock : LocalClock} {rule : PastDate}
  {input : Text → Option (Option Text)} {year month day : Nat}

theorem validate_of_isoText (hnear : WithinADay clock) (hyear : year ≤ 9999)
    (hmonth : month ≤ 99) (hday : day ≤ 99)
    (hvalue : valueOf input rule.field = isoText year month day) :
    rule.validate clock input = none ↔
      (⟨year, month, day⟩ : Date).Valid ∧ rule.earliestYear ≤ year ∧
        dayAt clock (midnight clock (⟨year, month, day⟩ : Date).toDays) =
          (⟨year, month, day⟩ : Date).toDays ∧
        midnight clock (⟨year, month, day⟩ : Date).toDays ≤
          rule.now.microseconds := by
  have hiso : PastDate.iso? (isoText year month day) =
      some (year, month, day) :=
    iso?_eq_some_iff.mpr ⟨rfl, hyear, hmonth, hday⟩
  have hdate : DateTime.date clock
      ⟨midnight clock (writtenOf year month day).days, false⟩ =
        ofDays (dayAt clock
          (midnight clock (writtenOf year month day).days)) := rfl
  have hshown := asIso_eq_iff hyear hmonth hday
    (ofDays_spec (dayAt clock
      (midnight clock (writtenOf year month day).days))).1
  have hdays (hvalid : (⟨year, month, day⟩ : Date).Valid) :
      (writtenOf year month day).days = (⟨year, month, day⟩ : Date).toDays :=
    @WrittenTime.days_of_valid (writtenOf year month day) hvalid
  unfold PastDate.validate
  dsimp only
  rw [hvalue, hiso, tryParse_isoText hyear hmonth hday hnear]
  dsimp only [Option.isNone_some]
  rw [hdate, if_neg Bool.false_ne_true]
  by_cases hsame : ofDays (dayAt clock
      (midnight clock (writtenOf year month day).days)) = ⟨year, month, day⟩
  · rw [if_neg (not_not.mpr (hshown.mpr hsame)), hsame]
    rcases (ofDays_eq_iff _ _).mp hsame with ⟨hvalid, hday⟩
    rw [hdays hvalid] at hday ⊢
    simp only [hvalid, hday.symm, true_and]
    split
    · next hold => simp [Int.not_le.mpr hold]
    · next hold =>
        split
        · next hahead => simp [Int.not_le.mpr hahead]
        · next hahead =>
            simp [Int.not_lt.mp hold, Int.not_lt.mp hahead]
  · rw [if_pos (fun heq => hsame (hshown.mp heq))]
    constructor
    · intro hnone
      cases hnone
    · rintro ⟨hvalid, -, hday, -⟩
      exfalso
      apply hsame
      rw [ofDays_eq_iff, hdays hvalid]
      exact ⟨hvalid, hday.symm⟩

theorem validate_of_iso?_eq_none
    (hiso : PastDate.iso? (valueOf input rule.field) = none) :
    rule.validate clock input = some (.isNotADate rule.field) := by
  unfold PastDate.validate
  dsimp only
  rw [hiso]
  rfl

end

theorem Names.month_le {rule : PastDate} {value : Text}
    {year month day : Nat} (hnames : Names rule value year month day) :
    month ≤ 99 :=
  le_trans hnames.valid.month_le (by omega)

theorem Names.day_le {rule : PastDate} {value : Text}
    {year month day : Nat} (hnames : Names rule value year month day) :
    day ≤ 99 := by
  have hmost := daysInMonth_le year hnames.valid.month_pos
    hnames.valid.month_le
  exact le_trans hnames.valid.day_le (le_trans hmost (by omega))

theorem Names.iso? {rule : PastDate} {value : Text} {year month day : Nat}
    (hnames : Names rule value year month day) :
    PastDate.iso? value = some (year, month, day) :=
  iso?_eq_some_iff.mpr
    ⟨hnames.written, hnames.year_le, hnames.month_le, hnames.day_le⟩

section

variable {clock : LocalClock} (hnear : WithinADay clock) (rule : PastDate)
  (input : Text → Option (Option Text))

include hnear

/-- The rule takes a date that the local clock shows at its own midnight,
unless that midnight lies ahead. -/
theorem validate_eq_none_iff :
    rule.validate clock input = none ↔
      ∃ year month day,
        Names rule (valueOf input rule.field) year month day ∧
        dayAt clock (midnight clock (⟨year, month, day⟩ : Date).toDays) =
          (⟨year, month, day⟩ : Date).toDays ∧
        midnight clock (⟨year, month, day⟩ : Date).toDays ≤
          rule.now.microseconds := by
  constructor
  · intro hnone
    cases hiso : PastDate.iso? (valueOf input rule.field) with
    | none =>
        rw [validate_of_iso?_eq_none hiso] at hnone
        cases hnone
    | some found =>
        rcases found with ⟨year, month, day⟩
        rcases iso?_eq_some_iff.mp hiso with ⟨hvalue, hyear, hmonth, hday⟩
        rcases (validate_of_isoText hnear hyear hmonth hday hvalue).mp hnone
          with ⟨hvalid, hearliest, hrest⟩
        exact ⟨year, month, day, ⟨hyear, hvalid, hvalue, hearliest⟩, hrest⟩
  · rintro ⟨year, month, day, hnames, hrest⟩
    rw [validate_of_isoText hnear hnames.year_le hnames.month_le
      hnames.day_le hnames.written]
    exact ⟨hnames.valid, hnames.earliest, hrest⟩

/-- The rule takes just the past dates where the local clock counts the day
that is written, as long as that is one. -/
theorem validate_meets_iff :
    (rule.validate clock input = none ↔
        IsPastDate clock rule (valueOf input rule.field)) ↔
      ∀ year month day,
        Names rule (valueOf input rule.field) year month day →
          CountsDay clock rule.now (⟨year, month, day⟩ : Date).toDays := by
  have hcurrent : (currentDate clock rule.now).toDays =
      dayAt clock rule.now.microseconds := (ofDays_spec _).2
  rw [validate_eq_none_iff hnear]
  unfold IsPastDate
  rw [hcurrent]
  by_cases hsome : ∃ year month day,
      Names rule (valueOf input rule.field) year month day
  · rcases hsome with ⟨year, month, day, hnames⟩
    have honly {otherYear otherMonth otherDay : Nat}
        (hother : Names rule (valueOf input rule.field) otherYear otherMonth
          otherDay) :
        otherYear = year ∧ otherMonth = month ∧ otherDay = day := by
      have hsame := hother.iso?.symm.trans hnames.iso?
      simpa using hsame
    have hexists (p : Nat → Nat → Nat → Prop) :
        (∃ year month day,
          Names rule (valueOf input rule.field) year month day ∧
            p year month day) ↔ p year month day := by
      constructor
      · rintro ⟨otherYear, otherMonth, otherDay, hother, hholds⟩
        rcases honly hother with ⟨rfl, rfl, rfl⟩
        exact hholds
      · intro hholds
        exact ⟨year, month, day, hnames, hholds⟩
    rw [hexists, hexists]
    constructor
    · intro hmeets otherYear otherMonth otherDay hother
      rcases honly hother with ⟨rfl, rfl, rfl⟩
      constructor
      case begun => exact hmeets.mpr
      case ahead =>
        intro hahead hshown
        by_contra hbehind
        have hle := hmeets.mp ⟨hshown, Int.not_lt.mp hbehind⟩
        omega
    · intro hcounts
      have hcounts := hcounts year month day hnames
      constructor
      · rintro ⟨hshown, hbehind⟩
        by_contra hahead
        have hlt := hcounts.ahead (Int.not_le.mp hahead) hshown
        omega
      · exact hcounts.begun
  · constructor
    · intro _ year month day hnames
      exact absurd ⟨year, month, day, hnames⟩ hsome
    · intro _
      constructor
      · rintro ⟨year, month, day, hnames, -⟩
        exact absurd ⟨year, month, day, hnames⟩ hsome
      · rintro ⟨year, month, day, hnames, -⟩
        exact absurd ⟨year, month, day, hnames⟩ hsome

end

/-! ## Clocks -/

/-- Midnight is the first instant of its day, and no day is shown again once
another one has begun. -/
structure StartsDays (clock : LocalClock) : Prop where
  shown : ∀ day, dayAt clock (midnight clock day) = day
  begins : ∀ day instant, midnight clock day ≤ instant ↔
    day ≤ dayAt clock instant

theorem StartsDays.countsDay {clock : LocalClock}
    (hstarts : StartsDays clock) (now : DateTime) (day : Int) :
    CountsDay clock now day := by
  constructor
  case begun =>
    intro hbegun
    exact ⟨hstarts.shown day, (hstarts.begins day now.microseconds).mpr hbegun⟩
  case ahead =>
    intro hahead _
    rw [← Int.not_le, hstarts.begins]
    exact Int.not_le.mpr hahead

/-- The clock of a zone that never changes. -/
def fixedClock (offset : Int) : LocalClock :=
  ⟨fun shown => shown - offset, fun instant => instant + offset⟩

theorem startsDays_fixedClock (offset : Int) :
    StartsDays (fixedClock offset) := by
  constructor
  case shown =>
    intro day
    unfold dayAt midnight fixedClock microsecondsPerDay
    dsimp only
    omega
  case begins =>
    intro day instant
    unfold dayAt midnight fixedClock microsecondsPerDay
    dsimp only
    omega

theorem withinADay_fixedClock {offset : Int}
    (hoffset : offset.natAbs ≤ microsecondsPerDay) :
    WithinADay (fixedClock offset) := by
  intro shown
  unfold fixedClock
  dsimp only
  omega

def hour : Int := 3600000000

def inputOf (field value : Text) : Text → Option (Option Text) :=
  fun name => if name = field then some (some value) else none

/-- Three hours behind Greenwich. -/
theorem validate_meets_leapDay :
    let rule : PastDate :=
      ⟨text "birthday", 1900, ⟨1709175600000000, false⟩⟩
    let input := inputOf (text "birthday") (text "2024-02-29")
    rule.validate (fixedClock (-3 * hour)) input = none ↔
      IsPastDate (fixedClock (-3 * hour)) rule
        (valueOf input rule.field) := by
  intro rule input
  have hnear : WithinADay (fixedClock (-3 * hour)) :=
    withinADay_fixedClock (by decide)
  apply (validate_meets_iff hnear rule input).mpr
  intro year month day _
  exact (startsDays_fixedClock _).countsDay _ _

/-- A zone that went over to the other side of the date line, from ten hours
behind Greenwich to fourteen before it, at the end of the 29th of December
2011. -/
def acrossDateLine : LocalClock where
  instantOf shown :=
    if shown < 1325239200000000 + 14 * hour then shown + 10 * hour
    else shown - 14 * hour
  shownAt instant :=
    if instant < 1325239200000000 then instant - 10 * hour
    else instant + 14 * hour

/-- The day that was left out there is a date, and is refused. -/
theorem not_validate_meets_skippedDay :
    let rule : PastDate :=
      ⟨text "birthday", 1900, ⟨1709175600000000, false⟩⟩
    let input := inputOf (text "birthday") (text "2011-12-30")
    WithinADay acrossDateLine ∧
      ¬ (rule.validate acrossDateLine input = none ↔
        IsPastDate acrossDateLine rule (valueOf input rule.field)) := by
  intro rule input
  constructor
  · intro shown
    unfold acrossDateLine hour microsecondsPerDay
    dsimp only
    split <;> omega
  · intro hmeets
    have hrefused : rule.validate acrossDateLine input ≠ none := by
      decide
    apply hrefused
    apply hmeets.mpr
    have hwritten : valueOf input rule.field = isoText 2011 12 30 := by
      decide
    have hnames : Names rule (valueOf input rule.field) 2011 12 30 := by
      constructor
      case year_le => decide
      case valid => decide
      case written => exact hwritten
      case earliest => decide
    exact ⟨2011, 12, 30, hnames, by decide⟩

end Dovetail.FormValidation
