import Dovetail.GregorianCalendar
import Dovetail.UpdaterManifest

/-!
# The publication date

`DateTime.tryParse` reads a date in the basic and the extended form and rolls
a field over that is out of range.  The parser of the manifest compares the
date it comes to with the one that was written, where that starts with a year
of four digits and dashes.
-/

namespace Dovetail.Updater

open CodeUnits JsonDocument GregorianCalendar

/-! ## Reading an instant -/

/-- What is written in a date: fields that are left out are zero, the fraction
is in microseconds and the offset in minutes. -/
structure WrittenTime where
  year : Int
  month : Nat
  day : Nat
  hour : Nat
  minute : Nat
  second : Nat
  fraction : Nat
  offset : Option Int
  deriving DecidableEq

namespace WrittenTime

def skip (unit : UInt16) : Text → Text
  | first :: rest => if first = unit then rest else first :: rest
  | [] => []

def dash : UInt16 := 45

def plus : UInt16 := 43

def colon : UInt16 := 58

/-- `[+-]?\d` so many times. -/
def year? (count : Nat) : Text → Option (Int × Text)
  | [] => (digits? count []).map fun (value, rest) => ((value : Int), rest)
  | first :: rest =>
      if first = plus then
        (digits? count rest).map fun (value, rest) => ((value : Int), rest)
      else if first = dash then
        (digits? count rest).map fun (value, rest) => (-(value : Int), rest)
      else
        (digits? count (first :: rest)).map fun (value, rest) =>
          ((value : Int), rest)

/-- `:?\d\d` -/
def afterColon? (source : Text) : Option (Nat × Text) :=
  digits? 2 (skip colon source)

/-- The first six digits count. -/
def microseconds (digits : Text) : Nat :=
  (List.range 6).foldl (fun value index =>
    value * 10 + ((digits[index]?).elim 0 fun unit => unit.toNat - 48)) 0

/-- `(?:[.,](\d+))?` -/
def afterPoint (source : Text) : Nat × Text :=
  match source with
  | [] => (0, [])
  | first :: rest =>
      if (first = 46 ∨ first = 44) ∧ (rest.head?.any isDigit) then
        (microseconds (rest.takeWhile isDigit), rest.dropWhile isDigit)
      else (0, source)

/-- `( ?[zZ]| ?([-+])(\d\d)(?::?(\d\d))?)?$` -/
def offset? (source : Text) : Option (Option Int) :=
  match source with
  | [] => some none
  | _ =>
      match skip 32 source with
      | [] => none
      | first :: rest =>
          if first = 90 ∨ first = 122 then
            if rest = [] then some (some 0) else none
          else if first = plus ∨ first = dash then do
            let (hours, rest) ← digits? 2 rest
            let (minutes, rest) := (afterColon? rest).getD (0, rest)
            let difference : Int := 60 * hours + minutes
            if rest = [] then
              some (some (if first = dash then -difference else difference))
            else none
          else none

/-- The time behind a date. -/
def time? (year : Int) (month day : Nat) (source : Text) :
    Option WrittenTime :=
  match source with
  | [] => some ⟨year, month, day, 0, 0, 0, 0, none⟩
  | first :: rest =>
      if first = 32 ∨ first = 84 then do
        let (hour, rest) ← digits? 2 rest
        match afterColon? rest with
        | none =>
            (offset? rest).map fun offset =>
              ⟨year, month, day, hour, 0, 0, 0, offset⟩
        | some (minute, rest) =>
            match afterColon? rest with
            | none =>
                (offset? rest).map fun offset =>
                  ⟨year, month, day, hour, minute, 0, 0, offset⟩
            | some (second, rest) =>
                (offset? (afterPoint rest).2).map fun offset =>
                  ⟨year, month, day, hour, minute, second, (afterPoint rest).1,
                    offset⟩
      else none

def scanWith (count : Nat) (source : Text) : Option WrittenTime := do
  let (year, rest) ← year? count source
  let (month, rest) ← digits? 2 (skip dash rest)
  let (day, rest) ← digits? 2 (skip dash rest)
  time? year month day rest

/-- The longest year that leaves a date is the one that is read. -/
def scan (source : Text) : Option WrittenTime :=
  (scanWith 6 source).or ((scanWith 5 source).or (scanWith 4 source))

end WrittenTime

/-! ## The instant -/

/-- A second of a day is a million microseconds. -/
def microsecondsPerMinute : Int := 60000000

def microsecondsPerDay : Int := 86400000000

def maxMicroseconds : Int := 8640000000000000000

structure DateTime where
  microseconds : Int
  isUtc : Bool
  deriving DecidableEq

/-- The clock of the machine, in the microseconds it shows, read as if it was
the one of UTC. -/
structure LocalClock where
  instantOf : Int → Int
  shownAt : Int → Int

namespace WrittenTime

variable (clock : LocalClock) (written : WrittenTime)

/-- The days since 1970, with a month that is out of range rolled over. -/
def days : Int :=
  let month : Int := written.month - 1
  let year := written.year + month / 12
  daysBeforeYear year +
    daysBeforeMonth (isLeapYear year) (month % 12).toNat + (written.day - 1)

def timeOfDay : Int :=
  ((written.hour * 60 + written.minute) * 60 + written.second) * 1000000 +
    written.fraction

/-- What a clock would have to show. -/
def shown : Int := written.days * microsecondsPerDay + written.timeOfDay

def instant : Option DateTime :=
  match written.offset with
  | some offset =>
      let microseconds := written.shown - offset * microsecondsPerMinute
      if microseconds.natAbs ≤ maxMicroseconds then some ⟨microseconds, true⟩
      else none
  | none =>
      if written.shown.natAbs > maxMicroseconds + microsecondsPerDay then none
      else
        let microseconds := clock.instantOf written.shown
        if microseconds.natAbs ≤ maxMicroseconds then
          some ⟨microseconds, false⟩
        else none

end WrittenTime

namespace DateTime

def tryParse (clock : LocalClock) (source : Text) : Option DateTime :=
  (WrittenTime.scan source).bind (WrittenTime.instant clock)

/-- What its own clock shows of an instant. -/
def shown (clock : LocalClock) (instant : DateTime) : Int :=
  if instant.isUtc then instant.microseconds
  else clock.shownAt instant.microseconds

def date (clock : LocalClock) (instant : DateTime) : Date :=
  ofDays (instant.shown clock / microsecondsPerDay)

end DateTime

/-- The year, the month and the day of a date. -/
def fieldsOf (date : Date) : Int × Int × Int :=
  (date.year, (date.month : Int), (date.day : Int))

theorem fieldsOf_eq_iff {date other : Date} :
    fieldsOf date = fieldsOf other ↔ date = other := by
  constructor
  · intro heq
    simp only [fieldsOf, Prod.mk.injEq, Nat.cast_inj] at heq
    obtain ⟨hyear, hmonth, hday⟩ := heq
    cases date
    cases other
    simp_all
  · rintro rfl
    rfl

/-- The runtime with the dates of the language. -/
def Runtime.dated {Version Date : Type} (runtime : Runtime Version Date)
    (clock : LocalClock) : Runtime Version DateTime where
  parseVersion := runtime.parseVersion
  versionText := runtime.versionText
  sameVersion := runtime.sameVersion
  versionLess := runtime.versionLess
  parseDate := DateTime.tryParse clock
  dateFields instant := fieldsOf (instant.date clock)
  numberText := runtime.numberText
  jsonError := runtime.jsonError
  utf8Error := runtime.utf8Error

example : DateTime.tryParse ⟨id, id⟩ (text "20240101T003000+0200") =
    some ⟨1704061800000000, true⟩ := by decide

/-! ## What the parser compares -/

namespace WrittenTime

/-- The date as it is written, which may not be one. -/
def date (written : WrittenTime) : Date :=
  ⟨written.year, written.month, written.day⟩

def TimeInRange (written : WrittenTime) : Prop :=
  written.hour < 24 ∧ written.minute < 60 ∧ written.second < 60

/-- Every field of the date and the time lies in its range. -/
def InRange (written : WrittenTime) : Prop :=
  written.date.Valid ∧ written.TimeInRange

/-- How far the clock that counts is away from what is written: by the offset,
or by what the local clock skips. -/
def shift (clock : LocalClock) (written : WrittenTime) : Int :=
  match written.offset with
  | some offset => -(offset * microsecondsPerMinute)
  | none => clock.shownAt (clock.instantOf written.shown) - written.shown

/-- The clock that counts shows the day that is written. -/
def OnItsDay (clock : LocalClock) (written : WrittenTime) : Prop :=
  0 ≤ written.timeOfDay + written.shift clock ∧
    written.timeOfDay + written.shift clock < microsecondsPerDay

end WrittenTime

theorem digits?_add (first second : Nat) (source : Text) :
    digits? (first + second) source =
      (digits? first source).bind fun (value, rest) =>
        (digits? second rest).map fun (more, others) =>
          (value * 10 ^ second + more, others) := by
  induction first generalizing source with
  | zero =>
      rw [Nat.zero_add]
      cases hdigits : digits? second source <;> simp [digits?, hdigits]
  | succ count ih =>
      rw [show count + 1 + second = count + second + 1 by omega]
      cases source with
      | nil => rfl
      | cons unit rest =>
          by_cases hdigit : isDigit unit = true
          · simp only [digits?, hdigit, if_true, ih]
            cases digits? count rest with
            | none => rfl
            | some found =>
                obtain ⟨value, others⟩ := found
                cases hmore : digits? second others with
                | none => simp [hmore]
                | some more => simp [hmore, pow_add]; ring
          · simp [digits?, hdigit]

namespace WrittenTime

/-- The fields of a date with dashes behind a year of four digits. -/
inductive Dashed (source : Text) : Nat → Nat → Nat → Text → Prop
  | read {year month day : Nat} {months days rest : Text}
      (hyear : digits? 4 source = some (year, dash :: months))
      (hmonth : digits? 2 months = some (month, dash :: days))
      (hday : digits? 2 days = some (day, rest)) :
      Dashed source year month day rest

theorem exists_dashed {source : Text} {written : Int × Int × Int}
    (hwritten : writtenDate? source = some written) :
    ∃ year month day rest, Dashed source year month day rest ∧
      written = ((year : Int), (month : Int), (day : Int)) := by
  have hdash {rest others : Text}
      (hdropped : rest.dropPrefix? (text "-") = some others) :
      rest = dash :: others := by
    obtain ⟨first, hfirst, hrest⟩ := List.dropPrefix?_eq_some_iff.mp hdropped
    rw [hfirst, eq_of_beq hrest]
    rfl
  unfold writtenDate? at hwritten
  simp only [Option.bind_eq_bind, Option.bind_eq_some_iff, Prod.exists]
    at hwritten
  obtain ⟨year, afterYear, hyear, months, hmonths, month, afterMonth, hmonth,
    days, hdays, day, rest, hday, hfields⟩ := hwritten
  rw [hdash hmonths] at hyear
  rw [hdash hdays] at hmonth
  exact ⟨year, month, day, rest, .read hyear hmonth hday,
    (Option.some.inj hfields).symm⟩

theorem isDigit_head {count value : Nat} {source rest : Text}
    (hdigits : digits? (count + 1) source = some (value, rest)) :
    ∃ first others, source = first :: others ∧ isDigit first = true := by
  cases source with
  | nil => cases hdigits
  | cons first others =>
      refine ⟨first, others, rfl, ?_⟩
      by_contra hfirst
      simp [digits?, hfirst] at hdigits

/-- Behind a digit there is no sign. -/
theorem year?_of_digits? {count value : Nat} {source rest : Text}
    (hdigits : digits? (count + 1) source = some (value, rest)) (more : Nat) :
    year? more source =
      (digits? more source).map fun (value, rest) => ((value : Int), rest) := by
  obtain ⟨first, others, rfl, hfirst⟩ := isDigit_head hdigits
  have hplus : first ≠ plus := by
    rintro rfl
    cases hfirst
  have hdash : first ≠ dash := by
    rintro rfl
    cases hfirst
  rw [year?, if_neg hplus, if_neg hdash]

/-- A year of more digits does not end at the first dash. -/
theorem Dashed.scanWith_eq_none {source rest : Text} {year month day : Nat}
    (hdashed : Dashed source year month day rest) (count : Nat) :
    scanWith (4 + (count + 1)) source = none := by
  cases hdashed with
  | read hyear hmonth hday =>
      have hnone (rest : Text) : digits? (count + 1) (dash :: rest) = none := by
        have hdash : isDigit dash = false := by decide
        simp [digits?, hdash]
      have hdigits : digits? (4 + (count + 1)) source = none := by
        rw [digits?_add, hyear]
        simp [hnone]
      unfold scanWith
      rw [year?_of_digits? hyear, hdigits]
      rfl

theorem skip_self (unit : UInt16) (rest : Text) :
    skip unit (unit :: rest) = rest := if_pos rfl

theorem Dashed.scan_eq {source rest : Text} {year month day : Nat}
    (hdashed : Dashed source year month day rest) :
    scan source = time? year month day rest := by
  have hsix : scanWith 6 source = none := hdashed.scanWith_eq_none 1
  have hfive : scanWith 5 source = none := hdashed.scanWith_eq_none 0
  unfold scan
  rw [hsix, hfive, Option.none_or, Option.none_or]
  cases hdashed with
  | read hyear hmonth hday =>
      unfold scanWith
      rw [year?_of_digits? hyear, hyear]
      simp only [Option.map_some, Option.bind_eq_bind, Option.bind_some,
        skip_self, hmonth, hday]

theorem date_of_time? {year : Int} {month day : Nat} {source : Text}
    {written : WrittenTime} (htime : time? year month day source = some written) :
    written.date = ⟨year, month, day⟩ := by
  unfold time? at htime
  split at htime
  · rw [← Option.some.inj htime]
    rfl
  · split at htime
    · simp only [Option.bind_eq_bind, Option.bind_eq_some_iff, Prod.exists]
        at htime
      obtain ⟨hour, rest, -, htime⟩ := htime
      split at htime
      · obtain ⟨offset, -, hwritten⟩ := Option.map_eq_some_iff.mp htime
        rw [← hwritten]
        rfl
      · split at htime
        · obtain ⟨offset, -, hwritten⟩ := Option.map_eq_some_iff.mp htime
          rw [← hwritten]
          rfl
        · obtain ⟨offset, -, hwritten⟩ := Option.map_eq_some_iff.mp htime
          rw [← hwritten]
          rfl
    · cases htime

/-- The date the parser compares with is the one that was read. -/
theorem writtenDate?_of_scan {source : Text} {written : WrittenTime}
    (hscan : scan source = some written) :
    writtenDate? source = none ∨
      writtenDate? source = some (fieldsOf written.date) := by
  cases hwritten : writtenDate? source with
  | none => exact .inl rfl
  | some fields =>
      obtain ⟨year, month, day, rest, hdashed, hfields⟩ :=
        exists_dashed hwritten
      rw [hdashed.scan_eq] at hscan
      rw [date_of_time? hscan, hfields]
      exact .inr rfl

/-! ## The day that is shown -/

variable {clock : LocalClock} {written : WrittenTime} {instant : DateTime}

theorem shown_of_instant (hinstant : written.instant clock = some instant) :
    instant.shown clock = written.shown + written.shift clock := by
  unfold WrittenTime.instant at hinstant
  unfold shift
  split at hinstant
  · next offset hoffset =>
      dsimp only at hinstant
      split at hinstant
      · rw [← Option.some.inj hinstant]
        simp only [DateTime.shown, if_true]
        omega
      · cases hinstant
  · next hoffset =>
      split at hinstant
      · cases hinstant
      · dsimp only at hinstant
        split at hinstant
        · rw [← Option.some.inj hinstant]
          simp only [DateTime.shown, Bool.false_eq_true, if_false]
          omega
        · cases hinstant

theorem days_of_valid (hvalid : written.date.Valid) :
    written.days = written.date.toDays := by
  have hpos : 1 ≤ written.month := hvalid.month_pos
  have hle : written.month ≤ 12 := hvalid.month_le
  have hday : 1 ≤ written.day := hvalid.day_pos
  have hyear : ((written.month : Int) - 1) / 12 = 0 := by omega
  have hmonth : (((written.month : Int) - 1) % 12).toNat = written.month - 1 := by
    omega
  unfold days Date.toDays Date.dayOfYear date
  dsimp only
  rw [hyear, hmonth, Int.add_zero]
  omega

/-- The date of an instant is the one that is written as long as that is one
and the clock shows that day. -/
theorem date_of_instant (hinstant : written.instant clock = some instant) :
    instant.date clock = written.date ↔
      written.date.Valid ∧ written.OnItsDay clock := by
  unfold DateTime.date
  rw [ofDays_eq_iff, shown_of_instant hinstant]
  apply and_congr_right
  intro hvalid
  rw [← days_of_valid hvalid]
  unfold OnItsDay WrittenTime.shown microsecondsPerDay
  omega

end WrittenTime

/-! ## Acceptance -/

section

variable {Version Date : Type} {runtime : Runtime Version Date}
  {clock : LocalClock} {fields : List (Text × Value)} {raw : Text}
  {instant : DateTime}

/-- Every field that is written lies in its range. -/
def InCalendar (source : Text) : Prop :=
  ∀ written, WrittenTime.scan source = some written → written.InRange

/-- The parser takes what is in the calendar, and takes it for its instant. -/
def ChecksPublication (runtime : Runtime Version DateTime)
    (fields : List (Text × Value)) (source : Text) (instant : DateTime) :
    Prop :=
  ((∃ found, parsePublishedAt runtime fields = .ok found) ↔
      InCalendar source) ∧
    ∀ found, parsePublishedAt runtime fields = .ok found →
      found = some instant

/-- Behind a year of four digits and dashes, a date is compared with the day
the clock shows; a date that is written otherwise is not compared. -/
def Comparable (clock : LocalClock) (source : Text) : Prop :=
  ∀ written, WrittenTime.scan source = some written →
    if (writtenDate? source).isSome then
      written.date.Valid → (written.TimeInRange ↔ written.OnItsDay clock)
    else written.InRange

theorem parsePublishedAt_dated
    (hraw : fieldText? (runtime.dated clock) fields "pub_date" = some raw)
    (hread : DateTime.tryParse clock (trim raw) = some instant) :
    ((∃ found, parsePublishedAt (runtime.dated clock) fields = .ok found) ↔
      (writtenDate? (trim raw)).all
        (· == (runtime.dated clock).dateFields instant) = true) ∧
    ∀ found, parsePublishedAt (runtime.dated clock) fields = .ok found →
      found = some instant := by
  have hdate : (runtime.dated clock).parseDate (trim raw) = some instant :=
    hread
  unfold parsePublishedAt
  simp only [hraw, hdate]
  split
  · next hall => simp [hall]
  · next hall => simp [hall, fail]

/-- The parser checks the dates that a clock reads as it was meant to exactly
where what it compares settles the time as well. -/
theorem checksPublication_iff
    (hraw : fieldText? (runtime.dated clock) fields "pub_date" = some raw)
    (hread : DateTime.tryParse clock (trim raw) = some instant) :
    ChecksPublication (runtime.dated clock) fields (trim raw) instant ↔
      Comparable clock (trim raw) := by
  obtain ⟨haccepts, hfound⟩ := parsePublishedAt_dated hraw hread
  unfold ChecksPublication InCalendar Comparable
  rw [haccepts, and_iff_left hfound]
  obtain ⟨written, hscan, hinstant⟩ := Option.bind_eq_some_iff.mp hread
  simp only [hscan, Option.some.injEq, forall_eq']
  rcases WrittenTime.writtenDate?_of_scan hscan with hnone | hsome
  · simp [hnone]
  · have hsame : (writtenDate? (trim raw)).all
        (· == (runtime.dated clock).dateFields instant) = true ↔
          written.date.Valid ∧ written.OnItsDay clock := by
      rw [← WrittenTime.date_of_instant hinstant, hsome, Option.all_some,
        beq_iff_eq, ← fieldsOf_eq_iff]
      exact eq_comm
    rw [hsame, hsome]
    simp only [Option.isSome_some, if_true, WrittenTime.InRange,
      and_congr_right_iff]
    exact forall_congr' fun _ => Iff.comm

end

/-! ## An offset over midnight -/

def published (source : Text) : List (Text × Value) :=
  [(text "pub_date", .string source)]

def utcClock : LocalClock := ⟨id, id⟩

theorem checksPublication_noon :
    ChecksPublication (releaseRuntime.dated utcClock)
      (published (text "2026-09-01T12:30:00Z"))
      (text "2026-09-01T12:30:00Z") ⟨1788265800000000, true⟩ := by
  have hscan : WrittenTime.scan (text "2026-09-01T12:30:00Z") =
      some ⟨2026, 9, 1, 12, 30, 0, 0, some 0⟩ := by decide
  have hraw : fieldText? (releaseRuntime.dated utcClock)
      (published (text "2026-09-01T12:30:00Z")) "pub_date" =
        some (text "2026-09-01T12:30:00Z") := by decide
  have hread : DateTime.tryParse utcClock
      (trim (text "2026-09-01T12:30:00Z")) =
        some ⟨1788265800000000, true⟩ := by decide
  have htrim : trim (text "2026-09-01T12:30:00Z") =
      text "2026-09-01T12:30:00Z" := by decide
  have hchecks := (checksPublication_iff hraw hread).mpr
  rw [htrim] at hchecks
  apply hchecks
  intro written hwritten
  obtain rfl := Option.some.inj (hscan.symm.trans hwritten)
  rw [if_pos (by decide)]
  intro _
  exact iff_of_true (by unfold WrittenTime.TimeInRange; decide)
    (by unfold WrittenTime.OnItsDay; decide)

/-- Half past midnight, two hours east of Greenwich, is in the calendar and is
refused. -/
theorem not_checksPublication_midnight :
    DateTime.tryParse utcClock (text "2024-01-01T00:30:00+02:00") =
        some ⟨1704061800000000, true⟩ ∧
      ¬ ChecksPublication (releaseRuntime.dated utcClock)
        (published (text "2024-01-01T00:30:00+02:00"))
        (text "2024-01-01T00:30:00+02:00") ⟨1704061800000000, true⟩ := by
  constructor
  · decide
  · rintro ⟨haccepts, -⟩
    have hscan : WrittenTime.scan (text "2024-01-01T00:30:00+02:00") =
        some ⟨2024, 1, 1, 0, 30, 0, 0, some 120⟩ := by decide
    have hrefused : (parsePublishedAt (releaseRuntime.dated utcClock)
        (published (text "2024-01-01T00:30:00+02:00"))).isOk = false := by
      decide
    have hcalendar : InCalendar (text "2024-01-01T00:30:00+02:00") := by
      intro written hwritten
      obtain rfl := Option.some.inj (hscan.symm.trans hwritten)
      exact ⟨by decide, by unfold WrittenTime.TimeInRange; decide⟩
    obtain ⟨found, hfound⟩ := haccepts.mpr hcalendar
    rw [hfound] at hrefused
    cases hrefused

end Dovetail.Updater
