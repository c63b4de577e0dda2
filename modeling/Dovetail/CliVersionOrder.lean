import Dovetail.CliSdkChannel
import Dovetail.PackageVersionOrder

/-!
# Versions between dots and semantic versions

`newerVersion` compares what stands between the dots, read as integers.  A
part that is none counts as zero, and so does the patch with a prerelease or
a build behind it; what is between later dots counts as further numbers.
-/

namespace Dovetail.Cli.Sdk

open CodeUnits PackageVersionOrder

/-! ## Numbers that are read -/

theorem digitValue?_of_isDigit {unit : UInt16} (hunit : isDigit unit = true) :
    digitValue? 10 unit = some (unit.toNat - 48) := by
  simp only [isDigit, Bool.and_eq_true, decide_eq_true_eq,
    UInt16.le_iff_toNat_le, UInt16.reduceToNat] at hunit
  have hsmall : unit.toNat - 48 < 10 := by omega
  simp [digitValue?, hunit.1, hunit.2, Option.filter, hsmall]

/-- What is read of a number that is behind another. -/
def accumulate (start : Nat) (source : Text) : Option Nat :=
  source.foldlM (fun value unit =>
    (digitValue? 10 unit).map fun digit => value * 10 + digit) start

theorem accumulate_flatMap_units {decoded : List Char}
    (hdigits : ∀ digit ∈ decoded, digit.isDigit = true) (start : Nat) :
    accumulate start (decoded.flatMap units) =
      some (Nat.ofDigitChars 10 decoded start) := by
  induction decoded generalizing start with
  | nil => rfl
  | cons digit rest ih =>
      have hrange := hdigits digit List.mem_cons_self
      simp only [Char.isDigit, Bool.and_eq_true, decide_eq_true_eq,
        ge_iff_le, UInt32.le_iff_toNat_le] at hrange
      change 48 ≤ digit.toNat ∧ digit.toNat ≤ 57 at hrange
      have hunits : units digit = [UInt16.ofNat digit.toNat] := by
        rw [units, if_pos (by omega)]
      have hcode : (UInt16.ofNat digit.toNat).toNat = digit.toNat := by
        rw [UInt16.toNat_ofNat']
        omega
      have hvalue : digitValue? 10 (UInt16.ofNat digit.toNat) =
          some (digit.toNat - 48) := by
        rw [digitValue?_of_isDigit, hcode]
        simp only [isDigit, Bool.and_eq_true, decide_eq_true_eq,
          UInt16.le_iff_toNat_le, UInt16.reduceToNat, hcode]
        exact hrange
      have hrest := ih (fun other hother =>
        hdigits other (List.mem_cons_of_mem _ hother))
        (start * 10 + (digit.toNat - 48))
      rw [List.flatMap_cons, hunits, Nat.ofDigitChars_cons]
      unfold accumulate at hrest ⊢
      rw [List.singleton_append, List.foldlM_cons, hvalue]
      simp only [Option.map_some, Option.bind_eq_bind, Option.bind_some]
      rw [hrest, Nat.mul_comm start]
      rfl

theorem accumulate_digits (value : Nat) :
    accumulate 0 (digits value) = some value := by
  rw [digits_eq_flatMap, accumulate_flatMap_units,
    Nat.ofDigitChars_ten_toDigits]
  intro digit hdigit
  exact Nat.isDigit_of_mem_toDigits (by decide) (by decide) hdigit

theorem isSpace_of_isDigit {unit : UInt16} (hunit : isDigit unit = true) :
    isSpace unit = false := by
  simp only [isDigit, Bool.and_eq_true, decide_eq_true_eq,
    UInt16.le_iff_toNat_le, UInt16.reduceToNat] at hunit
  simp only [isSpace, Bool.or_eq_false_iff, Bool.and_eq_false_iff,
    decide_eq_false_iff_not, beq_eq_false_iff_ne]
  omega

/-- A text that begins with a number is no number of base sixteen, where a
mark, a digit or nothing is behind its first digit. -/
theorem hexDigits?_digits_append (value : Nat) (rest : Text)
    (hrest : ∀ unit ∈ rest.head?, unit ≠ 120 ∧ unit ≠ 88) :
    hexDigits? (digits value ++ rest) = none := by
  have hdigit : ∀ unit ∈ digits value, unit ≠ 120 ∧ unit ≠ 88 := by
    intro unit hunit
    have hunit := isDigit_of_mem_digits hunit
    constructor
    · intro hsame
      rw [hsame] at hunit
      exact absurd hunit (by decide)
    · intro hsame
      rw [hsame] at hunit
      exact absurd hunit (by decide)
  have hsecond : ∀ first second others,
      digits value ++ rest = first :: second :: others →
        second ≠ 120 ∧ second ≠ 88 := by
    intro first second others hsplit
    cases hdigits : digits value with
    | nil => exact absurd hdigits (digits_ne_nil value)
    | cons unit more =>
        rw [hdigits, List.cons_append] at hsplit
        have hmore := (List.cons.inj hsplit).2
        cases more with
        | nil => exact hrest second (by simp_all)
        | cons next more =>
            have hnext := (List.cons.inj hmore).1
            rw [← hnext]
            exact hdigit next (by simp [hdigits])
  unfold hexDigits?
  split
  · next mark others hsplit =>
      have hmark := hsecond _ _ _ hsplit
      simp [hmark.1, hmark.2]
  · rfl

theorem head?_digits_append (value : Nat) (rest : Text) :
    ∃ unit, (digits value ++ rest).head? = some unit ∧
      isDigit unit = true := by
  cases hdigits : digits value with
  | nil => exact absurd hdigits (digits_ne_nil value)
  | cons unit more =>
      have hunit : unit ∈ digits value := by simp [hdigits]
      exact ⟨unit, rfl, isDigit_of_mem_digits hunit⟩

/-- A text that begins with a digit is read without a sign. -/
theorem intTryParse_of_trim {source trimmed : Text} {unit : UInt16}
    (htrim : trim source = trimmed) (hhead : trimmed.head? = some unit)
    (hunit : isDigit unit = true) (hplain : hexDigits? trimmed = none) :
    intTryParse source =
      ((magnitude? 10 trimmed).map fun (number : Nat) => (number : Int)).filter
        fun value => -2 ^ 63 ≤ value && value < 2 ^ 63 := by
  have hsigns : unit ≠ 45 ∧ unit ≠ 43 := by
    constructor
    · intro hsame
      rw [hsame] at hunit
      exact absurd hunit (by decide)
    · intro hsame
      rw [hsame] at hunit
      exact absurd hunit (by decide)
  unfold intTryParse
  simp only [htrim, hhead, Option.some.injEq, hsigns.1, hsigns.2, or_self,
    if_false, hplain, one_mul]
  cases magnitude? 10 trimmed <;> rfl

theorem intTryParse_digits {value : Nat} (hvalue : value < 2 ^ 63) :
    intTryParse (digits value) = some (value : Int) := by
  have htrim : trim (digits value) = digits value :=
    trim_eq_self fun unit hunit =>
      isSpace_of_isDigit (isDigit_of_mem_digits hunit)
  have hplain := hexDigits?_digits_append value [] (by simp)
  rcases head?_digits_append value [] with ⟨unit, hhead, hunit⟩
  rw [List.append_nil] at hplain hhead
  have hmagnitude : magnitude? 10 (digits value) = some value := by
    have hne : (digits value).isEmpty = false := by
      simp [digits_ne_nil value]
    rw [magnitude?, hne]
    exact accumulate_digits value
  rw [intTryParse_of_trim htrim hhead hunit hplain, hmagnitude]
  simp only [Option.map_some, Option.filter]
  rw [if_pos]
  simp only [Bool.and_eq_true, decide_eq_true_eq]
  omega

/-- A hyphen or a plus behind a number makes it none. -/
theorem intTryParse_marked (value : Nat) {mark : UInt16}
    (hmark : mark = 45 ∨ mark = 43) (rest : Text) :
    intTryParse (digits value ++ mark :: rest) = none := by
  have hkept : digits value ++ [mark] <+: trimRight
      (digits value ++ mark :: rest) := by
    apply (isPrefix_trimRight_iff _).mpr
    · exact ⟨rest, by simp⟩
    · rcases hmark with rfl | rfl <;> decide
  rcases hkept with ⟨more, hmore⟩
  rw [List.append_assoc, List.singleton_append] at hmore
  rcases head?_digits_append value (mark :: more) with ⟨unit, hhead, hunit⟩
  have htrim : trim (digits value ++ mark :: rest) =
      digits value ++ mark :: more := by
    rw [trim, ← hmore, trimLeft]
    cases hsource : digits value ++ mark :: more with
    | nil => rfl
    | cons first others =>
        rw [hsource] at hhead
        cases hhead
        rw [List.dropWhile_cons_of_neg]
        simp [isSpace_of_isDigit hunit]
  have hplain := hexDigits?_digits_append value (mark :: more) (by
    rcases hmark with rfl | rfl <;> simp)
  have hmagnitude : magnitude? 10 (digits value ++ mark :: more) = none := by
    have hbad : digitValue? 10 mark = none := by
      rcases hmark with rfl | rfl <;> decide
    have hnumber := accumulate_digits value
    unfold accumulate at hnumber
    have hne : (digits value ++ mark :: more).isEmpty = false := by simp
    rw [magnitude?, hne, List.foldlM_append, hnumber]
    simp [hbad]
  rw [intTryParse_of_trim htrim hhead hunit hplain, hmagnitude]
  rfl

/-- What does not separate stays in front of the first piece. -/
theorem exists_splitOnP_append {stops : UInt16 → Bool} {before : Text}
    (hbefore : ∀ unit ∈ before, stops unit = false) (after : Text) :
    ∃ more others, (before ++ after).splitOnP stops =
      (before ++ more) :: others := by
  induction before with
  | nil =>
      rcases List.exists_cons_of_ne_nil (List.splitOnP_ne_nil stops after) with
        ⟨first, others, hsplit⟩
      exact ⟨first, others, hsplit⟩
  | cons unit rest ih =>
      rcases ih (fun other hother =>
        hbefore other (List.mem_cons_of_mem _ hother)) with
        ⟨more, others, hsplit⟩
      refine ⟨more, others, ?_⟩
      rw [List.cons_append, List.splitOnP_cons_eq_if_modifyHead, hsplit,
        hbefore unit List.mem_cons_self]
      rfl

/-! ## Semantic versions -/

def isIdentifierUnit (unit : UInt16) : Bool :=
  isDigit unit || isLetter unit || unit == 45

/-- A version that `Version.parse` reads: its numbers are integers of the
language. -/
structure SemanticVersion where
  major : Nat
  minor : Nat
  patch : Nat
  preRelease : List Text
  build : List Text
  small : major < 2 ^ 63 ∧ minor < 2 ^ 63 ∧ patch < 2 ^ 63
  identifiers : ∀ identifier ∈ preRelease ++ build, identifier ≠ [] ∧
    ∀ unit ∈ identifier, isIdentifierUnit unit = true

namespace SemanticVersion

variable (version : SemanticVersion)

def tag : Text :=
  (if version.preRelease = [] then []
    else 45 :: [dot].intercalate version.preRelease) ++
  (if version.build = [] then []
    else 43 :: [dot].intercalate version.build)

def toText : Text :=
  digits version.major ++ dot :: (digits version.minor ++ dot ::
    (digits version.patch ++ version.tag))

def numbers : List Nat := [version.major, version.minor, version.patch]

/-- There is a prerelease or a build. -/
def Tagged : Prop := version.preRelease ≠ [] ∨ version.build ≠ []

instance : Decidable version.Tagged := inferInstanceAs (Decidable (_ ∨ _))

theorem tag_eq_nil (hplain : ¬ version.Tagged) : version.tag = [] := by
  simp only [Tagged, not_or, ne_eq, not_not] at hplain
  simp [tag, hplain.1, hplain.2]

theorem tag_eq_cons (htagged : version.Tagged) :
    ∃ mark rest, version.tag = mark :: rest ∧ (mark = 45 ∨ mark = 43) := by
  by_cases hpre : version.preRelease = []
  · have hbuild : version.build ≠ [] := by
      rcases htagged with hother | hbuild
      · exact absurd hpre hother
      · exact hbuild
    exact ⟨43, _, by rw [tag, if_pos hpre, if_neg hbuild, List.nil_append],
      Or.inr rfl⟩
  · exact ⟨45, _, by rw [tag, if_neg hpre, List.cons_append],
      Or.inl rfl⟩

theorem dot_not_mem_digits (value : Nat) :
    ∀ unit ∈ digits value, (unit == dot) = false := by
  intro unit hunit
  rw [beq_eq_false_iff_ne]
  intro hdot
  have hdigit := isDigit_of_mem_digits hunit
  rw [hdot] at hdigit
  exact absurd hdigit (by decide)

theorem splitOnP_toText :
    version.toText.splitOnP (· == dot) =
      digits version.major :: digits version.minor ::
        (digits version.patch ++ version.tag).splitOnP (· == dot) := by
  unfold toText
  rw [List.splitOnP_append_cons_of_forall_mem (dot_not_mem_digits _) _
      (by simp),
    List.splitOnP_append_cons_of_forall_mem (dot_not_mem_digits _) _
      (by simp)]

theorem segment_zero : segment version.toText 0 = version.major := by
  unfold segment
  rw [splitOnP_toText]
  simp [intTryParse_digits version.small.1]

theorem segment_one : segment version.toText 1 = version.minor := by
  unfold segment
  rw [splitOnP_toText]
  simp [intTryParse_digits version.small.2.1]

/-- The patch is read where nothing is behind it. -/
theorem segment_two :
    segment version.toText 2 =
      if version.Tagged then 0 else (version.patch : Int) := by
  unfold segment
  rw [splitOnP_toText]
  by_cases htagged : version.Tagged
  · rcases version.tag_eq_cons htagged with ⟨mark, rest, htag, hmark⟩
    have hbefore : ∀ unit ∈ digits version.patch ++ [mark],
        (unit == dot) = false := by
      intro unit hunit
      rcases List.mem_append.mp hunit with hdigit | hlast
      · exact dot_not_mem_digits _ unit hdigit
      · rw [List.mem_singleton.mp hlast]
        rcases hmark with rfl | rfl <;> decide
    rcases exists_splitOnP_append hbefore rest with ⟨more, others, hsplit⟩
    rw [List.append_assoc, List.append_assoc, List.singleton_append,
      List.singleton_append, ← htag] at hsplit
    simp [hsplit, htagged, intTryParse_marked version.patch hmark more]
  · rw [version.tag_eq_nil htagged, List.append_nil,
      List.splitOnP_eq_singleton (dot_not_mem_digits _)]
    simp [htagged, intTryParse_digits version.small.2.2]

/-- Nothing is read behind a patch that nothing is behind. -/
theorem segment_of_not_tagged (hplain : ¬ version.Tagged) {i : Nat}
    (hi : 3 ≤ i) : segment version.toText i = 0 := by
  apply segment_eq_zero
  unfold segmentCount
  rw [splitOnP_toText, version.tag_eq_nil hplain, List.append_nil,
    List.splitOnP_eq_singleton (dot_not_mem_digits _)]
  exact hi

end SemanticVersion

/-! ## The newest of a list -/

/-- `versions.reduce(newerVersion)` of `SdkLocator`. -/
def newest : List Text → Option Text
  | [] => none
  | first :: rest => some (rest.foldl newerVersion first)

theorem Precedes.trans {a b c : Text} (hfirst : Precedes a b)
    (hsecond : Precedes b c) : Precedes a c := by
  rcases hfirst with ⟨i, hbelow, hless⟩
  rcases hsecond with ⟨k, hunder, hlower⟩
  rcases lt_trichotomy i k with hik | rfl | hki
  · refine ⟨i, ?_, ?_⟩
    · intro j hj
      rw [hbelow j hj, hunder j (by omega)]
    · rw [← hunder i hik]
      exact hless
  · refine ⟨i, ?_, lt_trans hless hlower⟩
    intro j hj
    rw [hbelow j hj, hunder j hj]
  · refine ⟨k, ?_, ?_⟩
    · intro j hj
      rw [hbelow j (by omega), hunder j hj]
    · rw [hbelow k hki]
      exact hlower

theorem Precedes.irrefl {a : Text} : ¬ Precedes a a := by
  intro hprecedes
  rcases hprecedes with ⟨i, -, hless⟩
  exact lt_irrefl _ hless

theorem newerVersion_eq_left_or_right (a b : Text) :
    newerVersion a b = a ∨ newerVersion a b = b := by
  unfold newerVersion
  split
  · split
    · exact Or.inl rfl
    · exact Or.inr rfl
  · exact Or.inl rfl

/-- Nothing precedes the other way round what is kept. -/
theorem newerVersion_of_not_precedes {a b : Text}
    (hnot : ¬ Precedes a b) : newerVersion a b = a := by
  rcases newerVersion_eq_left_or_right a b with hleft | hright
  · exact hleft
  · rcases newerVersion_eq_right_iff.mp hright with rfl | hprecedes
    · exact hright
    · exact absurd hprecedes hnot

theorem newerVersion_cases (a b : Text) :
    newerVersion a b = a ∧ ¬ Precedes a b ∨
      newerVersion a b = b ∧ Precedes a b := by
  by_cases hprecedes : Precedes a b
  · exact Or.inr
      ⟨newerVersion_eq_right_iff.mpr (Or.inr hprecedes), hprecedes⟩
  · exact Or.inl ⟨newerVersion_of_not_precedes hprecedes, hprecedes⟩

/-- What is kept in the end is what was kept before, or ahead of it. -/
theorem foldl_newerVersion (first : Text) (rest : List Text) :
    rest.foldl newerVersion first = first ∨
      Precedes first (rest.foldl newerVersion first) := by
  induction rest generalizing first with
  | nil => exact Or.inl rfl
  | cons next rest ih =>
      rw [List.foldl_cons]
      rcases newerVersion_cases first next with
        ⟨hkept, -⟩ | ⟨hkept, hprecedes⟩
      · rw [hkept]
        exact ih first
      · rw [hkept]
        rcases ih next with hsame | hlater
        · rw [hsame]
          exact Or.inr hprecedes
        · exact Or.inr (hprecedes.trans hlater)

/-- What is kept of a list is one of it and precedes none of it. -/
theorem foldl_newest (first : Text) (rest : List Text) :
    rest.foldl newerVersion first ∈ first :: rest ∧
      ∀ other ∈ first :: rest,
        ¬ Precedes (rest.foldl newerVersion first) other := by
  induction rest generalizing first with
  | nil =>
      constructor
      · exact List.mem_cons_self
      · intro other hother
        rw [List.mem_singleton.mp hother]
        exact Precedes.irrefl
  | cons next rest ih =>
      have hahead : ∀ kept other, ¬ Precedes kept other →
          ¬ Precedes (rest.foldl newerVersion kept) other := by
        intro kept other hnot hprecedes
        rcases foldl_newerVersion kept rest with hsame | hlater
        · rw [hsame] at hprecedes
          exact hnot hprecedes
        · exact hnot (hlater.trans hprecedes)
      rw [List.foldl_cons]
      rcases newerVersion_cases first next with
        ⟨hkept, hnot⟩ | ⟨hkept, hprecedes⟩
      · rw [hkept]
        rcases ih first with ⟨hmem, hlast⟩
        constructor
        · rcases List.mem_cons.mp hmem with hfirst | hrest
          · rw [hfirst]
            exact List.mem_cons_self
          · exact List.mem_cons_of_mem _ (List.mem_cons_of_mem _ hrest)
        · intro other hother
          rcases List.mem_cons.mp hother with rfl | hother
          · exact hlast _ List.mem_cons_self
          · rcases List.mem_cons.mp hother with rfl | hrest
            · exact hahead first _ hnot
            · exact hlast _ (List.mem_cons_of_mem _ hrest)
      · rw [hkept]
        rcases ih next with ⟨hmem, hlast⟩
        constructor
        · exact List.mem_cons_of_mem _ hmem
        · intro other hother
          rcases List.mem_cons.mp hother with rfl | hrest
          · apply hahead next
            intro hback
            exact Precedes.irrefl (hprecedes.trans hback)
          · exact hlast _ hrest

/-! ## The order of the updater -/

/-- The order of `pub_semver` on the texts of versions: no version is before
itself, and where the numbers differ they decide, the major one first. -/
structure PubSemver where
  less : Text → Text → Prop
  irrefl : ∀ version, ¬ less version version
  numbers : ∀ a b : SemanticVersion, a.numbers ≠ b.numbers →
    (less a.toText b.toText ↔ a.numbers < b.numbers)

/-- The newer of two is found either way round, and the newest of a list in
whatever order it is. -/
structure AgreesOn (order : PubSemver) (versions : List SemanticVersion) :
    Prop where
  pairs : ∀ a ∈ versions, ∀ b ∈ versions,
    (order.less a.toText b.toText →
      newerVersion a.toText b.toText = b.toText) ∧
    (order.less b.toText a.toText →
      newerVersion a.toText b.toText = a.toText)
  picks : ∀ installed, installed ≠ [] → installed ⊆ versions →
    ∃ found ∈ installed,
      newest (installed.map SemanticVersion.toText) = some found.toText ∧
        ∀ other ∈ installed, ¬ order.less found.toText other.toText

/-- Behind the third number the first that differs is the smaller one. -/
def PrecedesBehind (a b : Text) : Prop :=
  ∃ i, 3 ≤ i ∧ (∀ j, 3 ≤ j → j < i → segment a j = segment b j) ∧
    segment a i < segment b i

/-- Where the older of two versions is read as the older: the major or the
minor number tells them apart, or there are no prereleases and builds, or
the newer has none and its patch is not zero, or both patches are read as
zero and what follows is read in that order. -/
def ReadsOlder (a b : SemanticVersion) : Prop :=
  (a.major ≠ b.major ∨ a.minor ≠ b.minor) ∨
  (¬ a.Tagged ∧ ¬ b.Tagged) ∨
  (¬ b.Tagged ∧ 0 < b.patch) ∨
  ((a.Tagged ∨ a.patch = 0) ∧ (b.Tagged ∨ b.patch = 0) ∧
    PrecedesBehind a.toText b.toText)

/-- Where two numbers are the same, the third decides or what is behind. -/
theorem precedes_iff_of_two {a b : Text} (hzero : segment a 0 = segment b 0)
    (hone : segment a 1 = segment b 1) :
    Precedes a b ↔ segment a 2 < segment b 2 ∨
      segment a 2 = segment b 2 ∧ PrecedesBehind a b := by
  have hbelow : ∀ j < 2, segment a j = segment b j := by
    intro j hj
    have hcases : j = 0 ∨ j = 1 := by omega
    rcases hcases with rfl | rfl
    · exact hzero
    · exact hone
  constructor
  · intro hprecedes
    rcases hprecedes with ⟨i, hsame, hless⟩
    rcases lt_trichotomy i 2 with hi | rfl | hi
    · exact absurd (hbelow i hi) (ne_of_lt hless)
    · exact Or.inl hless
    · exact Or.inr ⟨hsame 2 hi, i, hi, fun j _ hj => hsame j hj, hless⟩
  · intro hdecides
    rcases hdecides with hless | ⟨htwo, i, hi, hsame, hless⟩
    · exact ⟨2, hbelow, hless⟩
    · refine ⟨i, ?_, hless⟩
      intro j hj
      rcases lt_trichotomy j 2 with hsmall | rfl | hlarge
      · exact hbelow j hsmall
      · exact htwo
      · exact hsame j hlarge hj

section

variable (order : PubSemver) {a b : SemanticVersion}
  (hless : order.less a.toText b.toText)
include hless

/-- A greater major or minor number is read. -/
theorem precedes_of_major_or_minor
    (hdiffer : a.major ≠ b.major ∨ a.minor ≠ b.minor) :
    Precedes a.toText b.toText := by
  have hnumbers : a.numbers ≠ b.numbers := by
    intro hsame
    simp only [SemanticVersion.numbers, List.cons.injEq] at hsame
    rcases hdiffer with hmajor | hminor
    · exact hmajor hsame.1
    · exact hminor hsame.2.1
  have hlower := (order.numbers a b hnumbers).mp hless
  simp only [SemanticVersion.numbers, List.cons_lt_cons_iff] at hlower
  rcases hlower with hmajor | ⟨hmajor, hminor | ⟨hminor, -⟩⟩
  · refine ⟨0, ?_, ?_⟩
    · intro j hj
      omega
    · rw [a.segment_zero, b.segment_zero]
      exact Int.ofNat_lt.mpr hmajor
  · refine ⟨1, ?_, ?_⟩
    · intro j hj
      have hzero : j = 0 := by omega
      rw [hzero, a.segment_zero, b.segment_zero, hmajor]
    · rw [a.segment_one, b.segment_one]
      exact Int.ofNat_lt.mpr hminor
  · rcases hdiffer with hother | hother
    · exact absurd hmajor hother
    · exact absurd hminor hother

/-- Of two versions without prerelease and build the patch is read. -/
theorem patch_lt_of_plain (hmajor : a.major = b.major)
    (hminor : a.minor = b.minor) (hfirst : ¬ a.Tagged)
    (hsecond : ¬ b.Tagged) : a.patch < b.patch := by
  by_cases hpatch : a.patch = b.patch
  · have htexts : a.toText = b.toText := by
      simp only [SemanticVersion.toText, a.tag_eq_nil hfirst,
        b.tag_eq_nil hsecond, hmajor, hminor, hpatch]
    rw [htexts] at hless
    exact absurd hless (order.irrefl _)
  · have hnumbers : a.numbers ≠ b.numbers := by
      intro hsame
      simp only [SemanticVersion.numbers, List.cons.injEq] at hsame
      exact hpatch hsame.2.2.1
    have hlower := (order.numbers a b hnumbers).mp hless
    simpa [SemanticVersion.numbers, List.cons_lt_cons_iff, hmajor,
      hminor] using hlower

theorem precedes_iff_readsOlder :
    Precedes a.toText b.toText ↔ ReadsOlder a b := by
  unfold ReadsOlder
  by_cases hdiffer : a.major ≠ b.major ∨ a.minor ≠ b.minor
  · simp only [precedes_of_major_or_minor order hless hdiffer, hdiffer,
      true_or]
  · simp only [hdiffer, false_or]
    simp only [not_or, ne_eq, not_not] at hdiffer
    have hzero : segment a.toText 0 = segment b.toText 0 := by
      rw [a.segment_zero, b.segment_zero, hdiffer.1]
    have hone : segment a.toText 1 = segment b.toText 1 := by
      rw [a.segment_one, b.segment_one, hdiffer.2]
    rw [precedes_iff_of_two hzero hone, a.segment_two, b.segment_two]
    by_cases hfirst : a.Tagged
    · by_cases hsecond : b.Tagged
      · simp [hfirst, hsecond]
      · simp only [hfirst, hsecond, if_true, if_false]
        have hnone : (0 : Int) = b.patch ↔ b.patch = 0 := by omega
        simp [hnone]
    · by_cases hsecond : b.Tagged
      · simp only [hfirst, hsecond, if_true, if_false]
        have hnegative : ¬ (a.patch : Int) < 0 := by omega
        simp [hnegative]
      · have hpatch := patch_lt_of_plain order hless hdiffer.1 hdiffer.2
          hfirst hsecond
        have hlower : (a.patch : Int) < b.patch := by omega
        simp [hfirst, hsecond, hlower]

end

/-- The two orders agree on versions just if of any two of them the older is
read as the older. -/
theorem agreesOn_iff (order : PubSemver) (versions : List SemanticVersion) :
    AgreesOn order versions ↔
      ∀ a ∈ versions, ∀ b ∈ versions,
        order.less a.toText b.toText → ReadsOlder a b := by
  constructor
  · intro hagrees a ha b hb hless
    rw [← precedes_iff_readsOlder order hless]
    have hnewer := (hagrees.pairs a ha b hb).1 hless
    rcases newerVersion_eq_right_iff.mp hnewer with hsame | hprecedes
    · rw [hsame] at hless
      exact absurd hless (order.irrefl _)
    · exact hprecedes
  · intro hreads
    have hprecedes : ∀ a ∈ versions, ∀ b ∈ versions,
        order.less a.toText b.toText → Precedes a.toText b.toText := by
      intro a ha b hb hless
      exact (precedes_iff_readsOlder order hless).mpr (hreads a ha b hb hless)
    constructor
    · intro a ha b hb
      constructor
      · intro hless
        exact newerVersion_eq_right_iff.mpr
          (Or.inr (hprecedes a ha b hb hless))
      · intro hless
        apply newerVersion_of_not_precedes
        intro hback
        exact Precedes.irrefl (hback.trans (hprecedes b hb a ha hless))
    · intro installed hne hsub
      rcases List.exists_cons_of_ne_nil hne with ⟨first, rest, rfl⟩
      have hfold := foldl_newest first.toText
        (rest.map SemanticVersion.toText)
      rw [← List.map_cons] at hfold
      rcases List.mem_map.mp hfold.1 with ⟨found, hfound, htext⟩
      refine ⟨found, hfound, ?_, ?_⟩
      · rw [List.map_cons, newest, htext]
      · intro other hother hless
        rw [← htext] at hfold
        exact hfold.2 _ (List.mem_map_of_mem hother)
          (hprecedes found (hsub hfound) other (hsub hother) hless)

/-! ## A release candidate and its release -/

/-- What stands before a prerelease and a build. -/
def core (version : Text) : Text :=
  version.takeWhile fun unit => unit != 45 && unit != 43

def numbersOf (version : Text) : List Int :=
  [segment (core version) 0, segment (core version) 1,
    segment (core version) 2]

/-- Numbers come before words. -/
def partOf (identifier : Text) : List Int :=
  match intTryParse identifier with
  | some number => [0, number]
  | none => 1 :: identifier.map fun unit => (unit.toNat : Int)

/-- The parts of the prerelease and those of the build. -/
def partsOf (version : Text) : List (List Int) × List (List Int) :=
  let behind := version.drop (core version).length
  let preRelease := behind.takeWhile (· != 43)
  let build := behind.dropWhile (· != 43)
  (if preRelease = [] then []
    else (preRelease.tail.splitOnP (· == dot)).map partOf,
    if build = [] then []
    else (build.tail.splitOnP (· == dot)).map partOf)

/-- The documented order: a prerelease is before its release, a build behind
the same version without one. -/
def semanticLess (a b : Text) : Prop :=
  numbersOf a < numbersOf b ∨ numbersOf a = numbersOf b ∧
    ((partsOf a).1 ≠ [] ∧ (partsOf b).1 = [] ∨
      ((partsOf a).1 ≠ [] ↔ (partsOf b).1 ≠ []) ∧
        ((partsOf a).1 < (partsOf b).1 ∨ (partsOf a).1 = (partsOf b).1 ∧
          (partsOf a).2 < (partsOf b).2))

instance (a b : Text) : Decidable (semanticLess a b) :=
  inferInstanceAs (Decidable (_ ∨ _))

def SemanticVersion.plain (version : SemanticVersion) : SemanticVersion :=
  { version with
    preRelease := []
    build := []
    identifiers := by simp }

theorem core_toText (version : SemanticVersion) :
    core version.toText = version.plain.toText := by
  have hdigits : ∀ value, ∀ unit ∈ digits value,
      (unit != 45 && unit != 43) = true := by
    intro value unit hunit
    have hdigit := isDigit_of_mem_digits hunit
    simp only [Bool.and_eq_true, bne_iff_ne]
    constructor
    · intro hsame
      rw [hsame] at hdigit
      exact absurd hdigit (by decide)
    · intro hsame
      rw [hsame] at hdigit
      exact absurd hdigit (by decide)
  have htag : version.tag.takeWhile (fun unit => unit != 45 && unit != 43) =
      [] := by
    by_cases htagged : version.Tagged
    · rcases version.tag_eq_cons htagged with ⟨mark, rest, hcons, hmark⟩
      rw [hcons]
      rcases hmark with rfl | rfl <;> rfl
    · rw [version.tag_eq_nil htagged]
      rfl
  have hdot : ∀ rest : Text,
      (dot :: rest).takeWhile (fun unit => unit != 45 && unit != 43) =
        dot :: rest.takeWhile fun unit => unit != 45 && unit != 43 :=
    fun _ => rfl
  have hplain : version.plain.tag = [] := rfl
  unfold core SemanticVersion.toText
  rw [List.takeWhile_append_of_pos (hdigits _),
    hdot, List.takeWhile_append_of_pos (hdigits _), hdot,
    List.takeWhile_append_of_pos (hdigits _), htag, hplain]
  rfl

theorem numbersOf_toText (version : SemanticVersion) :
    numbersOf version.toText = version.numbers.map Int.ofNat := by
  have hplain : ¬ version.plain.Tagged := by
    simp [SemanticVersion.Tagged, SemanticVersion.plain]
  unfold numbersOf
  rw [core_toText, version.plain.segment_zero, version.plain.segment_one,
    version.plain.segment_two, if_neg hplain]
  rfl

def documented : PubSemver where
  less := semanticLess
  irrefl version := by
    unfold semanticLess
    simp
  numbers a b hnumbers := by
    have hdiffer : numbersOf a.toText ≠ numbersOf b.toText := by
      intro hsame
      rw [numbersOf_toText, numbersOf_toText] at hsame
      exact hnumbers (List.map_injective_iff.mpr Int.ofNat_injective hsame)
    have hlower : numbersOf a.toText < numbersOf b.toText ↔
        a.numbers < b.numbers := by
      rw [numbersOf_toText, numbersOf_toText]
      simp [SemanticVersion.numbers, List.cons_lt_cons_iff]
    unfold semanticLess
    rw [hlower]
    simp [hdiffer]

def released : SemanticVersion where
  major := 1
  minor := 0
  patch := 0
  preRelease := []
  build := []
  small := by decide
  identifiers := by simp

def candidate : SemanticVersion where
  major := 1
  minor := 0
  patch := 0
  preRelease := [text "rc", text "1"]
  build := []
  small := by decide
  identifiers := by decide

/-- The release candidate is taken for the newer one, in either order. -/
theorem not_agreesOn_candidate :
    ¬ AgreesOn documented [candidate, released] ∧
      candidate.toText = text "1.0.0-rc.1" ∧
      newest [candidate.toText, released.toText] = some candidate.toText ∧
      newest [released.toText, candidate.toText] = some candidate.toText := by
  have hnewest : newest [candidate.toText, released.toText] =
      some candidate.toText := by decide
  refine ⟨?_, by decide, hnewest, by decide⟩
  intro hagrees
  have hless : documented.less candidate.toText released.toText := by
    unfold documented
    decide
  have hnewer := (hagrees.pairs candidate (by simp) released (by simp)).1
    hless
  simp only [newest, List.foldl_cons, List.foldl_nil, Option.some.injEq]
    at hnewest
  rw [hnewest] at hnewer
  exact absurd hnewer (by decide)

end Dovetail.Cli.Sdk
