import Dovetail.CodeUnits

/-!
# How package managers compare versions

The orders of `dpkg`, of `rpm` and of Windows Installer on the versions that
a package states.  Each reads a text as runs of digits and of other
characters and differs from the others in what it makes of the runs; on
numbers with dots between them all three come to the order of the numbers.
-/

namespace PackageVersionOrder

open CodeUnits

/-! ## Runs -/

section

variable {Item Kind : Type} [DecidableEq Kind] {kind : Item → Kind}

/-- The longest stretches of items of one kind. -/
def runs (kind : Item → Kind) : List Item → List (Kind × List Item)
  | [] => []
  | item :: rest =>
      match runs kind rest with
      | [] => [(kind item, [item])]
      | (other, run) :: more =>
          if kind item = other then (other, item :: run) :: more
          else (kind item, [item]) :: (other, run) :: more

theorem head?_runs (items : List Item) :
    (runs kind items).head?.map Prod.fst = items.head?.map kind := by
  cases items with
  | nil => rfl
  | cons item rest =>
      simp only [runs]
      cases hruns : runs kind rest with
      | nil => rfl
      | cons run more =>
          by_cases hsame : kind item = run.1
          · simp [hsame]
          · simp [hsame]

theorem runs_cons_of_ne {item : Item} {rest : List Item}
    (hrest : rest.head?.map kind ≠ some (kind item)) :
    runs kind (item :: rest) = (kind item, [item]) :: runs kind rest := by
  have hhead : (runs kind rest).head?.map Prod.fst = rest.head?.map kind :=
    head?_runs rest
  simp only [runs]
  cases hruns : runs kind rest with
  | nil => rfl
  | cons run more =>
      have hother : kind item ≠ run.1 := by
        intro hsame
        rw [hruns] at hhead
        apply hrest
        rw [← hhead, hsame]
        rfl
      simp [hother]

/-- Items of one kind with another kind after them are a run. -/
theorem runs_append {run rest : List Item} {same : Kind}
    (hsome : run ≠ []) (hrun : ∀ item ∈ run, kind item = same)
    (hrest : rest.head?.map kind ≠ some same) :
    runs kind (run ++ rest) = (same, run) :: runs kind rest := by
  induction run with
  | nil => exact absurd rfl hsome
  | cons item run ih =>
      have hitem : kind item = same := hrun item List.mem_cons_self
      cases run with
      | nil =>
          rw [List.singleton_append, runs_cons_of_ne (hitem ▸ hrest), hitem]
      | cons next run =>
          have hmore := ih (by simp)
            fun other hother => hrun other (List.mem_cons_of_mem item hother)
          rw [List.cons_append, runs, hmore]
          simp [hitem]

end

/-! ## Comparing with a padding -/

section

variable {Item : Type} {order : Item → Item → Ordering} {pad : Item}

/-- The first difference decides; the shorter list is padded. -/
def comparePadded (order : Item → Item → Ordering) (pad : Item)
    (left right : List Item) : Ordering :=
  (List.zipWithAll (fun a b => order (a.getD pad) (b.getD pad))
    left right).foldr Ordering.then .eq

@[simp] theorem comparePadded_nil_nil :
    comparePadded order pad [] [] = .eq := rfl

@[simp] theorem comparePadded_cons_cons (a b : Item)
    (left right : List Item) :
    comparePadded order pad (a :: left) (b :: right) =
      (order a b).then (comparePadded order pad left right) := rfl

@[simp] theorem comparePadded_nil_cons (b : Item) (right : List Item) :
    comparePadded order pad [] (b :: right) =
      (order pad b).then (comparePadded order pad [] right) := by
  cases right <;> rfl

@[simp] theorem comparePadded_cons_nil (a : Item) (left : List Item) :
    comparePadded order pad (a :: left) [] =
      (order a pad).then (comparePadded order pad left []) := by
  cases left <;> rfl

/-- Nothing is padded between lists of one length. -/
theorem comparePadded_eq_compareLex {left right : List Item}
    (hlength : left.length = right.length) :
    comparePadded order pad left right =
      List.compareLex order left right := by
  induction left generalizing right with
  | nil =>
      cases right with
      | nil => rfl
      | cons b right => simp at hlength
  | cons a left ih =>
      cases right with
      | nil => simp at hlength
      | cons b right =>
          rw [comparePadded_cons_cons, ih (by simpa using hlength),
            List.compareLex_cons_cons]

end

/-! ## Numbers -/

def isDigit (unit : UInt16) : Bool := 48 ≤ unit && unit ≤ 57

def isLetter (unit : UInt16) : Bool :=
  (65 ≤ unit && unit ≤ 90) || (97 ≤ unit && unit ≤ 122)

def number (digits : Text) : Nat := Nat.ofDigitChars 10 (runes digits) 0

def digits (value : Nat) : Text := text (toString value)

theorem digits_eq_flatMap (value : Nat) :
    digits value = (Nat.toDigits 10 value).flatMap units :=
  text_toString_eq value

theorem number_digits (value : Nat) : number (digits value) = value := by
  rw [number, digits_eq_flatMap, runes_flatMap_units,
    Nat.ofDigitChars_ten_toDigits]

theorem isDigit_of_mem_digits {value : Nat} {unit : UInt16}
    (hunit : unit ∈ digits value) : isDigit unit = true := by
  simpa [isDigit] using digit_of_mem_text_toString hunit

theorem digits_ne_nil (value : Nat) : digits value ≠ [] := by
  intro hnil
  have hempty : (Nat.toDigits 10 value).flatMap units = [] :=
    (digits_eq_flatMap value).symm.trans hnil
  cases hdigits : Nat.toDigits 10 value with
  | nil => exact absurd hdigits Nat.toDigits_ne_nil
  | cons digit more =>
      rw [hdigits, List.flatMap_cons, List.append_eq_nil_iff] at hempty
      unfold units at hempty
      split at hempty <;> simp at hempty

/-- Numbers with dots between them. -/
def dotted (first : Nat) (rest : List Nat) : Text :=
  digits first ++ rest.flatMap fun value => 46 :: digits value

section

variable {Kind : Type} [DecidableEq Kind] {kind : UInt16 → Kind}
  {digit dot : Kind}

theorem runs_dots (hdigit : ∀ unit, isDigit unit = true → kind unit = digit)
    (hdot : kind 46 = dot) (hother : dot ≠ digit) (rest : List Nat) :
    runs kind (rest.flatMap fun value => 46 :: digits value) =
      rest.flatMap fun value => [(dot, [46]), (digit, digits value)] := by
  induction rest with
  | nil => rfl
  | cons value rest ih =>
      have hnumber : ∀ unit ∈ digits value, kind unit = digit :=
        fun unit hunit => hdigit unit (isDigit_of_mem_digits hunit)
      have hnext : (rest.flatMap fun value =>
          (46 : UInt16) :: digits value).head?.map kind ≠ some digit := by
        cases rest with
        | nil => simp
        | cons next rest => simpa [hdot] using hother
      have hbefore : (digits value ++ rest.flatMap fun value =>
          (46 : UInt16) :: digits value).head?.map kind ≠
            some (kind 46) := by
        cases hdigits : digits value with
        | nil => exact absurd hdigits (digits_ne_nil value)
        | cons unit more =>
            have hunit : kind unit = digit :=
              hnumber unit (hdigits ▸ List.mem_cons_self)
            simpa [hunit, hdot] using hother.symm
      rw [List.flatMap_cons, List.flatMap_cons, List.cons_append,
        runs_cons_of_ne hbefore,
        runs_append (digits_ne_nil value) hnumber hnext, ih, hdot]
      rfl

theorem runs_dotted
    (hdigit : ∀ unit, isDigit unit = true → kind unit = digit)
    (hdot : kind 46 = dot) (hother : dot ≠ digit) (first : Nat)
    (rest : List Nat) :
    runs kind (dotted first rest) = (digit, digits first) ::
      rest.flatMap fun value => [(dot, [46]), (digit, digits value)] := by
  have hnumber : ∀ unit ∈ digits first, kind unit = digit :=
    fun unit hunit => hdigit unit (isDigit_of_mem_digits hunit)
  have hnext : (rest.flatMap fun value =>
      (46 : UInt16) :: digits value).head?.map kind ≠ some digit := by
    cases rest with
    | nil => simp
    | cons next rest => simpa [hdot] using hother
  rw [dotted, runs_append (digits_ne_nil first) hnumber hnext,
    runs_dots hdigit hdot hother]

end

theorem mem_dotted {first : Nat} {rest : List Nat} {unit : UInt16}
    (hunit : unit ∈ dotted first rest) :
    isDigit unit = true ∨ unit = 46 := by
  rcases List.mem_append.mp hunit with hfirst | hrest
  · exact Or.inl (isDigit_of_mem_digits hfirst)
  · rcases List.mem_flatMap.mp hrest with ⟨value, -, hvalue⟩
    rcases List.mem_cons.mp hvalue with hdot | hdigit
    · exact Or.inr hdot
    · exact Or.inl (isDigit_of_mem_digits hdigit)

/-! ## Debian -/

namespace Debian

/-- A tilde is below the end of a part, a letter below every other unit. -/
def weight (unit : UInt16) : Int :=
  if isLetter unit then unit.toNat
  else if unit = 126 then -1
  else unit.toNat + 256

/-- Runs in pairs: what is not a number, and the number behind it. -/
def pairs : List (Bool × Text) → List (List Int × Nat)
  | [] => []
  | (true, run) :: rest => ([], number run) :: pairs rest
  | (false, others) :: (true, run) :: rest =>
      (others.map weight, number run) :: pairs rest
  | (false, others) :: rest => (others.map weight, 0) :: pairs rest

def comparePair (left right : List Int × Nat) : Ordering :=
  (comparePadded compare 0 left.1 right.1).then (compare left.2 right.2)

/-- `verrevcmp` of `dpkg`. -/
def compareRevision (left right : Text) : Ordering :=
  comparePadded comparePair ([], 0)
    (pairs (runs isDigit left)) (pairs (runs isDigit right))

structure Version where
  epoch : Nat
  upstream : Text
  revision : Text

/-- The epoch ends at the first colon, the revision starts behind the last
hyphen; there need be neither. -/
def Version.of (source : Text) : Version :=
  let epoch :=
    if 58 ∈ source then number (source.takeWhile (· ≠ 58)) else 0
  let rest :=
    if 58 ∈ source then (source.dropWhile (· ≠ 58)).drop 1 else source
  if 45 ∈ rest then
    { epoch
      upstream := (rest.rdropWhile (· ≠ 45)).dropLast
      revision := rest.rtakeWhile (· ≠ 45) }
  else { epoch, upstream := rest, revision := [] }

def compareVersions (left right : Text) : Ordering :=
  let a := Version.of left
  let b := Version.of right
  ((compare a.epoch b.epoch).then
    (compareRevision a.upstream b.upstream)).then
      (compareRevision a.revision b.revision)

theorem pairs_dots (rest : List Nat) :
    pairs (rest.flatMap fun value => [(false, [46]), (true, digits value)]) =
      rest.map fun value => ([weight 46], value) := by
  induction rest with
  | nil => rfl
  | cons value rest ih =>
      simp only [List.flatMap_cons, List.cons_append, List.nil_append, pairs,
        number_digits, ih, List.map_cons, List.map_nil]

theorem pairs_runs_dotted (first : Nat) (rest : List Nat) :
    pairs (runs isDigit (dotted first rest)) =
      ([], first) :: rest.map fun value => ([weight 46], value) := by
  have hdot : isDigit 46 = false := by decide
  rw [runs_dotted (fun _ hunit => hunit) hdot Bool.false_ne_true, pairs,
    number_digits, pairs_dots]

/-- More numbers come after fewer, a dot being above the end. -/
theorem comparePadded_dots (left right : List Nat) :
    comparePadded comparePair ([], 0)
        (left.map fun value => ([weight 46], value))
        (right.map fun value => ([weight 46], value)) =
      List.compareLex compare left right := by
  induction left generalizing right with
  | nil =>
      cases right with
      | nil => rfl
      | cons n right =>
          rw [List.compareLex_nil_cons, List.map_nil, List.map_cons,
            comparePadded_nil_cons]
          rfl
  | cons m left ih =>
      cases right with
      | nil =>
          rw [List.compareLex_cons_nil, List.map_nil, List.map_cons,
            comparePadded_cons_nil]
          rfl
      | cons n right =>
          rw [List.map_cons, List.map_cons, comparePadded_cons_cons, ih,
            List.compareLex_cons_cons]
          rfl

theorem of_dotted (first : Nat) (rest : List Nat) :
    Version.of (dotted first rest) = ⟨0, dotted first rest, []⟩ := by
  have hcolon : (58 : UInt16) ∉ dotted first rest := by
    intro hunit
    rcases mem_dotted hunit with hdigit | hdot
    · simp [isDigit] at hdigit
    · simp at hdot
  have hhyphen : (45 : UInt16) ∉ dotted first rest := by
    intro hunit
    rcases mem_dotted hunit with hdigit | hdot
    · simp [isDigit] at hdigit
    · simp at hdot
  simp only [Version.of, if_neg hcolon, if_neg hhyphen]

theorem compareVersions_dotted (m n : Nat) (ms ns : List Nat) :
    compareVersions (dotted m ms) (dotted n ns) =
      compare (m :: ms) (n :: ns) := by
  have hupstream : compareRevision (dotted m ms) (dotted n ns) =
      compare (m :: ms) (n :: ns) := by
    rw [compareRevision, pairs_runs_dotted, pairs_runs_dotted,
      comparePadded_cons_cons, comparePadded_dots,
      List.compare_eq_compareLex, List.compareLex_cons_cons]
    rfl
  have hepoch : compare (0 : Nat) 0 = .eq := rfl
  have hrevision : compareRevision [] [] = .eq := rfl
  simp only [compareVersions, of_dotted, hupstream, hepoch, hrevision,
    Ordering.then_eq, Ordering.eq_then]

end Debian

/-! ## rpm -/

namespace Rpm

inductive Kind where
  | digit
  | letter
  | tilde
  | caret
  | separator
  deriving DecidableEq

def kindOf (unit : UInt16) : Kind :=
  if isDigit unit then .digit
  else if isLetter unit then .letter
  else if unit = 126 then .tilde
  else if unit = 94 then .caret
  else .separator

inductive Segment where
  | number (value : Nat)
  | word (letters : Text)
  | tilde
  | caret

/-- Separators are skipped, whatever they are. -/
def segmentsOf : Kind × Text → List Segment
  | (.digit, run) => [.number (number run)]
  | (.letter, letters) => [.word letters]
  | (.tilde, run) => run.map fun _ => .tilde
  | (.caret, run) => run.map fun _ => .caret
  | (.separator, _) => []

def segments (source : Text) : List Segment :=
  (runs kindOf source).flatMap segmentsOf

/-- A tilde is below everything, also the end; a caret is above the end and
below the rest; a number is above a word. -/
def compareSegments : List Segment → List Segment → Ordering
  | .tilde :: left, .tilde :: right => compareSegments left right
  | .tilde :: _, _ => .lt
  | _, .tilde :: _ => .gt
  | [], [] => .eq
  | [], _ :: _ => .lt
  | _ :: _, [] => .gt
  | .caret :: left, .caret :: right => compareSegments left right
  | .caret :: _, _ => .lt
  | _, .caret :: _ => .gt
  | .number m :: left, .number n :: right =>
      (compare m n).then (compareSegments left right)
  | .word a :: left, .word b :: right =>
      (compare a b).then (compareSegments left right)
  | .number _ :: _, .word _ :: _ => .gt
  | .word _ :: _, .number _ :: _ => .lt

/-- `rpmvercmp`. -/
def compareText (left right : Text) : Ordering :=
  compareSegments (segments left) (segments right)

/-- A version and a release, of no epoch. -/
def compareVersions (left right : Text × Text) : Ordering :=
  (compareText left.1 right.1).then (compareText left.2 right.2)

theorem kindOf_eq_digit {unit : UInt16} (hunit : isDigit unit = true) :
    kindOf unit = .digit := by
  unfold kindOf
  rw [if_pos hunit]

theorem segments_dotted (first : Nat) (rest : List Nat) :
    segments (dotted first rest) = (first :: rest).map .number := by
  have hdot : kindOf 46 = .separator := by decide
  have hother : Kind.separator ≠ .digit := by decide
  rw [segments, runs_dotted (fun _ => kindOf_eq_digit) hdot hother,
    List.flatMap_cons, List.flatMap_assoc, List.map_cons]
  simp only [segmentsOf, number_digits, List.flatMap_cons, List.flatMap_nil,
    List.append_nil, List.nil_append, List.singleton_append]
  rw [List.map_eq_flatMap]

theorem compareSegments_numbers (left right : List Nat) :
    compareSegments (left.map .number) (right.map .number) =
      List.compareLex compare left right := by
  induction left generalizing right with
  | nil =>
      cases right with
      | nil => rfl
      | cons n right => rfl
  | cons m left ih =>
      cases right with
      | nil => rfl
      | cons n right =>
          rw [List.map_cons, List.map_cons, compareSegments, ih,
            List.compareLex_cons_cons]

theorem compareText_dotted (m n : Nat) (ms ns : List Nat) :
    compareText (dotted m ms) (dotted n ns) =
      compare (m :: ms) (n :: ns) := by
  rw [compareText, segments_dotted, segments_dotted,
    compareSegments_numbers, List.compare_eq_compareLex]

theorem compareSegments_self (source : List Segment) :
    compareSegments source source = .eq := by
  induction source with
  | nil => rfl
  | cons segment source ih =>
      cases segment with
      | number value => simp [compareSegments, ih]
      | word letters => simp [compareSegments, ih]
      | tilde => simpa [compareSegments] using ih
      | caret => simpa [compareSegments] using ih

/-- Of one release, versions compare as their texts do. -/
theorem compareVersions_of_release (left right release : Text) :
    compareVersions (left, release) (right, release) =
      compareText left right := by
  simp only [compareVersions, compareText, compareSegments_self,
    Ordering.then_eq]

end Rpm

/-! ## Windows Installer -/

namespace WindowsInstaller

/-- The fields that are compared; a fourth is ignored. -/
def fields (source : Text) : List Nat :=
  ((runs isDigit source).filterMap fun (isNumber, run) =>
    if isNumber then some (number run) else none).take 3

def compareVersions (left right : Text) : Ordering :=
  comparePadded compare 0 (fields left) (fields right)

theorem fields_dotted (first : Nat) (rest : List Nat) :
    fields (dotted first rest) = (first :: rest).take 3 := by
  have hrest : (rest.flatMap fun value =>
      [(false, [(46 : UInt16)]), (true, digits value)]).filterMap
        (fun (isNumber, run) =>
          if isNumber then some (number run) else none) = rest := by
    induction rest with
    | nil => rfl
    | cons value rest ih =>
        simp only [List.flatMap_cons, List.cons_append, List.nil_append,
          List.filterMap_cons, number_digits, ih]
        rfl
  have hdot : isDigit 46 = false := by decide
  rw [fields, runs_dotted (fun _ hunit => hunit) hdot Bool.false_ne_true,
    List.filterMap_cons]
  simp only [number_digits, if_true]
  exact congrArg (fun values => (first :: values).take 3) hrest

/-- As many numbers as are compared, and not fewer on one side. -/
theorem compareVersions_dotted {m n : Nat} {ms ns : List Nat}
    (hlength : ms.length = ns.length) (hfields : ms.length ≤ 2) :
    compareVersions (dotted m ms) (dotted n ns) =
      compare (m :: ms) (n :: ns) := by
  have hleft : (m :: ms).take 3 = m :: ms :=
    List.take_of_length_le (Nat.succ_le_succ hfields)
  have hright : (n :: ns).take 3 = n :: ns :=
    List.take_of_length_le (Nat.succ_le_succ (hlength ▸ hfields))
  rw [compareVersions, fields_dotted, fields_dotted, hleft, hright,
    comparePadded_eq_compareLex (by simpa using hlength),
    List.compare_eq_compareLex]

end WindowsInstaller

end PackageVersionOrder
