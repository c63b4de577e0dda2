import Dovetail.CodeUnits
import Dovetail.FallibleSteps

/-!
# Control files of fields in paragraphs

A paragraph is a list of fields, each a name, a colon and a value; a line that
starts with a blank goes on with the value before it, unless the field is a
simple one, and lines of nothing but blanks stand between paragraphs.  Fields
that are written one after the other are read as they were written exactly
where every value keeps to its own lines.
-/

namespace Deb822

open CodeUnits

structure Field where
  name : Text
  value : Text
  deriving DecidableEq

def colon : UInt16 := 58

def isBlank (unit : UInt16) : Bool := unit == 32 || unit == 9

def startsBlank (line : Text) : Bool := line.head?.any isBlank

/-- A line between paragraphs. -/
def separates (line : Text) : Bool := line.all isBlank

/-- A line that goes on with a value. -/
def continues (line : Text) : Bool := startsBlank line && !separates line

/-- Printable and no blank, no colon, and no mark of a comment in front. -/
def isName (name : Text) : Bool :=
  name ≠ [] ∧ (∀ unit ∈ name, 33 ≤ unit ∧ unit ≤ 126 ∧ unit ≠ colon) ∧
    name.head? ≠ some 35 ∧ name.head? ≠ some 45

/-- Names are the same in either case. -/
def foldCase (name : Text) : Text :=
  name.map fun unit => if 65 ≤ unit ∧ unit ≤ 90 then unit + 32 else unit

/-! ## Reading -/

def nameOf (line : Text) : Option (Text × Text) :=
  let name := line.takeWhile (· ≠ colon)
  if isName name ∧ name ≠ line then some (name, line.drop (name.length + 1))
  else none

def valueOf (first : Text) (more : List Text) : Text :=
  ([newline].intercalate (first.dropWhile isBlank :: more)).rdropWhile isBlank

section

variable (isSimple : Text → Bool)

/-- The fields of the lines, and the lines at the front that go on with what
was before. -/
def fieldsOf : List Text → Option (List Text × List Field)
  | [] => some ([], [])
  | line :: rest => do
      let (more, fields) ← fieldsOf rest
      if startsBlank line then return (line :: more, fields)
      else
        let (name, first) ← nameOf line
        if isSimple name ∧ more ≠ [] then none
        else
          return ([], {
            name
            value := valueOf first more } :: fields)

def paragraphOf (lines : List Text) : Option (List Field) := do
  let (more, fields) ← fieldsOf isSimple lines
  if more = [] ∧ (fields.map fun field => foldCase field.name).Nodup then
    return fields
  else none

def read (source : Text) : Option (List (List Field)) :=
  (((source.splitOn newline).splitOnP separates).filter (· ≠ [])).mapM
    (paragraphOf isSimple)

end

/-! ## Writing -/

def Field.line (field : Field) : Text :=
  field.name ++ colon :: 32 :: field.value

def print (fields : List Field) : Text :=
  fields.flatMap fun field => field.line ++ [newline]

/-- A value that keeps to its own lines. -/
structure Folded (value : Text) : Prop where
  first : startsBlank value = false
  last : value.getLast?.any isBlank = false
  more : ∀ line ∈ (value.splitOn newline).tail, continues line = true

/-- What a field of the name can hold. -/
structure Holds (isSimple : Text → Bool) (field : Field) : Prop
    extends Folded field.value where
  simple : isSimple field.name = true → newline ∉ field.value

instance (value : Text) : Decidable (Folded value) :=
  decidable_of_iff (startsBlank value = false ∧
      value.getLast?.any isBlank = false ∧
      ((value.splitOn newline).tail.all fun line => continues line) = true) (by
    rw [List.all_eq_true]
    exact ⟨fun h => ⟨h.1, h.2.1, h.2.2⟩, fun h => ⟨h.first, h.last, h.more⟩⟩)

/-- A value that needs no second line. -/
def IsLine (value : Text) : Prop := Folded value ∧ newline ∉ value

instance (value : Text) : Decidable (IsLine value) :=
  inferInstanceAs (Decidable (_ ∧ _))

theorem holds_iff {isSimple : Text → Bool} {field : Field} :
    Holds isSimple field ↔ Folded field.value ∧
      (isSimple field.name = true → newline ∉ field.value) := by
  constructor
  · intro hholds
    exact ⟨hholds.toFolded, hholds.simple⟩
  · intro hholds
    exact ⟨hholds.1, hholds.2⟩

theorem holds_iff_isLine {isSimple : Text → Bool} {name value : Text}
    (hname : isSimple name = true) :
    Holds isSimple { name, value } ↔ IsLine value := by
  rw [holds_iff, IsLine]
  simp [hname]

theorem holds_iff_folded {isSimple : Text → Bool} {name value : Text}
    (hname : isSimple name = false) :
    Holds isSimple { name, value } ↔ Folded value := by
  rw [holds_iff]
  simp [hname]

/-! ## What is written is read -/

section

variable {isSimple : Text → Bool} {field : Field} {fields : List Field}

theorem isName_spec {name : Text} (hname : isName name = true) :
    name ≠ [] ∧ (∀ unit ∈ name, 33 ≤ unit ∧ unit ≤ 126 ∧ unit ≠ colon) := by
  have hspec := of_decide_eq_true hname
  exact ⟨hspec.1, hspec.2.1⟩

theorem isBlank_of_isName {name : Text} (hname : isName name = true)
    {unit : UInt16} (hunit : unit ∈ name) :
    isBlank unit = false ∧ unit ≠ newline := by
  have hbound := ((isName_spec hname).2 unit hunit).1
  rw [UInt16.le_iff_toNat_le] at hbound
  have hsmall : ∀ other : UInt16, other.toNat < 33 → unit ≠ other := by
    intro other hother hsame
    rw [hsame] at hbound
    exact absurd hbound (Nat.not_le.mpr hother)
  constructor
  · have hspace := hsmall 32 (by decide)
    have htab := hsmall 9 (by decide)
    simp [isBlank, hspace, htab]
  · exact hsmall newline (by decide)

theorem splitOn_append_of_not_mem {source : Text} (hsource : newline ∉ source)
    (rest : Text) :
    (source ++ rest).splitOn newline =
      (rest.splitOn newline).modifyHead (source ++ ·) := by
  induction source with
  | nil =>
      rw [List.nil_append]
      cases rest.splitOn newline <;> rfl
  | cons unit source ih =>
      rcases List.ne_and_not_mem_of_not_mem_cons hsource with ⟨hunit, hrest⟩
      rw [List.cons_append, List.splitOn_cons_eq_if_modifyHead, if_neg,
        ih hrest]
      · cases rest.splitOn newline <;> rfl
      · simpa using hunit.symm

/-- The lines of a field. -/
def linesOf (field : Field) : List Text := field.line.splitOn newline

theorem linesOf_eq (hname : isName field.name = true) :
    ∃ first more, field.value.splitOn newline = first :: more ∧
      linesOf field = (field.name ++ colon :: 32 :: first) :: more := by
  rcases List.exists_cons_of_ne_nil (List.splitOn_ne_nil newline field.value)
    with ⟨first, more, hsplit⟩
  refine ⟨first, more, hsplit, ?_⟩
  have hfree : newline ∉ field.name ++ [colon, 32] := by
    intro hmem
    rcases List.mem_append.mp hmem with hname' | hmark
    · exact (isBlank_of_isName hname hname').2 rfl
    · revert hmark
      decide
  have hline : field.line = (field.name ++ [colon, 32]) ++ field.value := by
    simp [Field.line]
  rw [linesOf, hline, splitOn_append_of_not_mem hfree, hsplit,
    List.modifyHead_cons]
  simp

theorem splitOn_print (fields : List Field) :
    (print fields).splitOn newline = fields.flatMap linesOf ++ [[]] := by
  induction fields with
  | nil => rfl
  | cons field fields ih =>
      have hprint : print (field :: fields) =
          field.line ++ newline :: print fields := by
        simp [print]
      rw [hprint, List.splitOn_append_cons_self, ih]
      simp [linesOf]

theorem startsBlank_of_continues {line : Text}
    (hline : continues line = true) : startsBlank line = true :=
  (Bool.and_eq_true_iff.mp hline).1

theorem not_separates_of_continues {line : Text}
    (hline : continues line = true) : separates line = false := by
  have hnot := (Bool.and_eq_true_iff.mp hline).2
  simpa using hnot

theorem dropWhile_eq_self {p : UInt16 → Bool} {source : Text}
    (hfirst : source.head?.any p = false) : source.dropWhile p = source := by
  cases source with
  | nil => rfl
  | cons unit source =>
      have hunit : p unit = false := hfirst
      rw [List.dropWhile_cons_of_neg (by simp [hunit])]

theorem rdropWhile_eq_self {p : UInt16 → Bool} {source : Text}
    (hlast : source.getLast?.any p = false) : source.rdropWhile p = source := by
  rw [List.rdropWhile, dropWhile_eq_self, List.reverse_reverse]
  rw [List.head?_reverse]
  exact hlast

/-- The lines of a value that keeps to them are read as the value. -/
theorem valueOf_eq (hholds : Holds isSimple field) {first : Text}
    {more : List Text} (hsplit : field.value.splitOn newline = first :: more) :
    valueOf (32 :: first) more = field.value := by
  have hjoin : [newline].intercalate (first :: more) = field.value := by
    rw [← hsplit, List.intercalate_splitOn]
  have hfirst : (32 :: first).dropWhile isBlank = first := by
    rw [List.dropWhile_cons_of_pos (by decide)]
    apply dropWhile_eq_self
    cases hunits : first with
    | nil => rfl
    | cons unit rest =>
        have hvalue : field.value.head? = some unit := by
          rw [← hjoin, hunits]
          cases more with
          | nil => simp
          | cons line lines => simp [List.intercalate_cons_cons]
        have hblank := hholds.first
        unfold startsBlank at hblank
        rw [hvalue] at hblank
        exact hblank
  unfold valueOf
  rw [hfirst, hjoin]
  exact rdropWhile_eq_self hholds.last

theorem nameOf_append {name first : Text} (hname : isName name = true) :
    nameOf (name ++ colon :: first) = some (name, first) := by
  have htake : (name ++ colon :: first).takeWhile (· ≠ colon) = name := by
    rw [List.takeWhile_append_of_pos, List.takeWhile_cons_of_neg,
      List.append_nil]
    · simp
    · intro unit hunit
      simpa using ((isName_spec hname).2 unit hunit).2.2
  have hdrop : (name ++ colon :: first).drop (name.length + 1) = first := by
    rw [← List.drop_drop, List.drop_left]
    rfl
  unfold nameOf
  simp only [htake, hdrop, hname, true_and]
  rw [if_pos]
  intro hsame
  have hlength := congrArg List.length hsame
  simp at hlength

theorem fieldsOf_append {more : List Text}
    (hmore : ∀ line ∈ more, startsBlank line = true) {rest : List Text}
    (hrest : fieldsOf isSimple rest = some ([], fields)) :
    fieldsOf isSimple (more ++ rest) = some (more, fields) := by
  induction more with
  | nil => exact hrest
  | cons line more ih =>
      rw [List.forall_mem_cons] at hmore
      rw [List.cons_append, fieldsOf, ih hmore.2]
      simp [hmore.1]

theorem fieldsOf_linesOf (hname : isName field.name = true)
    (hholds : Holds isSimple field) {rest : List Text}
    (hrest : fieldsOf isSimple rest = some ([], fields)) :
    fieldsOf isSimple (linesOf field ++ rest) =
      some ([], field :: fields) := by
  rcases linesOf_eq hname with ⟨first, more, hsplit, hlines⟩
  have hmore : ∀ line ∈ more, startsBlank line = true := by
    intro line hline
    apply startsBlank_of_continues
    apply hholds.more
    rw [hsplit]
    exact hline
  have hstart : startsBlank (field.name ++ colon :: 32 :: first) = false := by
    rcases List.exists_cons_of_ne_nil (isName_spec hname).1 with
      ⟨unit, others, hunits⟩
    rw [hunits]
    apply (isBlank_of_isName hname _).1
    rw [hunits]
    exact List.mem_cons_self
  have hsimple : ¬ (isSimple field.name = true ∧ more ≠ []) := by
    intro hboth
    apply hboth.2
    have hsingle : field.value.splitOn newline = [field.value] := by
      rw [List.splitOn_eq_splitOnP]
      apply List.splitOnP_eq_singleton
      intro unit hunit
      apply beq_eq_false_iff_ne.mpr
      intro hsame
      apply hholds.simple hboth.1
      rw [← hsame]
      exact hunit
    rw [hsplit] at hsingle
    exact (List.cons.inj hsingle).2
  rw [hlines, List.cons_append, fieldsOf, fieldsOf_append hmore hrest]
  simp only [Option.bind_eq_bind, Option.bind_some, hstart,
    Bool.false_eq_true, if_false, nameOf_append hname, if_neg hsimple,
    valueOf_eq hholds hsplit]
  rfl

theorem fieldsOf_print (hnames : ∀ field ∈ fields, isName field.name = true)
    (hholds : ∀ field ∈ fields, Holds isSimple field) :
    fieldsOf isSimple (fields.flatMap linesOf) = some ([], fields) := by
  induction fields with
  | nil => rfl
  | cons field fields ih =>
      rw [List.forall_mem_cons] at hnames hholds
      exact fieldsOf_linesOf hnames.1 hholds.1 (ih hnames.2 hholds.2)

theorem not_separates_linesOf (hname : isName field.name = true)
    (hholds : Holds isSimple field) :
    ∀ line ∈ linesOf field, separates line = false := by
  rcases linesOf_eq hname with ⟨first, more, hsplit, hlines⟩
  rw [hlines]
  intro line hline
  rcases List.mem_cons.mp hline with rfl | hmore
  · rcases List.exists_cons_of_ne_nil (isName_spec hname).1 with
      ⟨unit, others, hunits⟩
    have hunit : isBlank unit = false := by
      apply (isBlank_of_isName hname _).1
      rw [hunits]
      exact List.mem_cons_self
    simp [separates, hunits, hunit]
  · apply not_separates_of_continues
    apply hholds.more
    rw [hsplit]
    exact hmore

theorem read_print (hfilled : fields ≠ [])
    (hnames : ∀ field ∈ fields, isName field.name = true)
    (hdistinct : (fields.map fun field => foldCase field.name).Nodup)
    (hholds : ∀ field ∈ fields, Holds isSimple field) :
    read isSimple (print fields) = some [fields] := by
  have hlines : ∀ line ∈ fields.flatMap linesOf, separates line = false := by
    intro line hline
    rcases List.mem_flatMap.mp hline with ⟨field, hfield, hmem⟩
    exact not_separates_linesOf (hnames field hfield) (hholds field hfield) line
      hmem
  have hsome : fields.flatMap linesOf ≠ [] := by
    rcases List.exists_cons_of_ne_nil hfilled with ⟨field, rest, rfl⟩
    rw [List.flatMap_cons]
    apply List.append_ne_nil_of_left_ne_nil
    exact List.splitOn_ne_nil _ _
  have hparagraph : paragraphOf isSimple (fields.flatMap linesOf) =
      some fields := by
    unfold paragraphOf
    rw [fieldsOf_print hnames hholds]
    simp [hdistinct]
  unfold read
  rw [splitOn_print, List.splitOnP_append_cons_of_forall_mem hlines [] rfl]
  simp [hsome, hparagraph]

/-! ## What is read keeps to its lines -/

theorem rdropWhile_append {p : UInt16 → Bool} (before : Text) {last : Text}
    (hlast : last.all p = false) :
    (before ++ last).rdropWhile p = before ++ last.rdropWhile p := by
  have hsome : last.reverse.dropWhile p ≠ [] := by
    intro hnil
    rw [List.dropWhile_eq_nil_iff] at hnil
    have hall : last.all p = true := by
      apply List.all_eq_true.mpr
      intro unit hunit
      exact hnil unit (List.mem_reverse.mpr hunit)
    rw [hall] at hlast
    cases hlast
  unfold List.rdropWhile
  rw [List.reverse_append, List.dropWhile_append, if_neg]
  · rw [List.reverse_append, List.reverse_reverse]
  · simpa [List.isEmpty_iff] using hsome

theorem intercalate_concat (first : Text) (more : List Text) (last : Text) :
    [newline].intercalate (first :: (more ++ [last])) =
      [newline].intercalate (first :: more) ++ newline :: last := by
  induction more generalizing first with
  | nil => simp [List.intercalate_cons_cons]
  | cons line more ih =>
      rw [List.cons_append, List.intercalate_cons_cons, ih,
        List.intercalate_cons_cons]
      simp

theorem getLast?_rdropWhile (source : Text) :
    (source.rdropWhile isBlank).getLast?.any isBlank = false := by
  cases hlast : (source.rdropWhile isBlank).getLast? with
  | none => rfl
  | some unit =>
      have hne : source.rdropWhile isBlank ≠ [] := by
        intro hnil
        rw [hnil] at hlast
        cases hlast
      have hnot := List.rdropWhile_last_not isBlank source hne
      rw [List.getLast?_eq_some_getLast hne, Option.some.injEq] at hlast
      rw [← hlast]
      simpa using hnot

theorem startsBlank_rdropWhile {source : Text}
    (hsource : startsBlank source = false) :
    startsBlank (source.rdropWhile isBlank) = false := by
  rcases List.rdropWhile_prefix isBlank source with ⟨rest, hrest⟩
  cases hunits : source.rdropWhile isBlank with
  | nil => rfl
  | cons unit others =>
      rw [hunits] at hrest
      rw [← hrest] at hsource
      exact hsource

theorem startsBlank_intercalate (first : Text) (more : List Text) :
    startsBlank
      ([newline].intercalate (first.dropWhile isBlank :: more)) = false := by
  cases hunits : first.dropWhile isBlank with
  | nil =>
      cases more with
      | nil => rfl
      | cons line lines =>
          rw [List.intercalate_cons_cons]
          rfl
  | cons unit others =>
      have hunit : isBlank unit = false := by
        have hhead := List.head?_dropWhile_not isBlank first
        rw [hunits] at hhead
        simpa using hhead
      cases more with
      | nil => simpa [startsBlank] using hunit
      | cons line lines =>
          rw [List.intercalate_cons_cons]
          exact hunit

theorem continues_rdropWhile {line : Text} (hline : continues line = true) :
    continues (line.rdropWhile isBlank) = true := by
  have hnot := not_separates_of_continues hline
  have hstart := startsBlank_of_continues hline
  cases line with
  | nil => cases hstart
  | cons unit rest =>
      have hblank : isBlank unit = true := hstart
      have hrest : rest.all isBlank = false := by
        unfold separates at hnot
        rw [List.all_cons, hblank, Bool.true_and] at hnot
        exact hnot
      have hdrop : (unit :: rest).rdropWhile isBlank =
          unit :: rest.rdropWhile isBlank :=
        rdropWhile_append [unit] hrest
      have hstill : (rest.rdropWhile isBlank).all isBlank = false := by
        have hsplit : rest.rdropWhile isBlank ++ rest.rtakeWhile isBlank =
            rest := List.rdropWhile_append_rtakeWhile
        cases hall : (rest.rdropWhile isBlank).all isBlank with
        | false => rfl
        | true =>
            rw [← hsplit, List.all_append, hall, Bool.true_and] at hrest
            rw [List.all_eq_false] at hrest
            rcases hrest with ⟨other, hother, hnone⟩
            exact absurd (List.mem_rtakeWhile_imp hother) hnone
      rw [hdrop]
      simp [continues, startsBlank, separates, hblank, hstill]

/-- What is read of lines that go on keeps to its own lines. -/
theorem more_valueOf {first : Text} {more : List Text}
    (hfirst : newline ∉ first) (hfree : ∀ line ∈ more, newline ∉ line)
    (hmore : ∀ line ∈ more, continues line = true) :
    ∀ line ∈ ((valueOf first more).splitOn newline).tail,
      continues line = true := by
  have hstart : newline ∉ first.dropWhile isBlank := by
    intro hmem
    exact hfirst ((List.dropWhile_suffix isBlank).subset hmem)
  have hdropped : ∀ source : Text, newline ∉ source →
      newline ∉ source.rdropWhile isBlank := by
    intro source hsource hmem
    exact hsource ((List.rdropWhile_prefix isBlank source).subset hmem)
  cases more using List.reverseRecOn with
  | nil =>
      have hvalue : valueOf first [] =
          (first.dropWhile isBlank).rdropWhile isBlank := by
        simp [valueOf]
      have hsingle : (valueOf first []).splitOn newline =
          [valueOf first []] := by
        rw [hvalue, List.splitOn_eq_splitOnP]
        apply List.splitOnP_eq_singleton
        intro unit hunit
        apply beq_eq_false_iff_ne.mpr
        intro hsame
        apply hdropped _ hstart
        rw [← hsame]
        exact hunit
      rw [hsingle]
      intro line hline
      cases hline
  | append_singleton more last =>
      have hlast : continues last = true := hmore last (by simp)
      have hfilled := not_separates_of_continues hlast
      have hvalue : valueOf first (more ++ [last]) =
          [newline].intercalate (first.dropWhile isBlank ::
            (more ++ [last.rdropWhile isBlank])) := by
        have hjoin : ∀ line, [newline].intercalate
            (first.dropWhile isBlank :: more) ++ newline :: line =
              ([newline].intercalate (first.dropWhile isBlank :: more) ++
                [newline]) ++ line := by
          intro line
          simp
        unfold valueOf
        rw [intercalate_concat, intercalate_concat, hjoin last,
          rdropWhile_append _ hfilled, ← hjoin]
      have hlines : ∀ line ∈ first.dropWhile isBlank ::
          (more ++ [last.rdropWhile isBlank]), newline ∉ line := by
        intro line hline
        rcases List.mem_cons.mp hline with rfl | hline
        · exact hstart
        · rcases List.mem_append.mp hline with hmem | hmem
          · exact hfree line (List.mem_append_left _ hmem)
          · rw [List.mem_singleton.mp hmem]
            exact hdropped last (hfree last (by simp))
      rw [hvalue, List.splitOn_intercalate newline hlines (by simp),
        List.tail_cons]
      intro line hline
      rcases List.mem_append.mp hline with hmem | hmem
      · exact hmore line (List.mem_append_left _ hmem)
      · rw [List.mem_singleton.mp hmem]
        exact continues_rdropWhile hlast

theorem holds_valueOf {name first : Text} {more : List Text}
    (hfirst : newline ∉ first) (hfree : ∀ line ∈ more, newline ∉ line)
    (hmore : ∀ line ∈ more, continues line = true)
    (hsimple : isSimple name = true → more = []) :
    Holds isSimple {
      name
      value := valueOf first more } where
  first := startsBlank_rdropWhile (startsBlank_intercalate first more)
  last := getLast?_rdropWhile _
  more := more_valueOf hfirst hfree hmore
  simple := by
    intro hname hmem
    have hnone := hsimple hname
    rw [hnone] at hmem
    have hprefix := (List.rdropWhile_prefix isBlank _).subset hmem
    rw [List.intercalate_singleton] at hprefix
    exact hfirst ((List.dropWhile_suffix isBlank).subset hprefix)

theorem holds_of_fieldsOf {lines : List Text} {more : List Text}
    (hfree : ∀ line ∈ lines, newline ∉ line)
    (hfilled : ∀ line ∈ lines, separates line = false)
    (hread : fieldsOf isSimple lines = some (more, fields)) :
    (∀ line ∈ more, newline ∉ line ∧ continues line = true) ∧
      ∀ field ∈ fields, Holds isSimple field := by
  induction lines generalizing more fields with
  | nil =>
      cases hread
      simp
  | cons line rest ih =>
      rw [List.forall_mem_cons] at hfree hfilled
      rw [fieldsOf] at hread
      rcases Option.bind_eq_some_iff.mp hread with
        ⟨⟨pending, others⟩, hrest, hbody⟩
      rcases ih hfree.2 hfilled.2 hrest with ⟨hpending, hothers⟩
      dsimp only at hbody
      split at hbody
      · next hstart =>
          cases hbody
          refine ⟨?_, hothers⟩
          intro other hother
          rcases List.mem_cons.mp hother with rfl | hmem
          · refine ⟨hfree.1, ?_⟩
            simp [continues, hstart, hfilled.1]
          · exact hpending other hmem
      · rcases Option.bind_eq_some_iff.mp hbody with
          ⟨⟨name, first⟩, hname, hfield⟩
        dsimp only at hfield
        split at hfield
        · cases hfield
        · next hsimple =>
            cases hfield
            refine ⟨by simp, ?_⟩
            have hfirst : newline ∉ first := by
              unfold nameOf at hname
              dsimp only at hname
              split at hname
              · cases hname
                intro hmem
                exact hfree.1 (List.mem_of_mem_drop hmem)
              · cases hname
            intro field hfield
            rcases List.mem_cons.mp hfield with rfl | hmem
            · apply holds_valueOf hfirst
              · intro other hother
                exact (hpending other hother).1
              · intro other hother
                exact (hpending other hother).2
              · intro hname'
                by_contra hsome
                exact hsimple ⟨hname', hsome⟩
            · exact hothers field hmem

theorem mem_of_mem_splitOnP {Unit : Type} {stops : Unit → Bool}
    {source piece : List Unit} (hpiece : piece ∈ source.splitOnP stops)
    {unit : Unit} (hunit : unit ∈ piece) : unit ∈ source := by
  induction source generalizing piece with
  | nil =>
      rw [List.splitOnP_nil, List.mem_singleton] at hpiece
      rw [hpiece] at hunit
      cases hunit
  | cons first rest ih =>
      rw [List.splitOnP_cons_eq_if_modifyHead] at hpiece
      split at hpiece
      · rcases List.mem_cons.mp hpiece with rfl | hmem
        · cases hunit
        · exact List.mem_cons_of_mem _ (ih hmem hunit)
      · rcases List.exists_cons_of_ne_nil (List.splitOnP_ne_nil stops rest) with
          ⟨head, others, hsplit⟩
        rw [hsplit, List.modifyHead_cons] at hpiece
        rcases List.mem_cons.mp hpiece with rfl | hmem
        · rcases List.mem_cons.mp hunit with rfl | hhead
          · exact List.mem_cons_self
          · apply List.mem_cons_of_mem
            apply ih _ hhead
            rw [hsplit]
            exact List.mem_cons_self
        · apply List.mem_cons_of_mem
          apply ih _ hunit
          rw [hsplit]
          exact List.mem_cons_of_mem _ hmem

theorem holds_of_read {source : Text} {paragraphs : List (List Field)}
    (hread : read isSimple source = some paragraphs) :
    ∀ fields ∈ paragraphs, ∀ field ∈ fields, Holds isSimple field := by
  intro fields hfields
  rcases FallibleSteps.exists_item_of_mapM_eq_some hread hfields with
    ⟨lines, hlines, hparagraph⟩
  have hmem := List.mem_of_mem_filter hlines
  have hfilled : ∀ line ∈ lines, separates line = false :=
    of_mem_splitOnP hmem
  have hfree : ∀ line ∈ lines, newline ∉ line := by
    intro line hline
    exact not_mem_of_mem_splitOn (mem_of_mem_splitOnP hmem hline)
  rcases Option.bind_eq_some_iff.mp hparagraph with ⟨⟨more, found⟩, hread, hkept⟩
  dsimp only at hkept
  split at hkept
  · cases hkept
    exact (holds_of_fieldsOf hfree hfilled hread).2
  · cases hkept

/-- Fields are read as they are written exactly where every value keeps to its
own lines. -/
theorem read_print_iff (hfilled : fields ≠ [])
    (hnames : ∀ field ∈ fields, isName field.name = true)
    (hdistinct : (fields.map fun field => foldCase field.name).Nodup) :
    read isSimple (print fields) = some [fields] ↔
      ∀ field ∈ fields, Holds isSimple field := by
  constructor
  · intro hread
    exact holds_of_read hread fields List.mem_cons_self
  · exact read_print hfilled hnames hdistinct

/-- What has neither blanks nor line breaks can stand in any field. -/
theorem holds_of_forall (hunits : ∀ unit ∈ field.value,
    isBlank unit = false ∧ unit ≠ newline) : Holds isSimple field := by
  have hinline : newline ∉ field.value := by
    intro hmem
    exact (hunits newline hmem).2 rfl
  have hsingle : field.value.splitOn newline = [field.value] := by
    rw [List.splitOn_eq_splitOnP]
    apply List.splitOnP_eq_singleton
    intro unit hunit
    exact beq_eq_false_iff_ne.mpr (hunits unit hunit).2
  constructor
  · constructor
    · cases hvalue : field.value with
      | nil => rfl
      | cons unit rest =>
          have hunit : unit ∈ field.value := by
            rw [hvalue]
            exact List.mem_cons_self
          exact (hunits unit hunit).1
    · cases hlast : field.value.getLast? with
      | none => rfl
      | some unit => exact (hunits unit (List.mem_of_getLast? hlast)).1
    · rw [hsingle]
      intro line hline
      cases hline
  · intro _
    exact hinline

end

end Deb822
