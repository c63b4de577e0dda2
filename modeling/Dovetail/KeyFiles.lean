import Dovetail.CodeUnits

/-!
# Key files

Lines of groups and of keys with values, as the files of desktop entries have
them.  A value ends with its line, so what is written line by line is read as
it was written just where the lines that a value goes on for say nothing.
-/

namespace KeyFile

open CodeUnits

inductive Entry where
  | header (name : Text)
  | setting (key value : Text)
  deriving DecidableEq

def hash : UInt16 := 35

def equals : UInt16 := 61

def opening : UInt16 := 91

def closing : UInt16 := 93

def backslash : UInt16 := 92

def isBlank (unit : UInt16) : Bool := unit == 32 || unit == 9

def isControl (unit : UInt16) : Bool := unit < 32 || unit == 127

/-! ## Reading -/

/-- Comments and blank lines. -/
def isIgnored (line : Text) : Bool :=
  line.head? == some hash || line.all isBlank

def isKeyUnit (unit : UInt16) : Bool :=
  (65 ≤ unit && unit ≤ 90) || (97 ≤ unit && unit ≤ 122) ||
    (48 ≤ unit && unit ≤ 57) || unit == 45

/-- A key may have the name of a locale in brackets behind it. -/
def isKey (key : Text) : Bool :=
  let rest := key.dropWhile isKeyUnit
  key.any isKeyUnit && (rest.isEmpty ||
    rest.head? == some opening && rest.getLast? == some closing)

def isGroupName (name : Text) : Bool :=
  name.all fun unit =>
    !(unit == opening || unit == closing || isControl unit)

def headerOf (line : Text) : Option Entry :=
  let name := line.tail.dropLast
  if line.getLast? = some closing ∧ isGroupName name then
    some (.header name)
  else none

/-- The blanks before and behind the sign are left out. -/
def settingOf (line : Text) : Option Entry :=
  let written := line.takeWhile (· ≠ equals)
  let key := written.rdropWhile isBlank
  if written ≠ line ∧ isKey key then
    some (.setting key
      ((line.drop (written.length + 1)).dropWhile isBlank))
  else none

/-- What a line says; nothing is wrong with one that says nothing. -/
def lineOf (line : Text) : Option (List Entry) :=
  if isIgnored line then some []
  else if line.head? = some opening then (headerOf line).map ([·])
  else (settingOf line).map ([·])

def entriesOf (lines : List Text) : Option (List Entry) :=
  (lines.mapM lineOf).map List.flatten

def read (source : Text) : Option (List Entry) :=
  entriesOf (source.splitOn newline)

/-! ## Values -/

def unescape? (unit : UInt16) : Option UInt16 :=
  if unit = 115 then some 32
  else if unit = 110 then some newline
  else if unit = 116 then some 9
  else if unit = 114 then some 13
  else if unit = backslash then some backslash
  else none

def unescape : Text → Option Text
  | [] => some []
  | unit :: rest =>
      if unit = backslash then
        match rest with
        | [] => none
        | next :: rest => do
            let meant ← unescape? next
            let later ← unescape rest
            return meant :: later
      else (unescape rest).map (unit :: ·)

/-- A value that is shown. -/
def localeString (value : Text) : Option Text := unescape value

/-- Only printable ASCII is in a value of this type. -/
def isPrintable (unit : UInt16) : Bool := 32 ≤ unit && unit ≤ 126

def string (value : Text) : Option Text :=
  if value.all isPrintable then unescape value else none

/-! ## Writing -/

def settingLine (item : Text × Text) : Text := item.1 ++ equals :: item.2

def headerLine (name : Text) : Text := opening :: (name ++ [closing])

/-- A group, with a newline behind each of its lines. -/
def print (name : Text) (items : List (Text × Text)) : Text :=
  (headerLine name :: items.map settingLine).flatMap (· ++ [newline])

def setting (item : Text × Text) : Entry := .setting item.1 item.2

/-- What is left of a value on the line of its key. -/
def firstOf (value : Text) : Text :=
  ((value.splitOn newline).headD []).dropWhile isBlank

/-- The lines of a value behind its first one. -/
def furtherOf (value : Text) : List Text := (value.splitOn newline).tail

/-- A value that is read as it is written. -/
structure IsPlain (value : Text) : Prop where
  single : newline ∉ value
  literal : backslash ∉ value
  begins : ∀ unit, value.head? = some unit → isBlank unit = false

structure IsItemKey (key : Text) : Prop where
  filled : key ≠ []
  units : ∀ unit ∈ key, isKeyUnit unit = true

/-! ## Lines -/

theorem splitOn_append_of_not_mem {Unit : Type} [BEq Unit] [LawfulBEq Unit]
    {separator : Unit} {before : List Unit} (hbefore : separator ∉ before)
    (after : List Unit) :
    (before ++ after).splitOn separator =
      (after.splitOn separator).modifyHead (before ++ ·) := by
  induction before with
  | nil =>
      cases hsplit : after.splitOn separator with
      | nil => exact absurd hsplit (List.splitOn_ne_nil separator after)
      | cons first others => simp [hsplit]
  | cons unit rest ih =>
      rw [List.mem_cons, not_or] at hbefore
      rw [List.cons_append, List.splitOn_cons_eq_if_modifyHead,
        ih hbefore.2]
      simp only [beq_iff_eq, Ne.symm hbefore.1, if_false]
      cases after.splitOn separator <;> rfl

theorem splitOn_eq (value : Text) :
    value.splitOn newline =
      (value.splitOn newline).headD [] :: furtherOf value := by
  unfold furtherOf
  cases hsplit : value.splitOn newline with
  | nil => exact absurd hsplit (List.splitOn_ne_nil newline value)
  | cons first others => rfl

theorem splitOn_print (lines : List Text) :
    (lines.flatMap (· ++ [newline])).splitOn newline =
      lines.flatMap (·.splitOn newline) ++ [[]] := by
  induction lines with
  | nil => rfl
  | cons line lines ih =>
      rw [List.flatMap_cons, List.append_assoc, List.singleton_append,
        List.splitOn_append_cons_self, ih, List.flatMap_cons,
        List.append_assoc]

theorem entriesOf_append (before after : List Text) :
    entriesOf (before ++ after) =
      (entriesOf before).bind fun first =>
        (entriesOf after).map (first ++ ·) := by
  unfold entriesOf
  rw [List.mapM_append]
  cases before.mapM lineOf with
  | none => rfl
  | some first => cases after.mapM lineOf <;> simp

theorem entriesOf_cons (line : Text) (lines : List Text) :
    entriesOf (line :: lines) =
      (lineOf line).bind fun first =>
        (entriesOf lines).map (first ++ ·) := by
  unfold entriesOf
  rw [List.mapM_cons]
  cases lineOf line with
  | none => rfl
  | some first => cases lines.mapM lineOf <;> simp

@[simp] theorem entriesOf_nil : entriesOf [] = some [] := rfl

/-- Lines say nothing just where each of them is ignored. -/
theorem entriesOf_eq_nil_iff {lines : List Text} :
    entriesOf lines = some [] ↔ ∀ line ∈ lines, isIgnored line = true := by
  induction lines with
  | nil => simp
  | cons line lines ih =>
      rw [entriesOf_cons, List.forall_mem_cons, ← ih]
      by_cases hignored : isIgnored line = true
      · simp [lineOf, hignored]
      · have hline : lineOf line ≠ some [] := by
          unfold lineOf
          rw [if_neg hignored]
          split
          · cases headerOf line <;> simp
          · cases settingOf line <;> simp
        cases hread : lineOf line with
        | none => simp [hignored]
        | some first =>
            have hfirst : first ≠ [] := by
              intro hnil
              exact hline (hnil ▸ hread)
            cases entriesOf lines <;> simp [hignored, hfirst]

theorem lineOf_headerLine {name : Text} (hname : isGroupName name = true) :
    lineOf (headerLine name) = some [.header name] := by
  have hread : isIgnored (headerLine name) = false := by
    simp [isIgnored, headerLine, opening, hash, isBlank]
  have hlast : (headerLine name).getLast? = some closing := by
    rw [headerLine, ← List.cons_append, List.getLast?_concat]
  unfold lineOf
  rw [hread]
  simp only [Bool.false_eq_true, if_false, headerOf, hlast, true_and]
  simp [headerLine, hname]

theorem IsItemKey.isKey {key : Text} (hkey : IsItemKey key) :
    isKey key = true := by
  have hdrop : key.dropWhile isKeyUnit = [] :=
    List.dropWhile_eq_nil_iff.mpr hkey.units
  rcases List.exists_mem_of_ne_nil key hkey.filled with ⟨unit, hunit⟩
  unfold KeyFile.isKey
  rw [hdrop]
  simpa using ⟨unit, hunit, hkey.units unit hunit⟩

/-- A key is read up to the sign, and the rest is its value. -/
theorem lineOf_settingLine {key : Text} (hkey : IsItemKey key)
    (value : Text) :
    lineOf (settingLine (key, value)) =
      some [.setting key (value.dropWhile isBlank)] := by
  have hother (unit : UInt16) (hunit : unit ∈ key) :
      unit ≠ equals ∧ unit ≠ hash ∧ unit ≠ opening ∧
        isBlank unit = false := by
    have hsame := hkey.units unit hunit
    refine ⟨?_, ?_, ?_, ?_⟩
    · rintro rfl
      exact absurd hsame (by decide)
    · rintro rfl
      exact absurd hsame (by decide)
    · rintro rfl
      exact absurd hsame (by decide)
    · by_contra hblank
      have hcases : unit = 32 ∨ unit = 9 := by
        simpa [isBlank, Decidable.or_iff_not_imp_left] using hblank
      rcases hcases with rfl | rfl
      · exact absurd hsame (by decide)
      · exact absurd hsame (by decide)
  rcases List.exists_cons_of_ne_nil hkey.filled with ⟨first, rest, hcons⟩
  have hfirst := hother first (by simp [hcons])
  have hread : isIgnored (settingLine (key, value)) = false := by
    simp [isIgnored, settingLine, hcons, hfirst.2.1, hfirst.2.2.2]
  have htake : (settingLine (key, value)).takeWhile (· ≠ equals) = key := by
    unfold settingLine
    rw [List.takeWhile_append_of_pos]
    · simp
    · intro unit hunit
      simpa using (hother unit hunit).1
  have hblanks : key.rdropWhile isBlank = key := by
    apply rdropWhile_eq_self
    intro unit hunit
    exact (hother unit (List.mem_of_getLast? hunit)).2.2.2
  have hlonger : key ≠ settingLine (key, value) := by
    simp [settingLine]
  have hdrop : (settingLine (key, value)).drop (key.length + 1) = value := by
    rw [settingLine, List.drop_append]
    simp
  have hhead : (settingLine (key, value)).head? ≠ some opening := by
    simp [settingLine, hcons, hfirst.2.2.1]
  unfold lineOf settingOf
  rw [hread, if_neg hhead, htake]
  simp [hblanks, hlonger, hkey.isKey, hdrop]

/-- A setting is read off its first line, and its further lines are read as
lines of their own. -/
theorem entriesOf_settingLine {key : Text} (hkey : IsItemKey key)
    (value : Text) :
    entriesOf ((settingLine (key, value)).splitOn newline) =
      (entriesOf (furtherOf value)).map
        (.setting key (firstOf value) :: ·) := by
  have hline : newline ∉ key ++ [equals] := by
    rw [List.mem_append, not_or]
    constructor
    · intro hmem
      exact absurd (hkey.units newline hmem) (by decide)
    · decide
  have hsplit : settingLine (key, value) = (key ++ [equals]) ++ value := by
    simp [settingLine]
  rw [hsplit, splitOn_append_of_not_mem hline, splitOn_eq value,
    List.modifyHead_cons, entriesOf_cons]
  have hfirst := lineOf_settingLine hkey ((value.splitOn newline).headD [])
  unfold settingLine at hfirst
  rw [List.append_assoc, List.singleton_append, hfirst]
  rfl

/-! ## Groups -/

theorem read_print {name : Text} (hname : isGroupName name = true)
    (items : List (Text × Text)) :
    read (print name items) =
      (entriesOf ((items.map settingLine).flatMap (·.splitOn newline))).map
        (.header name :: ·) := by
  have hline : newline ∉ headerLine name := by
    intro hmem
    have hcases : newline ∈ name := by
      simpa [headerLine, opening, closing, newline] using hmem
    have hunit := List.all_eq_true.mp hname newline hcases
    exact absurd hunit (by decide)
  have hblank : entriesOf [[]] = some [] := rfl
  unfold read print
  rw [splitOn_print, List.flatMap_cons, List.splitOn_eq_singleton hline,
    List.append_assoc, List.singleton_append, entriesOf_cons,
    lineOf_headerLine hname, entriesOf_append, hblank]
  simp only [Option.bind_some, Option.map_some, List.append_nil]
  cases entriesOf ((items.map settingLine).flatMap (·.splitOn newline)) <;>
    rfl

section

variable {items : List (Text × Text)}
  (hkeys : ∀ item ∈ items, IsItemKey item.1)

include hkeys

theorem entriesOf_items
    (hignored : ∀ item ∈ items, ∀ line ∈ furtherOf item.2,
      isIgnored line = true) :
    entriesOf ((items.map settingLine).flatMap (·.splitOn newline)) =
      some (items.map fun item => setting (item.1, firstOf item.2)) := by
  induction items with
  | nil => rfl
  | cons item items ih =>
      rw [List.forall_mem_cons] at hkeys hignored
      have hfurther := entriesOf_eq_nil_iff.mpr hignored.1
      rw [List.map_cons, List.flatMap_cons, entriesOf_append,
        ih hkeys.2 hignored.2, entriesOf_settingLine hkeys.1, hfurther]
      rfl

/-- There is an entry for each item, and for each line that says something
more. -/
theorem length_entriesOf {entries : List Entry}
    (hread : entriesOf ((items.map settingLine).flatMap
      (·.splitOn newline)) = some entries) :
    items.length ≤ entries.length ∧
      (entries.length = items.length →
        ∀ item ∈ items, ∀ line ∈ furtherOf item.2,
          isIgnored line = true) := by
  induction items generalizing entries with
  | nil => simp
  | cons item items ih =>
      rw [List.forall_mem_cons] at hkeys
      rw [List.map_cons, List.flatMap_cons, entriesOf_append,
        entriesOf_settingLine hkeys.1] at hread
      rcases Option.bind_eq_some_iff.mp hread with ⟨own, hown, hrest⟩
      rcases Option.map_eq_some_iff.mp hrest with ⟨others, hothers, rfl⟩
      rcases Option.map_eq_some_iff.mp hown with ⟨further, hfurther, rfl⟩
      have hlater := ih hkeys.2 hothers
      simp only [List.cons_append, List.length_cons, List.length_append]
      constructor
      · omega
      · intro hlength
        have hnil : further = [] := by
          apply List.length_eq_zero_iff.mp
          omega
        rw [hnil] at hfurther
        rw [List.forall_mem_cons]
        constructor
        · exact entriesOf_eq_nil_iff.mp hfurther
        · apply hlater.2
          omega

/-- A group has just its own keys where nothing is on the further lines of
its values, and then these are what is left on the first ones. -/
theorem read_print_iff {name : Text} (hname : isGroupName name = true)
    (settings : List (Text × Text)) :
    (read (print name items) =
        some (.header name :: settings.map setting) ∧
      settings.map Prod.fst = items.map Prod.fst) ↔
      (∀ item ∈ items, ∀ line ∈ furtherOf item.2, isIgnored line = true) ∧
        settings = items.map fun item => (item.1, firstOf item.2) := by
  rw [read_print hname]
  have hwritten (hignored : ∀ item ∈ items, ∀ line ∈ furtherOf item.2,
      isIgnored line = true) := entriesOf_items hkeys hignored
  constructor
  · rintro ⟨hread, hfirst⟩
    rcases Option.map_eq_some_iff.mp hread with ⟨entries, hentries, hsame⟩
    cases hsame
    have hlength : (settings.map setting).length = items.length := by
      have hboth := congrArg List.length hfirst
      simpa using hboth
    have hignored := (length_entriesOf hkeys hentries).2 hlength
    refine ⟨hignored, ?_⟩
    rw [hwritten hignored] at hentries
    have hinjective : Function.Injective setting := by
      intro first second hboth
      cases first
      cases second
      cases hboth
      rfl
    apply hinjective.list_map
    rw [← Option.some.inj hentries, List.map_map]
    rfl
  · rintro ⟨hignored, rfl⟩
    rw [hwritten hignored]
    constructor
    · rw [Option.map_some, List.map_map]
      rfl
    · rw [List.map_map]
      rfl

end

/-! ## Values that stand for themselves -/

theorem unescape_eq_self {value : Text} (hvalue : backslash ∉ value) :
    unescape value = some value := by
  induction value with
  | nil => rfl
  | cons unit rest ih =>
      rw [List.mem_cons, not_or] at hvalue
      unfold unescape
      rw [if_neg (Ne.symm hvalue.1), ih hvalue.2]
      rfl

/-- What is read is shorter where there is a backslash. -/
theorem length_unescape {value meant : Text}
    (hmeant : unescape value = some meant) :
    meant.length ≤ value.length ∧
      (meant.length = value.length → backslash ∉ value) := by
  fun_induction unescape value generalizing meant with
  | case1 =>
      cases hmeant
      simp
  | case2 => cases hmeant
  | case3 next rest ih =>
      rcases Option.bind_eq_some_iff.mp hmeant with ⟨unit, hunit, hrest⟩
      rcases Option.bind_eq_some_iff.mp hrest with ⟨later, hlater, hsame⟩
      cases hsame
      have hshort := (ih hlater).1
      simp only [List.length_cons]
      constructor
      · omega
      · intro hlength
        omega
  | case4 unit rest hunit ih =>
      rcases Option.map_eq_some_iff.mp hmeant with ⟨later, hlater, rfl⟩
      have hrest := ih hlater
      simp only [List.length_cons, List.mem_cons, not_or]
      constructor
      · omega
      · intro hlength
        exact ⟨Ne.symm hunit, hrest.2 (by omega)⟩

theorem firstOf_eq_dropWhile {value : Text} (hvalue : newline ∉ value) :
    firstOf value = value.dropWhile isBlank := by
  unfold firstOf
  rw [List.splitOn_eq_singleton hvalue]
  rfl

theorem IsPlain.firstOf {value : Text} (hplain : IsPlain value) :
    firstOf value = value := by
  rw [firstOf_eq_dropWhile hplain.single]
  cases value with
  | nil => rfl
  | cons unit rest =>
      rw [List.dropWhile_cons_of_neg]
      simp [hplain.begins unit rfl]

theorem length_firstOf (value : Text) :
    (firstOf value).length ≤ value.length ∧
      (newline ∈ value → (firstOf value).length < value.length) := by
  by_cases hmem : newline ∈ value
  · rcases List.eq_append_cons_of_mem hmem with ⟨before, after, rfl, hbefore⟩
    have hshort : (firstOf (before ++ newline :: after)).length ≤
        before.length := by
      unfold firstOf
      rw [List.splitOn_append_cons_self_of_not_mem hbefore]
      exact (List.dropWhile_suffix isBlank).length_le
    simp only [List.length_append, List.length_cons]
    constructor
    · omega
    · intro _
      omega
  · rw [firstOf_eq_dropWhile hmem]
    constructor
    · exact (List.dropWhile_suffix isBlank).length_le
    · intro hother
      contradiction

/-- A value is read as it is written just where it is plain. -/
theorem localeString_firstOf_iff {value : Text} :
    localeString (firstOf value) = some value ↔ IsPlain value := by
  constructor
  · intro hread
    have hmeant := length_unescape hread
    have hfirst := length_firstOf value
    have hsingle : newline ∉ value := by
      intro hmem
      have hshort := hfirst.2 hmem
      omega
    have hsame : firstOf value = value := by
      have hsuffix : firstOf value <:+ value := by
        rw [firstOf_eq_dropWhile hsingle]
        exact List.dropWhile_suffix isBlank
      apply hsuffix.eq_of_length
      omega
    constructor
    case single => exact hsingle
    case literal =>
      rw [← hsame]
      apply hmeant.2
      rw [hsame]
    case begins =>
      intro unit hunit
      rw [← hsame, firstOf_eq_dropWhile hsingle] at hunit
      have hnot := List.head?_dropWhile_not isBlank value
      rw [hunit] at hnot
      simpa using hnot
  · intro hplain
    rw [hplain.firstOf]
    exact unescape_eq_self hplain.literal

end KeyFile
