import Dovetail.CodeUnits

/-!
# Unit files

The syntax of unit files: lines of sections and settings, white space around
keys and values, comments, and lines that a backslash at the end continues.
What is written line by line is read as it was written exactly where no line
has more in it than one key and one value.
-/

namespace UnitFile

open CodeUnits

inductive Entry where
  | header (name : Text)
  | setting (key value : Text)
  deriving DecidableEq

def backslash : UInt16 := 92

def equals : UInt16 := 61

def opening : UInt16 := 91

def closing : UInt16 := 93

def blank : UInt16 := 32

def isWhite (unit : UInt16) : Bool :=
  unit == blank || unit == 9 || unit == newline || unit == 13

def endsLine (unit : UInt16) : Bool :=
  unit == newline || unit == 13 || unit == 0

/-- A comment starts with one of two marks. -/
def isMark (unit : UInt16) : Bool := unit == 35 || unit == 59

/-! ## Reading -/

def strip (source : Text) : Text :=
  (source.rdropWhile isWhite).dropWhile isWhite

def isComment (line : Text) : Bool :=
  (line.find? fun unit => !isWhite unit).any isMark

/-- The last backslash is not behind one that it belongs to. -/
def continued : Text → Bool
  | [] => false
  | [92] => true
  | 92 :: _ :: rest => continued rest
  | _ :: rest => continued rest

/-- Lines with those that continue them; comments are left out. -/
def logical : Option Text → List Text → List Text
  | none, [] => []
  | some pending, [] => [pending]
  | pending, line :: rest =>
      if isComment line then logical pending rest
      else if continued (pending.getD [] ++ line) then
        logical (some ((pending.getD [] ++ line).dropLast ++ [blank])) rest
      else (pending.getD [] ++ line) :: logical none rest

def settingOf (line : Text) : Option Entry :=
  let key := line.takeWhile (· ≠ equals)
  if key = [] ∨ key = line then none
  else some (.setting (strip key) (strip (line.drop (key.length + 1))))

def entryOf (line : Text) : Option Entry :=
  if (strip line).head? = some opening then
    if (strip line).getLast? = some closing then
      some (.header (strip line).tail.dropLast)
    else none
  else settingOf (strip line)

def linesOf (source : Text) : List Text := source.splitOnP endsLine

def entriesOf (lines : List Text) : List Entry :=
  (logical none lines).filterMap entryOf

def Entry.isSetting : Entry → Bool
  | .header _ => false
  | .setting _ _ => true

/-- The sections with their settings; what is before the first section is in
none. -/
def read (source : Text) : List Entry :=
  (entriesOf (linesOf source)).dropWhile Entry.isSetting

/-! ## Writing -/

inductive Item where
  | header (name : Text)
  | setting (key value : Text)
  | empty
  deriving DecidableEq

namespace Item

def line : Item → Text
  | .header name => opening :: (name ++ [closing])
  | .setting key value => key ++ equals :: value
  | .empty => []

def told : Item → Option Entry
  | .header name => some (.header name)
  | .setting key value => some (.setting key value)
  | .empty => none

end Item

def print (items : List Item) : Text :=
  items.flatMap fun item => item.line ++ [newline]

/-! ## What a line can hold -/

/-- No white space at either end. -/
structure Stripped (source : Text) : Prop where
  first : ∀ unit, source.head? = some unit → isWhite unit = false
  last : ∀ unit, source.getLast? = some unit → isWhite unit = false

structure IsKey (key : Text) : Prop where
  filled : key ≠ []
  single : equals ∉ key
  inline : ∀ unit ∈ key, endsLine unit = false
  stripped : Stripped key
  setting : key.head? ≠ some opening
  read : ∀ unit, key.head? = some unit → isMark unit = false

/-- A value on its line. -/
structure IsLine (value : Text) : Prop where
  inline : ∀ unit ∈ value, endsLine unit = false
  stripped : Stripped value

/-- A value that is read as it is written. -/
structure IsValue (value : Text) : Prop extends IsLine value where
  ended : continued value = false

instance (source : Text) : Decidable (Stripped source) :=
  decidable_of_iff
    ((∀ unit ∈ source.head?, isWhite unit = false) ∧
      ∀ unit ∈ source.getLast?, isWhite unit = false)
    ⟨fun hends => ⟨hends.1, hends.2⟩, fun hends => ⟨hends.first, hends.last⟩⟩

instance (key : Text) : Decidable (IsKey key) :=
  decidable_of_iff
    (key ≠ [] ∧ equals ∉ key ∧ (∀ unit ∈ key, endsLine unit = false) ∧
      Stripped key ∧ key.head? ≠ some opening ∧
        ∀ unit ∈ key.head?, isMark unit = false)
    ⟨fun ⟨hfilled, hsingle, hinline, hstripped, hsetting, hread⟩ =>
        ⟨hfilled, hsingle, hinline, hstripped, hsetting, hread⟩,
      fun hkey => ⟨hkey.filled, hkey.single, hkey.inline, hkey.stripped,
        hkey.setting, hkey.read⟩⟩

instance (value : Text) : Decidable (IsValue value) :=
  decidable_of_iff
    ((∀ unit ∈ value, endsLine unit = false) ∧ Stripped value ∧
      continued value = false)
    ⟨fun ⟨hinline, hstripped, hended⟩ => ⟨⟨hinline, hstripped⟩, hended⟩,
      fun hvalue => ⟨hvalue.inline, hvalue.stripped, hvalue.ended⟩⟩

namespace Entry

/-- An entry that one line can hold. -/
def Clean : Entry → Prop
  | .header name => ∀ unit ∈ name, endsLine unit = false
  | .setting key value => IsKey key ∧ IsLine value

/-- An entry whose line is not continued either. -/
def Well : Entry → Prop
  | .header name => ∀ unit ∈ name, endsLine unit = false
  | .setting key value => IsKey key ∧ IsValue value

end Entry

/-! ## White space -/

theorem strip_eq_self {source : Text} (hstripped : Stripped source) :
    strip source = source := by
  have hright : source.rdropWhile isWhite = source :=
    rdropWhile_eq_self hstripped.last
  rw [strip, hright]
  cases source with
  | nil => rfl
  | cons unit rest =>
      rw [List.dropWhile_cons_of_neg]
      simp [hstripped.first unit rfl]

theorem head?_strip (source : Text) :
    (strip source).head? = source.find? fun unit => !isWhite unit := by
  have hsource := @List.rdropWhile_append_rtakeWhile _ isWhite source
  have hwhite : (source.rtakeWhile isWhite).find?
      (fun unit => !isWhite unit) = none := by
    apply List.find?_eq_none.mpr
    intro unit hunit
    simp [List.mem_rtakeWhile_imp hunit]
  rw [strip, ← List.find?_not_eq_head?_dropWhile]
  nth_rewrite 2 [← hsource]
  rw [List.find?_append, hwhite, Option.or_none]

theorem strip_subset (source : Text) : strip source ⊆ source := by
  intro unit hunit
  have hleft := (List.dropWhile_suffix isWhite).subset hunit
  exact (List.rdropWhile_prefix isWhite source).subset hleft

theorem stripped_strip (source : Text) : Stripped (strip source) where
  first unit hunit := by
    rw [head?_strip] at hunit
    simpa using List.find?_some hunit
  last unit hunit := by
    have hsuffix : strip source <:+ source.rdropWhile isWhite :=
      List.dropWhile_suffix isWhite
    have hne : strip source ≠ [] := by
      intro hnil
      rw [hnil] at hunit
      cases hunit
    have hright : source.rdropWhile isWhite ≠ [] := by
      intro hnil
      rw [hnil, List.suffix_nil] at hsuffix
      exact hne hsuffix
    have hlast := List.rdropWhile_last_not isWhite source hright
    have hsame := hsuffix.getLast hne
    rw [List.getLast?_eq_some_getLast hne] at hunit
    rw [← Option.some.inj hunit, hsame]
    simpa using hlast

theorem mem_strip {source : Text} {unit : UInt16} (hunit : unit ∈ source)
    (hwhite : isWhite unit = false) : unit ∈ strip source := by
  have hleft := @List.rdropWhile_append_rtakeWhile _ isWhite source
  rw [← hleft, List.mem_append] at hunit
  rcases hunit with hunit | hunit
  · have hright := @List.takeWhile_append_dropWhile _ isWhite
      (source.rdropWhile isWhite)
    rw [← hright, List.mem_append] at hunit
    rcases hunit with hunit | hunit
    · rw [List.mem_takeWhile_imp hunit] at hwhite
      cases hwhite
    · exact hunit
  · rw [List.mem_rtakeWhile_imp hunit] at hwhite
    cases hwhite

/-! ## Lines -/

theorem continued_append_cons (before : Text) {unit : UInt16}
    (hunit : unit ≠ backslash) (after : Text) :
    continued (before ++ unit :: after) = continued after := by
  have hone : continued (unit :: after) = continued after := by
    rw [continued]
    · rintro rfl
      exact absurd rfl hunit
    · rintro next rest rfl
      exact absurd rfl hunit
  fun_induction continued before with
  | case1 => exact hone
  | case2 =>
      rw [List.singleton_append, continued]
  | case3 next rest ih =>
      rw [List.cons_append, List.cons_append, continued, ih]
  | case4 first rest hlone hpair ih =>
      rw [List.cons_append, continued, ih]
      · intro hfirst hrest
        simp at hrest
      · intro next others hfirst hrest
        cases rest with
        | nil => exact hlone hfirst rfl
        | cons second rest => exact hpair second rest hfirst rfl

theorem exists_of_continued {line : Text} (hline : continued line = true) :
    ∃ before, line = before ++ [backslash] := by
  fun_induction continued line with
  | case1 => cases hline
  | case2 => exact ⟨[], rfl⟩
  | case3 next rest ih =>
      rcases ih hline with ⟨before, rfl⟩
      exact ⟨92 :: next :: before, rfl⟩
  | case4 unit rest _ _ ih =>
      rcases ih hline with ⟨before, rfl⟩
      exact ⟨unit :: before, rfl⟩

/-- A line that is neither a comment nor more than a line. -/
structure Sound (line : Text) : Prop where
  inline : ∀ unit ∈ line, endsLine unit = false
  read : isComment line = false

theorem Sound.append {first second : Text} (hfirst : Sound first)
    (hsecond : Sound second) : Sound (first ++ second) where
  inline := List.forall_mem_append.mpr ⟨hfirst.inline, hsecond.inline⟩
  read := by
    have hone := hfirst.read
    unfold isComment at hone ⊢
    rw [List.find?_append]
    cases hfind : first.find? fun unit => !isWhite unit with
    | none => exact hsecond.read
    | some unit =>
        rw [hfind] at hone
        exact hone

/-- The backslash that continues a line becomes a blank. -/
theorem Sound.continues {line : Text} (hline : Sound line)
    (hcontinued : continued line = true) :
    Sound (line.dropLast ++ [blank]) := by
  rcases exists_of_continued hcontinued with ⟨before, rfl⟩
  rw [List.dropLast_concat]
  have hinline := List.forall_mem_append.mp hline.inline
  have hread := hline.read
  constructor
  · exact List.forall_mem_append.mpr ⟨hinline.1, by decide⟩
  · unfold isComment at hread ⊢
    rw [List.find?_append] at hread ⊢
    cases hfind : before.find? fun unit => !isWhite unit with
    | none => decide
    | some unit =>
        rw [hfind] at hread
        exact hread

theorem sound_of_mem_logical {pending : Option Text} {lines : List Text}
    (hlines : ∀ line ∈ lines, ∀ unit ∈ line, endsLine unit = false)
    (hpending : ∀ line, pending = some line → Sound line) :
    ∀ line ∈ logical pending lines, Sound line := by
  induction lines generalizing pending with
  | nil =>
      cases pending with
      | none => simp [logical]
      | some line => simpa [logical] using hpending line rfl
  | cons line rest ih =>
      have hrest := fun other hother =>
        hlines other (List.mem_cons_of_mem line hother)
      have hline := hlines line List.mem_cons_self
      rw [logical]
      split_ifs with hcomment hcontinued
      · exact ih hrest hpending
      · apply ih hrest
        intro other hother
        rw [← Option.some.inj hother]
        apply Sound.continues _ hcontinued
        have hsound : Sound line := ⟨hline, by simpa using hcomment⟩
        cases pending with
        | none => exact hsound
        | some before => exact (hpending before rfl).append hsound
      · have hsound : Sound line := ⟨hline, by simpa using hcomment⟩
        refine List.forall_mem_cons.mpr ⟨?_, ?_⟩
        · cases pending with
          | none => exact hsound
          | some before => exact (hpending before rfl).append hsound
        · exact ih hrest (by simp)

/-! ## Entries -/

theorem head?_append_key {key : Text} (hkey : IsKey key) (after : Text) :
    (key ++ after).head? = key.head? :=
  List.head?_append_of_ne_nil key hkey.filled

theorem strip_setting {key : Text} (hkey : IsKey key) (value : Text) :
    strip (key ++ equals :: value) =
      key ++ equals :: value.rdropWhile isWhite := by
  rw [strip, rdropWhile_append_cons key (by decide)]
  rcases List.exists_cons_of_ne_nil hkey.filled with ⟨unit, rest, rfl⟩
  have hunit := hkey.stripped.first unit rfl
  rw [List.cons_append, List.dropWhile_cons_of_neg (by simp [hunit])]

theorem entryOf_setting {key : Text} (hkey : IsKey key) (value : Text) :
    entryOf (key ++ equals :: value) = some (.setting key (strip value)) := by
  have htake : (key ++ equals :: value.rdropWhile isWhite).takeWhile
      (· ≠ equals) = key := by
    rw [List.takeWhile_append_of_pos]
    · simp
    · intro unit hunit
      simpa using ne_of_mem_of_not_mem hunit hkey.single
  have hlonger : key ≠ key ++ equals :: value.rdropWhile isWhite := by
    simp
  have hdrop : (key ++ equals :: value.rdropWhile isWhite).drop
      (key.length + 1) = value.rdropWhile isWhite := by
    rw [List.drop_append]
    simp
  have hstrip : strip (value.rdropWhile isWhite) = strip value := by
    rw [strip, strip, List.rdropWhile_idempotent]
  rw [entryOf, strip_setting hkey, head?_append_key hkey,
    if_neg hkey.setting, settingOf, htake]
  simp only [hkey.filled, hlonger, or_self, if_false, hdrop, hstrip,
    strip_eq_self hkey.stripped]

theorem entryOf_header (name : Text) :
    entryOf (opening :: (name ++ [closing])) = some (.header name) := by
  have hstripped : Stripped (opening :: (name ++ [closing])) := by
    constructor
    · intro unit hunit
      cases hunit
      decide
    · intro unit hunit
      rw [← List.cons_append, List.getLast?_concat] at hunit
      cases hunit
      decide
  rw [entryOf, strip_eq_self hstripped]
  rw [← List.cons_append, List.getLast?_concat]
  simp

theorem clean_settingOf {line : Text} (hstripped : Stripped line)
    (hinline : ∀ unit ∈ line, endsLine unit = false)
    (hhead : line.head? ≠ some opening)
    (hread : ∀ unit, line.head? = some unit → isMark unit = false)
    {entry : Entry} (hentry : settingOf line = some entry) : entry.Clean := by
  unfold settingOf at hentry
  simp only at hentry
  split_ifs at hentry with hcase
  cases hentry
  rw [not_or] at hcase
  have hstarts := List.takeWhile_prefix (fun unit => decide (unit ≠ equals))
    (l := line)
  have hkey : (line.takeWhile (· ≠ equals)).head? = line.head? := by
    rcases List.exists_cons_of_ne_nil hcase.1 with ⟨unit, rest, hcons⟩
    rcases hstarts with ⟨after, hafter⟩
    rw [hcons, List.cons_append] at hafter
    rw [hcons, ← hafter]
    rfl
  have hfirst : (strip (line.takeWhile (· ≠ equals))).head? = line.head? := by
    rcases List.exists_cons_of_ne_nil hcase.1 with ⟨unit, rest, hcons⟩
    rw [hcons, List.head?_cons] at hkey
    have hunit := hstripped.first unit hkey.symm
    rw [head?_strip, hcons, List.find?_cons_of_pos (by simp [hunit]), hkey]
  have hsubset : ∀ unit ∈ strip (line.takeWhile (· ≠ equals)),
      unit ∈ line.takeWhile (· ≠ equals) := fun unit hunit =>
    strip_subset _ hunit
  refine ⟨⟨?_, ?_, ?_, stripped_strip _, ?_, ?_⟩, ?_, stripped_strip _⟩
  · intro hnil
    rw [hnil, List.head?_nil] at hfirst
    rw [← hfirst, List.head?_eq_none_iff] at hkey
    exact hcase.1 hkey
  · intro hmem
    have htaken := List.mem_takeWhile_imp (hsubset _ hmem)
    simp at htaken
  · intro unit hunit
    exact hinline unit (hstarts.subset (hsubset unit hunit))
  · rw [hfirst]
    exact hhead
  · rw [hfirst]
    exact hread
  · intro unit hunit
    exact hinline unit (List.mem_of_mem_drop (strip_subset _ hunit))

/-- What is read of a line could be written on one. -/
theorem clean_of_entryOf {line : Text} (hline : Sound line) {entry : Entry}
    (hentry : entryOf line = some entry) : entry.Clean := by
  have hinline : ∀ unit ∈ strip line, endsLine unit = false :=
    fun unit hunit => hline.inline unit (strip_subset line hunit)
  unfold entryOf at hentry
  split_ifs at hentry with hhead hlast
  · cases hentry
    intro unit hunit
    have htail := List.dropLast_subset _ hunit
    exact hinline unit (List.mem_of_mem_tail htail)
  · apply clean_settingOf (stripped_strip line) hinline hhead _ hentry
    intro unit hunit
    have hread := hline.read
    rw [isComment, ← head?_strip, hunit] at hread
    exact hread

/-! ## Lines that are continued -/

theorem continued_append_blank (before line : Text) :
    continued (before ++ [blank] ++ line) = continued line := by
  rw [List.append_assoc]
  exact continued_append_cons before (by decide) line

/-- A line that was continued starts the one it is read as. -/
theorem exists_logical_some (before : Text) (lines : List Text) :
    ∃ more others, logical (some (before ++ [blank])) lines =
      (before ++ blank :: more) :: others := by
  induction lines generalizing before with
  | nil => exact ⟨[], [], rfl⟩
  | cons line rest ih =>
      rw [logical]
      split_ifs with hcomment hcontinued
      · exact ih before
      · rw [Option.getD_some, continued_append_blank] at hcontinued
        rcases exists_of_continued hcontinued with ⟨front, rfl⟩
        rcases ih (before ++ [blank] ++ front) with ⟨more, others, hlogical⟩
        refine ⟨front ++ blank :: more, others, ?_⟩
        rw [Option.getD_some, ← List.append_assoc, List.dropLast_concat,
          hlogical]
        simp
      · exact ⟨line, logical none rest, by simp⟩

/-- What is neither white nor a backslash is somewhere in the text. -/
def Tells (line : Text) : Prop :=
  ∃ unit ∈ line, isWhite unit = false ∧ unit ≠ backslash

theorem exists_logical_cons (before : Text) {line : Text}
    (hread : isComment line = false) (hline : line = [] ∨ Tells line)
    (rest : List Text) :
    ∃ more others, logical (some (before ++ [blank])) (line :: rest) =
      (before ++ blank :: more) :: others ∧ (more = [] ∨ Tells more) := by
  rw [logical, if_neg (by simp [hread])]
  split_ifs with hcontinued
  · rw [Option.getD_some, continued_append_blank] at hcontinued
    rcases exists_of_continued hcontinued with ⟨front, rfl⟩
    rcases exists_logical_some (before ++ [blank] ++ front) rest with
      ⟨more, others, hlogical⟩
    refine ⟨front ++ blank :: more, others, ?_, Or.inr ?_⟩
    · rw [Option.getD_some, ← List.append_assoc, List.dropLast_concat,
        hlogical]
      simp
    · rcases hline with hnil | ⟨unit, hunit, hwhite, hother⟩
      · simp at hnil
      · have hfront : unit ∈ front := by
          rcases List.mem_append.mp hunit with hfront | hlast
          · exact hfront
          · exact absurd (List.mem_singleton.mp hlast) hother
        exact ⟨unit, List.mem_append_left _ hfront, hwhite, hother⟩
  · exact ⟨line, logical none rest, by simp, hline⟩

/-- With a blank for its backslash a value is another one. -/
theorem strip_ne_continued {before more : Text}
    (hstripped : Stripped (before ++ [backslash]))
    (hmore : more = [] ∨ Tells more) :
    strip (before ++ blank :: more) ≠ before ++ [backslash] := by
  intro hsame
  cases before with
  | nil =>
      rcases hmore with rfl | ⟨unit, hunit, hwhite, hother⟩
      · exact absurd hsame (by decide)
      · have hmem := mem_strip (List.mem_append_right []
          (List.mem_cons_of_mem blank hunit)) hwhite
        rw [hsame, List.nil_append] at hmem
        exact hother (List.mem_singleton.mp hmem)
  | cons unit rest =>
      have hunit := hstripped.first unit rfl
      have hstarts := List.rdropWhile_prefix isWhite
        (unit :: rest ++ blank :: more)
      rw [strip] at hsame
      cases hright : (unit :: rest ++ blank :: more).rdropWhile isWhite with
      | nil =>
          rw [hright] at hsame
          cases hsame
      | cons other others =>
          rw [hright, List.cons_append, List.cons_prefix_cons] at hstarts
          rcases hstarts with ⟨rfl, hothers⟩
          rw [hright, List.dropWhile_cons_of_neg (by simp [hunit]),
            List.cons_append, List.cons.injEq] at hsame
          rw [hsame.2, List.prefix_append_right_inj,
            List.cons_prefix_cons] at hothers
          exact absurd hothers.1 (by decide)

/-! ## What was written -/

theorem Item.line_cases {item : Item}
    (hitem : ∀ entry, item.told = some entry → entry.Clean) :
    (∀ unit ∈ item.line, endsLine unit = false) ∧
      isComment item.line = false ∧ (item.line = [] ∨ Tells item.line) := by
  cases item with
  | header name =>
      have hname : ∀ unit ∈ name, endsLine unit = false := hitem _ rfl
      refine ⟨?_, rfl, Or.inr ⟨opening, by simp [line], by decide⟩⟩
      refine List.forall_mem_cons.mpr ⟨by decide, ?_⟩
      exact List.forall_mem_append.mpr ⟨hname, by decide⟩
  | setting key value =>
      have hclean : IsKey key ∧ IsLine value := hitem _ rfl
      rcases hclean with ⟨hkey, hvalue⟩
      refine ⟨?_, ?_, Or.inr ⟨equals, by simp [line], by decide⟩⟩
      · refine List.forall_mem_append.mpr ⟨hkey.inline, ?_⟩
        exact List.forall_mem_cons.mpr ⟨by decide, hvalue.inline⟩
      · rcases List.exists_cons_of_ne_nil hkey.filled with
          ⟨unit, rest, rfl⟩
        have hfirst := hkey.stripped.first unit rfl
        rw [isComment, line, List.cons_append,
          List.find?_cons_of_pos (by simp [hfirst])]
        exact hkey.read unit rfl
  | empty => exact ⟨by simp [line], rfl, Or.inl rfl⟩

theorem linesOf_print {items : List Item}
    (hitems : ∀ item ∈ items, ∀ unit ∈ item.line, endsLine unit = false) :
    linesOf (print items) = items.map Item.line ++ [[]] := by
  induction items with
  | nil => rfl
  | cons item rest ih =>
      have hrest := ih fun other hother =>
        hitems other (List.mem_cons_of_mem item hother)
      rw [print, List.flatMap_cons, linesOf, List.append_assoc,
        List.singleton_append, List.splitOnP_append_cons_of_forall_mem
          (hitems item List.mem_cons_self) newline rfl]
      rw [linesOf, print] at hrest
      rw [hrest]
      rfl

section

variable {items : List Item}
  (hitems : ∀ item ∈ items, ∀ entry, item.told = some entry → entry.Clean)
include hitems

/-- Lines that are not continued are read one by one. -/
theorem entriesOf_lines_iff :
    entriesOf (items.map Item.line ++ [[]]) = items.filterMap Item.told ↔
      ∀ item ∈ items, continued item.line = false := by
  induction items with
  | nil => simp [entriesOf, logical, isComment, continued, entryOf, strip,
      settingOf]
  | cons item rest ih =>
      have hrest := ih fun other hother =>
        hitems other (List.mem_cons_of_mem item hother)
      rcases Item.line_cases (hitems item List.mem_cons_self) with
        ⟨-, hcomment, -⟩
      cases hcontinued : continued item.line with
      | false =>
          have hentry : entryOf item.line = item.told := by
            cases item with
            | header name => exact entryOf_header name
            | setting key value =>
                have hclean : IsKey key ∧ IsLine value :=
                  hitems _ List.mem_cons_self _ rfl
                rw [Item.line, entryOf_setting hclean.1,
                  strip_eq_self hclean.2.stripped]
                rfl
            | empty => rfl
          have hlogical : logical none ((item :: rest).map Item.line ++ [[]]) =
              item.line :: logical none (rest.map Item.line ++ [[]]) := by
            rw [List.map_cons, List.cons_append, logical]
            simp [hcomment, hcontinued]
          rw [entriesOf] at hrest
          rw [entriesOf, hlogical, List.filterMap_cons, List.filterMap_cons,
            hentry, List.forall_mem_cons, ← hrest]
          cases item.told <;> simp [hcontinued]
      | true =>
          constructor
          · intro hread
            exfalso
            cases item with
            | empty => cases hcontinued
            | header name =>
                have hended : continued (opening :: name ++ [closing]) =
                    false :=
                  continued_append_cons (opening :: name) (by decide) []
                rw [Item.line, ← List.cons_append, hended] at hcontinued
                cases hcontinued
            | setting key value =>
                have hclean : IsKey key ∧ IsLine value :=
                  hitems _ List.mem_cons_self _ rfl
                have hvalue : continued value = true := by
                  rw [← hcontinued]
                  exact (continued_append_cons key (by decide) value).symm
                rcases exists_of_continued hvalue with ⟨before, rfl⟩
                have hlogical : logical none
                    ((Item.setting key (before ++ [backslash]) :: rest).map
                      Item.line ++ [[]]) =
                    logical (some (key ++ equals :: before ++ [blank]))
                      (rest.map Item.line ++ [[]]) := by
                  rw [List.map_cons, List.cons_append, logical]
                  simp only [hcomment, hcontinued, Option.getD_none,
                    List.nil_append, if_true, Bool.false_eq_true, if_false]
                  rw [Item.line, ← List.cons_append, ← List.append_assoc,
                    List.dropLast_concat]
                have hmore : ∃ more others,
                    logical (some (key ++ equals :: before ++ [blank]))
                        (rest.map Item.line ++ [[]]) =
                      (key ++ equals :: before ++ blank :: more) :: others ∧
                        (more = [] ∨ Tells more) := by
                  cases rest with
                  | nil =>
                      exact exists_logical_cons _ rfl (Or.inl rfl) []
                  | cons next others =>
                      rcases Item.line_cases (hitems next (by simp)) with
                        ⟨-, hnext, htells⟩
                      exact exists_logical_cons _ hnext htells _
                rcases hmore with ⟨more, others, hsome, htells⟩
                rw [entriesOf, hlogical, hsome, List.filterMap_cons,
                  List.append_assoc, List.cons_append,
                  entryOf_setting hclean.1, List.filterMap_cons] at hread
                injection hread with hfirst
                injection hfirst with _ hsame
                exact strip_ne_continued hclean.2.stripped htells hsame
          · intro hall
            rw [hall item List.mem_cons_self] at hcontinued
            cases hcontinued

end

/-- What is read could have been written line by line. -/
theorem clean_of_mem_entriesOf {source : Text} {entry : Entry}
    (hentry : entry ∈ entriesOf (linesOf source)) : entry.Clean := by
  rcases List.mem_filterMap.mp hentry with ⟨line, hline, hread⟩
  apply clean_of_entryOf _ hread
  apply sound_of_mem_logical _ _ line hline
  · intro other hother
    exact of_mem_splitOnP hother
  · intro other hother
    cases hother

theorem mem_filterMap_entry {items : List Item} {P : Entry → Prop} :
    (∀ entry ∈ items.filterMap Item.told, P entry) ↔
      ∀ item ∈ items, ∀ entry, item.told = some entry → P entry := by
  constructor
  · intro hall item hitem entry hentry
    exact hall entry (List.mem_filterMap.mpr ⟨item, hitem, hentry⟩)
  · intro hall entry hentry
    rcases List.mem_filterMap.mp hentry with ⟨item, hitem, hsome⟩
    exact hall item hitem entry hsome

theorem Entry.Well.clean {entry : Entry} (hwell : entry.Well) :
    entry.Clean := by
  cases entry with
  | header name => exact hwell
  | setting key value => exact ⟨hwell.1, hwell.2.toIsLine⟩

theorem Item.well_iff {item : Item}
    (hclean : ∀ entry, item.told = some entry → entry.Clean) :
    (∀ entry, item.told = some entry → entry.Well) ↔
      continued item.line = false := by
  cases item with
  | empty => simp [told, line, continued]
  | header name =>
      have hended : continued (opening :: name ++ [closing]) = false :=
        continued_append_cons (opening :: name) (by decide) []
      have hname : (Entry.header name).Well := hclean _ rfl
      rw [List.cons_append] at hended
      simp [told, line, hname, hended]
  | setting key value =>
      have hboth : IsKey key ∧ IsLine value := hclean _ rfl
      have hended : continued (key ++ equals :: value) = continued value :=
        continued_append_cons key (by decide) value
      simp only [told, line, hended, Option.some.injEq, forall_eq']
      constructor
      · intro hwell
        exact hwell.2.ended
      · intro hvalue
        exact ⟨hboth.1, hboth.2, hvalue⟩

/-- A file is read as it was written exactly where every line of it can be
read on its own. -/
theorem read_print_iff (name : Text) (items : List Item) :
    read (print (.header name :: items)) =
        (Item.header name :: items).filterMap Item.told ↔
      ∀ entry ∈ (Item.header name :: items).filterMap Item.told,
        entry.Well := by
  have hlines (hclean : ∀ item ∈ Item.header name :: items,
      ∀ entry, item.told = some entry → entry.Clean) :
      (read (print (.header name :: items)) =
          (Item.header name :: items).filterMap Item.told ↔
        ∀ entry ∈ (Item.header name :: items).filterMap Item.told,
          entry.Well) := by
    have hall := entriesOf_lines_iff hclean
    have hfirst : continued (Item.header name).line = false :=
      (Item.well_iff (hclean _ (by simp))).mp (by
        intro entry hentry
        have hwell := hclean _ List.mem_cons_self entry hentry
        cases hentry
        exact hwell)
    have hcomment := (Item.line_cases (hclean _ List.mem_cons_self)).2.1
    have hread : read (print (.header name :: items)) =
        entriesOf ((Item.header name :: items).map Item.line ++ [[]]) := by
      rw [read, linesOf_print fun item hitem =>
        (Item.line_cases (hclean item hitem)).1]
      have hlogical : logical none
          ((Item.header name :: items).map Item.line ++ [[]]) =
          (Item.header name).line ::
            logical none (items.map Item.line ++ [[]]) := by
        rw [List.map_cons, List.cons_append, logical]
        simp [hcomment, hfirst]
      rw [entriesOf, hlogical, List.filterMap_cons, Item.line,
        entryOf_header]
      exact List.dropWhile_cons_of_neg (by simp [Entry.isSetting])
    rw [hread, hall, mem_filterMap_entry]
    apply forall_congr'
    intro item
    apply forall_congr'
    intro hitem
    exact (Item.well_iff (hclean item hitem)).symm
  constructor
  · intro hread
    apply (hlines _).mp hread
    have hclean : ∀ entry ∈ (Item.header name :: items).filterMap
        Item.told, entry.Clean := by
      intro entry hentry
      rw [← hread] at hentry
      have hmem := (List.dropWhile_suffix Entry.isSetting).subset hentry
      exact clean_of_mem_entriesOf hmem
    exact mem_filterMap_entry.mp hclean
  · intro hwell
    apply (hlines _).mpr hwell
    intro item hitem entry hentry
    exact (mem_filterMap_entry.mp hwell item hitem entry hentry).clean

end UnitFile
