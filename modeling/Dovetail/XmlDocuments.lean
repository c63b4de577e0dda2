import Dovetail.FallibleSteps
import Dovetail.MarkupText
import Dovetail.XmlValues

/-!
# Documents in XML

A processor reads a document as its tags, each with the character data before
it.  Of XML 1.0 the reader takes what documents of elements are written with:
declarations without an internal subset, tags with attributes in double
quotes, and character data; it refuses everything else.  A document that is
written tag by tag is read as these tags, with the values it was written for.
-/

namespace XmlDocuments

open CodeUnits FallibleSteps XmlValues

/-! ## Tags -/

inductive Tag where
  | declaration (raw : Text)
  | starts (name : Text) (attributes : List (Text × Text)) (closed : Bool)
  | ends (name : Text)
  deriving DecidableEq

def exclamation : UInt16 := 33

def slash : UInt16 := 47

def equals : UInt16 := 61

def question : UInt16 := 63

def isWhite (unit : UInt16) : Bool :=
  unit == blank || unit == tab || unit == newline || unit == carriageReturn

def startsName (unit : UInt16) : Bool :=
  (65 ≤ unit && unit ≤ 90) || (97 ≤ unit && unit ≤ 122) || unit == 95

def isNameUnit (unit : UInt16) : Bool :=
  startsName unit || (48 ≤ unit && unit ≤ 57) || unit == 45 || unit == 46

/-- What of a tag says where its element is. -/
inductive Shape where
  | declaration
  | starts (name : Text) (closed : Bool)
  | ends (name : Text)

def Tag.shape : Tag → Shape
  | .declaration _ => .declaration
  | .starts name _ closed => .starts name closed
  | .ends name => .ends name

/-- Elements close in the order they were opened in, one of them holds all
others, and outside of it is only white space. -/
def nests (rooted : Bool) (stack : List Text) : List (Text × Shape) → Bool
  | [] => rooted && stack.isEmpty
  | (data, shape) :: rest =>
      (!stack.isEmpty || data.all isWhite) &&
        match shape with
        | .declaration => !rooted && nests rooted stack rest
        | .starts name closed =>
            (!stack.isEmpty || !rooted) &&
              nests true (if closed then stack else name :: stack) rest
        | .ends name =>
            match stack with
            | [] => false
            | top :: others => decide (top = name) && nests rooted others rest

/-- The tags of a document whose elements nest. -/
def nested (tags : List (Text × Tag)) : Bool :=
  nests false [] (tags.map fun read => (read.1, read.2.shape))

/-! ## Reading -/

inductive Mode where
  | data (raw : Text)
  | opened
  | declaration (raw : Text)
  | starts (name : Text)
  | inside (name : Text) (attributes : List (Text × Text)) (spaced : Bool)
  | key (name : Text) (attributes : List (Text × Text)) (key : Text)
  | assigned (name : Text) (attributes : List (Text × Text)) (key : Text)
  | value (name : Text) (attributes : List (Text × Text)) (key raw : Text)
  | closing (name : Text) (attributes : List (Text × Text))
  | ends (name : Text)

structure Reading where
  tags : List (Text × Tag)
  before : Text
  mode : Mode

namespace Reading

def start : Reading := ⟨[], [], .data []⟩

def moved (reading : Reading) (mode : Mode) : Option Reading :=
  some { reading with mode }

def closes (reading : Reading) (tag : Tag) : Option Reading :=
  some ⟨reading.tags ++ [(reading.before, tag)], [], .data []⟩

/-- The end of a start tag; no attribute is given twice. -/
def closesStart (reading : Reading) (name : Text)
    (attributes : List (Text × Text)) (closed : Bool) : Option Reading :=
  if (attributes.map Prod.fst).Nodup then
    reading.closes (.starts name attributes closed)
  else none

def step (reading : Reading) (unit : UInt16) : Option Reading :=
  match reading.mode with
  | .data raw =>
      if unit = lessThan then
        (readValue .content raw).map fun before =>
          { reading with before, mode := .opened }
      else reading.moved (.data (raw ++ [unit]))
  | .opened =>
      if unit = slash then reading.moved (.ends [])
      else if unit = exclamation ∨ unit = question then
        reading.moved (.declaration [unit])
      else if startsName unit then reading.moved (.starts [unit])
      else none
  | .declaration raw =>
      if unit = greaterThan then
        if legal raw ∧ (raw.head? = some question →
            raw.getLast? = some question) then
          reading.closes (.declaration raw)
        else none
      else if unit = lessThan ∨ unit = 91 then none
      else reading.moved (.declaration (raw ++ [unit]))
  | .starts name =>
      if isNameUnit unit then reading.moved (.starts (name ++ [unit]))
      else if isWhite unit then reading.moved (.inside name [] true)
      else if unit = greaterThan then reading.closesStart name [] false
      else if unit = slash then reading.moved (.closing name [])
      else none
  | .inside name attributes spaced =>
      if isWhite unit then reading.moved (.inside name attributes true)
      else if unit = greaterThan then
        reading.closesStart name attributes false
      else if unit = slash then reading.moved (.closing name attributes)
      else if spaced && startsName unit then
        reading.moved (.key name attributes [unit])
      else none
  | .key name attributes key =>
      if isNameUnit unit then
        reading.moved (.key name attributes (key ++ [unit]))
      else if unit = equals then reading.moved (.assigned name attributes key)
      else none
  | .assigned name attributes key =>
      if unit = quote then reading.moved (.value name attributes key [])
      else none
  | .value name attributes key raw =>
      if unit = quote then
        (readValue .quoted raw).map fun value =>
          { reading with
            mode := .inside name (attributes ++ [(key, value)]) false }
      else reading.moved (.value name attributes key (raw ++ [unit]))
  | .closing name attributes =>
      if unit = greaterThan then reading.closesStart name attributes true
      else none
  | .ends name =>
      if isNameUnit unit then reading.moved (.ends (name ++ [unit]))
      else if unit = greaterThan then reading.closes (.ends name)
      else none

def run (reading : Reading) (source : Text) : Option Reading :=
  source.foldlM step reading

def finish (reading : Reading) : Option (List (Text × Tag)) :=
  match reading.mode with
  | .data raw =>
      (readValue .content raw).bind fun after =>
        if after.all isWhite && nested reading.tags then
          some reading.tags
        else none
  | _ => none

@[simp] theorem run_nil (reading : Reading) : reading.run [] = some reading :=
  rfl

theorem run_cons (reading : Reading) (unit : UInt16) (rest : Text) :
    reading.run (unit :: rest) = (reading.step unit).bind (·.run rest) := by
  rw [run, List.foldlM_cons]
  rfl

theorem run_append (reading : Reading) (before after : Text) :
    reading.run (before ++ after) =
      (reading.run before).bind (·.run after) := by
  rw [run, List.foldlM_append]
  rfl

end Reading

/-- The document as a processor reads it. -/
def read (source : Text) : Option (List (Text × Tag)) :=
  (Reading.start.run source).bind Reading.finish

/-! ## Writing -/

structure WrittenAttribute where
  gap : Text
  name : Text
  raw : Text
  deriving DecidableEq

inductive WrittenTag where
  | declaration (raw : Text)
  | starts (name : Text) (attributes : List WrittenAttribute) (gap : Text)
      (closed : Bool)
  | ends (name : Text)
  deriving DecidableEq

/-- Character data with the tag behind it, as they are written. -/
structure Segment where
  raw : Text
  tag : WrittenTag
  deriving DecidableEq

def WrittenAttribute.print (entry : WrittenAttribute) : Text :=
  entry.gap ++ entry.name ++ [equals, quote] ++ entry.raw ++ [quote]

def WrittenTag.print : WrittenTag → Text
  | .declaration raw => lessThan :: (raw ++ [greaterThan])
  | .starts name attributes gap closed =>
      lessThan :: (name ++ attributes.flatMap WrittenAttribute.print ++ gap ++
        if closed then [slash, greaterThan] else [greaterThan])
  | .ends name => lessThan :: slash :: (name ++ [greaterThan])

def Segment.print (segment : Segment) : Text :=
  segment.raw ++ segment.tag.print

def print (segments : List Segment) : Text := segments.flatMap Segment.print

/-! ## What is read of it -/

def WrittenAttribute.value (entry : WrittenAttribute) :
    Option (Text × Text) :=
  (readValue .quoted entry.raw).map (entry.name, ·)

def WrittenTag.value : WrittenTag → Option Tag
  | .declaration raw => some (.declaration raw)
  | .starts name attributes _ closed =>
      (attributes.mapM WrittenAttribute.value).map (.starts name · closed)
  | .ends name => some (.ends name)

def Segment.value (segment : Segment) : Option (Text × Tag) :=
  (readValue .content segment.raw).bind fun data =>
    segment.tag.value.map (data, ·)

def values (segments : List Segment) : Option (List (Text × Tag)) :=
  segments.mapM Segment.value

/-! ## Well written -/

def isName : Text → Bool
  | [] => false
  | unit :: rest => startsName unit && rest.all isNameUnit

theorem exists_of_isName {name : Text} (hname : isName name = true) :
    ∃ unit rest, name = unit :: rest ∧ startsName unit = true ∧
      ∀ other ∈ rest, isNameUnit other = true := by
  cases name with
  | nil => cases hname
  | cons unit rest =>
      rw [isName, Bool.and_eq_true] at hname
      exact ⟨unit, rest, rfl, hname.1, List.all_eq_true.mp hname.2⟩

structure WrittenAttribute.Well (entry : WrittenAttribute) : Prop where
  spaced : entry.gap ≠ []
  white : ∀ unit ∈ entry.gap, isWhite unit = true
  named : isName entry.name = true

def WrittenTag.Well : WrittenTag → Prop
  | .declaration raw =>
      (raw.head? = some exclamation ∨ raw.head? = some question) ∧
        (∀ unit ∈ raw, unit ≠ greaterThan ∧ unit ≠ lessThan ∧ unit ≠ 91) ∧
        legal raw = true ∧
        (raw.head? = some question → raw.getLast? = some question)
  | .starts name attributes gap _ =>
      isName name = true ∧ (∀ entry ∈ attributes, entry.Well) ∧
        (attributes.map (·.name)).Nodup ∧ ∀ unit ∈ gap, isWhite unit = true
  | .ends name => isName name = true

def WrittenTag.attributes : WrittenTag → List WrittenAttribute
  | .starts _ attributes _ _ => attributes
  | _ => []

/-- Every mark that would end a value is written as an entity. -/
def Segment.Closed (segment : Segment) : Prop :=
  lessThan ∉ segment.raw ∧
    ∀ entry ∈ segment.tag.attributes, quote ∉ entry.raw

/-! ## Reading what was written -/

namespace Reading

variable (tags : List (Text × Tag)) (before : Text)

theorem run_data {raw : Text} (hraw : lessThan ∉ raw) (seen : Text) :
    run ⟨tags, before, .data seen⟩ raw =
      some ⟨tags, before, .data (seen ++ raw)⟩ := by
  induction raw generalizing seen with
  | nil => simp
  | cons unit rest ih =>
      rcases List.ne_and_not_mem_of_not_mem_cons hraw with ⟨hunit, hrest⟩
      rw [run_cons, step]
      simp only [if_neg hunit.symm, moved, Option.bind_some]
      rw [ih hrest, List.append_assoc]
      rfl

theorem run_declaration {raw : Text}
    (hraw : ∀ unit ∈ raw, unit ≠ greaterThan ∧ unit ≠ lessThan ∧ unit ≠ 91)
    (seen : Text) :
    run ⟨tags, before, .declaration seen⟩ raw =
      some ⟨tags, before, .declaration (seen ++ raw)⟩ := by
  induction raw generalizing seen with
  | nil => simp
  | cons unit rest ih =>
      have hunit := hraw unit (by simp)
      rw [run_cons, step]
      simp only [if_neg hunit.1, hunit.2.1, hunit.2.2, or_self, if_false,
        moved, Option.bind_some]
      rw [ih (fun other hother => hraw other (by simp [hother])),
        List.append_assoc]
      rfl

theorem run_starts {units : Text}
    (hunits : ∀ unit ∈ units, isNameUnit unit = true) (seen : Text) :
    run ⟨tags, before, .starts seen⟩ units =
      some ⟨tags, before, .starts (seen ++ units)⟩ := by
  induction units generalizing seen with
  | nil => simp
  | cons unit rest ih =>
      rw [run_cons, step]
      simp only [hunits unit (by simp), if_true, moved, Option.bind_some]
      rw [ih (fun other hother => hunits other (by simp [hother])),
        List.append_assoc]
      rfl

theorem run_ends {units : Text}
    (hunits : ∀ unit ∈ units, isNameUnit unit = true) (seen : Text) :
    run ⟨tags, before, .ends seen⟩ units =
      some ⟨tags, before, .ends (seen ++ units)⟩ := by
  induction units generalizing seen with
  | nil => simp
  | cons unit rest ih =>
      rw [run_cons, step]
      simp only [hunits unit (by simp), if_true, moved, Option.bind_some]
      rw [ih (fun other hother => hunits other (by simp [hother])),
        List.append_assoc]
      rfl

variable (name : Text) (attributes : List (Text × Text))

theorem run_key {units : Text}
    (hunits : ∀ unit ∈ units, isNameUnit unit = true) (seen : Text) :
    run ⟨tags, before, .key name attributes seen⟩ units =
      some ⟨tags, before, .key name attributes (seen ++ units)⟩ := by
  induction units generalizing seen with
  | nil => simp
  | cons unit rest ih =>
      rw [run_cons, step]
      simp only [hunits unit (by simp), if_true, moved, Option.bind_some]
      rw [ih (fun other hother => hunits other (by simp [hother])),
        List.append_assoc]
      rfl

theorem run_value {raw : Text} (hraw : quote ∉ raw) (key seen : Text) :
    run ⟨tags, before, .value name attributes key seen⟩ raw =
      some ⟨tags, before, .value name attributes key (seen ++ raw)⟩ := by
  induction raw generalizing seen with
  | nil => simp
  | cons unit rest ih =>
      rcases List.ne_and_not_mem_of_not_mem_cons hraw with ⟨hunit, hrest⟩
      rw [run_cons, step]
      simp only [if_neg hunit.symm, moved, Option.bind_some]
      rw [ih hrest, List.append_assoc]
      rfl

theorem run_white {gap : Text} (hgap : ∀ unit ∈ gap, isWhite unit = true)
    (spaced : Bool) :
    run ⟨tags, before, .inside name attributes spaced⟩ gap =
      some ⟨tags, before,
        .inside name attributes (spaced || !gap.isEmpty)⟩ := by
  induction gap generalizing spaced with
  | nil => simp
  | cons unit rest ih =>
      rw [run_cons, step]
      simp only [hgap unit (by simp), if_true, moved, Option.bind_some]
      rw [ih fun other hother => hgap other (by simp [hother])]
      simp

/-- Behind the name of a tag or one of its attributes. -/
inductive Rests : Mode → Text → List (Text × Text) → Prop
  | named (name : Text) : Rests (.starts name) name []
  | given (name : Text) (attributes : List (Text × Text))
      (spaced : Bool) : Rests (.inside name attributes spaced) name attributes

variable {tags before name attributes} {mode : Mode}
  (hrests : Rests mode name attributes)
include hrests

theorem run_gap {gap : Text} (hne : gap ≠ [])
    (hgap : ∀ unit ∈ gap, isWhite unit = true) :
    run ⟨tags, before, mode⟩ gap =
      some ⟨tags, before, .inside name attributes true⟩ := by
  cases hrests with
  | given spaced =>
      rw [run_white tags before name attributes hgap]
      simp [hne]
  | named =>
      rcases List.exists_cons_of_ne_nil hne with ⟨unit, rest, rfl⟩
      have hwhite := hgap unit (by simp)
      have hunit : isNameUnit unit = false := by
        simp only [isWhite, Bool.or_eq_true, beq_iff_eq] at hwhite
        rcases hwhite with ((rfl | rfl) | rfl) | rfl <;> decide
      rw [run_cons, step]
      simp only [hunit, hwhite, moved, if_true, Bool.false_eq_true, if_false,
        Option.bind_some]
      have hrest := run_white tags before name []
        (fun other hother => hgap other (by simp [hother]) :
          ∀ other ∈ rest, isWhite other = true) true
      simpa using hrest

theorem run_attribute {entry : WrittenAttribute} (hwell : entry.Well)
    (hraw : quote ∉ entry.raw) :
    run ⟨tags, before, mode⟩ entry.print =
      entry.value.map fun value =>
        ⟨tags, before, .inside name (attributes ++ [value]) false⟩ := by
  rcases exists_of_isName hwell.named with
    ⟨unit, rest, hname, hstarts, hrest⟩
  have hwhite : isWhite unit = false := by
    by_contra hwhite
    simp only [Bool.not_eq_false, isWhite, Bool.or_eq_true,
      beq_iff_eq] at hwhite
    rcases hwhite with ((rfl | rfl) | rfl) | rfl <;> cases hstarts
  have hmarks : unit ≠ greaterThan ∧ unit ≠ slash := by
    constructor <;> rintro rfl <;> cases hstarts
  have hequals : isNameUnit equals = false := rfl
  have hprint : entry.print = entry.gap ++ (unit :: (rest ++
      (equals :: quote :: (entry.raw ++ [quote])))) := by
    simp [WrittenAttribute.print, hname]
  have hkey := run_key tags before name attributes hrest [unit]
  rw [hprint, run_append, run_gap hrests hwell.spaced hwell.white,
    Option.bind_some, run_cons]
  simp only [step, hwhite, hmarks.1, hmarks.2, hstarts, Bool.and_self,
    Bool.false_eq_true, if_true, if_false, moved, Option.bind_some]
  rw [run_append, hkey, Option.bind_some, run_cons]
  simp only [step, hequals, if_true, moved, Bool.false_eq_true, if_false,
    Option.bind_some]
  rw [run_cons]
  simp only [step, if_true, moved, Option.bind_some]
  rw [run_append, run_value tags before name attributes hraw,
    Option.bind_some, run_cons]
  simp only [step, if_true, List.nil_append, List.singleton_append, ← hname,
    WrittenAttribute.value, Option.map_map, Option.bind_map]
  cases readValue .quoted entry.raw <;> rfl

theorem run_closing {gap : Text} (hgap : ∀ unit ∈ gap, isWhite unit = true)
    (closed : Bool) :
    run ⟨tags, before, mode⟩ (gap ++
        if closed then [slash, greaterThan] else [greaterThan]) =
      closesStart ⟨tags, before, mode⟩ name attributes closed := by
  have hname : isNameUnit slash = false ∧ isNameUnit greaterThan = false :=
    ⟨rfl, rfl⟩
  have hwhite : isWhite slash = false ∧ isWhite greaterThan = false :=
    ⟨rfl, rfl⟩
  have hdifferent : slash ≠ greaterThan := by decide
  have hending : ∀ {mode : Mode}, Rests mode name attributes →
      run ⟨tags, before, mode⟩
          (if closed then [slash, greaterThan] else [greaterThan]) =
        closesStart ⟨tags, before, mode⟩ name attributes closed := by
    intro mode hrests
    have hone (reached : Option Reading) :
        (reached.bind fun reading => some reading) = reached := by
      cases reached <;> rfl
    cases hrests <;> cases closed <;>
      simp [run_cons, step, hname, hwhite, hdifferent, moved, closesStart,
        closes, hone]
  by_cases hempty : gap = []
  · rw [hempty, List.nil_append]
    exact hending hrests
  · rw [run_append, run_gap hrests hempty hgap, Option.bind_some,
      hending (Rests.given name attributes true)]
    rfl

/-- The attributes of a tag and its end. -/
theorem run_attributes {entries : List WrittenAttribute}
    (hwell : ∀ entry ∈ entries, entry.Well)
    (hraw : ∀ entry ∈ entries, quote ∉ entry.raw) {gap : Text}
    (hgap : ∀ unit ∈ gap, isWhite unit = true) (closed : Bool) :
    run ⟨tags, before, mode⟩ (entries.flatMap WrittenAttribute.print ++ (gap ++
        if closed then [slash, greaterThan] else [greaterThan])) =
      (entries.mapM WrittenAttribute.value).bind fun values =>
        closesStart ⟨tags, before, mode⟩ name (attributes ++ values)
          closed := by
  induction entries generalizing mode attributes with
  | nil =>
      rw [List.flatMap_nil, List.nil_append, run_closing hrests hgap]
      simp
  | cons entry rest ih =>
      rw [List.flatMap_cons, List.append_assoc, run_append,
        run_attribute hrests (hwell entry (by simp)) (hraw entry (by simp)),
        List.mapM_cons]
      cases hvalue : entry.value with
      | none => rfl
      | some value =>
          have hrest := ih (Rests.given name (attributes ++ [value]) false)
            (fun other hother => hwell other (by simp [hother]))
            (fun other hother => hraw other (by simp [hother]))
          rw [Option.map_some, Option.bind_some, hrest]
          cases hothers : rest.mapM WrittenAttribute.value with
          | none => rfl
          | some values =>
              simp [closesStart, closes]

end Reading

theorem isWhite_cases {unit : UInt16} (hunit : isWhite unit = true) :
    unit ∈ [blank, tab, newline, carriageReturn] := by
  simp only [isWhite, Bool.or_eq_true, beq_iff_eq] at hunit
  rcases hunit with ((rfl | rfl) | rfl) | rfl <;> decide

theorem isWhite_unifyLines {white : Text}
    (hwhite : ∀ unit ∈ white, isWhite unit = true) :
    ∀ unit ∈ unifyLines white, isWhite unit = true := by
  fun_induction unifyLines white with
  | case1 => simp
  | case2 rest ih =>
      refine List.forall_mem_cons.mpr ⟨rfl, ?_⟩
      apply ih
      intro unit hunit
      exact hwhite unit (by simp [hunit])
  | case3 unit rest hpair ih =>
      refine List.forall_mem_cons.mpr ⟨?_, ?_⟩
      · split_ifs
        · rfl
        · exact hwhite unit (by simp)
      · apply ih
        intro other hother
        exact hwhite other (by simp [hother])

/-- White space between tags is read as such. -/
theorem readValue_white {white : Text}
    (hwhite : ∀ unit ∈ white, isWhite unit = true) :
    ∃ value, readValue .content white = some value ∧
      value.all isWhite = true := by
  have hunits : ∀ unit ∈ [blank, tab, newline, carriageReturn],
      isSurrogate unit = false ∧ isChar unit = true ∧ unit ≠ ampersand ∧
        unit ≠ lessThan ∧ unit ≠ greaterThan := by decide
  have hall := fun unit hunit => hunits unit (isWhite_cases
    (hwhite unit hunit))
  have hunified := isWhite_unifyLines hwhite
  have hlegal : legal white = true := by
    rw [legal, Bool.and_eq_true]
    constructor
    · exact wellFormed_of_forall fun unit hunit => (hall unit hunit).1
    · exact List.all_eq_true.mpr fun unit hunit => (hall unit hunit).2.1
  have hends : Place.content.ends white = false := by
    apply decide_eq_false
    intro hwithin
    have hmark := hwithin.subset (show greaterThan ∈ text "]]>" by decide)
    exact (hall _ hmark).2.2.2.2 rfl
  have hplain := @decode_plain .content (unifyLines white)
    (fun unit hunit => by
      have hunit := hunits unit (isWhite_cases (hunified unit hunit))
      exact ⟨hunit.2.2.1, hunit.2.2.2.1⟩) []
  refine ⟨(unifyLines white).map Place.content.space, ?_, ?_⟩
  · rw [List.append_nil] at hplain
    rw [readValue, hlegal, hends, hplain]
    simp [decode]
  · apply List.all_eq_true.mpr
    intro unit hunit
    rcases List.mem_map.mp hunit with ⟨other, hother, rfl⟩
    exact hunified other hother

theorem map_fst_of_mapM_eq_some {entries : List WrittenAttribute}
    {values : List (Text × Text)}
    (hvalues : entries.mapM WrittenAttribute.value = some values) :
    values.map Prod.fst = entries.map (·.name) := by
  induction entries generalizing values with
  | nil =>
      cases hvalues
      rfl
  | cons entry rest ih =>
      rw [List.mapM_cons] at hvalues
      rcases Option.bind_eq_some_iff.mp hvalues with ⟨value, hvalue, hrest⟩
      rcases Option.bind_eq_some_iff.mp hrest with ⟨others, hothers, hcons⟩
      cases hcons
      rcases Option.map_eq_some_iff.mp hvalue with ⟨_, -, rfl⟩
      rw [List.map_cons, List.map_cons, ih hothers]

theorem run_segment {segment : Segment} (hwell : segment.tag.Well)
    (hclosed : segment.Closed) (tags : List (Text × Tag)) :
    Reading.run ⟨tags, [], .data []⟩ segment.print =
      segment.value.map fun value => ⟨tags ++ [value], [], .data []⟩ := by
  rcases segment with ⟨raw, tag⟩
  have hdata := Reading.run_data tags [] hclosed.1 []
  have hopened (before : Text) (markup : Text) (result : Option Tag)
      (hmarkup : Reading.run ⟨tags, before, .opened⟩ markup =
        result.map fun value => ⟨tags ++ [(before, value)], [], .data []⟩) :
      Reading.run ⟨tags, before, .opened⟩ markup =
        (result.map (before, ·)).map fun value =>
          ⟨tags ++ [value], [], .data []⟩ := by
    rw [hmarkup, Option.map_map]
    rfl
  have hstart (markup : Text) :
      Reading.run ⟨tags, [], .data []⟩ (raw ++ lessThan :: markup) =
        (readValue .content raw).bind fun before =>
          Reading.run ⟨tags, before, .opened⟩ markup := by
    rw [Reading.run_append, hdata, Option.bind_some, Reading.run_cons]
    simp only [Reading.step, if_true, List.nil_append]
    cases readValue .content raw <;> rfl
  have hall (markup : Text)
      (hmarkup : ∀ before, Reading.run ⟨tags, before, .opened⟩ markup =
        tag.value.map fun value => ⟨tags ++ [(before, value)], [], .data []⟩) :
      Reading.run ⟨tags, [], .data []⟩ (raw ++ lessThan :: markup) =
        (Segment.value ⟨raw, tag⟩).map fun value =>
          ⟨tags ++ [value], [], .data []⟩ := by
    rw [hstart, Segment.value]
    cases readValue .content raw with
    | none => rfl
    | some before => exact hopened before markup tag.value (hmarkup before)
  cases tag with
  | declaration text =>
      apply hall
      intro before
      rcases hwell with ⟨hhead, hunits, hlegal, hends⟩
      have hfirst : ∃ unit rest, text = unit :: rest ∧
          (unit = exclamation ∨ unit = question) := by
        rcases hhead with hhead | hhead
        · rcases List.head?_eq_some_iff.mp hhead with ⟨rest, hrest⟩
          exact ⟨exclamation, rest, hrest, Or.inl rfl⟩
        · rcases List.head?_eq_some_iff.mp hhead with ⟨rest, hrest⟩
          exact ⟨question, rest, hrest, Or.inr rfl⟩
      rcases hfirst with ⟨unit, rest, rfl, hunit⟩
      have hslash : unit ≠ slash := by
        rcases hunit with rfl | rfl <;> decide
      have hrest : ∀ other ∈ rest, other ≠ greaterThan ∧ other ≠ lessThan ∧
          other ≠ 91 := by
        intro other hother
        apply hunits
        simp [hother]
      rw [List.cons_append, Reading.run_cons]
      simp only [Reading.step, if_neg hslash, if_pos hunit, Reading.moved,
        Option.bind_some]
      rw [Reading.run_append, Reading.run_declaration tags before hrest,
        Option.bind_some, Reading.run_cons]
      simp only [Reading.step, if_true, List.singleton_append,
        if_pos (And.intro hlegal hends)]
      rfl
  | ends name =>
      apply hall
      intro before
      have hunits : ∀ unit ∈ name, isNameUnit unit = true := by
        rcases exists_of_isName hwell with ⟨unit, rest, rfl, hstarts, hrest⟩
        exact List.forall_mem_cons.mpr
          ⟨by simp [isNameUnit, hstarts], hrest⟩
      rw [Reading.run_cons]
      simp only [Reading.step, if_true, Reading.moved, Option.bind_some]
      rw [Reading.run_append, Reading.run_ends tags before hunits,
        Option.bind_some, Reading.run_cons]
      rfl
  | starts name attributes gap closed =>
      rcases hwell with ⟨hname, hentries, hnodup, hgap⟩
      rcases exists_of_isName hname with ⟨unit, rest, rfl, hstarts, hrest⟩
      have hmarks : unit ≠ slash ∧ ¬ (unit = exclamation ∨ unit = question) := by
        constructor
        · rintro rfl
          cases hstarts
        · rintro (rfl | rfl) <;> cases hstarts
      simp only [List.append_assoc, Segment.print, WrittenTag.print]
      apply hall
      intro before
      rw [List.cons_append, Reading.run_cons]
      simp only [Reading.step, if_neg hmarks.1, if_neg hmarks.2,
        if_pos hstarts, Reading.moved, Option.bind_some]
      rw [Reading.run_append, Reading.run_starts tags before hrest,
        Option.bind_some, List.singleton_append,
        Reading.run_attributes (Reading.Rests.named (unit :: rest)) hentries
          hclosed.2 hgap, WrittenTag.value]
      cases hvalues : attributes.mapM WrittenAttribute.value with
      | none => rfl
      | some values =>
          have hnames := map_fst_of_mapM_eq_some hvalues
          rw [← hnames] at hnodup
          simp [Reading.closesStart, Reading.closes, hnodup]

/-- A document with its values closed is read as its tags. -/
theorem read_print {segments : List Segment}
    (hwell : ∀ segment ∈ segments, segment.tag.Well)
    (hclosed : ∀ segment ∈ segments, segment.Closed) {after : Text}
    (hafter : ∀ unit ∈ after, isWhite unit = true) :
    read (print segments ++ after) =
      (values segments).bind fun tags =>
        if nested tags then some tags else none := by
  have hrun : ∀ tags, Reading.run ⟨tags, [], .data []⟩ (print segments) =
      (values segments).map fun others =>
        ⟨tags ++ others, [], .data []⟩ := by
    induction segments with
    | nil =>
        intro tags
        simp [print, values]
    | cons segment rest ih =>
        intro tags
        have hrest := ih (fun other hother => hwell other (by simp [hother]))
          (fun other hother => hclosed other (by simp [hother]))
        rw [print, List.flatMap_cons, Reading.run_append,
          run_segment (hwell segment (by simp)) (hclosed segment (by simp)),
          values, List.mapM_cons]
        cases segment.value with
        | none => rfl
        | some value =>
            rw [Option.map_some, Option.bind_some]
            change Reading.run _ (print rest) = _
            rw [hrest]
            change _ = Option.map _ ((values rest).bind _)
            cases values rest with
            | none => rfl
            | some others => simp
  have hmark : lessThan ∉ after := by
    intro hmem
    exact absurd (hafter _ hmem) (by decide)
  rcases readValue_white hafter with ⟨value, hvalue, hall⟩
  rw [read, Reading.start, Reading.run_append, hrun]
  cases values segments with
  | none => rfl
  | some tags =>
      rw [Option.map_some, Option.bind_some, Reading.run_data _ _ hmark]
      simp only [List.nil_append, Option.bind_some, Reading.finish, hvalue,
        hall, Bool.true_and]

/-! ## Structure -/

def WrittenTag.shape : WrittenTag → Shape
  | .declaration _ => .declaration
  | .starts name _ _ closed => .starts name closed
  | .ends name => .ends name

def Segment.outline (segment : Segment) : Text × Shape :=
  (segment.raw, segment.tag.shape)

theorem shape_of_value {written : WrittenTag} {tag : Tag}
    (hvalue : written.value = some tag) : tag.shape = written.shape := by
  cases written with
  | declaration raw =>
      cases hvalue
      rfl
  | ends name =>
      cases hvalue
      rfl
  | starts name attributes gap closed =>
      rcases Option.map_eq_some_iff.mp hvalue with ⟨values, -, rfl⟩
      rfl

/-- What nests as it is written nests as it is read. -/
theorem nests_of_values {segments : List Segment}
    {tags : List (Text × Tag)} (hvalues : values segments = some tags)
    {rooted : Bool} {stack : List Text}
    (hnests : nests rooted stack (segments.map Segment.outline) = true) :
    nests rooted stack (tags.map fun read => (read.1, read.2.shape)) =
      true := by
  induction segments generalizing tags rooted stack with
  | nil =>
      cases hvalues
      exact hnests
  | cons segment rest ih =>
      rw [values, List.mapM_cons] at hvalues
      rcases Option.bind_eq_some_iff.mp hvalues with ⟨value, hvalue, hrest⟩
      rcases Option.bind_eq_some_iff.mp hrest with ⟨others, hothers, hcons⟩
      cases hcons
      rcases Option.bind_eq_some_iff.mp hvalue with ⟨data, hdata, hmap⟩
      rcases Option.map_eq_some_iff.mp hmap with ⟨tag, htag, rfl⟩
      change nests rooted stack ((segment.raw, segment.tag.shape) ::
        rest.map Segment.outline) = true at hnests
      rw [nests.eq_def, Bool.and_eq_true] at hnests
      change nests rooted stack ((data, tag.shape) :: others.map
        fun read => (read.1, read.2.shape)) = true
      rw [nests.eq_def, Bool.and_eq_true]
      constructor
      · rcases Bool.or_eq_true_iff.mp hnests.1 with hinside | hwhite
        · rw [hinside, Bool.true_or]
        · rcases readValue_white (List.all_eq_true.mp hwhite) with
            ⟨read, hread, hall⟩
          rw [hdata] at hread
          cases hread
          rw [hall, Bool.or_true]
      · have hshape := shape_of_value htag
        have hafter := hnests.2
        simp only [hshape] at hafter ⊢
        generalize segment.tag.shape = shape at hafter ⊢
        cases shape with
        | declaration =>
            simp only [Bool.and_eq_true] at hafter ⊢
            exact ⟨hafter.1, ih hothers hafter.2⟩
        | starts name closed =>
            simp only [Bool.and_eq_true] at hafter ⊢
            exact ⟨hafter.1, ih hothers hafter.2⟩
        | ends name =>
            cases stack with
            | nil => cases hafter
            | cons top stack =>
                simp only [Bool.and_eq_true] at hafter ⊢
                exact ⟨hafter.1, ih hothers hafter.2⟩

section

variable {segments : List Segment} {after : Text}
  (hwell : ∀ segment ∈ segments, segment.tag.Well)
  (hafter : ∀ unit ∈ after, isWhite unit = true)
  (hnests : nests false [] (segments.map Segment.outline) = true)
include hwell hafter hnests

/-- A document whose elements nest is read as what was written. -/
theorem read_print_eq_values
    (hclosed : ∀ segment ∈ segments, segment.Closed) :
    read (print segments ++ after) = values segments := by
  rw [read_print hwell hclosed hafter]
  cases hvalues : values segments with
  | none => rfl
  | some tags =>
      rw [Option.bind_some, nested, if_pos (nests_of_values hvalues hnests)]

end

/-! ## What a document is written for -/

def WrittenAttribute.meant (entry : WrittenAttribute) : Text × Text :=
  (entry.name, entry.raw)

def WrittenTag.meant : WrittenTag → Tag
  | .declaration raw => .declaration raw
  | .starts name attributes _ closed =>
      .starts name (attributes.map WrittenAttribute.meant) closed
  | .ends name => .ends name

def Segment.meant (segment : Segment) : Text × Tag :=
  (segment.raw, segment.tag.meant)

/-- The one document is read as the other one was meant. -/
def Reads (written plain : List Segment) : Prop :=
  values written = some (plain.map Segment.meant)

instance (written plain : List Segment) : Decidable (Reads written plain) :=
  inferInstanceAs (Decidable (values written = some (plain.map Segment.meant)))

theorem reads_nil : Reads [] [] := rfl

theorem reads_cons {written plain : Segment} {rest others : List Segment} :
    Reads (written :: rest) (plain :: others) ↔
      written.value = some plain.meant ∧ Reads rest others := by
  unfold Reads values
  rw [List.mapM_cons]
  cases written.value with
  | none => simp
  | some value =>
      cases rest.mapM Segment.value with
      | none => simp
      | some values => simp

theorem reads_declaration {data : Text}
    (hdata : readValue .content data = some data) (raw : Text)
    {rest others : List Segment} :
    Reads (⟨data, .declaration raw⟩ :: rest)
        (⟨data, .declaration raw⟩ :: others) ↔ Reads rest others := by
  rw [reads_cons]
  simp [Segment.value, Segment.meant, WrittenTag.value, WrittenTag.meant,
    hdata]

theorem reads_append {written plain rest others : List Segment}
    (hlength : written.length = plain.length) :
    Reads (written ++ rest) (plain ++ others) ↔
      Reads written plain ∧ Reads rest others := by
  induction written generalizing plain with
  | nil =>
      have hplain : plain = [] := List.length_eq_zero_iff.mp hlength.symm
      simp [hplain, reads_nil]
  | cons segment written ih =>
      rcases List.exists_cons_of_length_eq_add_one hlength.symm with
        ⟨other, plain, rfl⟩
      rw [List.cons_append, List.cons_append, reads_cons, reads_cons,
        ih (by simpa using hlength), and_assoc]

theorem reads_flatMap {Item : Type} {items : List Item}
    {written plain : Item → List Segment}
    (hlength : ∀ item, (written item).length = (plain item).length) :
    Reads (items.flatMap written) (items.flatMap plain) ↔
      ∀ item ∈ items, Reads (written item) (plain item) := by
  induction items with
  | nil => simp [reads_nil]
  | cons item rest ih =>
      rw [List.flatMap_cons, List.flatMap_cons, reads_append (hlength item),
        ih, List.forall_mem_cons]

/-! ## Parts of a document -/

/-- An element with what it holds and the data before its end. -/
def holding (gap name : Text) (attributes : List WrittenAttribute)
    (body : List Segment) (after : Text) : List Segment :=
  ⟨gap, .starts name attributes [] false⟩ :: (body ++ [⟨after, .ends name⟩])

@[simp] theorem print_nil : print [] = [] := rfl

@[simp] theorem print_cons (segment : Segment) (rest : List Segment) :
    print (segment :: rest) = segment.print ++ print rest := rfl

@[simp] theorem print_append (first second : List Segment) :
    print (first ++ second) = print first ++ print second :=
  List.flatMap_append

theorem print_flatMap {Item : Type} (items : List Item)
    (part : Item → List Segment) :
    print (items.flatMap part) = items.flatMap fun item => print (part item) :=
  List.flatMap_assoc

@[simp] theorem length_holding (gap name : Text)
    (attributes : List WrittenAttribute) (body : List Segment) (after : Text) :
    (holding gap name attributes body after).length = body.length + 2 := by
  simp [holding]

theorem print_holding (gap name : Text) (attributes : List WrittenAttribute)
    (body : List Segment) (after : Text) :
    print (holding gap name attributes body after) =
      gap ++ (text "<" ++ (name ++
        (attributes.flatMap WrittenAttribute.print ++ (text ">" ++
          (print body ++ (after ++ (text "</" ++ (name ++ text ">")))))))) := by
  simp only [holding, print_cons, print_append, Segment.print,
    WrittenTag.print, print_nil, List.append_nil, Bool.false_eq_true,
    if_false, List.append_assoc, List.cons_append]
  rfl

theorem print_declaration (data raw : Text) :
    Segment.print ⟨data, .declaration raw⟩ =
      data ++ (text "<" ++ (raw ++ text ">")) := rfl

theorem print_empty (data name : Text) (attributes : List WrittenAttribute)
    (gap : Text) :
    Segment.print ⟨data, .starts name attributes gap true⟩ =
      data ++ (text "<" ++ (name ++
        (attributes.flatMap WrittenAttribute.print ++ (gap ++ text "/>")))) := by
  simp only [Segment.print, WrittenTag.print, if_true, List.append_assoc]
  rfl

theorem print_attribute (gap name raw : Text) :
    WrittenAttribute.print ⟨gap, name, raw⟩ =
      gap ++ (name ++ (text "=\"" ++ (raw ++ text "\""))) := by
  simp only [WrittenAttribute.print, List.append_assoc]
  rfl

/-- The attributes of all tags. -/
def attributesOf (segments : List Segment) : List WrittenAttribute :=
  segments.flatMap (·.tag.attributes)

@[simp] theorem attributesOf_nil : attributesOf [] = [] := rfl

@[simp] theorem attributesOf_cons (segment : Segment) (rest : List Segment) :
    attributesOf (segment :: rest) =
      segment.tag.attributes ++ attributesOf rest := rfl

@[simp] theorem attributesOf_append (first second : List Segment) :
    attributesOf (first ++ second) =
      attributesOf first ++ attributesOf second :=
  List.flatMap_append

@[simp] theorem attributesOf_holding (gap name : Text)
    (attributes : List WrittenAttribute) (body : List Segment) (after : Text) :
    attributesOf (holding gap name attributes body after) =
      attributes ++ attributesOf body := by
  rw [holding, attributesOf_cons, attributesOf_append]
  exact congrArg (attributes ++ ·) (List.append_nil _)

theorem attributesOf_flatMap {Item : Type} (items : List Item)
    (part : Item → List Segment) :
    attributesOf (items.flatMap part) =
      items.flatMap fun item => attributesOf (part item) :=
  List.flatMap_assoc

/-- A part that can stand in an element. -/
structure Part (part : List Segment) : Prop where
  well : ∀ segment ∈ part, segment.tag.Well
  plain : ∀ segment ∈ part, lessThan ∉ segment.raw
  inner : ∀ top stack rest,
    nests true (top :: stack) ((part ++ rest).map Segment.outline) =
      nests true (top :: stack) (rest.map Segment.outline)

theorem part_nil : Part [] where
  well := by simp
  plain := by simp
  inner _ _ _ := rfl

theorem Part.append {first second : List Segment} (hfirst : Part first)
    (hsecond : Part second) : Part (first ++ second) where
  well := List.forall_mem_append.mpr ⟨hfirst.well, hsecond.well⟩
  plain := List.forall_mem_append.mpr ⟨hfirst.plain, hsecond.plain⟩
  inner top stack rest := by
    rw [List.append_assoc, hfirst.inner, hsecond.inner]

theorem part_flatMap {Item : Type} {items : List Item}
    {part : Item → List Segment} (hpart : ∀ item ∈ items, Part (part item)) :
    Part (items.flatMap part) := by
  induction items with
  | nil => exact part_nil
  | cons item rest ih =>
      rw [List.flatMap_cons]
      apply Part.append
      · exact hpart item (by simp)
      · exact ih fun other hother => hpart other (by simp [hother])

theorem part_empty {raw name : Text} {attributes : List WrittenAttribute}
    {gap : Text} (hraw : lessThan ∉ raw)
    (hwell : (WrittenTag.starts name attributes gap true).Well) :
    Part [⟨raw, .starts name attributes gap true⟩] where
  well := by simpa using hwell
  plain := by simpa using hraw
  inner _ _ _ := rfl

theorem Part.holding {gap name after : Text}
    {attributes : List WrittenAttribute} {body : List Segment}
    (hbody : Part body) (hgap : lessThan ∉ gap) (hafter : lessThan ∉ after)
    (hwell : (WrittenTag.starts name attributes [] false).Well) :
    Part (holding gap name attributes body after) where
  well := by
    refine List.forall_mem_cons.mpr ⟨hwell, List.forall_mem_append.mpr ?_⟩
    refine ⟨hbody.well, ?_⟩
    intro segment hsegment
    rw [List.mem_singleton.mp hsegment]
    exact hwell.1
  plain := by
    refine List.forall_mem_cons.mpr ⟨hgap, List.forall_mem_append.mpr ?_⟩
    refine ⟨hbody.plain, ?_⟩
    simpa using hafter
  inner top stack rest := by
    have hinner := hbody.inner name (top :: stack) (⟨after, .ends name⟩ :: rest)
    have hends : nests true (name :: top :: stack)
        ((⟨after, .ends name⟩ :: rest : List Segment).map Segment.outline) =
          nests true (top :: stack) (rest.map Segment.outline) := by
      change ((!List.isEmpty (name :: top :: stack) || after.all isWhite) &&
        (decide (name = name) && nests true (top :: stack) _)) = _
      simp
    rw [XmlDocuments.holding, List.cons_append, List.append_assoc]
    exact hinner.trans hends

/-- The values of an element and of what it holds. -/
theorem reads_holding {gap name after value : Text}
    {attributes others : List WrittenAttribute} {body plain : List Segment}
    (hgap : readValue .content gap = some gap)
    (hlength : body.length = plain.length) :
    Reads (holding gap name attributes body after)
        (holding gap name others plain value) ↔
      attributes.mapM WrittenAttribute.value =
          some (others.map WrittenAttribute.meant) ∧
        Reads body plain ∧ readValue .content after = some value := by
  have hlast : Reads [⟨after, .ends name⟩] [⟨value, .ends name⟩] ↔
      readValue .content after = some value := by
    rw [reads_cons]
    cases hafter : readValue .content after <;>
      simp [reads_nil, Segment.value, Segment.meant, WrittenTag.value,
        WrittenTag.meant, hafter]
  rw [holding, holding, reads_cons, reads_append hlength, hlast]
  cases hvalues : attributes.mapM WrittenAttribute.value <;>
    simp [Segment.value, Segment.meant, WrittenTag.value, WrittenTag.meant,
      hgap, hvalues]

/-! ## Elements with a value -/

def element (gap name value : Text) : List Segment :=
  holding gap name [] [] value

theorem part_element {gap name value : Text} (hgap : lessThan ∉ gap)
    (hname : isName name = true) (hvalue : lessThan ∉ value) :
    Part (element gap name value) :=
  part_nil.holding hgap hvalue ⟨hname, by simp, by simp, by simp⟩

@[simp] theorem length_element (gap name value : Text) :
    (element gap name value).length = 2 := by
  simp [element]

theorem reads_element {gap name raw value : Text}
    (hgap : readValue .content gap = some gap) :
    Reads (element gap name raw) (element gap name value) ↔
      readValue .content raw = some value := by
  rw [element, element, reads_holding hgap rfl]
  simp [reads_nil]

theorem print_element (gap value : Text) (name : String) :
    print (element gap (text name) value) =
      gap ++ (text ("<" ++ name ++ ">") ++
        (value ++ text ("</" ++ name ++ ">"))) := by
  rw [element, print_holding, print_nil]
  simp only [List.flatMap_nil, List.nil_append, MarkupText.text_join,
    MarkupText.text_join_last,
    String.append_assoc]

theorem print_part (gap after : Text) (name : String) (body : List Segment) :
    print (holding gap (text name) [] body after) =
      gap ++ (text ("<" ++ name ++ ">") ++
        (print body ++ (after ++ text ("</" ++ name ++ ">")))) := by
  rw [print_holding]
  simp only [List.flatMap_nil, List.nil_append, MarkupText.text_join,
    MarkupText.text_join_last,
    String.append_assoc]

/-- What is read has every value closed. -/
theorem closed_of_values {segments : List Segment} {tags : List (Text × Tag)}
    (hplain : ∀ segment ∈ segments, lessThan ∉ segment.raw)
    (hvalues : values segments = some tags) :
    ∀ segment ∈ segments, segment.Closed := by
  intro segment hsegment
  have hsome := FallibleSteps.isSome_of_mapM_eq_some hvalues segment hsegment
  rcases Option.isSome_iff_exists.mp hsome with ⟨value, hvalue⟩
  rcases Option.bind_eq_some_iff.mp hvalue with ⟨data, -, hmap⟩
  rcases Option.map_eq_some_iff.mp hmap with ⟨tag, htag, -⟩
  refine ⟨hplain segment hsegment, ?_⟩
  generalize segment.tag = written at htag
  cases written with
  | declaration raw => simp [WrittenTag.attributes]
  | ends name => simp [WrittenTag.attributes]
  | starts name attributes gap closed =>
      rcases Option.map_eq_some_iff.mp htag with ⟨values, hall, -⟩
      intro entry hentry hquote
      have hread := FallibleSteps.isSome_of_mapM_eq_some hall entry hentry
      have hends : Place.quoted.ends entry.raw = true := decide_eq_true hquote
      simp [WrittenAttribute.value, readValue, hends] at hread

/-! ## Whole documents -/

/-- What stands before the element that holds all others. -/
def Declares (segment : Segment) : Prop :=
  (∃ raw, segment.tag = .declaration raw) ∧
    ∀ unit ∈ segment.raw, isWhite unit = true

theorem lessThan_not_mem_of_white {white : Text}
    (hwhite : ∀ unit ∈ white, isWhite unit = true) : lessThan ∉ white := by
  intro hmem
  exact absurd (hwhite _ hmem) (by decide)

section

variable {header body : List Segment} {gap name after : Text}
  {attributes : List WrittenAttribute}

theorem nests_document (hheader : ∀ segment ∈ header, Declares segment)
    (hgap : ∀ unit ∈ gap, isWhite unit = true) (hbody : Part body) :
    nests false [] ((header ++ holding gap name attributes body after).map
      Segment.outline) = true := by
  induction header with
  | nil =>
      have hends : nests true [name]
          (([⟨after, .ends name⟩] : List Segment).map Segment.outline) =
            true := by
        simp [Segment.outline, WrittenTag.shape, nests]
      have hinner := (hbody.inner name [] [⟨after, .ends name⟩]).trans hends
      rw [List.nil_append, holding, List.map_cons]
      change ((false || gap.all isWhite) && ((false || true) &&
        nests true [name] _)) = true
      rw [hinner, List.all_eq_true.mpr hgap]
      rfl
  | cons segment rest ih =>
      rcases hheader segment (by simp) with ⟨⟨raw, htag⟩, hwhite⟩
      have hrest := ih fun other hother => hheader other (by simp [hother])
      rw [List.cons_append, List.map_cons, Segment.outline, htag]
      change ((false || segment.raw.all isWhite) && (true &&
        nests false [] _)) = true
      rw [hrest, List.all_eq_true.mpr hwhite]
      rfl

variable (hheader : ∀ segment ∈ header, Declares segment ∧ segment.tag.Well)
  (hgap : ∀ unit ∈ gap, isWhite unit = true) (hbody : Part body)
  (hwell : (WrittenTag.starts name attributes [] false).Well)
  (hafter : lessThan ∉ after)
include hheader hgap hbody hwell hafter

theorem plain_document :
    ∀ segment ∈ header ++ holding gap name attributes body after,
      lessThan ∉ segment.raw := by
  refine List.forall_mem_append.mpr ⟨?_, ?_⟩
  · intro segment hsegment
    exact lessThan_not_mem_of_white (hheader segment hsegment).1.2
  · exact (hbody.holding (lessThan_not_mem_of_white hgap) hafter hwell).plain

theorem well_document :
    ∀ segment ∈ header ++ holding gap name attributes body after,
      segment.tag.Well := by
  refine List.forall_mem_append.mpr ⟨?_, ?_⟩
  · intro segment hsegment
    exact (hheader segment hsegment).2
  · exact (hbody.holding (lessThan_not_mem_of_white hgap) hafter hwell).well

/-- A document that closes its values is read as what was written. -/
theorem read_document
    (hquote : ∀ entry ∈ attributesOf
      (header ++ holding gap name attributes body after),
      quote ∉ entry.raw) {ending : Text}
    (hending : ∀ unit ∈ ending, isWhite unit = true) :
    read (print (header ++ holding gap name attributes body after) ++
        ending) =
      values (header ++ holding gap name attributes body after) := by
  apply read_print_eq_values
  · exact well_document hheader hgap hbody hwell hafter
  · exact hending
  · exact nests_document (fun segment hsegment => (hheader segment hsegment).1)
      hgap hbody
  · intro segment hsegment
    constructor
    · exact plain_document hheader hgap hbody hwell hafter segment hsegment
    · intro entry hentry
      exact hquote entry (List.mem_flatMap.mpr ⟨segment, hsegment, hentry⟩)

/-- Values that are read on their own are read in their document as well. -/
theorem read_document_of_values {tags : List (Text × Tag)} {ending : Text}
    (hending : ∀ unit ∈ ending, isWhite unit = true)
    (hvalues : values (header ++ holding gap name attributes body after) =
      some tags) :
    read (print (header ++ holding gap name attributes body after) ++
      ending) = some tags := by
  have hplain := plain_document hheader hgap hbody hwell hafter
  have hclosed := closed_of_values hplain hvalues
  have hquote : ∀ entry ∈ attributesOf
      (header ++ holding gap name attributes body after),
      quote ∉ entry.raw := by
    intro entry hentry
    rcases List.mem_flatMap.mp hentry with ⟨segment, hsegment, hmem⟩
    exact (hclosed segment hsegment).2 entry hmem
  rw [read_document hheader hgap hbody hwell hafter hquote hending, hvalues]

end

end XmlDocuments
