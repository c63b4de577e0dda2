import Dovetail.CodeUnits

/-!
# Values in XML

What a processor of XML 1.0 takes character data and the inside of a quoted
attribute for: line ends are unified, references are replaced, and white
space in an attribute becomes blanks.  A value with its marks written as
entities is read back exactly where the processor leaves its white space
alone.
-/

namespace XmlValues

open CodeUnits

/-! ## Characters -/

def tab : UInt16 := 9

def carriageReturn : UInt16 := 13

def blank : UInt16 := 32

def quote : UInt16 := 34

def ampersand : UInt16 := 38

def semicolon : UInt16 := 59

def lessThan : UInt16 := 60

def greaterThan : UInt16 := 62

def isChar (unit : UInt16) : Bool :=
  unit == tab || unit == newline || unit == carriageReturn ||
    (32 ≤ unit && unit ≤ 0xFFFD)

/-- Every code point is one that a document may hold. -/
def legal (source : Text) : Bool := wellFormed source && source.all isChar

/-- A line ends with a newline, whatever ended it. -/
def unifyLines : Text → Text
  | [] => []
  | 13 :: 10 :: rest => newline :: unifyLines rest
  | unit :: rest =>
      (if unit = carriageReturn then newline else unit) :: unifyLines rest

/-! ## References -/

def digit? (base : Nat) (unit : UInt16) : Option Nat :=
  let value :=
    if 48 ≤ unit ∧ unit ≤ 57 then unit.toNat - 48
    else if 65 ≤ unit ∧ unit ≤ 70 then unit.toNat - 55
    else if 97 ≤ unit ∧ unit ≤ 102 then unit.toNat - 87
    else base
  if value < base then some value else none

def number? (base : Nat) (digits : Text) : Option Nat :=
  if digits.isEmpty then none
  else digits.foldlM (fun value unit =>
    (digit? base unit).map (value * base + ·)) 0

def scalar? (value : Nat) : Option Text :=
  if value.isValidChar ∧ legal (units (Char.ofNat value)) then
    some (units (Char.ofNat value))
  else none

def characterReference? : Text → Option Text
  | 35 :: 120 :: digits => (number? 16 digits).bind scalar?
  | 35 :: digits => (number? 10 digits).bind scalar?
  | _ => none

/-- What the name between an ampersand and a semicolon stands for. -/
def reference? (name : Text) : Option Text :=
  if name = text "amp" then some [ampersand]
  else if name = text "lt" then some [lessThan]
  else if name = text "gt" then some [greaterThan]
  else if name = text "quot" then some [quote]
  else if name = text "apos" then some [39]
  else characterReference? name

/-! ## Values -/

inductive Place where
  | content
  | quoted
  deriving DecidableEq

namespace Place

def space (place : Place) (unit : UInt16) : UInt16 :=
  if place = .quoted ∧ (unit = tab ∨ unit = newline ∨
    unit = carriageReturn) then blank else unit

/-- A value is not the whole of one where it is ended in its middle. -/
def ends (place : Place) (raw : Text) : Bool :=
  match place with
  | .content => decide (text "]]>" <:+: raw)
  | .quoted => decide (quote ∈ raw)

end Place

/-- The name of a reference is collected until its end. -/
def decode (place : Place) : Option Text → Text → Option Text
  | none, [] => some []
  | some _, [] => none
  | none, unit :: rest =>
      if unit = ampersand then decode place (some []) rest
      else if unit = lessThan then none
      else (decode place none rest).map (place.space unit :: ·)
  | some name, unit :: rest =>
      if unit = semicolon then
        (reference? name).bind fun value =>
          (decode place none rest).map (value ++ ·)
      else decode place (some (name ++ [unit])) rest

def readValue (place : Place) (raw : Text) : Option Text :=
  if legal raw && !place.ends raw then decode place none (unifyLines raw)
  else none

/-! ## Entities -/

def isLetter (unit : UInt16) : Bool := 97 ≤ unit && unit ≤ 122

/-- Names that are written for units; the marks have one. -/
structure Entities where
  name : UInt16 → Option Text
  letters : ∀ {unit entity}, name unit = some entity →
    ∀ other ∈ entity, isLetter other = true
  reads : ∀ {unit entity}, name unit = some entity →
    reference? entity = some [unit]
  marked : ∀ unit ∈ [ampersand, lessThan, greaterThan],
    (name unit).isSome = true

namespace Entities

variable (entities : Entities)

def written (unit : UInt16) : Text :=
  match entities.name unit with
  | none => [unit]
  | some entity => ampersand :: (entity ++ [semicolon])

def write (value : Text) : Text := value.flatMap entities.written

variable {entities}

theorem mem_of_name {unit : UInt16} {entity : Text}
    (hname : entities.name unit = some entity) :
    unit ∈ [ampersand, lessThan, greaterThan, quote, 39] := by
  have hletters := entities.letters hname
  have hreads := entities.reads hname
  have hreference : characterReference? entity = none := by
    unfold characterReference?
    split
    · exact absurd (hletters 35 (by simp)) (by decide)
    · exact absurd (hletters 35 (by simp)) (by decide)
    · rfl
  unfold reference? at hreads
  rw [hreference] at hreads
  split_ifs at hreads <;> cases hreads <;> decide

/-- A unit is written as it is, or as a reference that stands for it. -/
theorem written_cases (unit : UInt16) :
    (entities.written unit = [unit] ∧
        unit ∉ [ampersand, lessThan, greaterThan]) ∨
      ∃ entity, entities.written unit =
          ampersand :: (entity ++ [semicolon]) ∧
        (∀ other ∈ entity, isLetter other = true) ∧
        reference? entity = some [unit] ∧
        unit ∈ [ampersand, lessThan, greaterThan, quote, 39] := by
  unfold written
  cases hname : entities.name unit with
  | none =>
      left
      constructor
      · rfl
      · intro hmem
        have hsome := entities.marked unit hmem
        rw [hname] at hsome
        cases hsome
  | some entity =>
      right
      exact ⟨entity, rfl, entities.letters hname, entities.reads hname,
        mem_of_name hname⟩

end Entities

/-! ## Lines -/

theorem unifyLines_return_newline (rest : Text) :
    unifyLines (carriageReturn :: newline :: rest) =
      newline :: unifyLines rest := by
  rfl

theorem unifyLines_cons {unit : UInt16} {rest : Text}
    (hpair : unit = carriageReturn → rest.head? ≠ some newline) :
    unifyLines (unit :: rest) =
      (if unit = carriageReturn then newline else unit) ::
        unifyLines rest := by
  rw [unifyLines]
  intro others hunit hrest
  apply hpair hunit
  rw [hrest]
  rfl

theorem unifyLines_append {before : Text} (hbefore : carriageReturn ∉ before)
    (after : Text) :
    unifyLines (before ++ after) = before ++ unifyLines after := by
  induction before with
  | nil => rfl
  | cons unit rest ih =>
      rcases List.ne_and_not_mem_of_not_mem_cons hbefore with ⟨hunit, hrest⟩
      rw [List.cons_append, unifyLines_cons fun hsame =>
        absurd hsame.symm hunit, if_neg (Ne.symm hunit), ih hrest]
      rfl

theorem unifyLines_eq_self {source : Text} (hsource : carriageReturn ∉ source) :
    unifyLines source = source := by
  have hall := unifyLines_append hsource []
  simpa [unifyLines] using hall

theorem return_not_mem_unifyLines (source : Text) :
    carriageReturn ∉ unifyLines source := by
  fun_induction unifyLines source with
  | case1 => simp
  | case2 rest ih =>
      exact List.not_mem_cons_of_ne_of_not_mem (by decide) ih
  | case3 unit rest hpair ih =>
      apply List.not_mem_cons_of_ne_of_not_mem
      · split_ifs with hunit
        · decide
        · exact Ne.symm hunit
      · exact ih

theorem unifyLines_eq_self_iff {source : Text} :
    unifyLines source = source ↔ carriageReturn ∉ source := by
  constructor
  · intro hsame
    rw [← hsame]
    exact return_not_mem_unifyLines source
  · exact unifyLines_eq_self

theorem isChar_of_isSurrogate {unit : UInt16}
    (hunit : isSurrogate unit = true) : isChar unit = true := by
  have hlt := unit.toNat_lt
  simp only [isSurrogate, isLead, isTrail, Bool.or_eq_true,
    beq_iff_eq] at hunit
  have hbounds : (32 : UInt16) ≤ unit ∧ unit ≤ 0xFFFD := by
    simp only [UInt16.le_iff_toNat_le, UInt16.reduceToNat]
    omega
  simp [isChar, hbounds]

/-! ## Whole texts -/

theorem legal_cons {unit : UInt16} (hunit : isSurrogate unit = false)
    (rest : Text) : legal (unit :: rest) = (isChar unit && legal rest) := by
  simp only [legal, wellFormed_cons hunit, List.all_cons]
  cases wellFormed rest <;> cases isChar unit <;> rfl

theorem legal_append_cons (before : Text) {unit : UInt16}
    (hunit : isSurrogate unit = false) (after : Text) :
    legal (before ++ unit :: after) =
      (legal before && legal (unit :: after)) := by
  rw [legal_cons hunit]
  simp only [legal, wellFormed_append_cons before hunit, List.all_append,
    List.all_cons]
  cases wellFormed before <;> cases wellFormed after <;>
    cases before.all isChar <;> simp

/-! ## Reading what was written -/

theorem decode_plain {place : Place} {plain : Text}
    (hplain : ∀ unit ∈ plain, unit ≠ ampersand ∧ unit ≠ lessThan)
    (rest : Text) :
    decode place none (plain ++ rest) =
      (decode place none rest).map (plain.map place.space ++ ·) := by
  induction plain with
  | nil => simp
  | cons unit others ih =>
      have hunit := hplain unit (by simp)
      rw [List.cons_append, decode, if_neg hunit.1, if_neg hunit.2,
        ih fun other hother => hplain other (by simp [hother]),
        Option.map_map]
      rfl

theorem decode_entity {place : Place} {name entity : Text}
    (hentity : semicolon ∉ entity) (rest : Text) :
    decode place (some name) (entity ++ semicolon :: rest) =
      (reference? (name ++ entity)).bind fun value =>
        (decode place none rest).map (value ++ ·) := by
  induction entity generalizing name with
  | nil => simp [decode]
  | cons unit others ih =>
      rcases List.ne_and_not_mem_of_not_mem_cons hentity with ⟨hunit, hothers⟩
      rw [List.cons_append, decode, if_neg hunit.symm, ih hothers,
        List.append_assoc]
      rfl

namespace Entities

variable {entities : Entities} {place : Place}

theorem decode_written (unit : UInt16) (rest : Text) :
    decode place none (entities.written unit ++ rest) =
      (decode place none rest).map (place.space unit :: ·) := by
  rcases @written_cases entities unit with ⟨hwritten, hmarks⟩ |
    ⟨entity, hwritten, hletters, hreads, hmem⟩
  · rw [hwritten]
    apply decode_plain
    intro other hother
    rw [List.mem_singleton.mp hother]
    simp only [List.mem_cons, List.not_mem_nil, or_false, not_or] at hmarks
    exact ⟨hmarks.1, hmarks.2.1⟩
  · have hentity : semicolon ∉ entity := by
      intro hmem
      exact absurd (hletters _ hmem) (by decide)
    have hspace : place.space unit = unit := by
      simp only [List.mem_cons, List.not_mem_nil, or_false] at hmem
      rcases hmem with rfl | rfl | rfl | rfl | rfl <;>
        cases place <;> rfl
    have hshape : entities.written unit ++ rest =
        ampersand :: (entity ++ semicolon :: rest) := by
      rw [hwritten]
      simp
    rw [hshape, decode, if_pos rfl, decode_entity hentity, List.nil_append,
      hreads, hspace]
    rfl

theorem decode_write (value rest : Text) :
    decode place none (entities.write value ++ rest) =
      (decode place none rest).map (value.map place.space ++ ·) := by
  induction value with
  | nil => simp [write]
  | cons unit others ih =>
      have hwrite : entities.write (unit :: others) ++ rest =
          entities.written unit ++ (entities.write others ++ rest) := by
        simp [write]
      rw [hwrite, decode_written, ih, Option.map_map]
      rfl

theorem written_eq_self {unit : UInt16}
    (hunit : unit ∉ [ampersand, lessThan, greaterThan, quote, 39]) :
    entities.written unit = [unit] := by
  rcases @written_cases entities unit with hwritten | ⟨-, -, -, -, hmem⟩
  · exact hwritten.1
  · exact absurd hmem hunit

/-- What stands for a mark is an ampersand, letters and a semicolon. -/
theorem of_mem_written {unit other : UInt16}
    (hother : other ∈ entities.written unit) :
    (other = unit ∧ unit ∉ [ampersand, lessThan, greaterThan]) ∨
      other = ampersand ∨ other = semicolon ∨ isLetter other = true := by
  rcases @written_cases entities unit with ⟨hwritten, hmarks⟩ |
    ⟨entity, hwritten, hletters, -, -⟩
  · rw [hwritten] at hother
    rw [List.mem_singleton.mp hother]
    exact Or.inl ⟨rfl, hmarks⟩
  · rw [hwritten, List.mem_cons, List.mem_append,
      List.mem_singleton] at hother
    rcases hother with rfl | hother | rfl
    · exact Or.inr (Or.inl rfl)
    · exact Or.inr (Or.inr (Or.inr (hletters other hother)))
    · exact Or.inr (Or.inr (Or.inl rfl))

theorem written_ne_nil (unit : UInt16) : entities.written unit ≠ [] := by
  rcases @written_cases entities unit with hwritten | ⟨_, hwritten, -⟩
  · simp [hwritten.1]
  · simp [hwritten]

theorem of_mem_head?_written {unit other : UInt16}
    (hother : (entities.written unit).head? = some other) :
    other = unit ∨ other = ampersand := by
  rcases @written_cases entities unit with hwritten | ⟨_, hwritten, -⟩
  · rw [hwritten.1] at hother
    exact Or.inl (Option.some.inj hother).symm
  · rw [hwritten] at hother
    exact Or.inr (Option.some.inj hother).symm

@[simp] theorem write_nil : entities.write [] = [] := rfl

theorem write_cons (unit : UInt16) (rest : Text) :
    entities.write (unit :: rest) =
      entities.written unit ++ entities.write rest := rfl

theorem of_head?_write {value : Text} {other : UInt16}
    (hother : (entities.write value).head? = some other) :
    value.head? = some other ∨ other = ampersand := by
  cases value with
  | nil => cases hother
  | cons unit rest =>
      rw [write_cons, List.head?_append_of_ne_nil _ (written_ne_nil unit)]
        at hother
      rcases of_mem_head?_written hother with rfl | hmark
      · exact Or.inl rfl
      · exact Or.inr hmark

theorem unifyLines_write (value : Text) :
    unifyLines (entities.write value) = entities.write (unifyLines value) := by
  have hreturn : entities.written carriageReturn = [carriageReturn] :=
    written_eq_self (by decide)
  have hnewline : entities.written newline = [newline] :=
    written_eq_self (by decide)
  have hplain {unit : UInt16} (hunit : unit ≠ carriageReturn) :
      carriageReturn ∉ entities.written unit := by
    intro hmem
    rcases of_mem_written hmem with ⟨hsame, -⟩ | hsame | hsame | hletter
    · exact hunit hsame.symm
    · exact absurd hsame (by decide)
    · exact absurd hsame (by decide)
    · exact absurd hletter (by decide)
  fun_induction unifyLines value with
  | case1 => rfl
  | case2 rest ih =>
      have hpair : entities.write (13 :: 10 :: rest) =
          carriageReturn :: newline :: entities.write rest := by
        rw [write_cons, write_cons]
        change entities.written carriageReturn ++
          (entities.written newline ++ _) = _
        rw [hreturn, hnewline]
        rfl
      rw [hpair, unifyLines_return_newline, ih, write_cons, hnewline]
      rfl
  | case3 unit rest hpair ih =>
      by_cases hunit : unit = carriageReturn
      · have hhead : (entities.write rest).head? ≠ some newline := by
          intro hhead
          rcases of_head?_write hhead with hrest | hmark
          · cases rest with
            | nil => cases hrest
            | cons next others =>
                cases hrest
                exact hpair others hunit rfl
          · exact absurd hmark (by decide)
        rw [if_pos hunit, write_cons, write_cons, hunit, hreturn, hnewline,
          List.singleton_append, unifyLines_cons fun _ => hhead, if_pos rfl,
          ih]
        rfl
      · rw [if_neg hunit, write_cons, write_cons,
          unifyLines_append (hplain hunit), ih]

theorem isSurrogate_of_isLetter {unit : UInt16}
    (hunit : isLetter unit = true) : isSurrogate unit = false := by
  simp only [isLetter, Bool.and_eq_true, decide_eq_true_eq,
    UInt16.le_iff_toNat_le, UInt16.reduceToNat] at hunit
  simp only [isSurrogate, isLead, isTrail, Bool.or_eq_false_iff,
    beq_eq_false_iff_ne]
  omega

theorem isChar_of_isLetter {unit : UInt16} (hunit : isLetter unit = true) :
    isChar unit = true := by
  simp only [isLetter, Bool.and_eq_true, decide_eq_true_eq,
    UInt16.le_iff_toNat_le, UInt16.reduceToNat] at hunit
  have hbounds : (32 : UInt16) ≤ unit ∧ unit ≤ 0xFFFD := by
    simp only [UInt16.le_iff_toNat_le, UInt16.reduceToNat]
    omega
  simp [isChar, hbounds]

/-- An entity before a text does not change whether it is legal. -/
theorem legal_entity_append {entity : Text}
    (hentity : ∀ unit ∈ entity, isLetter unit = true) (rest : Text) :
    legal (ampersand :: (entity ++ [semicolon]) ++ rest) = legal rest := by
  have hletters : legal (entity ++ semicolon :: rest) =
      legal (semicolon :: rest) := by
    induction entity with
    | nil => rfl
    | cons unit others ih =>
        have hunit := hentity unit (by simp)
        rw [List.cons_append, legal_cons (isSurrogate_of_isLetter hunit),
          isChar_of_isLetter hunit, Bool.true_and]
        exact ih fun other hother => hentity other (by simp [hother])
  have hshape : ampersand :: (entity ++ [semicolon]) ++ rest =
      ampersand :: (entity ++ semicolon :: rest) := by
    simp
  rw [hshape, legal_cons (by decide), hletters, legal_cons (by decide)]
  rfl

theorem legal_written_append {unit : UInt16}
    (hunit : isSurrogate unit = false) (rest : Text) :
    legal (entities.written unit ++ rest) = (isChar unit && legal rest) := by
  rcases @written_cases entities unit with hwritten |
    ⟨entity, hwritten, hletters, -, hmem⟩
  · rw [hwritten.1]
    exact legal_cons hunit rest
  · have hall : ∀ mark ∈ [ampersand, lessThan, greaterThan, quote, 39],
        isChar mark = true := by decide
    rw [hwritten, legal_entity_append hletters, hall unit hmem,
      Bool.true_and]

theorem written_of_isSurrogate {unit : UInt16}
    (hunit : isSurrogate unit = true) : entities.written unit = [unit] := by
  apply written_eq_self
  intro hmem
  have hall : ∀ mark ∈ [ampersand, lessThan, greaterThan, quote, 39],
      isSurrogate mark = false := by decide
  rw [hall unit hmem] at hunit
  cases hunit

/-- A surrogate that is not half of a pair. -/
theorem legal_surrogate_cons {unit : UInt16} {rest : Text}
    (hunit : isSurrogate unit = true)
    (hlone : ∀ next, rest.head? = some next →
      (isLead unit && isTrail next) = false) :
    legal (unit :: rest) = false := by
  have hwell : wellFormed (unit :: rest) = false := by
    cases rest with
    | nil => simp [wellFormed, hunit]
    | cons next others =>
        rw [wellFormed, if_neg (by simp [hlone next rfl]), hunit]
        rfl
  simp [legal, hwell]

theorem legal_write (value : Text) :
    legal (entities.write value) = legal value := by
  fun_induction wellFormed value with
  | case1 => rfl
  | case2 unit =>
      cases hunit : isSurrogate unit with
      | true => rw [write_cons, written_of_isSurrogate hunit]; rfl
      | false =>
          rw [write_cons, legal_written_append hunit, legal_cons hunit]
          rfl
  | case3 unit next rest hpair ih =>
      rw [Bool.and_eq_true] at hpair
      have hunit : isSurrogate unit = true := by simp [isSurrogate, hpair.1]
      have hnext : isSurrogate next = true := by simp [isSurrogate, hpair.2]
      have hlegal (others : Text) : legal (unit :: next :: others) =
          (isChar unit && (isChar next && legal others)) := by
        simp only [legal, wellFormed, hpair.1, hpair.2, Bool.and_self,
          if_true, List.all_cons]
        cases wellFormed others <;> simp
      rw [write_cons, write_cons, written_of_isSurrogate hunit,
        written_of_isSurrogate hnext]
      change legal (unit :: next :: entities.write rest) = _
      rw [hlegal, hlegal, ih]
  | case4 unit next rest hpair ih =>
      cases hunit : isSurrogate unit with
      | false =>
          rw [write_cons, legal_written_append hunit, legal_cons hunit, ih]
      | true =>
          have hnot : (isLead unit && isTrail next) = false := by
            simpa using hpair
          rw [write_cons, written_of_isSurrogate hunit]
          rw [legal_surrogate_cons hunit (by
            intro other hother
            cases hother
            exact hnot)]
          apply legal_surrogate_cons hunit
          intro other hother
          rcases of_head?_write hother with hsame | rfl
          · cases hsame
            exact hnot
          · cases hlead : isLead unit <;> rfl

theorem mark_not_mem_write {mark : UInt16}
    (hmark : mark ∈ [lessThan, greaterThan]) (value : Text) :
    mark ∉ entities.write value := by
  have hother : ∀ mark ∈ [lessThan, greaterThan],
      mark ∈ [ampersand, lessThan, greaterThan] ∧ mark ≠ ampersand ∧
        mark ≠ semicolon ∧ isLetter mark = false := by decide
  have hnot := hother mark hmark
  intro hmem
  rcases List.mem_flatMap.mp hmem with ⟨unit, -, hunit⟩
  rcases of_mem_written hunit with ⟨rfl, hmarks⟩ | hsame | hsame | hletter
  · exact hmarks hnot.1
  · exact hnot.2.1 hsame
  · exact hnot.2.2.1 hsame
  · rw [hnot.2.2.2] at hletter
    cases hletter

theorem quote_not_mem_write (hquote : (entities.name quote).isSome = true)
    (value : Text) : quote ∉ entities.write value := by
  intro hmem
  rcases List.mem_flatMap.mp hmem with ⟨unit, -, hunit⟩
  by_cases hsame : unit = quote
  · rcases Option.isSome_iff_exists.mp hquote with ⟨entity, hname⟩
    rw [hsame, written, hname] at hunit
    simp only [List.mem_cons, List.mem_append] at hunit
    rcases hunit with hunit | hunit | hunit
    · exact absurd hunit (by decide)
    · exact absurd (entities.letters hname _ hunit) (by decide)
    · exact absurd hunit (by decide)
  · rcases of_mem_written hunit with ⟨hother, -⟩ | hother | hother | hletter
    · exact hsame hother.symm
    · exact absurd hother (by decide)
    · exact absurd hother (by decide)
    · exact absurd hletter (by decide)

/-- The entities that a value needs where it is written. -/
def Fits (entities : Entities) (place : Place) : Prop :=
  place = .quoted → (entities.name quote).isSome = true

theorem ends_write (hfits : entities.Fits place) (value : Text) :
    place.ends (entities.write value) = false := by
  cases place with
  | quoted =>
      have hquote := quote_not_mem_write (hfits rfl) value
      simpa [Place.ends] using hquote
  | content =>
      have hmark : greaterThan ∉ entities.write value :=
        mark_not_mem_write (by decide) value
      simp only [Place.ends, decide_eq_false_iff_not]
      intro hwithin
      exact hmark (hwithin.subset (by decide))

/-- A value is read with its lines unified and, in an attribute, without
white space other than blanks. -/
theorem readValue_write (hfits : entities.Fits place) (value : Text) :
    readValue place (entities.write value) =
      if legal value then some ((unifyLines value).map place.space)
      else none := by
  have hdecode := @decode_write entities place (unifyLines value) []
  rw [List.append_nil] at hdecode
  unfold readValue
  rw [legal_write, ends_write hfits, unifyLines_write, hdecode]
  simp [decode]

end Entities

/-! ## What is read as it is -/

/-- The white space of a value is left alone. -/
def Place.Keeps (place : Place) (value : Text) : Prop :=
  carriageReturn ∉ value ∧
    (place = .quoted → tab ∉ value ∧ newline ∉ value)

/-- A document may hold the value, and its white space is left alone. -/
def Place.Carries (place : Place) (value : Text) : Prop :=
  legal value = true ∧ place.Keeps value

theorem Place.map_space_eq_self_iff {place : Place} {value : Text}
    (hvalue : carriageReturn ∉ value) :
    value.map place.space = value ↔ place.Keeps value := by
  constructor
  · intro hsame
    constructor
    · exact hvalue
    · intro hplace
      have hnone {unit : UInt16}
          (hspace : ∀ other, place.space other ≠ unit) : unit ∉ value := by
        intro hmem
        rw [← hsame] at hmem
        rcases List.mem_map.mp hmem with ⟨other, -, hother⟩
        exact hspace other hother
      constructor
      · apply hnone
        intro other hother
        unfold space at hother
        split_ifs at hother with hcase
        · exact absurd hother (by decide)
        · exact hcase ⟨hplace, Or.inl hother⟩
      · apply hnone
        intro other hother
        unfold space at hother
        split_ifs at hother with hcase
        · exact absurd hother (by decide)
        · exact hcase ⟨hplace, Or.inr (Or.inl hother)⟩
  · intro hkeeps
    nth_rewrite 2 [← List.map_id value]
    apply List.map_congr_left
    intro unit hunit
    unfold space
    rw [if_neg]
    · rfl
    · rintro ⟨hplace, rfl | rfl | rfl⟩
      · exact (hkeeps.2 hplace).1 hunit
      · exact (hkeeps.2 hplace).2 hunit
      · exact hvalue hunit

/-- A value comes back exactly where its place carries it. -/
theorem readValue_write_eq_some_iff {entities : Entities} {place : Place}
    (hfits : entities.Fits place) (value : Text) :
    readValue place (entities.write value) = some value ↔
      place.Carries value := by
  rw [Entities.readValue_write hfits, Place.Carries]
  by_cases hlegal : legal value = true
  · rw [if_pos hlegal, Option.some.injEq]
    constructor
    · intro hsame
      have hreturn : carriageReturn ∉ value := by
        intro hmem
        rw [← hsame] at hmem
        rcases List.mem_map.mp hmem with ⟨other, hother, hspace⟩
        unfold Place.space at hspace
        split_ifs at hspace with hcase
        · exact absurd hspace (by decide)
        · rw [hspace] at hother
          exact return_not_mem_unifyLines value hother
      rw [unifyLines_eq_self hreturn,
        Place.map_space_eq_self_iff hreturn] at hsame
      exact ⟨hlegal, hsame⟩
    · intro hkeeps
      rw [unifyLines_eq_self hkeeps.2.1]
      exact (Place.map_space_eq_self_iff hkeeps.2.1).mpr hkeeps.2
  · rw [if_neg hlegal]
    constructor
    · intro hnone
      cases hnone
    · intro hkeeps
      exact absurd hkeeps.1 hlegal

/-- A unit that stands for itself everywhere. -/
def isPlain (unit : UInt16) : Bool :=
  !isSurrogate unit && (32 ≤ unit && unit ≤ 0xFFFD)

theorem of_isPlain {unit : UInt16} (hunit : isPlain unit = true) :
    isSurrogate unit = false ∧ isChar unit = true ∧ unit ≠ tab ∧
      unit ≠ newline ∧ unit ≠ carriageReturn := by
  simp only [isPlain, Bool.and_eq_true, Bool.not_eq_true'] at hunit
  refine ⟨hunit.1, ?_, ?_, ?_, ?_⟩
  · simpa [isChar] using Or.inr hunit.2
  · rintro rfl
    exact absurd hunit.2.1 (by decide)
  · rintro rfl
    exact absurd hunit.2.1 (by decide)
  · rintro rfl
    exact absurd hunit.2.1 (by decide)

namespace Place

variable {place : Place}

theorem keeps_append {before after : Text} :
    place.Keeps (before ++ after) ↔
      place.Keeps before ∧ place.Keeps after := by
  simp only [Keeps, List.mem_append, not_or]
  tauto

variable {plain : Text} (hplain : ∀ unit ∈ plain, isPlain unit = true)
include hplain

theorem keeps_plain : place.Keeps plain := by
  have hnone {unit : UInt16} (hunit : isPlain unit = false) :
      unit ∉ plain := by
    intro hmem
    rw [hplain unit hmem] at hunit
    cases hunit
  exact ⟨hnone rfl, fun _ => ⟨hnone rfl, hnone rfl⟩⟩

/-- Plain units before a value change nothing. -/
theorem carries_plain_append {value : Text} :
    place.Carries (plain ++ value) ↔ place.Carries value := by
  have hlegal : legal (plain ++ value) = legal value := by
    induction plain with
    | nil => rfl
    | cons unit rest ih =>
        have hunit := of_isPlain (hplain unit (by simp))
        rw [List.cons_append, legal_cons hunit.1, hunit.2.1, Bool.true_and]
        exact ih fun other hother => hplain other (by simp [hother])
  rw [Carries, Carries, hlegal, keeps_append]
  exact and_congr_right fun _ => and_iff_right (keeps_plain hplain)

theorem carries_plain : place.Carries plain := by
  have hnil : place.Carries [] := ⟨rfl, by simp [Keeps]⟩
  rw [← List.append_nil plain, carries_plain_append hplain]
  exact hnil

/-- Plain units behind a value change nothing. -/
theorem carries_append_plain {value : Text} :
    place.Carries (value ++ plain) ↔ place.Carries value := by
  have hlegal : legal (value ++ plain) = legal value := by
    cases plain with
    | nil => rw [List.append_nil]
    | cons unit rest =>
        have hunit := of_isPlain (hplain unit (by simp))
        rw [legal_append_cons value hunit.1,
          (@carries_plain place _ hplain).1, Bool.and_true]
  rw [Carries, Carries, hlegal, keeps_append]
  exact and_congr_right fun _ => and_iff_left (keeps_plain hplain)

end Place

end XmlValues
