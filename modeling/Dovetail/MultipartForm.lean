import Mathlib.Data.List.DropRight
import Mathlib.Tactic

/-!
# Multipart bodies

A body is parts between delimiters; a part is header lines, an empty line and
content that ends at the next delimiter.  A delimiter begins with a carriage
return and holds no other, so one that is written behind a content is found
there and nowhere before it.
-/

namespace MultipartForm

abbrev Bytes := List UInt8

def carriageReturn : UInt8 := 13

def crlf : Bytes := [13, 10]

def dashes : Bytes := [45, 45]

def colon : UInt8 := 58

def semicolon : UInt8 := 59

def equalsSign : UInt8 := 61

def quoteMark : UInt8 := 34

def escape : UInt8 := 92

def isBlank (byte : UInt8) : Bool := byte == 32 || byte == 9

def trimBlanks (value : Bytes) : Bytes :=
  (value.dropWhile isBlank).rdropWhile isBlank

/-- Blanks inside a value stay. -/
theorem trimBlanks_eq {first last : UInt8} (hfirst : isBlank first = false)
    (hlast : isBlank last = false) (middle : Bytes) :
    trimBlanks (first :: (middle ++ [last])) = first :: (middle ++ [last]) := by
  rw [trimBlanks, List.dropWhile_cons_of_neg (by simp [hfirst]),
    ← List.cons_append]
  exact List.rdropWhile_concat_neg _ _ _ (by simp [hlast])

/-! ## The first occurrence -/

/-- What comes before the first occurrence of a pattern, and behind it. -/
def splitAtFirst (pattern : Bytes) : Bytes → Option (Bytes × Bytes)
  | [] => if pattern = [] then some ([], []) else none
  | byte :: rest =>
      if pattern <+: byte :: rest then
        some ([], (byte :: rest).drop pattern.length)
      else
        (splitAtFirst pattern rest).map fun parts =>
          (byte :: parts.1, parts.2)

def before (start : Bytes) (found : Option (Bytes × Bytes)) :
    Option (Bytes × Bytes) :=
  found.map fun parts => (start ++ parts.1, parts.2)

@[simp] theorem before_some (start part rest : Bytes) :
    before start (some (part, rest)) = some (start ++ part, rest) := rfl

theorem before_append (start next : Bytes) (found : Option (Bytes × Bytes)) :
    before (start ++ next) found = before start (before next found) := by
  cases found <;> simp [before]

theorem splitAtFirst_self (pattern rest : Bytes) :
    splitAtFirst pattern (pattern ++ rest) = some ([], rest) := by
  cases pattern with
  | nil => cases rest <;> simp [splitAtFirst]
  | cons head tail =>
      have hbegins : head :: tail <+: head :: (tail ++ rest) :=
        List.prefix_append (head :: tail) rest
      rw [List.cons_append, splitAtFirst, if_pos hbegins]
      simp

section

variable {head : UInt8} {tail : Bytes}

theorem splitAtFirst_skip {byte : UInt8} {rest : Bytes}
    (hnot : ¬ head :: tail <+: byte :: rest) :
    splitAtFirst (head :: tail) (byte :: rest) =
      before [byte] (splitAtFirst (head :: tail) rest) := by
  rw [splitAtFirst, if_neg hnot]
  rfl

/-- The pattern does not begin where its head is not. -/
theorem splitAtFirst_plain {part : Bytes} (hpart : head ∉ part)
    (rest : Bytes) :
    splitAtFirst (head :: tail) (part ++ rest) =
      before part (splitAtFirst (head :: tail) rest) := by
  induction part with
  | nil =>
      cases hfound : splitAtFirst (head :: tail) rest <;>
        simp [before, hfound]
  | cons byte others ih =>
      rw [List.mem_cons, not_or] at hpart
      have hnot : ¬ head :: tail <+: byte :: (others ++ rest) := by
        intro hbegins
        exact hpart.1 (List.cons_prefix_cons.mp hbegins).1
      rw [List.cons_append, splitAtFirst_skip hnot, ih hpart.2,
        ← before_append]
      rfl

/-- A pattern that begins across the end of a text begins in the text, or
leaves an end of itself behind. -/
theorem begins_or_left {pattern part rest : Bytes}
    (hbegins : pattern <+: part ++ rest) :
    pattern <+: part ∨
      ∃ left, left ≠ [] ∧ pattern = part ++ left ∧ left <+: rest := by
  rcases List.prefix_or_prefix_of_prefix hbegins (List.prefix_append part rest)
    with hinside | ⟨left, hleft⟩
  · exact Or.inl hinside
  · by_cases hnone : left = []
    · left
      rw [← hleft, hnone, List.append_nil]
    · right
      rw [← hleft] at hbegins
      exact ⟨left, hnone, hleft.symm,
        (List.prefix_append_right_inj part).mp hbegins⟩

/-- A pattern whose head is nowhere else in it does not overlap itself: it is
found behind a text that does not hold it. -/
theorem splitAtFirst_append {part : Bytes} (hhead : head ∉ tail)
    (hpart : ¬ head :: tail <:+: part) (rest : Bytes) :
    splitAtFirst (head :: tail) (part ++ (head :: tail ++ rest)) =
      some (part, rest) := by
  induction part with
  | nil => exact splitAtFirst_self _ _
  | cons byte others ih =>
      have hothers : ¬ head :: tail <:+: others := by
        intro hheld
        exact hpart (hheld.trans (List.suffix_cons byte others).isInfix)
      have hnot : ¬ head :: tail <+:
          byte :: (others ++ (head :: tail ++ rest)) := by
        intro hbegins
        rcases @begins_or_left _ (byte :: others) _ hbegins with
          hinside | ⟨left, hleft, hpattern, hrest⟩
        · exact hpart hinside.isInfix
        · rcases List.exists_cons_of_ne_nil hleft with ⟨first, more, rfl⟩
          rw [List.cons_append, List.cons.injEq] at hpattern
          rw [List.cons_append, List.cons_prefix_cons] at hrest
          apply hhead
          rw [hpattern.2, ← hrest.1]
          simp
      rw [List.cons_append, splitAtFirst_skip hnot, ih hothers]
      rfl

end

/-! ## Parsing -/

structure Part where
  headers : List (Bytes × Bytes)
  content : Bytes
  deriving DecidableEq

/-- The name of a header and its value without the blanks around it. -/
def parseHeader (line : Bytes) : Option (Bytes × Bytes) :=
  match splitAtFirst [colon] line with
  | some (name, value) =>
      if name = [] ∨ name.any isBlank then none
      else some (name, trimBlanks value)
  | none => none

/-- The headers up to an empty line, and what follows it. -/
def parseHeaders : Nat → Bytes → Option (List (Bytes × Bytes) × Bytes)
  | 0, _ => none
  | fuel + 1, source =>
      match splitAtFirst crlf source with
      | none => none
      | some ([], content) => some ([], content)
      | some (line, rest) => do
          let header ← parseHeader line
          let (headers, content) ← parseHeaders fuel rest
          return (header :: headers, content)

def delimiter (boundary : Bytes) : Bytes := crlf ++ (dashes ++ boundary)

/-- The parts behind a boundary; two dashes behind it end the body. -/
def parseParts (boundary : Bytes) : Nat → Bytes → Option (List Part)
  | 0, _ => none
  | fuel + 1, source =>
      if dashes <+: source then some []
      else do
        let padded := source.dropWhile isBlank
        guard (crlf <+: padded)
        let (text, rest) ← splitAtFirst (delimiter boundary)
          (padded.drop crlf.length)
        let (headers, content) ← parseHeaders text.length text
        let parts ← parseParts boundary fuel rest
        return ⟨headers, content⟩ :: parts

/-- A body that begins with its boundary. -/
def parse (boundary body : Bytes) : Option (List Part) :=
  if dashes ++ boundary <+: body then
    parseParts boundary body.length
      (body.drop (dashes ++ boundary).length)
  else none

/-! ### Dispositions -/

structure Disposition where
  kind : Bytes
  parameters : List (Bytes × Bytes)
  deriving DecidableEq

/-- A quoted text behind its opening quote, and what follows it. -/
def parseQuoted : Bytes → Option (Bytes × Bytes)
  | [] => none
  | [byte] => if byte = quoteMark then some ([], []) else none
  | byte :: next :: rest =>
      if byte = quoteMark then some ([], next :: rest)
      else if byte = escape then before [next] (parseQuoted rest)
      else before [byte] (parseQuoted (next :: rest))

def parseParameters : Nat → Bytes → Option (List (Bytes × Bytes))
  | _, [] => some []
  | 0, _ :: _ => none
  | fuel + 1, byte :: rest => do
      guard (byte = semicolon)
      let (name, value) ← splitAtFirst [equalsSign] (rest.dropWhile isBlank)
      match value with
      | mark :: source =>
          guard (mark = quoteMark)
          let (text, others) ← parseQuoted source
          let parameters ← parseParameters fuel others
          return (name, text) :: parameters
      | [] => none

def parseDisposition (value : Bytes) : Option Disposition :=
  (parseParameters value.length (value.dropWhile (· != semicolon))).map
    fun parameters => ⟨value.takeWhile (· != semicolon), parameters⟩

/-! ## Header lines -/

/-- A header that is read as it is written. -/
structure Header where
  name : Bytes
  value : Bytes
  name_filled : name ≠ []
  name_plain : ∀ byte ∈ name, byte ≠ carriageReturn ∧ byte ≠ colon ∧
    isBlank byte = false
  name_start : name.head? ≠ some 45
  value_plain : carriageReturn ∉ value
  value_trimmed : trimBlanks value = value

namespace Header

def line (header : Header) : Bytes :=
  header.name ++ ([colon, 32] ++ header.value)

def pair (header : Header) : Bytes × Bytes := (header.name, header.value)

theorem carriageReturn_not_mem_line (header : Header) :
    carriageReturn ∉ header.line := by
  intro hmem
  rcases List.mem_append.mp hmem with hname | hrest
  · exact (header.name_plain _ hname).1 rfl
  · rcases List.mem_append.mp hrest with hcolon | hvalue
    · exact absurd hcolon (by decide)
    · exact header.value_plain hvalue

theorem line_ne_nil (header : Header) : header.line ≠ [] := by
  intro hnone
  exact header.name_filled (List.append_eq_nil_iff.mp hnone).1

theorem parseHeader_line (header : Header) :
    parseHeader header.line = some header.pair := by
  have hcolon : colon ∉ header.name := by
    intro hmem
    exact (header.name_plain _ hmem).2.1 rfl
  have hplain : header.name.any isBlank = false := by
    rw [List.any_eq_false]
    intro byte hbyte
    simp [(header.name_plain byte hbyte).2.2]
  have hvalue : trimBlanks (32 :: header.value) = header.value :=
    header.value_trimmed
  have hsplit : splitAtFirst [colon] header.line =
      some (header.name, 32 :: header.value) := by
    have hself := splitAtFirst_self [colon] (32 :: header.value)
    rw [line, splitAtFirst_plain hcolon]
    change before _ (splitAtFirst [colon] ([colon] ++ 32 :: header.value)) = _
    rw [hself, before_some, List.append_nil]
  rw [parseHeader, hsplit]
  simp only [header.name_filled, hplain, Bool.false_eq_true, or_self,
    if_false, hvalue]
  rfl

end Header

def headerBlock (headers : List Header) : Bytes :=
  headers.flatMap fun header => header.line ++ crlf

/-- Header lines are read up to the empty line. -/
theorem parseHeaders_headerBlock {headers : List Header} {fuel : Nat}
    (hfuel : headers.length < fuel) (content : Bytes) :
    parseHeaders fuel (headerBlock headers ++ (crlf ++ content)) =
      some (headers.map Header.pair, content) := by
  induction headers generalizing fuel with
  | nil =>
      cases fuel with
      | zero => cases hfuel
      | succ fuel =>
          have hself := splitAtFirst_self crlf content
          change parseHeaders (fuel + 1) (crlf ++ content) = _
          rw [parseHeaders, hself]
          rfl
  | cons header rest ih =>
      cases fuel with
      | zero => cases hfuel
      | succ fuel =>
          have hrest := ih (Nat.lt_of_succ_lt_succ hfuel)
          have hsplit : splitAtFirst crlf
              (headerBlock (header :: rest) ++ (crlf ++ content)) =
                some (header.line,
                  headerBlock rest ++ (crlf ++ content)) := by
            have hself := splitAtFirst_self crlf
              (headerBlock rest ++ (crlf ++ content))
            rw [headerBlock, List.flatMap_cons, List.append_assoc,
              List.append_assoc]
            change splitAtFirst (carriageReturn :: [10]) _ = _
            rw [splitAtFirst_plain header.carriageReturn_not_mem_line]
            change before _ (splitAtFirst crlf _) = _
            rw [headerBlock] at hself
            rw [hself, before_some, List.append_nil, headerBlock]
          rcases List.exists_cons_of_ne_nil header.line_ne_nil with
            ⟨first, more, hline⟩
          have hheader := header.parseHeader_line
          rw [parseHeaders, hsplit, hline]
          rw [hline] at hheader
          simp only [hheader, hrest, Option.bind_eq_bind, Option.bind_some,
            List.map_cons]
          rfl

theorem length_lt_headerBlock (headers : List Header) (content : Bytes) :
    headers.length < (headerBlock headers ++ (crlf ++ content)).length := by
  induction headers with
  | nil => simp [crlf]
  | cons header rest ih =>
      rw [headerBlock, List.flatMap_cons, List.append_assoc,
        List.length_append, List.length_append, List.length_cons]
      have hcrlf : crlf.length = 2 := rfl
      rw [headerBlock] at ih
      omega

/-! ## One part -/

section

variable {boundary : Bytes}

theorem splitAtFirst_crlf {rest : Bytes}
    (hrest : ¬ dashes ++ boundary <+: rest) :
    splitAtFirst (delimiter boundary) (crlf ++ rest) =
      before crlf (splitAtFirst (delimiter boundary) rest) := by
  have hfirst : ¬ 13 :: 10 :: (dashes ++ boundary) <+: 13 :: 10 :: rest := by
    intro hbegins
    exact hrest (List.cons_prefix_cons.mp
      (List.cons_prefix_cons.mp hbegins).2).2
  have hsecond : ¬ 13 :: 10 :: (dashes ++ boundary) <+: 10 :: rest := by
    intro hbegins
    exact absurd (List.cons_prefix_cons.mp hbegins).1 (by decide)
  change splitAtFirst (13 :: 10 :: (dashes ++ boundary)) (13 :: 10 :: rest) = _
  rw [splitAtFirst_skip hfirst, splitAtFirst_skip hsecond, ← before_append]
  rfl

/-- No delimiter begins in the headers. -/
theorem splitAtFirst_headerBlock {rest : Bytes}
    (hrest : ¬ dashes ++ boundary <+: rest) (headers : List Header) :
    splitAtFirst (delimiter boundary) (headerBlock headers ++ (crlf ++ rest)) =
      before (headerBlock headers ++ crlf)
        (splitAtFirst (delimiter boundary) rest) := by
  induction headers with
  | nil => exact splitAtFirst_crlf hrest
  | cons header others ih =>
      have hnext : ¬ dashes ++ boundary <+:
          headerBlock others ++ (crlf ++ rest) := by
        intro hbegins
        cases others with
        | nil => exact absurd (List.cons_prefix_cons.mp hbegins).1 (by decide)
        | cons next more =>
            rcases List.exists_cons_of_ne_nil next.name_filled with
              ⟨first, name, hname⟩
            apply next.name_start
            rw [headerBlock, List.flatMap_cons, Header.line, hname] at hbegins
            rw [hname, List.head?_cons, ← (List.cons_prefix_cons.mp hbegins).1]
      have hblock : headerBlock (header :: others) ++ (crlf ++ rest) =
          header.line ++ (crlf ++
            (headerBlock others ++ (crlf ++ rest))) := by
        simp only [headerBlock, List.flatMap_cons, List.append_assoc]
      have hblock' : headerBlock (header :: others) ++ crlf =
          header.line ++ (crlf ++ (headerBlock others ++ crlf)) := by
        simp only [headerBlock, List.flatMap_cons, List.append_assoc]
      have hline : splitAtFirst (delimiter boundary) (header.line ++ (crlf ++
          (headerBlock others ++ (crlf ++ rest)))) =
            before header.line (splitAtFirst (delimiter boundary) (crlf ++
              (headerBlock others ++ (crlf ++ rest)))) :=
        splitAtFirst_plain header.carriageReturn_not_mem_line _
      rw [hblock, hblock', hline, splitAtFirst_crlf hnext, ih]
      simp only [before_append]

variable (hboundary : carriageReturn ∉ boundary) {content : Bytes}
  (hcontent : ¬ boundary <:+: content)
include hboundary hcontent

theorem not_prefix_content (rest : Bytes) :
    ¬ dashes ++ boundary <+: content ++ (delimiter boundary ++ rest) := by
  intro hbegins
  rcases begins_or_left hbegins with
    hinside | ⟨left, hleft, hpattern, hrest⟩
  · exact hcontent ((List.suffix_append dashes boundary).isInfix.trans
      hinside.isInfix)
  · rcases List.exists_cons_of_ne_nil hleft with ⟨first, more, rfl⟩
    have hfirst : first = carriageReturn :=
      (List.cons_prefix_cons.mp hrest).1
    have hmem : carriageReturn ∈ dashes ++ boundary := by
      rw [hpattern, hfirst]
      simp
    rcases List.mem_append.mp hmem with hdash | hmem
    · exact absurd hdash (by decide)
    · exact hboundary hmem

theorem splitAtFirst_content (rest : Bytes) :
    splitAtFirst (delimiter boundary)
        (content ++ (delimiter boundary ++ rest)) =
      some (content, rest) := by
  apply splitAtFirst_append
  · intro hmem
    rcases List.mem_append.mp hmem with hdash | hmem
    · exact absurd hdash (by decide)
    · rcases List.mem_append.mp hmem with hdash | hmem
      · exact absurd hdash (by decide)
      · exact hboundary hmem
  · intro hheld
    have hsuffix : boundary <:+ delimiter boundary := by
      rw [delimiter, ← List.append_assoc]
      exact List.suffix_append _ boundary
    exact hcontent (hsuffix.isInfix.trans hheld)

/-- One part between its boundary and the end is read as it was written. -/
theorem parse_part (headers : List Header) :
    parse boundary (dashes ++ boundary ++ (crlf ++ (headerBlock headers ++
        (crlf ++ (content ++ (delimiter boundary ++ (dashes ++ crlf))))))) =
      some [⟨headers.map Header.pair, content⟩] := by
  have htext : splitAtFirst (delimiter boundary) (headerBlock headers ++
      (crlf ++ (content ++ (delimiter boundary ++ (dashes ++ crlf))))) =
        some (headerBlock headers ++ (crlf ++ content), dashes ++ crlf) := by
    rw [splitAtFirst_headerBlock (not_prefix_content hboundary hcontent _),
      splitAtFirst_content hboundary hcontent, before_some,
      List.append_assoc]
  have hheaders := parseHeaders_headerBlock
    (length_lt_headerBlock headers content) content
  have hlast (fuel : Nat) :
      parseParts boundary (fuel + 1) (dashes ++ crlf) = some [] := by
    rw [parseParts, if_pos (List.prefix_append dashes crlf)]
  generalize hrest : crlf ++ (headerBlock headers ++ (crlf ++ (content ++
    (delimiter boundary ++ (dashes ++ crlf))))) = rest
  have hlong : ∃ fuel, (dashes ++ boundary ++ rest).length = fuel + 2 := by
    refine ⟨boundary.length + rest.length, ?_⟩
    rw [List.length_append, List.length_append]
    change 2 + _ + _ = _
    omega
  rcases hlong with ⟨fuel, hfuel⟩
  have hopen : ¬ dashes <+: rest := by
    intro hbegins
    rw [← hrest] at hbegins
    exact absurd (List.cons_prefix_cons.mp hbegins).1 (by decide)
  have hpadded : rest.dropWhile isBlank = rest := by
    rw [← hrest]
    rfl
  have hcrlf : crlf <+: rest := by
    rw [← hrest]
    exact List.prefix_append crlf _
  have hdrop : rest.drop crlf.length = headerBlock headers ++ (crlf ++
      (content ++ (delimiter boundary ++ (dashes ++ crlf)))) := by
    rw [← hrest, List.drop_left]
  rw [parse, if_pos (List.prefix_append _ rest), List.drop_left, hfuel,
    parseParts, if_neg hopen]
  simp only [hpadded, hcrlf, hdrop, htext, hheaders, hlast, guard_true,
    Option.bind_eq_bind, Option.bind_some, Option.pure_def]

end

/-! ## Dispositions -/

/-- A parameter that is read as it is written. -/
structure Parameter where
  name : Bytes
  value : Bytes
  name_plain : ∀ byte ∈ name, byte ≠ equalsSign ∧ isBlank byte = false
  value_plain : quoteMark ∉ value ∧ escape ∉ value

namespace Parameter

def text (parameter : Parameter) : Bytes :=
  [semicolon, 32] ++ (parameter.name ++
    ([equalsSign, quoteMark] ++ (parameter.value ++ [quoteMark])))

def pair (parameter : Parameter) : Bytes × Bytes :=
  (parameter.name, parameter.value)

end Parameter

theorem parseQuoted_append {value : Bytes}
    (hvalue : quoteMark ∉ value ∧ escape ∉ value) (rest : Bytes) :
    parseQuoted (value ++ ([quoteMark] ++ rest)) = some (value, rest) := by
  induction value with
  | nil =>
      cases rest with
      | nil => rfl
      | cons next others => rw [List.nil_append, List.singleton_append,
          parseQuoted, if_pos rfl]
  | cons byte others ih =>
      rw [List.mem_cons, not_or, List.mem_cons, not_or] at hvalue
      have hothers := ih ⟨hvalue.1.2, hvalue.2.2⟩
      have hfilled : others ++ ([quoteMark] ++ rest) ≠ [] := by simp
      rcases List.exists_cons_of_ne_nil hfilled with ⟨next, more, hmore⟩
      rw [hmore] at hothers
      rw [List.cons_append, hmore, parseQuoted,
        if_neg (Ne.symm hvalue.1.1), if_neg (Ne.symm hvalue.2.1), hothers]
      rfl

theorem parseParameters_flatMap {parameters : List Parameter} {fuel : Nat}
    (hfuel : parameters.length ≤ fuel) :
    parseParameters fuel (parameters.flatMap Parameter.text) =
      some (parameters.map Parameter.pair) := by
  induction parameters generalizing fuel with
  | nil => cases fuel <;> rfl
  | cons parameter rest ih =>
      cases fuel with
      | zero => cases hfuel
      | succ fuel =>
          have hrest := ih (Nat.le_of_succ_le_succ hfuel)
          have hname : equalsSign ∉ parameter.name := by
            intro hmem
            exact (parameter.name_plain _ hmem).1 rfl
          have hself := splitAtFirst_self [equalsSign] ([quoteMark] ++
            (parameter.value ++ ([quoteMark] ++
              rest.flatMap Parameter.text)))
          have hsplit := @splitAtFirst_plain equalsSign [] _ hname
            ([equalsSign] ++ ([quoteMark] ++ (parameter.value ++
              ([quoteMark] ++ rest.flatMap Parameter.text))))
          rw [hself, before_some, List.append_nil] at hsplit
          have hquoted := parseQuoted_append parameter.value_plain
            (rest.flatMap Parameter.text)
          have hblank : ([32] ++ (parameter.name ++ ([equalsSign] ++
              ([quoteMark] ++ (parameter.value ++ ([quoteMark] ++
                rest.flatMap Parameter.text)))))).dropWhile isBlank =
              parameter.name ++ ([equalsSign] ++ ([quoteMark] ++
                (parameter.value ++ ([quoteMark] ++
                  rest.flatMap Parameter.text)))) := by
            have hskip : isBlank 32 = true := rfl
            rw [List.singleton_append, List.dropWhile_cons_of_pos hskip]
            cases hcase : parameter.name with
            | nil => rfl
            | cons byte others =>
                have hbyte := (parameter.name_plain byte (by
                  rw [hcase]
                  exact List.mem_cons_self)).2
                rw [List.cons_append,
                  List.dropWhile_cons_of_neg (by simp [hbyte])]
          have htext : (parameter :: rest).flatMap Parameter.text =
              semicolon :: ([32] ++ (parameter.name ++ ([equalsSign] ++
                ([quoteMark] ++ (parameter.value ++ ([quoteMark] ++
                  rest.flatMap Parameter.text)))))) := by
            simp [Parameter.text]
          rw [htext, parseParameters, hblank, hsplit]
          simp only [List.singleton_append] at hquoted ⊢
          simp only [guard_true, Option.bind_eq_bind, Option.bind_some,
            Option.pure_def, hquoted, hrest]
          rfl

theorem length_le_flatMap (parameters : List Parameter) :
    parameters.length ≤ (parameters.flatMap Parameter.text).length := by
  induction parameters with
  | nil => exact le_refl 0
  | cons parameter rest ih =>
      rw [List.flatMap_cons, List.length_append, List.length_cons,
        Parameter.text, List.length_append, List.length_cons]
      omega

/-- A disposition is read as its kind and its parameters. -/
theorem parseDisposition_append {kind : Bytes} (hkind : semicolon ∉ kind)
    (parameters : List Parameter) :
    parseDisposition (kind ++ parameters.flatMap Parameter.text) =
      some ⟨kind, parameters.map Parameter.pair⟩ := by
  have hplain : ∀ byte ∈ kind, (byte != semicolon) = true := by
    intro byte hbyte
    rw [bne_iff_ne]
    rintro rfl
    exact hkind hbyte
  have hfuel : parameters.length ≤
      (kind ++ parameters.flatMap Parameter.text).length := by
    have hlength := length_le_flatMap parameters
    rw [List.length_append]
    omega
  have hcut : (parameters.flatMap Parameter.text).takeWhile
        (· != semicolon) = [] ∧
      (parameters.flatMap Parameter.text).dropWhile (· != semicolon) =
        parameters.flatMap Parameter.text := by
    cases parameters with
    | nil => exact ⟨rfl, rfl⟩
    | cons parameter rest => exact ⟨rfl, rfl⟩
  rw [parseDisposition, List.dropWhile_append_of_pos hplain,
    List.takeWhile_append_of_pos hplain, hcut.1, hcut.2,
    parseParameters_flatMap hfuel, List.append_nil]
  rfl

end MultipartForm
