import Dovetail.CodeUnits
import Dovetail.TransitionRun

/-!
# JSON documents

An indenting encoder and a decoder for JSON over strings of code units.  The
decoder is a scanner of tokens and a machine with a stack of open lists and
maps; a key that comes twice keeps its first place and its last value.  A
document of maps and strings is decoded to what was encoded.
-/

namespace JsonDocument

open CodeUnits
open TransitionRun

/-- A JSON value; a number is kept as it is spelled. -/
inductive Value where
  | null
  | bool (value : Bool)
  | number (spelling : Text)
  | string (value : Text)
  | list (items : List Value)
  | map (fields : List (Text × Value))

/-! ## Encoding -/

def quote : UInt16 := 34
def comma : UInt16 := 44
def colon : UInt16 := 58
def backslash : UInt16 := 92
def leftBracket : UInt16 := 91
def rightBracket : UInt16 := 93
def leftBrace : UInt16 := 123
def rightBrace : UInt16 := 125

def hexDigit (value : Nat) : UInt16 :=
  UInt16.ofNat (if value < 10 then 48 + value else 87 + value)

/-- The escape of a code unit by its four hexadecimal digits. -/
def escapeUnicode (unit : UInt16) : Text :=
  let code := unit.toNat
  [backslash, 117, hexDigit (code / 4096), hexDigit (code / 256 % 16),
    hexDigit (code / 16 % 16), hexDigit (code % 16)]

/-- A code unit of a string between its neighbours: a surrogate is escaped
when it is alone. -/
def escape (previous : Option UInt16) (unit : UInt16)
    (next : Option UInt16) : Text :=
  if 92 < unit.toNat then
    if (isLead unit && !next.any isTrail) ||
        (isTrail unit && !previous.any isLead) then
      escapeUnicode unit
    else [unit]
  else if unit.toNat < 32 then
    match unit with
    | 8 => [backslash, 98]
    | 9 => [backslash, 116]
    | 10 => [backslash, 110]
    | 12 => [backslash, 102]
    | 13 => [backslash, 114]
    | _ => escapeUnicode unit
  else if unit = quote ∨ unit = backslash then [backslash, unit]
  else [unit]

def escapeAll (previous : Option UInt16) : Text → Text
  | [] => []
  | unit :: rest =>
      escape previous unit rest.head? ++ escapeAll (some unit) rest

def quoted (source : Text) : Text :=
  quote :: (escapeAll none source ++ [quote])

/-- A new line at the given depth. -/
def breakLine (indent : Text) (level : Nat) : Text :=
  newline :: (List.replicate level indent).flatten

mutual

def encode (indent : Text) (level : Nat) : Value → Text
  | .null => text "null"
  | .bool true => text "true"
  | .bool false => text "false"
  | .number spelling => spelling
  | .string value => quoted value
  | .list items =>
      leftBracket :: (encodeItems indent (level + 1) items ++
        (if items.isEmpty then [] else breakLine indent level) ++
          [rightBracket])
  | .map fields =>
      leftBrace :: (encodeFields indent (level + 1) fields ++
        (if fields.isEmpty then [] else breakLine indent level) ++
          [rightBrace])

def encodeItems (indent : Text) (level : Nat) : List Value → Text
  | [] => []
  | item :: rest =>
      breakLine indent level ++ encode indent level item ++
        (if rest.isEmpty then [] else [comma]) ++
          encodeItems indent level rest

def encodeFields (indent : Text) (level : Nat) : List (Text × Value) → Text
  | [] => []
  | (key, value) :: rest =>
      breakLine indent level ++ quoted key ++ [colon, 32] ++
        encode indent level value ++
          (if rest.isEmpty then [] else [comma]) ++
            encodeFields indent level rest

end

/-! ## Tokens -/

inductive Token where
  | leftBrace
  | rightBrace
  | leftBracket
  | rightBracket
  | comma
  | colon
  | null
  | bool (value : Bool)
  | number (spelling : Text)
  | string (value : Text)

/-- How far a number has been spelled. -/
inductive NumberPhase where
  | minus
  | zero
  | integer
  | point
  | fraction
  | exponent
  | sign
  | power

def isDigit (unit : UInt16) : Bool := 48 ≤ unit.toNat && unit.toNat ≤ 57

/-- The phase after one more unit, when that is part of the number. -/
def NumberPhase.advance (phase : NumberPhase) (unit : UInt16) :
    Option NumberPhase :=
  match phase with
  | .minus =>
      if unit = 48 then some .zero
      else if isDigit unit then some .integer
      else none
  | .zero =>
      if unit = 46 then some .point
      else if unit = 101 ∨ unit = 69 then some .exponent
      else none
  | .integer =>
      if isDigit unit then some .integer
      else if unit = 46 then some .point
      else if unit = 101 ∨ unit = 69 then some .exponent
      else none
  | .point => if isDigit unit then some .fraction else none
  | .fraction =>
      if isDigit unit then some .fraction
      else if unit = 101 ∨ unit = 69 then some .exponent
      else none
  | .exponent =>
      if unit = 43 ∨ unit = 45 then some .sign
      else if isDigit unit then some .power
      else none
  | .sign => if isDigit unit then some .power else none
  | .power => if isDigit unit then some .power else none

/-- A number may end here. -/
def NumberPhase.complete : NumberPhase → Bool
  | .zero | .integer | .fraction | .power => true
  | .minus | .point | .exponent | .sign => false

/-- What the scanner is inside of. -/
inductive Scan where
  | ready
  | string (read : Text)
  | escape (read : Text)
  | unicode (read : Text) (digits value : Nat)
  | number (spelling : Text) (phase : NumberPhase)
  | word (left : Text) (token : Token)

structure Scanner where
  tokens : List Token
  scan : Scan

def isBlank (unit : UInt16) : Bool :=
  unit == 32 || unit == 9 || unit == 10 || unit == 13

def hexValue? (unit : UInt16) : Option Nat :=
  let code := unit.toNat
  if 48 ≤ code ∧ code ≤ 57 then some (code - 48)
  else if 97 ≤ code ∧ code ≤ 102 then some (code - 87)
  else if 65 ≤ code ∧ code ≤ 70 then some (code - 55)
  else none

def unescape? (unit : UInt16) : Option UInt16 :=
  if unit = quote ∨ unit = backslash ∨ unit = 47 then some unit
  else if unit = 98 then some 8
  else if unit = 102 then some 12
  else if unit = 110 then some 10
  else if unit = 114 then some 13
  else if unit = 116 then some 9
  else none

/-- A unit between tokens. -/
def begin (tokens : List Token) (unit : UInt16) : Option Scanner :=
  if isBlank unit then some ⟨tokens, .ready⟩
  else if unit = quote then some ⟨tokens, .string []⟩
  else if unit = leftBrace then some ⟨tokens ++ [.leftBrace], .ready⟩
  else if unit = rightBrace then some ⟨tokens ++ [.rightBrace], .ready⟩
  else if unit = leftBracket then some ⟨tokens ++ [.leftBracket], .ready⟩
  else if unit = rightBracket then some ⟨tokens ++ [.rightBracket], .ready⟩
  else if unit = comma then some ⟨tokens ++ [.comma], .ready⟩
  else if unit = colon then some ⟨tokens ++ [.colon], .ready⟩
  else if unit = 110 then some ⟨tokens, .word (text "ull") .null⟩
  else if unit = 116 then some ⟨tokens, .word (text "rue") (.bool true)⟩
  else if unit = 102 then some ⟨tokens, .word (text "alse") (.bool false)⟩
  else if unit = 45 then some ⟨tokens, .number [unit] .minus⟩
  else if unit = 48 then some ⟨tokens, .number [unit] .zero⟩
  else if isDigit unit then some ⟨tokens, .number [unit] .integer⟩
  else none

def Scanner.step (scanner : Scanner) (unit : UInt16) : Option Scanner :=
  match scanner with
  | ⟨tokens, .ready⟩ => begin tokens unit
  | ⟨tokens, .string read⟩ =>
      if unit = quote then some ⟨tokens ++ [.string read], .ready⟩
      else if unit = backslash then some ⟨tokens, .escape read⟩
      else if unit.toNat < 32 then none
      else some ⟨tokens, .string (read ++ [unit])⟩
  | ⟨tokens, .escape read⟩ =>
      if unit = 117 then some ⟨tokens, .unicode read 0 0⟩
      else (unescape? unit).map fun plain => ⟨tokens, .string (read ++ [plain])⟩
  | ⟨tokens, .unicode read digits value⟩ =>
      (hexValue? unit).map fun digit =>
        let value := value * 16 + digit
        if digits = 3 then ⟨tokens, .string (read ++ [UInt16.ofNat value])⟩
        else ⟨tokens, .unicode read (digits + 1) value⟩
  | ⟨tokens, .number spelling phase⟩ =>
      match phase.advance unit with
      | some next => some ⟨tokens, .number (spelling ++ [unit]) next⟩
      | none =>
          if phase.complete then begin (tokens ++ [.number spelling]) unit
          else none
  | ⟨tokens, .word left token⟩ =>
      match left with
      | [] => none
      | expected :: rest =>
          if unit ≠ expected then none
          else if rest.isEmpty then some ⟨tokens ++ [token], .ready⟩
          else some ⟨tokens, .word rest token⟩

def Scanner.finish : Scanner → Option (List Token)
  | ⟨tokens, .ready⟩ => some tokens
  | ⟨tokens, .number spelling phase⟩ =>
      if phase.complete then some (tokens ++ [.number spelling]) else none
  | _ => none

def tokenize (source : Text) : Option (List Token) :=
  (run Scanner.step ⟨[], .ready⟩ source).bind Scanner.finish

/-! ## Values from tokens -/

/-- A list or a map that is open around the value being read. -/
inductive Around where
  | list (items : List Value)
  | map (fields : List (Text × Value)) (key : Text)

inductive Reading where
  | wantValue (around : List Around)
  | firstItem (around : List Around)
  | firstKey (around : List Around)
  | wantKey (around : List Around) (fields : List (Text × Value))
  | wantColon (around : List Around) (fields : List (Text × Value))
      (key : Text)
  | after (around : List Around) (value : Value)

/-- The entry replaces one of the same key, or comes last. -/
def put (fields : List (Text × Value)) (key : Text) (value : Value) :
    List (Text × Value) :=
  if fields.any fun entry => entry.1 == key then
    fields.map fun entry => if entry.1 == key then (key, value) else entry
  else fields ++ [(key, value)]

def readValue (around : List Around) : Token → Option Reading
  | .null => some (.after around .null)
  | .bool value => some (.after around (.bool value))
  | .number spelling => some (.after around (.number spelling))
  | .string value => some (.after around (.string value))
  | .leftBracket => some (.firstItem around)
  | .leftBrace => some (.firstKey around)
  | _ => none

def Reading.step (reading : Reading) (token : Token) : Option Reading :=
  match reading, token with
  | .wantValue around, token => readValue around token
  | .firstItem around, .rightBracket => some (.after around (.list []))
  | .firstItem around, token => readValue (.list [] :: around) token
  | .firstKey around, .rightBrace => some (.after around (.map []))
  | .firstKey around, .string key => some (.wantColon around [] key)
  | .wantKey around fields, .string key => some (.wantColon around fields key)
  | .wantColon around fields key, .colon =>
      some (.wantValue (.map fields key :: around))
  | .after (.list items :: around) value, .comma =>
      some (.wantValue (.list (items ++ [value]) :: around))
  | .after (.list items :: around) value, .rightBracket =>
      some (.after around (.list (items ++ [value])))
  | .after (.map fields key :: around) value, .comma =>
      some (.wantKey around (put fields key value))
  | .after (.map fields key :: around) value, .rightBrace =>
      some (.after around (.map (put fields key value)))
  | _, _ => none

def Reading.finish : Reading → Option Value
  | .after [] value => some value
  | _ => none

def parse (tokens : List Token) : Option Value :=
  (run Reading.step (.wantValue []) tokens).bind Reading.finish

def decode (source : Text) : Option Value :=
  (tokenize source).bind parse

/-! ## What was encoded is decoded -/

/-- A document of strings and of maps whose keys differ. -/
inductive Plain : Value → Prop where
  | string {value : Text} : Plain (.string value)
  | map {fields : List (Text × Value)} :
      (fields.map Prod.fst).Nodup → (∀ entry ∈ fields, Plain entry.2) →
        Plain (.map fields)

mutual

/-- The tokens of a value. -/
def spell : Value → List Token
  | .null => [.null]
  | .bool value => [.bool value]
  | .number spelling => [.number spelling]
  | .string value => [.string value]
  | .list items => .leftBracket :: (spellItems items ++ [.rightBracket])
  | .map fields => .leftBrace :: (spellFields fields ++ [.rightBrace])

def spellItems : List Value → List Token
  | [] => []
  | item :: rest =>
      spell item ++ (if rest.isEmpty then [] else [.comma]) ++ spellItems rest

def spellFields : List (Text × Value) → List Token
  | [] => []
  | (key, value) :: rest =>
      [.string key, .colon] ++ spell value ++
        (if rest.isEmpty then [] else [.comma]) ++ spellFields rest

end

section

variable {tokens : List Token} {read : Text}

theorem hexValue?_hexDigit {value : Nat} (hvalue : value < 16) :
    hexValue? (hexDigit value) = some value := by
  decide +revert

theorem run_escapeUnicode (unit : UInt16) :
    run Scanner.step ⟨tokens, .string read⟩ (escapeUnicode unit) =
      some ⟨tokens, .string (read ++ [unit])⟩ := by
  have hlt : unit.toNat < 65536 := unit.toNat_lt_size
  have hfirst := hexValue?_hexDigit (show unit.toNat / 4096 < 16 by omega)
  have hsecond := hexValue?_hexDigit
    (show unit.toNat / 256 % 16 < 16 by omega)
  have hthird := hexValue?_hexDigit (show unit.toNat / 16 % 16 < 16 by omega)
  have hfourth := hexValue?_hexDigit (show unit.toNat % 16 < 16 by omega)
  have hcode : ((unit.toNat / 4096 * 16 + unit.toNat / 256 % 16) * 16 +
      unit.toNat / 16 % 16) * 16 + unit.toNat % 16 = unit.toNat := by omega
  simp [escapeUnicode, Scanner.step, backslash, quote, hfirst, hsecond,
    hthird, hfourth, hcode, -UInt16.ofNat_add, -UInt16.ofNat_mul]

/-- A unit that needs no escape is read as it is. -/
theorem run_plain_unit {unit : UInt16} (hquote : unit ≠ quote)
    (hbackslash : unit ≠ backslash) (hcontrol : ¬ unit.toNat < 32) :
    run Scanner.step ⟨tokens, .string read⟩ [unit] =
      some ⟨tokens, .string (read ++ [unit])⟩ := by
  simp [Scanner.step, hquote, hbackslash, hcontrol]

theorem run_unescape {letter unit : UInt16} (hletter : letter ≠ 117)
    (hunescape : unescape? letter = some unit) :
    run Scanner.step ⟨tokens, .string read⟩ [backslash, letter] =
      some ⟨tokens, .string (read ++ [unit])⟩ := by
  simp [Scanner.step, backslash, quote, hletter, hunescape]

theorem run_escape (previous next : Option UInt16) (unit : UInt16) :
    run Scanner.step ⟨tokens, .string read⟩ (escape previous unit next) =
      some ⟨tokens, .string (read ++ [unit])⟩ := by
  unfold escape
  split_ifs with habove halone hcontrol hspecial
  · exact run_escapeUnicode unit
  · refine run_plain_unit ?_ ?_ (by omega) <;>
      · rintro rfl
        exact absurd habove (by decide)
  · split
    · exact run_unescape (by decide) rfl
    · exact run_unescape (by decide) rfl
    · exact run_unescape (by decide) rfl
    · exact run_unescape (by decide) rfl
    · exact run_unescape (by decide) rfl
    · exact run_escapeUnicode unit
  · rcases hspecial with rfl | rfl <;> exact run_unescape (by decide) rfl
  · rw [not_or] at hspecial
    exact run_plain_unit hspecial.1 hspecial.2 hcontrol

theorem run_escapeAll (previous : Option UInt16) (source : Text) :
    run Scanner.step ⟨tokens, .string read⟩ (escapeAll previous source) =
      some ⟨tokens, .string (read ++ source)⟩ := by
  induction source generalizing previous read with
  | nil => simp [escapeAll]
  | cons unit rest ih =>
      have hunit : run Scanner.step ⟨tokens, .string read⟩
          (escape previous unit rest.head?) =
            some ⟨tokens, .string (read ++ [unit])⟩ :=
        run_escape previous rest.head? unit
      rw [escapeAll, run_append_of_eq_some hunit, ih]
      simp

end

/-- Between tokens the source is scanned to these tokens. -/
def Scans (source : Text) (added : List Token) : Prop :=
  ∀ tokens, run Scanner.step ⟨tokens, .ready⟩ source =
    some ⟨tokens ++ added, .ready⟩

section

variable {source other : Text} {added more : List Token}

theorem scans_nil : Scans [] [] := by
  intro tokens
  simp

theorem Scans.append (hsource : Scans source added)
    (hother : Scans other more) : Scans (source ++ other) (added ++ more) := by
  intro tokens
  rw [run_append_of_eq_some (hsource tokens), hother, List.append_assoc]

theorem scans_unit {unit : UInt16} {token : Token}
    (hunit : ∀ tokens, begin tokens unit = some ⟨tokens ++ [token], .ready⟩) :
    Scans [unit] [token] := by
  intro tokens
  simp [Scanner.step, hunit]

theorem Scans.cons {unit : UInt16} {token : Token}
    (hunit : ∀ tokens, begin tokens unit = some ⟨tokens ++ [token], .ready⟩)
    (hsource : Scans source added) :
    Scans (unit :: source) (token :: added) :=
  (scans_unit hunit).append hsource

theorem scans_blank (hblank : ∀ unit ∈ source, isBlank unit) :
    Scans source [] := by
  induction source with
  | nil => exact scans_nil
  | cons unit rest ih =>
      intro tokens
      have hunit := hblank unit (by simp)
      have hrest := ih (fun other hother => hblank other (by simp [hother]))
        tokens
      simpa [Scanner.step, begin, hunit] using hrest

theorem scans_quoted (source : Text) :
    Scans (quoted source) [.string source] := by
  intro tokens
  have hsource : run Scanner.step ⟨tokens, .string []⟩
      (escapeAll none source) = some ⟨tokens, .string source⟩ :=
    run_escapeAll none source
  have hopen : Scanner.step ⟨tokens, .ready⟩ quote =
      some ⟨tokens, .string []⟩ := rfl
  rw [quoted, run_cons, hopen, Option.bind_some,
    run_append_of_eq_some hsource]
  simp [Scanner.step]

end

section

variable {indent : Text} (hindent : ∀ unit ∈ indent, isBlank unit)
include hindent

theorem scans_breakLine (level : Nat) : Scans (breakLine indent level) [] := by
  refine scans_blank fun unit hunit => ?_
  rcases List.mem_cons.mp hunit with rfl | hrest
  · rfl
  · obtain ⟨part, hpart, hmem⟩ := List.mem_flatten.mp hrest
    rw [List.eq_of_mem_replicate hpart] at hmem
    exact hindent unit hmem

theorem scans_encodeFields {fields : List (Text × Value)}
    (hvalues : ∀ entry ∈ fields, ∀ level,
      Scans (encode indent level entry.2) (spell entry.2)) (level : Nat) :
    Scans (encodeFields indent level fields) (spellFields fields) := by
  induction fields with
  | nil => exact scans_nil
  | cons entry rest ih =>
      obtain ⟨key, value⟩ := entry
      have hrest := ih fun other hother => hvalues other (by simp [hother])
      have hvalue := hvalues (key, value) (by simp) level
      have hcolon : Scans [colon, 32] [.colon] := fun tokens => rfl
      have hcomma : Scans (if rest.isEmpty then [] else [comma])
          (if rest.isEmpty then [] else [.comma]) := by
        cases rest.isEmpty with
        | true => exact scans_nil
        | false => exact scans_unit fun tokens => rfl
      exact ((((scans_breakLine hindent level).append
        (scans_quoted key)).append hcolon).append hvalue).append hcomma
          |>.append hrest

/-- A plain document is scanned to its tokens. -/
theorem scans_encode {value : Value} (hplain : Plain value) (level : Nat) :
    Scans (encode indent level value) (spell value) := by
  induction hplain generalizing level with
  | string => exact scans_quoted _
  | @map fields _ _ ih =>
      have hfields := scans_encodeFields hindent ih (level + 1)
      have hclose : Scans (if fields.isEmpty then []
          else breakLine indent level) [] := by
        cases fields.isEmpty with
        | true => exact scans_nil
        | false => exact scans_breakLine hindent level
      have hbrace : Scans [rightBrace] [.rightBrace] :=
        scans_unit fun tokens => rfl
      have hbody := (hfields.append hclose).append hbrace
      rw [List.append_nil] at hbody
      exact Scans.cons (fun tokens => rfl) hbody

end

/-! ## Reading the tokens back -/

theorem put_of_notMem {fields : List (Text × Value)} {key : Text}
    (hkey : key ∉ fields.map Prod.fst) (value : Value) :
    put fields key value = fields ++ [(key, value)] := by
  have hnone : (fields.any fun entry => entry.1 == key) = false := by
    simp only [List.any_eq_false, beq_iff_eq]
    intro entry hentry hsame
    exact hkey (List.mem_map.mpr ⟨entry, hentry, hsame⟩)
  simp [put, hnone]

/-- The fields of a map are read one by one, behind those before them. -/
theorem run_spellFields {fields : List (Text × Value)}
    (hvalues : ∀ entry ∈ fields, ∀ around,
      run Reading.step (.wantValue around) (spell entry.2) =
        some (.after around entry.2))
    (done : List (Text × Value)) (around : List Around) (hne : fields ≠ [])
    (hkeys : ((done ++ fields).map Prod.fst).Nodup) :
    run Reading.step (.wantKey around done)
        (spellFields fields ++ [.rightBrace]) =
      some (.after around (.map (done ++ fields))) := by
  induction fields generalizing done with
  | nil => exact absurd rfl hne
  | cons entry rest ih =>
      obtain ⟨key, value⟩ := entry
      have hfresh : key ∉ done.map Prod.fst := by
        rw [List.map_append, List.nodup_append] at hkeys
        intro hmem
        exact hkeys.2.2 key hmem key (by simp) rfl
      have hput := put_of_notMem hfresh value
      have hvalue := hvalues (key, value) (by simp)
        (.map done key :: around)
      have hread : run Reading.step (.wantKey around done)
          ([.string key, .colon] ++ spell value) =
            some (.after (.map done key :: around) value) := hvalue
      cases rest with
      | nil =>
          simp only [spellFields, List.isEmpty_nil, if_true, List.append_nil]
          rw [run_append_of_eq_some hread]
          simp [Reading.step, hput]
      | cons next others =>
          have hrest := ih
            (fun other hother => hvalues other (by simp [hother]))
            (done ++ [(key, value)]) (by simp) (by simpa using hkeys)
          rw [spellFields]
          simp only [List.isEmpty_cons, Bool.false_eq_true, if_false]
          rw [List.append_assoc, List.append_assoc,
            run_append_of_eq_some hread]
          simpa [Reading.step, hput] using hrest

theorem run_spell {value : Value} (hplain : Plain value)
    (around : List Around) :
    run Reading.step (.wantValue around) (spell value) =
      some (.after around value) := by
  induction hplain generalizing around with
  | string => rfl
  | @map fields hkeys _ ih =>
      cases fields with
      | nil => rfl
      | cons entry rest =>
          exact run_spellFields ih [] around (by simp) (by simpa using hkeys)

/-- A plain document is decoded to what was encoded, with blank space behind
it. -/
theorem decode_encode {indent : Text}
    (hindent : ∀ unit ∈ indent, isBlank unit) {value : Value}
    (hplain : Plain value) {rest : Text}
    (hrest : ∀ unit ∈ rest, isBlank unit) :
    decode (encode indent 0 value ++ rest) = some value := by
  have hscans := (scans_encode hindent hplain 0).append (scans_blank hrest)
  have htokens : tokenize (encode indent 0 value ++ rest) =
      some (spell value) := by
    simp [tokenize, hscans [], Scanner.finish]
  simp [decode, htokens, parse, run_spell hplain, Reading.finish]

end JsonDocument
