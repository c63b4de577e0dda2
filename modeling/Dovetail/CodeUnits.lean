import Mathlib.Data.List.DropRight
import Mathlib.Tactic

/-!
# Strings of code units

A string is the list of its UTF-16 code units, surrogates that pair up or
not.  Below are what the standard library of a language with such strings
does to them: trimming, lines, and UTF-8 in both directions.
-/

namespace CodeUnits

abbrev Text := List UInt16

/-- Strings are compared unit by unit. -/
instance lawfulText : LawfulBEq Text := inferInstance

/-! What holds of all units of a string is decided unit by unit, and not by a
search through all the units there are. -/

section

instance decidableForallFound {p : UInt16 → Prop} [DecidablePred p]
    (found : Option UInt16) : Decidable (∀ unit ∈ found, p unit) :=
  Option.decidableForallMem found

instance decidableForallUnit {p : UInt16 → Prop} [DecidablePred p]
    (units : List UInt16) : Decidable (∀ unit ∈ units, p unit) :=
  List.decidableBAll _ units

instance decidableForallByte {p : UInt8 → Prop} [DecidablePred p]
    (bytes : List UInt8) : Decidable (∀ byte ∈ bytes, p byte) :=
  List.decidableBAll _ bytes

instance decidableForallChar {p : Char → Prop} [DecidablePred p]
    (chars : List Char) : Decidable (∀ char ∈ chars, p char) :=
  List.decidableBAll _ chars

end

/-! ## Code points -/

/-- The code units of a code point. -/
def units (rune : Char) : Text :=
  if rune.toNat < 0x10000 then [UInt16.ofNat rune.toNat]
  else
    let offset := rune.toNat - 0x10000
    [UInt16.ofNat (0xD800 + offset / 0x400),
      UInt16.ofNat (0xDC00 + offset % 0x400)]

def text (source : String) : Text := source.toList.flatMap units

/-- The units of a literal, by its characters. -/
theorem text_ofList (chars : List Char) :
    text (no_index (String.ofList chars)) = chars.flatMap units := by
  rw [text, String.toList_ofList]

def isLead (unit : UInt16) : Bool := unit.toNat / 0x400 == 54

def isTrail (unit : UInt16) : Bool := unit.toNat / 0x400 == 55

def isSurrogate (unit : UInt16) : Bool := isLead unit || isTrail unit

/-- A code unit on its own; a lone surrogate is replaced. -/
def single (unit : UInt16) : Char :=
  if isSurrogate unit then Char.ofNat 0xFFFD else Char.ofNat unit.toNat

def pair (lead trail : UInt16) : Char :=
  Char.ofNat (0x10000 + (lead.toNat - 0xD800) * 0x400 +
    (trail.toNat - 0xDC00))

/-- The code points, with a replacement character for a lone surrogate. -/
def runes : Text → List Char
  | [] => []
  | [unit] => [single unit]
  | unit :: next :: rest =>
      if isLead unit && isTrail next then pair unit next :: runes rest
      else single unit :: runes (next :: rest)

/-- The text with its lone surrogates replaced. -/
def repaired (source : Text) : Text := (runes source).flatMap units

/-- Every surrogate is half of a pair. -/
def wellFormed : Text → Bool
  | [] => true
  | [unit] => !isSurrogate unit
  | unit :: next :: rest =>
      if isLead unit && isTrail next then wellFormed rest
      else !isSurrogate unit && wellFormed (next :: rest)

theorem toNat_ofNat_of_valid {value : Nat} (hvalid : value.isValidChar) :
    (Char.ofNat value).toNat = value := by
  unfold Char.ofNat
  rw [dif_pos hvalid]
  rfl

theorem units_single {unit : UInt16} (hunit : isSurrogate unit = false) :
    units (single unit) = [unit] := by
  have hlt := unit.toNat_lt_size
  have hvalid : unit.toNat.isValidChar := by
    simp only [isSurrogate, isLead, isTrail, Bool.or_eq_false_iff,
      beq_eq_false_iff_ne] at hunit
    simp only [UInt16.size] at hlt
    unfold Nat.isValidChar
    omega
  have hbound : unit.toNat < 0x10000 := by simpa [UInt16.size] using hlt
  simp [units, single, hunit, toNat_ofNat_of_valid hvalid, hbound]

theorem units_pair {lead trail : UInt16} (hlead : isLead lead = true)
    (htrail : isTrail trail = true) :
    units (pair lead trail) = [lead, trail] := by
  simp only [isLead, isTrail, beq_iff_eq] at hlead htrail
  have hvalid : (0x10000 + (lead.toNat - 0xD800) * 0x400 +
      (trail.toNat - 0xDC00)).isValidChar := by
    unfold Nat.isValidChar
    omega
  have hlarge : ¬ 0x10000 + (lead.toNat - 0xD800) * 0x400 +
      (trail.toNat - 0xDC00) < 0x10000 := by omega
  have hhigh : 0xD800 + (0x10000 + (lead.toNat - 0xD800) * 0x400 +
      (trail.toNat - 0xDC00) - 0x10000) / 0x400 = lead.toNat := by omega
  have hlow : 0xDC00 + (0x10000 + (lead.toNat - 0xD800) * 0x400 +
      (trail.toNat - 0xDC00) - 0x10000) % 0x400 = trail.toNat := by omega
  simp only [units, pair, toNat_ofNat_of_valid hvalid, if_neg hlarge,
    hhigh, hlow, UInt16.ofNat_toNat]

/-- Nothing is replaced in a well-formed text. -/
theorem repaired_eq_self {source : Text} (hwell : wellFormed source = true) :
    repaired source = source := by
  induction source using runes.induct with
  | case1 => rfl
  | case2 unit =>
      simp only [wellFormed, Bool.not_eq_true'] at hwell
      simp [repaired, runes, units_single hwell]
  | case3 unit next rest hpair ih =>
      simp only [wellFormed, hpair, if_true] at hwell
      obtain ⟨hlead, htrail⟩ := by simpa using hpair
      have hrest : (runes rest).flatMap units = rest := ih hwell
      simp [repaired, runes, hpair, units_pair hlead htrail, hrest]
  | case4 unit next rest hpair ih =>
      simp only [wellFormed, hpair, if_false, Bool.and_eq_true,
        Bool.not_eq_true', Bool.false_eq_true] at hwell
      have hrest : (runes (next :: rest)).flatMap units = next :: rest :=
        ih hwell.2
      simp [repaired, runes, hpair, units_single hwell.1, hrest]

/-- Units that are no surrogates stand for themselves. -/
theorem repaired_append {before after : Text}
    (hbefore : ∀ unit ∈ before, isSurrogate unit = false) :
    repaired (before ++ after) = before ++ repaired after := by
  induction before with
  | nil => rfl
  | cons unit rest ih =>
      have hunit := hbefore unit (by simp)
      have hlead : isLead unit = false := by
        simp only [isSurrogate, Bool.or_eq_false_iff] at hunit
        exact hunit.1
      have hrest := ih fun other hother => hbefore other (by simp [hother])
      have hstep : runes (unit :: (rest ++ after)) =
          single unit :: runes (rest ++ after) := by
        cases rest ++ after with
        | nil => rfl
        | cons next others => simp [runes, hlead]
      unfold repaired at hrest ⊢
      rw [List.cons_append, hstep, List.flatMap_cons, units_single hunit,
        hrest]
      rfl

theorem repaired_eq_self_of_forall {source : Text}
    (hsource : ∀ unit ∈ source, isSurrogate unit = false) :
    repaired source = source := by
  have hsplit : repaired (source ++ []) = source ++ repaired [] :=
    repaired_append hsource
  simpa [repaired, runes] using hsplit

theorem runes_units_append (rune : Char) (rest : Text) :
    runes (units rune ++ rest) = rune :: runes rest := by
  have hvalid : rune.toNat.isValidChar := rune.valid
  unfold Nat.isValidChar at hvalid
  by_cases hsmall : rune.toNat < 0x10000
  · have hcode : (UInt16.ofNat rune.toNat).toNat = rune.toNat := by
      rw [UInt16.toNat_ofNat']
      exact Nat.mod_eq_of_lt hsmall
    have hlead : isLead (UInt16.ofNat rune.toNat) = false := by
      rw [isLead, hcode, beq_eq_false_iff_ne]
      omega
    have htrail : isTrail (UInt16.ofNat rune.toNat) = false := by
      rw [isTrail, hcode, beq_eq_false_iff_ne]
      omega
    have hsingle : single (UInt16.ofNat rune.toNat) = rune := by
      simp [single, isSurrogate, hlead, htrail, hcode, -UInt16.toNat_ofNat']
    rw [units, if_pos hsmall]
    cases rest with
    | nil => simp [runes, hsingle]
    | cons next others => simp [runes, hlead, hsingle]
  · have hhigh : (UInt16.ofNat (0xD800 + (rune.toNat - 0x10000) / 0x400)).toNat =
        0xD800 + (rune.toNat - 0x10000) / 0x400 := by
      rw [UInt16.toNat_ofNat']
      omega
    have hlow : (UInt16.ofNat (0xDC00 + (rune.toNat - 0x10000) % 0x400)).toNat =
        0xDC00 + (rune.toNat - 0x10000) % 0x400 := by
      rw [UInt16.toNat_ofNat']
      omega
    have hlead : isLead (UInt16.ofNat
        (0xD800 + (rune.toNat - 0x10000) / 0x400)) = true := by
      rw [isLead, hhigh, beq_iff_eq]
      omega
    have htrail : isTrail (UInt16.ofNat
        (0xDC00 + (rune.toNat - 0x10000) % 0x400)) = true := by
      rw [isTrail, hlow, beq_iff_eq]
      omega
    have hcode : 0x10000 + (0xD800 + (rune.toNat - 0x10000) / 0x400 - 0xD800) *
        0x400 + (0xDC00 + (rune.toNat - 0x10000) % 0x400 - 0xDC00) =
        rune.toNat := by omega
    rw [units, if_neg hsmall]
    simp only [List.cons_append, List.nil_append, runes, hlead, htrail,
      Bool.and_self, if_true, pair, hhigh, hlow, hcode, Char.ofNat_toNat]

theorem runes_flatMap_units (decoded : List Char) :
    runes (decoded.flatMap units) = decoded := by
  induction decoded with
  | nil => rfl
  | cons rune rest ih => rw [List.flatMap_cons, runes_units_append, ih]

theorem wellFormed_units_append (rune : Char) (rest : Text) :
    wellFormed (units rune ++ rest) = wellFormed rest := by
  have hvalid : rune.toNat.isValidChar := rune.valid
  unfold Nat.isValidChar at hvalid
  by_cases hsmall : rune.toNat < 0x10000
  · have hcode : (UInt16.ofNat rune.toNat).toNat = rune.toNat := by
      rw [UInt16.toNat_ofNat']
      exact Nat.mod_eq_of_lt hsmall
    have hlead : isLead (UInt16.ofNat rune.toNat) = false := by
      rw [isLead, hcode, beq_eq_false_iff_ne]
      omega
    have htrail : isTrail (UInt16.ofNat rune.toNat) = false := by
      rw [isTrail, hcode, beq_eq_false_iff_ne]
      omega
    rw [units, if_pos hsmall]
    cases rest with
    | nil => simp [wellFormed, isSurrogate, hlead, htrail]
    | cons next others => simp [wellFormed, isSurrogate, hlead, htrail]
  · have hlead : isLead (UInt16.ofNat
        (0xD800 + (rune.toNat - 0x10000) / 0x400)) = true := by
      rw [isLead, UInt16.toNat_ofNat', beq_iff_eq]
      omega
    have htrail : isTrail (UInt16.ofNat
        (0xDC00 + (rune.toNat - 0x10000) % 0x400)) = true := by
      rw [isTrail, UInt16.toNat_ofNat', beq_iff_eq]
      omega
    rw [units, if_neg hsmall]
    simp only [List.cons_append, List.nil_append, wellFormed, hlead, htrail,
      Bool.and_self, if_true]

section

variable {before : Text} (hbefore : wellFormed before = true) (after : Text)
include hbefore

/-- Behind a well-formed text the code points begin anew. -/
theorem runes_append : runes (before ++ after) = runes before ++ runes after := by
  have hunits : (runes before).flatMap units = before :=
    repaired_eq_self hbefore
  have hall : ∀ decoded : List Char,
      runes (decoded.flatMap units ++ after) = decoded ++ runes after := by
    intro decoded
    induction decoded with
    | nil => rfl
    | cons rune rest ih =>
        rw [List.flatMap_cons, List.append_assoc, runes_units_append, ih]
        rfl
  have hruns := hall (runes before)
  rwa [hunits] at hruns

theorem wellFormed_append :
    wellFormed (before ++ after) = wellFormed after := by
  have hunits : (runes before).flatMap units = before :=
    repaired_eq_self hbefore
  have hall : ∀ decoded : List Char,
      wellFormed (decoded.flatMap units ++ after) = wellFormed after := by
    intro decoded
    induction decoded with
    | nil => rfl
    | cons rune rest ih =>
        rw [List.flatMap_cons, List.append_assoc, wellFormed_units_append, ih]
  have hwell := hall (runes before)
  rwa [hunits] at hwell

end

theorem wellFormed_cons {unit : UInt16} (hunit : isSurrogate unit = false)
    (rest : Text) : wellFormed (unit :: rest) = wellFormed rest := by
  have hone : wellFormed [unit] = true := by simp [wellFormed, hunit]
  exact wellFormed_append hone rest

/-- A unit that is no surrogate parts a text in two. -/
theorem wellFormed_append_cons (before : Text) {unit : UInt16}
    (hunit : isSurrogate unit = false) (after : Text) :
    wellFormed (before ++ unit :: after) =
      (wellFormed before && wellFormed after) := by
  have htrail : isTrail unit = false := by
    rw [isSurrogate, Bool.or_eq_false_iff] at hunit
    exact hunit.2
  fun_induction wellFormed before with
  | case1 => simp [wellFormed_cons hunit]
  | case2 first =>
      rw [List.singleton_append, wellFormed]
      simp [htrail, wellFormed_cons hunit]
  | case3 first next rest hpair ih =>
      rw [List.cons_append, List.cons_append, wellFormed, if_pos hpair, ih]
  | case4 first next rest hpair ih =>
      rw [List.cons_append, List.cons_append, wellFormed, if_neg hpair,
        ← List.cons_append, ih, Bool.and_assoc]

theorem wellFormed_of_forall {source : Text}
    (hsource : ∀ unit ∈ source, isSurrogate unit = false) :
    wellFormed source = true := by
  induction source with
  | nil => rfl
  | cons unit rest ih =>
      have hunit : wellFormed [unit] = true := by
        simp [wellFormed, hsource unit (by simp)]
      have hrest := ih fun other hother => hsource other (by simp [hother])
      have hboth := wellFormed_append hunit rest
      rw [hrest] at hboth
      exact hboth

/-! ## Numbers -/

theorem text_toString_eq (number : Nat) :
    text (toString number) = (Nat.toDigits 10 number).flatMap units := by
  simp [text, toString, Nat.repr]

theorem runes_text_toString (number : Nat) :
    runes (text (toString number)) = Nat.toDigits 10 number := by
  rw [text_toString_eq, runes_flatMap_units]

theorem text_toString_injective :
    Function.Injective fun number : Nat => text (toString number) := by
  intro a b hsame
  have hdigits (number : Nat) :
      Nat.ofDigitChars 10 (runes (text (toString number))) 0 = number := by
    rw [runes_text_toString, Nat.ofDigitChars_ten_toDigits]
  dsimp only at hsame
  rw [← hdigits a, hsame, hdigits b]

theorem digit_of_mem_text_toString {number : Nat} {unit : UInt16}
    (hunit : unit ∈ text (toString number)) : 48 ≤ unit ∧ unit ≤ 57 := by
  rw [text_toString_eq] at hunit
  rcases List.mem_flatMap.mp hunit with ⟨digit, hdigit, hunits⟩
  have hrange := Nat.isDigit_of_mem_toDigits (by decide) (by decide) hdigit
  simp only [Char.isDigit, Bool.and_eq_true, decide_eq_true_eq,
    ge_iff_le, UInt32.le_iff_toNat_le] at hrange
  change 48 ≤ digit.val.toNat ∧ digit.val.toNat ≤ 57 at hrange
  have hsmall : digit.toNat < 0x10000 := by
    change digit.val.toNat < 0x10000
    omega
  rw [units, if_pos hsmall, List.mem_singleton] at hunits
  have hvalue : (UInt16.ofNat digit.toNat).toNat = digit.val.toNat := by
    change digit.val.toNat % 65536 = digit.val.toNat
    omega
  simp only [hunits, UInt16.le_iff_toNat_le, hvalue, UInt16.reduceToNat]
  exact hrange

/-! ## UTF-8 -/

/-- The UTF-8 of the code points. -/
def utf8Encode (source : Text) : List UInt8 :=
  (runes source).flatMap String.utf8EncodeChar

theorem utf8Encode_append {before : Text} (hbefore : wellFormed before = true)
    (after : Text) :
    utf8Encode (before ++ after) = utf8Encode before ++ utf8Encode after := by
  simp [utf8Encode, runes_append hbefore]

/-- A byte order mark at the start is not part of the text. -/
def dropMark : List Char → List Char
  | [] => []
  | rune :: rest => if rune.toNat = 0xFEFF then rest else rune :: rest

def utf8Decode (bytes : List UInt8) : Option Text :=
  bytes.toByteArray.utf8Decode?.map fun decoded =>
    (dropMark decoded.toList).flatMap units

theorem utf8Decode_utf8Encode (source : Text) :
    utf8Decode (utf8Encode source) =
      some ((dropMark (runes source)).flatMap units) := by
  have hencoded : (utf8Encode source).toByteArray =
      (runes source).utf8Encode := rfl
  simp [utf8Decode, hencoded]

/-- The mark is the one code unit that is lost. -/
theorem flatMap_dropMark (source : List Char) :
    (dropMark source).flatMap units = source.flatMap units ∨
      source.flatMap units = 0xFEFF :: (dropMark source).flatMap units := by
  cases source with
  | nil => exact Or.inl rfl
  | cons rune rest =>
      by_cases hmark : rune.toNat = 0xFEFF
      · refine Or.inr ?_
        simp [dropMark, hmark, units]
      · exact Or.inl (by simp [dropMark, hmark])

/-- A well-formed text without the mark survives UTF-8. -/
theorem utf8Decode_utf8Encode_eq_self {source : Text}
    (hwell : wellFormed source = true) (hmark : source.head? ≠ some 0xFEFF) :
    utf8Decode (utf8Encode source) = some source := by
  have hunits : (runes source).flatMap units = source :=
    repaired_eq_self hwell
  rw [utf8Decode_utf8Encode]
  rcases flatMap_dropMark (runes source) with hsame | hdropped
  · rw [hsame, hunits]
  · rw [hunits] at hdropped
    exact absurd (by rw [hdropped]; rfl) hmark

/-! ## Whitespace and lines -/

/-- The whitespace that trimming removes, the byte order mark included. -/
def isSpace (unit : UInt16) : Bool :=
  let code := unit.toNat
  (9 ≤ code && code ≤ 13) || code == 0x20 || code == 0x85 || code == 0xA0 ||
    code == 0x1680 || (0x2000 ≤ code && code ≤ 0x200A) || code == 0x2028 ||
    code == 0x2029 || code == 0x202F || code == 0x205F || code == 0x3000 ||
    code == 0xFEFF

def trimLeft (source : Text) : Text := source.dropWhile isSpace

def trimRight (source : Text) : Text := source.rdropWhile isSpace

def trim (source : Text) : Text := trimLeft (trimRight source)

def newline : UInt16 := 10

/-- The lines that are not blank, without the whitespace at their end. -/
def filledLines (source : Text) : List Text :=
  ((source.splitOnP (· == newline)).map trimRight).filter fun line =>
    !(trim line).isEmpty

@[simp] theorem isSpace_newline : isSpace newline = true := rfl

theorem isSurrogate_of_isSpace {unit : UInt16} (hspace : isSpace unit = true) :
    isSurrogate unit = false := by
  simp only [isSpace, isSurrogate, isLead, isTrail, Bool.or_eq_true,
    Bool.and_eq_true, decide_eq_true_eq, beq_iff_eq, Bool.or_eq_false_iff,
    beq_eq_false_iff_ne] at *
  omega

theorem trimRight_cons (unit : UInt16) (rest : Text) :
    trimRight (unit :: rest) =
      if trimRight rest = [] then (if isSpace unit then [] else [unit])
      else unit :: trimRight rest := by
  unfold trimRight List.rdropWhile
  rw [List.reverse_cons, List.dropWhile_append]
  by_cases hrest : List.dropWhile isSpace rest.reverse = []
  · by_cases hunit : isSpace unit = true <;> simp [hrest, hunit]
  · simp [hrest, List.isEmpty_iff]

theorem trimRight_concat_of_isSpace {unit : UInt16}
    (hspace : isSpace unit = true) (source : Text) :
    trimRight (source ++ [unit]) = trimRight source :=
  List.rdropWhile_concat_pos isSpace source unit hspace

/-- A blank end of the text changes no filled line. -/
theorem filledLines_concat_of_isSpace {unit : UInt16}
    (hspace : isSpace unit = true) (source : Text) :
    filledLines (source ++ [unit]) = filledLines source := by
  by_cases hnewline : unit = newline
  · subst hnewline
    have hsplit : (source ++ [newline]).splitOnP (· == newline) =
        source.splitOnP (· == newline) ++ [[]] :=
      List.splitOnP_append_cons source [] (by simp)
    simp [filledLines, hsplit, trimRight, trim, trimLeft]
  · have hlines : ((source ++ [unit]).splitOnP (· == newline)).map trimRight =
        (source.splitOnP (· == newline)).map trimRight := by
      induction source with
      | nil =>
          have hunit := trimRight_concat_of_isSpace hspace []
          simpa [List.splitOnP_cons_eq_if_modifyHead, hnewline] using hunit
      | cons head rest ih =>
          rw [List.cons_append, List.splitOnP_cons_eq_if_modifyHead,
            List.splitOnP_cons_eq_if_modifyHead]
          split
          · simp [ih]
          · obtain ⟨first, others, hfirst⟩ := List.exists_cons_of_ne_nil
              (List.splitOnP_ne_nil (· == newline) (rest ++ [unit]))
            obtain ⟨old, older, hold⟩ := List.exists_cons_of_ne_nil
              (List.splitOnP_ne_nil (· == newline) rest)
            rw [hfirst, hold] at ih ⊢
            obtain ⟨hhead, htail⟩ := by simpa using ih
            simp [trimRight_cons, hhead, htail]
    simp only [filledLines, hlines]

theorem trimRight_eq_nil_iff {source : Text} :
    trimRight source = [] ↔ ∀ unit ∈ source, isSpace unit = true :=
  List.rdropWhile_eq_nil_iff

theorem trim_eq_nil_iff {source : Text} :
    trim source = [] ↔ trimRight source = [] := by
  constructor
  · intro htrim
    by_contra hright
    have hlast := List.rdropWhile_last_not isSpace source hright
    have hall : ∀ unit ∈ trimRight source, isSpace unit = true :=
      List.dropWhile_eq_nil_iff.mp htrim
    exact hlast (hall _ (List.getLast_mem hright))
  · intro hright
    simp [trim, hright, trimLeft]

theorem trim_trimRight (source : Text) :
    trim (trimRight source) = trim source := by
  have hidempotent : trimRight (trimRight source) = trimRight source :=
    List.rdropWhile_idempotent isSpace source
  simp [trim, hidempotent]

/-- A blank start of the text touches the first filled line alone. -/
theorem tail?_filledLines_cons_of_isSpace {unit : UInt16}
    (hspace : isSpace unit = true) (source : Text) :
    (filledLines (unit :: source)).tail? = (filledLines source).tail? := by
  unfold filledLines
  rw [List.splitOnP_cons_eq_if_modifyHead]
  split
  · simp [trimRight, trim, trimLeft]
  · obtain ⟨first, others, hfirst⟩ := List.exists_cons_of_ne_nil
      (List.splitOnP_ne_nil (· == newline) source)
    rw [hfirst, List.modifyHead_cons, List.map_cons, List.map_cons,
      trimRight_cons, if_pos hspace]
    by_cases hblank : trimRight first = []
    · simp [hblank]
    · have hold : trim (trimRight first) ≠ [] := by
        rwa [trim_trimRight, ne_eq, trim_eq_nil_iff]
      have hnew : trim (unit :: trimRight first) ≠ [] := by
        rw [ne_eq, trim_eq_nil_iff, trimRight_cons]
        have hright : trimRight (trimRight first) ≠ [] := by
          rwa [ne_eq, ← trim_eq_nil_iff]
        simp [hright]
      rw [if_neg hblank, List.filter_cons_of_pos (by simpa using hnew),
        List.filter_cons_of_pos (by simpa using hold)]
      rfl

theorem tail?_filledLines_trim (source : Text) :
    (filledLines (trim source)).tail? = (filledLines source).tail? := by
  have hright : filledLines (trimRight source) = filledLines source := by
    induction source using List.reverseRecOn with
    | nil => rfl
    | append_singleton rest unit ih =>
        by_cases hspace : isSpace unit = true
        · rw [trimRight_concat_of_isSpace hspace, ih,
            filledLines_concat_of_isSpace hspace]
        · rw [trimRight, List.rdropWhile_concat_neg _ _ _ hspace]
  have hleft : ∀ other : Text,
      (filledLines (trimLeft other)).tail? = (filledLines other).tail? := by
    intro other
    induction other with
    | nil => rfl
    | cons unit rest ih =>
        by_cases hspace : isSpace unit = true
        · rw [trimLeft, List.dropWhile_cons_of_pos hspace,
            tail?_filledLines_cons_of_isSpace hspace]
          exact ih
        · rw [trimLeft, List.dropWhile_cons_of_neg hspace]
  rw [trim, hleft, hright]

theorem trimLeft_concat (source : Text) (unit : UInt16) :
    trimLeft (source ++ [unit]) =
      if trimLeft source = [] then trimLeft [unit]
      else trimLeft source ++ [unit] := by
  unfold trimLeft
  rw [List.dropWhile_append]
  simp [List.isEmpty_iff]

theorem trim_eq_trimRight_trimLeft (source : Text) :
    trim source = trimRight (trimLeft source) := by
  induction source using List.reverseRecOn with
  | nil => rfl
  | append_singleton rest unit ih =>
      by_cases hspace : isSpace unit = true
      · have hsingle : trimLeft [unit] = [] := by simp [trimLeft, hspace]
        have hrest : trim (rest ++ [unit]) = trim rest := by
          rw [trim, trimRight_concat_of_isSpace hspace, trim]
        rw [hrest, ih, trimLeft_concat, hsingle]
        split
        · next hblank => rw [hblank]
        · rw [trimRight_concat_of_isSpace hspace]
      · have hkeep : ∀ other : Text,
            trimRight (other ++ [unit]) = other ++ [unit] := fun other =>
          List.rdropWhile_concat_neg isSpace other unit hspace
        have hsingle : trimLeft [unit] = [unit] := by simp [trimLeft, hspace]
        rw [trim, hkeep, trimLeft_concat, hsingle]
        split
        · exact (hkeep []).symm
        · exact (hkeep _).symm

theorem trim_trim (source : Text) : trim (trim source) = trim source := by
  have hright : trimRight (trim source) = trim source := by
    rw [trim_eq_trimRight_trimLeft]
    exact List.rdropWhile_idempotent isSpace _
  rw [trim, hright, trim]
  exact List.dropWhile_idempotent isSpace _

/-- Trimming the end keeps a beginning that ends in no whitespace. -/
theorem isPrefix_trimRight_iff {opening source : Text} {last : UInt16}
    (hlast : isSpace last = false) :
    opening ++ [last] <+: trimRight source ↔ opening ++ [last] <+: source := by
  constructor
  · exact fun hopens => hopens.trans (List.rdropWhile_prefix _ _)
  · rintro ⟨rest, rfl⟩
    induction rest using List.reverseRecOn with
    | nil =>
        rw [List.append_nil, trimRight, List.rdropWhile_concat_neg]
        simp [hlast]
    | append_singleton rest unit ih =>
        rw [← List.append_assoc]
        by_cases hspace : isSpace unit = true
        · rwa [trimRight_concat_of_isSpace hspace]
        · rw [trimRight, List.rdropWhile_concat_neg _ _ _ hspace,
            List.append_assoc]
          exact List.prefix_append _ _

theorem mem_or_isSpace_of_mem {source : Text} {unit : UInt16}
    (hmem : unit ∈ source) : unit ∈ trim source ∨ isSpace unit = true := by
  by_cases hspace : isSpace unit = true
  · exact Or.inr hspace
  · refine Or.inl ?_
    have hright : unit ∈ trimRight source := by
      induction source using List.reverseRecOn with
      | nil => simp at hmem
      | append_singleton rest last ih =>
          by_cases hlast : isSpace last = true
          · rw [trimRight_concat_of_isSpace hlast]
            refine ih ?_
            rcases List.mem_append.mp hmem with hrest | hlast'
            · exact hrest
            · obtain rfl : unit = last := by simpa using hlast'
              exact absurd hlast hspace
          · rwa [trimRight, List.rdropWhile_concat_neg _ _ _ hlast]
    have hsplit := List.takeWhile_append_dropWhile (p := isSpace)
      (l := trimRight source)
    rw [← hsplit, List.mem_append] at hright
    rcases hright with hdropped | hkept
    · exact absurd (List.mem_takeWhile_imp hdropped) hspace
    · exact hkept

/-- Nothing is trimmed where there is no whitespace. -/
theorem trim_eq_self {source : Text}
    (hsource : ∀ unit ∈ source, isSpace unit = false) :
    trim source = source := by
  have hright : trimRight source = source := by
    refine List.rdropWhile_eq_self_iff.mpr fun hne hlast => ?_
    have hspace := hsource _ (List.getLast_mem hne)
    rw [hspace] at hlast
    exact Bool.false_ne_true hlast
  rw [trim, hright]
  cases source with
  | nil => rfl
  | cons unit rest =>
      rw [trimLeft, List.dropWhile_cons_of_neg]
      simp [hsource unit (by simp)]

/-! ## Pieces -/

/-- What is dropped from the end is dropped as a whole. -/
theorem rdropWhile_append_of_forall {Unit : Type} {drops : Unit → Bool}
    {before after : List Unit} (hbefore : before.rdropWhile drops = before)
    (hafter : ∀ unit ∈ after, drops unit = true) :
    (before ++ after).rdropWhile drops = before := by
  induction after using List.reverseRecOn with
  | nil => rw [List.append_nil, hbefore]
  | append_singleton rest last ih =>
      rw [← List.append_assoc, List.rdropWhile_concat_pos _ _ _
        (hafter last (by simp))]
      exact ih fun unit hunit => hafter unit (by simp [hunit])

theorem rdropWhile_eq_self {Unit : Type} {drops : Unit → Bool}
    {source : List Unit}
    (hlast : ∀ unit, source.getLast? = some unit → drops unit = false) :
    source.rdropWhile drops = source := by
  rw [List.rdropWhile_eq_self_iff]
  intro hne
  simp [hlast _ (List.getLast?_eq_some_getLast hne)]

theorem rdropWhile_append_cons {Unit : Type} {drops : Unit → Bool}
    (before : List Unit) {unit : Unit} (hunit : drops unit = false)
    (after : List Unit) :
    (before ++ unit :: after).rdropWhile drops =
      before ++ unit :: after.rdropWhile drops := by
  induction after using List.reverseRecOn with
  | nil =>
      rw [List.rdropWhile_concat_neg _ _ _ (by simp [hunit]),
        List.rdropWhile_nil]
  | append_singleton rest last ih =>
      rw [← List.cons_append, ← List.append_assoc]
      by_cases hlast : drops last = true
      · rw [List.rdropWhile_concat_pos _ _ _ hlast,
          List.rdropWhile_concat_pos _ _ _ hlast, ih]
      · rw [List.rdropWhile_concat_neg _ _ _ hlast,
          List.rdropWhile_concat_neg _ _ _ hlast]
        simp

theorem of_mem_splitOnP {Unit : Type} {stops : Unit → Bool}
    {source piece : List Unit} (hpiece : piece ∈ source.splitOnP stops) :
    ∀ unit ∈ piece, stops unit = false := by
  induction source generalizing piece with
  | nil => simp_all
  | cons unit rest ih =>
      rw [List.splitOnP_cons_eq_if_modifyHead] at hpiece
      split at hpiece
      · rcases List.mem_cons.mp hpiece with rfl | hpiece
        · simp
        · exact ih hpiece
      · next hunit =>
          obtain ⟨first, others, hsplit⟩ :=
            List.exists_cons_of_ne_nil (List.splitOnP_ne_nil stops rest)
          rw [hsplit, List.modifyHead_cons] at hpiece
          rcases List.mem_cons.mp hpiece with rfl | hpiece
          · intro other hother
            rcases List.mem_cons.mp hother with rfl | hother
            · simpa using hunit
            · exact ih (by simp [hsplit]) other hother
          · exact ih (by simp [hsplit, hpiece])

theorem not_mem_of_mem_splitOn {Unit : Type} [BEq Unit] [LawfulBEq Unit]
    {unit : Unit} {source piece : List Unit}
    (hpiece : piece ∈ source.splitOn unit) : unit ∉ piece := by
  rw [List.splitOn_eq_splitOnP] at hpiece
  intro hunit
  have hstops := of_mem_splitOnP hpiece unit hunit
  simp at hstops

end CodeUnits
