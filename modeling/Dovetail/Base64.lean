import Dovetail.CodeUnits

/-!
# Base64

Encoding in groups of three bytes, and a decoder that takes the plain and
the url-safe alphabet, wants the padding, written `=` or `%3D`, and refuses
bits under the padding that are not zero.
-/

namespace Base64

open CodeUnits

/-! ## Alphabet -/

/-- The letter of six bits. -/
def letter (value : Nat) : UInt16 :=
  UInt16.ofNat <|
    if value < 26 then 65 + value
    else if value < 52 then 71 + value
    else if value < 62 then value - 4
    else if value = 62 then 43
    else 47

/-- The six bits of a letter. -/
def value? (unit : UInt16) : Option Nat :=
  let code := unit.toNat
  if 65 ≤ code ∧ code ≤ 90 then some (code - 65)
  else if 97 ≤ code ∧ code ≤ 122 then some (code - 71)
  else if 48 ≤ code ∧ code ≤ 57 then some (code + 4)
  else if code = 43 ∨ code = 45 then some 62
  else if code = 47 ∨ code = 95 then some 63
  else none

def equals : UInt16 := 61

/-- So many paddings, each an equals sign or its escape, and nothing else. -/
def isPadding : Nat → Text → Bool
  | 0, [] => true
  | count + 1, 61 :: rest => isPadding count rest
  | count + 1, 37 :: 51 :: unit :: rest =>
      (unit == 68 || unit == 100) && isPadding count rest
  | _, _ => false

def byte (value : Nat) : UInt8 := UInt8.ofNat value

/-! ## Encoding -/

def encode : List UInt8 → Text
  | [] => []
  | [a] =>
      [letter (a.toNat / 4), letter (a.toNat % 4 * 16), equals, equals]
  | [a, b] =>
      [letter (a.toNat / 4), letter (a.toNat % 4 * 16 + b.toNat / 16),
        letter (b.toNat % 16 * 4), equals]
  | a :: b :: c :: rest =>
      letter (a.toNat / 4) :: letter (a.toNat % 4 * 16 + b.toNat / 16) ::
        letter (b.toNat % 16 * 4 + c.toNat / 64) :: letter (c.toNat % 64) ::
          encode rest

/-! ## Decoding -/

def decode : Text → Option (List UInt8)
  | [] => some []
  | a :: b :: c :: d :: rest =>
      match value? a, value? b, value? c, value? d with
      | some p, some q, some r, some s =>
          (decode rest).map fun bytes =>
            byte (p * 4 + q / 16) :: byte (q % 16 * 16 + r / 4) ::
              byte (r % 4 * 64 + s) :: bytes
      | some p, some q, some r, none =>
          if r % 4 = 0 ∧ isPadding 1 (d :: rest) then
            some [byte (p * 4 + q / 16), byte (q % 16 * 16 + r / 4)]
          else none
      | some p, some q, none, _ =>
          if q % 16 = 0 ∧ isPadding 2 (c :: d :: rest) then
            some [byte (p * 4 + q / 16)]
          else none
      | _, _, _, _ => none
  | _ => none

theorem value?_letter {value : Nat} (hvalue : value < 64) :
    value? (letter value) = some value := by
  decide +revert

theorem value?_equals : value? equals = none := rfl

theorem isPadding_one : isPadding 1 [equals] = true := rfl

theorem isPadding_two : isPadding 2 [equals, equals] = true := rfl

theorem byte_eq {value : Nat} {octet : UInt8} (hvalue : value = octet.toNat) :
    byte value = octet := by
  rw [byte, hvalue, UInt8.ofNat_toNat]

/-- What was encoded is decoded. -/
theorem decode_encode (bytes : List UInt8) :
    decode (encode bytes) = some bytes := by
  induction bytes using encode.induct with
  | case1 => rfl
  | case2 a =>
      have ha : a.toNat < 256 := a.toNat_lt_size
      have hp := value?_letter (show a.toNat / 4 < 64 by omega)
      have hq := value?_letter (show a.toNat % 4 * 16 < 64 by omega)
      have hfirst : byte (a.toNat / 4 * 4 + a.toNat % 4 * 16 / 16) = a :=
        byte_eq (by omega)
      simp only [encode, decode, hp, hq, value?_equals, isPadding_two,
        hfirst, Nat.mul_mod_left, and_self, if_true]
  | case3 a b =>
      have ha : a.toNat < 256 := a.toNat_lt_size
      have hb : b.toNat < 256 := b.toNat_lt_size
      have hp := value?_letter (show a.toNat / 4 < 64 by omega)
      have hq := value?_letter
        (show a.toNat % 4 * 16 + b.toNat / 16 < 64 by omega)
      have hr := value?_letter (show b.toNat % 16 * 4 < 64 by omega)
      have hfirst : byte (a.toNat / 4 * 4 +
          (a.toNat % 4 * 16 + b.toNat / 16) / 16) = a := byte_eq (by omega)
      have hsecond : byte ((a.toNat % 4 * 16 + b.toNat / 16) % 16 * 16 +
          b.toNat % 16 * 4 / 4) = b := byte_eq (by omega)
      simp only [encode, decode, hp, hq, hr, value?_equals, isPadding_one,
        hfirst, hsecond, Nat.mul_mod_left, and_self, if_true]
  | case4 a b c rest ih =>
      have ha : a.toNat < 256 := a.toNat_lt_size
      have hb : b.toNat < 256 := b.toNat_lt_size
      have hc : c.toNat < 256 := c.toNat_lt_size
      have hp := value?_letter (show a.toNat / 4 < 64 by omega)
      have hq := value?_letter
        (show a.toNat % 4 * 16 + b.toNat / 16 < 64 by omega)
      have hr := value?_letter
        (show b.toNat % 16 * 4 + c.toNat / 64 < 64 by omega)
      have hs := value?_letter (show c.toNat % 64 < 64 by omega)
      have hfirst : byte (a.toNat / 4 * 4 +
          (a.toNat % 4 * 16 + b.toNat / 16) / 16) = a := byte_eq (by omega)
      have hsecond : byte ((a.toNat % 4 * 16 + b.toNat / 16) % 16 * 16 +
          (b.toNat % 16 * 4 + c.toNat / 64) / 4) = b := byte_eq (by omega)
      have hthird : byte ((b.toNat % 16 * 4 + c.toNat / 64) % 4 * 64 +
          c.toNat % 64) = c := byte_eq (by omega)
      simp only [encode, decode, hp, hq, hr, hs, ih, hfirst, hsecond, hthird,
        Option.map_some]

/-! ## The units of an encoded text -/

/-- A letter of either alphabet or part of a padding. -/
def isUnit (unit : UInt16) : Bool :=
  (value? unit).isSome || unit == equals || unit == 37

theorem isUnit_of_value? {unit : UInt16} {value : Nat}
    (hvalue : value? unit = some value) : isUnit unit = true := by
  simp [isUnit, hvalue]

theorem isUnit_of_isPadding {count : Nat} {source : Text}
    (hpadding : isPadding count source = true) :
    ∀ unit ∈ source, isUnit unit = true := by
  induction count, source using isPadding.induct with
  | case1 => simp
  | case2 count rest ih =>
      simp only [isPadding] at hpadding
      intro unit hunit
      rcases List.mem_cons.mp hunit with rfl | hrest
      · rfl
      · exact ih hpadding unit hrest
  | case3 count letter rest ih =>
      simp only [isPadding, Bool.and_eq_true, Bool.or_eq_true,
        beq_iff_eq] at hpadding
      intro unit hunit
      simp only [List.mem_cons] at hunit
      rcases hunit with rfl | rfl | rfl | hrest
      · rfl
      · rfl
      · rcases hpadding.1 with rfl | rfl <;> rfl
      · exact ih hpadding.2 unit hrest
  | case4 count source hnil hequals hescape =>
      simp [isPadding] at hpadding

theorem isUnit_of_decode {source : Text} {bytes : List UInt8}
    (hdecode : decode source = some bytes) :
    ∀ unit ∈ source, isUnit unit = true := by
  fun_induction decode source generalizing bytes with
  | case1 => simp
  | case2 a b c d rest p q r s hs hr hq hp ih =>
      obtain ⟨tail, htail, -⟩ := Option.map_eq_some_iff.mp hdecode
      simp only [List.forall_mem_cons]
      exact ⟨isUnit_of_value? hp, isUnit_of_value? hq, isUnit_of_value? hr,
        isUnit_of_value? hs, ih htail⟩
  | case3 a b c d rest p q r hs hr hq hp hpadded =>
      simp only [List.forall_mem_cons]
      exact ⟨isUnit_of_value? hp, isUnit_of_value? hq, isUnit_of_value? hr,
        List.forall_mem_cons.mp (isUnit_of_isPadding hpadded.2)⟩
  | case5 a b c d rest p q hr hq hp hpadded =>
      rw [List.forall_mem_cons, List.forall_mem_cons]
      exact ⟨isUnit_of_value? hp, isUnit_of_value? hq,
        isUnit_of_isPadding hpadded.2⟩
  | _ => simp at hdecode

/-- Where the code of such a unit lies. -/
theorem toNat_of_isUnit {unit : UInt16} (hunit : isUnit unit = true) :
    (33 ≤ unit.toNat ∧ unit.toNat ≤ 122) ∧ unit.toNat ≠ 46 ∧
      unit.toNat ≠ 58 := by
  simp only [isUnit, Bool.or_eq_true, beq_iff_eq] at hunit
  rcases hunit with (hvalue | rfl) | rfl
  · simp only [value?] at hvalue
    split_ifs at hvalue with hupper hlower hdigit hplus hslash
    · omega
    · omega
    · omega
    · omega
    · omega
    · simp at hvalue
  · decide
  · decide

theorem isSpace_eq_false_of_isUnit {unit : UInt16}
    (hunit : isUnit unit = true) : isSpace unit = false := by
  have hcode := toNat_of_isUnit hunit
  simp only [isSpace, Bool.or_eq_false_iff, Bool.and_eq_false_iff,
    decide_eq_false_iff_not, beq_eq_false_iff_ne]
  omega

theorem isSurrogate_eq_false_of_isUnit {unit : UInt16}
    (hunit : isUnit unit = true) : isSurrogate unit = false := by
  have hcode := toNat_of_isUnit hunit
  simp only [isSurrogate, isLead, isTrail, Bool.or_eq_false_iff,
    beq_eq_false_iff_ne]
  omega

end Base64
