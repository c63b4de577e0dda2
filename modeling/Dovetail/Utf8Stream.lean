import Mathlib.Tactic

/-!
# UTF-8 that arrives in pieces

A strict decoder takes a byte at a time and holds the bytes of a code point
that is not complete.  It gets to the end of a text with nothing held exactly
when the bytes are the encoding of code points, wherever they were cut.
-/

namespace Utf8Stream

abbrev Bytes := List UInt8

def encoded (runes : List Char) : Bytes := runes.flatMap String.utf8EncodeChar

def IsUtf8 (bytes : Bytes) : Prop := ∃ runes, encoded runes = bytes

/-! ## One code point -/

def decodeWord (word : Bytes) : Option Char :=
  (word.toByteArray.utf8DecodeChar? 0).filter fun rune =>
    decide (String.utf8EncodeChar rune = word)

/-- The byte may stand second behind the first. -/
def secondOk (first second : UInt8) : Bool :=
  decide ((if first = 0xE0 then 0xA0 else if first = 0xF0 then 0x90
      else 0x80) ≤ second ∧
    second ≤ (if first = 0xED then 0x9F else if first = 0xF4 then 0x8F
      else 0xBF))

/-- The bytes begin a code point and do not complete it. -/
def continues : Bytes → Bool
  | [first] => decide (0xC2 ≤ first ∧ first ≤ 0xF4)
  | [first, second] =>
      decide (0xE0 ≤ first ∧ first ≤ 0xF4) && secondOk first second
  | [first, second, third] =>
      decide (0xF0 ≤ first ∧ first ≤ 0xF4) && secondOk first second &&
        decide (0x80 ≤ third ∧ third ≤ 0xBF)
  | _ => false

def push (held : Bytes) (byte : UInt8) : Option (List Char × Bytes) :=
  match decodeWord (held ++ [byte]) with
  | some rune => some ([rune], [])
  | none =>
      if continues (held ++ [byte]) then some ([], held ++ [byte]) else none

/-- The code points that are complete and the bytes that are held. -/
def feed (held : Bytes) : Bytes → Option (List Char × Bytes)
  | [] => some ([], held)
  | byte :: bytes =>
      (push held byte).bind fun pushed =>
        (feed pushed.2 bytes).map fun fed => (pushed.1 ++ fed.1, fed.2)

@[simp] theorem decodeWord_eq_some_iff {word : Bytes} {rune : Char} :
    decodeWord word = some rune ↔ String.utf8EncodeChar rune = word := by
  unfold decodeWord
  rw [Option.filter_eq_some_iff, decide_eq_true_eq]
  constructor
  · exact fun hrune => hrune.2
  · intro hword
    have hdecoded := @ByteArray.utf8DecodeChar?_utf8EncodeChar_append
      ByteArray.empty rune
    rw [ByteArray.append_empty, hword] at hdecoded
    exact ⟨hdecoded, hword⟩

/-- No code point's encoding begins another's. -/
theorem eq_of_encode_append {rune other : Char} {rest : Bytes}
    (hencode : String.utf8EncodeChar rune =
      String.utf8EncodeChar other ++ rest) : rune = other := by
  have hrune := @ByteArray.utf8DecodeChar?_utf8EncodeChar_append
    ByteArray.empty rune
  have hother := @ByteArray.utf8DecodeChar?_utf8EncodeChar_append
    rest.toByteArray other
  rw [ByteArray.append_empty, hencode, List.toByteArray_append] at hrune
  rw [hrune] at hother
  exact Option.some.inj hother

/-! ## Encodings that are cut -/

section Cut

variable {first second third : UInt8} {code : Nat}

theorem secondOk_of_toNat (hrange : 0x80 ≤ second.toNat ∧ second.toNat ≤ 0xBF)
    (hlow : first.toNat = 0xE0 → 0xA0 ≤ second.toNat)
    (hlow' : first.toNat = 0xF0 → 0x90 ≤ second.toNat)
    (hhigh : first.toNat = 0xED → second.toNat ≤ 0x9F)
    (hhigh' : first.toNat = 0xF4 → second.toNat ≤ 0x8F) :
    secondOk first second = true := by
  simp only [secondOk, decide_eq_true_eq, UInt8.le_iff_toNat_le,
    ← UInt8.toNat_inj, UInt8.reduceToNat]
  constructor
  · by_cases hE0 : first.toNat = 224
    · simpa [hE0] using hlow hE0
    · by_cases hF0 : first.toNat = 240
      · simpa [hF0] using hlow' hF0
      · simpa [hE0, hF0] using hrange.1
  · by_cases hED : first.toNat = 237
    · simpa [hED] using hhigh hED
    · by_cases hF4 : first.toNat = 244
      · simpa [hF4] using hhigh' hF4
      · simpa [hED, hF4] using hrange.2

theorem continues_one
    (hfirst : 0xC2 ≤ first.toNat ∧ first.toNat ≤ 0xF4) :
    continues [first] = true := by
  simp only [continues, decide_eq_true_eq, UInt8.le_iff_toNat_le,
    UInt8.reduceToNat]
  exact hfirst

theorem continues_two (hfirst : 0xE0 ≤ first.toNat ∧ first.toNat ≤ 0xF4)
    (hsecond : secondOk first second = true) :
    continues [first, second] = true := by
  simp only [continues, hsecond, Bool.and_true, decide_eq_true_eq,
    UInt8.le_iff_toNat_le, UInt8.reduceToNat]
  exact hfirst

theorem continues_three (hfirst : 0xF0 ≤ first.toNat ∧ first.toNat ≤ 0xF4)
    (hsecond : secondOk first second = true)
    (hthird : 0x80 ≤ third.toNat ∧ third.toNat ≤ 0xBF) :
    continues [first, second, third] = true := by
  simp only [continues, hsecond, Bool.and_true, Bool.and_eq_true,
    decide_eq_true_eq, UInt8.le_iff_toNat_le, UInt8.reduceToNat]
  exact ⟨hfirst, hthird⟩

theorem toNat_lead {part width base : Nat} (hwidth : 0 < width)
    (hsum : width + base ≤ 256) :
    (UInt8.ofNat (part % width + base)).toNat = part % width + base := by
  have hpart := Nat.mod_lt part hwidth
  rw [UInt8.toNat_ofNat']
  omega

/-- What stands before the cut inside an encoding can be gone on with. -/
theorem continues_of_append {rune : Char} {before after : Bytes}
    (hencode : String.utf8EncodeChar rune = before ++ after)
    (hbefore : before ≠ []) (hafter : after ≠ []) :
    continues before = true := by
  have hvalid : rune.val.toNat.isValidChar := rune.valid
  unfold Nat.isValidChar at hvalid
  have htake : before =
      (String.utf8EncodeChar rune).take before.length := by
    rw [hencode, List.take_left]
  have hpos := List.length_pos_of_ne_nil hbefore
  have hless : before.length < (String.utf8EncodeChar rune).length := by
    have hrest := List.length_pos_of_ne_nil hafter
    rw [hencode, List.length_append]
    omega
  rw [htake]
  generalize before.length = cut at hpos hless
  clear htake hencode
  unfold String.utf8EncodeChar at hless ⊢
  generalize rune.val.toNat = code at hless hvalid ⊢
  have hsix (part : Nat) :
      (UInt8.ofNat (part % 0x40 + 0x80)).toNat = part % 0x40 + 0x80 :=
    toNat_lead (by decide) (by decide)
  have hfive (part : Nat) :
      (UInt8.ofNat (part % 0x20 + 0xc0)).toNat = part % 0x20 + 0xc0 :=
    toNat_lead (by decide) (by decide)
  have hfour (part : Nat) :
      (UInt8.ofNat (part % 0x10 + 0xe0)).toNat = part % 0x10 + 0xe0 :=
    toNat_lead (by decide) (by decide)
  have hthree (part : Nat) :
      (UInt8.ofNat (part % 0x08 + 0xf0)).toNat = part % 0x08 + 0xf0 :=
    toNat_lead (by decide) (by decide)
  by_cases hone : code ≤ 0x7f
  · simp only [hone, if_true, List.length_cons, List.length_nil] at hless
    omega
  by_cases htwo : code ≤ 0x7ff
  · simp only [hone, htwo, if_true, if_false, List.length_cons,
      List.length_nil] at hless ⊢
    have hcut : cut = 1 := by omega
    subst hcut
    apply continues_one
    rw [hfive]
    omega
  by_cases hwide : code ≤ 0xffff
  · simp only [hone, htwo, hwide, if_true, if_false, List.length_cons,
      List.length_nil] at hless ⊢
    have hsecond : secondOk (UInt8.ofNat (code / 4096 % 0x10 + 0xe0))
        (UInt8.ofNat (code / 64 % 0x40 + 0x80)) = true := by
      apply secondOk_of_toNat
      · rw [hsix]
        omega
      · rw [hfour, hsix]
        omega
      · rw [hfour, hsix]
        omega
      · rw [hfour, hsix]
        omega
      · rw [hfour, hsix]
        omega
    have hcut : cut = 1 ∨ cut = 2 := by omega
    rcases hcut with rfl | rfl
    · apply continues_one
      rw [hfour]
      omega
    · apply continues_two _ hsecond
      rw [hfour]
      omega
  · simp only [hone, htwo, hwide, if_false, List.length_cons,
      List.length_nil] at hless ⊢
    have hsecond : secondOk (UInt8.ofNat (code / 262144 % 0x08 + 0xf0))
        (UInt8.ofNat (code / 4096 % 0x40 + 0x80)) = true := by
      apply secondOk_of_toNat
      · rw [hsix]
        omega
      · rw [hthree, hsix]
        omega
      · rw [hthree, hsix]
        omega
      · rw [hthree, hsix]
        omega
      · rw [hthree, hsix]
        omega
    have hfirst : 0xF0 ≤ (UInt8.ofNat (code / 262144 % 0x08 + 0xf0)).toNat ∧
        (UInt8.ofNat (code / 262144 % 0x08 + 0xf0)).toNat ≤ 0xF4 := by
      rw [hthree]
      omega
    have hcut : cut = 1 ∨ cut = 2 ∨ cut = 3 := by omega
    rcases hcut with rfl | rfl | rfl
    · apply continues_one
      omega
    · apply continues_two _ hsecond
      omega
    · apply continues_three hfirst hsecond
      rw [hsix]
      omega

end Cut

/-! ## Feeding -/

section Feed

variable {held bytes : Bytes} {byte : UInt8} {runes : List Char}

@[simp] theorem encoded_nil : encoded [] = [] := rfl

@[simp] theorem encoded_cons (rune : Char) :
    encoded (rune :: runes) = String.utf8EncodeChar rune ++ encoded runes :=
  List.flatMap_cons

theorem encoded_append (before after : List Char) :
    encoded (before ++ after) = encoded before ++ encoded after :=
  List.flatMap_append

/-- Where the text was cut makes no difference. -/
theorem feed_append (held first second : Bytes) :
    feed held (first ++ second) =
      (feed held first).bind fun fed =>
        (feed fed.2 second).map fun more => (fed.1 ++ more.1, more.2) := by
  induction first generalizing held with
  | nil => simp [feed]
  | cons byte first ih =>
      simp only [List.cons_append, feed]
      cases push held byte with
      | none => rfl
      | some pushed =>
          simp only [Option.bind_some, ih]
          cases feed pushed.2 first with
          | none => rfl
          | some fed =>
              simp only [Option.bind_some, Option.map_some, Option.map_map]
              congr 1
              funext more
              simp

theorem encoded_push {pushed : List Char × Bytes}
    (hpush : push held byte = some pushed) :
    encoded pushed.1 ++ pushed.2 = held ++ [byte] := by
  unfold push at hpush
  cases hword : decodeWord (held ++ [byte]) with
  | some rune =>
      rw [hword] at hpush
      cases hpush
      simpa using decodeWord_eq_some_iff.mp hword
  | none =>
      rw [hword] at hpush
      simp only [Option.ite_none_right_eq_some, Option.some.injEq] at hpush
      rw [← hpush.2]
      rfl

theorem encoded_feed {fed : List Char × Bytes}
    (hfeed : feed held bytes = some fed) :
    encoded fed.1 ++ fed.2 = held ++ bytes := by
  induction bytes generalizing held fed with
  | nil =>
      cases hfeed
      simp
  | cons byte bytes ih =>
      rw [feed, Option.bind_eq_some_iff] at hfeed
      rcases hfeed with ⟨pushed, hpush, hmore⟩
      rcases Option.map_eq_some_iff.mp hmore with ⟨more, hrest, rfl⟩
      rw [encoded_append, List.append_assoc, ih hrest, ← List.append_assoc,
        encoded_push hpush, List.append_assoc, List.singleton_append]

/-- The bytes of one code point. -/
theorem feed_encode (rune : Char) {before after : Bytes}
    (hencode : String.utf8EncodeChar rune = before ++ after)
    (hafter : after ≠ []) :
    feed before after = some ([rune], []) := by
  induction after generalizing before with
  | nil => exact absurd rfl hafter
  | cons byte after ih =>
      rw [List.append_cons] at hencode
      cases after with
      | nil =>
          rw [List.append_nil] at hencode
          have hword : decodeWord (before ++ [byte]) = some rune :=
            decodeWord_eq_some_iff.mpr hencode
          simp [feed, push, hword]
      | cons next after =>
          have hword : decodeWord (before ++ [byte]) = none := by
            rw [Option.eq_none_iff_forall_ne_some]
            intro other hother
            have hwhole := decodeWord_eq_some_iff.mp hother
            have hsame : rune = other := by
              apply @eq_of_encode_append rune other (next :: after)
              rw [hencode, hwhole]
            rw [← hsame, hencode] at hwhole
            exact absurd (List.append_right_eq_self.mp hwhole)
              (List.cons_ne_nil _ _)
          have hgoes : continues (before ++ [byte]) = true :=
            continues_of_append hencode (by simp) (List.cons_ne_nil _ _)
          have hpush : push before byte = some ([], before ++ [byte]) := by
            simp [push, hword, hgoes]
          rw [feed, hpush, Option.bind_some,
            ih hencode (List.cons_ne_nil _ _)]
          rfl

theorem feed_encoded (runes : List Char) :
    feed [] (encoded runes) = some (runes, []) := by
  induction runes with
  | nil => rfl
  | cons rune runes ih =>
      have hne : String.utf8EncodeChar rune ≠ [] := by
        intro hnil
        have hlength := congrArg List.length hnil
        rw [String.length_utf8EncodeChar] at hlength
        exact absurd hlength rune.utf8Size_pos.ne'
      rw [encoded_cons, feed_append, feed_encode rune rfl hne]
      simp [ih]

theorem feed_eq_some_iff :
    feed [] bytes = some (runes, []) ↔ encoded runes = bytes := by
  constructor
  · intro hfeed
    simpa using encoded_feed hfeed
  · intro hencoded
    rw [← hencoded]
    exact feed_encoded runes

theorem isUtf8_iff :
    IsUtf8 bytes ↔ ∃ runes, feed [] bytes = some (runes, []) := by
  unfold IsUtf8
  simp only [feed_eq_some_iff]

end Feed

end Utf8Stream
