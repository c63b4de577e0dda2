import Dovetail.CodeUnits

/-!
# Identifiers in WiX sources

`WixText.identifier` replaces every unit an identifier cannot hold and cuts
off what is too long, in favour of a hash of the whole value.  What it gives
is always an identifier; two values are given the same one when they differ
in replaced units only, or in what was cut off under one hash.
-/

namespace Dovetail.Bundler

open CodeUnits

namespace XmlText

def replaceAll (unit : UInt16) (replacement : Text) (value : Text) : Text :=
  value.flatMap fun other => if other = unit then replacement else [other]

def contentText (value : Text) : Text :=
  replaceAll 62 (text "&gt;") <| replaceAll 60 (text "&lt;") <|
    replaceAll 38 (text "&amp;") value

def attributeText (value : Text) : Text :=
  replaceAll 39 (text "&apos;") <| replaceAll 34 (text "&quot;") <|
    contentText value

end XmlText

namespace WixText

def identifierLimit : Nat := 72

def underscore : UInt16 := 0x5F

def isIdentifierSafe (unit : UInt16) : Bool :=
  (0x30 ≤ unit && unit ≤ 0x39) || (0x41 ≤ unit && unit ≤ 0x5A) ||
    (0x61 ≤ unit && unit ≤ 0x7A) || unit == underscore || unit == 0x2E

def startsIdentifier : Text → Bool
  | [] => false
  | unit :: _ =>
      (0x41 ≤ unit && unit ≤ 0x5A) || (0x61 ≤ unit && unit ≤ 0x7A) ||
        unit == underscore

/-- Upper-case hexadecimal. -/
def hexDigit (digit : Nat) : UInt16 :=
  UInt16.ofNat (if digit < 10 then 48 + digit else 55 + digit)

def hash (value : Text) : UInt32 :=
  value.foldl (fun hash unit => (hash ^^^ unit.toUInt32) * 0x01000193)
    0x811C9DC5

def fold (value : Text) : Text :=
  (List.range 8).reverse.map fun place =>
    hexDigit ((hash value).toNat / 16 ^ place % 16)

def sanitized (value : Text) : Text :=
  value.map fun unit => if isIdentifierSafe unit then unit else underscore

def identifier (value label : Text) : Text :=
  let seeded :=
    if startsIdentifier (sanitized value) then sanitized value
    else label ++ sanitized value
  if seeded.length ≤ identifierLimit then seeded
  else seeded.take (identifierLimit - 9) ++ underscore :: fold value

/-! ## What WiX accepts -/

/-- An identifier: letters, digits, underscores and periods, the first of
them a letter or an underscore, 72 at most. -/
structure IsIdentifier (id : Text) : Prop where
  safe : ∀ unit ∈ id, isIdentifierSafe unit = true
  starts : startsIdentifier id = true
  short : id.length ≤ identifierLimit

theorem isIdentifierSafe_hexDigit {digit : Nat} (hdigit : digit < 16) :
    isIdentifierSafe (hexDigit digit) = true := by
  interval_cases digit <;> decide

theorem safe_fold (value : Text) :
    ∀ unit ∈ fold value, isIdentifierSafe unit = true := by
  intro unit hunit
  obtain ⟨place, -, rfl⟩ := List.mem_map.mp hunit
  exact isIdentifierSafe_hexDigit (Nat.mod_lt _ (by decide))

@[simp] theorem length_fold (value : Text) : (fold value).length = 8 := by
  simp [fold]

@[simp] theorem length_sanitized (value : Text) :
    (sanitized value).length = value.length := by
  simp [sanitized]

theorem safe_sanitized (value : Text) :
    ∀ unit ∈ sanitized value, isIdentifierSafe unit = true := by
  intro unit hunit
  obtain ⟨other, -, rfl⟩ := List.mem_map.mp hunit
  split
  · assumption
  · decide

theorem startsIdentifier_append {value rest : Text}
    (hstarts : startsIdentifier value = true) :
    startsIdentifier (value ++ rest) = true := by
  cases value with
  | nil => simp [startsIdentifier] at hstarts
  | cons unit units => exact hstarts

theorem startsIdentifier_take {value : Text} {count : Nat}
    (hstarts : startsIdentifier value = true) :
    startsIdentifier (value.take (count + 1)) = true := by
  cases value with
  | nil => simp [startsIdentifier] at hstarts
  | cons unit units => exact hstarts

theorem isIdentifier_identifier (value : Text) {label : Text}
    (hsafe : ∀ unit ∈ label, isIdentifierSafe unit = true)
    (hstarts : startsIdentifier label = true) :
    IsIdentifier (identifier value label) := by
  unfold identifier
  generalize hseeded : (if startsIdentifier (sanitized value) then
    sanitized value else label ++ sanitized value) = seeded
  have hunits : ∀ unit ∈ seeded, isIdentifierSafe unit = true := by
    subst hseeded
    intro unit hunit
    split at hunit
    · exact safe_sanitized value unit hunit
    · rcases List.mem_append.mp hunit with hlabel | hvalue
      · exact hsafe unit hlabel
      · exact safe_sanitized value unit hvalue
  have hfirst : startsIdentifier seeded = true := by
    subst hseeded
    split
    · assumption
    · exact startsIdentifier_append hstarts
  dsimp only
  split
  · next hshort => exact ⟨hunits, hfirst, hshort⟩
  · next hlong =>
      constructor
      · intro unit hunit
        rcases List.mem_append.mp hunit with hkept | hcut
        · exact hunits unit (List.mem_of_mem_take hkept)
        · rcases List.mem_cons.mp hcut with rfl | hfold
          · decide
          · exact safe_fold value unit hfold
      · exact startsIdentifier_append (startsIdentifier_take hfirst)
      · simp only [List.length_append, List.length_take, List.length_cons,
          length_fold, identifierLimit]
        omega

/-! ## Values with the same identifier -/

/-- A value that is too long is cut, with a hash of the whole of it. -/
def shortened (value : Text) : Text :=
  (sanitized value).take (identifierLimit - 9) ++ underscore :: fold value

/-- Two values that start like identifiers have the same one. -/
def Confused (a b : Text) : Prop :=
  if a.length ≤ identifierLimit then
    if b.length ≤ identifierLimit then sanitized a = sanitized b
    else sanitized a = shortened b
  else if b.length ≤ identifierLimit then shortened a = sanitized b
  else
    (sanitized a).take (identifierLimit - 9) =
        (sanitized b).take (identifierLimit - 9) ∧ fold a = fold b

theorem startsIdentifier_sanitized {value : Text}
    (hstarts : startsIdentifier value = true) :
    startsIdentifier (sanitized value) = true := by
  cases value with
  | nil => simp [startsIdentifier] at hstarts
  | cons unit units =>
      have hsafe : isIdentifierSafe unit = true := by
        simp only [startsIdentifier, Bool.or_eq_true] at hstarts
        simp only [isIdentifierSafe, Bool.or_eq_true]
        tauto
      simpa [sanitized, hsafe, startsIdentifier] using hstarts

theorem identifier_eq {value : Text} (hstarts : startsIdentifier value = true)
    (label : Text) :
    identifier value label =
      if value.length ≤ identifierLimit then sanitized value
      else shortened value := by
  unfold identifier shortened
  rw [if_pos (startsIdentifier_sanitized hstarts)]
  simp only [length_sanitized]

theorem length_shortened {value : Text}
    (hlong : ¬ value.length ≤ identifierLimit) :
    (shortened value).length = identifierLimit := by
  simp only [identifierLimit] at hlong
  simp only [shortened, List.length_append, List.length_take, List.length_cons,
    length_fold, length_sanitized, identifierLimit]
  omega

theorem identifier_eq_iff {a b : Text} (ha : startsIdentifier a = true)
    (hb : startsIdentifier b = true) (label : Text) :
    identifier a label = identifier b label ↔ Confused a b := by
  rw [identifier_eq ha, identifier_eq hb]
  unfold Confused
  split
  · split <;> rfl
  · split
    · rfl
    · next hlong hlong' =>
        constructor
        · intro hsame
          have hlength : ((sanitized a).take (identifierLimit - 9)).length =
              ((sanitized b).take (identifierLimit - 9)).length := by
            simp only [List.length_take, length_sanitized]
            omega
          obtain ⟨htake, hrest⟩ := List.append_inj hsame hlength
          exact ⟨htake, (List.cons.inj hrest).2⟩
        · rintro ⟨htake, hfold⟩
          rw [shortened, shortened, htake, hfold]

end WixText

end Dovetail.Bundler
