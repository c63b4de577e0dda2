import Dovetail.BundleNames
import Dovetail.MsiComponentTree

/-!
# The GUID of a component

`MsiComponentGuid.forPath` hashes the upgrade code and the path of a file.
The path is handed to the hash as its code units, and the hash takes a byte
of each, so files whose paths differ in the other byte alone get one GUID.
-/

namespace Dovetail.Bundler

open CodeUnits

/-- The Unicode mapping to lower case and the package for hashes.  A list of
numbers is hashed by the low eight bits of each. -/
structure Digests where
  toLowerCase : Text → Text
  sha1 : List UInt8 → List UInt8
  convert : List Nat → List UInt8
  length_sha1 : ∀ bytes, (sha1 bytes).length = 20
  convert_eq : ∀ numbers, convert numbers = sha1 (numbers.map UInt8.ofNat)

namespace MsiComponentGuid

/-! ## The identity of a path -/

def hexOf (upgradeCode : Text) : Text :=
  (trim upgradeCode).filter fun unit => unit ≠ 123 ∧ unit ≠ 125 ∧ unit ≠ 45

def hexValue (unit : UInt16) : Nat :=
  if unit ≤ 57 then unit.toNat - 48
  else if unit ≤ 70 then unit.toNat - 55
  else unit.toNat - 87

def namespaceOf (upgradeCode : Text) : Except BundleError (List UInt8) := do
  checkUpgradeCode upgradeCode
  return (List.range 16).map fun index =>
    UInt8.ofNat ((((hexOf upgradeCode).drop (index * 2)).take 2).foldl
      (fun value unit => value * 16 + hexValue unit) 0)

def hexText (bytes : List UInt8) : Text :=
  bytes.flatMap fun byte =>
    [WixText.hexDigit (byte.toNat / 16), WixText.hexDigit (byte.toNat % 16)]

def format (bytes : List UInt8) : Text :=
  slice 0 4 ++ text "-" ++ slice 4 6 ++ text "-" ++ slice 6 8 ++ text "-" ++
    slice 8 10 ++ text "-" ++ slice 10 16
where
  slice (start stop : Nat) : Text :=
    hexText ((bytes.drop start).take (stop - start))

/-- The first bytes of a digest with the version and the variant set. -/
def identity (digest : List UInt8) : List UInt8 :=
  ((digest.take 16).modify 6 fun byte => (byte &&& 0x0F) ||| 0x50).modify 8
    fun byte => (byte &&& 0x3F) ||| 0x80

variable (digests : Digests)

def nameOf (relativePath : Text) : Text :=
  (digests.toLowerCase (relativePath.map fun unit =>
    if unit = backslash then slash else unit)).dropWhile (· = slash)

def forPath (upgradeCode relativePath : Text) : Except BundleError Text := do
  let space ← namespaceOf upgradeCode
  let digest := digests.convert
    (space.map (·.toNat) ++ (nameOf digests relativePath).map (·.toNat))
  return format (identity digest)

/-! ## What is hashed -/

def bytesOf (name : Text) : List UInt8 := name.map (·.toUInt8)

/-- A digest of each of the staged paths stands for what was hashed. -/
def CollisionFree (space : List UInt8) (staged : List Text) : Prop :=
  ∀ left ∈ staged, ∀ right ∈ staged,
    identity (digests.sha1 (space ++ bytesOf (nameOf digests left))) =
        identity (digests.sha1 (space ++ bytesOf (nameOf digests right))) →
      bytesOf (nameOf digests left) = bytesOf (nameOf digests right)

/-- Two staged paths have the same GUID exactly where they are the same once
normalised. -/
def TellsApart (upgradeCode : Text) (staged : List Text) : Prop :=
  ∀ left ∈ staged, ∀ right ∈ staged,
    forPath digests upgradeCode left = forPath digests upgradeCode right ↔
      nameOf digests left = nameOf digests right

/-! ## Spelling -/

theorem hexDigit_injective {left right : Nat} (hleft : left < 16)
    (hright : right < 16)
    (hsame : WixText.hexDigit left = WixText.hexDigit right) :
    left = right := by
  interval_cases left <;> interval_cases right <;> first
    | rfl
    | exact absurd hsame (by decide)

theorem hexText_injective : Function.Injective hexText := by
  intro left
  induction left with
  | nil =>
      intro right hsame
      cases right with
      | nil => rfl
      | cons byte rest => simp [hexText] at hsame
  | cons byte rest ih =>
      intro right hsame
      cases right with
      | nil => simp [hexText] at hsame
      | cons other others =>
          simp only [hexText, List.flatMap_cons, List.cons_append,
            List.nil_append, List.cons.injEq] at hsame
          rcases hsame with ⟨hhigh, hlow, hrest⟩
          have hbyte := byte.toNat_lt
          have hother := other.toNat_lt
          have hquotient := hexDigit_injective (by omega) (by omega) hhigh
          have hremainder := hexDigit_injective (by omega) (by omega) hlow
          have hsame : byte = other := by
            apply UInt8.toNat.inj
            omega
          rw [hsame, ih hrest]

theorem dash_not_mem_hexText (bytes : List UInt8) :
    ∀ unit ∈ hexText bytes, unit ≠ 45 := by
  intro unit hunit
  rcases List.mem_flatMap.mp hunit with ⟨byte, -, hmem⟩
  have hdigit : ∀ digit < 16, WixText.hexDigit digit ≠ 45 := by decide
  have hbyte := byte.toNat_lt
  rcases List.mem_pair.mp hmem with rfl | rfl
  · exact hdigit _ (by omega)
  · exact hdigit _ (by omega)

/-- Without its dashes a GUID is its bytes. -/
theorem filter_format {bytes : List UInt8} (hlength : bytes.length = 16) :
    (format bytes).filter (· ≠ 45) = hexText bytes := by
  have hslice (part : List UInt8) :
      (hexText part).filter (· ≠ 45) = hexText part := by
    apply List.filter_eq_self.mpr
    intro unit hunit
    simpa using dash_not_mem_hexText part unit hunit
  have hdash : (text "-").filter (· ≠ 45) = [] := by decide
  have hjoin (start size : Nat) :
      (bytes.drop start).take size ++ bytes.drop (start + size) =
        bytes.drop start := by
    rw [← List.drop_drop, List.take_append_drop]
  have hlast : (bytes.drop 10).take 6 = bytes.drop 10 := by
    apply List.take_of_length_le
    simp [hlength]
  have hbytes : bytes.take 4 ++ ((bytes.drop 4).take 2 ++
      ((bytes.drop 6).take 2 ++ ((bytes.drop 8).take 2 ++
        (bytes.drop 10).take 6))) = bytes := by
    rw [hlast, hjoin 8 2, hjoin 6 2, hjoin 4 2]
    exact List.take_append_drop 4 bytes
  unfold format format.slice
  simp only [List.filter_append, hslice, hdash, List.append_nil]
  conv_rhs => rw [← hbytes]
  simp [hexText]

theorem format_inj {left right : List UInt8} (hleft : left.length = 16)
    (hright : right.length = 16) : format left = format right ↔ left = right := by
  constructor
  · intro hsame
    apply hexText_injective
    rw [← filter_format hleft, ← filter_format hright, hsame]
  · intro hsame
    rw [hsame]

/-! ## One GUID for two paths -/

variable {digests} {upgradeCode : Text} {space : List UInt8}

theorem length_identity_sha1 (bytes : List UInt8) :
    (identity (digests.sha1 bytes)).length = 16 := by
  simp [identity, digests.length_sha1]

theorem forPath_eq (hspace : namespaceOf upgradeCode = .ok space)
    (path : Text) :
    forPath digests upgradeCode path = .ok (format (identity
      (digests.sha1 (space ++ bytesOf (nameOf digests path))))) := by
  have hbytes : (space.map (·.toNat) ++
      (nameOf digests path).map (·.toNat)).map UInt8.ofNat =
        space ++ bytesOf (nameOf digests path) := by
    have hunit (unit : UInt16) : UInt8.ofNat unit.toNat = unit.toUInt8 := rfl
    simp [bytesOf, Function.comp_def, hunit]
  simp [forPath, hspace, bind, Except.bind, pure, Except.pure,
    digests.convert_eq, hbytes]

theorem forPath_eq_iff (hspace : namespaceOf upgradeCode = .ok space)
    {staged : List Text} (hfree : CollisionFree digests space staged)
    {left right : Text} (hleft : left ∈ staged) (hright : right ∈ staged) :
    forPath digests upgradeCode left = forPath digests upgradeCode right ↔
      bytesOf (nameOf digests left) = bytesOf (nameOf digests right) := by
  rw [forPath_eq hspace, forPath_eq hspace, Except.ok.injEq,
    format_inj (length_identity_sha1 _) (length_identity_sha1 _)]
  constructor
  · exact hfree left hleft right hright
  · intro hsame
    rw [hsame]

/-- The GUIDs of an installer tell its paths apart exactly where the low
bytes of their units do. -/
theorem tellsApart_iff {staged : List Text}
    (hspace : namespaceOf upgradeCode = .ok space)
    (hfree : CollisionFree digests space staged) :
    TellsApart digests upgradeCode staged ↔
      ∀ left ∈ staged, ∀ right ∈ staged,
        bytesOf (nameOf digests left) = bytesOf (nameOf digests right) →
          nameOf digests left = nameOf digests right := by
  constructor
  · intro happart left hleft right hright hbytes
    apply (happart left hleft right hright).mp
    exact (forPath_eq_iff hspace hfree hleft hright).mpr hbytes
  · intro hall left hleft right hright
    rw [forPath_eq_iff hspace hfree hleft hright]
    constructor
    · exact hall left hleft right hright
    · intro hsame
      rw [hsame]

/-- The bytes of a name with no unit above them are its own. -/
theorem bytesOf_inj {left right : Text} (hleft : ∀ unit ∈ left, unit < 256)
    (hright : ∀ unit ∈ right, unit < 256)
    (hbytes : bytesOf left = bytesOf right) : left = right := by
  have hback {name : Text} (hname : ∀ unit ∈ name, unit < 256) :
      (bytesOf name).map (·.toUInt16) = name := by
    unfold bytesOf
    rw [List.map_map]
    nth_rewrite 2 [← List.map_id name]
    apply List.map_congr_left
    intro unit hunit
    have hlt := UInt16.lt_iff_toNat_lt.mp (hname unit hunit)
    apply UInt16.toNat.inj
    simp only [Function.comp_apply, UInt8.toNat_toUInt16, UInt16.toNat_toUInt8,
      id_eq]
    exact Nat.mod_eq_of_lt hlt
  rw [← hback hleft, ← hback hright, hbytes]

/-! ### Two libraries -/

def productCode : Text := text "5C9E1E0A-3B2D-4A11-9F0E-7D6C5B4A3928"

def productSpace : List UInt8 :=
  [0x5C, 0x9E, 0x1E, 0x0A, 0x3B, 0x2D, 0x4A, 0x11, 0x9F, 0x0E, 0x7D, 0x6C,
    0x5B, 0x4A, 0x39, 0x28]

theorem namespaceOf_productCode :
    namespaceOf productCode = .ok productSpace := by
  rfl

/-- The digests of three files; other names have none of them. -/
def productDigest (bytes : List UInt8) : List UInt8 :=
  if bytes = productSpace ++ bytesOf (text "wintun.dll") then
    [0x60, 0xCC, 0x38, 0x00, 0xE9, 0x1F, 0x53, 0x3B, 0xF7, 0xF9, 0x7E, 0x15,
      0xF1, 0x6B, 0xA4, 0xB7, 0x84, 0xC7, 0x73, 0x5A]
  else if bytes = productSpace ++ bytesOf (text "data/icudtl.dat") then
    [0x77, 0x4E, 0x7A, 0x20, 0x91, 0x83, 0x4E, 0x83, 0x87, 0x0C, 0xD3, 0x11,
      0xD3, 0x94, 0xE6, 0xC9, 0x9E, 0xE7, 0x00, 0xC2]
  else if bytes = productSpace ++ bytesOf (text "a.dll") then
    [0x00, 0x17, 0xE8, 0x65, 0x0F, 0xBE, 0xAF, 0x24, 0xCC, 0x87, 0x2A, 0xA1,
      0x81, 0x79, 0xFE, 0xF9, 0x74, 0xFF, 0x72, 0xE8]
  else List.replicate 20 0

def productDigests : Digests where
  toLowerCase := TargetArch.toLower
  sha1 := productDigest
  convert numbers := productDigest (numbers.map UInt8.ofNat)
  length_sha1 bytes := by
    unfold productDigest
    split_ifs <;> rfl
  convert_eq _ := rfl

example : forPath productDigests productCode (text "data\\icudtl.dat") =
    .ok (text "774E7A20-9183-5E83-870C-D311D394E6C9") := by
  rfl

theorem tellsApart_product :
    TellsApart productDigests productCode
      [text "wintun.dll", text "data/icudtl.dat"] :=
  (tellsApart_iff namespaceOf_productCode
    (by unfold CollisionFree; decide)).mpr (by
      have hnarrow : ∀ path ∈ [text "wintun.dll", text "data/icudtl.dat"],
          ∀ unit ∈ nameOf productDigests path, unit < 256 := by
        decide
      intro left hleft right hright
      exact bytesOf_inj (hnarrow left hleft) (hnarrow right hright))

/-- A letter with a caron has the low byte of one without. -/
theorem not_tellsApart_caron :
    CollisionFree productDigests productSpace
        [text "š.dll", text "a.dll"] ∧
      ¬ TellsApart productDigests productCode
        [text "š.dll", text "a.dll"] := by
  have hbytes : bytesOf (nameOf productDigests (text "š.dll")) =
      bytesOf (nameOf productDigests (text "a.dll")) := by
    decide
  constructor
  · intro left hleft right hright _
    simp only [List.mem_cons, List.not_mem_nil, or_false] at hleft hright
    rcases hleft with rfl | rfl <;> rcases hright with rfl | rfl <;>
      simp only [hbytes]
  · intro happart
    have hname := (happart (text "š.dll") (by simp) (text "a.dll")
      (by simp)).mp (by
        rw [forPath_eq namespaceOf_productCode,
          forPath_eq namespaceOf_productCode, hbytes])
    revert hname
    decide

end MsiComponentGuid

end Dovetail.Bundler
