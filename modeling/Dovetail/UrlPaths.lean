import Dovetail.JsonDocument

/-!
# Paths of urls

The path of a url as a parser leaves it: units that stand for themselves and
escapes of bytes, without dot segments.  A segment is read by decoding its
bytes as UTF-8; what the decoded name can hold that its segment does not show
is a separator that was escaped, and a byte order mark that is dropped.
-/

namespace UrlPaths

open CodeUnits

/-! ## ASCII in UTF-8 -/

theorem toNat_ofNat_of_lt {code : Nat} (hcode : code < 256) :
    (UInt8.ofNat code).toNat = code := by
  rw [UInt8.toNat_ofNat']
  exact Nat.mod_eq_of_lt hcode

theorem utf8Decode_eq_some {bytes : List UInt8} {decoded : Text}
    (hdecode : utf8Decode bytes = some decoded) :
    ∃ points : List Char, bytes = points.flatMap String.utf8EncodeChar ∧
      decoded = (dropMark points).flatMap units := by
  unfold utf8Decode at hdecode
  rcases Option.map_eq_some_iff.mp hdecode with ⟨points, hpoints, hunits⟩
  have hsome : bytes.toByteArray.utf8Decode?.isSome = true :=
    Option.isSome_of_eq_some hpoints
  rcases ByteArray.isSome_utf8Decode?_iff.mp hsome with ⟨chars, hchars⟩
  refine ⟨chars, ?_, ?_⟩
  · have hbytes : bytes.toByteArray =
        (chars.flatMap String.utf8EncodeChar).toByteArray := hchars
    simpa using congrArg (fun array => array.data.toList) hbytes
  · rw [hchars, List.utf8Decode?_utf8Encode] at hpoints
    obtain rfl : chars.toArray = points := Option.some.inj hpoints
    simpa using hunits.symm

/-- A byte of ASCII is in the bytes of its own code point alone. -/
theorem mem_utf8EncodeChar_iff {byte : UInt8} (hascii : byte.toNat < 128)
    {point : Char} :
    byte ∈ String.utf8EncodeChar point ↔ point.toNat = byte.toNat := by
  have hvalue : point.val.toNat = point.toNat := rfl
  have hlarge : ∀ code, 128 ≤ code → code < 256 →
      byte ≠ UInt8.ofNat code := by
    intro code hlow hhigh hsame
    rw [hsame, toNat_ofNat_of_lt hhigh] at hascii
    omega
  unfold String.utf8EncodeChar
  dsimp only
  split
  · next hsmall =>
      rw [hvalue] at hsmall
      rw [List.mem_singleton, hvalue, ← UInt8.toNat_inj,
        toNat_ofNat_of_lt (by omega)]
      exact eq_comm
  · next hsmall =>
      have hne : point.toNat ≠ byte.toNat := by omega
      simp only [hne, iff_false]
      intro hmem
      split at hmem
      · simp only [List.mem_cons, List.not_mem_nil, or_false] at hmem
        rcases hmem with hmem | hmem
        · exact hlarge _ (by omega) (by omega) hmem
        · exact hlarge _ (by omega) (by omega) hmem
      · split at hmem
        · simp only [List.mem_cons, List.not_mem_nil, or_false] at hmem
          rcases hmem with hmem | hmem | hmem
          · exact hlarge _ (by omega) (by omega) hmem
          · exact hlarge _ (by omega) (by omega) hmem
          · exact hlarge _ (by omega) (by omega) hmem
        · simp only [List.mem_cons, List.not_mem_nil, or_false] at hmem
          rcases hmem with hmem | hmem | hmem | hmem
          · exact hlarge _ (by omega) (by omega) hmem
          · exact hlarge _ (by omega) (by omega) hmem
          · exact hlarge _ (by omega) (by omega) hmem
          · exact hlarge _ (by omega) (by omega) hmem

/-- A unit of ASCII is in the units of its own code point alone. -/
theorem mem_units_iff {unit : UInt16} (hascii : unit.toNat < 128)
    {point : Char} : unit ∈ units point ↔ point.toNat = unit.toNat := by
  have hvalid : point.toNat.isValidChar := point.valid
  unfold Nat.isValidChar at hvalid
  have hcode : ∀ code, code < 65536 → (UInt16.ofNat code).toNat = code := by
    intro code hlow
    rw [UInt16.toNat_ofNat']
    exact Nat.mod_eq_of_lt hlow
  unfold units
  split
  · next hsmall =>
      rw [List.mem_singleton, ← UInt16.toNat_inj, hcode _ hsmall]
      exact eq_comm
  · next hlarge =>
      have hne : point.toNat ≠ unit.toNat := by omega
      simp only [hne, iff_false, List.mem_cons, List.not_mem_nil, or_false,
        not_or]
      constructor
      · intro hlead
        rw [hlead, hcode _ (by omega)] at hascii
        omega
      · intro htrail
        rw [htrail, hcode _ (by omega)] at hascii
        omega

theorem mem_dropMark_iff {point : Char} (hmark : point.toNat ≠ 0xFEFF)
    {points : List Char} : point ∈ dropMark points ↔ point ∈ points := by
  cases points with
  | nil => rfl
  | cons first rest =>
      by_cases hfirst : first.toNat = 0xFEFF
      · have hne : point ≠ first := fun hsame => hmark (hsame ▸ hfirst)
        simp [dropMark, hfirst, hne]
      · simp [dropMark, hfirst]

/-- A unit of ASCII is read where its byte stands. -/
theorem mem_utf8Decode_iff {bytes : List UInt8} {decoded : Text}
    (hdecode : utf8Decode bytes = some decoded) {code : Nat}
    (hascii : code < 128) :
    UInt16.ofNat code ∈ decoded ↔ UInt8.ofNat code ∈ bytes := by
  rcases utf8Decode_eq_some hdecode with ⟨points, rfl, rfl⟩
  have hunit : (UInt16.ofNat code).toNat = code := by
    rw [UInt16.toNat_ofNat']
    exact Nat.mod_eq_of_lt (by omega)
  have hbyte : (UInt8.ofNat code).toNat = code :=
    toNat_ofNat_of_lt (by omega)
  simp only [List.mem_flatMap]
  constructor
  · intro hmem
    rcases hmem with ⟨point, hpoint, hmem⟩
    have hcode : point.toNat = code := by
      rw [mem_units_iff (by omega), hunit] at hmem
      exact hmem
    refine ⟨point, (mem_dropMark_iff (by omega)).mp hpoint, ?_⟩
    rw [mem_utf8EncodeChar_iff (by omega), hbyte]
    exact hcode
  · intro hmem
    rcases hmem with ⟨point, hpoint, hmem⟩
    have hcode : point.toNat = code := by
      rw [mem_utf8EncodeChar_iff (by omega), hbyte] at hmem
      exact hmem
    refine ⟨point, (mem_dropMark_iff (by omega)).mpr hpoint, ?_⟩
    rw [mem_units_iff (by omega), hunit]
    exact hcode

/-! ## Paths without escapes that need none -/

inductive PathUnit where
  | plain (unit : UInt16)
  | escape (byte : UInt8)
  deriving DecidableEq

def isUnreserved (code : Nat) : Bool :=
  (48 ≤ code && code ≤ 57) || (65 ≤ code && code ≤ 90) ||
    (97 ≤ code && code ≤ 122) || code == 45 || code == 46 || code == 95 ||
    code == 126

/-- The characters of a path: the unreserved ones, the delimiters within a
part, the colon, the at sign and the slash. -/
def isPathCharacter (code : Nat) : Bool :=
  isUnreserved code || code == 33 || code == 36 ||
    (38 ≤ code && code ≤ 44) || code == 59 || code == 61 || code == 58 ||
    code == 64 || code == 47

/-- The bytes of a code point, a surrogate among them. -/
def pointBytes (code : Nat) : List Nat :=
  if code < 0x80 then [code]
  else if code < 0x800 then [0xC0 + code / 64, 0x80 + code % 64]
  else if code < 0x10000 then
    [0xE0 + code / 4096, 0x80 + code / 64 % 64, 0x80 + code % 64]
  else
    [0xF0 + code / 262144, 0x80 + code / 4096 % 64, 0x80 + code / 64 % 64,
      0x80 + code % 64]

def escaped (code : Nat) : List PathUnit :=
  (pointBytes code).map fun byte => .escape (UInt8.ofNat byte)

/-- An escape of an unreserved character is that character. -/
def unescaped (value : Nat) : PathUnit :=
  if isUnreserved value then .plain (UInt16.ofNat value)
  else .escape (UInt8.ofNat value)

def percent : UInt16 := 37

def backslash : UInt16 := 92

def slash : PathUnit := .plain 47

/-- The value of the two digits behind a percent sign. -/
def escapeValue? : Text → Option Nat
  | first :: second :: _ => do
      let high ← JsonDocument.hexValue? first
      let low ← JsonDocument.hexValue? second
      return high * 16 + low
  | _ => none

/-- A percent sign that begins no escape is escaped itself, a backslash is a
slash, and what no path may show is escaped; so many units are skipped
first. -/
def normalizeAfter : Nat → Text → List PathUnit
  | _, [] => []
  | skipped + 1, _ :: rest => normalizeAfter skipped rest
  | 0, unit :: rest =>
      if unit = percent then
        match escapeValue? rest with
        | some value => unescaped value :: normalizeAfter 2 rest
        | none => .escape 37 :: normalizeAfter 0 rest
      else if unit = backslash then slash :: normalizeAfter 0 rest
      else if isPathCharacter unit.toNat then
        .plain unit :: normalizeAfter 0 rest
      else if isLead unit && rest.head?.any isTrail then
        escaped (pair unit (rest.headD 0)).toNat ++ normalizeAfter 1 rest
      else escaped unit.toNat ++ normalizeAfter 0 rest

def normalize (source : Text) : List PathUnit := normalizeAfter 0 source

/-- What stands for itself may do so, and what is escaped has to be. -/
def PathUnit.Normal : PathUnit → Prop
  | .plain unit => isPathCharacter unit.toNat = true
  | .escape byte => isUnreserved byte.toNat = false

@[simp] theorem normal_plain {unit : UInt16} :
    (PathUnit.plain unit).Normal ↔ isPathCharacter unit.toNat = true := Iff.rfl

@[simp] theorem normal_escape {byte : UInt8} :
    (PathUnit.escape byte).Normal ↔ isUnreserved byte.toNat = false := Iff.rfl

theorem lt_of_isPathCharacter {code : Nat}
    (hcode : isPathCharacter code = true) : code < 128 := by
  simp only [isPathCharacter, isUnreserved, Bool.or_eq_true,
    Bool.and_eq_true, decide_eq_true_eq, beq_iff_eq] at hcode
  omega

theorem isPathCharacter_of_isUnreserved {code : Nat}
    (hcode : isUnreserved code = true) : isPathCharacter code = true := by
  simp [isPathCharacter, hcode]

theorem hexValue?_lt {unit : UInt16} {value : Nat}
    (hvalue : JsonDocument.hexValue? unit = some value) : value < 16 := by
  simp only [JsonDocument.hexValue?] at hvalue
  split_ifs at hvalue <;> simp only [Option.some.injEq] at hvalue <;> omega

theorem escapeValue?_lt {source : Text} {value : Nat}
    (hvalue : escapeValue? source = some value) : value < 256 := by
  unfold escapeValue? at hvalue
  split at hvalue
  · rcases Option.bind_eq_some_iff.mp hvalue with ⟨high, hhigh, hrest⟩
    rcases Option.bind_eq_some_iff.mp hrest with ⟨low, hlow, hsum⟩
    have hhigh := hexValue?_lt hhigh
    have hlow := hexValue?_lt hlow
    obtain rfl : high * 16 + low = value := Option.some.inj hsum
    omega
  · cases hvalue

theorem normal_unescaped {value : Nat} (hvalue : value < 256) :
    (unescaped value).Normal := by
  unfold unescaped
  split
  · next hfree =>
      have hcode : (UInt16.ofNat value).toNat = value := by
        rw [UInt16.toNat_ofNat']
        exact Nat.mod_eq_of_lt (by omega)
      rw [normal_plain, hcode]
      exact isPathCharacter_of_isUnreserved hfree
  · next hfree =>
      rw [normal_escape, toNat_ofNat_of_lt hvalue]
      simpa using hfree

theorem lt_and_free_of_mem_pointBytes {code byte : Nat}
    (hbound : code < 0x110000) (hcode : isPathCharacter code = false)
    (hbyte : byte ∈ pointBytes code) :
    byte < 256 ∧ isUnreserved byte = false := by
  have hlarge : ∀ value, 128 ≤ value → isUnreserved value = false := by
    intro value hvalue
    by_contra hfree
    have hfree : isUnreserved value = true := by simpa using hfree
    have hlt := lt_of_isPathCharacter (isPathCharacter_of_isUnreserved hfree)
    omega
  have hsplit : byte = code ∧ code < 128 ∨ 128 ≤ byte ∧ byte < 256 := by
    unfold pointBytes at hbyte
    split_ifs at hbyte <;>
      simp only [List.mem_cons, List.not_mem_nil, or_false] at hbyte <;> omega
  rcases hsplit with ⟨rfl, hlow⟩ | ⟨hlow, hhigh⟩
  · refine ⟨by omega, ?_⟩
    by_contra hfree
    have hfree : isUnreserved byte = true := by simpa using hfree
    rw [isPathCharacter_of_isUnreserved hfree] at hcode
    cases hcode
  · exact ⟨hhigh, hlarge byte hlow⟩

theorem normal_of_mem_escaped {code : Nat} (hbound : code < 0x110000)
    (hcode : isPathCharacter code = false) {unit : PathUnit}
    (hunit : unit ∈ escaped code) : unit.Normal := by
  rcases List.mem_map.mp hunit with ⟨byte, hbyte, rfl⟩
  rcases lt_and_free_of_mem_pointBytes hbound hcode hbyte with ⟨hlt, hfree⟩
  rw [normal_escape, toNat_ofNat_of_lt hlt]
  exact hfree

/-- A code point of two units is beyond the characters of a path. -/
theorem isPathCharacter_pair {lead trail : UInt16} (hlead : isLead lead = true)
    (htrail : isTrail trail = true) :
    isPathCharacter (pair lead trail).toNat = false ∧
      (pair lead trail).toNat < 0x110000 := by
  have hvalid := (pair lead trail).valid
  have hunits := units_pair hlead htrail
  have hlarge : ¬ (pair lead trail).toNat < 0x10000 := by
    intro hsmall
    unfold units at hunits
    rw [if_pos hsmall] at hunits
    simp at hunits
  have hbound : (pair lead trail).toNat < 0x110000 := by
    have hpoint : (pair lead trail).toNat.isValidChar := hvalid
    unfold Nat.isValidChar at hpoint
    omega
  refine ⟨?_, hbound⟩
  by_contra hcharacter
  have hcharacter : isPathCharacter (pair lead trail).toNat = true := by
    simpa using hcharacter
  have hlt := lt_of_isPathCharacter hcharacter
  omega

theorem normal_of_mem_normalizeAfter {skipped : Nat} {source : Text}
    {unit : PathUnit} (hunit : unit ∈ normalizeAfter skipped source) :
    unit.Normal := by
  induction source generalizing skipped with
  | nil => simp [normalizeAfter] at hunit
  | cons first rest ih =>
      cases skipped with
      | succ skipped => exact ih hunit
      | zero =>
          have hfirst := first.toNat_lt_size
          simp only [UInt16.size] at hfirst
          unfold normalizeAfter at hunit
          split at hunit
          · split at hunit
            · next value hvalue =>
                rcases List.mem_cons.mp hunit with rfl | hunit
                · exact normal_unescaped (escapeValue?_lt hvalue)
                · exact ih hunit
            · rcases List.mem_cons.mp hunit with rfl | hunit
              · exact (by decide : isUnreserved 37 = false)
              · exact ih hunit
          · split at hunit
            · rcases List.mem_cons.mp hunit with rfl | hunit
              · exact (by decide : isPathCharacter 47 = true)
              · exact ih hunit
            · split at hunit
              · next hcharacter =>
                  rcases List.mem_cons.mp hunit with rfl | hunit
                  · exact hcharacter
                  · exact ih hunit
              · next hcharacter =>
                  split at hunit
                  · next hpair =>
                      rcases List.mem_append.mp hunit with hunit | hunit
                      · cases rest with
                        | nil => simp at hpair
                        | cons trail others =>
                            have hboth : isLead first = true ∧
                                isTrail trail = true := by simpa using hpair
                            have hpoint :=
                              isPathCharacter_pair hboth.1 hboth.2
                            exact normal_of_mem_escaped hpoint.2 hpoint.1
                              hunit
                      · exact ih hunit
                  · rcases List.mem_append.mp hunit with hunit | hunit
                    · exact normal_of_mem_escaped (by omega)
                        (by simpa using hcharacter) hunit
                    · exact ih hunit

/-! ## Dot segments -/

abbrev Segment := List PathUnit

def dot : Segment := [.plain 46]

def dots : Segment := [.plain 46, .plain 46]

def segments (path : List PathUnit) : List Segment := path.splitOn slash

def parent (kept : List Segment) : List Segment :=
  if kept.dropLast = [] ∧ kept ≠ [] then [[]] else kept.dropLast

/-- The segments that are kept, and whether a slash follows them. -/
def keep (kept : List Segment × Bool) (segment : Segment) :
    List Segment × Bool :=
  if segment = dots then (parent kept.1, true)
  else if segment = dot then (kept.1, true)
  else (kept.1 ++ [segment], false)

def keptSegments (path : List PathUnit) : List Segment :=
  let kept := (segments path).foldl keep ([], false)
  if kept.2 then kept.1 ++ [[]] else kept.1

def removeDotSegments (path : List PathUnit) : List PathUnit :=
  [slash].intercalate (keptSegments path)

/-! ## Reading a segment -/

def PathUnit.byte : PathUnit → UInt8
  | .plain unit => UInt8.ofNat unit.toNat
  | .escape byte => byte

def decodeComponent (segment : Segment) : Option Text :=
  utf8Decode (segment.map PathUnit.byte)

/-- The segments behind the slash the path begins with. -/
def pathSegments (path : List PathUnit) : List Segment :=
  let behind := if path.head? = some slash then path.tail else path
  if behind = [] then [] else segments behind

/-! ## What the segments are -/

/-- What is kept is no dot segment, and is empty or one of the segments. -/
theorem of_mem_foldl_keep {parts : List Segment}
    {kept : List Segment × Bool} {segment : Segment}
    (hsegment : segment ∈ (parts.foldl keep kept).1) :
    segment = [] ∨ segment ∈ kept.1 ∨
      segment ∈ parts ∧ segment ≠ dot ∧ segment ≠ dots := by
  induction parts generalizing kept with
  | nil => exact Or.inr (Or.inl hsegment)
  | cons part rest ih =>
      have hstep : ∀ other ∈ (keep kept part).1,
          other = [] ∨ other ∈ kept.1 ∨
            other = part ∧ part ≠ dot ∧ part ≠ dots := by
        intro other hother
        unfold keep at hother
        split_ifs at hother with hdots hdot
        · unfold parent at hother
          split_ifs at hother
          · exact Or.inl (List.mem_singleton.mp hother)
          · exact Or.inr (Or.inl (List.mem_of_mem_dropLast hother))
        · exact Or.inr (Or.inl hother)
        · rcases List.mem_append.mp hother with hkept | hpart
          · exact Or.inr (Or.inl hkept)
          · exact Or.inr (Or.inr ⟨List.mem_singleton.mp hpart, hdot, hdots⟩)
      rcases ih hsegment with hempty | hkept | hrest
      · exact Or.inl hempty
      · rcases hstep segment hkept with hempty | hkept | ⟨rfl, hnot⟩
        · exact Or.inl hempty
        · exact Or.inr (Or.inl hkept)
        · exact Or.inr (Or.inr ⟨by simp, hnot⟩)
      · exact Or.inr (Or.inr ⟨by simp [hrest.1], hrest.2⟩)

theorem slash_not_mem_of_mem_segments {path : List PathUnit}
    {segment : Segment} (hsegment : segment ∈ segments path) :
    slash ∉ segment :=
  not_mem_of_mem_splitOn hsegment

theorem mem_intercalate {parts : List Segment} {part : Segment}
    (hpart : part ∈ parts) {unit : PathUnit} (hunit : unit ∈ part) :
    unit ∈ [slash].intercalate parts := by
  induction parts with
  | nil => simp at hpart
  | cons first rest ih =>
      by_cases hrest : rest = []
      · subst hrest
        rw [List.intercalate_singleton, ← List.mem_singleton.mp hpart]
        exact hunit
      · rw [List.intercalate_cons_of_ne_nil hrest]
        rcases List.mem_cons.mp hpart with rfl | hpart
        · simp [hunit]
        · simp [ih hpart]

theorem mem_of_mem_segments {path : List PathUnit} {segment : Segment}
    (hsegment : segment ∈ segments path) {unit : PathUnit}
    (hunit : unit ∈ segment) : unit ∈ path := by
  have hjoined : [slash].intercalate (segments path) = path :=
    List.intercalate_splitOn slash
  rw [← hjoined]
  exact mem_intercalate hsegment hunit

theorem segments_cons_slash (path : List PathUnit) :
    segments (slash :: path) = [] :: segments path := by
  unfold segments
  rw [List.splitOn_cons_eq_if_modifyHead, if_pos (by simp)]

theorem of_mem_keptSegments {path : List PathUnit} {segment : Segment}
    (hsegment : segment ∈ keptSegments path) :
    segment = [] ∨
      segment ∈ segments path ∧ segment ≠ dot ∧ segment ≠ dots := by
  have hkept : segment = [] ∨
      segment ∈ ((segments path).foldl keep ([], false)).1 := by
    unfold keptSegments at hsegment
    dsimp only at hsegment
    split_ifs at hsegment
    · rcases List.mem_append.mp hsegment with hkept | hlast
      · exact Or.inr hkept
      · exact Or.inl (List.mem_singleton.mp hlast)
    · exact Or.inr hsegment
  rcases hkept with hempty | hkept
  · exact Or.inl hempty
  · rcases of_mem_foldl_keep hkept with hempty | hnone | hpart
    · exact Or.inl hempty
    · simp at hnone
    · exact Or.inr hpart

/-- What is left has no dot segment. -/
theorem of_mem_segments_removeDotSegments {path : List PathUnit}
    {segment : Segment}
    (hsegment : segment ∈ segments (removeDotSegments path)) :
    segment = [] ∨
      segment ∈ segments path ∧ segment ≠ dot ∧ segment ≠ dots := by
  by_cases hparts : keptSegments path = []
  · left
    rw [removeDotSegments, hparts] at hsegment
    simpa [segments] using hsegment
  · have hsplit : segments (removeDotSegments path) = keptSegments path := by
      apply List.splitOn_intercalate
      · intro part hpart
        rcases of_mem_keptSegments hpart with rfl | hpart
        · simp
        · exact slash_not_mem_of_mem_segments hpart.1
      · exact hparts
    rw [hsplit] at hsegment
    exact of_mem_keptSegments hsegment

theorem mem_segments_of_mem_pathSegments {path : List PathUnit}
    {segment : Segment} (hsegment : segment ∈ pathSegments path) :
    segment ∈ segments path := by
  unfold pathSegments at hsegment
  cases path with
  | nil => simp at hsegment
  | cons first rest =>
      by_cases hfirst : first = slash
      · subst hfirst
        rw [segments_cons_slash]
        simp only [List.head?_cons, if_true, List.tail_cons] at hsegment
        split_ifs at hsegment
        · simp at hsegment
        · exact List.mem_cons_of_mem _ hsegment
      · simpa [hfirst] using hsegment

/-! ## What a decoded segment holds -/

/-- The escapes of a byte order mark. -/
def mark : Segment := [.escape 0xEF, .escape 0xBB, .escape 0xBF]

theorem utf8Encode_eq_of_utf8Decode {bytes : List UInt8} {decoded : Text}
    (hdecode : utf8Decode bytes = some decoded) :
    bytes = utf8Encode decoded ∨
      bytes = mark.map PathUnit.byte ++ utf8Encode decoded := by
  rcases utf8Decode_eq_some hdecode with ⟨points, rfl, rfl⟩
  have hencode : utf8Encode ((dropMark points).flatMap units) =
      (dropMark points).flatMap String.utf8EncodeChar := by
    unfold utf8Encode
    rw [runes_flatMap_units]
  rw [hencode]
  cases points with
  | nil => exact Or.inl rfl
  | cons first rest =>
      by_cases hfirst : first.toNat = 0xFEFF
      · right
        have hchar : first = Char.ofNat 0xFEFF := by
          rw [← hfirst, Char.ofNat_toNat]
        subst hchar
        rfl
      · left
        simp [dropMark, hfirst]

/-- The unit of a byte, where the byte tells whether it is escaped. -/
theorem eq_of_byte_eq {unit : PathUnit} (hunit : unit.Normal) {code : Nat}
    (hcode : code < 256) (hbyte : unit.byte = UInt8.ofNat code) :
    unit = .plain (UInt16.ofNat code) ∧ isPathCharacter code = true ∨
      unit = .escape (UInt8.ofNat code) ∧ isUnreserved code = false := by
  cases unit with
  | plain unit =>
      have hcharacter := normal_plain.mp hunit
      have hlow := lt_of_isPathCharacter hcharacter
      have hsame : unit.toNat = code := by
        have hvalue := congrArg UInt8.toNat hbyte
        rw [PathUnit.byte, toNat_ofNat_of_lt (by omega),
          toNat_ofNat_of_lt hcode] at hvalue
        exact hvalue
      subst hsame
      exact Or.inl ⟨by rw [UInt16.ofNat_toNat], hcharacter⟩
  | escape byte =>
      have hsame : byte = UInt8.ofNat code := hbyte
      subst hsame
      have hfree := normal_escape.mp hunit
      rw [toNat_ofNat_of_lt hcode] at hfree
      exact Or.inr ⟨rfl, hfree⟩

/-- The byte of an unreserved character stands for itself, one beyond ASCII
is escaped. -/
theorem segment_eq_of_bytes_eq {segment other : Segment}
    (hsegment : ∀ unit ∈ segment, unit.Normal)
    (hother : ∀ unit ∈ other, (∃ code < 256, isUnreserved code = true ∧
        unit = .plain (UInt16.ofNat code)) ∨
      ∃ code < 256, isPathCharacter code = false ∧
        unit = .escape (UInt8.ofNat code))
    (hbytes : segment.map PathUnit.byte = other.map PathUnit.byte) :
    segment = other := by
  induction other generalizing segment with
  | nil => simpa using hbytes
  | cons second others ih =>
      cases segment with
      | nil => simp at hbytes
      | cons first rest =>
          rw [List.map_cons, List.map_cons, List.cons.injEq] at hbytes
          have hrest : rest = others := ih
            (fun unit hunit => hsegment unit (by simp [hunit]))
            (fun unit hunit => hother unit (by simp [hunit])) hbytes.2
          have hnormal := hsegment first (by simp)
          have hfirst : first = second := by
            rcases hother second (by simp) with
              ⟨code, hcode, hfree, rfl⟩ | ⟨code, hcode, hbarred, rfl⟩
            · have hbyte : first.byte = UInt8.ofNat code := by
                rw [hbytes.1, PathUnit.byte, UInt16.toNat_ofNat',
                  Nat.mod_eq_of_lt (by omega)]
              rcases eq_of_byte_eq hnormal hcode hbyte with hplain | hescape
              · exact hplain.1
              · rw [hfree] at hescape
                cases hescape.2
            · have hbyte : first.byte = UInt8.ofNat code := hbytes.1
              rcases eq_of_byte_eq hnormal hcode hbyte with hplain | hescape
              · rw [hbarred] at hplain
                cases hplain.2
              · exact hescape.1
          rw [hfirst, hrest]

/-- A decoded name whose characters need no escape was written so, behind a
byte order mark or not. -/
theorem eq_of_decodeComponent {segment target : Segment} {name : Text}
    (hsegment : ∀ unit ∈ segment, unit.Normal)
    (htarget : ∀ unit ∈ target, ∃ code < 256, isUnreserved code = true ∧
      unit = .plain (UInt16.ofNat code))
    (hname : utf8Encode name = target.map PathUnit.byte)
    (hdecode : decodeComponent segment = some name) :
    segment = target ∨ segment = mark ++ target := by
  rcases utf8Encode_eq_of_utf8Decode hdecode with hbytes | hbytes
  · left
    rw [hname] at hbytes
    exact segment_eq_of_bytes_eq hsegment
      (fun unit hunit => Or.inl (htarget unit hunit)) hbytes
  · right
    rw [hname, ← List.map_append] at hbytes
    refine segment_eq_of_bytes_eq hsegment ?_ hbytes
    intro unit hunit
    rcases List.mem_append.mp hunit with hmark | hunit
    · right
      simp only [mark, List.mem_cons, List.not_mem_nil, or_false] at hmark
      rcases hmark with rfl | rfl | rfl
      · exact ⟨0xEF, by decide, by decide, rfl⟩
      · exact ⟨0xBB, by decide, by decide, rfl⟩
      · exact ⟨0xBF, by decide, by decide, rfl⟩
    · exact Or.inl (htarget unit hunit)

/-- A decoded name holds a character that no segment shows where its escape
stands. -/
theorem mem_decoded_iff {segment : Segment} {name : Text} {code : Nat}
    (hsegment : ∀ unit ∈ segment, unit.Normal)
    (hcode : code < 128)
    (habsent : PathUnit.plain (UInt16.ofNat code) ∉ segment)
    (hdecode : decodeComponent segment = some name) :
    UInt16.ofNat code ∈ name ↔ .escape (UInt8.ofNat code) ∈ segment := by
  rw [mem_utf8Decode_iff hdecode hcode, List.mem_map]
  constructor
  · intro hbyte
    rcases hbyte with ⟨unit, hunit, hbyte⟩
    rcases eq_of_byte_eq (hsegment unit hunit) (by omega) hbyte with
      ⟨rfl, -⟩ | ⟨rfl, -⟩
    · exact absurd hunit habsent
    · exact hunit
  · intro hescape
    exact ⟨_, hescape, rfl⟩

/-! ## Names of one component -/

/-- A name that stands for a child of the directory it is joined to. -/
def SingleComponent (name : Text) : Prop :=
  name ≠ [] ∧ name ≠ text "." ∧ name ≠ text ".." ∧
    (47 : UInt16) ∉ name ∧ (92 : UInt16) ∉ name

/-- The segment is decoded to something. -/
def IsNamed (segment : Segment) : Prop := segment ≠ [] ∧ segment ≠ mark

/-- No separator is escaped in the segment, and it is no dot segment behind a
byte order mark. -/
def NamesOne (segment : Segment) : Prop :=
  .escape 47 ∉ segment ∧ .escape 92 ∉ segment ∧
    segment ≠ mark ++ dot ∧ segment ≠ mark ++ dots

instance (segment : Segment) : Decidable (IsNamed segment) :=
  inferInstanceAs (Decidable (_ ∧ _))

instance (segment : Segment) : Decidable (NamesOne segment) :=
  inferInstanceAs (Decidable (_ ∧ _))

section

variable {segment : Segment} {name : Text}
  (hsegment : ∀ unit ∈ segment, unit.Normal)
  (hdecode : decodeComponent segment = some name)
include hsegment hdecode

theorem eq_nil_iff_of_decodeComponent : name = [] ↔ ¬ IsNamed segment := by
  unfold IsNamed
  rw [not_and_or, not_not, not_not]
  constructor
  · rintro rfl
    have hempty : segment = [] ∨ segment = mark ++ [] :=
      eq_of_decodeComponent hsegment (by simp) rfl hdecode
    simpa using hempty
  · intro hempty
    rcases hempty with rfl | rfl
    · have hnone : decodeComponent [] = some [] := by decide
      exact (Option.some.inj (hnone.symm.trans hdecode)).symm
    · have hmark : decodeComponent mark = some [] := by decide
      exact (Option.some.inj (hmark.symm.trans hdecode)).symm

theorem eq_dot_iff_of_decodeComponent :
    name = text "." ↔ segment = dot ∨ segment = mark ++ dot := by
  constructor
  · rintro rfl
    refine eq_of_decodeComponent hsegment ?_ (by decide) hdecode
    intro unit hunit
    obtain rfl : unit = .plain 46 := List.mem_singleton.mp hunit
    exact ⟨46, by decide, by decide, rfl⟩
  · intro hdot
    rcases hdot with rfl | rfl
    · have hname : decodeComponent dot = some (text ".") := by decide
      exact (Option.some.inj (hname.symm.trans hdecode)).symm
    · have hname : decodeComponent (mark ++ dot) = some (text ".") := by
        decide
      exact (Option.some.inj (hname.symm.trans hdecode)).symm

theorem eq_dots_iff_of_decodeComponent :
    name = text ".." ↔ segment = dots ∨ segment = mark ++ dots := by
  constructor
  · rintro rfl
    refine eq_of_decodeComponent hsegment ?_ (by decide) hdecode
    intro unit hunit
    obtain rfl : unit = .plain 46 := by simpa [dots] using hunit
    exact ⟨46, by decide, by decide, rfl⟩
  · intro hdots
    rcases hdots with rfl | rfl
    · have hname : decodeComponent dots = some (text "..") := by
        decide
      exact (Option.some.inj (hname.symm.trans hdecode)).symm
    · have hname : decodeComponent (mark ++ dots) = some (text "..") := by
        decide
      exact (Option.some.inj (hname.symm.trans hdecode)).symm

/-- A segment that is decoded to something and is no dot segment has one
name exactly where nothing in it is escaped that would make it more. -/
theorem singleComponent_iff (hnamed : IsNamed segment)
    (hslash : slash ∉ segment) (hdot : segment ≠ dot)
    (hdots : segment ≠ dots) :
    SingleComponent name ↔ NamesOne segment := by
  have hbackslash : PathUnit.plain 92 ∉ segment := by
    intro hmem
    have hnormal := normal_plain.mp (hsegment _ hmem)
    exact absurd hnormal (by decide)
  have hname : name ≠ [] := by
    rw [ne_eq, eq_nil_iff_of_decodeComponent hsegment hdecode, not_not]
    exact hnamed
  have hslashes : (47 : UInt16) ∈ name ↔ .escape 47 ∈ segment :=
    mem_decoded_iff hsegment (by decide) hslash hdecode
  have hbackslashes : (92 : UInt16) ∈ name ↔ .escape 92 ∈ segment :=
    mem_decoded_iff hsegment (by decide) hbackslash hdecode
  have hone := eq_dot_iff_of_decodeComponent hsegment hdecode
  have htwo := eq_dots_iff_of_decodeComponent hsegment hdecode
  simp only [hdot, false_or] at hone
  simp only [hdots, false_or] at htwo
  unfold SingleComponent NamesOne
  rw [hslashes, hbackslashes]
  simp only [ne_eq, hone, htwo]
  tauto

end

end UrlPaths
