import Dovetail.ByteWords
import Dovetail.UniversalBundle

/-!
# Mach-O headers

`MachO.parse` reads a header by its magic.  A well-formed thin or fat header
gives exactly the processor types of its slices.  A header is not checked any
further: a fat one that promises more records than there are bytes is read as
far as it goes, and so is a Java class file, which has the same magic.
-/

namespace Dovetail.Bundler.Universal

namespace MachO

/-! ## The format -/

inductive ByteOrder where
  | little
  | big
  deriving DecidableEq

inductive Width where
  | bits32
  | bits64
  deriving DecidableEq

/-- A word of a header. -/
def word : ByteOrder → Nat → Bytes
  | .little, value => ByteWords.littleEndian 4 value
  | .big, value => ByteWords.bigEndian 4 value

namespace Width

def thinMagic : Width → Nat
  | .bits32 => 0xFEEDFACE
  | .bits64 => 0xFEEDFACF

def fatMagic : Width → Nat
  | .bits32 => 0xCAFEBABE
  | .bits64 => 0xCAFEBABF

/-- The bytes of a thin header. -/
def thinBytes : Width → Nat
  | .bits32 => 28
  | .bits64 => 32

/-- The bytes of one record of a fat header. -/
def entryBytes : Width → Nat
  | .bits32 => 20
  | .bits64 => 32

end Width

/-- Behind the processor type come the fields that say nothing about it. -/
structure ThinHeader where
  order : ByteOrder
  width : Width
  cpuType : UInt32
  fields : Bytes
  complete : 8 + fields.length = width.thinBytes

def ThinHeader.bytes (header : ThinHeader) : Bytes :=
  word header.order header.width.thinMagic ++
    (word header.order header.cpuType.toNat ++ header.fields)

structure FatRecord (width : Width) where
  cpuType : UInt32
  fields : Bytes
  complete : 4 + fields.length = width.entryBytes

def FatRecord.bytes {width : Width} (record : FatRecord width) : Bytes :=
  word .big record.cpuType.toNat ++ record.fields

structure FatHeader where
  width : Width
  records : List (FatRecord width)
  counted : records.length < 2 ^ 32

namespace FatHeader

def bytes (header : FatHeader) : Bytes :=
  word .big header.width.fatMagic ++
    (word .big header.records.length ++
      header.records.flatMap FatRecord.bytes)

def cpuTypes (header : FatHeader) : List Nat :=
  header.records.map fun record => record.cpuType.toNat

end FatHeader

/-- The bytes begin with a header of the format. -/
def WellFormed (head : Bytes) : Prop :=
  (∃ header : ThinHeader, header.bytes <+: head) ∨
    ∃ header : FatHeader, header.bytes <+: head

/-! ## What is reported -/

/-- The architectures and the unknown types of these processor types. -/
structure Reports (info : MachOInfo) (kind : MachOKind)
    (cpuTypes : List Nat) : Prop where
  kind : info.kind = kind
  architectures : ∀ arch, arch ∈ info.architectures ↔
    ∃ cpuType ∈ cpuTypes, archFor cpuType = some arch
  unknown : ∀ cpuType, cpuType ∈ info.unknownCpuTypes ↔
    cpuType ∈ cpuTypes ∧ archFor cpuType = none

theorem reports_infoOf (kind : MachOKind) (cpuTypes : List Nat) :
    Reports (infoOf kind cpuTypes) kind cpuTypes := by
  constructor
  · rfl
  · intro arch
    rw [infoOf, List.mem_eraseDups, List.mem_filterMap]
  · intro cpuType
    rw [infoOf, List.mem_eraseDups, List.mem_filter, Option.isNone_iff_eq_none]

/-! ## Reading words -/

theorem bigEndian_eq (bytes : Bytes) :
    bigEndian bytes = ByteWords.fromBigEndian bytes := by
  induction bytes using List.reverseRecOn with
  | nil => rfl
  | append_singleton rest byte ih =>
      rw [bigEndian] at ih
      rw [bigEndian, List.foldl_concat, ih, ByteWords.fromBigEndian,
        ByteWords.fromBigEndian, List.reverse_concat,
        ByteWords.fromLittleEndian]
      ring

@[simp] theorem length_word (order : ByteOrder) (value : Nat) :
    (word order value).length = 4 := by
  cases order with
  | little => exact ByteWords.length_littleEndian 4 value
  | big => exact ByteWords.length_bigEndian 4 value

def readWord : ByteOrder → Bytes → Nat → Nat
  | .little => getUint32Little
  | .big => getUint32

theorem readWord_append (order : ByteOrder) (before rest : Bytes)
    {value : Nat} (hvalue : value < 2 ^ 32) :
    readWord order (before ++ (word order value ++ rest)) before.length =
      value := by
  have hfield : ((before ++ (word order value ++ rest)).drop
      before.length).take 4 = word order value := by
    rw [List.drop_left]
    exact List.take_left' (length_word order value)
  have hmod : value % 256 ^ 4 = value := Nat.mod_eq_of_lt hvalue
  cases order with
  | little =>
      rw [readWord, getUint32Little, hfield, bigEndian_eq, word,
        ByteWords.fromBigEndian, List.reverse_reverse,
        ByteWords.fromLittleEndian_littleEndian, hmod]
  | big =>
      rw [readWord, getUint32, hfield, bigEndian_eq, word,
        ByteWords.fromBigEndian_bigEndian, hmod]

/-- The number that a magic is read as. -/
def thinMagicRead : ByteOrder → Width → Nat
  | .little, .bits32 => 0xCEFAEDFE
  | .little, .bits64 => 0xCFFAEDFE
  | .big, width => width.thinMagic

theorem getUint32_thinMagic (order : ByteOrder) (width : Width)
    (rest : Bytes) :
    getUint32 (word order width.thinMagic ++ rest) 0 =
      thinMagicRead order width := by
  cases order <;> cases width <;> rfl

theorem getUint32_fatMagic (width : Width) (rest : Bytes) :
    getUint32 (word .big width.fatMagic ++ rest) 0 = width.fatMagic := by
  cases width <;> rfl

/-! ## The branches of the parser -/

section

variable {head : Bytes} (hlong : 8 ≤ head.length)
include hlong

theorem parse_of_thinMagic {order : ByteOrder} {width : Width}
    (hmagic : getUint32 head 0 = thinMagicRead order width) :
    parse head = infoOf .thin [readWord order head 4] := by
  rw [parse, if_neg (Nat.not_lt.mpr hlong), hmagic]
  cases order <;> cases width <;> rfl

theorem parse_of_fatMagic {width : Width}
    (hmagic : getUint32 head 0 = width.fatMagic) :
    parse head = infoOf .fat (fatCpuTypes head width.entryBytes
      (getUint32 head 4) 8) := by
  rw [parse, if_neg (Nat.not_lt.mpr hlong), hmagic]
  cases width <;> rfl

end

/-- The bytes begin with one of the magics. -/
def BeginsWithMagic (head : Bytes) : Prop :=
  (∃ order width, getUint32 head 0 = thinMagicRead order width) ∨
    ∃ width : Width, getUint32 head 0 = width.fatMagic

theorem parse_of_no_magic {head : Bytes}
    (hmagic : head.length < 8 ∨ ¬ BeginsWithMagic head) :
    parse head = .none := by
  unfold parse
  split
  · rfl
  · rename_i hlong
    have hother := hmagic.resolve_left hlong
    rw [BeginsWithMagic, not_or, not_exists, not_exists] at hother
    rcases hother with ⟨hthin, hfat⟩
    have hthin' (order : ByteOrder) (width : Width) :
        getUint32 head 0 ≠ thinMagicRead order width := by
      intro hsame
      exact hthin order ⟨width, hsame⟩
    have hfat32 : getUint32 head 0 ≠ 0xCAFEBABE := hfat .bits32
    have hfat64 : getUint32 head 0 ≠ 0xCAFEBABF := hfat .bits64
    have hlittle : ¬ (getUint32 head 0 = 0xCFFAEDFE ∨
        getUint32 head 0 = 0xCEFAEDFE) :=
      not_or.mpr ⟨hthin' .little .bits64, hthin' .little .bits32⟩
    have hbig : ¬ (getUint32 head 0 = 0xFEEDFACF ∨
        getUint32 head 0 = 0xFEEDFACE) :=
      not_or.mpr ⟨hthin' .big .bits64, hthin' .big .bits32⟩
    simp only
    rw [if_neg hfat32, if_neg hfat64, if_neg hlittle, if_neg hbig]

/-! ## Well-formed headers -/

theorem parse_thin (header : ThinHeader) (body : Bytes) :
    parse (header.bytes ++ body) =
      infoOf .thin [header.cpuType.toNat] := by
  have hhead : header.bytes ++ body =
      word header.order header.width.thinMagic ++
        (word header.order header.cpuType.toNat ++
          (header.fields ++ body)) := by
    rw [ThinHeader.bytes, List.append_assoc, List.append_assoc]
  have hlong : 8 ≤ (header.bytes ++ body).length := by
    rw [hhead, List.length_append, List.length_append, length_word,
      length_word]
    omega
  have hmagic : getUint32 (header.bytes ++ body) 0 =
      thinMagicRead header.order header.width := by
    rw [hhead, getUint32_thinMagic]
  have hcpu := readWord_append header.order
    (word header.order header.width.thinMagic) (header.fields ++ body)
    header.cpuType.toNat_lt
  rw [length_word, ← hhead] at hcpu
  rw [parse_of_thinMagic hlong hmagic, hcpu]

theorem FatRecord.length_bytes {width : Width} (record : FatRecord width) :
    record.bytes.length = width.entryBytes := by
  rw [FatRecord.bytes, List.length_append, length_word, record.complete]

theorem fatCpuTypes_records {width : Width} (before body : Bytes)
    (records : List (FatRecord width)) :
    fatCpuTypes (before ++ (records.flatMap FatRecord.bytes ++ body))
        width.entryBytes records.length before.length =
      records.map fun record => record.cpuType.toNat := by
  induction records generalizing before with
  | nil => rfl
  | cons record rest ih =>
      have hrest := ih (before ++ record.bytes)
      have hread : getUint32 _ _ = _ := readWord_append .big before
        (record.fields ++ (rest.flatMap FatRecord.bytes ++ body))
        record.cpuType.toNat_lt
      have hhead : before ++
          ((record :: rest).flatMap FatRecord.bytes ++ body) =
          before ++ (word .big record.cpuType.toNat ++ (record.fields ++
            (rest.flatMap FatRecord.bytes ++ body))) := by
        rw [List.flatMap_cons, FatRecord.bytes]
        simp only [List.append_assoc]
      have hlong : ¬ before.length + 4 > (before ++
          ((record :: rest).flatMap FatRecord.bytes ++ body)).length := by
        rw [hhead, List.length_append, List.length_append, length_word]
        omega
      rw [List.length_append, record.length_bytes, List.append_assoc,
        ← List.append_assoc record.bytes, ← List.flatMap_cons] at hrest
      rw [List.length_cons, fatCpuTypes, if_neg hlong, hrest, hhead, hread]
      rfl

theorem FatHeader.bytes_append (header : FatHeader) (body : Bytes) :
    header.bytes ++ body =
      word .big header.width.fatMagic ++ (word .big header.records.length ++
        (header.records.flatMap FatRecord.bytes ++ body)) := by
  rw [FatHeader.bytes, List.append_assoc, List.append_assoc]

theorem getUint32_count (header : FatHeader) (body : Bytes) :
    getUint32 (header.bytes ++ body) 4 = header.records.length := by
  have hcount : getUint32 _ _ = _ := readWord_append .big
    (word .big header.width.fatMagic)
    (header.records.flatMap FatRecord.bytes ++ body) header.counted
  rw [length_word, ← header.bytes_append] at hcount
  exact hcount

theorem parse_fat (header : FatHeader) (body : Bytes) :
    parse (header.bytes ++ body) = infoOf .fat header.cpuTypes := by
  have hhead := header.bytes_append body
  have hlong : 8 ≤ (header.bytes ++ body).length := by
    rw [hhead, List.length_append, List.length_append, length_word,
      length_word]
    omega
  have hmagic : getUint32 (header.bytes ++ body) 0 =
      header.width.fatMagic := by
    rw [hhead, getUint32_fatMagic]
  have hrecords := fatCpuTypes_records (word .big header.width.fatMagic ++
    word .big header.records.length) body header.records
  rw [List.append_assoc, ← hhead, List.length_append, length_word,
    length_word] at hrecords
  rw [parse_of_fatMagic hlong hmagic, getUint32_count, hrecords]
  rfl

/-! ## Headers that are cut off -/

/-- The processor types of the records that the bytes reach. -/
def reachedCpuTypes (head : Bytes) (entryBytes count offset : Nat) :
    List Nat :=
  ((List.range count).filter fun index =>
    offset + index * entryBytes + 4 ≤ head.length).map fun index =>
      getUint32 head (offset + index * entryBytes)

theorem fatCpuTypes_eq (head : Bytes) (entryBytes count offset : Nat) :
    fatCpuTypes head entryBytes count offset =
      reachedCpuTypes head entryBytes count offset := by
  induction count generalizing offset with
  | zero => rfl
  | succ count ih =>
      have hshift (index : Nat) : offset + (index + 1) * entryBytes =
          offset + entryBytes + index * entryBytes := by
        ring
      rw [fatCpuTypes]
      split
      · rename_i hend
        have hnone : (List.range (count + 1)).filter (fun index =>
            offset + index * entryBytes + 4 ≤ head.length) = [] := by
          apply List.filter_eq_nil_iff.mpr
          intro index _
          rw [decide_eq_true_eq]
          omega
        rw [reachedCpuTypes, hnone]
        rfl
      · rename_i hin
        have hfirst : offset + 0 * entryBytes + 4 ≤ head.length := by
          omega
        rw [ih, reachedCpuTypes, reachedCpuTypes, List.range_succ_eq_map,
          List.filter_cons_of_pos (by simpa using hfirst), List.filter_map,
          List.map_cons, List.map_map, Nat.zero_mul, Nat.add_zero]
        simp only [Function.comp_def, hshift]

/-! ## Reads within the bytes -/

/-- `ByteData.getUint32`, which refuses an offset too near the end. -/
def checkedUint32 (read : Bytes → Nat → Nat) (view : Bytes) (offset : Nat) :
    Option Nat :=
  if offset + 4 ≤ view.length then some (read view offset) else none

def checkedCpuTypes (view : Bytes) (entryBytes : Nat) :
    Nat → Nat → Option (List Nat)
  | 0, _ => some []
  | count + 1, offset =>
      if offset + 4 > view.length then some []
      else do
        let cpuType ← checkedUint32 getUint32 view offset
        let others ← checkedCpuTypes view entryBytes count
          (offset + entryBytes)
        return cpuType :: others

/-- The parser with every read checked. -/
def checkedParse (head : Bytes) : Option MachOInfo :=
  if head.length < 8 then some .none
  else do
    let magic ← checkedUint32 getUint32 head 0
    if magic = 0xCAFEBABE then
      let count ← checkedUint32 getUint32 head 4
      return infoOf .fat (← checkedCpuTypes head 20 count 8)
    else if magic = 0xCAFEBABF then
      let count ← checkedUint32 getUint32 head 4
      return infoOf .fat (← checkedCpuTypes head 32 count 8)
    else if magic = 0xCFFAEDFE ∨ magic = 0xCEFAEDFE then
      return infoOf .thin [← checkedUint32 getUint32Little head 4]
    else if magic = 0xFEEDFACF ∨ magic = 0xFEEDFACE then
      return infoOf .thin [← checkedUint32 getUint32 head 4]
    else return .none

theorem checkedCpuTypes_eq (view : Bytes) (entryBytes count offset : Nat) :
    checkedCpuTypes view entryBytes count offset =
      some (fatCpuTypes view entryBytes count offset) := by
  induction count generalizing offset with
  | zero => rfl
  | succ count ih =>
      rw [checkedCpuTypes, fatCpuTypes]
      split
      · rfl
      · rename_i hin
        rw [checkedUint32, if_pos (Nat.not_lt.mp hin), ih]
        rfl

theorem checkedParse_eq (head : Bytes) :
    checkedParse head = some (parse head) := by
  unfold checkedParse parse
  by_cases hshort : head.length < 8
  · rw [if_pos hshort, if_pos hshort]
  · have hread (read : Bytes → Nat → Nat) {offset : Nat}
        (hoffset : offset ≤ 4) :
        checkedUint32 read head offset = some (read head offset) := by
      rw [checkedUint32, if_pos (by omega)]
    rw [if_neg hshort, if_neg hshort]
    simp only [hread _ (Nat.zero_le 4), hread _ (le_refl 4),
      checkedCpuTypes_eq, Option.bind_eq_bind, Option.bind_some]
    split_ifs <;> rfl

/-! ## What a header says -/

/-- Every well-formed header is read as what it says; any other bytes are
read by their magic, as far as they reach, and without one they are not
Mach-O.  No read leaves the bytes. -/
theorem parse_reports (head : Bytes) :
    (∀ header : ThinHeader, header.bytes <+: head →
      Reports (parse head) .thin [header.cpuType.toNat]) ∧
    (∀ header : FatHeader, header.bytes <+: head →
      Reports (parse head) .fat header.cpuTypes) ∧
    (∀ order width, 8 ≤ head.length →
      getUint32 head 0 = thinMagicRead order width →
        Reports (parse head) .thin [readWord order head 4]) ∧
    (∀ width : Width, 8 ≤ head.length →
      getUint32 head 0 = width.fatMagic →
        Reports (parse head) .fat (reachedCpuTypes head width.entryBytes
          (getUint32 head 4) 8)) ∧
    (head.length < 8 ∨ ¬ BeginsWithMagic head →
      parse head = .none) ∧
    checkedParse head = some (parse head) := by
  refine ⟨?_, ?_, ?_, ?_, parse_of_no_magic, checkedParse_eq head⟩
  · intro header hbegins
    rcases hbegins with ⟨body, rfl⟩
    rw [parse_thin]
    exact reports_infoOf _ _
  · intro header hbegins
    rcases hbegins with ⟨body, rfl⟩
    rw [parse_fat]
    exact reports_infoOf _ _
  · intro order width hlong hmagic
    rw [parse_of_thinMagic hlong hmagic]
    exact reports_infoOf _ _
  · intro width hlong hmagic
    rw [parse_of_fatMagic hlong hmagic, fatCpuTypes_eq]
    exact reports_infoOf _ _

/-- A Java class file, up to its constants. -/
def javaClass : Bytes :=
  [0xCA, 0xFE, 0xBA, 0xBE, 0, 0, 0, 52, 0, 15, 10, 0, 3, 0, 12, 7]

theorem ThinHeader.le_length_bytes (header : ThinHeader) :
    28 ≤ header.bytes.length := by
  have hcomplete := header.complete
  rw [ThinHeader.bytes, List.length_append, List.length_append, length_word,
    length_word]
  cases hwidth : header.width <;>
    simp only [hwidth, Width.thinBytes] at hcomplete <;> omega

theorem FatHeader.length_bytes (header : FatHeader) :
    header.bytes.length =
      8 + header.records.length * header.width.entryBytes := by
  have hrecords : (header.records.flatMap FatRecord.bytes).length =
      header.records.length * header.width.entryBytes := by
    rw [List.length_flatMap, List.map_congr_left fun record _ =>
      record.length_bytes, List.map_const', List.sum_replicate, smul_eq_mul]
  rw [FatHeader.bytes, List.length_append, List.length_append, length_word,
    length_word, hrecords]
  omega

/-- It is no header of the format, and it is reported as a fat one. -/
theorem parse_javaClass :
    ¬ WellFormed javaClass ∧ (parse javaClass).isMachO = true := by
  constructor
  · rintro (⟨header, hbegins⟩ | ⟨header, hbegins⟩)
    · have hlength := hbegins.length_le.trans' header.le_length_bytes
      exact absurd hlength (by decide)
    · rcases hbegins with ⟨body, hbody⟩
      have hcount := getUint32_count header body
      have hlength := congrArg List.length hbody
      rw [hbody] at hcount
      rw [List.length_append, header.length_bytes, ← hcount] at hlength
      change 8 + 52 * _ + _ = 16 at hlength
      cases hwidth : header.width <;>
        simp only [hwidth, Width.entryBytes] at hlength <;> omega
  · decide

end MachO

end Dovetail.Bundler.Universal
