import Dovetail.CommonArchives
import Dovetail.DebDirectories
import Dovetail.PackageVersionOrder

/-!
# The archives of a deb

`DebBundler.writeAr` writes the outer archive of a package, whose members are
read as they were given.  The data archive in it lists every directory before
what is in it.
-/

namespace Dovetail.Bundler.Linux

open CodeUnits

structure ArMember where
  name : Text
  bytes : List UInt8
  deriving DecidableEq

/-- A name that its field has room for, and a size as well. -/
structure ArMember.Fits (member : ArMember) : Prop where
  short : member.name.length ≤ 16
  ascii : ∀ unit ∈ member.name, unit < 128
  blank : member.name.getLast? ≠ some 32
  slash : member.name.getLast? ≠ some slash
  small : member.bytes.length < 10 ^ 10

/-- What a reader of the archive has in its hands. -/
def ArMember.ofRead (member : CommonArchive.Member) : ArMember where
  name := member.name.map (·.toUInt16)
  bytes := member.content

namespace DebBundler

def pad (value : Text) (width : Nat) : Text :=
  if width ≤ value.length then value.take width
  else value ++ List.replicate (width - value.length) 32

def writeMember (member : ArMember) : List UInt8 :=
  utf8Encode (pad member.name 16) ++ utf8Encode (pad (text "0") 12) ++
    utf8Encode (pad (text "0") 6) ++ utf8Encode (pad (text "0") 6) ++
    utf8Encode (pad (text "100644") 8) ++
    utf8Encode (pad (text (toString member.bytes.length)) 10) ++
    utf8Encode (text "`\n") ++ member.bytes ++
    (if member.bytes.length % 2 = 1 then utf8Encode (text "\n") else [])

def writeAr (members : List ArMember) : List UInt8 :=
  utf8Encode (text "!<arch>\n") ++ members.flatMap writeMember

/-! ## Fields -/

theorem utf8Encode_ascii {value : Text} (hvalue : ∀ unit ∈ value, unit < 128) :
    utf8Encode value = value.map (·.toUInt8) := by
  induction value with
  | nil => rfl
  | cons unit rest ih =>
      have hunit := hvalue unit (by simp)
      have hsurrogate : isSurrogate unit = false := by
        rw [UInt16.lt_iff_toNat_lt] at hunit
        change unit.toNat < 128 at hunit
        simp only [isSurrogate, isLead, isTrail, Bool.or_eq_false_iff,
          beq_eq_false_iff_ne]
        omega
      have hone : utf8Encode [unit] = [unit.toUInt8] := by
        rw [UInt16.lt_iff_toNat_lt] at hunit
        change unit.toNat < 128 at hunit
        have hvalid : unit.toNat.isValidChar := Or.inl (by omega)
        have hchar : (Char.ofNat unit.toNat).val.toNat = unit.toNat := by
          exact toNat_ofNat_of_valid hvalid
        have hsmall : unit.toNat ≤ 127 := by omega
        simp [utf8Encode, runes, single, hsurrogate, String.utf8EncodeChar,
          hchar, hsmall]
      have hwell : wellFormed [unit] = true := by
        simp [wellFormed, hsurrogate]
      rw [← List.singleton_append, utf8Encode_append hwell, hone,
        ih fun other hother => hvalue other (by simp [hother])]
      rfl

theorem utf8Encode_pad {value : Text} {width : Nat}
    (hvalue : ∀ unit ∈ value, unit < 128) (hwidth : value.length ≤ width) :
    utf8Encode (pad value width) = value.map (·.toUInt8) ++
      List.replicate (width - value.length) CommonArchive.blank := by
  have hpad : pad value width =
      value ++ List.replicate (width - value.length) 32 := by
    unfold pad
    split_ifs with hlong
    · have hlength : width = value.length := by omega
      simp [hlength]
    · rfl
  have hblank : ∀ unit ∈ List.replicate (width - value.length) (32 : UInt16),
      unit < 128 := by
    intro unit hunit
    rw [List.eq_of_mem_replicate hunit]
    decide
  rw [hpad, utf8Encode_ascii (List.forall_mem_append.mpr ⟨hvalue, hblank⟩),
    List.map_append, List.map_replicate]
  rfl

theorem length_utf8Encode_pad {value : Text} {width : Nat}
    (hvalue : ∀ unit ∈ value, unit < 128) (hwidth : value.length ≤ width) :
    (utf8Encode (pad value width)).length = width := by
  rw [utf8Encode_pad hvalue hwidth, List.length_append, List.length_map,
    List.length_replicate]
  omega

theorem getLast?_map_ne {value : Text} {unit : UInt16}
    (hvalue : ∀ other ∈ value, other < 128) (hunit : unit < 128)
    (hlast : value.getLast? ≠ some unit) :
    (value.map (·.toUInt8)).getLast? ≠ some unit.toUInt8 := by
  rw [List.getLast?_map]
  intro hsome
  rcases Option.map_eq_some_iff.mp hsome with ⟨last, hmem, hsame⟩
  have hsmall := hvalue last (List.mem_of_getLast? hmem)
  have hequal : last = unit := by
    rw [UInt16.lt_iff_toNat_lt] at hsmall hunit
    change last.toNat < 128 at hsmall
    change unit.toNat < 128 at hunit
    have hbytes := congrArg UInt8.toNat hsame
    simp only [UInt16.toNat_toUInt8] at hbytes
    apply UInt16.toNat_inj.mp
    omega
  exact hlast (hequal ▸ hmem)

theorem nameOf_pad {member : ArMember} (hfits : member.Fits) :
    CommonArchive.nameOf (utf8Encode (pad member.name 16)) =
      member.name.map (·.toUInt8) := by
  rw [utf8Encode_pad hfits.ascii hfits.short]
  apply CommonArchive.nameOf_append
  · exact getLast?_map_ne hfits.ascii (by decide) hfits.blank
  · exact getLast?_map_ne hfits.ascii (by decide) hfits.slash

theorem toString_eq_digits (value : Nat) :
    (text (toString value)).map (·.toUInt8) =
      (Nat.toDigits 10 value).map CommonArchive.digitByte := by
  have hall : ∀ digit ∈ Nat.toDigits 10 value,
      (units digit).map (·.toUInt8) = [CommonArchive.digitByte digit] := by
    intro digit hdigit
    have hbyte := CommonArchive.toNat_digitByte
      (Nat.isDigit_of_mem_toDigits (by decide) (by decide) hdigit)
    have hsame : (UInt16.ofNat digit.toNat).toUInt8 =
        CommonArchive.digitByte digit := by
      apply UInt8.toNat_inj.mp
      rw [hbyte.2.2, UInt16.toNat_toUInt8]
      change digit.toNat % 65536 % 256 = digit.toNat
      omega
    rw [units, if_pos (by omega), List.map_singleton, hsame]
  rw [← PackageVersionOrder.digits, PackageVersionOrder.digits_eq_flatMap]
  generalize Nat.toDigits 10 value = digits at hall
  induction digits with
  | nil => rfl
  | cons digit rest ih =>
      rw [List.flatMap_cons, List.map_append, hall digit (by simp),
        ih fun other hother => hall other (by simp [hother])]
      rfl

theorem ascii_toString (value : Nat) :
    ∀ unit ∈ text (toString value), unit < 128 := by
  intro unit hunit
  have hdigit : PackageVersionOrder.isDigit unit = true :=
    PackageVersionOrder.isDigit_of_mem_digits hunit
  simp only [PackageVersionOrder.isDigit, Bool.and_eq_true,
    decide_eq_true_eq, UInt16.le_iff_toNat_le, UInt16.reduceToNat] at hdigit
  rw [UInt16.lt_iff_toNat_lt]
  change unit.toNat < 128
  omega

theorem length_toString {value : Nat} (hvalue : value < 10 ^ 10) :
    (text (toString value)).length ≤ 10 := by
  have hlength := congrArg List.length (toString_eq_digits value)
  rw [List.length_map, List.length_map] at hlength
  rw [hlength]
  exact (Nat.length_toDigits_le_iff (by decide) (by decide)).mpr hvalue

theorem numberOf_pad {value : Nat} (hvalue : value < 10 ^ 10) :
    CommonArchive.numberOf 10 (utf8Encode (pad (text (toString value)) 10)) =
      some value := by
  rw [utf8Encode_pad (ascii_toString value) (length_toString hvalue),
    toString_eq_digits]
  exact CommonArchive.numberOf_toDigits value _

/-! ## Members -/

/-- What a reader finds of a member. -/
def entryOf (member : ArMember) : CommonArchive.Member where
  name := member.name.map (·.toUInt8)
  date := 0
  owner := 0
  group := 0
  mode := 0x81A4
  content := member.bytes

theorem writeMember_append (member : ArMember) (rest : List UInt8) :
    writeMember member ++ rest =
      [utf8Encode (pad member.name 16), utf8Encode (pad (text "0") 12),
          utf8Encode (pad (text "0") 6), utf8Encode (pad (text "0") 6),
          utf8Encode (pad (text "100644") 8),
          utf8Encode (pad (text (toString member.bytes.length)) 10),
          CommonArchive.ending].flatten ++
        (member.bytes ++
          (CommonArchive.padding member.bytes.length ++ rest)) := by
  have hending : utf8Encode (text "`\n") = CommonArchive.ending := by
    decide
  have hnewline : utf8Encode (text "\n") = [CommonArchive.newline] := by
    decide
  have hpadding : (if member.bytes.length % 2 = 1
      then utf8Encode (text "\n") else []) =
        CommonArchive.padding member.bytes.length := by
    unfold CommonArchive.padding
    rcases Nat.mod_two_eq_zero_or_one member.bytes.length with
      heven | hodd
    · simp [heven]
    · simp [hodd, hnewline]
  simp only [writeMember, hpadding, hending, List.flatten_cons,
    List.flatten_nil, List.append_assoc, List.append_nil]

theorem readMember_writeMember {member : ArMember} (hfits : member.Fits)
    (rest : List UInt8) :
    CommonArchive.readMember (writeMember member ++ rest) =
      some (entryOf member, rest) := by
  have hname := length_utf8Encode_pad hfits.ascii hfits.short
  have hsize := length_utf8Encode_pad (ascii_toString member.bytes.length)
    (length_toString hfits.small)
  have hconstants : (utf8Encode (pad (text "0") 12)).length = 12 ∧
      (utf8Encode (pad (text "0") 6)).length = 6 ∧
      (utf8Encode (pad (text "100644") 8)).length = 8 ∧
      CommonArchive.ending.length = 2 := by decide
  have hdate : CommonArchive.numberOf 10
      (utf8Encode (pad (text "0") 12)) = some 0 := by decide
  have howner : CommonArchive.numberOf 10
      (utf8Encode (pad (text "0") 6)) = some 0 := by decide
  have hmode : CommonArchive.numberOf 8
      (utf8Encode (pad (text "100644") 8)) = some 0x81A4 := by decide
  rw [writeMember_append]
  apply @CommonArchive.readMember_append (entryOf member)
  · simp only [List.map_cons, List.map_nil, hname, hsize, hconstants]
    rfl
  · exact nameOf_pad hfits
  · exact hdate
  · exact howner
  · exact howner
  · exact hmode
  · exact numberOf_pad hfits.small

theorem ofRead_entryOf {member : ArMember} (hfits : member.Fits) :
    ArMember.ofRead (entryOf member) = member := by
  have hname : (member.name.map (·.toUInt8)).map (·.toUInt16) =
      member.name := by
    rw [List.map_map]
    nth_rewrite 2 [← List.map_id member.name]
    apply List.map_congr_left
    intro unit hunit
    have hsmall := hfits.ascii unit hunit
    rw [UInt16.lt_iff_toNat_lt] at hsmall
    change unit.toNat < 128 at hsmall
    apply UInt16.toNat_inj.mp
    simp only [Function.comp_apply, UInt8.toNat_toUInt16,
      UInt16.toNat_toUInt8, id_eq]
    omega
  rcases member with ⟨name, bytes⟩
  simp only [ArMember.ofRead, entryOf, hname]

/-- The members come back as they were, in their order. -/
theorem read_writeAr {members : List ArMember}
    (hfits : ∀ member ∈ members, member.Fits) :
    (CommonArchive.read (writeAr members)).map (List.map ArMember.ofRead) =
      some members := by
  have hmagic : utf8Encode (text "!<arch>\n") = CommonArchive.magic := by
    decide
  have hread := CommonArchive.read_flatMap fun member hmember rest =>
    readMember_writeMember (hfits member hmember) rest
  rw [writeAr, hmagic, hread, Option.map_some, List.map_map]
  congr 1
  nth_rewrite 2 [← List.map_id members]
  apply List.map_congr_left
  intro member hmember
  exact ofRead_entryOf (hfits member hmember)

/-- The outer archive keeps its members, and the inner one can be unpacked
in its order. -/
theorem archives_keep (paths : PosixPaths) {members : List ArMember}
    (hfits : ∀ member ∈ members, member.Fits) {build : LinuxBuild}
    {spec : InstallerSpec} {payload : Payload}
    (hdata : data build spec = .ok payload) :
    (CommonArchive.read (writeAr members)).map (List.map ArMember.ofRead) =
        some members ∧
      ListsDirectories (payload.map (·.1))
        (directoriesFor paths (payload.map (·.1))) := by
  constructor
  · exact read_writeAr hfits
  · exact listsDirectories paths (head?_of_data hdata)

/-! ### A library beside the application -/

def demoMembers : List ArMember :=
  [⟨text "debian-binary", utf8Encode (text "2.0\n")⟩,
    ⟨text "control.tar.gz", [0x1F, 0x8B, 8]⟩, ⟨text "data.tar.gz", [0x1F]⟩]

def demoSpec : InstallerSpec where
  productName := text "Demo"
  manufacturer := text "Acme"
  identifier := text "com.acme.demo"
  version := ⟨1, 0, 0, 0⟩
  mainBinaryName := text "demo"
  appDirectory := text "bundle"
  outputDirectory := text "dist"
  installMode := .perMachine
  installerHooks := none
  installerIcon := none
  licenseFile := none
  homepage := none
  extraFiles := [⟨text "/tmp/libdemo.so", text "/usr/lib/demo/lib/libdemo.so"⟩]
  installerLanguages := [text "English"]

def demoBuild : LinuxBuild where
  disk := fun source =>
    if source = text "/tmp/libdemo.so" then some ⟨[127, 69], 0x1A4⟩ else none
  appFiles := some [(text "demo", .file ⟨[127, 69], 0x1ED⟩)]
  listsFile := true
  icon := none
  unit := none
  policy := none
  createdMode := 0x1A4
  rpmbuild := fun _ _ => .error ⟨text "rpmbuild is not installed.", none⟩
  confined := by
    intro listed written hbuilt
    cases hbuilt

theorem fits_demoMembers : ∀ member ∈ demoMembers, member.Fits := by
  have hall : ∀ member ∈ demoMembers, member.name.length ≤ 16 ∧
      (∀ unit ∈ member.name, unit < 128) ∧
      member.name.getLast? ≠ some 32 ∧ member.name.getLast? ≠ some slash ∧
      member.bytes.length < 10 ^ 10 := by decide
  intro member hmember
  rcases hall member hmember with ⟨hshort, hascii, hblank, hslash, hsmall⟩
  exact ⟨hshort, hascii, hblank, hslash, hsmall⟩

theorem archives_keep_demo :
    ∃ payload, data demoBuild demoSpec = .ok payload ∧
      (CommonArchive.read (writeAr demoMembers)).map
          (List.map ArMember.ofRead) = some demoMembers ∧
      ListsDirectories (payload.map (·.1))
        (directoriesFor Posix.paths (payload.map (·.1))) := by
  cases hdata : data demoBuild demoSpec with
  | error failure =>
      have hsome : (data demoBuild demoSpec).toOption.isSome = true := by
        decide
      rw [hdata] at hsome
      cases hsome
  | ok payload =>
      exact ⟨payload, rfl,
        archives_keep Posix.paths fits_demoMembers hdata⟩

end DebBundler

end Dovetail.Bundler.Linux
