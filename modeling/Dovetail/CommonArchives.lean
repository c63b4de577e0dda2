import Mathlib.Data.List.DropRight
import Mathlib.Tactic

/-!
# Common archives

An archive of the common format is a magic with the members behind it.  A
member has a header whose fields are filled up with blanks, and is padded to
an even length; a slash may end its name.  Members that are written one after
the other are read in their order.
-/

namespace CommonArchive

abbrev Bytes := List UInt8

def blank : UInt8 := 32

def slash : UInt8 := 47

def newline : UInt8 := 10

def magic : Bytes := [33, 60, 97, 114, 99, 104, 62, 10]

structure Member where
  name : Bytes
  date : Nat
  owner : Nat
  group : Nat
  mode : Nat
  content : Bytes
  deriving DecidableEq

/-! ## Fields -/

def unpadded (field : Bytes) : Bytes :=
  field.rdropWhile fun byte => byte = blank

def nameOf (field : Bytes) : Bytes :=
  let name := unpadded field
  if name.getLast? = some slash then name.dropLast else name

def digit? (base : Nat) (byte : UInt8) : Option Nat :=
  if 48 ≤ byte.toNat ∧ byte.toNat < 48 + base then some (byte.toNat - 48)
  else none

def numberOf (base : Nat) (field : Bytes) : Option Nat :=
  let digits := unpadded field
  if digits = [] then none
  else digits.foldlM (fun value byte =>
    (digit? base byte).map (base * value + ·)) 0

/-- Fields of the given widths, and what is behind them. -/
def cut : List Nat → Bytes → Option (List Bytes × Bytes)
  | [], source => some ([], source)
  | width :: others, source =>
      if source.length < width then none
      else (cut others (source.drop width)).map fun (fields, rest) =>
        (source.take width :: fields, rest)

/-! ## Reading -/

def widths : List Nat := [16, 12, 6, 6, 8, 10, 2]

/-- What every header ends with. -/
def ending : Bytes := [96, 10]

def readPadding (length : Nat) (source : Bytes) : Option Bytes :=
  if length % 2 = 0 then some source
  else if source.head? = some newline then some source.tail
  else none

def readContent (length : Nat) (source : Bytes) : Option (Bytes × Bytes) :=
  if source.length < length then none
  else (readPadding length (source.drop length)).map fun rest =>
    (source.take length, rest)

def readMember (source : Bytes) : Option (Member × Bytes) :=
  match cut widths source with
  | some ([name, date, owner, group, mode, size, last], rest) => do
      let date ← numberOf 10 date
      let owner ← numberOf 10 owner
      let group ← numberOf 10 group
      let mode ← numberOf 8 mode
      let length ← numberOf 10 size
      let (content, rest) ← readContent length rest
      if last = ending then
        some (⟨nameOf name, date, owner, group, mode, content⟩, rest)
      else none
  | _ => none

/-- No member is empty, so that their number is at most the length. -/
def readMembers : Nat → Bytes → Option (List Member)
  | _, [] => some []
  | 0, _ :: _ => none
  | fuel + 1, byte :: source =>
      (readMember (byte :: source)).bind fun (member, rest) =>
        (readMembers fuel rest).map (member :: ·)

def read (source : Bytes) : Option (List Member) :=
  if magic <+: source then readMembers source.length (source.drop magic.length)
  else none

/-! ## Writing -/

def padding (length : Nat) : Bytes :=
  if length % 2 = 0 then [] else [newline]

theorem cut_append (fields : List Bytes) (rest : Bytes) :
    cut (fields.map List.length) (fields.flatten ++ rest) =
      some (fields, rest) := by
  induction fields with
  | nil => rfl
  | cons field others ih =>
      have hlong : ¬ (field ++ (others.flatten ++ rest)).length <
          field.length := by
        simp
      rw [List.map_cons, List.flatten_cons, List.append_assoc, cut,
        if_neg hlong, List.drop_left, List.take_left, ih]
      rfl

theorem readContent_append (content rest : Bytes) :
    readContent content.length
        (content ++ (padding content.length ++ rest)) =
      some (content, rest) := by
  have hlong : ¬ (content ++ (padding content.length ++ rest)).length <
      content.length := by
    simp
  have hpadding : readPadding content.length
      (padding content.length ++ rest) = some rest := by
    unfold readPadding padding
    split_ifs <;> simp_all
  rw [readContent, if_neg hlong, List.drop_left, List.take_left, hpadding]
  rfl

/-- A member is read when its fields are. -/
theorem readMember_append {member : Member}
    {name date owner group mode size : Bytes}
    (hwidths : [name, date, owner, group, mode, size, ending].map
      List.length = widths)
    (hname : nameOf name = member.name)
    (hdate : numberOf 10 date = some member.date)
    (howner : numberOf 10 owner = some member.owner)
    (hgroup : numberOf 10 group = some member.group)
    (hmode : numberOf 8 mode = some member.mode)
    (hsize : numberOf 10 size = some member.content.length) (rest : Bytes) :
    readMember ([name, date, owner, group, mode, size, ending].flatten ++
        (member.content ++ (padding member.content.length ++ rest))) =
      some (member, rest) := by
  have hcut := cut_append [name, date, owner, group, mode, size, ending]
    (member.content ++ (padding member.content.length ++ rest))
  rw [hwidths] at hcut
  rw [readMember, hcut]
  simp [hname, hdate, howner, hgroup, hmode, hsize, readContent_append]

section

variable {Item : Type} {items : List Item} {write : Item → Bytes}
  {member : Item → Member}
  (hread : ∀ item ∈ items, ∀ rest,
    readMember (write item ++ rest) = some (member item, rest))
include hread

theorem readMembers_flatMap {fuel : Nat} (hfuel : items.length ≤ fuel) :
    readMembers fuel (items.flatMap write) = some (items.map member) := by
  induction items generalizing fuel with
  | nil => cases fuel <;> rfl
  | cons item others ih =>
      have hitem := hread item (by simp) (others.flatMap write)
      have hothers : ∀ other ∈ others, ∀ rest,
          readMember (write other ++ rest) = some (member other, rest) :=
        fun other hother => hread other (by simp [hother])
      cases fuel with
      | zero => simp at hfuel
      | succ fuel =>
          rw [List.length_cons, Nat.add_le_add_iff_right] at hfuel
          rw [List.flatMap_cons]
          cases hsource : write item ++ others.flatMap write with
          | nil =>
              rw [hsource] at hitem
              cases hitem
          | cons byte source =>
              rw [readMembers, ← hsource, hitem, Option.bind_some]
              change (readMembers fuel (others.flatMap write)).map _ = _
              rw [ih hothers hfuel]
              rfl

theorem write_ne_nil {item : Item} (hitem : item ∈ items) :
    write item ≠ [] := by
  intro hnil
  have hone := hread item hitem []
  rw [hnil] at hone
  cases hone

theorem length_le_flatMap : items.length ≤ (items.flatMap write).length := by
  induction items with
  | nil => simp
  | cons item others ih =>
      have hfirst := List.length_pos_iff.mpr (write_ne_nil hread
        (List.mem_cons_self : item ∈ item :: others))
      have hrest := ih fun other hother => hread other (by simp [hother])
      rw [List.flatMap_cons, List.length_append, List.length_cons]
      omega

/-- The members are read as they were written, in their order. -/
theorem read_flatMap :
    read (magic ++ items.flatMap write) = some (items.map member) := by
  have hfuel : items.length ≤ (magic ++ items.flatMap write).length := by
    have hlength := length_le_flatMap hread
    rw [List.length_append]
    omega
  rw [read, if_pos (List.prefix_append magic _), List.drop_left]
  exact readMembers_flatMap hread hfuel

end

/-! ## Blanks -/

theorem unpadded_append {field : Bytes} (hfield : field.getLast? ≠ some blank)
    (count : Nat) :
    unpadded (field ++ List.replicate count blank) = field := by
  induction count with
  | zero =>
      rw [List.replicate_zero, List.append_nil, unpadded,
        List.rdropWhile_eq_self_iff]
      intro hne
      have hlast := List.getLast?_eq_some_getLast hne
      rw [hlast] at hfield
      simpa using hfield
  | succ count ih =>
      rw [List.replicate_succ', ← List.append_assoc, unpadded,
        List.rdropWhile_concat_pos _ _ _ (by simp)]
      exact ih

theorem nameOf_append {name : Bytes} (hblank : name.getLast? ≠ some blank)
    (hslash : name.getLast? ≠ some slash) (count : Nat) :
    nameOf (name ++ List.replicate count blank) = name := by
  simp only [nameOf, unpadded_append hblank, if_neg hslash]

/-! ## Numbers -/

def digitByte (digit : Char) : UInt8 := UInt8.ofNat digit.toNat

theorem toNat_digitByte {digit : Char} (hdigit : digit.isDigit = true) :
    48 ≤ digit.toNat ∧ digit.toNat < 58 ∧
      (digitByte digit).toNat = digit.toNat := by
  simp only [Char.isDigit, Bool.and_eq_true, decide_eq_true_eq,
    ge_iff_le, UInt32.le_iff_toNat_le] at hdigit
  change 48 ≤ digit.toNat ∧ digit.toNat ≤ 57 at hdigit
  refine ⟨hdigit.1, by omega, ?_⟩
  change digit.toNat % 256 = digit.toNat
  omega

theorem foldlM_digitByte {digits : List Char}
    (hdigits : ∀ digit ∈ digits, digit.isDigit = true) (value : Nat) :
    (digits.map digitByte).foldlM (fun value byte =>
        (digit? 10 byte).map (10 * value + ·)) value =
      some (Nat.ofDigitChars 10 digits value) := by
  induction digits generalizing value with
  | nil => rw [Nat.ofDigitChars_nil]; rfl
  | cons digit rest ih =>
      have hbyte := toNat_digitByte (hdigits digit (by simp))
      have hone : digit? 10 (digitByte digit) = some (digit.toNat - 48) := by
        rw [digit?, hbyte.2.2, if_pos ⟨hbyte.1, hbyte.2.1⟩]
      rw [List.map_cons, List.foldlM_cons, hone, Nat.ofDigitChars_cons]
      exact ih (fun other hother => hdigits other (by simp [hother])) _

/-- A number that is written in its digits, with blanks behind them. -/
theorem numberOf_toDigits (value count : Nat) :
    numberOf 10 ((Nat.toDigits 10 value).map digitByte ++
      List.replicate count blank) = some value := by
  have hdigits : ∀ digit ∈ Nat.toDigits 10 value, digit.isDigit = true :=
    fun digit hdigit =>
      Nat.isDigit_of_mem_toDigits (by decide) (by decide) hdigit
  have hlast : ((Nat.toDigits 10 value).map digitByte).getLast? ≠
      some blank := by
    rw [List.getLast?_map]
    intro hsome
    rcases Option.map_eq_some_iff.mp hsome with ⟨digit, hmem, hblank⟩
    have hbyte := toNat_digitByte (hdigits digit (List.mem_of_getLast? hmem))
    rw [hblank] at hbyte
    have hvalue : blank.toNat = 32 := rfl
    omega
  have hne : (Nat.toDigits 10 value).map digitByte ≠ [] := by
    simp [Nat.toDigits_ne_nil]
  simp only [numberOf, unpadded_append hlast, if_neg hne]
  rw [foldlM_digitByte hdigits, Nat.ofDigitChars_ten_toDigits]

end CommonArchive
