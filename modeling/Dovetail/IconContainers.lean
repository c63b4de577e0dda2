import Dovetail.BundleNames
import Dovetail.ByteWords
import Dovetail.FallibleSteps
import Mathlib.Data.List.AList

/-!
# Icon containers

`IcoWriter` and `IcnsWriter` put images behind the directory or the chunk
headers that a viewer finds them by.  A size or a type that the format cannot
tell is refused; a length or an offset is not checked, and from `2 ^ 32` on
four bytes do not hold it.
-/

namespace Dovetail.Bundler.Icon

open CodeUnits
open ByteWords
open FallibleSteps

abbrev Pngs (Key : Type) := AList fun _ : Key => Bytes

/-- A refusal, or text that `ascii.encode` does not take. -/
inductive IconError where
  | bundle (failure : BundleFailure)
  | argument (source : Text)
  deriving DecidableEq

def refused {α : Type} (message : Text) (remedy : Option Text) :
    Except IconError α :=
  .error (.bundle ⟨message, remedy⟩)

/-- The images of a map, each of them once under its key. -/
structure ReadsAs {Key : Type} [DecidableEq Key] (read : List (Key × Bytes))
    (pngs : Pngs Key) : Prop where
  once : (read.map Prod.fst).Nodup
  images : ∀ key png, (key, png) ∈ read ↔ pngs.lookup key = some png

/-! ## ICO files -/

namespace IcoWriter

def headerBytes : Nat := 6

def entryBytes : Nat := 16

def maxEdge : Int := 256

/-- The edge as one byte. -/
def edgeByte (edge : Int) : UInt8 :=
  UInt8.ofNat (if edge = maxEdge then 0 else edge.toNat)

def entry (edge : Int) (length payloadOffset : Nat) : Bytes :=
  [edgeByte edge, edgeByte edge, 0, 0] ++ littleEndian 2 1 ++
    littleEndian 2 32 ++ littleEndian 4 length ++
    littleEndian 4 payloadOffset

def entries : Nat → List (Int × Bytes) → Bytes
  | _, [] => []
  | payloadOffset, (edge, png) :: rest =>
      entry edge png.length payloadOffset ++
        entries (payloadOffset + png.length) rest

def header (count : Nat) : Bytes :=
  littleEndian 2 0 ++ littleEndian 2 1 ++ littleEndian 2 count

/-- The images by their edges. -/
def sorted (pngsByEdge : Pngs Int) : List (Int × Bytes) :=
  (pngsByEdge.keys.mergeSort (· ≤ ·)).map fun edge =>
    (edge, (pngsByEdge.lookup edge).getD [])

def directoryBytes (count : Nat) : Nat := headerBytes + entryBytes * count

def written (images : List (Int × Bytes)) : Bytes :=
  header images.length ++ entries (directoryBytes images.length) images ++
    images.flatMap Prod.snd

def encode (pngsByEdge : Pngs Int) : Except IconError Bytes :=
  if pngsByEdge.entries.isEmpty then
    refused (text "an ico with no image is a file Windows shows as blank.")
      none
  else
    match (pngsByEdge.keys.mergeSort (· ≤ ·)).find? fun edge =>
        edge < 1 || maxEdge < edge with
    | some edge =>
        refused
          (text ("the ico entry of " ++ toString edge ++
            "px is outside 1..256."))
          (some (text ("An ico directory stores each edge in one byte, " ++
            "where zero means 256. There is no way to write a larger one.")))
    | none => .ok (written (sorted pngsByEdge))

/-! ### Reading -/

structure DirectoryEntry where
  edge : Int
  length : Nat
  offset : Nat

/-- The entry that begins with these bytes. -/
def entryOf (bytes : Bytes) : DirectoryEntry where
  edge := if bytes.head? = some 0 then 256 else (bytes.headD 0).toNat
  length := fromLittleEndian ((bytes.drop 8).take 4)
  offset := fromLittleEndian ((bytes.drop 12).take 4)

def count (file : Bytes) : Nat := fromLittleEndian ((file.drop 4).take 2)

def directory (file : Bytes) : List DirectoryEntry :=
  (List.range (count file)).map fun index =>
    entryOf (file.drop (directoryBytes index))

def slice (file : Bytes) (entry : DirectoryEntry) : Bytes :=
  (file.drop entry.offset).take entry.length

def read (file : Bytes) : List (Int × Bytes) :=
  (directory file).map fun entry => (entry.edge, slice file entry)

/-- Each entry begins where the one before it ends. -/
def Tiles : Nat → List DirectoryEntry → Nat → Prop
  | start, [], stop => start = stop
  | start, entry :: rest, stop =>
      entry.offset = start ∧ Tiles (start + entry.length) rest stop

/-- A file is written, and its directory leads to the images and to nothing
else. -/
def Decodes (pngsByEdge : Pngs Int) : Prop :=
  ∃ file, encode pngsByEdge = .ok file ∧ ReadsAs (read file) pngsByEdge ∧
    Tiles (directoryBytes (count file)) (directory file) file.length

/-- Four bytes hold every length and every offset. -/
def FitsFrom : Nat → List (Int × Bytes) → Prop
  | _, [] => True
  | payloadOffset, (_, png) :: rest =>
      payloadOffset < 2 ^ 32 ∧ png.length < 2 ^ 32 ∧
        FitsFrom (payloadOffset + png.length) rest

/-- What an ICO file can hold. -/
structure Fits (pngsByEdge : Pngs Int) : Prop where
  filled : pngsByEdge.entries ≠ []
  edges : ∀ edge ∈ pngsByEdge, 1 ≤ edge ∧ edge ≤ maxEdge
  payload : FitsFrom (directoryBytes pngsByEdge.entries.length)
    (sorted pngsByEdge)

/-! ### What the directory tells -/

/-- What the entries of these images tell a reader. -/
def recorded : Nat → List (Int × Bytes) → List DirectoryEntry
  | _, [] => []
  | payloadOffset, (edge, png) :: rest =>
      ⟨edge, png.length % 2 ^ 32, payloadOffset % 2 ^ 32⟩ ::
        recorded (payloadOffset + png.length) rest

theorem edge_eq_of_edgeByte {edge : Int}
    (hedge : 1 ≤ edge ∧ edge ≤ maxEdge) :
    (if edgeByte edge = 0 then 256 else ((edgeByte edge).toNat : Int)) =
      edge := by
  rcases hedge with ⟨hlow, hhigh⟩
  unfold maxEdge at hhigh
  unfold edgeByte maxEdge
  by_cases hmax : edge = 256
  · simp [hmax]
  · have hbyte : (UInt8.ofNat edge.toNat).toNat = edge.toNat := by
      rw [UInt8.toNat_ofNat']
      omega
    have hzero : UInt8.ofNat edge.toNat ≠ 0 := by
      intro hnone
      rw [hnone] at hbyte
      change 0 = edge.toNat at hbyte
      omega
    rw [if_neg hmax, if_neg hzero, hbyte]
    omega

theorem length_entry (edge : Int) (length payloadOffset : Nat) :
    (entry edge length payloadOffset).length = entryBytes := by
  simp [entry, entryBytes]

theorem entryOf_entry {edge : Int} (hedge : 1 ≤ edge ∧ edge ≤ maxEdge)
    (length payloadOffset : Nat) (rest : Bytes) :
    entryOf (entry edge length payloadOffset ++ rest) =
      ⟨edge, length % 2 ^ 32, payloadOffset % 2 ^ 32⟩ := by
  have hlength : ((entry edge length payloadOffset ++ rest).drop 8).take 4 =
      littleEndian 4 length := by
    simp [entry, littleEndian]
  have hoffset : ((entry edge length payloadOffset ++ rest).drop 12).take 4 =
      littleEndian 4 payloadOffset := by
    simp [entry, littleEndian]
  have hfirst : (entry edge length payloadOffset ++ rest).head? =
      some (edgeByte edge) := rfl
  have hedge' := edge_eq_of_edgeByte hedge
  unfold entryOf
  rw [hlength, hoffset, hfirst, fromLittleEndian_littleEndian,
    fromLittleEndian_littleEndian, List.headD_eq_head?_getD, hfirst]
  simpa using hedge'

theorem length_entries (payloadOffset : Nat) (images : List (Int × Bytes)) :
    (entries payloadOffset images).length = entryBytes * images.length := by
  induction images generalizing payloadOffset with
  | nil => rfl
  | cons image rest ih =>
      rw [entries, List.length_append, length_entry, ih, List.length_cons]
      ring

/-- Every entry is read as it was written. -/
theorem map_entryOf_entries {images : List (Int × Bytes)}
    (hedges : ∀ image ∈ images, 1 ≤ image.1 ∧ image.1 ≤ maxEdge)
    (payloadOffset : Nat) (rest : Bytes) :
    (List.range images.length).map (fun index =>
        entryOf ((entries payloadOffset images ++ rest).drop
          (entryBytes * index))) =
      recorded payloadOffset images := by
  induction images generalizing payloadOffset with
  | nil => rfl
  | cons image others ih =>
      rw [List.forall_mem_cons] at hedges
      rw [List.length_cons, List.range_succ_eq_map, List.map_cons,
        List.map_map, recorded, ← ih hedges.2]
      apply congrArg₂ List.cons
      · rw [entries, List.append_assoc]
        exact entryOf_entry hedges.1 _ _ _
      · apply List.map_congr_left
        intro index _
        have hdrop : entryBytes * (index + 1) =
            (entry image.1 image.2.length payloadOffset).length +
              entryBytes * index := by
          rw [length_entry]
          ring
        simp only [Function.comp_apply, entries]
        rw [List.append_assoc, hdrop, List.drop_length_add_append]

theorem length_header (count : Nat) : (header count).length = headerBytes := by
  simp [header, headerBytes]

theorem length_recorded (payloadOffset : Nat) (images : List (Int × Bytes)) :
    (recorded payloadOffset images).length = images.length := by
  induction images generalizing payloadOffset with
  | nil => rfl
  | cons image rest ih => rw [recorded, List.length_cons, ih, List.length_cons]

theorem count_written {images : List (Int × Bytes)}
    (himages : images.length < 256 ^ 2) :
    count (written images) = images.length := by
  have hfield : ((written images).drop 4).take 2 =
      littleEndian 2 images.length := by
    simp [written, header, littleEndian]
  rw [count, hfield, fromLittleEndian_littleEndian,
    Nat.mod_eq_of_lt himages]

theorem directory_written {images : List (Int × Bytes)}
    (himages : images.length < 256 ^ 2)
    (hedges : ∀ image ∈ images, 1 ≤ image.1 ∧ image.1 ≤ maxEdge) :
    directory (written images) =
      recorded (directoryBytes images.length) images := by
  rw [directory, count_written himages, ← map_entryOf_entries hedges
    (directoryBytes images.length) (images.flatMap Prod.snd)]
  apply List.map_congr_left
  intro index _
  have hdrop : directoryBytes index =
      (header images.length).length + entryBytes * index := by
    rw [length_header, directoryBytes]
  rw [written, List.append_assoc, hdrop, List.drop_length_add_append]

/-! ### Slices -/

theorem tiles_recorded {images : List (Int × Bytes)} {payloadOffset : Nat}
    (hfits : FitsFrom payloadOffset images) :
    Tiles payloadOffset (recorded payloadOffset images)
      (payloadOffset + (images.flatMap Prod.snd).length) := by
  induction images generalizing payloadOffset with
  | nil => rfl
  | cons image rest ih =>
      rcases hfits with ⟨hoffset, hlength, hrest⟩
      have htiles := ih hrest
      rw [recorded]
      constructor
      · exact Nat.mod_eq_of_lt hoffset
      · rw [List.flatMap_cons, List.length_append, ← Nat.add_assoc]
        simpa only [Nat.mod_eq_of_lt hlength] using htiles

/-- Where the lengths and the offsets fit, the slices are the images. -/
theorem map_slice_recorded {images : List (Int × Bytes)} {before : Bytes}
    (hfits : FitsFrom before.length images) :
    (recorded before.length images).map (fun entry =>
        (entry.edge, slice (before ++ images.flatMap Prod.snd) entry)) =
      images := by
  induction images generalizing before with
  | nil => rfl
  | cons image rest ih =>
      rcases hfits with ⟨hoffset, hlength, hrest⟩
      have hslices := @ih (before ++ image.2) (by simpa using hrest)
      rw [List.length_append, List.append_assoc] at hslices
      rw [recorded, List.map_cons, List.flatMap_cons]
      apply congrArg₂ List.cons
      · simp only [slice]
        rw [Nat.mod_eq_of_lt hoffset, Nat.mod_eq_of_lt hlength,
          List.drop_left, List.take_left]
      · exact hslices

/-- Offsets that follow each other and slices that are the images leave
nothing cut off. -/
theorem fitsFrom_of_slices {images : List (Int × Bytes)} {file : Bytes}
    {payloadOffset stop : Nat}
    (htiles : Tiles payloadOffset (recorded payloadOffset images) stop)
    (hslices : (recorded payloadOffset images).map (slice file) =
      images.map Prod.snd) :
    FitsFrom payloadOffset images := by
  induction images generalizing payloadOffset with
  | nil => trivial
  | cons image rest ih =>
      rw [recorded] at htiles
      rw [recorded, List.map_cons, List.map_cons, List.cons.injEq] at hslices
      rcases htiles with ⟨hoffset, htiles⟩
      rcases hslices with ⟨hslice, hslices⟩
      have hoffset' : payloadOffset < 2 ^ 32 :=
        (Nat.mod_eq_iff_lt (by decide)).mp hoffset
      have hlength : image.2.length < 2 ^ 32 := by
        have htaken := congrArg List.length hslice
        simp only [slice, List.length_take] at htaken
        have hmod : image.2.length % 2 ^ 32 < 2 ^ 32 :=
          Nat.mod_lt _ (by decide)
        omega
      have hmod := Nat.mod_eq_of_lt hlength
      simp only [hmod] at htiles
      exact ⟨hoffset', hlength, ih htiles hslices⟩

/-! ### Round trip -/

theorem mem_sorted {pngsByEdge : Pngs Int} {edge : Int} {png : Bytes} :
    (edge, png) ∈ sorted pngsByEdge ↔
      pngsByEdge.lookup edge = some png := by
  constructor
  · intro hmem
    rcases List.mem_map.mp hmem with ⟨other, hother, himage⟩
    cases himage
    rw [List.mem_mergeSort, ← AList.mem_keys, ← AList.lookup_isSome,
      Option.isSome_iff_exists] at hother
    rcases hother with ⟨png, hpng⟩
    rw [hpng, Option.getD_some]
  · intro hlookup
    apply List.mem_map.mpr
    refine ⟨edge, ?_, by rw [hlookup, Option.getD_some]⟩
    rw [List.mem_mergeSort, ← AList.mem_keys, ← AList.lookup_isSome, hlookup]
    rfl

theorem map_fst_sorted (pngsByEdge : Pngs Int) :
    (sorted pngsByEdge).map Prod.fst =
      pngsByEdge.keys.mergeSort (· ≤ ·) := by
  rw [sorted, List.map_map]
  exact List.map_id _

theorem readsAs_sorted (pngsByEdge : Pngs Int) :
    ReadsAs (sorted pngsByEdge) pngsByEdge := by
  constructor
  · rw [map_fst_sorted]
    exact (List.mergeSort_perm _ _).nodup_iff.mpr pngsByEdge.keys_nodup
  · intro edge png
    exact mem_sorted

theorem length_sorted (pngsByEdge : Pngs Int) :
    (sorted pngsByEdge).length = pngsByEdge.entries.length := by
  rw [sorted, List.length_map, List.length_mergeSort]
  exact List.length_map _

theorem edges_sorted {pngsByEdge : Pngs Int}
    (hedges : ∀ edge ∈ pngsByEdge, 1 ≤ edge ∧ edge ≤ maxEdge) :
    ∀ image ∈ sorted pngsByEdge, 1 ≤ image.1 ∧ image.1 ≤ maxEdge := by
  intro image himage
  apply hedges
  rw [← AList.lookup_isSome, mem_sorted.mp himage]
  rfl

/-- There are no more images than edges. -/
theorem length_sorted_lt {pngsByEdge : Pngs Int}
    (hedges : ∀ edge ∈ pngsByEdge, 1 ≤ edge ∧ edge ≤ maxEdge) :
    (sorted pngsByEdge).length < 256 ^ 2 := by
  have hsubset : pngsByEdge.keys.toFinset ⊆ Finset.Icc 1 maxEdge := by
    intro edge hedge
    rw [List.mem_toFinset, ← AList.mem_keys] at hedge
    exact Finset.mem_Icc.mpr (hedges edge hedge)
  have hcard := Finset.card_le_card hsubset
  rw [List.toFinset_card_of_nodup pngsByEdge.keys_nodup, Int.card_Icc] at hcard
  have hkeys : pngsByEdge.keys.length = (sorted pngsByEdge).length := by
    rw [length_sorted]
    exact List.length_map _
  unfold maxEdge at hcard
  omega

theorem encode_eq_ok_iff {pngsByEdge : Pngs Int} {file : Bytes} :
    encode pngsByEdge = .ok file ↔
      pngsByEdge.entries ≠ [] ∧
        (∀ edge ∈ pngsByEdge, 1 ≤ edge ∧ edge ≤ maxEdge) ∧
        file = written (sorted pngsByEdge) := by
  have hedges : ((pngsByEdge.keys.mergeSort (· ≤ ·)).find? fun edge =>
      edge < 1 || maxEdge < edge) = none ↔
        ∀ edge ∈ pngsByEdge, 1 ≤ edge ∧ edge ≤ maxEdge := by
    simp [AList.mem_keys, List.mem_mergeSort]
  unfold encode
  by_cases hfilled : pngsByEdge.entries = []
  · simp [hfilled, refused]
  · rw [if_neg (by simpa using hfilled)]
    split
    · rename_i edge hfound
      constructor
      · intro hfile
        cases hfile
      · rintro ⟨-, hall, -⟩
        rw [hedges.mpr hall] at hfound
        cases hfound
    · rename_i hnone
      rw [Except.ok.injEq, eq_comm]
      constructor
      · intro hfile
        exact ⟨hfilled, hedges.mp hnone, hfile⟩
      · intro hfile
        exact hfile.2.2

/-- Slices that are read as the images under their edges are the images. -/
theorem map_slice_of_lookup {pngsByEdge : Pngs Int} {file : Bytes}
    {images : List (Int × Bytes)} {payloadOffset : Nat}
    (hread : ∀ entry ∈ recorded payloadOffset images,
      pngsByEdge.lookup entry.edge = some (slice file entry))
    (himages : ∀ image ∈ images,
      pngsByEdge.lookup image.1 = some image.2) :
    (recorded payloadOffset images).map (slice file) =
      images.map Prod.snd := by
  induction images generalizing payloadOffset with
  | nil => rfl
  | cons image rest ih =>
      rw [recorded, List.forall_mem_cons] at hread
      rw [List.forall_mem_cons] at himages
      have hfirst := hread.1.symm.trans himages.1
      rw [recorded, List.map_cons, List.map_cons, Option.some.inj hfirst,
        ih hread.2 himages.2]

/-- An ICO file leads to its images exactly where its edges, its lengths and
its offsets fit. -/
theorem decodes_iff (pngsByEdge : Pngs Int) :
    Decodes pngsByEdge ↔ Fits pngsByEdge := by
  constructor
  · rintro ⟨file, hfile, hread, htiles⟩
    rcases encode_eq_ok_iff.mp hfile with ⟨hfilled, hedges, rfl⟩
    have hlength := length_sorted_lt hedges
    have hdirectory := directory_written hlength (edges_sorted hedges)
    rw [hdirectory, count_written hlength] at htiles
    rw [read, hdirectory] at hread
    have hslices : (recorded (directoryBytes (sorted pngsByEdge).length)
        (sorted pngsByEdge)).map (slice (written (sorted pngsByEdge))) =
          (sorted pngsByEdge).map Prod.snd := by
      apply map_slice_of_lookup
      · intro entry hentry
        exact (hread.images _ _).mp (List.mem_map_of_mem hentry)
      · intro image himage
        exact mem_sorted.mp himage
    constructor
    · exact hfilled
    · exact hedges
    · rw [← length_sorted]
      exact fitsFrom_of_slices htiles hslices
  · intro hfits
    have hlength := length_sorted_lt hfits.edges
    have hdirectory := directory_written hlength (edges_sorted hfits.edges)
    have hpayload := hfits.payload
    rw [← length_sorted] at hpayload
    have hbefore : (header (sorted pngsByEdge).length ++
        entries (directoryBytes (sorted pngsByEdge).length)
          (sorted pngsByEdge)).length =
            directoryBytes (sorted pngsByEdge).length := by
      rw [List.length_append, length_header, length_entries, directoryBytes]
    refine ⟨written (sorted pngsByEdge),
      encode_eq_ok_iff.mpr ⟨hfits.filled, hfits.edges, rfl⟩, ?_, ?_⟩
    · rw [← hbefore] at hpayload
      have hslices := map_slice_recorded hpayload
      rw [hbefore] at hslices
      rw [read, hdirectory]
      change ReadsAs ((recorded _ _).map fun entry => (entry.edge,
        slice (_ ++ (sorted pngsByEdge).flatMap Prod.snd) entry)) _
      rw [hslices]
      exact readsAs_sorted pngsByEdge
    · have htiles := tiles_recorded hpayload
      rw [hdirectory, count_written hlength, written, List.length_append,
        hbefore]
      exact htiles

end IcoWriter

/-! ## ICNS files -/

namespace IcnsWriter

def magic : Text := text "icns"

def chunkHeaderBytes : Nat := 8

def asciiEncode (source : Text) : Except IconError Bytes :=
  if ∀ unit ∈ source, unit < 128 then .ok (source.map UInt16.toUInt8)
  else .error (.argument source)

def asciiDecode (bytes : Bytes) : Text := bytes.map UInt8.toUInt16

/-- A name, the length of what follows it with the header itself, and that. -/
def block (name : Text) (content : Bytes) : Except IconError Bytes := do
  let bytes ← asciiEncode name
  return bytes ++ bigEndian 4 (chunkHeaderBytes + content.length) ++ content

def encode (pngsByType : Pngs Text) : Except IconError Bytes :=
  if pngsByType.entries.isEmpty then
    refused
      (text "an icns with no entry is a bundle macOS shows with a blank icon.")
      none
  else
    match pngsByType.keys.find? fun type => type.length != 4 with
    | some type =>
        refused
          (text "the icns type \"" ++ type ++
            text "\" is not four characters.")
          (some (text ("Every chunk in an icns is keyed by a " ++
            "four-character type. A shorter or longer one shifts every " ++
            "chunk after it.")))
    | none => do
        let chunks ← pngsByType.entries.mapM fun chunk =>
          block chunk.1 chunk.2
        block magic chunks.flatten

/-! ### Reading -/

/-- The length a header tells. -/
def blockLength (source : Bytes) : Nat :=
  fromBigEndian ((source.drop 4).take 4)

def chunks (source : Bytes) : Option (List (Text × Bytes)) :=
  if source = [] then some []
  else if blockLength source < chunkHeaderBytes ∨
      source.length < blockLength source then none
  else
    (chunks (source.drop (blockLength source))).map
      ((asciiDecode (source.take 4),
        (source.take (blockLength source)).drop chunkHeaderBytes) :: ·)
termination_by source.length
decreasing_by
  rename_i _ hlength
  rw [chunkHeaderBytes, not_or] at hlength
  rw [List.length_drop]
  omega

def read (file : Bytes) : Option (List (Text × Bytes)) :=
  if asciiDecode (file.take 4) = magic ∧ blockLength file = file.length then
    chunks (file.drop chunkHeaderBytes)
  else none

/-- A file is written, and its chunks are the images under their types. -/
def Decodes (pngsByType : Pngs Text) : Prop :=
  ∃ file images, encode pngsByType = .ok file ∧ read file = some images ∧
    ReadsAs images pngsByType

def IsType (type : Text) : Prop :=
  type.length = 4 ∧ ∀ unit ∈ type, unit < 128

/-- What an ICNS file can hold. -/
structure Fits (pngsByType : Pngs Text) : Prop where
  filled : pngsByType.entries ≠ []
  types : ∀ type ∈ pngsByType, IsType type
  total : chunkHeaderBytes + (pngsByType.entries.map fun chunk =>
    chunkHeaderBytes + chunk.2.length).sum < 2 ^ 32

/-! ### Blocks -/

/-- The bytes of a block. -/
def blockBytes (name : Text) (content : Bytes) : Bytes :=
  name.map UInt16.toUInt8 ++
    (bigEndian 4 (chunkHeaderBytes + content.length) ++ content)

theorem asciiDecode_map_toUInt8 {name : Text}
    (hascii : ∀ unit ∈ name, unit < 128) :
    asciiDecode (name.map UInt16.toUInt8) = name := by
  have hsame : ∀ unit ∈ name, unit.toUInt8.toUInt16 = unit := by
    intro unit hunit
    have hsmall := UInt16.lt_iff_toNat_lt.mp (hascii unit hunit)
    change unit.toNat < 128 at hsmall
    apply UInt16.toNat_inj.mp
    rw [UInt8.toNat_toUInt16, UInt16.toNat_toUInt8]
    omega
  rw [asciiDecode, List.map_map]
  exact (List.map_congr_left hsame).trans (List.map_id name)

theorem block_eq_ok_iff {name : Text} {content bytes : Bytes} :
    block name content = .ok bytes ↔
      (∀ unit ∈ name, unit < 128) ∧ bytes = blockBytes name content := by
  unfold block asciiEncode
  split
  · rename_i hascii
    rw [and_iff_right hascii]
    simp [blockBytes, bind, Except.bind, pure, Except.pure, eq_comm]
  · rename_i hascii
    simp [hascii, bind, Except.bind]

section

variable {name : Text} (hname : name.length = 4) (content rest : Bytes)
include hname

theorem length_blockBytes :
    (blockBytes name content).length =
      chunkHeaderBytes + content.length := by
  rw [blockBytes, List.length_append, List.length_append, List.length_map,
    length_bigEndian, hname, chunkHeaderBytes]
  omega

theorem take_blockBytes :
    (blockBytes name content ++ rest).take 4 = name.map UInt16.toUInt8 := by
  rw [blockBytes, List.append_assoc]
  exact List.take_left' (by rw [List.length_map, hname])

theorem drop_blockBytes :
    (blockBytes name content).drop chunkHeaderBytes = content := by
  have hlength : (name.map UInt16.toUInt8 ++
      bigEndian 4 (chunkHeaderBytes + content.length)).length =
        chunkHeaderBytes := by
    rw [List.length_append, List.length_map, length_bigEndian, hname]
    rfl
  rw [blockBytes, ← List.append_assoc]
  exact List.drop_left' hlength

theorem blockLength_blockBytes :
    blockLength (blockBytes name content ++ rest) =
      (chunkHeaderBytes + content.length) % 2 ^ 32 := by
  have hfield : ((blockBytes name content ++ rest).drop 4).take 4 =
      bigEndian 4 (chunkHeaderBytes + content.length) := by
    rw [blockBytes, List.append_assoc,
      List.drop_left' (by rw [List.length_map, hname]), List.append_assoc]
    exact List.take_left' (length_bigEndian _ _)
  rw [blockLength, hfield, fromBigEndian_bigEndian]
  rfl

end

/-- One chunk is read, and then those behind it. -/
theorem chunks_blockBytes {name : Text} (htype : IsType name)
    {content : Bytes} (hlength : chunkHeaderBytes + content.length < 2 ^ 32)
    (rest : Bytes) :
    chunks (blockBytes name content ++ rest) =
      (chunks rest).map ((name, content) :: ·) := by
  have htold : blockLength (blockBytes name content ++ rest) =
      (blockBytes name content).length := by
    rw [blockLength_blockBytes htype.1, Nat.mod_eq_of_lt hlength,
      length_blockBytes htype.1]
  have hblock := length_blockBytes htype.1 content
  have hfilled : blockBytes name content ++ rest ≠ [] := by
    intro hnone
    rw [(List.append_eq_nil_iff.mp hnone).1, chunkHeaderBytes,
      List.length_nil] at hblock
    omega
  have hfits : ¬ ((blockBytes name content).length < chunkHeaderBytes ∨
      (blockBytes name content ++ rest).length <
        (blockBytes name content).length) := by
    rw [List.length_append, hblock]
    omega
  rw [chunks, if_neg hfilled, htold, if_neg hfits, List.drop_left,
    List.take_left, take_blockBytes htype.1, drop_blockBytes htype.1,
    asciiDecode_map_toUInt8 htype.2]

/-! ### Round trip -/

/-- The chunks of a map in its order. -/
def imagesOf (pngsByType : Pngs Text) : List (Text × Bytes) :=
  pngsByType.entries.map fun chunk => (chunk.1, chunk.2)

def chunkBytes (images : List (Text × Bytes)) : Bytes :=
  images.flatMap fun image => blockBytes image.1 image.2

theorem chunks_chunkBytes {images : List (Text × Bytes)}
    (htypes : ∀ image ∈ images, IsType image.1)
    (hlengths : ∀ image ∈ images,
      chunkHeaderBytes + image.2.length < 2 ^ 32) :
    chunks (chunkBytes images) = some images := by
  induction images with
  | nil => rw [chunkBytes, List.flatMap_nil, chunks, if_pos rfl]
  | cons image rest ih =>
      rw [List.forall_mem_cons] at htypes hlengths
      have hrest := ih htypes.2 hlengths.2
      rw [chunkBytes] at hrest
      rw [chunkBytes, List.flatMap_cons,
        chunks_blockBytes htypes.1 hlengths.1, hrest]
      rfl

theorem length_chunkBytes {images : List (Text × Bytes)}
    (htypes : ∀ image ∈ images, IsType image.1) :
    (chunkBytes images).length =
      (images.map fun image => chunkHeaderBytes + image.2.length).sum := by
  induction images with
  | nil => rfl
  | cons image rest ih =>
      rw [List.forall_mem_cons] at htypes
      have hrest := ih htypes.2
      rw [chunkBytes] at hrest
      rw [chunkBytes, List.flatMap_cons, List.length_append, hrest,
        length_blockBytes htypes.1.1, List.map_cons, List.sum_cons]

theorem forall_type {pngsByType : Pngs Text} {holds : Text → Prop} :
    (∀ type ∈ pngsByType, holds type) ↔
      ∀ chunk ∈ pngsByType.entries, holds chunk.1 := by
  constructor
  · intro hall chunk hchunk
    exact hall chunk.1 (List.mem_map_of_mem hchunk)
  · intro hall type htype
    rcases List.mem_map.mp htype with ⟨chunk, hchunk, rfl⟩
    exact hall chunk hchunk

theorem encode_eq_ok_iff {pngsByType : Pngs Text} {file : Bytes} :
    encode pngsByType = .ok file ↔
      pngsByType.entries ≠ [] ∧ (∀ type ∈ pngsByType, IsType type) ∧
        file = blockBytes magic (chunkBytes (imagesOf pngsByType)) := by
  have hmagic : ∀ unit ∈ magic, unit < 128 := by decide
  have hchunks : (pngsByType.entries.map fun chunk =>
      blockBytes chunk.1 chunk.2).flatten =
        chunkBytes (imagesOf pngsByType) := by
    rw [chunkBytes, imagesOf, List.flatMap_map]
    rfl
  have hwritten (written : List Bytes) :
      (pngsByType.entries.mapM fun chunk => block chunk.1 chunk.2) =
          .ok written ↔
        (∀ chunk ∈ pngsByType.entries, ∀ unit ∈ chunk.1, unit < 128) ∧
          written = pngsByType.entries.map fun chunk =>
            blockBytes chunk.1 chunk.2 := by
    rw [mapM_eq_ok_map_iff fun chunk bytes hbytes =>
      (block_eq_ok_iff.mp hbytes).2]
    simp only [block_eq_ok_iff, and_true]
  have hlengths : (pngsByType.keys.find? fun type => type.length != 4) =
      none ↔ ∀ type ∈ pngsByType, type.length = 4 := by
    simp [AList.mem_keys]
  unfold encode
  by_cases hfilled : pngsByType.entries = []
  · simp [hfilled, refused]
  · rw [if_neg (by simpa using hfilled)]
    split
    · rename_i type hfound
      constructor
      · intro hfile
        cases hfile
      · rintro ⟨-, hall, -⟩
        rw [hlengths.mpr fun type htype => (hall type htype).1] at hfound
        cases hfound
    · rename_i hnone
      rw [bind_eq_ok_iff]
      constructor
      · rintro ⟨written, hsteps, hfile⟩
        rcases (hwritten written).mp hsteps with ⟨hascii, rfl⟩
        have hunits : ∀ type ∈ pngsByType, ∀ unit ∈ type, unit < 128 :=
          forall_type.mpr hascii
        refine ⟨hfilled, ?_, ?_⟩
        · intro type htype
          exact ⟨hlengths.mp hnone type htype, hunits type htype⟩
        · rw [← hchunks]
          exact (block_eq_ok_iff.mp hfile).2
      · rintro ⟨-, htypes, rfl⟩
        refine ⟨_, (hwritten _).mpr ⟨?_, rfl⟩, ?_⟩
        · exact forall_type.mp fun type htype => (htypes type htype).2
        · rw [hchunks]
          exact block_eq_ok_iff.mpr ⟨hmagic, rfl⟩

theorem readsAs_imagesOf (pngsByType : Pngs Text) :
    ReadsAs (imagesOf pngsByType) pngsByType := by
  constructor
  · rw [imagesOf, List.map_map]
    exact pngsByType.nodupKeys
  · intro type png
    have hmem : pngsByType.lookup type = some png ↔
        ⟨type, png⟩ ∈ pngsByType.entries := AList.mem_lookup_iff
    rw [hmem, imagesOf, List.mem_map]
    constructor
    · rintro ⟨chunk, hchunk, himage⟩
      cases himage
      exact hchunk
    · intro hchunk
      exact ⟨_, hchunk, rfl⟩

/-- An ICNS file is read as its images exactly where its types and its total
length fit. -/
theorem decodes_iff (pngsByType : Pngs Text) :
    Decodes pngsByType ↔ Fits pngsByType := by
  have hmagic : magic.length = 4 := rfl
  have himages (htypes : ∀ type ∈ pngsByType, IsType type) :
      ∀ image ∈ imagesOf pngsByType, IsType image.1 := by
    intro image himage
    rcases List.mem_map.mp himage with ⟨chunk, hchunk, rfl⟩
    exact forall_type.mp htypes chunk hchunk
  have htotal (htypes : ∀ type ∈ pngsByType, IsType type) :
      (chunkBytes (imagesOf pngsByType)).length =
        (pngsByType.entries.map fun chunk =>
          chunkHeaderBytes + chunk.2.length).sum := by
    rw [length_chunkBytes (himages htypes), imagesOf, List.map_map]
    rfl
  have hlength := @blockLength_blockBytes magic hmagic
    (chunkBytes (imagesOf pngsByType)) []
  rw [List.append_nil] at hlength
  constructor
  · rintro ⟨file, images, hfile, hread, -⟩
    rcases encode_eq_ok_iff.mp hfile with ⟨hfilled, htypes, rfl⟩
    unfold read at hread
    split at hread
    · rename_i hheader
      constructor
      · exact hfilled
      · exact htypes
      · rw [← htotal htypes]
        rw [hlength, length_blockBytes hmagic] at hheader
        exact (Nat.mod_eq_iff_lt (by decide)).mp hheader.2
    · cases hread
  · intro hfits
    have hfit := hfits.total
    rw [← htotal hfits.types] at hfit
    have hlengths : ∀ image ∈ imagesOf pngsByType,
        chunkHeaderBytes + image.2.length < 2 ^ 32 := by
      intro image himage
      have hpart : (blockBytes image.1 image.2).length ≤
          (chunkBytes (imagesOf pngsByType)).length := by
        rw [chunkBytes, List.flatMap_def]
        exact (List.sublist_flatten_of_mem (List.mem_map_of_mem
          (f := fun other => blockBytes other.1 other.2) himage)).length_le
      rw [length_blockBytes (himages hfits.types image himage).1] at hpart
      omega
    refine ⟨_, imagesOf pngsByType,
      encode_eq_ok_iff.mpr ⟨hfits.filled, hfits.types, rfl⟩, ?_,
      readsAs_imagesOf pngsByType⟩
    have hname := @take_blockBytes magic hmagic
      (chunkBytes (imagesOf pngsByType)) []
    rw [List.append_nil] at hname
    have hheader : asciiDecode ((blockBytes magic
        (chunkBytes (imagesOf pngsByType))).take 4) = magic ∧
        blockLength (blockBytes magic (chunkBytes (imagesOf pngsByType))) =
          (blockBytes magic (chunkBytes (imagesOf pngsByType))).length := by
      rw [hname, hlength, length_blockBytes hmagic, Nat.mod_eq_of_lt hfit]
      exact ⟨rfl, rfl⟩
    rw [read, if_pos hheader, drop_blockBytes hmagic]
    exact chunks_chunkBytes (himages hfits.types) hlengths

end IcnsWriter

/-! ## Both containers -/

/-- Icon containers give their images back exactly where four bytes hold
their lengths and offsets, and an edge or a type is one of the format. -/
theorem containers_decode_iff (pngsByEdge : Pngs Int)
    (pngsByType : Pngs Text) :
    (IcoWriter.Decodes pngsByEdge ↔ IcoWriter.Fits pngsByEdge) ∧
      (IcnsWriter.Decodes pngsByType ↔ IcnsWriter.Fits pngsByType) := by
  constructor
  · exact IcoWriter.decodes_iff pngsByEdge
  · exact IcnsWriter.decodes_iff pngsByType

section

variable (png : Bytes)

def smallIcon : Pngs Int := AList.singleton 16 png

theorem sorted_smallIcon : IcoWriter.sorted (smallIcon png) = [(16, png)] := by
  have hlookup : (smallIcon png).lookup 16 = some png :=
    List.dlookup_cons_eq _ _ _
  have hkeys : (smallIcon png).keys = [16] := rfl
  rw [IcoWriter.sorted, hkeys, List.mergeSort_singleton, List.map_singleton,
    hlookup, Option.getD_some]

theorem encode_smallIcon :
    IcoWriter.encode (smallIcon png) =
      .ok (IcoWriter.written [(16, png)]) := by
  apply IcoWriter.encode_eq_ok_iff.mpr
  rw [sorted_smallIcon]
  refine ⟨List.cons_ne_nil _ _, ?_, rfl⟩
  intro edge hedge
  have hsame : edge = 16 := List.mem_singleton.mp (AList.mem_keys.mp hedge)
  rw [hsame]
  decide

theorem not_decodes_of_long (hlong : 2 ^ 32 ≤ png.length) :
    ¬ IcoWriter.Decodes (smallIcon png) := by
  intro hdecodes
  have hpayload := ((IcoWriter.decodes_iff _).mp hdecodes).payload
  rw [sorted_smallIcon] at hpayload
  exact absurd hpayload.2.1 (Nat.not_lt.mpr hlong)

end

/-- An image of 4 GiB is written without an error and not read back. -/
theorem not_decodes_oversized :
    IcoWriter.encode (smallIcon (List.replicate (2 ^ 32) 0)) =
        .ok (IcoWriter.written [(16, List.replicate (2 ^ 32) 0)]) ∧
      ¬ IcoWriter.Decodes
        (smallIcon (List.replicate (2 ^ 32) 0)) := by
  constructor
  · exact encode_smallIcon _
  · apply not_decodes_of_long
    rw [List.length_replicate]

end Dovetail.Bundler.Icon
