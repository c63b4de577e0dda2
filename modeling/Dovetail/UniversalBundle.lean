import Dovetail.BundleNames
import Dovetail.FallibleSteps

/-!
# Universal bundles

`UniversalBundle` copies the first of the builds it is given and replaces
every Mach-O file of the copy by a merge of the files that stand at its place
in all of the builds.  Which files are Mach-O is read from the copy, so what
another build alone has is never looked at.
-/

namespace Dovetail.Bundler.Universal

open CodeUnits
open FallibleSteps

abbrev Bytes := List UInt8

/-! ## Mach-O headers -/

inductive MachOKind where
  | thin
  | fat
  | notMachO
  deriving DecidableEq

structure MachOInfo where
  kind : MachOKind
  architectures : List TargetArch
  unknownCpuTypes : List Nat
  deriving DecidableEq

namespace MachOInfo

def none : MachOInfo := ⟨.notMachO, [], []⟩

def isMachO (info : MachOInfo) : Bool := info.kind != .notMachO

end MachOInfo

namespace MachO

def cpuTypeX86_64 : Nat := 0x01000007

def cpuTypeArm64 : Nat := 0x0100000C

def headerBytes : Nat := 4096

/-- The bytes read as one number, the first byte the most significant. -/
def bigEndian (bytes : Bytes) : Nat :=
  bytes.foldl (fun value byte => value * 256 + byte.toNat) 0

def getUint32 (view : Bytes) (offset : Nat) : Nat :=
  bigEndian ((view.drop offset).take 4)

def getUint32Little (view : Bytes) (offset : Nat) : Nat :=
  bigEndian ((view.drop offset).take 4).reverse

def archFor (cpuType : Nat) : Option TargetArch :=
  if cpuType = cpuTypeX86_64 then some .x86_64
  else if cpuType = cpuTypeArm64 then some .arm64
  else .none

def infoOf (kind : MachOKind) (cpuTypes : List Nat) : MachOInfo where
  kind := kind
  architectures := (cpuTypes.filterMap archFor).eraseDups
  unknownCpuTypes :=
    (cpuTypes.filter fun cpuType => (archFor cpuType).isNone).eraseDups

/-- The processor types of the entries that begin within the header. -/
def fatCpuTypes (view : Bytes) (entryBytes : Nat) : Nat → Nat → List Nat
  | 0, _ => []
  | count + 1, offset =>
      if offset + 4 > view.length then []
      else getUint32 view offset ::
        fatCpuTypes view entryBytes count (offset + entryBytes)

def parse (head : Bytes) : MachOInfo :=
  if head.length < 8 then .none
  else
    let magic := getUint32 head 0
    if magic = 0xCAFEBABE then
      infoOf .fat (fatCpuTypes head 20 (getUint32 head 4) 8)
    else if magic = 0xCAFEBABF then
      infoOf .fat (fatCpuTypes head 32 (getUint32 head 4) 8)
    else if magic = 0xCFFAEDFE ∨ magic = 0xCEFAEDFE then
      infoOf .thin [getUint32Little head 4]
    else if magic = 0xFEEDFACF ∨ magic = 0xFEEDFACE then
      infoOf .thin [getUint32 head 4]
    else .none

/-- `MachO.read` of a file with this content. -/
def read (content : Bytes) : MachOInfo :=
  if content.length < 8 then .none else parse (content.take headerBytes)

end MachO

def isMachO (content : Bytes) : Bool := (MachO.read content).isMachO

/-! ## The tools -/

structure ProcessOutcome where
  exitCode : Int
  stdout : Text
  stderr : Text

def ProcessOutcome.succeeded (outcome : ProcessOutcome) : Bool :=
  outcome.exitCode == 0

/-- The files of a directory by their path in it. -/
abbrev Tree := AList fun _ : Text => Bytes

/-- A refusal, or a tool or a directory that could not be used at all. -/
inductive AssembleError where
  | bundle (error : BundleError)
  | system (description : Text)

/-- `lipo`, `ditto` and the removal of what stands at the output: what each
run ends with and what it leaves where it writes. -/
structure AppleTools where
  archs : Bytes → Except Text ProcessOutcome
  create : List Bytes → Except Text (ProcessOutcome × Option Bytes)
  ditto : Tree → Except Text (ProcessOutcome × Tree)
  clear : Except Text Unit

/-- What the manuals of the tools say of a run that succeeds. -/
structure AppleTools.Documented (tools : AppleTools) : Prop where
  copies : ∀ tree outcome copy, tools.ditto tree = .ok (outcome, copy) →
    outcome.succeeded = true → copy = tree
  creates : ∀ slices outcome merged,
    tools.create slices = .ok (outcome, some merged) →
      outcome.succeeded = true → isMachO merged = true

def refused {α : Type} (message : Text) (remedy : Option Text) :
    Except AssembleError α :=
  .error (.bundle (.failure ⟨message, remedy⟩))

/-! ## Universal binaries -/

namespace UniversalBinary

/-- The space of a regular expression, which lacks the next-line mark. -/
def isBlank (unit : UInt16) : Bool := isSpace unit && unit != 0x85

def namesIn (stdout : Text) : List Text :=
  ((trim stdout).splitOnP isBlank).filter fun name => !name.isEmpty

def appleNames (archs : List TargetArch) : Text :=
  (text ", ").intercalate (archs.map TargetArch.apple)

variable (tools : AppleTools)

/-- The file is there. -/
def existing (path : Text) (content : Option Bytes) :
    Except AssembleError Bytes :=
  match content with
  | none =>
      refused (path ++ text " does not exist, so it carries no architecture.")
        none
  | some bytes => .ok bytes

/-- The architectures `lipo` names in a file that is there. -/
def reported (path : Text) (bytes : Bytes) :
    Except AssembleError (List TargetArch) := do
  let outcome ← (tools.archs bytes).mapError .system
  if !outcome.succeeded then
    refused (text "lipo could not read the architectures of " ++ path ++
      text ".") (some (trim outcome.stderr))
  else
    let archs ← ((namesIn outcome.stdout).mapM TargetArch.parse).mapError
      .bundle
    return archs.eraseDups

def architecturesOf (path : Text) (content : Option Bytes) :
    Except AssembleError (List TargetArch) := do
  let bytes ← existing path content
  reported tools path bytes

/-- A build's file at some place, or its absence. -/
structure Slice where
  arch : TargetArch
  path : Text
  content : Option Bytes

/-- The bytes of a slice that carries its architecture. -/
def checked (slice : Slice) : Except AssembleError Bytes :=
  match slice.content with
  | none =>
      refused (text "the " ++ slice.arch.apple ++ text " slice is missing: " ++
        slice.path) (some (text "Build every slice before merging them."))
  | some bytes => do
      let found ← architecturesOf tools slice.path slice.content
      if slice.arch ∉ found then
        refused (slice.path ++ text " was given as the " ++ slice.arch.apple ++
            text " slice but carries " ++ appleNames found ++ text ".")
          (some (text "A merge that trusts the label produces a binary that is fat and still wrong on one of the two architectures."))
      else return bytes

/-- What stands at the output after the merge. -/
def merge (slices : List Slice) (output : Text) :
    Except AssembleError Bytes :=
  if slices.length < 2 then
    refused (text "a universal binary needs at least two slices; " ++
        text (toString slices.length) ++ text " was given.")
      (some (text "Shipping one slice under a universal name means half the machines download an artefact that will not start."))
  else do
    let contents ← slices.mapM (checked tools)
    let (outcome, written) ← (tools.create contents).mapError .system
    if !outcome.succeeded then
      refused (text "lipo could not merge the slices into " ++ output ++
        text ".") (some (trim outcome.stderr))
    else
      let merged ← existing output written
      let carried ← reported tools output merged
      if ∃ slice ∈ slices, slice.arch ∉ carried then
        refused (output ++ text " carries " ++ appleNames carried ++
            text " but was asked for " ++
            appleNames (slices.map Slice.arch) ++ text ".")
          (some (text "Treat a merge that lost a slice as a failure, not a pass."))
      else return merged

end UniversalBinary

/-! ## Universal bundles -/

/-- A build: the files of its directory, when there is one. -/
structure Build where
  arch : TargetArch
  path : Text
  tree : Option Tree

def Build.contentAt (relative : Text) (build : Build) : Option Bytes :=
  build.tree.bind fun tree => tree.lookup relative

/-- The builds in the order of the map, one for an architecture. -/
structure Builds where
  entries : List Build
  distinct : (entries.map Build.arch).Nodup

def join (directory relative : Text) : Text :=
  if directory = [] ∨ directory.getLast? = some slash then
    directory ++ relative
  else directory ++ slash :: relative

namespace UniversalBundle

def machOFilesIn (tree : Tree) : List Text :=
  (tree.keys.filter fun path => (tree.lookup path).any isMachO).mergeSort
    fun a b => decide (a ≤ b)

variable (tools : AppleTools)

def present (build : Build) : Except AssembleError Tree :=
  match build.tree with
  | none =>
      refused (text "the " ++ build.arch.apple ++ text " build is not at " ++
          build.path ++ text ".")
        (some (text "Build each architecture on its own before merging them."))
  | some tree => .ok tree

def copy (tree : Tree) (source output : Text) : Except AssembleError Tree := do
  let _ ← tools.clear.mapError .system
  let (outcome, copied) ← (tools.ditto tree).mapError .system
  if !outcome.succeeded then
    refused (text "ditto could not copy " ++ source ++ text " to " ++ output ++
        text ".")
      (some (if trim outcome.stderr = [] then
          text "exit code " ++ text (toString outcome.exitCode)
        else trim outcome.stderr))
  else return copied

def sliceAt (relative : Text) (build : Build) : UniversalBinary.Slice where
  arch := build.arch
  path := join build.path relative
  content := build.contentAt relative

/-- The files of the builds at one place; the first build without one is
named. -/
def slicesAt (builds : Builds) (template : Build) (relative : Text) :
    Except AssembleError (List UniversalBinary.Slice) :=
  match builds.entries.find? fun build =>
    (build.contentAt relative).isNone with
  | some build =>
      refused (relative ++ text " is in the " ++ template.arch.apple ++
          text " build and not in the " ++ build.arch.apple ++ text " one.")
        (some (text "Merging what happens to be in both leaves the difference out of the universal bundle, and it is missing on exactly one architecture."))
  | none => .ok (builds.entries.map (sliceAt relative))

def mergedAt (builds : Builds) (template : Build) (output relative : Text) :
    Except AssembleError Bytes := do
  let slices ← slicesAt builds template relative
  UniversalBinary.merge tools slices (join output relative)

/-- The files of the bundle that is left at the output. -/
def assemble (builds : Builds) (output : Text) :
    Except AssembleError Tree :=
  match builds.entries with
  | template :: _ :: _ => do
      let _ ← builds.entries.mapM present
      let tree ← present template
      let copied ← copy tools tree template.path output
      let merged ← enterAll (mergedAt tools builds template output)
        (machOFilesIn copied) copied
      if (machOFilesIn copied).isEmpty then
        refused (text "no Mach-O file was found in " ++ template.path ++
            text ".")
          (some (text "A bundle with nothing to merge is a bundle that was not built, and copying it under a universal name hides that."))
      else return merged
  | few =>
      refused (text "a universal bundle needs two builds; " ++
          text (toString few.length) ++ text " was given.")
        (some (text "One build published under a universal name is an artefact that will not start on half the machines that download it."))

end UniversalBundle

/-! ## What a merge needs -/

/-- `lipo` names the architecture among those of the file. -/
def Carries (tools : AppleTools) (arch : TargetArch) (bytes : Bytes) : Prop :=
  ∃ outcome archs, tools.archs bytes = .ok outcome ∧
    outcome.succeeded = true ∧
    (UniversalBinary.namesIn outcome.stdout).mapM TargetArch.parse =
      .ok archs ∧
    arch ∈ archs

/-- Every build has its own slice at the place, and the slices merge into a
file of all their architectures. -/
def MergesAt (tools : AppleTools) (builds : Builds) (relative : Text)
    (merged : Bytes) : Prop :=
  (∀ build ∈ builds.entries, ∃ content,
      build.contentAt relative = some content ∧
        Carries tools build.arch content) ∧
    (∃ outcome,
      tools.create (builds.entries.map fun build =>
          (build.contentAt relative).getD []) = .ok (outcome, some merged) ∧
        outcome.succeeded = true) ∧
    ∀ build ∈ builds.entries, Carries tools build.arch merged

namespace UniversalBinary

variable {tools : AppleTools} {path output : Text} {bytes merged : Bytes}
  {archs : List TargetArch} {slice : Slice} {slices : List Slice}

theorem reported_eq_ok_iff :
    reported tools path bytes = .ok archs ↔
      ∃ outcome named, tools.archs bytes = .ok outcome ∧
        outcome.succeeded = true ∧
        (namesIn outcome.stdout).mapM TargetArch.parse = .ok named ∧
        named.eraseDups = archs := by
  unfold reported
  cases hrun : tools.archs bytes with
  | error description => simp [Except.mapError, bind, Except.bind]
  | ok outcome =>
      cases hsucceeded : outcome.succeeded with
      | false => simp [hsucceeded, Except.mapError, bind, Except.bind, refused]
      | true =>
          cases hnamed : (namesIn outcome.stdout).mapM TargetArch.parse <;>
            simp [hsucceeded, hnamed, Except.mapError, bind, Except.bind, pure,
              Except.pure]

theorem carries_iff {arch : TargetArch} :
    Carries tools arch bytes ↔
      ∃ archs, reported tools path bytes = .ok archs ∧ arch ∈ archs := by
  constructor
  · intro hcarries
    rcases hcarries with ⟨outcome, named, hrun, hsucceeded, hnamed, hmem⟩
    have hreported : reported tools path bytes = .ok named.eraseDups :=
      reported_eq_ok_iff.mpr ⟨outcome, named, hrun, hsucceeded, hnamed, rfl⟩
    exact ⟨named.eraseDups, hreported, List.mem_eraseDups.mpr hmem⟩
  · intro hreported
    rcases hreported with ⟨archs, hreported, hmem⟩
    rcases reported_eq_ok_iff.mp hreported with
      ⟨outcome, named, hrun, hsucceeded, hnamed, rfl⟩
    exact ⟨outcome, named, hrun, hsucceeded, hnamed,
      List.mem_eraseDups.mp hmem⟩

theorem checked_eq_ok_iff :
    checked tools slice = .ok bytes ↔
      slice.content = some bytes ∧ Carries tools slice.arch bytes := by
  rw [@carries_iff tools slice.path]
  unfold checked
  cases hcontent : slice.content with
  | none => simp [refused]
  | some content =>
      cases hreported : reported tools slice.path content with
      | error error =>
          simp only [architecturesOf, existing, hreported, bind, Except.bind,
            reduceCtorEq, Option.some.injEq, false_iff, not_and]
          rintro rfl
          simp [hreported]
      | ok found =>
          by_cases hmem : slice.arch ∈ found
          · simp only [architecturesOf, existing, hreported, bind,
              Except.bind, hmem, not_true_eq_false, if_false, pure,
              Except.pure, Except.ok.injEq, Option.some.injEq, iff_self_and]
            rintro rfl
            exact ⟨found, hreported, hmem⟩
          · simp only [architecturesOf, existing, hreported, bind,
              Except.bind, hmem, not_false_eq_true, if_true, refused,
              reduceCtorEq, Option.some.injEq, false_iff, not_and]
            rintro rfl
            simp [hreported, hmem]

theorem merge_eq_ok_iff :
    merge tools slices output = .ok merged ↔
      2 ≤ slices.length ∧
        (∀ slice ∈ slices, ∃ content, slice.content = some content ∧
          Carries tools slice.arch content) ∧
        (∃ outcome,
          tools.create (slices.map fun slice => slice.content.getD []) =
              .ok (outcome, some merged) ∧ outcome.succeeded = true) ∧
        ∀ slice ∈ slices, Carries tools slice.arch merged := by
  have hvalue : ∀ (slice : Slice) (bytes : Bytes),
      checked tools slice = .ok bytes → bytes = slice.content.getD [] := by
    intro slice bytes hchecked
    rw [(checked_eq_ok_iff.mp hchecked).1]
    rfl
  unfold merge
  by_cases hfew : slices.length < 2
  · simp [hfew, refused, Nat.not_le.mpr hfew]
  have hsome : ∃ slice, slice ∈ slices := by
    apply List.exists_mem_of_length_pos
    omega
  simp only [hfew, if_false, bind_eq_ok_iff]
  constructor
  · intro hsteps
    rcases hsteps with ⟨contents, hcontents, ⟨outcome, written⟩, hrun, hrest⟩
    rcases (mapM_eq_ok_map_iff hvalue).mp hcontents with ⟨hchecked, rfl⟩
    have hcreate := mapError_eq_ok_iff.mp hrun
    cases hsucceeded : outcome.succeeded with
    | false => simp [hsucceeded, refused] at hrest
    | true =>
        simp only [hsucceeded, Bool.not_true, Bool.false_eq_true, if_false]
          at hrest
        rcases bind_eq_ok_iff.mp hrest with ⟨file, hfile, hrest⟩
        rcases bind_eq_ok_iff.mp hrest with ⟨carried, hreported, hrest⟩
        cases written with
        | none => simp [existing, refused] at hfile
        | some bytes =>
            obtain rfl : bytes = file := Except.ok.inj hfile
            split_ifs at hrest with hlost
            · simp [refused] at hrest
            · obtain rfl : bytes = merged := Except.ok.inj hrest
              refine ⟨by omega, ?_, ⟨outcome, hcreate, hsucceeded⟩, ?_⟩
              · intro slice hslice
                exact ⟨_, checked_eq_ok_iff.mp (hchecked slice hslice)⟩
              · intro slice hslice
                have hmem : slice.arch ∈ carried := by
                  by_contra hmissing
                  exact hlost ⟨slice, hslice, hmissing⟩
                exact carries_iff.mpr ⟨carried, hreported, hmem⟩
  · intro hfacts
    rcases hfacts with ⟨-, hslices, ⟨outcome, hcreate, hsucceeded⟩, hmerged⟩
    have hcontents : slices.mapM (checked tools) =
        .ok (slices.map fun slice => slice.content.getD []) := by
      apply (mapM_eq_ok_map_iff hvalue).mpr
      refine ⟨?_, rfl⟩
      intro slice hslice
      rcases hslices slice hslice with ⟨content, hcontent, hcarries⟩
      apply checked_eq_ok_iff.mpr
      rw [hcontent]
      exact ⟨rfl, hcarries⟩
    rcases hsome with ⟨first, hfirst⟩
    rcases (@carries_iff tools output _ _).mp (hmerged first hfirst) with
      ⟨carried, hreported, -⟩
    have hkept : ¬ ∃ slice ∈ slices, slice.arch ∉ carried := by
      intro hlost
      rcases hlost with ⟨slice, hslice, hmissing⟩
      rcases (@carries_iff tools output _ _).mp (hmerged slice hslice) with
        ⟨others, hothers, hmem⟩
      rw [hreported] at hothers
      obtain rfl : carried = others := Except.ok.inj hothers
      exact hmissing hmem
    refine ⟨_, hcontents, (outcome, some merged), ?_, ?_⟩
    · exact mapError_eq_ok_iff.mpr hcreate
    · simp [hsucceeded, existing, hreported, hkept, bind, Except.bind, pure,
        Except.pure]

end UniversalBinary

/-! ## What a bundle is assembled from -/

/-- A Mach-O file stands at the path. -/
def MachOAt (content : Text → Option Bytes) (path : Text) : Prop :=
  ∃ bytes, content path = some bytes ∧ isMachO bytes = true

/-- Several builds, all there, of which the first is copied. -/
structure Copies (tools : AppleTools) (builds : Builds) (template : Build)
    (tree : Tree) : Prop where
  several : 2 ≤ builds.entries.length
  first : builds.entries.head? = some template
  present : ∀ build ∈ builds.entries, build.tree.isSome = true
  content : template.tree = some tree
  cleared : tools.clear = .ok ()
  copied : ∃ outcome, tools.ditto tree = .ok (outcome, tree) ∧
    outcome.succeeded = true

/-- The builds have what the assembly asks for: a first build that can be
copied, with a Mach-O file in it, and a merge at each place of one. -/
def Assembles (tools : AppleTools) (builds : Builds) : Prop :=
  ∃ template tree, Copies tools builds template tree ∧
    (∃ path, MachOAt tree.lookup path) ∧
    ∀ path, MachOAt tree.lookup path →
      ∃ merged, MergesAt tools builds path merged

/-- Every Mach-O file of a build has a Mach-O file of all architectures in
its place. -/
def Complete (tools : AppleTools) (builds : Builds) (bundle : Tree) : Prop :=
  ∀ build ∈ builds.entries, ∀ path,
    MachOAt (fun relative => build.contentAt relative) path →
      ∃ merged, bundle.lookup path = some merged ∧ isMachO merged = true ∧
        Carries tools build.arch merged

/-- A place that is Mach-O in one of the builds is so in the first. -/
def FirstHasAll (builds : Builds) : Prop :=
  ∀ template, builds.entries.head? = some template →
    ∀ build ∈ builds.entries, ∀ path,
      MachOAt (fun relative => build.contentAt relative) path →
        MachOAt (fun relative => template.contentAt relative) path

namespace UniversalBundle

variable {tools : AppleTools} {builds : Builds} {template : Build}
  {tree bundle : Tree} {output relative path : Text} {merged : Bytes}

theorem mem_machOFilesIn : path ∈ machOFilesIn tree ↔
    MachOAt tree.lookup path := by
  unfold machOFilesIn MachOAt
  rw [(List.mergeSort_perm _ _).mem_iff, List.mem_filter, Option.any_eq_true]
  constructor
  · intro hfile
    exact hfile.2
  · intro hfile
    rcases hfile with ⟨bytes, hbytes, hmacho⟩
    have hpath : path ∈ tree := by
      apply AList.lookup_isSome.mp
      exact Option.isSome_of_eq_some hbytes
    exact ⟨AList.mem_keys.mp hpath, bytes, hbytes, hmacho⟩

theorem nodup_machOFilesIn : (machOFilesIn tree).Nodup := by
  unfold machOFilesIn
  rw [(List.mergeSort_perm _ _).nodup_iff]
  exact tree.keys_nodup.filter _

theorem slicesAt_eq_ok_iff {slices : List UniversalBinary.Slice} :
    slicesAt builds template relative = .ok slices ↔
      (∀ build ∈ builds.entries,
          (build.contentAt relative).isSome = true) ∧
        builds.entries.map (sliceAt relative) = slices := by
  unfold slicesAt
  cases hmissing : builds.entries.find? fun build =>
      (build.contentAt relative).isNone with
  | some build =>
      have hnone := List.find?_some hmissing
      have hmem := List.mem_of_find?_eq_some hmissing
      simp only [refused, reduceCtorEq, false_iff, not_and]
      intro hall
      have hsome := hall build hmem
      simp_all
  | none =>
      have hall := List.find?_eq_none.mp hmissing
      have hsome : ∀ build ∈ builds.entries,
          (build.contentAt relative).isSome = true := by
        intro build hbuild
        simpa [Option.isSome_iff_ne_none] using hall build hbuild
      constructor
      · intro hslices
        exact ⟨hsome, Except.ok.inj hslices⟩
      · intro hfacts
        rw [hfacts.2]

theorem mergedAt_eq_ok_iff (hseveral : 2 ≤ builds.entries.length) :
    mergedAt tools builds template output relative = .ok merged ↔
      MergesAt tools builds relative merged := by
  unfold mergedAt MergesAt
  rw [bind_eq_ok_iff]
  constructor
  · intro hsteps
    rcases hsteps with ⟨slices, hslices, hmerge⟩
    rcases slicesAt_eq_ok_iff.mp hslices with ⟨-, rfl⟩
    rcases UniversalBinary.merge_eq_ok_iff.mp hmerge with
      ⟨-, hcarried, hcreate, hmerged⟩
    refine ⟨?_, ?_, ?_⟩
    · intro build hbuild
      exact hcarried _ (List.mem_map_of_mem hbuild)
    · rw [List.map_map] at hcreate
      exact hcreate
    · intro build hbuild
      exact hmerged _ (List.mem_map_of_mem hbuild)
  · intro hfacts
    rcases hfacts with ⟨hcarried, hcreate, hmerged⟩
    have hsome : ∀ build ∈ builds.entries,
        (build.contentAt relative).isSome = true := by
      intro build hbuild
      rcases hcarried build hbuild with ⟨content, hcontent, -⟩
      rw [hcontent]
      rfl
    refine ⟨_, slicesAt_eq_ok_iff.mpr ⟨hsome, rfl⟩, ?_⟩
    apply UniversalBinary.merge_eq_ok_iff.mpr
    rw [List.length_map, List.map_map]
    refine ⟨hseveral, ?_, hcreate, ?_⟩
    · intro slice hslice
      rcases List.mem_map.mp hslice with ⟨build, hbuild, rfl⟩
      exact hcarried build hbuild
    · intro slice hslice
      rcases List.mem_map.mp hslice with ⟨build, hbuild, rfl⟩
      exact hmerged build hbuild

theorem copy_eq_ok_iff {source : Text} {copied : Tree} :
    copy tools tree source output = .ok copied ↔
      tools.clear = .ok () ∧ ∃ outcome,
        tools.ditto tree = .ok (outcome, copied) ∧
          outcome.succeeded = true := by
  unfold copy
  cases tools.clear with
  | error description => simp [Except.mapError, bind, Except.bind]
  | ok _ =>
      cases hditto : tools.ditto tree with
      | error description => simp [Except.mapError, bind, Except.bind]
      | ok result =>
          rcases result with ⟨outcome, left⟩
          cases hsucceeded : outcome.succeeded <;>
            simp [hsucceeded, Except.mapError, bind, Except.bind, pure,
              Except.pure, refused]

theorem present_eq_ok_iff {build : Build} :
    present build = .ok tree ↔ build.tree = some tree := by
  unfold present
  cases build.tree <;> simp [refused]

theorem exists_mapM_present_iff :
    (∃ trees, builds.entries.mapM present = .ok trees) ↔
      ∀ build ∈ builds.entries, build.tree.isSome = true := by
  have hvalue : ∀ (build : Build) (tree : Tree),
      present build = .ok tree → tree = build.tree.getD ∅ := by
    intro build tree hpresent
    rw [present_eq_ok_iff.mp hpresent]
    rfl
  simp only [mapM_eq_ok_map_iff hvalue, exists_eq_right]
  constructor
  · intro hall build hbuild
    have hpresent := present_eq_ok_iff.mp (hall build hbuild)
    exact Option.isSome_of_eq_some hpresent
  · intro hall build hbuild
    rcases Option.isSome_iff_exists.mp (hall build hbuild) with ⟨tree, htree⟩
    apply present_eq_ok_iff.mpr
    rw [htree]
    rfl

theorem machOFilesIn_isEmpty_iff :
    (machOFilesIn tree).isEmpty = true ↔
      ¬ ∃ path, MachOAt tree.lookup path := by
  rw [List.isEmpty_iff, List.eq_nil_iff_forall_not_mem, not_exists]
  simp only [mem_machOFilesIn]

/-- The assembly copies the first build and enters a merge for each of its
Mach-O files. -/
theorem assemble_eq_ok_iff (hdocumented : tools.Documented) :
    assemble tools builds output = .ok bundle ↔
      ∃ template tree, Copies tools builds template tree ∧
        (∃ path, MachOAt tree.lookup path) ∧
        enterAll (mergedAt tools builds template output) (machOFilesIn tree)
          tree = .ok bundle := by
  unfold assemble
  split
  case h_1 template second rest hentries =>
    have hseveral : 2 ≤ builds.entries.length := by simp [hentries]
    have hfirst : builds.entries.head? = some template := by simp [hentries]
    simp only [bind_eq_ok_iff]
    constructor
    · intro hsteps
      rcases hsteps with ⟨trees, hpresent, tree, htree, copied, hcopy,
        merged, hmerged, hrest⟩
      rcases copy_eq_ok_iff.mp hcopy with
        ⟨hcleared, outcome, hditto, hsucceeded⟩
      obtain rfl : copied = tree :=
        hdocumented.copies _ _ _ hditto hsucceeded
      split_ifs at hrest with hempty
      · simp [refused] at hrest
      · obtain rfl : merged = bundle := Except.ok.inj hrest
        have hcopies : Copies tools builds template copied := {
          several := hseveral
          first := hfirst
          present := exists_mapM_present_iff.mp ⟨trees, hpresent⟩
          content := present_eq_ok_iff.mp htree
          cleared := hcleared
          copied := ⟨outcome, hditto, hsucceeded⟩ }
        have hfound : ∃ path, MachOAt copied.lookup path := by
          by_contra hnone
          exact hempty (machOFilesIn_isEmpty_iff.mpr hnone)
        exact ⟨template, copied, hcopies, hfound, hmerged⟩
    · intro hfacts
      rcases hfacts with ⟨other, tree, hcopies, hfound, hmerged⟩
      obtain rfl : template = other := by
        have hother := hcopies.first
        rw [hfirst] at hother
        exact Option.some.inj hother
      rcases exists_mapM_present_iff.mpr hcopies.present with
        ⟨trees, hpresent⟩
      have hcopy : copy tools tree template.path output = .ok tree :=
        copy_eq_ok_iff.mpr ⟨hcopies.cleared, hcopies.copied⟩
      have hsome : ¬ (machOFilesIn tree).isEmpty = true := fun hempty =>
        machOFilesIn_isEmpty_iff.mp hempty hfound
      refine ⟨trees, hpresent, tree, present_eq_ok_iff.mpr hcopies.content,
        tree, hcopy, bundle, hmerged, ?_⟩
      rw [if_neg hsome]
      rfl
  case h_2 hfew =>
    simp only [refused, reduceCtorEq, false_iff]
    intro hfacts
    rcases hfacts with ⟨template, tree, hcopies, -⟩
    rcases hentries : builds.entries with _ | ⟨first, _ | ⟨second, rest⟩⟩
    · have hseveral := hcopies.several
      simp [hentries] at hseveral
    · have hseveral := hcopies.several
      simp [hentries] at hseveral
    · exact hfew first second rest hentries

/-- What stands in the assembled bundle. -/
theorem lookup_of_assemble {template : Build}
    (hcopies : Copies tools builds template tree)
    (hfilled : enterAll (mergedAt tools builds template output)
      (machOFilesIn tree) tree = .ok bundle) :
    (∀ path, MachOAt tree.lookup path →
        ∃ merged, MergesAt tools builds path merged ∧
          bundle.lookup path = some merged) ∧
      ∀ path, ¬ MachOAt tree.lookup path →
        bundle.lookup path = tree.lookup path := by
  rcases lookup_of_enterAll nodup_machOFilesIn hfilled with
    ⟨hentered, hkept⟩
  constructor
  · intro path hpath
    rcases hentered path (mem_machOFilesIn.mpr hpath) with
      ⟨merged, hmerged, hlookup⟩
    exact ⟨merged, (mergedAt_eq_ok_iff hcopies.several).mp hmerged, hlookup⟩
  · intro path hpath
    exact hkept path (mt mem_machOFilesIn.mp hpath)

theorem exists_assemble_eq_ok_iff (hdocumented : tools.Documented) :
    (∃ bundle, assemble tools builds output = .ok bundle) ↔
      Assembles tools builds := by
  constructor
  · intro hassembled
    rcases hassembled with ⟨bundle, hbundle⟩
    rcases (assemble_eq_ok_iff hdocumented).mp hbundle with
      ⟨template, tree, hcopies, hfound, hfilled⟩
    refine ⟨template, tree, hcopies, hfound, ?_⟩
    intro path hpath
    rcases (lookup_of_assemble hcopies hfilled).1 path hpath with
      ⟨merged, hmerged, -⟩
    exact ⟨merged, hmerged⟩
  · intro hassembles
    rcases hassembles with ⟨template, tree, hcopies, hfound, hmerges⟩
    have hsteps : ∀ path ∈ machOFilesIn tree, ∃ merged,
        mergedAt tools builds template output path = .ok merged := by
      intro path hpath
      rcases hmerges path (mem_machOFilesIn.mp hpath) with ⟨merged, hmerged⟩
      exact ⟨merged, (mergedAt_eq_ok_iff hcopies.several).mpr hmerged⟩
    rcases exists_enterAll_eq_ok_iff.mpr hsteps with ⟨bundle, hfilled⟩
    exact ⟨bundle, (assemble_eq_ok_iff hdocumented).mpr
      ⟨template, tree, hcopies, hfound, hfilled⟩⟩

/-- What is Mach-O in the first build is merged from all of them. -/
theorem complete_of_firstHasAll (hdocumented : tools.Documented)
    (hassembled : assemble tools builds output = .ok bundle)
    (hfirst : FirstHasAll builds) : Complete tools builds bundle := by
  rcases (assemble_eq_ok_iff hdocumented).mp hassembled with
    ⟨template, tree, hcopies, -, hfilled⟩
  intro build hbuild path hpath
  have htemplate : MachOAt tree.lookup path := by
    rcases hfirst template hcopies.first build hbuild path hpath with
      ⟨bytes, hbytes, hmacho⟩
    refine ⟨bytes, ?_, hmacho⟩
    simpa [Build.contentAt, hcopies.content] using hbytes
  rcases (lookup_of_assemble hcopies hfilled).1 path htemplate with
    ⟨merged, hmerged, hlookup⟩
  rcases hmerged with ⟨-, ⟨outcome, hcreate, hsucceeded⟩, hcarried⟩
  exact ⟨merged, hlookup,
    hdocumented.creates _ _ _ hcreate hsucceeded, hcarried build hbuild⟩

/-- Where the first build has no Mach-O file the bundle has none. -/
theorem firstHasAll_of_complete (hdocumented : tools.Documented)
    (hassembled : assemble tools builds output = .ok bundle)
    (hcomplete : Complete tools builds bundle) : FirstHasAll builds := by
  rcases (assemble_eq_ok_iff hdocumented).mp hassembled with
    ⟨first, tree, hcopies, -, hfilled⟩
  intro template htemplate build hbuild path hpath
  obtain rfl : first = template := by
    have hfirst := hcopies.first
    rw [htemplate] at hfirst
    exact (Option.some.inj hfirst).symm
  rcases hcomplete build hbuild path hpath with
    ⟨merged, hlookup, hmacho, -⟩
  have htree : MachOAt tree.lookup path := by
    by_contra hnone
    have hkept := (lookup_of_assemble hcopies hfilled).2 path hnone
    rw [hlookup] at hkept
    exact hnone ⟨merged, hkept.symm, hmacho⟩
  rcases htree with ⟨bytes, hbytes, hmacho⟩
  refine ⟨bytes, ?_, hmacho⟩
  simpa [Build.contentAt, hcopies.content] using hbytes

/-- An assembly that returns is complete exactly where the builds keep it
from returning or the first of them has all the Mach-O files. -/
theorem assemblesCompletely_iff (hdocumented : tools.Documented) :
    (∀ bundle, assemble tools builds output = .ok bundle →
        Complete tools builds bundle) ↔
      ¬ Assembles tools builds ∨ FirstHasAll builds := by
  constructor
  · intro hcomplete
    by_cases hassembles : Assembles tools builds
    · right
      rcases (exists_assemble_eq_ok_iff hdocumented).mpr hassembles with
        ⟨bundle, hbundle⟩
      exact firstHasAll_of_complete hdocumented hbundle
        (hcomplete bundle hbundle)
    · exact Or.inl hassembles
  · intro hcondition bundle hbundle
    rcases hcondition with hrefused | hfirst
    · exact absurd
        ((exists_assemble_eq_ok_iff hdocumented).mp ⟨bundle, hbundle⟩)
        hrefused
    · exact complete_of_firstHasAll hdocumented hbundle hfirst

end UniversalBundle

/-! ## A framework of one build alone -/

/-- The first eight bytes of a program for an architecture. -/
def thinHeader : TargetArch → Bytes
  | .arm64 => [0xCF, 0xFA, 0xED, 0xFE, 0x0C, 0, 0, 0x01]
  | .x86_64 => [0xCF, 0xFA, 0xED, 0xFE, 0x07, 0, 0, 0x01]

/-- The header of a file with these slices: the processor type of each,
places and sizes left out. -/
def fatHeader (slices : List Bytes) : Bytes :=
  [0xCA, 0xFE, 0xBA, 0xBE, 0, 0, 0, UInt8.ofNat slices.length] ++
    slices.flatMap fun slice =>
      ((slice.drop 4).take 4).reverse ++ List.replicate 16 0

theorem isMachO_fatHeader (slices : List Bytes) :
    isMachO (fatHeader slices) = true := by
  have hmagic : MachO.getUint32 ((fatHeader slices).take MachO.headerBytes) 0
      = 0xCAFEBABE := by
    simp [fatHeader, MachO.headerBytes, MachO.getUint32, MachO.bigEndian]
  have hlong : ¬ (fatHeader slices).length < 8 := by
    simp [fatHeader]
  have hhead : ¬ ((fatHeader slices).take MachO.headerBytes).length < 8 := by
    simp [fatHeader, MachO.headerBytes]
  unfold isMachO MachO.read MachO.parse
  rw [if_neg hlong, if_neg hhead]
  simp only [hmagic, if_true]
  rfl

/-- Tools that do what their manuals say and never fail. -/
def willingTools : AppleTools where
  archs bytes := .ok {
    exitCode := if isMachO bytes then 0 else 1
    stdout := (text " ").intercalate
      ((MachO.read bytes).architectures.map TargetArch.apple) ++ text "\n"
    stderr := [] }
  create slices := .ok (⟨0, [], []⟩, some (fatHeader slices))
  ditto tree := .ok (⟨0, [], []⟩, tree)
  clear := .ok ()

theorem willingTools_documented : willingTools.Documented where
  copies tree outcome copy hditto _ := by
    cases hditto
    rfl
  creates slices outcome merged hcreate _ := by
    cases hcreate
    exact isMachO_fatHeader slices

def programPath : Text := text "Contents/MacOS/Example"

def frameworkPath : Text := text "Contents/Frameworks/Codec"

/-- A build with its program and perhaps a framework. -/
def sampleBuild (arch : TargetArch) (framework : Bool) : Build where
  arch := arch
  path := text "/tmp/" ++ arch.apple ++ text "/Example.app"
  tree :=
    let program : Tree := AList.insert programPath (thinHeader arch) ∅
    some (if framework then program.insert frameworkPath (thinHeader arch)
      else program)

def sampleBuilds (framework : Bool) : Builds where
  entries := [sampleBuild .arm64 false, sampleBuild .x86_64 framework]
  distinct := by cases framework <;> decide

/-- Without the framework a build has its program alone. -/
theorem eq_programPath_of_machOAt {arch : TargetArch} {path : Text}
    (hpath : MachOAt
      (fun relative => (sampleBuild arch false).contentAt relative) path) :
    path = programPath := by
  rcases hpath with ⟨bytes, hbytes, -⟩
  by_contra hother
  have hprogram : (AList.insert programPath (thinHeader arch) ∅ : Tree).lookup
      path = some bytes := hbytes
  rw [AList.lookup_insert_ne hother] at hprogram
  cases hprogram

theorem machOAt_program (arch : TargetArch) :
    MachOAt (fun relative => (sampleBuild arch false).contentAt relative)
      programPath := by
  have hprogram : (AList.insert programPath (thinHeader arch) ∅ : Tree).lookup
      programPath = some (thinHeader arch) := AList.lookup_insert _
  refine ⟨thinHeader arch, hprogram, ?_⟩
  cases arch <;> decide

theorem carries_sample :
    (∀ arch, Carries willingTools arch (thinHeader arch)) ∧
      ∀ arch, Carries willingTools arch
        (fatHeader [thinHeader .arm64, thinHeader .x86_64]) := by
  constructor
  · intro arch
    cases arch
    · exact ⟨_, [.x86_64], rfl, by decide, by decide,
        by decide⟩
    · exact ⟨_, [.arm64], rfl, by decide, by decide,
        by decide⟩
  · intro arch
    refine ⟨_, [.arm64, .x86_64], rfl, by decide, by decide,
      ?_⟩
    cases arch <;> decide

theorem assembles_sample (framework : Bool) :
    Assembles willingTools (sampleBuilds framework) := by
  have hcopies : Copies willingTools (sampleBuilds framework)
      (sampleBuild .arm64 false)
      (AList.insert programPath (thinHeader .arm64) ∅) := {
    several := le_refl 2
    first := rfl
    present := by
      intro build hbuild
      simp only [sampleBuilds, List.mem_cons, List.not_mem_nil, or_false]
        at hbuild
      rcases hbuild with rfl | rfl <;> rfl
    content := rfl
    cleared := rfl
    copied := ⟨_, rfl, rfl⟩ }
  have hsecond : (sampleBuild .x86_64 framework).contentAt programPath =
      some (thinHeader .x86_64) := by
    cases framework <;> decide
  refine ⟨_, _, hcopies, ⟨programPath, machOAt_program .arm64⟩, ?_⟩
  intro path hpath
  obtain rfl : path = programPath :=
    @eq_programPath_of_machOAt .arm64 path hpath
  refine ⟨fatHeader [thinHeader .arm64, thinHeader .x86_64], ?_, ?_, ?_⟩
  · intro build hbuild
    simp only [sampleBuilds, List.mem_cons, List.not_mem_nil, or_false]
      at hbuild
    rcases hbuild with rfl | rfl
    · exact ⟨_, by decide, carries_sample.1 .arm64⟩
    · exact ⟨_, hsecond, carries_sample.1 .x86_64⟩
  · refine ⟨⟨0, [], []⟩, ?_, rfl⟩
    have hfirst : (sampleBuild .arm64 false).contentAt programPath =
        some (thinHeader .arm64) := by decide
    simp [sampleBuilds, hfirst, hsecond, willingTools]
  · intro build _
    exact carries_sample.2 build.arch

/-- The framework that the second build alone has is nowhere in the bundle. -/
theorem not_complete_framework :
    willingTools.Documented ∧
      ∃ bundle,
        UniversalBundle.assemble willingTools (sampleBuilds true)
            (text "/tmp/Example.app") = .ok bundle ∧
          ¬ Complete willingTools (sampleBuilds true) bundle := by
  refine ⟨willingTools_documented, ?_⟩
  rcases (UniversalBundle.exists_assemble_eq_ok_iff
    willingTools_documented).mpr (assembles_sample true) with
    ⟨bundle, hbundle⟩
  refine ⟨bundle, hbundle, ?_⟩
  intro hcomplete
  have hfirst := UniversalBundle.firstHasAll_of_complete
    willingTools_documented hbundle hcomplete
  have hframework : MachOAt
      (fun relative => (sampleBuild .x86_64 true).contentAt relative)
      frameworkPath :=
    ⟨thinHeader .x86_64, by decide, by decide⟩
  have hpath : frameworkPath = programPath := eq_programPath_of_machOAt
    (hfirst _ rfl _ (by simp [sampleBuilds]) _ hframework)
  exact absurd hpath (by decide)

theorem assemblesCompletely_sample :
    ∃ bundle,
      UniversalBundle.assemble willingTools (sampleBuilds false)
          (text "/tmp/Example.app") = .ok bundle ∧
        Complete willingTools (sampleBuilds false) bundle := by
  rcases (UniversalBundle.exists_assemble_eq_ok_iff
    willingTools_documented).mpr (assembles_sample false) with
    ⟨bundle, hbundle⟩
  refine ⟨bundle, hbundle, ?_⟩
  apply (UniversalBundle.assemblesCompletely_iff
    willingTools_documented).mpr _ bundle hbundle
  right
  intro template htemplate build hbuild path hpath
  obtain rfl : sampleBuild .arm64 false = template := Option.some.inj htemplate
  simp only [sampleBuilds, List.mem_cons, List.not_mem_nil, or_false]
    at hbuild
  rcases hbuild with rfl | rfl
  · exact hpath
  · rw [eq_programPath_of_machOAt hpath]
    exact machOAt_program .arm64

end Dovetail.Bundler.Universal
