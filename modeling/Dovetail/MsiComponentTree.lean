import Dovetail.PathForest
import Dovetail.WixText

/-!
# The component tree of an MSI

`MsiComponentTree.scan` gives every staged file a component and every
directory on the way to one an entry, each with an identifier made from its
path.  Only the identifiers of components are kept apart by a suffix, so
those of files and directories repeat where two paths are confused, and a
suffix can be one character too many.
-/

namespace Dovetail.Bundler

open CodeUnits

/-! ## Staged files -/

structure BundleFailure where
  message : Text
  remedy : Option Text
  deriving DecidableEq

def slash : UInt16 := 47

def backslash : UInt16 := 92

def colon : UInt16 := 58

/-- One name of a path; the current directory has none. -/
@[ext]
structure PathName where
  units : Text
  filled : units ≠ []
  named : units ≠ text "."
  whole : slash ∉ units ∧ backslash ∉ units

instance : DecidableEq PathName := fun name other =>
  decidable_of_iff (name.units = other.units) PathName.ext_iff.symm

/-- A relative path: the names of its directory and its own.  Without a
colon in the first of them it has no root as a url. -/
structure StagedPath where
  dirname : List PathName
  basename : PathName
  rootless : ∀ name ∈ (dirname ++ [basename]).head?, colon ∉ name.units
  deriving DecidableEq

def pathText (names : List PathName) : Text :=
  [slash].intercalate (names.map (·.units))

namespace StagedPath

def names (path : StagedPath) : List PathName := path.dirname ++ [path.basename]

def relative (path : StagedPath) : Text := pathText path.names

theorem names_injective : Function.Injective names := by
  intro a b hsame
  obtain ⟨hdirname, hbasename⟩ := List.append_inj' hsame rfl
  cases a
  cases b
  simp_all

end StagedPath

/-- A path is spelled in one way only. -/
theorem pathText_inj {a b : List PathName} (ha : a ≠ []) (hb : b ≠ [])
    (hsame : pathText a = pathText b) : a = b := by
  have hnames (names : List PathName) (hnames : names ≠ []) :
      (pathText names).splitOn slash = names.map (·.units) := by
    apply List.splitOn_intercalate
    · intro units hunits
      obtain ⟨name, -, rfl⟩ := List.mem_map.mp hunits
      exact name.whole.1
    · simpa using hnames
  have hunits : a.map (·.units) = b.map (·.units) := by
    rw [← hnames a ha, ← hnames b hb, hsame]
  apply List.map_injective_iff.mpr _ hunits
  intro name other hname
  cases name
  cases other
  simp_all

/-! ## The tree -/

structure MsiComponent where
  id : Text
  guid : Text
  directoryId : Text
  relativePath : StagedPath
  source : Text

structure MsiDirectory where
  id : Text
  name : PathName
  relativePath : List PathName
  parentRelativePath : List PathName
  spells : parentRelativePath ++ [name] = relativePath

namespace MsiComponent

def fileName (component : MsiComponent) : Text :=
  component.relativePath.basename.units

def fileId (component : MsiComponent) : Text :=
  WixText.identifier (text "file." ++ component.relativePath.relative)
    (text "f")

def windowsRelativePath (component : MsiComponent) : Text :=
  component.relativePath.relative.map fun unit =>
    if unit = slash then backslash else unit

end MsiComponent

structure MsiComponentTree where
  components : List MsiComponent
  directories : List MsiDirectory

namespace MsiComponentTree

def childrenOf (tree : MsiComponentTree) (relativePath : List PathName) :
    List MsiDirectory :=
  tree.directories.filter fun directory =>
    directory.parentRelativePath = relativePath

def componentsIn (tree : MsiComponentTree) (directoryId : Text) :
    List MsiComponent :=
  tree.components.filter fun component => component.directoryId = directoryId

def directoryIdFor (relativePath : List PathName) : Text :=
  WixText.identifier (text "dir." ++ pathText relativePath) (text "d")

def installFolder : Text := text "INSTALLFOLDER"

/-- A directory is entered after its parent, unless it is known. -/
def registerDirectory (known : List MsiDirectory) (path : List PathName)
    (hpath : path ≠ []) : List MsiDirectory :=
  if known.any fun directory => directory.relativePath = path then known
  else
    let before :=
      if hparent : path.dropLast = [] then known
      else registerDirectory known path.dropLast hparent
    before ++ [
      { id := directoryIdFor path
        name := path.getLast hpath
        relativePath := path
        parentRelativePath := path.dropLast
        spells := List.dropLast_append_getLast hpath }]
termination_by path.length
decreasing_by
  have hpositive := List.length_pos_iff.mpr hpath
  simp only [List.length_dropLast]
  omega

def suffixed (candidate : Text) (suffix : Nat) : Text :=
  candidate ++ WixText.underscore :: text (toString suffix)

/-- The first suffix that is not used, of so many. -/
def firstFree (used : List Text) (candidate : Text) : Nat → Nat → Text
  | 0, suffix => suffixed candidate suffix
  | fuel + 1, suffix =>
      if suffixed candidate suffix ∈ used then
        firstFree used candidate fuel (suffix + 1)
      else suffixed candidate suffix

def candidateFor (path : StagedPath) : Text :=
  WixText.identifier (text "cmp." ++ path.relative) (text "c")

/-- No more suffixes can be used than identifiers are. -/
def uniqueId (used : List Text) (path : StagedPath) : Text :=
  if candidateFor path ∈ used then
    firstFree used (candidateFor path) used.length 2
  else candidateFor path

structure Scan where
  directories : List MsiDirectory
  components : List MsiComponent
  usedIds : List Text

/-- The directory of a file; one that is not the root has been registered. -/
def directoryIdIn (directories : List MsiDirectory)
    (dirname : List PathName) : Text :=
  if dirname = [] then installFolder
  else
    match directories.find? fun directory =>
        directory.relativePath = dirname with
    | some directory => directory.id
    | none => []

def addFile (guidFor : Text → Text) (sources : List (StagedPath × Text))
    (scan : Scan) (path : StagedPath) : Scan :=
  let directories :=
    if hdirname : path.dirname = [] then scan.directories
    else registerDirectory scan.directories path.dirname hdirname
  let id := uniqueId scan.usedIds path
  { directories
    components := scan.components ++ [
      { id
        guid := guidFor path.relative
        directoryId := directoryIdIn directories path.dirname
        relativePath := path
        source := (sources.lookup path).getD [] }]
    usedIds := scan.usedIds ++ [id] }

/-- A file staged under a path that is taken replaces its source. -/
def putSource (sources : List (StagedPath × Text))
    (file : StagedPath × Text) : List (StagedPath × Text) :=
  if sources.any fun known => known.1 = file.1 then
    sources.map fun known => if known.1 = file.1 then file else known
  else sources ++ [file]

def sourcesOf (listing extraFiles : List (StagedPath × Text)) :
    List (StagedPath × Text) :=
  (listing ++ extraFiles).foldl putSource []

def ordered (sources : List (StagedPath × Text)) : List StagedPath :=
  (sources.map (·.1)).insertionSort fun a b => a.relative ≤ b.relative

def scan (guidFor : Text → Text) (appDirectory : Text)
    (listing : Option (List (StagedPath × Text)))
    (extraFiles : List (StagedPath × Text)) :
    Except BundleFailure MsiComponentTree :=
  match listing with
  | none =>
      .error
        { message := text "appDirectory \"" ++ appDirectory ++
            text "\" does not exist."
          remedy := some (text "Run flutter build windows before bundling.") }
  | some files =>
      let sources := sourcesOf files extraFiles
      if sources.isEmpty then
        .error
          { message := text "appDirectory \"" ++ appDirectory ++
              text "\" holds no file."
            remedy := some (text "An MSI with no component installs nothing and uninstalls nothing.") }
      else
        let scanned := (ordered sources).foldl (addFile guidFor sources)
          ⟨[], [], []⟩
        .ok
          { components := scanned.components
            directories := scanned.directories.insertionSort fun a b =>
              pathText a.relativePath ≤ pathText b.relativePath }

/-! ## What is registered -/

theorem pathOf_directory (directory : MsiDirectory) :
    PathForest.pathOf MsiDirectory.parentRelativePath MsiDirectory.name
      directory = directory.relativePath :=
  directory.spells

/-- The directories form a forest, each with the identifier of its path. -/
structure Registered (known : List MsiDirectory) : Prop where
  distinct : PathForest.Distinct MsiDirectory.parentRelativePath
    MsiDirectory.name known
  closed : PathForest.Closed MsiDirectory.parentRelativePath
    MsiDirectory.name known
  ids : ∀ directory ∈ known,
    directory.id = directoryIdFor directory.relativePath

theorem registered_nil : Registered [] where
  distinct := List.nodup_nil
  closed := by simp [PathForest.Closed]
  ids := by simp

theorem Registered.append {known : List MsiDirectory}
    {directory : MsiDirectory} (hknown : Registered known)
    (hid : directory.id = directoryIdFor directory.relativePath)
    (hfresh : ∀ other ∈ known, other.relativePath ≠ directory.relativePath)
    (hparent : directory.parentRelativePath ≠ [] →
      ∃ other ∈ known, other.relativePath = directory.parentRelativePath) :
    Registered (known ++ [directory]) where
  distinct := by
    unfold PathForest.Distinct
    rw [List.map_append, List.nodup_append]
    refine ⟨hknown.distinct, by simp, ?_⟩
    intro path hpath other hother hsame
    obtain ⟨earlier, hearlier, rfl⟩ := List.mem_map.mp hpath
    rw [List.map_singleton, List.mem_singleton] at hother
    rw [hother, pathOf_directory, pathOf_directory] at hsame
    exact hfresh earlier hearlier hsame
  closed := by
    intro other hother hne
    have hfound : ∃ found ∈ known,
        found.relativePath = other.parentRelativePath := by
      rcases List.mem_append.mp hother with hold | hnew
      · simpa only [pathOf_directory] using hknown.closed other hold hne
      · obtain rfl := List.mem_singleton.mp hnew
        exact hparent hne
    obtain ⟨found, hfound, hpath⟩ := hfound
    exact ⟨found, List.mem_append_left _ hfound,
      by rw [pathOf_directory, hpath]⟩
  ids := by
    intro other hother
    rcases List.mem_append.mp hother with hold | hnew
    · exact hknown.ids other hold
    · rw [List.mem_singleton.mp hnew, hid]

/-- A path is registered along with those it is below, and nothing else. -/
structure Extends (known : List MsiDirectory) (path : List PathName)
    (after : List MsiDirectory) : Prop where
  registered : Registered after
  kept : known ⊆ after
  added : ∃ directory ∈ after, directory.relativePath = path
  only : ∀ directory ∈ after, directory ∈ known ∨
    directory.relativePath <+: path

theorem extends_registerDirectory {known : List MsiDirectory}
    (hknown : Registered known) (path : List PathName) (hpath : path ≠ []) :
    Extends known path (registerDirectory known path hpath) := by
  fun_induction registerDirectory known path hpath with
  | case1 path hpath hany =>
      obtain ⟨directory, hdirectory, hsame⟩ := List.any_eq_true.mp hany
      exact ⟨hknown, List.Subset.refl _,
        ⟨directory, hdirectory, by simpa using hsame⟩, fun _ => Or.inl⟩
  | case2 path hpath hany before ih =>
      have hfresh : ∀ other ∈ known, other.relativePath ≠ path := by
        intro other hother hsame
        exact hany (List.any_eq_true.mpr ⟨other, hother, by simpa using hsame⟩)
      have hshorter : path.dropLast.length < path.length := by
        have hpositive := List.length_pos_iff.mpr hpath
        simp only [List.length_dropLast]
        omega
      have hbefore : Registered before ∧ known ⊆ before ∧
          (path.dropLast ≠ [] →
            ∃ other ∈ before, other.relativePath = path.dropLast) ∧
          ∀ other ∈ before, other ∈ known ∨
            other.relativePath <+: path.dropLast := by
        by_cases hparent : path.dropLast = []
        · have hsame : before = known := dif_pos hparent
          rw [hsame]
          exact ⟨hknown, List.Subset.refl _, fun hne => absurd hparent hne,
            fun _ => Or.inl⟩
        · have hsame : before =
              registerDirectory known path.dropLast hparent :=
            dif_neg hparent
          obtain ⟨hregistered, hkept, hadded, honly⟩ := ih hparent
          rw [hsame]
          exact ⟨hregistered, hkept, fun _ => hadded, honly⟩
      obtain ⟨hregistered, hkept, hadded, honly⟩ := hbefore
      have hnew : ∀ other ∈ before, other.relativePath ≠ path := by
        intro other hother hsame
        rcases honly other hother with hold | hbelow
        · exact hfresh other hold hsame
        · rw [hsame] at hbelow
          exact absurd hbelow.length_le (by omega)
      constructor
      · exact hregistered.append rfl hnew hadded
      · exact fun _ hold => List.mem_append_left _ (hkept hold)
      · exact ⟨_, List.mem_append_right _ (List.mem_singleton_self _), rfl⟩
      · intro other hother
        rcases List.mem_append.mp hother with hold | hlast
        · apply (honly other hold).imp_right
          exact fun hbelow => hbelow.trans (List.dropLast_prefix path)
        · rw [List.mem_singleton.mp hlast]
          exact Or.inr List.prefix_rfl

/-! ## Identifiers that are not used yet -/

theorem suffixed_injective (candidate : Text) :
    Function.Injective (suffixed candidate) := by
  intro a b hsame
  have hrest := List.append_cancel_left hsame
  exact text_toString_injective (List.cons.inj hrest).2

theorem length_suffixed (candidate : Text) (suffix : Nat) :
    candidate.length + 1 ≤ (suffixed candidate suffix).length := by
  simp only [suffixed, List.length_append, List.length_cons]
  omega

/-- One of one more suffixes than there are identifiers is free. -/
theorem exists_free (used : List Text) (candidate : Text) (start : Nat) :
    ∃ count ≤ used.length, suffixed candidate (start + count) ∉ used := by
  by_contra hnone
  push Not at hnone
  have hsubset : (List.range (used.length + 1)).map
      (fun count => suffixed candidate (start + count)) ⊆ used := by
    intro id hid
    obtain ⟨count, hcount, rfl⟩ := List.mem_map.mp hid
    exact hnone count (Nat.lt_succ_iff.mp (List.mem_range.mp hcount))
  have hnodup : ((List.range (used.length + 1)).map
      fun count => suffixed candidate (start + count)).Nodup := by
    apply List.nodup_range.map
    intro a b hsame
    exact Nat.add_left_cancel (suffixed_injective candidate hsame)
  have hlength := (hnodup.subperm hsubset).length_le
  simp only [List.length_map, List.length_range] at hlength
  omega

theorem firstFree_notMem {used : List Text} {candidate : Text} {fuel : Nat}
    {start : Nat} (hfree : ∃ count ≤ fuel,
      suffixed candidate (start + count) ∉ used) :
    firstFree used candidate fuel start ∉ used := by
  induction fuel generalizing start with
  | zero =>
      obtain ⟨count, hcount, hfree⟩ := hfree
      obtain rfl : count = 0 := Nat.le_zero.mp hcount
      exact hfree
  | succ fuel ih =>
      rw [firstFree]
      split
      · next hused =>
          apply ih
          obtain ⟨count, hcount, hfree⟩ := hfree
          cases count with
          | zero => exact absurd hused hfree
          | succ count =>
              refine ⟨count, by omega, ?_⟩
              rwa [Nat.add_right_comm]
      · assumption

theorem exists_suffix_firstFree (used : List Text) (candidate : Text)
    (fuel start : Nat) :
    ∃ suffix, firstFree used candidate fuel start =
      suffixed candidate suffix := by
  induction fuel generalizing start with
  | zero => exact ⟨start, rfl⟩
  | succ fuel ih =>
      rw [firstFree]
      split
      · exact ih (start + 1)
      · exact ⟨start, rfl⟩

theorem uniqueId_notMem (used : List Text) (path : StagedPath) :
    uniqueId used path ∉ used := by
  unfold uniqueId
  split
  · exact firstFree_notMem (exists_free used (candidateFor path) 2)
  · assumption

/-! ## What a scan holds -/

/-- The identifier of the directory a file is in. -/
def directoryIdOf (dirname : List PathName) : Text :=
  if dirname = [] then installFolder else directoryIdFor dirname

/-- After these files: a component for each, in the directory that is its
own, with an identifier of its own. -/
structure Scanned (paths : List StagedPath) (scan : Scan) : Prop where
  registered : Registered scan.directories
  only : ∀ directory ∈ scan.directories, ∃ path ∈ paths,
    directory.relativePath <+: path.dirname
  added : ∀ path ∈ paths, path.dirname ≠ [] →
    ∃ directory ∈ scan.directories, directory.relativePath = path.dirname
  staged : scan.components.map (·.relativePath) = paths
  inside : ∀ component ∈ scan.components,
    component.directoryId = directoryIdOf component.relativePath.dirname
  used : scan.components.map (·.id) = scan.usedIds
  distinct : scan.usedIds.Nodup
  taken : ∀ path ∈ paths, candidateFor path ∈ scan.usedIds
  plain : (paths.map candidateFor).Nodup → ∀ component ∈ scan.components,
    component.id = candidateFor component.relativePath
  repeated : ¬ (paths.map candidateFor).Nodup →
    ∃ component ∈ scan.components, ∃ suffix,
      component.id = suffixed (candidateFor component.relativePath) suffix ∧
        ∃ other ∈ paths, other ≠ component.relativePath ∧
          candidateFor other = candidateFor component.relativePath

theorem scanned_nil : Scanned [] ⟨[], [], []⟩ where
  registered := registered_nil
  only := by simp
  added := by simp
  staged := rfl
  inside := by simp
  used := rfl
  distinct := List.nodup_nil
  taken := by simp
  plain := by simp
  repeated := by simp

theorem directoryIdIn_eq {directories : List MsiDirectory}
    (hregistered : Registered directories) {dirname : List PathName}
    (hfound : dirname ≠ [] →
      ∃ directory ∈ directories, directory.relativePath = dirname) :
    directoryIdIn directories dirname = directoryIdOf dirname := by
  unfold directoryIdIn directoryIdOf
  split
  · rfl
  · next hdirname =>
      obtain ⟨directory, hdirectory, hsame⟩ := hfound hdirname
      have hsome : (directories.find? fun directory =>
          directory.relativePath = dirname).isSome := by
        rw [List.find?_isSome]
        exact ⟨directory, hdirectory, by simpa using hsame⟩
      obtain ⟨first, hfirst⟩ := Option.isSome_iff_exists.mp hsome
      have hpath : first.relativePath = dirname := by
        simpa using List.find?_some hfirst
      rw [hfirst, ← hpath]
      exact hregistered.ids first (List.mem_of_find?_eq_some hfirst)

/-- What the directories are once those of a file are registered. -/
structure Reaches (path : StagedPath) (before after : List MsiDirectory) :
    Prop where
  registered : Registered after
  kept : before ⊆ after
  only : ∀ directory ∈ after, directory ∈ before ∨
    directory.relativePath <+: path.dirname
  added : path.dirname ≠ [] →
    ∃ directory ∈ after, directory.relativePath = path.dirname

theorem Scanned.reaches {paths : List StagedPath} {scan : Scan}
    (hscanned : Scanned paths scan) (guidFor : Text → Text)
    (sources : List (StagedPath × Text)) (path : StagedPath) :
    Reaches path scan.directories
      (addFile guidFor sources scan path).directories := by
  unfold addFile
  dsimp only
  split
  · next hdirname =>
      exact ⟨hscanned.registered, List.Subset.refl _, fun _ => Or.inl,
        fun hne => absurd hdirname hne⟩
  · next hdirname =>
      obtain ⟨hregistered, hkept, hadded, honly⟩ :=
        extends_registerDirectory hscanned.registered path.dirname hdirname
      exact ⟨hregistered, hkept, honly, fun _ => hadded⟩

theorem candidateFor_mem_append (used : List Text) (path : StagedPath) :
    candidateFor path ∈ used ++ [uniqueId used path] := by
  unfold uniqueId
  split
  · next hused => exact List.mem_append_left _ hused
  · exact List.mem_append_right _ (List.mem_singleton_self _)

theorem scanned_addFile {paths : List StagedPath} {scan : Scan}
    (hscanned : Scanned paths scan) (guidFor : Text → Text)
    (sources : List (StagedPath × Text)) {path : StagedPath}
    (hfresh : path ∉ paths) :
    Scanned (paths ++ [path]) (addFile guidFor sources scan path) := by
  have hreaches := hscanned.reaches guidFor sources path
  constructor
  · exact hreaches.registered
  · intro directory hdirectory
    rcases hreaches.only directory hdirectory with hold | hbelow
    · obtain ⟨other, hother, hbelow⟩ := hscanned.only directory hold
      exact ⟨other, List.mem_append_left _ hother, hbelow⟩
    · exact ⟨path, List.mem_append_right _ (List.mem_singleton_self _), hbelow⟩
  · intro other hother hne
    rcases List.mem_append.mp hother with hold | hnew
    · obtain ⟨directory, hdirectory, hsame⟩ := hscanned.added other hold hne
      exact ⟨directory, hreaches.kept hdirectory, hsame⟩
    · obtain rfl := List.mem_singleton.mp hnew
      exact hreaches.added hne
  · simp [addFile, hscanned.staged]
  · intro component hcomponent
    rcases List.mem_append.mp hcomponent with hold | hnew
    · exact hscanned.inside component hold
    · obtain rfl := List.mem_singleton.mp hnew
      exact directoryIdIn_eq hreaches.registered hreaches.added
  · simp [addFile, hscanned.used]
  · have hnew := uniqueId_notMem scan.usedIds path
    exact List.nodup_append.mpr ⟨hscanned.distinct, by simp, by
      rintro id hid _ hlast rfl
      rw [List.mem_singleton.mp hlast] at hid
      exact hnew hid⟩
  · intro other hother
    rcases List.mem_append.mp hother with hold | hnew
    · exact List.mem_append_left _ (hscanned.taken other hold)
    · rw [List.mem_singleton.mp hnew]
      exact candidateFor_mem_append scan.usedIds path
  · intro hnodup component hcomponent
    rw [List.map_append, List.nodup_append] at hnodup
    obtain ⟨hold, -, hdisjoint⟩ := hnodup
    rcases List.mem_append.mp hcomponent with hbefore | hnew
    · exact hscanned.plain hold component hbefore
    · obtain rfl := List.mem_singleton.mp hnew
      have hunused : candidateFor path ∉ scan.usedIds := by
        rw [← hscanned.used]
        intro hmem
        obtain ⟨other, hother, hid⟩ := List.mem_map.mp hmem
        rw [hscanned.plain hold other hother] at hid
        have hstaged : other.relativePath ∈ paths := by
          rw [← hscanned.staged]
          exact List.mem_map_of_mem hother
        exact hdisjoint _ (List.mem_map_of_mem hstaged) _ (by simp) hid
      exact if_neg hunused
  · intro hagain
    by_cases hold : (paths.map candidateFor).Nodup
    · have hmem : candidateFor path ∈ paths.map candidateFor := by
        by_contra hnone
        apply hagain
        rw [List.map_append, List.nodup_append]
        refine ⟨hold, by simp, ?_⟩
        rintro id hid _ hlast rfl
        rw [List.map_singleton, List.mem_singleton] at hlast
        exact hnone (hlast ▸ hid)
      obtain ⟨other, hother, hsame⟩ := List.mem_map.mp hmem
      have hused : candidateFor path ∈ scan.usedIds :=
        hsame ▸ hscanned.taken other hother
      obtain ⟨suffix, hsuffix⟩ := exists_suffix_firstFree scan.usedIds
        (candidateFor path) scan.usedIds.length 2
      refine ⟨_, List.mem_append_right _ (List.mem_singleton_self _), suffix,
        ?_, other, List.mem_append_left _ hother, ?_, hsame⟩
      · rw [← hsuffix]
        exact if_pos hused
      · rintro rfl
        exact hfresh hother
    · obtain ⟨component, hcomponent, suffix, hid, other, hother, hne, hsame⟩ :=
        hscanned.repeated hold
      exact ⟨component, List.mem_append_left _ hcomponent, suffix, hid, other,
        List.mem_append_left _ hother, hne, hsame⟩

theorem scanned_foldl (guidFor : Text → Text)
    (sources : List (StagedPath × Text)) {paths : List StagedPath}
    (hnodup : paths.Nodup) :
    Scanned paths
      (paths.foldl (addFile guidFor sources) ⟨[], [], []⟩) := by
  induction paths using List.reverseRecOn with
  | nil => exact scanned_nil
  | append_singleton before path ih =>
      rw [List.foldl_concat]
      obtain ⟨hbefore, -, hfresh⟩ := List.nodup_append.mp hnodup
      apply scanned_addFile (ih hbefore)
      intro hagain
      exact hfresh path hagain path (List.mem_singleton_self _) rfl

/-! ## Staged paths -/

theorem keys_putSource (sources : List (StagedPath × Text))
    (file : StagedPath × Text) :
    (putSource sources file).map (·.1) =
      if file.1 ∈ sources.map (·.1) then sources.map (·.1)
      else sources.map (·.1) ++ [file.1] := by
  unfold putSource
  by_cases hmem : file.1 ∈ sources.map (·.1)
  · have hany : (sources.any fun known => known.1 = file.1) = true := by
      obtain ⟨known, hknown, hsame⟩ := List.mem_map.mp hmem
      exact List.any_eq_true.mpr ⟨known, hknown, by simpa using hsame⟩
    rw [if_pos hany, if_pos hmem, List.map_map]
    apply List.map_congr_left
    intro known _
    dsimp only [Function.comp_apply]
    split
    · next hsame => exact hsame.symm
    · rfl
  · have hany : ¬ (sources.any fun known => known.1 = file.1) = true := by
      intro hany
      obtain ⟨known, hknown, hsame⟩ := List.any_eq_true.mp hany
      exact hmem (List.mem_map.mpr ⟨known, hknown, by simpa using hsame⟩)
    rw [if_neg hany, if_neg hmem]
    simp

theorem keys_sourcesOf (files : List (StagedPath × Text)) :
    ((files.foldl putSource []).map (·.1)).Nodup ∧
      ∀ path, path ∈ (files.foldl putSource []).map (·.1) ↔
        path ∈ files.map (·.1) := by
  induction files using List.reverseRecOn with
  | nil => simp
  | append_singleton before file ih =>
      obtain ⟨hnodup, hmem⟩ := ih
      rw [List.foldl_concat, keys_putSource, List.map_append]
      split
      · next hold =>
          refine ⟨hnodup, fun path => ?_⟩
          have hfile := (hmem file.1).mp hold
          simp only [hmem, List.mem_append, List.map_singleton,
            List.mem_singleton]
          constructor
          · exact Or.inl
          · rintro (hpath | rfl)
            · exact hpath
            · exact hfile
      · next hnew =>
          constructor
          · rw [List.nodup_append]
            refine ⟨hnodup, by simp, ?_⟩
            rintro path hpath _ hlast rfl
            rw [List.mem_singleton.mp hlast] at hpath
            exact hnew hpath
          · intro path
            simp only [List.mem_append, hmem, List.map_singleton]

/-- What a scan that succeeds has gone through. -/
theorem scanned_of_scan_eq_ok {guidFor : Text → Text} {appDirectory : Text}
    {listing extraFiles : List (StagedPath × Text)} {tree : MsiComponentTree}
    (hscan : scan guidFor appDirectory (some listing) extraFiles = .ok tree) :
    ∃ paths scanned, Scanned paths scanned ∧ paths.Nodup ∧
      (∀ path, path ∈ paths ↔ path ∈ (listing ++ extraFiles).map (·.1)) ∧
        tree.components = scanned.components ∧
          tree.directories.Perm scanned.directories := by
  unfold scan at hscan
  dsimp only at hscan
  split at hscan
  · cases hscan
  · cases hscan
    obtain ⟨hkeys, hmem⟩ := keys_sourcesOf (listing ++ extraFiles)
    have hperm : (ordered (sourcesOf listing extraFiles)).Perm
        ((sourcesOf listing extraFiles).map (·.1)) :=
      List.perm_insertionSort _ _
    have hnodup := hperm.nodup_iff.mpr hkeys
    refine ⟨_, _, scanned_foldl guidFor (sourcesOf listing extraFiles) hnodup,
      hnodup, ?_, rfl, List.perm_insertionSort _ _⟩
    intro path
    rw [hperm.mem_iff]
    exact hmem path

theorem exists_scan_eq_ok {guidFor : Text → Text} {appDirectory : Text}
    {listing extraFiles : List (StagedPath × Text)}
    (hstaged : listing ++ extraFiles ≠ []) :
    ∃ tree, scan guidFor appDirectory (some listing) extraFiles = .ok tree := by
  have hfilled : (sourcesOf listing extraFiles).isEmpty = false := by
    obtain ⟨file, hfile⟩ := List.exists_mem_of_ne_nil _ hstaged
    have hkey := ((keys_sourcesOf (listing ++ extraFiles)).2 file.1).mpr
      (List.mem_map_of_mem hfile)
    rw [List.isEmpty_eq_false_iff_exists_mem]
    obtain ⟨source, hsource, -⟩ := List.mem_map.mp hkey
    exact ⟨source, hsource⟩
  unfold scan
  dsimp only
  rw [hfilled]
  exact ⟨_, rfl⟩

end MsiComponentTree

end Dovetail.Bundler
