import Dovetail.FallibleSteps
import Dovetail.UrlContext
import Dovetail.WixRendering
import Mathlib.Logic.Relation

/-!
# The component tree over any staged path

The paths given to `MsiComponentTree.scan` are texts, and the directories on
the way to one are registered by going up from it until the current directory
is met.  A path with a root never meets it: its directory has a root again.
Any other path gets shorter at each step, and the directories registered form
a forest that a walk from the install folder goes through once.
-/

namespace Dovetail.Bundler.StagedText

open CodeUnits
open UrlContexts (UrlContext currentDirectory packagePath)
open MsiComponentTree (firstFree installFolder)

/-! ## The tree -/

structure MsiComponent where
  id : Text
  guid : Text
  directoryId : Text
  relativePath : Text
  source : Text
  deriving DecidableEq

structure MsiDirectory where
  id : Text
  name : Text
  relativePath : Text
  parentRelativePath : Option Text
  deriving DecidableEq

structure MsiComponentTree where
  components : List MsiComponent
  directories : List MsiDirectory

namespace MsiComponentTree

def childrenOf (tree : MsiComponentTree) (relativePath : Option Text) :
    List MsiDirectory :=
  tree.directories.filter fun directory =>
    directory.parentRelativePath = relativePath

def componentsIn (tree : MsiComponentTree) (directoryId : Text) :
    List MsiComponent :=
  tree.components.filter fun component => component.directoryId = directoryId

end MsiComponentTree

def directoryIdFor (relativePath : Text) : Text :=
  WixText.identifier (text "dir." ++ relativePath) (text "d")

def candidateFor (relativePath : Text) : Text :=
  WixText.identifier (text "cmp." ++ relativePath) (text "c")

def uniqueId (used : List Text) (relativePath : Text) : Text :=
  if candidateFor relativePath ∈ used then
    firstFree used (candidateFor relativePath) used.length 2
  else candidateFor relativePath

section

variable (context : UrlContext)

/-- The directory above a path; there is none above the current one. -/
def parentPath (relativePath : Text) : Option Text :=
  let parent := context.dirname relativePath
  if parent = currentDirectory then none else some parent

def entryFor (relativePath : Text) : MsiDirectory where
  id := directoryIdFor relativePath
  name := context.basename relativePath
  relativePath
  parentRelativePath := parentPath context relativePath

/-- Nothing comes back once the recursion is deeper than the fuel. -/
def registerDirectory : Nat → List MsiDirectory → Text →
    Option (List MsiDirectory)
  | 0, _, _ => none
  | fuel + 1, known, relativePath =>
      if known.any fun directory => directory.relativePath = relativePath then
        some known
      else
        let before :=
          match parentPath context relativePath with
          | none => some known
          | some parent => registerDirectory fuel known parent
        before.map fun directories =>
          directories ++ [entryFor context relativePath]

structure Scan where
  directories : List MsiDirectory
  components : List MsiComponent
  usedIds : List Text

def directoryIdIn (directories : List MsiDirectory) : Option Text → Text
  | none => installFolder
  | some parent =>
      match directories.find? fun directory =>
          directory.relativePath = parent with
      | some directory => directory.id
      | none => []

def addFile (guidFor : Text → Text) (sources : List (Text × Text))
    (fuel : Nat) (scan : Scan) (relative : Text) : Option Scan :=
  let registered :=
    match parentPath context relative with
    | none => some scan.directories
    | some parent => registerDirectory context fuel scan.directories parent
  let id := uniqueId scan.usedIds relative
  registered.map fun directories =>
    { directories
      components := scan.components ++ [
        { id
          guid := guidFor relative
          directoryId := directoryIdIn directories
            (parentPath context relative)
          relativePath := relative
          source := (sources.lookup relative).getD [] }]
      usedIds := scan.usedIds ++ [id] }

end

def keyOf (destination : Text) : Text :=
  destination.map fun unit => if unit = backslash then slash else unit

/-- The order of the sources does not matter, for the keys are sorted. -/
def putSource (sources : List (Text × Text)) (file : Text × Text) :
    List (Text × Text) :=
  (sources.filter fun known => known.1 ≠ keyOf file.1) ++
    [(keyOf file.1, file.2)]

def sourcesOf (listing extraFiles : List (Text × Text)) :
    List (Text × Text) :=
  (listing ++ extraFiles).foldl putSource []

def ordered (sources : List (Text × Text)) : List Text :=
  (sources.map (·.1)).insertionSort (· ≤ ·)

/-- The files of the directory, if there is one, are listed with their paths
relative to it. -/
def scan (context : UrlContext) (guidFor : Text → Text)
    (appDirectory : Text) (listing : Option (List (Text × Text)))
    (extraFiles : List (Text × Text)) (fuel : Nat) :
    Option (Except BundleFailure MsiComponentTree) :=
  match listing with
  | none =>
      some (.error
        { message := text "appDirectory \"" ++ appDirectory ++
            text "\" does not exist."
          remedy := some (text "Run flutter build windows before bundling.") })
  | some files =>
      let sources := sourcesOf files extraFiles
      if sources.isEmpty then
        some (.error
          { message := text "appDirectory \"" ++ appDirectory ++
              text "\" holds no file."
            remedy := some (text "An MSI with no component installs nothing and uninstalls nothing.") })
      else do
        let scanned ← (ordered sources).foldlM
          (addFile context guidFor sources fuel) ⟨[], [], []⟩
        some (.ok
          { components := scanned.components
            directories := scanned.directories.insertionSort fun a b =>
              a.relativePath ≤ b.relativePath })

/-! ## Rendering -/

inductive Tag where
  | directory (indent : Nat) (directory : MsiDirectory)
  | component (indent : Nat) (component : MsiComponent)
  | close (indent : Nat)

def Tag.emitted : Tag → Option MsiComponent
  | .component _ rendered => some rendered
  | _ => none

namespace MsiComponentTree

variable (tree : MsiComponentTree)

def componentsOf (directoryId : Text) (indent : Nat) : List Tag :=
  (tree.componentsIn directoryId).map (.component indent)

def childDirectories : Nat → Option Text → Nat → Option (List Tag)
  | 0, _, _ => none
  | fuel + 1, parentRelativePath, indent => do
      let lines ← (tree.childrenOf parentRelativePath).mapM fun directory => do
        let inside ← childDirectories fuel (some directory.relativePath)
          (indent + 2)
        some (.directory indent directory ::
          tree.componentsOf directory.id (indent + 2) ++ inside ++
          [.close indent])
      some lines.flatten

/-- What is inside the element of the install folder. -/
def insideInstallFolder (fuel indent : Nat) : Option (List Tag) := do
  let inside ← tree.childDirectories fuel none indent
  some (tree.componentsOf installFolder indent ++ inside)

/-- A directory from which the parents lead to the install folder. -/
inductive Reaches : MsiDirectory → Prop where
  | top {directory : MsiDirectory} (hmem : directory ∈ tree.directories)
      (hparent : directory.parentRelativePath = none) : Reaches directory
  | under {directory parent : MsiDirectory}
      (hmem : directory ∈ tree.directories)
      (hparent : directory.parentRelativePath = some parent.relativePath)
      (habove : Reaches parent) : Reaches directory

/-- Every component is somewhere below the install folder, and the rendering
emits each of them once. -/
structure Sound : Prop where
  placed : ∀ component ∈ tree.components,
    component.directoryId = installFolder ∨
      ∃ directory, tree.Reaches directory ∧
        directory.id = component.directoryId
  rendered : ∀ indent, ∃ fuel tags,
    tree.insideInstallFolder fuel indent = some tags ∧
      (tags.filterMap Tag.emitted).Perm tree.components

end MsiComponentTree

/-- The scan comes back, with a failure or with a sound tree. -/
def EndsWell (context : UrlContext) (guidFor : Text → Text)
    (appDirectory : Text) (listing : Option (List (Text × Text)))
    (extraFiles : List (Text × Text)) : Prop :=
  ∃ fuel outcome, scan context guidFor appDirectory listing extraFiles fuel =
      some outcome ∧
    ∀ tree, outcome = .ok tree → tree.Sound

/-! ## Paths that end at the current directory -/

section

variable (context : UrlContext)

def IsParent (parent path : Text) : Prop :=
  parentPath context path = some parent

variable {context}

theorem parentPath_rooted {path : Text} (hrooted : context.rooted path = true) :
    ∃ parent, parentPath context path = some parent ∧
      context.rooted parent = true := by
  have hparent := context.rooted_dirname path hrooted
  refine ⟨context.dirname path, ?_, hparent⟩
  unfold parentPath
  apply if_neg
  intro hcurrent
  rw [hcurrent, context.rootless_currentDirectory] at hparent
  exact Bool.false_ne_true hparent

theorem parentPath_rootless {path parent : Text}
    (hrootless : context.rooted path = false)
    (hparent : parentPath context path = some parent) :
    context.rooted parent = false ∧ parent.length < path.length := by
  unfold parentPath at hparent
  dsimp only at hparent
  split at hparent
  · cases hparent
  · next hne =>
      obtain rfl := Option.some.inj hparent
      exact (context.dirname_rootless path hrootless).resolve_left hne

/-- The directories on the way to a path, itself with them. -/
def Above (context : UrlContext) (directory path : Text) : Prop :=
  Relation.ReflTransGen (IsParent context) directory path

theorem Above.length_le {directory path : Text}
    (habove : Above context directory path)
    (hrootless : context.rooted path = false) :
    context.rooted directory = false ∧ directory.length ≤ path.length := by
  induction habove with
  | refl => exact ⟨hrootless, le_refl _⟩
  | tail _ hparent ih =>
      have hshorter := parentPath_rootless hrootless hparent
      have hup := ih hshorter.1
      exact ⟨hup.1, hup.2.trans hshorter.2.le⟩

/-! ## What is registered -/

/-- No path is registered twice, each has its own identifier and parent, and
its parent is registered too. -/
structure Registered (context : UrlContext) (known : List MsiDirectory) :
    Prop where
  distinct : (known.map (·.relativePath)).Nodup
  rootless : ∀ directory ∈ known,
    context.rooted directory.relativePath = false
  ids : ∀ directory ∈ known,
    directory.id = directoryIdFor directory.relativePath
  parents : ∀ directory ∈ known,
    directory.parentRelativePath =
      parentPath context directory.relativePath
  closed : ∀ directory ∈ known, ∀ parent,
    directory.parentRelativePath = some parent →
      ∃ other ∈ known, other.relativePath = parent

theorem registered_nil : Registered context [] where
  distinct := List.nodup_nil
  rootless := by simp
  ids := by simp
  parents := by simp
  closed := by simp

theorem Registered.perm {known others : List MsiDirectory}
    (hknown : Registered context known) (hperm : others.Perm known) :
    Registered context others where
  distinct := (hperm.map _).nodup_iff.mpr hknown.distinct
  rootless := by
    simpa only [hperm.mem_iff] using hknown.rootless
  ids := by
    simpa only [hperm.mem_iff] using hknown.ids
  parents := by
    simpa only [hperm.mem_iff] using hknown.parents
  closed := by
    simpa only [hperm.mem_iff] using hknown.closed

theorem Registered.append {known : List MsiDirectory} {path : Text}
    (hknown : Registered context known)
    (hrootless : context.rooted path = false)
    (hfresh : ∀ other ∈ known, other.relativePath ≠ path)
    (hclosed : ∀ parent, parentPath context path = some parent →
      ∃ other ∈ known, other.relativePath = parent) :
    Registered context (known ++ [entryFor context path]) where
  distinct := by
    rw [List.map_append, List.nodup_append]
    refine ⟨hknown.distinct, by simp, ?_⟩
    intro earlier hearlier other hother hsame
    rcases List.mem_map.mp hearlier with ⟨found, hfound, rfl⟩
    rw [List.map_singleton, List.mem_singleton] at hother
    exact hfresh found hfound (hsame.trans hother)
  rootless := by
    intro other hother
    rcases List.mem_append.mp hother with hold | hnew
    · exact hknown.rootless other hold
    · rw [List.mem_singleton.mp hnew]
      exact hrootless
  ids := by
    intro other hother
    rcases List.mem_append.mp hother with hold | hnew
    · exact hknown.ids other hold
    · rw [List.mem_singleton.mp hnew]
      rfl
  parents := by
    intro other hother
    rcases List.mem_append.mp hother with hold | hnew
    · exact hknown.parents other hold
    · rw [List.mem_singleton.mp hnew]
      rfl
  closed := by
    intro other hother parent hup
    have hfound : ∃ found ∈ known, found.relativePath = parent := by
      rcases List.mem_append.mp hother with hold | hnew
      · exact hknown.closed other hold parent hup
      · apply hclosed
        rw [List.mem_singleton.mp hnew] at hup
        exact hup
    rcases hfound with ⟨found, hmem, hpath⟩
    exact ⟨found, List.mem_append_left _ hmem, hpath⟩

/-- All that is above a registered path is registered. -/
theorem Registered.above {known : List MsiDirectory}
    (hknown : Registered context known) {directory path : Text}
    (habove : Above context directory path)
    (hpath : ∃ found ∈ known, found.relativePath = path) :
    ∃ found ∈ known, found.relativePath = directory := by
  induction habove with
  | refl => exact hpath
  | tail _ hparent ih =>
      rcases hpath with ⟨found, hfound, rfl⟩
      apply ih
      apply hknown.closed found hfound
      rw [hknown.parents found hfound]
      exact hparent

/-- A path is registered along with those above it, and nothing else. -/
structure Extends (context : UrlContext) (known : List MsiDirectory)
    (path : Text) (after : List MsiDirectory) : Prop where
  registered : Registered context after
  kept : known ⊆ after
  added : ∃ directory ∈ after, directory.relativePath = path
  only : ∀ directory ∈ after,
    directory ∈ known ∨ Above context directory.relativePath path

theorem extends_registerDirectory {known : List MsiDirectory}
    (hknown : Registered context known) {fuel : Nat} {path : Text}
    (hrootless : context.rooted path = false) (hfuel : path.length < fuel) :
    ∃ after, registerDirectory context fuel known path = some after ∧
      Extends context known path after := by
  induction fuel generalizing path with
  | zero => exact absurd hfuel (Nat.not_lt_zero _)
  | succ fuel ih =>
      unfold registerDirectory
      split
      · next hany =>
          rcases List.any_eq_true.mp hany with ⟨found, hfound, hsame⟩
          refine ⟨known, rfl, hknown, List.Subset.refl _, ?_, ?_⟩
          · exact ⟨found, hfound, by simpa using hsame⟩
          · exact fun directory hdirectory => Or.inl hdirectory
      · next hany =>
          have hfresh : ∀ other ∈ known, other.relativePath ≠ path := by
            intro other hother hsame
            apply hany
            exact List.any_eq_true.mpr ⟨other, hother, by simpa using hsame⟩
          cases hparent : parentPath context path with
          | none =>
              refine ⟨_, rfl, ?_, ?_, ?_, ?_⟩
              · apply hknown.append hrootless hfresh
                intro parent hsome
                rw [hparent] at hsome
                cases hsome
              · exact List.subset_append_left _ _
              · exact ⟨_, List.mem_append_right _
                  (List.mem_singleton_self _), rfl⟩
              · intro directory hdirectory
                apply (List.mem_append.mp hdirectory).imp_right
                intro hnew
                rw [List.mem_singleton.mp hnew]
                exact Relation.ReflTransGen.refl
          | some parent =>
              have hshorter := parentPath_rootless hrootless hparent
              rcases ih hshorter.1 (by omega) with ⟨before, hbefore, hextends⟩
              have hnew : ∀ other ∈ before, other.relativePath ≠ path := by
                intro other hother hsame
                rcases hextends.only other hother with hold | habove
                · exact hfresh other hold hsame
                · have hlength := (habove.length_le hshorter.1).2
                  rw [hsame] at hlength
                  omega
              refine ⟨_, congrArg (Option.map _) hbefore, ?_, ?_, ?_, ?_⟩
              · apply hextends.registered.append hrootless hnew
                intro up hup
                rw [hparent] at hup
                rw [← Option.some.inj hup]
                exact hextends.added
              · exact fun _ hold =>
                  List.mem_append_left _ (hextends.kept hold)
              · exact ⟨_, List.mem_append_right _
                  (List.mem_singleton_self _), rfl⟩
              · intro directory hdirectory
                rcases List.mem_append.mp hdirectory with hold | hlast
                · apply (hextends.only directory hold).imp_right
                  exact fun habove => habove.tail hparent
                · right
                  rw [List.mem_singleton.mp hlast]
                  exact Relation.ReflTransGen.refl

/-- Above a path with a root there is always another. -/
theorem registerDirectory_eq_none {known : List MsiDirectory}
    (hknown : ∀ directory ∈ known,
      context.rooted directory.relativePath = false)
    {path : Text} (hrooted : context.rooted path = true) (fuel : Nat) :
    registerDirectory context fuel known path = none := by
  induction fuel generalizing path with
  | zero => rfl
  | succ fuel ih =>
      rcases parentPath_rooted hrooted with ⟨parent, hparent, hup⟩
      unfold registerDirectory
      split
      · next hany =>
          rcases List.any_eq_true.mp hany with ⟨found, hfound, hsame⟩
          have hrootless := hknown found hfound
          rw [of_decide_eq_true hsame, hrooted] at hrootless
          cases hrootless
      · rw [hparent]
        dsimp only
        rw [ih hup]
        rfl

/-- More fuel changes nothing once a path is registered. -/
theorem registerDirectory_mono {fuel more : Nat} (hmore : fuel ≤ more)
    {known after : List MsiDirectory} {path : Text}
    (hafter : registerDirectory context fuel known path = some after) :
    registerDirectory context more known path = some after := by
  induction fuel generalizing more path after with
  | zero => cases hafter
  | succ fuel ih =>
      cases more with
      | zero => exact absurd hmore (Nat.not_succ_le_zero fuel)
      | succ more =>
          unfold registerDirectory at hafter ⊢
          split
          · next hany =>
              rw [if_pos hany] at hafter
              exact hafter
          · next hany =>
              rw [if_neg hany] at hafter
              cases hparent : parentPath context path with
              | none =>
                  rw [hparent] at hafter
                  exact hafter
              | some parent =>
                  rw [hparent] at hafter
                  rcases Option.map_eq_some_iff.mp hafter with
                    ⟨before, hbefore, rfl⟩
                  exact congrArg (Option.map _)
                    (ih (Nat.le_of_succ_le_succ hmore) hbefore)

/-! ## What is scanned -/

/-- A directory on the way to one of the files. -/
def IsDirectory (context : UrlContext) (keys : List Text) (path : Text) :
    Prop :=
  ∃ key ∈ keys, ∃ parent, parentPath context key = some parent ∧
    Above context path parent

/-- The identifier of the directory a file is in. -/
def directoryIdOf (context : UrlContext) (key : Text) : Text :=
  match parentPath context key with
  | none => installFolder
  | some parent => directoryIdFor parent

/-- After these files: the directories on the way to them, and a component
for each of them in the directory that is its own. -/
structure Scanned (context : UrlContext) (keys : List Text) (scan : Scan) :
    Prop where
  registered : Registered context scan.directories
  only : ∀ directory ∈ scan.directories,
    IsDirectory context keys directory.relativePath
  added : ∀ key ∈ keys, ∀ parent, parentPath context key = some parent →
    ∃ directory ∈ scan.directories, directory.relativePath = parent
  placed : scan.components.map
      (fun component => (component.relativePath, component.directoryId)) =
    keys.map fun key => (key, directoryIdOf context key)

theorem scanned_nil : Scanned context [] ⟨[], [], []⟩ where
  registered := registered_nil
  only := by simp
  added := by simp
  placed := rfl

theorem directoryIdIn_eq {directories : List MsiDirectory}
    (hregistered : Registered context directories) {parent : Text}
    (hadded : ∃ directory ∈ directories, directory.relativePath = parent) :
    directoryIdIn directories (some parent) = directoryIdFor parent := by
  unfold directoryIdIn
  cases hfind : directories.find? fun directory =>
      directory.relativePath = parent with
  | none =>
      rcases hadded with ⟨directory, hdirectory, hpath⟩
      have hnot := List.find?_eq_none.mp hfind directory hdirectory
      simp [hpath] at hnot
  | some directory =>
      have hpath : directory.relativePath = parent := by
        simpa using List.find?_some hfind
      dsimp only
      rw [hfind, ← hpath]
      exact hregistered.ids directory (List.mem_of_find?_eq_some hfind)

variable {guidFor : Text → Text} {sources : List (Text × Text)}

theorem isDirectory_append {keys : List Text} {path : Text} (key : Text)
    (hpath : IsDirectory context keys path) :
    IsDirectory context (keys ++ [key]) path := by
  rcases hpath with ⟨other, hother, hup⟩
  exact ⟨other, List.mem_append_left _ hother, hup⟩

theorem scanned_addFile {keys : List Text} {scan : Scan}
    (hscanned : Scanned context keys scan) {fuel : Nat} {key : Text}
    (hrootless : context.rooted key = false) (hfuel : key.length < fuel) :
    ∃ after, addFile context guidFor sources fuel scan key = some after ∧
      Scanned context (keys ++ [key]) after := by
  unfold addFile
  have hkeys (path : Text) (hpath : path ∈ keys ++ [key]) :
      path ∈ keys ∨ path = key := by
    simpa using hpath
  cases hparent : parentPath context key with
  | none =>
      refine ⟨_, rfl, hscanned.registered, ?_, ?_, ?_⟩
      · intro directory hdirectory
        exact isDirectory_append key (hscanned.only directory hdirectory)
      · intro path hpath parent hup
        rcases hkeys path hpath with hold | rfl
        · exact hscanned.added path hold parent hup
        · rw [hparent] at hup
          cases hup
      · simp [hscanned.placed, directoryIdOf, hparent, directoryIdIn]
  | some parent =>
      have hshorter := parentPath_rootless hrootless hparent
      rcases extends_registerDirectory hscanned.registered hshorter.1
        (hshorter.2.trans hfuel) with ⟨directories, hregister, hextends⟩
      refine ⟨_, congrArg (Option.map _) hregister, hextends.registered,
        ?_, ?_, ?_⟩
      · intro directory hdirectory
        rcases hextends.only directory hdirectory with hold | habove
        · exact isDirectory_append key (hscanned.only directory hold)
        · exact ⟨key, List.mem_append_right _ (List.mem_singleton_self _),
            parent, hparent, habove⟩
      · intro path hpath up hup
        rcases hkeys path hpath with hold | rfl
        · rcases hscanned.added path hold up hup with ⟨found, hfound, hsame⟩
          exact ⟨found, hextends.kept hfound, hsame⟩
        · rw [hparent] at hup
          rw [← Option.some.inj hup]
          exact hextends.added
      · have hid := directoryIdIn_eq hextends.registered hextends.added
        simp [hscanned.placed, directoryIdOf, hparent, hid]

theorem addFile_eq_none {scan : Scan}
    (hregistered : Registered context scan.directories) {key : Text}
    (hrooted : context.rooted key = true) (fuel : Nat) :
    addFile context guidFor sources fuel scan key = none := by
  rcases parentPath_rooted hrooted with ⟨parent, hparent, hup⟩
  unfold addFile
  rw [hparent]
  dsimp only
  rw [registerDirectory_eq_none hregistered.rootless hup]
  rfl

theorem addFile_mono {fuel more : Nat} (hmore : fuel ≤ more)
    {scan after : Scan} {key : Text}
    (hafter : addFile context guidFor sources fuel scan key = some after) :
    addFile context guidFor sources more scan key = some after := by
  unfold addFile at hafter ⊢
  cases hparent : parentPath context key with
  | none =>
      rw [hparent] at hafter
      exact hafter
  | some parent =>
      rw [hparent] at hafter
      rcases Option.map_eq_some_iff.mp hafter with ⟨directories, hregister, rfl⟩
      exact congrArg (Option.map _) (registerDirectory_mono hmore hregister)

theorem scanned_foldlM {keys : List Text} {fuel : Nat}
    (hkeys : ∀ key ∈ keys, context.rooted key = false ∧ key.length < fuel) :
    ∃ scan, keys.foldlM (addFile context guidFor sources fuel) ⟨[], [], []⟩ =
        some scan ∧
      Scanned context keys scan := by
  induction keys using List.reverseRecOn with
  | nil => exact ⟨_, rfl, scanned_nil⟩
  | append_singleton before key ih =>
      rcases ih fun other hother => hkeys other (List.mem_append_left _ hother)
        with ⟨scan, hscan, hscanned⟩
      have hkey := hkeys key
        (List.mem_append_right _ (List.mem_singleton_self key))
      rcases scanned_addFile hscanned hkey.1 hkey.2 with ⟨after, hafter, hnext⟩
      refine ⟨after, ?_, hnext⟩
      rw [List.foldlM_append, hscan]
      change [key].foldlM (addFile context guidFor sources fuel) scan = _
      rw [List.foldlM_cons, hafter]
      rfl

theorem foldlM_mono {fuel more : Nat} (hmore : fuel ≤ more) {keys : List Text}
    {scan after : Scan}
    (hafter : keys.foldlM (addFile context guidFor sources fuel) scan =
      some after) :
    keys.foldlM (addFile context guidFor sources more) scan = some after := by
  induction keys generalizing scan with
  | nil => exact hafter
  | cons key rest ih =>
      rw [List.foldlM_cons] at hafter ⊢
      rcases Option.bind_eq_some_iff.mp hafter with ⟨next, hnext, hrest⟩
      exact Option.bind_eq_some_iff.mpr
        ⟨next, addFile_mono hmore hnext, ih hrest⟩

theorem exists_fuel {keys : List Text}
    (hrootless : ∀ key ∈ keys, context.rooted key = false) (fuel : Nat) :
    ∃ more, fuel ≤ more ∧
      ∀ key ∈ keys, context.rooted key = false ∧ key.length < more := by
  refine ⟨fuel + 1 + (keys.map List.length).sum, by omega, ?_⟩
  intro key hkey
  have hlength := List.single_le_sum (fun _ _ => Nat.zero_le _) _
    (List.mem_map_of_mem (f := List.length) hkey)
  exact ⟨hrootless key hkey, by omega⟩

theorem scanned_of_foldlM_eq_some {keys : List Text}
    (hrootless : ∀ key ∈ keys, context.rooted key = false) {fuel : Nat}
    {scan : Scan}
    (hscan : keys.foldlM (addFile context guidFor sources fuel) ⟨[], [], []⟩ =
      some scan) :
    Scanned context keys scan := by
  rcases exists_fuel hrootless fuel with ⟨more, hmore, hshort⟩
  rcases @scanned_foldlM context guidFor sources keys more hshort
    with ⟨found, hfound, hscanned⟩
  rw [foldlM_mono hmore hscan] at hfound
  rw [Option.some.inj hfound]
  exact hscanned

/-- One path with a root keeps the scan from coming back. -/
theorem foldlM_eq_none {keys : List Text}
    (hrooted : ∃ key ∈ keys, context.rooted key = true) (fuel : Nat) :
    keys.foldlM (addFile context guidFor sources fuel) ⟨[], [], []⟩ = none := by
  induction keys using List.reverseRecOn with
  | nil => simp at hrooted
  | append_singleton before key ih =>
      rw [List.foldlM_append]
      by_cases hbefore : ∃ other ∈ before, context.rooted other = true
      · rw [ih hbefore]
        rfl
      · have hkey : context.rooted key = true := by
          rcases hrooted with ⟨other, hother, hroot⟩
          rcases List.mem_append.mp hother with hold | hnew
          · exact absurd ⟨other, hold, hroot⟩ hbefore
          · rw [← List.mem_singleton.mp hnew]
            exact hroot
        cases hscan : before.foldlM (addFile context guidFor sources fuel)
            ⟨[], [], []⟩ with
        | none => rfl
        | some scan =>
            have hrootless : ∀ other ∈ before,
                context.rooted other = false := by
              intro other hother
              rw [← Bool.not_eq_true]
              exact fun hroot => hbefore ⟨other, hother, hroot⟩
            have hscanned := scanned_of_foldlM_eq_some hrootless hscan
            change [key].foldlM (addFile context guidFor sources fuel) scan = _
            rw [List.foldlM_cons, addFile_eq_none hscanned.registered hkey]
            rfl

end

/-! ## Staged paths -/

/-- The paths of all files, as keys. -/
def stagedKeys (listing extraFiles : List (Text × Text)) : List Text :=
  (listing ++ extraFiles).map fun file => keyOf file.1

theorem mem_keys_foldl (files : List (Text × Text)) (key : Text) :
    key ∈ (files.foldl putSource []).map (·.1) ↔
      key ∈ files.map fun file => keyOf file.1 := by
  induction files using List.reverseRecOn with
  | nil => simp
  | append_singleton before file ih =>
      rw [List.foldl_concat, List.map_append, List.mem_append, ← ih]
      unfold putSource
      simp only [List.map_append, List.mem_append, List.map_singleton,
        List.mem_singleton, List.mem_map, List.mem_filter]
      constructor
      · intro hmem
        rcases hmem with ⟨known, hknown, rfl⟩ | hnew
        · exact Or.inl ⟨known, hknown.1, rfl⟩
        · exact Or.inr hnew
      · intro hmem
        by_cases hnew : key = keyOf file.1
        · exact Or.inr hnew
        · left
          rcases hmem.resolve_right hnew with ⟨known, hknown, rfl⟩
          exact ⟨known, ⟨hknown, by simpa using hnew⟩, rfl⟩

theorem mem_ordered (listing extraFiles : List (Text × Text)) (key : Text) :
    key ∈ ordered (sourcesOf listing extraFiles) ↔
      key ∈ stagedKeys listing extraFiles := by
  unfold ordered
  rw [(List.perm_insertionSort _ _).mem_iff]
  exact mem_keys_foldl _ key

/-! ## The forest of directories -/

section

variable (context : UrlContext)

/-- The paths from the install folder down to this one. -/
def chain (path : Text) : List Text :=
  match parentPath context path with
  | none => [path]
  | some parent =>
      if parent.length < path.length then chain parent ++ [path] else [path]
termination_by path.length

def chainOf : Option Text → List Text
  | none => []
  | some path => chain context path

def parentOf (directory : MsiDirectory) : List Text :=
  chainOf context directory.parentRelativePath

variable {context}

theorem getLast?_chain (path : Text) :
    (chain context path).getLast? = some path := by
  rw [chain]
  split
  · rfl
  · split
    · exact List.getLast?_concat
    · rfl

theorem chainOf_injective : Function.Injective (chainOf context) := by
  intro a b hsame
  have hlast (path : Option Text) : (chainOf context path).getLast? = path := by
    cases path with
    | none => rfl
    | some path => exact getLast?_chain path
  rw [← hlast a, hsame, hlast b]

theorem chain_eq {path : Text} (hrootless : context.rooted path = false) :
    chain context path =
      chainOf context (parentPath context path) ++ [path] := by
  rw [chain]
  cases hparent : parentPath context path with
  | none => rfl
  | some parent =>
      exact if_pos (parentPath_rootless hrootless hparent).2

theorem Registered.pathOf_eq {known : List MsiDirectory}
    (hknown : Registered context known) {directory : MsiDirectory}
    (hdirectory : directory ∈ known) :
    PathForest.pathOf (parentOf context) MsiDirectory.relativePath directory =
      chain context directory.relativePath := by
  rw [chain_eq (hknown.rootless directory hdirectory),
    ← hknown.parents directory hdirectory]
  rfl

theorem Registered.forest {known : List MsiDirectory}
    (hknown : Registered context known) :
    PathForest.Distinct (parentOf context) MsiDirectory.relativePath known ∧
      PathForest.Closed (parentOf context) MsiDirectory.relativePath
        known := by
  constructor
  · apply hknown.distinct.of_map.map_on
    intro a ha b hb hsame
    rw [hknown.pathOf_eq ha, hknown.pathOf_eq hb] at hsame
    have hpath : some a.relativePath = some b.relativePath :=
      chainOf_injective hsame
    exact List.inj_on_of_nodup_map hknown.distinct ha hb
      (Option.some.inj hpath)
  · intro directory hdirectory hne
    cases hparent : directory.parentRelativePath with
    | none =>
        exfalso
        apply hne
        rw [parentOf, hparent]
        rfl
    | some parent =>
        rcases hknown.closed directory hdirectory parent hparent with
          ⟨other, hother, hpath⟩
        refine ⟨other, hother, ?_⟩
        rw [hknown.pathOf_eq hother, hpath, parentOf, hparent]
        rfl

theorem childrenOf_eq (tree : MsiComponentTree) (parent : Option Text) :
    tree.childrenOf parent =
      PathForest.childrenOf (parentOf context) tree.directories
        (chainOf context parent) := by
  unfold MsiComponentTree.childrenOf PathForest.childrenOf
  apply List.filter_congr
  intro directory _
  rw [decide_eq_decide]
  exact chainOf_injective.eq_iff.symm

/-- The parents of a registered directory lead up to the install folder. -/
theorem Registered.reaches {tree : MsiComponentTree}
    (hregistered : Registered context tree.directories)
    {directory : MsiDirectory} (hdirectory : directory ∈ tree.directories) :
    tree.Reaches directory := by
  induction hlength : directory.relativePath.length
    using Nat.strong_induction_on generalizing directory with
  | _ length ih =>
      cases hparent : directory.parentRelativePath with
      | none => exact .top hdirectory hparent
      | some parent =>
          rcases hregistered.closed directory hdirectory parent hparent with
            ⟨other, hother, rfl⟩
          have hup := hregistered.parents directory hdirectory
          rw [hparent] at hup
          have hshorter := parentPath_rootless
            (hregistered.rootless directory hdirectory) hup.symm
          apply MsiComponentTree.Reaches.under hdirectory hparent
          exact ih _ (hlength ▸ hshorter.2) hother rfl

end

/-! ## What is rendered -/

section

variable {tree : MsiComponentTree}

theorem emitted_componentsOf (directoryId : Text) (indent : Nat) :
    (tree.componentsOf directoryId indent).filterMap Tag.emitted =
      tree.componentsIn directoryId := by
  unfold MsiComponentTree.componentsOf
  rw [List.filterMap_map]
  exact List.filterMap_some

theorem exists_lines {step : MsiDirectory → Option (List Tag)}
    {emits : MsiDirectory → List MsiComponent}
    {directories : List MsiDirectory}
    (hsteps : ∀ directory ∈ directories, ∃ tags,
      step directory = some tags ∧
        tags.filterMap Tag.emitted = emits directory) :
    ∃ lines, directories.mapM step = some lines ∧
      lines.flatten.filterMap Tag.emitted = directories.flatMap emits := by
  induction directories with
  | nil => exact ⟨[], rfl, rfl⟩
  | cons directory rest ih =>
      rcases hsteps directory (List.mem_cons_self ..) with ⟨tags, htags, hemits⟩
      rcases ih fun other hother => hsteps other
        (List.mem_cons_of_mem _ hother) with ⟨lines, hlines, hrest⟩
      refine ⟨tags :: lines, ?_, ?_⟩
      · rw [List.mapM_cons, htags, hlines]
        rfl
      · rw [List.flatten_cons, List.filterMap_append, hemits, hrest,
          List.flatMap_cons]

/-- The rendering comes back once the fuel is above the height of what is
below, and emits the components of each directory it visits. -/
theorem exists_childDirectories {context : UrlContext}
    (hregistered : Registered context tree.directories) {fuel : Nat}
    {parent : Option Text} {indent : Nat}
    (hfuel : PathForest.below (parentOf context) tree.directories
      (chainOf context parent) < fuel) :
    ∃ tags, tree.childDirectories fuel parent indent = some tags ∧
      tags.filterMap Tag.emitted =
        (PathForest.visits (parentOf context) MsiDirectory.relativePath
          tree.directories (chainOf context parent)).flatMap
            fun directory => tree.componentsIn directory.id := by
  induction fuel generalizing parent indent with
  | zero => exact absurd hfuel (Nat.not_lt_zero _)
  | succ fuel ih =>
      unfold MsiComponentTree.childDirectories
      rw [PathForest.visits_eq, ← childrenOf_eq]
      have hchildren : ∀ directory ∈ tree.childrenOf parent, ∃ tags,
          (do
            let inside ← tree.childDirectories fuel
              (some directory.relativePath) (indent + 2)
            some (.directory indent directory ::
              tree.componentsOf directory.id (indent + 2) ++ inside ++
              [.close indent])) = some tags ∧
            tags.filterMap Tag.emitted =
              tree.componentsIn directory.id ++
                (PathForest.visits (parentOf context)
                  MsiDirectory.relativePath tree.directories
                  (PathForest.pathOf (parentOf context)
                    MsiDirectory.relativePath directory)).flatMap
                  fun below => tree.componentsIn below.id := by
        intro directory hdirectory
        have hmem : directory ∈ tree.directories :=
          (List.mem_filter.mp hdirectory).1
        rw [childrenOf_eq] at hdirectory
        have hlower : PathForest.below (parentOf context) tree.directories
            (PathForest.pathOf (parentOf context) MsiDirectory.relativePath
              directory) <
            PathForest.below (parentOf context) tree.directories
              (chainOf context parent) :=
          PathForest.below_lt hdirectory
        rw [hregistered.pathOf_eq hmem] at hlower ⊢
        have hinside := @ih (some directory.relativePath) (indent + 2)
          (by rw [chainOf]; omega)
        rcases hinside with ⟨inside, hinside, hemits⟩
        refine ⟨_, by rw [hinside]; rfl, ?_⟩
        simp only [List.filterMap_append, List.filterMap_cons,
          List.cons_append, emitted_componentsOf, hemits, chainOf]
        simp [Tag.emitted]
      rcases exists_lines hchildren with ⟨lines, hlines, hemits⟩
      refine ⟨lines.flatten, by rw [hlines]; rfl, ?_⟩
      rw [hemits, List.flatMap_assoc]
      simp

theorem childDirectories_mono {fuel more : Nat} (hmore : fuel ≤ more)
    {parent : Option Text} {indent : Nat} {tags : List Tag}
    (htags : tree.childDirectories fuel parent indent = some tags) :
    tree.childDirectories more parent indent = some tags := by
  induction fuel generalizing more parent indent tags with
  | zero => cases htags
  | succ fuel ih =>
      cases more with
      | zero => exact absurd hmore (Nat.not_succ_le_zero fuel)
      | succ more =>
          unfold MsiComponentTree.childDirectories at htags ⊢
          rcases Option.bind_eq_some_iff.mp htags with ⟨lines, hlines, hall⟩
          apply Option.bind_eq_some_iff.mpr
          refine ⟨lines, ?_, hall⟩
          apply FallibleSteps.mapM_eq_some_of_imp _ hlines
          intro directory line hline
          rcases Option.bind_eq_some_iff.mp hline with ⟨inside, hinside, hsame⟩
          apply Option.bind_eq_some_iff.mpr
          exact ⟨inside, ih (Nat.le_of_succ_le_succ hmore) hinside, hsame⟩

end

/-! ## Every component once -/

section

variable {Key Item : Type} [DecidableEq Key] [BEq Key] [LawfulBEq Key]
  [DecidableEq Item] {keyOf : Item → Key} {keys : List Key} {items : List Item}

theorem count_flatMap_filter (item : Item) :
    (keys.flatMap fun key =>
        items.filter fun other => keyOf other = key).count item =
      keys.count (keyOf item) * items.count item := by
  induction keys with
  | nil => simp
  | cons key rest ih =>
      rw [List.flatMap_cons, List.count_append, ih, List.count_cons]
      by_cases hkey : keyOf item = key
      · rw [List.count_filter (by simpa using hkey), hkey]
        simp
        ring
      · have hnone : (items.filter fun other =>
            keyOf other = key).count item = 0 := by
          apply List.count_eq_zero.mpr
          intro hmem
          exact hkey (by simpa using (List.mem_filter.mp hmem).2)
        have hother : (key == keyOf item) = false := by
          rw [beq_eq_false_iff_ne]
          exact fun hsame => hkey hsame.symm
        simp [hnone, hother]

/-- What is picked key by key is everything exactly when each key that is
used stands once. -/
theorem perm_flatMap_filter_iff :
    (keys.flatMap fun key =>
        items.filter fun other => keyOf other = key).Perm items ↔
      ∀ item ∈ items, keys.count (keyOf item) = 1 := by
  rw [List.perm_iff_count]
  constructor
  · intro hcounts item hitem
    have hcount := hcounts item
    rw [count_flatMap_filter] at hcount
    have hpositive := List.count_pos_iff.mpr hitem
    exact Nat.eq_of_mul_eq_mul_right hpositive (hcount.trans (one_mul _).symm)
  · intro hkeys item
    rw [count_flatMap_filter]
    by_cases hitem : item ∈ items
    · rw [hkeys item hitem, one_mul]
    · rw [List.count_eq_zero.mpr hitem, mul_zero]

omit [DecidableEq Key] in
theorem count_map_eq_one_iff (hnodup : items.Nodup) {item : Item}
    (hitem : item ∈ items) :
    (items.map keyOf).count (keyOf item) = 1 ↔
      ∀ other ∈ items, keyOf other = keyOf item → other = item := by
  have hperm := (List.perm_cons_erase hitem).map keyOf
  rw [hperm.count_eq, List.map_cons, List.count_cons_self, Nat.add_eq_right,
    List.count_eq_zero]
  constructor
  · intro hnone other hother hsame
    by_contra hne
    apply hnone
    rw [← hsame]
    exact List.mem_map_of_mem ((hnodup.mem_erase_iff).mpr ⟨hne, hother⟩)
  · intro hall hmem
    rcases List.mem_map.mp hmem with ⟨other, hother, hsame⟩
    have hboth := (hnodup.mem_erase_iff).mp hother
    exact hboth.1 (hall other hboth.2 hsame)

end

/-! ## Trees that are sound -/

theorem directoryIdFor_eq_iff (a b : Text) :
    directoryIdFor a = directoryIdFor b ↔
      WixText.Confused (text "dir." ++ a) (text "dir." ++ b) :=
  WixText.identifier_eq_iff rfl rfl (text "d")

/-- No directory is taken for the install folder. -/
theorem directoryIdFor_ne_installFolder (path : Text) :
    directoryIdFor path ≠ installFolder := by
  have hhead : (directoryIdFor path).head? = some 100 := by
    unfold directoryIdFor
    rw [WixText.identifier_eq rfl]
    split <;> rfl
  intro hsame
  rw [hsame] at hhead
  exact absurd hhead (by decide)

/-- No path has a root, and no directory that holds a file is confused with
another directory. -/
structure Kept (context : UrlContext) (keys : List Text) : Prop where
  rootless : ∀ key ∈ keys, context.rooted key = false
  apart : ∀ key ∈ keys, ∀ parent, parentPath context key = some parent →
    ∀ other, IsDirectory context keys other → other ≠ parent →
      ¬ WixText.Confused (text "dir." ++ other) (text "dir." ++ parent)

section

variable {context : UrlContext}

theorem kept_congr {keys others : List Text}
    (hmem : ∀ key, key ∈ keys ↔ key ∈ others) :
    Kept context keys ↔ Kept context others := by
  have hdirectories (path : Text) :
      IsDirectory context keys path ↔ IsDirectory context others path := by
    simp only [IsDirectory, hmem]
  constructor
  · intro hkept
    rcases hkept with ⟨hrootless, hapart⟩
    simp only [hmem, hdirectories] at hrootless hapart
    exact ⟨hrootless, hapart⟩
  · intro hkept
    rcases hkept with ⟨hrootless, hapart⟩
    simp only [← hmem, ← hdirectories] at hrootless hapart
    exact ⟨hrootless, hapart⟩

variable {tree : MsiComponentTree}

/-- Some fuel is enough to render, and what is emitted is what the
directories hold. -/
theorem rendered_iff (hregistered : Registered context tree.directories) :
    (∀ indent, ∃ fuel tags,
      tree.insideInstallFolder fuel indent = some tags ∧
        (tags.filterMap Tag.emitted).Perm tree.components) ↔
      ((installFolder :: tree.directories.map (·.id)).flatMap
        tree.componentsIn).Perm tree.components := by
  have hforest := hregistered.forest
  have hvisits := PathForest.perm_visits hforest.1 hforest.2
  have hall (indent : Nat) : ∃ fuel tags,
      tree.childDirectories fuel none indent = some tags ∧
        (tree.componentsIn installFolder ++ tags.filterMap Tag.emitted).Perm
          ((installFolder :: tree.directories.map (·.id)).flatMap
            tree.componentsIn) := by
    rcases @exists_childDirectories tree context hregistered
      (PathForest.below (parentOf context) tree.directories [] + 1) none indent
      (Nat.lt_succ_self _) with ⟨tags, htags, hemits⟩
    refine ⟨_, tags, htags, ?_⟩
    rw [hemits, List.flatMap_cons, List.flatMap_map]
    exact (hvisits.flatMap_right _).append_left _
  constructor
  · intro hrendered
    rcases hrendered 0 with ⟨fuel, tags, htags, hperm⟩
    rcases Option.bind_eq_some_iff.mp htags with ⟨inside, hinside, hsame⟩
    rcases hall 0 with ⟨more, found, hfound, hemits⟩
    have hmost := childDirectories_mono (le_max_left fuel more) hinside
    rw [childDirectories_mono (le_max_right fuel more) hfound] at hmost
    obtain rfl := Option.some.inj hmost
    obtain rfl := Option.some.inj hsame
    rw [List.filterMap_append, emitted_componentsOf] at hperm
    exact hemits.symm.trans hperm
  · intro hperm indent
    rcases hall indent with ⟨fuel, tags, htags, hemits⟩
    refine ⟨fuel, _, Option.bind_eq_some_iff.mpr ⟨tags, htags, rfl⟩, ?_⟩
    rw [List.filterMap_append, emitted_componentsOf]
    exact hemits.trans hperm

variable {keys : List Text} {scan : Scan}

theorem count_installFolder (hregistered : Registered context
    tree.directories) :
    (installFolder :: tree.directories.map (·.id)).count installFolder = 1 := by
  rw [List.count_cons_self, Nat.add_eq_right, List.count_eq_zero]
  intro hmem
  rcases List.mem_map.mp hmem with ⟨directory, hdirectory, hid⟩
  rw [hregistered.ids directory hdirectory] at hid
  exact directoryIdFor_ne_installFolder _ hid

/-- A directory is met once by its identifier when no other is confused with
it. -/
theorem count_directoryIdFor_iff (hregistered : Registered context
    tree.directories) {directory : MsiDirectory}
    (hdirectory : directory ∈ tree.directories) :
    (installFolder :: tree.directories.map (·.id)).count directory.id = 1 ↔
      ∀ other ∈ tree.directories,
        other.relativePath ≠ directory.relativePath →
          ¬ WixText.Confused (text "dir." ++ other.relativePath)
            (text "dir." ++ directory.relativePath) := by
  have hid := hregistered.ids directory hdirectory
  have hne : directory.id ≠ installFolder := by
    rw [hid]
    exact directoryIdFor_ne_installFolder _
  rw [List.count_cons_of_ne hne.symm,
    @count_map_eq_one_iff _ _ _ _ _ MsiDirectory.id _
      hregistered.distinct.of_map _ hdirectory]
  have hids (other : MsiDirectory) (hother : other ∈ tree.directories) :
      other.id = directory.id ↔
        WixText.Confused (text "dir." ++ other.relativePath)
          (text "dir." ++ directory.relativePath) := by
    rw [hregistered.ids other hother, hid, directoryIdFor_eq_iff]
  constructor
  · intro hall other hother hpath hconfused
    apply hpath
    rw [hall other hother ((hids other hother).mpr hconfused)]
  · intro hapart other hother hsame
    by_contra hneither
    apply hapart other hother _ ((hids other hother).mp hsame)
    intro hpath
    apply hneither
    exact List.inj_on_of_nodup_map hregistered.distinct hother hdirectory hpath

/-- The tree of a scan that came back is sound exactly when no directory that
holds a file is confused with another. -/
theorem Scanned.sound_iff (hscanned : Scanned context keys scan)
    (hrootless : ∀ key ∈ keys, context.rooted key = false)
    (hcomponents : tree.components = scan.components)
    (hdirectories : tree.directories.Perm scan.directories) :
    tree.Sound ↔ Kept context keys := by
  have hregistered := hscanned.registered.perm hdirectories
  have hadded : ∀ key ∈ keys, ∀ parent, parentPath context key = some parent →
      ∃ directory ∈ tree.directories, directory.relativePath = parent := by
    intro key hkey parent hparent
    simpa only [hdirectories.mem_iff] using
      hscanned.added key hkey parent hparent
  have hplaced (component : MsiComponent)
      (hcomponent : component ∈ tree.components) :
      component.relativePath ∈ keys ∧
        component.directoryId =
          directoryIdOf context component.relativePath := by
    have hmem : (component.relativePath, component.directoryId) ∈
        keys.map fun key => (key, directoryIdOf context key) := by
      rw [← hscanned.placed, ← hcomponents]
      exact List.mem_map_of_mem hcomponent
    rcases List.mem_map.mp hmem with ⟨key, hkey, hpair⟩
    rcases Prod.mk.inj hpair with ⟨rfl, hid⟩
    exact ⟨hkey, hid.symm⟩
  have hcomponentOf (key : Text) (hkey : key ∈ keys) :
      ∃ component ∈ tree.components,
        component.directoryId = directoryIdOf context key := by
    have hmem : (key, directoryIdOf context key) ∈ scan.components.map
        fun component => (component.relativePath, component.directoryId) := by
      rw [hscanned.placed]
      exact List.mem_map_of_mem hkey
    rcases List.mem_map.mp hmem with ⟨component, hcomponent, hpair⟩
    refine ⟨component, hcomponents ▸ hcomponent, ?_⟩
    exact (Prod.mk.inj hpair).2
  constructor
  · intro hsound
    refine ⟨hrootless, ?_⟩
    intro key hkey parent hparent other hother hne hconfused
    rcases hadded key hkey parent hparent with ⟨directory, hdirectory, rfl⟩
    rcases hcomponentOf key hkey with ⟨component, hcomponent, hid⟩
    have hcount := perm_flatMap_filter_iff.mp
      ((rendered_iff hregistered).mp hsound.rendered) component hcomponent
    have hsame : component.directoryId = directory.id := by
      rw [hid, hregistered.ids directory hdirectory, directoryIdOf, hparent]
    rw [hsame, count_directoryIdFor_iff hregistered hdirectory] at hcount
    rcases hother with ⟨below, hbelow, up, hup, habove⟩
    rcases hregistered.above habove (hadded below hbelow up hup)
      with ⟨found, hfound, rfl⟩
    exact hcount found hfound hne hconfused
  · intro hkept
    constructor
    case placed =>
      intro component hcomponent
      rcases hplaced component hcomponent with ⟨hkey, hid⟩
      cases hparent : parentPath context component.relativePath with
      | none =>
          left
          rw [hid, directoryIdOf, hparent]
      | some parent =>
          right
          rcases hadded _ hkey parent hparent with ⟨directory, hdirectory, rfl⟩
          refine ⟨directory, hregistered.reaches hdirectory, ?_⟩
          rw [hid, directoryIdOf, hparent,
            hregistered.ids directory hdirectory]
    case rendered =>
      rw [rendered_iff hregistered]
      apply perm_flatMap_filter_iff.mpr
      intro component hcomponent
      rcases hplaced component hcomponent with ⟨hkey, hid⟩
      cases hparent : parentPath context component.relativePath with
      | none =>
          rw [hid, directoryIdOf, hparent]
          exact count_installFolder hregistered
      | some parent =>
          rcases hadded _ hkey parent hparent with ⟨directory, hdirectory, rfl⟩
          have hsame : component.directoryId = directory.id := by
            rw [hid, hregistered.ids directory hdirectory, directoryIdOf,
              hparent]
          rw [hsame, count_directoryIdFor_iff hregistered hdirectory]
          intro other hother hne
          apply hkept.apart _ hkey _ hparent _ _ hne
          exact hscanned.only other (hdirectories.mem_iff.mp hother)

end

/-! ## Scans that end well -/

section

variable {context : UrlContext} {guidFor : Text → Text}
  {appDirectory : Text} {files extraFiles : List (Text × Text)}

/-- A path with a root keeps the scan from coming back, however much fuel
there is. -/
theorem scan_eq_none {fuel : Nat}
    (hrooted : ∃ key ∈ stagedKeys files extraFiles,
      context.rooted key = true) :
    scan context guidFor appDirectory (some files) extraFiles fuel = none := by
  have hkeys : ∃ key ∈ ordered (sourcesOf files extraFiles),
      context.rooted key = true := by
    simpa only [mem_ordered] using hrooted
  have hsome : ¬ (sourcesOf files extraFiles).isEmpty = true := by
    intro hempty
    rcases hkeys with ⟨key, hkey, -⟩
    rw [List.isEmpty_iff.mp hempty] at hkey
    simp [ordered] at hkey
  unfold scan
  dsimp only
  rw [if_neg hsome, foldlM_eq_none hkeys]
  rfl

end

/-- The scan comes back with a failure or with a sound tree exactly when no
staged path has a root and no directory that holds a file is confused with
another. -/
theorem endsWell_iff (context : UrlContext) (guidFor : Text → Text)
    (appDirectory : Text) (listing : Option (List (Text × Text)))
    (extraFiles : List (Text × Text)) :
    EndsWell context guidFor appDirectory listing extraFiles ↔
      ∀ files, listing = some files →
        Kept context (stagedKeys files extraFiles) := by
  cases listing with
  | none =>
      constructor
      · intro _ files hfiles
        cases hfiles
      · intro _
        refine ⟨0, _, rfl, ?_⟩
        intro tree hok
        cases hok
  | some files =>
      have hmem := mem_ordered files extraFiles
      constructor
      · intro hends other hother
        obtain rfl := Option.some.inj hother
        rcases hends with ⟨fuel, outcome, hscan, hsound⟩
        have hrootless : ∀ key ∈ stagedKeys files extraFiles,
            context.rooted key = false := by
          intro key hkey
          rw [← Bool.not_eq_true]
          intro hrooted
          rw [scan_eq_none ⟨key, hkey, hrooted⟩] at hscan
          cases hscan
        rw [← kept_congr hmem]
        have hordered : ∀ key ∈ ordered (sourcesOf files extraFiles),
            context.rooted key = false :=
          fun key hkey => hrootless key ((hmem key).mp hkey)
        unfold scan at hscan
        dsimp only at hscan
        split at hscan
        · next hempty =>
            have hnone : ordered (sourcesOf files extraFiles) = [] := by
              rw [List.isEmpty_iff.mp hempty]
              rfl
            rw [hnone]
            constructor
            · simp
            · simp
        · rcases Option.bind_eq_some_iff.mp hscan with ⟨scanned, hfold, htree⟩
          have hscanned := scanned_of_foldlM_eq_some hordered hfold
          have hfound := hsound _ (Option.some.inj htree).symm
          exact (hscanned.sound_iff hordered rfl
            (List.perm_insertionSort _ _)).mp hfound
      · intro hkept
        have hkept := (kept_congr hmem).mpr (hkept files rfl)
        unfold EndsWell scan
        dsimp only
        by_cases hempty : (sourcesOf files extraFiles).isEmpty = true
        · refine ⟨0, _, if_pos hempty, ?_⟩
          intro tree hok
          cases hok
        · rcases exists_fuel hkept.rootless 0 with ⟨fuel, -, hshort⟩
          rcases @scanned_foldlM context guidFor
            (sourcesOf files extraFiles) _ fuel hshort
            with ⟨scanned, hfold, hscanned⟩
          refine ⟨fuel, _, (if_neg hempty).trans
            (Option.bind_eq_some_iff.mpr ⟨scanned, hfold, rfl⟩), ?_⟩
          intro tree hok
          obtain rfl := Except.ok.inj hok
          exact (hscanned.sound_iff hkept.rootless rfl
            (List.perm_insertionSort _ _)).mpr hkept

/-- A program and a helper in a directory of its own. -/
theorem endsWell_iff_helper :
    EndsWell packagePath id (text "build")
      (some [(text "app.exe", text "build/app.exe")])
      [(text "out/helper.exe", text "lib\\helper.exe")] := by
  rw [endsWell_iff]
  intro files hfiles
  obtain rfl := Option.some.inj hfiles
  have hkeys : stagedKeys [(text "app.exe", text "build/app.exe")]
      [(text "out/helper.exe", text "lib\\helper.exe")] =
        [text "app.exe", text "out/helper.exe"] := by decide
  have happ : parentPath packagePath (text "app.exe") = none := by decide
  have hhelper : parentPath packagePath (text "out/helper.exe") =
      some (text "out") := by decide
  have hout : parentPath packagePath (text "out") = none := by decide
  rw [hkeys]
  have hparent : ∀ key ∈ [text "app.exe", text "out/helper.exe"],
      ∀ parent, parentPath packagePath key = some parent →
        parent = text "out" := by
    intro key hkey parent hup
    rcases List.mem_cons.mp hkey with rfl | hkey
    · rw [happ] at hup
      cases hup
    · rw [List.mem_singleton.mp hkey, hhelper] at hup
      exact (Option.some.inj hup).symm
  constructor
  case rootless =>
    decide
  case apart =>
    intro key hkey parent hup other hother hne
    rcases hother with ⟨below, hbelow, found, hfound, habove⟩
    exfalso
    apply hne
    rw [hparent key hkey parent hup]
    rw [hparent below hbelow found hfound] at habove
    cases habove with
    | refl => rfl
    | tail _ hlast =>
        rw [IsParent, hout] at hlast
        cases hlast

/-- The directory of a file staged under the root is the root, whose directory
is the root again. -/
theorem not_endsWell_root :
    ¬ EndsWell packagePath id (text "build") (some [(text "app.exe",
        text "build/app.exe")])
      [(text "/helper.exe", text "out/helper.exe")] := by
  intro hends
  rcases hends with ⟨fuel, outcome, hscan, -⟩
  rw [scan_eq_none ⟨text "/helper.exe", by decide, by decide⟩] at hscan
  cases hscan

end Dovetail.Bundler.StagedText
