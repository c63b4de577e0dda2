import Dovetail.MsiComponentTree

/-!
# Rendering the component tree

Both renderers walk the directories from the install folder down and put the
components of each inside its element, found by the directory's identifier.
So every file stands once, and where it belongs, when the identifiers of the
directories differ; exactly where no two paths are confused do the files, the
components and the directories have distinct identifiers that WiX accepts.
-/

namespace Dovetail.Bundler

open CodeUnits
open WixText

/-! ## Elements -/

/-- What opens or closes an element, or a whole component. -/
inductive Tag where
  | directory (indent : Nat) (directory : MsiDirectory)
  | component (indent : Nat) (component : MsiComponent)
  | close (indent : Nat)

namespace MsiComponentTree

def componentsOf (tree : MsiComponentTree) (directoryId : Text)
    (indent : Nat) : List Tag :=
  (tree.componentsIn directoryId).map (.component indent)

/-- The directories below a path, each with its components and what is below
it. -/
def childDirectories (tree : MsiComponentTree)
    (parentRelativePath : List PathName) (indent : Nat) : List Tag :=
  (PathForest.childrenOf MsiDirectory.parentRelativePath tree.directories
    parentRelativePath).attach.flatMap fun directory =>
      .directory indent directory.1 ::
        componentsOf tree directory.1.id (indent + 2) ++
        childDirectories tree directory.1.relativePath (indent + 2) ++
        [.close indent]
termination_by PathForest.below MsiDirectory.parentRelativePath
  tree.directories parentRelativePath
decreasing_by
  rw [← pathOf_directory directory.1]
  exact PathForest.below_lt directory.2

/-- What is inside the element of the install folder. -/
def insideInstallFolder (tree : MsiComponentTree) (indent : Nat) : List Tag :=
  componentsOf tree installFolder indent ++ childDirectories tree [] indent

end MsiComponentTree

def pad (indent : Nat) : Text := List.replicate indent 32

namespace WixSource

/-- The lines of a tag. -/
def lines : Tag → List Text
  | .directory indent directory =>
      [pad indent ++ text "<Directory Id=\"" ++ directory.id ++
        text "\" Name=\"" ++ XmlText.attributeText directory.name.units ++
        text "\">"]
  | .component indent component =>
      [text "<Component Id=\"" ++ component.id ++ text "\" Guid=\"" ++
          component.guid ++ text "\">",
        text "  <File",
        text "    Id=\"" ++ component.fileId ++ text "\"",
        text "    Name=\"" ++ XmlText.attributeText component.fileName ++
          text "\"",
        text "    Source=\"$(var.StageDir)\\" ++
          XmlText.attributeText component.windowsRelativePath ++ text "\"",
        text "    KeyPath=\"yes\" />",
        text "</Component>"].map fun line => pad indent ++ line
  | .close indent => [pad indent ++ text "</Directory>"]

def directories (perMachine : Bool) (productName : Text)
    (tree : MsiComponentTree) : List Text :=
  [text "    <StandardDirectory Id=\"" ++
      (if perMachine then text "ProgramFiles64Folder"
        else text "LocalAppDataFolder") ++ text "\">",
    text "      <Directory Id=\"INSTALLFOLDER\" Name=\"" ++
      XmlText.attributeText productName ++ text "\">"] ++
    (tree.insideInstallFolder 8).flatMap lines ++
    [text "      </Directory>", text "    </StandardDirectory>"]

end WixSource

namespace WixlSource

def lines (x86_64 : Bool) : Tag → List Text
  | .directory indent directory =>
      [pad indent ++ text "<Directory Id=\"" ++ directory.id ++
        text "\" Name=\"" ++ XmlText.attributeText directory.name.units ++
        text "\">"]
  | .component indent component =>
      [text "<Component Id=\"" ++ component.id ++ text "\" Guid=\"" ++
          component.guid ++ text "\"" ++
          (if x86_64 then text " Win64=\"yes\"" else []) ++ text ">",
        text "  <File Id=\"" ++ component.fileId ++ text "\" Name=\"" ++
          XmlText.attributeText component.fileName ++ text "\" Source=\"" ++
          XmlText.attributeText component.source ++
          text "\" KeyPath=\"yes\" />",
        text "</Component>"].map fun line => pad indent ++ line
  | .close indent => [pad indent ++ text "</Directory>"]

def rootFolderFor (perMachine x86_64 : Bool) : Text :=
  if perMachine then
    if x86_64 then text "ProgramFiles64Folder" else text "ProgramFilesFolder"
  else text "LocalAppDataFolder"

def directories (perMachine x86_64 : Bool) (productName : Text)
    (tree : MsiComponentTree) : List Text :=
  [text "    <Directory Id=\"TARGETDIR\" Name=\"SourceDir\">",
    text "      <Directory Id=\"" ++ rootFolderFor perMachine x86_64 ++
      text "\">",
    text "        <Directory Id=\"INSTALLFOLDER\" Name=\"" ++
      XmlText.attributeText productName ++ text "\">"] ++
    (tree.insideInstallFolder 10).flatMap (lines x86_64) ++
    [text "        </Directory>", text "      </Directory>",
      text "    </Directory>"]

end WixlSource

/-! ## Where components are placed -/

/-- The components, each with the names of the directories it is inside. -/
def placements : List PathName → List Tag → List (List PathName × MsiComponent)
  | _, [] => []
  | inside, .directory _ directory :: rest =>
      placements (inside ++ [directory.name]) rest
  | inside, .component _ component :: rest =>
      (inside, component) :: placements inside rest
  | inside, .close _ :: rest => placements inside.dropLast rest

namespace MsiComponentTree

variable {tree : MsiComponentTree}

theorem childDirectories_eq (parentRelativePath : List PathName)
    (indent : Nat) :
    childDirectories tree parentRelativePath indent =
      (PathForest.childrenOf MsiDirectory.parentRelativePath tree.directories
        parentRelativePath).flatMap fun directory =>
          .directory indent directory ::
            componentsOf tree directory.id (indent + 2) ++
            childDirectories tree directory.relativePath (indent + 2) ++
            [.close indent] := by
  rw [childDirectories]
  conv_rhs =>
    rw [← List.attach_map_subtype_val (PathForest.childrenOf
      MsiDirectory.parentRelativePath tree.directories parentRelativePath),
      List.flatMap_map]

theorem placements_componentsOf (inside : List PathName) (directoryId : Text)
    (indent : Nat) (rest : List Tag) :
    placements inside (componentsOf tree directoryId indent ++ rest) =
      (tree.componentsIn directoryId).map (fun component =>
        (inside, component)) ++ placements inside rest := by
  unfold componentsOf
  induction tree.componentsIn directoryId with
  | nil => rfl
  | cons component others ih => simp [placements, ih]

/-- The components inside the element of a directory. -/
def placedIn (tree : MsiComponentTree) (directory : MsiDirectory) :
    List (List PathName × MsiComponent) :=
  (tree.componentsIn directory.id).map fun component =>
    (directory.relativePath, component)

/-- Rendering visits the directories, and leaves each element it enters. -/
theorem placements_childDirectories (tree : MsiComponentTree)
    (parent : List PathName) (indent : Nat)
    (rest : List Tag) :
    placements parent (childDirectories tree parent indent ++ rest) =
      (PathForest.visits MsiDirectory.parentRelativePath MsiDirectory.name
        tree.directories parent).flatMap (placedIn tree) ++
        placements parent rest := by
  induction parent using PathForest.induction_below
    MsiDirectory.parentRelativePath MsiDirectory.name tree.directories
    generalizing indent rest with
  | hstep parent ih =>
      rw [childDirectories_eq, PathForest.visits_eq]
      generalize hchildren : PathForest.childrenOf
        MsiDirectory.parentRelativePath tree.directories parent = children
          at ih ⊢
      have hparent : ∀ directory ∈ children,
          directory.parentRelativePath = parent := by
        intro directory hdirectory
        rw [← hchildren] at hdirectory
        exact (PathForest.mem_childrenOf.mp hdirectory).2
      clear hchildren
      induction children with
      | nil => rfl
      | cons directory others ihOthers =>
          have hinside : parent ++ [directory.name] = directory.relativePath := by
            rw [← hparent directory (List.mem_cons_self ..)]
            exact directory.spells
          have hdeeper := ih directory (List.mem_cons_self ..) (indent + 2)
          rw [pathOf_directory] at hdeeper
          have hothers := ihOthers
            (fun other hother => ih other (List.mem_cons_of_mem _ hother))
            (fun other hother => hparent other (List.mem_cons_of_mem _ hother))
          have hleft : directory.relativePath.dropLast = parent := by
            rw [← hinside, List.dropLast_concat]
          simp only [List.cons_append, List.append_assoc, pathOf_directory]
            at hothers
          simp only [List.flatMap_cons, List.cons_append, List.append_assoc,
            List.nil_append, placements, hinside, placements_componentsOf,
            hdeeper, hleft, hothers, pathOf_directory, List.flatMap_append]
          rfl

theorem placements_insideInstallFolder (indent : Nat) :
    placements [] (tree.insideInstallFolder indent) =
      (tree.componentsIn installFolder).map (fun component =>
        ([], component)) ++
      (PathForest.visits MsiDirectory.parentRelativePath MsiDirectory.name
        tree.directories []).flatMap (placedIn tree) := by
  unfold insideInstallFolder
  rw [placements_componentsOf]
  have hrest := placements_childDirectories tree [] indent []
  rw [List.append_nil] at hrest
  rw [hrest]
  simp [placements]

/-! ## What the tree promises -/

/-- The identifiers of directories, of components and of files are distinct,
and WiX accepts them. -/
structure Identified (tree : MsiComponentTree) : Prop where
  directories : (tree.directories.map (·.id)).Nodup
  components : (tree.components.map (·.id)).Nodup
  files : (tree.components.map (·.fileId)).Nodup
  valid : ∀ id ∈ tree.directories.map (·.id) ++ tree.components.map (·.id) ++
    tree.components.map (·.fileId), IsIdentifier id

/-- Every staged file has one component, placed once, inside the directories
its own path names. -/
structure RenderedOnce (staged : List StagedPath) (tree : MsiComponentTree) :
    Prop where
  nodup : (tree.components.map (·.relativePath)).Nodup
  staged : ∀ path, path ∈ tree.components.map (·.relativePath) ↔
    path ∈ staged
  placed : ∀ indent, (placements [] (tree.insideInstallFolder indent)).Perm
    (tree.components.map fun component =>
      (component.relativePath.dirname, component))

def staged (listing extraFiles : List (StagedPath × Text)) :
    List StagedPath :=
  (listing ++ extraFiles).map (·.1)

def KeepsApart (guidFor : Text → Text) (appDirectory : Text)
    (listing extraFiles : List (StagedPath × Text)) : Prop :=
  ∀ tree, scan guidFor appDirectory (some listing) extraFiles = .ok tree →
    Identified tree ∧ RenderedOnce (staged listing extraFiles) tree

/-- A directory on the way to a staged file. -/
def IsDirectory (paths : List StagedPath) (directory : List PathName) :
    Prop :=
  directory ≠ [] ∧ ∃ path ∈ paths, directory <+: path.dirname

/-- No two of the paths are confused in an identifier. -/
structure Unconfused (paths : List StagedPath) : Prop where
  files : ∀ a ∈ paths, ∀ b ∈ paths, a ≠ b →
    ¬ Confused (text "file." ++ a.relative) (text "file." ++ b.relative)
  components : ∀ a ∈ paths, ∀ b ∈ paths, a ≠ b →
    ¬ Confused (text "cmp." ++ a.relative) (text "cmp." ++ b.relative)
  directories : ∀ a b, IsDirectory paths a → IsDirectory paths b → a ≠ b →
    ¬ Confused (text "dir." ++ pathText a) (text "dir." ++ pathText b)

theorem fileId_eq_iff (a b : MsiComponent) :
    a.fileId = b.fileId ↔
      Confused (text "file." ++ a.relativePath.relative)
        (text "file." ++ b.relativePath.relative) :=
  identifier_eq_iff rfl rfl (text "f")

theorem directoryIdFor_eq_iff (a b : List PathName) :
    directoryIdFor a = directoryIdFor b ↔
      Confused (text "dir." ++ pathText a) (text "dir." ++ pathText b) :=
  identifier_eq_iff rfl rfl (text "d")

theorem candidateFor_eq_iff (a b : StagedPath) :
    candidateFor a = candidateFor b ↔
      Confused (text "cmp." ++ a.relative) (text "cmp." ++ b.relative) :=
  identifier_eq_iff rfl rfl (text "c")

theorem isIdentifier_fileId (component : MsiComponent) :
    IsIdentifier component.fileId :=
  isIdentifier_identifier _ (by decide) rfl

theorem isIdentifier_directoryIdFor (path : List PathName) :
    IsIdentifier (directoryIdFor path) :=
  isIdentifier_identifier _ (by decide) rfl

theorem isIdentifier_candidateFor (path : StagedPath) :
    IsIdentifier (candidateFor path) :=
  isIdentifier_identifier _ (by decide) rfl

/-- No directory of the tree is taken for the install folder. -/
theorem directoryIdFor_ne_installFolder (path : List PathName) :
    directoryIdFor path ≠ installFolder := by
  have hhead : (directoryIdFor path).head? = some 100 := by
    unfold directoryIdFor
    rw [identifier_eq rfl]
    split <;> rfl
  intro hsame
  rw [hsame] at hhead
  exact absurd hhead (by decide)

/-- Candidates that repeat at a length that leaves room for a suffix are
those of files that are confused. -/
theorem confused_of_short {a b : StagedPath}
    (hsame : candidateFor a = candidateFor b)
    (hshort : (candidateFor a).length < identifierLimit) :
    Confused (text "file." ++ a.relative) (text "file." ++ b.relative) := by
  have hkept (path : StagedPath)
      (hpath : (candidateFor path).length < identifierLimit) :
      candidateFor path = sanitized (text "cmp." ++ path.relative) ∧
        (text "file." ++ path.relative).length ≤ identifierLimit := by
    unfold candidateFor at hpath ⊢
    rw [identifier_eq rfl] at hpath ⊢
    split at hpath
    · refine ⟨if_pos ‹_›, ?_⟩
      rw [length_sanitized, List.length_append] at hpath
      rw [List.length_append]
      have hcmp : (text "cmp.").length = 4 := rfl
      have hfile : (text "file.").length = 5 := rfl
      omega
    · next hlong =>
        rw [length_shortened hlong] at hpath
        exact absurd hpath (lt_irrefl _)
  obtain ⟨ha, hfileA⟩ := hkept a hshort
  obtain ⟨hb, hfileB⟩ := hkept b (hsame ▸ hshort)
  have hunits : sanitized a.relative = sanitized b.relative := by
    have hboth : sanitized (text "cmp." ++ a.relative) =
        sanitized (text "cmp." ++ b.relative) := by rw [← ha, hsame, hb]
    unfold sanitized at hboth ⊢
    rw [List.map_append, List.map_append] at hboth
    exact List.append_cancel_left hboth
  unfold Confused
  rw [if_pos hfileA, if_pos hfileB]
  unfold sanitized at hunits ⊢
  rw [List.map_append, List.map_append, hunits]

/-! ## What every tree holds -/

theorem Registered.perm {known others : List MsiDirectory}
    (hknown : Registered known) (hperm : others.Perm known) :
    Registered others where
  distinct := (hperm.map _).nodup_iff.mpr hknown.distinct
  closed := by
    intro directory hdirectory hne
    obtain ⟨other, hother, hpath⟩ :=
      hknown.closed directory (hperm.mem_iff.mp hdirectory) hne
    exact ⟨other, hperm.mem_iff.mpr hother, hpath⟩
  ids := fun directory hdirectory =>
    hknown.ids directory (hperm.mem_iff.mp hdirectory)

/-- The tree of these paths. -/
structure Built (paths : List StagedPath) (tree : MsiComponentTree) :
    Prop where
  nodup : paths.Nodup
  registered : Registered tree.directories
  isDirectory : ∀ path, IsDirectory paths path ↔
    ∃ directory ∈ tree.directories, directory.relativePath = path
  staged : tree.components.map (·.relativePath) = paths
  inside : ∀ component ∈ tree.components,
    component.directoryId = directoryIdOf component.relativePath.dirname
  ids : (tree.components.map (·.id)).Nodup
  plain : (paths.map candidateFor).Nodup → ∀ component ∈ tree.components,
    component.id = candidateFor component.relativePath
  repeated : ¬ (paths.map candidateFor).Nodup →
    ∃ component ∈ tree.components, ∃ suffix,
      component.id = suffixed (candidateFor component.relativePath) suffix ∧
        ∃ other ∈ paths, other ≠ component.relativePath ∧
          candidateFor other = candidateFor component.relativePath

theorem relativePath_ne_nil (directory : MsiDirectory) :
    directory.relativePath ≠ [] := by
  rw [← directory.spells]
  simp

theorem built_of_scan_eq_ok {guidFor : Text → Text} {appDirectory : Text}
    {listing extraFiles : List (StagedPath × Text)}
    (hscan : scan guidFor appDirectory (some listing) extraFiles = .ok tree) :
    ∃ paths, Built paths tree ∧
      ∀ path, path ∈ paths ↔ path ∈ staged listing extraFiles := by
  obtain ⟨paths, scanned, hscanned, hnodup, hmem, hcomponents, hdirectories⟩ :=
    scanned_of_scan_eq_ok hscan
  have hregistered := hscanned.registered.perm hdirectories
  refine ⟨paths, ?_, hmem⟩
  constructor
  · exact hnodup
  · exact hregistered
  · intro path
    constructor
    · rintro ⟨hne, staged, hstaged, habove⟩
      have hdirname : staged.dirname ≠ [] := by
        rintro hroot
        rw [hroot] at habove
        exact hne (List.prefix_nil.mp habove)
      obtain ⟨directory, hdirectory, hsame⟩ :=
        hscanned.added staged hstaged hdirname
      rw [← hsame, ← pathOf_directory] at habove
      obtain ⟨other, hother, hpath⟩ := PathForest.exists_of_prefix
        hscanned.registered.closed hdirectory hne habove
      exact ⟨other, hdirectories.mem_iff.mpr hother,
        by rw [← hpath, pathOf_directory]⟩
    · rintro ⟨directory, hdirectory, rfl⟩
      exact ⟨relativePath_ne_nil directory,
        hscanned.only directory (hdirectories.mem_iff.mp hdirectory)⟩
  · rw [hcomponents, hscanned.staged]
  · rw [hcomponents]
    exact hscanned.inside
  · rw [hcomponents, hscanned.used]
    exact hscanned.distinct
  · rw [hcomponents]
    exact hscanned.plain
  · rw [hcomponents]
    exact hscanned.repeated

section

variable {paths : List StagedPath}

theorem Built.component_eq (hbuilt : Built paths tree)
    {component other : MsiComponent} (hcomponent : component ∈ tree.components)
    (hother : other ∈ tree.components)
    (hsame : component.relativePath = other.relativePath) :
    component = other := by
  have hnodup := hbuilt.nodup
  rw [← hbuilt.staged] at hnodup
  exact List.inj_on_of_nodup_map hnodup hcomponent hother hsame

theorem Built.directory_eq (hbuilt : Built paths tree)
    {directory other : MsiDirectory}
    (hdirectory : directory ∈ tree.directories)
    (hother : other ∈ tree.directories)
    (hsame : directory.relativePath = other.relativePath) :
    directory = other := by
  apply List.inj_on_of_nodup_map hbuilt.registered.distinct hdirectory hother
  rw [pathOf_directory, pathOf_directory, hsame]

theorem Built.exists_component (hbuilt : Built paths tree) {path : StagedPath}
    (hpath : path ∈ paths) :
    ∃ component ∈ tree.components, component.relativePath = path := by
  rw [← hbuilt.staged] at hpath
  exact List.mem_map.mp hpath

theorem Built.mem_paths (hbuilt : Built paths tree) {component : MsiComponent}
    (hcomponent : component ∈ tree.components) :
    component.relativePath ∈ paths := by
  rw [← hbuilt.staged]
  exact List.mem_map_of_mem hcomponent

/-- Where directories are told apart, a component is placed inside its own
alone. -/
theorem Built.mem_placements (hbuilt : Built paths tree)
    (hids : (tree.directories.map (·.id)).Nodup) {inside : List PathName}
    {component : MsiComponent} (indent : Nat) :
    (inside, component) ∈ placements [] (tree.insideInstallFolder indent) ↔
      component ∈ tree.components ∧
        inside = component.relativePath.dirname := by
  have hvisits := PathForest.perm_visits hbuilt.registered.distinct
    hbuilt.registered.closed
  rw [placements_insideInstallFolder]
  simp only [List.mem_append, List.mem_map, List.mem_flatMap, placedIn,
    componentsIn, List.mem_filter, decide_eq_true_eq, Prod.mk.injEq,
    hvisits.mem_iff]
  constructor
  · rintro (⟨found, ⟨hfound, hroot⟩, rfl, rfl⟩ |
      ⟨directory, hdirectory, found, ⟨hfound, hid⟩, rfl, rfl⟩)
    · refine ⟨hfound, ?_⟩
      rw [hbuilt.inside found hfound] at hroot
      unfold directoryIdOf at hroot
      split at hroot
      · next hdirname => exact hdirname.symm
      · exact absurd hroot (directoryIdFor_ne_installFolder _)
    · refine ⟨hfound, ?_⟩
      rw [hbuilt.inside found hfound, hbuilt.registered.ids _ hdirectory] at hid
      unfold directoryIdOf at hid
      split at hid
      · exact absurd hid.symm (directoryIdFor_ne_installFolder _)
      · next hdirname =>
          obtain ⟨other, hother, hpath⟩ :=
            (hbuilt.isDirectory found.relativePath.dirname).mp
              ⟨hdirname, found.relativePath, hbuilt.mem_paths hfound,
                List.prefix_rfl⟩
          have hsame : directory = other := by
            apply List.inj_on_of_nodup_map hids hdirectory hother
            rw [hbuilt.registered.ids _ hdirectory,
              hbuilt.registered.ids _ hother, hpath, hid]
          rw [hsame, hpath]
  · rintro ⟨hcomponent, rfl⟩
    have hinside := hbuilt.inside component hcomponent
    unfold directoryIdOf at hinside
    split at hinside
    · next hdirname =>
        exact Or.inl ⟨component, ⟨hcomponent, hinside⟩, hdirname.symm, rfl⟩
    · next hdirname =>
        obtain ⟨directory, hdirectory, hpath⟩ :=
          (hbuilt.isDirectory component.relativePath.dirname).mp
            ⟨hdirname, component.relativePath, hbuilt.mem_paths hcomponent,
              List.prefix_rfl⟩
        refine Or.inr ⟨directory, hdirectory, component, ⟨hcomponent, ?_⟩,
          hpath, rfl⟩
        rw [hinside, hbuilt.registered.ids directory hdirectory, hpath]

theorem Built.nodup_placements (hbuilt : Built paths tree) (indent : Nat) :
    (placements [] (tree.insideInstallFolder indent)).Nodup := by
  have hcomponents : tree.components.Nodup := hbuilt.ids.of_map
  have hin (directoryId : Text) (inside : List PathName) :
      ((tree.componentsIn directoryId).map fun component =>
        (inside, component)).Nodup := by
    apply (hcomponents.filter _).map
    intro a b hsame
    exact (Prod.mk.inj hsame).2
  rw [placements_insideInstallFolder, List.nodup_append]
  refine ⟨hin installFolder [], ?_, ?_⟩
  · rw [List.nodup_flatMap]
    constructor
    · exact fun directory _ => hin directory.id directory.relativePath
    · have hvisits : (PathForest.visits MsiDirectory.parentRelativePath
          MsiDirectory.name tree.directories []).Nodup :=
        PathForest.nodup_visits hbuilt.registered.distinct []
      apply hvisits.imp_of_mem
      intro directory other hdirectory hother hne placed hplaced hagain
      obtain ⟨component, -, rfl⟩ := List.mem_map.mp hplaced
      obtain ⟨again, -, hsame⟩ := List.mem_map.mp hagain
      apply hne
      exact hbuilt.directory_eq (PathForest.of_mem_visits hdirectory).1
        (PathForest.of_mem_visits hother).1 (Prod.mk.inj hsame).1.symm
  · intro placed hplaced other hother hsame
    obtain ⟨component, -, rfl⟩ := List.mem_map.mp hplaced
    obtain ⟨directory, -, hdeeper⟩ := List.mem_flatMap.mp hother
    obtain ⟨again, -, rfl⟩ := List.mem_map.mp hdeeper
    exact relativePath_ne_nil directory (Prod.mk.inj hsame).1.symm

theorem Built.perm_placements (hbuilt : Built paths tree)
    (hids : (tree.directories.map (·.id)).Nodup) (indent : Nat) :
    (placements [] (tree.insideInstallFolder indent)).Perm
      (tree.components.map fun component =>
        (component.relativePath.dirname, component)) := by
  have hcomponents : (tree.components.map fun component =>
      (component.relativePath.dirname, component)).Nodup := by
    apply hbuilt.ids.of_map.map
    intro a b hsame
    exact (Prod.mk.inj hsame).2
  apply (List.perm_ext_iff_of_nodup (hbuilt.nodup_placements indent)
    hcomponents).mpr
  rintro ⟨inside, component⟩
  rw [hbuilt.mem_placements hids]
  simp only [List.mem_map, Prod.mk.injEq]
  constructor
  · rintro ⟨hcomponent, rfl⟩
    exact ⟨component, hcomponent, rfl, rfl⟩
  · rintro ⟨other, hother, rfl, rfl⟩
    exact ⟨hother, rfl⟩

/-! ## When the promise is kept -/

theorem Built.identified (hbuilt : Built paths tree)
    (hapart : Unconfused paths) : Identified tree := by
  have hcandidates : (paths.map candidateFor).Nodup := by
    apply hbuilt.nodup.map_on
    intro a ha b hb hsame
    by_contra hne
    exact hapart.components a ha b hb hne ((candidateFor_eq_iff a b).mp hsame)
  constructor
  · apply hbuilt.registered.distinct.of_map.map_on
    intro a ha b hb hsame
    by_contra hne
    have hpaths : a.relativePath ≠ b.relativePath :=
      fun hpath => hne (hbuilt.directory_eq ha hb hpath)
    rw [hbuilt.registered.ids a ha, hbuilt.registered.ids b hb,
      directoryIdFor_eq_iff] at hsame
    exact hapart.directories _ _ ((hbuilt.isDirectory _).mpr ⟨a, ha, rfl⟩)
      ((hbuilt.isDirectory _).mpr ⟨b, hb, rfl⟩) hpaths hsame
  · exact hbuilt.ids
  · apply hbuilt.ids.of_map.map_on
    intro a ha b hb hsame
    by_contra hne
    have hpaths : a.relativePath ≠ b.relativePath :=
      fun hpath => hne (hbuilt.component_eq ha hb hpath)
    exact hapart.files _ (hbuilt.mem_paths ha) _ (hbuilt.mem_paths hb) hpaths
      ((fileId_eq_iff a b).mp hsame)
  · intro id hid
    rcases List.mem_append.mp hid with hbefore | hfile
    · rcases List.mem_append.mp hbefore with hdirectories | hcomponents
      · obtain ⟨directory, hdirectory, rfl⟩ := List.mem_map.mp hdirectories
        rw [hbuilt.registered.ids directory hdirectory]
        exact isIdentifier_directoryIdFor _
      · obtain ⟨component, hcomponent, rfl⟩ := List.mem_map.mp hcomponents
        rw [hbuilt.plain hcandidates component hcomponent]
        exact isIdentifier_candidateFor _
    · obtain ⟨component, -, rfl⟩ := List.mem_map.mp hfile
      exact isIdentifier_fileId component

theorem Built.unconfused (hbuilt : Built paths tree)
    (hidentified : Identified tree) : Unconfused paths := by
  have hfiles : ∀ a ∈ paths, ∀ b ∈ paths, a ≠ b →
      ¬ Confused (text "file." ++ a.relative) (text "file." ++ b.relative) := by
    intro a ha b hb hne hconfused
    obtain ⟨first, hfirst, rfl⟩ := hbuilt.exists_component ha
    obtain ⟨second, hsecond, rfl⟩ := hbuilt.exists_component hb
    have hsame : first = second :=
      List.inj_on_of_nodup_map hidentified.files hfirst hsecond
        ((fileId_eq_iff first second).mpr hconfused)
    exact hne (hsame ▸ rfl)
  refine ⟨hfiles, ?_, ?_⟩
  · intro a ha b hb hne hconfused
    have hrepeated : ¬ (paths.map candidateFor).Nodup := by
      intro hnodup
      exact hne (List.inj_on_of_nodup_map hnodup ha hb
        ((candidateFor_eq_iff a b).mpr hconfused))
    obtain ⟨component, hcomponent, suffix, hid, other, hother, hother', hsame⟩ :=
      hbuilt.repeated hrepeated
    have hvalid : IsIdentifier component.id := by
      apply hidentified.valid
      exact List.mem_append_left _
        (List.mem_append_right _ (List.mem_map_of_mem hcomponent))
    have hshort : (candidateFor component.relativePath).length <
        identifierLimit := by
      have hlength := length_suffixed (candidateFor component.relativePath)
        suffix
      rw [← hid] at hlength
      exact lt_of_lt_of_le (Nat.lt_succ_self _) (hlength.trans hvalid.short)
    exact hfiles _ (hbuilt.mem_paths hcomponent) other hother hother'.symm
      (confused_of_short hsame.symm hshort)
  · intro a b ha hb hne hconfused
    obtain ⟨first, hfirst, rfl⟩ := (hbuilt.isDirectory a).mp ha
    obtain ⟨second, hsecond, rfl⟩ := (hbuilt.isDirectory b).mp hb
    have hsame : first = second := by
      apply List.inj_on_of_nodup_map hidentified.directories hfirst hsecond
      rw [hbuilt.registered.ids first hfirst,
        hbuilt.registered.ids second hsecond]
      exact (directoryIdFor_eq_iff _ _).mpr hconfused
    exact hne (hsame ▸ rfl)

end

theorem unconfused_congr {paths others : List StagedPath}
    (hmem : ∀ path, path ∈ paths ↔ path ∈ others) :
    Unconfused paths ↔ Unconfused others := by
  have hdirectories (path : List PathName) :
      IsDirectory paths path ↔ IsDirectory others path := by
    simp only [IsDirectory, hmem]
  constructor
  · rintro ⟨hfiles, hcomponents, hapart⟩
    simp only [hmem, hdirectories] at hfiles hcomponents hapart
    exact ⟨hfiles, hcomponents, hapart⟩
  · rintro ⟨hfiles, hcomponents, hapart⟩
    simp only [← hmem, ← hdirectories] at hfiles hcomponents hapart
    exact ⟨hfiles, hcomponents, hapart⟩

/-- The tree of the staged files keeps its identifiers apart and places every
file once exactly when no two of the paths are confused. -/
theorem keepsApart_iff_unconfused (guidFor : Text → Text)
    (appDirectory : Text) (listing extraFiles : List (StagedPath × Text)) :
    KeepsApart guidFor appDirectory listing extraFiles ↔
      Unconfused (staged listing extraFiles) := by
  constructor
  · intro hkeeps
    by_cases hempty : listing ++ extraFiles = []
    · unfold staged
      rw [hempty]
      constructor <;> simp [IsDirectory]
    · obtain ⟨tree, hscan⟩ := exists_scan_eq_ok hempty
      obtain ⟨paths, hbuilt, hmem⟩ := built_of_scan_eq_ok hscan
      rw [← unconfused_congr hmem]
      exact hbuilt.unconfused (hkeeps tree hscan).1
  · intro hapart tree hscan
    obtain ⟨paths, hbuilt, hmem⟩ := built_of_scan_eq_ok hscan
    rw [← unconfused_congr hmem] at hapart
    have hidentified := hbuilt.identified hapart
    refine ⟨hidentified, ?_⟩
    constructor
    · rw [hbuilt.staged]
      exact hbuilt.nodup
    · rw [hbuilt.staged]
      exact hmem
    · exact hbuilt.perm_placements hidentified.directories

/-! ### A dash and an underscore -/

def dashName : PathName :=
  ⟨text "read-me.txt", by decide, by decide, by decide⟩

def underscoreName : PathName :=
  ⟨text "read_me.txt", by decide, by decide, by decide⟩

def confusedFiles : List (StagedPath × Text) :=
  [(⟨[], dashName, by decide⟩, text "/app/read-me.txt"),
    (⟨[], underscoreName, by decide⟩, text "/app/read_me.txt")]

/-- Both files get the identifier `file.read_me.txt`. -/
theorem not_keepsApart_confusedFiles :
    ¬ KeepsApart id (text "/app") confusedFiles [] := by
  intro hkeeps
  obtain ⟨tree, hscan⟩ : ∃ tree, scan id (text "/app") (some confusedFiles)
      [] = .ok tree := exists_scan_eq_ok (by decide)
  obtain ⟨paths, hbuilt, hmem⟩ := built_of_scan_eq_ok hscan
  have hapart := hbuilt.unconfused (hkeeps tree hscan).1
  rw [unconfused_congr hmem] at hapart
  apply hapart.files _ (List.mem_cons_self ..) _
    (List.mem_cons_of_mem _ (List.mem_cons_self ..)) (by decide)
  apply (identifier_eq_iff rfl rfl (text "f")).mp
  decide

end MsiComponentTree

end Dovetail.Bundler
