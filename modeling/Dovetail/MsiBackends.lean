import Dovetail.FallibleSteps
import Dovetail.MsiSources

/-!
# What the MSI sources denote

A source is read for what its installer does: which files it puts in which
folders, which products it replaces, under what conditions it starts and
what it runs with privileges.  Where files go the two backends agree; the
rest is in the source of one of them only.
-/

namespace Dovetail.Bundler

open CodeUnits
open FallibleSteps
open MarkupText

/-! ## Reading a source -/

inductive Folder where
  | standard (id : Text)
  | named (name : Text)
  deriving DecidableEq

/-- The folder of an element, if it is one.  The older dialect writes a
standard folder as a directory without a name, below the root of the
media. -/
def folderOf? (element : Element) : Option Folder :=
  if element.name = "StandardDirectory" then
    (element.value? "Id").map .standard
  else if element.name = "Directory" then
    if element.value? "Id" = some (text "TARGETDIR") then none
    else
      match element.value? "Name" with
      | some name => some (.named name)
      | none => (element.value? "Id").map .standard
  else none

def stageVariable : Text := text "$(var.StageDir)"

/-- The place a source is taken from; both slashes separate names. -/
def sourceOf (stageDir source : Text) : Text :=
  let resolved :=
    if stageVariable <+: source then
      stageDir ++ source.drop stageVariable.length
    else source
  resolved.map fun unit => if unit = backslash then slash else unit

structure PlacedFile where
  folders : List Folder
  componentId : Option Text
  guid : Option Text
  fileId : Option Text
  name : Option Text
  source : Text
  deriving DecidableEq

def placedFile? (stageDir : Text) (place : List Element × Element) :
    Option PlacedFile :=
  if place.2.name = "File" then
    some {
      folders := place.1.filterMap folderOf?
      componentId := place.1.getLast?.bind (·.value? "Id")
      guid := place.1.getLast?.bind (·.value? "Guid")
      fileId := place.2.value? "Id"
      name := place.2.value? "Name"
      source := sourceOf stageDir ((place.2.value? "Source").getD []) }
  else none

/-- The files of a part, the elements around it known. -/
def filesIn (stageDir : Text) (inside : List Element) (part : List Markup) :
    List PlacedFile :=
  (contents inside part).filterMap (placedFile? stageDir)

structure Installation where
  files : List PlacedFile
  upgradeCode : Option Text
  upgrades : List Element
  searches : List Element
  conditions : List Element
  actions : List Element
  schedule : List Element
  deriving DecidableEq

/-- What a source says with its variable defined as the given directory. -/
def installationOf (stageDir : Text) (document : List Markup) :
    Installation where
  files := filesIn stageDir [] document
  upgradeCode := (elements document).findSome? (·.value? "UpgradeCode")
  upgrades := named "MajorUpgrade" document
  searches := named "RegistrySearch" document
  conditions := named "Launch" document
  actions := named "CustomAction" document
  schedule := named "Custom" document

section

variable {stageDir : Text} {inside : List Element}

theorem filesIn_append {first : List Markup} (hfirst : Closed first)
    (second : List Markup) :
    filesIn stageDir inside (first ++ second) =
      filesIn stageDir inside first ++ filesIn stageDir inside second := by
  rw [filesIn, hfirst, List.filterMap_append]
  rfl

theorem filesIn_flatMap {Item : Type} {part : Item → List Markup}
    {items : List Item} (hpart : ∀ item ∈ items, Closed (part item)) :
    filesIn stageDir inside (items.flatMap part) =
      items.flatMap fun item => filesIn stageDir inside (part item) := by
  rw [filesIn, contents_flatMap hpart, List.filterMap_flatMap]
  rfl

theorem filesIn_holding {element : Element} {body : List Markup}
    (hbody : Closed body) (hname : element.name ≠ "File") (indent : Nat)
    (stacked : Bool) :
    filesIn stageDir inside (holding indent stacked element body) =
      filesIn stageDir (inside ++ [element]) body := by
  have hnone : placedFile? stageDir (inside, element) = none :=
    if_neg hname
  rw [filesIn, contents_holding hbody, List.filterMap_cons, hnone]
  rfl

end

/-! ## Where the files go -/

def folderFor (name : PathName) : Folder :=
  .named (XmlText.attributeText name.units)

/-- A component below the folders of the install folder. -/
def placedAt (folders : List Folder) (stageDir : Text)
    (source : MsiComponent → Text)
    (place : List PathName × MsiComponent) : PlacedFile where
  folders := folders ++ place.1.map folderFor
  componentId := some place.2.id
  guid := some place.2.guid
  fileId := some place.2.fileId
  name := some (XmlText.attributeText place.2.fileName)
  source := sourceOf stageDir (source place.2)

/-- The attributes that both dialects write. -/
structure Describes (component file : MsiComponent → List (String × Text))
    (source : MsiComponent → Text) : Prop where
  componentId : ∀ staged, (component staged).lookup "Id" = some staged.id
  guid : ∀ staged, (component staged).lookup "Guid" = some staged.guid
  fileId : ∀ staged, (file staged).lookup "Id" = some staged.fileId
  name : ∀ staged, (file staged).lookup "Name" =
    some (XmlText.attributeText staged.fileName)
  source : ∀ staged, (file staged).lookup "Source" = some (source staged)

theorem describes_wix : Describes WixSource.componentAttributes
    WixSource.fileAttributes fun staged => stageVariable ++
      (text "\\" ++ XmlText.attributeText staged.windowsRelativePath) := by
  constructor <;> intro staged
  · rfl
  · rfl
  · rfl
  · rfl
  · have hsource : text "$(var.StageDir)\\" =
        stageVariable ++ text "\\" := by decide
    simp only [WixSource.fileAttributes, hsource, List.append_assoc]
    rfl

theorem describes_wixl (x86_64 : Bool) :
    Describes (WixlSource.componentAttributes x86_64)
      WixlSource.fileAttributes fun staged =>
        XmlText.attributeText staged.source := by
  constructor <;> intro staged <;> rfl

section

variable {tree : MsiComponentTree}
  {component file : MsiComponent → List (String × Text)}
  {source : MsiComponent → Text} {stacked : Bool}

def directoryElement (directory : MsiDirectory) : Element :=
  ⟨"Directory", [("Id", directory.id),
    ("Name", XmlText.attributeText directory.name.units)]⟩

theorem flatMap_componentsOf (directoryId : Text) (indent : Nat) :
    (tree.componentsOf directoryId indent).flatMap
        (tagMarkup component file stacked) =
      (tree.componentsIn directoryId).flatMap fun staged =>
        holding indent false ⟨"Component", component staged⟩
          [.empty (indent + 2) stacked ⟨"File", file staged⟩] := by
  rw [MsiComponentTree.componentsOf, List.flatMap_map]
  rfl

/-- What is inside the element of a directory. -/
def directoryBody (tree : MsiComponentTree) (markup : Tag → List Markup)
    (indent : Nat) (directory : MsiDirectory) : List Markup :=
  (tree.componentsOf directory.id indent).flatMap markup ++
    (tree.childDirectories directory.relativePath indent).flatMap markup

theorem flatMap_childDirectories (parent : List PathName) (indent : Nat) :
    (tree.childDirectories parent indent).flatMap
        (tagMarkup component file stacked) =
      (PathForest.childrenOf MsiDirectory.parentRelativePath tree.directories
        parent).flatMap fun directory =>
          holding indent false (directoryElement directory)
            (directoryBody tree (tagMarkup component file stacked)
              (indent + 2) directory) := by
  rw [MsiComponentTree.childDirectories_eq, List.flatMap_assoc]
  congr 1
  funext directory
  simp only [List.cons_append, List.flatMap_cons, List.flatMap_append,
    List.flatMap_nil, List.append_nil, holding, directoryBody,
    List.append_assoc]
  rfl

theorem closed_componentsOf (directoryId : Text) (indent : Nat) :
    Closed ((tree.componentsOf directoryId indent).flatMap
      (tagMarkup component file stacked)) := by
  rw [flatMap_componentsOf]
  apply closed_flatMap
  intro staged _
  exact (closed_empty _ _ _).holding _ _ _

theorem closed_childDirectories (parent : List PathName) (indent : Nat) :
    Closed ((tree.childDirectories parent indent).flatMap
      (tagMarkup component file stacked)) := by
  induction parent using PathForest.induction_below
    MsiDirectory.parentRelativePath MsiDirectory.name tree.directories
    generalizing indent with
  | hstep parent ih =>
      rw [flatMap_childDirectories]
      apply closed_flatMap
      intro directory hdirectory
      apply Closed.holding
      apply (closed_componentsOf directory.id (indent + 2)).append
      have hdeeper := ih directory hdirectory (indent + 2)
      rwa [MsiComponentTree.pathOf_directory] at hdeeper

theorem closed_directoryBody (indent : Nat) (directory : MsiDirectory) :
    Closed (directoryBody tree (tagMarkup component file stacked) indent
      directory) :=
  (closed_componentsOf directory.id indent).append
    (closed_childDirectories directory.relativePath indent)

/-- The files of the components of one directory. -/
theorem files_componentsOf (hdescribes : Describes component file source)
    (stageDir directoryId : Text) (indent : Nat) (inside : List Element) :
    filesIn stageDir inside ((tree.componentsOf directoryId indent).flatMap
        (tagMarkup component file stacked)) =
      (tree.componentsIn directoryId).map fun staged =>
        placedAt (inside.filterMap folderOf?) stageDir source
          ([], staged) := by
  have hclosed (staged : MsiComponent) : Closed
      (holding indent false ⟨"Component", component staged⟩
        [.empty (indent + 2) stacked ⟨"File", file staged⟩]) :=
    (closed_empty _ _ _).holding _ _ _
  rw [flatMap_componentsOf, filesIn_flatMap fun staged _ => hclosed staged,
    List.map_eq_flatMap]
  congr 1
  funext staged
  have hother : (⟨"Component", component staged⟩ : Element).name ≠ "File" := by
    simp
  have hfolder : folderOf? ⟨"Component", component staged⟩ = none := rfl
  rw [filesIn_holding (closed_empty _ _ _) hother]
  simp [filesIn, contents, placedFile?, placedAt, hfolder, Element.value?,
    hdescribes.componentId, hdescribes.guid, hdescribes.fileId,
    hdescribes.name, hdescribes.source]

theorem folderOf?_directoryElement (directory : MsiDirectory)
    (hid : directory.id ≠ text "TARGETDIR") :
    folderOf? (directoryElement directory) =
      some (folderFor directory.name) := by
  have hother : (directoryElement directory).value? "Id" ≠
      some (text "TARGETDIR") := by
    intro hsame
    exact hid (Option.some.inj hsame)
  have hdirectory : (directoryElement directory).name = "Directory" := rfl
  simp only [folderOf?, hdirectory, if_neg hother]
  rfl

/-- No directory of the tree is taken for the root of the media. -/
def Rooted (tree : MsiComponentTree) : Prop :=
  ∀ directory ∈ tree.directories, directory.id ≠ text "TARGETDIR"

/-- Every directory below the parent places its components in its folder. -/
theorem files_childDirectories (hdescribes : Describes component file source)
    (hrooted : Rooted tree) (stageDir : Text) (base : List Folder)
    (parent : List PathName) (indent : Nat) (inside : List Element)
    (hinside : inside.filterMap folderOf? = base ++ parent.map folderFor) :
    filesIn stageDir inside ((tree.childDirectories parent indent).flatMap
        (tagMarkup component file stacked)) =
      ((PathForest.visits MsiDirectory.parentRelativePath MsiDirectory.name
        tree.directories parent).flatMap tree.placedIn).map
          (placedAt base stageDir source) := by
  induction parent using PathForest.induction_below
    MsiDirectory.parentRelativePath MsiDirectory.name tree.directories
    generalizing indent inside with
  | hstep parent ih =>
      have hclosed : ∀ directory ∈ PathForest.childrenOf
          MsiDirectory.parentRelativePath tree.directories parent,
          Closed (holding indent false (directoryElement directory)
            (directoryBody tree (tagMarkup component file stacked)
              (indent + 2) directory)) :=
        fun directory _ => (closed_directoryBody _ directory).holding _ _ _
      rw [flatMap_childDirectories, PathForest.visits_eq,
        List.flatMap_assoc, List.map_flatMap, filesIn_flatMap hclosed]
      apply List.flatMap_congr
      intro directory hdirectory
      have hmember := PathForest.mem_childrenOf.mp hdirectory
      have hfolder := folderOf?_directoryElement directory
        (hrooted directory hmember.1)
      have hpath : directory.relativePath = parent ++ [directory.name] := by
        rw [← directory.spells, hmember.2]
      have hdeeper : (inside ++ [directoryElement directory]).filterMap
          folderOf? = base ++ directory.relativePath.map folderFor := by
        simp [hinside, hfolder, hpath]
      have hbelow := ih directory hdirectory (indent + 2)
        (inside ++ [directoryElement directory])
      rw [MsiComponentTree.pathOf_directory] at hbelow
      have hother : (directoryElement directory).name ≠ "File" := by
        simp [directoryElement]
      rw [filesIn_holding (closed_directoryBody _ directory) hother,
        directoryBody,
        filesIn_append (closed_componentsOf directory.id (indent + 2)),
        files_componentsOf hdescribes, hdeeper, hbelow hdeeper,
        List.flatMap_cons, List.map_append, MsiComponentTree.placedIn,
        List.map_map]
      simp [placedAt, Function.comp_def, MsiComponentTree.pathOf_directory]

/-- The files inside the install folder, in the order they are written. -/
theorem files_insideInstallFolder
    (hdescribes : Describes component file source) (hrooted : Rooted tree)
    (stageDir : Text) (indent : Nat) (inside : List Element) :
    filesIn stageDir inside ((tree.insideInstallFolder indent).flatMap
        (tagMarkup component file stacked)) =
      (placements [] (tree.insideInstallFolder 0)).map
        (placedAt (inside.filterMap folderOf?) stageDir source) := by
  rw [MsiComponentTree.placements_insideInstallFolder,
    MsiComponentTree.insideInstallFolder, List.flatMap_append,
    filesIn_append (closed_componentsOf MsiComponentTree.installFolder indent),
    files_componentsOf hdescribes,
    files_childDirectories hdescribes hrooted stageDir
      (inside.filterMap folderOf?) [] indent inside (by simp),
    List.map_append, List.map_map]
  rfl

theorem closed_insideInstallFolder (indent : Nat) :
    Closed ((tree.insideInstallFolder indent).flatMap
      (tagMarkup component file stacked)) := by
  rw [MsiComponentTree.insideInstallFolder, List.flatMap_append]
  exact (closed_componentsOf _ indent).append
    (closed_childDirectories [] indent)

end

/-! ## The parts of a source -/

/-- Only elements of these names. -/
def NamedIn (names : List String) (part : List Markup) : Prop :=
  ∀ element ∈ elements part, element.name ∈ names

theorem NamedIn.named_eq_nil {names : List String} {part : List Markup}
    (hpart : NamedIn names part) {name : String} (hname : name ∉ names) :
    named name part = [] := by
  apply MarkupText.named_eq_nil
  intro element helement hsame
  exact hname (hsame ▸ hpart element helement)

theorem NamedIn.append {names : List String} {first second : List Markup}
    (hfirst : NamedIn names first) (hsecond : NamedIn names second) :
    NamedIn names (first ++ second) := by
  intro element helement
  rw [elements_append, List.mem_append] at helement
  exact helement.elim (hfirst element) (hsecond element)

theorem NamedIn.flatMap {Item : Type} {names : List String}
    {part : Item → List Markup} {items : List Item}
    (hpart : ∀ item ∈ items, NamedIn names (part item)) :
    NamedIn names (items.flatMap part) := by
  intro element helement
  rw [elements_flatMap, List.mem_flatMap] at helement
  rcases helement with ⟨item, hitem, helement⟩
  exact hpart item hitem element helement

theorem NamedIn.holding {names : List String} {body : List Markup}
    {element : Element} (hname : element.name ∈ names)
    (hbody : NamedIn names body) (indent : Nat) (stacked : Bool) :
    NamedIn names (holding indent stacked element body) := by
  intro other hother
  rw [elements_holding, List.mem_cons] at hother
  rcases hother with hsame | hother
  · exact hsame ▸ hname
  · exact hbody other hother

theorem NamedIn.mono {names others : List String} {part : List Markup}
    (hpart : NamedIn names part) (hnames : names ⊆ others) :
    NamedIn others part :=
  fun element helement => hnames (hpart element helement)

theorem filesIn_between {stageDir : Text} {inside : List Element}
    {front middle back : List Markup} (hfront : Closed front)
    (hmiddle : Closed middle)
    (hbefore : filesIn stageDir inside front = [])
    (hafter : filesIn stageDir inside back = []) :
    filesIn stageDir inside (front ++ (middle ++ back)) =
      filesIn stageDir inside middle := by
  rw [filesIn_append hfront, filesIn_append hmiddle, hbefore, hafter,
    List.nil_append, List.append_nil]

/-- A part without files places none. -/
theorem filesIn_eq_nil {names : List String} {part : List Markup}
    (hpart : NamedIn names part) (hfile : "File" ∉ names)
    (stageDir : Text) (inside : List Element) :
    filesIn stageDir inside part = [] := by
  apply filterMap_contents_eq_nil
  intro element helement outer
  have hname : element.name ≠ "File" := by
    intro hsame
    exact hfile (hsame ▸ hpart element helement)
  exact if_neg hname

theorem namedIn_tagMarkup
    (component file : MsiComponent → List (String × Text))
    (stacked : Bool) (tags : List Tag) :
    NamedIn ["Directory", "Component", "File"]
      (tags.flatMap (tagMarkup component file stacked)) := by
  apply NamedIn.flatMap
  intro tag _ element helement
  cases tag with
  | directory indent directory =>
      rw [List.mem_singleton.mp helement]
      exact List.mem_cons_self
  | component indent staged =>
      simp only [tagMarkup, elements_opens, elements_empty, elements_closes,
        elements_nil, List.mem_cons, List.not_mem_nil, or_false] at helement
      rcases helement with rfl | rfl <;> simp
  | close indent => simp [tagMarkup] at helement

theorem closed_featureMarkup (title : Text) (tree : MsiComponentTree) :
    Closed (featureMarkup title tree) := by
  apply Closed.holding
  apply closed_of_leaves
  intro markup hmarkup
  rcases List.mem_map.mp hmarkup with ⟨component, -, rfl⟩
  trivial

theorem namedIn_featureMarkup (title : Text) (tree : MsiComponentTree) :
    NamedIn ["Feature", "ComponentRef"] (featureMarkup title tree) := by
  apply NamedIn.holding (List.mem_cons_self)
  intro element helement
  rcases List.mem_filterMap.mp helement with ⟨markup, hmarkup, hsome⟩
  rcases List.mem_map.mp hmarkup with ⟨component, -, rfl⟩
  rw [← Option.some.inj hsome]
  simp

namespace WixSource

theorem closed_conflictGuards (spec : MsiSpec) :
    Closed (conflictGuards spec) := by
  unfold conflictGuards
  split
  · exact closed_nil
  · apply Closed.append
    · apply closed_flatMap
      intro key _
      exact (closed_empty _ _ _).holding _ _ _
    · apply closed_of_leaves
      simp [Markup.IsLeaf]

theorem namedIn_conflictGuards (spec : MsiSpec) :
    NamedIn ["Property", "RegistrySearch", "Launch"]
      (conflictGuards spec) := by
  unfold conflictGuards
  split
  · simp [NamedIn]
  · apply NamedIn.append
    · apply NamedIn.flatMap
      intro key _
      apply NamedIn.holding (List.mem_cons_self)
      simp [NamedIn]
    · simp [NamedIn]

theorem customAction_of_definitionFor {tree : MsiComponentTree}
    {step : MsiPrivilegedStep} {definition : Markup}
    (hdefinition : definitionFor tree step = .ok definition) :
    ∃ host, componentFor tree step.relativeExecutable = some host ∧
      definition = customAction step host := by
  unfold definitionFor at hdefinition
  cases hhost : componentFor tree step.relativeExecutable with
  | none => simp [hhost] at hdefinition
  | some host =>
      simp only [hhost, Except.ok.injEq] at hdefinition
      exact ⟨host, rfl, hdefinition.symm⟩

theorem exists_of_document_eq_ok {spec : MsiSpec} {tree : MsiComponentTree}
    {source : List Markup} (hdocument : document spec tree = .ok source) :
    ∃ productVersion actions, spec.productVersion = .ok productVersion ∧
      customActions spec tree = .ok actions ∧
      source = [.declaration] ++ holding 0 false ⟨"Wix", [("xmlns", schema)]⟩
        (holding 2 true (packageElement spec productVersion)
          (packageBody spec tree ++ actions)) := by
  rcases bind_eq_ok_iff.mp hdocument with ⟨productVersion, hversion, hrest⟩
  rcases bind_eq_ok_iff.mp hrest with ⟨actions, hactions, hsource⟩
  exact ⟨productVersion, actions, mapError_eq_ok_iff.mp hversion, hactions,
    (Except.ok.inj hsource).symm⟩

theorem exists_customAction {tree : MsiComponentTree}
    {steps : List MsiPrivilegedStep} {definitions : List Markup}
    (hdefinitions : steps.mapM (definitionFor tree) = .ok definitions)
    {markup : Markup} (hmarkup : markup ∈ definitions) :
    ∃ step host, markup = customAction step host := by
  rcases exists_item_of_mapM_eq_ok hdefinitions hmarkup with
    ⟨step, -, hstep⟩
  rcases customAction_of_definitionFor hstep with ⟨host, -, hcustom⟩
  exact ⟨step, host, hcustom⟩

theorem closed_definitions {tree : MsiComponentTree}
    {steps : List MsiPrivilegedStep} {definitions : List Markup}
    (hdefinitions : steps.mapM (definitionFor tree) = .ok definitions) :
    Closed definitions := by
  apply closed_of_leaves
  intro markup hmarkup
  rcases exists_customAction hdefinitions hmarkup with ⟨step, host, rfl⟩
  trivial

theorem namedIn_definitions {tree : MsiComponentTree}
    {steps : List MsiPrivilegedStep} {definitions : List Markup}
    (hdefinitions : steps.mapM (definitionFor tree) = .ok definitions) :
    NamedIn ["CustomAction"] definitions := by
  intro element helement
  rcases List.mem_filterMap.mp helement with ⟨markup, hmarkup, hsome⟩
  rcases exists_customAction hdefinitions hmarkup with ⟨step, host, rfl⟩
  rw [← Option.some.inj hsome]
  exact List.mem_cons_self

theorem ids_definitions {tree : MsiComponentTree}
    {steps : List MsiPrivilegedStep} {definitions : List Markup}
    (hdefinitions : steps.mapM (definitionFor tree) = .ok definitions) :
    (named "CustomAction" definitions).map (·.value? "Id") =
      steps.map fun step => some step.id := by
  have hall := forall₂_of_mapM_eq_ok hdefinitions
  clear hdefinitions
  induction hall with
  | nil => rfl
  | @cons step definition steps definitions hstep _ ih =>
      rcases customAction_of_definitionFor hstep with ⟨host, -, rfl⟩
      exact congrArg (some step.id :: ·) ih

def sequenceMarkup (spec : MsiSpec) : List Markup :=
  holding 4 false ⟨"InstallExecuteSequence", []⟩
    ((ordered spec).map scheduled)

theorem closed_sequenceMarkup (spec : MsiSpec) :
    Closed (sequenceMarkup spec) := by
  apply Closed.holding
  apply closed_of_leaves
  intro markup hmarkup
  rcases List.mem_map.mp hmarkup with ⟨step, -, rfl⟩
  trivial

theorem namedIn_sequenceMarkup (spec : MsiSpec) :
    NamedIn ["InstallExecuteSequence", "Custom"] (sequenceMarkup spec) := by
  apply NamedIn.holding (List.mem_cons_self)
  intro element helement
  rcases List.mem_filterMap.mp helement with ⟨markup, hmarkup, hsome⟩
  rcases List.mem_map.mp hmarkup with ⟨step, -, rfl⟩
  rw [← Option.some.inj hsome]
  simp

/-- The custom actions of the steps, in the order of their rollbacks and
themselves. -/
structure Runs (spec : MsiSpec) (actions : List Markup) : Prop where
  closed : Closed actions
  names : NamedIn ["CustomAction", "InstallExecuteSequence", "Custom"] actions
  ids : (named "CustomAction" actions).map (·.value? "Id") =
    (ordered spec).map fun step => some step.id

theorem runs_nil {spec : MsiSpec} (hsteps : spec.steps = []) :
    Runs spec [] where
  closed := closed_nil
  names := by simp [NamedIn]
  ids := by simp [named, ordered, hsteps]

theorem runs_append {spec : MsiSpec} {tree : MsiComponentTree}
    {definitions : List Markup}
    (hdefinitions : (ordered spec).mapM (definitionFor tree) =
      .ok definitions) :
    Runs spec (definitions ++ [.blank] ++ sequenceMarkup spec) where
  closed := by
    apply Closed.append
    · apply (closed_definitions hdefinitions).append
      exact closed_of_leaves (by simp [Markup.IsLeaf])
    · exact closed_sequenceMarkup spec
  names := by
    apply NamedIn.append
    · apply NamedIn.append
      · exact (namedIn_definitions hdefinitions).mono (by simp)
      · simp [NamedIn]
    · exact (namedIn_sequenceMarkup spec).mono (by simp)
  ids := by
    have hsequence : named "CustomAction" (sequenceMarkup spec) = [] :=
      (namedIn_sequenceMarkup spec).named_eq_nil (by simp)
    have hblank : named "CustomAction" [.blank] = [] := rfl
    rw [named_append, named_append, hsequence, hblank, List.append_nil,
      List.append_nil]
    exact ids_definitions hdefinitions

theorem runs_of_customActions {spec : MsiSpec} {tree : MsiComponentTree}
    {actions : List Markup}
    (hactions : customActions spec tree = .ok actions) :
    Runs spec actions := by
  unfold customActions at hactions
  split at hactions
  · next hsteps =>
      rw [← Except.ok.inj hactions]
      exact runs_nil (List.isEmpty_iff.mp hsteps)
  · rcases bind_eq_ok_iff.mp hactions with
      ⟨definitions, hdefinitions, hresult⟩
    rw [← Except.ok.inj hresult]
    exact runs_append hdefinitions

/-- The folders of the install folder. -/
def rootFolders (spec : MsiSpec) : List Folder :=
  [.standard (rootFolderFor spec),
    .named (XmlText.attributeText spec.bundle.productName)]

def sourceFor (component : MsiComponent) : Text :=
  stageVariable ++
    (text "\\" ++ XmlText.attributeText component.windowsRelativePath)

theorem closed_directoryMarkup (spec : MsiSpec) (tree : MsiComponentTree) :
    Closed (directoryMarkup spec tree) := by
  apply Closed.holding
  apply Closed.holding
  exact closed_insideInstallFolder 8

theorem files_directoryMarkup (spec : MsiSpec) {tree : MsiComponentTree}
    (hrooted : Rooted tree) (stageDir : Text) {inside : List Element}
    (hinside : inside.filterMap folderOf? = []) :
    filesIn stageDir inside (directoryMarkup spec tree) =
      (placements [] (tree.insideInstallFolder 0)).map
        (placedAt (rootFolders spec) stageDir sourceFor) := by
  have hbody : Closed ((tree.insideInstallFolder 8).flatMap markup) :=
    closed_insideInstallFolder 8
  rw [directoryMarkup, filesIn_holding (hbody.holding _ _ _) (by simp),
    filesIn_holding hbody (by simp), markup,
    files_insideInstallFolder describes_wix hrooted]
  rw [List.filterMap_append, List.filterMap_append, hinside]
  rfl

/-- What is written before the directories. -/
def beforeDirectories (spec : MsiSpec) : List Markup :=
  [.blank, .empty 4 true (majorUpgrade spec), .blank,
      .empty 4 false ⟨"MediaTemplate", [("EmbedCab", text "yes")]⟩, .blank] ++
    conflictGuards spec

def afterDirectories (tree : MsiComponentTree) (actions : List Markup) :
    List Markup :=
  [.blank] ++ featureMarkup (text "Application") tree ++ [.blank] ++ actions

theorem packageBody_append (spec : MsiSpec) (tree : MsiComponentTree)
    (actions : List Markup) :
    packageBody spec tree ++ actions = beforeDirectories spec ++
      (directoryMarkup spec tree ++ afterDirectories tree actions) := by
  simp only [packageBody, beforeDirectories, afterDirectories,
    List.append_assoc]

theorem closed_beforeDirectories (spec : MsiSpec) :
    Closed (beforeDirectories spec) := by
  apply Closed.append
  · apply closed_of_leaves
    simp [majorUpgrade, Markup.IsLeaf]
  · exact closed_conflictGuards spec

theorem namedIn_beforeDirectories (spec : MsiSpec) :
    NamedIn ["MajorUpgrade", "MediaTemplate", "Property", "RegistrySearch",
      "Launch"] (beforeDirectories spec) := by
  apply NamedIn.append
  · simp [NamedIn, majorUpgrade]
  · exact (namedIn_conflictGuards spec).mono (by simp)

theorem closed_afterDirectories {spec : MsiSpec} (tree : MsiComponentTree)
    {actions : List Markup} (hruns : Runs spec actions) :
    Closed (afterDirectories tree actions) := by
  have hblank : Closed [.blank] := closed_of_leaves (by simp [Markup.IsLeaf])
  have hfeature := closed_featureMarkup (text "Application") tree
  exact ((hblank.append hfeature).append hblank).append hruns.closed

theorem namedIn_afterDirectories {spec : MsiSpec} (tree : MsiComponentTree)
    {actions : List Markup} (hruns : Runs spec actions) :
    NamedIn ["Feature", "ComponentRef", "CustomAction",
      "InstallExecuteSequence", "Custom"] (afterDirectories tree actions) := by
  have hblank : NamedIn ["Feature", "ComponentRef", "CustomAction",
      "InstallExecuteSequence", "Custom"] [.blank] := by simp [NamedIn]
  have hfeature : NamedIn ["Feature", "ComponentRef", "CustomAction",
      "InstallExecuteSequence", "Custom"]
        (featureMarkup (text "Application") tree) :=
    (namedIn_featureMarkup (text "Application") tree).mono (by simp)
  exact ((hblank.append hfeature).append hblank).append
    (hruns.names.mono (by simp))

/-- The files of the source are those of the tree below the root folder. -/
theorem files_of_document {spec : MsiSpec} {tree : MsiComponentTree}
    {source : List Markup} (hrooted : Rooted tree)
    (hdocument : document spec tree = .ok source) (stageDir : Text) :
    (installationOf stageDir source).files =
      (placements [] (tree.insideInstallFolder 0)).map
        (placedAt (rootFolders spec) stageDir sourceFor) := by
  rcases exists_of_document_eq_ok hdocument with
    ⟨productVersion, actions, -, hactions, rfl⟩
  have hruns := runs_of_customActions hactions
  have hbefore := closed_beforeDirectories spec
  have hmiddle := closed_directoryMarkup spec tree
  have hafter := closed_afterDirectories tree hruns
  have hbody : Closed (packageBody spec tree ++ actions) := by
    rw [packageBody_append]
    exact hbefore.append (hmiddle.append hafter)
  have hdeclaration : Closed [.declaration] :=
    closed_of_leaves (by simp [Markup.IsLeaf])
  rw [installationOf, filesIn_append hdeclaration,
    filesIn_holding (hbody.holding _ _ _) (by simp),
    filesIn_holding hbody (by simp [packageElement]), packageBody_append,
    filesIn_between hbefore hmiddle
      (filesIn_eq_nil (namedIn_beforeDirectories spec) (by simp) _ _)
      (filesIn_eq_nil (namedIn_afterDirectories tree hruns) (by simp) _ _),
    files_directoryMarkup spec hrooted stageDir]
  · rfl
  · rfl

theorem namedIn_directoryMarkup (spec : MsiSpec) (tree : MsiComponentTree) :
    NamedIn ["StandardDirectory", "Directory", "Component", "File"]
      (directoryMarkup spec tree) := by
  apply NamedIn.holding (List.mem_cons_self)
  apply NamedIn.holding (by simp)
  exact (namedIn_tagMarkup _ _ _ _).mono (by simp)

theorem named_of_document {spec : MsiSpec} {tree : MsiComponentTree}
    {source : List Markup} (hdocument : document spec tree = .ok source)
    {name : String} (hname : name ∉ ["Wix", "Package"]) :
    ∃ actions, Runs spec actions ∧ named name source =
      named name (beforeDirectories spec) ++
        (named name (directoryMarkup spec tree) ++
          named name (afterDirectories tree actions)) := by
  rcases exists_of_document_eq_ok hdocument with
    ⟨productVersion, actions, -, hactions, rfl⟩
  refine ⟨actions, runs_of_customActions hactions, ?_⟩
  have hother : "Wix" ≠ name ∧ "Package" ≠ name := by
    constructor <;> intro hsame <;> simp [← hsame] at hname
  rw [packageBody_append, ← named_append, ← named_append]
  simp [named, packageElement, hother]

/-- The source states the upgrade rule, once. -/
theorem upgrades_of_document {spec : MsiSpec} {tree : MsiComponentTree}
    {source : List Markup} (hdocument : document spec tree = .ok source)
    (stageDir : Text) :
    (installationOf stageDir source).upgrades = [majorUpgrade spec] := by
  have hname : "MajorUpgrade" ∉ ["Wix", "Package"] := by simp
  rcases named_of_document hdocument hname with ⟨actions, hruns, hnamed⟩
  have hguards : named "MajorUpgrade" (conflictGuards spec) = [] :=
    (namedIn_conflictGuards spec).named_eq_nil (by simp)
  have hdirectories : named "MajorUpgrade" (directoryMarkup spec tree) = [] :=
    (namedIn_directoryMarkup spec tree).named_eq_nil (by simp)
  have hafter : named "MajorUpgrade" (afterDirectories tree actions) = [] :=
    (namedIn_afterDirectories tree hruns).named_eq_nil (by simp)
  rw [installationOf, hnamed, hdirectories, hafter, beforeDirectories,
    named_append, hguards]
  rfl

theorem actions_of_document {spec : MsiSpec} {tree : MsiComponentTree}
    {source : List Markup} (hdocument : document spec tree = .ok source)
    (stageDir : Text) :
    (installationOf stageDir source).actions.map (·.value? "Id") =
      (ordered spec).map fun step => some step.id := by
  have hname : "CustomAction" ∉ ["Wix", "Package"] := by simp
  rcases named_of_document hdocument hname with ⟨actions, hruns, hnamed⟩
  have hbefore : named "CustomAction" (beforeDirectories spec) = [] :=
    (namedIn_beforeDirectories spec).named_eq_nil (by simp)
  have hdirectories : named "CustomAction" (directoryMarkup spec tree) = [] :=
    (namedIn_directoryMarkup spec tree).named_eq_nil (by simp)
  have hfeature : named "CustomAction"
      (featureMarkup (text "Application") tree) = [] :=
    (namedIn_featureMarkup _ tree).named_eq_nil (by simp)
  rw [installationOf, hnamed, hbefore, hdirectories, afterDirectories,
    named_append, named_append, named_append, hfeature, ← hruns.ids]
  rfl

end WixSource

namespace WixlSource

theorem document_eq_ok_iff {spec : MsiSpec} {tree : MsiComponentTree}
    {source : List Markup} :
    document spec tree = .ok source ↔
      ∃ productVersion, spec.productVersion = .ok productVersion ∧
        source = [.declaration] ++
          holding 0 false ⟨"Wix", [("xmlns", schema)]⟩
            (holding 2 true (productElement spec productVersion)
              (productBody spec productVersion tree)) := by
  constructor
  · intro hdocument
    rcases bind_eq_ok_iff.mp hdocument with ⟨productVersion, hversion, hrest⟩
    exact ⟨productVersion, mapError_eq_ok_iff.mp hversion,
      (Except.ok.inj hrest).symm⟩
  · rintro ⟨productVersion, hversion, rfl⟩
    apply bind_eq_ok_iff.mpr
    exact ⟨productVersion, mapError_eq_ok_iff.mpr hversion, rfl⟩

def rootFolders (spec : MsiSpec) : List Folder :=
  [.standard (rootFolderFor (spec.bundle.installMode = .perMachine)
      (spec.arch = .x86_64)),
    .named (XmlText.attributeText spec.bundle.productName)]

def sourceFor (component : MsiComponent) : Text :=
  XmlText.attributeText component.source

theorem closed_directoryMarkup (spec : MsiSpec) (tree : MsiComponentTree) :
    Closed (directoryMarkup spec tree) := by
  apply Closed.holding
  apply Closed.holding
  apply Closed.holding
  exact closed_insideInstallFolder 10

theorem folderOf?_root (perMachine x86_64 : Bool) :
    folderOf? ⟨"Directory", [("Id", rootFolderFor perMachine x86_64)]⟩ =
      some (.standard (rootFolderFor perMachine x86_64)) := by
  cases perMachine <;> cases x86_64 <;> decide

theorem files_directoryMarkup (spec : MsiSpec) {tree : MsiComponentTree}
    (hrooted : Rooted tree) (stageDir : Text) {inside : List Element}
    (hinside : inside.filterMap folderOf? = []) :
    filesIn stageDir inside (directoryMarkup spec tree) =
      (placements [] (tree.insideInstallFolder 0)).map
        (placedAt (rootFolders spec) stageDir sourceFor) := by
  have hbody (x86_64 : Bool) :
      Closed ((tree.insideInstallFolder 10).flatMap (markup x86_64)) :=
    closed_insideInstallFolder 10
  unfold directoryMarkup
  dsimp only
  rw [filesIn_holding (((hbody _).holding _ _ _).holding _ _ _) (by simp),
    filesIn_holding ((hbody _).holding _ _ _) (by simp),
    filesIn_holding (hbody _) (by simp), markup,
    files_insideInstallFolder (describes_wixl _) hrooted]
  simp only [List.filterMap_append, hinside, List.filterMap_cons,
    List.filterMap_nil, folderOf?_root]
  rfl

theorem namedIn_directoryMarkup (spec : MsiSpec) (tree : MsiComponentTree) :
    NamedIn ["Directory", "Component", "File"] (directoryMarkup spec tree) := by
  apply NamedIn.holding (List.mem_cons_self)
  apply NamedIn.holding (List.mem_cons_self)
  apply NamedIn.holding (List.mem_cons_self)
  exact namedIn_tagMarkup _ _ _ _

def beforeDirectories (spec : MsiSpec) (productVersion : Text) :
    List Markup :=
  [.blank, .empty 4 true (packageElement spec productVersion), .blank,
    .empty 4 false ⟨"Media", [("Id", text "1"),
      ("Cabinet", text "app.cab"), ("EmbedCab", text "yes")]⟩, .blank]

def afterDirectories (spec : MsiSpec) (tree : MsiComponentTree) :
    List Markup :=
  [.blank] ++
    featureMarkup (XmlText.attributeText spec.bundle.productName) tree

theorem productBody_append (spec : MsiSpec) (productVersion : Text)
    (tree : MsiComponentTree) :
    productBody spec productVersion tree =
      beforeDirectories spec productVersion ++
        (directoryMarkup spec tree ++ afterDirectories spec tree) := by
  simp only [productBody, beforeDirectories, afterDirectories,
    List.append_assoc]

theorem closed_beforeDirectories (spec : MsiSpec) (productVersion : Text) :
    Closed (beforeDirectories spec productVersion) := by
  apply closed_of_leaves
  simp [beforeDirectories, Markup.IsLeaf]

theorem closed_afterDirectories (spec : MsiSpec) (tree : MsiComponentTree) :
    Closed (afterDirectories spec tree) :=
  (closed_of_leaves (by simp [Markup.IsLeaf])).append
    (closed_featureMarkup _ tree)

theorem namedIn_beforeDirectories (spec : MsiSpec) (productVersion : Text) :
    NamedIn ["Package", "Media"] (beforeDirectories spec productVersion) := by
  simp [NamedIn, beforeDirectories, packageElement]

theorem namedIn_afterDirectories (spec : MsiSpec) (tree : MsiComponentTree) :
    NamedIn ["Feature", "ComponentRef"] (afterDirectories spec tree) := by
  apply NamedIn.append
  · simp [NamedIn]
  · exact namedIn_featureMarkup _ tree

theorem files_of_document {spec : MsiSpec} {tree : MsiComponentTree}
    {source : List Markup} (hrooted : Rooted tree)
    (hdocument : document spec tree = .ok source) (stageDir : Text) :
    (installationOf stageDir source).files =
      (placements [] (tree.insideInstallFolder 0)).map
        (placedAt (rootFolders spec) stageDir sourceFor) := by
  rcases document_eq_ok_iff.mp hdocument with ⟨productVersion, -, rfl⟩
  have hbefore := closed_beforeDirectories spec productVersion
  have hmiddle := closed_directoryMarkup spec tree
  have hafter := closed_afterDirectories spec tree
  have hbody : Closed (productBody spec productVersion tree) := by
    rw [productBody_append]
    exact hbefore.append (hmiddle.append hafter)
  have hdeclaration : Closed [.declaration] :=
    closed_of_leaves (by simp [Markup.IsLeaf])
  rw [installationOf, filesIn_append hdeclaration,
    filesIn_holding (hbody.holding _ _ _) (by simp),
    filesIn_holding hbody (by simp [productElement]), productBody_append,
    filesIn_between hbefore hmiddle
      (filesIn_eq_nil (namedIn_beforeDirectories spec _) (by simp) _ _)
      (filesIn_eq_nil (namedIn_afterDirectories spec tree) (by simp) _ _),
    files_directoryMarkup spec hrooted stageDir]
  · rfl
  · rfl

/-- The elements this dialect writes, whatever the spec. -/
theorem namedIn_document {spec : MsiSpec} {tree : MsiComponentTree}
    {source : List Markup} (hdocument : document spec tree = .ok source) :
    NamedIn ["Wix", "Product", "Package", "Media", "Directory", "Component",
      "File", "Feature", "ComponentRef"] source := by
  rcases document_eq_ok_iff.mp hdocument with ⟨productVersion, -, rfl⟩
  apply NamedIn.append
  · simp [NamedIn]
  · apply NamedIn.holding (by simp)
    apply NamedIn.holding (by simp [productElement])
    rw [productBody_append]
    apply NamedIn.append
    · exact (namedIn_beforeDirectories spec productVersion).mono (by simp)
    · apply NamedIn.append
      · exact (namedIn_directoryMarkup spec tree).mono (by simp)
      · exact (namedIn_afterDirectories spec tree).mono (by simp)

/-- Nothing of the upgrade rule, of the launch conditions and of the
privileged steps is written. -/
theorem omitted_of_document {spec : MsiSpec} {tree : MsiComponentTree}
    {source : List Markup} (hdocument : document spec tree = .ok source)
    (stageDir : Text) :
    (installationOf stageDir source).upgrades = [] ∧
      (installationOf stageDir source).searches = [] ∧
      (installationOf stageDir source).conditions = [] ∧
      (installationOf stageDir source).actions = [] ∧
      (installationOf stageDir source).schedule = [] := by
  have hnames := namedIn_document hdocument
  exact ⟨hnames.named_eq_nil (by simp), hnames.named_eq_nil (by simp),
    hnames.named_eq_nil (by simp), hnames.named_eq_nil (by simp),
    hnames.named_eq_nil (by simp)⟩

end WixlSource

/-! ## What the backends have in common -/

/-- No directory of a scanned tree is taken for the root of the media. -/
theorem rooted_of_scan {guidFor : Text → Text} {appDirectory : Text}
    {listing extraFiles : List (StagedPath × Text)} {tree : MsiComponentTree}
    (hscan : MsiComponentTree.scan guidFor appDirectory (some listing)
      extraFiles = .ok tree) : Rooted tree := by
  rcases MsiComponentTree.built_of_scan_eq_ok hscan with ⟨paths, hbuilt, -⟩
  intro directory hdirectory hsame
  have hid := hbuilt.registered.ids directory hdirectory
  have hhead : (MsiComponentTree.directoryIdFor
      directory.relativePath).head? = some 100 := by
    unfold MsiComponentTree.directoryIdFor
    rw [WixText.identifier_eq rfl]
    split <;> rfl
  rw [← hid, hsame] at hhead
  exact absurd hhead (by decide)

theorem rootFolderFor_eq_iff (spec : MsiSpec) :
    WixSource.rootFolderFor spec =
        WixlSource.rootFolderFor (spec.bundle.installMode = .perMachine)
          (spec.arch = .x86_64) ↔
      (spec.bundle.installMode = .perMachine → spec.arch = .x86_64) := by
  have hdifferent : text "ProgramFiles64Folder" ≠
      text "ProgramFilesFolder" := by decide
  cases hmode : spec.bundle.installMode <;> cases harch : spec.arch <;>
    simp [WixSource.rootFolderFor, WixlSource.rootFolderFor, hmode,
      hdifferent]

/-- Both sources put the same files in the same places when the root folder
is one, which it is not on arm64 for the machine, and every component is
taken from its own path below the application's directory. -/
theorem sameFiles_iff {spec : MsiSpec} {tree : MsiComponentTree}
    {wix wixl : List Markup} (hrooted : Rooted tree)
    (hwix : WixSource.document spec tree = .ok wix)
    (hwixl : WixlSource.document spec tree = .ok wixl) (stageDir : Text) :
    (installationOf stageDir wix).files =
        (installationOf stageDir wixl).files ↔
      ∀ place ∈ placements [] (tree.insideInstallFolder 0),
        (spec.bundle.installMode = .perMachine → spec.arch = .x86_64) ∧
          sourceOf stageDir (WixSource.sourceFor place.2) =
            sourceOf stageDir (WixlSource.sourceFor place.2) := by
  rw [WixSource.files_of_document hrooted hwix,
    WixlSource.files_of_document hrooted hwixl, List.map_inj_left]
  simp only [← rootFolderFor_eq_iff, placedAt, PlacedFile.mk.injEq,
    WixSource.rootFolders, WixlSource.rootFolders, List.append_cancel_right_eq,
    List.cons.injEq, Folder.standard.injEq, and_true, true_and]

/-! ## The whole package -/

/-- The sources denote one installation, and no backend leaves a privileged
step out. -/
structure SamePackage (stageDir : Text) (spec : MsiSpec)
    (tree : MsiComponentTree) : Prop where
  same : ∀ wix wixl, WixSource.document spec tree = .ok wix →
    WixlSource.document spec tree = .ok wixl →
      installationOf stageDir wix = installationOf stageDir wixl
  whole : ∀ (backend : MsiBackend) source,
    backend.document spec tree = .ok source → ∀ step ∈ spec.steps,
      ∃ action ∈ (installationOf stageDir source).actions,
        action.value? "Id" = some step.id

/-- Only a step without its executable keeps a spec that the one backend
accepts from the other. -/
theorem steps_ne_nil_of_error {spec : MsiSpec} {tree : MsiComponentTree}
    {productVersion : Text} {failure : RenderError}
    (hversion : spec.productVersion = .ok productVersion)
    (hwix : WixSource.document spec tree = .error failure) :
    spec.steps ≠ [] := by
  intro hsteps
  have hactions : WixSource.customActions spec tree = .ok [] := by
    simp [WixSource.customActions, hsteps]
  simp [WixSource.document, hversion, hactions, Except.mapError, bind,
    Except.bind, pure, Except.pure] at hwix

theorem not_samePackage_of_version {stageDir : Text} {spec : MsiSpec}
    {tree : MsiComponentTree} {productVersion : Text}
    (hversion : spec.productVersion = .ok productVersion) :
    ¬ SamePackage stageDir spec tree := by
  intro hpackage
  have hwixl : WixlSource.document spec tree = .ok _ :=
    WixlSource.document_eq_ok_iff.mpr ⟨productVersion, hversion, rfl⟩
  have homitted := WixlSource.omitted_of_document hwixl stageDir
  cases hwix : WixSource.document spec tree with
  | ok wix =>
      have hupgrades := WixSource.upgrades_of_document hwix stageDir
      rw [hpackage.same _ _ hwix hwixl, homitted.1] at hupgrades
      exact absurd hupgrades.symm (List.cons_ne_nil _ _)
  | error failure =>
      rcases List.exists_mem_of_ne_nil _
        (steps_ne_nil_of_error hversion hwix) with ⟨step, hstep⟩
      rcases hpackage.whole .wixl _ hwixl step hstep with
        ⟨action, haction, -⟩
      rw [homitted.2.2.2.1] at haction
      exact List.not_mem_nil haction

/-- The backends never describe one package: they agree only in refusing a
version that no MSI can hold. -/
theorem samePackage_iff (stageDir : Text) (spec : MsiSpec)
    (tree : MsiComponentTree) :
    SamePackage stageDir spec tree ↔
      ∃ failure, spec.productVersion = .error failure := by
  constructor
  · intro hpackage
    cases hversion : spec.productVersion with
    | error failure => exact ⟨failure, rfl⟩
    | ok productVersion =>
        exact absurd hpackage (not_samePackage_of_version hversion)
  · rintro ⟨failure, hversion⟩
    have hwix : WixSource.document spec tree = .error (.bundle failure) := by
      simp [WixSource.document, hversion, Except.mapError, bind, Except.bind]
    have hwixl : WixlSource.document spec tree =
        .error (.bundle failure) := by
      simp [WixlSource.document, hversion, Except.mapError, bind,
        Except.bind]
    constructor
    · intro wix wixl hok
      simp [hwix] at hok
    · intro backend source hok
      cases backend with
      | wix => simp [MsiBackend.document, hwix] at hok
      | wixl => simp [MsiBackend.document, hwixl] at hok

/-! ### A machine-wide application of one file -/

def oneFileSpec : MsiSpec where
  bundle := {
    sampleSpec with
    installMode := .perMachine
    installerHooks := none
    installerIcon := none
    licenseFile := none
    homepage := none
    extraFiles := []
    installerLanguages := [text "English"] }
  upgradeCode := text "3F2504E0-4F89-11D3-9A0C-0305E82C3301"
  arch := .x86_64
  steps := []
  allowDowngrades := false
  conflictingRegistryKeys := []
  identified := by decide
  elevated := by simp
  distinct := by simp
  undone := by simp

def oneFile : List (StagedPath × Text) :=
  [(⟨[], ⟨text "client.exe", by decide, by decide, by decide⟩, by decide⟩,
    text "/stage/client.exe")]

/-- The installer that is built off Windows upgrades nothing. -/
theorem not_samePackage_oneFile :
    ∃ tree, MsiComponentTree.scan id (text "/stage") (some oneFile) [] =
        .ok tree ∧
      ¬ SamePackage (text "/stage") oneFileSpec tree := by
  have hscanned : ∃ tree, MsiComponentTree.scan id (text "/stage")
      (some oneFile) [] = .ok tree :=
    MsiComponentTree.exists_scan_eq_ok (by decide)
  rcases hscanned with ⟨tree, hscan⟩
  have hversion : oneFileSpec.productVersion = .ok (text "1.0.0") := by
    decide
  exact ⟨tree, hscan, not_samePackage_of_version hversion⟩

end Dovetail.Bundler
