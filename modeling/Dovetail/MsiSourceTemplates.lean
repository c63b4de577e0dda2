import Dovetail.MarkupReading
import Dovetail.MsiBackends
import Dovetail.MsiComponentGuid
import Dovetail.XmlText

/-!
# The templates of the MSI sources

Both renderers put names, paths and command lines into attributes with their
marks written as entities, and identifiers, versions and codes as they are.
A source is a template, with the values as they are, whose marks are written
as entities; the elements of both nest.
-/

namespace Dovetail.Bundler

open CodeUnits
open FallibleSteps
open MarkupReading
open MarkupText
open XmlValues

/-! ## The templates -/

section

variable (write : Text → Text)

def tagMarkupWith (component file : MsiComponent → List (String × Text))
    (stacked : Bool) : Tag → List Markup
  | .directory indent directory =>
      [.opens indent false ⟨"Directory", [("Id", directory.id),
        ("Name", write directory.name.units)]⟩]
  | .component indent staged =>
      [.opens indent false ⟨"Component", component staged⟩,
        .empty (indent + 2) stacked ⟨"File", file staged⟩,
        .closes indent "Component"]
  | .close indent => [.closes indent "Directory"]

end

namespace WixSource

variable (write : Text → Text)

def fileAttributesWith (component : MsiComponent) : List (String × Text) :=
  [("Id", component.fileId), ("Name", write component.fileName),
    ("Source", text "$(var.StageDir)\\" ++
      write component.windowsRelativePath),
    ("KeyPath", text "yes")]

def conflictGuardsWith (spec : MsiSpec) : List Markup :=
  if spec.conflictingRegistryKeys.isEmpty then []
  else
    let property (index : Nat) : Text :=
      text "FOREIGNINSTALL" ++ text (toString index)
    let indices := List.range spec.conflictingRegistryKeys.length
    (spec.conflictingRegistryKeys.zipIdx.flatMap fun (key, index) =>
      holding 4 false ⟨"Property", [("Id", property index)]⟩
        [.empty 6 true ⟨"RegistrySearch",
          [("Id", text "search" ++ property index), ("Root", text "HKLM"),
            ("Key", write key), ("Name", text "UninstallString"),
            ("Type", text "raw"), ("Bitness", text "always64")]⟩]) ++
    [.empty 4 true ⟨"Launch",
        [("Condition", Updater.join (text " AND ")
            (indices.map fun index => text "NOT " ++ property index)),
          ("Message", text "Another installer already registered " ++
            write spec.bundle.productName ++
            text " on this machine. Uninstall it first: two installers registering one privileged service leaves both unable to remove it.")]⟩,
      .blank]

def directoryMarkupWith (spec : MsiSpec) (tree : MsiComponentTree) :
    List Markup :=
  holding 4 false ⟨"StandardDirectory", [("Id", rootFolderFor spec)]⟩
    (holding 6 false ⟨"Directory",
        [("Id", text "INSTALLFOLDER"),
          ("Name", write spec.bundle.productName)]⟩
      ((tree.insideInstallFolder 8).flatMap (tagMarkupWith write
        componentAttributes (fileAttributesWith write) true)))

def customActionWith (step : MsiPrivilegedStep) (host : MsiComponent) :
    Markup :=
  .empty 4 true ⟨"CustomAction",
    [("Id", step.id), ("FileRef", host.fileId),
      ("ExeCommand", write step.commandLine),
      ("Execute", if step.isRollback then text "rollback"
        else text "deferred"),
      ("Impersonate", text "no"),
      ("Return", if step.fatalOnFailure then text "check"
        else text "ignore")]⟩

def definitionForWith (tree : MsiComponentTree) (step : MsiPrivilegedStep) :
    Except RenderError Markup :=
  match componentFor tree step.relativeExecutable with
  | none =>
      .error (.state (text "privileged step " ++ step.id ++
        text " points at " ++ step.relativeExecutable ++
        text ", which the staged tree does not hold"))
  | some host => .ok (customActionWith write step host)

def customActionsWith (spec : MsiSpec) (tree : MsiComponentTree) :
    Except RenderError (List Markup) :=
  if spec.steps.isEmpty then .ok []
  else do
    let definitions ← (ordered spec).mapM (definitionForWith write tree)
    return definitions ++ [.blank] ++
      holding 4 false ⟨"InstallExecuteSequence", []⟩
        ((ordered spec).map scheduled)

def majorUpgradeWith (spec : MsiSpec) : Element :=
  ⟨"MajorUpgrade",
    [("AllowDowngrades", if spec.allowDowngrades then text "yes"
        else text "no")] ++
    (if spec.allowDowngrades then [] else
      [("DowngradeErrorMessage", text "A newer version of " ++
        write spec.bundle.productName ++
        text " is already installed.")]) ++
    [("Schedule", text "afterInstallInitialize")]⟩

def packageElementWith (spec : MsiSpec) (productVersion : Text) : Element :=
  ⟨"Package",
    [("Name", write spec.bundle.productName),
      ("Manufacturer", write spec.bundle.manufacturer),
      ("Version", productVersion),
      ("UpgradeCode", spec.normalizedUpgradeCode),
      ("Scope", if spec.bundle.installMode = .perMachine
        then text "perMachine" else text "perUser"),
      ("InstallerVersion", text "500"), ("Compressed", text "yes"),
      ("Codepage", text "1252")]⟩

def packageBodyWith (spec : MsiSpec) (tree : MsiComponentTree) :
    List Markup :=
  [.blank, .empty 4 true (majorUpgradeWith write spec), .blank,
      .empty 4 false ⟨"MediaTemplate", [("EmbedCab", text "yes")]⟩, .blank] ++
    conflictGuardsWith write spec ++ directoryMarkupWith write spec tree ++
    [.blank] ++ featureMarkup (text "Application") tree ++ [.blank]

def documentWith (spec : MsiSpec) (tree : MsiComponentTree) :
    Except RenderError (List Markup) := do
  let productVersion ← spec.productVersion.mapError .bundle
  let actions ← customActionsWith write spec tree
  return [.declaration] ++
    holding 0 false ⟨"Wix", [("xmlns", schema)]⟩
      (holding 2 true (packageElementWith write spec productVersion)
        (packageBodyWith write spec tree ++ actions))

end WixSource

namespace WixlSource

variable (write : Text → Text)

def fileAttributesWith (component : MsiComponent) : List (String × Text) :=
  [("Id", component.fileId), ("Name", write component.fileName),
    ("Source", write component.source), ("KeyPath", text "yes")]

def directoryMarkupWith (spec : MsiSpec) (tree : MsiComponentTree) :
    List Markup :=
  let x86_64 := decide (spec.arch = .x86_64)
  let perMachine := decide (spec.bundle.installMode = .perMachine)
  holding 4 false ⟨"Directory",
      [("Id", text "TARGETDIR"), ("Name", text "SourceDir")]⟩
    (holding 6 false ⟨"Directory",
        [("Id", rootFolderFor perMachine x86_64)]⟩
      (holding 8 false ⟨"Directory",
          [("Id", text "INSTALLFOLDER"),
            ("Name", write spec.bundle.productName)]⟩
        ((tree.insideInstallFolder 10).flatMap (tagMarkupWith write
          (componentAttributes x86_64) (fileAttributesWith write) false))))

def productElementWith (spec : MsiSpec) (productVersion : Text) : Element :=
  ⟨"Product",
    [("Id", text "*"), ("Name", write spec.bundle.productName),
      ("UpgradeCode", spec.normalizedUpgradeCode), ("Language", text "1033"),
      ("Codepage", text "1252"), ("Version", productVersion),
      ("Manufacturer", write spec.bundle.manufacturer)]⟩

def packageElementWith (spec : MsiSpec) (productVersion : Text) : Element :=
  ⟨"Package",
    [("InstallerVersion", text "200"), ("Compressed", text "yes"),
      ("InstallScope", if spec.bundle.installMode = .perMachine
        then text "perMachine" else text "perUser"),
      ("Manufacturer", write spec.bundle.manufacturer),
      ("Description", write spec.bundle.productName ++ text " " ++
        productVersion)]⟩

def productBodyWith (spec : MsiSpec) (productVersion : Text)
    (tree : MsiComponentTree) : List Markup :=
  [.blank, .empty 4 true (packageElementWith write spec productVersion),
      .blank, .empty 4 false ⟨"Media", [("Id", text "1"),
        ("Cabinet", text "app.cab"), ("EmbedCab", text "yes")]⟩, .blank] ++
    directoryMarkupWith write spec tree ++ [.blank] ++
    featureMarkup (write spec.bundle.productName) tree

def documentWith (spec : MsiSpec) (tree : MsiComponentTree) :
    Except RenderError (List Markup) := do
  let productVersion ← spec.productVersion.mapError .bundle
  return [.declaration] ++
    holding 0 false ⟨"Wix", [("xmlns", schema)]⟩
      (holding 2 true (productElementWith write spec productVersion)
        (productBodyWith write spec productVersion tree))

end WixlSource

namespace MsiBackend

def documentWith (write : Text → Text) (backend : MsiBackend)
    (spec : MsiSpec) (tree : MsiComponentTree) :
    Except RenderError (List Markup) :=
  match backend with
  | .wix => WixSource.documentWith write spec tree
  | .wixl => WixlSource.documentWith write spec tree

/-- The source of a backend is its template with marks written as
entities. -/
theorem documentWith_attributeText (backend : MsiBackend) (spec : MsiSpec)
    (tree : MsiComponentTree) :
    backend.documentWith XmlText.attributeText spec tree =
      backend.document spec tree := by
  cases backend with
  | wix => rfl
  | wixl => rfl

end MsiBackend

/-! ## What is written as it is -/

/-- Digits, letters and what names are joined with. -/
theorem isBare_of_bounds {unit : UInt16} (hlow : 40 ≤ unit)
    (hhigh : unit ≤ 122) (hless : unit ≠ 60) (hgreater : unit ≠ 62) :
    isBare unit = true := by
  have hall : ∀ value < 123, 40 ≤ value → value ≠ 60 → value ≠ 62 →
      isBare (UInt16.ofNat value) = true := by decide
  rw [UInt16.le_iff_toNat_le] at hlow hhigh
  rw [← UInt16.ofNat_toNat (x := unit)] at hless hgreater ⊢
  apply hall
  · exact Nat.lt_succ_iff.mpr hhigh
  · exact hlow
  · rintro hsame
    exact hless (by rw [hsame]; rfl)
  · rintro hsame
    exact hgreater (by rw [hsame]; rfl)

theorem bare_of_safe {id : Text}
    (hid : ∀ unit ∈ id, WixText.isIdentifierSafe unit = true) :
    bare id = true := by
  apply List.all_eq_true.mpr
  intro unit hunit
  have hsafe := hid unit hunit
  simp only [WixText.isIdentifierSafe, WixText.underscore, Bool.or_eq_true,
    Bool.and_eq_true, decide_eq_true_eq, beq_iff_eq] at hsafe
  simp only [UInt16.le_iff_toNat_le, ← UInt16.toNat_inj,
    UInt16.reduceToNat] at hsafe
  apply isBare_of_bounds <;>
    simp only [UInt16.le_iff_toNat_le, ne_eq, ← UInt16.toNat_inj,
      UInt16.reduceToNat] <;> omega

theorem bare_toString (number : Nat) :
    bare (text (toString number)) = true := by
  apply bare_of_safe
  intro unit hunit
  have hdigit := digit_of_mem_text_toString hunit
  simp [WixText.isIdentifierSafe, hdigit]

theorem bare_hexText (bytes : List UInt8) :
    bare (MsiComponentGuid.hexText bytes) = true := by
  apply bare_of_safe
  intro unit hunit
  rcases List.mem_flatMap.mp hunit with ⟨byte, -, hmem⟩
  have hbyte := byte.toNat_lt
  rcases List.mem_pair.mp hmem with rfl | rfl
  · exact WixText.isIdentifierSafe_hexDigit (by omega)
  · exact WixText.isIdentifierSafe_hexDigit (by omega)

theorem bare_format (bytes : List UInt8) :
    bare (MsiComponentGuid.format bytes) = true := by
  have hdash : bare (text "-") = true := by decide
  simp only [MsiComponentGuid.format, MsiComponentGuid.format.slice,
    bare_append, bare_hexText, hdash, Bool.and_self]

theorem bare_productVersion {spec : MsiSpec} {productVersion : Text}
    (hversion : spec.productVersion = .ok productVersion) :
    bare productVersion = true := by
  have hdot : bare (text ".") = true := by decide
  rw [MsiVersion.eq_semantic_of_ok hversion]
  simp only [AppVersion.semantic, bare_append, bare_toString, hdot,
    Bool.and_self]

/-- An upgrade code that was checked is written in digits, letters and
dashes. -/
theorem bare_normalizedUpgradeCode (spec : MsiSpec) :
    bare spec.normalizedUpgradeCode = true := by
  have hhex : ∀ unit ∈ trim spec.upgradeCode,
      unit ≠ 123 ∧ unit ≠ 125 ∧ unit ≠ 45 →
        MsiComponentGuid.isHexDigit unit = true := by
    have hchecked := spec.identified
    rw [MsiComponentGuid.checkUpgradeCode] at hchecked
    split_ifs at hchecked with hwrong
    · cases hchecked
    · simp only [not_or, Bool.not_eq_true', Bool.not_eq_false] at hwrong
      intro unit hunit hkept
      apply List.all_eq_true.mp hwrong.2
      exact List.mem_filter.mpr ⟨hunit, by simpa using hkept⟩
  apply List.all_eq_true.mpr
  intro unit hunit
  rcases List.mem_map.mp hunit with ⟨other, hother, rfl⟩
  rcases List.mem_filter.mp hother with ⟨htrim, hbraces⟩
  rw [decide_eq_true_eq] at hbraces
  by_cases hdash : other = 45
  · rw [hdash]
    decide
  · have hdigit := hhex other htrim ⟨hbraces.1, hbraces.2, hdash⟩
    have hall : ∀ value < 103, MsiComponentGuid.isHexDigit
        (UInt16.ofNat value) = true → isBare
          (if 97 ≤ UInt16.ofNat value && UInt16.ofNat value ≤ 122 then
            UInt16.ofNat value - 32 else UInt16.ofNat value) = true := by
      decide
    have hsmall : other.toNat < 103 := by
      simp only [MsiComponentGuid.isHexDigit, Bool.or_eq_true,
        Bool.and_eq_true, decide_eq_true_eq, UInt16.le_iff_toNat_le,
        UInt16.reduceToNat] at hdigit
      omega
    have hupper := hall other.toNat hsmall
    rw [UInt16.ofNat_toNat] at hupper
    exact hupper hdigit

/-- The identifiers of a tree stand for themselves. -/
structure Coded (tree : MsiComponentTree) : Prop where
  directories : ∀ directory ∈ tree.directories, bare directory.id = true
  components : ∀ component ∈ tree.components,
    bare component.id = true ∧ bare component.guid = true

namespace MsiComponentTree

theorem bare_directoryIdFor (path : List PathName) :
    bare (directoryIdFor path) = true :=
  bare_of_safe (isIdentifier_directoryIdFor path).safe

theorem bare_uniqueId (used : List Text) (path : StagedPath) :
    bare (uniqueId used path) = true := by
  have hcandidate : bare (candidateFor path) = true :=
    bare_of_safe (isIdentifier_candidateFor path).safe
  unfold uniqueId
  split
  · rcases exists_suffix_firstFree used (candidateFor path) used.length 2 with
      ⟨suffix, hsuffix⟩
    have hunderscore : bare [WixText.underscore] = true := by decide
    rw [hsuffix, suffixed, ← List.singleton_append, bare_append, bare_append,
      hcandidate, hunderscore, bare_toString]
    rfl
  · exact hcandidate

theorem coded_addFile {guidFor : Text → Text}
    (hguid : ∀ path, bare (guidFor path) = true)
    (sources : List (StagedPath × Text)) (paths : List StagedPath)
    {scanned : Scan} (hscanned : ∀ component ∈ scanned.components,
      bare component.id = true ∧ bare component.guid = true) :
    ∀ component ∈ (paths.foldl (addFile guidFor sources) scanned).components,
      bare component.id = true ∧ bare component.guid = true := by
  induction paths generalizing scanned with
  | nil => exact hscanned
  | cons path rest ih =>
      apply ih
      intro component hcomponent
      rcases List.mem_append.mp hcomponent with hold | hnew
      · exact hscanned component hold
      · rw [List.mem_singleton.mp hnew]
        exact ⟨bare_uniqueId scanned.usedIds path, hguid path.relative⟩

theorem coded_of_scan {guidFor : Text → Text}
    (hguid : ∀ path, bare (guidFor path) = true) {appDirectory : Text}
    {listing extraFiles : List (StagedPath × Text)} {tree : MsiComponentTree}
    (hscan : scan guidFor appDirectory (some listing) extraFiles =
      .ok tree) : Coded tree where
  directories := by
    rcases built_of_scan_eq_ok hscan with ⟨paths, hbuilt, -⟩
    intro directory hdirectory
    rw [hbuilt.registered.ids directory hdirectory]
    exact bare_directoryIdFor _
  components := by
    unfold scan at hscan
    dsimp only at hscan
    split at hscan
    · cases hscan
    · cases hscan
      exact coded_addFile hguid _ _ (by simp)

end MsiComponentTree

/-! ## Tags of a tree -/

namespace MsiComponentTree

/-- A tag of something in the tree. -/
def Holds (tree : MsiComponentTree) : Tag → Prop
  | .directory _ directory => directory ∈ tree.directories
  | .component _ component => component ∈ tree.components
  | .close _ => True

variable {tree : MsiComponentTree}

theorem holds_componentsOf (directoryId : Text) (indent : Nat) :
    ∀ tag ∈ tree.componentsOf directoryId indent, tree.Holds tag := by
  intro tag htag
  rcases List.mem_map.mp htag with ⟨component, hcomponent, rfl⟩
  exact (List.mem_filter.mp hcomponent).1

theorem holds_childDirectories (parent : List PathName) (indent : Nat) :
    ∀ tag ∈ tree.childDirectories parent indent, tree.Holds tag := by
  induction parent using PathForest.induction_below
    MsiDirectory.parentRelativePath MsiDirectory.name tree.directories
    generalizing indent with
  | hstep parent ih =>
      rw [childDirectories_eq]
      intro tag htag
      rcases List.mem_flatMap.mp htag with ⟨directory, hdirectory, hmem⟩
      have hbelow := ih directory hdirectory (indent + 2)
      rw [pathOf_directory] at hbelow
      simp only [List.cons_append, List.mem_cons, List.mem_append,
        List.not_mem_nil, or_false] at hmem
      rcases hmem with rfl | (hmem | hmem) | rfl
      · exact (PathForest.mem_childrenOf.mp hdirectory).1
      · exact holds_componentsOf _ _ tag hmem
      · exact hbelow tag hmem
      · trivial

theorem holds_insideInstallFolder (indent : Nat) :
    ∀ tag ∈ tree.insideInstallFolder indent, tree.Holds tag := by
  rw [insideInstallFolder, List.forall_mem_append]
  exact ⟨holds_componentsOf _ _, holds_childDirectories _ _⟩

end MsiComponentTree

/-! ## Marks as entities -/

theorem attributeText_eq_write :
    XmlText.attributeText = XmlText.attributeEntities.write :=
  funext XmlText.attributeText_eq

/-- The attributes of an element with the marks of their values written as
entities. -/
def attributesIn (attributes : List (String × Text)) : List (String × Text) :=
  attributes.map fun entry => (entry.1, XmlText.attributeText entry.2)

theorem attributeText_append (first second : Text) :
    XmlText.attributeText (first ++ second) =
      XmlText.attributeText first ++ XmlText.attributeText second := by
  rw [attributeText_eq_write, write_append]

theorem attributeText_of_bare {value : Text} (hbare : bare value = true) :
    XmlText.attributeText value = value := by
  rw [attributeText_eq_write, write_of_bare _ hbare]

abbrev escapedSource (document : List Markup) : List Markup :=
  escaped XmlText.attributeEntities document

def elementIn (element : Element) : Element :=
  ⟨element.name, attributesIn element.attributes⟩

theorem elementIn_eq (element : Element) :
    elementIn element =
      escapedElement XmlText.attributeEntities element := by
  rw [elementIn, attributesIn, attributeText_eq_write]
  rfl

theorem escapedSource_holding (indent : Nat) (stacked : Bool)
    (element : Element) (body : List Markup) :
    escapedSource (holding indent stacked element body) =
      holding indent stacked (elementIn element) (escapedSource body) := by
  rw [escapedSource, escaped_holding, elementIn_eq]

theorem escapedSource_empty (indent : Nat) (stacked : Bool)
    (element : Element) (rest : List Markup) :
    escapedSource (.empty indent stacked element :: rest) =
      .empty indent stacked (elementIn element) :: escapedSource rest := by
  rw [elementIn_eq]
  rfl

theorem escapedSource_opens (indent : Nat) (stacked : Bool)
    (element : Element) (rest : List Markup) :
    escapedSource (.opens indent stacked element :: rest) =
      .opens indent stacked (elementIn element) :: escapedSource rest := by
  rw [elementIn_eq]
  rfl

theorem escapedSource_nil : escapedSource [] = [] := rfl

theorem escapedSource_closes (indent : Nat) (name : String)
    (rest : List Markup) :
    escapedSource (.closes indent name :: rest) =
      .closes indent name :: escapedSource rest := rfl

theorem escapedSource_blank (rest : List Markup) :
    escapedSource (.blank :: rest) = .blank :: escapedSource rest := rfl

theorem escapedSource_append (first second : List Markup) :
    escapedSource (first ++ second) =
      escapedSource first ++ escapedSource second :=
  escaped_append first second

theorem escapedSource_flatMap {Item : Type} (items : List Item)
    (part : Item → List Markup) :
    escapedSource (items.flatMap part) =
      items.flatMap fun item => escapedSource (part item) :=
  List.map_flatMap

theorem attributeText_fileId (component : MsiComponent) :
    XmlText.attributeText component.fileId = component.fileId :=
  attributeText_of_bare
    (bare_of_safe (MsiComponentTree.isIdentifier_fileId component).safe)

theorem escapedSource_tags {tree : MsiComponentTree} (hcoded : Coded tree)
    {component file fileIn : MsiComponent → List (String × Text)}
    {stacked : Bool}
    (hcomponent : ∀ staged ∈ tree.components,
      attributesIn (component staged) = component staged)
    (hfile : ∀ staged ∈ tree.components,
      attributesIn (file staged) = fileIn staged)
    {tags : List Tag} (htags : ∀ tag ∈ tags, tree.Holds tag) :
    escapedSource (tags.flatMap (tagMarkupWith id component file stacked)) =
      tags.flatMap (tagMarkup component fileIn stacked) := by
  rw [escapedSource_flatMap]
  apply List.flatMap_congr
  intro tag htag
  have hheld := htags tag htag
  cases tag with
  | directory indent directory =>
      have hid := attributeText_of_bare (hcoded.directories directory hheld)
      rw [tagMarkupWith, escapedSource_opens, elementIn, attributesIn,
        tagMarkup]
      simp only [List.map_cons, List.map_nil, hid, id_eq, escapedSource_nil]
  | component indent staged =>
      rw [tagMarkupWith, escapedSource_opens, escapedSource_empty,
        escapedSource_closes, elementIn, elementIn,
        hcomponent staged hheld, hfile staged hheld]
      rfl
  | close indent => rfl

theorem escapedSource_featureMarkup {tree : MsiComponentTree}
    (hcoded : Coded tree) (title : Text) :
    escapedSource (featureMarkup title tree) =
      featureMarkup (XmlText.attributeText title) tree := by
  have hrefs : escapedSource (tree.components.map fun component =>
      .empty 6 false ⟨"ComponentRef", [("Id", component.id)]⟩) =
        tree.components.map fun component =>
          .empty 6 false ⟨"ComponentRef", [("Id", component.id)]⟩ := by
    rw [escapedSource, escaped, List.map_map]
    apply List.map_congr_left
    intro component hcomponent
    change Markup.empty 6 false ⟨"ComponentRef", [("Id", _)]⟩ = _
    rw [write_of_bare _ (hcoded.components component hcomponent).1]
  have hmain : XmlText.attributeText (text "Main") = text "Main" := by decide
  have hlevel : XmlText.attributeText (text "1") = text "1" := by decide
  rw [featureMarkup, escapedSource_holding, hrefs, featureMarkup]
  simp only [attributesIn, elementIn, List.map_cons, List.map_nil, hmain,
    hlevel]

namespace WixSource

theorem attributesIn_componentAttributes {tree : MsiComponentTree}
    (hcoded : Coded tree) : ∀ staged ∈ tree.components,
      attributesIn (componentAttributes staged) =
        componentAttributes staged := by
  intro staged hstaged
  have hids := hcoded.components staged hstaged
  simp only [attributesIn, componentAttributes, List.map_cons, List.map_nil,
    attributeText_of_bare hids.1, attributeText_of_bare hids.2]

theorem attributesIn_fileAttributesWith (staged : MsiComponent) :
    attributesIn (fileAttributesWith id staged) = fileAttributes staged := by
  have hstage : XmlText.attributeText (text "$(var.StageDir)\\") =
      text "$(var.StageDir)\\" := by decide
  have hyes : XmlText.attributeText (text "yes") = text "yes" := by decide
  simp only [attributesIn, fileAttributesWith, fileAttributes, List.map_cons,
    List.map_nil, attributeText_append, attributeText_fileId, hstage, hyes,
    id_eq]

theorem escapedSource_directoryMarkupWith {tree : MsiComponentTree}
    (hcoded : Coded tree) (spec : MsiSpec) :
    escapedSource (directoryMarkupWith id spec tree) =
      directoryMarkup spec tree := by
  have hfolder : XmlText.attributeText (rootFolderFor spec) =
      rootFolderFor spec := by
    unfold rootFolderFor
    split_ifs <;> decide
  have hinstall : XmlText.attributeText (text "INSTALLFOLDER") =
      text "INSTALLFOLDER" := by decide
  rw [directoryMarkupWith, escapedSource_holding, escapedSource_holding,
    escapedSource_tags hcoded (attributesIn_componentAttributes hcoded)
      (fun staged _ => attributesIn_fileAttributesWith staged)
      (MsiComponentTree.holds_insideInstallFolder 8)]
  simp only [attributesIn, elementIn, List.map_cons, List.map_nil, hfolder,
    hinstall, id_eq]
  rfl

theorem bare_property (index : Nat) :
    bare (text "FOREIGNINSTALL" ++ text (toString index)) = true := by
  rw [bare_append, bare_toString]
  decide

theorem bare_join {separator : Text} (hseparator : bare separator = true)
    {parts : List Text} (hparts : ∀ part ∈ parts, bare part = true) :
    bare (Updater.join separator parts) = true := by
  induction parts with
  | nil => rfl
  | cons part rest ih =>
      have hrest := ih fun other hother => hparts other (by simp [hother])
      have hpart := hparts part (by simp)
      cases rest with
      | nil => simpa [Updater.join] using hpart
      | cons next others =>
          rw [Updater.join, bare_append, bare_append, hpart, hseparator,
            hrest]
          · rfl
          · simp

def registeredMessage : Text :=
  text " on this machine. Uninstall it first: two installers registering one privileged service leaves both unable to remove it."

set_option maxRecDepth 2000 in
theorem bare_registeredMessage : bare registeredMessage = true := by decide

theorem bare_condition (spec : MsiSpec) :
    bare (Updater.join (text " AND ")
      ((List.range spec.conflictingRegistryKeys.length).map fun index =>
        text "NOT " ++ (text "FOREIGNINSTALL" ++ text (toString index)))) =
      true := by
  apply bare_join (by decide)
  intro part hpart
  rcases List.mem_map.mp hpart with ⟨index, -, rfl⟩
  rw [bare_append, bare_property]
  decide

theorem escapedSource_conflictGuardsWith (spec : MsiSpec) :
    escapedSource (conflictGuardsWith id spec) = conflictGuards spec := by
  have hcondition := bare_condition spec
  have hmessage := attributeText_of_bare bare_registeredMessage
  unfold registeredMessage at hmessage
  rw [conflictGuardsWith, conflictGuards]
  split_ifs with hnone
  · rfl
  · simp only [escapedSource_append, escapedSource_flatMap,
      escapedSource_holding, escapedSource_empty, escapedSource_blank,
      escapedSource_nil]
    simp only [attributesIn, elementIn, List.map_cons, List.map_nil,
      attributeText_append, attributeText_of_bare hcondition, hmessage,
      attributeText_of_bare (bare_toString _), id_eq]
    simp (disch := decide) only [attributeText_of_bare]

/-- What each of the steps makes of a template, all of them make of it. -/
theorem mapM_eq_map_mapM {Item Part Failure : Type} {items : List Item}
    {step template : Item → Except Failure Part} {change : Part → Part}
    (hstep : ∀ item ∈ items, step item = (template item).map change) :
    items.mapM step = (items.mapM template).map (List.map change) := by
  induction items with
  | nil => rfl
  | cons item rest ih =>
      rw [List.mapM_cons, List.mapM_cons, hstep item (by simp),
        ih fun other hother => hstep other (by simp [hother])]
      cases template item with
      | error failure => rfl
      | ok part => cases rest.mapM template <;> rfl

theorem definitionFor_eq {step : MsiPrivilegedStep}
    (hid : XmlText.attributeText step.id = step.id)
    (tree : MsiComponentTree) :
    definitionFor tree step = (definitionForWith id tree step).map
      (escapedMarkup XmlText.attributeEntities) := by
  unfold definitionFor definitionForWith
  cases componentFor tree step.relativeExecutable with
  | none => rfl
  | some host =>
      have haction : escapedSource [customActionWith id step host] =
          [customAction step host] := by
        rw [customActionWith, escapedSource_empty, escapedSource_nil,
          customAction]
        cases step.isRollback <;> cases step.fatalOnFailure <;>
          simp (disch := decide) only [attributesIn, elementIn, List.map_cons,
            List.map_nil, hid, attributeText_fileId, attributeText_of_bare,
            id_eq, if_true, if_false, Bool.false_eq_true]
      exact congrArg Except.ok (List.singleton_inj.mp haction).symm

theorem escapedSource_scheduled {steps : List MsiPrivilegedStep}
    (hids : ∀ step ∈ steps, XmlText.attributeText step.id = step.id) :
    escapedSource (steps.map scheduled) = steps.map scheduled := by
  rw [escapedSource, escaped, List.map_map]
  apply List.map_congr_left
  intro step hstep
  have hall : escapedSource [scheduled step] = [scheduled step] := by
    rw [scheduled, escapedSource_empty, escapedSource_nil]
    cases step.phase <;>
      simp (disch := decide) only [attributesIn, elementIn, List.map_cons,
        List.map_nil, hids step hstep, MsiPhase.anchor, attributeText_of_bare]
  exact List.singleton_inj.mp hall

theorem mem_ordered {spec : MsiSpec} {step : MsiPrivilegedStep} :
    step ∈ ordered spec ↔ step ∈ spec.steps := by
  rw [ordered, List.mem_append, List.mem_filter, List.mem_filter]
  cases step.isRollback <;> simp

/-- The actions are those of the template, and fail with them. -/
theorem customActions_eq {spec : MsiSpec} {tree : MsiComponentTree}
    (hsteps : ∀ step ∈ spec.steps,
      XmlText.attributeText step.id = step.id) :
    customActions spec tree =
      (customActionsWith id spec tree).map escapedSource := by
  have hids : ∀ step ∈ ordered spec,
      XmlText.attributeText step.id = step.id :=
    fun step hstep => hsteps step (mem_ordered.mp hstep)
  have hdefinitions := mapM_eq_map_mapM fun step hstep =>
    definitionFor_eq (hids step hstep) tree
  unfold customActions customActionsWith
  split_ifs with hnone
  · rfl
  · rw [hdefinitions]
    cases (ordered spec).mapM (definitionForWith id tree) with
    | error failure => rfl
    | ok definitions =>
        change Except.ok _ = Except.ok _
        rw [escapedSource_append, escapedSource_append,
          escapedSource_holding, escapedSource_scheduled hids]
        rfl

theorem elementIn_majorUpgradeWith (spec : MsiSpec) :
    elementIn (majorUpgradeWith id spec) = majorUpgrade spec := by
  rw [majorUpgradeWith, majorUpgrade, elementIn]
  cases spec.allowDowngrades <;>
    simp (disch := decide) only [attributesIn, List.map_cons, List.map_nil,
      List.map_append, attributeText_append, attributeText_of_bare, id_eq,
      if_true, if_false, Bool.false_eq_true]

theorem elementIn_packageElementWith (spec : MsiSpec)
    {productVersion : Text} (hversion : bare productVersion = true) :
    elementIn (packageElementWith id spec productVersion) =
      packageElement spec productVersion := by
  have hcode := attributeText_of_bare (bare_normalizedUpgradeCode spec)
  have hproduct := attributeText_of_bare hversion
  rw [packageElementWith, packageElement, elementIn]
  split_ifs <;>
    simp (disch := decide) only [attributesIn, List.map_cons, List.map_nil,
      hcode, hproduct, attributeText_of_bare, id_eq]

theorem escapedSource_packageBodyWith {tree : MsiComponentTree}
    (hcoded : Coded tree) (spec : MsiSpec) :
    escapedSource (packageBodyWith id spec tree) = packageBody spec tree := by
  simp only [packageBodyWith, escapedSource_append, escapedSource_blank,
    escapedSource_empty, escapedSource_nil, escapedSource_conflictGuardsWith,
    escapedSource_directoryMarkupWith hcoded,
    escapedSource_featureMarkup hcoded, elementIn_majorUpgradeWith]
  simp (disch := decide) only [attributesIn, elementIn, List.map_cons,
    List.map_nil, attributeText_of_bare, packageBody]

/-- The source is its template with marks written as entities. -/
theorem document_eq {spec : MsiSpec} {tree : MsiComponentTree}
    (hcoded : Coded tree)
    (hsteps : ∀ step ∈ spec.steps,
      XmlText.attributeText step.id = step.id) :
    document spec tree = (documentWith id spec tree).map escapedSource := by
  have hschema : XmlText.attributeText schema = schema := by decide
  unfold document documentWith
  rw [customActions_eq hsteps]
  cases hversion : spec.productVersion with
  | error failure => rfl
  | ok productVersion =>
      cases customActionsWith id spec tree with
      | error failure => rfl
      | ok actions =>
          change Except.ok _ = Except.ok _
          rw [escapedSource_append, escapedSource_holding,
            escapedSource_holding, escapedSource_append,
            escapedSource_packageBodyWith hcoded,
            elementIn_packageElementWith spec (bare_productVersion hversion)]
          simp only [elementIn, attributesIn, List.map_cons, List.map_nil,
            hschema]
          rfl

end WixSource

namespace WixlSource

theorem attributesIn_componentAttributes {tree : MsiComponentTree}
    (hcoded : Coded tree) (x86_64 : Bool) : ∀ staged ∈ tree.components,
      attributesIn (componentAttributes x86_64 staged) =
        componentAttributes x86_64 staged := by
  intro staged hstaged
  have hids := hcoded.components staged hstaged
  cases x86_64 <;>
    simp (disch := decide) only [attributesIn, componentAttributes,
      List.map_append, List.map_cons, List.map_nil,
      attributeText_of_bare hids.1, attributeText_of_bare hids.2,
      attributeText_of_bare, if_true, if_false, Bool.false_eq_true]

theorem attributesIn_fileAttributesWith (staged : MsiComponent) :
    attributesIn (fileAttributesWith id staged) = fileAttributes staged := by
  simp (disch := decide) only [attributesIn, fileAttributesWith,
    fileAttributes, List.map_cons, List.map_nil, attributeText_fileId,
    attributeText_of_bare, id_eq]

theorem escapedSource_directoryMarkupWith {tree : MsiComponentTree}
    (hcoded : Coded tree) (spec : MsiSpec) :
    escapedSource (directoryMarkupWith id spec tree) =
      directoryMarkup spec tree := by
  have hfolder (perMachine x86_64 : Bool) :
      XmlText.attributeText (rootFolderFor perMachine x86_64) =
        rootFolderFor perMachine x86_64 := by
    cases perMachine <;> cases x86_64 <;> decide
  simp only [directoryMarkupWith, escapedSource_holding,
    escapedSource_tags hcoded (attributesIn_componentAttributes hcoded _)
      (fun staged _ => attributesIn_fileAttributesWith staged)
      (MsiComponentTree.holds_insideInstallFolder 10)]
  simp (disch := decide) only [attributesIn, elementIn, List.map_cons,
    List.map_nil, hfolder, attributeText_of_bare, id_eq]
  rfl

theorem elementIn_productElementWith (spec : MsiSpec)
    {productVersion : Text} (hversion : bare productVersion = true) :
    elementIn (productElementWith id spec productVersion) =
      productElement spec productVersion := by
  have hcode := attributeText_of_bare (bare_normalizedUpgradeCode spec)
  have hproduct := attributeText_of_bare hversion
  simp (disch := decide) only [productElementWith, productElement, elementIn,
    attributesIn, elementIn, List.map_cons, List.map_nil, hcode, hproduct,
    attributeText_of_bare, id_eq]

theorem elementIn_packageElementWith (spec : MsiSpec)
    {productVersion : Text} (hversion : bare productVersion = true) :
    elementIn (packageElementWith id spec productVersion) =
      packageElement spec productVersion := by
  have hproduct := attributeText_of_bare hversion
  rw [packageElementWith, packageElement, elementIn]
  split_ifs <;>
    simp (disch := decide) only [attributesIn, List.map_cons, List.map_nil,
      attributeText_append, hproduct, attributeText_of_bare, id_eq]

theorem escapedSource_productBodyWith {tree : MsiComponentTree}
    (hcoded : Coded tree) (spec : MsiSpec) {productVersion : Text}
    (hversion : bare productVersion = true) :
    escapedSource (productBodyWith id spec productVersion tree) =
      productBody spec productVersion tree := by
  simp only [productBodyWith, escapedSource_append, escapedSource_blank,
    escapedSource_empty, escapedSource_nil,
    escapedSource_directoryMarkupWith hcoded,
    escapedSource_featureMarkup hcoded,
    elementIn_packageElementWith spec hversion]
  simp (disch := decide) only [attributesIn, elementIn, List.map_cons,
    List.map_nil, attributeText_of_bare, productBody, id_eq]

/-- The source is its template with marks written as entities. -/
theorem document_eq {spec : MsiSpec} {tree : MsiComponentTree}
    (hcoded : Coded tree) :
    document spec tree = (documentWith id spec tree).map escapedSource := by
  have hschema : XmlText.attributeText schema = schema := by decide
  unfold document documentWith
  cases hversion : spec.productVersion with
  | error failure => rfl
  | ok productVersion =>
      have hproduct := bare_productVersion hversion
      change Except.ok _ = Except.ok _
      rw [escapedSource_append, escapedSource_holding, escapedSource_holding,
        escapedSource_productBodyWith hcoded spec hproduct,
        elementIn_productElementWith spec hproduct]
      simp only [elementIn, attributesIn, List.map_cons, List.map_nil,
        hschema]
      rfl

end WixlSource

/-! ## Elements that nest -/

section

variable {tree : MsiComponentTree}
  {component file : MsiComponent → List (String × Text)} {stacked : Bool}
  (hcomponent : ∀ staged, WellNamed false ⟨"Component", component staged⟩)
  (hfile : ∀ staged, WellNamed stacked ⟨"File", file staged⟩)
include hcomponent hfile

theorem stands_componentsOf (directoryId : Text) (indent : Nat) :
    Stands ((tree.componentsOf directoryId indent).flatMap
      (tagMarkup component file stacked)) := by
  rw [flatMap_componentsOf]
  apply stands_flatMap
  intro staged _
  exact (Stands.empty (indent + 2) (hfile staged)).holding indent
    (hcomponent staged)

theorem stands_childDirectories (parent : List PathName) (indent : Nat) :
    Stands ((tree.childDirectories parent indent).flatMap
      (tagMarkup component file stacked)) := by
  induction parent using PathForest.induction_below
    MsiDirectory.parentRelativePath MsiDirectory.name tree.directories
    generalizing indent with
  | hstep parent ih =>
      rw [flatMap_childDirectories]
      apply stands_flatMap
      intro directory hdirectory
      have hdeeper := ih directory hdirectory (indent + 2)
      rw [MsiComponentTree.pathOf_directory] at hdeeper
      have hnamed : WellNamed false (directoryElement directory) :=
        wellNamed_of_names "Directory" ["Id", "Name"] rfl rfl (by decide)
      exact ((stands_componentsOf hcomponent hfile directory.id
        (indent + 2)).append hdeeper).holding indent hnamed

theorem stands_insideInstallFolder (indent : Nat) :
    Stands ((tree.insideInstallFolder indent).flatMap
      (tagMarkup component file stacked)) := by
  rw [MsiComponentTree.insideInstallFolder, List.flatMap_append]
  exact (stands_componentsOf hcomponent hfile _ indent).append
    (stands_childDirectories hcomponent hfile [] indent)

end

theorem stands_featureMarkup (title : Text) (tree : MsiComponentTree) :
    Stands (featureMarkup title tree) := by
  apply Stands.holding
  · exact wellNamed_of_names "Feature" ["Id", "Title", "Level"] rfl rfl
      (by decide)
  · apply stands_of_empty
    intro markup hmarkup
    rcases List.mem_map.mp hmarkup with ⟨component, -, rfl⟩
    exact ⟨6, false, _, rfl,
      wellNamed_of_names "ComponentRef" ["Id"] rfl rfl (by decide)⟩

namespace WixSource

theorem stands_conflictGuards (spec : MsiSpec) :
    Stands (conflictGuards spec) := by
  unfold conflictGuards
  split
  · exact Stands.nil
  · apply Stands.append
    · apply stands_flatMap
      intro key _
      apply Stands.holding
      · exact wellNamed_of_names "Property" ["Id"] rfl rfl (by decide)
      · apply Stands.empty
        exact wellNamed_of_names "RegistrySearch"
          ["Id", "Root", "Key", "Name", "Type", "Bitness"] rfl rfl
          (by decide)
    · apply Stands.blank.afterEmpty
      exact wellNamed_of_names "Launch" ["Condition", "Message"] rfl rfl
        (by decide)

theorem stands_directoryMarkup (spec : MsiSpec) (tree : MsiComponentTree) :
    Stands (directoryMarkup spec tree) := by
  have hinside : Stands ((tree.insideInstallFolder 8).flatMap markup) := by
    apply stands_insideInstallFolder
    · intro staged
      exact wellNamed_of_names "Component" ["Id", "Guid"] rfl rfl (by decide)
    · intro staged
      exact wellNamed_of_names "File" ["Id", "Name", "Source", "KeyPath"] rfl
        rfl (by decide)
  apply Stands.holding
  · exact wellNamed_of_names "StandardDirectory" ["Id"] rfl rfl (by decide)
  · apply hinside.holding
    exact wellNamed_of_names "Directory" ["Id", "Name"] rfl rfl (by decide)

theorem stands_customActions {spec : MsiSpec} {tree : MsiComponentTree}
    {actions : List Markup}
    (hactions : customActions spec tree = .ok actions) : Stands actions := by
  unfold customActions at hactions
  split_ifs at hactions
  · cases hactions
    exact Stands.nil
  · rcases bind_eq_ok_iff.mp hactions with ⟨definitions, hdefinitions, hall⟩
    cases hall
    have hstands : Stands definitions := by
      apply stands_of_empty
      intro markup hmarkup
      rcases exists_customAction hdefinitions hmarkup with ⟨step, host, rfl⟩
      exact ⟨4, true, _, rfl, wellNamed_of_names "CustomAction"
        ["Id", "FileRef", "ExeCommand", "Execute", "Impersonate", "Return"]
        rfl rfl (by decide)⟩
    have hscheduled : Stands ((ordered spec).map scheduled) := by
      apply stands_of_empty
      intro markup hmarkup
      rcases List.mem_map.mp hmarkup with ⟨step, -, rfl⟩
      refine ⟨6, false, _, rfl, wellNamed_of_names "Custom"
        ["Action", step.phase.sequenceAttribute] rfl rfl ?_⟩
      cases step.phase <;> decide
    apply (hstands.append Stands.blank).append
    apply hscheduled.holding
    exact wellNamed_of_names "InstallExecuteSequence" [] rfl rfl (by decide)

theorem wellNamed_majorUpgrade (spec : MsiSpec) :
    WellNamed true (majorUpgrade spec) := by
  cases hdowngrades : spec.allowDowngrades with
  | true =>
      apply wellNamed_of_names "MajorUpgrade" ["AllowDowngrades", "Schedule"]
        rfl _ (by decide)
      simp [majorUpgrade, hdowngrades]
  | false =>
      apply wellNamed_of_names "MajorUpgrade"
        ["AllowDowngrades", "DowngradeErrorMessage", "Schedule"] rfl _
        (by decide)
      simp [majorUpgrade, hdowngrades]

theorem stands_packageBody (spec : MsiSpec) (tree : MsiComponentTree) :
    Stands (packageBody spec tree) := by
  have hmedia : WellNamed false
      ⟨"MediaTemplate", [("EmbedCab", text "yes")]⟩ :=
    wellNamed_of_names "MediaTemplate" ["EmbedCab"] rfl rfl (by decide)
  have hfront : Stands [.blank, .empty 4 true (majorUpgrade spec), .blank,
      .empty 4 false ⟨"MediaTemplate", [("EmbedCab", text "yes")]⟩,
      .blank] :=
    ((Stands.blank.afterEmpty hmedia).afterBlank.afterEmpty
      (wellNamed_majorUpgrade spec)).afterBlank
  exact ((((hfront.append (stands_conflictGuards spec)).append
    (stands_directoryMarkup spec tree)).append Stands.blank).append
    (stands_featureMarkup _ tree)).append Stands.blank

end WixSource

namespace WixlSource

theorem wellNamed_component (x86_64 : Bool) (staged : MsiComponent) :
    WellNamed false ⟨"Component", componentAttributes x86_64 staged⟩ := by
  cases x86_64 with
  | true =>
      exact wellNamed_of_names "Component" ["Id", "Guid", "Win64"] rfl rfl
        (by decide)
  | false =>
      exact wellNamed_of_names "Component" ["Id", "Guid"] rfl rfl (by decide)

theorem stands_directoryMarkup (spec : MsiSpec) (tree : MsiComponentTree) :
    Stands (directoryMarkup spec tree) := by
  have hinside : Stands ((tree.insideInstallFolder 10).flatMap
      (markup (decide (spec.arch = .x86_64)))) := by
    apply stands_insideInstallFolder
    · exact wellNamed_component _
    · intro staged
      exact wellNamed_of_names "File" ["Id", "Name", "Source", "KeyPath"] rfl
        rfl (by decide)
  apply Stands.holding
  · exact wellNamed_of_names "Directory" ["Id", "Name"] rfl rfl (by decide)
  · apply Stands.holding
    · exact wellNamed_of_names "Directory" ["Id"] rfl rfl (by decide)
    · apply hinside.holding
      exact wellNamed_of_names "Directory" ["Id", "Name"] rfl rfl (by decide)

theorem stands_productBody (spec : MsiSpec) (productVersion : Text)
    (tree : MsiComponentTree) :
    Stands (productBody spec productVersion tree) := by
  have hmedia : WellNamed false ⟨"Media", [("Id", text "1"),
      ("Cabinet", text "app.cab"), ("EmbedCab", text "yes")]⟩ :=
    wellNamed_of_names "Media" ["Id", "Cabinet", "EmbedCab"] rfl rfl
      (by decide)
  have hpackage : WellNamed true (packageElement spec productVersion) :=
    wellNamed_of_names "Package" ["InstallerVersion", "Compressed",
      "InstallScope", "Manufacturer", "Description"] rfl rfl (by decide)
  have hfront : Stands [.blank,
      .empty 4 true (packageElement spec productVersion), .blank,
      .empty 4 false ⟨"Media", [("Id", text "1"),
        ("Cabinet", text "app.cab"), ("EmbedCab", text "yes")]⟩, .blank] :=
    ((Stands.blank.afterEmpty hmedia).afterBlank.afterEmpty
      hpackage).afterBlank
  exact ((hfront.append (stands_directoryMarkup spec tree)).append
    Stands.blank).append (stands_featureMarkup _ tree)

end WixlSource

end Dovetail.Bundler
