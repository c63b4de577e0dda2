import Dovetail.InstallerSpec
import Dovetail.MarkupText
import Dovetail.WixRendering

/-!
# The sources of the two MSI backends

`WixSource` and `WixlSource` write one spec and one component tree in two
dialects.  Both say the same of directories and components but for the root
folder on arm64 and the source of a file from outside the application; what
`WixlSource` leaves out is in no installer that is built off Windows.
-/

namespace Dovetail.Bundler

open CodeUnits
open MarkupText

inductive RenderError where
  | bundle (error : BundleError)
  | state (message : Text)
  deriving DecidableEq

/-! ## Directories and components -/

theorem indentation_eq_pad (indent : Nat) :
    indentation indent = pad indent := rfl

theorem pad_add_two (indent : Nat) :
    pad (indent + 2) = pad indent ++ text "  " := by
  unfold pad
  rw [List.replicate_add]
  rfl

/-- The markup of a tag, in the attributes of a dialect. -/
def tagMarkup (component file : MsiComponent → List (String × Text))
    (stacked : Bool) : Tag → List Markup
  | .directory indent directory =>
      [.opens indent false ⟨"Directory", [("Id", directory.id),
        ("Name", XmlText.attributeText directory.name.units)]⟩]
  | .component indent staged =>
      [.opens indent false ⟨"Component", component staged⟩,
        .empty (indent + 2) stacked ⟨"File", file staged⟩,
        .closes indent "Component"]
  | .close indent => [.closes indent "Directory"]

def featureMarkup (title : Text) (tree : MsiComponentTree) : List Markup :=
  holding 4 false ⟨"Feature",
      [("Id", text "Main"), ("Title", title), ("Level", text "1")]⟩
    (tree.components.map fun component =>
      .empty 6 false ⟨"ComponentRef", [("Id", component.id)]⟩)

namespace WixSource

def schema : Text := text "http://wixtoolset.org/schemas/v4/wxs"

def componentAttributes (component : MsiComponent) : List (String × Text) :=
  [("Id", component.id), ("Guid", component.guid)]

def fileAttributes (component : MsiComponent) : List (String × Text) :=
  [("Id", component.fileId),
    ("Name", XmlText.attributeText component.fileName),
    ("Source", text "$(var.StageDir)\\" ++
      XmlText.attributeText component.windowsRelativePath),
    ("KeyPath", text "yes")]

def markup : Tag → List Markup :=
  tagMarkup componentAttributes fileAttributes true

/-- The markup prints as the lines of the tag. -/
theorem lines_markup (tag : Tag) :
    (markup tag).flatMap Markup.lines = lines tag := by
  cases tag with
  | directory indent directory =>
      simp [markup, tagMarkup, lines, Markup.lines, Element.lines,
        attributeText, indentation_eq_pad, text_join, text_join_last]
  | component indent component =>
      simp [markup, tagMarkup, lines, Markup.lines, Element.lines,
        stackedLines, attributeText, indentation_eq_pad, pad_add_two,
        componentAttributes, fileAttributes, text_join, text_join_last]
  | close indent =>
      simp [markup, tagMarkup, lines, Markup.lines, indentation_eq_pad,
        text_join_last]

/-- A property for each registry key of another installer, and the condition
that none of them is set. -/
def conflictGuards (spec : MsiSpec) : List Markup :=
  if spec.conflictingRegistryKeys.isEmpty then []
  else
    let property (index : Nat) : Text :=
      text "FOREIGNINSTALL" ++ text (toString index)
    let indices := List.range spec.conflictingRegistryKeys.length
    (spec.conflictingRegistryKeys.zipIdx.flatMap fun (key, index) =>
      holding 4 false ⟨"Property", [("Id", property index)]⟩
        [.empty 6 true ⟨"RegistrySearch",
          [("Id", text "search" ++ property index), ("Root", text "HKLM"),
            ("Key", XmlText.attributeText key),
            ("Name", text "UninstallString"), ("Type", text "raw"),
            ("Bitness", text "always64")]⟩]) ++
    [.empty 4 true ⟨"Launch",
        [("Condition", Updater.join (text " AND ")
            (indices.map fun index => text "NOT " ++ property index)),
          ("Message", text "Another installer already registered " ++
            XmlText.attributeText spec.bundle.productName ++
            text " on this machine. Uninstall it first: two installers registering one privileged service leaves both unable to remove it.")]⟩,
      .blank]

def rootFolderFor (spec : MsiSpec) : Text :=
  if spec.bundle.installMode = .perMachine then text "ProgramFiles64Folder"
  else text "LocalAppDataFolder"

def directoryMarkup (spec : MsiSpec) (tree : MsiComponentTree) :
    List Markup :=
  holding 4 false ⟨"StandardDirectory", [("Id", rootFolderFor spec)]⟩
    (holding 6 false ⟨"Directory",
        [("Id", text "INSTALLFOLDER"),
          ("Name", XmlText.attributeText spec.bundle.productName)]⟩
      ((tree.insideInstallFolder 8).flatMap markup))

/-- Rollbacks come before the work they undo. -/
def ordered (spec : MsiSpec) : List MsiPrivilegedStep :=
  (spec.steps.filter fun step => step.isRollback) ++
    spec.steps.filter fun step => !step.isRollback

def componentFor (tree : MsiComponentTree) (relativePath : Text) :
    Option MsiComponent :=
  let needle := relativePath.map fun unit =>
    if unit = backslash then slash else unit
  tree.components.find? fun component =>
    component.relativePath.relative = needle

def customAction (step : MsiPrivilegedStep) (host : MsiComponent) : Markup :=
  .empty 4 true ⟨"CustomAction",
    [("Id", step.id), ("FileRef", host.fileId),
      ("ExeCommand", XmlText.attributeText step.commandLine),
      ("Execute", if step.isRollback then text "rollback"
        else text "deferred"),
      ("Impersonate", text "no"),
      ("Return", if step.fatalOnFailure then text "check"
        else text "ignore")]⟩

def scheduled (step : MsiPrivilegedStep) : Markup :=
  .empty 6 false ⟨"Custom", [("Action", step.id),
    (step.phase.sequenceAttribute, step.phase.anchor)]⟩

def definitionFor (tree : MsiComponentTree) (step : MsiPrivilegedStep) :
    Except RenderError Markup :=
  match componentFor tree step.relativeExecutable with
  | none =>
      .error (.state (text "privileged step " ++ step.id ++
        text " points at " ++ step.relativeExecutable ++
        text ", which the staged tree does not hold"))
  | some host => .ok (customAction step host)

def customActions (spec : MsiSpec) (tree : MsiComponentTree) :
    Except RenderError (List Markup) :=
  if spec.steps.isEmpty then .ok []
  else do
    let definitions ← (ordered spec).mapM (definitionFor tree)
    return definitions ++ [.blank] ++
      holding 4 false ⟨"InstallExecuteSequence", []⟩
        ((ordered spec).map scheduled)

def majorUpgrade (spec : MsiSpec) : Element :=
  ⟨"MajorUpgrade",
    [("AllowDowngrades", if spec.allowDowngrades then text "yes"
        else text "no")] ++
    (if spec.allowDowngrades then [] else
      [("DowngradeErrorMessage", text "A newer version of " ++
        XmlText.attributeText spec.bundle.productName ++
        text " is already installed.")]) ++
    [("Schedule", text "afterInstallInitialize")]⟩

def packageElement (spec : MsiSpec) (productVersion : Text) : Element :=
  ⟨"Package",
    [("Name", XmlText.attributeText spec.bundle.productName),
      ("Manufacturer", XmlText.attributeText spec.bundle.manufacturer),
      ("Version", productVersion),
      ("UpgradeCode", spec.normalizedUpgradeCode),
      ("Scope", if spec.bundle.installMode = .perMachine
        then text "perMachine" else text "perUser"),
      ("InstallerVersion", text "500"), ("Compressed", text "yes"),
      ("Codepage", text "1252")]⟩

/-- What is inside the package, before its custom actions. -/
def packageBody (spec : MsiSpec) (tree : MsiComponentTree) : List Markup :=
  [.blank, .empty 4 true (majorUpgrade spec), .blank,
      .empty 4 false ⟨"MediaTemplate", [("EmbedCab", text "yes")]⟩, .blank] ++
    conflictGuards spec ++ directoryMarkup spec tree ++ [.blank] ++
    featureMarkup (text "Application") tree ++ [.blank]

def document (spec : MsiSpec) (tree : MsiComponentTree) :
    Except RenderError (List Markup) := do
  let productVersion ← spec.productVersion.mapError .bundle
  let actions ← customActions spec tree
  return [.declaration] ++
    holding 0 false ⟨"Wix", [("xmlns", schema)]⟩
      (holding 2 true (packageElement spec productVersion)
        (packageBody spec tree ++ actions))

end WixSource

namespace WixlSource

def schema : Text := text "http://schemas.microsoft.com/wix/2006/wi"

def componentAttributes (x86_64 : Bool) (component : MsiComponent) :
    List (String × Text) :=
  [("Id", component.id), ("Guid", component.guid)] ++
    if x86_64 then [("Win64", text "yes")] else []

def fileAttributes (component : MsiComponent) : List (String × Text) :=
  [("Id", component.fileId),
    ("Name", XmlText.attributeText component.fileName),
    ("Source", XmlText.attributeText component.source),
    ("KeyPath", text "yes")]

def markup (x86_64 : Bool) : Tag → List Markup :=
  tagMarkup (componentAttributes x86_64) fileAttributes false

theorem lines_markup (x86_64 : Bool) (tag : Tag) :
    (markup x86_64 tag).flatMap Markup.lines = lines x86_64 tag := by
  cases tag with
  | directory indent directory =>
      simp [markup, tagMarkup, lines, Markup.lines, Element.lines,
        attributeText, indentation_eq_pad, text_join, text_join_last]
  | component indent component =>
      cases x86_64 <;>
        simp [markup, tagMarkup, lines, Markup.lines, Element.lines,
          attributeText, indentation_eq_pad, pad_add_two,
          componentAttributes, fileAttributes, text_join, text_join_last]
  | close indent =>
      simp [markup, tagMarkup, lines, Markup.lines, indentation_eq_pad,
        text_join_last]

def directoryMarkup (spec : MsiSpec) (tree : MsiComponentTree) :
    List Markup :=
  let x86_64 := decide (spec.arch = .x86_64)
  let perMachine := decide (spec.bundle.installMode = .perMachine)
  holding 4 false ⟨"Directory",
      [("Id", text "TARGETDIR"), ("Name", text "SourceDir")]⟩
    (holding 6 false ⟨"Directory",
        [("Id", rootFolderFor perMachine x86_64)]⟩
      (holding 8 false ⟨"Directory",
          [("Id", text "INSTALLFOLDER"),
            ("Name", XmlText.attributeText spec.bundle.productName)]⟩
        ((tree.insideInstallFolder 10).flatMap (markup x86_64))))

def productElement (spec : MsiSpec) (productVersion : Text) : Element :=
  ⟨"Product",
    [("Id", text "*"),
      ("Name", XmlText.attributeText spec.bundle.productName),
      ("UpgradeCode", spec.normalizedUpgradeCode), ("Language", text "1033"),
      ("Codepage", text "1252"), ("Version", productVersion),
      ("Manufacturer", XmlText.attributeText spec.bundle.manufacturer)]⟩

def packageElement (spec : MsiSpec) (productVersion : Text) : Element :=
  ⟨"Package",
    [("InstallerVersion", text "200"), ("Compressed", text "yes"),
      ("InstallScope", if spec.bundle.installMode = .perMachine
        then text "perMachine" else text "perUser"),
      ("Manufacturer", XmlText.attributeText spec.bundle.manufacturer),
      ("Description", XmlText.attributeText spec.bundle.productName ++
        text " " ++ productVersion)]⟩

def productBody (spec : MsiSpec) (productVersion : Text)
    (tree : MsiComponentTree) : List Markup :=
  [.blank, .empty 4 true (packageElement spec productVersion), .blank,
      .empty 4 false ⟨"Media", [("Id", text "1"),
        ("Cabinet", text "app.cab"), ("EmbedCab", text "yes")]⟩, .blank] ++
    directoryMarkup spec tree ++ [.blank] ++
    featureMarkup (XmlText.attributeText spec.bundle.productName) tree

def document (spec : MsiSpec) (tree : MsiComponentTree) :
    Except RenderError (List Markup) := do
  let productVersion ← spec.productVersion.mapError .bundle
  return [.declaration] ++
    holding 0 false ⟨"Wix", [("xmlns", schema)]⟩
      (holding 2 true (productElement spec productVersion)
        (productBody spec productVersion tree))

end WixlSource

/-! ## Backends -/

inductive MsiBackend where
  | wix
  | wixl
  deriving DecidableEq

namespace MsiBackend

def forHost (onWindows : Bool) : MsiBackend :=
  if onWindows then .wix else .wixl

def document (backend : MsiBackend) (spec : MsiSpec)
    (tree : MsiComponentTree) : Except RenderError (List Markup) :=
  match backend with
  | .wix => WixSource.document spec tree
  | .wixl => WixlSource.document spec tree

/-- The text of the source, with an empty line at its end. -/
def render (backend : MsiBackend) (spec : MsiSpec)
    (tree : MsiComponentTree) : Except RenderError Text := do
  let document ← backend.document spec tree
  return Updater.join (text "
") (document.flatMap Markup.lines ++ [[]])

end MsiBackend

end Dovetail.Bundler
