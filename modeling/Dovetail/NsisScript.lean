import Dovetail.InstallerSpec
import Dovetail.WriteJournal

/-!
# The script of the NSIS installer

`NsisScript.render` as the lines it writes, with the commands of `.onInit`
and of both sections as data, and what those commands do to the files and
the registry of a machine.
-/

namespace Dovetail.Bundler

open CodeUnits
open WriteJournal

/-! ## Text -/

namespace NsisText

/-- A line break of two units is escaped as the units are. -/
def escapeUnit (unit : UInt16) : Text :=
  if unit = 36 then text "$$"
  else if unit = 34 then [36, 92, 34]
  else if unit = 96 then [36, 92, 96]
  else if unit = 10 then text "$\\n"
  else if unit = 13 then text "$\\r"
  else if unit = 9 then text "$\\t"
  else [unit]

def escape (value : Text) : Text := value.flatMap escapeUnit

def define (name : String) (value : Text) : Text :=
  text "!define " ++ text name ++ text " \"" ++ escape value ++ text "\""

end NsisText

/-! ## Commands -/

/-- The two keys the script defines. -/
inductive ProductKey where
  | uninstall
  | product
  deriving DecidableEq

/-- The texts that are written to the registry. -/
inductive RegText where
  | bareInstDir
  | instDir
  | uninstaller
  | productName
  | version
  | manufacturer
  | mainBinary
  | escaped (value : Text)
  deriving DecidableEq

inductive Command where
  | languageDialog
  | setShellVarContext (mode : InstallMode)
  | setRegView64
  | setOutPath (below : Option Text)
  | hook (file : Option Text) (name : String)
  | checkIfAppIsRunning (function : String)
  | fileRecursive
  | file (source : Text)
  | writeUninstaller
  | writeRegStr (key : ProductKey) (name : String) (value : RegText)
  | writeRegDword (key : ProductKey) (name : String) (value : Nat)
  | removeInstDir
  | deleteRegKey (key : ProductKey)
  deriving DecidableEq

def ProductKey.printed : ProductKey → Text
  | .uninstall => text "\"${UNINSTKEY}\""
  | .product => text "\"${MANUPRODUCTKEY}\""

def RegText.printed : RegText → Text
  | .bareInstDir => text "$INSTDIR"
  | .instDir => text "\"$INSTDIR\""
  | .uninstaller => text "\"$INSTDIR\\uninstall.exe\""
  | .productName => text "\"${PRODUCTNAME}\""
  | .version => text "\"${VERSION}\""
  | .manufacturer => text "\"${MANUFACTURER}\""
  | .mainBinary => text "\"${MAINBINARYNAME}.exe\""
  | .escaped value => text "\"" ++ NsisText.escape value ++ text "\""

def Command.lines : Command → List Text
  | .languageDialog => [text "  !insertmacro MUI_LANGDLL_DISPLAY"]
  | .setShellVarContext mode =>
      [text "  SetShellVarContext " ++ mode.shellContext]
  | .setRegView64 =>
      [text "  ${If} ${RunningX64}", text "    SetRegView 64",
        text "  ${EndIf}"]
  | .setOutPath none => [text "  SetOutPath $INSTDIR"]
  | .setOutPath (some below) =>
      [text "  SetOutPath \"$INSTDIR\\" ++ NsisText.escape below ++ text "\""]
  | .hook _ name =>
      [text "  !ifmacrodef " ++ text name,
        text "    !insertmacro " ++ text name, text "  !endif"]
  | .checkIfAppIsRunning function =>
      [text "  !insertmacro CheckIfAppIsRunning \"" ++ text function ++
        text "\" \"${MAINBINARYNAME}.exe\" \"${PRODUCTNAME}\""]
  | .fileRecursive => [text "  File /r \"$%DOVETAIL_APP_DIR%\\*.*\""]
  | .file source =>
      [text "  File \"" ++ NsisText.escape source ++ text "\""]
  | .writeUninstaller =>
      [text "  WriteUninstaller \"$INSTDIR\\uninstall.exe\""]
  | .writeRegStr key name value =>
      [text "  WriteRegStr SHCTX " ++ key.printed ++ text " \"" ++ text name ++
        text "\" " ++ value.printed]
  | .writeRegDword key name value =>
      [text "  WriteRegDWORD SHCTX " ++ key.printed ++ text " \"" ++
        text name ++ text "\" " ++ text (toString value)]
  | .removeInstDir => [text "  RMDir /r \"$INSTDIR\""]
  | .deleteRegKey key => [text "  DeleteRegKey SHCTX " ++ key.printed]

/-! ## The script -/

namespace NsisScript

def onInit (spec : InstallerSpec) : List Command :=
  (if spec.offersLanguageChoice then [.languageDialog] else []) ++
    [.setShellVarContext spec.installMode, .setRegView64]

def stageFile (file : StagedFile) : List Command :=
  [.setOutPath (some file.destination), .file file.source]

def register (spec : InstallerSpec) : List Command :=
  [.writeRegStr .product "" .bareInstDir,
    .writeRegStr .uninstall "DisplayName" .productName,
    .writeRegStr .uninstall "DisplayVersion" .version,
    .writeRegStr .uninstall "Publisher" .manufacturer,
    .writeRegStr .uninstall "UninstallString" .uninstaller,
    .writeRegStr .uninstall "InstallLocation" .instDir,
    .writeRegStr .uninstall "MainBinaryName" .mainBinary,
    .writeRegDword .uninstall "NoModify" 1,
    .writeRegDword .uninstall "NoRepair" 1] ++
  (spec.homepage.map fun homepage =>
    .writeRegStr .uninstall "URLInfoAbout" (.escaped homepage)).toList

def install (spec : InstallerSpec) : List Command :=
  [.setOutPath none, .hook spec.installerHooks "NSIS_HOOK_PREINSTALL",
      .checkIfAppIsRunning "", .fileRecursive] ++
    spec.extraFiles.flatMap stageFile ++
    [.setOutPath none, .writeUninstaller] ++ register spec ++
    [.hook spec.installerHooks "NSIS_HOOK_POSTINSTALL"]

def uninstall (spec : InstallerSpec) : List Command :=
  [.hook spec.installerHooks "NSIS_HOOK_PREUNINSTALL",
    .checkIfAppIsRunning "un.", .removeInstDir, .deleteRegKey .uninstall,
    .deleteRegKey .product,
    .hook spec.installerHooks "NSIS_HOOK_POSTUNINSTALL"]

def definitions (spec : InstallerSpec) : List Text :=
  [NsisText.define "PRODUCTNAME" spec.productName,
    NsisText.define "MANUFACTURER" spec.manufacturer,
    NsisText.define "BUNDLEID" spec.identifier,
    NsisText.define "VERSION" spec.version.semantic,
    NsisText.define "MAINBINARYNAME" spec.mainBinaryName,
    text "!define UNINSTKEY \"Software\\Microsoft\\Windows\\CurrentVersion\\Uninstall\\${PRODUCTNAME}\"",
    text "!define MANUKEY \"Software\\${MANUFACTURER}\"",
    text "!define MANUPRODUCTKEY \"${MANUKEY}\\${PRODUCTNAME}\"", [],
    text "!include \"dovetail_utils.nsh\"", []] ++
  (spec.installerHooks.map fun hooks =>
    [text "!include \"" ++ NsisText.escape hooks ++ text "\"", []]).getD []

def properties (spec : InstallerSpec) (arch : TargetArch) : List Text :=
  [text "Name \"${PRODUCTNAME}\"",
    text "OutFile \"" ++
      NsisText.escape (spec.installerFileNameFor arch) ++ text "\"",
    text "RequestExecutionLevel " ++ spec.installMode.executionLevel,
    text "InstallDir \"" ++ spec.installMode.defaultRoot ++
      text "\\${PRODUCTNAME}\"",
    text "VIProductVersion \"" ++ spec.version.semantic ++ text "." ++
      text (toString spec.version.build) ++ text "\"",
    text "VIAddVersionKey \"ProductName\" \"${PRODUCTNAME}\"",
    text "VIAddVersionKey \"CompanyName\" \"${MANUFACTURER}\"",
    text "VIAddVersionKey \"FileVersion\" \"${VERSION}\"",
    text "VIAddVersionKey \"ProductVersion\" \"${VERSION}\"", []]

def pages (spec : InstallerSpec) : List Text :=
  (spec.installerIcon.map fun icon =>
    text "!define MUI_ICON \"" ++ NsisText.escape icon ++
      text "\"").toList ++
  [text "!insertmacro MUI_PAGE_WELCOME"] ++
  (spec.licenseFile.map fun license =>
    text "!insertmacro MUI_PAGE_LICENSE \"" ++ NsisText.escape license ++
      text "\"").toList ++
  [text "!insertmacro MUI_PAGE_DIRECTORY",
    text "!insertmacro MUI_PAGE_INSTFILES",
    text "!insertmacro MUI_PAGE_FINISH",
    text "!insertmacro MUI_UNPAGE_CONFIRM",
    text "!insertmacro MUI_UNPAGE_INSTFILES"] ++
  (if spec.offersLanguageChoice then
    [text "!define MUI_LANGDLL_REGISTRY_ROOT \"HKCU\"",
      text "!define MUI_LANGDLL_REGISTRY_KEY \"${MANUPRODUCTKEY}\"",
      text "!define MUI_LANGDLL_REGISTRY_VALUENAME \"InstallerLanguage\""]
    else []) ++
  (spec.installerLanguages.map fun language =>
    text "!insertmacro MUI_LANGUAGE \"" ++ NsisText.escape language ++
      text "\"") ++ [[]]

def render (spec : InstallerSpec) (arch : TargetArch) (unicode : Bool) :
    Text :=
  let lines :=
    [text "Unicode " ++ (if unicode then text "true" else text "false"),
      text "ManifestDPIAware true",
      text "ManifestDPIAwareness PerMonitorV2",
      text "SetCompressor /SOLID lzma", [],
      text "!addplugindir /x86-unicode \"${PLUGINDIR}\"", [],
      text "!include MUI2.nsh", text "!include FileFunc.nsh",
      text "!include LogicLib.nsh", text "!include x64.nsh", []] ++
    definitions spec ++ properties spec arch ++ pages spec ++
    [text "Function .onInit"] ++ (onInit spec).flatMap Command.lines ++
    [text "FunctionEnd", [], text "Section Install"] ++
    (install spec).flatMap Command.lines ++
    [text "SectionEnd", [], text "Section Uninstall"] ++
    (uninstall spec).flatMap Command.lines ++ [text "SectionEnd"]
  lines.flatMap fun line => line ++ text "\n"

end NsisScript

end Dovetail.Bundler
