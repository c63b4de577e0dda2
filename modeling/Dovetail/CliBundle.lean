import Dovetail.BundleNames
import Dovetail.CliRelease
import Dovetail.CommandOptions
import Dovetail.MacosServiceScripts
import Dovetail.SignerPolicy

/-!
# The bundle command

`BundleCommand` reads what it is to bundle from its options and, for the
service, from the project.  Below is where it writes, for each format, once
the tools it calls have done their part.
-/

namespace Dovetail.Cli.Ship

open CodeUnits CommandOptions Bundler

/-! ## The project -/

inductive Host where
  | macos
  | windows
  | linux
  deriving DecidableEq

inductive DarwinServiceRoute where
  | system
  | bundled
  deriving DecidableEq

structure MacosServiceConfig where
  label : Text
  program : Text
  binary : Text
  arguments : List Text
  route : DarwinServiceRoute
  instructions : Option Text

def MacosServiceConfig.plistFileName (service : MacosServiceConfig) : Text :=
  service.label ++ text ".plist"

structure ServiceConfig where
  unitFileName : Option Text
  macos : Option MacosServiceConfig

structure UpdateConfig extends Release.UpdateConfig where
  unencrypted : Bool

structure MacosSigningConfig where
  identityEnv : Text
  entitlements : Option Text
  notarize : Bool

structure WindowsSigningConfig where
  certificateEnv : Text
  passwordEnv : Text
  timestampUrl : Option Text

structure DovetailConfig where
  identifier : Text
  name : Text
  manufacturer : Text
  targets : List Text
  targets_valid : ∀ key ∈ targets,
    Release.PlatformKey.validate key = .ok key
  update : Option UpdateConfig
  macos : Option MacosSigningConfig
  windows : Option WindowsSigningConfig
  service : Option ServiceConfig

def DovetailConfig.macosService (config : DovetailConfig) :
    Option MacosServiceConfig :=
  config.service.bind (·.macos)

/-! ## Packages -/

def outputDirectory : Text := text "dist"

/-- What is used of the packages: whether a path is absolute, joining two
parts of one, its last part, and a hash of twenty bytes. -/
structure Packages where
  isAbsolute : Text → Bool
  join : Text → Text → Text
  basename : Text → Text
  sha1 : List UInt8 → List UInt8
  join_output : ∀ name, name ≠ [] →
    join outputDirectory name = name ∨ ∃ separator ∈ [slash, backslash],
      join outputDirectory name = outputDirectory ++ separator :: name
  suffix_join : ∀ directory name, name ≠ [] → name <:+ join directory name
  length_sha1 : ∀ bytes, (sha1 bytes).length = 20

/-! ## Upgrade codes -/

namespace UpgradeCode

def urlNamespace : List UInt8 :=
  [0x6b, 0xa7, 0xb8, 0x11, 0x9d, 0xad, 0x11, 0xd1, 0x80, 0xb4, 0x00, 0xc0,
    0x4f, 0xd4, 0x30, 0xc8]

def hexText (bytes : List UInt8) : Text :=
  bytes.flatMap fun byte =>
    [WixText.hexDigit (byte.toNat / 16), WixText.hexDigit (byte.toNat % 16)]

/-- The first half of the seventh byte is the version, the first bits of the
ninth are the variant. -/
def forIdentifier (packages : Packages) (identifier : Text) : Text :=
  let name := urlNamespace ++ utf8Encode (text "dovetail:" ++ identifier)
  let digest := (packages.sha1 name).take 16
  let digest := digest.modify 6 fun byte => (byte &&& 0x0f) ||| 0x50
  let digest := digest.modify 8 fun byte => (byte &&& 0x3f) ||| 0x80
  let hex := hexText digest
  hex.take 8 ++ text "-" ++ (hex.drop 8).take 4 ++ text "-" ++
    (hex.drop 12).take 4 ++ text "-" ++ (hex.drop 16).take 4 ++ text "-" ++
    hex.drop 20

theorem isHexDigit_hexDigit {digit : Nat} (hdigit : digit < 16) :
    MsiComponentGuid.isHexDigit (WixText.hexDigit digit) = true := by
  interval_cases digit <;> decide

theorem isSpace_of_isHexDigit {unit : UInt16}
    (hunit : MsiComponentGuid.isHexDigit unit = true) :
    isSpace unit = false := by
  simp only [MsiComponentGuid.isHexDigit, Bool.or_eq_true, Bool.and_eq_true,
    decide_eq_true_eq, UInt16.le_iff_toNat_le, UInt16.reduceToNat] at hunit
  simp only [isSpace, Bool.or_eq_false_iff, Bool.and_eq_false_imp,
    decide_eq_true_eq, decide_eq_false_iff_not, beq_eq_false_iff_ne]
  omega

theorem isHexDigit_of_mem_hexText {bytes : List UInt8} {unit : UInt16}
    (hunit : unit ∈ hexText bytes) :
    MsiComponentGuid.isHexDigit unit = true := by
  obtain ⟨byte, -, hmem⟩ := List.mem_flatMap.mp hunit
  have hhigh : byte.toNat / 16 < 16 := by
    have hlt := byte.toNat_lt
    omega
  rcases List.mem_pair.mp hmem with rfl | rfl
  · exact isHexDigit_hexDigit hhigh
  · exact isHexDigit_hexDigit (Nat.mod_lt _ (by decide))

theorem length_hexText (bytes : List UInt8) :
    (hexText bytes).length = 2 * bytes.length := by
  simp [hexText, List.length_flatMap, Nat.mul_comm]

/-- The code of a digest is spelled as a GUID. -/
theorem checkUpgradeCode_forIdentifier (packages : Packages)
    (identifier : Text) :
    MsiComponentGuid.checkUpgradeCode (forIdentifier packages identifier) =
      .ok () := by
  unfold forIdentifier
  dsimp only
  generalize hdigest : (((packages.sha1 (urlNamespace ++
    utf8Encode (text "dovetail:" ++ identifier))).take 16).modify 6
      fun byte => (byte &&& 0x0f) ||| 0x50).modify 8
        (fun byte => (byte &&& 0x3f) ||| 0x80) = digest
  have hlength : (hexText digest).length = 32 := by
    rw [length_hexText, ← hdigest]
    simp [packages.length_sha1]
  have hhex : ∀ unit ∈ hexText digest, MsiComponentGuid.isHexDigit unit = true :=
    fun unit hunit => isHexDigit_of_mem_hexText hunit
  generalize hexText digest = hex at hlength hhex
  have hdash : text "-" = [45] := by decide
  rw [hdash]
  have hkept (piece : Text) (hpiece : ∀ unit ∈ piece, unit ∈ hex) :
      piece.filter (fun unit => unit ≠ 123 ∧ unit ≠ 125 ∧ unit ≠ 45) = piece := by
    refine List.filter_eq_self.mpr fun unit hunit => ?_
    have hdigit := hhex unit (hpiece unit hunit)
    refine decide_eq_true ⟨?_, ?_, ?_⟩ <;> rintro rfl <;>
      exact absurd hdigit (by decide)
  have hpieces : hex.take 8 ++ ((hex.drop 8).take 4 ++ ((hex.drop 12).take 4 ++
      ((hex.drop 16).take 4 ++ hex.drop 20))) = hex := by
    have hjoin (start size : Nat) :
        (hex.drop start).take size ++ hex.drop (start + size) =
          hex.drop start := by
      rw [← List.drop_drop, List.take_append_drop]
    rw [hjoin 16 4, hjoin 12 4, hjoin 8 4]
    exact List.take_append_drop 8 hex
  have hcode : trim (hex.take 8 ++ [45] ++ (hex.drop 8).take 4 ++ [45] ++
      (hex.drop 12).take 4 ++ [45] ++ (hex.drop 16).take 4 ++ [45] ++
        hex.drop 20) = hex.take 8 ++ [45] ++ (hex.drop 8).take 4 ++ [45] ++
      (hex.drop 12).take 4 ++ [45] ++ (hex.drop 16).take 4 ++ [45] ++
        hex.drop 20 := by
    refine trim_eq_self fun unit hunit => ?_
    have hmem : unit = 45 ∨ unit ∈ hex := by
      rw [← hpieces]
      simp only [List.mem_append, List.mem_singleton] at hunit ⊢
      tauto
    rcases hmem with rfl | hmem
    · decide
    · exact isSpace_of_isHexDigit (hhex unit hmem)
  have hfirst := hkept (hex.take 8) fun unit hunit => List.mem_of_mem_take hunit
  have hmiddle (start : Nat) := hkept ((hex.drop start).take 4) fun unit hunit =>
    List.mem_of_mem_drop (List.mem_of_mem_take hunit)
  have hlast := hkept (hex.drop 20) fun unit hunit => List.mem_of_mem_drop hunit
  have hall : hex.all MsiComponentGuid.isHexDigit = true :=
    List.all_eq_true.mpr hhex
  unfold MsiComponentGuid.checkUpgradeCode
  dsimp only
  rw [hcode]
  simp only [List.filter_append, hfirst, hmiddle, hlast]
  have hnone : ([45] : Text).filter
      (fun unit => unit ≠ 123 ∧ unit ≠ 125 ∧ unit ≠ 45) = [] := by decide
  simp only [hnone, List.append_nil, List.append_assoc]
  rw [hpieces, if_neg (by simp [hlength, hall])]

end UpgradeCode

/-! ## Options -/

/-- The options the steps of a ship are given. -/
inductive OptionName where
  | target
  | arch
  | productName
  | manufacturer
  | identifier
  | version
  | mainBinary
  | appDir
  | outDir
  | linuxFormat
  | windowsFormat
  | upgradeCode
  | macosFormat
  | file
  | directory
  | bundle
  | requireSignature
  | entitlements
  | notarize
  | adHoc
  | unencryptedKey
  | artifact
  | noRelease
  deriving DecidableEq

namespace OptionName

def all : List OptionName :=
  [.target, .arch, .productName, .manufacturer, .identifier, .version,
    .mainBinary, .appDir, .outDir, .linuxFormat, .windowsFormat, .upgradeCode,
    .macosFormat, .file, .directory, .bundle, .requireSignature, .entitlements,
    .notarize, .adHoc, .unencryptedKey, .artifact, .noRelease]

def word : OptionName → Text
  | .target => text "--target"
  | .arch => text "--arch"
  | .productName => text "--product-name"
  | .manufacturer => text "--manufacturer"
  | .identifier => text "--identifier"
  | .version => text "--version"
  | .mainBinary => text "--main-binary"
  | .appDir => text "--app-dir"
  | .outDir => text "--out-dir"
  | .linuxFormat => text "--linux-format"
  | .windowsFormat => text "--windows-format"
  | .upgradeCode => text "--upgrade-code"
  | .macosFormat => text "--macos-format"
  | .file => text "--file"
  | .directory => text "--directory"
  | .bundle => text "--bundle"
  | .requireSignature => text "--require-signature"
  | .entitlements => text "--entitlements"
  | .notarize => text "--notarize"
  | .adHoc => text "--ad-hoc"
  | .unencryptedKey => text "--unencrypted-key"
  | .artifact => text "--artifact"
  | .noRelease => text "--no-release"

def isFlag : OptionName → Bool
  | .requireSignature | .notarize | .adHoc | .unencryptedKey | .noRelease =>
      true
  | _ => false

end OptionName

def options : Options OptionName where
  word := OptionName.word
  isFlag := OptionName.isFlag
  find word := OptionName.all.find? fun name => name.word = word
  find_word name := by
    have hall : ∀ name ∈ OptionName.all,
        (OptionName.all.find? fun other => other.word = name.word) =
          some name := by
      decide
    exact hall name (by cases name <;> decide)

inductive Refusal where
  | usage (message : Text)
  | bundle (error : BundleError)
  | config (message : Text) (remedy : Option Text)
  deriving DecidableEq

/-- An option with a list of allowed values. -/
def allowed {α : Type} (name : OptionName) (value : Text) (read : Option α) :
    Except Refusal α :=
  match read with
  | some read => .ok read
  | none =>
      .error (.usage (text "\"" ++ value ++
        text "\" is not an allowed value for option \"" ++ name.word ++
        text "\"."))

def required (arguments : List (Argument OptionName)) (name : OptionName) :
    Except Refusal Text :=
  match single arguments name with
  | some value => .ok value
  | none => .error (.usage (name.word ++ text " is required."))

def Host.name : Host → Text
  | .macos => text "macos"
  | .windows => text "windows"
  | .linux => text "linux"

def Host.read (value : Text) : Option Host :=
  [Host.macos, .windows, .linux].find? fun host => host.name = value

inductive WindowsFormat where
  | nsis
  | msi
  deriving DecidableEq

def WindowsFormat.name : WindowsFormat → Text
  | .nsis => text "nsis"
  | .msi => text "msi"

def WindowsFormat.read (value : Text) : Option WindowsFormat :=
  [WindowsFormat.nsis, .msi].find? fun format => format.name = value

inductive MacosFormat where
  | dmg
  | tar
  | pkg
  | pkgDmg
  | thin
  deriving DecidableEq

def MacosFormat.name : MacosFormat → Text
  | .dmg => text "dmg"
  | .tar => text "tar"
  | .pkg => text "pkg"
  | .pkgDmg => text "pkg-dmg"
  | .thin => text "thin"

def MacosFormat.read (value : Text) : Option MacosFormat :=
  [MacosFormat.dmg, .tar, .pkg, .pkgDmg, .thin].find? fun format =>
    format.name = value

inductive LinuxFormat where
  | both
  | deb
  | rpm
  | appimage
  deriving DecidableEq

def LinuxFormat.name : LinuxFormat → Text
  | .both => text "both"
  | .deb => text "deb"
  | .rpm => text "rpm"
  | .appimage => text "appimage"

def LinuxFormat.read (value : Text) : Option LinuxFormat :=
  [LinuxFormat.both, .deb, .rpm, .appimage].find? fun format =>
    format.name = value

/-! ## Where a bundle is written -/

namespace BundleCommand

def lift {α : Type} : Except BundleError α → Except Refusal α
  | .ok value => .ok value
  | .error error => .error (.bundle error)

def architectures (arches : List Text) : Except Refusal (List TargetArch) :=
  lift (arches.mapM TargetArch.parse)

def singleArchitecture (arches : List Text) : Except Refusal TargetArch := do
  match (← architectures arches).dedup with
  | [arch] => return arch
  | chosen =>
      throw (.usage (text "this target takes one --arch, and " ++
        text (toString chosen.length) ++ text " were given."))

section

variable (packages : Packages) (service : Option ServiceConfig)
  (spec : BundleSpec) (arches : List Text)

def destination (name : Text) : Text := packages.join spec.outputDirectory name

def msi (upgradeCode : Option Text) : Except Refusal Text := do
  match upgradeCode with
  | none => throw (.usage (text "--windows-format msi needs --upgrade-code."))
  | some upgradeCode =>
      let arch ← singleArchitecture arches
      lift (MsiComponentGuid.checkUpgradeCode upgradeCode)
      return destination packages spec (MsiSpec.msiFileName arch spec)

def windows (format : WindowsFormat) (upgradeCode : Option Text) :
    Except Refusal Text := do
  match format with
  | .msi => msi packages spec arches upgradeCode
  | .nsis =>
      let arch ← singleArchitecture arches
      return destination packages spec (spec.installerFileNameFor arch)

/-- The daemon and its scripts have to be accepted, whatever the format. -/
def checkService : Except Refusal Unit :=
  match service.bind (·.macos) with
  | none => .ok ()
  | some macos =>
      if macos.route = .system then
        lift (match LaunchDaemon.check macos.label macos.program with
          | .error failure => .error (.failure failure)
          | .ok () =>
              match MacosServiceScripts.check spec.identifier
                  (PkgBundler.installLocationFor spec) [] with
              | .error failure => .error (.failure failure)
              | .ok () => .ok ())
      else .ok ()

def isSystemRoute : Bool :=
  ((service.bind (·.macos)).map (·.route)) = some .system

/-- A daemon that an installer has to put in place is not shipped in an
image. -/
def checkFormat (format : MacosFormat) : Except Refusal Unit :=
  if format = .dmg ∧ isSystemRoute service then
    .error (.usage (text "this project declares a macOS daemon on route: system (" ++
      ((service.bind (·.macos)).map (·.label)).getD [] ++
      text "), and a dmg cannot install it."))
  else .ok ()

def checkInstructions : Except Refusal Unit :=
  if trim (((service.bind (·.macos)).bind (·.instructions)).getD []) = [] then
    lift (refuse (text "a pkg inside a dmg needs the text a person reads before installing.")
      (some (text "Declare service.macos.instructions in dovetail.yaml, pointing at the instructions file. The dmg carries the .pkg and the text, and the text is the application own.")))
  else .ok ()

def macos (format : MacosFormat) : Except Refusal Text := do
  checkFormat service format
  checkService service spec
  match format with
  | .thin =>
      let _ ← singleArchitecture arches
      return spec.appDirectory
  | .tar =>
      let required ← architectures arches
      return destination packages spec (AppArchiveBundler.fileNameFor required spec)
  | .pkg =>
      let required ← architectures arches
      return destination packages spec (PkgBundler.fileNameFor required spec)
  | .pkgDmg =>
      let required ← architectures arches
      checkInstructions service
      return destination packages spec (PkgDmgBundler.fileNameFor required spec)
  | .dmg =>
      let required ← architectures arches
      return destination packages spec (DmgBundler.fileNameFor required spec)

def linux (format : LinuxFormat) : Except Refusal (List Text) := do
  let arch ← singleArchitecture arches
  let deb := destination packages spec (DebBundler.fileNameFor arch spec)
  let rpm := destination packages spec (RpmBundler.fileNameFor arch spec)
  match format, service.bind (·.unitFileName) with
  | .appimage, some unitFileName =>
      throw (.usage (text "this project declares a service (" ++
        unitFileName ++ text "), and an AppImage cannot install one."))
  | .appimage, none =>
      return [destination packages spec (AppImageBundler.fileNameFor arch spec)]
  | .both, _ => return [deb, rpm]
  | .deb, _ => return [deb]
  | .rpm, _ => return [rpm]

end

/-- What the options ask for. -/
structure Request where
  target : Host
  linuxFormat : LinuxFormat
  windowsFormat : WindowsFormat
  macosFormat : MacosFormat
  arches : List Text
  spec : BundleSpec
  upgradeCode : Option Text

def readOption {α : Type} (arguments : List (Argument OptionName))
    (name : OptionName) (reader : Text → Option α) (otherwise : α) :
    Except Refusal α :=
  match single arguments name with
  | none => .ok otherwise
  | some value => allowed name value (reader value)

def readArches (arguments : List (Argument OptionName)) :
    Except Refusal (List Text) := do
  let arches := match multi arguments .arch with
    | [] => [text "x86_64"]
    | arches => arches
  arches.forM fun arch => allowed .arch arch
    (if arch ∈ [text "x86_64", text "arm64"] then some () else none)
  return arches

def readSpec (arguments : List (Argument OptionName)) :
    Except Refusal BundleSpec := do
  let productName ← required arguments .productName
  let manufacturer ← required arguments .manufacturer
  let identifier ← required arguments .identifier
  let version ← lift (AppVersion.parse (← required arguments .version))
  let mainBinaryName ← required arguments .mainBinary
  let appDirectory ← required arguments .appDir
  let outDirectory ← required arguments .outDir
  lift (BundleSpec.create productName manufacturer identifier version
    mainBinaryName appDirectory outDirectory)

def readRequest (hostTarget : Host) (arguments : List (Argument OptionName)) :
    Except Refusal Request := do
  let target ← readOption arguments .target Host.read hostTarget
  let linuxFormat ← readOption arguments .linuxFormat LinuxFormat.read .both
  let windowsFormat ←
    readOption arguments .windowsFormat WindowsFormat.read .nsis
  let macosFormat ← readOption arguments .macosFormat MacosFormat.read .dmg
  let arches ← readArches arguments
  let spec ← readSpec arguments
  return {
    target, linuxFormat, windowsFormat, macosFormat, arches, spec
    upgradeCode := single arguments .upgradeCode }

def produce (packages : Packages) (service : Option ServiceConfig)
    (request : Request) : Except Refusal (List Text) := do
  match request.target with
  | .windows =>
      return [← windows packages request.spec request.arches
        request.windowsFormat request.upgradeCode]
  | .macos =>
      return [← macos packages service request.spec request.arches
        request.macosFormat]
  | .linux =>
      linux packages service request.spec request.arches request.linuxFormat

/-- What the command writes. -/
def run (packages : Packages) (hostTarget : Host)
    (service : Option ServiceConfig) (words : List Text) :
    Except Refusal (List Text) := do
  match parse options words with
  | none => throw (.usage (text "the options cannot be read."))
  | some arguments =>
      produce packages service (← readRequest hostTarget arguments)

end BundleCommand

end Dovetail.Cli.Ship
