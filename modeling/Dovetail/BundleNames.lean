import Dovetail.MsiComponentTree

/-!
# The names of bundles

Every bundler names its file after the main binary, the version without its
build number and the architecture, spelled the way of its own format.
-/

namespace Dovetail.Bundler

open CodeUnits

/-! ## Versions -/

/-- What keeps a bundle from being described: a refusal of the bundler, or a
number that is too large. -/
inductive BundleError where
  | failure (failure : BundleFailure)
  | format (source : Text)
  deriving DecidableEq

def refuse {α : Type} (message : Text) (remedy : Option Text) :
    Except BundleError α :=
  .error (.failure ⟨message, remedy⟩)

structure AppVersion where
  major : Nat
  minor : Nat
  patch : Nat
  build : Nat
  deriving DecidableEq

namespace AppVersion

def isDigit (unit : UInt16) : Bool := 48 ≤ unit && unit ≤ 57

def isLineTerminator (unit : UInt16) : Bool :=
  unit = 10 || unit = 13 || unit = 0x2028 || unit = 0x2029

/-- The digits a text begins with, and the rest. -/
def number? (source : Text) : Option (Text × Text) :=
  let digits := source.takeWhile isDigit
  if digits = [] then none else some (digits, source.dropWhile isDigit)

def dot? : Text → Option Text
  | 46 :: rest => some rest
  | _ => none

/-- The four groups of `v?1.2.3` with an optional build behind a plus. -/
def groups? (source : Text) : Option (Text × Text × Text × Option Text) := do
  let source := if source.head? = some 118 then source.drop 1 else source
  let (major, rest) ← number? source
  let rest ← dot? rest
  let (minor, rest) ← number? rest
  let rest ← dot? rest
  let (patch, rest) ← number? rest
  match rest with
  | [] => some (major, minor, patch, none)
  | 43 :: build =>
      if build = [] ∨ build.any isLineTerminator then none
      else some (major, minor, patch, some build)
  | _ => none

/-- Numbers are signed, of 64 bits. -/
def parseInt (digits : Text) : Except BundleError Nat :=
  let value :=
    digits.foldl (fun value unit => value * 10 + (unit.toNat - 48)) 0
  if value < 2 ^ 63 then .ok value else .error (.format digits)

def parse (raw : Text) : Except BundleError AppVersion :=
  match groups? (trim raw) with
  | none =>
      refuse (text "Version \"" ++ raw ++ text "\" is not major.minor.patch with an optional numeric build.")
        (some (text "Write it as 1.2.3 or 1.2.3+4."))
  | some (major, minor, patch, build) => do
      if (build.getD []).any (!isDigit ·) then
        refuse (text "Version \"" ++ raw ++
            text "\" carries non-numeric build metadata \"" ++
            build.getD [] ++ text "\".")
          (some (text "Windows accepts only unsigned decimal numbers in a file version. A sign or a 0x prefix parses as an integer and writes a version no installer reads back the way it was meant."))
      else do
        let major ← parseInt major
        let minor ← parseInt minor
        let patch ← parseInt patch
        let build ← match build with
          | none => .ok 0
          | some build => parseInt build
        return { major, minor, patch, build }

def semantic (version : AppVersion) : Text :=
  text (toString version.major) ++ text "." ++
    text (toString version.minor) ++ text "." ++
    text (toString version.patch)

end AppVersion

/-! ## Architectures -/

inductive TargetArch where
  | x86_64
  | arm64
  deriving DecidableEq

namespace TargetArch

def debian : TargetArch → Text
  | .x86_64 => text "amd64"
  | .arm64 => text "arm64"

def rpm : TargetArch → Text
  | .x86_64 => text "x86_64"
  | .arm64 => text "aarch64"

def wix : TargetArch → Text
  | .x86_64 => text "x64"
  | .arm64 => text "arm64"

def apple : TargetArch → Text
  | .x86_64 => text "x86_64"
  | .arm64 => text "arm64"

def appImage : TargetArch → Text
  | .x86_64 => text "x86_64"
  | .arm64 => text "aarch64"

/-- Upper-case letters of the Latin alphabet; no other unit becomes one that
an architecture is spelled with. -/
def toLower (source : Text) : Text :=
  source.map fun unit => if 65 ≤ unit && unit ≤ 90 then unit + 32 else unit

def parse (raw : Text) : Except BundleError TargetArch :=
  let normalized := (toLower (trim raw)).map fun unit =>
    if unit = 45 then 95 else unit
  if normalized ∈ [text "x86_64", text "x64", text "amd64", text "intel",
      text "x86 64"] then .ok .x86_64
  else if normalized ∈ [text "arm64", text "aarch64", text "armv8",
      text "apple_silicon"] then .ok .arm64
  else if normalized ∈ [text "x86", text "i386", text "i686",
      text "ia32"] then
    refuse (text "32-bit x86 (\"" ++ raw ++
        text "\") is not a target this bundler builds.")
      (some (text "Windows on ARM runs x86_64 under emulation and every supported desktop is 64-bit. Use x86_64 or arm64."))
  else if normalized ∈ [text "armv7", text "armhf", text "arm"] then
    refuse (text "32-bit ARM (\"" ++ raw ++
        text "\") is not a target this bundler builds.")
      (some (text "Use arm64 for 64-bit ARM."))
  else
    refuse (text "Architecture \"" ++ raw ++
        text "\" is not a target this bundler knows.")
      (some (text "Use x86_64 (which covers every Intel and AMD desktop — they are one instruction set, not two targets) or arm64."))

end TargetArch

/-! ## What is bundled -/

structure BundleSpec where
  productName : Text
  manufacturer : Text
  identifier : Text
  version : AppVersion
  mainBinaryName : Text
  appDirectory : Text
  outputDirectory : Text
  deriving DecidableEq

namespace BundleSpec

def check (productName mainBinaryName identifier : Text) :
    Except BundleError Unit :=
  if trim productName = [] then refuse (text "productName is empty.") none
  else if trim mainBinaryName = [] then
    refuse (text "mainBinaryName is empty.") none
  else if 46 ∉ identifier then
    refuse (text "identifier \"" ++ identifier ++
        text "\" is not a reverse-domain name.")
      (some (text "Write it as com.example.app."))
  else .ok ()

def create (productName manufacturer identifier : Text) (version : AppVersion)
    (mainBinaryName appDirectory outputDirectory : Text) :
    Except BundleError BundleSpec := do
  check productName mainBinaryName identifier
  return {
    productName, manufacturer, identifier, version, mainBinaryName
    appDirectory, outputDirectory }

def installerFileNameFor (spec : BundleSpec) (arch : TargetArch) : Text :=
  spec.mainBinaryName ++ text "_" ++ spec.version.semantic ++ text "_" ++
    arch.wix ++ text "_setup.exe"

end BundleSpec

/-- One architecture is named, more are a universal bundle. -/
def archSuffix (requiredArchitectures : List TargetArch) : Text :=
  match requiredArchitectures.dedup with
  | [] => []
  | [arch] => text "_" ++ arch.apple
  | _ => text "_universal"

def DmgBundler.fileNameFor (requiredArchitectures : List TargetArch)
    (spec : BundleSpec) : Text :=
  spec.mainBinaryName ++ text "_" ++ spec.version.semantic ++
    archSuffix requiredArchitectures ++ text ".dmg"

def AppArchiveBundler.fileNameFor (requiredArchitectures : List TargetArch)
    (spec : BundleSpec) : Text :=
  spec.mainBinaryName ++ text "_" ++ spec.version.semantic ++
    archSuffix requiredArchitectures ++ text ".app.tar.gz"

def PkgBundler.fileNameFor (requiredArchitectures : List TargetArch)
    (spec : BundleSpec) : Text :=
  spec.mainBinaryName ++ text "_" ++ spec.version.semantic ++
    archSuffix requiredArchitectures ++ text ".pkg"

def PkgBundler.installLocationFor (spec : BundleSpec) : Text :=
  text "/Applications/" ++ spec.productName ++ text ".app"

def PkgDmgBundler.fileNameFor (requiredArchitectures : List TargetArch)
    (spec : BundleSpec) : Text :=
  let pkg := PkgBundler.fileNameFor requiredArchitectures spec
  pkg.take (pkg.length - (text ".pkg").length) ++ text ".dmg"

def DebBundler.fileNameFor (arch : TargetArch) (spec : BundleSpec) : Text :=
  spec.mainBinaryName ++ text "_" ++ spec.version.semantic ++ text "_" ++
    arch.debian ++ text ".deb"

def RpmBundler.fileNameFor (arch : TargetArch) (spec : BundleSpec) : Text :=
  spec.mainBinaryName ++ text "-" ++ spec.version.semantic ++ text "-1." ++
    arch.rpm ++ text ".rpm"

def AppImageBundler.fileNameFor (arch : TargetArch) (spec : BundleSpec) :
    Text :=
  spec.mainBinaryName ++ text "-" ++ spec.version.semantic ++ text "-" ++
    arch.appImage ++ text ".AppImage"

def MsiSpec.msiFileName (arch : TargetArch) (spec : BundleSpec) : Text :=
  spec.mainBinaryName ++ text "_" ++ spec.version.semantic ++ text "_" ++
    arch.wix ++ text ".msi"

/-! ## The upgrade code -/

namespace MsiComponentGuid

def isHexDigit (unit : UInt16) : Bool :=
  (48 ≤ unit && unit ≤ 57) || (97 ≤ unit && unit ≤ 102) ||
    (65 ≤ unit && unit ≤ 70)

/-- The refusal of an upgrade code that is not a GUID. -/
def checkUpgradeCode (upgradeCode : Text) : Except BundleError Unit :=
  let hex := (trim upgradeCode).filter fun unit =>
    unit ≠ 123 ∧ unit ≠ 125 ∧ unit ≠ 45
  if hex.length ≠ 32 ∨ !hex.all isHexDigit then
    refuse (text "upgradeCode \"" ++ upgradeCode ++ text "\" is not a GUID.")
      (some (text "Write it as 12345678-1234-1234-1234-123456789ABC. It is the identity every future upgrade of this product is matched against, so it is generated once and never changed."))
  else .ok ()

end MsiComponentGuid

end Dovetail.Bundler
