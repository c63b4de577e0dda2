import Dovetail.CliBundle

/-!
# Ship plans

`ShipPlan.of` turns a project into the steps that ship it, names their
artefacts before any of them is made, and says what keeps the plan from being
run.
-/

namespace Dovetail.Cli.Ship

open CodeUnits CommandOptions Bundler Signer

/-! ## Plans -/

inductive ShipChannel where
  | release
  | internal
  deriving DecidableEq

def ShipChannel.isInternal (channel : ShipChannel) : Bool :=
  channel = .internal

structure ShipStep where
  label : Text
  command : Text
  arguments : List Text
  deriving DecidableEq

/-- The labels of the artefacts and their paths; a label is assigned once. -/
abbrev Paths := List (Text × Text)

def Paths.assign (paths : Paths) (entry : Text × Text) : Paths :=
  if paths.any fun other => other.1 = entry.1 then
    paths.map fun other => if other.1 = entry.1 then entry else other
  else paths ++ [entry]

structure ShipPlan where
  steps : List ShipStep
  artifacts : Paths
  downloads : Paths
  refusals : List Text
  notices : List Text

namespace FlutterBuild

def outputOf (target : Host) (release : Bool) : Text :=
  match target, release with
  | .macos, true => text "build/macos/Build/Products/Release"
  | .windows, true => text "build/windows/x64/runner/Release"
  | .linux, true => text "build/linux/x64/release/bundle"
  | .macos, false => text "build/macos/Build/Products/Debug"
  | .windows, false => text "build/windows/x64/runner/Debug"
  | .linux, false => text "build/linux/x64/debug/bundle"

end FlutterBuild

/-- What a plan is made from, and which files there are when it is made. -/
structure Shipment where
  config : DovetailConfig
  version : Text
  host : Host
  binary : Text
  build : Bool
  windowsFormat : Option WindowsFormat
  environment : Option Environment
  channel : ShipChannel
  root : Option Text
  onDisk : Text → Bool

namespace ShipPlan

/-! ## Groups of targets -/

def operatingSystem (key : Text) : Text :=
  (key.splitOn Release.dash).headD []

def wireArch (key : Text) : Text := (key.splitOn Release.dash).getLastD []

def hostFor (os : Text) : Text :=
  if os = text "darwin" then text "macos" else os

def targetsForHost (config : DovetailConfig) (host : Host) : List Text :=
  config.targets.filter fun key =>
    hostFor (operatingSystem key) = host.name

def groups (mine : List Text) (host : Host) : List (List Text) :=
  match host with
  | .macos => [mine]
  | _ => mine.map fun key => [key]

def bundlerArch (wireArch : Text) : Text :=
  if wireArch = text "aarch64" then text "arm64" else wireArch

def archesOf (group : List Text) : List Text :=
  group.map fun key => bundlerArch (wireArch key)

def labelOf : List Text → Text
  | [key] => key
  | group => operatingSystem (group.headD []) ++ text "-universal"

section

variable (packages : Packages) (shipment : Shipment)

/-! ## Names and options -/

def releaseBuild : Bool := !shipment.channel.isInternal

def macosDownloadFormat : MacosFormat :=
  if shipment.channel.isInternal ∧
      shipment.config.macosService.map (·.route) = some .system then .pkgDmg
  else .dmg

def builtBundleFor : Text :=
  packages.join (FlutterBuild.outputOf .macos (releaseBuild shipment))
    (shipment.binary ++ text ".app")

def spec : Except BundleError BundleSpec := do
  let version ← AppVersion.parse shipment.version
  BundleSpec.create shipment.config.name shipment.config.manufacturer
    shipment.config.identifier version shipment.binary
    (builtBundleFor packages shipment) outputDirectory

def artifactNameFor (arches : List Text) (macosFormat : MacosFormat) :
    Except BundleError Text := do
  let spec ← spec packages shipment
  let first ← TargetArch.parse (arches.headD [])
  match shipment.host with
  | .macos =>
      let required ← arches.mapM TargetArch.parse
      match macosFormat with
      | .tar => return AppArchiveBundler.fileNameFor required spec
      | .pkg => return PkgBundler.fileNameFor required spec
      | .pkgDmg => return PkgDmgBundler.fileNameFor required spec
      | .dmg | .thin => return DmgBundler.fileNameFor required spec
  | .linux => return DebBundler.fileNameFor first spec
  | .windows =>
      if shipment.windowsFormat = some .msi then
        MsiComponentGuid.checkUpgradeCode
          (UpgradeCode.forIdentifier packages shipment.config.identifier)
        return MsiSpec.msiFileName first spec
      else return spec.installerFileNameFor first

def appDirectory : Text :=
  match shipment.host with
  | .macos => builtBundleFor packages shipment
  | host => FlutterBuild.outputOf host (releaseBuild shipment)

def macosFormatArguments (macosFormat : MacosFormat) :
    List (Argument OptionName) :=
  if shipment.host = .macos ∧ macosFormat ≠ .dmg then
    [.valued .macosFormat macosFormat.name]
  else []

def windowsFormatArguments : List (Argument OptionName) :=
  match shipment.host, shipment.windowsFormat with
  | .windows, some format => [.valued .windowsFormat format.name]
  | _, _ => []

def upgradeCodeArguments : List (Argument OptionName) :=
  if shipment.host = .windows ∧ shipment.windowsFormat = some .msi then
    [.valued .upgradeCode
      (UpgradeCode.forIdentifier packages shipment.config.identifier)]
  else []

def bundleArguments (arches : List Text) (macosFormat : MacosFormat) :
    List (Argument OptionName) :=
  .valued .target shipment.host.name :: arches.map (.valued .arch) ++
    [.valued .productName shipment.config.name,
      .valued .manufacturer shipment.config.manufacturer,
      .valued .identifier shipment.config.identifier,
      .valued .version shipment.version,
      .valued .mainBinary shipment.binary,
      .valued .appDir (appDirectory packages shipment),
      .valued .outDir outputDirectory] ++
    macosFormatArguments shipment macosFormat ++
    windowsFormatArguments shipment ++ upgradeCodeArguments packages shipment

/-! ## Steps -/

def requireSignature : List (Argument OptionName) :=
  if shipment.host = .windows ∧ !shipment.channel.isInternal ∧
      shipment.config.windows.isSome then [.flag .requireSignature]
  else []

def notarize : List (Argument OptionName) :=
  if (shipment.config.macos.map (·.notarize)).getD false then
    [.flag .requireSignature, .flag .notarize]
  else []

def building : ShipStep where
  label := text "build " ++ shipment.host.name
  command := text "build"
  arguments := words options
    (.valued .target shipment.host.name ::
      if releaseBuild shipment then [] else [.flag .noRelease])

def bundling (title : Text) (arches : List Text) (macosFormat : MacosFormat)
    (label : Text) : ShipStep where
  label := title ++ label
  command := text "bundle"
  arguments := words options (bundleArguments packages shipment arches macosFormat)

def signsBundle : List (Argument OptionName) :=
  .valued .bundle (builtBundleFor packages shipment) ::
    ((shipment.config.macos.bind (·.entitlements)).elim []
      fun entitlements => [.valued .entitlements entitlements]) ++
    if shipment.channel.isInternal then [.flag .adHoc]
    else notarize shipment

def signing (artifact label : Text) : ShipStep where
  label := text "sign " ++ label
  command := text "sign"
  arguments := words options
    (.valued .target shipment.host.name ::
      match shipment.host with
      | .macos => signsBundle packages shipment
      | .windows => .valued .file artifact :: requireSignature shipment
      | .linux => [.valued .file artifact, .valued .outDir outputDirectory])

def signingPayload (label : Text) : ShipStep where
  label := text "sign payload " ++ label
  command := text "sign"
  arguments := words options
    (.valued .target shipment.host.name ::
      .valued .directory
        (FlutterBuild.outputOf shipment.host (releaseBuild shipment)) ::
      requireSignature shipment)

def signingContainer (artifact label : Text) : ShipStep where
  label := text "sign dmg " ++ label
  command := text "sign"
  arguments := words options
    (.valued .target shipment.host.name :: .valued .file artifact ::
      notarize shipment)

def releasing (artifacts : Paths) : ShipStep where
  label := text "release " ++ shipment.version
  command := text "release"
  arguments := words options
    (.valued .version shipment.version ::
      (if (shipment.config.update.map (·.unencrypted)).getD false then
        [.flag .unencryptedKey] else []) ++
      artifacts.map fun made =>
        .valued .artifact (made.1 ++ Release.equals :: made.2))

/-- What the targets of a group contribute. -/
structure GroupPlan where
  steps : List ShipStep
  artifacts : Paths
  downloads : Paths

def planGroup (group : List Text) : Except BundleError GroupPlan := do
  let arches := archesOf group
  let label := labelOf group
  let macosFormat := macosDownloadFormat shipment
  let internal := shipment.channel.isInternal
  let artifact := packages.join outputDirectory
    (← artifactNameFor packages shipment arches macosFormat)
  let bundled := bundling packages shipment (text "bundle ") arches macosFormat
    label
  let signed := signing packages shipment artifact label
  match shipment.host with
  | .macos =>
      let thinned := if arches.length = 1 then
        [bundling packages shipment (text "thin ") arches .thin label] else []
      if internal then
        return ⟨thinned ++ [signed, bundled], [], [(label, artifact)]⟩
      else
        let archive := packages.join outputDirectory
          (← artifactNameFor packages shipment arches .tar)
        let archived := bundling packages shipment (text "archive ") arches .tar
          label
        let container := if macosFormat = .dmg then
          [signingContainer shipment artifact label] else []
        return ⟨thinned ++ [signed, bundled] ++ container ++ [archived],
          [(label, archive)], [(label, artifact)]⟩
  | host =>
      let steps := if host = .windows then
          [signingPayload shipment label, bundled, signed]
        else [bundled, signed]
      if internal then return ⟨steps, [], [(label, artifact)]⟩
      else return ⟨steps, [(label, artifact)], []⟩

/-! ## Refusals -/

def internalUpdateRefusals : List Text :=
  if shipment.channel.isInternal ∧ shipment.config.update.isSome then
    [text "the internal channel writes no updater manifest, and dovetail.yaml declares an update section. An internal artefact must not reach the update channel installed clients read, so ship refuses the combination rather than trusting whoever runs it. Drop the update section for an internal build, or use --channel release."]
  else []

def serviceRefusals : List Text :=
  match shipment.host, shipment.config.macosService with
  | .macos, some service =>
      match shipment.channel, service.route with
      | .release, .system =>
          [text "service.macos.route is system, and the release channel ships a .dmg: a dmg mounts an image and the user drags the .app out, so it runs no script and the daemon \"" ++
            service.label ++
            text "\" never installs. Use --channel internal, whose .pkg runs the postinstall that puts the daemon in /Library and boots it, or move the daemon to route: bundled for a release from the .dmg."]
      | .release, .bundled => []
      | .internal, .bundled =>
          [text "service.macos.route is bundled, and the internal channel signs ad-hoc: SMAppService registers the daemon by a valid signature with the same Team ID as the app, and an ad-hoc build has no Team ID. The daemon would install and never register. Use --channel release with a Developer ID, or declare route: system for an internal build, whose installer loads the daemon with launchctl instead."]
      | .internal, .system =>
          if isSet service.instructions then []
          else
            [text "service.macos.route is system, and the internal dmg ships the .pkg with the text a person reads beside it, and service.macos.instructions is not declared. Declare it in dovetail.yaml: the text is the application own, and the dmg is the toolkit own."]
  | _, _ => []

def publicKeyRefusals : List Text :=
  if !shipment.channel.isInternal ∧
      shipment.config.update.any (·.publicKey.isNone) then
    [text "update.public-key is not declared, and the plan ends in a release step that refuses without it. Declare the public key the shipped app carries in dovetail.yaml — everything before the release would be built and then thrown away."]
  else []

/-- What the sign step will refuse after the build. -/
def notarisationRefusals (macos : MacosSigningConfig) : List Text :=
  match shipment.environment with
  | none => []
  | some environment =>
      let identity :=
        if !isSet (environment (text "APPLE_SIGNING_IDENTITY")) ∧
            !isSet (environment macos.identityEnv) then
          [text "sign.macos.notarize is true, and neither " ++
            macos.identityEnv ++
            text " nor APPLE_SIGNING_IDENTITY is exported — the sign step would refuse after the build. Export the Developer ID identity, or set notarize: false for a local, unsigned build."]
        else []
      let credentials :=
        match NotarytoolArguments.forWhicheverIsConfigured environment with
        | .ok (some _) => []
        | .ok none =>
            [text "sign.macos.notarize is true, and no notarisation credential group is complete: APPLE_ID + APPLE_PASSWORD + APPLE_TEAM_ID, or APPLE_API_KEY_ID + APPLE_API_ISSUER + APPLE_API_KEY_PATH. The dmg step would refuse after the build."]
        | .error failure =>
            [failure.message ++
              (failure.remedy.elim [] fun remedy => text " " ++ remedy)]
      identity ++ credentials

/-- What the release channel lacks to sign on Windows. -/
def windowsSigningGap (windows : WindowsSigningConfig)
    (environment : Environment) : Option Text :=
  if !isSet (environment windows.certificateEnv) ∧
      !isSet (environment (text "WINDOWS_CERTIFICATE_FILE")) ∧
      !isSet (environment (text "WINDOWS_CERTIFICATE_THUMBPRINT")) then
    some (text "the release channel signs the installer and its payload, and neither " ++
      windows.certificateEnv ++
      text " nor WINDOWS_CERTIFICATE_FILE nor WINDOWS_CERTIFICATE_THUMBPRINT is set")
  else if !isSet (environment (text "WINDOWS_TIMESTAMP_URL")) ∧
      !isSet windows.timestampUrl then
    some (text "the certificate is set, and no timestamp server is: sign.windows.timestamp-url is not declared and WINDOWS_TIMESTAMP_URL is not exported, so the signature dies when the certificate expires")
  else none

def windowsRefusals : List Text :=
  match shipment.channel, shipment.host, shipment.config.windows,
      shipment.environment with
  | .release, .windows, some windows, some environment =>
      match windowsSigningGap windows environment with
      | some gap => [gap ++ text " — the sign step would skip after the build."]
      | none => []
  | _, _, _, _ => []

def keyPathFrom (update : UpdateConfig) (root : Text) : Text :=
  if packages.isAbsolute update.keyPath then update.keyPath
  else packages.join root update.keyPath

/-- The release signs last, so its key has to be there first. -/
def updateKeyRefusals (update : UpdateConfig) : List Text :=
  let absent :=
    match shipment.root with
    | none => []
    | some root =>
        let keyPath := keyPathFrom packages update root
        if shipment.onDisk keyPath then []
        else
          [text "the update signing key " ++ update.keyPath ++
            text " is not at " ++ keyPath ++
            text ", and the release step signs the artefacts with it at the END of the run. Everything before it — the build, the signature, the dmg — would be spent and then thrown away. It is the key every installed client already trusts; keep it on the release machine"]
  let locked :=
    match shipment.environment with
    | none => []
    | some environment =>
        if !update.unencrypted ∧ !isSet (environment update.passwordEnv) then
          [update.passwordEnv ++
            text " is not set, and update.unencrypted is not true: the release step refuses without the key password at the end of the run. Export it, or set update.unencrypted: true if the key has no password"]
        else []
  absent ++ locked

def refusalsOf : List Text :=
  let notarised :=
    match shipment.channel, shipment.host, shipment.config.macos with
    | .release, .macos, some macos =>
        if macos.notarize then notarisationRefusals shipment macos else []
    | _, _, _ => []
  let keys :=
    match shipment.channel, shipment.config.update with
    | .release, some update => updateKeyRefusals packages shipment update
    | _, _ => []
  internalUpdateRefusals shipment ++ serviceRefusals shipment ++
    publicKeyRefusals shipment ++ notarised ++ windowsRefusals shipment ++ keys

def noticesOf (refusals : List Text) (downloads : Paths) : List Text :=
  if shipment.host = .macos ∧ macosDownloadFormat shipment = .pkgDmg ∧
      refusals = [] then
    [text "the dmg wraps the unsigned pkg and the instructions: open " ++
      ((downloads.map (·.2)).headD []) ++
      text " and run the pkg inside it — or from a shell, `sudo installer -pkg <the pkg inside the image> -target /`. Finder refuses a package with no Developer ID Installer signature."]
  else []

/-! ## The plan -/

def of : Except Refusal ShipPlan := do
  let mine := targetsForHost shipment.config shipment.host
  if mine = [] then
    throw (.config (text "this host builds none of the declared targets.")
      (some (text "It is " ++ shipment.host.name ++
        text ", and dovetail.yaml lists " ++
        Updater.join (text ", ") shipment.config.targets ++
        text ". That is a runner whose part of the matrix lives elsewhere, not an error — but ship has nothing to do here.")))
  if !shipment.channel.isInternal ∧
      shipment.config.update.any (·.baseUrl.isNone) then
    throw (.config (text "update.base-url is not set, so the release step has nothing to point at.")
      (some (text "Add it to dovetail.yaml, under update:\n    base-url: https://your.cdn/releases\nThe manifest url is built as <base-url>/<version>/<file>. To point each artefact somewhere of its own instead, skip ship and call: dovetail release --artifact platformKey=url=path")))
  let plans ← BundleCommand.lift
    ((groups mine shipment.host).mapM (planGroup packages shipment))
  let artifacts := (plans.flatMap (·.artifacts)).foldl Paths.assign []
  let downloads := (plans.flatMap (·.downloads)).foldl Paths.assign []
  let built := if shipment.build then [building shipment] else []
  let released :=
    if !shipment.channel.isInternal ∧ shipment.config.update.isSome then
      [releasing shipment artifacts] else []
  let refusals := refusalsOf packages shipment
  return {
    steps := built ++ plans.flatMap (·.steps) ++ released
    artifacts, downloads, refusals
    notices := noticesOf shipment refusals downloads }

end

end ShipPlan

section

variable (shipment : Shipment)

/-- The plan hands an artefact to a step that signs it, and gets there. -/
def SignsFiles : Prop :=
  shipment.host = .macos →
    shipment.channel = .release ∧
      shipment.config.macosService.map (·.route) ≠ some .system

def Releases : Prop :=
  shipment.channel = .release ∧ shipment.config.update.isSome = true

end

end Dovetail.Cli.Ship
