import Dovetail.CliDoctor

/-!
# The sign command

`SignCommand` signs what a bundle produced with the credentials it finds in
the environment, once the project has said which variables carry them.  What
files there are and how the tools end is up to the machine it runs on.
-/

namespace Dovetail.Signer

open CodeUnits

/-! ## Requests -/

/-- Refused over the command line, over a credential, or by a tool. -/
inductive SignRefusal where
  | usage (message : Text)
  | credential (failure : SigningFailure)
  | tool (failure : SigningFailure)

def SignRefusal.isCredential : SignRefusal → Bool
  | .credential _ => true
  | _ => false

structure OsslsigncodeRequest where
  certificatePath : Text
  privateKeyPath : Option Text
  password : Option Text
  timestampUrl : Text
  digestAlgorithm : Text
  programName : Option Text

namespace OsslsigncodeRequest

def credentialArguments (request : OsslsigncodeRequest) :
    Except SigningFailure (List Text) :=
  if (trim request.certificatePath).isEmpty then
    .error ⟨text "no certificate was given.",
      some (text "osslsigncode takes either a PEM certificate with its key, or a PKCS#12 bundle with its password. Neither is guessed.")⟩
  else
    match request.privateKeyPath with
    | some key =>
        if (trim key).isEmpty then
          .error ⟨text "the private key path is blank.",
            some (text "A blank path reads as a PKCS#12 bundle, and the certificate would be handed to the wrong flag.")⟩
        else .ok [text "-certs", request.certificatePath, text "-key", key]
    | none =>
        match request.password with
        | none | some [] =>
            .error ⟨text "a PKCS#12 bundle was given with no password.",
              some (text "An empty password is never assumed. osslsigncode prompts on a terminal and hangs without one, which in a pipeline reads as a build that never finishes.")⟩
        | some secret =>
            .ok [text "-pkcs12", request.certificatePath, text "-pass", secret]

end OsslsigncodeRequest

structure AuthenticodeRequest where
  thumbprint : Text
  timestampUrl : Text
  digestAlgorithm : Text

def noDigest (remedy : Text) : SigningFailure where
  message := text "no digest algorithm was given."
  remedy := some remedy

def Authenticode.argumentsFor (request : AuthenticodeRequest) (file : Text) :
    Except SignRefusal (List Text) :=
  if (trim request.thumbprint).isEmpty then
    .error (.credential ⟨text "the certificate thumbprint is empty.",
      some (text "An assert was guarding this, and an assert is not compiled into a release build. signtool would be handed /sha1 with nothing after it and would pick whatever certificate it finds first, or none.")⟩)
  else if (trim request.digestAlgorithm).isEmpty then
    .error (.tool
      (noDigest (text "signtool would read the next flag as the algorithm name.")))
  else if (trim request.timestampUrl).isEmpty then
    .error (.credential ⟨text "no timestamp server was given.",
      some (text "A signature without a timestamp becomes invalid the day the certificate expires. There is no default here on purpose.")⟩)
  else
    .ok [text "sign", text "/fd", request.digestAlgorithm, text "/sha1",
      request.thumbprint, text "/tr", request.timestampUrl, text "/td",
      request.digestAlgorithm, file]

namespace Osslsigncode

def signableExtensions : List Text :=
  [text ".exe", text ".dll", text ".sys", text ".msi", text ".cab",
    text ".ps1"]

/-- `same` says whether input and output are one file. -/
def argumentsFor (request : OsslsigncodeRequest) (input output : Text)
    (same : Bool) : Except SignRefusal (List Text) :=
  if (trim request.timestampUrl).isEmpty then
    .error (.credential ⟨text "no timestamp server was given.",
      some (text "A signature without a timestamp stops verifying the day the certificate expires, on machines that already installed the app. There is no default here on purpose.")⟩)
  else if (trim request.digestAlgorithm).isEmpty then
    .error (.tool
      (noDigest (text "The next flag would be read as the algorithm name.")))
  else if same then
    .error (.tool ⟨text "the input and the output are the same file.",
      some (text "osslsigncode refuses to sign in place, and writing over the input mid-read truncates the artefact that was going to be shipped.")⟩)
  else do
    let credentials ← request.credentialArguments.mapError
      SignRefusal.credential
    return text "sign" :: credentials ++
      [text "-h", request.digestAlgorithm, text "-ts", request.timestampUrl] ++
      request.programName.elim [] (fun name => [text "-n", name]) ++
      [text "-in", input, text "-out", output]

end Osslsigncode

end Dovetail.Signer

namespace Dovetail.Cli.Ship

open CodeUnits CommandOptions FallibleSteps Signer

/-! ## The options of the command -/

inductive SignOption where
  | target
  | file
  | directory
  | bundle
  | entitlements
  | outDir
  | requireSignature
  | notarize
  | adHoc
  | osslsigncode
  | certificate
  | privateKey
  | timestampUrl
  | programName
  | entitlementsFor
  deriving DecidableEq

namespace SignOption

def all : List SignOption :=
  [.target, .file, .directory, .bundle, .entitlements, .outDir,
    .requireSignature, .notarize, .adHoc, .osslsigncode, .certificate,
    .privateKey, .timestampUrl, .programName, .entitlementsFor]

def word : SignOption → Text
  | .target => text "--target"
  | .file => text "--file"
  | .directory => text "--directory"
  | .bundle => text "--bundle"
  | .entitlements => text "--entitlements"
  | .outDir => text "--out-dir"
  | .requireSignature => text "--require-signature"
  | .notarize => text "--notarize"
  | .adHoc => text "--ad-hoc"
  | .osslsigncode => text "--osslsigncode"
  | .certificate => text "--certificate"
  | .privateKey => text "--private-key"
  | .timestampUrl => text "--timestamp-url"
  | .programName => text "--program-name"
  | .entitlementsFor => text "--entitlements-for"

def isFlag : SignOption → Bool
  | .requireSignature | .notarize | .adHoc => true
  | _ => false

end SignOption

def signOptions : Options SignOption where
  word := SignOption.word
  isFlag := SignOption.isFlag
  find word := SignOption.all.find? fun name => name.word = word
  find_word name := by
    have hall : ∀ name ∈ SignOption.all,
        (SignOption.all.find? fun other => other.word = name.word) =
          some name := by
      decide
    exact hall name (by cases name <;> decide)

/-! ## The machine -/

inductive SignEnding where
  | signed
  /-- Without a credential nothing was signed, and nobody asked for it. -/
  | unsigned
  | checksummed
  deriving DecidableEq

structure SignTools where
  isWindows : Bool
  hostTarget : Host
  onDisk : Text → Bool
  isDirectory : Text → Bool
  /-- The `.exe` and `.dll` files under a directory, sorted. -/
  executables : Text → List Text
  /-- The extension of a path in lower case. -/
  extension : Text → Text
  canonicalize : Text → Text
  /-- The entitlements of what is nested in the bundle. -/
  nestedEntitlements : List Text → Except Text Paths
  defaultEntitlements : Option Text
  signBundle : Text → Text → Option Text → Paths →
    Except SigningFailure Unit
  /-- The daemon inside the bundle is signed by the team of the bundle. -/
  requireSameTeamId : Text → Except SigningFailure Unit
  signFile : Text → Text → Except SigningFailure Unit
  notarize : Text → List Text → Except SigningFailure Unit
  signtool : List Text → Except SigningFailure Unit
  osslsigncode : Text → List Text → Except SigningFailure Unit
  writeChecksums : List Text → Text → Except SigningFailure Unit

namespace SignCommand

/-! ## The environment of a project -/

def withIdentityFromConfig (environment : Environment)
    (config : Option DovetailConfig) : Environment :=
  match config.bind (·.macos) with
  | none => environment
  | some macos =>
      if isSet (environment (text "APPLE_SIGNING_IDENTITY")) then environment
      else if isSet (environment macos.identityEnv) then
        Function.update environment (text "APPLE_SIGNING_IDENTITY")
          (environment macos.identityEnv)
      else environment

/-- A variable that is not set is given a value where there is one. -/
def fill (environment : Environment) (name : Text) (value : Option Text) :
    Environment :=
  if !isSet (environment name) ∧ value.isSome then
    Function.update environment name value
  else environment

def ifSet (value : Option Text) : Option Text :=
  if isSet value then value else none

def withWindowsFromConfig (environment : Environment)
    (config : Option DovetailConfig) : Environment :=
  match config.bind (·.windows) with
  | none => environment
  | some windows =>
      let out := fill environment (text "WINDOWS_CERTIFICATE_FILE")
        (ifSet (environment windows.certificateEnv))
      let out := fill out OsslsigncodeCredentials.passwordVariable
        (ifSet (environment windows.passwordEnv))
      if isSet (out (text "WINDOWS_CERTIFICATE_FILE")) ∨
          isSet (out (text "WINDOWS_CERTIFICATE_THUMBPRINT")) then
        fill out (text "WINDOWS_TIMESTAMP_URL") windows.timestampUrl
      else out

def withOptions (arguments : List (Argument SignOption))
    (environment : Environment) : Environment :=
  let put (environment : Environment) (name : Text) (value : Option Text) :=
    if value.isSome then Function.update environment name value
    else environment
  put (put (put environment (text "WINDOWS_CERTIFICATE_FILE")
      (single arguments .certificate))
    OsslsigncodeCredentials.privateKeyVariable (single arguments .privateKey))
    (text "WINDOWS_TIMESTAMP_URL") (single arguments .timestampUrl)

section

variable (tools : SignTools)

def usage {α : Type} (message : Text) : Except SignRefusal α :=
  .error (.usage message)

def requireOnDisk (path : Text) : Except SignRefusal Unit :=
  if tools.onDisk path then .ok ()
  else usage (text "no artefact at " ++ path ++ text ".")

def decided (requireSignature : Bool) (group : CredentialGroup)
    (environment : Environment) : Except SignRefusal PolicyVerdict :=
  (SigningPolicy.decide requireSignature group environment).mapError
    .credential

/-! ## macOS -/

/-- `NotarizationStep` and what is reported of it. -/
def notarise (path : Text) (requireSignature : Bool)
    (environment : Environment) : Except SignRefusal Unit := do
  let credentials ←
    (NotarytoolArguments.forWhicheverIsConfigured environment).mapError
      SignRefusal.credential
  match credentials with
  | some credentials =>
      (tools.notarize path credentials).mapError SignRefusal.tool
  | none =>
      if requireSignature then
        .error (.credential
          ⟨text "notarisation was required and no credential group is complete.",
            some (text "Set APPLE_ID, APPLE_PASSWORD and APPLE_TEAM_ID, or APPLE_API_KEY_ID, APPLE_API_ISSUER and APPLE_API_KEY_PATH. --notarize with --require-signature is how ship asks for a release the Gatekeeper accepts; a dmg nobody submitted is not that.")⟩)
      else .ok ()

def macosFiles (arguments : List (Argument SignOption))
    (environment : Environment) (files : List Text) :
    Except SignRefusal SignEnding := do
  let requireSignature := flagged arguments .requireSignature
  files.forM fun file => do
    requireOnDisk tools file
    if tools.isDirectory file then
      usage (text "--file " ++ file ++ text " is a directory.")
  let verdict ← decided requireSignature NotarizationCredentials.identity
    environment
  if !verdict.shouldSign then return .unsigned
  let identity := (environment (text "APPLE_SIGNING_IDENTITY")).getD []
  files.forM fun file =>
    (tools.signFile file identity).mapError SignRefusal.tool
  if flagged arguments .notarize then
    files.forM fun file => notarise tools file requireSignature environment
  return .signed

def macosBundle (arguments : List (Argument SignOption))
    (environment : Environment) (bundle : Text) :
    Except SignRefusal SignEnding := do
  let requireSignature := flagged arguments .requireSignature
  requireOnDisk tools bundle
  let nested ← (tools.nestedEntitlements
    (multi arguments .entitlementsFor)).mapError SignRefusal.usage
  let verdict ← decided requireSignature NotarizationCredentials.identity
    environment
  if !verdict.shouldSign then return .unsigned
  let identity := (environment (text "APPLE_SIGNING_IDENTITY")).getD []
  let entitlements := (single arguments .entitlements).or
    tools.defaultEntitlements
  (tools.signBundle bundle identity entitlements nested).mapError
    SignRefusal.tool
  (tools.requireSameTeamId bundle).mapError SignRefusal.tool
  if flagged arguments .notarize then
    notarise tools bundle requireSignature environment
  return .signed

def macos (config : Option DovetailConfig)
    (arguments : List (Argument SignOption)) (environment : Environment) :
    Except SignRefusal SignEnding :=
  let environment := withIdentityFromConfig
    (if flagged arguments .adHoc then
      Function.update environment (text "APPLE_SIGNING_IDENTITY")
        (some (text "-"))
    else environment) config
  match single arguments .bundle, multi arguments .file with
  | none, [] =>
      usage (text "macos needs --bundle (the .app) or --file (the .dmg it ships in)")
  | some _, _ :: _ =>
      usage (text "macos signs --bundle or --file in one call, not both.")
  | none, files => macosFiles tools arguments environment files
  | some bundle, [] => macosBundle tools arguments environment bundle

/-! ## Windows -/

def executablesIn (directory : Text) : Except SignRefusal (List Text) :=
  if !tools.isDirectory directory then
    usage (text "no directory at " ++ directory)
  else if tools.executables directory = [] then
    usage (text "no .exe or .dll under " ++ directory ++ text ".")
  else .ok (tools.executables directory)

def windowsFiles (arguments : List (Argument SignOption)) :
    Except SignRefusal (List Text) := do
  let named := multi arguments .file
  named.forM (requireOnDisk tools)
  let inside ← (multi arguments .directory).mapM (executablesIn tools)
  let found := named ++ inside.flatten
  if found = [] then
    usage (text "windows needs --file or --directory")
  else return found

def osslsign (executable : Text) (request : OsslsigncodeRequest)
    (artifact : Text) : Except SignRefusal Unit := do
  let extension := tools.extension artifact
  if extension ∉ Osslsigncode.signableExtensions then
    .error (.tool ⟨text "\"" ++ extension ++
        text "\" is not a format Authenticode covers.",
      some (text "It signs " ++
        Updater.join (text ", ") Osslsigncode.signableExtensions ++
        text ". A zip or a bare directory carries no signature, and signing one silently does nothing a client can check.")⟩)
  else if !tools.onDisk artifact then
    .error (.tool ⟨text "there is nothing at " ++ artifact ++
      text " to sign.", none⟩)
  else do
    let staged := artifact ++ text ".signing"
    let same : Bool :=
      tools.canonicalize artifact = tools.canonicalize staged
    let words ← Osslsigncode.argumentsFor request artifact staged same
    (tools.osslsigncode executable words).mapError SignRefusal.tool

def windowsWithoutWindows (arguments : List (Argument SignOption))
    (environment : Environment) : Except SignRefusal SignEnding := do
  let files ← windowsFiles tools arguments
  let verdict ← decided (flagged arguments .requireSignature)
    OsslsigncodeCredentials.keyPair environment
  if !verdict.shouldSign then return .unsigned
  let privateKey := environment OsslsigncodeCredentials.privateKeyVariable
  let password ←
    match privateKey with
    | some _ => pure none
    | none =>
        ((SigningPolicy.requirePassword environment
          OsslsigncodeCredentials.passwordVariable
          OsslsigncodeCredentials.keyPair.label).map some).mapError
            SignRefusal.credential
  let request : OsslsigncodeRequest :=
    { certificatePath :=
        (environment (text "WINDOWS_CERTIFICATE_FILE")).getD []
      privateKeyPath := privateKey
      password
      timestampUrl := (environment (text "WINDOWS_TIMESTAMP_URL")).getD []
      digestAlgorithm := text "sha256"
      programName := single arguments .programName }
  let executable :=
    (single arguments .osslsigncode).getD (text "osslsigncode")
  files.forM (osslsign tools executable request)
  return .signed

def signAll (request : AuthenticodeRequest) (files : List Text) :
    Except SignRefusal Unit :=
  if files = [] then
    .error (.tool ⟨text "no file was given to sign.",
      some (text "Signing nothing and reporting success is how an unsigned helper reaches a customer.")⟩)
  else
    files.forM fun file => do
      let words ← Authenticode.argumentsFor request file
      (tools.signtool words).mapError SignRefusal.tool

def windows (config : Option DovetailConfig)
    (arguments : List (Argument SignOption)) (environment : Environment) :
    Except SignRefusal SignEnding :=
  let environment := withWindowsFromConfig environment config
  if !tools.isWindows ∨ (single arguments .certificate).isSome ∨
      (environment (text "WINDOWS_CERTIFICATE_FILE")).isSome then
    windowsWithoutWindows tools arguments (withOptions arguments environment)
  else do
    let files ← windowsFiles tools arguments
    let verdict ← decided (flagged arguments .requireSignature)
      AuthenticodeCredentials.thumbprint environment
    if !verdict.shouldSign then return .unsigned
    signAll tools
      { thumbprint :=
          (environment (text "WINDOWS_CERTIFICATE_THUMBPRINT")).getD []
        timestampUrl := (environment (text "WINDOWS_TIMESTAMP_URL")).getD []
        digestAlgorithm := text "sha256" } files
    return .signed

/-! ## The command -/

def linux (arguments : List (Argument SignOption)) :
    Except SignRefusal SignEnding := do
  (tools.writeChecksums (multi arguments .file)
    ((single arguments .outDir).getD (text "."))).mapError SignRefusal.tool
  return .checksummed

def sign (config : Option DovetailConfig)
    (arguments : List (Argument SignOption)) (environment : Environment) :
    Except SignRefusal SignEnding :=
  let target := (single arguments .target).getD tools.hostTarget.name
  match Host.read target with
  | some .macos => macos tools config arguments environment
  | some .windows => windows tools config arguments environment
  | some .linux => linux tools arguments
  | none => usage (text "unknown target " ++ target)

def run (config : Option DovetailConfig) (environment : Environment)
    (words : List Text) : Except SignRefusal SignEnding :=
  match parse signOptions words with
  | none => usage (text "the options could not be read")
  | some arguments => sign tools config arguments environment

end

/-! ## A credential for every step -/

/-- The command signs, or is stopped by something else than a credential. -/
def Signs (ending : Except SignRefusal SignEnding) : Prop :=
  Ends ending (· ≠ .unsigned) fun refusal => refusal.isCredential = false

/-- The certificate can be opened, with a key of its own or a password. -/
def keyReady (environment : Environment) : Bool :=
  match environment OsslsigncodeCredentials.privateKeyVariable with
  | some key => !(trim key).isEmpty
  | none =>
      match environment OsslsigncodeCredentials.passwordVariable with
      | none | some [] => false
      | some _ => true

/-- `osslsigncode` has a certificate, a time stamp and a key or a password to
be called with. -/
def osslsignReady (environment : Environment) : Bool :=
  OsslsigncodeCredentials.keyPair.isSatisfiedBy environment &&
    keyReady environment

/-- On Windows itself, a certificate of the store is enough. -/
def windowsReady (isWindows : Bool) (environment : Environment) : Bool :=
  if !isWindows ∨
      (environment (text "WINDOWS_CERTIFICATE_FILE")).isSome then
    osslsignReady environment
  else AuthenticodeCredentials.thumbprint.isSatisfiedBy environment

section

variable {tools : SignTools} {environment : Environment}
  {arguments : List (Argument SignOption)}

/-- What is not about credentials is stopped by something else. -/
theorem ends_tool {step : Except SigningFailure Unit} :
    Ends (step.mapError SignRefusal.tool) (fun _ => True)
      fun refusal => refusal.isCredential = false := by
  cases step <;> simp [SignRefusal.isCredential, Ends, Except.mapError]

theorem ends_usage {α : Type} {returned : α → Prop} (message : Text) :
    Ends (usage message : Except SignRefusal α) returned
      fun refusal => refusal.isCredential = false := rfl

theorem ends_requireOnDisk (path : Text) :
    Ends (requireOnDisk tools path) (fun _ => True)
      fun refusal => refusal.isCredential = false := by
  unfold requireOnDisk
  split
  · trivial
  · exact ends_usage _

/-- A group that is set is signed with. -/
theorem ends_decided {requireSignature : Bool} {group : CredentialGroup}
    (hgroup : group.isSatisfiedBy environment = true) :
    Ends (decided requireSignature group environment)
      (fun verdict => verdict.shouldSign = true)
      fun refusal => refusal.isCredential = false := by
  simp [decided, SigningPolicy.decide, hgroup, PolicyVerdict.shouldSign]

theorem ends_windowsFiles :
    Ends (windowsFiles tools arguments) (fun _ => True)
      fun refusal => refusal.isCredential = false := by
  have hinside (directory : Text) :
      Ends (executablesIn tools directory) (fun _ => True)
        fun refusal => refusal.isCredential = false := by
    unfold executablesIn
    split
    · exact ends_usage _
    · split
      · exact ends_usage _
      · trivial
  unfold windowsFiles
  simp only [ends_bind]
  refine (ends_forM fun path _ => ends_requireOnDisk path).imp
    (fun _ _ => ?_) fun _ => id
  refine (ends_mapM fun directory _ => hinside directory).imp
    (fun _ _ => ?_) fun _ => id
  split
  · exact ends_usage _
  · trivial

/-! ### macOS -/

theorem ends_notarise {path : Text} {requireSignature : Bool}
    {credentials : List Text}
    (hcredentials : NotarytoolArguments.forWhicheverIsConfigured environment =
      .ok (some credentials)) :
    Ends (notarise tools path requireSignature environment) (fun _ => True)
      fun refusal => refusal.isCredential = false := by
  simpa [notarise, hcredentials] using ends_tool

theorem signs_macosFiles {files : List Text}
    (hidentity : NotarizationCredentials.identity.isSatisfiedBy environment =
      true)
    (hnotarize : flagged arguments .notarize = true → ∃ credentials,
      NotarytoolArguments.forWhicheverIsConfigured environment =
        .ok (some credentials)) :
    Signs (macosFiles tools arguments environment files) := by
  unfold Signs macosFiles
  simp only [ends_bind]
  refine (ends_forM fun file _ => ?_).imp (fun _ _ => ?_) fun _ => id
  · rw [ends_bind]
    refine (ends_requireOnDisk file).imp (fun _ _ => ?_) fun _ => id
    split
    · exact ends_usage _
    · trivial
  · refine (ends_decided hidentity).imp (fun verdict hsign => ?_) fun _ => id
    simp only [hsign, Bool.not_true, Bool.false_eq_true, if_false, ends_bind]
    refine (ends_forM fun file _ => ends_tool).imp (fun _ _ => ?_) fun _ => id
    split
    · next hflag =>
        obtain ⟨credentials, hcredentials⟩ := hnotarize hflag
        rw [ends_bind]
        refine (ends_forM fun file _ => ends_notarise hcredentials).imp
          (fun _ _ => ?_) fun _ => id
        simp
    · simp

theorem signs_macosBundle {bundle : Text}
    (hidentity : NotarizationCredentials.identity.isSatisfiedBy environment =
      true)
    (hnotarize : flagged arguments .notarize = true → ∃ credentials,
      NotarytoolArguments.forWhicheverIsConfigured environment =
        .ok (some credentials)) :
    Signs (macosBundle tools arguments environment bundle) := by
  unfold Signs macosBundle
  simp only [ends_bind]
  refine (ends_requireOnDisk bundle).imp (fun _ _ => ?_) fun _ => id
  cases tools.nestedEntitlements (multi arguments .entitlementsFor) with
  | error message => rfl
  | ok nested =>
      refine (ends_decided hidentity).imp (fun verdict hsign => ?_) fun _ => id
      simp only [hsign, Bool.not_true, Bool.false_eq_true, if_false, ends_bind]
      refine ends_tool.imp (fun _ _ => ?_) fun _ => id
      refine ends_tool.imp (fun _ _ => ?_) fun _ => id
      split
      · next hflag =>
          obtain ⟨credentials, hcredentials⟩ := hnotarize hflag
          rw [ends_bind]
          refine (ends_notarise hcredentials).imp (fun _ _ => ?_) fun _ => id
          simp
      · simp

/-- The identity is the one of the environment or the one the project
names. -/
theorem identity_withIdentityFromConfig (environment : Environment)
    (config : Option DovetailConfig) :
    NotarizationCredentials.identity.isSatisfiedBy
        (withIdentityFromConfig environment config) = true ↔
      isSet (environment (text "APPLE_SIGNING_IDENTITY")) = true ∨
        ∃ macos, config.bind (·.macos) = some macos ∧
          isSet (environment macos.identityEnv) = true := by
  have hmember (environment : Environment) :
      NotarizationCredentials.identity.isSatisfiedBy environment =
        isSet (environment (text "APPLE_SIGNING_IDENTITY")) := by
    simp [CredentialGroup.isSatisfiedBy, NotarizationCredentials.identity]
  rw [hmember, withIdentityFromConfig]
  cases config.bind (·.macos) with
  | none => simp
  | some macos =>
      cases hown : isSet (environment (text "APPLE_SIGNING_IDENTITY")) with
      | true => simp [hown]
      | false =>
          cases hnamed : isSet (environment macos.identityEnv) <;>
            simp [hown, hnamed]

/-- A group is asked about its members and about nothing else. -/
theorem satisfied_congr {group : CredentialGroup} {before after : Environment}
    (hmembers : ∀ name ∈ group.members, after name = before name) :
    group.isSatisfiedBy after = group.isSatisfiedBy before ∧
      group.isPartiallySatisfiedBy after =
        group.isPartiallySatisfiedBy before ∧
      group.missingIn after = group.missingIn before := by
  have hall : group.isSatisfiedBy after = group.isSatisfiedBy before := by
    rw [Bool.eq_iff_iff]
    simp only [CredentialGroup.isSatisfiedBy, List.all_eq_true]
    exact forall₂_congr fun name hname => by rw [hmembers name hname]
  have hany : (group.members.any fun name => isSet (after name)) =
      group.members.any fun name => isSet (before name) := by
    rw [Bool.eq_iff_iff]
    simp only [List.any_eq_true]
    exact exists_congr fun name => and_congr_right fun hname => by
      rw [hmembers name hname]
  refine ⟨hall, ?_, ?_⟩
  · unfold CredentialGroup.isPartiallySatisfiedBy
    rw [hall, hany]
  · apply List.filter_congr
    intro name hname
    rw [hmembers name hname]

/-- The identity has no part in the credentials of a notarisation. -/
theorem forWhicheverIsConfigured_update (environment : Environment)
    (value : Option Text) :
    NotarytoolArguments.forWhicheverIsConfigured (Function.update environment
        (text "APPLE_SIGNING_IDENTITY") value) =
      NotarytoolArguments.forWhicheverIsConfigured environment := by
  have hother (name : Text) (hname : name ≠ text "APPLE_SIGNING_IDENTITY") :
      Function.update environment (text "APPLE_SIGNING_IDENTITY") value
        name = environment name :=
    Function.update_of_ne hname _ _
  have happle : ∀ name ∈ NotarizationCredentials.appleId.members,
      name ≠ text "APPLE_SIGNING_IDENTITY" := by decide
  have hapi : ∀ name ∈ NotarizationCredentials.apiKey.members,
      name ≠ text "APPLE_SIGNING_IDENTITY" := by decide
  obtain ⟨hid, hidPart, hidMissing⟩ := satisfied_congr
    fun name hname => hother name (happle name hname)
  obtain ⟨hkey, hkeyPart, hkeyMissing⟩ := satisfied_congr
    fun name hname => hother name (hapi name hname)
  have hrequired (name : Text) (group : CredentialGroup)
      (hname : name ≠ text "APPLE_SIGNING_IDENTITY") :
      NotarytoolArguments.required (Function.update environment
        (text "APPLE_SIGNING_IDENTITY") value) name group =
          NotarytoolArguments.required environment name group := by
    unfold NotarytoolArguments.required
    rw [hother name hname]
  unfold NotarytoolArguments.forWhicheverIsConfigured
  rw [hid, hkey]
  simp only [List.find?_cons, List.find?_nil, hidPart, hkeyPart]
  refine if_congr Iff.rfl ?_ (if_congr Iff.rfl ?_ ?_)
  · simp only [NotarizationCredentials.appleId, List.forall_mem_cons] at happle
    simp only [NotarytoolArguments.forAppleId, hrequired _ _ happle.1,
      hrequired _ _ happle.2.1, hrequired _ _ happle.2.2.1]
  · simp only [NotarizationCredentials.apiKey, List.forall_mem_cons] at hapi
    simp only [NotarytoolArguments.forApiKey, hrequired _ _ hapi.1,
      hrequired _ _ hapi.2.1, hrequired _ _ hapi.2.2.1]
  · cases NotarizationCredentials.appleId.isPartiallySatisfiedBy
      environment with
    | true => simp only [NotarytoolArguments.halfConfigured, hidMissing]
    | false =>
        cases NotarizationCredentials.apiKey.isPartiallySatisfiedBy
          environment with
        | true => simp only [NotarytoolArguments.halfConfigured, hkeyMissing]
        | false => rfl

theorem forWhicheverIsConfigured_withIdentityFromConfig
    (environment : Environment) (config : Option DovetailConfig) :
    NotarytoolArguments.forWhicheverIsConfigured
        (withIdentityFromConfig environment config) =
      NotarytoolArguments.forWhicheverIsConfigured environment := by
  unfold withIdentityFromConfig
  split
  · rfl
  · split
    · rfl
    · split
      · exact forWhicheverIsConfigured_update environment _
      · rfl

/-! ### Windows -/

theorem isSatisfiedBy_keyPair (environment : Environment) :
    OsslsigncodeCredentials.keyPair.isSatisfiedBy environment =
      (isSet (environment (text "WINDOWS_CERTIFICATE_FILE")) &&
        isSet (environment (text "WINDOWS_TIMESTAMP_URL"))) := by
  simp [CredentialGroup.isSatisfiedBy, OsslsigncodeCredentials.keyPair]

theorem isSatisfiedBy_thumbprint (environment : Environment) :
    AuthenticodeCredentials.thumbprint.isSatisfiedBy environment =
      (isSet (environment (text "WINDOWS_CERTIFICATE_THUMBPRINT")) &&
        isSet (environment (text "WINDOWS_TIMESTAMP_URL"))) := by
  simp [CredentialGroup.isSatisfiedBy, AuthenticodeCredentials.thumbprint]

theorem trim_getD_of_isSet {value : Option Text} (hset : isSet value = true) :
    (trim (value.getD [])).isEmpty = false := by
  cases value with
  | none => cases hset
  | some value => simpa [isSet] using hset

theorem isEmpty_trim_sha256 : (trim (text "sha256")).isEmpty = false := by
  decide

/-- A request `osslsigncode` is called with signs or is stopped by the file or
the tool. -/
theorem ends_osslsign {executable artifact : Text}
    {request : OsslsigncodeRequest} {credentials : List Text}
    (htimestamp : (trim request.timestampUrl).isEmpty = false)
    (hcredentials : request.credentialArguments = .ok credentials) :
    Ends (osslsign tools executable request artifact) (fun _ => True)
      fun refusal => refusal.isCredential = false := by
  unfold osslsign
  dsimp only
  split
  · rfl
  · split
    · rfl
    · rw [ends_bind]
      have hwords (same : Bool) :
          Ends (Osslsigncode.argumentsFor request artifact
            (artifact ++ text ".signing") same) (fun _ => True)
              fun refusal => refusal.isCredential = false := by
        unfold Osslsigncode.argumentsFor
        rw [htimestamp, hcredentials]
        simp only [Bool.false_eq_true, if_false]
        split
        · rfl
        · split
          · rfl
          · trivial
      exact (hwords _).imp (fun _ _ => ends_tool) fun _ => id

/-- What the request was opened with signs the files. -/
theorem signs_forM {executable : Text} {request : OsslsigncodeRequest}
    {credentials files : List Text}
    (htimestamp : (trim request.timestampUrl).isEmpty = false)
    (hcredentials : request.credentialArguments = .ok credentials) :
    Signs (files.forM (osslsign tools executable request) >>= fun _ =>
      pure .signed) := by
  unfold Signs
  rw [ends_bind]
  apply (ends_forM fun artifact _ =>
    ends_osslsign htimestamp hcredentials).imp _ fun _ => id
  simp

theorem signs_windowsWithoutWindows
    (hready : osslsignReady environment = true) :
    Signs (windowsWithoutWindows tools arguments environment) := by
  unfold osslsignReady keyReady at hready
  rw [Bool.and_eq_true] at hready
  obtain ⟨hpair, hopened⟩ := hready
  have hset := hpair
  rw [isSatisfiedBy_keyPair, Bool.and_eq_true] at hset
  have hfile := trim_getD_of_isSet hset.1
  have htimestamp := trim_getD_of_isSet hset.2
  unfold Signs windowsWithoutWindows
  simp only [ends_bind]
  apply ends_windowsFiles.imp _ fun _ => id
  intro files _
  apply (ends_decided hpair).imp _ fun _ => id
  intro verdict hsign
  simp only [hsign, Bool.not_true, Bool.false_eq_true, if_false]
  cases hkey : environment OsslsigncodeCredentials.privateKeyVariable with
  | some key =>
      rw [hkey] at hopened
      simp only [Bool.not_eq_true'] at hopened
      apply signs_forM htimestamp
      simp only [OsslsigncodeRequest.credentialArguments, hfile, hopened,
        Bool.false_eq_true, if_false]
      rfl
  | none =>
      rw [hkey] at hopened
      cases hpassword : environment
          OsslsigncodeCredentials.passwordVariable with
      | none => simp [hpassword] at hopened
      | some secret =>
          cases secret with
          | nil => simp [hpassword] at hopened
          | cons unit rest =>
              simp only [SigningPolicy.requirePassword, hpassword]
              apply signs_forM htimestamp
              simp only [OsslsigncodeRequest.credentialArguments, hfile,
                Bool.false_eq_true, if_false]
              rfl

theorem ends_signAll {request : AuthenticodeRequest} {files : List Text}
    (hthumbprint : (trim request.thumbprint).isEmpty = false)
    (htimestamp : (trim request.timestampUrl).isEmpty = false) :
    Ends (signAll tools request files) (fun _ => True)
      fun refusal => refusal.isCredential = false := by
  unfold signAll
  split
  · rfl
  · apply ends_forM
    intro file _
    rw [ends_bind]
    have hwords : Ends (Authenticode.argumentsFor request file)
        (fun _ => True) fun refusal => refusal.isCredential = false := by
      unfold Authenticode.argumentsFor
      rw [hthumbprint, htimestamp]
      simp only [Bool.false_eq_true, if_false]
      split
      · rfl
      · trivial
    exact hwords.imp (fun _ _ => ends_tool) fun _ => id

/-- None of the options that stand for variables is given. -/
def Unnamed (arguments : List (Argument SignOption)) : Prop :=
  single arguments .certificate = none ∧ single arguments .privateKey = none ∧
    single arguments .timestampUrl = none

theorem withOptions_of_unnamed (hunnamed : Unnamed arguments) :
    withOptions arguments environment = environment := by
  simp [withOptions, hunnamed.1, hunnamed.2.1, hunnamed.2.2]

theorem signs_windows {config : Option DovetailConfig}
    (hunnamed : Unnamed arguments)
    (hready : windowsReady tools.isWindows
      (withWindowsFromConfig environment config) = true) :
    Signs (windows tools config arguments environment) := by
  unfold windowsReady at hready
  unfold windows
  dsimp only
  rw [withOptions_of_unnamed hunnamed, hunnamed.1]
  simp only [Option.isSome_none, Bool.false_eq_true, false_or]
  split at hready
  · next hfile =>
      rw [if_pos hfile]
      exact signs_windowsWithoutWindows hready
  · next hfile =>
      rw [if_neg hfile]
      have hset := hready
      rw [isSatisfiedBy_thumbprint, Bool.and_eq_true] at hset
      unfold Signs
      simp only [ends_bind]
      apply ends_windowsFiles.imp _ fun _ => id
      intro files _
      apply (ends_decided hready).imp _ fun _ => id
      intro verdict hsign
      simp only [hsign, Bool.not_true, Bool.false_eq_true, if_false, ends_bind]
      apply (ends_signAll (trim_getD_of_isSet hset.1)
        (trim_getD_of_isSet hset.2)).imp _ fun _ => id
      simp

theorem signs_linux : Signs (linux tools arguments) := by
  unfold Signs linux
  rw [ends_bind]
  apply ends_tool.imp _ fun _ => id
  simp

theorem signs_macos {config : Option DovetailConfig}
    (hadHoc : flagged arguments .adHoc = false)
    (hidentity : NotarizationCredentials.identity.isSatisfiedBy
      (withIdentityFromConfig environment config) = true)
    (hnotarize : flagged arguments .notarize = true → ∃ credentials,
      NotarytoolArguments.forWhicheverIsConfigured environment =
        .ok (some credentials)) :
    Signs (macos tools config arguments environment) := by
  rw [← forWhicheverIsConfigured_withIdentityFromConfig environment config]
    at hnotarize
  unfold macos
  rw [hadHoc]
  simp only [Bool.false_eq_true, if_false]
  split
  · exact ends_usage _
  · exact ends_usage _
  · exact signs_macosFiles hidentity hnotarize
  · exact signs_macosBundle hidentity hnotarize

/-! ### Without a credential -/

/-- A machine where nothing but a credential stops the command. -/
def willing (isWindows : Bool) : SignTools where
  isWindows
  hostTarget := .linux
  onDisk := fun _ => true
  isDirectory := fun _ => false
  executables := fun _ => []
  extension := fun _ => text ".exe"
  canonicalize := id
  nestedEntitlements := fun _ => .ok []
  defaultEntitlements := none
  signBundle := fun _ _ _ _ => .ok ()
  requireSameTeamId := fun _ => .ok ()
  signFile := fun _ _ => .ok ()
  notarize := fun _ _ => .ok ()
  signtool := fun _ => .ok ()
  osslsigncode := fun _ _ => .ok ()
  writeChecksums := fun _ _ => .ok ()

theorem forM_ok {α : Type} {items : List α}
    {step : α → Except SignRefusal PUnit}
    (hsteps : ∀ item ∈ items, step item = .ok ()) :
    items.forM step = .ok () := by
  induction items with
  | nil => rfl
  | cons item rest ih =>
      show (step item >>= fun _ => rest.forM step) = _
      rw [hsteps item (by simp)]
      exact ih fun other hother => hsteps other (by simp [hother])

theorem windowsFiles_willing (isWindows : Bool)
    (hfiles : multi arguments .file ≠ [])
    (hdirectories : multi arguments .directory = []) :
    windowsFiles (willing isWindows) arguments =
      .ok (multi arguments .file) := by
  have hnamed : (multi arguments .file).forM
      (requireOnDisk (willing isWindows)) = .ok () :=
    forM_ok fun file _ => rfl
  unfold windowsFiles
  dsimp only
  rw [hnamed, hdirectories]
  simp [hfiles, bind, Except.bind, pure, Except.pure]

/-- A group that is not set is refused or not signed with. -/
theorem decided_of_not_satisfied (requireSignature : Bool)
    {group : CredentialGroup}
    (hgroup : group.isSatisfiedBy environment = false) :
    Ends (decided requireSignature group environment)
      (fun verdict => verdict.shouldSign = false)
      fun refusal => refusal.isCredential = true := by
  unfold decided SigningPolicy.decide
  dsimp only
  rw [hgroup]
  simp only [Bool.false_eq_true, if_false]
  split
  · rfl
  · split
    · rfl
    · rfl

/-- What ends without a signature or over a credential does not sign. -/
theorem not_signs {ending : Except SignRefusal SignEnding}
    (hends : Ends ending (· = .unsigned)
      fun refusal => refusal.isCredential = true) :
    ¬ Signs ending := by
  cases ending with
  | ok ending =>
      rw [ends_ok] at hends
      simp [Signs, hends]
  | error refusal =>
      rw [ends_error] at hends
      simp [Signs, hends]

theorem osslsign_willing {isWindows : Bool} {executable artifact : Text}
    {request : OsslsigncodeRequest} {failure : SigningFailure}
    (htimestamp : (trim request.timestampUrl).isEmpty = false)
    (hdigest : request.digestAlgorithm = text "sha256")
    (hcredentials : request.credentialArguments = .error failure) :
    osslsign (willing isWindows) executable request artifact =
      .error (.credential failure) := by
  have hextension :
      text ".exe" ∈ Osslsigncode.signableExtensions := by decide
  have hsame : artifact ≠ artifact ++ text ".signing" := by
    intro heq
    have hlength := congrArg List.length heq
    rw [List.length_append] at hlength
    have hpositive : 0 < (text ".signing").length := by decide
    omega
  unfold osslsign Osslsigncode.argumentsFor
  simp [willing, hextension, hsame, htimestamp, hdigest,
    isEmpty_trim_sha256, hcredentials, Except.mapError, bind, Except.bind]

theorem forM_error {α : Type} {items : List α} {refusal : SignRefusal}
    {step : α → Except SignRefusal PUnit} (hsome : items ≠ [])
    (hsteps : ∀ item ∈ items, step item = .error refusal) :
    items.forM step = .error refusal := by
  obtain ⟨item, rest, rfl⟩ := List.exists_cons_of_ne_nil hsome
  show (step item >>= fun _ => rest.forM step) = _
  rw [hsteps item (by simp)]
  rfl

theorem not_signs_windowsWithoutWindows {isWindows : Bool}
    (hfiles : multi arguments .file ≠ [])
    (hdirectories : multi arguments .directory = [])
    (hready : osslsignReady environment = false) :
    ¬ Signs (windowsWithoutWindows (willing isWindows) arguments
      environment) := by
  apply not_signs
  unfold windowsWithoutWindows
  rw [windowsFiles_willing isWindows hfiles hdirectories]
  simp only [ends_bind, ends_ok]
  cases hpair : OsslsigncodeCredentials.keyPair.isSatisfiedBy environment with
  | false =>
      apply (decided_of_not_satisfied _ hpair).imp _ fun _ => id
      intro verdict hskip
      simp [hskip]
  | true =>
      have hset := hpair
      rw [isSatisfiedBy_keyPair, Bool.and_eq_true] at hset
      have hfile := trim_getD_of_isSet hset.1
      have htimestamp := trim_getD_of_isSet hset.2
      have hsatisfied : Ends (decided (flagged arguments .requireSignature)
          OsslsigncodeCredentials.keyPair environment)
          (fun verdict => verdict.shouldSign = true)
          fun refusal => refusal.isCredential = true := by
        simp [decided, SigningPolicy.decide, hpair, PolicyVerdict.shouldSign]
      apply hsatisfied.imp _ fun _ => id
      intro verdict hsign
      simp only [hsign, Bool.not_true, Bool.false_eq_true, if_false]
      -- A request that cannot be opened stops at the first file.
      have hstopped (request : OsslsigncodeRequest) (failure : SigningFailure)
          (executable : Text)
          (htime : (trim request.timestampUrl).isEmpty = false)
          (hdigest : request.digestAlgorithm = text "sha256")
          (hcredentials : request.credentialArguments = .error failure) :
          Ends ((multi arguments .file).forM
              (osslsign (willing isWindows) executable request) >>= fun _ =>
                pure SignEnding.signed) (· = .unsigned)
            fun refusal => refusal.isCredential = true := by
        rw [forM_error hfiles fun file _ =>
          osslsign_willing htime hdigest hcredentials]
        rfl
      unfold osslsignReady keyReady at hready
      rw [hpair, Bool.true_and] at hready
      cases hkey : environment OsslsigncodeCredentials.privateKeyVariable with
      | some key =>
          rw [hkey] at hready
          simp only [Bool.not_eq_false'] at hready
          apply hstopped _ _ _ htimestamp rfl
          simp only [OsslsigncodeRequest.credentialArguments, hfile, hready,
            Bool.false_eq_true, if_false, if_true]
          rfl
      | none =>
          rw [hkey] at hready
          cases hpassword : environment
              OsslsigncodeCredentials.passwordVariable with
          | none =>
              simp only [SigningPolicy.requirePassword, hpassword]
              rfl
          | some secret =>
              cases secret with
              | cons unit rest => simp [hpassword] at hready
              | nil =>
                  simp only [SigningPolicy.requirePassword, hpassword]
                  apply hstopped _ _ _ htimestamp rfl
                  simp only [OsslsigncodeRequest.credentialArguments, hfile,
                    Bool.false_eq_true, if_false]
                  rfl

/-- On any machine the files are signed as long as the credentials are
ready. -/
theorem signs_windows_iff {config : Option DovetailConfig} (isWindows : Bool)
    (hunnamed : Unnamed arguments) (hfiles : multi arguments .file ≠ [])
    (hdirectories : multi arguments .directory = []) :
    (∀ tools : SignTools, tools.isWindows = isWindows →
      Signs (windows tools config arguments environment)) ↔
      windowsReady isWindows (withWindowsFromConfig environment config) =
        true := by
  constructor
  · intro hall
    by_contra hready
    rw [Bool.not_eq_true] at hready
    have hsigns := hall (willing isWindows) rfl
    unfold windowsReady at hready
    unfold windows at hsigns
    dsimp only at hsigns
    have hown : (willing isWindows).isWindows = isWindows := rfl
    rw [withOptions_of_unnamed hunnamed, hunnamed.1, hown] at hsigns
    simp only [Option.isSome_none, Bool.false_eq_true, false_or] at hsigns
    split at hready
    · next hfile =>
        rw [if_pos hfile] at hsigns
        exact not_signs_windowsWithoutWindows hfiles hdirectories hready hsigns
    · next hfile =>
        rw [if_neg hfile] at hsigns
        apply not_signs _ hsigns
        rw [windowsFiles_willing isWindows hfiles hdirectories]
        simp only [ends_bind, ends_ok]
        apply (decided_of_not_satisfied _ hready).imp _ fun _ => id
        intro verdict hskip
        simp [hskip]
  · intro hready tools hwindows
    apply signs_windows hunnamed
    rw [hwindows]
    exact hready

/-- A bundle nobody requires a signature of stays unsigned without an
identity. -/
theorem not_signs_macosBundle {isWindows : Bool} {bundle : Text}
    (hrequire : flagged arguments .requireSignature = false)
    (hidentity : NotarizationCredentials.identity.isSatisfiedBy environment =
      false) :
    ¬ Signs (macosBundle (willing isWindows) arguments environment
      bundle) := by
  apply not_signs
  unfold macosBundle
  rw [hrequire]
  simp only [ends_bind]
  apply (decided_of_not_satisfied _ hidentity).imp _ fun _ => id
  intro verdict hskip
  simp [hskip]

end

end SignCommand

end Dovetail.Cli.Ship
