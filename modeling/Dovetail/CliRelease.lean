import Dovetail.FallibleDisk
import Dovetail.UpdaterManifestWriter

/-!
# Releasing signed artefacts

`ReleaseCommand` has minisign sign one artefact after the other, compares the
key id of each signature with the declared one as soon as it is read back,
and writes the manifest after the last.  Nothing takes a signature back, so a
refusal leaves none behind exactly where no signature was written before it.
-/

namespace Dovetail.Cli.Release

open CodeUnits
open FallibleDisk
open FallibleSteps
open Updater

/-! ## What the command is given -/

structure UpdateConfig where
  keyPath : Text
  passwordEnv : Text
  publicKey : Option Text
  baseUrl : Option Text
  manifestPath : Text

structure DovetailConfig where
  targets : List Text
  update : Option UpdateConfig

structure Arguments where
  root : Option Text
  version : Option Text
  notes : Option Text
  out : Option Text
  key : Option Text
  passwordEnv : Option Text
  unencryptedKey : Bool
  publicKey : Option Text
  minisign : Text
  artifact : List Text

structure Artifact where
  platformKey : Text
  url : Text
  path : Text
  deriving DecidableEq

inductive SecretKeyAccess where
  | passwordProtectedKey (password : Text)
  | unencryptedKey
  deriving DecidableEq

inductive Refusal where
  | usage (message usage : Text)
  | config (message : Text) (remedy origin : Option Text)
  | update (failure : UpdateFailure)
  | signing (message : Text) (remedy : Option Text)
  | system (error : Text)
  deriving DecidableEq

/-- A file, whether minisign has written it in this run, and whether the
manifest has been written to it. -/
structure StoredFile where
  bytes : Bytes
  signed : Bool
  manifest : Bool
  deriving DecidableEq

abbrev Workspace := Disk Text StoredFile

structure Invocation where
  executable : Text
  arguments : List Text
  stdin : Option Text
  deriving DecidableEq

structure ProcessOutcome where
  exitCode : Int
  stdout : Text
  stderr : Text
  deriving DecidableEq

/-- What becomes of one call of minisign: its outcome, if it could be run,
the signature it writes, if it writes one, and what keeps the signature from
being read. -/
structure SigningRun where
  outcome : Except Text ProcessOutcome
  written : Option Bytes
  unreadable : Option Text

/-- Everything the command asks of what is around it.  Calls of minisign are
told apart by their number. -/
structure World (Version Date : Type) where
  runtime : Runtime Version Date
  isAbsolute : Text → Bool
  join : Text → Text → Text
  basename : Text → Text
  environment : Text → Option Text
  config : Option Text → Except Refusal (Option (Text × DovetailConfig))
  pubspecVersion : Text → Except Refusal Text
  usage : Text
  unreadable : Text → Option Text
  minisign : Nat → Invocation → SigningRun
  createParent : Answer Text Unit
  writeManifest : Answer Text (Option Bytes)

variable {Version Date : Type}

/-! ## Before signing -/

def dash : UInt16 := 45

def equals : UInt16 := 61

def UpdateConfig.urlFor (base version fileName : Text) : Text :=
  let trimmed := if base.getLast? = some 47 then base.dropLast else base
  trimmed ++ text "/" ++ version ++ text "/" ++ fileName

namespace PlatformKey

def operatingSystems : List Text :=
  [text "linux", text "darwin", text "windows"]

def architectures : List Text :=
  [text "i686", text "x86_64", text "armv7", text "aarch64", text "riscv64"]

def universalArch : Text := text "universal"

def vocabulary : List Text :=
  operatingSystems.flatMap fun os =>
    architectures.map fun arch => os ++ text "-" ++ arch

def validate (wireName : Text) : Except UpdateFailure Text :=
  match wireName.idxOf? dash with
  | none | some 0 => notAKey
  | some divider =>
      if divider = wireName.length - 1 then notAKey
      else
        let os := wireName.take divider
        let arch := wireName.drop (divider + 1)
        if os ∉ operatingSystems then
          fail (text "\"" ++ os ++
              text "\" is not an operating system this protocol names.")
            (some (text "It knows " ++ Updater.join (text ", ") operatingSystems ++
              text ". A key no client asks for publishes a release nobody can see."))
        else if ¬ (arch = universalArch ∨ arch ∈ architectures) then
          fail (text "\"" ++ arch ++
              text "\" is not an architecture this protocol names.")
            (some (text "It knows " ++ Updater.join (text ", ") architectures ++
              text " and " ++ universalArch ++ text ". A client asks for its own architecture, so a key it cannot build is a release it never sees."))
        else .ok wireName
where
  notAKey : Except UpdateFailure Text :=
    fail (text "\"" ++ wireName ++ text "\" is not a platform key.")
      (some (text "A key is <os>-<arch>, for example " ++
        Updater.join (text ", ") (vocabulary.take 3) ++ text "."))

end PlatformKey

namespace World

variable (world : World Version Date)

def refuseUsage {α : Type} (message hint : Text) : Except Refusal α :=
  .error (.usage message hint)

/-- The usage text below a hint. -/
def below (hint : Text) : Text := hint ++ text "\n\n" ++ world.usage

def readAsString (disk : Workspace) (path : Text) : Except Refusal Text :=
  match world.unreadable path with
  | some error => .error (.system error)
  | none =>
      match (disk path).bind fun file => utf8Decode file.bytes with
      | some content => .ok content
      | none => .error (.system (text "Failed to decode data using encoding 'utf-8'"))

def versionFrom (arguments : Arguments) (root : Option Text) :
    Except Refusal Text :=
  match arguments.version.filter fun given => !given.isEmpty, root with
  | some given, _ => .ok given
  | none, some root => world.pubspecVersion root
  | none, none =>
      refuseUsage (text "no --version, and no dovetail.yaml to read one beside.")
        (world.below (text "Run dovetail init, or pass --version."))

def keyFrom (arguments : Arguments) (update : Option UpdateConfig)
    (root : Option Text) : Except Refusal Text :=
  match arguments.key.filter fun given => !given.isEmpty, update, root with
  | some given, _, _ => .ok given
  | none, some update, some root =>
      .ok (if world.isAbsolute update.keyPath then update.keyPath
        else world.join root update.keyPath)
  | none, _, _ =>
      refuseUsage (text "no --key, and no update.key in dovetail.yaml.")
        (world.below (text "An unsigned release is one no installed client will accept, so this refuses rather than writing a manifest without signatures."))

def outFrom (arguments : Arguments) (update : Option UpdateConfig)
    (root : Option Text) : Text :=
  match arguments.out.filter fun given => !given.isEmpty, update, root with
  | some given, _, none => given
  | some given, _, some root =>
      if world.isAbsolute given then given else world.join root given
  | none, some update, some root =>
      if world.isAbsolute update.manifestPath then update.manifestPath
      else world.join root update.manifestPath
  | none, _, _ => text "latest.json"

def accessFrom (arguments : Arguments) (update : Option UpdateConfig) :
    Except Refusal SecretKeyAccess :=
  if arguments.unencryptedKey then .ok .unencryptedKey
  else
    let variableName := (arguments.passwordEnv <|>
      update.map (·.passwordEnv)).getD (text "DOVETAIL_UPDATE_KEY_PASSWORD")
    match (world.environment variableName).filter fun found =>
        !found.isEmpty with
    | some password => .ok (.passwordProtectedKey password)
    | none =>
        refuseUsage (variableName ++ text " is not set.")
          (world.below (text "An empty password is never assumed. Export the variable, or pass --unencrypted-key if the key genuinely has none."))

def publicKeyOption (arguments : Arguments) (root : Option Text)
    (disk : Workspace) : Except Refusal (Option Text) :=
  match (arguments.publicKey.map trim).filter fun given =>
      !given.isEmpty with
  | none => .ok none
  | some given =>
      let beside := (root.filter fun _ => !world.isAbsolute given).map
        fun root => world.join root given
      match beside.filter fun path => (disk path).isSome with
      | some path => (world.readAsString disk path).map some
      | none =>
          if (disk given).isSome then (world.readAsString disk given).map some
          else .ok (some given)

/-- A project that lists no targets takes every key; a universal key needs
one target of its operating system. -/
def declares (declaredTargets : Option (List Text)) (platformKey : Text) :
    Bool :=
  match declaredTargets with
  | none | some [] => true
  | some targets =>
      targets.contains platformKey ||
        match platformKey.idxOf? dash with
        | none | some 0 => false
        | some divider =>
            platformKey.drop (divider + 1) = PlatformKey.universalArch &&
              targets.any fun key =>
                (platformKey.take divider ++ text "-").isPrefixOf key

/-- The url and the path an entry names. -/
def splitEntry (update : Option UpdateConfig) (version entry : Text)
    (afterKey : Nat) : Except Refusal (Text × Text) :=
  let beforePath := entry.length - 1 - entry.reverse.idxOf equals
  if beforePath = afterKey then
    let path := entry.drop (afterKey + 1)
    match update.bind (·.baseUrl) with
    | none =>
        refuseUsage (text "no url in \"" ++ entry ++
            text "\", and no update.base-url is configured.")
          (world.below (text "Either write platformKey=url=path, or set update.base-url in dovetail.yaml and let it build <base-url>/<version>/<file>."))
    | some base =>
        .ok (UpdateConfig.urlFor base version (world.basename path), path)
  else
    .ok ((entry.take beforePath).drop (afterKey + 1),
      entry.drop (beforePath + 1))

def artifactFrom (update : Option UpdateConfig) (version : Text)
    (declaredTargets : Option (List Text)) (root : Option Text)
    (disk : Workspace) (before : List Artifact) (entry : Text) :
    Except Refusal Artifact :=
  match entry.idxOf? equals with
  | none | some 0 => malformed
  | some afterKey =>
      if afterKey = entry.length - 1 then malformed
      else do
        let platformKey := entry.take afterKey
        let (url, path) ← world.splitEntry update version entry afterKey
        match PlatformKey.validate platformKey with
        | .error failure =>
            refuseUsage failure.message
              (world.below (failure.remedy.getD (text "null")))
        | .ok _ =>
            if before.any fun artifact => artifact.platformKey = platformKey then
              refuseUsage (text "the platform \"" ++ platformKey ++
                  text "\" is given twice.")
                (world.below (text "A manifest holds one artefact per platform; the second would silently replace the first."))
            else if url.isEmpty then
              refuseUsage (text "the url for " ++ platformKey ++
                text " is empty.") world.usage
            else if !declares declaredTargets platformKey then
              refuseUsage (text "\"" ++ platformKey ++
                  text "\" is not one of the targets this product declares.")
                (world.below (text "dovetail.yaml lists " ++
                  Updater.join (text ", ") (declaredTargets.getD []) ++
                  text ". Publishing a key outside that list ships an artefact no client asks for; add it to targets if it is meant to exist."))
            else
              let resolved :=
                match root with
                | none => path
                | some root =>
                    if world.isAbsolute path then path
                    else world.join root path
              if (disk resolved).isSome then
                .ok { platformKey, url, path := resolved }
              else
                refuseUsage (text "no artefact at " ++ resolved) world.usage
where
  malformed : Except Refusal Artifact :=
    refuseUsage (text "expected platformKey=url=artifactPath, got \"" ++
      entry ++ text "\"") world.usage

def artifactsFrom (update : Option UpdateConfig) (version : Text)
    (declaredTargets : Option (List Text)) (root : Option Text)
    (disk : Workspace) (raw : List Text) : Except Refusal (List Artifact) :=
  if raw.isEmpty then
    refuseUsage (text "at least one --artifact is needed.") world.usage
  else
    raw.foldlM (fun artifacts entry => do
      let artifact ← world.artifactFrom update version declaredTargets root
        disk artifacts entry
      return artifacts ++ [artifact]) []

end World

def noDeclaredKey : Refusal :=
  .config (text "no public key is declared, so nothing can check that this release is signed with the key the installed clients trust.")
    (some (text "Declare the public key the shipped app carries — update.public-key in dovetail.yaml, or --public-key <file or key>. It is public by definition; the secret one stays out of the repository. Without it a release can be signed by any key and still look fine here, which is exactly how a release went out signed by a key no client in the field accepts."))
    none

/-- What is settled before the first artefact is signed. -/
structure Prepared where
  version : Text
  artifacts : List Artifact
  keyPath : Text
  access : SecretKeyAccess
  declaredKey : Text
  out : Text

def prepare (world : World Version Date) (arguments : Arguments)
    (disk : Workspace) : Except Refusal Prepared := do
  let config ← world.config arguments.root
  let root := (config.map (·.1)) <|> arguments.root
  let update := config.bind (·.2.update)
  let version ← world.versionFrom arguments root
  let artifacts ← world.artifactsFrom update version
    (config.map (·.2.targets)) root disk arguments.artifact
  let keyPath ← world.keyFrom arguments update root
  let access ← world.accessFrom arguments update
  let flagKey ← world.publicKeyOption arguments root disk
  match flagKey <|> update.bind (·.publicKey) with
  | none => .error noDeclaredKey
  | some declaredKey =>
      return {
        version, artifacts, keyPath, access, declaredKey
        out := world.outFrom arguments update root }

/-! ## Signing -/

namespace UpdateSignature

def block (content : Text) : Bytes :=
  let lines := (content.splitOnP (· == newline)).filter fun line =>
    !(trim line).isEmpty
  match lines with
  | _ :: second :: _ => (Base64.decode (trim second)).getD []
  | _ => []

def keyIdHex (content : Text) : Text :=
  let raw := block content
  if raw.length < 10 then []
  else Updater.keyIdHex ((raw.drop 2).take 8)

end UpdateSignature

def defaultSignatureExtension : Text := text ".minisig"

def signaturePath (artifact : Artifact) : Text :=
  artifact.path ++ defaultSignatureExtension

def diagnostic (outcome : ProcessOutcome) : Text :=
  let source := if (trim outcome.stderr).isEmpty then outcome.stdout
    else outcome.stderr
  let lines := ((source.splitOnP (· == newline)).map trim).filter fun line =>
    !line.isEmpty && line != text "Password:" &&
      !(text "Deriving a key").isPrefixOf line
  if lines.isEmpty then text "exit code " ++ text (toString outcome.exitCode)
  else Updater.join (text " ") lines

abbrev Steps (α : Type) := Attempt Text StoredFile Refusal α

section

variable (world : World Version Date) (arguments : Arguments)
  (prepared : Prepared)

def trustedComment (artifact : Artifact) : Text :=
  text "version:" ++ prepared.version ++ text "\tfile:" ++
    world.basename artifact.path

def invocation (artifact : Artifact) : Invocation where
  executable := arguments.minisign
  arguments :=
    [text "-S", text "-s", prepared.keyPath, text "-x",
      signaturePath artifact, text "-t",
      trustedComment world prepared artifact, text "-m", artifact.path]
  stdin :=
    match prepared.access with
    | .passwordProtectedKey password => some (password ++ [newline])
    | .unencryptedKey => none

/-- What becomes of this call of minisign for the artefact. -/
def signingRun (call : Nat) (artifact : Artifact) : SigningRun :=
  world.minisign call (invocation world arguments prepared artifact)

def writeSignature (artifact : Artifact) (written : Option Bytes) :
    Steps Unit :=
  match written with
  | none => pure ()
  | some bytes =>
      put (signaturePath artifact)
        (some { bytes, signed := true, manifest := false })

def readSignature (artifact : Artifact) (unreadable : Option Text) :
    Steps Text := do
  if let some error := unreadable then
    throw (.system error)
  let disk ← get
  match (disk (signaturePath artifact)).bind
      fun file => utf8Decode file.bytes with
  | some content => return content
  | none =>
      throw (.system (text "Failed to decode data using encoding 'utf-8'"))

/-- What is made of the outcome of a call. -/
def finish (artifact : Artifact) (run : SigningRun) : Steps Text :=
  match run.outcome with
  | .error error => throw (.system error)
  | .ok outcome => do
      unless outcome.exitCode = 0 do
        throw (.signing (text "minisign refused to sign " ++
            world.basename artifact.path ++ text ".")
          (some (diagnostic outcome)))
      unless ← holds (signaturePath artifact) do
        throw (.signing (text
            "minisign reported success but wrote no signature to " ++
            signaturePath artifact ++ text ".")
          (some (text "An unsigned update that a release believes is signed is a release nobody can install.")))
      readSignature artifact run.unreadable

/-- The content of the signature minisign has written. -/
def sign (call : Nat) (artifact : Artifact) : Steps Text := do
  unless ← holds artifact.path do
    throw (.signing (text "there is nothing to sign at " ++ artifact.path ++
        text ".")
      (some (text "Build and, on macOS, notarize the artefact first.")))
  unless ← holds prepared.keyPath do
    throw (.signing (text "the update signing key is not at " ++
        prepared.keyPath ++ text ".")
      (some (text "It is the key every client already trusts. Losing it means no client accepts an update again, and it cannot be reissued without shipping a new installer to every machine.")))
  if prepared.access = .passwordProtectedKey [] then
    throw (.signing (text "the key password is empty.")
      (some (text "An empty password is never assumed. If the key really has none, say so with UnencryptedKey.")))
  let run := signingRun world arguments prepared call artifact
  writeSignature artifact run.written
  finish world artifact run

def refuseAForeignKey (signed : Text) (declared : Option Text) :
    Except Refusal Unit :=
  match declared with
  | none => .error noDeclaredKey
  | some declared => do
      let trusted ← (MinisignPublicKey.parse declared).mapError .update
      if keyIdHex trusted.keyId = signed then .ok ()
      else
        .error (.config
          (text "the secret key signs as " ++ signed ++
            text ", and update.public-key is " ++ keyIdHex trusted.keyId ++
            text ".")
          (some (text "Every client in the field carries " ++
            keyIdHex trusted.keyId ++
            text ", so it refuses anything signed by " ++ signed ++
            text ". Either point update.key at the key that pairs with the declared public one, or — if the park really is being moved to a new key — ship the new public key in an installer first, because the running clients cannot learn it from a manifest."))
          none)

def lifted {α : Type} : Except Refusal α → Steps α
  | .ok value => pure value
  | .error refusal => throw refusal

def signAll : Nat → List ManifestEntry → List Artifact →
    Steps (List ManifestEntry)
  | _, entries, [] => pure entries
  | call, entries, artifact :: rest => do
      let content ← sign world arguments prepared call artifact
      lifted (refuseAForeignKey (UpdateSignature.keyIdHex content)
        (some prepared.declaredKey))
      let entry : ManifestEntry :=
        { platformKey := artifact.platformKey, url := artifact.url,
          signature := content }
      signAll (call + 1) (entries ++ [entry]) rest

/-- A write that fails leaves the file as it was, or some of the content. -/
def writeAsString (path : Text) (content : Bytes)
    (answer : Answer Text (Option Bytes)) : Steps Unit := do
  let disk ← get
  let stored (bytes : Bytes) : StoredFile :=
    { bytes, signed := (disk path).any (·.signed), manifest := true }
  match answer with
  | .done => put path (some (stored content))
  | .failed error none => throw (.system error)
  | .failed error (some left) =>
      put path (some (stored left))
      throw (.system error)

def writeManifest (entries : List ManifestEntry) : Steps Unit := do
  perform .system world.createParent
  let rendered ← lifted ((render world.runtime prepared.version entries
    arguments.notes).mapError .update)
  writeAsString prepared.out (utf8Encode rendered) world.writeManifest

end

def run (world : World Version Date) (arguments : Arguments) : Steps Unit := do
  let disk ← get
  let prepared ← lifted (prepare world arguments disk)
  let entries ← signAll world arguments prepared 0 [] prepared.artifacts
  writeManifest world arguments prepared entries

/-! ## What a run leaves -/

/-- The disk before a run has written anything. -/
def found (disk : Disk Text Bytes) : Workspace := fun path =>
  (disk path).map fun bytes => { bytes, signed := false, manifest := false }

/-- A signature that minisign has written in this run is on the disk. -/
def Signed (workspace : Workspace) : Prop :=
  ∃ path file, workspace path = some file ∧ file.signed = true

/-- The manifest, or some of it, has been written. -/
def Published (workspace : Workspace) : Prop :=
  ∃ path file, workspace path = some file ∧ file.manifest = true

/-- The content is a signature of the declared key. -/
def Vouched (declaredKey content : Text) : Prop :=
  ∃ trusted, MinisignPublicKey.parse declaredKey = .ok trusted ∧
    keyIdHex trusted.keyId = UpdateSignature.keyIdHex content

section

variable (world : World Version Date) (arguments : Arguments)
  (prepared : Prepared)

/-- Minisign is called for the artefact. -/
def Called (workspace : Workspace) (artifact : Artifact) : Prop :=
  (workspace artifact.path).isSome ∧ (workspace prepared.keyPath).isSome ∧
    prepared.access ≠ .passwordProtectedKey []

def afterCall (call : Nat) (artifact : Artifact) (workspace : Workspace) :
    Workspace :=
  match (signingRun world arguments prepared call artifact).written with
  | none => workspace
  | some bytes =>
      Function.update workspace (signaturePath artifact)
        (some { bytes, signed := true, manifest := false })

/-- Minisign succeeds, and this is read at the path of the signature. -/
def ReadsBack (call : Nat) (artifact : Artifact) (workspace : Workspace)
    (content : Text) : Prop :=
  Called prepared workspace artifact ∧
    (∃ outcome, (signingRun world arguments prepared call artifact).outcome =
      .ok outcome ∧ outcome.exitCode = 0) ∧
    (signingRun world arguments prepared call artifact).unreadable = none ∧
    ((afterCall world arguments prepared call artifact workspace
      (signaturePath artifact)).bind fun file => utf8Decode file.bytes) =
        some content

/-- Artefact after artefact goes through, with a signature of the declared
key each. -/
inductive Signs : Nat → Workspace → List Artifact → List ManifestEntry →
    Workspace → Prop where
  | done (call : Nat) (workspace : Workspace) :
      Signs call workspace [] [] workspace
  | signed {call : Nat} {workspace last : Workspace} {artifact : Artifact}
      {rest : List Artifact} {content : Text} {entries : List ManifestEntry}
      (hread : ReadsBack world arguments prepared call artifact workspace
        content)
      (hvouched : Vouched prepared.declaredKey content)
      (hrest : Signs (call + 1)
        (afterCall world arguments prepared call artifact workspace) rest
        entries last) :
      Signs call workspace (artifact :: rest)
        ({ platformKey := artifact.platformKey, url := artifact.url,
           signature := content } :: entries) last

/-- Minisign writes a signature for an artefact that is reached, which it is
when those before it went through. -/
def WritesReached : Nat → Workspace → List Artifact → Prop
  | _, _, [] => False
  | call, workspace, artifact :: rest =>
      Called prepared workspace artifact ∧
        ((signingRun world arguments prepared call artifact).written.isSome ∨
          (∃ content, ReadsBack world arguments prepared call artifact
              workspace content ∧ Vouched prepared.declaredKey content) ∧
            WritesReached (call + 1)
              (afterCall world arguments prepared call artifact workspace)
              rest)

def ManifestGoesThrough (entries : List ManifestEntry) : Prop :=
  world.createParent.isDone ∧
    (∃ rendered, render world.runtime prepared.version entries
      arguments.notes = .ok rendered) ∧
    world.writeManifest.isDone

end

/-- A manifest lists signatures of the declared key for all artefacts. -/
def TrustedManifest (world : World Version Date) (arguments : Arguments)
    (disk : Disk Text Bytes) (after : Workspace) : Prop :=
  Published after → ∃ prepared entries last rendered,
    prepare world arguments (found disk) = .ok prepared ∧
      Signs world arguments prepared 0 (found disk) prepared.artifacts
        entries last ∧
        render world.runtime prepared.version entries arguments.notes =
          .ok rendered

/-- A manifest is written only with signatures of the declared key, and a
refusal leaves no signature of this run behind. -/
def RefusesCleanly (world : World Version Date) (arguments : Arguments)
    (disk : Disk Text Bytes) : Prop :=
  Ensures (run world arguments) (found disk)
    (fun _ after => TrustedManifest world arguments disk after)
    (fun _ after => TrustedManifest world arguments disk after ∧
      ¬ Signed after)

section

variable {world : World Version Date} {arguments : Arguments}
  {prepared : Prepared} {workspace : Workspace} {artifact : Artifact}
  {call : Nat}

theorem not_signed_found (disk : Disk Text Bytes) : ¬ Signed (found disk) := by
  rintro ⟨path, file, hfile, hsigned⟩
  obtain ⟨bytes, -, rfl⟩ := Option.map_eq_some_iff.mp hfile
  simp at hsigned

theorem signed_of_any {path : Text}
    (hfile : (workspace path).any (·.signed) = true) : Signed workspace := by
  obtain ⟨file, hfound, hsigned⟩ := (Option.any_eq_true _ _).mp hfile
  exact ⟨path, file, hfound, hsigned⟩

theorem not_published_found (disk : Disk Text Bytes) :
    ¬ Published (found disk) := by
  rintro ⟨path, file, hfile, hmanifest⟩
  obtain ⟨bytes, -, rfl⟩ := Option.map_eq_some_iff.mp hfile
  simp at hmanifest

theorem signed_afterCall :
    Signed (afterCall world arguments prepared call artifact workspace) ↔
      (signingRun world arguments prepared call artifact).written.isSome ∨
        Signed workspace := by
  unfold afterCall
  cases (signingRun world arguments prepared call artifact).written with
  | none => simp
  | some bytes =>
      have hwritten : Signed (Function.update workspace
          (signaturePath artifact) (some ⟨bytes, true, false⟩)) :=
        ⟨signaturePath artifact, _, Function.update_self .., rfl⟩
      simpa using hwritten

theorem published_afterCall
    (hpublished : Published
      (afterCall world arguments prepared call artifact workspace)) :
    Published workspace := by
  unfold afterCall at hpublished
  split at hpublished
  · exact hpublished
  · obtain ⟨path, file, hfile, hmanifest⟩ := hpublished
    by_cases hpath : path = signaturePath artifact
    · subst hpath
      rw [Function.update_self] at hfile
      cases hfile
      simp at hmanifest
    · rw [Function.update_of_ne hpath] at hfile
      exact ⟨path, file, hfile, hmanifest⟩

theorem refuseAForeignKey_eq_ok_iff {signed declared : Text} :
    refuseAForeignKey signed (some declared) = .ok () ↔
      ∃ trusted, MinisignPublicKey.parse declared = .ok trusted ∧
        keyIdHex trusted.keyId = signed := by
  unfold refuseAForeignKey
  rw [bind_eq_ok_iff]
  simp only [mapError_eq_ok_iff]
  constructor
  · rintro ⟨trusted, hparse, hsame⟩
    refine ⟨trusted, hparse, ?_⟩
    by_contra hother
    rw [if_neg hother] at hsame
    cases hsame
  · rintro ⟨trusted, hparse, hsame⟩
    exact ⟨trusted, hparse, if_pos hsame⟩

theorem ensures_lifted {α : Type} {value : Except Refusal α}
    {returned : α → Workspace → Prop} {thrown : Refusal → Workspace → Prop} :
    Ensures (lifted value) workspace returned thrown ↔
      (∀ result, value = .ok result → returned result workspace) ∧
        ∀ refusal, value = .error refusal → thrown refusal workspace := by
  cases value with
  | ok value => simp [lifted]
  | error refusal => simp [lifted]

theorem ensures_writeSignature {returned : Unit → Workspace → Prop}
    {thrown : Refusal → Workspace → Prop} :
    Ensures (writeSignature artifact
      (signingRun world arguments prepared call artifact).written) workspace
        returned thrown ↔
      returned ()
        (afterCall world arguments prepared call artifact workspace) := by
  unfold writeSignature afterCall
  cases (signingRun world arguments prepared call artifact).written <;> rfl

/-- Once minisign has been called, its signature stays whatever follows. -/
theorem ensures_finish (hcalled : Called prepared workspace artifact) :
    Ensures (finish world artifact
        (signingRun world arguments prepared call artifact))
      (afterCall world arguments prepared call artifact workspace)
      (fun content after =>
        ReadsBack world arguments prepared call artifact workspace content ∧
          after = afterCall world arguments prepared call artifact workspace)
      (fun _ after =>
        (¬ ∃ content, ReadsBack world arguments prepared call artifact
          workspace content) ∧
          after = afterCall world arguments prepared call artifact
            workspace) := by
  unfold finish ReadsBack
  generalize hafter : afterCall world arguments prepared call artifact
    workspace = after
  generalize signingRun world arguments prepared call artifact = run
  cases houtcome : run.outcome with
  | error error => simp
  | ok outcome =>
      by_cases hexit : outcome.exitCode = 0
      · cases hfile : after (signaturePath artifact) with
        | none => simp [hexit, hfile]
        | some file =>
            cases hunreadable : run.unreadable with
            | some error => simp [hexit, readSignature]
            | none =>
                cases hdecode : utf8Decode file.bytes with
                | none => simp [hexit, hfile, hdecode, readSignature]
                | some content =>
                    simp [hexit, hfile, hdecode, readSignature, hcalled]
      · simp [hexit]

/-- What `sign` returns is read back after the call; when it throws, the
call may have been made all the same. -/
theorem ensures_sign :
    Ensures (sign world arguments prepared call artifact) workspace
      (fun content after =>
        ReadsBack world arguments prepared call artifact workspace content ∧
          after = afterCall world arguments prepared call artifact workspace)
      (fun _ after =>
        (¬ ∃ content, ReadsBack world arguments prepared call artifact
          workspace content) ∧
          (Called prepared workspace artifact ∧
              after = afterCall world arguments prepared call artifact
                workspace ∨
            ¬ Called prepared workspace artifact ∧ after = workspace)) := by
  have hnever (hcalled : ¬ Called prepared workspace artifact) :
      (¬ ∃ content, ReadsBack world arguments prepared call artifact
        workspace content) ∧
        (Called prepared workspace artifact ∧
            workspace = afterCall world arguments prepared call artifact
              workspace ∨
          ¬ Called prepared workspace artifact ∧ workspace = workspace) :=
    ⟨fun ⟨_, hread⟩ => hcalled hread.1, .inr ⟨hcalled, rfl⟩⟩
  unfold sign
  simp only [ensures_bind, ensures_holds]
  cases hartifact : (workspace artifact.path).isSome with
  | false =>
      apply hnever
      simp [Called, hartifact]
  | true =>
      simp only [if_true, ensures_bind, ensures_holds]
      cases hkey : (workspace prepared.keyPath).isSome with
      | false =>
          apply hnever
          simp [Called, hkey]
      | true =>
          simp only [if_true]
          by_cases haccess : prepared.access = .passwordProtectedKey []
          · rw [if_pos haccess]
            apply hnever
            simp [Called, haccess]
          · rw [if_neg haccess]
            have hcalled : Called prepared workspace artifact :=
              ⟨hartifact, hkey, haccess⟩
            simp only [ensures_bind, ensures_writeSignature]
            apply (ensures_finish hcalled).imp
            · exact fun _ _ hread => hread
            · exact fun _ _ hthrown =>
                ⟨hthrown.1, .inl ⟨hcalled, hthrown.2⟩⟩

theorem Signs.unique {artifacts : List Artifact}
    {entries others : List ManifestEntry} {last other : Workspace}
    (hsigns : Signs world arguments prepared call workspace artifacts entries
      last)
    (hagain : Signs world arguments prepared call workspace artifacts others
      other) : entries = others := by
  induction hsigns generalizing others with
  | done => cases hagain; rfl
  | signed hread _ _ ih =>
      cases hagain with
      | signed hother _ hrest =>
          obtain rfl := Option.some.inj (hread.2.2.2.symm.trans hother.2.2.2)
          rw [ih hrest]

theorem not_vouched_of_refusal {content : Text} {refusal : Refusal}
    (hrefused : refuseAForeignKey (UpdateSignature.keyIdHex content)
      (some prepared.declaredKey) = .error refusal) :
    ¬ Vouched prepared.declaredKey content := by
  intro hvouched
  have hok := refuseAForeignKey_eq_ok_iff.mpr hvouched
  rw [hrefused] at hok
  cases hok

theorem writesReached_of_vouched {rest : List Artifact} {content : Text}
    (hread : ReadsBack world arguments prepared call artifact workspace
      content)
    (hvouched : Vouched prepared.declaredKey content) :
    WritesReached world arguments prepared call workspace
        (artifact :: rest) ↔
      (signingRun world arguments prepared call artifact).written.isSome ∨
        WritesReached world arguments prepared (call + 1)
          (afterCall world arguments prepared call artifact workspace)
          rest := by
  have hthrough : ∃ content, ReadsBack world arguments prepared call artifact
      workspace content ∧ Vouched prepared.declaredKey content :=
    ⟨content, hread, hvouched⟩
  simp only [WritesReached, hread.1, hthrough, true_and]

theorem writesReached_of_refused {rest : List Artifact}
    (hrefused : ¬ ∃ content, ReadsBack world arguments prepared call artifact
      workspace content ∧ Vouched prepared.declaredKey content) :
    WritesReached world arguments prepared call workspace
        (artifact :: rest) ↔
      Called prepared workspace artifact ∧
        (signingRun world arguments prepared call
          artifact).written.isSome := by
  simp only [WritesReached, hrefused, false_and, or_false]

theorem not_signs_of_refused {rest : List Artifact}
    (hrefused : ¬ ∃ content, ReadsBack world arguments prepared call artifact
      workspace content ∧ Vouched prepared.declaredKey content) :
    ¬ ∃ added last, Signs world arguments prepared call workspace
      (artifact :: rest) added last := by
  rintro ⟨_, _, hsigns⟩
  cases hsigns with
  | signed hread hvouched _ => exact hrefused ⟨_, hread, hvouched⟩

/-- All artefacts go through or the loop throws; a signature is on the disk
afterwards when a call that was reached has written one. -/
theorem ensures_signAll (entries : List ManifestEntry)
    (artifacts : List Artifact) :
    Ensures (signAll world arguments prepared call entries artifacts) workspace
      (fun result last =>
        (∃ added, result = entries ++ added ∧
          Signs world arguments prepared call workspace artifacts added
            last) ∧
          (Published last → Published workspace) ∧
          (Signed last ↔ WritesReached world arguments prepared call workspace
            artifacts ∨ Signed workspace))
      (fun _ last =>
        (¬ ∃ added last, Signs world arguments prepared call workspace
          artifacts added last) ∧
          (Published last → Published workspace) ∧
          (Signed last ↔ WritesReached world arguments prepared call workspace
            artifacts ∨ Signed workspace)) := by
  induction artifacts generalizing call workspace entries with
  | nil =>
      refine ⟨⟨[], by simp, .done call workspace⟩, id, ?_⟩
      simp [WritesReached]
  | cons artifact rest ih =>
      rw [signAll, ensures_bind]
      apply ensures_sign.imp
      · rintro content _ ⟨hread, rfl⟩
        rw [ensures_bind, ensures_lifted]
        constructor
        · intro _ hok
          have hvouched : Vouched prepared.declaredKey content :=
            refuseAForeignKey_eq_ok_iff.mp hok
          rw [writesReached_of_vouched hread hvouched]
          apply (ih _).imp
          · rintro result last ⟨⟨added, rfl, hsigns⟩, hpublished, hlast⟩
            refine ⟨⟨_ :: added, ?_, .signed hread hvouched hsigns⟩,
              fun hmanifest => published_afterCall (hpublished hmanifest), ?_⟩
            · simp
            · rw [hlast, signed_afterCall]
              tauto
          · rintro _ last ⟨hnever, hpublished, hlast⟩
            refine ⟨?_, fun hmanifest =>
              published_afterCall (hpublished hmanifest), ?_⟩
            · rintro ⟨_, _, hsigns⟩
              cases hsigns with
              | signed hother _ hrest => exact hnever ⟨_, _, hrest⟩
            · rw [hlast, signed_afterCall]
              tauto
        · intro refusal hrefused
          have hforeign : ¬ ∃ content, ReadsBack world arguments prepared call
              artifact workspace content ∧
                Vouched prepared.declaredKey content := by
            rintro ⟨other, hother, hvouched⟩
            obtain rfl : content = other :=
              Option.some.inj (hread.2.2.2.symm.trans hother.2.2.2)
            exact not_vouched_of_refusal hrefused hvouched
          refine ⟨not_signs_of_refused hforeign, published_afterCall, ?_⟩
          rw [signed_afterCall, writesReached_of_refused hforeign]
          simp [hread.1]
      · rintro _ last ⟨hnever, hlast⟩
        have hforeign : ¬ ∃ content, ReadsBack world arguments prepared call
            artifact workspace content ∧
              Vouched prepared.declaredKey content :=
          fun ⟨content, hread, _⟩ => hnever ⟨content, hread⟩
        rw [writesReached_of_refused hforeign]
        rcases hlast with ⟨hcalled, rfl⟩ | ⟨hcalled, rfl⟩
        · refine ⟨not_signs_of_refused hforeign, published_afterCall, ?_⟩
          rw [signed_afterCall]
          simp [hcalled]
        · refine ⟨not_signs_of_refused hforeign, id, ?_⟩
          simp [hcalled]

/-! ## The manifest -/

theorem signed_update {path : Text} {bytes : Bytes} :
    Signed (Function.update workspace path (some
      { bytes, signed := (workspace path).any (·.signed), manifest := true })) ↔
      Signed workspace := by
  constructor
  · rintro ⟨other, file, hfile, hsigned⟩
    by_cases hpath : other = path
    · subst hpath
      rw [Function.update_self] at hfile
      cases hfile
      cases hbefore : workspace other with
      | none => simp [hbefore] at hsigned
      | some before =>
          exact ⟨other, before, hbefore, by simpa [hbefore] using hsigned⟩
    · rw [Function.update_of_ne hpath] at hfile
      exact ⟨other, file, hfile, hsigned⟩
  · rintro ⟨other, file, hfile, hsigned⟩
    by_cases hpath : other = path
    · subst hpath
      refine ⟨other, _, Function.update_self .., ?_⟩
      simp [hfile, hsigned]
    · refine ⟨other, file, ?_, hsigned⟩
      rw [Function.update_of_ne hpath, hfile]

/-- Writing the manifest neither adds nor removes a signature of the run. -/
theorem ensures_writeManifest (entries : List ManifestEntry) :
    Ensures (writeManifest world arguments prepared entries) workspace
      (fun _ after => (Signed after ↔ Signed workspace) ∧
        ManifestGoesThrough world arguments prepared entries)
      (fun _ after => (Signed after ↔ Signed workspace) ∧
        ¬ ManifestGoesThrough world arguments prepared entries ∧
        (Published after → Published workspace ∨
          ∃ rendered, render world.runtime prepared.version entries
            arguments.notes = .ok rendered)) := by
  unfold writeManifest ManifestGoesThrough
  cases hparent : world.createParent with
  | failed error left => exact ⟨Iff.rfl, by simp, .inl⟩
  | done =>
      simp only [ensures_bind, ensures_perform, Answer.split_done,
        ensures_lifted]
      constructor
      · intro rendered hrender
        rw [mapError_eq_ok_iff] at hrender
        unfold writeAsString
        cases hwrite : world.writeManifest with
        | done => simp [signed_update, hrender]
        | failed error left =>
            cases left with
            | none => simp [hrender]
            | some left => simp [signed_update, hrender]
      · intro refusal hrefused
        have hnever : ¬ ∃ rendered, render world.runtime prepared.version
            entries arguments.notes = .ok rendered := by
          rintro ⟨rendered, hrender⟩
          rw [hrender] at hrefused
          cases hrefused
        simp [hnever]

/-- All artefacts are signed with the declared key and the manifest is
written. -/
def GoesThrough (world : World Version Date) (arguments : Arguments)
    (prepared : Prepared) (workspace : Workspace) : Prop :=
  ∃ entries last, Signs world arguments prepared 0 workspace
    prepared.artifacts entries last ∧
      ManifestGoesThrough world arguments prepared entries

theorem trustedManifest_of_published {disk : Disk Text Bytes}
    {after : Workspace} (hpublished : Published after → Published (found disk)) :
    TrustedManifest world arguments disk after :=
  fun hafter => absurd (hpublished hafter) (not_published_found disk)

/-- What a run does once everything before signing is settled. -/
theorem ensures_run {disk : Disk Text Bytes}
    (hprepare : prepare world arguments (found disk) = .ok prepared) :
    Ensures (run world arguments) (found disk)
      (fun _ after => TrustedManifest world arguments disk after ∧
        GoesThrough world arguments prepared (found disk))
      (fun _ after => TrustedManifest world arguments disk after ∧
        ¬ GoesThrough world arguments prepared (found disk) ∧
        (Signed after ↔ WritesReached world arguments prepared 0 (found disk)
          prepared.artifacts)) := by
  have hunsigned (written : Prop) : written ∨ Signed (found disk) ↔ written :=
    or_iff_left (not_signed_found disk)
  unfold run
  simp only [ensures_bind, ensures_get, hprepare, lifted, ensures_pure]
  apply (ensures_signAll [] prepared.artifacts).imp
  · rintro entries last ⟨⟨_, rfl, hsigns⟩, hpublished, hsigned⟩
    have hunique : ¬ ManifestGoesThrough world arguments prepared entries →
        ¬ GoesThrough world arguments prepared (found disk) := by
      rintro hnever ⟨others, _, hothers, hthrough⟩
      obtain rfl := hsigns.unique hothers
      exact hnever hthrough
    apply (ensures_writeManifest entries).imp
    · rintro _ after ⟨-, hthrough⟩
      obtain ⟨rendered, hrender⟩ := hthrough.2.1
      refine ⟨fun _ => ?_, entries, last, hsigns, hthrough⟩
      exact ⟨prepared, entries, last, rendered, hprepare, hsigns, hrender⟩
    · rintro _ after ⟨hsame, hnever, hrendered⟩
      refine ⟨?_, hunique hnever, by rw [hsame, hsigned, hunsigned]⟩
      intro hafter
      rcases hrendered hafter with hbefore | ⟨rendered, hrender⟩
      · exact absurd (hpublished hbefore) (not_published_found disk)
      · exact ⟨prepared, entries, last, rendered, hprepare, hsigns, hrender⟩
  · rintro _ last ⟨hnever, hpublished, hsigned⟩
    refine ⟨trustedManifest_of_published hpublished, ?_,
      by rw [hsigned, hunsigned]⟩
    rintro ⟨entries, other, hsigns, -⟩
    exact hnever ⟨entries, other, hsigns⟩

/-- A run that throws and leaves a signature at the path. -/
theorem not_refusesCleanly_of_left {disk : Disk Text Bytes} (path : Text)
    (hleft : Ensures (run world arguments) (found disk) (fun _ _ => False)
      (fun _ after => (after path).any (·.signed) = true)) :
    ¬ RefusesCleanly world arguments disk := by
  intro hclean
  have hboth := hleft.and hclean
  have hnever : Ensures (run world arguments) (found disk)
      (fun _ _ => False) (fun _ _ => False) := by
    apply hboth.imp
    · exact fun _ _ hreturned => hreturned.1
    · exact fun _ _ hthrown => hthrown.2.2 (signed_of_any hthrown.1)
  exact not_ensures_false hnever

/-- The command refuses cleanly exactly when no signature is written by a
call that is reached, or nothing goes wrong in the whole run. -/
theorem refuses_cleanly_iff (world : World Version Date)
    (arguments : Arguments) (disk : Disk Text Bytes) :
    RefusesCleanly world arguments disk ↔
      ∀ prepared, prepare world arguments (found disk) = .ok prepared →
        WritesReached world arguments prepared 0 (found disk)
          prepared.artifacts →
        GoesThrough world arguments prepared (found disk) := by
  unfold RefusesCleanly
  cases hprepare : prepare world arguments (found disk) with
  | error refusal =>
      have hclean : TrustedManifest world arguments disk (found disk) ∧
          ¬ Signed (found disk) :=
        ⟨trustedManifest_of_published id, not_signed_found disk⟩
      simp [run, hprepare, lifted, hclean]
  | ok prepared =>
      have hrun := ensures_run hprepare
      unfold Ensures at *
      cases hresult : (run world arguments).run (found disk) with
      | ok value after =>
          rw [hresult] at hrun
          constructor
          · rintro - _ hsame -
            cases hsame
            exact hrun.2
          · exact fun _ => hrun.1
      | error refusal after =>
          rw [hresult] at hrun
          obtain ⟨htrusted, hnever, hsigned⟩ := hrun
          constructor
          · rintro ⟨-, hclean⟩ _ hsame hwrites
            cases hsame
            exact absurd (hsigned.mpr hwrites) hclean
          · intro hall
            refine ⟨htrusted, fun hafter => ?_⟩
            exact hnever (hall prepared rfl (hsigned.mp hafter))

end

/-! ### A foreign key -/

/-- A signature of the key whose id is one. -/
def foreignSignature : Text :=
  text "untrusted comment: signature\nRWQB" ++ List.replicate 95 65 ++
    text "=\ntrusted comment: version:2.0.0\nAA==\n"

def foreignWorld : World Text Unit where
  runtime := releaseRuntime
  isAbsolute := fun path => (text "/").isPrefixOf path
  join := fun base path => base ++ text "/" ++ path
  basename := id
  environment := fun _ => none
  config := fun _ => .ok none
  pubspecVersion := fun _ => .ok (text "2.0.0")
  usage := text "Usage: dovetail release"
  unreadable := fun _ => none
  minisign := fun _ _ =>
    { outcome := .ok ⟨0, [], []⟩
      written := some (utf8Encode foreignSignature)
      unreadable := none }
  createParent := .done
  writeManifest := .done

def foreignArguments : Arguments where
  root := none
  version := some (text "2.0.0")
  notes := none
  out := none
  key := some (text "/keys/other.key")
  passwordEnv := none
  unencryptedKey := true
  publicKey := some blankKey
  minisign := text "minisign"
  artifact := [text "darwin-aarch64=https://example.com/app.dmg=/dist/app.dmg"]

def builtDisk : Disk Text Bytes := fun path =>
  if path = text "/dist/app.dmg" ∨ path = text "/keys/other.key" then some []
  else none

/-- The foreign key is refused, and its signature stays by the artefact. -/
theorem not_refusesCleanly_foreign :
    ¬ RefusesCleanly foreignWorld foreignArguments builtDisk := by
  apply not_refusesCleanly_of_left (text "/dist/app.dmg.minisig")
  decide +kernel

end Dovetail.Cli.Release
