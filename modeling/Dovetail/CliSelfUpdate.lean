import Dovetail.CliSdkChannel

/-!
# Updating the SDK from a channel

`SelfUpdateCommand` compares the version a channel announces with that of the
binary and unpacks the tarball of a newer one.  The signature covers the
bytes of the tarball and its trusted comment; the announced version stands in
the urls only, so what was once signed is unpacked under any newer number.
-/

namespace Dovetail.Cli.Sdk

open CodeUnits
open FallibleSteps
open Release
open Updater

variable {Version Url : Type}

/-! ## The command -/

/-- The machine the command runs on. -/
structure Machine (Version : Type) where
  join : List Text → Text
  home : Text
  binDir : Text
  searchPath : List Text
  createStage : Except (Thrown Version) Text
  write : Text → Bytes → Except (Thrown Version) Unit
  createHome : Except (Thrown Version) Unit
  tar : List Text → Except (Thrown Version) Release.ProcessOutcome
  createBinDir : Except (Thrown Version) Unit
  linkExists : Bool
  deleteLink : Except (Thrown Version) Unit
  createLink : Text → Except (Thrown Version) Unit
  deleteStage : Except (Thrown Version) Unit

/-- The lines that were printed and the tarballs that were handed to `tar`,
each with the version it was asked for as. -/
structure Progress where
  printed : List Text
  unpacked : List (Text × Bytes)

abbrev Steps (Version α : Type) := EStateM (Thrown Version) Progress α

def perform {α : Type} (step : Except (Thrown Version) α) : Steps Version α :=
  MonadExcept.ofExcept step

def say (line : Text) : Steps Version Unit :=
  modify fun progress => { progress with printed := progress.printed ++ [line] }

def firstDiagnostic (outcome : Release.ProcessOutcome) : Text :=
  let source := if (trim outcome.stderr).isEmpty then outcome.stdout
    else outcome.stderr
  let lines := ((source.splitOnP (· == newline)).map trim).filter fun line =>
    !line.isEmpty
  lines.head?.getD (text "exit code " ++ text (toString outcome.exitCode))

section

variable (runtime : SdkRuntime Version Url) (binary : DovetailVersion)
  (machine : Machine Version)

def binaryPath : Text := machine.join [machine.home, text "bin", text "dovetail"]

/-- `SdkInstaller.extract`, with what the file at the path holds. -/
def extract (version path : Text) (tarball : Bytes) : Steps Version Text := do
  perform machine.createHome
  modify fun progress =>
    { progress with unpacked := progress.unpacked ++ [(version, tarball)] }
  let outcome ← perform (machine.tar
    [text "-xzf", path, text "-C", machine.home])
  if outcome.exitCode ≠ 0 then
    throw (.failure ⟨text "tar could not unpack " ++ path ++ text ": " ++
        firstDiagnostic outcome ++ text ".",
      some (text "The download verified against its sha256, so this is a local tar problem, not a corrupted release.")⟩)
  else return binaryPath machine

def linkBin : Steps Version Unit := do
  perform machine.createBinDir
  if machine.linkExists then perform machine.deleteLink
  perform (machine.createLink (binaryPath machine))
  if machine.binDir ∉ machine.searchPath then
    say (text "  note: " ++ machine.binDir ++ text " is not in PATH")

/-- What is done between the creation of the stage and its removal. -/
def install (channel : SdkChannel) (stage latest : Text) :
    Steps Version Int := do
  let path := machine.join [stage, SdkChannel.tarballName binary latest]
  let url ← perform
    (runtime.fetcher.parseUrl (channel.tarballUrl binary latest))
  say (text "downloading " ++ runtime.urlText url)
  let tarball ← perform (channel.download runtime binary latest)
  perform (machine.write path tarball)
  let _ ← extract machine latest path tarball
  linkBin machine
  say (text "updated " ++ binary.number ++ text " → " ++ latest)
  say (text "  sdk/" ++ binary.number ++
    text " kept — apps pointing at it keep resolving")
  say (text "  sdk/" ++ latest ++ text " installed at " ++ machine.home)
  say (text "  note: this process keeps the old binary in memory; the next invocation is the new one")
  return 0

def openChannel (flag environment : Option Text) :
    Except (Thrown Version) SdkChannel := do
  let baseUrl ← baseUrlOf flag environment
  let releaseKey ← (embeddedReleaseKey binary).mapError .failure
  return { baseUrl, releaseKey }

def nothingToDo (latest : Text) : Text :=
  if latest = binary.number then
    text "already current (" ++ binary.number ++ text ")"
  else
    text "channel latest (" ++ latest ++ text ") is older than this binary (" ++
      binary.number ++ text ") — nothing to do"

def selfUpdate (flag environment : Option Text) : Steps Version Int := do
  let channel ← perform (openChannel binary flag environment)
  match ← perform (channel.latest runtime) with
  | none =>
      say (text "the channel has no release yet — nothing to do")
      return 0
  | some latest =>
      if newerVersion latest binary.number = binary.number then
        say (nothingToDo binary latest)
        return 0
      else
        let stage ← perform machine.createStage
        try install runtime binary machine channel stage latest
        finally perform machine.deleteStage

/-- The command has the tarball unpacked as that version, however it
ends. -/
def Unpacks (flag environment : Option Text) (version : Text)
    (tarball : Bytes) : Prop :=
  (version, tarball) ∈
    (leftBy (selfUpdate runtime binary machine flag environment)
      ⟨[], []⟩).unpacked

/-- What is unpacked was published as the version it is announced as, and is
newer than the binary. -/
def NeverRollsBack (flag environment : Option Text)
    (Published : Text → Bytes → Prop) : Prop :=
  ∀ version tarball,
    Unpacks runtime binary machine flag environment version tarball →
      Published version tarball ∧ Precedes binary.number version

end

/-! ## What is unpacked -/

section

variable {runtime : SdkRuntime Version Url} {binary : DovetailVersion}
  {machine : Machine Version} {progress : Progress}
  {handed : Text × Bytes} {version path stage latest : Text} {tarball : Bytes}
  {channel : SdkChannel} {flag environment : Option Text}

@[simp] theorem ensures_perform {α : Type} {step : Except (Thrown Version) α}
    {returned : α → Progress → Prop} {thrown : Thrown Version → Progress → Prop} :
    Ensures (perform step) progress returned thrown ↔
      Ends step (fun value => returned value progress)
        (fun failure => thrown failure progress) :=
  ensures_ofExcept

@[simp] theorem ensures_say {line : Text} {returned : Unit → Progress → Prop}
    {thrown : Thrown Version → Progress → Prop} :
    Ensures (say line) progress returned thrown ↔
      returned () { progress with printed := progress.printed ++ [line] } :=
  ensures_modify

theorem ensures_linkBin :
    Ensures (linkBin machine) progress
        (fun _ after => handed ∈ after.unpacked)
        (fun _ after => handed ∈ after.unpacked) ↔
      handed ∈ progress.unpacked := by
  unfold linkBin
  by_cases hpath : machine.binDir ∈ machine.searchPath <;>
    cases machine.linkExists <;> simp [hpath]

theorem ensures_extract :
    Ensures (extract machine version path tarball) progress
        (fun _ after => handed ∈ after.unpacked)
        (fun _ after => handed ∈ after.unpacked) ↔
      handed ∈ progress.unpacked ∨
        machine.createHome = .ok () ∧ handed = (version, tarball) := by
  unfold extract
  cases machine.createHome <;> simp

theorem ensures_install :
    Ensures (install runtime binary machine channel stage latest) progress
        (fun _ after => handed ∈ after.unpacked)
        (fun _ after => handed ∈ after.unpacked) ↔
      handed ∈ progress.unpacked ∨
        ∃ tarball, channel.download runtime binary latest = .ok tarball ∧
          machine.write (machine.join
            [stage, SdkChannel.tarballName binary latest]) tarball = .ok () ∧
          machine.createHome = .ok () ∧ handed = (latest, tarball) := by
  unfold install
  cases hparse : runtime.fetcher.parseUrl
      (channel.tarballUrl binary latest) with
  | error thrown =>
      have hnone : ∀ tarball,
          channel.download runtime binary latest ≠ .ok tarball := by
        intro tarball hdownload
        rcases SdkChannel.download_eq_ok_iff.mp hdownload with
          ⟨⟨url, body, hurl, -⟩, -⟩
        rw [hparse] at hurl
        cases hurl
      simp [hnone]
  | ok url =>
      cases hdownload : channel.download runtime binary latest with
      | error thrown => simp
      | ok tarball =>
          cases hwrite : machine.write (machine.join
              [stage, SdkChannel.tarballName binary latest]) tarball with
          | error thrown => simp [hwrite]
          | ok _ =>
              simp [hwrite, ensures_linkBin, ensures_extract]

theorem unpacks_iff :
    Unpacks runtime binary machine flag environment version tarball ↔
      ∃ channel stage,
        (openChannel binary flag environment :
            Except (Thrown Version) SdkChannel) = .ok channel ∧
          channel.latest runtime = .ok (some version) ∧
          newerVersion version binary.number ≠ binary.number ∧
          machine.createStage = .ok stage ∧
          channel.download runtime binary version = .ok tarball ∧
          machine.write (machine.join
            [stage, SdkChannel.tarballName binary version]) tarball = .ok () ∧
          machine.createHome = .ok () := by
  unfold Unpacks
  rw [← ensures_both_iff (P := fun after : Progress =>
    (version, tarball) ∈ after.unpacked)]
  unfold selfUpdate
  cases hchannel : (openChannel binary flag environment :
      Except (Thrown Version) SdkChannel) with
  | error thrown => simp
  | ok channel =>
      cases hlatest : channel.latest runtime with
      | error thrown => simp [hlatest]
      | ok announced =>
          cases announced with
          | none => simp [hlatest]
          | some latest =>
              by_cases hnewer : newerVersion latest binary.number = binary.number
              · simp only [hlatest, ends_ok, hnewer, if_true, ensures_bind,
                  ensures_perform, ensures_say, ensures_pure,
                  List.not_mem_nil, false_iff]
                intro hfacts
                rcases hfacts with ⟨other, _, hopened, hannounced, hother, -⟩
                obtain rfl : channel = other := Except.ok.inj hopened
                rw [hlatest] at hannounced
                obtain rfl : latest = version :=
                  Option.some.inj (Except.ok.inj hannounced)
                exact hother hnewer
              · cases hstage : machine.createStage with
                | error thrown => simp [hlatest, hnewer]
                | ok stage =>
                    simp only [hlatest, hnewer, ensures_bind, ensures_perform,
                      ends_ok, if_false, ensures_tryFinally, ends_const,
                      ensures_install, List.not_mem_nil, false_or,
                      Prod.mk.injEq, Except.ok.injEq, Option.some.injEq,
                      ne_eq, exists_and_left, exists_eq_left', ↓existsAndEq,
                      and_true, true_and]
                    constructor
                    · intro hfacts
                      rcases hfacts with ⟨hdownload, hwrite, hhome, rfl⟩
                      exact ⟨rfl, hnewer, hdownload, hwrite, hhome⟩
                    · intro hfacts
                      rcases hfacts with ⟨rfl, -, hdownload, hwrite, hhome⟩
                      exact ⟨hdownload, hwrite, hhome, rfl⟩

end

/-! ## A mirror -/

/-- The four files that a mirror serves, whatever version is asked for. -/
structure Mirror where
  latest : Bytes
  tarball : Bytes
  sum : Bytes
  signature : Bytes

namespace Mirror

def fileAt (mirror : Mirror) (url : Text) : Bytes :=
  if text "/latest" <:+ url then mirror.latest
  else if text ".sha256" <:+ url then mirror.sum
  else if text ".minisig" <:+ url then mirror.signature
  else mirror.tarball

def fetcher (mirror : Mirror) : ArtifactFetcher Version Text where
  parseUrl := .ok
  fetch _ url := .ok ⟨200, mirror.fileAt url⟩

/-- The runtime of a binary that asks the mirror. -/
def answering (mirror : Mirror) (runtime : SdkRuntime Version Url) :
    SdkRuntime Version Text where
  fetcher := mirror.fetcher
  urlText := id
  utf8Error := runtime.utf8Error
  sha256 := runtime.sha256
  crypto := runtime.crypto

/-- Two endings of one length are the same or do not end the same text. -/
theorem not_isSuffix_append {ending other before : Text}
    (hlength : ending.length = other.length) (hother : ending ≠ other) :
    ¬ ending <:+ before ++ other := by
  intro hends
  have hsuffix : ending <:+ other :=
    List.suffix_of_suffix_length_le hends (List.suffix_append before other)
      hlength.le
  exact hother (hsuffix.eq_of_length hlength)

section

variable {mirror : Mirror} {binary : DovetailVersion} {channel : SdkChannel}
  {version : Text}

theorem fileAt_latestUrl : mirror.fileAt channel.latestUrl = mirror.latest := by
  unfold fileAt SdkChannel.latestUrl
  rw [if_pos (List.suffix_append _ _)]

theorem fileAt_tarballUrl :
    mirror.fileAt (channel.tarballUrl binary version) = mirror.tarball := by
  have hname : ∃ before, channel.tarballUrl binary version =
      before ++ text ".tar.gz" := by
    unfold SdkChannel.tarballUrl SdkChannel.tarballName
    simp only [← List.append_assoc]
    exact ⟨_, rfl⟩
  rcases hname with ⟨before, hname⟩
  have hminisig : text ".tar.gz" ≠ text "minisig" := by decide
  unfold fileAt
  rw [hname, if_neg (not_isSuffix_append (by decide) (by decide)),
    if_neg (not_isSuffix_append (by decide) (by decide)), if_neg]
  intro hends
  have hshorter : text "minisig" <:+ before ++ text ".tar.gz" :=
    (by decide : text "minisig" <:+ text ".minisig").trans hends
  exact not_isSuffix_append (by decide) hminisig.symm hshorter

theorem fileAt_shaUrl :
    mirror.fileAt (channel.shaUrl binary version) = mirror.sum := by
  unfold fileAt SdkChannel.shaUrl
  rw [if_neg (not_isSuffix_append (by decide) (by decide)),
    if_pos (List.suffix_append _ _)]

theorem fileAt_sigUrl :
    mirror.fileAt (channel.sigUrl binary version) = mirror.signature := by
  have hname : channel.sigUrl binary version =
      channel.tarballUrl binary version ++ text "." ++ text "minisig" := by
    unfold SdkChannel.sigUrl
    rw [List.append_assoc]
    rfl
  have hsigned : text ".minisig" <:+ channel.sigUrl binary version :=
    List.suffix_append _ _
  unfold fileAt
  rw [hname] at hsigned ⊢
  rw [if_neg (not_isSuffix_append (by decide) (by decide)),
    if_neg (not_isSuffix_append (by decide) (by decide)), if_pos hsigned]

theorem serves {runtime : SdkRuntime Version Url} {asked : List Text}
    {url : Text} {bytes : Bytes} (hfile : mirror.fileAt url = bytes) :
    SdkChannel.Serves (mirror.answering runtime) asked url bytes :=
  ⟨url, ⟨200, mirror.fileAt url⟩, rfl, rfl, rfl, hfile⟩

theorem latest_answering {runtime : SdkRuntime Version Url} {source : Text}
    (hsource : utf8Decode mirror.latest = some source)
    (hsome : trim source ≠ []) :
    channel.latest (mirror.answering runtime) = .ok (some (trim source)) := by
  have hfile : utf8Decode (mirror.fileAt channel.latestUrl) = some source := by
    rw [fileAt_latestUrl]
    exact hsource
  exact SdkChannel.latest_eq_some_iff.mpr
    ⟨channel.latestUrl, ⟨200, _⟩, source, rfl, rfl, rfl, rfl, hfile, rfl,
      hsome⟩

/-- The mirror's tarball passes as any version, with a sum and a signature
that pass. -/
theorem download_answering {runtime : SdkRuntime Version Url}
    {expected : Text} (hsum : utf8Decode mirror.sum = some expected)
    (hmatch : trim expected =
      Ship.UpgradeCode.hexText (runtime.sha256 mirror.tarball))
    (hsigned : ∀ key, channel.releaseKey = some key →
      ∃ source signature, utf8Decode mirror.signature = some source ∧
        MinisignSignature.parse source = .ok signature ∧
        verify runtime.crypto mirror.tarball signature key = .ok ()) :
    channel.download (mirror.answering runtime) binary version =
      .ok mirror.tarball := by
  apply SdkChannel.download_eq_ok_iff.mpr
  refine ⟨serves fileAt_tarballUrl,
    ⟨mirror.sum, expected, serves fileAt_shaUrl, hsum, hmatch⟩, ?_⟩
  apply SdkChannel.verifySignature_eq_ok_iff.mpr
  intro key hkey
  rcases hsigned key hkey with ⟨source, signature, hsource, hparse, hverify⟩
  exact ⟨mirror.signature, source, signature, serves fileAt_sigUrl, hsource,
    hparse, hverify⟩

end

end Mirror

/-! ## What is unpacked was signed, under any version -/

section

variable {runtime : SdkRuntime Version Url} {binary : DovetailVersion}
  {machine : Machine Version} {flag environment : Option Text}
  {version : Text} {tarball : Bytes}

/-- A mirror has a tarball with a sum and a signature that pass unpacked as
whatever newer version it announces. -/
theorem unpacks_of_announced {mirror : Mirror} {channel : SdkChannel}
    {stage source : Text}
    (hchannel : (openChannel binary flag environment :
      Except (Thrown Version) SdkChannel) = .ok channel)
    (hstage : machine.createStage = .ok stage)
    (hhome : machine.createHome = .ok ())
    (hdownload : channel.download (mirror.answering runtime) binary
      (trim source) = .ok mirror.tarball)
    (hsource : utf8Decode mirror.latest = some source)
    (hsome : trim source ≠ [])
    (hnewer : newerVersion (trim source) binary.number ≠ binary.number)
    (hwrite : machine.write (machine.join
      [stage, SdkChannel.tarballName binary (trim source)]) mirror.tarball =
        .ok ()) :
    Unpacks (mirror.answering runtime) binary machine flag environment
      (trim source) mirror.tarball := by
  have hlatest : channel.latest (mirror.answering runtime) =
      .ok (some (trim source)) := Mirror.latest_answering hsource hsome
  exact unpacks_iff.mpr ⟨channel, stage, hchannel, hlatest, hnewer, hstage,
    hdownload, hwrite, hhome⟩

/-- What the key's holder signed of a tarball: its bytes, or their hash, and
the comment bound to that signature. -/
def SignedTarball (crypto : Crypto) (Signed : Bytes → Bytes → Prop)
    (key : MinisignPublicKey) (tarball : Bytes) : Prop :=
  ∃ signature, Signed key.key (signedMessage crypto tarball signature) ∧
    Signed key.key (boundComment signature)

theorem signedTarball_of_verifySignature {Signed : Bytes → Bytes → Prop}
    (hsound : ∀ key message signature,
      runtime.crypto.verify key message signature = true →
        Signed key message)
    {channel : SdkChannel} {asked : List Text} {key : MinisignPublicKey}
    (hverified : channel.verifySignature runtime binary asked version tarball =
      .ok ())
    (hkey : channel.releaseKey = some key) :
    SignedTarball runtime.crypto Signed key tarball := by
  rcases SdkChannel.verifySignature_eq_ok_iff.mp hverified key hkey with
    ⟨_, _, signature, -, -, -, hverify⟩
  rcases verify_eq_ok_iff.mp hverify with ⟨-, hpayload, hcomment⟩
  exact ⟨signature, hsound _ _ _ hpayload, hsound _ _ _ hcomment⟩

/-- The sum and the signature that passed pass again from a mirror, under
every version. -/
theorem exists_mirror_of_download {channel : SdkChannel}
    (hdownload : channel.download runtime binary version = .ok tarball) :
    ∃ sum signature, ∀ announced other,
      channel.download
        (Mirror.answering ⟨announced, tarball, sum, signature⟩ runtime)
        binary other = .ok tarball := by
  rcases SdkChannel.download_eq_ok_iff.mp hdownload with
    ⟨-, ⟨sum, expected, -, hsum, hmatch⟩, hverified⟩
  have hsigned := SdkChannel.verifySignature_eq_ok_iff.mp hverified
  cases hkey : channel.releaseKey with
  | none =>
      refine ⟨sum, [], fun announced other => ?_⟩
      apply Mirror.download_answering hsum hmatch
      simp [hkey]
  | some key =>
      rcases hsigned key hkey with ⟨bytes, source, signature, -, hsource,
        hparse, hverify⟩
      refine ⟨sum, bytes, fun announced other => ?_⟩
      apply Mirror.download_answering hsum hmatch
      intro other hother
      obtain rfl : key = other := by simpa [hkey] using hother
      exact ⟨source, signature, hsource, hparse, hverify⟩

/-- What is unpacked as a version is what the channel announced as one that
is not behind the binary, with the sum the channel serves, and was signed
where the binary has a key; a mirror has it unpacked as any newer version as
well. -/
theorem unpacks_signed_under_any_version {Signed : Bytes → Bytes → Prop}
    (hsound : ∀ key message signature,
      runtime.crypto.verify key message signature = true →
        Signed key message)
    (hunpacks :
      Unpacks runtime binary machine flag environment version tarball) :
    version ≠ binary.number ∧
      (Precedes binary.number version ∨
        ∀ i, segment version i = segment binary.number i) ∧
      ∃ channel stage,
        (openChannel binary flag environment :
            Except (Thrown Version) SdkChannel) = .ok channel ∧
          channel.latest runtime = .ok (some version) ∧
          machine.createStage = .ok stage ∧
          (∃ sum expected,
            SdkChannel.Serves runtime
                [channel.latestUrl, channel.tarballUrl binary version]
                (channel.shaUrl binary version) sum ∧
              utf8Decode sum = some expected ∧
              trim expected =
                Ship.UpgradeCode.hexText (runtime.sha256 tarball)) ∧
          (∀ key, channel.releaseKey = some key →
            SignedTarball runtime.crypto Signed key tarball) ∧
          ∃ sum signature, ∀ announced source,
            utf8Decode announced = some source → trim source ≠ [] →
              newerVersion (trim source) binary.number ≠ binary.number →
                machine.write (machine.join
                    [stage, SdkChannel.tarballName binary (trim source)])
                  tarball = .ok () →
                  Unpacks
                    (Mirror.answering ⟨announced, tarball, sum, signature⟩
                      runtime)
                    binary machine flag environment (trim source) tarball := by
  rcases unpacks_iff.mp hunpacks with ⟨channel, stage, hchannel, hlatest,
    hnewer, hstage, hdownload, -, hhome⟩
  rcases SdkChannel.download_eq_ok_iff.mp hdownload with
    ⟨-, hsum, hverified⟩
  rcases exists_mirror_of_download hdownload with ⟨sum, signature, hmirror⟩
  have hother : version ≠ binary.number := by
    intro hsame
    exact hnewer (newerVersion_eq_right_iff.mpr (Or.inl hsame))
  have hnumbers := precedes_or_same_of_newerVersion_ne hnewer
  refine ⟨hother, hnumbers, channel, stage, hchannel, hlatest, hstage, hsum,
    ?_, sum, signature, ?_⟩
  · intro key hkey
    exact signedTarball_of_verifySignature hsound hverified hkey
  · intro announced source hsource hsome hannounced hwrite
    exact unpacks_of_announced hchannel hstage hhome
      (hmirror announced (trim source)) hsource hsome hannounced hwrite

end

/-! ## An old tarball under a new version -/

/-- A binary of 1.5.0 with the key of zeros. -/
def keyedBinary : DovetailVersion where
  number := text "1.5.0"
  targetOs := text "linux"
  targetArch := text "arm64"
  sdkReleaseKeyBase64 := text "RWQA" ++ List.replicate 52 65

def keyedChannel : SdkChannel where
  baseUrl := text "https://sdk.example.com"
  releaseKey := some ⟨text "Ed", List.replicate 8 0, List.replicate 32 0⟩

/-- A machine on which everything succeeds. -/
def willingMachine : Machine Text where
  join := Updater.join (text "/")
  home := text "/home/me/.dovetail"
  binDir := text "/home/me/.local/bin"
  searchPath := [text "/home/me/.local/bin"]
  createStage := .ok (text "/tmp/dovetail-sdk")
  write _ _ := .ok ()
  createHome := .ok ()
  tar _ := .ok ⟨0, [], []⟩
  createBinDir := .ok ()
  linkExists := true
  deleteLink := .ok ()
  createLink _ := .ok ()
  deleteStage := .ok ()

/-- The sum of the old artifact. -/
def oldSum : Bytes :=
  [0x60, 0xa5, 0x37, 0xc6, 0x08, 0xdb, 0x58, 0x43, 0x81, 0xb8, 0x03, 0x96,
    0xa7, 0xd4, 0x81, 0x4f, 0xcc, 0xf5, 0x5a, 0xd0, 0xd2, 0x2e, 0x27, 0x6c,
    0xce, 0x6e, 0x0d, 0x98, 0x13, 0xac, 0xe8, 0x5a]

/-- The tarball that was signed as 1.0.0, announced as 2.0.0. -/
def relabelledMirror : Mirror where
  latest := utf8Encode (text "2.0.0\n")
  tarball := oldArtifact
  sum := utf8Encode (Ship.UpgradeCode.hexText oldSum ++ text "\n")
  signature := utf8Encode (blankSignature "version:1.0.0\tfile:app.tar.gz")

def relabelledRuntime : SdkRuntime Text Text :=
  relabelledMirror.answering {
    fetcher := relabelledMirror.fetcher
    urlText := id
    utf8Error := fun _ => text "FormatException: Invalid UTF-8 byte"
    sha256 := fun _ => oldSum
    crypto := oldCrypto }

theorem unpacks_relabelled :
    Unpacks relabelledRuntime keyedBinary willingMachine
      (some (text "https://sdk.example.com")) none (text "2.0.0")
      oldArtifact := by
  have hchannel : openChannel keyedBinary
      (some (text "https://sdk.example.com")) none =
        (.ok keyedChannel : Except (Thrown Text) SdkChannel) := by
    decide
  apply unpacks_iff.mpr
  refine ⟨keyedChannel, _, hchannel, ?_, ?_, rfl, ?_, rfl, rfl⟩
  · decide
  · decide
  · decide +kernel

/-- The tarball signed as 1.0.0 is unpacked by a binary of 1.5.0 as 2.0.0,
whoever can make no signature but the one of 1.0.0. -/
theorem not_neverRollsBack_relabelled :
    (∀ key message signature,
      relabelledRuntime.crypto.verify key message signature = true →
        WasSigned key message) ∧
      Precedes (text "1.0.0") keyedBinary.number ∧
      ¬ NeverRollsBack relabelledRuntime keyedBinary willingMachine
        (some (text "https://sdk.example.com")) none
        (fun version tarball =>
          version = text "1.0.0" ∧ tarball = oldArtifact) := by
  refine ⟨wasSigned_of_verify, ⟨1, ?_, ?_⟩, ?_⟩
  · intro j hj
    obtain rfl : j = 0 := by omega
    decide
  · decide
  · intro hnever
    have hpublished := (hnever _ _ unpacks_relabelled).1.1
    exact absurd hpublished (by decide)

theorem unpacks_signed_under_any_version_sample :
    SignedTarball oldCrypto WasSigned
      ⟨text "Ed", List.replicate 8 0, List.replicate 32 0⟩ oldArtifact := by
  rcases unpacks_signed_under_any_version wasSigned_of_verify
    unpacks_relabelled with ⟨-, -, channel, _, hchannel, -, -, -, hsigned, -⟩
  have hopened : openChannel keyedBinary
      (some (text "https://sdk.example.com")) none =
        (.ok keyedChannel : Except (Thrown Text) SdkChannel) := by
    decide
  rw [hopened] at hchannel
  obtain rfl : keyedChannel = channel := Except.ok.inj hchannel
  exact hsigned _ rfl

end Dovetail.Cli.Sdk
