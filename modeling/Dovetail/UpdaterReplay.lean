import Dovetail.UpdaterFallback
import Dovetail.UpdaterManifestWriter

/-!
# A signed release under another version

The version a check offers is that of the manifest, which nobody signs.  The
signature binds the bytes of the artifact and the trusted comment to the key;
no step compares the version in the comment with the one that is offered.
-/

namespace Dovetail.Updater

open CodeUnits

variable {Version Date Url : Type}

/-- The trusted comment of a release. -/
def releaseComment (version file : Text) : Text :=
  text "version:" ++ version ++ text "\tfile:" ++ file

theorem releaseFor_withVersion {runtime : Runtime Version Date}
    {manifest : UpdateManifest Version Date} {platformKey : Text}
    {release : PlatformRelease}
    (hrelease : releaseFor runtime manifest platformKey = .ok release)
    (version : Version) :
    releaseFor runtime { manifest with version } platformKey =
      .ok release := by
  have hreleases : ∀ key, releaseOf? { manifest with version } key =
      releaseOf? manifest key := fun _ => rfl
  rw [releaseFor_eq_ok_iff] at hrelease ⊢
  simpa only [hreleases] using hrelease

namespace UpdateFlow

variable {runtime : Runtime Version Date} {flow : UpdateFlow Version Url}
  {installed version : Version} {crypto : Crypto} {endpoints asked : List Text}
  {manifest : UpdateManifest Version Date} {artifact : VerifiedArtifact}

/-- The version of the manifest has no part in the download. -/
theorem download_withVersion
    (hdownload : flow.download runtime crypto asked manifest = .ok artifact)
    (other : Version) :
    flow.download runtime crypto asked { manifest with version := other } =
      .ok artifact := by
  obtain ⟨release, body, signature, publicKey, hrelease, hrest⟩ :=
    download_eq_ok_iff.mp hdownload
  have hother := releaseFor_withVersion hrelease other
  exact download_eq_ok_iff.mpr
    ⟨release, body, signature, publicKey, hother, hrest⟩

/-- With sound signatures, the key signed the bytes and the comment. -/
theorem signed_of_download {Signed : Bytes → Bytes → Prop}
    (hsound : ∀ key message signature,
      crypto.verify key message signature = true → Signed key message)
    (hdownload : flow.download runtime crypto asked manifest = .ok artifact) :
    ∃ signature publicKey,
      MinisignPublicKey.parse flow.publicKey = .ok publicKey ∧
        artifact.trustedComment = signature.trustedComment ∧
        Signed publicKey.key
          (signedMessage crypto artifact.bytes signature) ∧
        Signed publicKey.key (boundComment signature) := by
  obtain ⟨release, body, signature, publicKey, -, -, -, -, hkey, hverify,
    rfl⟩ := download_eq_ok_iff.mp hdownload
  obtain ⟨-, hpayload, hcomment⟩ := verify_eq_ok_iff.mp hverify
  exact ⟨signature, publicKey, hkey, rfl, hsound _ _ _ hpayload,
    hsound _ _ _ hcomment⟩

/-- What is delivered carries the manifest's version, which the policy lets
pass, and bytes and a comment that were signed; it would be delivered under
any other version as well. -/
theorem delivers_signed_under_any_version {Signed : Bytes → Bytes → Prop}
    (hsound : ∀ key message signature,
      crypto.verify key message signature = true → Signed key message)
    (hdelivers :
      flow.Delivers runtime installed crypto endpoints version artifact) :
    runtime.sameVersion version installed = false ∧
      (runtime.versionLess version installed = true →
        flow.policy.allowDowngrade = true) ∧
      (∃ signature publicKey,
        MinisignPublicKey.parse flow.publicKey = .ok publicKey ∧
          artifact.trustedComment = signature.trustedComment ∧
          Signed publicKey.key
            (signedMessage crypto artifact.bytes signature) ∧
          Signed publicKey.key (boundComment signature)) ∧
      ∃ asked, ∃ manifest : UpdateManifest Version Date,
        manifest.version = version ∧ ∀ other, flow.download runtime crypto asked
          { manifest with version := other } = .ok artifact := by
  obtain ⟨found, asked, manifest, hcheck, hdecision, hmanifest, hdownload⟩ :=
    hdelivers
  rcases check_eq_ok hcheck with rfl | ⟨read, hread, hdecide⟩
  · simp [noContent] at hmanifest
  · obtain rfl : read = manifest := by simpa [hread] using hmanifest
    rw [hdecision] at hdecide
    obtain ⟨hversion, hother, hallowed⟩ :=
      UpdatePolicy.decide_eq_available hdecide
    exact ⟨hother, hallowed, signed_of_download hsound hdownload, asked, read,
      hversion.symm, download_withVersion hdownload⟩

end UpdateFlow

/-! ## An old release under a new version -/

def oldArtifact : Bytes := utf8Encode (text "the application, 1.0.0")

def oldComment : Text := releaseComment (text "1.0.0") (text "app.tar.gz")

def oldCrypto : Crypto := signedOnce oldArtifact oldComment

/-- The entry of 2.0.0 with the signature of 1.0.0. -/
def relabelledEntry : ManifestEntry :=
  { sampleEntry with
    signature := blankSignature "version:1.0.0\tfile:app.tar.gz" }

def relabelledSource : Text :=
  ((render releaseRuntime (text "2.0.0") [relabelledEntry] none).toOption).getD
    []

def relabelledFlow : UpdateFlow Text Text :=
  UpdateFlow.overAnswers
    [(text "https://a.example.com", ⟨200, utf8Encode relabelledSource⟩),
      (sampleEntry.url, ⟨200, oldArtifact⟩)] blankKey

def relabelledManifest : UpdateManifest Text Unit where
  version := text "2.0.0"
  releases := [(sampleEntry.platformKey,
    { url := sampleEntry.url
      signature := Base64.encode (utf8Encode relabelledEntry.signature) })]
  notes := none
  publishedAt := none

theorem delivers_relabelled :
    relabelledFlow.Delivers releaseRuntime (text "1.5.0") oldCrypto
      [text "https://a.example.com"] (text "2.0.0")
      ⟨oldArtifact, sampleEntry.url, oldComment⟩ := by
  have hparse : parseManifest releaseRuntime relabelledSource
      (some relabelledFlow.platformKey) = .ok relabelledManifest := by
    decide +kernel
  have hplain : wellFormed relabelledSource = true ∧
      relabelledSource.head? ≠ some 0xFEFF := by decide +kernel
  have hread := readManifest_utf8Encode hplain.1 hplain.2 hparse
  have hask : relabelledFlow.ask [] (text "https://a.example.com") =
      .ok ⟨200, utf8Encode relabelledSource⟩ := by
    simp [UpdateFlow.ask, relabelledFlow, UpdateFlow.overAnswers, bind,
      Except.bind]
  have hcheck : relabelledFlow.check releaseRuntime (text "1.5.0")
      [text "https://a.example.com"] =
        (.ok ⟨.available (text "2.0.0"), some relabelledManifest,
          some (text "https://a.example.com")⟩,
          [text "https://a.example.com"]) :=
    UpdateFlow.check_singleton hask hread (by decide)
  have hdownload : relabelledFlow.download releaseRuntime oldCrypto
      [text "https://a.example.com"] relabelledManifest =
        .ok ⟨oldArtifact, sampleEntry.url, oldComment⟩ := by decide +kernel
  exact ⟨_, _, _, hcheck, rfl, rfl, hdownload⟩

def WasSigned (_key message : Bytes) : Prop :=
  message = oldArtifact ∨
    message = List.replicate 64 0 ++ utf8Encode oldComment

theorem wasSigned_of_verify (key message signature : Bytes)
    (hverify : oldCrypto.verify key message signature = true) :
    WasSigned key message := by
  simpa [oldCrypto, signedOnce, WasSigned] using hverify

theorem delivers_signed_under_any_version_sample :
    ∃ signature publicKey,
      MinisignPublicKey.parse blankKey = .ok publicKey ∧
        signature.trustedComment = oldComment ∧
        WasSigned publicKey.key
          (signedMessage oldCrypto oldArtifact signature) := by
  obtain ⟨-, -, ⟨signature, publicKey, hkey, hcomment, hsigned, -⟩, -⟩ :=
    UpdateFlow.delivers_signed_under_any_version wasSigned_of_verify
      delivers_relabelled
  exact ⟨signature, publicKey, hkey, hcomment.symm, hsigned⟩

/-- The release signed as 1.0.0, older than what is installed, is delivered
as 2.0.0. -/
theorem an_old_release_passes_as_new :
    (∃ artifact,
      relabelledFlow.Delivers releaseRuntime (text "1.5.0") oldCrypto
          [text "https://a.example.com"] (text "2.0.0") artifact ∧
        artifact.trustedComment =
          releaseComment (text "1.0.0") (text "app.tar.gz")) ∧
      releaseRuntime.versionLess (text "1.0.0") (text "1.5.0") = true :=
  ⟨⟨_, delivers_relabelled, rfl⟩, by decide⟩

end Dovetail.Updater
