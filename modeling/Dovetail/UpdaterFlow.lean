import Dovetail.OrderedSearch
import Dovetail.UpdaterManifest

/-!
# Checking for an update

`UpdateFlow` with the policy it follows.  `check` asks the endpoints in order
and returns at the first success, readable or not; `download` returns the
bytes of a release that its signature covers.
-/

namespace Dovetail.Updater

open CodeUnits
open FallibleSteps
open OrderedSearch
open TransitionRun

/-! ## Data -/

structure FetchedBody where
  statusCode : Nat
  bytes : Bytes
  deriving DecidableEq

def FetchedBody.isSuccess (body : FetchedBody) : Bool :=
  200 ≤ body.statusCode && body.statusCode < 300

def FetchedBody.isNoContent (body : FetchedBody) : Bool :=
  body.statusCode == 204

/-- What the updater throws, or lets through from the language's runtime and
from the fetcher, with its text. -/
inductive Thrown (Version : Type) where
  | failure (failure : UpdateFailure)
  | downgradeRefused (offered installed : Version)
  | formatException (description : Text)
  | other (description : Text)
  deriving DecidableEq

inductive UpdateAvailability where
  | upToDate
  | available
  deriving DecidableEq

structure UpdateDecision (Version : Type) where
  availability : UpdateAvailability
  reason : Text
  offered : Option Version
  deriving DecidableEq

structure UpdateCheck (Version Date : Type) where
  decision : UpdateDecision Version
  manifest : Option (UpdateManifest Version Date)
  endpoint : Option Text
  deriving DecidableEq

structure VerifiedArtifact where
  bytes : Bytes
  sourceUrl : Text
  trustedComment : Text
  deriving DecidableEq

structure UpdatePolicy where
  allowDowngrade : Bool

/-- The network and `Uri.parse`: an answer may depend on the urls asked
before. -/
structure ArtifactFetcher (Version Url : Type) where
  parseUrl : Text → Except (Thrown Version) Url
  fetch : List Text → Url → Except (Thrown Version) FetchedBody

structure UpdateFlow (Version Url : Type) where
  fetcher : ArtifactFetcher Version Url
  publicKey : Text
  platformKey : Text
  policy : UpdatePolicy

variable {Version Date Url : Type}

def UpdateFailure.toText (failure : UpdateFailure) : Text :=
  match failure.remedy with
  | none => failure.message
  | some remedy => failure.message ++ text "\n  " ++ remedy

def Thrown.toText (runtime : Runtime Version Date) : Thrown Version → Text
  | .failure refusal => refusal.toText
  | .downgradeRefused offered installed =>
      text "the manifest offers " ++ runtime.versionText offered ++
        text " while " ++ runtime.versionText installed ++
        text " is installed." ++ text "\n  " ++
        text "A downgrade is refused here rather than left to a client side comparison, because the signature alone does not prevent one: any older artefact signed with the same key would verify."
  | .formatException description => description
  | .other description => description

/-! ## The policy -/

def UpdateDecision.upToDate (reason : Text) : UpdateDecision Version :=
  ⟨.upToDate, reason, none⟩

def UpdateDecision.available (offered : Version) : UpdateDecision Version :=
  ⟨.available, text "a newer version is offered", some offered⟩

def UpdateDecision.shouldUpdate (decision : UpdateDecision Version) : Bool :=
  decision.availability == .available

def UpdatePolicy.decide (runtime : Runtime Version Date)
    (policy : UpdatePolicy) (installed : Version)
    (manifest : UpdateManifest Version Date) :
    Except (Thrown Version) (UpdateDecision Version) :=
  let offered := manifest.version
  if runtime.sameVersion offered installed then
    .ok (.upToDate (text "the offered version is the installed one"))
  else if runtime.versionLess offered installed then
    if !policy.allowDowngrade then
      .error (.downgradeRefused offered installed)
    else .ok (.available offered)
  else .ok (.available offered)

/-! ## The flow -/

/-- `ManifestParser.parse(utf8.decode(bytes))`. -/
def readManifest (runtime : Runtime Version Date) (bytes : Bytes)
    (platformKey : Option Text) :
    Except (Thrown Version) (UpdateManifest Version Date) :=
  match utf8Decode bytes with
  | none => .error (.formatException (runtime.utf8Error bytes))
  | some body => (parseManifest runtime body platformKey).mapError .failure

theorem readManifest_utf8Encode {runtime : Runtime Version Date}
    {source : Text} {manifest : UpdateManifest Version Date}
    {platformKey : Option Text} (hwell : wellFormed source = true)
    (hmark : source.head? ≠ some 0xFEFF)
    (hparse : parseManifest runtime source platformKey = .ok manifest) :
    readManifest runtime (utf8Encode source) platformKey = .ok manifest := by
  simp only [readManifest, utf8Decode_utf8Encode_eq_self hwell hmark, hparse,
    Except.mapError]

namespace UpdateFlow

variable (runtime : Runtime Version Date) (flow : UpdateFlow Version Url)
  (installed : Version)

def ask (asked : List Text) (url : Text) :
    Except (Thrown Version) FetchedBody := do
  let parsed ← flow.fetcher.parseUrl url
  flow.fetcher.fetch asked parsed

def noContent : UpdateCheck Version Date where
  decision := .upToDate (text "the server answered no content")
  manifest := none
  endpoint := none

/-- One turn of the loop over the endpoints. -/
def visit (asked : List Text) (endpoint : Text) :
    Turn (Thrown Version)
      (Except (Thrown Version) (UpdateCheck Version Date)) :=
  match flow.ask asked endpoint with
  | .error thrown => .next thrown
  | .ok body =>
      if body.isNoContent then .done (.ok noContent)
      else if !body.isSuccess then
        .next (.failure ⟨endpoint ++ text " answered " ++
          text (toString body.statusCode) ++ text ".", none⟩)
      else .done do
        let manifest ←
          readManifest runtime body.bytes (some flow.platformKey)
        let decision ← flow.policy.decide runtime installed manifest
        return { decision, manifest := some manifest,
                 endpoint := some endpoint }

/-- The outcome of a check, with the endpoints that were asked. -/
def check (endpoints : List Text) :
    Except (Thrown Version) (UpdateCheck Version Date) × List Text :=
  if endpoints.isEmpty then
    (.error (.failure ⟨text "no update endpoint was configured.", none⟩), [])
  else
    match search (flow.visit runtime installed) [] none endpoints with
    | (.ok outcome, asked) => (outcome, asked)
    | (.error lastFailure, asked) =>
        (.error (.failure ⟨
          text "every update endpoint failed; the last said: " ++
            (lastFailure.map (Thrown.toText runtime)).getD (text "null"),
          some (text "Endpoints are tried in order and the first success wins.")⟩),
          asked)

/-- The download of a release after some urls have been asked. -/
def download (crypto : Crypto) (asked : List Text)
    (manifest : UpdateManifest Version Date) :
    Except (Thrown Version) VerifiedArtifact := do
  let release ← (releaseFor runtime manifest flow.platformKey).mapError
    .failure
  let body ← flow.ask asked release.url
  if !body.isSuccess then
    .error (.failure ⟨release.url ++ text " answered " ++
      text (toString body.statusCode) ++ text ".", none⟩)
  else
    let signature ← (MinisignSignature.parse release.signature).mapError
      .failure
    let publicKey ← (MinisignPublicKey.parse flow.publicKey).mapError .failure
    let _ ← (verify crypto body.bytes signature publicKey).mapError .failure
    return {
      bytes := body.bytes
      sourceUrl := release.url
      trustedComment := signature.trustedComment }

/-- A check offers the version, and what it found is downloaded. -/
def Delivers (crypto : Crypto) (endpoints : List Text) (version : Version)
    (artifact : VerifiedArtifact) : Prop :=
  ∃ found asked manifest,
    flow.check runtime installed endpoints = (.ok found, asked) ∧
      found.decision = .available version ∧ found.manifest = some manifest ∧
      flow.download runtime crypto asked manifest = .ok artifact

/-! ## What went through -/

section

variable {runtime flow installed} {crypto : Crypto} {asked : List Text}

theorem download_eq_ok_iff {manifest : UpdateManifest Version Date}
    {artifact : VerifiedArtifact} :
    flow.download runtime crypto asked manifest = .ok artifact ↔
      ∃ release body signature publicKey,
        releaseFor runtime manifest flow.platformKey = .ok release ∧
        flow.ask asked release.url = .ok body ∧ body.isSuccess = true ∧
        MinisignSignature.parse release.signature = .ok signature ∧
        MinisignPublicKey.parse flow.publicKey = .ok publicKey ∧
        verify crypto body.bytes signature publicKey = .ok () ∧
        artifact = ⟨body.bytes, release.url, signature.trustedComment⟩ := by
  constructor
  · intro hdownload
    obtain ⟨release, hrelease, hrest⟩ := bind_eq_ok_iff.mp hdownload
    obtain ⟨body, hask, hrest⟩ := bind_eq_ok_iff.mp hrest
    cases hsuccess : body.isSuccess with
    | false => simp [hsuccess] at hrest
    | true =>
        simp only [hsuccess, Bool.not_true, Bool.false_eq_true, if_false]
          at hrest
        obtain ⟨signature, hsignature, hrest⟩ := bind_eq_ok_iff.mp hrest
        obtain ⟨publicKey, hkey, hrest⟩ := bind_eq_ok_iff.mp hrest
        obtain ⟨_, hverify, hrest⟩ := bind_eq_ok_iff.mp hrest
        exact ⟨release, body, signature, publicKey,
          mapError_eq_ok_iff.mp hrelease, hask, hsuccess,
          mapError_eq_ok_iff.mp hsignature, mapError_eq_ok_iff.mp hkey,
          mapError_eq_ok_iff.mp hverify, (Except.ok.inj hrest).symm⟩
  · rintro ⟨release, body, signature, publicKey, hrelease, hask, hsuccess,
      hsignature, hkey, hverify, rfl⟩
    simp [download, hrelease, hask, hsuccess, hsignature, hkey, hverify,
      Except.mapError, bind, Except.bind, pure, Except.pure]

/-- A check with one endpoint, whose answer is read. -/
theorem check_singleton {endpoint : Text} {bytes : Bytes}
    {manifest : UpdateManifest Version Date}
    {decision : UpdateDecision Version}
    (hask : flow.ask [] endpoint = .ok ⟨200, bytes⟩)
    (hread : readManifest runtime bytes (some flow.platformKey) =
      .ok manifest)
    (hdecide : flow.policy.decide runtime installed manifest =
      .ok decision) :
    flow.check runtime installed [endpoint] =
      (.ok ⟨decision, some manifest, some endpoint⟩, [endpoint]) := by
  have hvisit : flow.visit runtime installed [] endpoint =
      .done (.ok ⟨decision, some manifest, some endpoint⟩) := by
    simp [visit, hask, FetchedBody.isNoContent, FetchedBody.isSuccess, hread,
      hdecide, bind, Except.bind, pure, Except.pure]
  simp [check, search, hvisit]

/-- What a check found is nothing new, or a manifest and the decision about
it. -/
theorem check_eq_ok {endpoints : List Text}
    {found : UpdateCheck Version Date}
    (hcheck : flow.check runtime installed endpoints = (.ok found, asked)) :
    found = noContent ∨
      ∃ manifest, found.manifest = some manifest ∧
        flow.policy.decide runtime installed manifest = .ok found.decision := by
  unfold check at hcheck
  split_ifs at hcheck
  · simp at hcheck
  · rcases hsearch : search (flow.visit runtime installed) [] none endpoints
      with ⟨last | outcome, tried⟩
    · simp [hsearch] at hcheck
    · simp only [hsearch, Prod.mk.injEq] at hcheck
      obtain ⟨before, endpoint, -, hturn⟩ := exists_turn_of_search hsearch
      rw [hcheck.1] at hturn
      unfold visit at hturn
      split at hturn
      · simp at hturn
      · split_ifs at hturn
        · exact Or.inl (Except.ok.inj (Turn.done.inj hturn)).symm
        · obtain ⟨manifest, -, hrest⟩ :=
            bind_eq_ok_iff.mp (Turn.done.inj hturn)
          obtain ⟨decision, hdecide, hfound⟩ := bind_eq_ok_iff.mp hrest
          rw [← Except.ok.inj hfound]
          exact Or.inr ⟨manifest, rfl, hdecide⟩

end

end UpdateFlow

/-- What the policy offers is not the installed version, and an older one
only when downgrades are allowed. -/
theorem UpdatePolicy.decide_eq_available
    {runtime : Runtime Version Date} {policy : UpdatePolicy}
    {installed version : Version} {manifest : UpdateManifest Version Date}
    (hdecide : policy.decide runtime installed manifest =
      .ok (.available version)) :
    version = manifest.version ∧
      runtime.sameVersion version installed = false ∧
      (runtime.versionLess version installed = true →
        policy.allowDowngrade = true) := by
  unfold decide at hdecide
  by_cases hsame : runtime.sameVersion manifest.version installed = true
  · simp [hsame, UpdateDecision.upToDate, UpdateDecision.available] at hdecide
  · have hallowed :
        runtime.versionLess manifest.version installed = true →
          policy.allowDowngrade = true := by
      intro hless
      cases hallow : policy.allowDowngrade with
      | true => rfl
      | false => simp [hsame, hless, hallow] at hdecide
    have hoffered : manifest.version = version := by
      by_cases hless :
          runtime.versionLess manifest.version installed = true
      · simpa [hsame, hless, hallowed hless, UpdateDecision.available]
          using hdecide
      · simpa [hsame, hless, UpdateDecision.available] using hdecide
    subst hoffered
    exact ⟨rfl, by simpa using hsame, hallowed⟩

end Dovetail.Updater
