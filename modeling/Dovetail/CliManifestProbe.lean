import Dovetail.UpdaterReplay

/-!
# Probing an endpoint

`ManifestProbe` asks, before a release is published, whether an endpoint
serves what the client reads.  What it passes is delivered by the updater
when the artifact is answered with a success and the signature field is
wrapped once; the probe looks at neither.
-/

namespace Dovetail.Cli

open CodeUnits
open FallibleSteps
open Updater

/-! ## The probe -/

structure ProbeFinding where
  what : Text
  passed : Bool
  detail : Text
  target : Option Text
  deriving DecidableEq

/-- `Uri` and what each of them is answered with. -/
structure Web (Version Url : Type) where
  parseUrl : Text → Except (Thrown Version) Url
  scheme : Url → Text
  host : Url → Text
  urlText : Url → Text
  fetch : Url → Except (Thrown Version) FetchedBody

variable {Version Date Url : Type}

/-- The key a run verifies against, and what it finds of it. -/
def trustedKey (runtime : Runtime Version Date) (publicKey : Option Text) :
    Option MinisignPublicKey × ProbeFinding :=
  match publicKey with
  | none =>
      (none, {
        what := text "the signing key is checked"
        passed := true
        detail := text "no --public-key given, so signatures are checked for shape only. A manifest signed by the wrong key would pass this run."
        target := none })
  | some encoded =>
      match MinisignPublicKey.parse encoded with
      | .ok parsed =>
          (some parsed, {
            what := text "the signing key is checked"
            passed := true
            detail := text "against key id " ++ keyIdHex parsed.keyId
            target := none })
      | .error failure =>
          (none, {
            what := text "the signing key is checked"
            passed := false
            detail := text "the public key given does not parse: " ++
              (Thrown.failure failure).toText runtime
            target := none })

def signatureOf (runtime : Runtime Version Date) (target : Text)
    (release : PlatformRelease) :
    Option MinisignSignature × ProbeFinding :=
  match (Base64.decode release.signature).bind utf8Decode with
  | none =>
      (none, {
        what := text "the signature field decodes"
        passed := false
        detail := text "it is not base64. The field carries base64 over the minisign text, never the text itself — a client decodes before it parses, and finds out on a machine nobody here can see."
        target := some target })
  | some source =>
      match MinisignSignature.parse source with
      | .ok parsed =>
          (some parsed, {
            what := text "the signature field decodes"
            passed := true
            detail := text "key " ++ keyIdHex parsed.keyId ++
              text ", trusted comment \"" ++ parsed.trustedComment ++
              text "\""
            target := some target })
      | .error failure =>
          (none, {
            what := text "the signature field decodes"
            passed := false
            detail :=
              text "it decoded, and what came out is not minisign: " ++
                (Thrown.failure failure).toText runtime
            target := some target })

section

variable (runtime : Runtime Version Date) (crypto : Crypto)
  (web : Web Version Url)

def verifyArtifact (target : Text) (artifact : Url)
    (signature : MinisignSignature) (trusted : Option MinisignPublicKey) :
    List ProbeFinding :=
  match trusted with
  | none =>
      [{  what := text "the artefact verifies"
          passed := false
          detail := text "--download needs --public-key: verifying against the key that signed it proves only that the two came from the same place."
          target := some target }]
  | some publicKey =>
      match web.fetch artifact with
      | .error thrown =>
          [{  what := text "the artefact downloads"
              passed := false
              detail := thrown.toText runtime
              target := some target }]
      | .ok body =>
          [{  what := text "the artefact downloads"
              passed := true
              detail := text (toString body.bytes.length) ++ text " bytes"
              target := some target },
            match verify crypto body.bytes signature publicKey with
            | .ok () =>
                { what := text "the artefact verifies"
                  passed := true
                  detail := text "the bytes served are the bytes signed"
                  target := some target }
            | .error failure =>
                { what := text "the artefact verifies"
                  passed := false
                  detail :=
                    text "the signature does not cover what the url serves: " ++
                      (Thrown.failure failure).toText runtime ++
                      text ". Every install would refuse it."
                  target := some target }]

/-- Whether the key is the trusted one, when there is a trusted one. -/
def keyFindings (target : Text) (signature : MinisignSignature)
    (trusted : Option MinisignPublicKey) : List ProbeFinding :=
  match trusted with
  | none => []
  | some publicKey =>
      let signed := keyIdHex signature.keyId
      let trusts := keyIdHex publicKey.keyId
      [{  what := text "the signature is by the key this client trusts"
          passed := signed == trusts
          detail :=
            if signed = trusts then signed
            else text "signed by " ++ signed ++
              text ", and the client trusts " ++ trusts ++
              text ". Every install would refuse this release."
          target := some target }]

def policyFindings (target : Text) (manifest : UpdateManifest Version Date)
    (installed : Option Version) :
    Except (Thrown Version) (List ProbeFinding) :=
  match installed with
  | none => .ok []
  | some version => do
      let decision ←
        (UpdatePolicy.mk false).decide runtime version manifest
      return [{
        what := text "the policy would offer this to " ++
          runtime.versionText version
        passed := decision.shouldUpdate
        detail :=
          if decision.shouldUpdate then
            runtime.versionText manifest.version ++ text " is newer"
          else text "it would not: " ++
            match decision.availability with
            | .upToDate => text "upToDate"
            | .available => text "available"
        target := some target }]

def httpsFinding (target : Text) (artifact : Url) : ProbeFinding where
  what := text "the download url is https"
  passed := web.scheme artifact == text "https"
  detail :=
    if web.scheme artifact = text "https" then web.host artifact
    else text "it is " ++ web.scheme artifact
  target := some target

def checkTarget (manifest : UpdateManifest Version Date)
    (trusted : Option MinisignPublicKey) (installed : Option Version)
    (download : Bool) (target : Text) :
    Except (Thrown Version) (List ProbeFinding) :=
  match releaseFor runtime manifest target with
  | .error failure =>
      .ok [{
        what := text "the manifest offers this platform"
        passed := false
        detail := (Thrown.failure failure).toText runtime
        target := some target }]
  | .ok release => do
      let artifact ← web.parseUrl release.url
      let offered : List ProbeFinding :=
        [{  what := text "the manifest offers this platform"
            passed := true
            detail := release.url
            target := some target },
          httpsFinding web target artifact,
          (signatureOf runtime target release).2]
      match (signatureOf runtime target release).1 with
      | none => return offered
      | some signature =>
          let keys := keyFindings target signature trusted
          if keys.any fun finding => !finding.passed then
            return offered ++ keys
          else
            let policy ← policyFindings runtime target manifest installed
            return offered ++ keys ++ policy ++
              if download then
                verifyArtifact runtime crypto web target artifact signature
                  trusted
              else []

def answersFinding (body : FetchedBody) : ProbeFinding where
  what := text "the endpoint answers"
  passed := body.statusCode == 200
  detail :=
    if body.statusCode = 200 then
      text "200, " ++ text (toString body.bytes.length) ++ text " bytes"
    else text "HTTP " ++ text (toString body.statusCode) ++
      text ". A client reads 204 as \"nothing new\" and anything else as broken."
  target := none

def parsesFinding (manifest : UpdateManifest Version Date) : ProbeFinding where
  what := text "the body parses as a manifest"
  passed := true
  detail := text "version " ++ runtime.versionText manifest.version ++
    text ", " ++ text (toString manifest.releases.length) ++
    text " platform(s): " ++ join (text ", ") (manifest.releases.map Prod.fst)
  target := none

def run (url : Url) (targets : List Text) (publicKey : Option Text)
    (installed : Option Version) (download : Bool) :
    Except (Thrown Version) (List ProbeFinding) :=
  if web.scheme url ≠ text "https" then
    .ok [{
      what := text "the endpoint is https"
      passed := false
      detail := web.urlText url ++ text " is " ++ web.scheme url ++
        text ". The manifest carries no signature of its own, so its integrity rests entirely on the transport."
      target := none }]
  else
    match web.fetch url with
    | .error thrown =>
        .ok [{
          what := text "the endpoint answers"
          passed := false
          detail := thrown.toText runtime
          target := none }]
    | .ok body =>
        if body.statusCode ≠ 200 then .ok [answersFinding body]
        else
          match readManifest runtime body.bytes none with
          | .error thrown =>
              .ok [answersFinding body, {
                what := text "the body parses as a manifest"
                passed := false
                detail := thrown.toText runtime
                target := none }]
          | .ok manifest => do
              let checked ← targets.mapM
                (checkTarget runtime crypto web manifest
                  (trustedKey runtime publicKey).1 installed download)
              return [answersFinding body, parsesFinding runtime manifest,
                (trustedKey runtime publicKey).2] ++ checked.flatten

end

theorem run_eq_of_read {runtime : Runtime Version Date} {crypto : Crypto}
    {web : Web Version Url} {url : Url} {bytes : Bytes}
    {manifest : UpdateManifest Version Date} {targets : List Text}
    {publicKey : Option Text} {installed : Option Version} {download : Bool}
    {checked : List (List ProbeFinding)}
    (hscheme : web.scheme url = text "https")
    (hfetch : web.fetch url = .ok ⟨200, bytes⟩)
    (hread : readManifest runtime bytes none = .ok manifest)
    (hchecked : targets.mapM (checkTarget runtime crypto web manifest
      (trustedKey runtime publicKey).1 installed download) = .ok checked) :
    run runtime crypto web url targets publicKey installed download =
      .ok ([answersFinding ⟨200, bytes⟩, parsesFinding runtime manifest,
        (trustedKey runtime publicKey).2] ++ checked.flatten) := by
  simp [run, hscheme, hfetch, hread, hchecked, bind, Except.bind, pure,
    Except.pure]

/-! ## What a passing report says -/

/-- The report has nothing against the endpoint or the target. -/
def Passes (findings : List ProbeFinding) (target : Text) : Prop :=
  ∀ finding ∈ findings, finding.target = none ∨ finding.target = some target →
    finding.passed = true

section

variable {target : Text} {findings others : List ProbeFinding}

theorem passes_append :
    Passes (findings ++ others) target ↔
      Passes findings target ∧ Passes others target :=
  List.forall_mem_append

theorem passes_cons {finding : ProbeFinding} :
    Passes (finding :: others) target ↔
      (finding.target = none ∨ finding.target = some target →
        finding.passed = true) ∧ Passes others target :=
  List.forall_mem_cons

variable {runtime : Runtime Version Date} {crypto : Crypto}
  {web : Web Version Url} {manifest : UpdateManifest Version Date}
  {installed : Option Version} {publicKey : MinisignPublicKey}

theorem exists_of_signatureOf {release : PlatformRelease}
    (hpass : Passes [(signatureOf runtime target release).2] target) :
    ∃ source signature,
      (Base64.decode release.signature).bind utf8Decode = some source ∧
        MinisignSignature.parse source = .ok signature ∧
        (signatureOf runtime target release).1 = some signature := by
  unfold signatureOf at hpass ⊢
  cases hdecode : (Base64.decode release.signature).bind utf8Decode with
  | none => simp [hdecode, Passes] at hpass
  | some source =>
      cases hparse : MinisignSignature.parse source with
      | error failure => simp [hdecode, hparse, Passes] at hpass
      | ok signature => exact ⟨source, signature, rfl, hparse, by simp [hparse]⟩

theorem exists_of_verifyArtifact {artifact : Url}
    {signature : MinisignSignature}
    (hpass : Passes (verifyArtifact runtime crypto web target artifact
      signature (some publicKey)) target) :
    ∃ body, web.fetch artifact = .ok body ∧
      verify crypto body.bytes signature publicKey = .ok () := by
  unfold verifyArtifact at hpass
  cases hfetch : web.fetch artifact with
  | error thrown => simp [hfetch, Passes] at hpass
  | ok body =>
      cases hverify : verify crypto body.bytes signature publicKey with
      | error failure => simp [hfetch, hverify, Passes] at hpass
      | ok _ => exact ⟨body, rfl, hverify⟩

theorem passed_of_keyFindings {signature : MinisignSignature}
    {trusted : Option MinisignPublicKey}
    (hpass : Passes (keyFindings target signature trusted) target) :
    ((keyFindings target signature trusted).any fun finding =>
      !finding.passed) = false := by
  cases trusted with
  | none => rfl
  | some publicKey => simpa [keyFindings, Passes] using hpass

/-- A target that passes has a release that the trusted key signed. -/
theorem exists_of_checkTarget
    (hcheck : checkTarget runtime crypto web manifest (some publicKey)
      installed true target = .ok findings)
    (hpass : Passes findings target) :
    ∃ release artifact source signature body,
      releaseFor runtime manifest target = .ok release ∧
        web.parseUrl release.url = .ok artifact ∧
        (Base64.decode release.signature).bind utf8Decode = some source ∧
        MinisignSignature.parse source = .ok signature ∧
        web.fetch artifact = .ok body ∧
        verify crypto body.bytes signature publicKey = .ok () := by
  unfold checkTarget at hcheck
  cases hrelease : releaseFor runtime manifest target with
  | error failure =>
      simp only [hrelease, Except.ok.injEq] at hcheck
      subst hcheck
      simp [Passes] at hpass
  | ok release =>
      simp only [hrelease] at hcheck
      obtain ⟨artifact, hartifact, hrest⟩ := bind_eq_ok_iff.mp hcheck
      cases hfirst : (signatureOf runtime target release).1 with
      | none =>
          simp only [hfirst] at hrest
          rw [← Except.ok.inj hrest, passes_cons, passes_cons] at hpass
          obtain ⟨_, _, _, _, hsome⟩ := exists_of_signatureOf hpass.2.2
          simp [hfirst] at hsome
      | some signature =>
          simp only [hfirst] at hrest
          split_ifs at hrest with hforeign
          · rw [← Except.ok.inj hrest, passes_append] at hpass
            simp [passed_of_keyFindings hpass.2] at hforeign
          · obtain ⟨policy, -, hfindings⟩ := bind_eq_ok_iff.mp hrest
            rw [← Except.ok.inj hfindings, passes_append, passes_append,
              passes_append, passes_cons, passes_cons] at hpass
            obtain ⟨⟨⟨⟨-, -, hdecodes⟩, -⟩, -⟩, hverifies⟩ := hpass
            obtain ⟨source, parsed, hsource, hparse, hsome⟩ :=
              exists_of_signatureOf hdecodes
            obtain rfl : parsed = signature := by simpa [hfirst] using hsome.symm
            obtain ⟨body, hfetch, hverify⟩ :=
              exists_of_verifyArtifact hverifies
            exact ⟨release, artifact, source, parsed, body, rfl, hartifact,
              hsource, hparse, hfetch, hverify⟩

/-- A report that passes comes of a manifest and a key that were read. -/
theorem exists_of_run {url : Url} {targets : List Text} {encoded : Text}
    (hrun : run runtime crypto web url targets (some encoded) installed true =
      .ok findings)
    (htarget : target ∈ targets) (hpass : Passes findings target) :
    ∃ bytes manifest trusted checked,
      web.fetch url = .ok ⟨200, bytes⟩ ∧
        readManifest runtime bytes none = .ok manifest ∧
        MinisignPublicKey.parse encoded = .ok trusted ∧
        checkTarget runtime crypto web manifest (some trusted) installed true
          target = .ok checked ∧
        Passes checked target := by
  unfold run at hrun
  split_ifs at hrun with hscheme
  · rw [← Except.ok.inj hrun] at hpass
    simp [Passes] at hpass
  · cases hfetch : web.fetch url with
    | error thrown =>
        simp only [hfetch, Except.ok.injEq] at hrun
        rw [← hrun] at hpass
        simp [Passes] at hpass
    | ok body =>
        obtain ⟨status, bytes⟩ := body
        simp only [hfetch] at hrun
        split_ifs at hrun with hstatus
        · rw [← Except.ok.inj hrun] at hpass
          simp [Passes, answersFinding, hstatus] at hpass
        · obtain rfl : status = 200 := not_not.mp hstatus
          cases hread : readManifest runtime bytes none with
          | error thrown =>
              simp only [hread, Except.ok.injEq] at hrun
              rw [← hrun] at hpass
              simp [Passes] at hpass
          | ok manifest =>
              simp only [hread] at hrun
              obtain ⟨checked, hchecked, hfindings⟩ := bind_eq_ok_iff.mp hrun
              rw [← Except.ok.inj hfindings, passes_append, passes_cons,
                passes_cons] at hpass
              obtain ⟨⟨-, -, hkey⟩, hall⟩ := hpass
              cases hparse : MinisignPublicKey.parse encoded with
              | error failure => simp [trustedKey, hparse, Passes] at hkey
              | ok trusted =>
                  have htrusted : (trustedKey runtime (some encoded)).1 =
                      some trusted := by simp [trustedKey, hparse]
                  rw [htrusted] at hchecked
                  obtain ⟨part, hpart, htargeted⟩ :=
                    exists_of_mem_of_mapM_eq_ok hchecked htarget
                  have hpartPass : Passes part target := by
                    intro finding hfinding
                    exact hall finding
                      (List.mem_flatten.mpr ⟨part, hpart, hfinding⟩)
                  exact ⟨bytes, manifest, trusted, part, rfl, hread, rfl,
                    htargeted, hpartPass⟩

end

/-! ## What the updater delivers -/

/-- The updater over the same answers. -/
def Web.flow (web : Web Version Url) (publicKey platformKey : Text)
    (policy : UpdatePolicy) : UpdateFlow Version Url where
  fetcher := { parseUrl := web.parseUrl, fetch := fun _ => web.fetch }
  publicKey := publicKey
  platformKey := platformKey
  policy := policy

/-- The artifact is answered with a success, and what the signature field
wraps is minisign text. -/
def Downloads (web : Web Version Url) (release : PlatformRelease) : Prop :=
  (∃ artifact body, web.parseUrl release.url = .ok artifact ∧
    web.fetch artifact = .ok body ∧ body.isSuccess = true) ∧
  ∃ source, (Base64.decode release.signature).bind utf8Decode = some source ∧
    untrustedPrefix <+: trimLeft source

section

variable {runtime : Runtime Version Date} {crypto : Crypto}
  {web : Web Version Url} {policy : UpdatePolicy} {installed : Version}
  {manifest : UpdateManifest Version Date} {release : PlatformRelease}

/-- The signature of a passing target is read alike by the updater, if what
its field wraps is minisign text. -/
theorem parse_signature {source : Text}
    (hsource : (Base64.decode release.signature).bind utf8Decode =
      some source)
    (hraw : untrustedPrefix <+: trimLeft source) :
    MinisignSignature.parse release.signature =
      MinisignSignature.parse source := by
  obtain ⟨raw, hdecode, hutf8⟩ := Option.bind_eq_some_iff.mp hsource
  rw [parse_of_decode hdecode hutf8 hraw, parse_of_isPrefix hraw]

theorem isPrefix_of_parse {source : Text} {signature : MinisignSignature}
    (hsource : (Base64.decode release.signature).bind utf8Decode =
      some source)
    (hparse : MinisignSignature.parse release.signature = .ok signature) :
    untrustedPrefix <+: trimLeft source := by
  obtain ⟨raw, hdecode, hutf8⟩ := Option.bind_eq_some_iff.mp hsource
  obtain ⟨_, hunwrap, -⟩ := bind_eq_ok_iff.mp hparse
  by_contra hraw
  rw [unwrap_of_decode hdecode] at hunwrap
  simp [hutf8, hraw, fail] at hunwrap

/-- The updater downloads what the probe verified, under these conditions. -/
theorem exists_download_iff {target encoded source : Text}
    {asked : List Text} {artifact : Url} {body : FetchedBody}
    {signature : MinisignSignature} {publicKey : MinisignPublicKey}
    (hrelease : releaseFor runtime manifest target = .ok release)
    (hartifact : web.parseUrl release.url = .ok artifact)
    (hsource : (Base64.decode release.signature).bind utf8Decode =
      some source)
    (hsignature : MinisignSignature.parse source = .ok signature)
    (hfetch : web.fetch artifact = .ok body)
    (hkey : MinisignPublicKey.parse encoded = .ok publicKey)
    (hverify : verify crypto body.bytes signature publicKey = .ok ()) :
    (∃ verified, (web.flow encoded target policy).download runtime crypto
        asked manifest = .ok verified) ↔ Downloads web release := by
  have hask : (web.flow encoded target policy).ask asked release.url =
      .ok body := by
    simp [UpdateFlow.ask, Web.flow, hartifact, hfetch, bind, Except.bind]
  constructor
  · rintro ⟨verified, hdownload⟩
    obtain ⟨found, answer, parsed, key, hfound, hanswer, hsuccess, hparse,
      -⟩ := UpdateFlow.download_eq_ok_iff.mp hdownload
    obtain rfl : release = found := Except.ok.inj (hrelease.symm.trans hfound)
    obtain rfl : body = answer := Except.ok.inj (hask.symm.trans hanswer)
    exact ⟨⟨artifact, body, hartifact, hfetch, hsuccess⟩, source, hsource,
      isPrefix_of_parse hsource hparse⟩
  · rintro ⟨⟨url, answer, hurl, hanswer, hsuccess⟩, other, hother, hraw⟩
    obtain rfl : artifact = url := Except.ok.inj (hartifact.symm.trans hurl)
    obtain rfl : body = answer := Except.ok.inj (hfetch.symm.trans hanswer)
    obtain rfl : source = other := by simpa [hsource] using hother
    have hparse := (parse_signature hsource hraw).trans hsignature
    exact ⟨_, UpdateFlow.download_eq_ok_iff.mpr ⟨release, body, signature,
      publicKey, hrelease, hask, hsuccess, hparse, hkey, hverify, rfl⟩⟩

theorem readManifest_eq_of_ok {bytes : Bytes}
    (hread : readManifest runtime bytes none = .ok manifest)
    (platformKey : Option Text) :
    readManifest runtime bytes platformKey = .ok manifest := by
  unfold readManifest at hread ⊢
  cases hsource : utf8Decode bytes with
  | none => simp [hsource] at hread
  | some source =>
      simp only [hsource] at hread
      have hparse := mapError_eq_ok_iff.mp hread
      exact mapError_eq_ok_iff.mpr (parseManifest_eq_of_ok hparse _)

/-- A check of the probed endpoint offers a newer manifest's version. -/
theorem check_eq_available {url : Url} {endpoint encoded target : Text}
    {bytes : Bytes} (hendpoint : web.parseUrl endpoint = .ok url)
    (hfetch : web.fetch url = .ok ⟨200, bytes⟩)
    (hread : readManifest runtime bytes none = .ok manifest)
    (hother : runtime.sameVersion manifest.version installed = false)
    (hnewer : runtime.versionLess manifest.version installed = false) :
    (web.flow encoded target policy).check runtime installed [endpoint] =
      (.ok ⟨.available manifest.version, some manifest, some endpoint⟩,
        [endpoint]) := by
  have hask : (web.flow encoded target policy).ask [] endpoint =
      .ok ⟨200, bytes⟩ := by
    simp [UpdateFlow.ask, Web.flow, hendpoint, hfetch, bind, Except.bind]
  have hkeyed : readManifest runtime bytes
      (some (web.flow encoded target policy).platformKey) = .ok manifest :=
    readManifest_eq_of_ok hread _
  have hdecide : (web.flow encoded target policy).policy.decide runtime
      installed manifest = .ok (.available manifest.version) := by
    simp [UpdatePolicy.decide, hother, hnewer]
  exact UpdateFlow.check_singleton hask hkeyed hdecide

/-- A newer manifest whose target passes is delivered exactly when the
artifact is answered with a success and the signature is wrapped once. -/
theorem delivers_iff_of_passes {probed : Option Version} {url : Url}
    {endpoint encoded target : Text} {targets : List Text}
    {findings : List ProbeFinding}
    (hendpoint : web.parseUrl endpoint = .ok url)
    (hrun : run runtime crypto web url targets (some encoded) probed true =
      .ok findings)
    (htarget : target ∈ targets) (hpass : Passes findings target) :
    ∃ bytes, ∃ manifest : UpdateManifest Version Date, ∃ release,
      web.fetch url = .ok ⟨200, bytes⟩ ∧
        readManifest runtime bytes none = .ok manifest ∧
        releaseFor runtime manifest target = .ok release ∧
        (∀ asked, (∃ artifact, (web.flow encoded target policy).download
          runtime crypto asked manifest = .ok artifact) ↔
            Downloads web release) ∧
        (runtime.sameVersion manifest.version installed = false →
          runtime.versionLess manifest.version installed = false →
            ((∃ artifact, (web.flow encoded target policy).Delivers runtime
                installed crypto [endpoint] manifest.version artifact) ↔
              Downloads web release)) := by
  obtain ⟨bytes, manifest, trusted, checked, hfetch, hread, hkey, hchecked,
    hpasses⟩ := exists_of_run hrun htarget hpass
  obtain ⟨release, artifact, source, signature, answer, hrelease, hartifact,
    hsource, hsignature, hanswer, hverify⟩ :=
    exists_of_checkTarget hchecked hpasses
  have hdownloads : ∀ asked, (∃ artifact, (web.flow encoded target
      policy).download runtime crypto asked manifest = .ok artifact) ↔
        Downloads web release := fun asked =>
    exists_download_iff hrelease hartifact hsource hsignature hanswer hkey
      hverify
  refine ⟨bytes, manifest, release, hfetch, hread, hrelease, hdownloads, ?_⟩
  intro hother hnewer
  have hcheck : (web.flow encoded target policy).check runtime installed
      [endpoint] = (.ok ⟨.available manifest.version, some manifest,
        some endpoint⟩, [endpoint]) :=
    check_eq_available hendpoint hfetch hread hother hnewer
  rw [← hdownloads [endpoint]]
  constructor
  · rintro ⟨verified, found, asked, offered, hfound, -, hmanifest, hdownload⟩
    obtain ⟨hsame, rfl⟩ := Prod.mk.inj (hcheck.symm.trans hfound)
    obtain rfl := Except.ok.inj hsame
    obtain rfl : manifest = offered := by simpa using hmanifest
    exact ⟨verified, hdownload⟩
  · rintro ⟨verified, hdownload⟩
    exact ⟨verified, _, _, _, hcheck, rfl, rfl, hdownload⟩

end

/-! ## An artifact answered with an error -/

def newArtifact : Bytes := utf8Encode (text "the application, 2.0.0")

def newCrypto : Crypto :=
  signedOnce newArtifact (releaseComment (text "2.0.0") (text "app.tar.gz"))

def newSource : Text :=
  ((render releaseRuntime (text "2.0.0") [sampleEntry] none).toOption).getD []

def newManifest : UpdateManifest Text Unit where
  version := text "2.0.0"
  releases := [(sampleEntry.platformKey,
    { url := sampleEntry.url
      signature := Base64.encode (utf8Encode sampleEntry.signature) })]
  notes := none
  publishedAt := none

/-- The artifact comes with a status of 404 and the bytes that were signed. -/
def errorWeb : Web Text Text where
  parseUrl := .ok
  scheme url := url.takeWhile (· != 58)
  host url := (url.drop 8).takeWhile (· != 47)
  urlText url := url
  fetch url :=
    if url = sampleEntry.url then .ok ⟨404, newArtifact⟩
    else .ok ⟨200, utf8Encode newSource⟩

theorem readManifest_newSource :
    readManifest releaseRuntime (utf8Encode newSource) none =
      .ok newManifest := by
  have hparse : parseManifest releaseRuntime newSource none =
      .ok newManifest := by decide +kernel
  have hplain : wellFormed newSource = true ∧
      newSource.head? ≠ some 0xFEFF := by decide +kernel
  exact readManifest_utf8Encode hplain.1 hplain.2 hparse

theorem fetch_errorWeb :
    errorWeb.fetch (text "https://a.example.com") =
      .ok ⟨200, utf8Encode newSource⟩ := by
  have hother : text "https://a.example.com" ≠ sampleEntry.url := by
    decide
  simp [errorWeb, hother]

theorem run_errorWeb :
    ∃ findings, run releaseRuntime newCrypto errorWeb
        (text "https://a.example.com") [sampleEntry.platformKey]
        (some blankKey) (some (text "1.5.0")) true = .ok findings ∧
      Passes findings sampleEntry.platformKey := by
  have hpassed : ([sampleEntry.platformKey].mapM (checkTarget releaseRuntime
      newCrypto errorWeb newManifest (trustedKey releaseRuntime
        (some blankKey)).1 (some (text "1.5.0")) true)).map
          (fun checked => checked.flatten.all (·.passed)) = .ok true := by
    decide +kernel
  cases hchecked : [sampleEntry.platformKey].mapM (checkTarget releaseRuntime
      newCrypto errorWeb newManifest (trustedKey releaseRuntime
        (some blankKey)).1 (some (text "1.5.0")) true) with
  | error thrown => simp [hchecked, Except.map] at hpassed
  | ok checked =>
      have hall : checked.flatten.all (·.passed) = true := by
        simpa [hchecked, Except.map] using hpassed
      have hkey : (trustedKey releaseRuntime (some blankKey)).2.passed =
          true := by decide
      refine ⟨_, run_eq_of_read (by decide) fetch_errorWeb
        readManifest_newSource hchecked, ?_⟩
      rw [passes_append, passes_cons, passes_cons, passes_cons]
      refine ⟨⟨fun _ => rfl, fun _ => rfl, fun _ => hkey, ?_⟩, ?_⟩
      · simp [Passes]
      · intro finding hfinding _
        exact List.all_eq_true.mp hall finding hfinding

theorem delivers_iff_of_passes_sample :
    ∃ bytes, ∃ manifest : UpdateManifest Text Unit, ∃ release,
      errorWeb.fetch (text "https://a.example.com") = .ok ⟨200, bytes⟩ ∧
        readManifest releaseRuntime bytes none = .ok manifest ∧
        releaseFor releaseRuntime manifest sampleEntry.platformKey =
          .ok release ∧
        (∀ asked, (∃ artifact, (errorWeb.flow blankKey
          sampleEntry.platformKey ⟨false⟩).download releaseRuntime newCrypto
            asked manifest = .ok artifact) ↔ Downloads errorWeb release) ∧
        (releaseRuntime.sameVersion manifest.version (text "1.5.0") = false →
          releaseRuntime.versionLess manifest.version (text "1.5.0") =
            false →
          ((∃ artifact, (errorWeb.flow blankKey sampleEntry.platformKey
            ⟨false⟩).Delivers releaseRuntime (text "1.5.0") newCrypto
              [text "https://a.example.com"] manifest.version artifact) ↔
                Downloads errorWeb release)) := by
  obtain ⟨findings, hrun, hpass⟩ := run_errorWeb
  exact delivers_iff_of_passes rfl hrun (List.mem_singleton_self _) hpass

/-- The probe passes what no client can install. -/
theorem passes_an_artifact_that_is_not_delivered :
    (∃ findings, run releaseRuntime newCrypto errorWeb
        (text "https://a.example.com") [sampleEntry.platformKey]
        (some blankKey) (some (text "1.5.0")) true = .ok findings ∧
      Passes findings sampleEntry.platformKey) ∧
      ¬ ∃ version artifact, (errorWeb.flow blankKey sampleEntry.platformKey
        ⟨false⟩).Delivers releaseRuntime (text "1.5.0") newCrypto
          [text "https://a.example.com"] version artifact := by
  refine ⟨run_errorWeb, ?_⟩
  rintro ⟨version, artifact, found, asked, manifest, hcheck, -, hmanifest,
    hdownload⟩
  have hoffered : (errorWeb.flow blankKey sampleEntry.platformKey
      ⟨false⟩).check releaseRuntime (text "1.5.0")
        [text "https://a.example.com"] =
          (.ok ⟨.available newManifest.version, some newManifest,
            some (text "https://a.example.com")⟩,
            [text "https://a.example.com"]) :=
    check_eq_available rfl fetch_errorWeb readManifest_newSource
      (by decide) (by decide)
  have hrefused : ((errorWeb.flow blankKey sampleEntry.platformKey
      ⟨false⟩).download releaseRuntime newCrypto
        [text "https://a.example.com"] newManifest).isOk = false := by
    decide
  obtain ⟨hsame, rfl⟩ := Prod.mk.inj (hoffered.symm.trans hcheck)
  obtain rfl := Except.ok.inj hsame
  obtain rfl : newManifest = manifest := by simpa using hmanifest
  simp [hdownload, Except.isOk, Except.toBool] at hrefused

end Dovetail.Cli
