import Dovetail.CliManifestProbe

/-!
# What a probe reports

A probe comes across problems of the endpoint and, in what it offers, of each
target.  It stops at a problem that hides the ones behind it.  Whatever it
comes across is a failed check of the report, as long as nothing is thrown
past it: the url of an artefact may not be one, and the policy throws where
the manifest offers a downgrade.
-/

namespace Dovetail.Cli

open CodeUnits
open FallibleSteps
open Updater

variable {Version Date Url : Type}

/-! ## Problems -/

inductive Problem (Version : Type) where
  | plainEndpoint
  | unanswered
  | unreadable
  | unreadableKey
  | absent (target : Text)
  | plainUrl (target : Text)
  | unreadableSignature (target : Text)
  | foreignKey (target : Text)
  | notOffered (target : Text) (installed : Version)
  | undownloaded (target : Text)
  | unverified (target : Text)

section

variable (runtime : Runtime Version Date)

/-- The check a problem is found by. -/
def Problem.check : Problem Version → Text
  | .plainEndpoint => text "the endpoint is https"
  | .unanswered => text "the endpoint answers"
  | .unreadable => text "the body parses as a manifest"
  | .unreadableKey => text "the signing key is checked"
  | .absent _ => text "the manifest offers this platform"
  | .plainUrl _ => text "the download url is https"
  | .unreadableSignature _ => text "the signature field decodes"
  | .foreignKey _ => text "the signature is by the key this client trusts"
  | .notOffered _ installed =>
      text "the policy would offer this to " ++ runtime.versionText installed
  | .undownloaded _ => text "the artefact downloads"
  | .unverified _ => text "the artefact verifies"

def Problem.target : Problem Version → Option Text
  | .plainEndpoint | .unanswered | .unreadable | .unreadableKey => none
  | .absent target | .plainUrl target | .unreadableSignature target
  | .foreignKey target | .notOffered target _ | .undownloaded target
  | .unverified target => some target

/-- The problem is a failed check among the findings. -/
def Problem.Reported (problem : Problem Version)
    (findings : List ProbeFinding) : Prop :=
  ∃ finding ∈ findings, finding.what = problem.check runtime ∧
    finding.target = problem.target ∧ finding.passed = false

end

/-- What a probe is called with. -/
structure ProbeCall (Version Url : Type) where
  url : Url
  targets : List Text
  publicKey : Option Text
  installed : Option Version
  download : Bool

section

variable (runtime : Runtime Version Date) (crypto : Crypto)
  (web : Web Version Url) (call : ProbeCall Version Url)

/-- The endpoint is asked over https and answers with this. -/
def Answers (body : FetchedBody) : Prop :=
  web.scheme call.url = text "https" ∧ web.fetch call.url = .ok body

/-- The endpoint serves this manifest. -/
def Serves (manifest : UpdateManifest Version Date) : Prop :=
  ∃ body, Answers web call body ∧ body.statusCode = 200 ∧
    readManifest runtime body.bytes none = .ok manifest

def ProbeCall.trusted : Option MinisignPublicKey :=
  (trustedKey runtime call.publicKey).1

/-- The manifest has this release for a target that is asked about. -/
structure Offers (target : Text) (manifest : UpdateManifest Version Date)
    (release : PlatformRelease) : Prop where
  serves : Serves runtime web call manifest
  asked : target ∈ call.targets
  found : releaseFor runtime manifest target = .ok release

/-- Its signature can be read and is not by another key than the trusted
one. -/
structure Signed (target : Text) (manifest : UpdateManifest Version Date)
    (release : PlatformRelease) (signature : MinisignSignature) : Prop
    extends Offers runtime web call target manifest release where
  read : (signatureOf runtime target release).1 = some signature
  trusted : ∀ key, call.trusted runtime = some key →
    keyIdHex signature.keyId = keyIdHex key.keyId

/-- The problems a probe comes across. -/
inductive Met : Problem Version → Prop
  | plainEndpoint (hscheme : web.scheme call.url ≠ text "https") :
      Met .plainEndpoint
  | unreached {thrown : Thrown Version}
      (hscheme : web.scheme call.url = text "https")
      (hfetch : web.fetch call.url = .error thrown) :
      Met .unanswered
  | refused {body : FetchedBody} (hanswers : Answers web call body)
      (hstatus : body.statusCode ≠ 200) :
      Met .unanswered
  | unreadable {body : FetchedBody} {thrown : Thrown Version}
      (hanswers : Answers web call body) (hstatus : body.statusCode = 200)
      (hread : readManifest runtime body.bytes none = .error thrown) :
      Met .unreadable
  | unreadableKey {manifest : UpdateManifest Version Date} {encoded : Text}
      {failure : UpdateFailure} (hserves : Serves runtime web call manifest)
      (hkey : call.publicKey = some encoded)
      (hparse : MinisignPublicKey.parse encoded = .error failure) :
      Met .unreadableKey
  | absent {target : Text} {manifest : UpdateManifest Version Date}
      {failure : UpdateFailure} (hserves : Serves runtime web call manifest)
      (hasked : target ∈ call.targets)
      (hrelease : releaseFor runtime manifest target = .error failure) :
      Met (.absent target)
  | plainUrl {target : Text} {manifest : UpdateManifest Version Date}
      {release : PlatformRelease}
      (hoffers : Offers runtime web call target manifest release)
      (hplain : ∀ artifact, web.parseUrl release.url = .ok artifact →
        web.scheme artifact ≠ text "https") :
      Met (.plainUrl target)
  | unreadableSignature {target : Text}
      {manifest : UpdateManifest Version Date} {release : PlatformRelease}
      (hoffers : Offers runtime web call target manifest release)
      (hsignature : (signatureOf runtime target release).1 = none) :
      Met (.unreadableSignature target)
  | foreignKey {target : Text} {manifest : UpdateManifest Version Date}
      {release : PlatformRelease} {signature : MinisignSignature}
      {key : MinisignPublicKey}
      (hoffers : Offers runtime web call target manifest release)
      (hsignature : (signatureOf runtime target release).1 = some signature)
      (htrusted : call.trusted runtime = some key)
      (hforeign : keyIdHex signature.keyId ≠ keyIdHex key.keyId) :
      Met (.foreignKey target)
  | notOffered {target : Text} {manifest : UpdateManifest Version Date}
      {release : PlatformRelease} {signature : MinisignSignature}
      {installed : Version}
      (hsigned : Signed runtime web call target manifest release signature)
      (hinstalled : call.installed = some installed)
      (hrefused : ∀ decision,
        (UpdatePolicy.mk false).decide runtime installed manifest =
          .ok decision → decision.shouldUpdate = false) :
      Met (.notOffered target installed)
  | keyless {target : Text} {manifest : UpdateManifest Version Date}
      {release : PlatformRelease} {signature : MinisignSignature}
      (hsigned : Signed runtime web call target manifest release signature)
      (hdownload : call.download = true)
      (htrusted : call.trusted runtime = none) :
      Met (.unverified target)
  | undownloaded {target : Text} {manifest : UpdateManifest Version Date}
      {release : PlatformRelease} {signature : MinisignSignature}
      {key : MinisignPublicKey} {artifact : Url} {thrown : Thrown Version}
      (hsigned : Signed runtime web call target manifest release signature)
      (hdownload : call.download = true)
      (htrusted : call.trusted runtime = some key)
      (hartifact : web.parseUrl release.url = .ok artifact)
      (hfetch : web.fetch artifact = .error thrown) :
      Met (.undownloaded target)
  | unverified {target : Text} {manifest : UpdateManifest Version Date}
      {release : PlatformRelease} {signature : MinisignSignature}
      {key : MinisignPublicKey} {artifact : Url} {body : FetchedBody}
      {failure : UpdateFailure}
      (hsigned : Signed runtime web call target manifest release signature)
      (hdownload : call.download = true)
      (htrusted : call.trusted runtime = some key)
      (hartifact : web.parseUrl release.url = .ok artifact)
      (hfetch : web.fetch artifact = .ok body)
      (hverify : verify crypto body.bytes signature key = .error failure) :
      Met (.unverified target)

def ProbeCall.run : Except (Thrown Version) (List ProbeFinding) :=
  Cli.run runtime crypto web call.url call.targets call.publicKey
    call.installed call.download

/-- The run ends in a report, and every problem it comes across is a failed
check of it. -/
def EndsInReport : Prop :=
  ∃ findings, call.run runtime crypto web = .ok findings ∧
    ∀ problem, Met runtime crypto web call problem →
      problem.Reported runtime findings

/-- The url of an artefact is not one, or what is signed for the client is
older than what is installed. -/
def Overlooked : Prop :=
  ∃ target manifest release,
    Offers runtime web call target manifest release ∧
      ((∃ thrown, web.parseUrl release.url = .error thrown) ∨
        ∃ signature installed,
          Signed runtime web call target manifest release signature ∧
            call.installed = some installed ∧
            runtime.sameVersion manifest.version installed = false ∧
            runtime.versionLess manifest.version installed = true)

end

/-! ## The check of a target -/

section

variable {runtime : Runtime Version Date} {crypto : Crypto}
  {web : Web Version Url} {manifest : UpdateManifest Version Date}
  {trusted : Option MinisignPublicKey} {installed : Option Version}
  {download : Bool} {target : Text} {release : PlatformRelease}
  {part : List ProbeFinding}

/-- Everything the check of an offered target looks at, and finds. -/
structure Checked (runtime : Runtime Version Date) (crypto : Crypto)
    (web : Web Version Url) (manifest : UpdateManifest Version Date)
    (trusted : Option MinisignPublicKey) (installed : Option Version)
    (download : Bool) (target : Text) (release : PlatformRelease)
    (part : List ProbeFinding) (artifact : Url) : Prop where
  parsed : web.parseUrl release.url = .ok artifact
  https : httpsFinding web target artifact ∈ part
  signature : (signatureOf runtime target release).2 ∈ part
  keys : ∀ signature, (signatureOf runtime target release).1 = some signature →
    keyFindings target signature trusted ⊆ part
  rest : ∀ signature, (signatureOf runtime target release).1 = some signature →
    (∀ key, trusted = some key →
      keyIdHex signature.keyId = keyIdHex key.keyId) →
    ∃ policy, policyFindings runtime target manifest installed = .ok policy ∧
      policy ⊆ part ∧
      (download = true → verifyArtifact runtime crypto web target artifact
        signature trusted ⊆ part)

theorem any_keyFindings (signature : MinisignSignature) :
    ((keyFindings target signature trusted).any fun finding =>
        !finding.passed) = false ↔
      ∀ key, trusted = some key →
        keyIdHex signature.keyId = keyIdHex key.keyId := by
  cases trusted with
  | none => simp [keyFindings]
  | some key => simp [keyFindings]

theorem exists_checked
    (hcheck : checkTarget runtime crypto web manifest trusted installed
      download target = .ok part)
    (hrelease : releaseFor runtime manifest target = .ok release) :
    ∃ artifact, Checked runtime crypto web manifest trusted installed download
      target release part artifact := by
  unfold checkTarget at hcheck
  simp only [hrelease] at hcheck
  obtain ⟨artifact, hartifact, hrest⟩ := bind_eq_ok_iff.mp hcheck
  refine ⟨artifact, ?_⟩
  cases hsignature : (signatureOf runtime target release).1 with
  | none =>
      simp only [hsignature] at hrest
      have hpart := Except.ok.inj hrest
      subst hpart
      constructor
      · exact hartifact
      · simp
      · simp
      · intro signature hsome
        rw [hsignature] at hsome
        cases hsome
      · intro signature hsome
        rw [hsignature] at hsome
        cases hsome
  | some signature =>
      simp only [hsignature] at hrest
      cases hforeign : (keyFindings target signature trusted).any
          fun finding => !finding.passed with
      | true =>
          rw [hforeign, if_pos rfl] at hrest
          have hpart := Except.ok.inj hrest
          subst hpart
          constructor
          · exact hartifact
          · simp
          · simp
          · intro other hother
            obtain rfl : signature = other := by simpa [hsignature] using hother
            exact List.subset_append_right _ _
          · intro other hother hsame
            obtain rfl : signature = other := by simpa [hsignature] using hother
            rw [(any_keyFindings signature).mpr hsame] at hforeign
            cases hforeign
      | false =>
          rw [hforeign] at hrest
          simp only [Bool.false_eq_true, if_false] at hrest
          obtain ⟨policy, hpolicy, hrest⟩ := bind_eq_ok_iff.mp hrest
          have hpart := Except.ok.inj hrest
          subst hpart
          constructor
          · exact hartifact
          · simp
          · simp
          · intro other hother
            obtain rfl : signature = other := by simpa [hsignature] using hother
            intro finding hfinding
            simp [hfinding]
          · intro other hother _
            obtain rfl : signature = other := by simpa [hsignature] using hother
            refine ⟨policy, hpolicy, ?_, ?_⟩
            · intro finding hfinding
              simp [hfinding]
            · intro hdownload finding hfinding
              simp [hdownload, hfinding]

/-- A target is checked as long as its url is one and nobody is offered a
downgrade. -/
theorem exists_checkTarget_iff :
    (∃ part, checkTarget runtime crypto web manifest trusted installed
        download target = .ok part) ↔
      ∀ release, releaseFor runtime manifest target = .ok release →
        (∃ artifact, web.parseUrl release.url = .ok artifact) ∧
          ∀ signature, (signatureOf runtime target release).1 =
              some signature →
            (∀ key, trusted = some key →
              keyIdHex signature.keyId = keyIdHex key.keyId) →
            ∃ policy, policyFindings runtime target manifest installed =
              .ok policy := by
  constructor
  · rintro ⟨part, hcheck⟩ release hrelease
    obtain ⟨artifact, hchecked⟩ := exists_checked hcheck hrelease
    refine ⟨⟨artifact, hchecked.parsed⟩, ?_⟩
    intro signature hsignature hsame
    obtain ⟨policy, hpolicy, -⟩ := hchecked.rest signature hsignature hsame
    exact ⟨policy, hpolicy⟩
  · intro hall
    unfold checkTarget
    cases hrelease : releaseFor runtime manifest target with
    | error failure => exact ⟨_, rfl⟩
    | ok release =>
        obtain ⟨⟨artifact, hartifact⟩, hpolicies⟩ := hall release hrelease
        simp only [hartifact, bind, Except.bind]
        cases hsignature : (signatureOf runtime target release).1 with
        | none => exact ⟨_, rfl⟩
        | some signature =>
            cases hforeign : (keyFindings target signature trusted).any
                fun finding => !finding.passed with
            | true =>
                simp only [hforeign, if_true]
                exact ⟨_, rfl⟩
            | false =>
                obtain ⟨policy, hpolicy⟩ := hpolicies signature hsignature
                  ((any_keyFindings signature).mp hforeign)
                simp only [hforeign, hpolicy, Bool.false_eq_true, if_false]
                exact ⟨_, rfl⟩

theorem exists_policyFindings_iff :
    (∃ policy, policyFindings runtime target manifest installed =
        .ok policy) ↔
      ∀ version, installed = some version →
        runtime.sameVersion manifest.version version = false →
          runtime.versionLess manifest.version version = false := by
  unfold policyFindings
  cases installed with
  | none => simp
  | some version =>
      unfold UpdatePolicy.decide
      cases hsame : runtime.sameVersion manifest.version version with
      | true => simp [hsame, bind, Except.bind, pure, Except.pure]
      | false =>
          cases hless : runtime.versionLess manifest.version version <;>
            simp [hsame, hless, bind, Except.bind, pure, Except.pure]

end

/-! ## The report -/

section

variable {runtime : Runtime Version Date} {crypto : Crypto}
  {web : Web Version Url} {call : ProbeCall Version Url}
  {manifest : UpdateManifest Version Date}

theorem serves_unique {other : UpdateManifest Version Date}
    (hserves : Serves runtime web call manifest)
    (hother : Serves runtime web call other) : manifest = other := by
  obtain ⟨body, ⟨-, hfetch⟩, -, hread⟩ := hserves
  obtain ⟨answer, ⟨-, hanswer⟩, -, hothers⟩ := hother
  obtain rfl : body = answer := Except.ok.inj (hfetch.symm.trans hanswer)
  exact Except.ok.inj (hread.symm.trans hothers)

theorem serves_of_read {bytes : Bytes}
    (hscheme : web.scheme call.url = text "https")
    (hfetch : web.fetch call.url = .ok ⟨200, bytes⟩)
    (hread : readManifest runtime bytes none = .ok manifest) :
    Serves runtime web call manifest :=
  ⟨⟨200, bytes⟩, ⟨hscheme, hfetch⟩, rfl, hread⟩

/-- The targets of a served manifest are checked one after the other. -/
theorem run_of_serves (crypto : Crypto)
    (hserves : Serves runtime web call manifest) :
    ∃ body, call.run runtime crypto web =
      (call.targets.mapM (checkTarget runtime crypto web manifest
        (call.trusted runtime) call.installed call.download)).map
          fun checked => [answersFinding body, parsesFinding runtime manifest,
            (trustedKey runtime call.publicKey).2] ++ checked.flatten := by
  obtain ⟨body, ⟨hscheme, hfetch⟩, hstatus, hread⟩ := hserves
  refine ⟨body, ?_⟩
  unfold ProbeCall.run Cli.run
  simp only [hscheme, hfetch, hstatus, hread, ne_eq, not_true_eq_false,
    if_false]
  cases hchecked : call.targets.mapM (checkTarget runtime crypto web manifest
      (call.trusted runtime) call.installed call.download) with
  | error thrown =>
      unfold ProbeCall.trusted at hchecked
      simp [hchecked, bind, Except.bind, Except.map]
  | ok checked =>
      unfold ProbeCall.trusted at hchecked
      simp [hchecked, bind, Except.bind, Except.map, pure, Except.pure]

theorem exists_mapM_iff {α β Failure : Type} {step : α → Except Failure β}
    {items : List α} :
    (∃ results, items.mapM step = .ok results) ↔
      ∀ item ∈ items, ∃ result, step item = .ok result := by
  constructor
  · rintro ⟨results, hsteps⟩ item hitem
    obtain ⟨result, -, hstep⟩ := exists_of_mem_of_mapM_eq_ok hsteps hitem
    exact ⟨result, hstep⟩
  · intro hall
    induction items with
    | nil => exact ⟨[], rfl⟩
    | cons item rest ih =>
        obtain ⟨result, hitem⟩ := hall item (by simp)
        obtain ⟨results, hrest⟩ := ih fun other hother =>
          hall other (by simp [hother])
        rw [List.mapM_cons, hitem]
        simp only [hrest, bind, Except.bind]
        exact ⟨_, rfl⟩

/-- A run that does not get to a manifest ends in a report. -/
theorem run_of_not_serves
    (hserves : ∀ manifest, ¬ Serves runtime web call manifest) :
    ∃ findings, call.run runtime crypto web = .ok findings := by
  unfold ProbeCall.run Cli.run
  by_cases hscheme : web.scheme call.url = text "https"
  · simp only [hscheme, ne_eq, not_true_eq_false, if_false]
    cases hfetch : web.fetch call.url with
    | error thrown => exact ⟨_, rfl⟩
    | ok body =>
        by_cases hstatus : body.statusCode = 200
        · simp only [hstatus, not_true_eq_false, if_false]
          cases hread : readManifest runtime body.bytes none with
          | error thrown => exact ⟨_, rfl⟩
          | ok manifest =>
              exact absurd ⟨body, ⟨hscheme, hfetch⟩, hstatus, hread⟩
                (hserves manifest)
        · simp only [hstatus, not_false_eq_true, if_true]
          exact ⟨_, rfl⟩
  · simp only [hscheme, ne_eq, not_false_eq_true, if_true]
    exact ⟨_, rfl⟩

/-- The run ends in some report unless something is thrown past it. -/
theorem exists_run_iff (crypto : Crypto) :
    (∃ findings, call.run runtime crypto web = .ok findings) ↔
      ¬ Overlooked runtime web call := by
  by_cases hserved : ∃ manifest, Serves runtime web call manifest
  · obtain ⟨manifest, hserves⟩ := hserved
    obtain ⟨body, hrun⟩ := run_of_serves crypto hserves
    have hok : (∃ findings, call.run runtime crypto web = .ok findings) ↔
        ∃ checked, call.targets.mapM (checkTarget runtime crypto web manifest
          (call.trusted runtime) call.installed call.download) =
            .ok checked := by
      rw [hrun]
      cases call.targets.mapM (checkTarget runtime crypto web manifest
        (call.trusted runtime) call.installed call.download) <;>
          simp [Except.map]
    rw [hok, exists_mapM_iff]
    constructor
    · rintro hall ⟨target, served, release, hoffers, hthrown⟩
      obtain rfl := serves_unique hserves hoffers.serves
      obtain ⟨⟨artifact, hartifact⟩, hpolicies⟩ := exists_checkTarget_iff.mp
        (hall target hoffers.asked) release hoffers.found
      rcases hthrown with ⟨thrown, hurl⟩ |
        ⟨signature, installed, hsigned, hinstalled, hother, hless⟩
      · rw [hartifact] at hurl
        cases hurl
      · have hpolicy := hpolicies signature hsigned.read hsigned.trusted
        rw [exists_policyFindings_iff] at hpolicy
        rw [hpolicy installed hinstalled hother] at hless
        cases hless
    · intro hoverlooked target hasked
      rw [exists_checkTarget_iff]
      intro release hrelease
      have hoffers : Offers runtime web call target manifest release :=
        ⟨hserves, hasked, hrelease⟩
      constructor
      · cases hartifact : web.parseUrl release.url with
        | ok artifact => exact ⟨artifact, rfl⟩
        | error thrown =>
            exact absurd ⟨target, manifest, release, hoffers, .inl ⟨thrown,
              hartifact⟩⟩ hoverlooked
      · intro signature hsignature hsame
        rw [exists_policyFindings_iff]
        intro installed hinstalled hother
        by_contra hless
        rw [Bool.not_eq_false] at hless
        exact hoverlooked ⟨target, manifest, release, hoffers,
          .inr ⟨signature, installed, ⟨hoffers, hsignature, hsame⟩,
            hinstalled, hother, hless⟩⟩
  · rw [not_exists] at hserved
    apply iff_of_true (run_of_not_serves hserved)
    rintro ⟨target, manifest, release, hoffers, -⟩
    exact hserved manifest hoffers.serves

/-- What the check of an asked target finds is in the report. -/
theorem exists_part {target : Text} {findings : List ProbeFinding}
    (hserves : Serves runtime web call manifest)
    (hrun : call.run runtime crypto web = .ok findings)
    (hasked : target ∈ call.targets) :
    ∃ part, checkTarget runtime crypto web manifest (call.trusted runtime)
        call.installed call.download target = .ok part ∧ part ⊆ findings := by
  obtain ⟨body, hserved⟩ := run_of_serves crypto hserves
  rw [hserved] at hrun
  cases hchecked : call.targets.mapM (checkTarget runtime crypto web manifest
      (call.trusted runtime) call.installed call.download) with
  | error thrown =>
      rw [hchecked] at hrun
      cases hrun
  | ok checked =>
      rw [hchecked] at hrun
      have hfindings := Except.ok.inj hrun
      obtain ⟨part, hpart, hstep⟩ := exists_of_mem_of_mapM_eq_ok hchecked hasked
      refine ⟨part, hstep, ?_⟩
      intro finding hfinding
      rw [← hfindings]
      exact List.mem_append_right _ (List.mem_flatten.mpr ⟨part, hpart,
        hfinding⟩)

theorem Problem.Reported.mono {problem : Problem Version}
    {part findings : List ProbeFinding}
    (hreported : problem.Reported runtime part) (hsubset : part ⊆ findings) :
    problem.Reported runtime findings := by
  obtain ⟨finding, hfinding, hrest⟩ := hreported
  exact ⟨finding, hsubset hfinding, hrest⟩

/-- What the checks of an offered target have found is in the report. -/
theorem exists_checked_of_offers {target : Text} {release : PlatformRelease}
    {findings : List ProbeFinding}
    (hoffers : Offers runtime web call target manifest release)
    (hrun : call.run runtime crypto web = .ok findings) :
    ∃ part artifact, part ⊆ findings ∧
      Checked runtime crypto web manifest (call.trusted runtime)
        call.installed call.download target release part artifact := by
  obtain ⟨part, hcheck, hsubset⟩ :=
    exists_part hoffers.serves hrun hoffers.asked
  obtain ⟨artifact, hchecked⟩ := exists_checked hcheck hoffers.found
  exact ⟨part, artifact, hsubset, hchecked⟩

theorem reported_of_met {findings : List ProbeFinding}
    (hrun : call.run runtime crypto web = .ok findings)
    {problem : Problem Version}
    (hmet : Met runtime crypto web call problem) :
    problem.Reported runtime findings := by
  cases hmet with
  | plainEndpoint hscheme =>
      unfold ProbeCall.run Cli.run at hrun
      rw [if_pos hscheme] at hrun
      rw [← Except.ok.inj hrun]
      exact ⟨_, List.mem_singleton_self _, rfl, rfl, rfl⟩
  | unreached hscheme hfetch =>
      unfold ProbeCall.run Cli.run at hrun
      simp only [hscheme, hfetch, ne_eq, not_true_eq_false, if_false] at hrun
      rw [← Except.ok.inj hrun]
      exact ⟨_, List.mem_singleton_self _, rfl, rfl, rfl⟩
  | refused hanswers hstatus =>
      unfold ProbeCall.run Cli.run at hrun
      simp only [hanswers.1, hanswers.2, hstatus, ne_eq, not_true_eq_false,
        not_false_eq_true, if_false, if_true] at hrun
      rw [← Except.ok.inj hrun]
      refine ⟨_, List.mem_singleton_self _, rfl, rfl, ?_⟩
      simp [answersFinding, hstatus]
  | unreadable hanswers hstatus hread =>
      unfold ProbeCall.run Cli.run at hrun
      simp only [hanswers.1, hanswers.2, hstatus, hread, ne_eq,
        not_true_eq_false, if_false] at hrun
      rw [← Except.ok.inj hrun]
      exact ⟨_, List.mem_cons_of_mem _ (List.mem_singleton_self _), rfl, rfl,
        rfl⟩
  | unreadableKey hserves hkey hparse =>
      obtain ⟨body, hserved⟩ := run_of_serves crypto hserves
      rw [hserved] at hrun
      cases hchecked : call.targets.mapM (checkTarget runtime crypto web _
          (call.trusted runtime) call.installed call.download) with
      | error thrown =>
          rw [hchecked] at hrun
          cases hrun
      | ok checked =>
          rw [hchecked] at hrun
          rw [← Except.ok.inj hrun]
          refine ⟨(trustedKey runtime call.publicKey).2, by simp, ?_⟩
          simp only [trustedKey, hkey, hparse]
          exact ⟨rfl, rfl, trivial⟩
  | absent hserves hasked hrelease =>
      obtain ⟨part, hcheck, hsubset⟩ := exists_part hserves hrun hasked
      unfold checkTarget at hcheck
      rw [hrelease] at hcheck
      apply Problem.Reported.mono _ hsubset
      rw [← Except.ok.inj hcheck]
      exact ⟨_, List.mem_singleton_self _, rfl, rfl, rfl⟩
  | plainUrl hoffers hplain =>
      obtain ⟨part, artifact, hsubset, hchecked⟩ :=
        exists_checked_of_offers hoffers hrun
      refine ⟨_, hsubset hchecked.https, rfl, rfl, ?_⟩
      simpa [httpsFinding] using hplain artifact hchecked.parsed
  | @unreadableSignature target manifest release hoffers hsignature =>
      obtain ⟨part, artifact, hsubset, hchecked⟩ :=
        exists_checked_of_offers hoffers hrun
      refine ⟨_, hsubset hchecked.signature, ?_⟩
      unfold signatureOf at hsignature ⊢
      cases hdecode : (Base64.decode release.signature).bind utf8Decode with
      | none => exact ⟨rfl, rfl, rfl⟩
      | some source =>
          cases hparse : MinisignSignature.parse source with
          | error failure =>
              simp only [hparse]
              exact ⟨rfl, rfl, trivial⟩
          | ok signature => simp [hdecode, hparse] at hsignature
  | foreignKey hoffers hsignature htrusted hforeign =>
      obtain ⟨part, artifact, hsubset, hchecked⟩ :=
        exists_checked_of_offers hoffers hrun
      have hkeys := hchecked.keys _ hsignature
      unfold keyFindings at hkeys
      rw [htrusted] at hkeys
      refine ⟨_, hsubset (hkeys (List.mem_singleton_self _)), rfl, rfl, ?_⟩
      simpa using hforeign
  | notOffered hsigned hinstalled hrefused =>
      obtain ⟨part, artifact, hsubset, hchecked⟩ :=
        exists_checked_of_offers hsigned.toOffers hrun
      obtain ⟨policy, hpolicy, hmem, -⟩ :=
        hchecked.rest _ hsigned.read hsigned.trusted
      unfold policyFindings at hpolicy
      rw [hinstalled] at hpolicy
      obtain ⟨decision, hdecision, hfinding⟩ := bind_eq_ok_iff.mp hpolicy
      rw [← Except.ok.inj hfinding] at hmem
      refine ⟨_, hsubset (hmem (List.mem_singleton_self _)), rfl, rfl, ?_⟩
      exact hrefused decision hdecision
  | keyless hsigned hdownload htrusted =>
      obtain ⟨part, artifact, hsubset, hchecked⟩ :=
        exists_checked_of_offers hsigned.toOffers hrun
      obtain ⟨policy, -, -, hverified⟩ :=
        hchecked.rest _ hsigned.read hsigned.trusted
      have hfound := hverified hdownload
      unfold verifyArtifact at hfound
      rw [htrusted] at hfound
      exact ⟨_, hsubset (hfound (List.mem_singleton_self _)), rfl, rfl, rfl⟩
  | undownloaded hsigned hdownload htrusted hartifact hfetch =>
      obtain ⟨part, artifact, hsubset, hchecked⟩ :=
        exists_checked_of_offers hsigned.toOffers hrun
      obtain ⟨policy, -, -, hverified⟩ :=
        hchecked.rest _ hsigned.read hsigned.trusted
      have hsame := Except.ok.inj (hartifact.symm.trans hchecked.parsed)
      have hfound := hverified hdownload
      unfold verifyArtifact at hfound
      rw [htrusted, ← hsame] at hfound
      simp only [hfetch] at hfound
      exact ⟨_, hsubset (hfound (List.mem_singleton_self _)), rfl, rfl, rfl⟩
  | unverified hsigned hdownload htrusted hartifact hfetch hverify =>
      obtain ⟨part, artifact, hsubset, hchecked⟩ :=
        exists_checked_of_offers hsigned.toOffers hrun
      obtain ⟨policy, -, -, hverified⟩ :=
        hchecked.rest _ hsigned.read hsigned.trusted
      have hsame := Except.ok.inj (hartifact.symm.trans hchecked.parsed)
      have hfound := hverified hdownload
      unfold verifyArtifact at hfound
      rw [htrusted, ← hsame] at hfound
      simp only [hfetch, hverify] at hfound
      exact ⟨_, hsubset (hfound (List.mem_cons_of_mem _
        (List.mem_singleton_self _))), rfl, rfl, rfl⟩

/-- The run ends in a report with every problem it comes across, unless a url
is not one or the client would be offered a downgrade. -/
theorem endsInReport_iff (runtime : Runtime Version Date) (crypto : Crypto)
    (web : Web Version Url) (call : ProbeCall Version Url) :
    EndsInReport runtime crypto web call ↔ ¬ Overlooked runtime web call := by
  rw [← exists_run_iff crypto]
  constructor
  · rintro ⟨findings, hrun, -⟩
    exact ⟨findings, hrun⟩
  · rintro ⟨findings, hrun⟩
    exact ⟨findings, hrun, fun problem => reported_of_met hrun⟩

end

/-- A client of the version 3.0.0 asks an endpoint that serves 2.0.0. -/
def olderOffer : ProbeCall Text Text where
  url := text "https://a.example.com"
  targets := [sampleEntry.platformKey]
  publicKey := some blankKey
  installed := some (text "3.0.0")
  download := false

theorem overlooked_olderOffer :
    Overlooked releaseRuntime errorWeb olderOffer := by
  have hserves : Serves releaseRuntime errorWeb olderOffer newManifest :=
    serves_of_read (by decide) fetch_errorWeb readManifest_newSource
  have hsigned : ((releaseFor releaseRuntime newManifest
      sampleEntry.platformKey).toOption.bind fun release =>
        (signatureOf releaseRuntime sampleEntry.platformKey release).1.map
          fun signature => (olderOffer.trusted releaseRuntime).all fun key =>
            keyIdHex signature.keyId = keyIdHex key.keyId) = some true := by
    decide +kernel
  cases hrelease : releaseFor releaseRuntime newManifest
      sampleEntry.platformKey with
  | error failure => simp [hrelease, Except.toOption] at hsigned
  | ok release =>
      have hoffers : Offers releaseRuntime errorWeb olderOffer
          sampleEntry.platformKey newManifest release :=
        ⟨hserves, List.mem_singleton_self _, hrelease⟩
      cases hsignature : (signatureOf releaseRuntime sampleEntry.platformKey
          release).1 with
      | none => simp [hrelease, hsignature, Except.toOption] at hsigned
      | some signature =>
          simp only [hrelease, hsignature, Except.toOption, Option.bind_some,
            Option.map_some, Option.some.injEq] at hsigned
          refine ⟨_, _, release, hoffers, .inr ⟨signature, text "3.0.0",
            ⟨hoffers, hsignature, ?_⟩, rfl, by decide,
            by decide⟩⟩
          intro key hkey
          simpa [hkey] using hsigned

/-- The refusal of the downgrade is thrown past the report. -/
theorem not_endsInReport_olderOffer :
    ¬ EndsInReport releaseRuntime newCrypto errorWeb olderOffer := by
  rintro ⟨findings, hrun, -⟩
  exact (exists_run_iff newCrypto).mp ⟨findings, hrun⟩ overlooked_olderOffer

end Dovetail.Cli
