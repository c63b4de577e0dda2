import Dovetail.CliShipSupply

/-!
# What the doctor says of a project

`ProjectReport.of` answers whether a project can be released before anybody
pays for the build.  It asks what `ShipPlan.of` asks with rules of its own:
the two agree but for a daemon the channel cannot install, which the report
only warns about, an update section without a base url, which it takes for
switched off, and a daemon that was not built, which only the report looks
for.
-/

namespace Dovetail.Cli.Ship

open CodeUnits CommandOptions Bundler FallibleSteps Signer

/-! ## Notes -/

inductive ProjectFinding where
  | ready
  | missing
  | warning
  | notConfigured
  deriving DecidableEq

structure ProjectNote where
  subject : Text
  finding : ProjectFinding
  detail : Text
  deriving DecidableEq

structure ProjectReport where
  notes : List ProjectNote

namespace ProjectReport

def shipCanRelease (report : ProjectReport) : Bool :=
  report.notes.all fun note => note.finding ≠ .missing

def targetsNote (config : DovetailConfig) (host : Host) : ProjectNote :=
  let mine := ShipPlan.targetsForHost config host
  let all := Updater.join (text ", ") config.targets
  if mine = [] then
    { subject := text "targets"
      finding := .notConfigured
      detail := all ++ text " — none for " ++ host.name ++
        text ", so ship does nothing here" }
  else
    { subject := text "targets"
      finding := .ready
      detail := Updater.join (text ", ") mine ++ text " on this host of " ++
        text (toString config.targets.length) }

section

variable (packages : Packages) (onDisk : Text → Bool)

/-! ### The update -/

/-- Where the release step will look for the key. -/
def keyPathFrom (update : UpdateConfig) (root : Text) : Text :=
  if packages.isAbsolute update.keyPath then update.keyPath
  else packages.join root update.keyPath

def keyAbsent (update : UpdateConfig) (root : Option Text) : Option Text :=
  root.bind fun root =>
    let keyPath := keyPathFrom packages update root
    if onDisk keyPath then none
    else
      some (text "the signing key " ++ update.keyPath ++
        text " is not on disk (" ++ keyPath ++
        text "), and the release step signs the artefacts with it at the end of the run — everything before it would be built and then thrown away. It is the key every installed client already trusts; keep it on the release machine")

def keyLocked (update : UpdateConfig) (environment : Option Environment) :
    Option Text :=
  environment.bind fun environment =>
    if !update.unencrypted ∧ !isSet (environment update.passwordEnv) then
      some (update.passwordEnv ++
        text " is not set, and update.unencrypted is not true, so the release step refuses at the end of the run. Export the key password, or set update.unencrypted: true if the key has none")
    else none

def updateNote (update : Option UpdateConfig) (root : Option Text)
    (environment : Option Environment) (channel : ShipChannel) :
    ProjectNote :=
  let subject := text "update"
  match update with
  | none =>
      { subject
        finding := .notConfigured
        detail := text "no manifest is written, so installed clients learn nothing" }
  | some update =>
      if channel.isInternal then
        { subject
          finding := .missing
          detail := text "the internal channel writes no manifest, and dovetail.yaml declares an update section — ship refuses the combination. An internal artefact must not reach the channel installed clients read. Drop update: for an internal build, or ask --channel release" }
      else
        match update.baseUrl with
        | none =>
            { subject
              finding := .notConfigured
              detail := update.keyPath ++
                text " — no base-url, so every artefact needs its url spelled out" }
        | some baseUrl =>
            if update.publicKey.isNone then
              { subject
                finding := .missing
                detail := text "update.public-key is not declared, so ship refuses at the release step. Declare the key the shipped app carries (dovetail keygen prints the line)" }
            else
              match keyAbsent packages onDisk update root with
              | some detail => { subject, finding := .missing, detail }
              | none =>
                  match keyLocked update environment with
                  | some detail => { subject, finding := .missing, detail }
                  | none =>
                      { subject
                        finding := .ready
                        detail := baseUrl ++ text " signed with " ++
                          update.keyPath }

/-! ### The signature -/

def notarisationGap (macos : MacosSigningConfig) (environment : Environment) :
    Option Text :=
  let identity :=
    if !isSet (environment (text "APPLE_SIGNING_IDENTITY")) ∧
        !isSet (environment macos.identityEnv) then
      [text "notarize: true, and neither " ++ macos.identityEnv ++
        text " nor APPLE_SIGNING_IDENTITY is exported — ship refuses at the sign step"]
    else []
  let credentials :=
    match NotarytoolArguments.forWhicheverIsConfigured environment with
    | .ok (some _) => []
    | .ok none =>
        [text "notarize: true, and no notarisation credential group is complete (APPLE_ID + APPLE_PASSWORD + APPLE_TEAM_ID, or APPLE_API_KEY_ID + APPLE_API_ISSUER + APPLE_API_KEY_PATH) — ship refuses at the dmg step"]
    | .error failure => [failure.message]
  let gaps := identity ++ credentials
  if gaps = [] then none else some (Updater.join (text "; ") gaps)

def windowsSigningGap (windows : WindowsSigningConfig)
    (environment : Environment) : Option Text :=
  if !isSet (environment windows.certificateEnv) ∧
      !isSet (environment (text "WINDOWS_CERTIFICATE_FILE")) ∧
      !isSet (environment (text "WINDOWS_CERTIFICATE_THUMBPRINT")) then
    some (text "the release channel signs the installer and its payload, and neither " ++
      windows.certificateEnv ++
      text " nor WINDOWS_CERTIFICATE_FILE nor WINDOWS_CERTIFICATE_THUMBPRINT is set — the artefact would ship unsigned. Export the certificate, or use --channel internal for an unsigned tester build")
  else if !isSet (environment (text "WINDOWS_TIMESTAMP_URL")) ∧
      !isSet windows.timestampUrl then
    some (text "the certificate is set, and no timestamp server is: sign.windows.timestamp-url is not declared and WINDOWS_TIMESTAMP_URL is not exported, so the signature dies when the certificate expires. Declare the timestamp-url")
  else none

/-- Notarisation is asked about on either channel. -/
def macosSigningNote (macos : MacosSigningConfig)
    (environment : Option Environment) : ProjectNote :=
  let subject := text "signing"
  match (if macos.notarize then environment.bind (notarisationGap macos)
    else none) with
  | some detail => { subject, finding := .missing, detail }
  | none =>
      { subject
        finding := .ready
        detail := macos.identityEnv ++
          if macos.notarize then text ", notarised"
          else text ", not notarised" }

def windowsSigningNote (windows : WindowsSigningConfig)
    (environment : Option Environment) (channel : ShipChannel) :
    ProjectNote :=
  let subject := text "signing"
  match (if channel.isInternal then none
    else environment.bind (windowsSigningGap windows)) with
  | some detail => { subject, finding := .missing, detail }
  | none => { subject, finding := .ready, detail := windows.certificateEnv }

def signingNote (config : DovetailConfig) (host : Host)
    (environment : Option Environment) (channel : ShipChannel) :
    ProjectNote :=
  match host with
  | .macos =>
      match config.macos with
      | none =>
          { subject := text "signing"
            finding := .notConfigured
            detail := text "no sign.macos, so the build ships unsigned" }
      | some macos => macosSigningNote macos environment
  | .windows =>
      match config.windows with
      | none =>
          { subject := text "signing"
            finding := .notConfigured
            detail := text "no sign.windows, so the installer ships unsigned" }
      | some windows => windowsSigningNote windows environment channel
  | .linux =>
      { subject := text "signing"
        finding := .ready
        detail := text "linux ships checksums, which need no identity" }

/-! ### The service -/

def daemonPath (currentDirectory : Text) (daemon : MacosServiceConfig)
    (root : Option Text) : Text :=
  if packages.isAbsolute daemon.binary then daemon.binary
  else packages.join (root.getD currentDirectory) daemon.binary

/-- The formats of the channel install a daemon of this route. -/
def installs (channel : ShipChannel) (route : DarwinServiceRoute) : Bool :=
  match channel, route with
  | .release, .bundled => true
  | .internal, .system => true
  | _, _ => false

def macosServiceNote (currentDirectory : Text) (daemon : MacosServiceConfig)
    (root : Option Text) (channel : ShipChannel) : ProjectNote :=
  let subject := text "service (macos)"
  if !onDisk (daemonPath packages currentDirectory daemon root) then
    { subject
      finding := .missing
      detail := daemon.binary ++
        text " is not on disk, and the bundle embeds it — build the daemon before ship" }
  else if installs channel daemon.route then
    { subject
      finding := .ready
      detail := daemon.plistFileName ++ text "  (" ++
        (match daemon.route with
          | .system => text "system"
          | .bundled => text "bundled") ++ text "; " ++
        (match channel with
          | .release => text "release"
          | .internal => text "internal") ++ text " installs it)" }
  else
    { subject
      finding := .warning
      detail :=
        match channel with
        | .release => text "route: system, and the release channel ships a .dmg, which runs no script — the daemon never installs. Use --channel internal, whose .pkg installs it"
        | .internal => text "route: bundled, and the internal channel signs ad-hoc — SMAppService refuses a daemon without a valid Team ID. Use --channel release with a Developer ID, or route: system" }

def unitNote : Option Text → ProjectNote
  | none =>
      { subject := text "service (linux)"
        finding := .notConfigured
        detail := text "the deb and the rpm install no unit" }
  | some fileName =>
      { subject := text "service (linux)"
        finding := .ready
        detail := fileName }

def daemonNote (currentDirectory : Text) (root : Option Text)
    (channel : ShipChannel) : Option MacosServiceConfig → ProjectNote
  | none =>
      { subject := text "service (macos)"
        finding := .notConfigured
        detail := text "no daemon travels in the bundle" }
  | some daemon =>
      macosServiceNote packages onDisk currentDirectory daemon root channel

def serviceNotes (currentDirectory : Text) (service : Option ServiceConfig)
    (root : Option Text) (channel : ShipChannel) : List ProjectNote :=
  match service with
  | none =>
      [{ subject := text "service"
         finding := .notConfigured
         detail := text "no privileged component is declared, on any platform" }]
  | some service =>
      [unitNote service.unitFileName,
        daemonNote packages onDisk currentDirectory root channel service.macos]

/-! ### The report -/

def versionNote : Option Text → ProjectNote
  | none =>
      { subject := text "version"
        finding := .missing
        detail := text "pubspec.yaml declares none, and ship reads it from there" }
  | some version =>
      { subject := text "version"
        finding := .ready
        detail := version ++ text "  (from pubspec)" }

def of (currentDirectory : Text) (config : Option DovetailConfig)
    (version : Option Text) (host : Host) (environment : Option Environment)
    (root : Option Text) (channel : ShipChannel) : ProjectReport :=
  match config with
  | none =>
      { notes :=
          [{ subject := text "dovetail.yaml"
             finding := .missing
             detail := text "not here or in any parent directory; run dovetail init" }] }
  | some config =>
      { notes :=
          { subject := text "identifier"
            finding := .ready
            detail := config.identifier } ::
          { subject := text "name"
            finding := .ready
            detail := config.name ++ text " by " ++ config.manufacturer } ::
          versionNote version :: targetsNote config host ::
          updateNote packages onDisk config.update root environment channel ::
          signingNote config host environment channel ::
          serviceNotes packages onDisk currentDirectory config.service root
            channel }

end

end ProjectReport

/-! ## The same questions -/

namespace ProjectReport

variable {packages : Packages} {shipment : Shipment}

theorem finding_targetsNote (config : DovetailConfig) (host : Host) :
    (targetsNote config host).finding ≠ .missing := by
  unfold targetsNote
  dsimp only
  split <;> simp

theorem updateKeyRefusals_eq_nil_iff (update : UpdateConfig) :
    ShipPlan.updateKeyRefusals packages shipment update = [] ↔
      keyAbsent packages shipment.onDisk update shipment.root = none ∧
        keyLocked update shipment.environment = none := by
  unfold ShipPlan.updateKeyRefusals
  rw [List.append_eq_nil_iff]
  refine and_congr ?_ ?_
  · unfold keyAbsent keyPathFrom ShipPlan.keyPathFrom
    cases shipment.root with
    | none => simp
    | some root =>
        dsimp only [Option.bind_some]
        split <;> simp
  · unfold keyLocked
    cases shipment.environment with
    | none => simp
    | some environment =>
        dsimp only [Option.bind_some]
        split <;> simp

theorem notarisationRefusals_eq_nil_iff (macos : MacosSigningConfig) :
    ShipPlan.notarisationRefusals shipment macos = [] ↔
      shipment.environment.bind (notarisationGap macos) = none := by
  unfold ShipPlan.notarisationRefusals
  cases shipment.environment with
  | none => simp
  | some environment =>
      have hgaps (gaps : List Text) (detail : Text) :
          (if gaps = [] then none else some detail) = none ↔ gaps = [] := by
        split <;> simp [*]
      simp only [Option.bind_some, notarisationGap]
      rw [hgaps, List.append_eq_nil_iff, List.append_eq_nil_iff]
      refine and_congr ?_ ?_
      · split <;> simp
      · cases NotarytoolArguments.forWhicheverIsConfigured environment with
        | error failure => simp
        | ok configured => cases configured <;> simp

theorem windowsSigningGap_eq_none_iff (windows : WindowsSigningConfig)
    (environment : Environment) :
    windowsSigningGap windows environment = none ↔
      ShipPlan.windowsSigningGap windows environment = none := by
  unfold windowsSigningGap ShipPlan.windowsSigningGap
  split
  · simp
  · split <;> simp

theorem finding_macosServiceNote (currentDirectory : Text)
    (daemon : MacosServiceConfig) (root : Option Text)
    (channel : ShipChannel) (onDisk : Text → Bool) :
    (macosServiceNote packages onDisk currentDirectory daemon root
        channel).finding ≠ .missing ↔
      onDisk (daemonPath packages currentDirectory daemon root) = true := by
  unfold macosServiceNote
  cases onDisk (daemonPath packages currentDirectory daemon root) with
  | false => simp
  | true =>
      simp only [Bool.not_true, Bool.false_eq_true, if_false]
      split <;> simp

/-- The daemon the project declares is there to be embedded. -/
def DaemonBuilt (packages : Packages) (currentDirectory : Text)
    (shipment : Shipment) : Prop :=
  ∀ daemon, shipment.config.macosService = some daemon →
    shipment.onDisk
      (daemonPath packages currentDirectory daemon shipment.root) = true

theorem serviceNotes_iff (currentDirectory : Text) :
    (∀ note ∈ serviceNotes packages shipment.onDisk currentDirectory
        shipment.config.service shipment.root shipment.channel,
        note.finding ≠ .missing) ↔
      DaemonBuilt packages currentDirectory shipment := by
  unfold DaemonBuilt DovetailConfig.macosService serviceNotes
  cases shipment.config.service with
  | none => simp
  | some service =>
      have hunit : (unitNote service.unitFileName).finding ≠ .missing := by
        cases service.unitFileName <;> simp [unitNote]
      rw [List.forall_mem_cons, List.forall_mem_singleton,
        and_iff_right hunit, Option.bind_some]
      cases service.macos with
      | none => simp [daemonNote]
      | some daemon =>
          rw [daemonNote, finding_macosServiceNote]
          simp

theorem finding_updateNote :
    (updateNote packages shipment.onDisk shipment.config.update shipment.root
        shipment.environment shipment.channel).finding ≠ .missing ↔
      ∀ update, shipment.config.update = some update →
        shipment.channel = .release ∧ (update.baseUrl ≠ none →
          update.publicKey ≠ none ∧
            ShipPlan.updateKeyRefusals packages shipment update = []) := by
  simp only [updateKeyRefusals_eq_nil_iff, updateNote]
  cases shipment.config.update with
  | none => simp
  | some update =>
      cases shipment.channel with
      | internal => simp [ShipChannel.isInternal]
      | release =>
          cases hbase : update.baseUrl with
          | none => simp [ShipChannel.isInternal, hbase]
          | some baseUrl =>
              cases hkey : update.publicKey with
              | none => simp [ShipChannel.isInternal, hbase, hkey]
              | some publicKey =>
                  cases habsent : keyAbsent packages shipment.onDisk update
                      shipment.root with
                  | some detail =>
                      simp [ShipChannel.isInternal, hbase, hkey, habsent]
                  | none =>
                      cases hlocked : keyLocked update shipment.environment <;>
                        simp [ShipChannel.isInternal, hbase, hkey, habsent,
                          hlocked]

theorem finding_signingNote_macos {macos : MacosSigningConfig} :
    (macosSigningNote macos shipment.environment).finding ≠ .missing ↔
      (macos.notarize = true →
        ShipPlan.notarisationRefusals shipment macos = []) := by
  rw [notarisationRefusals_eq_nil_iff, macosSigningNote]
  cases macos.notarize with
  | false => simp
  | true =>
      cases shipment.environment.bind (notarisationGap macos) <;> simp

theorem finding_signingNote_windows {windows : WindowsSigningConfig} :
    (windowsSigningNote windows shipment.environment
        shipment.channel).finding ≠ .missing ↔
      (shipment.channel = .release →
        shipment.environment.bind (ShipPlan.windowsSigningGap windows) =
          none) := by
  have hgap : shipment.environment.bind (windowsSigningGap windows) = none ↔
      shipment.environment.bind (ShipPlan.windowsSigningGap windows) =
        none := by
    cases shipment.environment with
    | none => simp
    | some environment => exact windowsSigningGap_eq_none_iff windows environment
  rw [← hgap, windowsSigningNote]
  cases shipment.channel with
  | internal => simp [ShipChannel.isInternal]
  | release =>
      cases shipment.environment.bind (windowsSigningGap windows) <;>
        simp [ShipChannel.isInternal]

/-! ## One answer -/

/-- What `ProjectReport.of` says of a shipment. -/
def reportOf (packages : Packages) (currentDirectory : Text)
    (shipment : Shipment) : ProjectReport :=
  of packages shipment.onDisk currentDirectory (some shipment.config)
    (some shipment.version) shipment.host shipment.environment shipment.root
    shipment.channel

theorem shipCanRelease_reportOf_iff (currentDirectory : Text) :
    (reportOf packages currentDirectory shipment).shipCanRelease = true ↔
      (updateNote packages shipment.onDisk shipment.config.update
          shipment.root shipment.environment shipment.channel).finding ≠
        .missing ∧
      (signingNote shipment.config shipment.host shipment.environment
          shipment.channel).finding ≠ .missing ∧
      DaemonBuilt packages currentDirectory shipment := by
  rw [← serviceNotes_iff]
  simp [reportOf, of, shipCanRelease, versionNote, finding_targetsNote]

end ProjectReport

/-- The shipment the report speaks of: an update section without a base url is
reported as off. -/
def Shipment.reported (shipment : Shipment) : Shipment :=
  if shipment.channel = .release ∧
      shipment.config.update.any (·.baseUrl.isNone) then
    { shipment with config := { shipment.config with update := none } }
  else shipment

/-- Nobody asks an internal build to be notarised without the credentials. -/
def Shipment.Notarisable (shipment : Shipment) : Prop :=
  shipment.channel = .internal → shipment.host = .macos →
    ∀ macos, shipment.config.macos = some macos → macos.notarize = true →
      ShipPlan.notarisationRefusals shipment macos = []

/-- An internal build says how the daemon it installs is installed. -/
def Shipment.Instructed (shipment : Shipment) : Prop :=
  shipment.channel = .internal → shipment.host = .macos →
    ∀ daemon, shipment.config.macosService = some daemon →
      daemon.route = .system → isSet daemon.instructions = true

namespace ShipPlan

variable {packages : Packages} {shipment : Shipment}

theorem refusals_of_eq_ok {plan : ShipPlan}
    (hplan : ShipPlan.of packages shipment = .ok plan) :
    plan.refusals = refusalsOf packages shipment := by
  unfold ShipPlan.of at hplan
  dsimp only at hplan
  split at hplan
  · cases hplan
  · split at hplan
    · cases hplan
    · obtain ⟨plans, -, hplan⟩ := bind_eq_ok_iff.mp hplan
      cases hplan
      rfl

/-- A host with targets, and a base url where there is an update section:
only the bundler is left to refuse. -/
theorem exists_plan_of_bundles
    (hmine : targetsForHost shipment.config shipment.host ≠ [])
    (hbase : ¬ (shipment.channel = .release ∧
      shipment.config.update.any (·.baseUrl.isNone) = true))
    (hbundles : ∀ error, ShipPlan.of packages shipment ≠
      .error (.bundle error)) :
    ∃ plan, ShipPlan.of packages shipment = .ok plan := by
  have hguard : ¬ ((!shipment.channel.isInternal) = true ∧
      shipment.config.update.any (·.baseUrl.isNone) = true) := by
    rintro ⟨hrelease, hnone⟩
    refine hbase ⟨?_, hnone⟩
    cases hchannel : shipment.channel with
    | release => rfl
    | internal => simp [hchannel, ShipChannel.isInternal] at hrelease
  cases hof : ShipPlan.of packages shipment with
  | ok plan => exact ⟨plan, rfl⟩
  | error refusal =>
      have hrefused := hof
      unfold ShipPlan.of at hof
      dsimp only at hof
      rw [if_neg hmine, if_neg hguard] at hof
      cases hgroups : (groups (targetsForHost shipment.config shipment.host)
          shipment.host).mapM (planGroup packages shipment) with
      | ok plans =>
          simp [hgroups, BundleCommand.lift, bind, Except.bind, pure,
            Except.pure] at hof
      | error error =>
          obtain rfl : Refusal.bundle error = refusal := by
            simpa [hgroups, BundleCommand.lift, bind, Except.bind] using hof
          exact absurd hrefused (hbundles error)

/-- Without a base url there is nothing to plan a release step for. -/
theorem of_eq_config_of_unbased
    (hmine : targetsForHost shipment.config shipment.host ≠ [])
    (hchannel : shipment.channel = .release)
    (hbase : shipment.config.update.any (·.baseUrl.isNone) = true) :
    ∃ message remedy,
      ShipPlan.of packages shipment = .error (.config message remedy) := by
  have hrelease : (!shipment.channel.isInternal) = true := by
    simp [ShipChannel.isInternal, hchannel]
  unfold ShipPlan.of
  dsimp only
  rw [if_neg hmine, if_pos ⟨hrelease, hbase⟩]
  exact ⟨_, _, rfl⟩

/-- What the plan refuses apart from a daemon its channel cannot install. -/
theorem refusalsOf_eq_service_iff :
    refusalsOf packages shipment = serviceRefusals shipment ↔
      (internalUpdateRefusals shipment = [] ∧
        publicKeyRefusals shipment = [] ∧
        ∀ update, shipment.config.update = some update →
          shipment.channel = .release →
            updateKeyRefusals packages shipment update = []) ∧
      (∀ macos, shipment.config.macos = some macos →
        shipment.channel = .release → shipment.host = .macos →
          macos.notarize = true → notarisationRefusals shipment macos = []) ∧
      windowsRefusals shipment = [] := by
  have hsplit (before kept first second third fourth : List Text) :
      before ++ kept ++ first ++ second ++ third ++ fourth = kept ↔
        before = [] ∧ first = [] ∧ second = [] ∧ third = [] ∧
          fourth = [] := by
    constructor
    · intro heq
      have hlength := congrArg List.length heq
      simp only [List.length_append] at hlength
      simp only [← List.length_eq_zero_iff]
      omega
    · rintro ⟨rfl, rfl, rfl, rfl, rfl⟩
      simp
  unfold refusalsOf
  dsimp only
  rw [hsplit]
  constructor
  · rintro ⟨hinternal, hkey, hnotarised, hwindows, hkeys⟩
    refine ⟨⟨hinternal, hkey, ?_⟩, ?_, hwindows⟩
    · intro update hupdate hchannel
      simpa [hupdate, hchannel] using hkeys
    · intro macos hmacos hchannel hhost hnotarize
      simpa [hmacos, hchannel, hhost, hnotarize] using hnotarised
  · rintro ⟨⟨hinternal, hkey, hkeys⟩, hnotarised, hwindows⟩
    refine ⟨hinternal, hkey, ?_, hwindows, ?_⟩
    · split
      · rename_i macos hchannel hhost hmacos
        split
        · rename_i hnotarize
          exact hnotarised macos hmacos hchannel hhost hnotarize
        · rfl
      · rfl
    · split
      · rename_i update hchannel hupdate
        exact hkeys update hupdate hchannel
      · rfl

theorem serviceRefusals_of_refusalsOf
    (hnone : refusalsOf packages shipment = []) :
    serviceRefusals shipment = [] := by
  unfold refusalsOf at hnone
  simp only [List.append_eq_nil_iff] at hnone
  obtain ⟨⟨⟨⟨⟨-, hservice⟩, -⟩, -⟩, -⟩, -⟩ := hnone
  exact hservice

theorem windowsRefusals_eq_nil_iff :
    windowsRefusals shipment = [] ↔
      ∀ windows, shipment.config.windows = some windows →
        shipment.host = .windows → shipment.channel = .release →
          shipment.environment.bind (windowsSigningGap windows) = none := by
  unfold windowsRefusals
  constructor
  · intro hnone windows hwindows hhost hchannel
    cases henvironment : shipment.environment with
    | none => rfl
    | some environment =>
        cases hgap : windowsSigningGap windows environment with
        | none => exact hgap
        | some gap =>
            simp [hwindows, hhost, hchannel, henvironment, hgap] at hnone
  · intro hgaps
    split
    · rename_i windows environment hchannel hhost hwindows henvironment
      have hgap := hgaps windows hwindows hhost hchannel
      rw [henvironment, Option.bind_some] at hgap
      rw [hgap]
    · rfl

end ShipPlan

namespace ProjectReport

variable {packages : Packages} {shipment : Shipment}

/-- What the report says of the signature is what the plan refuses. -/
theorem finding_signingNote (hnotarisable : shipment.Notarisable) :
    (signingNote shipment.config shipment.host shipment.environment
        shipment.channel).finding ≠ .missing ↔
      (∀ macos, shipment.config.macos = some macos →
        shipment.channel = .release → shipment.host = .macos →
          macos.notarize = true →
            ShipPlan.notarisationRefusals shipment macos = []) ∧
      ShipPlan.windowsRefusals shipment = [] := by
  rw [ShipPlan.windowsRefusals_eq_nil_iff]
  unfold signingNote
  cases hhost : shipment.host with
  | linux => simp
  | macos =>
      cases hmacos : shipment.config.macos with
      | none => simp
      | some macos =>
          dsimp only
          rw [finding_signingNote_macos]
          cases hchannel : shipment.channel with
          | release => simp
          | internal => simpa using hnotarisable hchannel hhost macos hmacos
  | windows =>
      cases hwindows : shipment.config.windows with
      | none => simp
      | some windows =>
          dsimp only
          rw [finding_signingNote_windows]
          simp

/-- What the report says of the update section is what the plan refuses of the
shipment the report speaks of. -/
theorem finding_updateNote_reported :
    (updateNote packages shipment.onDisk shipment.config.update shipment.root
        shipment.environment shipment.channel).finding ≠ .missing ↔
      ShipPlan.internalUpdateRefusals shipment.reported = [] ∧
        ShipPlan.publicKeyRefusals shipment.reported = [] ∧
        ∀ update, shipment.reported.config.update = some update →
          shipment.reported.channel = .release →
            ShipPlan.updateKeyRefusals packages shipment.reported update =
              [] := by
  rw [finding_updateNote]
  unfold Shipment.reported
  split
  · rename_i hoff
    obtain ⟨hchannel, hany⟩ := hoff
    have hbase : ∀ update, shipment.config.update = some update →
        update.baseUrl = none := by
      intro update hupdate
      simpa [hupdate] using hany
    simp only [ShipPlan.internalUpdateRefusals, ShipPlan.publicKeyRefusals,
      Option.isSome_none, Option.any_none, Bool.false_eq_true, and_false,
      if_false, reduceCtorEq, false_implies, implies_true, and_self, iff_true]
    intro update hupdate
    exact ⟨hchannel, fun hsome => absurd (hbase update hupdate) hsome⟩
  · rename_i hon
    cases hupdate : shipment.config.update with
    | none =>
        simp [ShipPlan.internalUpdateRefusals, ShipPlan.publicKeyRefusals,
          hupdate]
    | some update =>
        cases hchannel : shipment.channel with
        | internal =>
            simp [ShipPlan.internalUpdateRefusals, hupdate, hchannel,
              ShipChannel.isInternal]
        | release =>
            have hbase : update.baseUrl ≠ none := by
              intro hnone
              exact hon ⟨hchannel, by simp [hupdate, hnone]⟩
            simp [ShipPlan.internalUpdateRefusals,
              ShipPlan.publicKeyRefusals, hupdate, hchannel,
              ShipChannel.isInternal, hbase]

end ProjectReport

namespace Shipment

variable {shipment : Shipment}

/-- The report speaks of the same daemon and the same credentials. -/
theorem reported_rest :
    shipment.reported.config.macos = shipment.config.macos ∧
      shipment.reported.channel = shipment.channel ∧
      shipment.reported.host = shipment.host ∧
      ShipPlan.notarisationRefusals shipment.reported =
        ShipPlan.notarisationRefusals shipment ∧
      ShipPlan.windowsRefusals shipment.reported =
        ShipPlan.windowsRefusals shipment ∧
      ShipPlan.serviceRefusals shipment.reported =
        ShipPlan.serviceRefusals shipment ∧
      ShipPlan.targetsForHost shipment.reported.config
          shipment.reported.host =
        ShipPlan.targetsForHost shipment.config shipment.host := by
  unfold reported
  split <;> exact ⟨rfl, rfl, rfl, rfl, rfl, rfl, rfl⟩

theorem reported_based :
    ¬ (shipment.reported.channel = .release ∧
      shipment.reported.config.update.any (·.baseUrl.isNone) = true) := by
  unfold reported
  split
  · simp
  · rename_i hon
    exact hon

/-- The daemon is one that no installer of the channel installs. -/
def Uninstallable (shipment : Shipment) : Prop :=
  shipment.host = .macos ∧ ∃ daemon,
    shipment.config.macosService = some daemon ∧
      ProjectReport.installs shipment.channel daemon.route = false

theorem uninstallable_of_serviceRefusals
    (hinstructed : shipment.Instructed)
    (hrefused : ShipPlan.serviceRefusals shipment ≠ []) :
    shipment.Uninstallable := by
  unfold ShipPlan.serviceRefusals at hrefused
  split at hrefused
  · rename_i daemon hhost hdaemon
    refine ⟨hhost, daemon, hdaemon, ?_⟩
    split at hrefused
    · rename_i hchannel hroute
      rw [hchannel, hroute]
      rfl
    · exact absurd rfl hrefused
    · rename_i hchannel hroute
      rw [hchannel, hroute]
      rfl
    · rename_i hchannel hroute
      rw [if_pos (hinstructed hchannel hhost daemon hdaemon hroute)] at hrefused
      exact absurd rfl hrefused
  · exact absurd rfl hrefused

end Shipment

/-- The report lets a project through exactly when its daemon was built and
the plan refuses nothing, or nothing but a daemon no installer of the channel
installs. -/
theorem shipCanRelease_iff (packages : Packages) (currentDirectory : Text)
    (shipment : Shipment)
    (hmine : ShipPlan.targetsForHost shipment.config shipment.host ≠ [])
    (hbundles : ∀ error, ShipPlan.of packages shipment.reported ≠
      .error (.bundle error))
    (hnotarisable : shipment.Notarisable)
    (hinstructed : shipment.Instructed) :
    (ProjectReport.reportOf packages currentDirectory
        shipment).shipCanRelease = true ↔
      ProjectReport.DaemonBuilt packages currentDirectory shipment ∧
        ∃ plan, ShipPlan.of packages shipment.reported = .ok plan ∧
          (plan.refusals = [] ∨ shipment.Uninstallable ∧
            plan.refusals = ShipPlan.serviceRefusals shipment) := by
  obtain ⟨hmacos, hchannel, hhost, hnotarisation, hwindows, hservice,
    htargets⟩ := @Shipment.reported_rest shipment
  have hmine : ShipPlan.targetsForHost shipment.reported.config
      shipment.reported.host ≠ [] := by rwa [htargets]
  obtain ⟨plan, hplan⟩ := ShipPlan.exists_plan_of_bundles hmine
    Shipment.reported_based hbundles
  have hrefusals := ShipPlan.refusals_of_eq_ok hplan
  have hreport : (ProjectReport.reportOf packages currentDirectory
        shipment).shipCanRelease = true ↔
      ProjectReport.DaemonBuilt packages currentDirectory shipment ∧
        plan.refusals = ShipPlan.serviceRefusals shipment := by
    rw [ProjectReport.shipCanRelease_reportOf_iff,
      ProjectReport.finding_updateNote_reported,
      ProjectReport.finding_signingNote hnotarisable, hrefusals, ← hservice,
      ShipPlan.refusalsOf_eq_service_iff, hmacos, hchannel, hhost,
      hnotarisation, hwindows]
    tauto
  rw [hreport]
  refine and_congr_right fun _ => ⟨fun hkept => ⟨plan, hplan, ?_⟩, ?_⟩
  · by_cases hnone : ShipPlan.serviceRefusals shipment = []
    · exact Or.inl (hkept.trans hnone)
    · exact Or.inr ⟨Shipment.uninstallable_of_serviceRefusals hinstructed
        hnone, hkept⟩
  · rintro ⟨found, hfound, hnothing | ⟨-, hkept⟩⟩
    · obtain rfl : plan = found := Except.ok.inj (hplan.symm.trans hfound)
      rw [hnothing, ← hservice]
      exact (ShipPlan.serviceRefusals_of_refusalsOf
        (hrefusals.symm.trans hnothing)).symm
    · obtain rfl : plan = found := Except.ok.inj (hplan.symm.trans hfound)
      exact hkept

/-! ## One project, three ways -/

def daemon (route : DarwinServiceRoute) : MacosServiceConfig where
  label := text "com.demo.d"
  program := text "d"
  binary := text "d"
  arguments := []
  route
  instructions := none

/-- A disk image of a project with an update section and a daemon. -/
def macosShipment (update : Option UpdateConfig)
    (service : Option MacosServiceConfig) (onDisk : Bool) : Shipment where
  config :=
    { identifier := text "com.demo"
      name := text "Demo"
      manufacturer := text "Demo"
      targets := [text "darwin-aarch64"]
      targets_valid := by decide
      update
      macos := none
      windows := none
      service := service.map fun daemon => ⟨none, some daemon⟩ }
  version := text "1.2.3"
  host := .macos
  binary := text "demo"
  build := true
  windowsFormat := none
  environment := some fun _ => none
  channel := .release
  root := some (text "/p")
  onDisk _ := onDisk

def unpublished : UpdateConfig where
  keyPath := text "k"
  passwordEnv := text "P"
  publicKey := none
  baseUrl := none
  manifestPath := text "m"
  unencrypted := true

theorem exists_plan_of_macosShipment (route : DarwinServiceRoute)
    (onDisk : Bool) :
    ∃ plan, ShipPlan.of slashed
      (macosShipment none (some (daemon route)) onDisk) = .ok plan := by
  have hok : (ShipPlan.of slashed
      (macosShipment none (some (daemon route)) onDisk)).isOk = true := by
    cases route <;> cases onDisk <;> decide
  cases hof : ShipPlan.of slashed
      (macosShipment none (some (daemon route)) onDisk) with
  | error refusal => rw [hof] at hok; cases hok
  | ok plan => exact ⟨plan, rfl⟩

/-- A daemon that wants an installer, in an image that has none. -/
theorem shipCanRelease_iff_system :
    (ProjectReport.reportOf slashed []
        (macosShipment none (some (daemon .system)) true)).shipCanRelease =
        true ↔
      ProjectReport.DaemonBuilt slashed []
        (macosShipment none (some (daemon .system)) true) ∧
        ∃ plan, ShipPlan.of slashed
          (macosShipment none (some (daemon .system)) true).reported =
            .ok plan ∧
          (plan.refusals = [] ∨
            (macosShipment none (some (daemon .system)) true).Uninstallable ∧
              plan.refusals = ShipPlan.serviceRefusals
                (macosShipment none (some (daemon .system)) true)) := by
  refine shipCanRelease_iff slashed [] _ (by decide) ?_ ?_ ?_
  · intro error herror
    obtain ⟨plan, hplan⟩ := exists_plan_of_macosShipment .system true
    have hreported : (macosShipment none (some (daemon .system))
        true).reported = macosShipment none (some (daemon .system)) true := rfl
    rw [hreported, hplan] at herror
    cases herror
  · intro hinternal
    cases hinternal
  · intro hinternal
    cases hinternal

/-- The report warns and the plan refuses, the report says off and the plan
throws, and the report misses a daemon the plan does not look for. -/
theorem not_shipCanRelease_iff_refusals :
    ((ProjectReport.reportOf slashed []
        (macosShipment none (some (daemon .system)) true)).shipCanRelease =
          true ∧
      ∃ plan, ShipPlan.of slashed
        (macosShipment none (some (daemon .system)) true) = .ok plan ∧
          plan.refusals ≠ []) ∧
    ((ProjectReport.reportOf slashed []
        (macosShipment (some unpublished) none true)).shipCanRelease = true ∧
      ∃ message remedy, ShipPlan.of slashed
        (macosShipment (some unpublished) none true) =
          .error (.config message remedy)) ∧
    ((ProjectReport.reportOf slashed []
        (macosShipment none (some (daemon .bundled)) false)).shipCanRelease =
          false ∧
      ∃ plan, ShipPlan.of slashed
        (macosShipment none (some (daemon .bundled)) false) = .ok plan ∧
          plan.refusals = []) := by
  refine ⟨⟨by decide, ?_⟩, ⟨by decide, ?_⟩,
    by decide, ?_⟩
  · obtain ⟨plan, hplan⟩ := exists_plan_of_macosShipment .system true
    refine ⟨plan, hplan, ?_⟩
    rw [ShipPlan.refusals_of_eq_ok hplan]
    intro hnone
    cases ShipPlan.serviceRefusals_of_refusalsOf hnone
  · exact ShipPlan.of_eq_config_of_unbased (by decide) rfl rfl
  · obtain ⟨plan, hplan⟩ := exists_plan_of_macosShipment .bundled false
    refine ⟨plan, hplan, ?_⟩
    rw [ShipPlan.refusals_of_eq_ok hplan]
    rfl

end Dovetail.Cli.Ship
