import Dovetail.CliSign

/-!
# The sign steps of a plan

A plan asks about the credentials before anything is built, and each of its
sign steps decides about them again with what the project has put into the
environment.  The two agree as long as the certificate of a Windows host comes
with a key or a password, which the plan does not ask for.
-/

namespace Dovetail.Cli.Ship

open CodeUnits CommandOptions FallibleSteps Signer SignCommand

section

variable {packages : Packages} {shipment : Shipment}

/-! ## What a sign step is handed -/

def requires (shipment : Shipment) : List (Argument SignOption) :=
  if shipment.host = .windows ∧ !shipment.channel.isInternal ∧
      shipment.config.windows.isSome then [.flag .requireSignature]
  else []

/-- Whether the project declares `notarize: true`. -/
def notarises (config : DovetailConfig) : Bool :=
  (config.macos.map (·.notarize)).getD false

def submits (shipment : Shipment) : List (Argument SignOption) :=
  if notarises shipment.config then
    [.flag .requireSignature, .flag .notarize]
  else []

/-- The arguments of the sign steps on the release channel. -/
inductive Handed (packages : Packages) (shipment : Shipment) :
    List (Argument SignOption) → Prop
  | bundle (hhost : shipment.host = .macos) :
      Handed packages shipment
        (.valued .target shipment.host.name ::
          .valued .bundle (ShipPlan.builtBundleFor packages shipment) ::
          (((shipment.config.macos.bind (·.entitlements)).elim []
            fun entitlements => [.valued .entitlements entitlements]) ++
            submits shipment))
  | container (artifact : Text) (hhost : shipment.host = .macos) :
      Handed packages shipment
        (.valued .target shipment.host.name :: .valued .file artifact ::
          submits shipment)
  | payload (directory : Text) (hhost : shipment.host ≠ .macos) :
      Handed packages shipment
        (.valued .target shipment.host.name ::
          .valued .directory directory :: requires shipment)
  | installer (artifact : Text) (hhost : shipment.host = .windows) :
      Handed packages shipment
        (.valued .target shipment.host.name :: .valued .file artifact ::
          requires shipment)
  | checksums (artifact : Text) (hhost : shipment.host = .linux) :
      Handed packages shipment
        [.valued .target shipment.host.name, .valued .file artifact,
          .valued .outDir outputDirectory]

theorem words_append {Name : Type} (options : Options Name)
    (before after : List (Argument Name)) :
    words options (before ++ after) =
      words options before ++ words options after := by
  induction before with
  | nil => rfl
  | cons argument rest ih =>
      cases argument <;> simp [words, ih]

theorem words_requireSignature :
    words options (ShipPlan.requireSignature shipment) =
      words signOptions (requires shipment) := by
  unfold ShipPlan.requireSignature requires
  split <;> rfl

theorem words_notarize :
    words options (ShipPlan.notarize shipment) =
      words signOptions (submits shipment) := by
  unfold ShipPlan.notarize submits notarises
  split <;> rfl

/-- A step that is handed these arguments. -/
def Hands (packages : Packages) (shipment : Shipment) (step : ShipStep) :
    Prop :=
  ∃ arguments, step.arguments = words signOptions arguments ∧
    Handed packages shipment arguments

theorem hands_signingPayload (hhost : shipment.host ≠ .macos) (label : Text) :
    Hands packages shipment (ShipPlan.signingPayload shipment label) := by
  refine ⟨_, ?_, .payload (FlutterBuild.outputOf shipment.host
    (ShipPlan.releaseBuild shipment)) hhost⟩
  unfold ShipPlan.signingPayload
  simp only [words, words_requireSignature]
  rfl

theorem words_signingContainer (artifact label : Text) :
    (ShipPlan.signingContainer shipment artifact label).arguments =
      words signOptions (.valued .target shipment.host.name ::
        .valued .file artifact :: submits shipment) := by
  unfold ShipPlan.signingContainer
  simp only [words, words_notarize]
  rfl

theorem words_signing_macos (hhost : shipment.host = .macos)
    (hchannel : shipment.channel = .release) (artifact label : Text) :
    (ShipPlan.signing packages shipment artifact label).arguments =
      words signOptions (.valued .target shipment.host.name ::
        .valued .bundle (ShipPlan.builtBundleFor packages shipment) ::
        (((shipment.config.macos.bind (·.entitlements)).elim []
          fun entitlements => [.valued .entitlements entitlements]) ++
          submits shipment)) := by
  unfold ShipPlan.signing ShipPlan.signsBundle
  simp only [hhost, hchannel, ShipChannel.isInternal, reduceCtorEq,
    decide_false, Bool.false_eq_true, if_false, List.cons_append, words,
    words_append, words_notarize]
  cases shipment.config.macos.bind (·.entitlements) <;> rfl

theorem words_signing_windows (hhost : shipment.host = .windows)
    (artifact label : Text) :
    (ShipPlan.signing packages shipment artifact label).arguments =
      words signOptions (.valued .target shipment.host.name ::
        .valued .file artifact :: requires shipment) := by
  unfold ShipPlan.signing
  simp only [hhost, words, words_requireSignature]
  rfl

theorem hands_signing (hchannel : shipment.channel = .release)
    (artifact label : Text) :
    Hands packages shipment
      (ShipPlan.signing packages shipment artifact label) := by
  cases hhost : shipment.host with
  | macos =>
      exact ⟨_, words_signing_macos hhost hchannel artifact label,
        .bundle hhost⟩
  | windows =>
      exact ⟨_, words_signing_windows hhost artifact label,
        .installer artifact hhost⟩
  | linux =>
      refine ⟨_, ?_, .checksums artifact hhost⟩
      unfold ShipPlan.signing
      simp only [hhost]
      rfl

/-- Every sign step of a plan for the release channel is handed one of the
lists of arguments. -/
theorem hands_of_madeOf {plan : ShipPlan} {plans : List ShipPlan.GroupPlan}
    (hmade : MadeOf packages shipment plan plans)
    (hchannel : shipment.channel = .release) :
    ∀ step ∈ plan.steps, step.command = text "sign" →
      Hands packages shipment step := by
  intro step hstep hsign
  have hbundle : text "bundle" ≠ text "sign" := by decide
  rw [hmade.steps] at hstep
  simp only [List.mem_append] at hstep
  rcases hstep with (hbuild | hgroups) | hrelease
  · have hbuild : step.command = text "build" := command_building step hbuild
    rw [hbuild] at hsign
    exact absurd hsign (by decide)
  · obtain ⟨part, hpart, hmem⟩ := List.mem_flatMap.mp hgroups
    obtain ⟨group, -, hplanned⟩ := hmade.groups part hpart
    have hthinned : step ∉ thinned packages shipment group := by
      unfold thinned
      split
      · intro hmem
        rw [List.mem_singleton.mp hmem] at hsign
        exact hbundle hsign
      · simp
    have hbundled (title : Text) (format : MacosFormat) :
        step ≠ bundled packages shipment group title format := by
      rintro rfl
      exact hbundle hsign
    cases hplanned with
    | macosInternal _ hinternal _ =>
        rw [hchannel] at hinternal
        cases hinternal
    | macosRelease hhost _ hname harchive =>
        simp only [List.mem_append, hthinned, List.mem_cons, hbundled,
          List.not_mem_nil, or_false, false_or] at hmem
        rcases hmem with rfl | rfl
        · exact hands_signing hchannel _ _
        · exact ⟨_, words_signingContainer _ _, .container _ hhost⟩
    | other hhost hname hpayload =>
        simp only [List.mem_append, List.mem_cons, hbundled,
          List.not_mem_nil, or_false, false_or] at hmem
        rcases hmem with hmem | rfl
        · rcases hpayload with rfl | rfl
          · cases hmem
          · rw [List.mem_singleton.mp hmem]
            exact hands_signingPayload hhost _
        · exact hands_signing hchannel _ _
  · split at hrelease
    · rw [List.mem_singleton.mp hrelease] at hsign
      have hother : text "release" ≠ text "sign" := by decide
      exact absurd hsign hother
    · cases hrelease

/-- A plan for the release channel signs what each group is shipped in. -/
theorem exists_signing_of_madeOf {plan : ShipPlan}
    {plans : List ShipPlan.GroupPlan}
    (hmade : MadeOf packages shipment plan plans)
    (hchannel : shipment.channel = .release) :
    ∃ artifact label,
      ShipPlan.signing packages shipment artifact label ∈ plan.steps := by
  obtain ⟨part, rest, hplans⟩ := List.exists_cons_of_ne_nil hmade.nonempty
  have hpart : part ∈ plans := hplans ▸ List.mem_cons_self
  obtain ⟨group, -, hplanned⟩ := hmade.groups part hpart
  have hmem : ∀ step ∈ part.steps, step ∈ plan.steps := by
    intro step hstep
    rw [hmade.steps, List.mem_append, List.mem_append]
    exact .inl (.inr (List.mem_flatMap.mpr ⟨part, hpart, hstep⟩))
  cases hplanned with
  | macosInternal _ hinternal _ =>
      rw [hchannel] at hinternal
      cases hinternal
  | @macosRelease name =>
      exact ⟨_, _, hmem (signed packages shipment group name) (by simp)⟩
  | @other name =>
      exact ⟨_, _, hmem (signed packages shipment group name) (by simp)⟩

/-! ## What the sign command reads of it -/

variable {arguments : List (Argument SignOption)}

theorem fitting_of_handed (hhanded : Handed packages shipment arguments) :
    ∀ argument ∈ arguments, Fitting signOptions argument := by
  have hrequires : ∀ argument ∈ requires shipment,
      Fitting signOptions argument := by
    unfold requires
    split <;> simp [Fitting, signOptions, SignOption.isFlag]
  have hsubmits : ∀ argument ∈ submits shipment,
      Fitting signOptions argument := by
    unfold submits
    split <;> simp [Fitting, signOptions, SignOption.isFlag]
  have hentitlements (entitlements : Option Text) :
      ∀ argument ∈ entitlements.elim [] fun entitlements =>
        [Argument.valued SignOption.entitlements entitlements],
        Fitting signOptions argument := by
    cases entitlements <;> simp [Fitting, signOptions, SignOption.isFlag]
  cases hhanded with
  | bundle hhost =>
      simp only [List.forall_mem_cons, List.forall_mem_append]
      exact ⟨rfl, rfl, hentitlements _, hsubmits⟩
  | container artifact hhost =>
      simp only [List.forall_mem_cons]
      exact ⟨rfl, rfl, hsubmits⟩
  | payload directory hhost =>
      simp only [List.forall_mem_cons]
      exact ⟨rfl, rfl, hrequires⟩
  | installer artifact hhost =>
      simp only [List.forall_mem_cons]
      exact ⟨rfl, rfl, hrequires⟩
  | checksums artifact hhost =>
      simp [Fitting, signOptions, SignOption.isFlag]

theorem given_requires (name : SignOption) :
    given (requires shipment) name = [] := by
  unfold requires
  split <;> simp

theorem given_submits (name : SignOption) :
    given (submits shipment) name = [] := by
  unfold submits
  split <;> simp

theorem given_entitlements (entitlements : Option Text) (name : SignOption)
    (hname : name ≠ .entitlements) :
    given (entitlements.elim [] fun entitlements =>
      [Argument.valued SignOption.entitlements entitlements]) name = [] := by
  cases entitlements <;> simp [hname.symm]

theorem single_target_of_handed (hhanded : Handed packages shipment arguments) :
    single arguments .target = some shipment.host.name := by
  cases hhanded <;>
    simp [CommandOptions.single, given_requires, given_submits, given_entitlements]

theorem unnamed_of_handed (hhanded : Handed packages shipment arguments) :
    Unnamed arguments := by
  refine ⟨?_, ?_, ?_⟩
  all_goals
    cases hhanded <;>
      simp [CommandOptions.single, given_requires, given_submits, given_entitlements]

theorem flag_not_mem_entitlements (entitlements : Option Text)
    (name : SignOption) :
    Argument.flag name ∉ entitlements.elim [] fun entitlements =>
      [Argument.valued SignOption.entitlements entitlements] := by
  cases entitlements <;> simp

/-- On macOS the step asks for a notarisation where the project does. -/
theorem flagged_of_handed (hhost : shipment.host = .macos)
    (hhanded : Handed packages shipment arguments) :
    flagged arguments .adHoc = false ∧
      flagged arguments .notarize = notarises shipment.config ∧
      flagged arguments .requireSignature = notarises shipment.config := by
  cases hhanded with
  | bundle =>
      cases hnotarises : notarises shipment.config <;>
        simp [flagged, submits, hnotarises, flag_not_mem_entitlements]
  | container artifact =>
      cases hnotarises : notarises shipment.config <;>
        simp [flagged, submits, hnotarises]
  | payload directory hother => exact absurd hhost hother
  | installer artifact hother => rw [hhost] at hother; cases hother
  | checksums artifact hother => rw [hhost] at hother; cases hother

theorem single_bundle (path : Text) :
    CommandOptions.single (.valued .target shipment.host.name ::
      .valued .bundle path ::
      (((shipment.config.macos.bind (·.entitlements)).elim []
        fun entitlements => [.valued .entitlements entitlements]) ++
        submits shipment)) SignOption.bundle = some path := by
  simp [CommandOptions.single, given_submits, given_entitlements]

theorem multi_file (path : Text) :
    multi (.valued .target shipment.host.name :: .valued .bundle path ::
      (((shipment.config.macos.bind (·.entitlements)).elim []
        fun entitlements => [.valued .entitlements entitlements]) ++
        submits shipment)) SignOption.file = [] := by
  simp [multi, given_submits, given_entitlements]

theorem macos_of_bundle {tools : SignTools} {config : Option DovetailConfig}
    {environment : Environment} {bundle : Text}
    (hadHoc : flagged arguments .adHoc = false)
    (hbundle : CommandOptions.single arguments .bundle = some bundle)
    (hfiles : multi arguments .file = []) :
    macos tools config arguments environment =
      macosBundle tools arguments (withIdentityFromConfig environment config)
        bundle := by
  unfold macos
  rw [hadHoc, hbundle, hfiles]
  rfl

/-- The part of the command for a host. -/
def signedOn (host : Host) (tools : SignTools)
    (config : Option DovetailConfig) (arguments : List (Argument SignOption))
    (environment : Environment) : Except SignRefusal SignEnding :=
  match host with
  | .macos => macos tools config arguments environment
  | .windows => windows tools config arguments environment
  | .linux => linux tools arguments

theorem signedOn_macos {host : Host} (hhost : host = .macos)
    (tools : SignTools) (config : Option DovetailConfig)
    (arguments : List (Argument SignOption)) (environment : Environment) :
    signedOn host tools config arguments environment =
      macos tools config arguments environment := by
  rw [hhost]
  rfl

theorem signedOn_windows {host : Host} (hhost : host = .windows)
    (tools : SignTools) (config : Option DovetailConfig)
    (arguments : List (Argument SignOption)) (environment : Environment) :
    signedOn host tools config arguments environment =
      windows tools config arguments environment := by
  rw [hhost]
  rfl

theorem run_of_hands {step : ShipStep} (tools : SignTools)
    (config : Option DovetailConfig) (environment : Environment)
    (hwords : step.arguments = words signOptions arguments)
    (hhanded : Handed packages shipment arguments) :
    SignCommand.run tools config environment step.arguments =
      signedOn shipment.host tools config arguments environment := by
  unfold SignCommand.run SignCommand.sign
  rw [hwords, parse_words signOptions (fitting_of_handed hhanded)]
  dsimp only
  rw [single_target_of_handed hhanded, Option.getD_some, read_name]
  cases shipment.host <;> rfl

/-! ## The credentials of a host -/

section

variable (config : DovetailConfig) (environment : Environment)

/-- A certificate in a file, under its own name or the one of the project. -/
def certificateNamed : Bool :=
  isSet (environment (text "WINDOWS_CERTIFICATE_FILE")) ||
    config.windows.any fun windows => isSet (environment windows.certificateEnv)

def timestampNamed : Bool :=
  isSet (environment (text "WINDOWS_TIMESTAMP_URL")) ||
    config.windows.any fun windows => isSet windows.timestampUrl

/-- A password that is not empty. -/
def passwordNamed : Bool :=
  decide (environment OsslsigncodeCredentials.passwordVariable ∉
      [none, some []]) ||
    config.windows.any fun windows => isSet (environment windows.passwordEnv)

/-- A key of its own that is not blank, or else a password. -/
def keyNamed : Bool :=
  match environment OsslsigncodeCredentials.privateKeyVariable with
  | some key => !(trim key).isEmpty
  | none => passwordNamed config environment

/-- Away from Windows, and wherever a certificate file is spoken of, the file
is signed with; the store of Windows needs neither a key nor a password. -/
def windowsNamed (isWindows : Bool) : Bool :=
  if !isWindows ∨ (environment (text "WINDOWS_CERTIFICATE_FILE")).isSome ∨
      certificateNamed config environment then
    certificateNamed config environment &&
      timestampNamed config environment && keyNamed config environment
  else
    isSet (environment (text "WINDOWS_CERTIFICATE_THUMBPRINT")) &&
      timestampNamed config environment

/-- The identity of the environment or the one the project names. -/
def identityNamed : Bool :=
  isSet (environment (text "APPLE_SIGNING_IDENTITY")) ||
    config.macos.any fun macos => isSet (environment macos.identityEnv)

/-- The sign steps of a plan nobody refuses have what they need. -/
def credentialsReady (host : Host) (isWindows : Bool) : Bool :=
  match host with
  | .macos => notarises config || identityNamed config environment
  | .windows => windowsNamed config environment isWindows
  | .linux => true

end

theorem fill_of_ne (environment : Environment) (name : Text)
    (value : Option Text) {other : Text} (hother : other ≠ name) :
    fill environment name value other = environment other := by
  unfold fill
  split
  · exact Function.update_of_ne hother _ _
  · rfl

theorem fill_self (environment : Environment) (name : Text)
    (value : Option Text) :
    fill environment name value name =
      if isSet (environment name) then environment name
      else value.or (environment name) := by
  unfold fill
  cases hset : isSet (environment name) <;> cases value <;>
    simp [Option.or]

theorem isSet_fill (environment : Environment) (name : Text)
    (value : Option Text) :
    isSet (fill environment name value name) =
      (isSet (environment name) || isSet value) := by
  rw [fill_self]
  cases hset : isSet (environment name) with
  | true => simp [hset]
  | false =>
      cases value with
      | none => simpa [isSet] using hset
      | some value => simp

theorem isSet_ifSet (value : Option Text) :
    isSet (ifSet value) = isSet value := by
  unfold ifSet
  cases hset : isSet value with
  | true => simp [hset]
  | false => rfl

theorem isSome_fill_ifSet (environment : Environment) (name : Text)
    (value : Option Text) :
    (fill environment name (ifSet value) name).isSome =
      ((environment name).isSome || isSet value) := by
  rw [fill_self]
  cases hvalue : isSet value with
  | false => simp [ifSet, hvalue]
  | true =>
      have hsome : value.isSome = true := by
        cases value with
        | none => cases hvalue
        | some value => rfl
      cases hset : isSet (environment name) with
      | false => simp [ifSet, hvalue, hsome]
      | true =>
          cases hown : environment name with
          | none => simp [hown, isSet] at hset
          | some own => simp

theorem fill_password (environment : Environment) (name : Text)
    (value : Option Text) :
    decide (fill environment name (ifSet value) name ∉ [none, some []]) =
      (decide (environment name ∉ [none, some []]) || isSet value) := by
  have hgiven {other : Option Text} (hset : isSet other = true) :
      other ∉ [none, some []] := by
    rintro hmem
    simp only [List.mem_cons, List.not_mem_nil, or_false] at hmem
    rcases hmem with rfl | rfl <;> cases hset
  rw [fill_self]
  cases hset : isSet (environment name) with
  | true => simp [hgiven hset]
  | false =>
      cases hvalue : isSet value with
      | false => simp [ifSet, hvalue]
      | true =>
          cases value with
          | none => cases hvalue
          | some value => simp [ifSet, hvalue, hgiven hvalue]

/-- What the sign command reads once the project has named its variables. -/
structure Rewritten (config : DovetailConfig) (before after : Environment) :
    Prop where
  certificate : isSet (after (text "WINDOWS_CERTIFICATE_FILE")) =
    certificateNamed config before
  spoken : (after (text "WINDOWS_CERTIFICATE_FILE")).isSome =
    ((before (text "WINDOWS_CERTIFICATE_FILE")).isSome ||
      certificateNamed config before)
  thumbprint : after (text "WINDOWS_CERTIFICATE_THUMBPRINT") =
    before (text "WINDOWS_CERTIFICATE_THUMBPRINT")
  key : after OsslsigncodeCredentials.privateKeyVariable =
    before OsslsigncodeCredentials.privateKeyVariable
  password : decide (after OsslsigncodeCredentials.passwordVariable ∉
    [none, some []]) = passwordNamed config before
  timestamp : certificateNamed config before = true ∨
      isSet (before (text "WINDOWS_CERTIFICATE_THUMBPRINT")) = true →
    isSet (after (text "WINDOWS_TIMESTAMP_URL")) =
      timestampNamed config before

theorem isSome_of_isSet {value : Option Text} (hset : isSet value = true) :
    value.isSome = true := by
  cases value with
  | none => cases hset
  | some value => rfl

theorem rewritten (config : DovetailConfig) (environment : Environment) :
    Rewritten config environment
      (withWindowsFromConfig environment (some config)) := by
  have hnames : [text "WINDOWS_CERTIFICATE_FILE",
      OsslsigncodeCredentials.passwordVariable, text "WINDOWS_TIMESTAMP_URL",
      text "WINDOWS_CERTIFICATE_THUMBPRINT",
      OsslsigncodeCredentials.privateKeyVariable].Nodup := by
    decide
  simp only [List.nodup_cons, List.mem_cons, List.not_mem_nil, or_false,
    not_or, not_false_eq_true, and_true, List.nodup_nil] at hnames
  obtain ⟨⟨hfp, hft, hfh, hfk⟩, ⟨hpt, hph, hpk⟩, ⟨hth, htk⟩, hhk⟩ := hnames
  unfold withWindowsFromConfig
  cases hwindows : config.windows with
  | none =>
      simp only [Option.bind_some, hwindows]
      refine ⟨?_, ?_, rfl, rfl, ?_, fun _ => ?_⟩
      · simp [certificateNamed, hwindows]
      · cases hset : isSet (environment (text "WINDOWS_CERTIFICATE_FILE")) with
        | false => simp [certificateNamed, hwindows, hset]
        | true => simp [isSome_of_isSet hset]
      · simp [passwordNamed, hwindows]
      · simp [timestampNamed, hwindows]
  | some windows =>
      simp only [Option.bind_some, hwindows]
      generalize hfiled : fill environment (text "WINDOWS_CERTIFICATE_FILE")
        (ifSet (environment windows.certificateEnv)) = filed
      generalize hopened : fill filed
        OsslsigncodeCredentials.passwordVariable
        (ifSet (environment windows.passwordEnv)) = opened
      have hfile : opened (text "WINDOWS_CERTIFICATE_FILE") =
          filed (text "WINDOWS_CERTIFICATE_FILE") := by
        rw [← hopened, fill_of_ne _ _ _ hfp]
      have hother (name : Text) (hname : name ≠ text "WINDOWS_CERTIFICATE_FILE")
          (hsecret : name ≠ OsslsigncodeCredentials.passwordVariable) :
          opened name = environment name := by
        rw [← hopened, fill_of_ne _ _ _ hsecret, ← hfiled,
          fill_of_ne _ _ _ hname]
      have hset : isSet (opened (text "WINDOWS_CERTIFICATE_FILE")) =
          certificateNamed config environment := by
        rw [hfile, ← hfiled, isSet_fill, isSet_ifSet]
        simp [certificateNamed, hwindows]
      -- Only the time stamp depends on whether there is a certificate.
      have hkept (name : Text) (hname : name ≠ text "WINDOWS_TIMESTAMP_URL") :
          (if isSet (opened (text "WINDOWS_CERTIFICATE_FILE")) = true ∨
              isSet (opened (text "WINDOWS_CERTIFICATE_THUMBPRINT")) = true
            then fill opened (text "WINDOWS_TIMESTAMP_URL")
              windows.timestampUrl
            else opened) name = opened name := by
        split
        · exact fill_of_ne _ _ _ hname
        · rfl
      constructor
      · rw [hkept _ hft, hset]
      · rw [hkept _ hft, hfile, ← hfiled, isSome_fill_ifSet]
        cases hown : isSet (environment (text "WINDOWS_CERTIFICATE_FILE")) with
        | false => simp [certificateNamed, hwindows, hown]
        | true => simp [isSome_of_isSet hown]
      · rw [hkept _ (Ne.symm hth), hother _ (Ne.symm hfh) (Ne.symm hph)]
      · rw [hkept _ (Ne.symm htk), hother _ (Ne.symm hfk) (Ne.symm hpk)]
      · rw [hkept _ hpt, ← hopened, fill_password, ← hfiled,
          fill_of_ne _ _ _ (Ne.symm hfp)]
        simp [passwordNamed, hwindows]
      · intro hcertified
        rw [hset, hother _ (Ne.symm hfh) (Ne.symm hph), if_pos hcertified,
          isSet_fill, hother _ (Ne.symm hft) (Ne.symm hpt)]
        simp [timestampNamed, hwindows]

theorem windowsReady_rewritten (config : DovetailConfig)
    (environment : Environment) (isWindows : Bool) :
    windowsReady isWindows
        (withWindowsFromConfig environment (some config)) =
      windowsNamed config environment isWindows := by
  have hrewritten := rewritten config environment
  generalize withWindowsFromConfig environment (some config) = after at *
  have hkey : keyReady after = keyNamed config environment := by
    unfold keyReady keyNamed
    rw [hrewritten.key, ← hrewritten.password]
    cases environment OsslsigncodeCredentials.privateKeyVariable with
    | some key => rfl
    | none =>
        cases after OsslsigncodeCredentials.passwordVariable with
        | none => rfl
        | some password => cases password <;> simp
  unfold windowsReady windowsNamed osslsignReady
  rw [isSatisfiedBy_keyPair, isSatisfiedBy_thumbprint, hrewritten.certificate,
    hrewritten.thumbprint, hkey, hrewritten.spoken]
  simp only [Bool.or_eq_true]
  split
  · cases hnamed : certificateNamed config environment with
    | false => rfl
    | true => rw [hrewritten.timestamp (.inl hnamed)]
  · cases hprint : isSet
        (environment (text "WINDOWS_CERTIFICATE_THUMBPRINT")) with
    | false => rfl
    | true => rw [hrewritten.timestamp (.inr hprint)]

/-! ## The sign steps of a plan nobody refuses -/

/-- No sign step stops over a credential, and none leaves unsigned what it is
handed. -/
def SignsEverything (isWindows : Bool) (shipment : Shipment)
    (environment : Environment) (plan : ShipPlan) : Prop :=
  ∀ step ∈ plan.steps, step.command = text "sign" →
    ∀ tools : SignTools, tools.isWindows = isWindows →
      Signs (SignCommand.run tools (some shipment.config) environment
        step.arguments)

/-- Where a notarisation is declared, a plan nobody refuses has found its
identity and its credentials. -/
theorem notarisable_of_refusals {environment : Environment}
    (hchannel : shipment.channel = .release) (hhost : shipment.host = .macos)
    (henvironment : shipment.environment = some environment)
    (hrefusals : ShipPlan.refusalsOf packages shipment = [])
    (hnotarises : notarises shipment.config = true) :
    identityNamed shipment.config environment = true ∧ ∃ credentials,
      NotarytoolArguments.forWhicheverIsConfigured environment =
        .ok (some credentials) := by
  have hservice := ShipPlan.serviceRefusals_of_refusalsOf hrefusals
  rw [← hservice, ShipPlan.refusalsOf_eq_service_iff] at hrefusals
  unfold notarises at hnotarises
  cases hmacos : shipment.config.macos with
  | none => simp [hmacos] at hnotarises
  | some macos =>
      have hnotarize : macos.notarize = true := by
        simpa [hmacos] using hnotarises
      have hnone := hrefusals.2.1 macos hmacos hchannel hhost hnotarize
      unfold ShipPlan.notarisationRefusals at hnone
      rw [henvironment] at hnone
      dsimp only at hnone
      rw [List.append_eq_nil_iff] at hnone
      constructor
      · by_contra hmissing
        simp only [identityNamed, hmacos, Option.any_some, Bool.or_eq_true,
          not_or, Bool.not_eq_true] at hmissing
        simp [hmissing.1, hmissing.2] at hnone
      · cases hconfigured :
            NotarytoolArguments.forWhicheverIsConfigured environment with
        | error failure => simp [hconfigured] at hnone
        | ok configured =>
            cases configured with
            | none => simp [hconfigured] at hnone
            | some credentials => exact ⟨credentials, rfl⟩

theorem isSatisfiedBy_identity (config : DovetailConfig)
    (environment : Environment) :
    NotarizationCredentials.identity.isSatisfiedBy
        (withIdentityFromConfig environment (some config)) =
      identityNamed config environment := by
  rw [Bool.eq_iff_iff, identity_withIdentityFromConfig, identityNamed]
  simp [Option.any_eq_true]

/-- The step that signs what is shipped asks for the credentials of its host. -/
theorem credentialsReady_of_signsEverything {isWindows : Bool}
    {environment : Environment} {plan : ShipPlan}
    (hchannel : shipment.channel = .release)
    (hplan : ShipPlan.of packages shipment = .ok plan)
    (hsigns : SignsEverything isWindows shipment environment plan) :
    credentialsReady shipment.config environment shipment.host isWindows =
      true := by
  obtain ⟨plans, hmade⟩ := madeOf_of_eq_ok hplan
  obtain ⟨artifact, label, hstep⟩ := exists_signing_of_madeOf hmade hchannel
  have hown := hsigns _ hstep rfl
  cases hhost : shipment.host with
  | macos =>
      have hhanded : Handed packages shipment _ := .bundle hhost
      have hwords := @words_signing_macos packages shipment hhost hchannel
        artifact label
      obtain ⟨hadHoc, -, hrequire⟩ := flagged_of_handed hhost hhanded
      by_contra hready
      simp only [credentialsReady, Bool.or_eq_true, not_or,
        Bool.not_eq_true] at hready
      rw [hready.1] at hrequire
      have hbundle := hown (willing isWindows) rfl
      rw [run_of_hands _ _ _ hwords hhanded, signedOn_macos hhost,
        macos_of_bundle hadHoc (single_bundle _) (multi_file _)] at hbundle
      apply not_signs_macosBundle hrequire _ hbundle
      rw [isSatisfiedBy_identity, hready.2]
  | windows =>
      have hhanded : Handed packages shipment _ := .installer artifact hhost
      rw [credentialsReady, ← windowsReady_rewritten]
      apply (signs_windows_iff isWindows (unnamed_of_handed hhanded) ?_
        ?_).mp
      · intro tools hwindows
        have hfile := hown tools hwindows
        rw [run_of_hands _ _ _ (words_signing_windows hhost artifact label)
          hhanded, signedOn_windows hhost] at hfile
        exact hfile
      · simp [multi, given_requires]
      · simp [multi, given_requires]
  | linux => rfl

theorem signsEverything_of_credentialsReady {isWindows : Bool}
    {environment : Environment} {plan : ShipPlan}
    (hchannel : shipment.channel = .release)
    (henvironment : shipment.environment = some environment)
    (hplan : ShipPlan.of packages shipment = .ok plan)
    (hrefusals : plan.refusals = [])
    (hready : credentialsReady shipment.config environment shipment.host
      isWindows = true) :
    SignsEverything isWindows shipment environment plan := by
  obtain ⟨plans, hmade⟩ := madeOf_of_eq_ok hplan
  rw [ShipPlan.refusals_of_eq_ok hplan] at hrefusals
  intro step hstep hsign tools hwindows
  obtain ⟨arguments, hwords, hhanded⟩ :=
    hands_of_madeOf hmade hchannel step hstep hsign
  rw [run_of_hands _ _ _ hwords hhanded]
  cases hhost : shipment.host with
  | macos =>
      obtain ⟨hadHoc, hnotarize, -⟩ := flagged_of_handed hhost hhanded
      have hidentity : identityNamed shipment.config environment = true := by
        rw [hhost] at hready
        simp only [credentialsReady, Bool.or_eq_true] at hready
        apply hready.elim _ id
        intro hnotarises
        exact (notarisable_of_refusals hchannel hhost henvironment hrefusals
          hnotarises).1
      apply signs_macos hadHoc
      · rw [isSatisfiedBy_identity, hidentity]
      · intro hflag
        rw [hnotarize] at hflag
        exact (notarisable_of_refusals hchannel hhost henvironment hrefusals
          hflag).2
  | windows =>
      apply signs_windows (unnamed_of_handed hhanded)
      rw [windowsReady_rewritten, hwindows]
      rw [hhost] at hready
      exact hready
  | linux => exact signs_linux

/-- The plan and its sign steps agree as long as the sign steps have their
credentials. -/
theorem signsEverything_iff (isWindows : Bool) {environment : Environment}
    {plan : ShipPlan} (hchannel : shipment.channel = .release)
    (henvironment : shipment.environment = some environment)
    (hplan : ShipPlan.of packages shipment = .ok plan)
    (hrefusals : plan.refusals = []) :
    SignsEverything isWindows shipment environment plan ↔
      credentialsReady shipment.config environment shipment.host isWindows =
        true := by
  constructor
  · exact credentialsReady_of_signsEverything hchannel hplan
  · exact signsEverything_of_credentialsReady hchannel henvironment hplan
      hrefusals

end

/-- A Windows host with a certificate in a file, which a password may open. -/
def signedShipment (password : Option Text) : Shipment where
  config :=
    { identifier := text "com.example.demo"
      name := text "Demo"
      manufacturer := text "Example"
      targets := [text "windows-x86_64"]
      targets_valid := by decide
      update := none
      macos := none
      windows := some
        { certificateEnv := text "DOVETAIL_WINDOWS_CERTIFICATE"
          passwordEnv := text "DOVETAIL_WINDOWS_CERTIFICATE_PASSWORD"
          timestampUrl := some (text "http://timestamp.example.com") }
      service := none }
  version := text "1.2.3"
  host := .windows
  binary := text "demo"
  build := true
  windowsFormat := none
  environment := some fun name =>
    if name = text "DOVETAIL_WINDOWS_CERTIFICATE" then some (text "cert.pfx")
    else if name = text "DOVETAIL_WINDOWS_CERTIFICATE_PASSWORD" then password
    else none
  channel := .release
  root := some (text "/work")
  onDisk _ := true

theorem exists_plan_of_signedShipment {password : Option Text}
    (hpassword : password ∈ [none, some (text "secret")]) :
    ∃ plan, ShipPlan.of slashed (signedShipment password) = .ok plan ∧
      plan.refusals = [] := by
  have hall : ∀ password ∈ [none, some (text "secret")],
      (ShipPlan.of slashed (signedShipment password)).isOk = true ∧
        ShipPlan.refusalsOf slashed (signedShipment password) = [] := by
    decide
  obtain ⟨hok, hrefusals⟩ := hall password hpassword
  cases hof : ShipPlan.of slashed (signedShipment password) with
  | error refusal => rw [hof] at hok; cases hok
  | ok plan =>
      exact ⟨plan, rfl, (ShipPlan.refusals_of_eq_ok hof).trans hrefusals⟩

/-- With its password the certificate signs. -/
theorem signsEverything_secret :
    ∃ environment plan,
      (signedShipment (some (text "secret"))).environment =
        some environment ∧
      ShipPlan.of slashed (signedShipment (some (text "secret"))) =
        .ok plan ∧
      SignsEverything true (signedShipment (some (text "secret"))) environment
        plan := by
  obtain ⟨plan, hplan, hrefusals⟩ := exists_plan_of_signedShipment
    (show some (text "secret") ∈ [none, some (text "secret")] by simp)
  refine ⟨_, plan, rfl, hplan, ?_⟩
  exact (signsEverything_iff true rfl rfl hplan hrefusals).mpr
    (by decide)

/-- The plan asks for the certificate and its time stamp, and the sign step for
the password as well. -/
theorem not_signsEverything_unopened :
    ¬ ∀ (packages : Packages) (shipment : Shipment)
      (environment : Environment) (plan : ShipPlan) (isWindows : Bool),
      shipment.channel = .release →
      shipment.environment = some environment → shipment.root ≠ none →
      shipment.config.windows ≠ none ∨ notarises shipment.config = true →
      ShipPlan.of packages shipment = .ok plan → plan.refusals = [] →
      SignsEverything isWindows shipment environment plan := by
  intro hall
  obtain ⟨plan, hplan, hrefusals⟩ := exists_plan_of_signedShipment
    (show none ∈ [none, some (text "secret")] by simp)
  have hsigns := hall slashed _ _ plan true rfl rfl (by decide)
    (.inl (by simp [signedShipment])) hplan hrefusals
  have hready := credentialsReady_of_signsEverything rfl hplan hsigns
  exact absurd hready (by decide)

end Dovetail.Cli.Ship
