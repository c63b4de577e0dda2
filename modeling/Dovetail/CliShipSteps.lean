import Dovetail.CliShipBundling
import Dovetail.SuppliedSteps

/-!
# The steps of a group of targets

What the steps of a plan write and read, as the commands take their options,
and what the steps made for a group of targets contribute: they write whatever
they list, and where a file is signed it has been written before.
-/

namespace Dovetail.Cli.Ship

open CodeUnits CommandOptions Bundler FallibleSteps SuppliedSteps

/-! ## What the steps write and read -/

/-- The url and the path the release step reads from an entry. -/
def readEntry (packages : Packages) (update : Option Release.UpdateConfig)
    (version entry : Text) : Option (Text × Text) :=
  match entry.idxOf? Release.equals with
  | none | some 0 => none
  | some afterKey =>
      if afterKey = entry.length - 1 then none
      else
        let beforePath :=
          entry.length - 1 - entry.reverse.idxOf Release.equals
        if beforePath = afterKey then
          let path := entry.drop (afterKey + 1)
          (update.bind (·.baseUrl)).map fun base =>
            (Release.UpdateConfig.urlFor base version
              (packages.basename path), path)
        else
          some ((entry.take beforePath).drop (afterKey + 1),
            entry.drop (beforePath + 1))

/-- It is what the release command takes an entry for. -/
theorem toOption_splitEntry {Version Date : Type} (packages : Packages)
    (world : Release.World Version Date)
    (hbasename : world.basename = packages.basename)
    {update : Option Release.UpdateConfig} {version entry : Text}
    {afterKey : Nat}
    (hkey : entry.idxOf? Release.equals = some (afterKey + 1))
    (hlast : afterKey + 1 ≠ entry.length - 1) :
    (world.splitEntry update version entry (afterKey + 1)).toOption =
      readEntry packages update version entry := by
  simp only [readEntry, Release.World.splitEntry, hkey, hbasename,
    if_neg hlast]
  split
  · cases update.bind (·.baseUrl) with
    | none => rfl
    | some base => rfl
  · rfl

section

variable (packages : Packages) (shipment : Shipment)

def releaseEntries (step : ShipStep) : Option (List (Text × Text)) := do
  let arguments ← parse options step.arguments
  let version ← single arguments .version
  (multi arguments .artifact).mapM
    (readEntry packages (shipment.config.update.map (·.toUpdateConfig)) version)

/-- The bundlers write, the steps that sign and release read. -/
def pipeline : Pipeline ShipStep Text Refusal where
  writes step :=
    if step.command = text "bundle" then
      BundleCommand.run packages shipment.host shipment.config.service
        step.arguments
    else .ok []
  reads step :=
    if step.command = text "sign" then
      (parse options step.arguments).map (multi · .file)
    else if step.command = text "release" then
      (releaseEntries packages shipment step).map (·.map (·.2))
    else some []

/-- Whatever the plan lists or hands to a step has been written by then, and
a url that is released ends in the name of the file it is the url of. -/
structure NamesWhatIsWritten (plan : ShipPlan) : Prop where
  listed : ∀ made, after (pipeline packages shipment) [] plan.steps = .ok made →
    ∀ entry ∈ plan.artifacts ++ plan.downloads, entry.2 ∈ made
  supplied : Supplied (pipeline packages shipment) [] plan.steps
  linked : ∀ before step rest made, plan.steps = before ++ step :: rest →
    after (pipeline packages shipment) [] before = .ok made →
    step.command = text "release" →
    ∃ entries, releaseEntries packages shipment step = some entries ∧
      ∀ entry ∈ entries, ∃ base,
        shipment.config.update.bind (·.baseUrl) = some base ∧
        entry.1 = Release.UpdateConfig.urlFor base shipment.version
          (packages.basename entry.2)

end

/-! ## The steps of a group -/

section

variable {packages : Packages} {shipment : Shipment}

/-- The targets a group of a plan is made for are known to the bundlers. -/
structure Ground (packages : Packages) (shipment : Shipment)
    (arches : List Text) (spec : BundleSpec) (first : TargetArch) : Prop where
  spec : ShipPlan.spec packages shipment = .ok spec
  first : TargetArch.parse (arches.headD []) = .ok first
  allowed : Allowed arches
  grouped : Grouped shipment arches

theorem allowed_of_parse {key : Text} {arch : TargetArch}
    (hkey : key ∈ knownKeys)
    (hparse : TargetArch.parse (ShipPlan.bundlerArch (ShipPlan.wireArch key)) =
      .ok arch) :
    ShipPlan.bundlerArch (ShipPlan.wireArch key) ∈
      [text "x86_64", text "arm64"] :=
  (knownKeys_spelled key hkey).2.2.2 (by rw [hparse]; rfl)

theorem known_of_mem_group {group : List Text} {key : Text}
    (hgroup : group ∈ ShipPlan.groups
      (ShipPlan.targetsForHost shipment.config shipment.host) shipment.host)
    (hkey : key ∈ group) : key ∈ knownKeys := by
  have hmine : key ∈ ShipPlan.targetsForHost shipment.config shipment.host := by
    unfold ShipPlan.groups at hgroup
    split at hgroup
    · rwa [List.mem_singleton.mp hgroup] at hkey
    · obtain ⟨other, hother, rfl⟩ := List.mem_map.mp hgroup
      rwa [List.mem_singleton.mp hkey]
  exact mem_knownKeys_of_validate (shipment.config.targets_valid key
    (List.mem_filter.mp hmine).1)

theorem grouped_of_mem_groups {group : List Text}
    (hgroup : group ∈ ShipPlan.groups
      (ShipPlan.targetsForHost shipment.config shipment.host) shipment.host) :
    Grouped shipment (ShipPlan.archesOf group) := by
  unfold ShipPlan.groups at hgroup
  split at hgroup
  · rename_i hhost
    exact Or.inl hhost
  · obtain ⟨key, -, rfl⟩ := List.mem_map.mp hgroup
    exact Or.inr ⟨_, rfl⟩

theorem ne_nil_of_mem_groups {group : List Text}
    (hmine : ShipPlan.targetsForHost shipment.config shipment.host ≠ [])
    (hgroup : group ∈ ShipPlan.groups
      (ShipPlan.targetsForHost shipment.config shipment.host) shipment.host) :
    group ≠ [] := by
  unfold ShipPlan.groups at hgroup
  split at hgroup
  · rwa [List.mem_singleton.mp hgroup]
  · obtain ⟨key, -, rfl⟩ := List.mem_map.mp hgroup
    simp

/-- A group whose artefact has a name. -/
theorem ground_of_artifactNameFor {group : List Text} {format : MacosFormat}
    {name : Text}
    (hmine : ShipPlan.targetsForHost shipment.config shipment.host ≠ [])
    (hgroup : group ∈ ShipPlan.groups
      (ShipPlan.targetsForHost shipment.config shipment.host) shipment.host)
    (hname : ShipPlan.artifactNameFor packages shipment
      (ShipPlan.archesOf group) format = .ok name) :
    ∃ spec first, Ground packages shipment (ShipPlan.archesOf group) spec
        first ∧
      Named shipment (ShipPlan.archesOf group) format spec first name := by
  obtain ⟨spec, first, hspec, hfirst, hnamed⟩ := named_of_artifactNameFor hname
  have hgrouped := grouped_of_mem_groups hgroup
  have hsome := ne_nil_of_mem_groups hmine hgroup
  refine ⟨spec, first, ⟨hspec, hfirst, ⟨?_, ?_⟩, hgrouped⟩, hnamed⟩
  · simpa [ShipPlan.archesOf] using hsome
  · intro arch harch
    obtain ⟨key, hkey, rfl⟩ := List.mem_map.mp harch
    have hknown := known_of_mem_group hgroup hkey
    suffices hparse : ∃ parsed, TargetArch.parse
        (ShipPlan.bundlerArch (ShipPlan.wireArch key)) = .ok parsed by
      obtain ⟨parsed, hparsed⟩ := hparse
      exact allowed_of_parse hknown hparsed
    obtain hhost | ⟨only, honly⟩ := hgrouped
    · cases hnamed with
      | macos _ hrequired =>
          obtain ⟨parsed, -, hparsed⟩ :=
            exists_of_mem_of_mapM_eq_ok hrequired harch
          exact ⟨parsed, hparsed⟩
      | windows hother => rw [hhost] at hother; cases hother
      | linux hother => rw [hhost] at hother; cases hother
    · rw [honly] at hfirst harch
      rw [List.mem_singleton.mp harch]
      exact ⟨first, hfirst⟩

variable {arches : List Text} {spec : BundleSpec} {first : TargetArch}
  {format : MacosFormat}

theorem writes_bundling (hground : Ground packages shipment arches spec first)
    (title label : Text) :
    (pipeline packages shipment).writes
        (ShipPlan.bundling packages shipment title arches format label) =
      BundleCommand.produce packages shipment.config.service
        (requestOf packages shipment arches format spec) :=
  run_bundling hground.allowed hground.spec title label shipment.host
    shipment.config.service

theorem writes_of_ne {step : ShipStep} (hcommand : step.command ≠ text "bundle") :
    (pipeline packages shipment).writes step = .ok [] :=
  if_neg hcommand

theorem reads_of_ne {step : ShipStep} (hsign : step.command ≠ text "sign")
    (hrelease : step.command ≠ text "release") :
    (pipeline packages shipment).reads step = some [] := by
  simp only [pipeline, if_neg hsign, if_neg hrelease]

/-- A sign step reads the files it is handed, each cut at its commas. -/
theorem reads_sign {step : ShipStep} {arguments : List (Argument OptionName)}
    (hcommand : step.command = text "sign")
    (hwords : step.arguments = words options arguments)
    (hfitting : ∀ argument ∈ arguments, Fitting options argument) :
    (pipeline packages shipment).reads step =
      some (multi arguments .file) := by
  simp only [pipeline, if_pos hcommand, hwords,
    parse_words options hfitting, Option.map_some]

theorem fitting_requireSignature :
    ∀ argument ∈ ShipPlan.requireSignature shipment,
      Fitting options argument := by
  unfold ShipPlan.requireSignature
  split <;> simp [Fitting, options, OptionName.isFlag]

theorem fitting_notarize :
    ∀ argument ∈ ShipPlan.notarize shipment, Fitting options argument := by
  unfold ShipPlan.notarize
  split <;> simp [Fitting, options, OptionName.isFlag]

theorem fitting_signsBundle :
    ∀ argument ∈ ShipPlan.signsBundle packages shipment,
      Fitting options argument := by
  have hentitlements (entitlements : Option Text) :
      ∀ argument ∈ entitlements.elim [] fun entitlements =>
        [Argument.valued .entitlements entitlements],
        Fitting options argument := by
    cases entitlements <;> simp [Fitting, options, OptionName.isFlag]
  have hidentity : ∀ argument ∈ (if shipment.channel.isInternal then
      [Argument.flag .adHoc] else ShipPlan.notarize shipment),
      Fitting options argument := by
    split
    · simp [Fitting, options, OptionName.isFlag]
    · exact fitting_notarize
  unfold ShipPlan.signsBundle
  rw [List.forall_mem_append, List.forall_mem_cons]
  exact ⟨⟨rfl, hentitlements _⟩, hidentity⟩

theorem given_requireSignature (name : OptionName) :
    given (ShipPlan.requireSignature shipment) name = [] := by
  unfold ShipPlan.requireSignature
  split <;> simp

theorem given_notarize (name : OptionName) :
    given (ShipPlan.notarize shipment) name = [] := by
  unfold ShipPlan.notarize
  split <;> simp

theorem given_signsBundle_file :
    given (ShipPlan.signsBundle packages shipment) .file = [] := by
  have hidentity : given (if shipment.channel.isInternal then
      [Argument.flag .adHoc] else ShipPlan.notarize shipment) .file = [] := by
    split
    · simp
    · exact given_notarize _
  unfold ShipPlan.signsBundle
  rw [given_append, hidentity]
  cases shipment.config.macos.bind (·.entitlements) <;> simp

theorem reads_signingPayload (label : Text) :
    (pipeline packages shipment).reads
      (ShipPlan.signingPayload shipment label) = some [] := by
  rw [reads_sign rfl rfl]
  · simp [multi, given_requireSignature]
  · simp only [List.forall_mem_cons]
    exact ⟨rfl, rfl, fitting_requireSignature⟩

theorem reads_signingContainer (artifact label : Text) :
    (pipeline packages shipment).reads
      (ShipPlan.signingContainer shipment artifact label) =
        some (artifact.splitOn comma) := by
  rw [reads_sign rfl rfl]
  · simp [multi, given_notarize]
  · simp only [List.forall_mem_cons]
    exact ⟨rfl, rfl, fitting_notarize⟩

theorem reads_signing_macos (hhost : shipment.host = .macos)
    (artifact label : Text) :
    (pipeline packages shipment).reads
      (ShipPlan.signing packages shipment artifact label) = some [] := by
  have hwords : (ShipPlan.signing packages shipment artifact
      label).arguments =
        words options (.valued .target shipment.host.name ::
          ShipPlan.signsBundle packages shipment) := by
    simp only [ShipPlan.signing, hhost]
  rw [reads_sign rfl hwords]
  · simp [multi, given_signsBundle_file]
  · rw [List.forall_mem_cons]
    exact ⟨rfl, fitting_signsBundle⟩

theorem reads_signing (hhost : shipment.host ≠ .macos)
    (artifact label : Text) :
    (pipeline packages shipment).reads
      (ShipPlan.signing packages shipment artifact label) =
        some (artifact.splitOn comma) := by
  cases hother : shipment.host with
  | macos => exact absurd hother hhost
  | windows =>
      have hwords : (ShipPlan.signing packages shipment artifact
          label).arguments =
            words options (.valued .target shipment.host.name ::
              .valued .file artifact ::
              ShipPlan.requireSignature shipment) := by
        simp only [ShipPlan.signing, hother]
      rw [reads_sign rfl hwords]
      · simp [multi, given_requireSignature]
      · simp only [List.forall_mem_cons]
        exact ⟨rfl, rfl, fitting_requireSignature⟩
  | linux =>
      have hwords : (ShipPlan.signing packages shipment artifact
          label).arguments =
            words options [.valued .target shipment.host.name,
              .valued .file artifact, .valued .outDir outputDirectory] := by
        simp only [ShipPlan.signing, hother]
      rw [reads_sign rfl hwords]
      · simp [multi]
      · simp [Fitting, options, OptionName.isFlag]

end

/-! ## What a group contributes -/

section

variable (packages : Packages) (shipment : Shipment) (group : List Text)

def bundled (title : Text) (format : MacosFormat) : ShipStep :=
  ShipPlan.bundling packages shipment title (ShipPlan.archesOf group) format
    (ShipPlan.labelOf group)

def thinned : List ShipStep :=
  if (ShipPlan.archesOf group).length = 1 then
    [bundled packages shipment group (text "thin ") .thin] else []

def signed (name : Text) : ShipStep :=
  ShipPlan.signing packages shipment (packages.join outputDirectory name)
    (ShipPlan.labelOf group)

def listed (name : Text) : Paths :=
  [(ShipPlan.labelOf group, packages.join outputDirectory name)]

/-- The steps and artefacts of a group, on each host and channel. -/
inductive Planned : ShipPlan.GroupPlan → Prop
  | macosInternal {name : Text} (hhost : shipment.host = .macos)
      (hchannel : shipment.channel = .internal)
      (hname : ShipPlan.artifactNameFor packages shipment
        (ShipPlan.archesOf group) (ShipPlan.macosDownloadFormat shipment) =
          .ok name) :
      Planned {
        steps := thinned packages shipment group ++
          [signed packages shipment group name,
            bundled packages shipment group (text "bundle ")
              (ShipPlan.macosDownloadFormat shipment)]
        artifacts := []
        downloads := listed packages group name }
  | macosRelease {name archive : Text} (hhost : shipment.host = .macos)
      (hchannel : shipment.channel = .release)
      (hname : ShipPlan.artifactNameFor packages shipment
        (ShipPlan.archesOf group) .dmg = .ok name)
      (harchive : ShipPlan.artifactNameFor packages shipment
        (ShipPlan.archesOf group) .tar = .ok archive) :
      Planned {
        steps := thinned packages shipment group ++
          [signed packages shipment group name,
            bundled packages shipment group (text "bundle ") .dmg,
            ShipPlan.signingContainer shipment
              (packages.join outputDirectory name) (ShipPlan.labelOf group),
            bundled packages shipment group (text "archive ") .tar]
        artifacts := listed packages group archive
        downloads := listed packages group name }
  | other {name : Text} {payload : List ShipStep}
      (hhost : shipment.host ≠ .macos)
      (hname : ShipPlan.artifactNameFor packages shipment
        (ShipPlan.archesOf group) (ShipPlan.macosDownloadFormat shipment) =
          .ok name)
      (hpayload : payload = [] ∨ payload =
        [ShipPlan.signingPayload shipment (ShipPlan.labelOf group)]) :
      Planned {
        steps := payload ++
          [bundled packages shipment group (text "bundle ")
              (ShipPlan.macosDownloadFormat shipment),
            signed packages shipment group name]
        artifacts :=
          if shipment.channel.isInternal then [] else listed packages group name
        downloads :=
          if shipment.channel.isInternal then listed packages group name
          else [] }

end

section

variable {packages : Packages} {shipment : Shipment} {group : List Text}

theorem macosDownloadFormat_release (hchannel : shipment.channel = .release) :
    ShipPlan.macosDownloadFormat shipment = .dmg := by
  simp [ShipPlan.macosDownloadFormat, ShipChannel.isInternal, hchannel]

theorem planned_of_planGroup {plan : ShipPlan.GroupPlan}
    (hplan : ShipPlan.planGroup packages shipment group = .ok plan) :
    Planned packages shipment group plan := by
  unfold ShipPlan.planGroup at hplan
  obtain ⟨name, hname, hplan⟩ := bind_eq_ok_iff.mp hplan
  have hother (hhost : shipment.host ≠ .macos) {payload : List ShipStep}
      (hpayload : payload = [] ∨ payload =
        [ShipPlan.signingPayload shipment (ShipPlan.labelOf group)]) :=
    Planned.other hhost hname hpayload
  cases hhost : shipment.host with
  | macos =>
      simp only [hhost] at hplan
      cases hchannel : shipment.channel with
      | internal =>
          simp only [hchannel, ShipChannel.isInternal, decide_true,
            if_true] at hplan
          cases hplan
          exact .macosInternal hhost hchannel hname
      | release =>
          have hformat := macosDownloadFormat_release hchannel
          simp only [hchannel, ShipChannel.isInternal, reduceCtorEq,
            decide_false, Bool.false_eq_true, if_false, hformat,
            if_true] at hplan
          obtain ⟨archive, harchive, hplan⟩ := bind_eq_ok_iff.mp hplan
          cases hplan
          rw [hformat] at hname
          rw [List.append_assoc, List.append_assoc]
          exact .macosRelease hhost hchannel hname harchive
  | windows =>
      have hshape := hother (by simp [hhost]) (Or.inr rfl)
      simp only [hhost, if_true] at hplan
      split at hplan
      · rename_i hinternal
        cases hplan
        rw [hinternal] at hshape
        exact hshape
      · rename_i hinternal
        cases hplan
        rw [Bool.not_eq_true] at hinternal
        rw [hinternal] at hshape
        exact hshape
  | linux =>
      have hshape := hother (by simp [hhost]) (Or.inl rfl)
      simp only [hhost, reduceCtorEq, if_false] at hplan
      split at hplan
      · rename_i hinternal
        cases hplan
        rw [hinternal] at hshape
        exact hshape
      · rename_i hinternal
        cases hplan
        rw [Bool.not_eq_true] at hinternal
        rw [hinternal] at hshape
        exact hshape

/-- The group is one a plan is made for. -/
structure Ours (shipment : Shipment) (group : List Text) : Prop where
  nonempty : ShipPlan.targetsForHost shipment.config shipment.host ≠ []
  mem : group ∈ ShipPlan.groups
    (ShipPlan.targetsForHost shipment.config shipment.host) shipment.host

theorem Ours.ground (hours : Ours shipment group) {format : MacosFormat}
    {name : Text}
    (hname : ShipPlan.artifactNameFor packages shipment
      (ShipPlan.archesOf group) format = .ok name) :
    ∃ spec first, Ground packages shipment (ShipPlan.archesOf group) spec
        first ∧
      Named shipment (ShipPlan.archesOf group) format spec first name :=
  ground_of_artifactNameFor hours.nonempty hours.mem hname

/-- The step that bundles a format writes what the format is named. -/
theorem mem_of_bundled (hours : Ours shipment group) {format : MacosFormat}
    {name : Text} (hformat : format ≠ .thin)
    (hname : ShipPlan.artifactNameFor packages shipment
      (ShipPlan.archesOf group) format = .ok name)
    {title : Text} {made : List Text}
    (hmade : (pipeline packages shipment).writes
      (bundled packages shipment group title format) = .ok made) :
    packages.join outputDirectory name ∈ made := by
  obtain ⟨spec, first, hground, hnamed⟩ := hours.ground hname
  rw [bundled, writes_bundling hground] at hmade
  exact mem_of_produce hground.spec hground.first hnamed hground.grouped
    hformat hmade

theorem downloadFormat_ne_thin :
    ShipPlan.macosDownloadFormat shipment ≠ .thin := by
  unfold ShipPlan.macosDownloadFormat
  split <;> decide

/-- Whatever a group lists is written by one of its own steps. -/
theorem written_of_planned (hours : Ours shipment group)
    {plan : ShipPlan.GroupPlan} (hplan : Planned packages shipment group plan)
    {entry : Text × Text} (hentry : entry ∈ plan.artifacts ++ plan.downloads) :
    ∃ step ∈ plan.steps, ∀ made,
      (pipeline packages shipment).writes step = .ok made → entry.2 ∈ made := by
  cases hplan with
  | macosInternal hhost hchannel hname =>
      obtain rfl := List.mem_singleton.mp hentry
      refine ⟨bundled packages shipment group (text "bundle ")
        (ShipPlan.macosDownloadFormat shipment), by simp, fun made hmade => ?_⟩
      exact mem_of_bundled hours downloadFormat_ne_thin hname hmade
  | macosRelease hhost hchannel hname harchive =>
      rcases List.mem_append.mp hentry with hentry | hentry
      · obtain rfl := List.mem_singleton.mp hentry
        refine ⟨bundled packages shipment group (text "archive ") .tar,
          by simp, fun made hmade => ?_⟩
        exact mem_of_bundled hours (by decide) harchive hmade
      · obtain rfl := List.mem_singleton.mp hentry
        refine ⟨bundled packages shipment group (text "bundle ") .dmg,
          by simp, fun made hmade => ?_⟩
        exact mem_of_bundled hours (by decide) hname hmade
  | @other name payload hhost hname hpayload =>
      have hlisted : entry ∈ listed packages group name := by
        dsimp only at hentry
        cases hinternal : shipment.channel.isInternal <;>
          simpa [hinternal] using hentry
      obtain rfl := List.mem_singleton.mp hlisted
      refine ⟨bundled packages shipment group (text "bundle ")
        (ShipPlan.macosDownloadFormat shipment), by simp, fun made hmade => ?_⟩
      exact mem_of_bundled hours downloadFormat_ne_thin hname hmade

/-! ### Files without a comma -/

theorem reads_bundled (title : Text) (format : MacosFormat) :
    (pipeline packages shipment).reads
      (bundled packages shipment group title format) = some [] :=
  reads_of_ne (by show text "bundle" ≠ text "sign"; decide)
    (by show text "bundle" ≠ text "release"; decide)

theorem reads_thinned :
    ∀ step ∈ thinned packages shipment group,
      (pipeline packages shipment).reads step = some [] := by
  unfold thinned
  split
  · intro step hstep
    rw [List.mem_singleton.mp hstep]
    exact reads_bundled _ _
  · simp

/-- An image is only written where no installer has to place a daemon. -/
theorem signsFiles_of_bundled (hours : Ours shipment group)
    (hhost : shipment.host = .macos) (hchannel : shipment.channel = .release)
    {name : Text}
    (hname : ShipPlan.artifactNameFor packages shipment
      (ShipPlan.archesOf group) .dmg = .ok name)
    {title : Text} {made : List Text}
    (hmade : (pipeline packages shipment).writes
      (bundled packages shipment group title .dmg) = .ok made) :
    SignsFiles shipment := by
  obtain ⟨spec, first, hground, -⟩ := hours.ground hname
  rw [bundled, writes_bundling hground] at hmade
  intro _
  refine ⟨hchannel, fun hsystem => ?_⟩
  have hroute : BundleCommand.isSystemRoute shipment.config.service = true :=
    decide_eq_true hsystem
  have hrefused : ∃ refusal, BundleCommand.checkFormat
      shipment.config.service .dmg = .error refusal := by
    simp [BundleCommand.checkFormat, hroute]
  obtain ⟨refusal, hrefusal⟩ := hrefused
  simp only [BundleCommand.produce, requestOf, hhost, if_true,
    BundleCommand.macos, hrefusal] at hmade
  cases hmade

/-- A path without a comma is read as it was handed on. -/
theorem splitOn_join {name : Text}
    (hname : NamedAfter shipment.binary name)
    (hcomma : comma ∉ shipment.binary) :
    (packages.join outputDirectory name).splitOn comma =
      [packages.join outputDirectory name] :=
  List.splitOn_eq_singleton fun hmem =>
    hcomma ((mem_join_iff (Or.inl rfl) hname).mp hmem)

theorem supplied_of_planned (hours : Ours shipment group)
    {plan : ShipPlan.GroupPlan} (hplan : Planned packages shipment group plan)
    (hcomma : SignsFiles shipment → comma ∉ shipment.binary) :
    Supplied (pipeline packages shipment) [] plan.steps := by
  cases hplan with
  | @macosInternal name hhost hchannel hname =>
      apply supplied_of_reads_nothing
      simp only [List.forall_mem_append, List.forall_mem_cons]
      refine ⟨reads_thinned, reads_signing_macos hhost _ _,
        reads_bundled _ _, by simp⟩
  | @macosRelease name archive hhost hchannel hname harchive =>
      refine supplied_append.mpr
        ⟨supplied_of_reads_nothing reads_thinned, fun made _ => ?_⟩
      have hsigned : Reads (pipeline packages shipment) made
          (signed packages shipment group name) :=
        ⟨[], reads_signing_macos hhost _ _, by simp⟩
      refine supplied_cons.mpr ⟨hsigned, fun unchanged _ => ?_⟩
      refine supplied_cons.mpr
        ⟨⟨[], reads_bundled _ _, by simp⟩, fun own hown => ?_⟩
      have hfree := hcomma
        (signsFiles_of_bundled hours hhost hchannel hname hown)
      have hpath := mem_of_bundled hours (by decide) hname hown
      refine supplied_cons.mpr ⟨⟨_, reads_signingContainer _ _, ?_⟩,
        fun _ _ => supplied_of_reads_nothing ?_⟩
      · rw [splitOn_join (namedAfter_of_artifactNameFor hname) hfree]
        exact List.cons_subset.mpr
          ⟨List.mem_append_right _ hpath, List.nil_subset _⟩
      · simpa using reads_bundled _ _
  | @other name payload hhost hname hpayload =>
      have hfree := hcomma fun hmacos => absurd hmacos hhost
      have hread : ∀ step ∈ payload,
          (pipeline packages shipment).reads step = some [] := by
        rcases hpayload with rfl | rfl
        · simp
        · simpa using reads_signingPayload _
      refine supplied_append.mpr
        ⟨supplied_of_reads_nothing hread, fun made _ => ?_⟩
      refine supplied_cons.mpr
        ⟨⟨[], reads_bundled _ _, by simp⟩, fun own hown => ?_⟩
      have hpath := mem_of_bundled hours downloadFormat_ne_thin hname hown
      refine supplied_cons.mpr ⟨⟨_, reads_signing hhost _ _, ?_⟩, by simp⟩
      rw [splitOn_join (namedAfter_of_artifactNameFor hname) hfree]
      exact List.cons_subset.mpr
        ⟨List.mem_append_right _ hpath, List.nil_subset _⟩

/-! ### What a group writes where files are signed -/

/-- A step that goes through and names the binary in all it writes. -/
def Completes (packages : Packages) (shipment : Shipment) (step : ShipStep) :
    Prop :=
  ∃ own, (pipeline packages shipment).writes step = .ok own ∧
    ∀ file ∈ own, shipment.binary ⊆ file

theorem completes_of_ne {step : ShipStep}
    (hcommand : step.command ≠ text "bundle") :
    Completes packages shipment step :=
  ⟨[], writes_of_ne hcommand, by simp⟩

theorem completes_signed (name : Text) :
    Completes packages shipment (signed packages shipment group name) :=
  completes_of_ne (by show text "sign" ≠ text "bundle"; decide)

theorem completes_bundled (hours : Ours shipment group)
    (hsigns : SignsFiles shipment) {format other : MacosFormat} {name : Text}
    (hname : ShipPlan.artifactNameFor packages shipment
      (ShipPlan.archesOf group) other = .ok name)
    (hformat : shipment.host = .macos → format = .dmg ∨ format = .tar ∨
      (format = .thin ∧ ∃ arch, ShipPlan.archesOf group = [arch]))
    (title : Text) :
    Completes packages shipment
      (bundled packages shipment group title format) := by
  obtain ⟨spec, first, hground, hnamed⟩ := hours.ground hname
  obtain ⟨made, hmade⟩ : ∃ made, BundleCommand.produce packages
      shipment.config.service (requestOf packages shipment
        (ShipPlan.archesOf group) format spec) = .ok made :=
    produce_completes hground.first hnamed hground.grouped hsigns hformat
  refine ⟨made, ?_, ?_⟩
  · rw [bundled, writes_bundling hground]
    exact hmade
  · exact binary_subset_of_produce hground.spec hground.first hground.grouped
      hmade

theorem completes_thinned (hours : Ours shipment group)
    (hsigns : SignsFiles shipment) {other : MacosFormat} {name : Text}
    (hname : ShipPlan.artifactNameFor packages shipment
      (ShipPlan.archesOf group) other = .ok name) :
    ∀ step ∈ thinned packages shipment group,
      Completes packages shipment step := by
  unfold thinned
  split
  · rename_i hlength
    intro step hstep
    rw [List.mem_singleton.mp hstep]
    exact completes_bundled hours hsigns hname
      (fun _ => Or.inr (Or.inr ⟨rfl, List.length_eq_one_iff.mp hlength⟩)) _
  · simp

theorem completes_of_planned (hours : Ours shipment group)
    {plan : ShipPlan.GroupPlan} (hplan : Planned packages shipment group plan)
    (hsigns : SignsFiles shipment) :
    ∀ step ∈ plan.steps, Completes packages shipment step := by
  cases hplan with
  | macosInternal hhost hchannel hname =>
      rw [(hsigns hhost).1] at hchannel
      cases hchannel
  | @macosRelease name archive hhost hchannel hname harchive =>
      simp only [List.forall_mem_append, List.forall_mem_cons]
      refine ⟨completes_thinned hours hsigns hname, completes_signed name,
        completes_bundled hours hsigns hname (fun _ => Or.inl rfl) _,
        completes_of_ne ?_,
        completes_bundled hours hsigns hname
          (fun _ => Or.inr (Or.inl rfl)) _, by simp⟩
      show text "sign" ≠ text "bundle"
      decide
  | @other name payload hhost hname hpayload =>
      simp only [List.forall_mem_append, List.forall_mem_cons]
      refine ⟨?_, completes_bundled hours hsigns hname
        (fun hmacos => absurd hmacos hhost) _, completes_signed name, by simp⟩
      rcases hpayload with rfl | rfl
      · simp
      · intro step hstep
        rw [List.mem_singleton.mp hstep]
        exact completes_of_ne (by show text "sign" ≠ text "bundle"; decide)

/-- A step that signs a file, behind the steps that write it. -/
theorem exists_signing_of_planned {plan : ShipPlan.GroupPlan}
    (hplan : Planned packages shipment group plan)
    (hsigns : SignsFiles shipment) :
    ∃ (before : List ShipStep) (step : ShipStep) (rest : List ShipStep)
      (path : Text), plan.steps = before ++ step :: rest ∧
      (pipeline packages shipment).reads step = some (path.splitOn comma) := by
  cases hplan with
  | macosInternal hhost hchannel hname =>
      rw [(hsigns hhost).1] at hchannel
      cases hchannel
  | @macosRelease name archive hhost hchannel hname harchive =>
      refine ⟨thinned packages shipment group ++
          [signed packages shipment group name,
            bundled packages shipment group (text "bundle ") .dmg],
        ShipPlan.signingContainer shipment
          (packages.join outputDirectory name) (ShipPlan.labelOf group),
        [bundled packages shipment group (text "archive ") .tar],
        packages.join outputDirectory name, ?_, reads_signingContainer _ _⟩
      rw [List.append_assoc]
      rfl
  | @other name payload hhost hname hpayload =>
      refine ⟨payload ++ [bundled packages shipment group (text "bundle ")
          (ShipPlan.macosDownloadFormat shipment)],
        signed packages shipment group name, [],
        packages.join outputDirectory name, ?_, reads_signing hhost _ _⟩
      rw [List.append_assoc]
      rfl

end

end Dovetail.Cli.Ship
