import Dovetail.CliShipNames

/-!
# What a bundle step writes

The bundle command reads from the options of a plan's step what the plan was
made from, so what it writes bears the name that the plan has given it.
-/

namespace Dovetail.Cli.Ship

open CodeUnits CommandOptions Bundler FallibleSteps

section

variable {packages : Packages} {shipment : Shipment} {arches : List Text}

/-! ## What a bundle step is asked for -/

def Allowed (arches : List Text) : Prop :=
  arches ≠ [] ∧ ∀ arch ∈ arches, arch ∈ [text "x86_64", text "arm64"]

theorem given_macosFormatArguments (format : MacosFormat)
    (name : OptionName) :
    given (ShipPlan.macosFormatArguments shipment format) name =
      if name = .macosFormat ∧ shipment.host = .macos ∧ format ≠ .dmg then
        [format.name] else [] := by
  unfold ShipPlan.macosFormatArguments
  split <;> simp_all [eq_comm]

theorem given_windowsFormatArguments (name : OptionName) :
    given (ShipPlan.windowsFormatArguments shipment) name =
      if name = .windowsFormat ∧ shipment.host = .windows then
        (shipment.windowsFormat.map (·.name)).toList else [] := by
  unfold ShipPlan.windowsFormatArguments
  cases shipment.host <;> cases shipment.windowsFormat <;>
    simp [eq_comm]

theorem given_upgradeCodeArguments (name : OptionName) :
    given (ShipPlan.upgradeCodeArguments packages shipment) name =
      if name = .upgradeCode ∧ shipment.host = .windows ∧
          shipment.windowsFormat = some .msi then
        [UpgradeCode.forIdentifier packages shipment.config.identifier]
      else [] := by
  unfold ShipPlan.upgradeCodeArguments
  split <;> simp_all [eq_comm]

/-- What the bundle command reads from the options of a plan's step. -/
def requestOf (packages : Packages) (shipment : Shipment)
    (arches : List Text) (format : MacosFormat) (spec : BundleSpec) :
    BundleCommand.Request where
  target := shipment.host
  linuxFormat := .both
  windowsFormat :=
    if shipment.host = .windows then shipment.windowsFormat.getD .nsis
    else .nsis
  macosFormat := if shipment.host = .macos then format else .dmg
  arches
  spec :=
    { spec with appDirectory := ShipPlan.appDirectory packages shipment }
  upgradeCode :=
    if shipment.host = .windows ∧ shipment.windowsFormat = some .msi then
      some (UpgradeCode.forIdentifier packages shipment.config.identifier)
    else none

/-- What each option of the step is given. -/
def handed (packages : Packages) (shipment : Shipment) (arches : List Text)
    (format : MacosFormat) : OptionName → List Text
  | .target => [shipment.host.name]
  | .arch => arches
  | .productName => [shipment.config.name]
  | .manufacturer => [shipment.config.manufacturer]
  | .identifier => [shipment.config.identifier]
  | .version => [shipment.version]
  | .mainBinary => [shipment.binary]
  | .appDir => [ShipPlan.appDirectory packages shipment]
  | .outDir => [outputDirectory]
  | .macosFormat =>
      if shipment.host = .macos ∧ format ≠ .dmg then [format.name] else []
  | .windowsFormat =>
      if shipment.host = .windows then
        (shipment.windowsFormat.map (·.name)).toList else []
  | .upgradeCode =>
      if shipment.host = .windows ∧ shipment.windowsFormat = some .msi then
        [UpgradeCode.forIdentifier packages shipment.config.identifier]
      else []
  | _ => []

section

variable {format : MacosFormat} {spec : BundleSpec}

theorem given_bundleArguments (name : OptionName) :
    given (ShipPlan.bundleArguments packages shipment arches format) name =
      handed packages shipment arches format name := by
  cases name <;>
    simp [ShipPlan.bundleArguments, handed, given_macosFormatArguments,
      given_windowsFormatArguments, given_upgradeCodeArguments]

theorem read_name (host : Host) : Host.read host.name = some host := by
  cases host <;> decide

theorem read_windowsFormat (format : WindowsFormat) :
    WindowsFormat.read format.name = some format := by
  cases format <;> decide

theorem read_macosFormat (format : MacosFormat) :
    MacosFormat.read format.name = some format := by
  cases format <;> decide

theorem readOption_of_none {α : Type} {name : OptionName}
    {reader : Text → Option α} {otherwise : α}
    (hnone : handed packages shipment arches format name = []) :
    BundleCommand.readOption
      (ShipPlan.bundleArguments packages shipment arches format) name reader
      otherwise = .ok otherwise := by
  simp [BundleCommand.readOption, CommandOptions.single,
    given_bundleArguments, hnone]

theorem readOption_of_some {α : Type} {name : OptionName}
    {reader : Text → Option α} {otherwise read : α} {value : Text}
    (hvalue : handed packages shipment arches format name = [value])
    (hread : reader value = some read) :
    BundleCommand.readOption
      (ShipPlan.bundleArguments packages shipment arches format) name reader
      otherwise = .ok read := by
  simp [BundleCommand.readOption, CommandOptions.single,
    given_bundleArguments, hvalue, hread, allowed]

theorem readWindowsFormat_bundleArguments (spec : BundleSpec) :
    BundleCommand.readOption
      (ShipPlan.bundleArguments packages shipment arches format)
      .windowsFormat WindowsFormat.read .nsis =
        .ok (requestOf packages shipment arches format spec).windowsFormat := by
  cases hhost : shipment.host with
  | windows =>
      cases hformat : shipment.windowsFormat with
      | none =>
          rw [readOption_of_none (by simp [handed, hformat])]
          simp [requestOf, hformat]
      | some format =>
          have hgiven (arches : List Text) (macosFormat : MacosFormat) :
              handed packages shipment arches macosFormat .windowsFormat =
                [format.name] := by
            simp [handed, hhost, hformat]
          rw [readOption_of_some (hgiven _ _) (read_windowsFormat format)]
          simp [requestOf, hhost, hformat]
  | _ =>
      rw [readOption_of_none (by simp [handed, hhost])]
      simp [requestOf, hhost]

theorem readMacosFormat_bundleArguments (spec : BundleSpec) :
    BundleCommand.readOption
      (ShipPlan.bundleArguments packages shipment arches format)
      .macosFormat MacosFormat.read .dmg =
        .ok (requestOf packages shipment arches format spec).macosFormat := by
  by_cases hasked : shipment.host = .macos ∧ format ≠ .dmg
  · have hgiven : handed packages shipment arches format .macosFormat =
        [format.name] := if_pos hasked
    rw [readOption_of_some hgiven (read_macosFormat format)]
    simp [requestOf, hasked.1]
  · have hgiven : handed packages shipment arches format .macosFormat = [] :=
      if_neg hasked
    rw [readOption_of_none hgiven]
    show Except.ok MacosFormat.dmg =
      .ok (if shipment.host = .macos then format else .dmg)
    split
    · rename_i hhost
      simp [Classical.not_not.mp fun hother => hasked ⟨hhost, hother⟩]
    · rfl

theorem allowed_plain {arch : Text}
    (harch : arch ∈ [text "x86_64", text "arm64"]) : Plain arch := by
  have hall : ∀ arch ∈ [text "x86_64", text "arm64"], Plain arch := by
    decide
  exact hall arch harch

theorem readArches_bundleArguments (harches : Allowed arches) :
    BundleCommand.readArches
      (ShipPlan.bundleArguments packages shipment arches format) =
        .ok arches := by
  have hmulti : multi (ShipPlan.bundleArguments packages shipment arches
      format) .arch = arches := by
    rw [multi_eq_given, given_bundleArguments]
    · rfl
    · intro arch harch
      rw [given_bundleArguments] at harch
      exact (allowed_plain (harches.2 arch harch)).1
  have hcheck : arches.forM (fun arch => allowed .arch arch
      (if arch ∈ [text "x86_64", text "arm64"] then some () else none)) =
        .ok () := by
    have hall := harches.2
    clear harches hmulti
    induction arches with
    | nil => rfl
    | cons arch rest ih =>
        show (allowed .arch arch _ >>= fun _ => rest.forM _) = _
        rw [if_pos (hall arch (by simp))]
        exact ih fun other hother => hall other (by simp [hother])
  unfold BundleCommand.readArches
  rw [hmulti]
  obtain ⟨first, rest, rfl⟩ := List.exists_cons_of_ne_nil harches.1
  dsimp only
  rw [hcheck]
  rfl

theorem create_congr {productName manufacturer identifier : Text}
    {version : AppVersion} {binary appDirectory output : Text}
    (hspec : BundleSpec.create productName manufacturer identifier version
      binary appDirectory output = .ok spec) (other : Text) :
    BundleSpec.create productName manufacturer identifier version binary other
      output = .ok { spec with appDirectory := other } := by
  rw [create_eq_ok hspec]
  unfold BundleSpec.create at hspec ⊢
  obtain ⟨_, hcheck, _⟩ := bind_eq_ok_iff.mp hspec
  rw [hcheck]
  rfl

theorem readSpec_bundleArguments
    (hspec : ShipPlan.spec packages shipment = .ok spec) :
    BundleCommand.readSpec
      (ShipPlan.bundleArguments packages shipment arches format) =
        .ok (requestOf packages shipment arches format spec).spec := by
  unfold ShipPlan.spec at hspec
  obtain ⟨version, hversion, hspec⟩ := bind_eq_ok_iff.mp hspec
  have hrequired (name : OptionName) (value : Text)
      (hvalue : handed packages shipment arches format name = [value]) :
      required (ShipPlan.bundleArguments packages shipment arches format)
        name = .ok value := by
    simp [required, CommandOptions.single, given_bundleArguments, hvalue]
  unfold BundleCommand.readSpec
  rw [hrequired .productName _ rfl, hrequired .manufacturer _ rfl,
    hrequired .identifier _ rfl, hrequired .version _ rfl,
    hrequired .mainBinary _ rfl, hrequired .appDir _ rfl,
    hrequired .outDir _ rfl]
  show (BundleCommand.lift (AppVersion.parse shipment.version) >>=
    fun version => BundleCommand.lift (BundleSpec.create _ _ _ version _ _ _)) =
      _
  rw [hversion]
  exact congrArg BundleCommand.lift (create_congr hspec _)

theorem upgradeCode_bundleArguments (spec : BundleSpec) :
    CommandOptions.single
      (ShipPlan.bundleArguments packages shipment arches format)
      .upgradeCode =
        (requestOf packages shipment arches format spec).upgradeCode := by
  simp only [CommandOptions.single, given_bundleArguments, handed, requestOf]
  split <;> rfl

theorem readRequest_bundleArguments (harches : Allowed arches)
    (hspec : ShipPlan.spec packages shipment = .ok spec) (other : Host) :
    BundleCommand.readRequest other
      (ShipPlan.bundleArguments packages shipment arches format) =
        .ok (requestOf packages shipment arches format spec) := by
  unfold BundleCommand.readRequest
  rw [readOption_of_some rfl (read_name shipment.host),
    readOption_of_none rfl, readWindowsFormat_bundleArguments spec,
    readMacosFormat_bundleArguments spec,
    readArches_bundleArguments harches, readSpec_bundleArguments hspec,
    upgradeCode_bundleArguments spec]
  rfl

theorem fitting_bundleArguments :
    ∀ argument ∈ ShipPlan.bundleArguments packages shipment arches format,
      Fitting options argument := by
  have hmacos : ∀ argument ∈ ShipPlan.macosFormatArguments shipment format,
      Fitting options argument := by
    unfold ShipPlan.macosFormatArguments
    split <;> simp [Fitting, options, OptionName.isFlag]
  have hwindows : ∀ argument ∈ ShipPlan.windowsFormatArguments shipment,
      Fitting options argument := by
    unfold ShipPlan.windowsFormatArguments
    split <;> simp [Fitting, options, OptionName.isFlag]
  have hcode : ∀ argument ∈ ShipPlan.upgradeCodeArguments packages shipment,
      Fitting options argument := by
    unfold ShipPlan.upgradeCodeArguments
    split <;> simp [Fitting, options, OptionName.isFlag]
  unfold ShipPlan.bundleArguments
  simp only [List.forall_mem_append, List.forall_mem_cons, List.forall_mem_map]
  refine ⟨⟨⟨⟨⟨?_, ?_⟩, ?_⟩, hmacos⟩, hwindows⟩, hcode⟩
  all_goals simp [Fitting, options, OptionName.isFlag]

theorem run_bundling (harches : Allowed arches)
    (hspec : ShipPlan.spec packages shipment = .ok spec)
    (title label : Text) (other : Host) (service : Option ServiceConfig) :
    BundleCommand.run packages other service
      (ShipPlan.bundling packages shipment title arches format
        label).arguments =
      BundleCommand.produce packages service
        (requestOf packages shipment arches format spec) := by
  unfold BundleCommand.run ShipPlan.bundling
  dsimp only
  rw [parse_words options fitting_bundleArguments]
  dsimp only
  rw [readRequest_bundleArguments harches hspec]
  rfl

end

/-! ## What a bundle step writes -/

section

variable {service : Option ServiceConfig} {spec : BundleSpec}
  {format : MacosFormat}

theorem lift_eq_ok {α : Type} {step : Except BundleError α} {value : α} :
    BundleCommand.lift step = .ok value ↔ step = .ok value := by
  cases step <;> simp [BundleCommand.lift]

theorem singleArchitecture_of_parse {arch : Text} {first : TargetArch}
    (hfirst : TargetArch.parse arch = .ok first) :
    BundleCommand.singleArchitecture [arch] = .ok first := by
  have hmapped : [arch].mapM TargetArch.parse = .ok [first] := by
    rw [List.mapM_cons, hfirst]
    rfl
  unfold BundleCommand.singleArchitecture BundleCommand.architectures
  rw [hmapped]
  rfl

/-- What a bundle of macOS is written as, if it is. -/
theorem macos_written {path : Text}
    (hmade : BundleCommand.macos packages service spec arches format =
      .ok path) :
    (format = .thin ∧ path = spec.appDirectory) ∨
      (format ≠ .thin ∧ ∃ required,
        arches.mapM TargetArch.parse = .ok required ∧
        path = packages.join spec.outputDirectory
          (macosNameFor format required spec)) := by
  unfold BundleCommand.macos at hmade
  obtain ⟨_, -, hmade⟩ := bind_eq_ok_iff.mp hmade
  obtain ⟨_, -, hmade⟩ := bind_eq_ok_iff.mp hmade
  cases format with
  | thin =>
      obtain ⟨_, -, hmade⟩ := bind_eq_ok_iff.mp hmade
      cases hmade
      exact Or.inl ⟨rfl, rfl⟩
  | pkgDmg =>
      obtain ⟨required, hrequired, hmade⟩ := bind_eq_ok_iff.mp hmade
      obtain ⟨_, -, hmade⟩ := bind_eq_ok_iff.mp hmade
      cases hmade
      exact Or.inr ⟨by decide, required, lift_eq_ok.mp hrequired, rfl⟩
  | _ =>
      obtain ⟨required, hrequired, hmade⟩ := bind_eq_ok_iff.mp hmade
      cases hmade
      exact Or.inr ⟨by decide, required, lift_eq_ok.mp hrequired, rfl⟩

theorem windows_written {first : TargetArch} (identifier : Text)
    (asked : Option WindowsFormat)
    (hsingle : BundleCommand.singleArchitecture arches = .ok first) :
    BundleCommand.windows packages spec arches (asked.getD .nsis)
      (if asked = some .msi then
        some (UpgradeCode.forIdentifier packages identifier) else none) =
      .ok (packages.join spec.outputDirectory
        (windowsNameFor asked first spec)) := by
  match asked with
  | some .msi =>
      unfold BundleCommand.windows BundleCommand.msi
      simp only [Option.getD_some, if_true, hsingle,
        UpgradeCode.checkUpgradeCode_forIdentifier]
      rfl
  | some .nsis | none =>
      unfold BundleCommand.windows
      simp only [Option.getD_some, Option.getD_none, hsingle]
      rfl

theorem linux_written {first : TargetArch}
    (hsingle : BundleCommand.singleArchitecture arches = .ok first) :
    BundleCommand.linux packages service spec arches .both =
      .ok [packages.join spec.outputDirectory
          (DebBundler.fileNameFor first spec),
        packages.join spec.outputDirectory
          (RpmBundler.fileNameFor first spec)] := by
  unfold BundleCommand.linux
  rw [hsingle]
  rfl

theorem output_of_spec (hspec : ShipPlan.spec packages shipment = .ok spec) :
    spec.outputDirectory = outputDirectory := by
  unfold ShipPlan.spec at hspec
  obtain ⟨version, -, hspec⟩ := bind_eq_ok_iff.mp hspec
  rw [create_eq_ok hspec]

/-- Off macOS there is one architecture to a step. -/
def Grouped (shipment : Shipment) (arches : List Text) : Prop :=
  shipment.host = .macos ∨ ∃ arch, arches = [arch]

/-- The path the plan names is one the step writes. -/
theorem mem_of_produce {first : TargetArch} {name : Text} {made : List Text}
    (hspec : ShipPlan.spec packages shipment = .ok spec)
    (hfirst : TargetArch.parse (arches.headD []) = .ok first)
    (hname : Named shipment arches format spec first name)
    (hgrouped : Grouped shipment arches) (hformat : format ≠ .thin)
    (hmade : BundleCommand.produce packages service
      (requestOf packages shipment arches format spec) = .ok made) :
    packages.join outputDirectory name ∈ made := by
  rw [← output_of_spec hspec]
  unfold BundleCommand.produce requestOf at hmade
  dsimp only at hmade
  have hsingle (hhost : shipment.host ≠ .macos) :
      BundleCommand.singleArchitecture arches = .ok first := by
    obtain ⟨arch, rfl⟩ := hgrouped.resolve_left hhost
    exact singleArchitecture_of_parse hfirst
  cases hname with
  | macos hhost hrequired =>
      rename_i required
      simp only [hhost, if_true] at hmade
      obtain ⟨path, hpath, hmade⟩ := bind_eq_ok_iff.mp hmade
      cases hmade
      obtain ⟨hthin, -⟩ | ⟨-, others, hothers, rfl⟩ := macos_written hpath
      · exact absurd hthin hformat
      · rw [hrequired, Except.ok.injEq] at hothers
        subst hothers
        exact List.mem_singleton.mpr rfl
  | windows hhost =>
      simp only [hhost, if_true, true_and] at hmade
      rw [windows_written _ _ (hsingle (by simp [hhost]))] at hmade
      cases hmade
      exact List.mem_singleton.mpr rfl
  | linux hhost =>
      simp only [hhost] at hmade
      rw [linux_written (hsingle (by simp [hhost]))] at hmade
      cases hmade
      exact List.mem_cons_self

theorem subset_join {directory name : Text} (hname : name ≠ []) :
    name ⊆ packages.join directory name :=
  (packages.suffix_join directory name hname).subset

theorem subset_of_namedAfter {binary name : Text}
    (hname : NamedAfter binary name) : binary ⊆ name := by
  obtain ⟨rest, rfl, -, -⟩ := hname
  exact List.subset_append_left binary rest

/-- The binary's name is in every path a step writes. -/
theorem binary_subset_of_produce {first : TargetArch} {made : List Text}
    (hspec : ShipPlan.spec packages shipment = .ok spec)
    (hfirst : TargetArch.parse (arches.headD []) = .ok first)
    (hgrouped : Grouped shipment arches)
    (hmade : BundleCommand.produce packages service
      (requestOf packages shipment arches format spec) = .ok made) :
    ∀ path ∈ made, shipment.binary ⊆ path := by
  have hnamed {name : Text} (directory : Text)
      (hname : NamedAfter spec.mainBinaryName name) :
      shipment.binary ⊆ packages.join directory name := by
    rw [← binary_of_spec hspec]
    exact List.Subset.trans (subset_of_namedAfter hname)
      (subset_join (namedAfter_ne_nil hname))
  have hbundled {name : Text} (directory : Text)
      (hname : Named shipment arches format spec first name) :
      shipment.binary ⊆ packages.join directory name :=
    hnamed directory (namedAfter_of_named hname)
  have hsingle (hhost : shipment.host ≠ .macos) :
      BundleCommand.singleArchitecture arches = .ok first := by
    obtain ⟨arch, rfl⟩ := hgrouped.resolve_left hhost
    exact singleArchitecture_of_parse hfirst
  unfold BundleCommand.produce requestOf at hmade
  dsimp only at hmade
  cases hhost : shipment.host with
  | macos =>
      simp only [hhost, if_true] at hmade
      obtain ⟨path, hpath, hmade⟩ := bind_eq_ok_iff.mp hmade
      cases hmade
      intro path' hpath'
      rw [List.mem_singleton.mp hpath']
      obtain ⟨-, rfl⟩ | ⟨-, required, hrequired, rfl⟩ := macos_written hpath
      · have happ : ShipPlan.appDirectory packages shipment =
            ShipPlan.builtBundleFor packages shipment := by
          simp [ShipPlan.appDirectory, hhost]
        have hsome : shipment.binary ++ text ".app" ≠ [] :=
          List.append_ne_nil_of_right_ne_nil _ (by decide)
        simp only [happ, ShipPlan.builtBundleFor]
        exact List.Subset.trans (List.subset_append_left _ (text ".app"))
          (subset_join hsome)
      · exact hbundled _ (.macos hhost hrequired)
  | windows =>
      simp only [hhost, if_true, true_and] at hmade
      rw [windows_written _ _ (hsingle (by simp [hhost]))] at hmade
      cases hmade
      intro path hpath
      rw [List.mem_singleton.mp hpath]
      exact hbundled _ (.windows hhost)
  | linux =>
      simp only [hhost] at hmade
      rw [linux_written (hsingle (by simp [hhost]))] at hmade
      cases hmade
      intro path hpath
      rcases List.mem_pair.mp hpath with rfl | rfl
      · exact hbundled _ (.linux hhost)
      · exact hnamed _ (namedAfter_rpm first spec)

theorem produce_completes {first : TargetArch} {other : MacosFormat}
    {name : Text}
    (hfirst : TargetArch.parse (arches.headD []) = .ok first)
    (hname : Named shipment arches other spec first name)
    (hgrouped : Grouped shipment arches) (hsigns : SignsFiles shipment)
    (hformat : shipment.host = .macos → format = .dmg ∨ format = .tar ∨
      (format = .thin ∧ ∃ arch, arches = [arch])) :
    ∃ made, BundleCommand.produce packages shipment.config.service
      (requestOf packages shipment arches format spec) = .ok made := by
  have hsingle {arch : Text} (harches : arches = [arch]) :
      BundleCommand.singleArchitecture arches = .ok first := by
    subst harches
    exact singleArchitecture_of_parse hfirst
  unfold BundleCommand.produce requestOf
  dsimp only
  cases hname with
  | macos hhost hrequired =>
      rename_i required
      have hroute := (hsigns hhost).2
      have hsystem : BundleCommand.isSystemRoute shipment.config.service =
          false := decide_eq_false hroute
      have hcheck : BundleCommand.checkFormat shipment.config.service format =
          .ok () := by
        simp [BundleCommand.checkFormat, hsystem]
      have hservice : BundleCommand.checkService shipment.config.service
          { spec with
            appDirectory := ShipPlan.appDirectory packages shipment } =
          .ok () := by
        unfold BundleCommand.checkService
        split
        · rfl
        · rename_i macos hmacos
          have hother : macos.route ≠ .system := by
            intro hsame
            refine hroute ?_
            simp [DovetailConfig.macosService, hmacos, hsame]
          rw [if_neg hother]
      simp only [hhost, if_true, BundleCommand.macos, hcheck, hservice]
      obtain rfl | rfl | ⟨rfl, arch, harches⟩ := hformat hhost
      · simp only [BundleCommand.architectures, hrequired]
        exact ⟨_, rfl⟩
      · simp only [BundleCommand.architectures, hrequired]
        exact ⟨_, rfl⟩
      · simp only [hsingle harches]
        exact ⟨_, rfl⟩
  | windows hhost =>
      obtain ⟨arch, harches⟩ := hgrouped.resolve_left (by simp [hhost])
      simp only [hhost, if_true, true_and]
      rw [windows_written _ _ (hsingle harches)]
      exact ⟨_, rfl⟩
  | linux hhost =>
      obtain ⟨arch, harches⟩ := hgrouped.resolve_left (by simp [hhost])
      simp only [hhost]
      rw [linux_written (hsingle harches)]
      exact ⟨_, rfl⟩

end

end

end Dovetail.Cli.Ship
