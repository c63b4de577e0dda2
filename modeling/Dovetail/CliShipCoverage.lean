import Dovetail.CliDoctor
import Dovetail.SignerChecksums

/-!
# The targets a plan covers

A plan bundles every declared target of its host, and for one architecture
only what it bundles was built: `FlutterBuild` has one directory for each
host, that of a build for x64.  With more than one target on Linux, the
checksums of the last replace those of the others.
-/

namespace Dovetail.Cli.Ship

open CodeUnits CommandOptions Bundler Signer FallibleSteps SuppliedSteps

/-! ## What is built -/

/-- Which architectures are in a directory after `flutter build`.  On macOS
an application is built for both, elsewhere for that of the machine, into a
directory that is named after it. -/
structure FlutterTool (packages : Packages) where
  machine : Text
  product : Text
  fills : Host → Bool → Text → Text → Prop
  fills_macos : ∀ release directory,
    ∀ arch ∈ [text "x86_64", text "aarch64"],
      (fills .macos release directory arch ↔
        directory = packages.join (FlutterBuild.outputOf .macos release)
          (product ++ text ".app"))
  fills_other : ∀ host release arch, host ≠ .macos →
    (fills host release (FlutterBuild.outputOf host release) arch ↔
      arch = text "x86_64" ∧ machine = text "x86_64")

section

variable {packages : Packages} (tool : FlutterTool packages)
  (shipment : Shipment)

/-- The path is one of what a bundle step writes, which was given the
architecture of the target and a directory that was built for it. -/
def MadeFor (steps : List ShipStep) (path target : Text) : Prop :=
  ∃ step ∈ steps, step.command = text "bundle" ∧
    (∃ made, (pipeline packages shipment).writes step = .ok made ∧
      path ∈ made) ∧
    ∃ arguments directory, parse options step.arguments = some arguments ∧
      ShipPlan.bundlerArch (ShipPlan.wireArch target) ∈
        multi arguments .arch ∧
      CommandOptions.single arguments .appDir = some directory ∧
      tool.fills shipment.host (ShipPlan.releaseBuild shipment) directory
        (ShipPlan.wireArch target)

/-! ## What is released -/

/-- What the release step takes its options for. -/
def releasedArtifacts (packages : Packages) (shipment : Shipment)
    (step : ShipStep) : Option (List Release.Artifact) := do
  let arguments ← parse options step.arguments
  let version ← CommandOptions.single arguments .version
  (multi arguments .artifact).mapM fun entry =>
    (readEntry packages (shipment.config.update.map (·.toUpdateConfig))
      version entry).map fun read =>
        { platformKey := entry.takeWhile (· != Release.equals)
          url := read.1
          path := read.2 }

/-- Whoever reads the manifest, and what minisign signs a path with. -/
structure Reader where
  Version : Type
  Date : Type
  runtime : Updater.Runtime Version Date
  version : Version
  signature : Text → Text

def Reader.release (reader : Reader) (artifact : Release.Artifact) :
    Updater.PlatformRelease where
  url := artifact.url
  signature := reader.signature artifact.path

def Reader.manifest (reader : Reader) (artifacts : List Release.Artifact) :
    Updater.UpdateManifest reader.Version reader.Date where
  version := reader.version
  releases := artifacts.map fun artifact =>
    (artifact.platformKey, reader.release artifact)
  notes := none
  publishedAt := none

/-! ## What is written over -/

def space : UInt16 := 32

/-- The last word of a step's label. -/
def targetOf (step : ShipStep) : Text :=
  (step.label.reverse.takeWhile (· != space)).reverse

/-- The files a step writes, or signs in their place. -/
def produced (packages : Packages) (shipment : Shipment)
    (step : ShipStep) : List Text :=
  if step.command = text "bundle" then
    ((pipeline packages shipment).writes step).toOption.getD []
  else if step.command = text "sign" then
    match parse options step.arguments with
    | none => []
    | some arguments =>
        if shipment.host = .linux then
          [packages.join
            ((CommandOptions.single arguments .outDir).getD (text "."))
            ChecksumWriter.fileName]
        else multi arguments .file ++ given arguments .directory ++
          given arguments .bundle
  else []

/-- The checksums that are there when the steps have been run; none when
one of them fails. -/
def checksumsAfter (packages : Packages) (shipment : Shipment)
    (tools : ChecksumTools) (onDisk : Text → Bool) :
    List Text → Option Checksums → List ShipStep → Option (Option Checksums)
  | _, sums, [] => some sums
  | made, sums, step :: rest =>
      if step.command = text "sign" then do
        let arguments ← parse options step.arguments
        let written ← (ChecksumWriter.write tools
          (fun file => made.contains file || onDisk file)
          (multi arguments .file)
          ((CommandOptions.single arguments .outDir).getD (text "."))).toOption
        checksumsAfter packages shipment tools onDisk made (some written) rest
      else do
        let own ← ((pipeline packages shipment).writes step).toOption
        checksumsAfter packages shipment tools onDisk (made ++ own) sums rest

/-! ## Coverage -/

structure Covers (reader : Reader) (tools : ChecksumTools)
    (onDisk : Text → Bool) (plan : ShipPlan) : Prop where
  /-- Every target has an artefact that was made for it. -/
  made : ∀ target ∈ ShipPlan.targetsForHost shipment.config shipment.host,
    ∃ artifact ∈ plan.artifacts, MadeFor tool shipment plan.steps artifact.2
      target
  /-- It is what a client finds in the manifest. -/
  released : Releases shipment → ∃ step ∈ plan.steps,
    step.command = text "release" ∧
    ∃ artifacts, releasedArtifacts packages shipment step = some artifacts ∧
      ∀ target ∈ ShipPlan.targetsForHost shipment.config shipment.host,
        ∃ artifact ∈ artifacts,
          Updater.releaseFor reader.runtime (reader.manifest artifacts)
            target = .ok (reader.release artifact) ∧
          MadeFor tool shipment plan.steps artifact.path target
  /-- No step writes over what was made for another target. -/
  apart : ∀ before step between later rest,
    plan.steps = before ++ step :: between ++ later :: rest →
    step.command ∈ [text "bundle", text "sign"] →
    later.command ∈ [text "bundle", text "sign"] →
    targetOf step ≠ targetOf later →
    ∀ file ∈ produced packages shipment step,
      file ∉ produced packages shipment later
  /-- On Linux the checksums name every artefact in the end. -/
  summed : shipment.host = .linux →
    ∃ sums, checksumsAfter packages shipment tools onDisk [] none plan.steps =
        some (some sums) ∧
      ∀ artifact ∈ plan.artifacts, artifact.2 ∈ sums.files

/-- One architecture of the machine, an application that is found where it
was built, and names that are read as they were handed on. -/
structure Coverable (tools : ChecksumTools) : Prop where
  macos : shipment.host = .macos →
    ShipPlan.builtBundleFor packages shipment =
      packages.join (FlutterBuild.outputOf .macos
        (ShipPlan.releaseBuild shipment)) (tool.product ++ text ".app")
  other : shipment.host ≠ .macos → tool.machine = text "x86_64" ∧
    ∀ target ∈ ShipPlan.targetsForHost shipment.config shipment.host,
      ShipPlan.wireArch target = text "x86_64"
  plain : Releases shipment → Plain shipment.binary
  linux : shipment.host = .linux → comma ∉ shipment.binary ∧
    ∀ name, ShipPlan.artifactNameFor packages shipment [text "x86_64"] .dmg =
      .ok name →
        tools.dirname (tools.whole (packages.join outputDirectory name)) =
          tools.whole outputDirectory

end

/-! ## What bundle steps are given -/

section

variable {packages : Packages} {shipment : Shipment} {plan : ShipPlan}
  {plans : List ShipPlan.GroupPlan} {group : List Text}

theorem parse_bundled (title : Text) (format : MacosFormat) :
    parse options (bundled packages shipment group title format).arguments =
      some (ShipPlan.bundleArguments packages shipment
        (ShipPlan.archesOf group) format) :=
  parse_words options fitting_bundleArguments

theorem single_appDir (arches : List Text) (format : MacosFormat) :
    CommandOptions.single
      (ShipPlan.bundleArguments packages shipment arches format) .appDir =
        some (ShipPlan.appDirectory packages shipment) := by
  simp [CommandOptions.single, given_bundleArguments, handed]

theorem multi_arch {arches : List Text} (harches : Allowed arches)
    (format : MacosFormat) :
    multi (ShipPlan.bundleArguments packages shipment arches format) .arch =
      arches := by
  rw [multi_eq_given, given_bundleArguments]
  · rfl
  · intro arch harch
    rw [given_bundleArguments] at harch
    exact (allowed_plain (harches.2 arch harch)).1

/-- The bundle steps of a plan are those made for its groups. -/
theorem bundled_of_planned {part : ShipPlan.GroupPlan}
    (hplanned : Planned packages shipment group part) {step : ShipStep}
    (hstep : step ∈ part.steps) (hcommand : step.command = text "bundle") :
    ∃ title format, step = bundled packages shipment group title format := by
  have hsign : text "sign" ≠ text "bundle" := by decide
  have hthinned : ∀ step ∈ thinned packages shipment group,
      ∃ title format,
        step = bundled packages shipment group title format := by
    unfold thinned
    split
    · intro step hstep
      exact ⟨_, _, List.mem_singleton.mp hstep⟩
    · simp
  cases hplanned with
  | macosInternal hhost hchannel hname =>
      rcases List.mem_append.mp hstep with hthin | hlisted
      · exact hthinned step hthin
      · simp only [List.mem_cons, List.not_mem_nil, or_false] at hlisted
        rcases hlisted with rfl | rfl
        · exact absurd hcommand hsign
        · exact ⟨_, _, rfl⟩
  | macosRelease hhost hchannel hname harchive =>
      rcases List.mem_append.mp hstep with hthin | hlisted
      · exact hthinned step hthin
      · simp only [List.mem_cons, List.not_mem_nil, or_false] at hlisted
        rcases hlisted with rfl | rfl | rfl | rfl
        · exact absurd hcommand hsign
        · exact ⟨_, _, rfl⟩
        · exact absurd hcommand hsign
        · exact ⟨_, _, rfl⟩
  | other hhost hname hpayload =>
      rcases List.mem_append.mp hstep with hpaid | hlisted
      · rcases hpayload with rfl | rfl
        · simp at hpaid
        · rw [List.mem_singleton.mp hpaid] at hcommand
          exact absurd hcommand hsign
      · simp only [List.mem_cons, List.not_mem_nil, or_false] at hlisted
        rcases hlisted with rfl | rfl
        · exact ⟨_, _, rfl⟩
        · exact absurd hcommand hsign

theorem mem_body_of_command (hmade : MadeOf packages shipment plan plans)
    {step : ShipStep} (hstep : step ∈ plan.steps)
    (hcommand : step.command ∈ [text "bundle", text "sign"]) :
    ∃ part ∈ plans, step ∈ part.steps := by
  have hbuild : step.command ≠ text "build" := by
    intro hsame
    rw [hsame] at hcommand
    exact absurd hcommand (by decide)
  have hrelease : step.command ≠ text "release" := by
    intro hsame
    rw [hsame] at hcommand
    exact absurd hcommand (by decide)
  rw [hmade.steps] at hstep
  rcases List.mem_append.mp hstep with hbody | hreleasing
  · rcases List.mem_append.mp hbody with hbuilding | hgroups
    · exact absurd (command_building step hbuilding) hbuild
    · exact List.mem_flatMap.mp hgroups
  · split at hreleasing
    · rw [List.mem_singleton.mp hreleasing] at hrelease
      exact absurd rfl hrelease
    · simp at hreleasing

/-- What is made for a target comes out of the application's directory, and
is named after the binary. -/
theorem of_madeFor {tool : FlutterTool packages} {path target : Text}
    (hmade : MadeOf packages shipment plan plans)
    (hsigns : SignsFiles shipment)
    (hmadeFor : MadeFor tool shipment plan.steps path target) :
    tool.fills shipment.host (ShipPlan.releaseBuild shipment)
        (ShipPlan.appDirectory packages shipment)
        (ShipPlan.wireArch target) ∧
      shipment.binary ⊆ path := by
  rcases hmadeFor with ⟨step, hstep, hcommand, ⟨made, hwrites, hpath⟩,
    arguments, directory, hparse, -, hdirectory, hfills⟩
  rcases mem_body_of_command hmade hstep (by simp [hcommand]) with
    ⟨part, hpart, hmem⟩
  rcases hmade.groups part hpart with ⟨group, hours, hplanned⟩
  rcases bundled_of_planned hplanned hmem hcommand with ⟨title, format, rfl⟩
  rw [parse_bundled, Option.some.injEq] at hparse
  rw [← hparse, single_appDir, Option.some.injEq] at hdirectory
  rw [← hdirectory] at hfills
  rcases completes_of_planned hours hplanned hsigns _ hmem with
    ⟨own, hown, hnamed⟩
  rw [hown, Except.ok.injEq] at hwrites
  rw [hwrites] at hnamed
  exact ⟨hfills, hnamed path hpath⟩

/-! ## What a plan that is not refused is made of -/

/-- A daemon that only an installer can place is refused on the release
channel. -/
theorem signsFiles_of_not_refused
    (hplan : ShipPlan.of packages shipment = .ok plan)
    (hchannel : shipment.channel = .release) (hrefusals : plan.refusals = []) :
    SignsFiles shipment := by
  intro hhost
  constructor
  · exact hchannel
  · intro hroute
    rcases Option.map_eq_some_iff.mp hroute with ⟨service, hservice, hsystem⟩
    rw [ShipPlan.refusals_of_eq_ok hplan] at hrefusals
    have hnone := ShipPlan.serviceRefusals_of_refusalsOf hrefusals
    simp [ShipPlan.serviceRefusals, hhost, hservice, hchannel, hsystem] at hnone

theorem mine_ne_nil (hmade : MadeOf packages shipment plan plans) :
    ShipPlan.targetsForHost shipment.config shipment.host ≠ [] := by
  rcases List.exists_cons_of_ne_nil hmade.nonempty with ⟨part, rest, rfl⟩
  rcases hmade.groups part List.mem_cons_self with ⟨group, hours, -⟩
  exact hours.nonempty

/-! ## What the release step reads -/

theorem releasedArtifacts_releasing (artifacts : Paths) :
    releasedArtifacts packages shipment
        (ShipPlan.releasing shipment artifacts) =
      ((artifacts.map entryText).flatMap (·.splitOn comma)).mapM fun entry =>
        (readEntry packages (shipment.config.update.map (·.toUpdateConfig))
          shipment.version entry).map fun read =>
            { platformKey := entry.takeWhile (· != Release.equals)
              url := read.1
              path := read.2 } := by
  rcases @parse_releasing shipment artifacts with
    ⟨arguments, hparse, hversion, hartifact⟩
  unfold releasedArtifacts
  rw [hparse]
  simp only [Option.bind_eq_bind, Option.bind_some, hversion, hartifact]

/-- An artefact under its label, with the url its file is found at. -/
def releasedAs (packages : Packages) (version base : Text)
    (made : Text × Text) : Release.Artifact where
  platformKey := made.1
  url := Release.UpdateConfig.urlFor base version (packages.basename made.2)
  path := made.2

theorem releasedArtifacts_of_plain {artifacts : Paths} {base : Text}
    (hartefacts : ∀ made ∈ artifacts, Artefact packages shipment made)
    (hplain : Plain shipment.binary)
    (hbase : shipment.config.update.bind (·.baseUrl) = some base) :
    releasedArtifacts packages shipment
        (ShipPlan.releasing shipment artifacts) =
      some (artifacts.map (releasedAs packages shipment.version base)) := by
  rw [releasedArtifacts_releasing, pieces_of_plain hartefacts hplain,
    List.mapM_map]
  apply mapM_eq_some_map
  intro made hmade
  have hmark := hartefacts made hmade
  have hkey : (entryText made).takeWhile (· != Release.equals) = made.1 := by
    unfold entryText
    rw [List.takeWhile_append_of_pos, List.takeWhile_cons_of_neg]
    · exact List.append_nil _
    · simp
    · intro unit hunit
      have hother : unit ≠ Release.equals := by
        intro hsame
        exact hmark.label.2 (hsame ▸ hunit)
      simpa using hother
  show ((readEntry _ _ _ (entryText made)).map fun read =>
    ({ platformKey := (entryText made).takeWhile (· != Release.equals)
       url := read.1, path := read.2 } : Release.Artifact)) = _
  rw [readEntry_entryText hmark hplain hbase, hkey]
  rfl

/-! ## What the checksums are written for -/

theorem eq_ok_of_toOption {Failure α : Type} {step : Except Failure α}
    {value : α} (hstep : step.toOption = some value) : step = .ok value := by
  cases step with
  | error failure => cases hstep
  | ok other =>
      rw [Except.toOption, Option.some.injEq] at hstep
      rw [hstep]

/-- The checksums that are there in the end were written by a sign step. -/
theorem written_of_checksumsAfter {tools : ChecksumTools}
    {onDisk : Text → Bool} {steps : List ShipStep} {made : List Text}
    {before : Option Checksums} {sums : Checksums}
    (hafter : checksumsAfter packages shipment tools onDisk made before
      steps = some (some sums)) :
    before = some sums ∨ ∃ step ∈ steps, step.command = text "sign" ∧
      ∃ arguments there, parse options step.arguments = some arguments ∧
        ChecksumWriter.write tools there (multi arguments .file)
          ((CommandOptions.single arguments .outDir).getD (text ".")) =
            .ok sums := by
  induction steps generalizing made before with
  | nil =>
      left
      simpa [checksumsAfter] using hafter
  | cons step rest ih =>
      unfold checksumsAfter at hafter
      split at hafter
      · next hsign =>
          rcases Option.bind_eq_some_iff.mp hafter with
            ⟨arguments, harguments, hrest⟩
          rcases Option.bind_eq_some_iff.mp hrest with
            ⟨written, hwritten, hlater⟩
          have hwrite := eq_ok_of_toOption hwritten
          right
          rcases ih hlater with hsame | ⟨other, hother, hfound⟩
          · rw [Option.some.injEq] at hsame
            rw [hsame] at hwrite
            exact ⟨step, List.mem_cons_self, hsign, arguments, _,
              harguments, hwrite⟩
          · exact ⟨other, List.mem_cons_of_mem _ hother, hfound⟩
      · rcases Option.bind_eq_some_iff.mp hafter with ⟨own, hown, hlater⟩
        rcases ih hlater with hsame | ⟨other, hother, hfound⟩
        · exact Or.inl hsame
        · right
          exact ⟨other, List.mem_cons_of_mem _ hother, hfound⟩

/-- On Linux a group is bundled and then summed. -/
theorem planGroup_linux (hhost : shipment.host = .linux)
    (hchannel : shipment.channel = .release)
    {part : ShipPlan.GroupPlan}
    (hpart : ShipPlan.planGroup packages shipment group = .ok part) :
    ∃ name, ShipPlan.artifactNameFor packages shipment
        (ShipPlan.archesOf group) .dmg = .ok name ∧
      part = {
        steps := [bundled packages shipment group (text "bundle ") .dmg,
          signed packages shipment group name]
        artifacts := listed packages group name
        downloads := [] } := by
  have hformat := macosDownloadFormat_release hchannel
  unfold ShipPlan.planGroup at hpart
  rcases bind_eq_ok_iff.mp hpart with ⟨name, hname, hrest⟩
  rw [hformat] at hname hrest
  simp only [hhost, hchannel, ShipChannel.isInternal, reduceCtorEq,
    decide_false, Bool.false_eq_true, if_false] at hrest
  cases hrest
  exact ⟨name, hname, rfl⟩

/-- The options of a step that sums a file. -/
def summing (shipment : Shipment) (path : Text) :
    List (Argument OptionName) :=
  [.valued .target shipment.host.name, .valued .file path,
    .valued .outDir outputDirectory]

theorem multi_file_summing (path : Text) :
    multi (summing shipment path) .file = path.splitOn comma := by
  simp [multi, summing]

theorem single_outDir_summing (path : Text) :
    CommandOptions.single (summing shipment path) .outDir =
      some outputDirectory := by
  simp [CommandOptions.single, summing]

theorem parse_signed_linux (hhost : shipment.host = .linux) (name : Text) :
    parse options (signed packages shipment group name).arguments =
      some (summing shipment (packages.join outputDirectory name)) := by
  have hwords : (signed packages shipment group name).arguments =
      words options
        (summing shipment (packages.join outputDirectory name)) := by
    simp only [signed, ShipPlan.signing, hhost, summing]
  rw [hwords]
  apply parse_words
  simp [summing, Fitting, options, OptionName.isFlag]

/-- The files in the checksums of a Linux plan are an artefact cut at its
commas, and lie in the directory of the artefacts. -/
theorem files_of_checksumsAfter {tools : ChecksumTools}
    {onDisk : Text → Bool} {sums : Checksums}
    (hhost : shipment.host = .linux) (hchannel : shipment.channel = .release)
    (hmapped : (ShipPlan.groups (ShipPlan.targetsForHost shipment.config
      shipment.host) shipment.host).mapM
        (ShipPlan.planGroup packages shipment) = .ok plans)
    (hmade : MadeOf packages shipment plan plans)
    (hafter : checksumsAfter packages shipment tools onDisk [] none
      plan.steps = some (some sums)) :
    ∀ file ∈ sums.files, comma ∉ file ∧
      tools.dirname (tools.whole file) = tools.whole outputDirectory := by
  have hbundle : text "bundle" ≠ text "sign" := by decide
  rcases written_of_checksumsAfter hafter with hnone | hwritten
  · cases hnone
  · rcases hwritten with ⟨step, hstep, hsign, arguments, there, hparse, hwrite⟩
    rcases mem_body_of_command hmade hstep (by simp [hsign]) with
      ⟨part, hpart, hmem⟩
    rcases exists_item_of_mapM_eq_ok hmapped hpart with
      ⟨group, -, hplanned⟩
    rcases planGroup_linux hhost hchannel hplanned with ⟨name, -, rfl⟩
    simp only [List.mem_cons, List.not_mem_nil, or_false] at hmem
    rcases hmem with rfl | rfl
    · exact absurd hsign hbundle
    · rw [parse_signed_linux hhost, Option.some.injEq] at hparse
      rw [← hparse, multi_file_summing, single_outDir_summing] at hwrite
      rcases ChecksumWriter.files_of_write_eq_ok hwrite with
        ⟨hsame, hinside⟩
      intro file hfile
      rw [hsame] at hfile
      constructor
      · exact not_mem_of_mem_splitOn hfile
      · exact hinside file hfile

/-! ## The targets of a group -/

theorem wireArch_of_bundlerArch :
    ∀ key ∈ knownKeys, ShipPlan.bundlerArch (ShipPlan.wireArch key) ∈
        [text "x86_64", text "arm64"] →
      ShipPlan.wireArch key ∈ [text "x86_64", text "aarch64"] := by
  decide

theorem named_of_planned {part : ShipPlan.GroupPlan}
    (hplanned : Planned packages shipment group part) :
    ∃ format name, ShipPlan.artifactNameFor packages shipment
      (ShipPlan.archesOf group) format = .ok name := by
  cases hplanned with
  | macosInternal hhost hchannel hname => exact ⟨_, _, hname⟩
  | macosRelease hhost hchannel hname harchive => exact ⟨_, _, hname⟩
  | other hhost hname hpayload => exact ⟨_, _, hname⟩

theorem allowed_of_planned (hours : Ours shipment group)
    {part : ShipPlan.GroupPlan}
    (hplanned : Planned packages shipment group part) :
    Allowed (ShipPlan.archesOf group) := by
  rcases named_of_planned hplanned with ⟨format, name, hname⟩
  rcases hours.ground hname with ⟨spec, first, hground, -⟩
  exact hground.allowed

theorem wireArch_of_mem (hours : Ours shipment group)
    {part : ShipPlan.GroupPlan}
    (hplanned : Planned packages shipment group part) {target : Text}
    (htarget : target ∈ group) :
    ShipPlan.wireArch target ∈ [text "x86_64", text "aarch64"] := by
  apply wireArch_of_bundlerArch
  · exact known_of_mem_group hours.mem htarget
  · exact (allowed_of_planned hours hplanned).2 _
      (List.mem_map.mpr ⟨target, htarget, rfl⟩)

theorem exists_group_of_target {target : Text}
    (htarget : target ∈ ShipPlan.targetsForHost shipment.config
      shipment.host) :
    ∃ group ∈ ShipPlan.groups (ShipPlan.targetsForHost shipment.config
      shipment.host) shipment.host, target ∈ group := by
  unfold ShipPlan.groups
  split
  · exact ⟨_, List.mem_singleton_self _, htarget⟩
  · exact ⟨[target], List.mem_map.mpr ⟨target, htarget, rfl⟩,
      List.mem_singleton_self _⟩

theorem wireArch_of_target
    (hmapped : (ShipPlan.groups (ShipPlan.targetsForHost shipment.config
      shipment.host) shipment.host).mapM
        (ShipPlan.planGroup packages shipment) = .ok plans)
    {target : Text} (htarget : target ∈ ShipPlan.targetsForHost
      shipment.config shipment.host) :
    ShipPlan.wireArch target ∈ [text "x86_64", text "aarch64"] := by
  rcases exists_group_of_target htarget with ⟨group, hgroup, hmem⟩
  rcases exists_of_mem_of_mapM_eq_ok hmapped hgroup with ⟨part, -, hpart⟩
  have hours : Ours shipment group :=
    ⟨List.ne_nil_of_mem htarget, hgroup⟩
  exact wireArch_of_mem hours (planned_of_planGroup hpart) hmem

/-! ## What covering takes -/

variable {tool : FlutterTool packages} {reader : Reader}
  {tools : ChecksumTools} {onDisk : Text → Bool}

theorem appDirectory_macos (hhost : shipment.host = .macos) :
    ShipPlan.appDirectory packages shipment =
      ShipPlan.builtBundleFor packages shipment := by
  simp [ShipPlan.appDirectory, hhost]

theorem appDirectory_other (hhost : shipment.host ≠ .macos) :
    ShipPlan.appDirectory packages shipment =
      FlutterBuild.outputOf shipment.host (ShipPlan.releaseBuild shipment) := by
  unfold ShipPlan.appDirectory
  split
  · next hmacos => exact absurd hmacos hhost
  · rfl

theorem path_subset_of_readEntry {update : Option Release.UpdateConfig}
    {version entry url path : Text}
    (hread : readEntry packages update version entry = some (url, path)) :
    path ⊆ entry := by
  unfold readEntry at hread
  split at hread
  · cases hread
  · cases hread
  · split at hread
    · cases hread
    · dsimp only at hread
      split at hread
      · rcases Option.map_eq_some_iff.mp hread with ⟨base, -, hpair⟩
        cases hpair
        exact List.drop_subset _ _
      · cases hread
        exact List.drop_subset _ _

/-- What the release step reads is cut at the units that end a value. -/
theorem plain_of_released {artifacts : Paths}
    {released : List Release.Artifact}
    (hreleased : releasedArtifacts packages shipment
      (ShipPlan.releasing shipment artifacts) = some released) :
    ∀ artifact ∈ released, Plain artifact.path := by
  rw [releasedArtifacts_releasing] at hreleased
  intro artifact hartifact
  rcases exists_item_of_mapM_eq_some hreleased hartifact with
    ⟨entry, hentry, hread⟩
  rcases Option.map_eq_some_iff.mp hread with ⟨⟨url, path⟩, hpath, rfl⟩
  rcases List.mem_flatMap.mp hentry with ⟨whole, -, hpiece⟩
  constructor
  · intro hcomma
    exact not_mem_of_mem_splitOn hpiece (path_subset_of_readEntry hpath hcomma)
  · exact equals_not_mem_of_readEntry hpath

theorem plain_of_subset {source other : Text} (hplain : Plain other)
    (hsubset : source ⊆ other) : Plain source := by
  constructor
  · intro hcomma
    exact hplain.1 (hsubset hcomma)
  · intro hequals
    exact hplain.2 (hsubset hequals)

theorem archesOf_of_mem_groups (hhost : shipment.host ≠ .macos)
    (harches : ∀ target ∈ ShipPlan.targetsForHost shipment.config
      shipment.host, ShipPlan.wireArch target = text "x86_64")
    (hgroup : group ∈ ShipPlan.groups (ShipPlan.targetsForHost
      shipment.config shipment.host) shipment.host) :
    ShipPlan.archesOf group = [text "x86_64"] := by
  have hbundler : ShipPlan.bundlerArch (text "x86_64") = text "x86_64" := by
    decide
  unfold ShipPlan.groups at hgroup
  split at hgroup
  · next hmacos => exact absurd hmacos hhost
  · rcases List.mem_map.mp hgroup with ⟨key, hkey, rfl⟩
    simp only [ShipPlan.archesOf, List.map_singleton, harches key hkey,
      hbundler]

theorem path_of_artifact_linux (hhost : shipment.host = .linux)
    (hchannel : shipment.channel = .release)
    (hmapped : (ShipPlan.groups (ShipPlan.targetsForHost shipment.config
      shipment.host) shipment.host).mapM
        (ShipPlan.planGroup packages shipment) = .ok plans)
    (hmade : MadeOf packages shipment plan plans) {artifact : Text × Text}
    (hartifact : artifact ∈ plan.artifacts) :
    ∃ group ∈ ShipPlan.groups (ShipPlan.targetsForHost shipment.config
        shipment.host) shipment.host,
      ∃ name, ShipPlan.artifactNameFor packages shipment
          (ShipPlan.archesOf group) .dmg = .ok name ∧
        artifact.2 = packages.join outputDirectory name := by
  rw [hmade.artifacts] at hartifact
  rcases mem_foldl_assign hartifact with hnone | hlisted
  · cases hnone
  · rcases List.mem_flatMap.mp hlisted with ⟨part, hpart, hmem⟩
    rcases exists_item_of_mapM_eq_ok hmapped hpart with
      ⟨group, hgroup, hplanned⟩
    rcases planGroup_linux hhost hchannel hplanned with ⟨name, hname, rfl⟩
    refine ⟨group, hgroup, name, hname, ?_⟩
    rw [List.mem_singleton.mp hmem]

theorem coverable_of_covers (hchannel : shipment.channel = .release)
    (hplan : ShipPlan.of packages shipment = .ok plan)
    (hrefusals : plan.refusals = [])
    (hcovers : Covers tool shipment reader tools onDisk plan) :
    Coverable tool shipment tools := by
  have hsigns := signsFiles_of_not_refused hplan hchannel hrefusals
  rcases mapped_of_eq_ok hplan with ⟨plans, hmapped, hmade⟩
  have hfills : ∀ target ∈ ShipPlan.targetsForHost shipment.config
      shipment.host, tool.fills shipment.host
        (ShipPlan.releaseBuild shipment)
        (ShipPlan.appDirectory packages shipment)
        (ShipPlan.wireArch target) := by
    intro target htarget
    rcases hcovers.made target htarget with ⟨artifact, -, hmadeFor⟩
    exact (of_madeFor hmade hsigns hmadeFor).1
  rcases List.exists_mem_of_ne_nil _ (mine_ne_nil hmade) with
    ⟨first, hfirst⟩
  have hother : shipment.host ≠ .macos → ∀ target ∈
      ShipPlan.targetsForHost shipment.config shipment.host,
      ShipPlan.wireArch target = text "x86_64" ∧
        tool.machine = text "x86_64" := by
    intro hhost target htarget
    have hfilled := hfills target htarget
    rw [appDirectory_other hhost] at hfilled
    exact (tool.fills_other _ _ _ hhost).mp hfilled
  constructor
  case macos =>
    intro hhost
    have hfilled := hfills first hfirst
    rw [appDirectory_macos hhost, hhost] at hfilled
    exact (tool.fills_macos _ _ _
      (wireArch_of_target hmapped hfirst)).mp hfilled
  case other =>
    intro hhost
    constructor
    · exact (hother hhost first hfirst).2
    · intro target htarget
      exact (hother hhost target htarget).1
  case plain =>
    intro hreleases
    rcases hcovers.released hreleases with
      ⟨step, hstep, hcommand, released, hreleased, hfound⟩
    rcases hfound first hfirst with ⟨artifact, hartifact, -, hmadeFor⟩
    rcases List.append_of_mem hstep with ⟨before, rest, hsplit⟩
    rcases releases_of_command hmade hsplit hcommand with ⟨-, -, rfl⟩
    exact plain_of_subset (plain_of_released hreleased artifact hartifact)
      (of_madeFor hmade hsigns hmadeFor).2
  case linux =>
    intro hhost
    have hforeign : shipment.host ≠ .macos := by simp [hhost]
    rcases hcovers.summed hhost with ⟨sums, hafter, hnamed⟩
    have hfiles := files_of_checksumsAfter hhost hchannel hmapped hmade hafter
    rcases List.exists_mem_of_ne_nil _ (artifacts_ne_nil hmade hchannel) with
      ⟨artifact, hartifact⟩
    rcases hfiles _ (hnamed artifact hartifact) with ⟨hcomma, hinside⟩
    rcases path_of_artifact_linux hhost hchannel hmapped hmade hartifact with
      ⟨group, hgroup, name, hname, hpath⟩
    have harches := archesOf_of_mem_groups hforeign
      (fun target htarget => (hother hforeign target htarget).1) hgroup
    rw [hpath] at hcomma hinside
    constructor
    · intro hbinary
      exact hcomma ((mem_join_iff (Or.inl rfl)
        (namedAfter_of_artifactNameFor hname)).mpr hbinary)
    · intro other hothername
      rw [harches, hothername, Except.ok.injEq] at hname
      rw [hname]
      exact hinside

end

end Dovetail.Cli.Ship
