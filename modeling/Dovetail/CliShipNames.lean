import Dovetail.CliShipPlan

/-!
# The names a plan gives its artefacts

A plan names its artefacts as the bundlers do, and each name is the binary's
with a part behind it that holds no unit at which a value of an option or an
entry is cut.  The same holds of the keys of the platforms.
-/

namespace Dovetail.Cli.Ship

open CodeUnits CommandOptions Bundler FallibleSteps

/-! ## Paths -/

/-- Neither of the units that end a value. -/
def Plain (source : Text) : Prop :=
  comma ∉ source ∧ Release.equals ∉ source

instance (source : Text) : Decidable (Plain source) :=
  inferInstanceAs (Decidable (_ ∧ _))

@[simp] theorem plain_append {before after : Text} :
    Plain (before ++ after) ↔ Plain before ∧ Plain after := by
  simp only [Plain, List.mem_append, not_or]
  tauto

theorem plain_of_isDigit {source : Text}
    (hsource : ∀ unit ∈ source, AppVersion.isDigit unit = true) :
    Plain source := by
  constructor
  · exact fun hmem => absurd (hsource comma hmem) (by decide)
  · exact fun hmem => absurd (hsource Release.equals hmem) (by decide)

theorem isDigit_of_mem_number {number : Nat} {unit : UInt16}
    (hunit : unit ∈ text (toString number)) :
    AppVersion.isDigit unit = true := by
  simpa [AppVersion.isDigit] using digit_of_mem_text_toString hunit

theorem plain_semantic (version : AppVersion) : Plain version.semantic := by
  have hdot : Plain (text ".") := by decide
  have hnumber (number : Nat) : Plain (text (toString number)) :=
    plain_of_isDigit fun _ => isDigit_of_mem_number
  unfold AppVersion.semantic
  simp only [plain_append]
  exact ⟨⟨⟨⟨hnumber _, hdot⟩, hnumber _⟩, hdot⟩, hnumber _⟩

/-- A name that goes on plainly after the binary's. -/
def NamedAfter (binary name : Text) : Prop :=
  ∃ rest, name = binary ++ rest ∧ rest ≠ [] ∧ Plain rest

theorem namedAfter_of_parts {binary middle last : Text}
    (hmiddle : Plain middle) (hlast : Plain last) (hsome : last ≠ []) :
    NamedAfter binary (binary ++ middle ++ last) :=
  ⟨middle ++ last, List.append_assoc binary middle last, by simp [hsome],
    plain_append.mpr ⟨hmiddle, hlast⟩⟩

section

variable (spec : BundleSpec)

theorem plain_archSuffix (required : List TargetArch) :
    Plain (archSuffix required) := by
  unfold archSuffix
  split
  · decide
  · rename_i arch _
    cases arch <;> decide
  · decide

theorem namedAfter_macos (required : List TargetArch) {extension : Text}
    (hplain : Plain extension) (hsome : extension ≠ []) :
    NamedAfter spec.mainBinaryName (spec.mainBinaryName ++ text "_" ++
      spec.version.semantic ++ archSuffix required ++ extension) := by
  have hlow : Plain (text "_") := by decide
  rw [List.append_assoc spec.mainBinaryName,
    List.append_assoc spec.mainBinaryName]
  exact namedAfter_of_parts (plain_append.mpr
    ⟨plain_append.mpr ⟨hlow, plain_semantic _⟩, plain_archSuffix required⟩)
    hplain hsome

theorem namedAfter_arch {before between arch extension : Text}
    (hbefore : Plain before) (hbetween : Plain between) (harch : Plain arch)
    (hplain : Plain extension) (hsome : extension ≠ []) :
    NamedAfter spec.mainBinaryName (spec.mainBinaryName ++ before ++
      spec.version.semantic ++ between ++ arch ++ extension) := by
  rw [List.append_assoc spec.mainBinaryName,
    List.append_assoc spec.mainBinaryName,
    List.append_assoc spec.mainBinaryName]
  refine namedAfter_of_parts ?_ hplain hsome
  simp only [plain_append]
  exact ⟨⟨⟨hbefore, plain_semantic _⟩, hbetween⟩, harch⟩

theorem plain_wix (arch : TargetArch) : Plain arch.wix := by
  cases arch <;> decide

theorem namedAfter_rpm (arch : TargetArch) (spec : BundleSpec) :
    NamedAfter spec.mainBinaryName (RpmBundler.fileNameFor arch spec) := by
  have harch : Plain arch.rpm := by cases arch <;> decide
  exact namedAfter_arch spec (by decide) (by decide) harch
    (by decide) (by decide)

theorem plain_debian (arch : TargetArch) : Plain arch.debian := by
  cases arch <;> decide

end

section

variable {packages : Packages} {shipment : Shipment} {arches : List Text}

theorem create_eq_ok {productName manufacturer identifier : Text}
    {version : AppVersion} {binary appDirectory output : Text}
    {spec : BundleSpec}
    (hspec : BundleSpec.create productName manufacturer identifier version
      binary appDirectory output = .ok spec) :
    spec = {
      productName, manufacturer, identifier, version
      mainBinaryName := binary, appDirectory, outputDirectory := output } := by
  unfold BundleSpec.create at hspec
  cases hcheck : BundleSpec.check productName binary identifier with
  | error error => rw [hcheck] at hspec; cases hspec
  | ok _ => rw [hcheck] at hspec; cases hspec; rfl

def macosNameFor (format : MacosFormat) (required : List TargetArch)
    (spec : BundleSpec) : Text :=
  match format with
  | .tar => AppArchiveBundler.fileNameFor required spec
  | .pkg => PkgBundler.fileNameFor required spec
  | .pkgDmg => PkgDmgBundler.fileNameFor required spec
  | .dmg | .thin => DmgBundler.fileNameFor required spec

def windowsNameFor (format : Option WindowsFormat) (arch : TargetArch)
    (spec : BundleSpec) : Text :=
  if format = some .msi then MsiSpec.msiFileName arch spec
  else spec.installerFileNameFor arch

/-- The name of an artefact is the bundlers' for the host. -/
inductive Named (shipment : Shipment) (arches : List Text)
    (format : MacosFormat) (spec : BundleSpec) (first : TargetArch) :
    Text → Prop
  | macos {required : List TargetArch} (hhost : shipment.host = .macos)
      (hrequired : arches.mapM TargetArch.parse = .ok required) :
      Named shipment arches format spec first
        (macosNameFor format required spec)
  | windows (hhost : shipment.host = .windows) :
      Named shipment arches format spec first
        (windowsNameFor shipment.windowsFormat first spec)
  | linux (hhost : shipment.host = .linux) :
      Named shipment arches format spec first
        (DebBundler.fileNameFor first spec)

theorem named_of_artifactNameFor {format : MacosFormat} {name : Text}
    (hname : ShipPlan.artifactNameFor packages shipment arches format =
      .ok name) :
    ∃ spec first, ShipPlan.spec packages shipment = .ok spec ∧
      TargetArch.parse (arches.headD []) = .ok first ∧
      Named shipment arches format spec first name := by
  unfold ShipPlan.artifactNameFor at hname
  obtain ⟨spec, hspec, hname⟩ := bind_eq_ok_iff.mp hname
  obtain ⟨first, hfirst, hname⟩ := bind_eq_ok_iff.mp hname
  refine ⟨spec, first, hspec, hfirst, ?_⟩
  cases hhost : shipment.host with
  | macos =>
      rw [hhost] at hname
      obtain ⟨required, hrequired, hname⟩ := bind_eq_ok_iff.mp hname
      cases format <;> cases hname <;> exact .macos hhost hrequired
  | windows =>
      rw [hhost] at hname
      suffices hsame : windowsNameFor shipment.windowsFormat first spec = name
        from hsame ▸ .windows hhost
      unfold windowsNameFor
      dsimp only at hname
      split at hname
      · rename_i hmsi
        obtain ⟨-, -, hname⟩ := bind_eq_ok_iff.mp hname
        cases hname
        exact if_pos hmsi
      · rename_i hnsis
        cases hname
        exact if_neg hnsis
  | linux =>
      rw [hhost] at hname
      cases hname
      exact .linux hhost

theorem binary_of_spec {spec : BundleSpec}
    (hspec : ShipPlan.spec packages shipment = .ok spec) :
    spec.mainBinaryName = shipment.binary := by
  unfold ShipPlan.spec at hspec
  obtain ⟨version, -, hspec⟩ := bind_eq_ok_iff.mp hspec
  rw [create_eq_ok hspec]

theorem namedAfter_of_named {format : MacosFormat} {spec : BundleSpec}
    {first : TargetArch} {name : Text}
    (hname : Named shipment arches format spec first name) :
    NamedAfter spec.mainBinaryName name := by
  have hlow : Plain (text "_") := by decide
  cases hname with
  | macos hhost hrequired =>
      rename_i required
      cases format with
      | pkgDmg =>
          have hsame : macosNameFor .pkgDmg required spec =
              spec.mainBinaryName ++ text "_" ++ spec.version.semantic ++
                archSuffix required ++ text ".dmg" := by
            have hcut (before after : Text) :
                (before ++ after).take
                  ((before ++ after).length - after.length) = before := by
              simp
            exact congrArg (· ++ text ".dmg") (hcut _ _)
          rw [hsame]
          exact namedAfter_macos spec required (by decide) (by decide)
      | _ => exact namedAfter_macos spec required (by decide) (by decide)
  | windows hhost =>
      unfold windowsNameFor
      split
      · exact namedAfter_arch spec hlow hlow (plain_wix first) (by decide) (by decide)
      · exact namedAfter_arch spec hlow hlow (plain_wix first) (by decide) (by decide)
  | linux hhost =>
      exact namedAfter_arch spec hlow hlow (plain_debian first) (by decide) (by decide)

/-- The name of every artefact a plan lists. -/
theorem namedAfter_of_artifactNameFor {format : MacosFormat} {name : Text}
    (hname : ShipPlan.artifactNameFor packages shipment arches format =
      .ok name) :
    NamedAfter shipment.binary name := by
  obtain ⟨spec, first, hspec, -, hnamed⟩ := named_of_artifactNameFor hname
  exact binary_of_spec hspec ▸ namedAfter_of_named hnamed

theorem namedAfter_ne_nil {binary name : Text}
    (hname : NamedAfter binary name) : name ≠ [] := by
  obtain ⟨rest, rfl, hrest, -⟩ := hname
  simp [hrest]

/-- A unit that ends a value is in the path exactly when it is in the
binary's name. -/
theorem mem_join_iff {binary name : Text} {unit : UInt16}
    (hunit : unit = comma ∨ unit = Release.equals)
    (hname : NamedAfter binary name) :
    unit ∈ packages.join outputDirectory name ↔ unit ∈ binary := by
  have hplain {source : Text} (hsource : Plain source) : unit ∉ source := by
    rcases hunit with rfl | rfl
    · exact hsource.1
    · exact hsource.2
  have hname' : unit ∈ name ↔ unit ∈ binary := by
    obtain ⟨rest, rfl, -, hrest⟩ := hname
    rw [List.mem_append]
    exact or_iff_left (hplain hrest)
  have hdist : unit ∉ outputDirectory := hplain (by decide)
  rw [← hname']
  rcases packages.join_output name (namedAfter_ne_nil hname) with
    hjoin | ⟨separator, hseparator, hjoin⟩
  · rw [hjoin]
  · have hother : unit ≠ separator := by
      rintro rfl
      rcases hunit with rfl | rfl <;> exact absurd hseparator (by decide)
    rw [hjoin, List.mem_append, List.mem_cons]
    exact ⟨fun hmem => (hmem.resolve_left hdist).resolve_left hother,
      fun hmem => Or.inr (Or.inr hmem)⟩

end

/-! ## Platform keys -/

def knownKeys : List Text :=
  Release.PlatformKey.operatingSystems.flatMap fun os =>
    (Release.PlatformKey.universalArch ::
      Release.PlatformKey.architectures).map fun arch =>
        os ++ Release.dash :: arch

theorem mem_knownKeys_of_validate {key : Text}
    (hkey : Release.PlatformKey.validate key = .ok key) : key ∈ knownKeys := by
  unfold Release.PlatformKey.validate at hkey
  split at hkey
  · cases hkey
  · cases hkey
  · rename_i divider _ hdivider
    obtain ⟨hlt, hdash, -⟩ := List.idxOf?_eq_some_iff.mp hdivider
    split at hkey
    · cases hkey
    · dsimp only at hkey
      split at hkey
      · cases hkey
      · rename_i hos
        split at hkey
        · cases hkey
        · rename_i harch
          have hsplit : key =
              key.take divider ++ Release.dash :: key.drop (divider + 1) := by
            rw [← hdash, List.getElem_cons_drop, List.take_append_drop]
          rw [Classical.not_not] at hos harch
          exact List.mem_flatMap.mpr ⟨_, hos,
            List.mem_map.mpr ⟨_, List.mem_cons.mpr harch, hsplit.symm⟩⟩

/-- What the keys are spelled as; the architectures the bundlers know have
two names. -/
theorem knownKeys_spelled : ∀ key ∈ knownKeys,
    Plain key ∧ key ≠ [] ∧ Plain (ShipPlan.operatingSystem key) ∧
      ((TargetArch.parse (ShipPlan.bundlerArch
          (ShipPlan.wireArch key))).isOk = true →
        ShipPlan.bundlerArch (ShipPlan.wireArch key) ∈
          [text "x86_64", text "arm64"]) := by
  decide

end Dovetail.Cli.Ship
