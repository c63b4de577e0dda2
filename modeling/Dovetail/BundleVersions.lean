import Dovetail.BundleNames
import Dovetail.PackageVersionOrder
import Dovetail.UpdaterFlow

/-!
# The versions of packages

The packages of an application state its version without the build number,
while the updater orders versions with it.  Versions that differ in a number
the packages keep are in the same order for the package managers; others are
one version to them.
-/

namespace Dovetail.Bundler

open CodeUnits
open PackageVersionOrder
open Updater (Runtime UpdateManifest UpdatePolicy)

/-! ## Numbers of a version -/

/-- The numbers that the packages keep. -/
def AppVersion.numbers (version : AppVersion) : List Nat :=
  [version.major, version.minor, version.patch]

theorem AppVersion.semantic_eq_dotted (version : AppVersion) :
    version.semantic =
      dotted version.major [version.minor, version.patch] := by
  have hdot : text "." = [46] := by decide
  simp only [AppVersion.semantic, dotted, digits, hdot, List.flatMap_cons,
    List.flatMap_nil, List.append_nil, List.append_assoc,
    List.cons_append, List.nil_append]

theorem AppVersion.numbers_of_semantic {older newer : AppVersion}
    (hsemantic : older.semantic = newer.semantic) :
    older.numbers = newer.numbers := by
  have hequal : compare older.numbers newer.numbers = .eq := by
    change compare (older.major :: [older.minor, older.patch])
      (newer.major :: [newer.minor, newer.patch]) = .eq
    rw [← Rpm.compareText_dotted, ← older.semantic_eq_dotted,
      ← newer.semantic_eq_dotted, hsemantic, Rpm.compareText,
      Rpm.compareSegments_self]
  exact Std.LawfulEqCmp.eq_of_compare hequal

namespace MsiVersion

def fieldCeiling : Nat := 255

def buildCeiling : Nat := 65535

def refuseOutOfRange (field : String) (value ceiling : Nat) :
    Except BundleError Unit :=
  if value > ceiling then
    refuse (text "Version field " ++ text field ++ text " is " ++
        text (toString value) ++ text ", above the MSI ceiling of " ++
        text (toString ceiling) ++ text ".")
      (some (text "Windows Installer compares only major.minor.patch, and it stores major and minor in one byte each and patch in two. A version above the ceiling produces an installer that cannot recognise its own upgrade."))
  else .ok ()

def of (version : AppVersion) : Except BundleError Text := do
  refuseOutOfRange "major" version.major fieldCeiling
  refuseOutOfRange "minor" version.minor fieldCeiling
  refuseOutOfRange "patch" version.patch buildCeiling
  return text (toString version.major) ++ text "." ++
    text (toString version.minor) ++ text "." ++
    text (toString version.patch)

def comparesEqual (a b : AppVersion) : Bool :=
  a.major == b.major && a.minor == b.minor && a.patch == b.patch

/-- A version that is not refused is the one in the names. -/
theorem eq_semantic_of_ok {version : AppVersion} {product : Text}
    (hof : of version = .ok product) : product = version.semantic := by
  unfold of at hof
  cases hmajor : refuseOutOfRange "major" version.major fieldCeiling with
  | error failure => simp [hmajor, bind, Except.bind] at hof
  | ok _ =>
      cases hminor :
          refuseOutOfRange "minor" version.minor fieldCeiling with
      | error failure => simp [hmajor, hminor, bind, Except.bind] at hof
      | ok _ =>
          cases hpatch :
              refuseOutOfRange "patch" version.patch buildCeiling with
          | error failure =>
              simp [hmajor, hminor, hpatch, bind, Except.bind] at hof
          | ok _ =>
              simp only [hmajor, hminor, hpatch, bind, Except.bind, pure,
                Except.pure, Except.ok.injEq] at hof
              exact hof.symm

theorem comparesEqual_iff {a b : AppVersion} :
    comparesEqual a b = true ↔ a.numbers = b.numbers := by
  simp [comparesEqual, AppVersion.numbers, and_assoc]

end MsiVersion

/-! ## What packages state -/

/-- A package as its manager sees it; only an rpm has a release. -/
structure Package where
  version : Text
  release : Text
  fileName : Text
  deriving DecidableEq

/-- The control fields, in the order they are written. -/
def DebBundler.controlFields (arch : TargetArch) (depends : List Text)
    (homepage : Option Text) (installedKiB : Nat) (spec : BundleSpec) :
    List (Text × Text) :=
  [(text "Package", spec.mainBinaryName),
    (text "Version", spec.version.semantic),
    (text "Architecture", arch.debian),
    (text "Installed-Size", text (toString installedKiB)),
    (text "Maintainer", spec.manufacturer),
    (text "Section", text "net"),
    (text "Priority", text "optional")] ++
  (homepage.map fun homepage => (text "Homepage", homepage)).toList ++
  (if depends.isEmpty then []
    else [(text "Depends", Updater.join (text ", ") depends)]) ++
  [(text "Description", spec.productName)]

/-- The tags at the head of the spec file. -/
def RpmBundler.specFields (arch : TargetArch) (requires : List Text)
    (homepage : Option Text) (release : Text) (spec : BundleSpec) :
    List (Text × Text) :=
  [(text "Name", spec.mainBinaryName),
    (text "Version", spec.version.semantic),
    (text "Release", release),
    (text "Summary", spec.productName),
    (text "License", text "proprietary"),
    (text "BuildArch", arch.rpm),
    (text "Vendor", spec.manufacturer)] ++
  (homepage.map fun homepage => (text "URL", homepage)).toList ++
  requires.map fun requirement => (text "Requires", requirement)

def fieldOf (name : String) (fields : List (Text × Text)) : Text :=
  ((fields.find? fun field => field.1 == text name).map Prod.snd).getD []

/-- The file name of a package of any release. -/
def RpmBundler.releasedFileNameFor (arch : TargetArch) (release : Text)
    (spec : BundleSpec) : Text :=
  spec.mainBinaryName ++ text "-" ++ spec.version.semantic ++ text "-" ++
    release ++ text "." ++ arch.rpm ++ text ".rpm"

theorem RpmBundler.fileNameFor_eq (arch : TargetArch) (spec : BundleSpec) :
    RpmBundler.fileNameFor arch spec =
      RpmBundler.releasedFileNameFor arch (text "1") spec := by
  have hfirst : text "-1." = text "-" ++ (text "1" ++ text ".") := by decide
  simp only [RpmBundler.fileNameFor, RpmBundler.releasedFileNameFor, hfirst,
    List.append_assoc]

/-- A bundler with what it is configured with. -/
inductive Packaging where
  | deb (arch : TargetArch) (depends : List Text)
      (homepage : Option Text) (installedKiB : Nat)
  | rpm (arch : TargetArch) (requires : List Text)
      (homepage : Option Text) (release : Text)
  | msi (arch : TargetArch)

namespace Packaging

def packageOf (packaging : Packaging) (spec : BundleSpec) :
    Except BundleError Package :=
  match packaging with
  | .deb arch depends homepage installedKiB =>
      let fields :=
        DebBundler.controlFields arch depends homepage installedKiB spec
      .ok {
        version := fieldOf "Version" fields
        release := []
        fileName := DebBundler.fileNameFor arch spec }
  | .rpm arch requires homepage release =>
      let fields := RpmBundler.specFields arch requires homepage release spec
      .ok {
        version := fieldOf "Version" fields
        release := fieldOf "Release" fields
        fileName := RpmBundler.releasedFileNameFor arch release spec }
  | .msi arch => do
      let version ← MsiVersion.of spec.version
      return {
        version
        release := []
        fileName := MsiSpec.msiFileName arch spec }

/-- The manager's own order. -/
def order (packaging : Packaging) (older newer : Package) : Ordering :=
  match packaging with
  | .deb _ _ _ _ => Debian.compareVersions older.version newer.version
  | .rpm _ _ _ _ =>
      Rpm.compareVersions (older.version, older.release)
        (newer.version, newer.release)
  | .msi _ =>
      WindowsInstaller.compareVersions older.version newer.version

/-- The newer package is newer to the manager and has a name of its own,
unless one of them is refused. -/
def Rises (packaging : Packaging) (older newer : BundleSpec) : Prop :=
  match packaging.packageOf older, packaging.packageOf newer with
  | .ok old, .ok new =>
      packaging.order old new = .lt ∧ old.fileName ≠ new.fileName
  | _, _ => True

/-! ## Packages of two versions -/

/-- What every packaging makes of a version. -/
structure Labels (packaging : Packaging) (spec : BundleSpec)
    (package : Package) (release before after : Text) : Prop where
  version : package.version = spec.version.semantic
  release : package.release = release
  fileName : package.fileName =
    before ++ spec.version.semantic ++ after

theorem labels_of_eq_ok (packaging : Packaging) (spec : BundleSpec) :
    ∃ release before after, ∀ version package,
      packaging.packageOf { spec with version } = .ok package →
        packaging.Labels { spec with version } package
          release before after := by
  cases packaging with
  | deb arch depends homepage installedKiB =>
      refine ⟨[], spec.mainBinaryName ++ text "_",
        text "_" ++ arch.debian ++ text ".deb", ?_⟩
      intro version package hpackage
      rw [packageOf, Except.ok.injEq] at hpackage
      subst hpackage
      constructor
      · rfl
      · rfl
      · simp only [DebBundler.fileNameFor, List.append_assoc]
  | rpm arch requires homepage release =>
      refine ⟨release, spec.mainBinaryName ++ text "-",
        text "-" ++ release ++ text "." ++ arch.rpm ++ text ".rpm", ?_⟩
      intro version package hpackage
      rw [packageOf, Except.ok.injEq] at hpackage
      subst hpackage
      constructor
      · rfl
      · rfl
      · simp only [RpmBundler.releasedFileNameFor, List.append_assoc]
  | msi arch =>
      refine ⟨[], spec.mainBinaryName ++ text "_",
        text "_" ++ arch.wix ++ text ".msi", ?_⟩
      intro version package hpackage
      rw [packageOf] at hpackage
      cases hof : MsiVersion.of version with
      | error failure => simp [hof, bind, Except.bind] at hpackage
      | ok product =>
          simp only [hof, bind, Except.bind, pure, Except.pure,
            Except.ok.injEq] at hpackage
          subst hpackage
          constructor
          · exact MsiVersion.eq_semantic_of_ok hof
          · rfl
          · simp only [MsiSpec.msiFileName, List.append_assoc]

theorem order_eq_compare {packaging : Packaging} {old new : Package}
    {older newer : BundleSpec} {release before after : Text}
    (hold : packaging.Labels older old release before after)
    (hnew : packaging.Labels newer new release before after) :
    packaging.order old new =
      compare older.version.numbers newer.version.numbers := by
  have holder := older.version.semantic_eq_dotted
  have hnewer := newer.version.semantic_eq_dotted
  cases packaging with
  | deb arch depends homepage installedKiB =>
      simp only [order]
      rw [hold.version, hnew.version, holder, hnewer,
        Debian.compareVersions_dotted]
      rfl
  | rpm arch requires homepage release =>
      simp only [order]
      rw [hold.version, hnew.version, hold.release, hnew.release,
        Rpm.compareVersions_of_release, holder, hnewer,
        Rpm.compareText_dotted]
      rfl
  | msi arch =>
      have hlength : [older.version.minor, older.version.patch].length =
          [newer.version.minor, newer.version.patch].length := rfl
      simp only [order]
      rw [hold.version, hnew.version, holder, hnewer,
        WindowsInstaller.compareVersions_dotted hlength (Nat.le_refl 2)]
      rfl

theorem rises_of_lt {older newer : AppVersion} (packaging : Packaging)
    (spec : BundleSpec)
    (hless : compare older.numbers newer.numbers = .lt) :
    packaging.Rises { spec with version := older }
      { spec with version := newer } := by
  rcases packaging.labels_of_eq_ok spec with
    ⟨release, before, after, hlabels⟩
  unfold Rises
  split
  · next old new hold hnew =>
      have holder := hlabels older old hold
      have hnewer := hlabels newer new hnew
      have horder := order_eq_compare holder hnewer
      constructor
      · exact horder.trans hless
      · intro hname
        rw [holder.fileName, hnewer.fileName] at hname
        have hsemantic : older.semantic = newer.semantic :=
          List.append_cancel_left (List.append_cancel_right hname)
        have hequal : compare newer.numbers newer.numbers = .eq :=
          Std.ReflCmp.compare_self
        rw [AppVersion.numbers_of_semantic hsemantic, hequal] at hless
        exact Ordering.noConfusion hless
  · trivial

/-- A build number is in no package. -/
theorem packageOf_of_numbers {older newer : AppVersion}
    (hsame : older.numbers = newer.numbers) (packaging : Packaging)
    (spec : BundleSpec) :
    packaging.packageOf { spec with version := older } =
      packaging.packageOf { spec with version := newer } := by
  obtain ⟨hmajor, hminor, hpatch⟩ : older.major = newer.major ∧
      older.minor = newer.minor ∧ older.patch = newer.patch := by
    simpa [AppVersion.numbers] using hsame
  have hsemantic : older.semantic = newer.semantic := by
    simp only [AppVersion.semantic, hmajor, hminor, hpatch]
  have hproduct : MsiVersion.of older = MsiVersion.of newer := by
    simp only [MsiVersion.of, hmajor, hminor, hpatch]
  cases packaging with
  | deb arch depends homepage installedKiB =>
      simp only [packageOf, DebBundler.controlFields,
        DebBundler.fileNameFor, hsemantic]
  | rpm arch requires homepage release =>
      simp only [packageOf, RpmBundler.specFields,
        RpmBundler.releasedFileNameFor, hsemantic]
  | msi arch =>
      simp only [packageOf, MsiSpec.msiFileName, hsemantic, hproduct]

theorem not_rises_of_numbers {older newer : AppVersion}
    (hsame : older.numbers = newer.numbers) (spec : BundleSpec)
    (arch : TargetArch) :
    ¬ (deb arch [] none 0).Rises { spec with version := older }
      { spec with version := newer } := by
  intro hrises
  unfold Rises at hrises
  rw [packageOf_of_numbers hsame] at hrises
  exact hrises.2 rfl

end Packaging

/-! ## Updates -/

section

variable {Version Date : Type}

/-- What is relied on of the versions of `pub_semver`: they have the numbers
that are written, and lower numbers make a lower version. -/
structure SemverLaws (runtime : Runtime Version Date)
    (numbers : Version → List Nat) : Prop where
  reads : ∀ {source version app},
    runtime.parseVersion source = some version →
      AppVersion.parse source = .ok app → numbers version = app.numbers
  ordered : ∀ {older newer},
    compare (numbers older) (numbers newer) = .lt →
      runtime.versionLess older newer = true

/-- No update that is offered has lower numbers. -/
theorem numbers_of_offered {runtime : Runtime Version Date}
    {numbers : Version → List Nat} (laws : SemverLaws runtime numbers)
    {installed : Version} {manifest : UpdateManifest Version Date}
    (hoffered : UpdatePolicy.decide runtime ⟨false⟩ installed manifest =
      .ok (.available manifest.version)) :
    compare (numbers manifest.version) (numbers installed) ≠ .lt := by
  intro hlower
  have hallowed := (UpdatePolicy.decide_eq_available hoffered).2.2
    (laws.ordered hlower)
  exact Bool.false_ne_true hallowed

theorem compare_numbers_of_ne {older newer : AppVersion}
    (hlower : compare newer.numbers older.numbers ≠ .lt)
    (hdifferent : newer.numbers ≠ older.numbers) :
    compare older.numbers newer.numbers = .lt := by
  cases hcompare : compare older.numbers newer.numbers with
  | lt => rfl
  | eq =>
      have hsame := Std.LawfulEqCmp.eq_of_compare hcompare
      exact absurd hsame.symm hdifferent
  | gt => exact absurd (Std.OrientedCmp.lt_of_gt hcompare) hlower

/-- Every packaging keeps the order of an update exactly when a number that
packages keep has changed. -/
theorem packages_rise_iff {runtime : Runtime Version Date}
    {numbers : Version → List Nat} (laws : SemverLaws runtime numbers)
    {a b : Text} {installed : Version}
    {manifest : UpdateManifest Version Date} {older newer : AppVersion}
    (hinstalled : runtime.parseVersion a = some installed)
    (hoffer : runtime.parseVersion b = some manifest.version)
    (holder : AppVersion.parse a = .ok older)
    (hnewer : AppVersion.parse b = .ok newer)
    (hoffered : UpdatePolicy.decide runtime ⟨false⟩ installed manifest =
      .ok (.available manifest.version)) (spec : BundleSpec) :
    ((∀ packaging : Packaging, packaging.Rises
        { spec with version := older } { spec with version := newer }) ↔
      MsiVersion.comparesEqual older newer = false) ∧
    (MsiVersion.comparesEqual older newer = true →
      ∀ packaging : Packaging,
        packaging.packageOf { spec with version := older } =
          packaging.packageOf { spec with version := newer }) := by
  have hsame := MsiVersion.comparesEqual_iff (a := older) (b := newer)
  constructor
  · constructor
    · intro hrises
      rw [← Bool.not_eq_true]
      intro hequal
      exact Packaging.not_rises_of_numbers (hsame.mp hequal) spec .x86_64
        (hrises _)
    · intro hunequal packaging
      have hdifferent : newer.numbers ≠ older.numbers := by
        intro hnumbers
        rw [hsame.mpr hnumbers.symm] at hunequal
        exact Bool.noConfusion hunequal
      have hlower := numbers_of_offered laws hoffered
      rw [laws.reads hinstalled holder, laws.reads hoffer hnewer] at hlower
      exact packaging.rises_of_lt spec
        (compare_numbers_of_ne hlower hdifferent)
  · intro hequal packaging
    exact packaging.packageOf_of_numbers (hsame.mp hequal) spec

end

/-! ## A runtime with versions of this shape -/

theorem compare_of_take {count : Nat} {left right : List Nat}
    (hless : compare (left.take count) (right.take count) = .lt) :
    compare left right = .lt := by
  rw [List.compare_eq_compareLex] at hless ⊢
  induction count generalizing left right with
  | zero => exact Ordering.noConfusion hless
  | succ count ih =>
      cases left with
      | nil =>
          cases right with
          | nil => exact Ordering.noConfusion hless
          | cons n right => rfl
      | cons m left =>
          cases right with
          | nil => exact Ordering.noConfusion hless
          | cons n right =>
              rw [List.take_succ_cons, List.take_succ_cons,
                List.compareLex_cons_cons, Ordering.then_eq_lt] at hless
              rw [List.compareLex_cons_cons, Ordering.then_eq_lt]
              apply hless.imp_right
              exact fun ⟨hfirst, hrest⟩ => ⟨hfirst, ih hrest⟩

/-- Versions as their numbers, with the build number behind when there is
one; no build is below any. -/
def numericRuntime : Runtime (List Nat) Unit where
  parseVersion source :=
    if trim source ≠ source ∨ source.head? = some 118 then none
    else
      match AppVersion.parse source with
      | .error _ => none
      | .ok app =>
          some (app.numbers ++ if 43 ∈ source then [app.build] else [])
  versionText version := Updater.join (text ".")
    (version.map fun value => text (toString value))
  sameVersion := (· == ·)
  versionLess older newer := compare older newer == .lt
  parseDate _ := none
  dateFields _ := (0, 0, 0)
  numberText spelling := spelling
  jsonError _ := []
  utf8Error _ := []

theorem semverLaws_numericRuntime :
    SemverLaws numericRuntime (List.take 3) where
  reads := by
    intro source version app hversion happ
    simp only [numericRuntime, happ] at hversion
    split at hversion
    · simp at hversion
    · rw [← Option.some.inj hversion]
      rfl
  ordered := by
    intro older newer hless
    simp only [numericRuntime, compare_of_take hless]
    rfl

def sampleSpec : BundleSpec where
  productName := text "Demo"
  manufacturer := text "Acme"
  identifier := text "com.acme.demo"
  version := ⟨1, 0, 0, 0⟩
  mainBinaryName := text "demo"
  appDirectory := text "bundle"
  outputDirectory := text "dist"

def manifestOf (version : List Nat) : UpdateManifest (List Nat) Unit where
  version := version
  releases := []
  notes := none
  publishedAt := none

theorem packages_rise_to_minor :
    (∀ packaging : Packaging, packaging.Rises
        { sampleSpec with version := ⟨1, 2, 3, 4⟩ }
        { sampleSpec with version := ⟨1, 3, 0, 0⟩ }) ↔
      MsiVersion.comparesEqual ⟨1, 2, 3, 4⟩ ⟨1, 3, 0, 0⟩ = false := by
  have hinstalled : numericRuntime.parseVersion (text "1.2.3+4") =
      some [1, 2, 3, 4] := by decide
  have hoffer : numericRuntime.parseVersion (text "1.3.0") =
      some (manifestOf [1, 3, 0]).version := by decide
  have holder : AppVersion.parse (text "1.2.3+4") = .ok ⟨1, 2, 3, 4⟩ := by
    decide
  have hnewer : AppVersion.parse (text "1.3.0") = .ok ⟨1, 3, 0, 0⟩ := by
    decide
  exact (packages_rise_iff semverLaws_numericRuntime hinstalled hoffer holder
    hnewer rfl sampleSpec).1

/-- The updater offers a build that every package manager takes for the one
that is installed, under the same file name. -/
theorem not_rises_to_build :
    AppVersion.parse (text "1.0.0+1") = .ok ⟨1, 0, 0, 1⟩ ∧
    AppVersion.parse (text "1.0.0+2") = .ok ⟨1, 0, 0, 2⟩ ∧
    numericRuntime.parseVersion (text "1.0.0+1") = some [1, 0, 0, 1] ∧
    numericRuntime.parseVersion (text "1.0.0+2") = some [1, 0, 0, 2] ∧
    UpdatePolicy.decide numericRuntime ⟨false⟩ [1, 0, 0, 1]
      (manifestOf [1, 0, 0, 2]) = .ok (.available [1, 0, 0, 2]) ∧
    ¬ ∀ packaging : Packaging, packaging.Rises
      { sampleSpec with version := ⟨1, 0, 0, 1⟩ }
      { sampleSpec with version := ⟨1, 0, 0, 2⟩ } := by
  refine ⟨by decide, by decide, by decide,
    by decide, rfl, ?_⟩
  intro hrises
  have hsame : (⟨1, 0, 0, 1⟩ : AppVersion).numbers =
      (⟨1, 0, 0, 2⟩ : AppVersion).numbers := rfl
  exact Packaging.not_rises_of_numbers hsame sampleSpec .x86_64 (hrises _)

end Dovetail.Bundler
