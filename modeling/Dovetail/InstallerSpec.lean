import Dovetail.BundleVersions

/-!
# What installers are given

The specification of an application with what only its installers read, and
that of an MSI, which carries the checks of its constructor.
-/

namespace Dovetail.Bundler

open CodeUnits

/-! ## Installers -/

inductive InstallMode where
  | perMachine
  | currentUser
  deriving DecidableEq

namespace InstallMode

def executionLevel : InstallMode → Text
  | .perMachine => text "admin"
  | .currentUser => text "user"

def defaultRoot : InstallMode → Text
  | .perMachine => text "$PROGRAMFILES64"
  | .currentUser => text "$LOCALAPPDATA"

def shellContext : InstallMode → Text
  | .perMachine => text "all"
  | .currentUser => text "current"

end InstallMode

structure StagedFile where
  source : Text
  destination : Text
  deriving DecidableEq

/-- A language is not blank and declared once. -/
def checkLanguages (installerLanguages : List Text) :
    Except BundleError Unit :=
  let rec check (languages : List Text) :
      List Text → Except BundleError Unit
    | [] => .ok ()
    | language :: others =>
        if trim language = [] then
          refuse (text "an installer language is blank.") none
        else if language ∈ languages then
          refuse (text "the installer language \"" ++ language ++
              text "\" is declared twice.")
            (some (text "NSIS refuses a repeated MUI_LANGUAGE."))
        else check (languages ++ [language]) others
  if installerLanguages.isEmpty then
    refuse (text "the installer declares no language.")
      (some (text "An NSIS installer with no MUI_LANGUAGE fails to compile. Name at least one."))
  else check [] installerLanguages

structure InstallerSpec extends BundleSpec where
  installMode : InstallMode
  installerHooks : Option Text
  installerIcon : Option Text
  licenseFile : Option Text
  homepage : Option Text
  extraFiles : List StagedFile
  installerLanguages : List Text

namespace InstallerSpec

/-- The checks of the constructor, in its order. -/
def check (spec : InstallerSpec) : Except BundleError Unit :=
  if trim spec.productName = [] then
    refuse (text "productName is empty.") none
  else if trim spec.mainBinaryName = [] then
    refuse (text "mainBinaryName is empty.") none
  else do
    checkLanguages spec.installerLanguages
    if 46 ∉ spec.identifier then
      refuse (text "identifier \"" ++ spec.identifier ++
          text "\" is not a reverse-domain name.")
        (some (text "Write it as com.example.app."))
    else .ok ()

def offersLanguageChoice (spec : InstallerSpec) : Bool :=
  1 < spec.installerLanguages.length

end InstallerSpec

/-! ## Privileged steps of an MSI -/

inductive MsiPhase where
  | beforeInstallFiles
  | afterInstallFiles
  | beforeRemoveFiles
  | afterRemoveFiles
  deriving DecidableEq

namespace MsiPhase

def anchor : MsiPhase → Text
  | .beforeInstallFiles => text "InstallFiles"
  | .afterInstallFiles => text "InstallFiles"
  | .beforeRemoveFiles => text "RemoveFiles"
  | .afterRemoveFiles => text "RemoveFiles"

def before : MsiPhase → Bool
  | .beforeInstallFiles => true
  | .afterInstallFiles => false
  | .beforeRemoveFiles => true
  | .afterRemoveFiles => false

def sequenceAttribute (phase : MsiPhase) : String :=
  if phase.before then "Before" else "After"

end MsiPhase

structure MsiPrivilegedStep where
  id : Text
  phase : MsiPhase
  relativeExecutable : Text
  arguments : List Text
  fatalOnFailure : Bool
  rollbackFor : Option Text
  deriving DecidableEq

namespace MsiPrivilegedStep

def isRollback (step : MsiPrivilegedStep) : Bool := step.rollbackFor.isSome

def quote (argument : Text) : Text :=
  if 32 ∈ argument then text "\"" ++ argument ++ text "\"" else argument

def commandLine (step : MsiPrivilegedStep) : Text :=
  Updater.join (text " ") (step.arguments.map quote)

end MsiPrivilegedStep

/-! ## An MSI -/

/-- The spec of an MSI that its constructor let through. -/
structure MsiSpec where
  bundle : InstallerSpec
  upgradeCode : Text
  arch : TargetArch
  steps : List MsiPrivilegedStep
  allowDowngrades : Bool
  conflictingRegistryKeys : List Text
  identified : MsiComponentGuid.checkUpgradeCode upgradeCode = .ok ()
  elevated : steps ≠ [] → bundle.installMode = .perMachine
  distinct : (steps.map (·.id)).Nodup
  undone : ∀ step ∈ steps, ∀ other, step.rollbackFor = some other →
    other ∈ steps.map (·.id)

namespace MsiSpec

/-- The first identifier that an earlier step has. -/
def repeated? : List Text → List Text → Option Text
  | _, [] => none
  | seen, id :: others =>
      if id ∈ seen then some id else repeated? (seen ++ [id]) others

theorem nodup_of_repeated?_eq_none {seen ids : List Text}
    (hseen : seen.Nodup) (hnone : repeated? seen ids = none) :
    (seen ++ ids).Nodup := by
  induction ids generalizing seen with
  | nil => rwa [List.append_nil]
  | cons id ids ih =>
      rw [repeated?] at hnone
      split at hnone
      · simp at hnone
      · next hfresh =>
          have hlonger : (seen ++ [id]).Nodup := by
            rw [List.nodup_append]
            refine ⟨hseen, List.nodup_singleton id, ?_⟩
            intro first hfirst second hsecond hsame
            rw [List.mem_singleton.mp hsecond] at hsame
            exact hfresh (hsame ▸ hfirst)
          have hrest := ih hlonger hnone
          rwa [List.append_assoc, List.singleton_append] at hrest

def isOrphan (steps : List MsiPrivilegedStep) (step : MsiPrivilegedStep) :
    Bool :=
  match step.rollbackFor with
  | none => false
  | some other => other ∉ steps.map (·.id)

def create (bundle : InstallerSpec) (upgradeCode : Text) (arch : TargetArch)
    (steps : List MsiPrivilegedStep) (allowDowngrades : Bool)
    (conflictingRegistryKeys : List Text) : Except BundleError MsiSpec :=
  match hidentified : MsiComponentGuid.checkUpgradeCode upgradeCode with
  | .error failure => .error failure
  | .ok () =>
    if helevated : bundle.installMode ≠ .perMachine ∧ steps ≠ [] then
      refuse (text "A per-user MSI cannot run a privileged step.")
        (some (text "A deferred custom action with Impersonate=\"no\" needs an elevated install. Either build this MSI per-machine, or drop the step."))
    else
      match hrepeated : repeated? [] (steps.map (·.id)) with
      | some id =>
          refuse (text "Two privileged steps share the id \"" ++ id ++
              text "\".")
            (some (text "A custom action id is a primary key in the MSI database."))
      | none =>
          match horphan : steps.find? (isOrphan steps) with
          | some step =>
              refuse (text "Rollback step \"" ++ step.id ++
                  text "\" undoes \"" ++ step.rollbackFor.getD [] ++
                  text "\", which this spec does not declare.")
                (some (text "A rollback action that is scheduled without the action it undoes leaves the machine in the state nobody cleans up."))
          | none => .ok {
              bundle, upgradeCode, arch, steps, allowDowngrades
              conflictingRegistryKeys
              identified := hidentified
              elevated := by
                intro hsteps
                by_contra hmode
                exact helevated ⟨hmode, hsteps⟩
              distinct := nodup_of_repeated?_eq_none List.nodup_nil hrepeated
              undone := by
                intro step hstep other hother
                have hkept := List.find?_eq_none.mp horphan step hstep
                simpa [isOrphan, hother] using hkept }

def productVersion (spec : MsiSpec) : Except BundleError Text :=
  MsiVersion.of spec.bundle.version

/-- What is left of the code has no other letters than those of hexadecimal
digits. -/
def normalizedUpgradeCode (spec : MsiSpec) : Text :=
  ((trim spec.upgradeCode).filter fun unit => unit ≠ 123 ∧ unit ≠ 125).map
    fun unit => if 97 ≤ unit && unit ≤ 122 then unit - 32 else unit

end MsiSpec

end Dovetail.Bundler
