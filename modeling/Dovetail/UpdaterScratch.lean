import Dovetail.UpdaterFileName

/-!
# What an update may delete

A package is written to a scratch directory and handed to the package manager
or to the installer service, and the directory is deleted whatever comes of
it.  It is deleted as a whole, so a directory the caller has named loses what
was in it before; one that was made for the package had nothing in it.
-/

namespace Dovetail.Updater

open CodeUnits
open FallibleDisk
open FallibleSteps

/-- How the system names files: the file a path leads to, and the files in a
directory and below. -/
structure FileNames where
  real : Text → Text
  inside : Text → Text → Bool

/-- What the installers take of an artifact. -/
structure Package where
  fileName : Text
  bytes : Bytes

def lowerCase (source : Text) : Text :=
  source.map fun unit => if 65 ≤ unit && unit ≤ 90 then unit + 32 else unit

/-- How the steps of an installation are answered; without an outcome the
runner throws. -/
structure InstallAnswers where
  create : Answer FileSystemException Unit
  write : Answer FileSystemException (Option StoredFile)
  status : Except FileSystemException (Option (List Text))
  run : Text → List Text → Option ProcessOutcome
  launch : Text → List Text → Answer FileSystemException Unit
  clear : Answer FileSystemException (Text → Bool)
  replace : ReplaceAnswers

def ranPackage (outcome : Option ProcessOutcome) :
    Attempt Text StoredFile InstallFailure ProcessOutcome :=
  match outcome with
  | none => throw .runner
  | some outcome => pure outcome

/-! ## Linux -/

inductive LinuxPackageFormat where
  | appImage
  | debian
  | rpm
  deriving DecidableEq

namespace LinuxPackageFormat

def extension : LinuxPackageFormat → Text
  | .appImage => text ".appimage"
  | .debian => text ".deb"
  | .rpm => text ".rpm"

/-- The extension of the last name between slashes. -/
def extensionOf (path : Text) : Text :=
  match ((path.splitOn 47).filter (· ≠ [])).getLast? with
  | none => []
  | some name =>
      if name = text ".." then [] else MacosInstaller.extension name

def notAPackage (fileName : Text) : UpdateFailure where
  message := text "the artefact is \"" ++ fileName ++
    text "\", which is not a package this can apply."
  remedy := some (text
    ("Publish one of .appimage, .deb, .rpm as the Linux update artefact. " ++
      "An AppImage replaces itself; a .deb or .rpm is handed to the system " ++
      "package manager, which asks for authorisation."))

def ofName (fileName : Text) : Except UpdateFailure LinuxPackageFormat :=
  let found := lowerCase (extensionOf fileName)
  if found = extension .appImage then .ok .appImage
  else if found = extension .debian then .ok .debian
  else if found = extension .rpm then .ok .rpm
  else .error (notAPackage fileName)

end LinuxPackageFormat

structure LinuxInstaller where
  appImagePath : Text
  pkexec : Text
  dpkg : Text
  rpm : Text
  scratchDirectory : Option Text

namespace LinuxInstaller

/-- There is no command for an AppImage, which is replaced in place. -/
def argumentsFor (installer : LinuxInstaller) (format : LinuxPackageFormat)
    (packagePath : Text) : List Text :=
  match format with
  | .debian => [installer.dpkg, text "--install", packagePath]
  | .rpm =>
      [installer.rpm, text "--upgrade", text "--replacepkgs", packagePath]
  | .appImage => []

/-- The effective user of the status file is root. -/
def alreadyPrivileged (status : Option (List Text)) : Bool :=
  match (status.getD []).find? fun line => (text "Uid:").isPrefixOf line with
  | none => false
  | some line =>
      let fields := line.splitOnP fun unit => unit != 0x85 && isSpace unit
      (fields.filter (· ≠ []))[2]? == some (text "0")

def notApplied (installer : LinuxInstaller) (fileName : Text)
    (elevated : Bool) (applied : ProcessOutcome) : UpdateFailure where
  message := text "the package manager exited with " ++
    text (toString applied.exitCode) ++ text " instead of installing " ++
    fileName ++ text "."
  remedy := some (
    if trim applied.stderr = [] then
      if elevated then
        text ("Nothing was replaced, and this process is already root, " ++
          "so no authorisation was asked for.")
      else text "Nothing was replaced. " ++ installer.pkexec ++ text
        (" exits 126 when the authorisation dialog is dismissed and 127 " ++
          "when it cannot be shown at all, which is what happens over ssh " ++
          "without a session bus.")
    else trim applied.stderr)

def readStatus (status : Except FileSystemException (Option (List Text))) :
    Attempt Text StoredFile InstallFailure Bool :=
  match status with
  | .ok lines => pure (alreadyPrivileged lines)
  | .error error => throw (.fileSystem error)

def handToPackageManager (installer : LinuxInstaller) (names : FileNames)
    (temporary : Text) (format : LinuxPackageFormat) (package : Package)
    (answers : InstallAnswers) :
    Attempt Text StoredFile InstallFailure InstallOutcome := do
  perform .fileSystem answers.create
  let scratch := installer.scratchDirectory.getD temporary
  let packagePath := LinuxInstaller.packagePath scratch package.fileName
  FallibleDisk.replace .fileSystem (names.real packagePath)
    (some ⟨package.bytes, false⟩) answers.write
  let command := installer.argumentsFor format packagePath
  let elevated ← readStatus answers.status
  let applied ← tryFinally
    (ranPackage
      (if elevated then
        answers.run (command.headD []) (command.drop 1)
      else answers.run installer.pkexec command))
    (deleteAll .fileSystem (names.inside scratch) answers.clear)
  unless applied.succeeded do
    throw (.update (installer.notApplied package.fileName elevated applied))
  return .installedRestartNeeded

def install (installer : LinuxInstaller) (names : FileNames)
    (temporary : Text) (package : Package) (answers : InstallAnswers) :
    Attempt Text StoredFile InstallFailure InstallOutcome :=
  match LinuxPackageFormat.ofName package.fileName with
  | .error failure => throw (.update failure)
  | .ok .appImage =>
      replaceAppImage installer.appImagePath ⟨package.bytes, answers.replace⟩
  | .ok format =>
      installer.handToPackageManager names temporary format package answers

end LinuxInstaller

/-! ## Windows -/

inductive WindowsInstallMode where
  | passive
  | quiet
  | interactive
  deriving DecidableEq

def WindowsInstallMode.nsisArguments : WindowsInstallMode → List Text
  | .passive => [text "/S"]
  | .quiet => [text "/S"]
  | .interactive => []

structure WindowsInstaller where
  hasLauncher : Bool
  mode : WindowsInstallMode
  msiexec : Text
  scratchDirectory : Option Text

namespace WindowsInstaller

def msi : Text := text ".msi"

/-- Success, and success that wants a restart or begins one. -/
def installed (exitCode : Int) : Bool :=
  exitCode == 0 || exitCode == 3010 || exitCode == 1641

def executableFor (installer : WindowsInstaller)
    (extension installerPath : Text) : Text :=
  if extension = msi then installer.msiexec else installerPath

def argumentsFor (installer : WindowsInstaller)
    (extension installerPath : Text) : List Text :=
  if extension = msi then
    [text "/i", installerPath] ++
      (if installer.mode = .quiet then [text "/quiet"] else []) ++
      (if installer.mode = .passive then [text "/passive"] else []) ++
      [text "/norestart"]
  else installer.mode.nsisArguments

def notAnInstaller (fileName : Text) : UpdateFailure where
  message := text "the artefact is \"" ++ fileName ++
    text "\", which is not an installer this can run."
  remedy := some (text
    ("On Windows an update is the installer itself, run over the " ++
      "installation in place. Publish the .exe or the .msi as the update " ++
      "artefact, not an archive of the app directory."))

def noLauncher : UpdateFailure where
  message := text
    "no launcher was given for an installer that takes over."
  remedy := some (text
    ("An NSIS installer waits for the running application to close before " ++
      "it can replace it, so awaiting the installer from inside that " ++
      "application is a wait with no end. Pass a ProcessLauncher."))

def notInstalled (finished : ProcessOutcome) : UpdateFailure where
  message := text "msiexec exited with " ++
    text (toString finished.exitCode) ++ text " and installed nothing."
  remedy := some (
    if trim finished.stderr = [] then
      text "Nothing was replaced. The installed application is untouched."
    else trim finished.stderr)

def extensionOf (fileName : Text) : Text :=
  lowerCase (Updater.extensionOf fileName)

/-- An installer that takes over is left in the scratch directory. -/
def install (installer : WindowsInstaller) (names : FileNames)
    (rootOf : Text → Text) (temporary : Text) (package : Package)
    (answers : InstallAnswers) :
    Attempt Text StoredFile InstallFailure InstallOutcome := do
  let extension := extensionOf package.fileName
  unless extension ∈ installerExtensions do
    throw (.update (notAnInstaller package.fileName))
  perform .fileSystem answers.create
  let scratch := installer.scratchDirectory.getD temporary
  let path := (PathStyle.windows rootOf).join scratch package.fileName
  FallibleDisk.replace .fileSystem (names.real path)
    (some ⟨package.bytes, false⟩) answers.write
  let executable := installer.executableFor extension path
  let arguments := installer.argumentsFor extension path
  if extension ≠ msi then
    unless installer.hasLauncher do
      throw (.update noLauncher)
    perform .fileSystem (answers.launch executable arguments)
    return .installerLaunchedAppMustExit
  let finished ← tryFinally (ranPackage (answers.run executable arguments))
    (deleteAll .fileSystem (names.inside scratch) answers.clear)
  unless installed finished.exitCode do
    throw (.update (notInstalled finished))
  return .installedRestartNeeded

end WindowsInstaller

/-! ## What is kept -/

/-- Every file that is not spared is still there with its content. -/
def KeepsFiles (spared : Text → Prop) (before after : Disk Text StoredFile) :
    Prop :=
  ∀ path file, before path = some file → ¬ spared path →
    ∃ now, after path = some now ∧ now.bytes = file.bytes

section

variable {spared : Text → Prop} {disk after : Disk Text StoredFile}

theorem KeepsFiles.refl : KeepsFiles spared disk disk :=
  fun _ file hfile _ => ⟨file, hfile, rfl⟩

theorem KeepsFiles.update (hkeeps : KeepsFiles spared disk after)
    {target : Text} (htarget : disk target = none ∨ spared target)
    (entry : Option StoredFile) :
    KeepsFiles spared disk (Function.update after target entry) := by
  intro path file hfile hspared
  have hne : path ≠ target := by
    intro hsame
    rw [hsame] at hfile hspared
    rcases htarget with hnone | htarget
    · rw [hnone] at hfile
      cases hfile
    · exact hspared htarget
  rw [Function.update_of_ne hne]
  exact hkeeps path file hfile hspared

theorem KeepsFiles.clear (hkeeps : KeepsFiles spared disk after)
    {within : Text → Bool}
    (hwithin : ∀ path, within path = true → disk path = none) :
    KeepsFiles spared disk fun path =>
      if within path then none else after path := by
  intro path file hfile hspared
  rcases hkeeps path file hfile hspared with ⟨now, hnow, hbytes⟩
  refine ⟨now, ?_, hbytes⟩
  have houtside : ¬ within path = true := by
    intro hinside
    rw [hwithin path hinside] at hfile
    cases hfile
  exact (if_neg houtside).trans hnow

end

/-! ## The installers together -/

inductive Installer where
  | linux (installer : LinuxInstaller)
  | windows (installer : WindowsInstaller) (rootOf : Text → Text)

namespace Installer

def scratchDirectory : Installer → Option Text
  | .linux installer => installer.scratchDirectory
  | .windows installer _ => installer.scratchDirectory

/-- A directory made for the package is the temporary one. -/
def install (installer : Installer) (names : FileNames) (temporary : Text)
    (package : Package) (answers : InstallAnswers) :
    Attempt Text StoredFile InstallFailure InstallOutcome :=
  match installer with
  | .linux installer => installer.install names temporary package answers
  | .windows installer rootOf =>
      installer.install names rootOf temporary package answers

/-- The file that is replaced, and its backup. -/
def spared (installer : Installer) (package : Package) (path : Text) : Prop :=
  match installer with
  | .linux installer =>
      LinuxPackageFormat.ofName package.fileName = .ok .appImage ∧
        (path = installer.appImagePath ∨
          path = installer.appImagePath ++ suffixPrevious)
  | .windows _ _ => False

/-- Where the package is written to. -/
def packagePath? (installer : Installer) (temporary : Text)
    (package : Package) : Option Text :=
  let scratch := installer.scratchDirectory.getD temporary
  match installer with
  | .linux _ =>
      match LinuxPackageFormat.ofName package.fileName with
      | .error _ => none
      | .ok .appImage => none
      | .ok _ => some (LinuxInstaller.packagePath scratch package.fileName)
  | .windows _ rootOf =>
      WindowsInstaller.installerPath? rootOf scratch package.fileName

/-- The scratch directory is deleted once the package has been tried. -/
def clears (installer : Installer) (package : Package) : Bool :=
  match installer with
  | .linux _ =>
      match LinuxPackageFormat.ofName package.fileName with
      | .error _ => false
      | .ok .appImage => false
      | .ok _ => true
  | .windows _ _ =>
      WindowsInstaller.extensionOf package.fileName == WindowsInstaller.msi

end Installer

/-- However the steps are answered, every file but the one that is replaced is
kept. -/
def DeletesOnlyItsOwn (installer : Installer) (names : FileNames)
    (temporary : Text) (package : Package) (disk : Disk Text StoredFile) :
    Prop :=
  ∀ answers, Ensures (installer.install names temporary package answers) disk
    (fun _ after => KeepsFiles (installer.spared package) disk after)
    (fun _ after => KeepsFiles (installer.spared package) disk after)

/-- No file stands where the package is written to, and none in a directory
of the caller that is deleted. -/
structure Clear (installer : Installer) (names : FileNames) (temporary : Text)
    (package : Package) (disk : Disk Text StoredFile) : Prop where
  written : ∀ path, installer.packagePath? temporary package = some path →
    disk (names.real path) = none
  emptied : installer.clears package = true → ∀ scratch,
    installer.scratchDirectory = some scratch →
      ∀ path, names.inside scratch path = true → disk path = none

/-! ## Where nothing is in the way -/

section

variable {spared : Text → Prop} {disk : Disk Text StoredFile}

theorem preserves_ranPackage {P : Disk Text StoredFile → Prop}
    (outcome : Option ProcessOutcome) : Preserves P (ranPackage outcome) := by
  cases outcome with
  | none => exact preserves_throw InstallFailure.runner
  | some outcome => exact preserves_pure outcome

theorem preserves_clear {within : Text → Bool}
    (hwithin : ∀ path, within path = true → disk path = none)
    (answer : Answer FileSystemException (Text → Bool)) :
    Preserves (KeepsFiles spared disk)
      (deleteAll InstallFailure.fileSystem within answer) := by
  apply preserves_deleteAll
  intro after cleared hafter hcleared
  apply hafter.clear
  exact fun path hpath => hwithin path (hcleared path hpath)

/-- Replacing an AppImage touches it and its backup alone. -/
theorem LinuxInstaller.preserves_replaceAppImage {path : Text}
    (hpath : spared path) (hbackup : spared (path ++ suffixPrevious))
    (replacement : Replacement) :
    Preserves (KeepsFiles spared disk) (replaceAppImage path replacement) := by
  have happ : ∀ (after : Disk Text StoredFile) entry,
      KeepsFiles spared disk after →
        KeepsFiles spared disk (Function.update after path entry) :=
    fun after entry hafter => hafter.update (Or.inr hpath) entry
  have hprevious : ∀ (after : Disk Text StoredFile) entry,
      KeepsFiles spared disk after → KeepsFiles spared disk
        (Function.update after (path ++ suffixPrevious) entry) :=
    fun after entry hafter => hafter.update (Or.inr hbackup) entry
  have hexecutable (chmod : ChmodRun) :
      Preserves (KeepsFiles spared disk) (makeExecutable path chmod) := by
    intro after hafter
    rw [ensures_makeExecutable]
    exact ⟨fun _ => happ after _ hafter, fun _ => happ after _ hafter⟩
  unfold replaceAppImage
  apply (preserves_holds path).bind
  intro stands
  apply Preserves.guarded
  apply (preserves_holds _).bind
  intro stale
  apply (preserves_delete hprevious _).after
  apply (preserves_rename happ hprevious _).bind
  intro _
  apply Preserves.bind
  · apply (preserves_replace happ _ _).tryCatch
    intro failure
    cases failure with
    | fileSystem error =>
        exact (preserves_rename hprevious happ _).bind
          fun _ => preserves_throw _
    | update failure => exact preserves_throw _
    | runner => exact preserves_throw _
  · intro _
    apply (hexecutable _).bind
    intro _
    exact (preserves_delete hprevious _).bind fun _ => preserves_pure _

theorem preserves_write {target : Text} (htarget : disk target = none)
    (entry : Option StoredFile)
    (answer : Answer FileSystemException (Option StoredFile)) :
    Preserves (KeepsFiles spared disk)
      (FallibleDisk.replace InstallFailure.fileSystem target entry
        answer) := by
  apply preserves_replace
  exact fun after entry hafter => hafter.update (Or.inl htarget) entry

variable {names : FileNames} {temporary : Text} {package : Package}
  {answers : InstallAnswers}

theorem LinuxInstaller.preserves_handToPackageManager
    {installer : LinuxInstaller} {format : LinuxPackageFormat}
    (hwritten : disk (names.real (packagePath
      (installer.scratchDirectory.getD temporary) package.fileName)) = none)
    (hscratch : ∀ path, names.inside
      (installer.scratchDirectory.getD temporary) path = true →
        disk path = none) :
    Preserves (KeepsFiles spared disk)
      (installer.handToPackageManager names temporary format package
        answers) := by
  unfold handToPackageManager
  apply (preserves_perform _).bind
  intro _
  apply (preserves_write hwritten _ _).bind
  intro _
  apply Preserves.bind
  · unfold readStatus
    cases answers.status with
    | ok lines => exact preserves_pure _
    | error error => exact preserves_throw _
  · intro elevated
    apply ((preserves_ranPackage _).tryFinally
      (preserves_clear hscratch _)).bind
    intro applied
    apply Preserves.guarded
    exact preserves_pure _

theorem WindowsInstaller.preserves_install {installer : WindowsInstaller}
    {rootOf : Text → Text}
    (hwritten : ∀ path, installerPath? rootOf
        (installer.scratchDirectory.getD temporary) package.fileName =
          some path → disk (names.real path) = none)
    (hscratch : extensionOf package.fileName = msi →
      ∀ path, names.inside
        (installer.scratchDirectory.getD temporary) path = true →
          disk path = none) :
    Preserves (KeepsFiles spared disk)
      (installer.install names rootOf temporary package answers) := by
  unfold install
  dsimp only
  by_cases hextension : extensionOf package.fileName ∈ installerExtensions
  · have hpath : installerPath? rootOf
        (installer.scratchDirectory.getD temporary) package.fileName =
          some ((PathStyle.windows rootOf).join
            (installer.scratchDirectory.getD temporary) package.fileName) :=
      if_pos hextension
    apply Preserves.guarded
    apply (preserves_perform _).bind
    intro _
    apply (preserves_write (hwritten _ hpath) _ _).bind
    intro _
    by_cases hmsi : extensionOf package.fileName = msi
    · rw [if_neg (not_not_intro hmsi)]
      apply ((preserves_ranPackage _).tryFinally
        (preserves_clear (hscratch hmsi) _)).bind
      intro finished
      apply Preserves.guarded
      exact preserves_pure _
    · rw [if_pos hmsi]
      apply Preserves.guarded
      exact (preserves_perform _).bind fun _ => preserves_pure _
  · rw [if_neg hextension]
    intro after hafter
    rw [ensures_bind]
    exact hafter

/-- Where nothing is in the way an installer keeps every file. -/
theorem deletesOnlyItsOwn_of_clear {installer : Installer}
    (hclear : Clear installer names temporary package disk)
    (hfresh : installer.scratchDirectory = none →
      ∀ path, names.inside temporary path = true → disk path = none) :
    DeletesOnlyItsOwn installer names temporary package disk := by
  have hscratch (hclears : installer.clears package = true) : ∀ path,
      names.inside (installer.scratchDirectory.getD temporary) path = true →
        disk path = none := by
    cases hgiven : installer.scratchDirectory with
    | none => exact hfresh hgiven
    | some scratch => exact hclear.emptied hclears scratch hgiven
  have hwritten := hclear.written
  intro answers
  suffices hpreserves : Preserves
      (KeepsFiles (installer.spared package) disk)
      (installer.install names temporary package answers) from
    hpreserves disk KeepsFiles.refl
  cases installer with
  | linux installer =>
      unfold Installer.clears at hscratch
      unfold Installer.packagePath? at hwritten
      unfold Installer.install LinuxInstaller.install
      cases hformat : LinuxPackageFormat.ofName package.fileName with
      | error failure => exact preserves_throw _
      | ok format =>
          rw [hformat] at hscratch hwritten
          cases format with
          | appImage =>
              apply LinuxInstaller.preserves_replaceAppImage
              · exact ⟨hformat, Or.inl rfl⟩
              · exact ⟨hformat, Or.inr rfl⟩
          | debian =>
              exact LinuxInstaller.preserves_handToPackageManager
                (hwritten _ rfl) (hscratch rfl)
          | rpm =>
              exact LinuxInstaller.preserves_handToPackageManager
                (hwritten _ rfl) (hscratch rfl)
  | windows installer rootOf =>
      apply WindowsInstaller.preserves_install hwritten
      intro hmsi
      exact hscratch (beq_iff_eq.mpr hmsi)

end

/-! ## Where something is in the way -/

/-- Everything goes well but, maybe, the writing of the package. -/
def answersWith (write : Answer FileSystemException (Option StoredFile)) :
    InstallAnswers where
  create := .done
  write
  status := .ok none
  run _ _ := some ⟨0, []⟩
  launch _ _ := .done
  clear := .done
  replace :=
    { deleteStale := .done
      setAside := .done
      write := .done
      putBack := .done
      chmod := ⟨some 0, true, fun _ => rfl⟩
      deleteBackup := .done }

section

variable {names : FileNames} {temporary : Text} {package : Package}
  {disk : Disk Text StoredFile} {returned : InstallOutcome →
    Disk Text StoredFile → Prop}
  {thrown : InstallFailure → Disk Text StoredFile → Prop}

theorem LinuxInstaller.ensures_interrupted {installer : LinuxInstaller}
    {format : LinuxPackageFormat} (error : FileSystemException)
    (left : Option StoredFile) :
    Ensures (installer.handToPackageManager names temporary format package
        (answersWith (.failed error left))) disk returned thrown ↔
      thrown (.fileSystem error) (Function.update disk
        (names.real (packagePath
          (installer.scratchDirectory.getD temporary) package.fileName))
        left) := by
  simp [handToPackageManager, answersWith]

theorem LinuxInstaller.ensures_applied {installer : LinuxInstaller}
    {format : LinuxPackageFormat} :
    Ensures (installer.handToPackageManager names temporary format package
        (answersWith .done)) disk returned thrown ↔
      returned .installedRestartNeeded fun path =>
        if names.inside (installer.scratchDirectory.getD temporary) path then
          none
        else Function.update disk
          (names.real (packagePath
            (installer.scratchDirectory.getD temporary) package.fileName))
          (some ⟨package.bytes, false⟩) path := by
  simp [handToPackageManager, answersWith, readStatus, alreadyPrivileged,
    ranPackage, ProcessOutcome.succeeded]

theorem WindowsInstaller.ensures_interrupted {installer : WindowsInstaller}
    {rootOf : Text → Text}
    (hextension : extensionOf package.fileName ∈ installerExtensions)
    (error : FileSystemException) (left : Option StoredFile) :
    Ensures (installer.install names rootOf temporary package
        (answersWith (.failed error left))) disk returned thrown ↔
      thrown (.fileSystem error) (Function.update disk
        (names.real ((PathStyle.windows rootOf).join
          (installer.scratchDirectory.getD temporary) package.fileName))
        left) := by
  simp [install, answersWith, hextension]

theorem WindowsInstaller.ensures_applied {installer : WindowsInstaller}
    {rootOf : Text → Text} (hmsi : extensionOf package.fileName = msi) :
    Ensures (installer.install names rootOf temporary package
        (answersWith .done)) disk returned thrown ↔
      returned .installedRestartNeeded fun path =>
        if names.inside (installer.scratchDirectory.getD temporary) path then
          none
        else Function.update disk
          (names.real ((PathStyle.windows rootOf).join
            (installer.scratchDirectory.getD temporary) package.fileName))
          (some ⟨package.bytes, false⟩) path := by
  have hextension : msi ∈ installerExtensions := by
    simp [installerExtensions, msi]
  simp [install, answersWith, hmsi, hextension, ranPackage, installed]

/-- A file that is lost is one that was spared. -/
theorem KeepsFiles.spared_of_none {spared : Text → Prop}
    {after : Disk Text StoredFile} (hkeeps : KeepsFiles spared disk after)
    {path : Text} {file : StoredFile} (hfile : disk path = some file)
    (hnone : after path = none) : spared path := by
  by_contra hspared
  rcases hkeeps path file hfile hspared with ⟨now, hnow, -⟩
  rw [hnone] at hnow
  cases hnow

/-- A package that is handed to the package manager. -/
theorem LinuxInstaller.handed {installer : LinuxInstaller}
    (hclears : (Installer.linux installer).clears package = true) :
    (∀ path, ¬ (Installer.linux installer).spared package path) ∧
      (Installer.linux installer).packagePath? temporary package =
        some (packagePath (installer.scratchDirectory.getD temporary)
          package.fileName) ∧
      ∃ format, ∀ answers,
        (Installer.linux installer).install names temporary package answers =
          installer.handToPackageManager names temporary format package
            answers := by
  unfold Installer.clears at hclears
  unfold Installer.spared Installer.packagePath? Installer.install
    LinuxInstaller.install
  cases hformat : LinuxPackageFormat.ofName package.fileName with
  | error failure =>
      rw [hformat] at hclears
      cases hclears
  | ok format =>
      rw [hformat] at hclears
      cases format with
      | appImage => cases hclears
      | debian => exact ⟨by simp, rfl, .debian, fun _ => rfl⟩
      | rpm => exact ⟨by simp, rfl, .rpm, fun _ => rfl⟩

theorem LinuxInstaller.clears_of_packagePath? {installer : LinuxInstaller}
    {path : Text}
    (hpath : (Installer.linux installer).packagePath? temporary package =
      some path) : (Installer.linux installer).clears package = true := by
  unfold Installer.packagePath? at hpath
  unfold Installer.clears
  cases hformat : LinuxPackageFormat.ofName package.fileName with
  | error failure =>
      rw [hformat] at hpath
      cases hpath
  | ok format =>
      rw [hformat] at hpath
      cases format with
      | appImage => cases hpath
      | debian => rfl
      | rpm => rfl

theorem LinuxInstaller.clear_of_deletesOnlyItsOwn
    {installer : LinuxInstaller}
    (hkeeps : DeletesOnlyItsOwn (.linux installer) names temporary package
      disk) : Clear (.linux installer) names temporary package disk := by
  constructor
  case written =>
    intro path hpath
    by_contra hsome
    rcases Option.ne_none_iff_exists'.mp hsome with ⟨file, hfile⟩
    rcases @handed names temporary package installer
      (clears_of_packagePath? hpath) with ⟨hspared, hsame, format, hinstall⟩
    have hfailed := hkeeps (answersWith (.failed ⟨[], none⟩ none))
    rw [hsame] at hpath
    rw [hinstall, ensures_interrupted, Option.some.inj hpath] at hfailed
    exact hspared _ (hfailed.spared_of_none hfile (by simp))
  case emptied =>
    intro hclears scratch hscratch path hinside
    have hgiven : installer.scratchDirectory = some scratch := hscratch
    by_contra hsome
    rcases Option.ne_none_iff_exists'.mp hsome with ⟨file, hfile⟩
    rcases @handed names temporary package installer hclears with
      ⟨hspared, -, format, hinstall⟩
    have happlied := hkeeps (answersWith .done)
    rw [hinstall, ensures_applied, hgiven] at happlied
    exact hspared _ (happlied.spared_of_none hfile (if_pos hinside))

theorem WindowsInstaller.clear_of_deletesOnlyItsOwn
    {installer : WindowsInstaller} {rootOf : Text → Text}
    (hkeeps : DeletesOnlyItsOwn (.windows installer rootOf) names temporary
      package disk) :
    Clear (.windows installer rootOf) names temporary package disk := by
  constructor
  case written =>
    intro path hpath
    by_contra hsome
    rcases Option.ne_none_iff_exists'.mp hsome with ⟨file, hfile⟩
    have hwritten : installerPath? rootOf
        (installer.scratchDirectory.getD temporary) package.fileName =
          some path := hpath
    unfold installerPath? at hwritten
    dsimp only at hwritten
    split at hwritten
    · next hextension =>
        have hfailed : Ensures (installer.install names rootOf temporary
            package (answersWith (.failed ⟨[], none⟩ none))) disk _ _ :=
          hkeeps _
        rw [ensures_interrupted hextension, Option.some.inj hwritten]
          at hfailed
        exact hfailed.spared_of_none hfile (by simp)
    · cases hwritten
  case emptied =>
    intro hclears scratch hscratch path hinside
    have hgiven : installer.scratchDirectory = some scratch := hscratch
    by_contra hsome
    rcases Option.ne_none_iff_exists'.mp hsome with ⟨file, hfile⟩
    have happlied : Ensures (installer.install names rootOf temporary package
        (answersWith .done)) disk _ _ := hkeeps _
    rw [ensures_applied (beq_iff_eq.mp hclears), hgiven] at happlied
    exact happlied.spared_of_none hfile (if_pos hinside)

end

/-- An installer deletes and overwrites nothing but what is its own exactly
where no file stands at the path of the package and no directory with files
in it was given for a package that is cleared away. -/
theorem deletesOnlyItsOwn_iff (installer : Installer) (names : FileNames)
    (temporary : Text) (package : Package) (disk : Disk Text StoredFile)
    (hfresh : installer.scratchDirectory = none →
      ∀ path, names.inside temporary path = true → disk path = none) :
    DeletesOnlyItsOwn installer names temporary package disk ↔
      Clear installer names temporary package disk := by
  constructor
  · intro hkeeps
    cases installer with
    | linux installer =>
        exact LinuxInstaller.clear_of_deletesOnlyItsOwn hkeeps
    | windows installer rootOf =>
        exact WindowsInstaller.clear_of_deletesOnlyItsOwn hkeeps
  · intro hclear
    exact deletesOnlyItsOwn_of_clear hclear hfresh

/-- Names lead to the files they spell. -/
def plainNames : FileNames where
  real path := path
  inside directory path := (directory ++ text "/").isPrefixOf path

def linuxInstallerIn (scratchDirectory : Option Text) : LinuxInstaller where
  appImagePath := text "/opt/client/client.AppImage"
  pkexec := text "pkexec"
  dpkg := text "dpkg"
  rpm := text "rpm"
  scratchDirectory

def debianPackage : Package := ⟨text "client_2.1.0_amd64.deb", [0x21]⟩

/-- Only the notes of the caller. -/
def notesDisk : Disk Text StoredFile := fun path =>
  if path = text "/srv/downloads/notes.txt" then some ⟨[0x6e], false⟩
  else none

theorem notesDisk_eq_none {path : Text}
    (hpath : path ≠ text "/srv/downloads/notes.txt") :
    notesDisk path = none :=
  if_neg hpath

theorem deletesOnlyItsOwn_inTemporary :
    DeletesOnlyItsOwn (.linux (linuxInstallerIn none)) plainNames
      (text "/tmp/dovetail_pkg_X1") debianPackage notesDisk := by
  refine (deletesOnlyItsOwn_iff _ _ _ _ _ ?_).mpr ?_
  · intro _ path hinside
    apply notesDisk_eq_none
    intro hsame
    rw [hsame] at hinside
    revert hinside
    decide
  · constructor
    case written =>
      intro path hpath
      apply notesDisk_eq_none
      intro hsame
      have hsame : path = text "/srv/downloads/notes.txt" := hsame
      rw [hsame] at hpath
      revert hpath
      decide
    case emptied =>
      intro _ scratch hgiven
      cases hgiven

/-- The notes go with the directory they are in. -/
theorem not_deletesOnlyItsOwn_downloads :
    ¬ DeletesOnlyItsOwn
      (.linux (linuxInstallerIn (some (text "/srv/downloads")))) plainNames
      (text "/tmp/dovetail_pkg_X1") debianPackage notesDisk := by
  intro hkeeps
  have hclear := LinuxInstaller.clear_of_deletesOnlyItsOwn hkeeps
  have hnone := hclear.emptied (by decide) (text "/srv/downloads") rfl
    (text "/srv/downloads/notes.txt") (by decide)
  cases (if_pos rfl).symm.trans hnone

end Dovetail.Updater
