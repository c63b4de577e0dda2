import Dovetail.FallibleDisk
import Dovetail.TransitionRun
import Dovetail.UpdaterFlow

/-!
# Putting an update in place

The installers of the updater as attempts on a disk: on Linux the AppImage is
set aside, written anew and made executable; on macOS the bundle is swapped
with the extracted one, by renaming or by a shell line with administrator
rights.  Every operation and every external command has its own answer.
-/

namespace Dovetail.Updater

open CodeUnits
open FallibleDisk
open FallibleSteps
open TransitionRun

/-- An error of an operation on files. -/
structure FileSystemException where
  message : Text
  osMessage : Option Text
  deriving DecidableEq

inductive InstallFailure where
  | update (failure : UpdateFailure)
  | fileSystem (error : FileSystemException)
  | runner
  deriving DecidableEq

inductive InstallOutcome where
  | installedRestartNeeded
  | installerLaunchedAppMustExit
  deriving DecidableEq

def suffixPrevious : Text := text ".previous"

theorem append_suffixPrevious_ne (path : Text) :
    path ++ suffixPrevious ≠ path := by
  intro hsame
  have hlength := congrArg List.length hsame
  simp [suffixPrevious, text, units] at hlength

/-! ## The AppImage -/

structure StoredFile where
  bytes : Bytes
  executable : Bool
  deriving DecidableEq

/-- How the command that sets the mode went: its exit code, when the runner
returned one, and whether the mode was set. -/
structure ChmodRun where
  exitCode : Option Int
  marks : Bool
  honest : exitCode = some 0 → marks = true

structure ReplaceAnswers where
  deleteStale : Answer FileSystemException Unit
  setAside : Answer FileSystemException Unit
  write : Answer FileSystemException (Option StoredFile)
  putBack : Answer FileSystemException Unit
  chmod : ChmodRun
  deleteBackup : Answer FileSystemException Unit

namespace LinuxInstaller

/-- Replacing the AppImage with these bytes, and how its steps are
answered. -/
structure Replacement where
  bytes : Bytes
  answers : ReplaceAnswers

def nothingToReplace (appImagePath : Text) : UpdateFailure where
  message := text "there is no AppImage at " ++ appImagePath ++
    text " to replace."
  remedy := some (text
    ("LinuxInstaller replaces the file it was pointed at. Give it the " ++
      "path the running AppImage was launched from, which the process " ++
      "reads from the APPIMAGE environment variable."))

def notWritten (appImagePath : Text) (error : FileSystemException) :
    UpdateFailure where
  message := text "the new AppImage could not be written to " ++
    appImagePath ++ text "."
  remedy := some (text
    "The previous one was put back, so the installation still runs. " ++
      error.osMessage.getD error.message)

def notExecutable (path : Text) : UpdateFailure where
  message := text
    "the new AppImage was written but could not be made executable."
  remedy := some (text "Run: chmod 755 " ++ path)

def makeExecutable (path : Text) (chmod : ChmodRun) :
    Attempt Text StoredFile InstallFailure Unit := do
  let disk ← get
  put path ((disk path).map fun file =>
    { file with executable := file.executable || chmod.marks })
  match chmod.exitCode with
  | none => throw .runner
  | some code =>
      unless code == 0 do
        throw (.update (notExecutable path))

def replaceAppImage (appImagePath : Text) (replacement : Replacement) :
    Attempt Text StoredFile InstallFailure InstallOutcome := do
  let answers := replacement.answers
  unless ← holds appImagePath do
    throw (.update (nothingToReplace appImagePath))
  let backup := appImagePath ++ suffixPrevious
  if ← holds backup then
    delete .fileSystem backup answers.deleteStale
  rename .fileSystem appImagePath backup answers.setAside
  tryCatch
    (replace .fileSystem appImagePath (some ⟨replacement.bytes, false⟩)
      answers.write)
    fun failure =>
      match failure with
      | .fileSystem error => do
          rename .fileSystem backup appImagePath answers.putBack
          throw (.update (notWritten appImagePath error))
      | other => throw other
  makeExecutable appImagePath answers.chmod
  delete .fileSystem backup answers.deleteBackup
  return .installedRestartNeeded

/-- The file at the path still has its bytes and stays executable. -/
def Kept (path : Text) (before after : Disk Text StoredFile) : Prop :=
  ∀ file, before path = some file →
    ∃ now, after path = some now ∧ now.bytes = file.bytes ∧
      (file.executable = true → now.executable = true)

section

variable {path : Text} {disk : Disk Text StoredFile}
  {replacement : Replacement}

theorem Kept.refl : Kept path disk disk := by
  intro file hfile
  exact ⟨file, hfile, rfl, id⟩

@[simp] theorem ensures_makeExecutable {chmod : ChmodRun}
    {returned : Unit → Disk Text StoredFile → Prop}
    {thrown : InstallFailure → Disk Text StoredFile → Prop} :
    Ensures (makeExecutable path chmod) disk returned thrown ↔
      (chmod.exitCode = some 0 → returned () (Function.update disk path
        ((disk path).map fun file => { file with executable := true }))) ∧
      (chmod.exitCode ≠ some 0 →
        thrown (if chmod.exitCode = none then .runner
          else .update (notExecutable path))
          (Function.update disk path ((disk path).map fun file =>
            { file with executable := file.executable || chmod.marks }))) := by
  obtain ⟨exitCode, marks, honest⟩ := chmod
  unfold makeExecutable
  cases exitCode with
  | none => simp
  | some code =>
      by_cases hzero : code = 0
      · have hmarks := honest (by rw [hzero])
        simp [hzero, hmarks]
      · simp [hzero]

/-- The replacement gives up where nothing puts the previous file back: the
file could be neither written nor put back, or the new one stands and the
runner throws or the backup cannot be removed. -/
def slips (path : Text) (disk : Disk Text StoredFile)
    (replacement : Replacement) : Bool :=
  let answers := replacement.answers
  (disk path).isSome &&
    (!(disk (path ++ suffixPrevious)).isSome || answers.deleteStale.isDone) &&
    answers.setAside.isDone &&
    if answers.write.isDone then
      answers.chmod.exitCode == none ||
        (answers.chmod.exitCode == some 0 && !answers.deleteBackup.isDone)
    else !answers.putBack.isDone

/-- The mode of the new file was refused: it stands there without, and the
previous one beside it. -/
def LeftUnmarked (path : Text) (replacement : Replacement)
    (before : Disk Text StoredFile) (failure : InstallFailure)
    (after : Disk Text StoredFile) : Prop :=
  failure = .update (notExecutable path) ∧
    after path = some ⟨replacement.bytes, replacement.answers.chmod.marks⟩ ∧
    after (path ++ suffixPrevious) = before path

/-- What the replacement promises of the disk it is made on. -/
def Promised (path : Text) (disk : Disk Text StoredFile)
    (replacement : Replacement) : Prop :=
  Ensures (replaceAppImage path replacement) disk
    (fun _ after => after path = some ⟨replacement.bytes, true⟩)
    (fun failure after =>
      slips path disk replacement = false →
        Kept path disk after ∨
          LeftUnmarked path replacement disk failure after)

theorem promised_of_clear {file : StoredFile}
    (hfile : disk path = some file)
    (hclear : disk (path ++ suffixPrevious) = none) :
    Promised path disk replacement := by
  have hne := append_suffixPrevious_ne path
  obtain ⟨bytes, stale, aside, write, back, chmod, backup⟩ := replacement
  unfold Promised
  cases aside with
  | failed error left =>
      simp [replaceAppImage, hfile, hclear, Kept]
  | done =>
      cases write with
      | failed error left =>
          cases back <;>
            simp [replaceAppImage, hfile, hclear, hne, hne.symm, slips, Kept]
      | done =>
          by_cases hcode : chmod.exitCode = some 0
          · cases backup <;>
              simp [replaceAppImage, hfile, hclear, hne, hne.symm, slips,
                hcode]
          · by_cases hnone : chmod.exitCode = none
            · simp [replaceAppImage, hfile, hclear, slips, hnone]
            · simp [replaceAppImage, hfile, hclear, hne, LeftUnmarked, hcode,
                hnone]

/-- Once the stale backup is gone, the replacement goes on as if it had never
been there. -/
theorem ensures_replaceAppImage_of_stale {file : StoredFile}
    (hfile : disk path = some file)
    (hstale : (disk (path ++ suffixPrevious)).isSome)
    (hdone : replacement.answers.deleteStale = .done)
    {returned : InstallOutcome → Disk Text StoredFile → Prop}
    {thrown : InstallFailure → Disk Text StoredFile → Prop} :
    Ensures (replaceAppImage path replacement) disk returned thrown ↔
      Ensures (replaceAppImage path replacement)
        (Function.update disk (path ++ suffixPrevious) none) returned
          thrown := by
  have hne := append_suffixPrevious_ne path
  simp [replaceAppImage, hfile, hstale, hdone, hne.symm]

theorem promised : Promised path disk replacement := by
  have hne := append_suffixPrevious_ne path
  cases hfile : disk path with
  | none =>
      unfold Promised
      simp [replaceAppImage, hfile, Kept]
  | some file =>
      cases hstale : disk (path ++ suffixPrevious) with
      | none => exact promised_of_clear hfile hstale
      | some stale =>
          cases hdone : replacement.answers.deleteStale with
          | failed error left =>
              unfold Promised
              simp [replaceAppImage, hfile, hstale, hdone, Kept]
          | done =>
              have hcleared : Function.update disk
                  (path ++ suffixPrevious) none path = some file := by
                simp [hne.symm, hfile]
              have hpromised : Promised path
                  (Function.update disk (path ++ suffixPrevious) none)
                  replacement :=
                promised_of_clear hcleared (by simp)
              unfold Promised
              rw [ensures_replaceAppImage_of_stale hfile (by simp [hstale])
                hdone]
              apply Ensures.imp hpromised
              · intro outcome after hafter
                exact hafter
              · intro failure after hafter
                simpa [slips, hfile, hstale, hdone, Kept, LeftUnmarked,
                  hne.symm] using hafter

end

/-! ### Attempts one after the other -/

/-- A replacement on the disk the ones before it have left. -/
def replaceStep (path : Text) (disk : Disk Text StoredFile)
    (replacement : Replacement) : Option (Disk Text StoredFile) :=
  some (leftBy (replaceAppImage path replacement) disk)

/-- Whichever attempts went before and however they ended. -/
theorem promised_in_every_attempt (path : Text)
    (start : Disk Text StoredFile) (attempts : List Replacement) :
    EveryStep (replaceStep path) start (Promised path) attempts := by
  intro before replacement after disk hattempts hbefore
  exact promised

/-- All or nothing, as it would be without exception. -/
def AllOrNothing (path : Text) (disk : Disk Text StoredFile)
    (replacement : Replacement) : Prop :=
  Ensures (replaceAppImage path replacement) disk
    (fun _ after => after path = some ⟨replacement.bytes, true⟩)
    (fun _ after => Kept path disk after)

def sampleDisk : Disk Text StoredFile := fun path =>
  if path = text "/opt/App.AppImage" then some ⟨[1], true⟩ else none

/-- Everything goes well but the mode. -/
def unmarked : Replacement where
  bytes := [2]
  answers :=
    { deleteStale := .done
      setAside := .done
      write := .done
      putBack := .done
      chmod := ⟨some 1, false, by decide⟩
      deleteBackup := .done }

theorem not_allOrNothing_unmarked :
    ¬ AllOrNothing (text "/opt/App.AppImage") sampleDisk unmarked := by
  have hne := append_suffixPrevious_ne (text "/opt/App.AppImage")
  intro hall
  simp [AllOrNothing, replaceAppImage, sampleDisk, hne, unmarked, Kept]
    at hall

/-- Without a slip an attempt leaves the build that was there, or its own. -/
theorem whole_after_attempt {path : Text} {disk : Disk Text StoredFile}
    {replacement : Replacement} {file : StoredFile}
    (hfile : disk path = some file)
    (hclean : slips path disk replacement = false) :
    ∃ now, leftBy (replaceAppImage path replacement) disk path = some now ∧
      (now.bytes = file.bytes ∨ now.bytes = replacement.bytes) := by
  have hpromised : Promised path disk replacement := promised
  refine hpromised.leftBy (P := fun after => ∃ now, after path = some now ∧
    (now.bytes = file.bytes ∨ now.bytes = replacement.bytes)) ?_ ?_
  · intro outcome after hafter
    exact ⟨_, hafter, .inr rfl⟩
  · intro failure after hafter
    rcases hafter hclean with hkept | ⟨-, hunmarked, -⟩
    · obtain ⟨now, hnow, hbytes, -⟩ := hkept file hfile
      exact ⟨now, hnow, .inl hbytes⟩
    · exact ⟨_, hunmarked, .inr rfl⟩

/-- Without a slip the path holds a whole build after every attempt: the one
of the start or that of an attempt. -/
theorem whole_after_attempts {path : Text} {start disk : Disk Text StoredFile}
    {attempts : List Replacement} {file : StoredFile}
    (hfile : start path = some file)
    (hclean : EveryStep (replaceStep path) start
      (fun disk replacement => slips path disk replacement = false) attempts)
    (hrun : run (replaceStep path) start attempts = some disk) :
    ∃ now, disk path = some now ∧
      (now.bytes = file.bytes ∨
        ∃ replacement ∈ attempts, now.bytes = replacement.bytes) := by
  induction attempts using List.reverseRecOn generalizing disk with
  | nil =>
      cases hrun
      exact ⟨file, hfile, .inl rfl⟩
  | append_singleton attempts last ih =>
      obtain ⟨previous, hprevious, hlast⟩ := run_concat.mp hrun
      obtain ⟨hclean, hslips⟩ := (everyStep_concat hprevious).mp hclean
      obtain ⟨held, hheld, hwhole⟩ := ih hclean hprevious
      obtain ⟨now, hnow, hbytes⟩ := whole_after_attempt hheld hslips
      obtain rfl := Option.some.inj hlast
      refine ⟨now, hnow, ?_⟩
      rcases hbytes with hsame | hnew
      · rcases hwhole with hstart | ⟨earlier, hmem, hearlier⟩
        · exact .inl (hsame.trans hstart)
        · exact .inr ⟨earlier, by simp [hmem], hsame.trans hearlier⟩
      · exact .inr ⟨last, by simp, hnew⟩

end LinuxInstaller

/-! ## The bundle -/

/-- Where a bundle can stand: at the installed path, beside it under the
suffix, and in the scratch directory. -/
inductive Place where
  | bundle
  | previous
  | incoming
  deriving DecidableEq

/-- An entry of the scratch directory after the extraction. -/
inductive ScratchEntry (Bundle : Type) where
  | file (name : Text)
  | directory (name : Text) (content : Bundle)

structure ProcessOutcome where
  exitCode : Int
  stderr : Text

def ProcessOutcome.succeeded (outcome : ProcessOutcome) : Bool :=
  outcome.exitCode == 0

/-- How far the shell line with administrator rights came.  It removes the
bundle and, when that went well, moves the new one there. -/
inductive SwapProgress (Bundle : Type) where
  | untouched
  | removing (left : Option Bundle)
  | moving (left : Option Bundle)
  | swapped

/-- The exit code of the shell line, when the runner returned one: it is zero
only after both commands. -/
structure Elevated (Bundle : Type) where
  exitCode : Option Int
  progress : SwapProgress Bundle
  honest : exitCode = some 0 → progress = .swapped

structure SwapAnswers (Bundle : Type) where
  createScratch : Answer FileSystemException Unit
  writeArchive : Answer FileSystemException Unit
  tar : Option ProcessOutcome
  listScratch : Answer FileSystemException Unit
  extracted : List (ScratchEntry Bundle)
  clearStale : Answer FileSystemException (Option Bundle)
  setAside : Answer FileSystemException Unit
  moveIn : Answer FileSystemException Unit
  putBack : Answer FileSystemException Unit
  elevated : Elevated Bundle
  touch : Option ProcessOutcome
  clearBackup : Answer FileSystemException (Option Bundle)
  clearScratch : Answer FileSystemException Unit

namespace MacosInstaller

variable {Bundle : Type}

def dot : UInt16 := 46

/-- The extension of a name: from its last dot on, unless the name begins
with that dot. -/
def extension (name : Text) : Text :=
  let behind := (name.reverse.takeWhile (· != dot)).reverse
  if name.length ≤ behind.length + 1 then [] else dot :: behind

def findBundle : List (ScratchEntry Bundle) → Option Bundle
  | [] => none
  | .file _ :: rest => findBundle rest
  | .directory name content :: rest =>
      if extension name == text ".app" then some content else findBundle rest

def nothingToReplace (bundlePath : Text) : UpdateFailure where
  message := text "there is no bundle at " ++ bundlePath ++
    text " to replace."
  remedy := none

def notExtracted (outcome : ProcessOutcome) : UpdateFailure where
  message := text "could not extract the update archive."
  remedy := some (trim outcome.stderr)

def noBundle : UpdateFailure where
  message := text "the archive carries no .app bundle."
  remedy := some (text "Nothing was replaced.")

def swapRefused : UpdateFailure where
  message := text "the privileged swap was refused."
  remedy := some (text "The installed application was left untouched.")

/-- What the shell line leaves of its own. -/
def swap : SwapProgress Bundle →
    Attempt Place Bundle InstallFailure Unit
  | .untouched => pure ()
  | .removing left => put .bundle left
  | .moving left => put .bundle left
  | .swapped => do
      let disk ← get
      put .incoming none
      put .bundle (disk .incoming)

def swapWithAdministrator (answers : SwapAnswers Bundle) :
    Attempt Place Bundle InstallFailure Unit := do
  if (← holds .previous) && !(← holds .bundle) then
    rename .fileSystem .previous .bundle answers.putBack
  swap answers.elevated.progress
  match answers.elevated.exitCode with
  | none => throw .runner
  | some code =>
      unless code == 0 do
        throw (.update swapRefused)

/-- What `run` returns; without an outcome the runner throws. -/
def ran (outcome : Option ProcessOutcome) :
    Attempt Place Bundle InstallFailure ProcessOutcome :=
  match outcome with
  | none => throw .runner
  | some outcome => pure outcome

/-- The bundle and the extracted one change places. -/
def swapIn (answers : SwapAnswers Bundle) :
    Attempt Place Bundle InstallFailure Unit :=
  tryCatch
    (do
      rename .fileSystem .bundle .previous answers.setAside
      rename .fileSystem .incoming .bundle answers.moveIn)
    fun failure =>
      match failure with
      | .fileSystem _ => swapWithAdministrator answers
      | other => throw other

/-- What is left to do once the bundle has been swapped. -/
def cleanUp (answers : SwapAnswers Bundle) :
    Attempt Place Bundle InstallFailure Unit := do
  let _ ← ran answers.touch
  if ← holds .previous then
    replace .fileSystem .previous none answers.clearBackup
  perform .fileSystem answers.clearScratch

/-- The bundle the archive carries. -/
def extract (bundlePath : Text) (answers : SwapAnswers Bundle) :
    Attempt Place Bundle InstallFailure Bundle := do
  unless ← holds .bundle do
    throw (.update (nothingToReplace bundlePath))
  perform .fileSystem answers.createScratch
  perform .fileSystem answers.writeArchive
  let extracted ← ran answers.tar
  unless extracted.succeeded do
    perform .fileSystem answers.clearScratch
    throw (.update (notExtracted extracted))
  perform .fileSystem answers.listScratch
  match findBundle answers.extracted with
  | none => do
      perform .fileSystem answers.clearScratch
      throw (.update noBundle)
  | some incoming => return incoming

def install (bundlePath : Text) (answers : SwapAnswers Bundle) :
    Attempt Place Bundle InstallFailure InstallOutcome := do
  let incoming ← extract bundlePath answers
  put .incoming (some incoming)
  if ← holds .previous then
    replace .fileSystem .previous none answers.clearStale
  swapIn answers
  cleanUp answers
  return .installedRestartNeeded

/-- All or nothing: the new bundle after a return, the old one after a
throw. -/
def AllOrNothing (bundlePath : Text) (disk : Disk Place Bundle)
    (answers : SwapAnswers Bundle) : Prop :=
  Ensures (install bundlePath answers) disk
    (fun _ after => after .bundle = findBundle answers.extracted ∧
      (findBundle answers.extracted).isSome)
    (fun _ after => ∀ old, disk .bundle = some old →
      after .bundle = some old)

/-! ### When it is all or nothing -/

/-- The archive is extracted. -/
def extracts (answers : SwapAnswers Bundle) : Bool :=
  answers.createScratch.isDone && answers.writeArchive.isDone &&
    answers.tar.any ProcessOutcome.succeeded && answers.listScratch.isDone

/-- The steps before the swap go well. -/
def reachesSwap (disk : Disk Place Bundle) (answers : SwapAnswers Bundle) :
    Bool :=
  extracts answers &&
    (!(disk .previous).isSome || answers.clearStale.isDone)

/-- The swap by renaming goes well. -/
def renames (answers : SwapAnswers Bundle) : Bool :=
  answers.setAside.isDone && answers.moveIn.isDone

/-- The steps after the swap go well. -/
def tidies (answers : SwapAnswers Bundle) : Bool :=
  answers.touch.isSome && answers.clearScratch.isDone &&
    (!renames answers || answers.clearBackup.isDone)

/-- The shell line leaves this bundle where it was. -/
def Leaves (old incoming : Bundle) : SwapProgress Bundle → Prop
  | .untouched => True
  | .removing left => left = some old
  | .moving left => left = some old
  | .swapped => incoming = old

/-- The swap either goes through to the end or leaves the old bundle in its
place; where both bundles are the same it need not go to the end. -/
def Settles (answers : SwapAnswers Bundle) (old incoming : Bundle) : Prop :=
  if renames answers ∨ answers.elevated.exitCode = some 0 then
    (renames answers ∨ !answers.setAside.isDone ∨ answers.putBack.isDone) ∧
      (tidies answers ∨ incoming = old)
  else
    (!answers.setAside.isDone ∨ answers.putBack.isDone) ∧
      Leaves old incoming answers.elevated.progress

section

variable {disk : Disk Place Bundle} {answers : SwapAnswers Bundle}
  {old incoming : Bundle} {thrown : InstallFailure → Disk Place Bundle → Prop}

@[simp] theorem ensures_ran {outcome : Option ProcessOutcome}
    {returned : ProcessOutcome → Disk Place Bundle → Prop} :
    Ensures (ran outcome) disk returned thrown ↔
      (∀ found, outcome = some found → returned found disk) ∧
        (outcome = none → thrown .runner disk) := by
  cases outcome <;> simp [ran]

/-- After the swap the old bundle is gone, so a step that throws breaks the
rule unless both bundles are the same. -/
theorem ensures_cleanUp_iff (hbundle : disk .bundle = some incoming) :
    Ensures (cleanUp answers) disk
        (fun _ after => after .bundle = some incoming)
        (fun _ after => after .bundle = some old) ↔
      (answers.touch.isSome ∧ answers.clearScratch.isDone ∧
        (disk .previous = none ∨ answers.clearBackup.isDone)) ∨
          incoming = old := by
  cases htouch : answers.touch with
  | none => simp [cleanUp, htouch, hbundle]
  | some outcome =>
      cases hprevious : disk .previous with
      | none =>
          cases hscratch : answers.clearScratch <;>
            simp [cleanUp, htouch, hprevious, hscratch, hbundle]
      | some backup =>
          cases hclear : answers.clearBackup <;>
            cases hscratch : answers.clearScratch <;>
              simp [cleanUp, htouch, hprevious, hclear, hscratch, hbundle]

/-- The shell line, asked with the old bundle in its place. -/
theorem ensures_swapWithAdministrator
    {returned : Unit → Disk Place Bundle → Prop}
    (hbundle : disk .bundle = some old)
    (hincoming : disk .incoming = some incoming)
    (hprevious : disk .previous = none) :
    Ensures (swapWithAdministrator answers) disk returned
        (fun _ after => after .bundle = some old) ↔
      if answers.elevated.exitCode = some 0 then
        returned () (Function.update (Function.update disk .incoming none)
          .bundle (some incoming))
      else Leaves old incoming answers.elevated.progress := by
  unfold swapWithAdministrator
  rcases answers.elevated with ⟨exitCode, progress, honest⟩
  cases exitCode with
  | none =>
      cases progress <;>
        simp [swap, hbundle, hprevious, hincoming, Leaves]
  | some code =>
      by_cases hzero : code = 0
      · subst hzero
        obtain rfl : progress = .swapped := honest rfl
        simp [swap, hbundle, hprevious, hincoming]
      · cases progress <;>
          simp [swap, hbundle, hprevious, hincoming, Leaves, hzero]

/-- The shell line, asked with the old bundle set aside: it has to be put
back first. -/
theorem ensures_swapWithAdministrator_of_aside
    {returned : Unit → Disk Place Bundle → Prop}
    (hbundle : disk .bundle = none)
    (hincoming : disk .incoming = some incoming)
    (hprevious : disk .previous = some old) :
    Ensures (swapWithAdministrator answers) disk returned
        (fun _ after => after .bundle = some old) ↔
      answers.putBack.isDone ∧
        if answers.elevated.exitCode = some 0 then
          returned () (Function.update (Function.update (Function.update
            (Function.update disk .previous none) .bundle (some old))
              .incoming none) .bundle (some incoming))
        else Leaves old incoming answers.elevated.progress := by
  cases hback : answers.putBack with
  | failed error left =>
      simp [swapWithAdministrator, hback, hbundle, hprevious]
  | done =>
      let restored : Disk Place Bundle :=
        Function.update (Function.update disk .previous none) .bundle
          (some old)
      have hold : restored .bundle = some old := by simp [restored]
      have hnew : restored .incoming = some incoming := by
        simp [restored, hincoming]
      have hnone : restored .previous = none := by simp [restored]
      rw [← ensures_swapWithAdministrator hold hnew hnone]
      simp [swapWithAdministrator, hback, hbundle, hprevious, restored]

/-- The swap and what follows it, on a disk with both bundles and no
backup. -/
theorem ensures_swapIn_cleanUp_iff (hbundle : disk .bundle = some old)
    (hincoming : disk .incoming = some incoming)
    (hprevious : disk .previous = none) :
    Ensures (swapIn answers) disk
        (fun _ after => Ensures (cleanUp answers) after
          (fun _ after => after .bundle = some incoming)
          (fun _ after => after .bundle = some old))
        (fun _ after => after .bundle = some old) ↔
      Settles answers old incoming := by
  cases haside : answers.setAside with
  | failed error left =>
      simp only [swapIn, haside, ensures_tryCatch, ensures_bind,
        ensures_rename, Answer.split_failed]
      rw [ensures_swapWithAdministrator hbundle hincoming hprevious,
        ensures_cleanUp_iff (by simp)]
      simp [Settles, renames, tidies, haside, hprevious]
  | done =>
      cases hin : answers.moveIn with
      | failed error left =>
          simp only [swapIn, haside, hin, ensures_tryCatch, ensures_bind,
            ensures_rename, Answer.split_failed, Answer.split_done]
          have hmoved : Function.update (Function.update disk .bundle none)
              .previous (disk .bundle) .incoming = some incoming := by
            simp [hincoming]
          rw [ensures_swapWithAdministrator_of_aside (by simp) hmoved
            (by simp [hbundle]), ensures_cleanUp_iff (by simp)]
          by_cases hcode : answers.elevated.exitCode = some 0 <;>
            simp [Settles, renames, tidies, haside, hin, hcode]
      | done =>
          simp only [swapIn, haside, hin, ensures_tryCatch, ensures_bind,
            ensures_rename, Answer.split_done]
          rw [ensures_cleanUp_iff (by simp [hincoming])]
          simp [Settles, renames, tidies, haside, hin, hbundle, and_assoc]

theorem ensures_extract_iff {bundlePath : Text}
    {returned : Bundle → Disk Place Bundle → Prop}
    (hbundle : disk .bundle = some old) :
    Ensures (extract bundlePath answers) disk returned
        (fun _ after => after .bundle = some old) ↔
      ∀ incoming, extracts answers = true →
        findBundle answers.extracted = some incoming →
          returned incoming disk := by
  unfold extracts extract
  cases answers.createScratch with
  | failed error left => simp [hbundle]
  | done =>
      cases answers.writeArchive with
      | failed error left => simp [hbundle]
      | done =>
          cases answers.tar with
          | none => simp [hbundle]
          | some outcome =>
              cases hsucceeded : outcome.succeeded with
              | false =>
                  cases answers.clearScratch <;> simp [hbundle, hsucceeded]
              | true =>
                  cases answers.listScratch with
                  | failed error left => simp [hbundle, hsucceeded]
                  | done =>
                      cases findBundle answers.extracted with
                      | some incoming => simp [hbundle, hsucceeded]
                      | none =>
                          cases answers.clearScratch <;>
                            simp [hbundle, hsucceeded]

theorem ensures_install_iff {bundlePath : Text}
    (hbundle : disk .bundle = some old) :
    Ensures (install bundlePath answers) disk
        (fun _ after => after .bundle = findBundle answers.extracted ∧
          (findBundle answers.extracted).isSome)
        (fun _ after => after .bundle = some old) ↔
      ∀ incoming, findBundle answers.extracted = some incoming →
        reachesSwap disk answers = true → Settles answers old incoming := by
  unfold install
  rw [ensures_bind, ensures_extract_iff hbundle]
  apply forall_congr'
  intro incoming
  cases hextracts : extracts answers with
  | false => simp [reachesSwap, hextracts]
  | true =>
      rw [forall_prop_of_true rfl]
      apply imp_congr_right
      intro hfound
      let ready : Disk Place Bundle :=
        Function.update disk .incoming (some incoming)
      have hold : ready .bundle = some old := by simp [ready, hbundle]
      have hnew : ready .incoming = some incoming := by simp [ready]
      cases hprevious : disk .previous with
      | none =>
          have hnone : ready .previous = none := by simp [ready, hprevious]
          have hswap : Ensures (swapIn answers) ready _ _ ↔
            Settles answers old incoming :=
              ensures_swapIn_cleanUp_iff hold hnew hnone
          simpa [hfound, hprevious, reachesSwap, hextracts] using hswap
      | some stale =>
          let cleared : Disk Place Bundle :=
            Function.update ready .previous none
          have hswap : Ensures (swapIn answers) cleared _ _ ↔
            Settles answers old incoming :=
              ensures_swapIn_cleanUp_iff (by simp [cleared, hold])
                (by simp [cleared, hnew]) (by simp [cleared])
          cases hstale : answers.clearStale with
          | failed error left =>
              simp [hprevious, reachesSwap, hextracts, hstale, hbundle]
          | done =>
              simpa [hfound, hprevious, reachesSwap, hextracts, hstale] using
                hswap

theorem ensures_install_of_none {bundlePath : Text}
    (hnone : disk .bundle = none) :
    Ensures (install bundlePath answers) disk (fun _ _ => False)
      (fun failure after =>
        failure = .update (nothingToReplace bundlePath) ∧ after = disk) := by
  simp [install, extract, hnone]

end

/-- An installed bundle, by what its version file says, and a new one that
can only be moved in with administrator rights; the shell line removes the
installed one and cannot move the new one. -/
def installedOnly : Disk Place Text
  | .bundle => some (text "1.0.0")
  | _ => none

def removedNotMoved : SwapAnswers Text where
  createScratch := .done
  writeArchive := .done
  tar := some ⟨0, []⟩
  listScratch := .done
  extracted := [.file (text "update.tar.gz"),
    .directory (text "App.app") (text "2.0.0")]
  clearStale := .done
  setAside := .failed ⟨text "Rename failed", none⟩ ()
  moveIn := .done
  putBack := .done
  elevated := ⟨some 1, .moving none, by simp⟩
  touch := some ⟨0, []⟩
  clearBackup := .done
  clearScratch := .done

end MacosInstaller

end Dovetail.Updater
