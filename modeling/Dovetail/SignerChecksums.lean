import Dovetail.SignerPolicy
import Dovetail.UpdaterManifest

/-!
# The checksums of a directory

`ChecksumWriter.write` names the files it is given in one `SHA256SUMS` of
their directory, and replaces the one that is there.
-/

namespace Dovetail.Signer

open CodeUnits

/-- What is used of the packages, and the line `shasum` prints for a file
in the directory it runs in. -/
structure ChecksumTools where
  whole : Text → Text
  dirname : Text → Text
  basename : Text → Text
  join : Text → Text → Text
  shasum : Text → Text

/-- What is written, and for which files. -/
structure Checksums where
  files : List Text
  content : Text
  destination : Text
  deriving DecidableEq

namespace ChecksumWriter

def fileName : Text := text "SHA256SUMS"

variable (tools : ChecksumTools)

def foreign (files : List Text) (outputDirectory : Text) : List Text :=
  files.filter fun file =>
    tools.dirname (tools.whole file) ≠ tools.whole outputDirectory

def checkFiles (onDisk : Text → Bool) (seen : List Text) :
    List Text → Except SigningFailure Unit
  | [] => .ok ()
  | file :: others =>
      if !onDisk file then
        .error
          { message := text "there is no artefact at " ++ file ++
              text " to checksum."
            remedy := some (text "A checksum of a file that does not exist verifies nothing.") }
      else if tools.basename file ∈ seen then
        .error
          { message := tools.basename file ++ text " is listed twice."
            remedy := some (text "shasum -c would check the same file twice and miss another.") }
      else checkFiles onDisk (seen ++ [tools.basename file]) others

def write (onDisk : Text → Bool) (files : List Text)
    (outputDirectory : Text) : Except SigningFailure Checksums := do
  if files.isEmpty then
    throw
      { message := text "no artefact was given to checksum."
        remedy := none }
  let outside := foreign tools files outputDirectory
  if !outside.isEmpty then
    throw
      { message := text (toString outside.length) ++
          text " artefact(s) live outside " ++ outputDirectory ++ text ": " ++
          Updater.join (text ", ") (outside.map tools.basename) ++ text "."
        remedy := some (text "Every line in " ++ fileName ++
          text " names a file relative to the directory the file sits in. Mixing directories writes a " ++
          fileName ++
          text " that shasum -c cannot resolve, and nothing notices until a user checks the download.") }
  checkFiles tools onDisk [] files
  return {
    files
    content := files.flatMap fun file => tools.shasum (tools.basename file)
    destination := tools.join (tools.whole outputDirectory) fileName }

variable {tools}

theorem files_of_write_eq_ok {onDisk : Text → Bool} {files : List Text}
    {outputDirectory : Text} {sums : Checksums}
    (hsums : write tools onDisk files outputDirectory = .ok sums) :
    sums.files = files ∧ ∀ file ∈ files,
      tools.dirname (tools.whole file) = tools.whole outputDirectory := by
  unfold write at hsums
  dsimp only at hsums
  split at hsums
  · cases hsums
  · split at hsums
    · cases hsums
    · next hinside =>
        have hnone : foreign tools files outputDirectory = [] := by
          simpa using hinside
        cases hcheck : checkFiles tools onDisk [] files with
        | error failure =>
            rw [hcheck] at hsums
            cases hsums
        | ok checked =>
            rw [hcheck] at hsums
            cases hsums
            constructor
            · rfl
            · intro file hfile
              by_contra hforeign
              have hmem : file ∈ foreign tools files outputDirectory :=
                List.mem_filter.mpr ⟨hfile, decide_eq_true hforeign⟩
              rw [hnone] at hmem
              simp at hmem

/-- A file of the directory that is there. -/
theorem write_singleton {onDisk : Text → Bool} {file outputDirectory : Text}
    (hthere : onDisk file = true)
    (hinside : tools.dirname (tools.whole file) =
      tools.whole outputDirectory) :
    ∃ sums, write tools onDisk [file] outputDirectory = .ok sums ∧
      sums.files = [file] := by
  have hforeign : foreign tools [file] outputDirectory = [] := by
    simp [foreign, hinside]
  have hcheck : checkFiles tools onDisk [] [file] = .ok () := by
    simp [checkFiles, hthere]
  have hwrite : write tools onDisk [file] outputDirectory = .ok {
      files := [file]
      content := tools.shasum (tools.basename file) ++ []
      destination := tools.join (tools.whole outputDirectory) fileName } := by
    unfold write
    rw [hforeign, hcheck]
    rfl
  exact ⟨_, hwrite, rfl⟩

end ChecksumWriter

end Dovetail.Signer
