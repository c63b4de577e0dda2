import Dovetail.ArgumentVectors
import Dovetail.MsiSources
import Dovetail.XmlText

/-!
# The command line of a privileged step

`MsiPrivilegedStep.commandLine` puts quotes around the arguments with a blank
and leaves the others as they are, so an argument that is empty or has a
quote in it does not arrive, nor one with a blank that ends in a backslash.
Tabs and the ends of lines stand in the source as they are, where a processor
reads blanks.
-/

namespace Dovetail.Bundler.MsiPrivilegedStep

open ArgumentVectors CodeUnits MarkupText XmlValues

/-! ## Arriving -/

/-- What the custom action runs: the file of the step and its command
line. -/
def processCommandLine (file commandLine : Text) : Text :=
  text "\"" ++ file ++ text "\"" ++ text " " ++ commandLine

/-- The source carries the command line unchanged, and the file of the step
is called with the arguments of the step. -/
structure Arrives (step : MsiPrivilegedStep) (host : MsiComponent) :
    Prop where
  written : ((WixSource.customAction step host).element?.bind
      (·.value? "ExeCommand")).bind (readValue .quoted) =
    some step.commandLine
  split : ∀ file, ArgumentVectors.quote ∉ file →
    commandLineToArgv (processCommandLine file step.commandLine) =
      file :: step.arguments

/-- An argument that is taken apart again as it was put there. -/
structure Carried (argument : Text) : Prop where
  filled : argument ≠ []
  unquoted : ArgumentVectors.quote ∉ argument
  closed : ArgumentVectors.blank ∈ argument →
    argument.getLast? ≠ some ArgumentVectors.backslash
  legal : legal argument = true
  spaced : Place.quoted.Keeps argument

/-! ## The words -/

/-- What is behind the first word. -/
def following : List Text → Text
  | [] => []
  | argument :: rest =>
      ArgumentVectors.blank :: (quote argument ++ following rest)

theorem join_quoted (argument : Text) (rest : List Text) :
    Updater.join (text " ") ((argument :: rest).map quote) =
      quote argument ++ following rest := by
  induction rest generalizing argument with
  | nil => simp [Updater.join, following]
  | cons next rest ih =>
      rw [List.map_cons, List.map_cons, Updater.join, ← List.map_cons, ih]
      · rw [following, List.append_assoc]
        rfl
      · simp

theorem quote_eq (argument : Text) :
    quote argument = if ArgumentVectors.blank ∈ argument then
      ArgumentVectors.quote :: (argument ++ [ArgumentVectors.quote])
    else argument := by
  change (if ArgumentVectors.blank ∈ argument then
    text "\"" ++ argument ++ text "\"" else argument) = _
  split_ifs <;> rfl

theorem mem_quote {argument : Text} {unit : UInt16} :
    unit ∈ quote argument ↔ unit ∈ argument ∨
      (ArgumentVectors.blank ∈ argument ∧ unit = ArgumentVectors.quote) := by
  rw [quote_eq]
  split_ifs with hblank
  · simp only [List.mem_cons, List.mem_append, List.not_mem_nil, or_false,
      hblank, true_and]
    tauto
  · simp [hblank]

theorem count_quote (argument : Text) :
    (quote argument).count ArgumentVectors.backslash =
      argument.count ArgumentVectors.backslash := by
  rw [quote_eq]
  split_ifs
  · simp [ArgumentVectors.quote, ArgumentVectors.backslash]
  · rfl

theorem count_following (arguments : List Text) :
    (following arguments).count ArgumentVectors.backslash =
      arguments.flatten.count ArgumentVectors.backslash := by
  induction arguments with
  | nil => rfl
  | cons argument rest ih =>
      have hdifferent : ArgumentVectors.blank ≠ ArgumentVectors.backslash := by
        decide
      rw [following, List.count_cons_of_ne hdifferent, List.count_append, ih,
        count_quote, List.flatten_cons, List.count_append]

variable {step : MsiPrivilegedStep}

/-- The arguments behind a first blank. -/
theorem arguments_run (file : Text) (hfile : ArgumentVectors.quote ∉ file) :
    commandLineToArgv (processCommandLine file step.commandLine) =
      file :: (Reading.start.run (following step.arguments)).arguments := by
  have hshape : processCommandLine file step.commandLine =
      ArgumentVectors.quote :: (file ++ ArgumentVectors.quote ::
        (ArgumentVectors.blank :: step.commandLine)) := by
    have hquote : text "\"" = [ArgumentVectors.quote] := rfl
    have hblank : text " " = [ArgumentVectors.blank] := rfl
    simp [processCommandLine, hquote, hblank]
  rw [commandLineToArgv, hshape, programName_quoted hfile]
  unfold commandLine
  cases harguments : step.arguments with
  | nil => rfl
  | cons argument rest =>
      rw [join_quoted]
      rfl

theorem following_append (before after : List Text) :
    following (before ++ after) = following before ++ following after := by
  induction before with
  | nil => rfl
  | cons argument rest ih =>
      rw [List.cons_append, following, following, ih]
      simp

/-! ## Taken apart -/

/-- Where only empty arguments are left to go wrong, they are skipped. -/
theorem ends_run_following {arguments before : List Text} {reading : Reading}
    (hends : reading.Ends before)
    (hunquoted : ∀ argument ∈ arguments, ArgumentVectors.quote ∉ argument)
    (hclosed : ∀ argument ∈ arguments, ArgumentVectors.blank ∈ argument →
      argument.getLast? ≠ some ArgumentVectors.backslash)
    (htab : ∀ argument ∈ arguments, ArgumentVectors.tab ∉ argument) :
    (reading.run (following arguments)).Ends
      (before ++ arguments.filter (· ≠ [])) := by
  induction arguments generalizing before reading with
  | nil => simpa [following] using hends
  | cons argument rest ih =>
      have hquote := hunquoted argument (by simp)
      have hlast := hclosed argument (by simp)
      have hplain := htab argument (by simp)
      have hrest {reached : Reading} {done : List Text}
          (hreached : reached.Ends done) :=
        ih hreached (fun other hother => hunquoted other (by simp [hother]))
          (fun other hother => hclosed other (by simp [hother]))
          (fun other hother => htab other (by simp [hother]))
      rw [following, Reading.run_cons, hends.step_blank, Reading.run_append]
      by_cases hempty : argument = []
      · rw [hempty, quote_eq, if_neg (by simp), Reading.run_nil,
          List.filter_cons_of_neg (by simp)]
        exact hrest (Reading.ends_between before)
      · rw [List.filter_cons_of_pos (by simpa using hempty),
          List.append_cons before argument]
        apply hrest
        rw [quote_eq]
        split_ifs with hblank
        · exact Reading.ends_run_quoted before hquote hempty (hlast hblank)
        · apply Reading.ends_run_plain before hquote hempty
          intro unit hunit
          rw [isBlank, Bool.or_eq_false_iff, beq_eq_false_iff_ne,
            beq_eq_false_iff_ne]
          constructor
          · rintro rfl
            exact hblank hunit
          · rintro rfl
            exact hplain hunit

section

variable {arguments : List Text}
  (hsplit : (Reading.start.run (following arguments)).arguments = arguments)
include hsplit

theorem quote_not_mem_of_split :
    ∀ argument ∈ arguments, ArgumentVectors.quote ∉ argument := by
  have hcount : (Reading.start.run (following arguments)).count
      ArgumentVectors.backslash =
        Reading.start.count ArgumentVectors.backslash +
          (following arguments).count ArgumentVectors.backslash := by
    have hstart : Reading.start.count ArgumentVectors.backslash = 0 := rfl
    rw [Reading.count, hsplit, count_following, hstart, Nat.zero_add]
  have hnone := Reading.count_quote_run (Reading.sound_between []) hcount
  have hzero : arguments.flatten.count ArgumentVectors.quote = 0 := by
    rw [← hsplit]
    exact hnone
  intro argument hargument hquote
  apply List.count_eq_zero.mp hzero
  exact List.mem_flatten.mpr ⟨argument, hargument, hquote⟩

theorem closed_of_split :
    ∀ argument ∈ arguments, ArgumentVectors.blank ∈ argument →
      argument.getLast? ≠ some ArgumentVectors.backslash := by
  intro argument hargument hblank hslash
  rcases List.append_of_mem hargument with ⟨before, after, hparts⟩
  rcases List.getLast?_eq_some_iff.mp hslash with ⟨opening, hopening⟩
  have hshape : following arguments =
      (following before ++ ArgumentVectors.blank ::
        ArgumentVectors.quote :: opening) ++
        ArgumentVectors.backslash :: ArgumentVectors.quote ::
          following after := by
    rw [hparts, following_append, following, quote_eq, if_pos hblank,
      hopening]
    simp
  have hless := Reading.count_run_lt (Reading.sound_between [])
    (following before ++ ArgumentVectors.blank ::
      ArgumentVectors.quote :: opening) (following after)
  rw [← hshape, count_following] at hless
  have hstart : (Reading.between []).count ArgumentVectors.backslash = 0 := rfl
  have hsame : ((Reading.between []).run (following arguments)).count
      ArgumentVectors.backslash =
        arguments.flatten.count ArgumentVectors.backslash := by
    rw [Reading.count]
    exact congrArg (·.flatten.count ArgumentVectors.backslash) hsplit
  omega

end

/-! ## Written down -/

theorem legal_following_append (arguments : List Text) (rest : Text)
    (hrest : ∀ unit ∈ rest.head?, isSurrogate unit = false) :
    legal (following arguments ++ rest) = true ↔
      (∀ argument ∈ arguments, legal argument = true) ∧
        legal rest = true := by
  induction arguments with
  | nil => simp [following]
  | cons argument others ih =>
      have hblank : isChar ArgumentVectors.blank = true := rfl
      have hmark : isChar ArgumentVectors.quote = true := rfl
      have hhead : ∀ unit ∈ (following others ++ rest).head?,
          isSurrogate unit = false := by
        cases others with
        | nil => exact hrest
        | cons other others =>
            intro unit hunit
            cases hunit
            rfl
      have hparts : legal (argument ++ (following others ++ rest)) =
          (legal argument && legal (following others ++ rest)) := by
        cases hothers : following others ++ rest with
        | nil => simp [legal, wellFormed]
        | cons unit units =>
            apply legal_append_cons
            apply hhead
            rw [hothers]
            rfl
      rw [following, List.cons_append, legal_cons (by decide), hblank,
        Bool.true_and, quote_eq, List.forall_mem_cons, and_assoc, ← ih,
        ← Bool.and_eq_true]
      split_ifs
      · simp only [List.cons_append, List.append_assoc, List.nil_append]
        rw [legal_cons (by decide), hmark, Bool.true_and,
          legal_append_cons _ (by decide), legal_cons (by decide), hmark,
          Bool.true_and]
      · rw [List.append_assoc, hparts]

theorem legal_commandLine (step : MsiPrivilegedStep) :
    legal step.commandLine = true ↔
      ∀ argument ∈ step.arguments, legal argument = true := by
  unfold commandLine
  cases harguments : step.arguments with
  | nil => simp [Updater.join, legal, wellFormed]
  | cons argument rest =>
      have hall := legal_following_append (argument :: rest) [] (by simp)
      have hblank : isChar ArgumentVectors.blank = true := rfl
      have hempty : legal [] = true := rfl
      rw [List.append_nil, following, legal_cons (by decide), hblank,
        Bool.true_and, hempty] at hall
      rw [join_quoted, hall]
      exact and_iff_left rfl

theorem mem_commandLine {step : MsiPrivilegedStep} {unit : UInt16}
    (hblank : unit ≠ ArgumentVectors.blank)
    (hquote : unit ≠ ArgumentVectors.quote) :
    unit ∈ step.commandLine ↔ ∃ argument ∈ step.arguments, unit ∈ argument := by
  have hfollowing : ∀ arguments : List Text, unit ∈ following arguments ↔
      ∃ argument ∈ arguments, unit ∈ argument := by
    intro arguments
    induction arguments with
    | nil => simp [following]
    | cons argument rest ih =>
        simp [following, mem_quote, hblank, hquote, ih]
  unfold commandLine
  cases harguments : step.arguments with
  | nil => simp [Updater.join]
  | cons argument rest =>
      rw [join_quoted, List.mem_append, hfollowing, mem_quote]
      simp [hquote]

theorem keeps_commandLine (step : MsiPrivilegedStep) :
    Place.quoted.Keeps step.commandLine ↔
      ∀ argument ∈ step.arguments, Place.quoted.Keeps argument := by
  have hall {unit : UInt16} (hblank : unit ≠ ArgumentVectors.blank)
      (hquote : unit ≠ ArgumentVectors.quote) :
      unit ∉ step.commandLine ↔
        ∀ argument ∈ step.arguments, unit ∉ argument := by
    rw [mem_commandLine hblank hquote]
    push Not
    rfl
  have hreturn := @hall carriageReturn (by decide) (by decide)
  have htab := @hall XmlValues.tab (by decide) (by decide)
  have hnewline := @hall newline (by decide) (by decide)
  unfold Place.Keeps
  rw [hreturn, htab, hnewline]
  constructor
  · intro hkeeps argument hargument
    exact ⟨hkeeps.1 argument hargument, fun _ =>
      ⟨(hkeeps.2 rfl).1 argument hargument,
        (hkeeps.2 rfl).2 argument hargument⟩⟩
  · intro hkeeps
    refine ⟨fun argument hargument => (hkeeps argument hargument).1, ?_⟩
    intro _
    exact ⟨fun argument hargument => ((hkeeps argument hargument).2 rfl).1,
      fun argument hargument => ((hkeeps argument hargument).2 rfl).2⟩

theorem readValue_commandLine_iff (step : MsiPrivilegedStep)
    (host : MsiComponent) :
    ((WixSource.customAction step host).element?.bind
        (·.value? "ExeCommand")).bind (readValue .quoted) =
          some step.commandLine ↔
      ∀ argument ∈ step.arguments,
        legal argument = true ∧ Place.quoted.Keeps argument := by
  change readValue .quoted (XmlText.attributeText step.commandLine) = _ ↔ _
  rw [XmlText.readValue_attributeText_iff, Place.Carries, legal_commandLine,
    keeps_commandLine]
  constructor
  · intro hboth argument hargument
    exact ⟨hboth.1 argument hargument, hboth.2 argument hargument⟩
  · intro hall
    exact ⟨fun argument hargument => (hall argument hargument).1,
      fun argument hargument => (hall argument hargument).2⟩

/-! ## The arguments that arrive -/

variable {step : MsiPrivilegedStep} {host : MsiComponent}

theorem carried_of_arrives (harrives : step.Arrives host) :
    ∀ argument ∈ step.arguments, Carried argument := by
  have hread := (readValue_commandLine_iff step host).mp
    harrives.written
  have hcalled := harrives.split [] (by simp)
  rw [arguments_run [] (by simp)] at hcalled
  have hsplit := (List.cons.inj hcalled).2
  have hunquoted := quote_not_mem_of_split hsplit
  have hclosed := closed_of_split hsplit
  have hends := ends_run_following (Reading.ends_between []) hunquoted
    hclosed fun argument hargument =>
      ((hread argument hargument).2.2 rfl).1
  have hfilter : step.arguments.filter (· ≠ []) = step.arguments := by
    rw [List.nil_append] at hends
    exact hends.1.symm.trans hsplit
  intro argument hargument
  constructor
  · simpa using List.filter_eq_self.mp hfilter argument hargument
  · exact hunquoted argument hargument
  · exact hclosed argument hargument
  · exact (hread argument hargument).1
  · exact (hread argument hargument).2

theorem arrives_of_carried
    (hcarried : ∀ argument ∈ step.arguments, Carried argument) :
    step.Arrives host := by
  constructor
  · apply (readValue_commandLine_iff step host).mpr
    intro argument hargument
    exact ⟨(hcarried argument hargument).legal,
      (hcarried argument hargument).spaced⟩
  · intro file hfile
    have hends := ends_run_following (Reading.ends_between [])
      (fun argument hargument => (hcarried argument hargument).unquoted)
      (fun argument hargument => (hcarried argument hargument).closed)
      (fun argument hargument =>
        ((hcarried argument hargument).spaced.2 rfl).1)
    have hfilter : step.arguments.filter (· ≠ []) = step.arguments := by
      apply List.filter_eq_self.mpr
      intro argument hargument
      exact decide_eq_true (hcarried argument hargument).filled
    rw [List.nil_append, hfilter] at hends
    rw [arguments_run file hfile]
    exact congrArg (file :: ·) hends.1

/-- The arguments of a step arrive exactly where none is empty, has a quote,
ends in a backslash behind a blank or holds what a source cannot. -/
theorem arrives_iff (step : MsiPrivilegedStep) (host : MsiComponent) :
    step.Arrives host ↔ ∀ argument ∈ step.arguments, Carried argument := by
  constructor
  · exact carried_of_arrives
  · exact arrives_of_carried

/-! ### A directory -/

def registersDirectory : MsiPrivilegedStep where
  id := text "RegisterService"
  phase := .afterInstallFiles
  relativeExecutable := text "service.exe"
  arguments := [text "--dir", text "C:\\Program Files\\App\\"]
  fatalOnFailure := true
  rollbackFor := none

def serviceFile : MsiComponent where
  id := text "cmp.service.exe"
  guid := text "886313E1-3B8A-5372-9B90-0C9AEE199E5D"
  directoryId := text "INSTALLFOLDER"
  relativePath :=
    { dirname := []
      basename := ⟨text "service.exe", by decide, by decide, by decide⟩
      rootless := by decide }
  source := text "build/service.exe"

/-- The backslash at the end of the directory keeps its quote. -/
theorem not_arrives_registersDirectory :
    ¬ registersDirectory.Arrives serviceFile := by
  intro harrives
  have hcarried := carried_of_arrives harrives
    (text "C:\\Program Files\\App\\") (by simp [registersDirectory])
  exact hcarried.closed (by decide) (by decide)

end Dovetail.Bundler.MsiPrivilegedStep
