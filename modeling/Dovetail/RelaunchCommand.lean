import Dovetail.ArgumentVectors
import Dovetail.Base64
import Dovetail.ByteWords
import Dovetail.LaunchPayload
import Dovetail.PositionalScripts
import Dovetail.PowerShellCommands

/-!
# Starting the app again

The command that waits for the old process and starts the app once more.  On
Windows it is a PowerShell script in base64, in which the arguments are put
in one literal; elsewhere it is a script for the shell with the words as
positional parameters.  PowerShell ends a literal at a curly quote too, and
the script doubles only the straight one.
-/

namespace Dovetail.Relaunch

open CodeUnits
open PowerShellCommands (Word apostrophe doubled isSingleQuote Straight)
open PositionalScripts (Calls Outcome Parameters Script)

structure RelaunchCommand where
  executable : Text
  arguments : List Text
  deriving DecidableEq

/-! ## The command -/

def windows : Text := text "windows"

def macos : Text := text "macos"

def afterExit : Text :=
  text "while kill -0 \"$0\" 2>/dev/null; do sleep 0.1; done; exec \"$@\""

def bundleMarker : Text := text ".app/"

/-- The whitespace of a regular expression. -/
def isSpaceInPattern (unit : UInt16) : Bool :=
  unit != 0x85 && isSpace unit

def quoted (value : Text) : Text :=
  apostrophe :: (doubled value ++ [apostrophe])

def windowsArgument (argument : Text) : Text :=
  if argument ≠ [] ∧ ∀ unit ∈ argument,
      ¬ (isSpaceInPattern unit = true ∨ unit = ArgumentVectors.quote) then
    argument
  else
    ArgumentVectors.quote ::
      (ArgumentVectors.escaped 0 argument ++ [ArgumentVectors.quote])

def argumentLine (arguments : List Text) : Text :=
  [ArgumentVectors.blank].intercalate (arguments.map windowsArgument)

def windowsScript (pid : Nat) (executable : Text) (arguments : List Text) :
    Text :=
  let start := text "Start-Process -FilePath " ++ quoted executable
  text "Wait-Process -Id " ++ text (toString pid) ++
    text " -ErrorAction SilentlyContinue; " ++
    if arguments = [] then start
    else start ++ text " -ArgumentList " ++ quoted (argumentLine arguments)

def encoded (script : Text) : Text :=
  Base64.encode
    (script.flatMap fun unit : UInt16 => [unit.toUInt8, (unit >>> 8).toUInt8])

def linuxExecutable (executable : Text) (environment : Text → Option Text) :
    Text :=
  let appImage := (environment (text "APPIMAGE")).getD []
  if appImage = [] then executable else appImage

def macosCommand (executable : Text) (arguments : List Text) : List Text :=
  match Instance.indexOf bundleMarker executable with
  | none => executable :: arguments
  | some marker =>
      [text "/usr/bin/open", text "-n",
        executable.take (marker + bundleMarker.length - 1)] ++
        if arguments = [] then [] else text "--args" :: arguments

def forHost (operatingSystem executable : Text) (pid : Nat)
    (arguments : List Text) (environment : Text → Option Text) :
    RelaunchCommand :=
  if operatingSystem = windows then
    { executable := text "powershell.exe"
      arguments := [text "-NoProfile", text "-NonInteractive",
        text "-EncodedCommand",
        encoded (windowsScript pid executable arguments)] }
  else
    let relaunched :=
      if operatingSystem = macos then macosCommand executable arguments
      else linuxExecutable executable environment :: arguments
    { executable := text "/bin/sh"
      arguments := text "-c" :: afterExit :: text (toString pid) ::
        relaunched }

/-! ## The hosts -/

structure Started where
  executable : Text
  arguments : List Text
  deriving DecidableEq

/-- Little-endian code units. -/
def decodeUnits : List UInt8 → Text
  | low :: high :: rest =>
      UInt16.ofNat (ByteWords.fromLittleEndian [low, high]) ::
        decodeUnits rest
  | _ => []

def waitFor (pid : Nat) : List Word :=
  [.bare (text "Wait-Process"), .bare (text "-Id"),
    .bare (text (toString pid)), .bare (text "-ErrorAction"),
    .bare (text "SilentlyContinue")]

/-- Neither an empty path nor an empty list of arguments is accepted. -/
def startOf : List Word → Option Started
  | [.bare command, .bare filePath, .literal executable] =>
      if command = text "Start-Process" ∧ filePath = text "-FilePath" ∧
          executable ≠ [] then
        some ⟨executable, []⟩
      else none
  | [.bare command, .bare filePath, .literal executable,
      .bare argumentList, .literal line] =>
      if command = text "Start-Process" ∧ filePath = text "-FilePath" ∧
          argumentList = text "-ArgumentList" ∧ executable ≠ [] ∧
          line ≠ [] then
        some ⟨executable, (ArgumentVectors.Reading.start.run line).arguments⟩
      else none
  | _ => none

/-- What a script starts that waits for a process and does nothing else. -/
def powerShell (pid : Nat) (script : Text) : Option Started :=
  match PowerShellCommands.commands script with
  | some [wait, start] => if wait = waitFor pid then startOf start else none
  | _ => none

/-- The decoding of the script replaces what is no half of a pair. -/
def onWindows (pid : Nat) (command : RelaunchCommand) : Option Started :=
  match command.arguments with
  | [noProfile, nonInteractive, encodedCommand, script] =>
      if command.executable = text "powershell.exe" ∧
          noProfile = text "-NoProfile" ∧
          nonInteractive = text "-NonInteractive" ∧
          encodedCommand = text "-EncodedCommand" then
        (Base64.decode script).bind fun bytes =>
          powerShell pid (repaired (decodeUnits bytes))
      else none
  | _ => none

def killWords : List PositionalScripts.Word :=
  [.literal (text "kill"), .literal (text "-0"), .zero]

def sleepWords : List PositionalScripts.Word :=
  [.literal (text "sleep"), .literal (text "0.1")]

def waitingScript : Script :=
  .andThen (PositionalScripts.waiting killWords sleepWords)
    (.exec [.parameters])

theorem text_waitingScript : waitingScript.text = afterExit := by
  simp only [waitingScript, PositionalScripts.waiting, Script.text,
    PositionalScripts.wordsText, killWords, sleepWords, afterExit,
    text_ofList]
  decide

/-- The parameters are passed in UTF-8. -/
def onPosix (utility : Calls → List Text → Bool) (fuel : Nat)
    (command : RelaunchCommand) : Option Outcome :=
  match command.arguments with
  | flag :: script :: zero :: others =>
      if command.executable = text "/bin/sh" ∧ flag = text "-c" ∧
          script = waitingScript.text then
        PositionalScripts.run utility
          ⟨repaired zero, others.map repaired⟩ fuel waitingScript []
      else none
  | _ => none

/-- What is to be started: for an AppImage its file and not what is mounted
from it. -/
def intended (operatingSystem executable : Text)
    (environment : Text → Option Text) : Text :=
  if operatingSystem = windows ∨ operatingSystem = macos then executable
  else linuxExecutable executable environment

/-- Once the old process is gone the executable is started with these
arguments, and nothing else has been run but what waits for it. -/
def StartsAsGiven (operatingSystem executable : Text) (pid : Nat)
    (arguments : List Text) (environment : Text → Option Text) : Prop :=
  let command := forHost operatingSystem executable pid arguments environment
  if operatingSystem = windows then
    onWindows pid command = some ⟨executable, arguments⟩
  else
    ∀ utility most, (∀ calls : Calls, most ≤ calls.length →
        utility calls [text "kill", text "-0", text (toString pid)] = false) →
      ∃ fuel calls, onPosix utility fuel command =
          some (.replaced calls
            (intended operatingSystem executable environment) arguments) ∧
        ∀ call ∈ calls,
          call = [text "kill", text "-0", text (toString pid)] ∨
            call = [text "sleep", text "0.1"]

/-- The executable has a name, every text is of whole characters, and no
literal of PowerShell has a curly quote; the shell takes no executable that
begins with a dash. -/
structure Sure (operatingSystem executable : Text) (arguments : List Text) :
    Prop where
  named : executable ≠ []
  whole : ∀ word ∈ executable :: arguments, wellFormed word = true
  straight : operatingSystem = windows →
    ∀ word ∈ executable :: arguments, Straight word
  undashed : operatingSystem ≠ windows →
    executable.head? ≠ some PositionalScripts.dash

/-! ## Units that are passed on -/

theorem decodeUnits_flatMap (script : Text) :
    decodeUnits (script.flatMap fun unit : UInt16 =>
      [unit.toUInt8, (unit >>> 8).toUInt8]) = script := by
  induction script with
  | nil => rfl
  | cons unit rest ih =>
      have hlow : unit.toUInt8.toNat = unit.toNat % 256 := by
        simp [UInt16.toNat_toUInt8]
      have hhigh : (unit >>> 8).toUInt8.toNat = unit.toNat / 256 := by
        have hlt := unit.toNat_lt
        have hpower : 2 ^ (8 % 16) = 256 := rfl
        rw [UInt16.toNat_toUInt8, UInt16.toNat_shiftRight]
        simp only [UInt16.reduceToNat, Nat.shiftRight_eq_div_pow]
        rw [hpower]
        omega
      rw [List.flatMap_cons]
      simp only [List.cons_append, List.nil_append, decodeUnits, ih,
        ByteWords.fromLittleEndian, hlow, hhigh]
      rw [Nat.mul_zero, Nat.add_zero, Nat.mod_add_div, UInt16.ofNat_toNat]

/-- A unit that only quotes, escapes and blanks are kept from. -/
def Ordinary (kept : UInt16 → Bool) : Prop :=
  ∀ unit, ArgumentVectors.isBlank unit = true ∨ unit = ArgumentVectors.quote ∨
    unit = ArgumentVectors.backslash → kept unit = false

section

variable {kept : UInt16 → Bool} (hkept : Ordinary kept)
include hkept

theorem countP_escaped (pending : Nat) (argument : Text) :
    (ArgumentVectors.escaped pending argument).countP kept =
      argument.countP kept := by
  have hslash := hkept _ (Or.inr (Or.inr rfl))
  induction argument generalizing pending with
  | nil => simp [ArgumentVectors.escaped, List.countP_replicate, hslash]
  | cons unit rest ih =>
      rw [ArgumentVectors.escaped]
      split
      · next hsame =>
          rw [ih, hsame, List.countP_cons_of_neg (by simp [hslash])]
      · rw [List.countP_append, List.countP_replicate, List.countP_cons, ih,
          List.countP_cons]
        simp [hslash]

theorem countP_windowsArgument (argument : Text) :
    (windowsArgument argument).countP kept = argument.countP kept := by
  have hquote := hkept _ (Or.inr (Or.inl rfl))
  unfold windowsArgument
  split
  · rfl
  · simp [List.countP_append, countP_escaped hkept, hquote]

/-- The line of the arguments has no more of them than the arguments. -/
theorem countP_argumentLine (arguments : List Text) :
    (argumentLine arguments).countP kept =
      arguments.flatten.countP kept := by
  have hblank := hkept ArgumentVectors.blank (Or.inl rfl)
  unfold argumentLine
  induction arguments with
  | nil => rfl
  | cons argument rest ih =>
      cases rest with
      | nil => simp [countP_windowsArgument hkept]
      | cons next others =>
          rw [List.map_cons] at ih
          rw [List.map_cons, List.map_cons, List.intercalate_cons_cons,
            List.countP_append, List.countP_append, ih,
            countP_windowsArgument hkept]
          simp [hblank, List.countP_append]

end

/-! ## Whole characters -/

theorem wellFormed_concat (before : Text) {unit : UInt16}
    (hunit : isSurrogate unit = false) :
    wellFormed (before ++ [unit]) = wellFormed before := by
  rw [wellFormed_append_cons before hunit []]
  exact Bool.and_true _

theorem wellFormed_append_replicate (before : Text) {unit : UInt16}
    (hunit : isSurrogate unit = false) (count : Nat) :
    wellFormed (before ++ List.replicate count unit) = wellFormed before := by
  induction count with
  | zero => simp
  | succ count ih =>
      rw [List.replicate_succ', ← List.append_assoc, wellFormed_concat _ hunit,
        ih]

theorem wellFormed_append_doubled (before value : Text) :
    wellFormed (before ++ doubled value) = wellFormed (before ++ value) := by
  have hquote : isSurrogate apostrophe = false := by decide
  induction value generalizing before with
  | nil => rfl
  | cons unit rest ih =>
      rw [PowerShellCommands.doubled_cons]
      by_cases hunit : unit = apostrophe
      · have hrest := ih []
        rw [List.nil_append, List.nil_append] at hrest
        rw [if_pos hunit, hunit, wellFormed_append_cons before hquote rest]
        change wellFormed (before ++ apostrophe :: apostrophe ::
          doubled rest) = _
        rw [wellFormed_append_cons before hquote, wellFormed_cons hquote, hrest]
      · rw [if_neg hunit, List.append_cons before unit rest,
          ← List.append_assoc, ih]

theorem wellFormed_append_escaped (before : Text) (pending : Nat)
    (argument : Text) :
    wellFormed (before ++ ArgumentVectors.escaped pending argument) =
      wellFormed (before ++
        List.replicate pending ArgumentVectors.backslash ++ argument) := by
  have hslash : isSurrogate ArgumentVectors.backslash = false := by decide
  have hquote : isSurrogate ArgumentVectors.quote = false := by decide
  induction argument generalizing before pending with
  | nil =>
      rw [ArgumentVectors.escaped, List.append_nil,
        wellFormed_append_replicate _ hslash,
        wellFormed_append_replicate _ hslash]
  | cons unit rest ih =>
      rw [ArgumentVectors.escaped]
      by_cases hunit : unit = ArgumentVectors.backslash
      · rw [if_pos hunit, ih, List.replicate_succ', hunit]
        simp
      · rw [if_neg hunit]
        by_cases hends : unit = ArgumentVectors.quote
        · have hrest := ih [] 0
          simp only [List.replicate_zero, List.nil_append] at hrest
          rw [if_pos hends, hends, ← List.append_assoc,
            wellFormed_append_cons _ hquote, wellFormed_append_cons _ hquote,
            wellFormed_append_replicate _ hslash,
            wellFormed_append_replicate _ hslash, hrest]
        · have hrest := ih (before ++
            List.replicate pending ArgumentVectors.backslash ++ [unit]) 0
          simp only [List.replicate_zero, List.append_nil] at hrest
          rw [if_neg hends, ← List.append_assoc, List.append_cons, hrest,
            List.append_assoc _ [unit], List.singleton_append]

theorem wellFormed_windowsArgument (argument : Text) :
    wellFormed (windowsArgument argument) = wellFormed argument := by
  have hquote : isSurrogate ArgumentVectors.quote = false := by decide
  unfold windowsArgument
  split
  · rfl
  · have hescaped := wellFormed_append_escaped [] 0 argument
    simp only [List.replicate_zero, List.nil_append] at hescaped
    rw [wellFormed_cons hquote, wellFormed_concat _ hquote, hescaped]

theorem wellFormed_argumentLine (arguments : List Text) :
    wellFormed (argumentLine arguments) = arguments.all wellFormed := by
  have hblank : isSurrogate ArgumentVectors.blank = false := by decide
  unfold argumentLine
  induction arguments with
  | nil => rfl
  | cons argument rest ih =>
      cases rest with
      | nil => simp [wellFormed_windowsArgument]
      | cons next others =>
          rw [List.map_cons] at ih
          rw [List.map_cons, List.map_cons, List.intercalate_cons_cons,
            List.append_assoc, List.singleton_append,
            wellFormed_append_cons _ hblank, ih, wellFormed_windowsArgument]
          rfl

theorem wellFormed_quoted_append (value rest : Text) :
    wellFormed (quoted value ++ rest) =
      (wellFormed value && wellFormed rest) := by
  have hquote : isSurrogate apostrophe = false := by decide
  have hdoubled := wellFormed_append_doubled [] value
  rw [List.nil_append, List.nil_append] at hdoubled
  unfold quoted
  rw [List.cons_append, wellFormed_cons hquote, List.append_assoc,
    List.singleton_append, wellFormed_append_cons _ hquote, hdoubled]

/-- What of the script is neither the executable nor an argument. -/
def scriptCode (pid : Nat) : Text :=
  text "Wait-Process -Id " ++ text (toString pid) ++
    text " -ErrorAction SilentlyContinue; " ++
    text "Start-Process -FilePath " ++ text " -ArgumentList "

theorem lt_of_mem_scriptCode {pid : Nat} {unit : UInt16}
    (hunit : unit ∈ scriptCode pid) : unit.toNat < 128 ∧ unit ≠ apostrophe := by
  have hfixed : ∀ unit ∈ text "Wait-Process -Id " ++
      text " -ErrorAction SilentlyContinue; " ++
      text "Start-Process -FilePath " ++ text " -ArgumentList ",
      unit.toNat < 128 ∧ unit ≠ apostrophe := by
    simp only [text_ofList]
    decide
  simp only [scriptCode, List.mem_append] at hunit hfixed
  rcases hunit with (((hwait | hpid) | herror) | hstart) | hlist
  · exact hfixed unit (Or.inl (Or.inl (Or.inl hwait)))
  · have hdigit := digit_of_mem_text_toString hpid
    simp only [UInt16.le_iff_toNat_le, UInt16.reduceToNat] at hdigit
    constructor
    · omega
    · intro hsame
      have hlarge := congrArg UInt16.toNat hsame
      simp only [apostrophe, UInt16.reduceToNat] at hlarge
      omega
  · exact hfixed unit (Or.inl (Or.inl (Or.inr herror)))
  · exact hfixed unit (Or.inl (Or.inr hstart))
  · exact hfixed unit (Or.inr hlist)

theorem not_isSurrogate_of_lt {unit : UInt16} (hunit : unit.toNat < 128) :
    isSurrogate unit = false := by
  simp only [isSurrogate, isLead, isTrail, Bool.or_eq_false_iff,
    beq_eq_false_iff_ne]
  omega

theorem not_isSingleQuote_of_lt {unit : UInt16} (hunit : unit.toNat < 128)
    (hne : unit ≠ apostrophe) : isSingleQuote unit = false := by
  simp only [isSingleQuote, Bool.or_eq_false_iff, beq_eq_false_iff_ne,
    Bool.and_eq_false_iff, decide_eq_false_iff_not, UInt16.le_iff_toNat_le,
    UInt16.reduceToNat]
  exact ⟨hne, by omega⟩

theorem not_isSurrogate_of_dropped {unit : UInt16}
    (hunit : isSingleQuote unit = true ∨
      PowerShellCommands.isBlank unit = true ∨
      unit = PowerShellCommands.semicolon ∨ unit = newline) :
    isSurrogate unit = false := by
  have hsmall : unit.toNat < 0xD800 := by
    rcases hunit with hquote | hblank | rfl | rfl
    · simp only [isSingleQuote, apostrophe, Bool.or_eq_true,
        Bool.and_eq_true, beq_iff_eq, decide_eq_true_eq,
        UInt16.le_iff_toNat_le, UInt16.reduceToNat] at hquote
      rcases hquote with rfl | hrange
      · decide
      · omega
    · simp only [PowerShellCommands.isBlank, Bool.or_eq_true,
        beq_iff_eq] at hblank
      rcases hblank with rfl | rfl
      · decide
      · decide
    · decide
    · decide
  simp only [isSurrogate, isLead, isTrail, Bool.or_eq_false_iff,
    beq_eq_false_iff_ne]
  omega

theorem not_isSingleQuote_surrogate {unit : UInt16}
    (hunit : isSurrogate unit = true) : isSingleQuote unit = false := by
  rw [← Bool.not_eq_true]
  intro hquote
  have hsurrogate := not_isSurrogate_of_dropped (Or.inl hquote)
  rw [hunit] at hsurrogate
  exact Bool.noConfusion hsurrogate

/-- What the script says of itself is of whole characters. -/
theorem wellFormed_windowsScript (pid : Nat) (executable : Text)
    (arguments : List Text) :
    wellFormed (windowsScript pid executable arguments) =
      (executable :: arguments).all wellFormed := by
  have hplain (units : Text) (hunits : ∀ unit ∈ units, unit ∈ scriptCode pid)
      (rest : Text) : wellFormed (units ++ rest) = wellFormed rest := by
    apply wellFormed_append
    apply wellFormed_of_forall
    intro unit hunit
    exact not_isSurrogate_of_lt (lt_of_mem_scriptCode (hunits unit hunit)).1
  unfold windowsScript
  simp only [List.append_assoc]
  rw [hplain _ (by simp +contextual [scriptCode]),
    hplain _ (by simp +contextual [scriptCode]),
    hplain _ (by simp +contextual [scriptCode])]
  split
  · next hnone =>
      have hquoted := wellFormed_quoted_append executable []
      rw [List.append_nil] at hquoted
      rw [hplain _ (by simp +contextual [scriptCode]), hquoted, hnone]
      rfl
  · have hquoted := wellFormed_quoted_append (argumentLine arguments) []
    rw [List.append_nil] at hquoted
    rw [hplain _ (by simp +contextual [scriptCode]),
      wellFormed_quoted_append, hplain _ (by simp +contextual [scriptCode]),
      hquoted, wellFormed_argumentLine, List.all_cons]
    simp [wellFormed]

/-! ## What the script holds -/

theorem countP_windowsScript {kept : UInt16 → Bool} {pid : Nat}
    (hcode : ∀ unit ∈ scriptCode pid, kept unit = false)
    (executable : Text) (arguments : List Text) :
    (windowsScript pid executable arguments).countP kept =
      (quoted executable).countP kept +
        if arguments = [] then 0
        else (quoted (argumentLine arguments)).countP kept := by
  have hnone (units : Text) (hunits : ∀ unit ∈ units, unit ∈ scriptCode pid) :
      units.countP kept = 0 := by
    apply List.countP_eq_zero.mpr
    intro unit hunit
    simp [hcode unit (hunits unit hunit)]
  unfold windowsScript
  simp only [List.countP_append]
  rw [hnone (text "Wait-Process -Id ") (by simp +contextual [scriptCode]),
    hnone (text (toString pid)) (by simp +contextual [scriptCode]),
    hnone (text " -ErrorAction SilentlyContinue; ")
      (by simp +contextual [scriptCode])]
  split
  · rw [List.countP_append, hnone _ (by simp +contextual [scriptCode])]
    omega
  · rw [List.countP_append, List.countP_append, List.countP_append,
      hnone (text "Start-Process -FilePath ")
        (by simp +contextual [scriptCode]),
      hnone (text " -ArgumentList ") (by simp +contextual [scriptCode])]
    omega

theorem countP_isSingleQuote_quoted (value : Text) :
    (quoted value).countP isSingleQuote =
      value.countP isSingleQuote + value.count apostrophe + 2 := by
  have hquote : isSingleQuote apostrophe = true := by decide
  unfold quoted
  rw [List.countP_cons, List.countP_append,
    PowerShellCommands.countP_doubled]
  simp [hquote]

theorem countP_isSurrogate_quoted (value : Text) :
    (quoted value).countP isSurrogate = value.countP isSurrogate := by
  have hquote : isSurrogate apostrophe = false := by decide
  have hdoubled : (doubled value).countP isSurrogate =
      value.countP isSurrogate := by
    induction value with
    | nil => rfl
    | cons unit rest ih =>
        rw [PowerShellCommands.doubled_cons, List.countP_append, ih,
          List.countP_cons]
        by_cases hunit : unit = apostrophe
        · simp [hunit, hquote]
        · simp [hunit]
          ring
  unfold quoted
  rw [List.countP_cons, List.countP_append, hdoubled]
  simp [hquote]

/-! ## What is replaced -/

def replacement : UInt16 := 0xFFFD

theorem units_single_of_isSurrogate {unit : UInt16}
    (hunit : isSurrogate unit = true) : units (single unit) = [replacement] := by
  unfold single
  rw [if_pos hunit]
  decide

/-- Where lone surrogates are replaced nothing else is counted differently. -/
theorem countP_repaired {kept : UInt16 → Bool}
    (hsurrogate : ∀ unit, isSurrogate unit = true → kept unit = false)
    (hreplacement : kept replacement = false) (source : Text) :
    (repaired source).countP kept = source.countP kept := by
  have hsingle (unit : UInt16) :
      (units (single unit)).countP kept = [unit].countP kept := by
    cases hunit : isSurrogate unit with
    | true =>
        rw [units_single_of_isSurrogate hunit]
        simp [hreplacement, hsurrogate unit hunit]
    | false => rw [units_single hunit]
  unfold repaired
  induction source using runes.induct with
  | case1 => rfl
  | case2 unit =>
      rw [runes, List.flatMap_singleton]
      exact hsingle unit
  | case3 unit next rest hpair ih =>
      have hboth : isLead unit = true ∧ isTrail next = true := by
        simpa using hpair
      rw [runes, if_pos hpair, List.flatMap_cons, List.countP_append, ih,
        units_pair hboth.1 hboth.2, ← List.countP_append]
      rfl
  | case4 unit next rest hpair ih =>
      rw [runes, if_neg hpair, List.flatMap_cons, List.countP_append, ih,
        hsingle, ← List.countP_append]
      rfl

/-- Surrogates only get fewer, and none gets lost where all are paired. -/
theorem countP_isSurrogate_repaired (source : Text) :
    (repaired source).countP isSurrogate ≤ source.countP isSurrogate ∧
      ((repaired source).countP isSurrogate = source.countP isSurrogate →
        wellFormed source = true) := by
  have hreplacement : isSurrogate replacement = false := by decide
  have hsingle (unit : UInt16) :
      (units (single unit)).countP isSurrogate = 0 := by
    cases hunit : isSurrogate unit with
    | true =>
        rw [units_single_of_isSurrogate hunit]
        simp [hreplacement]
    | false =>
        rw [units_single hunit]
        simp [hunit]
  unfold repaired
  induction source using runes.induct with
  | case1 => simp [runes, wellFormed]
  | case2 unit =>
      rw [runes, List.flatMap_singleton, hsingle, wellFormed]
      cases hunit : isSurrogate unit with
      | true => simp [hunit]
      | false => simp
  | case3 unit next rest hpair ih =>
      have hboth : isLead unit = true ∧ isTrail next = true := by
        simpa using hpair
      have hcons : (unit :: next :: rest).countP isSurrogate =
          [unit, next].countP isSurrogate + rest.countP isSurrogate := by
        rw [← List.countP_append]
        rfl
      rw [runes, if_pos hpair, List.flatMap_cons, List.countP_append,
        units_pair hboth.1 hboth.2, hcons, wellFormed, if_pos hpair]
      constructor
      · exact Nat.add_le_add_left ih.1 _
      · intro hsame
        exact ih.2 (Nat.add_left_cancel hsame)
  | case4 unit next rest hpair ih =>
      rw [runes, if_neg hpair, List.flatMap_cons, List.countP_append, hsingle,
        zero_add, List.countP_cons, wellFormed, if_neg hpair]
      constructor
      · exact ih.1.trans (Nat.le_add_right _ _)
      · intro hsame
        cases hunit : isSurrogate unit with
        | true =>
            rw [hunit, if_pos rfl] at hsame
            omega
        | false =>
            rw [hunit] at hsame
            simpa using ih.2 (by simpa using hsame)

/-! ## Scripts that start what they should -/

theorem startOf_eq_some {words : List Word} {started : Started}
    (hstart : startOf words = some started) :
    started.executable ≠ [] ∧
      ((started.arguments = [] ∧ words =
          [.bare (text "Start-Process"), .bare (text "-FilePath"),
            .literal started.executable]) ∨
        ∃ line, (ArgumentVectors.Reading.start.run line).arguments =
            started.arguments ∧ words =
          [.bare (text "Start-Process"), .bare (text "-FilePath"),
            .literal started.executable, .bare (text "-ArgumentList"),
            .literal line]) := by
  unfold startOf at hstart
  split at hstart
  · split at hstart
    · next hall =>
        obtain rfl := Option.some.inj hstart
        rcases hall with ⟨rfl, rfl, hnamed⟩
        exact ⟨hnamed, Or.inl ⟨rfl, rfl⟩⟩
    · cases hstart
  · next line =>
      split at hstart
      · next hall =>
          obtain rfl := Option.some.inj hstart
          rcases hall with ⟨rfl, rfl, rfl, hnamed, -⟩
          exact ⟨hnamed, Or.inr ⟨line, rfl, rfl⟩⟩
      · cases hstart
  · cases hstart

theorem ordinary_isSingleQuote : Ordinary isSingleQuote := by
  intro unit hunit
  simp only [ArgumentVectors.isBlank, Bool.or_eq_true, beq_iff_eq] at hunit
  rcases hunit with (rfl | rfl) | rfl | rfl
  · decide
  · decide
  · decide
  · decide

theorem ordinary_isSurrogate : Ordinary isSurrogate := by
  intro unit hunit
  simp only [ArgumentVectors.isBlank, Bool.or_eq_true, beq_iff_eq] at hunit
  rcases hunit with (rfl | rfl) | rfl | rfl
  · decide
  · decide
  · decide
  · decide

/-- The literal behind the executable takes as many units as it has. -/
theorem counts_of_startOf {words : List Word} {started : Started}
    (hstart : startOf words = some started) :
    2 * started.executable.countP isSingleQuote + 2 +
        (if started.arguments = [] then 0
          else 2 * started.arguments.flatten.countP isSingleQuote + 2) ≤
      PowerShellCommands.weightOf PowerShellCommands.quotesOf words ∧
    started.executable.countP isSurrogate +
        started.arguments.flatten.countP isSurrogate ≤
      PowerShellCommands.countIn isSurrogate words := by
  have hline {kept : UInt16 → Bool} (hkept : Ordinary kept) (line : Text) :
      (ArgumentVectors.Reading.start.run line).arguments.flatten.countP kept =
        line.countP kept := by
    rw [ArgumentVectors.Reading.countP_run hkept]
    simp [ArgumentVectors.Reading.start, ArgumentVectors.Reading.arguments]
  rcases (startOf_eq_some hstart).2 with ⟨hnone, rfl⟩ | ⟨line, hrun, rfl⟩
  · rw [hnone]
    constructor
    · simp [PowerShellCommands.weightOf, PowerShellCommands.quotesOf]
    · simp only [PowerShellCommands.countIn, PowerShellCommands.weightOf,
        List.map_cons, List.map_nil, List.sum_cons, List.sum_nil, Word.units,
        List.flatten_nil, List.countP_nil]
      omega
  · have hquotes := hline ordinary_isSingleQuote line
    have hsurrogates := hline ordinary_isSurrogate line
    rw [hrun] at hquotes hsurrogates
    constructor
    · simp only [PowerShellCommands.weightOf, PowerShellCommands.quotesOf,
        List.map_cons, List.map_nil, List.sum_cons, List.sum_nil, hquotes]
      split
      · omega
      · omega
    · simp only [PowerShellCommands.countIn, PowerShellCommands.weightOf,
        List.map_cons, List.map_nil, List.sum_cons, List.sum_nil, Word.units,
        hsurrogates]
      omega

theorem straight_of_counts {words : List Text}
    (hcounts : words.flatten.count apostrophe =
      words.flatten.countP isSingleQuote) :
    ∀ word ∈ words, Straight word := by
  have hall := (PowerShellCommands.straight_iff words.flatten).mpr hcounts
  intro word hword unit hunit
  exact hall unit (List.mem_flatten_of_mem hword hunit)

theorem count_argumentLine (arguments : List Text) :
    (argumentLine arguments).count apostrophe =
      arguments.flatten.count apostrophe := by
  rw [List.count_eq_countP, List.count_eq_countP]
  apply countP_argumentLine
  intro unit hunit
  have hquote : isSingleQuote unit = false :=
    ordinary_isSingleQuote unit hunit
  rw [beq_eq_false_iff_ne]
  rintro rfl
  exact absurd hquote (by decide)

/-- A script that starts the executable with these arguments holds no curly
quote and nothing that is replaced. -/
theorem sure_of_powerShell {pid : Nat} {executable : Text}
    {arguments : List Text}
    (hstarts : powerShell pid
      (repaired (windowsScript pid executable arguments)) =
        some ⟨executable, arguments⟩) :
    executable ≠ [] ∧
      (∀ word ∈ executable :: arguments, wellFormed word = true) ∧
      ∀ word ∈ executable :: arguments, Straight word := by
  unfold powerShell at hstarts
  split at hstarts
  · next wait start hfound =>
      split at hstarts
      · next hwait =>
          have hnamed := (startOf_eq_some hstarts).1
          have hcounts := counts_of_startOf hstarts
          dsimp only at hnamed hcounts
          have hquotes := PowerShellCommands.quotesOf_commands hfound
          have hkept := PowerShellCommands.countIn_commands
            (fun unit => not_isSurrogate_of_dropped) hfound
          have hwords (weigh : Word → Nat) :
              PowerShellCommands.weightOf weigh start ≤
                PowerShellCommands.weightOf weigh [wait, start].flatten := by
            simp [PowerShellCommands.weightOf]
          -- every quote of the script is one that a literal takes
          rw [countP_repaired (fun unit hunit => not_isSingleQuote_surrogate hunit)
              (by decide),
            countP_windowsScript (fun unit hunit => not_isSingleQuote_of_lt
              (lt_of_mem_scriptCode hunit).1 (lt_of_mem_scriptCode hunit).2),
            countP_isSingleQuote_quoted, countP_isSingleQuote_quoted,
            countP_argumentLine ordinary_isSingleQuote, count_argumentLine]
            at hquotes
          have hexecutable :=
            PowerShellCommands.count_apostrophe_le executable
          have harguments :=
            PowerShellCommands.count_apostrophe_le arguments.flatten
          have htaken := hwords PowerShellCommands.quotesOf
          have hstraight : (executable :: arguments).flatten.count apostrophe =
              (executable :: arguments).flatten.countP isSingleQuote := by
            rw [List.flatten_cons, List.count_append, List.countP_append]
            by_cases hnone : arguments = []
            · simp only [hnone, if_true, List.flatten_nil, List.count_nil,
                List.countP_nil] at hquotes hcounts ⊢
              omega
            · simp only [hnone, if_false] at hquotes hcounts
              omega
          -- and no surrogate of it has been replaced
          have hrepaired := countP_isSurrogate_repaired
            (windowsScript pid executable arguments)
          rw [countP_windowsScript (fun unit hunit => not_isSurrogate_of_lt
              (lt_of_mem_scriptCode hunit).1),
            countP_isSurrogate_quoted, countP_isSurrogate_quoted,
            countP_argumentLine ordinary_isSurrogate] at hrepaired
          have hwhole : wellFormed (windowsScript pid executable arguments) =
              true := by
            apply hrepaired.2
            have hheld := hwords fun word => word.units.countP isSurrogate
            unfold PowerShellCommands.countIn at hkept hcounts
            by_cases hnone : arguments = []
            · simp only [hnone, if_true, List.flatten_nil,
                List.countP_nil] at hrepaired hcounts hkept ⊢
              omega
            · simp only [hnone, if_false] at hrepaired ⊢
              omega
          rw [wellFormed_windowsScript, List.all_eq_true] at hwhole
          exact ⟨hnamed, hwhole, straight_of_counts hstraight⟩
      · cases hstarts
  · cases hstarts

/-- The words the script is read as. -/
def startWords (executable : Text) (arguments : List Text) : List Word :=
  [.bare (text "Start-Process"), .bare (text "-FilePath"),
    .literal executable] ++
    if arguments = [] then []
    else [.bare (text "-ArgumentList"), .literal (argumentLine arguments)]

theorem windowsScript_eq (pid : Nat) (executable : Text)
    (arguments : List Text) :
    windowsScript pid executable arguments =
      [text "Wait-Process", text "-Id", text (toString pid),
          text "-ErrorAction"].flatMap (· ++ [32]) ++
        (text "SilentlyContinue" ++ PowerShellCommands.semicolon :: 32 ::
          ([text "Start-Process", text "-FilePath"].flatMap (· ++ [32]) ++
            (quoted executable ++
              if arguments = [] then []
              else 32 :: ([text "-ArgumentList"].flatMap (· ++ [32]) ++
                quoted (argumentLine arguments))))) := by
  have hwait : text "Wait-Process -Id " =
      text "Wait-Process" ++ [32] ++ (text "-Id" ++ [32]) := by decide
  have herror : text " -ErrorAction SilentlyContinue; " =
      [32] ++ (text "-ErrorAction" ++ [32]) ++ text "SilentlyContinue" ++
        [PowerShellCommands.semicolon, 32] := by decide
  have hstart : text "Start-Process -FilePath " =
      text "Start-Process" ++ [32] ++ (text "-FilePath" ++ [32]) := by decide
  have hlist : text " -ArgumentList " =
      [32] ++ (text "-ArgumentList" ++ [32]) := by decide
  unfold windowsScript
  rw [hwait, herror, hstart, hlist]
  split
  · simp
  · simp

theorem isBare_of_mem_pid {pid : Nat} :
    text (toString pid) ≠ [] ∧ ∀ unit ∈ text (toString pid),
      PowerShellCommands.isBare unit = true := by
  constructor
  · intro hnil
    have hrunes := runes_text_toString pid
    rw [hnil] at hrunes
    exact Nat.toDigits_ne_nil hrunes.symm
  · intro unit hunit
    have hdigit := digit_of_mem_text_toString hunit
    simp [PowerShellCommands.isBare, hdigit]

theorem commands_windowsScript (pid : Nat) {executable : Text}
    {arguments : List Text} (hexecutable : Straight executable)
    (hline : Straight (argumentLine arguments)) :
    PowerShellCommands.commands (windowsScript pid executable arguments) =
      some [waitFor pid, startWords executable arguments] := by
  have hopening : ∀ word ∈ [text "Wait-Process", text "-Id",
      text (toString pid), text "-ErrorAction"],
      word ≠ [] ∧ ∀ unit ∈ word, PowerShellCommands.isBare unit = true := by
    simp only [List.forall_mem_cons, List.not_mem_nil, false_implies,
      implies_true, and_true]
    exact ⟨by decide, by decide, isBare_of_mem_pid, by decide⟩
  have hfile : ∀ word ∈ [text "Start-Process", text "-FilePath"],
      word ≠ [] ∧ ∀ unit ∈ word, PowerShellCommands.isBare unit = true := by
    decide
  have hlist : ∀ word ∈ [text "-ArgumentList"],
      word ≠ [] ∧ ∀ unit ∈ word, PowerShellCommands.isBare unit = true := by
    decide
  unfold PowerShellCommands.commands
  rw [windowsScript_eq, PowerShellCommands.Reading.steps_words hopening rfl,
    PowerShellCommands.Reading.steps_bare_cons rfl (by decide) (by decide)
      (by decide) (by decide),
    PowerShellCommands.Reading.steps_semicolon rfl,
    PowerShellCommands.Reading.steps_blank rfl,
    PowerShellCommands.Reading.steps_words hfile rfl,
    PowerShellCommands.Reading.steps_append, quoted,
    PowerShellCommands.Reading.steps_literal rfl hexecutable,
    Option.bind_some]
  by_cases hnone : arguments = []
  · rw [if_pos hnone, startWords, if_pos hnone]
    rfl
  · rw [if_neg hnone, startWords, if_neg hnone,
      PowerShellCommands.Reading.steps_closing_cons (by decide),
      PowerShellCommands.Reading.steps_blank rfl,
      PowerShellCommands.Reading.steps_words hlist rfl, quoted,
      PowerShellCommands.Reading.steps_literal rfl hline]
    rfl

theorem ends_windowsArgument (before : List Text) (argument : Text) :
    ((ArgumentVectors.Reading.between before).run
      (windowsArgument argument)).Ends (before ++ [argument]) := by
  unfold windowsArgument
  split
  · next hplain =>
      apply ArgumentVectors.Reading.ends_run_plain
      · exact fun hmem => hplain.2 _ hmem (Or.inr rfl)
      · exact hplain.1
      · intro unit hunit
        rw [← Bool.not_eq_true]
        intro hblank
        apply hplain.2 unit hunit
        left
        simp only [ArgumentVectors.isBlank, Bool.or_eq_true,
          beq_iff_eq] at hblank
        rcases hblank with rfl | rfl
        · decide
        · decide
  · exact ArgumentVectors.Reading.ends_run_escaped before argument

theorem ends_argumentLine (before : List Text) {arguments : List Text}
    (hsome : arguments ≠ []) :
    ((ArgumentVectors.Reading.between before).run
      (argumentLine arguments)).Ends (before ++ arguments) := by
  induction arguments generalizing before with
  | nil => exact absurd rfl hsome
  | cons argument rest ih =>
      have hfirst := ends_windowsArgument before argument
      unfold argumentLine at ih ⊢
      cases rest with
      | nil => simpa using hfirst
      | cons next others =>
          have hrest := ih (before ++ [argument]) (List.cons_ne_nil next others)
          rw [List.map_cons] at hrest
          rw [List.map_cons, List.map_cons, List.intercalate_cons_cons,
            List.append_assoc, List.singleton_append,
            ArgumentVectors.Reading.run_append,
            ArgumentVectors.Reading.run_cons, hfirst.step_blank]
          simpa using hrest

theorem argumentLine_ne_nil {arguments : List Text} (hsome : arguments ≠ []) :
    argumentLine arguments ≠ [] := by
  intro hnil
  have hends := (ends_argumentLine [] hsome).1
  rw [hnil] at hends
  exact hsome hends.symm

theorem straight_argumentLine {arguments : List Text}
    (hstraight : ∀ word ∈ arguments, Straight word) :
    Straight (argumentLine arguments) := by
  rw [PowerShellCommands.straight_iff, count_argumentLine,
    countP_argumentLine ordinary_isSingleQuote,
    ← PowerShellCommands.straight_iff]
  intro unit hunit
  rcases List.mem_flatten.mp hunit with ⟨word, hword, hmem⟩
  exact hstraight word hword unit hmem

theorem powerShell_windowsScript (pid : Nat) {executable : Text}
    {arguments : List Text} (hnamed : executable ≠ [])
    (hstraight : ∀ word ∈ executable :: arguments, Straight word) :
    powerShell pid (windowsScript pid executable arguments) =
      some ⟨executable, arguments⟩ := by
  have hboth := List.forall_mem_cons.mp hstraight
  unfold powerShell
  rw [commands_windowsScript pid hboth.1 (straight_argumentLine hboth.2)]
  dsimp only
  rw [if_pos rfl, startWords]
  by_cases hnone : arguments = []
  · rw [if_pos hnone, hnone]
    simp [startOf, hnamed]
  · have hline : (ArgumentVectors.Reading.start.run
        (argumentLine arguments)).arguments = arguments :=
      (ends_argumentLine [] hnone).1
    rw [if_neg hnone]
    simp [startOf, hnamed, argumentLine_ne_nil hnone, hline]

theorem onWindows_forHost (executable : Text) (pid : Nat)
    (arguments : List Text) (environment : Text → Option Text) :
    onWindows pid (forHost windows executable pid arguments environment) =
      powerShell pid (repaired (windowsScript pid executable arguments)) := by
  have hcommand : forHost windows executable pid arguments environment =
      { executable := text "powershell.exe"
        arguments := [text "-NoProfile", text "-NonInteractive",
          text "-EncodedCommand",
          encoded (windowsScript pid executable arguments)] } := if_pos rfl
  rw [hcommand]
  unfold onWindows encoded
  dsimp only
  rw [if_pos ⟨rfl, rfl, rfl, rfl⟩, Base64.decode_encode, Option.bind_some,
    decodeUnits_flatMap]

/-! ## Words passed to the shell -/

theorem wellFormed_repaired (source : Text) :
    wellFormed (repaired source) = true := by
  unfold repaired
  induction runes source with
  | nil => rfl
  | cons rune rest ih =>
      rw [List.flatMap_cons, wellFormed_units_append, ih]

theorem repaired_eq_self_iff {source : Text} :
    repaired source = source ↔ wellFormed source = true := by
  constructor
  · intro hsame
    rw [← hsame]
    exact wellFormed_repaired source
  · exact repaired_eq_self

/-- The shell is replaced by the first word when it has a name that is no
option. -/
theorem execute_eq_replaced_iff {calls found : Calls} {words : List Text}
    {command : Text} {arguments : List Text}
    (hlength : words.length = arguments.length + 1) :
    PositionalScripts.execute calls words =
        .replaced found command arguments ↔
      calls = found ∧ words = command :: arguments ∧ command ≠ [] ∧
        command.head? ≠ some PositionalScripts.dash := by
  cases words with
  | nil => cases hlength
  | cons first rest =>
      have hrest : rest.length = arguments.length := by simpa using hlength
      unfold PositionalScripts.execute
      dsimp only
      by_cases hends : first = [PositionalScripts.dash, PositionalScripts.dash]
      · rw [if_pos hends]
        constructor
        · intro hreplaced
          exfalso
          unfold PositionalScripts.replaceBy at hreplaced
          split at hreplaced
          · cases hreplaced
          · cases hreplaced
          · cases hreplaced
            simp at hrest
        · intro hall
          rw [← (List.cons.inj hall.2.1).1, hends] at hall
          exact absurd rfl hall.2.2.2
      · rw [if_neg hends]
        by_cases hdash : first.head? = some PositionalScripts.dash
        · rw [if_pos hdash]
          constructor
          · intro hreplaced
            cases hreplaced
          · intro hall
            rw [← (List.cons.inj hall.2.1).1] at hall
            exact absurd hdash hall.2.2.2
        · rw [if_neg hdash]
          cases first with
          | nil =>
              constructor
              · intro hreplaced
                cases hreplaced
              · intro hall
                exact absurd (List.cons.inj hall.2.1).1.symm hall.2.2.1
          | cons unit others =>
              constructor
              · intro hreplaced
                cases hreplaced
                exact ⟨rfl, rfl, List.cons_ne_nil _ _, hdash⟩
              · intro hall
                rcases hall with ⟨rfl, hwords, -, -⟩
                rcases List.cons.inj hwords with ⟨rfl, rfl⟩
                rfl

section

variable {operatingSystem executable : Text} {pid : Nat}
  {arguments : List Text} {environment : Text → Option Text}

/-- Outside of a bundle the shell gets the words as they are. -/
theorem onPosix_forHost (hsystem : operatingSystem ≠ windows)
    (hbundle : operatingSystem = macos →
      Instance.indexOf bundleMarker executable = none)
    (utility : Calls → List Text → Bool) (fuel : Nat) :
    onPosix utility fuel
        (forHost operatingSystem executable pid arguments environment) =
      PositionalScripts.run utility
        ⟨text (toString pid),
          (intended operatingSystem executable environment ::
            arguments).map repaired⟩ fuel waitingScript [] := by
  have hpid : repaired (text (toString pid)) = text (toString pid) := by
    apply repaired_eq_self_of_forall
    intro unit hunit
    have hmem : unit ∈ scriptCode pid := by
      simp only [scriptCode, List.mem_append]
      exact Or.inl (Or.inl (Or.inl (Or.inr hunit)))
    exact not_isSurrogate_of_lt (lt_of_mem_scriptCode hmem).1
  have hwords : (if operatingSystem = macos then
        macosCommand executable arguments
      else linuxExecutable executable environment :: arguments) =
      intended operatingSystem executable environment :: arguments := by
    unfold intended
    by_cases hmacos : operatingSystem = macos
    · rw [if_pos hmacos, if_pos (Or.inr hmacos), macosCommand, hbundle hmacos]
    · rw [if_neg hmacos, if_neg]
      exact fun heither => heither.elim hsystem hmacos
  unfold forHost
  rw [if_neg hsystem, hwords]
  unfold onPosix
  dsimp only
  rw [if_pos ⟨rfl, rfl, text_waitingScript.symm⟩, hpid]

/-- The words that take the place of the shell. -/
theorem expand_parameters (zero : Text) (others : List Text) :
    (⟨zero, others⟩ : Parameters).expand [.parameters] = others := by
  simp [Parameters.expand, Parameters.wordsOf]

end

/-- The app is started as it was given exactly when every text is of whole
characters, no literal of PowerShell has a curly quote, and the shell gets no
executable that begins with a dash. -/
theorem startsAsGiven_iff {operatingSystem executable : Text} (pid : Nat)
    (arguments : List Text) (environment : Text → Option Text)
    (hbundle : operatingSystem = macos →
      Instance.indexOf bundleMarker executable = none) :
    StartsAsGiven operatingSystem executable pid arguments environment ↔
      Sure operatingSystem
        (intended operatingSystem executable environment) arguments := by
  unfold StartsAsGiven
  dsimp only
  by_cases hsystem : operatingSystem = windows
  · subst hsystem
    have hintended : intended windows executable environment = executable :=
      if_pos (Or.inl rfl)
    rw [if_pos rfl, onWindows_forHost, hintended]
    constructor
    · intro hstarts
      rcases sure_of_powerShell hstarts with ⟨hnamed, hwhole, hstraight⟩
      exact ⟨hnamed, hwhole, fun _ => hstraight, fun hne => absurd rfl hne⟩
    · intro hsure
      have hscript : wellFormed (windowsScript pid executable arguments) =
          true := by
        rw [wellFormed_windowsScript, List.all_eq_true]
        exact hsure.whole
      rw [repaired_eq_self hscript]
      exact powerShell_windowsScript pid hsure.named (hsure.straight rfl)
  · rw [if_neg hsystem]
    generalize hwords : intended operatingSystem executable environment =
      started
    have hposix := @onPosix_forHost operatingSystem executable pid arguments
      environment hsystem hbundle
    rw [hwords] at hposix
    have hlength : ((started :: arguments).map repaired).length =
        arguments.length + 1 := by simp
    constructor
    · intro hstarts
      rcases hstarts (fun _ _ => false) 0 (fun _ _ => rfl) with
        ⟨fuel, calls, hrun, -⟩
      rw [hposix] at hrun
      rcases PositionalScripts.run_waiting_exec_eq_some hrun with
        ⟨found, houtcome⟩
      rw [expand_parameters] at houtcome
      have hreplaced := (execute_eq_replaced_iff hlength).mp houtcome.symm
      rcases hreplaced with ⟨-, hsame, hnamed, hdash⟩
      have hwhole : ∀ word ∈ started :: arguments, repaired word = word :=
        List.map_inj_left.mp (hsame.trans (List.map_id _).symm)
      refine ⟨hnamed, ?_, fun hwindows => absurd hwindows hsystem,
        fun _ => hdash⟩
      exact fun word hword => repaired_eq_self_iff.mp (hwhole word hword)
    · intro hsure utility most hleft
      have hexpand : (⟨text (toString pid),
          (started :: arguments).map repaired⟩ : Parameters).expand
            killWords =
          [text "kill", text "-0", text (toString pid)] := rfl
      rcases @PositionalScripts.exists_run_waiting_exec utility
        ⟨text (toString pid), (started :: arguments).map repaired⟩ killWords
        sleepWords [.parameters] most hleft with ⟨fuel, calls, hrun, hknown⟩
      have hsame : (started :: arguments).map repaired =
          started :: arguments := by
        apply (List.map_congr_left _).trans (List.map_id _)
        exact fun word hword => repaired_eq_self (hsure.whole word hword)
      refine ⟨fuel, calls, ?_, hknown⟩
      rw [hposix]
      refine hrun.trans (congrArg some ?_)
      rw [expand_parameters, execute_eq_replaced_iff hlength]
      exact ⟨rfl, hsame, hsure.named, hsure.undashed hsystem⟩

/-- A path with an apostrophe and arguments with quotes and backslashes. -/
theorem startsAsGiven_oNeil :
    StartsAsGiven windows (text "C:\\Users\\O'Neil\\probe.exe") 42
      [text "say \"hi\"", text "C:\\my dir\\", text "it's", []]
      fun _ => none := by
  rw [startsAsGiven_iff 42 _ _ (by decide)]
  constructor
  case named => decide
  case whole =>
    simp only [text_ofList]
    decide
  case straight =>
    intro _
    simp only [text_ofList]
    decide
  case undashed =>
    intro hne
    exact absurd rfl hne

/-- The curly quote of an argument ends the literal, and what follows is a
command. -/
theorem not_startsAsGiven_curly :
    ¬ StartsAsGiven windows (text "C:\\probe.exe") 42
      [text "’; calc; ’"] fun _ => none := by
  intro hstarts
  unfold StartsAsGiven at hstarts
  dsimp only at hstarts
  rw [if_pos rfl, onWindows_forHost] at hstarts
  have hstraight := (sure_of_powerShell hstarts).2.2 (text "’; calc; ’")
    (by simp)
  revert hstraight
  simp only [text_ofList]
  decide

end Dovetail.Relaunch
