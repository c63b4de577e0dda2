import Dovetail.QuotedCommands
import Dovetail.UpdaterInstallers

/-!
# The swap as an administrator

The line `MacosInstaller` hands to `osascript`: a string of AppleScript with
commands of the shell in it, where both paths stand between escaped double
quotes as they are.
-/

namespace Dovetail.Updater.MacosInstaller

open CodeUnits ShellScript QuotedCommands

/-! ## The line -/

def opening : Text := text "do shell script \""

def privileges : Text := text " with administrator privileges"

/-- What stands between the quotes of the string. -/
def swapString (bundlePath incoming : Text) : Text :=
  text "rm -rf \\\"" ++ bundlePath ++ text "\\\" && " ++
    text "mv -f \\\"" ++ incoming ++ text "\\\" \\\"" ++ bundlePath ++
    text "\\\""

def swapScript (bundlePath incoming : Text) : Text :=
  opening ++ swapString bundlePath incoming ++ text "\" " ++
    text "with administrator privileges"

/-! ## What is run -/

/-- The commands run as an administrator, where the source is one string
between these words. -/
def administratorCommands (parameters : Text → Text) (source : Text) :
    Option (List (List Text)) :=
  if opening.isPrefixOf source then
    match readLiteral (source.drop opening.length) with
    | none => none
    | some (content, after) =>
        if after = privileges then commands parameters content else none
  else none

def removal (bundlePath : Text) : List Text :=
  [text "rm", text "-rf", bundlePath]

def move (incoming bundlePath : Text) : List Text :=
  [text "mv", text "-f", incoming, bundlePath]

/-- The two commands are run on these paths, whatever the parameters of the
shell are. -/
def SwapsExactly (bundlePath incoming : Text) : Prop :=
  ∀ parameters, administratorCommands parameters
    (swapScript bundlePath incoming) =
      some [removal bundlePath, move incoming bundlePath]

theorem administratorCommands_swapScript (parameters : Text → Text)
    (bundlePath incoming : Text) :
    administratorCommands parameters (swapScript bundlePath incoming) =
      match readLiteral (swapString bundlePath incoming ++
        doubleQuote :: privileges) with
      | none => none
      | some (content, after) =>
          if after = privileges then commands parameters content
          else none := by
  have hsplit : swapScript bundlePath incoming =
      opening ++ (swapString bundlePath incoming ++
        doubleQuote :: privileges) := by
    have hclosing : text "\" " ++ text "with administrator privileges" =
        doubleQuote :: privileges := by decide
    rw [swapScript, List.append_assoc, List.append_assoc, hclosing]
  have hopening : opening.isPrefixOf (opening ++
      (swapString bundlePath incoming ++ doubleQuote :: privileges)) = true :=
    List.isPrefixOf_iff_prefix.mpr (List.prefix_append _ _)
  unfold administratorCommands
  rw [hsplit, if_pos hopening, List.drop_left]

/-! ## Quotes and backslashes -/

/-- Both commands read back leave no room for a quote or a backslash in the
paths. -/
theorem not_mem_of_swapsExactly {bundlePath incoming : Text}
    (hswaps : SwapsExactly bundlePath incoming) :
    (doubleQuote ∉ bundlePath ∧ backslash ∉ bundlePath) ∧
      doubleQuote ∉ incoming ∧ backslash ∉ incoming := by
  have hread := hswaps fun _ => []
  rw [administratorCommands_swapScript] at hread
  split at hread
  · cases hread
  · next content after hliteral =>
      split at hread
      · next hafter =>
          rcases readLiteral_eq_some hliteral with
            ⟨raw, hraw, hquotes, hcount⟩
          rw [hafter] at hraw
          have hwhole := List.append_cancel_right hraw
          have hfound := count_of_commands hread
          have hopen : (text "rm -rf \\\"").count backslash = 1 ∧
              (text "rm -rf \\\"").count doubleQuote = 1 ∧
              (text "\\\" && ").count backslash = 1 ∧
              (text "\\\" && ").count doubleQuote = 1 ∧
              (text "mv -f \\\"").count backslash = 1 ∧
              (text "mv -f \\\"").count doubleQuote = 1 := by decide
          have hclose : (text "\\\" \\\"").count backslash = 2 ∧
              (text "\\\" \\\"").count doubleQuote = 2 ∧
              (text "\\\"").count backslash = 1 ∧
              (text "\\\"").count doubleQuote = 1 := by decide
          have hwords : (text "rm").count backslash = 0 ∧
              (text "-rf").count backslash = 0 ∧
              (text "mv").count backslash = 0 ∧
              (text "-f").count backslash = 0 := by decide
          rw [← hwhole] at hquotes hcount
          simp only [swapString, List.count_append] at hquotes hcount
          simp only [removal, move, List.flatten_cons, List.flatten_nil,
            List.flatten_append, List.append_nil, List.count_append] at hfound
          simp only [← List.count_eq_zero]
          omega
      · cases hread

/-! ## What the shell is given -/

section

variable {bundlePath incoming : Text}
  (hbundle : doubleQuote ∉ bundlePath ∧ backslash ∉ bundlePath)
  (hincoming : doubleQuote ∉ incoming ∧ backslash ∉ incoming)
include hbundle hincoming

theorem readLiteral_swapString :
    readLiteral (swapString bundlePath incoming ++
        doubleQuote :: privileges) =
      some (text "rm -rf \"" ++ (bundlePath ++ [doubleQuote] ++
        (text " && mv -f \"" ++ (incoming ++ [doubleQuote] ++
        (text " \"" ++ (bundlePath ++ [doubleQuote]))))), privileges) := by
  have hescaped : ∀ rest, readLiteral (backslash :: doubleQuote :: rest) =
      (readLiteral rest).map fun found =>
        (doubleQuote :: found.1, found.2) := by
    intro rest
    have hmeant : unescape? doubleQuote = some doubleQuote := rfl
    have hother : backslash ≠ doubleQuote := by decide
    rw [readLiteral.eq_def]
    simp only [if_neg hother, if_true, hmeant]
    cases readLiteral rest <;> rfl
  have hsplit : swapString bundlePath incoming ++ doubleQuote :: privileges =
      text "rm -rf " ++ (backslash :: doubleQuote :: (bundlePath ++
        (backslash :: doubleQuote :: (text " && mv -f " ++
        (backslash :: doubleQuote :: (incoming ++
        (backslash :: doubleQuote :: (text " " ++
        (backslash :: doubleQuote :: (bundlePath ++
        (backslash :: doubleQuote :: doubleQuote :: privileges))))))))))) := by
    have htexts : text "rm -rf \\\"" =
          text "rm -rf " ++ [backslash, doubleQuote] ∧
        text "\\\" && " = [backslash, doubleQuote] ++ text " && " ∧
        text "mv -f \\\"" = text "mv -f " ++ [backslash, doubleQuote] ∧
        text "\\\" \\\"" = [backslash, doubleQuote] ++ text " " ++
          [backslash, doubleQuote] ∧
        text "\\\"" = [backslash, doubleQuote] ∧
        text " && mv -f " = text " && " ++ text "mv -f " := by decide
    rw [swapString, htexts.1, htexts.2.1, htexts.2.2.1, htexts.2.2.2.1,
      htexts.2.2.2.2.1, htexts.2.2.2.2.2]
    simp only [List.append_assoc, List.cons_append, List.nil_append]
  have hend : readLiteral (doubleQuote :: privileges) =
      some ([], privileges) := rfl
  rw [hsplit, readLiteral_append (by decide) (by decide), hescaped,
    readLiteral_append hbundle.1 hbundle.2, hescaped,
    readLiteral_append (by decide) (by decide), hescaped,
    readLiteral_append hincoming.1 hincoming.2, hescaped,
    readLiteral_append (by decide) (by decide), hescaped,
    readLiteral_append hbundle.1 hbundle.2, hescaped, hend]
  have htexts : text "rm -rf \"" = text "rm -rf " ++ [doubleQuote] ∧
      text " && mv -f \"" = text " && mv -f " ++ [doubleQuote] ∧
      text " \"" = text " " ++ [doubleQuote] := by decide
  rw [htexts.1, htexts.2.1, htexts.2.2]
  simp only [Option.map_some, List.append_assoc, List.cons_append,
    List.nil_append]

/-- The commands whose paths are what the double-quoted texts expand to. -/
theorem administratorCommands_eq (parameters : Text → Text) :
    administratorCommands parameters (swapScript bundlePath incoming) = do
      let removed ← expand parameters .plain bundlePath
      let moved ← expand parameters .plain incoming
      return [removal removed, move moved removed] := by
  rw [administratorCommands_swapScript,
    readLiteral_swapString hbundle hincoming]
  dsimp only
  rw [if_pos rfl]
  have hplain : Inside.plain ≠ .escaped := by simp
  have hfirst : Reading.start.steps parameters (text "rm -rf \"") =
      some ⟨.double .plain, [], [text "rm", text "-rf"], some []⟩ := rfl
  have hsecond : ∀ removed, Reading.steps parameters
      ⟨.unquoted, [], [text "rm", text "-rf"], some ([] ++ removed)⟩
      (text " && mv -f \"") =
        some ⟨.double .plain, [removal removed], [text "mv", text "-f"],
          some []⟩ := fun _ => rfl
  have hthird : ∀ removed moved, Reading.steps parameters
      ⟨.unquoted, [removal removed], [text "mv", text "-f"],
        some ([] ++ moved)⟩ (text " \"") =
        some ⟨.double .plain, [removal removed],
          [text "mv", text "-f", moved], some []⟩ := fun _ _ => rfl
  unfold commands
  rw [Reading.steps_append, hfirst, Option.bind_some, Reading.steps_append,
    steps_double hplain hbundle.1 hbundle.2]
  cases hremoved : expand parameters .plain bundlePath with
  | none => rfl
  | some removed =>
      rw [Option.map_some, Option.bind_some, Reading.steps_append,
        hsecond, Option.bind_some, Reading.steps_append,
        steps_double hplain hincoming.1 hincoming.2]
      cases expand parameters .plain incoming with
      | none => rfl
      | some moved =>
          rw [Option.map_some, Option.bind_some, Reading.steps_append,
            hthird, Option.bind_some,
            steps_double hplain hbundle.1 hbundle.2, hremoved]
          rfl

end

def pricePath : Text := text "/Users/ana/cost$x/Demo.app"

def scratchPath : Text := text "/tmp/dovetail_up1/Demo.app"

end Dovetail.Updater.MacosInstaller
