import Dovetail.CodeUnits

/-!
# Texts in shell scripts

A script is code with texts put between its quotes and into its
here-documents.  The shell reads nothing but the whole of it: a value ends
at the first unit that does not stand for itself, and a here-document at the
first line that is its delimiter.  A script is read back when all its code
is found where it was put, and then its effect is that of the values found
between.
-/

namespace ShellScript

open CodeUnits

def quote : UInt16 := 39

def doubleQuote : UInt16 := 34

def backslash : UInt16 := 92

def hash : UInt16 := 35

def nul : UInt16 := 0

/-- A value that can stand between single quotes. -/
def Quotable (value : Text) : Prop := quote ∉ value ∧ nul ∉ value

instance (value : Text) : Decidable (Quotable value) :=
  inferInstanceAs (Decidable (_ ∧ _))

@[simp] theorem quotable_append {before after : Text} :
    Quotable (before ++ after) ↔ Quotable before ∧ Quotable after := by
  simp only [Quotable, List.mem_append]
  tauto

/-! ## Quoting -/

/-- How the next unit is read: where a word can start or further in, after a
backslash, between quotes, or in a comment. -/
inductive Quoting
  | start
  | word
  | escaped
  | single
  | double
  | doubleEscaped
  | comment
  deriving DecidableEq

/-- Blanks, newlines and operators. -/
def endsWord (unit : UInt16) : Bool := unit ∈ text " \t\n;&|<>()"

namespace Quoting

def unquoted (unit : UInt16) : Quoting :=
  if unit = quote then .single
  else if unit = doubleQuote then .double
  else if unit = backslash then .escaped
  else if endsWord unit then .start
  else .word

def next : Quoting → UInt16 → Quoting
  | .start, unit => if unit = hash then .comment else unquoted unit
  | .word, unit => unquoted unit
  | .escaped, _ => .word
  | .single, unit => if unit = quote then .word else .single
  | .double, unit =>
      if unit = doubleQuote then .word
      else if unit = backslash then .doubleEscaped
      else .double
  | .doubleEscaped, _ => .double
  | .comment, unit => if unit = newline then .start else .comment

def scan (quoting : Quoting) (units : Text) : Quoting :=
  units.foldl next quoting

/-- The unit stands for itself. -/
def holds : Quoting → UInt16 → Bool
  | .single, unit => unit != quote
  | .double, unit => unit ∉ text "\"$`\\"
  | _, _ => false

end Quoting

/-! ## Scripts -/

/-- A piece of a script.  The delimiter of a document is quoted where the
document is announced, so nothing in its lines is expanded. -/
inductive Part
  | code (units : Text)
  | literal (value : Text)
  | document (delimiter : Text) (lines : List Text)

/-- Lines, each with the newline that ends it. -/
def linesText (lines : List Text) : Text :=
  lines.flatMap (· ++ [newline])

@[simp] theorem linesText_nil : linesText [] = [] := rfl

namespace Part

def text : Part → Text
  | .code units => units
  | .literal value => value
  | .document delimiter lines => linesText lines ++ delimiter

def values : Part → List Text
  | .code _ => []
  | .literal value => [value]
  | .document _ lines => [linesText lines]

/-- The place of a value without the value. -/
def blank : Part → Part
  | .code units => .code units
  | .literal _ => .literal []
  | .document delimiter _ => .document delimiter []

end Part

def scriptText (parts : List Part) : Text := parts.flatMap Part.text

def values (parts : List Part) : List Text := parts.flatMap Part.values

/-- A line and what it does with the values found in it. -/
structure Line (Effect : Type) where
  parts : List Part
  effect : List Text → List Effect

def Line.code {Effect : Type} (units : Text) : Line Effect :=
  ⟨[.code units], fun _ => []⟩

def scriptParts {Effect : Type} (lines : List (Line Effect)) : List Part :=
  lines.flatMap fun line => line.parts ++ [.code [newline]]

/-! ## Reading -/

/-- The lines before the one that is the delimiter, and what follows it. -/
def readDocument (delimiter source : Text) : Option (Text × Text) :=
  let lines := source.splitOn newline
  match lines.dropWhile (· != delimiter) with
  | [] => none
  | _ :: rest =>
      some (linesText (lines.takeWhile (· != delimiter)),
        rest.flatMap (newline :: ·))

/-- What the shell finds in the places of the values. -/
def readBack : Quoting → List Part → Text → Option (List Text)
  | quoting, [], source =>
      if source = [] ∧ quoting = .start then some [] else none
  | quoting, .code units :: parts, source =>
      if units.isPrefixOf source then
        readBack (quoting.scan units) parts (source.drop units.length)
      else none
  | quoting, .literal _ :: parts, source =>
      (readBack quoting parts (source.dropWhile quoting.holds)).map
        (source.takeWhile quoting.holds :: ·)
  | quoting, .document delimiter _ :: parts, source =>
      if quoting = .start then
        match readDocument delimiter source with
        | none => none
        | some (body, rest) => (readBack .word parts rest).map (body :: ·)
      else none

def effects {Effect : Type} : List (Line Effect) → List Text → List Effect
  | [], _ => []
  | line :: lines, found =>
      let count := (values line.parts).length
      line.effect (found.take count) ++ effects lines (found.drop count)

/-- What a script does, line by line.  No text with a zero unit in it is a
script. -/
def run {Effect : Type} (lines : List (Line Effect)) : Option (List Effect) :=
  let source := scriptText (scriptParts lines)
  if nul ∈ source then none
  else (readBack .start (scriptParts lines) source).map (effects lines)

/-! ## Templates -/

/-- The next part is code that begins with such a unit. -/
def closed (ends : UInt16 → Bool) : List Part → Bool
  | .code (unit :: _) :: _ => ends unit
  | _ => false

/-- Values stand between quotes and documents at the start of a line,
whatever they are. -/
def wellQuoted : Quoting → List Part → Bool
  | quoting, [] => quoting = .start
  | quoting, .code units :: parts => wellQuoted (quoting.scan units) parts
  | quoting, .literal _ :: parts =>
      closed (fun unit => !quoting.holds unit) parts && wellQuoted quoting parts
  | quoting, .document delimiter _ :: parts =>
      quoting = .start && newline ∉ delimiter && closed (· == newline) parts &&
        wellQuoted .word parts

/-- No value ends its own place. -/
def Contained : Quoting → List Part → Prop
  | _, [] => True
  | quoting, .code units :: parts => Contained (quoting.scan units) parts
  | quoting, .literal value :: parts =>
      (∀ unit ∈ value, quoting.holds unit = true) ∧ Contained quoting parts
  | _, .document delimiter lines :: parts =>
      (∀ line ∈ lines, line ≠ delimiter ∧ newline ∉ line) ∧
        Contained .word parts

@[simp] theorem scriptText_cons (part : Part) (parts : List Part) :
    scriptText (part :: parts) = part.text ++ scriptText parts := rfl

@[simp] theorem scriptText_append (before after : List Part) :
    scriptText (before ++ after) = scriptText before ++ scriptText after :=
  List.flatMap_append

@[simp] theorem values_cons (part : Part) (parts : List Part) :
    values (part :: parts) = part.values ++ values parts := rfl

@[simp] theorem values_append (before after : List Part) :
    values (before ++ after) = values before ++ values after :=
  List.flatMap_append

theorem closed_blank (ends : UInt16 → Bool) (parts : List Part) :
    closed ends (parts.map Part.blank) = closed ends parts := by
  rcases parts with _ | ⟨_ | _ | _, parts⟩ <;> try rfl
  next units => cases units <;> rfl

/-- Whether a script is well quoted does not depend on its values. -/
theorem wellQuoted_blank (quoting : Quoting) (parts : List Part) :
    wellQuoted quoting (parts.map Part.blank) = wellQuoted quoting parts := by
  induction parts generalizing quoting with
  | nil => rfl
  | cons part parts ih =>
      cases part <;> simp [Part.blank, wellQuoted, closed_blank, ih]

theorem closed_append {ends : UInt16 → Bool} {parts : List Part}
    (hclosed : closed ends parts = true) (after : List Part) :
    closed ends (parts ++ after) = true := by
  match parts, hclosed with
  | .code (unit :: units) :: parts, hclosed => exact hclosed

theorem wellQuoted_append {quoting : Quoting} {before after : List Part}
    (hbefore : wellQuoted quoting before = true)
    (hafter : wellQuoted .start after = true) :
    wellQuoted quoting (before ++ after) = true := by
  induction before generalizing quoting with
  | nil =>
      have hstart : quoting = .start := by simpa [wellQuoted] using hbefore
      rw [hstart]
      exact hafter
  | cons part parts ih =>
      cases part with
      | code units => exact ih hbefore
      | literal value =>
          simp only [wellQuoted, Bool.and_eq_true] at hbefore
          simp [wellQuoted, closed_append hbefore.1, ih hbefore.2]
      | document delimiter lines =>
          simp only [wellQuoted, Bool.and_eq_true] at hbefore
          obtain ⟨⟨hplace, hclosed⟩, hrest⟩ := hbefore
          simp [wellQuoted, hplace, closed_append hclosed, ih hrest]

theorem contained_append {quoting : Quoting} {before after : List Part}
    (hquoted : wellQuoted quoting before = true)
    (hbefore : Contained quoting before) (hafter : Contained .start after) :
    Contained quoting (before ++ after) := by
  induction before generalizing quoting with
  | nil =>
      have hstart : quoting = .start := by simpa [wellQuoted] using hquoted
      rw [hstart]
      exact hafter
  | cons part parts ih =>
      cases part with
      | code units => exact ih hquoted hbefore
      | literal value =>
          simp only [wellQuoted, Bool.and_eq_true] at hquoted
          exact ⟨hbefore.1, ih hquoted.2 hbefore.2⟩
      | document delimiter lines =>
          simp only [wellQuoted, Bool.and_eq_true] at hquoted
          exact ⟨hbefore.1, ih hquoted.2 hbefore.2⟩

/-! ## Values that stay in place are read back -/

theorem scriptText_of_closed {ends : UInt16 → Bool} {parts : List Part}
    (hclosed : closed ends parts = true) :
    ∃ unit rest, scriptText parts = unit :: rest ∧ ends unit = true := by
  match parts, hclosed with
  | .code (unit :: units) :: parts, hclosed =>
      exact ⟨unit, units ++ scriptText parts, rfl, hclosed⟩

theorem linesText_splitOn (source : Text) :
    linesText (source.splitOn newline) = source ++ [newline] := by
  have hjoin (lines : List Text) (hlines : lines ≠ []) :
      linesText lines = [newline].intercalate lines ++ [newline] := by
    induction lines with
    | nil => contradiction
    | cons line lines ih =>
        cases lines with
        | nil => simp [linesText]
        | cons other others =>
            rw [linesText, List.flatMap_cons, ← linesText, ih (by simp),
              List.intercalate_cons_cons]
            simp
  rw [hjoin _ (List.splitOn_ne_nil newline source), List.intercalate_splitOn]

/-- The newlines before lines and those behind them. -/
theorem flatMap_splitOn (source : Text) :
    (source.splitOn newline).flatMap (newline :: ·) = newline :: source := by
  have hshift (lines : List Text) :
      lines.flatMap (newline :: ·) ++ [newline] = newline :: linesText lines := by
    induction lines with
    | nil => rfl
    | cons line lines ih =>
        rw [List.flatMap_cons, List.append_assoc, ih]
        simp [linesText]
  have hlines := hshift (source.splitOn newline)
  rw [linesText_splitOn, ← List.cons_append] at hlines
  exact List.append_cancel_right hlines

/-- A text that ends in one newline, behind something else. -/
def Ended (source : Text) : Prop :=
  ∃ start unit, isSpace unit = false ∧ source = start ++ [unit, newline]

theorem Ended.trimRight_concat {source : Text} (hended : Ended source) :
    trimRight source ++ [newline] = source := by
  obtain ⟨start, unit, hunit, rfl⟩ := hended
  have hsplit : start ++ [unit, newline] = (start ++ [unit]) ++ [newline] := by
    simp
  rw [hsplit, trimRight_concat_of_isSpace isSpace_newline, trimRight,
    List.rdropWhile_concat_neg _ _ _ (by simp [hunit])]

/-- Such a text, put into a script line by line, is what a document gives. -/
theorem Ended.linesText_splitOn_trimRight {source : Text}
    (hended : Ended source) :
    linesText ((trimRight source).splitOn newline) = source := by
  rw [linesText_splitOn, hended.trimRight_concat]

theorem Ended.mem_splitOn {source line : Text} (hended : Ended source)
    (hline : line ∈ (trimRight source).splitOn newline) :
    line ∈ source.splitOn newline := by
  rw [← hended.trimRight_concat, List.splitOn_append_cons_self]
  exact List.mem_append_left _ hline

theorem splitOn_linesText {lines : List Text}
    (hlines : ∀ line ∈ lines, newline ∉ line) (rest : Text) :
    (linesText lines ++ rest).splitOn newline =
      lines ++ rest.splitOn newline := by
  induction lines with
  | nil => rfl
  | cons line lines ih =>
      have hsplit : linesText (line :: lines) ++ rest =
          line ++ newline :: (linesText lines ++ rest) := by
        simp [linesText]
      rw [hsplit, List.splitOn_append_cons_self_of_not_mem
        (hlines line (by simp)),
        ih fun other hmem => hlines other (by simp [hmem])]
      rfl

theorem readDocument_linesText {delimiter : Text} {lines : List Text}
    (hlines : ∀ line ∈ lines, line ≠ delimiter ∧ newline ∉ line)
    (hdelimiter : newline ∉ delimiter) (rest : Text) :
    readDocument delimiter (linesText lines ++ (delimiter ++ newline :: rest)) =
      some (linesText lines, newline :: rest) := by
  have hsplit : (linesText lines ++ (delimiter ++ newline :: rest)).splitOn
      newline = lines ++ delimiter :: rest.splitOn newline := by
    rw [splitOn_linesText fun line hmem => (hlines line hmem).2,
      List.splitOn_append_cons_self_of_not_mem hdelimiter]
  have hothers : ∀ line ∈ lines, (line != delimiter) = true :=
    fun line hmem => bne_iff_ne.mpr (hlines line hmem).1
  unfold readDocument
  simp only [hsplit, List.dropWhile_append_of_pos hothers,
    List.takeWhile_append_of_pos hothers]
  simp [flatMap_splitOn]

theorem readBack_scriptText {quoting : Quoting} {parts : List Part}
    (hquoted : wellQuoted quoting parts = true)
    (hcontained : Contained quoting parts) :
    readBack quoting parts (scriptText parts) = some (values parts) := by
  induction parts generalizing quoting with
  | nil =>
      have hstart : quoting = .start := by simpa [wellQuoted] using hquoted
      simp [readBack, scriptText, values, hstart]
  | cons part parts ih =>
      cases part with
      | code units =>
          have hrest := ih hquoted hcontained
          simpa [readBack, Part.text, Part.values] using hrest
      | literal value =>
          simp only [wellQuoted, Bool.and_eq_true] at hquoted
          obtain ⟨hvalue, hparts⟩ := hcontained
          obtain ⟨unit, rest, htext, hends⟩ := scriptText_of_closed hquoted.1
          have hstop : quoting.holds unit = false := by simpa using hends
          have hrest := ih hquoted.2 hparts
          simp only [scriptText_cons, Part.text, readBack,
            List.takeWhile_append_of_pos hvalue,
            List.dropWhile_append_of_pos hvalue]
          rw [htext] at hrest ⊢
          simp [hstop, hrest, Part.values]
      | document delimiter lines =>
          simp only [wellQuoted, Bool.and_eq_true, decide_eq_true_eq] at hquoted
          obtain ⟨⟨⟨hstart, hdelimiter⟩, hclosed⟩, hafter⟩ := hquoted
          obtain ⟨hlines, hparts⟩ := hcontained
          obtain ⟨unit, rest, htext, hends⟩ := scriptText_of_closed hclosed
          have hunit : unit = newline := by simpa using hends
          have hrest := ih hafter hparts
          rw [htext, hunit] at hrest
          simp [readBack, Part.text, Part.values, hstart, htext, hunit, hrest,
            readDocument_linesText hlines hdelimiter]

theorem effects_values {Effect : Type} (lines : List (Line Effect)) :
    effects lines (values (scriptParts lines)) =
      lines.flatMap fun line => line.effect (values line.parts) := by
  induction lines with
  | nil => rfl
  | cons line lines ih =>
      have hvalues : values (scriptParts (line :: lines)) =
          values line.parts ++ values (scriptParts lines) := by
        rw [scriptParts, List.flatMap_cons, values_append, values_append]
        simp [values, Part.values, scriptParts]
      simp [effects, hvalues, ih]

/-- The effects of a script in which no value ends its own place. -/
theorem run_eq_some {Effect : Type} {lines : List (Line Effect)}
    (hnul : nul ∉ scriptText (scriptParts lines))
    (hquoted : wellQuoted .start (scriptParts lines) = true)
    (hcontained : Contained .start (scriptParts lines)) :
    run lines =
      some (lines.flatMap fun line => line.effect (values line.parts)) := by
  simp only [run, if_neg hnul, readBack_scriptText hquoted hcontained,
    Option.map_some, effects_values]

theorem mem_scriptText_iff {unit : UInt16} {parts : List Part} :
    unit ∈ scriptText parts ↔
      unit ∈ scriptText (parts.map Part.blank) ∨
        ∃ value ∈ values parts, unit ∈ value := by
  induction parts with
  | nil => simp [scriptText, values]
  | cons part parts ih =>
      cases part <;>
        simp [Part.text, Part.values, Part.blank, ih] <;> tauto

/-! ## The places of values -/

/-- How values are quoted where they stand; a document counts as not. -/
def places : Quoting → List Part → List Quoting
  | _, [] => []
  | quoting, .code units :: parts => places (quoting.scan units) parts
  | quoting, .literal _ :: parts => quoting :: places quoting parts
  | _, .document _ _ :: parts => .start :: places .word parts

theorem places_blank (quoting : Quoting) (parts : List Part) :
    places quoting (parts.map Part.blank) = places quoting parts := by
  induction parts generalizing quoting with
  | nil => rfl
  | cons part parts ih => cases part <;> simp [Part.blank, places, ih]

/-- The value does not end such a place. -/
def Part.Fits (place : Quoting) : Part → Prop
  | .code _ => True
  | .literal value => ∀ unit ∈ value, place.holds unit = true
  | .document delimiter lines =>
      ∀ line ∈ lines, line ≠ delimiter ∧ newline ∉ line

def Part.isCode : Part → Bool
  | .code _ => true
  | _ => false

theorem contained_iff_forall₂ {quoting : Quoting} {parts : List Part} :
    Contained quoting parts ↔
      List.Forall₂ (fun place part => part.Fits place) (places quoting parts)
        (parts.filter (!·.isCode)) := by
  induction parts generalizing quoting with
  | nil => simp [Contained, places]
  | cons part parts ih =>
      cases part <;> simp [Contained, places, Part.isCode, Part.Fits, ih]

/-- Lines whose values are read back. -/
structure Sound {Effect : Type} (lines : List (Line Effect)) : Prop where
  quoted : wellQuoted .start (scriptParts lines) = true
  contained : Contained .start (scriptParts lines)
  whole : nul ∉ scriptText (scriptParts lines)

theorem scriptParts_append {Effect : Type} (before after : List (Line Effect)) :
    scriptParts (before ++ after) = scriptParts before ++ scriptParts after :=
  List.flatMap_append

theorem Sound.append {Effect : Type} {before after : List (Line Effect)}
    (hbefore : Sound before) (hafter : Sound after) :
    Sound (before ++ after) where
  quoted := by
    rw [scriptParts_append]
    exact wellQuoted_append hbefore.quoted hafter.quoted
  contained := by
    rw [scriptParts_append]
    exact contained_append hbefore.quoted hbefore.contained hafter.contained
  whole := by
    rw [scriptParts_append, scriptText_append, List.mem_append, not_or]
    exact ⟨hbefore.whole, hafter.whole⟩

theorem sound_of_forall {Effect : Type} {lines : List (Line Effect)}
    (hlines : ∀ line ∈ lines, Sound [line]) : Sound lines := by
  induction lines with
  | nil => exact ⟨rfl, trivial, by simp [scriptText, scriptParts]⟩
  | cons line lines ih =>
      exact (hlines line (by simp)).append
        (ih fun other hmem => hlines other (by simp [hmem]))

theorem Sound.run_eq {Effect : Type} {lines : List (Line Effect)}
    (hsound : Sound lines) :
    run lines =
      some (lines.flatMap fun line => line.effect (values line.parts)) :=
  run_eq_some hsound.whole hsound.quoted hsound.contained

/-- A template is judged without its values. -/
theorem sound_of_template {Effect : Type} {lines : List (Line Effect)}
    {template : List Part} {held : List Quoting}
    (htemplate : (scriptParts lines).map Part.blank = template)
    (hclosed : wellQuoted .start template = true ∧
      places .start template = held ∧ nul ∉ scriptText template)
    (hfits : List.Forall₂ (fun place part => part.Fits place) held
      ((scriptParts lines).filter (!·.isCode)))
    (hwhole : ∀ value ∈ values (scriptParts lines), nul ∉ value) :
    Sound lines := by
  subst htemplate
  obtain ⟨hquoted, rfl, hnul⟩ := hclosed
  rw [wellQuoted_blank] at hquoted
  rw [places_blank] at hfits
  refine ⟨hquoted, contained_iff_forall₂.mpr hfits, ?_⟩
  rw [mem_scriptText_iff, not_or]
  exact ⟨hnul, fun ⟨value, hvalue, hmem⟩ => hwhole value hvalue hmem⟩

/-! ## Values between single quotes -/

/-- The quotes of the code. -/
def codeQuotes (parts : List Part) : Nat :=
  (scriptText (parts.map Part.blank)).count quote

section SingleQuotes

variable {quoting : Quoting} {parts : List Part}

theorem count_quote_of_readBack {source : Text} {found : List Text}
    (hplaces : ∀ place ∈ places quoting parts, place = .single)
    (hread : readBack quoting parts source = some found) :
    source.count quote = codeQuotes parts := by
  induction parts generalizing quoting source found with
  | nil =>
      simp only [readBack, Option.ite_none_right_eq_some] at hread
      simp [hread.1.1, codeQuotes, scriptText]
  | cons part parts ih =>
      cases part with
      | code units =>
          simp only [readBack, Option.ite_none_right_eq_some] at hread
          obtain ⟨hlabel, hrest⟩ := hread
          obtain ⟨rest, rfl⟩ := List.isPrefixOf_iff_prefix.mp hlabel
          rw [List.drop_left] at hrest
          have hcount := ih hplaces hrest
          simp only [codeQuotes] at hcount
          simp [codeQuotes, Part.blank, Part.text, hcount]
      | literal value =>
          have hsingle : quoting = .single := hplaces quoting (by simp [places])
          obtain ⟨others, hrest, -⟩ := Option.map_eq_some_iff.mp hread
          have hcount := ih
            (fun place hmem => hplaces place (by simp [places, hmem])) hrest
          have hnone : (source.takeWhile quoting.holds).count quote = 0 := by
            rw [List.count_eq_zero, hsingle]
            intro hmem
            have hholds := List.mem_takeWhile_imp hmem
            simp [Quoting.holds] at hholds
          have hsplit := congrArg (List.count quote)
            (List.takeWhile_append_dropWhile (p := quoting.holds) (l := source))
          rw [List.count_append, hnone, hcount] at hsplit
          simp only [codeQuotes] at hsplit
          simp [codeQuotes, Part.blank, Part.text, ← hsplit]
      | document delimiter lines =>
          have hstart := hplaces .start (by simp [places])
          contradiction

theorem count_quote_scriptText
    (hplaces : ∀ place ∈ places quoting parts, place = .single) :
    (scriptText parts).count quote =
      codeQuotes parts + ((values parts).map (List.count quote)).sum := by
  induction parts generalizing quoting with
  | nil => rfl
  | cons part parts ih =>
      cases part with
      | code units =>
          have hcount := @ih (quoting.scan units) hplaces
          simp only [codeQuotes] at hcount
          simp [codeQuotes, Part.blank, Part.text, Part.values, hcount]
          omega
      | literal value =>
          have hcount := @ih quoting
            fun place hmem => hplaces place (by simp [places, hmem])
          simp only [codeQuotes] at hcount
          simp [codeQuotes, Part.blank, Part.text, Part.values, hcount]
          omega
      | document delimiter lines =>
          have hstart := hplaces .start (by simp [places])
          contradiction

theorem contained_iff
    (hplaces : ∀ place ∈ places quoting parts, place = .single) :
    Contained quoting parts ↔ ∀ value ∈ values parts, quote ∉ value := by
  induction parts generalizing quoting with
  | nil => simp [Contained, values]
  | cons part parts ih =>
      cases part with
      | code units =>
          have hrest := @ih (quoting.scan units) hplaces
          simpa [Contained, Part.values] using hrest
      | literal value =>
          have hsingle : quoting = .single := hplaces quoting (by simp [places])
          have hrest := @ih quoting
            fun place hmem => hplaces place (by simp [places, hmem])
          have hvalue : (∀ unit ∈ value, quoting.holds unit = true) ↔
              quote ∉ value := by
            simp [hsingle, Quoting.holds, List.forall_mem_ne']
          simp [Contained, Part.values, hrest, hvalue]
      | document delimiter lines =>
          have hstart := hplaces .start (by simp [places])
          contradiction

/-- Between single quotes nothing but a quote ends a value. -/
theorem readBack_eq_some_iff (hquoted : wellQuoted quoting parts = true)
    (hplaces : ∀ place ∈ places quoting parts, place = .single)
    {found : List Text} :
    readBack quoting parts (scriptText parts) = some found ↔
      (∀ value ∈ values parts, quote ∉ value) ∧ found = values parts := by
  rw [← contained_iff hplaces]
  constructor
  · intro hread
    have hcontained : Contained quoting parts := by
      rw [contained_iff hplaces]
      have hread := count_quote_of_readBack hplaces hread
      rw [count_quote_scriptText hplaces, Nat.add_eq_left, List.sum_eq_zero_iff]
        at hread
      intro value hvalue
      exact List.count_eq_zero.mp (hread _ (List.mem_map_of_mem hvalue))
    rw [readBack_scriptText hquoted hcontained] at hread
    exact ⟨hcontained, (Option.some.inj hread).symm⟩
  · rintro ⟨hcontained, rfl⟩
    exact readBack_scriptText hquoted hcontained

end SingleQuotes

theorem run_eq_some_iff {Effect : Type} {lines : List (Line Effect)}
    (hquoted : wellQuoted .start (scriptParts lines) = true)
    (hplaces : ∀ place ∈ places .start (scriptParts lines), place = .single)
    {done : List Effect} :
    run lines = some done ↔
      nul ∉ scriptText (scriptParts lines) ∧
        (∀ value ∈ values (scriptParts lines), quote ∉ value) ∧
        done = lines.flatMap fun line => line.effect (values line.parts) := by
  simp only [run, Option.ite_none_left_eq_some, Option.map_eq_some_iff,
    readBack_eq_some_iff hquoted hplaces]
  constructor
  · rintro ⟨hnul, found, ⟨hvalues, rfl⟩, rfl⟩
    exact ⟨hnul, hvalues, effects_values lines⟩
  · rintro ⟨hnul, hvalues, rfl⟩
    exact ⟨hnul, _, ⟨hvalues, rfl⟩, effects_values lines⟩

/-! ## Fields -/

/-- The units that separate fields unless the script says otherwise. -/
def separates (unit : UInt16) : Bool := unit ∈ text " \t\n"

/-- The fields of an expansion outside quotes. -/
def fields (source : Text) : List Text :=
  (source.splitOnP separates).filter (· ≠ [])

theorem mem_intercalate_iff {unit separator : UInt16} {words : List Text}
    (hother : unit ≠ separator) :
    unit ∈ [separator].intercalate words ↔ ∃ word ∈ words, unit ∈ word := by
  induction words with
  | nil => simp
  | cons word words ih =>
      cases words with
      | nil => simp
      | cons next words =>
          rw [List.intercalate_cons_cons]
          simp only [List.mem_append, ih, List.mem_singleton, hother]
          simp

theorem separates_of_mem_fields {source field : Text}
    (hfield : field ∈ fields source) : ∀ unit ∈ field, separates unit = false :=
  of_mem_splitOnP (List.mem_filter.mp hfield).1

theorem fields_intercalate {unit : UInt16} {words : List Text}
    (hunit : separates unit = true)
    (hwords : ∀ word ∈ words, word ≠ [] ∧ ∀ unit ∈ word, separates unit = false) :
    fields ([unit].intercalate words) = words := by
  induction words with
  | nil => rfl
  | cons word words ih =>
      obtain ⟨hfilled, hwhole⟩ := hwords word (by simp)
      have hothers := ih fun other hmem => hwords other (by simp [hmem])
      cases words with
      | nil =>
          simp [fields, List.splitOnP_eq_singleton hwhole, hfilled]
      | cons next words =>
          have hsplit : [unit].intercalate (word :: next :: words) =
              word ++ unit :: [unit].intercalate (next :: words) := by simp
          rw [fields, hsplit, List.splitOnP_append_cons_of_forall_mem hwhole _ hunit,
            List.filter_cons_of_pos (by simpa using hfilled)]
          exact congrArg (word :: ·) hothers

/-! ## Patterns -/

/-- Which names a word outside quotes stands for.  Only words with such a
unit stand for names other than themselves. -/
structure Globbing where
  stands : Text → Text → Bool
  plain : ∀ word, (∀ unit ∈ word, unit ∉ text "*?[\\") →
    ∀ name, stands word name = true ↔ name = word

namespace Globbing

/-- The names it stands for, or the word where there is none. -/
def expand (shell : Globbing) (files : List Text) (word : Text) : List Text :=
  match files.filter (shell.stands word) with
  | [] => [word]
  | names => names

/-- A shell told not to expand patterns. -/
def disabled : Globbing where
  stands word name := name = word
  plain word _ name := by simp

/-- The word stands for no other name. -/
def Sole (shell : Globbing) (word : Text) : Prop :=
  ∀ name, shell.stands word name = true → name = word

variable {shell : Globbing} {word : Text}

theorem expand_eq_of_sole (hsole : shell.Sole word) {files : List Text}
    (hfiles : files.Nodup) : shell.expand files word = [word] := by
  unfold expand
  have hnames : ∀ name ∈ files.filter (shell.stands word), name = word :=
    fun name hname => hsole name (List.mem_filter.mp hname).2
  have hdistinct := hfiles.filter (shell.stands word)
  match hkept : files.filter (shell.stands word), hnames, hdistinct with
  | [], _, _ => rfl
  | [name], hnames, _ => simp [hnames name (by simp)]
  | a :: b :: rest, hnames, hdistinct =>
      have hsame : a = b := by
        rw [hnames a (by simp), hnames b (by simp)]
      simp [hsame] at hdistinct

theorem expand_nil (shell : Globbing) (word : Text) :
    shell.expand [] word = [word] := rfl

theorem expand_singleton (shell : Globbing) (name word : Text) :
    shell.expand [name] word =
      [if shell.stands word name then name else word] := by
  by_cases hname : shell.stands word name = true <;> simp [expand, hname]

end Globbing

end ShellScript
