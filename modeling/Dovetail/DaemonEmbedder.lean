import Dovetail.DaemonPlists

/-!
# The daemon inside of a bundle

`DaemonEmbedder.plistFor` writes the property list of a daemon that its
application registers.  The arguments come with a line of their own where
there are none.
-/

namespace Dovetail.Bundler.DaemonEmbedder

open CodeUnits XmlDocuments XmlValues PropertyList
open MarkupText (text_join text_join_last)

def programPathFor (program : Text) : Text :=
  text "Contents/MacOS/" ++ program

def requireEmbeddableProgramName (program : Text) :
    Except BundleFailure Unit :=
  if ampersand ∈ program ∨ lessThan ∈ program ∨ greaterThan ∈ program then
    .error
      { message := text "service.macos.program is \"" ++ program ++
          text "\", and a program name cannot carry &, < or >."
        remedy := some (text "The name becomes a file inside Contents/MacOS, a path the signing step looks up, and a plist entry — only the last of the three would decode XML entities. Name the binary something the filesystem, the signer and the plist all agree on.") }
  else .ok ()

def argumentLine (argument : Text) : Text :=
  text "        <string>" ++ XmlText.contentText argument ++ text "</string>"

def renderLines (label embedded : Text) (arguments : List Text) :
    List Text :=
  [text "<?xml version=\"1.0\" encoding=\"UTF-8\"?>",
    text "<!DOCTYPE plist PUBLIC \"-//Apple//DTD PLIST 1.0//EN\" \"http://www.apple.com/DTDs/PropertyList-1.0.dtd\">",
    text "<plist version=\"1.0\">",
    text "<dict>",
    text "    <key>Label</key>",
    text "    <string>" ++ XmlText.contentText label ++ text "</string>",
    text "    <key>MachServices</key>",
    text "    <dict>",
    text "        <key>" ++ XmlText.contentText label ++ text "</key>",
    text "        <true/>",
    text "    </dict>",
    text "    <key>BundleProgram</key>",
    text "    <string>" ++ embedded ++ text "</string>",
    text "    <key>ProgramArguments</key>",
    text "    <array>",
    text "        <string>" ++ embedded ++ text "</string>",
    trimRight (arguments.flatMap fun argument =>
      argumentLine argument ++ [newline]),
    text "    </array>",
    text "    <key>RunAtLoad</key>",
    text "    <true/>",
    text "    <key>KeepAlive</key>",
    text "    <true/>",
    text "    <key>ProcessType</key>",
    text "    <string>Interactive</string>",
    text "    <key>StandardOutPath</key>",
    text "    <string>" ++
      XmlText.contentText (LaunchDaemon.logPathFor label) ++ text "</string>",
    text "    <key>StandardErrorPath</key>",
    text "    <string>" ++
      XmlText.contentText (LaunchDaemon.logPathFor label) ++ text "</string>",
    text "</dict>",
    text "</plist>",
    []]

def plistFor (label program : Text) (arguments : List Text) :
    Except BundleFailure Text := do
  requireEmbeddableProgramName program
  return [newline].intercalate
    (renderLines label (programPathFor program) arguments)

/-! ## Elements -/

section

variable (write : Text → Text) (label embedded : Text) (arguments : List Text)

def called : List Segment :=
  let gap := text "\n    "
  let inner := text "\n        "
  holding gap (text "array") []
    (string inner (write embedded) ++
      arguments.flatMap fun argument => string inner (write argument))
    (if arguments.isEmpty then text "\n" ++ gap else gap)

def entries : List Segment :=
  let gap := text "\n    "
  let inner := text "\n        "
  key gap (text "Label") ++ string gap (write label) ++
    key gap (text "MachServices") ++
    holding gap (text "dict") []
      (key inner (write label) ++ flag inner true) gap ++
    key gap (text "BundleProgram") ++ string gap (write embedded) ++
    key gap (text "ProgramArguments") ++ called write embedded arguments ++
    key gap (text "RunAtLoad") ++ flag gap true ++
    key gap (text "KeepAlive") ++ flag gap true ++
    key gap (text "ProcessType") ++ string gap (text "Interactive") ++
    key gap (text "StandardOutPath") ++
    string gap (write (LaunchDaemon.logPathFor label)) ++
    key gap (text "StandardErrorPath") ++
    string gap (write (LaunchDaemon.logPathFor label))

end

/-! ## Lines -/

/-- The end of the last line is cut off. -/
theorem trimRight_lines (arguments : List Text) (last : Text) :
    trimRight ((arguments ++ [last]).flatMap fun argument =>
        argumentLine argument ++ [newline]) =
      (arguments.flatMap fun argument => argumentLine argument ++ [newline]) ++
        argumentLine last := by
  have hlast : ∃ units, argumentLine last = units ++ [greaterThan] :=
    ⟨text "        <string>" ++ XmlText.contentText last ++ text "</string",
      by
        rw [List.append_assoc]
        rfl⟩
  rcases hlast with ⟨units, hunits⟩
  rw [List.flatMap_append, List.flatMap_singleton, ← List.append_assoc,
    trimRight_concat_of_isSpace isSpace_newline, hunits, ← List.append_assoc]
  apply List.rdropWhile_concat_neg
  decide

theorem newline_append_lines (arguments : List Text) (last : Text) :
    newline :: ((arguments.flatMap fun argument =>
        argumentLine argument ++ [newline]) ++ argumentLine last) =
      (arguments ++ [last]).flatMap fun argument =>
        newline :: argumentLine argument := by
  induction arguments with
  | nil => simp
  | cons argument rest ih =>
      rw [List.flatMap_cons, List.cons_append, List.flatMap_cons, ← ih]
      simp

/-- The lines of the arguments are their elements, and one line more where
there are none. -/
theorem newline_append_trimmed (arguments : List Text) :
    newline :: trimRight (arguments.flatMap fun argument =>
        argumentLine argument ++ [newline]) =
      (arguments.flatMap fun argument =>
        print (string (text "\n        ") (XmlText.contentText argument))) ++
        if arguments.isEmpty then text "\n" else [] := by
  have hline (argument : Text) : newline :: argumentLine argument =
      print (string (text "\n        ") (XmlText.contentText argument)) := by
    rw [string, print_element, argumentLine, List.append_assoc]
    rfl
  cases arguments using List.reverseRecOn with
  | nil => rfl
  | append_singleton arguments last =>
      rw [trimRight_lines, newline_append_lines]
      simp [hline]

theorem render_eq {label embedded : Text} (arguments : List Text)
    (hembedded : XmlText.contentText embedded = embedded) :
    [newline].intercalate (renderLines label embedded arguments) =
      print (document (entries XmlText.contentText label embedded
        arguments)) ++ text "\n" := by
  have hline (rest : Text) : newline :: rest = text "\n" ++ rest := rfl
  unfold renderLines entries called
  simp only [LaunchDaemon.intercalate_cons, List.flatMap_cons,
    newline_append_trimmed, hembedded, PropertyList.print_document]
  cases arguments.isEmpty <;>
    simp only [List.flatMap_nil, hline, List.append_assoc,
      List.append_nil, key, string, print_element,
      print_flag, print_part, print_append, print_flatMap, if_true,
      Bool.false_eq_true, if_false, text_join, text_join_last,
      String.reduceAppend]

/-! ## What is read -/

theorem part_called {write : Text → Text}
    (hwrite : ∀ value, lessThan ∉ write value) (embedded : Text)
    (arguments : List Text) : Part (called write embedded arguments) := by
  have hstring (value : Text) :
      Part (string (text "\n        ") (write value)) :=
    part_element (by decide) (by decide) (hwrite value)
  have hgap : lessThan ∉ if arguments.isEmpty then
      text "\n" ++ text "\n    " else text "\n    " := by
    split_ifs
    · decide
    · decide
  apply Part.holding
  · apply (hstring embedded).append
    exact part_flatMap fun argument _ => hstring argument
  · decide
  · exact hgap
  · exact ⟨by decide, by simp, by simp, by simp⟩

theorem part_entries {write : Text → Text}
    (hwrite : ∀ value, lessThan ∉ write value) (label embedded : Text)
    (arguments : List Text) :
    Part (entries write label embedded arguments) := by
  have hkey {gap value : Text} (hgap : lessThan ∉ gap)
      (hvalue : lessThan ∉ value) : Part (key gap value) :=
    part_element hgap (by decide) hvalue
  have hstring {gap value : Text} (hgap : lessThan ∉ gap)
      (hvalue : lessThan ∉ value) : Part (string gap value) :=
    part_element hgap (by decide) hvalue
  have hgap : lessThan ∉ text "\n    " := by decide
  have hinner : lessThan ∉ text "\n        " := by decide
  have hservices := ((hkey hinner (hwrite label)).append
    (part_flag hinner true)).holding hgap hgap
      (⟨by decide, by simp, by simp, by simp⟩ :
        (WrittenTag.starts (text "dict") [] [] false).Well)
  have hcalled := part_called hwrite embedded arguments
  unfold entries
  repeat' apply Part.append
  all_goals first
    | exact hservices
    | exact hcalled
    | exact part_flag hgap true
    | exact hstring hgap (hwrite _)
    | exact hkey hgap (by decide)
    | exact hstring hgap (by decide)

theorem attributesOf_entries (write : Text → Text) (label embedded : Text)
    (arguments : List Text) :
    attributesOf (entries write label embedded arguments) = [] := by
  simp [entries, called, key, string, element, flag, WrittenTag.attributes,
    attributesOf_flatMap]

theorem carries_logPathFor_iff (label : Text) :
    Place.content.Carries (LaunchDaemon.logPathFor label) ↔
      Place.content.Carries label := by
  rw [LaunchDaemon.logPathFor, Place.carries_append_plain (by decide),
    Place.carries_plain_append (by decide)]

theorem reads_entries_iff (label embedded : Text) (arguments : List Text) :
    Reads (entries XmlText.contentText label embedded arguments)
        (entries id label embedded arguments) ↔
      Place.content.Carries label ∧ Place.content.Carries embedded ∧
        ∀ argument ∈ arguments, Place.content.Carries argument := by
  have hgap : readValue .content (text "\n    ") = some (text "\n    ") := by
    decide
  have hinner : readValue .content (text "\n        ") =
      some (text "\n        ") := by decide
  have hlast : readValue .content (if arguments.isEmpty then
      text "\n" ++ text "\n    " else text "\n    ") =
        some (if arguments.isEmpty then
          text "\n" ++ text "\n    " else text "\n    ") := by
    split_ifs
    · decide
    · exact hgap
  have hnames : ∀ name ∈ [text "Label", text "MachServices",
      text "BundleProgram", text "ProgramArguments", text "RunAtLoad",
      text "KeepAlive", text "ProcessType", text "Interactive",
      text "StandardOutPath", text "StandardErrorPath"],
      readValue .content name = some name := by decide
  simp only [List.forall_mem_cons, List.not_mem_nil, false_implies,
    implies_true, and_true] at hnames
  have harguments : Reads
      (arguments.flatMap fun argument =>
        element (text "\n        ") (text "string")
          (XmlText.contentText argument))
      (arguments.flatMap fun argument =>
        element (text "\n        ") (text "string") argument) ↔
      ∀ argument ∈ arguments, Place.content.Carries argument := by
    refine (reads_flatMap fun _ => by rfl).trans ?_
    simp only [reads_element hinner, XmlText.readValue_contentText_iff]
  simp only [entries, called, id_eq, key, string, reads_append,
    reads_holding hgap, reads_element hgap, length_holding, length_element,
    length_flag, List.length_append, List.length_flatMap]
  simp only [reads_element hinner, reads_flag hgap, reads_flag hinner,
    harguments, hnames, hgap, hlast, XmlText.readValue_contentText_iff,
    carries_logPathFor_iff, List.mapM_nil, List.map_nil]
  constructor
  · intro hall
    simp at hall
    tauto
  · rintro ⟨hlabel, hembedded, hgiven⟩
    simp [hlabel, hembedded]
    exact hgiven

end Dovetail.Bundler.DaemonEmbedder

namespace Dovetail.Bundler

open CodeUnits XmlDocuments XmlValues

/-- A daemon whose program can be inside of a bundle. -/
structure EmbeddedDaemon where
  label : Text
  program : Text
  arguments : List Text
  embeddable :
    DaemonEmbedder.requireEmbeddableProgramName program = .ok ()

namespace EmbeddedDaemon

variable (daemon : EmbeddedDaemon)

def programPath : Text := DaemonEmbedder.programPathFor daemon.program

def plist : Text :=
  [newline].intercalate
    (DaemonEmbedder.renderLines daemon.label daemon.programPath
      daemon.arguments)

theorem plistFor_eq :
    DaemonEmbedder.plistFor daemon.label daemon.program daemon.arguments =
      .ok daemon.plist := by
  unfold DaemonEmbedder.plistFor
  rw [daemon.embeddable]
  rfl

/-- A processor reads the property list as it was meant. -/
def Survives : Prop :=
  read daemon.plist =
    some ((PropertyList.document (DaemonEmbedder.entries id daemon.label
      daemon.programPath daemon.arguments)).map Segment.meant)

theorem contentText_programPath :
    XmlText.contentText daemon.programPath = daemon.programPath := by
  have haccepted := daemon.embeddable
  unfold DaemonEmbedder.requireEmbeddableProgramName at haccepted
  split_ifs at haccepted with hmarks
  simp only [not_or] at hmarks
  apply XmlText.contentText_eq_self
  intro mark hmark hmem
  have hpath : ∀ mark ∈ [ampersand, lessThan, greaterThan],
      mark ∉ text "Contents/MacOS/" := by decide
  have hprogram : mark ∈ daemon.program :=
    (List.mem_append.mp hmem).resolve_left (hpath mark hmark)
  simp only [List.mem_cons, List.not_mem_nil, or_false] at hmark
  rcases hmark with rfl | rfl | rfl
  · exact hmarks.1 hprogram
  · exact hmarks.2.1 hprogram
  · exact hmarks.2.2 hprogram

/-- The property list is read as it was meant exactly where its label, its
program and its arguments are. -/
theorem embedded_survives_iff :
    daemon.Survives ↔
      Place.content.Carries daemon.label ∧
        Place.content.Carries daemon.program ∧
        ∀ argument ∈ daemon.arguments, Place.content.Carries argument := by
  have hmark : ∀ value, lessThan ∉ XmlText.contentText value := by
    intro value
    rw [XmlText.contentText_eq]
    exact Entities.mark_not_mem_write (by decide) value
  have hlength : (DaemonEmbedder.entries XmlText.contentText daemon.label
      daemon.programPath daemon.arguments).length =
        (DaemonEmbedder.entries id daemon.label daemon.programPath
          daemon.arguments).length := by
    simp [DaemonEmbedder.entries, DaemonEmbedder.called, PropertyList.key,
      PropertyList.string, List.length_flatMap]
  have hpath : Place.content.Carries daemon.programPath ↔
      Place.content.Carries daemon.program := by
    rw [programPath, DaemonEmbedder.programPathFor,
      Place.carries_plain_append (by decide)]
  rw [Survives, plist, DaemonEmbedder.render_eq daemon.arguments
      daemon.contentText_programPath,
    PropertyList.read_document (DaemonEmbedder.part_entries hmark _ _ _)
      (by simp [DaemonEmbedder.attributesOf_entries]), ← hpath]
  exact (PropertyList.reads_document hlength).trans
    (DaemonEmbedder.reads_entries_iff _ _ _)

end EmbeddedDaemon

end Dovetail.Bundler
