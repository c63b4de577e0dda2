import Dovetail.MacosServiceScripts
import Dovetail.MarkupText
import Dovetail.XmlDocuments
import Dovetail.XmlText

/-!
# The property lists of a daemon

`LaunchDaemon.render` writes the property list that a package installs and
`DaemonEmbedder.plistFor` the one inside of a bundle.  Both escape what they
are given, but for the program of the second, which is refused where it has
a mark.
-/

namespace Dovetail.Bundler

open CodeUnits XmlDocuments XmlValues
open MarkupText (text_join text_join_last)

/-! ## Elements of a property list -/

namespace PropertyList

def header : List Segment :=
  [⟨[], .declaration (text "?xml version=\"1.0\" encoding=\"UTF-8\"?")⟩,
    ⟨text "\n", .declaration (text "!DOCTYPE plist PUBLIC \"-//Apple//DTD PLIST 1.0//EN\" \"http://www.apple.com/DTDs/PropertyList-1.0.dtd\"")⟩]

def flag (gap : Text) (value : Bool) : List Segment :=
  [⟨gap, .starts (if value then text "true" else text "false") [] [] true⟩]

def key (gap value : Text) : List Segment := element gap (text "key") value

def string (gap value : Text) : List Segment :=
  element gap (text "string") value

def document (body : List Segment) : List Segment :=
  header ++
    holding (text "\n") (text "plist")
      [⟨text " ", text "version", text "1.0"⟩]
      (holding (text "\n") (text "dict") [] body (text "\n")) (text "\n")

end PropertyList

namespace PropertyList

theorem part_flag {gap : Text} (hgap : lessThan ∉ gap) (value : Bool) :
    Part (flag gap value) := by
  apply part_empty hgap
  refine ⟨?_, by simp, by simp, by simp⟩
  cases value <;> rfl

@[simp] theorem length_flag (gap : Text) (value : Bool) :
    (flag gap value).length = 1 := by
  simp [flag]

theorem reads_flag {gap : Text} (hgap : readValue .content gap = some gap)
    (value : Bool) : Reads (flag gap value) (flag gap value) := by
  rw [flag, reads_cons]
  simp [reads_nil, Segment.value, Segment.meant, WrittenTag.value,
    WrittenTag.meant, hgap]

theorem reads_document {body plain : List Segment}
    (hlength : body.length = plain.length) :
    Reads (document body) (document plain) ↔ Reads body plain := by
  have hline : readValue .content (text "\n") = some (text "\n") := by
    decide
  have hnone : readValue .content [] = some [] := rfl
  have hversion : [(⟨text " ", text "version", text "1.0"⟩ :
      WrittenAttribute)].mapM WrittenAttribute.value =
        some [(text "version", text "1.0")] := by decide
  unfold document header
  simp only [List.cons_append, List.nil_append, reads_declaration hnone,
    reads_declaration hline]
  rw [reads_holding hline (by simp [hlength]), reads_holding hline hlength]
  simp [hversion, hline, WrittenAttribute.meant]

theorem header_declares :
    ∀ segment ∈ header, Declares segment ∧ segment.tag.Well := by
  rw [header, List.forall_mem_cons, List.forall_mem_singleton]
  constructor
  · constructor
    · exact ⟨⟨_, rfl⟩, by decide⟩
    · simp only [WrittenTag.Well, text, String.reduceToList]
      decide
  · constructor
    · exact ⟨⟨_, rfl⟩, by decide⟩
    · simp only [WrittenTag.Well, text, String.reduceToList]
      decide

theorem document_eq (body : List Segment) :
    document body = header ++ holding (text "\n") (text "plist")
      [⟨text " ", text "version", text "1.0"⟩]
      (holding (text "\n") (text "dict") [] body (text "\n")) (text "\n") :=
  rfl

theorem print_flag (gap : Text) (value : Bool) :
    print (flag gap value) =
      gap ++ text (if value then "<true/>" else "<false/>") := by
  cases value <;> simp [flag, print_empty, text_join_last]

theorem print_document (body : List Segment) :
    print (document body) =
      text "<?xml version=\"1.0\" encoding=\"UTF-8\"?>\n<!DOCTYPE plist PUBLIC \"-//Apple//DTD PLIST 1.0//EN\" \"http://www.apple.com/DTDs/PropertyList-1.0.dtd\">\n<plist version=\"1.0\">\n<dict>" ++
        (print body ++ text "\n</dict>\n</plist>") := by
  simp only [document, header, print_holding, print_append,
    print_cons, print_nil, print_declaration, print_attribute,
    List.flatMap_cons, List.flatMap_nil, List.nil_append, List.append_nil,
    List.append_assoc, text_join, text_join_last, String.reduceAppend]

/-- A property list whose values are closed is read as what was written. -/
theorem read_document {body : List Segment} (hbody : Part body)
    (hquote : ∀ entry ∈ attributesOf body, quote ∉ entry.raw) :
    read (print (document body) ++ text "\n") = values (document body) := by
  have hversion : WrittenAttribute.Well
      ⟨text " ", text "version", text "1.0"⟩ :=
    ⟨by decide, by decide, by decide⟩
  apply XmlDocuments.read_document header_declares (by decide)
  · exact hbody.holding (by decide) (by decide)
      ⟨by decide, by simp, by simp, by simp⟩
  · refine ⟨by decide, ?_, by simp, by simp⟩
    simpa using hversion
  · decide
  · rw [attributesOf_append, attributesOf_holding, attributesOf_holding]
    have hversion : quote ∉ text "1.0" := by decide
    intro entry hentry
    simp only [header, attributesOf_cons, WrittenTag.attributes,
      attributesOf_nil, List.nil_append, List.cons_append,
      List.mem_cons] at hentry
    rcases hentry with rfl | hentry
    · exact hversion
    · exact hquote entry hentry
  · decide

end PropertyList

open PropertyList

namespace LaunchDaemon

/-- The elements of the dictionary, each value as it is written. -/
def entries (write : Text → Text) (daemon : LaunchDaemon) : List Segment :=
  let gap := text "\n\t"
  let inner := text "\n\t\t"
  key gap (text "Label") ++ string gap (write daemon.label) ++
    key gap (text "MachServices") ++
    holding gap (text "dict") []
      (key inner (write daemon.label) ++ flag inner true) gap ++
    key gap (text "ProgramArguments") ++
    holding gap (text "array") []
      (string inner (write daemon.installedExecutablePath) ++
        daemon.arguments.flatMap fun argument =>
          string inner (write argument)) gap ++
    key gap (text "RunAtLoad") ++ flag gap daemon.runAtLoad ++
    (if daemon.keepAlive then key gap (text "KeepAlive") ++ flag gap true
      else []) ++
    key gap (text "ProcessType") ++ string gap (text "Interactive") ++
    key gap (text "StandardOutPath") ++ string gap (write daemon.logPath) ++
    key gap (text "StandardErrorPath") ++ string gap (write daemon.logPath)

theorem intercalate_cons (first : Text) (rest : List Text) :
    [newline].intercalate (first :: rest) =
      first ++ rest.flatMap (newline :: ·) := by
  induction rest generalizing first with
  | nil => simp
  | cons next rest ih =>
      rw [List.intercalate_cons_cons, ih, List.flatMap_cons]
      simp

theorem render_eq (daemon : LaunchDaemon) :
    daemon.render =
      print (PropertyList.document (daemon.entries XmlText.contentText)) ++
        text "\n" := by
  have hline (rest : Text) : newline :: rest = text "\n" ++ rest := rfl
  unfold render renderLines entries
  simp only [List.cons_append, intercalate_cons, PropertyList.print_document]
  cases daemon.runAtLoad <;> cases daemon.keepAlive <;>
    simp only [List.flatMap_cons, List.flatMap_append, List.flatMap_nil,
      List.flatMap_map, hline, List.append_assoc, List.nil_append,
      List.append_nil, key, string, print_element, print_flag, print_part,
      print_append, print_flatMap, if_true, Bool.false_eq_true,
      if_false, text_join, text_join_last, String.reduceAppend]

variable {daemon : LaunchDaemon}

theorem part_entries {write : Text → Text}
    (hwrite : ∀ value, lessThan ∉ write value) :
    Part (daemon.entries write) := by
  have hkey {gap value : Text} (hgap : lessThan ∉ gap)
      (hvalue : lessThan ∉ value) : Part (key gap value) :=
    part_element hgap (by decide) hvalue
  have hstring {gap value : Text} (hgap : lessThan ∉ gap)
      (hvalue : lessThan ∉ value) : Part (string gap value) :=
    part_element hgap (by decide) hvalue
  have hgap : lessThan ∉ text "\n\t" := by decide
  have hinner : lessThan ∉ text "\n\t\t" := by decide
  have hdict : (WrittenTag.starts (text "dict") [] [] false).Well :=
    ⟨by decide, by simp, by simp, by simp⟩
  have harray : (WrittenTag.starts (text "array") [] [] false).Well :=
    ⟨by decide, by simp, by simp, by simp⟩
  have hkeep : Part (if daemon.keepAlive then
      key (text "\n\t") (text "KeepAlive") ++ flag (text "\n\t") true
      else []) := by
    split_ifs
    · exact (hkey hgap (by decide)).append (part_flag hgap true)
    · exact part_nil
  have hservices := ((hkey hinner (hwrite daemon.label)).append
    (part_flag hinner true)).holding hgap hgap hdict
  have hprogram := ((hstring hinner
    (hwrite daemon.installedExecutablePath)).append
      (part_flatMap fun argument (_ : argument ∈ daemon.arguments) =>
        hstring hinner (hwrite argument))).holding hgap hgap harray
  have hlog := hstring hgap (hwrite daemon.logPath)
  have hlabel := (hkey hgap (by decide : lessThan ∉ text "Label")).append
    (hstring hgap (hwrite daemon.label))
  have hmach := hlabel.append
    (hkey hgap (by decide : lessThan ∉ text "MachServices"))
  have hcalled := ((hmach.append hservices).append
    (hkey hgap (by decide : lessThan ∉ text "ProgramArguments"))).append
      hprogram
  have hrun := ((hcalled.append
    (hkey hgap (by decide : lessThan ∉ text "RunAtLoad"))).append
      (part_flag hgap daemon.runAtLoad)).append hkeep
  have htype := (hrun.append
    (hkey hgap (by decide : lessThan ∉ text "ProcessType"))).append
      (hstring hgap (by decide : lessThan ∉ text "Interactive"))
  have hout := (htype.append
    (hkey hgap (by decide : lessThan ∉ text "StandardOutPath"))).append hlog
  exact (hout.append
    (hkey hgap (by decide : lessThan ∉ text "StandardErrorPath"))).append hlog

theorem attributesOf_entries (write : Text → Text) :
    attributesOf (daemon.entries write) = [] := by
  unfold entries
  cases daemon.keepAlive <;>
    simp [key, string, element, flag, WrittenTag.attributes,
      attributesOf_flatMap]

/-- A label is made of letters, digits, hyphens and dots. -/
theorem isPlain_label : ∀ unit ∈ daemon.label, isPlain unit = true := by
  intro unit hunit
  rcases isDomainUnit_of_mem daemon.isReverseDomain_label hunit with
    hdomain | rfl
  · simp only [isDomainUnit, Bool.or_eq_true, Bool.and_eq_true,
      decide_eq_true_eq, beq_iff_eq, UInt16.le_iff_toNat_le,
      UInt16.reduceToNat] at hdomain
    have hunit : unit.toNat < 128 ∧ 32 ≤ unit.toNat := by
      rcases hdomain with ((hdomain | hdomain) | hdomain) | rfl
      · omega
      · omega
      · omega
      · decide
    simp only [isPlain, isSurrogate, isLead, isTrail, Bool.and_eq_true,
      Bool.not_eq_true', Bool.or_eq_false_iff, beq_eq_false_iff_ne,
      decide_eq_true_eq, UInt16.le_iff_toNat_le, UInt16.reduceToNat]
    omega
  · decide

theorem readValue_written {value : Text}
    (hvalue : ∀ unit ∈ value, isPlain unit = true) :
    readValue .content (XmlText.contentText value) = some value :=
  (XmlText.readValue_contentText_iff value).mpr (Place.carries_plain hvalue)

/-- What is written is read exactly where the arguments are. -/
theorem reads_entries_iff :
    Reads (daemon.entries XmlText.contentText) (daemon.entries id) ↔
      ∀ argument ∈ daemon.arguments, Place.content.Carries argument := by
  have hgap : readValue .content (text "\n\t") = some (text "\n\t") := by
    decide
  have hinner : readValue .content (text "\n\t\t") =
      some (text "\n\t\t") := by decide
  have hlabel := readValue_written (@isPlain_label daemon)
  have hexecutable :
      readValue .content (XmlText.contentText
        daemon.installedExecutablePath) =
          some daemon.installedExecutablePath := by
    apply readValue_written
    exact List.forall_mem_append.mpr ⟨by decide, isPlain_label⟩
  have hlog : readValue .content (XmlText.contentText daemon.logPath) =
      some daemon.logPath := by
    apply readValue_written
    exact List.forall_mem_append.mpr ⟨List.forall_mem_append.mpr
      ⟨by decide, isPlain_label⟩, by decide⟩
  have hnames : ∀ name ∈ [text "Label", text "MachServices",
      text "ProgramArguments", text "RunAtLoad", text "KeepAlive",
      text "ProcessType", text "Interactive", text "StandardOutPath",
      text "StandardErrorPath"],
      readValue .content name = some name := by decide
  simp only [List.forall_mem_cons, List.not_mem_nil, false_implies,
    implies_true, and_true] at hnames
  have harguments : Reads
      (daemon.arguments.flatMap fun argument =>
        element (text "\n\t\t") (text "string")
          (XmlText.contentText argument))
      (daemon.arguments.flatMap fun argument =>
        element (text "\n\t\t") (text "string") argument) ↔
      ∀ argument ∈ daemon.arguments, Place.content.Carries argument := by
    refine (reads_flatMap fun _ => by rfl).trans ?_
    simp only [reads_element hinner, XmlText.readValue_contentText_iff]
  have hkeep : Reads
      (if daemon.keepAlive then
        element (text "\n\t") (text "key") (text "KeepAlive") ++
          flag (text "\n\t") true else [])
      (if daemon.keepAlive then
        element (text "\n\t") (text "key") (text "KeepAlive") ++
          flag (text "\n\t") true else []) := by
    split_ifs
    · rw [reads_append rfl, reads_element hgap]
      exact ⟨hnames.2.2.2.2.1, reads_flag hgap true⟩
    · exact reads_nil
  simp only [entries, id_eq, key, string, reads_append, reads_holding hgap,
    reads_element hgap, length_holding, length_element, length_flag,
    List.length_append, List.length_flatMap]
  simp [reads_element, reads_flag, harguments, hkeep, hnames, hlabel,
    hexecutable, hlog, hgap, hinner]

/-- A processor reads the property list as it was meant. -/
def Survives (daemon : LaunchDaemon) : Prop :=
  read daemon.render =
    some ((PropertyList.document (daemon.entries id)).map Segment.meant)

theorem plist_survives_iff (daemon : LaunchDaemon) :
    daemon.Survives ↔
      ∀ argument ∈ daemon.arguments, Place.content.Carries argument := by
  have hmark : ∀ value, lessThan ∉ XmlText.contentText value := by
    intro value
    rw [XmlText.contentText_eq]
    exact Entities.mark_not_mem_write (by decide) value
  have hlength : (daemon.entries XmlText.contentText).length =
      (daemon.entries id).length := by
    simp [entries, key, string, List.length_flatMap]
  rw [Survives, render_eq, PropertyList.read_document (part_entries hmark)
    (by simp [attributesOf_entries])]
  exact (reads_document hlength).trans reads_entries_iff

end LaunchDaemon

end Dovetail.Bundler
