import Dovetail.PackageVersionOrder
import Dovetail.SystemdUnits

/-!
# What is read of a unit

A unit is read as it was declared exactly where every value it was given
stands for itself: on one line, without white space around it, and with none
of the marks of its setting.
-/

namespace Dovetail.Bundler.SystemdUnit

open CodeUnits
open UnitFile (Entry Item IsKey IsValue IsWord IsCommand Replaced)

section

variable (expands : Text → Bool)

/-- A value that its line holds; a key may replace specifiers in it. -/
structure Holds (key value : Text) : Prop where
  plain : IsValue value
  kept : expands key = true → ¬ Replaced value

structure HoldsNames (key : String) (names : List Text) : Prop where
  line : names ≠ [] →
    Holds expands (text key) (Updater.join (text " ") names)
  words : ∀ name ∈ names, IsWord name

structure HoldsDirectory (key : String) (directory : SystemdDirectory) :
    Prop where
  name : Holds expands (text key) directory.name
  word : IsWord directory.name
  mode : Holds expands (text (key ++ "Mode")) directory.mode

/-- Every value of the unit stands for itself. -/
structure Readable (unit : SystemdUnit) : Prop where
  description : Holds expands (text "Description") unit.description
  documentation : ∀ value, unit.documentation = some value →
    trim value ≠ [] → Holds expands (text "Documentation") value
  after : HoldsNames expands "After" unit.after
  execStart : Holds expands (text "ExecStart") unit.execStart
  command : IsCommand unit.execStart
  execStopPost : ∀ value, unit.execStopPost = some value →
    trim value ≠ [] → Holds expands (text "ExecStopPost") value
  restart : Holds expands (text "Restart") unit.restart
  runtimeDirectory : ∀ directory, unit.runtimeDirectory = some directory →
    HoldsDirectory expands "RuntimeDirectory" directory
  logsDirectory : ∀ directory, unit.logsDirectory = some directory →
    HoldsDirectory expands "LogsDirectory" directory
  stateDirectory : ∀ directory, unit.stateDirectory = some directory →
    HoldsDirectory expands "StateDirectory" directory
  capabilityBoundingSet : HoldsNames expands "CapabilityBoundingSet"
    (sorted unit.capabilityBoundingSet)
  ambientCapabilities : HoldsNames expands "AmbientCapabilities"
    (sorted unit.ambientCapabilities)
  protectSystem : Holds expands (text "ProtectSystem") unit.protectSystem
  restrictAddressFamilies : HoldsNames expands "RestrictAddressFamilies"
    (sorted unit.restrictAddressFamilies)
  wantedBy : HoldsNames expands "WantedBy" unit.wantedBy
  extraHardening : ∀ entry ∈ unit.extraHardening,
    IsKey entry.1 ∧ Holds expands entry.1 entry.2

/-- The lists of names in the unit. -/
def lists (unit : SystemdUnit) : List (List Text) :=
  [unit.after, sorted unit.capabilityBoundingSet,
    sorted unit.ambientCapabilities, sorted unit.restrictAddressFamilies,
    unit.wantedBy] ++
  ([unit.runtimeDirectory, unit.logsDirectory,
    unit.stateDirectory].filterMap id).map fun directory => [directory.name]

/-- The unit is read as its sections and settings with the values that were
declared, for the keys that replace specifiers, the lists and the command as
well. -/
structure Survives (unit : SystemdUnit) : Prop where
  read : UnitFile.read unit.render = unit.declared
  kept : ∀ key value, .setting key value ∈ unit.declared →
    expands key = true → UnitFile.tokens value = value.map .unit
  names : ∀ names ∈ unit.lists,
    UnitFile.wordsOf (Updater.join (text " ") names) = names
  command : UnitFile.commandsOf unit.execStart =
    some [UnitFile.wordsOf unit.execStart]

/-! ## Entries -/

def Sure : Entry → Prop
  | .header name => (Entry.header name).Well
  | .setting key value => IsKey key ∧ Holds expands key value

def SureItems (items : List Item) : Prop :=
  ∀ entry ∈ items.filterMap Item.told, Sure expands entry

end

variable {expands : Text → Bool} {unit : SystemdUnit}

theorem sure_iff (entries : List Entry) :
    (∀ entry ∈ entries, Sure expands entry) ↔
      (∀ entry ∈ entries, entry.Well) ∧
        ∀ key value, .setting key value ∈ entries →
          expands key = true → ¬ Replaced value := by
  constructor
  · intro hsure
    constructor
    · intro entry hentry
      have hentry := hsure entry hentry
      cases entry with
      | header name => exact hentry
      | setting key value => exact ⟨hentry.1, hentry.2.plain⟩
    · intro key value hmem
      exact (hsure _ hmem).2.kept
  · intro hboth entry hmem
    have hentry := hboth.1 entry hmem
    cases entry with
    | header name => exact hentry
    | setting key value =>
        exact ⟨hentry.1, hentry.2, hboth.2 key value hmem⟩

theorem sureItems_append (first second : List Item) :
    SureItems expands (first ++ second) ↔
      SureItems expands first ∧ SureItems expands second := by
  rw [SureItems, List.filterMap_append, List.forall_mem_append]
  rfl

theorem sureItems_nil : SureItems expands [] := by
  simp [SureItems]

theorem sureItems_cons (item : Item) (rest : List Item) :
    SureItems expands (item :: rest) ↔
      SureItems expands [item] ∧ SureItems expands rest :=
  sureItems_append [item] rest

theorem sureItems_empty : SureItems expands [.empty] := by
  simp [SureItems, Item.told]

theorem sureItems_setting (key value : Text) :
    SureItems expands [.setting key value] ↔
      IsKey key ∧ Holds expands key value := by
  simp [SureItems, Item.told, Sure]

theorem sureItems_header {name : Text}
    (hname : ∀ unit ∈ name, UnitFile.endsLine unit = false) :
    SureItems expands [.header name] := by
  intro entry hentry
  have hsame : entry = .header name := by simpa [Item.told] using hentry
  rw [hsame]
  exact hname

/-- Nothing is replaced in a value without a percent sign. -/
theorem holds_of_not_percent {key value : Text} (hvalue : IsValue value)
    (hpercent : UnitFile.percent ∉ value) : Holds expands key value where
  plain := hvalue
  kept _ hreplaced := by
    rcases hreplaced with ⟨next, -, hoccurs⟩
    exact hpercent (hoccurs.subset List.mem_cons_self)

theorem sureItems_constants {entries : List (String × String)}
    (hentries : ∀ entry ∈ entries, IsKey (text entry.1) ∧
      IsValue (text entry.2) ∧ UnitFile.percent ∉ text entry.2) :
    SureItems expands (entries.map fun entry =>
      .setting (text entry.1) (text entry.2)) := by
  induction entries with
  | nil => exact sureItems_nil
  | cons entry rest ih =>
      rcases hentries entry List.mem_cons_self with ⟨hkey, hvalue, hpercent⟩
      rw [List.map_cons, sureItems_cons, sureItems_setting]
      constructor
      · exact ⟨hkey, holds_of_not_percent hvalue hpercent⟩
      · exact ih fun other hother =>
          hentries other (List.mem_cons_of_mem entry hother)

theorem sureItems_map (entries : List (Text × Text)) :
    SureItems expands (entries.map fun entry => .setting entry.1 entry.2) ↔
      ∀ entry ∈ entries, IsKey entry.1 ∧ Holds expands entry.1 entry.2 := by
  induction entries with
  | nil => simp [sureItems_nil]
  | cons entry rest ih =>
      rw [List.map_cons, sureItems_cons, sureItems_setting, ih,
        List.forall_mem_cons]

theorem sureItems_optional {key : String} (hkey : IsKey (text key))
    (value : Option Text) :
    SureItems expands (optionalItems key value) ↔
      ∀ given, value = some given → trim given ≠ [] →
        Holds expands (text key) given := by
  cases value with
  | none => simp [optionalItems, sureItems_nil]
  | some given =>
      rw [optionalItems]
      split_ifs with hblank
      · simp [hblank, sureItems_nil]
      · rw [sureItems_setting]
        simp [hblank, hkey]

theorem sureItems_list {key : String} (hkey : IsKey (text key))
    (names : List Text) :
    SureItems expands (listItems key names) ↔
      (names ≠ [] →
        Holds expands (text key) (Updater.join (text " ") names)) := by
  rw [listItems]
  split_ifs with hnone
  · simp [hnone, sureItems_nil]
  · rw [sureItems_setting]
    simp [hnone, hkey]

theorem sureItems_directory {key : String} (hkey : IsKey (text key))
    (hmode : IsKey (text (key ++ "Mode")))
    (directory : Option SystemdDirectory) :
    SureItems expands (directoryItems key directory) ↔
      ∀ given, directory = some given →
        Holds expands (text key) given.name ∧
          Holds expands (text (key ++ "Mode")) given.mode := by
  cases directory with
  | none => simp [directoryItems, sureItems_nil]
  | some given =>
      rw [directoryItems, sureItems_cons, sureItems_setting,
        sureItems_setting]
      simp [hkey, hmode]

theorem mem_sortedEntries {entries : List (Text × Text)}
    {entry : Text × Text} :
    entry ∈ sortedEntries entries ↔ entry ∈ entries :=
  List.mem_insertionSort _

theorem unit_of_mem_toString {value : Int} {unit : UInt16}
    (hunit : unit ∈ text (toString value)) :
    unit = 45 ∨ PackageVersionOrder.isDigit unit = true := by
  cases value with
  | ofNat value =>
      right
      exact PackageVersionOrder.isDigit_of_mem_digits hunit
  | negSucc value =>
      have hsigned : text (toString (Int.negSucc value)) =
          text "-" ++ PackageVersionOrder.digits (value + 1) := by
        rw [PackageVersionOrder.digits, MarkupText.text_join_last]
        rfl
      rw [hsigned, List.mem_append] at hunit
      rcases hunit with hsign | hdigit
      · left
        exact List.mem_singleton.mp hsign
      · right
        exact PackageVersionOrder.isDigit_of_mem_digits hdigit

/-- Digits with the unit of time behind them stand for themselves. -/
theorem holds_seconds {key : Text} (value : Int) :
    Holds expands key (seconds value) := by
  have hunits : ∀ unit ∈ seconds value, UnitFile.isWhite unit = false ∧
      UnitFile.endsLine unit = false ∧ unit ≠ UnitFile.percent := by
    intro unit hunit
    have hrange : 45 ≤ unit.toNat := by
      rcases List.mem_append.mp hunit with hnumber | hlast
      · rcases unit_of_mem_toString hnumber with rfl | hdigit
        · decide
        · simp only [PackageVersionOrder.isDigit, Bool.and_eq_true,
            decide_eq_true_eq, UInt16.le_iff_toNat_le,
            UInt16.reduceToNat] at hdigit
          omega
      · rw [List.mem_singleton.mp hlast]
        decide
    have hother {small : UInt16} (hsmall : small.toNat < 45) :
        unit ≠ small := by
      rintro rfl
      omega
    simp [UnitFile.isWhite, UnitFile.endsLine, UnitFile.blank, newline,
      UnitFile.percent, hother]
  apply holds_of_not_percent
  · refine ⟨⟨fun unit hunit => (hunits unit hunit).2.1, ⟨?_, ?_⟩⟩, ?_⟩
    · intro unit hunit
      exact (hunits unit (List.mem_of_mem_head? hunit)).1
    · intro unit hunit
      exact (hunits unit (List.mem_of_getLast? hunit)).1
    · exact UnitFile.continued_append_cons _ (by decide) []
  · intro hmem
    exact (hunits _ hmem).2.2 rfl

/-! ## Where the unit is read -/

/-- Every entry can be read exactly where its value can. -/
theorem sureItems_items_iff (unit : SystemdUnit) :
    SureItems expands unit.items ↔
      Holds expands (text "Description") unit.description ∧
      (∀ value, unit.documentation = some value → trim value ≠ [] →
        Holds expands (text "Documentation") value) ∧
      (unit.after ≠ [] → Holds expands (text "After")
        (Updater.join (text " ") unit.after)) ∧
      Holds expands (text "ExecStart") unit.execStart ∧
      (∀ value, unit.execStopPost = some value → trim value ≠ [] →
        Holds expands (text "ExecStopPost") value) ∧
      Holds expands (text "Restart") unit.restart ∧
      (∀ given, unit.runtimeDirectory = some given →
        Holds expands (text "RuntimeDirectory") given.name ∧
          Holds expands (text ("RuntimeDirectory" ++ "Mode")) given.mode) ∧
      (∀ given, unit.logsDirectory = some given →
        Holds expands (text "LogsDirectory") given.name ∧
          Holds expands (text ("LogsDirectory" ++ "Mode")) given.mode) ∧
      (∀ given, unit.stateDirectory = some given →
        Holds expands (text "StateDirectory") given.name ∧
          Holds expands (text ("StateDirectory" ++ "Mode")) given.mode) ∧
      (sorted unit.capabilityBoundingSet ≠ [] →
        Holds expands (text "CapabilityBoundingSet")
          (Updater.join (text " ") (sorted unit.capabilityBoundingSet))) ∧
      (sorted unit.ambientCapabilities ≠ [] →
        Holds expands (text "AmbientCapabilities")
          (Updater.join (text " ") (sorted unit.ambientCapabilities))) ∧
      Holds expands (text "ProtectSystem") unit.protectSystem ∧
      (sorted unit.restrictAddressFamilies ≠ [] →
        Holds expands (text "RestrictAddressFamilies")
          (Updater.join (text " ") (sorted unit.restrictAddressFamilies))) ∧
      (∀ entry ∈ unit.extraHardening,
        IsKey entry.1 ∧ Holds expands entry.1 entry.2) ∧
      Holds expands (text "WantedBy")
        (Updater.join (text " ") unit.wantedBy) := by
  have hkeys : ∀ key ∈ ["Description", "Documentation", "After", "Type",
      "ExecStart", "ExecStopPost", "Restart", "RestartSec",
      "TimeoutStopSec", "RuntimeDirectory", "LogsDirectory",
      "StateDirectory", "RuntimeDirectory" ++ "Mode",
      "LogsDirectory" ++ "Mode", "StateDirectory" ++ "Mode",
      "CapabilityBoundingSet", "AmbientCapabilities", "NoNewPrivileges",
      "ProtectSystem", "RestrictAddressFamilies", "WantedBy"],
      IsKey (text key) := by decide
  have hconstants : ∀ entry ∈ hardening, IsKey (text entry.1) ∧
      IsValue (text entry.2) ∧ UnitFile.percent ∉ text entry.2 := by
    decide
  have hnames : ∀ name ∈ ["Unit", "Service", "Install"],
      ∀ unit ∈ text name, UnitFile.endsLine unit = false := by
    decide
  have htype : Holds expands (text "Type") unit.type.wireName := by
    cases unit.type <;>
      exact holds_of_not_percent (by decide) (by decide)
  have hprivileges : Holds expands (text "NoNewPrivileges") (text "yes") :=
    holds_of_not_percent (by decide) (by decide)
  simp only [List.forall_mem_cons, List.not_mem_nil, false_implies,
    implies_true, and_true] at hkeys hnames
  rcases hkeys with ⟨hdescription, hdocumentation, hafter, htypeKey, hstart,
    hstop, hrestart, hrestartSec, htimeout, hruntime, hlogs, hstate,
    hruntimeMode, hlogsMode, hstateMode, hbounding, hambient, hnew, hsystem,
    hfamilies, hwanted⟩
  rw [items, sureItems_cons, sections]
  simp only [sureItems_append, sureItems_cons (_ : Item) (_ :: _),
    sureItems_empty, sureItems_header hnames.1, sureItems_header hnames.2.1,
    sureItems_header hnames.2.2, sureItems_setting,
    sureItems_optional hdocumentation, sureItems_optional hstop,
    sureItems_list hafter, sureItems_list hbounding, sureItems_list hambient,
    sureItems_list hfamilies, sureItems_directory hruntime hruntimeMode,
    sureItems_directory hlogs hlogsMode,
    sureItems_directory hstate hstateMode, sureItems_constants hconstants,
    sureItems_map, mem_sortedEntries, hdescription, htypeKey, hstart,
    hrestart, hrestartSec, htimeout, hnew, hsystem, hwanted, htype,
    hprivileges, holds_seconds, true_and, and_true, and_assoc]

theorem render_eq_print (unit : SystemdUnit) :
    unit.render = UnitFile.print unit.items := by
  rw [render, lines_eq, List.flatMap_map]
  rfl

theorem join_eq_joined (names : List Text) :
    Updater.join (text " ") names = UnitFile.joined names := by
  fun_induction UnitFile.joined names with
  | case1 => rfl
  | case2 name => rfl
  | case3 name rest hmore ih =>
      rw [Updater.join, ih, List.append_assoc]
      · rfl
      · intro hnil
        exact hmore hnil

theorem wordsOf_join_iff (names : List Text) :
    UnitFile.wordsOf (Updater.join (text " ") names) = names ↔
      ∀ name ∈ names, IsWord name := by
  rw [join_eq_joined, UnitFile.wordsOf_joined_iff]

theorem wantedBy_ne_nil (unit : SystemdUnit) : unit.wantedBy ≠ [] := by
  intro hnone
  have haccepted := unit.accepted
  unfold SystemdSettings.check at haccepted
  rw [if_pos hnone] at haccepted
  split_ifs at haccepted

theorem words_lists_iff (unit : SystemdUnit) :
    (∀ names ∈ unit.lists,
      UnitFile.wordsOf (Updater.join (text " ") names) = names) ↔
      (∀ name ∈ unit.after, IsWord name) ∧
      (∀ name ∈ sorted unit.capabilityBoundingSet, IsWord name) ∧
      (∀ name ∈ sorted unit.ambientCapabilities, IsWord name) ∧
      (∀ name ∈ sorted unit.restrictAddressFamilies, IsWord name) ∧
      (∀ name ∈ unit.wantedBy, IsWord name) ∧
      (∀ given, unit.runtimeDirectory = some given → IsWord given.name) ∧
      (∀ given, unit.logsDirectory = some given → IsWord given.name) ∧
      ∀ given, unit.stateDirectory = some given → IsWord given.name := by
  have hgiven (directory : Option SystemdDirectory) :
      (∀ names ∈ ([directory].filterMap id).map fun given => [given.name],
        ∀ name ∈ names, IsWord name) ↔
        ∀ given, directory = some given → IsWord given.name := by
    cases directory with
    | none => simp
    | some given => simp
  have hsplit : ([unit.runtimeDirectory, unit.logsDirectory,
      unit.stateDirectory].filterMap id).map (fun given => [given.name]) =
        (([unit.runtimeDirectory].filterMap id).map fun given =>
          [given.name]) ++
        (([unit.logsDirectory].filterMap id).map fun given =>
          [given.name]) ++
        ([unit.stateDirectory].filterMap id).map fun given =>
          [given.name] := by
    rw [← List.map_append, ← List.map_append, ← List.filterMap_append,
      ← List.filterMap_append]
    rfl
  rw [lists, hsplit]
  simp only [List.forall_mem_append, List.forall_mem_cons, wordsOf_join_iff,
    hgiven, List.not_mem_nil, false_implies, implies_true, and_true,
    and_assoc]

/-- The unit is read as it was declared exactly where every value of it
stands for itself. -/
theorem survives_iff (expands : Text → Bool) (unit : SystemdUnit) :
    unit.Survives expands ↔ unit.Readable expands := by
  have hread : UnitFile.read unit.render = unit.declared ↔
      ∀ entry ∈ unit.declared, entry.Well := by
    rw [render_eq_print]
    exact UnitFile.read_print_iff (text "Unit") unit.sections
  have hsure := @sure_iff expands unit.declared
  have hitems := @sureItems_items_iff expands unit
  rw [SureItems] at hitems
  constructor
  · intro hsurvives
    have hall := hitems.mp (hsure.mpr ⟨hread.mp hsurvives.read,
      fun key value hmem hexpands =>
        (UnitFile.tokens_eq_iff value).mp
          (hsurvives.kept key value hmem hexpands)⟩)
    have hwords := (words_lists_iff unit).mp hsurvives.names
    rcases hall with ⟨hdescription, hdocumentation, hafter, hstart, hstop,
      hrestart, hruntime, hlogs, hstate, hbounding, hambient, hsystem,
      hfamilies, hextra, hwanted⟩
    rcases hwords with ⟨hafterWords, hboundingWords, hambientWords,
      hfamiliesWords, hwantedWords, hruntimeWord, hlogsWord, hstateWord⟩
    constructor
    · exact hdescription
    · exact hdocumentation
    · exact ⟨hafter, hafterWords⟩
    · exact hstart
    · exact (UnitFile.commandsOf_eq_iff _).mp hsurvives.command
    · exact hstop
    · exact hrestart
    · intro given hgiven
      exact ⟨(hruntime given hgiven).1, hruntimeWord given hgiven,
        (hruntime given hgiven).2⟩
    · intro given hgiven
      exact ⟨(hlogs given hgiven).1, hlogsWord given hgiven,
        (hlogs given hgiven).2⟩
    · intro given hgiven
      exact ⟨(hstate given hgiven).1, hstateWord given hgiven,
        (hstate given hgiven).2⟩
    · exact ⟨hbounding, hboundingWords⟩
    · exact ⟨hambient, hambientWords⟩
    · exact hsystem
    · exact ⟨hfamilies, hfamiliesWords⟩
    · exact ⟨fun _ => hwanted, hwantedWords⟩
    · exact hextra
  · intro hreadable
    have hall := hsure.mp (hitems.mpr ⟨hreadable.description,
      hreadable.documentation, hreadable.after.line, hreadable.execStart,
      hreadable.execStopPost, hreadable.restart,
      fun given hgiven =>
        ⟨(hreadable.runtimeDirectory given hgiven).name,
          (hreadable.runtimeDirectory given hgiven).mode⟩,
      fun given hgiven =>
        ⟨(hreadable.logsDirectory given hgiven).name,
          (hreadable.logsDirectory given hgiven).mode⟩,
      fun given hgiven =>
        ⟨(hreadable.stateDirectory given hgiven).name,
          (hreadable.stateDirectory given hgiven).mode⟩,
      hreadable.capabilityBoundingSet.line,
      hreadable.ambientCapabilities.line, hreadable.protectSystem,
      hreadable.restrictAddressFamilies.line, hreadable.extraHardening,
      hreadable.wantedBy.line (wantedBy_ne_nil unit)⟩)
    constructor
    · exact hread.mpr hall.1
    · intro key value hmem hexpands
      exact (UnitFile.tokens_eq_iff value).mpr
        (hall.2 key value hmem hexpands)
    · apply (words_lists_iff unit).mpr
      exact ⟨hreadable.after.words, hreadable.capabilityBoundingSet.words,
        hreadable.ambientCapabilities.words,
        hreadable.restrictAddressFamilies.words, hreadable.wantedBy.words,
        fun given hgiven => (hreadable.runtimeDirectory given hgiven).word,
        fun given hgiven => (hreadable.logsDirectory given hgiven).word,
        fun given hgiven => (hreadable.stateDirectory given hgiven).word⟩
    · exact (UnitFile.commandsOf_eq_iff _).mpr hreadable.command

/-- A helper whose description has two lines in it. -/
def described : SystemdUnit where
  fileName := text "helper.service"
  description := text "Helper\nOnFailure=reboot.target"
  execStart := text "/opt/helper/helper serve"
  documentation := none
  after := []
  execStopPost := none
  type := .exec
  restart := text "on-failure"
  restartSeconds := 5
  timeoutStopSeconds := 15
  runtimeDirectory := none
  logsDirectory := none
  stateDirectory := none
  capabilityBoundingSet := []
  ambientCapabilities := []
  protectSystem := text "strict"
  restrictAddressFamilies := []
  wantedBy := [text "multi-user.target"]
  extraHardening := []
  accepted := by decide

/-- The second line is read as a setting that was never declared. -/
theorem described_adds_setting :
    (.setting (text "OnFailure") (text "reboot.target") ∈
        UnitFile.read described.render ∧
      .setting (text "OnFailure") (text "reboot.target") ∉
        described.declared) ∧
      ¬ described.Survives fun _ => true := by
  have hmore : .setting (text "OnFailure") (text "reboot.target") ∈
      UnitFile.read described.render := by decide
  have hnone : .setting (text "OnFailure") (text "reboot.target") ∉
      described.declared := by decide
  constructor
  · exact ⟨hmore, hnone⟩
  · intro hsurvives
    rw [hsurvives.read] at hmore
    exact hnone hmore

end Dovetail.Bundler.SystemdUnit
