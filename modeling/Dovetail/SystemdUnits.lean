import Dovetail.MarkupText
import Dovetail.PurgePaths
import Dovetail.UnitValues
import Dovetail.UpdaterManifest

/-!
# The unit of a service

`SystemdUnit` checks what it is given where `systemd` would drop it, and
writes every value into its line as it is.  A value with a line end in it is
more than one line, a backslash at its end takes the next line in, and
percent signs, quotes and backslashes stand for something else.
-/

namespace Dovetail.Bundler

open CodeUnits

inductive SystemdServiceType where
  | exec
  | simple
  | notify
  | forking
  deriving DecidableEq

def SystemdServiceType.wireName : SystemdServiceType → Text
  | .exec => text "exec"
  | .simple => text "simple"
  | .notify => text "notify"
  | .forking => text "forking"

structure SystemdDirectory where
  name : Text
  mode : Text
  deriving DecidableEq

/-- What a unit is made of; sets and maps in the order they are given. -/
structure SystemdSettings where
  fileName : Text
  description : Text
  execStart : Text
  documentation : Option Text
  after : List Text
  execStopPost : Option Text
  type : SystemdServiceType
  restart : Text
  restartSeconds : Int
  timeoutStopSeconds : Int
  runtimeDirectory : Option SystemdDirectory
  logsDirectory : Option SystemdDirectory
  stateDirectory : Option SystemdDirectory
  capabilityBoundingSet : List Text
  ambientCapabilities : List Text
  protectSystem : Text
  restrictAddressFamilies : List Text
  wantedBy : List Text
  extraHardening : List (Text × Text)

namespace SystemdSettings

variable (settings : SystemdSettings)

def escaping : List Text :=
  settings.ambientCapabilities.filter fun capability =>
    capability ∉ settings.capabilityBoundingSet

def checkDirectory (directory : Option SystemdDirectory) :
    Except BundleFailure Unit :=
  match directory with
  | none => .ok ()
  | some directory =>
      if directory.name.head? = some slash then
        .error
          { message := text "the directory \"" ++ directory.name ++
              text "\" is absolute."
            remedy := some (text "RuntimeDirectory, LogsDirectory and StateDirectory are named relative to /run, /var/log and /var/lib. systemd refuses an absolute value.") }
      else .ok ()

/-- The checks of the constructor, in its order. -/
def check : Except BundleFailure Unit :=
  if !(text ".service").isSuffixOf settings.fileName then
    .error
      { message := text "the unit file is named \"" ++ settings.fileName ++
          text "\"."
        remedy := some (text "systemd decides what a unit is from its extension. Name it <something>.service.") }
  else if (trim settings.execStart).head? ≠ some slash then
    .error
      { message := text "ExecStart is \"" ++ settings.execStart ++
          text "\", which is not an absolute path."
        remedy := some (text "systemd resolves nothing on PATH for a system unit. Give the installed location of the executable.") }
  else if settings.wantedBy = [] then
    .error
      { message := text "the unit declares no WantedBy, so it has no [Install] section."
        remedy := some (text "systemctl enable creates no symlink for a unit with no install target. The package would install a service that never starts at boot, and nothing would report an error.") }
  else if settings.escaping ≠ [] then
    .error
      { message := text "ambient capabilities " ++
          Updater.join (text ", ") settings.escaping ++
          text " are not in the bounding set."
        remedy := some (text "systemd drops an ambient capability that the bounding set does not carry, and it does so silently: the service starts, and the privileged call fails at the moment a user needs it.") }
  else
    [settings.runtimeDirectory, settings.logsDirectory,
      settings.stateDirectory].forM checkDirectory

end SystemdSettings

structure SystemdUnit extends SystemdSettings where
  accepted : toSystemdSettings.check = .ok ()

namespace SystemdUnit

def sorted (values : List Text) : List Text :=
  values.insertionSort (· ≤ ·)

/-- The entries of a map in the order of its keys. -/
def sortedEntries (entries : List (Text × Text)) : List (Text × Text) :=
  entries.insertionSort fun first second => first.1 ≤ second.1

def assignment (key : String) (value : Text) : Text :=
  text key ++ text "=" ++ value

def directoryLines (key : String) (directory : Option SystemdDirectory) :
    List Text :=
  match directory with
  | none => []
  | some directory =>
      [assignment key directory.name,
        assignment (key ++ "Mode") directory.mode]

def listLines (key : String) (values : List Text) : List Text :=
  if values = [] then []
  else [assignment key (Updater.join (text " ") values)]

/-- A value that is written unless it is blank. -/
def optionalLines (key : String) (value : Option Text) : List Text :=
  match value with
  | none => []
  | some value => if trim value = [] then [] else [assignment key value]

def seconds (value : Int) : Text := text (toString value) ++ text "s"

variable (unit : SystemdUnit)

def lines : List Text :=
  [text "[Unit]", assignment "Description" unit.description] ++
    optionalLines "Documentation" unit.documentation ++
    listLines "After" unit.after ++
    [[], text "[Service]", assignment "Type" unit.type.wireName,
      assignment "ExecStart" unit.execStart] ++
    optionalLines "ExecStopPost" unit.execStopPost ++
    [assignment "Restart" unit.restart,
      assignment "RestartSec" (seconds unit.restartSeconds),
      assignment "TimeoutStopSec" (seconds unit.timeoutStopSeconds)] ++
    directoryLines "RuntimeDirectory" unit.runtimeDirectory ++
    directoryLines "LogsDirectory" unit.logsDirectory ++
    directoryLines "StateDirectory" unit.stateDirectory ++
    listLines "CapabilityBoundingSet" (sorted unit.capabilityBoundingSet) ++
    listLines "AmbientCapabilities" (sorted unit.ambientCapabilities) ++
    [text "NoNewPrivileges=yes",
      assignment "ProtectSystem" unit.protectSystem, text "ProtectHome=yes",
      text "PrivateTmp=yes", text "ProtectClock=yes",
      text "ProtectHostname=yes", text "ProtectControlGroups=yes",
      text "RestrictNamespaces=yes", text "RestrictRealtime=yes",
      text "RestrictSUIDSGID=yes", text "LockPersonality=yes",
      text "MemoryDenyWriteExecute=yes",
      text "SystemCallArchitectures=native", text "RemoveIPC=yes",
      text "UMask=0077"] ++
    listLines "RestrictAddressFamilies"
      (sorted unit.restrictAddressFamilies) ++
    ((sortedEntries unit.extraHardening).map fun entry =>
      entry.1 ++ text "=" ++ entry.2) ++
    [[], text "[Install]",
      assignment "WantedBy" (Updater.join (text " ") unit.wantedBy)]

def render : Text := unit.lines.flatMap fun line => line ++ [newline]

/-! ## What is declared -/

def directoryItems (key : String) (directory : Option SystemdDirectory) :
    List UnitFile.Item :=
  match directory with
  | none => []
  | some directory =>
      [.setting (text key) directory.name,
        .setting (text (key ++ "Mode")) directory.mode]

def listItems (key : String) (values : List Text) : List UnitFile.Item :=
  if values = [] then []
  else [.setting (text key) (Updater.join (text " ") values)]

def optionalItems (key : String) (value : Option Text) :
    List UnitFile.Item :=
  match value with
  | none => []
  | some value =>
      if trim value = [] then [] else [.setting (text key) value]

/-- Settings that are the same in every unit. -/
def hardening : List (String × String) :=
  [("ProtectHome", "yes"), ("PrivateTmp", "yes"), ("ProtectClock", "yes"),
    ("ProtectHostname", "yes"), ("ProtectControlGroups", "yes"),
    ("RestrictNamespaces", "yes"), ("RestrictRealtime", "yes"),
    ("RestrictSUIDSGID", "yes"), ("LockPersonality", "yes"),
    ("MemoryDenyWriteExecute", "yes"),
    ("SystemCallArchitectures", "native"), ("RemoveIPC", "yes"),
    ("UMask", "0077")]

def sections : List UnitFile.Item :=
  [.setting (text "Description") unit.description] ++
    optionalItems "Documentation" unit.documentation ++
    listItems "After" unit.after ++
    [.empty, .header (text "Service"),
      .setting (text "Type") unit.type.wireName,
      .setting (text "ExecStart") unit.execStart] ++
    optionalItems "ExecStopPost" unit.execStopPost ++
    [.setting (text "Restart") unit.restart,
      .setting (text "RestartSec") (seconds unit.restartSeconds),
      .setting (text "TimeoutStopSec") (seconds unit.timeoutStopSeconds)] ++
    directoryItems "RuntimeDirectory" unit.runtimeDirectory ++
    directoryItems "LogsDirectory" unit.logsDirectory ++
    directoryItems "StateDirectory" unit.stateDirectory ++
    listItems "CapabilityBoundingSet" (sorted unit.capabilityBoundingSet) ++
    listItems "AmbientCapabilities" (sorted unit.ambientCapabilities) ++
    [.setting (text "NoNewPrivileges") (text "yes"),
      .setting (text "ProtectSystem") unit.protectSystem] ++
    (hardening.map fun entry => .setting (text entry.1) (text entry.2)) ++
    listItems "RestrictAddressFamilies"
      (sorted unit.restrictAddressFamilies) ++
    ((sortedEntries unit.extraHardening).map fun entry =>
      .setting entry.1 entry.2) ++
    [.empty, .header (text "Install"),
      .setting (text "WantedBy") (Updater.join (text " ") unit.wantedBy)]

def items : List UnitFile.Item := .header (text "Unit") :: unit.sections

/-- The sections and settings, as a reader is to find them. -/
def declared : List UnitFile.Entry := unit.items.filterMap UnitFile.Item.told

theorem line_assignment (key : String) (value : Text) :
    (UnitFile.Item.setting (text key) value).line = assignment key value := by
  simp [UnitFile.Item.line, assignment]
  rfl

theorem lines_eq : unit.lines = unit.items.map UnitFile.Item.line := by
  have hdirectory (key : String) (directory : Option SystemdDirectory) :
      (directoryItems key directory).map UnitFile.Item.line =
        directoryLines key directory := by
    cases directory with
    | none => rfl
    | some directory =>
        simp only [directoryItems, directoryLines, List.map_cons,
          List.map_nil, line_assignment]
  have hlist (key : String) (values : List Text) :
      (listItems key values).map UnitFile.Item.line =
        listLines key values := by
    unfold listItems listLines
    split_ifs
    · rfl
    · rw [List.map_singleton, line_assignment]
  have hoptional (key : String) (value : Option Text) :
      (optionalItems key value).map UnitFile.Item.line =
        optionalLines key value := by
    cases value with
    | none => rfl
    | some value =>
        unfold optionalItems optionalLines
        simp only
        split_ifs
        · rfl
        · rw [List.map_singleton, line_assignment]
  have hheader : ∀ name ∈ ["Unit", "Service", "Install"],
      (UnitFile.Item.header (text name)).line =
        text ("[" ++ name ++ "]") := by decide
  have hempty : UnitFile.Item.empty.line = [] := rfl
  have hextra : (sortedEntries unit.extraHardening).map
      (fun entry => entry.1 ++ text "=" ++ entry.2) =
        ((sortedEntries unit.extraHardening).map fun entry =>
          UnitFile.Item.setting entry.1 entry.2).map UnitFile.Item.line := by
    rw [List.map_map]
    apply List.map_congr_left
    intro entry _
    simp [UnitFile.Item.line]
    rfl
  have hunit := hheader "Unit" (by simp)
  have hservice := hheader "Service" (by simp)
  have hinstall := hheader "Install" (by simp)
  rw [lines, hextra]
  simp only [items, sections, hardening, List.map_cons, List.map_append,
    List.map_nil, hdirectory, hlist, hoptional, hunit, hservice, hinstall,
    hempty, line_assignment, List.cons_append, List.nil_append,
    List.append_assoc]
  simp only [assignment, MarkupText.text_join_last, String.reduceAppend]

end SystemdUnit

end Dovetail.Bundler
