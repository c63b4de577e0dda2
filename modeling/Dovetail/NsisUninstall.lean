import Dovetail.NsisScript

/-!
# What the NSIS uninstaller undoes

The commands of the script run on the files and the registry of a machine.
The uninstaller is a process of its own: it starts with the current user and
the registry view of 32 bits and has no `.onInit`, so it deletes the keys of
the user, whichever the installer wrote, and the whole install directory.
-/

namespace Dovetail.Bundler

open CodeUnits
open WriteJournal

namespace Nsis

/-! ## The machine -/

inductive Hive where
  | currentUser
  | localMachine
  deriving DecidableEq

inductive View where
  | view32
  | view64
  deriving DecidableEq

structure RegistryKey where
  hive : Hive
  view : View
  path : List Text
  deriving DecidableEq

inductive RegistryValue where
  | string (value : Text)
  | dword (value : Nat)
  deriving DecidableEq

abbrev Values := List (Text × RegistryValue)

structure Machine where
  files : List Text → Option (List UInt8)
  registry : RegistryKey → Option Values

structure Process where
  files : Journal (List Text) (List UInt8)
  registry : Journal RegistryKey Values
  hive : Hive
  view : View
  outDir : List Text

/-- Where the installer runs and what the compiler put into it: the files
below the application's directory, and those a `File` names.  Names of files
and keys are compared by what they fold to. -/
structure Environment where
  fold : Text → Text
  runsX64 : Bool
  instDir : Text
  appFiles : List (List Text × List UInt8)
  found : Text → List (Text × List UInt8)
  uninstaller : List UInt8
  hookMacro : Text → String → Process → Process

def Machine.start (machine : Machine) : Process where
  files := .fresh machine.files
  registry := .fresh machine.registry
  hive := .currentUser
  view := .view32
  outDir := []

def Process.machine (process : Process) : Machine where
  files := process.files.store
  registry := process.registry.store

/-! ## Paths -/

def isSeparator (unit : UInt16) : Bool := unit = slash || unit = backslash

/-- The names of a path; `..` leaves the directory before it. -/
def resolve (path : Text) : List Text :=
  ((path.splitOnP isSeparator).filter fun name =>
    name ≠ [] ∧ name ≠ text ".").foldl
      (fun above name =>
        if name = text ".." then above.dropLast else above ++ [name]) []

namespace Environment

variable (env : Environment)

def locate (path : Text) : List Text := (resolve path).map env.fold

def root : List Text := env.locate env.instDir

def below (path : Text) : List Text :=
  env.locate (env.instDir ++ text "\\" ++ path)

def keyPath (key : Text) : List Text :=
  ((key.splitOn backslash).filter fun name => name ≠ []).map env.fold

/-- The keys of a user are the same in both views. -/
def keyOf (hive : Hive) (view : View) (key : Text) : RegistryKey where
  hive := hive
  view := if hive = .currentUser then .view32 else view
  path := env.keyPath key

def textOf (spec : InstallerSpec) : RegText → Text
  | .bareInstDir => env.instDir
  | .instDir => env.instDir
  | .uninstaller => env.instDir ++ text "\\uninstall.exe"
  | .productName => spec.productName
  | .version => spec.version.semantic
  | .manufacturer => spec.manufacturer
  | .mainBinary => spec.mainBinaryName ++ text ".exe"
  | .escaped value => value

end Environment

def keyText (spec : InstallerSpec) : ProductKey → Text
  | .uninstall =>
      text "Software\\Microsoft\\Windows\\CurrentVersion\\Uninstall\\" ++
        spec.productName
  | .product =>
      text "Software\\" ++ spec.manufacturer ++ text "\\" ++ spec.productName

/-! ## Commands -/

def putValue (values : Values) (name : Text) (value : RegistryValue) :
    Values :=
  (values.filter fun entry => entry.1 ≠ name) ++ [(name, value)]

/-- The keys above a key are created with it. -/
def writeValue (registry : Journal RegistryKey Values) (key : RegistryKey)
    (name : Text) (value : RegistryValue) : Journal RegistryKey Values :=
  let opened := (key.path.inits.drop 1).foldl (fun registry path =>
    registry.fill { key with path } []) registry
  opened.put key (putValue ((opened.store key).getD []) name value)

namespace Process

variable (env : Environment) (spec : InstallerSpec)

def keyFor (process : Process) (key : ProductKey) : RegistryKey :=
  env.keyOf process.hive process.view (keyText spec key)

/-- One command.  The check closes the application or ends the installer
before anything is done, and touches no file and no key. -/
def run (process : Process) : Command → Process
  | .languageDialog => process
  | .setShellVarContext mode =>
      { process with
        hive := if mode = .perMachine then .localMachine else .currentUser }
  | .setRegView64 =>
      if env.runsX64 then { process with view := .view64 } else process
  | .setOutPath none => { process with outDir := env.root }
  | .setOutPath (some path) => { process with outDir := env.below path }
  | .hook none _ => process
  | .hook (some file) name => env.hookMacro file name process
  | .checkIfAppIsRunning _ => process
  | .fileRecursive =>
      { process with
        files := env.appFiles.foldl (fun files file =>
          files.put (process.outDir ++ file.1.map env.fold) file.2)
          process.files }
  | .file source =>
      { process with
        files := (env.found source).foldl (fun files file =>
          files.put (process.outDir ++ [env.fold file.1]) file.2)
          process.files }
  | .writeUninstaller =>
      { process with
        files := process.files.put
          (env.root ++ [env.fold (text "uninstall.exe")]) env.uninstaller }
  | .writeRegStr key name value =>
      { process with
        registry := writeValue process.registry
          (process.keyFor env spec key) (text name)
          (.string (env.textOf spec value)) }
  | .writeRegDword key name value =>
      { process with
        registry := writeValue process.registry
          (process.keyFor env spec key) (text name) (.dword value) }
  | .removeInstDir =>
      { process with
        files := {
          store := Journal.removeAll process.files.store fun path =>
            env.root.isPrefixOf path
          wrote := process.files.wrote } }
  | .deleteRegKey key =>
      let deleted := process.keyFor env spec key
      { process with
        registry := {
          store := Journal.removeAll process.registry.store fun other =>
            other.hive = deleted.hive && other.view = deleted.view &&
              deleted.path.isPrefixOf other.path
          wrote := process.registry.wrote } }

def runAll (process : Process) (commands : List Command) : Process :=
  commands.foldl (run env spec) process

end Process

variable (env : Environment) (spec : InstallerSpec)

def installed (before : Machine) : Process :=
  (before.start.runAll env spec (NsisScript.onInit spec)).runAll env spec
    (NsisScript.install spec)

def uninstalled (before : Machine) : Process :=
  (installed env spec before).machine.start.runAll env spec
    (NsisScript.uninstall spec)

/-- Installing and uninstalling leaves nothing that was written and loses
nothing else. -/
structure Undoes (before : Machine) : Prop where
  files : Journal.Undone before.files
    (uninstalled env spec before).files.store
    (installed env spec before).files.wrote
  registry : Journal.Undone before.registry
    (uninstalled env spec before).registry.store
    (installed env spec before).registry.wrote

/-! ## What the installer writes -/

/-- Commands that take nothing away; a hook can do anything. -/
def Writes : Command → Prop
  | .hook (some _) _ => False
  | .removeInstDir => False
  | .deleteRegKey _ => False
  | _ => True

theorem extends_writeValue (registry : Journal RegistryKey Values)
    (key : RegistryKey) (name : Text) (value : RegistryValue) :
    Journal.Extends registry (writeValue registry key name value) := by
  unfold writeValue
  apply Journal.Extends.trans _ (Journal.extends_put _ _ _)
  apply Journal.extends_foldl
  intro journal path
  exact Journal.extends_fill journal _ []

theorem wrote_writeValue (registry : Journal RegistryKey Values)
    (key : RegistryKey) (name : Text) (value : RegistryValue) :
    (writeValue registry key name value).wrote = registry.wrote ++ [key] := by
  unfold writeValue
  dsimp only [Journal.put]
  rw [Journal.wrote_foldl_of_kept]
  intro journal path
  rfl

namespace Process

variable {env : Environment} {spec : InstallerSpec}

/-- The later process has written on. -/
structure Extends (process later : Process) : Prop where
  files : Journal.Extends process.files later.files
  registry : Journal.Extends process.registry later.registry

theorem Extends.refl (process : Process) : Extends process process where
  files := .refl _
  registry := .refl _

theorem Extends.trans {first second third : Process}
    (hfirst : Extends first second) (hsecond : Extends second third) :
    Extends first third where
  files := hfirst.files.trans hsecond.files
  registry := hfirst.registry.trans hsecond.registry

theorem extends_run {command : Command} (hwrites : Writes command)
    (process : Process) : Extends process (process.run env spec command) := by
  cases command with
  | languageDialog => exact .refl process
  | setShellVarContext mode => exact ⟨.refl _, .refl _⟩
  | setRegView64 =>
      rw [run]
      split
      · exact ⟨.refl _, .refl _⟩
      · exact .refl process
  | setOutPath path =>
      cases path with
      | none => exact ⟨.refl _, .refl _⟩
      | some path => exact ⟨.refl _, .refl _⟩
  | hook file name =>
      cases file with
      | none => exact .refl process
      | some file => exact hwrites.elim
  | checkIfAppIsRunning function => exact .refl process
  | fileRecursive =>
      refine ⟨?_, .refl _⟩
      apply Journal.extends_foldl
      intro journal file
      exact Journal.extends_put journal _ _
  | file source =>
      refine ⟨?_, .refl _⟩
      apply Journal.extends_foldl
      intro journal file
      exact Journal.extends_put journal _ _
  | writeUninstaller => exact ⟨Journal.extends_put _ _ _, .refl _⟩
  | writeRegStr key name value =>
      exact ⟨.refl _, extends_writeValue _ _ _ _⟩
  | writeRegDword key name value =>
      exact ⟨.refl _, extends_writeValue _ _ _ _⟩
  | removeInstDir => exact hwrites.elim
  | deleteRegKey key => exact hwrites.elim

theorem extends_runAll {commands : List Command}
    (hwrites : ∀ command ∈ commands, Writes command) (process : Process) :
    Extends process (process.runAll env spec commands) := by
  induction commands generalizing process with
  | nil => exact .refl process
  | cons command commands ih =>
      have hcommand := hwrites command List.mem_cons_self
      have hothers : ∀ other ∈ commands, Writes other :=
        fun other hother => hwrites other (List.mem_cons_of_mem command hother)
      exact (extends_run hcommand process).trans (ih hothers _)

theorem runAll_append (process : Process) (first second : List Command) :
    process.runAll env spec (first ++ second) =
      (process.runAll env spec first).runAll env spec second := by
  simp only [runAll, List.foldl_append]

end Process

theorem writes_onInit {command : Command}
    (hcommand : command ∈ NsisScript.onInit spec) : Writes command := by
  unfold NsisScript.onInit at hcommand
  rcases List.mem_append.mp hcommand with hdialog | hcontext
  · split at hdialog
    · rw [List.mem_singleton.mp hdialog]
      trivial
    · simp at hdialog
  · simp only [List.mem_cons, List.not_mem_nil, or_false] at hcontext
    rcases hcontext with rfl | rfl <;> trivial

theorem writes_register {command : Command}
    (hcommand : command ∈ NsisScript.register spec) : Writes command := by
  rcases List.mem_append.mp hcommand with hlisted | hhomepage
  · simp only [List.mem_cons, List.not_mem_nil, or_false] at hlisted
    rcases hlisted with rfl | rfl | rfl | rfl | rfl | rfl | rfl | rfl | rfl <;>
      trivial
  · rcases Option.mem_toList.mp hhomepage with hsome
    rcases Option.map_eq_some_iff.mp hsome with ⟨homepage, -, rfl⟩
    trivial

theorem writes_install (hhooks : spec.installerHooks = none)
    {command : Command} (hcommand : command ∈ NsisScript.install spec) :
    Writes command := by
  unfold NsisScript.install at hcommand
  rw [hhooks] at hcommand
  simp only [List.mem_append, List.mem_cons, List.not_mem_nil, or_false,
    List.mem_flatMap] at hcommand
  rcases hcommand with (((hfirst | ⟨file, -, hfile⟩) | huninstaller) |
    hregister) | rfl
  · rcases hfirst with rfl | rfl | rfl | rfl <;> trivial
  · simp only [NsisScript.stageFile, List.mem_cons, List.not_mem_nil,
      or_false] at hfile
    rcases hfile with rfl | rfl <;> trivial
  · rcases huninstaller with rfl | rfl <;> trivial
  · exact writes_register spec hregister
  · trivial

theorem extends_installed (hhooks : spec.installerHooks = none)
    (before : Machine) :
    before.start.Extends (installed env spec before) :=
  (Process.extends_runAll (fun _ => writes_onInit spec) _).trans
    (Process.extends_runAll (fun _ => writes_install spec hhooks) _)

/-! ## What is written and what is deleted -/

def writtenHive : Hive :=
  if spec.installMode = .perMachine then .localMachine else .currentUser

def writtenView : View := if env.runsX64 then .view64 else .view32

def writtenKey (key : ProductKey) : RegistryKey :=
  env.keyOf (writtenHive spec) (writtenView env) (keyText spec key)

/-- The key the uninstaller deletes, with all that is below it. -/
def deletedKey (key : ProductKey) : RegistryKey :=
  env.keyOf .currentUser .view32 (keyText spec key)

def RegistryKey.holds (key other : RegistryKey) : Bool :=
  other.hive = key.hive && other.view = key.view &&
    key.path.isPrefixOf other.path

def placesOf (file : StagedFile) : List (List Text) :=
  (env.found file.source).map fun held =>
    env.below file.destination ++ [env.fold held.1]

def writtenFiles : List (List Text) :=
  (env.appFiles.map fun file => env.root ++ file.1.map env.fold) ++
    spec.extraFiles.flatMap (placesOf env) ++
    [env.root ++ [env.fold (text "uninstall.exe")]]

theorem runAll_onInit (process : Process) (hview : process.view = .view32) :
    process.runAll env spec (NsisScript.onInit spec) =
      { process with hive := writtenHive spec, view := writtenView env } := by
  have hcontext : process.runAll env spec
      [.setShellVarContext spec.installMode, .setRegView64] =
        { process with hive := writtenHive spec, view := writtenView env } := by
    simp only [Process.runAll, List.foldl_cons, List.foldl_nil, Process.run,
      writtenView]
    split
    · rfl
    · rw [← hview]
      rfl
  unfold NsisScript.onInit
  rw [Process.runAll_append]
  split
  · exact hcontext
  · exact hcontext

/-- A staged file is written to the directory its destination names. -/
theorem runAll_stageFiles (staged : List StagedFile) (process : Process) :
    (process.runAll env spec (staged.flatMap NsisScript.stageFile)).files.wrote =
        process.files.wrote ++ staged.flatMap (placesOf env) ∧
      (process.runAll env spec
        (staged.flatMap NsisScript.stageFile)).registry = process.registry ∧
      (process.runAll env spec
        (staged.flatMap NsisScript.stageFile)).hive = process.hive ∧
      (process.runAll env spec
        (staged.flatMap NsisScript.stageFile)).view = process.view := by
  induction staged generalizing process with
  | nil => simp [Process.runAll]
  | cons file staged ih =>
      rw [List.flatMap_cons, Process.runAll_append]
      rcases ih (process.runAll env spec (NsisScript.stageFile file)) with
        ⟨hwrote, hregistry, hhive, hview⟩
      rw [hwrote, hregistry, hhive, hview]
      constructor
      · simp only [NsisScript.stageFile, Process.runAll, List.foldl_cons,
          List.foldl_nil, Process.run, Journal.wrote_foldl_put, placesOf,
          List.flatMap_cons, List.append_assoc]
      · exact ⟨rfl, rfl, rfl⟩

theorem runAll_register (process : Process) :
    (process.runAll env spec (NsisScript.register spec)).files =
        process.files ∧
      ∀ key, key ∈ (process.runAll env spec
          (NsisScript.register spec)).registry.wrote ↔
        key ∈ process.registry.wrote ∨
          key = process.keyFor env spec .uninstall ∨
          key = process.keyFor env spec .product := by
  unfold NsisScript.register
  cases spec.homepage with
  | none =>
      constructor
      · rfl
      · intro key
        simp [Process.runAll, Process.run, wrote_writeValue, Process.keyFor]
        tauto
  | some homepage =>
      constructor
      · rfl
      · intro key
        simp [Process.runAll, Process.run, wrote_writeValue, Process.keyFor]
        tauto

theorem wrote_installed (hhooks : spec.installerHooks = none)
    (before : Machine) :
    (installed env spec before).files.wrote = writtenFiles env spec ∧
      ∀ key, key ∈ (installed env spec before).registry.wrote ↔
        key = writtenKey env spec .uninstall ∨
          key = writtenKey env spec .product := by
  unfold installed NsisScript.install
  rw [runAll_onInit env spec before.start rfl, hhooks]
  simp only [Process.runAll_append]
  -- the commands before the staged files, and those after them
  generalize happlication : Process.runAll env spec _
    [.setOutPath none, _, _, _] = application
  have hwrote : application.files.wrote =
      env.appFiles.map fun file => env.root ++ file.1.map env.fold := by
    rw [← happlication]
    simp [Process.runAll, Process.run, Journal.wrote_foldl_put, Machine.start,
      Journal.fresh]
  have hregistry : application.registry.wrote = [] := by
    rw [← happlication]
    rfl
  have hkeyFor : ∀ key,
      application.keyFor env spec key = writtenKey env spec key := by
    intro key
    rw [← happlication]
    rfl
  rcases runAll_stageFiles env spec spec.extraFiles application with
    ⟨hstaged, hkept, hhive, hview⟩
  generalize Process.runAll env spec application
    (spec.extraFiles.flatMap NsisScript.stageFile) = staged at *
  generalize hwriter : Process.runAll env spec staged
    [.setOutPath none, .writeUninstaller] = writer
  rcases runAll_register env spec writer with ⟨hfiles, hkeys⟩
  generalize Process.runAll env spec writer
    (NsisScript.register spec) = registered at *
  constructor
  · change registered.files.wrote = _
    rw [hfiles, ← hwriter]
    change staged.files.wrote ++ _ = _
    rw [hstaged, hwrote]
    rfl
  · intro key
    change key ∈ registered.registry.wrote ↔ _
    have hwriterKey : ∀ key,
        writer.keyFor env spec key = writtenKey env spec key := by
      intro key
      rw [← hkeyFor, ← hwriter]
      change env.keyOf staged.hive staged.view _ = _
      rw [hhive, hview]
      rfl
    have hnone : writer.registry.wrote = [] := by
      rw [← hwriter]
      change staged.registry.wrote = []
      rw [hkept, hregistry]
    rw [hkeys, hnone, hwriterKey, hwriterKey]
    simp

theorem uninstalled_files (hhooks : spec.installerHooks = none)
    (before : Machine) :
    (uninstalled env spec before).files.store =
      Journal.removeAll (installed env spec before).files.store fun path =>
        env.root.isPrefixOf path := by
  unfold uninstalled NsisScript.uninstall
  rw [hhooks]
  rfl

theorem uninstalled_registry (hhooks : spec.installerHooks = none)
    (before : Machine) :
    (uninstalled env spec before).registry.store =
      Journal.removeAll (installed env spec before).registry.store fun key =>
        (deletedKey env spec .uninstall).holds key ||
          (deletedKey env spec .product).holds key := by
  rw [← Journal.removeAll_removeAll]
  unfold uninstalled NsisScript.uninstall
  rw [hhooks]
  rfl

theorem deletedKey_holds (key : ProductKey) :
    (deletedKey env spec key).holds (deletedKey env spec key) = true := by
  simp [RegistryKey.holds]

/-- For the current user the keys are those the installer wrote; for the
machine they are of another hive. -/
theorem holds_writtenKey_iff (key : ProductKey) :
    ((deletedKey env spec .uninstall).holds (writtenKey env spec key) ||
      (deletedKey env spec .product).holds (writtenKey env spec key)) = true ↔
        spec.installMode = .currentUser := by
  cases hmode : spec.installMode with
  | currentUser =>
      have hkey : writtenKey env spec key = deletedKey env spec key := by
        simp [writtenKey, deletedKey, writtenHive, hmode, Environment.keyOf]
      have hholds := deletedKey_holds env spec key
      rw [hkey]
      cases key with
      | uninstall => simp [hholds]
      | product => simp [hholds]
  | perMachine =>
      simp [RegistryKey.holds, writtenKey, deletedKey, writtenHive, hmode,
        Environment.keyOf]

theorem undone_files_iff (hhooks : spec.installerHooks = none)
    (before : Machine) :
    Journal.Undone before.files (uninstalled env spec before).files.store
        (installed env spec before).files.wrote ↔
      (∀ path ∈ writtenFiles env spec, env.root <+: path) ∧
        ∀ path, before.files path ≠ none → env.root <+: path →
          path ∈ writtenFiles env spec := by
  have hextends := (extends_installed env spec hhooks before).files
  rw [uninstalled_files env spec hhooks,
    Journal.undone_removeAll_iff hextends,
    (wrote_installed env spec hhooks before).1]
  simp only [List.isPrefixOf_iff_prefix]

theorem undone_registry_iff (hhooks : spec.installerHooks = none)
    (before : Machine) :
    Journal.Undone before.registry
        (uninstalled env spec before).registry.store
        (installed env spec before).registry.wrote ↔
      spec.installMode = .currentUser ∧
        ∀ key, before.registry key ≠ none →
          ((deletedKey env spec .uninstall).holds key ||
            (deletedKey env spec .product).holds key) = true →
          key = writtenKey env spec .uninstall ∨
            key = writtenKey env spec .product := by
  have hextends := (extends_installed env spec hhooks before).registry
  rw [uninstalled_registry env spec hhooks,
    Journal.undone_removeAll_iff hextends]
  simp only [(wrote_installed env spec hhooks before).2, forall_eq_or_imp,
    forall_eq, holds_writtenKey_iff, and_self]

/-- The application and the uninstaller are always below the root. -/
theorem prefix_writtenFiles_iff :
    (∀ path ∈ writtenFiles env spec, env.root <+: path) ↔
      ∀ file ∈ spec.extraFiles, ∀ place ∈ placesOf env file,
        env.root <+: place := by
  unfold writtenFiles
  simp only [List.mem_append, List.mem_map, List.mem_flatMap,
    List.mem_singleton]
  constructor
  · intro hprefix file hfile place hplace
    exact hprefix place (.inl (.inr ⟨file, hfile, hplace⟩))
  · intro hprefix path hpath
    rcases hpath with (⟨file, -, rfl⟩ | ⟨file, hfile, hplace⟩) | rfl
    · exact List.prefix_append _ _
    · exact hprefix file hfile path hplace
    · exact List.prefix_append _ _

theorem undoes_iff (hhooks : spec.installerHooks = none)
    (before : Machine) :
    Undoes env spec before ↔
      spec.installMode = .currentUser ∧
        (∀ file ∈ spec.extraFiles, ∀ place ∈ placesOf env file,
          env.root <+: place) ∧
        (∀ path, before.files path ≠ none → env.root <+: path →
          path ∈ writtenFiles env spec) ∧
        ∀ key, before.registry key ≠ none →
          ((deletedKey env spec .uninstall).holds key ||
            (deletedKey env spec .product).holds key) = true →
          key = writtenKey env spec .uninstall ∨
            key = writtenKey env spec .product := by
  have hfiles := undone_files_iff env spec hhooks before
  rw [prefix_writtenFiles_iff] at hfiles
  have hregistry := undone_registry_iff env spec hhooks before
  constructor
  · intro hundoes
    rcases hfiles.mp hundoes.files with ⟨hbelow, hlost⟩
    rcases hregistry.mp hundoes.registry with ⟨hmode, hkeys⟩
    exact ⟨hmode, hbelow, hlost, hkeys⟩
  · intro hcondition
    rcases hcondition with ⟨hmode, hbelow, hlost, hkeys⟩
    exact ⟨hfiles.mpr ⟨hbelow, hlost⟩, hregistry.mpr ⟨hmode, hkeys⟩⟩

/-! ### An application of one file -/

def plainSpec (mode : InstallMode) : InstallerSpec where
  productName := text "Demo"
  manufacturer := text "Acme"
  identifier := text "com.acme.demo"
  version := ⟨1, 0, 0, 0⟩
  mainBinaryName := text "demo"
  appDirectory := text "bundle"
  outputDirectory := text "dist"
  installMode := mode
  installerHooks := none
  installerIcon := none
  licenseFile := none
  homepage := none
  extraFiles := []
  installerLanguages := [text "English"]

def plainEnvironment : Environment where
  fold := id
  runsX64 := true
  instDir := text "C:\\Demo"
  appFiles := [([text "demo.exe"], [77, 90])]
  found := fun _ => []
  uninstaller := [77, 90]
  hookMacro := fun _ _ process => process

def emptyMachine : Machine where
  files := fun _ => none
  registry := fun _ => none

/-- A file of the user in the directory that is chosen. -/
def usedMachine : Machine where
  files := Function.update (fun _ => none)
    [text "C:", text "Demo", text "notes.txt"] (some [1])
  registry := fun _ => none

theorem undoes_plain_for_the_user :
    Undoes plainEnvironment (plainSpec .currentUser) emptyMachine := by
  have hiff := undoes_iff plainEnvironment (plainSpec .currentUser) rfl
    emptyMachine
  apply hiff.mpr
  refine ⟨rfl, ?_, ?_, ?_⟩
  · intro file hfile
    simp [plainSpec] at hfile
  · intro path hpath
    exact (hpath rfl).elim
  · intro key hkey
    exact (hkey rfl).elim

/-- Installed for the machine, its keys are left; installed into a directory
that is in use, the files there are lost. -/
theorem not_undoes_plain :
    ¬ Undoes plainEnvironment (plainSpec .perMachine) emptyMachine ∧
      ¬ Undoes plainEnvironment (plainSpec .currentUser) usedMachine := by
  constructor
  · intro hundoes
    have hregistry := (undone_registry_iff plainEnvironment
      (plainSpec .perMachine) rfl emptyMachine).mp hundoes.registry
    exact absurd hregistry.1 (by decide)
  · intro hundoes
    have hfiles := (undone_files_iff plainEnvironment
      (plainSpec .currentUser) rfl usedMachine).mp hundoes.files
    have hused : usedMachine.files
        [text "C:", text "Demo", text "notes.txt"] ≠ none := by
      simp [usedMachine]
    have hwritten := hfiles.2 _ hused (by decide)
    exact absurd hwritten (by decide)

end Nsis

end Dovetail.Bundler
