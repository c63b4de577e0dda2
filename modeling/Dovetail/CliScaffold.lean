import Dovetail.FallibleSteps
import Dovetail.NsisEscapes
import Dovetail.UpdaterFileName

/-!
# A new project

`NewCommand.run` with `--no-create` checks the name, locates what the scaffold
points at, and then writes: the directories, the bridge, the template of the
application, the pubspec and the configuration.  The journal of a run holds
what it did to the disk, in order.
-/

namespace Dovetail.Cli.New

open CodeUnits FallibleSteps Updater
open Bundler.NsisText (replaceAll)

/-! ## What is done to the disk -/

inductive Effect where
  | directory (path : Text)
  | file (path content : Text)
  | executable (path : Text)
  deriving DecidableEq

/-- The path package and the modes of the host. -/
structure Host where
  style : PathStyle
  windows : Bool

def Host.join (host : Host) (directory part : Text) : Text :=
  host.style.join directory part

structure YamlException where
  message : Text
  deriving DecidableEq

inductive NewFailure where
  | usage (message usage : Text)
  /-- The error of an index that is not there. -/
  | range
  | yaml (failure : YamlException)
  deriving DecidableEq

abbrev Steps := EStateM NewFailure (List Effect)

def perform (effects : List Effect) : Steps Unit :=
  modify fun journal => journal ++ effects

/-! ## Templates -/

/-- What a directory of a template lists. -/
inductive TemplateEntity where
  | directory (name : Text) (entities : List TemplateEntity)
  | file (name content : Text) (executable : Bool)

/-- The placeholders in the order they are replaced in. -/
abbrev Values := List (Text × Text)

def placeholder (key : Text) : Text :=
  text "\x7b\x7b" ++ key ++ text "\x7d\x7d"

def render (values : Values) (source : Text) : Text :=
  values.foldl
    (fun rendered entry => replaceAll (placeholder entry.1) entry.2 rendered)
    source

def templateSuffix : Text := text ".template"

def renderedName (values : Values) (basename : Text) : Text :=
  let rendered := render values basename
  if templateSuffix.isSuffixOf rendered then
    rendered.take (rendered.length - templateSuffix.length)
  else rendered

section Walk

variable (host : Host) (values : Values)

def keepExecutable (executable : Bool) (target : Text) : List Effect :=
  if !host.windows && executable then [.executable target] else []

mutual

def walk (destination : Text) : List TemplateEntity → List Effect
  | [] => []
  | entity :: entities => walkEntity destination entity ++ walk destination entities

def walkEntity (destination : Text) : TemplateEntity → List Effect
  | .directory name entities =>
      .directory (host.join destination (renderedName values name)) ::
        walk (host.join destination (renderedName values name)) entities
  | .file name content executable =>
      .file (host.join destination (renderedName values name))
          (render values content) ::
        keepExecutable host executable
          (host.join destination (renderedName values name))

end

def renderTree (destination : Text) (entities : List TemplateEntity) : List Effect :=
  .directory destination :: walk host values destination entities

end Walk

/-! ## The names of a project -/

def isLetter (unit : UInt16) : Bool :=
  (65 ≤ unit && unit ≤ 90) || (97 ≤ unit && unit ≤ 122)

def isDigit (unit : UInt16) : Bool := 48 ≤ unit && unit ≤ 57

def underscore : UInt16 := 95

/-- The pattern `^[a-zA-Z][a-zA-Z0-9_]*$`. -/
def namePattern : Text → Bool
  | [] => false
  | first :: rest =>
      isLetter first &&
        rest.all fun unit =>
          isLetter unit || isDigit unit || unit == underscore

/-- The upper case of a unit of ASCII. -/
def upper (unit : UInt16) : UInt16 :=
  if 97 ≤ unit ∧ unit ≤ 122 then unit - 32 else unit

def lower (unit : UInt16) : UInt16 :=
  if 65 ≤ unit ∧ unit ≤ 90 then unit + 32 else unit

/-- The first unit of a word in upper case; an empty word has none. -/
def capitalized : Text → Option Text
  | [] => none
  | first :: rest => some (upper first :: rest)

def toPascalCase (snake : Text) : Option Text :=
  ((snake.splitOn underscore).mapM capitalized).map List.flatten

/-- No two underscores of the name are next to each other, and it neither
begins nor ends with one. -/
def WordsNonempty (name : Text) : Prop :=
  [] ∉ name.splitOn underscore

instance (name : Text) : Decidable (WordsNonempty name) :=
  inferInstanceAs (Decidable (¬ _))

theorem isSome_toPascalCase_iff (snake : Text) :
    (toPascalCase snake).isSome ↔ WordsNonempty snake := by
  have hwords : ∀ words : List Text,
      (words.mapM capitalized).isSome ↔ [] ∉ words := by
    intro words
    induction words with
    | nil => simp
    | cons word words ih =>
        rw [List.mapM_cons, List.mem_cons, not_or, ← ih]
        cases word with
        | nil => simp [capitalized]
        | cons first rest =>
            cases words.mapM capitalized with
            | none => simp [capitalized]
            | some capitals => simp [capitalized]
  unfold toPascalCase WordsNonempty
  rw [Option.isSome_map]
  exact hwords _

/-! ## The files that are not in a template -/

/-- A text inside the double quotes of YAML. -/
def yamlEscaped (path : Text) : Text :=
  replaceAll (text "\"") (text "\\\"")
    (replaceAll (text "\\") (text "\\\\") path)

def pubspec (name dovetailPath : Text) : Text :=
  text "name: " ++ name ++ text "\n" ++
    text "description: >-\n" ++
    text "  A dovetail desktop project: Flutter UI, Rust core and bridge.\n" ++
    text "version: 0.1.0+1\npublish_to: none\n\nenvironment:\n" ++
    text "  sdk: ^3.12.0\n  flutter: \">=3.24.0\"\n\ndependencies:\n" ++
    text "  flutter:\n    sdk: flutter\n  dovetail:\n    path: \"" ++
    yamlEscaped dovetailPath ++
    text "\"\n  core_bridge:\n    path: core_bridge\n" ++
    text "  weave_di: ^3.4.1\n\ndev_dependencies:\n" ++
    text "  flutter_test:\n    sdk: flutter\n  flutter_lints: ^6.0.0\n"

/-- What the YAML package makes of a text: the string under the key `name` of
the document, when there is one. -/
structure YamlDocument where
  name : Option Text

abbrev LoadYaml := Text → Except YamlException YamlDocument

def nameOf (loadYaml : LoadYaml) (source : Text) :
    Except YamlException (Option Text) :=
  (loadYaml source).map fun document =>
    document.name.filter fun name => !name.isEmpty

def suggestedWord : Text → Text
  | [] => []
  | first :: rest => upper first :: rest.map lower

/-- The name in the configuration, from the name of the package or else from
that of the directory. -/
def suggestedName (packageName : Option Text) (basename : Text) : Text :=
  match packageName with
  | none => basename
  | some name =>
      (text " ").intercalate
        (((name.splitOnP fun unit => unit == underscore || unit == 45).filter
          fun word => !word.isEmpty).map suggestedWord)

def platforms : List Text := [text "macos", text "windows", text "linux"]

/-- The targets of the directories a scaffold makes. -/
def targets : List Text :=
  [text "darwin-x86_64", text "darwin-aarch64", text "windows-x86_64",
    text "windows-aarch64", text "linux-x86_64", text "linux-aarch64"]

def iconCandidates (host : Host) : List Text :=
  [host.join (text "assets") (text "icon.png"),
    host.join (host.join (text "assets") (text "images")) (text "icon.png"),
    host.join (host.join (text "assets") (text "icons")) (text "icon.png")]

def stands (journal : List Effect) (path : Text) : Bool :=
  journal.any fun effect =>
    match effect with
    | .file other _ => other == path
    | _ => false

def iconPath (host : Host) (projectRoot : Text) (journal : List Effect) :
    Option Text :=
  (iconCandidates host).find? fun candidate =>
    stands journal (host.join projectRoot candidate)

/-- `ConfigTemplate.render`. -/
def configText (identifier suggested : Text) (icon : Option Text) : Text :=
  let lines :=
    [text "# Written by: dovetail init",
      text "# The version is read from pubspec.yaml, never repeated here.",
      [],
      text "identifier: " ++ identifier,
      text "name: " ++ suggested,
      text "manufacturer: " ++ suggested,
      [],
      text "# One platform key per artefact this product ships.",
      text "# A key no client asks for is a release nobody can see.",
      text "targets:"] ++
    targets.map (fun target => text "  - " ++ target) ++
    [[],
      text "update:",
      text "  key: keys/update.key",
      text "  password-env: DOVETAIL_UPDATE_KEY_PASSWORD",
      text "  # Uncomment and point at your own host: dovetail ship",
      text "  # refuses without it, because the url is the one part of",
      text "  # the manifest it cannot derive from the project. The url",
      text "  # is built as <base-url>/<version>/<file>.",
      text "  # base-url: https://cdn.example.com/releases",
      text "  manifest: dist/latest.json",
      text "  # Paste the public-key line that `dovetail keygen` prints:",
      text "  # doctor says `missing update` and ship refuses without it.",
      text "  # public-key: <base64 from dovetail keygen>",
      [],
      text "# Identities are never written here, only the variables",
      text "# that carry them, so this file is safe to commit.",
      text "sign:",
      text "  macos:",
      text "    identity-env: DOVETAIL_MACOS_IDENTITY"] ++
    (if icon.isSome then
      [text "    # entitlements: macos/Runner/Release.entitlements"]
    else []) ++
    [text "    notarize: false",
      text "  windows:",
      text "    certificate-env: DOVETAIL_WINDOWS_CERTIFICATE",
      text "    timestamp-url: http://timestamp.digicert.com"] ++
    (match icon with
      | none => []
      | some path =>
          [[], text "# Detected: " ++ path,
            text "#   dovetail icon --source " ++ path])
  lines.flatMap fun line => line ++ text "\n"

structure SdkInstall where
  packagesDir : Text
  /-- The directories with a pubspec, in order. -/
  packages : List Text

/-- `SdkOverrides.render`. -/
def overridesText (host : Host) (sdk : SdkInstall) :
    Except NewFailure Text :=
  if sdk.packages = [] then
    .error (.usage
      (text "the dovetail SDK at " ++ sdk.packagesDir ++
        text " carries no packages.")
      (text "A directory with no pubspec.yaml is not a package, and an " ++
        text "override to nothing is a pub get that fails. Reinstall the SDK."))
  else
    .ok
      (text "# Written by dovetail. Do not version: paths are local.\n" ++
        text "dependency_overrides:\n" ++
        sdk.packages.flatMap fun package =>
          text "  " ++ package ++ text ":\n    path: \"" ++
            yamlEscaped (host.join sdk.packagesDir package) ++ text "\"\n")

/-! ## The command -/

structure Arguments where
  root : Text
  /-- The option `--name`, or else the first argument. -/
  name : Option Text
  identifier : Option Text
  dovetailPath : Option Text
  useSdk : Bool

structure Bridge where
  entities : List TemplateEntity
  rustCoreDart : Text
  rustCoreRust : Text

/-- What the command finds before it writes. -/
structure Located where
  usage : Text
  /-- The last name of the root's path. -/
  rootName : Text
  projectExists : Bool
  sdk : Option SdkInstall
  sdkHome : Text
  /-- The runtime beside the project, or else in the installed SDK. -/
  computedPath : Option Text
  template : Option (List TemplateEntity)
  bridge : Option Bridge

def validateName (usage name : Text) : Steps Unit :=
  if namePattern name then pure ()
  else
    throw (.usage (text "\"" ++ name ++ text "\" is not a valid project name.")
      (text "A project name must start with a letter and contain only " ++
        text "letters, digits and underscores.\n\n" ++ usage))

def pathRefusal (projectRoot : Text) : Text × Text :=
  (text "the dovetail library could not be located from " ++ projectRoot ++
      text ".",
    text "A scaffold whose path dependency points nowhere fails on its first " ++
      text "flutter pub get, which is a lie about being set up. Put the new " ++
      text "project inside the dovetail repository (that is where --root " ++
      text "points, not where you run from), pass --dovetail-path <dir with " ++
      text "pubspec.yaml>, or install the SDK (dovetail self-install) so " ++
      text "the scaffold points at it.")

def templateRefusal : Text × Text :=
  (text "the app template could not be located.",
    text "Pass --template <dir with tool/sdk/templates/app>, or install the " ++
      text "SDK (dovetail self-install) so the template ships beside the " ++
      text "runtime.")

def bridgeRefusal : Text × Text :=
  (text "the bridge template could not be located.",
    text "The bridge comes from the same place as the runtime. Pass " ++
      text "--bridge-template <dir with the bridge template>, install the SDK " ++
      text "(dovetail self-install), or put the new project inside the " ++
      text "dovetail repository (that is where --root points, not where you " ++
      text "run from). It has to match --template: template and dovetail_rust_core " ++
      text "are one thing.")

def refuseTogether (usage : Text) (refusals : List (Text × Text)) :
    NewFailure :=
  match refusals with
  | [refusal] => .usage refusal.1 (refusal.2 ++ text "\n\n" ++ usage)
  | _ =>
      .usage
        (text (toString refusals.length) ++
          text " things this scaffold would point at could not be located.")
        (text "Listed together so one run shows every fix, not one per run." ++
          text "\n\n" ++
          trimRight (refusals.flatMap fun refusal =>
            refusal.1 ++ text "\n  " ++ refusal.2 ++ text "\n\n") ++
          text "\n\n" ++ usage)

section Run

variable (host : Host) (loadYaml : LoadYaml)

def bridgeValues (bridge : Bridge) (name : Text) : Values :=
  [(text "name", text "core_bridge"), (text "camel_name", text "CoreBridge"),
    (text "core_crate_name", name ++ text "_core"),
    (text "core_path", text "../../core"),
    (text "rust_core_dart_path", bridge.rustCoreDart),
    (text "rust_core_rust_path", bridge.rustCoreRust)]

def appValues (name camelName : Text) : Values :=
  [(text "name", name), (text "camel_name", camelName)]

/-- The directories that are made before anything is rendered. -/
def bareDirectories (projectRoot : Text) : List Effect :=
  ([text "lib", text "test"] ++ platforms).map fun name =>
    .directory (host.join projectRoot name)

def writeDovetailYaml (projectRoot identifier name source : Text) :
    Steps Unit := do
  let packageName ←
    match nameOf loadYaml source with
    | .ok packageName => pure packageName
    | .error failure => throw (.yaml failure)
  let journal ← get
  perform
    [.file (host.join projectRoot (text "dovetail.yaml"))
      (configText identifier (suggestedName packageName name)
        (iconPath host projectRoot journal))]

def writeSdkOverrides (projectRoot : Text) (sdk : SdkInstall) :
    Steps Unit :=
  match overridesText host sdk with
  | .ok content =>
      perform
        [.file (host.join projectRoot (text "pubspec_overrides.yaml")) content]
  | .error failure => throw failure

/-- What `run` does once everything is located. -/
def scaffold (projectRoot name identifier resolvedPath : Text)
    (template : List TemplateEntity) (bridge : Bridge)
    (sdk : Option SdkInstall) : Steps Unit := do
  perform (bareDirectories host projectRoot)
  perform (renderTree host (bridgeValues bridge name)
    (host.join projectRoot (text "core_bridge")) bridge.entities)
  let camelName ←
    match toPascalCase name with
    | some camelName => pure camelName
    | none => throw .range
  perform (renderTree host (appValues name camelName) projectRoot template)
  perform
    [.file (host.join projectRoot (text "pubspec.yaml"))
      (pubspec name resolvedPath)]
  writeDovetailYaml host loadYaml projectRoot identifier name
    (pubspec name resolvedPath)
  match sdk with
  | some sdk => writeSdkOverrides host projectRoot sdk
  | none => pure ()

/-- The path the pubspec points at. -/
def resolvedPath (arguments : Arguments) (located : Located) : Option Text :=
  if arguments.useSdk then
    some (arguments.dovetailPath.getD (text "toolkit/dovetail"))
  else arguments.dovetailPath <|> located.computedPath

def requireSdk (located : Located) : Steps SdkInstall :=
  match located.sdk with
  | some sdk => pure sdk
  | none =>
      throw (.usage
        (text "no dovetail SDK installed at " ++ located.sdkHome ++
          text "/sdk.")
        (text "The runtime resolves from the installed SDK, and there is " ++
          text "nothing there to point pubspec_overrides.yaml at. Install " ++
          text "one first:\n  curl -fsSL \"$DOVETAIL_INSTALL_URL\"" ++
          text "/install.sh | sh\n\n" ++ located.usage))

def projectName (arguments : Arguments) (located : Located) : Text :=
  arguments.name.getD located.rootName

def projectRoot (arguments : Arguments) (located : Located) : Text :=
  host.join arguments.root (projectName arguments located)

def refusals (arguments : Arguments) (located : Located) :
    List (Text × Text) :=
  (if (resolvedPath arguments located).isSome then []
    else [pathRefusal (projectRoot host arguments located)]) ++
  (if located.template.isSome then [] else [templateRefusal]) ++
  (if located.bridge.isSome then [] else [bridgeRefusal])

def run (arguments : Arguments) (located : Located) : Steps Unit := do
  let name := projectName arguments located
  validateName located.usage name
  let projectRoot := projectRoot host arguments located
  if located.projectExists then
    throw (.usage (projectRoot ++ text " already exists.")
      (text "Remove it or choose a different name.\n\n" ++ located.usage))
  let sdk ←
    if arguments.useSdk then some <$> requireSdk located else pure none
  match resolvedPath arguments located, located.template, located.bridge with
  | some resolvedPath, some template, some bridge =>
      scaffold host loadYaml projectRoot name
        (arguments.identifier.getD (text "com.example." ++ name))
        resolvedPath template bridge sdk
  | _, _, _ =>
      throw (refuseTogether located.usage (refusals host arguments located))

end Run

/-! ## Files of a template -/

/-- A file of a template, by the names that lead to it. -/
inductive TemplateFile : List TemplateEntity → List Text → Text → Prop where
  | here {entities : List TemplateEntity} {name content : Text}
      {executable : Bool}
      (hmem : .file name content executable ∈ entities) :
      TemplateFile entities [name] content
  | inside {entities inner : List TemplateEntity} {name content : Text}
      {names : List Text} (hmem : .directory name inner ∈ entities)
      (hfile : TemplateFile inner names content) :
      TemplateFile entities (name :: names) content

section Files

variable {host : Host} {values : Values} {destination : Text}
variable {entities : List TemplateEntity}

/-- Where the names of a template lead in the project. -/
def placed (host : Host) (values : Values) (destination : Text)
    (names : List Text) : Text :=
  names.foldl
    (fun directory name => host.join directory (renderedName values name))
    destination

theorem mem_walk_of_mem {entity : TemplateEntity} {effect : Effect}
    (hmem : entity ∈ entities)
    (heffect : effect ∈ walkEntity host values destination entity) :
    effect ∈ walk host values destination entities := by
  induction entities with
  | nil => exact absurd hmem List.not_mem_nil
  | cons first entities ih =>
      rw [walk, List.mem_append]
      rcases List.mem_cons.mp hmem with hfirst | hlater
      · rw [← hfirst]
        exact Or.inl heffect
      · exact Or.inr (ih hlater)

theorem mem_walk_of_templateFile {names : List Text} {content : Text}
    (hfile : TemplateFile entities names content) :
    .file (placed host values destination names) (render values content) ∈
      walk host values destination entities := by
  induction hfile generalizing destination with
  | here hmem =>
      apply mem_walk_of_mem hmem
      rw [walkEntity]
      exact List.mem_cons_self
  | inside hmem hfile ih =>
      apply mem_walk_of_mem hmem
      rw [walkEntity]
      exact List.mem_cons_of_mem _ ih

end Files

/-! ## All or nothing -/

section AllOrNothing

variable {host : Host} {loadYaml : LoadYaml}

/-- Every file of both templates is rendered, and the two files that are not
in a template are written. -/
structure Complete (host : Host) (projectRoot name path : Text)
    (template : List TemplateEntity) (bridge : Bridge)
    (journal : List Effect) : Prop where
  rendered : ∃ camelName, toPascalCase name = some camelName ∧
    ∀ names content, TemplateFile template names content →
      .file (placed host (appValues name camelName) projectRoot names)
        (render (appValues name camelName) content) ∈ journal
  bridge : ∀ names content, TemplateFile bridge.entities names content →
    .file (placed host (bridgeValues bridge name)
        (host.join projectRoot (text "core_bridge")) names)
      (render (bridgeValues bridge name) content) ∈ journal
  pubspec : .file (host.join projectRoot (text "pubspec.yaml"))
    (pubspec name path) ∈ journal
  config : ∃ content,
    .file (host.join projectRoot (text "dovetail.yaml")) content ∈ journal

/-- The run is complete, or it throws and has done nothing to the disk. -/
def AllOrNothing (host : Host) (loadYaml : LoadYaml) (arguments : Arguments)
    (located : Located) (path : Text) (template : List TemplateEntity)
    (bridge : Bridge) : Prop :=
  Ensures (run host loadYaml arguments located) []
    (fun _ journal =>
      Complete host (projectRoot host arguments located)
        (projectName arguments located) path template bridge journal)
    (fun _ journal => journal = [])

/-- Nothing behind the first directory can fail. -/
structure Sure (loadYaml : LoadYaml) (name path : Text)
    (sdk : Option SdkInstall) : Prop where
  words : WordsNonempty name
  yaml : ∃ document, loadYaml (pubspec name path) = .ok document
  packages : ∀ install, sdk = some install → install.packages ≠ []

variable {root name identifier path : Text}
variable {template : List TemplateEntity} {bridge : Bridge}
variable {sdk : Option SdkInstall} {journal : List Effect}

@[simp] theorem ensures_perform {effects : List Effect}
    {returned : Unit → List Effect → Prop}
    {thrown : NewFailure → List Effect → Prop} :
    Ensures (perform effects) journal returned thrown ↔
      returned () (journal ++ effects) :=
  Iff.rfl

theorem bareDirectories_ne_nil : bareDirectories host root ≠ [] := by
  simp [bareDirectories]

theorem ensures_writeSdkOverrides {install : SdkInstall}
    {thrown : NewFailure → List Effect → Prop} {kept : List Effect → Prop}
    (hkept : ∀ effects, kept (journal ++ effects))
    (hthrown : ∀ failure, ¬ thrown failure journal) :
    Ensures (writeSdkOverrides host root install) journal
        (fun _ after => kept after) thrown ↔ install.packages ≠ [] := by
  unfold writeSdkOverrides overridesText
  by_cases hpackages : install.packages = []
  · simp [hpackages, hthrown]
  · simp [hpackages, hkept]

/-- What was written stays written. -/
theorem Complete.append
    (hcomplete : Complete host root name path template bridge journal)
    (effects : List Effect) :
    Complete host root name path template bridge (journal ++ effects) := by
  rcases hcomplete.rendered with ⟨camelName, hcamelName, hrendered⟩
  constructor
  case rendered =>
    refine ⟨camelName, hcamelName, ?_⟩
    intro names content hfile
    exact List.mem_append_left _ (hrendered names content hfile)
  case bridge =>
    intro names content hfile
    exact List.mem_append_left _ (hcomplete.bridge names content hfile)
  case pubspec => exact List.mem_append_left _ hcomplete.pubspec
  case config =>
    rcases hcomplete.config with ⟨content, hcontent⟩
    exact ⟨content, List.mem_append_left _ hcontent⟩

/-- The journal of a scaffold that came as far as the configuration. -/
theorem complete_written {camelName content : Text}
    (hcamelName : toPascalCase name = some camelName) :
    Complete host root name path template bridge
      (bareDirectories host root ++
            renderTree host (bridgeValues bridge name)
              (host.join root (text "core_bridge")) bridge.entities ++
          renderTree host (appValues name camelName) root template ++
        [.file (host.join root (text "pubspec.yaml")) (pubspec name path)] ++
      [.file (host.join root (text "dovetail.yaml")) content]) := by
  constructor
  case rendered =>
    refine ⟨camelName, hcamelName, ?_⟩
    intro names source hfile
    have hmem := @mem_walk_of_templateFile host (appValues name camelName)
      root template names source hfile
    simp [renderTree, hmem]
  case bridge =>
    intro names source hfile
    have hmem := @mem_walk_of_templateFile host (bridgeValues bridge name)
      (host.join root (text "core_bridge")) bridge.entities names source hfile
    simp [renderTree, hmem]
  case pubspec => simp
  case config => exact ⟨content, by simp⟩

/-- Behind the first directory the rest is written exactly when every step
that can fail does not. -/
theorem ensures_scaffold_iff :
    Ensures (scaffold host loadYaml root name identifier path template bridge
        sdk) []
      (fun _ journal => Complete host root name path template bridge journal)
      (fun _ journal => journal = []) ↔
      Sure loadYaml name path sdk := by
  have hdirectories := @bareDirectories_ne_nil host root
  unfold scaffold
  simp only [ensures_bind, ensures_perform, List.nil_append]
  cases hpascal : toPascalCase name with
  | none =>
      apply iff_of_false
      · simp [hdirectories]
      · intro hsure
        have hsome := (isSome_toPascalCase_iff name).mpr hsure.words
        rw [hpascal] at hsome
        cases hsome
  | some camelName =>
      have hwords : WordsNonempty name := by
        apply (isSome_toPascalCase_iff name).mp
        rw [hpascal]
        rfl
      simp only [ensures_pure, ensures_perform, writeDovetailYaml,
        ensures_bind]
      cases hyaml : loadYaml (pubspec name path) with
      | error failure =>
          apply iff_of_false
          · simp [nameOf, hyaml, Except.map, hdirectories]
          · intro hsure
            rcases hsure.yaml with ⟨document, hdocument⟩
            rw [hyaml] at hdocument
            cases hdocument
      | ok document =>
          simp only [nameOf, hyaml, Except.map, ensures_pure, ensures_bind,
            ensures_get, ensures_perform]
          have hcomplete {content : Text} :=
            @complete_written host root name path template bridge camelName
              content hpascal
          cases sdk with
          | none =>
              apply iff_of_true
              · exact hcomplete
              · exact ⟨hwords, ⟨document, hyaml⟩, by simp⟩
          | some install =>
              rw [ensures_writeSdkOverrides hcomplete.append (by simp)]
              constructor
              · intro hpackages
                refine ⟨hwords, ⟨document, hyaml⟩, ?_⟩
                intro other hother
                rw [← Option.some.inj hother]
                exact hpackages
              · exact fun hsure => hsure.packages install rfl

/-- With every location there, a run of an accepted name is all or nothing
exactly when no word of the name is empty, the YAML package reads the pubspec
it wrote and an SDK that is asked for has packages. -/
theorem scaffoldAllOrNothing_iff {arguments : Arguments} {located : Located}
    (hname : namePattern (projectName arguments located) = true)
    (hfresh : located.projectExists = false)
    (hpath : resolvedPath arguments located = some path)
    (htemplate : located.template = some template)
    (hbridge : located.bridge = some bridge)
    (hsdk : arguments.useSdk = true → located.sdk.isSome) :
    AllOrNothing host loadYaml arguments located path template bridge ↔
      Sure loadYaml (projectName arguments located) path
        (if arguments.useSdk then located.sdk else none) := by
  unfold AllOrNothing run
  have hvalid : validateName located.usage (projectName arguments located) =
      pure () := by
    simp [validateName, hname]
  simp only [hvalid, ensures_bind, ensures_pure, hfresh, Bool.false_eq_true,
    if_false, hpath, htemplate, hbridge]
  by_cases huse : arguments.useSdk = true
  · rcases Option.isSome_iff_exists.mp (hsdk huse) with ⟨install, hinstall⟩
    simp only [huse, if_true, requireSdk, hinstall, ensures_bind, ensures_map,
      ensures_pure]
    exact ensures_scaffold_iff
  · simp only [huse, Bool.false_eq_true, if_false, ensures_bind, ensures_pure]
    exact ensures_scaffold_iff

end AllOrNothing

/-! ## Two names -/

def posixHost : Host :=
  { style := .posix
    windows := false }

/-- The YAML package on a pubspec whose name is the given string. -/
def readsName (name : Text) : LoadYaml :=
  fun _ => .ok { name := some name }

def named (name : Text) : Arguments :=
  { root := text "/work"
    name := some name
    identifier := none
    dovetailPath := some (text "/dovetail/toolkit/dovetail")
    useSdk := false }

def sampleTemplate : List TemplateEntity :=
  [.directory (text "lib")
    [.file (text "main.dart") (text "class \x7b\x7bcamel_name\x7d\x7dApp") false]]

def sampleBridge : Bridge :=
  { entities := []
    rustCoreDart := text "/dovetail/toolkit/dovetail_rust_core"
    rustCoreRust := text "/dovetail/toolkit/dovetail_rust_core/rust" }

def sampleLocated : Located :=
  { usage := text "Usage: dovetail new"
    rootName := text "work"
    projectExists := false
    sdk := none
    sdkHome := text "/home/.dovetail"
    computedPath := none
    template := some sampleTemplate
    bridge := some sampleBridge }

theorem scaffoldAllOrNothing_demo :
    AllOrNothing posixHost (readsName (text "demo")) (named (text "demo"))
        sampleLocated (text "/dovetail/toolkit/dovetail") sampleTemplate
        sampleBridge ↔
      Sure (readsName (text "demo")) (text "demo")
        (text "/dovetail/toolkit/dovetail") none := by
  apply scaffoldAllOrNothing_iff
  · decide
  · rfl
  · rfl
  · rfl
  · rfl
  · intro huse
    cases huse

/-- The pattern takes a name with two underscores in a row; its word between
them has no first letter. -/
theorem not_allOrNothing_doubled :
    namePattern (text "my__app") = true ∧
      ¬ AllOrNothing posixHost (readsName (text "my__app"))
        (named (text "my__app")) sampleLocated
        (text "/dovetail/toolkit/dovetail") sampleTemplate sampleBridge ∧
      Ensures (run posixHost (readsName (text "my__app"))
          (named (text "my__app")) sampleLocated) []
        (fun _ _ => False)
        (fun failure journal =>
          failure = .range ∧
            .directory (text "/work/my__app/lib") ∈ journal) := by
  have hname : namePattern (text "my__app") = true := by decide
  have hpascal : toPascalCase (text "my__app") = none := by decide
  have hensures : Ensures (run posixHost (readsName (text "my__app"))
      (named (text "my__app")) sampleLocated) []
      (fun _ _ => False)
      (fun failure journal =>
        failure = .range ∧
          .directory (text "/work/my__app/lib") ∈ journal) := by
    have hlib : posixHost.join (posixHost.join (text "/work")
        (text "my__app")) (text "lib") = text "/work/my__app/lib" := by
      decide
    simp [run, validateName, projectName, named, hname, sampleLocated,
      resolvedPath, projectRoot, scaffold, hpascal, bareDirectories, hlib]
  refine ⟨hname, ?_, hensures⟩
  intro hall
  have hboth := hall.and hensures
  apply not_ensures_false
  apply hboth.imp
  · exact fun _ _ hboth => hboth.2
  · intro failure journal hthrown
    rw [hthrown.1] at hthrown
    exact List.not_mem_nil hthrown.2.2

end Dovetail.Cli.New
