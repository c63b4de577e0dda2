import Dovetail.MsiSourceTemplates

/-!
# What a processor reads of the MSI sources

The source of an installer is read with every value in its place exactly if
each of the values that are put into it is one that an attribute carries.
-/

namespace Dovetail.Bundler

open CodeUnits
open FallibleSteps
open MarkupReading
open MarkupText
open XmlValues

/-! ## What a source is read as -/

theorem join_newline (lines : List Text) :
    Updater.join (text "\n") (lines ++ [[]]) =
      lines.flatMap (· ++ [newline]) := by
  have hnewline : text "\n" = [newline] := rfl
  induction lines with
  | nil => rfl
  | cons line rest ih =>
      rw [List.cons_append, List.flatMap_cons, Updater.join, ih, hnewline,
        List.append_assoc]
      simp

theorem render_eq (backend : MsiBackend) (spec : MsiSpec)
    (tree : MsiComponentTree) :
    backend.render spec tree = (backend.document spec tree).map printed := by
  unfold MsiBackend.render
  cases backend.document spec tree with
  | error failure => rfl
  | ok document =>
      exact congrArg Except.ok (join_newline (document.flatMap Markup.lines))

/-- A template is an element that, with its marks written as entities, can
be read. -/
structure Template (meant : List Markup) (root : Element)
    (body : List Markup) : Prop where
  shape : meant = .declaration :: holding 0 false root body
  named : WellNamed false (elementIn root)
  stands : Stands (escapedSource body)

theorem wellNamed_wix (schema : Text) :
    WellNamed false (elementIn ⟨"Wix", [("xmlns", schema)]⟩) :=
  wellNamed_of_names "Wix" ["xmlns"] rfl rfl (by decide)

theorem WixSource.exists_template {spec : MsiSpec} {tree : MsiComponentTree}
    (hcoded : Coded tree)
    (hsteps : ∀ step ∈ spec.steps, XmlText.attributeText step.id = step.id)
    {meant : List Markup}
    (hmeant : WixSource.documentWith id spec tree = .ok meant) :
    ∃ root body, Template meant root body := by
  rcases bind_eq_ok_iff.mp hmeant with ⟨productVersion, hversion, hrest⟩
  rcases bind_eq_ok_iff.mp hrest with ⟨actions, hactions, hall⟩
  have hescaped := @WixSource.customActions_eq spec tree hsteps
  rw [hactions] at hescaped
  refine ⟨_, _, (Except.ok.inj hall).symm, wellNamed_wix _, ?_⟩
  rw [escapedSource_holding, escapedSource_append,
    WixSource.escapedSource_packageBodyWith hcoded,
    WixSource.elementIn_packageElementWith spec
      (bare_productVersion (mapError_eq_ok_iff.mp hversion))]
  apply Stands.holding
  · exact wellNamed_of_names "Package" ["Name", "Manufacturer", "Version",
      "UpgradeCode", "Scope", "InstallerVersion", "Compressed", "Codepage"]
      rfl rfl (by decide)
  · exact (WixSource.stands_packageBody spec tree).append
      (WixSource.stands_customActions hescaped)

theorem WixlSource.exists_template {spec : MsiSpec} {tree : MsiComponentTree}
    (hcoded : Coded tree) {meant : List Markup}
    (hmeant : WixlSource.documentWith id spec tree = .ok meant) :
    ∃ root body, Template meant root body := by
  rcases bind_eq_ok_iff.mp hmeant with ⟨productVersion, hversion, hall⟩
  have hproduct := bare_productVersion (mapError_eq_ok_iff.mp hversion)
  refine ⟨_, _, (Except.ok.inj hall).symm, wellNamed_wix _, ?_⟩
  rw [escapedSource_holding, WixlSource.escapedSource_productBodyWith hcoded
    spec hproduct, WixlSource.elementIn_productElementWith spec hproduct]
  apply Stands.holding
  · exact wellNamed_of_names "Product" ["Id", "Name", "UpgradeCode",
      "Language", "Codepage", "Version", "Manufacturer"] rfl rfl (by decide)
  · exact WixlSource.stands_productBody spec productVersion tree

/-- The source of a backend is read as its template exactly if the values of
the template come through. -/
theorem read_source_iff {backend : MsiBackend} {spec : MsiSpec}
    {tree : MsiComponentTree} (hcoded : Coded tree)
    (hsteps : ∀ step ∈ spec.steps, XmlText.attributeText step.id = step.id)
    {source : Text} (hrender : backend.render spec tree = .ok source) :
    ∃ meant, backend.documentWith id spec tree = .ok meant ∧
      (XmlDocuments.read source = some (tagsOf [] meant) ↔ Carried meant) := by
  have hdocument : backend.document spec tree =
      (backend.documentWith id spec tree).map escapedSource := by
    cases backend with
    | wix => exact WixSource.document_eq hcoded hsteps
    | wixl => exact WixlSource.document_eq hcoded
  rw [render_eq, hdocument] at hrender
  cases hmeant : backend.documentWith id spec tree with
  | error failure =>
      rw [hmeant] at hrender
      cases hrender
  | ok meant =>
      rw [hmeant] at hrender
      cases hrender
      have htemplate : ∃ root body, Template meant root body := by
        cases backend with
        | wix => exact WixSource.exists_template hcoded hsteps hmeant
        | wixl => exact WixlSource.exists_template hcoded hmeant
      rcases htemplate with ⟨root, body, rfl, hnamed, hstands⟩
      rw [elementIn_eq] at hnamed
      exact ⟨_, rfl, read_printed_iff rfl hnamed hstands⟩

/-! ## Which values are put in -/

namespace MsiComponentTree

variable {tree : MsiComponentTree} {paths : List StagedPath}

/-- A directory below the parent is entered, with its components inside. -/
theorem tags_of_mem_visits {directory : MsiDirectory}
    {parent : List PathName} (hdirectory : directory ∈ PathForest.visits
      MsiDirectory.parentRelativePath MsiDirectory.name tree.directories
      parent) (indent : Nat) :
    ∃ deeper, Tag.directory deeper directory ∈
        tree.childDirectories parent indent ∧
      tree.componentsOf directory.id (deeper + 2) ⊆
        tree.childDirectories parent indent := by
  induction parent using PathForest.induction_below
    MsiDirectory.parentRelativePath MsiDirectory.name tree.directories
    generalizing indent with
  | hstep parent ih =>
      rw [PathForest.visits_eq] at hdirectory
      rcases List.mem_flatMap.mp hdirectory with ⟨child, hchild, hmem⟩
      have hwithin : .directory indent child ::
            tree.componentsOf child.id (indent + 2) ++
            tree.childDirectories child.relativePath (indent + 2) ++
            [.close indent] ⊆ tree.childDirectories parent indent := by
        intro tag htag
        rw [childDirectories_eq]
        exact List.mem_flatMap.mpr ⟨child, hchild, htag⟩
      rcases List.mem_cons.mp hmem with rfl | hbelow
      · refine ⟨indent, hwithin (by simp), fun tag htag => hwithin ?_⟩
        simp [htag]
      · rcases ih child hchild hbelow (indent + 2) with
          ⟨deeper, hentered, hcomponents⟩
        rw [pathOf_directory] at hentered hcomponents
        exact ⟨deeper, hwithin (by simp [hentered]),
          fun tag htag => hwithin (by simp [hcomponents htag])⟩

theorem Built.directory_mem (hbuilt : Built paths tree)
    {directory : MsiDirectory} (hdirectory : directory ∈ tree.directories)
    (indent : Nat) :
    ∃ deeper, Tag.directory deeper directory ∈
        tree.insideInstallFolder indent ∧
      tree.componentsOf directory.id (deeper + 2) ⊆
        tree.insideInstallFolder indent := by
  have hvisited := PathForest.mem_visits_root hbuilt.registered.closed
    hdirectory
  rcases tags_of_mem_visits hvisited indent with
    ⟨deeper, hentered, hcomponents⟩
  exact ⟨deeper, List.mem_append_right _ hentered,
    fun tag htag => List.mem_append_right _ (hcomponents htag)⟩

theorem Built.component_mem (hbuilt : Built paths tree)
    {component : MsiComponent} (hcomponent : component ∈ tree.components)
    (indent : Nat) :
    ∃ deeper, Tag.component deeper component ∈
      tree.insideInstallFolder indent := by
  have hof (directoryId : Text) (hid : component.directoryId = directoryId)
      (deeper : Nat) : Tag.component deeper component ∈
        tree.componentsOf directoryId deeper :=
    List.mem_map_of_mem (List.mem_filter.mpr ⟨hcomponent, by simpa using hid⟩)
  have hinside := hbuilt.inside component hcomponent
  unfold directoryIdOf at hinside
  split at hinside
  · exact ⟨indent, List.mem_append_left _ (hof installFolder hinside indent)⟩
  · next hdirname =>
      rcases (hbuilt.isDirectory component.relativePath.dirname).mp
        ⟨hdirname, component.relativePath, hbuilt.mem_paths hcomponent,
          List.prefix_rfl⟩ with ⟨directory, hdirectory, hpath⟩
      rcases hbuilt.directory_mem hdirectory indent with
        ⟨deeper, -, hcomponents⟩
      refine ⟨deeper + 2, hcomponents (hof directory.id ?_ (deeper + 2))⟩
      rw [hinside, hbuilt.registered.ids directory hdirectory, hpath]

end MsiComponentTree

abbrev Survives (value : Text) : Prop := Place.quoted.Carries value

theorem survives_of_bare {value : Text} (hbare : bare value = true) :
    Survives value :=
  carries_of_bare hbare .quoted

section

variable {tree : MsiComponentTree} {paths : List StagedPath}

/-- The values of the directories are their names. -/
theorem carried_insideInstallFolder
    (hbuilt : MsiComponentTree.Built paths tree) (hcoded : Coded tree)
    (component file : MsiComponent → List (String × Text)) (stacked : Bool)
    (indent : Nat) :
    Carried ((tree.insideInstallFolder indent).flatMap
        (tagMarkupWith id component file stacked)) ↔
      (∀ directory ∈ tree.directories, Survives directory.name.units) ∧
        ∀ staged ∈ tree.components,
          (∀ entry ∈ component staged, Survives entry.2) ∧
            ∀ entry ∈ file staged, Survives entry.2 := by
  have hdirectory (deeper : Nat) {directory : MsiDirectory}
      (hmem : directory ∈ tree.directories) :
      Carried (tagMarkupWith id component file stacked
        (.directory deeper directory)) ↔ Survives directory.name.units := by
    have hid := survives_of_bare (hcoded.directories directory hmem)
    simp [tagMarkupWith, carried_opens, carried_nil, hid]
  have hcomponent (deeper : Nat) (staged : MsiComponent) :
      Carried (tagMarkupWith id component file stacked
        (.component deeper staged)) ↔
          (∀ entry ∈ component staged, Survives entry.2) ∧
            ∀ entry ∈ file staged, Survives entry.2 := by
    rw [tagMarkupWith, carried_opens, carried_empty, carried_closes]
    simp [carried_nil]
  rw [carried_flatMap]
  constructor
  · intro hall
    constructor
    · intro directory hmem
      rcases hbuilt.directory_mem hmem indent with ⟨deeper, htag, -⟩
      exact (hdirectory deeper hmem).mp (hall _ htag)
    · intro staged hstaged
      rcases hbuilt.component_mem hstaged indent with ⟨deeper, htag⟩
      exact (hcomponent deeper staged).mp (hall _ htag)
  · rintro ⟨hdirectories, hcomponents⟩ tag htag
    have hheld := MsiComponentTree.holds_insideInstallFolder indent tag htag
    cases tag with
    | directory deeper directory =>
        exact (hdirectory deeper hheld).mpr (hdirectories directory hheld)
    | component deeper staged =>
        exact (hcomponent deeper staged).mpr (hcomponents staged hheld)
    | close deeper => exact carried_closes.mpr carried_nil

theorem survives_pathText (names : List PathName) :
    Survives (pathText names) ↔ ∀ name ∈ names, Survives name.units := by
  rw [pathText, Survives, carries_intercalate (by decide),
    List.forall_mem_map]

theorem map_intercalate {change : UInt16 → UInt16} {separator : UInt16}
    {parts : List Text}
    (hparts : ∀ part ∈ parts, ∀ unit ∈ part, change unit = unit) :
    ([separator].intercalate parts).map change =
      [change separator].intercalate parts := by
  have hsame {part : Text} (hpart : part ∈ parts) :
      part.map change = part := by
    nth_rewrite 2 [← List.map_id part]
    exact List.map_congr_left (hparts part hpart)
  induction parts with
  | nil => rfl
  | cons part rest ih =>
      have hrest := ih (fun other hother => hparts other (by simp [hother]))
        (fun hother => hsame (by simp [hother]))
      cases rest with
      | nil => simpa using hsame List.mem_cons_self
      | cons next others =>
          rw [List.intercalate_cons_cons, List.intercalate_cons_cons,
            List.map_append, List.map_append, hrest,
            hsame List.mem_cons_self]
          rfl

/-- A path has the same names with either slash. -/
theorem survives_windowsRelativePath (component : MsiComponent) :
    Survives component.windowsRelativePath ↔
      Survives component.relativePath.relative := by
  have hback : component.windowsRelativePath =
      [backslash].intercalate
        (component.relativePath.names.map (·.units)) := by
    rw [MsiComponent.windowsRelativePath, StagedPath.relative, pathText,
      map_intercalate]
    · rfl
    · intro part hpart unit hunit
      rcases List.mem_map.mp hpart with ⟨name, -, rfl⟩
      rw [if_neg]
      rintro rfl
      exact name.whole.1 hunit
  rw [hback, Survives, carries_intercalate (by decide),
    StagedPath.relative, survives_pathText, List.forall_mem_map]

/-- The names of the directories are in the paths of the files. -/
theorem survives_directories (hbuilt : MsiComponentTree.Built paths tree) :
    ((∀ directory ∈ tree.directories, Survives directory.name.units) ∧
        ∀ staged ∈ tree.components, Survives staged.fileName) ↔
      ∀ staged ∈ tree.components, Survives staged.relativePath.relative := by
  simp only [StagedPath.relative, survives_pathText]
  constructor
  · rintro ⟨hdirectories, hfiles⟩ staged hstaged name hname
    rcases List.mem_append.mp hname with hdirname | hbasename
    · rcases List.append_of_mem hdirname with ⟨before, after, hsplit⟩
      rcases (hbuilt.isDirectory (before ++ [name])).mp ⟨by simp,
        staged.relativePath, hbuilt.mem_paths hstaged, after, by simp [hsplit]⟩
        with ⟨directory, hdirectory, hpath⟩
      rw [← directory.spells] at hpath
      have hsame : directory.name = name := by
        simpa using (List.append_inj' hpath rfl).2
      exact hsame ▸ hdirectories directory hdirectory
    · rw [List.mem_singleton.mp hbasename]
      exact hfiles staged hstaged
  · intro hall
    constructor
    · intro directory hdirectory
      rcases (hbuilt.isDirectory directory.relativePath).mpr
        ⟨directory, hdirectory, rfl⟩ with ⟨-, path, hpath, hprefix⟩
      rcases hbuilt.exists_component hpath with ⟨staged, hstaged, rfl⟩
      apply hall staged hstaged
      apply List.mem_append_left
      apply hprefix.subset
      rw [← directory.spells]
      simp
    · intro staged hstaged
      exact hall staged hstaged _ (by simp [StagedPath.names])

theorem survives_inside (hbuilt : MsiComponentTree.Built paths tree)
    (also : MsiComponent → Prop) :
    ((∀ directory ∈ tree.directories, Survives directory.name.units) ∧
        ∀ staged ∈ tree.components, Survives staged.fileName ∧ also staged) ↔
      (∀ staged ∈ tree.components,
        Survives staged.relativePath.relative) ∧
          ∀ staged ∈ tree.components, also staged := by
  rw [← survives_directories hbuilt]
  simp only [forall_and, and_assoc]

end

theorem survives_between (before value after : Text)
    (hbefore : bare before = true) (hafter : bare after = true) :
    Survives (before ++ value ++ after) ↔ Survives value := by
  have hplain {plain : Text} (hbare : bare plain = true) :
      ∀ unit ∈ plain, isPlain unit = true := by
    intro unit hunit
    have hall := List.all_eq_true.mp hbare unit hunit
    exact (Bool.and_eq_true_iff.mp hall).1
  rw [Survives, Place.carries_append_plain (hplain hafter),
    Place.carries_plain_append (hplain hbefore)]

theorem carried_featureMarkup {tree : MsiComponentTree}
    (hcoded : Coded tree) (title : Text) :
    Carried (featureMarkup title tree) ↔ Survives title := by
  have hrefs : Carried (tree.components.map fun component =>
      .empty 6 false ⟨"ComponentRef", [("Id", component.id)]⟩) := by
    rw [List.map_eq_flatMap, carried_flatMap]
    intro component hcomponent
    have hid := survives_of_bare (hcoded.components component hcomponent).1
    simp [carried_empty, carried_nil, hid]
  have hmain : Survives (text "Main") := survives_of_bare (by decide)
  have hlevel : Survives (text "1") := survives_of_bare (by decide)
  simp [featureMarkup, carried_holding, hrefs, hmain, hlevel]

theorem survives_fileId (component : MsiComponent) :
    Survives component.fileId :=
  survives_of_bare
    (bare_of_safe (MsiComponentTree.isIdentifier_fileId component).safe)

namespace WixSource

section

variable {spec : MsiSpec} (hproduct : Survives spec.bundle.productName)
include hproduct

theorem carried_conflictGuardsWith :
    Carried (conflictGuardsWith id spec) ↔
      ∀ key ∈ spec.conflictingRegistryKeys, Survives key := by
  have hproperty (index : Nat) : Survives
      (text "FOREIGNINSTALL" ++ text (toString index)) :=
    survives_of_bare (bare_property index)
  have hsearch (index : Nat) : Survives (text "search" ++
      (text "FOREIGNINSTALL" ++ text (toString index))) := by
    apply survives_of_bare
    rw [bare_append, bare_property]
    decide
  have hcondition := survives_of_bare (bare_condition spec)
  have hmessage := (survives_between
    (text "Another installer already registered ") spec.bundle.productName
    registeredMessage (by decide) bare_registeredMessage).mpr hproduct
  unfold registeredMessage at hmessage
  rw [conflictGuardsWith]
  split_ifs with hnone
  · simp [List.isEmpty_iff.mp hnone, carried_nil]
  · simp only [carried_append, carried_flatMap, carried_holding,
      carried_empty, carried_blank, carried_nil, List.forall_mem_cons,
      List.not_mem_nil, false_implies, implies_true, and_true, true_and,
      id_eq, hproperty, hsearch, hcondition, hmessage]
    simp (disch := decide) only [survives_of_bare, true_and, and_true]
    rw [← List.forall_mem_map, List.zipIdx_map_fst]

theorem carried_majorUpgradeWith :
    ∀ entry ∈ (majorUpgradeWith id spec).attributes, Survives entry.2 := by
  have hmessage := (survives_between (text "A newer version of ")
    spec.bundle.productName (text " is already installed.") (by decide)
    (by decide)).mpr hproduct
  have hyes : Survives (text "yes") := survives_of_bare (by decide)
  have hno : Survives (text "no") := survives_of_bare (by decide)
  have hafter : Survives (text "afterInstallInitialize") :=
    survives_of_bare (by decide)
  rw [majorUpgradeWith]
  cases spec.allowDowngrades with
  | true => simp [hyes, hafter]
  | false => simpa [hno, hafter] using hmessage

end

theorem carried_directoryMarkupWith {tree : MsiComponentTree}
    {paths : List StagedPath} (hbuilt : MsiComponentTree.Built paths tree)
    (hcoded : Coded tree) (spec : MsiSpec) :
    Carried (directoryMarkupWith id spec tree) ↔
      Survives spec.bundle.productName ∧
        ∀ staged ∈ tree.components,
          Survives staged.relativePath.relative := by
  have hfolder : Survives (rootFolderFor spec) := by
    apply survives_of_bare
    unfold rootFolderFor
    split_ifs <;> decide
  have hinstall : Survives (text "INSTALLFOLDER") :=
    survives_of_bare (by decide)
  have hsource (staged : MsiComponent) :
      Survives (text "$(var.StageDir)\\" ++ staged.windowsRelativePath) ↔
        Survives staged.relativePath.relative := by
    have hstage : ∀ unit ∈ text "$(var.StageDir)\\",
        isPlain unit = true := by decide
    rw [← survives_windowsRelativePath]
    exact Place.carries_plain_append hstage
  have hcomponents : ∀ staged ∈ tree.components,
      ((∀ entry ∈ componentAttributes staged, Survives entry.2) ∧
          ∀ entry ∈ fileAttributesWith id staged, Survives entry.2) ↔
        Survives staged.fileName ∧
          Survives staged.relativePath.relative := by
    intro staged hstaged
    have hids := hcoded.components staged hstaged
    have hyes : Survives (text "yes") := survives_of_bare (by decide)
    simp [componentAttributes, fileAttributesWith, survives_fileId, hsource,
      survives_of_bare hids.1, survives_of_bare hids.2, hyes]
  rw [directoryMarkupWith, carried_holding, carried_holding,
    carried_insideInstallFolder hbuilt hcoded, forall₂_congr hcomponents,
    survives_inside hbuilt, and_self]
  simp [hfolder, hinstall]

theorem carried_customActionWith (step : MsiPrivilegedStep)
    (host : MsiComponent) :
    Carried [customActionWith id step host] ↔
      Survives step.id ∧ Survives step.commandLine := by
  have hplain : ∀ value ∈ [text "rollback", text "deferred", text "no",
      text "check", text "ignore"], Survives value := by
    intro value hvalue
    exact survives_of_bare ((by decide : ∀ value ∈ [text "rollback",
      text "deferred", text "no", text "check", text "ignore"],
        bare value = true) value hvalue)
  simp only [List.forall_mem_cons, List.not_mem_nil, false_implies,
    implies_true, and_true] at hplain
  cases hrollback : step.isRollback <;> cases hfatal : step.fatalOnFailure <;>
    simp [customActionWith, carried_empty, carried_nil, survives_fileId,
      hplain, hrollback, hfatal]

theorem carried_scheduled {steps : List MsiPrivilegedStep} :
    Carried (steps.map scheduled) ↔ ∀ step ∈ steps, Survives step.id := by
  have hanchor (phase : MsiPhase) : Survives phase.anchor := by
    apply survives_of_bare
    cases phase <;> decide
  rw [List.map_eq_flatMap, carried_flatMap]
  simp [scheduled, carried_empty, carried_nil, hanchor]

theorem customActionWith_of_definitionForWith {tree : MsiComponentTree}
    {step : MsiPrivilegedStep} {definition : Markup}
    (hdefinition : definitionForWith id tree step = .ok definition) :
    ∃ host, definition = customActionWith id step host := by
  unfold definitionForWith at hdefinition
  split at hdefinition
  · cases hdefinition
  · cases hdefinition
    exact ⟨_, rfl⟩

theorem carried_definitions {tree : MsiComponentTree}
    {steps : List MsiPrivilegedStep} {definitions : List Markup}
    (hdefinitions : steps.mapM (definitionForWith id tree) =
      .ok definitions) :
    Carried definitions ↔ ∀ step ∈ steps,
      Survives step.id ∧ Survives step.commandLine := by
  have hall := forall₂_of_mapM_eq_ok hdefinitions
  clear hdefinitions
  induction hall with
  | nil => simp [carried_nil]
  | @cons step definition rest definitions hstep _ ih =>
      rcases customActionWith_of_definitionForWith hstep with ⟨host, rfl⟩
      rw [← List.singleton_append, carried_append, carried_customActionWith,
        List.forall_mem_cons]
      exact and_congr_right fun _ => ih

theorem carried_customActionsWith {spec : MsiSpec} {tree : MsiComponentTree}
    {actions : List Markup}
    (hactions : customActionsWith id spec tree = .ok actions) :
    Carried actions ↔
      ∀ step ∈ spec.steps, Survives step.id ∧ Survives step.commandLine := by
  unfold customActionsWith at hactions
  split_ifs at hactions with hnone
  · cases hactions
    simp [List.isEmpty_iff.mp hnone, carried_nil]
  · rcases bind_eq_ok_iff.mp hactions with ⟨definitions, hdefinitions, hall⟩
    cases hall
    rw [carried_append, carried_append, carried_blank, carried_holding,
      carried_scheduled, carried_definitions hdefinitions]
    simp only [mem_ordered, carried_nil, List.not_mem_nil, false_implies,
      implies_true, true_and, and_true]
    constructor
    · intro hboth
      exact hboth.1
    · intro hsteps
      exact ⟨hsteps, fun step hstep => (hsteps step hstep).1⟩

theorem carried_packageElementWith (spec : MsiSpec) {productVersion : Text}
    (hversion : bare productVersion = true) :
    (∀ entry ∈ (packageElementWith id spec productVersion).attributes,
        Survives entry.2) ↔
      Survives spec.bundle.productName ∧
        Survives spec.bundle.manufacturer := by
  have hcode := survives_of_bare (bare_normalizedUpgradeCode spec)
  have hproduct := survives_of_bare hversion
  simp only [packageElementWith, List.forall_mem_cons, id_eq, hcode, hproduct,
    List.not_mem_nil, false_implies, implies_true, and_true, true_and]
  split_ifs <;> simp (disch := decide) [survives_of_bare]

theorem carried_documentWith {tree : MsiComponentTree}
    {paths : List StagedPath} (hbuilt : MsiComponentTree.Built paths tree)
    (hcoded : Coded tree) {spec : MsiSpec} {meant : List Markup}
    (hmeant : documentWith id spec tree = .ok meant) :
    Carried meant ↔
      (Survives spec.bundle.productName ∧
          Survives spec.bundle.manufacturer) ∧
        (∀ staged ∈ tree.components,
          Survives staged.relativePath.relative) ∧
        (∀ key ∈ spec.conflictingRegistryKeys, Survives key) ∧
        ∀ step ∈ spec.steps,
          Survives step.id ∧ Survives step.commandLine := by
  rcases bind_eq_ok_iff.mp hmeant with ⟨productVersion, hversion, hrest⟩
  rcases bind_eq_ok_iff.mp hrest with ⟨actions, hactions, hall⟩
  cases hall
  have hschema : Survives schema := survives_of_bare (by decide)
  have hplain : Survives (text "Application") ∧ Survives (text "yes") :=
    ⟨survives_of_bare (by decide), survives_of_bare (by decide)⟩
  have hpackage := carried_packageElementWith spec
    (bare_productVersion (mapError_eq_ok_iff.mp hversion))
  simp only [carried_declaration, carried_holding, packageBodyWith,
    List.cons_append, List.nil_append, carried_append,
    carried_blank, carried_empty, carried_nil, hpackage,
    carried_directoryMarkupWith hbuilt hcoded, carried_featureMarkup hcoded,
    carried_customActionsWith hactions, List.forall_mem_singleton, hschema,
    hplain, true_and, and_true]
  constructor
  · rintro ⟨hnames, -, ⟨hguards, -, hpaths⟩, hsteps⟩
    exact ⟨hnames, hpaths, (carried_conflictGuardsWith hnames.1).mp hguards,
      hsteps⟩
  · rintro ⟨hnames, hpaths, hkeys, hsteps⟩
    exact ⟨hnames, carried_majorUpgradeWith hnames.1,
      ⟨(carried_conflictGuardsWith hnames.1).mpr hkeys, hnames.1, hpaths⟩,
      hsteps⟩

end WixSource

namespace WixlSource

theorem carried_directoryMarkupWith {tree : MsiComponentTree}
    {paths : List StagedPath} (hbuilt : MsiComponentTree.Built paths tree)
    (hcoded : Coded tree) (spec : MsiSpec) :
    Carried (directoryMarkupWith id spec tree) ↔
      Survives spec.bundle.productName ∧
        (∀ staged ∈ tree.components,
          Survives staged.relativePath.relative) ∧
        ∀ staged ∈ tree.components, Survives staged.source := by
  have hfolder (perMachine x86_64 : Bool) :
      Survives (rootFolderFor perMachine x86_64) := by
    apply survives_of_bare
    cases perMachine <;> cases x86_64 <;> decide
  have hplain : ∀ value ∈ [text "INSTALLFOLDER", text "TARGETDIR",
      text "SourceDir"], Survives value := by
    intro value hvalue
    exact survives_of_bare ((by decide : ∀ value ∈ [text "INSTALLFOLDER",
      text "TARGETDIR", text "SourceDir"], bare value = true) value hvalue)
  simp only [List.forall_mem_cons, List.not_mem_nil, false_implies,
    implies_true, and_true] at hplain
  have hyes : Survives (text "yes") := survives_of_bare (by decide)
  have hcomponents (x86_64 : Bool) : ∀ staged ∈ tree.components,
      ((∀ entry ∈ componentAttributes x86_64 staged, Survives entry.2) ∧
          ∀ entry ∈ fileAttributesWith id staged, Survives entry.2) ↔
        Survives staged.fileName ∧ Survives staged.source := by
    intro staged hstaged
    have hids := hcoded.components staged hstaged
    cases x86_64 <;>
      simp [componentAttributes, fileAttributesWith, survives_fileId,
        survives_of_bare hids.1, survives_of_bare hids.2, hyes]
  rw [directoryMarkupWith]
  simp only [carried_holding, carried_insideInstallFolder hbuilt hcoded]
  rw [forall₂_congr (hcomponents _), survives_inside hbuilt]
  simp [hfolder, hplain]

theorem carried_packageElementWith {spec : MsiSpec}
    (hnames : Survives spec.bundle.productName ∧
      Survives spec.bundle.manufacturer) {productVersion : Text}
    (hversion : bare productVersion = true) :
    ∀ entry ∈ (packageElementWith id spec productVersion).attributes,
      Survives entry.2 := by
  have hdescription : Survives (spec.bundle.productName ++ text " " ++
      productVersion) := by
    have hbetween := survives_between [] spec.bundle.productName
      (text " " ++ productVersion) rfl
      (by rw [bare_append, hversion]; decide)
    rw [List.nil_append, ← List.append_assoc] at hbetween
    exact hbetween.mpr hnames.1
  simp only [packageElementWith, List.forall_mem_cons, id_eq, hnames.2,
    hdescription, List.not_mem_nil, false_implies, implies_true, and_true]
  split_ifs <;> simp (disch := decide) [survives_of_bare]

theorem carried_productElementWith (spec : MsiSpec) {productVersion : Text}
    (hversion : bare productVersion = true) :
    (∀ entry ∈ (productElementWith id spec productVersion).attributes,
        Survives entry.2) ↔
      Survives spec.bundle.productName ∧
        Survives spec.bundle.manufacturer := by
  have hcode := survives_of_bare (bare_normalizedUpgradeCode spec)
  have hproduct := survives_of_bare hversion
  simp only [productElementWith, List.forall_mem_cons, id_eq, hcode, hproduct,
    List.not_mem_nil, false_implies, implies_true, and_true, true_and]
  simp (disch := decide) [survives_of_bare]

theorem carried_documentWith {tree : MsiComponentTree}
    {paths : List StagedPath} (hbuilt : MsiComponentTree.Built paths tree)
    (hcoded : Coded tree) {spec : MsiSpec} {meant : List Markup}
    (hmeant : documentWith id spec tree = .ok meant) :
    Carried meant ↔
      (Survives spec.bundle.productName ∧
          Survives spec.bundle.manufacturer) ∧
        (∀ staged ∈ tree.components,
          Survives staged.relativePath.relative) ∧
        ∀ staged ∈ tree.components, Survives staged.source := by
  rcases bind_eq_ok_iff.mp hmeant with ⟨productVersion, hversion, hall⟩
  cases hall
  have hproduct := bare_productVersion (mapError_eq_ok_iff.mp hversion)
  have hschema : Survives schema := survives_of_bare (by decide)
  have hmedia : Survives (text "1") ∧ Survives (text "app.cab") ∧
      Survives (text "yes") :=
    ⟨survives_of_bare (by decide), survives_of_bare (by decide),
      survives_of_bare (by decide)⟩
  simp only [carried_declaration, carried_holding, productBodyWith,
    List.cons_append, List.nil_append, carried_append, carried_blank,
    carried_empty, carried_nil, carried_productElementWith spec hproduct,
    carried_directoryMarkupWith hbuilt hcoded, carried_featureMarkup hcoded,
    List.forall_mem_cons, List.not_mem_nil, false_implies, implies_true,
    hschema, hmedia, true_and, and_true, id_eq]
  constructor
  · rintro ⟨hnames, -, ⟨-, hpaths⟩, -⟩
    exact ⟨hnames, hpaths⟩
  · rintro ⟨hnames, hpaths⟩
    exact ⟨hnames, carried_packageElementWith hnames hproduct,
      ⟨hnames.1, hpaths⟩, hnames.1⟩

end WixlSource

/-! ## Sources that survive -/

/-- The values that a backend puts into its source survive as they are. -/
structure MsiBackend.Conveys (backend : MsiBackend) (spec : MsiSpec)
    (tree : MsiComponentTree) : Prop where
  names : Survives spec.bundle.productName ∧ Survives spec.bundle.manufacturer
  paths : ∀ staged ∈ tree.components, Survives staged.relativePath.relative
  keys : backend = .wix →
    ∀ key ∈ spec.conflictingRegistryKeys, Survives key
  steps : backend = .wix →
    ∀ step ∈ spec.steps, Survives step.id ∧ Survives step.commandLine
  sources : backend = .wixl →
    ∀ staged ∈ tree.components, Survives staged.source

theorem carried_documentWith_iff {backend : MsiBackend} {spec : MsiSpec}
    {tree : MsiComponentTree} {paths : List StagedPath}
    (hbuilt : MsiComponentTree.Built paths tree) (hcoded : Coded tree)
    {meant : List Markup}
    (hmeant : backend.documentWith id spec tree = .ok meant) :
    Carried meant ↔ backend.Conveys spec tree := by
  cases backend with
  | wix =>
      rw [WixSource.carried_documentWith hbuilt hcoded hmeant]
      constructor
      · rintro ⟨hnames, hpaths, hkeys, hsteps⟩
        exact ⟨hnames, hpaths, fun _ => hkeys, fun _ => hsteps, by simp⟩
      · rintro ⟨hnames, hpaths, hkeys, hsteps, -⟩
        exact ⟨hnames, hpaths, hkeys rfl, hsteps rfl⟩
  | wixl =>
      rw [WixlSource.carried_documentWith hbuilt hcoded hmeant]
      constructor
      · rintro ⟨hnames, hpaths, hsources⟩
        exact ⟨hnames, hpaths, by simp, by simp, fun _ => hsources⟩
      · rintro ⟨hnames, hpaths, -, -, hsources⟩
        exact ⟨hnames, hpaths, hsources rfl⟩

/-- The GUIDs of files stand for themselves. -/
theorem bare_guidFor {digests : Digests} {upgradeCode : Text}
    {guidFor : Text → Text}
    (hguid : ∀ path, MsiComponentGuid.forPath digests upgradeCode path =
      .ok (guidFor path)) (path : Text) : bare (guidFor path) = true := by
  rcases bind_eq_ok_iff.mp (hguid path) with ⟨space, -, hformat⟩
  rw [← Except.ok.inj hformat]
  exact bare_format _

/-- A source that is rendered of staged files is read with every value in its
place, whatever the files are, exactly if the values survive in an
attribute. -/
theorem msi_source_survives_iff {digests : Digests} {spec : MsiSpec}
    {guidFor : Text → Text}
    (hguid : ∀ path, MsiComponentGuid.forPath digests spec.upgradeCode path =
      .ok (guidFor path)) {appDirectory : Text}
    {listing extraFiles : List (StagedPath × Text)} {tree : MsiComponentTree}
    (hscan : MsiComponentTree.scan guidFor appDirectory (some listing)
      extraFiles = .ok tree)
    (hsteps : ∀ step ∈ spec.steps, XmlText.attributeText step.id = step.id)
    {backend : MsiBackend} {source : Text}
    (hrender : backend.render spec tree = .ok source) :
    ∃ meant, backend.documentWith id spec tree = .ok meant ∧
      (XmlDocuments.read source = some (tagsOf [] meant) ↔
        backend.Conveys spec tree) := by
  have hcoded := MsiComponentTree.coded_of_scan (bare_guidFor hguid) hscan
  rcases MsiComponentTree.built_of_scan_eq_ok hscan with ⟨paths, hbuilt, -⟩
  rcases read_source_iff hcoded hsteps hrender with ⟨meant, hmeant, hread⟩
  refine ⟨meant, hmeant, hread.trans ?_⟩
  exact carried_documentWith_iff hbuilt hcoded hmeant

/-! ### A name with marks -/

theorem checkUpgradeCode_productCode :
    MsiComponentGuid.checkUpgradeCode MsiComponentGuid.productCode = .ok () := by
  decide

def markedSpec : MsiSpec :=
  { oneFileSpec with
    bundle := { oneFileSpec.bundle with productName := text "Tea & <Milk>" }
    upgradeCode := MsiComponentGuid.productCode
    identified := checkUpgradeCode_productCode
    conflictingRegistryKeys := [text "SOFTWARE\\Tea & Milk"] }

def library : List (StagedPath × Text) :=
  [(⟨[], ⟨text "wintun.dll", by decide, by decide, by decide⟩, by decide⟩,
    text "/stage/wintun.dll")]

def libraryGuid (path : Text) : Text :=
  MsiComponentGuid.format (MsiComponentGuid.identity
    (MsiComponentGuid.productDigests.sha1 (MsiComponentGuid.productSpace ++
      MsiComponentGuid.bytesOf
        (MsiComponentGuid.nameOf MsiComponentGuid.productDigests path))))

theorem msi_source_survives_library :
    ∃ tree source meant,
      MsiComponentTree.scan libraryGuid (text "/stage") (some library) [] =
          .ok tree ∧
        MsiBackend.wix.render markedSpec tree = .ok source ∧
        MsiBackend.wix.documentWith id markedSpec tree = .ok meant ∧
        XmlDocuments.read source = some (tagsOf [] meant) := by
  have hscanned : ∃ tree, MsiComponentTree.scan libraryGuid (text "/stage")
      (some library) [] = .ok tree :=
    MsiComponentTree.exists_scan_eq_ok (by decide)
  rcases hscanned with ⟨tree, hscan⟩
  rcases MsiComponentTree.built_of_scan_eq_ok hscan with ⟨paths, hbuilt, hmem⟩
  have hversion : markedSpec.productVersion = .ok (text "1.0.0") := by decide
  have hnone : markedSpec.steps = [] := rfl
  have hrender : ∃ source, MsiBackend.wix.render markedSpec tree =
      .ok source := by
    rw [render_eq]
    simp [MsiBackend.document, WixSource.document, hversion, Except.mapError,
      WixSource.customActions, hnone, bind, Except.bind, pure, Except.pure,
      Except.map]
  rcases hrender with ⟨source, hrender⟩
  rcases msi_source_survives_iff
    (MsiComponentGuid.forPath_eq MsiComponentGuid.namespaceOf_productCode)
    hscan (by simp [hnone]) hrender with ⟨meant, hmeant, hread⟩
  refine ⟨tree, source, meant, hscan, hrender, hmeant, hread.mpr ?_⟩
  constructor
  · exact ⟨Place.carries_plain (by decide), Place.carries_plain (by decide)⟩
  · intro staged hstaged
    have hpath := (hmem _).mp (hbuilt.mem_paths hstaged)
    rw [List.mem_singleton.mp hpath]
    exact Place.carries_plain (by decide)
  · intro _ key hkey
    rw [List.mem_singleton.mp hkey]
    exact Place.carries_plain (by decide)
  · simp [hnone]
  · simp

end Dovetail.Bundler
