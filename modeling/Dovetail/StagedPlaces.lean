import Dovetail.LinuxPayloads
import Dovetail.NsisUninstall
import Dovetail.WixRendering

/-!
# Where staged files land

One destination is read by four bundlers.  The NSIS script takes it for the
directory of the file, the component tree of the MSI for its path, so on
Windows no staged file lands in the same place twice.  The deb and the rpm
take it for the same path and differ only where the package writes a file of
its own.
-/

namespace Dovetail.Bundler

open CodeUnits
open FallibleSteps
open WriteJournal

namespace Staging

/-- No tool packages a source that is not there. -/
def sourced (disk : Disk) (spec : InstallerSpec) : Bool :=
  spec.extraFiles.all fun file => (disk file.source).isSome

/-! ## NSIS -/

def baseName (source : Text) : Text :=
  (source.splitOnP Nsis.isSeparator).getLastD []

/-- A `File` takes what is on the disk, under its own name. -/
def onDisk (disk : Disk) (env : Nsis.Environment) : Nsis.Environment :=
  { env with
    found := fun source => (disk source).toList.map fun held =>
      (baseName source, held.bytes) }

def nsisPlace (env : Nsis.Environment) (file : StagedFile) : List Text :=
  env.below file.destination ++ [env.fold (baseName file.source)]

def nsisLanding (disk : Disk) (env : Nsis.Environment)
    (spec : InstallerSpec) (file : StagedFile) :
    Outcome (List Text × List UInt8) :=
  if sourced disk spec then
    match disk file.source with
    | none => .refused
    | some held => .made (nsisPlace env file, held.bytes)
  else .refused

/-- That is where the commands of the script write it. -/
theorem store_stageFile {disk : Disk} {file : StagedFile} {held : SourceFile}
    (hheld : disk file.source = some held) (env : Nsis.Environment)
    (spec : InstallerSpec) (process : Nsis.Process) :
    (process.runAll (onDisk disk env) spec
      (NsisScript.stageFile file)).files.store (nsisPlace env file) =
        some held.bytes := by
  have hfound : (onDisk disk env).found file.source =
      [(baseName file.source, held.bytes)] := by
    simp [onDisk, hheld]
  simp only [NsisScript.stageFile, Nsis.Process.runAll, List.foldl_cons,
    List.foldl_nil, Nsis.Process.run, hfound, Journal.put]
  exact Function.update_self _ _ _

/-! ## The MSI -/

/-- A url path has a root when it begins with a slash, or with a scheme:
a name that has a colon, but not in front. -/
def rooted (path : Text) : Bool :=
  let first := (path.splitOn slash).headD []
  path.head? = some slash ||
    (first.head? ≠ some colon && first.contains colon)

def relativeOf (destination : Text) : Text :=
  destination.map fun unit => if unit = backslash then slash else unit

/-- The directories that are registered for a file, from the outermost, and
its own name.  The current directory is where the registration ends, and a
root, being its own directory, is where it does not. -/
def msiNames (destination : Text) : Option (List Text) :=
  let relative := relativeOf destination
  if rooted relative then none
  else
    let names := (relative.splitOn slash).filter fun name => name ≠ []
    let directories := names.dropLast
    some ((if directories.head? = some (text ".") then directories.drop 1
      else directories) ++ names.getLast?.toList)

def msiPlace (env : Nsis.Environment) (names : List Text) : List Text :=
  env.locate (env.instDir ++ names.flatMap fun name => backslash :: name)

/-- Of the files staged for one destination the tree has the last. -/
def msiSource (spec : InstallerSpec) (destination : Text) : Option Text :=
  ((spec.extraFiles.filter fun file =>
    relativeOf file.destination = relativeOf destination).getLast?).map
      (·.source)

def msiLanding (disk : Disk) (env : Nsis.Environment)
    (spec : InstallerSpec) (file : StagedFile) :
    Outcome (List Text × List UInt8) :=
  if sourced disk spec then
    match msiNames file.destination with
    | none => .breaks
    | some names =>
        match (msiSource spec file.destination).bind disk with
        | none => .refused
        | some held => .made (msiPlace env names, held.bytes)
  else .refused

/-! ### Paths are the same however they are split -/

def segments (path : Text) : List Text :=
  (path.splitOnP Nsis.isSeparator).filter fun name =>
    name ≠ [] ∧ name ≠ text "."

theorem segments_append (before after : Text) {separator : UInt16}
    (hseparator : Nsis.isSeparator separator = true) :
    segments (before ++ separator :: after) =
      segments before ++ segments after := by
  unfold segments
  rw [List.splitOnP_append_cons _ _ hseparator, List.filter_append]

theorem segments_names {names : List Text}
    (hnames : ∀ name ∈ names, ∀ unit ∈ name,
      Nsis.isSeparator unit = false) (before : Text) :
    segments (before ++ names.flatMap fun name => backslash :: name) =
      segments before ++ names.filter fun name =>
        name ≠ [] ∧ name ≠ text "." := by
  induction names generalizing before with
  | nil => simp
  | cons name names ih =>
      have hname : segments name =
          [name].filter fun name => name ≠ [] ∧ name ≠ text "." := by
        unfold segments
        rw [List.splitOnP_eq_singleton (hnames name List.mem_cons_self)]
      have hothers := ih (fun other hother =>
        hnames other (List.mem_cons_of_mem name hother))
        (before ++ backslash :: name)
      rw [List.flatMap_cons, List.cons_append, ← List.cons_append,
        ← List.append_assoc, hothers, segments_append _ _ rfl, hname,
        List.append_assoc, ← List.filter_append, List.singleton_append]

theorem splitOn_relativeOf (destination : Text) :
    (relativeOf destination).splitOn slash =
      destination.splitOnP Nsis.isSeparator := by
  unfold relativeOf
  rw [List.splitOn_eq_splitOnP]
  induction destination with
  | nil => rfl
  | cons unit rest ih =>
      rw [List.map_cons, List.splitOnP_cons_eq_if_modifyHead,
        List.splitOnP_cons_eq_if_modifyHead, ih]
      by_cases hbackslash : unit = backslash
      · simp [hbackslash, Nsis.isSeparator]
      · by_cases hslash : unit = slash
        · simp [hslash, Nsis.isSeparator]
        · simp [hslash, hbackslash, Nsis.isSeparator]

theorem filter_current (directories : List Text) :
    (if directories.head? = some (text ".") then directories.drop 1
      else directories).filter (fun name => name ≠ [] ∧ name ≠ text ".") =
        directories.filter fun name => name ≠ [] ∧ name ≠ text "." := by
  split
  · next hcurrent =>
      rcases List.head?_eq_some_iff.mp hcurrent with ⟨others, rfl⟩
      simp
  · rfl

/-- What the MSI names are the segments of the destination. -/
theorem segments_of_msiNames {destination : Text} {names : List Text}
    (hnames : msiNames destination = some names) (before : Text) :
    segments (before ++ names.flatMap fun name => backslash :: name) =
      segments before ++ segments destination := by
  unfold msiNames at hnames
  dsimp only at hnames
  split at hnames
  · simp at hnames
  · rw [splitOn_relativeOf] at hnames
    rw [← Option.some.inj hnames]
    generalize hall : ((destination.splitOnP Nsis.isSeparator).filter
      fun name => name ≠ []) = all
    have hpieces : ∀ name ∈ all, ∀ unit ∈ name,
        Nsis.isSeparator unit = false := by
      intro name hname unit hunit
      rw [← hall] at hname
      have hpiece := (List.mem_filter.mp hname).1
      exact of_mem_splitOnP hpiece unit hunit
    have hlast : all.dropLast ++ all.getLast?.toList = all := by
      cases all using List.reverseRec with
      | nil => rfl
      | append_singleton others last => simp
    have hsegments : segments destination =
        all.filter fun name => name ≠ [] ∧ name ≠ text "." := by
      rw [← hall, List.filter_filter]
      unfold segments
      congr 1
      funext name
      simp
      tauto
    rw [segments_names, hsegments]
    · rw [List.filter_append, filter_current, ← List.filter_append, hlast]
    · intro name hname
      apply hpieces
      rw [← hlast]
      rcases List.mem_append.mp hname with hdirectory | hfile
      · apply List.mem_append_left
        split at hdirectory
        · exact List.mem_of_mem_drop hdirectory
        · exact hdirectory
      · exact List.mem_append_right _ hfile

theorem msiPlace_eq {destination : Text} {names : List Text}
    (hnames : msiNames destination = some names) (env : Nsis.Environment) :
    msiPlace env names = env.below destination := by
  have hbelow : segments (env.instDir ++ text "\\" ++ destination) =
      segments env.instDir ++ segments destination := by
    rw [List.append_assoc]
    exact segments_append env.instDir destination rfl
  have hsegments := segments_of_msiNames hnames env.instDir
  unfold msiPlace Nsis.Environment.below Nsis.Environment.locate
  congr 1
  change (segments _).foldl _ _ = (segments _).foldl _ _
  rw [hsegments, hbelow]

theorem units_pathText (path : StagedPath) :
    path.relative.splitOn slash = path.names.map (·.units) := by
  apply List.splitOn_intercalate
  · intro units hunits
    rcases List.mem_map.mp hunits with ⟨name, -, rfl⟩
    exact name.whole.1
  · simp [StagedPath.names]

theorem backslash_not_mem_pathText (names : List PathName) :
    backslash ∉ pathText names := by
  unfold pathText
  induction names with
  | nil => simp
  | cons name names ih =>
      cases names with
      | nil => simpa using name.whole.2
      | cons other names =>
          rw [List.map_cons, List.map_cons, List.intercalate_cons_cons]
          simp only [List.mem_append, List.mem_singleton, not_or]
          exact ⟨⟨name.whole.2, by decide⟩, ih⟩

theorem relativeOf_relative (path : StagedPath) :
    relativeOf path.relative = path.relative := by
  have hnone := backslash_not_mem_pathText path.names
  unfold relativeOf
  conv_rhs => rw [← List.map_id path.relative]
  apply List.map_congr_left
  intro unit hunit
  have hother : unit ≠ backslash := by
    rintro rfl
    exact hnone hunit
  rw [if_neg hother, id]

theorem not_rooted_relative (path : StagedPath) :
    rooted path.relative = false := by
  have hunits := units_pathText path
  have hrootless := path.rootless
  change ∀ name ∈ path.names.head?, colon ∉ name.units at hrootless
  have hfilled : path.names ≠ [] := by simp [StagedPath.names]
  rcases List.exists_cons_of_ne_nil hfilled with ⟨first, others, hnames⟩
  rw [hnames] at hunits hrootless
  have hcolon := hrootless first rfl
  have hslash : path.relative.head? ≠ some slash := by
    intro hhead
    rcases List.head?_eq_some_iff.mp hhead with ⟨rest, hrest⟩
    rw [hrest, List.splitOn_cons_eq_if_modifyHead] at hunits
    simp only [beq_self_eq_true, if_true, List.map_cons,
      List.cons.injEq] at hunits
    exact first.filled hunits.1.symm
  unfold rooted
  rw [hunits]
  simp [hslash, hcolon]

/-- The tree places a file inside the directories of its path. -/
theorem msiNames_relative (path : StagedPath) :
    msiNames path.relative = some (path.names.map (·.units)) := by
  unfold msiNames
  dsimp only
  rw [relativeOf_relative, not_rooted_relative, if_neg Bool.false_ne_true,
    units_pathText]
  have hfilled : (path.names.map (·.units)).filter (fun name => name ≠ []) =
      path.names.map (·.units) := by
    apply List.filter_eq_self.mpr
    intro units hunits
    rcases List.mem_map.mp hunits with ⟨name, -, rfl⟩
    exact decide_eq_true name.filled
  rw [hfilled]
  have hcurrent : (path.names.map (·.units)).dropLast.head? ≠
      some (text ".") := by
    intro hhead
    have hmem := List.mem_of_mem_dropLast (List.mem_of_mem_head? hhead)
    rcases List.mem_map.mp hmem with ⟨name, -, hname⟩
    exact name.named hname
  rw [if_neg hcurrent]
  simp [StagedPath.names]

/-- And so its component stands inside them in the source that is built. -/
theorem placed_in_tree {guidFor : Text → Text} {appDirectory : Text}
    {listing extraFiles : List (StagedPath × Text)} {tree : MsiComponentTree}
    (hscan : MsiComponentTree.scan guidFor appDirectory (some listing)
      extraFiles = .ok tree)
    (hids : (tree.directories.map (·.id)).Nodup)
    {path : StagedPath} {source : Text} (hfile : (path, source) ∈ extraFiles)
    (indent : Nat) :
    ∃ component, (path.dirname, component) ∈
        placements [] (tree.insideInstallFolder indent) ∧
      msiNames path.relative = some (path.dirname.map (·.units) ++
        [component.fileName]) := by
  rcases MsiComponentTree.built_of_scan_eq_ok hscan with ⟨paths, hbuilt, hmem⟩
  have hpath : path ∈ paths := by
    apply (hmem path).mpr
    exact List.mem_map_of_mem (List.mem_append_right _ hfile)
  rcases hbuilt.exists_component hpath with ⟨component, hcomponent, rfl⟩
  refine ⟨component, ?_, ?_⟩
  · exact (hbuilt.mem_placements hids indent).mpr ⟨hcomponent, rfl⟩
  · rw [msiNames_relative]
    simp [StagedPath.names, MsiComponent.fileName]

/-! ## The same place -/

/-- Every staged file, in both formats of Windows and both of Linux. -/
structure SamePlaces (env : Nsis.Environment) (build : Linux.LinuxBuild)
    (spec : InstallerSpec) : Prop where
  windows : ∀ file ∈ spec.extraFiles,
    (nsisLanding build.disk env spec file).Agree
      (msiLanding build.disk env spec file)
  linux : ∀ file ∈ spec.extraFiles,
    (Linux.debLanding build spec file).Agree
      (Linux.rpmLanding build spec file)

theorem exists_msiSource {disk : Disk} {spec : InstallerSpec}
    (hsourced : sourced disk spec = true) {file : StagedFile}
    (hfile : file ∈ spec.extraFiles) :
    ∃ held, (msiSource spec file.destination).bind disk = some held := by
  unfold msiSource
  cases hlast : (spec.extraFiles.filter fun other =>
      relativeOf other.destination =
        relativeOf file.destination).getLast? with
  | none =>
      rw [List.getLast?_eq_none_iff, List.filter_eq_nil_iff] at hlast
      simpa using hlast file hfile
  | some last =>
      have hmem := (List.mem_filter.mp (List.mem_of_getLast? hlast)).1
      have hheld := List.all_eq_true.mp hsourced last hmem
      exact Option.isSome_iff_exists.mp hheld

/-- The one path has a name more than the other. -/
theorem not_agree_windows {disk : Disk} {spec : InstallerSpec}
    (hsourced : sourced disk spec = true) {file : StagedFile}
    (hfile : file ∈ spec.extraFiles) (env : Nsis.Environment) :
    ¬ (nsisLanding disk env spec file).Agree
      (msiLanding disk env spec file) := by
  have hthere := List.all_eq_true.mp hsourced file hfile
  rcases Option.isSome_iff_exists.mp hthere with ⟨held, hheld⟩
  rcases exists_msiSource hsourced hfile with ⟨packed, hpacked⟩
  have hnsis : nsisLanding disk env spec file =
      .made (nsisPlace env file, held.bytes) := by
    unfold nsisLanding
    rw [if_pos hsourced, hheld]
  have hmsi : msiLanding disk env spec file = .breaks ∨
      msiLanding disk env spec file =
        .made (env.below file.destination, packed.bytes) := by
    unfold msiLanding
    rw [if_pos hsourced, hpacked]
    cases hnames : msiNames file.destination with
    | none => exact .inl rfl
    | some names => exact .inr (by rw [← msiPlace_eq hnames env])
  have hplaces : nsisPlace env file ≠ env.below file.destination := by
    unfold nsisPlace
    simp
  intro hagree
  rw [hnsis] at hagree
  rcases hmsi with hbreaks | hmade
  · rw [hbreaks] at hagree
    rcases hagree with hrefused | hrefused | ⟨place, -, hplace⟩
    · cases hrefused
    · cases hrefused
    · cases hplace
  · rw [hmade] at hagree
    rcases hagree with hrefused | hrefused | ⟨place, hfirst, hsecond⟩
    · cases hrefused
    · cases hrefused
    · have hsame := Outcome.made.inj (hfirst.trans hsecond.symm)
      exact hplaces (Prod.mk.inj hsame).1

/-- Nothing is packaged without its source, in any format. -/
theorem refused_of_not_sourced {build : Linux.LinuxBuild}
    {spec : InstallerSpec} (hsourced : sourced build.disk spec ≠ true)
    (file : StagedFile) : Linux.debLanding build spec file = .refused := by
  unfold Linux.debLanding
  cases hdata : Linux.DebBundler.data build spec with
  | error failure => rfl
  | ok payload =>
      rcases bind_eq_ok_iff.mp hdata with ⟨app, -, hrest⟩
      rcases bind_eq_ok_iff.mp hrest with ⟨staged, hstaged, -⟩
      apply absurd _ hsourced
      apply List.all_eq_true.mpr
      intro other hother
      rcases exists_of_mem_of_mapM_eq_ok hstaged hother with
        ⟨member, -, hstage⟩
      unfold Linux.stage at hstage
      split at hstage
      · cases hstage
      · next held hheld => rw [hheld, Option.isSome_some]

theorem samePlaces_iff (env : Nsis.Environment) (build : Linux.LinuxBuild)
    (spec : InstallerSpec) :
    SamePlaces env build spec ↔
      spec.extraFiles = [] ∨
        ∃ file ∈ spec.extraFiles, build.disk file.source = none := by
  by_cases hsourced : sourced build.disk spec = true
  · have hnone : ¬ ∃ file ∈ spec.extraFiles,
        build.disk file.source = none := by
      rintro ⟨file, hfile, hmissing⟩
      have hthere := List.all_eq_true.mp hsourced file hfile
      simp [hmissing] at hthere
    constructor
    · intro hsame
      apply Or.inl
      apply List.eq_nil_iff_forall_not_mem.mpr
      intro file hfile
      exact not_agree_windows hsourced hfile env (hsame.windows file hfile)
    · intro hcondition
      have hempty := hcondition.resolve_right hnone
      constructor
      · simp [hempty]
      · simp [hempty]
  · have hmissing : ∃ file ∈ spec.extraFiles,
        build.disk file.source = none := by
      simpa [sourced] using hsourced
    constructor
    · intro _
      exact .inr hmissing
    · intro _
      constructor
      · intro file _
        apply Or.inl
        unfold nsisLanding
        rw [if_neg hsourced]
      · intro file _
        exact .inl (refused_of_not_sourced hsourced file)

/-! ### A library staged for a directory -/

def vendorSpec : InstallerSpec :=
  { Nsis.plainSpec .perMachine with
    extraFiles := [⟨text "/tmp/wintun.dll", text "vendor"⟩] }

def vendorBuild : Linux.LinuxBuild where
  disk := fun source =>
    if source = text "/tmp/wintun.dll" then some ⟨[77, 90], 0x1A4⟩ else none
  appFiles := some [(text "demo", .file ⟨[127, 69], 0x1ED⟩)]
  listsFile := true
  icon := none
  unit := none
  policy := none
  createdMode := 0x1A4
  rpmbuild := fun _ written =>
    if written.all Linux.stays then .ok ()
    else .error ⟨text "rpmbuild failed with exit code 1.", none⟩
  confined := by
    intro listed written hbuilt path hpath
    split at hbuilt
    · next hall => exact List.all_eq_true.mp hall path hpath
    · cases hbuilt

/-- One installer makes a directory of the name, the other a file. -/
theorem not_samePlaces_vendor :
    ¬ SamePlaces Nsis.plainEnvironment vendorBuild vendorSpec ∧
      ∀ file ∈ vendorSpec.extraFiles,
        nsisLanding vendorBuild.disk Nsis.plainEnvironment vendorSpec file =
            .made ([text "C:", text "Demo", text "vendor",
              text "wintun.dll"], [77, 90]) ∧
          msiLanding vendorBuild.disk Nsis.plainEnvironment vendorSpec file =
            .made ([text "C:", text "Demo", text "vendor"], [77, 90]) := by
  constructor
  · intro hsame
    have hfile : ⟨text "/tmp/wintun.dll", text "vendor"⟩ ∈
        vendorSpec.extraFiles := List.mem_singleton.mpr rfl
    exact not_agree_windows (by decide) hfile _
      (hsame.windows _ hfile)
  · decide

end Staging

end Dovetail.Bundler
