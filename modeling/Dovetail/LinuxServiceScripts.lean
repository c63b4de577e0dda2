import Dovetail.PurgePaths
import Dovetail.ShellScript

/-!
# The purge of a Debian package

`ServiceScripts` writes its purge paths, with spaces between them, into one
quoted value of the `postrm`; the script splits it again and removes field by
field.  The checks of the paths leave out a single quote, the other
separators, the patterns of the shell and a `..`, and nothing is asked of
the unit's name but its ending.
-/

namespace Dovetail.Bundler

open CodeUnits ShellScript

namespace ServiceScripts

/-! ## What is accepted -/

def pathChecks : List PathCheck :=
  [.absolute (text "These paths are removed by rm -rf during purge. A relative one would delete whatever sits under the maintainer script's working directory."),
    .unspaced (text "The purge loop splits on whitespace, so a path with a space would be removed as two wrong paths."),
    .deep]

def check (unitFileName : Text) (purgePaths : List Text) :
    Except BundleFailure Unit :=
  if !(text ".service").isSuffixOf unitFileName then
    .error
      { message := text "the unit named in the maintainer scripts is \"" ++
          unitFileName ++ text "\"."
        remedy := some
          (text "It has to be the same file the package installs.") }
  else checkPurgePaths pathChecks purgePaths

end ServiceScripts

structure ServiceScripts where
  unitFileName : Text
  purgePaths : List Text
  refreshDesktopDatabase : Bool
  accepted : ServiceScripts.check unitFileName purgePaths = .ok ()

namespace ServiceScripts

theorem accepted_path (scripts : ServiceScripts) {path : Text}
    (hpath : path ∈ scripts.purgePaths) :
    path.head? = some slash ∧ 32 ∉ path ∧ 2 ≤ (segments path).length := by
  have haccepted := scripts.accepted
  rw [check, unless_refused_iff] at haccepted
  have hchecks := checkPurgePaths_eq_ok_iff.mp haccepted.2 path hpath
  simp only [pathChecks, PathCheck.absolute, PathCheck.unspaced,
    PathCheck.deep, List.forall_mem_cons] at hchecks
  obtain ⟨habsolute, hunspaced, hdeep, -⟩ := hchecks
  refine ⟨by simpa using habsolute, by simpa using hunspaced, ?_⟩
  exact Nat.not_lt.mp (of_decide_eq_false hdeep)

/-! ## The script -/

/-- A line with the unit's name in it, to no effect on files. -/
def unitLine (before unitFileName after : Text) : Line Text :=
  ⟨[.code before, .literal unitFileName, .code after], fun _ => []⟩

/-- The assignment takes effect as the value that is found in it. -/
def purgeLines (purgePaths : Text) : List (Line Text) :=
  [.code [],
    ⟨[.code (text "_purge_paths='"), .literal purgePaths, .code (text "'")],
      fun found => found⟩,
    .code (text "if [ \"$1\" = \"purge\" ] && [ -n \"$_purge_paths\" ]; then"),
    .code (text "\tfor _p in $_purge_paths; do"),
    .code (text "\t\trm -rf \"$_p\""),
    .code (text "\tdone"),
    .code (text "fi")]

def refreshLines : List (Line Text) :=
  [.code [],
    .code (text "if [ \"$1\" = remove ] || [ \"$1\" = purge ]; then"),
    .code (text "\tif command -v update-desktop-database >/dev/null 2>&1; then"),
    .code (text "\t\tupdate-desktop-database -q /usr/share/applications || true"),
    .code (text "\tfi"),
    .code (text "fi")]

def postrmLines (unitFileName : Text) (purgePaths : Option Text)
    (refreshDesktopDatabase : Bool) : List (Line Text) :=
  [.code (text "#!/bin/sh"),
    .code (text "set -e"),
    .code [],
    .code (text "if [ \"$1\" = \"purge\" ]; then"),
    unitLine (text "\tdeb-systemd-helper purge '") unitFileName
      (text "' >/dev/null || true"),
    .code (text "fi"),
    .code [],
    .code (text "if [ \"$1\" = remove ] && [ -d /run/systemd/system ]; then"),
    .code (text "\tsystemctl --system daemon-reload >/dev/null || true"),
    .code (text "fi")] ++
  (purgePaths.elim [] purgeLines ++
  ((if refreshDesktopDatabase then refreshLines else []) ++
  [.code [], .code (text "exit 0")]))

def debianPostrm (scripts : ServiceScripts) : List (Line Text) :=
  postrmLines scripts.unitFileName
    (if scripts.purgePaths = [] then none
      else some ([32].intercalate scripts.purgePaths))
    scripts.refreshDesktopDatabase

/-- The loop ends with the script at the first path that cannot be removed. -/
def passed (removes : Text → Bool) : List Text → List Text
  | [] => []
  | path :: paths => path :: if removes path then passed removes paths else []

/-- What `rm -rf` is called with when the package is purged, call by call;
none where the script is not read back. -/
def purge (shell : Globbing) (files : List Text) (removes : Text → Bool)
    (scripts : ServiceScripts) : Option (List Text) :=
  (run scripts.debianPostrm).map fun assigned =>
    passed removes ((assigned.flatMap fields).flatMap (shell.expand files))

/-! ## Purging what was declared -/

/-- Whatever files there are, the calls are those of the declared paths, all
of them when none fails, and no path leaves its place. -/
structure PurgesDeclared (shell : Globbing) (scripts : ServiceScripts) :
    Prop where
  passes : ∀ files : List Text, files.Nodup → ∀ removes, ∃ paths,
    purge shell files removes scripts = some paths ∧
      paths <+: scripts.purgePaths ∧
      ((∀ path ∈ scripts.purgePaths, removes path = true) →
        paths = scripts.purgePaths)
  confined : ∀ path ∈ scripts.purgePaths, Confined path

/-- What the checks leave out. -/
structure Purgeable (shell : Globbing) (path : Text) : Prop where
  quotable : Quotable path
  whole : 9 ∉ path ∧ 10 ∉ path
  sole : shell.Sole path
  named : (segments path).getLast? ≠ some (text "..")
  deep : 2 ≤ (denoted path).length

theorem blank_postrmLines (unitFileName : Text) (purgePaths : Option Text)
    (refreshDesktopDatabase : Bool) :
    (scriptParts (postrmLines unitFileName purgePaths
        refreshDesktopDatabase)).map Part.blank =
      scriptParts (postrmLines [] (purgePaths.map fun _ => [])
        refreshDesktopDatabase) := by
  cases purgePaths <;> cases refreshDesktopDatabase <;> rfl

theorem postrmLines_closed : ∀ declared refreshDesktopDatabase : Bool,
    let parts := scriptParts (postrmLines []
      (if declared then some [] else none) refreshDesktopDatabase)
    wellQuoted .start parts = true ∧
      (∀ place ∈ places .start parts, place = .single) ∧
      nul ∉ scriptText parts := by
  simp only [postrmLines, unitLine, purgeLines, refreshLines, Line.code,
    text_ofList]
  decide +kernel

theorem values_postrmLines (unitFileName : Text) (purgePaths : Option Text)
    (refreshDesktopDatabase : Bool) :
    values (scriptParts (postrmLines unitFileName purgePaths
      refreshDesktopDatabase)) = unitFileName :: purgePaths.toList := by
  cases purgePaths <;> cases refreshDesktopDatabase <;> rfl

theorem effect_postrmLines (unitFileName : Text) (purgePaths : Option Text)
    (refreshDesktopDatabase : Bool) :
    ((postrmLines unitFileName purgePaths refreshDesktopDatabase).flatMap
      fun line => line.effect (values line.parts)) = purgePaths.toList := by
  cases purgePaths <;> cases refreshDesktopDatabase <;> rfl

theorem run_postrmLines_eq_some_iff {unitFileName : Text}
    {purgePaths : Option Text} {refreshDesktopDatabase : Bool}
    {assigned : List Text} :
    run (postrmLines unitFileName purgePaths refreshDesktopDatabase) =
        some assigned ↔
      (∀ value ∈ unitFileName :: purgePaths.toList, Quotable value) ∧
        assigned = purgePaths.toList := by
  have hblank := blank_postrmLines unitFileName purgePaths
    refreshDesktopDatabase
  have hclosed := postrmLines_closed purgePaths.isSome refreshDesktopDatabase
  have hdeclared : (if purgePaths.isSome then some [] else none) =
      purgePaths.map fun _ => ([] : Text) := by cases purgePaths <;> rfl
  dsimp only at hclosed
  rw [hdeclared, ← hblank, wellQuoted_blank, places_blank] at hclosed
  obtain ⟨hquoted, hplaces, hnul⟩ := hclosed
  rw [run_eq_some_iff hquoted hplaces, mem_scriptText_iff, or_iff_right hnul,
    values_postrmLines, effect_postrmLines]
  simp only [Quotable, not_exists, not_and, forall_and]
  tauto

/-- The value the paths are assigned as, in the script that has one. -/
def declared (scripts : ServiceScripts) : Option Text :=
  if scripts.purgePaths = [] then none
  else some ([32].intercalate scripts.purgePaths)

theorem mem_declared_iff {scripts : ServiceScripts} {unit : UInt16}
    (hother : unit ≠ 32) :
    (∃ value ∈ scripts.declared.toList, unit ∈ value) ↔
      ∃ path ∈ scripts.purgePaths, unit ∈ path := by
  unfold declared
  split
  · next hnone => simp [hnone]
  · simp [mem_intercalate_iff hother]

theorem fields_declared {scripts : ServiceScripts}
    (hwhole : ∀ path ∈ scripts.purgePaths,
      ∀ unit ∈ path, separates unit = false) :
    scripts.declared.toList.flatMap fields = scripts.purgePaths := by
  unfold declared
  split
  · next hnone => simp [hnone]
  · simp only [Option.toList_some, List.flatMap_singleton]
    refine fields_intercalate (by decide) fun path hpath => ⟨?_, hwhole path hpath⟩
    rintro rfl
    simpa using (scripts.accepted_path hpath).1

theorem run_debianPostrm_eq_some_iff {scripts : ServiceScripts}
    {assigned : List Text} :
    run scripts.debianPostrm = some assigned ↔
      (Quotable scripts.unitFileName ∧
        ∀ path ∈ scripts.purgePaths, Quotable path) ∧
        assigned = scripts.declared.toList := by
  have hquote := @mem_declared_iff scripts quote (by decide)
  have hnul := @mem_declared_iff scripts nul (by decide)
  have hvalues : (∀ value ∈ scripts.declared.toList, Quotable value) ↔
      ∀ path ∈ scripts.purgePaths, Quotable path := by
    simp only [Quotable, forall_and]
    exact and_congr (by simpa using not_congr hquote)
      (by simpa using not_congr hnul)
  unfold debianPostrm
  rw [run_postrmLines_eq_some_iff, List.forall_mem_cons]
  exact and_congr_left' (and_congr_right' hvalues)

/-! ## The loop -/

theorem passed_prefix (removes : Text → Bool) (paths : List Text) :
    passed removes paths <+: paths := by
  induction paths with
  | nil => exact List.prefix_rfl
  | cons path paths ih =>
      unfold passed
      split
      · exact List.prefix_cons_inj path |>.mpr ih
      · exact ⟨paths, rfl⟩

theorem passed_eq_self {removes : Text → Bool} {paths : List Text}
    (hremoves : ∀ path ∈ paths, removes path = true) :
    passed removes paths = paths := by
  induction paths with
  | nil => rfl
  | cons path paths ih =>
      rw [passed, if_pos (hremoves path (by simp)),
        ih fun other hmem => hremoves other (by simp [hmem])]

theorem flatMap_expand_eq_self {shell : Globbing} {paths : List Text}
    (hsole : ∀ path ∈ paths, shell.Sole path) {files : List Text}
    (hfiles : files.Nodup) : paths.flatMap (shell.expand files) = paths := by
  induction paths with
  | nil => rfl
  | cons path paths ih =>
      rw [List.flatMap_cons, Globbing.expand_eq_of_sole (hsole path (by simp))
        hfiles, ih fun other hmem => hsole other (by simp [hmem])]
      rfl

theorem flatMap_expand_nil (shell : Globbing) (paths : List Text) :
    paths.flatMap (shell.expand []) = paths :=
  List.flatMap_singleton' paths

theorem flatMap_expand_singleton (shell : Globbing) (name : Text)
    (paths : List Text) :
    paths.flatMap (shell.expand [name]) =
      paths.map fun path => if shell.stands path name then name else path := by
  rw [List.map_eq_flatMap]
  exact List.flatMap_congr fun path _ => shell.expand_singleton name path

/-! ## The condition -/

theorem separates_of_accepted {scripts : ServiceScripts} {path : Text}
    (hpath : path ∈ scripts.purgePaths) (hwhole : 9 ∉ path ∧ 10 ∉ path) :
    ∀ unit ∈ path, separates unit = false := by
  intro unit hunit
  have hspace := (scripts.accepted_path hpath).2.1
  have hunits : text " \t\n" = [32, 9, 10] := by decide
  simp only [separates, hunits, List.mem_cons, List.not_mem_nil, or_false,
    decide_eq_false_iff_not]
  rintro (rfl | rfl | rfl)
  · exact hspace hunit
  · exact hwhole.1 hunit
  · exact hwhole.2 hunit

theorem purgesDeclared_of_purgeable {shell : Globbing}
    {scripts : ServiceScripts} (hunit : Quotable scripts.unitFileName)
    (hpaths : ∀ path ∈ scripts.purgePaths, Purgeable shell path) :
    PurgesDeclared shell scripts := by
  have hrun := run_debianPostrm_eq_some_iff.mpr
    ⟨⟨hunit, fun path hpath => (hpaths path hpath).quotable⟩, rfl⟩
  have hfields : scripts.declared.toList.flatMap fields = scripts.purgePaths :=
    fields_declared fun path hpath =>
      separates_of_accepted hpath (hpaths path hpath).whole
  constructor
  · intro files hfiles removes
    refine ⟨passed removes scripts.purgePaths, ?_, passed_prefix _ _,
      passed_eq_self⟩
    rw [purge, hrun, Option.map_some, hfields,
      flatMap_expand_eq_self (fun path hpath => (hpaths path hpath).sole) hfiles]
  · intro path hpath
    have hdeep := (scripts.accepted_path hpath).2.2
    have hnamed : segments path ≠ [] := by
      rintro hnone
      simp [hnone] at hdeep
    exact (confined_iff hnamed).mpr
      ⟨(hpaths path hpath).deep, (hpaths path hpath).named⟩

/-- What is passed when no removal fails. -/
theorem PurgesDeclared.expanded {shell : Globbing} {scripts : ServiceScripts}
    (hdeclared : PurgesDeclared shell scripts) {files : List Text}
    (hfiles : files.Nodup) :
    (scripts.declared.toList.flatMap fields).flatMap (shell.expand files) =
      scripts.purgePaths := by
  obtain ⟨paths, hpurge, -, hall⟩ :=
    hdeclared.passes files hfiles fun _ => true
  obtain ⟨assigned, hrun, hpassed⟩ := Option.map_eq_some_iff.mp hpurge
  rw [(run_debianPostrm_eq_some_iff.mp hrun).2, passed_eq_self (by simp)]
    at hpassed
  rw [hpassed, hall (by simp)]

/-- A purge is that of the declared paths just when the name of the unit and
every path keep to what the script takes for granted. -/
theorem purgesDeclared_iff (shell : Globbing) (scripts : ServiceScripts) :
    PurgesDeclared shell scripts ↔ Quotable scripts.unitFileName ∧
      ∀ path ∈ scripts.purgePaths, Purgeable shell path := by
  constructor
  · intro hdeclared
    obtain ⟨paths, hpurge, -⟩ :=
      hdeclared.passes [] List.nodup_nil fun _ => true
    obtain ⟨assigned, hrun, -⟩ := Option.map_eq_some_iff.mp hpurge
    obtain ⟨hunit, hquotable⟩ := (run_debianPostrm_eq_some_iff.mp hrun).1
    have hfields : scripts.declared.toList.flatMap fields =
        scripts.purgePaths := by
      have hnone := hdeclared.expanded List.nodup_nil
      rwa [flatMap_expand_nil] at hnone
    refine ⟨hunit, fun path hpath => ?_⟩
    have hdeep := (scripts.accepted_path hpath).2.2
    have hnamed : segments path ≠ [] := by
      rintro hnone
      simp [hnone] at hdeep
    have hconfined :=
      (confined_iff hnamed).mp (hdeclared.confined path hpath)
    refine ⟨hquotable path hpath, ?_, ?_, hconfined.2, hconfined.1⟩
    · rw [← hfields] at hpath
      obtain ⟨value, -, hfield⟩ := List.mem_flatMap.mp hpath
      have hwhole := separates_of_mem_fields hfield
      constructor <;> intro hunit <;> exact absurd (hwhole _ hunit) (by decide)
    · intro name hname
      have hsingle := hdeclared.expanded (List.nodup_singleton name)
      rw [hfields, flatMap_expand_singleton] at hsingle
      have hsame := List.map_inj_left.mp
        (hsingle.trans (List.map_id _).symm) path hpath
      simpa [hname, eq_comm] using hsame
  · rintro ⟨hunit, hpaths⟩
    exact purgesDeclared_of_purgeable hunit hpaths

/-- An accepted path that denotes `/var`. -/
def climbing : ServiceScripts where
  unitFileName := text "example.service"
  purgePaths := [text "/var/lib/example/../.."]
  refreshDesktopDatabase := true
  accepted := by decide

theorem not_purgesDeclared_climbing :
    ¬ PurgesDeclared .disabled climbing := by
  intro hdeclared
  have hdeep := (hdeclared.confined _ (List.mem_singleton_self _)).deep
  exact absurd hdeep (by decide)

end ServiceScripts

end Dovetail.Bundler
