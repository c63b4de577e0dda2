import Dovetail.DebDirectories
import Dovetail.LaunchCommands
import Dovetail.PositionalScripts
import Dovetail.ShellScript

/-!
# How an application is started

The desktop entry of a package, that of a bundle which is mounted somewhere,
and the script that a mounted bundle is started by.  The name of the product
and that of its binary are put into all of them as they are.
-/

namespace Dovetail.Launchers

open Bundler
open CodeUnits
open KeyFile (IsPlain furtherOf isIgnored)
open LaunchCommand (Launch command expandWith isWordUnit ownCode)

/-! ## Desktop entries -/

structure DesktopEntry where
  appId : Text
  name : Text
  exec : Text
  comment : Option Text
  categories : List Text
  terminal : Bool
  startupNotify : Bool
  bundled : Bool

namespace DesktopEntry

/-- The checks of the constructor. -/
def check (entry : DesktopEntry) : Except BundleError Unit :=
  if 46 ∉ entry.appId then
    refuse (text "the desktop entry id \"" ++ entry.appId ++
        text "\" is not a reverse-domain name.")
      (some (text
        ("A Wayland compositor matches the app id a process claims against " ++
          "the installed .desktop file name. A short name never matches, " ++
          "and the portal then refuses every request the app makes.")))
  else if !entry.bundled && entry.exec.head? != some slash then
    refuse (text "the desktop entry Exec is \"" ++ entry.exec ++
        text "\", which is not an absolute path.")
      (some (text "A launcher does not search PATH the way a shell does."))
  else if entry.bundled && entry.exec.head? == some slash then
    refuse (text "the desktop entry Exec is \"" ++ entry.exec ++
        text "\", and it travels inside a bundle.")
      (some (text
        ("An AppImage mounts itself somewhere under /tmp with a name it " ++
          "chooses at run time, so an absolute path here points at the " ++
          "user's own filesystem instead of at the app.")))
  else .ok ()

/-- An entry with the defaults of the constructor. -/
def create (appId name exec : Text) (bundled : Bool) :
    Except BundleError DesktopEntry := do
  let entry : DesktopEntry :=
    { appId, name, exec, comment := none, categories := [text "Network"]
      terminal := false, startupNotify := true, bundled }
  check entry
  return entry

def forSpec (spec : BundleSpec) : Except BundleError DesktopEntry :=
  create spec.identifier spec.productName
    (text "/usr/lib/" ++ spec.mainBinaryName ++ text "/" ++
      spec.mainBinaryName) false

def insideBundle (spec : BundleSpec) : Except BundleError DesktopEntry :=
  create spec.identifier spec.productName spec.mainBinaryName true

def flag (value : Bool) : Text :=
  if value then text "true" else text "false"

def commentLines (comment : Option Text) : List Text :=
  match comment with
  | none => []
  | some comment =>
      if trim comment = [] then [] else [text "Comment=" ++ comment]

def render (entry : DesktopEntry) : Text :=
  [newline].intercalate
    ([text "[Desktop Entry]", text "Type=Application", text "Version=1.0",
      text "Name=" ++ entry.name] ++
    commentLines entry.comment ++
    [text "Exec=" ++ entry.exec, text "Icon=" ++ entry.appId,
      text "Terminal=" ++ flag entry.terminal,
      text "Categories=" ++ (text ";").intercalate entry.categories ++
        text ";",
      text "StartupNotify=" ++ flag entry.startupNotify,
      text "StartupWMClass=" ++ entry.appId, []])

/-! ### Reading -/

def group : Text := text "Desktop Entry"

def commentSettings (comment : Option Text) : List (Text × Text) :=
  match comment with
  | none => []
  | some comment =>
      if trim comment = [] then [] else [(text "Comment", comment)]

/-- The keys that are rendered, with the values that are meant. -/
def settings (entry : DesktopEntry) : List (Text × Text) :=
  [(text "Type", text "Application"), (text "Version", text "1.0"),
    (text "Name", entry.name)] ++
  commentSettings entry.comment ++
  [(text "Exec", entry.exec), (text "Icon", entry.appId),
    (text "Terminal", flag entry.terminal),
    (text "Categories",
      (text ";").intercalate entry.categories ++ text ";"),
    (text "StartupNotify", flag entry.startupNotify),
    (text "StartupWMClass", entry.appId)]

def keys (entry : DesktopEntry) : List Text := entry.settings.map Prod.fst

/-- One group is read with the keys that are rendered, the name is the one
that is declared, and all that is started is the declared executable. -/
def ReadsAsDeclared (entry : DesktopEntry) : Prop :=
  ∃ read : List (Text × Text),
    KeyFile.read entry.render =
        some (.header group :: read.map KeyFile.setting) ∧
      read.map Prod.fst = entry.keys ∧
      (∃ value, read.lookup (text "Name") = some value ∧
        KeyFile.localeString value = some entry.name) ∧
      ∃ value, read.lookup (text "Exec") = some value ∧
        ∀ launch : Launch, launch.name = entry.name →
          command launch value = some [entry.exec]

end DesktopEntry

/-! ## Mounted bundles -/

/-- A bundle where it is mounted, how it was started, and the utilities that
tell where it is. -/
structure Mount where
  appDir : Text
  zero : Text
  arguments : List Text
  readlink : Text → Text
  dirname : Text → Text
  absolute : appDir.head? = some slash
  resolved : readlink zero = appDir ++ text "/AppRun"
  parent : dirname (appDir ++ text "/AppRun") = appDir

namespace AppRun

def payloadDirectory : Text := text "usr/bin"

def forBinary (mainBinaryName : Text) : Text :=
  [newline].intercalate
    [text "#!/bin/sh", text "set -e",
      text "here=\"$(dirname \"$(readlink -f \"$0\")\")\"",
      text "exec \"$here/" ++ payloadDirectory ++ text "/" ++
        mainBinaryName ++ text "\" \"$@\"",
      []]

inductive Step where
  | stopOnFailure
  | locate
  | exec (binary : Text)

/-- The lines of the script, and what the shell does at each. -/
def lines (mainBinaryName : Text) : List (ShellScript.Line Step) :=
  [.code (text "#!/bin/sh"),
    ⟨[.code (text "set -e")], fun _ => [.stopOnFailure]⟩,
    ⟨[.code (text "here=\"$(dirname \"$(readlink -f \"$0\")\")\"")],
      fun _ => [.locate]⟩,
    ⟨[.code (text "exec \"$here/usr/bin/"), .literal mainBinaryName,
      .code (text "\" \"$@\"")], fun found => found.map .exec⟩]

/-- A command in the place of a text gives its output but for the newlines at
its end. -/
def substituted (output : Text) : Text :=
  (output ++ [newline]).rdropWhile (· == newline)

def perform (mount : Mount) : Text → List Step →
    Option PositionalScripts.Outcome
  | _, [] => none
  | here, .stopOnFailure :: rest => perform mount here rest
  | _, .locate :: rest =>
      perform mount
        (substituted (mount.dirname (substituted
          (mount.readlink mount.zero)))) rest
  | here, .exec binary :: _ =>
      some (PositionalScripts.execute []
        ((here ++ text "/" ++ payloadDirectory ++ text "/" ++ binary) ::
          mount.arguments))

/-- What a bundle does when it is started. -/
def run (mount : Mount) (mainBinaryName : Text) :
    Option PositionalScripts.Outcome :=
  (ShellScript.run (lines mainBinaryName)).bind (perform mount [])

end AppRun

/-! ## Starting what was declared -/

structure StartsDeclared (spec : BundleSpec) (mount : Mount) : Prop where
  installed : ∀ entry, DesktopEntry.forSpec spec = .ok entry →
    entry.ReadsAsDeclared
  bundled : ∀ entry, DesktopEntry.insideBundle spec = .ok entry →
    entry.ReadsAsDeclared
  mounted : AppRun.run mount spec.mainBinaryName =
    some (.replaced []
      (mount.appDir ++ text "/usr/bin/" ++ spec.mainBinaryName)
      mount.arguments)

/-- The product's name is on one line and without escapes, the identifier
has no further lines that say anything, and the binary's name is a word in
which field codes, if any, stand for themselves. -/
structure Launchable (spec : BundleSpec) (mount : Mount) : Prop where
  name : IsPlain spec.productName
  identifier : ∀ line ∈ furtherOf spec.identifier, isIgnored line = true
  binary : ∀ unit ∈ spec.mainBinaryName, isWordUnit unit = true
  codes : expandWith (ownCode spec.productName) spec.mainBinaryName =
    some spec.mainBinaryName
  mounted : mount.appDir.getLast? ≠ some newline

/-! ## What is read -/

theorem intercalate_concat_nil (lines : List Text) :
    [newline].intercalate (lines ++ [[]]) =
      lines.flatMap (· ++ [newline]) := by
  induction lines with
  | nil => rfl
  | cons line lines ih =>
      rcases List.exists_cons_of_ne_nil
        (List.append_ne_nil_of_right_ne_nil lines (List.cons_ne_nil [] []))
        with ⟨next, others, hnext⟩
      rw [List.cons_append, hnext, List.intercalate_cons_cons, ← hnext, ih]
      rfl

theorem furtherOf_eq_nil {value : Text} (hvalue : newline ∉ value) :
    furtherOf value = [] := by
  unfold furtherOf
  rw [List.splitOn_eq_singleton hvalue]
  rfl

namespace DesktopEntry

theorem map_commentSettings (comment : Option Text) :
    (commentSettings comment).map KeyFile.settingLine =
      commentLines comment := by
  unfold commentSettings commentLines
  cases comment with
  | none => rfl
  | some comment =>
      dsimp only
      split
      · rfl
      · rfl

/-- At most one setting, under a key of its own. -/
theorem commentSettings_cases (comment : Option Text) :
    commentSettings comment = [] ∨
      ∃ value, commentSettings comment = [(text "Comment", value)] := by
  unfold commentSettings
  cases comment with
  | none => exact Or.inl rfl
  | some comment =>
      dsimp only
      split
      · exact Or.inl rfl
      · exact Or.inr ⟨comment, rfl⟩

section

variable (entry : DesktopEntry)

/-- The text is that of one group. -/
theorem render_eq : entry.render = KeyFile.print group entry.settings := by
  unfold render KeyFile.print settings
  rw [← map_commentSettings, List.map_append, List.map_append,
    ← intercalate_concat_nil]
  simp only [List.append_assoc, List.cons_append, List.nil_append,
    List.map_cons, List.map_nil]
  rfl

theorem isItemKey : ∀ item ∈ entry.settings, KeyFile.IsItemKey item.1 := by
  have hall : (entry.settings.all fun item =>
      !item.1.isEmpty && item.1.all KeyFile.isKeyUnit) = true := by
    rcases commentSettings_cases entry.comment with
      hcomment | ⟨value, hcomment⟩
    · rw [settings, hcomment]
      rfl
    · rw [settings, hcomment]
      rfl
  intro item hitem
  have hkey := List.all_eq_true.mp hall item hitem
  rw [Bool.and_eq_true, List.all_eq_true] at hkey
  exact ⟨by simpa using hkey.1, hkey.2⟩

/-- What is read under the two keys that matter. -/
theorem lookup_settings :
    (entry.settings.map fun item =>
        (item.1, KeyFile.firstOf item.2)).lookup (text "Name") =
        some (KeyFile.firstOf entry.name) ∧
      (entry.settings.map fun item =>
        (item.1, KeyFile.firstOf item.2)).lookup (text "Exec") =
        some (KeyFile.firstOf entry.exec) := by
  rcases commentSettings_cases entry.comment with hcomment | ⟨value, hcomment⟩
  · rw [settings, hcomment]
    exact ⟨rfl, rfl⟩
  · rw [settings, hcomment]
    exact ⟨rfl, rfl⟩

/-- An entry is read as it is declared where nothing is on further lines, the
name is plain and the value of its command starts the executable. -/
theorem readsAsDeclared_iff :
    entry.ReadsAsDeclared ↔
      (∀ item ∈ entry.settings, ∀ line ∈ furtherOf item.2,
        isIgnored line = true) ∧
      IsPlain entry.name ∧
      ∀ launch : Launch, launch.name = entry.name →
        command launch (KeyFile.firstOf entry.exec) = some [entry.exec] := by
  have hgroup : KeyFile.isGroupName group = true := by decide
  have hread := KeyFile.read_print_iff entry.isItemKey hgroup
  have hlookup := entry.lookup_settings
  unfold ReadsAsDeclared
  rw [render_eq]
  constructor
  · rintro ⟨read, hprint, hkeys, ⟨name, hname, hshown⟩,
      exec, hexec, hcommand⟩
    rcases (hread read).mp ⟨hprint, hkeys⟩ with ⟨hignored, rfl⟩
    rw [hlookup.1, Option.some.injEq] at hname
    rw [hlookup.2, Option.some.injEq] at hexec
    rw [← hname] at hshown
    rw [← hexec] at hcommand
    exact ⟨hignored, KeyFile.localeString_firstOf_iff.mp hshown, hcommand⟩
  · rintro ⟨hignored, hname, hcommand⟩
    rcases (hread _).mpr ⟨hignored, rfl⟩ with ⟨hprint, hkeys⟩
    exact ⟨_, hprint, hkeys,
      ⟨_, hlookup.1, KeyFile.localeString_firstOf_iff.mpr hname⟩,
      _, hlookup.2, hcommand⟩

end

end DesktopEntry

/-! ## The entries of a specification -/

section

variable {spec : BundleSpec} {exec : Text} {bundled : Bool}
  {entry : DesktopEntry}

/-- An entry of a specification is read as it is declared where the name is
plain, the executable is started, and nothing is on the further lines of its
value and of the identifier. -/
theorem readsAsDeclared_create
    (hentry : DesktopEntry.create spec.identifier spec.productName exec
      bundled = .ok entry) :
    entry.ReadsAsDeclared ↔
      (∀ line ∈ furtherOf exec, isIgnored line = true) ∧
      (∀ line ∈ furtherOf spec.identifier, isIgnored line = true) ∧
      IsPlain spec.productName ∧
      ∀ launch : Launch, launch.name = spec.productName →
        command launch (KeyFile.firstOf exec) = some [exec] := by
  unfold DesktopEntry.create at hentry
  rcases FallibleSteps.bind_eq_ok_iff.mp hentry with ⟨_, _, hsame⟩
  cases hsame
  have hfixed : ∀ value ∈ [text "Application", text "1.0", text "false",
      text "Network;", text "true"], newline ∉ value := by
    decide
  have hnothing (value : Text) (hvalue : newline ∉ value) :
      ∀ line ∈ furtherOf value, isIgnored line = true := by
    rw [furtherOf_eq_nil hvalue]
    simp
  rw [DesktopEntry.readsAsDeclared_iff]
  constructor
  · rintro ⟨hignored, hname, hcommand⟩
    refine ⟨?_, ?_, hname, hcommand⟩
    · exact hignored (text "Exec", exec) (by simp [DesktopEntry.settings])
    · exact hignored (text "Icon", spec.identifier)
        (by simp [DesktopEntry.settings])
  · rintro ⟨hexec, hidentifier, hname, hcommand⟩
    refine ⟨?_, hname, hcommand⟩
    simp only [List.forall_mem_cons] at hfixed
    rcases hfixed with ⟨htype, hversion, hfalse, hnetwork, htrue, -⟩
    have hshown := hnothing _ hname.single
    suffices hall : ∀ item ∈ [(text "Type", text "Application"),
        (text "Version", text "1.0"), (text "Name", spec.productName),
        (text "Exec", exec), (text "Icon", spec.identifier),
        (text "Terminal", text "false"),
        (text "Categories", text "Network;"),
        (text "StartupNotify", text "true"),
        (text "StartupWMClass", spec.identifier)],
        ∀ line ∈ furtherOf item.2, isIgnored line = true from hall
    simp only [List.forall_mem_cons]
    exact ⟨hnothing _ htype, hnothing _ hversion, hshown, hexec,
      hidentifier, hnothing _ hfalse, hnothing _ hnetwork,
      hnothing _ htrue, hidentifier, by simp⟩

theorem exists_forSpec (hidentifier : 46 ∈ spec.identifier) :
    ∃ entry, DesktopEntry.forSpec spec = .ok entry := by
  unfold DesktopEntry.forSpec DesktopEntry.create DesktopEntry.check
  simp only [not_not_intro hidentifier, if_false]
  exact ⟨_, rfl⟩

end

/-- The entry that the packages have in them. -/
theorem render_forSpec {spec : InstallerSpec} {entry : DesktopEntry}
    (hentry : DesktopEntry.forSpec spec.toBundleSpec = .ok entry) :
    entry.render = Bundler.Linux.DesktopEntry.render spec := by
  unfold DesktopEntry.forSpec DesktopEntry.create at hentry
  rcases FallibleSteps.bind_eq_ok_iff.mp hentry with ⟨_, _, hsame⟩
  cases hsame
  rw [DesktopEntry.render_eq]
  unfold KeyFile.print Bundler.Linux.DesktopEntry.render
  have hlines : KeyFile.headerLine DesktopEntry.group :: List.map
      KeyFile.settingLine (DesktopEntry.settings
        { appId := spec.identifier, name := spec.productName
          exec := text "/usr/lib/" ++ spec.mainBinaryName ++ text "/" ++
            spec.mainBinaryName
          comment := none, categories := [text "Network"]
          terminal := false, startupNotify := true, bundled := false }) =
      [text "[Desktop Entry]", text "Type=Application", text "Version=1.0",
        text "Name=" ++ spec.productName,
        text "Exec=/usr/lib/" ++ spec.mainBinaryName ++ text "/" ++
          spec.mainBinaryName,
        text "Icon=" ++ spec.identifier, text "Terminal=false",
        text "Categories=Network;", text "StartupNotify=true",
        text "StartupWMClass=" ++ spec.identifier] := rfl
  rw [hlines]
  rfl

/-- Where the binary is installed. -/
theorem isWord_libraries : LaunchCommand.IsWord (text "/usr/lib/") ∧
    LaunchCommand.percent ∉ text "/usr/lib/" := by
  have hall : text "/usr/lib/" ≠ [] ∧
      (∀ unit ∈ text "/usr/lib/", isWordUnit unit = true) ∧
        LaunchCommand.percent ∉ text "/usr/lib/" := by
    decide
  exact ⟨⟨hall.1, hall.2.1⟩, hall.2.2⟩

theorem isWordUnit_slash : isWordUnit LaunchCommand.slash = true := by
  decide

/-! ## The script -/

namespace AppRun

/-- The script as it is written. -/
theorem scriptText_lines (mainBinaryName : Text) :
    ShellScript.scriptText (ShellScript.scriptParts (lines mainBinaryName)) =
      forBinary mainBinaryName := by
  have hwritten := intercalate_concat_nil
    [text "#!/bin/sh", text "set -e",
      text "here=\"$(dirname \"$(readlink -f \"$0\")\")\"",
      text "exec \"$here/" ++ payloadDirectory ++ text "/" ++
        mainBinaryName ++ text "\" \"$@\""]
  unfold forBinary
  rw [List.cons_append, List.cons_append, List.cons_append,
    List.cons_append, List.nil_append] at hwritten
  rw [hwritten]
  unfold ShellScript.scriptParts lines
  simp only [List.flatMap_cons, List.flatMap_nil, ShellScript.Line.code,
    ShellScript.scriptText_append, ShellScript.scriptText_cons,
    ShellScript.Part.text, List.append_nil, List.append_assoc]
  rfl

theorem holds_of_isWordUnit {unit : UInt16} (hunit : isWordUnit unit = true) :
    ShellScript.Quoting.holds .double unit = true ∧
      unit ≠ ShellScript.nul := by
  have hword := LaunchCommand.isWordUnit_iff.mp hunit
  constructor
  · have hspecial : ∀ other ∈ text "\"$`\\",
        LaunchCommand.isReserved other = true := by
      decide
    unfold ShellScript.Quoting.holds
    simp only [decide_eq_true_eq]
    intro hmem
    rw [hspecial unit hmem] at hword
    exact absurd hword.2.1 (by simp)
  · rintro rfl
    exact absurd hword.1 (by decide)

theorem blank_lines (mainBinaryName : Text) :
    (ShellScript.scriptParts (lines mainBinaryName)).map
        ShellScript.Part.blank =
      (ShellScript.scriptParts (lines [])).map ShellScript.Part.blank := rfl

/-- A word is found where it was put. -/
theorem run_lines {mainBinaryName : Text}
    (hbinary : ∀ unit ∈ mainBinaryName, isWordUnit unit = true) :
    ShellScript.run (lines mainBinaryName) =
      some [.stopOnFailure, .locate, .exec mainBinaryName] := by
  have hcontained : ShellScript.Contained .start
      (ShellScript.scriptParts (lines mainBinaryName)) := by
    have hvalue : ∀ unit ∈ mainBinaryName,
        ShellScript.Quoting.holds .double unit = true :=
      fun unit hunit => (holds_of_isWordUnit (hbinary unit hunit)).1
    exact ⟨hvalue, trivial⟩
  have hquoted : ShellScript.wellQuoted .start
      (ShellScript.scriptParts (lines mainBinaryName)) = true := by
    rw [← ShellScript.wellQuoted_blank, blank_lines]
    decide
  have hnul : ShellScript.nul ∉ ShellScript.scriptText
      (ShellScript.scriptParts (lines mainBinaryName)) := by
    rw [ShellScript.mem_scriptText_iff, blank_lines]
    rintro (hcode | ⟨value, hvalue, hmem⟩)
    · revert hcode
      decide
    · have hsame : value ∈ [mainBinaryName] := hvalue
      rw [List.mem_singleton.mp hsame] at hmem
      exact (holds_of_isWordUnit (hbinary _ hmem)).2 rfl
  rw [ShellScript.run_eq_some hnul hquoted hcontained]
  rfl

theorem substituted_eq (output : Text) :
    substituted output = output.rdropWhile (· == newline) := by
  unfold substituted
  rw [List.rdropWhile_concat_pos _ _ _ (by simp)]

theorem substituted_eq_self_iff {output : Text} :
    substituted output = output ↔ output.getLast? ≠ some newline := by
  rw [substituted_eq]
  constructor
  · intro hsame hlast
    rcases List.getLast?_eq_some_iff.mp hlast with ⟨start, hstart⟩
    rw [hstart, List.rdropWhile_concat_pos _ _ _ (by simp)] at hsame
    have hlength := congrArg List.length hsame
    have hshort := (List.rdropWhile_prefix (· == newline) start).length_le
    rw [List.length_append, List.length_singleton] at hlength
    omega
  · intro hlast
    apply rdropWhile_eq_self
    intro unit hunit
    rw [beq_eq_false_iff_ne]
    rintro rfl
    exact hlast hunit

/-- The shell looks for the binary where it takes the bundle to be. -/
theorem run_eq {mount : Mount} {mainBinaryName : Text}
    (hbinary : ∀ unit ∈ mainBinaryName, isWordUnit unit = true) :
    run mount mainBinaryName = some (.replaced []
      (substituted mount.appDir ++ text "/usr/bin/" ++ mainBinaryName)
      mount.arguments) := by
  have hresolved : substituted (mount.appDir ++ text "/AppRun") =
      mount.appDir ++ text "/AppRun" := by
    have hlast : (text "/AppRun").getLast? = some 110 := rfl
    rw [substituted_eq_self_iff, List.getLast?_append, hlast, Option.some_or]
    decide
  have hpath : substituted mount.appDir ++ text "/" ++ payloadDirectory ++
      text "/" ++ mainBinaryName =
        substituted mount.appDir ++ text "/usr/bin/" ++ mainBinaryName := by
    simp only [List.append_assoc]
    rfl
  have hhead : (substituted mount.appDir ++ text "/usr/bin/" ++
      mainBinaryName).head? = some slash := by
    have hstarts : substituted mount.appDir <+: mount.appDir := by
      rw [substituted_eq]
      exact List.rdropWhile_prefix _ _
    cases hhere : substituted mount.appDir with
    | nil => rfl
    | cons unit rest =>
        rw [hhere] at hstarts
        rcases hstarts with ⟨after, hafter⟩
        have habsolute := mount.absolute
        rw [← hafter] at habsolute
        exact habsolute
  unfold run
  rw [run_lines hbinary, Option.bind_some]
  unfold perform perform perform
  rw [mount.resolved, hresolved, mount.parent, hpath]
  rcases List.head?_eq_some_iff.mp hhead with ⟨rest, hrest⟩
  rw [hrest]
  unfold PositionalScripts.execute
  dsimp only
  rw [if_neg (by simp [slash, PositionalScripts.dash]),
    if_neg (by simp [slash, PositionalScripts.dash])]
  rfl

end AppRun

/-! ## Exactly when -/

theorem installed_eq (binary : Text) :
    text "/usr/lib/" ++ binary ++ text "/" ++ binary =
      text "/usr/lib/" ++ (binary ++ LaunchCommand.slash :: binary) := by
  simp only [List.append_assoc]
  rfl

theorem named_of_accepted {spec : InstallerSpec}
    (haccepted : spec.check = .ok ()) :
    spec.mainBinaryName ≠ [] ∧ 46 ∈ spec.identifier := by
  unfold InstallerSpec.check at haccepted
  split_ifs at haccepted with hproduct hbinary hidentifier
  · cases haccepted
  · cases haccepted
  · constructor
    · intro hnil
      rw [hnil] at hbinary
      exact hbinary rfl
    · exact hidentifier
  · rcases FallibleSteps.bind_eq_ok_iff.mp haccepted with ⟨_, _, hrest⟩
    cases hrest

section

variable {spec : InstallerSpec} {mount : Mount}

theorem Launchable.isWord (hbinary : spec.mainBinaryName ≠ [])
    (hlaunchable : Launchable spec.toBundleSpec mount) :
    LaunchCommand.IsWord (text "/usr/lib/" ++ (spec.mainBinaryName ++
      LaunchCommand.slash :: spec.mainBinaryName)) := by
  constructor
  case filled => simp [hbinary]
  case units =>
    simp only [List.forall_mem_append, List.forall_mem_cons]
    exact ⟨isWord_libraries.1.units, hlaunchable.binary, isWordUnit_slash,
      hlaunchable.binary⟩

theorem Launchable.expandWith
    (hlaunchable : Launchable spec.toBundleSpec mount) :
    expandWith (ownCode spec.productName) (text "/usr/lib/" ++
        (spec.mainBinaryName ++ LaunchCommand.slash :: spec.mainBinaryName)) =
      some (text "/usr/lib/" ++ (spec.mainBinaryName ++
        LaunchCommand.slash :: spec.mainBinaryName)) := by
  rw [LaunchCommand.expandWith_append isWord_libraries.2,
    LaunchCommand.expandWith_append_cons (by decide) rfl,
    hlaunchable.codes]
  rfl

theorem startsDeclared_of_launchable (hbinary : spec.mainBinaryName ≠ [])
    (hlaunchable : Launchable spec.toBundleSpec mount) :
    StartsDeclared spec.toBundleSpec mount := by
  have hstarted (exec : Text) (hexec : LaunchCommand.IsWord exec)
      (hcodes : LaunchCommand.expandWith (ownCode spec.productName) exec =
        some exec) :
      (∀ line ∈ furtherOf exec, isIgnored line = true) ∧
        ∀ launch : Launch, launch.name = spec.productName →
          command launch (KeyFile.firstOf exec) = some [exec] := by
    rw [furtherOf_eq_nil hexec.isPlain.single, hexec.isPlain.firstOf]
    constructor
    · simp
    · intro launch hnamed
      apply LaunchCommand.command_self hexec
      rw [hnamed]
      exact hcodes
  constructor
  case installed =>
    intro entry hentry
    have hboth := hstarted _ (hlaunchable.isWord hbinary)
      hlaunchable.expandWith
    rw [readsAsDeclared_create hentry, installed_eq]
    exact ⟨hboth.1, hlaunchable.identifier, hlaunchable.name, hboth.2⟩
  case bundled =>
    intro entry hentry
    have hboth := hstarted _ ⟨hbinary, hlaunchable.binary⟩ hlaunchable.codes
    rw [readsAsDeclared_create hentry]
    exact ⟨hboth.1, hlaunchable.identifier, hlaunchable.name, hboth.2⟩
  case mounted =>
    rw [AppRun.run_eq hlaunchable.binary,
      AppRun.substituted_eq_self_iff.mpr hlaunchable.mounted]

theorem launchable_of_startsDeclared (hidentifier : 46 ∈ spec.identifier)
    (hstarts : StartsDeclared spec.toBundleSpec mount) :
    Launchable spec.toBundleSpec mount := by
  rcases exists_forSpec hidentifier with ⟨entry, hentry⟩
  have hread := hstarts.installed entry hentry
  rw [readsAsDeclared_create hentry, installed_eq] at hread
  rcases hread with ⟨-, hfurther, hname, hcommand⟩
  have hword := LaunchCommand.isWord_of_command isWord_libraries.1
    isWord_libraries.2 hname hcommand
  constructor
  case name => exact hname
  case identifier => exact hfurther
  case binary => exact hword.1
  case codes => exact hword.2
  case mounted =>
    have hmounted := hstarts.mounted
    rw [AppRun.run_eq hword.1, Option.some.injEq,
      PositionalScripts.Outcome.replaced.injEq] at hmounted
    apply AppRun.substituted_eq_self_iff.mp
    exact List.append_cancel_right (List.append_cancel_right hmounted.2.1)

end

/-- What is declared is started exactly where its names can be written
without quotes and escapes. -/
theorem startsDeclared_iff (spec : InstallerSpec) (mount : Mount)
    (haccepted : spec.check = .ok ()) :
    StartsDeclared spec.toBundleSpec mount ↔
      Launchable spec.toBundleSpec mount := by
  rcases named_of_accepted haccepted with ⟨hbinary, hidentifier⟩
  constructor
  · exact launchable_of_startsDeclared hidentifier
  · exact startsDeclared_of_launchable hbinary

/-! ## Examples -/

def clientSpec (mainBinaryName : Text) : InstallerSpec where
  productName := text "Acme Client"
  manufacturer := text "Acme"
  identifier := text "com.acme.client"
  version := ⟨2, 1, 0, 0⟩
  mainBinaryName
  appDirectory := text "bundle"
  outputDirectory := text "dist"
  installMode := .perMachine
  installerHooks := none
  installerIcon := none
  licenseFile := none
  homepage := none
  extraFiles := []
  installerLanguages := [text "English"]

/-- A bundle that is started by a link to its script. -/
def linkedMount : Mount where
  appDir := text "/tmp/.mount_client"
  zero := text "/home/user/client"
  arguments := [text "--verbose", text "a b"]
  readlink path :=
    if path = text "/home/user/client" then text "/tmp/.mount_client/AppRun"
    else path
  dirname := Linux.Posix.dirname
  absolute := rfl
  resolved := by decide
  parent := by decide

theorem startsDeclared_acmeClient :
    StartsDeclared (clientSpec (text "acme-client")).toBundleSpec
      linkedMount := by
  apply (startsDeclared_iff _ _ (by decide)).mpr
  constructor
  case name =>
    constructor
    case single => decide
    case literal => decide
    case begins =>
      intro unit hunit
      cases hunit
      decide
  case identifier => decide +kernel
  case binary => decide +kernel
  case codes => decide +kernel
  case mounted => decide +kernel

/-- A name of two words is two words. -/
theorem not_startsDeclared_acme_client :
    ¬ StartsDeclared (clientSpec (text "acme client")).toBundleSpec
      linkedMount := by
  intro hstarts
  have hlaunchable := launchable_of_startsDeclared (by decide) hstarts
  exact absurd (hlaunchable.binary 32 (by decide)) (by decide)

end Dovetail.Launchers
