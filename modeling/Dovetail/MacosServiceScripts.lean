import Dovetail.PurgePaths
import Dovetail.ShellScript

/-!
# The service scripts of a macOS package

`MacosServiceScripts` writes the property list of a `LaunchDaemon` and an
uninstaller into here-documents of its `postinstall`.  What stands between
quotes is checked for them; that no line of a document is its delimiter is
not.  The uninstaller removes what was declared and then itself.
-/

namespace Dovetail.Bundler

open CodeUnits ShellScript

/-! ## Names in reverse-domain order -/

def isDomainUnit (unit : UInt16) : Bool :=
  (65 ≤ unit && unit ≤ 90) || (97 ≤ unit && unit ≤ 122) ||
    (48 ≤ unit && unit ≤ 57) || unit == 45

/-- At least two names of such units, with dots between them. -/
def isReverseDomain (value : Text) : Bool :=
  let names := value.splitOn 46
  2 ≤ names.length && names.all fun name =>
    name ≠ [] && name.all isDomainUnit

theorem isDomainUnit_of_mem {value : Text}
    (hvalue : isReverseDomain value = true) {unit : UInt16}
    (hunit : unit ∈ value) : isDomainUnit unit = true ∨ unit = 46 := by
  by_cases hdot : unit = 46
  · exact .inr hdot
  · have hjoined : [46].intercalate (value.splitOn 46) = value :=
      List.intercalate_splitOn 46
    rw [← hjoined, mem_intercalate_iff hdot] at hunit
    obtain ⟨name, hname, hmem⟩ := hunit
    simp only [isReverseDomain, Bool.and_eq_true, List.all_eq_true] at hvalue
    exact .inl ((hvalue.2 name hname).2 unit hmem)

theorem quotable_of_isReverseDomain {value : Text}
    (hvalue : isReverseDomain value = true) : Quotable value := by
  constructor <;> intro hunit <;>
    exact absurd (isDomainUnit_of_mem hvalue hunit) (by decide)

theorem double_holds_of_isReverseDomain {value : Text}
    (hvalue : isReverseDomain value = true) :
    ∀ unit ∈ value, Quoting.double.holds unit = true := by
  intro unit hunit
  have hunits : text "\"$`\\" = [34, 36, 96, 92] := by decide
  have hdomain := isDomainUnit_of_mem hvalue hunit
  simp only [Quoting.holds, hunits, decide_eq_true_eq, List.mem_cons,
    List.not_mem_nil, or_false]
  rintro (rfl | rfl | rfl | rfl) <;> exact absurd hdomain (by decide)

/-! ## The daemon -/

namespace LaunchDaemon

def check (label program : Text) : Except BundleFailure Unit :=
  if !isReverseDomain label then
    .error
      { message := text "the launchd label \"" ++ label ++
          text "\" is not a reverse-domain name."
        remedy := some (text "launchd names the property list after the label and keys the daemon by it, so it has to read as com.example.app.something. A label with a space or a slash is a daemon nothing can address.") }
  else if trim program = [] then
    .error
      { message := text "the daemon names an empty program."
        remedy := some
          (text "Give the file name the binary gets inside the bundle.") }
  else if slash ∈ program then
    .error
      { message := text "the daemon program \"" ++ program ++
          text "\" is a path."
        remedy := some (text "The postinstall copies the binary out of the bundle at a fixed place, so what goes here is the file NAME, not a path — the path is derived, not declared.") }
  else if 38 ∈ program ∨ 60 ∈ program ∨ 62 ∈ program then
    .error
      { message := text "the daemon program \"" ++ program ++
          text "\" carries a character XML reserves."
        remedy := some (text "The name becomes a file inside the bundle, a path the postinstall script copies, and a property list entry — only the last decodes XML entities. Name the binary something the filesystem, the script and the plist all agree on.") }
  else if quote ∈ program then
    .error
      { message := text "the daemon program \"" ++ program ++
          text "\" carries a single quote."
        remedy := some (text "The postinstall names it inside single quotes, and the quote would end the string and leave the rest of the path to the shell.") }
  else .ok ()

end LaunchDaemon

structure LaunchDaemon where
  label : Text
  program : Text
  arguments : List Text
  runAtLoad : Bool
  keepAlive : Bool
  accepted : LaunchDaemon.check label program = .ok ()

namespace LaunchDaemon

def installedDirectory : Text := text "/Library/PrivilegedHelperTools"

def launchDaemonsDirectory : Text := text "/Library/LaunchDaemons"

def programPathInBundle (program : Text) : Text :=
  text "Contents/MacOS/" ++ program

def installedExecutablePath (daemon : LaunchDaemon) : Text :=
  installedDirectory ++ text "/" ++ daemon.label

def installedPropertyListPath (daemon : LaunchDaemon) : Text :=
  launchDaemonsDirectory ++ text "/" ++ daemon.label ++ text ".plist"

def logPathFor (label : Text) : Text :=
  text "/var/log/" ++ label ++ text ".log"

def logPath (daemon : LaunchDaemon) : Text := logPathFor daemon.label

def renderLines (daemon : LaunchDaemon) : List Text :=
  [text "<?xml version=\"1.0\" encoding=\"UTF-8\"?>",
    text "<!DOCTYPE plist PUBLIC \"-//Apple//DTD PLIST 1.0//EN\" \"http://www.apple.com/DTDs/PropertyList-1.0.dtd\">",
    text "<plist version=\"1.0\">",
    text "<dict>",
    text "\t<key>Label</key>",
    text "\t<string>" ++ XmlText.contentText daemon.label ++ text "</string>",
    text "\t<key>MachServices</key>",
    text "\t<dict>",
    text "\t\t<key>" ++ XmlText.contentText daemon.label ++ text "</key>",
    text "\t\t<true/>",
    text "\t</dict>",
    text "\t<key>ProgramArguments</key>",
    text "\t<array>",
    text "\t\t<string>" ++ XmlText.contentText daemon.installedExecutablePath ++
      text "</string>"] ++
  daemon.arguments.map (fun argument =>
    text "\t\t<string>" ++ XmlText.contentText argument ++ text "</string>") ++
  [text "\t</array>",
    text "\t<key>RunAtLoad</key>",
    if daemon.runAtLoad then text "\t<true/>" else text "\t<false/>"] ++
  (if daemon.keepAlive then [text "\t<key>KeepAlive</key>", text "\t<true/>"]
    else []) ++
  [text "\t<key>ProcessType</key>",
    text "\t<string>Interactive</string>",
    text "\t<key>StandardOutPath</key>",
    text "\t<string>" ++ XmlText.contentText daemon.logPath ++ text "</string>",
    text "\t<key>StandardErrorPath</key>",
    text "\t<string>" ++ XmlText.contentText daemon.logPath ++ text "</string>",
    text "</dict>",
    text "</plist>",
    []]

def render (daemon : LaunchDaemon) : Text :=
  [newline].intercalate daemon.renderLines

theorem isReverseDomain_label (daemon : LaunchDaemon) :
    isReverseDomain daemon.label = true := by
  have haccepted := daemon.accepted
  rw [check, unless_refused_iff] at haccepted
  simpa using haccepted.1

theorem quote_not_mem_program (daemon : LaunchDaemon) :
    quote ∉ daemon.program := by
  have haccepted := daemon.accepted
  simp only [check, unless_refused_iff] at haccepted
  exact haccepted.2.2.2.2.1

theorem quotable_installedExecutablePath (daemon : LaunchDaemon) :
    Quotable daemon.installedExecutablePath := by
  have hlabel := quotable_of_isReverseDomain daemon.isReverseDomain_label
  simp only [installedExecutablePath, quotable_append]
  exact ⟨⟨by decide, by decide⟩, hlabel⟩

theorem quotable_installedPropertyListPath (daemon : LaunchDaemon) :
    Quotable daemon.installedPropertyListPath := by
  have hlabel := quotable_of_isReverseDomain daemon.isReverseDomain_label
  simp only [installedPropertyListPath, quotable_append]
  exact ⟨⟨⟨by decide, by decide⟩, hlabel⟩, by decide⟩

end LaunchDaemon

/-! ## The scripts -/

namespace MacosServiceScripts

def pathChecks : List PathCheck :=
  [.absolute (text "These paths are removed by rm -rf during uninstall. A relative one would delete whatever sits under the working directory of the uninstaller."),
    .unspaced (text "A path with a space is one nobody can read back, and this is the list a root script deletes from."),
    .deep,
    .unquoted (text "The uninstaller names it inside single quotes, and the quote would end the string and leave the rest of the path to the shell.")]

def check (identifier applicationPath : Text) (purgePaths : List Text) :
    Except BundleFailure Unit :=
  if !isReverseDomain identifier then
    .error
      { message := text "the service is installed under \"" ++ identifier ++
          text "\", which is not a reverse-domain name."
        remedy := some (text "The uninstaller path and the receipt `pkgutil --forget` forgets are both derived from it.") }
  else if applicationPath.head? ≠ some slash ∨
      !(text ".app").isSuffixOf applicationPath then
    .error
      { message := text "the application path \"" ++ applicationPath ++
          text "\" is not an absolute .app path."
        remedy := some (text "The postinstall copies the helper out of the INSTALLED bundle, so it has to name where the pkg put it.") }
  else if quote ∈ applicationPath then
    .error
      { message := text "the application path \"" ++ applicationPath ++
          text "\" carries a single quote."
        remedy := some (text "The scripts name it inside single quotes, and the quote would end the string and leave the rest of the path to the shell.") }
  else checkPurgePaths pathChecks purgePaths

end MacosServiceScripts

structure MacosServiceScripts where
  daemon : LaunchDaemon
  identifier : Text
  applicationPath : Text
  purgePaths : List Text
  accepted : MacosServiceScripts.check identifier applicationPath purgePaths =
    .ok ()

/-- What a line does to files. -/
inductive FileAction
  | copies (source target : Text)
  | writes (path content : Text)
  | removes (path : Text)
  | removesTree (path : Text)
  | removesEmpty (path : Text)
  /-- Removes, when the daemon cannot be loaded. -/
  | withdraws (path : Text)
  deriving DecidableEq

namespace MacosServiceScripts

def applicationSupportDirectory : Text := text "/Library/Application Support"

def plistDelimiter : Text := text "DOVETAIL_PLIST"

def uninstallDelimiter : Text := text "DOVETAIL_UNINSTALL"

def uninstallDirectory (scripts : MacosServiceScripts) : Text :=
  applicationSupportDirectory ++ text "/" ++ scripts.identifier

def uninstallerPath (scripts : MacosServiceScripts) : Text :=
  scripts.uninstallDirectory ++ text "/uninstall"

def installedExecutablePath (scripts : MacosServiceScripts) : Text :=
  scripts.daemon.installedExecutablePath

/-- A line with one value between its quotes. -/
def quoted (before value after : Text) (effect : Text → List FileAction) :
    Line FileAction :=
  ⟨[.code before, .literal value, .code after],
    fun found => found.flatMap effect⟩

/-- A file written from the next lines of the script. -/
def written (path delimiter : Text) (lines : List Text) : Line FileAction :=
  ⟨[.code (text "cat > '"), .literal path,
      .code (text "' <<'" ++ delimiter ++ text "'\n"),
      .document delimiter lines],
    fun
      | [path, content] => [.writes path content]
      | _ => []⟩

def bootout (label : Text) : Line FileAction :=
  quoted (text "launchctl bootout \"system/") label
    (text "\" >/dev/null 2>&1 || true") fun _ => []

def uninstallStart (label plist executable identifier : Text) :
    List (Line FileAction) :=
  [.code (text "#!/bin/sh"),
    .code (text "set -e"),
    .code [],
    .code (text "# A ordem inversa da instalacao: o launchd primeiro, senao o daemon fica"),
    .code (text "# carregado apontando para um binario que ja nao existe."),
    bootout label,
    quoted (text "rm -f '") plist (text "'") fun path => [.removes path],
    quoted (text "rm -f '") executable (text "'") fun path => [.removes path],
    .code [],
    quoted (text "pkgutil --forget '") identifier
      (text "' >/dev/null 2>&1 || true") fun _ => []]

def purgeStart : List (Line FileAction) :=
  [.code [],
    .code (text "# O que a instalacao nao criou mas o produto escreveu, e so aqui: um"),
    .code (text "# caminho nao declarado nunca e apagado por este script.")]

def purgeLine (path : Text) : Line FileAction :=
  quoted (text "rm -rf '") path (text "'") fun path => [.removesTree path]

def uninstallEnd (uninstaller directory : Text) : List (Line FileAction) :=
  [.code [],
    .code (text "# O desinstalador sai junto: um script de desinstalacao que fica no disco"),
    .code (text "# e exatamente a sobra que ele veio remover."),
    quoted (text "rm -f '") uninstaller (text "'") fun path => [.removes path],
    quoted (text "rmdir '") directory (text "' >/dev/null 2>&1 || true")
      fun path => [.removesEmpty path],
    .code [],
    .code (text "exit 0")]

def uninstall (scripts : MacosServiceScripts) : List (Line FileAction) :=
  uninstallStart scripts.daemon.label scripts.daemon.installedPropertyListPath
    scripts.installedExecutablePath scripts.identifier ++
  ((if scripts.purgePaths = [] then []
    else purgeStart ++ scripts.purgePaths.map purgeLine) ++
  uninstallEnd scripts.uninstallerPath scripts.uninstallDirectory)

def uninstallText (scripts : MacosServiceScripts) : Text :=
  scriptText (scriptParts scripts.uninstall)

def postinstallLines (label source executable plist uninstaller directory : Text)
    (rendered uninstalling : List Text) : List (Line FileAction) :=
  [.code (text "#!/bin/sh"),
    .code (text "set -e"),
    .code [],
    .code (text "# O pkg instala POR CIMA: um label ja carregado faz o bootstrap falhar, e"),
    .code (text "# uma reinstalacao e o caso normal, nao a excecao. O bootout antes e o"),
    .code (text "# que torna o passo repetivel."),
    bootout label,
    .code [],
    .code (text "install -d -o root -g wheel -m 0755 '" ++
      LaunchDaemon.installedDirectory ++ text "'"),
    ⟨[.code (text "install -o root -g wheel -m 0544 '"), .literal source,
        .code (text "' '"), .literal executable, .code (text "'")],
      fun
        | [source, target] => [.copies source target]
        | _ => []⟩,
    .code [],
    written plist plistDelimiter rendered,
    quoted (text "chown root:wheel '") plist (text "'") fun _ => [],
    quoted (text "chmod 0644 '") plist (text "'") fun _ => [],
    .code [],
    .code (text "# Sem script de desinstalacao de pkg, o desinstalador e um ARQUIVO. Ele"),
    .code (text "# e escrito daqui para que instalacao e remocao nao possam divergir de"),
    .code (text "# caminho."),
    quoted (text "install -d -o root -g wheel -m 0755 '") directory (text "'")
      fun _ => [],
    written uninstaller uninstallDelimiter uninstalling,
    quoted (text "chown root:wheel '") uninstaller (text "'") fun _ => [],
    quoted (text "chmod 0755 '") uninstaller (text "'") fun _ => [],
    .code [],
    .code (text "for _dovetail_attempt in 1 2 3 4 5; do"),
    quoted (text "\tlaunchctl bootstrap system '") plist (text "' && exit 0")
      fun _ => [],
    .code (text "\tsleep 1"),
    .code (text "done"),
    .code [],
    quoted (text "if ! launchctl bootstrap system '") plist (text "'; then")
      fun _ => [],
    quoted (text "\trm -f '") plist (text "'") fun path => [.withdraws path],
    .code (text "\texit 1"),
    .code (text "fi"),
    .code [],
    .code (text "exit 0")]

def postinstall (scripts : MacosServiceScripts) : List (Line FileAction) :=
  postinstallLines scripts.daemon.label
    (scripts.applicationPath ++ text "/" ++
      LaunchDaemon.programPathInBundle scripts.daemon.program)
    scripts.installedExecutablePath scripts.daemon.installedPropertyListPath
    scripts.uninstallerPath scripts.uninstallDirectory
    ((trimRight scripts.daemon.render).splitOn newline)
    ((trimRight scripts.uninstallText).splitOn newline)

/-! ## Templates -/

section Templates

variable {label source executable plist uninstaller directory identifier : Text}

theorem blank_postinstallLines (rendered uninstalling : List Text) :
    (scriptParts (postinstallLines label source executable plist uninstaller
        directory rendered uninstalling)).map Part.blank =
      scriptParts (postinstallLines [] [] [] [] [] [] [] []) := by
  simp [scriptParts, postinstallLines, bootout, quoted, written, Line.code,
    Part.blank]

theorem postinstallLines_closed :
    let parts := scriptParts (postinstallLines [] [] [] [] [] [] [] [])
    wellQuoted .start parts = true ∧
      places .start parts = [.double, .single, .single, .single, .start,
        .single, .single, .single, .single, .start, .single, .single,
        .single, .single, .single] ∧
      nul ∉ scriptText parts := by
  simp only [postinstallLines, bootout, quoted, written, Line.code,
    LaunchDaemon.installedDirectory, plistDelimiter, uninstallDelimiter,
    text_ofList]
  decide +kernel

theorem uninstallStart_closed :
    let parts := scriptParts (uninstallStart [] [] [] [])
    wellQuoted .start parts = true ∧
      places .start parts = [.double, .single, .single, .single] ∧
      nul ∉ scriptText parts := by
  simp only [uninstallStart, bootout, quoted, Line.code, text_ofList]
  decide +kernel

theorem purgeStart_closed :
    let parts := scriptParts purgeStart
    wellQuoted .start parts = true ∧ places .start parts = [] ∧
      nul ∉ scriptText parts := by
  simp only [purgeStart, Line.code, text_ofList]
  decide +kernel

theorem purgeLine_closed :
    let parts := scriptParts [purgeLine []]
    wellQuoted .start parts = true ∧ places .start parts = [.single] ∧
      nul ∉ scriptText parts := by
  simp only [purgeLine, quoted, text_ofList]
  decide

theorem uninstallEnd_closed :
    let parts := scriptParts (uninstallEnd [] [])
    wellQuoted .start parts = true ∧
      places .start parts = [.single, .single] ∧
      nul ∉ scriptText parts := by
  simp only [uninstallEnd, quoted, Line.code, text_ofList]
  decide +kernel

theorem single_holds {value : Text} (hvalue : quote ∉ value) :
    ∀ unit ∈ value, Quoting.single.holds unit = true := by
  intro unit hunit
  have hother : unit ≠ quote := by
    rintro rfl
    exact hvalue hunit
  simpa [Quoting.holds] using hother

theorem sound_uninstallStart (hlabel : isReverseDomain label = true)
    (hplist : Quotable plist) (hexecutable : Quotable executable)
    (hidentifier : Quotable identifier) :
    Sound (uninstallStart label plist executable identifier) := by
  refine sound_of_template rfl uninstallStart_closed ?_ ?_
  · exact .cons (double_holds_of_isReverseDomain hlabel)
      (.cons (single_holds hplist.1) (.cons (single_holds hexecutable.1)
        (.cons (single_holds hidentifier.1) .nil)))
  · have hnul := (quotable_of_isReverseDomain hlabel).2
    exact List.forall_mem_cons.mpr ⟨hnul, List.forall_mem_cons.mpr
      ⟨hplist.2, List.forall_mem_cons.mpr ⟨hexecutable.2,
        List.forall_mem_singleton.mpr hidentifier.2⟩⟩⟩

theorem sound_purgeStart : Sound purgeStart :=
  sound_of_template rfl purgeStart_closed .nil
    fun _ hvalue => absurd hvalue List.not_mem_nil

theorem sound_purgeLine {path : Text} (hpath : Quotable path) :
    Sound [purgeLine path] := by
  refine sound_of_template rfl purgeLine_closed ?_ ?_
  · exact .cons (single_holds hpath.1) .nil
  · exact List.forall_mem_singleton.mpr hpath.2

theorem sound_uninstallEnd (huninstaller : Quotable uninstaller)
    (hdirectory : Quotable directory) :
    Sound (uninstallEnd uninstaller directory) := by
  refine sound_of_template rfl uninstallEnd_closed ?_ ?_
  · exact .cons (single_holds huninstaller.1)
      (.cons (single_holds hdirectory.1) .nil)
  · exact List.forall_mem_cons.mpr ⟨huninstaller.2,
      List.forall_mem_singleton.mpr hdirectory.2⟩

theorem sound_postinstallLines {rendered uninstalling : List Text}
    (hlabel : isReverseDomain label = true) (hsource : quote ∉ source)
    (hexecutable : quote ∉ executable) (hplist : quote ∉ plist)
    (huninstaller : quote ∉ uninstaller) (hdirectory : quote ∉ directory)
    (hrendered : ∀ line ∈ rendered, line ≠ plistDelimiter ∧ newline ∉ line)
    (huninstalling : ∀ line ∈ uninstalling,
      line ≠ uninstallDelimiter ∧ newline ∉ line)
    (hnul : nul ∉ scriptText (scriptParts (postinstallLines label source
      executable plist uninstaller directory rendered uninstalling))) :
    Sound (postinstallLines label source executable plist uninstaller directory
      rendered uninstalling) := by
  have hplist := single_holds hplist
  have huninstaller := single_holds huninstaller
  refine sound_of_template (blank_postinstallLines _ _) postinstallLines_closed
    ?_ fun value hvalue hmem => hnul (mem_scriptText_iff.mpr
      (.inr ⟨value, hvalue, hmem⟩))
  exact .cons (double_holds_of_isReverseDomain hlabel)
    (.cons (single_holds hsource) (.cons (single_holds hexecutable)
      (.cons hplist (.cons hrendered (.cons hplist (.cons hplist
        (.cons (single_holds hdirectory) (.cons huninstaller
          (.cons huninstalling (.cons huninstaller (.cons huninstaller
            (.cons hplist (.cons hplist (.cons hplist .nil))))))))))))))

end Templates

/-! ## What the scripts do -/

variable {scripts : MacosServiceScripts}

theorem isReverseDomain_identifier (scripts : MacosServiceScripts) :
    isReverseDomain scripts.identifier = true := by
  have haccepted := scripts.accepted
  rw [check, unless_refused_iff] at haccepted
  simpa using haccepted.1

theorem quote_not_mem_applicationPath (scripts : MacosServiceScripts) :
    quote ∉ scripts.applicationPath := by
  have haccepted := scripts.accepted
  simp only [check, unless_refused_iff] at haccepted
  exact haccepted.2.2.1

theorem quote_not_mem_purgePath {path : Text}
    (hpath : path ∈ scripts.purgePaths) : quote ∉ path := by
  have haccepted := scripts.accepted
  simp only [check, unless_refused_iff] at haccepted
  have hchecks := checkPurgePaths_eq_ok_iff.mp haccepted.2.2.2 path hpath
  simp only [pathChecks, List.forall_mem_cons] at hchecks
  exact of_decide_eq_false hchecks.2.2.2.1

theorem quotable_uninstallDirectory (scripts : MacosServiceScripts) :
    Quotable scripts.uninstallDirectory := by
  have hidentifier :=
    quotable_of_isReverseDomain scripts.isReverseDomain_identifier
  simp only [uninstallDirectory, quotable_append]
  exact ⟨⟨by decide, by decide⟩, hidentifier⟩

theorem quotable_uninstallerPath (scripts : MacosServiceScripts) :
    Quotable scripts.uninstallerPath := by
  rw [uninstallerPath, quotable_append]
  exact ⟨scripts.quotable_uninstallDirectory, by decide⟩

/-- What may be removed: what was declared. -/
def declaredRemovals (scripts : MacosServiceScripts) : List FileAction :=
  [.removes scripts.daemon.installedPropertyListPath,
    .removes scripts.installedExecutablePath] ++
  scripts.purgePaths.map .removesTree

/-- What the uninstaller removes of its own. -/
def ownRemovals (scripts : MacosServiceScripts) : List FileAction :=
  [.removes scripts.uninstallerPath, .removesEmpty scripts.uninstallDirectory]

theorem effect_purgeLines (paths : List Text) :
    ((paths.map purgeLine).flatMap fun line => line.effect (values line.parts)) =
      paths.map .removesTree := by
  rw [List.flatMap_map, List.map_eq_flatMap]
  rfl

theorem effect_uninstall (scripts : MacosServiceScripts) :
    (scripts.uninstall.flatMap fun line => line.effect (values line.parts)) =
      scripts.declaredRemovals ++ scripts.ownRemovals := by
  have hpurge : ((if scripts.purgePaths = [] then []
      else purgeStart ++ scripts.purgePaths.map purgeLine).flatMap
        fun line => line.effect (values line.parts)) =
      scripts.purgePaths.map .removesTree := by
    split
    · next hnone => simp [hnone]
    · rw [List.flatMap_append, effect_purgeLines]
      rfl
  rw [uninstall, List.flatMap_append, List.flatMap_append, hpurge]
  rfl

theorem run_uninstall (hpaths : ∀ path ∈ scripts.purgePaths, nul ∉ path) :
    run scripts.uninstall =
      some (scripts.declaredRemovals ++ scripts.ownRemovals) := by
  have hstart := sound_uninstallStart scripts.daemon.isReverseDomain_label
    scripts.daemon.quotable_installedPropertyListPath
    scripts.daemon.quotable_installedExecutablePath
    (quotable_of_isReverseDomain scripts.isReverseDomain_identifier)
  have hpurge : Sound (if scripts.purgePaths = [] then []
      else purgeStart ++ scripts.purgePaths.map purgeLine) := by
    split
    · exact sound_of_forall (by simp)
    · refine sound_purgeStart.append (sound_of_forall fun line hline => ?_)
      obtain ⟨path, hpath, rfl⟩ := List.mem_map.mp hline
      exact sound_purgeLine ⟨quote_not_mem_purgePath hpath, hpaths path hpath⟩
  have hend := sound_uninstallEnd scripts.quotable_uninstallerPath
    scripts.quotable_uninstallDirectory
  have hsound : Sound scripts.uninstall := hstart.append (hpurge.append hend)
  rw [hsound.run_eq, effect_uninstall]

/-! ## Documents -/

theorem ended_render (daemon : LaunchDaemon) : Ended daemon.render := by
  have hjoin (lines : List Text) : [newline].intercalate (lines ++ [[]]) =
      linesText lines := by
    induction lines with
    | nil => rfl
    | cons line lines ih =>
        rw [List.cons_append, List.intercalate_cons_of_ne_nil (by simp), ih]
        simp [linesText]
  have hlast : text "</plist>" = text "</plist" ++ [62] := by decide
  obtain ⟨lines, hlines⟩ : [text "</plist>", []] <:+ daemon.renderLines := by
    unfold LaunchDaemon.renderLines
    refine List.IsSuffix.trans ?_ (List.suffix_append _ _)
    exact ⟨[_, _, _, _, _, _, _], rfl⟩
  have hrendered : daemon.renderLines = (lines ++ [text "</plist>"]) ++ [[]] := by
    rw [← hlines]
    simp
  refine ⟨linesText lines ++ text "</plist", 62, by decide, ?_⟩
  rw [LaunchDaemon.render, hrendered, hjoin, hlast]
  simp [linesText]

theorem ended_uninstallText (scripts : MacosServiceScripts) :
    Ended scripts.uninstallText := by
  have hlast : text "exit 0" = text "exit " ++ [48] := by decide
  obtain ⟨lines, hlines⟩ : [.code (text "exit 0")] <:+ scripts.uninstall := by
    unfold uninstall
    refine List.IsSuffix.trans ?_ ((List.suffix_append _ _).trans
      (List.suffix_append _ _))
    exact ⟨[_, _, _, _, _, _], rfl⟩
  refine ⟨scriptText (scriptParts lines) ++ text "exit ", 48, by decide, ?_⟩
  rw [uninstallText, ← hlines, scriptParts_append, scriptText_append]
  simp [scriptParts, Line.code, Part.text, scriptText, hlast]

/-! ## Scripts without injection -/

/-- The whole of what the `postinstall` does to files. -/
def installActions (scripts : MacosServiceScripts) : List FileAction :=
  [.copies (scripts.applicationPath ++ text "/" ++
      LaunchDaemon.programPathInBundle scripts.daemon.program)
      scripts.installedExecutablePath,
    .writes scripts.daemon.installedPropertyListPath scripts.daemon.render,
    .writes scripts.uninstallerPath scripts.uninstallText,
    .withdraws scripts.daemon.installedPropertyListPath]

/-- The files get the text they were given. -/
def Installs (scripts : MacosServiceScripts) : Prop :=
  run scripts.postinstall = some scripts.installActions

/-- Nothing is removed but what was declared and these. -/
def RemovesOnly (scripts : MacosServiceScripts) (others : List FileAction) :
    Prop :=
  ∃ done, run scripts.uninstall = some done ∧
    ∀ action ∈ done, action ∈ scripts.declaredRemovals ++ others

/-- Both scripts are text, and no line of a document is its delimiter. -/
structure Deliverable (scripts : MacosServiceScripts) : Prop where
  whole : nul ∉ scriptText (scriptParts scripts.postinstall)
  propertyList : plistDelimiter ∉ scripts.daemon.render.splitOn newline
  uninstaller : uninstallDelimiter ∉ scripts.uninstallText.splitOn newline

theorem line_of_splitOn {source delimiter : Text} (hended : Ended source)
    (hdelimiter : delimiter ∉ source.splitOn newline) :
    ∀ line ∈ (trimRight source).splitOn newline,
      line ≠ delimiter ∧ newline ∉ line := by
  intro line hline
  constructor
  · rintro rfl
    exact hdelimiter (hended.mem_splitOn hline)
  · exact not_mem_of_mem_splitOn hline

theorem Deliverable.sound_postinstall (hdeliverable : scripts.Deliverable) :
    Sound scripts.postinstall := by
  refine sound_postinstallLines scripts.daemon.isReverseDomain_label ?_
    scripts.daemon.quotable_installedExecutablePath.1
    scripts.daemon.quotable_installedPropertyListPath.1
    scripts.quotable_uninstallerPath.1 scripts.quotable_uninstallDirectory.1
    (line_of_splitOn (ended_render scripts.daemon) hdeliverable.propertyList)
    (line_of_splitOn scripts.ended_uninstallText hdeliverable.uninstaller)
    hdeliverable.whole
  have happlication := scripts.quote_not_mem_applicationPath
  have hprogram := scripts.daemon.quote_not_mem_program
  have hclosed : quote ∉ text "/" ∧ quote ∉ text "Contents/MacOS/" := by
    decide
  simp [LaunchDaemon.programPathInBundle, happlication, hprogram, hclosed]

theorem effect_postinstall (scripts : MacosServiceScripts) :
    (scripts.postinstall.flatMap fun line => line.effect (values line.parts)) =
      scripts.installActions := by
  have hrendered := (ended_render scripts.daemon).linesText_splitOn_trimRight
  have huninstalling := scripts.ended_uninstallText.linesText_splitOn_trimRight
  unfold installActions
  rw [← hrendered, ← huninstalling]
  rfl

theorem Deliverable.installs (hdeliverable : scripts.Deliverable) :
    scripts.Installs := by
  rw [Installs, hdeliverable.sound_postinstall.run_eq, effect_postinstall]

/-- The uninstaller stands in the script whole, and its paths in it. -/
theorem Deliverable.nul_not_mem_purgePath (hdeliverable : scripts.Deliverable)
    {path : Text} (hpath : path ∈ scripts.purgePaths) : nul ∉ path := by
  intro hmem
  have hline : purgeLine path ∈ scripts.uninstall := by
    have hsome : scripts.purgePaths ≠ [] := List.ne_nil_of_mem hpath
    simp only [uninstall, if_neg hsome, List.mem_append]
    exact .inr (.inl (.inr (List.mem_map_of_mem hpath)))
  have htext : nul ∈ scripts.uninstallText := by
    refine mem_scriptText_iff.mpr (.inr ⟨path, ?_, hmem⟩)
    refine List.mem_flatMap.mpr ⟨.literal path, ?_, List.mem_singleton_self _⟩
    refine List.mem_flatMap.mpr ⟨_, hline, ?_⟩
    simp [purgeLine, quoted]
  refine hdeliverable.whole (mem_scriptText_iff.mpr
    (.inr ⟨scripts.uninstallText, ?_, htext⟩))
  have huninstalling := scripts.ended_uninstallText.linesText_splitOn_trimRight
  refine List.mem_flatMap.mpr
    ⟨.document uninstallDelimiter
      ((trimRight scripts.uninstallText).splitOn newline), ?_, ?_⟩
  · simp [postinstall, postinstallLines, scriptParts, written]
  · simp [Part.values, huninstalling]

/-- Where no line of a document is its delimiter, both files are written as
they were made, and the uninstaller removes what was declared and itself. -/
theorem installs_and_removesOnly (hdeliverable : scripts.Deliverable) :
    scripts.Installs ∧ scripts.RemovesOnly scripts.ownRemovals :=
  ⟨hdeliverable.installs, _,
    run_uninstall fun _ hpath => hdeliverable.nul_not_mem_purgePath hpath,
    fun _ haction => haction⟩

/-! ## Services -/

/-- A service with one argument and one purge path. -/
def sample (argument purgePath : Text)
    (hpath : checkPurgePaths pathChecks [purgePath] = .ok ()) :
    MacosServiceScripts where
  daemon :=
    { label := text "com.example.helper"
      program := text "helper"
      arguments := [argument]
      runAtLoad := true
      keepAlive := true
      accepted := by decide }
  identifier := text "com.example.app"
  applicationPath := text "/Applications/Example.app"
  purgePaths := [purgePath]
  accepted := by
    have hidentifier : isReverseDomain (text "com.example.app") = true := by
      decide
    have happlication : (text "/Applications/Example.app").head? = some slash ∧
        (text ".app").isSuffixOf (text "/Applications/Example.app") = true ∧
        quote ∉ text "/Applications/Example.app" := by
      decide
    simp only [check, unless_refused_iff]
    exact ⟨by simp [hidentifier], by simp [happlication], happlication.2.2, hpath⟩

/-- An ordinary service. -/
def plain : MacosServiceScripts :=
  sample (text "--serve") (text "/var/lib/example") (by decide)

/-- An argument with a line that ends the property list. -/
def interrupted : MacosServiceScripts :=
  sample (text "--serve\nDOVETAIL_PLIST\ntouch /tmp/example")
    (text "/var/lib/example") (by decide)

/-- A purge path with a line that ends the uninstaller. -/
def cutShort : MacosServiceScripts :=
  sample (text "--serve") (text "/var/lib/example\nDOVETAIL_UNINSTALL\nexit")
    (by decide)

/-- An argument no script can hold. -/
def unwritable : MacosServiceScripts :=
  sample [nul] (text "/var/lib/example") (by decide)

/-- The scripts of these services, read by the shell. -/
theorem deliverable_plain_and_run_eq_none :
    (nul ∉ scriptText (scriptParts plain.postinstall) ∧
      plistDelimiter ∉ plain.daemon.render.splitOn newline ∧
      uninstallDelimiter ∉ plain.uninstallText.splitOn newline) ∧
    run interrupted.postinstall = none ∧ run cutShort.postinstall = none ∧
      run unwritable.postinstall = none := by
  simp only [plain, interrupted, cutShort, unwritable, sample, postinstall,
    postinstallLines, uninstallText, uninstall, uninstallStart, purgeStart,
    purgeLine, uninstallEnd, bootout, quoted, written, Line.code,
    plistDelimiter, uninstallDelimiter, uninstallerPath, uninstallDirectory,
    applicationSupportDirectory, installedExecutablePath,
    LaunchDaemon.installedExecutablePath, LaunchDaemon.installedDirectory,
    LaunchDaemon.installedPropertyListPath,
    LaunchDaemon.launchDaemonsDirectory, LaunchDaemon.programPathInBundle,
    LaunchDaemon.render, LaunchDaemon.renderLines, LaunchDaemon.logPath,
    LaunchDaemon.logPathFor, text_ofList]
  decide +kernel

theorem deliverable_plain : plain.Deliverable :=
  have ⟨hwhole, hpropertyList, huninstaller⟩ :=
    deliverable_plain_and_run_eq_none.1
  ⟨hwhole, hpropertyList, huninstaller⟩

theorem installs_and_removesOnly_plain :
    plain.Installs ∧ plain.RemovesOnly plain.ownRemovals :=
  installs_and_removesOnly deliverable_plain

/-- Even the uninstaller of an ordinary service removes its own file, and
the documents are not always written whole. -/
theorem not_injectionFree :
    ¬ (plain.Installs ∧ plain.RemovesOnly []) ∧ ¬ interrupted.Installs ∧
      ¬ cutShort.Installs ∧ ¬ unwritable.Installs := by
  obtain ⟨hinterrupted, hcutShort, hunwritable⟩ :=
    deliverable_plain_and_run_eq_none.2
  refine ⟨fun ⟨_, done, hrun, honly⟩ => ?_, ?_, ?_, ?_⟩
  · rw [run_uninstall (by decide)] at hrun
    have hown : FileAction.removes plain.uninstallerPath ∈ done := by
      rw [← Option.some.inj hrun]
      exact List.mem_append_right _ List.mem_cons_self
    exact absurd (honly _ hown) (by decide)
  · simp [Installs, hinterrupted]
  · simp [Installs, hcutShort]
  · simp [Installs, hunwritable]

end MacosServiceScripts

end Dovetail.Bundler
