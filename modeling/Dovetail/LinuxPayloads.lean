import Dovetail.FallibleSteps
import Dovetail.InstallerSpec

/-!
# The payloads of the deb and the rpm

`DebBundler.bundle` adds the members of its archive in one order, and
`RpmBundler.bundle` writes the files of its build root in another: the files
of the package's own come after the staged ones in the deb and before them
in the rpm, and only the icons come last in both.
-/

namespace Dovetail.Bundler

open CodeUnits
open FallibleSteps

structure SourceFile where
  bytes : List UInt8
  mode : Nat
  deriving DecidableEq

abbrev Disk := Text → Option SourceFile

/-- What a format makes of a spec: its bundler refuses, ends in an error
that is no refusal, or comes to its end. -/
inductive Outcome (Made : Type) where
  | refused
  | breaks
  | made (value : Made)
  deriving DecidableEq

/-- The same is made in both formats, unless one refuses. -/
def Outcome.Agree {Made : Type} (first second : Outcome Made) : Prop :=
  first = .refused ∨ second = .refused ∨
    ∃ value, first = .made value ∧ second = .made value

namespace Linux

inductive Content where
  | file (held : SourceFile)
  | link (target : Text)
  deriving DecidableEq

/-- Names as they are written into an archive or below a build root. -/
abbrev Payload := List (Text × Content)

/-! ## Names below the root -/

def namesOf (path : Text) : List Text :=
  (path.splitOn slash).filter fun name => name ≠ [] ∧ name ≠ text "."

def climb (above : List Text) (name : Text) : List Text :=
  if name = text ".." then above.dropLast else above ++ [name]

def placeOf (path : Text) : List Text := (namesOf path).foldl climb []

/-- No `..` leaves the directory the path starts from. -/
def stays (path : Text) : Bool :=
  ((namesOf path).foldl (fun (above : Option Nat) name =>
    match above with
    | none => none
    | some depth =>
        if name = text ".." then (if depth = 0 then none else some (depth - 1))
        else some (depth + 1)) (some 0)).isSome

def withoutLeadingSlashes (path : Text) : Text :=
  path.dropWhile fun unit => unit = slash

/-! ## Files of the package's own -/

namespace DesktopEntry

def fileName (spec : InstallerSpec) : Text :=
  spec.identifier ++ text ".desktop"

def installedPath (spec : InstallerSpec) : Text :=
  text "/usr/share/applications/" ++ fileName spec

/-- The entry of `forSpec`, which has no comment. -/
def render (spec : InstallerSpec) : Text :=
  [text "[Desktop Entry]", text "Type=Application", text "Version=1.0",
    text "Name=" ++ spec.productName,
    text "Exec=/usr/lib/" ++ spec.mainBinaryName ++ text "/" ++
      spec.mainBinaryName,
    text "Icon=" ++ spec.identifier, text "Terminal=false",
    text "Categories=Network;", text "StartupNotify=true",
    text "StartupWMClass=" ++ spec.identifier].flatMap fun line =>
      line ++ text "\n"

end DesktopEntry

namespace HicolorIcons

def freedesktopSizes : List Nat := [16, 24, 32, 48, 64, 128, 256, 512]

def themeRoot : Text := text "/usr/share/icons/hicolor"

def fromSource (pngAt : Nat → List UInt8) (appId : Text) :
    List (Text × List UInt8) :=
  freedesktopSizes.map fun edge =>
    (themeRoot ++ text "/" ++ text (toString edge) ++ text "x" ++
      text (toString edge) ++ text "/apps/" ++ appId ++ text ".png",
      pngAt edge)

end HicolorIcons

/-- A text file by its name, a unit or a policy that renders itself. -/
structure RenderedFile where
  fileName : Text
  rendered : Text

def unitPath (unit : RenderedFile) : Text :=
  text "/usr/lib/systemd/system/" ++ unit.fileName

def policyPath (policy : RenderedFile) : Text :=
  text "/usr/share/polkit-1/actions/" ++ policy.fileName

/-- What both bundlers are given, and what they find.  A build root is
packaged whole or `rpmbuild` refuses it, as it does a listed path outside. -/
structure LinuxBuild where
  disk : Disk
  appFiles : Option Payload
  listsFile : Bool
  icon : Option (Nat → List UInt8)
  unit : Option RenderedFile
  policy : Option RenderedFile
  createdMode : Nat
  rpmbuild : List Text → List Text → Except BundleFailure Unit
  confined : ∀ listed written, rpmbuild listed written = .ok () →
    ∀ path ∈ written, stays path = true

variable (build : LinuxBuild) (spec : InstallerSpec)

/-! ## What both do -/

def notBuilt : BundleFailure where
  message := text "the built application is not at " ++ spec.appDirectory ++
    text "."
  remedy := some (text "Run flutter build linux --release first.")

def noFiles (remedy : Option Text) : BundleFailure where
  message := spec.appDirectory ++ text " has no files to package."
  remedy := remedy

def missing (source : Text) : BundleFailure where
  message := text "the staged file " ++ source ++ text " does not exist."
  remedy := some (text "A package that silently drops a staged file installs an application missing the piece it was staged for.")

def application (empty : Payload → Bool) (remedy : Option Text) :
    Except BundleFailure Payload :=
  match build.appFiles with
  | none => .error (notBuilt spec)
  | some files =>
      if empty files then .error (noFiles spec remedy)
      else .ok (files.map fun file =>
        (text "usr/lib/" ++ spec.mainBinaryName ++ text "/" ++ file.1,
          file.2))

def stage (file : StagedFile) : Except BundleFailure (Text × Content) :=
  match build.disk file.source with
  | none => .error (missing file.source)
  | some held => .ok (withoutLeadingSlashes file.destination,
      .file { held with mode := held.mode &&& 0x1FF })

def textFile (mode : Nat) (path content : Text) : Text × Content :=
  (path.drop 1, .file ⟨utf8Encode content, mode⟩)

def desktop (mode : Nat) : Text × Content :=
  textFile mode (DesktopEntry.installedPath spec) (DesktopEntry.render spec)

def icons (mode : Nat) : Payload :=
  match build.icon with
  | none => []
  | some pngAt =>
      (HicolorIcons.fromSource pngAt spec.identifier).map fun themed =>
        (themed.1.drop 1, .file ⟨themed.2, mode⟩)

def service (mode : Nat) : Payload :=
  (build.unit.map fun unit =>
    textFile mode (unitPath unit) unit.rendered).toList ++
  (build.policy.map fun policy =>
    textFile mode (policyPath policy) policy.rendered).toList

/-! ## The deb -/

namespace DebBundler

/-- The mode of a member that is given none. -/
def memberMode : Nat := 0x1A4

def data : Except BundleFailure Payload := do
  let app ← application build spec List.isEmpty none
  let staged ← spec.extraFiles.mapM (stage build)
  .ok (app ++ staged ++ [desktop spec memberMode] ++
    icons build spec memberMode ++ service build memberMode)

end DebBundler

/-! ## The rpm -/

namespace RpmBundler

def files : List Text :=
  [text "/usr/lib/" ++ spec.mainBinaryName,
    DesktopEntry.installedPath spec] ++
  (build.icon.map fun _ => HicolorIcons.themeRoot ++ text "/*/apps/" ++
    spec.identifier ++ text ".png").toList ++
  (build.unit.map unitPath).toList ++ (build.policy.map policyPath).toList ++
  spec.extraFiles.map fun file =>
    if file.destination.head? = some slash then file.destination
    else slash :: file.destination

def buildRoot : Except BundleFailure Payload := do
  let app ← application build spec (fun _ => !build.listsFile)
    (some (text "cp reported success and copied nothing, so rpmbuild would build a package that installs an empty directory."))
  let staged ← spec.extraFiles.mapM (stage build)
  .ok (app ++ [desktop spec build.createdMode] ++
    service build build.createdMode ++ staged ++
    icons build spec build.createdMode)

end RpmBundler

/-! ## What is installed -/

namespace Payload

/-- A later file replaces an earlier one of its path. -/
def installed (payload : Payload) (place : List Text) : Option Content :=
  (payload.reverse.find? fun file => placeOf file.1 = place).map (·.2)

/-- No file is where a directory has to be. -/
def unpacks (payload : Payload) : Bool :=
  payload.all fun file => placeOf file.1 ≠ [] && payload.all fun other =>
    !(placeOf file.1).isPrefixOf (placeOf other.1) ||
      placeOf file.1 = placeOf other.1

theorem installed_append (first second : Payload) (place : List Text) :
    (first ++ second).installed place =
      (second.installed place).or (first.installed place) := by
  unfold installed
  rw [List.reverse_append, List.find?_append, Option.map_or]

theorem installed_eq_none {payload : Payload} {place : List Text}
    (hplace : ∀ file ∈ payload, placeOf file.1 ≠ place) :
    payload.installed place = none := by
  unfold installed
  rw [Option.map_eq_none_iff, List.find?_eq_none]
  intro file hfile
  simpa using hplace file (List.mem_reverse.mp hfile)

theorem installed_isSome {payload : Payload} {file : Text × Content}
    (hfile : file ∈ payload) :
    (payload.installed (placeOf file.1)).isSome = true := by
  unfold installed
  rw [Option.isSome_map, List.find?_isSome]
  exact ⟨file, List.mem_reverse.mpr hfile, by simp⟩

/-- What is written last of all that has the path is what is there. -/
theorem installed_between {staged after : Payload} {place : List Text}
    (hthere : (staged.installed place).isSome = true)
    (hafter : after.installed place = none) (before : Payload) :
    (before ++ staged ++ after).installed place = staged.installed place := by
  rcases Option.isSome_iff_exists.mp hthere with ⟨content, hcontent⟩
  rw [installed_append, installed_append, hafter, hcontent]
  rfl

theorem unpacks_congr {first second : Payload}
    (hnames : ∀ name, name ∈ first.map (·.1) ↔ name ∈ second.map (·.1)) :
    first.unpacks = second.unpacks := by
  have hall (test : Text → Bool) :
      (first.all fun file => test file.1) =
        second.all fun file => test file.1 := by
    have hmapped (payload : Payload) :
        (payload.all fun file => test file.1) =
          (payload.map (·.1)).all test := by
      rw [List.all_map]
      rfl
    rw [hmapped, hmapped, Bool.eq_iff_iff]
    simp only [List.all_eq_true, hnames]
  unfold unpacks
  rw [hall fun name => placeOf name ≠ [] && first.all fun other =>
    !(placeOf name).isPrefixOf (placeOf other.1) ||
      placeOf name = placeOf other.1]
  congr 1
  funext file
  rw [hall fun name => !(placeOf file.1).isPrefixOf (placeOf name) ||
    placeOf file.1 = placeOf name]

end Payload

/-- Where a staged file is installed, and what is there in the end. -/
def landing (payload : Payload) (file : StagedFile) :
    Outcome (List Text × Option Content) :=
  let place := placeOf (withoutLeadingSlashes file.destination)
  if payload.unpacks then .made (place, payload.installed place)
  else .breaks

def debLanding (file : StagedFile) : Outcome (List Text × Option Content) :=
  match DebBundler.data build spec with
  | .error _ => .refused
  | .ok payload => landing payload file

def rpmLanding (file : StagedFile) : Outcome (List Text × Option Content) :=
  match RpmBundler.buildRoot build spec with
  | .error _ => .refused
  | .ok root =>
      if root.unpacks then
        match build.rpmbuild (RpmBundler.files build spec)
          (root.map (·.1)) with
        | .error _ => .refused
        | .ok () => landing root file
      else .breaks

/-! ## Where both agree -/

variable {build : LinuxBuild} {spec : InstallerSpec}

theorem stage_eq_ok {file : StagedFile} {member : Text × Content}
    (hstage : stage build file = .ok member) :
    member.1 = withoutLeadingSlashes file.destination := by
  unfold stage at hstage
  split at hstage
  · cases hstage
  · cases hstage
    rfl

/-- The bundlers look for files in their own ways, and take the same. -/
theorem application_unique {empty other : Payload → Bool}
    {remedy advice : Option Text} {app copied : Payload}
    (happ : application build spec empty remedy = .ok app)
    (hcopied : application build spec other advice = .ok copied) :
    app = copied := by
  unfold application at happ hcopied
  cases hfiles : build.appFiles with
  | none => simp [hfiles] at happ
  | some files =>
      simp only [hfiles] at happ hcopied
      split at happ
      · cases happ
      · split at hcopied
        · cases hcopied
        · cases happ
          cases hcopied
          rfl

/-- The files of the package's own. -/
def own (build : LinuxBuild) (spec : InstallerSpec) (mode : Nat) : Payload :=
  [desktop spec mode] ++ icons build spec mode ++ service build mode

theorem names_own (build : LinuxBuild) (spec : InstallerSpec)
    (mode other : Nat) :
    (own build spec mode).map (·.1) = (own build spec other).map (·.1) := by
  have hicons : (icons build spec mode).map (·.1) =
      (icons build spec other).map (·.1) := by
    unfold icons
    split
    · rfl
    · simp only [List.map_map, Function.comp_def]
  have hservice : (service build mode).map (·.1) =
      (service build other).map (·.1) := by
    unfold service
    cases build.unit <;> cases build.policy <;> rfl
  unfold own
  simp only [List.map_append, hicons, hservice]
  rfl

/-- Both are made of the same parts. -/
theorem parts_of_eq_ok {deb rpm : Payload}
    (hdeb : DebBundler.data build spec = .ok deb)
    (hrpm : RpmBundler.buildRoot build spec = .ok rpm) :
    ∃ app staged, spec.extraFiles.mapM (stage build) = .ok staged ∧
      deb = app ++ staged ++ own build spec DebBundler.memberMode ∧
      rpm = app ++ ([desktop spec build.createdMode] ++
        service build build.createdMode) ++ staged ++
          icons build spec build.createdMode := by
  rcases bind_eq_ok_iff.mp hdeb with ⟨app, happ, hrest⟩
  rcases bind_eq_ok_iff.mp hrest with ⟨staged, hstaged, hdata⟩
  rcases bind_eq_ok_iff.mp hrpm with ⟨copied, hcopied, hothers⟩
  rcases bind_eq_ok_iff.mp hothers with ⟨again, hagain, hroot⟩
  have hcopies : copied = app := application_unique hcopied happ
  have hstages : again = staged := Except.ok.inj (hagain.symm.trans hstaged)
  subst hcopies hstages
  refine ⟨copied, again, hstaged, ?_, ?_⟩
  · rw [← Except.ok.inj hdata]
    simp only [own, List.append_assoc]
  · rw [← Except.ok.inj hroot]
    simp only [List.append_assoc]

theorem installed_own {place : List Text}
    (hapart : ∀ kept ∈ own build spec 0, placeOf kept.1 ≠ place)
    (mode : Nat) : (own build spec mode).installed place = none := by
  apply Payload.installed_eq_none
  intro kept hkept
  have hname : kept.1 ∈ (own build spec mode).map (·.1) :=
    List.mem_map_of_mem hkept
  rw [names_own build spec mode 0] at hname
  rcases List.mem_map.mp hname with ⟨other, hother, hsame⟩
  rw [← hsame]
  exact hapart other hother

theorem unpacks_of_parts {app staged deb rpm : Payload}
    (hdeb : deb = app ++ staged ++ own build spec DebBundler.memberMode)
    (hrpm : rpm = app ++ ([desktop spec build.createdMode] ++
      service build build.createdMode) ++ staged ++
        icons build spec build.createdMode) :
    deb.unpacks = rpm.unpacks := by
  apply Payload.unpacks_congr
  intro name
  have hnames : name ∈ rpm.map (·.1) ↔ name ∈ app.map (·.1) ∨
      name ∈ staged.map (·.1) ∨
        name ∈ (own build spec build.createdMode).map (·.1) := by
    rw [hrpm, own]
    simp only [List.map_append, List.mem_append]
    tauto
  rw [hnames, ← names_own build spec DebBundler.memberMode build.createdMode,
    hdeb, List.map_append, List.map_append, List.mem_append, List.mem_append,
    or_assoc]

theorem landing_of_parts {payload before staged after : Payload}
    {file : StagedFile} (hpayload : payload = before ++ staged ++ after)
    (hunpack : payload.unpacks = true)
    (hthere : (staged.installed
      (placeOf (withoutLeadingSlashes file.destination))).isSome = true)
    (hafter : after.installed
      (placeOf (withoutLeadingSlashes file.destination)) = none) :
    landing payload file = .made
      (placeOf (withoutLeadingSlashes file.destination),
        staged.installed
          (placeOf (withoutLeadingSlashes file.destination))) := by
  unfold landing
  dsimp only
  rw [if_pos hunpack, hpayload, Payload.installed_between hthere hafter]

/-- A staged file that is apart from the package's own files is installed at
the same place by both, with the same bytes and the same mode. -/
theorem agree_of_apart {file : StagedFile} (hfile : file ∈ spec.extraFiles)
    (hunpacks : ∀ deb, DebBundler.data build spec = .ok deb →
      deb.unpacks = true)
    (hapart : ∀ kept ∈ own build spec 0,
      placeOf kept.1 ≠ placeOf (withoutLeadingSlashes file.destination)) :
    (debLanding build spec file).Agree (rpmLanding build spec file) := by
  cases hdeb : DebBundler.data build spec with
  | error failure => exact .inl (by rw [debLanding, hdeb])
  | ok deb =>
      cases hrpm : RpmBundler.buildRoot build spec with
      | error failure => exact .inr (.inl (by rw [rpmLanding, hrpm]))
      | ok rpm =>
          rcases parts_of_eq_ok hdeb hrpm with
            ⟨app, staged, hstaged, hdebParts, hrpmParts⟩
          rcases exists_of_mem_of_mapM_eq_ok hstaged hfile with
            ⟨member, hmember, hstage⟩
          have hthere := Payload.installed_isSome hmember
          rw [stage_eq_ok hstage] at hthere
          have hown := installed_own hapart
          have hunpack := hunpacks deb hdeb
          have hsame := unpacks_of_parts hdebParts hrpmParts
          rw [hunpack] at hsame
          have hdebPlace := landing_of_parts hdebParts hunpack hthere (hown _)
          have hicons : (icons build spec build.createdMode).installed
              (placeOf (withoutLeadingSlashes file.destination)) = none := by
            have hall := hown build.createdMode
            rw [own, Payload.installed_append,
              Payload.installed_append] at hall
            simp only [Option.or_eq_none_iff] at hall
            exact hall.2.1
          have hrpmPlace := landing_of_parts hrpmParts hsame.symm hthere hicons
          cases hbuilt : build.rpmbuild (RpmBundler.files build spec)
              (rpm.map (·.1)) with
          | error failure =>
              apply Or.inr
              apply Or.inl
              rw [rpmLanding, hrpm]
              dsimp only
              rw [if_pos hsame.symm, hbuilt]
          | ok packed =>
              apply Or.inr
              apply Or.inr
              have hdebLands : debLanding build spec file =
                  landing deb file := by
                rw [debLanding, hdeb]
              have hrpmLands : rpmLanding build spec file =
                  landing rpm file := by
                rw [rpmLanding, hrpm]
                dsimp only
                rw [if_pos hsame.symm, hbuilt]
              exact ⟨_, hdebLands.trans hdebPlace, hrpmLands.trans hrpmPlace⟩

end Linux

end Dovetail.Bundler
