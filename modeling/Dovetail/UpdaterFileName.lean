import Dovetail.UpdaterInstallers
import Dovetail.UrlPaths

/-!
# Where an artifact is written

`VerifiedArtifact.fileName` is the last segment of the artifact's url, which
the installers of Linux and Windows join to their scratch directory.  A
segment is decoded after it has been split off, so an escaped separator in it
leads out of that directory.
-/

namespace Dovetail.Updater

open CodeUnits
open FallibleSteps
open UrlPaths

/-! ## The url -/

/-- A text that begins with the scheme, in any case. -/
structure HttpsUrl where
  source : Text
  https : (source.take 6).map (fun unit =>
    if 65 ≤ unit && unit ≤ 90 then unit + 32 else unit) = text "https:"

def isSlash (unit : UInt16) : Bool := unit == 47 || unit == 92

/-- What ends an authority. -/
def endsAuthority (unit : UInt16) : Bool :=
  isSlash unit || unit == 63 || unit == 35

/-- The path before a query and a fragment, normalized. -/
def pathOf (hasAuthority : Bool) (rest : Text) : List PathUnit :=
  let path := normalize (rest.takeWhile fun unit => unit != 63 && unit != 35)
  removeDotSegments
    (if hasAuthority ∧ path ≠ [] ∧ path.head? ≠ some UrlPaths.slash then
      UrlPaths.slash :: path
    else path)

namespace HttpsUrl

variable (authority : Text → Bool) (url : HttpsUrl)

/-- `Uri.tryParse`, as far as the path: only an authority that is none keeps
such a url from being read. -/
def path? : Option (List PathUnit) :=
  let rest := url.source.drop 6
  if (rest.take 2).length = 2 ∧ (rest.take 2).all isSlash then
    let behind := rest.drop 2
    if authority (behind.takeWhile fun unit => !endsAuthority unit) then
      some (pathOf true (behind.dropWhile fun unit => !endsAuthority unit))
    else none
  else some (pathOf false rest)

/-- Decoding a segment that is not UTF-8 throws. -/
def fileName : Option Text :=
  match url.path? authority with
  | none => some (text "update")
  | some path => do
      let names ← (pathSegments path).mapM decodeComponent
      return ((names.filter (· ≠ [])).getLast?).getD (text "update")

end HttpsUrl

/-! ## The installers -/

/-- What the path package knows of a platform: the separators, and what an
absolute part makes of the directory it is joined to. -/
structure PathStyle where
  separator : UInt16
  isSeparator : UInt16 → Bool
  rooted : Text → Text → Option Text

namespace PathStyle

def posix : PathStyle where
  separator := 47
  isSeparator unit := unit == 47
  rooted _ part := if part.head? = some 47 then some part else none

def isLetter (unit : UInt16) : Bool :=
  (65 ≤ unit && unit ≤ 90) || (97 ≤ unit && unit ≤ 122)

def startsWithDrive : Text → Bool
  | letter :: 58 :: unit :: _ => isLetter letter && isSlash unit
  | _ => false

/-- A part with a separator in front keeps the root of the directory, one
with two or with a drive keeps nothing of it. -/
def windows (rootOf : Text → Text) : PathStyle where
  separator := 92
  isSeparator := isSlash
  rooted directory part :=
    if part.head?.any isSlash then
      if part.tail.head?.any isSlash then some part
      else some (rootOf directory ++ part)
    else if startsWithDrive part then some part
    else none

variable (style : PathStyle)

def endsInSeparator (directory : Text) : Bool :=
  directory.getLast?.any style.isSeparator

def join (directory part : Text) : Text :=
  match style.rooted directory part with
  | some path => path
  | none =>
      if part = [] then directory
      else if directory = [] ∨ style.endsInSeparator directory then
        directory ++ part
      else directory ++ style.separator :: part

/-- The path is a child of the directory. -/
def ChildOf (directory path : Text) : Prop :=
  ∃ name, SingleComponent name ∧
    (if directory = [] ∨ style.endsInSeparator directory then
      directory ++ name
    else directory ++ style.separator :: name) = path

end PathStyle

/-- The extension of the last name of a path. -/
def extensionOf (path : Text) : Text :=
  match ((path.splitOnP isSlash).filter (· ≠ [])).getLast? with
  | none => []
  | some name =>
      if name = text ".." then [] else MacosInstaller.extension name

def installerExtensions : List Text := [text ".exe", text ".msi"]

/-- The path the installer of Linux writes a package to. -/
def LinuxInstaller.packagePath (scratch name : Text) : Text :=
  PathStyle.posix.join scratch name

/-- The path the installer of Windows writes to, where it does not refuse the
extension. -/
def WindowsInstaller.installerPath? (rootOf : Text → Text)
    (scratch name : Text) : Option Text :=
  let extension := (extensionOf name).map fun unit =>
    if 65 ≤ unit && unit ≤ 90 then unit + 32 else unit
  if extension ∈ installerExtensions then
    some ((PathStyle.windows rootOf).join scratch name)
  else none

/-- The file name is a single component, and what the installers write is a
child of the scratch directory. -/
def StaysInside (authority : Text → Bool) (rootOf : Text → Text)
    (url : HttpsUrl) : Prop :=
  ∀ name, url.fileName authority = some name →
    SingleComponent name ∧ ∀ scratch,
      PathStyle.posix.ChildOf scratch
          (LinuxInstaller.packagePath scratch name) ∧
        ∀ path, WindowsInstaller.installerPath? rootOf scratch name =
            some path →
          (PathStyle.windows rootOf).ChildOf scratch path

/-- Where the segments of the path are UTF-8, the last of them that is decoded
to something has no separator escaped in it. -/
def NamesOneFile (authority : Text → Bool) (url : HttpsUrl) : Prop :=
  ∀ path, url.path? authority = some path →
    (∀ segment ∈ pathSegments path,
      (decodeComponent segment).isSome = true) →
      ∀ segment,
        ((pathSegments path).filter fun segment =>
          decide (IsNamed segment)).getLast? = some segment →
            NamesOne segment

/-! ## Joining a single component -/

namespace PathStyle

theorem join_of_rooted_eq_none {style : PathStyle} {directory name : Text}
    (hname : SingleComponent name)
    (hrooted : style.rooted directory name = none) :
    style.ChildOf directory (style.join directory name) := by
  refine ⟨name, hname, ?_⟩
  unfold join
  rw [hrooted]
  simp [hname.1]

theorem posix_rooted {directory name : Text} (hname : SingleComponent name) :
    posix.rooted directory name = none := by
  have hhead : name.head? ≠ some 47 := fun hhead =>
    hname.2.2.2.1 (List.mem_of_mem_head? hhead)
  simp [posix, hhead]

theorem isSlash_eq_false {name : Text} (hname : SingleComponent name)
    {unit : UInt16} (hunit : unit ∈ name) : isSlash unit = false := by
  have hslash : unit ≠ 47 := fun hsame => hname.2.2.2.1 (hsame ▸ hunit)
  have hbackslash : unit ≠ 92 := fun hsame => hname.2.2.2.2 (hsame ▸ hunit)
  simp [isSlash, hslash, hbackslash]

theorem windows_rooted {rootOf : Text → Text} {directory name : Text}
    (hname : SingleComponent name) :
    (windows rootOf).rooted directory name = none := by
  have hhead : name.head?.any isSlash = false := by
    cases hfirst : name.head? with
    | none => rfl
    | some first =>
        exact isSlash_eq_false hname (List.mem_of_mem_head? hfirst)
  have hdrive : startsWithDrive name = false := by
    unfold startsWithDrive
    split
    · rw [isSlash_eq_false hname (by simp), Bool.and_false]
    · rfl
  simp [windows, hhead, hdrive]

end PathStyle

/-- A single component leads to a child of every directory. -/
theorem staysInside_of_forall_singleComponent {authority : Text → Bool}
    {rootOf : Text → Text} {url : HttpsUrl}
    (hnames : ∀ name, url.fileName authority = some name →
      SingleComponent name) :
    StaysInside authority rootOf url := by
  intro name hname
  have hsingle := hnames name hname
  refine ⟨hsingle, fun scratch => ⟨?_, ?_⟩⟩
  · exact PathStyle.join_of_rooted_eq_none hsingle
      (PathStyle.posix_rooted hsingle)
  · intro path hpath
    unfold WindowsInstaller.installerPath? at hpath
    dsimp only at hpath
    split_ifs at hpath
    obtain rfl : (PathStyle.windows rootOf).join scratch name = path :=
      Option.some.inj hpath
    exact PathStyle.join_of_rooted_eq_none hsingle
      (PathStyle.windows_rooted hsingle)

/-! ## The last name -/

theorem normal_of_mem_segments {rest : Text} {segment : Segment}
    (hasAuthority : Bool)
    (hsegment : segment ∈ pathSegments (pathOf hasAuthority rest)) :
    (∀ unit ∈ segment, unit.Normal) ∧ UrlPaths.slash ∉ segment ∧
      segment ≠ dot ∧ segment ≠ dots := by
  have hkept := mem_segments_of_mem_pathSegments hsegment
  have hslash := slash_not_mem_of_mem_segments hkept
  rcases of_mem_segments_removeDotSegments hkept with rfl | hpart
  · exact ⟨by simp, by simp, by decide, by decide⟩
  · refine ⟨?_, hslash, hpart.2⟩
    intro unit hunit
    have hmem := mem_of_mem_segments hpart.1 hunit
    split_ifs at hmem
    · rcases List.mem_cons.mp hmem with rfl | hmem
      · exact (by decide : isPathCharacter 47 = true)
      · exact normal_of_mem_normalizeAfter hmem
    · exact normal_of_mem_normalizeAfter hmem

section

variable {authority : Text → Bool} {rootOf : Text → Text} {url : HttpsUrl}
  {path : List PathUnit} {name : Text}

theorem exists_pathOf_of_path?_eq_some
    (hpath : url.path? authority = some path) :
    ∃ hasAuthority rest, path = pathOf hasAuthority rest := by
  unfold HttpsUrl.path? at hpath
  dsimp only at hpath
  split_ifs at hpath
  · exact ⟨_, _, (Option.some.inj hpath).symm⟩
  · exact ⟨_, _, (Option.some.inj hpath).symm⟩

/-- The name of the last segment that is decoded to something. -/
def lastName (path : List PathUnit) : Option Text :=
  (((pathSegments path).filter fun segment =>
    decide (IsNamed segment)).getLast?).map fun segment =>
      (decodeComponent segment).getD []

theorem fileName_eq_of_path? (hpath : url.path? authority = some path)
    (hdecoded : ∀ segment ∈ pathSegments path,
      (decodeComponent segment).isSome = true) :
    url.fileName authority = some ((lastName path).getD (text "update")) := by
  rcases exists_pathOf_of_path?_eq_some hpath with ⟨hasAuthority, rest, hof⟩
  have hnames : (pathSegments path).mapM decodeComponent =
      some ((pathSegments path).map fun segment =>
        (decodeComponent segment).getD []) := by
    apply mapM_eq_some_map
    intro segment hsegment
    rcases Option.isSome_iff_exists.mp (hdecoded segment hsegment) with
      ⟨decoded, hdecode⟩
    rw [hdecode]
    rfl
  have hfilter : (pathSegments path).filter
        ((fun name => decide (name ≠ [])) ∘ fun segment =>
          (decodeComponent segment).getD []) =
      (pathSegments path).filter fun segment =>
        decide (IsNamed segment) := by
    apply List.filter_congr
    intro segment hsegment
    rcases Option.isSome_iff_exists.mp (hdecoded segment hsegment) with
      ⟨decoded, hdecode⟩
    rw [hof] at hsegment
    have hnormal := (normal_of_mem_segments hasAuthority hsegment).1
    have hempty := eq_nil_iff_of_decodeComponent hnormal hdecode
    rw [Function.comp_apply, hdecode, Option.getD_some, decide_eq_decide,
      ne_eq, hempty, not_not]
  unfold HttpsUrl.fileName lastName
  simp only [hpath, hnames, bind, Option.bind, List.filter_map, hfilter,
    List.getLast?_map]
  rfl

/-- A url leads to one file of the scratch directory exactly where its last
name has no separator escaped in it. -/
theorem staysInside_iff :
    StaysInside authority rootOf url ↔ NamesOneFile authority url := by
  constructor
  · intro hinside path hpath hdecoded segment hlast
    rcases exists_pathOf_of_path?_eq_some hpath with ⟨hasAuthority, rest, hof⟩
    have hmem := List.mem_of_getLast? hlast
    rcases List.mem_filter.mp hmem with ⟨hsegment, hnamed⟩
    rcases Option.isSome_iff_exists.mp (hdecoded segment hsegment) with
      ⟨name, hdecode⟩
    have hname : url.fileName authority = some name := by
      rw [fileName_eq_of_path? hpath hdecoded, lastName, hlast]
      simp [hdecode]
    have hsingle := (hinside name hname).1
    rw [hof] at hsegment
    rcases normal_of_mem_segments hasAuthority hsegment with
      ⟨hnormal, hslash, hdot, hdots⟩
    exact (singleComponent_iff hnormal hdecode (of_decide_eq_true hnamed)
      hslash hdot hdots).mp hsingle
  · intro hone
    apply staysInside_of_forall_singleComponent
    intro name hname
    have hupdate : SingleComponent (text "update") := by
      unfold SingleComponent
      decide
    cases hpath : url.path? authority with
    | none =>
        simp only [HttpsUrl.fileName, hpath, Option.some.injEq] at hname
        exact hname ▸ hupdate
    | some path =>
        rcases exists_pathOf_of_path?_eq_some hpath with
          ⟨hasAuthority, rest, hof⟩
        have hdecoded : ∀ segment ∈ pathSegments path,
            (decodeComponent segment).isSome = true := by
          simp only [HttpsUrl.fileName, hpath] at hname
          rcases Option.bind_eq_some_iff.mp hname with ⟨names, hnames, -⟩
          exact isSome_of_mapM_eq_some hnames
        rw [fileName_eq_of_path? hpath hdecoded, Option.some.injEq] at hname
        cases hlast : ((pathSegments path).filter fun segment =>
            decide (IsNamed segment)).getLast? with
        | none =>
            rw [lastName, hlast] at hname
            exact hname ▸ hupdate
        | some segment =>
            have hmem := List.mem_of_getLast? hlast
            rcases List.mem_filter.mp hmem with ⟨hsegment, hnamed⟩
            rcases Option.isSome_iff_exists.mp
              (hdecoded segment hsegment) with ⟨decoded, hdecode⟩
            have hsame : decoded = name := by
              rw [lastName, hlast] at hname
              simpa [hdecode] using hname
            subst hsame
            have honly := hone path hpath hdecoded segment hlast
            rw [hof] at hsegment
            rcases normal_of_mem_segments hasAuthority hsegment with
              ⟨hnormal, hslash, hdot, hdots⟩
            exact (singleComponent_iff hnormal hdecode
              (of_decide_eq_true hnamed) hslash hdot hdots).mpr honly

end

/-! ## A name with a way out -/

/-- The package that is written two directories above the scratch
directory. -/
def climbingUrl : HttpsUrl where
  source := text "https://example.com/app/..%2f..%2fevil.deb"
  https := by decide

theorem not_staysInside_climbing :
    climbingUrl.fileName (fun _ => true) = some (text "../../evil.deb") ∧
      LinuxInstaller.packagePath (text "/tmp/dovetail_update")
          (text "../../evil.deb") =
        text "/tmp/dovetail_update/../../evil.deb" ∧
      ¬ StaysInside (fun _ => true) id climbingUrl := by
  have hname : climbingUrl.fileName (fun _ => true) =
      some (text "../../evil.deb") := by decide
  refine ⟨hname, by decide, ?_⟩
  intro hinside
  have hslash := (hinside _ hname).1.2.2.2.1
  exact hslash (by decide)

end Dovetail.Updater
