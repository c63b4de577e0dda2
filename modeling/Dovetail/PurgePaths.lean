import Dovetail.MsiComponentTree

/-!
# Paths a script removes

The service scripts of Linux and macOS accept the paths to purge by the same
checks, each with remedies of its own.  What a path denotes is found by
walking its names, and then it is confined when it is two levels deep and
not above the place it was declared in.
-/

namespace Dovetail.Bundler

open CodeUnits

/-! ## Names of a path -/

def segments (path : Text) : List Text :=
  (path.splitOn slash).filter (· ≠ [])

/-- The directory reached by one more name. -/
def enter (names : List Text) (name : Text) : List Text :=
  if name = text "." then names
  else if name = text ".." then names.dropLast
  else names ++ [name]

def resolve (names : List Text) : List Text := names.foldl enter []

/-- What the path denotes, by its names from the root. -/
def denoted (path : Text) : List Text := resolve (segments path)

/-- The parent the path declares. -/
def parent (path : Text) : List Text := resolve (segments path).dropLast

/-- The path denotes neither the root nor a directory in it, and nothing
above its own parent. -/
structure Confined (path : Text) : Prop where
  deep : 2 ≤ (denoted path).length
  below : ¬ (denoted path <+: parent path ∧ denoted path ≠ parent path)

theorem denoted_eq_enter {path name : Text}
    (hlast : (segments path).getLast? = some name) :
    denoted path = enter (parent path) name := by
  obtain ⟨names, hnames⟩ := List.getLast?_eq_some_iff.mp hlast
  simp [denoted, parent, resolve, hnames]

theorem confined_iff {path : Text} (hnamed : segments path ≠ []) :
    Confined path ↔ 2 ≤ (denoted path).length ∧
      (segments path).getLast? ≠ some (text "..") := by
  obtain ⟨name, hlast⟩ := Option.isSome_iff_exists.mp
    (List.getLast?_isSome.mpr hnamed)
  have hdenoted := denoted_eq_enter hlast
  rw [hlast]
  constructor
  · rintro ⟨hdeep, hbelow⟩
    refine ⟨hdeep, fun hname => hbelow ?_⟩
    -- A last `..` leaves the parent, which is not the root.
    rw [Option.some.inj hname] at hdenoted
    have hup : denoted path = (parent path).dropLast := hdenoted
    have hlength := congrArg List.length hup
    rw [List.length_dropLast] at hlength
    refine ⟨hup ▸ List.dropLast_prefix _, fun hsame => ?_⟩
    rw [hsame] at hlength hdeep
    omega
  · rintro ⟨hdeep, hname⟩
    refine ⟨hdeep, fun hbelow => ?_⟩
    have hother : name ≠ text ".." := fun hsame => hname (hsame ▸ rfl)
    unfold enter at hdenoted
    rw [if_neg hother] at hdenoted
    split at hdenoted
    · exact hbelow.2 hdenoted
    · have hlength := hbelow.1.length_le
      rw [hdenoted, List.length_append, List.length_singleton] at hlength
      omega

/-! ## What is accepted -/

theorem unless_refused_iff {refused : Prop} [Decidable refused]
    {failure : BundleFailure} {rest : Except BundleFailure Unit} :
    (if refused then .error failure else rest) = .ok () ↔
      ¬ refused ∧ rest = .ok () := by
  by_cases hrefused : refused <;> simp [hrefused]

/-- A check of a path: the complaint stands behind the path itself. -/
structure PathCheck where
  refuses : Text → Bool
  complaint : Text
  remedy : Text

namespace PathCheck

def absolute (remedy : Text) : PathCheck where
  refuses path := path.head? != some slash
  complaint := text "is not absolute."
  remedy := remedy

def unspaced (remedy : Text) : PathCheck where
  refuses path := 32 ∈ path
  complaint := text "contains a space."
  remedy := remedy

def deep : PathCheck where
  refuses path := (segments path).length < 2
  complaint := text "is too close to the root."
  remedy := text "rm -rf on a top-level directory is not a purge."

def unquoted (remedy : Text) : PathCheck where
  refuses path := 39 ∈ path
  complaint := text "carries a single quote."
  remedy := remedy

def failure (check : PathCheck) (path : Text) : BundleFailure where
  message := text "the purge path \"" ++ path ++ text "\" " ++ check.complaint
  remedy := some check.remedy

end PathCheck

/-- The first check of the first path that is refused. -/
def checkPurgePaths (checks : List PathCheck) (paths : List Text) :
    Except BundleFailure Unit :=
  match paths.findSome? fun path =>
      (checks.find? (·.refuses path)).map (·.failure path) with
  | some failure => .error failure
  | none => .ok ()

theorem checkPurgePaths_eq_ok_iff {checks : List PathCheck}
    {paths : List Text} :
    checkPurgePaths checks paths = .ok () ↔
      ∀ path ∈ paths, ∀ check ∈ checks, check.refuses path = false := by
  unfold checkPurgePaths
  split
  · next failure hrefused =>
      refine iff_of_false (by simp) fun haccepted => ?_
      obtain ⟨path, hpath, hfound⟩ := List.exists_of_findSome?_eq_some hrefused
      obtain ⟨check, hcheck, -⟩ := Option.map_eq_some_iff.mp hfound
      have hrefuses := List.find?_some hcheck
      rw [haccepted path hpath check (List.mem_of_find?_eq_some hcheck)]
        at hrefuses
      contradiction
  · next hnone =>
      simpa [List.findSome?_eq_none_iff] using hnone

end Dovetail.Bundler
