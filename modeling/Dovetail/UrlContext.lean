import Dovetail.CodeUnits
import Mathlib.Tactic

/-!
# Directories of url paths

What the path package makes of a text as the path of a url.  A path may have
a root: a slash in front, or a name with a colon and what belongs to it.  The
directory of a path goes up by one name, and stops at the root or at the
current directory.
-/

namespace UrlContexts

open CodeUnits

def slash : UInt16 := 47

def colon : UInt16 := 58

def currentDirectory : Text := [46]

/-- The functions of a path context and what is documented of them. -/
structure UrlContext where
  rooted : Text → Bool
  dirname : Text → Text
  basename : Text → Text
  rooted_dirname : ∀ path, rooted path = true → rooted (dirname path) = true
  dirname_rootless : ∀ path, rooted path = false →
    dirname path = currentDirectory ∨
      rooted (dirname path) = false ∧ (dirname path).length < path.length
  rootless_currentDirectory : rooted currentDirectory = false

/-! ## The path package -/

/-- The name a root can begin with, and what follows it. -/
def schemeOf (path : Text) : Text :=
  path.takeWhile fun unit => !(unit == slash || unit == colon)

/-- Where the search for the end of a root with a colon begins. -/
def authorityStart (path : Text) : Nat :=
  if [slash, slash].isPrefixOf (path.drop ((schemeOf path).length + 1)) then
    (schemeOf path).length + 3
  else (schemeOf path).length

def hasScheme (path : Text) : Bool :=
  !(schemeOf path).isEmpty &&
    (path.drop (schemeOf path).length).head? == some colon

def rootLength (path : Text) : Nat :=
  if path.head? = some slash then 1
  else if hasScheme path then
    authorityStart path +
      ((path.drop (authorityStart path)).takeWhile
        fun unit => unit != slash).length
  else 0

def stripped (path : Text) : Text := path.rdropWhile fun unit => unit == slash

/-- What is left in front of the last name. -/
def above (path : Text) : Text :=
  stripped ((stripped path).rdropWhile fun unit => unit != slash)

def dirname (path : Text) : Text :=
  let root := path.take (rootLength path)
  let parent := above (path.drop (rootLength path))
  if root = [] ∧ parent = [] then currentDirectory else root ++ parent

def basename (path : Text) : Text :=
  let rest := stripped (path.drop (rootLength path))
  if rest = [] then path.take (rootLength path)
  else rest.rtakeWhile fun unit => unit != slash

def rooted (path : Text) : Bool := decide (rootLength path ≠ 0)

theorem rooted_iff (path : Text) :
    rooted path = true ↔
      path.head? = some slash ∨ hasScheme path = true := by
  unfold rooted rootLength
  rw [decide_eq_true_eq]
  by_cases hslash : path.head? = some slash
  · simp [hslash]
  · by_cases hscheme : hasScheme path = true
    · have hname : schemeOf path ≠ [] := by
        simp only [hasScheme, Bool.and_eq_true, Bool.not_eq_true',
          List.isEmpty_eq_false_iff] at hscheme
        exact hscheme.1
      have hpos := List.length_pos_of_ne_nil hname
      have hstart : (schemeOf path).length ≤ authorityStart path := by
        unfold authorityStart
        split
        · omega
        · exact le_refl _
      simp only [hslash, hscheme, if_true, if_false, or_true, iff_true]
      omega
    · simp [hslash, hscheme]

theorem schemeOf_append {name rest : Text} (hslash : slash ∉ name)
    (hcolon : colon ∉ name) :
    schemeOf (name ++ colon :: rest) = name := by
  have hall : ∀ unit ∈ name,
      (!(unit == slash || unit == colon)) = true := by
    intro unit hunit
    have hneSlash : unit ≠ slash := fun hsame => hslash (hsame ▸ hunit)
    have hneColon : unit ≠ colon := fun hsame => hcolon (hsame ▸ hunit)
    simp [hneSlash, hneColon]
  unfold schemeOf
  rw [List.takeWhile_append_of_pos hall, List.takeWhile_cons]
  simp

/-- Whether a path has a scheme is seen up to its colon. -/
theorem hasScheme_iff (path : Text) :
    hasScheme path = true ↔
      ∃ name rest, name ≠ [] ∧ slash ∉ name ∧ colon ∉ name ∧
        path = name ++ colon :: rest := by
  constructor
  · intro hscheme
    simp only [hasScheme, Bool.and_eq_true, Bool.not_eq_true',
      List.isEmpty_eq_false_iff, beq_iff_eq] at hscheme
    have hfree : ∀ unit ∈ schemeOf path, unit ≠ slash ∧ unit ≠ colon := by
      intro unit hunit
      have hkept := List.mem_takeWhile_imp hunit
      simpa using hkept
    have hwhole : schemeOf path ++ path.drop (schemeOf path).length =
        path := by
      rcases List.takeWhile_prefix (l := path) (p := fun unit =>
        !(unit == slash || unit == colon)) with ⟨rest, hrest⟩
      have hsplit : schemeOf path ++ rest = path := hrest
      have hdrop : path.drop (schemeOf path).length = rest :=
        (congrArg (List.drop (schemeOf path).length) hsplit.symm).trans
          List.drop_left
      rw [hdrop, hsplit]
    rcases List.head?_eq_some_iff.mp hscheme.2 with ⟨rest, hrest⟩
    refine ⟨schemeOf path, rest, hscheme.1, ?_, ?_, ?_⟩
    · exact fun hmem => (hfree slash hmem).1 rfl
    · exact fun hmem => (hfree colon hmem).2 rfl
    · rw [← hrest, hwhole]
  · intro hscheme
    rcases hscheme with ⟨name, rest, hname, hslash, hcolon, rfl⟩
    simp [hasScheme, schemeOf_append hslash hcolon, hname]

theorem isPrefix_above (path : Text) : above path <+: path := by
  have hdropped (units : Text) (p : UInt16 → Bool) :
      units.rdropWhile p <+: units := List.rdropWhile_prefix p units
  exact ((hdropped _ _).trans (hdropped _ _)).trans (hdropped _ _)

theorem length_above_lt {path : Text} (hpath : stripped path ≠ []) :
    (above path).length < path.length := by
  have hdropped (units : Text) (p : UInt16 → Bool) :
      (units.rdropWhile p).length ≤ units.length :=
    (List.rdropWhile_prefix p units).length_le
  have hlast : (stripped path).getLast hpath ≠ slash := by
    have hkept := List.rdropWhile_last_not (fun unit => unit == slash) path
      hpath
    simpa [stripped] using hkept
  have hshorter : ((stripped path).rdropWhile fun unit =>
      unit != slash).length < (stripped path).length := by
    conv_lhs =>
      rw [← List.dropLast_append_getLast hpath,
        List.rdropWhile_concat_pos _ _ _ (by simpa using hlast)]
    have hbefore := hdropped (stripped path).dropLast
      fun unit => unit != slash
    have hpositive := List.length_pos_of_ne_nil hpath
    rw [List.length_dropLast] at hbefore
    omega
  calc (above path).length
      ≤ ((stripped path).rdropWhile fun unit => unit != slash).length :=
        hdropped _ _
    _ < (stripped path).length := hshorter
    _ ≤ path.length := hdropped _ _

/-- What is in front of a path without a root has none. -/
theorem rooted_of_isPrefix {path before : Text} (hbefore : before <+: path)
    (hrooted : rooted before = true) : rooted path = true := by
  rcases hbefore with ⟨rest, rfl⟩
  rw [rooted_iff] at hrooted ⊢
  cases hrooted with
  | inl hslash =>
      left
      rcases List.head?_eq_some_iff.mp hslash with ⟨tail, rfl⟩
      rfl
  | inr hscheme =>
      right
      rw [hasScheme_iff] at hscheme ⊢
      rcases hscheme with ⟨name, tail, hname, hslash, hcolon, rfl⟩
      exact ⟨name, tail ++ rest, hname, hslash, hcolon, by simp⟩

/-- A root has a root itself. -/
theorem rooted_take_rootLength {path : Text} (hrooted : rooted path = true) :
    rooted (path.take (rootLength path)) = true := by
  have hcases := (rooted_iff path).mp hrooted
  rw [rooted_iff]
  by_cases hslash : path.head? = some slash
  · left
    rcases List.head?_eq_some_iff.mp hslash with ⟨rest, rfl⟩
    simp [rootLength]
  · right
    have hscheme : hasScheme path = true := hcases.resolve_left hslash
    have hlength : (schemeOf path).length < rootLength path := by
      rw [rootLength, if_neg hslash, if_pos hscheme, authorityStart]
      split
      · omega
      · rcases (hasScheme_iff path).mp hscheme with
          ⟨name, rest, hname, hnoSlash, hnoColon, rfl⟩
        rw [schemeOf_append hnoSlash hnoColon, List.drop_left,
          List.takeWhile_cons, if_pos (by decide)]
        simp
    rcases (hasScheme_iff path).mp hscheme with
      ⟨name, rest, hname, hnoSlash, hnoColon, hpath⟩
    rw [hpath, schemeOf_append hnoSlash hnoColon, ← hpath] at hlength
    rw [hasScheme_iff]
    refine ⟨name, rest.take (rootLength path - (name.length + 1)), hname,
      hnoSlash, hnoColon, ?_⟩
    have hroot : rootLength path =
        name.length + ((rootLength path - (name.length + 1)) + 1) := by
      omega
    calc path.take (rootLength path)
        = (name ++ colon :: rest).take (name.length +
            ((rootLength path - (name.length + 1)) + 1)) := by
          rw [← hroot, ← hpath]
      _ = _ := by
          rw [List.take_length_add_append, List.take_succ_cons]

def packagePath : UrlContext where
  rooted := rooted
  dirname := dirname
  basename := basename
  rooted_dirname := by
    intro path hrooted
    have hroot := rooted_take_rootLength hrooted
    have hne : path.take (rootLength path) ≠ [] := by
      intro hnil
      rw [hnil] at hroot
      exact absurd hroot (by decide)
    unfold dirname
    rw [if_neg (fun hboth => hne hboth.1)]
    exact rooted_of_isPrefix (List.prefix_append _ _) hroot
  dirname_rootless := by
    intro path hrootless
    have hzero : rootLength path = 0 := by
      unfold rooted at hrootless
      simpa using hrootless
    unfold dirname
    rw [hzero]
    simp only [List.take_zero, List.drop_zero, true_and, List.nil_append]
    by_cases habove : above path = []
    · left
      exact if_pos habove
    · right
      rw [if_neg habove]
      constructor
      · rw [← Bool.not_eq_true]
        intro hrooted
        have hpath := rooted_of_isPrefix (isPrefix_above path) hrooted
        rw [hrootless] at hpath
        exact Bool.false_ne_true hpath
      · apply length_above_lt
        intro hstripped
        apply habove
        rw [above, hstripped]
        rfl
  rootless_currentDirectory := by decide

end UrlContexts
