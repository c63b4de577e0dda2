import Dovetail.FallibleSteps
import Dovetail.UpdaterInstallers

/-!
# The order of signing

`SignOrder.insideOut` lists the nested code of a bundle, and of the bundles
that are nested code themselves, and signs what lies deeper first.  Paths
are lists of names below the outer bundle: what stands in front of them is
the same for all of them.
-/

namespace Dovetail.Signer

open CodeUnits

/-- A name in a directory. -/
structure EntryName where
  units : Text
  filled : units ≠ []
  proper : units ≠ text "." ∧ units ≠ text ".."
  whole : (47 : UInt16) ∉ units
  deriving DecidableEq

/-- A path as `p.split` leaves it, relative to the outer bundle. -/
abbrev BundlePath := List EntryName

namespace BundlePath

/-- `p.isWithin`. -/
def isWithin (parent child : BundlePath) : Bool :=
  decide (parent <+: child ∧ parent ≠ child)

/-- The path in full, behind where the outer bundle is. -/
def fullText (root : Text) (path : BundlePath) : Text :=
  root ++ path.flatMap fun name => 47 :: name.units

def extension (path : BundlePath) : Text :=
  match path.getLast? with
  | none => []
  | some name => Updater.MacosInstaller.extension name.units

end BundlePath

open BundlePath

/-- Upper-case letters of the Latin alphabet and the Kelvin sign; no other
unit becomes one that a folder or an extension is spelled with. -/
def toLowerCase (name : Text) : Text :=
  name.map fun unit =>
    if 65 ≤ unit && unit ≤ 90 then unit + 32
    else if unit = 0x212A then 107
    else unit

structure SignTarget where
  path : BundlePath
  isExecutable : Bool
  deriving DecidableEq

namespace SignOrder

def nestedCodeFolders : List Text :=
  [text "macos", text "frameworks", text "plugins", text "helpers",
    text "xpcservices", text "libraries", text "extensions"]

def libraryFolder : Text := text "library"

def nestedBundleExtensions : List Text :=
  [text ".app", text ".appex", text ".xpc", text ".systemextension"]

def libraryExtensions : List Text := [text ".dylib", text ".so", text ".a"]

def contentsName : EntryName where
  units := text "Contents"
  filled := by decide
  proper := by decide
  whole := by decide

def isNestedCodeFolder (folderName : EntryName) : Bool :=
  decide (toLowerCase folderName.units ∈ nestedCodeFolders)

def isNestedCode (contentsRoot entry : BundlePath) : Bool :=
  isWithin contentsRoot entry &&
    match entry.drop contentsRoot.length with
    | [folder, _] => isNestedCodeFolder folder
    | [first, _, _] => toLowerCase first.units == libraryFolder
    | _ => false

def isNestedBundle (entry : BundlePath) : Bool :=
  decide (toLowerCase entry.extension ∈ nestedBundleExtensions)

def isExecutable (entry : BundlePath) : Bool :=
  let extension := toLowerCase entry.extension
  !(decide (extension ∈ libraryExtensions) ||
    extension == text ".framework")

/-- What lies deeper comes first; at one depth the paths are compared. -/
def comesFirst (root : Text) (a b : SignTarget) : Bool :=
  decide (b.path.length < a.path.length) ||
    (decide (a.path.length = b.path.length) &&
      decide (fullText root a.path ≤ fullText root b.path))

/-- What the loop adds for an entry. -/
def addFor (insideOut : BundlePath → Option (List SignTarget))
    (contentsRoot entry : BundlePath) : Option (List SignTarget) :=
  if !isNestedCode contentsRoot entry then some []
  else if isNestedBundle entry then insideOut entry
  else some [⟨entry, isExecutable entry⟩]

/-- The recursion takes so many steps down at most. -/
def insideOut (root : Text) (contents : List BundlePath) :
    Nat → BundlePath → Option (List SignTarget)
  | 0, _ => none
  | fuel + 1, bundlePath => do
      let nested ← contents.mapM
        (addFor (insideOut root contents fuel) (bundlePath ++ [contentsName]))
      return nested.flatten.mergeSort (comesFirst root) ++ [⟨bundlePath, true⟩]

/-! ## Nested code -/

/-- Directly inside a code folder of the contents, or two levels inside
`Library`. -/
inductive InCodeFolder (bundlePath : BundlePath) : BundlePath → Prop where
  | folder (folder name : EntryName) :
      toLowerCase folder.units ∈ nestedCodeFolders →
        InCodeFolder bundlePath (bundlePath ++ [contentsName, folder, name])
  | library (first folder name : EntryName) :
      toLowerCase first.units = libraryFolder →
        InCodeFolder bundlePath
          (bundlePath ++ [contentsName, first, folder, name])

/-- A listed item of the bundle, or of a listed bundle inside it. -/
inductive IsItem (contents : List BundlePath) :
    BundlePath → BundlePath → Prop where
  | direct {bundlePath entry : BundlePath} :
      entry ∈ contents → InCodeFolder bundlePath entry →
        IsItem contents bundlePath entry
  | inner {bundlePath nested entry : BundlePath} :
      nested ∈ contents → InCodeFolder bundlePath nested →
        isNestedBundle nested = true → IsItem contents nested entry →
          IsItem contents bundlePath entry

theorem isWithin_iff {parent child : BundlePath} :
    isWithin parent child = true ↔ ∃ names, names ≠ [] ∧
      child = parent ++ names := by
  rw [isWithin, decide_eq_true_eq]
  constructor
  · rintro ⟨⟨names, hnames⟩, hne⟩
    refine ⟨names, ?_, hnames.symm⟩
    intro hnone
    rw [hnone, List.append_nil] at hnames
    exact hne hnames
  · rintro ⟨names, hnames, rfl⟩
    exact ⟨List.prefix_append parent names, by simpa using hnames⟩

theorem length_lt_of_isWithin {parent child : BundlePath}
    (hwithin : isWithin parent child = true) :
    parent.length < child.length := by
  rcases isWithin_iff.mp hwithin with ⟨names, hnames, rfl⟩
  have hpositive := List.length_pos_iff.mpr hnames
  rw [List.length_append]
  omega

theorem isWithin_trans {outer middle inner : BundlePath}
    (hmiddle : isWithin outer middle = true)
    (hinner : isWithin middle inner = true) :
    isWithin outer inner = true := by
  rcases isWithin_iff.mp hmiddle with ⟨names, hnames, rfl⟩
  rcases isWithin_iff.mp hinner with ⟨others, -, rfl⟩
  apply isWithin_iff.mpr
  exact ⟨names ++ others, by simp [hnames], List.append_assoc _ _ _⟩

theorem isNestedCode_iff {bundlePath entry : BundlePath} :
    isNestedCode (bundlePath ++ [contentsName]) entry = true ↔
      InCodeFolder bundlePath entry := by
  rw [isNestedCode, Bool.and_eq_true]
  constructor
  · rintro ⟨hwithin, hcode⟩
    rcases isWithin_iff.mp hwithin with ⟨names, -, rfl⟩
    rw [List.drop_left] at hcode
    split at hcode
    · rename_i folder name
      rw [List.append_assoc]
      exact .folder folder name (of_decide_eq_true hcode)
    · rename_i first folder name
      rw [List.append_assoc]
      exact .library first folder name (beq_iff_eq.mp hcode)
    · cases hcode
  · intro hcode
    have hdrop (names : List EntryName) :
        (bundlePath ++ contentsName :: names).drop
          (bundlePath ++ [contentsName]).length = names := by
      have hcons : bundlePath ++ contentsName :: names =
          (bundlePath ++ [contentsName]) ++ names := by
        simp
      rw [hcons, List.drop_left]
    have hwithin (name : EntryName) (names : List EntryName) :
        isWithin (bundlePath ++ [contentsName])
          (bundlePath ++ contentsName :: name :: names) = true := by
      apply isWithin_iff.mpr
      exact ⟨name :: names, List.cons_ne_nil _ _, by simp⟩
    cases hcode with
    | folder folder name hfolder =>
        refine ⟨hwithin folder [name], ?_⟩
        rw [hdrop]
        exact decide_eq_true hfolder
    | library first folder name hfirst =>
        refine ⟨hwithin first [folder, name], ?_⟩
        rw [hdrop]
        exact beq_iff_eq.mpr hfirst

section

variable {contents : List BundlePath} {bundlePath entry other : BundlePath}

theorem isWithin_of_inCodeFolder (hcode : InCodeFolder bundlePath entry) :
    isWithin bundlePath entry = true := by
  apply isWithin_iff.mpr
  cases hcode with
  | folder folder name hfolder => exact ⟨_, List.cons_ne_nil _ _, rfl⟩
  | library first folder name hfirst => exact ⟨_, List.cons_ne_nil _ _, rfl⟩

theorem isWithin_of_isItem (hitem : IsItem contents bundlePath entry) :
    isWithin bundlePath entry = true := by
  induction hitem with
  | direct _ hcode => exact isWithin_of_inCodeFolder hcode
  | inner _ hcode _ _ ih =>
      exact isWithin_trans (isWithin_of_inCodeFolder hcode) ih

/-- No nested code lies inside other nested code of the same bundle. -/
theorem eq_of_inCodeFolder (hentry : InCodeFolder bundlePath entry)
    (hother : InCodeFolder bundlePath other) (hbegins : entry <+: other) :
    entry = other := by
  have hlibrary : libraryFolder ∉ nestedCodeFolders := by decide
  cases hentry with
  | folder folder name hfolder =>
      cases hother with
      | folder folder' name' _ => exact hbegins.eq_of_length (by simp)
      | library first folder' name' hfirst =>
          rw [List.prefix_append_right_inj] at hbegins
          have hsame := (List.cons_prefix_cons.mp
            (List.cons_prefix_cons.mp hbegins).2).1
          rw [hsame, hfirst] at hfolder
          exact absurd hfolder hlibrary
  | library first folder name hfirst =>
      cases hother with
      | folder folder' name' _ =>
          have hlength := hbegins.length_le
          simp at hlength
      | library first' folder' name' _ => exact hbegins.eq_of_length (by simp)

theorem isExecutable_of_isNestedBundle
    (hbundle : isNestedBundle entry = true) : isExecutable entry = true := by
  have hall : ∀ extension ∈ nestedBundleExtensions,
      (!(decide (extension ∈ libraryExtensions) ||
        extension == text ".framework")) = true := by
    decide
  exact hall _ (of_decide_eq_true hbundle)

end

/-! ## The order -/

/-- The items of the bundle, each once, what lies inside another before it,
and the bundle at the end. -/
structure InsideOut (contents : List BundlePath) (bundlePath : BundlePath)
    (order : List SignTarget) : Prop where
  members : ∀ target, target ∈ order ↔ target = ⟨bundlePath, true⟩ ∨
    IsItem contents bundlePath target.path ∧
      target.isExecutable = isExecutable target.path
  once : (order.map SignTarget.path).Nodup
  inside_out : order.Pairwise fun earlier later =>
    isWithin earlier.path later.path = false
  last : order.getLast? = some ⟨bundlePath, true⟩

section

variable {root : Text} {contents : List BundlePath}

theorem pairwise_comesFirst (targets : List SignTarget) :
    (targets.mergeSort (comesFirst root)).Pairwise fun earlier later =>
      later.path.length ≤ earlier.path.length := by
  have htrans : ∀ a b c, comesFirst root a b = true →
      comesFirst root b c = true → comesFirst root a c = true := by
    intro a b c hab hbc
    simp only [comesFirst, Bool.or_eq_true, Bool.and_eq_true,
      decide_eq_true_eq] at hab hbc ⊢
    rcases hab with hab | ⟨hab, htext⟩
    · rcases hbc with hbc | ⟨hbc, -⟩ <;> left <;> omega
    · rcases hbc with hbc | ⟨hbc, htext'⟩
      · left
        omega
      · right
        exact ⟨by omega, List.le_trans htext htext'⟩
  have htotal : ∀ a b, (comesFirst root a b || comesFirst root b a) =
      true := by
    intro a b
    simp only [comesFirst, Bool.or_eq_true, Bool.and_eq_true,
      decide_eq_true_eq]
    rcases lt_trichotomy a.path.length b.path.length with hlt | heq | hlt
    · exact Or.inr (Or.inl hlt)
    · rcases List.le_total (fullText root a.path) (fullText root b.path) with
        hle | hle
      · exact Or.inl (Or.inr ⟨heq, hle⟩)
      · exact Or.inr (Or.inr ⟨heq.symm, hle⟩)
    · exact Or.inl (Or.inl hlt)
  apply (List.pairwise_mergeSort htrans htotal targets).imp
  intro a b hab
  simp only [comesFirst, Bool.or_eq_true, Bool.and_eq_true,
    decide_eq_true_eq] at hab
  omega

/-- The items that an entry stands for, each once. -/
structure Adds (contents : List BundlePath) (bundlePath entry : BundlePath)
    (added : List SignTarget) : Prop where
  members : ∀ target, target ∈ added ↔ InCodeFolder bundlePath entry ∧
    target.isExecutable = isExecutable target.path ∧
      (target.path = entry ∨ isNestedBundle entry = true ∧
        IsItem contents entry target.path)
  once : (added.map SignTarget.path).Nodup

theorem isItem_iff {bundlePath path : BundlePath} :
    IsItem contents bundlePath path ↔ ∃ entry ∈ contents,
      InCodeFolder bundlePath entry ∧ (path = entry ∨
        isNestedBundle entry = true ∧ IsItem contents entry path) := by
  constructor
  · intro hitem
    cases hitem with
    | direct hlisted hcode => exact ⟨path, hlisted, hcode, Or.inl rfl⟩
    | inner hlisted hcode hbundle hinner =>
        exact ⟨_, hlisted, hcode, Or.inr ⟨hbundle, hinner⟩⟩
  · intro hentry
    rcases hentry with ⟨entry, hlisted, hcode, hpath | ⟨hbundle, hinner⟩⟩
    · rw [hpath]
      exact .direct hlisted hcode
    · exact .inner hlisted hcode hbundle hinner

theorem Adds.begins {bundlePath entry : BundlePath}
    {added : List SignTarget} {target : SignTarget}
    (hadds : Adds contents bundlePath entry added)
    (htarget : target ∈ added) : entry <+: target.path := by
  rcases ((hadds.members target).mp htarget).2.2 with hpath | ⟨-, hinner⟩
  · rw [hpath]
  · rcases isWithin_iff.mp (isWithin_of_isItem hinner) with ⟨names, -, hpath⟩
    exact ⟨names, hpath.symm⟩

/-- Two entries add nothing in common. -/
theorem disjoint_of_adds {bundlePath entry other : BundlePath}
    {added others : List SignTarget} (hne : entry ≠ other)
    (hadds : Adds contents bundlePath entry added)
    (hothers : Adds contents bundlePath other others) :
    List.Disjoint (added.map SignTarget.path)
      (others.map SignTarget.path) := by
  intro path hpath hpath'
  rcases List.mem_map.mp hpath with ⟨target, htarget, rfl⟩
  rcases List.mem_map.mp hpath' with ⟨target', htarget', hsame⟩
  have hcode := ((hadds.members target).mp htarget).1
  have hcode' := ((hothers.members target').mp htarget').1
  have hbegins := hadds.begins htarget
  have hbegins' := hothers.begins htarget'
  rw [hsame] at hbegins'
  rcases List.prefix_or_prefix_of_prefix hbegins hbegins' with hle | hle
  · exact hne (eq_of_inCodeFolder hcode hcode' hle)
  · exact hne (eq_of_inCodeFolder hcode' hcode hle).symm

/-- What the entries add, sorted, with the bundle behind it. -/
theorem insideOut_of_adds {bundlePath : BundlePath}
    {value : BundlePath → List SignTarget} (hnodup : contents.Nodup)
    (hadds : ∀ entry ∈ contents,
      Adds contents bundlePath entry (value entry)) :
    InsideOut contents bundlePath
      ((contents.flatMap value).mergeSort (comesFirst root) ++
        [⟨bundlePath, true⟩]) := by
  have hsorted : ∀ target,
      target ∈ (contents.flatMap value).mergeSort (comesFirst root) ↔
        IsItem contents bundlePath target.path ∧
          target.isExecutable = isExecutable target.path := by
    intro target
    rw [List.mem_mergeSort, List.mem_flatMap, isItem_iff]
    constructor
    · intro hentry
      rcases hentry with ⟨entry, hlisted, htarget⟩
      rcases ((hadds entry hlisted).members target).mp htarget with
        ⟨hcode, hexecutable, hpath⟩
      exact ⟨⟨entry, hlisted, hcode, hpath⟩, hexecutable⟩
    · intro hitem
      rcases hitem with ⟨⟨entry, hlisted, hcode, hpath⟩, hexecutable⟩
      exact ⟨entry, hlisted,
        ((hadds entry hlisted).members target).mpr
          ⟨hcode, hexecutable, hpath⟩⟩
  have hwithin : ∀ target ∈
      (contents.flatMap value).mergeSort (comesFirst root),
        isWithin bundlePath target.path = true := by
    intro target htarget
    exact isWithin_of_isItem ((hsorted target).mp htarget).1
  constructor
  · intro target
    rw [List.mem_append, List.mem_singleton, hsorted]
    exact or_comm
  · rw [List.map_append, List.nodup_append]
    refine ⟨?_, List.nodup_singleton _, ?_⟩
    · have hperm := (List.mergeSort_perm (contents.flatMap value)
        (comesFirst root)).map SignTarget.path
      rw [hperm.nodup_iff, List.map_flatMap, List.nodup_flatMap]
      constructor
      · intro entry hlisted
        exact (hadds entry hlisted).once
      · apply List.Pairwise.imp_of_mem _ hnodup
        intro entry other hentry hother hne
        exact disjoint_of_adds hne (hadds entry hentry) (hadds other hother)
    · intro path hpath other hother
      rcases List.mem_map.mp hpath with ⟨target, htarget, rfl⟩
      have hbundle : other = bundlePath := by simpa using hother
      have hlt := length_lt_of_isWithin (hwithin target htarget)
      intro hsame
      rw [hsame, hbundle] at hlt
      exact lt_irrefl _ hlt
  · rw [List.pairwise_append]
    refine ⟨?_, List.pairwise_singleton _ _, ?_⟩
    · apply (pairwise_comesFirst (contents.flatMap value)).imp
      intro earlier later hle
      apply Bool.eq_false_of_not_eq_true
      intro hinside
      exact absurd (length_lt_of_isWithin hinside) (by omega)
    · intro target htarget other hother
      have hlt := length_lt_of_isWithin (hwithin target htarget)
      rw [List.mem_singleton.mp hother]
      apply Bool.eq_false_of_not_eq_true
      intro hinside
      exact lt_asymm hlt (length_lt_of_isWithin hinside)
  · exact List.getLast?_concat

/-- What is listed within a listed bundle is less than what is listed within
the bundle around it. -/
theorem length_within_lt {bundlePath entry : BundlePath}
    (hlisted : entry ∈ contents) (hcode : InCodeFolder bundlePath entry) :
    (contents.filter (isWithin entry)).length <
      (contents.filter (isWithin bundlePath)).length := by
  have hwithin := isWithin_of_inCodeFolder hcode
  have hfilter : contents.filter (isWithin entry) =
      (contents.filter (isWithin bundlePath)).filter (isWithin entry) := by
    rw [List.filter_filter]
    apply List.filter_congr
    intro path _
    cases hinner : isWithin entry path with
    | true => rw [isWithin_trans hwithin hinner, Bool.and_self]
    | false => rfl
  rw [hfilter, List.length_filter_lt_length_iff_exists]
  refine ⟨entry, List.mem_filter.mpr ⟨hlisted, hwithin⟩, ?_⟩
  intro hself
  exact lt_irrefl _ (length_lt_of_isWithin hself)

/-- An entry whose bundle is signed inside out is signed so itself. -/
theorem exists_addFor {bundlePath entry : BundlePath}
    {inner : BundlePath → Option (List SignTarget)}
    (hinner : InCodeFolder bundlePath entry → isNestedBundle entry = true →
      ∃ order, inner entry = some order ∧ InsideOut contents entry order) :
    ∃ added, addFor inner (bundlePath ++ [contentsName]) entry = some added ∧
      Adds contents bundlePath entry added := by
  have htarget : ∀ target : SignTarget, target = ⟨entry, isExecutable entry⟩ ↔
      target.isExecutable = isExecutable target.path ∧
        target.path = entry := by
    intro target
    constructor
    · intro hsame
      rw [hsame]
      exact ⟨rfl, rfl⟩
    · intro hsame
      rcases target with ⟨path, executable⟩
      rcases hsame with ⟨hexecutable, hpath⟩
      simp only at hexecutable hpath
      rw [hexecutable, hpath]
  by_cases hcode : InCodeFolder bundlePath entry
  · have hnested := isNestedCode_iff.mpr hcode
    by_cases hbundle : isNestedBundle entry = true
    · rcases hinner hcode hbundle with ⟨order, horder, hinside⟩
      refine ⟨order, by simpa [addFor, hnested, hbundle] using horder, ?_,
        hinside.once⟩
      intro target
      have hentry : (⟨entry, true⟩ : SignTarget) =
          ⟨entry, isExecutable entry⟩ := by
        rw [isExecutable_of_isNestedBundle hbundle]
      rw [hinside.members, hentry, htarget]
      constructor
      · intro hitem
        rcases hitem with ⟨hexecutable, hpath⟩ | ⟨hitem, hexecutable⟩
        · exact ⟨hcode, hexecutable, Or.inl hpath⟩
        · exact ⟨hcode, hexecutable, Or.inr ⟨hbundle, hitem⟩⟩
      · intro hitem
        rcases hitem with ⟨-, hexecutable, hpath | ⟨-, hitem⟩⟩
        · exact Or.inl ⟨hexecutable, hpath⟩
        · exact Or.inr ⟨hitem, hexecutable⟩
    · refine ⟨[⟨entry, isExecutable entry⟩],
        by simp [addFor, hnested, hbundle], ?_, List.nodup_singleton _⟩
      intro target
      rw [List.mem_singleton, htarget]
      simp [hcode, hbundle]
  · have hnested := Bool.eq_false_of_not_eq_true (mt isNestedCode_iff.mp hcode)
    refine ⟨[], by simp [addFor, hnested], ?_, List.nodup_nil⟩
    intro target
    simp [hcode]

theorem exists_insideOut_of_lt (hnodup : contents.Nodup) (fuel : Nat) :
    ∀ bundlePath, (contents.filter (isWithin bundlePath)).length < fuel →
      ∃ order, insideOut root contents fuel bundlePath = some order ∧
        InsideOut contents bundlePath order := by
  induction fuel with
  | zero =>
      intro bundlePath hlt
      exact absurd hlt (Nat.not_lt_zero _)
  | succ fuel ih =>
      intro bundlePath hlt
      let step := addFor (insideOut root contents fuel)
        (bundlePath ++ [contentsName])
      have hsteps : ∀ entry ∈ contents,
          step entry = some ((step entry).getD []) ∧
            Adds contents bundlePath entry ((step entry).getD []) := by
        intro entry hlisted
        have hadded := @exists_addFor contents bundlePath entry
          (insideOut root contents fuel) fun hcode _ => by
            have hless := length_within_lt hlisted hcode
            exact ih entry (by omega)
        rcases hadded with ⟨added, hstep, hadds⟩
        have hvalue : step entry = some added := hstep
        rw [hvalue]
        exact ⟨rfl, hadds⟩
      have hall := FallibleSteps.mapM_eq_some_map
        fun entry hlisted => (hsteps entry hlisted).1
      have hinside := @insideOut_of_adds root contents bundlePath _ hnodup
        fun entry hlisted => (hsteps entry hlisted).2
      refine ⟨_, ?_, hinside⟩
      rw [insideOut, hall]
      rfl

/-- More steps down change nothing. -/
theorem insideOut_succ {fuel : Nat} :
    ∀ {bundlePath : BundlePath} {order : List SignTarget},
      insideOut root contents fuel bundlePath = some order →
        insideOut root contents (fuel + 1) bundlePath = some order := by
  induction fuel with
  | zero =>
      intro bundlePath order horder
      cases horder
  | succ fuel ih =>
      intro bundlePath order horder
      rw [insideOut] at horder ⊢
      rcases Option.bind_eq_some_iff.mp horder with ⟨nested, hnested, hsorted⟩
      apply Option.bind_eq_some_iff.mpr
      refine ⟨nested, ?_, hsorted⟩
      apply FallibleSteps.mapM_eq_some_of_imp _ hnested
      intro entry added hadded
      unfold addFor at hadded ⊢
      split at hadded
      · rename_i hcode
        rwa [if_pos hcode]
      · rename_i hcode
        rw [if_neg hcode]
        split at hadded
        · rename_i hbundle
          rw [if_pos hbundle]
          exact ih hadded
        · rename_i hbundle
          rwa [if_neg hbundle]

theorem insideOut_of_le {fuel more : Nat} {bundlePath : BundlePath}
    {order : List SignTarget}
    (horder : insideOut root contents fuel bundlePath = some order)
    (hle : fuel ≤ more) :
    insideOut root contents more bundlePath = some order := by
  induction hle with
  | refl => exact horder
  | step _ ih => exact insideOut_succ ih

end

section

def macosName : EntryName where
  units := text "MacOS"
  filled := by decide
  proper := by decide
  whole := by decide

def helpersName : EntryName where
  units := text "Helpers"
  filled := by decide
  proper := by decide
  whole := by decide

def helperApp : EntryName where
  units := text "Helper.app"
  filled := by decide
  proper := by decide
  whole := by decide

def probeName : EntryName where
  units := text "Probe"
  filled := by decide
  proper := by decide
  whole := by decide

/-- A program, a bundle inside the bundle and the program of that. -/
def probeContents : List BundlePath :=
  [[contentsName, macosName, probeName],
    [contentsName, helpersName, helperApp],
    [contentsName, helpersName, helperApp, contentsName, macosName, probeName]]

end

end SignOrder

end Dovetail.Signer
