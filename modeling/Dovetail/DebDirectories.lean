import Dovetail.LinuxPayloads

/-!
# The directories of a data archive

`dpkg` makes no directory on its own, so that `DebBundler.directoriesFor`
lists the directories of all members: each of them once, and after those it
is in.
-/

namespace Dovetail.Bundler.Linux

open CodeUnits

/-- The names between the slashes of a path. -/
def partsOf (path : Text) : List Text :=
  (path.splitOn slash).filter (· ≠ [])

/-- What the bundler uses of `package:path`, in the style of POSIX and for
relative paths. -/
structure PosixPaths where
  dirname : Text → Text
  split : Text → List Text
  split_relative : ∀ path : Text, path.head? ≠ some slash →
    split path = partsOf path
  dirname_name : ∀ (name : Text) (trailing : Nat), slash ∉ name →
    (name = [] → trailing = 0) →
    dirname (name ++ List.replicate trailing slash) = text "."
  dirname_below : ∀ (directory name : Text) (between trailing : Nat),
    directory.head? ≠ some slash → directory ≠ [] →
    directory.getLast? ≠ some slash → slash ∉ name → name ≠ [] →
    dirname (directory ++ (List.replicate (between + 1) slash ++
      (name ++ List.replicate trailing slash))) = directory

namespace DebBundler

/-- The path that was walked, with one more name at its end. -/
def walk (state : Text × List Text) (segment : Text) : Text × List Text :=
  if segment = [] ∨ segment = text "." then state
  else
    let walked :=
      if state.1 = [] then segment else state.1 ++ slash :: segment
    (walked, state.2 ++ [walked ++ [slash]])

def directoriesOf (paths : PosixPaths) (member : Text) : List Text :=
  ((paths.split (paths.dirname member)).foldl walk ([], [])).2

/-- The directories, as a sorted set has them. -/
def directoriesFor (paths : PosixPaths) (members : List Text) : List Text :=
  (members.flatMap (directoriesOf paths)).dedup.insertionSort (· ≤ ·)

/-! ## What is to be listed -/

/-- The names of the directories that a member is in, from the outermost. -/
def directoryNames (member : Text) : List Text :=
  (partsOf member).dropLast.filter (· ≠ text ".")

def directoryEntry (names : List Text) : Text :=
  names.flatMap fun name => name ++ [slash]

structure ListsDirectories (members directories : List Text) : Prop where
  complete : ∀ directory, directory ∈ directories ↔
    ∃ member ∈ members, ∃ names, names ≠ [] ∧
      names <+: directoryNames member ∧ directory = directoryEntry names
  once : directories.Nodup
  parentsFirst : ∀ parent child, parent <+: child → parent ≠ child →
    directoryEntry parent ∈ directories →
    directoryEntry child ∈ directories →
    [directoryEntry parent, directoryEntry child].Sublist directories

end DebBundler

/-! ## Parts -/

theorem partsOf_append (before after : Text) :
    partsOf (before ++ slash :: after) = partsOf before ++ partsOf after := by
  unfold partsOf
  rw [List.splitOn_eq_splitOnP, List.splitOn_eq_splitOnP,
    List.splitOn_eq_splitOnP, List.splitOnP_append_cons _ _ (by simp),
    List.filter_append]

theorem partsOf_name {name : Text} (hslash : slash ∉ name) :
    partsOf name = [name].filter (· ≠ []) := by
  unfold partsOf
  rw [List.splitOn_eq_splitOnP, List.splitOnP_eq_singleton]
  intro unit hunit
  simpa using ne_of_mem_of_not_mem hunit hslash

theorem partsOf_append_slashes (before : Text) (count : Nat) :
    partsOf (before ++ List.replicate count slash) = partsOf before := by
  induction count with
  | zero => rw [List.replicate_zero, List.append_nil]
  | succ count ih =>
      rw [List.replicate_succ', ← List.append_assoc, partsOf_append, ih]
      simp [partsOf]

theorem partsOf_below {directory name : Text} (hslash : slash ∉ name)
    (hname : name ≠ []) (between trailing : Nat) :
    partsOf (directory ++ (List.replicate (between + 1) slash ++
        (name ++ List.replicate trailing slash))) =
      partsOf directory ++ [name] := by
  have hparts : [name].filter (· ≠ []) = [name] := by simp [hname]
  rw [List.replicate_succ', List.append_assoc, ← List.append_assoc,
    List.singleton_append, partsOf_append, partsOf_append_slashes,
    partsOf_append_slashes, partsOf_name hslash, hparts]

/-! ## Shapes of a path -/

theorem exists_trailing (path : Text) :
    ∃ body count, path = body ++ List.replicate count slash ∧
      body.getLast? ≠ some slash := by
  induction path using List.reverseRecOn with
  | nil => exact ⟨[], 0, rfl, by simp⟩
  | append_singleton before unit ih =>
      by_cases hunit : unit = slash
      · rcases ih with ⟨body, count, rfl, hbody⟩
        refine ⟨body, count + 1, ?_, hbody⟩
        rw [hunit, List.replicate_succ', List.append_assoc]
      · exact ⟨before ++ [unit], 0, by simp, by simpa using hunit⟩

theorem exists_name (path : Text) :
    slash ∉ path ∨ ∃ before name, slash ∉ name ∧
      path = before ++ slash :: name := by
  induction path using List.reverseRecOn with
  | nil => simp
  | append_singleton before unit ih =>
      by_cases hunit : unit = slash
      · exact Or.inr ⟨before, [], by simp, by rw [hunit]⟩
      · rcases ih with hname | ⟨front, name, hname, rfl⟩
        · left
          simp [hname, Ne.symm hunit]
        · right
          refine ⟨front, name ++ [unit], ?_, by simp⟩
          simp [hname, Ne.symm hunit]

/-- A relative path is a name, or a name below a directory. -/
theorem relative_cases {path : Text} (hpath : path.head? ≠ some slash) :
    (∃ name trailing, slash ∉ name ∧ (name = [] → trailing = 0) ∧
      path = name ++ List.replicate trailing slash) ∨
    ∃ directory name between trailing, directory.head? ≠ some slash ∧
      directory ≠ [] ∧ directory.getLast? ≠ some slash ∧ slash ∉ name ∧
      name ≠ [] ∧ path = directory ++ (List.replicate (between + 1) slash ++
        (name ++ List.replicate trailing slash)) := by
  rcases exists_trailing path with ⟨body, trailing, rfl, hbody⟩
  rcases exists_name body with hname | ⟨before, name, hname, rfl⟩
  · left
    refine ⟨body, trailing, hname, ?_, rfl⟩
    rintro rfl
    cases trailing with
    | zero => rfl
    | succ trailing =>
        rw [List.nil_append, List.replicate_succ] at hpath
        exact absurd rfl hpath
  · right
    rcases exists_trailing before with ⟨directory, between, rfl, hlast⟩
    have hne : directory ≠ [] := by
      rintro rfl
      apply hpath
      cases between <;> rfl
    refine ⟨directory, name, between, trailing, ?_, hne, hlast, hname, ?_, ?_⟩
    · rcases List.exists_cons_of_ne_nil hne with ⟨unit, rest, rfl⟩
      exact hpath
    · rintro rfl
      simp at hbody
    · rw [List.replicate_succ']
      simp only [List.append_assoc, List.cons_append, List.nil_append]

namespace DebBundler

theorem mem_partsOf_ne_nil {path name : Text} (hname : name ∈ partsOf path) :
    name ≠ [] := by
  simpa using (List.mem_filter.mp hname).2

/-- What is walked for a member is the directories it is in. -/
theorem filter_split_dirname (paths : PosixPaths) {member : Text}
    (hmember : member.head? ≠ some slash) :
    (paths.split (paths.dirname member)).filter
        (fun segment => segment ≠ [] ∧ segment ≠ text ".") =
      directoryNames member := by
  have hboth (names : List Text) (hnames : ∀ name ∈ names, name ≠ []) :
      names.filter (fun segment => segment ≠ [] ∧ segment ≠ text ".") =
        names.filter (· ≠ text ".") := by
    apply List.filter_congr
    intro name hname
    simp [hnames name hname]
  unfold directoryNames
  rcases relative_cases hmember with
    ⟨name, trailing, hslash, hnone, rfl⟩ |
    ⟨directory, name, between, trailing, hhead, hne, hlast, hslash, hname,
      rfl⟩
  · have hcurrent : (paths.split (text ".")).filter
        (fun segment => segment ≠ [] ∧ segment ≠ text ".") = [] := by
      rw [paths.split_relative (text ".") (by decide)]
      decide
    rw [paths.dirname_name name trailing hslash hnone, hcurrent,
      partsOf_append_slashes, partsOf_name hslash]
    by_cases hname : name = [] <;> simp [hname]
  · rw [paths.dirname_below directory name between trailing hhead hne hlast
      hslash hname, paths.split_relative directory hhead,
      partsOf_below hslash hname, List.dropLast_concat]
    exact hboth _ fun name hname => mem_partsOf_ne_nil hname

/-! ## Walking -/

theorem directoryEntry_concat (names : List Text) (name : Text) :
    directoryEntry (names ++ [name]) =
      directoryEntry names ++ (name ++ [slash]) := by
  simp [directoryEntry]

/-- The entries that are added behind the names that were walked. -/
def passed (names : List Text) : List Text → List Text
  | [] => []
  | name :: rest =>
      directoryEntry (names ++ [name]) :: passed (names ++ [name]) rest

theorem mem_passed {directory : Text} {names rest : List Text} :
    directory ∈ passed names rest ↔
      ∃ more, more ≠ [] ∧ more <+: rest ∧
        directory = directoryEntry (names ++ more) := by
  induction rest generalizing names with
  | nil => simp [passed]
  | cons name rest ih =>
      rw [passed, List.mem_cons, ih]
      constructor
      · rintro (rfl | ⟨more, -, hstarts, rfl⟩)
        · exact ⟨[name], by simp, by simp, rfl⟩
        · exact ⟨name :: more, by simp, by simpa using hstarts, by simp⟩
      · rintro ⟨more, hne, hstarts, rfl⟩
        rcases List.exists_cons_of_ne_nil hne with ⟨first, others, rfl⟩
        rw [List.cons_prefix_cons] at hstarts
        rcases hstarts with ⟨rfl, hothers⟩
        by_cases hnone : others = []
        · left
          rw [hnone]
        · right
          exact ⟨others, hnone, hothers, by simp⟩

/-- One more name is behind a slash, except for the first one. -/
theorem walk_entry {names : List Text} (hnames : ∀ name ∈ names, name ≠ [])
    {name : Text} (hname : name ≠ []) (hcurrent : name ≠ text ".")
    (added : List Text) :
    walk ((directoryEntry names).dropLast, added) name =
      ((directoryEntry (names ++ [name])).dropLast,
        added ++ [directoryEntry (names ++ [name])]) := by
  have hended : (directoryEntry (names ++ [name])).dropLast =
      directoryEntry names ++ name := by
    rw [directoryEntry_concat, ← List.append_assoc, List.dropLast_concat]
  have hwalked : (if (directoryEntry names).dropLast = [] then name
      else (directoryEntry names).dropLast ++ slash :: name) =
        directoryEntry names ++ name := by
    cases names using List.reverseRecOn with
    | nil => rfl
    | append_singleton before last =>
        have hlast : (directoryEntry (before ++ [last])).dropLast =
            directoryEntry before ++ last := by
          rw [directoryEntry_concat, ← List.append_assoc,
            List.dropLast_concat]
        have hne : directoryEntry before ++ last ≠ [] := by
          intro hnil
          exact hnames last (by simp) (List.append_eq_nil_iff.mp hnil).2
        rw [hlast, if_neg hne, directoryEntry_concat]
        simp only [List.append_assoc, List.singleton_append]
  have hcase : ¬ (name = [] ∨ name = text ".") := by simp [hname, hcurrent]
  rw [walk, if_neg hcase, hended]
  simp only [hwalked]
  rw [directoryEntry_concat, List.append_assoc]

theorem foldl_walk {names : List Text} (hnames : ∀ name ∈ names, name ≠ [])
    (segments added : List Text) :
    (segments.foldl walk ((directoryEntry names).dropLast, added)).2 =
      added ++ passed names (segments.filter
        fun segment => segment ≠ [] ∧ segment ≠ text ".") := by
  induction segments generalizing names added with
  | nil => simp [passed]
  | cons segment rest ih =>
      rw [List.foldl_cons]
      by_cases hsegment : segment ≠ [] ∧ segment ≠ text "."
      · have hmore : ∀ name ∈ names ++ [segment], name ≠ [] := by
          intro name hname
          rcases List.mem_append.mp hname with hbefore | hlast
          · exact hnames name hbefore
          · rw [List.mem_singleton.mp hlast]
            exact hsegment.1
        rw [walk_entry hnames hsegment.1 hsegment.2, ih hmore,
          List.filter_cons_of_pos (by simpa using hsegment), passed,
          List.append_assoc, List.singleton_append]
      · have hskip : segment = [] ∨ segment = text "." := by tauto
        rw [walk, if_pos hskip, ih hnames,
          List.filter_cons_of_neg (by simpa using hsegment)]

theorem mem_directoriesOf (paths : PosixPaths) {member : Text}
    (hmember : member.head? ≠ some slash) (directory : Text) :
    directory ∈ directoriesOf paths member ↔
      ∃ names, names ≠ [] ∧ names <+: directoryNames member ∧
        directory = directoryEntry names := by
  have hwalk := @foldl_walk [] (by simp)
    (paths.split (paths.dirname member)) []
  have hstart : (directoryEntry []).dropLast = [] := rfl
  rw [hstart, filter_split_dirname paths hmember, List.nil_append] at hwalk
  rw [directoriesOf, hwalk, mem_passed]
  simp only [List.nil_append]

/-! ## Order -/

theorem sublist_of_not_after {Entry : Type} {before : Entry → Entry → Prop}
    {entries : List Entry} (hsorted : entries.Pairwise before)
    {first second : Entry} (hfirst : first ∈ entries)
    (hsecond : second ∈ entries) (hne : first ≠ second)
    (hnot : ¬ before second first) : [first, second].Sublist entries := by
  induction entries with
  | nil => cases hfirst
  | cons entry rest ih =>
      rw [List.pairwise_cons] at hsorted
      rcases List.mem_cons.mp hfirst with rfl | hinside
      · have hrest := List.mem_of_ne_of_mem hne.symm hsecond
        exact (List.singleton_sublist.mpr hrest).cons_cons first
      · rcases List.mem_cons.mp hsecond with rfl | hrest
        · exact absurd (hsorted.1 first hinside) hnot
        · exact (ih hsorted.2 hinside hrest).cons entry

theorem directoryEntry_ne {parent child : List Text}
    (hstarts : parent <+: child) (hne : parent ≠ child) :
    directoryEntry parent ≠ directoryEntry child := by
  rcases hstarts with ⟨more, rfl⟩
  have happend : directoryEntry (parent ++ more) =
      directoryEntry parent ++ directoryEntry more := by
    simp [directoryEntry]
  rw [happend]
  intro hsame
  have hmore := List.self_eq_append_right.mp hsame
  cases more with
  | nil => simp at hne
  | cons name rest => simp [directoryEntry] at hmore

theorem directoryEntry_isPrefix {parent child : List Text}
    (hstarts : parent <+: child) :
    directoryEntry parent <+: directoryEntry child := by
  rcases hstarts with ⟨more, rfl⟩
  exact ⟨directoryEntry more, by simp [directoryEntry]⟩

/-- Every directory of a member is listed once, behind its parents. -/
theorem listsDirectories (paths : PosixPaths) {members : List Text}
    (hmembers : ∀ member ∈ members, member.head? ≠ some slash) :
    ListsDirectories members (directoriesFor paths members) where
  complete directory := by
    rw [directoriesFor, List.mem_insertionSort, List.mem_dedup,
      List.mem_flatMap]
    constructor
    · rintro ⟨member, hmember, hdirectory⟩
      exact ⟨member, hmember,
        (mem_directoriesOf paths (hmembers member hmember) _).mp hdirectory⟩
    · rintro ⟨member, hmember, hdirectory⟩
      exact ⟨member, hmember,
        (mem_directoriesOf paths (hmembers member hmember) _).mpr hdirectory⟩
  once := by
    rw [directoriesFor, (List.perm_insertionSort _ _).nodup_iff]
    exact List.nodup_dedup _
  parentsFirst parent child hstarts hne hparent hchild := by
    have hdifferent := directoryEntry_ne hstarts hne
    apply sublist_of_not_after (List.pairwise_insertionSort (· ≤ ·) _)
    · exact hparent
    · exact hchild
    · exact hdifferent
    · intro hbefore
      have hafter := (directoryEntry_isPrefix hstarts).le
      exact hdifferent (List.le_antisymm hafter hbefore)

/-! ## Members of a data archive -/

variable {build : LinuxBuild} {spec : InstallerSpec}

theorem head?_withoutLeadingSlashes (path : Text) :
    (withoutLeadingSlashes path).head? ≠ some slash := by
  intro hslash
  have hfirst := List.head?_dropWhile_not (fun unit => decide (unit = slash))
    path
  unfold withoutLeadingSlashes at hslash
  rw [hslash] at hfirst
  simp at hfirst

theorem head?_own {file : Text × Content} {mode : Nat}
    (hfile : file ∈ own build spec mode) : file.1.head? ≠ some slash := by
  have hicons : ∀ file ∈ icons build spec mode,
      file.1.head? = some 117 := by
    intro file hfile
    unfold icons at hfile
    split at hfile
    · cases hfile
    · rcases List.mem_map.mp hfile with ⟨themed, hthemed, rfl⟩
      rcases List.mem_map.mp hthemed with ⟨edge, -, rfl⟩
      rfl
  have hservice : ∀ file ∈ service build mode, file.1.head? = some 117 := by
    intro file hfile
    unfold service at hfile
    rcases List.mem_append.mp hfile with hunit | hpolicy
    · rcases Option.map_eq_some_iff.mp (Option.mem_toList.mp hunit) with
        ⟨unit, -, rfl⟩
      rfl
    · rcases Option.map_eq_some_iff.mp (Option.mem_toList.mp hpolicy) with
        ⟨policy, -, rfl⟩
      rfl
  have hhead : file.1.head? = some 117 := by
    unfold own at hfile
    rcases List.mem_append.mp hfile with hfirst | hlast
    · rcases List.mem_append.mp hfirst with hdesktop | hicon
      · rw [List.mem_singleton.mp hdesktop]
        rfl
      · exact hicons file hicon
    · exact hservice file hlast
  rw [hhead]
  decide

/-- No member of a data archive has an absolute name. -/
theorem head?_of_data {payload : Payload}
    (hdata : data build spec = .ok payload) :
    ∀ member ∈ payload.map (·.1), member.head? ≠ some slash := by
  rcases FallibleSteps.bind_eq_ok_iff.mp hdata with ⟨app, happ, hrest⟩
  rcases FallibleSteps.bind_eq_ok_iff.mp hrest with ⟨staged, hstaged, hall⟩
  have hpayload : payload = app ++ staged ++ own build spec memberMode := by
    rw [← Except.ok.inj hall]
    simp only [own, List.append_assoc]
  intro member hmember
  rcases List.mem_map.mp hmember with ⟨file, hfile, rfl⟩
  rw [hpayload, List.mem_append, List.mem_append] at hfile
  rcases hfile with (happlication | hstage) | hown
  · unfold application at happ
    split at happ
    · cases happ
    · split at happ
      · cases happ
      · cases happ
        rcases List.mem_map.mp happlication with ⟨listed, -, rfl⟩
        intro hslash
        cases hslash
  · rcases FallibleSteps.exists_item_of_mapM_eq_ok hstaged hstage with
      ⟨source, -, hsource⟩
    rw [stage_eq_ok hsource]
    exact head?_withoutLeadingSlashes source.destination
  · exact head?_own hown

end DebBundler

/-! ## The paths of POSIX -/

namespace Posix

def dirname (path : Text) : Text :=
  let body := path.rdropWhile fun unit => unit = slash
  let directory := (body.rdropWhile fun unit => unit ≠ slash).rdropWhile
    fun unit => unit = slash
  if path ≠ [] ∧ body = [] then [slash]
  else if slash ∉ body then text "."
  else if directory = [] then [slash]
  else directory

def split (path : Text) : List Text :=
  (if path.head? = some slash then [[slash]] else []) ++ partsOf path

theorem rdropWhile_slashes {body : Text} (hbody : body.getLast? ≠ some slash)
    (count : Nat) :
    (body ++ List.replicate count slash).rdropWhile
      (fun unit => decide (unit = slash)) = body := by
  apply rdropWhile_append_of_forall
  · apply rdropWhile_eq_self
    intro unit hunit
    rw [hunit] at hbody
    simpa using hbody
  · intro unit hunit
    simpa using List.eq_of_mem_replicate hunit

theorem dirname_name {name : Text} (hslash : slash ∉ name) {trailing : Nat}
    (hnone : name = [] → trailing = 0) :
    dirname (name ++ List.replicate trailing slash) = text "." := by
  have hlast : name.getLast? ≠ some slash := fun hlast =>
    hslash (List.mem_of_getLast? hlast)
  have hroot : ¬ (name ++ List.replicate trailing slash ≠ [] ∧ name = []) := by
    rintro ⟨hne, rfl⟩
    apply hne
    rw [hnone rfl]
    rfl
  unfold dirname
  simp only [rdropWhile_slashes hlast, if_neg hroot, if_pos hslash]

theorem dirname_below {directory name : Text} (hne : directory ≠ [])
    (hlast : directory.getLast? ≠ some slash) (hslash : slash ∉ name)
    (hname : name ≠ []) (between trailing : Nat) :
    dirname (directory ++ (List.replicate (between + 1) slash ++
      (name ++ List.replicate trailing slash))) = directory := by
  have hend : (directory ++ (List.replicate (between + 1) slash ++
      name)).getLast? ≠ some slash := by
    rw [← List.append_assoc, List.getLast?_append_of_ne_nil _ hname]
    exact fun hlast => hslash (List.mem_of_getLast? hlast)
  have hbody := rdropWhile_slashes hend trailing
  have hdirectory : (directory ++ (List.replicate (between + 1) slash ++
      name)).rdropWhile (fun unit => decide (unit ≠ slash)) =
        directory ++ List.replicate (between + 1) slash := by
    rw [← List.append_assoc]
    apply rdropWhile_append_of_forall
    · apply rdropWhile_eq_self
      intro unit hunit
      rw [List.replicate_succ', ← List.append_assoc,
        List.getLast?_concat] at hunit
      simp [← Option.some.inj hunit]
    · intro unit hunit
      simpa using ne_of_mem_of_not_mem hunit hslash
  have hinside : slash ∈ directory ++ (List.replicate (between + 1) slash ++
      name) := by
    simp
  simp only [List.append_assoc] at hbody
  unfold dirname
  simp only [hbody, hdirectory, rdropWhile_slashes hlast, hinside, hne,
    not_true_eq_false, if_false, List.append_eq_nil_iff, false_and, and_false]

/-- The functions of `package:path` for the paths of POSIX. -/
def paths : PosixPaths where
  dirname := dirname
  split := split
  split_relative path hpath := by
    rw [split, if_neg hpath, List.nil_append]
  dirname_name name trailing hslash hnone := dirname_name hslash hnone
  dirname_below directory name between trailing _ hne hlast hslash hname :=
    dirname_below hne hlast hslash hname between trailing

end Posix

example : DebBundler.directoriesFor Posix.paths
    [text "usr/lib//demo/libapp.so", text "usr/lib/demo.desktop"] =
      [text "usr/", text "usr/lib/", text "usr/lib/demo/"] := by
  decide

end Dovetail.Bundler.Linux
