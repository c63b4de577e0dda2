import Dovetail.CliShipSupply

/-!
# Artefacts on the command line

An artefact is written behind `--artifact` as its platform key, its url
unless it follows from the base url, and its path, with equals signs between
them.  The command takes a comma for the end of an entry and reads as the
path what follows the last equals sign.
-/

namespace Dovetail.Cli.Release

open CodeUnits CommandOptions FallibleSteps

/-! ## What is written -/

structure WrittenArtifact where
  platformKey : Text
  url : Option Text
  path : Text
  known : PlatformKey.validate platformKey = .ok platformKey
  url_ne_nil : url ≠ some []
  path_ne_nil : path ≠ []

namespace WrittenArtifact

variable (written : WrittenArtifact)

def entry : Text :=
  match written.url with
  | none => written.platformKey ++ equals :: written.path
  | some url => written.platformKey ++ equals :: (url ++ equals :: written.path)

/-- Neither the path nor the url has a unit in it that ends it. -/
def Plain : Prop :=
  (equals ∉ written.path ∧ comma ∉ written.path) ∧
    ∀ url ∈ written.url, comma ∉ url

end WrittenArtifact

/-- The words of the command line. -/
def artifactWords (written : List WrittenArtifact) : List Text :=
  words Ship.options (written.map fun artifact =>
    .valued .artifact artifact.entry)

namespace World

variable {Version Date : Type} (world : World Version Date)

/-- A relative path is below the root, where there is one. -/
def resolve (root : Option Text) (path : Text) : Text :=
  match root with
  | none => path
  | some root => if world.isAbsolute path then path else world.join root path

/-- The artefact that was written; one without a url has that of its file
below the base url. -/
def artifactOf (update : Option UpdateConfig) (version : Text)
    (root : Option Text) (written : WrittenArtifact) : Artifact where
  platformKey := written.platformKey
  url := written.url.getD
    (UpdateConfig.urlFor ((update.bind (·.baseUrl)).getD []) version
      (world.basename written.path))
  path := world.resolve root written.path

end World

/-- The command takes the words for the artefacts that were written in every
project where their files are, with a base url where one is needed. -/
def Survive (written : List WrittenArtifact) : Prop :=
  ∀ {Version Date : Type} (world : World Version Date)
    (update : Option UpdateConfig) (version : Text) (root : Option Text)
    (disk : Workspace),
    (∀ artifact ∈ written, artifact.url = none →
      (update.bind (·.baseUrl)).isSome) →
    (∀ artifact ∈ written,
      (disk (world.resolve root artifact.path)).isSome) →
    ∃ arguments, parse Ship.options (artifactWords written) = some arguments ∧
      world.artifactsFrom update version none root disk
          (multi arguments .artifact) =
        .ok (written.map (world.artifactOf update version root))

/-! ## Keys -/

theorem WrittenArtifact.units_of_key (written : WrittenArtifact) :
    written.platformKey ≠ [] ∧ equals ∉ written.platformKey ∧
      comma ∉ written.platformKey := by
  have hall : ∀ key ∈ Ship.knownKeys,
      key ≠ [] ∧ equals ∉ key ∧ comma ∉ key := by decide
  exact hall _ (Ship.mem_knownKeys_of_validate written.known)

/-! ## Reading one entry -/

section

variable {Version Date : Type} {world : World Version Date}
  {update : Option UpdateConfig} {version : Text} {root : Option Text}
  {disk : Workspace} {before : List Artifact}

/-- What follows the last equals sign is the path. -/
theorem equals_not_mem_of_splitEntry {entry url path : Text} {afterKey : Nat}
    (hkey : entry.idxOf? equals = some afterKey)
    (hsplit : world.splitEntry update version entry afterKey =
      .ok (url, path)) : equals ∉ path := by
  have hmem : equals ∈ entry.reverse := by
    rcases List.idxOf?_eq_some_iff.mp hkey with ⟨hlt, hequals, -⟩
    rw [List.mem_reverse, ← hequals]
    exact List.getElem_mem hlt
  rcases List.eq_append_cons_of_mem hmem with
    ⟨later, earlier, hreverse, hlater⟩
  have hentry : entry = earlier.reverse ++ equals :: later.reverse := by
    rw [← List.reverse_reverse entry, hreverse]
    simp
  have hplain : equals ∉ later.reverse := by simpa using hlater
  have hlast := Ship.idxOf_reverse_equals earlier.reverse hplain
  have hdrop := Ship.drop_past earlier.reverse later.reverse
  rw [← hentry] at hlast hdrop
  simp only [World.splitEntry, hlast, hdrop] at hsplit
  by_cases hsame : earlier.reverse.length = afterKey
  · rw [if_pos hsame, ← hsame, hdrop] at hsplit
    split at hsplit
    · cases hsplit
    · cases hsplit
      exact hplain
  · rw [if_neg hsame] at hsplit
    cases hsplit
    exact hplain

theorem equals_not_mem_of_artifactFrom {entry : Text} {artifact : Artifact}
    (hread : world.artifactFrom update version none none disk before entry =
      .ok artifact) : equals ∉ artifact.path := by
  unfold World.artifactFrom at hread
  split at hread
  · cases hread
  · cases hread
  · next afterKey _ hkey =>
      split at hread
      · cases hread
      · rcases bind_eq_ok_iff.mp hread with ⟨⟨url, path⟩, hsplit, hrest⟩
        have hpath := equals_not_mem_of_splitEntry hkey hsplit
        dsimp only at hrest
        split at hrest
        · cases hrest
        · split_ifs at hrest
          · cases hrest
          · cases hrest
          · cases hrest
          · cases hrest
            exact hpath
          · cases hrest

variable {written : WrittenArtifact} (hpath : equals ∉ written.path)
include hpath

/-- The first sign of an entry is behind its key, the last before its
path. -/
theorem splitEntry_entry
    (hbase : written.url = none → (update.bind (·.baseUrl)).isSome) :
    written.entry.idxOf? equals = some written.platformKey.length ∧
      written.entry.take written.platformKey.length = written.platformKey ∧
      written.platformKey.length ≠ written.entry.length - 1 ∧
      world.splitEntry update version written.entry
          written.platformKey.length =
        .ok ((world.artifactOf update version root written).url,
          written.path) := by
  have hkey := written.units_of_key
  have hfirst : ∀ rest, (written.platformKey ++ equals :: rest).idxOf?
      equals = some written.platformKey.length := by
    intro rest
    apply List.idxOf?_eq_some_iff.mpr
    refine ⟨by simp, by simp, ?_⟩
    intro place hplace
    rw [List.getElem_append_left hplace]
    intro hsame
    apply hkey.2.1
    rw [← hsame]
    exact List.getElem_mem hplace
  have hpositive := List.length_pos_iff.mpr written.path_ne_nil
  unfold WrittenArtifact.entry
  cases hurl : written.url with
  | none =>
      have hlast := Ship.idxOf_reverse_equals written.platformKey hpath
      have hdrop := Ship.drop_past written.platformKey written.path
      rcases Option.isSome_iff_exists.mp (hbase hurl) with ⟨base, hfound⟩
      refine ⟨hfirst _, List.take_left, ?_, ?_⟩
      · simp only [List.length_append, List.length_cons]
        omega
      · unfold World.splitEntry
        rw [hlast]
        simp [World.artifactOf, hurl, hfound]
  | some url =>
      have hsplit : written.platformKey ++
          equals :: (url ++ equals :: written.path) =
            (written.platformKey ++ equals :: url) ++
              equals :: written.path := by
        simp
      have hlast := Ship.idxOf_reverse_equals
        (written.platformKey ++ equals :: url) hpath
      have hdrop := Ship.drop_past (written.platformKey ++ equals :: url)
        written.path
      rw [← hsplit] at hlast hdrop
      have hother : (written.platformKey ++ equals :: url).length ≠
          written.platformKey.length := by
        simp
      refine ⟨hfirst _, List.take_left, ?_, ?_⟩
      · simp only [List.length_append, List.length_cons]
        omega
      · have htake : ((written.platformKey ++
            equals :: (url ++ equals :: written.path)).take
              (written.platformKey ++ equals :: url).length).drop
                (written.platformKey.length + 1) = url := by
          rw [hsplit, List.take_left, Ship.drop_past]
        simp only [World.splitEntry, hlast, if_neg hother, hdrop, htake]
        simp [World.artifactOf, hurl]

theorem artifactFrom_entry
    (hbase : written.url = none → (update.bind (·.baseUrl)).isSome)
    (hfile : (disk (world.resolve root written.path)).isSome)
    (hnew : ∀ artifact ∈ before,
      artifact.platformKey ≠ written.platformKey) :
    world.artifactFrom update version none root disk before written.entry =
      .ok (world.artifactOf update version root written) := by
  rcases @splitEntry_entry _ _ world update version root written hpath hbase
    with ⟨hfirst, htake, hlast, hsplit⟩
  rcases Nat.exists_eq_succ_of_ne_zero
    (List.length_pos_iff.mpr written.units_of_key.1).ne' with ⟨count, hcount⟩
  have hnone : (before.any fun artifact =>
      artifact.platformKey = written.platformKey) = false := by
    simpa using hnew
  have hurl : (world.artifactOf update version root written).url.isEmpty =
      false := by
    unfold World.artifactOf
    cases hgiven : written.url with
    | none =>
        have hslash : text "/" = [47] := rfl
        simp [UpdateConfig.urlFor, hslash]
    | some url =>
        have hne := written.url_ne_nil
        rw [hgiven] at hne
        simpa using hne
  rw [hcount] at hfirst htake hlast hsplit
  unfold World.artifactFrom
  simp only [hfirst, if_neg hlast, htake, hsplit, written.known, bind,
    Except.bind, hnone, hurl, World.declares]
  unfold World.resolve at hfile
  cases root with
  | none => simp_all [World.artifactOf, World.resolve]
  | some root => simp_all [World.artifactOf, World.resolve]

end

/-! ## Reading the words -/

theorem parse_artifactWords (written : List WrittenArtifact) :
    parse Ship.options (artifactWords written) =
      some (written.map fun artifact => .valued .artifact artifact.entry) := by
  apply parse_words
  intro argument hargument
  rcases List.mem_map.mp hargument with ⟨artifact, -, rfl⟩
  rfl

theorem given_written (written : List WrittenArtifact) :
    given (written.map fun artifact =>
      Argument.valued Ship.OptionName.artifact artifact.entry) .artifact =
        written.map (·.entry) := by
  have hall := given_map_valued Ship.OptionName.artifact
    (written.map (·.entry)) .artifact
  simpa [List.map_map, Function.comp_def] using hall

theorem WrittenArtifact.Plain.comma_not_mem {written : WrittenArtifact}
    (hplain : written.Plain) : comma ∉ written.entry := by
  have hkey := written.units_of_key
  have hother : equals ≠ comma := by decide
  rcases hplain with ⟨⟨-, hpath⟩, hurl⟩
  unfold WrittenArtifact.entry
  cases hgiven : written.url with
  | none => simp [hkey.2.2, hpath, hother.symm]
  | some url =>
      rw [hgiven] at hurl
      simp [hkey.2.2, hpath, hother.symm, hurl url rfl]

theorem WrittenArtifact.plain_of_not_mem {written : WrittenArtifact}
    (hpath : equals ∉ written.path) (hentry : comma ∉ written.entry) :
    written.Plain := by
  unfold WrittenArtifact.entry at hentry
  cases hgiven : written.url with
  | none =>
      rw [hgiven] at hentry
      refine ⟨⟨hpath, ?_⟩, ?_⟩
      · intro hmem
        apply hentry
        simp [hmem]
      · simp [hgiven]
  | some url =>
      rw [hgiven] at hentry
      refine ⟨⟨hpath, ?_⟩, ?_⟩
      · intro hmem
        apply hentry
        simp [hmem]
      · intro other hother hmem
        rw [hgiven] at hother
        cases hother
        apply hentry
        simp [hmem]

/-- There are as many pieces as entries only where no entry is split. -/
theorem comma_not_mem_of_length {entries : List Text}
    (hlength : (entries.flatMap (·.splitOn comma)).length = entries.length) :
    ∀ entry ∈ entries, comma ∉ entry := by
  have hpiece : ∀ entry : Text, 0 < (entry.splitOn comma).length := by
    intro entry
    rw [List.splitOn_eq_splitOnP]
    exact List.length_pos_iff.mpr (List.splitOnP_ne_nil _ _)
  have hleast : ∀ entries : List Text,
      entries.length ≤ (entries.flatMap (·.splitOn comma)).length := by
    intro entries
    induction entries with
    | nil => simp
    | cons entry rest ih =>
        have hone := hpiece entry
        simp only [List.flatMap_cons, List.length_append, List.length_cons]
        omega
  induction entries with
  | nil => simp
  | cons entry rest ih =>
      have hone := hpiece entry
      have hrest := hleast rest
      simp only [List.flatMap_cons, List.length_append, List.length_cons]
        at hlength
      intro other hother
      rcases List.mem_cons.mp hother with rfl | hother
      · have hsingle : (other.splitOn comma).length = 1 := by omega
        rcases List.length_eq_one_iff.mp hsingle with ⟨piece, hpieces⟩
        have hwhole : [comma].intercalate (other.splitOn comma) = other :=
          List.intercalate_splitOn comma
        rw [hpieces] at hwhole
        have hsame : piece = other := by simpa using hwhole
        rw [← hsame]
        apply not_mem_of_mem_splitOn
        rw [hpieces]
        simp
      · exact ih (by omega) other hother

section

variable {written : List WrittenArtifact}

theorem survive_of_plain (hne : written ≠ [])
    (hdistinct : (written.map (·.platformKey)).Nodup)
    (hplain : ∀ artifact ∈ written, artifact.Plain) : Survive written := by
  intro Version Date world update version root disk hbase hfiles
  refine ⟨_, parse_artifactWords written, ?_⟩
  rw [multi_eq_given, given_written]
  · unfold World.artifactsFrom
    rw [if_neg (by simpa using hne), List.foldlM_map]
    apply @foldlM_eq_ok_map _ _ _ _ _ (world.artifactOf update version root) []
    intro done artifact left hwhole
    have hmem : artifact ∈ written := by
      rw [← List.nil_append written, hwhole]
      simp
    apply artifactFrom_entry (hplain artifact hmem).1.1
    · exact hbase artifact hmem
    · exact hfiles artifact hmem
    · intro other hother hsame
      rcases List.mem_map.mp hother with ⟨earlier, hearlier, rfl⟩
      rw [List.nil_append] at hwhole
      rw [hwhole, List.map_append, List.nodup_append] at hdistinct
      apply hdistinct.2.2 earlier.platformKey _ artifact.platformKey _ hsame
      · exact List.mem_map_of_mem hearlier
      · simp
  · intro entry hentry
    rw [given_written] at hentry
    rcases List.mem_map.mp hentry with ⟨artifact, hartifact, rfl⟩
    exact (hplain artifact hartifact).comma_not_mem

theorem plain_of_survive (hsurvive : Survive written) :
    ∀ artifact ∈ written, artifact.Plain := by
  rcases hsurvive foreignWorld
    (some ⟨[], [], none, some [], []⟩) [] none (fun _ => some ⟨[], false, false⟩)
    (by simp) (by simp) with ⟨arguments, hparse, hread⟩
  rw [parse_artifactWords] at hparse
  cases hparse
  unfold World.artifactsFrom at hread
  split at hread
  · cases hread
  · rcases forall₂_of_foldlM_eq_ok hread with ⟨results, hresults, hall⟩
    rw [List.nil_append] at hresults
    rw [← hresults] at hall
    have hcommas : ∀ entry ∈ written.map (·.entry), comma ∉ entry := by
      apply comma_not_mem_of_length
      have hlength := hall.length_eq
      unfold multi at hlength
      rw [given_written] at hlength
      simpa using hlength
    rw [multi_eq_given (by rwa [given_written]), given_written,
      List.forall₂_map_left_iff, List.forall₂_map_right_iff,
      List.forall₂_same] at hall
    intro artifact hartifact
    rcases hall artifact hartifact with ⟨earlier, hone⟩
    apply WrittenArtifact.plain_of_not_mem
    · exact equals_not_mem_of_artifactFrom hone
    · exact hcommas _ (List.mem_map_of_mem hartifact)

/-- The artefacts on a command line are read as they were written exactly
where no path has an equals sign or a comma and no url a comma; equals signs
in a url do no harm. -/
theorem survive_iff (hne : written ≠ [])
    (hdistinct : (written.map (·.platformKey)).Nodup) :
    Survive written ↔ ∀ artifact ∈ written, artifact.Plain := by
  constructor
  · exact plain_of_survive
  · exact survive_of_plain hne hdistinct

end

/-! ### A path with an equals sign -/

def queried : WrittenArtifact where
  platformKey := text "linux-x86_64"
  url := some (text "https://example.com/app?v=2")
  path := text "dist/app.AppImage"
  known := by decide
  url_ne_nil := by decide
  path_ne_nil := by decide

theorem survive_queried : Survive [queried] :=
  (survive_iff (by simp) (by simp)).mpr (by
    intro artifact hartifact
    rw [List.mem_singleton.mp hartifact]
    unfold WrittenArtifact.Plain
    decide)

def versioned : WrittenArtifact where
  platformKey := text "linux-x86_64"
  url := none
  path := text "/builds/v=2/App.AppImage"
  known := by decide
  url_ne_nil := by decide
  path_ne_nil := by decide

/-- The piece of the path before the sign is taken for the url. -/
theorem not_survive_versioned : ¬ Survive [versioned] := by
  intro hsurvive
  have hplain := plain_of_survive hsurvive versioned (by simp)
  exact hplain.1.1 (by decide)

end Dovetail.Cli.Release
