import Dovetail.CliShipSteps

/-!
# What a ship plan hands on

Every artefact a plan lists is written by its own bundle steps.  The steps
that sign and release are handed the paths as options that can be given more
than once, and take a comma or an equals sign in a path for the end of it: a
plan is supplied exactly when the binary's name has none where one is handed
on.
-/

namespace Dovetail.Cli.Ship

open CodeUnits CommandOptions Bundler FallibleSteps SuppliedSteps

/-! ## Entries of the release step -/

section

variable {packages : Packages} {update : Option Release.UpdateConfig}
  {version : Text}

theorem idxOf_reverse_equals (key : Text) {path : Text}
    (hpath : Release.equals ∉ path) :
    (key ++ Release.equals :: path).length - 1 -
      (key ++ Release.equals :: path).reverse.idxOf Release.equals =
        key.length := by
  have hreverse : (key ++ Release.equals :: path).reverse =
      path.reverse ++ Release.equals :: key.reverse := by
    simp
  have hlast : Release.equals ∉ path.reverse := by
    simpa using hpath
  rw [hreverse, List.idxOf_append_of_notMem hlast, List.idxOf_cons_self]
  simp

theorem drop_past (key path : Text) :
    (key ++ Release.equals :: path).drop (key.length + 1) = path := by
  simp

/-- What follows the last sign is the path. -/
theorem equals_not_mem_of_readEntry {entry url path : Text}
    (hread : readEntry packages update version entry = some (url, path)) :
    Release.equals ∉ path := by
  unfold readEntry at hread
  split at hread
  · cases hread
  · cases hread
  · rename_i afterKey _ hkey
    have hmem : Release.equals ∈ entry.reverse := by
      obtain ⟨hlt, hequals, -⟩ := List.idxOf?_eq_some_iff.mp hkey
      rw [List.mem_reverse, ← hequals]
      exact List.getElem_mem hlt
    obtain ⟨later, earlier, hreverse, hlater⟩ :=
      List.eq_append_cons_of_mem hmem
    obtain rfl : entry =
        earlier.reverse ++ Release.equals :: later.reverse := by
      rw [← List.reverse_reverse entry, hreverse]
      simp
    have hplain : Release.equals ∉ later.reverse := by simpa using hlater
    have hbefore := idxOf_reverse_equals earlier.reverse hplain
    rw [hbefore] at hread
    have hdrop := drop_past earlier.reverse later.reverse
    split at hread
    · cases hread
    · dsimp only at hread
      split at hread
      · rename_i hsame
        obtain ⟨base, -, hpair⟩ := Option.map_eq_some_iff.mp hread
        rw [← hsame, hdrop] at hpair
        cases hpair
        exact hplain
      · cases hread
        rw [hdrop]
        exact hplain

theorem readEntry_of_plain {key path : Text} (hkey : key ≠ [])
    (hpath : path ≠ []) (hkeyPlain : Release.equals ∉ key)
    (hpathPlain : Release.equals ∉ path) :
    readEntry packages update version (key ++ Release.equals :: path) =
      (update.bind (·.baseUrl)).map fun base =>
        (Release.UpdateConfig.urlFor base version (packages.basename path),
          path) := by
  have hindex : (key ++ Release.equals :: path).idxOf? Release.equals =
      some key.length := by
    refine List.idxOf?_eq_some_iff.mpr ⟨by simp, by simp, ?_⟩
    intro place hplace
    rw [List.getElem_append_left hplace]
    exact fun hsame => hkeyPlain (hsame ▸ List.getElem_mem hplace)
  have hlast := idxOf_reverse_equals key hpathPlain
  have hdrop := drop_past key path
  have hend : key.length ≠ (key ++ Release.equals :: path).length - 1 := by
    have hpositive := List.length_pos_iff.mpr hpath
    simp
    omega
  obtain ⟨count, hcount⟩ :=
    Nat.exists_eq_succ_of_ne_zero (List.length_pos_iff.mpr hkey).ne'
  unfold readEntry
  rw [hcount] at hindex hend hlast hdrop
  simp only [hindex, if_neg hend, hlast, if_true, hdrop]

end

/-! ## Artefacts of a plan -/

section

variable {packages : Packages} {shipment : Shipment}

theorem mem_assign {paths : Paths} {entry other : Text × Text}
    (hother : other ∈ paths.assign entry) : other = entry ∨ other ∈ paths := by
  unfold Paths.assign at hother
  split at hother
  · obtain ⟨old, hold, hsame⟩ := List.mem_map.mp hother
    split at hsame
    · exact Or.inl hsame.symm
    · exact Or.inr (hsame ▸ hold)
  · rcases List.mem_append.mp hother with hold | hnew
    · exact Or.inr hold
    · exact Or.inl (List.mem_singleton.mp hnew)

theorem mem_foldl_assign {entries paths : Paths} {entry : Text × Text}
    (hentry : entry ∈ entries.foldl Paths.assign paths) :
    entry ∈ paths ∨ entry ∈ entries := by
  induction entries generalizing paths with
  | nil => exact Or.inl hentry
  | cons first rest ih =>
      rcases ih hentry with hassigned | hrest
      · rcases mem_assign hassigned with rfl | hold
        · exact Or.inr List.mem_cons_self
        · exact Or.inl hold
      · exact Or.inr (List.mem_cons_of_mem _ hrest)

theorem assign_ne_nil (paths : Paths) (entry : Text × Text) :
    paths.assign entry ≠ [] := by
  unfold Paths.assign
  split
  · rename_i hany
    rintro hnil
    obtain rfl := List.map_eq_nil_iff.mp hnil
    simp at hany
  · simp

theorem foldl_assign_ne_nil {entries paths : Paths}
    (hsome : entries ≠ [] ∨ paths ≠ []) :
    entries.foldl Paths.assign paths ≠ [] := by
  induction entries generalizing paths with
  | nil => exact hsome.resolve_left (· rfl)
  | cons entry rest ih => exact ih (Or.inr (assign_ne_nil paths entry))

/-- The label of an artefact ends no value, and its path is named after the
binary. -/
structure Artefact (packages : Packages) (shipment : Shipment)
    (entry : Text × Text) : Prop where
  label : Plain entry.1
  label_ne_nil : entry.1 ≠ []
  path : ∃ name, NamedAfter shipment.binary name ∧
    entry.2 = packages.join outputDirectory name

theorem plain_labelOf {group : List Text} (hours : Ours shipment group) :
    Plain (ShipPlan.labelOf group) ∧ ShipPlan.labelOf group ≠ [] := by
  have hknown (key : Text) (hkey : key ∈ group) := knownKeys_spelled key
    (known_of_mem_group hours.mem hkey)
  unfold ShipPlan.labelOf
  split
  · rename_i key
    obtain ⟨hplain, hsome, -⟩ := hknown key (List.mem_singleton_self key)
    exact ⟨hplain, hsome⟩
  · obtain ⟨first, rest, rfl⟩ := List.exists_cons_of_ne_nil
      (ne_nil_of_mem_groups hours.nonempty hours.mem)
    obtain ⟨-, -, hos, -⟩ := hknown first List.mem_cons_self
    have huniversal : Plain (text "-universal") ∧ text "-universal" ≠ [] := by
      decide
    exact ⟨plain_append.mpr ⟨hos, huniversal.1⟩,
      List.append_ne_nil_of_right_ne_nil _ huniversal.2⟩

theorem artefact_of_listed {group : List Text} (hours : Ours shipment group)
    {format : MacosFormat} {name : Text}
    (hname : ShipPlan.artifactNameFor packages shipment
      (ShipPlan.archesOf group) format = .ok name) :
    ∀ entry ∈ listed packages group name, Artefact packages shipment entry := by
  intro entry hentry
  rw [List.mem_singleton.mp hentry]
  obtain ⟨hplain, hsome⟩ := plain_labelOf hours
  exact ⟨hplain, hsome, name, namedAfter_of_artifactNameFor hname, rfl⟩

theorem artefact_of_planned {group : List Text} (hours : Ours shipment group)
    {part : ShipPlan.GroupPlan} (hpart : Planned packages shipment group part) :
    ∀ entry ∈ part.artifacts, Artefact packages shipment entry := by
  cases hpart with
  | macosInternal => simp
  | macosRelease hhost hchannel hname harchive =>
      exact artefact_of_listed hours harchive
  | other hhost hname hpayload =>
      dsimp only
      split
      · simp
      · exact artefact_of_listed hours hname

theorem artifacts_ne_nil_of_planned {group : List Text}
    {part : ShipPlan.GroupPlan} (hpart : Planned packages shipment group part)
    (hchannel : shipment.channel = .release) : part.artifacts ≠ [] := by
  cases hpart with
  | macosInternal hhost hinternal hname =>
      rw [hchannel] at hinternal
      cases hinternal
  | macosRelease => simp [listed]
  | other => simp [listed, ShipChannel.isInternal, hchannel]

end

/-! ## Plans -/

section

variable {packages : Packages} {shipment : Shipment} {plan : ShipPlan}

/-- A plan is made of its groups, between the build and the release. -/
structure MadeOf (packages : Packages) (shipment : Shipment)
    (plan : ShipPlan) (plans : List ShipPlan.GroupPlan) : Prop where
  nonempty : plans ≠ []
  groups : ∀ part ∈ plans, ∃ group, Ours shipment group ∧
    Planned packages shipment group part
  based : Releases shipment →
    ∃ base, shipment.config.update.bind (·.baseUrl) = some base
  steps : plan.steps =
    (if shipment.build then [ShipPlan.building shipment] else []) ++
      plans.flatMap (·.steps) ++
        if !shipment.channel.isInternal ∧ shipment.config.update.isSome then
          [ShipPlan.releasing shipment plan.artifacts] else []
  artifacts : plan.artifacts =
    (plans.flatMap (·.artifacts)).foldl Paths.assign []
  downloads : plan.downloads =
    (plans.flatMap (·.downloads)).foldl Paths.assign []

theorem exists_mem_groups {mine : List Text} (hmine : mine ≠ [])
    (host : Host) : ∃ group, group ∈ ShipPlan.groups mine host := by
  obtain ⟨key, rest, rfl⟩ := List.exists_cons_of_ne_nil hmine
  cases host with
  | macos => exact ⟨key :: rest, List.mem_singleton_self _⟩
  | _ => exact ⟨[key], List.mem_cons_self⟩

/-- The parts of a plan are those of its groups, in their order. -/
theorem mapped_of_eq_ok (hplan : ShipPlan.of packages shipment = .ok plan) :
    ∃ plans, (ShipPlan.groups (ShipPlan.targetsForHost shipment.config
        shipment.host) shipment.host).mapM
          (ShipPlan.planGroup packages shipment) = .ok plans ∧
      MadeOf packages shipment plan plans := by
  unfold ShipPlan.of at hplan
  dsimp only at hplan
  split at hplan
  · cases hplan
  · rename_i hmine
    split at hplan
    · cases hplan
    · rename_i hbase
      obtain ⟨plans, hplans, hplan⟩ := bind_eq_ok_iff.mp hplan
      have hmapped := lift_eq_ok.mp hplans
      cases hplan
      refine ⟨plans, hmapped, ?_, ?_, ?_, rfl, rfl, rfl⟩
      · rintro rfl
        obtain ⟨group, hgroup⟩ := exists_mem_groups hmine shipment.host
        obtain ⟨part, hpart, -⟩ := exists_of_mem_of_mapM_eq_ok hmapped hgroup
        simp at hpart
      · intro part hpart
        obtain ⟨group, hgroup, hstep⟩ := exists_item_of_mapM_eq_ok hmapped hpart
        exact ⟨group, ⟨hmine, hgroup⟩, planned_of_planGroup hstep⟩
      · rintro ⟨hchannel, hupdate⟩
        obtain ⟨update, hupdate⟩ := Option.isSome_iff_exists.mp hupdate
        simp only [ShipChannel.isInternal, hchannel, hupdate, reduceCtorEq,
          decide_false, Bool.not_false, Option.any_some, true_and] at hbase
        rw [hupdate]
        exact Option.ne_none_iff_exists'.mp (by simpa using hbase)

theorem madeOf_of_eq_ok (hplan : ShipPlan.of packages shipment = .ok plan) :
    ∃ plans, MadeOf packages shipment plan plans := by
  rcases mapped_of_eq_ok hplan with ⟨plans, -, hmade⟩
  exact ⟨plans, hmade⟩

/-! ### The release step -/

/-- An artefact as the release step is handed it. -/
def entryText (made : Text × Text) : Text :=
  made.1 ++ Release.equals :: made.2

theorem parse_releasing (artifacts : Paths) :
    ∃ arguments, parse options (ShipPlan.releasing shipment
        artifacts).arguments = some arguments ∧
      CommandOptions.single arguments .version = some shipment.version ∧
      multi arguments .artifact =
        (artifacts.map entryText).flatMap (·.splitOn comma) := by
  let flags : List (Argument OptionName) :=
    if (shipment.config.update.map (·.unencrypted)).getD false then
      [.flag .unencryptedKey] else []
  have hflags (name : OptionName) : given flags name = [] := by
    unfold flags
    split <;> rfl
  have hfitting : ∀ argument ∈ flags, Fitting options argument := by
    unfold flags
    split <;> simp [Fitting, options, OptionName.isFlag]
  let arguments : List (Argument OptionName) :=
    .valued .version shipment.version :: flags ++
      (artifacts.map entryText).map (.valued .artifact)
  have hwords : (ShipPlan.releasing shipment artifacts).arguments =
      words options arguments := by
    show words options (_ ++ artifacts.map _) = words options (_ ++ _)
    rw [List.map_map]
    rfl
  refine ⟨arguments, ?_, ?_, ?_⟩
  · rw [hwords]
    apply parse_words
    simp only [arguments, List.forall_mem_append, List.forall_mem_cons,
      List.forall_mem_map]
    exact ⟨⟨rfl, hfitting⟩, fun _ _ => rfl⟩
  · simp [CommandOptions.single, arguments, hflags, -List.map_map]
  · simp [multi, arguments, hflags, -List.map_map]

theorem releaseEntries_releasing (artifacts : Paths) :
    releaseEntries packages shipment
      (ShipPlan.releasing shipment artifacts) =
      ((artifacts.map entryText).flatMap (·.splitOn comma)).mapM
        (readEntry packages
          (shipment.config.update.map (·.toUpdateConfig)) shipment.version) := by
  rcases @parse_releasing shipment artifacts with
    ⟨arguments, hparse, hversion, hartifact⟩
  unfold releaseEntries
  rw [hparse]
  simp only [Option.bind_eq_bind, Option.bind_some, hversion, hartifact]

theorem reads_releasing (artifacts : Paths) :
    (pipeline packages shipment).reads
      (ShipPlan.releasing shipment artifacts) =
      (releaseEntries packages shipment
        (ShipPlan.releasing shipment artifacts)).map (·.map (·.2)) := by
  have hsign : text "release" ≠ text "sign" := by decide
  have hcommand : (ShipPlan.releasing shipment artifacts).command =
      text "release" := rfl
  simp only [pipeline, hcommand, if_neg hsign, if_true]

/-- Some path the release step reads has no sign in it. -/
theorem exists_plain_of_reads_releasing {artifacts : Paths}
    (hsome : artifacts ≠ []) {read : List Text}
    (hread : (pipeline packages shipment).reads
      (ShipPlan.releasing shipment artifacts) = some read) :
    ∃ path ∈ read, Release.equals ∉ path := by
  rw [reads_releasing, releaseEntries_releasing] at hread
  obtain ⟨entries, hentries, rfl⟩ := Option.map_eq_some_iff.mp hread
  have hpieces : (artifacts.map entryText).flatMap (·.splitOn comma) ≠ [] := by
    obtain ⟨made, rest, rfl⟩ := List.exists_cons_of_ne_nil hsome
    simp [List.splitOn_ne_nil]
  obtain ⟨entry, -, ⟨url, path⟩, hresult, hentry⟩ :=
    exists_mem_of_mapM_eq_some hpieces hentries
  exact ⟨path, List.mem_map.mpr ⟨(url, path), hresult, rfl⟩,
    equals_not_mem_of_readEntry hentry⟩

/-- What a plan for a plainly named binary lists ends no value. -/
theorem plain_of_artefact {made : Text × Text}
    (hartefact : Artefact packages shipment made)
    (hplain : Plain shipment.binary) : Plain made.2 ∧ made.2 ≠ [] := by
  rcases hartefact.path with ⟨name, hname, hsame⟩
  rw [hsame]
  refine ⟨⟨?_, ?_⟩, ?_⟩
  · rw [mem_join_iff (Or.inl rfl) hname]
    exact hplain.1
  · rw [mem_join_iff (Or.inr rfl) hname]
    exact hplain.2
  · intro hnil
    have hsubset : name ⊆ packages.join outputDirectory name :=
      subset_join (namedAfter_ne_nil hname)
    rw [hnil] at hsubset
    exact namedAfter_ne_nil hname (List.subset_nil.mp hsubset)

/-- The entries of a plainly named binary are not cut. -/
theorem pieces_of_plain {artifacts : Paths}
    (hartefacts : ∀ made ∈ artifacts, Artefact packages shipment made)
    (hplain : Plain shipment.binary) :
    (artifacts.map entryText).flatMap (·.splitOn comma) =
      artifacts.map entryText := by
  have hsplit : ∀ entry ∈ artifacts.map entryText,
      entry.splitOn comma = [entry] := by
    intro entry hentry
    obtain ⟨made, hmade, rfl⟩ := List.mem_map.mp hentry
    have hown := plain_of_artefact (hartefacts made hmade) hplain
    have hequals : comma ≠ Release.equals := by decide
    refine List.splitOn_eq_singleton ?_
    simp [entryText, (hartefacts made hmade).label.1, hequals, hown.1.1]
  rw [List.flatMap_congr hsplit]
  exact List.flatMap_singleton' _

theorem readEntry_entryText {made : Text × Text} {base : Text}
    (hartefact : Artefact packages shipment made)
    (hplain : Plain shipment.binary)
    (hbase : shipment.config.update.bind (·.baseUrl) = some base) :
    readEntry packages (shipment.config.update.map (·.toUpdateConfig))
        shipment.version (entryText made) =
      some (Release.UpdateConfig.urlFor base shipment.version
        (packages.basename made.2), made.2) := by
  have hupdate : (shipment.config.update.map (·.toUpdateConfig)).bind
      (·.baseUrl) = some base := by
    rw [← hbase]
    cases shipment.config.update <;> rfl
  have hown := plain_of_artefact hartefact hplain
  rw [entryText, readEntry_of_plain hartefact.label_ne_nil hown.2
    hartefact.label.2 hown.1.2, hupdate]
  rfl

/-- Artefacts of a plainly named binary are read as they were listed. -/
theorem releaseEntries_of_plain {artifacts : Paths} {base : Text}
    (hartefacts : ∀ made ∈ artifacts, Artefact packages shipment made)
    (hplain : Plain shipment.binary)
    (hbase : shipment.config.update.bind (·.baseUrl) = some base) :
    releaseEntries packages shipment
      (ShipPlan.releasing shipment artifacts) =
      some (artifacts.map fun made =>
        (Release.UpdateConfig.urlFor base shipment.version
          (packages.basename made.2), made.2)) := by
  rw [releaseEntries_releasing, pieces_of_plain hartefacts hplain,
    List.mapM_map]
  apply mapM_eq_some_map
  intro made hmade
  exact readEntry_entryText (hartefacts made hmade) hplain hbase

/-- The steps before the release. -/
def body (shipment : Shipment) (plans : List ShipPlan.GroupPlan) :
    List ShipStep :=
  (if shipment.build then [ShipPlan.building shipment] else []) ++
    plans.flatMap (·.steps)

variable {plans : List ShipPlan.GroupPlan}

theorem command_building :
    ∀ step ∈ (if shipment.build then [ShipPlan.building shipment] else []),
      step.command = text "build" := by
  split
  · intro step hstep
    rw [List.mem_singleton.mp hstep]
    rfl
  · simp

theorem listed_of_madeOf (hmade : MadeOf packages shipment plan plans)
    {made : List Text} {steps : List ShipStep} (hsteps : body shipment plans ⊆ steps)
    (hafter : after (pipeline packages shipment) [] steps = .ok made)
    {entry : Text × Text} (hentry : entry ∈ plan.artifacts ++ plan.downloads) :
    entry.2 ∈ made := by
  have hpart : ∃ part ∈ plans, entry ∈ part.artifacts ++ part.downloads := by
    rw [hmade.artifacts, hmade.downloads] at hentry
    rcases List.mem_append.mp hentry with hentry | hentry
    · obtain ⟨part, hpart, hmem⟩ := List.mem_flatMap.mp
        ((mem_foldl_assign hentry).resolve_left (by simp))
      exact ⟨part, hpart, List.mem_append_left _ hmem⟩
    · obtain ⟨part, hpart, hmem⟩ := List.mem_flatMap.mp
        ((mem_foldl_assign hentry).resolve_left (by simp))
      exact ⟨part, hpart, List.mem_append_right _ hmem⟩
  obtain ⟨part, hpart, hmem⟩ := hpart
  obtain ⟨group, hours, hplanned⟩ := hmade.groups part hpart
  obtain ⟨step, hstep, hwritten⟩ := written_of_planned hours hplanned hmem
  have hbody : step ∈ steps := hsteps
    (List.mem_append_right _ (List.mem_flatMap.mpr ⟨part, hpart, hstep⟩))
  obtain ⟨own, hown, hsubset⟩ := writes_subset_after hafter hbody
  exact hsubset (hwritten own hown)

/-- Where everything before the release goes through, images are signed. -/
theorem signsFiles_of_after (hmade : MadeOf packages shipment plan plans)
    (hchannel : shipment.channel = .release) {made : List Text}
    (hafter : after (pipeline packages shipment) [] (body shipment plans) =
      .ok made) : SignsFiles shipment := by
  intro hhost
  obtain ⟨part, rest, hplans⟩ := List.exists_cons_of_ne_nil hmade.nonempty
  have hpart : part ∈ plans := hplans ▸ List.mem_cons_self
  obtain ⟨group, hours, hplanned⟩ := hmade.groups part hpart
  cases hplanned with
  | macosInternal _ hinternal _ =>
      rw [hchannel] at hinternal
      cases hinternal
  | macosRelease _ _ hname harchive =>
      have hstep : bundled packages shipment group (text "bundle ") .dmg ∈
          body shipment plans :=
        List.mem_append_right _
          (List.mem_flatMap.mpr ⟨_, hpart, by simp⟩)
      obtain ⟨own, hown, -⟩ := writes_subset_after hafter hstep
      exact signsFiles_of_bundled hours hhost hchannel hname hown hhost
  | other hother _ _ => exact absurd hhost hother

theorem supplied_body (hmade : MadeOf packages shipment plan plans)
    (hcomma : SignsFiles shipment → comma ∉ shipment.binary) :
    Supplied (pipeline packages shipment) [] (body shipment plans) := by
  refine supplied_append.mpr ⟨supplied_of_reads_nothing ?_, fun made _ => ?_⟩
  · intro step hstep
    have hbuild := command_building step hstep
    refine reads_of_ne ?_ ?_ <;> rw [hbuild] <;> decide
  · apply supplied_flatMap
    intro part hpart
    obtain ⟨group, hours, hplanned⟩ := hmade.groups part hpart
    exact supplied_of_planned hours hplanned hcomma

theorem completes_body (hmade : MadeOf packages shipment plan plans)
    (hsigns : SignsFiles shipment) :
    ∀ step ∈ body shipment plans, Completes packages shipment step := by
  intro step hstep
  rcases List.mem_append.mp hstep with hbuild | hgroups
  · refine completes_of_ne ?_
    rw [command_building step hbuild]
    decide
  · obtain ⟨part, hpart, hmem⟩ := List.mem_flatMap.mp hgroups
    obtain ⟨group, hours, hplanned⟩ := hmade.groups part hpart
    exact completes_of_planned hours hplanned hsigns step hmem

theorem artefact_of_madeOf (hmade : MadeOf packages shipment plan plans) :
    ∀ made ∈ plan.artifacts, Artefact packages shipment made := by
  intro made hmem
  rw [hmade.artifacts] at hmem
  obtain ⟨part, hpart, hown⟩ := List.mem_flatMap.mp
    ((mem_foldl_assign hmem).resolve_left (by simp))
  obtain ⟨group, hours, hplanned⟩ := hmade.groups part hpart
  exact artefact_of_planned hours hplanned made hown

theorem artifacts_ne_nil (hmade : MadeOf packages shipment plan plans)
    (hchannel : shipment.channel = .release) : plan.artifacts ≠ [] := by
  obtain ⟨part, rest, rfl⟩ := List.exists_cons_of_ne_nil hmade.nonempty
  obtain ⟨group, -, hplanned⟩ := hmade.groups part List.mem_cons_self
  have hsome := artifacts_ne_nil_of_planned hplanned hchannel
  rw [hmade.artifacts]
  refine foldl_assign_ne_nil (Or.inl ?_)
  rw [List.flatMap_cons]
  exact List.append_ne_nil_of_left_ne_nil hsome _

theorem steps_of_releases (hmade : MadeOf packages shipment plan plans)
    (hreleases : Releases shipment) :
    plan.steps = body shipment plans ++
      [ShipPlan.releasing shipment plan.artifacts] := by
  have hpresent : !shipment.channel.isInternal ∧
      shipment.config.update.isSome := by
    simp [ShipChannel.isInternal, hreleases.1, hreleases.2]
  rw [hmade.steps, if_pos hpresent]
  rfl

theorem steps_of_not_releases (hmade : MadeOf packages shipment plan plans)
    (hreleases : ¬ Releases shipment) : plan.steps = body shipment plans := by
  have habsent : ¬ (!shipment.channel.isInternal ∧
      shipment.config.update.isSome) := by
    intro hpresent
    refine hreleases ⟨?_, hpresent.2⟩
    cases hchannel : shipment.channel with
    | release => rfl
    | internal => simp [ShipChannel.isInternal, hchannel] at hpresent
  rw [hmade.steps, if_neg habsent, List.append_nil]
  rfl

/-- A unit that ends a value starves the step that reads files. -/
theorem comma_not_mem_of_supplied (hmade : MadeOf packages shipment plan plans)
    (hsigns : SignsFiles shipment)
    (hsupplied : Supplied (pipeline packages shipment) [] plan.steps) :
    comma ∉ shipment.binary := by
  intro hcomma
  obtain ⟨part, others, hplans⟩ := List.exists_cons_of_ne_nil hmade.nonempty
  obtain ⟨group, hours, hplanned⟩ := hmade.groups part
    (hplans ▸ List.mem_cons_self)
  obtain ⟨before, step, rest, path, hsteps, hread⟩ :=
    exists_signing_of_planned hplanned hsigns
  obtain ⟨later, hlater⟩ : ∃ later, plan.steps =
      ((if shipment.build then [ShipPlan.building shipment] else []) ++
        before) ++ step :: later := by
    rw [hmade.steps, hplans, List.flatMap_cons, hsteps]
    simp only [List.append_assoc, List.cons_append]
    exact ⟨_, rfl⟩
  rw [hlater] at hsupplied
  have hcomplete : ∀ earlier ∈
      (if shipment.build then [ShipPlan.building shipment] else []) ++ before,
      Completes packages shipment earlier := by
    intro earlier hearlier
    rcases List.mem_append.mp hearlier with hbuild | hbefore
    · refine completes_of_ne ?_
      rw [command_building earlier hbuild]
      decide
    · refine completes_of_planned hours hplanned hsigns earlier ?_
      rw [hsteps]
      exact List.mem_append_left _ hbefore
  refine not_supplied_of_starved hcomplete ?_ hsupplied
  intro read hsame
  rw [hread, Option.some.injEq] at hsame
  obtain ⟨piece, pieces, hpieces⟩ :=
    List.exists_cons_of_ne_nil (List.splitOn_ne_nil comma path)
  have hmem : piece ∈ path.splitOn comma := by simp [hpieces]
  exact ⟨piece, hsame ▸ hmem, fun hsubset =>
    not_mem_of_mem_splitOn hmem (hsubset hcomma)⟩

theorem equals_not_mem_of_supplied (hmade : MadeOf packages shipment plan plans)
    (hsigns : SignsFiles shipment) (hreleases : Releases shipment)
    (hsupplied : Supplied (pipeline packages shipment) [] plan.steps) :
    Release.equals ∉ shipment.binary := by
  intro hequals
  rw [steps_of_releases hmade hreleases] at hsupplied
  refine not_supplied_of_starved (completes_body hmade hsigns) ?_ hsupplied
  intro read hread
  obtain ⟨path, hpath, hplain⟩ := exists_plain_of_reads_releasing
    (artifacts_ne_nil hmade hreleases.1) hread
  exact ⟨path, hpath, fun hsubset => hplain (hsubset hequals)⟩

theorem command_body (hmade : MadeOf packages shipment plan plans) :
    ∀ step ∈ body shipment plans, step.command ≠ text "release" := by
  intro step hstep
  rcases List.mem_append.mp hstep with hbuild | hgroups
  · rw [command_building step hbuild]
    decide
  · obtain ⟨part, hpart, hmem⟩ := List.mem_flatMap.mp hgroups
    obtain ⟨group, -, hplanned⟩ := hmade.groups part hpart
    have hsign : text "sign" ≠ text "release" := by decide
    have hbundle : text "bundle" ≠ text "release" := by decide
    have hthinned : ∀ step ∈ thinned packages shipment group,
        step.command ≠ text "release" := by
      unfold thinned
      split
      · intro step hstep
        rw [List.mem_singleton.mp hstep]
        exact hbundle
      · simp
    have hall : ∀ step ∈ part.steps, step.command ≠ text "release" := by
      cases hplanned with
      | macosInternal =>
          simp only [List.forall_mem_append, List.forall_mem_cons]
          exact ⟨hthinned, hsign, hbundle, by simp⟩
      | macosRelease =>
          simp only [List.forall_mem_append, List.forall_mem_cons]
          exact ⟨hthinned, hsign, hbundle, hsign, hbundle, by simp⟩
      | @other name payload hhost hname hpayload =>
          simp only [List.forall_mem_append, List.forall_mem_cons]
          refine ⟨?_, hbundle, hsign, by simp⟩
          rcases hpayload with rfl | rfl
          · simp
          · exact List.forall_mem_singleton.mpr hsign
    exact hall step hmem

/-- The only step that releases is the last. -/
theorem releases_of_command (hmade : MadeOf packages shipment plan plans)
    {before rest : List ShipStep} {step : ShipStep}
    (hsplit : plan.steps = before ++ step :: rest)
    (hcommand : step.command = text "release") :
    Releases shipment ∧ before = body shipment plans ∧
      step = ShipPlan.releasing shipment plan.artifacts := by
  have hforeign : step ∉ body shipment plans := fun hmem =>
    command_body hmade step hmem hcommand
  by_cases hreleases : Releases shipment
  · rw [steps_of_releases hmade hreleases] at hsplit
    refine ⟨hreleases, ?_⟩
    rcases List.append_eq_append_iff.mp hsplit with
      ⟨more, rfl, hlast⟩ | ⟨more, hbody, hlast⟩
    · cases more with
      | nil =>
          obtain ⟨rfl, -⟩ := List.cons.inj hlast
          exact ⟨List.append_nil _, rfl⟩
      | cons first more => simp at hlast
    · cases more with
      | nil =>
          obtain ⟨rfl, -⟩ := List.cons.inj hlast
          exact ⟨by simpa using hbody.symm, rfl⟩
      | cons first more =>
          obtain ⟨rfl, -⟩ := List.cons.inj hlast
          exact absurd (by simp [hbody]) hforeign
  · rw [steps_of_not_releases hmade hreleases] at hsplit
    exact absurd (by simp [hsplit]) hforeign

theorem supplied_of_plain (hmade : MadeOf packages shipment plan plans)
    (hplain : SignsFiles shipment → comma ∉ shipment.binary ∧
      (Releases shipment → Release.equals ∉ shipment.binary)) :
    Supplied (pipeline packages shipment) [] plan.steps := by
  have hbody := supplied_body hmade fun hsigns => (hplain hsigns).1
  by_cases hreleases : Releases shipment
  · rw [steps_of_releases hmade hreleases]
    refine supplied_append.mpr ⟨hbody, fun made hafter => ?_⟩
    obtain ⟨hcomma, hequals⟩ :=
      hplain (signsFiles_of_after hmade hreleases.1 hafter)
    obtain ⟨base, hbase⟩ := hmade.based hreleases
    have hentries := releaseEntries_of_plain (artefact_of_madeOf hmade)
      ⟨hcomma, hequals hreleases⟩ hbase
    refine supplied_cons.mpr ⟨⟨plan.artifacts.map (·.2), ?_, ?_⟩, by simp⟩
    · rw [reads_releasing, hentries, Option.map_some, List.map_map]
      rfl
    · intro path hpath
      obtain ⟨entry, hentry, rfl⟩ := List.mem_map.mp hpath
      exact listed_of_madeOf hmade (List.Subset.refl _) hafter
        (List.mem_append_left _ hentry)
  · rw [steps_of_not_releases hmade hreleases]
    exact hbody

/-- A plan's steps are handed what its bundle steps write exactly when the
name of the binary has no comma where a file is signed, and no equals sign
where it is then released. -/
theorem namesWhatIsWritten_iff (packages : Packages) (shipment : Shipment)
    (plan : ShipPlan) (hplan : ShipPlan.of packages shipment = .ok plan) :
    NamesWhatIsWritten packages shipment plan ↔
      (SignsFiles shipment → comma ∉ shipment.binary ∧
        (Releases shipment → Release.equals ∉ shipment.binary)) := by
  obtain ⟨plans, hmade⟩ := madeOf_of_eq_ok hplan
  constructor
  · intro hnames hsigns
    exact ⟨comma_not_mem_of_supplied hmade hsigns hnames.supplied,
      fun hreleases => equals_not_mem_of_supplied hmade hsigns hreleases
        hnames.supplied⟩
  · intro hplain
    refine ⟨?_, supplied_of_plain hmade hplain, ?_⟩
    · intro made hafter entry hentry
      refine listed_of_madeOf hmade ?_ hafter hentry
      rw [hmade.steps]
      exact List.subset_append_left _ _
    · intro before step rest made hsplit hafter hcommand
      obtain ⟨hreleases, rfl, rfl⟩ := releases_of_command hmade hsplit hcommand
      obtain ⟨hcomma, hequals⟩ :=
        hplain (signsFiles_of_after hmade hreleases.1 hafter)
      obtain ⟨base, hbase⟩ := hmade.based hreleases
      refine ⟨_, releaseEntries_of_plain (artefact_of_madeOf hmade)
        ⟨hcomma, hequals hreleases⟩ hbase, ?_⟩
      intro entry hentry
      obtain ⟨artefact, -, rfl⟩ := List.mem_map.mp hentry
      exact ⟨base, hbase, rfl⟩

end

/-! ### A name with a comma -/

/-- The paths of a system whose parts are kept apart by slashes. -/
def slashed : Packages where
  isAbsolute path := path.head? = some slash
  join directory name :=
    if name.head? = some slash ∨ directory = [] then name
    else if directory.getLast? = some slash then directory ++ name
    else directory ++ slash :: name
  basename path := (path.splitOn slash).getLastD []
  sha1 _ := List.replicate 20 0
  join_output name _ := by
    by_cases hroot : name.head? = some slash
    · exact Or.inl (if_pos (Or.inl hroot))
    · refine Or.inr ⟨slash, by simp, ?_⟩
      have hempty : outputDirectory ≠ [] := by decide
      have hlast : outputDirectory.getLast? ≠ some slash := by decide
      rw [if_neg (by simp [hroot, hempty]), if_neg hlast]
  suffix_join directory name _ := by
    split
    · exact List.suffix_rfl
    · split
      · exact List.suffix_append directory name
      · exact ⟨directory ++ [slash], by simp⟩
  length_sha1 _ := rfl

def linuxShipment (binary : Text) : Shipment where
  config :=
    { identifier := text "com.example.demo"
      name := text "Demo"
      manufacturer := text "Example"
      targets := [text "linux-x86_64"]
      targets_valid := by decide
      update := none
      macos := none
      windows := none
      service := none }
  version := text "1.2.3"
  host := .linux
  binary
  build := true
  windowsFormat := none
  environment := none
  channel := .release
  root := none
  onDisk _ := true

theorem isOk_of_linuxShipment :
    (ShipPlan.of slashed (linuxShipment (text "demo"))).isOk = true ∧
      (ShipPlan.of slashed (linuxShipment (text "demo,app"))).isOk = true := by
  decide

theorem namesWhatIsWritten_demo :
    ∃ plan, ShipPlan.of slashed (linuxShipment (text "demo")) = .ok plan ∧
      NamesWhatIsWritten slashed (linuxShipment (text "demo")) plan := by
  have hplan := isOk_of_linuxShipment.1
  cases hof : ShipPlan.of slashed (linuxShipment (text "demo")) with
  | error refusal => rw [hof] at hplan; cases hplan
  | ok plan =>
      refine ⟨plan, rfl, (namesWhatIsWritten_iff _ _ plan hof).mpr fun _ => ?_⟩
      have hcomma : comma ∉ (linuxShipment (text "demo")).binary := by
        decide
      refine ⟨hcomma, fun hreleases => ?_⟩
      exact absurd hreleases.2 (by decide)

/-- What is signed is `dist/demo`, and `app_1.2.3_amd64.deb`. -/
theorem not_namesWhatIsWritten_comma :
    ¬ ∀ (packages : Packages) (shipment : Shipment) (plan : ShipPlan),
      ShipPlan.of packages shipment = .ok plan →
      NamesWhatIsWritten packages shipment plan := by
  intro hall
  have hplan := isOk_of_linuxShipment.2
  cases hof : ShipPlan.of slashed (linuxShipment (text "demo,app")) with
  | error refusal => rw [hof] at hplan; cases hplan
  | ok plan =>
      have hnames := hall slashed _ plan hof
      obtain ⟨plans, hmade⟩ := madeOf_of_eq_ok hof
      have hsigns : SignsFiles (linuxShipment (text "demo,app")) := by
        intro hhost
        cases hhost
      refine comma_not_mem_of_supplied hmade hsigns hnames.supplied ?_
      show comma ∈ text "demo,app"
      decide

end Dovetail.Cli.Ship
