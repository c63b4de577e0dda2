import Dovetail.CliShipCoverage

/-!
# Plans of one group

Where every target of a host is in one group, however often it is declared,
the steps of the plan are those of the group again and again: they write one
artefact, under one label, for all of the targets.
-/

namespace Dovetail.Cli.Ship

open CodeUnits CommandOptions Bundler Signer FallibleSteps SuppliedSteps

section

variable {packages : Packages} {shipment : Shipment} {plan : ShipPlan}
  {plans : List ShipPlan.GroupPlan} {group : List Text}
  {tool : FlutterTool packages} {reader : Reader} {tools : ChecksumTools}
  {onDisk : Text → Bool}

theorem known_eq_parts : ∀ key ∈ knownKeys,
    key = ShipPlan.operatingSystem key ++
      Release.dash :: ShipPlan.wireArch key := by
  decide

theorem known_of_target {target : Text}
    (htarget : target ∈ ShipPlan.targetsForHost shipment.config
      shipment.host) :
    target ∈ knownKeys ∧
      ShipPlan.hostFor (ShipPlan.operatingSystem target) =
        shipment.host.name := by
  rcases List.mem_filter.mp htarget with ⟨htargets, hours⟩
  constructor
  · exact mem_knownKeys_of_validate
      (shipment.config.targets_valid target htargets)
  · exact of_decide_eq_true hours

/-- Off macOS a host has one target of an architecture. -/
theorem target_eq {target arch : Text} (hhost : shipment.host ≠ .macos)
    (htarget : target ∈ ShipPlan.targetsForHost shipment.config
      shipment.host)
    (harch : ShipPlan.wireArch target = arch) :
    target = shipment.host.name ++ Release.dash :: arch := by
  rcases known_of_target htarget with ⟨hknown, hours⟩
  have hmacos : text "macos" ≠ shipment.host.name := by
    cases hother : shipment.host with
    | macos => exact absurd hother hhost
    | windows => decide
    | linux => decide
  have hsystem : ShipPlan.operatingSystem target = shipment.host.name := by
    unfold ShipPlan.hostFor at hours
    split at hours
    · exact absurd hours hmacos
    · exact hours
  calc
    target = ShipPlan.operatingSystem target ++
        Release.dash :: ShipPlan.wireArch target :=
      known_eq_parts target hknown
    _ = shipment.host.name ++ Release.dash :: arch := by
      rw [hsystem, harch]

/-- The group of all targets, which is planned alike however often it is
declared. -/
structure OfOne (packages : Packages) (shipment : Shipment)
    (plans : List ShipPlan.GroupPlan) (group : List Text)
    (part : ShipPlan.GroupPlan) : Prop where
  ours : Ours shipment group
  planned : ShipPlan.planGroup packages shipment group = .ok part
  alike : ∀ other ∈ plans, other = part
  whole : ∀ target ∈ ShipPlan.targetsForHost shipment.config shipment.host,
    target ∈ group

theorem exists_ofOne (hmade : MadeOf packages shipment plan plans)
    (hmapped : (ShipPlan.groups (ShipPlan.targetsForHost shipment.config
      shipment.host) shipment.host).mapM
        (ShipPlan.planGroup packages shipment) = .ok plans)
    (harches : shipment.host ≠ .macos → ∀ target ∈
      ShipPlan.targetsForHost shipment.config shipment.host,
      ShipPlan.wireArch target = text "x86_64") :
    ∃ group part, OfOne packages shipment plans group part := by
  have hmine := mine_ne_nil hmade
  have hgroups : ∃ group,
      (∀ other ∈ ShipPlan.groups (ShipPlan.targetsForHost shipment.config
        shipment.host) shipment.host, other = group) ∧
      ∀ target ∈ ShipPlan.targetsForHost shipment.config shipment.host,
        target ∈ group := by
    by_cases hhost : shipment.host = .macos
    · refine ⟨ShipPlan.targetsForHost shipment.config shipment.host, ?_, ?_⟩
      · intro other hother
        have hgroups : ShipPlan.groups (ShipPlan.targetsForHost
            shipment.config shipment.host) shipment.host =
              [ShipPlan.targetsForHost shipment.config shipment.host] := by
          rw [hhost]
          rfl
        rw [hgroups] at hother
        exact List.mem_singleton.mp hother
      · intro target htarget
        exact htarget
    · have hsame := fun target htarget =>
        target_eq hhost htarget (harches hhost target htarget)
      refine ⟨[shipment.host.name ++ Release.dash :: text "x86_64"], ?_, ?_⟩
      · intro other hother
        unfold ShipPlan.groups at hother
        split at hother
        · next hmacos => exact absurd hmacos hhost
        · rcases List.mem_map.mp hother with ⟨key, hkey, rfl⟩
          rw [hsame key hkey]
      · intro target htarget
        exact List.mem_singleton.mpr (hsame target htarget)
  rcases hgroups with ⟨group, hsame, hwhole⟩
  rcases List.exists_mem_of_ne_nil _ hmade.nonempty with ⟨part, hpart⟩
  have hplanned : ∀ other ∈ plans,
      ShipPlan.planGroup packages shipment group = .ok other := by
    intro other hother
    rcases exists_item_of_mapM_eq_ok hmapped hother with
      ⟨found, hfound, hstep⟩
    rw [← hsame found hfound]
    exact hstep
  refine ⟨group, part, ?_, hplanned part hpart, ?_, hwhole⟩
  · rcases exists_item_of_mapM_eq_ok hmapped hpart with ⟨found, hfound, -⟩
    rw [← hsame found hfound]
    exact ⟨hmine, hfound⟩
  · intro other hother
    have hown := hplanned other hother
    rw [hplanned part hpart, Except.ok.injEq] at hown
    exact hown.symm

/-- A label that is assigned once more stays the only one. -/
theorem foldl_assign_of_alike {entries : Paths} {entry : Text × Text}
    (halike : ∀ other ∈ entries, other = entry) (hsome : entries ≠ []) :
    entries.foldl Paths.assign [] = [entry] := by
  have hagain : ∀ entries : Paths, (∀ other ∈ entries, other = entry) →
      entries.foldl Paths.assign [entry] = [entry] := by
    intro entries
    induction entries with
    | nil =>
        intro _
        rfl
    | cons other rest ih =>
        intro halike
        rcases List.forall_mem_cons.mp halike with ⟨rfl, hrest⟩
        have hassigned : Paths.assign [other] other = [other] := by
          simp [Paths.assign]
        rw [List.foldl_cons, hassigned]
        exact ih hrest
  rcases List.exists_cons_of_ne_nil hsome with ⟨other, rest, rfl⟩
  rcases List.forall_mem_cons.mp halike with ⟨rfl, hrest⟩
  have hassigned : Paths.assign [] other = [other] := by
    simp [Paths.assign]
  rw [List.foldl_cons, hassigned]
  exact hagain rest hrest

/-- What is released of a group, and the step that bundles it. -/
theorem artifact_of_planned (hchannel : shipment.channel = .release)
    {part : ShipPlan.GroupPlan}
    (hplanned : Planned packages shipment group part) :
    ∃ title format name, format ≠ .thin ∧
      ShipPlan.artifactNameFor packages shipment (ShipPlan.archesOf group)
        format = .ok name ∧
      part.artifacts = listed packages group name ∧
      bundled packages shipment group title format ∈ part.steps := by
  have hinternal : shipment.channel.isInternal = false := by
    rw [hchannel]
    rfl
  cases hplanned with
  | macosInternal hhost hother hname =>
      rw [hchannel] at hother
      cases hother
  | @macosRelease name archive hhost _ hname harchive =>
      exact ⟨text "archive ", .tar, archive, by decide, harchive, rfl,
        by simp⟩
  | @other name payload hhost hname hpayload =>
      refine ⟨text "bundle ", _, name, downloadFormat_ne_thin, hname, ?_,
        by simp⟩
      simp [hinternal]

theorem artifacts_ofOne {part : ShipPlan.GroupPlan}
    (hmade : MadeOf packages shipment plan plans)
    (hone : OfOne packages shipment plans group part) {name : Text}
    (hlisted : part.artifacts = listed packages group name) :
    plan.artifacts = listed packages group name := by
  rw [hmade.artifacts]
  have halike : ∀ other ∈ plans.flatMap (·.artifacts),
      other = (ShipPlan.labelOf group,
        packages.join outputDirectory name) := by
    intro other hother
    rcases List.mem_flatMap.mp hother with ⟨found, hfound, hmem⟩
    rw [hone.alike found hfound, hlisted] at hmem
    exact List.mem_singleton.mp hmem
  apply foldl_assign_of_alike halike
  rcases List.exists_cons_of_ne_nil hmade.nonempty with ⟨first, rest, rfl⟩
  rw [List.flatMap_cons, hone.alike first List.mem_cons_self, hlisted]
  exact List.cons_ne_nil _ _

/-! ## What a coverable plan covers -/

theorem fills_of_coverable (hcoverable : Coverable tool shipment tools)
    {target : Text} (htarget : target ∈ ShipPlan.targetsForHost
      shipment.config shipment.host)
    (harch : ShipPlan.wireArch target ∈
      [text "x86_64", text "aarch64"]) :
    tool.fills shipment.host (ShipPlan.releaseBuild shipment)
      (ShipPlan.appDirectory packages shipment)
      (ShipPlan.wireArch target) := by
  by_cases hhost : shipment.host = .macos
  · rw [appDirectory_macos hhost, hhost]
    apply (tool.fills_macos _ _ _ harch).mpr
    exact hcoverable.macos hhost
  · rcases hcoverable.other hhost with ⟨hmachine, harches⟩
    rw [appDirectory_other hhost]
    apply (tool.fills_other _ _ _ hhost).mpr
    exact ⟨harches target htarget, hmachine⟩

/-- The artefact of a group was made for each of its targets. -/
theorem madeFor_of_bundled (hmade : MadeOf packages shipment plan plans)
    (hsigns : SignsFiles shipment) {part : ShipPlan.GroupPlan}
    (hpart : part ∈ plans) (hours : Ours shipment group)
    (hplanned : Planned packages shipment group part) {title name : Text}
    {format : MacosFormat} (hformat : format ≠ .thin)
    (hname : ShipPlan.artifactNameFor packages shipment
      (ShipPlan.archesOf group) format = .ok name)
    (hbundled : bundled packages shipment group title format ∈ part.steps)
    {target : Text} (htarget : target ∈ group)
    (hfills : tool.fills shipment.host (ShipPlan.releaseBuild shipment)
      (ShipPlan.appDirectory packages shipment)
      (ShipPlan.wireArch target)) :
    MadeFor tool shipment plan.steps
      (packages.join outputDirectory name) target := by
  rcases completes_of_planned hours hplanned hsigns _ hbundled with
    ⟨made, hwrites, -⟩
  refine ⟨bundled packages shipment group title format, ?_, rfl,
    ⟨made, hwrites, mem_of_bundled hours hformat hname hwrites⟩, ?_⟩
  · rw [hmade.steps, List.mem_append, List.mem_append]
    left
    right
    exact List.mem_flatMap.mpr ⟨part, hpart, hbundled⟩
  · refine ⟨_, ShipPlan.appDirectory packages shipment, parse_bundled title
      format, ?_, single_appDir _ _, hfills⟩
    rw [multi_arch (allowed_of_planned hours hplanned)]
    exact List.mem_map.mpr ⟨target, htarget, rfl⟩

/-! ### What a client finds -/

theorem systems_of_host : ∀ key ∈ knownKeys,
    ShipPlan.hostFor (ShipPlan.operatingSystem key) = text "macos" →
      ShipPlan.operatingSystem key = text "darwin" := by
  decide

theorem takeWhile_known : ∀ key ∈ knownKeys,
    key.takeWhile (· != 45) = ShipPlan.operatingSystem key := by
  decide

theorem mem_of_mem_group {target : Text} (hours : Ours shipment group)
    (htarget : target ∈ group) :
    target ∈ ShipPlan.targetsForHost shipment.config shipment.host := by
  have hgroup := hours.mem
  unfold ShipPlan.groups at hgroup
  split at hgroup
  · rw [List.mem_singleton.mp hgroup] at htarget
    exact htarget
  · rcases List.mem_map.mp hgroup with ⟨key, hkey, rfl⟩
    rw [List.mem_singleton.mp htarget]
    exact hkey

/-- The label of a group is the key a client looks for, or the universal one
of its operating system. -/
theorem labelOf_eq (hours : Ours shipment group) {target : Text}
    (htarget : target ∈ group) :
    ShipPlan.labelOf group = target ∨ ShipPlan.labelOf group =
      target.takeWhile (· != 45) ++ text "-universal" := by
  have hgroup := hours.mem
  unfold ShipPlan.groups at hgroup
  split at hgroup
  · next hhost =>
      have hsystem : ∀ key ∈ group,
          ShipPlan.operatingSystem key = text "darwin" := by
        intro key hkey
        rcases known_of_target (mem_of_mem_group hours hkey) with
          ⟨hknown, hmacos⟩
        rw [hhost] at hmacos
        exact systems_of_host key hknown hmacos
      have huniversal : target.takeWhile (· != 45) = text "darwin" := by
        have hknown := known_of_mem_group hours.mem htarget
        rw [takeWhile_known target hknown, hsystem target htarget]
      unfold ShipPlan.labelOf
      split
      · left
        exact (List.mem_singleton.mp htarget).symm
      · right
        rcases List.exists_cons_of_ne_nil (List.ne_nil_of_mem htarget) with
          ⟨first, rest, rfl⟩
        rw [huniversal, List.headD_cons, hsystem first List.mem_cons_self]
  · rcases List.mem_map.mp hgroup with ⟨key, -, rfl⟩
    left
    exact (List.mem_singleton.mp htarget).symm

/-- A manifest of one artefact, under the key of the client or under the
universal one. -/
theorem releaseFor_singleton (reader : Reader) {artifact : Release.Artifact}
    {target : Text} (hkey : artifact.platformKey = target ∨
      artifact.platformKey =
        target.takeWhile (· != 45) ++ text "-universal") :
    Updater.releaseFor reader.runtime (reader.manifest [artifact]) target =
      .ok (reader.release artifact) := by
  rw [Updater.releaseFor_eq_ok_iff]
  have hfound : Updater.releaseOf? (reader.manifest [artifact])
      artifact.platformKey = some (reader.release artifact) := by
    simp [Updater.releaseOf?, Reader.manifest]
  by_cases hsame : artifact.platformKey = target
  · rw [← hsame, hfound, Option.some_or]
  · have hmissing : Updater.releaseOf? (reader.manifest [artifact]) target =
        none := by
      simp [Updater.releaseOf?, Reader.manifest, hsame]
    rw [hmissing, Option.none_or, ← hkey.resolve_left hsame, hfound]

/-! ### What is written over -/

theorem space_not_mem_known : ∀ key ∈ knownKeys, space ∉ key ∧
    space ∉ ShipPlan.operatingSystem key := by
  decide

theorem space_not_mem_labelOf (hours : Ours shipment group) :
    space ∉ ShipPlan.labelOf group := by
  have hknown : ∀ key ∈ group, key ∈ knownKeys := by
    intro key hkey
    exact known_of_mem_group hours.mem hkey
  unfold ShipPlan.labelOf
  split
  · next key =>
      exact (space_not_mem_known key
        (hknown key (List.mem_singleton_self key))).1
  · rcases List.exists_cons_of_ne_nil
      (ne_nil_of_mem_groups hours.nonempty hours.mem) with
      ⟨first, rest, rfl⟩
    have hfirst := space_not_mem_known first (hknown first List.mem_cons_self)
    have huniversal : space ∉ text "-universal" := by decide
    rw [List.headD_cons, List.mem_append]
    intro hmem
    exact hmem.elim hfirst.2 huniversal

/-- The last word of a text. -/
theorem lastWord_append {before label : Text} (hlabel : space ∉ label) :
    ((before ++ space :: label).reverse.takeWhile (· != space)).reverse =
      label := by
  have hword : ∀ unit ∈ label.reverse, (unit != space) = true := by
    intro unit hunit
    have hother : unit ≠ space := by
      intro hsame
      exact hlabel (hsame ▸ List.mem_reverse.mp hunit)
    simpa using hother
  have hreverse : (before ++ space :: label).reverse =
      label.reverse ++ space :: before.reverse := by
    simp
  rw [hreverse, List.takeWhile_append_of_pos hword,
    List.takeWhile_cons_of_neg (by simp), List.append_nil,
    List.reverse_reverse]

theorem targetOf_of_label {step : ShipStep} {title : Text}
    (hours : Ours shipment group)
    (htitle : title ∈ [text "bundle ", text "sign ", text "sign payload ",
      text "sign dmg ", text "thin ", text "archive "])
    (hlabel : step.label = title ++ ShipPlan.labelOf group) :
    targetOf step = ShipPlan.labelOf group := by
  have hends : ∀ title ∈ [text "bundle ", text "sign ",
      text "sign payload ", text "sign dmg ", text "thin ",
      text "archive "], title = title.dropLast ++ [space] := by
    decide
  have hwords : step.label =
      title.dropLast ++ space :: ShipPlan.labelOf group := by
    rw [hlabel]
    nth_rewrite 1 [hends title htitle]
    rw [List.append_assoc]
    rfl
  rw [targetOf, hwords]
  exact lastWord_append (space_not_mem_labelOf hours)

/-- The steps of a group are labelled after it. -/
theorem targetOf_of_planned (hours : Ours shipment group)
    {part : ShipPlan.GroupPlan}
    (hplanned : Planned packages shipment group part) :
    ∀ step ∈ part.steps, targetOf step = ShipPlan.labelOf group := by
  have hthinned : ∀ step ∈ thinned packages shipment group,
      targetOf step = ShipPlan.labelOf group := by
    unfold thinned
    split
    · intro step hstep
      rw [List.mem_singleton.mp hstep]
      exact targetOf_of_label hours (by simp) rfl
    · simp
  have hbundled : ∀ title ∈ [text "bundle ", text "archive "], ∀ format,
      targetOf (bundled packages shipment group title format) =
        ShipPlan.labelOf group := by
    intro title htitle format
    apply targetOf_of_label hours _ rfl
    rcases List.mem_pair.mp htitle with rfl | rfl
    · simp
    · simp
  have hsigned : ∀ name, targetOf (signed packages shipment group name) =
      ShipPlan.labelOf group := by
    intro name
    exact targetOf_of_label hours (by simp) rfl
  cases hplanned with
  | macosInternal hhost hchannel hname =>
      simp only [List.forall_mem_append, List.forall_mem_cons]
      exact ⟨hthinned, hsigned _, hbundled _ (by simp) _, by simp⟩
  | macosRelease hhost hchannel hname harchive =>
      simp only [List.forall_mem_append, List.forall_mem_cons]
      exact ⟨hthinned, hsigned _, hbundled _ (by simp) _,
        targetOf_of_label hours (by simp) rfl, hbundled _ (by simp) _,
        by simp⟩
  | other hhost hname hpayload =>
      simp only [List.forall_mem_append, List.forall_mem_cons]
      refine ⟨?_, hbundled _ (by simp) _, hsigned _, by simp⟩
      rcases hpayload with rfl | rfl
      · simp
      · rw [List.forall_mem_singleton]
        exact targetOf_of_label hours (by simp) rfl

/-! ### What is summed -/

/-- Neither a bundle nor the checksums. -/
theorem checksumsAfter_of_ne {step : ShipStep}
    (hsign : step.command ≠ text "sign")
    (hbundle : step.command ≠ text "bundle") (made : List Text)
    (sums : Option Checksums) (rest : List ShipStep) :
    checksumsAfter packages shipment tools onDisk made sums (step :: rest) =
      checksumsAfter packages shipment tools onDisk made sums rest := by
  have hskip : checksumsAfter packages shipment tools onDisk made sums
      (step :: rest) = checksumsAfter packages shipment tools onDisk
        (made ++ []) sums rest := by
    conv_lhs => unfold checksumsAfter
    rw [if_neg hsign, writes_of_ne hbundle]
    rfl
  rw [hskip, List.append_nil]

/-- A step that bundles leaves the checksums as they are. -/
theorem checksumsAfter_bundled {own : List Text} {title : Text}
    {format : MacosFormat}
    (hown : (pipeline packages shipment).writes
      (bundled packages shipment group title format) = .ok own)
    (made : List Text) (sums : Option Checksums) (rest : List ShipStep) :
    checksumsAfter packages shipment tools onDisk made sums
        (bundled packages shipment group title format :: rest) =
      checksumsAfter packages shipment tools onDisk (made ++ own) sums
        rest := by
  have hother : (bundled packages shipment group title format).command ≠
      text "sign" := by
    show text "bundle" ≠ text "sign"
    decide
  conv_lhs => unfold checksumsAfter
  rw [if_neg hother, hown]
  rfl

/-- A step that sums a file which is there names it. -/
theorem checksumsAfter_signed {name : Text} {made : List Text}
    (hhost : shipment.host = .linux)
    (hname : NamedAfter shipment.binary name)
    (hcomma : comma ∉ shipment.binary)
    (hinside : tools.dirname (tools.whole
      (packages.join outputDirectory name)) = tools.whole outputDirectory)
    (hthere : packages.join outputDirectory name ∈ made)
    (sums : Option Checksums) (rest : List ShipStep) :
    ∃ written, written.files = [packages.join outputDirectory name] ∧
      checksumsAfter packages shipment tools onDisk made sums
          (signed packages shipment group name :: rest) =
        checksumsAfter packages shipment tools onDisk made (some written)
          rest := by
  rcases @ChecksumWriter.write_singleton tools
    (fun file => made.contains file || onDisk file)
    (packages.join outputDirectory name) outputDirectory (by simp [hthere])
    hinside with ⟨written, hwrite, hfiles⟩
  refine ⟨written, hfiles, ?_⟩
  have hsign : (signed packages shipment group name).command =
      text "sign" := rfl
  conv_lhs => unfold checksumsAfter
  rw [if_pos hsign, parse_signed_linux hhost]
  simp only [Option.bind_eq_bind, Option.bind_some, multi_file_summing,
    single_outDir_summing, Option.getD_some, splitOn_join hname hcomma,
    hwrite, Except.toOption]

/-- Whatever was summed before, in the end it is the artefact. -/
theorem checksumsAfter_parts {part : ShipPlan.GroupPlan} {name : Text}
    (hhost : shipment.host = .linux)
    (hname : NamedAfter shipment.binary name)
    (hcomma : comma ∉ shipment.binary)
    (hinside : tools.dirname (tools.whole
      (packages.join outputDirectory name)) = tools.whole outputDirectory)
    {own : List Text} {format : MacosFormat}
    (hown : (pipeline packages shipment).writes
      (bundled packages shipment group (text "bundle ") format) = .ok own)
    (hthere : packages.join outputDirectory name ∈ own)
    (hsteps : part.steps =
      [bundled packages shipment group (text "bundle ") format,
        signed packages shipment group name])
    (halike : ∀ other ∈ plans, other = part) (made : List Text)
    {sums : Option Checksums} (hsome : plans ≠ [] ∨ ∃ written,
      sums = some written ∧
        written.files = [packages.join outputDirectory name])
    {last : List ShipStep} (hlast : ∀ step ∈ last,
      step.command ≠ text "sign" ∧ step.command ≠ text "bundle") :
    ∃ written, written.files = [packages.join outputDirectory name] ∧
      checksumsAfter packages shipment tools onDisk made sums
        (plans.flatMap (·.steps) ++ last) = some (some written) := by
  induction plans generalizing made sums with
  | nil =>
      rcases hsome.resolve_left (fun hnil => hnil rfl) with
        ⟨written, rfl, hfiles⟩
      refine ⟨written, hfiles, ?_⟩
      rw [List.flatMap_nil, List.nil_append]
      induction last with
      | nil => rfl
      | cons step rest ih =>
          rcases List.forall_mem_cons.mp hlast with ⟨hstep, hrest⟩
          rw [checksumsAfter_of_ne hstep.1 hstep.2]
          exact ih hrest
  | cons first rest ih =>
      rcases List.forall_mem_cons.mp halike with ⟨rfl, hrest⟩
      have hmem : packages.join outputDirectory name ∈ made ++ own :=
        List.mem_append_right _ hthere
      rcases @checksumsAfter_signed packages shipment group tools onDisk name
        (made ++ own) hhost hname hcomma hinside hmem sums
        (rest.flatMap (·.steps) ++ last) with ⟨summed, hsummed, hafter⟩
      rcases ih hrest (made ++ own) (Or.inr ⟨summed, rfl, hsummed⟩) with
        ⟨written, hfiles, hdone⟩
      refine ⟨written, hfiles, ?_⟩
      calc
        _ = checksumsAfter packages shipment tools onDisk made sums
            (bundled packages shipment group (text "bundle ") format ::
              signed packages shipment group name ::
                (rest.flatMap (·.steps) ++ last)) := by
          rw [List.flatMap_cons, hsteps]
          rfl
        _ = checksumsAfter packages shipment tools onDisk (made ++ own) sums
            (signed packages shipment group name ::
              (rest.flatMap (·.steps) ++ last)) :=
          checksumsAfter_bundled hown made sums _
        _ = _ := hafter.trans hdone

theorem summed_of_coverable {part : ShipPlan.GroupPlan}
    (hchannel : shipment.channel = .release)
    (hhost : shipment.host = .linux)
    (hmade : MadeOf packages shipment plan plans)
    (hone : OfOne packages shipment plans group part)
    (hcoverable : Coverable tool shipment tools)
    (harches : ShipPlan.archesOf group = [text "x86_64"]) :
    ∃ sums, checksumsAfter packages shipment tools onDisk [] none plan.steps =
        some (some sums) ∧
      ∀ artifact ∈ plan.artifacts, artifact.2 ∈ sums.files := by
  rcases hcoverable.linux hhost with ⟨hcomma, hinside⟩
  rcases planGroup_linux hhost hchannel hone.planned with
    ⟨name, hname, hpart⟩
  have hsigns : SignsFiles shipment := by
    intro hmacos
    rw [hhost] at hmacos
    cases hmacos
  have hbundled : bundled packages shipment group (text "bundle ") .dmg ∈
      part.steps := by
    rw [hpart]
    exact List.mem_cons_self
  rcases completes_of_planned hone.ours (planned_of_planGroup hone.planned)
    hsigns _ hbundled with ⟨own, hown, -⟩
  have hthere : packages.join outputDirectory name ∈ own :=
    mem_of_bundled hone.ours (by decide) hname hown
  have hlast : ∀ step ∈ (if !shipment.channel.isInternal ∧
        shipment.config.update.isSome then
      [ShipPlan.releasing shipment plan.artifacts] else []),
      step.command ≠ text "sign" ∧ step.command ≠ text "bundle" := by
    split
    · intro step hstep
      rw [List.mem_singleton.mp hstep]
      show text "release" ≠ text "sign" ∧ text "release" ≠ text "bundle"
      decide
    · simp
  have hnamed := namedAfter_of_artifactNameFor hname
  have hdirectory := hinside name (by rw [← harches]; exact hname)
  rcases @checksumsAfter_parts packages shipment plans group tools onDisk part
    name hhost hnamed hcomma hdirectory own .dmg hown hthere (by rw [hpart])
    hone.alike [] none (Or.inl hmade.nonempty) _ hlast with
    ⟨written, hfiles, hdone⟩
  refine ⟨written, ?_, ?_⟩
  · rw [hmade.steps, List.append_assoc]
    split
    · rw [List.singleton_append]
      rw [checksumsAfter_of_ne]
      · exact hdone
      · show text "build" ≠ text "sign"
        decide
      · show text "build" ≠ text "bundle"
        decide
    · exact hdone
  · rw [artifacts_ofOne hmade hone (by rw [hpart])]
    intro artifact hartifact
    rw [List.mem_singleton.mp hartifact, hfiles]
    exact List.mem_singleton_self _

theorem covers_of_coverable (hchannel : shipment.channel = .release)
    (hplan : ShipPlan.of packages shipment = .ok plan)
    (hrefusals : plan.refusals = [])
    (hcoverable : Coverable tool shipment tools) :
    Covers tool shipment reader tools onDisk plan := by
  have hsigns := signsFiles_of_not_refused hplan hchannel hrefusals
  rcases mapped_of_eq_ok hplan with ⟨plans, hmapped, hmade⟩
  rcases exists_ofOne hmade hmapped
    (fun hhost => (hcoverable.other hhost).2) with ⟨group, part, hone⟩
  have hplanned := planned_of_planGroup hone.planned
  rcases artifact_of_planned hchannel hplanned with
    ⟨title, format, name, hformat, hname, hlisted, hbundled⟩
  have hartifacts := artifacts_ofOne hmade hone hlisted
  have hpart : part ∈ plans := by
    rcases List.exists_mem_of_ne_nil _ hmade.nonempty with ⟨first, hfirst⟩
    rw [← hone.alike first hfirst]
    exact hfirst
  have hmadeFor : ∀ target ∈ ShipPlan.targetsForHost shipment.config
      shipment.host, MadeFor tool shipment plan.steps
        (packages.join outputDirectory name) target := by
    intro target htarget
    apply madeFor_of_bundled hmade hsigns hpart hone.ours hplanned hformat
      hname hbundled (hone.whole target htarget)
    apply fills_of_coverable hcoverable htarget
    exact wireArch_of_mem hone.ours hplanned (hone.whole target htarget)
  constructor
  case made =>
    intro target htarget
    refine ⟨(ShipPlan.labelOf group, packages.join outputDirectory name),
      ?_, hmadeFor target htarget⟩
    rw [hartifacts]
    exact List.mem_singleton_self _
  case released =>
    intro hreleases
    rcases hmade.based hreleases with ⟨base, hbase⟩
    refine ⟨ShipPlan.releasing shipment plan.artifacts, ?_, rfl, _,
      releasedArtifacts_of_plain (artefact_of_madeOf hmade)
        (hcoverable.plain hreleases) hbase, ?_⟩
    · rw [steps_of_releases hmade hreleases]
      exact List.mem_append_right _ (List.mem_singleton_self _)
    · intro target htarget
      rw [hartifacts]
      refine ⟨_, List.mem_singleton_self _, ?_, hmadeFor target htarget⟩
      apply releaseFor_singleton
      exact labelOf_eq hone.ours (hone.whole target htarget)
  case apart =>
    intro before step between later rest hsplit hstep hlater hapart
    have hlabel : ∀ step ∈ plan.steps,
        step.command ∈ [text "bundle", text "sign"] →
        targetOf step = ShipPlan.labelOf group := by
      intro step hstep hcommand
      rcases mem_body_of_command hmade hstep hcommand with
        ⟨other, hother, hmem⟩
      rw [hone.alike other hother] at hmem
      exact targetOf_of_planned hone.ours hplanned step hmem
    exfalso
    apply hapart
    rw [hlabel step (by simp [hsplit]) hstep,
      hlabel later (by simp [hsplit]) hlater]
  case summed =>
    intro hhost
    have hforeign : shipment.host ≠ .macos := by simp [hhost]
    apply summed_of_coverable hchannel hhost hmade hone hcoverable
    exact archesOf_of_mem_groups hforeign (hcoverable.other hforeign).2
      hone.ours.mem

end

/-! ### One target of Linux -/

def flutter (packages : Packages) (machine product : Text) :
    FlutterTool packages where
  machine
  product
  fills host release directory arch :=
    if host = .macos then
      directory = packages.join (FlutterBuild.outputOf .macos release)
        (product ++ text ".app")
    else directory = FlutterBuild.outputOf host release ∧
      arch = text "x86_64" ∧ machine = text "x86_64"
  fills_macos release directory arch _ := by
    rw [if_pos rfl]
  fills_other host release arch hhost := by
    rw [if_neg hhost]
    simp

/-- Paths that are whole and parted by slashes. -/
def slashedTools : ChecksumTools where
  whole path := path
  dirname path := path.take (path.length - 1 - path.reverse.idxOf slash)
  basename path := (path.splitOn slash).getLastD []
  join directory name := directory ++ slash :: name
  shasum name := text "0000  " ++ name ++ text "\n"

def releasedShipment : Shipment :=
  { linuxShipment (text "demo") with
    config :=
      { (linuxShipment (text "demo")).config with
        update := some
          { keyPath := text "update.key"
            passwordEnv := text "UPDATE_KEY_PASSWORD"
            publicKey := some (text "RWQ")
            baseUrl := some (text "https://example.com/releases")
            manifestPath := text "latest.json"
            unencrypted := false } } }

def sampleReader : Reader where
  Version := Text
  Date := Unit
  runtime := Updater.releaseRuntime
  version := text "1.2.3"
  signature path := path

theorem releasedShipment_ready :
    (ShipPlan.of slashed releasedShipment).isOk = true ∧
      ShipPlan.refusalsOf slashed releasedShipment = [] ∧
      (ShipPlan.artifactNameFor slashed releasedShipment [text "x86_64"]
        .dmg).toOption = some (text "demo_1.2.3_amd64.deb") := by
  decide

end Dovetail.Cli.Ship
