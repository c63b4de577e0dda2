import Mathlib.Tactic

/-!
# Steps supplied by the steps before them

A step of a pipeline writes files, unless it fails, and reads files, unless
it cannot tell which.  A pipeline is supplied if every step that is reached
reads only what the steps before it have written.
-/

namespace SuppliedSteps

structure Pipeline (Step File Failure : Type) where
  writes : Step → Except Failure (List File)
  reads : Step → Option (List File)

variable {Step File Failure : Type} (pipeline : Pipeline Step File Failure)

/-- What is there once all of the steps are completed. -/
def after : List File → List Step → Except Failure (List File)
  | files, [] => .ok files
  | files, step :: rest =>
      match pipeline.writes step with
      | .error failure => .error failure
      | .ok made => after (files ++ made) rest

/-- The step reads only files that are there. -/
def Reads (files : List File) (step : Step) : Prop :=
  ∃ read, pipeline.reads step = some read ∧ read ⊆ files

def Supplied (files : List File) (steps : List Step) : Prop :=
  ∀ before step rest made, steps = before ++ step :: rest →
    after pipeline files before = .ok made → Reads pipeline made step

variable {pipeline} {files : List File} {step : Step} {steps : List Step}

theorem after_append (before rest : List Step) :
    after pipeline files (before ++ rest) =
      (after pipeline files before).bind fun made =>
        after pipeline made rest := by
  induction before generalizing files with
  | nil => rfl
  | cons step before ih =>
      simp only [List.cons_append, after]
      cases pipeline.writes step with
      | error failure => rfl
      | ok made => exact ih

/-! ## Supply along a pipeline -/

@[simp] theorem supplied_nil : Supplied pipeline files [] := by
  intro before step rest made hsplit
  simp at hsplit

theorem supplied_cons :
    Supplied pipeline files (step :: steps) ↔
      Reads pipeline files step ∧
        ∀ made, pipeline.writes step = .ok made →
          Supplied pipeline (files ++ made) steps := by
  constructor
  · intro hsupplied
    refine ⟨hsupplied [] step steps files rfl rfl, ?_⟩
    intro made hmade before next rest later hsplit hlater
    refine hsupplied (step :: before) next rest later (by simp [hsplit]) ?_
    simp [after, hmade, hlater]
  · rintro ⟨hstep, hrest⟩ before next rest later hsplit hlater
    cases before with
    | nil =>
        obtain ⟨rfl, rfl⟩ := by simpa using hsplit
        simp only [after, Except.ok.injEq] at hlater
        exact hlater ▸ hstep
    | cons first before =>
        obtain ⟨rfl, rfl⟩ := by simpa using hsplit
        simp only [after] at hlater
        split at hlater
        · cases hlater
        · rename_i made hmade
          exact hrest made hmade before next rest later rfl hlater

theorem supplied_append {before rest : List Step} :
    Supplied pipeline files (before ++ rest) ↔
      Supplied pipeline files before ∧
        ∀ made, after pipeline files before = .ok made →
          Supplied pipeline made rest := by
  induction before generalizing files with
  | nil => simp [after]
  | cons step before ih =>
      simp only [List.cons_append, supplied_cons, ih, after]
      cases hwrites : pipeline.writes step with
      | error failure => simp
      | ok made => simp [and_assoc]

theorem supplied_of_reads_nothing
    (hsteps : ∀ step ∈ steps, pipeline.reads step = some []) :
    Supplied pipeline files steps := by
  intro before step rest made hsplit _
  refine ⟨[], hsteps step ?_, List.nil_subset made⟩
  simp [hsplit]

/-- What is there already does no harm. -/
theorem supplied_mono {more : List File} (hmore : files ⊆ more)
    (hsupplied : Supplied pipeline files steps) :
    Supplied pipeline more steps := by
  induction steps generalizing files more with
  | nil => exact supplied_nil
  | cons step steps ih =>
      obtain ⟨⟨read, hread, hsubset⟩, hrest⟩ := supplied_cons.mp hsupplied
      refine supplied_cons.mpr ⟨⟨read, hread, List.Subset.trans hsubset hmore⟩, ?_⟩
      intro made hmade
      exact ih (List.append_subset.mpr
        ⟨List.Subset.trans hmore (List.subset_append_left more made),
          List.subset_append_right more made⟩) (hrest made hmade)

/-- Groups of steps that are each supplied on their own. -/
theorem supplied_flatMap {Group : Type} {groups : List Group}
    {stepsOf : Group → List Step}
    (hgroups : ∀ group ∈ groups, Supplied pipeline [] (stepsOf group)) :
    Supplied pipeline files (groups.flatMap stepsOf) := by
  induction groups generalizing files with
  | nil => exact supplied_nil
  | cons group groups ih =>
      rw [List.flatMap_cons, supplied_append]
      refine ⟨supplied_mono (by simp) (hgroups group (by simp)), ?_⟩
      intro made _
      exact ih fun other hother => hgroups other (by simp [hother])

/-! ## What is written -/

theorem subset_after {made : List File}
    (hafter : after pipeline files steps = .ok made) : files ⊆ made := by
  induction steps generalizing files with
  | nil =>
      simp only [after, Except.ok.injEq] at hafter
      exact hafter ▸ List.Subset.refl files
  | cons step steps ih =>
      simp only [after] at hafter
      split at hafter
      · cases hafter
      · rename_i own _
        exact List.Subset.trans (List.subset_append_left files own) (ih hafter)

/-- What a step of a completed pipeline has written is there at the end. -/
theorem writes_subset_after {made : List File}
    (hafter : after pipeline files steps = .ok made) (hstep : step ∈ steps) :
    ∃ own, pipeline.writes step = .ok own ∧ own ⊆ made := by
  obtain ⟨before, rest, rfl⟩ := List.append_of_mem hstep
  rw [after_append] at hafter
  cases hbefore : after pipeline files before with
  | error failure => simp [hbefore, Except.bind] at hafter
  | ok earlier =>
      simp only [hbefore, Except.bind, after] at hafter
      split at hafter
      · cases hafter
      · rename_i own hown
        exact ⟨own, hown, List.Subset.trans
          (List.subset_append_right earlier own) (subset_after hafter)⟩

theorem forall_mem_after {P : File → Prop} {made : List File}
    (hfiles : ∀ file ∈ files, P file)
    (hsteps : ∀ step ∈ steps, ∀ own, pipeline.writes step = .ok own →
      ∀ file ∈ own, P file)
    (hafter : after pipeline files steps = .ok made) :
    ∀ file ∈ made, P file := by
  induction steps generalizing files with
  | nil => cases hafter; exact hfiles
  | cons step steps ih =>
      simp only [after] at hafter
      split at hafter
      · cases hafter
      · rename_i own hown
        refine ih ?_ (fun other hother => hsteps other (by simp [hother]))
          hafter
        intro file hfile
        rcases List.mem_append.mp hfile with hold | hnew
        · exact hfiles file hold
        · exact hsteps step (by simp) own hown file hnew

theorem after_completes
    (hsteps : ∀ step ∈ steps, ∃ own, pipeline.writes step = .ok own) :
    ∃ made, after pipeline files steps = .ok made := by
  induction steps generalizing files with
  | nil => exact ⟨files, rfl⟩
  | cons step steps ih =>
      obtain ⟨own, hown⟩ := hsteps step (by simp)
      obtain ⟨made, hmade⟩ := @ih (files ++ own)
        fun other hother => hsteps other (by simp [hother])
      exact ⟨made, by simp [after, hown, hmade]⟩

/-- A step that reads what no step before it can have written. -/
theorem not_supplied_of_starved {P : File → Prop} {before rest : List Step}
    (hcomplete : ∀ earlier ∈ before, ∃ own,
      pipeline.writes earlier = .ok own ∧ ∀ file ∈ own, P file)
    (hstarved : ∀ read, pipeline.reads step = some read →
      ∃ file ∈ read, ¬ P file) :
    ¬ Supplied pipeline [] (before ++ step :: rest) := by
  intro hsupplied
  have hafter : ∃ made, after pipeline [] before = .ok made :=
    after_completes fun earlier hmem =>
      let ⟨own, hown, _⟩ := hcomplete earlier hmem
      ⟨own, hown⟩
  obtain ⟨made, hmade⟩ := hafter
  obtain ⟨read, hread, hsubset⟩ :=
    hsupplied before step rest made rfl hmade
  obtain ⟨file, hfile, hforeign⟩ := hstarved read hread
  refine hforeign (forall_mem_after (by simp) ?_ hmade file (hsubset hfile))
  intro earlier hmem own hown
  obtain ⟨other, hother, hall⟩ := hcomplete earlier hmem
  rw [hown, Except.ok.injEq] at hother
  exact hother ▸ hall

end SuppliedSteps
