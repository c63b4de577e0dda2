import Mathlib.Data.List.AList
import Mathlib.Data.List.Forall2
import Mathlib.Tactic

/-!
# Steps that may fail

What a sequence of steps that went through says of each of them, and what
steps over a state ensure of the state they leave behind, whether they return
or throw.
-/

namespace FallibleSteps

variable {Failure Other State α β : Type}

theorem bind_eq_ok_iff {step : Except Failure α}
    {next : α → Except Failure β} {result : β} :
    (step >>= next) = .ok result ↔
      ∃ value, step = .ok value ∧ next value = .ok result := by
  cases step <;> simp [bind, Except.bind]

theorem mapError_eq_ok_iff {step : Except Failure α}
    {wrap : Failure → Other} {value : α} :
    step.mapError wrap = .ok value ↔ step = .ok value := by
  cases step <;> simp [Except.mapError]

/-- A list of steps gives the results of the single steps in their order. -/
theorem forall₂_of_mapM_eq_ok {step : α → Except Failure β}
    {items : List α} {results : List β}
    (hsteps : items.mapM step = .ok results) :
    List.Forall₂ (fun item result => step item = .ok result) items
      results := by
  induction items generalizing results with
  | nil =>
      obtain rfl : [] = results := by
        simpa [pure, Except.pure] using hsteps
      exact .nil
  | cons item rest ih =>
      rw [List.mapM_cons] at hsteps
      obtain ⟨result, hitem, hrest⟩ := bind_eq_ok_iff.mp hsteps
      obtain ⟨others, hothers, hresults⟩ := bind_eq_ok_iff.mp hrest
      obtain rfl : result :: others = results := Except.ok.inj hresults
      exact .cons hitem (ih hothers)

theorem exists_of_mem_of_mapM_eq_ok {step : α → Except Failure β}
    {items : List α} {results : List β} {item : α}
    (hsteps : items.mapM step = .ok results) (hitem : item ∈ items) :
    ∃ result ∈ results, step item = .ok result := by
  have hall := forall₂_of_mapM_eq_ok hsteps
  clear hsteps
  induction hall with
  | nil => simp at hitem
  | @cons first result rest others hfirst _ ih =>
      rcases List.mem_cons.mp hitem with rfl | hrest
      · exact ⟨result, by simp, hfirst⟩
      · obtain ⟨found, hfound, hstep⟩ := ih hrest
        exact ⟨found, by simp [hfound], hstep⟩

theorem exists_item_of_mapM_eq_ok {step : α → Except Failure β}
    {items : List α} {results : List β} {result : β}
    (hsteps : items.mapM step = .ok results) (hresult : result ∈ results) :
    ∃ item ∈ items, step item = .ok result := by
  have hall := forall₂_of_mapM_eq_ok hsteps
  clear hsteps
  induction hall with
  | nil => simp at hresult
  | @cons item first rest others hfirst _ ih =>
      rcases List.mem_cons.mp hresult with rfl | hothers
      · exact ⟨item, by simp, hfirst⟩
      · obtain ⟨found, hfound, hstep⟩ := ih hothers
        exact ⟨found, by simp [hfound], hstep⟩

theorem exists_mapM_eq_ok {step : α → Except Failure β} {items : List α}
    (hsteps : ∀ item ∈ items, ∃ result, step item = .ok result) :
    ∃ results, items.mapM step = .ok results := by
  induction items with
  | nil => exact ⟨[], rfl⟩
  | cons item rest ih =>
      rcases List.forall_mem_cons.mp hsteps with ⟨hitem, hrest⟩
      rcases hitem with ⟨result, hresult⟩
      rcases ih hrest with ⟨results, hresults⟩
      refine ⟨result :: results, ?_⟩
      rw [List.mapM_cons, hresult, hresults]
      rfl

/-- Where a step can only return the one value, the steps return them all or
fail. -/
theorem mapM_eq_ok_map_iff {step : α → Except Failure β} {value : α → β}
    {items : List α} {results : List β}
    (hvalue : ∀ item result, step item = .ok result → result = value item) :
    items.mapM step = .ok results ↔
      (∀ item ∈ items, step item = .ok (value item)) ∧
        results = items.map value := by
  induction items generalizing results with
  | nil => simp [pure, Except.pure, eq_comm]
  | cons item rest ih =>
      rw [List.mapM_cons, bind_eq_ok_iff]
      constructor
      · intro hsteps
        rcases hsteps with ⟨result, hitem, hrest⟩
        rcases bind_eq_ok_iff.mp hrest with ⟨others, hothers, hresults⟩
        rcases ih.mp hothers with ⟨hall, rfl⟩
        have hresult := hvalue item result hitem
        subst hresult
        have hresults : value item :: rest.map value = results :=
          Except.ok.inj hresults
        exact ⟨List.forall_mem_cons.mpr ⟨hitem, hall⟩, hresults.symm⟩
      · intro hsteps
        rcases hsteps with ⟨hall, rfl⟩
        rcases List.forall_mem_cons.mp hall with ⟨hitem, hrest⟩
        refine ⟨value item, hitem, bind_eq_ok_iff.mpr ?_⟩
        exact ⟨rest.map value, ih.mpr ⟨hrest, rfl⟩, rfl⟩

theorem mapM_eq_some_map {step : α → Option β} {value : α → β}
    {items : List α} (hsteps : ∀ item ∈ items, step item = some (value item)) :
    items.mapM step = some (items.map value) := by
  induction items with
  | nil => rfl
  | cons item rest ih =>
      rw [List.mapM_cons, hsteps item (by simp),
        ih fun other hother => hsteps other (by simp [hother])]
      rfl

/-- Steps that go through further than others have the results of these. -/
theorem mapM_eq_some_of_imp {step further : α → Option β} {items : List α}
    {results : List β}
    (himp : ∀ item result, step item = some result →
      further item = some result)
    (hsteps : items.mapM step = some results) :
    items.mapM further = some results := by
  induction items generalizing results with
  | nil => exact hsteps
  | cons item rest ih =>
      rw [List.mapM_cons] at hsteps ⊢
      rcases Option.bind_eq_some_iff.mp hsteps with ⟨result, hitem, hrest⟩
      rcases Option.bind_eq_some_iff.mp hrest with ⟨others, hothers, hall⟩
      apply Option.bind_eq_some_iff.mpr
      refine ⟨result, himp item result hitem, ?_⟩
      apply Option.bind_eq_some_iff.mpr
      exact ⟨others, ih hothers, hall⟩

theorem exists_mem_of_mapM_eq_some {step : α → Option β} {items : List α}
    {results : List β} (hsome : items ≠ [])
    (hsteps : items.mapM step = some results) :
    ∃ item ∈ items, ∃ result ∈ results, step item = some result := by
  obtain ⟨item, rest, rfl⟩ := List.exists_cons_of_ne_nil hsome
  rw [List.mapM_cons] at hsteps
  obtain ⟨result, hitem, hrest⟩ := Option.bind_eq_some_iff.mp hsteps
  obtain ⟨others, -, hresults⟩ := Option.bind_eq_some_iff.mp hrest
  obtain rfl : result :: others = results := Option.some.inj hresults
  exact ⟨item, by simp, result, by simp, hitem⟩

theorem exists_item_of_mapM_eq_some {step : α → Option β}
    {items : List α} {results : List β} {result : β}
    (hsteps : items.mapM step = some results) (hresult : result ∈ results) :
    ∃ item ∈ items, step item = some result := by
  induction items generalizing results with
  | nil =>
      rw [List.mapM_nil, Option.pure_def, Option.some.injEq] at hsteps
      rw [← hsteps] at hresult
      cases hresult
  | cons item rest ih =>
      rw [List.mapM_cons] at hsteps
      rcases Option.bind_eq_some_iff.mp hsteps with ⟨first, hitem, hrest⟩
      rcases Option.bind_eq_some_iff.mp hrest with ⟨others, hothers, hall⟩
      rw [Option.pure_def, Option.some.injEq] at hall
      rw [← hall] at hresult
      rcases List.mem_cons.mp hresult with rfl | hlater
      · exact ⟨item, List.mem_cons_self, hitem⟩
      · rcases ih hothers hlater with ⟨found, hfound, hstep⟩
        exact ⟨found, List.mem_cons_of_mem _ hfound, hstep⟩

/-! ### Steps that see the results before them -/

section

variable {step : List β → α → Except Failure β} {items : List α}

/-- Each result of steps that went through is that of its own item. -/
theorem forall₂_of_foldlM_eq_ok {before after : List β}
    (hsteps : items.foldlM (fun results item => do
      let result ← step results item
      return results ++ [result]) before = .ok after) :
    ∃ results, after = before ++ results ∧
      List.Forall₂ (fun item result => ∃ earlier,
        step earlier item = .ok result) items results := by
  induction items generalizing before with
  | nil =>
      have hsame : before = after := by
        simpa [pure, Except.pure] using hsteps
      exact ⟨[], by simp [hsame], .nil⟩
  | cons item rest ih =>
      rw [List.foldlM_cons] at hsteps
      rcases bind_eq_ok_iff.mp hsteps with ⟨middle, hitem, hrest⟩
      rcases bind_eq_ok_iff.mp hitem with ⟨result, hresult, hmiddle⟩
      have hmiddle : before ++ [result] = middle := Except.ok.inj hmiddle
      rcases ih hrest with ⟨results, hafter, hresults⟩
      refine ⟨result :: results, ?_, .cons ⟨before, hresult⟩ hresults⟩
      rw [hafter, ← hmiddle]
      simp

theorem foldlM_eq_ok_map {value : α → β} {before : List α}
    (hsteps : ∀ done item left, before ++ items = done ++ item :: left →
      step (done.map value) item = .ok (value item)) :
    items.foldlM (fun results item => do
      let result ← step results item
      return results ++ [result]) (before.map value) =
        .ok ((before ++ items).map value) := by
  induction items generalizing before with
  | nil => simp [pure, Except.pure]
  | cons item rest ih =>
      have hsame : before ++ item :: rest = (before ++ [item]) ++ rest := by
        simp
      have hrest := @ih (before ++ [item]) fun done other left hother =>
        hsteps done other left (hsame.trans hother)
      rw [List.map_append, List.map_singleton, ← hsame] at hrest
      rw [List.foldlM_cons, hsteps before item rest rfl]
      exact hrest

end

/-- Steps that all succeed succeed one by one. -/
theorem isSome_of_mapM_eq_some {step : α → Option β} {items : List α}
    {results : List β} (hsteps : items.mapM step = some results) :
    ∀ item ∈ items, (step item).isSome = true := by
  induction items generalizing results with
  | nil => simp
  | cons item rest ih =>
      rw [List.mapM_cons] at hsteps
      rcases Option.bind_eq_some_iff.mp hsteps with ⟨result, hitem, hrest⟩
      rcases Option.bind_eq_some_iff.mp hrest with ⟨others, hothers, -⟩
      intro other hother
      rcases List.mem_cons.mp hother with rfl | hother
      · exact Option.isSome_of_eq_some hitem
      · exact ih hothers other hother

/-! ## Steps that fill a table -/

section

variable {Key : Type} [DecidableEq Key]

/-- The value of every key is entered, one after the other. -/
def enterAll (step : Key → Except Failure β) (keys : List Key)
    (table : AList fun _ : Key => β) :
    Except Failure (AList fun _ : Key => β) :=
  keys.foldlM (fun table key => do
    let value ← step key
    return table.insert key value) table

variable {step : Key → Except Failure β} {keys : List Key}
  {table output : AList fun _ : Key => β}

theorem enterAll_cons {key : Key} {rest : List Key} :
    enterAll step (key :: rest) table =
      (step key).bind fun value =>
        enterAll step rest (table.insert key value) := by
  unfold enterAll
  rw [List.foldlM_cons]
  cases step key <;> rfl

/-- The table is filled exactly when every step goes through. -/
theorem exists_enterAll_eq_ok_iff :
    (∃ output, enterAll step keys table = .ok output) ↔
      ∀ key ∈ keys, ∃ value, step key = .ok value := by
  induction keys generalizing table with
  | nil => simp [enterAll, pure, Except.pure]
  | cons key rest ih =>
      rw [enterAll_cons]
      cases hkey : step key with
      | error failure => simp [hkey, Except.bind]
      | ok value => simp [hkey, Except.bind, ih]

/-- A key that is entered once has its own value, every other key what it
had. -/
theorem lookup_of_enterAll (hnodup : keys.Nodup)
    (hfilled : enterAll step keys table = .ok output) :
    (∀ key ∈ keys, ∃ value, step key = .ok value ∧
        output.lookup key = some value) ∧
      ∀ key ∉ keys, output.lookup key = table.lookup key := by
  induction keys generalizing table with
  | nil =>
      obtain rfl : table = output := Except.ok.inj hfilled
      simp
  | cons key rest ih =>
      rw [enterAll_cons] at hfilled
      cases hkey : step key with
      | error failure =>
          rw [hkey] at hfilled
          cases hfilled
      | ok value =>
          rw [hkey] at hfilled
          rcases List.nodup_cons.mp hnodup with ⟨hfresh, hrest⟩
          rcases ih hrest hfilled with ⟨hentered, hkept⟩
          constructor
          · intro other hother
            rcases List.mem_cons.mp hother with rfl | hlater
            · refine ⟨value, hkey, ?_⟩
              rw [hkept other hfresh, AList.lookup_insert]
            · exact hentered other hlater
          · intro other hother
            rcases not_or.mp (mt List.mem_cons.mpr hother) with
              ⟨hne, hlater⟩
            rw [hkept other hlater, AList.lookup_insert_ne hne]

end

/-! ## How a step ends -/

/-- The step returns as in the first condition or throws as in the second. -/
def Ends (step : Except Failure α) (returned : α → Prop)
    (thrown : Failure → Prop) : Prop :=
  match step with
  | .ok value => returned value
  | .error failure => thrown failure

section

variable {step : Except Failure α} {returned : α → Prop}
  {thrown : Failure → Prop}

@[simp] theorem ends_ok (value : α) :
    Ends (.ok value : Except Failure α) returned thrown ↔ returned value :=
  Iff.rfl

@[simp] theorem ends_error (failure : Failure) :
    Ends (.error failure : Except Failure α) returned thrown ↔
      thrown failure :=
  Iff.rfl

@[simp] theorem ends_pure (value : α) :
    Ends (pure value : Except Failure α) returned thrown ↔ returned value :=
  Iff.rfl

@[simp] theorem ends_bind {next : α → Except Failure β}
    {returned : β → Prop} :
    Ends (step >>= next) returned thrown ↔
      Ends step (fun value => Ends (next value) returned thrown) thrown := by
  cases step <;> rfl

@[simp] theorem ends_mapError {wrap : Failure → Other}
    {thrown : Other → Prop} :
    Ends (step.mapError wrap) returned thrown ↔
      Ends step returned fun failure => thrown (wrap failure) := by
  cases step <;> rfl

/-- What holds either way holds. -/
@[simp] theorem ends_const {P : Prop} :
    Ends step (fun _ => P) (fun _ => P) ↔ P := by
  cases step <;> rfl

theorem Ends.imp {returned' : α → Prop} {thrown' : Failure → Prop}
    (hends : Ends step returned thrown)
    (hreturned : ∀ value, returned value → returned' value)
    (hthrown : ∀ failure, thrown failure → thrown' failure) :
    Ends step returned' thrown' := by
  cases step with
  | ok value => exact hreturned value hends
  | error failure => exact hthrown failure hends

/-- A step that ends for each of the items ends for all of them in turn. -/
theorem ends_forM {step : α → Except Failure PUnit} {items : List α}
    (hsteps : ∀ item ∈ items, Ends (step item) (fun _ => True) thrown) :
    Ends (items.forM step) (fun _ => True) thrown := by
  induction items with
  | nil => trivial
  | cons item rest ih =>
      show Ends (step item >>= fun _ => rest.forM step) _ _
      rw [ends_bind]
      refine (hsteps item (by simp)).imp (fun _ _ => ?_) fun _ => id
      exact ih fun other hother => hsteps other (by simp [hother])

theorem ends_mapM {step : α → Except Failure β} {items : List α}
    (hsteps : ∀ item ∈ items, Ends (step item) (fun _ => True) thrown) :
    Ends (items.mapM step) (fun _ => True) thrown := by
  induction items with
  | nil => trivial
  | cons item rest ih =>
      rw [List.mapM_cons, ends_bind]
      refine (hsteps item (by simp)).imp (fun _ _ => ?_) fun _ => id
      rw [ends_bind]
      refine (ih fun other hother => hsteps other (by simp [hother])).imp
        (fun _ _ => trivial) fun _ => id

end

/-! ## Steps over a state -/

/-- From this state the steps return as in the first condition or throw as in
the second. -/
def Ensures (steps : EStateM Failure State α) (state : State)
    (returned : α → State → Prop) (thrown : Failure → State → Prop) :
    Prop :=
  match steps.run state with
  | .ok value after => returned value after
  | .error failure after => thrown failure after

section

variable {steps : EStateM Failure State α} {state : State}
  {returned : α → State → Prop} {thrown : Failure → State → Prop}

instance [∀ value after, Decidable (returned value after)]
    [∀ failure after, Decidable (thrown failure after)] :
    Decidable (Ensures steps state returned thrown) :=
  match hrun : steps.run state with
  | .ok value after =>
      decidable_of_iff (returned value after) (by simp [Ensures, hrun])
  | .error failure after =>
      decidable_of_iff (thrown failure after) (by simp [Ensures, hrun])

theorem Ensures.imp {returned' : α → State → Prop}
    {thrown' : Failure → State → Prop}
    (hensures : Ensures steps state returned thrown)
    (hreturned : ∀ value after, returned value after → returned' value after)
    (hthrown : ∀ failure after, thrown failure after →
      thrown' failure after) :
    Ensures steps state returned' thrown' := by
  unfold Ensures at *
  cases hrun : steps.run state with
  | ok value after =>
      rw [hrun] at hensures
      exact hreturned value after hensures
  | error failure after =>
      rw [hrun] at hensures
      exact hthrown failure after hensures

theorem Ensures.and {returned' : α → State → Prop}
    {thrown' : Failure → State → Prop}
    (hensures : Ensures steps state returned thrown)
    (hother : Ensures steps state returned' thrown') :
    Ensures steps state
      (fun value after => returned value after ∧ returned' value after)
      (fun failure after => thrown failure after ∧ thrown' failure after) := by
  unfold Ensures at *
  cases hrun : steps.run state with
  | ok value after =>
      rw [hrun] at hensures hother
      exact ⟨hensures, hother⟩
  | error failure after =>
      rw [hrun] at hensures hother
      exact ⟨hensures, hother⟩

/-- Steps return or throw. -/
theorem not_ensures_false :
    ¬ Ensures steps state (fun _ _ => False) (fun _ _ => False) := by
  unfold Ensures
  cases steps.run state <;> exact not_false

/-- The state the steps leave behind, however they end. -/
def leftBy (steps : EStateM Failure State α) (state : State) : State :=
  match steps.run state with
  | .ok _ after => after
  | .error _ after => after

theorem Ensures.leftBy {P : State → Prop}
    (hensures : Ensures steps state returned thrown)
    (hreturned : ∀ value after, returned value after → P after)
    (hthrown : ∀ failure after, thrown failure after → P after) :
    P (leftBy steps state) := by
  unfold Ensures at hensures
  unfold FallibleSteps.leftBy
  cases hrun : steps.run state with
  | ok value after =>
      rw [hrun] at hensures
      exact hreturned value after hensures
  | error failure after =>
      rw [hrun] at hensures
      exact hthrown failure after hensures

theorem leftBy_bind_of_ok {next : α → EStateM Failure State β} {value : α}
    {after : State} (hrun : steps.run state = .ok value after) :
    FallibleSteps.leftBy (steps >>= next) state =
      FallibleSteps.leftBy (next value) after := by
  unfold FallibleSteps.leftBy
  rw [EStateM.run_bind, hrun]

theorem leftBy_bind_of_error {next : α → EStateM Failure State β}
    {failure : Failure} {after : State}
    (hrun : steps.run state = .error failure after) :
    FallibleSteps.leftBy (steps >>= next) state = after := by
  unfold FallibleSteps.leftBy
  rw [EStateM.run_bind, hrun]

@[simp] theorem leftBy_bind_pure (change : α → β) :
    FallibleSteps.leftBy (steps >>= fun value => pure (change value)) state =
      FallibleSteps.leftBy steps state := by
  cases hrun : steps.run state with
  | ok value after =>
      rw [leftBy_bind_of_ok hrun]
      simp [FallibleSteps.leftBy, hrun]
  | error failure after =>
      rw [leftBy_bind_of_error hrun]
      simp [FallibleSteps.leftBy, hrun]

/-- What holds either way holds of the state that is left. -/
theorem ensures_both_iff {P : State → Prop} :
    Ensures steps state (fun _ after => P after) (fun _ after => P after) ↔
      P (FallibleSteps.leftBy steps state) := by
  unfold Ensures FallibleSteps.leftBy
  cases steps.run state <;> rfl

@[simp] theorem ensures_pure (value : α) :
    Ensures (pure value) state returned thrown ↔ returned value state :=
  Iff.rfl

@[simp] theorem ensures_throw (failure : Failure) :
    Ensures (throw failure : EStateM Failure State α) state returned
      thrown ↔ thrown failure state :=
  Iff.rfl

@[simp] theorem ensures_bind {next : α → EStateM Failure State β}
    {returned : β → State → Prop} :
    Ensures (steps >>= next) state returned thrown ↔
      Ensures steps state
        (fun value after => Ensures (next value) after returned thrown)
        thrown := by
  unfold Ensures
  rw [EStateM.run_bind]
  cases steps.run state <;> rfl

@[simp] theorem ensures_map {change : α → β}
    {returned : β → State → Prop} :
    Ensures (change <$> steps) state returned thrown ↔
      Ensures steps state (fun value after => returned (change value) after)
        thrown := by
  rw [map_eq_pure_bind, ensures_bind]
  rfl

@[simp] theorem ensures_tryCatch
    {handler : Failure → EStateM Failure State α} :
    Ensures (tryCatch steps handler) state returned thrown ↔
      Ensures steps state returned
        (fun failure after =>
          Ensures (handler failure) after returned thrown) := by
  have hrun : (tryCatch steps handler).run state =
      match steps.run state with
      | .ok value after => .ok value after
      | .error failure after => (handler failure).run after := by
    change EStateM.tryCatch steps handler state = _
    unfold EStateM.tryCatch EStateM.run
    cases steps state <;> rfl
  unfold Ensures
  rw [hrun]
  cases steps.run state <;> rfl

@[simp] theorem ensures_tryFinally {cleanup : EStateM Failure State β} :
    Ensures (tryFinally steps cleanup) state returned thrown ↔
      Ensures steps state
        (fun value after => Ensures cleanup after
          (fun _ cleaned => returned value cleaned) thrown)
        (fun failure after => Ensures cleanup after
          (fun _ cleaned => thrown failure cleaned) thrown) := by
  have hrun : (tryFinally' steps fun _ => cleanup).run state =
      match steps.run state with
      | .ok value after =>
          match cleanup.run after with
          | .ok done cleaned => .ok (value, done) cleaned
          | .error failure cleaned => .error failure cleaned
      | .error failure after =>
          match cleanup.run after with
          | .ok _ cleaned => .error failure cleaned
          | .error other cleaned => .error other cleaned := by
    unfold EStateM.run
    change (match steps state with
      | .ok _ _ => _
      | .error _ _ => _) = _
    cases steps state <;> rfl
  unfold tryFinally
  rw [ensures_map]
  unfold Ensures
  rw [hrun]
  cases steps.run state with
  | ok value after =>
      dsimp only
      cases cleanup.run after <;> rfl
  | error failure after =>
      dsimp only
      cases cleanup.run after <;> rfl

/-- A step beside the state. -/
@[simp] theorem ensures_ofExcept {step : Except Failure α} :
    Ensures (MonadExcept.ofExcept step : EStateM Failure State α) state
      returned thrown ↔
        Ends step (fun value => returned value state)
          (fun failure => thrown failure state) := by
  cases step <;> rfl

@[simp] theorem ensures_ite {condition : Prop} [Decidable condition]
    {other : EStateM Failure State α} :
    Ensures (if condition then steps else other) state returned thrown ↔
      if condition then Ensures steps state returned thrown
      else Ensures other state returned thrown := by
  split <;> rfl

@[simp] theorem ensures_get
    {returned : State → State → Prop} :
    Ensures (get : EStateM Failure State State) state returned thrown ↔
      returned state state :=
  Iff.rfl

@[simp] theorem ensures_set {after : State}
    {returned : PUnit → State → Prop} :
    Ensures (set after : EStateM Failure State PUnit) state returned
      thrown ↔ returned () after :=
  Iff.rfl

@[simp] theorem ensures_modify {change : State → State}
    {returned : PUnit → State → Prop} :
    Ensures (modify change : EStateM Failure State PUnit) state returned
      thrown ↔ returned () (change state) :=
  Iff.rfl

end

/-! ## What steps keep -/

/-- However the steps end, what held of the state before them holds after. -/
def Preserves (P : State → Prop) (steps : EStateM Failure State α) : Prop :=
  ∀ state, P state → Ensures steps state (fun _ => P) (fun _ => P)

section

variable {P : State → Prop} {steps : EStateM Failure State α}

theorem preserves_pure (value : α) :
    Preserves P (pure value : EStateM Failure State α) :=
  fun _ hstate => hstate

theorem preserves_throw (failure : Failure) :
    Preserves P (throw failure : EStateM Failure State α) :=
  fun _ hstate => hstate

theorem preserves_get : Preserves P (get : EStateM Failure State State) :=
  fun _ hstate => hstate

theorem preserves_modify {change : State → State}
    (hchange : ∀ state, P state → P (change state)) :
    Preserves P (modify change : EStateM Failure State PUnit) :=
  hchange

theorem Preserves.bind {next : α → EStateM Failure State β}
    (hsteps : Preserves P steps) (hnext : ∀ value, Preserves P (next value)) :
    Preserves P (steps >>= next) := by
  intro state hstate
  rw [ensures_bind]
  apply (hsteps state hstate).imp
  · exact fun value after hafter => hnext value after hafter
  · exact fun _ _ hafter => hafter

theorem Preserves.ite {condition : Prop} [Decidable condition]
    {other : EStateM Failure State α} (hsteps : Preserves P steps)
    (hother : Preserves P other) :
    Preserves P (if condition then steps else other) := by
  split
  · exact hsteps
  · exact hother

/-- Steps that go on only under a condition. -/
theorem Preserves.guarded {condition : Prop} [Decidable condition]
    {failure : Failure} {next : PUnit → EStateM Failure State α}
    (hnext : Preserves P (next ())) :
    Preserves P (if condition then next ()
      else throw failure >>= next) := by
  apply hnext.ite
  intro state hstate
  rw [ensures_bind]
  exact hstate

/-- Steps that come first under a condition. -/
theorem Preserves.after {condition : Prop} [Decidable condition]
    {first : EStateM Failure State PUnit}
    {next : PUnit → EStateM Failure State α} (hfirst : Preserves P first)
    (hnext : Preserves P (next ())) :
    Preserves P (if condition then first >>= next else next ()) :=
  (hfirst.bind fun _ => hnext).ite hnext

theorem Preserves.tryCatch {handler : Failure → EStateM Failure State α}
    (hsteps : Preserves P steps)
    (hhandler : ∀ failure, Preserves P (handler failure)) :
    Preserves P (MonadExcept.tryCatch steps handler) := by
  intro state hstate
  rw [ensures_tryCatch]
  apply (hsteps state hstate).imp
  · exact fun _ _ hafter => hafter
  · exact fun failure after hafter => hhandler failure after hafter

theorem Preserves.tryFinally {cleanup : EStateM Failure State β}
    (hsteps : Preserves P steps) (hcleanup : Preserves P cleanup) :
    Preserves P (tryFinally steps cleanup) := by
  intro state hstate
  rw [ensures_tryFinally]
  apply (hsteps state hstate).imp
  · exact fun _ after hafter => hcleanup after hafter
  · exact fun _ after hafter => hcleanup after hafter

end

end FallibleSteps
