import Mathlib.Tactic

/-!
# Alternatives of a monotone formula

A formula built from atoms by conjunction and disjunction is true exactly
when one of its alternatives is: a choice of one branch under every
disjunction, all of whose atoms are true.  Each atom weighs a set of facts,
and only the union of the facts along an alternative matters to an
upward-closed requirement.  So a requirement follows from the formula under
every valuation exactly when it holds of the facts of every alternative.
-/

namespace MonotoneFormula

variable {α β γ : Type*}

inductive Formula (α : Type*) where
  | atom (a : α)
  | and (left right : Formula α)
  | or (left right : Formula α)

namespace Formula

def Holds (v : α → Prop) : Formula α → Prop
  | atom a => v a
  | and left right => left.Holds v ∧ right.Holds v
  | or left right => left.Holds v ∨ right.Holds v

/-- Everything the true atoms of a formula say together. -/
def known (w : α → Set γ) (v : α → Prop) : Formula α → Set γ
  | atom a => {g | v a ∧ g ∈ w a}
  | and left right => left.known w v ∪ right.known w v
  | or left right => left.known w v ∪ right.known w v

/-- The facts gathered along each choice of disjuncts. -/
def alternatives (w : α → Set γ) : Formula α → Set (Set γ)
  | atom a => {w a}
  | and left right =>
      {s | ∃ l ∈ left.alternatives w, ∃ r ∈ right.alternatives w,
        s = l ∪ r}
  | or left right => left.alternatives w ∪ right.alternatives w

def rename (f : α → β) : Formula α → Formula β
  | atom a => atom (f a)
  | and left right => and (left.rename f) (right.rename f)
  | or left right => or (left.rename f) (right.rename f)

@[simp] theorem holds_rename (f : α → β) (v : β → Prop)
    (formula : Formula α) :
    (formula.rename f).Holds v ↔ formula.Holds (v ∘ f) := by
  induction formula with
  | atom a => rfl
  | and left right ihl ihr => simp only [rename, Holds, ihl, ihr]
  | or left right ihl ihr => simp only [rename, Holds, ihl, ihr]

@[simp] theorem known_rename (f : α → β) (w : β → Set γ) (v : β → Prop)
    (formula : Formula α) :
    (formula.rename f).known w v = formula.known (w ∘ f) (v ∘ f) := by
  induction formula with
  | atom a => rfl
  | and left right ihl ihr => simp only [rename, known, ihl, ihr]
  | or left right ihl ihr => simp only [rename, known, ihl, ihr]

@[simp] theorem alternatives_rename (f : α → β) (w : β → Set γ)
    (formula : Formula α) :
    (formula.rename f).alternatives w =
      formula.alternatives (w ∘ f) := by
  induction formula with
  | atom a => rfl
  | and left right ihl ihr => simp only [rename, alternatives, ihl, ihr]
  | or left right ihl ihr => simp only [rename, alternatives, ihl, ihr]

theorem Holds.mono {v v' : α → Prop} (hle : ∀ a, v a → v' a)
    {formula : Formula α} (hholds : formula.Holds v) :
    formula.Holds v' := by
  induction formula with
  | atom a => exact hle a hholds
  | and left right ihl ihr => exact ⟨ihl hholds.1, ihr hholds.2⟩
  | or left right ihl ihr => exact hholds.imp ihl ihr

theorem known_mono (w : α → Set γ) {v v' : α → Prop}
    (hle : ∀ a, v a → v' a) (formula : Formula α) :
    formula.known w v ⊆ formula.known w v' := by
  induction formula with
  | atom a => exact fun g hg => ⟨hle a hg.1, hg.2⟩
  | and left right ihl ihr => exact Set.union_subset_union ihl ihr
  | or left right ihl ihr => exact Set.union_subset_union ihl ihr

theorem known_subset (w : α → Set γ) {v : α → Prop} {s : Set γ}
    (hbound : ∀ a, v a → w a ⊆ s) (formula : Formula α) :
    formula.known w v ⊆ s := by
  induction formula with
  | atom a => exact fun g hg => hbound a hg.1 hg.2
  | and left right ihl ihr => exact Set.union_subset ihl ihr
  | or left right ihl ihr => exact Set.union_subset ihl ihr

/-- A true formula has an alternative all of whose facts are known. -/
theorem exists_alternative_subset_known (w : α → Set γ) {v : α → Prop}
    {formula : Formula α} (hholds : formula.Holds v) :
    ∃ s ∈ formula.alternatives w, s ⊆ formula.known w v := by
  induction formula with
  | atom a => exact ⟨w a, rfl, fun g hg => ⟨hholds, hg⟩⟩
  | and left right ihl ihr =>
      obtain ⟨l, hl, hlknown⟩ := ihl hholds.1
      obtain ⟨r, hr, hrknown⟩ := ihr hholds.2
      exact ⟨l ∪ r, ⟨l, hl, r, hr, rfl⟩,
        Set.union_subset_union hlknown hrknown⟩
  | or left right ihl ihr =>
      rcases hholds with hholds | hholds
      · obtain ⟨l, hl, hlknown⟩ := ihl hholds
        exact ⟨l, Or.inl hl, hlknown.trans Set.subset_union_left⟩
      · obtain ⟨r, hr, hrknown⟩ := ihr hholds
        exact ⟨r, Or.inr hr, hrknown.trans Set.subset_union_right⟩

/-- Every alternative is met by a valuation none of whose atoms says more
than the alternative does. -/
theorem exists_valuation_of_alternative (w : α → Set γ)
    {formula : Formula α} {s : Set γ}
    (hs : s ∈ formula.alternatives w) :
    ∃ v : α → Prop, formula.Holds v ∧ ∀ a, v a → w a ⊆ s := by
  induction formula generalizing s with
  | atom a =>
      refine ⟨fun b => b = a, rfl, ?_⟩
      rintro b rfl
      exact (Set.mem_singleton_iff.mp hs).ge
  | and left right ihl ihr =>
      obtain ⟨l, hl, r, hr, rfl⟩ := hs
      obtain ⟨vl, hvl, hlbound⟩ := ihl hl
      obtain ⟨vr, hvr, hrbound⟩ := ihr hr
      refine ⟨fun a => vl a ∨ vr a,
        ⟨hvl.mono fun _ => Or.inl, hvr.mono fun _ => Or.inr⟩, ?_⟩
      rintro a (ha | ha)
      · exact (hlbound a ha).trans Set.subset_union_left
      · exact (hrbound a ha).trans Set.subset_union_right
  | or left right ihl ihr =>
      rcases hs with hs | hs
      · obtain ⟨v, hv, hbound⟩ := ihl hs
        exact ⟨v, Or.inl hv, hbound⟩
      · obtain ⟨v, hv, hbound⟩ := ihr hs
        exact ⟨v, Or.inr hv, hbound⟩

/-- An upward-closed requirement follows from a formula exactly when every
alternative meets it. -/
theorem forall_holds_iff_forall_alternatives (w : α → Set γ)
    {P : Set γ → Prop} (hup : ∀ ⦃s t⦄, s ⊆ t → P s → P t)
    (formula : Formula α) :
    (∀ v : α → Prop, formula.Holds v → P (formula.known w v)) ↔
      ∀ s ∈ formula.alternatives w, P s := by
  constructor
  · intro hall s hs
    obtain ⟨v, hv, hbound⟩ := exists_valuation_of_alternative w hs
    exact hup (known_subset w hbound formula) (hall v hv)
  · intro hall v hv
    obtain ⟨s, hs, hknown⟩ := exists_alternative_subset_known w hv
    exact hup hknown (hall s hs)

end Formula

end MonotoneFormula
