import Dovetail.TransitionRun

/-!
# Searching a list in order

A loop that tries one item after the other and leaves with the first that is
done.  A turn of the loop sees the items that were tried before it, so the
same item may come to different ends in different places.
-/

namespace OrderedSearch

open TransitionRun

variable {Item Failure Result : Type}

inductive Turn (Failure Result : Type) where
  | next (failure : Failure)
  | done (result : Result)

/-- The result of the first turn that is done, or the failure of the last
one, and the items that were tried. -/
def search (turn : List Item → Item → Turn Failure Result) :
    List Item → Option Failure → List Item →
      Except (Option Failure) Result × List Item
  | tried, last, [] => (.error last, tried)
  | tried, _, item :: rest =>
      match turn tried item with
      | .next failure => search turn (tried ++ [item]) (some failure) rest
      | .done result => (.ok result, tried ++ [item])

/-- The first place of a list that meets a condition. -/
structure FirstAt (condition : List Item → Item → Prop)
    (items before : List Item) (item : Item) (after : List Item) : Prop where
  split : items = before ++ item :: after
  holds : condition before item
  first : Preceded (fun earlier other => ¬ condition earlier other) before

section

variable {condition : List Item → Item → Prop} {items : List Item}

theorem FirstAt.le_length {before before' after after' : List Item}
    {item item' : Item} (hfirst : FirstAt condition items before item after)
    (hsplit : items = before' ++ item' :: after')
    (holds : condition before' item') : before.length ≤ before'.length := by
  by_contra hlonger
  have hsame : before' ++ item' :: after' = before ++ item :: after :=
    hsplit.symm.trans hfirst.split
  rcases List.append_eq_append_iff.mp hsame with
    ⟨rest, hbefore, hrest⟩ | ⟨rest, hbefore, -⟩
  · cases rest with
    | nil => simp [hbefore] at hlonger
    | cons found rest =>
        obtain ⟨rfl, -⟩ := List.cons.inj hrest
        exact hfirst.first before' item' rest hbefore holds
  · simp [hbefore] at hlonger

theorem FirstAt.unique {before before' after after' : List Item}
    {item item' : Item} (hfirst : FirstAt condition items before item after)
    (hother : FirstAt condition items before' item' after') :
    before = before' ∧ item = item' ∧ after = after' := by
  have hlength : before.length = before'.length :=
    Nat.le_antisymm (hfirst.le_length hother.split hother.holds)
      (hother.le_length hfirst.split hfirst.holds)
  have hsame : before ++ item :: after = before' ++ item' :: after' :=
    hfirst.split.symm.trans hother.split
  obtain ⟨hbefore, hrest⟩ := List.append_inj hsame hlength
  exact ⟨hbefore, List.cons.inj hrest⟩

theorem preceded_or_exists_firstAt (condition : List Item → Item → Prop)
    (items : List Item) :
    Preceded (fun earlier other => ¬ condition earlier other) items ∨
      ∃ before item after, FirstAt condition items before item after := by
  induction items using List.reverseRecOn with
  | nil => exact Or.inl preceded_nil
  | append_singleton items item ih =>
      rcases ih with hnone | ⟨before, found, after, hfirst⟩
      · by_cases hitem : condition items item
        · exact Or.inr ⟨items, item, [], rfl, hitem, hnone⟩
        · exact Or.inl (preceded_concat.mpr ⟨hnone, hitem⟩)
      · refine Or.inr ⟨before, found, after ++ [item], ?_, hfirst.holds,
          hfirst.first⟩
        rw [hfirst.split]
        simp

end

section

variable {turn : List Item → Item → Turn Failure Result}

/-- Turns that are not done leave the search to the items after them. -/
theorem search_append {before : List Item}
    (hbefore : Preceded (fun tried item => ∀ result,
      turn tried item ≠ .done result) before) (after : List Item) :
    ∃ last, search turn [] none (before ++ after) =
      search turn before last after := by
  induction before using List.reverseRecOn generalizing after with
  | nil => exact ⟨none, rfl⟩
  | append_singleton before item ih =>
      obtain ⟨hearlier, hitem⟩ := preceded_concat.mp hbefore
      obtain ⟨last, hsearch⟩ := ih hearlier (item :: after)
      cases hturn : turn before item with
      | done result => exact absurd hturn (hitem result)
      | next failure =>
          refine ⟨some failure, ?_⟩
          rw [List.append_assoc, List.singleton_append, hsearch, search,
            hturn]

/-- The first turn that is done decides, and no item after it is tried. -/
theorem search_eq_of_firstAt {items before after : List Item} {item : Item}
    {result : Result}
    (hfirst : FirstAt (fun tried other => ∃ result,
      turn tried other = .done result) items before item after)
    (hturn : turn before item = .done result) :
    search turn [] none items = (.ok result, before ++ [item]) := by
  have hbefore : Preceded (fun tried item => ∀ result,
      turn tried item ≠ .done result) before := by
    intro earlier other rest hsplit result hdone
    exact hfirst.first earlier other rest hsplit ⟨result, hdone⟩
  obtain ⟨last, hsearch⟩ := search_append hbefore (item :: after)
  rw [hfirst.split, hsearch, search, hturn]

theorem search_eq_of_preceded {items : List Item}
    (hitems : Preceded (fun tried item => ∀ result,
      turn tried item ≠ .done result) items) :
    ∃ last, search turn [] none items = (.error last, items) := by
  obtain ⟨last, hsearch⟩ := search_append hitems []
  rw [List.append_nil] at hsearch
  exact ⟨last, hsearch⟩

/-- A search with a result tried the items up to a turn that was done. -/
theorem exists_turn_of_search {items tried : List Item} {result : Result}
    (hsearch : search turn [] none items = (.ok result, tried)) :
    ∃ before item, tried = before ++ [item] ∧
      turn before item = .done result := by
  rcases preceded_or_exists_firstAt (fun tried other => ∃ result,
      turn tried other = .done result) items with
    hnone | ⟨before, item, after, hfirst⟩
  · have hitems : Preceded (fun tried item => ∀ result,
        turn tried item ≠ .done result) items := by
      intro earlier other rest hsplit result hdone
      exact hnone earlier other rest hsplit ⟨result, hdone⟩
    obtain ⟨last, hfailed⟩ := search_eq_of_preceded hitems
    simp [hfailed] at hsearch
  · obtain ⟨found, hturn⟩ := hfirst.holds
    have hfound := (search_eq_of_firstAt hfirst hturn).symm.trans hsearch
    obtain ⟨hresult, htried⟩ := Prod.mk.inj hfound
    obtain rfl : found = result := Except.ok.inj hresult
    exact ⟨before, item, htried.symm, hturn⟩

end

end OrderedSearch
