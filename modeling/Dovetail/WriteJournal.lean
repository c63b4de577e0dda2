import Mathlib.Tactic

/-!
# Stores with a journal of what was written

A store whose writes are journaled by their keys, and the removal of every
key that meets a condition.  A removal undoes what was written after a given
state and nothing more exactly when it takes all the keys of the journal and
none that was there before and is not in it.
-/

namespace WriteJournal

variable {Key Value : Type} [DecidableEq Key]

structure Journal (Key Value : Type) where
  store : Key → Option Value
  wrote : List Key

namespace Journal

def fresh (store : Key → Option Value) : Journal Key Value := ⟨store, []⟩

def put (journal : Journal Key Value) (key : Key) (value : Value) :
    Journal Key Value where
  store := Function.update journal.store key (some value)
  wrote := journal.wrote ++ [key]

/-- A key that has no value yet is given one, which is no write of its
own. -/
def fill (journal : Journal Key Value) (key : Key) (value : Value) :
    Journal Key Value where
  store := Function.update journal.store key
    (some ((journal.store key).getD value))
  wrote := journal.wrote

def removeAll (store : Key → Option Value) (gone : Key → Bool) :
    Key → Option Value :=
  fun key => if gone key then none else store key

omit [DecidableEq Key] in
theorem removeAll_removeAll (store : Key → Option Value)
    (first second : Key → Bool) :
    removeAll (removeAll store first) second =
      removeAll store fun key => first key || second key := by
  funext key
  unfold removeAll
  cases hfirst : first key <;> cases hsecond : second key <;>
    simp [hfirst, hsecond]

theorem wrote_foldl_put {Item : Type} (keyOf : Item → Key)
    (valueOf : Item → Value) (items : List Item)
    (journal : Journal Key Value) :
    (items.foldl (fun journal item =>
      journal.put (keyOf item) (valueOf item)) journal).wrote =
        journal.wrote ++ items.map keyOf := by
  induction items generalizing journal with
  | nil => simp
  | cons item items ih =>
      rw [List.foldl_cons, ih, put, List.append_assoc, List.map_cons,
        List.singleton_append]

omit [DecidableEq Key] in
theorem wrote_foldl_of_kept {Item : Type}
    {turn : Journal Key Value → Item → Journal Key Value}
    (hturn : ∀ journal item, (turn journal item).wrote = journal.wrote)
    (items : List Item) (journal : Journal Key Value) :
    (items.foldl turn journal).wrote = journal.wrote := by
  induction items generalizing journal with
  | nil => rfl
  | cons item items ih => rw [List.foldl_cons, ih, hturn]

/-- The later journal has written more; what it has not written is as it
was, and what it has written is there. -/
structure Extends (journal later : Journal Key Value) : Prop where
  longer : journal.wrote ⊆ later.wrote
  kept : ∀ key value, journal.store key = some value →
    key ∉ later.wrote → later.store key = some value
  there : (∀ key ∈ journal.wrote, journal.store key ≠ none) →
    ∀ key ∈ later.wrote, later.store key ≠ none

omit [DecidableEq Key] in
theorem Extends.refl (journal : Journal Key Value) :
    Extends journal journal where
  longer := List.Subset.refl _
  kept := fun _ _ hstore _ => hstore
  there := fun hthere => hthere

omit [DecidableEq Key] in
theorem Extends.trans {first second third : Journal Key Value}
    (hfirst : Extends first second) (hsecond : Extends second third) :
    Extends first third where
  longer := fun _ hkey => hsecond.longer (hfirst.longer hkey)
  kept := by
    intro key value hstore hkey
    apply hsecond.kept key value _ hkey
    exact hfirst.kept key value hstore fun hearlier =>
      hkey (hsecond.longer hearlier)
  there := fun hthere => hsecond.there (hfirst.there hthere)

theorem extends_put (journal : Journal Key Value) (key : Key)
    (value : Value) : Extends journal (journal.put key value) where
  longer := List.subset_append_left _ _
  kept := by
    intro other held hstore hother
    have hne : other ≠ key := by
      intro hsame
      exact hother (List.mem_append_right _ (List.mem_singleton.mpr hsame))
    simpa [put, Function.update_of_ne hne] using hstore
  there := by
    intro hthere other hother
    by_cases hsame : other = key
    · simp [put, hsame]
    · have hearlier : other ∈ journal.wrote := by
        simpa [put, hsame] using hother
      simpa [put, Function.update_of_ne hsame] using hthere other hearlier

theorem extends_fill (journal : Journal Key Value) (key : Key)
    (value : Value) : Extends journal (journal.fill key value) where
  longer := List.Subset.refl _
  kept := by
    intro other held hstore _
    by_cases hsame : other = key
    · subst hsame
      simp [fill, hstore]
    · simpa [fill, Function.update_of_ne hsame] using hstore
  there := by
    intro hthere other hother
    by_cases hsame : other = key
    · simp [fill, hsame]
    · simpa [fill, Function.update_of_ne hsame] using hthere other hother

omit [DecidableEq Key] in
/-- A loop extends the journal when each of its turns does. -/
theorem extends_foldl {Item : Type}
    {turn : Journal Key Value → Item → Journal Key Value}
    (hturn : ∀ journal item, Extends journal (turn journal item))
    (items : List Item) (journal : Journal Key Value) :
    Extends journal (items.foldl turn journal) := by
  induction items generalizing journal with
  | nil => exact Extends.refl journal
  | cons item items ih => exact (hturn journal item).trans (ih _)

/-! ## Undoing -/

/-- Nothing that was written is left, and nothing else that was there is
lost. -/
structure Undone (before after : Key → Option Value) (wrote : List Key) :
    Prop where
  gone : ∀ key ∈ wrote, after key = none
  kept : ∀ key value, before key = some value → key ∉ wrote →
    after key = some value

omit [DecidableEq Key] in
theorem undone_removeAll_iff {before : Key → Option Value}
    {later : Journal Key Value} (hextends : Extends (fresh before) later)
    (gone : Key → Bool) :
    Undone before (removeAll later.store gone) later.wrote ↔
      (∀ key ∈ later.wrote, gone key = true) ∧
        ∀ key, before key ≠ none → gone key = true → key ∈ later.wrote := by
  have hthere := hextends.there (by simp [fresh])
  constructor
  · intro hundone
    constructor
    · intro key hkey
      by_contra hstays
      have hnone := hundone.gone key hkey
      rw [removeAll, if_neg hstays] at hnone
      exact hthere key hkey hnone
    · intro key hbefore hgone
      by_contra hkey
      rcases Option.ne_none_iff_exists'.mp hbefore with ⟨value, hvalue⟩
      have hkept := hundone.kept key value hvalue hkey
      rw [removeAll, if_pos hgone] at hkept
      simp at hkept
  · intro hcondition
    constructor
    · intro key hkey
      rw [removeAll, if_pos (hcondition.1 key hkey)]
    · intro key value hbefore hkey
      have hstays : ¬ gone key = true := by
        intro hgone
        have hsome : before key ≠ none := by simp [hbefore]
        exact hkey (hcondition.2 key hsome hgone)
      rw [removeAll, if_neg hstays]
      exact hextends.kept key value hbefore hkey

end Journal

end WriteJournal
