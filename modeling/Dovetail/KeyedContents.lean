import Mathlib.Data.List.AList
import Mathlib.Data.Multiset.AddSub
import Mathlib.Tactic

/-!
# What the entries of a map hold

The entries of a map with one value for a key may each hold a thing.  What is
held is counted: a value that is put under a key brings what it holds, and the
value it takes the place of takes its own away.
-/

namespace KeyedContents

variable {Key Value Thing : Type*}

/-- At most one thing. -/
def ofOption (thing : Option Thing) : Multiset Thing := thing.toList

@[simp] theorem ofOption_none : ofOption (none : Option Thing) = 0 := rfl

@[simp] theorem ofOption_some (thing : Thing) :
    ofOption (some thing) = {thing} := rfl

/-- What the values hold, each as often as it is held. -/
def contents (holds : Value → Option Thing)
    (entries : AList fun _ : Key => Value) : Multiset Thing :=
  (entries.entries.filterMap fun entry => holds entry.2 : List Thing)

variable {holds : Value → Option Thing}

@[simp] theorem contents_empty :
    contents holds (∅ : AList fun _ : Key => Value) = 0 := rfl

variable [DecidableEq Key] (entries : AList fun _ : Key => Value)

/-- What is under a key and what is under the others. -/
theorem contents_erase (key : Key) :
    contents holds entries =
      ofOption ((entries.lookup key).bind holds) +
        contents holds (entries.erase key) := by
  cases hfound : entries.lookup key with
  | none =>
      have habsent : key ∉ entries.entries.keys :=
        AList.lookup_eq_none.mp hfound
      have hsame : (entries.erase key).entries = entries.entries :=
        List.kerase_of_notMem_keys habsent
      unfold contents
      rw [hsame]
      simp
  | some value =>
      have hpresent : key ∈ entries.entries.keys := by
        apply AList.lookup_isSome.mp
        rw [hfound]
        rfl
      rcases List.exists_of_kerase hpresent with
        ⟨found, before, after, _, hentries, herase⟩
      have hmem : (⟨key, found⟩ : Sigma fun _ : Key => Value) ∈
          entries.entries := by
        rw [hentries]
        simp
      have hsame : entries.lookup key = some found :=
        AList.mem_lookup_iff.mpr hmem
      rw [hfound, Option.some.injEq] at hsame
      subst hsame
      have hrest : (entries.erase key).entries = before ++ after := herase
      unfold contents
      rw [hrest, hentries]
      cases hholds : holds value with
      | none => simp [hholds]
      | some thing => simp [hholds]

theorem contents_insert (key : Key) (value : Value) :
    contents holds (entries.insert key value) =
      ofOption (holds value) + contents holds (entries.erase key) := by
  rw [contents_erase (entries.insert key value) key, AList.lookup_insert]
  have hsame : ((entries.insert key value).erase key).entries =
      (entries.erase key).entries := List.kerase_cons_eq rfl
  unfold contents
  rw [hsame]
  rfl

theorem mem_contents {thing : Thing} :
    thing ∈ contents holds entries ↔
      ∃ key value, entries.lookup key = some value ∧
        holds value = some thing := by
  unfold contents
  rw [Multiset.mem_coe, List.mem_filterMap]
  constructor
  · rintro ⟨⟨key, value⟩, hentry, hholds⟩
    exact ⟨key, value, AList.mem_lookup_iff.mpr hentry, hholds⟩
  · rintro ⟨key, value, hfound, hholds⟩
    exact ⟨⟨key, value⟩, AList.mem_lookup_iff.mp hfound, hholds⟩

end KeyedContents
