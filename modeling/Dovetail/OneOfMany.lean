import Mathlib.Tactic

/-!
# One of many

Of a list at most one element has some property, be it the thread that runs or
the process that holds a lock.  What the one does, and what it has, is then
what the whole list does and has.
-/

namespace OneOfMany

variable {α β : Type*} {p : α → Bool} {f : α → List β}

/-- Where all but one are nothing, the one is everything. -/
theorem flatMap_set_of_countP_le_one (hnothing : ∀ a, p a = false → f a = []) :
    ∀ {list : List α} {index : Nat} {old : α}, list[index]? = some old →
      p old = true → list.countP p ≤ 1 → ∀ new,
        (list.set index new).flatMap f = f new := by
  intro list
  induction list with
  | nil =>
      intro index old hold
      cases hold
  | cons head tail ih =>
      intro index old hold hp hcount new
      rw [List.countP_cons] at hcount
      cases index with
      | zero =>
          cases hold
          rw [if_pos hp] at hcount
          have htail : ∀ a ∈ tail, ¬ p a = true :=
            List.countP_eq_zero.mp (by omega)
          rw [List.set_cons_zero, List.flatMap_cons]
          have hrest : tail.flatMap f = [] := by
            apply List.flatMap_eq_nil_iff.mpr
            intro a ha
            exact hnothing a (Bool.eq_false_of_not_eq_true (htail a ha))
          rw [hrest, List.append_nil]
      | succ index =>
          have hmem : old ∈ tail := List.mem_of_getElem? hold
          have hpos : 0 < tail.countP p := List.countP_pos_iff.mpr ⟨old, hmem, hp⟩
          have hhead : p head = false := by
            cases hvalue : p head with
            | false => rfl
            | true =>
                rw [if_pos hvalue] at hcount
                omega
          rw [List.set_cons_succ, List.flatMap_cons, hnothing head hhead,
            List.nil_append]
          exact ih hold hp (by omega) new

theorem flatMap_of_countP_le_one (hnothing : ∀ a, p a = false → f a = [])
    {list : List α} {index : Nat} {old : α} (hold : list[index]? = some old)
    (hp : p old = true) (hcount : list.countP p ≤ 1) :
    list.flatMap f = f old := by
  have hlt := (List.getElem?_eq_some_iff.mp hold).1
  have hsame : list.set index old = list := by
    rw [← (List.getElem?_eq_some_iff.mp hold).2]
    exact List.set_getElem_self hlt
  rw [← flatMap_set_of_countP_le_one hnothing hold hp hcount old, hsame]

theorem length_flatMap_le_one (hnothing : ∀ a, p a = false → f a = [])
    (hone : ∀ a, (f a).length ≤ 1) {list : List α}
    (hcount : list.countP p ≤ 1) : (list.flatMap f).length ≤ 1 := by
  by_cases hsome : ∃ a ∈ list, p a = true
  · rcases hsome with ⟨a, ha, hp⟩
    rcases List.getElem?_of_mem ha with ⟨index, hindex⟩
    rw [flatMap_of_countP_le_one hnothing hindex hp hcount]
    exact hone a
  · have hnone : list.flatMap f = [] := by
      apply List.flatMap_eq_nil_iff.mpr
      intro a ha
      apply hnothing
      apply Bool.eq_false_of_not_eq_true
      intro hp
      exact hsome ⟨a, ha, hp⟩
    rw [hnone]
    exact Nat.zero_le 1

theorem countP_set_add {list : List α} {index : Nat} {old : α}
    (hold : list[index]? = some old) (new : α) :
    (list.set index new).countP p + (if p old then 1 else 0) =
      list.countP p + (if p new then 1 else 0) := by
  rcases List.getElem?_eq_some_iff.mp hold with ⟨hlt, hget⟩
  rw [List.countP_set hlt, hget]
  have hpos : p old = true → 0 < list.countP p := by
    intro hp
    exact List.countP_pos_iff.mpr ⟨old, List.mem_of_getElem? hold, hp⟩
  cases hvalue : p old with
  | false => simp
  | true =>
      have := hpos hvalue
      simp
      omega

/-- There are no two places where it holds. -/
theorem eq_of_countP_le_one {list : List α}
    (hcount : list.countP p ≤ 1) {index other : Nat} {a b : α}
    (ha : list[index]? = some a) (hb : list[other]? = some b)
    (hpa : p a = true) (hpb : p b = true) : index = other := by
  by_contra hne
  have hindex : (list.map p)[index]? = some true := by
    rw [List.getElem?_map, ha, Option.map_some, hpa]
  have hother : ((list.map p).set index false)[other]? = some true := by
    rw [List.getElem?_set_ne hne, List.getElem?_map, hb, Option.map_some, hpb]
  have hset := countP_set_add (p := id) hindex false
  have hpos : 0 < ((list.map p).set index false).countP id :=
    List.countP_pos_iff.mpr ⟨true, List.mem_of_getElem? hother, rfl⟩
  rw [List.countP_map, Function.id_comp] at hset
  simp only [id, if_true, Bool.false_eq_true, if_false] at hset
  omega

end OneOfMany
