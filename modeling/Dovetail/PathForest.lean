import Mathlib.Tactic

/-!
# Walking a forest of paths

Items stand at paths, each under the path of its parent.  A walk from a path
enters the items below it, the children of an item between entering and
leaving it.  Where every parent but the root has an item of its own and no
path has two, a walk from the root visits every item exactly once.
-/

namespace PathForest

variable {Name Item Token : Type} (parentOf : Item → List Name)
  (nameOf : Item → Name) (items : List Item)

def pathOf (item : Item) : List Name := parentOf item ++ [nameOf item]

def height : Nat := (items.map fun item => (parentOf item).length).foldr max 0

/-- What is left to walk below a path. -/
def below (parent : List Name) : Nat := height parentOf items + 1 - parent.length

variable [DecidableEq Name]

def childrenOf (parent : List Name) : List Item :=
  items.filter fun item => parentOf item = parent

section

variable {parentOf nameOf items}

omit [DecidableEq Name] in
theorem length_le_height {item : Item} (hitem : item ∈ items) :
    (parentOf item).length ≤ height parentOf items := by
  unfold height
  induction items with
  | nil => simp at hitem
  | cons first rest ih =>
      simp only [List.map_cons, List.foldr_cons, le_max_iff]
      rcases List.mem_cons.mp hitem with rfl | hrest
      · exact Or.inl le_rfl
      · exact Or.inr (ih hrest)

theorem mem_childrenOf {parent : List Name} {item : Item} :
    item ∈ childrenOf parentOf items parent ↔
      item ∈ items ∧ parentOf item = parent := by
  simp [childrenOf]

theorem below_lt {parent : List Name} {item : Item}
    (hitem : item ∈ childrenOf parentOf items parent) :
    below parentOf items (pathOf parentOf nameOf item) <
      below parentOf items parent := by
  obtain ⟨hmem, rfl⟩ := mem_childrenOf.mp hitem
  have hlength : (parentOf item).length ≤ height parentOf items :=
    length_le_height hmem
  simp only [below, pathOf, List.length_append, List.length_singleton]
  omega

end

/-- What holds of a path when it holds of its children holds of all. -/
theorem induction_below {P : List Name → Prop}
    (hstep : ∀ parent, (∀ item ∈ childrenOf parentOf items parent,
      P (pathOf parentOf nameOf item)) → P parent) (parent : List Name) :
    P parent := by
  induction hleft : below parentOf items parent using Nat.strong_induction_on
    generalizing parent with
  | _ left ih =>
      apply hstep
      intro item hitem
      exact ih _ (hleft ▸ below_lt hitem) _ rfl

/-- What a walk from the parent meets. -/
def walk (enter leave : Item → List Token) (parent : List Name) :
    List Token :=
  (childrenOf parentOf items parent).attach.flatMap fun item =>
    enter item.1 ++
      walk enter leave (pathOf parentOf nameOf item.1) ++ leave item.1
termination_by below parentOf items parent
decreasing_by exact below_lt item.2

/-- The items a walk enters. -/
def visits (parent : List Name) : List Item :=
  walk parentOf nameOf items (fun item => [item]) (fun _ => []) parent

variable {parentOf nameOf items}

theorem walk_eq {enter leave : Item → List Token} (parent : List Name) :
    walk parentOf nameOf items enter leave parent =
      (childrenOf parentOf items parent).flatMap fun item =>
        enter item ++ walk parentOf nameOf items enter leave
          (pathOf parentOf nameOf item) ++ leave item := by
  rw [walk]
  conv_rhs =>
    rw [← List.attach_map_subtype_val (childrenOf parentOf items parent),
      List.flatMap_map]

/-! ## Every item once -/

theorem visits_eq (parent : List Name) :
    visits parentOf nameOf items parent =
      (childrenOf parentOf items parent).flatMap fun item =>
        item :: visits parentOf nameOf items (pathOf parentOf nameOf item) := by
  unfold visits
  rw [walk_eq]
  simp

theorem mem_visits {parent : List Name} {item : Item} :
    item ∈ visits parentOf nameOf items parent ↔
      ∃ child ∈ childrenOf parentOf items parent, item = child ∨
        item ∈ visits parentOf nameOf items (pathOf parentOf nameOf child) := by
  rw [visits_eq]
  simp

theorem of_mem_visits {parent : List Name} {item : Item}
    (hitem : item ∈ visits parentOf nameOf items parent) :
    item ∈ items ∧ parent <+: parentOf item := by
  induction parent using induction_below parentOf nameOf items with
  | hstep parent ih =>
      obtain ⟨child, hchild, hbelow⟩ := mem_visits.mp hitem
      obtain ⟨hmem, hparent⟩ := mem_childrenOf.mp hchild
      rcases hbelow with rfl | hbelow
      · exact ⟨hmem, by rw [hparent]⟩
      · obtain ⟨hitems, hpath⟩ := ih child hchild hbelow
        refine ⟨hitems, List.IsPrefix.trans ?_ hpath⟩
        rw [pathOf, hparent]
        exact List.prefix_append _ _

/-- The children of a visited item are visited. -/
theorem mem_visits_of_child {parent : List Name} {item child : Item}
    (hitem : item ∈ visits parentOf nameOf items parent)
    (hchild : child ∈ childrenOf parentOf items
      (pathOf parentOf nameOf item)) :
    child ∈ visits parentOf nameOf items parent := by
  induction parent using induction_below parentOf nameOf items with
  | hstep parent ih =>
      obtain ⟨first, hfirst, hbelow⟩ := mem_visits.mp hitem
      rw [mem_visits]
      refine ⟨first, hfirst, Or.inr ?_⟩
      rcases hbelow with rfl | hbelow
      · exact mem_visits.mpr ⟨child, hchild, Or.inl rfl⟩
      · exact ih first hfirst hbelow

/-- No path has two items. -/
def Distinct (parentOf : Item → List Name) (nameOf : Item → Name)
    (items : List Item) : Prop :=
  (items.map (pathOf parentOf nameOf)).Nodup

/-- Every parent but the root is the path of an item. -/
def Closed (parentOf : Item → List Name) (nameOf : Item → Name)
    (items : List Item) : Prop :=
  ∀ item ∈ items, parentOf item ≠ [] →
    ∃ other ∈ items, pathOf parentOf nameOf other = parentOf item

theorem mem_visits_root (hclosed : Closed parentOf nameOf items) {item : Item}
    (hitem : item ∈ items) : item ∈ visits parentOf nameOf items [] := by
  induction hlength : (parentOf item).length generalizing item with
  | zero =>
      have hroot : parentOf item = [] := List.length_eq_zero_iff.mp hlength
      exact mem_visits.mpr ⟨item, mem_childrenOf.mpr ⟨hitem, hroot⟩, Or.inl rfl⟩
  | succ length ih =>
      have hparent : parentOf item ≠ [] := by
        rintro hroot
        simp [hroot] at hlength
      obtain ⟨other, hother, hpath⟩ := hclosed item hitem hparent
      have hshorter : (parentOf other).length = length := by
        rw [← hpath] at hlength
        simpa [pathOf] using hlength
      apply mem_visits_of_child (ih hother hshorter)
      exact mem_childrenOf.mpr ⟨hitem, hpath.symm⟩

/-- Every path above an item but the root has one of its own. -/
theorem exists_of_prefix (hclosed : Closed parentOf nameOf items)
    {item : Item} (hitem : item ∈ items) {path : List Name} (hpath : path ≠ [])
    (habove : path <+: pathOf parentOf nameOf item) :
    ∃ other ∈ items, pathOf parentOf nameOf other = path := by
  induction hlength : (parentOf item).length using Nat.strong_induction_on
    generalizing item with
  | _ length ih =>
      rcases List.prefix_concat_iff.mp habove with hsame | hparent
      · exact ⟨item, hitem, hsame.symm⟩
      · have hne : parentOf item ≠ [] := by
          rintro hroot
          rw [hroot] at hparent
          exact hpath (List.prefix_nil.mp hparent)
        obtain ⟨other, hother, hsame⟩ := hclosed item hitem hne
        have hshorter : (parentOf other).length < length := by
          rw [← hlength, ← hsame]
          simp [pathOf]
        exact ih _ hshorter hother (hsame ▸ hparent) rfl

theorem nodup_visits (hdistinct : Distinct parentOf nameOf items)
    (parent : List Name) : (visits parentOf nameOf items parent).Nodup := by
  have hitems : items.Nodup := hdistinct.of_map
  induction parent using induction_below parentOf nameOf items with
  | hstep parent ih =>
      rw [visits_eq, List.nodup_flatMap]
      constructor
      · intro child hchild
        refine List.nodup_cons.mpr ⟨?_, ih child hchild⟩
        intro hagain
        have hlonger := (of_mem_visits hagain).2.length_le
        simp [pathOf] at hlonger
      · have hchildren : (childrenOf parentOf items parent).Nodup :=
          hitems.filter _
        apply hchildren.imp_of_mem
        intro child other hchild hother hne item hitem hagain
        have hbelow {first : Item}
            (hfirst : first ∈ childrenOf parentOf items parent)
            (hmem : item ∈ first :: visits parentOf nameOf items
              (pathOf parentOf nameOf first)) :
            pathOf parentOf nameOf first <+: pathOf parentOf nameOf item := by
          rcases List.mem_cons.mp hmem with rfl | hdeeper
          · exact List.prefix_rfl
          · exact (of_mem_visits hdeeper).2.trans (List.prefix_append _ _)
        obtain ⟨hmem, hparent⟩ := mem_childrenOf.mp hchild
        obtain ⟨hmem', hparent'⟩ := mem_childrenOf.mp hother
        have hsame : pathOf parentOf nameOf child =
            pathOf parentOf nameOf other := by
          apply List.IsPrefix.eq_of_length
            (List.prefix_of_prefix_length_le (hbelow hchild hitem)
              (hbelow hother hagain) ?_)
          · simp [pathOf, hparent, hparent']
          · simp [pathOf, hparent, hparent']
        exact hne (List.inj_on_of_nodup_map hdistinct hmem hmem' hsame)

/-- A walk from the root enters every item exactly once. -/
theorem perm_visits (hdistinct : Distinct parentOf nameOf items)
    (hclosed : Closed parentOf nameOf items) :
    (visits parentOf nameOf items []).Perm items := by
  apply (List.perm_ext_iff_of_nodup (nodup_visits hdistinct [])
    hdistinct.of_map).mpr
  intro item
  exact ⟨fun hitem => (of_mem_visits hitem).1, mem_visits_root hclosed⟩

end PathForest
