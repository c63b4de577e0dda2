import Dovetail.MonotoneFormula
import Dovetail.RequirementBlob
import Mathlib.Tactic

/-!
# Strength of a compiled code requirement

The privileged daemon refuses to start with a requirement that a process
other than the product could meet.  The check collects, for every way of
choosing one branch of each `or`, a bit mask of what the chosen leaves
establish, and asks every mask to identify the product.

The theorem at the end says what that check decides: with every leaf read
as an independent proposition, a requirement passes exactly when it contains
no `always` and no negation and each assignment that makes it true also
makes true the leaves that single the product out.
-/

namespace Dovetail
namespace RequirementStrength

open RequirementBlob MonotoneFormula

/-! ## The check -/

def teamField : List UInt8 := "subject.OU".toUTF8.toList
def appStoreOid : List UInt8 :=
  [0x2a, 0x86, 0x48, 0x86, 0xf7, 0x63, 0x64, 0x06, 0x01, 0x09]
def developerIdCaOid : List UInt8 :=
  [0x2a, 0x86, 0x48, 0x86, 0xf7, 0x63, 0x64, 0x06, 0x02, 0x06]
def developerIdLeafOid : List UInt8 :=
  [0x2a, 0x86, 0x48, 0x86, 0xf7, 0x63, 0x64, 0x06, 0x01, 0x0d]

def pinned : UInt8 := 1
def anchored : UInt8 := 2
def named : UInt8 := 4
def team : UInt8 := 8
def appStore : UInt8 := 16
def developerIdCa : UInt8 := 32
def developerIdLeaf : UInt8 := 64
def developerId : UInt8 := team ||| developerIdCa ||| developerIdLeaf

def admitsOnlyTheProduct (facts : UInt8) : Bool :=
  let signedByTheProduct :=
    facts &&& developerId == developerId || facts &&& appStore != 0
  let identified := facts &&& (anchored ||| named) == anchored ||| named
  facts &&& pinned != 0 || identified && signedByTheProduct

def fact : Clause → UInt8
  | .cdHash _ => pinned
  | .genericAnchor => anchored
  | .identifier id => if id ≠ [] then named else 0
  | .leafField field (.equals value) =>
      if field = teamField ∧ value ≠ [] then team else 0
  | .leafExtension oid .exists =>
      if oid = appStoreOid then appStore
      else if oid = developerIdLeafOid then developerIdLeaf
      else 0
  | .intermediateExtension oid .exists =>
      if oid = developerIdCaOid then developerIdCa else 0
  | _ => 0

/-- `Vec::dedup`, which drops an element equal to the one before it. -/
def dedup : List UInt8 → List UInt8
  | first :: second :: rest =>
      if first = second then dedup (second :: rest)
      else first :: dedup (second :: rest)
  | short => short

def alternatives : Clause → List UInt8
  | .and left right =>
      dedup (((alternatives left).flatMap fun l =>
        (alternatives right).map fun r => l ||| r).mergeSort)
  | .or left right =>
      dedup ((alternatives left ++ alternatives right).mergeSort)
  | leaf => dedup ([fact leaf].mergeSort)

def loosened : Clause → Bool
  | .true => true
  | .not _ => true
  | .and left right => loosened left || loosened right
  | .or left right => loosened left || loosened right
  | _ => false

def isStrong (compiled : Clause) : Bool :=
  !loosened compiled && (alternatives compiled).all admitsOnlyTheProduct

/-! ## Requirements as propositions -/

inductive Turn where
  | left
  | right
  deriving DecidableEq

/-- Where a leaf stands in a requirement: the turns taken from its root. -/
abbrev Place := List Turn

/-- The leaf at a place.  The operand of a negation is to its left. -/
def leafAt : Clause → Place → Option Clause
  | .and left _, .left :: place => leafAt left place
  | .and _ right, .right :: place => leafAt right place
  | .or left _, .left :: place => leafAt left place
  | .or _ right, .right :: place => leafAt right place
  | .not inner, .left :: place => leafAt inner place
  | .and _ _, [] => none
  | .or _ _, [] => none
  | .not _, _ => none
  | .true, _ => none
  | leaf, [] => some leaf
  | _, _ :: _ => none

/-- The truth of a requirement when each leaf, at its place, is a
proposition of its own. -/
def Evaluates (truth : Place → Prop) : Clause → Prop
  | .and left right =>
      Evaluates (fun place => truth (.left :: place)) left ∧
        Evaluates (fun place => truth (.right :: place)) right
  | .or left right =>
      Evaluates (fun place => truth (.left :: place)) left ∨
        Evaluates (fun place => truth (.right :: place)) right
  | .not inner => ¬ Evaluates (fun place => truth (.left :: place)) inner
  | .true => True
  | _ => truth []

def HasTrueLeaf (truth : Place → Prop) (compiled : Clause)
    (kind : Clause → Prop) : Prop :=
  ∃ place leaf, leafAt compiled place = some leaf ∧ truth place ∧ kind leaf

def IsCdHash (leaf : Clause) : Prop := ∃ hash, leaf = .cdHash hash

def IsNonEmptyIdentifier (leaf : Clause) : Prop :=
  ∃ id, id ≠ [] ∧ leaf = .identifier id

def IsTeam (leaf : Clause) : Prop :=
  ∃ value, value ≠ [] ∧ leaf = .leafField teamField (.equals value)

/-- The leaves that are true single the product out. -/
def IdentifiesTheProduct (truth : Place → Prop) (compiled : Clause) :
    Prop :=
  HasTrueLeaf truth compiled IsCdHash ∨
    HasTrueLeaf truth compiled (· = .genericAnchor) ∧
      HasTrueLeaf truth compiled IsNonEmptyIdentifier ∧
      (HasTrueLeaf truth compiled (· = .leafExtension appStoreOid .exists) ∨
        HasTrueLeaf truth compiled IsTeam ∧
          HasTrueLeaf truth compiled
            (· = .intermediateExtension developerIdCaOid .exists) ∧
          HasTrueLeaf truth compiled
            (· = .leafExtension developerIdLeafOid .exists))

/-- No `always` and no negation anywhere. -/
def Positive : Clause → Prop
  | .true => False
  | .not _ => False
  | .and left right => Positive left ∧ Positive right
  | .or left right => Positive left ∧ Positive right
  | _ => True

theorem loosened_eq_false_iff (compiled : Clause) :
    loosened compiled = false ↔ Positive compiled := by
  induction compiled <;> simp_all [loosened, Positive]

/-! ## Masks as sets of facts -/

def bits (mask : UInt8) : Set ℕ := {i | mask.toNat.testBit i}

@[simp] theorem bits_zero : bits 0 = ∅ := by
  ext i
  simp [bits]

@[simp] theorem bits_or (l r : UInt8) : bits (l ||| r) = bits l ∪ bits r := by
  ext i
  simp [bits, UInt8.toNat_or, Nat.testBit_or]

/-- What a set of facts must contain to admit only the product. -/
def SufficientFacts (facts : Set ℕ) : Prop :=
  0 ∈ facts ∨
    1 ∈ facts ∧ 2 ∈ facts ∧
      (4 ∈ facts ∨ 3 ∈ facts ∧ 5 ∈ facts ∧ 6 ∈ facts)

theorem SufficientFacts.mono ⦃s t : Set ℕ⦄ (hst : s ⊆ t)
    (hs : SufficientFacts s) : SufficientFacts t := by
  rcases hs with h0 | ⟨h1, h2, h4 | ⟨h3, h5, h6⟩⟩
  · exact Or.inl (hst h0)
  · exact Or.inr ⟨hst h1, hst h2, Or.inl (hst h4)⟩
  · exact Or.inr ⟨hst h1, hst h2, Or.inr ⟨hst h3, hst h5, hst h6⟩⟩

private theorem admits_eq_testBit (n : Fin 256) :
    admitsOnlyTheProduct (UInt8.ofFin n) =
      (n.val.testBit 0 || n.val.testBit 1 && n.val.testBit 2 &&
        (n.val.testBit 4 ||
          n.val.testBit 3 && n.val.testBit 5 && n.val.testBit 6)) := by
  revert n
  decide +kernel

theorem admitsOnlyTheProduct_iff (facts : UInt8) :
    admitsOnlyTheProduct facts = true ↔ SufficientFacts (bits facts) := by
  have htest := admits_eq_testBit facts.toFin
  rw [UInt8.ofFin_toFin] at htest
  rw [htest]
  simp only [SufficientFacts, bits, Set.mem_ofPred_eq, Bool.or_eq_true,
    Bool.and_eq_true, and_assoc]
  rfl

theorem bits_two_pow (k : ℕ) (hk : k < 8) :
    bits (UInt8.ofNat (2 ^ k)) = {k} := by
  have hpow : 2 ^ k < 2 ^ 8 := Nat.pow_lt_pow_right (by omega) hk
  ext i
  simp only [bits, Set.mem_ofPred_eq, UInt8.toNat_ofNat', Nat.mod_eq_of_lt hpow,
    Nat.testBit_two_pow, decide_eq_true_eq, Set.mem_singleton_iff]
  exact eq_comm

@[simp] theorem bits_pinned : bits pinned = {0} :=
  bits_two_pow 0 (by omega)

@[simp] theorem bits_anchored : bits anchored = {1} :=
  bits_two_pow 1 (by omega)

@[simp] theorem bits_named : bits named = {2} :=
  bits_two_pow 2 (by omega)

@[simp] theorem bits_team : bits team = {3} :=
  bits_two_pow 3 (by omega)

@[simp] theorem bits_appStore : bits appStore = {4} :=
  bits_two_pow 4 (by omega)

@[simp] theorem bits_developerIdCa : bits developerIdCa = {5} :=
  bits_two_pow 5 (by omega)

@[simp] theorem bits_developerIdLeaf : bits developerIdLeaf = {6} :=
  bits_two_pow 6 (by omega)

/-- The kind of leaf each bit of a mask marks. -/
def Marks (i : ℕ) (leaf : Clause) : Prop :=
  i = 0 ∧ IsCdHash leaf ∨
    i = 1 ∧ leaf = .genericAnchor ∨
    i = 2 ∧ IsNonEmptyIdentifier leaf ∨
    i = 3 ∧ IsTeam leaf ∨
    i = 4 ∧ leaf = .leafExtension appStoreOid .exists ∨
    i = 5 ∧ leaf = .intermediateExtension developerIdCaOid .exists ∨
    i = 6 ∧ leaf = .leafExtension developerIdLeafOid .exists

theorem bits_fact_identifier (id : List UInt8) (i : ℕ) :
    i ∈ bits (fact (.identifier id)) ↔ i = 2 ∧ id ≠ [] := by
  by_cases hid : id = [] <;> simp [fact, hid]

theorem bits_fact_leafField (field value : List UInt8) (i : ℕ) :
    i ∈ bits (fact (.leafField field (.equals value))) ↔
      i = 3 ∧ field = teamField ∧ value ≠ [] := by
  by_cases hteam : field = teamField ∧ value ≠ []
  · simp [fact, hteam]
  · rw [fact, if_neg hteam, bits_zero]
    simp [hteam]

theorem bits_fact_leafExtension (oid : List UInt8) (i : ℕ) :
    i ∈ bits (fact (.leafExtension oid .exists)) ↔
      i = 4 ∧ oid = appStoreOid ∨ i = 6 ∧ oid = developerIdLeafOid := by
  have hdistinct : appStoreOid ≠ developerIdLeafOid := by decide
  by_cases hstore : oid = appStoreOid
  · subst hstore
    simp [fact, hdistinct]
  · by_cases hleaf : oid = developerIdLeafOid
    · simp [fact, hleaf, hdistinct.symm]
    · simp [fact, hstore, hleaf]

theorem bits_fact_intermediateExtension (oid : List UInt8) (i : ℕ) :
    i ∈ bits (fact (.intermediateExtension oid .exists)) ↔
      i = 5 ∧ oid = developerIdCaOid := by
  by_cases hca : oid = developerIdCaOid <;> simp [fact, hca]

theorem mem_bits_fact (i : ℕ) (leaf : Clause) :
    i ∈ bits (fact leaf) ↔ Marks i leaf := by
  cases leaf with
  | identifier id =>
      rw [bits_fact_identifier]
      simp [Marks, IsCdHash, IsNonEmptyIdentifier, IsTeam]
  | leafField field compared =>
      cases compared with
      | equals value =>
          rw [bits_fact_leafField]
          simp [Marks, IsCdHash, IsNonEmptyIdentifier, IsTeam,
            and_comm (a := field = teamField)]
      | _ => simp [fact, Marks, IsCdHash, IsNonEmptyIdentifier, IsTeam]
  | leafExtension oid compared =>
      cases compared with
      | «exists» =>
          rw [bits_fact_leafExtension]
          simp [Marks, IsCdHash, IsNonEmptyIdentifier, IsTeam]
      | _ => simp [fact, Marks, IsCdHash, IsNonEmptyIdentifier, IsTeam]
  | intermediateExtension oid compared =>
      cases compared with
      | «exists» =>
          rw [bits_fact_intermediateExtension]
          simp [Marks, IsCdHash, IsNonEmptyIdentifier, IsTeam]
      | _ => simp [fact, Marks, IsCdHash, IsNonEmptyIdentifier, IsTeam]
  | _ => simp [fact, Marks, IsCdHash, IsNonEmptyIdentifier, IsTeam]

/-! ## The masks are the alternatives of the requirement -/

theorem mem_dedup (facts : UInt8) (found : List UInt8) :
    facts ∈ dedup found ↔ facts ∈ found := by
  fun_induction dedup found with
  | case1 first rest ih => simp [ih]
  | case2 first second rest hne ih => simp [ih]
  | case3 short hshort => rfl

/-- The formula over places that a requirement without negation is. -/
def shape : Clause → Formula Place
  | .and left right =>
      .and ((shape left).rename (Turn.left :: ·))
        ((shape right).rename (Turn.right :: ·))
  | .or left right =>
      .or ((shape left).rename (Turn.left :: ·))
        ((shape right).rename (Turn.right :: ·))
  | _ => .atom []

def factAt (compiled : Clause) (place : Place) : Set ℕ :=
  {i | ∃ leaf, leafAt compiled place = some leaf ∧ i ∈ bits (fact leaf)}

theorem evaluates_iff_holds {compiled : Clause}
    (hpositive : Positive compiled) (truth : Place → Prop) :
    Evaluates truth compiled ↔ (shape compiled).Holds truth := by
  induction compiled generalizing truth with
  | and left right ihl ihr =>
      simp only [Evaluates, shape, Formula.Holds, Formula.holds_rename]
      exact and_congr (ihl hpositive.1 _) (ihr hpositive.2 _)
  | or left right ihl ihr =>
      simp only [Evaluates, shape, Formula.Holds, Formula.holds_rename]
      exact or_congr (ihl hpositive.1 _) (ihr hpositive.2 _)
  | not inner => exact hpositive.elim
  | true => exact hpositive.elim
  | _ => rfl

theorem hasTrueLeaf_and (truth : Place → Prop) (left right : Clause)
    (kind : Clause → Prop) :
    HasTrueLeaf truth (.and left right) kind ↔
      HasTrueLeaf (fun place => truth (.left :: place)) left kind ∨
        HasTrueLeaf (fun place => truth (.right :: place)) right kind := by
  constructor
  · rintro ⟨place, leaf, hleaf, htrue, hkind⟩
    match place with
    | [] => cases hleaf
    | .left :: place => exact Or.inl ⟨place, leaf, hleaf, htrue, hkind⟩
    | .right :: place => exact Or.inr ⟨place, leaf, hleaf, htrue, hkind⟩
  · rintro (⟨place, leaf, hleaf, htrue, hkind⟩ |
      ⟨place, leaf, hleaf, htrue, hkind⟩)
    · exact ⟨.left :: place, leaf, hleaf, htrue, hkind⟩
    · exact ⟨.right :: place, leaf, hleaf, htrue, hkind⟩

/-- Leaves stand at the same places under an `or` as under an `and`. -/
theorem leafAt_or (left right : Clause) (place : Place) :
    leafAt (.or left right) place = leafAt (.and left right) place := by
  match place with
  | [] => rfl
  | .left :: _ => rfl
  | .right :: _ => rfl

theorem hasTrueLeaf_or (truth : Place → Prop) (left right : Clause)
    (kind : Clause → Prop) :
    HasTrueLeaf truth (.or left right) kind ↔
      HasTrueLeaf (fun place => truth (.left :: place)) left kind ∨
        HasTrueLeaf (fun place => truth (.right :: place)) right kind := by
  rw [← hasTrueLeaf_and]
  simp only [HasTrueLeaf, leafAt_or]

/-- A clause that is neither a connective nor a constant. -/
def IsLeaf (compiled : Clause) : Prop :=
  ∀ place, leafAt compiled place = if place = [] then some compiled else none

theorem hasTrueLeaf_leaf {leaf : Clause} (hleaf : IsLeaf leaf)
    (truth : Place → Prop) (kind : Clause → Prop) :
    HasTrueLeaf truth leaf kind ↔ truth [] ∧ kind leaf := by
  constructor
  · rintro ⟨place, found, hfound, htrue, hkind⟩
    rw [hleaf] at hfound
    split at hfound
    next hplace =>
      cases hfound
      exact ⟨hplace ▸ htrue, hkind⟩
    next => cases hfound
  · rintro ⟨htrue, hkind⟩
    exact ⟨[], leaf, by rw [hleaf, if_pos rfl], htrue, hkind⟩

theorem factAt_leaf {leaf : Clause} (hleaf : IsLeaf leaf) :
    factAt leaf [] = bits (fact leaf) := by
  ext i
  simp [factAt, hleaf []]

/-- Induction over requirements without `always` or negation. -/
theorem Positive.induction {motive : Clause → Prop}
    (and : ∀ left right, motive left → motive right →
      motive (.and left right))
    (or : ∀ left right, motive left → motive right →
      motive (.or left right))
    (leaf : ∀ c, IsLeaf c → shape c = .atom [] →
      alternatives c = dedup ([fact c].mergeSort) → motive c)
    {compiled : Clause} (hpositive : Positive compiled) :
    motive compiled := by
  induction compiled with
  | and left right ihl ihr =>
      exact and left right (ihl hpositive.1) (ihr hpositive.2)
  | or left right ihl ihr =>
      exact or left right (ihl hpositive.1) (ihr hpositive.2)
  | not inner => exact hpositive.elim
  | true => exact hpositive.elim
  | _ =>
      refine leaf _ ?_ rfl rfl
      rintro (_ | ⟨turn, place⟩) <;> rfl

/-- The known facts are those of the true leaves. -/
theorem mem_known_iff {compiled : Clause} (hpositive : Positive compiled)
    (truth : Place → Prop) (i : ℕ) :
    i ∈ (shape compiled).known (factAt compiled) truth ↔
      HasTrueLeaf truth compiled (Marks i) := by
  revert truth
  refine Positive.induction (motive := fun c => ∀ truth : Place → Prop,
    i ∈ (shape c).known (factAt c) truth ↔ HasTrueLeaf truth c (Marks i))
    ?_ ?_ ?_ hpositive
  · intro left right ihl ihr truth
    rw [hasTrueLeaf_and, ← ihl, ← ihr]
    simp only [shape, Formula.known, Formula.known_rename]
    rfl
  · intro left right ihl ihr truth
    rw [hasTrueLeaf_or, ← ihl, ← ihr]
    simp only [shape, Formula.known, Formula.known_rename]
    rfl
  · intro leaf hleaf hshape _ truth
    rw [hasTrueLeaf_leaf hleaf, hshape, ← mem_bits_fact, ← factAt_leaf hleaf]
    rfl

theorem mem_alternatives_iff {compiled : Clause}
    (hpositive : Positive compiled) (s : Set ℕ) :
    s ∈ (shape compiled).alternatives (factAt compiled) ↔
      ∃ facts ∈ alternatives compiled, s = bits facts := by
  revert s
  refine Positive.induction (motive := fun c => ∀ s : Set ℕ,
    s ∈ (shape c).alternatives (factAt c) ↔
      ∃ facts ∈ alternatives c, s = bits facts) ?_ ?_ ?_ hpositive
  · intro left right ihl ihr s
    simp only [shape, Formula.alternatives, Formula.alternatives_rename,
      Set.mem_ofPred_eq, alternatives, mem_dedup, List.mem_mergeSort,
      List.mem_flatMap, List.mem_map]
    constructor
    · rintro ⟨l, hl, r, hr, rfl⟩
      obtain ⟨lfacts, hlfacts, rfl⟩ := (ihl l).mp hl
      obtain ⟨rfacts, hrfacts, rfl⟩ := (ihr r).mp hr
      exact ⟨lfacts ||| rfacts, ⟨lfacts, hlfacts, rfacts, hrfacts, rfl⟩,
        (bits_or lfacts rfacts).symm⟩
    · rintro ⟨_, ⟨lfacts, hlfacts, rfacts, hrfacts, rfl⟩, rfl⟩
      exact ⟨bits lfacts, (ihl _).mpr ⟨lfacts, hlfacts, rfl⟩,
        bits rfacts, (ihr _).mpr ⟨rfacts, hrfacts, rfl⟩,
        bits_or lfacts rfacts⟩
  · intro left right ihl ihr s
    have hunion :
        s ∈ (shape (.or left right)).alternatives
            (factAt (.or left right)) ↔
          s ∈ (shape left).alternatives (factAt left) ∨
            s ∈ (shape right).alternatives (factAt right) := by
      simp only [shape, Formula.alternatives, Formula.alternatives_rename]
      rfl
    rw [hunion, ihl, ihr]
    simp only [alternatives, mem_dedup, List.mem_mergeSort, List.mem_append]
    constructor
    · rintro (⟨facts, hfacts, rfl⟩ | ⟨facts, hfacts, rfl⟩)
      · exact ⟨facts, Or.inl hfacts, rfl⟩
      · exact ⟨facts, Or.inr hfacts, rfl⟩
    · rintro ⟨facts, hfacts | hfacts, rfl⟩
      · exact Or.inl ⟨facts, hfacts, rfl⟩
      · exact Or.inr ⟨facts, hfacts, rfl⟩
  · intro leaf hleaf hshape halternatives s
    rw [hshape, halternatives]
    simp only [Formula.alternatives, factAt_leaf hleaf, mem_dedup,
      List.mem_mergeSort, List.mem_singleton, Set.mem_singleton_iff,
      exists_eq_left]

theorem sufficientFacts_known_iff {compiled : Clause}
    (hpositive : Positive compiled) (truth : Place → Prop) :
    SufficientFacts ((shape compiled).known (factAt compiled) truth) ↔
      IdentifiesTheProduct truth compiled := by
  simp only [SufficientFacts, mem_known_iff hpositive]
  simp [IdentifiesTheProduct, HasTrueLeaf, Marks]

/-- The check passes exactly when the requirement has no `always` and no
negation, and whatever makes it true identifies the product. -/
theorem isStrong_iff (compiled : Clause) :
    isStrong compiled = true ↔
      Positive compiled ∧
        ∀ truth : Place → Prop, Evaluates truth compiled →
          IdentifiesTheProduct truth compiled := by
  rw [isStrong, Bool.and_eq_true, Bool.not_eq_true', loosened_eq_false_iff]
  refine and_congr_right fun hpositive => ?_
  have hentails := Formula.forall_holds_iff_forall_alternatives
    (factAt compiled) SufficientFacts.mono (shape compiled)
  simp only [sufficientFacts_known_iff hpositive,
    mem_alternatives_iff hpositive] at hentails
  simp only [evaluates_iff_holds hpositive, hentails, List.all_eq_true,
    admitsOnlyTheProduct_iff]
  constructor
  · rintro hall s ⟨facts, hfacts, rfl⟩
    exact hall facts hfacts
  · intro hall facts hfacts
    exact hall _ ⟨facts, hfacts, rfl⟩

end RequirementStrength
end Dovetail
