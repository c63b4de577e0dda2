import Dovetail.ShortcutSurface

/-!
# Spellings of a chord

`ShortcutChord.parse` reads modifiers in any case and order, under their
aliases and more than once; the last part is the key and is kept as it is
spelled.  Every spelling of one set of modifiers ends in the same chord, and
the accelerator of a chord is one of its spellings.
-/

namespace Dovetail.Shortcut

open CodeUnits
open FallibleSteps

def malformedChord (detail : Text) : ShortcutFailure :=
  { reason := .malformedChord, detail }

/-! ## Modifiers -/

/-- Upper-case letters of the Latin alphabet; no other unit becomes one that
a modifier is spelled with. -/
def toLowerCase (name : Text) : Text :=
  name.map fun unit => if 65 ≤ unit && unit ≤ 90 then unit + 32 else unit

def modifierNamed (name : Text) : Except ShortcutFailure ShortcutModifier :=
  let normalized := toLowerCase name
  if normalized ∈ [text "control", text "ctrl"] then .ok .control
  else if normalized ∈ [text "alt", text "option"] then .ok .alt
  else if normalized = text "shift" then .ok .shift
  else if normalized ∈ [text "meta", text "super", text "command",
      text "cmd", text "win"] then .ok .metaKey
  else if normalized ∈ [text "commandorcontrol", text "cmdorctrl"] then
    .ok .commandOrControl
  else
    .error (malformedChord (text "\"" ++ name ++
      text "\" is not a modifier this channel knows"))

theorem modifierNamed_acceleratorName (modifier : ShortcutModifier) :
    modifierNamed modifier.acceleratorName = .ok modifier := by
  cases modifier <;> decide

namespace ShortcutChord

/-! ## Parsing -/

/-- The constructor; a chord keeps what it checks. -/
def create (code : Text) (modifiers : Finset ShortcutModifier) :
    Except ShortcutFailure ShortcutChord :=
  if hfilled : trim code = [] then
    .error (malformedChord (text "a chord with no key is not a chord"))
  else if hbare : plus ∈ code ∨ trim code ≠ code then
    .error (malformedChord (text "the key is \"" ++ code ++
      text "\"; a chord carries its modifiers in the set, not inside the key name"))
  else
    .ok ⟨code, modifiers, hfilled, by simpa [not_or] using hbare⟩

def partsOf (accelerator : Text) : List Text :=
  ((accelerator.splitOn plus).map trim).filter (· ≠ [])

def parse (accelerator : Text) : Except ShortcutFailure ShortcutChord :=
  match (partsOf accelerator).getLast? with
  | none => .error (malformedChord (text "the accelerator is empty"))
  | some code => do
      let modifiers ← (partsOf accelerator).dropLast.mapM modifierNamed
      create code modifiers.toFinset

/-! ## Equality -/

/-- What a chord takes from `Object.hash` and the hash codes of its parts. -/
structure ObjectHash where
  ofText : Text → Nat
  ofModifier : ShortcutModifier → Nat
  unordered : Nat → Nat → Nat
  pair : Nat → Nat → Nat

def equals (chord other : ShortcutChord) : Bool :=
  other.code = chord.code &&
    other.modifiers.card = chord.modifiers.card &&
    chord.modifiers ⊆ other.modifiers

/-- The hash codes of the modifiers are added up in any order. -/
def hashCode (hash : ObjectHash) (chord : ShortcutChord) : Nat :=
  hash.pair (hash.ofText chord.code)
    (hash.unordered (∑ modifier ∈ chord.modifiers, hash.ofModifier modifier)
      chord.modifiers.card)

theorem equals_iff (chord other : ShortcutChord) :
    chord.equals other = true ↔ chord = other := by
  constructor
  · intro hequals
    simp only [equals, Bool.and_eq_true, decide_eq_true_eq] at hequals
    rcases hequals with ⟨⟨hcode, hcard⟩, hsubset⟩
    have hmodifiers := Finset.eq_of_subset_of_card_le hsubset hcard.le
    cases chord
    cases other
    simp_all
  · rintro rfl
    simp [equals]

/-! ## Spellings -/

def spelled (names : List Text) (key : Text) : Text :=
  [plus].intercalate (names ++ [key])

/-- Names of these modifiers, in any order and as often as one likes. -/
structure Spells (names : List Text) (modifiers : Finset ShortcutModifier) :
    Prop where
  named : ∀ name ∈ names, plus ∉ name ∧
    ∃ modifier ∈ modifiers, modifierNamed (trim name) = .ok modifier
  complete : ∀ modifier ∈ modifiers, ∃ name ∈ names,
    modifierNamed (trim name) = .ok modifier

theorem acceleratorName_bare (modifier : ShortcutModifier) :
    plus ∉ modifier.acceleratorName ∧
      trim modifier.acceleratorName = modifier.acceleratorName := by
  cases modifier <;> decide

theorem trim_ne_nil_of_modifierNamed {name : Text}
    {modifier : ShortcutModifier}
    (hnamed : modifierNamed name = .ok modifier) : name ≠ [] := by
  rintro rfl
  cases hnamed

theorem splitOn_spelled {names : List Text} {key : Text}
    (hnames : ∀ name ∈ names, plus ∉ name) (hplus : plus ∉ key) :
    (spelled names key).splitOn plus = names ++ [key] := by
  apply List.splitOn_intercalate
  · intro part hpart
    rcases List.mem_append.mp hpart with hname | hlast
    · exact hnames part hname
    · rw [List.mem_singleton.mp hlast]
      exact hplus
  · simp

/-- A spelling is read as its modifiers and its key. -/
theorem parse_spelled {names : List Text}
    {modifiers : Finset ShortcutModifier} (hnames : Spells names modifiers)
    {key : Text} (hplus : plus ∉ key) (hkey : trim key ≠ []) :
    parse (spelled names key) = create (trim key) modifiers := by
  have hsplit : (spelled names key).splitOn plus = names ++ [key] :=
    splitOn_spelled (fun name hname => (hnames.named name hname).1) hplus
  have hfilled : ∀ part ∈ names.map trim, part ≠ [] := by
    intro part hpart
    rcases List.mem_map.mp hpart with ⟨name, hname, rfl⟩
    rcases (hnames.named name hname).2 with ⟨modifier, -, hnamed⟩
    exact trim_ne_nil_of_modifierNamed hnamed
  have hparts : partsOf (spelled names key) = names.map trim ++ [trim key] := by
    rw [partsOf, hsplit, List.map_append, List.map_singleton,
      List.filter_append, List.filter_eq_self.mpr (by simpa using hfilled),
      List.filter_eq_self.mpr (by simpa using hkey)]
  have hread : ∃ read, (names.map trim).mapM modifierNamed = .ok read := by
    apply exists_mapM_eq_ok
    intro part hpart
    rcases List.mem_map.mp hpart with ⟨name, hname, rfl⟩
    rcases (hnames.named name hname).2 with ⟨modifier, -, hnamed⟩
    exact ⟨modifier, hnamed⟩
  rcases hread with ⟨read, hread⟩
  have hmodifiers : read.toFinset = modifiers := by
    ext modifier
    rw [List.mem_toFinset]
    constructor
    · intro hmem
      rcases exists_item_of_mapM_eq_ok hread hmem with ⟨part, hpart, hnamed⟩
      rcases List.mem_map.mp hpart with ⟨name, hname, rfl⟩
      rcases (hnames.named name hname).2 with ⟨other, hother, hagain⟩
      rw [hnamed] at hagain
      rw [Except.ok.inj hagain]
      exact hother
    · intro hmem
      rcases hnames.complete modifier hmem with ⟨name, hname, hnamed⟩
      rcases exists_of_mem_of_mapM_eq_ok hread
        (List.mem_map_of_mem hname) with ⟨other, hother, hagain⟩
      rw [hnamed] at hagain
      rw [Except.ok.inj hagain]
      exact hother
  rw [parse, hparts, List.getLast?_concat, List.dropLast_concat]
  simp only
  rw [hread, ← hmodifiers]
  rfl

theorem trim_subset (source : Text) : trim source ⊆ source := by
  intro unit hunit
  have hright := (List.dropWhile_suffix isSpace).subset hunit
  exact (List.rdropWhile_prefix isSpace source).subset hright

/-- A key that is not blank makes a chord. -/
theorem exists_create {key : Text} (hplus : plus ∉ key)
    (hkey : trim key ≠ []) (modifiers : Finset ShortcutModifier) :
    ∃ chord, create (trim key) modifiers = .ok chord := by
  have hfilled : trim (trim key) ≠ [] := by
    rw [trim_trim]
    exact hkey
  have hbare : ¬ (plus ∈ trim key ∨ trim (trim key) ≠ trim key) := by
    rw [not_or, trim_trim]
    constructor
    · intro hmem
      exact hplus (trim_subset key hmem)
    · simp
  rw [create, dif_neg hfilled, dif_neg hbare]
  exact ⟨_, rfl⟩

/-! ## The accelerator -/

/-- The modifiers as an accelerator spells them. -/
def acceleratorNames (modifiers : Finset ShortcutModifier) : List Text :=
  (ShortcutModifier.values.filter fun modifier => modifier ∈ modifiers).map
    ShortcutModifier.acceleratorName

theorem spelled_eq_flatMap (names : List Text) (key : Text) :
    spelled names key = (names.flatMap fun name => name ++ [plus]) ++ key := by
  induction names with
  | nil => simp [spelled]
  | cons name rest ih =>
      have hmore : rest ++ [key] ≠ [] := by simp
      rw [spelled, List.cons_append, List.intercalate_cons_of_ne_nil hmore,
        List.flatMap_cons, List.append_assoc (name ++ [plus]), ← ih, spelled,
        List.append_assoc name]

theorem accelerator_eq (chord : ShortcutChord) :
    chord.accelerator =
      spelled (acceleratorNames chord.modifiers) chord.code := by
  rw [spelled_eq_flatMap, acceleratorNames, List.flatMap_map]
  rfl

theorem spells_acceleratorNames (modifiers : Finset ShortcutModifier) :
    Spells (acceleratorNames modifiers) modifiers := by
  have hread (modifier : ShortcutModifier) :
      modifierNamed (trim modifier.acceleratorName) = .ok modifier := by
    rw [(acceleratorName_bare modifier).2, modifierNamed_acceleratorName]
  constructor
  · intro name hname
    rcases List.mem_map.mp hname with ⟨modifier, hmodifier, rfl⟩
    have hmem : modifier ∈ modifiers := by
      simpa using (List.mem_filter.mp hmodifier).2
    exact ⟨(acceleratorName_bare modifier).1, modifier, hmem,
      hread modifier⟩
  · intro modifier hmodifier
    have hvalues : modifier ∈ ShortcutModifier.values := by
      cases modifier <;> decide
    refine ⟨modifier.acceleratorName, ?_, hread modifier⟩
    apply List.mem_map_of_mem
    exact List.mem_filter.mpr ⟨hvalues, by simpa using hmodifier⟩

theorem create_code (chord : ShortcutChord) :
    create chord.code chord.modifiers = .ok chord := by
  have hbare : ¬ (plus ∈ chord.code ∨ trim chord.code ≠ chord.code) := by
    rw [not_or, not_not]
    exact chord.bare
  rw [create, dif_neg chord.filled, dif_neg hbare]

/-- The accelerator of a chord is read as the chord. -/
theorem parse_accelerator (chord : ShortcutChord) :
    parse chord.accelerator = .ok chord := by
  rw [accelerator_eq, parse_spelled (spells_acceleratorNames chord.modifiers)
    chord.bare.1 chord.filled, chord.bare.2, create_code]

end ShortcutChord

end Dovetail.Shortcut
