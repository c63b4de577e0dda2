import Dovetail.ShortcutSpelling

/-!
# Spellings that the policy does not see

The policy compares the key of a chord as it is spelled, and the native
parser reads it in any case and up to a null character.  So the reserved key
is bound under another spelling of it, where no modifier refuses the chord
anyway.
-/

namespace Dovetail.Shortcut

open CodeUnits
open FallibleSteps

/-! ## What the native parser reads -/

inductive NativeModifier where
  | alt
  | control
  | shift
  | super
  deriving DecidableEq

/-- A key combination of the system. -/
structure Combination (Key : Type) where
  modifiers : Finset NativeModifier
  key : Key
  deriving DecidableEq

def nativeModifier (host : ShortcutHost) : ShortcutModifier → NativeModifier
  | .commandOrControl => if host = .macos then .super else .control
  | .control => .control
  | .metaKey => .super
  | .alt => .alt
  | .shift => .shift

variable {Key : Type}

/-- The combination of modifiers that the crate knows and a key. -/
def combinationOf (host : ShortcutHost) (known : Finset ShortcutModifier)
    (keyOf : Text → Option Key) (modifiers : Finset ShortcutModifier)
    (key : Text) : Option (Combination Key) :=
  if modifiers ⊆ known then
    (keyOf key).map (⟨modifiers.image (nativeModifier host), ·⟩)
  else none

/-- The crate reads the modifiers of an accelerator and then its key. -/
structure Documented (crate : HotKeyCrate (Combination Key))
    (host : ShortcutHost) (known : Finset ShortcutModifier)
    (keyOf : Text → Option Key) : Prop where
  reads : ∀ (modifiers : Finset ShortcutModifier) (key : Text), plus ∉ key →
    trimmed key = key →
    (crate.fromStr (ShortcutChord.spelled
      (ShortcutChord.acceleratorNames modifiers) key)).toOption =
        combinationOf host known keyOf modifiers key

namespace ShortcutChord

/-- What the native side reads of the accelerator. -/
def nativeReading (crate : HotKeyCrate (Combination Key))
    (chord : ShortcutChord) : Option (Combination Key) :=
  (Shortcut.parse crate (Surface.nativeText chord.accelerator)).toOption

/-- The code of a chord up to its first null character. -/
def nativeCode (chord : ShortcutChord) : Text :=
  (repaired chord.code).takeWhile (· != 0)

/-- The key as it arrives there. -/
def nativeKey (chord : ShortcutChord) : Text :=
  chord.nativeCode.rdropWhile isWhitespace

/-- No refused chord is read as the same combination as one that is let
through. -/
def NotSpelledAround (crate : HotKeyCrate (Combination Key))
    (host : ShortcutHost) (chord : ShortcutChord) : Prop :=
  ∀ refused : ShortcutChord, ShortcutPolicy.refuse refused host ≠ none →
    ∀ combination, refused.nativeReading crate = some combination →
      chord.nativeReading crate = some combination →
        ShortcutPolicy.refuse chord host ≠ none

def reservedKey : Text := text "F12"

/-- The key is read as the reserved one, and no modifier refuses it. -/
structure Reserved (host : ShortcutHost) (known : Finset ShortcutModifier)
    (keyOf : Text → Option Key) (chord : ShortcutChord) : Prop where
  key : keyOf chord.nativeKey = keyOf reservedKey
  exists_key : keyOf reservedKey ≠ none
  known : chord.modifiers ⊆ known
  primary : chord.carriesPrimaryModifier = true
  permitted : ¬ (host = .windows ∧ .metaKey ∈ chord.modifiers)

/-! ## The native text -/

theorem units_acceleratorName (modifier : ShortcutModifier) :
    ∀ unit ∈ modifier.acceleratorName, isSurrogate unit = false ∧
      unit ≠ 0 ∧ isWhitespace unit = false := by
  cases modifier <;> decide

/-- The modifiers with a plus sign behind each of them. -/
def opening (modifiers : Finset ShortcutModifier) : Text :=
  (acceleratorNames modifiers).flatMap fun name => name ++ [plus]

theorem units_opening {modifiers : Finset ShortcutModifier} :
    ∀ unit ∈ opening modifiers, isSurrogate unit = false ∧ unit ≠ 0 ∧
      isWhitespace unit = false := by
  intro unit hunit
  rcases List.mem_flatMap.mp hunit with ⟨name, hname, hmem⟩
  rcases List.mem_map.mp hname with ⟨modifier, -, rfl⟩
  rcases List.mem_append.mp hmem with hname | hplus
  · exact units_acceleratorName modifier unit hname
  · rw [List.mem_singleton.mp hplus]
    decide

theorem opening_eq_concat {modifiers : Finset ShortcutModifier}
    (hmodifiers : modifiers ≠ ∅) :
    ∃ unit before, opening modifiers = unit :: before ++ [plus] := by
  have hnames : acceleratorNames modifiers ≠ [] := by
    rcases Finset.nonempty_iff_ne_empty.mpr hmodifiers with ⟨modifier, hmem⟩
    rcases (spells_acceleratorNames modifiers).complete modifier hmem with
      ⟨name, hname, -⟩
    exact List.ne_nil_of_mem hname
  rcases List.eq_nil_or_concat (acceleratorNames modifiers) with
    hnone | ⟨names, last, hnames'⟩
  · exact absurd hnone hnames
  · have hlast : last ∈ acceleratorNames modifiers := by
      rw [hnames']
      simp
    have hfilled : last ≠ [] := by
      rcases List.mem_map.mp hlast with ⟨modifier, -, rfl⟩
      cases modifier <;> decide
    have hbefore : (names.flatMap fun name => name ++ [plus]) ++ last ≠ [] := by
      simp [hfilled]
    rcases List.exists_cons_of_ne_nil hbefore with ⟨unit, before, hunits⟩
    refine ⟨unit, before, ?_⟩
    rw [opening, hnames', ← hunits]
    simp

theorem nativeText_accelerator (chord : ShortcutChord) :
    Surface.nativeText chord.accelerator =
      opening chord.modifiers ++ chord.nativeCode := by
  have hrepaired : repaired (opening chord.modifiers ++ chord.code) =
      opening chord.modifiers ++ repaired chord.code :=
    repaired_append fun unit hunit => (units_opening unit hunit).1
  rw [Surface.nativeText, accelerator_eq, spelled_eq_flatMap]
  change (repaired (opening chord.modifiers ++ chord.code)).takeWhile _ = _
  rw [hrepaired]
  apply List.takeWhile_append_of_pos
  intro unit hunit
  simpa using (units_opening unit hunit).2.1

/-- A unit that was not there replaces a lone surrogate. -/
theorem mem_of_mem_repaired {source : Text} {unit : UInt16}
    (hunit : unit ∈ repaired source) : unit ∈ source ∨ unit = 0xFFFD := by
  have hsingle (other : UInt16) (hmem : unit ∈ units (single other)) :
      unit = other ∨ unit = 0xFFFD := by
    by_cases hsurrogate : isSurrogate other = true
    · right
      rw [single, if_pos hsurrogate] at hmem
      exact List.mem_singleton.mp hmem
    · left
      rw [units_single (by simpa using hsurrogate)] at hmem
      exact List.mem_singleton.mp hmem
  unfold repaired at hunit
  fun_induction runes source with
  | case1 => simp at hunit
  | case2 other =>
      rw [List.flatMap_singleton] at hunit
      simpa using hsingle other hunit
  | case3 other next rest hpair ih =>
      rw [Bool.and_eq_true] at hpair
      rw [List.flatMap_cons, units_pair hpair.1 hpair.2,
        List.mem_append] at hunit
      rcases hunit with hpaired | hrest
      · left
        exact List.mem_append_left rest hpaired
      · rcases ih hrest with hmem | hreplaced
        · left
          exact List.mem_cons_of_mem _ (List.mem_cons_of_mem _ hmem)
        · exact Or.inr hreplaced
  | case4 other next rest hpair ih =>
      rw [List.flatMap_cons, List.mem_append] at hunit
      rcases hunit with hfirst | hrest
      · rcases hsingle other hfirst with rfl | hreplaced
        · exact Or.inl List.mem_cons_self
        · exact Or.inr hreplaced
      · rcases ih hrest with hmem | hreplaced
        · exact Or.inl (List.mem_cons_of_mem _ hmem)
        · exact Or.inr hreplaced

theorem plus_not_mem_nativeCode (chord : ShortcutChord) :
    plus ∉ chord.nativeCode := by
  intro hmem
  have hrepaired : plus ∈ repaired chord.code :=
    (List.takeWhile_prefix _).subset hmem
  rcases mem_of_mem_repaired hrepaired with hcode | hreplaced
  · exact chord.bare.1 hcode
  · exact absurd hreplaced (by decide)

/-- A text begins as before when it is repaired, or with the replacement. -/
theorem head?_repaired {source : Text} {unit : UInt16}
    (hunit : unit ∈ (repaired source).head?) :
    unit ∈ source.head? ∨ unit = 0xFFFD := by
  have hsingle (other : UInt16) (rest : Text)
      (hmem : unit ∈ (units (single other) ++ rest).head?) :
      unit = other ∨ unit = 0xFFFD := by
    by_cases hsurrogate : isSurrogate other = true
    · right
      rw [single, if_pos hsurrogate] at hmem
      exact (Option.mem_some.mp hmem).symm
    · left
      rw [units_single (by simpa using hsurrogate)] at hmem
      exact (Option.mem_some.mp hmem).symm
  unfold repaired at hunit
  fun_cases runes source with
  | case1 => simp [runes] at hunit
  | case2 other =>
      rw [runes, List.flatMap_singleton, ← List.append_nil (units _)] at hunit
      simpa [eq_comm] using hsingle other [] hunit
  | case3 other next rest hpair =>
      left
      rw [runes, if_pos hpair, List.flatMap_cons] at hunit
      rw [Bool.and_eq_true] at hpair
      rw [units_pair hpair.1 hpair.2] at hunit
      exact hunit
  | case4 other next rest hpair =>
      rw [runes, if_neg hpair, List.flatMap_cons] at hunit
      simpa [eq_comm] using hsingle other _ hunit

theorem isWhitespace_of_mem_head?_code (chord : ShortcutChord) :
    ∀ first ∈ chord.code.head?, isWhitespace first = false := by
  intro first hfirst
  have hdropped := List.head?_dropWhile_not isSpace (trimRight chord.code)
  have hcode : (trimRight chord.code).dropWhile isSpace = chord.code :=
    chord.bare.2
  rw [hcode, Option.mem_def.mp hfirst] at hdropped
  rw [isWhitespace, hdropped]
  rfl

/-- The key does not begin with whitespace on the native side either. -/
theorem dropWhile_of_prefix_nativeCode (chord : ShortcutChord) {start : Text}
    (hstart : start <+: chord.nativeCode) :
    start.dropWhile isWhitespace = start := by
  cases start with
  | nil => rfl
  | cons unit rest =>
      apply List.dropWhile_cons_of_neg
      have hfirst : unit ∈ (repaired chord.code).head? := by
        rcases hstart.trans (List.takeWhile_prefix _) with ⟨after, hafter⟩
        rw [← hafter]
        rfl
      rcases head?_repaired hfirst with hcode | hreplaced
      · rw [isWhitespace_of_mem_head?_code chord unit hcode]
        simp
      · rw [hreplaced]
        decide

theorem trimmed_nativeKey (chord : ShortcutChord) :
    trimmed chord.nativeKey = chord.nativeKey := by
  have hstart : chord.nativeKey <+: chord.nativeCode :=
    List.rdropWhile_prefix _ _
  rw [trimmed, dropWhile_of_prefix_nativeCode chord hstart]
  exact List.rdropWhile_idempotent isWhitespace chord.nativeCode

/-- The native side trims no more than the end of the key. -/
theorem trimmed_nativeText (chord : ShortcutChord) :
    trimmed (Surface.nativeText chord.accelerator) =
      spelled (acceleratorNames chord.modifiers) chord.nativeKey := by
  rw [nativeText_accelerator, spelled_eq_flatMap]
  change _ = opening chord.modifiers ++ chord.nativeKey
  by_cases hmodifiers : chord.modifiers = ∅
  · have hopening : opening chord.modifiers = [] := by
      rw [hmodifiers]
      rfl
    rw [hopening, List.nil_append, List.nil_append, trimmed,
      dropWhile_of_prefix_nativeCode chord List.prefix_rfl]
    rfl
  · rcases opening_eq_concat hmodifiers with ⟨unit, before, hopening⟩
    have hunit : isWhitespace unit = false := by
      apply (@units_opening chord.modifiers unit _).2.2
      rw [hopening]
      simp
    have hplus : isWhitespace plus = false := by decide
    rw [trimmed, hopening, List.append_assoc, List.cons_append,
      List.dropWhile_cons_of_neg (by simp [hunit]), ← List.cons_append,
      List.singleton_append, rdropWhile_append_cons _ hplus,
      List.append_assoc]
    rfl

variable {crate : HotKeyCrate (Combination Key)} {host : ShortcutHost}
  {known : Finset ShortcutModifier} {keyOf : Text → Option Key}

/-- An accelerator with nothing to read in it is refused before the crate
sees it. -/
theorem nativeReading_eq (hdocumented : Documented crate host known keyOf)
    (chord : ShortcutChord) :
    chord.nativeReading crate =
      if (spelled (acceleratorNames chord.modifiers)
        chord.nativeKey).isEmpty then none
      else combinationOf host known keyOf chord.modifiers chord.nativeKey := by
  have hplus : plus ∉ chord.nativeKey := by
    intro hmem
    exact plus_not_mem_nativeCode chord
      ((List.rdropWhile_prefix _ _).subset hmem)
  have hreads := hdocumented.reads chord.modifiers chord.nativeKey hplus
    (trimmed_nativeKey chord)
  rw [nativeReading, Shortcut.parse, trimmed_nativeText, ← hreads]
  split
  · rfl
  · cases crate.fromStr (spelled (acceleratorNames chord.modifiers)
      chord.nativeKey) <;> rfl

theorem nativeReading_of_nonempty
    (hdocumented : Documented crate host known keyOf) {chord : ShortcutChord}
    (hmodifiers : chord.modifiers ≠ ∅) :
    chord.nativeReading crate =
      combinationOf host known keyOf chord.modifiers chord.nativeKey := by
  have hfilled : (spelled (acceleratorNames chord.modifiers)
      chord.nativeKey).isEmpty = false := by
    rcases opening_eq_concat hmodifiers with ⟨unit, before, hopening⟩
    rw [spelled_eq_flatMap]
    change (opening chord.modifiers ++ chord.nativeKey).isEmpty = false
    rw [hopening]
    rfl
  rw [nativeReading_eq hdocumented, hfilled, if_neg Bool.false_ne_true]

theorem combinationOf_eq_some_iff {modifiers : Finset ShortcutModifier}
    {key : Text} {combination : Combination Key} :
    combinationOf host known keyOf modifiers key = some combination ↔
      modifiers ⊆ known ∧
        combination.modifiers = modifiers.image (nativeModifier host) ∧
        keyOf key = some combination.key := by
  cases combination with
  | mk read key' =>
      unfold combinationOf
      split
      · rename_i hknown
        cases keyOf key <;> simp [hknown, eq_comm, and_comm]
      · rename_i hknown
        simp [hknown]

/-- What is read as a combination has its modifiers. -/
theorem combination_of_nativeReading
    (hdocumented : Documented crate host known keyOf) {chord : ShortcutChord}
    {combination : Combination Key}
    (hreading : chord.nativeReading crate = some combination) :
    chord.modifiers ⊆ known ∧
      combination.modifiers = chord.modifiers.image (nativeModifier host) ∧
      keyOf chord.nativeKey = some combination.key := by
  rw [nativeReading_eq hdocumented] at hreading
  split at hreading
  · cases hreading
  · exact combinationOf_eq_some_iff.mp hreading

/-! ## The policy -/

/-- What Option alone is refused for on macOS has no primary modifier. -/
theorem refuse_ne_none_iff (chord : ShortcutChord) (host : ShortcutHost) :
    ShortcutPolicy.refuse chord host ≠ none ↔
      chord.carriesPrimaryModifier = false ∨ chord.code = reservedKey ∨
        (host = .windows ∧ .metaKey ∈ chord.modifiers) := by
  have hoption : ShortcutPolicy.optionOnly chord = true →
      chord.carriesPrimaryModifier = false := by
    intro honly
    simp only [ShortcutPolicy.optionOnly, Bool.and_eq_true,
      decide_eq_true_eq] at honly
    simp [carriesPrimaryModifier, honly]
  unfold ShortcutPolicy.refuse
  cases hprimary : chord.carriesPrimaryModifier with
  | false => simp
  | true =>
      have hnot : ¬ ShortcutPolicy.optionOnly chord = true := by
        intro honly
        simp [hoption honly] at hprimary
      by_cases hcode : chord.code = reservedKey
      · simp [hcode, reservedKey]
      · have hcode' : ¬ chord.code = text "F12" := hcode
        by_cases hmeta : host = .windows ∧ .metaKey ∈ chord.modifiers
        · simp [hmeta, hcode']
        · simp [hmeta, hcode, hcode', hnot]

/-- A primary modifier is Control or Super on the native side. -/
theorem carriesPrimaryModifier_iff (chord : ShortcutChord)
    (host : ShortcutHost) :
    chord.carriesPrimaryModifier = true ↔
      ∃ modifier ∈ chord.modifiers.image (nativeModifier host),
        modifier = .control ∨ modifier = .super := by
  simp only [carriesPrimaryModifier, Bool.or_eq_true, decide_eq_true_eq,
    Finset.mem_image]
  constructor
  · intro hprimary
    rcases hprimary with (hcontrol | hmeta) | hboth
    · exact ⟨.control, ⟨.control, hcontrol, rfl⟩, Or.inl rfl⟩
    · exact ⟨.super, ⟨.metaKey, hmeta, rfl⟩, Or.inr rfl⟩
    · refine ⟨_, ⟨.commandOrControl, hboth, rfl⟩, ?_⟩
      by_cases hmac : host = .macos <;> simp [nativeModifier, hmac]
  · rintro ⟨native, ⟨modifier, hmodifier, rfl⟩, hnative⟩
    cases modifier with
    | commandOrControl => exact Or.inr hmodifier
    | control => exact Or.inl (Or.inl hmodifier)
    | metaKey => exact Or.inl (Or.inr hmodifier)
    | alt => simp [nativeModifier] at hnative
    | shift => simp [nativeModifier] at hnative

theorem metaKey_mem_iff (modifiers : Finset ShortcutModifier) :
    .metaKey ∈ modifiers ↔
      .super ∈ modifiers.image (nativeModifier .windows) := by
  rw [Finset.mem_image]
  constructor
  · intro hmeta
    exact ⟨.metaKey, hmeta, rfl⟩
  · rintro ⟨modifier, hmodifier, hnative⟩
    cases modifier with
    | metaKey => exact hmodifier
    | _ => cases hnative

theorem nativeKey_of_reserved {chord : ShortcutChord}
    (hcode : chord.code = reservedKey) : chord.nativeKey = reservedKey := by
  rw [nativeKey, nativeCode, hcode]
  decide

/-- The policy cannot be spelled around with a chord exactly where its key is
spelled as the policy spells it, or is not the reserved one. -/
theorem notSpelledAround_iff
    (hdocumented : Documented crate host known keyOf)
    (chord : ShortcutChord) :
    NotSpelledAround crate host chord ↔
      (Reserved host known keyOf chord → chord.code = reservedKey) := by
  constructor
  · intro haround hreserved
    let refused : ShortcutChord :=
      ⟨reservedKey, chord.modifiers, by decide, by decide⟩
    have hrefused : ShortcutPolicy.refuse refused host ≠ none :=
      (refuse_ne_none_iff refused host).mpr (Or.inr (Or.inl rfl))
    have hmodifiers : chord.modifiers ≠ ∅ := by
      intro hnone
      simpa [carriesPrimaryModifier, hnone] using hreserved.primary
    rcases Option.ne_none_iff_exists'.mp hreserved.exists_key with
      ⟨key, hkey⟩
    have hread (other : ShortcutChord)
        (hsame : other.modifiers = chord.modifiers)
        (hother : keyOf other.nativeKey = keyOf reservedKey) :
        other.nativeReading crate =
          some ⟨chord.modifiers.image (nativeModifier host), key⟩ := by
      rw [nativeReading_of_nonempty hdocumented (by rwa [hsame]),
        combinationOf_eq_some_iff, hsame]
      exact ⟨hreserved.known, rfl, by rw [hother, hkey]⟩
    have hfound := haround refused hrefused _
      (hread refused rfl (by rw [nativeKey_of_reserved rfl]))
      (hread chord rfl hreserved.key)
    rcases (refuse_ne_none_iff chord host).mp hfound with
      hprimary | hcode | hmeta
    · rw [hreserved.primary] at hprimary
      cases hprimary
    · exact hcode
    · exact absurd hmeta hreserved.permitted
  · intro hspelled refused hrefused combination hread hchord
    rcases combination_of_nativeReading hdocumented hread with
      ⟨-, hmodifiers, hkey⟩
    rcases combination_of_nativeReading hdocumented hchord with
      ⟨hknown, hmodifiers', hkey'⟩
    have hsame : refused.modifiers.image (nativeModifier host) =
        chord.modifiers.image (nativeModifier host) := by
      rw [← hmodifiers, hmodifiers']
    rw [refuse_ne_none_iff] at hrefused ⊢
    by_contra hpermitted
    rw [not_or, not_or, Bool.not_eq_false] at hpermitted
    rcases hpermitted with ⟨hprimary, hcode, hmeta⟩
    rcases hrefused with hrefused | hrefused | ⟨hwindows, hrefused⟩
    · rw [carriesPrimaryModifier_iff chord host, ← hsame,
        ← carriesPrimaryModifier_iff refused host, hrefused] at hprimary
      cases hprimary
    · rw [nativeKey_of_reserved hrefused] at hkey
      apply hcode
      apply hspelled
      constructor
      · rw [hkey, hkey']
      · simp [hkey]
      · exact hknown
      · exact hprimary
      · exact hmeta
    · subst hwindows
      rw [metaKey_mem_iff, hsame, ← metaKey_mem_iff] at hrefused
      exact hmeta ⟨rfl, hrefused⟩

/-! ## A crate that reads keys in any case -/

def nativeNamed (host : ShortcutHost) (name : Text) :
    Except Text NativeModifier :=
  let normalized := toLowerCase name
  if normalized ∈ [text "option", text "alt"] then .ok .alt
  else if normalized ∈ [text "control", text "ctrl"] then .ok .control
  else if normalized ∈ [text "command", text "cmd", text "super"] then
    .ok .super
  else if normalized = text "shift" then .ok .shift
  else if normalized = text "commandorcontrol" then
    .ok (nativeModifier host .commandOrControl)
  else .error name

def functionKey (key : Text) : Option Text :=
  let normalized := toLowerCase key
  if normalized ∈ [text "f11", text "f12"] then some normalized else none

def foldingCrate (host : ShortcutHost) : HotKeyCrate (Combination Text) where
  fromStr accelerator := do
    let parts := accelerator.splitOn plus
    let modifiers ← parts.dropLast.mapM (nativeNamed host)
    match parts.getLast?.bind functionKey with
    | none => .error accelerator
    | some key => .ok ⟨modifiers.toFinset, key⟩
  id combination := UInt32.ofNat combination.key.length

def namedModifiers : Finset ShortcutModifier :=
  {.commandOrControl, .control, .alt, .shift}

theorem nativeNamed_acceleratorName (host : ShortcutHost)
    (modifier : ShortcutModifier) :
    nativeNamed host modifier.acceleratorName =
      if modifier ∈ namedModifiers then .ok (nativeModifier host modifier)
      else .error modifier.acceleratorName := by
  cases modifier <;> cases host <;> decide

theorem mem_acceleratorNames {modifiers : Finset ShortcutModifier}
    {name : Text} :
    name ∈ acceleratorNames modifiers ↔
      ∃ modifier ∈ modifiers, modifier.acceleratorName = name := by
  have hvalues (modifier : ShortcutModifier) :
      modifier ∈ ShortcutModifier.values := by
    cases modifier <;> decide
  simp [acceleratorNames, hvalues]

/-- All the modifiers of an accelerator are named, or its reading fails. -/
theorem mapM_nativeNamed (host : ShortcutHost)
    (modifiers : Finset ShortcutModifier) :
    ((acceleratorNames modifiers).mapM (nativeNamed host)).toOption.map
        List.toFinset =
      if modifiers ⊆ namedModifiers then
        some (modifiers.image (nativeModifier host))
      else none := by
  split
  · rename_i hnamed
    have hall (modifier : ShortcutModifier) (hmem : modifier ∈ modifiers) :
        nativeNamed host modifier.acceleratorName =
          .ok (nativeModifier host modifier) := by
      rw [nativeNamed_acceleratorName, if_pos (hnamed hmem)]
    have hread : ∃ read,
        (acceleratorNames modifiers).mapM (nativeNamed host) = .ok read := by
      apply exists_mapM_eq_ok
      intro name hname
      rcases mem_acceleratorNames.mp hname with ⟨modifier, hmem, rfl⟩
      exact ⟨_, hall modifier hmem⟩
    rcases hread with ⟨read, hread⟩
    rw [hread]
    change some read.toFinset = _
    congr 1
    ext native
    rw [List.mem_toFinset, Finset.mem_image]
    constructor
    · intro hnative
      rcases exists_item_of_mapM_eq_ok hread hnative with
        ⟨name, hname, hitem⟩
      rcases mem_acceleratorNames.mp hname with ⟨modifier, hmem, rfl⟩
      rw [hall modifier hmem] at hitem
      exact ⟨modifier, hmem, Except.ok.inj hitem⟩
    · rintro ⟨modifier, hmem, rfl⟩
      have hname : modifier.acceleratorName ∈ acceleratorNames modifiers :=
        mem_acceleratorNames.mpr ⟨modifier, hmem, rfl⟩
      rcases exists_of_mem_of_mapM_eq_ok hread hname with
        ⟨native, hnative, hitem⟩
      rw [hall modifier hmem] at hitem
      rw [Except.ok.inj hitem]
      exact hnative
  · rename_i hunknown
    rcases Finset.not_subset.mp hunknown with ⟨modifier, hmem, hnot⟩
    cases hread : (acceleratorNames modifiers).mapM (nativeNamed host) with
    | error reason => rfl
    | ok read =>
        have hname : modifier.acceleratorName ∈ acceleratorNames modifiers :=
          mem_acceleratorNames.mpr ⟨modifier, hmem, rfl⟩
        rcases exists_of_mem_of_mapM_eq_ok hread hname with
          ⟨native, -, hitem⟩
        rw [nativeNamed_acceleratorName, if_neg hnot] at hitem
        cases hitem

theorem documented_foldingCrate (host : ShortcutHost) :
    Documented (foldingCrate host) host namedModifiers functionKey := by
  constructor
  intro modifiers key hplus _
  have hnames := spells_acceleratorNames modifiers
  have hsplit : (spelled (acceleratorNames modifiers) key).splitOn plus =
      acceleratorNames modifiers ++ [key] :=
    splitOn_spelled (fun name hname => (hnames.named name hname).1) hplus
  have hread := mapM_nativeNamed host modifiers
  simp only [foldingCrate, hsplit, List.dropLast_concat, List.getLast?_concat,
    Option.bind_some]
  unfold combinationOf
  cases hmapM : (acceleratorNames modifiers).mapM (nativeNamed host) with
  | error reason =>
      rw [hmapM] at hread
      split at hread
      · cases hread
      · rename_i hunknown
        rw [if_neg hunknown]
        rfl
  | ok read =>
      rw [hmapM] at hread
      split at hread
      · rename_i hnamed
        have himage : read.toFinset = modifiers.image (nativeModifier host) :=
          Option.some.inj hread
        rw [if_pos hnamed, ← himage]
        cases functionKey key <;> rfl
      · cases hread

def upperKey : ShortcutChord where
  code := text "F12"
  modifiers := {.control}
  filled := by decide
  bare := by decide

def lowerKey : ShortcutChord where
  code := text "f12"
  modifiers := {.control}
  filled := by decide
  bare := by decide

theorem notSpelledAround_iff_upperKey :
    NotSpelledAround (foldingCrate .linux) .linux upperKey ↔
      (Reserved .linux namedModifiers functionKey upperKey →
        upperKey.code = reservedKey) :=
  notSpelledAround_iff (documented_foldingCrate .linux) upperKey

/-- `Control+F12` is refused, and `Control+f12` is read as the same keys and
let through. -/
theorem not_notSpelledAround_lowerKey :
    parse (text "Control+f12") = .ok lowerKey ∧
      ¬ NotSpelledAround (foldingCrate .linux) .linux lowerKey := by
  constructor
  · rfl
  · intro haround
    have hfound := haround upperKey (by decide)
      ⟨{.control}, text "f12"⟩ (by decide) (by decide)
    exact absurd hfound (by decide)

end ShortcutChord

end Dovetail.Shortcut
