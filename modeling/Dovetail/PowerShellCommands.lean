import Dovetail.CodeUnits
import Mathlib.Tactic

/-!
# Commands of bare words and literals

A PowerShell script whose commands are made of bare words and of literals
between single quotes.  Four curly marks are single quotes too; two single
quotes in a row stand for the second of them, and one alone ends the literal.
So each quote inside a literal has cost another, and a script that holds one
quote for each is read with fewer.
-/

namespace PowerShellCommands

open CodeUnits

def apostrophe : UInt16 := 39

def isSingleQuote (unit : UInt16) : Bool :=
  unit == apostrophe || (0x2018 ≤ unit && unit ≤ 0x201B)

def semicolon : UInt16 := 59

def isBlank (unit : UInt16) : Bool := unit == 32 || unit == 9

/-- Letters, digits and the dash of a parameter. -/
def isBare (unit : UInt16) : Bool :=
  (65 ≤ unit && unit ≤ 90) || (97 ≤ unit && unit ≤ 122) ||
    (48 ≤ unit && unit ≤ 57) || unit == 45

/-- What is quoted is never taken for the name of a parameter. -/
inductive Word where
  | bare (units : Text)
  | literal (units : Text)
  deriving DecidableEq

def Word.units : Word → Text
  | .bare units => units
  | .literal units => units

/-! ## Reading -/

/-- Where the next unit is: between words, in a word, in a literal, or behind
a quote that ends the literal unless another follows. -/
inductive Mode where
  | between
  | bare (units : Text)
  | literal (units : Text)
  | closing (units : Text)
  deriving DecidableEq

structure Reading where
  commands : List (List Word)
  words : List Word
  mode : Mode
  deriving DecidableEq

namespace Reading

def start : Reading := ⟨[], [], .between⟩

def push (reading : Reading) (word : Word) : Reading :=
  ⟨reading.commands, reading.words ++ [word], .between⟩

def endCommand (reading : Reading) : Reading :=
  ⟨reading.commands ++ [reading.words], [], .between⟩

def into (reading : Reading) (mode : Mode) : Reading := { reading with mode }

/-- Anything but words, literals and the ends of commands is read no
further. -/
def outside (reading : Reading) (unit : UInt16) : Option Reading :=
  if isSingleQuote unit then some (reading.into (.literal []))
  else if isBlank unit then some reading
  else if unit = semicolon ∨ unit = newline then some reading.endCommand
  else if isBare unit then some (reading.into (.bare [unit]))
  else none

def step (reading : Reading) (unit : UInt16) : Option Reading :=
  match reading.mode with
  | .between => reading.outside unit
  | .bare units =>
      if isBare unit then some (reading.into (.bare (units ++ [unit])))
      else if isSingleQuote unit then none
      else (reading.push (.bare units)).outside unit
  | .literal units =>
      if isSingleQuote unit then some (reading.into (.closing units))
      else some (reading.into (.literal (units ++ [unit])))
  | .closing units =>
      if isSingleQuote unit then
        some (reading.into (.literal (units ++ [unit])))
      else (reading.push (.literal units)).outside unit

def steps (reading : Reading) (source : Text) : Option Reading :=
  source.foldlM step reading

theorem steps_cons (reading : Reading) (unit : UInt16) (rest : Text) :
    reading.steps (unit :: rest) =
      (reading.step unit).bind fun next => next.steps rest :=
  List.foldlM_cons

theorem steps_append (reading : Reading) (before after : Text) :
    reading.steps (before ++ after) =
      (reading.steps before).bind fun next => next.steps after :=
  List.foldlM_append

/-- A literal that is not ended is no command. -/
def finish (reading : Reading) : Option (List (List Word)) :=
  match reading.mode with
  | .between => some reading.endCommand.commands
  | .bare units => some (reading.push (.bare units)).endCommand.commands
  | .literal _ => none
  | .closing units => some (reading.push (.literal units)).endCommand.commands

end Reading

def commands (source : Text) : Option (List (List Word)) :=
  (Reading.start.steps source).bind Reading.finish

/-! ## Units that are kept -/

/-- What the words weigh that a unit is counted in with. -/
def weightOf (weigh : Word → Nat) (words : List Word) : Nat :=
  (words.map weigh).sum

namespace Reading

def weight (weigh : Word → Nat) (opened : Text → Nat) (reading : Reading) :
    Nat :=
  weightOf weigh reading.commands.flatten + weightOf weigh reading.words +
    match reading.mode with
    | .between => 0
    | .bare units => weigh (.bare units)
    | .literal units => opened units
    | .closing units => weigh (.literal units)

/-- How much the words weigh more once a unit is in them: a bare word as much
as its units, a literal one that is opened, each of its units, and the quote
behind one. -/
structure Weighs (weigh : Word → Nat) (opened : Text → Nat)
    (unitWeight : UInt16 → Nat) : Prop where
  bare : ∀ units unit, isBare unit = true →
    weigh (.bare (units ++ [unit])) = weigh (.bare units) + unitWeight unit
  empty : weigh (.bare []) = 0
  opens : ∀ unit, isSingleQuote unit = true → opened [] = unitWeight unit
  plain : ∀ units unit, isSingleQuote unit = false →
    opened (units ++ [unit]) = opened units + unitWeight unit
  closes : ∀ units unit, isSingleQuote unit = true →
    weigh (.literal units) = opened units + unitWeight unit
  doubled : ∀ units unit, isSingleQuote unit = true →
    opened (units ++ [unit]) = weigh (.literal units) + unitWeight unit
  dropped : ∀ unit, isBlank unit = true ∨ unit = semicolon ∨ unit = newline →
    unitWeight unit = 0

variable {weigh : Word → Nat} {opened : Text → Nat}
  {unitWeight : UInt16 → Nat}

@[simp] theorem weight_push (reading : Reading) (word : Word) :
    (reading.push word).weight weigh opened =
      weightOf weigh reading.commands.flatten +
        weightOf weigh reading.words + weigh word := by
  simp [weight, push, weightOf, add_assoc]

@[simp] theorem weight_endCommand (reading : Reading) :
    reading.endCommand.weight weigh opened =
      weightOf weigh reading.commands.flatten +
        weightOf weigh reading.words := by
  simp [weight, endCommand, weightOf]

theorem weight_finish {reading : Reading} {found : List (List Word)}
    (hfound : reading.finish = some found) :
    weightOf weigh found.flatten = reading.weight weigh opened := by
  unfold finish at hfound
  cases hmode : reading.mode with
  | between =>
      rw [hmode] at hfound
      obtain rfl := Option.some.inj hfound
      simp [weight, hmode, endCommand, weightOf]
  | bare units =>
      rw [hmode] at hfound
      obtain rfl := Option.some.inj hfound
      simp [weight, hmode, endCommand, push, weightOf, add_assoc]
  | literal units =>
      rw [hmode] at hfound
      cases hfound
  | closing units =>
      rw [hmode] at hfound
      obtain rfl := Option.some.inj hfound
      simp [weight, hmode, endCommand, push, weightOf, add_assoc]

variable (hweighs : Weighs weigh opened unitWeight)
include hweighs

theorem weight_outside {reading next : Reading} {unit : UInt16}
    (hbetween : reading.mode = .between)
    (hnext : reading.outside unit = some next) :
    next.weight weigh opened =
      reading.weight weigh opened + unitWeight unit := by
  have hmode : reading.weight weigh opened =
      weightOf weigh reading.commands.flatten +
        weightOf weigh reading.words := by
    unfold weight
    rw [hbetween]
    rfl
  unfold outside at hnext
  split at hnext
  · next hquote =>
      obtain rfl := Option.some.inj hnext
      rw [hmode, ← hweighs.opens unit hquote]
      rfl
  · split at hnext
    · next hblank =>
        obtain rfl := Option.some.inj hnext
        rw [hweighs.dropped unit (Or.inl hblank)]
        rfl
    · split at hnext
      · next hends =>
          obtain rfl := Option.some.inj hnext
          rw [weight_endCommand, hmode, hweighs.dropped unit (Or.inr hends)]
          rfl
      · split at hnext
        · next hbare =>
            obtain rfl := Option.some.inj hnext
            have hword := hweighs.bare [] unit hbare
            rw [hweighs.empty, zero_add] at hword
            rw [hmode, ← hword]
            rfl
        · cases hnext

/-- A step adds what its unit weighs. -/
theorem weight_step {reading next : Reading} {unit : UInt16}
    (hnext : reading.step unit = some next) :
    next.weight weigh opened =
      reading.weight weigh opened + unitWeight unit := by
  unfold step at hnext
  cases hmode : reading.mode with
  | between =>
      rw [hmode] at hnext
      exact weight_outside hweighs hmode hnext
  | bare units =>
      rw [hmode] at hnext
      dsimp only at hnext
      have hheld : reading.weight weigh opened =
          (reading.push (.bare units)).weight weigh opened := by
        rw [weight_push, weight, hmode]
      rw [hheld]
      split at hnext
      · next hbare =>
          obtain rfl := Option.some.inj hnext
          rw [weight_push, weight]
          dsimp only [into]
          rw [hweighs.bare units unit hbare]
          ring
      · split at hnext
        · cases hnext
        · exact weight_outside hweighs rfl hnext
  | literal units =>
      rw [hmode] at hnext
      dsimp only at hnext
      have hheld : reading.weight weigh opened =
          weightOf weigh reading.commands.flatten +
            weightOf weigh reading.words + opened units := by
        rw [weight, hmode]
      rw [hheld]
      split at hnext
      · next hquote =>
          obtain rfl := Option.some.inj hnext
          rw [weight]
          dsimp only [into]
          rw [hweighs.closes units unit hquote]
          ring
      · next hquote =>
          obtain rfl := Option.some.inj hnext
          rw [weight]
          dsimp only [into]
          rw [hweighs.plain units unit (Bool.eq_false_iff.mpr hquote)]
          ring
  | closing units =>
      rw [hmode] at hnext
      dsimp only at hnext
      have hheld : reading.weight weigh opened =
          (reading.push (.literal units)).weight weigh opened := by
        rw [weight_push, weight, hmode]
      rw [hheld]
      split at hnext
      · next hquote =>
          obtain rfl := Option.some.inj hnext
          rw [weight_push, weight]
          dsimp only [into]
          rw [hweighs.doubled units unit hquote]
          ring
      · exact weight_outside hweighs rfl hnext

theorem weight_steps {reading last : Reading} {source : Text}
    (hlast : reading.steps source = some last) :
    last.weight weigh opened =
      reading.weight weigh opened + (source.map unitWeight).sum := by
  induction source generalizing reading with
  | nil =>
      obtain rfl := Option.some.inj hlast
      simp
  | cons unit rest ih =>
      rw [steps_cons] at hlast
      rcases Option.bind_eq_some_iff.mp hlast with ⟨next, hnext, hrest⟩
      rw [ih hrest, weight_step hweighs hnext, List.map_cons, List.sum_cons,
        add_assoc]

end Reading

/-- The words of a script weigh as much as its units. -/
theorem weightOf_commands {weigh : Word → Nat} {opened : Text → Nat}
    {unitWeight : UInt16 → Nat}
    (hweighs : Reading.Weighs weigh opened unitWeight) {source : Text}
    {found : List (List Word)} (hfound : commands source = some found) :
    weightOf weigh found.flatten = (source.map unitWeight).sum := by
  rcases Option.bind_eq_some_iff.mp hfound with ⟨last, hlast, hfinish⟩
  have hends : weightOf weigh found.flatten = last.weight weigh opened :=
    Reading.weight_finish hfinish
  rw [hends, Reading.weight_steps hweighs hlast]
  simp [Reading.weight, Reading.start, weightOf]

/-! ## What is counted -/

def countIn (kept : UInt16 → Bool) (words : List Word) : Nat :=
  weightOf (fun word => word.units.countP kept) words

theorem sum_map_ite (kept : UInt16 → Bool) (source : Text) :
    (source.map fun unit => if kept unit = true then 1 else 0).sum =
      source.countP kept := by
  induction source with
  | nil => rfl
  | cons unit rest ih =>
      rw [List.map_cons, List.sum_cons, ih, List.countP_cons]
      ring

/-- Only quotes, blanks and the ends of commands get lost. -/
theorem countIn_commands {kept : UInt16 → Bool}
    (hlost : ∀ unit, isSingleQuote unit = true ∨ isBlank unit = true ∨
      unit = semicolon ∨ unit = newline → kept unit = false)
    {source : Text} {found : List (List Word)}
    (hfound : commands source = some found) :
    countIn kept found.flatten = source.countP kept := by
  rw [← sum_map_ite]
  refine @weightOf_commands _ (fun units => units.countP kept) _ ?_ _ _ hfound
  constructor
  case bare =>
    intro units unit _
    simp [Word.units, List.countP_append, List.countP_cons]
  case empty => rfl
  case opens =>
    intro unit hquote
    simp [hlost unit (Or.inl hquote)]
  case plain =>
    intro units unit _
    simp [List.countP_append, List.countP_cons]
  case closes =>
    intro units unit hquote
    simp [Word.units, hlost unit (Or.inl hquote)]
  case doubled =>
    intro units unit hquote
    simp [Word.units, hlost unit (Or.inl hquote)]
  case dropped =>
    intro unit hdropped
    simp [hlost unit (Or.inr hdropped)]

/-- The quotes a word takes. -/
def quotesOf : Word → Nat
  | .bare _ => 0
  | .literal units => 2 * units.countP isSingleQuote + 2

theorem isSingleQuote_of_isBare {unit : UInt16} (hbare : isBare unit = true) :
    isSingleQuote unit = false := by
  simp only [isBare, Bool.or_eq_true, Bool.and_eq_true, decide_eq_true_eq,
    beq_iff_eq, UInt16.le_iff_toNat_le, ← UInt16.toNat_inj] at hbare
  simp only [isSingleQuote, apostrophe, Bool.or_eq_false_iff,
    Bool.and_eq_false_iff, beq_eq_false_iff_ne, decide_eq_false_iff_not,
    UInt16.le_iff_toNat_le, ne_eq, ← UInt16.toNat_inj]
  simp only [UInt16.reduceToNat] at hbare ⊢
  omega

/-- Every literal takes two quotes and two more for each quote in it. -/
theorem quotesOf_commands {source : Text} {found : List (List Word)}
    (hfound : commands source = some found) :
    weightOf quotesOf found.flatten = source.countP isSingleQuote := by
  rw [← sum_map_ite]
  refine @weightOf_commands _
    (fun units => 2 * units.countP isSingleQuote + 1) _ ?_ _ _ hfound
  constructor
  case bare =>
    intro units unit hbare
    simp [quotesOf, isSingleQuote_of_isBare hbare]
  case empty => rfl
  case opens =>
    intro unit hquote
    simp [hquote]
  case plain =>
    intro units unit hplain
    simp [List.countP_append, hplain]
  case closes =>
    intro units unit hquote
    simp [quotesOf, hquote]
  case doubled =>
    intro units unit hquote
    simp only [quotesOf, List.countP_append, List.countP_singleton, hquote,
      if_true]
    ring
  case dropped =>
    intro unit hdropped
    rcases hdropped with hblank | rfl | rfl
    · simp only [isBlank, Bool.or_eq_true, beq_iff_eq] at hblank
      rcases hblank with rfl | rfl
      · decide
      · decide
    · decide
    · decide

/-! ## Literals that are read back -/

/-- Every apostrophe twice. -/
def doubled (units : Text) : Text :=
  units.flatMap fun unit =>
    if unit = apostrophe then [apostrophe, apostrophe] else [unit]

theorem doubled_cons (unit : UInt16) (rest : Text) :
    doubled (unit :: rest) =
      (if unit = apostrophe then [apostrophe, apostrophe] else [unit]) ++
        doubled rest :=
  List.flatMap_cons

/-- No unit is a curly quote. -/
def Straight (units : Text) : Prop :=
  ∀ unit ∈ units, isSingleQuote unit = true → unit = apostrophe

instance (units : Text) : Decidable (Straight units) :=
  inferInstanceAs (Decidable (∀ unit ∈ units, _ → _))

theorem countP_doubled (units : Text) :
    (doubled units).countP isSingleQuote =
      units.countP isSingleQuote + units.count apostrophe := by
  induction units with
  | nil => rfl
  | cons unit rest ih =>
      rw [doubled_cons, List.countP_append, ih, List.countP_cons,
        List.count_cons]
      have hquote : isSingleQuote apostrophe = true := by decide
      by_cases hunit : unit = apostrophe
      · simp [hunit, hquote]
        ring
      · simp [hunit]
        ring

theorem count_apostrophe_le (units : Text) :
    units.count apostrophe ≤ units.countP isSingleQuote := by
  rw [List.count_eq_countP]
  apply List.countP_mono_left
  intro unit _ hsame
  rw [beq_iff_eq.mp hsame]
  decide

/-- A text has as many apostrophes as single quotes when all are straight. -/
theorem straight_iff (units : Text) :
    Straight units ↔
      units.count apostrophe = units.countP isSingleQuote := by
  induction units with
  | nil => simp [Straight]
  | cons unit rest ih =>
      have hle := count_apostrophe_le rest
      have hquote : isSingleQuote apostrophe = true := by decide
      have hcons : Straight (unit :: rest) ↔
          (isSingleQuote unit = true → unit = apostrophe) ∧
            Straight rest := by
        simp [Straight]
      rw [hcons, ih, List.countP_cons, List.count_cons]
      by_cases hunit : unit = apostrophe
      · simp [hunit, hquote]
      · by_cases hcurly : isSingleQuote unit = true
        · simp only [hunit, hcurly, beq_iff_eq, if_false, if_true,
            forall_const, false_and, false_iff]
          omega
        · simp [hunit, hcurly]

namespace Reading

theorem steps_bare {reading : Reading} (hbetween : reading.mode = .between)
    {word : Text} (hne : word ≠ []) (hbare : ∀ unit ∈ word, isBare unit = true) :
    reading.steps word = some (reading.into (.bare word)) := by
  induction word using List.reverseRecOn with
  | nil => exact absurd rfl hne
  | append_singleton before unit ih =>
      have hunit := hbare unit (by simp)
      have hquote := isSingleQuote_of_isBare hunit
      rw [steps_append]
      by_cases hempty : before = []
      · have hblank : isBlank unit = false := by
          by_contra hblank
          simp only [isBlank, Bool.not_eq_false, Bool.or_eq_true,
            beq_iff_eq] at hblank
          rcases hblank with rfl | rfl
          · exact absurd hunit (by decide)
          · exact absurd hunit (by decide)
        have hends : ¬ (unit = semicolon ∨ unit = newline) := by
          intro hends
          rcases hends with rfl | rfl
          · exact absurd hunit (by decide)
          · exact absurd hunit (by decide)
        rw [hempty]
        simp [steps, step, hbetween, outside, hquote, hblank, hends, hunit]
      · rw [ih hempty fun other hother => hbare other (by simp [hother])]
        simp [steps, step, into, hunit]

theorem steps_doubled (reading : Reading) (before : Text) {units : Text}
    (hstraight : Straight units) :
    (reading.into (.literal before)).steps (doubled units) =
      some (reading.into (.literal (before ++ units))) := by
  induction units generalizing before with
  | nil => simp [doubled, steps]
  | cons unit rest ih =>
      have hrest := ih (before ++ [unit])
        fun other hother => hstraight other (List.mem_cons_of_mem _ hother)
      rw [List.append_assoc, List.singleton_append] at hrest
      rw [doubled_cons, steps_append]
      by_cases hunit : unit = apostrophe
      · have hquote : isSingleQuote apostrophe = true := by decide
        rw [hunit] at hrest ⊢
        simpa [steps, step, into, hquote] using hrest
      · have hplain : isSingleQuote unit = false := by
          by_contra hquote
          apply hunit
          exact hstraight unit (List.mem_cons_self ..)
            (Bool.not_eq_false _ ▸ hquote)
        simpa [steps, step, into, hunit, hplain] using hrest

/-- A literal with nothing but apostrophes doubled is read back. -/
theorem steps_literal {reading : Reading}
    (hbetween : reading.mode = .between) {units : Text}
    (hstraight : Straight units) :
    reading.steps (apostrophe :: (doubled units ++ [apostrophe])) =
      some (reading.into (.closing units)) := by
  have hquote : isSingleQuote apostrophe = true := by decide
  have hopen : reading.step apostrophe =
      some (reading.into (.literal [])) := by
    unfold step
    rw [hbetween]
    exact if_pos hquote
  rw [steps_cons, hopen, Option.bind_some, steps_append,
    steps_doubled reading [] hstraight]
  simp [steps, step, into, hquote]

/-- A word is over at a blank or at the end of its command. -/
theorem steps_bare_cons {reading : Reading}
    (hbetween : reading.mode = .between) {word : Text} (hne : word ≠ [])
    (hbare : ∀ unit ∈ word, isBare unit = true) {unit : UInt16}
    (hunit : isBare unit = false) (hquote : isSingleQuote unit = false)
    (rest : Text) :
    reading.steps (word ++ unit :: rest) =
      (reading.push (.bare word)).steps (unit :: rest) := by
  rw [steps_append, steps_bare hbetween hne hbare, Option.bind_some,
    steps_cons, steps_cons]
  simp [step, into, push, hunit, hquote]

theorem steps_closing_cons {reading : Reading} {units : Text} {unit : UInt16}
    (hquote : isSingleQuote unit = false) (rest : Text) :
    (reading.into (.closing units)).steps (unit :: rest) =
      (reading.push (.literal units)).steps (unit :: rest) := by
  rw [steps_cons, steps_cons]
  simp [step, into, push, hquote]

theorem steps_blank {reading : Reading} (hbetween : reading.mode = .between)
    (rest : Text) : reading.steps (32 :: rest) = reading.steps rest := by
  rw [steps_cons]
  unfold step
  rw [hbetween]
  rfl

theorem steps_semicolon {reading : Reading}
    (hbetween : reading.mode = .between) (rest : Text) :
    reading.steps (semicolon :: rest) = reading.endCommand.steps rest := by
  rw [steps_cons]
  unfold step
  rw [hbetween]
  rfl

/-- Bare words, each with a blank behind it. -/
theorem steps_words {words : List Text}
    (hwords : ∀ word ∈ words, word ≠ [] ∧ ∀ unit ∈ word, isBare unit = true)
    {reading : Reading} (hbetween : reading.mode = .between) (rest : Text) :
    reading.steps (words.flatMap (· ++ [32]) ++ rest) =
      (⟨reading.commands, reading.words ++ words.map .bare, .between⟩ :
        Reading).steps rest := by
  induction words generalizing reading with
  | nil =>
      cases reading
      cases hbetween
      simp
  | cons word others ih =>
      have hword := hwords word (List.mem_cons_self ..)
      have hothers := @ih
        (fun other hother => hwords other (List.mem_cons_of_mem _ hother))
        (reading.push (.bare word)) rfl
      rw [List.flatMap_cons, List.append_assoc, List.append_assoc,
        List.singleton_append,
        steps_bare_cons hbetween hword.1 hword.2 (by decide) (by decide),
        steps_blank rfl, hothers]
      simp [push]

end Reading

end PowerShellCommands
