import Dovetail.CodeUnits

/-!
# Arguments in one command line

The rules of `CommandLineToArgvW`: a blank or a tab outside quotes ends an
argument, a quote begins and ends them, and backslashes before a quote count
for half as many, where an odd one makes the quote a part of the argument.
Backslashes are only lost before a quote, so a command line that keeps them
all has no quote in any argument.
-/

namespace ArgumentVectors

open CodeUnits

def blank : UInt16 := 32

def tab : UInt16 := 9

def quote : UInt16 := 34

def backslash : UInt16 := 92

def isBlank (unit : UInt16) : Bool := unit == blank || unit == tab

/-! ## Reading -/

/-- The backslashes that were not yet decided on are not in the argument. -/
structure Reading where
  before : List Text
  argument : Option Text
  pending : Nat
  quoted : Bool

namespace Reading

def start : Reading := ⟨[], none, 0, false⟩

def arguments (reading : Reading) : List Text :=
  match reading.argument with
  | none => reading.before
  | some argument =>
      reading.before ++
        [argument ++ List.replicate reading.pending backslash]

def extended (reading : Reading) (count : Nat) (units : Text) : Option Text :=
  some (reading.argument.getD [] ++ List.replicate count backslash ++ units)

def step (reading : Reading) (unit : UInt16) : Reading :=
  if unit = backslash then
    { reading with
      argument := reading.extended 0 []
      pending := reading.pending + 1 }
  else if unit = quote then
    if reading.pending % 2 = 0 then
      { reading with
        argument := reading.extended (reading.pending / 2) []
        pending := 0
        quoted := !reading.quoted }
    else
      { reading with
        argument := reading.extended (reading.pending / 2) [quote]
        pending := 0 }
  else if isBlank unit && !reading.quoted then
    ⟨reading.arguments, none, 0, false⟩
  else
    { reading with
      argument := reading.extended reading.pending [unit]
      pending := 0 }

def run (reading : Reading) (source : Text) : Reading :=
  source.foldl step reading

@[simp] theorem run_nil (reading : Reading) : reading.run [] = reading := rfl

theorem run_cons (reading : Reading) (unit : UInt16) (rest : Text) :
    reading.run (unit :: rest) = (reading.step unit).run rest := rfl

theorem run_append (reading : Reading) (before after : Text) :
    reading.run (before ++ after) = (reading.run before).run after :=
  List.foldl_append

end Reading

/-- The program is named by what is between its quotes, or up to the first
blank; backslashes are nothing special there. -/
def programName : Text → Text × Text
  | 34 :: rest =>
      (rest.takeWhile (· ≠ quote), (rest.dropWhile (· ≠ quote)).tail)
  | source =>
      (source.takeWhile (!isBlank ·), source.dropWhile (!isBlank ·))

def commandLineToArgv (commandLine : Text) : List Text :=
  (programName commandLine).1 ::
    (Reading.start.run (programName commandLine).2).arguments

theorem programName_quoted {program : Text} (hprogram : quote ∉ program)
    (rest : Text) :
    programName (quote :: (program ++ quote :: rest)) = (program, rest) := by
  have hall : ∀ unit ∈ program, decide (unit ≠ quote) = true := by
    intro unit hunit
    apply decide_eq_true
    rintro rfl
    exact hprogram hunit
  change ((program ++ quote :: rest).takeWhile (· ≠ quote),
    ((program ++ quote :: rest).dropWhile (· ≠ quote)).tail) = _
  rw [List.takeWhile_append_of_pos hall, List.dropWhile_append_of_pos hall,
    List.takeWhile_cons_of_neg (by simp),
    List.dropWhile_cons_of_neg (by simp)]
  simp

/-! ## What is lost -/

section

variable (reading : Reading)

/-- How often a unit is in the arguments so far. -/
def Reading.count (unit : UInt16) : Nat :=
  reading.arguments.flatten.count unit

theorem Reading.count_eq (unit : UInt16) :
    reading.count unit = reading.before.flatten.count unit +
      (match reading.argument with
        | none => 0
        | some argument => argument.count unit +
            (List.replicate reading.pending backslash).count unit) := by
  unfold count arguments
  cases reading.argument <;> simp

end

/-- Backslashes stand only behind an argument. -/
def Reading.Sound (reading : Reading) : Prop :=
  reading.argument = none → reading.pending = 0

namespace Reading

theorem sound_step (reading : Reading) (unit : UInt16) :
    (reading.step unit).Sound := by
  unfold step Sound
  split_ifs <;> simp [extended]

theorem count_step {reading : Reading} (hsound : reading.Sound)
    {unit : UInt16} :
    (reading.step unit).count backslash +
        (if unit = quote then reading.pending - reading.pending / 2 else 0) =
      reading.count backslash + if unit = backslash then 1 else 0 := by
  unfold Sound at hsound
  have hdifferent : quote ≠ backslash := by decide
  have hblank : blank ≠ backslash ∧ tab ≠ backslash := by decide
  rw [count_eq, count_eq]
  unfold step
  cases hargument : reading.argument with
  | none =>
      have hpending := hsound hargument
      split_ifs <;>
        simp_all [extended, arguments]
  | some argument =>
      split_ifs <;>
        simp_all [extended, arguments] <;> omega

theorem count_quote_step {reading : Reading} (hsound : reading.Sound)
    {unit : UInt16} (hplain : unit = quote → reading.pending = 0) :
    (reading.step unit).count quote = reading.count quote := by
  unfold Sound at hsound
  have hdifferent : quote ≠ backslash ∧ backslash ≠ quote := by decide
  have hblank : blank ≠ quote ∧ tab ≠ quote := by decide
  rw [count_eq, count_eq]
  unfold step
  cases hargument : reading.argument with
  | none =>
      have hpending := hsound hargument
      split_ifs <;> simp_all [extended, arguments]
  | some argument =>
      split_ifs <;> simp_all [extended, arguments, List.count_replicate]

theorem count_run_le {reading : Reading} (hsound : reading.Sound)
    (source : Text) :
    (reading.run source).count backslash ≤
      reading.count backslash + source.count backslash := by
  induction source generalizing reading with
  | nil => simp
  | cons unit rest ih =>
      have hstep := @count_step reading hsound unit
      have hrest := ih (sound_step reading unit)
      rw [run_cons, List.count_cons]
      simp only [beq_iff_eq]
      omega

/-- Where no backslash is lost no quote is won. -/
theorem count_quote_run {reading : Reading} (hsound : reading.Sound)
    {source : Text}
    (hkept : (reading.run source).count backslash =
      reading.count backslash + source.count backslash) :
    (reading.run source).count quote = reading.count quote := by
  induction source generalizing reading with
  | nil => rfl
  | cons unit rest ih =>
      have hstep := @count_step reading hsound unit
      have hle := count_run_le (sound_step reading unit) rest
      rw [run_cons, List.count_cons] at hkept
      simp only [beq_iff_eq] at hkept
      have hplain : unit = quote → reading.pending = 0 := by
        intro hquote
        rw [if_pos hquote] at hstep
        omega
      rw [run_cons, ih (sound_step reading unit) (by omega),
        count_quote_step hsound hplain]

/-- A backslash is lost before a quote. -/
theorem count_run_lt {reading : Reading} (hsound : reading.Sound)
    (before after : Text) :
    (reading.run (before ++ backslash :: quote :: after)).count backslash <
      reading.count backslash +
        (before ++ backslash :: quote :: after).count backslash := by
  have hbefore := count_run_le hsound before
  have hmiddle : (reading.run before).Sound := by
    cases before using List.reverseRecOn with
    | nil => exact hsound
    | append_singleton before unit =>
        rw [run_append]
        exact sound_step _ unit
  generalize hreached : reading.run before = reached at hbefore hmiddle
  have hslash := @count_step reached hmiddle backslash
  have hpending : (reached.step backslash).pending = reached.pending + 1 := by
    simp [step]
  have hquote := @count_step (reached.step backslash)
    (sound_step reached backslash) quote
  have hafter := count_run_le
    (sound_step (reached.step backslash) quote) after
  have hdifferent : quote ≠ backslash := by decide
  rw [if_neg hdifferent.symm, if_pos rfl] at hslash
  rw [if_pos rfl, if_neg hdifferent, hpending] at hquote
  rw [run_append, hreached, run_cons, run_cons, List.count_append,
    List.count_cons, List.count_cons]
  simp only [beq_iff_eq, if_pos, if_neg hdifferent]
  omega

/-! ## What is read as it is -/

/-- Units that are neither quotes nor end the argument. -/
theorem run_plain (reading : Reading) {plain : Text} (hne : plain ≠ [])
    (hquote : quote ∉ plain)
    (hblank : reading.quoted = true ∨ ∀ unit ∈ plain, isBlank unit = false) :
    ∃ argument pending,
      reading.run plain =
        { reading with argument := some argument, pending := pending } ∧
      argument ++ List.replicate pending backslash =
        reading.argument.getD [] ++
          List.replicate reading.pending backslash ++ plain ∧
      (plain.getLast? ≠ some backslash → pending = 0) := by
  induction plain using List.reverseRecOn with
  | nil => exact absurd rfl hne
  | append_singleton plain unit ih =>
      have hunit : unit ≠ quote := by
        rintro rfl
        exact hquote (by simp)
      have hinside : (isBlank unit && !reading.quoted) = false := by
        rcases hblank with hquoted | hnone
        · simp [hquoted]
        · simp [hnone unit (by simp)]
      have hone : ∀ reached : Reading, reached.quoted = reading.quoted →
          reached.before = reading.before →
          ∃ argument pending,
            reached.step unit =
              { reading with argument := some argument, pending := pending } ∧
            argument ++ List.replicate pending backslash =
              reached.argument.getD [] ++
                List.replicate reached.pending backslash ++ [unit] ∧
            (unit ≠ backslash → pending = 0) := by
        intro reached hsame hbefore
        by_cases hslash : unit = backslash
        · refine ⟨reached.argument.getD [], reached.pending + 1, ?_, ?_, ?_⟩
          · cases reached
            cases reading
            cases hsame
            cases hbefore
            simp [step, hslash, extended]
          · rw [List.replicate_succ', hslash, List.append_assoc]
          · exact absurd hslash
        · refine ⟨reached.argument.getD [] ++
            List.replicate reached.pending backslash ++ [unit], 0, ?_, ?_, ?_⟩
          · cases reached
            cases reading
            cases hsame
            cases hbefore
            simp_all [step, extended]
          · simp
          · intro _
            rfl
      by_cases hempty : plain = []
      · rcases hone reading rfl rfl with ⟨argument, pending, hstep, hall, hlast⟩
        refine ⟨argument, pending, ?_, ?_, ?_⟩
        · rw [hempty]
          exact hstep
        · rw [hall, hempty]
          rfl
        · intro hslash
          apply hlast
          rintro rfl
          simp at hslash
      · rcases ih hempty (fun hmem => hquote (by simp [hmem]))
          (hblank.imp_right fun hnone other hother =>
            hnone other (by simp [hother])) with
          ⟨argument, pending, hrun, hall, -⟩
        rcases hone (reading.run plain) (by rw [hrun]) (by rw [hrun]) with
          ⟨longer, count, hstep, hmore, hlast⟩
        refine ⟨longer, count, ?_, ?_, ?_⟩
        · rw [run_append]
          exact hstep
        · rw [hmore, hrun]
          simp only [Option.getD_some]
          rw [hall, List.append_assoc _ plain]
        · intro hslash
          apply hlast
          rintro rfl
          simp at hslash

/-! ## Words -/

/-- The reading between two arguments. -/
def between (before : List Text) : Reading := ⟨before, none, 0, false⟩

/-- A blank would end the last of the arguments. -/
def Ends (reading : Reading) (arguments : List Text) : Prop :=
  reading.arguments = arguments ∧ reading.quoted = false

theorem ends_between (before : List Text) : (between before).Ends before :=
  ⟨rfl, rfl⟩

theorem sound_between (before : List Text) : (between before).Sound :=
  fun _ => rfl

theorem Ends.step_blank {reading : Reading} {arguments : List Text}
    (hends : reading.Ends arguments) :
    reading.step blank = between arguments := by
  have hslash : blank ≠ backslash := by decide
  have hquote : blank ≠ quote := by decide
  have hinside : (isBlank blank && !reading.quoted) = true := by
    rw [hends.2]
    rfl
  unfold step
  rw [if_neg hslash, if_neg hquote, if_pos hinside, hends.1]
  rfl

variable (before : List Text) {word : Text} (hquote : quote ∉ word)
include hquote

theorem ends_run_plain (hne : word ≠ [])
    (hblank : ∀ unit ∈ word, isBlank unit = false) :
    ((between before).run word).Ends (before ++ [word]) := by
  rcases run_plain (between before) hne hquote (Or.inr hblank) with
    ⟨argument, pending, hrun, hall, -⟩
  rw [hrun]
  constructor
  · simp only [arguments, hall]
    rfl
  · rfl

theorem ends_run_quoted (hne : word ≠ [])
    (hslash : word.getLast? ≠ some backslash) :
    ((between before).run (quote :: (word ++ [quote]))).Ends
      (before ++ [word]) := by
  have hopen : (between before).step quote =
      ⟨before, some [], 0, true⟩ := by
    simp [step, between, extended, quote, backslash]
  rcases run_plain ⟨before, some [], 0, true⟩ hne hquote (Or.inl rfl) with
    ⟨argument, pending, hrun, hall, hlast⟩
  have hargument : argument = word := by
    rw [hlast hslash] at hall
    simpa using hall
  rw [run_cons, hopen, run_append, hrun, hargument, hlast hslash]
  constructor
  · simp [run, step, arguments, extended, quote, backslash]
  · rfl

end Reading

/-! ## What is escaped -/

/-- Backslashes are doubled before a quote and before the end, and one more
is put before a quote; so many of them have not been written yet. -/
def escaped : Nat → Text → Text
  | pending, [] => List.replicate (pending * 2) backslash
  | pending, unit :: rest =>
      if unit = backslash then escaped (pending + 1) rest
      else
        List.replicate (if unit = quote then pending * 2 + 1 else pending)
          backslash ++ unit :: escaped 0 rest

namespace Reading

theorem run_replicate (before : List Text) (argument : Text) (quoted : Bool)
    (count pending : Nat) :
    (⟨before, some argument, pending, quoted⟩ : Reading).run
        (List.replicate count backslash) =
      ⟨before, some argument, pending + count, quoted⟩ := by
  induction count generalizing pending with
  | zero => rfl
  | succ count ih =>
      have hstep : (⟨before, some argument, pending, quoted⟩ : Reading).step
          backslash = ⟨before, some argument, pending + 1, quoted⟩ := by
        simp [step, extended]
      rw [List.replicate_succ, run_cons, hstep, ih]
      congr 1
      omega

/-- What is escaped between quotes is read as it was. -/
theorem run_escaped (before : List Text) (argument word : Text)
    (pending : Nat) :
    (⟨before, some argument, 0, true⟩ : Reading).run
        (escaped pending word ++ [quote]) =
      ⟨before, some (argument ++ List.replicate pending backslash ++ word), 0,
        false⟩ := by
  have hdifferent : quote ≠ backslash := by decide
  induction word generalizing argument pending with
  | nil =>
      rw [escaped, run_append, run_replicate]
      simp [run, step, extended, hdifferent]
  | cons unit rest ih =>
      rw [escaped]
      by_cases hslash : unit = backslash
      · rw [if_pos hslash, ih, hslash, List.replicate_succ']
        simp
      · rw [if_neg hslash, List.append_assoc, run_append, run_replicate,
          List.cons_append, run_cons]
        by_cases hquote : unit = quote
        · have hodd : (0 + (pending * 2 + 1)) % 2 ≠ 0 := by omega
          have hhalf : (0 + (pending * 2 + 1)) / 2 = pending := by omega
          rw [if_pos hquote, hquote]
          unfold step
          rw [if_neg hdifferent, if_pos rfl, if_neg hodd, hhalf]
          have hrest := ih (argument ++ List.replicate pending backslash ++
            [quote]) 0
          simp only [List.replicate_zero, List.append_nil] at hrest
          simp only [extended, Option.getD_some]
          rw [hrest, List.append_assoc _ [quote], List.singleton_append]
        · rw [if_neg hquote]
          unfold step
          rw [if_neg hslash, if_neg hquote]
          simp only [Bool.not_true, Bool.and_false, Bool.false_eq_true,
            if_false]
          have hrest := ih (argument ++ List.replicate pending backslash ++
            [unit]) 0
          simp only [List.replicate_zero, List.append_nil] at hrest
          simp only [extended, Option.getD_some, zero_add]
          rw [hrest, List.append_assoc _ [unit], List.singleton_append]

theorem ends_run_escaped (before : List Text) (word : Text) :
    ((between before).run (quote :: (escaped 0 word ++ [quote]))).Ends
      (before ++ [word]) := by
  have hopen : (between before).step quote =
      ⟨before, some [], 0, true⟩ := by
    simp [step, between, extended, quote, backslash]
  rw [run_cons, hopen, run_escaped]
  constructor
  · simp [arguments]
  · rfl

/-! ## Units that are kept -/

variable {kept : UInt16 → Bool}
  (hlost : ∀ unit, isBlank unit = true ∨ unit = quote ∨ unit = backslash →
    kept unit = false)
include hlost

theorem countP_arguments_eq (reading : Reading) :
    reading.arguments.flatten.countP kept =
      reading.before.flatten.countP kept +
        (reading.argument.getD []).countP kept := by
  have hslash := hlost backslash (Or.inr (Or.inr rfl))
  unfold arguments
  cases reading.argument with
  | none => simp
  | some argument =>
      simp [List.countP_append, List.countP_replicate, hslash]

theorem countP_step (reading : Reading) (unit : UInt16) :
    (reading.step unit).arguments.flatten.countP kept =
      reading.arguments.flatten.countP kept + [unit].countP kept := by
  have hslash := hlost backslash (Or.inr (Or.inr rfl))
  have hquote := hlost quote (Or.inr (Or.inl rfl))
  have hextended (count : Nat) (units : Text) :
      ((reading.extended count units).getD []).countP kept =
        (reading.argument.getD []).countP kept + units.countP kept := by
    simp [extended, List.countP_append, List.countP_replicate, hslash]
  rw [countP_arguments_eq hlost, countP_arguments_eq hlost]
  unfold step
  split
  · next hsame =>
      dsimp only
      rw [hextended, hsame]
      simp [hslash]
  · split
    · next hsame =>
        split
        · dsimp only
          rw [hextended, hsame]
          simp [hquote]
        · dsimp only
          rw [hextended, hsame]
          simp [hquote]
    · split
      · next hblank =>
          have hunit : kept unit = false := by
            apply hlost unit
            left
            simp only [Bool.and_eq_true] at hblank
            exact hblank.1
          dsimp only
          rw [countP_arguments_eq hlost]
          simp [hunit]
      · dsimp only
        rw [hextended]
        omega

theorem countP_run (reading : Reading) (source : Text) :
    (reading.run source).arguments.flatten.countP kept =
      reading.arguments.flatten.countP kept + source.countP kept := by
  induction source generalizing reading with
  | nil => simp
  | cons unit rest ih =>
      have hcons : (unit :: rest).countP kept =
          [unit].countP kept + rest.countP kept := by
        rw [← List.countP_append, List.singleton_append]
      rw [run_cons, ih, countP_step hlost, hcons, add_assoc]

end Reading

end ArgumentVectors
