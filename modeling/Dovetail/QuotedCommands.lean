import Dovetail.ShellScript

/-!
# Commands inside a string

A list of commands that is itself written as a string of another language.
The string is read first, and the shell reads what it stands for: words with
quotes and expansions, joined by `&&`.
-/

namespace QuotedCommands

open CodeUnits ShellScript

/-! ## String literals -/

/-- What a backslash and a letter stand for in a string of AppleScript. -/
def unescape? (unit : UInt16) : Option UInt16 :=
  if unit = backslash ∨ unit = doubleQuote then some unit
  else if unit = 110 then some 10
  else if unit = 114 then some 13
  else if unit = 116 then some 9
  else none

/-- The string behind an opening quote, and what follows its end. -/
def readLiteral : Text → Option (Text × Text)
  | [] => none
  | unit :: rest =>
      if unit = doubleQuote then some ([], rest)
      else if unit = backslash then
        match rest with
        | [] => none
        | next :: rest => do
            let meant ← unescape? next
            let (content, after) ← readLiteral rest
            return (meant :: content, after)
      else do
        let (content, after) ← readLiteral rest
        return (unit :: content, after)

/-! ## Words of the shell -/

def dollar : UInt16 := 36

def backtick : UInt16 := 96

def ampersand : UInt16 := 38

def isLetter (unit : UInt16) : Bool :=
  (65 ≤ unit && unit ≤ 90) || (97 ≤ unit && unit ≤ 122) || unit == 95

def isDigit (unit : UInt16) : Bool := 48 ≤ unit && unit ≤ 57

/-- The parameters that have a name of one sign. -/
def isSpecial (unit : UInt16) : Bool := isDigit unit || unit ∈ text "@*#?-$!"

/-- What makes something else of the sign before it. -/
def startsExpansion (unit : UInt16) : Bool :=
  isLetter unit || isSpecial unit || unit ∈ text "\x7b("

/-- How a double-quoted text is read further: plainly, behind a backslash,
behind the sign of an expansion, or inside of the name of a variable. -/
inductive Inside where
  | plain
  | escaped
  | dollar
  | name (read : Text)
  deriving DecidableEq

inductive Mode where
  | unquoted
  | escaped
  | single
  | double (inside : Inside)
  | ampersand
  deriving DecidableEq

structure Reading where
  mode : Mode
  commands : List (List Text)
  words : List Text
  word : Option Text
  deriving DecidableEq

/-- Outside of quotes these are operators, patterns and the like. -/
def isOther (unit : UInt16) : Bool := unit ∈ text "$`;|<>()\n*?[#~\x7b!="

def isBlank (unit : UInt16) : Bool := unit == 32 || unit == 9

namespace Reading

def push (reading : Reading) (units : Text) : Reading :=
  { reading with word := some (reading.word.getD [] ++ units) }

def endWord (reading : Reading) : Reading :=
  match reading.word with
  | none => reading
  | some word =>
      { reading with words := reading.words ++ [word], word := none }

/-- A command has at least one word. -/
def endCommand (reading : Reading) : Option Reading :=
  let ended := reading.endWord
  if ended.words = [] then none
  else some { ended with
    commands := ended.commands ++ [ended.words], words := [] }

def into (reading : Reading) (mode : Mode) : Reading :=
  { reading with mode }

/-- A unit that is read plainly between double quotes.  A command in the
place of a word is read no further. -/
def quoted (reading : Reading) (unit : UInt16) : Option Reading :=
  if unit = doubleQuote then some (reading.into .unquoted)
  else if unit = backslash then some (reading.into (.double .escaped))
  else if unit = QuotedCommands.dollar then
    some (reading.into (.double .dollar))
  else if unit = backtick then none
  else some ((reading.push [unit]).into (.double .plain))

def step (parameters : Text → Text) (reading : Reading) (unit : UInt16) :
    Option Reading :=
  match reading.mode with
  | .unquoted =>
      if unit = doubleQuote then
        some ((reading.push []).into (.double .plain))
      else if unit = quote then some ((reading.push []).into .single)
      else if unit = backslash then some (reading.into .escaped)
      else if unit = QuotedCommands.ampersand then
        some (reading.into .ampersand)
      else if isBlank unit then some reading.endWord
      else if isOther unit then none
      else some (reading.push [unit])
  | .escaped =>
      if unit = newline then some (reading.into .unquoted)
      else some ((reading.push [unit]).into .unquoted)
  | .single =>
      if unit = quote then some (reading.into .unquoted)
      else some (reading.push [unit])
  | .double .plain => reading.quoted unit
  | .double .escaped =>
      if unit ∈ text "$`\"\\" then
        some ((reading.push [unit]).into (.double .plain))
      else if unit = newline then some (reading.into (.double .plain))
      else some ((reading.push [backslash, unit]).into (.double .plain))
  | .double .dollar =>
      if isLetter unit then some (reading.into (.double (.name [unit])))
      else if isSpecial unit then
        some ((reading.push (parameters [unit])).into (.double .plain))
      else if unit ∈ text "\x7b(" then none
      else (reading.push [QuotedCommands.dollar]).quoted unit
  | .double (.name name) =>
      if isLetter unit || isDigit unit then
        some (reading.into (.double (.name (name ++ [unit]))))
      else (reading.push (parameters name)).quoted unit
  | .ampersand =>
      if unit = QuotedCommands.ampersand then
        (reading.into .unquoted).endCommand
      else none

def start : Reading where
  mode := .unquoted
  commands := []
  words := []
  word := none

def steps (parameters : Text → Text) (reading : Reading) (source : Text) :
    Option Reading :=
  source.foldlM (step parameters) reading

theorem steps_append (parameters : Text → Text) (reading : Reading)
    (before after : Text) :
    reading.steps parameters (before ++ after) =
      (reading.steps parameters before).bind fun next =>
        next.steps parameters after :=
  List.foldlM_append

def finish (reading : Reading) : Option (List (List Text)) :=
  if reading.mode = .unquoted then reading.endCommand.map (·.commands)
  else none

end Reading

/-- The commands of a list, where no other syntax is in it. -/
def commands (parameters : Text → Text) (source : Text) :
    Option (List (List Text)) :=
  (Reading.start.steps parameters source).bind Reading.finish

/-! ## Backslashes are used up -/

/-- A literal has two backslashes for one that it stands for, and one for
each quote. -/
theorem readLiteral_eq_some {source content after : Text}
    (hread : readLiteral source = some (content, after)) :
    ∃ raw, source = raw ++ doubleQuote :: after ∧
      raw.count doubleQuote = content.count doubleQuote ∧
      2 * content.count backslash + content.count doubleQuote ≤
        raw.count backslash := by
  fun_induction readLiteral source generalizing content with
  | case1 => cases hread
  | case2 rest =>
      cases hread
      exact ⟨[], rfl, rfl, Nat.zero_le _⟩
  | case3 hquote => cases hread
  | case4 second rest hquote ih =>
      rcases Option.bind_eq_some_iff.mp hread with ⟨meant, hmeant, hrest⟩
      rcases Option.bind_eq_some_iff.mp hrest with
        ⟨⟨inner, behind⟩, hinner, hsame⟩
      cases hsame
      rcases ih hinner with ⟨raw, rfl, hquotes, hcount⟩
      have hsecond : [second].count doubleQuote = [meant].count doubleQuote ∧
          2 * [meant].count backslash + [meant].count doubleQuote ≤
            [backslash, second].count backslash := by
        unfold unescape? at hmeant
        split_ifs at hmeant with hsame hline hreturn htab
        · cases hmeant
          rcases hsame with rfl | rfl <;> decide
        · cases hmeant
          subst hline
          decide
        · cases hmeant
          subst hreturn
          decide
        · cases hmeant
          subst htab
          decide
      refine ⟨backslash :: second :: raw, rfl, ?_, ?_⟩
      · have hcons := congrArg₂ (· + ·) hsecond.1 hquotes
        rw [List.count_cons_of_ne hquote]
        simpa [← List.count_append] using hcons
      · have hcons := Nat.add_le_add hsecond.2 hcount
        simp only [List.count_cons, List.count_nil] at hcons ⊢
        omega
  | case5 unit rest hquote hbackslash ih =>
      rcases Option.bind_eq_some_iff.mp hread with
        ⟨⟨inner, behind⟩, hinner, hsame⟩
      cases hsame
      rcases ih hinner with ⟨raw, rfl, hquotes, hcount⟩
      refine ⟨unit :: raw, rfl, ?_, ?_⟩
      · rw [List.count_cons_of_ne hquote, List.count_cons_of_ne hquote,
          hquotes]
      · rw [List.count_cons_of_ne hquote, List.count_cons_of_ne hbackslash,
          List.count_cons_of_ne hbackslash]
        exact hcount

/-- Units that are neither a quote nor a backslash stand for themselves. -/
theorem readLiteral_append {plain : Text} (hquote : doubleQuote ∉ plain)
    (hbackslash : backslash ∉ plain) (rest : Text) :
    readLiteral (plain ++ rest) =
      (readLiteral rest).map fun found => (plain ++ found.1, found.2) := by
  induction plain with
  | nil => simp
  | cons unit others ih =>
      rw [List.mem_cons, not_or] at hquote hbackslash
      rw [List.cons_append, readLiteral.eq_def]
      simp only [if_neg (Ne.symm hquote.1), if_neg (Ne.symm hbackslash.1)]
      rw [ih hquote.2 hbackslash.2]
      cases readLiteral rest <;> rfl

namespace Reading

/-- The backslashes of all that was read. -/
def held (reading : Reading) : Nat :=
  reading.commands.flatten.flatten.count backslash +
    reading.words.flatten.count backslash +
    (reading.word.getD []).count backslash

/-- One that is read between double quotes may still become part of the
word. -/
def weight (reading : Reading) : Nat :=
  reading.held + if reading.mode = .double .escaped then 1 else 0

@[simp] theorem held_into (reading : Reading) (mode : Mode) :
    (reading.into mode).held = reading.held := rfl

@[simp] theorem weight_into (reading : Reading) (mode : Mode) :
    (reading.into mode).weight =
      reading.held + if mode = .double .escaped then 1 else 0 := rfl

@[simp] theorem held_push (reading : Reading) (units : Text) :
    (reading.push units).held = reading.held + units.count backslash := by
  simp only [held, push, Option.getD_some, List.count_append]
  omega

@[simp] theorem held_endWord (reading : Reading) :
    reading.endWord.held = reading.held := by
  unfold endWord
  cases hword : reading.word with
  | none => rfl
  | some word =>
      simp only [held, hword, List.flatten_append, List.count_append,
        List.flatten_cons, List.flatten_nil, List.append_nil,
        Option.getD_none, List.count_nil, Option.getD_some]
      omega

theorem endWord_mode (reading : Reading) :
    reading.endWord.mode = reading.mode := by
  unfold endWord
  cases reading.word <;> rfl

@[simp] theorem weight_push (reading : Reading) (units : Text) :
    (reading.push units).weight = reading.weight + units.count backslash := by
  have hmode : (reading.push units).mode = reading.mode := rfl
  unfold weight
  rw [held_push, hmode]
  omega

@[simp] theorem weight_endWord (reading : Reading) :
    reading.endWord.weight = reading.weight := by
  unfold weight
  rw [held_endWord, endWord_mode]

theorem held_endCommand {reading ended : Reading}
    (hended : reading.endCommand = some ended) :
    ended.held = reading.held ∧ ended.mode = reading.mode := by
  unfold endCommand at hended
  dsimp only at hended
  split at hended
  · cases hended
  · cases hended
    constructor
    · have hword : reading.endWord.word = none := by
        unfold endWord
        cases hword : reading.word <;> simp [hword]
      rw [← held_endWord reading]
      simp [held, hword]
    · exact endWord_mode reading

theorem weight_quoted {reading next : Reading} {unit : UInt16}
    (hquoted : reading.quoted unit = some next) :
    next.weight ≤ reading.held + [unit].count backslash := by
  unfold quoted at hquoted
  split_ifs at hquoted with hquote hbackslash hdollar htick
  · cases hquoted
    simp
  · cases hquoted
    simp [hbackslash]
  · cases hquoted
    simp
  · cases hquoted
    simp

/-- Where nothing is expanded, a unit that is read adds no more backslashes
than it is. -/
theorem weight_step {reading next : Reading} {unit : UInt16}
    (hstep : reading.step (fun _ => []) unit = some next) :
    next.weight ≤ reading.weight + [unit].count backslash := by
  have hheld : reading.held ≤ reading.weight := Nat.le_add_right _ _
  have hplain : ∀ mode, mode ≠ .double .escaped → ∀ other : Reading,
      (other.into mode).weight = other.held := by
    intro mode hmode other
    rw [weight_into, if_neg hmode, Nat.add_zero]
  unfold step at hstep
  split at hstep
  · split_ifs at hstep with hquote hsingle hbackslash hjoin hblank hother
    · cases hstep
      rw [hplain _ (by simp), held_push]
      exact Nat.le_trans hheld (Nat.le_add_right _ _)
    · cases hstep
      rw [hplain _ (by simp), held_push]
      exact Nat.le_trans hheld (Nat.le_add_right _ _)
    · cases hstep
      rw [hplain _ (by simp)]
      omega
    · cases hstep
      rw [hplain _ (by simp)]
      omega
    · cases hstep
      rw [weight_endWord]
      exact Nat.le_add_right _ _
    · cases hstep
      rw [weight_push]
  · split_ifs at hstep with hline
    · cases hstep
      rw [hplain _ (by simp)]
      omega
    · cases hstep
      rw [hplain _ (by simp), held_push]
      omega
  · split_ifs at hstep with hquote
    · cases hstep
      rw [hplain _ (by simp)]
      omega
    · cases hstep
      rw [weight_push]
  · have hquoted := weight_quoted hstep
    omega
  · next hmode =>
      have hweight : reading.weight = reading.held + 1 := by
        rw [weight, if_pos hmode]
      split_ifs at hstep with hmeant hline
      · cases hstep
        rw [hplain _ (by simp), held_push]
        omega
      · cases hstep
        rw [hplain _ (by simp)]
        omega
      · cases hstep
        rw [hplain _ (by simp), held_push, hweight,
          ← List.singleton_append, List.count_append]
        have hone : [backslash].count backslash = 1 := by decide
        omega
  · have hsign : [QuotedCommands.dollar].count backslash = 0 := by decide
    split_ifs at hstep with hletter hspecial hnested
    · cases hstep
      rw [hplain _ (by simp)]
      omega
    · cases hstep
      rw [hplain _ (by simp), held_push]
      exact Nat.le_trans hheld (Nat.le_add_right _ _)
    · have hquoted := weight_quoted hstep
      rw [held_push, hsign] at hquoted
      omega
  · split_ifs at hstep with hname
    · cases hstep
      rw [hplain _ (by simp)]
      omega
    · have hquoted := weight_quoted hstep
      rw [held_push, List.count_nil] at hquoted
      omega
  · split_ifs at hstep with hjoin
    have hended := held_endCommand hstep
    rw [held_into] at hended
    rw [weight, hended.1, hended.2]
    simp only [into, reduceCtorEq, if_false]
    omega

theorem weight_steps {reading last : Reading} {source : Text}
    (hsteps : reading.steps (fun _ => []) source = some last) :
    last.weight ≤ reading.weight + source.count backslash := by
  induction source generalizing reading with
  | nil =>
      cases hsteps
      exact Nat.le_add_right _ _
  | cons unit rest ih =>
      rcases Option.bind_eq_some_iff.mp hsteps with ⟨next, hstep, hrest⟩
      have hunit := weight_step hstep
      have hothers := ih hrest
      rw [← List.singleton_append, List.count_append]
      omega

end Reading

/-- Without expansions no backslash is read that the source does not have. -/
theorem count_of_commands {source : Text} {found : List (List Text)}
    (hread : commands (fun _ => []) source = some found) :
    found.flatten.flatten.count backslash ≤ source.count backslash := by
  rcases Option.bind_eq_some_iff.mp hread with ⟨last, hsteps, hfinish⟩
  have hweight := Reading.weight_steps hsteps
  unfold Reading.finish at hfinish
  split at hfinish
  · rcases Option.map_eq_some_iff.mp hfinish with ⟨ended, hended, rfl⟩
    have hheld := (Reading.held_endCommand hended).1
    have hstart : Reading.start.weight = 0 := rfl
    unfold Reading.held at hheld
    unfold Reading.weight Reading.held at hweight hstart
    omega
  · cases hfinish

/-! ## Between double quotes -/

/-- What a text without quotes and backslashes is read as. -/
def plainUnit (before : Text) (unit : UInt16) : Option (Inside × Text) :=
  if unit = dollar then some (.dollar, before)
  else if unit = backtick then none
  else some (.plain, before ++ [unit])

def advance (parameters : Text → Text) :
    Inside → UInt16 → Option (Inside × Text)
  | .plain, unit => plainUnit [] unit
  | .escaped, _ => none
  | .dollar, unit =>
      if isLetter unit then some (.name [unit], [])
      else if isSpecial unit then some (.plain, parameters [unit])
      else if unit ∈ text "\x7b(" then none
      else plainUnit [dollar] unit
  | .name name, unit =>
      if isLetter unit || isDigit unit then some (.name (name ++ [unit]), [])
      else plainUnit (parameters name) unit

/-- What is still to be read where the closing quote stands. -/
def ending (parameters : Text → Text) : Inside → Text
  | .dollar => [dollar]
  | .name name => parameters name
  | _ => []

def expand (parameters : Text → Text) : Inside → Text → Option Text
  | inside, [] => some (ending parameters inside)
  | inside, unit :: rest => do
      let (next, read) ← advance parameters inside unit
      let later ← expand parameters next rest
      return read ++ later

section

variable {parameters : Text → Text} {inside : Inside}
  (hinside : inside ≠ .escaped)

theorem advance_ne_escaped {unit : UInt16} {next : Inside} {read : Text}
    (hadvance : advance parameters inside unit = some (next, read)) :
    next ≠ .escaped := by
  have hplain : ∀ before, plainUnit before unit = some (next, read) →
      next ≠ .escaped := by
    intro before hunit
    unfold plainUnit at hunit
    split_ifs at hunit
    · cases hunit
      simp
    · cases hunit
      simp
  cases inside with
  | plain => exact hplain _ hadvance
  | escaped => cases hadvance
  | dollar =>
      unfold advance at hadvance
      dsimp only at hadvance
      split_ifs at hadvance
      · cases hadvance
        simp
      · cases hadvance
        simp
      · exact hplain _ hadvance
  | name name =>
      unfold advance at hadvance
      dsimp only at hadvance
      split_ifs at hadvance
      · cases hadvance
        simp
      · exact hplain _ hadvance

include hinside

theorem step_double {unit : UInt16} (hquote : unit ≠ doubleQuote)
    (hbackslash : unit ≠ backslash) (found : List (List Text))
    (words : List Text) (word : Text) :
    Reading.step parameters ⟨.double inside, found, words, some word⟩ unit =
      (advance parameters inside unit).map fun next =>
        ⟨.double next.1, found, words, some (word ++ next.2)⟩ := by
  have hplain : ∀ before (mode : Mode),
      Reading.quoted ⟨mode, found, words, some (word ++ before)⟩ unit =
        (plainUnit before unit).map fun next =>
          ⟨.double next.1, found, words, some (word ++ next.2)⟩ := by
    intro before mode
    unfold Reading.quoted plainUnit
    rw [if_neg hquote, if_neg hbackslash]
    split_ifs
    · rfl
    · rfl
    · simp [Reading.push, Reading.into]
  cases inside with
  | plain =>
      have hnothing := hplain [] (.double .plain)
      rw [List.append_nil] at hnothing
      exact hnothing
  | escaped => contradiction
  | dollar =>
      unfold Reading.step advance
      dsimp only
      split_ifs
      · simp [Reading.into]
      · simp [Reading.push, Reading.into]
      · rfl
      · exact hplain [dollar] (.double .dollar)
  | name name =>
      unfold Reading.step advance
      dsimp only
      split_ifs
      · simp [Reading.into]
      · exact hplain (parameters name) (.double (.name name))

theorem step_closing (found : List (List Text)) (words : List Text)
    (word : Text) :
    Reading.step parameters ⟨.double inside, found, words, some word⟩
        doubleQuote =
      some ⟨.unquoted, found, words,
        some (word ++ ending parameters inside)⟩ := by
  cases inside with
  | plain => simp [Reading.step, Reading.quoted, Reading.into, ending]
  | escaped => contradiction
  | dollar => rfl
  | name name => rfl

/-- A double-quoted text adds to the word what it expands to. -/
theorem steps_double {quoted : Text} (hquote : doubleQuote ∉ quoted)
    (hbackslash : backslash ∉ quoted) (found : List (List Text))
    (words : List Text) (word : Text) :
    Reading.steps parameters ⟨.double inside, found, words, some word⟩
        (quoted ++ [doubleQuote]) =
      (expand parameters inside quoted).map fun value =>
        ⟨.unquoted, found, words, some (word ++ value)⟩ := by
  induction quoted generalizing inside word with
  | nil =>
      unfold Reading.steps
      rw [List.nil_append, List.foldlM_cons, step_closing hinside]
      rfl
  | cons unit rest ih =>
      rw [List.mem_cons, not_or] at hquote hbackslash
      unfold Reading.steps at ih ⊢
      rw [List.cons_append, List.foldlM_cons,
        step_double hinside (Ne.symm hquote.1) (Ne.symm hbackslash.1)]
      unfold expand
      cases hadvance : advance parameters inside unit with
      | none => rfl
      | some next =>
          have hrest := ih (advance_ne_escaped hadvance) hquote.2
            hbackslash.2 (word ++ next.2)
          simp only [Option.map_some, Option.bind_eq_bind, Option.bind_some]
          rw [hrest]
          cases expand parameters next.1 rest <;> simp

end

/-! ## Texts that stand for themselves -/

/-- Nothing in the text means something else, in a string or between double
quotes. -/
def isPlain : Text → Bool
  | [] => true
  | unit :: rest =>
      unit ∉ text "\"\\`" &&
        !(unit == dollar && rest.head?.any startsExpansion) && isPlain rest

theorem not_mem_of_isPlain {source : Text} (hplain : isPlain source = true) :
    doubleQuote ∉ source ∧ backslash ∉ source := by
  induction source with
  | nil => simp
  | cons unit rest ih =>
      simp only [isPlain, Bool.and_eq_true, decide_eq_true_eq] at hplain
      have hthree : text "\"\\`" = [doubleQuote, backslash, backtick] := rfl
      have hunit := hplain.1.1
      rw [hthree] at hunit
      simp only [List.mem_cons, not_or] at hunit ⊢
      have hrest := ih hplain.2
      exact ⟨⟨Ne.symm hunit.1, hrest.1⟩, Ne.symm hunit.2.1, hrest.2⟩

theorem plainUnit_eq_some {before : Text} {unit : UInt16} {next : Inside}
    {read : Text} :
    plainUnit before unit = some (next, read) ↔
      unit = dollar ∧ next = .dollar ∧ read = before ∨
        unit ≠ dollar ∧ unit ≠ backtick ∧ next = .plain ∧
          read = before ++ [unit] := by
  unfold plainUnit
  split_ifs with hdollar htick <;> simp_all [eq_comm]

/-- The sign of no expansion is read with what follows it. -/
theorem advance_dollar {parameters : Text → Text} {unit : UInt16}
    (hunit : startsExpansion unit = false) :
    advance parameters .dollar unit = plainUnit [dollar] unit := by
  simp only [startsExpansion, Bool.or_eq_false_iff,
    decide_eq_false_iff_not] at hunit
  simp [advance, hunit.1.1, hunit.1.2, hunit.2]

theorem expand_eq_self (parameters : Text → Text) {source : Text}
    (hplain : isPlain source = true) :
    expand parameters .plain source = some source ∧
      (source.head?.any startsExpansion = false →
        expand parameters .dollar source = some (dollar :: source)) := by
  induction source with
  | nil => exact ⟨rfl, fun _ => rfl⟩
  | cons unit rest ih =>
      simp only [isPlain, Bool.and_eq_true, decide_eq_true_eq] at hplain
      rcases hplain with ⟨⟨hunit, hsign⟩, hrest⟩
      have hothers := ih hrest
      have htick : unit ≠ backtick := by
        intro hsame
        rw [hsame] at hunit
        exact hunit (by decide)
      have hread : ∀ before, (do
          let (next, read) ← plainUnit before unit
          let later ← expand parameters next rest
          return read ++ later) = some (before ++ unit :: rest) := by
        intro before
        by_cases hdollar : unit = dollar
        · have hhead : rest.head?.any startsExpansion = false := by
            simpa [hdollar] using hsign
          simp [plainUnit, hdollar, hothers.2 hhead]
        · simp [plainUnit, hdollar, htick, hothers.1]
      constructor
      · exact hread []
      · intro hhead
        unfold expand
        rw [advance_dollar hhead]
        exact hread [dollar]

/-- What is read is no longer than the text, and as long only where nothing
in the text means something else. -/
def NoLonger (source value : Text) : Inside → Prop
  | .plain => value.length ≤ source.length ∧
      (value.length = source.length → isPlain source = true)
  | .dollar => value.length ≤ source.length + 1 ∧
      (value.length = source.length + 1 → isPlain source = true ∧
        source.head?.any startsExpansion = false)
  | _ => value.length ≤ source.length

theorem noLonger_expand {source value : Text} {inside : Inside}
    (hquote : doubleQuote ∉ source) (hbackslash : backslash ∉ source)
    (hexpand : expand (fun _ => []) inside source = some value) :
    NoLonger source value inside := by
  induction source generalizing inside value with
  | nil =>
      cases hexpand
      cases inside <;> simp [NoLonger, ending, isPlain]
  | cons unit rest ih =>
      rw [List.mem_cons, not_or] at hquote hbackslash
      have hothers : ∀ {next later}, expand (fun _ => []) next rest =
          some later → NoLonger rest later next := ih hquote.2 hbackslash.2
      have hplain : ∀ before next read later,
          plainUnit before unit = some (next, read) →
          expand (fun _ => []) next rest = some later →
          (read ++ later).length ≤ before.length + (rest.length + 1) ∧
            ((read ++ later).length = before.length + (rest.length + 1) →
              isPlain (unit :: rest) = true) := by
        intro before next read later hunit hlater
        rcases plainUnit_eq_some.mp hunit with
          ⟨hdollar, rfl, rfl⟩ | ⟨hdollar, htick, rfl, rfl⟩
        · have hrest := hothers hlater
          unfold NoLonger at hrest
          rw [List.length_append]
          constructor
          · omega
          · intro hlength
            have hkept := hrest.2 (by omega)
            have hother : dollar ∉ text "\"\\`" := by decide
            simp [isPlain, hdollar, hkept.1, hkept.2, hother]
        · have hrest := hothers hlater
          unfold NoLonger at hrest
          simp only [List.length_append, List.length_singleton]
          constructor
          · omega
          · intro hlength
            have hkept := hrest.2 (by omega)
            have hother : unit ∉ text "\"\\`" := by
              have hthree : text "\"\\`" = [doubleQuote, backslash, backtick] :=
                rfl
              simp [hthree, Ne.symm hquote.1, Ne.symm hbackslash.1, htick]
            simp [isPlain, hdollar, hkept, hother]
      unfold expand at hexpand
      rcases Option.bind_eq_some_iff.mp hexpand with
        ⟨⟨next, read⟩, hadvance, hrest⟩
      rcases Option.bind_eq_some_iff.mp hrest with ⟨later, hlater, hsame⟩
      cases hsame
      cases inside with
      | plain => simpa [NoLonger] using hplain [] next read later hadvance hlater
      | escaped => cases hadvance
      | dollar =>
          unfold advance at hadvance
          dsimp only at hadvance
          split_ifs at hadvance with hletter hspecial hnested
          · cases hadvance
            have hshort : later.length ≤ rest.length := hothers hlater
            simp only [NoLonger, List.nil_append, List.length_cons]
            omega
          · cases hadvance
            have hshort : later.length ≤ rest.length := (hothers hlater).1
            simp only [NoLonger, List.nil_append, List.length_cons]
            omega
          · have hboth := hplain [dollar] next read later hadvance hlater
            have hhead : startsExpansion unit = false := by
              simp [startsExpansion, hletter, hspecial, hnested]
            simp only [List.length_singleton] at hboth
            constructor
            · rw [List.length_cons]
              omega
            · intro hlength
              rw [List.length_cons] at hlength
              exact ⟨hboth.2 (by omega), hhead⟩
      | name name =>
          unfold advance at hadvance
          dsimp only at hadvance
          split_ifs at hadvance with hname
          · cases hadvance
            have hshort : later.length ≤ rest.length := hothers hlater
            simp only [NoLonger, List.nil_append, List.length_cons]
            omega
          · simpa [NoLonger] using
              (hplain [] next read later hadvance hlater).1

/-- A text is read as itself whatever the parameters are just if nothing in
it means something else. -/
theorem expand_eq_self_iff {source : Text} (hquote : doubleQuote ∉ source)
    (hbackslash : backslash ∉ source) :
    (∀ parameters, expand parameters .plain source = some source) ↔
      isPlain source = true := by
  constructor
  · intro hexpand
    exact (noLonger_expand hquote hbackslash (hexpand fun _ => [])).2 rfl
  · intro hplain parameters
    exact (expand_eq_self parameters hplain).1

end QuotedCommands
