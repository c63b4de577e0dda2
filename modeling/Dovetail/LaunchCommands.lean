import Dovetail.KeyFiles

/-!
# Commands of desktop entries

The command line of a desktop entry is split into arguments, quoted as a whole
or not at all, and the field codes in them stand for what the launcher knows.
A word in which nothing is reserved is the only one of its line, and it stands
for itself where its field codes do.
-/

namespace LaunchCommand

open CodeUnits KeyFile

def blank : UInt16 := 32

def doubleQuote : UInt16 := 34

def percent : UInt16 := 37

def slash : UInt16 := 47

/-- What an argument without quotes cannot have in it. -/
def isReserved (unit : UInt16) : Bool :=
  unit ∈ text " \t\n\"'\\><~|&;$*?#()`"

structure Argument where
  units : Text
  quoted : Bool
  deriving DecidableEq

/-! ## Splitting -/

inductive Mode where
  | between
  | plain (units : Text)
  | quoted (units : Text)
  | escaped (units : Text)
  | closed

def split : Mode → Text → Option (List Argument)
  | .between, [] => some []
  | .plain units, [] => some [⟨units, false⟩]
  | .quoted _, [] => none
  | .escaped _, [] => none
  | .closed, [] => some []
  | .between, unit :: rest =>
      if unit = blank then split .between rest
      else if unit = doubleQuote then split (.quoted []) rest
      else if isReserved unit then none
      else split (.plain [unit]) rest
  | .plain units, unit :: rest =>
      if unit = blank then (split .between rest).map (⟨units, false⟩ :: ·)
      else if isReserved unit then none
      else split (.plain (units ++ [unit])) rest
  | .quoted units, unit :: rest =>
      if unit = doubleQuote then
        (split .closed rest).map (⟨units, true⟩ :: ·)
      else if unit = backslash then split (.escaped units) rest
      else if unit ∈ text "`$" then none
      else split (.quoted (units ++ [unit])) rest
  | .escaped units, unit :: rest =>
      if unit ∈ text "\"`$\\" then split (.quoted (units ++ [unit])) rest
      else none
  | .closed, unit :: rest =>
      if unit = blank then split .between rest else none

/-! ## Field codes -/

/-- What a launcher knows when it starts an entry. -/
structure Launch where
  name : Text
  icon : Text
  location : Text
  files : List Text

/-- Codes that are left out. -/
def isDeprecated (code : UInt16) : Bool := code ∈ text "dDnNvm"

/-- Codes that stand for files; only one of them may be in a line. -/
def isFileCode (code : UInt16) : Bool := code ∈ text "fFuU"

/-- What a code in an argument stands for; those of lists are not in one. -/
def codeIn (launch : Launch) (code : UInt16) : Option Text :=
  if code = percent then some [percent]
  else if code = 99 then some launch.name
  else if code = 107 then some launch.location
  else if code = 102 ∨ code = 117 then some (launch.files.headD [])
  else if isDeprecated code then some []
  else none

def expandWith (codeOf : UInt16 → Option Text) : Text → Option Text
  | [] => some []
  | unit :: rest =>
      if unit = percent then
        match rest with
        | [] => none
        | code :: rest => do
            let value ← codeOf code
            let later ← expandWith codeOf rest
            return value ++ later
      else (expandWith codeOf rest).map (unit :: ·)

/-- In a quoted argument a percent sign stands for nothing but itself. -/
def codeInQuotes (code : UInt16) : Option Text :=
  if code = percent then some [percent] else none

def iconWords (launch : Launch) : List Text :=
  if launch.icon = [] then [] else [text "--icon", launch.icon]

/-- An argument that nothing is left of is none. -/
def expandArgument (launch : Launch) (argument : Argument) :
    Option (List Text) :=
  if argument.quoted then
    (expandWith codeInQuotes argument.units).map ([·])
  else if argument.units = text "%F" ∨ argument.units = text "%U" then
    some launch.files
  else if argument.units = text "%i" then some (iconWords launch)
  else (expandWith (codeIn launch) argument.units).map fun word =>
    if word = [] then [] else [word]

def fileCodes : Text → Nat
  | [] => 0
  | unit :: rest =>
      if unit = percent then
        match rest with
        | [] => 0
        | code :: rest => fileCodes rest + if isFileCode code then 1 else 0
      else fileCodes rest

/-- The name of a program has no equals sign. -/
def isProgram (words : List Text) : Bool :=
  words.head?.all fun program => equals ∉ program

/-- The words of a command line, where it is one. -/
def wordsOf (launch : Launch) (line : Text) : Option (List Text) := do
  let arguments ← split .between line
  let words ← (arguments.mapM (expandArgument launch)).map List.flatten
  if (arguments.map fun argument => fileCodes argument.units).sum ≤ 1 ∧
      isProgram words then
    some words
  else none

/-- What the value of a key starts. -/
def command (launch : Launch) (value : Text) : Option (List Text) :=
  (KeyFile.string value).bind (wordsOf launch)

/-- What a code stands for whatever else the launcher knows. -/
def ownCode (name : Text) (code : UInt16) : Option Text :=
  if code = percent then some [percent]
  else if code = 99 then some name
  else if isDeprecated code then some []
  else none

/-- The units of a word that needs no quotes. -/
def isWordUnit (unit : UInt16) : Bool :=
  isPrintable unit && !isReserved unit && unit != equals

structure IsWord (word : Text) : Prop where
  filled : word ≠ []
  units : ∀ unit ∈ word, isWordUnit unit = true

/-! ## Codes in arguments -/

section

variable {codeOf : UInt16 → Option Text}

theorem expandWith_cons {unit : UInt16} (hunit : unit ≠ percent)
    (rest : Text) :
    expandWith codeOf (unit :: rest) =
      (expandWith codeOf rest).map (unit :: ·) := by
  rw [expandWith.eq_def]
  simp only [if_neg hunit]

theorem expandWith_append {before : Text} (hbefore : percent ∉ before)
    (after : Text) :
    expandWith codeOf (before ++ after) =
      (expandWith codeOf after).map (before ++ ·) := by
  induction before with
  | nil => simp
  | cons unit rest ih =>
      rw [List.mem_cons, not_or] at hbefore
      rw [List.cons_append, expandWith_cons (Ne.symm hbefore.1),
        ih hbefore.2, Option.map_map]
      rfl

/-- A unit that is no code ends what is before it. -/
theorem expandWith_append_cons {unit : UInt16} (hunit : unit ≠ percent)
    (hcode : codeOf unit = none) (before after : Text) :
    expandWith codeOf (before ++ unit :: after) =
      (expandWith codeOf before).bind fun first =>
        (expandWith codeOf after).map fun later =>
          first ++ unit :: later := by
  fun_induction expandWith codeOf before with
  | case1 =>
      rw [List.nil_append, expandWith_cons hunit]
      rfl
  | case2 =>
      rw [List.cons_append, List.nil_append, expandWith.eq_def]
      simp [hcode]
  | case3 code rest ih =>
      rw [List.cons_append, List.cons_append, expandWith.eq_def]
      simp only [if_true, ih]
      cases codeOf code with
      | none => rfl
      | some value =>
          cases expandWith codeOf rest with
          | none => rfl
          | some first => cases expandWith codeOf after <;> simp
  | case4 other rest hother ih =>
      rw [List.cons_append, expandWith_cons hother, ih]
      cases expandWith codeOf rest with
      | none => rfl
      | some first => cases expandWith codeOf after <;> simp

theorem expandWith_mono {more : UInt16 → Option Text}
    (hcodes : ∀ code value, codeOf code = some value →
      more code = some value) {source word : Text}
    (hword : expandWith codeOf source = some word) :
    expandWith more source = some word := by
  fun_induction expandWith codeOf source generalizing word with
  | case1 => exact hword
  | case2 => cases hword
  | case3 code rest ih =>
      rcases Option.bind_eq_some_iff.mp hword with ⟨value, hvalue, hrest⟩
      rcases Option.bind_eq_some_iff.mp hrest with ⟨later, hlater, hsame⟩
      rw [expandWith.eq_def]
      simp only [if_true, hcodes code value hvalue, ih hlater]
      exact hsame
  | case4 unit rest hunit ih =>
      rcases Option.map_eq_some_iff.mp hword with ⟨later, hlater, rfl⟩
      rw [expandWith_cons hunit, ih hlater]
      rfl

theorem forall_mem_expandWith {P : UInt16 → Prop}
    (hcodes : ∀ code value, codeOf code = some value → ∀ unit ∈ value,
      P unit) {source word : Text} (hsource : ∀ unit ∈ source, P unit)
    (hword : expandWith codeOf source = some word) :
    ∀ unit ∈ word, P unit := by
  fun_induction expandWith codeOf source generalizing word with
  | case1 =>
      cases hword
      simp
  | case2 => cases hword
  | case3 code rest ih =>
      rcases Option.bind_eq_some_iff.mp hword with ⟨value, hvalue, hrest⟩
      rcases Option.bind_eq_some_iff.mp hrest with ⟨later, hlater, hsame⟩
      cases hsame
      rw [List.forall_mem_append]
      constructor
      · exact hcodes code value hvalue
      · exact ih (fun unit hunit => hsource unit (by simp [hunit])) hlater
  | case4 unit rest hunit ih =>
      rcases Option.map_eq_some_iff.mp hword with ⟨later, hlater, rfl⟩
      rw [List.forall_mem_cons] at hsource ⊢
      exact ⟨hsource.1, ih hsource.2 hlater⟩

/-- A unit that is no code is still there. -/
theorem mem_expandWith {unit : UInt16} (hunit : unit ≠ percent)
    (hcode : codeOf unit = none) {source word : Text}
    (hsource : unit ∈ source) (hword : expandWith codeOf source = some word) :
    unit ∈ word := by
  rcases List.append_of_mem hsource with ⟨before, after, rfl⟩
  rw [expandWith_append_cons hunit hcode] at hword
  rcases Option.bind_eq_some_iff.mp hword with ⟨first, hfirst, hrest⟩
  rcases Option.map_eq_some_iff.mp hrest with ⟨later, hlater, rfl⟩
  simp

/-- Two launches that know more and less agree only on codes that depend on
neither. -/
theorem expandWith_of_agree {fewer more : UInt16 → Option Text}
    (hcodes : ∀ code first second, fewer code = some first →
      more code = some second → first.length ≤ second.length ∧
        (first.length = second.length → codeOf code = some first))
    {source first second : Text}
    (hfirst : expandWith fewer source = some first)
    (hsecond : expandWith more source = some second) :
    first.length ≤ second.length ∧
      (first.length = second.length →
        expandWith codeOf source = some first) := by
  fun_induction expandWith fewer source generalizing first second with
  | case1 =>
      cases hfirst
      exact ⟨Nat.zero_le _, fun _ => rfl⟩
  | case2 => cases hfirst
  | case3 code rest ih =>
      rw [expandWith.eq_def] at hsecond
      simp only [if_true] at hsecond
      rcases Option.bind_eq_some_iff.mp hfirst with ⟨value, hvalue, hrest⟩
      rcases Option.bind_eq_some_iff.mp hrest with ⟨later, hlater, hsame⟩
      rcases Option.bind_eq_some_iff.mp hsecond with
        ⟨other, hother, hothers⟩
      rcases Option.bind_eq_some_iff.mp hothers with
        ⟨behind, hbehind, hsecond⟩
      cases hsame
      cases hsecond
      have hown := hcodes code value other hvalue hother
      have hthen := ih hlater hbehind
      simp only [List.length_append]
      constructor
      · omega
      · intro hlength
        rw [expandWith.eq_def]
        simp only [if_true, hown.2 (by omega), hthen.2 (by omega)]
        rfl
  | case4 unit rest hunit ih =>
      rw [expandWith_cons hunit] at hsecond
      rcases Option.map_eq_some_iff.mp hfirst with ⟨later, hlater, rfl⟩
      rcases Option.map_eq_some_iff.mp hsecond with ⟨other, hother, rfl⟩
      have hthen := ih hlater hother
      simp only [List.length_cons]
      constructor
      · omega
      · intro hlength
        rw [expandWith_cons hunit, hthen.2 (by omega)]
        rfl

end

theorem codeIn_of_ownCode {launch : Launch} {code : UInt16} {value : Text}
    (hvalue : ownCode launch.name code = some value) :
    codeIn launch code = some value := by
  unfold ownCode at hvalue
  unfold codeIn
  split_ifs at hvalue with hpercent hname hdeprecated
  · simpa [hpercent] using hvalue
  · simpa [hname, percent] using hvalue
  · have hother : code ≠ 107 ∧ code ≠ 102 ∧ code ≠ 117 := by
      refine ⟨?_, ?_, ?_⟩ <;>
      · rintro rfl
        exact absurd hdeprecated (by decide)
    simpa [hpercent, hname, hother, hdeprecated] using hvalue

theorem fileCodes_eq_zero {name source word : Text}
    (hword : expandWith (ownCode name) source = some word) :
    fileCodes source = 0 := by
  fun_induction expandWith (ownCode name) source generalizing word with
  | case1 => rfl
  | case2 => cases hword
  | case3 code rest ih =>
      rcases Option.bind_eq_some_iff.mp hword with ⟨value, hvalue, hrest⟩
      rcases Option.bind_eq_some_iff.mp hrest with ⟨later, hlater, hsame⟩
      have hcode : isFileCode code = false := by
        rw [Bool.eq_false_iff]
        intro hfile
        have hletters : text "fFuU" = [102, 70, 117, 85] := rfl
        have hcases : code = 102 ∨ code = 70 ∨ code = 117 ∨ code = 85 := by
          simpa [isFileCode, hletters] using hfile
        rcases hcases with rfl | rfl | rfl | rfl <;> cases hvalue
      rw [fileCodes.eq_def]
      simp [hcode, ih hlater]
  | case4 unit rest hunit ih =>
      rcases Option.map_eq_some_iff.mp hword with ⟨later, hlater, rfl⟩
      rw [fileCodes.eq_def]
      simp [hunit, ih hlater]

/-! ## Arguments -/

namespace Mode

/-- What is read of the argument. -/
def units : Mode → Text
  | .plain units => units
  | .quoted units => units
  | .escaped units => units
  | _ => []

end Mode

/-- An argument without quotes goes up to a blank or to the end. -/
theorem split_plain {units source : Text} {arguments : List Argument}
    (hsplit : split (.plain units) source = some arguments) :
    (∃ before after others, source = before ++ blank :: after ∧
      (∀ unit ∈ before, isReserved unit = false) ∧
      split .between after = some others ∧
      arguments = ⟨units ++ before, false⟩ :: others) ∨
    (∀ unit ∈ source, isReserved unit = false) ∧
      arguments = [⟨units ++ source, false⟩] := by
  induction source generalizing units with
  | nil =>
      cases hsplit
      exact Or.inr (by simp)
  | cons unit rest ih =>
      unfold split at hsplit
      split_ifs at hsplit with hblank hreserved
      · rcases Option.map_eq_some_iff.mp hsplit with ⟨others, hothers, rfl⟩
        refine Or.inl ⟨[], rest, others, ?_, by simp, hothers, by simp⟩
        rw [hblank]
        rfl
      · have hunit : isReserved unit = false := by simpa using hreserved
        rcases ih hsplit with
          ⟨before, after, others, rfl, hbefore, hothers, rfl⟩ |
            ⟨hrest, rfl⟩
        · refine Or.inl ⟨unit :: before, after, others, rfl, ?_, hothers, ?_⟩
          · exact List.forall_mem_cons.mpr ⟨hunit, hbefore⟩
          · simp
        · refine Or.inr ⟨?_, ?_⟩
          · exact List.forall_mem_cons.mpr ⟨hunit, hrest⟩
          · simp

theorem isReserved_blank : isReserved blank = true := by decide

theorem split_plain_self {units source : Text}
    (hsource : ∀ unit ∈ source, isReserved unit = false) :
    split (.plain units) source = some [⟨units ++ source, false⟩] := by
  induction source generalizing units with
  | nil => simp [split]
  | cons unit rest ih =>
      rw [List.forall_mem_cons] at hsource
      have hblank : unit ≠ blank := by
        rintro rfl
        rw [isReserved_blank] at hsource
        exact absurd hsource.1 (by simp)
      unfold split
      rw [if_neg hblank, hsource.1, ih hsource.2]
      simp

theorem split_self {word : Text} (hfilled : word ≠ [])
    (hword : ∀ unit ∈ word, isReserved unit = false) :
    split .between word = some [⟨word, false⟩] := by
  rcases List.exists_cons_of_ne_nil hfilled with ⟨unit, rest, rfl⟩
  rw [List.forall_mem_cons] at hword
  have hblank : unit ≠ blank := by
    rintro rfl
    rw [isReserved_blank] at hword
    exact absurd hword.1 (by simp)
  have hquote : unit ≠ doubleQuote := by
    rintro rfl
    exact absurd hword.1 (by decide)
  unfold split
  rw [if_neg hblank, if_neg hquote, hword.1, if_neg Bool.false_ne_true,
    split_plain_self hword.2]
  rfl

/-- No unit is lost that is neither a blank nor a sign of quoting. -/
theorem exists_argument {unit : UInt16} (hblank : unit ≠ blank)
    (hquote : unit ≠ doubleQuote) (hbackslash : unit ≠ backslash)
    {mode : Mode} {source : Text} {arguments : List Argument}
    (hsplit : split mode source = some arguments)
    (hunit : unit ∈ mode.units ++ source) :
    ∃ argument ∈ arguments, unit ∈ argument.units := by
  fun_induction split mode source generalizing arguments with
  | case1 => simp [Mode.units] at hunit
  | case2 units =>
      cases hsplit
      exact ⟨_, List.mem_singleton_self _, by simpa [Mode.units] using hunit⟩
  | case3 => cases hsplit
  | case4 => cases hsplit
  | case5 => simp [Mode.units] at hunit
  | case6 rest ih =>
      apply ih hsplit
      simpa [Mode.units, hblank] using hunit
  | case7 rest hnot ih =>
      apply ih hsplit
      simpa [Mode.units, hquote] using hunit
  | case8 => cases hsplit
  | case9 first rest _ _ _ ih =>
      apply ih hsplit
      simpa [Mode.units] using hunit
  | case10 units rest ih =>
      rcases Option.map_eq_some_iff.mp hsplit with ⟨others, hothers, rfl⟩
      have hcases : unit ∈ units ∨ unit ∈ rest := by
        simpa [Mode.units, hblank] using hunit
      rcases hcases with hmem | hmem
      · exact ⟨_, List.mem_cons_self, hmem⟩
      · rcases ih hothers (by simpa [Mode.units] using hmem) with
          ⟨argument, hargument, hin⟩
        exact ⟨argument, List.mem_cons_of_mem _ hargument, hin⟩
  | case11 => cases hsplit
  | case12 units first rest _ _ ih =>
      apply ih hsplit
      simpa [Mode.units] using hunit
  | case13 units rest ih =>
      rcases Option.map_eq_some_iff.mp hsplit with ⟨others, hothers, rfl⟩
      have hcases : unit ∈ units ∨ unit ∈ rest := by
        simpa [Mode.units, hquote] using hunit
      rcases hcases with hmem | hmem
      · exact ⟨_, List.mem_cons_self, hmem⟩
      · rcases ih hothers (by simpa [Mode.units] using hmem) with
          ⟨argument, hargument, hin⟩
        exact ⟨argument, List.mem_cons_of_mem _ hargument, hin⟩
  | case14 units rest _ ih =>
      apply ih hsplit
      simpa [Mode.units, hbackslash] using hunit
  | case15 => cases hsplit
  | case16 units first rest _ _ _ ih =>
      apply ih hsplit
      simpa [Mode.units] using hunit
  | case17 units first rest _ ih =>
      apply ih hsplit
      simpa [Mode.units] using hunit
  | case18 => cases hsplit
  | case19 rest ih =>
      apply ih hsplit
      simpa [Mode.units, hblank] using hunit
  | case20 => cases hsplit

/-- A slash is no code, and no argument with one is left out. -/
theorem expandArgument_ne_nil {launch : Launch} {argument : Argument}
    {words : List Text} (hslash : slash ∈ argument.units)
    (hwords : expandArgument launch argument = some words) : words ≠ [] := by
  have hcode : codeIn launch slash = none := rfl
  unfold expandArgument at hwords
  split_ifs at hwords with hquoted hlist hicon
  · rcases Option.map_eq_some_iff.mp hwords with ⟨word, hword, rfl⟩
    simp
  · rcases hlist with hlist | hlist
    · rw [hlist] at hslash
      exact absurd hslash (by decide)
    · rw [hlist] at hslash
      exact absurd hslash (by decide)
  · rw [hicon] at hslash
    exact absurd hslash (by decide)
  · rcases Option.map_eq_some_iff.mp hwords with ⟨word, hword, rfl⟩
    have hmem := mem_expandWith (by decide) hcode hslash hword
    rw [if_neg (List.ne_nil_of_mem hmem)]
    simp

theorem slash_not_mem {launch : Launch} {arguments : List Argument}
    {found : List (List Text)}
    (hfound : arguments.mapM (expandArgument launch) = some found)
    (hnothing : found.flatten = []) :
    ∀ argument ∈ arguments, slash ∉ argument.units := by
  induction arguments generalizing found with
  | nil => simp
  | cons argument others ih =>
      rw [List.mapM_cons] at hfound
      rcases Option.bind_eq_some_iff.mp hfound with ⟨words, hwords, hrest⟩
      rcases Option.bind_eq_some_iff.mp hrest with ⟨later, hlater, hsame⟩
      cases hsame
      rw [List.flatten_cons, List.append_eq_nil_iff] at hnothing
      rw [List.forall_mem_cons]
      constructor
      · intro hslash
        exact expandArgument_ne_nil hslash hwords hnothing.1
      · exact ih hlater hnothing.2

theorem expandArgument_plain {launch : Launch} {unit : UInt16}
    (hunit : unit ≠ percent) (rest : Text) :
    expandArgument launch ⟨unit :: rest, false⟩ =
      (expandWith (codeIn launch) (unit :: rest)).map ([·]) := by
  have hlists : text "%F" = [percent, 70] ∧ text "%U" = [percent, 85] ∧
      text "%i" = [percent, 105] := ⟨rfl, rfl, rfl⟩
  unfold expandArgument
  simp only [Bool.false_eq_true, if_false, hlists.1, hlists.2.1, hlists.2.2,
    List.cons.injEq, hunit, false_and, or_self, expandWith_cons hunit]
  cases expandWith (codeIn launch) rest <;> simp

theorem expandArgument_self {launch : Launch} {word : Text}
    (hfilled : word ≠ [])
    (hcodes : expandWith (ownCode launch.name) word = some word) :
    expandArgument launch ⟨word, false⟩ = some [word] := by
  have hnot (units : Text)
      (hunits : expandWith (ownCode launch.name) units = none) :
      word ≠ units := by
    rintro rfl
    rw [hunits] at hcodes
    cases hcodes
  have hexpand := expandWith_mono (fun _ _ => codeIn_of_ownCode) hcodes
  unfold expandArgument
  rw [if_neg Bool.false_ne_true, if_neg, if_neg (hnot _ rfl), hexpand,
    Option.map_some, if_neg hfilled]
  rintro (hsame | hsame)
  · exact hnot _ rfl hsame
  · exact hnot _ rfl hsame

/-! ## Lines of one word -/

theorem isWordUnit_iff {unit : UInt16} :
    isWordUnit unit = true ↔ isPrintable unit = true ∧
      isReserved unit = false ∧ unit ≠ equals := by
  simp [isWordUnit, and_assoc]

theorem IsWord.not_reserved {word : Text} (hword : IsWord word) :
    ∀ unit ∈ word, isReserved unit = false :=
  fun unit hunit => (isWordUnit_iff.mp (hword.units unit hunit)).2.1

/-- A unit that is reserved is in no word. -/
theorem IsWord.not_mem {word : Text} (hword : IsWord word) {unit : UInt16}
    (hunit : isReserved unit = true) : unit ∉ word := by
  intro hmem
  rw [hword.not_reserved unit hmem] at hunit
  cases hunit

theorem IsWord.isPlain {word : Text} (hword : IsWord word) :
    IsPlain word where
  single := hword.not_mem (by decide)
  literal := hword.not_mem (by decide)
  begins unit hunit := by
    have hmem := List.mem_of_head? hunit
    have hother := hword.not_reserved unit hmem
    rw [Bool.eq_false_iff]
    intro hblank
    have hcases : unit = 32 ∨ unit = 9 := by
      simpa [isBlank, Decidable.or_iff_not_imp_left] using hblank
    rcases hcases with rfl | rfl
    · exact absurd hother (by decide)
    · exact absurd hother (by decide)

theorem IsWord.string {word : Text} (hword : IsWord word) :
    KeyFile.string word = some word := by
  have hall : word.all isPrintable = true := by
    apply List.all_eq_true.mpr
    intro unit hunit
    exact (isWordUnit_iff.mp (hword.units unit hunit)).1
  unfold KeyFile.string
  rw [if_pos hall]
  exact unescape_eq_self hword.isPlain.literal

/-- A word whose codes stand for themselves is all that is started. -/
theorem command_self {launch : Launch} {word : Text} (hword : IsWord word)
    (hcodes : expandWith (ownCode launch.name) word = some word) :
    command launch word = some [word] := by
  have hprogram : isProgram [word] = true := by
    have hequals : equals ∉ word := by
      intro hmem
      exact (isWordUnit_iff.mp (hword.units _ hmem)).2.2 rfl
    simpa [isProgram] using hequals
  unfold command wordsOf
  rw [hword.string, Option.bind_some,
    split_self hword.filled hword.not_reserved]
  simp [expandArgument_self hword.filled hcodes, fileCodes_eq_zero hcodes,
    hprogram]

/-- The first argument is the only one that something is left of. -/
theorem started {launch : Launch} {first : UInt16}
    (hpercent : first ≠ percent) {units word : Text}
    {others : List Argument} {found : List (List Text)}
    (hfound : (⟨first :: units, false⟩ :: others).mapM
      (expandArgument launch) = some found)
    (hword : found.flatten = [word]) :
    expandWith (codeIn launch) (first :: units) = some word ∧
      ∃ later, others.mapM (expandArgument launch) = some later ∧
        later.flatten = [] := by
  rw [List.mapM_cons, expandArgument_plain hpercent] at hfound
  rcases Option.bind_eq_some_iff.mp hfound with ⟨words, hwords, hrest⟩
  rcases Option.bind_eq_some_iff.mp hrest with ⟨later, hlater, hsame⟩
  rcases Option.map_eq_some_iff.mp hwords with ⟨own, hown, rfl⟩
  cases hsame
  rw [List.flatten_cons, List.singleton_append, List.cons.injEq] at hword
  exact ⟨hword.1 ▸ hown, later, hlater, hword.2⟩

/-- What a line of one word consists of, where it begins plainly. -/
theorem command_eq_singleton {launch : Launch} {first : UInt16}
    {rest word : Text} (hfirst : isReserved first = false)
    (hpercent : first ≠ percent) (hcommand : command launch (first :: rest) = some [word]) :
    isPrintable first = true ∧ (∀ unit ∈ rest, isPrintable unit = true) ∧
      equals ∉ word ∧ ∃ meant before, unescape rest = some meant ∧
        (∀ unit ∈ before, isReserved unit = false) ∧
        expandWith (codeIn launch) (first :: before) = some word ∧
        (meant = before ∨ ∃ after, meant = before ++ blank :: after ∧
          slash ∉ after) := by
  have hother {unit : UInt16} (hunit : isReserved unit = true) :
      first ≠ unit := by
    rintro rfl
    rw [hfirst] at hunit
    cases hunit
  rcases Option.bind_eq_some_iff.mp hcommand with ⟨line, hline, hwords⟩
  unfold KeyFile.string at hline
  split_ifs at hline with hprintable
  unfold unescape at hline
  rw [if_neg (hother (by decide))] at hline
  rcases Option.map_eq_some_iff.mp hline with ⟨meant, hmeant, rfl⟩
  rcases Option.bind_eq_some_iff.mp hwords with ⟨arguments, hsplit, hrest⟩
  rcases Option.bind_eq_some_iff.mp hrest with ⟨words, hexpand, hchecked⟩
  split_ifs at hchecked with hchecks
  cases hchecked
  rcases Option.map_eq_some_iff.mp hexpand with ⟨found, hfound, hflat⟩
  unfold split at hsplit
  rw [if_neg (hother isReserved_blank), if_neg (hother (by decide)),
    if_neg (by simp [hfirst])] at hsplit
  rw [List.all_cons, Bool.and_eq_true, List.all_eq_true] at hprintable
  have hequals : equals ∉ word := by
    simpa [isProgram] using hchecks.2
  refine ⟨hprintable.1, hprintable.2, hequals, meant, ?_⟩
  rcases split_plain hsplit with
    ⟨before, after, others, rfl, hbefore, hothers, rfl⟩ | ⟨hplain, rfl⟩
  · rcases started hpercent hfound hflat with ⟨hstarted, later, hlater, hnothing⟩
    refine ⟨before, hmeant, hbefore, hstarted, Or.inr ⟨after, rfl, ?_⟩⟩
    intro hslash
    rcases exists_argument (by decide) (by decide) (by decide) hothers
      (List.mem_append_right _ hslash) with ⟨argument, hmem, hin⟩
    exact slash_not_mem hlater hnothing argument hmem hin
  · rcases started hpercent hfound hflat with ⟨hstarted, -⟩
    exact ⟨meant, hmeant, hplain, hstarted, Or.inl rfl⟩

/-! ## Programs in directories -/

/-- A launch that knows nothing but the name and, maybe, one thing more. -/
def launchOf (name : Text) (more : Text) : Launch where
  name
  icon := []
  location := more
  files := [more]

theorem ownCode_of_agree (name : Text) {unit code : UInt16}
    {first second : Text} (hfirst : codeIn (launchOf name []) code = some first)
    (hsecond : codeIn (launchOf name [unit]) code = some second) :
    first.length ≤ second.length ∧
      (first.length = second.length → ownCode name code = some first) := by
  simp only [codeIn, launchOf, List.headD_cons] at hfirst hsecond
  unfold ownCode
  split_ifs at hfirst hsecond ⊢ <;> cases hfirst <;> cases hsecond <;> simp

section

variable {name directory program : Text}

/-- Nothing that is shown or started has a unit that is reserved. -/
theorem not_mem_of_expandWith {source word : Text} (hname : IsPlain name)
    (hsource : ∀ unit ∈ source, isReserved unit = false)
    (hword : expandWith (codeIn (launchOf name [])) source = some word) :
    newline ∉ word ∧ backslash ∉ word := by
  have hall : ∀ unit ∈ word, unit ≠ newline ∧ unit ≠ backslash := by
    refine forall_mem_expandWith
      (P := fun unit => unit ≠ newline ∧ unit ≠ backslash) ?_ ?_ hword
    · intro code value hvalue
      have hcases : value = [percent] ∨ value = name ∨ value = [] := by
        unfold codeIn at hvalue
        split_ifs at hvalue <;> cases hvalue <;> simp [launchOf]
      rcases hcases with rfl | rfl | rfl
      · decide
      · intro unit hunit
        exact ⟨ne_of_mem_of_not_mem hunit hname.single,
          ne_of_mem_of_not_mem hunit hname.literal⟩
      · simp
    · intro unit hunit
      constructor
      · rintro rfl
        exact absurd (hsource _ hunit) (by decide)
      · rintro rfl
        exact absurd (hsource _ hunit) (by decide)
  exact ⟨fun hmem => (hall _ hmem).1 rfl, fun hmem => (hall _ hmem).2 rfl⟩

/-- Behind the first blank of a path there is still the slash of its last
name. -/
theorem slash_mem_of_path {before after : Text}
    (hdirectory : blank ∉ directory) (hbefore : blank ∉ before)
    (hpath : directory ++ (program ++ slash :: program) =
      before ++ blank :: after) : slash ∈ after := by
  have hmem : blank ∈ program := by
    have hwhole : blank ∈ directory ++ (program ++ slash :: program) := by
      simp [hpath]
    have hslash : blank ≠ slash := by decide
    simp only [List.mem_append, List.mem_cons, hdirectory, hslash,
      false_or, or_self] at hwhole
    exact hwhole
  rcases List.eq_append_cons_of_mem hmem with ⟨start, rest, hprogram, hstart⟩
  have hrest (earlier : Text) (hearlier : blank ∉ earlier) (later : Text) :
      (earlier ++ blank :: later).dropWhile (· != blank) = blank :: later := by
    rw [List.dropWhile_append_of_pos]
    · simp
    · intro unit hunit
      simpa using ne_of_mem_of_not_mem hunit hearlier
  have hsame := congrArg (List.dropWhile (· != blank)) hpath
  have hfirst : directory ++ (program ++ slash :: program) =
      (directory ++ start) ++ blank :: (rest ++ slash :: program) := by
    nth_rewrite 1 [hprogram]
    simp
  rw [hfirst, hrest _ (by simp [hdirectory, hstart]), hrest _ hbefore,
    List.cons.injEq] at hsame
  rw [← hsame.2]
  simp

variable (hdirectory : IsWord directory) (hcodes : percent ∉ directory)

include hdirectory hcodes

theorem exists_first : ∃ first rest, directory = first :: rest ∧
    isReserved first = false ∧ first ≠ percent ∧ isBlank first = false := by
  rcases List.exists_cons_of_ne_nil hdirectory.filled with
    ⟨first, rest, rfl⟩
  refine ⟨first, rest, rfl, ?_, ?_, ?_⟩
  · exact hdirectory.not_reserved first List.mem_cons_self
  · rintro rfl
    exact hcodes List.mem_cons_self
  · exact hdirectory.isPlain.begins first rfl

/-- A path that is started is read as it is written. -/
theorem isPlain_of_command (hname : IsPlain name)
    (hcommand : command (launchOf name [])
      (firstOf (directory ++ (program ++ slash :: program))) =
        some [directory ++ (program ++ slash :: program)]) :
    IsPlain (directory ++ (program ++ slash :: program)) := by
  rcases exists_first hdirectory hcodes with
    ⟨first, rest, hcons, hfirst, hpercent, hblank⟩
  have hline : newline ∉ [first] := by
    rw [List.mem_singleton]
    rintro rfl
    exact absurd hfirst (by decide)
  have hread : firstOf (directory ++ (program ++ slash :: program)) =
      first :: ((rest ++ (program ++ slash :: program)).splitOn
        newline).headD [] := by
    unfold firstOf
    rw [hcons, List.cons_append, ← List.singleton_append,
      splitOn_append_of_not_mem hline, splitOn_eq, List.modifyHead_cons]
    simp [hblank]
  rw [hread] at hcommand
  rcases command_eq_singleton hfirst hpercent hcommand with
    ⟨-, -, -, meant, before, -, hbefore, hword, -⟩
  have hword := not_mem_of_expandWith hname
    (List.forall_mem_cons.mpr ⟨hfirst, hbefore⟩) hword
  constructor
  case single => exact hword.1
  case literal => exact hword.2
  case begins =>
    intro unit hunit
    rw [hcons, List.cons_append, List.head?_cons, Option.some.injEq] at hunit
    rw [← hunit]
    exact hblank

/-- Its line is one argument. -/
theorem expandWith_of_command
    (hpath : IsPlain (directory ++ (program ++ slash :: program)))
    {launch : Launch}
    (hcommand : command launch (directory ++ (program ++ slash :: program)) =
      some [directory ++ (program ++ slash :: program)]) :
    (∀ unit ∈ program, isWordUnit unit = true) ∧
      expandWith (codeIn launch)
          (directory ++ (program ++ slash :: program)) =
        some (directory ++ (program ++ slash :: program)) := by
  rcases exists_first hdirectory hcodes with
    ⟨first, rest, hcons, hfirst, hpercent, -⟩
  have hwhole : directory ++ (program ++ slash :: program) =
      first :: (rest ++ (program ++ slash :: program)) := by
    rw [hcons]
    rfl
  have hliteral := hpath.literal
  rw [hwhole] at hcommand hliteral
  rcases command_eq_singleton hfirst hpercent hcommand with
    ⟨-, hprintable, hequals, meant, before, hmeant, hbefore, hword, hlast⟩
  rw [unescape_eq_self (List.not_mem_of_not_mem_cons hliteral)] at hmeant
  have hmeant := Option.some.inj hmeant
  have hend : meant = before := by
    rcases hlast with hsame | ⟨after, hafter, hslash⟩
    · exact hsame
    · exfalso
      apply hslash
      have hblank : blank ∉ first :: before := by
        intro hblank
        rcases List.mem_cons.mp hblank with hsame | hblank
        · rw [← hsame] at hfirst
          exact absurd hfirst (by decide)
        · exact absurd (hbefore _ hblank) (by decide)
      apply slash_mem_of_path (hdirectory.not_mem isReserved_blank) hblank
      rw [hwhole, hmeant, hafter]
      rfl
  rw [← hend, ← hmeant] at hbefore
  rw [← hend, ← hmeant, ← hwhole] at hword
  constructor
  · intro unit hunit
    apply isWordUnit_iff.mpr
    refine ⟨hprintable unit (by simp [hunit]),
      hbefore unit (by simp [hunit]), ?_⟩
    rintro rfl
    exact hequals (by simp [hunit])
  · exact hword

omit hdirectory in
theorem expandWith_program {codeOf : UInt16 → Option Text}
    (hslash : codeOf slash = none)
    (hword : expandWith codeOf (directory ++ (program ++ slash :: program)) =
      some (directory ++ (program ++ slash :: program))) :
    expandWith codeOf program = some program := by
  rw [expandWith_append hcodes,
    expandWith_append_cons (by decide) hslash] at hword
  rcases Option.map_eq_some_iff.mp hword with ⟨both, hboth, hsame⟩
  rcases Option.bind_eq_some_iff.mp hboth with ⟨own, hown, hlater⟩
  rcases Option.map_eq_some_iff.mp hlater with ⟨later, hagain, rfl⟩
  rw [hown, Option.some.injEq] at hagain
  have hwords := List.append_cancel_left hsame
  rw [← hagain] at hwords
  have hlength := congrArg List.length hwords
  simp only [List.length_append, List.length_cons] at hlength
  rw [hown, (List.append_inj hwords (by omega)).1]

/-- A path is all that is started, however its entry is launched, only where
its last name is a word whose codes stand for themselves. -/
theorem isWord_of_command (hname : IsPlain name)
    (hcommand : ∀ launch : Launch, launch.name = name →
      command launch (firstOf (directory ++ (program ++ slash :: program))) =
        some [directory ++ (program ++ slash :: program)]) :
    (∀ unit ∈ program, isWordUnit unit = true) ∧
      expandWith (ownCode name) program = some program := by
  have hpath := isPlain_of_command hdirectory hcodes hname
    (hcommand (launchOf name []) rfl)
  rw [hpath.firstOf] at hcommand
  have hlaunch (more : Text) := expandWith_of_command hdirectory hcodes hpath
    (hcommand (launchOf name more) rfl)
  constructor
  · exact (hlaunch []).1
  · have hagree := expandWith_of_agree
      (fun code first second => @ownCode_of_agree name 0 code first second)
      (hlaunch []).2 (hlaunch [0]).2
    exact expandWith_program hcodes rfl (hagree.2 rfl)

end

end LaunchCommand
