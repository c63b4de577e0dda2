import Dovetail.UnitFiles

/-!
# Values of unit files

What is made of a value once its line was read: specifiers that are replaced,
words between white space, and command lines with quotes and escapes.  Each
of them leaves a value alone exactly where none of its marks is in it.
-/

namespace UnitFile

open CodeUnits

/-! ## Specifiers -/

def percent : UInt16 := 37

/-- The letters behind a percent sign that stand for something else. -/
def specifiers : Text := text "aAbBCdDEfgGhHiIjJlLmMnNopPqrRsStTuUvVwWyY"

inductive Token where
  | unit (unit : UInt16)
  | specifier (letter : UInt16)
  deriving DecidableEq

def tokens : Text → List Token
  | [] => []
  | [unit] => [.unit unit]
  | unit :: next :: rest =>
      if unit = percent ∧ next = percent then .unit percent :: tokens rest
      else if unit = percent ∧ next ∈ specifiers then
        .specifier next :: tokens rest
      else .unit unit :: tokens (next :: rest)

/-- A percent sign that is not read as one. -/
def Replaced (value : Text) : Prop :=
  ∃ next ∈ percent :: specifiers, [percent, next] <:+: value

theorem length_tokens_le (value : Text) :
    (tokens value).length ≤ value.length := by
  fun_induction tokens value with
  | case1 => simp
  | case2 unit => simp
  | case3 unit next rest hpercent ih =>
      simp only [List.length_cons]
      omega
  | case4 unit next rest hpercent hspecifier ih =>
      simp only [List.length_cons]
      omega
  | case5 unit next rest hpercent hspecifier ih =>
      simp only [List.length_cons] at ih ⊢
      omega

/-- A value stands for itself where no percent sign is replaced. -/
theorem tokens_eq_iff (value : Text) :
    tokens value = value.map Token.unit ↔ ¬ Replaced value := by
  have hpair (unit next other another : UInt16) (rest : Text) :
      [unit, next] <:+: other :: another :: rest ↔
        (unit = other ∧ next = another) ∨
          [unit, next] <:+: another :: rest := by
    rw [List.infix_cons_iff, List.cons_prefix_cons, List.cons_prefix_cons]
    simp
  fun_induction tokens value with
  | case1 => simp [Replaced]
  | case2 unit =>
      simp only [Replaced, true_iff, List.map_cons, List.map_nil]
      rintro ⟨next, -, hoccurs⟩
      have hlength := hoccurs.length_le
      simp at hlength
  | case3 unit next rest hpercent ih =>
      constructor
      · intro hsame
        have hlength := congrArg List.length hsame
        have hle := length_tokens_le rest
        simp only [List.length_cons, List.length_map] at hlength
        omega
      · intro hnot
        exfalso
        apply hnot
        refine ⟨percent, List.mem_cons_self, ?_⟩
        exact (hpair _ _ _ _ _).mpr (Or.inl ⟨hpercent.1.symm, hpercent.2.symm⟩)
  | case4 unit next rest hpercent hspecifier ih =>
      constructor
      · intro hsame
        cases hsame
      · intro hnot
        exfalso
        apply hnot
        refine ⟨next, List.mem_cons_of_mem _ hspecifier.2, ?_⟩
        exact (hpair _ _ _ _ _).mpr (Or.inl ⟨hspecifier.1.symm, rfl⟩)
  | case5 unit next rest hpercent hspecifier ih =>
      have hrest : Token.unit unit :: tokens (next :: rest) =
          (unit :: next :: rest).map Token.unit ↔
            tokens (next :: rest) = (next :: rest).map Token.unit := by
        rw [List.map_cons, List.cons.injEq]
        exact and_iff_right rfl
      apply hrest.trans (ih.trans (not_congr _))
      constructor
      · rintro ⟨other, hother, hoccurs⟩
        exact ⟨other, hother, (hpair _ _ _ _ _).mpr (Or.inr hoccurs)⟩
      · rintro ⟨other, hother, hoccurs⟩
        rcases (hpair _ _ _ _ _).mp hoccurs with ⟨hfirst, rfl⟩ | hrest
        · exfalso
          rcases List.mem_cons.mp hother with hboth | hletter
          · exact hpercent ⟨hfirst.symm, hboth⟩
          · exact hspecifier ⟨hfirst.symm, hletter⟩
        · exact ⟨other, hother, hrest⟩

/-! ## Words -/

def wordsOf (value : Text) : List Text :=
  (value.splitOnP isWhite).filter (· ≠ [])

structure IsWord (word : Text) : Prop where
  filled : word ≠ []
  whole : ∀ unit ∈ word, isWhite unit = false

theorem isWord_of_mem_wordsOf {value word : Text}
    (hword : word ∈ wordsOf value) : IsWord word := by
  rcases List.mem_filter.mp hword with ⟨hpiece, hfilled⟩
  exact ⟨by simpa using hfilled, of_mem_splitOnP hpiece⟩

theorem wordsOf_white (before : Text) {unit : UInt16}
    (hunit : isWhite unit = true) (after : Text) :
    wordsOf (before ++ unit :: after) = wordsOf before ++ wordsOf after := by
  rw [wordsOf, List.splitOnP_append_cons _ _ hunit, List.filter_append]
  rfl

theorem wordsOf_word {word : Text} (hword : IsWord word) :
    wordsOf word = [word] := by
  rw [wordsOf, List.splitOnP_eq_singleton hword.whole]
  simp [hword.filled]

/-- Words with a blank between them. -/
def joined : List Text → Text
  | [] => []
  | [word] => word
  | word :: rest => word ++ blank :: joined rest

/-- Names are read one by one where each of them is a word. -/
theorem wordsOf_joined_iff (names : List Text) :
    wordsOf (joined names) = names ↔ ∀ name ∈ names, IsWord name := by
  constructor
  · intro hsame name hname
    rw [← hsame] at hname
    exact isWord_of_mem_wordsOf hname
  · intro hnames
    fun_induction joined names with
    | case1 => rfl
    | case2 word => exact wordsOf_word (hnames word (by simp))
    | case3 word rest hmore ih =>
        rw [wordsOf_white word (by decide),
          wordsOf_word (hnames word (by simp)),
          ih fun name hname => hnames name (by simp [hname])]
        rfl

/-! ## Command lines -/

inductive Mode where
  | plain
  | escape
  | number (base left value : Nat)

def digit? (base : Nat) (unit : UInt16) : Option Nat :=
  let value :=
    if 48 ≤ unit ∧ unit ≤ 57 then unit.toNat - 48
    else if 65 ≤ unit ∧ unit ≤ 70 then unit.toNat - 55
    else if 97 ≤ unit ∧ unit ≤ 102 then unit.toNat - 87
    else base
  if value < base then some value else none

/-- Escapes of one letter. -/
def escaped? (unit : UInt16) : Option UInt16 :=
  [(97, 7), (98, 8), (102, 12), (110, 10), (114, 13), (116, 9), (118, 11),
    (92, 92), (34, 34), (39, 39), (115, 32), (59, 59)].lookup unit

def character? (value : Nat) : Option Text :=
  if value ≠ 0 ∧ value.isValidChar then some (units (Char.ofNat value))
  else none

/-- The units of a command line, each with whether it was escaped. -/
def unescape : Mode → Text → Option (List (UInt16 × Bool))
  | .plain, [] => some []
  | _, [] => none
  | .plain, unit :: rest =>
      if unit = backslash then unescape .escape rest
      else (unescape .plain rest).map ((unit, false) :: ·)
  | .escape, unit :: rest =>
      if unit = 120 then unescape (.number 16 2 0) rest
      else if unit = 117 then unescape (.number 16 4 0) rest
      else if unit = 85 then unescape (.number 16 8 0) rest
      else
        match digit? 8 unit with
        | some value => unescape (.number 8 2 value) rest
        | none =>
            (escaped? unit).bind fun meant =>
              (unescape .plain rest).map ((meant, true) :: ·)
  | .number base left value, unit :: rest =>
      (digit? base unit).bind fun digit =>
        if left ≤ 1 then
          (character? (base * value + digit)).bind fun character =>
            (unescape .plain rest).map (character.map (·, true) ++ ·)
        else unescape (.number base (left - 1) (base * value + digit)) rest

def isQuote (unit : UInt16) : Bool := unit == 34 || unit == 39

/-- A word, and whether it has neither quotes nor escapes. -/
structure Word where
  text : Text
  bare : Bool
  deriving DecidableEq

namespace Word

def empty : Word := ⟨[], true⟩

def more (word : Word) (unit : UInt16) (marked : Bool) : Word :=
  ⟨word.text ++ [unit], word.bare && !marked⟩

def quoted (word : Word) : Word := { word with bare := false }

/-- A semicolon on its own is between two commands. -/
def separates (word : Word) : Bool := word.bare && word.text == [59]

end Word

/-- The words, with the quote that is open and the word that was started. -/
def wordsFrom :
    Option UInt16 → Option Word → List (UInt16 × Bool) → Option (List Word)
  | none, current, [] => some current.toList
  | some _, _, [] => none
  | none, current, (unit, marked) :: rest =>
      if marked then
        wordsFrom none (some ((current.getD .empty).more unit true)) rest
      else if isWhite unit then
        (wordsFrom none none rest).map (current.toList ++ ·)
      else if isQuote unit then
        wordsFrom (some unit) (some (current.getD .empty).quoted) rest
      else wordsFrom none (some ((current.getD .empty).more unit false)) rest
  | some quote, current, (unit, marked) :: rest =>
      if unit = quote ∧ marked = false then wordsFrom none current rest
      else wordsFrom (some quote)
        (some ((current.getD .empty).more unit true)) rest

def isAbsolute (command : List Text) : Bool :=
  command.head?.any fun program => program.head? == some 47

/-- The commands of a value; the path of each program is absolute. -/
def commandsOf (value : Text) : Option (List (List Text)) :=
  (unescape .plain value).bind fun units =>
    (wordsFrom none none units).bind fun words =>
      let commands := ((words.splitOnP Word.separates).filter (· ≠ [])).map
        (·.map Word.text)
      if commands.all isAbsolute then some commands else none

/-- No mark of the quoting is in the command, and it is one of a program. -/
structure IsCommand (value : Text) : Prop where
  unquoted : ∀ unit ∈ value, isQuote unit = false
  unescaped : backslash ∉ value
  single : [59] ∉ wordsOf value
  absolute : isAbsolute (wordsOf value) = true

/-! ## What a command line is made of -/

def bare (value : Text) : List (UInt16 × Bool) := value.map (·, false)

/-- The units of the words, and one more for each of them. -/
def weight : Bool → List (UInt16 × Bool) → Nat
  | inside, [] => inside.toNat
  | inside, (unit, marked) :: rest =>
      if isWhite unit && !marked then inside.toNat + weight false rest
      else 1 + weight true rest

def size (words : List Text) : Nat :=
  (words.map fun word => word.length + 1).sum

theorem size_cons (word : Text) (rest : List Text) :
    size (word :: rest) = word.length + 1 + size rest := by
  simp [size]

theorem size_append (first second : List Text) :
    size (first ++ second) = size first + size second := by
  simp [size]

theorem wordsOf_of_whole {word : Text}
    (hword : ∀ unit ∈ word, isWhite unit = false) :
    wordsOf word = [word].filter (· ≠ []) := by
  rw [wordsOf, List.splitOnP_eq_singleton hword]

theorem forall_mem_concat {word : Text}
    (hword : ∀ unit ∈ word, isWhite unit = false) {unit : UInt16}
    (hunit : isWhite unit = false) :
    ∀ other ∈ word ++ [unit], isWhite other = false := by
  refine List.forall_mem_append.mpr ⟨hword, ?_⟩
  simpa using hunit

theorem size_wordsOf {word : Text}
    (hword : ∀ unit ∈ word, isWhite unit = false) (value : Text) :
    size (wordsOf (word ++ value)) =
      word.length + weight (!word.isEmpty) (bare value) := by
  induction value generalizing word with
  | nil =>
      rw [List.append_nil, wordsOf_of_whole hword]
      cases word <;> simp [size, bare, weight]
  | cons unit rest ih =>
      cases hunit : isWhite unit with
      | true =>
          have hrest := @ih [] (by simp)
          rw [wordsOf_white word hunit, size_append, wordsOf_of_whole hword]
          rw [List.nil_append] at hrest
          rw [hrest]
          cases word <;> simp [size, bare, weight, hunit]
          omega
      | false =>
          have hrest := ih (forall_mem_concat hword hunit)
          rw [List.append_assoc, List.singleton_append] at hrest
          have hempty : (word ++ [unit]).isEmpty = false := by simp
          rw [hrest, hempty, List.length_append]
          simp [bare, weight, hunit]
          omega

/-! ## Escapes -/

theorem isWhite_cases {unit : UInt16} (hunit : isWhite unit = true) :
    unit ∈ [32, 9, 10, 13] := by
  simp only [isWhite, Bool.or_eq_true, beq_iff_eq] at hunit
  rcases hunit with ((rfl | rfl) | rfl) | rfl <;> decide

theorem not_white_of_digit? {base value : Nat} {unit : UInt16}
    (hdigit : digit? base unit = some value) : isWhite unit = false := by
  by_contra hwhite
  have hmem := isWhite_cases (by simpa using hwhite)
  simp only [List.mem_cons, List.not_mem_nil, or_false] at hmem
  rcases hmem with rfl | rfl | rfl | rfl <;> simp [digit?] at hdigit

theorem not_white_of_escaped? {unit meant : UInt16}
    (hmeant : escaped? unit = some meant) : isWhite unit = false := by
  by_contra hwhite
  have hall : ∀ white ∈ ([32, 9, 10, 13] : List UInt16),
      escaped? white = none := by decide
  rw [hall unit (isWhite_cases (by simpa using hwhite))] at hmeant
  cases hmeant

theorem length_character? {value : Nat} {character : Text}
    (hcharacter : character? value = some character) :
    character.length ≤ 2 := by
  unfold character? at hcharacter
  split_ifs at hcharacter
  cases hcharacter
  unfold units
  split_ifs <;> simp

theorem weight_cons_of_not_white {unit : UInt16}
    (hunit : isWhite unit = false) (inside marked : Bool)
    (rest : List (UInt16 × Bool)) :
    weight inside ((unit, marked) :: rest) = 1 + weight true rest := by
  simp [weight, hunit]

theorem weight_marked (character : Text) (inside : Bool)
    (rest : List (UInt16 × Bool)) :
    weight inside (character.map (·, true) ++ rest) =
      character.length + weight (inside || !character.isEmpty) rest := by
  induction character generalizing inside with
  | nil => simp
  | cons unit others ih =>
      rw [List.map_cons, List.cons_append, weight]
      simp only [Bool.not_true, Bool.and_false, Bool.false_eq_true, if_false,
        ih, Bool.true_or, List.length_cons, List.isEmpty_cons,
        Bool.not_false, Bool.or_true]
      omega

theorem weight_le (inside : Bool) (units : List (UInt16 × Bool)) :
    weight inside units ≤ weight true units := by
  cases units with
  | nil => cases inside <;> simp [weight]
  | cons unit rest =>
      rcases unit with ⟨unit, marked⟩
      cases inside <;> simp only [weight] <;> split_ifs <;> simp

/-- What an escape stands for is shorter than the escape. -/
def Shortens (inside : Bool) (source : Text)
    (units : List (UInt16 × Bool)) : Mode → Prop
  | .plain => weight inside units + (if backslash ∈ source then 1 else 0) ≤
      weight inside (bare source)
  | .escape => weight inside units ≤ weight true (bare source)
  | .number _ left _ => left ≠ 0 →
      weight inside units + left ≤ weight true (bare source) + 2

theorem shortens_unescape {mode : Mode} {source : Text}
    {units : List (UInt16 × Bool)}
    (hunits : unescape mode source = some units) (inside : Bool) :
    Shortens inside source units mode := by
  induction source generalizing mode units inside with
  | nil =>
      cases mode with
      | plain =>
          cases hunits
          simp [Shortens, bare]
      | escape => cases hunits
      | number base left value => cases hunits
  | cons unit rest ih =>
      cases mode with
      | plain =>
          rw [unescape] at hunits
          split_ifs at hunits with hunit
          · have hrest : weight inside units ≤ weight true (bare rest) :=
              ih hunits inside
            have hwhite : isWhite backslash = false := rfl
            rw [Shortens, hunit, if_pos List.mem_cons_self, bare,
              List.map_cons, weight_cons_of_not_white hwhite]
            rw [bare] at hrest
            omega
          · rcases Option.map_eq_some_iff.mp hunits with ⟨others, hothers, rfl⟩
            have hmem : backslash ∈ unit :: rest ↔ backslash ∈ rest := by
              simp [Ne.symm hunit]
            rw [Shortens, bare, List.map_cons, weight, weight]
            simp only [hmem]
            split_ifs with hwhite hbackslash hbackslash
            · have hrest := ih hothers false
              rw [Shortens, if_pos hbackslash, bare] at hrest
              omega
            · have hrest := ih hothers false
              rw [Shortens, if_neg hbackslash, bare] at hrest
              omega
            · have hrest := ih hothers true
              rw [Shortens, if_pos hbackslash, bare] at hrest
              omega
            · have hrest := ih hothers true
              rw [Shortens, if_neg hbackslash, bare] at hrest
              omega
      | escape =>
          have hnumber {base left value : Nat} (hleft : 2 ≤ left)
              (hwhite : isWhite unit = false)
              (hrest : unescape (.number base left value) rest = some units) :
              Shortens inside (unit :: rest) units .escape := by
            have hshort := ih hrest inside (by omega : left ≠ 0)
            rw [Shortens, bare, List.map_cons,
              weight_cons_of_not_white hwhite]
            rw [bare] at hshort
            omega
          rw [unescape] at hunits
          split_ifs at hunits with hx hu hlong
          · exact hnumber (by decide) (by rw [hx]; rfl) hunits
          · exact hnumber (by decide) (by rw [hu]; rfl) hunits
          · exact hnumber (by decide) (by rw [hlong]; rfl) hunits
          · cases hdigit : digit? 8 unit with
            | some value =>
                rw [hdigit] at hunits
                exact hnumber (by decide) (not_white_of_digit? hdigit) hunits
            | none =>
                rw [hdigit] at hunits
                rcases Option.bind_eq_some_iff.mp hunits with
                  ⟨meant, hmeant, hmap⟩
                rcases Option.map_eq_some_iff.mp hmap with
                  ⟨others, hothers, rfl⟩
                have hrest := ih hothers true
                rw [Shortens] at hrest
                rw [Shortens, bare, List.map_cons, weight_cons_of_not_white
                  (not_white_of_escaped? hmeant), weight]
                simp only [Bool.not_true, Bool.and_false,
                  Bool.false_eq_true, if_false]
                rw [bare] at hrest
                omega
      | number base left value =>
          rw [unescape] at hunits
          rcases Option.bind_eq_some_iff.mp hunits with ⟨digit, hdigit, hnext⟩
          have hwhite := not_white_of_digit? hdigit
          intro hleft
          rw [bare, List.map_cons, weight_cons_of_not_white hwhite]
          split_ifs at hnext with hlast
          · rcases Option.bind_eq_some_iff.mp hnext with
              ⟨character, hcharacter, hmap⟩
            rcases Option.map_eq_some_iff.mp hmap with ⟨others, hothers, rfl⟩
            have hlength := length_character? hcharacter
            have hrest := ih hothers true
            have hle := weight_le (inside || !character.isEmpty) others
            rw [Shortens, bare] at hrest
            rw [weight_marked]
            omega
          · have hrest := ih hnext inside (by omega : left - 1 ≠ 0)
            rw [bare] at hrest
            omega

/-! ## Quotes -/

theorem exists_first_word {quote : Option UInt16} {word : Word}
    {units : List (UInt16 × Bool)} {words : List Word}
    (hwords : wordsFrom quote (some word) units = some words) :
    ∃ first others, words = first :: others ∧ word.text <+: first.text := by
  induction units generalizing quote word words with
  | nil =>
      cases quote with
      | none =>
          cases hwords
          exact ⟨word, [], rfl, List.prefix_rfl⟩
      | some unit => cases hwords
  | cons pair rest ih =>
      rcases pair with ⟨unit, marked⟩
      have hmore {quote : Option UInt16} {also : Bool}
          (hrest : wordsFrom quote (some (word.more unit also)) rest =
            some words) :
          ∃ first others, words = first :: others ∧
            word.text <+: first.text := by
        rcases ih hrest with ⟨first, others, hfirst, hstarts⟩
        exact ⟨first, others, hfirst,
          (List.prefix_append word.text [unit]).trans hstarts⟩
      cases quote with
      | none =>
          rw [wordsFrom] at hwords
          split_ifs at hwords with hmarked hwhite hquote
          · exact hmore hwords
          · rcases Option.map_eq_some_iff.mp hwords with ⟨others, -, rfl⟩
            exact ⟨word, others, rfl, List.prefix_rfl⟩
          · rcases ih hwords with ⟨first, others, hfirst, hstarts⟩
            exact ⟨first, others, hfirst, hstarts⟩
          · exact hmore hwords
      | some quote =>
          rw [wordsFrom] at hwords
          split_ifs at hwords with hends
          · exact ih hwords
          · exact hmore hwords

def hasQuote (units : List (UInt16 × Bool)) : Bool :=
  units.any fun unit => isQuote unit.1 && !unit.2

def started (current : Option Word) : Nat :=
  (current.map fun word => word.text.length).getD 0

theorem started_more (current : Option Word) (unit : UInt16)
    (marked : Bool) :
    started (some ((current.getD .empty).more unit marked)) =
      started current + 1 := by
  cases current <;> simp [started, Word.more, Word.empty]

theorem started_quoted (current : Option Word) :
    started (some (current.getD .empty).quoted) = started current := by
  cases current <;> rfl

theorem weight_true_le (units : List (UInt16 × Bool)) :
    weight true units ≤ weight false units + 1 := by
  cases units with
  | nil => simp [weight]
  | cons pair rest =>
      rcases pair with ⟨unit, marked⟩
      simp only [weight, Bool.toNat_true, Bool.toNat_false]
      split_ifs
      · omega
      · omega

theorem weight_le_cons (unit : UInt16) (marked : Bool)
    (rest : List (UInt16 × Bool)) :
    weight true rest ≤ weight true ((unit, marked) :: rest) := by
  have hfalse := weight_true_le rest
  simp only [weight, Bool.toNat_true]
  split_ifs
  · omega
  · omega

theorem weight_cons_of_not {unit : UInt16} {marked : Bool}
    (hunit : ¬ (isWhite unit && !marked) = true) (inside : Bool)
    (rest : List (UInt16 × Bool)) :
    weight inside ((unit, marked) :: rest) = 1 + weight true rest := by
  rw [weight, if_neg hunit]

theorem hasQuote_cons_of_not {unit : UInt16} {marked : Bool}
    (hunit : (isQuote unit && !marked) = false)
    (rest : List (UInt16 × Bool)) :
    hasQuote ((unit, marked) :: rest) = hasQuote rest := by
  simp only [hasQuote, List.any_cons, hunit, Bool.false_or]

/-- Outside of quotes each of them is left out, and inside of them no word
has white space. -/
theorem size_wordsFrom_le {quote : Option UInt16} {current : Option Word}
    {units : List (UInt16 × Bool)} {words : List Word}
    (hwords : wordsFrom quote current units = some words)
    (hwhole : ∀ word ∈ words, ∀ unit ∈ word.text, isWhite unit = false)
    (hopen : quote.isSome = true → current.isSome = true) :
    size (words.map Word.text) +
        (if quote = none ∧ hasQuote units = true then 1 else 0) ≤
      started current + weight current.isSome units := by
  induction units generalizing quote current words with
  | nil =>
      cases quote with
      | none =>
          cases hwords
          cases current <;> simp [size, started, weight, hasQuote]
      | some unit => cases hwords
  | cons pair rest ih =>
      rcases pair with ⟨unit, marked⟩
      cases quote with
      | none =>
          rw [wordsFrom] at hwords
          split_ifs at hwords with hmarked hwhite hquote
          · have hrest := ih hwords hwhole (by simp)
            rw [started_more, Option.isSome_some] at hrest
            rw [hasQuote_cons_of_not (by simp [hmarked]),
              weight_cons_of_not (by simp [hmarked])]
            omega
          · rcases Option.map_eq_some_iff.mp hwords with ⟨others, hothers, rfl⟩
            have hrest := ih hothers (fun word hword => hwhole word
              (List.mem_append_right _ hword)) (by simp)
            have hall : ∀ white ∈ ([32, 9, 10, 13] : List UInt16),
                isQuote white = false := by decide
            have hquote := hall unit (isWhite_cases hwhite)
            have hweight : weight current.isSome ((unit, marked) :: rest) =
                current.isSome.toNat + weight false rest := by
              simp [weight, hmarked, hwhite]
            rw [hasQuote_cons_of_not (by simp [hquote]), hweight,
              List.map_append, size_append]
            cases current <;> simp [size, started] at hrest ⊢ <;> omega
          · have hrest := ih hwords hwhole (by simp)
            rw [started_quoted, Option.isSome_some, if_neg (by simp)] at hrest
            rw [weight_cons_of_not (by simp [hwhite])]
            split_ifs <;> omega
          · have hrest := ih hwords hwhole (by simp)
            rw [started_more, Option.isSome_some] at hrest
            rw [hasQuote_cons_of_not (by simp [hquote]),
              weight_cons_of_not (by simp [hwhite])]
            omega
      | some quote =>
          rcases Option.isSome_iff_exists.mp (hopen rfl) with ⟨word, rfl⟩
          rw [if_neg (by simp), Option.isSome_some]
          rw [wordsFrom] at hwords
          split_ifs at hwords with hends
          · have hrest := ih hwords hwhole (by simp)
            have hle := weight_le_cons unit marked rest
            rw [Option.isSome_some] at hrest
            omega
          · have hrest := ih hwords hwhole (by simp)
            rcases exists_first_word hwords with
              ⟨first, others, rfl, hstarts⟩
            have hunit : isWhite unit = false := by
              apply hwhole first List.mem_cons_self
              apply hstarts.subset
              simp [Word.more]
            rw [started_more, Option.isSome_some, if_neg (by simp)] at hrest
            rw [weight_cons_of_not (by simp [hunit])]
            omega

/-! ## Commands of their words -/

theorem flatten_splitOnP {Item : Type} (separates : Item → Bool)
    (items : List Item) :
    (items.splitOnP separates).flatten =
      items.filter fun item => !separates item := by
  induction items with
  | nil => rfl
  | cons item rest ih =>
      rw [List.splitOnP_cons_eq_if_modifyHead]
      cases hitem : separates item with
      | true => simp [hitem, ih]
      | false =>
          rcases List.exists_cons_of_ne_nil
            (List.splitOnP_ne_nil separates rest) with ⟨first, others, hsplit⟩
          rw [hsplit] at ih
          simpa [hsplit, hitem] using ih

theorem flatten_commands (words : List Word) :
    (((words.splitOnP Word.separates).filter (· ≠ [])).map
        (·.map Word.text)).flatten =
      (words.filter fun word => !word.separates).map Word.text := by
  have hfilled (pieces : List (List Word)) :
      (pieces.filter (· ≠ [])).flatten = pieces.flatten := by
    induction pieces with
    | nil => rfl
    | cons piece rest ih =>
        cases piece with
        | nil => simpa using ih
        | cons word others => simpa using ih
  rw [← List.map_flatten, hfilled, flatten_splitOnP]

theorem size_filter_le (words : List Word) :
    size ((words.filter fun word => !word.separates).map Word.text) +
        (if words.any Word.separates then 1 else 0) ≤
      size (words.map Word.text) := by
  induction words with
  | nil => simp [size]
  | cons word rest ih =>
      cases hword : word.separates with
      | true =>
          rw [List.filter_cons_of_neg (by simp [hword]), List.any_cons, hword,
            List.map_cons, size_cons]
          simp only [Bool.true_or, if_true]
          omega
      | false =>
          rw [List.filter_cons_of_pos (by simp [hword]), List.any_cons, hword,
            List.map_cons, List.map_cons, size_cons, size_cons,
            Bool.false_or]
          omega

def plainWord (text : Text) : Word := ⟨text, true⟩

theorem unescape_bare {value : Text} (hvalue : backslash ∉ value) :
    unescape .plain value = some (bare value) := by
  induction value with
  | nil => rfl
  | cons unit rest ih =>
      rcases List.ne_and_not_mem_of_not_mem_cons hvalue with ⟨hunit, hrest⟩
      rw [unescape, if_neg hunit.symm, ih hrest]
      rfl

theorem wordsFrom_bare {word value : Text}
    (hword : ∀ unit ∈ word, isWhite unit = false)
    (hvalue : ∀ unit ∈ value, isQuote unit = false) :
    wordsFrom none (if word = [] then none else some (plainWord word))
        (bare value) = some ((wordsOf (word ++ value)).map plainWord) := by
  induction value generalizing word with
  | nil =>
      rw [List.append_nil, wordsOf_of_whole hword]
      cases word <;> rfl
  | cons unit rest ih =>
      have hquote := hvalue unit List.mem_cons_self
      have hothers := fun other hother =>
        hvalue other (List.mem_cons_of_mem unit hother)
      rw [bare, List.map_cons, wordsFrom]
      cases hunit : isWhite unit with
      | true =>
          have hrest := @ih [] (by simp) hothers
          rw [if_pos rfl, bare, List.nil_append] at hrest
          rw [if_neg (by simp), if_pos rfl, hrest, wordsOf_white word hunit,
            wordsOf_of_whole hword]
          cases word <;> rfl
      | false =>
          have hrest := ih (forall_mem_concat hword hunit) hothers
          have hcurrent : ((if word = [] then none
              else some (plainWord word)).getD .empty).more unit false =
                plainWord (word ++ [unit]) := by
            cases word <;> rfl
          rw [if_neg (by simp), bare, List.append_assoc,
            List.singleton_append] at hrest
          rw [if_neg (by simp), if_neg (by simp), hquote,
            if_neg (by simp), hcurrent]
          exact hrest

/-- A command line is split into its words exactly where no mark of the
quoting is in it. -/
theorem commandsOf_eq_iff (value : Text) :
    commandsOf value = some [wordsOf value] ↔ IsCommand value := by
  have hsize := @size_wordsOf [] (by simp) value
  simp only [List.nil_append, List.length_nil, List.isEmpty_nil,
    Bool.not_true, Nat.zero_add] at hsize
  constructor
  · intro hcommands
    rcases Option.bind_eq_some_iff.mp hcommands with ⟨units, hunits, hrest⟩
    rcases Option.bind_eq_some_iff.mp hrest with ⟨words, hwords, hlast⟩
    simp only at hlast
    split_ifs at hlast with habsolute
    have hflat := flatten_commands words
    rw [Option.some.inj hlast] at hflat habsolute
    rw [List.flatten_singleton] at hflat
    have hwhole : ∀ word ∈ words, ∀ unit ∈ word.text,
        isWhite unit = false := by
      intro word hword
      cases hseparates : word.separates with
      | true =>
          have htext : word.text = [59] := by
            simpa using (Bool.and_eq_true_iff.mp hseparates).2
          rw [htext]
          decide
      | false =>
          have hmem : word.text ∈ wordsOf value := by
            rw [hflat]
            exact List.mem_map_of_mem (List.mem_filter.mpr
              ⟨hword, by simp [hseparates]⟩)
          exact (isWord_of_mem_wordsOf hmem).whole
    have hescapes : weight false units +
        (if backslash ∈ value then 1 else 0) ≤ weight false (bare value) :=
      shortens_unescape hunits false
    have hquotes := size_wordsFrom_le hwords hwhole (by simp)
    have hfilter := size_filter_le words
    rw [← hflat] at hfilter
    simp only [started, Option.map_none, Option.getD_none,
      Option.isSome_none, Nat.zero_add, true_and] at hquotes
    have hnone : backslash ∉ value := by
      intro hmem
      rw [if_pos hmem] at hescapes
      omega
    have hunquoted : hasQuote units = false := by
      by_contra hquote
      rw [if_pos (by simpa using hquote)] at hquotes
      omega
    have hsingle : words.any Word.separates = false := by
      by_contra hany
      rw [if_pos (by simpa using hany)] at hfilter
      omega
    rw [unescape_bare hnone] at hunits
    cases hunits
    have hvalue : ∀ unit ∈ value, isQuote unit = false := by
      intro unit hunit
      have hall := List.any_eq_false.mp hunquoted (unit, false)
        (List.mem_map_of_mem hunit)
      simpa using hall
    have hplain := @wordsFrom_bare [] value (by simp) hvalue
    rw [if_pos rfl, hwords, List.nil_append] at hplain
    cases hplain
    refine ⟨hvalue, hnone, ?_, ?_⟩
    · intro hmem
      have hword := List.any_eq_false.mp hsingle (plainWord [59])
        (List.mem_map_of_mem hmem)
      exact hword rfl
    · simpa using habsolute
  · intro hcommand
    have hplain := @wordsFrom_bare [] value (by simp) hcommand.unquoted
    rw [if_pos rfl, List.nil_append] at hplain
    have hsplit : ((wordsOf value).map plainWord).splitOnP Word.separates =
        [(wordsOf value).map plainWord] := by
      apply List.splitOnP_eq_singleton
      intro word hword
      rcases List.mem_map.mp hword with ⟨text, htext, rfl⟩
      have hother : text ≠ [59] := ne_of_mem_of_not_mem htext hcommand.single
      simp [Word.separates, plainWord, hother]
    have hne : wordsOf value ≠ [] := by
      intro hnil
      have habsolute := hcommand.absolute
      rw [hnil] at habsolute
      cases habsolute
    have htexts : ((wordsOf value).map plainWord).map Word.text =
        wordsOf value := by
      rw [List.map_map]
      exact List.map_id _
    rw [commandsOf, unescape_bare hcommand.unescaped, Option.bind_some,
      hplain, Option.bind_some]
    simp [hsplit, hne, htexts, hcommand.absolute]

end UnitFile
