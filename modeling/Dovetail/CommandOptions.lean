import Dovetail.CodeUnits

/-!
# The options of a command

A command is called with words: the name of an option behind two dashes and,
unless the option is a flag, its value.  The words of a list of arguments
are read as that list.  An option that can be given more than once takes a
comma in a value for the end of it.
-/

namespace CommandOptions

open CodeUnits

/-- The options of a command, by the word each is called with. -/
structure Options (Name : Type) where
  word : Name → Text
  isFlag : Name → Bool
  find : Text → Option Name
  find_word : ∀ name, find (word name) = some name

inductive Argument (Name : Type)
  | flag (name : Name)
  | valued (name : Name) (value : Text)
  deriving DecidableEq

variable {Name : Type}

def words (options : Options Name) : List (Argument Name) → List Text
  | [] => []
  | .flag name :: rest => options.word name :: words options rest
  | .valued name value :: rest =>
      options.word name :: value :: words options rest

/-- The arguments the words stand for. -/
def parse (options : Options Name) : List Text → Option (List (Argument Name))
  | [] => some []
  | [word] =>
      match options.find word with
      | none => none
      | some name =>
          if options.isFlag name then some [.flag name] else none
  | word :: value :: rest =>
      match options.find word with
      | none => none
      | some name =>
          if options.isFlag name then
            (parse options (value :: rest)).map (.flag name :: ·)
          else (parse options rest).map (.valued name value :: ·)

/-- Flags have no value and the other options one. -/
def Fitting (options : Options Name) : Argument Name → Prop
  | .flag name => options.isFlag name = true
  | .valued name _ => options.isFlag name = false

theorem parse_words (options : Options Name)
    {arguments : List (Argument Name)}
    (hfitting : ∀ argument ∈ arguments, Fitting options argument) :
    parse options (words options arguments) = some arguments := by
  induction arguments with
  | nil => rfl
  | cons argument rest ih =>
      have hrest := ih fun other hmem => hfitting other (by simp [hmem])
      have hfit := hfitting argument (by simp)
      cases argument with
      | valued name value =>
          have hflag : options.isFlag name = false := hfit
          simp [words, parse, options.find_word, hflag, hrest]
      | flag name =>
          have hflag : options.isFlag name = true := hfit
          cases hwords : words options rest with
          | nil =>
              rw [hwords] at hrest
              simp only [parse, Option.some.injEq] at hrest
              simp [words, parse, options.find_word, hflag, ← hrest]
          | cons word others =>
              rw [hwords] at hrest
              simp [words, parse, options.find_word, hflag, hwords, hrest]

/-! ## What a command reads -/

variable [DecidableEq Name]

/-- The values an option was given, in order. -/
def given (arguments : List (Argument Name)) (name : Name) : List Text :=
  arguments.filterMap fun
    | .valued other value => if other = name then some value else none
    | .flag _ => none

@[simp] theorem given_nil (name : Name) : given [] name = [] := rfl

@[simp] theorem given_append (before after : List (Argument Name))
    (name : Name) :
    given (before ++ after) name = given before name ++ given after name :=
  List.filterMap_append

@[simp] theorem given_flag (other : Name) (rest : List (Argument Name))
    (name : Name) : given (.flag other :: rest) name = given rest name := rfl

@[simp] theorem given_valued (other : Name) (value : Text)
    (rest : List (Argument Name)) (name : Name) :
    given (.valued other value :: rest) name =
      if other = name then value :: given rest name else given rest name := by
  by_cases hname : other = name <;> simp [given, hname]

@[simp] theorem given_map_valued (other : Name) (values : List Text)
    (name : Name) :
    given (values.map (.valued other)) name =
      if other = name then values else [] := by
  induction values with
  | nil => simp
  | cons value values ih =>
      by_cases hname : other = name <;> simp [hname] at ih ⊢ <;> simp [ih]

/-- An option that is given once; the last value counts. -/
def single (arguments : List (Argument Name)) (name : Name) : Option Text :=
  (given arguments name).getLast?

def comma : UInt16 := 44

/-- An option that can be given more than once. -/
def multi (arguments : List (Argument Name)) (name : Name) : List Text :=
  (given arguments name).flatMap (·.splitOn comma)

def flagged (arguments : List (Argument Name)) (name : Name) : Bool :=
  arguments.contains (.flag name)

theorem comma_not_mem_of_mem_multi {arguments : List (Argument Name)}
    {name : Name} {value : Text} (hvalue : value ∈ multi arguments name) :
    comma ∉ value := by
  obtain ⟨whole, -, hpiece⟩ := List.mem_flatMap.mp hvalue
  exact not_mem_of_mem_splitOn hpiece

/-- Values without a comma are read as they were given. -/
theorem multi_eq_given {arguments : List (Argument Name)} {name : Name}
    (hvalues : ∀ value ∈ given arguments name, comma ∉ value) :
    multi arguments name = given arguments name := by
  unfold multi
  rw [List.flatMap_congr fun value hvalue =>
    List.splitOn_eq_singleton (hvalues value hvalue)]
  exact List.flatMap_singleton' _

end CommandOptions
