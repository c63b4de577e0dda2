import Dovetail.CodeUnits
import Mathlib.Tactic

/-!
# Scripts over positional parameters

A part of the shell: calls of utilities, a loop, and a command in place of
the shell itself.  The parameters are put in the place of their words once
the script has been read, so nothing in them is read again; only `exec` takes
a first word that begins with a dash for an option.
-/

namespace PositionalScripts

open CodeUnits

/-- A word as it is, the parameter zero, or a word for each of the others. -/
inductive Word where
  | literal (units : Text)
  | zero
  | parameters

inductive Script where
  | call (words : List Word)
  | quiet (words : List Word)
  | whileDo (condition body : Script)
  | andThen (first second : Script)
  | exec (words : List Word)

def Word.text : Word → Text
  | .literal units => units
  | .zero => CodeUnits.text "\"$0\""
  | .parameters => CodeUnits.text "\"$@\""

def wordsText (words : List Word) : Text :=
  (CodeUnits.text " ").intercalate (words.map Word.text)

namespace Script

def text : Script → Text
  | .call words => wordsText words
  | .quiet words => wordsText words ++ CodeUnits.text " 2>/dev/null"
  | .whileDo condition body =>
      CodeUnits.text "while " ++ condition.text ++ CodeUnits.text "; do " ++
        body.text ++ CodeUnits.text "; done"
  | .andThen first second => first.text ++ CodeUnits.text "; " ++ second.text
  | .exec words => CodeUnits.text "exec " ++ wordsText words

end Script

/-! ## Running -/

structure Parameters where
  zero : Text
  others : List Text

namespace Parameters

def wordsOf (parameters : Parameters) : Word → List Text
  | .literal units => [units]
  | .zero => [parameters.zero]
  | .parameters => parameters.others

def expand (parameters : Parameters) (words : List Word) : List Text :=
  words.flatMap parameters.wordsOf

end Parameters

abbrev Calls := List (List Text)

/-- The script came to its end, another command took the place of the shell,
or the shell gave up. -/
inductive Outcome where
  | ended (calls : Calls) (success : Bool)
  | replaced (calls : Calls) (command : Text) (arguments : List Text)
  | stopped (calls : Calls)

def dash : UInt16 := 45

/-- Nothing is found under an empty name. -/
def replaceBy (calls : Calls) : List Text → Outcome
  | [] => .ended calls true
  | [] :: _ => .stopped calls
  | command :: arguments => .replaced calls command arguments

/-- Two dashes end the options, of which there are none. -/
def execute (calls : Calls) : List Text → Outcome
  | [] => .ended calls true
  | first :: rest =>
      if first = [dash, dash] then replaceBy calls rest
      else if first.head? = some dash then .stopped calls
      else replaceBy calls (first :: rest)

/-- How a utility ends may depend on all that was called before it. -/
def run (utility : Calls → List Text → Bool) (parameters : Parameters) :
    Nat → Script → Calls → Option Outcome
  | 0, _, _ => none
  | _ + 1, .call words, calls =>
      some (.ended (calls ++ [parameters.expand words])
        (utility calls (parameters.expand words)))
  | _ + 1, .quiet words, calls =>
      some (.ended (calls ++ [parameters.expand words])
        (utility calls (parameters.expand words)))
  | fuel + 1, .whileDo condition body, calls =>
      (run utility parameters fuel condition calls).bind fun
        | .ended tested true =>
            (run utility parameters fuel body tested).bind fun
              | .ended done _ =>
                  run utility parameters fuel (.whileDo condition body) done
              | other => some other
        | .ended tested false => some (.ended tested true)
        | other => some other
  | fuel + 1, .andThen first second, calls =>
      (run utility parameters fuel first calls).bind fun
        | .ended done _ => run utility parameters fuel second done
        | other => some other
  | _ + 1, .exec words, calls =>
      some (execute calls (parameters.expand words))

/-! ## Waiting -/

section

variable {utility : Calls → List Text → Bool} {parameters : Parameters}
  {condition body words : List Word}

/-- A loop of two utilities. -/
def waiting (condition body : List Word) : Script :=
  .whileDo (.quiet condition) (.call body)

theorem run_waiting (fuel : Nat) (calls : Calls) :
    run utility parameters (fuel + 2) (waiting condition body) calls =
      if utility calls (parameters.expand condition) = true then
        run utility parameters (fuel + 1) (waiting condition body)
          (calls ++ [parameters.expand condition] ++ [parameters.expand body])
      else some (.ended (calls ++ [parameters.expand condition]) true) := by
  unfold waiting
  rw [run]
  simp only [run, Option.bind_some]
  cases hgoes : utility calls (parameters.expand condition) with
  | false => rfl
  | true => rfl

/-- A call that is one of those the script makes. -/
def Known (parameters : Parameters) (condition body : List Word)
    (calls : Calls) : Prop :=
  ∀ call ∈ calls, call = parameters.expand condition ∨
    call = parameters.expand body

/-- A loop that is left at some time ends, having called nothing else. -/
theorem exists_run_waiting {most : Nat}
    (hleft : ∀ calls : Calls, most ≤ calls.length →
      utility calls (parameters.expand condition) = false) {calls : Calls}
    (hcalls : Known parameters condition body calls) :
    ∃ fuel done, run utility parameters fuel (waiting condition body) calls =
        some (.ended done true) ∧
      Known parameters condition body done := by
  induction hrest : most - calls.length using Nat.strong_induction_on
    generalizing calls with
  | _ rest ih =>
      have htested : Known parameters condition body
          (calls ++ [parameters.expand condition]) := by
        intro call hcall
        rcases List.mem_append.mp hcall with hold | hnew
        · exact hcalls call hold
        · exact Or.inl (List.mem_singleton.mp hnew)
      by_cases hgoes : utility calls (parameters.expand condition) = true
      · have hdone : Known parameters condition body
            (calls ++ [parameters.expand condition] ++
              [parameters.expand body]) := by
          intro call hcall
          rcases List.mem_append.mp hcall with hold | hnew
          · exact htested call hold
          · exact Or.inr (List.mem_singleton.mp hnew)
        have hearly : calls.length < most := by
          by_contra hlate
          rw [hleft calls (Nat.le_of_not_lt hlate)] at hgoes
          cases hgoes
        rcases ih _ (by simp only [List.length_append]; simp; omega) hdone rfl
          with ⟨fuel, done, hrun, hknown⟩
        cases fuel with
        | zero => cases hrun
        | succ fuel =>
            refine ⟨fuel + 2, done, ?_, hknown⟩
            rw [run_waiting, if_pos hgoes]
            exact hrun
      · refine ⟨2, _, ?_, htested⟩
        rw [run_waiting, if_neg hgoes]

/-- A loop that ends has just been left. -/
theorem run_waiting_eq_some {fuel : Nat} {calls : Calls} {outcome : Outcome}
    (hrun : run utility parameters fuel (waiting condition body) calls =
      some outcome) :
    ∃ done, outcome = .ended done true := by
  induction fuel generalizing calls with
  | zero => cases hrun
  | succ fuel ih =>
      cases fuel with
      | zero =>
          unfold waiting at hrun
          simp [run] at hrun
      | succ fuel =>
          rw [run_waiting] at hrun
          split at hrun
          · exact ih hrun
          · exact ⟨_, (Option.some.inj hrun).symm⟩

/-- What is executed once the loop is left. -/
theorem run_waiting_exec_eq_some {fuel : Nat} {outcome : Outcome}
    (hrun : run utility parameters fuel
      (.andThen (waiting condition body) (.exec words)) [] = some outcome) :
    ∃ calls, outcome = execute calls (parameters.expand words) := by
  cases fuel with
  | zero => cases hrun
  | succ fuel =>
      rw [run] at hrun
      rcases Option.bind_eq_some_iff.mp hrun with ⟨waited, hwaited, hrest⟩
      rcases run_waiting_eq_some hwaited with ⟨done, rfl⟩
      cases fuel with
      | zero => cases hrest
      | succ fuel => exact ⟨done, (Option.some.inj hrest).symm⟩

theorem exists_run_waiting_exec {most : Nat}
    (hleft : ∀ calls : Calls, most ≤ calls.length →
      utility calls (parameters.expand condition) = false) :
    ∃ fuel calls, run utility parameters fuel
        (.andThen (waiting condition body) (.exec words)) [] =
          some (execute calls (parameters.expand words)) ∧
      Known parameters condition body calls := by
  rcases @exists_run_waiting utility parameters condition body most hleft []
    (by simp [Known]) with ⟨fuel, done, hwaited, hknown⟩
  cases fuel with
  | zero => cases hwaited
  | succ fuel =>
      refine ⟨fuel + 2, done, ?_, hknown⟩
      rw [run, hwaited]
      rfl

end

end PositionalScripts
