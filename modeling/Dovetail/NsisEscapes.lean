import Dovetail.NsisScript

/-!
# Text in an NSIS string

`NsisText.escape` replaces one mark after the other, and each replacement
brings dollar signs and backslashes of its own.  The dollar signs go first,
so what is written is the same as with every unit escaped on its own, and a
double-quoted string of NSIS reads it as the value it was written for.
-/

namespace Dovetail.Bundler.NsisText

open CodeUnits

/-! ## Replacements -/

/-- What is left of the source once some units of it belong to a match. -/
def replaceFrom (pattern replacement : Text) : Nat → Text → Text
  | _, [] => []
  | skipped + 1, _ :: rest => replaceFrom pattern replacement skipped rest
  | 0, unit :: rest =>
      if pattern.isPrefixOf (unit :: rest) then
        replacement ++
          replaceFrom pattern replacement (pattern.length - 1) rest
      else unit :: replaceFrom pattern replacement 0 rest

def replaceAll (pattern replacement source : Text) : Text :=
  replaceFrom pattern replacement 0 source

/-- The escapes in the order the source makes them. -/
def replaced (value : Text) : Text :=
  replaceAll (text "\t") (text "$\\t") <|
    replaceAll (text "\r") (text "$\\r") <|
    replaceAll (text "\n") (text "$\\n") <|
    replaceAll (text "\r\n") (text "$\\r$\\n") <|
    replaceAll (text "`") (text "$\\`") <|
    replaceAll (text "\"") (text "$\\\"") <|
    replaceAll (text "$") (text "$$") value

def one (unit : UInt16) (replacement : Text) (other : UInt16) : Text :=
  if other = unit then replacement else [other]

theorem replaceAll_one (unit : UInt16) (replacement source : Text) :
    replaceAll [unit] replacement source =
      source.flatMap (one unit replacement) := by
  induction source with
  | nil => rfl
  | cons other rest ih =>
      have hsame : [unit].isPrefixOf (other :: rest) =
          decide (other = unit) := by
        simp [List.isPrefixOf, eq_comm, beq_eq_decide]
      rw [replaceAll, replaceFrom, hsame, List.flatMap_cons, one, ← ih]
      by_cases hunit : other = unit
      · simp [hunit, replaceAll]
      · simp [hunit, replaceAll]

/-- Line ends of two units are replaced as their units are. -/
theorem replaceAll_lineEnds : (source : Text) →
    ((replaceAll (text "\r\n") (text "$\\r$\\n") source).flatMap
        (one 10 (text "$\\n"))).flatMap (one 13 (text "$\\r")) =
      (source.flatMap (one 10 (text "$\\n"))).flatMap
        (one 13 (text "$\\r"))
  | [] => rfl
  | [unit] => by
      have hpattern : (text "\r\n").isPrefixOf [unit] = false := by
        have hlines : text "\r\n" = [13, 10] := rfl
        simp [hlines, List.isPrefixOf]
      rw [replaceAll, replaceFrom, hpattern]
      rfl
  | unit :: next :: rest => by
      have hlines : text "\r\n" = [13, 10] := rfl
      have hpattern : (text "\r\n").isPrefixOf (unit :: next :: rest) =
          decide (unit = 13 ∧ next = 10) := by
        simp [hlines, List.isPrefixOf, eq_comm, beq_eq_decide]
      by_cases hends : unit = 13 ∧ next = 10
      · have hrest := replaceAll_lineEnds rest
        rcases hends with ⟨rfl, rfl⟩
        have hread : replaceAll (text "\r\n") (text "$\\r$\\n")
            (13 :: 10 :: rest) =
              text "$\\r$\\n" ++
                replaceAll (text "\r\n") (text "$\\r$\\n") rest := by
          rw [replaceAll, replaceFrom, hpattern]
          rfl
        rw [hread, List.flatMap_append, List.flatMap_append, hrest]
        rfl
      · have hrest := replaceAll_lineEnds (next :: rest)
        have hread : replaceAll (text "\r\n") (text "$\\r$\\n")
            (unit :: next :: rest) =
              unit :: replaceAll (text "\r\n") (text "$\\r$\\n")
                (next :: rest) := by
          rw [replaceAll, replaceFrom, hpattern]
          simp [hends, replaceAll]
        rw [hread, List.flatMap_cons, List.flatMap_append, hrest]
        simp only [List.flatMap_cons, List.flatMap_append]

/-- No replacement is replaced again. -/
theorem replaced_eq_escape (value : Text) : replaced value = escape value := by
  have hdollar : text "$" = [36] := rfl
  have hquote : text "\"" = [34] := rfl
  have hbacktick : text "`" = [96] := rfl
  have hline : text "\n" = [10] := rfl
  have hreturn : text "\r" = [13] := rfl
  have htab : text "\t" = [9] := rfl
  unfold replaced
  simp only [hdollar, hquote, hbacktick, hline, hreturn, htab,
    replaceAll_one]
  rw [replaceAll_lineEnds]
  simp only [List.flatMap_assoc]
  apply List.flatMap_congr
  intro unit _
  unfold escapeUnit
  split_ifs with hunit hunit hunit hunit hunit hunit
  · rw [hunit]
    rfl
  · rw [hunit]
    rfl
  · rw [hunit]
    rfl
  · rw [hunit]
    rfl
  · rw [hunit]
    rfl
  · rw [hunit]
    rfl
  · simp [one, *]

/-! ## Reading -/

inductive Token where
  | plain (unit : UInt16)
  | escape (unit : UInt16)
  deriving DecidableEq

/-- What stands behind a dollar sign and a backslash. -/
def escaped? (unit : UInt16) : Option UInt16 :=
  if unit = 114 then some 13
  else if unit = 110 then some 10
  else if unit = 116 then some 9
  else if unit = 34 ∨ unit = 39 ∨ unit = 96 then some unit
  else none

def tokens : Text → List Token
  | 36 :: 36 :: rest => .escape 36 :: tokens rest
  | 36 :: 92 :: unit :: rest =>
      match escaped? unit with
      | some value => .escape value :: tokens rest
      | none => .plain 36 :: tokens (92 :: unit :: rest)
  | unit :: rest => .plain unit :: tokens rest
  | [] => []

/-- Marks that a string cannot have on their own: its end, a variable or a
line end. -/
def Token.isBare : Token → Bool
  | .plain unit => unit == 34 || unit == 36 || unit == 10 || unit == 13
  | .escape _ => false

def Token.unit : Token → UInt16
  | .plain unit => unit
  | .escape unit => unit

/-- The value of a string between double quotes. -/
def read (source : Text) : Option Text :=
  if (tokens source).any Token.isBare then none
  else some ((tokens source).map Token.unit)

/-! ## What is read of an escaped text -/

def marks : List UInt16 := [36, 34, 96, 10, 13, 9]

def tokenOf (unit : UInt16) : Token :=
  if unit ∈ marks then .escape unit else .plain unit

theorem tokens_plain {unit : UInt16} (hunit : unit ≠ 36) (rest : Text) :
    tokens (unit :: rest) = .plain unit :: tokens rest := by
  rw [tokens]
  · intro other hdollar
    exact absurd hdollar hunit
  · intro other another hdollar
    exact absurd hdollar hunit

theorem tokens_escapeUnit (unit : UInt16) (rest : Text) :
    tokens (escapeUnit unit ++ rest) = tokenOf unit :: tokens rest := by
  by_cases hmark : unit ∈ marks
  · simp only [marks, List.mem_cons, List.not_mem_nil, or_false] at hmark
    rcases hmark with rfl | rfl | rfl | rfl | rfl | rfl
    all_goals rfl
  · have hescape : escapeUnit unit = [unit] := by
      simp only [marks, List.mem_cons, List.not_mem_nil, or_false,
        not_or] at hmark
      simp [escapeUnit, hmark]
    have hunit : unit ≠ 36 := by
      rintro rfl
      exact hmark (by decide)
    rw [hescape, List.singleton_append, tokens_plain hunit, tokenOf,
      if_neg hmark]

theorem tokens_escape (value : Text) :
    tokens (escape value) = value.map tokenOf := by
  induction value with
  | nil => rfl
  | cons unit rest ih =>
      rw [escape, List.flatMap_cons, tokens_escapeUnit, List.map_cons, ← ih]
      rfl

/-- A string that is written with escapes has no end, variable or line end
in it, and stands for the value it was written for. -/
theorem read_replaced (value : Text) :
    (∀ token ∈ tokens (replaced value), token.isBare = false) ∧
      read (replaced value) = some value := by
  have hbare (unit : UInt16) : (tokenOf unit).isBare = false := by
    by_cases hmark : unit ∈ marks
    · rw [tokenOf, if_pos hmark]
      rfl
    · rw [tokenOf, if_neg hmark]
      simp only [marks, List.mem_cons, List.not_mem_nil, or_false,
        not_or] at hmark
      simp [Token.isBare, hmark]
  have hunit (unit : UInt16) : (tokenOf unit).unit = unit := by
    unfold tokenOf
    split_ifs
    · rfl
    · rfl
  have hnone : ∀ token ∈ tokens (replaced value), token.isBare = false := by
    intro token htoken
    rw [replaced_eq_escape, tokens_escape] at htoken
    rcases List.mem_map.mp htoken with ⟨unit, -, rfl⟩
    exact hbare unit
  constructor
  · exact hnone
  · have hany : (tokens (replaced value)).any Token.isBare = false := by
      rw [List.any_eq_false]
      intro token htoken
      simp [hnone token htoken]
    rw [read, hany, if_neg Bool.false_ne_true, replaced_eq_escape,
      tokens_escape, List.map_map]
    have hsame : Token.unit ∘ tokenOf = id := funext hunit
    rw [hsame, List.map_id]

end Dovetail.Bundler.NsisText
