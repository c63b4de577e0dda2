import Dovetail.WixText
import Dovetail.XmlValues

/-!
# Text in the documents of the bundler

`XmlText.content` and `XmlText.attribute` write the marks of XML as entities
and leave everything else as it is.  A processor of the document reads the
same value back where it leaves its white space alone.
-/

namespace Dovetail.Bundler

open CodeUnits XmlValues

namespace XmlText

def contentEntities : Entities where
  name unit :=
    if unit = ampersand then some (text "amp")
    else if unit = lessThan then some (text "lt")
    else if unit = greaterThan then some (text "gt")
    else none
  letters := by
    intro unit entity hname
    split_ifs at hname <;> cases hname <;> decide
  reads := by
    intro unit entity hname
    split_ifs at hname with hunit hunit hunit <;> cases hname <;>
      rw [hunit] <;> decide
  marked := by decide

def attributeEntities : Entities where
  name unit :=
    if unit = ampersand then some (text "amp")
    else if unit = lessThan then some (text "lt")
    else if unit = greaterThan then some (text "gt")
    else if unit = quote then some (text "quot")
    else if unit = 39 then some (text "apos")
    else none
  letters := by
    intro unit entity hname
    split_ifs at hname <;> cases hname <;> decide
  reads := by
    intro unit entity hname
    split_ifs at hname with hunit hunit hunit hunit hunit <;> cases hname <;>
      rw [hunit] <;> decide
  marked := by decide

theorem contentText_eq (value : Text) :
    contentText value = contentEntities.write value := by
  induction value with
  | nil => rfl
  | cons unit rest ih =>
      have hcons : contentText (unit :: rest) =
          contentText [unit] ++ contentText rest := by
        simp [contentText, replaceAll]
      rw [hcons, ih, Entities.write_cons]
      congr 1
      unfold Entities.written contentEntities
      simp only
      by_cases hunit : unit ∈ [ampersand, lessThan, greaterThan]
      · simp only [List.mem_cons, List.not_mem_nil, or_false] at hunit
        rcases hunit with rfl | rfl | rfl <;> rfl
      · simp only [List.mem_cons, List.not_mem_nil, or_false, not_or] at hunit
        rcases hunit with ⟨hamp, hless, hgreater⟩
        rw [if_neg hamp, if_neg hless, if_neg hgreater]
        simp only [ampersand, lessThan, greaterThan] at hamp hless hgreater
        simp [contentText, replaceAll, hamp, hless, hgreater]

theorem attributeText_eq (value : Text) :
    attributeText value = attributeEntities.write value := by
  induction value with
  | nil => rfl
  | cons unit rest ih =>
      have hcons : attributeText (unit :: rest) =
          attributeText [unit] ++ attributeText rest := by
        simp [attributeText, contentText, replaceAll]
      rw [hcons, ih, Entities.write_cons]
      congr 1
      unfold Entities.written attributeEntities
      simp only
      by_cases hunit : unit ∈ [ampersand, lessThan, greaterThan,
        quote, 39]
      · simp only [List.mem_cons, List.not_mem_nil, or_false] at hunit
        rcases hunit with rfl | rfl | rfl | rfl | rfl <;> rfl
      · simp only [List.mem_cons, List.not_mem_nil, or_false, not_or] at hunit
        rcases hunit with ⟨hamp, hless, hgreater, hquote, hapostrophe⟩
        rw [if_neg hamp, if_neg hless, if_neg hgreater, if_neg hquote,
          if_neg hapostrophe]
        simp only [ampersand, lessThan, greaterThan, quote]
          at hamp hless hgreater hquote
        simp [attributeText, contentText, replaceAll, hamp, hless, hgreater,
          hquote, hapostrophe]

/-- A value without a mark is written as it is. -/
theorem contentText_eq_self {value : Text}
    (hvalue : ∀ unit ∈ [ampersand, lessThan, greaterThan], unit ∉ value) :
    contentText value = value := by
  rw [contentText_eq]
  induction value with
  | nil => rfl
  | cons unit rest ih =>
      have hmarks : unit ∉ [ampersand, lessThan, greaterThan] := by
        intro hunit
        exact hvalue unit hunit List.mem_cons_self
      have hrest := ih fun mark hmark hmem =>
        hvalue mark hmark (List.mem_cons_of_mem unit hmem)
      simp only [List.mem_cons, List.not_mem_nil, or_false, not_or] at hmarks
      rw [Entities.write_cons, hrest]
      simp [Entities.written, contentEntities, hmarks]

/-- What is written for an attribute can stand between tags as well. -/
theorem fits_attributeEntities (place : Place) :
    attributeEntities.Fits place := by
  intro _
  rfl

theorem fits_contentEntities : contentEntities.Fits .content := by
  intro hplace
  cases hplace

theorem readValue_contentText_iff (value : Text) :
    readValue .content (contentText value) = some value ↔
      Place.content.Carries value := by
  rw [contentText_eq]
  exact readValue_write_eq_some_iff fits_contentEntities value

theorem readValue_attributeText_iff (place : Place) (value : Text) :
    readValue place (attributeText value) = some value ↔
      place.Carries value := by
  rw [attributeText_eq]
  exact readValue_write_eq_some_iff (fits_attributeEntities place) value

end XmlText

end Dovetail.Bundler
