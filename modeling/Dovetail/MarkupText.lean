import Dovetail.CodeUnits

/-!
# Documents of elements

A document as the sequence of its tags, each with the indentation and the
layout it is written in, and the same document as a tree: every element with
those it stands inside.  Parts that close what they open can be read on
their own.
-/

namespace MarkupText

open CodeUnits

/-- Values stand as they are written, with entities. -/
structure Element where
  name : String
  attributes : List (String × Text)
  deriving DecidableEq

inductive Markup where
  | declaration
  | opens (indent : Nat) (stacked : Bool) (element : Element)
  | empty (indent : Nat) (stacked : Bool) (element : Element)
  | closes (indent : Nat) (name : String)
  | blank

/-! ## Lines -/

theorem text_join (first second : String) (rest : Text) :
    text first ++ (text second ++ rest) = text (first ++ second) ++ rest := by
  simp only [text, String.toList_append, List.flatMap_append,
    List.append_assoc]

theorem text_join_last (first second : String) :
    text first ++ text second = text (first ++ second) := by
  simp only [text, String.toList_append, List.flatMap_append]

def indentation (indent : Nat) : Text := List.replicate indent 32

def attributeText (entry : String × Text) : Text :=
  text entry.1 ++ text "=\"" ++ entry.2 ++ text "\""

/-- A line for each attribute; the last one ends the tag. -/
def stackedLines (indent : Nat) (ending : Text) :
    List (String × Text) → List Text
  | [] => []
  | [entry] => [indentation indent ++ attributeText entry ++ ending]
  | entry :: others =>
      (indentation indent ++ attributeText entry) ::
        stackedLines indent ending others

def Element.lines (element : Element) (indent : Nat) (stacked : Bool)
    (ending : Text) : List Text :=
  let start := indentation indent ++ text "<" ++ text element.name
  if stacked then
    start :: stackedLines (indent + 2) ending element.attributes
  else
    [start ++ (element.attributes.flatMap fun entry =>
      text " " ++ attributeText entry) ++ ending]

def Markup.lines : Markup → List Text
  | .declaration => [text "<?xml version=\"1.0\" encoding=\"utf-8\"?>"]
  | .opens indent stacked element => element.lines indent stacked (text ">")
  | .empty indent stacked element =>
      element.lines indent stacked (text " />")
  | .closes indent name =>
      [indentation indent ++ text "</" ++ text name ++ text ">"]
  | .blank => [[]]

/-! ## Elements -/

def Element.value? (element : Element) (name : String) : Option Text :=
  element.attributes.lookup name

def Markup.element? : Markup → Option Element
  | .opens _ _ element => some element
  | .empty _ _ element => some element
  | _ => none

def elements (document : List Markup) : List Element :=
  document.filterMap Markup.element?

def named (name : String) (document : List Markup) : List Element :=
  (elements document).filter fun element => element.name = name

@[simp] theorem elements_nil : elements [] = [] := rfl

@[simp] theorem elements_opens (indent : Nat) (stacked : Bool)
    (element : Element) (rest : List Markup) :
    elements (.opens indent stacked element :: rest) =
      element :: elements rest := rfl

@[simp] theorem elements_empty (indent : Nat) (stacked : Bool)
    (element : Element) (rest : List Markup) :
    elements (.empty indent stacked element :: rest) =
      element :: elements rest := rfl

@[simp] theorem elements_closes (indent : Nat) (name : String)
    (rest : List Markup) :
    elements (.closes indent name :: rest) = elements rest := rfl

@[simp] theorem elements_blank (rest : List Markup) :
    elements (.blank :: rest) = elements rest := rfl

@[simp] theorem elements_declaration (rest : List Markup) :
    elements (.declaration :: rest) = elements rest := rfl

@[simp] theorem elements_append (first rest : List Markup) :
    elements (first ++ rest) = elements first ++ elements rest :=
  List.filterMap_append

theorem elements_flatMap {Item : Type} (part : Item → List Markup)
    (items : List Item) :
    elements (items.flatMap part) =
      items.flatMap fun item => elements (part item) :=
  List.filterMap_flatMap

theorem named_append (name : String) (first rest : List Markup) :
    named name (first ++ rest) = named name first ++ named name rest := by
  simp only [named, elements_append, List.filter_append]

theorem named_eq_nil {name : String} {document : List Markup}
    (hother : ∀ element ∈ elements document, element.name ≠ name) :
    named name document = [] := by
  rw [named, List.filter_eq_nil_iff]
  intro element helement
  simpa using hother element helement

/-- Every element, with those it is inside from the outermost on. -/
def contents : List Element → List Markup → List (List Element × Element)
  | _, [] => []
  | inside, .opens _ _ element :: rest =>
      (inside, element) :: contents (inside ++ [element]) rest
  | inside, .empty _ _ element :: rest =>
      (inside, element) :: contents inside rest
  | inside, .closes _ _ :: rest => contents inside.dropLast rest
  | inside, .declaration :: rest => contents inside rest
  | inside, .blank :: rest => contents inside rest

theorem map_snd_contents (inside : List Element) (document : List Markup) :
    (contents inside document).map Prod.snd = elements document := by
  induction document generalizing inside with
  | nil => rfl
  | cons markup rest ih =>
      cases markup with
      | declaration => exact ih inside
      | opens indent stacked element =>
          exact congrArg (element :: ·) (ih (inside ++ [element]))
      | empty indent stacked element =>
          exact congrArg (element :: ·) (ih inside)
      | closes indent name => exact ih inside.dropLast
      | blank => exact ih inside

/-! ## Parts that can be read on their own -/

/-- What comes after is read as if the part were not there. -/
def Closed (part : List Markup) : Prop :=
  ∀ inside rest, contents inside (part ++ rest) =
    contents inside part ++ contents inside rest

theorem closed_nil : Closed [] := fun _ _ => rfl

/-- Markup that neither opens nor closes an element. -/
def Markup.IsLeaf : Markup → Prop
  | .opens _ _ _ => False
  | .closes _ _ => False
  | _ => True

theorem closed_of_leaves {part : List Markup}
    (hleaves : ∀ markup ∈ part, markup.IsLeaf) : Closed part := by
  induction part with
  | nil => exact closed_nil
  | cons markup part ih =>
      have hpart := ih fun other hother =>
        hleaves other (List.mem_cons_of_mem markup hother)
      have hmarkup := hleaves markup List.mem_cons_self
      intro inside rest
      cases markup with
      | declaration => exact hpart inside rest
      | opens indent stacked element => exact hmarkup.elim
      | empty indent stacked element =>
          exact congrArg ((inside, element) :: ·) (hpart inside rest)
      | closes indent name => exact hmarkup.elim
      | blank => exact hpart inside rest

theorem closed_empty (indent : Nat) (stacked : Bool) (element : Element) :
    Closed [.empty indent stacked element] := fun _ _ => rfl

theorem Closed.append {first second : List Markup} (hfirst : Closed first)
    (hsecond : Closed second) : Closed (first ++ second) := by
  intro inside rest
  rw [List.append_assoc, hfirst, hsecond, hfirst, List.append_assoc]

theorem closed_flatMap {Item : Type} {part : Item → List Markup}
    {items : List Item} (hpart : ∀ item ∈ items, Closed (part item)) :
    Closed (items.flatMap part) := by
  induction items with
  | nil => exact closed_nil
  | cons item items ih =>
      rw [List.flatMap_cons]
      apply Closed.append
      · exact hpart item List.mem_cons_self
      · exact ih fun other hother =>
          hpart other (List.mem_cons_of_mem item hother)

theorem contents_flatMap {Item : Type} {part : Item → List Markup}
    {items : List Item} (hpart : ∀ item ∈ items, Closed (part item))
    (inside : List Element) :
    contents inside (items.flatMap part) =
      items.flatMap fun item => contents inside (part item) := by
  induction items with
  | nil => rfl
  | cons item items ih =>
      have hothers : ∀ other ∈ items, Closed (part other) :=
        fun other hother => hpart other (List.mem_cons_of_mem item hother)
      rw [List.flatMap_cons, hpart item List.mem_cons_self, ih hothers,
        List.flatMap_cons]

/-- An element with what it holds. -/
def holding (indent : Nat) (stacked : Bool) (element : Element)
    (body : List Markup) : List Markup :=
  .opens indent stacked element :: body ++ [.closes indent element.name]

@[simp] theorem elements_holding (indent : Nat) (stacked : Bool)
    (element : Element) (body : List Markup) :
    elements (holding indent stacked element body) =
      element :: elements body := by
  rw [holding, List.cons_append, elements_opens, elements_append]
  exact congrArg (element :: ·) (List.append_nil _)

theorem contents_holding {indent : Nat} {stacked : Bool} {element : Element}
    {body : List Markup} (hbody : Closed body) (inside : List Element) :
    contents inside (holding indent stacked element body) =
      (inside, element) :: contents (inside ++ [element]) body := by
  rw [holding, List.cons_append, contents, hbody, contents, contents,
    List.append_nil]

theorem Closed.holding {body : List Markup} (hbody : Closed body)
    (indent : Nat) (stacked : Bool) (element : Element) :
    Closed (holding indent stacked element body) := by
  intro inside rest
  rw [contents_holding hbody, MarkupText.holding, List.cons_append,
    List.cons_append, contents, List.append_assoc, hbody,
    List.singleton_append, contents, List.dropLast_concat,
    List.cons_append]

/-- A part without a match has none once it is read either. -/
theorem filterMap_contents_eq_nil {Result : Type}
    {result : List Element × Element → Option Result}
    {document : List Markup}
    (hnone : ∀ element ∈ elements document, ∀ inside,
      result (inside, element) = none) (inside : List Element) :
    (contents inside document).filterMap result = [] := by
  rw [List.filterMap_eq_nil_iff]
  intro place hplace
  apply hnone place.2
  rw [← map_snd_contents inside document]
  exact List.mem_map_of_mem hplace

end MarkupText
