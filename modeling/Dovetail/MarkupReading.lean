import Dovetail.MarkupText
import Dovetail.XmlDocuments

/-!
# Documents of elements, read by a processor

A document of elements is printed line by line, and its tags are read behind
the white space that the lines leave.  Where every value is written with
entities, the elements that are read are those the document is meant to hold,
in their places, exactly if each of the values is one that an attribute
carries.
-/

namespace MarkupReading

open CodeUnits MarkupText XmlDocuments XmlValues

/-! ## Tags behind their white space -/

/-- The lines of a document, each with its end. -/
def printed (document : List Markup) : Text :=
  (document.flatMap Markup.lines).flatMap (· ++ [newline])

def gapOf (indent : Nat) (stacked : Bool) : Text :=
  if stacked then newline :: indentation (indent + 2) else [blank]

def written (indent : Nat) (stacked : Bool) (element : Element) :
    List WrittenAttribute :=
  element.attributes.map fun entry =>
    ⟨gapOf indent stacked, text entry.1, entry.2⟩

def declaration : Text := text "?xml version=\"1.0\" encoding=\"utf-8\"?"

/-- The tag of a markup, behind what its line leaves and is indented by. -/
def segment? (gap : Text) : Markup → Option Segment
  | .declaration => some ⟨gap, .declaration declaration⟩
  | .opens indent stacked element =>
      some ⟨gap ++ indentation indent,
        .starts (text element.name) (written indent stacked element) []
          false⟩
  | .empty indent stacked element =>
      some ⟨gap ++ indentation indent,
        .starts (text element.name) (written indent stacked element) [blank]
          true⟩
  | .closes indent name =>
      some ⟨gap ++ indentation indent, .ends (text name)⟩
  | .blank => none

/-- White space that is not yet followed by a tag. -/
def pendingAfter (gap : Text) : Markup → Text
  | .blank => gap ++ [newline]
  | _ => [newline]

def pending (gap : Text) (document : List Markup) : Text :=
  document.foldl pendingAfter gap

def segments : Text → List Markup → List Segment
  | _, [] => []
  | gap, markup :: rest =>
      (segment? gap markup).toList ++ segments (pendingAfter gap markup) rest

@[simp] theorem segments_nil (gap : Text) : segments gap [] = [] := rfl

theorem segments_cons (gap : Text) (markup : Markup) (rest : List Markup) :
    segments gap (markup :: rest) =
      (segment? gap markup).toList ++
        segments (pendingAfter gap markup) rest := rfl

@[simp] theorem pending_nil (gap : Text) : pending gap [] = gap := rfl

@[simp] theorem pending_cons (gap : Text) (markup : Markup)
    (rest : List Markup) :
    pending gap (markup :: rest) =
      pending (pendingAfter gap markup) rest := rfl

theorem pending_append (gap : Text) (first second : List Markup) :
    pending gap (first ++ second) = pending (pending gap first) second :=
  List.foldl_append

theorem segments_append (gap : Text) (first second : List Markup) :
    segments gap (first ++ second) =
      segments gap first ++ segments (pending gap first) second := by
  induction first generalizing gap with
  | nil => rfl
  | cons markup rest ih =>
      rw [List.cons_append, segments_cons, segments_cons, ih,
        List.append_assoc]
      rfl

theorem segments_holding (gap : Text) (indent : Nat) (stacked : Bool)
    (element : Element) (body : List Markup) :
    segments gap (holding indent stacked element body) =
      XmlDocuments.holding (gap ++ indentation indent) (text element.name)
        (written indent stacked element) (segments [newline] body)
        (pending [newline] body ++ indentation indent) := by
  rw [MarkupText.holding, List.cons_append, segments_cons, segments_append]
  rfl

/-! ## Printing -/

/-- The names of an element can be read, and what is written below it ends
its tag. -/
structure WellNamed (stacked : Bool) (element : Element) : Prop where
  name : isName (text element.name) = true
  keys : ∀ entry ∈ element.attributes, isName (text entry.1) = true
  distinct : (element.attributes.map fun entry => text entry.1).Nodup
  filled : stacked = true → element.attributes ≠ []

def namesWell (stacked : Bool) (name : String) (keys : List String) : Bool :=
  isName (text name) && keys.all (fun key => isName (text key)) &&
    decide ((keys.map text).Nodup) && (!stacked || !keys.isEmpty)

/-- Whether an element is well named is a matter of its names alone. -/
theorem wellNamed_of_names {stacked : Bool} {element : Element}
    (name : String) (keys : List String) (hname : element.name = name)
    (hkeys : element.attributes.map Prod.fst = keys)
    (hnames : namesWell stacked name keys = true) :
    WellNamed stacked element := by
  subst hname hkeys
  simp only [namesWell, Bool.and_eq_true, List.all_map, List.map_map,
    decide_eq_true_eq, List.all_eq_true] at hnames
  rcases hnames with ⟨⟨⟨hname, hkeys⟩, hdistinct⟩, hfilled⟩
  refine ⟨hname, hkeys, hdistinct, ?_⟩
  rintro rfl hnone
  simp [hnone] at hfilled

theorem print_entry (gap : Text) (entry : String × Text) :
    WrittenAttribute.print ⟨gap, text entry.1, entry.2⟩ =
      gap ++ attributeText entry := by
  rw [print_attribute, attributeText]
  simp only [List.append_assoc]

theorem stackedLines_ended (indent : Nat) (ending : Text)
    {entries : List (String × Text)} (hfilled : entries ≠ []) :
    newline :: (stackedLines indent ending entries).flatMap (· ++ [newline]) =
      entries.flatMap (fun entry =>
        (newline :: indentation indent) ++ attributeText entry) ++
        (ending ++ [newline]) := by
  induction entries with
  | nil => exact absurd rfl hfilled
  | cons entry rest ih =>
      cases rest with
      | nil => simp [stackedLines]
      | cons next others =>
          have hrest := ih (List.cons_ne_nil next others)
          rw [stackedLines, List.flatMap_cons, List.append_assoc,
            List.singleton_append, hrest]
          · simp only [List.flatMap_cons, List.cons_append,
              List.append_assoc]
          · intro hnone
            cases hnone

theorem lines_ended {indent : Nat} {stacked : Bool} {element : Element}
    (hnamed : WellNamed stacked element) (ending : Text) :
    (element.lines indent stacked ending).flatMap (· ++ [newline]) =
      indentation indent ++ (text "<" ++ (text element.name ++
        ((written indent stacked element).flatMap WrittenAttribute.print ++
          (ending ++ [newline])))) := by
  have hprint (gap : Text) :
      (element.attributes.map fun entry =>
        (⟨gap, text entry.1, entry.2⟩ : WrittenAttribute)).flatMap
          WrittenAttribute.print =
        element.attributes.flatMap fun entry =>
          gap ++ attributeText entry := by
    rw [List.flatMap_map]
    apply List.flatMap_congr
    intro entry _
    exact print_entry gap entry
  rw [written, hprint]
  cases stacked with
  | true =>
      have hstacked := stackedLines_ended (indent + 2) ending
        (hnamed.filled rfl)
      simp only [Element.lines, if_true, List.flatMap_cons, List.append_assoc,
        List.singleton_append, hstacked, gapOf]
  | false =>
      have hblank : text " " = [blank] := rfl
      simp [Element.lines, gapOf, hblank]

def Legible : Markup → Prop
  | .opens _ stacked element => WellNamed stacked element
  | .empty _ stacked element => WellNamed stacked element
  | _ => True

/-- A tag is printed on the lines of its markup. -/
theorem print_segment? {markup : Markup} (hlegible : Legible markup)
    (gap : Text) :
    print (segment? gap markup).toList ++ pendingAfter gap markup =
      gap ++ markup.lines.flatMap (· ++ [newline]) := by
  cases markup with
  | declaration =>
      have hline : text "<?xml version=\"1.0\" encoding=\"utf-8\"?>" =
          text "<" ++ (declaration ++ text ">") := by
        simp [declaration, text_join_last]
      simp only [segment?, Option.toList_some, print_cons, print_nil,
        List.append_nil, print_declaration, pendingAfter, Markup.lines,
        List.flatMap_cons, List.flatMap_nil, hline, List.append_assoc]
  | opens indent stacked element =>
      simp only [segment?, Option.toList_some, print_cons, print_nil,
        List.append_nil, Segment.print, WrittenTag.print, pendingAfter,
        Markup.lines, lines_ended hlegible, Bool.false_eq_true, if_false,
        List.append_assoc, List.cons_append]
      rfl
  | empty indent stacked element =>
      simp only [segment?, Option.toList_some, print_cons, print_nil,
        List.append_nil, print_empty, pendingAfter, Markup.lines,
        lines_ended hlegible, List.append_assoc]
      rfl
  | closes indent name =>
      simp only [segment?, Option.toList_some, print_cons, print_nil,
        List.append_nil, Segment.print, WrittenTag.print, pendingAfter,
        Markup.lines, List.flatMap_cons, List.flatMap_nil, List.append_assoc,
        List.cons_append]
      rfl
  | blank => simp [segment?, pendingAfter, Markup.lines]

/-- What is printed of a document, up to the white space it ends with. -/
theorem print_segments {document : List Markup}
    (hlegible : ∀ markup ∈ document, Legible markup) (gap : Text) :
    print (segments gap document) ++ pending gap document =
      gap ++ printed document := by
  induction document generalizing gap with
  | nil => simp [printed]
  | cons markup rest ih =>
      have hrest := ih (fun other hother => hlegible other (by simp [hother]))
        (pendingAfter gap markup)
      have hprinted : printed (markup :: rest) =
          markup.lines.flatMap (· ++ [newline]) ++ printed rest := by
        simp [printed]
      rw [segments_cons, pending_cons, print_append, List.append_assoc, hrest,
        ← List.append_assoc, print_segment? (hlegible markup (by simp)),
        List.append_assoc, hprinted]

/-! ## Documents that nest -/

/-- A document that could stand in an element. -/
inductive Stands : List Markup → Prop
  | nil : Stands []
  | blank : Stands [.blank]
  | empty (indent : Nat) {stacked : Bool} {element : Element}
      (hnamed : WellNamed stacked element) :
      Stands [.empty indent stacked element]
  | holding (indent : Nat) {stacked : Bool} {element : Element}
      {body : List Markup} (hnamed : WellNamed stacked element)
      (hbody : Stands body) : Stands (holding indent stacked element body)
  | append {first second : List Markup} (hfirst : Stands first)
      (hsecond : Stands second) : Stands (first ++ second)

theorem Stands.afterBlank {rest : List Markup} (hrest : Stands rest) :
    Stands (.blank :: rest) :=
  Stands.blank.append hrest

theorem Stands.afterEmpty {indent : Nat} {stacked : Bool} {element : Element}
    {rest : List Markup} (hrest : Stands rest)
    (hnamed : WellNamed stacked element) :
    Stands (.empty indent stacked element :: rest) :=
  (Stands.empty indent hnamed).append hrest

theorem stands_flatMap {Item : Type} {items : List Item}
    {part : Item → List Markup} (hpart : ∀ item ∈ items, Stands (part item)) :
    Stands (items.flatMap part) := by
  induction items with
  | nil => exact Stands.nil
  | cons item rest ih =>
      rw [List.flatMap_cons]
      apply Stands.append
      · exact hpart item (by simp)
      · exact ih fun other hother => hpart other (by simp [hother])

theorem stands_of_empty {document : List Markup}
    (hempty : ∀ markup ∈ document, ∃ indent stacked element,
      markup = .empty indent stacked element ∧ WellNamed stacked element) :
    Stands document := by
  induction document with
  | nil => exact Stands.nil
  | cons markup rest ih =>
      rcases hempty markup (by simp) with
        ⟨indent, stacked, element, rfl, hnamed⟩
      exact (Stands.empty indent hnamed).append
        (ih fun other hother => hempty other (by simp [hother]))

theorem Stands.legible {document : List Markup} (hstands : Stands document) :
    ∀ markup ∈ document, Legible markup := by
  induction hstands with
  | nil => simp
  | blank => simp [Legible]
  | empty indent hnamed => simpa [Legible] using hnamed
  | holding indent hnamed hbody ih =>
      rw [MarkupText.holding, List.cons_append, List.forall_mem_cons]
      refine ⟨hnamed, List.forall_mem_append.mpr ⟨ih, ?_⟩⟩
      simp [Legible]
  | append hfirst hsecond ihFirst ihSecond =>
      exact List.forall_mem_append.mpr ⟨ihFirst, ihSecond⟩

/-! ## Reading -/

def White (gap : Text) : Prop := ∀ unit ∈ gap, unit = blank ∨ unit = newline

theorem White.append {first second : Text} (hfirst : White first)
    (hsecond : White second) : White (first ++ second) :=
  List.forall_mem_append.mpr ⟨hfirst, hsecond⟩

theorem white_newline : White [newline] := by simp [White]

theorem white_indentation (indent : Nat) : White (indentation indent) := by
  intro unit hunit
  left
  exact List.eq_of_mem_replicate hunit

theorem white_gapOf (indent : Nat) (stacked : Bool) :
    White (gapOf indent stacked) := by
  cases stacked with
  | true => exact white_newline.append (white_indentation (indent + 2))
  | false => simp [White, gapOf]

theorem white_pending {gap : Text} (hgap : White gap)
    (document : List Markup) : White (pending gap document) := by
  induction document generalizing gap with
  | nil => exact hgap
  | cons markup rest ih =>
      apply ih
      cases markup with
      | blank => exact hgap.append white_newline
      | declaration => exact white_newline
      | opens _ _ _ => exact white_newline
      | empty _ _ _ => exact white_newline
      | closes _ _ => exact white_newline

theorem White.isWhite {gap : Text} (hgap : White gap) :
    ∀ unit ∈ gap, isWhite unit = true := by
  intro unit hunit
  rcases hgap unit hunit with rfl | rfl <;> rfl

theorem White.legal {gap : Text} (hgap : White gap) : legal gap = true := by
  induction gap with
  | nil => rfl
  | cons unit rest ih =>
      have hrest := ih fun other hother => hgap other (by simp [hother])
      rcases hgap unit (by simp) with rfl | rfl
      · rw [legal_cons rfl, hrest]
        rfl
      · rw [legal_cons rfl, hrest]
        rfl

theorem White.not_mem {gap : Text} (hgap : White gap) {unit : UInt16}
    (hunit : unit ∉ [blank, newline]) : unit ∉ gap := by
  intro hmem
  apply hunit
  simpa using hgap unit hmem

/-- White space between tags is read as it is. -/
theorem White.readValue {gap : Text} (hgap : White gap) :
    readValue .content gap = some gap := by
  have hends : Place.content.ends gap = false := by
    have hmark : greaterThan ∉ gap := hgap.not_mem (by decide)
    simp only [Place.ends, decide_eq_false_iff_not]
    intro hwithin
    exact hmark (hwithin.subset (by decide))
  have hreturn : carriageReturn ∉ gap := hgap.not_mem (by decide)
  have hplain : ∀ unit ∈ gap, unit ≠ ampersand ∧ unit ≠ lessThan := by
    intro unit hunit
    rcases hgap unit hunit with rfl | rfl <;> decide
  have hspace : gap.map Place.content.space = gap := by
    apply (Place.map_space_eq_self_iff hreturn).mpr
    exact ⟨hreturn, fun hplace => by cases hplace⟩
  have hdecode := @decode_plain .content gap hplain []
  rw [List.append_nil] at hdecode
  rw [XmlValues.readValue, hgap.legal, hends, unifyLines_eq_self hreturn,
    hdecode, hspace]
  simp [decode]

theorem wellNamed_written {indent : Nat} {stacked closed : Bool}
    {element : Element} (hnamed : WellNamed stacked element) {ending : Text}
    (hending : ∀ unit ∈ ending, isWhite unit = true) :
    (WrittenTag.starts (text element.name) (written indent stacked element)
      ending closed).Well := by
  refine ⟨hnamed.name, ?_, ?_, hending⟩
  · intro entry hentry
    rcases List.mem_map.mp hentry with ⟨pair, hpair, rfl⟩
    constructor
    · cases stacked <;> simp [gapOf]
    · exact (white_gapOf indent stacked).isWhite
    · exact hnamed.keys pair hpair
  · rw [written, List.map_map]
    exact hnamed.distinct

/-- What could stand in an element does so, whatever white space is before
it. -/
theorem Stands.part {document : List Markup} (hstands : Stands document)
    {gap : Text} (hgap : White gap) : Part (segments gap document) := by
  induction hstands generalizing gap with
  | nil => exact part_nil
  | blank => exact part_nil
  | empty indent hnamed =>
      apply part_empty
      · exact lessThan_not_mem_of_white
          (hgap.append (white_indentation indent)).isWhite
      · exact wellNamed_written hnamed (by decide)
  | @holding indent stacked element body hnamed hbody ih =>
      rw [segments_holding]
      have hpending := (white_pending white_newline body).append
        (white_indentation indent)
      exact (ih white_newline).holding
        (lessThan_not_mem_of_white
          (hgap.append (white_indentation indent)).isWhite)
        (lessThan_not_mem_of_white hpending.isWhite)
        (wellNamed_written hnamed (by simp))
  | @append first second hfirst hsecond ihFirst ihSecond =>
      rw [segments_append]
      exact (ihFirst hgap).append (ihSecond (white_pending hgap first))

/-! ## Values with entities -/

theorem mapM_eq_some_map_iff {Item Result : Type}
    {step : Item → Option Result} {value : Item → Result}
    {items : List Item} :
    items.mapM step = some (items.map value) ↔
      ∀ item ∈ items, step item = some (value item) := by
  induction items with
  | nil => simp
  | cons item rest ih =>
      rw [List.mapM_cons, List.forall_mem_cons, ← ih]
      cases step item with
      | none => simp
      | some result =>
          cases rest.mapM step with
          | none => simp
          | some results => simp

/-- A unit that stands for itself, with entities or without. -/
def isBare (unit : UInt16) : Bool :=
  isPlain unit &&
    decide (unit ∉ [ampersand, lessThan, greaterThan, quote, 39])

def bare (value : Text) : Bool := value.all isBare

theorem bare_append (first second : Text) :
    bare (first ++ second) = (bare first && bare second) :=
  List.all_append

theorem carries_of_bare {value : Text} (hbare : bare value = true)
    (place : Place) : place.Carries value := by
  apply Place.carries_plain
  intro unit hunit
  have hall := List.all_eq_true.mp hbare unit hunit
  exact (Bool.and_eq_true_iff.mp hall).1

/-- A plain unit between two values is none of either. -/
theorem carries_append_cons {place : Place} {unit : UInt16}
    (hunit : isPlain unit = true) (before after : Text) :
    place.Carries (before ++ unit :: after) ↔
      place.Carries before ∧ place.Carries after := by
  have hplain : ∀ other ∈ [unit], isPlain other = true := by simpa using hunit
  have hrest := @Place.carries_plain_append place [unit] hplain after
  rw [List.singleton_append] at hrest
  rw [← hrest, Place.Carries, Place.Carries, Place.Carries,
    legal_append_cons before (of_isPlain hunit).1, Bool.and_eq_true,
    Place.keeps_append]
  tauto

theorem carries_intercalate {place : Place} {unit : UInt16}
    (hunit : isPlain unit = true) (parts : List Text) :
    place.Carries ([unit].intercalate parts) ↔
      ∀ part ∈ parts, place.Carries part := by
  induction parts with
  | nil => simp [@carries_of_bare [] rfl]
  | cons part rest ih =>
      cases rest with
      | nil => simp
      | cons next others =>
          rw [List.intercalate_cons_cons, List.append_assoc,
            List.singleton_append, carries_append_cons hunit, ih,
            List.forall_mem_cons (a := part)]

theorem write_append (entities : Entities) (first second : Text) :
    entities.write (first ++ second) =
      entities.write first ++ entities.write second :=
  List.flatMap_append

theorem write_of_bare (entities : Entities) {value : Text}
    (hbare : bare value = true) : entities.write value = value := by
  induction value with
  | nil => rfl
  | cons unit rest ih =>
      rw [bare, List.all_cons, Bool.and_eq_true] at hbare
      have hmarks := (Bool.and_eq_true_iff.mp hbare.1).2
      rw [Entities.write_cons, ih hbare.2,
        Entities.written_eq_self (of_decide_eq_true hmarks)]
      rfl

section

variable (entities : Entities)

def escapedElement (element : Element) : Element :=
  ⟨element.name, element.attributes.map fun entry =>
    (entry.1, entities.write entry.2)⟩

def escapedMarkup : Markup → Markup
  | .opens indent stacked element =>
      .opens indent stacked (escapedElement entities element)
  | .empty indent stacked element =>
      .empty indent stacked (escapedElement entities element)
  | markup => markup

/-- The document with its values written for what they are. -/
def escaped (document : List Markup) : List Markup :=
  document.map (escapedMarkup entities)

/-- The tags that a document is meant to have. -/
def tagsOf (gap : Text) (document : List Markup) :
    List (Text × XmlDocuments.Tag) :=
  (segments gap document).map Segment.meant

/-- Every value of the document comes through its attribute. -/
def Carried (document : List Markup) : Prop :=
  ∀ element ∈ elements document, ∀ entry ∈ element.attributes,
    Place.quoted.Carries entry.2

theorem carried_nil : Carried [] := by simp [Carried]

theorem carried_append {first second : List Markup} :
    Carried (first ++ second) ↔ Carried first ∧ Carried second := by
  rw [Carried, elements_append, List.forall_mem_append]
  rfl

theorem carried_blank {rest : List Markup} :
    Carried (.blank :: rest) ↔ Carried rest := Iff.rfl

theorem carried_declaration {rest : List Markup} :
    Carried (.declaration :: rest) ↔ Carried rest := Iff.rfl

theorem carried_closes {indent : Nat} {name : String} {rest : List Markup} :
    Carried (.closes indent name :: rest) ↔ Carried rest := Iff.rfl

theorem carried_opens {indent : Nat} {stacked : Bool} {element : Element}
    {rest : List Markup} :
    Carried (.opens indent stacked element :: rest) ↔
      (∀ entry ∈ element.attributes, Place.quoted.Carries entry.2) ∧
        Carried rest := by
  rw [Carried, elements_opens, List.forall_mem_cons]
  rfl

theorem carried_empty {indent : Nat} {stacked : Bool} {element : Element}
    {rest : List Markup} :
    Carried (.empty indent stacked element :: rest) ↔
      (∀ entry ∈ element.attributes, Place.quoted.Carries entry.2) ∧
        Carried rest := by
  rw [Carried, elements_empty, List.forall_mem_cons]
  rfl

theorem carried_holding {indent : Nat} {stacked : Bool} {element : Element}
    {body : List Markup} :
    Carried (holding indent stacked element body) ↔
      (∀ entry ∈ element.attributes, Place.quoted.Carries entry.2) ∧
        Carried body := by
  rw [Carried, elements_holding, List.forall_mem_cons]
  rfl

theorem carried_flatMap {Item : Type} {items : List Item}
    {part : Item → List Markup} :
    Carried (items.flatMap part) ↔ ∀ item ∈ items, Carried (part item) := by
  induction items with
  | nil => simp [carried_nil]
  | cons item rest ih =>
      rw [List.flatMap_cons, carried_append, List.forall_mem_cons, ih]

variable {entities}

theorem escaped_append (first second : List Markup) :
    escaped entities (first ++ second) =
      escaped entities first ++ escaped entities second :=
  List.map_append

theorem escaped_holding (indent : Nat) (stacked : Bool) (element : Element)
    (body : List Markup) :
    escaped entities (holding indent stacked element body) =
      holding indent stacked (escapedElement entities element)
        (escaped entities body) := by
  rw [MarkupText.holding, escaped, List.map_append, List.map_cons]
  rfl

theorem pendingAfter_escapedMarkup (gap : Text) (markup : Markup) :
    pendingAfter gap (escapedMarkup entities markup) =
      pendingAfter gap markup := by
  cases markup <;> rfl

variable (hquote : (entities.name quote).isSome = true)
include hquote

theorem values_written_iff (indent : Nat) (stacked : Bool)
    (element : Element) :
    (written indent stacked (escapedElement entities element)).mapM
        WrittenAttribute.value =
      some ((written indent stacked element).map WrittenAttribute.meant) ↔
        ∀ entry ∈ element.attributes, Place.quoted.Carries entry.2 := by
  have hfits : entities.Fits .quoted := fun _ => hquote
  simp only [written, escapedElement, List.map_map, List.mapM_map]
  rw [mapM_eq_some_map_iff]
  simp only [Function.comp_apply, WrittenAttribute.value,
    WrittenAttribute.meant, Option.map_eq_some_iff, Prod.mk.injEq, true_and,
    exists_eq_right, readValue_write_eq_some_iff hfits]

omit hquote in
theorem reads_starts_iff {gap : Text} (hgap : readValue .content gap = some gap)
    (name ending : Text) (closed : Bool)
    (attributes others : List WrittenAttribute) :
    Reads [⟨gap, .starts name attributes ending closed⟩]
        [⟨gap, .starts name others ending closed⟩] ↔
      attributes.mapM WrittenAttribute.value =
        some (others.map WrittenAttribute.meant) := by
  rw [reads_cons]
  cases hvalues : attributes.mapM WrittenAttribute.value <;>
    simp [reads_nil, Segment.value, Segment.meant, WrittenTag.value,
      WrittenTag.meant, hgap, hvalues]

/-- The tag of a markup is read as it is meant exactly if its values come
through. -/
theorem reads_segment?_iff {gap : Text} (hgap : White gap)
    (markup : Markup) :
    Reads (segment? gap (escapedMarkup entities markup)).toList
        (segment? gap markup).toList ↔ Carried [markup] := by
  have hindented (indent : Nat) :=
    (hgap.append (white_indentation indent)).readValue
  cases markup with
  | declaration =>
      simp [escapedMarkup, segment?, Carried, reads_declaration hgap.readValue,
        reads_nil]
  | blank => simp [escapedMarkup, segment?, Carried, reads_nil]
  | closes indent name =>
      simp [escapedMarkup, segment?, Carried, reads_cons, reads_nil,
        Segment.value, Segment.meant, WrittenTag.value, WrittenTag.meant,
        hindented]
  | opens indent stacked element =>
      simp only [escapedMarkup, segment?, Option.toList_some,
        escapedElement, reads_starts_iff (hindented indent)]
      simp only [Carried, elements_opens, elements_nil, List.mem_singleton,
        forall_eq]
      exact values_written_iff hquote indent stacked element
  | empty indent stacked element =>
      simp only [escapedMarkup, segment?, Option.toList_some,
        escapedElement, reads_starts_iff (hindented indent)]
      simp only [Carried, elements_empty, elements_nil, List.mem_singleton,
        forall_eq]
      exact values_written_iff hquote indent stacked element

theorem reads_segments_iff {gap : Text} (hgap : White gap)
    (document : List Markup) :
    Reads (segments gap (escaped entities document)) (segments gap document) ↔
      Carried document := by
  induction document generalizing gap with
  | nil => simp [escaped, Carried, reads_nil]
  | cons markup rest ih =>
      have hlength :
          (segment? gap (escapedMarkup entities markup)).toList.length =
            (segment? gap markup).toList.length := by
        cases markup <;> rfl
      have hcarried : Carried (markup :: rest) ↔
          Carried [markup] ∧ Carried rest := by
        rw [← List.singleton_append, Carried, elements_append,
          List.forall_mem_append]
        rfl
      rw [escaped, List.map_cons, segments_cons, segments_cons,
        reads_append hlength, reads_segment?_iff hquote hgap,
        pendingAfter_escapedMarkup, hcarried]
      exact and_congr_right fun _ => ih (white_pending hgap [markup])

theorem quote_not_mem_segments (gap : Text) (document : List Markup) :
    ∀ entry ∈ attributesOf (segments gap (escaped entities document)),
      quote ∉ entry.raw := by
  have hwritten (indent : Nat) (stacked : Bool) (element : Element) :
      ∀ entry ∈ written indent stacked (escapedElement entities element),
        quote ∉ entry.raw := by
    intro entry hentry
    rcases List.mem_map.mp hentry with ⟨pair, hpair, rfl⟩
    rcases List.mem_map.mp hpair with ⟨plain, -, rfl⟩
    exact Entities.quote_not_mem_write hquote plain.2
  induction document generalizing gap with
  | nil => simp [escaped]
  | cons markup rest ih =>
      rw [escaped, List.map_cons, segments_cons, attributesOf_append,
        List.forall_mem_append]
      constructor
      · cases markup with
        | declaration => simp [escapedMarkup, segment?, WrittenTag.attributes]
        | blank => simp [escapedMarkup, segment?]
        | closes indent name =>
            simp [escapedMarkup, segment?, WrittenTag.attributes]
        | opens indent stacked element =>
            simpa [escapedMarkup, segment?, WrittenTag.attributes]
              using hwritten indent stacked element
        | empty indent stacked element =>
            simpa [escapedMarkup, segment?, WrittenTag.attributes]
              using hwritten indent stacked element
      · exact ih _

/-- The document of an element is read as it is meant exactly if its values
come through. -/
theorem read_printed_iff {stacked : Bool} {root : Element}
    {body : List Markup}
    (hroot : WellNamed stacked (escapedElement entities root))
    (hbody : Stands (escaped entities body)) :
    read (printed (escaped entities
        (.declaration :: holding 0 stacked root body))) =
        some (tagsOf [] (.declaration :: holding 0 stacked root body)) ↔
      Carried (.declaration :: holding 0 stacked root body) := by
  have hshape : escaped entities
      (.declaration :: holding 0 stacked root body) =
        .declaration :: holding 0 stacked (escapedElement entities root)
          (escaped entities body) :=
    congrArg (Markup.declaration :: ·)
      (escaped_holding 0 stacked root body)
  have hsegments : segments [] (escaped entities
      (.declaration :: holding 0 stacked root body)) =
        [⟨[], .declaration declaration⟩] ++
          XmlDocuments.holding ([newline] ++ indentation 0)
            (text (escapedElement entities root).name)
            (written 0 stacked (escapedElement entities root))
            (segments [newline] (escaped entities body))
            (pending [newline] (escaped entities body) ++ indentation 0) := by
    rw [hshape, segments_cons]
    exact congrArg (_ :: ·) (segments_holding [newline] 0 stacked _ _)
  have hlegible : ∀ markup ∈ escaped entities
      (.declaration :: holding 0 stacked root body), Legible markup := by
    rw [hshape, List.forall_mem_cons]
    exact ⟨trivial,
      (Stands.holding 0 hroot hbody).legible⟩
  have hprinted := print_segments hlegible []
  have hpending : pending [] (escaped entities
      (.declaration :: holding 0 stacked root body)) = [newline] := by
    rw [hshape, pending_cons, MarkupText.holding, pending_append]
    rfl
  have hquotes := quote_not_mem_segments hquote []
    (.declaration :: holding 0 stacked root body)
  have hread := @reads_segments_iff entities hquote [] (by simp [White])
    (.declaration :: holding 0 stacked root body)
  rw [hpending, List.nil_append] at hprinted
  rw [← hprinted, ← hread, Reads, tagsOf, hsegments]
  rw [hsegments] at hquotes
  have hinside := (white_pending white_newline (escaped entities body)).append
    (white_indentation 0)
  have hheader : ∀ segment ∈ [(⟨[], .declaration declaration⟩ : Segment)],
      Declares segment ∧ segment.tag.Well := by
    rw [List.forall_mem_singleton]
    exact ⟨⟨⟨declaration, rfl⟩, by simp⟩, Or.inr rfl, by decide, by decide,
      fun _ => rfl⟩
  rw [read_document hheader
    (white_newline.append (white_indentation 0)).isWhite
    (hbody.part white_newline)
    (wellNamed_written hroot (by simp))
    (lessThan_not_mem_of_white hinside.isWhite) hquotes
    white_newline.isWhite]

end

end MarkupReading
