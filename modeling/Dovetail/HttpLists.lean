import Dovetail.JsonDocument

/-!
# Lists of the HTTP client

`extract_list_envelope` takes a list out of what an endpoint answers: an
array, an array with the count behind it, or an object with the array under
a key.  It tells an array with a count by its first item alone, so an array
of arrays loses every item but the first.
-/

namespace Dovetail.Http

open CodeUnits
open JsonDocument (Value)

def defaultListKeys : List Text :=
  [text "data", text "items", text "results", text "rows"]

/-- The array under the first of the keys that has one; a key that was looked
at is taken out of the object. -/
def takeItems : List Text → List (Text × Value) → List Value
  | [], _ => []
  | key :: keys, fields =>
      match fields.lookup key with
      | some (.list items) => items
      | _ => takeItems keys (fields.filter fun field => field.1 ≠ key)

def extractListEnvelopeWithKeys (extraKeys : List Text) :
    Value → List Value
  | .list (.list items :: _) => items
  | .list items => items
  | .map fields => takeItems (extraKeys ++ defaultListKeys) fields
  | _ => []

def extractListEnvelope (value : Value) : List Value :=
  extractListEnvelopeWithKeys [] value

/-! ## What was sent -/

/-- The array that a key of an object stands for. -/
def itemsAt (fields : List (Text × Value)) (key : Text) :
    Option (List Value) :=
  match fields.lookup key with
  | some (.list items) => some items
  | _ => none

/-- The items of an array with their count behind it. -/
def counted? : List Value → Option (List Value)
  | [.list items, .number _] => some items
  | _ => none

/-- What an endpoint sent, when it sent a list. -/
def sentItems : Value → Option (List Value)
  | .list items => some ((counted? items).getD items)
  | .map fields =>
      some ((defaultListKeys.findSome? (itemsAt fields)).getD [])
  | _ => none

/-- The items that were sent are the ones that are taken out. -/
def KeepsItems (value : Value) : Prop :=
  ∀ items, sentItems value = some items → extractListEnvelope value = items

/-- An array with an array at its start that no count follows. -/
def StartsWithArray (value : Value) : Prop :=
  ∃ items rest, value = .list (.list items :: rest) ∧
    counted? (.list items :: rest) = none

theorem lookup_filter_ne {fields : List (Text × Value)} {key other : Text}
    (hother : other ≠ key) :
    (fields.filter fun field => field.1 ≠ key).lookup other =
      fields.lookup other := by
  induction fields with
  | nil => rfl
  | cons field rest ih =>
      by_cases hkey : field.1 = key
      · have hmiss : (other == field.1) = false := by
          rw [hkey]
          exact beq_false_of_ne hother
        rw [List.filter_cons_of_neg (by simpa using hkey), ih,
          List.lookup_cons, hmiss]
      · rw [List.filter_cons_of_pos (by simpa using hkey),
          List.lookup_cons, List.lookup_cons, ih]

/-- Keys that were looked at are not looked at again. -/
theorem takeItems_eq {keys : List Text} (hkeys : keys.Nodup)
    (fields : List (Text × Value)) :
    takeItems keys fields = (keys.findSome? (itemsAt fields)).getD [] := by
  induction keys generalizing fields with
  | nil => rfl
  | cons key keys ih =>
      rcases List.nodup_cons.mp hkeys with ⟨hfresh, hothers⟩
      have hlook : ∀ other ∈ keys,
          itemsAt (fields.filter fun field => field.1 ≠ key) other =
            itemsAt fields other := by
        intro other hother
        have hne : other ≠ key := by
          rintro rfl
          exact hfresh hother
        rw [itemsAt, itemsAt, lookup_filter_ne hne]
      have hrest : keys.findSome?
          (itemsAt (fields.filter fun field => field.1 ≠ key)) =
            keys.findSome? (itemsAt fields) := by
        rw [← List.head?_filterMap, ← List.head?_filterMap,
          List.filterMap_congr hlook]
      rw [takeItems, List.findSome?_cons, itemsAt]
      split
      · rfl
      · rw [ih hothers, hrest]

/-- An array does not hold itself. -/
theorem items_ne_cons (items rest : List Value) :
    items ≠ .list items :: rest := by
  intro hsame
  have hsize := congrArg sizeOf hsame
  simp only [List.cons.sizeOf_spec, Value.list.sizeOf_spec] at hsize
  omega

/-- Every list comes through whole but one that starts with an array and has
no count. -/
theorem keepsItems_iff (value : Value) :
    KeepsItems value ↔ ¬ StartsWithArray value := by
  have hmap (fields : List (Text × Value)) :
      extractListEnvelope (.map fields) =
        (defaultListKeys.findSome? (itemsAt fields)).getD [] :=
    takeItems_eq (by decide) fields
  constructor
  · rintro hkeeps ⟨items, rest, rfl, hcount⟩
    have hsent : sentItems (.list (.list items :: rest)) =
        some (.list items :: rest) := by
      rw [sentItems, hcount]
      rfl
    exact items_ne_cons items rest (hkeeps _ hsent)
  · intro hstarts items hsent
    cases value with
    | null => cases hsent
    | bool value => cases hsent
    | number spelling => cases hsent
    | string value => cases hsent
    | map fields =>
        rw [hmap]
        exact Option.some.inj hsent
    | list all =>
        rw [← Option.some.inj hsent]
        cases all with
        | nil => rfl
        | cons first rest =>
            cases first with
            | list inner =>
                have hcount : counted? (.list inner :: rest) ≠ none := by
                  intro hnone
                  exact hstarts ⟨inner, rest, rfl, hnone⟩
                unfold counted? at hcount ⊢
                split at hcount
                · next counted count hsame =>
                    cases hsame
                    rfl
                · exact absurd rfl hcount
            | null => rfl
            | bool value => rfl
            | number spelling => rfl
            | string value => rfl
            | map fields => rfl

/-- Rows that are arrays themselves: all but the first are gone. -/
theorem not_keepsItems_rows :
    ¬ KeepsItems (.list [.list [.number (text "1")],
      .list [.number (text "2")]]) := by
  intro hkeeps
  have hitems := hkeeps [.list [.number (text "1")],
    .list [.number (text "2")]] rfl
  cases hitems

end Dovetail.Http
