import Dovetail.FallibleSteps
import Mathlib.Tactic

/-!
# Operations on a disk that may fail

A disk says what stands at each path.  An attempt is a sequence of operations
on it; an operation that fails throws, and what it and those before it did
stays.  The rules of `Ensures` reduce what an attempt leaves behind, when it
returns and when it throws, to the answers of its operations.
-/

namespace FallibleDisk

open FallibleSteps

variable {Path Entry Failure Error Left α β : Type}

abbrev Disk (Path Entry : Type) := Path → Option Entry

/-- An operation is carried out, or it stops with an error and leaves
something of itself behind. -/
inductive Answer (Error Left : Type) where
  | done
  | failed (error : Error) (left : Left)

namespace Answer

def isDone : Answer Error Left → Bool
  | .done => true
  | .failed _ _ => false

/-- What follows from an answer. -/
def split (answer : Answer Error Left) (done : Prop)
    (failed : Error → Left → Prop) : Prop :=
  match answer with
  | .done => done
  | .failed error left => failed error left

@[simp] theorem isDone_done :
    (Answer.done : Answer Error Left).isDone = true := rfl

@[simp] theorem isDone_failed (error : Error) (left : Left) :
    (Answer.failed error left).isDone = false := rfl

@[simp] theorem split_done {done : Prop} {failed : Error → Left → Prop} :
    (Answer.done : Answer Error Left).split done failed ↔ done := Iff.rfl

@[simp] theorem split_failed {done : Prop} {failed : Error → Left → Prop}
    (error : Error) (left : Left) :
    (Answer.failed error left).split done failed ↔ failed error left :=
  Iff.rfl

end Answer

abbrev Attempt (Path Entry Failure α : Type) :=
  EStateM Failure (Disk Path Entry) α

/-! ## Operations -/

/-- An operation beside the disk. -/
def perform (wrap : Error → Failure) (answer : Answer Error Left) :
    Attempt Path Entry Failure Unit :=
  match answer with
  | .done => pure ()
  | .failed error _ => throw (wrap error)

def holds (path : Path) : Attempt Path Entry Failure Bool := do
  let disk ← get
  return (disk path).isSome

section

variable [DecidableEq Path]

def put (path : Path) (entry : Option Entry) :
    Attempt Path Entry Failure Unit :=
  modify fun disk => Function.update disk path entry

/-- The path gets the entry, or what an interrupted operation leaves of
it. -/
def replace (wrap : Error → Failure) (path : Path) (entry : Option Entry)
    (answer : Answer Error (Option Entry)) :
    Attempt Path Entry Failure Unit :=
  match answer with
  | .done => put path entry
  | .failed error left => do
      put path left
      throw (wrap error)

/-- The path is cleared at once or not at all. -/
def delete (wrap : Error → Failure) (path : Path)
    (answer : Answer Error Unit) : Attempt Path Entry Failure Unit :=
  match answer with
  | .done => put path none
  | .failed error _ => throw (wrap error)

/-- Everything within is cleared; an interrupted operation leaves some of
it. -/
def deleteAll (wrap : Error → Failure) (within : Path → Bool)
    (answer : Answer Error (Path → Bool)) : Attempt Path Entry Failure Unit :=
  match answer with
  | .done => modify fun disk path => if within path then none else disk path
  | .failed error kept => do
      modify fun disk path =>
        if within path && !kept path then none else disk path
      throw (wrap error)

/-- What stands at the source moves over what stands at the target, at once
or not at all. -/
def rename (wrap : Error → Failure) (source target : Path)
    (answer : Answer Error Unit) : Attempt Path Entry Failure Unit :=
  match answer with
  | .done => do
      let disk ← get
      put source none
      put target (disk source)
  | .failed error _ => throw (wrap error)

end

/-! ## What the operations ensure -/

section

variable {disk : Disk Path Entry} {thrown : Failure → Disk Path Entry → Prop}

@[simp] theorem ensures_holds {path : Path}
    {returned : Bool → Disk Path Entry → Prop} :
    Ensures (holds path) disk returned thrown ↔
      returned (disk path).isSome disk :=
  Iff.rfl

variable {returned : Unit → Disk Path Entry → Prop} {wrap : Error → Failure}

@[simp] theorem ensures_perform {answer : Answer Error Left} :
    Ensures (perform wrap answer) disk returned thrown ↔
      answer.split (returned () disk)
        (fun error _ => thrown (wrap error) disk) := by
  cases answer <;> rfl

variable [DecidableEq Path]

@[simp] theorem ensures_put {path : Path} {entry : Option Entry} :
    Ensures (put path entry) disk returned thrown ↔
      returned () (Function.update disk path entry) :=
  Iff.rfl

@[simp] theorem ensures_replace {path : Path} {entry : Option Entry}
    {answer : Answer Error (Option Entry)} :
    Ensures (replace wrap path entry answer) disk returned thrown ↔
      answer.split (returned () (Function.update disk path entry))
        (fun error left =>
          thrown (wrap error) (Function.update disk path left)) := by
  cases answer <;> rfl

@[simp] theorem ensures_delete {path : Path} {answer : Answer Error Unit} :
    Ensures (delete wrap path answer) disk returned thrown ↔
      answer.split (returned () (Function.update disk path none))
        (fun error _ => thrown (wrap error) disk) := by
  cases answer <;> rfl

omit [DecidableEq Path] in
@[simp] theorem ensures_deleteAll {within : Path → Bool}
    {answer : Answer Error (Path → Bool)} :
    Ensures (deleteAll wrap within answer) disk returned thrown ↔
      answer.split
        (returned () fun path => if within path then none else disk path)
        (fun error kept => thrown (wrap error) fun path =>
          if within path && !kept path then none else disk path) := by
  cases answer <;> rfl

@[simp] theorem ensures_rename {source target : Path}
    {answer : Answer Error Unit} :
    Ensures (rename wrap source target answer) disk returned thrown ↔
      answer.split
        (returned ()
          (Function.update (Function.update disk source none) target
            (disk source)))
        (fun error _ => thrown (wrap error) disk) := by
  cases answer <;> rfl

end

/-! ## What the operations keep -/

section

variable {P : Disk Path Entry → Prop} {wrap : Error → Failure}

theorem preserves_holds (path : Path) :
    Preserves P (holds path : Attempt Path Entry Failure Bool) :=
  fun _ hdisk => hdisk

theorem preserves_perform (answer : Answer Error Left) :
    Preserves P (perform wrap answer) := by
  cases answer with
  | done => exact preserves_pure ()
  | failed error left => exact preserves_throw (wrap error)

theorem preserves_deleteAll {within : Path → Bool}
    (hwithin : ∀ disk (cleared : Path → Bool), P disk →
      (∀ path, cleared path = true → within path = true) →
        P fun path => if cleared path then none else disk path)
    (answer : Answer Error (Path → Bool)) :
    Preserves P (deleteAll wrap within answer) := by
  intro disk hdisk
  rw [ensures_deleteAll]
  cases answer with
  | done => exact hwithin disk within hdisk fun _ => id
  | failed error kept =>
      apply hwithin disk (fun path => within path && !kept path) hdisk
      intro path hpath
      exact (Bool.and_eq_true_iff.mp hpath).1

variable [DecidableEq Path]

theorem preserves_put {path : Path}
    (hpath : ∀ disk entry, P disk → P (Function.update disk path entry))
    (entry : Option Entry) :
    Preserves P (put path entry : Attempt Path Entry Failure Unit) :=
  fun disk hdisk => hpath disk entry hdisk

theorem preserves_replace {path : Path}
    (hpath : ∀ disk entry, P disk → P (Function.update disk path entry))
    (entry : Option Entry) (answer : Answer Error (Option Entry)) :
    Preserves P (replace wrap path entry answer) := by
  cases answer with
  | done => exact preserves_put hpath entry
  | failed error left =>
      exact (preserves_put hpath left).bind fun _ => preserves_throw _

theorem preserves_delete {path : Path}
    (hpath : ∀ disk entry, P disk → P (Function.update disk path entry))
    (answer : Answer Error Unit) :
    Preserves P (delete wrap path answer) := by
  cases answer with
  | done => exact preserves_put hpath none
  | failed error left => exact preserves_throw _

theorem preserves_rename {source target : Path}
    (hsource : ∀ disk entry, P disk → P (Function.update disk source entry))
    (htarget : ∀ disk entry, P disk → P (Function.update disk target entry))
    (answer : Answer Error Unit) :
    Preserves P (rename wrap source target answer) := by
  cases answer with
  | done =>
      apply preserves_get.bind
      intro disk
      exact (preserves_put hsource none).bind fun _ => preserves_put htarget _
  | failed error left => exact preserves_throw _

end

end FallibleDisk
