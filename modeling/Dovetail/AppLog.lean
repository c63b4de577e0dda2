import Dovetail.CodeUnits
import Dovetail.FallibleSteps
import Mathlib.Tactic

/-!
# The rotated log of an application

`AppLog.write` appends a stamped record to one file.  A record that would pass
the cap first renames the file and those rotated before it, each to the next
number, and the renaming overwrites the last one.
-/

namespace Dovetail.Log

open CodeUnits FallibleSteps

abbrev Bytes := List UInt8

/-! ## Files in one folder -/

inductive FileSystemException where
  | pathNotFound (path : Text)
  deriving DecidableEq

/-- The folder of the log and the files that stand in it. -/
structure Folder where
  stands : Bool
  files : Text → Option Bytes

namespace Folder

/-- A folder without files. -/
def bare (stands : Bool) : Folder :=
  { stands
    files := fun _ => none }

def existsSync (folder : Folder) (path : Text) : Bool :=
  (folder.files path).isSome

def lengthSync (folder : Folder) (path : Text) : Nat :=
  ((folder.files path).getD []).length

/-- The folder above the file, with those above it. -/
def createParent (folder : Folder) : Folder := { folder with stands := true }

def put (folder : Folder) (path : Text) (content : Option Bytes) : Folder :=
  { folder with files := Function.update folder.files path content }

def appendSync (folder : Folder) (path : Text) (bytes : Bytes) :
    Except FileSystemException Folder :=
  if folder.stands then
    .ok (folder.put path (some ((folder.files path).getD [] ++ bytes)))
  else .error (.pathNotFound path)

/-- What stands at the target is replaced. -/
def renameSync (folder : Folder) (source target : Text) :
    Except FileSystemException Folder :=
  match folder.files source with
  | none => .error (.pathNotFound source)
  | some content => .ok ((folder.put source none).put target (some content))

@[simp] theorem stands_put (folder : Folder) (path : Text)
    (content : Option Bytes) :
    (folder.put path content).stands = folder.stands := rfl

@[simp] theorem files_put_self (folder : Folder) (path : Text)
    (content : Option Bytes) :
    (folder.put path content).files path = content := by
  simp [put]

theorem files_put_of_ne (folder : Folder) {path other : Text}
    (content : Option Bytes) (hother : other ≠ path) :
    (folder.put path content).files other = folder.files other := by
  simp [put, hother]

end Folder

/-! ## The log -/

/-- The settings; a log without a rotated file cannot be built. -/
structure AppLog where
  path : Text
  maxBytes : Int
  keep : Nat
  keeps : 1 ≤ keep

structure ArgumentError where
  value : Int
  name : Text
  message : Text
  deriving DecidableEq

/-- A line and the time the clock shows when it is written. -/
structure Entry where
  stamp : Text
  line : Text
  deriving DecidableEq

def Entry.record (entry : Entry) : Bytes :=
  utf8Encode (entry.stamp ++ text " " ++ entry.line ++ text "\n")

namespace AppLog

def ofArguments (path : Text) (maxBytes : Int := 1024 * 1024)
    (keep : Int := 3) : Except ArgumentError AppLog :=
  if hkeep : keep < 1 then
    .error
      { value := keep
        name := text "keep"
        message := text "must keep at least one file" }
  else
    .ok
      { path
        maxBytes
        keep := keep.toNat
        keeps := by omega }

/-- The file that was rotated so many times. -/
def rotated (log : AppLog) (index : Nat) : Text :=
  log.path ++ text "." ++ text (toString index)

/-- The body of the loop over the rotated files. -/
def shiftOne (log : AppLog) (index : Nat) (folder : Folder) :
    Except FileSystemException Folder :=
  if folder.existsSync (log.rotated index) then
    folder.renameSync (log.rotated index) (log.rotated (index + 1))
  else .ok folder

/-- The renames from an index down to the first. -/
def shift (log : AppLog) : Nat → Folder → Except FileSystemException Folder
  | 0, folder => .ok folder
  | index + 1, folder => do
      let folder ← log.shiftOne (index + 1) folder
      log.shift index folder

def rotate (log : AppLog) (folder : Folder) :
    Except FileSystemException Folder := do
  let folder ← log.shift (log.keep - 1) folder
  folder.renameSync log.path (log.rotated 1)

/-- The record would pass the cap of a file that has something in it. -/
def rotates (log : AppLog) (entry : Entry) (folder : Folder) : Bool :=
  decide (folder.lengthSync log.path ≠ 0 ∧
    log.maxBytes < folder.lengthSync log.path + entry.record.length)

def write (log : AppLog) (entry : Entry) (folder : Folder) :
    Except FileSystemException Folder := do
  let folder ←
    if folder.lengthSync log.path = 0 then .ok folder.createParent
    else if log.rotates entry folder then log.rotate folder
    else .ok folder
  folder.appendSync log.path entry.record

/-- The lines of a stream, or of calls that follow each other. -/
def writeAll (log : AppLog) (entries : List Entry) (folder : Folder) :
    Except FileSystemException Folder :=
  entries.foldlM (fun folder entry => log.write entry folder) folder

/-- A message under the name of its level. -/
def leveled (level message : Text) : Text :=
  level ++ text " app: " ++ message

def debug (message : Text) : Text := leveled (text "DEBUG") message

def info (message : Text) : Text := leveled (text "INFO") message

def warn (message : Text) : Text := leveled (text "WARN") message

def error (message : Text) : Text := leveled (text "ERROR") message

/-! ## What a reader finds -/

/-- The files of the log, the oldest first. -/
def contents (log : AppLog) (folder : Folder) : Bytes :=
  ((List.range log.keep).reverse.flatMap fun index =>
      (folder.files (log.rotated (index + 1))).getD []) ++
    (folder.files log.path).getD []

/-- The contents of the file at each rotation of a run. -/
def rotations (log : AppLog) : List Entry → Folder → List Bytes
  | [], _ => []
  | entry :: entries, folder =>
      (if log.rotates entry folder then (folder.files log.path).toList
        else []) ++
      match log.write entry folder with
      | .ok folder => log.rotations entries folder
      | .error _ => []

/-- What was written to a log, and what of it is there. -/
structure LosesOldest (log : AppLog) (records rotations : List Bytes)
    (folder : Folder) : Prop where
  suffix : log.contents folder <:+ records.flatten
  whole : ∃ count ≤ rotations.length,
    (rotations.take count).flatten ++ log.contents folder = records.flatten
  numbered : ∀ index, log.keep < index →
    folder.files (log.rotated index) = none
  bounded : ∀ path content, folder.files path = some content →
    (content.length : Int) ≤ log.maxBytes ∨ content ∈ records

theorem exists_ofArguments_eq_ok_iff (path : Text) (maxBytes keep : Int) :
    (∃ log, ofArguments path maxBytes keep = .ok log) ↔ 1 ≤ keep := by
  unfold ofArguments
  by_cases hkeep : keep < 1
  · simp [hkeep]
  · simp [hkeep]
    omega

/-! ## Names of rotated files -/

variable {log : AppLog} {folder : Folder}

theorem rotated_injective : Function.Injective log.rotated := by
  intro a b hsame
  exact text_toString_injective (List.append_cancel_left hsame)

theorem rotated_ne_path (index : Nat) : log.rotated index ≠ log.path := by
  intro hsame
  have hlength := congrArg List.length hsame
  have hdot : (text ".").length = 1 := by decide
  simp only [rotated, List.length_append, hdot] at hlength
  omega

/-! ## The chain of renames -/

/-- A rename leaves a gap for the file below it. -/
theorem exists_shiftOne_eq_ok {index : Nat}
    (hdense : folder.files (log.rotated index) = none →
      folder.files (log.rotated (index + 1)) = none) :
    ∃ opened, log.shiftOne index folder = .ok opened ∧
      opened.stands = folder.stands ∧
      opened.files (log.rotated (index + 1)) =
        folder.files (log.rotated index) ∧
      opened.files (log.rotated index) = none ∧
      ∀ path, path ≠ log.rotated index → path ≠ log.rotated (index + 1) →
        opened.files path = folder.files path := by
  have hne : log.rotated index ≠ log.rotated (index + 1) := by
    intro hsame
    have hindex := rotated_injective hsame
    omega
  cases hsource : folder.files (log.rotated index) with
  | none =>
      refine ⟨folder, ?_, rfl, hdense hsource, hsource, fun _ _ _ => rfl⟩
      simp [shiftOne, Folder.existsSync, hsource]
  | some content =>
      refine ⟨(folder.put (log.rotated index) none).put
        (log.rotated (index + 1)) (some content), ?_, rfl, ?_, ?_, ?_⟩
      · simp [shiftOne, Folder.existsSync, Folder.renameSync, hsource]
      · exact Folder.files_put_self _ _ _
      · rw [Folder.files_put_of_ne _ _ hne, Folder.files_put_self]
      · intro path hsourceNe htargetNe
        rw [Folder.files_put_of_ne _ _ htargetNe,
          Folder.files_put_of_ne _ _ hsourceNe]

/-- Where no file is missing below another, every file of the chain ends up
one number higher. -/
theorem exists_shift_eq_ok {last : Nat} (hdense : ∀ index < last,
      folder.files (log.rotated (index + 1)) = none →
        folder.files (log.rotated (index + 2)) = none) :
    ∃ shifted, log.shift last folder = .ok shifted ∧
      shifted.stands = folder.stands ∧
      (∀ index < last, shifted.files (log.rotated (index + 2)) =
        folder.files (log.rotated (index + 1))) ∧
      ∀ path, (∀ index ≤ last, path ≠ log.rotated (index + 1)) →
        shifted.files path = folder.files path := by
  induction last generalizing folder with
  | zero =>
      refine ⟨folder, rfl, rfl, ?_, fun _ _ => rfl⟩
      intro index hindex
      exact absurd hindex (Nat.not_lt_zero index)
  | succ last ih =>
      have hfirst :=
        exists_shiftOne_eq_ok (hdense last (Nat.lt_succ_self last))
      rcases hfirst with ⟨opened, hopened, hstands, hmoved, hgap, hothers⟩
      have hbelow {index : Nat} (hindex : index < last) :
          opened.files (log.rotated (index + 1)) =
            folder.files (log.rotated (index + 1)) := by
        apply hothers
        · intro hsame
          have hindexEq := rotated_injective hsame
          omega
        · intro hsame
          have hindexEq := rotated_injective hsame
          omega
      have hdenseOpened : ∀ index < last,
          opened.files (log.rotated (index + 1)) = none →
            opened.files (log.rotated (index + 2)) = none := by
        intro index hindex hnone
        by_cases hlast : index + 1 < last
        · rw [hbelow hlast]
          apply hdense index (by omega)
          rw [← hbelow hindex, hnone]
        · have hindexEq : index + 2 = last + 1 := by omega
          rw [hindexEq]
          exact hgap
      rcases ih hdenseOpened with ⟨shifted, hshifted, hstand, hmoves, hrest⟩
      refine ⟨shifted, ?_, hstand.trans hstands, ?_, ?_⟩
      · rw [shift, hopened]
        exact hshifted
      · intro index hindex
        by_cases hlast : index < last
        · rw [hmoves index hlast, hbelow hlast]
        · have hindexEq : index = last := by omega
          rw [hindexEq, ← hmoved]
          apply hrest
          intro other hother hsame
          have hotherEq := rotated_injective hsame
          omega
      · intro path hpath
        have hshift : shifted.files path = opened.files path := by
          apply hrest
          intro index hindex
          exact hpath index (by omega)
        rw [hshift]
        apply hothers
        · exact hpath last (by omega)
        · exact hpath (last + 1) (Nat.le_refl _)

/-! ## The files of a run -/

/-- Every record is in the files, those that were rotated and the current one,
and the last of the rotated ones stand behind it in their order. -/
structure Keeps (log : AppLog) (records rotations : List Bytes)
    (folder : Folder) : Prop where
  written : rotations.flatten ++ (folder.files log.path).getD [] =
    records.flatten
  stands : (folder.files log.path).isSome → folder.stands = true
  chain : ∀ index, folder.files (log.rotated (index + 1)) =
    if index < log.keep then rotations.reverse[index]? else none
  others : ∀ path, path ≠ log.path →
    (∀ index, path ≠ log.rotated (index + 1)) → folder.files path = none
  bounded : ∀ content ∈ rotations ++ (folder.files log.path).toList,
    (content.length : Int) ≤ log.maxBytes ∨ content ∈ records

theorem keeps_bare (log : AppLog) (stands : Bool) :
    log.Keeps [] [] (.bare stands) := by
  constructor
  case written => rfl
  case stands => exact fun hsome => absurd hsome (by simp [Folder.bare])
  case chain =>
    intro index
    simp [Folder.bare]
  case others => exact fun _ _ _ => rfl
  case bounded =>
    intro content hcontent
    simp [Folder.bare] at hcontent

variable {records rotations : List Bytes}

theorem Keeps.createParent (hkeeps : log.Keeps records rotations folder) :
    log.Keeps records rotations folder.createParent := by
  constructor
  case written => exact hkeeps.written
  case stands => exact fun _ => rfl
  case chain => exact hkeeps.chain
  case others => exact hkeeps.others
  case bounded => exact hkeeps.bounded

theorem Keeps.append (hkeeps : log.Keeps records rotations folder)
    (record : Bytes) (hstands : folder.stands = true)
    (hfits : (folder.files log.path).getD [] = [] ∨
      (((folder.files log.path).getD [] ++ record).length : Int) ≤
        log.maxBytes) :
    ∃ after, folder.appendSync log.path record = .ok after ∧
      log.Keeps (records ++ [record]) rotations after := by
  refine ⟨_, if_pos hstands, ?_⟩
  constructor
  case written =>
    simp only [Folder.files_put_self, Option.getD_some]
    rw [← List.append_assoc, hkeeps.written]
    simp
  case stands => exact fun _ => hstands
  case chain =>
    intro index
    rw [Folder.files_put_of_ne _ _ (rotated_ne_path (index + 1))]
    exact hkeeps.chain index
  case others =>
    intro path hpath hrotated
    rw [Folder.files_put_of_ne _ _ hpath]
    exact hkeeps.others path hpath hrotated
  case bounded =>
    intro content hcontent
    simp only [Folder.files_put_self, Option.toList_some, List.mem_append,
      List.mem_singleton] at hcontent ⊢
    rcases hcontent with hold | hnew
    · apply (hkeeps.bounded content (List.mem_append_left _ hold)).imp_right
      exact Or.inl
    · rw [hnew]
      apply hfits.symm.imp_right
      intro hempty
      rw [hempty]
      exact Or.inr rfl

theorem Keeps.rotate (hkeeps : log.Keeps records rotations folder)
    {content : Bytes} (hcontent : folder.files log.path = some content) :
    ∃ after, log.rotate folder = .ok after ∧
      after.stands = folder.stands ∧
      log.Keeps records (rotations ++ [content]) after := by
  have hkeep := log.keeps
  have hdense : ∀ index < log.keep - 1,
      folder.files (log.rotated (index + 1)) = none →
        folder.files (log.rotated (index + 2)) = none := by
    intro index hindex hnone
    rw [hkeeps.chain, if_pos (by omega), List.getElem?_eq_none_iff] at hnone
    have hlater : rotations.reverse[index + 1]? = none :=
      List.getElem?_eq_none (by omega)
    rw [hkeeps.chain (index + 1), hlater, ite_self]
  rcases exists_shift_eq_ok hdense with
    ⟨shifted, hshifted, hstands, hmoved, hrest⟩
  have hpath : shifted.files log.path = some content := by
    rw [hrest log.path fun index _ => (rotated_ne_path (index + 1)).symm]
    exact hcontent
  refine ⟨(shifted.put log.path none).put (log.rotated 1) (some content), ?_,
    hstands, ?_⟩
  · rw [AppLog.rotate, hshifted]
    simp [Folder.renameSync, hpath, Bind.bind, Except.bind]
  have hcleared : ((shifted.put log.path none).put (log.rotated 1)
      (some content)).files log.path = none := by
    rw [Folder.files_put_of_ne _ _ (rotated_ne_path 1).symm,
      Folder.files_put_self]
  have hother {path : Text} (hne : path ≠ log.path)
      (hfirst : path ≠ log.rotated 1) :
      ((shifted.put log.path none).put (log.rotated 1)
        (some content)).files path = shifted.files path := by
    rw [Folder.files_put_of_ne _ _ hfirst, Folder.files_put_of_ne _ _ hne]
  constructor
  case written =>
    rw [hcleared]
    have hwritten := hkeeps.written
    rw [hcontent] at hwritten
    simpa using hwritten
  case stands =>
    rw [hcleared]
    exact fun hsome => absurd hsome (by simp)
  case chain =>
    intro index
    rw [List.reverse_append, List.reverse_singleton, List.singleton_append]
    cases index with
    | zero =>
        rw [Folder.files_put_self, if_pos (by omega)]
        rfl
    | succ index =>
        have hne : log.rotated (index + 2) ≠ log.rotated 1 := by
          intro hsame
          have hindex := rotated_injective hsame
          omega
        rw [hother (rotated_ne_path (index + 2)) hne,
          List.getElem?_cons_succ]
        by_cases hindex : index + 1 < log.keep
        · rw [if_pos hindex, hmoved index (by omega), hkeeps.chain,
            if_pos (by omega)]
        · rw [if_neg hindex, hrest, hkeeps.chain (index + 1), if_neg hindex]
          intro other hle hsame
          have hotherEq := rotated_injective hsame
          omega
  case others =>
    intro path hne hrotated
    rw [hother hne (hrotated 0), hrest path fun index _ => hrotated index]
    exact hkeeps.others path hne hrotated
  case bounded =>
    intro other hmem
    rw [hcleared, Option.toList_none, List.append_nil] at hmem
    apply hkeeps.bounded
    rw [hcontent]
    exact hmem

/-- One call writes its record and rotates at most the current file. -/
theorem Keeps.write (hkeeps : log.Keeps records rotations folder)
    (entry : Entry) :
    ∃ after, log.write entry folder = .ok after ∧
      log.Keeps (records ++ [entry.record])
        (rotations ++ if log.rotates entry folder then
          (folder.files log.path).toList else []) after := by
  by_cases hzero : folder.lengthSync log.path = 0
  · have hrotates : log.rotates entry folder = false := by
      simp [rotates, hzero]
    have hempty : (folder.files log.path).getD [] = [] :=
      List.eq_nil_of_length_eq_zero hzero
    rcases hkeeps.createParent.append entry.record rfl
      (Or.inl hempty) with ⟨after, hafter, hkept⟩
    refine ⟨after, ?_, ?_⟩
    · rw [AppLog.write, if_pos hzero]
      exact hafter
    · simpa [hrotates] using hkept
  · have hsome : (folder.files log.path).isSome := by
      cases hcontent : folder.files log.path with
      | none => simp [Folder.lengthSync, hcontent] at hzero
      | some content => rfl
    have hstands := hkeeps.stands hsome
    cases hrotates : log.rotates entry folder with
    | true =>
        rcases Option.isSome_iff_exists.mp hsome with ⟨content, hcontent⟩
        rcases hkeeps.rotate hcontent with
          ⟨rotated, hrotated, hstand, hkept⟩
        have hcleared : (rotated.files log.path).getD [] = [] := by
          have hwritten := hkept.written
          have hbefore := hkeeps.written
          rw [hcontent, Option.getD_some] at hbefore
          rw [List.flatten_append, List.flatten_singleton, hbefore] at hwritten
          exact List.append_right_eq_self.mp hwritten
        rcases hkept.append entry.record (hstand.trans hstands)
          (Or.inl hcleared) with ⟨after, hafter, hkeptAfter⟩
        refine ⟨after, ?_, ?_⟩
        · rw [AppLog.write, if_neg hzero, hrotates, if_pos rfl, hrotated]
          exact hafter
        · rw [if_pos rfl, hcontent]
          exact hkeptAfter
    | false =>
        have hfits : (((folder.files log.path).getD [] ++
            entry.record).length : Int) ≤ log.maxBytes := by
          simp only [rotates, decide_eq_false_iff_not, not_and, not_lt]
            at hrotates
          rw [List.length_append]
          push_cast
          exact hrotates hzero
        rcases hkeeps.append entry.record hstands
          (Or.inr hfits) with ⟨after, hafter, hkept⟩
        refine ⟨after, ?_, ?_⟩
        · rw [AppLog.write, if_neg hzero, hrotates]
          exact hafter
        · simpa using hkept

theorem Keeps.writeAll (hkeeps : log.Keeps records rotations folder)
    (entries : List Entry) :
    ∃ after, log.writeAll entries folder = .ok after ∧
      log.Keeps (records ++ entries.map Entry.record)
        (rotations ++ log.rotations entries folder) after := by
  induction entries generalizing records rotations folder with
  | nil =>
      refine ⟨folder, rfl, ?_⟩
      simpa [AppLog.rotations] using hkeeps
  | cons entry entries ih =>
      rcases hkeeps.write entry with ⟨written, hwritten, hkept⟩
      rcases ih hkept with ⟨after, hafter, hkeptAfter⟩
      refine ⟨after, ?_, ?_⟩
      · rw [AppLog.writeAll, List.foldlM_cons, hwritten]
        exact hafter
      · simp only [AppLog.rotations, hwritten]
        simpa using hkeptAfter

/-! ## Reading the files back -/

/-- The last pieces of a list, counted from its end. -/
theorem flatMap_reverse_getD {α : Type} (pieces : List (List α))
    (count : Nat) :
    ((List.range count).reverse.flatMap fun index =>
      (pieces.reverse[index]?).getD []) =
        (pieces.drop (pieces.length - count)).flatten := by
  induction count with
  | zero => simp
  | succ count ih =>
      rw [List.range_succ, List.reverse_append, List.reverse_singleton,
        List.singleton_append, List.flatMap_cons, ih]
      by_cases hcount : count < pieces.length
      · have hdrop : pieces.length - (count + 1) < pieces.length := by omega
        have hnext : pieces.length - (count + 1) + 1 =
            pieces.length - count := by omega
        rw [List.getElem?_reverse hcount, List.drop_eq_getElem_cons hdrop,
          hnext, List.flatten_cons]
        have hindex : pieces.length - 1 - count =
            pieces.length - (count + 1) := by omega
        rw [hindex, List.getElem?_eq_getElem hdrop, Option.getD_some]
      · have hnone : pieces.reverse[count]? = none := by
          apply List.getElem?_eq_none
          rw [List.length_reverse]
          omega
        have hall : pieces.length - (count + 1) = pieces.length - count := by
          omega
        rw [hnone, hall]
        rfl

theorem Keeps.contents_eq (hkeeps : log.Keeps records rotations folder) :
    log.contents folder =
      (rotations.drop (rotations.length - log.keep)).flatten ++
        (folder.files log.path).getD [] := by
  rw [← flatMap_reverse_getD, contents, List.append_left_inj]
  apply List.flatMap_congr
  intro index hindex
  rw [List.mem_reverse, List.mem_range] at hindex
  rw [hkeeps.chain, if_pos hindex]

theorem Keeps.losesOldest (hkeeps : log.Keeps records rotations folder) :
    log.LosesOldest records rotations folder := by
  have hwhole :
      (rotations.take (rotations.length - log.keep)).flatten ++
        log.contents folder = records.flatten := by
    rw [hkeeps.contents_eq, ← List.append_assoc, ← List.flatten_append,
      List.take_append_drop]
    exact hkeeps.written
  constructor
  case suffix => exact ⟨_, hwhole⟩
  case whole => exact ⟨_, Nat.sub_le _ _, hwhole⟩
  case numbered =>
    intro index hindex
    cases index with
    | zero => exact absurd hindex (Nat.not_lt_zero _)
    | succ index =>
        rw [hkeeps.chain, if_neg (by omega)]
  case bounded =>
    intro path content hcontent
    apply hkeeps.bounded
    rw [List.mem_append]
    by_cases hpath : path = log.path
    · right
      rw [← hpath, hcontent]
      exact List.mem_singleton_self content
    · left
      by_cases hrotated : ∃ index, path = log.rotated (index + 1)
      · rcases hrotated with ⟨index, hindex⟩
        rw [hindex, hkeeps.chain] at hcontent
        by_cases hkept : index < log.keep
        · rw [if_pos hkept] at hcontent
          exact List.mem_reverse.mp (List.mem_of_getElem? hcontent)
        · rw [if_neg hkept] at hcontent
          cases hcontent
      · have hnone := hkeeps.others path hpath fun index hindex =>
          hrotated ⟨index, hindex⟩
        rw [hnone] at hcontent
        cases hcontent

/-- No sequence of calls fails, and whatever the limits are, the files show
the end of what was written: only whole rotated files are gone, the oldest
first. -/
theorem writeAll_losesOldest (log : AppLog) (stands : Bool)
    (entries : List Entry) :
    ∃ folder, log.writeAll entries (.bare stands) = .ok folder ∧
      log.LosesOldest (entries.map Entry.record)
        (log.rotations entries (.bare stands)) folder := by
  rcases (log.keeps_bare stands).writeAll entries with
    ⟨folder, hfolder, hkept⟩
  rw [List.nil_append, List.nil_append] at hkept
  exact ⟨folder, hfolder, hkept.losesOldest⟩

end AppLog

end Dovetail.Log
