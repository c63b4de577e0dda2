import Dovetail.FallibleDisk
import Dovetail.JsonCompact

/-!
# The key-value store

The store keeps a map in memory and a JSON object in a file.  A change goes
to a temporary file chunk by chunk; that is flushed, closed and renamed over
the file, the directory is synced, and then the map in memory changes.  The
two agree after every call exactly where no directory sync fails behind a
rename that changed the content.
-/

namespace Dovetail.Store

open CodeUnits
open FallibleDisk
open FallibleSteps
open JsonDocument
open TransitionRun

abbrev Bytes := List UInt8

abbrev Entries := List (Text × Value)

/-- How a number is written that was read from its spelling; written and
read once more it stays the same. -/
structure Numbers where
  canonical : Text → Text
  idempotent : ∀ spelling, canonical (canonical spelling) = canonical spelling

/-- A value in memory: its numbers are spelled as they are written. -/
abbrev Numbers.Held (numbers : Numbers) : Value → Prop :=
  Shaped fun spelling => numbers.canonical spelling = spelling

variable {Error : Type}

inductive StoreFailure (Error : Type) where
  | fileSystem (error : Error)
  | unsupportedObject

/-! ## The atomic file -/

structure WriteAnswers (Error : Type) where
  openSync : Answer Error (Option Bytes)
  writeFromSync : Nat → Answer Error Bytes
  flushSync : Answer Error Unit
  closeAbandoned : Answer Error Unit
  deleteAbandoned : Answer Error Unit
  closeSync : Answer Error Unit
  renameSync : Answer Error Unit
  syncDirectory : Answer Error Unit

namespace AtomicFile

abbrev FileAttempt (Error α : Type) :=
  Attempt Text Bytes (StoreFailure Error) α

def temporaryPath (path : Text) : Text := path ++ text ".tmp"

def writeFromSync (temporary : Text) (chunk : Bytes)
    (answer : Answer Error Bytes) : FileAttempt Error Unit := do
  let disk ← get
  match answer with
  | .done => put temporary ((disk temporary).map (· ++ chunk))
  | .failed error left => do
      put temporary ((disk temporary).map (· ++ left))
      throw (.fileSystem error)

/-- The chunks are produced one by one; where one cannot be, that throws. -/
def writeChunks (temporary : Text) (answers : Nat → Answer Error Bytes) :
    Nat → List (Option Bytes) → FileAttempt Error Unit
  | _, [] => pure ()
  | _, none :: _ => throw .unsupportedObject
  | index, some chunk :: rest => do
      writeFromSync temporary chunk (answers index)
      writeChunks temporary answers (index + 1) rest

def write (path : Text) (chunks : List (Option Bytes))
    (answers : WriteAnswers Error) : FileAttempt Error Unit := do
  let temporary := temporaryPath path
  replace .fileSystem temporary (some []) answers.openSync
  tryCatch
    (do
      writeChunks temporary answers.writeFromSync 0 chunks
      perform .fileSystem answers.flushSync)
    fun failure => do
      perform .fileSystem answers.closeAbandoned
      delete .fileSystem temporary answers.deleteAbandoned
      throw failure
  perform .fileSystem answers.closeSync
  rename .fileSystem temporary path answers.renameSync
  perform .fileSystem answers.syncDirectory

theorem temporaryPath_ne (path : Text) : temporaryPath path ≠ path := by
  intro hsame
  have hlength := congrArg List.length hsame
  simp [temporaryPath, text, units] at hlength

/-- Every chunk is produced and written. -/
def goesThrough (answers : Nat → Answer Error Bytes) :
    Nat → List (Option Bytes) → Bool
  | _, [] => true
  | _, none :: _ => false
  | index, some _ :: rest =>
      (answers index).isDone && goesThrough answers (index + 1) rest

def content (chunks : List (Option Bytes)) : Bytes :=
  chunks.flatMap fun chunk => chunk.getD []

/-- The write comes as far as the rename. -/
def replaces (chunks : List (Option Bytes)) (answers : WriteAnswers Error) :
    Bool :=
  answers.openSync.isDone &&
    goesThrough answers.writeFromSync 0 chunks &&
      answers.flushSync.isDone && answers.closeSync.isDone &&
        answers.renameSync.isDone

section

variable {disk : Disk Text Bytes} {temporary path : Text}
  {chunks : List (Option Bytes)}

@[simp] theorem ensures_writeFromSync {chunk : Bytes}
    {answer : Answer Error Bytes} {written : Bytes}
    (hwritten : disk temporary = some written)
    {returned : Unit → Disk Text Bytes → Prop}
    {thrown : StoreFailure Error → Disk Text Bytes → Prop} :
    Ensures (writeFromSync temporary chunk answer) disk returned thrown ↔
      answer.split
        (returned () (Function.update disk temporary (some (written ++ chunk))))
        (fun error left => thrown (.fileSystem error)
          (Function.update disk temporary (some (written ++ left)))) := by
  cases answer <;> simp [writeFromSync, hwritten]

/-- Only the temporary file changes while the chunks are written. -/
theorem ensures_writeChunks {answers : Nat → Answer Error Bytes}
    {index : Nat} {written : Bytes} (hwritten : disk temporary = some written) :
    Ensures (writeChunks temporary answers index chunks) disk
      (fun _ after => goesThrough answers index chunks = true ∧
        after = Function.update disk temporary
          (some (written ++ content chunks)))
      (fun _ after => goesThrough answers index chunks = false ∧
        ∃ left, after = Function.update disk temporary left) := by
  induction chunks generalizing index disk written with
  | nil => simp [writeChunks, goesThrough, content, ← hwritten]
  | cons chunk rest ih =>
      cases chunk with
      | none =>
          simp only [writeChunks, ensures_throw, goesThrough, true_and]
          exact ⟨disk temporary, by simp⟩
      | some bytes =>
          rw [writeChunks, ensures_bind, ensures_writeFromSync hwritten]
          cases hanswer : answers index with
          | failed error left =>
              simp only [Answer.split_failed, goesThrough, hanswer,
                Answer.isDone_failed, Bool.false_and, true_and]
              exact ⟨_, rfl⟩
          | done =>
              let longer : Disk Text Bytes :=
                Function.update disk temporary (some (written ++ bytes))
              have hlonger : longer temporary = some (written ++ bytes) := by
                simp [longer]
              have hrest : Ensures
                  (writeChunks temporary answers (index + 1) rest) longer _ _ :=
                ih hlonger
              simp only [Answer.split_done, goesThrough, hanswer,
                Answer.isDone_done, Bool.true_and]
              apply hrest.imp
              · rintro _ after ⟨hthrough, rfl⟩
                exact ⟨hthrough, by simp [longer, content]⟩
              · rintro failure after ⟨hfails, left, rfl⟩
                exact ⟨hfails, left, by simp [longer]⟩

/-- The file holds the whole content once the rename went well, and is the
old one before. -/
theorem ensures_write {answers : WriteAnswers Error} :
    Ensures (write path chunks answers) disk
      (fun _ after => replaces chunks answers = true ∧
        answers.syncDirectory.isDone = true ∧
          after path = some (content chunks))
      (fun _ after =>
        (replaces chunks answers = false ∧ after path = disk path) ∨
          (replaces chunks answers = true ∧
            answers.syncDirectory.isDone = false ∧
              after path = some (content chunks))) := by
  have hne := temporaryPath_ne path
  unfold write replaces
  cases answers.openSync with
  | failed error left => simp [hne.symm]
  | done =>
      let opened : Disk Text Bytes :=
        Function.update disk (temporaryPath path) (some [])
      have hopened : opened (temporaryPath path) = some [] := by
        simp [opened]
      have hchunks : Ensures (writeChunks (temporaryPath path)
          answers.writeFromSync 0 chunks) opened _ _ :=
        ensures_writeChunks hopened
      simp only [ensures_bind, ensures_replace, Answer.split_done,
        ensures_tryCatch]
      apply hchunks.imp
      · rintro _ after ⟨hthrough, rfl⟩
        cases answers.flushSync with
        | failed error left =>
            cases answers.closeAbandoned <;>
              cases answers.deleteAbandoned <;>
                simp [hne.symm, opened]
        | done =>
            cases answers.closeSync with
            | failed error left => simp [hne.symm, opened]
            | done =>
                cases answers.renameSync with
                | failed error left => simp [hne.symm, opened]
                | done =>
                    cases answers.syncDirectory <;> simp [hthrough]
      · rintro failure after ⟨hfails, left, rfl⟩
        cases answers.closeAbandoned <;>
          cases answers.deleteAbandoned <;>
            simp [hfails, opened, hne.symm]

end

end AtomicFile

/-! ## The store -/

namespace KeyValueStore

/-- JSON has no number that is not finite. -/
def jsonEncode (value : Value) : Option Text :=
  if everyNumber isNumber value then some (compact value) else none

def encodedChunk (separator : UInt16) (entry : Text × Value) :
    Option Bytes :=
  (jsonEncode entry.2).map fun value =>
    utf8Encode (separator :: (quoted entry.1 ++ colon :: value))

def encodedFrom (separator : UInt16) : Entries → List (Option Bytes)
  | [] =>
      [some (utf8Encode
        (if separator = leftBrace then [leftBrace, rightBrace]
          else [rightBrace]))]
  | entry :: rest => encodedChunk separator entry :: encodedFrom comma rest

def encoded (entries : Entries) : List (Option Bytes) :=
  encodedFrom leftBrace entries

inductive OpenFailure where
  | malformed
  | notAnObject (message path : Text)
  deriving DecidableEq

def jsonDecode (numbers : Numbers) (source : Text) : Option Value :=
  (decode source).map (renumber numbers.canonical)

def openStore (numbers : Numbers) (path : Text) (disk : Disk Text Bytes) :
    Except OpenFailure Entries :=
  match disk path with
  | none => .ok []
  | some bytes =>
      match (utf8Decode bytes).bind (jsonDecode numbers) with
      | some (.map entries) => .ok entries
      | some _ =>
          .error (.notAnObject (text "the store is not a JSON object") path)
      | none => .error .malformed

/-- The disk and what the store holds in memory. -/
structure Live where
  disk : Disk Text Bytes
  entries : Entries

/-- A call that changes the store, and how its file operations are
answered. -/
inductive Call (numbers : Numbers) (Error : Type) where
  | set (key : Text) (value : { value : Value // numbers.Held value })
      (answers : WriteAnswers Error)
  | remove (key : Text) (answers : WriteAnswers Error)

def save (path : Text) (live : Live) (next : Entries)
    (answers : WriteAnswers Error) : Live :=
  match (AtomicFile.write path (encoded next) answers).run live.disk with
  | .ok _ disk => ⟨disk, next⟩
  | .error _ disk => ⟨disk, live.entries⟩

def without (entries : Entries) (key : Text) : Entries :=
  entries.filter fun entry => entry.1 != key

def containsKey (entries : Entries) (key : Text) : Bool :=
  entries.any fun entry => entry.1 == key

variable {numbers : Numbers}

/-- The store after a call, whether that returned or threw. -/
def step (path : Text) (live : Live) (call : Call numbers Error) :
    Option Live :=
  match call with
  | .set key value answers =>
      some (save path live (put live.entries key value.val) answers)
  | .remove key answers =>
      if containsKey live.entries key then
        some (save path live (without live.entries key) answers)
      else some live

/-- Opening the file once more gives what the store holds. -/
def Agrees (numbers : Numbers) (path : Text) (live : Live) : Prop :=
  openStore numbers path live.disk = .ok live.entries

/-- The call has replaced the file with another map and then thrown, because
the directory could not be synced. -/
def runsAhead (live : Live) (call : Call numbers Error) : Prop :=
  let ahead := fun next (answers : WriteAnswers Error) =>
    AtomicFile.replaces (encoded next) answers = true ∧
      answers.syncDirectory.isDone = false ∧ next ≠ live.entries
  match call with
  | .set key value answers => ahead (put live.entries key value.val) answers
  | .remove key answers =>
      containsKey live.entries key = true ∧
        ahead (without live.entries key) answers

/-! ### Writing and reading the map -/

theorem goesThrough_cons {answers : Nat → Answer Error Bytes} {index : Nat}
    {chunk : Option Bytes} {rest : List (Option Bytes)}
    (hthrough : AtomicFile.goesThrough answers index (chunk :: rest) = true) :
    chunk.isSome ∧ AtomicFile.goesThrough answers (index + 1) rest = true := by
  cases chunk with
  | none => simp [AtomicFile.goesThrough] at hthrough
  | some bytes =>
      simp only [AtomicFile.goesThrough, Bool.and_eq_true] at hthrough
      exact ⟨rfl, hthrough.2⟩

theorem finite_of_goesThrough {answers : Nat → Answer Error Bytes}
    {index : Nat} {separator : UInt16} {entries : Entries}
    (hthrough : AtomicFile.goesThrough answers index
      (encodedFrom separator entries) = true) :
    ∀ entry ∈ entries, everyNumber isNumber entry.2 = true := by
  induction entries generalizing index separator with
  | nil => simp
  | cons entry rest ih =>
      obtain ⟨hchunk, hrest⟩ := goesThrough_cons hthrough
      have hentry : everyNumber isNumber entry.2 = true := by
        by_contra hnot
        simp [encodedChunk, jsonEncode, hnot] at hchunk
      exact List.forall_mem_cons.mpr ⟨hentry, ih hrest⟩

theorem encodedChunk_of_finite (separator : UInt16) {entry : Text × Value}
    (hfinite : everyNumber isNumber entry.2 = true) :
    encodedChunk separator entry =
      some (utf8Encode
        (separator :: (quoted entry.1 ++ colon :: compact entry.2))) := by
  simp [encodedChunk, jsonEncode, hfinite]

/-- An entry behind its separator. -/
theorem wellFormed_entry {separator : UInt16} {key : Text} {value : Value}
    (hseparator : isSurrogate separator = false) (hsound : Sound value) :
    wellFormed (separator :: (quoted key ++ colon :: compact value)) =
      true := by
  have hfirst : wellFormed [separator] = true := by
    simp [wellFormed, hseparator]
  have hcolon : wellFormed [colon] = true := by decide
  have hvalue := wellFormed_append_of hcolon (wellFormed_compact hsound)
  have hkey := wellFormed_append_of (wellFormed_quoted key) hvalue
  exact wellFormed_append_of hfirst hkey

theorem content_encodedFrom_comma {entries : Entries}
    (hsound : ∀ entry ∈ entries, Sound entry.2)
    (hfinite : ∀ entry ∈ entries, everyNumber isNumber entry.2 = true) :
    AtomicFile.content (encodedFrom comma entries) =
      utf8Encode ((if entries.isEmpty then [] else [comma]) ++
        compactFields entries ++ [rightBrace]) := by
  induction entries with
  | nil => rfl
  | cons entry rest ih =>
      have hrest := ih (fun other hother => hsound other (by simp [hother]))
        (fun other hother => hfinite other (by simp [hother]))
      have hentry : wellFormed
          (comma :: (quoted entry.1 ++ colon :: compact entry.2)) = true :=
        wellFormed_entry (by decide) (hsound entry (by simp))
      have hchunk := encodedChunk_of_finite comma
        (hfinite entry (by simp))
      have hcontent : AtomicFile.content (encodedFrom comma (entry :: rest)) =
          utf8Encode (comma :: (quoted entry.1 ++ colon :: compact entry.2)) ++
            AtomicFile.content (encodedFrom comma rest) := by
        simp [AtomicFile.content, encodedFrom, hchunk]
      rw [hcontent, hrest, ← utf8Encode_append hentry]
      simp [compactFields]

/-- The chunks together are the document of the map. -/
theorem content_encoded {entries : Entries}
    (hsound : ∀ entry ∈ entries, Sound entry.2)
    (hfinite : ∀ entry ∈ entries, everyNumber isNumber entry.2 = true) :
    AtomicFile.content (encoded entries) =
      utf8Encode (compact (.map entries)) := by
  cases entries with
  | nil => rfl
  | cons entry rest =>
      have hentry : wellFormed
          (leftBrace :: (quoted entry.1 ++ colon :: compact entry.2)) = true :=
        wellFormed_entry (by decide) (hsound entry (by simp))
      have hchunk := encodedChunk_of_finite leftBrace
        (hfinite entry (by simp))
      have hrest := content_encodedFrom_comma
        (fun other hother => hsound other (List.mem_cons_of_mem entry hother))
        (fun other hother => hfinite other (List.mem_cons_of_mem entry hother))
      have hcontent : AtomicFile.content (encoded (entry :: rest)) =
          utf8Encode
            (leftBrace :: (quoted entry.1 ++ colon :: compact entry.2)) ++
              AtomicFile.content (encodedFrom comma rest) := by
        simp [AtomicFile.content, encoded, encodedFrom, hchunk]
      rw [hcontent, hrest, ← utf8Encode_append hentry]
      simp [compact, compactFields]

/-- Distinct keys and numbers as they are written. -/
abbrev HeldEntries (numbers : Numbers) : Entries → Prop :=
  ShapedFields fun spelling => numbers.canonical spelling = spelling

theorem openStore_of_content {path : Text} {disk : Disk Text Bytes}
    {entries : Entries} (hheld : HeldEntries numbers entries)
    (hfinite : ∀ entry ∈ entries, everyNumber isNumber entry.2 = true)
    (hdisk : disk path = some (AtomicFile.content (encoded entries))) :
    openStore numbers path disk = .ok entries := by
  have hsound : ∀ entry ∈ entries, Sound entry.2 := fun entry hentry =>
    (hheld.values entry hentry).of_everyNumber (hfinite entry hentry)
  have hmap : Sound (.map entries) := .map hheld.keys hsound
  have hmark : (compact (.map entries)).head? ≠ some 0xFEFF := by
    rw [compact, List.head?_cons]
    decide
  have hbytes : utf8Decode (AtomicFile.content (encoded entries)) =
      some (compact (.map entries)) := by
    rw [content_encoded hsound hfinite]
    exact utf8Decode_utf8Encode_eq_self (wellFormed_compact hmap) hmark
  have hkeeps : renumber numbers.canonical (.map entries) = .map entries := by
    have hshaped : numbers.Held (.map entries) :=
      .map hheld.keys hheld.values
    exact hshaped.renumber_eq_self fun _ hsame => hsame
  simp [openStore, hdisk, hbytes, jsonDecode, decode_compact_map hmap, hkeeps]

theorem heldEntries_of_openStore {path : Text} {disk : Disk Text Bytes}
    {entries : Entries} (hopen : openStore numbers path disk = .ok entries) :
    HeldEntries numbers entries := by
  unfold openStore at hopen
  split at hopen
  · cases hopen
    exact ⟨by simp, by simp⟩
  · split at hopen
    · next hdecoded =>
        cases hopen
        obtain ⟨source, -, hjson⟩ := Option.bind_eq_some_iff.mp hdecoded
        obtain ⟨value, hdecode, hmap⟩ := Option.map_eq_some_iff.mp hjson
        have hsound := sound_of_decode hdecode
        have hheld : numbers.Held (renumber numbers.canonical value) :=
          hsound.renumber fun spelling _ => numbers.idempotent spelling
        rw [hmap] at hheld
        cases hheld with
        | map hkeys hvalues => exact ⟨hkeys, hvalues⟩
    · cases hopen
    · cases hopen

/-! ### What a call keeps -/

theorem heldEntries_without {entries : Entries}
    (hheld : HeldEntries numbers entries) (key : Text) :
    HeldEntries numbers (without entries key) := by
  constructor
  · have hsublist : (without entries key).Sublist entries :=
      List.filter_sublist
    exact (hsublist.map Prod.fst).nodup hheld.keys
  · intro entry hentry
    exact hheld.values entry (List.mem_of_mem_filter hentry)

theorem without_ne {entries : Entries} {key : Text}
    (hcontains : containsKey entries key = true) :
    without entries key ≠ entries := by
  intro hsame
  obtain ⟨entry, hentry, hkey⟩ := List.any_eq_true.mp hcontains
  rw [← hsame] at hentry
  have hother := List.of_mem_filter hentry
  simp [beq_iff_eq.mp hkey] at hother

section

variable {path : Text} {live next : Live} {entries : Entries}
  (answers : WriteAnswers Error)

theorem openStore_congr {disk after : Disk Text Bytes}
    (hsame : after path = disk path) :
    openStore numbers path after = openStore numbers path disk := by
  simp [openStore, hsame]

/-- Opening the file after a save. -/
theorem save_cases (hagrees : Agrees numbers path live)
    (hheld : HeldEntries numbers entries) :
    (AtomicFile.replaces (encoded entries) answers = false ∧
        Agrees numbers path (save path live entries answers) ∧
          (save path live entries answers).entries = live.entries) ∨
      (AtomicFile.replaces (encoded entries) answers = true ∧
        openStore numbers path (save path live entries answers).disk =
            .ok entries ∧
          (save path live entries answers).entries =
            if answers.syncDirectory.isDone then entries
            else live.entries) := by
  have hopen : ∀ after : Disk Text Bytes,
      AtomicFile.replaces (encoded entries) answers = true →
        after path = some (AtomicFile.content (encoded entries)) →
          openStore numbers path after = .ok entries := by
    intro after hreplaces hcontent
    simp only [AtomicFile.replaces, Bool.and_eq_true] at hreplaces
    exact openStore_of_content hheld
      (finite_of_goesThrough hreplaces.1.1.1.2) hcontent
  have hwrite : Ensures (AtomicFile.write path (encoded entries) answers)
      live.disk _ _ := AtomicFile.ensures_write
  unfold Ensures at hwrite
  unfold save
  cases hrun : (AtomicFile.write path (encoded entries) answers).run
      live.disk with
  | ok value after =>
      rw [hrun] at hwrite
      obtain ⟨hreplaces, hsync, hcontent⟩ := hwrite
      exact .inr ⟨hreplaces, hopen after hreplaces hcontent, by simp [hsync]⟩
  | error failure after =>
      rw [hrun] at hwrite
      rcases hwrite with ⟨hfails, hsame⟩ | ⟨hreplaces, hsync, hcontent⟩
      · exact .inl ⟨hfails, (openStore_congr hsame).trans hagrees, rfl⟩
      · exact .inr ⟨hreplaces, hopen after hreplaces hcontent,
          by simp [hsync]⟩

/-- A save keeps the agreement unless it replaces the file by another map
and throws. -/
theorem agrees_save_iff (hagrees : Agrees numbers path live)
    (hheld : HeldEntries numbers entries) :
    Agrees numbers path (save path live entries answers) ↔
      ¬ (AtomicFile.replaces (encoded entries) answers = true ∧
        answers.syncDirectory.isDone = false ∧ entries ≠ live.entries) := by
  rcases save_cases answers hagrees hheld with
    ⟨hfails, hkept, -⟩ | ⟨hreplaces, hopen, hentries⟩
  · simp [hfails, hkept]
  · unfold Agrees
    rw [hopen, hentries]
    cases answers.syncDirectory.isDone <;> simp [hreplaces]

theorem heldEntries_save (hagrees : Agrees numbers path live)
    (hlive : HeldEntries numbers live.entries)
    (hheld : HeldEntries numbers entries) :
    HeldEntries numbers (save path live entries answers).entries := by
  rcases save_cases answers hagrees hheld with
    ⟨-, -, hentries⟩ | ⟨-, -, hentries⟩
  · rw [hentries]
    exact hlive
  · rw [hentries]
    split
    · exact hheld
    · exact hlive

theorem step_total (path : Text) (live : Live)
    (call : Call numbers Error) : ∃ next, step path live call = some next := by
  cases call with
  | set key value answers => exact ⟨_, rfl⟩
  | remove key answers =>
      simp only [step]
      split
      · exact ⟨_, rfl⟩
      · exact ⟨_, rfl⟩

theorem agrees_step_iff {call : Call numbers Error}
    (hagrees : Agrees numbers path live)
    (hstep : step path live call = some next) :
    Agrees numbers path next ↔ ¬ runsAhead live call := by
  have hheld := heldEntries_of_openStore hagrees
  cases call with
  | set key value answers =>
      cases hstep
      exact agrees_save_iff answers hagrees
        (hheld.put value.property key)
  | remove key answers =>
      cases hcontains : containsKey live.entries key with
      | false =>
          simp only [step, hcontains, Bool.false_eq_true, if_false] at hstep
          cases hstep
          simp [runsAhead, hcontains, hagrees]
      | true =>
          simp only [step, hcontains, if_true] at hstep
          cases hstep
          simpa [runsAhead, hcontains] using
            agrees_save_iff answers hagrees (heldEntries_without hheld key)

/-- From the opened store on, disk and memory agree after every call exactly
when no call runs ahead. -/
theorem memory_agrees_throughout_iff {start : Live}
    (hopened : openStore numbers path start.disk = .ok start.entries)
    (calls : List (Call numbers Error)) :
    Throughout (step path) start (Agrees numbers path) calls ↔
      EveryStep (step path) start (fun live call => ¬ runsAhead live call)
        calls := by
  have hstart : Agrees numbers path start := hopened
  apply throughout_iff_everyStep hstart (step_total path)
  intro live call next hagrees hstep
  exact agrees_step_iff hagrees hstep

end

/-! ### A new store -/

def plainNumbers : Numbers where
  canonical := id
  idempotent := fun _ => rfl

def prefsPath : Text := text "/home/user/prefs.json"

def emptyStore : Live where
  disk := fun _ => none
  entries := []

/-- The theme is set, and the directory sync is answered as given. -/
def setTheme (syncDirectory : Answer Text Unit) : Call plainNumbers Text :=
  .set (text "theme") ⟨.string (text "dark"), .string⟩
    { openSync := .done
      writeFromSync := fun _ => .done
      flushSync := .done
      closeAbandoned := .done
      deleteAbandoned := .done
      closeSync := .done
      renameSync := .done
      syncDirectory }

theorem agrees_throughout_setTheme :
    openStore plainNumbers prefsPath emptyStore.disk = .ok [] ∧
      Throughout (step prefsPath) emptyStore (Agrees plainNumbers prefsPath)
        [setTheme .done] := by
  have hopened : openStore plainNumbers prefsPath emptyStore.disk =
      .ok emptyStore.entries := rfl
  refine ⟨hopened, (memory_agrees_throughout_iff hopened [setTheme .done]).mpr ?_⟩
  intro before call after live hcalls _
  have hmem : call ∈ [setTheme .done] := by simp [hcalls]
  obtain rfl := List.mem_singleton.mp hmem
  rintro ⟨-, hsync, -⟩
  cases hsync

/-- The rename went well, the sync of the directory did not. -/
theorem not_agrees_throughout_setTheme :
    ¬ Throughout (step prefsPath) emptyStore (Agrees plainNumbers prefsPath)
      [setTheme (.failed (text "cannot sync the directory") ())] := by
  intro hall
  have hopened : Agrees plainNumbers prefsPath emptyStore := rfl
  obtain ⟨next, hnext⟩ := step_total prefsPath emptyStore
    (setTheme (.failed (text "cannot sync the directory") ()))
  have hagrees := hall [setTheme (.failed _ ())] [] next rfl (by
    simp [hnext])
  apply (agrees_step_iff hopened hnext).mp hagrees
  exact ⟨rfl, rfl, List.cons_ne_nil _ _⟩

end KeyValueStore

end Dovetail.Store
