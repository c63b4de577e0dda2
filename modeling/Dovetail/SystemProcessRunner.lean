import Dovetail.CodeUnits
import Dovetail.TransitionRun
import Dovetail.Utf8Stream

/-!
# A process that is run to its end

`SystemProcessRunner.run` decodes both outputs of a child as they arrive,
writes the child's input, waits for its exit and then for the two decoders.
What the child and its pipes do comes in any order.
-/

namespace Dovetail.Process

open CodeUnits TransitionRun Utf8Stream

/-! ## Decoding an output -/

inductive Output where
  | stdout
  | stderr
  deriving DecidableEq

/-- The decoder of one output, with the bytes it holds. -/
structure Utf8Decoder where
  held : Bytes
  /-- A code point came out, so that no mark can follow. -/
  begun : Bool

namespace Utf8Decoder

def fresh : Utf8Decoder :=
  { held := []
    begun := false }

/-- The code points that are shown: a byte order mark at the start is not. -/
def shown (begun : Bool) (runes : List Char) : List Char :=
  if begun then runes else dropMark runes

def convertChunked (decoder : Utf8Decoder) (chunk : Bytes) :
    Option (Text × Utf8Decoder) :=
  (feed decoder.held chunk).map fun fed =>
    ((shown decoder.begun fed.1).flatMap units,
      { held := fed.2
        begun := decoder.begun || !fed.1.isEmpty })

end Utf8Decoder

/-- A `FormatException` of a decoder. -/
inductive FormatException where
  | invalidByte (output : Output)
  | unfinished (output : Output)
  deriving DecidableEq

inductive DrainPhase where
  | listens
  | finished
  | failed (failure : FormatException)
  deriving DecidableEq

/-- The future that an output's `forEach` completes. -/
structure Drain where
  decoder : Utf8Decoder
  /-- The list the outcome is joined from. -/
  kept : List Text
  /-- The chunks the callback was called with. -/
  told : List Text
  phase : DrainPhase

namespace Drain

def start : Drain :=
  { decoder := .fresh
    kept := []
    told := []
    phase := .listens }

def ended (drain : Drain) : Bool := decide (drain.phase ≠ .listens)

/-- The body of `forEach`; an empty chunk does not reach it. -/
def give (calls : Bool) (drain : Drain) (chunk : Text) : Drain :=
  if chunk = [] then drain
  else
    { drain with
      kept := drain.kept ++ [chunk]
      told := if calls then drain.told ++ [chunk] else drain.told }

/-- Bytes arrive; an error ends the subscription. -/
def add (calls : Bool) (output : Output) (drain : Drain) (bytes : Bytes) :
    Drain :=
  if drain.phase = .listens then
    match drain.decoder.convertChunked bytes with
    | none => { drain with phase := .failed (.invalidByte output) }
    | some converted =>
        { give calls drain converted.1 with decoder := converted.2 }
  else drain

/-- The pipe is closed. -/
def close (output : Output) (drain : Drain) : Drain :=
  if drain.phase = .listens then
    if drain.decoder.held = [] then { drain with phase := .finished }
    else { drain with phase := .failed (.unfinished output) }
  else drain

end Drain

/-! ## The run -/

structure ProcessOutcome where
  exitCode : Int
  stdout : Text
  stderr : Text
  deriving DecidableEq

/-- What the pipe to the child answers a write that is not taken with. -/
structure SocketException where
  message : Text
  deriving DecidableEq

inductive RunFailure where
  | stdin (failure : SocketException)
  | output (failure : FormatException)
  deriving DecidableEq

/-- The callbacks of a runner. -/
structure SystemProcessRunner where
  calls : Output → Bool

inductive ChildEvent where
  | writes (output : Output) (bytes : Bytes)
  | ends (output : Output)
  | flushes (refusal : Option SocketException)
  | closes (refusal : Option SocketException)
  | exits (code : Int)
  deriving DecidableEq

/-- A call to `run` behind the start of the process. -/
structure SystemRun where
  stdin : Option Text
  drains : Output → Drain
  /-- The output whose decoder failed first fails `Future.wait`. -/
  firstFailure : Option FormatException
  pipeEnds : Output → Bool
  flushed : Option (Option SocketException)
  closed : Option (Option SocketException)
  exitCode : Option Int

namespace SystemRun

def start (stdin : Option Text) : SystemRun :=
  { stdin
    drains := fun _ => .start
    firstFailure := none
    pipeEnds := fun _ => false
    flushed := none
    closed := none
    exitCode := none }

/-- The answer to what was written, when a text was given. -/
def flushAnswer (run : SystemRun) : Option (Option SocketException) :=
  if run.stdin.isSome then run.flushed else some none

/-- The answer the input ends with, once it is there. -/
def stdinAnswer (run : SystemRun) : Option (Option SocketException) :=
  match run.flushAnswer with
  | none => none
  | some (some refusal) => some (some refusal)
  | some none => run.closed

def drained (run : SystemRun) : Bool :=
  (run.drains .stdout).ended && (run.drains .stderr).ended

/-- What `run` has completed with so far. -/
def outcome (run : SystemRun) : Option (Except RunFailure ProcessOutcome) :=
  match run.stdinAnswer with
  | none => none
  | some (some refusal) => some (.error (.stdin refusal))
  | some none =>
      match run.exitCode with
      | none => none
      | some exitCode =>
          if run.drained then
            match run.firstFailure with
            | some failure => some (.error (.output failure))
            | none =>
                some (.ok
                  { exitCode
                    stdout := (run.drains .stdout).kept.flatten
                    stderr := (run.drains .stderr).kept.flatten })
          else none

/-- A drain moves, and the first one that fails is remembered. -/
def moveDrain (run : SystemRun) (output : Output) (drain : Drain) :
    SystemRun :=
  { run with
    drains := Function.update run.drains output drain
    firstFailure :=
      match run.firstFailure, drain.phase with
      | none, .failed failure => some failure
      | first, _ => first }

def step (runner : SystemProcessRunner) (run : SystemRun)
    (event : ChildEvent) : Option SystemRun :=
  match event with
  | .writes output bytes =>
      if run.pipeEnds output then none
      else some (run.moveDrain output
        ((run.drains output).add (runner.calls output) output bytes))
  | .ends output =>
      if run.pipeEnds output then none
      else
        some
          { run.moveDrain output ((run.drains output).close output) with
            pipeEnds := Function.update run.pipeEnds output true }
  | .flushes refusal =>
      if run.stdin.isSome ∧ run.flushed = none then
        some { run with flushed := some refusal }
      else none
  | .closes refusal =>
      if run.flushAnswer = some none ∧ run.closed = none then
        some { run with closed := some refusal }
      else none
  | .exits code =>
      if run.exitCode = none then some { run with exitCode := some code }
      else none

end SystemRun

/-! ## What the child did -/

/-- Everything the child wrote to an output. -/
def written (output : Output) (events : List ChildEvent) : Bytes :=
  events.flatMap fun event =>
    match event with
    | .writes other bytes => if other = output then bytes else []
    | _ => []

/-- The child and its pipes have nothing more to do. -/
structure Over (events : List ChildEvent) (run : SystemRun) : Prop where
  exits : ∃ code, .exits code ∈ events
  ends : ∀ output, .ends output ∈ events
  stdin : run.stdinAnswer.isSome

/-- The pipe took the input: neither the flush nor the close failed. -/
def Accepted (events : List ChildEvent) : Prop :=
  ∀ refusal, .flushes (some refusal) ∉ events ∧
    .closes (some refusal) ∉ events

/-- The run returned the child's exit code and the chunks the callbacks were
given. -/
def Reports (runner : SystemProcessRunner) (events : List ChildEvent)
    (run : SystemRun) : Prop :=
  ∃ reported, run.outcome = some (.ok reported) ∧
    .exits reported.exitCode ∈ events ∧
    (runner.calls .stdout = true →
      reported.stdout = (run.drains .stdout).told.flatten) ∧
    (runner.calls .stderr = true →
      reported.stderr = (run.drains .stderr).told.flatten)

/-! ## One output -/

/-- The code points that came out of the bytes so far. -/
structure Decoded (bytes : Bytes) (drain : Drain) (runes : List Char)
    (held : Bytes) : Prop where
  fed : feed [] bytes = some (runes, held)
  begun : drain.decoder.begun = !runes.isEmpty
  text : drain.kept.flatten = (dropMark runes).flatMap units

/-- What a drain knows of the bytes it was given. -/
structure DrainSound (calls : Bool) (bytes : Bytes) (pipeEnded : Bool)
    (drain : Drain) : Prop where
  told : calls = true → drain.told = drain.kept
  listens : drain.phase = .listens → pipeEnded = false ∧
    ∃ runes, Decoded bytes drain runes drain.decoder.held
  finished : drain.phase = .finished → pipeEnded = true ∧
    ∃ runes, Decoded bytes drain runes []
  failed : ∀ failure, drain.phase = .failed failure →
    feed [] bytes = none ∨ (pipeEnded = true ∧ ¬ IsUtf8 bytes)

section Drains

variable {calls pipeEnded : Bool} {bytes : Bytes} {drain : Drain}

theorem drainSound_start : DrainSound calls [] false .start := by
  constructor
  case told => exact fun _ => rfl
  case listens => exact fun _ => ⟨rfl, [], rfl, rfl, rfl⟩
  case finished => exact fun hphase => absurd hphase (by simp [Drain.start])
  case failed =>
    intro failure hphase
    simp [Drain.start] at hphase

theorem dropMark_append {before : List Char} (hbefore : before ≠ [])
    (after : List Char) :
    dropMark (before ++ after) = dropMark before ++ after := by
  cases before with
  | nil => exact absurd rfl hbefore
  | cons rune before =>
      simp only [List.cons_append, dropMark]
      split
      · rfl
      · rfl

/-- What a chunk shows goes on where the one before stopped. -/
theorem dropMark_append_shown (before after : List Char) :
    dropMark before ++ Utf8Decoder.shown (!before.isEmpty) after =
      dropMark (before ++ after) := by
  cases before with
  | nil => rfl
  | cons rune before =>
      rw [dropMark_append (List.cons_ne_nil rune before)]
      rfl

theorem flatten_kept_give (chunk : Text) :
    (drain.give calls chunk).kept.flatten = drain.kept.flatten ++ chunk := by
  unfold Drain.give
  by_cases hempty : chunk = []
  · simp [hempty]
  · simp [hempty]

theorem told_give (chunk : Text)
    (htold : calls = true → drain.told = drain.kept) :
    calls = true →
      (drain.give calls chunk).told = (drain.give calls chunk).kept := by
  intro hcalls
  unfold Drain.give
  by_cases hempty : chunk = []
  · simp [hempty, htold hcalls]
  · simp [hempty, htold hcalls, hcalls]

theorem phase_give (chunk : Text) :
    (drain.give calls chunk).phase = drain.phase := by
  unfold Drain.give
  by_cases hempty : chunk = []
  · simp [hempty]
  · simp [hempty]

theorem feed_eq_none_append (hnone : feed [] bytes = none) (more : Bytes) :
    feed [] (bytes ++ more) = none := by
  rw [feed_append, hnone]
  rfl

theorem not_isUtf8_of_feed_eq_none (hnone : feed [] bytes = none) :
    ¬ IsUtf8 bytes := by
  rw [isUtf8_iff, hnone]
  simp

theorem DrainSound.add (hsound : DrainSound calls bytes false drain)
    (output : Output) (more : Bytes) :
    DrainSound calls (bytes ++ more) false
      (drain.add calls output more) := by
  unfold Drain.add
  by_cases hlistens : drain.phase = .listens
  · rw [if_pos hlistens]
    rcases hsound.listens hlistens with ⟨-, runes, hdecoded⟩
    have hfed : feed [] (bytes ++ more) =
        (feed drain.decoder.held more).map fun fed =>
          (runes ++ fed.1, fed.2) := by
      rw [feed_append, hdecoded.fed]
      rfl
    unfold Utf8Decoder.convertChunked
    cases hmore : feed drain.decoder.held more with
    | none =>
        rw [hmore] at hfed
        constructor
        case told => exact hsound.told
        case listens => exact fun hphase => absurd hphase (by simp)
        case finished => exact fun hphase => absurd hphase (by simp)
        case failed => exact fun _ _ => Or.inl hfed
    | some fed =>
        rw [hmore] at hfed
        simp only [Option.map_some]
        constructor
        case told => exact told_give _ hsound.told
        case listens =>
          intro _
          refine ⟨rfl, runes ++ fed.1, hfed, ?_, ?_⟩
          · rw [hdecoded.begun]
            cases runes with
            | nil => rfl
            | cons rune runes => rfl
          · rw [← dropMark_append_shown, List.flatMap_append,
              ← hdecoded.text, ← hdecoded.begun]
            exact flatten_kept_give _
        case finished =>
          intro hphase
          rw [phase_give, hlistens] at hphase
          cases hphase
        case failed =>
          intro failure hphase
          rw [phase_give, hlistens] at hphase
          cases hphase
  · rw [if_neg hlistens]
    constructor
    case told => exact hsound.told
    case listens => exact fun hphase => absurd hphase hlistens
    case finished =>
      intro hphase
      exact absurd (hsound.finished hphase).1 (by simp)
    case failed =>
      intro failure hphase
      rcases hsound.failed failure hphase with hnone | hended
      · exact Or.inl (feed_eq_none_append hnone more)
      · exact absurd hended.1 (by simp)

theorem DrainSound.close (hsound : DrainSound calls bytes false drain)
    (output : Output) :
    DrainSound calls bytes true (drain.close output) := by
  unfold Drain.close
  by_cases hlistens : drain.phase = .listens
  · rw [if_pos hlistens]
    rcases hsound.listens hlistens with ⟨-, runes, hdecoded⟩
    by_cases hheld : drain.decoder.held = []
    · rw [if_pos hheld]
      constructor
      case told => exact hsound.told
      case listens => exact fun hphase => absurd hphase (by simp)
      case finished =>
        intro _
        rw [hheld] at hdecoded
        exact ⟨rfl, runes, hdecoded.fed, hdecoded.begun, hdecoded.text⟩
      case failed => exact fun _ hphase => absurd hphase (by simp)
    · rw [if_neg hheld]
      constructor
      case told => exact hsound.told
      case listens => exact fun hphase => absurd hphase (by simp)
      case finished => exact fun hphase => absurd hphase (by simp)
      case failed =>
        intro failure hphase
        right
        refine ⟨rfl, ?_⟩
        rw [isUtf8_iff, hdecoded.fed]
        simp [hheld]
  · rw [if_neg hlistens]
    constructor
    case told => exact hsound.told
    case listens => exact fun hphase => absurd hphase hlistens
    case finished =>
      intro hphase
      exact absurd (hsound.finished hphase).1 (by simp)
    case failed =>
      intro failure hphase
      rcases hsound.failed failure hphase with hnone | hended
      · exact Or.inl hnone
      · exact absurd hended.1 (by simp)

/-- Behind a closed pipe the drain has failed exactly where the bytes are no
UTF-8. -/
theorem DrainSound.finished_iff (hsound : DrainSound calls bytes true drain) :
    drain.phase = .finished ↔ IsUtf8 bytes := by
  cases hphase : drain.phase with
  | listens => exact absurd (hsound.listens hphase).1 (by simp)
  | finished =>
      rcases (hsound.finished hphase).2 with ⟨runes, hdecoded⟩
      exact iff_of_true rfl (isUtf8_iff.mpr ⟨runes, hdecoded.fed⟩)
  | failed failure =>
      apply iff_of_false
      · simp
      · rcases hsound.failed failure hphase with hnone | hended
        · exact not_isUtf8_of_feed_eq_none hnone
        · exact hended.2

end Drains

/-! ## The run as a whole -/

/-- What a run knows of what the child and its pipes did. -/
structure RunSound (runner : SystemProcessRunner) (events : List ChildEvent)
    (run : SystemRun) : Prop where
  drains : ∀ output, DrainSound (runner.calls output)
    (written output events) (run.pipeEnds output) (run.drains output)
  pipeEnds : ∀ output, run.pipeEnds output = true ↔ .ends output ∈ events
  failures : run.firstFailure = none ↔
    ∀ output failure, (run.drains output).phase ≠ .failed failure
  exits : ∀ code, run.exitCode = some code ↔ .exits code ∈ events
  flushes : ∀ refusal, run.flushed = some refusal ↔ .flushes refusal ∈ events
  closes : ∀ refusal, run.closed = some refusal ↔ .closes refusal ∈ events
  given : run.flushed.isSome → run.stdin.isSome
  asked : run.closed.isSome → run.flushAnswer = some none

section Runs

variable {runner : SystemProcessRunner} {stdin : Option Text}
variable {events : List ChildEvent} {run next : SystemRun}

theorem written_concat (output : Output) (event : ChildEvent) :
    written output (events ++ [event]) =
      written output events ++ written output [event] := by
  simp [written]

theorem runSound_start : RunSound runner [] (.start stdin) := by
  constructor
  case drains => exact fun _ => drainSound_start
  case pipeEnds => simp [SystemRun.start]
  case failures => simp [SystemRun.start, Drain.start]
  case exits => simp [SystemRun.start]
  case flushes => simp [SystemRun.start]
  case closes => simp [SystemRun.start]
  case given => simp [SystemRun.start]
  case asked => simp [SystemRun.start]

/-- The first failure stays, and none is overlooked. -/
theorem failures_moveDrain (hsound : RunSound runner events run)
    {output : Output} {drain : Drain}
    (hkeeps : ∀ failure, (run.drains output).phase = .failed failure →
      drain.phase = .failed failure) :
    (run.moveDrain output drain).firstFailure = none ↔
      ∀ other failure,
        ((run.moveDrain output drain).drains other).phase ≠
          .failed failure := by
  have hother : (∀ other failure,
      ((run.moveDrain output drain).drains other).phase ≠ .failed failure) ↔
        (∀ failure, drain.phase ≠ .failed failure) ∧
          ∀ other failure, (run.drains other).phase ≠ .failed failure := by
    constructor
    · intro hnone
      have hdrain : ∀ failure, drain.phase ≠ .failed failure := by
        simpa [SystemRun.moveDrain] using hnone output
      refine ⟨hdrain, ?_⟩
      intro other failure
      by_cases hsame : other = output
      · rw [hsame]
        exact fun hphase => hdrain failure (hkeeps failure hphase)
      · simpa [SystemRun.moveDrain, hsame] using hnone other failure
    · intro hnone other failure
      by_cases hsame : other = output
      · simpa [SystemRun.moveDrain, hsame] using hnone.1 failure
      · simpa [SystemRun.moveDrain, hsame] using hnone.2 other failure
  rw [hother, ← hsound.failures]
  unfold SystemRun.moveDrain
  cases run.firstFailure with
  | some failure => simp
  | none =>
      cases drain.phase with
      | failed failure => simp
      | _ => simp

theorem RunSound.writes (hsound : RunSound runner events run)
    {output : Output} {bytes : Bytes}
    (hstep : run.step runner (.writes output bytes) = some next) :
    RunSound runner (events ++ [.writes output bytes]) next := by
  simp only [SystemRun.step] at hstep
  by_cases hended : run.pipeEnds output = true
  · rw [if_pos hended] at hstep
    cases hstep
  rw [if_neg hended] at hstep
  cases hstep
  have hopen : run.pipeEnds output = false := Bool.eq_false_iff.mpr hended
  constructor
  case drains =>
    intro other
    by_cases hsame : other = output
    · subst hsame
      have hdrain := hsound.drains other
      rw [hopen] at hdrain
      have hadded := hdrain.add other bytes
      simpa [SystemRun.moveDrain, written_concat, written, hopen] using hadded
    · have hdrain := hsound.drains other
      have hne : ¬ output = other := fun hback => hsame hback.symm
      simpa [SystemRun.moveDrain, written_concat, written, hsame, hne]
        using hdrain
  case pipeEnds => simpa [SystemRun.moveDrain] using hsound.pipeEnds
  case failures =>
    apply failures_moveDrain hsound
    intro failure hphase
    simp [Drain.add, hphase]
  case exits => simpa [SystemRun.moveDrain] using hsound.exits
  case flushes => simpa [SystemRun.moveDrain] using hsound.flushes
  case closes => simpa [SystemRun.moveDrain] using hsound.closes
  case given => exact hsound.given
  case asked => exact hsound.asked

theorem RunSound.ends (hsound : RunSound runner events run)
    {output : Output} (hstep : run.step runner (.ends output) = some next) :
    RunSound runner (events ++ [.ends output]) next := by
  simp only [SystemRun.step] at hstep
  by_cases hended : run.pipeEnds output = true
  · rw [if_pos hended] at hstep
    cases hstep
  rw [if_neg hended] at hstep
  cases hstep
  have hopen : run.pipeEnds output = false := Bool.eq_false_iff.mpr hended
  constructor
  case drains =>
    intro other
    by_cases hsame : other = output
    · subst hsame
      have hdrain := hsound.drains other
      rw [hopen] at hdrain
      have hclosed := hdrain.close other
      simpa [SystemRun.moveDrain, written_concat, written] using hclosed
    · have hdrain := hsound.drains other
      simpa [SystemRun.moveDrain, written_concat, written, hsame]
        using hdrain
  case pipeEnds =>
    intro other
    by_cases hsame : other = output
    · simp [hsame]
    · simpa [hsame] using hsound.pipeEnds other
  case failures =>
    apply failures_moveDrain hsound
    intro failure hphase
    simp [Drain.close, hphase]
  case exits => simpa [SystemRun.moveDrain] using hsound.exits
  case flushes => simpa [SystemRun.moveDrain] using hsound.flushes
  case closes => simpa [SystemRun.moveDrain] using hsound.closes
  case given => exact hsound.given
  case asked => exact hsound.asked

theorem RunSound.flush (hsound : RunSound runner events run)
    {refusal : Option SocketException}
    (hstep : run.step runner (.flushes refusal) = some next) :
    RunSound runner (events ++ [.flushes refusal]) next := by
  simp only [SystemRun.step] at hstep
  by_cases hgiven : run.stdin.isSome = true ∧ run.flushed = none
  · rw [if_pos hgiven] at hstep
    cases hstep
    have hnone : ∀ other, .flushes other ∉ events := by
      intro other hmem
      rw [← hsound.flushes, hgiven.2] at hmem
      cases hmem
    constructor
    case drains =>
      intro output
      simpa [written_concat, written] using hsound.drains output
    case pipeEnds => simpa using hsound.pipeEnds
    case failures => exact hsound.failures
    case exits => simpa using hsound.exits
    case flushes =>
      intro other
      simp only [Option.some.injEq, List.mem_append, hnone other, false_or,
        List.mem_singleton, ChildEvent.flushes.injEq]
      exact eq_comm
    case closes => simpa using hsound.closes
    case given => exact fun _ => hgiven.1
    case asked =>
      intro hclosed
      have hanswer := hsound.asked hclosed
      simp [SystemRun.flushAnswer, hgiven.1, hgiven.2] at hanswer
  · rw [if_neg hgiven] at hstep
    cases hstep

theorem RunSound.close (hsound : RunSound runner events run)
    {refusal : Option SocketException}
    (hstep : run.step runner (.closes refusal) = some next) :
    RunSound runner (events ++ [.closes refusal]) next := by
  simp only [SystemRun.step] at hstep
  by_cases hasked : run.flushAnswer = some none ∧ run.closed = none
  · rw [if_pos hasked] at hstep
    cases hstep
    have hnone : ∀ other, .closes other ∉ events := by
      intro other hmem
      rw [← hsound.closes, hasked.2] at hmem
      cases hmem
    constructor
    case drains =>
      intro output
      simpa [written_concat, written] using hsound.drains output
    case pipeEnds => simpa using hsound.pipeEnds
    case failures => exact hsound.failures
    case exits => simpa using hsound.exits
    case flushes => simpa using hsound.flushes
    case closes =>
      intro other
      simp only [Option.some.injEq, List.mem_append, hnone other, false_or,
        List.mem_singleton, ChildEvent.closes.injEq]
      exact eq_comm
    case given => exact hsound.given
    case asked => exact fun _ => hasked.1
  · rw [if_neg hasked] at hstep
    cases hstep

theorem RunSound.exit (hsound : RunSound runner events run) {code : Int}
    (hstep : run.step runner (.exits code) = some next) :
    RunSound runner (events ++ [.exits code]) next := by
  simp only [SystemRun.step] at hstep
  by_cases hruns : run.exitCode = none
  · rw [if_pos hruns] at hstep
    cases hstep
    have hnone : ∀ other, .exits other ∉ events := by
      intro other hmem
      rw [← hsound.exits, hruns] at hmem
      cases hmem
    constructor
    case drains =>
      intro output
      simpa [written_concat, written] using hsound.drains output
    case pipeEnds => simpa using hsound.pipeEnds
    case failures => exact hsound.failures
    case exits =>
      intro other
      simp only [Option.some.injEq, List.mem_append, hnone other, false_or,
        List.mem_singleton, ChildEvent.exits.injEq]
      exact eq_comm
    case flushes => simpa using hsound.flushes
    case closes => simpa using hsound.closes
    case given => exact hsound.given
    case asked => exact hsound.asked
  · rw [if_neg hruns] at hstep
    cases hstep

theorem RunSound.step (hsound : RunSound runner events run)
    {event : ChildEvent} (hstep : run.step runner event = some next) :
    RunSound runner (events ++ [event]) next := by
  cases event with
  | writes output bytes => exact hsound.writes hstep
  | ends output => exact hsound.ends hstep
  | flushes refusal => exact hsound.flush hstep
  | closes refusal => exact hsound.close hstep
  | exits code => exact hsound.exit hstep

theorem runSound_of_run
    (hrun : TransitionRun.run (SystemRun.step runner) (.start stdin) events =
      some run) : RunSound runner events run := by
  induction events using List.reverseRecOn generalizing run with
  | nil =>
      cases hrun
      exact runSound_start
  | append_singleton events event ih =>
      rcases run_concat.mp hrun with ⟨previous, hprevious, hlast⟩
      exact (ih hprevious).step hlast

theorem RunSound.stdinAnswer_eq (hsound : RunSound runner events run)
    (hanswer : run.stdinAnswer.isSome) :
    run.stdinAnswer = some none ↔ Accepted events := by
  constructor
  · intro hnone refusal
    constructor
    · intro hmem
      have hflushed := (hsound.flushes _).mpr hmem
      have hgiven := hsound.given (by rw [hflushed]; rfl)
      simp [SystemRun.stdinAnswer, SystemRun.flushAnswer, hgiven, hflushed]
        at hnone
    · intro hmem
      have hclosed := (hsound.closes _).mpr hmem
      have hasked := hsound.asked (by rw [hclosed]; rfl)
      simp [SystemRun.stdinAnswer, hasked, hclosed] at hnone
  · intro haccepted
    rcases Option.isSome_iff_exists.mp hanswer with ⟨answer, hsome⟩
    cases answer with
    | none => exact hsome
    | some refusal =>
        have hrefused : run.flushed = some (some refusal) ∨
            run.closed = some (some refusal) := by
          unfold SystemRun.stdinAnswer at hsome
          cases hflush : run.flushAnswer with
          | none => simp [hflush] at hsome
          | some flushed =>
              cases flushed with
              | some other =>
                  rw [hflush] at hsome
                  left
                  unfold SystemRun.flushAnswer at hflush
                  by_cases hgiven : run.stdin.isSome = true
                  · rw [if_pos hgiven] at hflush
                    rw [hflush]
                    exact hsome
                  · rw [if_neg hgiven] at hflush
                    cases hflush
              | none =>
                  rw [hflush] at hsome
                  exact Or.inr hsome
        rcases hrefused with hflushed | hclosed
        · exact absurd ((hsound.flushes _).mp hflushed) (haccepted refusal).1
        · exact absurd ((hsound.closes _).mp hclosed) (haccepted refusal).2

theorem RunSound.finished_iff (hsound : RunSound runner events run)
    (hends : ∀ output, .ends output ∈ events) (output : Output) :
    (run.drains output).phase = .finished ↔
      IsUtf8 (written output events) := by
  have hdrain := hsound.drains output
  rw [(hsound.pipeEnds output).mpr (hends output)] at hdrain
  exact hdrain.finished_iff

theorem RunSound.drained_of_ends (hsound : RunSound runner events run)
    (hends : ∀ output, .ends output ∈ events) : run.drained = true := by
  have hended (output : Output) : (run.drains output).ended = true := by
    have hdrain := hsound.drains output
    rw [(hsound.pipeEnds output).mpr (hends output)] at hdrain
    rw [Drain.ended, decide_eq_true_eq]
    intro hlistens
    exact absurd (hdrain.listens hlistens).1 (by simp)
  simp [SystemRun.drained, hended]

theorem RunSound.firstFailure_eq_none_iff
    (hsound : RunSound runner events run)
    (hends : ∀ output, .ends output ∈ events) :
    run.firstFailure = none ↔
      ∀ output, IsUtf8 (written output events) := by
  rw [hsound.failures]
  simp only [← hsound.finished_iff hends]
  constructor
  · intro hnone output
    have hdrain := hsound.drains output
    rw [(hsound.pipeEnds output).mpr (hends output)] at hdrain
    cases hphase : (run.drains output).phase with
    | listens => exact absurd (hdrain.listens hphase).1 (by simp)
    | finished => rfl
    | failed failure => exact absurd hphase (hnone output failure)
  · intro hall output failure
    rw [hall output]
    simp

/-- Once the child and its pipes are done, the call reports them exactly when
both outputs were UTF-8 and the input was taken; else it throws. -/
theorem reports_iff
    (hrun : TransitionRun.run (SystemRun.step runner) (.start stdin) events =
      some run) (hover : Over events run) :
    Reports runner events run ↔
      (∀ output, IsUtf8 (written output events)) ∧ Accepted events := by
  have hsound := runSound_of_run hrun
  rcases hover.exits with ⟨code, hcode⟩
  have hexit := (hsound.exits code).mpr hcode
  have hdrained := hsound.drained_of_ends hover.ends
  rw [← hsound.firstFailure_eq_none_iff hover.ends,
    ← hsound.stdinAnswer_eq hover.stdin]
  rcases Option.isSome_iff_exists.mp hover.stdin with ⟨answer, hanswer⟩
  cases answer with
  | some refusal =>
      apply iff_of_false
      · intro hreports
        rcases hreports with ⟨reported, houtcome, -⟩
        simp [SystemRun.outcome, hanswer] at houtcome
      · simp [hanswer]
  | none =>
      cases hfirst : run.firstFailure with
      | some failure =>
          apply iff_of_false
          · intro hreports
            rcases hreports with ⟨reported, houtcome, -⟩
            simp [SystemRun.outcome, hanswer, hexit, hdrained, hfirst]
              at houtcome
          · simp
      | none =>
          apply iff_of_true
          · have htold (output : Output) :=
              (hsound.drains output).told
            refine
              ⟨{ exitCode := code
                 stdout := (run.drains .stdout).kept.flatten
                 stderr := (run.drains .stderr).kept.flatten },
                ?_, hcode, ?_, ?_⟩
            · simp [SystemRun.outcome, hanswer, hexit, hdrained, hfirst]
            · intro hcalls
              rw [htold .stdout hcalls]
            · intro hcalls
              rw [htold .stderr hcalls]
          · exact ⟨rfl, hanswer⟩

/-- A text that is returned is the decoding of what the child wrote. -/
theorem flatten_kept_of_isUtf8
    (hrun : TransitionRun.run (SystemRun.step runner) (.start stdin) events =
      some run) (hends : ∀ output, .ends output ∈ events) {output : Output}
    {runes : List Char} (hwritten : encoded runes = written output events) :
    (run.drains output).kept.flatten = (dropMark runes).flatMap units := by
  have hsound := runSound_of_run hrun
  have hfinished := (hsound.finished_iff hends output).mpr ⟨runes, hwritten⟩
  rcases ((hsound.drains output).finished hfinished).2 with
    ⟨decoded, hdecoded⟩
  have hfed := hdecoded.fed
  rw [feed_eq_some_iff.mpr hwritten] at hfed
  cases hfed
  exact hdecoded.text

end Runs

/-! ## A child and a byte -/

def echoing : SystemProcessRunner := { calls := fun _ => true }

/-- The text of two chunks, cut inside a code point, and an exit code. -/
def speaks : List ChildEvent :=
  [.writes .stdout [0x68, 0xC3], .closes none, .exits 3,
    .writes .stdout [0xA9], .ends .stdout, .ends .stderr]

theorem reports_speaks :
    ∃ run, TransitionRun.run (SystemRun.step echoing) (.start none) speaks =
        some run ∧
      (Reports echoing speaks run ↔
        (∀ output, IsUtf8 (written output speaks)) ∧ Accepted speaks) := by
  have hrun : TransitionRun.run (SystemRun.step echoing) (.start none)
      speaks = some _ := rfl
  refine ⟨_, hrun, reports_iff hrun ?_⟩
  constructor
  case exits => exact ⟨3, by decide⟩
  case ends =>
    intro output
    cases output with
    | stdout => decide
    | stderr => decide
  case stdin => rfl

/-- A diagnostic in Latin-1 before a failing exit. -/
def speaksLatin : List ChildEvent :=
  [.closes none, .writes .stderr [0xE9], .ends .stdout, .ends .stderr,
    .exits 1]

/-- The child takes no input and exits. -/
def takesNothing : List ChildEvent :=
  [.flushes (some { message := text "Broken pipe" }), .ends .stdout,
    .ends .stderr, .exits 1]

theorem not_reports_speaksLatin :
    (∃ run, TransitionRun.run (SystemRun.step echoing) (.start none)
        speaksLatin = some run ∧ Over speaksLatin run ∧
      run.outcome = some (.error (.output (.unfinished .stderr))) ∧
      ¬ Reports echoing speaksLatin run) ∧
    ∃ run, TransitionRun.run (SystemRun.step echoing)
        (.start (some (text "x"))) takesNothing = some run ∧
      Over takesNothing run ∧
      run.outcome =
        some (.error (.stdin { message := text "Broken pipe" })) ∧
      ¬ Reports echoing takesNothing run := by
  constructor
  · refine ⟨_, rfl, ?_, rfl, ?_⟩
    · constructor
      case exits => exact ⟨1, by decide⟩
      case ends =>
        intro output
        cases output with
        | stdout => decide
        | stderr => decide
      case stdin => rfl
    · intro hreports
      rcases hreports with ⟨reported, houtcome, -⟩
      cases houtcome
  · refine ⟨_, rfl, ?_, rfl, ?_⟩
    · constructor
      case exits => exact ⟨1, by simp [takesNothing]⟩
      case ends =>
        intro output
        cases output with
        | stdout => simp [takesNothing]
        | stderr => simp [takesNothing]
      case stdin => rfl
    · intro hreports
      rcases hreports with ⟨reported, houtcome, -⟩
      cases houtcome

end Dovetail.Process
