import Dovetail.JsonDocument

/-!
# JSON without blank space

The encoder that puts no space between its tokens, for all values.  A number
has no end of its own: it is read up to the unit behind it.  Whatever the
decoder accepts has well-spelled numbers and maps with distinct keys, and
such a value is decoded to itself.
-/

namespace JsonDocument

open CodeUnits
open TransitionRun

/-! ## Encoding -/

mutual

def compact : Value → Text
  | .null => text "null"
  | .bool true => text "true"
  | .bool false => text "false"
  | .number spelling => spelling
  | .string value => quoted value
  | .list items => leftBracket :: (compactItems items ++ [rightBracket])
  | .map fields => leftBrace :: (compactFields fields ++ [rightBrace])

def compactItems : List Value → Text
  | [] => []
  | item :: rest =>
      compact item ++ (if rest.isEmpty then [] else [comma]) ++
        compactItems rest

def compactFields : List (Text × Value) → Text
  | [] => []
  | (key, value) :: rest =>
      quoted key ++ [colon] ++ compact value ++
        (if rest.isEmpty then [] else [comma]) ++ compactFields rest

end

/-! ## Numbers -/

/-- How far a number is spelled by its first unit. -/
def NumberPhase.start (unit : UInt16) : Option NumberPhase :=
  if unit = 45 then some .minus
  else if unit = 48 then some .zero
  else if isDigit unit then some .integer
  else none

def numberPhase? : Text → Option NumberPhase
  | [] => none
  | first :: rest =>
      (NumberPhase.start first).bind fun phase =>
        rest.foldlM NumberPhase.advance phase

def isNumber (spelling : Text) : Bool :=
  (numberPhase? spelling).any NumberPhase.complete

/-- Every number meets the condition, and every map has distinct keys. -/
inductive Shaped (condition : Text → Prop) : Value → Prop where
  | null : Shaped condition .null
  | bool {value : Bool} : Shaped condition (.bool value)
  | number {spelling : Text} : condition spelling →
      Shaped condition (.number spelling)
  | string {value : Text} : Shaped condition (.string value)
  | list {items : List Value} : (∀ item ∈ items, Shaped condition item) →
      Shaped condition (.list items)
  | map {fields : List (Text × Value)} :
      (fields.map Prod.fst).Nodup →
        (∀ entry ∈ fields, Shaped condition entry.2) →
          Shaped condition (.map fields)

/-- Well-spelled numbers, and distinct keys in every map. -/
abbrev Sound : Value → Prop := Shaped fun spelling => isNumber spelling = true

section

variable {tokens : List Token} {spelling : Text} {phase : NumberPhase}

theorem begin_of_start {unit : UInt16}
    (hstart : NumberPhase.start unit = some phase) :
    begin tokens unit = some ⟨tokens, .number [unit] phase⟩ := by
  unfold NumberPhase.start at hstart
  split_ifs at hstart with hminus hzero hdigit
  · cases hstart
    rw [hminus]
    rfl
  · cases hstart
    rw [hzero]
    rfl
  · cases hstart
    have hcode : 48 ≤ unit.toNat ∧ unit.toNat ≤ 57 := by
      simpa [isDigit] using hdigit
    have hblank : isBlank unit = false := by
      simp only [isBlank, Bool.or_eq_false_iff, beq_eq_false_iff_ne]
      refine ⟨⟨⟨?_, ?_⟩, ?_⟩, ?_⟩ <;>
        · rintro rfl
          simp at hcode
    unfold begin
    simp only [hblank, hdigit, hminus, hzero, if_true, if_false,
      Bool.false_eq_true]
    rw [if_neg, if_neg, if_neg, if_neg, if_neg, if_neg, if_neg, if_neg,
      if_neg, if_neg]
    all_goals
      rintro rfl
      revert hcode
      decide

/-- Digits, signs and points are read into the number. -/
theorem run_advance {read rest : Text} {start : NumberPhase}
    (hrest : rest.foldlM NumberPhase.advance start = some phase) :
    run Scanner.step ⟨tokens, .number read start⟩ rest =
      some ⟨tokens, .number (read ++ rest) phase⟩ := by
  induction rest generalizing read start with
  | nil =>
      obtain rfl : start = phase := by simpa using hrest
      simp
  | cons unit rest ih =>
      rw [List.foldlM_cons] at hrest
      obtain ⟨next, hnext, hrest⟩ := Option.bind_eq_some_iff.mp hrest
      have hstep : Scanner.step ⟨tokens, .number read start⟩ unit =
          some ⟨tokens, .number (read ++ [unit]) next⟩ := by
        simp [Scanner.step, hnext]
      rw [run_cons, hstep, Option.bind_some, ih hrest, List.append_assoc]
      rfl

theorem run_number (hphase : numberPhase? spelling = some phase) :
    run Scanner.step ⟨tokens, .ready⟩ spelling =
      some ⟨tokens, .number spelling phase⟩ := by
  cases spelling with
  | nil => cases hphase
  | cons first rest =>
      obtain ⟨start, hstart, hrest⟩ := Option.bind_eq_some_iff.mp hphase
      have hfirst : Scanner.step ⟨tokens, .ready⟩ first =
          some ⟨tokens, .number [first] start⟩ := begin_of_start hstart
      rw [run_cons, hfirst, Option.bind_some, run_advance hrest]
      rfl

end

/-! ## Tokens behind a value -/

/-- A unit that can stand behind a value, and its token. -/
inductive Closes : UInt16 → Token → Prop where
  | comma : Closes comma .comma
  | bracket : Closes rightBracket .rightBracket
  | brace : Closes rightBrace .rightBrace

theorem Closes.begins {unit : UInt16} {token : Token}
    (hcloses : Closes unit token) (tokens : List Token) :
    begin tokens unit = some ⟨tokens ++ [token], .ready⟩ := by
  cases hcloses <;> rfl

/-- No number goes on with such a unit. -/
theorem Closes.advance {unit : UInt16} {token : Token}
    (hcloses : Closes unit token) (phase : NumberPhase) :
    phase.advance unit = none := by
  cases hcloses <;> cases phase <;> rfl

/-- The source is scanned to these tokens once a value can end behind it. -/
def ScansBefore (source : Text) (added : List Token) : Prop :=
  ∀ unit token, Closes unit token →
    Scans (source ++ [unit]) (added ++ [token])

theorem Scans.before {source : Text} {added : List Token}
    (hsource : Scans source added) : ScansBefore source added := by
  intro unit token hcloses
  exact hsource.append (scans_unit hcloses.begins)

theorem ScansBefore.prepend {source other : Text} {added more : List Token}
    (hother : ScansBefore other more) (hsource : Scans source added) :
    ScansBefore (source ++ other) (added ++ more) := by
  intro unit token hcloses
  have hboth := hsource.append (hother unit token hcloses)
  rwa [← List.append_assoc, ← List.append_assoc] at hboth

theorem scansBefore_number {spelling : Text}
    (hnumber : isNumber spelling = true) :
    ScansBefore spelling [.number spelling] := by
  obtain ⟨phase, hphase, hcomplete⟩ : ∃ phase,
      numberPhase? spelling = some phase ∧ phase.complete = true := by
    simpa [isNumber, Option.any_eq_true] using hnumber
  intro unit token hcloses tokens
  have hend : Scanner.step ⟨tokens, .number spelling phase⟩ unit =
      some ⟨tokens ++ [.number spelling, token], .ready⟩ := by
    simp [Scanner.step, hcloses.advance phase, hcomplete, hcloses.begins]
  rw [run_append_of_eq_some (run_number hphase), run_cons, hend]
  rfl

/-- The tokens of some values with commas between them. -/
theorem scansBefore_compactItems {items : List Value} (hne : items ≠ [])
    (hitems : ∀ item ∈ items, ScansBefore (compact item) (spell item)) :
    ScansBefore (compactItems items) (spellItems items) := by
  induction items with
  | nil => exact absurd rfl hne
  | cons item rest ih =>
      have hitem := hitems item (by simp)
      cases rest with
      | nil => simpa [compactItems, spellItems] using hitem
      | cons next others =>
          have hrest := ih (by simp)
            (fun other hother => hitems other (by simp [hother]))
          exact hrest.prepend (hitem comma .comma .comma)

theorem scansBefore_compactFields {fields : List (Text × Value)}
    (hne : fields ≠ [])
    (hvalues : ∀ entry ∈ fields,
      ScansBefore (compact entry.2) (spell entry.2)) :
    ScansBefore (compactFields fields) (spellFields fields) := by
  induction fields with
  | nil => exact absurd rfl hne
  | cons entry rest ih =>
      obtain ⟨key, value⟩ := entry
      have hvalue := hvalues (key, value) (by simp)
      have hcolon : Scans [colon] [.colon] := scans_unit fun tokens => rfl
      have hkey := (scans_quoted key).append hcolon
      cases rest with
      | nil => simpa [compactFields, spellFields] using hvalue.prepend hkey
      | cons next others =>
          have hrest := ih (by simp)
            (fun other hother => hvalues other (by simp [hother]))
          have hentry := hkey.append (hvalue comma .comma .comma)
          have hboth := hrest.prepend hentry
          rw [compactFields, spellFields]
          simpa using hboth

/-- A sound value is scanned to its tokens. -/
theorem scansBefore_compact {value : Value} (hsound : Sound value) :
    ScansBefore (compact value) (spell value) := by
  induction hsound with
  | null => exact Scans.before fun tokens => rfl
  | @bool value =>
      cases value with
      | true => exact Scans.before fun tokens => rfl
      | false => exact Scans.before fun tokens => rfl
  | number hnumber => exact scansBefore_number hnumber
  | string => exact (scans_quoted _).before
  | @list items _ ih =>
      have hbody : Scans (compactItems items ++ [rightBracket])
          (spellItems items ++ [.rightBracket]) := by
        cases items with
        | nil => exact scans_unit fun tokens => rfl
        | cons item rest =>
            exact scansBefore_compactItems (by simp) ih _ _ .bracket
      exact (Scans.cons (fun tokens => rfl) hbody).before
  | @map fields _ _ ih =>
      have hbody : Scans (compactFields fields ++ [rightBrace])
          (spellFields fields ++ [.rightBrace]) := by
        cases fields with
        | nil => exact scans_unit fun tokens => rfl
        | cons entry rest =>
            exact scansBefore_compactFields (by simp) ih _ _ .brace
      exact (Scans.cons (fun tokens => rfl) hbody).before

/-! ## Reading the tokens back -/

/-- The items of a list are read one by one, behind those before them. -/
theorem run_spellItems {items : List Value}
    (hitems : ∀ item ∈ items, ∀ around,
      run Reading.step (.wantValue around) (spell item) =
        some (.after around item))
    (done : List Value) (around : List Around) (hne : items ≠ []) :
    run Reading.step (.wantValue (.list done :: around))
        (spellItems items ++ [.rightBracket]) =
      some (.after around (.list (done ++ items))) := by
  induction items generalizing done with
  | nil => exact absurd rfl hne
  | cons item rest ih =>
      have hitem := hitems item (by simp) (.list done :: around)
      cases rest with
      | nil =>
          simp only [spellItems, List.isEmpty_nil, if_true, List.append_nil]
          rw [run_append_of_eq_some hitem]
          rfl
      | cons next others =>
          have hrest := ih
            (fun other hother => hitems other (by simp [hother]))
            (done ++ [item]) (by simp)
          rw [spellItems]
          simp only [List.isEmpty_cons, Bool.false_eq_true, if_false]
          rw [List.append_assoc, List.append_assoc,
            run_append_of_eq_some hitem]
          simpa [Reading.step] using hrest

/-- Before its first item a list is read like one that waits for a value. -/
theorem step_firstItem {around : List Around} {value : Value} {first : Token}
    {rest : List Token} (hspell : spell value = first :: rest) :
    Reading.step (.firstItem around) first =
      Reading.step (.wantValue (.list [] :: around)) first := by
  cases value <;> simp only [spell, List.cons.injEq] at hspell <;>
    · obtain ⟨rfl, -⟩ := hspell
      rfl

theorem spell_ne_nil (value : Value) : spell value ≠ [] := by
  cases value <;> simp [spell]

theorem run_spell_of_sound {value : Value} (hsound : Sound value)
    (around : List Around) :
    run Reading.step (.wantValue around) (spell value) =
      some (.after around value) := by
  induction hsound generalizing around with
  | null => rfl
  | bool => rfl
  | number => rfl
  | string => rfl
  | @list items _ ih =>
      cases items with
      | nil => rfl
      | cons item rest =>
          have hitems := run_spellItems ih [] around (by simp)
          obtain ⟨first, others, hspell⟩ :=
            List.exists_cons_of_ne_nil (spell_ne_nil item)
          rw [spellItems, hspell] at hitems
          rw [spell, spellItems, hspell, run_cons]
          change run Reading.step (.firstItem around) _ = _
          simp only [List.cons_append, run_cons] at hitems ⊢
          rw [step_firstItem hspell]
          exact hitems
  | @map fields hkeys _ ih =>
      cases fields with
      | nil => rfl
      | cons entry rest =>
          exact run_spellFields ih [] around (by simp) (by simpa using hkeys)

/-- A map without blank space is decoded to what was encoded. -/
theorem decode_compact_map {fields : List (Text × Value)}
    (hsound : Sound (.map fields)) :
    decode (compact (.map fields)) = some (.map fields) := by
  have hscans : Scans (compact (.map fields)) (spell (.map fields)) := by
    cases hsound with
    | map _ hvalues =>
        cases fields with
        | nil =>
            have hclose : Scans [rightBrace] [.rightBrace] :=
              scans_unit fun tokens => rfl
            exact Scans.cons (fun tokens => rfl) hclose
        | cons entry rest =>
            have hfields := scansBefore_compactFields (by simp)
              (fun entry hentry => scansBefore_compact (hvalues entry hentry))
              rightBrace .rightBrace .brace
            exact Scans.cons (fun tokens => rfl) hfields
  have htokens : tokenize (compact (.map fields)) =
      some (spell (.map fields)) := by
    simp [tokenize, hscans [], Scanner.finish]
  simp [decode, htokens, parse, run_spell_of_sound hsound, Reading.finish]

/-! ## What the decoder accepts is sound -/

/-- The numbers among the tokens are well spelled. -/
def SoundToken : Token → Prop
  | .number spelling => isNumber spelling = true
  | _ => True

/-- What has been scanned so far is sound. -/
structure SoundScanner (scanner : Scanner) : Prop where
  tokens : ∀ token ∈ scanner.tokens, SoundToken token
  number : ∀ spelling phase, scanner.scan = .number spelling phase →
    numberPhase? spelling = some phase
  word : ∀ left token, scanner.scan = .word left token → SoundToken token

theorem numberPhase?_concat {spelling : Text} {phase next : NumberPhase}
    {unit : UInt16} (hphase : numberPhase? spelling = some phase)
    (hnext : phase.advance unit = some next) :
    numberPhase? (spelling ++ [unit]) = some next := by
  cases spelling with
  | nil => cases hphase
  | cons first rest =>
      obtain ⟨start, hstart, hrest⟩ := Option.bind_eq_some_iff.mp hphase
      simp [numberPhase?, hstart, List.foldlM_append, hrest, hnext]

section

variable {tokens : List Token} {unit : UInt16} {scanner next : Scanner}

section

variable (htokens : ∀ token ∈ tokens, SoundToken token)

include htokens

/-- Outside of a number and a word only the tokens count. -/
theorem SoundScanner.plain {scan : Scan}
    (hnumber : ∀ spelling phase, scan ≠ .number spelling phase)
    (hword : ∀ left token, scan ≠ .word left token) :
    SoundScanner ⟨tokens, scan⟩ := by
  constructor
  case tokens => exact htokens
  case number =>
    intro spelling phase hscan
    exact absurd hscan (hnumber spelling phase)
  case word =>
    intro left token hscan
    exact absurd hscan (hword left token)

theorem SoundScanner.ready : SoundScanner ⟨tokens, .ready⟩ :=
  .plain htokens (fun _ _ => Scan.noConfusion) fun _ _ => Scan.noConfusion

theorem SoundScanner.inString (read : Text) :
    SoundScanner ⟨tokens, .string read⟩ :=
  .plain htokens (fun _ _ => Scan.noConfusion) fun _ _ => Scan.noConfusion

theorem SoundScanner.inEscape (read : Text) :
    SoundScanner ⟨tokens, .escape read⟩ :=
  .plain htokens (fun _ _ => Scan.noConfusion) fun _ _ => Scan.noConfusion

theorem SoundScanner.inUnicode (read : Text) (digits value : Nat) :
    SoundScanner ⟨tokens, .unicode read digits value⟩ :=
  .plain htokens (fun _ _ => Scan.noConfusion) fun _ _ => Scan.noConfusion

theorem SoundScanner.inNumber {spelling : Text} {phase : NumberPhase}
    (hphase : numberPhase? spelling = some phase) :
    SoundScanner ⟨tokens, .number spelling phase⟩ := by
  constructor
  case tokens => exact htokens
  case number =>
    intro other found hscan
    cases hscan
    exact hphase
  case word =>
    intro left token hscan
    cases hscan

theorem SoundScanner.inWord (left : Text) {token : Token}
    (htoken : SoundToken token) : SoundScanner ⟨tokens, .word left token⟩ := by
  constructor
  case tokens => exact htokens
  case number =>
    intro spelling phase hscan
    cases hscan
  case word =>
    intro others found hscan
    cases hscan
    exact htoken

end

theorem SoundScanner.push {token : Token}
    (htokens : ∀ token ∈ tokens, SoundToken token)
    (htoken : SoundToken token) :
    SoundScanner ⟨tokens ++ [token], .ready⟩ := by
  apply SoundScanner.ready
  intro other hother
  rcases List.mem_append.mp hother with hold | hnew
  · exact htokens other hold
  · obtain rfl := List.mem_singleton.mp hnew
    exact htoken

theorem SoundScanner.begin (htokens : ∀ token ∈ tokens, SoundToken token)
    (hbegin : begin tokens unit = some next) : SoundScanner next := by
  have hnumber : ∀ phase, NumberPhase.start unit = some phase →
      SoundScanner ⟨tokens, .number [unit] phase⟩ := by
    intro phase hstart
    apply SoundScanner.inNumber htokens
    simp [numberPhase?, hstart]
  unfold JsonDocument.begin at hbegin
  have hplain : ∀ {condition : Prop} [Decidable condition]
      {found : Scanner} {rest : Option Scanner}, SoundScanner found →
      (rest = some next → SoundScanner next) →
      (if condition then some found else rest) = some next →
        SoundScanner next := by
    intro condition _ found rest hfound hrest hnext
    by_cases hcondition : condition
    · rw [if_pos hcondition] at hnext
      obtain rfl := Option.some.inj hnext
      exact hfound
    · rw [if_neg hcondition] at hnext
      exact hrest hnext
  revert hbegin
  apply hplain
  · exact .ready htokens
  apply hplain
  · exact .inString htokens _
  -- brackets, braces, commas and colons
  iterate 6
    apply hplain
    · exact .push htokens trivial
  -- the words of the constants
  iterate 3
    apply hplain
    · exact .inWord htokens _ trivial
  intro hbegin
  by_cases hminus : unit = 45
  · rw [if_pos hminus] at hbegin
    obtain rfl := Option.some.inj hbegin
    exact hnumber _ (by rw [NumberPhase.start, if_pos hminus])
  rw [if_neg hminus] at hbegin
  by_cases hzero : unit = 48
  · rw [if_pos hzero] at hbegin
    obtain rfl := Option.some.inj hbegin
    exact hnumber _ (by
      rw [NumberPhase.start, if_neg hminus, if_pos hzero])
  rw [if_neg hzero] at hbegin
  by_cases hdigit : isDigit unit
  · rw [if_pos hdigit] at hbegin
    obtain rfl := Option.some.inj hbegin
    exact hnumber _ (by
      rw [NumberPhase.start, if_neg hminus, if_neg hzero, if_pos hdigit])
  · rw [if_neg hdigit] at hbegin
    cases hbegin

/-- A step keeps what was scanned sound. -/
theorem SoundScanner.step (hsound : SoundScanner scanner)
    (hstep : scanner.step unit = some next) : SoundScanner next := by
  obtain ⟨tokens, scan⟩ := scanner
  have htokens : ∀ token ∈ tokens, SoundToken token := hsound.tokens
  cases scan with
  | ready => exact .begin htokens hstep
  | string read =>
      simp only [Scanner.step] at hstep
      split_ifs at hstep
      · obtain rfl := Option.some.inj hstep
        exact .push htokens trivial
      · obtain rfl := Option.some.inj hstep
        exact .inEscape htokens _
      · obtain rfl := Option.some.inj hstep
        exact .inString htokens _
  | escape read =>
      simp only [Scanner.step] at hstep
      split_ifs at hstep
      · obtain rfl := Option.some.inj hstep
        exact .inUnicode htokens _ _ _
      · obtain ⟨plain, -, rfl⟩ := Option.map_eq_some_iff.mp hstep
        exact .inString htokens _
  | unicode read digits value =>
      obtain ⟨digit, -, hnext⟩ := Option.map_eq_some_iff.mp hstep
      rw [← hnext]
      dsimp only
      split_ifs
      · exact .inString htokens _
      · exact .inUnicode htokens _ _ _
  | number spelling phase =>
      have hphase := hsound.number spelling phase rfl
      simp only [Scanner.step] at hstep
      cases hadvance : phase.advance unit with
      | some following =>
          rw [hadvance] at hstep
          obtain rfl := Option.some.inj hstep
          exact .inNumber htokens (numberPhase?_concat hphase hadvance)
      | none =>
          rw [hadvance] at hstep
          cases hcomplete : phase.complete with
          | false => simp [hcomplete] at hstep
          | true =>
              have hnumber : SoundToken (.number spelling) := by
                simp [SoundToken, isNumber, hphase, hcomplete]
              have hpushed := SoundScanner.push htokens hnumber
              simp only [hcomplete, if_true] at hstep
              exact .begin hpushed.tokens hstep
  | word left token =>
      have htoken := hsound.word left token rfl
      cases left with
      | nil => cases hstep
      | cons expected rest =>
          simp only [Scanner.step] at hstep
          split_ifs at hstep
          · obtain rfl := Option.some.inj hstep
            exact .push htokens htoken
          · obtain rfl := Option.some.inj hstep
            exact .inWord htokens _ htoken

theorem soundToken_of_tokenize {source : Text}
    (htokenize : tokenize source = some tokens) :
    ∀ token ∈ tokens, SoundToken token := by
  obtain ⟨scanner, hrun, hfinish⟩ := Option.bind_eq_some_iff.mp htokenize
  have hstart : SoundScanner ⟨[], .ready⟩ := .ready (by simp)
  have hsound : SoundScanner scanner :=
    run_invariant hstart (fun _ _ _ hsound hstep => hsound.step hstep) hrun
  obtain ⟨found, scan⟩ := scanner
  cases scan with
  | ready =>
      obtain rfl := Option.some.inj hfinish
      exact hsound.tokens
  | number spelling phase =>
      simp only [Scanner.finish] at hfinish
      split_ifs at hfinish with hcomplete
      obtain rfl := Option.some.inj hfinish
      have hphase := hsound.number spelling phase rfl
      have hnumber : SoundToken (.number spelling) := by
        simp [SoundToken, isNumber, hphase, hcomplete]
      exact (SoundScanner.push hsound.tokens hnumber).tokens
  | string => cases hfinish
  | escape => cases hfinish
  | unicode => cases hfinish
  | word => cases hfinish

end

/-- The fields of such a map. -/
structure ShapedFields (condition : Text → Prop)
    (fields : List (Text × Value)) : Prop where
  keys : (fields.map Prod.fst).Nodup
  values : ∀ entry ∈ fields, Shaped condition entry.2

abbrev SoundFields : List (Text × Value) → Prop :=
  ShapedFields fun spelling => isNumber spelling = true

theorem map_fst_put_of_mem {fields : List (Text × Value)} {key : Text}
    (value : Value) (hkey : key ∈ fields.map Prod.fst) :
    (put fields key value).map Prod.fst = fields.map Prod.fst := by
  obtain ⟨entry, hentry, rfl⟩ := List.mem_map.mp hkey
  have hany : (fields.any fun other => other.1 == entry.1) = true := by
    simp only [List.any_eq_true, beq_iff_eq]
    exact ⟨entry, hentry, rfl⟩
  rw [put, if_pos hany, List.map_map]
  apply List.map_congr_left
  intro other _
  by_cases hsame : other.1 = entry.1 <;> simp [hsame]

theorem ShapedFields.put {condition : Text → Prop}
    {fields : List (Text × Value)} {value : Value}
    (hfields : ShapedFields condition fields)
    (hvalue : Shaped condition value) (key : Text) :
    ShapedFields condition (put fields key value) := by
  by_cases hkey : key ∈ fields.map Prod.fst
  · refine ⟨?_, ?_⟩
    · rw [map_fst_put_of_mem value hkey]
      exact hfields.keys
    · intro entry hentry
      unfold JsonDocument.put at hentry
      split at hentry
      · obtain ⟨other, hother, rfl⟩ := List.mem_map.mp hentry
        split
        · exact hvalue
        · exact hfields.values other hother
      · rcases List.mem_append.mp hentry with hold | hnew
        · exact hfields.values entry hold
        · obtain rfl := List.mem_singleton.mp hnew
          exact hvalue
  · rw [put_of_notMem hkey]
    refine ⟨?_, ?_⟩
    · rw [List.map_append, List.nodup_append]
      refine ⟨hfields.keys, by simp, ?_⟩
      intro old hold new hnew
      obtain rfl : new = key := by simpa using hnew
      rintro rfl
      exact hkey hold
    · intro entry hentry
      rcases List.mem_append.mp hentry with hold | hnew
      · exact hfields.values entry hold
      · obtain rfl := List.mem_singleton.mp hnew
        exact hvalue

def SoundAround : Around → Prop
  | .list items => ∀ item ∈ items, Sound item
  | .map fields _ => SoundFields fields

/-- What has been read so far is sound. -/
def SoundReading : Reading → Prop
  | .wantValue around => ∀ level ∈ around, SoundAround level
  | .firstItem around => ∀ level ∈ around, SoundAround level
  | .firstKey around => ∀ level ∈ around, SoundAround level
  | .wantKey around fields =>
      (∀ level ∈ around, SoundAround level) ∧ SoundFields fields
  | .wantColon around fields _ =>
      (∀ level ∈ around, SoundAround level) ∧ SoundFields fields
  | .after around value =>
      (∀ level ∈ around, SoundAround level) ∧ Sound value

section

variable {token : Token} {reading next : Reading}

theorem soundReading_readValue {around : List Around}
    (haround : ∀ level ∈ around, SoundAround level)
    (htoken : SoundToken token)
    (hread : readValue around token = some next) : SoundReading next := by
  cases token <;> cases hread
  · exact haround
  · exact haround
  · exact ⟨haround, .null⟩
  · exact ⟨haround, .bool⟩
  · exact ⟨haround, .number htoken⟩
  · exact ⟨haround, .string⟩

theorem soundItems_concat {items : List Value} {value : Value}
    (hitems : ∀ item ∈ items, Sound item) (hvalue : Sound value) :
    ∀ item ∈ items ++ [value], Sound item := by
  intro item hitem
  rcases List.mem_append.mp hitem with hold | hnew
  · exact hitems item hold
  · obtain rfl := List.mem_singleton.mp hnew
    exact hvalue

theorem soundLevels_cons {level : Around} {around : List Around}
    (hlevel : SoundAround level)
    (haround : ∀ level ∈ around, SoundAround level) :
    ∀ other ∈ level :: around, SoundAround other := by
  intro other hother
  rcases List.mem_cons.mp hother with rfl | hrest
  · exact hlevel
  · exact haround other hrest

theorem soundReading_step (hreading : SoundReading reading)
    (htoken : SoundToken token)
    (hstep : reading.step token = some next) : SoundReading next := by
  unfold Reading.step at hstep
  split at hstep
  · exact soundReading_readValue hreading htoken hstep
  · cases hstep
    exact ⟨hreading, .list (by simp)⟩
  · have hempty : SoundAround (.list []) := by simp [SoundAround]
    exact soundReading_readValue (soundLevels_cons hempty hreading) htoken
      hstep
  · cases hstep
    exact ⟨hreading, .map (by simp) (by simp)⟩
  · cases hstep
    exact ⟨hreading, ⟨by simp, by simp⟩⟩
  · cases hstep
    exact hreading
  · cases hstep
    obtain ⟨haround, hfields⟩ := hreading
    exact soundLevels_cons hfields haround
  -- behind a value of an open list or map
  · cases hstep
    obtain ⟨hitems, haround⟩ := List.forall_mem_cons.mp hreading.1
    have hall := soundItems_concat hitems hreading.2
    exact soundLevels_cons hall haround
  · cases hstep
    obtain ⟨hitems, haround⟩ := List.forall_mem_cons.mp hreading.1
    exact ⟨haround, .list (soundItems_concat hitems hreading.2)⟩
  · cases hstep
    obtain ⟨hfields, haround⟩ := List.forall_mem_cons.mp hreading.1
    exact ⟨haround, ShapedFields.put hfields hreading.2 _⟩
  · cases hstep
    obtain ⟨hfields, haround⟩ := List.forall_mem_cons.mp hreading.1
    have hput := ShapedFields.put hfields hreading.2
    exact ⟨haround, .map (hput _).keys (hput _).values⟩
  · cases hstep

theorem sound_of_decode {source : Text} {value : Value}
    (hdecode : decode source = some value) : Sound value := by
  obtain ⟨tokens, htokens, hparse⟩ := Option.bind_eq_some_iff.mp hdecode
  obtain ⟨reading, hrun, hfinish⟩ := Option.bind_eq_some_iff.mp hparse
  have hsound := soundToken_of_tokenize htokens
  have hreading : SoundReading reading := by
    clear htokens hparse hfinish
    induction tokens using List.reverseRecOn generalizing reading with
    | nil =>
        cases hrun
        simp [SoundReading]
    | append_singleton before token ih =>
        obtain ⟨previous, hprevious, hlast⟩ := run_concat.mp hrun
        have hbefore := ih previous hprevious
          (fun other hother => hsound other (by simp [hother]))
        exact soundReading_step hbefore (hsound token (by simp)) hlast
  cases reading with
  | after around last =>
      cases around with
      | nil =>
          cases hfinish
          exact hreading.2
      | cons => cases hfinish
  | _ => cases hfinish

end

/-! ## Changing and testing the numbers -/

mutual

/-- Every number is spelled anew. -/
def renumber (change : Text → Text) : Value → Value
  | .null => .null
  | .bool value => .bool value
  | .number spelling => .number (change spelling)
  | .string value => .string value
  | .list items => .list (renumberItems change items)
  | .map fields => .map (renumberFields change fields)

def renumberItems (change : Text → Text) : List Value → List Value
  | [] => []
  | item :: rest => renumber change item :: renumberItems change rest

def renumberFields (change : Text → Text) :
    List (Text × Value) → List (Text × Value)
  | [] => []
  | (key, value) :: rest =>
      (key, renumber change value) :: renumberFields change rest

end

mutual

/-- Every number passes the test. -/
def everyNumber (test : Text → Bool) : Value → Bool
  | .null => true
  | .bool _ => true
  | .number spelling => test spelling
  | .string _ => true
  | .list items => everyItem test items
  | .map fields => everyField test fields

def everyItem (test : Text → Bool) : List Value → Bool
  | [] => true
  | item :: rest => everyNumber test item && everyItem test rest

def everyField (test : Text → Bool) : List (Text × Value) → Bool
  | [] => true
  | (_, value) :: rest => everyNumber test value && everyField test rest

end

theorem renumberItems_eq_map (change : Text → Text) (items : List Value) :
    renumberItems change items = items.map (renumber change) := by
  induction items with
  | nil => rfl
  | cons item rest ih => rw [renumberItems, ih, List.map_cons]

theorem renumberFields_eq_map (change : Text → Text)
    (fields : List (Text × Value)) :
    renumberFields change fields =
      fields.map fun entry => (entry.1, renumber change entry.2) := by
  induction fields with
  | nil => rfl
  | cons entry rest ih => rw [renumberFields, ih, List.map_cons]

section

variable {condition other : Text → Prop} {change : Text → Text}
  {test : Text → Bool}

theorem Shaped.renumber
    (hchange : ∀ spelling, condition spelling → other (change spelling))
    {value : Value} (hshaped : Shaped condition value) :
    Shaped other (renumber change value) := by
  induction hshaped with
  | null => exact .null
  | bool => exact .bool
  | number hnumber => exact .number (hchange _ hnumber)
  | string => exact .string
  | @list items _ ih =>
      apply Shaped.list
      rw [renumberItems_eq_map]
      intro item hitem
      obtain ⟨old, hold, rfl⟩ := List.mem_map.mp hitem
      exact ih old hold
  | @map fields hkeys _ ih =>
      apply Shaped.map
      · rw [renumberFields_eq_map, List.map_map]
        exact hkeys
      · rw [renumberFields_eq_map]
        intro entry hentry
        obtain ⟨old, hold, rfl⟩ := List.mem_map.mp hentry
        exact ih old hold

theorem Shaped.renumber_eq_self
    (hchange : ∀ spelling, condition spelling → change spelling = spelling)
    {value : Value} (hshaped : Shaped condition value) :
    JsonDocument.renumber change value = value := by
  induction hshaped with
  | null => rfl
  | bool => rfl
  | number hnumber => rw [JsonDocument.renumber, hchange _ hnumber]
  | string => rfl
  | @list items _ ih =>
      rw [JsonDocument.renumber, renumberItems_eq_map]
      have hitems : items.map (JsonDocument.renumber change) = items.map id :=
        List.map_congr_left ih
      rw [hitems, List.map_id]
  | @map fields _ _ ih =>
      rw [JsonDocument.renumber, renumberFields_eq_map]
      have hfields : (fields.map fun entry =>
          (entry.1, JsonDocument.renumber change entry.2)) = fields.map id := by
        apply List.map_congr_left
        intro entry hentry
        rw [ih entry hentry]
        rfl
      rw [hfields, List.map_id]

theorem everyItem_eq_all (items : List Value) :
    everyItem test items = items.all (everyNumber test) := by
  induction items with
  | nil => rfl
  | cons item rest ih => rw [everyItem, ih, List.all_cons]

theorem everyField_eq_all (fields : List (Text × Value)) :
    everyField test fields =
      fields.all fun entry => everyNumber test entry.2 := by
  induction fields with
  | nil => rfl
  | cons entry rest ih => rw [everyField, ih, List.all_cons]

theorem Shaped.of_everyNumber {value : Value}
    (hshaped : Shaped condition value) (hevery : everyNumber test value = true) :
    Shaped (fun spelling => test spelling = true) value := by
  induction hshaped with
  | null => exact .null
  | bool => exact .bool
  | number => exact .number hevery
  | string => exact .string
  | list _ ih =>
      rw [everyNumber, everyItem_eq_all, List.all_eq_true] at hevery
      exact .list fun item hitem => ih item hitem (hevery item hitem)
  | map hkeys _ ih =>
      rw [everyNumber, everyField_eq_all, List.all_eq_true] at hevery
      exact .map hkeys fun entry hentry =>
        ih entry hentry (hevery entry hentry)

end

/-! ## What is written is well formed -/

theorem isSurrogate_of_lt {unit : UInt16} (hlt : unit.toNat < 0xD800) :
    isSurrogate unit = false := by
  simp only [isSurrogate, isLead, isTrail, Bool.or_eq_false_iff,
    beq_eq_false_iff_ne]
  omega

theorem hexDigit_lt (value : Nat) (hvalue : value < 16) :
    (hexDigit value).toNat < 0xD800 := by
  decide +revert

theorem isSurrogate_of_mem_escapeUnicode {unit : UInt16} :
    ∀ letter ∈ escapeUnicode unit, isSurrogate letter = false := by
  have hlt : unit.toNat < 65536 := unit.toNat_lt_size
  intro letter hletter
  apply isSurrogate_of_lt
  simp only [escapeUnicode, List.mem_cons, List.not_mem_nil, or_false]
    at hletter
  rcases hletter with rfl | rfl | rfl | rfl | rfl | rfl
  · decide
  · decide
  · exact hexDigit_lt _ (by omega)
  · exact hexDigit_lt _ (by omega)
  · exact hexDigit_lt _ (by omega)
  · exact hexDigit_lt _ (by omega)

/-- A unit that is no half of a pair leaves no surrogate. -/
theorem isSurrogate_of_mem_escape {previous next : Option UInt16}
    {unit : UInt16}
    (hlead : isLead unit = true → next.any isTrail = false)
    (htrail : isTrail unit = true → previous.any isLead = false) :
    ∀ letter ∈ escape previous unit next, isSurrogate letter = false := by
  unfold escape
  split_ifs with habove halone hcontrol hspecial
  · exact isSurrogate_of_mem_escapeUnicode
  · intro letter hletter
    obtain rfl := List.mem_singleton.mp hletter
    by_contra hsurrogate
    rw [Bool.not_eq_false, isSurrogate, Bool.or_eq_true] at hsurrogate
    apply halone
    rcases hsurrogate with hsurrogate | hsurrogate
    · simp [hsurrogate, hlead hsurrogate]
    · simp [hsurrogate, htrail hsurrogate]
  · split
    all_goals first
      | exact isSurrogate_of_mem_escapeUnicode
      | exact List.forall_mem_cons.mpr ⟨by decide, by simp; decide⟩
  · intro letter hletter
    simp only [List.mem_cons, List.not_mem_nil, or_false] at hletter
    rcases hletter with rfl | rfl
    · decide
    · apply isSurrogate_of_lt
      omega
  · intro letter hletter
    obtain rfl := List.mem_singleton.mp hletter
    apply isSurrogate_of_lt
    omega

section

variable {lead trail : UInt16} (hlead : isLead lead = true)
  (htrail : isTrail trail = true)
include hlead htrail

/-- The first half of a pair is written as it is. -/
theorem escape_lead (previous : Option UInt16) :
    escape previous lead (some trail) = [lead] := by
  have hcode : lead.toNat / 0x400 = 54 := by simpa [isLead] using hlead
  have hnot : isTrail lead = false := by
    rw [isTrail, hcode]
    rfl
  have hlarge : 92 < lead.toNat := by omega
  simp [escape, hlarge, htrail, hnot]

/-- So is the second. -/
theorem escape_trail (next : Option UInt16) :
    escape (some lead) trail next = [trail] := by
  have hcode : trail.toNat / 0x400 = 55 := by simpa [isTrail] using htrail
  have hnot : isLead trail = false := by
    rw [isLead, hcode]
    rfl
  have hlarge : 92 < trail.toNat := by omega
  simp [escape, hlarge, hlead, hnot]

end

theorem wellFormed_escapeAll {previous : Option UInt16} {source : Text}
    (hbehind : source.head?.any isTrail = true →
      previous.any isLead = false) :
    wellFormed (escapeAll previous source) = true := by
  induction source using runes.induct generalizing previous with
  | case1 => rfl
  | case2 unit =>
      have hunit : ∀ letter ∈ escape previous unit none,
          isSurrogate letter = false :=
        isSurrogate_of_mem_escape (by simp) (by simpa using hbehind)
      simpa [escapeAll] using wellFormed_of_forall hunit
  | case3 unit next rest hpair ih =>
      obtain ⟨hlead, htrail⟩ : isLead unit = true ∧ isTrail next = true := by
        simpa using hpair
      have hnotLead : isLead next = false := by
        simp only [isTrail, beq_iff_eq] at htrail
        rw [isLead, htrail]
        rfl
      have hrest : wellFormed (escapeAll (some next) rest) = true :=
        ih fun _ => hnotLead
      rw [escapeAll, escapeAll, List.head?_cons, escape_lead hlead htrail,
        escape_trail hlead htrail]
      simp [wellFormed, hlead, htrail, hrest]
  | case4 unit next rest hpair ih =>
      have hunpaired : isLead unit = true → isTrail next = false := by
        simpa using hpair
      have hunit : wellFormed (escape previous unit (some next)) = true := by
        apply wellFormed_of_forall
        apply isSurrogate_of_mem_escape
        · exact hunpaired
        · simpa using hbehind
      have hrest : wellFormed (escapeAll (some unit) (next :: rest)) = true := by
        apply ih
        intro htrail
        by_contra hlead
        simp_all
      rw [escapeAll, List.head?_cons, wellFormed_append hunit, hrest]

theorem wellFormed_quoted (source : Text) :
    wellFormed (quoted source) = true := by
  have hquote : wellFormed [quote] = true := by decide
  have hsource : wellFormed (escapeAll none source) = true :=
    wellFormed_escapeAll fun _ => rfl
  have hclose := wellFormed_append hsource [quote]
  have hopen := wellFormed_append hquote (escapeAll none source ++ [quote])
  rw [hclose, hquote] at hopen
  exact hopen

/-- A number has no units that large. -/
theorem lt_of_advance {phase next : NumberPhase} {unit : UInt16}
    (hnext : phase.advance unit = some next) : unit.toNat < 0xD800 := by
  by_contra hlarge
  have hdigit : isDigit unit = false := by
    simp only [isDigit, Bool.and_eq_false_iff, decide_eq_false_iff_not]
    omega
  have hne : ∀ letter : UInt16, letter.toNat < 0xD800 → unit ≠ letter := by
    rintro letter hletter rfl
    exact hlarge hletter
  have h43 := hne 43 (by decide)
  have h45 := hne 45 (by decide)
  have h46 := hne 46 (by decide)
  have h48 := hne 48 (by decide)
  have h69 := hne 69 (by decide)
  have h101 := hne 101 (by decide)
  cases phase <;>
    simp [NumberPhase.advance, hdigit, h43, h45, h46, h48, h69, h101]
      at hnext

theorem lt_of_start {phase : NumberPhase} {unit : UInt16}
    (hstart : NumberPhase.start unit = some phase) :
    unit.toNat < 0xD800 := by
  unfold NumberPhase.start at hstart
  split_ifs at hstart with hminus hzero hdigit
  · rw [hminus]
    decide
  · rw [hzero]
    decide
  · have hcode : 48 ≤ unit.toNat ∧ unit.toNat ≤ 57 := by
      simpa [isDigit] using hdigit
    omega

theorem wellFormed_of_isNumber {spelling : Text}
    (hnumber : isNumber spelling = true) : wellFormed spelling = true := by
  have hadvance : ∀ (rest : Text) (start phase : NumberPhase),
      rest.foldlM NumberPhase.advance start = some phase →
        ∀ unit ∈ rest, unit.toNat < 0xD800 := by
    intro rest
    induction rest with
    | nil => simp
    | cons unit rest ih =>
        intro start phase hfold
        rw [List.foldlM_cons] at hfold
        obtain ⟨next, hnext, hrest⟩ := Option.bind_eq_some_iff.mp hfold
        exact List.forall_mem_cons.mpr
          ⟨lt_of_advance hnext, ih next phase hrest⟩
  obtain ⟨phase, hphase, -⟩ : ∃ phase,
      numberPhase? spelling = some phase ∧ phase.complete = true := by
    simpa [isNumber, Option.any_eq_true] using hnumber
  cases spelling with
  | nil => cases hphase
  | cons first rest =>
      obtain ⟨start, hstart, hrest⟩ := Option.bind_eq_some_iff.mp hphase
      have hall : ∀ unit ∈ first :: rest, unit.toNat < 0xD800 :=
        List.forall_mem_cons.mpr
          ⟨lt_of_start hstart, hadvance rest start phase hrest⟩
      exact wellFormed_of_forall fun unit hunit =>
        isSurrogate_of_lt (hall unit hunit)

/-- Texts one behind the other are well formed when each is. -/
theorem wellFormed_append_of {before after : Text}
    (hbefore : wellFormed before = true) (hafter : wellFormed after = true) :
    wellFormed (before ++ after) = true := by
  rw [wellFormed_append hbefore, hafter]

theorem wellFormed_compactItems {items : List Value}
    (hitems : ∀ item ∈ items, wellFormed (compact item) = true) :
    wellFormed (compactItems items) = true := by
  induction items with
  | nil => rfl
  | cons item rest ih =>
      have hrest := ih fun other hother => hitems other (by simp [hother])
      have hcomma : wellFormed (if rest.isEmpty then [] else [comma]) =
          true := by
        cases rest.isEmpty <;> decide
      have hitem := wellFormed_append_of (hitems item (by simp)) hcomma
      exact wellFormed_append_of hitem hrest

theorem wellFormed_compactFields {fields : List (Text × Value)}
    (hvalues : ∀ entry ∈ fields, wellFormed (compact entry.2) = true) :
    wellFormed (compactFields fields) = true := by
  induction fields with
  | nil => rfl
  | cons entry rest ih =>
      obtain ⟨key, value⟩ := entry
      have hrest := ih fun other hother => hvalues other (by simp [hother])
      have hcomma : wellFormed (if rest.isEmpty then [] else [comma]) =
          true := by
        cases rest.isEmpty <;> decide
      have hcolon : wellFormed [colon] = true := by decide
      have hkey := wellFormed_append_of (wellFormed_quoted key) hcolon
      have hvalue := wellFormed_append_of hkey (hvalues (key, value) (by simp))
      have hentry := wellFormed_append_of hvalue hcomma
      exact wellFormed_append_of hentry hrest

theorem wellFormed_compact {value : Value} (hsound : Sound value) :
    wellFormed (compact value) = true := by
  induction hsound with
  | null => decide
  | @bool value => cases value <;> decide
  | number hnumber => exact wellFormed_of_isNumber hnumber
  | string => exact wellFormed_quoted _
  | list _ ih =>
      have hopen : wellFormed [leftBracket] = true := by decide
      have hclose : wellFormed [rightBracket] = true := by decide
      exact wellFormed_append_of hopen
        (wellFormed_append_of (wellFormed_compactItems ih) hclose)
  | map _ _ ih =>
      have hopen : wellFormed [leftBrace] = true := by decide
      have hclose : wellFormed [rightBrace] = true := by decide
      exact wellFormed_append_of hopen
        (wellFormed_append_of (wellFormed_compactFields ih) hclose)

end JsonDocument
