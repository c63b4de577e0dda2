import Dovetail.UpdaterMinisign

/-!
# The file minisign signs with

Four lines, each with an end of its own, raw or wrapped in base64.  All of a
file is read back but for the whitespace at the ends of the trusted comment,
which minisign signs and `MinisignSignature.parse` trims.
-/

namespace Dovetail.Updater

open CodeUnits

/-! ## What minisign writes -/

inductive LineEnding where
  | lf
  | crlf
  deriving DecidableEq

def carriageReturn : UInt16 := 13

def LineEnding.units : LineEnding → Text
  | .lf => [newline]
  | .crlf => [carriageReturn, newline]

/-- How a file is handed on: as it is, or in base64 around its UTF-8. -/
inductive Form where
  | raw
  | wrapped
  deriving DecidableEq

def Form.of : Form → Text → Text
  | .raw, source => source
  | .wrapped, source => Base64.encode (utf8Encode source)

structure SignatureFile where
  untrusted : Text
  prehashed : Bool
  keyId : Bytes
  signature : Bytes
  trusted : Text
  globalSignature : Bytes
  keyId_length : keyId.length = 8
  signature_length : signature.length = 64
  globalSignature_length : globalSignature.length = 64
  untrusted_line : newline ∉ untrusted
  trusted_line : newline ∉ trusted ∧ carriageReturn ∉ trusted
  wellFormed_untrusted : wellFormed untrusted = true
  wellFormed_trusted : wellFormed trusted = true

namespace SignatureFile

variable (file : SignatureFile)

def algorithmBytes : Bytes :=
  if file.prehashed then [69, 68] else [69, 100]

def space : UInt16 := 32

def lines : List Text :=
  [untrustedPrefix ++ space :: file.untrusted,
    Base64.encode (file.algorithmBytes ++ file.keyId ++ file.signature),
    trustedPrefix ++ space :: file.trusted,
    Base64.encode file.globalSignature]

def render (ending : LineEnding) : Text :=
  file.lines.flatMap (· ++ ending.units)

/-- What the lines stand for. -/
def contents : MinisignSignature where
  algorithm := if file.prehashed then text "ED" else text "Ed"
  keyId := file.keyId
  signature := file.signature
  trustedComment := file.trusted
  globalSignature := file.globalSignature

/-- The key signed the signature with the trusted comment behind it. -/
def Genuine (crypto : Crypto) (key : Bytes) : Prop :=
  crypto.verify key (file.signature ++ utf8Encode file.trusted)
    file.globalSignature = true

/-- The file is read as what it was written from, and whatever was signed
passes the check of the global signature. -/
def KeepsSigned (ending : LineEnding) (form : Form) : Prop :=
  ∃ signature,
    MinisignSignature.parse (form.of (file.render ending)) = .ok signature ∧
      signature = file.contents ∧
      ∀ crypto key, file.Genuine crypto key →
        crypto.verify key (boundComment signature)
          signature.globalSignature = true

end SignatureFile

/-! ## Trimming -/

theorem trimRight_append {opening : Text} {last : UInt16}
    (hlast : isSpace last = false) (rest : Text) :
    trimRight (opening ++ [last] ++ rest) =
      opening ++ [last] ++ trimRight rest := by
  induction rest using List.reverseRecOn with
  | nil =>
      rw [List.append_nil, trimRight, List.rdropWhile_concat_neg]
      · simp [trimRight]
      · simp [hlast]
  | append_singleton rest unit ih =>
      rw [← List.append_assoc]
      by_cases hspace : isSpace unit = true
      · rw [trimRight_concat_of_isSpace hspace,
          trimRight_concat_of_isSpace hspace, ih]
      · rw [trimRight, trimRight, List.rdropWhile_concat_neg _ _ _ hspace,
          List.rdropWhile_concat_neg _ _ _ hspace, List.append_assoc _ rest]

theorem trim_cons_of_isSpace {unit : UInt16} (hspace : isSpace unit = true)
    (source : Text) : trim (unit :: source) = trim source := by
  rw [trim_eq_trimRight_trimLeft, trim_eq_trimRight_trimLeft, trimLeft,
    List.dropWhile_cons_of_pos hspace, trimLeft]

/-- Only whitespace at one of the ends is trimmed. -/
theorem trim_eq_self_iff {source : Text} :
    trim source = source ↔
      ∀ unit, unit ∈ source.head? ∨ unit ∈ source.getLast? →
        isSpace unit = false := by
  have hright : trimRight source = source ↔
      ∀ unit ∈ source.getLast?, isSpace unit = false := by
    rw [trimRight, List.rdropWhile_eq_self_iff]
    constructor
    · intro hlast unit hunit
      rcases List.mem_getLast?_eq_getLast hunit with ⟨hne, rfl⟩
      simpa using hlast hne
    · intro hlast hne
      simp [hlast _ (List.getLast?_eq_some_getLast hne)]
  have hleft : trimLeft source = source ↔
      ∀ unit ∈ source.head?, isSpace unit = false := by
    cases source with
    | nil => simp [trimLeft]
    | cons unit rest =>
        rw [trimLeft, List.dropWhile_eq_self_iff]
        simp
  have hboth : trim source = source ↔
      trimRight source = source ∧ trimLeft source = source := by
    constructor
    · intro htrim
      have hshort : trimRight source = source := by
        apply (List.rdropWhile_prefix isSpace source).eq_of_length
        apply le_antisymm (List.rdropWhile_prefix isSpace source).length_le
        calc source.length = (trim source).length := by rw [htrim]
          _ ≤ (trimRight source).length := List.length_dropWhile_le _ _
      rw [trim, hshort] at htrim
      exact ⟨hshort, htrim⟩
    · intro hkeeps
      rw [trim, hkeeps.1, hkeeps.2]
  rw [hboth, hright, hleft]
  constructor
  · intro hkeeps unit hunit
    rcases hunit with hhead | hlast
    · exact hkeeps.2 unit hhead
    · exact hkeeps.1 unit hlast
  · intro hends
    constructor
    · intro unit hlast
      exact hends unit (Or.inr hlast)
    · intro unit hhead
      exact hends unit (Or.inl hhead)

/-! ## Reading the lines back -/

/-- What an ending leaves on its line once the text is split at `\n`. -/
def LineEnding.left : LineEnding → Text
  | .lf => []
  | .crlf => [carriageReturn]

theorem LineEnding.units_eq (ending : LineEnding) :
    ending.units = ending.left ++ [newline] := by
  cases ending <;> rfl

theorem LineEnding.isSpace_of_mem_left (ending : LineEnding) :
    ∀ unit ∈ ending.left, isSpace unit = true := by
  cases ending <;> decide

theorem LineEnding.newline_not_mem_left (ending : LineEnding) :
    newline ∉ ending.left := by
  cases ending <;> decide

theorem splitOnP_of_not_mem {line : Text} (hline : newline ∉ line) :
    line.splitOnP (· == newline) = [line] := by
  apply List.splitOnP_eq_singleton
  intro unit hunit
  rw [beq_eq_false_iff_ne]
  intro hnewline
  rw [hnewline] at hunit
  exact hline hunit

theorem splitOnP_ended (ending : LineEnding) {lines : List Text}
    (hlines : ∀ line ∈ lines, newline ∉ line) :
    (lines.flatMap (· ++ ending.units)).splitOnP (· == newline) =
      lines.map (· ++ ending.left) ++ [[]] := by
  induction lines with
  | nil => rfl
  | cons line rest ih =>
      have hline : newline ∉ line ++ ending.left := by
        rw [List.mem_append, not_or]
        exact ⟨hlines line List.mem_cons_self, ending.newline_not_mem_left⟩
      have hrest := ih fun other hother =>
        hlines other (List.mem_cons_of_mem _ hother)
      have hsplit : (line :: rest).flatMap (· ++ ending.units) =
          (line ++ ending.left) ++
            newline :: rest.flatMap (· ++ ending.units) := by
        simp [LineEnding.units_eq]
      rw [hsplit, List.splitOnP_append_cons _ _ (by simp),
        splitOnP_of_not_mem hline, hrest]
      rfl

theorem trimRight_append_of_isSpace (line : Text) {blank : Text}
    (hblank : ∀ unit ∈ blank, isSpace unit = true) :
    trimRight (line ++ blank) = trimRight line := by
  induction blank using List.reverseRecOn with
  | nil => rw [List.append_nil]
  | append_singleton rest unit ih =>
      rw [← List.append_assoc,
        trimRight_concat_of_isSpace (hblank unit (by simp))]
      apply ih
      intro other hother
      exact hblank other (List.mem_append_left _ hother)

/-- Lines that are not blank are read back, whatever they end with. -/
theorem filledLines_ended (ending : LineEnding) {lines : List Text}
    (hlines : ∀ line ∈ lines, newline ∉ line ∧ trim line ≠ []) :
    filledLines (lines.flatMap (· ++ ending.units)) = lines.map trimRight := by
  have htrimmed : (lines.map (· ++ ending.left)).map trimRight =
      lines.map trimRight := by
    rw [List.map_map]
    apply List.map_congr_left
    intro line hline
    exact trimRight_append_of_isSpace line ending.isSpace_of_mem_left
  have hfilled : (lines.map trimRight).filter
      (fun line => !(trim line).isEmpty) = lines.map trimRight := by
    apply List.filter_eq_self.mpr
    intro line hline
    rcases List.mem_map.mp hline with ⟨whole, hwhole, rfl⟩
    simpa [trim_trimRight] using (hlines whole hwhole).2
  unfold filledLines
  rw [splitOnP_ended ending fun line hline => (hlines line hline).1,
    List.map_append, htrimmed, List.filter_append, hfilled]
  simp [trimRight, trim, trimLeft]

namespace SignatureFile

variable (file : SignatureFile)

/-- A base64 line has no whitespace. -/
theorem trim_encode (bytes : Bytes) :
    trim (Base64.encode bytes) = Base64.encode bytes := by
  apply trim_eq_self
  intro unit hunit
  apply Base64.isSpace_eq_false_of_isUnit
  exact Base64.isUnit_of_decode (Base64.decode_encode bytes) unit hunit

theorem newline_not_mem_encode (bytes : Bytes) :
    newline ∉ Base64.encode bytes := by
  intro hnewline
  have hunit := Base64.isUnit_of_decode (Base64.decode_encode bytes) _ hnewline
  exact absurd hunit (by decide)

theorem trim_opened_ne_nil {unit : UInt16} (hunit : isSpace unit = false)
    (rest : Text) : trim (unit :: rest) ≠ [] := by
  intro hblank
  rw [trim_eq_nil_iff, trimRight_cons] at hblank
  split at hblank
  · simp [hunit] at hblank
  · cases hblank

theorem encode_ne_nil {bytes : Bytes} (hbytes : bytes ≠ []) :
    trim (Base64.encode bytes) ≠ [] := by
  rw [trim_encode]
  intro hnil
  have hdecode := Base64.decode_encode bytes
  rw [hnil, Base64.decode, Option.some.injEq] at hdecode
  exact hbytes hdecode.symm

theorem lines_filled :
    ∀ line ∈ file.lines, newline ∉ line ∧ trim line ≠ [] := by
  have hopens : newline ∉ untrustedPrefix ++ [space] ∧
      newline ∉ trustedPrefix ++ [space] := by decide
  have hblock : file.algorithmBytes ++ file.keyId ++ file.signature ≠ [] := by
    intro hnil
    have hlength := congrArg List.length hnil
    simp [file.signature_length] at hlength
  have hglobal : file.globalSignature ≠ [] := by
    intro hnil
    have hlength := file.globalSignature_length
    simp [hnil] at hlength
  intro line hline
  simp only [lines, List.mem_cons, List.not_mem_nil, or_false] at hline
  rcases hline with rfl | rfl | rfl | rfl
  · constructor
    · rw [← List.singleton_append, ← List.append_assoc, List.mem_append,
        not_or]
      exact ⟨hopens.1, file.untrusted_line⟩
    · exact trim_opened_ne_nil (by decide) _
  · exact ⟨newline_not_mem_encode _, encode_ne_nil hblock⟩
  · constructor
    · rw [← List.singleton_append, ← List.append_assoc, List.mem_append,
        not_or]
      exact ⟨hopens.2, file.trusted_line.1⟩
    · exact trim_opened_ne_nil (by decide) _
  · exact ⟨newline_not_mem_encode _, encode_ne_nil hglobal⟩

theorem filledLines_render (ending : LineEnding) :
    filledLines (file.render ending) = file.lines.map trimRight :=
  filledLines_ended ending file.lines_filled

/-- What is read of the line with the trusted comment. -/
theorem trusted_read :
    trustedPrefix <+:
        trimLeft (trimRight (trustedPrefix ++ space :: file.trusted)) ∧
      trim ((trimLeft (trimRight (trustedPrefix ++ space ::
        file.trusted))).drop trustedPrefix.length) = trim file.trusted := by
  have hsplit : trustedPrefix = trustedPrefix.dropLast ++ [58] := by decide
  have hright : trimRight (trustedPrefix ++ space :: file.trusted) =
      trustedPrefix ++ trimRight (space :: file.trusted) := by
    rw [hsplit]
    exact trimRight_append (by decide) _
  have hleft : trimLeft (trustedPrefix ++
      trimRight (space :: file.trusted)) =
        trustedPrefix ++ trimRight (space :: file.trusted) := rfl
  rw [hright, hleft]
  constructor
  · exact List.prefix_append _ _
  · rw [List.drop_left, trim_trimRight]
    exact trim_cons_of_isSpace (by decide) _

theorem parseLines_lines :
    parseLines (file.lines.map trimRight) =
      .ok { file.contents with trustedComment := trim file.trusted } := by
  have hblock : ∀ bytes, trim (trimRight (Base64.encode bytes)) =
      Base64.encode bytes := by
    intro bytes
    rw [trim_trimRight, trim_encode]
  have hlength : (file.algorithmBytes ++ file.keyId ++
      file.signature).length = 74 := by
    unfold algorithmBytes
    split <;> simp [file.keyId_length, file.signature_length]
  have halgorithm : algorithmOf
      (file.algorithmBytes ++ file.keyId ++ file.signature) =
        .ok file.contents.algorithm := by
    unfold algorithmBytes contents
    cases file.prehashed <;> rfl
  have hkey : ((file.algorithmBytes ++ file.keyId ++
      file.signature).drop 2).take 8 = file.keyId := by
    unfold algorithmBytes
    split <;> simp [← file.keyId_length]
  have hsignature : (file.algorithmBytes ++ file.keyId ++
      file.signature).drop 10 = file.signature := by
    apply List.drop_left'
    unfold algorithmBytes
    split <;> simp [file.keyId_length]
  simp only [lines, List.map_cons, parseLines, decodeLine, hblock,
    Base64.decode_encode, file.trusted_read.1, file.trusted_read.2,
    hlength, halgorithm, hkey, hsignature, bind, Except.bind, ne_eq,
    not_true_eq_false, if_false]
  rfl

theorem wellFormed_ended (ending : LineEnding) {lines : List Text}
    (hlines : ∀ line ∈ lines, wellFormed line = true) :
    wellFormed (lines.flatMap (· ++ ending.units)) = true := by
  have hending : wellFormed ending.units = true := by
    cases ending <;> decide
  induction lines with
  | nil => rfl
  | cons line rest ih =>
      rw [List.flatMap_cons, List.append_assoc,
        wellFormed_append (hlines line List.mem_cons_self),
        wellFormed_append hending]
      apply ih
      intro other hother
      exact hlines other (List.mem_cons_of_mem _ hother)

theorem wellFormed_render (ending : LineEnding) :
    wellFormed (file.render ending) = true := by
  have hbase64 : ∀ bytes, wellFormed (Base64.encode bytes) = true := by
    intro bytes
    apply wellFormed_of_forall
    intro unit hunit
    apply Base64.isSurrogate_eq_false_of_isUnit
    exact Base64.isUnit_of_decode (Base64.decode_encode bytes) unit hunit
  have hopened : ∀ opening rest : Text,
      wellFormed (opening ++ [space]) = true → wellFormed rest = true →
        wellFormed (opening ++ space :: rest) = true := by
    intro opening rest hopening hrest
    rw [← List.singleton_append, ← List.append_assoc,
      wellFormed_append hopening, hrest]
  apply wellFormed_ended
  intro line hline
  simp only [lines, List.mem_cons, List.not_mem_nil, or_false] at hline
  rcases hline with rfl | rfl | rfl | rfl
  · exact hopened _ _ (by decide) file.wellFormed_untrusted
  · exact hbase64 _
  · exact hopened _ _ (by decide) file.wellFormed_trusted
  · exact hbase64 _

/-- Everything is recovered from either form, and the trusted comment
without the whitespace at its ends. -/
theorem parse_render (ending : LineEnding) (form : Form) :
    MinisignSignature.parse (form.of (file.render ending)) =
      .ok { file.contents with trustedComment := trim file.trusted } := by
  have hraw : untrustedPrefix <+: trimLeft (file.render ending) := by
    have hleft : trimLeft (file.render ending) = file.render ending := rfl
    rw [hleft, render, lines, List.flatMap_cons, List.append_assoc,
      List.append_assoc]
    exact List.prefix_append _ _
  have hlines : MinisignSignature.parse (file.render ending) =
      .ok { file.contents with trustedComment := trim file.trusted } := by
    rw [parse_of_isPrefix hraw, file.filledLines_render,
      file.parseLines_lines]
  cases form with
  | raw => exact hlines
  | wrapped =>
      rw [Form.of, parse_encode hraw,
        repaired_eq_self (file.wellFormed_render ending), hlines]

/-- The signed bytes are kept where the trusted comment neither begins nor
ends in whitespace. -/
theorem keepsSigned_iff (ending : LineEnding) (form : Form) :
    file.KeepsSigned ending form ↔
      ∀ unit, unit ∈ file.trusted.head? ∨ unit ∈ file.trusted.getLast? →
        isSpace unit = false := by
  rw [← trim_eq_self_iff]
  constructor
  · intro hkeeps
    rcases hkeeps with ⟨signature, hparse, hsame, -⟩
    rw [file.parse_render, Except.ok.injEq] at hparse
    rw [← hparse] at hsame
    exact congrArg MinisignSignature.trustedComment hsame
  · intro htrim
    refine ⟨file.contents, ?_, rfl, ?_⟩
    · rw [file.parse_render, htrim]
      rfl
    · intro crypto key hgenuine
      exact hgenuine

/-! ## A comment with a blank at its end -/

/-- What `minisign -t "version:2.1.0 "` writes. -/
def blankEnded : SignatureFile where
  untrusted := text "signature from minisign secret key"
  prehashed := true
  keyId := List.replicate 8 1
  signature := List.replicate 64 2
  trusted := text "version:2.1.0 "
  globalSignature := List.replicate 64 3
  keyId_length := rfl
  signature_length := rfl
  globalSignature_length := rfl
  untrusted_line := by decide
  trusted_line := by decide
  wellFormed_untrusted := by decide
  wellFormed_trusted := by decide

/-- A key that made the two signatures of this file and no other. -/
def itsCrypto : Crypto where
  verify _ message signature :=
    (message == blankEnded.signature ++ utf8Encode blankEnded.trusted &&
        signature == blankEnded.globalSignature) ||
      (message.isEmpty && signature == blankEnded.signature)
  blake2b512 payload := payload

def itsKey : MinisignPublicKey where
  algorithm := text "Ed"
  keyId := blankEnded.keyId
  key := []

/-- It is genuine, but what is read of it is refused. -/
theorem not_keepsSigned_blankEnded :
    ¬ blankEnded.KeepsSigned .lf .raw ∧
      blankEnded.Genuine itsCrypto itsKey.key ∧
      ∃ signature,
        MinisignSignature.parse (Form.raw.of (blankEnded.render .lf)) =
            .ok signature ∧
          (verify itsCrypto [] signature itsKey).toOption = none := by
  have htrimmed : trim blankEnded.trusted ≠ blankEnded.trusted := by decide
  refine ⟨?_, ?_, _, blankEnded.parse_render .lf .raw, ?_⟩
  · intro hkeeps
    rcases hkeeps with ⟨signature, hparse, hsame, -⟩
    rw [blankEnded.parse_render, Except.ok.injEq] at hparse
    rw [← hparse] at hsame
    exact htrimmed (congrArg MinisignSignature.trustedComment hsame)
  · unfold Genuine
    decide
  · decide

end SignatureFile

end Dovetail.Updater
