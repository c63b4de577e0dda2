import Dovetail.Base64
import Dovetail.FallibleSteps

/-!
# Minisign texts in the updater

The public key and the signature as the updater reads them, raw or wrapped
in base64, and the verification of a payload.  Ed25519 and BLAKE2b are
parameters.
-/

namespace Dovetail.Updater

open CodeUnits

abbrev Bytes := List UInt8

structure UpdateFailure where
  message : Text
  remedy : Option Text
  deriving DecidableEq

def fail {α : Type} (message : Text) (remedy : Option Text) :
    Except UpdateFailure α :=
  .error ⟨message, remedy⟩

def untrustedPrefix : Text := text "untrusted comment:"

def trustedPrefix : Text := text "trusted comment:"

/-! ## Public key -/

structure MinisignPublicKey where
  algorithm : Text
  keyId : Bytes
  key : Bytes
  deriving DecidableEq

/-- The upper-case hexadecimal digits of the key id, last byte first. -/
def keyIdHex (keyId : Bytes) : Text :=
  keyId.reverse.flatMap fun byte =>
    [byte.toNat / 16, byte.toNat % 16].map fun digit =>
      UInt16.ofNat (if digit < 10 then 48 + digit else 55 + digit)

/-- A byte outside of ASCII becomes the replacement character. -/
def asciiDecode (bytes : Bytes) : Text :=
  bytes.map fun byte =>
    if byte.toNat < 128 then UInt16.ofNat byte.toNat else 0xFFFD

def algorithmOf (raw : Bytes) : Except UpdateFailure Text :=
  let algorithm := asciiDecode (raw.take 2)
  if algorithm = text "Ed" ∨ algorithm = text "ED" then .ok algorithm
  else fail (text "the signature algorithm is not Ed/ED.") none

def unwrap (encoded : Text) : Except UpdateFailure Text :=
  let trimmed := trim encoded
  if untrustedPrefix <+: trimmed then .ok trimmed
  else
    match (Base64.decode (trimmed.filter (· != newline))).bind utf8Decode with
    | none =>
        fail (text "the value is neither minisign text nor base64 around it.")
          (some (text "Tauri stores both the public key and the signature as base64 on top of the standard minisign text. A raw minisign signature will not be accepted by clients already in the field."))
    | some decoded =>
        if untrustedPrefix <+: trimLeft decoded then .ok decoded
        else
          fail (text
            "the base64 decoded to something that is not minisign text.") none

def decodeLine (line what : Text) : Except UpdateFailure Bytes :=
  match Base64.decode line with
  | some raw => .ok raw
  | none =>
      fail (text "the " ++ what ++ text " line is not valid base64.") none

def MinisignPublicKey.parse (encoded : Text) :
    Except UpdateFailure MinisignPublicKey := do
  let source ← unwrap encoded
  let lines := ((source.splitOnP (· == newline)).map trim).filter
    fun line => !line.isEmpty
  match lines with
  | _ :: second :: rest =>
      let raw ← decodeLine ((second :: rest).getLast (by simp))
        (text "public key")
      if raw.length ≠ 42 then
        fail (text "a minisign public key is 42 bytes; this one is " ++
          text (toString raw.length) ++ text ".") none
      else
        let algorithm ← algorithmOf raw
        return { algorithm, keyId := (raw.drop 2).take 8, key := raw.drop 10 }
  | _ =>
      fail (text "a minisign public key needs a comment line and a key line.")
        none

/-! ## Signature -/

structure MinisignSignature where
  algorithm : Text
  keyId : Bytes
  signature : Bytes
  trustedComment : Text
  globalSignature : Bytes
  deriving DecidableEq

def MinisignSignature.isPrehashed (signature : MinisignSignature) : Bool :=
  signature.algorithm == text "ED"

def parseLines (lines : List Text) : Except UpdateFailure MinisignSignature :=
  match lines with
  | _ :: block :: trusted :: global :: _ => do
      let raw ← decodeLine (trim block) (text "signature")
      if raw.length ≠ 74 then
        fail (text "a minisign signature block is 74 bytes; this one is " ++
          text (toString raw.length) ++ text ".") none
      else
        let trustedLine := trimLeft trusted
        if ¬ trustedPrefix <+: trustedLine then
          fail (text "the third line is not a trusted comment.") none
        else
          let algorithm ← algorithmOf raw
          let globalSignature ←
            decodeLine (trim global) (text "global signature")
          return {
            algorithm
            keyId := (raw.drop 2).take 8
            signature := raw.drop 10
            trustedComment := trim (trustedLine.drop trustedPrefix.length)
            globalSignature }
  | _ =>
      fail (text "a minisign signature has four lines: untrusted comment, signature, trusted comment, global signature.") none

def MinisignSignature.parse (encoded : Text) :
    Except UpdateFailure MinisignSignature := do
  let source ← unwrap encoded
  parseLines (filledLines source)

/-! ## Verification -/

structure Crypto where
  verify : Bytes → Bytes → Bytes → Bool
  blake2b512 : Bytes → Bytes

/-- The bytes the signature is made over. -/
def signedMessage (crypto : Crypto) (payload : Bytes)
    (signature : MinisignSignature) : Bytes :=
  if signature.isPrehashed then crypto.blake2b512 payload else payload

/-- The bytes the global signature is made over. -/
def boundComment (signature : MinisignSignature) : Bytes :=
  signature.signature ++ utf8Encode signature.trustedComment

def sameKeyId (a b : Bytes) : Bool :=
  if a.length ≠ b.length then false
  else
    (a.zip b).foldl (fun difference pair => difference ||| (pair.1 ^^^ pair.2))
      0 == 0

def verify (crypto : Crypto) (payload : Bytes) (signature : MinisignSignature)
    (publicKey : MinisignPublicKey) : Except UpdateFailure Unit :=
  if !sameKeyId signature.keyId publicKey.keyId then
    fail (text "the signature was made by key " ++ keyIdHex signature.keyId ++
        text " but the app trusts " ++ keyIdHex publicKey.keyId ++ text ".")
      (some (text "A build signed with the wrong private key produces artefacts no installed client accepts. Fail here rather than in the field."))
  else if !crypto.verify publicKey.key (signedMessage crypto payload signature)
      signature.signature then
    fail (text "the artefact does not match its signature.")
      (some (text "Nothing is installed. The download was altered or truncated."))
  else if !crypto.verify publicKey.key (boundComment signature)
      signature.globalSignature then
    fail (text "the trusted comment is not bound to this signature.")
      (some (text "The comment carries the timestamp and the file name. A signature replayed onto another file would land here."))
  else .ok ()

theorem verify_eq_ok_iff {crypto : Crypto} {payload : Bytes}
    {signature : MinisignSignature} {publicKey : MinisignPublicKey} :
    verify crypto payload signature publicKey = .ok () ↔
      sameKeyId signature.keyId publicKey.keyId = true ∧
        crypto.verify publicKey.key (signedMessage crypto payload signature)
          signature.signature = true ∧
        crypto.verify publicKey.key (boundComment signature)
          signature.globalSignature = true := by
  unfold verify
  split_ifs with hkey hpayload hcomment <;> simp_all [fail]

/-! ## What a wrapped signature stands for -/

/-- The first line of a signature is never read. -/
theorem parseLines_eq_of_tail?_eq {lines others : List Text}
    (htail : lines.tail? = others.tail?) :
    parseLines lines = parseLines others := by
  cases lines with
  | nil =>
      cases others with
      | nil => rfl
      | cons other rest => simp at htail
  | cons line rest =>
      cases others with
      | nil => simp at htail
      | cons other others =>
          obtain rfl : rest = others := by simpa using htail
          rcases rest with _ | ⟨_, _ | ⟨_, _ | _⟩⟩ <;> rfl

/-- Trimming the end cuts nothing off the untrusted comment. -/
theorem isPrefix_trim_iff {source : Text} :
    untrustedPrefix <+: trim source ↔ untrustedPrefix <+: trimLeft source := by
  have hlast : untrustedPrefix = untrustedPrefix.dropLast ++ [58] := by
    decide
  rw [trim_eq_trimRight_trimLeft, hlast]
  exact isPrefix_trimRight_iff (by decide)

theorem unwrap_of_isPrefix {source : Text}
    (hraw : untrustedPrefix <+: trimLeft source) :
    unwrap source = .ok (trim source) := by
  have htrimmed := isPrefix_trim_iff.mpr hraw
  simp [unwrap, htrimmed]

/-- A raw signature is read from its own lines. -/
theorem parse_of_isPrefix {source : Text}
    (hraw : untrustedPrefix <+: trimLeft source) :
    MinisignSignature.parse source = parseLines (filledLines source) := by
  rw [MinisignSignature.parse, unwrap_of_isPrefix hraw]
  exact parseLines_eq_of_tail?_eq (tail?_filledLines_trim source)

/-- The text of base64 units alone starts no minisign text. -/
theorem not_isPrefix_of_isUnit {source : Text}
    (hunits : ∀ unit ∈ source, Base64.isUnit unit = true) :
    ¬ untrustedPrefix <+: source := by
  intro hopens
  have hspace : (32 : UInt16) ∈ source := hopens.subset (by decide)
  exact absurd (hunits 32 hspace) (by decide)

theorem unwrap_of_decode {wrapped : Text} {raw : Bytes}
    (hdecode : Base64.decode wrapped = some raw) :
    unwrap wrapped =
      match utf8Decode raw with
      | none =>
          fail (text
            "the value is neither minisign text nor base64 around it.")
            (some (text "Tauri stores both the public key and the signature as base64 on top of the standard minisign text. A raw minisign signature will not be accepted by clients already in the field."))
      | some decoded =>
          if untrustedPrefix <+: trimLeft decoded then .ok decoded
          else
            fail (text
              "the base64 decoded to something that is not minisign text.")
              none := by
  have hunits := Base64.isUnit_of_decode hdecode
  have htrim : trim wrapped = wrapped := trim_eq_self fun unit hunit =>
    Base64.isSpace_eq_false_of_isUnit (hunits unit hunit)
  have hfilter : wrapped.filter (· != newline) = wrapped := by
    refine List.filter_eq_self.mpr fun unit hunit => ?_
    have hspace := Base64.isSpace_eq_false_of_isUnit (hunits unit hunit)
    rw [bne_iff_ne]
    rintro rfl
    exact Bool.noConfusion hspace
  simp only [unwrap, htrim, not_isPrefix_of_isUnit hunits, if_false, hfilter,
    hdecode, Option.bind_some]

/-- What is wrapped stands for the lines of what it wraps. -/
theorem parse_of_decode {wrapped source : Text} {raw : Bytes}
    (hdecode : Base64.decode wrapped = some raw)
    (hsource : utf8Decode raw = some source)
    (hraw : untrustedPrefix <+: trimLeft source) :
    MinisignSignature.parse wrapped = parseLines (filledLines source) := by
  rw [MinisignSignature.parse, unwrap_of_decode hdecode]
  simp only [hsource, hraw, if_true]
  rfl

theorem isPrefix_trimLeft_repaired {source : Text}
    (hraw : untrustedPrefix <+: trimLeft source) :
    untrustedPrefix <+: trimLeft (repaired source) := by
  obtain ⟨rest, hrest⟩ := hraw
  have hblank : ∀ unit ∈ source.takeWhile isSpace, isSpace unit = true :=
    fun _ => List.mem_takeWhile_imp
  have hsource : source =
      (source.takeWhile isSpace ++ untrustedPrefix) ++ rest := by
    rw [List.append_assoc, hrest]
    exact List.takeWhile_append_dropWhile.symm
  have hall : untrustedPrefix.all (fun unit => !isSurrogate unit) = true := by
    decide
  have hletters : ∀ unit ∈ untrustedPrefix, isSurrogate unit = false := by
    simpa using hall
  have hplain : ∀ unit ∈ source.takeWhile isSpace ++ untrustedPrefix,
      isSurrogate unit = false := by
    intro unit hunit
    rcases List.mem_append.mp hunit with hspace | hopening
    · exact isSurrogate_of_isSpace (hblank unit hspace)
    · exact hletters unit hopening
  rw [hsource, repaired_append hplain, List.append_assoc, trimLeft,
    List.dropWhile_append_of_pos hblank]
  exact List.prefix_append _ _

/-- Wrapping a raw signature keeps what it is read as, once its lone
surrogates are replaced. -/
theorem parse_encode {source : Text}
    (hraw : untrustedPrefix <+: trimLeft source) :
    MinisignSignature.parse (Base64.encode (utf8Encode source)) =
      MinisignSignature.parse (repaired source) := by
  have hrepaired := isPrefix_trimLeft_repaired hraw
  have hdecode := Base64.decode_encode (utf8Encode source)
  have hutf8 := utf8Decode_utf8Encode source
  rw [parse_of_isPrefix hrepaired]
  rcases flatMap_dropMark (runes source) with hsame | hmark
  · rw [hsame] at hutf8
    exact parse_of_decode hdecode hutf8 hrepaired
  · have hsplit : repaired source =
        0xFEFF :: (dropMark (runes source)).flatMap units := hmark
    have hspace : isSpace 0xFEFF = true := by decide
    rw [hsplit, trimLeft, List.dropWhile_cons_of_pos hspace] at hrepaired
    rw [parse_of_decode hdecode hutf8 hrepaired, hsplit]
    exact parseLines_eq_of_tail?_eq
      (tail?_filledLines_cons_of_isSpace hspace _).symm

end Dovetail.Updater
