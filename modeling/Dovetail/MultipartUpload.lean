import Dovetail.MultipartForm
import Dovetail.UrlPaths

/-!
# Multipart uploads

`multipart_body` writes one file as one part.  Its file name goes into a
quoted parameter, so what would end the quotation or the line is replaced;
the content type is written as it is.
-/

namespace Dovetail.Http

open MultipartForm (Bytes Header Parameter crlf dashes delimiter headerBlock)

def encoded (text : List Char) : Bytes := text.flatMap String.utf8EncodeChar

/-- The characters that are trimmed off a Rust string. -/
def isWhitespace (char : Char) : Bool :=
  let code := char.toNat
  (9 ≤ code && code ≤ 13) || code == 0x20 || code == 0x85 || code == 0xA0 ||
    code == 0x1680 || (0x2000 ≤ code && code ≤ 0x200A) || code == 0x2028 ||
    code == 0x2029 || code == 0x202F || code == 0x205F || code == 0x3000

/-! ## Writing -/

def hexDigit (value : Nat) : Char :=
  if value < 10 then Char.ofNat (48 + value) else Char.ofNat (87 + value)

def hexEncode (bytes : Bytes) : List Char :=
  bytes.flatMap fun byte =>
    [hexDigit (byte.toNat / 16), hexDigit (byte.toNat % 16)]

def boundaryFor (sha256 : Bytes → Bytes) (bytes : Bytes) : List Char :=
  "----dovetail-".toList ++ hexEncode ((sha256 bytes).take 12)

def safeFilename (filename : List Char) : List Char :=
  let replaced := filename.map fun char =>
    if char ∈ ['"', '\r', '\n', '\\'] then '_' else char
  (replaced.dropWhile isWhitespace).rdropWhile isWhitespace

def multipartBody (boundary filename contentType : List Char)
    (bytes : Bytes) : Bytes :=
  encoded ("--".toList ++ boundary ++ "\r\n".toList) ++
    encoded ("Content-Disposition: form-data; ".toList ++
      "name=\"file\"; filename=\"".toList ++ safeFilename filename ++
        "\"\r\n".toList) ++
    encoded ("Content-Type: ".toList ++ contentType ++ "\r\n\r\n".toList) ++
    bytes ++ encoded ("\r\n--".toList ++ boundary ++ "--\r\n".toList)

/-! ## Bytes of texts -/

theorem encoded_append (text other : List Char) :
    encoded (text ++ other) = encoded text ++ encoded other :=
  List.flatMap_append

/-- A character of ASCII is one byte, and no other character has it. -/
theorem mem_encoded_iff {char : Char} (hascii : char.toNat < 128)
    {text : List Char} :
    UInt8.ofNat char.toNat ∈ encoded text ↔ char ∈ text := by
  have hbyte : (UInt8.ofNat char.toNat).toNat = char.toNat :=
    UrlPaths.toNat_ofNat_of_lt (by omega)
  have hsmall : (UInt8.ofNat char.toNat).toNat < 128 := by
    rw [hbyte]
    exact hascii
  rw [encoded, List.mem_flatMap]
  constructor
  · rintro ⟨point, hpoint, hmem⟩
    rw [UrlPaths.mem_utf8EncodeChar_iff hsmall, hbyte] at hmem
    rw [← Char.toNat_inj.mp hmem]
    exact hpoint
  · intro hmem
    refine ⟨char, hmem, ?_⟩
    rw [UrlPaths.mem_utf8EncodeChar_iff hsmall, hbyte]

/-! ## The headers -/

/-- The file name holds nothing that ends its quotation or its line. -/
theorem not_mem_safeFilename {char : Char}
    (hchar : char ∈ ['"', '\r', '\n', '\\']) (filename : List Char) :
    char ∉ safeFilename filename := by
  intro hmem
  have hreplaced := (List.dropWhile_suffix isWhitespace).subset
    ((List.rdropWhile_prefix isWhitespace _).subset hmem)
  rcases List.mem_map.mp hreplaced with ⟨original, -, hsame⟩
  split at hsame
  · rw [← hsame] at hchar
    exact absurd hchar (by decide)
  · rename_i hkept
    rw [hsame] at hkept
    exact hkept hchar

theorem not_mem_encoded_safeFilename {char : Char}
    (hchar : char ∈ ['"', '\r', '\n', '\\']) (filename : List Char) :
    UInt8.ofNat char.toNat ∉ encoded (safeFilename filename) := by
  have hascii : char.toNat < 128 := by
    have hall : ∀ special ∈ ['"', '\r', '\n', '\\'],
        special.toNat < 128 := by
      decide
    exact hall char hchar
  rw [mem_encoded_iff hascii]
  exact not_mem_safeFilename hchar filename

def fieldParameter : Parameter where
  name := encoded "name".toList
  value := encoded "file".toList
  name_plain := by decide
  value_plain := by decide

def filenameParameter (filename : List Char) : Parameter where
  name := encoded "filename".toList
  value := encoded (safeFilename filename)
  name_plain := by decide
  value_plain := by
    constructor
    · exact @not_mem_encoded_safeFilename '"' (by decide) filename
    · exact @not_mem_encoded_safeFilename '\\' (by decide) filename

def formData : Bytes := encoded "form-data".toList

def dispositionValue (filename : List Char) : Bytes :=
  formData ++
    [fieldParameter, filenameParameter filename].flatMap Parameter.text

/-- The disposition up to the file name. -/
def dispositionStart : Bytes :=
  encoded "form-data; name=\"file\"; filename=\"".toList

theorem dispositionValue_eq (filename : List Char) :
    dispositionValue filename =
      dispositionStart ++ (encoded (safeFilename filename) ++
        [MultipartForm.quoteMark]) := by
  have hstart : dispositionStart =
      formData ++ (fieldParameter.text ++ ([59, 32] ++
        (encoded "filename".toList ++ [61, 34]))) := by
    simp only [dispositionStart, formData, fieldParameter, Parameter.text,
      String.reduceToList]
    decide
  rw [hstart, dispositionValue]
  simp [Parameter.text, filenameParameter, MultipartForm.semicolon,
    MultipartForm.equalsSign, MultipartForm.quoteMark]

def dispositionHeader (filename : List Char) : Header where
  name := encoded "Content-Disposition".toList
  value := dispositionValue filename
  name_filled := by decide
  name_plain := by decide
  name_start := by decide
  value_plain := by
    rw [dispositionValue_eq, List.mem_append, List.mem_append, not_or, not_or]
    refine ⟨by decide, ?_, by decide⟩
    exact @not_mem_encoded_safeFilename '\r' (by decide) filename
  value_trimmed := by
    rw [dispositionValue_eq, ← List.append_assoc]
    exact MultipartForm.trimBlanks_eq (by decide) (by decide) _

/-- A value without a line break and without blanks around it. -/
structure PlainValue (value : List Char) : Prop where
  no_return : '\r' ∉ value
  no_newline : '\n' ∉ value
  trimmed : MultipartForm.trimBlanks (encoded value) = encoded value

def typeHeader {contentType : List Char} (hplain : PlainValue contentType) :
    Header where
  name := encoded "Content-Type".toList
  value := encoded contentType
  name_filled := by decide
  name_plain := by decide
  name_start := by decide
  value_plain := by
    exact (@mem_encoded_iff '\r' (by decide) _).not.mpr
      hplain.no_return
  value_trimmed := hplain.trimmed

/-- What is written is one part between its boundary and the end. -/
theorem multipartBody_eq (boundary filename : List Char)
    {contentType : List Char} (hplain : PlainValue contentType)
    (bytes : Bytes) :
    multipartBody boundary filename contentType bytes =
      dashes ++ encoded boundary ++ (crlf ++ (headerBlock
        [dispositionHeader filename, typeHeader hplain] ++ (crlf ++ (bytes ++
          (delimiter (encoded boundary) ++ (dashes ++ crlf)))))) := by
  have hdashes : encoded "--".toList = dashes := by decide
  have hcrlf : encoded "\r\n".toList = crlf := by decide
  have hempty : encoded "\r\n\r\n".toList = crlf ++ crlf := by decide
  have hnext : encoded "\r\n--".toList = crlf ++ dashes := by decide
  have hend : encoded "--\r\n".toList = dashes ++ crlf := by decide
  have hquote : encoded "\"\r\n".toList =
      [MultipartForm.quoteMark] ++ crlf := by decide
  have hdisposition (rest : Bytes) :
      encoded "Content-Disposition: form-data; ".toList ++
          (encoded "name=\"file\"; filename=\"".toList ++ rest) =
        encoded "Content-Disposition".toList ++
          ([MultipartForm.colon, 32] ++ (dispositionStart ++ rest)) := by
    have hstart : encoded "Content-Disposition: form-data; ".toList ++
        encoded "name=\"file\"; filename=\"".toList =
          encoded "Content-Disposition".toList ++
            ([MultipartForm.colon, 32] ++ dispositionStart) := by
      simp only [dispositionStart, String.reduceToList]
      decide
    rw [← List.append_assoc, hstart, List.append_assoc, List.append_assoc]
  have htype : encoded "Content-Type: ".toList =
      encoded "Content-Type".toList ++ [MultipartForm.colon, 32] := by
    simp only [String.reduceToList]
    decide
  have hname : (dispositionHeader filename).line =
      encoded "Content-Disposition".toList ++ ([MultipartForm.colon, 32] ++
        (dispositionStart ++ (encoded (safeFilename filename) ++
          [MultipartForm.quoteMark]))) := by
    rw [← dispositionValue_eq]
    rfl
  have hvalue : (typeHeader hplain).line =
      encoded "Content-Type".toList ++ ([MultipartForm.colon, 32] ++
        encoded contentType) := rfl
  simp only [multipartBody, encoded_append, hdashes, hcrlf, hempty, hnext,
    hend, hquote, htype, headerBlock, List.flatMap_cons, List.flatMap_nil,
    hname, hvalue, delimiter, hdisposition, List.append_assoc,
    List.nil_append]

/-! ## Round trip -/

/-- The boundary of an upload holds no line break. -/
theorem return_not_mem_boundaryFor (sha256 : Bytes → Bytes) (bytes : Bytes) :
    '\r' ∉ boundaryFor sha256 bytes := by
  have hdigit : ∀ value < 16, hexDigit value ≠ '\r' := by decide
  intro hmem
  rcases List.mem_append.mp hmem with hstart | hhex
  · exact absurd hstart (by decide)
  · rcases List.mem_flatMap.mp hhex with ⟨byte, -, hbyte⟩
    have hlow := hdigit (byte.toNat % 16) (Nat.mod_lt _ (by decide))
    have hhigh := hdigit (byte.toNat / 16) (by
      have hbound := byte.toNat_lt
      omega)
    rcases List.mem_cons.mp hbyte with hsame | hbyte
    · exact hhigh hsame.symm
    · exact hlow (List.mem_singleton.mp hbyte).symm

/-- The upload is read as one part with the file name, the content type and
the bytes. -/
theorem parse_multipartBody {boundary contentType : List Char}
    {bytes : Bytes} (filename : List Char) (hboundary : '\r' ∉ boundary)
    (hplain : PlainValue contentType)
    (hbytes : ¬ encoded boundary <:+: bytes) :
    MultipartForm.parse (encoded boundary)
        (multipartBody boundary filename contentType bytes) =
      some [⟨[(encoded "Content-Disposition".toList,
          dispositionValue filename),
        (encoded "Content-Type".toList, encoded contentType)], bytes⟩] ∧
      MultipartForm.parseDisposition (dispositionValue filename) =
        some ⟨formData, [(encoded "name".toList, encoded "file".toList),
          (encoded "filename".toList, encoded (safeFilename filename))]⟩ := by
  constructor
  · have hreturn : MultipartForm.carriageReturn ∉ encoded boundary :=
      (@mem_encoded_iff '\r' (by decide) _).not.mpr hboundary
    rw [multipartBody_eq boundary filename hplain bytes,
      MultipartForm.parse_part hreturn hbytes]
    rfl
  · exact MultipartForm.parseDisposition_append (by decide) _

theorem parse_multipartBody_note :
    MultipartForm.parse (encoded "EDGE".toList)
        (multipartBody "EDGE".toList "note.txt".toList "text/plain".toList
          [104, 105]) =
      some [⟨[(encoded "Content-Disposition".toList,
          dispositionValue "note.txt".toList),
        (encoded "Content-Type".toList, encoded "text/plain".toList)],
          [104, 105]⟩] ∧
      MultipartForm.parseDisposition (dispositionValue "note.txt".toList) =
        some ⟨formData, [(encoded "name".toList, encoded "file".toList),
          (encoded "filename".toList,
            encoded (safeFilename "note.txt".toList))]⟩ :=
  parse_multipartBody "note.txt".toList (by decide)
    ⟨by decide, by decide, by decide⟩ (by decide)

/-- The file name that a reader of the body finds. -/
def filenameOf (part : MultipartForm.Part) : Option Bytes := do
  let value ← part.headers.lookup (encoded "Content-Disposition".toList)
  let disposition ← MultipartForm.parseDisposition value
  disposition.parameters.lookup (encoded "filename".toList)

/-- A quotation mark in a file name is read as an underscore. -/
theorem parse_multipartBody_quoted :
    (MultipartForm.parse (encoded "EDGE".toList)
        (multipartBody "EDGE".toList "re\"port.pdf".toList
          "text/plain".toList [104, 105])).map (List.map filenameOf) =
      some [some (encoded "re_port.pdf".toList)] ∧
      encoded "re_port.pdf".toList ≠ encoded "re\"port.pdf".toList := by
  simp only [multipartBody, String.reduceToList]
  decide +kernel

end Dovetail.Http
