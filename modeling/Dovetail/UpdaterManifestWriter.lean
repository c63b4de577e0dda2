import Dovetail.UpdaterManifest

/-!
# Writing a manifest and reading it back

`ManifestWriter.render` wraps every signature once and parses what it wrote.
The parser finds in it the version, the notes unless they are blank, and the
entries in their order, with signatures that are read as those given.
-/

namespace Dovetail.Updater

open CodeUnits
open FallibleSteps
open JsonDocument

variable {Version Date : Type}

structure ManifestEntry where
  platformKey : Text
  url : Text
  signature : Text

/-! ## The writer -/

def writerVersion (runtime : Runtime Version Date) (raw : Text) :
    Except UpdateFailure Version :=
  match runtime.parseVersion (trim raw) with
  | some version => .ok version
  | none =>
      fail (text "the version \"" ++ raw ++
          text "\" is not a semantic version.")
        (some (text "The client compares it against what it has installed. A version it cannot parse is a manifest it rejects, which reads to the user as no update ever arriving."))

/-- The minisign text of a signature given raw or already wrapped. -/
def unwrapped (signature : Text) : Except UpdateFailure Text :=
  if untrustedPrefix <+: trimLeft signature then .ok signature
  else unwrap signature

def wrapChecked (signature : Text) : Except UpdateFailure Text := do
  let source ← unwrapped signature
  let _ ← MinisignSignature.parse source
  return Base64.encode (utf8Encode source)

def wrapped (signature platformKey : Text) : Except UpdateFailure Text :=
  match wrapChecked signature with
  | .ok field => .ok field
  | .error failure =>
      fail (text "the signature for \"" ++ platformKey ++
          text "\" is not a minisign signature: " ++ failure.message)
        (some (text "The manifest embeds the contents of the .minisig file, not a path to it and not a hash of the artefact."))

def releaseBlock (url field : Text) : Value :=
  .map [(text "url", .string url), (text "signature", .string field)]

def addPlatform (platforms : List (Text × Value)) (entry : ManifestEntry) :
    Except UpdateFailure (List (Text × Value)) :=
  if platforms.any fun platform => platform.1 == entry.platformKey then
    fail (text "the platform \"" ++ entry.platformKey ++
        text "\" is given twice.")
      (some (text "A manifest holds one artefact per platform, so the second would silently replace the first and half the clients would download the wrong file."))
  else if (trim entry.signature).isEmpty then
    fail (text "the signature for \"" ++ entry.platformKey ++
        text "\" is empty.")
      (some (text "A client refuses an unsigned release, so an empty signature ships a release nobody can install."))
  else if ¬ text "https://" <+: entry.url then
    fail (text "the url for \"" ++ entry.platformKey ++
        text "\" is not https.")
      (some (text "The signature makes tampering detectable, not invisible — but plain http also leaks which build a machine is running."))
  else do
    let field ← wrapped entry.signature entry.platformKey
    return platforms ++ [(entry.platformKey, releaseBlock entry.url field)]

/-- The notes that are written, which blank ones are not. -/
def writtenNotes (notes : Option Text) : Option Text :=
  notes.filter fun written => !(trim written).isEmpty

/-- The fields of a manifest. -/
def document (versionText : Text) (notes : Option Text)
    (platforms : List (Text × Value)) : List (Text × Value) :=
  (text "version", .string versionText) ::
    (((writtenNotes notes).map fun written =>
      (text "notes", Value.string written)).toList ++
        [(text "platforms", .map platforms)])

def render (runtime : Runtime Version Date) (version : Text)
    (entries : List ManifestEntry) (notes : Option Text) :
    Except UpdateFailure Text := do
  let parsed ← writerVersion runtime version
  if entries.isEmpty then
    fail (text
        "a manifest with no platform tells every client there is nothing for it.")
      (some (text "Name at least one platform and the artefact it points at."))
  else
    let platforms ← entries.foldlM addPlatform []
    let rendered := encode (text "  ") 0
      (.map (document (runtime.versionText parsed) notes platforms)) ++
        [newline]
    let _ ← parseManifest runtime rendered none
    return rendered

/-! ## What is written of an entry -/

/-- The block of an entry, with the wrapped signature. -/
def Written (entry : ManifestEntry) (platform : Text × Value) : Prop :=
  ∃ field, wrapChecked entry.signature = .ok field ∧
    platform = (entry.platformKey, releaseBlock entry.url field)

theorem addPlatform_eq_ok {platforms next : List (Text × Value)}
    {entry : ManifestEntry}
    (hadd : addPlatform platforms entry = .ok next) :
    ∃ platform, next = platforms ++ [platform] ∧ Written entry platform ∧
      platform.1 ∉ platforms.map Prod.fst := by
  unfold addPlatform at hadd
  split_ifs at hadd with hgiven hempty hplain
  · simp [fail] at hadd
  · simp [fail] at hadd
  · obtain ⟨field, hwrapped, hnext⟩ := bind_eq_ok_iff.mp hadd
    have hfield : wrapChecked entry.signature = .ok field := by
      unfold wrapped at hwrapped
      split at hwrapped
      · next found hfound => rw [hfound, Except.ok.inj hwrapped]
      · simp [fail] at hwrapped
    refine ⟨_, (Except.ok.inj hnext).symm, ⟨field, hfield, rfl⟩, ?_⟩
    intro hmem
    obtain ⟨platform, hplatform, hsame⟩ := List.mem_map.mp hmem
    exact hgiven (List.any_eq_true.mpr
      ⟨platform, hplatform, beq_iff_eq.mpr hsame⟩)
  · simp [fail] at hadd

/-- Every entry is written, in order, under a key of its own. -/
theorem foldlM_addPlatform_eq_ok {entries : List ManifestEntry}
    {done platforms : List (Text × Value)}
    (hfold : entries.foldlM addPlatform done = .ok platforms)
    (hdone : (done.map Prod.fst).Nodup) :
    ∃ added, platforms = done ++ added ∧ List.Forall₂ Written entries added ∧
      (platforms.map Prod.fst).Nodup := by
  induction entries generalizing done with
  | nil =>
      obtain rfl : done = platforms := by
        simpa [pure, Except.pure] using hfold
      exact ⟨[], by simp, .nil, hdone⟩
  | cons entry rest ih =>
      rw [List.foldlM_cons] at hfold
      obtain ⟨next, hadd, hrest⟩ := bind_eq_ok_iff.mp hfold
      obtain ⟨platform, rfl, hwritten, hfresh⟩ := addPlatform_eq_ok hadd
      have hnodup : ((done ++ [platform]).map Prod.fst).Nodup := by
        rw [List.map_append, List.map_singleton, List.nodup_append]
        refine ⟨hdone, List.nodup_singleton _, ?_⟩
        intro key hkey other hother hsame
        obtain rfl : other = platform.1 := by simpa using hother
        exact hfresh (hsame ▸ hkey)
      obtain ⟨added, hsplit, hadded, hkeys⟩ := ih hrest hnodup
      exact ⟨platform :: added, by simp [hsplit], .cons hwritten hadded,
        hkeys⟩

theorem plain_releaseBlock (url field : Text) :
    Plain (releaseBlock url field) := by
  refine .map (by simp; decide) ?_
  intro entry hentry
  simp only [List.mem_cons, List.not_mem_nil, or_false] at hentry
  rcases hentry with rfl | rfl <;> exact .string

theorem plain_document (versionText : Text) (notes : Option Text)
    {platforms : List (Text × Value)}
    (hkeys : (platforms.map Prod.fst).Nodup)
    (hplatforms : ∀ platform ∈ platforms, Plain platform.2) :
    Plain (.map (document versionText notes platforms)) := by
  have hbody : Plain (.map platforms) := .map hkeys hplatforms
  unfold document
  cases writtenNotes notes with
  | none =>
      refine .map (by simp; decide) ?_
      intro entry hentry
      simp only [Option.map_none, Option.toList_none, List.nil_append,
        List.mem_cons, List.not_mem_nil, or_false] at hentry
      rcases hentry with rfl | rfl
      · exact .string
      · exact hbody
  | some written =>
      refine .map (by simp; decide) ?_
      intro entry hentry
      simp only [Option.map_some, Option.toList_some, List.cons_append,
        List.nil_append, List.mem_cons, List.not_mem_nil, or_false] at hentry
      rcases hentry with rfl | rfl | rfl
      · exact .string
      · exact .string
      · exact hbody

theorem plain_of_written {entries : List ManifestEntry}
    {platforms : List (Text × Value)}
    (hwritten : List.Forall₂ Written entries platforms) :
    ∀ platform ∈ platforms, Plain platform.2 := by
  induction hwritten with
  | nil => simp
  | cons hfirst _ ih =>
      obtain ⟨field, -, rfl⟩ := hfirst
      exact List.forall_mem_cons.mpr ⟨plain_releaseBlock _ field, ih⟩

theorem decode_document (versionText : Text) (notes : Option Text)
    {entries : List ManifestEntry} {platforms : List (Text × Value)}
    (hkeys : (platforms.map Prod.fst).Nodup)
    (hwritten : List.Forall₂ Written entries platforms) :
    decode (encode (text "  ") 0
      (.map (document versionText notes platforms)) ++ [newline]) =
        some (.map (document versionText notes platforms)) :=
  decode_encode (List.all_eq_true.mp (by decide))
    (plain_document versionText notes hkeys (plain_of_written hwritten))
    (List.all_eq_true.mp (by decide))

/-! ## What the parser finds -/

theorem lookup_cons_self (key : String) (value : Value)
    (rest : List (Text × Value)) :
    lookup ((text key, value) :: rest) key = value := by
  simp [lookup]

theorem lookup_cons_of_ne {name key : String} (hne : text name ≠ text key)
    (value : Value) (rest : List (Text × Value)) :
    lookup ((text name, value) :: rest) key = lookup rest key := by
  have hother : (text name == text key) = false := by simpa using hne
  simp [lookup, hother]

section

variable {runtime : Runtime Version Date} {versionText : Text}
  {notes : Option Text} {platforms : List (Text × Value)}

theorem lookup_version :
    lookup (document versionText notes platforms) "version" =
      .string versionText :=
  lookup_cons_self _ _ _

theorem lookup_notes :
    lookup (document versionText notes platforms) "notes" =
      match writtenNotes notes with
      | none => .null
      | some written => .string written := by
  rw [document, lookup_cons_of_ne (by decide)]
  cases writtenNotes notes with
  | none => exact lookup_cons_of_ne (by decide) _ _
  | some written => exact lookup_cons_self _ _ _

theorem lookup_pub_date :
    lookup (document versionText notes platforms) "pub_date" = .null := by
  rw [document, lookup_cons_of_ne (by decide)]
  cases writtenNotes notes with
  | none => exact lookup_cons_of_ne (by decide) _ _
  | some written =>
      exact (lookup_cons_of_ne (by decide) _ _).trans
        (lookup_cons_of_ne (by decide) _ _)

theorem lookup_platforms :
    lookup (document versionText notes platforms) "platforms" =
      .map platforms := by
  rw [document, lookup_cons_of_ne (by decide)]
  cases writtenNotes notes with
  | none => exact lookup_cons_self _ _ _
  | some written =>
      exact (lookup_cons_of_ne (by decide) _ _).trans (lookup_cons_self _ _ _)

theorem fieldText?_notes :
    fieldText? runtime (document versionText notes platforms) "notes" =
      writtenNotes notes := by
  rw [fieldText?, lookup_notes]
  cases writtenNotes notes <;> rfl

theorem parsePublishedAt_document :
    parsePublishedAt runtime (document versionText notes platforms) =
      .ok none := by
  simp [parsePublishedAt, fieldText?, lookup_pub_date]

theorem parseReleases_document {releases : List (Text × PlatformRelease)}
    {platformKey : Option Text}
    (hparse : parseReleases runtime (document versionText notes platforms)
      platformKey = .ok releases) :
    platforms.mapM (parsePlatform runtime) = .ok releases := by
  simp only [parseReleases, lookup_platforms] at hparse
  split at hparse
  · simp [fail] at hparse
  · exact hparse

end

/-- What is assumed of `pub_semver`: a version keeps the text it was parsed
from, and that text does not start with a `v`. -/
structure KeepsText (runtime : Runtime Version Date) : Prop where
  versionText : ∀ source version, runtime.parseVersion source = some version →
    runtime.versionText version = source
  bare : ∀ source version, runtime.parseVersion source = some version →
    ¬ text "v" <+: source

theorem keepsText_releaseRuntime : KeepsText releaseRuntime where
  versionText source version hparse := by
    obtain ⟨-, -, hsame⟩ := Option.map_eq_some_iff.mp hparse
    exact hsame.symm
  bare source version hparse := by
    obtain ⟨numbers, hnumbers, -⟩ := Option.map_eq_some_iff.mp hparse
    rintro ⟨rest, rfl⟩
    have hletter : text "v" ++ rest = 118 :: rest := rfl
    obtain ⟨first, others, hsplit⟩ := List.exists_cons_of_ne_nil
      (List.splitOnP_ne_nil (· == 46) rest)
    -- The letter stays in the first part, which has digits only.
    simp [releaseNumbers?, hletter, List.splitOnP_cons_eq_if_modifyHead,
      hsplit, isDigit] at hnumbers

theorem parseVersion_document {runtime : Runtime Version Date}
    (hkeeps : KeepsText runtime) {raw : Text} {version : Version}
    (hversion : runtime.parseVersion (trim raw) = some version)
    (notes : Option Text) (platforms : List (Text × Value)) :
    parseVersion runtime
      (document (runtime.versionText version) notes platforms) =
        .ok version := by
  have hbare := hkeeps.bare _ _ hversion
  simp [parseVersion, fieldText?, lookup_version, valueText,
    hkeeps.versionText _ _ hversion, trim_trim, hbare, hversion]

/-! ## Signatures -/

/-- What was unwrapped came out of UTF-8, and nothing but base64 and
whitespace went in. -/
theorem unwrap_eq_ok {signature source : Text}
    (hraw : ¬ untrustedPrefix <+: trimLeft signature)
    (hunwrap : unwrap signature = .ok source) :
    untrustedPrefix <+: trimLeft source ∧ repaired source = source ∧
      repaired signature = signature := by
  have htrimmed : ¬ untrustedPrefix <+: trim signature :=
    fun hopening => hraw (isPrefix_trim_iff.mp hopening)
  simp only [unwrap, htrimmed, if_false] at hunwrap
  cases hdecode : Base64.decode
      ((trim signature).filter (· != newline)) with
  | none => simp [hdecode, fail] at hunwrap
  | some raw =>
      cases hutf8 : utf8Decode raw with
      | none => simp [hdecode, hutf8, fail] at hunwrap
      | some decoded =>
          simp only [hdecode, hutf8, Option.bind_some] at hunwrap
          split_ifs at hunwrap with hopening
          · obtain rfl : decoded = source := by simpa using hunwrap
            refine ⟨hopening, ?_, ?_⟩
            · obtain ⟨points, -, rfl⟩ := Option.map_eq_some_iff.mp hutf8
              rw [repaired, runes_flatMap_units]
            · refine repaired_eq_self_of_forall fun unit hunit => ?_
              rcases mem_or_isSpace_of_mem hunit with hinside | hspace
              · by_cases hnewline : unit = newline
                · rw [hnewline]
                  rfl
                · have hkept : unit ∈
                      (trim signature).filter (· != newline) :=
                    List.mem_filter.mpr ⟨hinside, by simpa using hnewline⟩
                  have hletter := Base64.isUnit_of_decode hdecode unit hkept
                  exact Base64.isSurrogate_eq_false_of_isUnit hletter
              · exact isSurrogate_of_isSpace hspace
          · simp [fail] at hunwrap

theorem wrapChecked_eq_ok {signature field : Text}
    (hwrap : wrapChecked signature = .ok field) :
    ∃ source, unwrapped signature = .ok source ∧
      Base64.encode (utf8Encode source) = field := by
  obtain ⟨source, hunwrapped, hchecked⟩ := bind_eq_ok_iff.mp hwrap
  obtain ⟨_, _, hfield⟩ := bind_eq_ok_iff.mp hchecked
  exact ⟨source, hunwrapped, Except.ok.inj hfield⟩

theorem trim_of_wrapChecked {signature field : Text}
    (hwrap : wrapChecked signature = .ok field) : trim field = field := by
  obtain ⟨source, -, hfield⟩ := wrapChecked_eq_ok hwrap
  have hdecode : Base64.decode field = some (utf8Encode source) := by
    rw [← hfield, Base64.decode_encode]
  have hunits := Base64.isUnit_of_decode hdecode
  exact trim_eq_self fun unit hunit =>
    Base64.isSpace_eq_false_of_isUnit (hunits unit hunit)

/-- The written field is read as the signature that was given. -/
theorem parse_of_wrapChecked {signature field : Text}
    (hwrap : wrapChecked signature = .ok field) :
    MinisignSignature.parse field =
      MinisignSignature.parse (repaired signature) := by
  obtain ⟨source, hunwrapped, hfield⟩ := wrapChecked_eq_ok hwrap
  rw [← hfield]
  by_cases hraw : untrustedPrefix <+: trimLeft signature
  · obtain rfl : signature = source := by
      simpa [unwrapped, hraw] using hunwrapped
    exact parse_encode hraw
  · have hunwrap : unwrap signature = .ok source := by
      simpa [unwrapped, hraw] using hunwrapped
    obtain ⟨hopening, hsource, hsignature⟩ := unwrap_eq_ok hraw hunwrap
    have hgiven : MinisignSignature.parse signature =
        parseLines (filledLines source) := by
      rw [MinisignSignature.parse, hunwrap]
      rfl
    calc MinisignSignature.parse (Base64.encode (utf8Encode source))
      _ = MinisignSignature.parse (repaired source) := parse_encode hopening
      _ = MinisignSignature.parse source := by rw [hsource]
      _ = parseLines (filledLines source) := parse_of_isPrefix hopening
      _ = MinisignSignature.parse (repaired signature) := by
          rw [hsignature, hgiven]

/-! ## Reading a rendered manifest -/

/-- A release of the manifest is that of an entry. -/
structure Carries (entry : ManifestEntry)
    (platform : Text × PlatformRelease) : Prop where
  platformKey : platform.1 = entry.platformKey
  url : platform.2.url = entry.url
  signature : MinisignSignature.parse platform.2.signature =
    MinisignSignature.parse (repaired entry.signature)
  wellFormed : wellFormed entry.signature = true →
    MinisignSignature.parse platform.2.signature =
      MinisignSignature.parse entry.signature

theorem parseRelease_releaseBlock {runtime : Runtime Version Date}
    {url field place : Text} {release : PlatformRelease}
    (hparse : parseRelease runtime [(text "url", .string url),
      (text "signature", .string field)] place = .ok release) :
    release = ⟨url, trim field⟩ := by
  have hurl : fieldText? runtime [(text "url", .string url),
      (text "signature", .string field)] "url" = some url := by
    rw [fieldText?, lookup_cons_self]
    rfl
  have hsignature : fieldText? runtime [(text "url", .string url),
      (text "signature", .string field)] "signature" = some field := by
    rw [fieldText?, lookup_cons_of_ne (by decide), lookup_cons_self]
    rfl
  simp only [parseRelease, hurl, hsignature] at hparse
  split_ifs at hparse
  · simp [fail] at hparse
  · simp [fail] at hparse
  · simp [fail] at hparse
  · simpa using hparse.symm

theorem carries_of_parsePlatform {runtime : Runtime Version Date}
    {entry : ManifestEntry} {block : Text × Value}
    {platform : Text × PlatformRelease} (hwritten : Written entry block)
    (hparse : parsePlatform runtime block = .ok platform) :
    Carries entry platform := by
  obtain ⟨field, hwrap, rfl⟩ := hwritten
  obtain ⟨release, hrelease, hplatform⟩ := bind_eq_ok_iff.mp hparse
  have hread := parseRelease_releaseBlock hrelease
  rw [trim_of_wrapChecked hwrap] at hread
  have hsignature := parse_of_wrapChecked hwrap
  obtain rfl := Except.ok.inj hplatform
  subst hread
  exact {
    platformKey := rfl
    url := rfl
    signature := hsignature
    wellFormed := fun hwell => by rw [hsignature, repaired_eq_self hwell] }

theorem forall₂_carries {runtime : Runtime Version Date}
    {entries : List ManifestEntry} {blocks : List (Text × Value)}
    {releases : List (Text × PlatformRelease)}
    (hwritten : List.Forall₂ Written entries blocks)
    (hparse : blocks.mapM (parsePlatform runtime) = .ok releases) :
    List.Forall₂ Carries entries releases := by
  have hparsed := forall₂_of_mapM_eq_ok hparse
  clear hparse
  induction hwritten generalizing releases with
  | nil =>
      cases hparsed
      exact .nil
  | cons hfirst _ ih =>
      cases hparsed with
      | cons hblock hblocks =>
          exact .cons (carries_of_parsePlatform hfirst hblock) (ih hblocks)

/-- The steps of a rendering that went through. -/
theorem render_eq_ok {runtime : Runtime Version Date} {version : Text}
    {entries : List ManifestEntry} {notes : Option Text} {rendered : Text}
    (hrender : render runtime version entries notes = .ok rendered) :
    ∃ parsed platforms manifest,
      runtime.parseVersion (trim version) = some parsed ∧
        entries.foldlM addPlatform [] = .ok platforms ∧
        rendered = encode (text "  ") 0
          (.map (document (runtime.versionText parsed) notes platforms)) ++
            [newline] ∧
        parseManifest runtime rendered none = .ok manifest := by
  obtain ⟨parsed, hwriter, hrest⟩ := bind_eq_ok_iff.mp hrender
  have hversion : runtime.parseVersion (trim version) = some parsed := by
    unfold writerVersion at hwriter
    split at hwriter
    · next found hfound => rw [hfound, Except.ok.inj hwriter]
    · simp [fail] at hwriter
  split_ifs at hrest
  · simp [fail] at hrest
  · obtain ⟨platforms, hfold, hrest⟩ := bind_eq_ok_iff.mp hrest
    obtain ⟨manifest, hparse, hrendered⟩ := bind_eq_ok_iff.mp hrest
    obtain rfl := Except.ok.inj hrendered
    exact ⟨parsed, platforms, manifest, hversion, hfold, rfl, hparse⟩

/-- What was rendered is read back: the version, the notes that are written,
and the entries in their order. -/
theorem parseManifest_render {runtime : Runtime Version Date}
    (hkeeps : KeepsText runtime) {version : Text}
    {entries : List ManifestEntry} {notes : Option Text} {rendered : Text}
    (hrender : render runtime version entries notes = .ok rendered)
    (platformKey : Option Text) :
    ∃ manifest, parseManifest runtime rendered platformKey = .ok manifest ∧
      runtime.parseVersion (trim version) = some manifest.version ∧
      manifest.notes = writtenNotes notes ∧
      List.Forall₂ Carries entries manifest.releases := by
  obtain ⟨parsed, platforms, manifest, hversion, hfold, hrendered, hparse⟩ :=
    render_eq_ok hrender
  obtain ⟨added, hadded, hwritten, hkeys⟩ :=
    foldlM_addPlatform_eq_ok hfold List.nodup_nil
  obtain rfl : platforms = added := by simpa using hadded
  have hdecode := decode_document (runtime.versionText parsed) notes hkeys
    hwritten
  rw [← hrendered] at hdecode
  have hread := parseVersion_document hkeeps hversion notes platforms
  have hparsed := hparse
  simp only [parseManifest, hdecode, hread, bind, Except.bind] at hparsed
  cases hreleases : parseReleases runtime (document
      (runtime.versionText parsed) notes platforms) none with
  | error failure => simp [hreleases] at hparsed
  | ok releases =>
      simp only [hreleases, parsePublishedAt_document, fieldText?_notes, pure,
        Except.pure, Except.ok.injEq] at hparsed
      have hcarries := forall₂_carries hwritten
        (parseReleases_document hreleases)
      refine ⟨manifest, parseManifest_eq_of_ok hparse platformKey, ?_⟩
      rw [← hparsed]
      exact ⟨hversion, rfl, hcarries⟩

/-- A signature block of zeros by the key of zeros. -/
def blankSignature (comment : String) : Text :=
  text "untrusted comment: signature\nRWQA" ++ List.replicate 95 65 ++
    text "=\ntrusted comment: " ++ text comment ++ text "\nAA==\n"

def blankKey : Text :=
  text "untrusted comment: minisign public key\nRWQA" ++
    List.replicate 52 65

/-- Only one payload and one comment were ever signed, with zeros. -/
def signedOnce (payload : Bytes) (comment : Text) : Crypto where
  verify _ message _ :=
    message == payload ||
      message == List.replicate 64 0 ++ utf8Encode comment
  blake2b512 := id

def sampleEntry : ManifestEntry where
  platformKey := text "darwin-aarch64"
  url := text "https://example.com/app.tar.gz"
  signature := blankSignature "version:2.0.0\tfile:app.tar.gz"

theorem parseManifest_render_sample :
    ∃ rendered manifest,
      render releaseRuntime (text "2.0.0") [sampleEntry]
          (some (text "Faster.")) = .ok rendered ∧
        parseManifest releaseRuntime rendered none = .ok manifest ∧
        manifest.notes = some (text "Faster.") ∧
        List.Forall₂ Carries [sampleEntry] manifest.releases := by
  have hok : (render releaseRuntime (text "2.0.0") [sampleEntry]
      (some (text "Faster."))).isOk = true := by decide +kernel
  cases hrender : render releaseRuntime (text "2.0.0") [sampleEntry]
      (some (text "Faster.")) with
  | error failure => simp [hrender, Except.isOk, Except.toBool] at hok
  | ok rendered =>
      obtain ⟨manifest, hparse, -, hnotes, hcarries⟩ :=
        parseManifest_render keepsText_releaseRuntime hrender none
      exact ⟨rendered, manifest, rfl, hparse, hnotes, hcarries⟩

/-- Blank notes are left out of the manifest. -/
theorem blank_notes_are_not_read_back :
    ∃ rendered manifest,
      render releaseRuntime (text "2.0.0") [sampleEntry]
          (some (text " ")) = .ok rendered ∧
        parseManifest releaseRuntime rendered none = .ok manifest ∧
        manifest.notes ≠ some (text " ") := by
  have hnotes : ((render releaseRuntime (text "2.0.0") [sampleEntry]
      (some (text " "))).bind fun rendered =>
        (parseManifest releaseRuntime rendered none).map (·.notes)) =
          .ok none := by decide +kernel
  cases hrender : render releaseRuntime (text "2.0.0") [sampleEntry]
      (some (text " ")) with
  | error failure => simp [hrender, Except.bind] at hnotes
  | ok rendered =>
      cases hparse : parseManifest releaseRuntime rendered none with
      | error failure =>
          simp [hrender, hparse, Except.bind, Except.map] at hnotes
      | ok manifest =>
          have hnone : manifest.notes = none := by
            simpa [hrender, hparse, Except.bind, Except.map] using hnotes
          exact ⟨rendered, manifest, rfl, hparse, by simp [hnone]⟩

end Dovetail.Updater
