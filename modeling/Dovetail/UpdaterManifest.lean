import Dovetail.JsonDocument
import Dovetail.UpdaterMinisign

/-!
# The update manifest

`ManifestParser` and the manifest it yields.  Semantic versions, dates, and
the texts the runtime gives numbers and its own errors are parameters.
-/

namespace Dovetail.Updater

open CodeUnits
open JsonDocument

/-- What the updater uses of `pub_semver` and of the language's runtime. -/
structure Runtime (Version Date : Type) where
  parseVersion : Text → Option Version
  versionText : Version → Text
  sameVersion : Version → Version → Bool
  versionLess : Version → Version → Bool
  parseDate : Text → Option Date
  dateFields : Date → Int × Int × Int
  numberText : Text → Text
  jsonError : Text → Text
  utf8Error : Bytes → Text

structure PlatformRelease where
  url : Text
  signature : Text
  deriving DecidableEq

/-- The releases by their platform key, in the order of the manifest. -/
structure UpdateManifest (Version Date : Type) where
  version : Version
  releases : List (Text × PlatformRelease)
  notes : Option Text
  publishedAt : Option Date
  deriving DecidableEq

variable {Version Date : Type}

def join (separator : Text) : List Text → Text
  | [] => []
  | [part] => part
  | part :: rest => part ++ separator ++ join separator rest

mutual

/-- `toString` of a decoded value. -/
def valueText (numberText : Text → Text) : Value → Text
  | .null => text "null"
  | .bool true => text "true"
  | .bool false => text "false"
  | .number spelling => numberText spelling
  | .string value => value
  | .list items =>
      text "[" ++ join (text ", ") (itemTexts numberText items) ++ text "]"
  | .map fields =>
      text "\x7b" ++ join (text ", ") (fieldTexts numberText fields) ++
        text "\x7d"

def itemTexts (numberText : Text → Text) : List Value → List Text
  | [] => []
  | item :: rest => valueText numberText item :: itemTexts numberText rest

def fieldTexts (numberText : Text → Text) :
    List (Text × Value) → List Text
  | [] => []
  | (key, value) :: rest =>
      (key ++ text ": " ++ valueText numberText value) ::
        fieldTexts numberText rest

end

/-- The value under a key, `null` when there is none. -/
def lookup (fields : List (Text × Value)) (key : String) : Value :=
  ((fields.find? fun entry => entry.1 == text key).map Prod.snd).getD .null

/-- The text of a field that is neither missing nor `null`. -/
def fieldText? (runtime : Runtime Version Date)
    (fields : List (Text × Value)) (key : String) : Option Text :=
  match lookup fields key with
  | .null => none
  | value => some (valueText runtime.numberText value)

/-! ## Fields -/

def parseVersion (runtime : Runtime Version Date)
    (fields : List (Text × Value)) : Except UpdateFailure Version :=
  match (fieldText? runtime fields "version").or
      (fieldText? runtime fields "name") with
  | none => fail (text "the manifest has no version.") none
  | some raw =>
      let trimmed := trim raw
      let bare := if text "v" <+: trimmed then trimmed.drop 1 else trimmed
      match runtime.parseVersion bare with
      | some version => .ok version
      | none =>
          fail (text "\"" ++ trimmed ++
            text "\" is not a semantic version.") none

def looksLikeReference (value : Text) : Bool :=
  if text "http://" <+: value ∨ text "https://" <+: value then true
  else if text "/" <+: value ∧ newline ∉ value then true
  else if text ".sig" <:+ value ∨ text ".minisig" <:+ value then true
  else text "file://" <+: value

def parseRelease (runtime : Runtime Version Date)
    (fields : List (Text × Value)) (place : Text) :
    Except UpdateFailure PlatformRelease :=
  match fieldText? runtime fields "url" with
  | none => fail (place ++ text " has no url.") none
  | some url =>
      if (trim url).isEmpty then fail (place ++ text " has no url.") none
      else
        match fieldText? runtime fields "signature" with
        | none => fail (place ++ text " has no signature.") none
        | some signature =>
            let signatureText := trim signature
            if signatureText.isEmpty then
              fail (place ++ text " has no signature.") none
            else if looksLikeReference signatureText then
              fail (place ++ text
                  " carries a path or a URL where the signature belongs.")
                (some (text "The field holds the content of the .sig file, not a reference to it. A path here is silently unverifiable."))
            else .ok { url, signature := signatureText }

/-- The number of so many digits at the start of the text, and the rest. -/
def digits? : Nat → Text → Option (Nat × Text)
  | 0, rest => some (0, rest)
  | _ + 1, [] => none
  | count + 1, unit :: rest =>
      if isDigit unit then
        (digits? count rest).map fun (value, others) =>
          ((unit.toNat - 48) * 10 ^ count + value, others)
      else none

/-- The date a text starts with, `\d{4}-\d{2}-\d{2}`. -/
def writtenDate? (source : Text) : Option (Int × Int × Int) := do
  let (year, rest) ← digits? 4 source
  let rest ← rest.dropPrefix? (text "-")
  let (month, rest) ← digits? 2 rest
  let rest ← rest.dropPrefix? (text "-")
  let (day, _) ← digits? 2 rest
  return (year, month, day)

def parsePublishedAt (runtime : Runtime Version Date)
    (fields : List (Text × Value)) : Except UpdateFailure (Option Date) :=
  match fieldText? runtime fields "pub_date" with
  | none => .ok none
  | some raw =>
      let trimmed := trim raw
      match runtime.parseDate trimmed with
      | none =>
          fail (text "the manifest carries a pub_date of \"" ++ trimmed ++
              text "\", which is not a date.")
            (some (text "A date the client cannot read used to be treated as no date at all, so a typo silently removed the publication time."))
      | some date =>
          -- Without written fields there is nothing to compare with.
          if (writtenDate? trimmed).all (· == runtime.dateFields date) then
            .ok (some date)
          else
            fail (text "the pub_date \"" ++ trimmed ++
                text "\" is not the date it names.")
              (some (text "DateTime rolls a month of 13 or an hour of 99 forward instead of refusing, so an out-of-range field becomes a plausible date months away from the one that was written."))

/-! ## Manifest -/

def parsePlatform (runtime : Runtime Version Date)
    (entry : Text × Value) : Except UpdateFailure (Text × PlatformRelease) :=
  match entry.2 with
  | .map fields => do
      let release ← parseRelease runtime fields entry.1
      return (entry.1, release)
  | _ =>
      fail (text "the " ++ entry.1 ++ text " block is not a JSON object.") none

/-- The releases of a manifest: one for the given platform when it has no
`platforms`, else one for each of them. -/
def parseReleases (runtime : Runtime Version Date)
    (fields : List (Text × Value)) (platformKey : Option Text) :
    Except UpdateFailure (List (Text × PlatformRelease)) :=
  match lookup fields "platforms" with
  | .null =>
      match platformKey with
      | none =>
          fail (text "this manifest has no platforms map, so it answers for one platform only, and no platform key was given to file it under.") none
      | some key => do
          let release ← parseRelease runtime fields key
          return [(key, release)]
  | .map platforms =>
      if platforms.isEmpty then fail (text "platforms is empty.") none
      else platforms.mapM (parsePlatform runtime)
  | _ => fail (text "platforms is not a JSON object.") none

def parseManifest (runtime : Runtime Version Date) (body : Text)
    (platformKey : Option Text) :
    Except UpdateFailure (UpdateManifest Version Date) :=
  match JsonDocument.decode body with
  | none =>
      fail (text "the manifest is not valid JSON: " ++
        runtime.jsonError body) none
  | some (.map fields) => do
      let version ← parseVersion runtime fields
      let releases ← parseReleases runtime fields platformKey
      let publishedAt ← parsePublishedAt runtime fields
      return { version, releases, notes := fieldText? runtime fields "notes",
               publishedAt }
  | some _ => fail (text "the manifest is not a JSON object.") none

def releaseOf? {Version Date : Type} (manifest : UpdateManifest Version Date)
    (platformKey : Text) : Option PlatformRelease :=
  (manifest.releases.find? fun entry => entry.1 == platformKey).map Prod.snd

/-- The release of the platform itself, else the universal one of its
operating system. -/
def releaseFor (runtime : Runtime Version Date)
    (manifest : UpdateManifest Version Date) (platformKey : Text) :
    Except UpdateFailure PlatformRelease :=
  let universal :=
    platformKey.takeWhile (· != 45) ++ text "-universal"
  match (releaseOf? manifest platformKey).or (releaseOf? manifest universal)
      with
  | some release => .ok release
  | none =>
      fail (text "the manifest for " ++ runtime.versionText manifest.version ++
          text " has nothing for " ++ platformKey ++ text ".")
        (some (text "It offers " ++
          join (text ", ") (manifest.releases.map Prod.fst) ++
          text ". A publisher may ship one artefact per architecture or one universal artefact under " ++
          universal ++
          text ", and a client asks for its own architecture first."))

theorem releaseFor_eq_ok_iff {runtime : Runtime Version Date}
    {manifest : UpdateManifest Version Date} {platformKey : Text}
    {release : PlatformRelease} :
    releaseFor runtime manifest platformKey = .ok release ↔
      (releaseOf? manifest platformKey).or (releaseOf? manifest
        (platformKey.takeWhile (· != 45) ++ text "-universal")) =
          some release := by
  simp only [releaseFor]
  cases (releaseOf? manifest platformKey).or (releaseOf? manifest
      (platformKey.takeWhile (· != 45) ++ text "-universal")) with
  | none => simp [fail]
  | some found => simp

/-! ## The platform key of the parser -/

/-- With platforms in it, a manifest is read alike under every key. -/
theorem parseReleases_eq_of_ok {runtime : Runtime Version Date}
    {fields : List (Text × Value)}
    {releases : List (Text × PlatformRelease)}
    (hparse : parseReleases runtime fields none = .ok releases)
    (platformKey : Option Text) :
    parseReleases runtime fields platformKey = .ok releases := by
  unfold parseReleases at *
  cases hplatforms : lookup fields "platforms" with
  | null => simp [hplatforms, fail] at hparse
  | map platforms => simpa [hplatforms] using hparse
  | _ => simp [hplatforms, fail] at hparse

theorem parseManifest_eq_of_ok {runtime : Runtime Version Date} {body : Text}
    {manifest : UpdateManifest Version Date}
    (hparse : parseManifest runtime body none = .ok manifest)
    (platformKey : Option Text) :
    parseManifest runtime body platformKey = .ok manifest := by
  unfold parseManifest at *
  split at hparse
  · simp [fail] at hparse
  · next fields _ =>
      cases hversion : parseVersion runtime fields with
      | error failure => simp [hversion, bind, Except.bind] at hparse
      | ok version =>
          cases hreleases : parseReleases runtime fields none with
          | error failure =>
              simp [hversion, hreleases, bind, Except.bind] at hparse
          | ok releases =>
              have hkeyed := parseReleases_eq_of_ok hreleases platformKey
              simpa [hversion, hreleases, hkeyed, bind, Except.bind]
                using hparse
  · simp [fail] at hparse

/-! ## Versions of three numbers -/

/-- The numbers of a version that has neither a pre-release nor a build. -/
def releaseNumbers? (source : Text) : Option (List Nat) :=
  let parts := source.splitOnP (· == 46)
  if parts.length = 3 ∧ ∀ part ∈ parts, part ≠ [] ∧ part.all isDigit then
    some (parts.map fun part =>
      part.foldl (fun value unit => value * 10 + (unit.toNat - 48)) 0)
  else none

def numbersLess : List Nat → List Nat → Bool
  | a :: rest, b :: others => a < b || (a == b && numbersLess rest others)
  | _, _ => false

/-- A runtime for manifests with such versions, without dates and numbers. -/
def releaseRuntime : Runtime Text Unit where
  parseVersion source := (releaseNumbers? source).map fun _ => source
  versionText version := version
  sameVersion a b := releaseNumbers? a == releaseNumbers? b
  versionLess a b :=
    numbersLess ((releaseNumbers? a).getD []) ((releaseNumbers? b).getD [])
  parseDate _ := none
  dateFields _ := (1970, 1, 1)
  numberText spelling := spelling
  jsonError _ := text "FormatException: Unexpected character"
  utf8Error _ := text "FormatException: Invalid UTF-8 byte"

end Dovetail.Updater
