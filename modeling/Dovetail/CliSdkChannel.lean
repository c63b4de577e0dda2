import Dovetail.CliBundle
import Dovetail.UpdaterReplay

/-!
# The release channel of the SDK

`SdkChannel` asks a channel for its latest version and for the tarball of a
version, which it compares with the sum the channel serves and, in a binary
with a release key, with the signature the channel serves.  Versions are
compared by the numbers between their dots.
-/

namespace Dovetail.Cli.Sdk

open CodeUnits
open FallibleSteps
open Updater

/-! ## Integers -/

/-- The value of a digit, when the base has it. -/
def digitValue? (base : Nat) (unit : UInt16) : Option Nat :=
  let code := unit.toNat
  let value :=
    if 48 ≤ code && code ≤ 57 then some (code - 48)
    else if 65 ≤ code && code ≤ 90 then some (code - 55)
    else if 97 ≤ code && code ≤ 122 then some (code - 87)
    else none
  value.filter (· < base)

def magnitude? (base : Nat) (digits : Text) : Option Nat :=
  if digits.isEmpty then none
  else
    digits.foldlM (fun value unit =>
      (digitValue? base unit).map fun digit => value * base + digit) 0

/-- The digits behind `0x`, in either case. -/
def hexDigits? : Text → Option Text
  | 48 :: mark :: digits =>
      if mark == 120 || mark == 88 then some digits else none
  | _ => none

/-- `int.tryParse`: spaces around the number, a sign, and decimal digits
within the 64 bits of an integer or hexadecimal digits that are taken for
these bits. -/
def intTryParse (source : Text) : Option Int :=
  let trimmed := trim source
  let sign : Int := if trimmed.head? = some 45 then -1 else 1
  let unsigned :=
    if trimmed.head? = some 45 ∨ trimmed.head? = some 43 then trimmed.tail
    else trimmed
  match hexDigits? unsigned with
  | some digits =>
      ((magnitude? 16 digits).filter (· < 2 ^ 64)).map fun magnitude =>
        Int.bmod (sign * magnitude) (2 ^ 64)
  | none =>
      ((magnitude? 10 unsigned).map fun magnitude => sign * magnitude).filter
        fun value => -2 ^ 63 ≤ value && value < 2 ^ 63

/-! ## The order of versions -/

def dot : UInt16 := 46

def slash : UInt16 := 47

/-- The number at a place between the dots, zero where there is none. -/
def segment (version : Text) (i : Nat) : Int :=
  ((version.splitOnP (· == dot))[i]?.bind intTryParse).getD 0

def segmentCount (version : Text) : Nat :=
  (version.splitOnP (· == dot)).length

def firstDifference? (a b : Text) : Option Nat :=
  let length := max (segmentCount a) (segmentCount b)
  (List.range length).find? fun i => segment a i != segment b i

/-- The newer of the two, the first where no number tells them apart. -/
def newerVersion (a b : Text) : Text :=
  match firstDifference? a b with
  | some i => if segment a i > segment b i then a else b
  | none => a

/-- The first number that differs is the smaller one. -/
def Precedes (a b : Text) : Prop :=
  ∃ i, (∀ j < i, segment a j = segment b j) ∧ segment a i < segment b i

theorem segment_eq_zero {version : Text} {i : Nat}
    (hbeyond : segmentCount version ≤ i) : segment version i = 0 := by
  unfold segment segmentCount at *
  rw [List.getElem?_eq_none hbeyond]
  rfl

theorem newerVersion_eq_right_iff {a b : Text} :
    newerVersion a b = b ↔ a = b ∨ Precedes a b := by
  unfold newerVersion
  cases hfind : firstDifference? a b with
  | none =>
      have hsame : ∀ i, segment a i = segment b i := by
        intro i
        by_cases hi : i < max (segmentCount a) (segmentCount b)
        · have hnone := List.find?_eq_none.mp hfind i (List.mem_range.mpr hi)
          simpa using hnone
        · have ha : segment a i = 0 := segment_eq_zero (by omega)
          have hb : segment b i = 0 := segment_eq_zero (by omega)
          rw [ha, hb]
      have hnot : ¬ Precedes a b := by
        intro hprecedes
        rcases hprecedes with ⟨i, -, hless⟩
        rw [hsame i] at hless
        exact lt_irrefl _ hless
      simp [hnot]
  | some i =>
      have hfirst := List.find?_range_eq_some.mp hfind
      have hdiffer : segment a i ≠ segment b i := by simpa using hfirst.1
      have hbefore : ∀ j < i, segment a j = segment b j := by
        intro j hj
        simpa using hfirst.2.2 j hj
      by_cases hgreater : segment a i > segment b i
      · have hnot : ¬ Precedes a b := by
          intro hprecedes
          rcases hprecedes with ⟨k, hsame, hless⟩
          rcases lt_trichotomy k i with hk | rfl | hk
          · rw [hbefore k hk] at hless
            exact lt_irrefl _ hless
          · omega
          · exact hdiffer (hsame i hk)
        simp [hgreater, hnot]
      · have hprecedes : Precedes a b := ⟨i, hbefore, by omega⟩
        simp [hgreater, hprecedes]

/-- A version that is newer for the comparison is ahead of the other, or has
the same numbers. -/
theorem precedes_or_same_of_newerVersion_ne {a b : Text}
    (hnewer : newerVersion a b ≠ b) :
    Precedes b a ∨ ∀ i, segment a i = segment b i := by
  have hnot : ¬ Precedes a b := fun hprecedes =>
    hnewer (newerVersion_eq_right_iff.mpr (Or.inr hprecedes))
  by_cases hsame : ∀ i, segment a i = segment b i
  · exact Or.inr hsame
  · left
    have hexists : ∃ i, segment a i ≠ segment b i := not_forall.mp hsame
    have hbefore : ∀ j < Nat.find hexists, segment b j = segment a j := by
      intro j hj
      exact (not_not.mp (Nat.find_min hexists hj)).symm
    rcases lt_or_gt_of_ne (Nat.find_spec hexists) with hless | hgreater
    · exact absurd ⟨_, fun j hj => (hbefore j hj).symm, hless⟩ hnot
    · exact ⟨_, hbefore, hgreater⟩

/-! ## The channel -/

/-- What is compiled into a binary. -/
structure DovetailVersion where
  number : Text
  targetOs : Text
  targetArch : Text
  sdkReleaseKeyBase64 : Text

/-- The network, `Uri.toString`, the error of a malformed UTF-8 and the
primitives behind sums and signatures. -/
structure SdkRuntime (Version Url : Type) where
  fetcher : ArtifactFetcher Version Url
  urlText : Url → Text
  utf8Error : Bytes → Text
  sha256 : Bytes → Bytes
  crypto : Crypto

structure SdkChannel where
  baseUrl : Text
  releaseKey : Option MinisignPublicKey
  deriving DecidableEq

variable {Version Url : Type}

def embeddedReleaseKey (binary : DovetailVersion) :
    Except UpdateFailure (Option MinisignPublicKey) :=
  if binary.sdkReleaseKeyBase64.isEmpty then .ok none
  else
    (MinisignPublicKey.parse
      (text "untrusted comment: dovetail sdk release key\n" ++
        binary.sdkReleaseKeyBase64 ++ text "\n")).map some

def installUrlEnv : Text := text "DOVETAIL_INSTALL_URL"

/-- The flag before the environment; a usage error is told by its text. -/
def baseUrlOf (flag environment : Option Text) :
    Except (Thrown Version) Text :=
  match (flag.filter fun base => !(trim base).isEmpty).or environment with
  | none => .error (.other (text "no release channel given."))
  | some base =>
      if (trim base).isEmpty then
        .error (.other (text "no release channel given."))
      else .ok (trim base)

namespace SdkChannel

def root (channel : SdkChannel) : Text :=
  channel.baseUrl.rdropWhile (· == slash)

def tarballName (binary : DovetailVersion) (version : Text) : Text :=
  text "dovetail-sdk-" ++ version ++ text "-" ++ binary.targetOs ++
    text "-" ++ binary.targetArch ++ text ".tar.gz"

variable (runtime : SdkRuntime Version Url) (binary : DovetailVersion)
  (channel : SdkChannel)

def latestUrl : Text := channel.root ++ text "/latest"

def tarballUrl (version : Text) : Text :=
  channel.root ++ text "/" ++ version ++ text "/" ++
    tarballName binary version

def shaUrl (version : Text) : Text :=
  channel.tarballUrl binary version ++ text ".sha256"

def sigUrl (version : Text) : Text :=
  channel.tarballUrl binary version ++ text ".minisig"

/-- `utf8.decode`. -/
def decoded (bytes : Bytes) : Except (Thrown Version) Text :=
  match utf8Decode bytes with
  | none => .error (.formatException (runtime.utf8Error bytes))
  | some source => .ok source

/-- The version the channel announces, once nothing has been asked. -/
def latest : Except (Thrown Version) (Option Text) := do
  let url ← runtime.fetcher.parseUrl channel.latestUrl
  let body ← runtime.fetcher.fetch [] url
  if body.isNoContent then return none
  else if !body.isSuccess then
    .error (.failure ⟨text "the channel answered " ++
        text (toString body.statusCode) ++ text " for " ++ channel.latestUrl ++
        text ".",
      some (text "Check the base URL — every other endpoint hangs off it.")⟩)
  else
    let source ← decoded runtime body.bytes
    if (trim source).isEmpty then return none else return some (trim source)

/-- A file of a release; the remedy is for a channel without it. -/
def fetched (asked : List Text) (address remedy : Text) :
    Except (Thrown Version) Bytes := do
  let url ← runtime.fetcher.parseUrl address
  let body ← runtime.fetcher.fetch asked url
  if !body.isSuccess then
    .error (.failure ⟨text "the channel answered " ++
      text (toString body.statusCode) ++ text " for " ++ runtime.urlText url ++
      text ".", some remedy⟩)
  else return body.bytes

/-- The signature is asked for where there is a key to check it with. -/
def verifySignature (asked : List Text) (version : Text) (tarball : Bytes) :
    Except (Thrown Version) Unit :=
  match channel.releaseKey with
  | none => .ok ()
  | some key => do
      let bytes ← fetched runtime asked (channel.sigUrl binary version)
        (text "The .minisig is part of the release; a channel that does not publish it is not installable.")
      let source ← decoded runtime bytes
      let signature ← (MinisignSignature.parse source).mapError .failure
      (verify runtime.crypto tarball signature key).mapError .failure

/-- The bytes that are written to the target, once the latest version has
been asked for. -/
def download (version : Text) : Except (Thrown Version) Bytes := do
  let tarball ← fetched runtime [channel.latestUrl]
    (channel.tarballUrl binary version)
    (text "Check the base URL and that " ++ version ++
      text " was actually published.")
  let sum ← fetched runtime
    [channel.latestUrl, channel.tarballUrl binary version]
    (channel.shaUrl binary version)
    (text "The .sha256 is part of the release; a channel that does not publish it is not installable.")
  let expected ← decoded runtime sum
  if trim expected ≠ Ship.UpgradeCode.hexText (runtime.sha256 tarball) then
    .error (.failure ⟨text "the sha256 of the downloaded tarball does not match the channel.",
      some (text "Retry — if it persists, the release served by the channel is broken and must not be unpacked.")⟩)
  else
    let _ ← channel.verifySignature runtime binary
      [channel.latestUrl, channel.tarballUrl binary version,
        channel.shaUrl binary version] version tarball
    return tarball

/-! ## What went through -/

section

variable {runtime binary channel} {asked : List Text} {address remedy : Text}
  {version : Text} {tarball : Bytes}

/-- The channel answers with these bytes. -/
def Serves (runtime : SdkRuntime Version Url) (asked : List Text)
    (address : Text) (bytes : Bytes) : Prop :=
  ∃ url body, runtime.fetcher.parseUrl address = .ok url ∧
    runtime.fetcher.fetch asked url = .ok body ∧ body.isSuccess = true ∧
    body.bytes = bytes

theorem decoded_eq_ok_iff {bytes : Bytes} {source : Text} :
    decoded runtime bytes = .ok source ↔ utf8Decode bytes = some source := by
  unfold decoded
  cases utf8Decode bytes <;> simp

theorem fetched_eq_ok_iff {bytes : Bytes} :
    fetched runtime asked address remedy = .ok bytes ↔
      Serves runtime asked address bytes := by
  unfold fetched Serves
  cases hparse : runtime.fetcher.parseUrl address with
  | error thrown => simp [bind, Except.bind]
  | ok url =>
      cases hfetch : runtime.fetcher.fetch asked url with
      | error thrown => simp [hfetch, bind, Except.bind]
      | ok body =>
          cases hsuccess : body.isSuccess <;>
            simp [hfetch, hsuccess, bind, Except.bind, pure, Except.pure]

theorem latest_eq_some_iff :
    channel.latest runtime = .ok (some version) ↔
      ∃ url body source, runtime.fetcher.parseUrl channel.latestUrl = .ok url ∧
        runtime.fetcher.fetch [] url = .ok body ∧
        body.isNoContent = false ∧ body.isSuccess = true ∧
        utf8Decode body.bytes = some source ∧ trim source = version ∧
        version ≠ [] := by
  constructor
  · intro hlatest
    rcases bind_eq_ok_iff.mp hlatest with ⟨url, hparse, hrest⟩
    rcases bind_eq_ok_iff.mp hrest with ⟨body, hfetch, hrest⟩
    cases hcontent : body.isNoContent with
    | true => simp [hcontent, pure, Except.pure] at hrest
    | false =>
        cases hsuccess : body.isSuccess with
        | false => simp [hcontent, hsuccess] at hrest
        | true =>
            simp only [hcontent, hsuccess, Bool.not_true, Bool.false_eq_true,
              if_false] at hrest
            rcases bind_eq_ok_iff.mp hrest with ⟨source, hdecoded, hrest⟩
            have hsource := decoded_eq_ok_iff.mp hdecoded
            split_ifs at hrest with hempty
            · simp [pure, Except.pure] at hrest
            · have hversion : trim source = version := by
                simpa [pure, Except.pure] using hrest
              have hsome : version ≠ [] := by
                rw [← hversion]
                simpa using hempty
              exact ⟨url, body, source, hparse, hfetch, hcontent, hsuccess,
                hsource, hversion, hsome⟩
  · intro hserved
    rcases hserved with ⟨url, body, source, hparse, hfetch, hcontent,
      hsuccess, hsource, hversion, hsome⟩
    have hdecoded : decoded runtime body.bytes = .ok source :=
      decoded_eq_ok_iff.mpr hsource
    subst hversion
    simp [latest, hparse, hfetch, hcontent, hsuccess, hdecoded, hsome, bind,
      Except.bind, pure, Except.pure]

theorem verifySignature_eq_ok_iff :
    channel.verifySignature runtime binary asked version tarball = .ok () ↔
      ∀ key, channel.releaseKey = some key →
        ∃ bytes source signature,
          Serves runtime asked (channel.sigUrl binary version) bytes ∧
            utf8Decode bytes = some source ∧
            MinisignSignature.parse source = .ok signature ∧
            verify runtime.crypto tarball signature key = .ok () := by
  unfold verifySignature
  cases hkey : channel.releaseKey with
  | none => simp
  | some key =>
      simp only [Option.some.injEq, forall_eq', bind_eq_ok_iff,
        fetched_eq_ok_iff, decoded_eq_ok_iff, mapError_eq_ok_iff]
      constructor
      · intro hsteps
        rcases hsteps with ⟨bytes, hbytes, source, hsource, signature,
          hsignature, hverify⟩
        exact ⟨bytes, source, signature, hbytes, hsource, hsignature, hverify⟩
      · intro hsteps
        rcases hsteps with ⟨bytes, source, signature, hbytes, hsource,
          hsignature, hverify⟩
        exact ⟨bytes, hbytes, source, hsource, signature, hsignature, hverify⟩

theorem download_eq_ok_iff :
    channel.download runtime binary version = .ok tarball ↔
      Serves runtime [channel.latestUrl] (channel.tarballUrl binary version)
          tarball ∧
        (∃ sum expected,
          Serves runtime
              [channel.latestUrl, channel.tarballUrl binary version]
              (channel.shaUrl binary version) sum ∧
            utf8Decode sum = some expected ∧
            trim expected = Ship.UpgradeCode.hexText (runtime.sha256 tarball)) ∧
        channel.verifySignature runtime binary
          [channel.latestUrl, channel.tarballUrl binary version,
            channel.shaUrl binary version] version tarball = .ok () := by
  constructor
  · intro hdownload
    rcases bind_eq_ok_iff.mp hdownload with ⟨bytes, hbytes, hrest⟩
    rcases bind_eq_ok_iff.mp hrest with ⟨sum, hsum, hrest⟩
    rcases bind_eq_ok_iff.mp hrest with ⟨expected, hexpected, hrest⟩
    have hserves := fetched_eq_ok_iff.mp hbytes
    have hsums := fetched_eq_ok_iff.mp hsum
    have hdecoded := decoded_eq_ok_iff.mp hexpected
    split_ifs at hrest with hmatch
    rcases bind_eq_ok_iff.mp hrest with ⟨_, hverify, hrest⟩
    obtain rfl : bytes = tarball := Except.ok.inj hrest
    exact ⟨hserves, ⟨sum, expected, hsums, hdecoded, not_not.mp hmatch⟩,
      hverify⟩
  · intro hserved
    rcases hserved with ⟨hserves, ⟨sum, expected, hsums, hdecoded, hmatch⟩,
      hverify⟩
    unfold download
    rw [fetched_eq_ok_iff.mpr hserves]
    simp only [bind, Except.bind]
    rw [fetched_eq_ok_iff.mpr hsums]
    simp only
    rw [decoded_eq_ok_iff.mpr hdecoded]
    simp [hmatch, hverify, pure, Except.pure]

end

end SdkChannel

end Dovetail.Cli.Sdk
