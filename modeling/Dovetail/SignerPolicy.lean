import Dovetail.UpdaterManifest

/-!
# Credentials and the signing policy

Credentials are read from the environment in groups.  A group that is set
signs, one that is half set is refused, and one that is not set at all is
refused only where a signature is required.
-/

namespace Dovetail.Signer

open CodeUnits Updater

structure SigningFailure where
  message : Text
  remedy : Option Text
  deriving DecidableEq

abbrev Environment := Text → Option Text

/-- A variable with more than spaces in it. -/
def isSet : Option Text → Bool
  | none => false
  | some value => !(trim value).isEmpty

/-! ## Groups -/

structure CredentialGroup where
  label : Text
  members : List Text

namespace CredentialGroup

variable (group : CredentialGroup) (environment : Environment)

def isSatisfiedBy : Bool :=
  group.members.all fun name => isSet (environment name)

def isPartiallySatisfiedBy : Bool :=
  !group.isSatisfiedBy environment &&
    group.members.any fun name => isSet (environment name)

def missingIn : List Text :=
  group.members.filter fun name => !isSet (environment name)

end CredentialGroup

def NotarizationCredentials.appleId : CredentialGroup where
  label := text "Apple ID notarisation"
  members := [text "APPLE_ID", text "APPLE_PASSWORD", text "APPLE_TEAM_ID"]

def NotarizationCredentials.apiKey : CredentialGroup where
  label := text "App Store Connect API key notarisation"
  members :=
    [text "APPLE_API_KEY_ID", text "APPLE_API_ISSUER",
      text "APPLE_API_KEY_PATH"]

def NotarizationCredentials.identity : CredentialGroup where
  label := text "Developer ID signing identity"
  members := [text "APPLE_SIGNING_IDENTITY"]

def AuthenticodeCredentials.thumbprint : CredentialGroup where
  label := text "Authenticode signing"
  members := [text "WINDOWS_CERTIFICATE_THUMBPRINT", text "WINDOWS_TIMESTAMP_URL"]

namespace OsslsigncodeCredentials

def keyPair : CredentialGroup where
  label := text "Authenticode signing without a Windows machine"
  members := [text "WINDOWS_CERTIFICATE_FILE", text "WINDOWS_TIMESTAMP_URL"]

def privateKeyVariable : Text := text "WINDOWS_PRIVATE_KEY_FILE"

def passwordVariable : Text := text "WINDOWS_CERTIFICATE_PASSWORD"

end OsslsigncodeCredentials

/-! ## The policy -/

inductive SigningDecision where
  | sign
  | skip
  deriving DecidableEq

structure PolicyVerdict where
  decision : SigningDecision
  note : Text
  deriving DecidableEq

def PolicyVerdict.shouldSign (verdict : PolicyVerdict) : Bool :=
  verdict.decision = .sign

namespace SigningPolicy

def decide (requireSignature : Bool) (group : CredentialGroup)
    (environment : Environment) : Except SigningFailure PolicyVerdict :=
  let names := join (text ", ") (group.missingIn environment)
  if group.isSatisfiedBy environment then
    .ok ⟨.sign, group.label ++ text ": every credential is present."⟩
  else if group.isPartiallySatisfiedBy environment then
    .error ⟨group.label ++ text " is half configured: " ++ names ++
        text " missing.",
      some (text "A partial credential set is a misconfiguration, not a choice. Set the missing values or unset the ones that are there.")⟩
  else if requireSignature then
    .error ⟨group.label ++
        text " has no credentials and a signature was required.",
      some (text "Set " ++ names ++
        text ", or drop --require-signature for a local build.")⟩
  else
    .ok ⟨.skip, group.label ++
      text ": no credentials, so the artefact stays unsigned. Missing " ++
      names ++ text "."⟩

def requirePassword (environment : Environment) (variableName label : Text) :
    Except SigningFailure Text :=
  match environment variableName with
  | some value => .ok value
  | none =>
      .error ⟨label ++ text " needs " ++ variableName ++
          text " and it is not set.",
        some (text "Set it explicitly. An empty password is never assumed, not even in CI: a key generated without one would look protected and would not be.")⟩

end SigningPolicy

/-! ## Notarisation -/

namespace NotarytoolArguments

def required (environment : Environment) (name : Text)
    (group : CredentialGroup) : Except SigningFailure Text :=
  match environment name with
  | some value =>
      if (trim value).isEmpty then refused else .ok value
  | none => refused
where
  refused : Except SigningFailure Text :=
    .error ⟨name ++ text " is not set, and " ++ group.label ++
        text " needs it.",
      some (text "Reading it as absent used to produce a null check operator crash with no name attached.")⟩

def forAppleId (environment : Environment) :
    Except SigningFailure (List Text) := do
  let group := NotarizationCredentials.appleId
  return [
    text "--apple-id", ← required environment (text "APPLE_ID") group,
    text "--password", ← required environment (text "APPLE_PASSWORD") group,
    text "--team-id", ← required environment (text "APPLE_TEAM_ID") group]

def forApiKey (environment : Environment) :
    Except SigningFailure (List Text) := do
  let group := NotarizationCredentials.apiKey
  return [
    text "--key-id", ← required environment (text "APPLE_API_KEY_ID") group,
    text "--key", ← required environment (text "APPLE_API_KEY_PATH") group,
    text "--issuer", ← required environment (text "APPLE_API_ISSUER") group]

def halfConfigured (group : CredentialGroup) (environment : Environment) :
    SigningFailure where
  message :=
    group.label ++ text " is half configured: " ++
      join (text ", ") (group.missingIn environment) ++ text " " ++
      (if (group.missingIn environment).length = 1 then text "is"
        else text "are") ++ text " unset."
  remedy := some (text "Half a credential set is a release that fails at the submission step, after the build has already been paid for. Set the rest, or unset the group.")

def forWhicheverIsConfigured (environment : Environment) :
    Except SigningFailure (Option (List Text)) :=
  if NotarizationCredentials.appleId.isSatisfiedBy environment then
    (forAppleId environment).map some
  else if NotarizationCredentials.apiKey.isSatisfiedBy environment then
    (forApiKey environment).map some
  else
    match [NotarizationCredentials.appleId,
        NotarizationCredentials.apiKey].find? fun group =>
          group.isPartiallySatisfiedBy environment with
    | some group => .error (halfConfigured group environment)
    | none => .ok none

end NotarytoolArguments

end Dovetail.Signer
