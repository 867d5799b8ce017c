/-!
# Why a request is turned away

* `Failure`             the twelve kinds;
* `Failure.label`       the name of a kind in logs and metrics;
* `Failure.code`        the same in upper case, as clients see it;
* `Failure.description` a fixed sentence for the client, without detail;
* `Rejection`           a kind together with the sentence that is sent.
-/

namespace TokenGate

inductive Failure where
  | missingCredentials
  | malformedHeader
  | malformedToken
  | unsupportedAlgorithm
  | invalidSignature
  | tokenExpired
  | tokenNotYetValid
  | issuerMismatch
  | audienceMismatch
  | missingSubject
  | unknownSubject
  | identityStoreUnavailable
  deriving DecidableEq, Repr

namespace Failure

def all : List Failure := [
  .missingCredentials, .malformedHeader, .malformedToken, .unsupportedAlgorithm,
  .invalidSignature, .tokenExpired, .tokenNotYetValid, .issuerMismatch, .audienceMismatch,
  .missingSubject, .unknownSubject, .identityStoreUnavailable]

theorem mem_all (f : Failure) : f ∈ all := by cases f <;> decide

def label : Failure → String
  | .missingCredentials => "missing_credentials"
  | .malformedHeader => "malformed_header"
  | .malformedToken => "malformed_token"
  | .unsupportedAlgorithm => "unsupported_algorithm"
  | .invalidSignature => "invalid_signature"
  | .tokenExpired => "token_expired"
  | .tokenNotYetValid => "token_not_yet_valid"
  | .issuerMismatch => "issuer_mismatch"
  | .audienceMismatch => "audience_mismatch"
  | .missingSubject => "missing_subject"
  | .unknownSubject => "unknown_subject"
  | .identityStoreUnavailable => "identity_store_unavailable"

def ofLabel? (label : String) : Option Failure := all.find? fun f => f.label = label

/-- the label in upper case; labels are ASCII -/
def code (f : Failure) : String := String.ofList (f.label.toList.map Char.toUpper)

def description : Failure → String
  | .missingCredentials => "No bearer token was presented"
  | .malformedHeader => "The Authorization header does not use the Bearer scheme"
  | .malformedToken => "The access token is malformed"
  | .unsupportedAlgorithm => "The access token uses an unsupported algorithm"
  | .invalidSignature => "The access token signature is invalid"
  | .tokenExpired => "The access token has expired"
  | .tokenNotYetValid => "The access token is not yet valid"
  | .issuerMismatch => "The access token was issued by an untrusted issuer"
  | .audienceMismatch => "The access token was not issued for this audience"
  | .missingSubject => "The access token does not name a subject"
  | .unknownSubject => "The token subject is not known to this realm"
  | .identityStoreUnavailable => "The identity store is unavailable"

/-- a kind in diagnostics -/
def shown : Failure → String
  | .missingCredentials => "MissingCredentials"
  | .malformedHeader => "MalformedHeader"
  | .malformedToken => "MalformedToken"
  | .unsupportedAlgorithm => "UnsupportedAlgorithm"
  | .invalidSignature => "InvalidSignature"
  | .tokenExpired => "TokenExpired"
  | .tokenNotYetValid => "TokenNotYetValid"
  | .issuerMismatch => "IssuerMismatch"
  | .audienceMismatch => "AudienceMismatch"
  | .missingSubject => "MissingSubject"
  | .unknownSubject => "UnknownSubject"
  | .identityStoreUnavailable => "IdentityStoreUnavailable"

end Failure

/-! ## rejections -/

structure Rejection where
  kind : Failure
  description : String
  deriving DecidableEq, Repr

/-- the rejection with the standard sentence -/
def Rejection.ofKind (kind : Failure) : Rejection := ⟨kind, kind.description⟩

def Rejection.message (r : Rejection) : String := r.kind.label ++ ": " ++ r.description

end TokenGate
