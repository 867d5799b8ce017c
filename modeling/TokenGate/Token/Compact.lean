import TokenGate.Event
import TokenGate.Failure
import TokenGate.Json.Document
import TokenGate.Text.Base64
import TokenGate.Text.Blank
import TokenGate.Token.Algorithm

/-!
# Compact tokens

A token is three segments with dots between them: a header object, a payload object and a
signature, each in unpadded base64.

* `Token`            a decoded token;
* `Token.Fault`      why a text is no token that can be decoded;
* `Token.decode t`   the token of a text of at most `maxSize` bytes.

The signature covers the text before the last dot, which is kept as it was received.
-/

namespace TokenGate

open Text

structure Token where
  raw : String
  signingInput : String
  algorithm : Algorithm
  type? : Option String
  payload : Members
  signature : List UInt8

namespace Token

/-- longer texts are turned away unread -/
def maxSize : Nat := 8192

/-! ## faults -/

/-- a segment that holds an object -/
inductive Segment where
  | header
  | payload
  deriving DecidableEq, Repr

def Segment.name : Segment → String
  | .header => "header"
  | .payload => "payload"

inductive Fault where
  | tooLong (size : Nat)
  | segmentCount
  | emptySegment
  | notBase64 (segment : Segment) (cause : Base64.Fault)
  | notJson (segment : Segment) (document : List UInt8)
  | notObject (segment : Segment)
  | signatureNotBase64 (cause : Base64.Fault)
  | algorithm (found : Option Json)

namespace Fault

def kind : Fault → Failure
  | .algorithm _ => .unsupportedAlgorithm
  | _ => .malformedToken

def report (message : String) (fields : List (String × String)) (cause : Option Cause) : Event :=
  ⟨.debug, .token, message, fields, cause⟩

def event : Fault → Event
  | .tooLong size =>
    report "Token rejected: size exceeds maximum allowed"
      [("token_size", Shown.integer size), ("max_size", Shown.integer maxSize)] none
  | .segmentCount => report "Token rejected: expected three segments" [] none
  | .emptySegment => report "Token rejected: empty segment" [] none
  | .notBase64 s cause =>
    report "Failed to decode JWT segment base64" [("segment", s.name)] (some (.base64 cause))
  | .notJson s document =>
    report "Failed to parse JWT segment JSON" [("segment", s.name)] (some (.json document))
  | .notObject s => report "JWT segment is not a JSON object" [("segment", s.name)] none
  | .signatureNotBase64 cause =>
    report "Failed to decode JWT signature base64" [] (some (.base64 cause))
  | .algorithm found =>
    report "Token rejected: missing or unsupported algorithm"
      [("alg", Shown.optional (found.map Json.shown))] none

end Fault

/-! ## decoding -/

/-- the bytes of a segment -/
def unbase64 (segment : List Char) : Except Base64.Fault (List UInt8) :=
  Base64.decode Base64.urlSafe (bytes (String.ofList segment))

/-- the object in a segment -/
def object (which : Segment) (segment : List Char) : Except Fault Members :=
  match unbase64 segment with
  | .error cause => .error (.notBase64 which cause)
  | .ok bs =>
    match Json.ofBytes? bs with
    | none => .error (.notJson which bs)
    | some (.obj members) => .ok members
    | some _ => .error (.notObject which)

/-- the algorithm that a header names -/
def algorithm? (header : Members) : Option Algorithm :=
  ((Members.get? header "alg").bind Json.str?).bind Algorithm.ofName?

/-- a token from its three segments -/
def ofSegments (raw : String) (header payload signature : List Char) : Except Fault Token := do
  let head ← object .header header
  let body ← object .payload payload
  match unbase64 signature with
  | .error cause => .error (.signatureNotBase64 cause)
  | .ok sig =>
    match algorithm? head with
    | none => .error (.algorithm (Members.get? head "alg"))
    | some a =>
      .ok {
        raw := raw
        signingInput := String.ofList (beforeLast '.' raw.toList)
        algorithm := a
        type? := (Members.get? head "typ").bind Json.str?
        payload := body
        signature := sig }

def decode (raw : String) : Except Fault Token :=
  if raw.utf8ByteSize > maxSize then .error (.tooLong raw.utf8ByteSize)
  else
    match pieces (· == '.') raw.toList with
    | [header, payload, signature] =>
      if header.isEmpty || payload.isEmpty || signature.isEmpty then .error .emptySegment
      else ofSegments raw header payload signature
    | _ => .error .segmentCount

end Token

end TokenGate
