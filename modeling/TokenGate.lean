import TokenGate.Text.Base64
import TokenGate.Text.Blank
import TokenGate.Text.Bytes
import TokenGate.Text.Integer
import TokenGate.Text.Unprintable
import TokenGate.Text.Shown
import TokenGate.Binary64
import TokenGate.BigEndian
import TokenGate.Event
import TokenGate.Failure
import TokenGate.Json.Basic
import TokenGate.Json.Number
import TokenGate.Json.Reader
import TokenGate.Json.Document
import TokenGate.Json.Writer
import TokenGate.Digest.Sha2
import TokenGate.Digest.Hmac
import TokenGate.Rsa.Der
import TokenGate.Front
import TokenGate.Rsa.PublicKey
import TokenGate.Rsa.Signature
import TokenGate.Token.Algorithm
import TokenGate.Token.Compact
import TokenGate.Token.Credential
import TokenGate.Seconds
import TokenGate.Token.SampleKeys
import TokenGate.Token.Draft
import TokenGate.Key
import TokenGate.Claims.Basic
import TokenGate.Claims.Policy
import TokenGate.Roles
import TokenGate.Outcome
import TokenGate.Memo
import TokenGate.Memo.Run
import TokenGate.Signal
import TokenGate.Realm
import TokenGate.Settings
import TokenGate.Gate.Basic
import TokenGate.Gate.Examine
import TokenGate.Gate.Reply
import TokenGate.Gate.Run
import TokenGate.Challenge
import TokenGate.Http.Guard
import TokenGate.Command
import TokenGate.Main
import TokenGate.Theory.LastOccurrence
import TokenGate.Theory.Positional
import TokenGate.Theory.Powers
import TokenGate.Proofs.Checks
import TokenGate.Proofs.Text.Base64
import TokenGate.Proofs.Text.Canonical
import TokenGate.Proofs.Text.Cuts
import TokenGate.Proofs.Text.Integers
import TokenGate.Proofs.Text.Trimmed
import TokenGate.Proofs.Text.Words
import TokenGate.Proofs.Json.Integral
import TokenGate.Proofs.Json.Decimals
import TokenGate.Proofs.Json.Everywhere
import TokenGate.Proofs.Json.Plain
import TokenGate.Proofs.Json.Quotes
import TokenGate.Proofs.Json.RoundTrip
import TokenGate.Proofs.Json.Resolution
import TokenGate.Proofs.Json.Order
import TokenGate.Proofs.Rsa.Der
import TokenGate.Proofs.Rsa.PublicKey
import TokenGate.Proofs.Rsa.Signature
import TokenGate.Proofs.Rsa.Signing
import TokenGate.Proofs.Token.Structure
import TokenGate.Proofs.Token.Rebuilt
import TokenGate.Proofs.Token.Presented
import TokenGate.Proofs.Token.Sealed
import TokenGate.Proofs.Token.Grammar
import TokenGate.Proofs.Key.Layout
import TokenGate.Proofs.Key.Loading
import TokenGate.Proofs.Key.Unique
import TokenGate.Proofs.Key.Strength
import TokenGate.Proofs.Token.Signed
import TokenGate.Proofs.Claims.Typing
import TokenGate.Proofs.Claims.Exact
import TokenGate.Proofs.Claims.Instants
import TokenGate.Proofs.Claims.Roles
import TokenGate.Proofs.Memo.Entries
import TokenGate.Proofs.Memo.Effects
import TokenGate.Proofs.Memo.History
import TokenGate.Proofs.Memo.Tallies
import TokenGate.Proofs.Memo.Conservation
import TokenGate.Proofs.Memo.Retention
import TokenGate.Proofs.Memo.Recency
import TokenGate.Proofs.Gate.Built
import TokenGate.Proofs.Settings.Values
import TokenGate.Proofs.Settings.Loading
import TokenGate.Proofs.Gate.Acceptance
import TokenGate.Proofs.Gate.Signals
import TokenGate.Proofs.Gate.Meters
import TokenGate.Proofs.Gate.Provenance
import TokenGate.Proofs.Gate.Authentic
import TokenGate.Proofs.Gate.Verdict
import TokenGate.Proofs.Gate.Soundness
import TokenGate.Proofs.Gate.Uses
import TokenGate.Proofs.Gate.Accounting
import TokenGate.Proofs.Gate.Discretion
import TokenGate.Proofs.Gate.Granted
import TokenGate.Proofs.Gate.Transparency
import TokenGate.Proofs.Gate.Issued
import TokenGate.Proofs.Gate.Obstacles
import TokenGate.Proofs.Gate.Reuse
import TokenGate.Proofs.Gate.Revocation
import TokenGate.Proofs.Gate.Rejections
import TokenGate.Proofs.Gate.Spellings
import TokenGate.Proofs.Gate.Startup
import TokenGate.Proofs.Gate.Tampering
import TokenGate.Proofs.Gate.Strength
import TokenGate.Proofs.Http.Challenge
import TokenGate.Proofs.Http.Counting
import TokenGate.Proofs.Http.Contract
import TokenGate.Proofs.Command.Forms
import TokenGate.Proofs.Command.Answers
