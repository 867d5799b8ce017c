import TokenGate.Proofs.Gate.Acceptance
import TokenGate.Proofs.Token.Sealed

/-!
# Tokens whose signature is right

* `authentic_eq_error_iff`     what keeps a text from being an authentic token;
* `validate_of_unauthentic`    such a text is rejected for that;
* `validate_of_authentic`      an authentic token is decided on by its payload;
* `authentic_of_madeFrom`      a token that was made from a draft is authentic where the key vouches
                               for it;
* `validate_of_madeFrom`       and is decided on by the claims of the draft;
* `sampleToken`, `validate_sample`   such a token for the gate of the sample settings.
-/

namespace TokenGate.Gate

open Checks (ok_bind bind_eq_error_iff mapError_eq_ok_iff mapError_eq_error_iff)
open Text
open Traced (result_bind result_ofExcept result_emit result_pure)

variable {g : Gate} {realm : Realm} {raw : String} {now : Int} {token : Token} {key : Key}

/-! ## authentic and other texts -/

theorem authentic_eq_error_iff {r : Refusal} : (g.authentic raw).result = .error r ↔
    (∃ f, Token.decode raw = .error f ∧ .token f = r) ∨ ∃ token, Token.decode raw = .ok token
      ∧ ∃ f, g.verification.verify (bytes token.signingInput) token.signature token.algorithm
        = .error f ∧ .signature token.algorithm f = r := by
  simp only [authentic, result_bind, result_ofExcept, result_emit, result_pure, ok_bind,
    bind_eq_error_iff, mapError_eq_ok_iff, mapError_eq_error_iff]
  simp

theorem validate_of_unauthentic {r : Refusal} (h : (g.authentic raw).result = .error r) :
    g.validate realm raw now = .reject r.kind := by
  refine validate_of_error ?_
  rw [examine_eq, result_bind, h]
  rfl

theorem validate_of_authentic (h : (g.authentic raw).result = .ok token) (realm : Realm)
    (now : Int) : g.validate realm raw now = (g.judge realm token.payload now).outcome := by
  unfold validate Traced.outcome
  rw [examine_eq, result_bind, h]
  rfl

/-! ## tokens that were made -/

variable {d : Draft} {a : Algorithm}

theorem authentic_of_madeFrom (hm : Draft.MadeFrom token a d raw)
    (hg : g.verification = .key key)
    (hv : key.verify (bytes token.signingInput) token.signature token.algorithm = .ok ()) :
    (g.authentic raw).result = .ok token := by
  refine authentic_eq_ok_iff.mpr ⟨hm.decoded, ?_⟩
  rw [hg]
  exact hv

theorem validate_of_madeFrom (hm : Draft.MadeFrom token a d raw) (hg : g.verification = .key key)
    (hv : key.verify (bytes token.signingInput) token.signature token.algorithm = .ok ())
    (realm : Realm) (now : Int) :
    g.validate realm raw now = (g.judge realm d.claims now).outcome := by
  rw [validate_of_authentic (authentic_of_madeFrom hm hg hv), hm.payload]

/-! ## a token for the sample gate -/

def sampleSecret : List UInt8 := [115, 101, 99, 114, 101, 116]

/-- a token of the sample key for `user1` that expires at 3600 -/
def sampleToken : String :=
  "eyJ0eXAiOiJKV1QiLCJhbGciOiJIUzI1NiJ9.eyJleHAiOjM2MDAsImlhdCI6MCwic3ViIjoidXNlcjEifQ"
    ++ ".HLJZTs8JkFISB2P4ydY2mh8cKVhcnUpYq3Ocfs8Xu9g"

def sampleHeader : String := Credential.header sampleToken

def sampleRealm : Realm := (Directory.empty.insert "user1" ["admin"]).realm

def sampleIdentity : Identity := ⟨"user1", .ofList ["admin"]⟩

theorem sealed_start :
    (Draft.start 0).sealed .sha256 sampleSecret (Draft.hmacHeader .hs256) = sampleToken := by
  decide +kernel

theorem ofHeader_sampleHeader : Credential.ofHeader (some sampleHeader) = .ok sampleToken := by
  rw [sampleHeader, ← sealed_start]
  exact Draft.ofHeader_sealed ..

/-- where the sample key vouches, the payload of the sample token decides -/
theorem validate_of_sampleSecret (hg : g.verification = .key (.secret sampleSecret))
    (realm : Realm) (now : Int) : g.validate realm sampleToken now
      = (g.judge realm (Draft.start 0).claims now).outcome := by
  have hfamily : Algorithm.hs256.family = .hmac .sha256 := rfl
  have hsize : sampleToken.utf8ByteSize ≤ Token.maxSize := by decide +kernel
  rw [← sealed_start] at hsize ⊢
  obtain ⟨token, hmade, hverify⟩ := Draft.madeFrom_sealed Draft.portable_start hfamily hsize
  exact validate_of_madeFrom hmade hg hverify realm now

theorem validate_sample (realm : Realm) (now : Int) :
    sample.validate realm sampleToken now
      = (sample.judge realm (Draft.start 0).claims now).outcome :=
  validate_of_sampleSecret rfl realm now

theorem validate_sampleToken : sample.validate sampleRealm sampleToken 0
    = .accept sampleIdentity.subject sampleIdentity.roles 3600 := by
  rw [validate_sample]
  decide +kernel

end TokenGate.Gate
