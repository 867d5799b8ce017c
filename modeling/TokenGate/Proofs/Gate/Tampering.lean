import TokenGate.Proofs.Gate.Soundness
import TokenGate.Proofs.Key.Unique
import TokenGate.Proofs.Token.Rebuilt
import TokenGate.Proofs.Token.Signed

/-!
# Tokens that are changed

* `Gate.Admits`, `Gate.Always`   a token is accepted in some state; all decisions on it, whatever
                                 the state, the clock and the realm, are of one sort;
* `decision_of_validation`       a decision on a token is always that of some full validation;
* `Gate.Tampered`                the decisions that are due to a changed token;
* `tampered_of_covered`          a token that covers what a genuine one covers is that token, or is
                                 not authentic;
* `collision_of_segment`         two genuine tokens with one signature are a collision of codes;
* `tamper_resistant`             so no token can be made from one that is accepted.

Nothing is assumed of hash functions, and of an RSA key that no two numbers below the modulus
have the same power.
-/

namespace TokenGate

open Checks (ok_bind bind_eq_error_iff mapError_eq_ok_iff mapError_eq_error_iff)
open Text
open Traced (result_bind result_ofExcept result_emit result_pure)

namespace Gate

variable {s : Settings} {hasRealm : Bool} {g : Gate} {realm : Realm} {raw raw' : String}
  {now : Int} {token token' : Token} {key : Key}

/-! ## decisions in all states -/

/-- the token is accepted in some state, which may be any that moves lead to -/
def Admits (g : Gate) (raw : String) : Prop :=
  ∃ before header now realm id, Credential.ofHeader header = .ok raw
    ∧ (g.authenticate realm (g.memoAfter before) header now).decision = .accepted id

def Always (g : Gate) (raw : String) (P : Decision → Prop) : Prop :=
  ∀ before header now realm, Credential.ofHeader header = .ok raw →
    P (g.authenticate realm (g.memoAfter before) header now).decision

theorem decision_of_validation (g : Gate) (realm : Realm) (before : List Move)
    {header : Option String} (ht : Credential.ofHeader header = .ok raw) (now : Int) :
    ∃ realm' now', (g.authenticate realm (g.memoAfter before) header now).decision
      = (g.validate realm' raw now').decision := by
  rcases g.decision_cases realm (g.memoAfter before) ht now with ⟨e, he, _, hd⟩ | hd
  · obtain ⟨_, _, stored, realm', _, _, _, _, hs, _⟩ := origin_of_mem he
    exact ⟨realm', stored, by rw [hd, hs.outcome]⟩
  · exact ⟨realm, now, hd⟩

theorem always_of_validate {P : Decision → Prop}
    (h : ∀ realm now, P (g.validate realm raw now).decision) : g.Always raw P := by
  intro before header now realm ht
  obtain ⟨realm', now', hd⟩ := g.decision_of_validation realm before ht now
  rw [hd]
  exact h realm' now'

theorem genuine_of_admits (h : build s hasRealm none = .ok g) (ha : g.Admits raw) :
    ∃ token key, Genuine s raw token key := by
  obtain ⟨before, header, now, realm, id, ht, hacc⟩ := ha
  obtain ⟨realm', now', hd⟩ := g.decision_of_validation realm before ht now
  obtain ⟨token, c, expiresAt, hgr, _⟩ := grounds_of_decision (sound_of_build h) (hd ▸ hacc)
  obtain ⟨key, hgen⟩ := hgr.genuine h
  exact ⟨token, key, hgen⟩

/-! ## tokens that are not authentic -/

def Tampered : Decision → Prop
  | .rejected r => r = .ofKind .malformedToken ∨ r = .ofKind .invalidSignature
  | .accepted _ => False

theorem verification_of_key (h : build s hasRealm none = .ok g) (hk : s.key = .ok key) :
    g.verification = .key key := by
  have hver : s.key.map Verification.key = .ok g.verification := (follows_of_build h).verification
  rw [hk] at hver
  exact (Except.ok.inj hver).symm

theorem tampered_of_covered (hg : g.verification = .key key) (hgen : Genuine s raw token key)
    (hk : key.OneToOne) (hc : Token.covered raw' = Token.covered raw) (hne : raw' ≠ raw)
    (realm : Realm) (now : Int) : Tampered (g.validate realm raw' now).decision := by
  rcases Token.parts_or_malformed raw' with ⟨t', ht'⟩ | ⟨f, hf, hkind⟩
  swap
  · have hbad : (g.authentic raw').result = .error (.token f) :=
      authentic_eq_error_iff.mpr (.inl ⟨f, hf, rfl⟩)
    rw [validate_of_unauthentic hbad, Outcome.decision_reject]
    exact .inl (congrArg Rejection.ofKind hkind)
  -- the header is that of the genuine token, so that its algorithm is the same
  obtain ⟨t, a, ht, ha, rfl⟩ := Token.decode_eq_ok_iff.mp hgen.decoded
  have hinput : t'.signingInput = t.signingInput := by
    rw [← ht'.covered_eq, hc, ht.covered_eq]
  have ha' : t'.Names a := by
    unfold Token.Parts.Names
    rw [(ht'.same_parts ht hinput).1]
    exact ha
  have hdecode := Token.decode_eq_ok_iff.mpr ⟨t', a, ht', ha', rfl⟩
  cases hv : g.verification.verify (bytes t'.signingInput) t'.signature a with
  | error f =>
    have hbad : (g.authentic raw').result = .error (.signature a f) :=
      authentic_eq_error_iff.mpr (.inr ⟨_, hdecode, f, hv, rfl⟩)
    rw [validate_of_unauthentic hbad, Outcome.decision_reject]
    exact .inr rfl
  | ok u =>
    rw [hg, hinput] at hv
    have hs : t'.signature = t.signature := Key.signature_unique hk hv hgen.verified
    exact absurd (ht'.same_token ht hinput hs) hne

/-! ## one signature for two texts -/

theorem collision_of_segment {secret : List UInt8} (hgen : Genuine s raw token (.secret secret))
    (hgen' : Genuine s raw' token' (.secret secret))
    (hs : Token.segment? raw' 2 = Token.segment? raw 2) (hne : raw' ≠ raw) :
    ∃ h, token.algorithm.family = .hmac h ∧ token'.algorithm.family = .hmac h
      ∧ Key.Collision h secret (bytes (Token.covered raw)) (bytes (Token.covered raw')) := by
  obtain ⟨t, a, ht, _, rfl⟩ := Token.decode_eq_ok_iff.mp hgen.decoded
  obtain ⟨t', a', ht', _, rfl⟩ := Token.decode_eq_ok_iff.mp hgen'.decoded
  have hthird : t'.third = t.third := by
    rw [ht.segment?_two, ht'.segment?_two] at hs
    exact Option.some.inj hs
  have hsignature : t'.signature = t.signature := by
    have hs' := ht'.signature
    rw [hthird, ht.signature] at hs'
    exact (Except.ok.inj hs').symm
  have hv : (Key.secret secret).verify (bytes t.signingInput) t.signature a = .ok () :=
    hgen.verified
  have hv' : (Key.secret secret).verify (bytes t'.signingInput) t.signature a' = .ok () := by
    rw [← hsignature]
    exact hgen'.verified
  have hinput : bytes t.signingInput ≠ bytes t'.signingInput := fun he =>
    hne (ht'.same_token ht (bytes_inj he).symm hsignature)
  rw [ht.covered_eq, ht'.covered_eq]
  exact Key.collision_of_verify hv hv' hinput

/-! ## no token can be made from another one -/

/-- whatever happened before: a text that covers what an accepted token covers is rejected for its
form or its signature, unless it is that token, and a token with the signature of an accepted one
is accepted for a collision of codes only -/
theorem tamper_resistant (h : build s hasRealm none = .ok g) (hraw : g.Admits raw) :
    ∃ token key, Token.decode raw = .ok token ∧ s.key = .ok key
      ∧ (key.OneToOne → ∀ raw', Token.covered raw' = Token.covered raw →
        (raw' ≠ raw → g.Always raw' Tampered) ∧ (g.Admits raw' → raw' = raw))
      ∧ ∀ secret, key = .secret secret → ∀ raw' ≠ raw,
        Token.segment? raw' 2 = Token.segment? raw 2 → g.Admits raw' →
        ∃ token' h, Token.decode raw' = .ok token' ∧ token.algorithm.family = .hmac h
          ∧ token'.algorithm.family = .hmac h
          ∧ Key.Collision h secret (bytes (Token.covered raw)) (bytes (Token.covered raw')) := by
  obtain ⟨token, key, hgen⟩ := genuine_of_admits h hraw
  have hg := verification_of_key h hgen.configured
  refine ⟨token, key, hgen.decoded, hgen.configured, fun hk raw' hc => ?_, ?_⟩
  · have htampered : raw' ≠ raw → g.Always raw' Tampered := fun hne =>
      always_of_validate (tampered_of_covered hg hgen hk hc hne)
    refine ⟨htampered, fun ha => Classical.not_not.mp fun hne => ?_⟩
    obtain ⟨before, header, now, realm, id, ht, hacc⟩ := ha
    have hdecision := htampered hne before header now realm ht
    rw [hacc] at hdecision
    exact hdecision
  · rintro secret rfl raw' hne hs ha
    obtain ⟨token', key', hgen'⟩ := genuine_of_admits h ha
    have hsame : key' = .secret secret :=
      Except.ok.inj (hgen'.configured.symm.trans hgen.configured)
    subst hsame
    obtain ⟨hash, hcollision⟩ := collision_of_segment hgen hgen' hs hne
    exact ⟨token', hash, hgen'.decoded, hcollision⟩

/-- the sample token with another first byte of the signature -/
def sampleChanged : String :=
  "eyJ0eXAiOiJKV1QiLCJhbGciOiJIUzI1NiJ9.eyJleHAiOjM2MDAsImlhdCI6MCwic3ViIjoidXNlcjEifQ"
    ++ ".ILJZTs8JkFISB2P4ydY2mh8cKVhcnUpYq3Ocfs8Xu9g"

theorem admits_of_validate {header : Option String} (ht : Credential.ofHeader header = .ok raw)
    (realm : Realm) (now : Int) {id : Identity}
    (hv : (g.validate realm raw now).decision = .accepted id) : g.Admits raw :=
  ⟨[], header, now, realm, id, ht, (g.decision_of_empty realm rfl ht now).trans hv⟩

theorem admits_sampleToken : sample.Admits sampleToken :=
  admits_of_validate ofHeader_sampleHeader sampleRealm 0
    (congrArg Outcome.decision validate_sampleToken)

/-! the same with the public key of a pair -/

def mersenneKey : Key := .rsa Rsa.mersennePair.pkcs1 Rsa.mersennePair.modulusBits

def rsaSettings : Settings :=
  { Settings.standard with publicKey := some (Key.plainText Rsa.mersennePair.pkcs1) }

def rsaSample : Gate := { sample with verification := .key mersenneKey }

theorem key_rsaSettings : rsaSettings.key = .ok mersenneKey := by
  show (Key.ofPublicKeyText (Key.plainText Rsa.mersennePair.pkcs1)).mapError Settings.Fault.key = _
  rw [(Key.normal_of_acceptable Rsa.pair_mersenne.acceptable).bare]
  rfl

theorem build_rsaSample : build rsaSettings true none = .ok rsaSample := by
  refine build_eq_ok_iff.mpr ⟨ofSettings_eq_ok_iff.mpr ⟨rfl, rfl, fun _ => rfl, _, ?_, rfl⟩, rfl⟩
  show rsaSettings.key.map Verification.key = _
  rw [key_rsaSettings]
  rfl

theorem oneToOne_mersenneKey : mersenneKey.OneToOne := by
  intro k hk
  rw [Rsa.pair_mersenne.acceptable.ofPkcs1?_pkcs1] at hk
  obtain rfl := Option.some.inj hk
  exact Rsa.PublicKey.oneToOne_of_pair Rsa.pair_mersenne

theorem admits_mersenneText : rsaSample.Admits Draft.mersenneText := by
  obtain ⟨token, hmade, hverify⟩ := Draft.madeFrom_mersenneText
  have hheader : Credential.ofHeader (some (Credential.header Draft.mersenneText))
      = .ok Draft.mersenneText :=
    Draft.ofHeader_issuedText (Draft.sign_ne_nil Rsa.pair_mersenne .sha256 _)
  have hjudged : (rsaSample.judge sampleRealm (Draft.start 0).claims 0).outcome.decision
      = .accepted sampleIdentity := by
    decide +kernel
  refine admits_of_validate hheader sampleRealm 0 (Eq.trans ?_ hjudged)
  rw [validate_of_madeFrom hmade rfl hverify]

/-- no other text with what the sample tokens cover is accepted, whichever kind of key there is -/
theorem tamper_resistant_of_sample :
    build Settings.sample true none = .ok sample ∧ sample.Admits sampleToken
      ∧ sample.Always sampleChanged Tampered
      ∧ build rsaSettings true none = .ok rsaSample ∧ rsaSample.Admits Draft.mersenneText
      ∧ ∀ raw' ≠ Draft.mersenneText, Token.covered raw' = Token.covered Draft.mersenneText →
        rsaSample.Always raw' Tampered := by
  have ha := admits_sampleToken
  have ha' := admits_mersenneText
  obtain ⟨_, key, _, hkey, hcovered, _⟩ := tamper_resistant build_sample ha
  obtain ⟨_, key', _, hkey', hcovered', _⟩ := tamper_resistant build_rsaSample ha'
  have hsecret : Settings.sample.key = .ok (.secret sampleSecret) := rfl
  obtain rfl : key = .secret sampleSecret := Except.ok.inj (hkey.symm.trans hsecret)
  obtain rfl : key' = mersenneKey := Except.ok.inj (hkey'.symm.trans key_rsaSettings)
  have hlast : '.' ∉ "HLJZTs8JkFISB2P4ydY2mh8cKVhcnUpYq3Ocfs8Xu9g".toList := by decide +kernel
  have hlast' : '.' ∉ "ILJZTs8JkFISB2P4ydY2mh8cKVhcnUpYq3Ocfs8Xu9g".toList := by decide +kernel
  have hc : Token.covered sampleChanged = Token.covered sampleToken :=
    (Token.covered_append hlast' _).trans (Token.covered_append hlast _).symm
  have hne : sampleChanged ≠ sampleToken := by decide +kernel
  exact ⟨build_sample, ha, (hcovered trivial sampleChanged hc).1 hne, build_rsaSample, ha',
    fun raw' hne' hc' => (hcovered' oneToOne_mersenneKey raw' hc').1 hne'⟩

end Gate

end TokenGate
