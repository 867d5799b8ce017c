import TokenGate.Proofs.Gate.Obstacles
import TokenGate.Proofs.Gate.Tampering
import TokenGate.Proofs.Key.Strength

/-!
# Gates whose RSA key is of no use

* `rejects_all`                 a gate whose key verifies nothing accepts nobody;
* `verification_of_publicKey`   a gate has the key that its settings hold as text;
* `key_strength_exact`          loading and verifying agree: a key that is not warned of verifies
                                exactly its signatures, and with any other key nothing is accepted.
-/

namespace TokenGate.Gate

open Text
open Rsa (PublicKey)

variable {s : Settings} {hasRealm : Bool} {g : Gate} {key : Key} {text : String}

theorem rejects_all (hnever : ∀ message signature a,
      g.verification.verify message signature a ≠ .ok ())
    (before : List Move) (header : Option String) (now : Int) (realm : Realm) (id : Identity) :
    (g.authenticate realm (g.memoAfter before) header now).decision ≠ .accepted id := by
  intro hacc
  cases ht : Credential.ofHeader header with
  | error f =>
    rw [(g.authenticate_of_error realm _ ht now).1, Outcome.decision_reject] at hacc
    cases hacc
  | ok raw =>
    -- what is decided is what some validation decided, and none gets past the signature
    obtain ⟨realm', now', hd⟩ := g.decision_of_validation realm before ht now
    obtain ⟨r, hr⟩ : ∃ r, (g.authentic raw).result = .error r := by
      cases hdecode : Token.decode raw with
      | error f => exact ⟨_, authentic_eq_error_iff.mpr (.inl ⟨f, hdecode, rfl⟩)⟩
      | ok token =>
        cases hv : g.verification.verify (bytes token.signingInput) token.signature
            token.algorithm with
        | ok u => exact absurd hv (hnever _ _ _)
        | error f => exact ⟨_, authentic_eq_error_iff.mpr (.inr ⟨token, hdecode, f, hv, rfl⟩)⟩
    rw [hd, validate_of_unauthentic hr, Outcome.decision_reject] at hacc
    cases hacc

theorem verification_of_publicKey (h : build s hasRealm none = .ok g)
    (hset : s.publicKey = some text) (hload : Key.ofPublicKeyText text = .ok key) :
    g.verification = .key key := by
  obtain ⟨hv, hone, _⟩ := ofSettings_eq_ok_iff.mp (ofSettings_of_build h)
  have hrsa := (Settings.validate_eq_ok.mp hv).algorithm
  have hsecret : s.secretKey = none := by
    have hdiffer := Settings.checkSingleKey_eq_ok.mp hone
    unfold Settings.OneKey at hdiffer
    rw [hset] at hdiffer
    simpa using hdiffer
  refine verification_of_key h ?_
  unfold Settings.key
  rw [hsecret, hset]
  show (if _ then _ else _) = _
  rw [if_pos hrsa, hload]
  rfl

theorem key_strength_exact (hload : Key.ofPublicKeyText text = .ok key) :
    ∃ k : PublicKey, Key.Holds text k ∧ key = .rsa k.pkcs1 k.modulusBits
      ∧ (key.Reads ↔ 2048 ≤ k.modulusBits)
      ∧ (key.loadEvents = [] ↔ 2048 ≤ k.modulusBits)
      ∧ (k.modulusBits < 2048 →
          (∀ message signature a h, a.family = .rsa h →
            key.verify message signature a = .error .mismatch)
          ∧ ∀ s hasRealm g, s.publicKey = some text → build s hasRealm none = .ok g →
            ∀ before header now realm id,
              (g.authenticate realm (g.memoAfter before) header now).decision ≠ .accepted id)
      ∧ (2048 ≤ k.modulusBits → ∀ message signature a h, a.family = .rsa h →
          (key.verify message signature a = .ok () ↔ Key.Signs k h message signature)) := by
  obtain ⟨k, hk, hholds, rfl⟩ := Key.ofPublicKeyText_eq_ok_iff.mp hload
  refine ⟨k, hholds, rfl, Key.reads_iff hk, Key.loadEvents_eq_nil_iff, fun hshort => ⟨?_, ?_⟩,
    fun hbits _ _ _ _ => Key.verify_ok_iff hk hbits⟩
  · intro message signature a h ha
    exact Key.verify_mismatch_of_short hk hshort ha
  · intro s hasRealm g hset hbuild
    refine rejects_all fun message signature a => ?_
    rw [verification_of_publicKey hbuild hset hload]
    exact Key.verify_ne_ok_of_short hk hshort

/-- a key of 1024 bits is loaded, with a warning, and verifies nothing; one of 3482 bits is loaded
without, and verifies what its pair signs, which are signatures of the key -/
theorem key_strength_exact_of_samples :
    (∃ key, Key.ofPublicKeyText (Key.plainText SampleKeys.short.pkcs1) = .ok key
      ∧ key.loadEvents ≠ []
      ∧ ∀ message signature, key.verify message signature .rs256 = .error .mismatch)
    ∧ ∃ k, Key.ofPublicKeyText (Key.plainText Rsa.mersennePair.pkcs1) = .ok mersenneKey
      ∧ mersenneKey.Reads ∧ mersenneKey.loadEvents = []
      ∧ ∀ message,
        mersenneKey.verify message (Rsa.mersennePair.sign .sha256 message) .rs256 = .ok ()
        ∧ Key.Signs k .sha256 message (Rsa.mersennePair.sign .sha256 message) := by
  have hk : SampleKeys.short.toPublicKey.Acceptable := by decide +kernel
  have hload := (Key.normal_of_acceptable hk).bare
  have hload' := (Key.normal_of_acceptable Rsa.pair_mersenne.acceptable).bare
  obtain ⟨k, _, hkey, _, hevents, hshort, _⟩ := key_strength_exact hload
  obtain ⟨k', _, hkey', hreads, hevents', _, hlong⟩ := key_strength_exact hload'
  have hbits : k.modulusBits < 2048 := by
    rw [← (Key.rsa.inj hkey).2]
    decide +kernel
  have hbits' : 2048 ≤ k'.modulusBits := by
    rw [← (Key.rsa.inj hkey').2]
    exact Rsa.pair_mersenne.le_modulusBits
  refine ⟨⟨_, hload, fun hnil => absurd (hevents.mp hnil) (Nat.not_le.mpr hbits), ?_⟩,
    k', hload', hreads.mpr hbits', hevents'.mpr hbits', fun message => ?_⟩
  · exact fun message signature => (hshort hbits).1 message signature .rs256 .sha256 rfl
  · have hverify := Draft.verify_sign Rsa.pair_mersenne (a := .rs256) rfl message
    exact ⟨hverify, (hlong hbits' message _ .rs256 .sha256 rfl).mp hverify⟩

end TokenGate.Gate
