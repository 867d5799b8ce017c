import TokenGate.Proofs.Key.Strength
import TokenGate.Proofs.Rsa.Signing
import TokenGate.Proofs.Token.Sealed

/-!
# Tokens that are signed with an RSA key pair

* `verify_sign`             the public key of a pair, as it is loaded, vouches for what is signed;
* `size_issuedText_le`      how long a token becomes;
* `decode_issuedText_ne_ok`   a payload that is not read as an object is refused;
* `signRsa_round_trip`      what is signed is decoded to what it was made from, and is vouched for
                            by the key that either structure of the public key is loaded as;
* `signRsa_embedded`        unless an object among the claims starts with the reserved name.
-/

namespace TokenGate.Draft

open Digest (Hash)
open Rsa (PrivateKey)
open Text

variable {d : Draft} {a : Algorithm} {h : Hash} {k : PrivateKey} {header : Json}
  {signature : List UInt8}

/-! ## the signature -/

theorem length_sign (k : PrivateKey) (h : Hash) (message : List UInt8) :
    (k.sign h message).length = k.modulusSize :=
  BigEndian.length_ofNat _ _

theorem sign_ne_nil (hk : k.Pair) (h : Hash) (message : List UInt8) : k.sign h message ≠ [] := by
  intro hnil
  have hlen := length_sign k h message
  have hle := hk.le_size
  rw [hnil, List.length_nil] at hlen
  omega

theorem verify_sign (hk : k.Pair) (ha : a.family = .rsa h) (message : List UInt8) :
    (Key.rsa k.pkcs1 k.modulusBits).verify message (k.sign h message) a = .ok () := by
  rw [Key.verify_rsa_eq ha hk.acceptable.ofPkcs1?_pkcs1, hk.verifies_sign]
  rfl

/-! ## the size of a token -/

theorem size_issuedText_le (header : Json) (signature : List UInt8) (d : Draft) :
    (d.issuedText header signature).utf8ByteSize
      ≤ (signingInput header d.claims).utf8ByteSize + 1 + 4 * ((signature.length + 2) / 3) := by
  have hdot : ".".utf8ByteSize = 1 := by decide
  have hlast := Base64.utf8ByteSize_encodeText_le Base64.lawful_urlSafe signature
  unfold issuedText withSignature
  rw [String.utf8ByteSize_append, String.utf8ByteSize_append, hdot]
  omega

theorem size_signed_le (hk : k.Pair) (h : Hash) (message : List UInt8) (header : Json) (d : Draft) :
    (d.issuedText header (k.sign h message)).utf8ByteSize
      ≤ (signingInput header d.claims).utf8ByteSize + 685 := by
  have hsize := size_issuedText_le header (k.sign h message) d
  have hle := hk.size_le
  rw [length_sign] at hsize
  omega

/-! ## making and reading -/

/-- what is signed from claims that can be read back is decoded to these claims, and the key of the
pair vouches for it, loaded from either of its structures -/
theorem signRsa_round_trip (ha : a.family = .rsa h) (hk : k.Pair) (hc : Portable d.claims) :
    ∃ raw, d.signRsa a k = .ok raw ∧ (raw.utf8ByteSize ≤ Token.maxSize →
      ∃ token, MadeFrom token a d raw
        ∧ ∀ der, k.toPublicKey.WrittenAs der →
          ∃ key, Key.ofPublicKeyText (Key.plainText der) = .ok key
            ∧ key.verify (bytes token.signingInput) token.signature token.algorithm = .ok ()) := by
  have hraw : d.signRsa a k = .ok (d.issuedText (rsaHeader a)
      (k.sign h (bytes (signingInput (rsaHeader a) d.claims)))) := by
    rw [signRsa, ha]
    rfl
  refine ⟨_, hraw, fun hsize => ?_⟩
  obtain ⟨token, hmade, hinput, hsignature⟩ :=
    madeFrom_issuedText (heads_rsaHeader a) hc (sign_ne_nil hk h _) hsize
  refine ⟨token, hmade, fun der hder => ?_⟩
  have hload := ((Key.normal_of_acceptable hk.acceptable).loaded_iff (Key.plainText der)).mpr
    ⟨der, hder, Key.carries_plainText der⟩
  refine ⟨_, hload, ?_⟩
  rw [hinput, hsignature, hmade.algorithm]
  exact verify_sign hk ha _

/-- a token that is signed with a pair of known primes -/
def mersenneSignature : List UInt8 :=
  Rsa.mersennePair.sign .sha256 (bytes (signingInput (rsaHeader .rs256) (start 0).claims))

def mersenneText : String := (start 0).issuedText (rsaHeader .rs256) mersenneSignature

theorem size_mersenneText : mersenneText.utf8ByteSize ≤ Token.maxSize := by
  have hinput : (signingInput (rsaHeader .rs256) (start 0).claims).utf8ByteSize + 685
      ≤ Token.maxSize := by decide +kernel
  exact Nat.le_trans (size_signed_le Rsa.pair_mersenne ..) hinput

theorem madeFrom_mersenneText :
    ∃ token, MadeFrom token .rs256 (start 0) mersenneText
      ∧ (Key.rsa Rsa.mersennePair.pkcs1 Rsa.mersennePair.modulusBits).verify
        (bytes token.signingInput) token.signature token.algorithm = .ok () := by
  obtain ⟨token, hmade, hinput, hsignature⟩ := madeFrom_issuedText (heads_rsaHeader .rs256)
    portable_start (sign_ne_nil Rsa.pair_mersenne .sha256 _) size_mersenneText
  refine ⟨token, hmade, ?_⟩
  rw [hinput, hsignature, hmade.algorithm]
  exact verify_sign Rsa.pair_mersenne rfl _

theorem signRsa_round_trip_of_start :
    Algorithm.rs256.family = .rsa .sha256 ∧ Rsa.mersennePair.Pair
      ∧ Portable (Draft.start 0).claims
      ∧ ∃ raw token, (Draft.start 0).signRsa .rs256 Rsa.mersennePair = .ok raw
        ∧ MadeFrom token .rs256 (Draft.start 0) raw := by
  have ha : Algorithm.rs256.family = .rsa .sha256 := rfl
  have hk := Rsa.pair_mersenne
  obtain ⟨raw, hraw, h⟩ := signRsa_round_trip ha hk portable_start
  have hsize : raw.utf8ByteSize ≤ Token.maxSize := by
    rw [← Except.ok.inj hraw]
    exact size_mersenneText
  obtain ⟨token, hmade, _⟩ := h hsize
  exact ⟨ha, hk, portable_start, raw, token, hraw, hmade⟩

/-! ## claims that are not read back -/

theorem decode_issuedText_ne_ok (hne : signature ≠ [])
    (hunread : Json.ofBytes? (bytes (Json.obj d.claims).toText) = none) (token : Token) :
    Token.decode (d.issuedText header signature) ≠ .ok token := by
  intro hdecode
  obtain ⟨t, a, ht, _, _⟩ := Token.decode_eq_ok_iff.mp hdecode
  have hdots : ∀ w ∈ (issuedParts header [] signature d).segments, '.' ∉ w :=
    fun _ hw hm => ((mem_segments hne hw).2 '.' hm).1 rfl
  have hpieces := pieces_eq_iff.mpr ⟨List.cons_ne_nil _ _, toList_issuedText [], hdots⟩
  have hsegments : t.segments = (issuedParts header [] signature d).segments :=
    ht.pieces_eq.symm.trans hpieces
  have hsecond : t.second = (segment (.obj d.claims)).toList :=
    (List.cons.inj (List.cons.inj hsegments).2).1
  have hpayload := ht.payload
  rw [hsecond, Token.object, segment, Token.unbase64_encodeText] at hpayload
  dsimp only at hpayload
  rw [hunread] at hpayload
  cases hpayload

/-- an object that starts with the reserved name is taken for an embedded text -/
theorem signRsa_embedded :
    ¬ ∀ (d : Draft) (a : Algorithm) (h : Hash) (k : PrivateKey) (raw : String),
      a.family = .rsa h → k.Pair → (Json.obj d.claims).all Json.isExact = true →
        (Json.obj d.claims).all Json.isOrdered = true →
        Json.depth (.obj d.claims) ≤ Json.maxDepth → d.signRsa a k = .ok raw →
        raw.utf8ByteSize ≤ Token.maxSize → ∃ token, Token.decode raw = .ok token := by
  intro hall
  let d : Draft := ⟨0, [(Json.embedName, .null)]⟩
  let input := signingInput (rsaHeader .rs256) d.claims
  let signature := Rsa.mersennePair.sign .sha256 (bytes input)
  have hsize : (d.issuedText (rsaHeader .rs256) signature).utf8ByteSize ≤ Token.maxSize := by
    have hle := size_signed_le Rsa.pair_mersenne .sha256 (bytes input) (rsaHeader .rs256) d
    have hinput : (signingInput (rsaHeader .rs256) d.claims).utf8ByteSize + 685
        ≤ Token.maxSize := by decide +kernel
    exact Nat.le_trans hle hinput
  obtain ⟨token, htoken⟩ := hall d .rs256 .sha256 Rsa.mersennePair _ rfl Rsa.pair_mersenne rfl rfl
    (by decide) rfl hsize
  have hunread : Json.ofBytes? (bytes (Json.obj d.claims).toText) = none := by decide +kernel
  exact decode_issuedText_ne_ok (sign_ne_nil Rsa.pair_mersenne .sha256 _) hunread token htoken

end TokenGate.Draft
