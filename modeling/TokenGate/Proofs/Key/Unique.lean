import TokenGate.Key
import TokenGate.Proofs.Rsa.Signing

/-!
# A message has one signature

* `Rsa.PublicKey.OneToOne`     raising to the exponent keeps the numbers below the modulus apart;
* `oneToOne_of_pair`           which is so for every key that is one of a pair;
* `OneToOne.verifies_unique`   under such a key two signatures of a message are the same bytes;
* `Key.OneToOne`               the same of a verification key; nothing is asked of a secret;
* `Key.signature_unique`       such a key accepts one signature of a message at most;
* `Key.Collision`              two messages with one code;
* `Key.collision_of_verify`    a signature that a secret accepts for two messages is such a code.

A signature is as long as the modulus and below it, so that its bytes are fixed by its number.
-/

namespace TokenGate

open Digest (Hash)

/-! ## RSA keys -/

namespace Rsa.PublicKey

variable {k : PublicKey} {h : Hash} {message signature₁ signature₂ : List UInt8}

def OneToOne (k : PublicKey) : Prop :=
  ∀ s < k.modulus, ∀ t < k.modulus,
    s ^ k.exponent % k.modulus = t ^ k.exponent % k.modulus → s = t

/-- the other exponent of a pair takes a power back to its root -/
theorem oneToOne_of_pair {pair : PrivateKey} (hk : pair.Pair) : pair.toPublicKey.OneToOne := by
  have hroot : ∀ x < pair.modulus,
      (x ^ pair.exponent % pair.modulus) ^ pair.secretExponent % pair.modulus = x := by
    intro x hx
    rw [← Nat.pow_mod, ← Nat.pow_mul, Nat.mul_comm, Nat.pow_mul]
    exact hk.inverse x hx
  intro s hs t ht h
  calc s = (s ^ pair.exponent % pair.modulus) ^ pair.secretExponent % pair.modulus :=
        (hroot s hs).symm
    _ = (t ^ pair.exponent % pair.modulus) ^ pair.secretExponent % pair.modulus :=
        congrArg (fun r => r ^ pair.secretExponent % pair.modulus) h
    _ = t := hroot t ht

theorem OneToOne.verifies_unique (hk : k.OneToOne) (h₁ : k.verifies h message signature₁ = true)
    (h₂ : k.verifies h message signature₂ = true) : signature₁ = signature₂ := by
  simp only [verifies, Bool.and_eq_true, beq_iff_eq, decide_eq_true_iff, powMod_eq] at h₁ h₂
  obtain ⟨⟨⟨⟨_, hlen₁⟩, _⟩, hlt₁⟩, hblock₁⟩ := h₁
  obtain ⟨⟨⟨⟨_, hlen₂⟩, _⟩, hlt₂⟩, hblock₂⟩ := h₂
  -- a remainder fits into the bytes of the modulus, and is given back by them
  have hpos : 0 < k.modulus := Nat.lt_of_le_of_lt (Nat.zero_le _) hlt₁
  have hfits : ∀ n, BigEndian.toNat (BigEndian.ofNat (n % k.modulus) k.modulusSize)
      = n % k.modulus := fun n => BigEndian.toNat_ofNat_size (Nat.mod_lt n hpos)
  have hpower := congrArg BigEndian.toNat (hblock₁.trans hblock₂.symm)
  rw [hfits, hfits] at hpower
  have hnumber := hk _ hlt₁ _ hlt₂ hpower
  rw [← BigEndian.ofNat_toNat signature₁, ← BigEndian.ofNat_toNat signature₂, hnumber, hlen₁,
    hlen₂]

end Rsa.PublicKey

/-! ## verification keys -/

namespace Key

variable {key : Key} {secret message message₁ message₂ signature signature₁ signature₂ : List UInt8}
  {a a₁ a₂ : Algorithm}

def OneToOne : Key → Prop
  | .secret _ => True
  | .rsa pkcs1 _ => ∀ k, Rsa.PublicKey.ofPkcs1? pkcs1 = some k → k.OneToOne

theorem acceptIf_eq_ok_iff {right : Bool} : acceptIf right = .ok () ↔ right = true := by
  cases right <;> simp [acceptIf]

theorem verify_secret_iff : (Key.secret secret).verify message signature a = .ok () ↔
    ∃ h, a.family = .hmac h ∧ signature = h.mac secret message := by
  unfold verify
  cases hf : a.family with
  | hmac h => simp [acceptIf_eq_ok_iff]
  | rsa h => simp

theorem verify_rsa_iff {pkcs1 : List UInt8} {bits : Nat} :
    (Key.rsa pkcs1 bits).verify message signature a = .ok () ↔
      ∃ h k, a.family = .rsa h ∧ Rsa.PublicKey.ofPkcs1? pkcs1 = some k
        ∧ k.verifies h message signature = true := by
  unfold verify
  cases hf : a.family with
  | hmac h => simp
  | rsa h =>
    dsimp only
    cases hk : Rsa.PublicKey.ofPkcs1? pkcs1 <;> simp [acceptIf_eq_ok_iff]

theorem signature_unique (hk : key.OneToOne) (h₁ : key.verify message signature₁ a = .ok ())
    (h₂ : key.verify message signature₂ a = .ok ()) : signature₁ = signature₂ := by
  cases key with
  | secret secret =>
    obtain ⟨h, hf₁, rfl⟩ := verify_secret_iff.mp h₁
    obtain ⟨h', hf₂, rfl⟩ := verify_secret_iff.mp h₂
    rw [hf₁] at hf₂
    cases hf₂
    rfl
  | rsa pkcs1 bits =>
    obtain ⟨h, k, hf₁, hk₁, hv₁⟩ := verify_rsa_iff.mp h₁
    obtain ⟨h', k', hf₂, hk₂, hv₂⟩ := verify_rsa_iff.mp h₂
    rw [hf₁] at hf₂
    cases hf₂
    rw [hk₁] at hk₂
    cases hk₂
    exact (hk k hk₁).verifies_unique hv₁ hv₂

def Collision (h : Hash) (secret message₁ message₂ : List UInt8) : Prop :=
  message₁ ≠ message₂ ∧ h.mac secret message₁ = h.mac secret message₂

/-- the algorithms agree, since codes of different hash functions differ in length -/
theorem collision_of_verify (h₁ : (Key.secret secret).verify message₁ signature a₁ = .ok ())
    (h₂ : (Key.secret secret).verify message₂ signature a₂ = .ok ()) (hne : message₁ ≠ message₂) :
    ∃ h, a₁.family = .hmac h ∧ a₂.family = .hmac h ∧ Collision h secret message₁ message₂ := by
  obtain ⟨h, hf₁, hs₁⟩ := verify_secret_iff.mp h₁
  obtain ⟨h', hf₂, hs₂⟩ := verify_secret_iff.mp h₂
  have hmac : h.mac secret message₁ = h'.mac secret message₂ := hs₁.symm.trans hs₂
  have hsize : h.size = h'.size := by
    rw [← Digest.length_mac h secret message₁, hmac, Digest.length_mac]
  have hsame : h = h' := by
    cases h <;> cases h' <;> first | rfl | exact absurd hsize (by decide)
  subst hsame
  exact ⟨h, hf₁, hf₂, hne, hmac⟩

end Key

end TokenGate
