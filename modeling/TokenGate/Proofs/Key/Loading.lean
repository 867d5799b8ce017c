import TokenGate.Proofs.Key.Layout
import TokenGate.Proofs.Rsa.PublicKey
import TokenGate.Proofs.Token.Rebuilt
import TokenGate.Token.SampleKeys

/-!
# RSA public keys are brought into one form

* `Carries text der`            the base64 of a byte string, in any layout;
* `Holds text k`                the same of a key in one of its two structures;
* `ofPublicKeyText_eq_ok_iff`   what a text has to hold to be loaded, and what it is loaded as;
* `Holds.unique`                a text holds one key at most that can be configured;
* `Normal k key`                all texts with this key, and no others, are loaded as `key`;
* `public_keys_normalised`      so it is with every key that is loaded;
* `armoured der`                a byte string between two lines of armour.
-/

namespace TokenGate.Key

open Text Rsa

variable {k k' : Rsa.PublicKey} {key : Key} {text : String} {der der' : List UInt8}

/-! ## base64 in a layout -/

/-- the text of a byte string, all in one line -/
def plainText (der : List UInt8) : String := Base64.encodeText Base64.standard der

def Carries (text : String) (der : List UInt8) : Prop := Layout (plainText der).toList text.toList

theorem mem_plainText {c : Char} (h : c ∈ (plainText der).toList) :
    c ≠ '-' ∧ isBlank c = false := by
  have hdash : ∀ v < 64, Char.ofNat (Base64.standard.symbol v).toNat ≠ '-' := by decide
  refine ⟨?_, (Base64.mem_encodeText Base64.lawful_standard h).2⟩
  rw [plainText, Base64.encodeText, String.toList_ofList] at h
  obtain ⟨b, hb, rfl⟩ := List.mem_map.mp h
  obtain ⟨v, hv, rfl⟩ | rfl := Base64.mem_encode hb
  · exact hdash v hv
  · decide

theorem carries_iff : Carries text der ↔ bareText text.toList = (plainText der).toList :=
  (bareText_eq_iff fun _ => mem_plainText).symm

theorem carries_plainText (der : List UInt8) : Carries (plainText der) der := by
  refine layout_self fun hc => ?_
  exact absurd (mem_plainText hc).2 (by decide)

theorem decode_bareText_iff :
    Base64.decode Base64.standard (bytes (String.ofList (bareText text.toList))) = .ok der ↔
      Carries text der := by
  rw [carries_iff, Base64.decode_eq_ok_iff Base64.lawful_standard,
    ← Base64.bytes_encodeText Base64.lawful_standard]
  constructor
  · intro h
    rw [plainText, ← bytes_inj h, String.toList_ofList]
  · intro h
    rw [h, String.ofList_toList]
    rfl

theorem Carries.unique (h : Carries text der) (h' : Carries text der') : der = der' := by
  have hread := decode_bareText_iff.mpr h
  rw [decode_bareText_iff.mpr h'] at hread
  exact (Except.ok.inj hread).symm

/-! ## texts with a key in them -/

def Holds (text : String) (k : Rsa.PublicKey) : Prop := ∃ der, k.WrittenAs der ∧ Carries text der

theorem Holds.unique (hk : k.Acceptable) (h : Holds text k) (h' : Holds text k') : k' = k := by
  obtain ⟨der, hder, hcarries⟩ := h
  obtain ⟨der', hder', hcarries'⟩ := h'
  obtain rfl := hcarries.unique hcarries'
  exact hder'.unique (hk.short_of_writtenAs hder) hder

theorem ofPublicKeyText_eq_ok_iff : ofPublicKeyText text = .ok key ↔
    ∃ k : Rsa.PublicKey, k.Acceptable ∧ Holds text k ∧ key = .rsa k.pkcs1 k.modulusBits := by
  unfold ofPublicKeyText
  constructor
  · intro h
    split at h
    · cases h
    · next der hdecode =>
      split at h
      · cases h
      · next k hk =>
        obtain ⟨haccept, hwritten⟩ := Rsa.PublicKey.ofDer?_eq_some_iff.mp hk
        exact ⟨k, haccept, ⟨der, hwritten, decode_bareText_iff.mp hdecode⟩,
          (Except.ok.inj h).symm⟩
  · rintro ⟨k, haccept, ⟨der, hwritten, hcarries⟩, rfl⟩
    rw [decode_bareText_iff.mpr hcarries]
    dsimp only
    rw [Rsa.PublicKey.ofDer?_eq_some_iff.mpr ⟨haccept, hwritten⟩]
    rfl

/-! ## one form -/

structure Normal (k : Rsa.PublicKey) (key : Key) : Prop where
  stored : key = .rsa k.pkcs1 k.modulusBits
  bare : ofPublicKeyText (plainText k.pkcs1) = .ok key
  around : ofPublicKeyText (plainText k.spki) = .ok key
  loaded_iff : ∀ text, ofPublicKeyText text = .ok key ↔ Holds text k

theorem normal_of_acceptable (hk : k.Acceptable) : Normal k (.rsa k.pkcs1 k.modulusBits) := by
  have hload : ∀ text, Holds text k → ofPublicKeyText text = .ok (.rsa k.pkcs1 k.modulusBits) :=
    fun text h => ofPublicKeyText_eq_ok_iff.mpr ⟨k, hk, h, rfl⟩
  refine ⟨rfl, hload _ ⟨_, .inl rfl, carries_plainText _⟩,
    hload _ ⟨_, .inr rfl, carries_plainText _⟩, fun text => ⟨fun h => ?_, hload text⟩⟩
  -- the stored bytes belong to one key
  obtain ⟨k', hk', hholds, hkey⟩ := ofPublicKeyText_eq_ok_iff.mp h
  have hread := hk.ofPkcs1?_pkcs1
  rw [(Key.rsa.inj hkey).1, hk'.ofPkcs1?_pkcs1] at hread
  obtain rfl := Option.some.inj hread
  exact hholds

/-- every key that can be configured is loaded, from all its texts alike; and every text that is
loaded holds one such key, in bytes that are stored as they are or have the stored ones inside -/
theorem public_keys_normalised :
    (∀ k : Rsa.PublicKey, k.Acceptable → Normal k (.rsa k.pkcs1 k.modulusBits))
      ∧ ∀ text key, ofPublicKeyText text = .ok key →
        ∃ k : Rsa.PublicKey, k.Acceptable ∧ (∀ k', Holds text k' ↔ k' = k) ∧ Normal k key
          ∧ (∀ der, Carries text der →
              (Rsa.PublicKey.ofPkcs1? der = some k ∧ der = k.pkcs1)
                ∨ (Rsa.PublicKey.ofSpki? der = some k
                  ∧ der = Rsa.Der.sequence [Rsa.PublicKey.algorithmId,
                      Rsa.Der.element Rsa.Der.bitStringTag (0 :: k.pkcs1)]))
          ∧ ∀ text' key', ofPublicKeyText text' = .ok key' →
              (key' = key ↔ ∃ k', Holds text k' ∧ Holds text' k') := by
  refine ⟨fun k => normal_of_acceptable, fun text key h => ?_⟩
  obtain ⟨k, hk, hholds, rfl⟩ := ofPublicKeyText_eq_ok_iff.mp h
  have hnormal := normal_of_acceptable hk
  refine ⟨k, hk, fun k' => ⟨hholds.unique hk, ?_⟩, hnormal, ?_, ?_⟩
  · rintro rfl
    exact hholds
  · intro der hcarries
    obtain ⟨der', hwritten, hcarries'⟩ := hholds
    obtain rfl := hcarries.unique hcarries'
    obtain rfl | rfl := hwritten
    · exact .inl ⟨hk.ofPkcs1?_pkcs1, rfl⟩
    · exact .inr ⟨Rsa.PublicKey.ofSpki?_spki hk.short, rfl⟩
  · intro text' key' h'
    constructor
    · rintro rfl
      exact ⟨k, hholds, (hnormal.loaded_iff text').mp h'⟩
    · rintro ⟨k', hk', hholds'⟩
      obtain rfl := hholds.unique hk hk'
      rw [(hnormal.loaded_iff text').mpr hholds'] at h'
      exact (Except.ok.inj h').symm

/-! ## a key with armour around it -/

def armoured (der : List UInt8) : String :=
  String.ofList (['\n'].intercalate [dashes ++ "BEGIN PUBLIC KEY-----".toList,
    ' ' :: (plainText der).toList.take 64, (plainText der).toList.drop 64,
    dashes ++ "END PUBLIC KEY-----".toList])

theorem carries_armoured (der : List UInt8) : Carries (armoured der) der := by
  have hsolid : '\n' ∉ (plainText der).toList := fun hc => absurd (mem_plainText hc).2 (by decide)
  have hlaid := Laid.armour "BEGIN PUBLIC KEY-----".toList
    (.stretch (.blank (c := ' ') (by decide) (spaced_self ((plainText der).toList.take 64)))
      (.stretch (spaced_self ((plainText der).toList.drop 64))
        (.armour "END PUBLIC KEY-----".toList .nil)))
  rw [List.append_nil, List.take_append_drop] at hlaid
  refine ⟨_, by simp, String.toList_ofList, ?_, hlaid⟩
  simp only [List.mem_cons, List.not_mem_nil, or_false, forall_eq_or_imp, forall_eq]
  refine ⟨by decide, ?_, fun hc => hsolid (List.mem_of_mem_drop hc), by decide⟩
  rintro (hc | hc)
  · exact absurd hc (by decide)
  · exact hsolid (List.mem_of_mem_take hc)

theorem public_keys_normalised_of_short :
    SampleKeys.short.toPublicKey.Acceptable
      ∧ ∃ key, ofPublicKeyText (armoured SampleKeys.short.spki) = .ok key
        ∧ Normal SampleKeys.short.toPublicKey key := by
  have hk : SampleKeys.short.toPublicKey.Acceptable := by decide +kernel
  have hholds : Holds (armoured SampleKeys.short.spki) SampleKeys.short.toPublicKey :=
    ⟨_, .inr rfl, carries_armoured _⟩
  obtain ⟨hnormal, hloaded⟩ := public_keys_normalised
  have hload := ((hnormal _ hk).loaded_iff _).mpr hholds
  obtain ⟨k, _, hunique, hnormal', _⟩ := hloaded _ _ hload
  rw [← (hunique _).mp hholds] at hnormal'
  exact ⟨hk, _, hload, hnormal'⟩

end TokenGate.Key
