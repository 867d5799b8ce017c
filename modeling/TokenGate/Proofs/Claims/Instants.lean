import TokenGate.Proofs.Claims.Exact

/-!
# The instants at which claims pass

The checks of a policy hold their sums within 64 bits. For claims that were read from a payload
this cannot be told from sums without limits.

* `Seconds.Fits n`                   `n` is an integer of 64 bits;
* `Policy.checkExactly`              the checks with sums that have no limits;
* `checkExpiry_eq`, `checkStart_eq`  the single checks are the exact ones, the second one as long
                                     as the first is passed;
* `check_eq_checkExactly`            so is the whole check, result for result;
* `Policy.Admits`, `Window`          what is asked of claims at whatever instant, and the instants;
* `check_within_exact_window`        claims pass in one interval of instants or never, and still do
                                     under a larger tolerance.
-/

namespace TokenGate

namespace Seconds

/-! ## sums within 64 bits and sums without limits -/

def Fits (n : Int) : Prop := minimum ≤ n ∧ n ≤ maximum

instance (n : Int) : Decidable (Fits n) := inferInstanceAs (Decidable (_ ∧ _))

variable {a b now : Int}

/-- A sum that is too large is held at a limit that no instant is after. -/
theorem add_lt_iff (ha : 0 ≤ a) (hb : Fits b) (hnow : Fits now) :
    add a b < now ↔ a + b < now := by
  obtain ⟨hb, _⟩ := hb
  obtain ⟨_, hnow⟩ := hnow
  unfold add clamp
  omega

/-- A difference that is too large is held at the last instant of all, which is before it. -/
theorem lt_sub_iff (ha : 0 ≤ a) (hb : Fits b) (hnow : Fits now) (hlast : now < maximum ∨ 0 ≤ b)
    (ha' : a ≤ maximum) : now < sub a b ↔ now < a - b := by
  obtain ⟨_, hb⟩ := hb
  obtain ⟨_, hnow⟩ := hnow
  have hlow : minimum ≤ a - b := by
    unfold minimum
    unfold maximum at hb
    omega
  unfold sub clamp
  omega

end Seconds

namespace Policy

open Seconds (Fits)

/-! ## the checks without limits -/

def checkExpiryExactly (p : Policy) (c : Claims) (now : Int) : Except Fault Int :=
  match c.expiresAt with
  | none => .error .noExpiry
  | some expiresAt =>
    if expiresAt + p.skew < now then .error (.expired expiresAt now p.skew) else .ok expiresAt

def checkStartExactly (p : Policy) (c : Claims) (now : Int) : Except Fault Unit :=
  match c.notBefore with
  | none => .ok ()
  | some notBefore =>
    if now < notBefore - p.skew then .error (.notYetValid notBefore now p.skew) else .ok ()

def checkExactly (p : Policy) (c : Claims) (now : Int) : Except Fault (String × Int) := do
  let expiresAt ← p.checkExpiryExactly c now
  p.checkStartExactly c now
  p.checkIssuer c
  p.checkAudience c
  let subject ← checkSubject c
  return (subject, expiresAt)

variable {p : Policy} {c : Claims} {payload : Members} {now : Int}

theorem checkExpiryExactly_eq_ok_iff {expiresAt : Int} :
    p.checkExpiryExactly c now = .ok expiresAt ↔
      c.expiresAt = some expiresAt ∧ now ≤ expiresAt + p.skew := by
  unfold checkExpiryExactly
  cases c.expiresAt with
  | none => simp
  | some e =>
    by_cases h : e + p.skew < now
    · simp only [h, ↓reduceIte, reduceCtorEq, Option.some.injEq, false_iff, not_and]
      rintro rfl
      exact Int.not_le.mpr h
    · simp only [h, ↓reduceIte, Except.ok.injEq, Option.some.injEq]
      constructor
      · rintro rfl
        exact ⟨rfl, Int.not_lt.mp h⟩
      · exact fun he => he.1

/-! ## the two are one -/

theorem checkExpiry_eq (hc : c.Of payload) (hskew : Fits p.skew) (hnow : Fits now) :
    p.checkExpiry c now = p.checkExpiryExactly c now := by
  unfold checkExpiry checkExpiryExactly
  cases he : c.expiresAt with
  | none => rfl
  | some e =>
    have hpos : 0 ≤ e := (hc.expiryInRange e he).1
    simp only [gt_iff_lt, Seconds.add_lt_iff hpos hskew hnow]

/-- Where a difference is held at the limit, the tolerance is negative, so that the claims have
expired by the last instant: who passed the first check does not stand there. -/
theorem checkStart_eq (hc : c.Of payload) (hskew : Fits p.skew) (hnow : Fits now) {expiresAt : Int}
    (hexp : p.checkExpiryExactly c now = .ok expiresAt) :
    p.checkStart c now = p.checkStartExactly c now := by
  unfold checkStart checkStartExactly
  cases hs : c.notBefore with
  | none => rfl
  | some n =>
    obtain ⟨hpos, hle⟩ := hc.startInRange n hs
    have hlast : now < Seconds.maximum ∨ 0 ≤ p.skew := by
      obtain ⟨he, hle⟩ := checkExpiryExactly_eq_ok_iff.mp hexp
      have hmax : expiresAt ≤ Seconds.maximum := (hc.expiryInRange expiresAt he).2
      omega
    simp only [Seconds.lt_sub_iff hpos hskew hnow hlast hle]

theorem check_eq_checkExactly (hc : c.Of payload) (hskew : Fits p.skew) (hnow : Fits now) :
    p.check c now = p.checkExactly c now := by
  unfold check checkExactly
  rw [checkExpiry_eq hc hskew hnow]
  cases hexp : p.checkExpiryExactly c now with
  | error f => rfl
  | ok e => rw [checkStart_eq hc hskew hnow hexp]

/-! ## the interval -/

/-- what is asked of the names in claims, at whatever instant -/
structure Knows (p : Policy) (c : Claims) (subject : String) : Prop where
  issuer : p.MeetsIssuer c
  audience : p.MeetsAudience c
  named : c.subject = some subject
  nonempty : subject ≠ ""

/-- from the start less the tolerance, if there is a start, to the expiry and the tolerance -/
def Window (p : Policy) (c : Claims) (expiresAt now : Int) : Prop :=
  (∀ n, c.notBefore = some n → n - p.skew ≤ now) ∧ now ≤ expiresAt + p.skew

theorem checkStartExactly_eq_ok_iff {u : Unit} :
    p.checkStartExactly c now = .ok u ↔ ∀ n, c.notBefore = some n → n - p.skew ≤ now := by
  unfold checkStartExactly
  cases c.notBefore with
  | none => simp
  | some n =>
    simp only [Option.some.injEq, forall_eq']
    by_cases h : now < n - p.skew
    · simp only [h, ↓reduceIte, reduceCtorEq, false_iff]
      exact Int.not_le.mpr h
    · simp only [h, ↓reduceIte, true_iff]
      exact Int.not_lt.mp h

theorem checkExactly_eq_ok_iff {subject : String} {expiresAt : Int} :
    p.checkExactly c now = .ok (subject, expiresAt) ↔
      c.expiresAt = some expiresAt ∧ p.Knows c subject ∧ p.Window c expiresAt now := by
  simp only [checkExactly, Checks.bind_eq_ok_iff, checkExpiryExactly_eq_ok_iff,
    checkStartExactly_eq_ok_iff, checkIssuer_eq_ok_iff, checkAudience_eq_ok_iff,
    checkSubject_eq_ok_iff]
  constructor
  · intro hx
    obtain ⟨e, ⟨he, hle⟩, _, hs, _, hi, _, ha, s, ⟨hsub, hne⟩, h⟩ := hx
    cases h
    exact ⟨he, ⟨hi, ha, hsub, hne⟩, hs, hle⟩
  · intro hx
    obtain ⟨he, hk, hs, hle⟩ := hx
    exact ⟨expiresAt, ⟨he, hle⟩, (), hs, (), hk.issuer, (), hk.audience, subject,
      ⟨hk.named, hk.nonempty⟩, rfl⟩

/-- the subject of claims and their expiry, if they pass at any instant at all -/
def Admits (p : Policy) (c : Claims) (subject : String) (expiresAt : Int) : Prop :=
  c.expiresAt = some expiresAt ∧ p.Knows c subject

theorem Admits.checkExactly_eq_ok_iff {subject : String} {expiresAt : Int}
    (h : p.Admits c subject expiresAt) {r : String × Int} :
    p.checkExactly c now = .ok r ↔ r = (subject, expiresAt) ∧ p.Window c expiresAt now := by
  obtain ⟨he, hk⟩ := h
  constructor
  · intro hr
    obtain ⟨he', hk', hw⟩ := Policy.checkExactly_eq_ok_iff.mp hr
    have hs : r.1 = subject := Option.some.inj (hk'.named.symm.trans hk.named)
    have ht : r.2 = expiresAt := Option.some.inj (he'.symm.trans he)
    exact ⟨Prod.ext hs ht, ht ▸ hw⟩
  · rintro ⟨rfl, hw⟩
    exact Policy.checkExactly_eq_ok_iff.mpr ⟨he, hk, hw⟩

theorem Window.widen {wider expiresAt : Int} (hle : p.skew ≤ wider)
    (h : p.Window c expiresAt now) :
    Window ⟨p.issuer, p.audience, wider⟩ c expiresAt now := by
  obtain ⟨hs, he⟩ := h
  refine ⟨fun n hn => ?_, ?_⟩
  · have := hs n hn
    show n - wider ≤ now
    omega
  · show now ≤ expiresAt + wider
    omega

theorem checkExactly_widen {wider : Int} (hle : p.skew ≤ wider) {r : String × Int}
    (h : p.checkExactly c now = .ok r) :
    checkExactly ⟨p.issuer, p.audience, wider⟩ c now = .ok r := by
  obtain ⟨he, hk, hw⟩ := checkExactly_eq_ok_iff.mp h
  have hk' : Knows ⟨p.issuer, p.audience, wider⟩ c r.1 :=
    ⟨hk.issuer, hk.audience, hk.named, hk.nonempty⟩
  exact checkExactly_eq_ok_iff.mpr ⟨he, hk', hw.widen hle⟩

/-- Claims of a payload, under any tolerance and at any instant of 64 bits: the checks give what
they would give without limits, in success and in failure; the instants at which they pass are
those from the start less the tolerance to the expiry and the tolerance, or there are none; and
they still pass, with the same result, under any larger tolerance. -/
theorem check_within_exact_window (p : Policy) (hskew : Fits p.skew) (payload : Members)
    (c : Claims) (hc : Claims.ofPayload payload = .ok c) :
    (∀ now, Fits now → p.check c now = p.checkExactly c now)
    ∧ ((∃ subject expiresAt, p.Admits c subject expiresAt ∧ ∀ now, Fits now → ∀ r,
          (p.check c now = .ok r ↔ r = (subject, expiresAt)
            ∧ (∀ notBefore, c.notBefore = some notBefore → notBefore - p.skew ≤ now)
            ∧ now ≤ expiresAt + p.skew))
        ∨ (¬ ∃ subject expiresAt, p.Admits c subject expiresAt)
            ∧ ∀ now, Fits now → ∀ r, p.check c now ≠ .ok r)
    ∧ ∀ wider, Fits wider → p.skew ≤ wider → ∀ now, Fits now → ∀ r, p.check c now = .ok r →
        check ⟨p.issuer, p.audience, wider⟩ c now = .ok r := by
  have hof : c.Of payload := Claims.ofPayload_eq_ok_iff.mp hc
  have hexact : ∀ now, Fits now → p.check c now = p.checkExactly c now :=
    fun now hnow => check_eq_checkExactly hof hskew hnow
  refine ⟨hexact, ?_, ?_⟩
  · by_cases h : ∃ subject expiresAt, p.Admits c subject expiresAt
    · obtain ⟨subject, expiresAt, hadmits⟩ := h
      refine .inl ⟨subject, expiresAt, hadmits, fun now hnow r => ?_⟩
      rw [hexact now hnow]
      exact hadmits.checkExactly_eq_ok_iff
    · refine .inr ⟨h, fun now hnow r hr => h ?_⟩
      rw [hexact now hnow] at hr
      obtain ⟨he, hk, _⟩ := checkExactly_eq_ok_iff.mp hr
      exact ⟨r.1, r.2, he, hk⟩
  · intro wider hwider hle now hnow r hr
    rw [hexact now hnow] at hr
    rw [check_eq_checkExactly hof hwider hnow]
    exact checkExactly_widen hle hr

/-- claims that start and end at the last instant of all -/
def atLastInstant : Claims :=
  ⟨some "u", some Seconds.maximum, none, some Seconds.maximum, none, none,
    [("exp", .int Seconds.maximum), ("nbf", .int Seconds.maximum), ("sub", .str "u")]⟩

theorem check_at_last_instant :
    Fits (-1) ∧ Claims.ofPayload atLastInstant.all = .ok atLastInstant
    ∧ Seconds.sub Seconds.maximum (-1) ≠ Seconds.maximum - (-1)
    ∧ check ⟨none, none, -1⟩ atLastInstant Seconds.maximum
        = .error (.expired Seconds.maximum Seconds.maximum (-1))
    ∧ checkExactly ⟨none, none, -1⟩ atLastInstant Seconds.maximum
        = .error (.expired Seconds.maximum Seconds.maximum (-1)) := by
  have hread : Claims.ofPayload atLastInstant.all = .ok atLastInstant := by rfl
  have hexact := (check_within_exact_window ⟨none, none, -1⟩ (by decide) atLastInstant.all
    atLastInstant hread).1 Seconds.maximum (by decide)
  have hfault : checkExactly ⟨none, none, -1⟩ atLastInstant Seconds.maximum
      = .error (.expired Seconds.maximum Seconds.maximum (-1)) := by rfl
  exact ⟨by decide, hread, by decide, hexact.trans hfault, hfault⟩

end Policy

end TokenGate
