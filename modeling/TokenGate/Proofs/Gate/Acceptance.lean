import TokenGate.Gate.Examine
import TokenGate.Proofs.Claims.Exact
import TokenGate.Proofs.Gate.Built

/-!
# What an acceptance rests on

* `Gate.judge`              the checks on a payload: its claims, their roles, the realm;
* `examine_eq`              an examination is decoding and verifying, and then `judge`;
* `Gate.Confirms`           the realm confirms a subject, which ends up with certain roles;
* `Gate.Grounds`            everything that is known of a token that was accepted;
* `validate_eq_accept_iff`  a token is accepted if and only if there are grounds for it;
* `validate_later`          a token that was accepted is accepted in the same way until it expires.
-/

namespace TokenGate

open Text
open Checks (bind_eq_ok_iff mapError_eq_ok_iff)

/-! ## results of traced steps -/

namespace Traced

variable {α β ε : Type}

theorem result_bind (t : Traced α) (next : α → Traced β) :
    (t >>= next).result = t.result >>= fun a => (next a).result := by
  show (t.andThen next).result = _
  unfold andThen
  cases t.result <;> rfl

theorem result_ofExcept (wrap : ε → Refusal) (x : Except ε α) :
    (ofExcept wrap x).result = x.mapError wrap := by
  cases x <;> rfl

theorem result_emit (signals : List Signal) : (emit signals).result = .ok () := rfl

theorem result_pure (a : α) : (pure a : Traced α).result = .ok a := rfl

end Traced

namespace Gate

open Traced (result_bind result_ofExcept result_emit result_pure)

variable {g : Gate} {realm : Realm} {raw : String} {now : Int}

/-! ## the two halves of an examination -/

def judge (g : Gate) (realm : Realm) (payload : Members) (now : Int) : Traced Outcome := do
  let claims ← .ofExcept .claims (Claims.ofPayload payload)
  let (subject, expiresAt) ← .ofExcept .policy (g.policy.check claims now)
  .emit ((g.roleClaim.events claims).map .logged)
  let roles ← g.confirm realm subject (g.roleClaim.read claims)
  return .accept subject roles expiresAt

theorem examine_eq (g : Gate) (realm : Realm) (raw : String) (now : Int) :
    g.examine realm raw now = g.authentic raw >>= fun token => g.judge realm token.payload now :=
  rfl

theorem authentic_eq_ok_iff {token : Token} :
    (g.authentic raw).result = .ok token ↔ Token.decode raw = .ok token
      ∧ g.verification.verify (bytes token.signingInput) token.signature token.algorithm
        = .ok () := by
  simp only [authentic, result_bind, result_ofExcept, result_emit, result_pure, bind_eq_ok_iff,
    mapError_eq_ok_iff]
  constructor
  · intro hx
    obtain ⟨t, ht, _, _, _, hv, h⟩ := hx
    cases h
    exact ⟨ht, hv⟩
  · intro hx
    obtain ⟨ht, hv⟩ := hx
    exact ⟨token, ht, (), trivial, (), hv, rfl⟩

/-- the subject may speak for itself where no realm is asked for, with its `own` roles; else the
realm knows it and grants further ones -/
def Confirms (g : Gate) (realm : Realm) (subject : String) (own roles : Roles) : Prop :=
  if g.realmRequired then
    ∃ record, realm subject = .ok record ∧ record.known = true ∧ roles = own.grant record.roles
  else roles = own

/-- the roles of a subject are its own ones and what a realm that is asked grants -/
theorem Confirms.mem_iff {subject : String} {own roles : Roles}
    (h : g.Confirms realm subject own roles) (role : String) :
    role ∈ roles ↔ role ∈ own ∨ (g.realmRequired = true
      ∧ ∃ record, realm subject = .ok record ∧ role ∈ record.roles ∧ role ≠ "") := by
  unfold Confirms at h
  by_cases hr : g.realmRequired = true
  · rw [if_pos hr] at h
    obtain ⟨record, hrec, _, rfl⟩ := h
    simp [Roles.mem_grant, hr, hrec]
  · rw [if_neg hr] at h
    simp [h, hr]

theorem confirm_eq_ok_iff (hg : g.Sound) {subject : String} {own roles : Roles} :
    (g.confirm realm subject own).result = .ok roles ↔ g.Confirms realm subject own roles := by
  unfold confirm Confirms
  by_cases hr : g.realmRequired = true
  · simp only [hr, hg.realm hr, ↓reduceIte, result_bind, result_ofExcept, result_emit,
      bind_eq_ok_iff, mapError_eq_ok_iff]
    constructor
    · intro hx
      obtain ⟨_, _, record, hrec, h⟩ := hx
      by_cases hk : record.known = true
      · rw [if_pos hk] at h
        cases h
        exact ⟨record, hrec, hk, rfl⟩
      · rw [if_neg hk] at h
        cases h
    · intro hx
      obtain ⟨record, hrec, hk, rfl⟩ := hx
      exact ⟨(), trivial, record, hrec, by rw [if_pos hk]; rfl⟩
  · rw [if_neg hr, if_neg hr]
    constructor
    · intro h
      cases h
      rfl
    · rintro rfl
      rfl

theorem judge_eq_ok_iff (hg : g.Sound) {payload : Members} {o : Outcome} :
    (g.judge realm payload now).result = .ok o ↔ ∃ c subject expiresAt roles,
      Claims.Of c payload ∧ g.policy.check c now = .ok (subject, expiresAt)
        ∧ g.Confirms realm subject (g.roleClaim.read c) roles
        ∧ o = .accept subject roles expiresAt := by
  simp only [judge, result_bind, result_ofExcept, result_emit, result_pure, bind_eq_ok_iff,
    mapError_eq_ok_iff, confirm_eq_ok_iff hg, Claims.ofPayload_eq_ok_iff]
  constructor
  · intro hx
    obtain ⟨c, hc, ⟨subject, expiresAt⟩, hp, _, _, roles, hr, h⟩ := hx
    cases h
    exact ⟨c, subject, expiresAt, roles, hc, hp, hr, rfl⟩
  · intro hx
    obtain ⟨c, subject, expiresAt, roles, hc, hp, hr, rfl⟩ := hx
    exact ⟨c, hc, (subject, expiresAt), hp, (), trivial, roles, hr, rfl⟩

/-! ## acceptance -/

/-- why a token is accepted at an instant, in favour of a subject with certain roles -/
structure Grounds (g : Gate) (realm : Realm) (raw : String) (now : Int) (token : Token)
    (c : Claims) (subject : String) (roles : Roles) (expiresAt : Int) : Prop where
  decoded : Token.decode raw = .ok token
  verified :
    g.verification.verify (bytes token.signingInput) token.signature token.algorithm = .ok ()
  claims : c.Of token.payload
  policy : g.policy.check c now = .ok (subject, expiresAt)
  confirmed : g.Confirms realm subject (g.roleClaim.read c) roles

theorem examine_eq_ok_iff (hg : g.Sound) {o : Outcome} :
    (g.examine realm raw now).result = .ok o ↔ ∃ token c subject roles expiresAt,
      g.Grounds realm raw now token c subject roles expiresAt
        ∧ o = .accept subject roles expiresAt := by
  simp only [examine_eq, result_bind, bind_eq_ok_iff, authentic_eq_ok_iff, judge_eq_ok_iff hg]
  constructor
  · intro hx
    obtain ⟨token, ⟨hd, hv⟩, c, subject, expiresAt, roles, hc, hp, hr, ho⟩ := hx
    exact ⟨token, c, subject, roles, expiresAt, ⟨hd, hv, hc, hp, hr⟩, ho⟩
  · intro hx
    obtain ⟨token, c, subject, roles, expiresAt, ⟨hd, hv, hc, hp, hr⟩, ho⟩ := hx
    exact ⟨token, ⟨hd, hv⟩, c, subject, expiresAt, roles, hc, hp, hr, ho⟩

theorem validate_of_ok {o : Outcome} (h : (g.examine realm raw now).result = .ok o) :
    g.validate realm raw now = o := by
  unfold validate Traced.outcome
  rw [h]

theorem validate_of_error {r : Refusal} (h : (g.examine realm raw now).result = .error r) :
    g.validate realm raw now = .reject r.kind := by
  unfold validate Traced.outcome
  rw [h]

theorem validate_eq_accept_iff (hg : g.Sound) {subject : String} {roles : Roles}
    {expiresAt : Int} :
    g.validate realm raw now = .accept subject roles expiresAt ↔
      ∃ token c, g.Grounds realm raw now token c subject roles expiresAt := by
  constructor
  · intro h
    cases hx : (g.examine realm raw now).result with
    | error r =>
      rw [validate_of_error hx] at h
      cases h
    | ok o =>
      rw [validate_of_ok hx] at h
      obtain ⟨token, c, s, rs, e, hgr, ho⟩ := (examine_eq_ok_iff hg).mp hx
      rw [h] at ho
      cases ho
      exact ⟨token, c, hgr⟩
  · intro hx
    obtain ⟨token, c, hgr⟩ := hx
    exact validate_of_ok ((examine_eq_ok_iff hg).mpr
      ⟨token, c, subject, roles, expiresAt, hgr, rfl⟩)

/-- an outcome that is accepted names a subject and an expiry -/
theorem grounds_of_accepted (hg : g.Sound) (h : (g.validate realm raw now).accepted = true) :
    ∃ token c subject roles expiresAt, g.Grounds realm raw now token c subject roles expiresAt
      ∧ g.validate realm raw now = .accept subject roles expiresAt := by
  cases hx : (g.examine realm raw now).result with
  | error r =>
    rw [validate_of_error hx] at h
    cases h
  | ok o =>
    obtain ⟨token, c, subject, roles, expiresAt, hgr, rfl⟩ := (examine_eq_ok_iff hg).mp hx
    exact ⟨token, c, subject, roles, expiresAt, hgr, validate_of_ok hx⟩

/-! ## later instants -/

theorem Grounds.later (hg : g.Sound) {token : Token} {c : Claims} {subject : String}
    {roles : Roles} {expiresAt later : Int}
    (h : g.Grounds realm raw now token c subject roles expiresAt) (hnow : now ≤ later)
    (hlater : later ≤ expiresAt) : g.Grounds realm raw later token c subject roles expiresAt :=
  { h with policy := Policy.check_later h.claims hg.skew_nonneg h.policy hnow hlater }

theorem validate_later (hg : g.Sound) {expiresAt later : Int}
    (h : (g.validate realm raw now).accepted = true)
    (he : (g.validate realm raw now).expiresAt = some expiresAt) (hnow : now ≤ later)
    (hlater : later ≤ expiresAt) :
    g.validate realm raw later = g.validate realm raw now := by
  obtain ⟨token, c, subject, roles, e, hgr, hv⟩ := grounds_of_accepted hg h
  rw [hv] at he
  cases he
  rw [hv]
  exact (validate_eq_accept_iff hg).mpr ⟨token, c, hgr.later hg hnow hlater⟩

end Gate

end TokenGate
