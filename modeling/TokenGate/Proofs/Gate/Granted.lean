import TokenGate.Proofs.Claims.Roles
import TokenGate.Proofs.Gate.Soundness

/-!
# The roles of an accepted token

* `Gate.Claimed`     a token names a role;
* `Gate.Granted`     the realm, where it is asked, grants a role to the subject of an outcome;
* `Gate.Resolved`    the roles of an outcome are those that are claimed or granted, and none of
                     them is empty;
* `resolved_of_accepted`   so they are for every token that is accepted;
* `roles_resolved`   roles are sets of names: neither the way in which they are written nor their
                     order nor their number makes a difference.
-/

namespace TokenGate.Gate

open Text (words_eq_iff)

variable {s : Settings} {hasRealm : Bool} {verifier : Option Verifier} {g : Gate}
  {realm realm' : Realm} {raw raw' : String} {now now' : Int}

def Claimed (g : Gate) (raw role : String) : Prop :=
  g.roleClaim.enabled = true ∧ ∃ token, Token.decode raw = .ok token
    ∧ RoleClaim.Names role (Members.get? token.payload g.roleClaim.claim)

def Granted (g : Gate) (realm : Realm) (o : Outcome) (role : String) : Prop :=
  g.realmRequired = true ∧ ∃ subject record, o.subject = some subject
    ∧ realm subject = .ok record ∧ role ∈ record.roles

structure Resolved (g : Gate) (realm : Realm) (raw : String) (o : Outcome) : Prop where
  mem_iff : ∀ role, role ∈ o.roles ↔ g.Claimed raw role ∨ g.Granted realm o role ∧ role ≠ ""
  nonempty : "" ∉ o.roles
  claimed : ∀ role, g.Claimed raw role → role ∈ o.roles

theorem claimed_iff {token : Token} {c : Claims} (hd : Token.decode raw = .ok token)
    (hc : c.Of token.payload) (role : String) :
    g.Claimed raw role ↔ role ∈ g.roleClaim.read c := by
  have hget : c.get? g.roleClaim.claim = Members.get? token.payload g.roleClaim.claim := by
    rw [← hc.all]
    rfl
  rw [RoleClaim.mem_read_iff, hget]
  refine and_congr_right fun _ => ⟨fun hx => ?_, fun hn => ⟨token, hd, hn⟩⟩
  obtain ⟨t, ht, hn⟩ := hx
  rw [hd] at ht
  cases ht
  exact hn

theorem granted_iff {o : Outcome} {subject : String} (ho : o.subject = some subject)
    (role : String) : g.Granted realm o role ↔ g.realmRequired = true
      ∧ ∃ record, realm subject = .ok record ∧ role ∈ record.roles := by
  simp [Granted, ho]

theorem granted_of_record {o : Outcome} {subject : String} {record : SubjectRecord}
    (ho : o.subject = some subject) (hr : realm subject = .ok record) (role : String) :
    g.Granted realm o role ↔ g.realmRequired = true ∧ role ∈ record.roles := by
  simp [granted_iff ho, hr]

theorem resolved_of_accepted (hg : g.Sound) (h : (g.validate realm raw now).accepted = true) :
    g.Resolved realm raw (g.validate realm raw now) := by
  obtain ⟨token, c, subject, roles, expiresAt, hgr, hv⟩ := grounds_of_accepted hg h
  rw [hv]
  have hclaimed := claimed_iff (g := g) hgr.decoded hgr.claims
  have hmem : ∀ role, role ∈ roles ↔ g.Claimed raw role
      ∨ g.Granted realm (.accept subject roles expiresAt) role ∧ role ≠ "" := by
    intro role
    rw [hgr.confirmed.mem_iff, hclaimed, granted_iff rfl]
    refine or_congr_right ⟨fun hx => ?_, fun hx => ?_⟩
    · obtain ⟨hr, record, hrec, hm, hne⟩ := hx
      exact ⟨⟨hr, record, hrec, hm⟩, hne⟩
    · obtain ⟨⟨hr, record, hrec, hm⟩, hne⟩ := hx
      exact ⟨hr, record, hrec, hm, hne⟩
  refine ⟨hmem, fun he => ?_, fun role hr => (hmem role).mpr (.inl hr)⟩
  rcases (hmem "").mp he with hr | hr
  · exact RoleClaim.empty_not_mem_read ((hclaimed "").mp hr)
  · exact hr.2 rfl

/-- outcomes that rest on the same names have the same roles -/
theorem Resolved.roles_eq {o o' : Outcome} (h : g.Resolved realm raw o)
    (h' : g.Resolved realm' raw' o') (hc : ∀ role, g.Claimed raw role ↔ g.Claimed raw' role)
    (hr : ∀ role, g.Granted realm o role ↔ g.Granted realm' o' role) : o.roles = o'.roles := by
  refine Roles.ext fun role => ?_
  rw [h.mem_iff, h'.mem_iff, hc, hr]

theorem grant_eq_of_mem_iff {items items' : List Json} {granted granted' : List String}
    (hi : ∀ v, v ∈ items ↔ v ∈ items') (hg : ∀ role, role ∈ granted ↔ role ∈ granted') :
    (RoleClaim.ofValue (.arr items)).grant granted
      = (RoleClaim.ofValue (.arr items')).grant granted' := by
  refine Roles.ext fun role => ?_
  rw [Roles.mem_grant, Roles.mem_grant, RoleClaim.mem_ofValue_iff, RoleClaim.mem_ofValue_iff, hg]
  simp only [RoleClaim.Names, hi]

/-- an array names its texts and a text its stretches between commas and blanks, with the same
result for the same names; a realm adds what it grants to the names of a token that is accepted,
and whatever the order and the number, the same names lead to the same roles -/
theorem roles_resolved (h : build s hasRealm verifier = .ok g) :
    (∀ (r : RoleClaim) (c : Claims) (role : String),
        role ∈ r.read c ↔ r.enabled = true ∧ RoleClaim.Names role (c.get? r.claim))
      ∧ (∀ (r : RoleClaim) (c c' : Claims) (names : List String) (items : List Json)
          (text : String), (∀ name ∈ names, RoleClaim.IsName name) →
          RoleClaim.Lists items names → RoleClaim.Spells text names →
          c.get? r.claim = some (.arr items) → c'.get? r.claim = some (.str text) →
          r.read c = r.read c' ∧ (r.enabled = true → ∀ role, role ∈ r.read c ↔ role ∈ names))
      ∧ (∀ (own : Roles) (granted : List String) (role : String),
          role ∈ own.grant granted ↔ role ∈ own ∨ role ∈ granted ∧ role ≠ "")
      ∧ (∀ (items items' : List Json) (granted granted' : List String),
          (∀ v, v ∈ items ↔ v ∈ items') → (∀ role, role ∈ granted ↔ role ∈ granted') →
          (RoleClaim.ofValue (.arr items)).grant granted
            = (RoleClaim.ofValue (.arr items')).grant granted')
      ∧ ∀ (realm : Realm) (raw : String) (now : Int),
          (g.validate realm raw now).accepted = true →
          g.Resolved realm raw (g.validate realm raw now)
          ∧ ∀ (realm' : Realm) (raw' : String) (now' : Int),
            (g.validate realm' raw' now').accepted = true →
            (∀ role, g.Claimed raw role ↔ g.Claimed raw' role) →
            (∀ role, g.Granted realm (g.validate realm raw now) role
              ↔ g.Granted realm' (g.validate realm' raw' now') role) →
            (g.validate realm raw now).roles = (g.validate realm' raw' now').roles := by
  have hg := sound_of_build h
  refine ⟨fun _ _ _ => RoleClaim.mem_read_iff, ?_, fun _ _ _ => Roles.mem_grant,
    fun _ _ _ _ => grant_eq_of_mem_iff, fun realm raw now hacc => ?_⟩
  · intro r c c' names items text hn hi ht hc hc'
    refine ⟨RoleClaim.read_eq_of_spells hn hi ht hc hc', fun he role => ?_⟩
    rw [RoleClaim.mem_read_iff, hc, RoleClaim.names_of_lists hn hi]
    simp [he]
  · have hresolved := resolved_of_accepted hg hacc
    exact ⟨hresolved, fun realm' raw' now' hacc' =>
      hresolved.roles_eq (resolved_of_accepted hg hacc')⟩

/-- realms that grant `user1` the same roles, in another order and with repetitions -/
def orderedRealm : Realm := (Directory.empty.insert "user1" ["admin", "user"]).realm

def repeatedRealm : Realm := (Directory.empty.insert "user1" ["user", "admin", "user"]).realm

theorem mem_sampleRoles (role : String) : role ∈ (SubjectRecord.ofRoles ["admin", "user"]).roles
    ↔ role ∈ (SubjectRecord.ofRoles ["user", "admin", "user"]).roles := by
  simp only [SubjectRecord.ofRoles, List.mem_cons, List.not_mem_nil, or_false]
  tauto

theorem validate_orderedRealm : sample.validate orderedRealm sampleToken 0
    = .accept "user1" (.ofList ["admin", "user"]) 3600 := by
  rw [validate_sample]
  decide +kernel

theorem validate_repeatedRealm : sample.validate repeatedRealm sampleToken 0
    = .accept "user1" (.ofList ["user", "admin", "user"]) 3600 := by
  rw [validate_sample]
  decide +kernel

/-- claims with nothing but roles -/
def roleClaims (roles : Json) : Claims :=
  ⟨none, none, none, none, none, none, [("roles", roles)]⟩

def sampleNames : List String := ["admin", "user"]

/-- the names in another order, one of them twice, among values that name nothing -/
def listedNames : List Json := [.str "user", .str "", .int 1, .str "admin", .str "user"]

/-- the names between commas and blanks -/
def spelledNames : String := ", admin\tuser,"

theorem get?_roleClaims (roles : Json) :
    (roleClaims roles).get? sample.roleClaim.claim = some roles := rfl

theorem isName_sampleNames : ∀ name ∈ sampleNames, RoleClaim.IsName name := by
  have hall : (sampleNames.all fun name => !name.toList.isEmpty
      && name.toList.all fun c => !RoleClaim.isSeparator c) = true := by
    decide +kernel
  intro name hm
  have hname := List.all_eq_true.mp hall name hm
  simp only [Bool.and_eq_true, List.all_eq_true, Bool.not_eq_true', List.isEmpty_eq_false_iff]
    at hname
  exact ⟨hname.1, hname.2⟩

theorem lists_listedNames : RoleClaim.Lists listedNames sampleNames := by
  intro name hne
  simp only [listedNames, sampleNames, List.mem_cons, Json.str.injEq, reduceCtorEq,
    List.not_mem_nil, hne]
  tauto

theorem spells_spelledNames : RoleClaim.Spells spelledNames sampleNames :=
  words_eq_iff.mp (by decide +kernel)

/-- the names are read from the array and from the text alike, and the two realms lead to the same
roles -/
theorem roles_resolved_of_sample :
    build Settings.sample true none = .ok sample
      ∧ (∀ name ∈ sampleNames, RoleClaim.IsName name)
      ∧ RoleClaim.Lists listedNames sampleNames ∧ RoleClaim.Spells spelledNames sampleNames
      ∧ sample.roleClaim.read (roleClaims (.arr listedNames))
        = sample.roleClaim.read (roleClaims (.str spelledNames))
      ∧ (∀ role, role ∈ sample.roleClaim.read (roleClaims (.arr listedNames))
        ↔ role ∈ sampleNames)
      ∧ (sample.validate orderedRealm sampleToken 0).accepted = true
      ∧ (sample.validate repeatedRealm sampleToken 0).accepted = true
      ∧ "" ∉ (sample.validate orderedRealm sampleToken 0).roles
      ∧ (sample.validate orderedRealm sampleToken 0).roles
        = (sample.validate repeatedRealm sampleToken 0).roles := by
  have hacc : (sample.validate orderedRealm sampleToken 0).accepted = true := by
    rw [validate_orderedRealm]
    rfl
  have hacc' : (sample.validate repeatedRealm sampleToken 0).accepted = true := by
    rw [validate_repeatedRealm]
    rfl
  have hgranted : ∀ role,
      sample.Granted orderedRealm (sample.validate orderedRealm sampleToken 0) role
        ↔ sample.Granted repeatedRealm (sample.validate repeatedRealm sampleToken 0) role := by
    intro role
    have hr : orderedRealm "user1" = .ok (.ofRoles ["admin", "user"]) := rfl
    have hr' : repeatedRealm "user1" = .ok (.ofRoles ["user", "admin", "user"]) := rfl
    rw [validate_orderedRealm, validate_repeatedRealm, granted_of_record rfl hr,
      granted_of_record rfl hr', mem_sampleRoles]
  obtain ⟨_, hwritten, _, _, hvalid⟩ := roles_resolved build_sample
  obtain ⟨hread, hnamed⟩ := hwritten sample.roleClaim (roleClaims (.arr listedNames))
    (roleClaims (.str spelledNames)) sampleNames listedNames spelledNames isName_sampleNames
    lists_listedNames spells_spelledNames (get?_roleClaims _) (get?_roleClaims _)
  obtain ⟨hresolved, hsame⟩ := hvalid orderedRealm sampleToken 0 hacc
  exact ⟨build_sample, isName_sampleNames, lists_listedNames, spells_spelledNames, hread,
    hnamed rfl, hacc, hacc', hresolved.nonempty,
    hsame repeatedRealm sampleToken 0 hacc' (fun _ => Iff.rfl) hgranted⟩

end TokenGate.Gate
