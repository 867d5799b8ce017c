import TokenGate.Proofs.Gate.Built
import TokenGate.Proofs.Settings.Values
import TokenGate.Proofs.Text.Cuts

/-!
# Settings are what variables give

* `Settings.Loaded`      each setting is what its variable is given as, or its default;
* `Settings.Step`        the steps of loading, in their order, with what each asks of variables and
                         what it reports;
* `Settings.FirstFailing`   the first of the steps that fails;
* `Settings.Decides`     a result is the fault of that step, if there is one;
* `decides_ofVariables`  the settings of variables are decided by the steps;
* `Settings.written`     settings as variables;
* `ofVariables_written`  settings that are written to variables are loaded from them again;
* `loading_exact`        which variables give settings, which ones, and what is wrong with the others.
-/

namespace TokenGate.Settings

open Checks (bind_eq_ok_iff)
open Text

variable {env : Environment} {s : Settings}

/-! ## what is loaded -/

/-- each setting is what its variable is given as, or its default -/
structure Loaded (env : Environment) (s : Settings) : Prop where
  secretKey : s.secretKey = env.value? .secretKey
  publicKey : s.publicKey = env.value? .publicKey
  publicKeyAlgorithm : Given env .publicKeyAlgorithm "RSA" Eq s.publicKeyAlgorithm
  issuer : s.issuer = env.value? .issuer
  audience : s.audience = env.value? .audience
  skew : Given env .skew 60 IsSigned s.skew
  memoSize : Given env .memoSize 1000 IsUnsigned s.memoSize
  ttlCap : Given env .ttlCap none IsCap s.ttlCap
  rolesClaim : Given env .rolesClaim "roles" Eq s.rolesClaim
  realmRequired : Given env .realmRequired true Switches s.realmRequired
  tokenRoles : Given env .tokenRoles true Switches s.tokenRoles
  realmName : Given env .realmName "bearer" Eq s.realmName

theorem loaded_gathered {skew : Int} {memoSize : Nat} {ttlCap : Option Int}
    {realmRequired tokenRoles : Bool} (hskew : Given env .skew 60 IsSigned skew)
    (hsize : Given env .memoSize 1000 IsUnsigned memoSize)
    (hcap : Given env .ttlCap none IsCap ttlCap)
    (hrealm : Given env .realmRequired true Switches realmRequired)
    (hroles : Given env .tokenRoles true Switches tokenRoles) :
    Loaded env (gathered env skew memoSize ttlCap realmRequired tokenRoles) where
  secretKey := rfl
  publicKey := rfl
  publicKeyAlgorithm := given_eq_iff.mpr rfl
  issuer := rfl
  audience := rfl
  skew := hskew
  memoSize := hsize
  ttlCap := hcap
  rolesClaim := given_eq_iff.mpr rfl
  realmRequired := hrealm
  tokenRoles := hroles
  realmName := given_eq_iff.mpr rfl

theorem Loaded.eq_gathered (h : Loaded env s) :
    s = gathered env s.skew s.memoSize s.ttlCap s.realmRequired s.tokenRoles := by
  have halgorithm : s.publicKeyAlgorithm =
      (env.value? .publicKeyAlgorithm).getD standard.publicKeyAlgorithm :=
    given_eq_iff.mp h.publicKeyAlgorithm
  have hclaim : s.rolesClaim = (env.value? .rolesClaim).getD standard.rolesClaim :=
    given_eq_iff.mp h.rolesClaim
  have hrealm : s.realmName = (env.value? .realmName).getD standard.realmName :=
    given_eq_iff.mp h.realmName
  unfold gathered
  rw [← h.secretKey, ← h.publicKey, ← h.issuer, ← h.audience, ← halgorithm, ← hclaim, ← hrealm]

theorem ofVariables_eq_ok_iff :
    ofVariables env = .ok s ↔ Loaded env s ∧ s.validate = .ok () := by
  simp only [ofVariables, bind_eq_ok_iff, reading_eq_ok_iff (fun _ _ => readSkew_eq_ok_iff),
    reading_eq_ok_iff (fun _ _ => readMemoSize_eq_ok_iff),
    reading_eq_ok_iff (fun _ _ => readTtlCap_eq_ok_iff),
    reading_eq_ok_iff (fun _ _ => readSwitch_eq_ok_iff)]
  constructor
  · intro hx
    obtain ⟨skew, hskew, memoSize, hsize, cap, hcap, realm, hrealm, roles, hroles, _, hvalid, h⟩ := hx
    cases h
    exact ⟨loaded_gathered hskew hsize hcap hrealm hroles, hvalid⟩
  · intro hx
    obtain ⟨h, hvalid⟩ := hx
    refine ⟨s.skew, h.skew, s.memoSize, h.memoSize, s.ttlCap, h.ttlCap, s.realmRequired,
      h.realmRequired, s.tokenRoles, h.tokenRoles, (), ?_, ?_⟩
    · show (gathered env _ _ _ _ _).validate = _
      rw [← h.eq_gathered]
      exact hvalid
    · exact congrArg Except.ok h.eq_gathered.symm

/-! ## steps -/

/-- the steps of loading -/
inductive Step where
  | skewSyntax
  | memoSizeSyntax
  | ttlCapSyntax
  | realmSwitch
  | rolesSwitch
  | skewRange
  | ttlCapRange
  | keyAlgorithm
  deriving DecidableEq, Repr

namespace Step

/-- the steps that look at one variable each -/
def syntaxes : List Step := [.skewSyntax, .memoSizeSyntax, .ttlCapSyntax, .realmSwitch, .rolesSwitch]

/-- the steps that look at the bounds -/
def ranges : List Step := [.skewRange, .ttlCapRange, .keyAlgorithm]

def all : List Step := syntaxes ++ ranges

/-- what a step asks of the variables -/
def Passes (env : Environment) : Step → Prop
  | .skewSyntax => Readable env .skew IsSigned
  | .memoSizeSyntax => Readable env .memoSize IsUnsigned
  | .ttlCapSyntax => Readable env .ttlCap IsSigned
  | .realmSwitch => Readable env .realmRequired Switches
  | .rolesSwitch => Readable env .tokenRoles Switches
  | .skewRange => ∀ text n, env.value? .skew = some text → IsSigned text n → 0 ≤ n ∧ n ≤ 600
  | .ttlCapRange => ∀ text n, env.value? .ttlCap = some text → IsSigned text n → 0 < n
  | .keyAlgorithm => ∀ text, env.value? .publicKeyAlgorithm = some text → InAnyCase text "rsa"

/-- the fault of a step that fails: it has the value that is at fault -/
def Reports (env : Environment) (f : Fault) : Step → Prop
  | .skewSyntax => ∃ text cause, env.value? .skew = some text ∧ f = .skewUnreadable text cause
  | .memoSizeSyntax => ∃ text cause, env.value? .memoSize = some text
    ∧ f = .memoSizeUnreadable text cause
  | .ttlCapSyntax => ∃ text cause, env.value? .ttlCap = some text ∧ f = .ttlCapUnreadable text cause
  | .realmSwitch => ∃ text, env.value? .realmRequired = some text ∧ f = .switch .realmRequired text
  | .rolesSwitch => ∃ text, env.value? .tokenRoles = some text ∧ f = .switch .tokenRoles text
  | .skewRange => ∃ text n, env.value? .skew = some text ∧ IsSigned text n ∧ f = .skewOutOfBounds n
  | .ttlCapRange => ∃ text n, env.value? .ttlCap = some text ∧ IsSigned text n
    ∧ f = .ttlCapNotPositive n
  | .keyAlgorithm => ∃ text, env.value? .publicKeyAlgorithm = some text
    ∧ f = .publicKeyAlgorithm text

end Step

/-- the first of the steps that fails -/
def FirstFailing (env : Environment) (steps : List Step) (step : Step) : Prop :=
  ∃ before after, steps = before ++ step :: after ∧ (∀ t ∈ before, t.Passes env)
    ∧ ¬ step.Passes env

/-- a result is the fault of the first step that fails, if one does -/
def Decides {α : Type} (env : Environment) (steps : List Step) : Except Fault α → Prop
  | .ok _ => ∀ step ∈ steps, step.Passes env
  | .error f => ∃ step, FirstFailing env steps step ∧ step.Reports env f

section Decides

variable {α β : Type} {steps : List Step} {step : Step}

theorem firstFailing_head (h : ¬ step.Passes env) : FirstFailing env (step :: steps) step :=
  ⟨[], steps, rfl, nofun, h⟩

theorem FirstFailing.cons {first : Step} (hfirst : first.Passes env)
    (h : FirstFailing env steps step) : FirstFailing env (first :: steps) step := by
  obtain ⟨before, after, rfl, hbefore, hfails⟩ := h
  exact ⟨first :: before, after, rfl, List.forall_mem_cons.mpr ⟨hfirst, hbefore⟩, hfails⟩

theorem FirstFailing.not_all (h : FirstFailing env steps step) :
    ¬ ∀ t ∈ steps, t.Passes env := by
  obtain ⟨before, after, rfl, _, hfails⟩ := h
  intro hall
  apply hfails
  apply hall
  exact List.mem_append_right before (List.mem_cons_self ..)

theorem FirstFailing.unique {step' : Step} (h : FirstFailing env steps step)
    (h' : FirstFailing env steps step') : step = step' := by
  obtain ⟨before, after, rfl, hbefore, hfails⟩ := h
  obtain ⟨before', after', heq, hbefore', hfails'⟩ := h'
  rcases List.append_eq_append_iff.mp heq with ⟨mid, hmid, hrest⟩ | ⟨mid, hmid, hrest⟩
  · cases mid with
    | nil => exact (List.cons.inj hrest).1
    | cons t mid =>
      rw [List.cons_append] at hrest
      obtain ⟨rfl, _⟩ := List.cons.inj hrest
      refine absurd (hbefore' _ ?_) hfails
      simp [hmid]
  · cases mid with
    | nil => exact (List.cons.inj hrest).1.symm
    | cons t mid =>
      rw [List.cons_append] at hrest
      obtain ⟨rfl, _⟩ := List.cons.inj hrest
      refine absurd (hbefore _ ?_) hfails'
      simp [hmid]

/-- a step that passes, in front of others -/
theorem Decides.cons {x : Except Fault α} (hpasses : step.Passes env) (h : Decides env steps x) :
    Decides env (step :: steps) x := by
  cases x with
  | ok a => exact List.forall_mem_cons.mpr ⟨hpasses, h⟩
  | error f =>
    obtain ⟨later, hfirst, hreports⟩ := h
    exact ⟨later, hfirst.cons hpasses, hreports⟩

/-- a step that fails -/
theorem decides_error {f : Fault} (hfails : ¬ step.Passes env) (hreports : step.Reports env f) :
    Decides (α := α) env (step :: steps) (.error f) :=
  ⟨step, firstFailing_head hfails, hreports⟩

theorem Decides.ok_of_all {x : Except Fault α} (h : Decides env steps x)
    (hall : ∀ t ∈ steps, t.Passes env) : ∃ a, x = .ok a := by
  cases x with
  | ok a => exact ⟨a, rfl⟩
  | error f =>
    obtain ⟨step, hfirst, _⟩ := h
    exact absurd hall hfirst.not_all

theorem Decides.error_of_first {x : Except Fault α} (h : Decides env steps x)
    (hfirst : FirstFailing env steps step) : ∃ f, x = .error f ∧ step.Reports env f := by
  cases x with
  | ok a => exact absurd h hfirst.not_all
  | error f =>
    obtain ⟨step', hfirst', hreports⟩ := h
    rw [hfirst.unique hfirst']
    exact ⟨f, rfl, hreports⟩

theorem Decides.bind_ok {x : Except Fault α} (h : Decides env steps x) (b : α → β) :
    Decides env steps (x >>= fun a => .ok (b a)) := by
  cases x with
  | ok a => exact h
  | error f => exact h

/-- the step of a variable, in front of others -/
theorem decides_reading {v : Variable} {default : α} {Reads : String → α → Prop}
    {read : String → Except Fault α} {next : α → Except Fault β}
    (hread : ∀ text a, read text = .ok a ↔ Reads text a)
    (hpasses : step.Passes env ↔ Readable env v Reads)
    (hreports : ∀ text f, env.value? v = some text → read text = .error f → step.Reports env f)
    (hnext : ∀ a, Given env v default Reads a → Decides env steps (next a)) :
    Decides env (step :: steps) (reading env v default read >>= next) := by
  cases hr : reading env v default read with
  | error f =>
    obtain ⟨text, ht, herror⟩ := reading_eq_error_iff.mp hr
    apply decides_error
    · exact mt hpasses.mp (not_readable_of_error hread hr)
    · exact hreports text f ht herror
  | ok a =>
    have hgiven := (reading_eq_ok_iff hread).mp hr
    apply Decides.cons
    · exact hpasses.mpr hgiven.readable
    · exact hnext a hgiven

end Decides

/-! ## the steps decide -/

theorem skewRange_iff (h : Loaded env s) :
    Step.skewRange.Passes env ↔ 0 ≤ s.skew ∧ s.skew ≤ 600 := by
  apply h.skew.bound_iff (fun _ _ _ => IsSigned.unique) (P := fun n => 0 ≤ n ∧ n ≤ 600)
  omega

theorem ttlCapRange_iff (h : Loaded env s) :
    Step.ttlCapRange.Passes env ↔ ∀ cap, s.ttlCap = some cap → 0 < cap := by
  have hunique : ∀ text cap cap', IsCap text cap → IsCap text cap' → cap = cap' := by
    intro text cap cap' hcap hcap'
    obtain ⟨n, rfl, hn⟩ := hcap
    obtain ⟨n', rfl, hn'⟩ := hcap'
    rw [hn.unique hn']
  rw [← h.ttlCap.bound_iff hunique (P := fun cap => ∀ n, cap = some n → 0 < n) nofun]
  constructor
  · intro hall text cap ht hcap n hn
    obtain ⟨m, rfl, hm⟩ := hcap
    exact Option.some.inj hn ▸ hall text m ht hm
  · intro hall text n ht hn
    exact hall text (some n) ht ⟨n, rfl, hn⟩ n rfl

theorem keyAlgorithm_iff (h : Loaded env s) :
    Step.keyAlgorithm.Passes env ↔ isRsa s.publicKeyAlgorithm = true := by
  rw [isRsa_iff]
  have hunique : ∀ text a b : String, text = a → text = b → a = b := by
    rintro text a b rfl rfl
    rfl
  rw [← h.publicKeyAlgorithm.bound_iff hunique (P := fun name => InAnyCase name "rsa")
    (isRsa_iff.mp rfl)]
  constructor
  · rintro hall text _ ht rfl
    exact hall text ht
  · intro hall text ht
    exact hall text text ht rfl

theorem decides_validate (h : Loaded env s) : Decides env Step.ranges s.validate := by
  have hmax : Policy.maxSkew = 600 := rfl
  unfold validate
  by_cases hskew : s.skew < 0 ∨ Policy.maxSkew < s.skew
  · have hne : s.skew ≠ 60 := by omega
    obtain ⟨text, ht, hn⟩ := h.skew.given hne
    rw [if_pos hskew]
    apply decides_error
    · rw [skewRange_iff h]
      omega
    · exact ⟨text, s.skew, ht, hn, rfl⟩
  rw [if_neg hskew]
  apply Decides.cons
  · rw [skewRange_iff h]
    omega
  cases hcap : s.ttlCap.filter fun cap => decide (cap ≤ 0) with
  | some cap =>
    rw [Option.filter_eq_some_iff, decide_eq_true_eq] at hcap
    obtain ⟨hsome, hle⟩ := hcap
    obtain ⟨text, ht, n, heq, hn⟩ := h.ttlCap.given (by simp [hsome])
    rw [hsome, Option.some.injEq] at heq
    subst heq
    apply decides_error
    · rw [ttlCapRange_iff h]
      exact fun hall => absurd (hall cap hsome) (Int.not_lt.mpr hle)
    · exact ⟨text, cap, ht, hn, rfl⟩
  | none =>
    rw [Option.filter_eq_none_iff] at hcap
    apply Decides.cons
    · rw [ttlCapRange_iff h]
      intro cap hsome
      simpa using hcap cap hsome
    by_cases hrsa : isRsa s.publicKeyAlgorithm = true
    · simp only [hrsa, ↓reduceIte]
      exact List.forall_mem_singleton.mpr ((keyAlgorithm_iff h).mpr hrsa)
    · simp only [hrsa, Bool.false_eq_true, ↓reduceIte]
      have hne : s.publicKeyAlgorithm ≠ "RSA" := fun heq => hrsa (heq ▸ rfl)
      obtain ⟨text, ht, rfl⟩ := h.publicKeyAlgorithm.given hne
      apply decides_error
      · exact mt (keyAlgorithm_iff h).mp hrsa
      · exact ⟨_, ht, rfl⟩

theorem decides_ofVariables (env : Environment) : Decides env Step.all (ofVariables env) := by
  have hcap : Step.ttlCapSyntax.Passes env ↔ Readable env .ttlCap IsCap := by
    simp [Step.Passes, Readable, IsCap]
  have hread : ∀ text cap, readTtlCap text = .ok cap ↔ IsCap text cap :=
    fun _ _ => readTtlCap_eq_ok_iff
  apply decides_reading (fun _ _ => readSkew_eq_ok_iff) Iff.rfl
  · intro text f ht hf
    obtain ⟨cause, rfl⟩ := readSkew_error hf
    exact ⟨text, cause, ht, rfl⟩
  intro skew hskew
  apply decides_reading (fun _ _ => readMemoSize_eq_ok_iff) Iff.rfl
  · intro text f ht hf
    obtain ⟨cause, rfl⟩ := readMemoSize_error hf
    exact ⟨text, cause, ht, rfl⟩
  intro memoSize hsize
  apply decides_reading hread hcap
  · intro text f ht hf
    obtain ⟨cause, rfl⟩ := readTtlCap_error hf
    exact ⟨text, cause, ht, rfl⟩
  intro cap hcap
  apply decides_reading (fun _ _ => readSwitch_eq_ok_iff) Iff.rfl
  · intro text f ht hf
    exact ⟨text, ht, readSwitch_error hf⟩
  intro realmRequired hrealm
  apply decides_reading (fun _ _ => readSwitch_eq_ok_iff) Iff.rfl
  · intro text f ht hf
    exact ⟨text, ht, readSwitch_error hf⟩
  intro tokenRoles hroles
  apply Decides.bind_ok
  apply decides_validate
  exact loaded_gathered hskew hsize hcap hrealm hroles

/-! ## settings as variables -/

/-- the text of a setting -/
def text? (s : Settings) : Variable → Option String
  | .secretKey => s.secretKey
  | .publicKey => s.publicKey
  | .publicKeyAlgorithm => some s.publicKeyAlgorithm
  | .issuer => s.issuer
  | .audience => s.audience
  | .skew => some (Shown.integer s.skew)
  | .memoSize => some (Shown.integer s.memoSize)
  | .ttlCap => s.ttlCap.map Shown.integer
  | .rolesClaim => some s.rolesClaim
  | .realmRequired => some (Shown.boolean s.realmRequired)
  | .tokenRoles => some (Shown.boolean s.tokenRoles)
  | .realmName => some s.realmName

/-- settings as variables: integers in decimals, switches as `true` and `false`, texts as they are -/
def written (s : Settings) : Environment := fun name =>
  (Variable.all.find? fun v => v.name == name).bind s.text?

/-- a text that is not empty and has no blanks around it -/
def IsTrim (text : String) : Prop := trimmed text = text ∧ text ≠ ""

/-- settings that variables can hold -/
structure Writable (s : Settings) : Prop where
  valid : s.validate = .ok ()
  options : ∀ o ∈ [s.secretKey, s.publicKey, s.issuer, s.audience], ∀ text, o = some text →
    IsTrim text
  names : ∀ text ∈ [s.publicKeyAlgorithm, s.rolesClaim, s.realmName], IsTrim text
  memoSize : s.memoSize < 2 ^ 64
  ttlCap : ∀ cap, s.ttlCap = some cap → cap < 2 ^ 63

theorem written_name (s : Settings) (v : Variable) : s.written v.name = s.text? v := by
  have hfind : Variable.all.find? (fun w => w.name == v.name) = some v := by
    cases v <;> decide +kernel
  unfold written
  rw [hfind]
  rfl

theorem isTrim_of_solid {text : String} (hne : text ≠ "")
    (h : ∀ c ∈ text.toList, isBlank c = false) : IsTrim text := by
  refine ⟨?_, hne⟩
  rw [trimmed, trim_tight (tight_of_all h), String.ofList_toList]

theorem isTrim_integer {n : Int} (hn : 0 ≤ n) : IsTrim (Shown.integer n) := by
  obtain ⟨m, rfl⟩ := Int.eq_ofNat_of_zero_le hn
  have hlist := Integer.toList_integer m
  apply isTrim_of_solid
  · intro hempty
    rw [hempty] at hlist
    exact Nat.toDigits_ne_nil hlist.symm
  · intro c hc
    rw [hlist] at hc
    obtain ⟨ds, _, hlt, hds, _⟩ := Integer.numeral_toDigits m
    rw [hds] at hc
    obtain ⟨d, hd, rfl⟩ := List.mem_map.mp hc
    have hsolid : ∀ d < 10, isBlank (Nat.digitChar d) = false := by decide
    exact hsolid d (hlt d hd)

theorem isTrim_boolean (b : Bool) : IsTrim (Shown.boolean b) := by
  unfold IsTrim
  cases b <;> decide +kernel

theorem switches_boolean (b : Bool) : Switches (Shown.boolean b) b := by
  rw [← switch?_eq_some_iff]
  cases b <;> rfl

theorem isSigned_integer {n : Int} (hn : 0 ≤ n) (hlt : n < 2 ^ 63) :
    IsSigned (Shown.integer n) n := by
  obtain ⟨m, rfl⟩ := Int.eq_ofNat_of_zero_le hn
  exact ⟨Integer.spellsInt_integer m, by omega, hlt⟩

/-- every text that is written is read as it stands -/
theorem Writable.isTrim (h : Writable s) {v : Variable} {text : String}
    (ht : s.text? v = some text) : IsTrim text := by
  obtain ⟨⟨hskew, _⟩, hpositive, _⟩ := validate_eq_ok_iff.mp h.valid
  have hoption := h.options
  have hname := h.names
  simp only [List.mem_cons, List.not_mem_nil, or_false, forall_eq_or_imp, forall_eq] at hoption hname
  obtain ⟨hsecret, hpublic, hissuer, haudience⟩ := hoption
  obtain ⟨halgorithm, hclaim, hrealm⟩ := hname
  cases v
  case secretKey => exact hsecret text ht
  case publicKey => exact hpublic text ht
  case issuer => exact hissuer text ht
  case audience => exact haudience text ht
  case publicKeyAlgorithm => exact Option.some.inj ht ▸ halgorithm
  case rolesClaim => exact Option.some.inj ht ▸ hclaim
  case realmName => exact Option.some.inj ht ▸ hrealm
  case realmRequired => exact Option.some.inj ht ▸ isTrim_boolean s.realmRequired
  case tokenRoles => exact Option.some.inj ht ▸ isTrim_boolean s.tokenRoles
  case skew => exact Option.some.inj ht ▸ isTrim_integer hskew
  case memoSize => exact Option.some.inj ht ▸ isTrim_integer (Int.natCast_nonneg s.memoSize)
  case ttlCap =>
    obtain ⟨cap, hcap, rfl⟩ := Option.map_eq_some_iff.mp ht
    exact isTrim_integer (Int.le_of_lt (hpositive cap hcap))

theorem Writable.value?_eq (h : Writable s) (v : Variable) : s.written.value? v = s.text? v := by
  have hname := s.written_name v
  cases ht : s.text? v with
  | none => exact Environment.value?_of_absent (hname.trans ht)
  | some text =>
    obtain ⟨htrimmed, hne⟩ := h.isTrim ht
    exact Environment.value?_of_trimmed (hname.trans ht) htrimmed hne

/-- every setting is given by the variable that it is written to -/
theorem Writable.loaded (h : Writable s) : Loaded s.written s := by
  obtain ⟨⟨hlow, hhigh⟩, hpositive, _⟩ := validate_eq_ok_iff.mp h.valid
  have hvalue := h.value?_eq
  constructor
  case secretKey => exact (hvalue .secretKey).symm
  case publicKey => exact (hvalue .publicKey).symm
  case issuer => exact (hvalue .issuer).symm
  case audience => exact (hvalue .audience).symm
  case publicKeyAlgorithm => exact .inl ⟨_, hvalue .publicKeyAlgorithm, rfl⟩
  case rolesClaim => exact .inl ⟨_, hvalue .rolesClaim, rfl⟩
  case realmName => exact .inl ⟨_, hvalue .realmName, rfl⟩
  case realmRequired => exact .inl ⟨_, hvalue .realmRequired, switches_boolean s.realmRequired⟩
  case tokenRoles => exact .inl ⟨_, hvalue .tokenRoles, switches_boolean s.tokenRoles⟩
  case memoSize =>
    exact .inl ⟨_, hvalue .memoSize, Integer.spellsNat_integer s.memoSize, h.memoSize⟩
  case skew =>
    have hmax : Policy.maxSkew = 600 := rfl
    exact .inl ⟨_, hvalue .skew, isSigned_integer hlow (by omega)⟩
  case ttlCap =>
    have htext := hvalue .ttlCap
    cases hcap : s.ttlCap with
    | none =>
      rw [text?, hcap] at htext
      exact .inr ⟨htext, rfl⟩
    | some cap =>
      rw [text?, hcap] at htext
      exact .inl ⟨_, htext, cap, rfl,
        isSigned_integer (Int.le_of_lt (hpositive cap hcap)) (h.ttlCap cap hcap)⟩

theorem ofVariables_written (h : Writable s) : ofVariables s.written = .ok s :=
  ofVariables_eq_ok_iff.mpr ⟨h.loaded, h.valid⟩

/-! ## loading is exact -/

theorem ofVariables_congr {env' : Environment}
    (h : ∀ v, env.trimmedValue v = env'.trimmedValue v) : ofVariables env = ofVariables env' := by
  have hvalue : env.value? = env'.value? := by
    funext v
    rw [Environment.value?_eq, Environment.value?_eq, h v]
  have hreading : ∀ {α : Type} (v : Variable) (default : α) (read : String → Except Fault α),
      reading env v default read = reading env' v default read := by
    intro α v default read
    rw [reading, reading, hvalue]
  simp only [ofVariables, gathered, hvalue, hreading]

/-- what is loaded of variables depends on their values without blanks alone; settings are loaded
if every step passes, and then they are what the variables are given as, or their defaults, and
within their bounds; otherwise the first step that fails is reported. And settings that are written
to variables are loaded from them again -/
theorem loading_exact (env : Environment) :
    (∀ env' : Environment, (∀ v, env.trimmedValue v = env'.trimmedValue v) →
      ofVariables env = ofVariables env')
    ∧ (∀ s, ofVariables env = .ok s ↔ Loaded env s ∧ ∀ step ∈ Step.all, step.Passes env)
    ∧ ((∀ step ∈ Step.all, step.Passes env) → ∃ s, ofVariables env = .ok s)
    ∧ (∀ s, ofVariables env = .ok s → s.validate = .ok ())
    ∧ (∀ f, ofVariables env = .error f →
      ∃ step, FirstFailing env Step.all step ∧ step.Reports env f)
    ∧ (∀ step, FirstFailing env Step.all step →
      ∃ f, ofVariables env = .error f ∧ step.Reports env f)
    ∧ ∀ s, Writable s → ofVariables s.written = .ok s := by
  have hdecides := decides_ofVariables env
  refine ⟨fun _ => ofVariables_congr, fun s => ?_, hdecides.ok_of_all, fun s h => ?_, fun f h => ?_,
    fun _ => hdecides.error_of_first, fun _ => ofVariables_written⟩
  · constructor
    · intro h
      rw [h] at hdecides
      exact ⟨(ofVariables_eq_ok_iff.mp h).1, hdecides⟩
    · intro hx
      obtain ⟨h, hall⟩ := hx
      obtain ⟨_, hvalid⟩ := (decides_validate h).ok_of_all fun step hstep =>
        hall step (List.mem_append_right Step.syntaxes hstep)
      exact ofVariables_eq_ok_iff.mpr ⟨h, hvalid⟩
  · exact (ofVariables_eq_ok_iff.mp h).2
  · rw [h] at hdecides
    exact hdecides

/-- variables with too large a tolerance, which is looked at before the limit of time -/
def crowded : Environment := fun name =>
  if name = Variable.skew.name then some " +0601 "
  else if name = Variable.ttlCap.name then some "0"
  else none

/-- the settings of the sample, with a limit of time -/
def limited : Settings := { sample with ttlCap := some 300 }

/-- of several faults the first is reported, and settings come back from their variables -/
theorem loading_exact_of_crowded :
    FirstFailing crowded Step.all .skewRange
      ∧ (∃ f, ofVariables crowded = .error f ∧ Step.skewRange.Reports crowded f)
      ∧ Writable limited ∧ ofVariables limited.written = .ok limited := by
  have hskew : crowded.value? .skew = some "+0601" := by decide +kernel
  have hcap : crowded.value? .ttlCap = some "0" := by decide +kernel
  have hsize : crowded.value? .memoSize = none := by decide +kernel
  have hrealm : crowded.value? .realmRequired = none := by decide +kernel
  have hroles : crowded.value? .tokenRoles = none := by decide +kernel
  have hread : IsSigned "+0601" 601 := readSkew_eq_ok_iff.mp (by decide +kernel)
  have hzero : IsSigned "0" 0 := readSkew_eq_ok_iff.mp (by decide +kernel)
  have hfirst : FirstFailing crowded Step.all .skewRange := by
    refine ⟨Step.syntaxes, [.ttlCapRange, .keyAlgorithm], rfl, ?_, fun hpasses => ?_⟩
    · have hgiven : (∃ n, IsSigned "+0601" n) ∧ ∃ n, IsSigned "0" n := ⟨⟨_, hread⟩, _, hzero⟩
      simpa [Step.syntaxes, Step.Passes, Readable, hskew, hcap, hsize, hrealm, hroles] using hgiven
    · have hbound := hpasses _ _ hskew hread
      omega
  have hwritable : Writable limited := by
    have htrim : ∀ text ∈ ["c2VjcmV0", "RSA", "roles", "bearer"], IsTrim text := by
      unfold IsTrim
      decide +kernel
    constructor
    case valid => rfl
    case options => simp [limited, sample, standard, htrim]
    case names => simp [limited, sample, standard, RoleClaim.defaultClaim, htrim]
    case memoSize => decide
    case ttlCap => simp [limited]
  obtain ⟨_, _, _, _, _, hfails, hwritten⟩ := loading_exact crowded
  exact ⟨hfirst, hfails _ hfirst, hwritable, hwritten limited hwritable⟩

end TokenGate.Settings
