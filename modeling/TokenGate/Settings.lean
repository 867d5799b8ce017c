import TokenGate.Claims.Policy
import TokenGate.Key
import TokenGate.Roles
import TokenGate.Text.Integer

/-!
# Settings

* `Variable`               the twelve variables that settings are read from, and their names;
* `Settings`               the settings, with their defaults (`Settings.standard`);
* `Settings.Fault`         what is wrong with settings;
* `Settings.gathered`, `ofVariables`   the settings that an environment gives, blanks around the
                           values aside; an empty value counts as none;
* `Settings.validate`      the bounds that settings have to keep;
* `Settings.checkSingleKey`, `key`   that there is exactly one key, and what it is;
* `Settings.policy`, `roleClaim`     what the settings ask of claims, where roles are.

Keys are kept as text until `key` loads them. Settings are read in a fixed order: tolerance, size
of the memo, its time limit, the two switches; their bounds come last.
-/

namespace TokenGate

open Text

/-! ## variables -/

inductive Variable where
  | secretKey
  | publicKey
  | publicKeyAlgorithm
  | issuer
  | audience
  | skew
  | memoSize
  | ttlCap
  | rolesClaim
  | realmRequired
  | tokenRoles
  | realmName
  deriving DecidableEq, Repr

namespace Variable

def name : Variable → String
  | .secretKey => "BEARER_SECRET_KEY"
  | .publicKey => "BEARER_PUBLIC_KEY"
  | .publicKeyAlgorithm => "BEARER_PUBLIC_KEY_ALGORITHM"
  | .issuer => "BEARER_ISSUER"
  | .audience => "BEARER_AUDIENCE"
  | .skew => "BEARER_CLOCK_SKEW_SECONDS"
  | .memoSize => "BEARER_TOKEN_CACHE_SIZE"
  | .ttlCap => "BEARER_TOKEN_CACHE_MAX_TTL_SECONDS"
  | .rolesClaim => "BEARER_ROLES_CLAIM"
  | .realmRequired => "BEARER_REALM_AUTHENTICATION"
  | .tokenRoles => "BEARER_EXTRACT_ROLES_FROM_TOKEN"
  | .realmName => "BEARER_REALM_NAME"

def all : List Variable := [
  .secretKey, .publicKey, .publicKeyAlgorithm, .issuer, .audience, .skew, .memoSize, .ttlCap,
  .rolesClaim, .realmRequired, .tokenRoles, .realmName]

end Variable

/-- The values of variables by name, all of which are texts. An environment with a value that is not
Unicode is not one of these: the program breaks off when it reads such a one. -/
abbrev Environment := String → Option String

/-- the value of a variable without blanks around it, unless nothing is left of it -/
def Environment.value? (env : Environment) (v : Variable) : Option String :=
  ((env v.name).map trimmed).filter fun text => text != ""

/-! ## settings -/

structure Settings where
  secretKey : Option String
  publicKey : Option String
  publicKeyAlgorithm : String
  issuer : Option String
  audience : Option String
  skew : Int
  memoSize : Nat
  ttlCap : Option Int
  rolesClaim : String
  realmRequired : Bool
  tokenRoles : Bool
  realmName : String
  deriving DecidableEq, Repr

namespace Settings

def standard : Settings where
  secretKey := none
  publicKey := none
  publicKeyAlgorithm := "RSA"
  issuer := none
  audience := none
  skew := Policy.defaultSkew
  memoSize := 1000
  ttlCap := none
  rolesClaim := RoleClaim.defaultClaim
  realmRequired := true
  tokenRoles := true
  realmName := "bearer"

/-! ## faults -/

inductive Fault where
  | missingKey
  | conflictingKeys
  | key (cause : Key.Fault)
  | publicKeyAlgorithm (name : String)
  | skewUnreadable (text : String) (cause : Integer.Fault)
  | skewOutOfBounds (skew : Int)
  | memoSizeUnreadable (text : String) (cause : Integer.Fault)
  | ttlCapUnreadable (text : String) (cause : Integer.Fault)
  | ttlCapNotPositive (cap : Int)
  | switch (name : Variable) (text : String)
  | missingRealm
  deriving DecidableEq, Repr

/-- what is said of a variable whose value is no integer -/
def unreadable (v : Variable) (asked text : String) (cause : Integer.Fault) : String :=
  v.name ++ " must be a " ++ asked ++ " integer, got '" ++ text ++ "': " ++ cause.message

def Fault.message : Fault → String
  | .missingKey =>
    "Exactly one of the secret key or the public key must be configured; neither is set"
  | .conflictingKeys =>
    "Exactly one of the secret key or the public key must be configured; both are set"
  | .key cause =>
    match cause with
    | .secretNotBase64 _ | .secretEmpty => "Invalid secret key: " ++ cause.cause
    | .publicNotBase64 _ | .publicNotRsa => "Invalid public key: " ++ cause.cause
  | .publicKeyAlgorithm name => "Unsupported public key algorithm: " ++ name
  | .skewUnreadable text cause =>
    "Invalid clock skew configuration: " ++ unreadable .skew "valid" text cause
  | .skewOutOfBounds skew =>
    "Invalid clock skew configuration: clock skew must be between 0 and "
      ++ Shown.integer Policy.maxSkew ++ " seconds, got " ++ Shown.integer skew
  | .memoSizeUnreadable text cause =>
    "Invalid token cache size: " ++ unreadable .memoSize "non-negative" text cause
  | .ttlCapUnreadable text cause =>
    "Invalid token cache TTL cap: " ++ unreadable .ttlCap "valid" text cause
  | .ttlCapNotPositive cap =>
    "Invalid token cache TTL cap: cache TTL cap must be positive, got " ++ Shown.integer cap
  | .switch v text => "Invalid boolean for " ++ v.name ++ ": " ++ text
  | .missingRealm => "Realm authentication is enabled but no identity store was provided"

/-! ## bounds -/

/-- a text in lower case, as far as it is ASCII -/
def lowered (text : String) : List Char := text.toList.map Char.toLower

/-- RSA, in any case -/
def isRsa (name : String) : Bool := lowered name == ['r', 's', 'a']

def validate (s : Settings) : Except Fault Unit :=
  if s.skew < 0 ∨ Policy.maxSkew < s.skew then .error (.skewOutOfBounds s.skew)
  else
    match s.ttlCap.filter fun cap => decide (cap ≤ 0) with
    | some cap => .error (.ttlCapNotPositive cap)
    | none =>
      if isRsa s.publicKeyAlgorithm then .ok ()
      else .error (.publicKeyAlgorithm s.publicKeyAlgorithm)

/-! ## reading variables -/

/-- the switch that a text stands for, in any case -/
def switch? (text : String) : Option Bool :=
  if ["true".toList, "1".toList, "yes".toList].contains (lowered text) then some true
  else if ["false".toList, "0".toList, "no".toList].contains (lowered text) then some false
  else none

/-- the value of a variable, if it has one, read with `read`; else a default -/
def reading {α : Type} (env : Environment) (v : Variable) (default : α)
    (read : String → Except Fault α) : Except Fault α :=
  match env.value? v with
  | some text => read text
  | none => .ok default

def readSkew (text : String) : Except Fault Int :=
  (Integer.signed64 text.toList).mapError (.skewUnreadable text)

def readMemoSize (text : String) : Except Fault Nat :=
  (Integer.unsigned64 text.toList).mapError (.memoSizeUnreadable text)

def readTtlCap (text : String) : Except Fault (Option Int) :=
  ((Integer.signed64 text.toList).mapError (.ttlCapUnreadable text)).map some

def readSwitch (v : Variable) (text : String) : Except Fault Bool :=
  match switch? text with
  | some b => .ok b
  | none => .error (.switch v text)

/-- the settings of variables, with the values that had to be read -/
def gathered (env : Environment) (skew : Int) (memoSize : Nat) (ttlCap : Option Int)
    (realmRequired tokenRoles : Bool) : Settings where
  secretKey := env.value? .secretKey
  publicKey := env.value? .publicKey
  publicKeyAlgorithm := (env.value? .publicKeyAlgorithm).getD standard.publicKeyAlgorithm
  issuer := env.value? .issuer
  audience := env.value? .audience
  skew := skew
  memoSize := memoSize
  ttlCap := ttlCap
  rolesClaim := (env.value? .rolesClaim).getD standard.rolesClaim
  realmRequired := realmRequired
  tokenRoles := tokenRoles
  realmName := (env.value? .realmName).getD standard.realmName

def ofVariables (env : Environment) : Except Fault Settings := do
  let skew ← reading env .skew standard.skew readSkew
  let memoSize ← reading env .memoSize standard.memoSize readMemoSize
  let ttlCap ← reading env .ttlCap standard.ttlCap readTtlCap
  let realmRequired ←
    reading env .realmRequired standard.realmRequired (readSwitch .realmRequired)
  let tokenRoles ← reading env .tokenRoles standard.tokenRoles (readSwitch .tokenRoles)
  let s := gathered env skew memoSize ttlCap realmRequired tokenRoles
  s.validate
  return s

/-- what is reported of settings that were read from variables -/
def loadedEvent (s : Settings) : Event :=
  ⟨.info, .config, "Loaded bearer authentication configuration", [
    ("key_kind", if s.secretKey.isSome then "secret" else "public"),
    ("issuer", Shown.optional (s.issuer.map Shown.quoted)),
    ("audience", Shown.optional (s.audience.map Shown.quoted)),
    ("clock_skew_seconds", Shown.integer s.skew),
    ("token_cache_size", Shown.integer s.memoSize),
    ("realm_authentication", Shown.boolean s.realmRequired)], none⟩

/-! ## the parts of settings -/

def checkSingleKey (s : Settings) : Except Fault Unit :=
  match s.secretKey, s.publicKey with
  | none, none => .error .missingKey
  | some _, some _ => .error .conflictingKeys
  | _, _ => .ok ()

/-- the one key that is set -/
def key (s : Settings) : Except Fault Key :=
  match s.secretKey, s.publicKey with
  | none, none => .error .missingKey
  | some _, some _ => .error .conflictingKeys
  | some secret, none => (Key.ofSecretText secret).mapError .key
  | none, some text =>
    if isRsa s.publicKeyAlgorithm then (Key.ofPublicKeyText text).mapError .key
    else .error (.publicKeyAlgorithm s.publicKeyAlgorithm)

def policy (s : Settings) : Policy := ⟨s.issuer, s.audience, s.skew⟩

def roleClaim (s : Settings) : RoleClaim := ⟨s.rolesClaim, s.tokenRoles⟩

/-! ## diagnostics -/

def shown (s : Settings) : String :=
  let hidden (text : Option String) := Shown.optional (text.map fun _ => Shown.redacted)
  let text (t : Option String) := Shown.optional (t.map Shown.quoted)
  Shown.record "AuthConfig" [
    ("secret_key", hidden s.secretKey),
    ("public_key", hidden s.publicKey),
    ("public_key_algorithm", Shown.quoted s.publicKeyAlgorithm),
    ("issuer", text s.issuer),
    ("audience", text s.audience),
    ("clock_skew_seconds", Shown.integer s.skew),
    ("token_cache_size", Shown.integer s.memoSize),
    ("token_cache_max_ttl_seconds", Shown.optional (s.ttlCap.map Shown.integer)),
    ("roles_claim", Shown.quoted s.rolesClaim),
    ("realm_authentication", Shown.boolean s.realmRequired),
    ("extract_roles_from_token", Shown.boolean s.tokenRoles),
    ("realm_name", Shown.quoted s.realmName)]

end Settings

end TokenGate
