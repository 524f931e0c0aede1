/-
  Imghost.Config.RuntimeConfig — `PostgresRuntimeConfig` of `runtime_config.py`.

  A key's effective value is the stored one, unless there is none or the environment locks the
  key; then it is the default, which may come from the environment too. The rows of `config`
  hold JSON texts. `update_values` checks the items one after the other inside the transaction
  that writes them.

  `json.loads`, `int` and `str.lower` are parameters, and so is what makes a statement fail.
-/

import Imghost.Data.Table
import Imghost.Model.Digits
import Imghost.Tokens.Signed

namespace Imghost.Config

open Imghost.Data Imghost.Model
open Imghost.Tokens (Json TokenExc)

/-! ## Values -/

inductive ConfigType where
  | bool
  | int
  deriving DecidableEq, Repr

/-- `bool | int`. -/
inductive ConfigValue where
  | bool (b : Bool)
  | int (n : Int)
  deriving DecidableEq, Repr

namespace ConfigValue

def toJson : ConfigValue → Json
  | bool b => .bool b
  | int n => .int n

/-- The number a value compares as: `True == 1`. -/
def num : ConfigValue → Int
  | bool b => if b then 1 else 0
  | int n => n

end ConfigValue

/-- `os.getenv`. -/
abbrev Environ := String → Option String

structure ConfigLib where
  /-- `str.lower`. -/
  lower : String → String
  /-- `int` of a string; `none` when it raises `ValueError`. -/
  int : String → Option Int
  jsonLoads : String → Except TokenExc Json
  isoformat : DateTime → String

variable (lib : ConfigLib)

/-! ## RUNTIME_CONFIG_SPECS -/

/-- `_env_bool_default`. -/
def envBoolDefault (name : String) (default : Bool) (env : Environ) : Except PyExc ConfigValue :=
  match env name with
  | none => .ok (.bool default)
  | some raw =>
    let value := lib.lower (strip raw)
    if value ∈ ["1", "true", "yes", "on"] then .ok (.bool true)
    else if value ∈ ["0", "false", "no", "off"] then .ok (.bool false)
    else .error (.valueError (name ++ " must be a boolean-like value."))

/-- `int(os.getenv(name, str(default)))`. -/
def envInt (name : String) (default : Int) (env : Environ) : Except PyExc Int :=
  match env name with
  | none => .ok default
  | some raw =>
    match lib.int raw with
    | some n => .ok n
    | none => .error (.valueError "invalid literal for int() with base 10")

structure RuntimeConfigSpec where
  key : String
  valueType : ConfigType
  defaultProvider : Environ → Except PyExc ConfigValue
  lockEnv : String

/-- A key whose default is an integer of the environment. -/
def envSpec (key envName : String) (default : Int) (lockEnv : String) : RuntimeConfigSpec :=
  ⟨key, .int, fun env => (envInt lib envName default env).map .int, lockEnv⟩

/-- A key whose default is fixed. -/
def rateLimitSpec (key : String) (default : Int) : RuntimeConfigSpec :=
  ⟨key, .int, fun _ => .ok (.int default), "LOCK_RATE_LIMITS"⟩

/-- `RUNTIME_CONFIG_SPECS`, in its order. -/
def runtimeConfigSpecs : List RuntimeConfigSpec :=
  [⟨"allow_registration", .bool, envBoolDefault lib "ALLOW_REGISTRATION" true, "LOCK_ALLOW_REGISTRATION"⟩,
    ⟨"anon_upload_enabled", .bool, fun _ => .ok (.bool true), "LOCK_ANON_UPLOAD"⟩,
    envSpec lib "anon_expiry_hours" "ANON_EXPIRY_HOURS" 24 "LOCK_ANON_EXPIRY",
    envSpec lib "max_upload_bytes" "MAX_UPLOAD_BYTES" (50 * 1024 * 1024) "LOCK_MAX_UPLOAD_BYTES",
    ⟨"video_thumb_frames", .int, fun env => (envInt lib "VIDEO_THUMB_FRAMES" 15 env).map fun n => .int (max 1 n),
      "LOCK_VIDEO_THUMB_FRAMES"⟩,
    envSpec lib "default_user_quota_bytes" "DEFAULT_USER_QUOTA_BYTES" (2 * 1024 * 1024 * 1024)
      "LOCK_DEFAULT_USER_QUOTA_BYTES",
    envSpec lib "server_quota_bytes" "SERVER_QUOTA_BYTES" 0 "LOCK_SERVER_QUOTA_BYTES",
    rateLimitSpec "rate_limit_anon_rpm" 5,
    rateLimitSpec "rate_limit_anon_bph" 104857600,
    rateLimitSpec "rate_limit_global_anon_rpm" 50,
    rateLimitSpec "rate_limit_global_anon_bph" 1073741824,
    rateLimitSpec "rate_limit_user_rpm" 30,
    rateLimitSpec "rate_limit_user_bph" 524288000,
    rateLimitSpec "auth_rate_limit_login_ip_rpm" 10,
    rateLimitSpec "auth_rate_limit_login_account_failures" 5,
    rateLimitSpec "auth_rate_limit_login_account_window_seconds" 900,
    rateLimitSpec "auth_rate_limit_login_lock_seconds" 300,
    rateLimitSpec "auth_rate_limit_registration_ip_rpm" 5,
    rateLimitSpec "auth_rate_limit_api_key_ip_failures" 20,
    rateLimitSpec "auth_rate_limit_api_key_ip_window_seconds" 600,
    rateLimitSpec "auth_rate_limit_api_key_lock_seconds" 300,
    rateLimitSpec "auth_rate_limit_admin_ip_failures" 10,
    rateLimitSpec "auth_rate_limit_admin_ip_window_seconds" 600,
    rateLimitSpec "auth_rate_limit_admin_lock_seconds" 300]

theorem specs_nodup : ((runtimeConfigSpecs lib).map (·.key)).Nodup := by
  simp only [runtimeConfigSpecs, envSpec, rateLimitSpec, List.map_cons, List.map_nil]
  decide

def specs : Table RuntimeConfigSpec.key := ⟨runtimeConfigSpecs lib, specs_nodup lib⟩

/-! ## Reading -/

structure ConfigRow where
  key : String
  value : Option String
  updatedAt : DateTime
  deriving DecidableEq, Repr

inductive ConfigSource where
  | locked
  | default
  | runtime
  deriving DecidableEq, Repr

structure RuntimeConfigValue where
  key : String
  value : ConfigValue
  default : ConfigValue
  locked : Bool
  source : ConfigSource
  storedValue : Option ConfigValue
  updatedAt : Option String
  deriving DecidableEq, Repr

/-- `_is_locked`. -/
def isLocked (env : Environ) (spec : RuntimeConfigSpec) : Bool := lib.lower (strip ((env spec.lockEnv).getD "false")) == "true"

/-- `_coerce_value`. -/
def coerceValue (spec : RuntimeConfigSpec) (rawValue : Json) : Except PyExc ConfigValue :=
  match spec.valueType, rawValue with
  | .bool, .bool b => .ok (.bool b)
  | .bool, _ => .error (.http 400 (spec.key ++ " must be a boolean."))
  | .int, .int n => if n < 0 then .error (.http 400 (spec.key ++ " must be non-negative.")) else .ok (.int n)
  | .int, _ => .error (.http 400 (spec.key ++ " must be an integer."))

/-- What leaves `_decode_stored_value` when `json.loads` raises. -/
def loadsRaised (spec : RuntimeConfigSpec) : TokenExc → PyExc
  | .jsonDecodeError => .http 500 ("Invalid stored config value for " ++ spec.key ++ ".")
  | .valueError msg => .valueError msg
  | .typeError msg => .exception msg
  | .unicodeDecodeError => .valueError "codec can't decode"
  | .recursionError => .exception "maximum recursion depth exceeded"

/-- `_decode_stored_value`. -/
def decodeStoredValue (spec : RuntimeConfigSpec) (rawValue : Option String) : Except PyExc (Option ConfigValue) :=
  match rawValue with
  | none => .ok none
  | some text =>
    match lib.jsonLoads text with
    | .error e => .error (loadsRaised spec e)
    | .ok parsed => (coerceValue spec parsed).map some

/-- `_resolve_value`, of the row of the key. -/
def resolveValue (env : Environ) (spec : RuntimeConfigSpec) (row : Option ConfigRow) : Except PyExc RuntimeConfigValue := do
  let default ← spec.defaultProvider env
  let decoded ← decodeStoredValue lib spec (row.bind (·.value))
  let updatedAt := row.map fun row => lib.isoformat row.updatedAt
  if isLocked lib env spec then
    return ⟨spec.key, default, default, true, .locked, decoded, updatedAt⟩
  else
    match decoded with
    | none => return ⟨spec.key, default, default, false, .default, none, updatedAt⟩
    | some value => return ⟨spec.key, value, default, false, .runtime, some value, updatedAt⟩

/-- The table `config`. -/
abbrev ConfigTable := Table ConfigRow.key

abbrev Effective := Table RuntimeConfigValue.key

theorem resolveValue_key (env : Environ) (rowOf : String → Option ConfigRow) (spec : RuntimeConfigSpec)
    (value : RuntimeConfigValue) (h : resolveValue lib env spec (rowOf spec.key) = .ok value) : value.key = spec.key := by
  unfold resolveValue at h
  cases hdefault : spec.defaultProvider env with
  | error e =>
    rw [hdefault] at h
    cases h
  | ok default =>
    rw [hdefault] at h
    cases hdecoded : decodeStoredValue lib spec ((rowOf spec.key).bind (·.value)) with
    | error e =>
      rw [hdecoded] at h
      cases h
    | ok decoded =>
      rw [hdecoded] at h
      by_cases hlocked : isLocked lib env spec = true
      · simp only [bind, Except.bind, hlocked, if_true] at h
        rw [← Except.ok.inj h]
      · simp only [bind, Except.bind, hlocked, if_false] at h
        cases decoded with
        | none => rw [← Except.ok.inj h]
        | some value => rw [← Except.ok.inj h]

/-- `list_effective`. -/
def listEffective (env : Environ) (t : ConfigTable) : Except PyExc Effective :=
  (specs lib).mapM (fun spec => resolveValue lib env spec (t.find? spec.key)) (resolveValue_key lib env t.find?)

/-- `get_value`. -/
def getValue (env : Environ) (t : ConfigTable) (key : String) : Except PyExc ConfigValue := do
  if ((specs lib).find? key).isNone then .error (.lookupError key)
  else
    let effective ← listEffective lib env t
    match effective.find? key with
    | some resolved => .ok resolved.value
    | none => .error (.lookupError key)

/-! ## Writing -/

/-- The argument of `update_values`: a dictionary. -/
abbrev Updates := Table (Prod.fst : String × Json → String)

structure ConfigChange where
  key : String
  oldValue : ConfigValue
  newValue : ConfigValue
  deriving DecidableEq, Repr

/-- `json.dumps` of a value: an integer of too many digits has no text. -/
def jsonDumps : ConfigValue → Except PyExc String
  | .bool true => .ok "true"
  | .bool false => .ok "false"
  | .int n =>
    if intMaxStrDigits < (Nat.toDigits 10 n.natAbs).length then
      .error (.valueError "Exceeds the limit (4300 digits) for integer string conversion")
    else .ok (toString n)

/-- What the environment does in a call: the time of the transaction, and the statements that
    fail. -/
structure Moment where
  now : DateTime
  failure : String → Option PyExc

/-- One item of the updates: the table and the changes with it. -/
def updateItem (env : Environ) (moment : Moment) (effective : Effective) (item : String × Json)
    (s : ConfigTable × List ConfigChange) : Except PyExc (ConfigTable × List ConfigChange) :=
  match (specs lib).find? item.1 with
  | none => .error (.lookupError item.1)
  | some spec =>
    if isLocked lib env spec then .error (.http 403 (item.1 ++ " is locked by environment configuration."))
    else do
      let coerced ← coerceValue spec item.2
      match effective.find? item.1 with
      | none => .error (.lookupError item.1)
      | some current =>
        if current.value.num = coerced.num ∧ current.source = .runtime then return s
        else
          let text ← jsonDumps coerced
          match moment.failure item.1 with
          | some e => .error e
          | none => return (s.1.upsert ⟨item.1, some text, moment.now⟩, s.2 ++ [⟨item.1, current.value, coerced⟩])

def updateItems (env : Environ) (moment : Moment) (effective : Effective) :
    List (String × Json) → ConfigTable × List ConfigChange → Except PyExc (ConfigTable × List ConfigChange)
  | [], s => .ok s
  | item :: items, s => do
    let s ← updateItem lib env moment effective item s
    updateItems env moment effective items s

def unknownKeys (updates : Updates) : List String :=
  (updates.rows.map (·.1)).filter fun key => ((specs lib).find? key).isNone

/-- `update_values`: an exception inside the transaction leaves the table as it was. -/
def updateValues (env : Environ) (moment : Moment) (updates : Updates) (t : ConfigTable) :
    Except PyExc (List ConfigChange) × ConfigTable :=
  if updates.rows = [] then (.error (.http 400 "At least one config value is required."), t)
  else if unknownKeys lib updates ≠ [] then
    (.error (.http 400 ("Unknown config key(s): " ++
      ", ".intercalate ((unknownKeys lib updates).mergeSort fun a b => decide (a ≤ b)) ++ ".")), t)
  else
    match listEffective lib env t with
    | .error e => (.error e, t)
    | .ok effective =>
      match updateItems lib env moment effective updates.rows (t, []) with
      | .error e => (.error e, t)
      | .ok (t', changes) => (.ok changes, t')

end Imghost.Config
