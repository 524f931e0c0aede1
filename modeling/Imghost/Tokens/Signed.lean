/-
  Imghost.Tokens.Signed — the four verifiers of signed tokens.

  A token is a payload in URL-safe base64, a dot, and a signature. A verifier splits it,
  decodes the payload, compares the signature with the one it computes, decodes the
  payload as UTF-8 and JSON, and looks at its fields. Each stage has exceptions of its
  own: some are caught and make the token invalid, the others leave the verifier.

  HMAC, `json.loads`, `datetime.fromisoformat`, `str` and `str.lower` stay parameters
  (`TokenLib`).
-/

import Imghost.Model.Stdlib

namespace Imghost.Tokens

open Imghost.Model

/-! ## Values and exceptions -/

inductive Json where
  | null
  | bool (b : Bool)
  | int (n : Int)
  | float (x : Float)
  | str (s : String)
  | list (items : List Json)
  | dict (fields : List (String × Json))

/-- `bool(value)`, of what `dict.get` returns. -/
def truthy : Option Json → Bool
  | none | some .null => false
  | some (.bool b) => b
  | some (.int n) => n != 0
  | some (.float x) => x != 0
  | some (.str s) => s != ""
  | some (.list items) => !items.isEmpty
  | some (.dict fields) => !fields.isEmpty

/-- `value`, when it is a string that is not empty. -/
def nonEmptyStr : Option Json → Option String
  | some (.str s) => if s = "" then none else some s
  | _ => none

inductive TokenExc where
  | valueError (msg : String)
  | jsonDecodeError
  | unicodeDecodeError
  | typeError (msg : String)
  | recursionError
  deriving DecidableEq, Repr

/-- `isinstance(exc, ValueError)`. -/
def TokenExc.isValueError : TokenExc → Bool
  | .valueError _ | .jsonDecodeError | .unicodeDecodeError => true
  | .typeError _ | .recursionError => false

/-- A `datetime`, with or without a time zone. -/
inductive PyDatetime where
  | naive (wallClock : Int)
  | aware (instant : DateTime)
  deriving DecidableEq, Repr

def isAscii (s : String) : Bool := s.toList.all (·.toNat < 128)

structure TokenLib where
  /-- `hmac.new(key, data, sha256).hexdigest()`. -/
  hmacSha256 : String → Bytes → String
  hexdigest_ascii : ∀ key data, isAscii (hmacSha256 key data) = true
  /-- `json.loads`: an invalid text raises `JSONDecodeError`, one nested too deep
      `RecursionError`, an integer with too many digits `ValueError`. -/
  jsonLoads : String → Except TokenExc Json
  /-- `datetime.fromisoformat` of a string; `none` when it raises `ValueError`. -/
  fromisoformat : String → Option PyDatetime
  /-- `str(value)`. -/
  str : Json → String
  lower : String → String

/-! ## base64 -/

/-- The value of a character of the alphabet. -/
def base64Value (c : Char) : Option Nat :=
  if 'A' ≤ c ∧ c ≤ 'Z' then some (c.toNat - 65)
  else if 'a' ≤ c ∧ c ≤ 'z' then some (c.toNat - 71)
  else if '0' ≤ c ∧ c ≤ '9' then some (c.toNat + 4)
  else if c = '-' ∨ c = '+' then some 62
  else if c = '_' ∨ c = '/' then some 63
  else none

/-- `binascii.a2b_base64` after `quadPos` characters of a group of four, whose bits not yet
    written are `leftover`, and after `pads` characters of padding: characters outside the
    alphabet are skipped, and a group that is complete with its padding ends the input. -/
def a2bBase64 : List Char → Nat → Nat → Nat → Option Bytes
  | [], quadPos, _, _ => if quadPos = 0 then some [] else none
  | c :: cs, quadPos, leftover, pads =>
    if c = '=' then
      if 2 ≤ quadPos ∧ 4 ≤ quadPos + (pads + 1) then some []
      else a2bBase64 cs quadPos leftover (if 2 ≤ quadPos then pads + 1 else pads)
    else
      match base64Value c with
      | none => a2bBase64 cs quadPos leftover pads
      | some v =>
        match quadPos with
        | 0 => a2bBase64 cs 1 v 0
        | 1 => (a2bBase64 cs 2 (v % 16) 0).map (UInt8.ofNat (leftover * 4 + v / 16) :: ·)
        | 2 => (a2bBase64 cs 3 (v % 4) 0).map (UInt8.ofNat (leftover * 16 + v / 4) :: ·)
        | _ => (a2bBase64 cs 0 0 0).map (UInt8.ofNat (leftover * 64 + v) :: ·)

/-- `base64.urlsafe_b64decode` of a string; `none` when it raises `ValueError`. -/
def urlsafeB64decode (data : String) : Option Bytes :=
  if isAscii data then a2bBase64 data.toList 0 0 0 else none

/-- `_b64decode`. -/
def b64decode (data : String) : Option Bytes :=
  urlsafeB64decode (data ++ "".pushn '=' ((4 - data.length % 4) % 4))

/-! ## The stages all verifiers share -/

/-- `value.partition(".")`: before the first dot, whether there is one, after it. -/
def partitionDot (value : String) : String × Bool × String :=
  (String.ofList (value.toList.takeWhile (· != '.')), value.toList.contains '.',
    String.ofList ((value.toList.dropWhile (· != '.')).drop 1))

/-- `hmac.compare_digest` of two strings. -/
def compareDigest (a b : String) : Except TokenExc Bool :=
  if isAscii a && isAscii b then .ok (a == b)
  else .error (.typeError "comparing strings with non-ASCII characters is not supported")

/-- `data.decode("utf-8")`. -/
def decodeUtf8 (data : Bytes) : Except TokenExc String :=
  match String.fromUTF8? ⟨data.toArray⟩ with
  | some s => .ok s
  | none => .error .unicodeDecodeError

/-- The payload and the signature of a token that has both. -/
def splitToken (value : String) : Option (Bytes × String) :=
  let (payloadB64, dot, signature) := partitionDot value
  if !dot || payloadB64 = "" || signature = "" then none
  else (b64decode payloadB64).map fun payload => (payload, signature)

/-- `json.loads(payload_bytes.decode("utf-8"))`; `none` for what is no JSON. -/
def parsePayload (lib : TokenLib) (payloadBytes : Bytes) : Except TokenExc (Option Json) :=
  match decodeUtf8 payloadBytes with
  | .error e => .error e
  | .ok text =>
    match lib.jsonLoads text with
    | .error .jsonDecodeError => .ok none
    | .error e => .error e
    | .ok payload => .ok (some payload)

/-- The payload of a token with the right signature; `none` for a token that is invalid up to
    here. -/
def verify (lib : TokenLib) (secretKey value : String) : Except TokenExc (Option Json) :=
  match splitToken value with
  | none => .ok none
  | some (payloadBytes, signature) =>
    match compareDigest signature (lib.hmacSha256 secretKey payloadBytes) with
    | .error e => .error e
    | .ok false => .ok none
    | .ok true => parsePayload lib payloadBytes

/-! ## sessions.py -/

structure SessionPayload where
  sessionId : String
  userId : String
  createdAt : String
  expiresAt : Option String
  store : String
  deriving DecidableEq, Repr

/-- The check of `expires_at`: whether the token may still be used. -/
def notExpired (lib : TokenLib) (now : DateTime) (expiresAtRaw : Option Json) : Except TokenExc Bool :=
  if truthy expiresAtRaw then
    match expiresAtRaw with
    | some (.str s) =>
      match lib.fromisoformat s with
      | none => .ok false
      | some (.naive _) => .error (.typeError "can't compare offset-naive and offset-aware datetimes")
      | some (.aware expiresAt) => .ok (!decide (expiresAt ≤ now))
    | _ => .error (.typeError "fromisoformat: argument must be str")
  else .ok true

/-- The payload, when its fields are what they must be. -/
def sessionPayload (fields : List (String × Json)) : Option SessionPayload := do
  let sessionId ← nonEmptyStr (fields.lookup "session_id")
  let userId ← nonEmptyStr (fields.lookup "user_id")
  let createdAt ← nonEmptyStr (fields.lookup "created_at")
  let store ← if truthy (fields.lookup "store") then nonEmptyStr (fields.lookup "store") else some "cookie"
  return { sessionId := sessionId, userId := userId, createdAt := createdAt, store := store,
           expiresAt := match fields.lookup "expires_at" with
             | some (.str s) => some s
             | _ => none }

def decodeSignedToken (lib : TokenLib) (secretKey : String) (now : DateTime) (token : String) :
    Except TokenExc (Option SessionPayload) :=
  match verify lib secretKey token with
  | .error e => .error e
  | .ok (some (.dict fields)) =>
    match notExpired lib now (fields.lookup "expires_at") with
    | .error e => .error e
    | .ok false => .ok none
    | .ok true => .ok (sessionPayload fields)
  | .ok _ => .ok none

/-! ## The three `loads` -/

/-- `str(data.get(name) or "").strip()`. -/
def textField (lib : TokenLib) (fields : List (String × Json)) (name : String) : String :=
  match fields.lookup name with
  | some value => if truthy (some value) then strip (lib.str value) else ""
  | none => ""

/-- What the managers differ in: the message of their error, the fields besides
    `created_at` that must not be empty, and the payload they build. -/
structure Manager (β : Type) where
  invalid : String
  required : List (String × Json) → List String
  build : List (String × Json) → β

/-- `(utcnow() - datetime.fromisoformat(created_at)).total_seconds()` against the limits; the
    difference is in microseconds. -/
def freshEnough (lib : TokenLib) (now : DateTime) (maxAge : Int) (createdAt : String) : Except TokenExc Bool :=
  match lib.fromisoformat createdAt with
  | none => .ok false
  | some (.naive _) => .error (.typeError "can't subtract offset-naive and offset-aware datetimes")
  | some (.aware instant) => .ok (0 ≤ now - instant && now - instant ≤ maxAge * 1000000)

variable {β : Type}

def Manager.loads (m : Manager β) (lib : TokenLib) (secretKey : String) (now : DateTime) (maxAge : Int) (value : String) :
    Except TokenExc β :=
  match verify lib secretKey value with
  | .error e => .error e
  | .ok (some (.dict fields)) =>
    let createdAt := textField lib fields "created_at"
    if createdAt = "" || (m.required fields).contains "" then .error (.valueError m.invalid)
    else
      match freshEnough lib now maxAge createdAt with
      | .error e => .error e
      | .ok false => .error (.valueError m.invalid)
      | .ok true => .ok (m.build fields)
  | .ok _ => .error (.valueError m.invalid)

structure AccountDeleteReauthPayload where
  userId : String
  provider : String
  providerUid : String
  createdAt : Option String
  deriving DecidableEq, Repr

structure OAuthStatePayload where
  mode : String
  nextPath : String
  jti : String
  userId : Option String
  createdAt : Option String
  deriving DecidableEq, Repr

structure ShareXDeleteConfirmationPayload where
  selector : String
  albumId : String
  userId : String
  createdAt : Option String
  deriving DecidableEq, Repr

def AccountDeleteReauthTokenManager.loads (lib : TokenLib) :=
  Manager.loads (β := AccountDeleteReauthPayload)
    { invalid := "invalid_account_delete_reauth_token"
      required := fun data =>
        [textField lib data "user_id", lib.lower (textField lib data "provider"), textField lib data "provider_uid"]
      build := fun data =>
        { userId := textField lib data "user_id", provider := lib.lower (textField lib data "provider"),
          providerUid := textField lib data "provider_uid", createdAt := some (textField lib data "created_at") } } lib

def OAuthStateManager.loads (lib : TokenLib) :=
  Manager.loads (β := OAuthStatePayload)
    { invalid := "invalid_oauth_state"
      required := fun _ => []
      build := fun data =>
        { mode := textField lib data "mode", nextPath := textField lib data "next_path", jti := textField lib data "jti",
          userId := if truthy (data.lookup "user_id") then some (textField lib data "user_id") else none,
          createdAt := some (textField lib data "created_at") } } lib

def ShareXDeleteTokenManager.loadsConfirmation (lib : TokenLib) :=
  Manager.loads (β := ShareXDeleteConfirmationPayload)
    { invalid := "invalid_sharex_delete_confirmation"
      required := fun data => [textField lib data "selector", textField lib data "album_id", textField lib data "user_id"]
      build := fun data =>
        { selector := textField lib data "selector", albumId := textField lib data "album_id",
          userId := textField lib data "user_id", createdAt := some (textField lib data "created_at") } } lib

end Imghost.Tokens
