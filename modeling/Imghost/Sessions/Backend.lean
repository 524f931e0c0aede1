/-
  Imghost.Sessions.Backend — `RedisBackedSessionBackend`.

  A session is a signed token in the browser and, when it was issued with store "redis", a
  record in Redis. Each method sends one command through `RedisHandle.execute`, which goes
  through or raises `RedisUnavailable`; then the command was not carried out, or only its
  reply was lost.

  `json.dumps` and `datetime.isoformat` are parameters beside those of the tokens. The id
  that `uuid4` draws is an argument of `createSession`.
-/

import Imghost.Limits.RedisLimiters
import Imghost.Tokens.Signed

namespace Imghost.Sessions

open Imghost.Async Imghost.Limits Imghost.Model Imghost.Tokens Program

structure SessionLib extends TokenLib where
  /-- `json.dumps(value, sort_keys=True, separators=(",", ":"))`. -/
  dumpsSorted : Json → String
  /-- `json.dumps(value)`. -/
  dumps : Json → String
  isoformat : DateTime → String

structure SessionSettings where
  secretKey : String
  sessionRememberDays : Int
  sessionRedisFailClosed : Bool
  redis : RedisHandle

/-! ## Requests -/

inductive SessionExc where
  | redisUnavailable (replyLost : Bool)
  | sessionBackendUnavailable
  | runtimeError (msg : String)
  | attributeError (msg : String)
  | token (e : TokenExc)
  deriving DecidableEq, Repr

inductive SessionReq where
  /-- `utcnow()`. -/
  | utcnow
  | set (key value : String) (ex : Int)
  | get (key : String)
  | delete (key : String)
  deriving DecidableEq

@[reducible] def SessionReply : SessionReq → Type
  | .utcnow => DateTime
  | .get _ => Option String
  | _ => Unit

abbrev SessionProg (α : Type) := Program SessionReply SessionExc α

abbrev ask (r : SessionReq) : SessionProg (SessionReply r) := Program.perform r

/-! ## Tokens -/

def base64Digit (v : Nat) : Char :=
  if v < 26 then Char.ofNat (v + 65) else if v < 52 then Char.ofNat (v + 71) else if v < 62 then Char.ofNat (v - 4)
  else if v = 62 then '-' else '_'

/-- `base64.urlsafe_b64encode(data).rstrip(b"=")`. -/
def b64encode : Bytes → List Char
  | [] => []
  | [a] => [base64Digit (a.toNat / 4), base64Digit (a.toNat % 4 * 16)]
  | [a, b] =>
    [base64Digit (a.toNat / 4), base64Digit (a.toNat % 4 * 16 + b.toNat / 16), base64Digit (b.toNat % 16 * 4)]
  | a :: b :: c :: rest =>
    base64Digit (a.toNat / 4) :: base64Digit (a.toNat % 4 * 16 + b.toNat / 16) ::
      base64Digit (b.toNat % 16 * 4 + c.toNat / 64) :: base64Digit (c.toNat % 64) :: b64encode rest

variable (lib : SessionLib) (settings : SessionSettings)

/-- `_sign_payload`. -/
def signPayload (payload : SessionPayload) (store : String) : String :=
  let payloadBytes := (lib.dumpsSorted (.dict [("session_id", .str payload.sessionId), ("user_id", .str payload.userId),
    ("created_at", .str payload.createdAt), ("expires_at", payload.expiresAt.elim .null .str),
    ("store", .str store)])).toUTF8.toList
  String.ofList (b64encode payloadBytes) ++ "." ++ lib.hmacSha256 settings.secretKey payloadBytes

/-- `timedelta(days=days)`. -/
def timedeltaDays (days : Int) : Int := days * 86400000000

/-- `_create_signed_token`, at `now` and with the id of the session. -/
def createSignedToken (now : DateTime) (sessionId userId : String) (rememberMe : Bool) (store : String) :
    String × Option DateTime :=
  let createdAt := now / 1000000 * 1000000
  let expiresAt := if rememberMe then some (createdAt + timedeltaDays settings.sessionRememberDays) else none
  let payload : SessionPayload :=
    { sessionId := sessionId, userId := userId, createdAt := lib.isoformat createdAt,
      expiresAt := expiresAt.map lib.isoformat, store := store }
  (signPayload lib settings payload store, expiresAt)

/-- `_session_ttl_seconds`. -/
def sessionTtlSeconds (now : DateTime) : Option DateTime → Int
  | some expiresAt => max 1 ((expiresAt - now).tdiv 1000000)
  | none => max 1 (settings.sessionRememberDays * 24 * 60 * 60)

/-- `_decode_signed_token`, which reads the clock. -/
def decode (token : String) : SessionProg (Option SessionPayload) := do
  let now ← ask .utcnow
  ofExcept ((decodeSignedToken lib.toTokenLib settings.secretKey now token).mapError .token)

/-! ## RedisBackedSessionBackend -/

/-- The key of a session's record. -/
def sessionKey (sessionId : String) : String := settings.redis.prefixed ("session:" ++ sessionId)

def createSession (sessionId userId : String) (rememberMe : Bool) : SessionProg (String × Option DateTime) := do
  let now ← ask .utcnow
  let (token, expiresAt) := createSignedToken lib settings now sessionId userId rememberMe "cookie"
  match ← decode lib settings token with
  | none => raise (.runtimeError "Failed to create session token.")
  | some payload =>
    let now ← ask .utcnow
    let stored ← attempt (ask (.set (sessionKey settings payload.sessionId) (lib.dumps (.dict [("user_id", .str userId)]))
      (sessionTtlSeconds settings now expiresAt)))
    match stored with
    | .error (.redisUnavailable _) =>
      if settings.sessionRedisFailClosed then raise .sessionBackendUnavailable else return (token, expiresAt)
    | .error e => raise e
    | .ok _ => return (signPayload lib settings payload "redis", expiresAt)

/-- The user of a record, if it is the token's. -/
def storedUser (payload : SessionPayload) (raw : String) : SessionProg (Option String) :=
  match lib.jsonLoads raw with
  | .error .jsonDecodeError => return none
  | .error e => raise (.token e)
  | .ok (.dict fields) =>
    match fields.lookup "user_id" with
    | some (.str userId) => return if userId = payload.userId then some userId else none
    | _ => return none
  | .ok _ => raise (.attributeError "object has no attribute 'get'")

def resolveUser (token : String) : SessionProg (Option String) := do
  match ← decode lib settings token with
  | none => return none
  | some payload =>
    if payload.store ≠ "redis" then return some payload.userId
    else
      let found ← attempt (ask (.get (sessionKey settings payload.sessionId)))
      match found with
      | .error (.redisUnavailable _) =>
        if settings.sessionRedisFailClosed then raise .sessionBackendUnavailable else return some payload.userId
      | .error e => raise e
      | .ok none => return none
      | .ok (some raw) => storedUser lib payload raw

def clearSession (token : Option String) : SessionProg Unit := do
  match token with
  | none => return
  | some token =>
    if token = "" then return
    else
      match ← decode lib settings token with
      | none => return
      | some payload =>
        if payload.store ≠ "redis" then return
        else
          let deleted ← attempt (ask (.delete (sessionKey settings payload.sessionId)))
          match deleted with
          | .error (.redisUnavailable _) => return
          | .error e => raise e
          | .ok _ => return

/-! ## The world of the sessions -/

structure Record where
  value : String
  expiresAt : Int
  deriving DecidableEq, Repr

structure SessionWorld where
  clock : DateTime
  keys : String → Option Record

namespace SessionWorld

variable (w : SessionWorld)

/-- The record of a key, while it has not expired. -/
def find? (key : String) : Option Record := (w.keys key).filter fun e => decide (w.clock < e.expiresAt)

end SessionWorld

def sessionExec : (r : SessionReq) → SessionWorld → Except SessionExc (SessionReply r) × SessionWorld
  | .utcnow, w => (.ok w.clock, w)
  | .set key value ex, w =>
    if ex ≤ 0 then (.error (.redisUnavailable false), w)
    else (.ok (), { w with keys := put w.keys key (some ⟨value, w.clock + ex * second⟩) })
  | .get key, w => (.ok ((w.find? key).map (·.value)), w)
  | .delete key, w => (.ok (), { w with keys := put w.keys key none })

/-- `execute` can raise `RedisUnavailable`: the command had no effect, or only its reply was
    lost. -/
def sessionFail (r : SessionReq) (e : SessionExc) (w : SessionWorld) : Except SessionExc (SessionReply r) × SessionWorld :=
  match r, e with
  | .utcnow, _ => sessionExec .utcnow w
  | r, .redisUnavailable true => (.error (.redisUnavailable true), (sessionExec r w).2)
  | _, .redisUnavailable false => (.error (.redisUnavailable false), w)
  | r, _ => sessionExec r w

def sessionBackend : Backend SessionReply SessionExc SessionWorld where
  exec _ := sessionExec
  fail _ := sessionFail
  blocked _ _ _ := false
  elapse d w := { w with clock := w.clock + d }

/-! ## Calls -/

inductive SessionCall where
  | create (sessionId userId : String) (rememberMe : Bool)
  | resolve (token : String)
  | clear (token : Option String)
  deriving DecidableEq, Repr

inductive SessionResult where
  | created (token : String) (expiresAt : Option DateTime)
  | resolved (userId : Option String)
  | cleared
  deriving DecidableEq, Repr

def SessionCall.program : SessionCall → SessionProg SessionResult
  | .create sessionId userId rememberMe => do
    let (token, expiresAt) ← createSession lib settings sessionId userId rememberMe
    return .created token expiresAt
  | .resolve token => do return .resolved (← resolveUser lib settings token)
  | .clear token => do
    clearSession lib settings token
    return .cleared

end Imghost.Sessions
