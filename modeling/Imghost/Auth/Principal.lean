/-
  Imghost.Auth.Principal — who a request acts as: API keys and sessions.

  `authenticated_principal` takes a bearer token before a session cookie. The key is found by
  the hash of the token; its whole row is written back with the time of its use. Issuing a
  key replaces the user's row, id and hash included.

  The rows of `api_keys` carry the three uniqueness constraints of the schema. What the
  limiter answers, and which user a session token stands for, is given from outside
  (`AuthWorld.sessions`, faults).
-/

import Imghost.Async.Pool
import Imghost.Data.Table
import Imghost.Web.PublicOrigin

namespace Imghost.Auth

open Imghost.Async Imghost.Data Imghost.Model Imghost.Web

structure AuthLib extends UrlLib where
  /-- `sha256(text.encode("utf-8")).hexdigest()`. -/
  sha256 : String → String

/-! ## Keys -/

structure ApiKey where
  id : String
  userId : String
  keyHash : String
  createdAt : DateTime
  lastUsedAt : Option DateTime
  deriving DecidableEq, Repr

/-- No two rows have an id, a user or a hash in common. -/
structure UniqueKeys (rows : List ApiKey) : Prop where
  ids : (rows.map (·.id)).Nodup
  users : (rows.map (·.userId)).Nodup
  hashes : (rows.map (·.keyHash)).Nodup

theorem uniqueKeys_iff (rows : List ApiKey) : UniqueKeys rows ↔
    (rows.map (·.id)).Nodup ∧ (rows.map (·.userId)).Nodup ∧ (rows.map (·.keyHash)).Nodup :=
  ⟨fun h => ⟨h.ids, h.users, h.hashes⟩, fun h => ⟨h.1, h.2.1, h.2.2⟩⟩

instance (rows : List ApiKey) : Decidable (UniqueKeys rows) := decidable_of_iff' _ (uniqueKeys_iff rows)

/-- The table `api_keys`. -/
structure ApiKeys where
  rows : List ApiKey
  unique : UniqueKeys rows

structure ApiKeyIssued where
  userId : String
  actorId : Option String
  replacedExisting : Bool
  source : String
  correlationId : String
  deriving DecidableEq, Repr

structure AuthWorld where
  apiKeys : ApiKeys
  users : Table User.id
  /-- The user a session token stands for. -/
  sessions : String → Option String
  clock : DateTime
  /-- What was emitted on the event bus. -/
  events : List ApiKeyIssued

/-! ## Requests -/

inductive AuthExc where
  | http (status : Nat) (detail : String)
  | sessionBackendUnavailable
  | attributeError
  | typeError
  | uniqueViolation
  | foreignKeyViolation
  | exception (msg : String)
  deriving DecidableEq, Repr

inductive AuthReq where
  | utcnow
  | enforceApiKeyAttempt (ipKey : String)
  | recordApiKeyFailure (ipKey : String)
  | recordApiKeySuccess (ipKey : String)
  | getApiKeyByHash (keyHash : String)
  | getApiKeyForUser (userId : String)
  | upsertApiKey (apiKey : ApiKey)
  | updateApiKey (apiKey : ApiKey)
  | getUser (userId : String)
  | resolveUser (sessionToken : String)
  | emit (event : ApiKeyIssued)
  deriving DecidableEq

@[reducible] def AuthReply : AuthReq → Type
  | .utcnow => DateTime
  | .getApiKeyByHash _ | .getApiKeyForUser _ => Option ApiKey
  | .upsertApiKey _ | .updateApiKey _ => ApiKey
  | .getUser _ => Option User
  | .resolveUser _ => Option String
  | _ => Unit

abbrev AuthProg (α : Type) := Program AuthReply AuthExc α

abbrev ask (r : AuthReq) : AuthProg (AuthReply r) := Program.perform r

open Program

/-! ## authenticated_principal -/

structure ResolvedPrincipal where
  user : User
  rawApiKey : Option String
  deriving DecidableEq, Repr

/-- The token of `Authorization: Bearer <token>`, if there is one. -/
def bearerToken (lib : UrlLib) (request : Request) : Option String :=
  let (scheme, _, token) := partition ' ' (request.header "authorization")
  if lib.lower scheme = "bearer" && token ≠ "" then some token else none

def notAllowed : AuthExc := .http 403 "User is not allowed to authenticate."

/-- The bearer branch. -/
def authenticateBearer (lib : AuthLib) (settings : WebSettings) (request : Request) (token : String) :
    AuthProg (Option ResolvedPrincipal) := do
  let ipKey := authRateLimitIpKey lib.toUrlLib request settings
  ask (.enforceApiKeyAttempt ipKey)
  let found ← (ask (.getApiKeyByHash (lib.sha256 token)) : AuthProg (Option ApiKey))
  match found with
  | none => do
    ask (.recordApiKeyFailure ipKey)
    raise (.http 401 "Invalid API key.")
  | some apiKey => do
    let user ← (ask (.getUser apiKey.userId) : AuthProg (Option User))
    match user.filter (!·.suspended) with
    | none => do
      ask (.recordApiKeyFailure ipKey)
      raise notAllowed
    | some user => do
      ask (.recordApiKeySuccess ipKey)
      let now ← (ask .utcnow : AuthProg DateTime)
      let _ ← (ask (.updateApiKey { apiKey with lastUsedAt := some now }) : AuthProg ApiKey)
      return some { user := user, rawApiKey := some token }

/-- What is returned or raised when nobody was found. -/
def nobody (required : Bool) (detail : String) : AuthProg (Option ResolvedPrincipal) :=
  if required then raise (.http 401 detail) else return none

/-- The session branch, of a cookie that is not empty. -/
def authenticateSession (sessionToken : String) (required : Bool) : AuthProg (Option ResolvedPrincipal) := do
  let resolved ← attempt (ask (.resolveUser sessionToken) : AuthProg (Option String))
  match resolved with
  | .error .sessionBackendUnavailable => nobody required "Invalid session."
  | .error e => raise e
  | .ok userId =>
    match userId.filter (· != "") with
    | none => nobody required "Authentication required."
    | some userId => do
      let user ← (ask (.getUser userId) : AuthProg (Option User))
      match user with
      | none => nobody required "Invalid session."
      | some user => if user.suspended then raise notAllowed else return some { user := user, rawApiKey := none }

/-- `settings` is that of `request.app.state.imghost`, if the application has one. -/
def authenticatedPrincipal (lib : AuthLib) (settings : Option WebSettings) (request : Request) (required : Bool) :
    AuthProg (Option ResolvedPrincipal) :=
  match settings with
  | none => raise .attributeError
  | some settings =>
    match bearerToken lib.toUrlLib request with
    | some token => authenticateBearer lib settings request token
    | none =>
      match (request.cookies.lookup settings.sessionCookieName).filter (· != "") with
      | some sessionToken => authenticateSession sessionToken required
      | none => nobody required "Authentication required."

/-! ## issue_api_key -/

structure ApiKeyIssueResult where
  apiKey : ApiKey
  rawKey : String
  deriving DecidableEq, Repr

/-- With the raw key that `token_hex` draws and the id that `uuid4` draws. -/
def issueApiKey (lib : AuthLib) (user : User) (correlationId actorId : Option String) (source rawKey keyId : String) :
    AuthProg ApiKeyIssueResult := do
  let existing ← (ask (.getApiKeyForUser user.id) : AuthProg (Option ApiKey))
  let now ← (ask .utcnow : AuthProg DateTime)
  let apiKey : ApiKey :=
    { id := keyId, userId := user.id, keyHash := lib.sha256 rawKey, createdAt := now, lastUsedAt := none }
  let _ ← (ask (.upsertApiKey apiKey) : AuthProg ApiKey)
  match correlationId with
  | none => pure ()
  | some correlationId =>
    ask (.emit { userId := user.id, actorId := some (actorId.getD user.id), replacedExisting := existing.isSome,
                 source := source, correlationId := correlationId })
  return { apiKey := apiKey, rawKey := rawKey }

/-! ## What a call does -/

namespace ApiKeys

variable (t : ApiKeys)

def byHash (keyHash : String) : Option ApiKey := t.rows.find? (·.keyHash == keyHash)
def ofUser (userId : String) : Option ApiKey := t.rows.find? (·.userId == userId)

/-- The table with other rows, unless they break a constraint. -/
def commit (rows : List ApiKey) : Except AuthExc ApiKeys :=
  if h : UniqueKeys rows then .ok ⟨rows, h⟩ else .error .uniqueViolation

/-- `INSERT … ON CONFLICT (user_id) DO UPDATE`. -/
def upsert (k : ApiKey) : Except AuthExc ApiKeys :=
  commit (if t.rows.any (·.userId == k.userId) then t.rows.map fun r => if r.userId == k.userId then k else r
    else t.rows ++ [k])

/-- `UPDATE … WHERE id`; the reply is the row, and reading the row of none raises `TypeError`. -/
def update (k : ApiKey) : Except AuthExc ApiKeys :=
  if t.rows.any (·.id == k.id) then commit (t.rows.map fun r => if r.id == k.id then k else r) else .error .typeError

end ApiKeys

/-- The reply `k` with the rows of `written`, or its exception and the rows as they were. -/
def storeKeys (w : AuthWorld) (k : ApiKey) (written : Except AuthExc ApiKeys) : Except AuthExc ApiKey × AuthWorld :=
  match written with
  | .ok t => (.ok k, { w with apiKeys := t })
  | .error e => (.error e, w)

def exec : (r : AuthReq) → AuthWorld → Except AuthExc (AuthReply r) × AuthWorld
  | .utcnow, w => (.ok w.clock, w)
  | .enforceApiKeyAttempt _, w | .recordApiKeyFailure _, w | .recordApiKeySuccess _, w => (.ok (), w)
  | .getApiKeyByHash keyHash, w => (.ok (w.apiKeys.byHash keyHash), w)
  | .getApiKeyForUser userId, w => (.ok (w.apiKeys.ofUser userId), w)
  | .upsertApiKey k, w =>
    if (w.users.find? k.userId).isNone then (.error .foreignKeyViolation, w) else storeKeys w k (w.apiKeys.upsert k)
  | .updateApiKey k, w => storeKeys w k (w.apiKeys.update k)
  | .getUser userId, w => (.ok (w.users.find? userId), w)
  | .resolveUser token, w => (.ok (w.sessions token), w)
  | .emit event, w => (.ok (), { w with events := w.events ++ [event] })

/-- The calls the environment can make raise: all but the clock and the event bus. -/
def fallible : AuthReq → Bool
  | .utcnow | .emit _ => false
  | _ => true

def backend : Backend AuthReply AuthExc AuthWorld where
  exec _ r w := exec r w
  fail _ r e w := if fallible r then (.error e, w) else exec r w
  blocked _ _ _ := false
  elapse d w := { w with clock := w.clock + d }

end Imghost.Auth
