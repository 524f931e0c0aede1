/-
  Imghost.OAuth.Callback — the routes of a sign-in with a provider: `_start_oauth` and
  `_oauth_callback`.

  A start stores a nonce with its PKCE verifier and sends the browser to the provider with a
  signed state; the callback that brings the state back deletes the nonce, sends the
  verifier with the provider's code, and goes on with the identity it gets: in the mode of
  the state it signs in, links the identity, or confirms that an account may be deleted.

  Who is signed in, what the provider and the session backend answer, is outside; so are
  the audit events. A call that raises has no effect.
-/

import Imghost.OAuth.Login
import Imghost.Tokens.Families
import Imghost.Web.NextPath
import Imghost.Web.Query

namespace Imghost.OAuth

open Imghost.Async Imghost.Data Imghost.Model Imghost.Service Imghost.Sessions Imghost.Tokens Imghost.Web Program

/-! ## Nonces -/

structure OAuthStateNonce where
  jti : String
  mode : String
  userId : Option String
  codeVerifier : String
  createdAt : DateTime
  expiresAt : DateTime
  deriving DecidableEq, Repr

structure FlowWorld where
  oauth : OAuthWorld
  nonces : Table OAuthStateNonce.jti

/-- `user_id UUID REFERENCES users(id) ON DELETE CASCADE`. -/
def FlowWorld.withOAuth (oauth : OAuthWorld) (w : FlowWorld) : FlowWorld where
  oauth := oauth
  nonces := w.nonces.deleteWhere fun nonce => nonce.userId.any fun userId => (oauth.base.users.find? userId).isNone

/-- What the routes ask of others, as it is answered in a world. -/
structure Outside where
  /-- `authenticated_user(request, required=False)`, by the cookies of the request. -/
  authenticatedUser : String → FlowWorld → Except PyExc (Option User)
  exchangeCode : String → String → String → String → FlowWorld → Except PyExc OAuthIdentity
  allowRegistration : FlowWorld → Except PyExc Bool
  /-- `create_session`; none if it raises `SessionBackendUnavailable`. -/
  createSession : String → FlowWorld → Except PyExc (Option (String × Option DateTime))

inductive FlowReq where
  | authenticatedUser (cookies : String)
  | deleteExpiredOauthStateNonces
  | createOauthStateNonce (nonce : OAuthStateNonce)
  | consumeOauthStateNonce (jti : String)
  | exchangeCode (provider code redirectUri codeVerifier : String)
  | allowRegistration
  | createSession (userId : String)
  deriving DecidableEq

@[reducible] def FlowReply : FlowReq → Type
  | .authenticatedUser _ => Option User
  | .deleteExpiredOauthStateNonces => Unit
  | .createOauthStateNonce _ => OAuthStateNonce
  | .consumeOauthStateNonce _ => Option OAuthStateNonce
  | .exchangeCode .. => OAuthIdentity
  | .allowRegistration => Bool
  | .createSession _ => Option (String × Option DateTime)

namespace FlowWorld

variable (w : FlowWorld)

def createOauthStateNonce (nonce : OAuthStateNonce) : Except PyExc OAuthStateNonce × FlowWorld :=
  match w.nonces.insert nonce with
  | none => (.error uniqueViolation, w)
  | some nonces =>
    if nonce.userId.any fun userId => (w.oauth.base.users.find? userId).isNone then (.error foreignKeyViolation, w)
    else (.ok nonce, { w with nonces := nonces })

/-- `DELETE FROM oauth_state_nonces WHERE jti = $1 AND expires_at > now() RETURNING …`. -/
def consumeOauthStateNonce (jti : String) : Option OAuthStateNonce × FlowWorld :=
  let hit (nonce : OAuthStateNonce) : Bool := nonce.jti == jti && w.oauth.base.clock < nonce.expiresAt
  ((w.nonces.find? jti).filter hit, { w with nonces := w.nonces.deleteWhere hit })

end FlowWorld

variable (outside : Outside)

def execFlow : (r : FlowReq) → FlowWorld → Except PyExc (FlowReply r) × FlowWorld
  | .authenticatedUser cookies, w => (outside.authenticatedUser cookies w, w)
  | .deleteExpiredOauthStateNonces, w =>
    (.ok (), { w with nonces := w.nonces.deleteWhere fun nonce => nonce.expiresAt ≤ w.oauth.base.clock })
  | .createOauthStateNonce nonce, w => w.createOauthStateNonce nonce
  | .consumeOauthStateNonce jti, w => let a := w.consumeOauthStateNonce jti; (.ok a.1, a.2)
  | .exchangeCode provider code redirectUri codeVerifier, w =>
    (outside.exchangeCode provider code redirectUri codeVerifier w, w)
  | .allowRegistration, w => (outside.allowRegistration w, w)
  | .createSession userId, w => (outside.createSession userId w, w)

def nonceBackend : Backend FlowReply PyExc FlowWorld where
  exec _ := execFlow outside
  fail _ _ e w := (.error e, w)
  blocked _ _ _ := false
  elapse d w := w.withOAuth (oauthBackend.elapse d w.oauth)

abbrev FlowCallReq := OAuthReq ⊕ FlowReq
abbrev FlowCallReply : FlowCallReq → Type := Sum.elim OAuthReply FlowReply
abbrev FlowProg (α : Type) := Program FlowCallReply PyExc α

def flowBackend : Backend FlowCallReply PyExc FlowWorld :=
  (oauthBackend.lift FlowWorld.oauth FlowWorld.withOAuth).extend (nonceBackend outside)

abbrev askOAuth (r : OAuthReq) : FlowProg (OAuthReply r) := @Program.perform FlowCallReq FlowCallReply PyExc (.inl r)
abbrev askFlow (r : FlowReq) : FlowProg (FlowReply r) := @Program.perform FlowCallReq FlowCallReply PyExc (.inr r)

abbrev flowNow : FlowProg DateTime := askOAuth (.inl .utcnow)

/-! ## Responses -/

inductive Cookie where
  | session (token : String) (expiresAt : Option DateTime)
  | deleteReauth (token : String)
  deriving DecidableEq, Repr

inductive RedirectResponse where
  /-- To `provider.authorization_url(…)`, with `S256`. -/
  | authorization (provider redirectUri state codeChallenge : String)
  | redirect (location : String) (cookie : Option Cookie)
  deriving DecidableEq, Repr

/-- `_query_redirect`. -/
def queryRedirect (path : String) (params : List (String × String)) (cookie : Option Cookie) : RedirectResponse :=
  let filtered := params.filter (·.2 ≠ "")
  .redirect (if filtered = [] then path else path ++ "?" ++ urlencode filtered) cookie

structure FlowLib extends OAuthLib where
  sessions : SessionLib
  url : UrlLib
  secretKey : String
  /-- The keys of `oauth_providers`. -/
  providers : List String
  /-- `build_code_challenge`. -/
  codeChallenge : String → String

variable (lib : FlowLib)

def callbackUrl (baseUrl provider : String) : String := baseUrl ++ "/auth/" ++ provider ++ "/callback"

def oauthRedirectMessage (provider suffix : String) : String := providerLabel lib.toOAuthLib provider ++ " " ++ suffix

/-- `normalize_next_path`. -/
def nextPathOr (next : Option String) (default : String) : Except PyExc String :=
  match normalizeNextPath lib.url next default with
  | .ok path => .ok path
  | .error _ => .error (.valueError "")

/-! ## _start_oauth -/

/-- A request to `/auth/{provider}/start`, with what `uuid4` and `generate_code_verifier` draw. -/
structure StartCall where
  provider : String
  next : Option String
  mode : String
  cookies : String
  /-- `public_base_url(request, settings)`. -/
  baseUrl : Except PyExc String
  jti : String
  codeVerifier : String

/-- The modes of a request that is signed in. -/
def bound (mode : String) : Bool := mode == "link" || mode == "delete_account"

def startMode (mode : String) : String :=
  let mode := lib.lower (strip (strOr (some mode) "login"))
  if mode == "login" || bound mode then mode else "login"

def defaultPath (mode : String) : String := if mode = "login" then "/dashboard" else "/settings"

/-- `login_redirect(path)`. -/
def loginRedirect (path : String) : RedirectResponse := queryRedirect "/login" [("next", path)] none

/-- The user a flow is bound to. -/
def boundUser (mode : String) (user : Option User) : Option String := if bound mode then user.map (·.id) else none

def startOauth (c : StartCall) : FlowProg RedirectResponse := do
  raiseIf (!lib.providers.contains c.provider) (.http 404 "Not Found")
  let mode := startMode lib c.mode
  let nextPath ← ofExcept (nextPathOr lib c.next (defaultPath mode))
  let user ← askFlow (.authenticatedUser c.cookies)
  if bound mode = true ∧ user = none then return loginRedirect "/settings"
  else do
    let _ ← askFlow .deleteExpiredOauthStateNonces
    let createdAt ← flowNow
    let expiresAt ← flowNow
    let nonce ← askFlow (.createOauthStateNonce
      { jti := c.jti, mode := mode, userId := boundUser mode user, codeVerifier := c.codeVerifier, createdAt := createdAt,
        expiresAt := expiresAt + 600 * 1000000 })
    let now ← flowNow
    let state := OAuthStateManager.dumps lib.sessions lib.secretKey now
      { mode := mode, nextPath := nextPath, jti := nonce.jti, userId := boundUser mode user, createdAt := none }
    let baseUrl ← ofExcept c.baseUrl
    return .authorization c.provider (callbackUrl baseUrl c.provider) state (lib.codeChallenge c.codeVerifier)

/-! ## _oauth_callback -/

/-- A request to `/auth/{provider}/callback`, with the ids `uuid4` draws for an account and a link. -/
structure CallbackCall where
  provider : String
  state : Option String
  code : Option String
  error : Option String
  cookies : String
  baseUrl : Except PyExc String
  correlationId : String
  userId : String
  linkId : String

/-- Back to where the mode shows its errors. -/
def oauthRefused (mode nextPath message : String) : RedirectResponse :=
  if mode = "link" then queryRedirect "/settings" [("oauth_status", message), ("oauth_tone", "error")] none
  else if mode = "delete_account" then
    queryRedirect "/settings" [("delete_reauth_status", message), ("delete_reauth_tone", "error")] none
  else queryRedirect "/login" [("next", nextPath), ("oauth_error", message)] none

def unverified (provider : String) : RedirectResponse :=
  queryRedirect "/login" [("oauth_error", oauthRedirectMessage lib provider "sign-in could not be verified.")] none

/-- `issue_account_delete_reauth_token`. -/
def issueAccountDeleteReauthToken (user : User) (provider providerUid : String) : FlowProg String := do
  let existingLink ← askOAuth (.inr (.getUserSsoLink provider providerUid))
  raiseIf (!(existingLink : Option UserSsoLink).any (·.userId == user.id))
    (.http 403 "The selected OAuth account is not linked to this user.")
  let now ← flowNow
  return AccountDeleteReauthTokenManager.dumps lib.sessions lib.secretKey now
    { userId := user.id, provider := provider, providerUid := providerUid, createdAt := none }

/-- The body of the `try`: the response of a re-authentication, or the user that is signed in or linked. -/
def exchangeAndComplete (c : CallbackCall) (mode code codeVerifier : String) (currentUser : Option User) :
    FlowProg (RedirectResponse ⊕ User) := do
  let baseUrl ← ofExcept c.baseUrl
  let identity ← askFlow (.exchangeCode c.provider code (callbackUrl baseUrl c.provider) codeVerifier)
  if mode = "delete_account" then
    match currentUser with
    | none => raise (.exception "AssertionError")
    | some user => do
      let reauthToken ← issueAccountDeleteReauthToken lib user identity.provider identity.providerUid
      return .inl (queryRedirect "/settings"
        [("delete_reauth_status",
          providerLabel lib.toOAuthLib c.provider ++ " re-authentication confirmed. You can now delete your account."),
          ("delete_reauth_tone", "success")] (some (.deleteReauth reauthToken)))
  else do
    let allowRegistration ← askFlow .allowRegistration
    let (user, _) ← (completeOauthLogin lib.toOAuthLib identity currentUser allowRegistration (some c.correlationId) "web"
      c.userId c.linkId).widen
    return .inr user

def finishCallback (c : CallbackCall) (mode nextPath : String) : Except PyExc (RedirectResponse ⊕ User) → FlowProg RedirectResponse
  | .error (.http _ detail) => return oauthRefused mode nextPath detail
  | .error e => raise e
  | .ok (.inl response) => return response
  | .ok (.inr user) =>
    if mode = "link" then
      return queryRedirect "/settings"
        [("oauth_status", providerLabel lib.toOAuthLib c.provider ++ " account connected."), ("oauth_tone", "success")] none
    else do
      let session ← askFlow (.createSession user.id)
      match session with
      | none =>
        return queryRedirect "/login"
          [("oauth_error", oauthRedirectMessage lib c.provider "sign-in is temporarily unavailable.")] none
      | some (token, expiresAt) => return queryRedirect nextPath [] (some (.session token expiresAt))

/-- The callback once the nonce is consumed. -/
def callbackWithNonce (c : CallbackCall) (oauthState : OAuthStatePayload) (nonce : OAuthStateNonce) : FlowProg RedirectResponse := do
  let nextPath ← ofExcept (nextPathOr lib (some oauthState.nextPath) (defaultPath oauthState.mode))
  let currentUser ← askFlow (.authenticatedUser c.cookies)
  if bound oauthState.mode = true ∧ (currentUser = none ∨ (currentUser : Option User).map (·.id) ≠ oauthState.userId) then
    return oauthRefused oauthState.mode nextPath
      (if oauthState.mode = "link" then "Please sign in again before connecting " ++ providerLabel lib.toOAuthLib c.provider ++ "."
       else "Please sign in again before confirming account deletion with " ++ providerLabel lib.toOAuthLib c.provider ++ ".")
  else
    let currentUser := if oauthState.mode = "login" then none else currentUser
    if c.error.getD "" ≠ "" then
      return oauthRefused oauthState.mode nextPath (oauthRedirectMessage lib c.provider "sign-in was cancelled or denied.")
    else if c.code.getD "" = "" then
      return oauthRefused oauthState.mode nextPath (oauthRedirectMessage lib c.provider "sign-in did not return a code.")
    else do
      let result ← (exchangeAndComplete lib c oauthState.mode (c.code.getD "") nonce.codeVerifier currentUser).attempt
      finishCallback lib c oauthState.mode nextPath result

/-- The callback once its state is read. -/
def callbackWithState (c : CallbackCall) : Except TokenExc (Option OAuthStatePayload) → FlowProg RedirectResponse
  | .error _ => raise (.exception "")
  | .ok none => return unverified lib c.provider
  | .ok (some oauthState) => do
    let nonce ← askFlow (.consumeOauthStateNonce oauthState.jti)
    match nonce with
    | none => return unverified lib c.provider
    | some nonce => callbackWithNonce lib c oauthState nonce

def oauthCallback (c : CallbackCall) : FlowProg RedirectResponse := do
  raiseIf (!lib.providers.contains c.provider) (.http 404 "Not Found")
  let now ← flowNow
  callbackWithState lib c (oauthCallbackState lib.sessions lib.secretKey now 600 c.state)

end Imghost.OAuth
