/-
  Imghost.Auth.Csrf — which requests the CSRF gate lets through.

  `enforce_session_csrf` stands before every handler. It lets a changing request pass when
  it carries a bearer token or no session cookie, and otherwise asks where it comes from.
  `authenticated_principal` decides the same two questions again when it looks for the
  principal; the gate covers cookies only if both agree.

  - A request that passes comes from a trusted origin, or resolves to the same principal
    under every session cookie, or carries none and resolves to nobody
    (`let_through_covers_cookies`).
  - The third case is one of its own: a request without a cookie passes, and would act as
    the user of a cookie if it had one (`a_request_without_a_cookie_passes`).
-/

import Imghost.Auth.Principal

namespace Imghost.Auth

open Imghost.Async Imghost.Data Imghost.Model Imghost.Web Program

/-! ## csrf.py -/

/-- `_request_uses_bearer_auth`. -/
def requestUsesBearerAuth (lib : UrlLib) (request : Request) : Bool :=
  let (scheme, _, token) := partition ' ' (request.header "authorization")
  lib.lower scheme = "bearer" && token ≠ ""

def changingMethods : List String := ["POST", "PATCH", "DELETE"]

def openPaths : List String := ["/api/v1/auth/login", "/api/v1/auth/register"]

/-- `enforce_session_csrf`: whether the request is handed on. -/
def enforceSessionCsrf (lib : UrlLib) (settings : Option WebSettings) (request : Request) : Except UrlExc Bool :=
  if !changingMethods.contains request.method then .ok true
  else
    match request.url with
    | .error e => .error e
    | .ok url =>
      if openPaths.contains url.path then .ok true
      else
        match settings with
        | none => .ok true
        | some settings =>
          if requestUsesBearerAuth lib request then .ok true
          else if !truthy (request.cookies.lookup settings.sessionCookieName) then .ok true
          else hasTrustedCsrfSource lib request settings

/-! ## What the gate is for -/

/-- The request with another value of a cookie, or without it. -/
def withCookie (name : String) (request : Request) (value : Option String) : Request :=
  let others := request.cookies.filter (·.1 != name)
  { request with cookies := match value with
      | some value => (name, value) :: others
      | none => others }

/-- The `Origin` header, or the `Referer` when that is no origin, names a trusted origin. -/
def TrustedSource (lib : UrlLib) (settings : Option WebSettings) (request : Request) : Prop :=
  ∃ s trusted origin, settings = some s ∧ csrfTrustedOrigins lib request s = .ok trusted ∧ origin ∈ trusted ∧
    (normalizeOrigin lib (request.header "origin") = .ok (some origin) ∨
      normalizeOrigin lib (request.header "origin") = .ok none ∧
        refererOrigin lib (request.headers.lookup "referer") = .ok (some origin))

/-- Whatever the session cookie, the same calls are made and the same principal or exception comes
    out of the same replies. -/
def SamePrincipal (lib : AuthLib) (settings : Option WebSettings) (request : Request) : Prop :=
  ∀ name, (∀ s, settings = some s → name = s.sessionCookieName) → ∀ value value' required,
    authenticatedPrincipal lib settings (withCookie name request value) required =
      authenticatedPrincipal lib settings (withCookie name request value') required

/-- The request has no session cookie, and nobody is resolved. -/
def CarriesNoCookie (lib : AuthLib) (settings : Option WebSettings) (request : Request) : Prop :=
  ∃ s, settings = some s ∧ truthy (request.cookies.lookup s.sessionCookieName) = false ∧
    ∀ required, authenticatedPrincipal lib settings request required = nobody required "Authentication required."

/-! ## The two readings of a request agree -/

variable {lib : AuthLib} {settings : Option WebSettings} {request : Request}

/-- The gate and the authenticator take the same requests for bearer requests. -/
theorem requestUsesBearerAuth_iff (lib : UrlLib) (request : Request) :
    requestUsesBearerAuth lib request = true ↔ ∃ token, bearerToken lib request = some token := by
  simp only [requestUsesBearerAuth, bearerToken]
  split
  · rename_i h
    exact iff_of_true h ⟨_, rfl⟩
  · rename_i h
    refine iff_of_false h ?_
    intro ⟨token, htoken⟩
    cases htoken

theorem authenticatedPrincipal_bearer {s : WebSettings} {token : String} (h : bearerToken lib.toUrlLib request = some token)
    (required : Bool) : authenticatedPrincipal lib (some s) request required = authenticateBearer lib s request token := by
  simp only [authenticatedPrincipal, h]

theorem bearer_ignores_the_cookie {s : WebSettings} {token : String} (h : bearerToken lib.toUrlLib request = some token)
    (name : String) (value : Option String) (required : Bool) :
    authenticatedPrincipal lib (some s) (withCookie name request value) required = authenticateBearer lib s request token := by
  have hsame : bearerToken lib.toUrlLib (withCookie name request value) = some token := h
  exact authenticatedPrincipal_bearer hsame required

theorem no_cookie_no_principal {s : WebSettings} (hbearer : requestUsesBearerAuth lib.toUrlLib request = false)
    (hcookie : truthy (request.cookies.lookup s.sessionCookieName) = false) (required : Bool) :
    authenticatedPrincipal lib (some s) request required = nobody required "Authentication required." := by
  have hnone : bearerToken lib.toUrlLib request = none := by
    rw [Option.eq_none_iff_forall_ne_some]
    intro token htoken
    rw [(requestUsesBearerAuth_iff _ _).mpr ⟨token, htoken⟩] at hbearer
    cases hbearer
  have hfilter : (request.cookies.lookup s.sessionCookieName).filter (· != "") = none := by
    cases hlookup : request.cookies.lookup s.sessionCookieName with
    | none => rfl
    | some value => simpa [hlookup] using hcookie
  simp only [authenticatedPrincipal, hnone, hfilter]

theorem trusted_of_csrf_source {s : WebSettings} (h : hasTrustedCsrfSource lib.toUrlLib request s = .ok true) :
    TrustedSource lib.toUrlLib (some s) request := by
  obtain ⟨trusted, htrusted, h⟩ := bind_ok h
  obtain ⟨source, hsource, h⟩ := bind_ok h
  cases source with
  | none => cases h
  | some origin =>
    have hmem : origin ∈ trusted := by
      have : trusted.contains origin = true := Except.ok.inj h
      simpa using this
    refine ⟨s, trusted, origin, rfl, htrusted, hmem, ?_⟩
    obtain ⟨o, ho, hsource⟩ := bind_ok hsource
    cases o with
    | none => exact Or.inr ⟨ho, hsource⟩
    | some o =>
      cases hsource
      exact Or.inl ho

/-- A changing request that passes the gate comes from a trusted origin, or has the same principal
    under every session cookie, or has no cookie and no principal. -/
theorem let_through_covers_cookies (lib : AuthLib) (settings : Option WebSettings) (request : Request)
    (hmethod : request.method ∈ changingMethods) (hpath : ∀ url, request.url = .ok url → url.path ∉ openPaths)
    (hpass : enforceSessionCsrf lib.toUrlLib settings request = .ok true) :
    TrustedSource lib.toUrlLib settings request ∨ SamePrincipal lib settings request ∨ CarriesNoCookie lib settings request := by
  have hchanging : changingMethods.contains request.method = true := by simpa using hmethod
  unfold enforceSessionCsrf at hpass
  rw [hchanging] at hpass
  cases hurl : request.url with
  | error e =>
    rw [hurl] at hpass
    cases hpass
  | ok url =>
    have hclosed : openPaths.contains url.path = false := by simpa using hpath url hurl
    rw [hurl] at hpass
    simp only [hclosed, Bool.not_true, Bool.false_eq_true, if_false] at hpass
    cases settings with
    | none => exact Or.inr (Or.inl fun _ _ _ _ _ => rfl)
    | some s =>
      cases hbearer : requestUsesBearerAuth lib.toUrlLib request with
      | true =>
        obtain ⟨token, htoken⟩ := (requestUsesBearerAuth_iff _ _).mp hbearer
        right; left
        intro name _ value value' required
        rw [bearer_ignores_the_cookie htoken, bearer_ignores_the_cookie htoken]
      | false =>
        cases hcookie : truthy (request.cookies.lookup s.sessionCookieName) with
        | false => exact Or.inr (Or.inr ⟨s, rfl, hcookie, no_cookie_no_principal hbearer hcookie⟩)
        | true =>
          simp only [hbearer, hcookie, Bool.not_true, Bool.false_eq_true, if_false] at hpass
          exact Or.inl (trusted_of_csrf_source hpass)

namespace CsrfSample

def sampleLib : AuthLib := { OriginSample.sampleLib with sha256 := fun text => text }

/-- A request to delete an album, without a cookie and from nowhere. -/
def deletion : Request where
  method := "DELETE"
  headers := [("host", "backend")]
  cookies := []
  client := some "203.0.113.10"
  url := .ok { scheme := "http", netloc := "backend", path := "/api/v1/albums/a" }

def alice : User where
  id := "alice"
  username := "alice"
  email := "alice@example.com"
  passwordHash := none
  isAdmin := false
  suspended := false
  quotaBytes := none
  rateLimitRpm := none
  rateLimitBph := none
  createdAt := 0
  updatedAt := 0

def world : AuthWorld where
  apiKeys := ⟨[], by decide⟩
  users := .single alice
  sessions token := if token = "token" then some "alice" else none
  clock := 0
  events := []

/-- What the request resolves to with a session cookie, or without one. -/
def resolved (cookie : Option String) : Except AuthExc (Option ResolvedPrincipal) :=
  (runAlone backend (authenticatedPrincipal sampleLib (some OriginSample.sampleSettings)
    (withCookie "session" deletion cookie) false) [] world).1

end CsrfSample

open CsrfSample in
theorem let_through_covers_cookies_here :
    TrustedSource sampleLib.toUrlLib (some OriginSample.sampleSettings) deletion ∨
      SamePrincipal sampleLib (some OriginSample.sampleSettings) deletion ∨
      CarriesNoCookie sampleLib (some OriginSample.sampleSettings) deletion := by
  refine let_through_covers_cookies sampleLib (some OriginSample.sampleSettings) deletion (by decide) ?_ (by decide +kernel)
  intro url hurl
  cases hurl
  decide

open CsrfSample in
/-- The request passes, comes from no trusted origin, and is nobody's without a cookie and a
    user's with one. -/
theorem a_request_without_a_cookie_passes :
    enforceSessionCsrf sampleLib.toUrlLib (some OriginSample.sampleSettings) deletion = .ok true ∧
      resolved none = .ok none ∧ resolved (some "token") = .ok (some { user := alice, rawApiKey := none }) ∧
      ¬ (TrustedSource sampleLib.toUrlLib (some OriginSample.sampleSettings) deletion ∨
        SamePrincipal sampleLib (some OriginSample.sampleSettings) deletion) := by
  have hnone : resolved none = .ok none := by decide +kernel
  have hcookie : resolved (some "token") = .ok (some { user := alice, rawApiKey := none }) := by decide +kernel
  refine ⟨by decide +kernel, hnone, hcookie, ?_⟩
  intro h
  rcases h with ⟨s, trusted, origin, _, _, _, horigin | ⟨_, hreferer⟩⟩ | hsame
  · have hempty : normalizeOrigin sampleLib.toUrlLib (deletion.header "origin") = .ok none := by decide +kernel
    rw [hempty] at horigin
    cases horigin
  · have hempty : refererOrigin sampleLib.toUrlLib (deletion.headers.lookup "referer") = .ok none := by decide +kernel
    rw [hempty] at hreferer
    cases hreferer
  · have hruns : resolved none = resolved (some "token") := by
      unfold resolved
      rw [hsame "session" (fun s hs => by cases hs; rfl) none (some "token") false]
    rw [hnone, hcookie] at hruns
    cases hruns

end Imghost.Auth
