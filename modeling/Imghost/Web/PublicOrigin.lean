/-
  Imghost.Web.PublicOrigin — the origin a URL is built on, and the address of the client.

  The service may stand behind a proxy that reports the public origin and the client in
  headers. With the gate on (`trusted_proxy_cidrs_enabled`) these headers count only when
  the peer is in a configured network.

  (1) What an untrusted peer sends changes neither the forwarded protocol, nor the client's
  address, nor the keys of the rate limiters, nor whether a source is trusted against CSRF,
  nor the base URL: unless the origin in its headers cannot be split.
  `public_base_url` reads it to log that it was ignored, and `urlsplit` may raise
  (`untrusted_headers_change_nothing_iff`, `an_ignored_host_raises`).

  (2) With `public_origin_enabled` the base URL is a configured origin or the fallback,
  whatever the request.
-/

import Imghost.Web.Url

namespace Imghost.Web

open Imghost.Model Imghost.Data

/-! ## Requests and settings -/

/-- What `request.url` has of the URL the framework builds from the scheme, the `Host` header and
    the path. -/
structure RequestUrl where
  scheme : String
  netloc : String
  path : String
  deriving DecidableEq, Repr

structure Request where
  method : String
  /-- Names in lower case; of two headers with one name the first counts. -/
  headers : List (String × String)
  cookies : List (String × String)
  /-- `request.client.host`; `none` when there is no `request.client`. -/
  client : Option String
  /-- Splitting `request.url` may raise, for the `Host` header in it. -/
  url : Except UrlExc RequestUrl
  deriving DecidableEq

structure WebSettings where
  baseUrl : String
  publicOriginEnabled : Bool
  trustedPublicOrigins : List String
  trustedProxyCidrsEnabled : Bool
  trustedProxyCidrs : List String
  sessionCookieName : String
  deriving DecidableEq

/-- `request.headers.get(name, "")`. -/
def Request.header (request : Request) (name : String) : String := (request.headers.lookup name).getD ""

variable (lib : UrlLib)

/-! ## public_origin.py -/

/-- The end of `_normalize_origin`: the host and the port of a URL that is nothing but an origin. -/
def originOf (parsed : SplitResult) : Option String :=
  let host := lib.lower (strip ((parsed.hostname lib).getD ""))
  if host = "" || ['/', '?', '#', '@'].any (hasChar · host) then none
  else
    match parsed.port with
    | .error _ => none
    | .ok port =>
      let port := if (parsed.scheme = "http" && port = some 80) || (parsed.scheme = "https" && port = some 443) then none else port
      let netloc := match port with
        | none => host
        | some port => host ++ ":" ++ toString port
      some (parsed.scheme ++ "://" ++ netloc)

def normalizeOrigin (origin : String) : Except UrlExc (Option String) :=
  let candidate := strip origin
  if candidate = "" then .ok none
  else
    match urlsplit lib candidate with
    | .error e => .error e
    | .ok parsed =>
      if parsed.scheme ≠ "http" ∧ parsed.scheme ≠ "https" then .ok none
      else if truthy parsed.userinfo.1 || truthy parsed.userinfo.2 || !(["", "/"].contains parsed.path) || parsed.query ≠ "" ||
          parsed.fragment ≠ "" then .ok none
      else .ok (originOf lib parsed)

/-- The members of the set `_trusted_origin_set` returns. -/
def trustedOriginSet (settings : WebSettings) : Except UrlExc (List String) := do
  let configured ← settings.trustedPublicOrigins.mapM (normalizeOrigin lib)
  let fallback ← normalizeOrigin lib settings.baseUrl
  return configured.filterMap id ++ fallback.toList

/-- `_header_first_value`. -/
def headerFirstValue (request : Request) (headerName : String) : String := strip (partition ',' (request.header headerName)).1

/-- `_request_peer_host`. -/
def requestPeerHost (request : Request) : Option String :=
  match request.client with
  | none => none
  | some host => if strip host = "" then none else some (strip host)

def requestUsesTrustedProxyHeaders (request : Request) (settings : WebSettings) : Bool :=
  if !settings.trustedProxyCidrsEnabled then true
  else
    match requestPeerHost request with
    | none => false
    | some peerHost =>
      match lib.ipAddress peerHost with
      | none => false
      | some peerIp => settings.trustedProxyCidrs.any (lib.inNetwork peerIp)

/-- The first of the headers whose first value is an address. -/
def firstAddress (request : Request) (headerNames : List String) : Option String :=
  headerNames.findSome? fun headerName =>
    let value := headerFirstValue request headerName
    if value = "" then none else (lib.ipAddress value).map lib.str

def trustedForwardedClientIp (request : Request) (settings : WebSettings) : Option String :=
  if !requestUsesTrustedProxyHeaders lib request settings then none
  else firstAddress lib request ["cf-connecting-ip", "x-real-ip", "x-forwarded-for"]

/-- `_request_origin`. -/
def requestOrigin (request : Request) : Except UrlExc (Option String) :=
  match request.url with
  | .error e => .error e
  | .ok url =>
    let scheme := lib.lower (strip url.scheme)
    let host := strip (request.header "host")
    let host := if host = "" && url.netloc ≠ "" then url.netloc else host
    if scheme = "" || host = "" then .ok none else normalizeOrigin lib (scheme ++ "://" ++ host)

/-- `_forwarded_origin`. -/
def forwardedOrigin (request : Request) : Except UrlExc (Option String) :=
  let proto := lib.lower (headerFirstValue request "x-forwarded-proto")
  let host := headerFirstValue request "x-forwarded-host"
  if proto = "" || host = "" then .ok none else normalizeOrigin lib (proto ++ "://" ++ host)

def trustedForwardedOrigin (request : Request) (settings : WebSettings) : Except UrlExc (Option String) :=
  if !requestUsesTrustedProxyHeaders lib request settings then .ok none else forwardedOrigin lib request

def trustedForwardedProto (request : Request) (settings : WebSettings) : Option String :=
  if !requestUsesTrustedProxyHeaders lib request settings then none
  else
    let proto := lib.lower (headerFirstValue request "x-forwarded-proto")
    if proto = "" then none else some proto

/-- `_normalize_origin(settings.base_url) or settings.base_url`. -/
def fallbackOrigin (settings : WebSettings) : Except UrlExc String := do
  let fallback ← normalizeOrigin lib settings.baseUrl
  return strOr fallback settings.baseUrl

/-- A warning, whose text has the path of the request. -/
def logWarning (request : Request) (shouldLog : Bool) : Except UrlExc Unit :=
  if shouldLog then request.url.map fun _ => () else .ok ()

/-- The first `if` of `public_base_url`: forwarded headers that are ignored are logged. -/
def warnIgnoredHeaders (shouldLog : String → String → Bool) (request : Request) (settings : WebSettings)
    (forwarded : Option String) : Except UrlExc Unit :=
  match forwarded with
  | some _ => .ok ()
  | none => do
    let ignored ← forwardedOrigin lib request
    logWarning request (ignored.isSome && settings.trustedProxyCidrsEnabled &&
      shouldLog "proxy_peer" (strOr (requestPeerHost request) "unknown"))

/-- A candidate that is trusted, or the fallback and a warning. -/
def trustedOr (trusted : List String) (candidate fallback : String) (request : Request) (shouldLog : Bool) : Except UrlExc String :=
  if trusted.contains candidate then .ok candidate else (logWarning request shouldLog).map fun _ => fallback

/-- `shouldLog` is `telemetry.should_log_untrusted_origin`, or always true without telemetry. -/
def publicBaseUrl (shouldLog : String → String → Bool) (request : Request) (settings : WebSettings) : Except UrlExc String := do
  let trusted ← trustedOriginSet lib settings
  let fallback ← fallbackOrigin lib settings
  let forwarded ← trustedForwardedOrigin lib request settings
  warnIgnoredHeaders lib shouldLog request settings forwarded
  match forwarded with
  | some forwarded =>
    if !settings.publicOriginEnabled then return forwarded
    else trustedOr trusted forwarded fallback request (shouldLog "forwarded" forwarded)
  | none =>
    match ← requestOrigin lib request with
    | none => return fallback
    | some requestOrigin =>
      if !settings.publicOriginEnabled then return requestOrigin
      else trustedOr trusted requestOrigin fallback request (shouldLog "request" requestOrigin)

/-! ## request_helpers.py -/

def clientIp (request : Request) (settings : WebSettings) : String :=
  match trustedForwardedClientIp lib request settings with
  | some forwarded => forwarded
  | none => strOr request.client "unknown"

def authRateLimitIpKey (request : Request) (settings : WebSettings) : String := clientIp lib request settings

/-- With the id of the user, if there is one. -/
def uploadRateLimitKey (request : Request) (settings : WebSettings) (userId : Option String) : String :=
  match userId with
  | some userId => userId
  | none => clientIp lib request settings

/-! ## csrf.py: where a request comes from -/

/-- `_referer_origin`. -/
def refererOrigin (referer : Option String) : Except UrlExc (Option String) :=
  let candidate := strip (referer.getD "")
  if candidate = "" then .ok none
  else
    match urlsplit lib candidate with
    | .error e => .error e
    | .ok parsed =>
      if parsed.scheme = "" || parsed.netloc = "" then .ok none
      else normalizeOrigin lib (parsed.scheme ++ "://" ++ parsed.netloc)

/-- The origins `_has_trusted_csrf_source` accepts. -/
def csrfTrustedOrigins (request : Request) (settings : WebSettings) : Except UrlExc (List String) := do
  let trusted ← trustedOriginSet lib settings
  if settings.publicOriginEnabled then return trusted
  else
    let directRequestOrigin ← requestOrigin lib request
    let forwardedOrigin ← trustedForwardedOrigin lib request settings
    return trusted ++ directRequestOrigin.toList ++ forwardedOrigin.toList

/-- The origin of the `Origin` header, else that of the `Referer`. -/
def csrfSource (request : Request) : Except UrlExc (Option String) := do
  match ← normalizeOrigin lib (request.header "origin") with
  | some origin => return some origin
  | none => refererOrigin lib (request.headers.lookup "referer")

/-- `_has_trusted_csrf_source`. -/
def hasTrustedCsrfSource (request : Request) (settings : WebSettings) : Except UrlExc Bool := do
  let trusted ← csrfTrustedOrigins lib request settings
  let source ← csrfSource lib request
  return source.any trusted.contains

/-! ## Two requests that differ in what a proxy reports -/

def forwardedHeaders : List String :=
  ["x-forwarded-proto", "x-forwarded-host", "x-forwarded-for", "x-real-ip", "cf-connecting-ip"]

structure SameButForwarded (r₁ r₂ : Request) : Prop where
  method : r₁.method = r₂.method
  headers : ∀ name, name ∉ forwardedHeaders → r₁.headers.lookup name = r₂.headers.lookup name
  cookies : r₁.cookies = r₂.cookies
  client : r₁.client = r₂.client
  url : r₁.url = r₂.url

/-- The peer's address is absent, no address, or outside every configured network. -/
def UntrustedPeer (request : Request) (settings : WebSettings) : Prop :=
  ∀ peerHost peerIp, requestPeerHost request = some peerHost → lib.ipAddress peerHost = some peerIp →
    ∀ cidr ∈ settings.trustedProxyCidrs, lib.inNetwork peerIp cidr = false

/-- Everything the service derives from a request is the same for both. -/
structure SameAnswers (log₁ log₂ : String → String → Bool) (settings : WebSettings) (r₁ r₂ : Request) : Prop where
  base_url : publicBaseUrl lib log₁ r₁ settings = publicBaseUrl lib log₂ r₂ settings
  proto : trustedForwardedProto lib r₁ settings = trustedForwardedProto lib r₂ settings
  client_ip : clientIp lib r₁ settings = clientIp lib r₂ settings
  auth_key : authRateLimitIpKey lib r₁ settings = authRateLimitIpKey lib r₂ settings
  upload_key : ∀ userId, uploadRateLimitKey lib r₁ settings userId = uploadRateLimitKey lib r₂ settings userId
  csrf : hasTrustedCsrfSource lib r₁ settings = hasTrustedCsrfSource lib r₂ settings

/-- A URL that was returned is a configured origin or the fallback. -/
def Configured (settings : WebSettings) (result : Except UrlExc String) : Prop :=
  ∀ url, result = .ok url → fallbackOrigin lib settings = .ok url ∨
    ∃ origin ∈ settings.trustedPublicOrigins, normalizeOrigin lib origin = .ok (some url)

/-- What is asked of two requests, in any state of the telemetry. -/
structure HeadersHaveNoInfluence (log₁ log₂ : String → String → Bool) (settings : WebSettings) (r₁ r₂ : Request) : Prop where
  untrusted : settings.trustedProxyCidrsEnabled = true → SameButForwarded r₁ r₂ → UntrustedPeer lib r₁ settings →
    UntrustedPeer lib r₂ settings → SameAnswers lib log₁ log₂ settings r₁ r₂
  configured : settings.publicOriginEnabled = true → Configured lib settings (publicBaseUrl lib log₁ r₁ settings)

def Raises {α : Type} (x : Except UrlExc α) : Prop := x = .error .valueError

/-- `urlsplit` takes the origin in the forwarded headers of both requests or of neither, or it
    does not take the configuration or the `Host` header of the requests. -/
def SplitAlike (settings : WebSettings) (r₁ r₂ : Request) : Prop :=
  Raises (trustedOriginSet lib settings) ∨ Raises (requestOrigin lib r₁) ∨
    (Raises (forwardedOrigin lib r₁) ↔ Raises (forwardedOrigin lib r₂))

variable {lib} {settings : WebSettings} {r₁ r₂ request : Request}

/-! ## An untrusted peer -/

theorem uses_of_untrusted (hgate : settings.trustedProxyCidrsEnabled = true) (h : UntrustedPeer lib request settings) :
    requestUsesTrustedProxyHeaders lib request settings = false := by
  unfold requestUsesTrustedProxyHeaders
  rw [hgate]
  simp only [Bool.not_true, Bool.false_eq_true, if_false]
  cases hpeer : requestPeerHost request with
  | none => rfl
  | some peerHost =>
    cases hip : lib.ipAddress peerHost with
    | none => simp [hip]
    | some peerIp =>
      simp only [hip, List.any_eq_false]
      intro cidr hcidr
      simp [h peerHost peerIp hpeer hip cidr hcidr]

theorem SameButForwarded.header (h : SameButForwarded r₁ r₂) {name : String} (hname : name ∉ forwardedHeaders) :
    r₁.header name = r₂.header name := by
  unfold Request.header
  rw [h.headers name hname]

theorem SameButForwarded.requestOrigin (h : SameButForwarded r₁ r₂) : requestOrigin lib r₁ = requestOrigin lib r₂ := by
  unfold Web.requestOrigin
  rw [h.url, h.header (by decide)]

theorem SameButForwarded.csrfSource (h : SameButForwarded r₁ r₂) : csrfSource lib r₁ = csrfSource lib r₂ := by
  unfold Web.csrfSource
  rw [h.header (by decide), h.headers "referer" (by decide)]

theorem raises_or_ok {α : Type} (x : Except UrlExc α) : Raises x ∨ ∃ a, x = .ok a := by
  cases x with
  | error e => cases e; exact Or.inl rfl
  | ok a => exact Or.inr ⟨a, rfl⟩

/-- The base URL of a request whose peer is untrusted, once everything could be split. -/
def chosenOrigin (settings : WebSettings) (trusted : List String) (fallback : String) (requestOrigin : Option String) : String :=
  match requestOrigin with
  | none => fallback
  | some requestOrigin => if !settings.publicOriginEnabled || trusted.contains requestOrigin then requestOrigin else fallback

theorem logWarning_ok {shouldLog : Bool} {o : Option String} (h : requestOrigin lib request = .ok o) :
    logWarning request shouldLog = .ok () := by
  unfold logWarning
  split
  · cases hurl : request.url with
    | error e => simp [requestOrigin, hurl] at h
    | ok url => rfl
  · rfl

theorem publicBaseUrl_untrusted {log : String → String → Bool} {trusted : List String} {fallback : String}
    {o : Option String} (hproxy : requestUsesTrustedProxyHeaders lib request settings = false)
    (htrusted : trustedOriginSet lib settings = .ok trusted) (hfallback : fallbackOrigin lib settings = .ok fallback)
    (horigin : requestOrigin lib request = .ok o) :
    publicBaseUrl lib log request settings =
      (forwardedOrigin lib request).map fun _ => chosenOrigin settings trusted fallback o := by
  have hforwarded : trustedForwardedOrigin lib request settings = .ok none := by simp [trustedForwardedOrigin, hproxy]
  simp only [publicBaseUrl, htrusted, hfallback, hforwarded, horigin, warnIgnoredHeaders, logWarning_ok horigin]
  rcases forwardedOrigin lib request with e | ignored
  · rfl
  · cases o with
    | none => rfl
    | some origin =>
      simp only [bind, Except.bind, Except.map, chosenOrigin, trustedOr, logWarning_ok horigin]
      cases settings.publicOriginEnabled
      · rfl
      · cases trusted.contains origin <;> rfl

theorem fallback_ok {trusted : List String} (h : trustedOriginSet lib settings = .ok trusted) :
    ∃ fallback, fallbackOrigin lib settings = .ok fallback := by
  rcases raises_or_ok (normalizeOrigin lib settings.baseUrl) with hbase | ⟨base, hbase⟩
  · rcases hconfigured : settings.trustedPublicOrigins.mapM (normalizeOrigin lib) with e | configured <;>
      simp [trustedOriginSet, hconfigured, show normalizeOrigin lib settings.baseUrl = _ from hbase, bind, Except.bind] at h
  · exact ⟨strOr base settings.baseUrl, by simp [fallbackOrigin, hbase, bind, Except.bind, pure, Except.pure]⟩

/-- What cannot be split of the configuration or of the `Host` header raises in any case. -/
theorem publicBaseUrl_raises {log : String → String → Bool}
    (hproxy : requestUsesTrustedProxyHeaders lib request settings = false)
    (h : Raises (trustedOriginSet lib settings) ∨ Raises (requestOrigin lib request)) :
    Raises (publicBaseUrl lib log request settings) := by
  have hforwarded : trustedForwardedOrigin lib request settings = .ok none := by simp [trustedForwardedOrigin, hproxy]
  unfold Raises at *
  rcases raises_or_ok (trustedOriginSet lib settings) with htrusted | ⟨trusted, htrusted⟩
  · simp only [publicBaseUrl, show trustedOriginSet lib settings = _ from htrusted]
    rfl
  · obtain ⟨fallback, hfallback⟩ := fallback_ok htrusted
    have horigin : requestOrigin lib request = .error .valueError := by simpa [htrusted] using h
    simp only [publicBaseUrl, htrusted, hfallback, hforwarded, horigin, warnIgnoredHeaders]
    rcases forwardedOrigin lib request with e | ignored
    · cases e
      rfl
    · -- whether the warning raises or the request's own origin after it
      simp only [bind, Except.bind]
      generalize logWarning request _ = warned
      rcases warned with e | _
      · cases e
        rfl
      · rfl

/-! ## The configured origins -/

theorem bind_ok {α β : Type} {x : Except UrlExc α} {f : α → Except UrlExc β} {b : β} (h : (x >>= f) = .ok b) :
    ∃ a, x = .ok a ∧ f a = .ok b := by
  cases x with
  | error e => cases h
  | ok a => exact ⟨a, rfl, h⟩

theorem mem_mapM_normalizeOrigin {origins : List String} {configured : List (Option String)}
    (h : origins.mapM (normalizeOrigin lib) = .ok configured) {origin : Option String} (hmem : origin ∈ configured) :
    ∃ o ∈ origins, normalizeOrigin lib o = .ok origin := by
  induction origins generalizing configured with
  | nil =>
    cases h
    simp at hmem
  | cons o origins ih =>
    rw [List.mapM_cons] at h
    obtain ⟨first, hfirst, h⟩ := bind_ok h
    obtain ⟨others, hothers, h⟩ := bind_ok h
    cases h
    rcases List.mem_cons.mp hmem with e | hmem
    · exact ⟨o, List.mem_cons_self, e ▸ hfirst⟩
    · obtain ⟨o', ho', hnorm⟩ := ih hothers hmem
      exact ⟨o', List.mem_cons_of_mem o ho', hnorm⟩

theorem originOf_ne_empty {parsed : SplitResult} {origin : String} (h : originOf lib parsed = some origin) : origin ≠ "" := by
  intro e
  subst e
  unfold originOf at h
  dsimp only at h
  split at h
  · cases h
  · split at h
    · cases h
    · have := congrArg String.length (Option.some.inj h)
      simp [String.length_append] at this

theorem normalizeOrigin_ne_empty {text origin : String} (h : normalizeOrigin lib text = .ok (some origin)) : origin ≠ "" := by
  unfold normalizeOrigin at h
  dsimp only at h
  split at h
  · cases h
  · split at h
    · cases h
    · split at h
      · cases h
      · split at h
        · cases h
        · exact originOf_ne_empty (Except.ok.inj h)

theorem mem_trustedOriginSet {trusted : List String} (h : trustedOriginSet lib settings = .ok trusted) {url : String}
    (hurl : url ∈ trusted) : fallbackOrigin lib settings = .ok url ∨
      ∃ origin ∈ settings.trustedPublicOrigins, normalizeOrigin lib origin = .ok (some url) := by
  obtain ⟨configured, hconfigured, h⟩ := bind_ok h
  obtain ⟨base, hbase, h⟩ := bind_ok h
  cases h
  rcases List.mem_append.mp hurl with hurl | hurl
  · obtain ⟨origin, hmem, horigin⟩ := List.mem_filterMap.mp hurl
    exact Or.inr (mem_mapM_normalizeOrigin hconfigured (horigin ▸ hmem))
  · left
    have hb : base = some url := by simpa using hurl
    subst hb
    simp [fallbackOrigin, hbase, strOr, normalizeOrigin_ne_empty hbase, bind, Except.bind, pure, Except.pure]

/-- With `public_origin_enabled` what is returned is the fallback or a member of the trusted set. -/
theorem publicBaseUrl_configured {log : String → String → Bool} (henabled : settings.publicOriginEnabled = true) :
    Configured lib settings (publicBaseUrl lib log request settings) := by
  intro url h
  obtain ⟨trusted, htrusted, h⟩ := bind_ok h
  obtain ⟨fallback, hfallback, h⟩ := bind_ok h
  obtain ⟨forwarded, hforwarded, h⟩ := bind_ok h
  obtain ⟨_, _, h⟩ := bind_ok h
  have hone : ∀ {candidate : String} {shouldLog : Bool},
      trustedOr trusted candidate fallback request shouldLog = .ok url → fallbackOrigin lib settings = .ok url ∨
        ∃ origin ∈ settings.trustedPublicOrigins, normalizeOrigin lib origin = .ok (some url) := by
    intro candidate shouldLog hchosen
    unfold trustedOr at hchosen
    split at hchosen
    · rename_i hmem
      cases hchosen
      exact mem_trustedOriginSet htrusted (by simpa using hmem)
    · rcases hwarned : logWarning request shouldLog with e | u <;> rw [hwarned] at hchosen <;> cases hchosen
      exact Or.inl hfallback
  cases forwarded with
  | some forwarded =>
    simp only [henabled, Bool.not_true, Bool.false_eq_true, if_false] at h
    exact hone h
  | none =>
    obtain ⟨o, _, h⟩ := bind_ok h
    cases o with
    | none =>
      cases h
      exact Or.inl hfallback
    | some origin =>
      simp only [henabled, Bool.not_true, Bool.false_eq_true, if_false] at h
      exact hone h

/-! ## What an untrusted peer changes -/

theorem untrusted_headers_change_nothing_iff (lib : UrlLib) (log₁ log₂ : String → String → Bool) (settings : WebSettings)
    (r₁ r₂ : Request) : HeadersHaveNoInfluence lib log₁ log₂ settings r₁ r₂ ↔
      (settings.trustedProxyCidrsEnabled = true → SameButForwarded r₁ r₂ → UntrustedPeer lib r₁ settings →
        UntrustedPeer lib r₂ settings → SplitAlike lib settings r₁ r₂) := by
  constructor
  · intro h hgate hsame hu₁ hu₂
    have hanswers := h.untrusted hgate hsame hu₁ hu₂
    have hp₁ := uses_of_untrusted hgate hu₁
    have hp₂ := uses_of_untrusted hgate hu₂
    rcases raises_or_ok (trustedOriginSet lib settings) with htrusted | ⟨trusted, htrusted⟩
    · exact Or.inl htrusted
    · obtain ⟨fallback, hfallback⟩ := fallback_ok htrusted
      rcases raises_or_ok (requestOrigin lib r₁) with horigin | ⟨o, horigin⟩
      · exact Or.inr (Or.inl horigin)
      · have hurl := hanswers.base_url
        rw [publicBaseUrl_untrusted hp₁ htrusted hfallback horigin,
          publicBaseUrl_untrusted hp₂ htrusted hfallback (hsame.requestOrigin ▸ horigin)] at hurl
        refine Or.inr (Or.inr ?_)
        rcases raises_or_ok (forwardedOrigin lib r₁) with h₁ | ⟨a₁, h₁⟩ <;>
          rcases raises_or_ok (forwardedOrigin lib r₂) with h₂ | ⟨a₂, h₂⟩ <;> unfold Raises at * <;>
          simp [h₁, h₂, Except.map] at hurl ⊢
  · intro h
    refine ⟨fun hgate hsame hu₁ hu₂ => ?_, publicBaseUrl_configured⟩
    have hp₁ := uses_of_untrusted hgate hu₁
    have hp₂ := uses_of_untrusted hgate hu₂
    have hclient : clientIp lib r₁ settings = clientIp lib r₂ settings := by
      simp [clientIp, trustedForwardedClientIp, hp₁, hp₂, hsame.client]
    refine ⟨?_, ?_, hclient, hclient, ?_, ?_⟩
    · rcases raises_or_ok (trustedOriginSet lib settings) with htrusted | ⟨trusted, htrusted⟩
      · exact (publicBaseUrl_raises hp₁ (Or.inl htrusted)).trans (publicBaseUrl_raises hp₂ (Or.inl htrusted)).symm
      · obtain ⟨fallback, hfallback⟩ := fallback_ok htrusted
        rcases raises_or_ok (requestOrigin lib r₁) with horigin | ⟨o, horigin⟩
        · have horigin₂ : Raises (requestOrigin lib r₂) := hsame.requestOrigin ▸ horigin
          exact (publicBaseUrl_raises hp₁ (Or.inr horigin)).trans (publicBaseUrl_raises hp₂ (Or.inr horigin₂)).symm
        · rw [publicBaseUrl_untrusted hp₁ htrusted hfallback horigin,
            publicBaseUrl_untrusted hp₂ htrusted hfallback (hsame.requestOrigin ▸ horigin)]
          have halike : Raises (forwardedOrigin lib r₁) ↔ Raises (forwardedOrigin lib r₂) := by
            rcases h hgate hsame hu₁ hu₂ with h | h | h
            · simp [Raises, htrusted] at h
            · simp [Raises, horigin] at h
            · exact h
          rcases raises_or_ok (forwardedOrigin lib r₁) with h₁ | ⟨a₁, h₁⟩ <;>
            rcases raises_or_ok (forwardedOrigin lib r₂) with h₂ | ⟨a₂, h₂⟩ <;> unfold Raises at * <;>
            simp [h₁, h₂, Except.map] at halike ⊢
    · simp [trustedForwardedProto, hp₁, hp₂]
    · intro userId
      cases userId with
      | none => exact hclient
      | some userId => rfl
    · simp [hasTrustedCsrfSource, csrfTrustedOrigins, trustedForwardedOrigin, hp₁, hp₂, hsame.requestOrigin, hsame.csrfSource]

/-! ## A host that cannot be split -/

namespace OriginSample

/-- `ip_address` as far as the sample asks it: dotted numbers. -/
def dotted (text : String) : Option String := if text.toList.all fun c => c.isDigit || c == '.' then some text else none

/-- With networks of one address. -/
def sampleLib : UrlLib where
  lower text := String.ofList (text.toList.map Char.toLower)
  nfkc text := text
  IpAddress := String
  ipAddress := dotted
  isIPv4 _ := true
  str address := address
  inNetwork address cidr := address ++ "/32" == cidr

def sampleSettings : WebSettings where
  baseUrl := "https://fallback.example.com"
  publicOriginEnabled := true
  trustedPublicOrigins := ["https://trusted.example"]
  trustedProxyCidrsEnabled := true
  trustedProxyCidrs := ["127.0.0.1/32"]
  sessionCookieName := "session"

def direct : Request where
  method := "GET"
  headers := [("host", "backend")]
  cookies := []
  client := some "203.0.113.10"
  url := .ok { scheme := "http", netloc := "backend", path := "/" }

/-- The same request with a protocol and a host as a proxy would report them. -/
def spoofed : Request :=
  { direct with headers := ("x-forwarded-proto", "http") :: ("x-forwarded-host", "[") :: direct.headers }

theorem lookup_spoofed {name : String} (h : name ∉ forwardedHeaders) :
    direct.headers.lookup name = spoofed.headers.lookup name := by
  have hproto : (name == "x-forwarded-proto") = false := by
    simp only [beq_eq_false_iff_ne, ne_eq]
    intro e
    exact h (by simp [forwardedHeaders, e])
  have hhost : (name == "x-forwarded-host") = false := by
    simp only [beq_eq_false_iff_ne, ne_eq]
    intro e
    exact h (by simp [forwardedHeaders, e])
  simp [spoofed, List.lookup_cons, hproto, hhost]

theorem untrusted_client {request : Request} (hclient : request.client = some "203.0.113.10") :
    UntrustedPeer sampleLib request sampleSettings := by
  intro peerHost peerIp hpeer hip
  have hstrip : strip "203.0.113.10" = "203.0.113.10" := by decide +kernel
  have hhost : "203.0.113.10" = peerHost := by simpa [requestPeerHost, hclient, hstrip] using hpeer
  subst hhost
  have haddress : dotted "203.0.113.10" = some "203.0.113.10" := by decide +kernel
  obtain rfl := Option.some.inj (haddress.symm.trans hip)
  intro cidr hcidr
  obtain rfl := List.mem_singleton.mp hcidr
  decide +kernel

end OriginSample

open OriginSample in
/-- A direct request is answered with the fallback; with an ignored host `[` it raises. -/
theorem an_ignored_host_raises :
    publicBaseUrl sampleLib (fun _ _ => true) direct sampleSettings = .ok "https://fallback.example.com" ∧
      publicBaseUrl sampleLib (fun _ _ => true) spoofed sampleSettings = .error .valueError ∧
      ¬ HeadersHaveNoInfluence sampleLib (fun _ _ => true) (fun _ _ => true) sampleSettings direct spoofed := by
  have hdirect : publicBaseUrl sampleLib (fun _ _ => true) direct sampleSettings = .ok "https://fallback.example.com" := by
    decide +kernel
  have hspoofed : publicBaseUrl sampleLib (fun _ _ => true) spoofed sampleSettings = .error .valueError := by decide +kernel
  refine ⟨hdirect, hspoofed, fun h => ?_⟩
  have hsame : SameButForwarded direct spoofed := ⟨rfl, fun name hname => lookup_spoofed hname, rfl, rfl, rfl⟩
  have hurl := (h.untrusted rfl hsame (untrusted_client rfl) (untrusted_client rfl)).base_url
  rw [hdirect, hspoofed] at hurl
  cases hurl

end Imghost.Web
