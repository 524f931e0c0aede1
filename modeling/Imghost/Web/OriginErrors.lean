/-
  Imghost.Web.OriginErrors — which headers and settings make `public_base_url` or
  `_has_trusted_csrf_source` raise.

  Both give texts to `urlsplit` without a guard, where the port of the result and the
  address of the peer have one. `Splits` is the condition on one text: `normalize_returns_iff`,
  `referer_returns_iff` and the others give it for each function that splits one.

  - `origins_never_raise_iff`: neither raises exactly when every text that is consulted can
    be split.
  - `an_open_bracket_raises`: a mutating request with the origin `http://[`.
-/

import Imghost.Web.PublicOrigin

namespace Imghost.Web

open Imghost.Model

/-- The call returns. -/
def Returns {α : Type} (x : Except UrlExc α) : Prop := ∃ a, x = .ok a

section

variable {α β : Type}

@[simp] theorem returns_ok (a : α) : Returns (.ok a : Except UrlExc α) := ⟨a, rfl⟩

@[simp] theorem not_returns_error (e : UrlExc) : ¬ Returns (.error e : Except UrlExc α) := by
  rintro ⟨a, h⟩
  cases h

theorem returns_bind {x : Except UrlExc α} {f : α → Except UrlExc β} :
    Returns (x >>= f) ↔ ∃ a, x = .ok a ∧ Returns (f a) := by
  cases x with
  | error e =>
    constructor
    · intro h
      exact absurd h (not_returns_error e)
    · rintro ⟨a, h, -⟩
      cases h
  | ok a =>
    constructor
    · intro h
      exact ⟨a, rfl, h⟩
    · rintro ⟨a', h, hf⟩
      cases h
      exact hf

@[simp] theorem returns_map {x : Except UrlExc α} {f : α → β} : Returns (x.map f) ↔ Returns x := by
  cases x with
  | error e => simp [Except.map]
  | ok a => simp [Except.map]

end

variable (lib : UrlLib)

/-! ## Texts that can be split -/

/-- `urlsplit` takes the text, or there is nothing in it to split. -/
def Splits (text : String) : Prop := strip text = "" ∨ Returns (urlsplit lib (strip text))

/-- The scheme and the host of `request.url` and the `Host` header. -/
def DirectSplits (request : Request) : Prop :=
  ∃ url, request.url = .ok url ∧
    let scheme := lib.lower (strip url.scheme)
    let host := strip (request.header "host")
    let host := if host = "" && url.netloc ≠ "" then url.netloc else host
    scheme = "" ∨ host = "" ∨ Splits lib (scheme ++ "://" ++ host)

/-- The forwarded protocol and host. -/
def ForwardedSplits (request : Request) : Prop :=
  let proto := lib.lower (headerFirstValue request "x-forwarded-proto")
  let host := headerFirstValue request "x-forwarded-host"
  proto = "" ∨ host = "" ∨ Splits lib (proto ++ "://" ++ host)

/-- The `Referer`, and the origin cut from it. -/
def RefererSplits (referer : Option String) : Prop :=
  let candidate := strip (referer.getD "")
  candidate = "" ∨ ∃ parsed, urlsplit lib candidate = .ok parsed ∧
    (parsed.scheme = "" ∨ parsed.netloc = "" ∨ Splits lib (parsed.scheme ++ "://" ++ parsed.netloc))

/-- Everything that is consulted of the settings and the request can be split: what the
    request itself asks for only where it may be used, and its path only where an origin
    that is not trusted is logged. -/
structure EverythingSplits (shouldLog : String → String → Bool) (settings : WebSettings) (request : Request) : Prop where
  configured : ∀ origin ∈ settings.trustedPublicOrigins, Splits lib origin
  base_url : Splits lib settings.baseUrl
  forwarded : ForwardedSplits lib request
  origin : Splits lib (request.header "origin")
  referer : normalizeOrigin lib (request.header "origin") = .ok none → RefererSplits lib (request.headers.lookup "referer")
  direct : settings.publicOriginEnabled = false ∨ trustedForwardedOrigin lib request settings = .ok none → DirectSplits lib request
  logged : settings.publicOriginEnabled = true → ∀ candidate trusted,
    trustedForwardedOrigin lib request settings = .ok (some candidate) → trustedOriginSet lib settings = .ok trusted →
    trusted.contains candidate = false → shouldLog "forwarded" candidate = true → Returns request.url

variable {lib} {settings : WebSettings} {request : Request} {shouldLog : String → String → Bool}

/-! ## Each function that splits one -/

theorem normalize_returns_iff {text : String} : Returns (normalizeOrigin lib text) ↔ Splits lib text := by
  unfold normalizeOrigin Splits
  dsimp only
  split
  · rename_i hempty
    simp [hempty]
  · rename_i htext
    cases urlsplit lib (strip text) with
    | error e => simp [htext]
    | ok parsed =>
      simp only [htext, false_or, returns_ok, iff_true]
      split
      · exact returns_ok none
      · split
        · exact returns_ok none
        · exact returns_ok _

/-- An origin of two parts is split only where both are there. -/
theorem returns_unless_empty {a b : String} {x : Except UrlExc (Option String)} {P : Prop} (h : Returns x ↔ P) :
    Returns (if a = "" || b = "" then .ok none else x) ↔ a = "" ∨ b = "" ∨ P := by
  by_cases ha : a = ""
  · simp [ha]
  · by_cases hb : b = ""
    · simp [hb]
    · simp [ha, hb, h]

theorem direct_returns_iff : Returns (requestOrigin lib request) ↔ DirectSplits lib request := by
  unfold requestOrigin DirectSplits
  cases request.url with
  | error e => simp
  | ok url =>
    dsimp only
    rw [returns_unless_empty normalize_returns_iff]
    constructor
    · intro h
      exact ⟨url, rfl, h⟩
    · rintro ⟨url', hurl, h⟩
      cases hurl
      exact h

theorem forwarded_returns_iff : Returns (forwardedOrigin lib request) ↔ ForwardedSplits lib request :=
  returns_unless_empty normalize_returns_iff

theorem referer_returns_iff {referer : Option String} : Returns (refererOrigin lib referer) ↔ RefererSplits lib referer := by
  unfold refererOrigin RefererSplits
  dsimp only
  split
  · rename_i hempty
    simp [hempty]
  · rename_i hcandidate
    cases urlsplit lib (strip (referer.getD "")) with
    | error e => simp [hcandidate]
    | ok parsed =>
      dsimp only
      rw [returns_unless_empty normalize_returns_iff]
      constructor
      · intro h
        exact .inr ⟨parsed, rfl, h⟩
      · rintro (hempty | ⟨parsed', hparsed, h⟩)
        · exact absurd hempty hcandidate
        · cases hparsed
          exact h

theorem mapM_returns_iff {origins : List String} :
    Returns (origins.mapM (normalizeOrigin lib)) ↔ ∀ origin ∈ origins, Splits lib origin := by
  induction origins with
  | nil => simp [pure, Except.pure]
  | cons origin origins ih =>
    rw [List.mapM_cons, returns_bind, List.forall_mem_cons, ← normalize_returns_iff, ← ih]
    constructor
    · rintro ⟨first, hfirst, h⟩
      obtain ⟨others, hothers, -⟩ := returns_bind.mp h
      exact ⟨⟨first, hfirst⟩, ⟨others, hothers⟩⟩
    · rintro ⟨⟨first, hfirst⟩, ⟨others, hothers⟩⟩
      exact ⟨first, hfirst, returns_bind.mpr ⟨others, hothers, returns_ok _⟩⟩

theorem trusted_returns_iff : Returns (trustedOriginSet lib settings) ↔
    (∀ origin ∈ settings.trustedPublicOrigins, Splits lib origin) ∧ Splits lib settings.baseUrl := by
  rw [trustedOriginSet, returns_bind, ← mapM_returns_iff, ← normalize_returns_iff]
  constructor
  · rintro ⟨configured, hconfigured, h⟩
    obtain ⟨fallback, hfallback, -⟩ := returns_bind.mp h
    exact ⟨⟨configured, hconfigured⟩, ⟨fallback, hfallback⟩⟩
  · rintro ⟨⟨configured, hconfigured⟩, ⟨fallback, hfallback⟩⟩
    exact ⟨configured, hconfigured, returns_bind.mpr ⟨fallback, hfallback, returns_ok _⟩⟩

theorem source_returns_iff : Returns (csrfSource lib request) ↔
    Splits lib (request.header "origin") ∧
      (normalizeOrigin lib (request.header "origin") = .ok none → RefererSplits lib (request.headers.lookup "referer")) := by
  rw [csrfSource, returns_bind, ← normalize_returns_iff, ← referer_returns_iff]
  constructor
  · rintro ⟨origin, horigin, h⟩
    refine ⟨⟨origin, horigin⟩, fun hnone => ?_⟩
    cases horigin.symm.trans hnone
    exact h
  · rintro ⟨⟨origin, horigin⟩, h⟩
    refine ⟨origin, horigin, ?_⟩
    cases origin with
    | none => exact h horigin
    | some origin => exact returns_ok _

/-! ## The two functions -/

theorem trustedForwarded_returns_iff : Returns (trustedForwardedOrigin lib request settings) ↔
    (requestUsesTrustedProxyHeaders lib request settings = true → Returns (forwardedOrigin lib request)) := by
  unfold trustedForwardedOrigin
  cases requestUsesTrustedProxyHeaders lib request settings <;> simp

theorem trustedForwarded_of_some {candidate : String} (h : trustedForwardedOrigin lib request settings = .ok (some candidate)) :
    forwardedOrigin lib request = .ok (some candidate) := by
  unfold trustedForwardedOrigin at h
  split at h
  · cases h
  · exact h

theorem csrf_returns_iff : Returns (hasTrustedCsrfSource lib request settings) ↔
    Returns (trustedOriginSet lib settings) ∧
      (settings.publicOriginEnabled = false →
        Returns (requestOrigin lib request) ∧ Returns (trustedForwardedOrigin lib request settings)) ∧
      Returns (csrfSource lib request) := by
  have horigins : Returns (csrfTrustedOrigins lib request settings) ↔
      Returns (trustedOriginSet lib settings) ∧ (settings.publicOriginEnabled = false →
        Returns (requestOrigin lib request) ∧ Returns (trustedForwardedOrigin lib request settings)) := by
    rw [csrfTrustedOrigins, returns_bind]
    cases settings.publicOriginEnabled with
    | true =>
      simp only [if_true, Bool.true_eq_false, false_imp_iff, and_true]
      constructor
      · rintro ⟨trusted, htrusted, -⟩
        exact ⟨trusted, htrusted⟩
      · rintro ⟨trusted, htrusted⟩
        exact ⟨trusted, htrusted, returns_ok _⟩
    | false =>
      simp only [Bool.false_eq_true, if_false, forall_const]
      constructor
      · rintro ⟨trusted, htrusted, h⟩
        obtain ⟨direct, hdirect, h⟩ := returns_bind.mp h
        obtain ⟨forwarded, hforwarded, -⟩ := returns_bind.mp h
        exact ⟨⟨trusted, htrusted⟩, ⟨direct, hdirect⟩, ⟨forwarded, hforwarded⟩⟩
      · rintro ⟨⟨trusted, htrusted⟩, ⟨direct, hdirect⟩, ⟨forwarded, hforwarded⟩⟩
        exact ⟨trusted, htrusted, returns_bind.mpr ⟨direct, hdirect, returns_bind.mpr ⟨forwarded, hforwarded, returns_ok _⟩⟩⟩
  rw [hasTrustedCsrfSource, returns_bind, ← and_assoc, ← horigins]
  constructor
  · rintro ⟨trusted, htrusted, h⟩
    obtain ⟨source, hsource, -⟩ := returns_bind.mp h
    exact ⟨⟨trusted, htrusted⟩, ⟨source, hsource⟩⟩
  · rintro ⟨⟨trusted, htrusted⟩, ⟨source, hsource⟩⟩
    exact ⟨trusted, htrusted, returns_bind.mpr ⟨source, hsource, returns_ok _⟩⟩

theorem logWarning_returns_iff {logged : Bool} : Returns (logWarning request logged) ↔ (logged = true → Returns request.url) := by
  unfold logWarning
  cases logged <;> simp

theorem trustedOr_returns_iff {trusted : List String} {candidate fallback : String} {logged : Bool} :
    Returns (trustedOr trusted candidate fallback request logged) ↔
      (trusted.contains candidate = false → logged = true → Returns request.url) := by
  unfold trustedOr
  cases trusted.contains candidate <;> simp [logWarning_returns_iff]

theorem baseUrl_returns_iff : Returns (publicBaseUrl lib shouldLog request settings) ↔
    Returns (trustedOriginSet lib settings) ∧ Returns (forwardedOrigin lib request) ∧
      (trustedForwardedOrigin lib request settings = .ok none → Returns (requestOrigin lib request)) ∧
      (settings.publicOriginEnabled = true → ∀ candidate trusted,
        trustedForwardedOrigin lib request settings = .ok (some candidate) → trustedOriginSet lib settings = .ok trusted →
        trusted.contains candidate = false → shouldLog "forwarded" candidate = true → Returns request.url) := by
  constructor
  · intro h
    obtain ⟨trusted, htrusted, h⟩ := returns_bind.mp h
    obtain ⟨fallback, -, h⟩ := returns_bind.mp h
    obtain ⟨forwarded, hforwarded, h⟩ := returns_bind.mp h
    obtain ⟨_, hwarned, h⟩ := returns_bind.mp h
    refine ⟨⟨trusted, htrusted⟩, ?_, ?_, ?_⟩
    · cases forwarded with
      | some candidate => exact ⟨_, trustedForwarded_of_some hforwarded⟩
      | none =>
        obtain ⟨ignored, hignored, -⟩ := returns_bind.mp ⟨_, hwarned⟩
        exact ⟨ignored, hignored⟩
    · intro hnone
      cases hforwarded.symm.trans hnone
      obtain ⟨origin, horigin, -⟩ := returns_bind.mp h
      exact ⟨origin, horigin⟩
    · intro henabled candidate trusted' hsome htrusted'
      cases hforwarded.symm.trans hsome
      cases htrusted.symm.trans htrusted'
      simp only [henabled, Bool.not_true, Bool.false_eq_true, if_false] at h
      exact trustedOr_returns_iff.mp h
  · rintro ⟨⟨trusted, htrusted⟩, ⟨ignored, hignored⟩, hdirect, hlogged⟩
    obtain ⟨fallback, hfallback⟩ := fallback_ok htrusted
    obtain ⟨forwarded, hforwarded⟩ := trustedForwarded_returns_iff.mpr fun _ => ⟨ignored, hignored⟩
    refine returns_bind.mpr ⟨trusted, htrusted, returns_bind.mpr ⟨fallback, hfallback, returns_bind.mpr ⟨forwarded, hforwarded, ?_⟩⟩⟩
    cases forwarded with
    | some candidate =>
      refine returns_bind.mpr ⟨(), rfl, ?_⟩
      dsimp only
      cases henabled : settings.publicOriginEnabled with
      | false => exact returns_ok candidate
      | true => exact trustedOr_returns_iff.mpr (hlogged henabled candidate trusted hforwarded htrusted)
    | none =>
      obtain ⟨origin, horigin⟩ := hdirect hforwarded
      have hwarned : ∀ logged, logWarning request logged = .ok () := fun _ => logWarning_ok horigin
      refine returns_bind.mpr ⟨(), ?_, returns_bind.mpr ⟨origin, horigin, ?_⟩⟩
      · simp only [warnIgnoredHeaders, hignored, bind, Except.bind, hwarned]
      · cases origin with
        | none => exact returns_ok fallback
        | some origin =>
          dsimp only
          cases settings.publicOriginEnabled with
          | false => exact returns_ok origin
          | true =>
            refine trustedOr_returns_iff.mpr fun _ hlog => ?_
            exact logWarning_returns_iff.mp ⟨(), hwarned true⟩ rfl

/-- Whatever the settings and the headers, and whether an origin is logged or not. -/
theorem origins_never_raise_iff (lib : UrlLib) (shouldLog : String → String → Bool) (settings : WebSettings)
    (request : Request) :
    (∃ url, publicBaseUrl lib shouldLog request settings = .ok url) ∧
        (∃ trusted, hasTrustedCsrfSource lib request settings = .ok trusted) ↔
      EverythingSplits lib shouldLog settings request := by
  have hbase := @baseUrl_returns_iff lib settings request shouldLog
  have hcsrf := @csrf_returns_iff lib settings request
  rw [trusted_returns_iff, direct_returns_iff, forwarded_returns_iff] at hbase
  rw [trusted_returns_iff, direct_returns_iff, trustedForwarded_returns_iff, forwarded_returns_iff, source_returns_iff] at hcsrf
  constructor
  · rintro ⟨hurl, htrusted⟩
    obtain ⟨⟨hconfigured, hbaseUrl⟩, hforwarded, hdirect, hlogged⟩ := hbase.mp hurl
    obtain ⟨-, hrequest, horigin, hreferer⟩ := hcsrf.mp htrusted
    refine ⟨hconfigured, hbaseUrl, hforwarded, horigin, hreferer, ?_, hlogged⟩
    rintro (hdisabled | hnone)
    · exact (hrequest hdisabled).1
    · exact hdirect hnone
  · intro h
    refine ⟨hbase.mpr ⟨⟨h.configured, h.base_url⟩, h.forwarded, fun hnone => h.direct (.inr hnone), h.logged⟩, hcsrf.mpr ?_⟩
    exact ⟨⟨h.configured, h.base_url⟩, fun hdisabled => ⟨h.direct (.inl hdisabled), fun _ => h.forwarded⟩, h.origin, h.referer⟩

namespace OriginSample

/-- A mutating request from the page that `origin` names. -/
def posted (origin : String) : Request := { direct with method := "POST", headers := ("origin", origin) :: direct.headers }

end OriginSample

open OriginSample in
/-- From the service's own origin the request is let through; from `http://[` it raises. -/
theorem an_open_bracket_raises :
    hasTrustedCsrfSource sampleLib (posted "https://fallback.example.com") sampleSettings = .ok true ∧
      publicBaseUrl sampleLib (fun _ _ => true) (posted "http://[") sampleSettings = .ok "https://fallback.example.com" ∧
      hasTrustedCsrfSource sampleLib (posted "http://[") sampleSettings = .error .valueError := by
  decide +kernel

end Imghost.Web
