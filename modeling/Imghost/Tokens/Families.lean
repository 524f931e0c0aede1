/-
  Imghost.Tokens.Families — one key, four kinds of tokens.

  Sessions, OAuth states, re-authentications for account deletion and ShareX confirmations
  are signed with the same key and carry no mark of their kind. What keeps them apart is
  the fields each verifier insists on: `session_id`; `provider_uid`; `selector`. The
  verifier of OAuth states insists on none but `created_at`, so it takes a fresh token of
  any kind; what it reads has no `jti`, and the callback refuses such a state.

  - No verifier but that of OAuth states takes a token of another family; the callback
    takes none either (`families_are_separate`).
  - The verifier of OAuth states takes a ShareX confirmation
    (`a_confirmation_passes_for_a_state`).
-/

import Imghost.Tokens.Hostile
import Imghost.Tokens.RoundTrip

namespace Imghost.Tokens

open Imghost.Model Imghost.Sessions

inductive Family where
  | session
  | oauthState
  | deleteReauth
  | sharexConfirmation
  deriving DecidableEq, Repr

variable (lib : SessionLib)

/-! ## The issuers -/

/-- A dictionary, dumped and signed. -/
def dumpsSigned (secretKey : String) (values : List (String × Json)) : String :=
  let payloadBytes := (lib.dumpsSorted (.dict values)).toUTF8.toList
  encodeToken payloadBytes (lib.hmacSha256 secretKey payloadBytes)

/-- `values["created_at"] or utcnow().isoformat()`. -/
def createdAtOrNow (now : DateTime) (createdAt : Option String) : Json := .str (strOr createdAt (lib.isoformat now))

def optionalStr (value : Option String) : Json := value.elim .null .str

def SessionPayload.values (payload : SessionPayload) (store : String) : List (String × Json) :=
  [("session_id", .str payload.sessionId), ("user_id", .str payload.userId), ("created_at", .str payload.createdAt),
    ("expires_at", optionalStr payload.expiresAt), ("store", .str store)]

def OAuthStatePayload.values (payload : OAuthStatePayload) (now : DateTime) : List (String × Json) :=
  [("mode", .str payload.mode), ("next_path", .str payload.nextPath), ("jti", .str payload.jti),
    ("user_id", optionalStr payload.userId), ("created_at", createdAtOrNow lib now payload.createdAt)]

def AccountDeleteReauthPayload.values (payload : AccountDeleteReauthPayload) (now : DateTime) : List (String × Json) :=
  [("user_id", .str payload.userId), ("provider", .str payload.provider), ("provider_uid", .str payload.providerUid),
    ("created_at", createdAtOrNow lib now payload.createdAt)]

def ShareXDeleteConfirmationPayload.values (payload : ShareXDeleteConfirmationPayload) (now : DateTime) :
    List (String × Json) :=
  [("selector", .str payload.selector), ("album_id", .str payload.albumId), ("user_id", .str payload.userId),
    ("created_at", createdAtOrNow lib now payload.createdAt)]

def OAuthStateManager.dumps (secretKey : String) (now : DateTime) (payload : OAuthStatePayload) : String :=
  dumpsSigned lib secretKey (payload.values lib now)

def AccountDeleteReauthTokenManager.dumps (secretKey : String) (now : DateTime) (payload : AccountDeleteReauthPayload) :
    String :=
  dumpsSigned lib secretKey (payload.values lib now)

def ShareXDeleteTokenManager.dumpsConfirmation (secretKey : String) (now : DateTime)
    (payload : ShareXDeleteConfirmationPayload) : String :=
  dumpsSigned lib secretKey (payload.values lib now)

/-- What an issuer was given. -/
inductive Minted where
  | session (payload : SessionPayload) (store : String)
  | oauthState (payload : OAuthStatePayload)
  | deleteReauth (payload : AccountDeleteReauthPayload)
  | sharexConfirmation (payload : ShareXDeleteConfirmationPayload)

def Minted.family : Minted → Family
  | .session _ _ => .session
  | .oauthState _ => .oauthState
  | .deleteReauth _ => .deleteReauth
  | .sharexConfirmation _ => .sharexConfirmation

def Minted.values (now : DateTime) : Minted → List (String × Json)
  | .session payload store => payload.values store
  | .oauthState payload => payload.values lib now
  | .deleteReauth payload => payload.values lib now
  | .sharexConfirmation payload => payload.values lib now

/-- The token the issuer gives out at `now`. -/
def Minted.token (settings : SessionSettings) (now : DateTime) : Minted → String
  | .session payload store => signPayload lib settings payload store
  | .oauthState payload => OAuthStateManager.dumps lib settings.secretKey now payload
  | .deleteReauth payload => AccountDeleteReauthTokenManager.dumps lib settings.secretKey now payload
  | .sharexConfirmation payload => ShareXDeleteTokenManager.dumpsConfirmation lib settings.secretKey now payload

/-! ## The verifiers -/

/-- The verifier of the family returns a payload. -/
def Accepts (secretKey : String) (now : DateTime) (maxAge : Int) (verifier : Family) (token : String) : Prop :=
  match verifier with
  | .session => ∃ payload, decodeSignedToken lib.toTokenLib secretKey now token = .ok (some payload)
  | .oauthState => ∃ payload, OAuthStateManager.loads lib.toTokenLib secretKey now maxAge token = .ok payload
  | .deleteReauth => ∃ payload, AccountDeleteReauthTokenManager.loads lib.toTokenLib secretKey now maxAge token = .ok payload
  | .sharexConfirmation =>
    ∃ payload, ShareXDeleteTokenManager.loadsConfirmation lib.toTokenLib secretKey now maxAge token = .ok payload

/-- The state `_oauth_callback` goes on with, if it does. -/
def oauthCallbackState (secretKey : String) (now : DateTime) (maxAge : Int) (state : Option String) :
    Except TokenExc (Option OAuthStatePayload) :=
  match OAuthStateManager.loads lib.toTokenLib secretKey now maxAge (strOr state "") with
  | .error e => if e.isValueError then .ok none else .error e
  | .ok oauthState => .ok (if oauthState.jti = "" then none else some oauthState)

/-- `json.loads` reads back the dictionary that `json.dumps` wrote. -/
def RoundTrips (values : List (String × Json)) : Prop :=
  ∃ loaded, lib.jsonLoads (lib.dumpsSorted (.dict values)) = .ok (.dict loaded) ∧
    ∀ name, loaded.lookup name = values.lookup name

variable {lib} {settings : SessionSettings} {minted : Minted} {mintedAt : DateTime}

/-! ## What a verifier reads -/

theorem token_eq : minted.token lib settings mintedAt = dumpsSigned lib settings.secretKey (minted.values lib mintedAt) := by
  cases minted <;> rfl

/-- Whatever is read from a token is what its issuer wrote. -/
theorem parsed_values (hjson : RoundTrips lib (minted.values lib mintedAt)) {json : Json}
    (h : verify lib.toTokenLib settings.secretKey (minted.token lib settings mintedAt) = .ok (some json)) :
    ∃ loaded, json = .dict loaded ∧ ∀ name, loaded.lookup name = (minted.values lib mintedAt).lookup name := by
  obtain ⟨payload, text, hsigned, htext, hloads⟩ := Hostile.verify_parsed.mp h
  rw [Hostile.Signed, token_eq, dumpsSigned] at hsigned
  have hpayload := congrArg Prod.fst (splitToken_encode_eq hsigned)
  simp only at hpayload
  rw [hpayload, decodeUtf8_encode] at htext
  obtain rfl := Except.ok.inj htext
  obtain ⟨loaded, hloaded, hlookup⟩ := hjson
  exact ⟨loaded, Except.ok.inj (hloads.symm.trans hloaded), hlookup⟩

theorem textField_missing {fields : List (String × Json)} {name : String} (h : fields.lookup name = none) :
    textField lib.toTokenLib fields name = "" := by
  simp only [textField, h]

/-- The text of a field that holds one. -/
theorem textField_str {lib : TokenLib} {fields : List (String × Json)} {name s : String} (hstr : ∀ s, lib.str (.str s) = s)
    (h : fields.lookup name = some (.str s)) : textField lib fields name = strip s := by
  rw [textField, h]
  by_cases hs : s = ""
  · subst hs
    rfl
  · have htruthy : truthy (some (.str s)) = true := by simpa [truthy] using hs
    simp only [htruthy, if_true, hstr]

/-- What a manager makes of a token whose payload is a dictionary with the fields it insists on. -/
theorem loads_parsed {β : Type} {m : Manager β} {secretKey token createdAt : String} {now : DateTime} {maxAge : Int}
    {fields : List (String × Json)} {fresh : Bool}
    (hparsed : verify lib.toTokenLib secretKey token = .ok (some (.dict fields)))
    (hcreated : textField lib.toTokenLib fields "created_at" = createdAt) (hne : createdAt ≠ "")
    (hrequired : "" ∉ m.required fields) (hfresh : freshEnough lib.toTokenLib now maxAge createdAt = .ok fresh) :
    m.loads lib.toTokenLib secretKey now maxAge token =
      if fresh then .ok (m.build fields) else .error (.valueError m.invalid) := by
  have hfilled : ¬ ((createdAt = "" || (m.required fields).contains "") = true) := by
    intro h
    have hor : createdAt = "" ∨ "" ∈ m.required fields := by simpa using h
    exact hor.elim hne hrequired
  unfold Manager.loads
  rw [hparsed]
  simp only [hcreated, if_neg hfilled, hfresh]
  cases fresh <;> rfl

/-- A manager that returned has read a dictionary with none of its required fields empty. -/
theorem loads_ok {β : Type} {m : Manager β} {secretKey token : String} {now : DateTime} {maxAge : Int} {payload : β}
    (h : m.loads lib.toTokenLib secretKey now maxAge token = .ok payload) :
    ∃ fields, verify lib.toTokenLib secretKey token = .ok (some (.dict fields)) ∧ "" ∉ m.required fields ∧
      payload = m.build fields := by
  unfold Manager.loads at h
  split at h
  · cases h
  · rename_i fields hverify
    dsimp only at h
    split at h
    · cases h
    · rename_i hpresent
      have hrequired : "" ∉ m.required fields := by
        intro hmem
        exact hpresent (by simp [hmem])
      split at h
      · cases h
      · cases h
      · exact ⟨fields, hverify, hrequired, (Except.ok.inj h).symm⟩
  · cases h

/-- The field a verifier insists on and no other issuer writes. -/
def Family.mark : Family → String
  | .session => "session_id"
  | .oauthState => "jti"
  | .deleteReauth => "provider_uid"
  | .sharexConfirmation => "selector"

theorem mark_missing {verifier : Family} (hother : verifier ≠ minted.family) :
    (minted.values lib mintedAt).lookup verifier.mark = none := by
  cases minted <;> cases verifier <;> first
    | exact absurd rfl hother
    | simp [Minted.values, Family.mark, SessionPayload.values, OAuthStatePayload.values, AccountDeleteReauthPayload.values,
        ShareXDeleteConfirmationPayload.values, List.lookup_cons]

theorem session_rejects {now : DateTime} {payload : SessionPayload} (hjson : RoundTrips lib (minted.values lib mintedAt))
    (hother : Family.session ≠ minted.family) :
    decodeSignedToken lib.toTokenLib settings.secretKey now (minted.token lib settings mintedAt) ≠ .ok (some payload) := by
  intro h
  unfold decodeSignedToken at h
  split at h
  · cases h
  · rename_i fields hverify
    obtain ⟨loaded, hloaded, hlookup⟩ := parsed_values hjson hverify
    obtain rfl := Json.dict.inj hloaded
    have hmissing : fields.lookup "session_id" = none := (hlookup _).trans (mark_missing hother)
    have hnone : sessionPayload fields = none := by simp [sessionPayload, hmissing, nonEmptyStr]
    rw [hnone] at h
    split at h <;> cases h
  · cases h

/-- A manager that insists on its mark takes no token of another family. -/
theorem manager_rejects {β : Type} {m : Manager β} {verifier : Family} {now : DateTime} {maxAge : Int} {payload : β}
    (hjson : RoundTrips lib (minted.values lib mintedAt)) (hother : verifier ≠ minted.family)
    (hmark : ∀ fields : List (String × Json), fields.lookup verifier.mark = none → "" ∈ m.required fields) :
    m.loads lib.toTokenLib settings.secretKey now maxAge (minted.token lib settings mintedAt) ≠ .ok payload := by
  intro h
  obtain ⟨fields, hverify, hrequired, _⟩ := loads_ok h
  obtain ⟨loaded, hloaded, hlookup⟩ := parsed_values hjson hverify
  obtain rfl := Json.dict.inj hloaded
  exact hrequired (hmark fields ((hlookup _).trans (mark_missing hother)))

/-- What the verifier of OAuth states reads from a token of another family has no `jti`. -/
theorem oauth_reads_no_jti {now : DateTime} {maxAge : Int} {payload : OAuthStatePayload}
    (hjson : RoundTrips lib (minted.values lib mintedAt)) (hother : Family.oauthState ≠ minted.family)
    (h : OAuthStateManager.loads lib.toTokenLib settings.secretKey now maxAge (minted.token lib settings mintedAt) = .ok payload) :
    payload.jti = "" := by
  obtain ⟨fields, hverify, _, hbuild⟩ := loads_ok h
  obtain ⟨loaded, hloaded, hlookup⟩ := parsed_values hjson hverify
  obtain rfl := Json.dict.inj hloaded
  rw [hbuild]
  exact textField_missing ((hlookup _).trans (mark_missing hother))

/-! ## The families -/

/-- What a token is worth to a verifier of another family: nothing, or, for the verifier of OAuth
    states, a state without `jti`, which the callback refuses. -/
structure Separate (lib : SessionLib) (settings : SessionSettings) (now : DateTime) (maxAge : Int) (verifier : Family)
    (token : String) : Prop where
  rejected : verifier ≠ .oauthState → ¬ Accepts lib settings.secretKey now maxAge verifier token
  no_jti : verifier = .oauthState → ∀ payload,
    OAuthStateManager.loads lib.toTokenLib settings.secretKey now maxAge token = .ok payload → payload.jti = ""
  refused : verifier = .oauthState → ∀ payload,
    oauthCallbackState lib settings.secretKey now maxAge (some token) ≠ .ok (some payload)

theorem token_ne_empty : minted.token lib settings mintedAt ≠ "" := by
  intro h
  rw [token_eq, dumpsSigned] at h
  have := congrArg String.toList h
  simp [encodeToken] at this

theorem families_are_separate (lib : SessionLib) (settings : SessionSettings) (minted : Minted) (mintedAt : DateTime)
    (hjson : RoundTrips lib (minted.values lib mintedAt)) (now : DateTime) (maxAge : Int) (verifier : Family)
    (hother : verifier ≠ minted.family) :
    Separate lib settings now maxAge verifier (minted.token lib settings mintedAt) := by
  refine ⟨?_, ?_, ?_⟩
  · intro hverifier haccepts
    cases verifier with
    | session =>
      obtain ⟨payload, h⟩ := haccepts
      exact session_rejects hjson hother h
    | oauthState => exact hverifier rfl
    | deleteReauth =>
      obtain ⟨payload, h⟩ := haccepts
      refine manager_rejects hjson hother ?_ h
      intro fields hmissing
      have hempty : textField lib.toTokenLib fields "provider_uid" = "" := textField_missing hmissing
      simp [hempty]
    | sharexConfirmation =>
      obtain ⟨payload, h⟩ := haccepts
      refine manager_rejects hjson hother ?_ h
      intro fields hmissing
      have hempty : textField lib.toTokenLib fields "selector" = "" := textField_missing hmissing
      simp [hempty]
  · intro hverifier payload h
    subst hverifier
    exact oauth_reads_no_jti hjson hother h
  · intro hverifier payload h
    subst hverifier
    have hstate : strOr (some (minted.token lib settings mintedAt)) "" = minted.token lib settings mintedAt := by
      simp [strOr, token_ne_empty]
    rw [oauthCallbackState, hstate] at h
    split at h
    · split at h <;> cases h
    · rename_i state hloads
      rw [if_pos (oauth_reads_no_jti hjson hother hloads)] at h
      cases h

/-! ## A confirmation for a state -/

namespace FamiliesSample

def confirmation : ShareXDeleteConfirmationPayload := ⟨"sel", "abc", "alice", some "2026-01-01T00:00:00+00:00"⟩

def confirmationText : String :=
  "\x7b\"album_id\":\"abc\",\"created_at\":\"2026-01-01T00:00:00+00:00\",\"selector\":\"sel\",\"user_id\":\"alice\"\x7d"

def confirmationFields : List (String × Json) :=
  [("album_id", .str "abc"), ("created_at", .str "2026-01-01T00:00:00+00:00"), ("selector", .str "sel"),
    ("user_id", .str "alice")]

def firstOf2026 : DateTime := 63902822400000000

def digest : String := String.ofList (List.replicate 64 '0')

theorem digest_ascii : isAscii digest = true := by decide +kernel

def loadsConfirmationText (text : String) : Except TokenExc Json :=
  if text = confirmationText then .ok (.dict confirmationFields) else .error .jsonDecodeError

/-- A library of one digest, which knows the text of the confirmation and its date. -/
def oneConfirmation : SessionLib where
  hmacSha256 := fun _ _ => digest
  hexdigest_ascii := fun _ _ => digest_ascii
  jsonLoads := loadsConfirmationText
  fromisoformat text := if text = "2026-01-01T00:00:00+00:00" then some (.aware firstOf2026) else none
  str
    | .str s => s
    | _ => ""
  lower := id
  dumpsSorted := fun _ => confirmationText
  dumps := fun _ => confirmationText
  isoformat := fun _ => "2026-01-01T00:00:00+00:00"

def sampleSettings : SessionSettings := ⟨"secret", 30, true, ⟨"imghost"⟩⟩

def mintedConfirmation : Minted := .sharexConfirmation confirmation

/-- A minute later. -/
def now : DateTime := firstOf2026 + 60000000

def state : OAuthStatePayload := ⟨"", "", "", some "alice", some "2026-01-01T00:00:00+00:00"⟩

theorem loads_text : oneConfirmation.jsonLoads confirmationText = .ok (.dict confirmationFields) := by
  have hloads : oneConfirmation.jsonLoads = loadsConfirmationText := rfl
  rw [hloads, loadsConfirmationText, if_pos rfl]

theorem round_trips : RoundTrips oneConfirmation (mintedConfirmation.values oneConfirmation firstOf2026) := by
  refine ⟨confirmationFields, loads_text, fun name => ?_⟩
  have hvalues : mintedConfirmation.values oneConfirmation firstOf2026 =
      [("selector", .str "sel"), ("album_id", .str "abc"), ("user_id", .str "alice"),
        ("created_at", .str "2026-01-01T00:00:00+00:00")] := rfl
  rw [hvalues, confirmationFields]
  by_cases hselector : name = "selector"
  · subst hselector
    rfl
  · by_cases halbum : name = "album_id"
    · subst halbum
      rfl
    · by_cases huser : name = "user_id"
      · subst huser
        rfl
      · have hs : (name == "selector") = false := by simpa using hselector
        have ha : (name == "album_id") = false := by simpa using halbum
        have hu : (name == "user_id") = false := by simpa using huser
        simp [List.lookup_cons, hs, ha, hu]

theorem confirmation_parses : verify oneConfirmation.toTokenLib sampleSettings.secretKey
    (mintedConfirmation.token oneConfirmation sampleSettings firstOf2026) = .ok (some (.dict confirmationFields)) := by
  refine Hostile.verify_parsed.mpr ⟨confirmationText.toUTF8.toList, confirmationText, ?_, decodeUtf8_encode _, loads_text⟩
  rw [Hostile.Signed, token_eq, dumpsSigned]
  have htext : confirmationText ≠ "" := by decide +kernel
  have hdigest : digest ≠ "" := by decide +kernel
  exact @splitToken_encode confirmationText.toUTF8.toList digest (encode_ne_nil htext) hdigest

theorem session_ne_confirmation : Family.session ≠ mintedConfirmation.family := by
  show Family.session ≠ Family.sharexConfirmation
  decide

end FamiliesSample

open FamiliesSample in
theorem families_are_separate_here : Separate oneConfirmation sampleSettings now 600 .session
    (mintedConfirmation.token oneConfirmation sampleSettings firstOf2026) :=
  families_are_separate oneConfirmation sampleSettings mintedConfirmation firstOf2026 round_trips now 600 .session
    session_ne_confirmation

open FamiliesSample in
/-- The verifier of OAuth states takes a ShareX confirmation of a minute ago. -/
theorem a_confirmation_passes_for_a_state :
    OAuthStateManager.loads oneConfirmation.toTokenLib sampleSettings.secretKey now 600
        (mintedConfirmation.token oneConfirmation sampleSettings firstOf2026) = .ok state ∧
      Accepts oneConfirmation sampleSettings.secretKey now 600 .oauthState
        (mintedConfirmation.token oneConfirmation sampleSettings firstOf2026) ∧ Family.oauthState ≠ mintedConfirmation.family := by
  have hloads : OAuthStateManager.loads oneConfirmation.toTokenLib sampleSettings.secretKey now 600
      (mintedConfirmation.token oneConfirmation sampleSettings firstOf2026) = .ok state := by
    have hcreated : textField oneConfirmation.toTokenLib confirmationFields "created_at" = "2026-01-01T00:00:00+00:00" := by
      decide +kernel
    have huser : textField oneConfirmation.toTokenLib confirmationFields "user_id" = "alice" := by decide +kernel
    have hfresh : freshEnough oneConfirmation.toTokenLib now 600 "2026-01-01T00:00:00+00:00" = .ok true := by decide +kernel
    unfold OAuthStateManager.loads
    rw [loads_parsed confirmation_parses hcreated (by decide +kernel) List.not_mem_nil hfresh, if_pos rfl]
    show Except.ok (ε := TokenExc) (OAuthStatePayload.mk _ _ _ _ _) = _
    rw [hcreated, huser]
    rfl
  refine ⟨hloads, ⟨state, hloads⟩, ?_⟩
  show Family.oauthState ≠ Family.sharexConfirmation
  decide

end Imghost.Tokens
