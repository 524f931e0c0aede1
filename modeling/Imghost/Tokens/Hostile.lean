/-
  Imghost.Tokens.Hostile — what the verifiers make of any string at all.

  Every malformed token is meant to end as `None` or `ValueError`. Four stages let
  something else through: comparing a signature that is not ASCII, decoding a signed
  payload that is not UTF-8, parsing one that `json.loads` gives up on, and comparing a
  date that has no time zone. The first needs no secret.
-/

import Imghost.Tokens.Signed

namespace Imghost.Tokens.Hostile

open Imghost.Model

variable {lib : TokenLib} {secretKey value : String}

/-! ## How far a token gets -/

/-- The signature of the token is right for its payload. -/
def Signed (lib : TokenLib) (secretKey value : String) (payload : Bytes) : Prop :=
  splitToken value = some (payload, lib.hmacSha256 secretKey payload)

/-- The payload of the token is signed and has this JSON value. -/
def Parsed (lib : TokenLib) (secretKey value : String) (json : Json) : Prop :=
  ∃ payload text, Signed lib secretKey value payload ∧ decodeUtf8 payload = .ok text ∧ lib.jsonLoads text = .ok json

theorem verify_of_unsplit (h : splitToken value = none) : verify lib secretKey value = .ok none := by
  simp only [verify, h]

/-- What comes of a token that can be split. -/
theorem verify_of_split {payload : Bytes} {signature : String} (h : splitToken value = some (payload, signature)) :
    verify lib secretKey value =
      if isAscii signature then
        if signature = lib.hmacSha256 secretKey payload then parsePayload lib payload else .ok none
      else .error (.typeError "comparing strings with non-ASCII characters is not supported") := by
  by_cases hascii : isAscii signature = true
  · by_cases hright : signature = lib.hmacSha256 secretKey payload
    · rw [if_pos hascii, if_pos hright]
      subst hright
      simp only [verify, h, compareDigest, lib.hexdigest_ascii, Bool.and_self, if_true, beq_self_eq_true]
    · rw [if_pos hascii, if_neg hright]
      simp only [verify, h, compareDigest, hascii, lib.hexdigest_ascii, Bool.and_self, if_true,
        beq_eq_false_iff_ne.mpr hright]
  · rw [if_neg hascii]
    simp only [verify, h, compareDigest, Bool.eq_false_iff.mpr hascii, Bool.false_and, Bool.false_eq_true, if_false]

theorem verify_of_hostile {payload : Bytes} {signature : String} (h : splitToken value = some (payload, signature))
    (hascii : isAscii signature = false) : ∃ msg, verify lib secretKey value = .error (.typeError msg) := by
  refine ⟨"comparing strings with non-ASCII characters is not supported", ?_⟩
  rw [verify_of_split h, hascii]
  rfl

theorem verify_of_wrong {payload : Bytes} {signature : String} (h : splitToken value = some (payload, signature))
    (hascii : isAscii signature = true) (hwrong : signature ≠ lib.hmacSha256 secretKey payload) :
    verify lib secretKey value = .ok none := by
  rw [verify_of_split h, if_pos hascii, if_neg hwrong]

theorem verify_of_signed {payload : Bytes} (h : Signed lib secretKey value payload) :
    verify lib secretKey value = parsePayload lib payload := by
  rw [verify_of_split h, if_pos (lib.hexdigest_ascii secretKey payload), if_pos rfl]

/-- What is returned is the JSON of a signed payload. -/
theorem verify_parsed {json : Json} : verify lib secretKey value = .ok (some json) ↔ Parsed lib secretKey value json := by
  rcases hsplit : splitToken value with _ | ⟨payload, signature⟩
  · rw [verify_of_unsplit hsplit]
    refine iff_of_false (by simp) fun h => ?_
    obtain ⟨payload, text, h, -⟩ := h
    rw [Signed, hsplit] at h
    cases h
  by_cases hright : signature = lib.hmacSha256 secretKey payload
  · subst hright
    rw [verify_of_signed hsplit]
    constructor
    · intro h
      unfold parsePayload at h
      split at h
      · cases h
      · rename_i text htext
        split at h
        · cases h
        · cases h
        · rename_i json' hjson
          obtain rfl : json' = json := by simpa using h
          exact ⟨payload, text, hsplit, htext, hjson⟩
    · intro h
      obtain ⟨payload', text, hsigned, htext, hjson⟩ := h
      have heq := Option.some.inj (hsplit.symm.trans hsigned)
      obtain rfl : payload = payload' := congrArg Prod.fst heq
      simp only [parsePayload, htext, hjson]
  · refine iff_of_false (fun h => ?_) fun h => ?_
    · by_cases hascii : isAscii signature = true
      · rw [verify_of_wrong hsplit hascii hright] at h
        cases h
      · obtain ⟨msg, hverify⟩ := @verify_of_hostile lib secretKey value payload signature hsplit (by simpa using hascii)
        rw [hverify] at h
        cases h
    · obtain ⟨payload', text, hsigned, -⟩ := h
      have heq := Option.some.inj (hsplit.symm.trans hsigned)
      obtain rfl : payload = payload' := congrArg Prod.fst heq
      exact hright (congrArg Prod.snd heq)

/-! ## What each stage can raise -/

/-- `x` returns, or raises what `P` allows. -/
def OnlyRaises {α : Type} (P : TokenExc → Prop) (x : Except TokenExc α) : Prop := ∀ e, x = .error e → P e

/-- `x` returns. -/
def Returns {α : Type} (x : Except TokenExc α) : Prop := OnlyRaises (fun _ => False) x

/-- `x` returns, or raises `ValueError`. -/
def OnlyValueErrors {α : Type} (x : Except TokenExc α) : Prop := OnlyRaises (fun e => e.isValueError = true) x

/-- The signature is ASCII, if there is one. -/
def AsciiSignature (value : String) : Prop :=
  ∀ payload signature, splitToken value = some (payload, signature) → isAscii signature = true

section

variable {P : TokenExc → Prop} (hP : ∀ msg, ¬P (.typeError msg))

include hP

theorem verify_raises : OnlyRaises P (verify lib secretKey value) ↔
    AsciiSignature value ∧ ∀ payload, Signed lib secretKey value payload → OnlyRaises P (parsePayload lib payload) := by
  constructor
  · intro h
    refine ⟨fun payload signature hsplit => ?_, fun payload hsigned e he => ?_⟩
    · by_contra hascii
      obtain ⟨msg, hverify⟩ := @verify_of_hostile lib secretKey value payload signature hsplit (by simpa using hascii)
      exact hP msg (h _ hverify)
    · exact h e (by rw [verify_of_signed hsigned, he])
  · intro h e he
    obtain ⟨hascii, hparse⟩ := h
    rcases hsplit : splitToken value with _ | ⟨payload, signature⟩
    · rw [verify_of_unsplit hsplit] at he
      cases he
    by_cases hright : signature = lib.hmacSha256 secretKey payload
    · subst hright
      rw [verify_of_signed hsplit] at he
      exact hparse payload hsplit e he
    · rw [verify_of_wrong hsplit (hascii _ _ hsplit) hright] at he
      cases he

theorem notExpired_raises {now : DateTime} {raw : Option Json} : OnlyRaises P (notExpired lib now raw) ↔
    (truthy raw = true → ∃ s, raw = some (.str s) ∧ ∀ wallClock, lib.fromisoformat s ≠ some (.naive wallClock)) := by
  unfold notExpired
  by_cases htruthy : truthy raw = true
  · rw [if_pos htruthy]
    split
    · rename_i s
      constructor
      · intro h _
        refine ⟨s, rfl, fun wallClock hnaive => ?_⟩
        rw [hnaive] at h
        exact hP _ (h _ rfl)
      · intro h e he
        obtain ⟨s', hs, hdate⟩ := h htruthy
        obtain rfl : s = s' := by simpa using hs
        rcases hiso : lib.fromisoformat s with _ | wallClock | instant
        · rw [hiso] at he
          cases he
        · exact absurd hiso (hdate wallClock)
        · rw [hiso] at he
          cases he
    · rename_i hother
      constructor
      · intro h _
        exact absurd (h _ rfl) (hP _)
      · intro h
        obtain ⟨s, hs, -⟩ := h htruthy
        exact absurd hs (hother s)
  · rw [if_neg htruthy]
    exact iff_of_true (fun e h => by cases h) fun h => absurd h htruthy

theorem freshEnough_raises {now : DateTime} {maxAge : Int} {createdAt : String} :
    OnlyRaises P (freshEnough lib now maxAge createdAt) ↔
      ∀ wallClock, lib.fromisoformat createdAt ≠ some (.naive wallClock) := by
  unfold freshEnough
  split
  · rename_i hiso
    exact iff_of_true (fun e h => by cases h) fun wallClock h => by rw [hiso] at h; cases h
  · rename_i wallClock hiso
    exact iff_of_false (fun h => hP _ (h _ rfl)) fun h => h wallClock hiso
  · rename_i hiso
    exact iff_of_true (fun e h => by cases h) fun wallClock h => by rw [hiso] at h; cases h

end

/-- The session verifier raises what its stages raise. -/
theorem decodeSignedToken_raises {P : TokenExc → Prop} {now : DateTime} :
    OnlyRaises P (decodeSignedToken lib secretKey now value) ↔ OnlyRaises P (verify lib secretKey value) ∧
      ∀ fields, verify lib secretKey value = .ok (some (.dict fields)) →
        OnlyRaises P (notExpired lib now (fields.lookup "expires_at")) := by
  unfold decodeSignedToken
  split
  · rename_i e hverify
    rw [hverify]
    refine ⟨fun h => ⟨?_, fun fields hfields => by cases hfields⟩, fun h => ?_⟩
    · intro e' he
      cases he
      exact h e rfl
    · intro e' he
      cases he
      exact h.1 e rfl
  · rename_i fields hverify
    rw [hverify]
    constructor
    · intro h
      refine ⟨fun e he => (by cases he), fun fields' hfields e he => ?_⟩
      cases hfields
      exact h e (by rw [he])
    · intro h e he
      obtain ⟨-, hexpired⟩ := h
      refine hexpired fields rfl e ?_
      rcases hdate : notExpired lib now (fields.lookup "expires_at") with e' | _ | _
      · rw [hdate] at he
        cases he
        rfl
      · rw [hdate] at he
        cases he
      · rw [hdate] at he
        cases he
  · rename_i found hother hnot
    refine iff_of_true (fun e he => by cases he) ⟨?_, fun fields hfields => ?_⟩
    · rw [hnot]
      intro e he
      cases he
    · exact absurd (hfields.symm.trans hnot) (by intro h; cases h; exact hother fields rfl)

/-- A `loads` raises what its stages raise, and its own error. -/
theorem loads_raises {β : Type} {m : Manager β} {P : TokenExc → Prop} (hown : P (.valueError m.invalid)) {now : DateTime}
    {maxAge : Int} :
    OnlyRaises P (m.loads lib secretKey now maxAge value) ↔ OnlyRaises P (verify lib secretKey value) ∧
      ∀ fields, verify lib secretKey value = .ok (some (.dict fields)) → textField lib fields "created_at" ≠ "" →
        "" ∉ m.required fields → OnlyRaises P (freshEnough lib now maxAge (textField lib fields "created_at")) := by
  unfold Manager.loads
  split
  · rename_i e hverify
    rw [hverify]
    refine ⟨fun h => ⟨?_, fun fields hfields => by cases hfields⟩, fun h => ?_⟩
    · intro e' he
      cases he
      exact h e rfl
    · intro e' he
      cases he
      exact h.1 e rfl
  · rename_i fields hverify
    rw [hverify]
    have hempty : (decide (textField lib fields "created_at" = "") || (m.required fields).contains "") = true ↔
        textField lib fields "created_at" = "" ∨ "" ∈ m.required fields := by
      simp only [Bool.or_eq_true, decide_eq_true_eq, List.contains_iff_mem]
    by_cases hfields : textField lib fields "created_at" = "" ∨ "" ∈ m.required fields
    · simp only [if_pos (hempty.mpr hfields)]
      refine iff_of_true (fun e he => ?_) ⟨fun e he => (by cases he), fun fields' heq hdate hrequired => ?_⟩
      · cases he
        exact hown
      · cases heq
        exact absurd hfields (not_or.mpr ⟨hdate, hrequired⟩)
    · simp only [if_neg (mt hempty.mp hfields)]
      rw [not_or] at hfields
      constructor
      · intro h
        refine ⟨fun e he => (by cases he), fun fields' heq _ _ e he => ?_⟩
        cases heq
        exact h e (by rw [he])
      · intro h e he
        have hfresh := h.2 fields rfl hfields.1 hfields.2
        rcases hage : freshEnough lib now maxAge (textField lib fields "created_at") with e' | _ | _
        · rw [hage] at he
          cases he
          exact hfresh e hage
        · rw [hage] at he
          cases he
          exact hown
        · rw [hage] at he
          cases he
  · rename_i found hother hnot
    refine iff_of_true (fun e he => ?_) ⟨?_, fun fields hfields => ?_⟩
    · cases he
      exact hown
    · rw [hnot]
      intro e he
      cases he
    · exact absurd (hfields.symm.trans hnot) (by intro h; cases h; exact hother fields rfl)

theorem parsePayload_raises {P : TokenExc → Prop} {payload : Bytes} : OnlyRaises P (parsePayload lib payload) ↔
    (∀ e, decodeUtf8 payload = .error e → P e) ∧ ∀ text e, decodeUtf8 payload = .ok text →
      lib.jsonLoads text = .error e → e = .jsonDecodeError ∨ P e := by
  unfold parsePayload
  rcases hutf8 : decodeUtf8 payload with e | text
  · constructor
    · intro h
      exact ⟨fun e' he => h e' (by cases he; rfl), fun text e' htext => by cases htext⟩
    · intro h e' he
      cases he
      exact h.1 e rfl
  · constructor
    · intro h
      refine ⟨fun e he => (by cases he), fun text' e htext he => ?_⟩
      cases htext
      by_cases hjson : e = .jsonDecodeError
      · exact .inl hjson
      · refine .inr (h e ?_)
        cases e with
        | jsonDecodeError => exact absurd rfl hjson
        | valueError msg | unicodeDecodeError | typeError msg | recursionError => simp only [he]
    · intro h e he
      obtain ⟨-, hjson⟩ := h
      rcases hloads : lib.jsonLoads text with e' | json
      · have hallowed := hjson text e' rfl hloads
        simp only [hloads] at he
        cases e' with
        | jsonDecodeError => cases he
        | valueError msg | unicodeDecodeError | typeError msg | recursionError =>
          cases he
          exact hallowed.resolve_left (by simp)
      · simp only [hloads] at he
        cases he

/-! ## The tokens each verifier handles -/

/-- The stages up to the JSON raise nothing but what `P` allows. -/
structure Handled (P : TokenExc → Prop) (lib : TokenLib) (secretKey value : String) : Prop where
  ascii : AsciiSignature value
  utf8 : ∀ payload e, Signed lib secretKey value payload → decodeUtf8 payload = .error e → P e
  json : ∀ payload text e, Signed lib secretKey value payload → decodeUtf8 payload = .ok text →
    lib.jsonLoads text = .error e → e = .jsonDecodeError ∨ P e

/-- The tokens of which the session verifier makes a payload or `None`. -/
structure SessionHandled (lib : TokenLib) (secretKey value : String) : Prop where
  stages : Handled (fun _ => False) lib secretKey value
  date : ∀ fields, Parsed lib secretKey value (.dict fields) → truthy (fields.lookup "expires_at") = true →
    ∃ s, fields.lookup "expires_at" = some (.str s) ∧ ∀ wallClock, lib.fromisoformat s ≠ some (.naive wallClock)

/-- The tokens of which a `loads` makes a payload or `ValueError`. -/
structure LoadsHandled (required : List (String × Json) → List String) (lib : TokenLib) (secretKey value : String) :
    Prop where
  stages : Handled (fun e => e.isValueError = true) lib secretKey value
  date : ∀ fields, Parsed lib secretKey value (.dict fields) → textField lib fields "created_at" ≠ "" →
    "" ∉ required fields → ∀ wallClock, lib.fromisoformat (textField lib fields "created_at") ≠ some (.naive wallClock)

theorem verify_handled {P : TokenExc → Prop} (hP : ∀ msg, ¬P (.typeError msg)) :
    OnlyRaises P (verify lib secretKey value) ↔ Handled P lib secretKey value := by
  rw [verify_raises hP]
  constructor
  · intro h
    obtain ⟨hascii, hparse⟩ := h
    exact ⟨hascii, fun payload e hsigned => (parsePayload_raises.mp (hparse payload hsigned)).1 e,
      fun payload text e hsigned => (parsePayload_raises.mp (hparse payload hsigned)).2 text e⟩
  · intro h
    exact ⟨h.ascii, fun payload hsigned => parsePayload_raises.mpr
      ⟨fun e => h.utf8 payload e hsigned, fun text e => h.json payload text e hsigned⟩⟩

theorem decodeSignedToken_returns {now : DateTime} :
    Returns (decodeSignedToken lib secretKey now value) ↔ SessionHandled lib secretKey value := by
  have hP : ∀ msg, ¬False := fun (_ : String) h => h
  rw [Returns, decodeSignedToken_raises, verify_handled hP]
  constructor
  · intro h
    exact ⟨h.1, fun fields hfields => (notExpired_raises hP).mp (h.2 fields (verify_parsed.mpr hfields))⟩
  · intro h
    exact ⟨h.stages, fun fields hfields => (notExpired_raises hP).mpr (h.date fields (verify_parsed.mp hfields))⟩

theorem loads_onlyValueErrors {β : Type} (m : Manager β) {now : DateTime} {maxAge : Int} :
    OnlyValueErrors (m.loads lib secretKey now maxAge value) ↔ LoadsHandled m.required lib secretKey value := by
  have hP : ∀ msg, ¬(TokenExc.typeError msg).isValueError = true := fun _ h => by cases h
  have hown : (TokenExc.valueError m.invalid).isValueError = true := rfl
  rw [OnlyValueErrors, @loads_raises _ _ _ _ m (fun e => e.isValueError = true) hown, verify_handled hP]
  constructor
  · intro h
    exact ⟨h.1, fun fields hfields hdate hrequired =>
      (freshEnough_raises hP).mp (h.2 fields (verify_parsed.mpr hfields) hdate hrequired)⟩
  · intro h
    exact ⟨h.stages, fun fields hfields hdate hrequired =>
      (freshEnough_raises hP).mpr (h.date fields (verify_parsed.mp hfields) hdate hrequired)⟩

/-- For every string and every key: the four verifiers stay within their contract on exactly
    the tokens they handle. -/
theorem verifiers_total_iff (lib : TokenLib) (secretKey value : String) (now : DateTime) (maxAge : Int) :
    (Returns (decodeSignedToken lib secretKey now value) ↔ SessionHandled lib secretKey value) ∧
    (OnlyValueErrors (AccountDeleteReauthTokenManager.loads lib secretKey now maxAge value) ↔
      LoadsHandled (fun data => [textField lib data "user_id", lib.lower (textField lib data "provider"),
        textField lib data "provider_uid"]) lib secretKey value) ∧
    (OnlyValueErrors (OAuthStateManager.loads lib secretKey now maxAge value) ↔
      LoadsHandled (fun _ => []) lib secretKey value) ∧
    (OnlyValueErrors (ShareXDeleteTokenManager.loadsConfirmation lib secretKey now maxAge value) ↔
      LoadsHandled (fun data => [textField lib data "selector", textField lib data "album_id",
        textField lib data "user_id"]) lib secretKey value) :=
  ⟨decodeSignedToken_returns, loads_onlyValueErrors _, loads_onlyValueErrors _, loads_onlyValueErrors _⟩

/-- A library of one digest, in which no text is JSON. -/
def oneDigest : TokenLib where
  hmacSha256 := fun _ _ => "".pushn '0' 64
  hexdigest_ascii := fun _ _ => by decide
  jsonLoads := fun _ => .error .jsonDecodeError
  fromisoformat := fun _ => none
  str := fun _ => ""
  lower := id

/-- Anybody can send a signature that is not ASCII, and all four raise `TypeError`. -/
theorem a_foreign_signature_raises_type_error :
    ¬(Returns (decodeSignedToken oneDigest "secret" 0 "e30.é") ∨
      OnlyValueErrors (AccountDeleteReauthTokenManager.loads oneDigest "secret" 0 600 "e30.é") ∨
      OnlyValueErrors (OAuthStateManager.loads oneDigest "secret" 0 600 "e30.é") ∨
      OnlyValueErrors (ShareXDeleteTokenManager.loadsConfirmation oneDigest "secret" 0 600 "e30.é")) := by
  have hsplit : splitToken "e30.é" = some ([123, 125], "é") := by decide
  have hascii : ¬AsciiSignature "e30.é" := fun h => absurd (h _ _ hsplit) (by decide)
  intro h
  rcases h with h | h | h | h
  · exact hascii (decodeSignedToken_returns.mp h).stages.ascii
  · exact hascii ((loads_onlyValueErrors _).mp h).stages.ascii
  · exact hascii ((loads_onlyValueErrors _).mp h).stages.ascii
  · exact hascii ((loads_onlyValueErrors _).mp h).stages.ascii

end Imghost.Tokens.Hostile
