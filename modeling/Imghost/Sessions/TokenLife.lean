/-
  Imghost.Sessions.TokenLife — how long a session's token is good.

  `_sign_payload` dumps the payload, with a store of its own, and signs the bytes;
  `_decode_signed_token` reads them back and looks at the clock. The codecs are Python's:
  base64 (`Imghost.Tokens.RoundTrip`), JSON (`Imghost.Tokens.JsonText`) and the times of
  `isoformat` (`Imghost.Model.IsoFormat`).

  What is proved:
    • a token of a payload without empty fields is decoded to it, with the store it was signed for, at
      every time before it expires, and to nothing from then on;
    • the token of `_create_signed_token` is such a token;
    • a token that is accepted carries the signature of its bytes.
-/

import Imghost.Model.IsoFormat
import Imghost.Tokens.JsonText
import Imghost.Tokens.RoundTrip

namespace Imghost.Sessions

open Imghost.Model Imghost.Tokens

/-- The codecs are Python's: `fromisoformat` reads what `isoformat` writes, and a digest has 64 digits. -/
structure PythonCodecs (json : JsonLib) (lib : SessionLib) : Prop where
  loads : lib.jsonLoads = jsonLoads json
  dumpsSorted : lib.dumpsSorted = jsonDumps json
  isoformat : lib.isoformat = isoformat
  fromisoformat : ∀ text t, readIso text = some t → lib.fromisoformat text = some (.aware t)
  digest : ∀ key data, (lib.hmacSha256 key data).length = 64

/-- The payload that `_create_signed_token` signs, and when it expires. -/
def createdPayload (lib : SessionLib) (settings : SessionSettings) (now : DateTime) (sessionId userId : String)
    (rememberMe : Bool) (store : String) : SessionPayload where
  sessionId := sessionId
  userId := userId
  createdAt := lib.isoformat (now / 1000000 * 1000000)
  expiresAt := (createSignedToken lib settings now sessionId userId rememberMe store).2.map lib.isoformat
  store := store

/-- A payload that `_decode_signed_token` takes: no field is empty, and `expires_at` is a time or left out. -/
structure Signable (payload : SessionPayload) (expiresAt : Option DateTime) : Prop where
  session_id : payload.sessionId ≠ ""
  user_id : payload.userId ≠ ""
  created_at : payload.createdAt ≠ ""
  expires_at : payload.expiresAt = expiresAt.map isoformat
  datetime : ∀ t ∈ expiresAt, IsDatetime t

section

variable {json : JsonLib} {lib : SessionLib} {settings : SessionSettings} {payload : SessionPayload} {store : String}

/-! ## The payload -/

/-- The fields that are signed. -/
def signedFields (payload : SessionPayload) (store : String) : List (String × Json) :=
  [("session_id", .str payload.sessionId), ("user_id", .str payload.userId), ("created_at", .str payload.createdAt),
    ("expires_at", payload.expiresAt.elim .null .str), ("store", .str store)]

/-- The same by their keys. -/
theorem sort_signedFields (payload : SessionPayload) (store : String) : sortFields (signedFields payload store) =
    [("created_at", .str payload.createdAt), ("expires_at", payload.expiresAt.elim .null .str),
      ("session_id", .str payload.sessionId), ("store", .str store), ("user_id", .str payload.userId)] := by
  simp [sortFields, signedFields, List.insertionSort, List.orderedInsert]

theorem loads_signed (hcodecs : PythonCodecs json lib) (payload : SessionPayload) (store : String) :
    lib.jsonLoads (lib.dumpsSorted (.dict (signedFields payload store))) = .ok (.dict (sortFields (signedFields payload store))) := by
  rw [hcodecs.loads, hcodecs.dumpsSorted]
  apply jsonLoads_dumps
  · show ["session_id", "user_id", "created_at", "expires_at", "store"].Nodup
    decide
  · cases hexpires : payload.expiresAt <;> simp [signedFields, hexpires, isScalar]

/-! ## The token -/

/-- The bytes that are signed. -/
def signedBytes (lib : SessionLib) (payload : SessionPayload) (store : String) : Bytes :=
  (lib.dumpsSorted (.dict (signedFields payload store))).toUTF8.toList

theorem signPayload_token : signPayload lib settings payload store =
    encodeToken (signedBytes lib payload store) (lib.hmacSha256 settings.secretKey (signedBytes lib payload store)) := rfl

theorem compareDigest_self (key : String) (data : Bytes) :
    compareDigest (lib.hmacSha256 key data) (lib.hmacSha256 key data) = .ok true := by
  rw [compareDigest, lib.hexdigest_ascii]
  simp

theorem verify_signed (hcodecs : PythonCodecs json lib) : verify lib.toTokenLib settings.secretKey (signPayload lib settings payload store) =
    .ok (some (.dict (sortFields (signedFields payload store)))) := by
  have hbytes : signedBytes lib payload store ≠ [] := by
    apply encode_ne_nil
    rw [hcodecs.dumpsSorted, jsonDumps, dump_dict]
    intro h
    simpa using congrArg String.toList h
  have hsignature : lib.hmacSha256 settings.secretKey (signedBytes lib payload store) ≠ "" := by
    intro h
    have hdigest := hcodecs.digest settings.secretKey (signedBytes lib payload store)
    rw [h] at hdigest
    cases hdigest
  rw [verify, signPayload_token, splitToken_encode hbytes hsignature]
  simp only [compareDigest_self, parsePayload, signedBytes, decodeUtf8_encode, loads_signed hcodecs]

/-- The clock is looked at first. -/
theorem notExpired_signed (hcodecs : PythonCodecs json lib) {expiresAt : Option DateTime} (hsignable : Signable payload expiresAt)
    (now : DateTime) : notExpired lib.toTokenLib now ((sortFields (signedFields payload store)).lookup "expires_at") =
      .ok (!expiresAt.any fun t => decide (t ≤ now)) := by
  have hlookup : (sortFields (signedFields payload store)).lookup "expires_at" = some (payload.expiresAt.elim .null .str) := by
    rw [sort_signedFields]
    rfl
  rw [hlookup, hsignable.expires_at]
  cases hexpires : expiresAt with
  | none => rfl
  | some t =>
    have hread := hcodecs.fromisoformat _ t (readIso_isoformat (hsignable.datetime t hexpires))
    have htext : Tokens.truthy (some (.str (isoformat t))) = true := by simp [Tokens.truthy, isoformat_ne_empty]
    simp only [Option.map_some, Option.elim_some, notExpired, htext, if_true, hread, Option.any_some]

theorem sessionPayload_signed {expiresAt : Option DateTime} (hsignable : Signable payload expiresAt) (hstore : store ≠ "") :
    sessionPayload (sortFields (signedFields payload store)) = some { payload with store := store } := by
  rw [sort_signedFields]
  have htruthy : Tokens.truthy (some (.str store)) = true := by simp [Tokens.truthy, hstore]
  cases hexpires : payload.expiresAt <;>
    simp [sessionPayload, List.lookup_cons, nonEmptyStr, hsignable.session_id, hsignable.user_id, hsignable.created_at, hstore, htruthy]

/-- A token is decoded to what was signed, until it expires. -/
theorem decode_signed (hcodecs : PythonCodecs json lib) {expiresAt : Option DateTime} (hsignable : Signable payload expiresAt)
    (hstore : store ≠ "") (now : DateTime) :
    decodeSignedToken lib.toTokenLib settings.secretKey now (signPayload lib settings payload store) =
      .ok (if expiresAt.any fun t => decide (t ≤ now) then none else some { payload with store := store }) := by
  rw [decodeSignedToken, verify_signed hcodecs]
  simp only [notExpired_signed hcodecs hsignable]
  cases expiresAt.any fun t => decide (t ≤ now) with
  | true => rfl
  | false => simp [sessionPayload_signed hsignable hstore]

/-! ## What is created and what is accepted -/

/-- A new token is one of a payload that is taken. -/
theorem created_signed (hcodecs : PythonCodecs json lib) {now : DateTime} {sessionId userId : String} {rememberMe : Bool}
    {token : String} {expiresAt : Option DateTime} (hsession : sessionId ≠ "") (huser : userId ≠ "")
    (hcreated : createSignedToken lib settings now sessionId userId rememberMe store = (token, expiresAt))
    (hdatetime : ∀ t ∈ expiresAt, IsDatetime t) :
    token = signPayload lib settings (createdPayload lib settings now sessionId userId rememberMe store) store ∧
      Signable (createdPayload lib settings now sessionId userId rememberMe store) expiresAt := by
  have hexpires : (createSignedToken lib settings now sessionId userId rememberMe store).2 = expiresAt := by rw [hcreated]
  constructor
  · have htoken : (createSignedToken lib settings now sessionId userId rememberMe store).1 = token := by rw [hcreated]
    rw [← htoken]
    rfl
  · refine ⟨hsession, huser, ?_, ?_, hdatetime⟩
    · rw [createdPayload, hcodecs.isoformat]
      exact isoformat_ne_empty _
    · rw [createdPayload, hexpires, hcodecs.isoformat]

/-- What is accepted is signed. -/
theorem accepted_signed {tokens : TokenLib} {key token : String} {now : DateTime}
    (h : decodeSignedToken tokens key now token = .ok (some payload)) :
    ∃ payloadBytes signature, splitToken token = some (payloadBytes, signature) ∧
      signature = tokens.hmacSha256 key payloadBytes := by
  rw [decodeSignedToken, verify] at h
  cases hsplit : splitToken token with
  | none =>
    rw [hsplit] at h
    cases h
  | some parts =>
    obtain ⟨payloadBytes, signature⟩ := parts
    refine ⟨payloadBytes, signature, rfl, ?_⟩
    rw [hsplit] at h
    cases hcompare : compareDigest signature (tokens.hmacSha256 key payloadBytes) with
    | error e =>
      simp only [hcompare] at h
      cases h
    | ok same =>
      cases same with
      | false =>
        simp only [hcompare] at h
        cases h
      | true =>
        rw [compareDigest] at hcompare
        split at hcompare
        · simpa using hcompare
        · cases hcompare

/-- A token is good for what was signed until it expires, and only what was signed is accepted. -/
theorem tokens_are_good_until_they_expire (hcodecs : PythonCodecs json lib) :
    (∀ now sessionId userId rememberMe store token expiresAt, sessionId ≠ "" → userId ≠ "" → store ≠ "" →
        createSignedToken lib settings now sessionId userId rememberMe store = (token, expiresAt) →
        (∀ t ∈ expiresAt, IsDatetime t) → ∀ later,
          decodeSignedToken lib.toTokenLib settings.secretKey later token =
            .ok (if expiresAt.any fun t => decide (t ≤ later) then none
              else some (createdPayload lib settings now sessionId userId rememberMe store))) ∧
      (∀ payload expiresAt store, Signable payload expiresAt → store ≠ "" → ∀ later,
          decodeSignedToken lib.toTokenLib settings.secretKey later (signPayload lib settings payload store) =
            .ok (if expiresAt.any fun t => decide (t ≤ later) then none else some { payload with store := store })) ∧
      ∀ key token later payload, decodeSignedToken lib.toTokenLib key later token = .ok (some payload) →
        ∃ payloadBytes signature, splitToken token = some (payloadBytes, signature) ∧
          signature = lib.hmacSha256 key payloadBytes := by
  refine ⟨?_, ?_, ?_⟩
  · intro now sessionId userId rememberMe store token expiresAt hsession huser hstore hcreated hdatetime later
    obtain ⟨htoken, hsignable⟩ := created_signed hcodecs hsession huser hcreated hdatetime
    rw [htoken, decode_signed hcodecs hsignable hstore]
    rfl
  · intro payload expiresAt store hsignable hstore later
    exact decode_signed hcodecs hsignable hstore later
  · intro key token later payload h
    exact accepted_signed h

end

namespace LifeSample

def numbers : JsonLib := ⟨fun _ => 0, fun _ => "0.0", 0, fun _ => '?'⟩

/-- The digest of the payload below under its key. -/
def digest : List Char := "c66ebe26dfd4a38008418d5529228ef9a09b2e92befbb115befc85db0c71b0fd".toList

theorem digest_ascii : isAscii (String.ofList digest) = true := by decide +kernel

def pythonLib : SessionLib where
  hmacSha256 _ _ := String.ofList digest
  hexdigest_ascii _ _ := digest_ascii
  jsonLoads := jsonLoads numbers
  fromisoformat text := (readIso text).map .aware
  str _ := ""
  lower := id
  dumpsSorted := jsonDumps numbers
  dumps := jsonDumps numbers
  isoformat := isoformat

theorem python : PythonCodecs numbers pythonLib where
  loads := rfl
  dumpsSorted := rfl
  isoformat := rfl
  fromisoformat text t h := by
    show (readIso text).map PyDatetime.aware = _
    rw [h]
    rfl
  digest _ _ := by
    show (String.ofList digest).length = 64
    decide +kernel

def thirtyDays : SessionSettings := ⟨"secret", 30, true, ⟨"imghost"⟩⟩

def firstOf2026 : DateTime := 63902822400000000

def lastOfJanuary : DateTime := firstOf2026 + 30 * microsPerDay

def payload : SessionPayload := ⟨"3f0c1de2", "zoë", "2026-01-01T00:00:00+00:00", some "2026-01-31T00:00:00+00:00", "cookie"⟩

theorem created : createSignedToken pythonLib thirtyDays firstOf2026 "3f0c1de2" "zoë" true "cookie" =
    (signPayload pythonLib thirtyDays payload "cookie", some lastOfJanuary) := by
  have hnow : isoformat (firstOf2026 / 1000000 * 1000000) = "2026-01-01T00:00:00+00:00" := by decide +kernel
  have hlast : isoformat lastOfJanuary = "2026-01-31T00:00:00+00:00" := by decide +kernel
  have hexpires : firstOf2026 / 1000000 * 1000000 + timedeltaDays thirtyDays.sessionRememberDays = lastOfJanuary := by decide +kernel
  rw [createSignedToken, if_pos rfl, hexpires]
  show (signPayload pythonLib thirtyDays ⟨_, _, isoformat _, some (isoformat _), _⟩ "cookie", some lastOfJanuary) = _
  rw [hnow, hlast]
  rfl

end LifeSample

open LifeSample in
theorem a_session_ends_with_january :
    decodeSignedToken pythonLib.toTokenLib "secret" (lastOfJanuary - 1) (signPayload pythonLib thirtyDays payload "cookie") =
        .ok (some payload) ∧
      decodeSignedToken pythonLib.toTokenLib "secret" lastOfJanuary (signPayload pythonLib thirtyDays payload "cookie") = .ok none := by
  have hdatetime : ∀ t ∈ some lastOfJanuary, IsDatetime t := by
    intro t ht
    obtain rfl := Option.some.inj ht
    decide +kernel
  have hgood := (@tokens_are_good_until_they_expire numbers pythonLib thirtyDays python).1 firstOf2026 "3f0c1de2" "zoë" true "cookie" _ _
    (by decide) (by decide) (by decide) created hdatetime
  have hpayload : createdPayload pythonLib thirtyDays firstOf2026 "3f0c1de2" "zoë" true "cookie" = payload := by
    rw [createdPayload, created]
    decide +kernel
  rw [hpayload] at hgood
  exact ⟨hgood (lastOfJanuary - 1), hgood lastOfJanuary⟩

end Imghost.Sessions
