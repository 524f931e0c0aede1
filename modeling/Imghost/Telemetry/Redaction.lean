/-
  Imghost.Telemetry.Redaction — `redact_record` (`telemetry/redaction.py`).

  A record's metadata is nested data. What is stored under a secret key is replaced, and a
  text under a URL key is sanitized; everything else is kept, and containers are walked.
  The walk takes no key along: an item of a list is redacted as if no key stood above it.

  What is proved:
    • records that differ only in what is stored under secret keys, and in the tokens of
      URLs, are redacted to the same, unless a URL with a token is held in a list or cannot
      be split;
    • redacting twice is redacting once, unless a URL has whitespace behind control
      characters (`Imghost.Telemetry.SanitizeUrl`).
-/

import Imghost.Telemetry.SanitizeUrl

namespace Imghost.Telemetry

open Imghost.Data Imghost.Model Imghost.Web

/-- What metadata is made of; `α` are the values that are neither texts nor containers. -/
inductive Value (α : Type) where
  | null
  | other (value : α)
  | str (text : String)
  | list (items : List (Value α))
  | tuple (items : List (Value α))
  | dict (fields : List (String × Value α))

/-- `_SECRET_KEYS`. -/
def secretKeys : List String :=
  ["password", "current_password", "new_password", "api_key", "raw_api_key", "authorization", "cookie", "set-cookie",
    "session_token", "imghost_delete_reauth", "token", "delete_token", "reauth_token", "delete_reauth_token", "delete_url",
    "manage_url"]

/-- `_URL_KEYS`. -/
def urlKeys : List String := ["referer", "url", "delete_url", "manage_url"]

variable {α : Type} (lib : UrlLib)

def isSecretKey (key : String) : Bool := secretKeys.contains (lib.lower key)

def isUrlKey (key : String) : Bool := urlKeys.contains (lib.lower key)

/-- The text of a URL, under a URL key. -/
def urlOf (key : String) : Value α → Option String
  | .str text => if isUrlKey lib key then some text else none
  | _ => none

mutual

/-- `_redact_value`. -/
def redactValue : Value α → Value α
  | .dict fields => .dict (redactFields fields)
  | .list items => .list (redactItems items)
  | .tuple items => .tuple (redactItems items)
  | value => value

def redactFields : List (String × Value α) → List (String × Value α)
  | [] => []
  | (key, item) :: fields =>
    (key,
      if isSecretKey lib key then .str redacted
      else
        match urlOf lib key item with
        | some url => .str (sanitizeUrl lib url)
        | none => redactValue item) :: redactFields fields

def redactItems : List (Value α) → List (Value α)
  | [] => []
  | item :: items => redactValue item :: redactItems items

end

/-- `redact_metadata`. -/
def redactMetadata (metadata : List (String × Value α)) : List (String × Value α) := redactFields lib metadata

/-! ## Records -/

structure TelemetryActor where
  id : Option String
  type : String
  display : Option String

structure TelemetryObject where
  type : String
  id : Option String

structure TelemetryRequestContext where
  requestId : Option String
  correlationId : Option String
  method : Option String
  route : Option String
  path : Option String
  host : Option String
  origin : Option String
  referer : Option String
  userAgent : Option String
  clientIp : Option String
  forwardedFor : Option String
  authMethod : Option String

structure TelemetryProcessContext where
  source : String
  hostname : Option String
  pid : Option Int
  command : Option String
  buildId : Option String

structure TelemetryEvent (α : Type) where
  eventType : String
  action : String
  result : String
  actor : TelemetryActor
  object : TelemetryObject
  metadata : List (String × Value α)
  occurredAt : DateTime
  request : Option TelemetryRequestContext
  process : Option TelemetryProcessContext
  reason : Option String
  actorIpHash : Option String

def Value.ofText : Option String → Value α
  | some text => .str text
  | none => .null

/-- `TelemetryRequestContext.to_dict`. -/
def TelemetryRequestContext.toDict (r : TelemetryRequestContext) : List (String × Value α) :=
  [("request_id", .ofText r.requestId), ("correlation_id", .ofText r.correlationId), ("method", .ofText r.method),
    ("route", .ofText r.route), ("path", .ofText r.path), ("host", .ofText r.host), ("origin", .ofText r.origin),
    ("referer", .ofText r.referer), ("user_agent", .ofText r.userAgent), ("client_ip", .ofText r.clientIp),
    ("forwarded_for", .ofText r.forwardedFor), ("auth_method", .ofText r.authMethod)]

/-- `payload.get(key)`, of a dict of texts. -/
def getText (payload : List (String × Value α)) (key : String) : Option String :=
  match payload.lookup key with
  | some (.str text) => some text
  | _ => none

/-- `redact_record`. -/
def redactRecord (record : TelemetryEvent α) : TelemetryEvent α :=
  { record with
    metadata := redactMetadata lib record.metadata
    request := record.request.map fun request =>
      let payload : List (String × Value α) := redactFields lib request.toDict
      { request with
        origin := getText payload "origin"
        referer := getText payload "referer"
        host := getText payload "host"
        userAgent := getText payload "user_agent"
        forwardedFor := getText payload "forwarded_for" } }

/-! ## Records that differ in their secrets -/

/-- Where a value is held: under a URL key, in a list under a URL key, or anywhere else. -/
inductive Place where
  | elsewhere
  | direct
  | listed
  deriving DecidableEq

def placeOf (key : String) : Place := if isUrlKey lib key then .direct else .elsewhere

def Place.inList : Place → Place
  | .elsewhere => .elsewhere
  | .direct | .listed => .listed

mutual

/-- Values that are the same, but for what secret keys hold and for the tokens of URLs. -/
def Alike : Place → Value α → Value α → Prop
  | place, .str text, value => ∃ text', value = .str text' ∧ (text = text' ∨ (place ≠ .elsewhere ∧ SameUrl lib text text'))
  | place, .list items, value => ∃ items', value = .list items' ∧ AlikeItems place.inList items items'
  | _, .tuple items, value => ∃ items', value = .tuple items' ∧ AlikeItems .elsewhere items items'
  | _, .dict fields, value => ∃ fields', value = .dict fields' ∧ AlikeFields fields fields'
  | _, .null, value => value = .null
  | _, .other a, value => value = .other a

def AlikeItems : Place → List (Value α) → List (Value α) → Prop
  | _, [], items => items = []
  | place, item :: items, all => ∃ item' items', all = item' :: items' ∧ Alike place item item' ∧ AlikeItems place items items'

def AlikeFields : List (String × Value α) → List (String × Value α) → Prop
  | [], fields => fields = []
  | (key, item) :: fields, all =>
    ∃ item' fields', all = (key, item') :: fields' ∧ (isSecretKey lib key = true ∨ Alike (placeOf lib key) item item') ∧
      AlikeFields fields fields'

end

mutual

/-- No URL with a token is held in a list, or cannot be split. -/
def guarded : Place → Value α → Bool
  | .elsewhere, .str _ => true
  | .direct, .str url => canSplit lib url || !carriesToken lib url
  | .listed, .str url => !carriesToken lib url
  | place, .list items => guardedItems place.inList items
  | _, .tuple items => guardedItems .elsewhere items
  | _, .dict fields => guardedFields fields
  | _, .null => true
  | _, .other _ => true

def guardedItems : Place → List (Value α) → Bool
  | _, [] => true
  | place, item :: items => guarded place item && guardedItems place items

def guardedFields : List (String × Value α) → Bool
  | [] => true
  | (key, item) :: fields => (isSecretKey lib key || guarded (placeOf lib key) item) && guardedFields fields

end

mutual

/-- No URL has whitespace behind control characters. -/
def steady : Value α → Bool
  | .list items => steadyItems items
  | .tuple items => steadyItems items
  | .dict fields => steadyFields fields
  | .str _ => true
  | .null => true
  | .other _ => true

def steadyItems : List (Value α) → Bool
  | [] => true
  | item :: items => steady item && steadyItems items

def steadyFields : List (String × Value α) → Bool
  | [] => true
  | (key, item) :: fields =>
    (isSecretKey lib key ||
      match urlOf lib key item with
      | some url => steadyUrl lib url
      | none => steady item) && steadyFields fields

end

/-! ## Values -/

section

variable {lib}

mutual

theorem Alike.refl (place : Place) (value : Value α) : Alike lib place value value := by
  cases value with
  | null => simp only [Alike]
  | other a => simp only [Alike]
  | str text => simp [Alike]
  | list items => simp [Alike, AlikeItems.refl place.inList items]
  | tuple items => simp [Alike, AlikeItems.refl .elsewhere items]
  | dict fields => simp [Alike, AlikeFields.refl fields]

theorem AlikeItems.refl (place : Place) (items : List (Value α)) : AlikeItems lib place items items := by
  cases items with
  | nil => simp only [AlikeItems]
  | cons item items => simp [AlikeItems, Alike.refl place item, AlikeItems.refl place items]

theorem AlikeFields.refl (fields : List (String × Value α)) : AlikeFields lib fields fields := by
  cases fields with
  | nil => simp only [AlikeFields]
  | cons field fields =>
    obtain ⟨key, item⟩ := field
    simp [AlikeFields, Alike.refl (placeOf lib key) item, AlikeFields.refl fields]

end

/-- How a value is redacted at its place. -/
def redactAt (lib : UrlLib) : Place → Value α → Value α
  | .direct, .str url => .str (sanitizeUrl lib url)
  | _, value => redactValue lib value

theorem redactAt_of_ne {place : Place} (h : place ≠ .direct) (value : Value α) : redactAt lib place value = redactValue lib value := by
  cases place with
  | direct => exact absurd rfl h
  | elsewhere | listed => cases value <;> rfl

theorem redactFields_cons (key : String) (item : Value α) (fields : List (String × Value α)) :
    redactFields lib ((key, item) :: fields) =
      (key, if isSecretKey lib key then .str redacted else redactAt lib (placeOf lib key) item) :: redactFields lib fields := by
  rw [redactFields]
  congr 2
  split
  · rfl
  · cases item <;> by_cases hurl : isUrlKey lib key = true <;> simp [urlOf, placeOf, hurl, redactAt]

theorem inList_ne_direct (place : Place) : place.inList ≠ .direct := by
  cases place <;> decide

/-- A text at its place. -/
theorem text_hides (place : Place) (text : String) :
    (∀ value', Alike (α := α) lib place (.str text) value' → redactAt lib place (.str text) = redactAt lib place value') ↔
      guarded (α := α) lib place (.str text) = true := by
  have hforall : (∀ value', Alike (α := α) lib place (.str text) value' → redactAt lib place (.str text) = redactAt lib place value') ↔
      ∀ text', text = text' ∨ (place ≠ .elsewhere ∧ SameUrl lib text text') →
        redactAt (α := α) lib place (.str text) = redactAt lib place (.str text') := by
    constructor
    · intro h text' hsame
      exact h (.str text') (by simpa [Alike] using hsame)
    · intro h value' halike
      rw [Alike] at halike
      obtain ⟨text', rfl, hsame⟩ := halike
      exact h text' hsame
  rw [hforall]
  cases place with
  | elsewhere =>
    simp only [guarded, iff_true, ne_eq, not_true_eq_false, false_and, or_false]
    intro text' htext
    rw [htext]
  | direct =>
    simp only [guarded, redactAt, Value.str.injEq, Bool.or_eq_true, Bool.not_eq_true']
    rw [← sanitizeUrl_hides_iff]
    constructor
    · intro h url' hsame
      exact h url' (.inr ⟨by decide, hsame⟩)
    · intro h text' hsame
      rcases hsame with rfl | ⟨-, hsame⟩
      · rfl
      · exact h text' hsame
  | listed =>
    simp only [guarded, redactAt, redactValue, Value.str.injEq, Bool.not_eq_true']
    constructor
    · intro h
      rw [← Bool.not_eq_true]
      intro htoken
      obtain ⟨url', hsame, hne⟩ := exists_other htoken
      exact hne (h url' (.inr ⟨by decide, hsame⟩)).symm
    · intro h text' hsame
      rcases hsame with rfl | ⟨-, hsame⟩
      · rfl
      · exact eq_of_no_token hsame h

/-- Containers come to the same exactly if their contents do. -/
theorem container_hides {β : Type} {P : β → β → Prop} {wrap : β → Value α} {redact : β → β} {place : Place} {contents : β}
    (halike : ∀ value', Alike lib place (wrap contents) value' ↔ ∃ contents', value' = wrap contents' ∧ P contents contents')
    (hredact : ∀ contents, redactAt lib place (wrap contents) = wrap (redact contents))
    (hwrap : ∀ a b, wrap a = wrap b → a = b) :
    (∀ value', Alike lib place (wrap contents) value' → redactAt lib place (wrap contents) = redactAt lib place value') ↔
      ∀ contents', P contents contents' → redact contents = redact contents' := by
  constructor
  · intro h contents' hP
    have hsame := h (wrap contents') ((halike _).mpr ⟨contents', rfl, hP⟩)
    rw [hredact, hredact] at hsame
    exact hwrap _ _ hsame
  · intro h value' hvalue
    obtain ⟨contents', rfl, hP⟩ := (halike _).mp hvalue
    rw [hredact, hredact, h contents' hP]

mutual

/-- A value's secrets are hidden exactly if it is guarded. -/
theorem redactAt_hides (place : Place) (value : Value α) :
    (∀ value', Alike lib place value value' → redactAt lib place value = redactAt lib place value') ↔
      guarded lib place value = true := by
  cases value with
  | str text => exact text_hides place text
  | null =>
    refine iff_of_true (fun value' halike => ?_) (by cases place <;> simp only [guarded])
    rw [Alike] at halike
    rw [halike]
  | other a =>
    refine iff_of_true (fun value' halike => ?_) (by cases place <;> simp only [guarded])
    rw [Alike] at halike
    rw [halike]
  | list items =>
    rw [guarded, ← redactItems_hides (inList_ne_direct place) items]
    apply container_hides
    · intro value'
      rw [Alike]
    · intro items
      cases place <;> simp only [redactAt, redactValue]
    · intro a b h
      exact Value.list.inj h
  | tuple items =>
    rw [guarded, ← redactItems_hides (by decide) items]
    apply container_hides
    · intro value'
      rw [Alike]
    · intro items
      cases place <;> simp only [redactAt, redactValue]
    · intro a b h
      exact Value.tuple.inj h
  | dict fields =>
    rw [guarded, ← redactFields_hides fields]
    apply container_hides
    · intro value'
      rw [Alike]
    · intro items
      cases place <;> simp only [redactAt, redactValue]
    · intro a b h
      exact Value.dict.inj h

theorem redactItems_hides {place : Place} (hplace : place ≠ .direct) (items : List (Value α)) :
    (∀ items', AlikeItems lib place items items' → redactItems lib items = redactItems lib items') ↔
      guardedItems lib place items = true := by
  cases items with
  | nil => simp [AlikeItems, guardedItems]
  | cons item items =>
    rw [guardedItems, Bool.and_eq_true, ← redactAt_hides place item, ← redactItems_hides hplace items]
    simp only [redactAt_of_ne hplace]
    constructor
    · intro h
      constructor
      · intro item' halike
        have hsame := h (item' :: items) (by simp [AlikeItems, halike, AlikeItems.refl])
        simp only [redactItems, List.cons.injEq] at hsame
        exact hsame.1
      · intro items' halike
        have hsame := h (item :: items') (by simp [AlikeItems, halike, Alike.refl])
        simp only [redactItems, List.cons.injEq] at hsame
        exact hsame.2
    · intro h all halike
      obtain ⟨item', items', rfl, hitem, hitems⟩ := by simpa only [AlikeItems] using halike
      simp only [redactItems, h.1 item' hitem, h.2 items' hitems]

theorem redactFields_hides (fields : List (String × Value α)) :
    (∀ fields', AlikeFields lib fields fields' → redactFields lib fields = redactFields lib fields') ↔
      guardedFields lib fields = true := by
  cases fields with
  | nil => simp [AlikeFields, guardedFields]
  | cons field fields =>
    obtain ⟨key, item⟩ := field
    rw [guardedFields, Bool.and_eq_true, Bool.or_eq_true, ← redactAt_hides (placeOf lib key) item, ← redactFields_hides fields]
    constructor
    · intro h
      constructor
      · by_cases hsecret : isSecretKey lib key = true
        · exact .inl hsecret
        right
        intro item' halike
        have hsame := h ((key, item') :: fields) (by simp [AlikeFields, halike, AlikeFields.refl])
        rw [redactFields_cons, redactFields_cons, if_neg hsecret, if_neg hsecret] at hsame
        exact (Prod.mk.inj (List.cons.inj hsame).1).2
      · intro fields' halike
        have hsame := h ((key, item) :: fields') (by simp [AlikeFields, halike, Alike.refl])
        rw [redactFields_cons, redactFields_cons] at hsame
        exact (List.cons.inj hsame).2
    · intro h all halike
      obtain ⟨item', fields', rfl, hitem, hfields⟩ := by simpa only [AlikeFields] using halike
      rw [redactFields_cons, redactFields_cons, h.2 fields' hfields]
      by_cases hsecret : isSecretKey lib key = true
      · rw [if_pos hsecret, if_pos hsecret]
      · rw [if_neg hsecret, if_neg hsecret]
        rw [(h.1.resolve_left hsecret) item' (hitem.resolve_left hsecret)]

end

/-! ### Twice -/

/-- What was no URL is none when it is redacted. -/
theorem urlOf_redactValue {key : String} {value : Value α} (h : urlOf lib key value = none) :
    urlOf lib key (redactValue lib value) = none := by
  cases value with
  | str text => simpa [redactValue] using h
  | null | other | list | tuple | dict => simp [redactValue, urlOf]

mutual

theorem redactValue_twice (hlower : LowersAscii lib) (value : Value α) :
    redactValue lib (redactValue lib value) = redactValue lib value ↔ steady lib value = true := by
  cases value with
  | str text => simp [redactValue, steady]
  | null => simp [redactValue, steady]
  | other a => simp [redactValue, steady]
  | list items => simp [redactValue, steady, redactItems_twice hlower items]
  | tuple items => simp [redactValue, steady, redactItems_twice hlower items]
  | dict fields => simp [redactValue, steady, redactFields_twice hlower fields]

theorem redactItems_twice (hlower : LowersAscii lib) (items : List (Value α)) :
    redactItems lib (redactItems lib items) = redactItems lib items ↔ steadyItems lib items = true := by
  cases items with
  | nil => simp [redactItems, steadyItems]
  | cons item items => simp [redactItems, steadyItems, redactValue_twice hlower item, redactItems_twice hlower items]

theorem redactFields_twice (hlower : LowersAscii lib) (fields : List (String × Value α)) :
    redactFields lib (redactFields lib fields) = redactFields lib fields ↔ steadyFields lib fields = true := by
  cases fields with
  | nil => simp [redactFields, steadyFields]
  | cons field fields =>
    obtain ⟨key, item⟩ := field
    have hitem := redactValue_twice hlower item
    have hfields := redactFields_twice hlower fields
    simp only [redactFields, steadyFields, List.cons.injEq, Prod.mk.injEq, true_and, hfields, Bool.and_eq_true, Bool.or_eq_true]
    apply and_congr_left'
    by_cases hsecret : isSecretKey lib key = true
    · simp [hsecret]
    · simp only [hsecret, Bool.false_eq_true, if_false, false_or]
      cases hurl : urlOf lib key item with
      | some url =>
        have hagain : urlOf (α := α) lib key (.str (sanitizeUrl lib url)) = some (sanitizeUrl lib url) := by
          cases item <;> simp [urlOf] at hurl ⊢
          exact hurl.1
        simp [hagain, sanitizeUrl_twice_iff hlower]
      | none => simp [urlOf_redactValue hurl, hitem]

end

end

/-! ## The whole record -/

/-- Records that are the same, but for what secret keys hold and for the tokens of URLs, the referer's among them. -/
structure SameRecord (record other : TelemetryEvent α) : Prop where
  rest : other = { record with metadata := other.metadata, request := other.request }
  metadata : AlikeFields lib record.metadata other.metadata
  request : Option.Rel (fun request request' : TelemetryRequestContext => request' = { request with referer := request'.referer } ∧
    Option.Rel (SameUrl lib) request.referer request'.referer) record.request other.request

/-- No URL with a token is held in a list, or cannot be split. -/
def TelemetryEvent.guarded (record : TelemetryEvent α) : Bool :=
  guardedFields lib record.metadata &&
    record.request.all fun request => request.referer.all fun url => canSplit lib url || !carriesToken lib url

/-- No URL has whitespace behind control characters. -/
def TelemetryEvent.steady (record : TelemetryEvent α) : Bool :=
  steadyFields lib record.metadata && record.request.all fun request => request.referer.all (steadyUrl lib)

section

variable {lib}

theorem lower_same (hlower : LowersAscii lib) {text : String} (h : text.toList.all fun c => c.toNat < 128 && c.toLower == c) :
    lib.lower text = text := by
  have hall : ∀ c ∈ text.toList, c.toNat < 128 ∧ c.toLower = c := by
    intro c hc
    simpa using List.all_eq_true.mp h c hc
  rw [← String.ofList_toList (s := text), hlower _ fun c hc => (hall c hc).1]
  congr 1
  conv_rhs => rw [← List.map_id text.toList]
  apply List.map_congr_left
  intro c hc
  exact (hall c hc).2

/-- A text under a plain key of the request. -/
theorem redactFields_text (key : String) (text : Option String) (fields : List (String × Value α)) (hkey : lib.lower key = key) :
    redactFields lib ((key, .ofText text) :: fields) =
      (key, if secretKeys.contains key then .str redacted
        else .ofText (if urlKeys.contains key then text.map (sanitizeUrl lib) else text)) :: redactFields lib fields := by
  rw [redactFields_cons]
  congr 2
  simp only [isSecretKey, placeOf, isUrlKey, hkey]
  split
  · rfl
  · split
    · cases text <;> simp only [Value.ofText, redactAt, redactValue, Option.map_some, Option.map_none]
    · cases text <;> simp only [Value.ofText, redactAt, redactValue]

theorem redactFields_request (hlower : LowersAscii lib) (request : TelemetryRequestContext) :
    redactFields lib (request.toDict : List (String × Value α)) =
      { request with referer := request.referer.map (sanitizeUrl lib) }.toDict := by
  have hkeys : ∀ key ∈ (request.toDict : List (String × Value α)).map (·.1), lib.lower key = key := by
    intro key hkey
    simp only [TelemetryRequestContext.toDict, List.map_cons, List.map_nil, List.mem_cons, List.not_mem_nil, or_false] at hkey
    rcases hkey with rfl | rfl | rfl | rfl | rfl | rfl | rfl | rfl | rfl | rfl | rfl | rfl <;>
      exact lower_same hlower (by decide +kernel)
  simp only [TelemetryRequestContext.toDict, List.map_cons, List.map_nil, List.forall_mem_cons] at hkeys
  obtain ⟨h1, h2, h3, h4, h5, h6, h7, h8, h9, h10, h11, h12, -⟩ := hkeys
  simp only [TelemetryRequestContext.toDict, redactFields_text _ _ _ h1, redactFields_text _ _ _ h2, redactFields_text _ _ _ h3,
    redactFields_text _ _ _ h4, redactFields_text _ _ _ h5, redactFields_text _ _ _ h6, redactFields_text _ _ _ h7,
    redactFields_text _ _ _ h8, redactFields_text _ _ _ h9, redactFields_text _ _ _ h10, redactFields_text _ _ _ h11,
    redactFields_text _ _ _ h12]
  rfl

theorem getText_ofText (key : String) (text : Option String) (fields : List (String × Value α)) :
    getText ((key, .ofText text) :: fields) key = text := by
  cases text <;> simp [getText, Value.ofText]

theorem getText_skip {key key' : String} (h : key ≠ key') (value : Value α) (fields : List (String × Value α)) :
    getText ((key', value) :: fields) key = getText fields key := by
  have hbeq : (key == key') = false := by simpa using h
  simp [getText, List.lookup_cons, hbeq]

/-- Of the request, only the referer is changed. -/
theorem redactRecord_eq (hlower : LowersAscii lib) (record : TelemetryEvent α) : redactRecord lib record =
    { record with
      metadata := redactFields lib record.metadata
      request := record.request.map fun request => { request with referer := request.referer.map (sanitizeUrl lib) } } := by
  unfold redactRecord redactMetadata
  congr 1
  cases record.request with
  | none => rfl
  | some request =>
    simp only [Option.map_some, redactFields_request hlower, Option.some.injEq]
    simp [TelemetryRequestContext.toDict, getText_skip, getText_ofText]

theorem SameRecord.refl (record : TelemetryEvent α) : SameRecord lib record record := by
  refine ⟨rfl, AlikeFields.refl _, ?_⟩
  cases record.request with
  | none => exact .none
  | some request =>
    refine .some ⟨rfl, ?_⟩
    cases request.referer with
    | none => exact .none
    | some url => exact .some (SameUrl.refl url)

/-- The referer, if there is one. -/
theorem referer_hides (referer : Option String) :
    (∀ referer', Option.Rel (SameUrl lib) referer referer' → referer.map (sanitizeUrl lib) = referer'.map (sanitizeUrl lib)) ↔
      (referer.all fun url => canSplit lib url || !carriesToken lib url) = true := by
  cases referer with
  | none =>
    refine iff_of_true (fun referer' hrel => ?_) rfl
    cases hrel
    rfl
  | some url =>
    rw [Option.all_some, Bool.or_eq_true, Bool.not_eq_true', ← sanitizeUrl_hides_iff]
    constructor
    · intro h url' hsame
      exact Option.some.inj (h (some url') (.some hsame))
    · intro h referer' hrel
      cases hrel with
      | some hsame => exact congrArg some (h _ hsame)

theorem referer_twice (hlower : LowersAscii lib) (referer : Option String) :
    (referer.map (sanitizeUrl lib)).map (sanitizeUrl lib) = referer.map (sanitizeUrl lib) ↔
      referer.all (steadyUrl lib) = true := by
  cases referer with
  | none => exact iff_of_true rfl rfl
  | some url => simp [sanitizeUrl_twice_iff hlower]

theorem redactRecord_hides (hlower : LowersAscii lib) (record : TelemetryEvent α) :
    (∀ other, SameRecord lib record other → redactRecord lib record = redactRecord lib other) ↔ record.guarded lib = true := by
  simp only [redactRecord_eq hlower]
  rw [TelemetryEvent.guarded, Bool.and_eq_true, ← redactFields_hides]
  constructor
  · intro h
    constructor
    · intro metadata' halike
      have hsame := h { record with metadata := metadata' } ⟨rfl, halike, (SameRecord.refl record).request⟩
      exact (TelemetryEvent.mk.inj hsame).2.2.2.2.2.1
    · cases hrequest : record.request with
      | none => rfl
      | some request =>
        rw [Option.all_some, ← referer_hides]
        intro referer' hrel
        have hother : SameRecord lib record { record with request := some { request with referer := referer' } } := by
          refine ⟨rfl, AlikeFields.refl _, ?_⟩
          rw [hrequest]
          exact .some ⟨rfl, hrel⟩
        have hsame := (TelemetryEvent.mk.inj (h _ hother)).2.2.2.2.2.2.2.1
        rw [hrequest] at hsame
        exact congrArg TelemetryRequestContext.referer (Option.some.inj hsame)
  · intro h other hsame
    obtain ⟨hmetadata, hrequest⟩ := h
    rw [hsame.rest, hmetadata other.metadata hsame.metadata]
    congr 1
    have hrel := hsame.request
    cases hrecord : record.request with
    | none =>
      rw [hrecord] at hrel
      cases hother : other.request with
      | none => rfl
      | some request' =>
        rw [hother] at hrel
        cases hrel
    | some request =>
      rw [hrecord] at hrel hrequest
      cases hother : other.request with
      | none =>
        rw [hother] at hrel
        cases hrel
      | some request' =>
        rw [hother] at hrel
        cases hrel with
        | some hboth =>
          obtain ⟨hrest, hreferer⟩ := hboth
          rw [Option.all_some, ← referer_hides] at hrequest
          rw [Option.map_some, Option.map_some, hrest, hrequest _ hreferer]

theorem redactRecord_twice (hlower : LowersAscii lib) (record : TelemetryEvent α) :
    redactRecord lib (redactRecord lib record) = redactRecord lib record ↔ record.steady lib = true := by
  simp only [redactRecord_eq hlower]
  rw [TelemetryEvent.steady, Bool.and_eq_true, ← redactFields_twice hlower]
  have hrequest : ((record.request.map fun request => { request with referer := request.referer.map (sanitizeUrl lib) }).map
      fun request => { request with referer := request.referer.map (sanitizeUrl lib) }) =
        (record.request.map fun request => { request with referer := request.referer.map (sanitizeUrl lib) }) ↔
      (record.request.all fun request => request.referer.all (steadyUrl lib)) = true := by
    cases record.request with
    | none => exact iff_of_true rfl rfl
    | some request =>
      rw [Option.all_some, ← referer_twice hlower]
      simp
  rw [← hrequest]
  simp

end

/-- A record's secrets are hidden exactly if no URL with a token is held in a list or cannot be split; and redacting
    twice is redacting once exactly if no URL has whitespace behind control characters. -/
theorem secrets_are_hidden_iff (hlower : LowersAscii lib) (record : TelemetryEvent α) :
    ((∀ other, SameRecord lib record other → redactRecord lib record = redactRecord lib other) ∧
        redactRecord lib (redactRecord lib record) = redactRecord lib record) ↔
      (record.guarded lib = true ∧ record.steady lib = true) :=
  and_congr (redactRecord_hides hlower record) (redactRecord_twice hlower record)

namespace RedactionSample

/-- `str.lower` on ASCII; no address is known. -/
def plainLib : UrlLib where
  lower text := String.ofList (text.toList.map Char.toLower)
  nfkc text := text
  IpAddress := String
  ipAddress _ := none
  isIPv4 _ := true
  str address := address
  inNetwork _ _ := false

theorem plainLib_lowers : LowersAscii plainLib := by
  intro l _
  show String.ofList ((String.ofList l).toList.map Char.toLower) = _
  rw [String.toList_ofList]

def request (referer : String) : TelemetryRequestContext where
  requestId := none
  correlationId := none
  method := some "GET"
  route := none
  path := none
  host := none
  origin := none
  referer := some referer
  userAgent := none
  clientIp := none
  forwardedFor := none
  authMethod := none

def record (metadata : List (String × Value Unit)) (referer : String) : TelemetryEvent Unit where
  eventType := "media"
  action := "delete"
  result := "success"
  actor := ⟨none, "anonymous", none⟩
  object := ⟨"media", none⟩
  metadata := metadata
  occurredAt := 0
  request := some (request referer)
  process := none
  reason := none
  actorIpHash := none

def manage (token : String) : String := "https://images.example/m?token=" ++ token

def listed (token : String) : TelemetryEvent Unit := record [("url", .list [.str (manage token)])] "/"

/-- A referer that `urlsplit` refuses. -/
def unsplit (token : String) : TelemetryEvent Unit := record [] ("https://[/m?token=" ++ token)

def sameUrl (url url' : String) : Prop :=
  (UrlParts.ofText url.toList).head = (UrlParts.ofText url'.toList).head ∧
    (UrlParts.ofText url.toList).query = some "token=a".toList ∧ (UrlParts.ofText url'.toList).query = some "token=b".toList ∧
    (UrlParts.ofText url.toList).fragment = (UrlParts.ofText url'.toList).fragment
  deriving Decidable

theorem sameUrl_same {url url' : String} (h : sameUrl url url') : SameUrl plainLib url url' := by
  obtain ⟨hhead, hquery, hquery', hfragment⟩ := h
  refine ⟨hhead, ?_, hfragment⟩
  rw [hquery, hquery']
  apply Option.Rel.some
  show List.Forall₂ (SamePair plainLib) ["token=a".toList] ["token=b".toList]
  apply List.Forall₂.cons _ .nil
  exact .token "token".toList "a".toList "b".toList (by decide) (by decide +kernel)

end RedactionSample

open RedactionSample in
theorem a_referer_hides_its_token :
    ((∀ other, SameRecord plainLib (record [("Token", .str "a")] (manage "a")) other →
        redactRecord plainLib (record [("Token", .str "a")] (manage "a")) = redactRecord plainLib other) ∧
      redactRecord plainLib (redactRecord plainLib (record [("Token", .str "a")] (manage "a"))) =
        redactRecord plainLib (record [("Token", .str "a")] (manage "a"))) :=
  (secrets_are_hidden_iff plainLib plainLib_lowers _).mpr ⟨by decide +kernel, by decide +kernel⟩

open RedactionSample in
/-- A token in a list is kept, and so is one in a referer that cannot be split; and a space that no control character
    stands before any more is stripped the second time. -/
theorem a_listed_url_keeps_its_token :
    SameRecord plainLib (listed "a") (listed "b") ∧ redactRecord plainLib (listed "a") ≠ redactRecord plainLib (listed "b") ∧
      SameRecord plainLib (unsplit "a") (unsplit "b") ∧ redactRecord plainLib (unsplit "a") ≠ redactRecord plainLib (unsplit "b") ∧
      redactRecord plainLib (redactRecord plainLib (record [] "\u0000\u00a0?token=a")) ≠
        redactRecord plainLib (record [] "\u0000\u00a0?token=a") := by
  have hlisted (token : String) : (redactRecord plainLib (listed token)).metadata = [("url", .list [.str (manage token)])] := by
    show redactFields plainLib [("url", .list [.str (manage token)])] = _
    have hsecret : isSecretKey plainLib "url" = false := by decide +kernel
    simp [redactFields, hsecret, urlOf, redactValue, redactItems]
  have hunsplit (token : String) (h : canSplit plainLib ("https://[/m?token=" ++ token) = false) :
      (redactRecord plainLib (unsplit token)).request = some (request ("https://[/m?token=" ++ token)) := by
    rw [redactRecord_eq plainLib_lowers, unsplit, record]
    simp only [Option.map_some, request]
    rw [sanitizeUrl_unsplit h]
  refine ⟨⟨rfl, ?_, ?_⟩, ?_, ⟨rfl, ?_, ?_⟩, ?_, ?_⟩
  · simp only [listed, record, AlikeFields, Alike, AlikeItems]
    refine ⟨_, _, rfl, .inr ⟨_, rfl, _, _, rfl, ⟨_, rfl, .inr ⟨by decide +kernel, ?_⟩⟩, rfl⟩, rfl⟩
    exact sameUrl_same (by decide +kernel)
  · exact .some ⟨rfl, .some (.refl _)⟩
  · intro h
    have hurl : manage "a" = manage "b" := by
      simpa only [hlisted, List.cons.injEq, Prod.mk.injEq, Value.list.injEq, Value.str.injEq, and_true, true_and] using
        congrArg TelemetryEvent.metadata h
    exact absurd hurl (by decide +kernel)
  · exact AlikeFields.refl _
  · exact .some ⟨rfl, .some (sameUrl_same (by decide +kernel))⟩
  · intro h
    have hrequest := congrArg TelemetryEvent.request h
    rw [hunsplit "a" (by decide +kernel), hunsplit "b" (by decide +kernel), Option.some.injEq] at hrequest
    have hurl := Option.some.inj (congrArg TelemetryRequestContext.referer hrequest)
    exact absurd hurl (by decide +kernel)
  · intro h
    rw [redactRecord_twice plainLib_lowers] at h
    exact absurd h (by decide +kernel)

end Imghost.Telemetry
