/-
  Imghost.OAuth.FlowLog — what a start and a callback have asked and been told.

  The log of a call says what it can ask next: a start stores a nonce once, with its own draws and
  the user it has found signed in; a callback sends a code, stores a link and opens a session
  only after it has read its state, deleted the nonce and, in the modes of a request that is
  signed in, found the user of the state.
-/

import Imghost.OAuth.Callback

namespace Imghost.OAuth

open Imghost.Async Imghost.Data Imghost.Model Imghost.Service Imghost.Sessions Imghost.Tokens Program

-- the checks of a user's fields are not to be run on variables
attribute [local irreducible] strip validateUserInput

/-! ## Operations -/

inductive FlowCall where
  | start (c : StartCall)
  | callback (c : CallbackCall)
  /-- Anything else: it leaves the nonces alone. -/
  | other (p : OAuthProg Unit)

variable (lib : FlowLib)

def FlowCall.prog : FlowCall → FlowProg RedirectResponse
  | .start c => startOauth lib c
  | .callback c => oauthCallback lib c
  | .other p => p.widen.bind fun _ => ret (queryRedirect "" [] none)

abbrev FlowEvent := Event FlowCallReply PyExc
abbrev FlowLog := List FlowEvent
abbrev FlowPool := Pool FlowCallReply PyExc FlowWorld RedirectResponse

def FlowPool.start (w : FlowWorld) (calls : List FlowCall) : FlowPool := Pool.start w (calls.map (·.prog lib))

/-! ## What a call has seen -/

def Answered (log : FlowLog) (r : FlowCallReq) (a : FlowCallReply r) : Prop :=
  ∃ b, (⟨r, .ok a, b⟩ : FlowEvent) ∈ log

/-- A text as UUIDs are written. -/
def IsUserId (userId : String) : Prop := strip userId = userId ∧ userId ≠ ""

/-- The nonce that a start stores: with its own draws, its mode, and the user it has found signed in. -/
structure NonceOf (c : StartCall) (log : FlowLog) (nonce : OAuthStateNonce) : Prop where
  jti : nonce.jti = c.jti
  mode : nonce.mode = startMode lib c.mode
  codeVerifier : nonce.codeVerifier = c.codeVerifier
  user : ∃ user : Option User, Answered log (.inr (.authenticatedUser c.cookies)) user ∧
    nonce.userId = boundUser (startMode lib c.mode) user ∧ ∀ u ∈ user, IsUserId u.id

/-- The callback has read its state, deleted the nonce, and found the user of the state signed in. -/
structure Passed (c : CallbackCall) (log : FlowLog) (payload : OAuthStatePayload) (nonce : OAuthStateNonce) : Prop where
  state : ∃ now, oauthCallbackState lib.sessions lib.secretKey now 600 c.state = .ok (some payload)
  consumed : Answered log (.inr (.consumeOauthStateNonce payload.jti)) (some nonce)
  jti : nonce.jti = payload.jti
  user : bound payload.mode = true →
    ∃ user, Answered log (.inr (.authenticatedUser c.cookies)) (some user) ∧ payload.userId = some user.id

/-- The provider has answered the callback with the identity. -/
def Identified (log : FlowLog) (provider providerUid : String) : Prop :=
  ∃ name code uri verifier identity, Answered log (.inr (.exchangeCode name code uri verifier)) identity ∧
    identity.provider = provider ∧ identity.providerUid = providerUid

/-- A link of the identity, to the user of the state or to the account that the callback registers. -/
structure LinkOf (c : CallbackCall) (log : FlowLog) (payload : OAuthStatePayload) (link : UserSsoLink) : Prop where
  mode : payload.mode ≠ "delete_account"
  identified : Identified log link.provider link.providerUid
  linking : payload.mode = "link" → payload.userId = some link.userId
  login : payload.mode = "login" → link.userId = c.userId

/-! ## What a call can ask -/

def CanStart (c : StartCall) (log : FlowLog) : FlowCallReq → Prop
  | .inr (.createOauthStateNonce nonce) =>
    NonceOf lib c log nonce ∧ ∀ e ∈ log, ∀ nonce', e.req ≠ .inr (.createOauthStateNonce nonce')
  | .inr (.consumeOauthStateNonce _) | .inr (.exchangeCode ..) => False
  | _ => True

def CanCallback (c : CallbackCall) (log : FlowLog) : FlowCallReq → Prop
  | .inr (.createOauthStateNonce _) => False
  | .inr (.exchangeCode _ _ _ codeVerifier) => ∃ payload nonce, Passed lib c log payload nonce ∧ codeVerifier = nonce.codeVerifier
  | .inr (.createSession _) => ∃ payload nonce, Passed lib c log payload nonce ∧ bound payload.mode = false
  | .inl (.inr (.createUserSsoLink link)) => ∃ payload nonce, Passed lib c log payload nonce ∧ LinkOf c log payload link
  | _ => True

def CanFlow (call : Option FlowCall) (log : FlowLog) (r : FlowCallReq) : Prop :=
  match call with
  | some (.start c) => CanStart lib c log r
  | some (.callback c) => CanCallback lib c log r
  | _ => r.isLeft = true

/-- Each call's protocol state is its log. -/
def flowing (call : Option FlowCall) : Protocol FlowCallReply PyExc FlowLog := ⟨CanFlow lib call, fun log e => log ++ [e]⟩

/-- What is stored is returned, what is deleted has the `jti`, and ids of users are UUIDs. -/
def HonestFlow : FlowEvent → Prop
  | ⟨.inr (.authenticatedUser _), .ok (some user), _⟩ => IsUserId user.id
  | ⟨.inr (.createOauthStateNonce nonce), .ok nonce', _⟩ => nonce' = nonce
  | ⟨.inr (.consumeOauthStateNonce jti), .ok (some nonce), _⟩ => nonce.jti = jti
  | _ => True

/-- The state of the response is that of a nonce of the start. -/
def IssuedBy (c : StartCall) (log : FlowLog) (state : String) : Prop :=
  ∃ now nextPath nonce, NonceOf lib c log nonce ∧ state = OAuthStateManager.dumps lib.sessions lib.secretKey now
    { mode := nonce.mode, nextPath := nextPath, jti := nonce.jti, userId := nonce.userId, createdAt := none }

/-- The token confirms the deletion of the user of the state, who is linked to the identity. -/
def Confirms (log : FlowLog) (payload : OAuthStatePayload) (token : String) : Prop :=
  ∃ now userId provider providerUid link, payload.userId = some userId ∧ Identified log provider providerUid ∧
    Answered log (.inl (.inr (.getUserSsoLink provider providerUid))) (some link) ∧ link.userId = userId ∧
    token = AccountDeleteReauthTokenManager.dumps lib.sessions lib.secretKey now ⟨userId, provider, providerUid, none⟩

/-- What is known of a response. -/
def EndedFlow (call : Option FlowCall) (x : Except PyExc RedirectResponse) (log : FlowLog) : Prop :=
  match call, x with
  | some (.start c), .ok (.authorization _ _ state _) => IssuedBy lib c log state
  | some (.callback c), .ok (.redirect _ (some (.deleteReauth token))) =>
    ∃ payload nonce, Passed lib c log payload nonce ∧ payload.mode = "delete_account" ∧ Confirms lib log payload token
  | _, _ => True

variable {lib} {call : Option FlowCall} {log log' : FlowLog} {c : CallbackCall}

theorem Answered.mono {r : FlowCallReq} {a : FlowCallReply r} (h : Answered log r a) (hlog : log <+: log') : Answered log' r a := by
  obtain ⟨b, hb⟩ := h
  exact ⟨b, hlog.mem hb⟩

theorem answered_last {r : FlowCallReq} {a : FlowCallReply r} {b : Bool} : Answered (log ++ [⟨r, .ok a, b⟩]) r a :=
  ⟨b, List.mem_append_right _ List.mem_cons_self⟩

theorem Passed.mono {payload : OAuthStatePayload} {nonce : OAuthStateNonce} (h : Passed lib c log payload nonce)
    (hlog : log <+: log') : Passed lib c log' payload nonce where
  state := h.state
  consumed := h.consumed.mono hlog
  jti := h.jti
  user := by
    intro hbound
    obtain ⟨user, huser, hid⟩ := h.user hbound
    exact ⟨user, huser.mono hlog, hid⟩

theorem Identified.mono {provider providerUid : String} (h : Identified log provider providerUid) (hlog : log <+: log') :
    Identified log' provider providerUid := by
  obtain ⟨name, code, uri, verifier, identity, hanswered, heq⟩ := h
  exact ⟨name, code, uri, verifier, identity, hanswered.mono hlog, heq⟩

/-- Calls that are allowed wherever the log has come to, and what follows them. -/
theorem wp_grows {α β : Type} {allowed : FlowCallReq → Prop} {p : FlowProg α} {f : α → FlowProg β}
    {Q : Except PyExc β → FlowLog → Prop} (hcan : ∀ log' r, log <+: log' → allowed r → CanFlow lib call log' r)
    (hp : p.Uses allowed) (hok : ∀ a log', log <+: log' → wp ((flowing lib call).machine HonestFlow) Q (f a) log')
    (herr : ∀ e log', log <+: log' → Q (.error e) log') :
    wp ((flowing lib call).machine HonestFlow) Q (p.bind f) log := by
  apply wp_seq (R := fun _ log' => log <+: log') _ hok herr
  apply wp_of_uses (I := fun log' => log <+: log') _ hp (List.prefix_refl log) fun _ _ h => h
  intro r log' hr hlog
  refine ⟨hcan log' r hlog hr, ?_⟩
  rintro x _ ⟨b, -, rfl⟩
  exact hlog.trans (List.prefix_append _ _)

/-! ## Starts -/

theorem startOauth_flows (c : StartCall) :
    wp ((flowing lib (some (.start c))).machine HonestFlow) (EndedFlow lib (some (.start c))) (startOauth lib c) [] := by
  unfold startOauth
  refine wp_check (fun _ => trivial) fun _ => wp_value (fun nextPath _ => ?_) fun _ _ => trivial
  refine Protocol.wp_await trivial (fun (user : Option User) b huser => ?_) fun _ _ _ => trivial
  have hid : ∀ u ∈ user, IsUserId u.id := by
    intro u hu
    obtain rfl := hu
    exact huser
  rw [wp_ite]
  refine ⟨fun _ => trivial, fun _ => ?_⟩
  refine Protocol.wp_await trivial (fun _ _ _ => ?_) fun _ _ _ => trivial
  refine Protocol.wp_await trivial (fun (createdAt : DateTime) _ _ => ?_) fun _ _ _ => trivial
  refine Protocol.wp_await trivial (fun (expiresAt : DateTime) _ _ => ?_) fun _ _ _ => trivial
  have hnonce : ∀ log', [(⟨.inr (.authenticatedUser c.cookies), .ok user, b⟩ : FlowEvent)] <+: log' → NonceOf lib c log'
      { jti := c.jti, mode := startMode lib c.mode, userId := boundUser (startMode lib c.mode) user,
        codeVerifier := c.codeVerifier, createdAt := createdAt, expiresAt := expiresAt + 600 * 1000000 } := by
    intro log' hlog
    exact ⟨rfl, rfl, rfl, user, ⟨b, hlog.mem List.mem_cons_self⟩, rfl, hid⟩
  refine Protocol.wp_await ⟨hnonce _ ⟨_, rfl⟩, ?_⟩ (fun (nonce : OAuthStateNonce) _ hhonest => ?_) fun _ _ _ => trivial
  · intro e he nonce'
    simp only [flowing, List.nil_append, List.cons_append, List.mem_cons, List.not_mem_nil, or_false] at he
    rcases he with rfl | rfl | rfl | rfl <;> simp
  · obtain rfl : nonce = _ := hhonest
    refine Protocol.wp_await trivial (fun (now : DateTime) _ _ => ?_) fun _ _ _ => trivial
    refine wp_value (fun baseUrl _ => ?_) fun _ _ => trivial
    exact ⟨now, nextPath, _, hnonce _ ⟨_, rfl⟩, rfl⟩

/-! ## Callbacks -/

/-- No links but those of the identity, to the user. -/
def LinksTo (identity : OAuthIdentity) (userId : String) : OAuthReq → Prop
  | .inr (.createUserSsoLink link) =>
    link.userId = userId ∧ link.provider = identity.provider ∧ link.providerUid = identity.providerUid
  | _ => True

theorem linkUser_uses (identity : OAuthIdentity) (userId linkId : String) :
    (linkUser userId identity linkId).Uses (LinksTo identity userId) :=
  uses_bind (uses_perform trivial) fun _ => uses_bind (uses_perform ⟨rfl, rfl, rfl⟩) fun _ => trivial

theorem createUser_yields (rt : Runtime) (payload : UserCreateInput) (method source userId salt : String)
    (correlationId actorId : Option String) :
    (createUser rt payload method correlationId actorId source userId salt).Yields (·.id = userId) := by
  unfold createUser
  refine yields_then fun _ => yields_then fun _ => yields_then fun _ => yields_then fun _ => yields_then fun _ => ?_
  exact yields_then fun _ => yields_then fun _ => yields_then fun _ => yields_then fun _ => rfl

theorem createUser_links (rt : Runtime) (payload : UserCreateInput) (method source userId salt : String)
    (correlationId actorId : Option String) (identity : OAuthIdentity) :
    ((createUser rt payload method correlationId actorId source userId salt).widen : OAuthProg User).Uses
      (LinksTo identity userId) :=
  uses_widen ((uses_any _).mono fun _ _ => trivial)

theorem firstFreeUsername_uses (identity : OAuthIdentity) (userId : String) (candidates : List String) :
    (firstFreeUsername candidates).Uses (LinksTo identity userId) := by
  induction candidates with
  | nil => trivial
  | cons candidate candidates ih =>
    refine uses_bind (uses_perform trivial) fun found => ?_
    cases found with
    | none => trivial
    | some user => exact ih

theorem completeRegistration_uses (identity : OAuthIdentity) (allowRegistration : Bool) (correlationId : Option String)
    (source userId linkId : String) :
    (completeRegistration lib.toOAuthLib identity allowRegistration correlationId source userId linkId).Uses
      (LinksTo identity userId) := by
  unfold completeRegistration
  refine uses_bind (uses_raiseIf _ _) fun _ => uses_bind (uses_perform trivial) fun _ => uses_bind (uses_raiseIf _ _) fun _ => ?_
  refine uses_bind (firstFreeUsername_uses _ _ _) fun username => ?_
  refine uses_bind_yields (createUser_links ..) (yields_widen (createUser_yields ..)) fun newUser hid => ?_
  have hlink := linkUser_uses identity newUser.id linkId
  rw [hid] at hlink
  rw [hid]
  exact uses_bind hlink fun _ => trivial

theorem completeLinked_uses (identity : OAuthIdentity) (currentUser : Option User) (link : UserSsoLink) (userId : String) :
    (completeLinked lib.toOAuthLib identity currentUser link).Uses (LinksTo identity userId) := by
  refine uses_bind (uses_perform trivial) fun found => ?_
  cases found with
  | none => trivial
  | some user => exact uses_bind (uses_raiseIf _ _) fun _ => uses_bind (uses_raiseIf _ _) fun _ => trivial

theorem completeOauthLogin_uses (identity : OAuthIdentity) (currentUser : Option User) (allowRegistration : Bool)
    (correlationId : Option String) (source userId linkId : String) :
    (completeOauthLogin lib.toOAuthLib identity currentUser allowRegistration correlationId source userId linkId).Uses
      (LinksTo identity ((currentUser.map (·.id)).getD userId)) := by
  unfold completeOauthLogin
  refine uses_bind (uses_raiseIf _ _) fun _ => uses_bind (uses_raiseIf _ _) fun _ => ?_
  refine uses_bind (uses_perform trivial) fun existingLink => ?_
  cases existingLink with
  | some link => exact completeLinked_uses ..
  | none =>
    cases currentUser with
    | some user => exact uses_bind (linkUser_uses _ _ _) fun _ => trivial
    | none => exact completeRegistration_uses ..

/-- The calls of `complete_oauth_login`, for a callback that has passed and got the identity. -/
theorem can_complete {payload : OAuthStatePayload} {nonce : OAuthStateNonce} {identity : OAuthIdentity}
    {currentUser : Option User} (hpassed : Passed lib c log payload nonce)
    (hidentified : Identified log identity.provider identity.providerUid) (hmode : payload.mode ≠ "delete_account")
    (hlinking : payload.mode = "link" → ∃ user, currentUser = some user ∧ payload.userId = some user.id)
    (hlogin : payload.mode = "login" → currentUser = none) {log' : FlowLog} {r : FlowCallReq} (hlog : log <+: log')
    (hr : Sum.elim (LinksTo identity ((currentUser.map (·.id)).getD c.userId)) (fun _ => False) r) :
    CanFlow lib (some (.callback c)) log' r := by
  rcases r with r | r
  · rcases r with r | r
    · trivial
    cases r with
    | createUserSsoLink link =>
      obtain ⟨huser, hprovider, huid⟩ := hr
      refine ⟨payload, nonce, hpassed.mono hlog, hmode, ?_, ?_, ?_⟩
      · rw [hprovider, huid]
        exact hidentified.mono hlog
      · intro hlink
        obtain ⟨user, rfl, hid⟩ := hlinking hlink
        rw [hid, huser]
        rfl
      · intro hlogs
        rw [huser, hlogin hlogs]
        rfl
    | _ => trivial
  · exact hr.elim

theorem issueAccountDeleteReauthToken_confirms {payload : OAuthStatePayload} {user : User} {provider providerUid : String}
    (hidentified : Identified log provider providerUid) (huser : payload.userId = some user.id) :
    wp ((flowing lib (some (.callback c))).machine HonestFlow)
      (fun x log' => log <+: log' ∧ ∀ token, x = .ok token → Confirms lib log' payload token)
      (issueAccountDeleteReauthToken lib user provider providerUid) log := by
  unfold issueAccountDeleteReauthToken
  refine Protocol.wp_await trivial (fun (found : Option UserSsoLink) b _ => ?_)
    fun _ _ _ => ⟨List.prefix_append _ _, fun _ h => nomatch h⟩
  refine wp_check (fun _ => ⟨List.prefix_append _ _, fun _ h => nomatch h⟩) fun hfound => ?_
  have hgrow : log <+: log ++ [(⟨.inl (.inr (.getUserSsoLink provider providerUid)), .ok found, b⟩ : FlowEvent)] :=
    List.prefix_append _ _
  refine Protocol.wp_await trivial (fun (now : DateTime) _ _ => ?_)
    fun _ _ _ => ⟨hgrow.trans (List.prefix_append _ _), fun _ h => nomatch h⟩
  refine ⟨hgrow.trans (List.prefix_append _ _), ?_⟩
  intro token htoken
  obtain rfl := Except.ok.inj htoken
  rw [Bool.not_eq_false', Option.any_eq_true] at hfound
  obtain ⟨link, rfl, hlink⟩ := hfound
  refine ⟨now, user.id, provider, providerUid, link, huser, ?_, ?_, beq_iff_eq.mp hlink, rfl⟩
  · exact hidentified.mono (hgrow.trans (List.prefix_append _ _))
  · exact Answered.mono answered_last (List.prefix_append _ _)

/-- Where the body of the `try` ends. -/
def Completed (lib : FlowLib) (payload : OAuthStatePayload) (log : FlowLog) (x : Except PyExc (RedirectResponse ⊕ User))
    (log' : FlowLog) : Prop :=
  log <+: log' ∧
    match x with
    | .ok (.inl (.redirect _ (some (.deleteReauth token)))) => payload.mode = "delete_account" ∧ Confirms lib log' payload token
    | .ok (.inr _) => payload.mode ≠ "delete_account"
    | _ => True

theorem exchangeAndComplete_flows {payload : OAuthStatePayload} {nonce : OAuthStateNonce} {currentUser : Option User}
    {code : String} (hpassed : Passed lib c log payload nonce)
    (hbound : bound payload.mode = true → ∃ user, currentUser = some user ∧ payload.userId = some user.id)
    (hlogin : payload.mode = "login" → currentUser = none) :
    wp ((flowing lib (some (.callback c))).machine HonestFlow) (Completed lib payload log)
      (exchangeAndComplete lib c payload.mode code nonce.codeVerifier currentUser) log := by
  unfold exchangeAndComplete
  refine wp_value (fun baseUrl _ => ?_) fun _ _ => ⟨List.prefix_refl _, trivial⟩
  refine Protocol.wp_await ⟨payload, nonce, hpassed, rfl⟩ (fun (identity : OAuthIdentity) b _ => ?_)
    fun _ _ _ => ⟨List.prefix_append _ _, trivial⟩
  have hgrow : log <+: (flowing lib (some (.callback c))).next log
      ⟨.inr (.exchangeCode c.provider code (callbackUrl baseUrl c.provider) nonce.codeVerifier), .ok identity, b⟩ :=
    List.prefix_append _ _
  have hidentified : Identified ((flowing lib (some (.callback c))).next log
      ⟨.inr (.exchangeCode c.provider code (callbackUrl baseUrl c.provider) nonce.codeVerifier), .ok identity, b⟩)
      identity.provider identity.providerUid :=
    ⟨_, _, _, _, identity, answered_last, rfl, rfl⟩
  rw [wp_ite]
  constructor
  · intro hmode
    obtain ⟨user, rfl, huser⟩ := hbound (by rw [hmode]; rfl)
    refine wp_seq (issueAccountDeleteReauthToken_confirms hidentified huser) (fun token log' h => ?_)
      fun _ _ h => ⟨hgrow.trans h.1, trivial⟩
    exact ⟨hgrow.trans h.1, hmode, h.2 token rfl⟩
  · intro hmode
    refine Protocol.wp_await trivial (fun (allowRegistration : Bool) b' _ => ?_)
      fun _ _ _ => ⟨hgrow.trans (List.prefix_append _ _), trivial⟩
    have hall := hgrow.trans (List.prefix_append _ [(⟨.inr .allowRegistration, .ok allowRegistration, b'⟩ : FlowEvent)])
    refine wp_grows (fun log' r hlog hr => can_complete (hpassed.mono hall) (hidentified.mono (List.prefix_append _ _)) hmode
      (fun hlink => hbound (by rw [hlink]; rfl)) hlogin hlog hr) (uses_widen (completeOauthLogin_uses ..))
      (fun result log' hlog => ?_) fun _ _ hlog => ⟨hall.trans hlog, trivial⟩
    exact ⟨hall.trans hlog, hmode⟩

theorem ended_refused (mode nextPath message : String) :
    EndedFlow lib (some (.callback c)) (.ok (oauthRefused mode nextPath message)) log := by
  unfold oauthRefused
  split
  · trivial
  · split <;> trivial

theorem finishCallback_flows {payload : OAuthStatePayload} {nonce : OAuthStateNonce} {nextPath : String}
    {x : Except PyExc (RedirectResponse ⊕ User)} (hpassed : Passed lib c log payload nonce)
    (hcompleted : Completed lib payload log x log') :
    wp ((flowing lib (some (.callback c))).machine HonestFlow) (EndedFlow lib (some (.callback c)))
      (finishCallback lib c payload.mode nextPath x) log' := by
  obtain ⟨hlog, hx⟩ := hcompleted
  cases x with
  | error e =>
    cases e with
    | http status detail => exact ended_refused ..
    | _ => trivial
  | ok result =>
    cases result with
    | inl response =>
      cases response with
      | authorization provider redirectUri state codeChallenge => trivial
      | redirect location cookie =>
        cases cookie with
        | none => trivial
        | some cookie =>
          cases cookie with
          | session token expiresAt => trivial
          | deleteReauth token => exact ⟨payload, nonce, hpassed.mono hlog, hx⟩
    | inr user =>
      unfold finishCallback
      rw [wp_ite]
      refine ⟨fun _ => trivial, fun hlink => ?_⟩
      have hunbound : bound payload.mode = false := by
        rw [bound, Bool.or_eq_false_iff, beq_eq_false_iff_ne, beq_eq_false_iff_ne]
        exact ⟨hlink, hx⟩
      refine Protocol.wp_await ⟨payload, nonce, hpassed.mono hlog, hunbound⟩
        (fun (session : Option (String × Option DateTime)) _ _ => ?_) fun _ _ _ => trivial
      cases session <;> trivial

theorem callbackWithNonce_flows {payload : OAuthStatePayload} {nonce : OAuthStateNonce} {now : DateTime} {b : Bool}
    (hstate : oauthCallbackState lib.sessions lib.secretKey now 600 c.state = .ok (some payload))
    (hlast : (⟨.inr (.consumeOauthStateNonce payload.jti), .ok (some nonce), b⟩ : FlowEvent) ∈ log)
    (hjti : nonce.jti = payload.jti) :
    wp ((flowing lib (some (.callback c))).machine HonestFlow) (EndedFlow lib (some (.callback c)))
      (callbackWithNonce lib c payload nonce) log := by
  unfold callbackWithNonce
  refine wp_value (fun nextPath _ => ?_) fun _ _ => trivial
  refine Protocol.wp_await trivial (fun (found : Option User) b' _ => ?_) fun _ _ _ => trivial
  rw [wp_ite]
  refine ⟨fun _ => ended_refused .., fun hsame => ?_⟩
  have hbound : bound payload.mode = true → ∃ user, found = some user ∧ payload.userId = some user.id := by
    intro hbound
    have hboth : ¬(found = none ∨ found.map (·.id) ≠ payload.userId) := fun h => hsame ⟨hbound, h⟩
    cases found with
    | none => exact absurd (.inl rfl) hboth
    | some user =>
      refine ⟨user, rfl, ?_⟩
      by_contra hne
      exact hboth (.inr (Ne.symm hne))
  have hpassed : Passed lib c (log ++ [(⟨.inr (.authenticatedUser c.cookies), .ok found, b'⟩ : FlowEvent)]) payload nonce := by
    refine ⟨⟨now, hstate⟩, ⟨b, List.mem_append_left _ hlast⟩, hjti, ?_⟩
    intro h
    obtain ⟨user, rfl, hid⟩ := hbound h
    exact ⟨user, answered_last, hid⟩
  dsimp only
  rw [wp_ite]
  refine ⟨fun _ => ended_refused .., fun _ => ?_⟩
  rw [wp_ite]
  refine ⟨fun _ => ended_refused .., fun _ => ?_⟩
  rw [wp_bind, wp_attempt]
  refine wp_mono (fun x log' hx => ?_) (exchangeAndComplete_flows hpassed ?_ ?_)
  · exact finishCallback_flows hpassed hx
  · intro h
    obtain ⟨user, hfound, hid⟩ := hbound h
    have hlogin : payload.mode ≠ "login" := by
      intro heq
      rw [heq] at h
      cases h
    rw [if_neg hlogin]
    exact ⟨user, hfound, hid⟩
  · intro h
    rw [if_pos h]

theorem oauthCallback_flows (c : CallbackCall) :
    wp ((flowing lib (some (.callback c))).machine HonestFlow) (EndedFlow lib (some (.callback c))) (oauthCallback lib c) [] := by
  unfold oauthCallback
  refine wp_check (fun _ => trivial) fun _ => ?_
  refine Protocol.wp_await trivial (fun (now : DateTime) _ _ => ?_) fun _ _ _ => trivial
  cases hstate : oauthCallbackState lib.sessions lib.secretKey now 600 c.state with
  | error e => trivial
  | ok found =>
    cases found with
    | none => trivial
    | some payload =>
      refine Protocol.wp_await trivial (fun (nonce : Option OAuthStateNonce) _ hjti => ?_) fun _ _ _ => trivial
      cases nonce with
      | none => trivial
      | some nonce => exact callbackWithNonce_flows hstate (List.mem_append_right _ List.mem_cons_self) hjti

theorem prog_flows (call : FlowCall) :
    wp ((flowing lib (some call)).machine HonestFlow) (EndedFlow lib (some call)) (call.prog lib) [] := by
  cases call with
  | start c => exact startOauth_flows c
  | callback c => exact oauthCallback_flows c
  | other p =>
    have hleft : (p.widen : FlowProg Unit).Uses fun r => r.isLeft = true := uses_widen ((uses_any p).mono fun _ _ => rfl)
    exact wp_grows (fun _ _ _ hr => hr) hleft (fun _ _ _ => trivial) fun _ _ _ => trivial

end Imghost.OAuth
