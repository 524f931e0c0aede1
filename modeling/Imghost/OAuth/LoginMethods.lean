/-
  Imghost.OAuth.LoginMethods — accounts without a way to sign in.

  A registration stores the account and its link one after the other, and nothing takes the
  account back when the link is refused (a lost connection, or the same identity registered
  twice with two addresses). `disconnect_oauth_provider` looks at the links and deletes later:
  two providers disconnected at once both see the other's link. Proved, over every interleaving
  of registrations, links, disconnections and password changes with failing calls:

  - a password is never taken away, and an account that has no way in yet is one whose
    registration is about to link it (`Kept`);
  - where no step is one of the two above (`KeepsLogin`), every account that
    `complete_oauth_login` created can sign in whenever no call is in flight
    (`oauth_accounts_can_sign_in`).
-/

import Imghost.OAuth.Login
import Imghost.Service.Footprint

namespace Imghost.OAuth

open Imghost.Async Imghost.Data Imghost.Model Imghost.Service Program

/-! ## Operations -/

inductive OAuthOp where
  /-- With the ids `uuid4` draws for the account and the link. -/
  | completeOauthLogin (identity : OAuthIdentity) (currentUserId : Option String) (allowRegistration : Bool)
      (correlationId : Option String) (source userId linkId : String)
  | disconnectOauthProvider (userId provider : String)
  | changePassword (userId : String) (payload : PasswordChangeInput) (correlationId : Option String) (source salt : String)
  | resetUserPassword (userId newPassword correlationId : String) (actorId : Option String) (salt : String)
  /-- `update_user` with a password. -/
  | updateUserPassword (userId : String) (payload : UserUpdateInput) (password correlationId : String)
      (actorId : Option String) (salt : String)

inductive OAuthResult where
  | completed (user : User) (outcome : String)
  | disconnected
  | user (user : User)
  deriving DecidableEq

/-- The user a request is authenticated as, if it has one. -/
def sessionUser : Option String → OAuthProg (Option User)
  | none => pure none
  | some userId => do
    let user ← (authenticatedUser userId).widen
    return some user

variable (lib : OAuthLib)

def OAuthOp.prog : OAuthOp → OAuthProg OAuthResult
  | .completeOauthLogin identity currentUserId allowRegistration correlationId source userId linkId => do
    let currentUser ← sessionUser currentUserId
    let (user, outcome) ← OAuth.completeOauthLogin lib identity currentUser allowRegistration correlationId source userId linkId
    return .completed user outcome
  | .disconnectOauthProvider userId provider => do
    let user ← (authenticatedUser userId).widen
    OAuth.disconnectOauthProvider lib user provider
    return .disconnected
  | .changePassword userId payload correlationId source salt => do
    let user ← (changeCurrentUserPassword lib.toRuntime userId payload correlationId source salt).widen
    return .user user
  | .resetUserPassword userId newPassword correlationId actorId salt => do
    let user ← (Service.resetUserPassword lib.toRuntime userId newPassword correlationId actorId salt).widen
    return .user user
  | .updateUserPassword userId payload password correlationId actorId salt => do
    let user ← (updateUser lib.toRuntime userId { payload with password := some password } correlationId actorId salt).widen
    return .user user

/-- The id of the account an operation registers, if it comes to it. -/
def OAuthOp.registers : OAuthOp → Option String
  | .completeOauthLogin _ none _ _ _ userId _ => some userId
  | _ => none

abbrev OAuthPool := Pool OAuthReply PyExc OAuthWorld OAuthResult

def OAuthPool.start (w : OAuthWorld) (ops : List OAuthOp) : OAuthPool := Pool.start w (ops.map (·.prog lib))

/-! ## Ways in -/

namespace OAuthWorld

variable (w : OAuthWorld)

def HasPassword (userId : String) : Prop := (w.base.users.find? userId).any (·.passwordHash.isSome) = true

/-- The user has a password, or a link that `p` picks. -/
def HasLoginWhere (userId : String) (p : UserSsoLink → Prop) : Prop :=
  w.HasPassword userId ∨ ∃ link ∈ w.links.rows.rows, link.userId = userId ∧ p link

def HasLogin (userId : String) : Prop := w.HasLoginWhere userId fun _ => True

/-- No row has the link's id, or its identity. -/
def Unlinked (link : UserSsoLink) : Prop := ∀ row ∈ w.links.rows.rows, row.id ≠ link.id ∧ row.identity ≠ link.identity

instance (userId : String) : Decidable (w.HasPassword userId) := inferInstanceAs (Decidable (_ = _))

instance (userId : String) (p : UserSsoLink → Prop) [DecidablePred p] : Decidable (w.HasLoginWhere userId p) :=
  inferInstanceAs (Decidable (_ ∨ _))

instance (userId : String) : Decidable (w.HasLogin userId) := inferInstanceAs (Decidable (w.HasLoginWhere _ _))

instance (link : UserSsoLink) : Decidable (w.Unlinked link) := inferInstanceAs (Decidable (∀ _ ∈ _, _))

end OAuthWorld

/-- The steps after which an account can have no way in are left out: a registration's link is
    stored, or the account has a way in by then; a disconnection leaves one. -/
def KeepsLogin (ops : List OAuthOp) (p : OAuthPool) (i : Nat) (r : OAuthReq) (fault : Option PyExc) : Prop :=
  match r with
  | .inr (.createUserSsoLink link) =>
    ops[i]?.bind (·.registers) = some link.userId → (fault = none ∧ p.world.Unlinked link) ∨ p.world.HasLogin link.userId
  | .inr (.deleteUserSsoLink userId provider) =>
    fault = none → p.world.HasLogin userId → p.world.HasLoginWhere userId (·.provider ≠ provider)
  | _ => True

instance (ops : List OAuthOp) (p : OAuthPool) (i : Nat) (r : OAuthReq) (fault : Option PyExc) :
    Decidable (KeepsLogin ops p i r fault) := by
  unfold KeepsLogin
  split <;> infer_instance

/-! ## What a call does -/

abbrev OAuthEvent := Event OAuthReply PyExc

/-- What no operation asks for. -/
def Allowed : Req → Prop
  | .deleteUser _ => False
  | .updateUser user => user.passwordHash.isSome = true
  | _ => True

section

variable {w : World} {i : Nat} {r : Req} {fault : Option PyExc} {userId : String}

theorem find?_createUser {x u : User} (h : (backend.answer i (.createUser x) fault w).1 = .ok u) (userId : String) :
    (backend.answer i (.createUser x) fault w).2.users.find? userId = if x.id = userId then some x else w.users.find? userId := by
  have hx := exec_of_ok h
  rw [answer_of_ok h]
  simp only [exec, World.createUser] at hx ⊢
  split at hx
  · cases hx
  rename_i hrange
  rw [if_neg hrange]
  split at hx
  · cases hx
  rename_i hname
  rw [if_neg hname]
  rcases ht : w.users.insert x with _ | t
  · rw [ht] at hx; cases hx
  · exact Table.find?_insert ht userId

theorem createUser_error {x : User} {e : PyExc} (h : (backend.answer i (.createUser x) fault w).1 = .error e) :
    (backend.answer i (.createUser x) fault w).2.users = w.users := by
  rcases answer_cases i (.createUser x) fault w with ha | ⟨e, -, ha⟩
  swap
  · rw [ha]; rfl
  rw [ha] at h ⊢
  simp only [exec, World.createUser] at h ⊢
  split
  · rfl
  rename_i hrange
  rw [if_neg hrange] at h
  split
  · rfl
  rename_i hname
  rw [if_neg hname] at h
  split
  · rename_i t ht
    rw [ht] at h
    cases h
  · rfl

/-- A user keeps the row, and the password. -/
theorem user_stays (hr : Allowed r) {u : User} (hu : w.users.find? userId = some u) :
    ∃ u', (backend.answer i r fault w).2.users.find? userId = some u' ∧
      (u.passwordHash.isSome = true → u'.passwordHash.isSome = true) := by
  by_cases hsame : Req.changesUsers r = false
  · rw [answer_users hsame]
    exact ⟨u, hu, id⟩
  cases r <;> first | exact absurd rfl hsame | skip
  case createUser x =>
    rcases hx : (backend.answer i (.createUser x) fault w).1 with e | a
    · rw [createUser_error hx]
      exact ⟨u, hu, id⟩
    · rw [find?_createUser hx]
      split
      · rename_i hid
        -- an id that is taken is refused
        exfalso
        have hexec := exec_of_ok hx
        simp only [exec, World.createUser] at hexec
        split at hexec
        · cases hexec
        split at hexec
        · cases hexec
        split at hexec
        · rename_i t ht
          have := Table.insert_eq_none.mpr ⟨u, Table.find?_mem hu, (Table.find?_key hu).trans hid.symm⟩
          rw [ht] at this
          cases this
        · cases hexec
      · exact ⟨u, hu, id⟩
  case updateUser x =>
    rcases hx : (backend.answer i (.updateUser x) fault w).1 with e | a
    · rw [updateUser_error hx]
      exact ⟨u, hu, id⟩
    · obtain ⟨row, hrow, hfind⟩ := find?_updateUser hx
      rw [hfind]
      split
      · exact ⟨_, rfl, fun _ => hr⟩
      · exact ⟨u, hu, id⟩
  case deleteUser x => exact hr.elim

end

/-- The account a call stored. -/
def created : Call → Option String
  | ⟨.createUser user, .ok _, _⟩ => some user.id
  | _ => none

/-- A row is there before a call, or is the one it stored. -/
theorem user_is_new {w : World} {i : Nat} {r : Req} {fault : Option PyExc} {userId : String} {injected : Bool} (hr : Allowed r)
    (h : (backend.answer i r fault w).2.users.find? userId ≠ none) :
    w.users.find? userId ≠ none ∨ created ⟨r, (backend.answer i r fault w).1, injected⟩ = some userId := by
  by_cases hsame : Req.changesUsers r = false
  · rw [answer_users hsame] at h
    exact Or.inl h
  cases r <;> first | exact absurd rfl hsame | skip
  case createUser x =>
    rcases hx : (backend.answer i (.createUser x) fault w).1 with e | a
    · rw [createUser_error hx] at h
      exact Or.inl h
    · rw [find?_createUser hx] at h
      by_cases hid : x.id = userId
      · exact Or.inr (congrArg some hid)
      · rw [if_neg hid] at h
        exact Or.inl h
  case updateUser x =>
    left
    rcases hx : (backend.answer i (.updateUser x) fault w).1 with e | a
    · rwa [updateUser_error hx] at h
    · obtain ⟨row, hrow, hfind⟩ := find?_updateUser hx
      intro hnone
      rw [hfind] at h
      split at h
      · rename_i hid
        rw [hid, hrow] at hnone
        cases hnone
      · exact h hnone
  case deleteUser x => exact hr.elim

/-! ## What an operation does -/

-- the checks of a user's fields are not to be run on variables
attribute [local irreducible] strip validateUserInput updatedPasswordHash

/-- The account a registration has stored and not linked yet. -/
def nextUnlinked (pending : Option String) : OAuthEvent → Option String
  | ⟨.inl (.createUser user), .ok _, _⟩ => some user.id
  | ⟨.inr (.createUserSsoLink _), _, _⟩ => none
  | _ => pending

def CanAsk (op : Option OAuthOp) (pending : Option String) : OAuthReq → Prop
  | .inl (.createUser user) => pending = none ∧ op.bind (·.registers) = some user.id
  | .inl r => Allowed r
  | .inr (.createUserSsoLink link) => ∀ userId, pending = some userId → link.userId = userId
  | .inr _ => True

def registering (op : Option OAuthOp) : Protocol OAuthReply PyExc (Option String) := ⟨CanAsk op, nextUnlinked⟩

/-- The clock and the event bus do not raise. -/
def Honest : OAuthEvent → Prop
  | ⟨.inl .utcnow, .error _, _⟩ | ⟨.inl (.emit _), .error _, _⟩ => False
  | _ => True

/-- Nothing is stored without its link. -/
def Done {α : Type} (_ : Except PyExc α) (pending : Option String) : Prop := pending = none

/-- Calls that neither register nor link. -/
def AsideBase : Req → Prop
  | .createUser _ => False
  | r => Allowed r

def Aside : OAuthReq → Prop
  | .inl r => AsideBase r
  | .inr (.createUserSsoLink _) => False
  | .inr _ => True

variable {lib} {op : Option OAuthOp} {α β : Type} {pending : Option String}

theorem can_of_aside {r : OAuthReq} (h : Aside r) : (registering op).can pending r := by
  rcases r with r | r
  · cases r <;> first | exact h | exact h.elim
  · cases r <;> first | exact h.elim | trivial

theorem next_of_aside (e : OAuthEvent) (h : Aside e.req) : (registering op).next pending e = pending := by
  obtain ⟨r | r, x, b⟩ := e
  · cases r <;> first | rfl | exact h.elim
  · cases r <;> first | rfl | exact h.elim

theorem wp_aside {p : OAuthProg α} {f : α → OAuthProg β} (hp : p.Uses Aside)
    (hok : ∀ a, wp ((registering op).machine Honest) Done (f a) none) :
    wp ((registering op).machine Honest) Done (p >>= f) none :=
  Protocol.wp_pass (fun _ => can_of_aside) next_of_aside hp hok fun _ => rfl

theorem wp_only_aside {p : OAuthProg α} (hp : p.Uses Aside) : wp ((registering op).machine Honest) Done p none :=
  Protocol.wp_stay (fun _ => can_of_aside) next_of_aside hp fun _ => rfl

theorem aside_of_reads (r : Req) (h : Req.reads r = true) : AsideBase r := by
  cases r <;> trivial

theorem widen_aside {p : Prog α} (h : p.Uses AsideBase) : (p.widen : OAuthProg α).Uses Aside := uses_widen h

theorem firstFreeUsername_aside (candidates : List String) : (firstFreeUsername candidates).Uses Aside := by
  induction candidates with
  | nil => trivial
  | cons candidate candidates ih =>
    refine uses_bind (uses_perform trivial) fun found => ?_
    cases found with
    | none => trivial
    | some user => exact ih

theorem authenticatedUser_aside (userId : String) : (authenticatedUser userId).Uses AsideBase := by
  refine uses_bind (uses_perform trivial) fun found => ?_
  cases found with
  | none => trivial
  | some user => dsimp only; split <;> trivial

theorem hash_of_password {rt : Runtime} {salt password : String} {user : User} {hash : Option String}
    (h : updatedPasswordHash rt salt user (some password) = .ok hash) : hash.isSome = true := by
  unfold updatedPasswordHash at h
  dsimp only at h
  cases haccept : acceptPassword rt salt password "Password" with
  | error e =>
    rw [haccept] at h
    cases h
  | ok accepted =>
    rw [haccept] at h
    cases h
    rfl

theorem updateUserPassword_aside (rt : Runtime) (userId : String) (payload : UserUpdateInput) (password correlationId : String)
    (actorId : Option String) (salt : String) :
    (updateUser rt userId { payload with password := some password } correlationId actorId salt).Uses AsideBase := by
  have hplain : ∀ r, Req.plain r = true → AsideBase r := plain_of_reads aside_of_reads
  unfold updateUser
  refine uses_bind (getUserOr404_uses aside_of_reads userId) fun user => ?_
  refine uses_bind (announceAdminStatus_uses hplain _ _ _ _ _) fun _ => ?_
  refine uses_bind (applySuspension_uses hplain (fun _ => trivial) _ _ _ _) fun _ => ?_
  refine uses_value fun hash hhash => ?_
  refine uses_bind (announceLimits_uses hplain _ _ _ _) fun _ => ?_
  exact uses_bind (uses_perform (hash_of_password hhash)) fun _ => trivial

/-! ## Every operation keeps to it -/

/-- A link that is stored or refused: nothing is pending after it. -/
theorem linkUser_links {userId linkId : String} {identity : OAuthIdentity} {f : Unit → OAuthProg β}
    (hpending : ∀ id, pending = some id → userId = id)
    (hok : wp ((registering op).machine Honest) Done (f ()) none) :
    wp ((registering op).machine Honest) Done (linkUser userId identity linkId >>= f) pending := by
  refine wp_seq (R := Done) ?_ (fun _ _ h => h ▸ hok) fun _ _ h => h
  refine Protocol.wp_await trivial (fun (now : DateTime) _ _ => ?_) fun _ _ h => h.elim
  exact Protocol.wp_await hpending (fun _ _ _ => rfl) fun _ _ _ => rfl

/-- Where `create_user` ends: with the account pending, or with nothing. -/
def Registered (userId : String) : Except PyExc User → Option String → Prop
  | .ok user, pending => user.id = userId ∧ pending = some userId
  | .error _, pending => pending = none

theorem createUser_registers {rt : Runtime} {payload : UserCreateInput} {method source userId salt : String}
    {correlationId actorId : Option String} (hop : op.bind (·.registers) = some userId) :
    wp ((registering op).machine Honest) (Registered userId)
      (createUser rt payload method correlationId actorId source userId salt).widen none := by
  refine Protocol.wp_widen ?_
  refine wp_value (fun named _ => ?_) fun _ _ => rfl
  refine Protocol.wp_await trivial (fun _ _ _ => ?_) fun _ _ _ => rfl
  refine wp_check (fun _ => rfl) fun _ => ?_
  refine Protocol.wp_await trivial (fun _ _ _ => ?_) fun _ _ _ => rfl
  refine wp_check (fun _ => rfl) fun _ => ?_
  refine Protocol.wp_await trivial (fun (now : DateTime) _ _ => ?_) fun _ _ _ => rfl
  refine wp_value (fun passwordHash _ => ?_) fun _ _ => rfl
  refine Protocol.wp_await ⟨rfl, hop⟩ (fun _ _ _ => ?_) fun _ _ _ => rfl
  cases correlationId with
  | none => exact ⟨rfl, rfl⟩
  | some correlationId => exact Protocol.wp_await trivial (fun _ _ _ => ⟨rfl, rfl⟩) fun _ _ h => h.elim

theorem completeLinked_links {identity : OAuthIdentity} {currentUser : Option User} {link : UserSsoLink} :
    (completeLinked lib identity currentUser link).Uses Aside := by
  refine uses_bind (uses_perform trivial) fun found => ?_
  cases found with
  | none => trivial
  | some user => exact uses_bind (uses_raiseIf _ _) fun _ => uses_bind (uses_raiseIf _ _) fun _ => trivial

theorem completeRegistration_links {identity : OAuthIdentity} {allowRegistration : Bool} {correlationId : Option String}
    {source userId linkId : String} (hop : op.bind (·.registers) = some userId) :
    wp ((registering op).machine Honest) Done
      (completeRegistration lib identity allowRegistration correlationId source userId linkId) none := by
  unfold completeRegistration
  refine wp_check (fun _ => rfl) fun _ => ?_
  refine Protocol.wp_await trivial (fun _ _ _ => ?_) fun _ _ _ => rfl
  refine wp_check (fun _ => rfl) fun _ => ?_
  refine wp_aside (firstFreeUsername_aside _) fun username => ?_
  refine wp_seq (createUser_registers hop) (fun newUser pending h => ?_) fun _ _ h => h
  obtain ⟨hid, rfl⟩ := h
  exact linkUser_links (fun id h => hid.trans (Option.some.inj h)) rfl

theorem completeOauthLogin_links {identity : OAuthIdentity} {currentUser : Option User} {allowRegistration : Bool}
    {correlationId : Option String} {source userId linkId : String}
    (hop : currentUser = none → op.bind (·.registers) = some userId) :
    wp ((registering op).machine Honest) Done
      (completeOauthLogin lib identity currentUser allowRegistration correlationId source userId linkId) none := by
  refine wp_check (fun _ => rfl) fun _ => wp_check (fun _ => rfl) fun _ => ?_
  refine Protocol.wp_await trivial (fun (existingLink : Option UserSsoLink) _ _ => ?_) fun _ _ _ => rfl
  cases existingLink with
  | some link => exact wp_only_aside completeLinked_links
  | none =>
    cases currentUser with
    | some currentUser => exact linkUser_links (fun _ h => nomatch h) rfl
    | none => exact completeRegistration_links (hop rfl)

theorem disconnectOauthProvider_aside {user : User} {provider : String} :
    (disconnectOauthProvider lib user provider).Uses Aside := by
  unfold disconnectOauthProvider
  exact uses_bind (uses_perform trivial) fun _ => uses_bind (uses_raiseIf _ _) fun _ => uses_bind (uses_raiseIf _ _) fun _ =>
    uses_bind (uses_perform trivial) fun _ => trivial

theorem completed_links {identity : OAuthIdentity} {currentUser : Option User} {allowRegistration : Bool}
    {correlationId : Option String} {source userId linkId : String}
    (hop : currentUser = none → op.bind (·.registers) = some userId) :
    wp ((registering op).machine Honest) Done
      (completeOauthLogin lib identity currentUser allowRegistration correlationId source userId linkId >>= fun result =>
        pure (OAuthResult.completed result.1 result.2)) none :=
  wp_seq (R := Done) (completeOauthLogin_links hop) (fun _ _ h => h) fun _ _ h => h

theorem prog_links (op : OAuthOp) : wp ((registering (some op)).machine Honest) Done (op.prog lib) none := by
  cases op with
  | completeOauthLogin identity currentUserId allowRegistration correlationId source userId linkId =>
    cases currentUserId with
    | none => exact completed_links fun _ => rfl
    | some currentUserId =>
      refine wp_seq (R := fun x pending => pending = none ∧ ∀ found, x = .ok found → found ≠ none) ?_
        (fun currentUser pending h => ?_) fun _ _ h => h.1
      · refine wp_seq (R := Done) (wp_only_aside (widen_aside (authenticatedUser_aside _))) (fun user pending h => ?_)
          fun _ _ h => ⟨h, fun _ h' => nomatch h'⟩
        refine ⟨h, fun found hfound => ?_⟩
        cases hfound
        simp
      · obtain ⟨rfl, hsome⟩ := h
        exact completed_links fun hnone => absurd hnone (hsome _ rfl)
  | disconnectOauthProvider userId provider =>
    exact wp_only_aside (uses_bind (widen_aside (authenticatedUser_aside userId)) fun _ =>
      uses_bind disconnectOauthProvider_aside fun _ => trivial)
  | changePassword userId payload correlationId source salt =>
    exact wp_only_aside (uses_bind (widen_aside (changeCurrentUserPassword_uses aside_of_reads (fun _ h => h) _ _ _ _ _ _))
      fun _ => trivial)
  | resetUserPassword userId newPassword correlationId actorId salt =>
    exact wp_only_aside (uses_bind (widen_aside (resetUserPassword_uses aside_of_reads (fun _ h => h) _ _ _ _ _ _))
      fun _ => trivial)
  | updateUserPassword userId payload password correlationId actorId salt =>
    exact wp_only_aside (uses_bind (widen_aside (updateUserPassword_aside ..)) fun _ => trivial)

/-! ## The invariant -/

/-- The account task `i` has stored and not linked yet. -/
abbrev unlinked (p : OAuthPool) (i : Nat) : Option String := p.seen nextUnlinked none i

/-- The users a run answers for: those of new rows, and those who could sign in at its start. -/
def Answerable (w₀ : OAuthWorld) (userId : String) : Prop := w₀.base.users.find? userId = none ∨ w₀.HasLogin userId

structure Kept (w₀ : OAuthWorld) (ops : List OAuthOp) (p : OAuthPool) : Prop where
  logins : ∀ userId, p.world.base.users.find? userId ≠ none → Answerable w₀ userId →
    p.world.HasLogin userId ∨ ∃ i, unlinked p i = some userId
  /-- What is not linked yet is a row, of the task's own. -/
  rows : ∀ i userId, unlinked p i = some userId →
    p.world.base.users.find? userId ≠ none ∧ ops[i]?.bind (·.registers) = some userId
  follows : p.Follows (fun i => registering ops[i]?) Honest (fun _ => Done) fun _ => none

section

variable {w₀ : OAuthWorld} {ops : List OAuthOp} {p : OAuthPool} {i : Nat} {t : Task OAuthReply PyExc OAuthResult}
  {fault : Option PyExc}

theorem unlinked_self {r : OAuthReq} {k : Except PyExc (OAuthReply r) → OAuthProg OAuthResult} (ht : p.tasks[i]? = some t) :
    unlinked (p.advance oauthBackend i t r k fault) i =
      nextUnlinked (unlinked p i) ⟨r, (oauthBackend.answer i r fault p.world).1, fault.isSome⟩ :=
  Pool.seen_advance_self ht

theorem unlinked_of_ne {r : OAuthReq} {k : Except PyExc (OAuthReply r) → OAuthProg OAuthResult} {j : Nat} (h : j ≠ i) :
    unlinked (p.advance oauthBackend i t r k fault) j = unlinked p j :=
  Pool.seen_advance_of_ne h

theorem honest_answer (i : Nat) (r : OAuthReq) (fault : Option PyExc) (w : OAuthWorld) :
    Honest ⟨r, (oauthBackend.answer i r fault w).1, fault.isSome⟩ := by
  rcases r with r | r
  · cases r <;> first | trivial | (cases fault <;> trivial)
  · trivial

theorem can_ask {r : OAuthReq} {k : Except PyExc (OAuthReply r) → OAuthProg OAuthResult} (h : Kept w₀ ops p)
    (ht : p.tasks[i]? = some t) (hr : t.rest = .call r k) : CanAsk ops[i]? (unlinked p i) r := by
  have := h.follows.can ht hr
  rwa [unlinked, Pool.seen_eq ht]

/-! ### Calls about other tables -/

theorem answer_base (i : Nat) (r : Req) (fault : Option PyExc) (w : OAuthWorld) : oauthBackend.answer i (.inl r) fault w =
    ((backend.answer i r fault w.base).1, w.withBase (backend.answer i r fault w.base).2) := by
  cases fault <;> rfl

/-- A way in outlasts the calls about other tables. -/
theorem login_stays {w : OAuthWorld} {r : Req} {userId : String} (hr : Allowed r) (hrow : w.base.users.find? userId ≠ none)
    (h : w.HasLogin userId) : (w.withBase (backend.answer i r fault w.base).2).HasLogin userId := by
  obtain ⟨user, huser⟩ := Option.ne_none_iff_exists'.mp hrow
  obtain ⟨user', huser', hpassword⟩ := @user_stays w.base i r fault userId hr user huser
  rcases h with h | ⟨link, hlink, hlinkUser, _⟩
  · left
    unfold OAuthWorld.HasPassword at h ⊢
    rw [huser] at h
    show Option.any _ ((backend.answer i r fault w.base).2.users.find? userId) = true
    rw [huser']
    exact hpassword h
  · right
    refine ⟨link, ?_, hlinkUser, trivial⟩
    refine Table.mem_deleteWhere.mpr ⟨hlink, ?_⟩
    rw [hlinkUser, huser']
    rfl

theorem next_base (account : Option String) (e : Call) : nextUnlinked account e.widen = (created e).or account := by
  obtain ⟨r, x, injected⟩ := e
  cases r <;> first | rfl | (cases x <;> rfl)

theorem can_of_created {op : Option OAuthOp} {account : Option String} {e : Call} {userId : String}
    (hcan : CanAsk op account (.inl e.req)) (h : created e = some userId) :
    account = none ∧ op.bind (·.registers) = some userId := by
  obtain ⟨r, x, injected⟩ := e
  cases r <;> try cases h
  cases x with
  | error e => cases h
  | ok user => exact Option.some.inj h ▸ hcan

theorem row_of_created {w : World} {r : Req} {injected : Bool} {userId : String}
    (h : created ⟨r, (backend.answer i r fault w).1, injected⟩ = some userId) :
    (backend.answer i r fault w).2.users.find? userId ≠ none := by
  cases r <;> try cases h
  case createUser x =>
    rcases hx : (backend.answer i (.createUser x) fault w).1 with e | u
    · rw [hx] at h
      cases h
    · rw [hx] at h
      rw [find?_createUser hx, if_pos (Option.some.inj h)]
      simp

theorem allowed_of_can {op : Option OAuthOp} {account : Option String} {r : Req} (h : CanAsk op account (.inl r)) : Allowed r := by
  cases r <;> first | exact h | trivial

theorem kept_base {r : Req} {k : Except PyExc (OAuthReply (.inl r)) → OAuthProg OAuthResult} (h : Kept w₀ ops p)
    (ht : p.tasks[i]? = some t) (hr : t.rest = .call (.inl r) k) : Kept w₀ ops (p.advance oauthBackend i t (.inl r) k fault) := by
  have hcan := can_ask h ht hr
  have hallowed := allowed_of_can hcan
  let e : Call := ⟨r, (backend.answer i r fault p.world.base).1, fault.isSome⟩
  have hworld : (p.advance oauthBackend i t (.inl r) k fault).world =
      p.world.withBase (backend.answer i r fault p.world.base).2 := by
    show (oauthBackend.answer i (.inl r) fault p.world).2 = _
    rw [answer_base]
  have hself : unlinked (p.advance oauthBackend i t (.inl r) k fault) i = (created e).or (unlinked p i) := by
    rw [unlinked_self ht, ← next_base]
    congr 1
    rw [answer_base]
    rfl
  have hrows : ∀ userId, p.world.base.users.find? userId ≠ none →
      (p.world.withBase (backend.answer i r fault p.world.base).2).base.users.find? userId ≠ none := by
    intro userId hrow
    obtain ⟨user, huser⟩ := Option.ne_none_iff_exists'.mp hrow
    obtain ⟨user', huser', _⟩ := @user_stays p.world.base i r fault userId hallowed user huser
    exact Option.ne_none_iff_exists'.mpr ⟨user', huser'⟩
  refine ⟨fun userId hrow hanswerable => ?_, fun j userId hj => ?_, h.follows.advance ht hr (honest_answer ..)⟩
  · rw [hworld] at hrow ⊢
    rcases @user_is_new _ _ _ _ _ fault.isSome hallowed hrow with hold | hnew
    · rcases h.logins userId hold hanswerable with hlogin | ⟨j, hj⟩
      · exact Or.inl (login_stays hallowed hold hlogin)
      · refine Or.inr ⟨j, ?_⟩
        by_cases hij : j = i
        · subst hij
          rw [hself]
          cases hc : created e with
          | none => exact hj
          | some newId =>
            -- a task that has an account to link creates none
            rw [(can_of_created hcan hc).1] at hj
            cases hj
        · rw [unlinked_of_ne hij]
          exact hj
    · exact Or.inr ⟨i, hself.trans (by rw [show created e = some userId from hnew]; rfl)⟩
  · rw [hworld]
    by_cases hij : j = i
    · subst hij
      rw [hself] at hj
      cases hc : created e with
      | none =>
        rw [hc] at hj
        exact ⟨hrows userId (h.rows j userId hj).1, (h.rows j userId hj).2⟩
      | some newId =>
        rw [hc] at hj
        obtain rfl := Option.some.inj hj
        exact ⟨row_of_created hc, (can_of_created hcan hc).2⟩
    · rw [unlinked_of_ne hij] at hj
      exact ⟨hrows userId (h.rows j userId hj).1, (h.rows j userId hj).2⟩

/-! ### Calls about the links -/

theorem mem_insert_link {t t' : UserSsoLinks} {link : UserSsoLink} (h : t.insert link = some t') (row : UserSsoLink) :
    row ∈ t'.rows.rows ↔ row ∈ t.rows.rows ∨ row = link := by
  unfold UserSsoLinks.insert at h
  split at h
  · cases h
  · rename_i rows hrows
    split at h
    · cases h
    · obtain rfl := Option.some.inj h
      exact Table.mem_insert hrows

/-- A link with an id and an identity of its own is accepted. -/
theorem insert_unlinked {w : OAuthWorld} {link : UserSsoLink} (h : w.Unlinked link) : ∃ links, w.links.insert link = some links := by
  unfold UserSsoLinks.insert
  split
  · rename_i hnone
    obtain ⟨row, hrow, hid⟩ := Table.insert_eq_none.mp hnone
    exact absurd hid (h row hrow).1
  · split
    · rename_i hmem
      obtain ⟨row, hrow, hidentity⟩ := List.mem_map.mp hmem
      exact absurd hidentity (h row hrow).2
    · exact ⟨_, rfl⟩

theorem answer_link_base (r : LinkReq) (w : OAuthWorld) : (linkBackend.answer i r fault w).2.base = w.base := by
  cases fault with
  | some e => rfl
  | none =>
    cases r <;> try rfl
    case createUserSsoLink link =>
      show (w.createUserSsoLink link).2.base = w.base
      unfold OAuthWorld.createUserSsoLink
      split
      · rfl
      · split <;> rfl

/-- A link that is stored or refused takes no way in away. -/
theorem login_stays_linking {w : OAuthWorld} {link : UserSsoLink} {userId : String} (h : w.HasLogin userId) :
    (w.createUserSsoLink link).2.HasLogin userId := by
  unfold OAuthWorld.createUserSsoLink
  split
  · exact h
  · rename_i links hlinks
    split
    · exact h
    · rcases h with h | ⟨row, hrow, hrowUser⟩
      · exact Or.inl h
      · exact Or.inr ⟨row, (mem_insert_link hlinks row).mpr (Or.inl hrow), hrowUser⟩

/-- A link that nothing is in the way of is a way in. -/
theorem login_of_link {w : OAuthWorld} {link : UserSsoLink} (hrow : w.base.users.find? link.userId ≠ none)
    (h : w.Unlinked link) : (w.createUserSsoLink link).2.HasLogin link.userId := by
  obtain ⟨links, hlinks⟩ := insert_unlinked h
  have hstored : (w.createUserSsoLink link).2 = { w with links := links } := by
    unfold OAuthWorld.createUserSsoLink
    rw [hlinks]
    dsimp only
    rw [if_neg (by simpa using hrow)]
  rw [hstored]
  exact Or.inr ⟨link, (mem_insert_link hlinks link).mpr (Or.inr rfl), rfl, trivial⟩

/-- Who has a way in keeps one. -/
theorem login_kept {r : LinkReq} {userId : String} (hkeeps : KeepsLogin ops p i (.inr r) fault) (h : p.world.HasLogin userId) :
    (linkBackend.answer i r fault p.world).2.HasLogin userId := by
  cases fault with
  | some e => exact h
  | none =>
    cases r with
    | getUserSsoLink provider providerUid => exact h
    | listUserSsoLinks userId => exact h
    | createUserSsoLink link => exact login_stays_linking h
    | deleteUserSsoLink deletedId provider =>
      have hkept : p.world.HasLoginWhere userId fun link => ¬(link.userId = deletedId ∧ link.provider = provider) := by
        by_cases hid : userId = deletedId
        · subst hid
          rcases hkeeps rfl h with hpassword | ⟨link, hlink, hlinkUser, hother⟩
          · exact Or.inl hpassword
          · exact Or.inr ⟨link, hlink, hlinkUser, fun hhit => hother hhit.2⟩
        · rcases h with hpassword | ⟨link, hlink, hlinkUser, _⟩
          · exact Or.inl hpassword
          · exact Or.inr ⟨link, hlink, hlinkUser, fun hhit => hid (hlinkUser.symm.trans hhit.1)⟩
      rcases hkept with hpassword | ⟨link, hlink, hlinkUser, hmiss⟩
      · exact Or.inl hpassword
      · refine Or.inr ⟨link, Table.mem_deleteWhere.mpr ⟨hlink, ?_⟩, hlinkUser, trivial⟩
        simpa using hmiss

theorem next_link (account : Option String) (r : LinkReq) (x : Except PyExc (LinkReply r)) (injected : Bool) :
    nextUnlinked account ⟨.inr r, x, injected⟩ = account ∨
      (∃ link, r = .createUserSsoLink link) ∧ nextUnlinked account ⟨.inr r, x, injected⟩ = none := by
  cases r <;> first | exact Or.inl rfl | exact Or.inr ⟨⟨_, rfl⟩, rfl⟩

theorem kept_link {r : LinkReq} {k : Except PyExc (OAuthReply (.inr r)) → OAuthProg OAuthResult} (h : Kept w₀ ops p)
    (ht : p.tasks[i]? = some t) (hr : t.rest = .call (.inr r) k) (hkeeps : KeepsLogin ops p i (.inr r) fault) :
    Kept w₀ ops (p.advance oauthBackend i t (.inr r) k fault) := by
  have hcan := can_ask h ht hr
  have hanswer : oauthBackend.answer i (.inr r) fault p.world = linkBackend.answer i r fault p.world := by
    cases fault <;> rfl
  have hworld : (p.advance oauthBackend i t (.inr r) k fault).world = (linkBackend.answer i r fault p.world).2 := by
    show (oauthBackend.answer i (.inr r) fault p.world).2 = _
    rw [hanswer]
  have hself : unlinked (p.advance oauthBackend i t (.inr r) k fault) i =
      nextUnlinked (unlinked p i) ⟨.inr r, (oauthBackend.answer i (.inr r) fault p.world).1, fault.isSome⟩ := unlinked_self ht
  refine ⟨fun userId hrow hanswerable => ?_, fun j userId hj => ?_, h.follows.advance ht hr (honest_answer ..)⟩
  · rw [hworld, answer_link_base] at hrow
    rw [hworld]
    rcases h.logins userId hrow hanswerable with hlogin | ⟨j, hj⟩
    · exact Or.inl (login_kept hkeeps hlogin)
    by_cases hij : j = i
    · subst hij
      rcases next_link (unlinked p j) r (oauthBackend.answer j (.inr r) fault p.world).1 fault.isSome with
        hsame | ⟨⟨link, rfl⟩, hnone⟩
      · exact Or.inr ⟨j, hself.trans (hsame.trans hj)⟩
      · -- the registration's own link
        left
        have hlinkUser : link.userId = userId := hcan userId hj
        obtain ⟨hexists, hregisters⟩ := h.rows j userId hj
        rcases hkeeps (hlinkUser ▸ hregisters) with ⟨hfault, hfree⟩ | hlogin
        · subst hfault
          exact hlinkUser ▸ login_of_link (hlinkUser ▸ hexists) hfree
        · exact login_kept hkeeps (hlinkUser ▸ hlogin)
    · exact Or.inr ⟨j, (unlinked_of_ne hij).trans hj⟩
  · rw [hworld, answer_link_base]
    refine h.rows j userId ?_
    by_cases hij : j = i
    · subst hij
      rw [hself] at hj
      rcases next_link (unlinked p j) r (oauthBackend.answer j (.inr r) fault p.world).1 fault.isSome with
        hsame | ⟨_, hnone⟩
      · exact hsame.symm.trans hj
      · rw [hnone] at hj
        cases hj
    · rw [unlinked_of_ne hij] at hj
      exact hj

end

/-! ## Whole runs -/

theorem kept_start (w : OAuthWorld) (ops : List OAuthOp) : Kept w ops (OAuthPool.start lib w ops) := by
  have hnone : ∀ i, unlinked (OAuthPool.start lib w ops) i = none := fun i => Pool.seen_start w _ i
  refine ⟨fun userId hrow hanswerable => ?_, fun i userId hi => ?_, Pool.follows_start fun i prog hprog => ?_⟩
  · rcases hanswerable with hnew | hlogin
    · exact absurd hnew hrow
    · exact Or.inl hlogin
  · rw [hnone] at hi
    cases hi
  · rw [List.getElem?_map, Option.map_eq_some_iff] at hprog
    obtain ⟨op, hop, rfl⟩ := hprog
    rw [hop]
    exact prog_links op

theorem kept_run {w : OAuthWorld} {ops : List OAuthOp} {cs : List (Choice PyExc)}
    (hkeeps : (OAuthPool.start lib w ops).Meets oauthBackend (KeepsLogin ops) cs) :
    Kept w ops ((OAuthPool.start lib w ops).run oauthBackend cs) := by
  refine Pool.run_invariant (fun p d h => ?_) (fun p i t r k fault h ht hr hstep => ?_) (kept_start w ops) hkeeps
  · refine ⟨fun userId hrow hanswerable => ?_, h.rows, h.follows⟩
    rcases h.logins userId hrow hanswerable with hlogin | hpending
    · left
      rcases hlogin with hpassword | ⟨link, hlink, hlinkUser, _⟩
      · exact Or.inl hpassword
      · refine Or.inr ⟨link, Table.mem_deleteWhere.mpr ⟨hlink, ?_⟩, hlinkUser, trivial⟩
        obtain ⟨user, huser⟩ := Option.ne_none_iff_exists'.mp hrow
        rw [hlinkUser]
        exact Option.isNone_eq_false_iff.mpr (Option.isSome_iff_exists.mpr ⟨user, huser⟩)
    · exact Or.inr hpending
  · rcases r with r | r
    · exact kept_base h ht hr
    · exact kept_link h ht hr hstep

/-- With no call in flight nothing is left to link. -/
theorem nothing_unlinked {w : OAuthWorld} {ops : List OAuthOp} {p : OAuthPool} (h : Kept w ops p) (hfinished : p.finished = true)
    (i : Nat) : unlinked p i = none := by
  rcases ht : p.tasks[i]? with _ | t
  · simp only [unlinked, Pool.seen, ht]
  · have hdone := List.all_eq_true.mp hfinished t (List.mem_of_getElem? ht)
    obtain ⟨x, hx⟩ := Option.isSome_iff_exists.mp hdone
    rw [unlinked, Pool.seen_eq ht]
    exact h.follows.done ht hx

/-- Every account that was created, or had a way in before, has a password or a link whenever no
    call is in flight. -/
def AccountsCanSignIn (lib : OAuthLib) (w : OAuthWorld) (ops : List OAuthOp) (cs : List (Choice PyExc)) : Prop :=
  ((OAuthPool.start lib w ops).run oauthBackend cs).finished = true →
    ∀ user ∈ ((OAuthPool.start lib w ops).run oauthBackend cs).world.base.users.rows, Answerable w user.id →
      user.passwordHash.isSome = true ∨
        ∃ link ∈ ((OAuthPool.start lib w ops).run oauthBackend cs).world.links.rows.rows, link.userId = user.id

theorem oauth_accounts_can_sign_in (lib : OAuthLib) (w : OAuthWorld) (ops : List OAuthOp) (cs : List (Choice PyExc))
    (hkeeps : (OAuthPool.start lib w ops).Meets oauthBackend (KeepsLogin ops) cs) : AccountsCanSignIn lib w ops cs := by
  intro hfinished user huser hanswerable
  have h := kept_run hkeeps
  have hrow := Table.find?_self (Table.mem_def.mpr huser)
  rcases h.logins user.id (by rw [hrow]; simp) hanswerable with hlogin | ⟨i, hi⟩
  · rcases hlogin with hpassword | ⟨link, hlink, hlinkUser, _⟩
    · left
      unfold OAuthWorld.HasPassword at hpassword
      rw [hrow] at hpassword
      exact hpassword
    · exact Or.inr ⟨link, hlink, hlinkUser⟩
  · rw [nothing_unlinked h hfinished i] at hi
    cases hi

namespace Sample

def oauthLib : OAuthLib := { Service.Sample.runtime with capitalize := id }

/-- Nobody has registered. -/
def nobody : OAuthWorld where
  base := Service.Sample.world
  links := ⟨.empty, List.nodup_nil⟩

def identity : OAuthIdentity where
  provider := "google"
  providerUid := "1"
  email := "ada@example.org"
  emailVerified := true
  displayName := none
  avatarUrl := none

def registration : OAuthOp := .completeOauthLogin identity none true none "web" "ada" "link-1"

/-- Everything `task` still has to do. -/
def toTheEnd (task : Nat) : List (Choice PyExc) := List.replicate 12 (.call task none)

/-- The registration with all that follows, in which the link is not stored. -/
def linkLost : List (Choice PyExc) :=
  List.replicate 8 (.call 0 none) ++ [.call 0 (some (.exception "connection is closed"))] ++ toTheEnd 0

/-- Ada has linked two providers. -/
def twoLinks : OAuthWorld where
  base := { Service.Sample.world with users := .single { Service.Sample.user with id := "ada", passwordHash := none } }
  links := ⟨⟨[⟨"link-1", "ada", "google", "1", 0⟩, ⟨"link-2", "ada", "github", "1", 0⟩], by decide⟩, by decide⟩

/-- Both disconnections have looked at the links before one of them goes. -/
def bothLook : List (Choice PyExc) :=
  List.replicate 2 (.call 0 none) ++ List.replicate 2 (.call 1 none) ++ toTheEnd 0 ++ toTheEnd 1

end Sample

instance (w₀ : OAuthWorld) (userId : String) : Decidable (Answerable w₀ userId) :=
  inferInstanceAs (Decidable (_ ∨ _))

instance (lib : OAuthLib) (w : OAuthWorld) (ops : List OAuthOp) (cs : List (Choice PyExc)) :
    Decidable (AccountsCanSignIn lib w ops cs) :=
  inferInstanceAs (Decidable (_ → _))

open Sample in
/-- The account of a registration whose link is not stored stays, and nobody can sign in to it. -/
theorem a_lost_link_locks_the_account : ¬ AccountsCanSignIn oauthLib nobody [registration] linkLost := by
  decide +kernel

-- both providers disconnected at once
open Sample in
example : ¬ AccountsCanSignIn oauthLib twoLinks [.disconnectOauthProvider "ada" "google", .disconnectOauthProvider "ada" "github"]
    bothLook := by
  decide +kernel

open Sample in
/-- A registration; a password; the provider disconnected. -/
theorem oauth_accounts_can_sign_in_here :
    AccountsCanSignIn oauthLib nobody
        [registration, .resetUserPassword "ada" "correct horse" "c" none "salt", .disconnectOauthProvider "ada" "google"]
        (toTheEnd 0 ++ toTheEnd 1 ++ toTheEnd 2) ∧
      ((OAuthPool.start oauthLib nobody
          [registration, .resetUserPassword "ada" "correct horse" "c" none "salt", .disconnectOauthProvider "ada" "google"]).run
        oauthBackend (toTheEnd 0 ++ toTheEnd 1 ++ toTheEnd 2)).world.HasPassword "ada" :=
  ⟨oauth_accounts_can_sign_in oauthLib nobody _ _ (by decide +kernel), by decide +kernel⟩

end Imghost.OAuth
