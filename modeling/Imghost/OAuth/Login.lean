/-
  Imghost.OAuth.Login — signing in with a provider: `complete_oauth_login` and
  `disconnect_oauth_provider`.

  A registration is two transactions, the `users` row and the link; nothing undoes the first
  when the second fails. The rows of `user_sso_links` carry both uniqueness constraints of the
  schema, and go with their user. The ids `uuid4` draws are arguments.
-/

import Mathlib.Data.List.Sort
import Imghost.Service.Accounts

namespace Imghost.OAuth

open Imghost.Async Imghost.Data Imghost.Model Imghost.Service Program

/-! ## The table -/

structure UserSsoLink where
  id : String
  userId : String
  provider : String
  providerUid : String
  linkedAt : DateTime
  deriving DecidableEq, Repr

/-- `UNIQUE (provider, provider_uid)`. -/
def UserSsoLink.identity (link : UserSsoLink) : String × String := (link.provider, link.providerUid)

/-- The table `user_sso_links`. -/
structure UserSsoLinks where
  rows : Table UserSsoLink.id
  identities : (rows.rows.map UserSsoLink.identity).Nodup

namespace UserSsoLinks

variable (t : UserSsoLinks)

def deleteWhere (p : UserSsoLink → Bool) : UserSsoLinks where
  rows := t.rows.deleteWhere p
  identities := t.identities.sublist (List.filter_sublist.map _)

def insert (link : UserSsoLink) : Option UserSsoLinks :=
  match h : t.rows.insert link with
  | none => none
  | some rows =>
    if hnew : link.identity ∈ t.rows.rows.map UserSsoLink.identity then none
    else some ⟨rows, by
      rw [Table.insert_rows h, List.map_append, List.map_singleton, List.nodup_append]
      exact ⟨t.identities, List.nodup_singleton _, fun a ha b hb hab =>
        hnew (List.mem_singleton.mp hb ▸ hab ▸ ha)⟩⟩

/-- The links of a user. -/
def ofUser (userId : String) : List UserSsoLink := t.rows.rows.filter (·.userId == userId)

end UserSsoLinks

structure OAuthWorld where
  base : World
  links : UserSsoLinks

/-- `REFERENCES users(id) ON DELETE CASCADE`. -/
def OAuthWorld.withBase (base : World) (w : OAuthWorld) : OAuthWorld where
  base := base
  links := w.links.deleteWhere fun link => (base.users.find? link.userId).isNone

/-! ## Requests -/

inductive LinkReq where
  | getUserSsoLink (provider providerUid : String)
  | listUserSsoLinks (userId : String)
  | createUserSsoLink (link : UserSsoLink)
  | deleteUserSsoLink (userId provider : String)
  deriving DecidableEq

@[reducible] def LinkReply : LinkReq → Type
  | .getUserSsoLink _ _ | .deleteUserSsoLink _ _ => Option UserSsoLink
  | .listUserSsoLinks _ => List UserSsoLink
  | .createUserSsoLink _ => UserSsoLink

/-- `ORDER BY provider, linked_at`. -/
def linkOrder (a b : UserSsoLink) : Bool := a.provider < b.provider || (a.provider == b.provider && a.linkedAt ≤ b.linkedAt)

namespace OAuthWorld

variable (w : OAuthWorld)

def createUserSsoLink (link : UserSsoLink) : Except PyExc UserSsoLink × OAuthWorld :=
  match w.links.insert link with
  | none => (.error uniqueViolation, w)
  | some links =>
    if (w.base.users.find? link.userId).isNone then (.error foreignKeyViolation, w)
    else (.ok link, { w with links := links })

/-- `DELETE FROM user_sso_links WHERE user_id = $1 AND provider = $2 RETURNING …`: the first of
    the rows that go. -/
def deleteUserSsoLink (userId provider : String) : Option UserSsoLink × OAuthWorld :=
  let hit (link : UserSsoLink) : Bool := link.userId == userId && link.provider == provider
  (w.links.rows.rows.find? hit, { w with links := w.links.deleteWhere hit })

end OAuthWorld

def execLink : (r : LinkReq) → OAuthWorld → Except PyExc (LinkReply r) × OAuthWorld
  | .getUserSsoLink provider providerUid, w =>
    (.ok (w.links.rows.rows.find? fun link => link.provider == provider && link.providerUid == providerUid), w)
  | .listUserSsoLinks userId, w => (.ok ((w.links.ofUser userId).insertionSort fun a b => linkOrder a b), w)
  | .createUserSsoLink link, w => w.createUserSsoLink link
  | .deleteUserSsoLink userId provider, w => let a := w.deleteUserSsoLink userId provider; (.ok a.1, a.2)

/-- A call that raises has no effect. -/
def linkBackend : Backend LinkReply PyExc OAuthWorld where
  exec _ := execLink
  fail _ _ e w := (.error e, w)
  blocked _ _ _ := false
  elapse d w := w.withBase (backend.elapse d w.base)

abbrev OAuthReq := Req ⊕ LinkReq
abbrev OAuthReply : OAuthReq → Type := Sum.elim Reply LinkReply
abbrev OAuthProg (α : Type) := Program OAuthReply PyExc α

def oauthBackend : Backend OAuthReply PyExc OAuthWorld :=
  (backend.lift OAuthWorld.base OAuthWorld.withBase).extend linkBackend

abbrev askBase (r : Req) : OAuthProg (Reply r) := @Program.perform OAuthReq OAuthReply PyExc (.inl r)
abbrev askLink (r : LinkReq) : OAuthProg (LinkReply r) := @Program.perform OAuthReq OAuthReply PyExc (.inr r)

namespace Repository

abbrev getUserSsoLink (provider providerUid : String) : OAuthProg (Option UserSsoLink) :=
  askLink (.getUserSsoLink provider providerUid)
abbrev listUserSsoLinks (userId : String) : OAuthProg (List UserSsoLink) := askLink (.listUserSsoLinks userId)
abbrev createUserSsoLink (link : UserSsoLink) : OAuthProg UserSsoLink := askLink (.createUserSsoLink link)
abbrev deleteUserSsoLink (userId provider : String) : OAuthProg (Option UserSsoLink) :=
  askLink (.deleteUserSsoLink userId provider)

end Repository

/-! ## Names -/

structure OAuthIdentity where
  provider : String
  providerUid : String
  email : String
  emailVerified : Bool
  displayName : Option String
  avatarUrl : Option String
  deriving DecidableEq, Repr

structure OAuthLib extends Runtime where
  /-- `str.capitalize`. -/
  capitalize : String → String

variable (lib : OAuthLib)

/-- `_provider_label`. -/
def providerLabel (provider : String) : String :=
  let normalized := lib.lower (strip provider)
  if normalized = "google" then "Google"
  else if normalized = "github" then "GitHub"
  else strOr (some (lib.capitalize normalized)) "OAuth"

/-- `re.sub(r"[^a-z0-9]+", "", s)`. -/
def onlyAlphanumeric (s : List Char) : List Char :=
  s.filter fun c => ('a' ≤ c && c ≤ 'z') || ('0' ≤ c && c ≤ '9')

/-- The name `_generate_unique_username` tries first. -/
def usernameCandidate (identity : OAuthIdentity) : String :=
  let seed := String.ofList (identity.email.toList.takeWhile (· != '@'))
  let displayed :=
    match identity.displayName with
    | some name => String.ofList (onlyAlphanumeric (lib.lower name).toList)
    | none => ""
  let seed := if displayed = "" then seed else displayed
  strOr (some (String.ofList ((onlyAlphanumeric (lib.lower seed).toList).take 20))) "user"

/-- The candidate, and `f"{candidate[:16]}{index}"` for `index in range(2, 1000)`. -/
def usernameCandidates (identity : OAuthIdentity) : List String :=
  let candidate := usernameCandidate lib identity
  candidate :: (List.range' 2 998).map fun index => String.ofList (candidate.toList.take 16) ++ toString index

def firstFreeUsername : List String → OAuthProg String
  | [] => raise (.http 409 "Unable to generate a unique username for this OAuth account.")
  | candidate :: candidates => do
    let found ← (askBase (.getUserByUsername candidate) : OAuthProg (Option User))
    match found with
    | none => return candidate
    | some _ => firstFreeUsername candidates

def generateUniqueUsername (identity : OAuthIdentity) : OAuthProg String := firstFreeUsername (usernameCandidates lib identity)

/-! ## complete_oauth_login -/

/-- `_build_user_sso_link`, stored. -/
def linkUser (userId : String) (identity : OAuthIdentity) (linkId : String) : OAuthProg Unit := do
  let now ← (askBase .utcnow : OAuthProg DateTime)
  let link : UserSsoLink :=
    { id := linkId, userId := userId, provider := identity.provider, providerUid := identity.providerUid, linkedAt := now }
  let _ ← Repository.createUserSsoLink link

def notAllowed : PyExc := .http 403 "User is not allowed to authenticate."

/-- The branch of an identity that is linked already. -/
def completeLinked (identity : OAuthIdentity) (currentUser : Option User) (link : UserSsoLink) :
    OAuthProg (User × String) := do
  let found ← (askBase (.getUser link.userId) : OAuthProg (Option User))
  match found with
  | none => raise (.http 403 "Linked account is no longer available.")
  | some linkedUser => do
    raiseIf linkedUser.suspended notAllowed
    raiseIf (currentUser.any (·.id != linkedUser.id)) (.http 409
      ("This " ++ providerLabel lib identity.provider ++ " account is already linked to a different user."))
    return (linkedUser, "existing_link")

/-- The account of a registration: no password. -/
def newAccount (username email : String) : UserCreateInput where
  username := username
  email := email
  password := none
  isAdmin := false
  quotaBytes := none
  rateLimitRpm := none
  rateLimitBph := none

/-- The branch of a registration. `create_user` draws no salt without a password. -/
def completeRegistration (identity : OAuthIdentity) (allowRegistration : Bool) (correlationId : Option String)
    (source userId linkId : String) : OAuthProg (User × String) := do
  raiseIf (!allowRegistration) (.http 403 "Registration is disabled.")
  let existing ← (askBase (.getUserByEmail identity.email) : OAuthProg (Option User))
  raiseIf existing.isSome (.http 409 ("An account with this email already exists. " ++
    "Sign in locally first, then connect " ++ providerLabel lib identity.provider ++ " from Settings."))
  let username ← generateUniqueUsername lib identity
  let newUser ← (createUser lib.toRuntime (newAccount username identity.email) "oauth" correlationId none source userId "").widen
  linkUser newUser.id identity linkId
  return (newUser, "created")

def completeOauthLogin (identity : OAuthIdentity) (currentUser : Option User) (allowRegistration : Bool)
    (correlationId : Option String) (source userId linkId : String) : OAuthProg (User × String) := do
  raiseIf (strip identity.providerUid == "" || strip identity.email == "")
    (.http 403 (providerLabel lib identity.provider ++ " sign-in could not be verified."))
  raiseIf (!identity.emailVerified)
    (.http 403 ("Your " ++ providerLabel lib identity.provider ++ " account must have a verified email address."))
  let existingLink ← Repository.getUserSsoLink identity.provider identity.providerUid
  match existingLink with
  | some link => completeLinked lib identity currentUser link
  | none =>
    match currentUser with
    | some currentUser => do
      linkUser currentUser.id identity linkId
      return (currentUser, "linked")
    | none => completeRegistration lib identity allowRegistration correlationId source userId linkId

/-! ## disconnect_oauth_provider -/

def disconnectOauthProvider (user : User) (provider : String) : OAuthProg Unit := do
  let links ← Repository.listUserSsoLinks user.id
  let remaining := links.filter (·.provider != provider)
  raiseIf (remaining.length == links.length) (.http 404 "OAuth provider is not linked.")
  raiseIf (user.passwordHash.isNone && remaining.isEmpty) (.http 400 ("You must keep at least one login method. " ++
    "Set a password before disconnecting " ++ providerLabel lib provider ++ "."))
  let _ ← Repository.deleteUserSsoLink user.id provider

end Imghost.OAuth
