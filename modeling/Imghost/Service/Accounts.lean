/-
  Imghost.Service.Accounts — the operations of `AccountService` on user rows:
  `create_user`, `update_user`, `set_user_admin_status`, `reset_user_password`,
  `change_password`, `authenticate_local_user`, `delete_user_by_id`.

  The salt `bcrypt.gensalt` draws and the id `uuid4` draws are arguments.
-/

import Imghost.Service.Access

namespace Imghost.Service

open Imghost.Async Imghost.Model Program

def minPasswordLength : Nat := 8
def maxPasswordBytes : Nat := 72

def userNotFound : PyExc := .http 404 "User not found."

def getUserOr404 (userId : String) : Prog User := do
  let found ← Repository.getUser userId
  match found with
  | some user => pure user
  | none => raise userNotFound

/-! ## Passwords -/

/-- `password.encode("utf-8")`. -/
def encodeUtf8 (password : String) : Bytes := password.toUTF8.toList

def requirePasswordValue (password label : String) : Except PyExc String :=
  if strip password = "" then .error (.http 400 (label ++ " is required."))
  else if password.length < minPasswordLength then
    .error (.http 400 (label ++ " must be at least " ++ toString minPasswordLength ++ " characters."))
  else .ok password

def hashPassword (rt : Runtime) (salt password : String) : Except PyExc String :=
  if maxPasswordBytes < (encodeUtf8 password).length then
    .error (.http 400 "Password must be at most 72 UTF-8 bytes.")
  else .ok (rt.hashpw (encodeUtf8 password) salt)

def verifyPassword (rt : Runtime) (password passwordHash : String) : Bool :=
  (rt.checkpw ((encodeUtf8 password).take maxPasswordBytes) passwordHash).getD false

/-- `_hash_password(_require_password_value(password, label=label))`. -/
def acceptPassword (rt : Runtime) (salt password label : String) : Except PyExc String := do
  let password ← requirePasswordValue password label
  hashPassword rt salt password

/-! ## create_user -/

structure UserCreateInput where
  username : String
  email : String
  password : Option String
  isAdmin : Bool
  quotaBytes : Option Int
  rateLimitRpm : Option Int
  rateLimitBph : Option Int
  deriving DecidableEq, Repr

/-- The checks of the input alone: the user name and the address it stands for. -/
def validateUserInput (rt : Runtime) (payload : UserCreateInput) : Except PyExc (String × String) :=
  let username := strip payload.username
  let email := rt.lower (strip payload.email)
  if username = "" then .error (.http 400 "Username is required.")
  else if email = "" then .error (.http 400 "Email is required.")
  else match payload.password with
    | none => .ok (username, email)
    | some password => (requirePasswordValue password "Password").map fun _ => (username, email)

/-- `self._hash_password(payload.password) if payload.password else None`. -/
def initialPasswordHash (rt : Runtime) (salt : String) (password : Option String) : Except PyExc (Option String) :=
  match password.filter (· != "") with
  | some password => (hashPassword rt salt password).map some
  | none => .ok none

def announceRegistration (user : User) (method source : String) (correlationId actorId : Option String) : Prog Unit :=
  match correlationId with
  | none => pure ()
  | some correlationId =>
    EventBus.emit (.userRegistered user.id
      (match actorId with
        | some actorId => some actorId
        | none => if method = "registration" then some user.id else none)
      method source correlationId)

def createUser (rt : Runtime) (payload : UserCreateInput) (method : String) (correlationId actorId : Option String)
    (source userId salt : String) : Prog User := do
  let named ← ofExcept (validateUserInput rt payload)
  let byUsername ← Repository.getUserByUsername named.1
  raiseIf byUsername.isSome (.http 409 "Username already exists.")
  let byEmail ← Repository.getUserByEmail named.2
  raiseIf byEmail.isSome (.http 409 "Email already exists.")
  let now ← utcnow
  let passwordHash ← ofExcept (initialPasswordHash rt salt payload.password)
  let user : User :=
    { id := userId, username := named.1, email := named.2, passwordHash := passwordHash, isAdmin := payload.isAdmin,
      suspended := false, quotaBytes := payload.quotaBytes, rateLimitRpm := payload.rateLimitRpm,
      rateLimitBph := payload.rateLimitBph, createdAt := now, updatedAt := now }
  let _ ← Repository.createUser user
  announceRegistration user method source correlationId actorId
  return user

/-! ## update_user -/

structure UserUpdateInput where
  isAdmin : MaybeUnset Bool
  suspended : Option Bool
  quotaBytes : MaybeUnset (Option Int)
  rateLimitRpm : MaybeUnset (Option Int)
  rateLimitBph : MaybeUnset (Option Int)
  password : Option String
  deriving DecidableEq, Repr

/-- A value as it was, or as the argument sets it. -/
def MaybeUnset.getD {α : Type} (field : MaybeUnset α) (old : α) : α :=
  match field with
  | .unset => old
  | .set value => value

/-- One entry of `limits_changes`, where the value changes. -/
def limitChange (name : String) (old new : Option Int) : List (String × Option Int × Option Int) :=
  if new = old then [] else [(name, old, new)]

def limitsChanges (user : User) (payload : UserUpdateInput) : List (String × Option Int × Option Int) :=
  limitChange "quota_bytes" user.quotaBytes (payload.quotaBytes.getD user.quotaBytes) ++
    limitChange "rate_limit_rpm" user.rateLimitRpm (payload.rateLimitRpm.getD user.rateLimitRpm) ++
    limitChange "rate_limit_bph" user.rateLimitBph (payload.rateLimitBph.getD user.rateLimitBph)

/-- The `is_admin` block. -/
def announceAdminStatus (user : User) (isAdmin : Bool) (source correlationId : String) (actorId : Option String) :
    Prog Unit :=
  if isAdmin = user.isAdmin then pure ()
  else EventBus.emit (.userAdminStatusChanged user.id actorId user.isAdmin isAdmin source correlationId)

def revokeOnSuspension (userId : String) (suspended : Bool) : Prog Unit :=
  if suspended then do
    let _ ← Repository.revokeSharexDeleteCapabilitiesForUser userId
    pure ()
  else pure ()

/-- The `suspended` block: a suspension revokes the user's deletion capabilities. -/
def applySuspension (user : User) (suspended : Bool) (correlationId : String) (actorId : Option String) : Prog Unit :=
  if suspended = user.suspended then pure ()
  else do
    revokeOnSuspension user.id suspended
    EventBus.emit (.userSuspended user.id actorId suspended "api" correlationId)

def updatedPasswordHash (rt : Runtime) (salt : String) (user : User) (password : Option String) :
    Except PyExc (Option String) :=
  match password with
  | none => .ok user.passwordHash
  | some password => (acceptPassword rt salt password "Password").map some

def announceLimits (user : User) (changes : List (String × Option Int × Option Int)) (correlationId : String)
    (actorId : Option String) : Prog Unit :=
  if changes.isEmpty then pure () else EventBus.emit (.userLimitsChanged user.id actorId changes "api" correlationId)

def updateUser (rt : Runtime) (userId : String) (payload : UserUpdateInput) (correlationId : String)
    (actorId : Option String) (salt : String) : Prog User := do
  let user ← getUserOr404 userId
  let isAdmin := payload.isAdmin.getD user.isAdmin
  let suspended := payload.suspended.getD user.suspended
  announceAdminStatus user isAdmin "api" correlationId actorId
  applySuspension user suspended correlationId actorId
  let passwordHash ← ofExcept (updatedPasswordHash rt salt user payload.password)
  announceLimits user (limitsChanges user payload) correlationId actorId
  let user : User :=
    { user with
      isAdmin := isAdmin
      suspended := suspended
      quotaBytes := payload.quotaBytes.getD user.quotaBytes
      rateLimitRpm := payload.rateLimitRpm.getD user.rateLimitRpm
      rateLimitBph := payload.rateLimitBph.getD user.rateLimitBph
      passwordHash := passwordHash }
  let _ ← Repository.updateUser user
  return user

/-! ## set_user_admin_status, reset_user_password, change_password -/

def setUserAdminStatus (userId : String) (isAdmin : Bool) (correlationId : String) (actorId : Option String)
    (source : String) : Prog User := do
  let user ← getUserOr404 userId
  if user.isAdmin = isAdmin then return user
  else do
    let updated := { user with isAdmin := isAdmin }
    let _ ← Repository.updateUser updated
    EventBus.emit (.userAdminStatusChanged user.id actorId user.isAdmin isAdmin source correlationId)
    return updated

def resetUserPassword (rt : Runtime) (userId newPassword correlationId : String) (actorId : Option String)
    (salt : String) : Prog User := do
  let user ← getUserOr404 userId
  let passwordHash ← ofExcept (acceptPassword rt salt newPassword "New password")
  let user := { user with passwordHash := some passwordHash }
  let _ ← Repository.updateUser user
  EventBus.emit (.userPasswordReset user.id actorId "api" correlationId)
  return user

structure PasswordChangeInput where
  currentPassword : String
  newPassword : String
  deriving DecidableEq, Repr

/-- Whether the current password is the user's; a user without one has nothing to confirm. -/
def confirmsPassword (rt : Runtime) (user : User) (currentPassword : String) : Bool :=
  match user.passwordHash with
  | none => true
  | some hash => verifyPassword rt currentPassword hash

def announcePasswordChange (user : User) (correlationId : Option String) (source : String) : Prog Unit :=
  match correlationId with
  | none => pure ()
  | some correlationId => EventBus.emit (.userPasswordChanged user.id (some user.id) source correlationId)

def changePassword (rt : Runtime) (user : User) (payload : PasswordChangeInput) (correlationId : Option String)
    (source salt : String) : Prog User := do
  raiseIf (!confirmsPassword rt user payload.currentPassword) (.http 403 "Current password is incorrect.")
  let passwordHash ← ofExcept (acceptPassword rt salt payload.newPassword "New password")
  let user := { user with passwordHash := some passwordHash }
  let _ ← Repository.updateUser user
  announcePasswordChange user correlationId source
  return user

/-- The user a session belongs to: the last step of `authenticated_principal`. -/
def authenticatedUser (userId : String) : Prog User := do
  let found ← Repository.getUser userId
  match found with
  | none => raise (.http 401 "Invalid session.")
  | some user =>
    if user.suspended then raise (.http 403 "User is not allowed to authenticate.") else return user

/-- `change_current_user_password`: authenticate, then change the password of the user
    object that was loaded. -/
def changeCurrentUserPassword (rt : Runtime) (userId : String) (payload : PasswordChangeInput)
    (correlationId : Option String) (source salt : String) : Prog User := do
  let user ← authenticatedUser userId
  changePassword rt user payload correlationId source salt

/-! ## authenticate_local_user -/

structure LocalLoginInput where
  login : String
  password : String
  deriving DecidableEq, Repr

def invalidCredentials : PyExc := .http 401 "Invalid credentials."

/-- The account a login string names: by its address in lower case, then by its user name. -/
def findLogin (rt : Runtime) (login : String) : Prog (Option User) := do
  let byEmail ← Repository.getUserByEmail (rt.lower login)
  match byEmail with
  | some user => return some user
  | none => Repository.getUserByUsername login

def authenticateLocalUser (rt : Runtime) (payload : LocalLoginInput) : Prog User := do
  let login := strip payload.login
  raiseIf (login == "" || payload.password == "") (.http 400 "Login and password are required.")
  let found ← findLogin rt login
  match found with
  | none => raise invalidCredentials
  | some user =>
    match user.passwordHash with
    | none => raise invalidCredentials
    | some passwordHash => do
      raiseIf user.suspended (.http 403 "User is not allowed to authenticate.")
      raiseIf (!verifyPassword rt payload.password passwordHash) invalidCredentials
      return user

/-! ## delete_user_by_id -/

def deletedByActor (deletedBy : String) : ActorKind :=
  if deletedBy = "admin" then .admin else if deletedBy = "self" then .user else .system

structure UserDeleteCounts where
  albumCount : Nat
  mediaCount : Nat
  deriving DecidableEq, Repr

def deleteUserById (userId correlationId deletedBy : String) (actorId : Option String) : Prog UserDeleteCounts := do
  let user ← getUserOr404 userId
  let _ ← Repository.revokeSharexDeleteCapabilitiesForUser user.id
  let albums ← Repository.listUserAlbums user.id
  let mediaItems ← Repository.listUserMedia user.id
  forEach (storageKeysForMedia mediaItems) Storage.delete
  let deleted ← Repository.deleteUser user.id
  match deleted with
  | (none, _, _) => raise userNotFound
  | (some deletedUser, deletedAlbums, deletedMedia) => do
    EventBus.emit (.userDeleted deletedUser.id actorId (deletedByActor deletedBy) deletedBy deletedAlbums.length
      deletedMedia.length "api" correlationId)
    return { albumCount := albums.length, mediaCount := mediaItems.length }

end Imghost.Service
