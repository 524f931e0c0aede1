/-
  Imghost.OAuth.Confirmation — `validate_account_deletion_confirmation`: what a user has to
  give before the account is deleted, the password or a token of a fresh sign-in.

  A password is stored as it was typed: `_require_password_value` looks at the stripped
  password but returns the whole one. The login checks the whole one too. The deletion strips
  it first, so

  - a stored password logs its user in, always (`login_accepts_stored`);
  - it confirms the deletion exactly when it has no surrounding whitespace
    (`stored_password_confirms_deletion_iff`);
  - a user whose password ends in a blank cannot confirm with it
    (`a_trailing_blank_never_confirms`).
-/

import Imghost.Async.Moments
import Imghost.Data.Trim
import Imghost.OAuth.Login
import Imghost.Service.Operations
import Imghost.Tokens.RoundTrip

namespace Imghost.OAuth

open Imghost.Async Imghost.Model Imghost.Service Program

/-! ## validate_account_deletion_confirmation -/

structure AccountDeletionConfirmationInput where
  method : String
  currentPassword : Option String
  reauthToken : Option String
  deriving DecidableEq, Repr

def reauthInvalid : PyExc := .http 403 "OAuth re-authentication has expired or is invalid."

/-- `except ValueError`; the other exceptions of the verifier leave the operation. -/
def reauthRefused (e : Tokens.TokenExc) : PyExc :=
  if e.isValueError then reauthInvalid
  else
    match e with
    | .typeError msg => .exception msg
    | _ => .exception "maximum recursion depth exceeded"

def confirmWithPassword (rt : Runtime) (user : User) (currentPassword : Option String) : OAuthProg Unit :=
  match user.passwordHash with
  | none => raise (.http 400 "This account does not have a local password.")
  | some passwordHash => do
    let currentPassword := strip (strOr currentPassword "")
    raiseIf (currentPassword == "") (.http 400 "Current password is required.")
    raiseIf (!verifyPassword rt currentPassword passwordHash) (.http 403 "Current password is incorrect.")

/-- `max_age` of `AccountDeleteReauthTokenManager.loads`, in seconds. -/
def reauthMaxAge : Int := 600

def confirmWithReauth (tokens : Tokens.TokenLib) (secretKey : String) (user : User) (reauthToken : Option String) :
    OAuthProg Unit := do
  let reauthToken := strip (strOr reauthToken "")
  raiseIf (reauthToken == "") (.http 400 "OAuth re-authentication is required.")
  let now ← (askBase .utcnow : OAuthProg DateTime)
  let loaded := Tokens.AccountDeleteReauthTokenManager.loads tokens secretKey now reauthMaxAge reauthToken
  let reauth ← ofExcept (loaded.mapError reauthRefused)
  raiseIf (reauth.userId != user.id) reauthInvalid
  let links ← Repository.listUserSsoLinks user.id
  raiseIf (!links.any fun link => link.provider == reauth.provider && link.providerUid == reauth.providerUid) reauthInvalid

def validateAccountDeletionConfirmation (rt : Runtime) (tokens : Tokens.TokenLib) (secretKey : String) (user : User)
    (payload : AccountDeletionConfirmationInput) : OAuthProg Unit :=
  let method := rt.lower (strip payload.method)
  if method = "password" then confirmWithPassword rt user payload.currentPassword
  else if method = "oauth_reauth" then confirmWithReauth tokens secretKey user payload.reauthToken
  else raise (.http 400 "Unsupported account deletion confirmation method.")

/-! ## What is stored -/

/-- A call of an operation that stores a password, with its arguments. -/
inductive Storing where
  | createUser (payload : UserCreateInput) (method : String) (correlationId actorId : Option String)
      (source userId salt : String)
  | changePassword (user : User) (payload : PasswordChangeInput) (correlationId : Option String) (source salt : String)
  | resetUserPassword (userId newPassword correlationId : String) (actorId : Option String) (salt : String)

namespace Storing

/-- The password the call is given; `create_user` may be given none. -/
def password : Storing → Option String
  | createUser payload .. => payload.password
  | changePassword _ payload .. => some payload.newPassword
  | resetUserPassword _ newPassword .. => some newPassword

def run (rt : Runtime) : Storing → Prog User
  | createUser payload method correlationId actorId source userId salt =>
    Service.createUser rt payload method correlationId actorId source userId salt
  | changePassword user payload correlationId source salt =>
    Service.changePassword rt user payload correlationId source salt
  | resetUserPassword userId newPassword correlationId actorId salt =>
    Service.resetUserPassword rt userId newPassword correlationId actorId salt

end Storing

/-- `passwordHash` is the hash of a password that passed the checks. -/
structure HashOf (rt : Runtime) (password : String) (passwordHash : Option String) : Prop where
  notBlank : strip password ≠ ""
  fits : (encodeUtf8 password).length ≤ maxPasswordBytes
  hashed : ∃ salt, passwordHash = some (rt.hashpw (encodeUtf8 password) salt)

section

variable {rt : Runtime} {salt password label hash : String}

theorem requirePasswordValue_ok {value : String} (h : requirePasswordValue password label = .ok value) :
    value = password ∧ strip password ≠ "" := by
  unfold requirePasswordValue at h
  split at h
  · cases h
  · rename_i hblank
    split at h
    · cases h
    · exact ⟨(Except.ok.inj h).symm, hblank⟩

theorem hashPassword_ok (h : hashPassword rt salt password = .ok hash) :
    (encodeUtf8 password).length ≤ maxPasswordBytes ∧ hash = rt.hashpw (encodeUtf8 password) salt := by
  unfold hashPassword at h
  split at h
  · cases h
  · rename_i hfits
    exact ⟨Nat.le_of_not_lt hfits, (Except.ok.inj h).symm⟩

theorem acceptPassword_ok (h : acceptPassword rt salt password label = .ok hash) : HashOf rt password (some hash) := by
  unfold acceptPassword at h
  cases hvalue : requirePasswordValue password label with
  | error e =>
    rw [hvalue] at h
    cases h
  | ok value =>
    rw [hvalue] at h
    obtain ⟨rfl, hblank⟩ := requirePasswordValue_ok hvalue
    obtain ⟨hfits, rfl⟩ := hashPassword_ok h
    exact ⟨hblank, hfits, salt, rfl⟩

theorem validateUserInput_ok {payload : UserCreateInput} {named : String × String}
    (h : validateUserInput rt payload = .ok named) (hpassword : payload.password = some password) :
    strip password ≠ "" := by
  simp only [validateUserInput, hpassword] at h
  split at h
  · cases h
  · split at h
    · cases h
    · cases hvalue : requirePasswordValue password "Password" with
      | error e =>
        rw [hvalue] at h
        cases h
      | ok value => exact (requirePasswordValue_ok hvalue).2

theorem initialPasswordHash_ok {passwordHash : Option String} (hblank : strip password ≠ "")
    (h : initialPasswordHash rt salt (some password) = .ok passwordHash) : HashOf rt password passwordHash := by
  have hne : (password != "") = true := by
    apply bne_iff_ne.mpr
    intro hempty
    exact hblank (by rw [hempty]; decide)
  simp only [initialPasswordHash, Option.filter, hne, if_true] at h
  cases hhash : hashPassword rt salt password with
  | error e =>
    rw [hhash] at h
    cases h
  | ok hash =>
    rw [hhash] at h
    obtain ⟨hfits, rfl⟩ := hashPassword_ok hhash
    obtain rfl := Except.ok.inj h
    exact ⟨hblank, hfits, salt, rfl⟩

end

/-- Whatever an operation is answered, the user it returns has the hash of the password it was
    given. -/
theorem storing_hashes (rt : Runtime) (storing : Storing) {password : String} (h : storing.password = some password) :
    (storing.run rt).Yields fun user => HashOf rt password user.passwordHash := by
  cases storing with
  | createUser payload method correlationId actorId source userId salt =>
    unfold Storing.run createUser
    refine yields_bind (yields_ofExcept fun named hnamed => validateUserInput_ok hnamed h) ?_
    intro named hblank
    refine yields_then fun byUsername => yields_then fun _ => yields_then fun byEmail => yields_then fun _ =>
      yields_then fun now => ?_
    have hhashed : ∀ hash, initialPasswordHash rt salt payload.password = .ok hash → HashOf rt password hash := by
      intro hash hhash
      rw [show payload.password = some password from h] at hhash
      exact initialPasswordHash_ok hblank hhash
    refine yields_bind (yields_ofExcept hhashed) ?_
    intro hash hhash
    exact yields_then fun _ => yields_then fun _ => hhash
  | changePassword user payload correlationId source salt =>
    obtain rfl : payload.newPassword = password := Option.some.inj h
    unfold Storing.run changePassword
    refine yields_then fun _ => ?_
    refine yields_bind (yields_ofExcept fun hash hhash => acceptPassword_ok hhash) ?_
    intro hash hhash
    exact yields_then fun _ => yields_then fun _ => hhash
  | resetUserPassword userId newPassword correlationId actorId salt =>
    obtain rfl : newPassword = password := Option.some.inj h
    unfold Storing.run resetUserPassword
    refine yields_then fun user => ?_
    refine yields_bind (yields_ofExcept fun hash hhash => acceptPassword_ok hhash) ?_
    intro hash hhash
    exact yields_then fun _ => yields_then fun _ => hhash

/-- A run that returns has returned one of the values the program yields. -/
theorem returned_of_yields {P : User → Prop} {p : Prog User} (hp : p.Yields P) {B : Backend Reply PyExc World}
    {ms : List (Moment PyExc)} {w : World} {user : User} (h : (runAlone B p ms w).1 = .ok user) : P user := by
  induction p generalizing ms w with
  | ret a => exact Except.ok.inj h ▸ hp
  | raise e => cases h
  | call r k ih => exact ih _ (hp _) h

/-! ## What the login and the deletion check -/

/-- What is relied on of `bcrypt`, on byte strings of at most 72 bytes. -/
def BcryptChecks (rt : Runtime) : Prop :=
  ∀ x y salt, x.length ≤ maxPasswordBytes → y.length ≤ maxPasswordBytes →
    rt.checkpw x (rt.hashpw y salt) = some (decide (x = y))

theorem encodeUtf8_inj {a b : String} (h : encodeUtf8 a = encodeUtf8 b) : a = b := by
  apply Except.ok.inj
  calc Except.ok a = Tokens.decodeUtf8 (encodeUtf8 a) := (Tokens.decodeUtf8_encode a).symm
    _ = Tokens.decodeUtf8 (encodeUtf8 b) := congrArg Tokens.decodeUtf8 h
    _ = Except.ok b := Tokens.decodeUtf8_encode b

theorem encodeUtf8_length (s : String) : (encodeUtf8 s).length = s.utf8ByteSize := by
  rw [encodeUtf8, ByteArray.toList, Tokens.toList_loop]
  simp

/-- Stripping takes bytes away. -/
theorem strip_fits (s : String) : (encodeUtf8 (strip s)).length ≤ (encodeUtf8 s).length := by
  obtain ⟨u, v, -, -, hparts⟩ := Data.trim_parts (p := isSpace) s.toList
  have hs : s = String.ofList u ++ strip s ++ String.ofList v := by
    calc s = String.ofList s.toList := (String.ofList_toList ..).symm
      _ = String.ofList (u ++ Data.trim isSpace s.toList ++ v) := congrArg _ hparts
      _ = String.ofList u ++ strip s ++ String.ofList v := by rw [String.ofList_append, String.ofList_append]; rfl
  have hsize := congrArg String.utf8ByteSize hs
  rw [String.utf8ByteSize_append, String.utf8ByteSize_append] at hsize
  rw [encodeUtf8_length, encodeUtf8_length]
  omega

variable {rt : Runtime} {password passwordHash : String}

theorem verifies_iff (hbcrypt : BcryptChecks rt) (hstored : HashOf rt password (some passwordHash)) {given : String}
    (hfits : (encodeUtf8 given).length ≤ maxPasswordBytes) :
    verifyPassword rt given passwordHash = true ↔ given = password := by
  obtain ⟨salt, hhash⟩ := hstored.hashed
  rw [Option.some.inj hhash, verifyPassword, List.take_of_length_le hfits, hbcrypt _ _ _ hfits hstored.fits]
  simp only [Option.getD_some, decide_eq_true_eq]
  constructor
  · exact encodeUtf8_inj
  · intro h
    rw [h]

/-- The account `authenticate_local_user` looks up for a login. -/
def loginNames (rt : Runtime) (w : World) (login : String) : Option User :=
  match w.users.rows.find? (·.email == rt.lower login) with
  | some user => some user
  | none => w.users.rows.find? (·.username == login)

theorem runAlone_findLogin (rt : Runtime) {ms : List (Moment PyExc)} (hquiet : ∀ n, faultAt ms n = none) (w : World)
    (login : String) : ∃ ms' w', ∀ {α : Type} (f : Option User → Prog α),
      runAlone backend (findLogin rt login >>= f) ms w = runAlone backend (f (loginNames rt w login)) ms' w' := by
  have hemail (w : World) : backend.answer 0 (.getUserByEmail (rt.lower login)) none w =
      (.ok (w.users.rows.find? (·.email == rt.lower login)), w) := rfl
  have hname (w : World) : backend.answer 0 (.getUserByUsername login) none w =
      (.ok (w.users.rows.find? (·.username == login)), w) := rfl
  have hsame (d : Nat) (w : World) : (backend.elapse d w).users = w.users := rfl
  cases hfound : w.users.rows.find? (·.email == rt.lower login) with
  | some user =>
    refine ⟨ms.tail, backend.elapse (ms.headD .quiet).elapsed w, fun f => ?_⟩
    rw [findLogin, sequence_assoc, runAlone_await, hquiet, hemail, hsame, loginNames, hfound]
    rfl
  | none =>
    refine ⟨ms.tail.tail, backend.elapse (ms.tail.headD .quiet).elapsed (backend.elapse (ms.headD .quiet).elapsed w),
      fun f => ?_⟩
    rw [findLogin, sequence_assoc, runAlone_await, hquiet, hemail, hsame, loginNames, hfound]
    dsimp only
    rw [runAlone_await, faultAt_tail, hquiet, hname, hsame]
    rfl

/-- A stored password logs its user in. -/
theorem login_accepts_stored (hbcrypt : BcryptChecks rt) {user : User} (hstored : HashOf rt password user.passwordHash)
    (hactive : user.suspended = false) {login : LocalLoginInput} (hgiven : login.password = password)
    (hlogin : strip login.login ≠ "") {w : World} (hnames : loginNames rt w (strip login.login) = some user)
    {ms : List (Moment PyExc)} (hquiet : ∀ n, faultAt ms n = none) :
    (runAlone backend (authenticateLocalUser rt login) ms w).1 = .ok user := by
  have hne : password ≠ "" := by
    intro hempty
    apply hstored.notBlank
    rw [hempty]
    decide
  obtain ⟨salt, hhash⟩ := hstored.hashed
  have hverify : verifyPassword rt password (rt.hashpw (encodeUtf8 password) salt) = true := by
    apply (verifies_iff hbcrypt (hhash ▸ hstored) hstored.fits).mpr
    rfl
  obtain ⟨ms', w', hfind⟩ := runAlone_findLogin rt hquiet w (strip login.login)
  rw [authenticateLocalUser, runAlone_check, if_neg (by simp [hlogin, hgiven, hne])]
  refine (congrArg Prod.fst (hfind _)).trans ?_
  simp only [hnames, hhash, hgiven, hactive, hverify]
  rfl

/-- A stored password confirms the deletion when stripping leaves it alone. -/
theorem confirmation_accepts_iff (hbcrypt : BcryptChecks rt) {user : User} (hstored : HashOf rt password user.passwordHash)
    (tokens : Tokens.TokenLib) (secretKey : String) {payload : AccountDeletionConfirmationInput}
    (hmethod : rt.lower (strip payload.method) = "password") (hgiven : payload.currentPassword = some password)
    (ms : List (Moment PyExc)) (w : OAuthWorld) :
    (runAlone oauthBackend (validateAccountDeletionConfirmation rt tokens secretKey user payload) ms w).1 = .ok () ↔
      strip password = password := by
  have hne : password ≠ "" := by
    intro hempty
    apply hstored.notBlank
    rw [hempty]
    decide
  obtain ⟨salt, hhash⟩ := hstored.hashed
  have hverify := verifies_iff hbcrypt (hhash ▸ hstored) ((strip_fits password).trans hstored.fits)
  have hgivenOr : strOr payload.currentPassword "" = password := by simp [hgiven, strOr, hne]
  simp only [validateAccountDeletionConfirmation, hmethod, if_true, confirmWithPassword, hhash, hgivenOr]
  rw [runAlone_check, if_neg (by simp [hstored.notBlank]), ← hverify]
  cases verifyPassword rt (strip password) (rt.hashpw (encodeUtf8 password) salt) with
  | true => exact iff_of_true rfl rfl
  | false => exact iff_of_false (fun h => nomatch h) (fun h => nomatch h)

/-- The password an operation has stored logs its user in and confirms the deletion, exactly when
    stripping leaves it alone. `B` answers the operation that stored it: any other requests may
    have run beside it. -/
theorem stored_password_confirms_deletion_iff (rt : Runtime) (hbcrypt : BcryptChecks rt) (storing : Storing)
    {password : String} (hpassword : storing.password = some password) (B : Backend Reply PyExc World)
    (before : List (Moment PyExc)) (w₀ : World) (stored : User)
    (hreturns : (runAlone B (storing.run rt) before w₀).1 = .ok stored)
    (w : OAuthWorld) (user : User) (hkept : user.passwordHash = stored.passwordHash) (hactive : user.suspended = false)
    (login : LocalLoginInput) (hlogin : login.password = password) (hnotEmpty : strip login.login ≠ "")
    (hnames : loginNames rt w.base (strip login.login) = some user)
    (tokens : Tokens.TokenLib) (secretKey : String) (payload : AccountDeletionConfirmationInput)
    (hmethod : rt.lower (strip payload.method) = "password") (hgiven : payload.currentPassword = some password)
    (ms : List (Moment PyExc)) (hquiet : ∀ n, faultAt ms n = none) :
    ((runAlone backend (authenticateLocalUser rt login) ms w.base).1 = .ok user ∧
      (runAlone oauthBackend (validateAccountDeletionConfirmation rt tokens secretKey user payload) ms w).1 = .ok ()) ↔
      strip password = password := by
  have hstored : HashOf rt password user.passwordHash := by
    rw [hkept]
    exact returned_of_yields (storing_hashes rt storing hpassword) hreturns
  have hlogs := login_accepts_stored hbcrypt hstored hactive hlogin hnotEmpty hnames hquiet
  rw [← confirmation_accepts_iff hbcrypt hstored tokens secretKey hmethod hgiven ms w]
  exact and_iff_right hlogs

/-! ## With and without a blank -/

namespace Sample

/-- The hash that spells its bytes. -/
def spelled (data : Bytes) : String := String.ofList (Sessions.b64encode data)

theorem spelled_inj {x y : Bytes} (h : spelled x = spelled y) : x = y :=
  Option.some.inj ((Tokens.b64decode_encode x).symm.trans ((congrArg Tokens.b64decode h).trans
    (Tokens.b64decode_encode y)))

def spelling : Runtime :=
  { Service.Sample.runtime with
    hashpw := fun data _ => spelled data
    checkpw := fun data hash => some (decide (spelled data = hash)) }

theorem spelling_checks : BcryptChecks spelling := by
  intro x y salt _ _
  show some (decide (spelled x = spelled y)) = some (decide (x = y))
  apply congrArg some
  apply decide_eq_decide.mpr
  exact ⟨spelled_inj, congrArg spelled⟩

def noTokens : Tokens.TokenLib where
  hmacSha256 _ _ := ""
  hexdigest_ascii _ _ := rfl
  jsonLoads _ := .error .jsonDecodeError
  fromisoformat _ := none
  str _ := ""
  lower := id

/-- Alice registers. -/
def signingUp (password : String) : Storing :=
  .createUser { username := "alice", email := "alice@example.org", password := some password, isAdmin := false,
                quotaBytes := none, rateLimitRpm := none, rateLimitBph := none } "registration" none none "web" "u1" "salt"

def alice (password : String) : User :=
  { id := "u1", username := "alice", email := "alice@example.org", passwordHash := some (spelled (encodeUtf8 password)),
    isAdmin := false, suspended := false, quotaBytes := none, rateLimitRpm := none, rateLimitBph := none, createdAt := 0,
    updatedAt := 0 }

/-- The site after it. -/
def registered (password : String) : OAuthWorld where
  base := (runAlone backend ((signingUp password).run spelling) [] Service.Sample.world).2
  links := { rows := .empty, identities := by decide }

def confirming (password : String) : AccountDeletionConfirmationInput := ⟨"password", some password, none⟩

end Sample

open Sample in
theorem stored_password_confirms_here :
    ((runAlone backend (authenticateLocalUser spelling ⟨"alice", "long secret"⟩) []
        (registered "long secret").base).1 = .ok (alice "long secret") ∧
      (runAlone oauthBackend (validateAccountDeletionConfirmation spelling noTokens "key" (alice "long secret")
        (confirming "long secret")) [] (registered "long secret")).1 = .ok ()) ↔ strip "long secret" = "long secret" :=
  stored_password_confirms_deletion_iff spelling spelling_checks (signingUp "long secret") rfl backend []
    Service.Sample.world (alice "long secret") (by decide +kernel) (registered "long secret") (alice "long secret") rfl
    rfl ⟨"alice", "long secret"⟩ rfl (by decide +kernel) (by decide +kernel) noTokens "key" (confirming "long secret")
    (by decide +kernel) rfl [] (fun _ => faultAt_nil _)

open Sample in
/-- Alice registers with a password that ends in a blank. She can log in with it; it is not the
    password that deletes her account. -/
theorem a_trailing_blank_never_confirms :
    BcryptChecks spelling ∧
      (runAlone backend ((signingUp "long secret ").run spelling) [] Service.Sample.world).1 =
        .ok (alice "long secret ") ∧
      (runAlone backend (authenticateLocalUser spelling ⟨"alice", "long secret "⟩) []
        (registered "long secret ").base).1 = .ok (alice "long secret ") ∧
      (runAlone oauthBackend (validateAccountDeletionConfirmation spelling noTokens "key" (alice "long secret ")
        (confirming "long secret ")) [] (registered "long secret ")).1 =
        .error (.http 403 "Current password is incorrect.") :=
  ⟨spelling_checks, by decide +kernel, by decide +kernel, by decide +kernel⟩

end Imghost.OAuth
