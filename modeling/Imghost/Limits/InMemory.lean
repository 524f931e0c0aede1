/-
  Imghost.Limits.InMemory — the limiters of `rate_limits.py` and `auth_rate_limits.py`
  that keep their counters in the process.

  A dictionary of counters is a function that is empty where the dictionary has no
  entry. Times are microseconds of one clock. The limits are read from the runtime
  configuration before the counters are touched, so each method is one step.
-/

import Imghost.Data.Window
import Imghost.Model.Types

namespace Imghost.Limits

open Imghost.Data Imghost.Model

def second : Int := 1000000
def minuteSeconds : Int := 60 * second
def hourSeconds : Int := 3600 * second

/-- The keys of `RUNTIME_CONFIG_SPECS` the limiters read. -/
inductive LimitKey where
  | rateLimitAnonRpm
  | rateLimitAnonBph
  | rateLimitGlobalAnonRpm
  | rateLimitGlobalAnonBph
  | rateLimitUserRpm
  | rateLimitUserBph
  | authRateLimitLoginIpRpm
  | authRateLimitLoginAccountFailures
  | authRateLimitLoginAccountWindowSeconds
  | authRateLimitLoginLockSeconds
  | authRateLimitRegistrationIpRpm
  | authRateLimitApiKeyIpFailures
  | authRateLimitApiKeyIpWindowSeconds
  | authRateLimitApiKeyLockSeconds
  | authRateLimitAdminIpFailures
  | authRateLimitAdminIpWindowSeconds
  | authRateLimitAdminLockSeconds
  deriving DecidableEq, Repr

abbrev LimitConfig := LimitKey → Int

def rateLimitDetail : String := "Too many authentication attempts. Try again later."
def tooManyAttempts : PyExc := .http 429 rateLimitDetail
def tooManyRequests : PyExc := .http 429 "Upload rate limit exceeded."
def tooManyBytes : PyExc := .http 429 "Upload bandwidth limit exceeded."

/-- One entry of a dictionary replaced. -/
def put {α : Type} (dict : String → α) (key : String) (value : α) : String → α :=
  fun k => if k = key then value else dict k

@[simp] theorem put_self {α : Type} (dict : String → α) (key : String) (value : α) : put dict key value key = value :=
  if_pos rfl

theorem put_of_ne {α : Type} {dict : String → α} {key k : String} {value : α} (h : k ≠ key) :
    put dict key value k = dict k := if_neg h

@[simp] theorem put_put {α : Type} (dict : String → α) (key : String) (value value' : α) :
    put (put dict key value) key value' = put dict key value' := by
  funext k
  simp only [put]
  split <;> rfl

/-! ## rate_limits.py -/

/-- The admitted requests with their sizes, oldest first. -/
structure WindowCounter where
  events : List (Int × Nat)
  deriving DecidableEq, Repr

namespace WindowCounter

def empty : WindowCounter := ⟨[]⟩

def prune (counter : WindowCounter) (now windowSeconds : Int) : WindowCounter :=
  ⟨Window.prune Prod.fst (now - windowSeconds) counter.events⟩

def count (counter : WindowCounter) (now windowSeconds : Int) : Nat × WindowCounter :=
  let counter := counter.prune now windowSeconds
  (counter.events.length, counter)

def bytesUsed (counter : WindowCounter) (now windowSeconds : Int) : Nat × WindowCounter :=
  let counter := counter.prune now windowSeconds
  ((counter.events.map Prod.snd).sum, counter)

def add (counter : WindowCounter) (now : Int) (byteCount : Nat) : WindowCounter :=
  ⟨counter.events ++ [(now, byteCount)]⟩

end WindowCounter

structure UploadLimits where
  rpm : Int
  bph : Int
  deriving DecidableEq, Repr

/-- `_enforce_counter`: the verdict, and the counter as the two queries leave it. -/
def enforceCounter (counter : WindowCounter) (now : Int) (limits : UploadLimits) (byteCount : Nat) :
    Except PyExc Unit × WindowCounter :=
  let (requestsThisMinute, counter) := counter.count now minuteSeconds
  if 0 < limits.rpm ∧ limits.rpm ≤ requestsThisMinute then (.error tooManyRequests, counter)
  else
    let (bytesThisHour, counter) := counter.bytesUsed now hourSeconds
    if 0 < limits.bph ∧ limits.bph < bytesThisHour + byteCount then (.error tooManyBytes, counter)
    else (.ok (), counter)

structure UploadRequest where
  actorKey : String
  byteCount : Nat
  user : Option User
  deriving DecidableEq, Repr

/-- The limits of a user, with the user's own where they are set. -/
def userLimits (config : LimitConfig) (user : User) : UploadLimits where
  rpm := user.rateLimitRpm.getD (config .rateLimitUserRpm)
  bph := user.rateLimitBph.getD (config .rateLimitUserBph)

def anonLimits (config : LimitConfig) : UploadLimits := ⟨config .rateLimitAnonRpm, config .rateLimitAnonBph⟩
def globalAnonLimits (config : LimitConfig) : UploadLimits := ⟨config .rateLimitGlobalAnonRpm, config .rateLimitGlobalAnonBph⟩

structure InMemoryRateLimiter where
  anonWindows : String → WindowCounter
  userWindows : String → WindowCounter
  globalAnon : WindowCounter

namespace InMemoryRateLimiter

def empty : InMemoryRateLimiter := ⟨fun _ => .empty, fun _ => .empty, .empty⟩

def enforceUser (config : LimitConfig) (now : Int) (request : UploadRequest) (user : User) (s : InMemoryRateLimiter) :
    Except PyExc Unit × InMemoryRateLimiter :=
  let (verdict, counter) := enforceCounter (s.userWindows request.actorKey) now (userLimits config user) request.byteCount
  match verdict with
  | .error e => (.error e, { s with userWindows := put s.userWindows request.actorKey counter })
  | .ok _ =>
    (.ok (), { s with userWindows := put s.userWindows request.actorKey (counter.add now request.byteCount) })

/-- The actor's own counter, then that of all anonymous actors; both record, or neither. -/
def enforceAnon (config : LimitConfig) (now : Int) (request : UploadRequest) (s : InMemoryRateLimiter) :
    Except PyExc Unit × InMemoryRateLimiter :=
  let (verdict, counter) := enforceCounter (s.anonWindows request.actorKey) now (anonLimits config) request.byteCount
  match verdict with
  | .error e => (.error e, { s with anonWindows := put s.anonWindows request.actorKey counter })
  | .ok _ =>
    let (verdict, globalAnon) := enforceCounter s.globalAnon now (globalAnonLimits config) request.byteCount
    match verdict with
    | .error e =>
      (.error e, { s with anonWindows := put s.anonWindows request.actorKey counter, globalAnon := globalAnon })
    | .ok _ =>
      (.ok (), { s with
        anonWindows := put s.anonWindows request.actorKey (counter.add now request.byteCount)
        globalAnon := globalAnon.add now request.byteCount })

def enforceUploadLimits (config : LimitConfig) (now : Int) (request : UploadRequest) (s : InMemoryRateLimiter) :
    Except PyExc Unit × InMemoryRateLimiter :=
  match request.user with
  | some user => s.enforceUser config now request user
  | none => s.enforceAnon config now request

end InMemoryRateLimiter

/-! ## auth_rate_limits.py -/

structure AuthWindowCounter where
  events : List Int
  deriving DecidableEq, Repr

namespace AuthWindowCounter

def empty : AuthWindowCounter := ⟨[]⟩

def prune (counter : AuthWindowCounter) (now windowSeconds : Int) : AuthWindowCounter :=
  ⟨Window.prune id (now - windowSeconds) counter.events⟩

def count (counter : AuthWindowCounter) (now windowSeconds : Int) : Nat × AuthWindowCounter :=
  let counter := counter.prune now windowSeconds
  (counter.events.length, counter)

def add (counter : AuthWindowCounter) (now : Int) : AuthWindowCounter := ⟨counter.events ++ [now]⟩

end AuthWindowCounter

/-- What failures are counted for: a login account, an API key's IP, an admin's IP. -/
inductive FailureKind where
  | login
  | apiKey
  | admin
  deriving DecidableEq, Repr

namespace FailureKind

def thresholdKey : FailureKind → LimitKey
  | login => .authRateLimitLoginAccountFailures
  | apiKey => .authRateLimitApiKeyIpFailures
  | admin => .authRateLimitAdminIpFailures

def windowKey : FailureKind → LimitKey
  | login => .authRateLimitLoginAccountWindowSeconds
  | apiKey => .authRateLimitApiKeyIpWindowSeconds
  | admin => .authRateLimitAdminIpWindowSeconds

def lockSecondsKey : FailureKind → LimitKey
  | login => .authRateLimitLoginLockSeconds
  | apiKey => .authRateLimitApiKeyLockSeconds
  | admin => .authRateLimitAdminLockSeconds

/-- What the keys of its counters and locks begin with. -/
def scope : FailureKind → String
  | login => "login:account:"
  | apiKey => "api_key:ip:"
  | admin => "admin:ip:"

end FailureKind

/-- `failures` are `_login_failures`, `_api_key_failures` and `_admin_denials`. -/
structure InMemoryAuthRateLimiter where
  loginIpAttempts : String → AuthWindowCounter
  registrationIpAttempts : String → AuthWindowCounter
  failures : FailureKind → String → AuthWindowCounter
  locks : String → Option Int

namespace InMemoryAuthRateLimiter

def empty : InMemoryAuthRateLimiter := ⟨fun _ => .empty, fun _ => .empty, fun _ _ => .empty, fun _ => none⟩

def checkLock (s : InMemoryAuthRateLimiter) (key : String) (now : Int) : Except PyExc Unit × InMemoryAuthRateLimiter :=
  match s.locks key with
  | none => (.ok (), s)
  | some expiry =>
    if expiry ≤ now then (.ok (), { s with locks := put s.locks key none })
    else (.error tooManyAttempts, s)

def enforceAttemptCounter (counter : AuthWindowCounter) (now windowSeconds limit : Int) :
    Except PyExc Unit × AuthWindowCounter :=
  if limit ≤ 0 then (.ok (), counter)
  else
    let (attempts, counter) := counter.count now windowSeconds
    if limit ≤ attempts then (.error tooManyAttempts, counter) else (.ok (), counter)

/-- An attempt against one of the per-minute counters, recorded when it is let through. -/
def attempt (counters : String → AuthWindowCounter) (ipKey : String) (now limit : Int) :
    Except PyExc Unit × (String → AuthWindowCounter) :=
  let (verdict, counter) := enforceAttemptCounter (counters ipKey) now minuteSeconds limit
  match verdict with
  | .error e => (.error e, put counters ipKey counter)
  | .ok _ => (.ok (), put counters ipKey (counter.add now))

def enforceLoginAttempt (config : LimitConfig) (now : Int) (ipKey loginKey : String) (s : InMemoryAuthRateLimiter) :
    Except PyExc Unit × InMemoryAuthRateLimiter :=
  let (verdict, s) := s.checkLock (FailureKind.login.scope ++ loginKey) now
  match verdict with
  | .error e => (.error e, s)
  | .ok _ =>
    let (verdict, counters) := attempt s.loginIpAttempts ipKey now (config .authRateLimitLoginIpRpm)
    (verdict, { s with loginIpAttempts := counters })

def enforceRegistrationAttempt (config : LimitConfig) (now : Int) (ipKey : String) (s : InMemoryAuthRateLimiter) :
    Except PyExc Unit × InMemoryAuthRateLimiter :=
  let (verdict, counters) := attempt s.registrationIpAttempts ipKey now (config .authRateLimitRegistrationIpRpm)
  (verdict, { s with registrationIpAttempts := counters })

def enforceApiKeyAttempt (now : Int) (ipKey : String) (s : InMemoryAuthRateLimiter) :
    Except PyExc Unit × InMemoryAuthRateLimiter := s.checkLock (FailureKind.apiKey.scope ++ ipKey) now

def enforceAdminAttempt (now : Int) (ipKey : String) (s : InMemoryAuthRateLimiter) :
    Except PyExc Unit × InMemoryAuthRateLimiter := s.checkLock (FailureKind.admin.scope ++ ipKey) now

/-- The counter of one key replaced. -/
def setFailures (s : InMemoryAuthRateLimiter) (kind : FailureKind) (key : String) (counter : AuthWindowCounter) :
    InMemoryAuthRateLimiter :=
  { s with failures := fun k => if k = kind then put (s.failures k) key counter else s.failures k }

/-- A failure of `kind`: counted, and the key locked once the threshold is reached. -/
def recordFailure (config : LimitConfig) (kind : FailureKind) (now : Int) (key : String) (s : InMemoryAuthRateLimiter) :
    InMemoryAuthRateLimiter :=
  let threshold := config kind.thresholdKey
  let counter := (s.failures kind key).add now
  if 0 < threshold then
    let (failures, counter) := counter.count now (config kind.windowKey * second)
    let s := s.setFailures kind key counter
    if threshold ≤ failures then
      { s with locks := put s.locks (kind.scope ++ key) (some (now + config kind.lockSecondsKey * second)) }
    else s
  else s.setFailures kind key counter

/-- A success of `kind`: counter and lock are popped. -/
def recordSuccess (kind : FailureKind) (key : String) (s : InMemoryAuthRateLimiter) : InMemoryAuthRateLimiter :=
  let s := s.setFailures kind key .empty
  { s with locks := put s.locks (kind.scope ++ key) none }

def recordLoginFailure (config : LimitConfig) (now : Int) (loginKey : String) (s : InMemoryAuthRateLimiter) :
    InMemoryAuthRateLimiter := s.recordFailure config .login now loginKey
def recordLoginSuccess (loginKey : String) (s : InMemoryAuthRateLimiter) : InMemoryAuthRateLimiter :=
  s.recordSuccess .login loginKey
def recordApiKeyFailure (config : LimitConfig) (now : Int) (ipKey : String) (s : InMemoryAuthRateLimiter) :
    InMemoryAuthRateLimiter := s.recordFailure config .apiKey now ipKey
def recordApiKeySuccess (ipKey : String) (s : InMemoryAuthRateLimiter) : InMemoryAuthRateLimiter :=
  s.recordSuccess .apiKey ipKey
def recordAdminDenial (config : LimitConfig) (now : Int) (ipKey : String) (s : InMemoryAuthRateLimiter) :
    InMemoryAuthRateLimiter := s.recordFailure config .admin now ipKey

end InMemoryAuthRateLimiter

end Imghost.Limits
