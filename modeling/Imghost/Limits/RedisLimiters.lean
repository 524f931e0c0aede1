/-
  Imghost.Limits.RedisLimiters — `RedisRateLimiter`, `RedisAuthRateLimiter` and
  `RedisHandle.execute` as coroutines.

  A counter is checked with `GET` or `HGETALL` and raised by later commands. When Redis
  fails in between, the method starts again with the limiter in memory.
-/

import Imghost.Limits.Redis

namespace Imghost.Limits

open Imghost.Async Imghost.Model Program

abbrev request (r : LimitReq) : LimitProg (LimitReply r) := Program.perform r

/-- The settings of a `RedisHandle`. -/
structure RedisHandle where
  keyPrefix : String
  deriving DecidableEq, Repr

namespace RedisHandle

def prefixed (redis : RedisHandle) (key : String) : String :=
  if redis.keyPrefix = "" then key else redis.keyPrefix ++ ":" ++ key

end RedisHandle

theorem prefixed_inj {redis : RedisHandle} {a b : String} : redis.prefixed a = redis.prefixed b ↔ a = b := by
  unfold RedisHandle.prefixed
  split
  · exact Iff.rfl
  · rw [String.append_right_inj]

/-- `_is_redis_exception`. -/
def isRedisException : LimiterExc → Bool
  | .redis _ | .timeout => true
  | _ => false

/-- `RedisHandle.execute`. -/
def execute (operation : String) (callback : LimitProg Unit) : LimitProg Unit := do
  request .getClient
  callback.tryExcept fun e =>
    if isRedisException e then do
      request .markFailure
      raise (.redisUnavailable ("Redis unavailable during " ++ operation ++ "."))
    else raise e
  request .markSuccess

/-- The callback with Redis, or the limiter in memory when Redis is not available. -/
def withRedisFallback (operation : String) (fallback callback : LimitProg Unit) : LimitProg Unit :=
  (execute operation callback).tryExcept fun
    | .redisUnavailable _ => fallback
    | e => raise e

theorem uses_withRedisFallback {allowed : LimitReq → Prop} {operation : String} {fallback callback : LimitProg Unit}
    (hfallback : fallback.Uses allowed) (hcallback : callback.Uses allowed) (hclient : allowed .getClient)
    (hfailure : allowed .markFailure) (hsuccess : allowed .markSuccess) :
    (withRedisFallback operation fallback callback).Uses allowed := by
  refine uses_tryExcept (uses_bind (uses_perform hclient) fun _ => uses_bind (uses_tryExcept hcallback fun e => ?_)
    fun _ => uses_perform hsuccess) fun e => ?_
  · split
    · exact uses_bind (uses_perform hfailure) fun _ => trivial
    · trivial
  · cases e <;> first | exact hfallback | trivial

/-! ## RedisRateLimiter -/

def requestsKey (redis : RedisHandle) (scope : String) (minuteBucket : Int) : String :=
  redis.prefixed ("rl:req:" ++ scope ++ ":" ++ toString minuteBucket)

def bytesKey (redis : RedisHandle) (scope : String) : String := redis.prefixed ("rl:bytes:" ++ scope)

/-- `now // 60` of the wall clock in whole seconds. -/
def bucketOf (clock : Int) : Int := clock / second / 60

/-- The fields of the last sixty buckets. -/
def recentFields (minuteBucket : Int) (fields : List (Int × Int)) : List (Int × Int) :=
  fields.filter fun f => !decide (f.1 < minuteBucket - 59)

def staleFields (minuteBucket : Int) (fields : List (Int × Int)) : List Int :=
  (fields.filter fun f => decide (f.1 < minuteBucket - 59)).map Prod.fst

def totalBytes (minuteBucket : Int) (fields : List (Int × Int)) : Int :=
  ((recentFields minuteBucket fields).map Prod.snd).sum

/-- The `if rpm_limit > 0` block. -/
def checkRequests (key : String) (rpm : Int) : LimitProg Unit :=
  if 0 < rpm then do
    let current ← request (.get key)
    raiseIf (rpm ≤ current.getD 0) (.py tooManyRequests)
  else pure ()

/-- `if stale_fields: await client.hdel(bytes_key, *stale_fields)`. -/
def dropStale (key : String) (minuteBucket : Int) (fields : List (Int × Int)) : LimitProg Unit :=
  if (staleFields minuteBucket fields).isEmpty then pure ()
  else request (.hdel key (staleFields minuteBucket fields))

/-- The `if bph_limit > 0` block. -/
def checkBytes (key : String) (bph minuteBucket : Int) (byteCount : Nat) : LimitProg Unit :=
  if 0 < bph then do
    let fields ← request (.hgetall key)
    dropStale key minuteBucket fields
    raiseIf (bph < totalBytes minuteBucket fields + byteCount) (.py tooManyBytes)
  else pure ()

/-- The commands that record an admitted request. -/
def record (requests bytes : String) (minuteBucket : Int) (byteCount : Nat) : LimitProg Unit := do
  let _ ← request (.incr requests)
  request (.expire requests 120)
  let _ ← request (.hincrby bytes minuteBucket byteCount)
  request (.expire bytes 3720)

namespace RedisRateLimiter

/-- `_enforce_counter`. -/
def enforceCounter (redis : RedisHandle) (scope : String) (minuteBucket : Int) (limits : UploadLimits)
    (byteCount : Nat) : LimitProg Unit := do
  checkRequests (requestsKey redis scope minuteBucket) limits.rpm
  checkBytes (bytesKey redis scope) limits.bph minuteBucket byteCount
  record (requestsKey redis scope minuteBucket) (bytesKey redis scope) minuteBucket byteCount

/-- `x if x is not None else int(await self.runtime_config.get_value(…))`. -/
def overrideOr (value : Option Int) (key : LimitKey) : LimitProg Int :=
  match value with
  | some value => pure value
  | none => request (.getValue key)

/-- `_enforce_with_redis`. -/
def enforceWithRedis (redis : RedisHandle) (r : UploadRequest) : LimitProg Unit := do
  let now ← request .time
  let minuteBucket := bucketOf now
  match r.user with
  | some user => do
    let rpm ← overrideOr user.rateLimitRpm .rateLimitUserRpm
    let bph ← overrideOr user.rateLimitBph .rateLimitUserBph
    enforceCounter redis ("user:" ++ r.actorKey) minuteBucket ⟨rpm, bph⟩ r.byteCount
  | none => do
    let rpm ← request (.getValue .rateLimitAnonRpm)
    let bph ← request (.getValue .rateLimitAnonBph)
    let globalRpm ← request (.getValue .rateLimitGlobalAnonRpm)
    let globalBph ← request (.getValue .rateLimitGlobalAnonBph)
    enforceCounter redis ("anon:" ++ r.actorKey) minuteBucket ⟨rpm, bph⟩ r.byteCount
    enforceCounter redis "anon:global" minuteBucket ⟨globalRpm, globalBph⟩ r.byteCount

def enforceUploadLimits (redis : RedisHandle) (r : UploadRequest) : LimitProg Unit :=
  withRedisFallback "rate limit check" (request (.memoryUpload r)) (enforceWithRedis redis r)

end RedisRateLimiter

/-! ## RedisAuthRateLimiter -/

namespace RedisAuthRateLimiter

/-- `_enforce_rpm_counter`. -/
def enforceRpmCounter (redis : RedisHandle) (keyStart : String) (limit : Int) : LimitProg Unit :=
  if limit ≤ 0 then pure ()
  else do
    let now ← request .time
    let key := redis.prefixed (keyStart ++ ":" ++ toString (bucketOf now))
    let current ← request (.get key)
    raiseIf (limit ≤ current.getD 0) (.py tooManyAttempts)
    let updated ← request (.incr key)
    if updated = 1 then request (.expire key 120) else pure ()

/-- `_record_failure_counter`. -/
def recordFailureCounter (counterKey lockKey : String) (threshold windowSeconds lockSeconds : Int) : LimitProg Unit := do
  let updated ← request (.incr counterKey)
  if updated = 1 then request (.expire counterKey windowSeconds) else pure ()
  if 0 < threshold ∧ threshold ≤ updated then request (.setEx lockKey lockSeconds) else pure ()

/-- `_raise_if_locked`. -/
def raiseIfLocked (key : String) : LimitProg Unit := do
  let found ← request (.get key)
  raiseIf found.isSome (.py tooManyAttempts)

def failKey (redis : RedisHandle) (kind : FailureKind) (key : String) : String :=
  redis.prefixed ("arl:fail:" ++ kind.scope ++ key)

def lockKey (redis : RedisHandle) (kind : FailureKind) (key : String) : String :=
  redis.prefixed ("arl:lock:" ++ kind.scope ++ key)

theorem failKey_ne_lockKey {redis : RedisHandle} (kind kind' : FailureKind) (key key' : String) :
    failKey redis kind key ≠ lockKey redis kind' key' := by
  intro h
  have hchars := congrArg String.toList (prefixed_inj.mp h)
  simp at hchars

/-- The three `_record_…_with_redis` of failures. -/
def recordFailureWithRedis (redis : RedisHandle) (kind : FailureKind) (key : String) : LimitProg Unit := do
  let threshold ← request (.getValue kind.thresholdKey)
  let windowSeconds ← request (.getValue kind.windowKey)
  let lockSeconds ← request (.getValue kind.lockSecondsKey)
  recordFailureCounter (failKey redis kind key) (lockKey redis kind key) threshold windowSeconds lockSeconds

/-- The two `_record_…_success_with_redis`. -/
def recordSuccessWithRedis (redis : RedisHandle) (kind : FailureKind) (key : String) : LimitProg Unit := do
  request (.delete (failKey redis kind key))
  request (.delete (lockKey redis kind key))

/-- `_best_effort_clear`. -/
def bestEffortClear (callback : LimitProg Unit) : LimitProg Unit := do
  let client ← attempt (request .getClient)
  match client with
  | .error (.redisUnavailable _) => pure ()
  | .error e => raise e
  | .ok _ => callback.tryExcept fun _ => pure ()

def enforceLoginAttempt (redis : RedisHandle) (ipKey loginKey : String) : LimitProg Unit :=
  withRedisFallback "login attempt check" (request (.memoryAuth (.enforceLoginAttempt ipKey loginKey))) do
    raiseIfLocked (lockKey redis .login loginKey)
    let limit ← request (.getValue .authRateLimitLoginIpRpm)
    enforceRpmCounter redis ("arl:req:login:ip:" ++ ipKey) limit

def recordLoginFailure (redis : RedisHandle) (loginKey : String) : LimitProg Unit :=
  withRedisFallback "login failure record" (request (.memoryAuth (.recordLoginFailure loginKey)))
    (recordFailureWithRedis redis .login loginKey)

def recordLoginSuccess (redis : RedisHandle) (loginKey : String) : LimitProg Unit := do
  request (.memoryAuth (.recordLoginSuccess loginKey))
  bestEffortClear (recordSuccessWithRedis redis .login loginKey)

def enforceRegistrationAttempt (redis : RedisHandle) (ipKey : String) : LimitProg Unit :=
  withRedisFallback "registration attempt check" (request (.memoryAuth (.enforceRegistrationAttempt ipKey))) do
    let limit ← request (.getValue .authRateLimitRegistrationIpRpm)
    enforceRpmCounter redis ("arl:req:register:ip:" ++ ipKey) limit

def enforceApiKeyAttempt (redis : RedisHandle) (ipKey : String) : LimitProg Unit :=
  withRedisFallback "api key attempt check" (request (.memoryAuth (.enforceApiKeyAttempt ipKey)))
    (raiseIfLocked (lockKey redis .apiKey ipKey))

def recordApiKeyFailure (redis : RedisHandle) (ipKey : String) : LimitProg Unit :=
  withRedisFallback "api key failure record" (request (.memoryAuth (.recordApiKeyFailure ipKey)))
    (recordFailureWithRedis redis .apiKey ipKey)

def recordApiKeySuccess (redis : RedisHandle) (ipKey : String) : LimitProg Unit := do
  request (.memoryAuth (.recordApiKeySuccess ipKey))
  bestEffortClear (recordSuccessWithRedis redis .apiKey ipKey)

def enforceAdminAttempt (redis : RedisHandle) (ipKey : String) : LimitProg Unit :=
  withRedisFallback "admin attempt check" (request (.memoryAuth (.enforceAdminAttempt ipKey)))
    (raiseIfLocked (lockKey redis .admin ipKey))

def recordAdminDenial (redis : RedisHandle) (ipKey : String) : LimitProg Unit :=
  withRedisFallback "admin denial record" (request (.memoryAuth (.recordAdminDenial ipKey)))
    (recordFailureWithRedis redis .admin ipKey)

end RedisAuthRateLimiter

/-! ## The methods of both limiters -/

inductive LimitOp where
  | enforceUploadLimits (r : UploadRequest)
  | auth (call : AuthCall)
  deriving DecidableEq, Repr

open RedisAuthRateLimiter in
def LimitOp.program (redis : RedisHandle) : LimitOp → LimitProg Unit
  | .enforceUploadLimits r => RedisRateLimiter.enforceUploadLimits redis r
  | .auth (.enforceLoginAttempt ipKey loginKey) => enforceLoginAttempt redis ipKey loginKey
  | .auth (.recordLoginFailure loginKey) => recordLoginFailure redis loginKey
  | .auth (.recordLoginSuccess loginKey) => recordLoginSuccess redis loginKey
  | .auth (.enforceRegistrationAttempt ipKey) => enforceRegistrationAttempt redis ipKey
  | .auth (.enforceApiKeyAttempt ipKey) => enforceApiKeyAttempt redis ipKey
  | .auth (.recordApiKeyFailure ipKey) => recordApiKeyFailure redis ipKey
  | .auth (.recordApiKeySuccess ipKey) => recordApiKeySuccess redis ipKey
  | .auth (.enforceAdminAttempt ipKey) => enforceAdminAttempt redis ipKey
  | .auth (.recordAdminDenial ipKey) => recordAdminDenial redis ipKey

/-- The limiters' methods running over one Redis. -/
abbrev LimiterSite := Pool LimitReply LimiterExc LimiterWorld Unit

def LimiterSite.start (redis : RedisHandle) (w : LimiterWorld) (ops : List LimitOp) : LimiterSite :=
  Pool.start w (ops.map (LimitOp.program redis))

end Imghost.Limits
