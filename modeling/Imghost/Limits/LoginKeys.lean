/-
  Imghost.Limits.LoginKeys — whose failures a successful login forgets.

  Failed logins are counted under a hash of the login string in lower case. An account is
  found by its address, compared in lower case, or by its user name, compared as it is: two
  accounts whose user names differ only in case share a key, and the login of one forgets
  the failures of the other.
-/

import Imghost.Limits.Alone
import Imghost.Service.Alone

namespace Imghost.Limits

open Imghost.Async Imghost.Model

/-! ## The endpoint -/

/-- `hash_auth_identifier`; `sha256` gives the digest in hexadecimal digits. -/
def hashAuthIdentifier (rt : Runtime) (sha256 : Bytes → String) (value : String) : String :=
  sha256 (Service.encodeUtf8 (rt.lower (strip value)))

/-- The limiter an application was started with. -/
inductive AuthRateLimiter where
  | inMemory
  | redis (handle : RedisHandle)
  deriving DecidableEq, Repr

namespace AuthRateLimiter

def enforceLoginAttempt (limiter : AuthRateLimiter) (ipKey loginKey : String) : LimitProg Unit :=
  match limiter with
  | .inMemory => request (.memoryAuth (.enforceLoginAttempt ipKey loginKey))
  | .redis handle => RedisAuthRateLimiter.enforceLoginAttempt handle ipKey loginKey

def recordLoginFailure (limiter : AuthRateLimiter) (loginKey : String) : LimitProg Unit :=
  match limiter with
  | .inMemory => request (.memoryAuth (.recordLoginFailure loginKey))
  | .redis handle => RedisAuthRateLimiter.recordLoginFailure handle loginKey

def recordLoginSuccess (limiter : AuthRateLimiter) (loginKey : String) : LimitProg Unit :=
  match limiter with
  | .inMemory => request (.memoryAuth (.recordLoginSuccess loginKey))
  | .redis handle => RedisAuthRateLimiter.recordLoginSuccess handle loginKey

end AuthRateLimiter

/-- The key a login string is counted under. -/
def loginKey (rt : Runtime) (sha256 : Bytes → String) (login : String) : String :=
  hashAuthIdentifier rt sha256 (strip login)

/-- `login`, as far as its outcome is recorded; `authenticated` is what
    `authenticate_local_user` returned or raised. -/
def login (rt : Runtime) (sha256 : Bytes → String) (limiter : AuthRateLimiter) (ipKey login : String)
    (authenticated : Except PyExc User) : LimitProg User := do
  let key := loginKey rt sha256 login
  limiter.enforceLoginAttempt ipKey key
  match authenticated with
  | .ok user => do
    limiter.recordLoginSuccess key
    return user
  | .error (.http status detail) => do
    limiter.recordLoginFailure key
    Program.raise (.py (.http status detail))
  | .error e => Program.raise (.py e)

namespace LoginKeys

open RedisAuthRateLimiter Program

/-! ## What is recorded under a key -/

structure Records where
  failures : AuthWindowCounter
  lock : Option Int
  failEntry : Option Entry
  lockEntry : Option Entry

def records (limiter : AuthRateLimiter) (key : String) (w : LimiterWorld) : Records :=
  match limiter with
  | .inMemory => ⟨w.auth.failures .login key, w.auth.locks (FailureKind.login.scope ++ key), none, none⟩
  | .redis redis =>
    ⟨w.auth.failures .login key, w.auth.locks (FailureKind.login.scope ++ key), w.keys (failKey redis .login key),
      w.keys (lockKey redis .login key)⟩

/-- However a request is answered, the records of the key stay. -/
def Keeps (limiter : AuthRateLimiter) (key : String) (r : LimitReq) : Prop :=
  ∀ i fault w, records limiter key (limitBackend.answer i r fault w).2 = records limiter key w

variable {rt : Runtime} {sha256 : Bytes → String} {limiter : AuthRateLimiter} {redis : RedisHandle}
  {key key' ipKey : String} {w : LimiterWorld}

theorem keeps_of_exec {r : LimitReq} (h : ∀ w, records limiter key (limitExec r w).2 = records limiter key w) :
    Keeps limiter key r := by
  intro i fault w
  rcases limitAnswer_world i r fault w with hw | hw
  · rw [hw, h]
  · rw [hw]

/-- A command that writes neither the count nor the lock of the key. -/
theorem keeps_command {r : LimitReq} (hr : r.fallsBack = false) (hfail : r.writes ≠ some (failKey redis .login key))
    (hlock : r.writes ≠ some (lockKey redis .login key)) : Keeps (.redis redis) key r := by
  refine keeps_of_exec fun w => ?_
  simp only [records, limitExec_auth hr, limitExec_keys hfail, limitExec_keys hlock]

theorem keeps_memory {call : AuthCall}
    (h : ∀ config now s, ((call.run config now s).2.failures .login key = s.failures .login key ∧
      (call.run config now s).2.locks (FailureKind.login.scope ++ key) = s.locks (FailureKind.login.scope ++ key))) :
    Keeps limiter key (.memoryAuth call) := by
  refine keeps_of_exec fun w => ?_
  obtain ⟨hfailures, hlock⟩ := h w.config w.clock w.auth
  cases limiter <;> simp only [records, limitExec, hfailures, hlock]

theorem failKey_inj (h : failKey redis .login key = failKey redis .login key') : key = key' := by
  rw [failKey, failKey, prefixed_inj, String.append_right_inj] at h
  exact h

theorem lockKey_inj (h : lockKey redis .login key = lockKey redis .login key') : key = key' := by
  rw [lockKey, lockKey, prefixed_inj, String.append_right_inj] at h
  exact h

theorem scope_inj (h : FailureKind.login.scope ++ key = FailureKind.login.scope ++ key') : key = key' :=
  (String.append_right_inj _).mp h

/-! ## The limiter in memory -/

/-- Checking a lock drops it once it has expired, and does no more. -/
theorem checkLock_spec (s : InMemoryAuthRateLimiter) (lock : String) (now : Int) :
    (s.checkLock lock now).2.failures = s.failures ∧
      (∀ k ≠ lock, (s.checkLock lock now).2.locks k = s.locks k) ∧
        ∀ k now', now ≤ now' → ((s.checkLock lock now).2.locks k).any (now' < ·) = (s.locks k).any (now' < ·) := by
  unfold InMemoryAuthRateLimiter.checkLock
  rcases hlock : s.locks lock with _ | expiry
  · exact ⟨rfl, fun _ _ => rfl, fun _ _ _ => rfl⟩
  · by_cases hexpired : expiry ≤ now
    · simp only [if_pos hexpired]
      refine ⟨trivial, fun k hk => put_of_ne hk, fun k now' hnow' => ?_⟩
      by_cases hk : k = lock
      · subst hk
        simp only [put_self, hlock, Option.any_none, Option.any_some, not_lt.mpr (hexpired.trans hnow'), decide_false]
      · rw [put_of_ne hk]
    · simp only [if_neg hexpired]
      exact ⟨trivial, fun _ _ => trivial, fun _ _ _ => trivial⟩

theorem enforceLoginAttempt_spec (config : LimitConfig) (now : Int) (s : InMemoryAuthRateLimiter) :
    (s.enforceLoginAttempt config now ipKey key).2.failures = s.failures ∧
      (∀ k ≠ FailureKind.login.scope ++ key, (s.enforceLoginAttempt config now ipKey key).2.locks k = s.locks k) ∧
        ∀ k now', now ≤ now' →
          ((s.enforceLoginAttempt config now ipKey key).2.locks k).any (now' < ·) = (s.locks k).any (now' < ·) := by
  have hcheck := checkLock_spec s (FailureKind.login.scope ++ key) now
  unfold InMemoryAuthRateLimiter.enforceLoginAttempt
  rcases hverdict : s.checkLock (FailureKind.login.scope ++ key) now with ⟨verdict, s'⟩
  rw [hverdict] at hcheck
  cases verdict <;> exact hcheck

theorem recordFailure_of_ne (config : LimitConfig) (now : Int) (s : InMemoryAuthRateLimiter) (h : key ≠ key') :
    (s.recordFailure config .login now key').failures .login key = s.failures .login key ∧
      (s.recordFailure config .login now key').locks (FailureKind.login.scope ++ key) =
        s.locks (FailureKind.login.scope ++ key) := by
  have hset : ∀ counter, (s.setFailures .login key' counter).failures .login key = s.failures .login key :=
    fun counter => put_of_ne h
  have hlock : FailureKind.login.scope ++ key ≠ FailureKind.login.scope ++ key' := fun e => h (scope_inj e)
  unfold InMemoryAuthRateLimiter.recordFailure
  dsimp only
  split
  · split
    · exact ⟨hset _, put_of_ne hlock⟩
    · exact ⟨hset _, rfl⟩
  · exact ⟨hset _, rfl⟩

theorem recordSuccess_of_ne (s : InMemoryAuthRateLimiter) (h : key ≠ key') :
    (s.recordSuccess .login key').failures .login key = s.failures .login key ∧
      (s.recordSuccess .login key').locks (FailureKind.login.scope ++ key) = s.locks (FailureKind.login.scope ++ key) :=
  ⟨put_of_ne h, put_of_ne fun e => h (scope_inj e)⟩

/-! ## Logins under another key -/

theorem keeps_enforce (h : key ≠ key') : Keeps limiter key (.memoryAuth (.enforceLoginAttempt ipKey key')) := by
  refine keeps_memory fun config now s => ?_
  obtain ⟨hfailures, hlocks, -⟩ := enforceLoginAttempt_spec config now s
  exact ⟨congrFun (congrFun hfailures _) _, hlocks _ fun e => h (scope_inj e)⟩

theorem keeps_failure (h : key ≠ key') : Keeps limiter key (.memoryAuth (.recordLoginFailure key')) :=
  keeps_memory fun config now s => recordFailure_of_ne config now s h

theorem keeps_success (h : key ≠ key') : Keeps limiter key (.memoryAuth (.recordLoginSuccess key')) :=
  keeps_memory fun _ _ s => recordSuccess_of_ne s h

theorem keeps_reading {r : LimitReq} (hr : r.fallsBack = false) (hwrites : r.writes = none) : Keeps (.redis redis) key r :=
  keeps_command hr (by rw [hwrites]; nofun) (by rw [hwrites]; nofun)

/-- The counters of attempts are under keys of their own. -/
theorem keeps_attempts {keyStart : String} {bucket : String} {r : LimitReq} (hr : r.fallsBack = false)
    (hwrites : r.writes = some (redis.prefixed ("arl:req:login:ip:" ++ keyStart ++ ":" ++ bucket))) :
    Keeps (.redis redis) key r := by
  refine keeps_command hr ?_ ?_ <;>
  · rw [hwrites]
    intro h
    have hchars := congrArg String.toList (prefixed_inj.mp (Option.some.inj h))
    simp at hchars

theorem uses_attempts (limit : Int) :
    (enforceRpmCounter redis ("arl:req:login:ip:" ++ ipKey) limit).Uses (Keeps (.redis redis) key) := by
  unfold enforceRpmCounter
  split
  · trivial
  · refine uses_bind (uses_perform (keeps_reading rfl rfl)) fun now => uses_bind (uses_perform (keeps_reading rfl rfl))
      fun current => uses_bind (uses_raiseIf _ _) fun _ => uses_bind (uses_perform (keeps_attempts rfl rfl))
        fun updated => ?_
    split
    · exact uses_perform (keeps_attempts rfl rfl)
    · trivial

theorem keeps_other {r : LimitReq} (h : key ≠ key') (hr : r.fallsBack = false)
    (hwrites : r.writes = some (failKey redis .login key') ∨ r.writes = some (lockKey redis .login key')) :
    Keeps (.redis redis) key r := by
  refine keeps_command hr ?_ ?_ <;>
  · intro hw
    rcases hwrites with hwrites | hwrites <;> rw [hwrites] at hw <;> have hw := Option.some.inj hw
    · first
        | exact h (failKey_inj hw.symm)
        | exact failKey_ne_lockKey _ _ _ _ hw
    · first
        | exact h (lockKey_inj hw.symm)
        | exact failKey_ne_lockKey _ _ _ _ hw.symm

theorem uses_enforce (h : key ≠ key') : (limiter.enforceLoginAttempt ipKey key').Uses (Keeps limiter key) := by
  cases limiter with
  | inMemory => exact uses_perform (keeps_enforce h)
  | redis redis =>
    refine uses_withRedisFallback (uses_perform (keeps_enforce h)) ?_ (keeps_reading rfl rfl)
      (keeps_of_exec fun w => rfl) (keeps_reading rfl rfl)
    refine uses_bind (uses_bind (uses_perform (keeps_reading rfl rfl)) fun _ => uses_raiseIf _ _) fun _ => ?_
    exact uses_bind (uses_perform (keeps_reading rfl rfl)) fun limit => uses_attempts limit

theorem uses_failure (h : key ≠ key') : (limiter.recordLoginFailure key').Uses (Keeps limiter key) := by
  cases limiter with
  | inMemory => exact uses_perform (keeps_failure h)
  | redis redis =>
    refine uses_withRedisFallback (uses_perform (keeps_failure h)) ?_ (keeps_reading rfl rfl)
      (keeps_of_exec fun w => rfl) (keeps_reading rfl rfl)
    refine uses_bind (uses_perform (keeps_reading rfl rfl)) fun threshold =>
      uses_bind (uses_perform (keeps_reading rfl rfl)) fun windowSeconds =>
        uses_bind (uses_perform (keeps_reading rfl rfl)) fun lockSeconds => ?_
    refine uses_bind (uses_perform (keeps_other h rfl (.inl rfl))) fun updated => ?_
    have hlock : (if 0 < threshold ∧ threshold ≤ updated then request (.setEx (lockKey redis .login key') lockSeconds)
        else pure () : LimitProg Unit).Uses (Keeps (.redis redis) key) := by
      split
      · exact uses_perform (keeps_other h rfl (.inr rfl))
      · trivial
    dsimp only
    split
    · exact uses_bind (uses_perform (keeps_other h rfl (.inl rfl))) fun _ => hlock
    · exact hlock

theorem uses_success (h : key ≠ key') : (limiter.recordLoginSuccess key').Uses (Keeps limiter key) := by
  cases limiter with
  | inMemory => exact uses_perform (keeps_success h)
  | redis redis =>
    refine uses_bind (uses_perform (keeps_success h)) fun _ =>
      uses_bind (uses_attempt (uses_perform (keeps_reading rfl rfl))) fun client => ?_
    split
    · trivial
    · trivial
    · refine uses_tryExcept (uses_bind (uses_perform (keeps_other h rfl (.inl rfl))) fun _ =>
        uses_perform (keeps_other h rfl (.inr rfl))) fun _ => trivial

/-- Whatever becomes of a login, the records of every other key stay. -/
theorem login_keeps {name : String} (authenticated : Except PyExc User) (h : key ≠ loginKey rt sha256 name) :
    (login rt sha256 limiter ipKey name authenticated).Uses (Keeps limiter key) := by
  refine uses_bind (uses_enforce h) fun _ => ?_
  split
  · exact uses_bind (uses_success h) fun _ => trivial
  · exact uses_bind (uses_failure h) fun _ => trivial
  · trivial

/-! ## What a success forgets -/

/-- The failures that count under a key and the locks in force, in memory and in Redis. -/
@[ext]
structure Throttle where
  failures : Nat
  locked : Bool
  redisFailures : Int
  redisLocked : Bool
  deriving DecidableEq, Repr

namespace Throttle

/-- No failure forgotten, and no lock lifted. -/
instance : LE Throttle where
  le a b := a.failures ≤ b.failures ∧ (a.locked = true → b.locked = true) ∧ a.redisFailures ≤ b.redisFailures ∧
    (a.redisLocked = true → b.redisLocked = true)

instance (a b : Throttle) : Decidable (a ≤ b) := inferInstanceAs (Decidable (_ ∧ _))

theorem refl (a : Throttle) : a ≤ a := ⟨le_rfl, id, le_rfl, id⟩

/-- Nothing that a success could forget; `reached` says whether it reaches Redis. -/
def Nothing (reached : Prop) (a : Throttle) : Prop :=
  a.failures = 0 ∧ a.locked = false ∧ (reached → a.redisFailures ≤ 0 ∧ a.redisLocked = false)

instance (reached : Prop) [Decidable reached] (a : Throttle) : Decidable (a.Nothing reached) :=
  inferInstanceAs (Decidable (_ ∧ _))

end Throttle

def live (now : Int) (entry : Option Entry) : Option Entry := entry.filter fun e => e.expiresAt.all (now < ·)

def counted : Option Entry → Int
  | some ⟨.string n, _⟩ => n
  | _ => 0

def Records.throttle (config : LimitConfig) (now : Int) (r : Records) : Throttle where
  failures := (r.failures.count now (config .authRateLimitLoginAccountWindowSeconds * second)).1
  locked := r.lock.any (now < ·)
  redisFailures := counted (live now r.failEntry)
  redisLocked := (live now r.lockEntry).isSome

def throttle (limiter : AuthRateLimiter) (key : String) (w : LimiterWorld) : Throttle :=
  (records limiter key w).throttle w.config w.clock

/-- A success, with or without Redis. -/
def Records.cleared (reached : Prop) [Decidable reached] (r : Records) : Records where
  failures := .empty
  lock := none
  failEntry := if reached then none else r.failEntry
  lockEntry := if reached then none else r.lockEntry

theorem le_cleared_iff (reached : Prop) [Decidable reached] (config : LimitConfig) (now : Int) (r : Records) :
    r.throttle config now ≤ (r.cleared reached).throttle config now ↔ (r.throttle config now).Nothing reached := by
  have hfailures : ((r.cleared reached).throttle config now).failures = 0 := rfl
  have hlocked : ((r.cleared reached).throttle config now).locked = false := rfl
  have hredis : ((r.cleared reached).throttle config now).redisFailures =
      (if reached then 0 else (r.throttle config now).redisFailures) := by
    by_cases h : reached <;> simp only [Records.throttle, Records.cleared, h, if_true, if_false]
    rfl
  have hredisLocked : ((r.cleared reached).throttle config now).redisLocked =
      (if reached then false else (r.throttle config now).redisLocked) := by
    by_cases h : reached <;> simp only [Records.throttle, Records.cleared, h, if_true, if_false]
    rfl
  show _ ≤ _ ∧ _ ∧ _ ≤ _ ∧ _ ↔ _
  rw [hfailures, hlocked, hredis, hredisLocked, Throttle.Nothing, Nat.le_zero]
  by_cases h : reached <;> simp [h]

theorem throttle_congr {w w' : LimiterWorld} (hrecords : records limiter key w' = records limiter key w)
    (hclock : w'.clock = w.clock) (hconfig : w'.config = w.config) : throttle limiter key w' = throttle limiter key w := by
  rw [throttle, throttle, hrecords, hclock, hconfig]

/-- The requests of a check leave what counts as it is. -/
def Harmless (limiter : AuthRateLimiter) (key : String) (r : LimitReq) : Prop :=
  ∀ w, throttle limiter key (limitExec r w).2 = throttle limiter key w

theorem harmless_of_keeps {r : LimitReq} (h : Keeps limiter key r) : Harmless limiter key r :=
  fun w => throttle_congr (h 0 none w) (limitExec_clock r w) (limitExec_config r w)

theorem harmless_enforce : Harmless limiter key (.memoryAuth (.enforceLoginAttempt ipKey key')) := by
  intro w
  obtain ⟨hfailures, -, hlocks⟩ := @enforceLoginAttempt_spec key' ipKey w.config w.clock w.auth
  have hcount : ((limitExec (.memoryAuth (.enforceLoginAttempt ipKey key')) w).2.auth.failures .login key) =
      w.auth.failures .login key := congrFun (congrFun hfailures _) _
  cases limiter <;> exact Throttle.ext (congrArg (fun c => (AuthWindowCounter.count c _ _).1) hcount) (hlocks _ _ le_rfl) rfl rfl

theorem harmless_check : (limiter.enforceLoginAttempt ipKey key').Uses (Harmless limiter key) := by
  cases limiter with
  | inMemory => exact uses_perform harmless_enforce
  | redis redis =>
    refine uses_withRedisFallback (uses_perform harmless_enforce) ?_ (harmless_of_keeps (keeps_reading rfl rfl))
      (harmless_of_keeps (keeps_of_exec fun w => rfl)) (harmless_of_keeps (keeps_reading rfl rfl))
    refine Uses.mono (fun _ h => harmless_of_keeps h) ?_
    refine uses_bind (uses_bind (uses_perform (keeps_reading rfl rfl)) fun _ => uses_raiseIf _ _) fun _ => ?_
    exact uses_bind (uses_perform (keeps_reading rfl rfl)) fun limit => uses_attempts limit

/-- A check forgets nothing. -/
theorem check_throttle (limiter : AuthRateLimiter) (ipKey key key' : String) (w : LimiterWorld) :
    throttle limiter key (alone (limiter.enforceLoginAttempt ipKey key') w).2 = throttle limiter key w := by
  refine alone_invariant (I := fun w' => throttle limiter key w' = throttle limiter key w) (fun r w' hr hw => ?_)
    (@harmless_check limiter key key' ipKey) rfl
  rw [hr w', hw]

/-- Whether a limiter has Redis at hand. -/
def reaches (limiter : AuthRateLimiter) (w : LimiterWorld) : Prop := limiter ≠ .inMemory ∧ Available w

instance (limiter : AuthRateLimiter) (w : LimiterWorld) : Decidable (reaches limiter w) := inferInstanceAs (Decidable (_ ∧ _))

/-- A success forgets what it reaches. -/
theorem alone_recordLoginSuccess (limiter : AuthRateLimiter) (key : String) (w : LimiterWorld) :
    ∃ w', alone (limiter.recordLoginSuccess key) w = (.ok (), w') ∧ w'.clock = w.clock ∧ w'.config = w.config ∧
      records limiter key w' = (records limiter key w).cleared (reaches limiter w) := by
  have hmemory : alone (request (.memoryAuth (.recordLoginSuccess key))) w =
      (.ok (), { w with auth := w.auth.recordSuccess .login key }) := alone_request _ w
  have hfailures : (w.auth.recordSuccess .login key).failures .login key = .empty := put_self _ _ _
  have hlock : (w.auth.recordSuccess .login key).locks (FailureKind.login.scope ++ key) = none := put_self _ _ _
  cases limiter with
  | inMemory =>
    refine ⟨_, hmemory, rfl, rfl, ?_⟩
    simp [records, Records.cleared, reaches, hfailures, hlock]
  | redis redis =>
    by_cases h : Available w
    · have hclears : alone (recordSuccessWithRedis redis .login key) { w with auth := w.auth.recordSuccess .login key } =
          (.ok (), (LimiterWorld.setKey { w with auth := w.auth.recordSuccess .login key } (failKey redis .login key)
            none).setKey (lockKey redis .login key) none) := by
        unfold recordSuccessWithRedis
        rw [alone_bind_of_ok (alone_request _ _)]
        exact alone_request _ _
      have hreaches : reaches (.redis redis) w := ⟨nofun, h⟩
      refine ⟨_, (alone_bind_of_ok hmemory).trans (alone_bestEffortClear_of_available h hclears), rfl, rfl, ?_⟩
      simp only [records, Records.cleared, if_pos hreaches, setKey_keys, put_self, put_of_ne (failKey_ne_lockKey _ _ _ _)]
      rw [← hfailures, ← hlock]
      rfl
    · have hreaches : ¬reaches (.redis redis) w := fun hr => h hr.2
      refine ⟨_, (alone_bind_of_ok hmemory).trans (alone_bestEffortClear_of_unavailable h), rfl, rfl, ?_⟩
      simp only [records, Records.cleared, if_neg hreaches, hfailures, hlock]

/-! ## Whose account a login string names -/

/-- The account of a login string, among the rows of the table. -/
def accountOf (rt : Runtime) (users : List User) (name : String) : Option User :=
  (users.find? (·.email == rt.lower (strip name))).or (users.find? (·.username == strip name))

section

open Service

variable {C : Req → Option PyExc → World → Prop} {db : World}

theorem findLogin_finds (name : String) :
    wp (backend.alone C) (fun x _ => ∀ found, x = .ok found →
      found = (db.users.rows.find? (·.email == rt.lower name)).or (db.users.rows.find? (·.username == name)))
      (findLogin rt name) db := by
  refine wp_read rfl (fun byEmail w₁ w' hw hw' h => ?_) fun e _ _ _ h => nomatch h
  obtain rfl : (w₁.users.rows.find? (·.email == rt.lower name)) = byEmail := Except.ok.inj h
  rw [hw.users]
  rcases hemail : db.users.rows.find? (·.email == rt.lower name) with _ | user
  · rw [hemail, Option.none_or]
    refine (wp_perform w').mpr ⟨trivial, ?_⟩
    rintro x w₂ ⟨d, fault, -, hanswer⟩ found rfl
    have hexec := exec_of_ok (congrArg Prod.fst hanswer)
    rw [← (hw'.trans (.elapse d w')).users]
    exact (Except.ok.inj hexec).symm
  · rw [hemail, Option.some_or]
    exact fun found hfound => (Except.ok.inj hfound).symm

attribute [local irreducible] strip in
/-- Whoever has logged in is the account the login string names. -/
theorem authenticated_is_named (rt : Runtime) (name password : String) (ms : List (Moment PyExc)) (db : World) (user : User)
    (h : (runAlone backend (authenticateLocalUser rt ⟨name, password⟩) ms db).1 = .ok user) :
    accountOf rt db.users.rows name = some user := by
  have hwp : wp (backend.alone fun _ _ _ => True) (fun x _ => ∀ user, x = .ok user → accountOf rt db.users.rows name = some user)
      (authenticateLocalUser rt ⟨name, password⟩) db := by
    refine wp_check (fun _ _ h => nomatch h) fun _ => wp_seq (findLogin_finds (strip name)) (fun found _ hfound => ?_)
      fun e _ _ _ h => nomatch h
    have hnamed : found = accountOf rt db.users.rows name := hfound found rfl
    rcases found with _ | user
    · exact fun _ h => nomatch h
    · rcases hhash : user.passwordHash with _ | passwordHash
      · simp only [hhash]
        exact fun _ h => nomatch h
      · simp only [hhash]
        refine wp_check (fun _ _ h => nomatch h) fun _ => wp_check (fun _ _ h => nomatch h) fun _ => fun user' huser' => ?_
        rw [← hnamed, Except.ok.inj huser']
  exact wp_alone hwp ms (meetsAlone_true _ _ _) user h

end

/-- Two accounts under one login string in lower case are both named by their user names. -/
theorem same_name_of_usernames {rt : Runtime} {users : List User} {nameA nameB : String} {A B : User}
    (hA : accountOf rt users nameA = some A) (hB : accountOf rt users nameB = some B) (hne : A ≠ B)
    (hlower : rt.lower (strip nameA) = rt.lower (strip nameB)) : strip nameA = A.username ∧ strip nameB = B.username := by
  unfold accountOf at hA hB
  rw [← hlower] at hB
  rcases hemail : users.find? (·.email == rt.lower (strip nameA)) with _ | user
  · rw [hemail, Option.none_or] at hA hB
    have hnamed : ∀ {name user}, users.find? (·.username == strip name) = some user → strip name = user.username := by
      intro name user h
      have := List.find?_some h
      simp only [beq_iff_eq] at this
      exact this.symm
    exact ⟨hnamed hA, hnamed hB⟩
  · rw [hemail, Option.some_or] at hA hB
    exact absurd (Option.some.inj (hA.symm.trans hB)) hne

/-! ## Logins are throttled by name -/

/-- What a successful login does, alone: its check, then what it forgets. -/
theorem alone_login {name : String} {A : User}
    (hsuccess : (alone (login rt sha256 limiter ipKey name (.ok A)) w).1 = .ok A) :
    throttle limiter (loginKey rt sha256 name) (alone (login rt sha256 limiter ipKey name (.ok A)) w).2 =
      ((records limiter (loginKey rt sha256 name) (alone (limiter.enforceLoginAttempt ipKey (loginKey rt sha256 name)) w).2).cleared
          (reaches limiter (alone (limiter.enforceLoginAttempt ipKey (loginKey rt sha256 name)) w).2)).throttle
        (alone (limiter.enforceLoginAttempt ipKey (loginKey rt sha256 name)) w).2.config
        (alone (limiter.enforceLoginAttempt ipKey (loginKey rt sha256 name)) w).2.clock := by
  unfold login at hsuccess ⊢
  dsimp only at hsuccess ⊢
  rcases hcheck : alone (limiter.enforceLoginAttempt ipKey (loginKey rt sha256 name)) w with ⟨e | ⟨⟩, w₁⟩
  · rw [alone_bind_of_error hcheck] at hsuccess
    cases hsuccess
  · obtain ⟨w', hrecord, hclock, hconfig, hrecords⟩ := alone_recordLoginSuccess limiter (loginKey rt sha256 name) w₁
    rw [alone_bind_of_ok hcheck, alone_bind_of_ok hrecord]
    show throttle limiter _ w' = _
    rw [throttle, hrecords, hclock, hconfig]

/-- A successful login to A, alone, forgets nothing counted or locked under the login string
    of B unless the two strings have one key; and that they have, if hashes differ, only for
    user names that differ in case. -/
theorem throttled_per_account_iff (rt : Runtime) (sha256 : Bytes → String) (limiter : AuthRateLimiter) (db : World)
    (ms : List (Moment PyExc)) (ipKey nameA password nameB : String) (A B : User)
    (hA : (runAlone backend (Service.authenticateLocalUser rt ⟨nameA, password⟩) ms db).1 = .ok A)
    (hB : accountOf rt db.users.rows nameB = some B) (hne : A ≠ B) (w : LimiterWorld)
    (hsuccess : (alone (login rt sha256 limiter ipKey nameA (.ok A)) w).1 = .ok A) :
    (throttle limiter (loginKey rt sha256 nameB) w ≤
        throttle limiter (loginKey rt sha256 nameB) (alone (login rt sha256 limiter ipKey nameA (.ok A)) w).2 ↔
      loginKey rt sha256 nameA ≠ loginKey rt sha256 nameB ∨
        (throttle limiter (loginKey rt sha256 nameB) w).Nothing
          (reaches limiter (alone (limiter.enforceLoginAttempt ipKey (loginKey rt sha256 nameA)) w).2)) ∧
      (loginKey rt sha256 nameA ≠ loginKey rt sha256 nameB →
        (login rt sha256 limiter ipKey nameA (.ok A)).Uses (Keeps limiter (loginKey rt sha256 nameB))) ∧
      (rt.lower (strip nameA) = rt.lower (strip nameB) → strip nameA = A.username ∧ strip nameB = B.username) := by
  refine ⟨?_, fun hkeys => login_keeps _ (Ne.symm hkeys),
    same_name_of_usernames (authenticated_is_named rt nameA password ms db A hA) hB hne⟩
  by_cases hkeys : loginKey rt sha256 nameA = loginKey rt sha256 nameB
  · rw [← hkeys, alone_login hsuccess, ← check_throttle limiter ipKey _ (loginKey rt sha256 nameA) w, throttle, le_cleared_iff]
    exact (or_iff_right (fun h => h rfl)).symm
  · refine iff_of_true ?_ (.inl hkeys)
    have hkept : throttle limiter (loginKey rt sha256 nameB) (alone (login rt sha256 limiter ipKey nameA (.ok A)) w).2 =
        throttle limiter (loginKey rt sha256 nameB) w := by
      refine alone_invariant (I := fun w' => throttle limiter (loginKey rt sha256 nameB) w' =
        throttle limiter (loginKey rt sha256 nameB) w) (fun r w' hr hw => ?_) (login_keeps _ (Ne.symm hkeys)) rfl
      rw [harmless_of_keeps hr w', hw]
    rw [hkept]
    exact Throttle.refl _

/-! ## Two names -/

def lowerAscii (s : String) : String := String.ofList (s.toList.map Char.toLower)

/-- The digests of the names below. -/
def digest (bytes : Bytes) : String :=
  if bytes = Service.encodeUtf8 "bob" then "81b637d8fcd2c6da6359e6963113a1170de795e4b725b84d1e0b4cfd9ec58ce9"
  else if bytes = Service.encodeUtf8 "alice" then "2bd806c97f0e00af1a1fc3328fa763a9269723c8db8fac4f93af71db186d6e90"
  else ""

def sampleRuntime : Runtime := { Service.Sample.runtime with lower := lowerAscii }

def userNamed (id username : String) : User :=
  { Service.Sample.user with id := id, username := username, email := id ++ "@example.org" }

/-- Accounts called `bob`, `Bob` and `Alice`. -/
def threeUsers : World :=
  { Service.Sample.world with
    users := ⟨[userNamed "1" "bob", userNamed "2" "Bob", userNamed "3" "Alice"], by decide +kernel⟩ }

/-- After one failed login as `bob`. -/
def oneFailure (limiter : AuthRateLimiter) : LimiterWorld :=
  (alone (login sampleRuntime digest limiter "ip" "bob" (.error Service.invalidCredentials)) (.fresh fun _ => 5)).2

theorem alice_forgets_nothing_of_bob :
    throttle (.redis ⟨""⟩) (loginKey sampleRuntime digest "bob") (oneFailure (.redis ⟨""⟩)) ≤
      throttle (.redis ⟨""⟩) (loginKey sampleRuntime digest "bob")
        (alone (login sampleRuntime digest (.redis ⟨""⟩) "ip" "Alice" (.ok (userNamed "3" "Alice"))) (oneFailure (.redis ⟨""⟩))).2 :=
  (throttled_per_account_iff sampleRuntime digest (.redis ⟨""⟩) threeUsers [] "ip" "Alice" "p" "bob" (userNamed "3" "Alice")
    (userNamed "1" "bob") (by decide +kernel) (by decide +kernel) (by decide +kernel) (oneFailure (.redis ⟨""⟩))
    (by decide +kernel)).1.mpr (.inl (by decide +kernel))

/-- The login of `Bob` forgets the failures of `bob`, in memory and in Redis. -/
theorem bob_forgets_the_failures_of_bob :
    (runAlone backend (Service.authenticateLocalUser sampleRuntime ⟨"Bob", "p"⟩) [] threeUsers).1 = .ok (userNamed "2" "Bob") ∧
      accountOf sampleRuntime threeUsers.users.rows "bob" = some (userNamed "1" "bob") ∧
      (throttle .inMemory (loginKey sampleRuntime digest "bob") (oneFailure .inMemory)).failures = 1 ∧
      (throttle .inMemory (loginKey sampleRuntime digest "bob")
        (alone (login sampleRuntime digest .inMemory "ip" "Bob" (.ok (userNamed "2" "Bob"))) (oneFailure .inMemory)).2).failures = 0 ∧
      (throttle (.redis ⟨""⟩) (loginKey sampleRuntime digest "bob") (oneFailure (.redis ⟨""⟩))).redisFailures = 1 ∧
      (throttle (.redis ⟨""⟩) (loginKey sampleRuntime digest "bob")
        (alone (login sampleRuntime digest (.redis ⟨""⟩) "ip" "Bob" (.ok (userNamed "2" "Bob")))
          (oneFailure (.redis ⟨""⟩))).2).redisFailures = 0 := by
  decide +kernel

end LoginKeys

end Imghost.Limits
