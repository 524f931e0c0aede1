/-
  Imghost.Limits.Redis — the Redis commands the limiters send, and what a limiter's
  process holds beside them.

  A key holds a counter or a hash of counters, and may expire: from that time on every
  command finds it gone. `INCR` and `HINCRBY` create a key without an expiry and keep
  the one it has; `EXPIRE` sets it. Each command is one request of a coroutine, so other
  clients' commands come in between. A `LimitReq` is one command, one read of the clock
  or of the configuration, or one step of the limiters in memory.
-/

import Imghost.Async.Pool
import Imghost.Data.Table
import Imghost.Limits.InMemory

namespace Imghost.Limits

open Imghost.Async Imghost.Data Imghost.Model

/-! ## Values -/

/-- The fields of a hash, with their numbers. -/
abbrev HashFields := Table (Prod.fst : Int × Int → Int)

inductive RedisValue where
  | string (n : Int)
  | hash (fields : HashFields)

structure Entry where
  value : RedisValue
  expiresAt : Option Int

/-- What a limiter's coroutine raises: an error of Redis, `TimeoutError`, `RedisUnavailable`,
    or another. -/
inductive LimiterExc where
  | redis (msg : String)
  | timeout
  | redisUnavailable (msg : String)
  | py (e : PyExc)
  deriving DecidableEq, Repr

def wrongType : LimiterExc := .redis "WRONGTYPE Operation against a key holding the wrong kind of value"
def invalidExpire : LimiterExc := .redis "invalid expire time in 'set' command"

/-- Redis, and the process of one limiter. -/
structure LimiterWorld where
  clock : Int
  keys : String → Option Entry
  /-- `RedisHandle._blocked_until`. -/
  blockedUntil : Int
  uploads : InMemoryRateLimiter
  auth : InMemoryAuthRateLimiter
  config : LimitConfig

/-- Nothing in Redis, and nothing in memory. -/
def LimiterWorld.fresh (config : LimitConfig) : LimiterWorld := ⟨0, fun _ => none, 0, .empty, .empty, config⟩

/-! ## Requests -/

/-- The methods of `InMemoryAuthRateLimiter` the Redis limiter falls back to. -/
inductive AuthCall where
  | enforceLoginAttempt (ipKey loginKey : String)
  | recordLoginFailure (loginKey : String)
  | recordLoginSuccess (loginKey : String)
  | enforceRegistrationAttempt (ipKey : String)
  | enforceApiKeyAttempt (ipKey : String)
  | recordApiKeyFailure (ipKey : String)
  | recordApiKeySuccess (ipKey : String)
  | enforceAdminAttempt (ipKey : String)
  | recordAdminDenial (ipKey : String)
  deriving DecidableEq, Repr

def AuthCall.run (config : LimitConfig) (now : Int) (s : InMemoryAuthRateLimiter) :
    AuthCall → Except PyExc Unit × InMemoryAuthRateLimiter
  | enforceLoginAttempt ipKey loginKey => s.enforceLoginAttempt config now ipKey loginKey
  | recordLoginFailure loginKey => (.ok (), s.recordLoginFailure config now loginKey)
  | recordLoginSuccess loginKey => (.ok (), s.recordLoginSuccess loginKey)
  | enforceRegistrationAttempt ipKey => s.enforceRegistrationAttempt config now ipKey
  | enforceApiKeyAttempt ipKey => s.enforceApiKeyAttempt now ipKey
  | recordApiKeyFailure ipKey => (.ok (), s.recordApiKeyFailure config now ipKey)
  | recordApiKeySuccess ipKey => (.ok (), s.recordApiKeySuccess ipKey)
  | enforceAdminAttempt ipKey => s.enforceAdminAttempt now ipKey
  | recordAdminDenial ipKey => (.ok (), s.recordAdminDenial config now ipKey)

inductive LimitReq where
  | time
  | getValue (key : LimitKey)
  -- `RedisHandle`
  | getClient
  | markFailure
  | markSuccess
  -- commands
  | get (key : String)
  | incr (key : String)
  | expire (key : String) (seconds : Int)
  | setEx (key : String) (seconds : Int)
  | delete (key : String)
  | hgetall (key : String)
  | hdel (key : String) (fields : List Int)
  | hincrby (key : String) (field : Int) (amount : Int)
  -- the limiters in memory
  | memoryUpload (request : UploadRequest)
  | memoryAuth (call : AuthCall)
  deriving DecidableEq

@[reducible] def LimitReply : LimitReq → Type
  | .time | .getValue _ | .incr _ | .hincrby _ _ _ => Int
  | .get _ => Option Int
  | .hgetall _ => List (Int × Int)
  | _ => Unit

abbrev LimitProg (α : Type) := Program LimitReply LimiterExc α

abbrev LimitCall := Event LimitReply LimiterExc

namespace LimiterWorld

variable (w : LimiterWorld)

/-- The entry of a key that has not expired. -/
def find? (key : String) : Option Entry := (w.keys key).filter fun e => e.expiresAt.all (w.clock < ·)

def setKey (key : String) (e : Option Entry) : LimiterWorld := { w with keys := put w.keys key e }

/-! ## Commands -/

def get (key : String) : Except LimiterExc (Option Int) :=
  match w.find? key with
  | none => .ok none
  | some ⟨.string n, _⟩ => .ok (some n)
  | some ⟨.hash _, _⟩ => .error wrongType

def incr (key : String) : Except LimiterExc Int × LimiterWorld :=
  match w.find? key with
  | none => (.ok 1, w.setKey key (some ⟨.string 1, none⟩))
  | some ⟨.string n, expiresAt⟩ => (.ok (n + 1), w.setKey key (some ⟨.string (n + 1), expiresAt⟩))
  | some ⟨.hash _, _⟩ => (.error wrongType, w)

/-- A time to live that is not positive deletes the key. -/
def expire (key : String) (seconds : Int) : LimiterWorld :=
  match w.find? key with
  | none => w
  | some e =>
    if seconds ≤ 0 then w.setKey key none
    else w.setKey key (some { e with expiresAt := some (w.clock + seconds * second) })

/-- `SET key 1 EX seconds`. -/
def setEx (key : String) (seconds : Int) : Except LimiterExc Unit × LimiterWorld :=
  if seconds ≤ 0 then (.error invalidExpire, w)
  else (.ok (), w.setKey key (some ⟨.string 1, some (w.clock + seconds * second)⟩))

def hgetall (key : String) : Except LimiterExc (List (Int × Int)) :=
  match w.find? key with
  | none => .ok []
  | some ⟨.hash fields, _⟩ => .ok fields.rows
  | some ⟨.string _, _⟩ => .error wrongType

/-- A hash without fields is gone. -/
def hdel (key : String) (names : List Int) : Except LimiterExc Unit × LimiterWorld :=
  match w.find? key with
  | none => (.ok (), w)
  | some ⟨.hash fields, expiresAt⟩ =>
    let left := fields.deleteWhere (names.contains ·.1)
    (.ok (), w.setKey key (if left.rows.isEmpty then none else some ⟨.hash left, expiresAt⟩))
  | some ⟨.string _, _⟩ => (.error wrongType, w)

/-- A field that is missing counts as zero. -/
def addToField (fields : HashFields) (field amount : Int) : HashFields :=
  match fields.insert (field, amount) with
  | some fields => fields
  | none => fields.update field (fun f => (f.1, f.2 + amount)) fun _ => rfl

def hincrby (key : String) (field amount : Int) : Except LimiterExc Int × LimiterWorld :=
  match w.find? key with
  | none => (.ok amount, w.setKey key (some ⟨.hash (addToField .empty field amount), none⟩))
  | some ⟨.hash fields, expiresAt⟩ =>
    (.ok (((fields.find? field).map Prod.snd).getD 0 + amount),
      w.setKey key (some ⟨.hash (addToField fields field amount), expiresAt⟩))
  | some ⟨.string _, _⟩ => (.error wrongType, w)

end LimiterWorld

/-! ## The backend -/

/-- `RedisHandle._cooldown_seconds`. -/
def cooldownSeconds : Int := 5

def liftVerdict : Except PyExc Unit → Except LimiterExc Unit
  | .ok a => .ok a
  | .error e => .error (.py e)

def limitExec : (r : LimitReq) → LimiterWorld → Except LimiterExc (LimitReply r) × LimiterWorld
  | .time, w => (.ok w.clock, w)
  | .getValue key, w => (.ok (w.config key), w)
  | .getClient, w =>
    if w.blockedUntil ≤ w.clock then (.ok (), w)
    else (.error (.redisUnavailable "Redis is temporarily unavailable."), w)
  | .markFailure, w => (.ok (), { w with blockedUntil := w.clock + cooldownSeconds * second })
  | .markSuccess, w => (.ok (), { w with blockedUntil := 0 })
  | .get key, w => (w.get key, w)
  | .incr key, w => w.incr key
  | .expire key seconds, w => (.ok (), w.expire key seconds)
  | .setEx key seconds, w => w.setEx key seconds
  | .delete key, w => (.ok (), w.setKey key none)
  | .hgetall key, w => (w.hgetall key, w)
  | .hdel key names, w => w.hdel key names
  | .hincrby key field amount, w => w.hincrby key field amount
  | .memoryUpload request, w =>
    let (verdict, uploads) := w.uploads.enforceUploadLimits w.config w.clock request
    (liftVerdict verdict, { w with uploads := uploads })
  | .memoryAuth call, w =>
    let (verdict, auth) := call.run w.config w.clock w.auth
    (liftVerdict verdict, { w with auth := auth })

/-- The calls the environment can make raise: the commands, and the configuration. -/
def limitFallible : LimitReq → Bool
  | .time | .getClient | .markFailure | .markSuccess | .memoryUpload _ | .memoryAuth _ => false
  | _ => true

/-- A command that raises has no effect, except when it is the reply that is lost. -/
def limitFail (r : LimitReq) (e : LimiterExc) (w : LimiterWorld) : Except LimiterExc (LimitReply r) × LimiterWorld :=
  if limitFallible r then (.error e, if e = .timeout then (limitExec r w).2 else w) else limitExec r w

def limitBackend : Backend LimitReply LimiterExc LimiterWorld where
  exec _ := limitExec
  fail _ := limitFail
  blocked _ _ _ := false
  elapse d w := { w with clock := w.clock + d }

/-! ## What a command does -/

section

variable {i : Nat} {r : LimitReq} {fault : Option LimiterExc} {w : LimiterWorld}

/-- A call goes through, or raises. -/
theorem limitAnswer_cases (i : Nat) (r : LimitReq) (fault : Option LimiterExc) (w : LimiterWorld) :
    limitBackend.answer i r fault w = limitExec r w ∨
      ∃ e, fault = some e ∧
        limitBackend.answer i r fault w = (.error e, if e = .timeout then (limitExec r w).2 else w) := by
  cases fault with
  | none => exact .inl rfl
  | some e =>
    by_cases h : limitFallible r = true
    · exact .inr ⟨e, rfl, if_pos h⟩
    · exact .inl (if_neg h)

/-- The world after a call is the one it makes, or the one it was made in. -/
theorem limitAnswer_world (i : Nat) (r : LimitReq) (fault : Option LimiterExc) (w : LimiterWorld) :
    (limitBackend.answer i r fault w).2 = (limitExec r w).2 ∨ (limitBackend.answer i r fault w).2 = w := by
  rcases limitAnswer_cases i r fault w with ha | ⟨e, -, ha⟩
  · exact .inl (congrArg Prod.snd ha)
  · rw [ha]
    dsimp only
    split
    · exact .inl rfl
    · exact .inr rfl

/-- The key of a command. -/
def LimitReq.key : LimitReq → Option String
  | .get key | .incr key | .expire key _ | .setEx key _ | .delete key | .hgetall key | .hdel key _ | .hincrby key _ _ =>
    some key
  | _ => none

/-- What a method does when Redis has failed it. -/
def LimitReq.fallsBack : LimitReq → Bool
  | .markFailure | .memoryUpload _ | .memoryAuth _ => true
  | _ => false

/-- The commands that write a key, and the key. -/
def LimitReq.writes : LimitReq → Option String
  | .incr key | .expire key _ | .setEx key _ | .delete key | .hdel key _ | .hincrby key _ _ => some key
  | _ => none

@[simp] theorem setKey_clock (key : String) (e : Option Entry) : (w.setKey key e).clock = w.clock := rfl
@[simp] theorem setKey_keys (key : String) (e : Option Entry) : (w.setKey key e).keys = put w.keys key e := rfl

theorem find?_setKey_self (key : String) (e : Option Entry) :
    (w.setKey key e).find? key = e.filter fun e => e.expiresAt.all (w.clock < ·) := by
  simp only [LimiterWorld.find?, setKey_keys, put_self, setKey_clock]
  rfl

/-- A command writes its key, a note of the handle or the limiters in memory, if anything. -/
theorem limitExec_cases (r : LimitReq) (w : LimiterWorld) :
    (∃ key e, r.writes = some key ∧ (limitExec r w).2 = w.setKey key e) ∨
      (∃ blockedUntil, (limitExec r w).2 = { w with blockedUntil := blockedUntil }) ∨
      (r.fallsBack = true ∧ ∃ uploads auth, (limitExec r w).2 = { w with uploads := uploads, auth := auth }) := by
  have hsame : ∃ blockedUntil, w = { w with blockedUntil := blockedUntil } := ⟨w.blockedUntil, rfl⟩
  cases r with
  | time | getValue | get | hgetall => exact .inr (.inl hsame)
  | getClient =>
    simp only [limitExec]
    split <;> exact .inr (.inl hsame)
  | markFailure | markSuccess => exact .inr (.inl ⟨_, rfl⟩)
  | incr key =>
    simp only [limitExec, LimiterWorld.incr]
    split
    · exact .inl ⟨key, _, rfl, rfl⟩
    · exact .inl ⟨key, _, rfl, rfl⟩
    · exact .inr (.inl hsame)
  | expire key seconds =>
    simp only [limitExec, LimiterWorld.expire]
    split
    · exact .inr (.inl hsame)
    · split <;> exact .inl ⟨key, _, rfl, rfl⟩
  | setEx key seconds =>
    simp only [limitExec, LimiterWorld.setEx]
    split
    · exact .inr (.inl hsame)
    · exact .inl ⟨key, _, rfl, rfl⟩
  | delete key => exact .inl ⟨key, _, rfl, rfl⟩
  | hdel key names =>
    simp only [limitExec, LimiterWorld.hdel]
    split
    · exact .inr (.inl hsame)
    · exact .inl ⟨key, _, rfl, rfl⟩
    · exact .inr (.inl hsame)
  | hincrby key field amount =>
    simp only [limitExec, LimiterWorld.hincrby]
    split
    · exact .inl ⟨key, _, rfl, rfl⟩
    · exact .inl ⟨key, _, rfl, rfl⟩
    · exact .inr (.inl hsame)
  | memoryUpload | memoryAuth => exact .inr (.inr ⟨rfl, _, _, rfl⟩)

theorem limitExec_clock (r : LimitReq) (w : LimiterWorld) : (limitExec r w).2.clock = w.clock := by
  rcases limitExec_cases r w with ⟨_, _, -, h⟩ | ⟨_, h⟩ | ⟨-, _, _, h⟩
  · rw [h, setKey_clock]
  · rw [h]
  · rw [h]

theorem limitExec_config (r : LimitReq) (w : LimiterWorld) : (limitExec r w).2.config = w.config := by
  rcases limitExec_cases r w with ⟨_, _, -, h⟩ | ⟨_, h⟩ | ⟨-, _, _, h⟩
  · rw [h]
    rfl
  · rw [h]
  · rw [h]

/-- The limiter in memory changes by its own calls alone. -/
theorem limitExec_uploads (h : r.fallsBack = false) : (limitExec r w).2.uploads = w.uploads := by
  rcases limitExec_cases r w with ⟨_, _, -, hworld⟩ | ⟨_, hworld⟩ | ⟨hfalls, -⟩
  · rw [hworld]
    rfl
  · rw [hworld]
  · rw [h] at hfalls
    cases hfalls

theorem limitExec_auth (h : r.fallsBack = false) : (limitExec r w).2.auth = w.auth := by
  rcases limitExec_cases r w with ⟨_, _, -, hworld⟩ | ⟨_, hworld⟩ | ⟨hfalls, -⟩
  · rw [hworld]
    rfl
  · rw [hworld]
  · rw [h] at hfalls
    cases hfalls

/-- A command leaves every key alone but the one it writes. -/
theorem limitExec_keys {key : String} (h : r.writes ≠ some key) : (limitExec r w).2.keys key = w.keys key := by
  rcases limitExec_cases r w with ⟨written, e, hwrites, hworld⟩ | ⟨_, hworld⟩ | ⟨-, _, _, hworld⟩
  · rw [hworld]
    apply put_of_ne
    rintro rfl
    exact h hwrites
  · rw [hworld]
  · rw [hworld]

end

end Imghost.Limits
