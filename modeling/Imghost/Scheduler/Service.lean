/-
  Imghost.Scheduler.Service — the scheduler and its lease.

  A scheduler ticks; when its next cleanup is due it takes a lease in Redis
  (`SET key token NX EX seconds`) and enqueues the cleanup. When enqueueing fails it gives
  the lease back: a script that deletes the key if it still holds the scheduler's token.

  One `RedisHandle.execute` is one request: it goes through, or raises `RedisUnavailable`
  and has no effect. `ExecuteReq` carries what the callback asks of Redis. `SchedulerWorld`
  keeps what was granted, released and enqueued, and when (`history`).
-/

import Imghost.Limits.RedisLimiters

namespace Imghost.Scheduler

open Imghost.Async Imghost.Data Imghost.Limits

/-! ## Requests -/

inductive SchedulerExc where
  | redisUnavailable (msg : String)
  | other (msg : String)
  deriving DecidableEq, Repr

/-- `str(exc)`. -/
def SchedulerExc.str : SchedulerExc → String
  | redisUnavailable msg | other msg => msg

inductive SchedulerReq where
  | monotonic
  | time
  /-- `client.set(key, token, ex=seconds, nx=True)`. -/
  | setNxEx (key token : String) (seconds : Int)
  /-- `client.eval(_SCHEDULER_LEASE_RELEASE, 1, key, token)`. -/
  | evalRelease (key token : String)
  /-- `tasks.enqueue(name, dry_run=False)`. -/
  | enqueue (name : String)
  | sleep (seconds : Int)
  deriving DecidableEq

@[reducible] def SchedulerReply : SchedulerReq → Type
  | .monotonic | .time | .evalRelease _ _ => Int
  | .setNxEx _ _ _ => Bool
  | .enqueue _ | .sleep _ => Unit

abbrev SchedulerProg (α : Type) := Program SchedulerReply SchedulerExc α

abbrev ask (r : SchedulerReq) : SchedulerProg (SchedulerReply r) := Program.perform r

/-! ## scheduler.py -/

structure SchedulerSettings where
  pollSeconds : Int
  cleanupIntervalSeconds : Int
  leaseSeconds : Int
  /-- The handle of a scheduler that has one. -/
  redis : Option RedisHandle
  /-- `redis.enabled`, of that handle. -/
  redisEnabled : Bool

structure SchedulerService where
  leaseToken : String
  nextCleanupAt : Option Int
  lastTickAt : Option Int
  lastEnqueueAt : Option Int
  lastEnqueueError : Option String
  lastLeaseAcquiredAt : Option Int
  lastLeaseError : Option String

def pruneExpiredAlbums : String := "prune_expired_albums"

namespace SchedulerSettings

variable (settings : SchedulerSettings)

def leaseEnabled : Bool := settings.redis.isSome && settings.redisEnabled

def effectiveLeaseSeconds : Int := max settings.leaseSeconds settings.cleanupIntervalSeconds

def cleanupLeaseKey : String :=
  match settings.redis with
  | none => "scheduler:lease:cleanup"
  | some redis => redis.prefixed ("scheduler:lease:" ++ pruneExpiredAlbums)

end SchedulerSettings

namespace SchedulerService

variable (settings : SchedulerSettings)

open Program

/-- `_acquire_cleanup_lease`. -/
def acquireCleanupLease (self : SchedulerService) : SchedulerProg (Bool × SchedulerService) :=
  if settings.leaseEnabled then do
    let acquired ← attempt (ask (.setNxEx settings.cleanupLeaseKey self.leaseToken settings.effectiveLeaseSeconds))
    match acquired with
    | .error (.redisUnavailable msg) => return (false, { self with lastLeaseError := some msg })
    | .error exc => raise exc
    | .ok acquired =>
      if acquired then
        let now ← ask .time
        return (true, { self with lastLeaseAcquiredAt := some now, lastLeaseError := none })
      else return (false, { self with lastLeaseError := none })
  else return (true, { self with lastLeaseError := none })

/-- `_release_cleanup_lease`. -/
def releaseCleanupLease (self : SchedulerService) : SchedulerProg SchedulerService :=
  if settings.leaseEnabled then do
    let released ← attempt (ask (.evalRelease settings.cleanupLeaseKey self.leaseToken))
    match released with
    | .error (.redisUnavailable msg) => return { self with lastLeaseError := some msg }
    | .error exc => raise exc
    | .ok _ => return self
  else return self

/-- `now_monotonic`, or the clock. -/
def clockOr : Option Int → SchedulerProg Int
  | some now => ret now
  | none => ask .monotonic

/-- `tick`, from where the cleanup is due. -/
def cleanup (self : SchedulerService) (nowMono : Int) : SchedulerProg (Bool × SchedulerService) := do
  let (leaseAcquired, self) ← self.acquireCleanupLease settings
  if leaseAcquired then
    let enqueued ← attempt (ask (.enqueue pruneExpiredAlbums))
    match enqueued with
    | .error exc =>
      let self ← releaseCleanupLease settings { self with lastEnqueueError := some exc.str }
      return (false, { self with nextCleanupAt := some (nowMono + settings.pollSeconds * second) })
    | .ok _ =>
      let now ← ask .time
      return (true, { self with lastEnqueueAt := some now, lastEnqueueError := none,
                                nextCleanupAt := some (nowMono + settings.cleanupIntervalSeconds * second) })
  else return (false, { self with nextCleanupAt := some (nowMono + settings.pollSeconds * second) })

def tick (self : SchedulerService) (nowMonotonic : Option Int) : SchedulerProg (Bool × SchedulerService) := do
  let nowMono ← clockOr nowMonotonic
  let now ← ask .time
  let self := { self with lastTickAt := some now }
  if self.nextCleanupAt.any (nowMono < ·) then return (false, self) else self.cleanup settings nowMono

/-- `_run`, for as many ticks as there are clocks: a tick that is given none reads its own. -/
def runTicks : List (Option Int) → SchedulerService → SchedulerProg Unit
  | [], _ => ret ()
  | nowMonotonic :: rest, self => do
    let (_, self) ← self.tick settings nowMonotonic
    ask (.sleep settings.pollSeconds)
    runTicks rest self

end SchedulerService

/-! ## The world of the schedulers -/

/-- A key that holds a lease. -/
structure LeaseEntry where
  token : String
  expiresAt : Int
  deriving DecidableEq, Repr

inductive Happening where
  /-- Redis set the key for scheduler `i`. -/
  | granted (i : Nat) (t : Int)
  /-- Redis deleted the key for scheduler `i`. -/
  | released (i : Nat) (t : Int)
  /-- Scheduler `i` enqueued a cleanup. -/
  | enqueued (i : Nat)
  deriving DecidableEq, Repr

structure SchedulerWorld where
  clock : Int
  /-- What `monotonic()` of a process is ahead of the clock. -/
  ahead : Nat → Int
  keys : String → Option LeaseEntry
  history : List Happening

namespace SchedulerWorld

def fresh (clock : Int) (ahead : Nat → Int) : SchedulerWorld := ⟨clock, ahead, fun _ => none, []⟩

variable (w : SchedulerWorld)

/-- The lease of a key, while it has not expired. -/
def find? (key : String) : Option LeaseEntry := (w.keys key).filter fun e => decide (w.clock < e.expiresAt)

def log (e : Happening) : SchedulerWorld := { w with history := w.history ++ [e] }

/-- `SET key token NX EX seconds`. -/
def setNxEx (i : Nat) (key token : String) (seconds : Int) : Except SchedulerExc Bool × SchedulerWorld :=
  if seconds ≤ 0 then (.error (.redisUnavailable "Redis unavailable during acquire scheduler cleanup lease."), w)
  else
    match w.find? key with
    | some _ => (.ok false, w)
    | none =>
      let w' := { w with keys := put w.keys key (some ⟨token, w.clock + seconds * second⟩) }
      (.ok true, w'.log (.granted i w.clock))

/-- `_SCHEDULER_LEASE_RELEASE`. -/
def evalRelease (i : Nat) (key token : String) : Int × SchedulerWorld :=
  match w.find? key with
  | some e =>
    if e.token = token then (1, { w with keys := put w.keys key none }.log (.released i w.clock)) else (0, w)
  | none => (0, w)

end SchedulerWorld

def schedulerExec (i : Nat) : (r : SchedulerReq) → SchedulerWorld → Except SchedulerExc (SchedulerReply r) × SchedulerWorld
  | .monotonic, w => (.ok (w.clock + w.ahead i), w)
  | .time, w => (.ok w.clock, w)
  | .setNxEx key token seconds, w => w.setNxEx i key token seconds
  | .evalRelease key token, w => let (n, w) := w.evalRelease i key token; (.ok n, w)
  | .enqueue _, w => (.ok (), w.log (.enqueued i))
  | .sleep _, w => (.ok (), w)

/-- A call of Redis can fail with `RedisUnavailable`, enqueueing with any exception; what
    fails has no effect. -/
def schedulerFail (i : Nat) (r : SchedulerReq) (e : SchedulerExc) (w : SchedulerWorld) :
    Except SchedulerExc (SchedulerReply r) × SchedulerWorld :=
  match r, e with
  | .enqueue _, e => (.error e, w)
  | .setNxEx _ _ _, .redisUnavailable msg => (.error (.redisUnavailable msg), w)
  | .evalRelease _ _, .redisUnavailable msg => (.error (.redisUnavailable msg), w)
  | r, _ => schedulerExec i r w

def schedulerBackend : Backend SchedulerReply SchedulerExc SchedulerWorld where
  exec := schedulerExec
  fail := schedulerFail
  blocked _ _ _ := false
  elapse d w := { w with clock := w.clock + d }

end Imghost.Scheduler
