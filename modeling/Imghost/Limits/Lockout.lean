/-
  Imghost.Limits.Lockout — when failures lock a key.

  The limiter in memory keeps the times of the failures, so the window it counts over
  rolls. Redis keeps a number that expires a window after the failure that opened it, so
  it counts the failures since then: a key is not locked by failures of one rolling
  window that two such counters share between them.
-/

import Mathlib.Data.List.Induction
import Imghost.Limits.Alone

namespace Imghost.Limits

open Imghost.Async Imghost.Data Imghost.Model

/-- The call that records a failure of a kind. -/
def FailureKind.record (kind : FailureKind) (key : String) : AuthCall :=
  match kind with
  | .login => .recordLoginFailure key
  | .apiKey => .recordApiKeyFailure key
  | .admin => .recordAdminDenial key

namespace Lockout

/-! ## Windows over a sequence of failures -/

/-- The failures of the window that ends with the last one. -/
def rolling (window : Int) (times : List Int) (t : Int) : Nat := (Window.since id (t - window) (times ++ [t])).length

/-- When the counter in use was opened: by the first failure, then by each that comes a
    window or more after the one that opened the last. -/
def opened (window : Int) (times : List Int) : Option Int :=
  times.foldl (fun opened t => some (match opened with
    | some first => if t < first + window then first else t
    | none => t)) none

/-- The failures since then. -/
def sinceOpened (window : Int) (times : List Int) : Nat :=
  match opened window times with
  | some first => times.countP fun t => decide (first ≤ t)
  | none => 0

/-- A number that is gone a window after its first failure, with the time of that failure. -/
def countFailure (window : Int) (counter : Option (Int × Nat)) (t : Int) : Int × Nat :=
  match counter with
  | some (first, n) => if t < first + window then (first, n + 1) else (t, 1)
  | none => (t, 1)

def counterAfter (window : Int) (times : List Int) : Option (Int × Nat) :=
  times.foldl (fun counter t => some (countFailure window counter t)) none

theorem counterAfter_snoc (window : Int) (times : List Int) (t : Int) :
    counterAfter window (times ++ [t]) = some (countFailure window (counterAfter window times) t) := by
  rw [counterAfter, List.foldl_append]
  rfl

theorem opened_eq (window : Int) (times : List Int) : opened window times = (counterAfter window times).map Prod.fst := by
  induction times using List.reverseRecOn with
  | nil => rfl
  | append_singleton times t ih =>
    rw [opened, List.foldl_append, List.foldl_cons, List.foldl_nil, ← opened, ih, counterAfter_snoc]
    rcases counterAfter window times with _ | ⟨first, n⟩
    · rfl
    · simp only [Option.map_some, countFailure, Option.some.injEq]
      split <;> rfl

theorem counterAfter_eq_none {window : Int} {times : List Int} : counterAfter window times = none ↔ times = [] := by
  constructor
  · intro h
    rcases List.eq_nil_or_concat times with rfl | ⟨times, t, rfl⟩
    · rfl
    · rw [List.concat_eq_append, counterAfter_snoc] at h
      cases h
  · rintro rfl
    rfl

/-- Such a number counts the failures since it was opened, and the last of them is within
    the window. -/
theorem counterAfter_count {window : Int} (hwindow : 0 < window) {times : List Int} (hsorted : times.Pairwise (· ≤ ·))
    {first : Int} {n : Nat} (h : counterAfter window times = some (first, n)) :
    1 ≤ n ∧ n = times.countP (fun t => decide (first ≤ t)) ∧ ∀ t ∈ times, t < first + window := by
  induction times using List.reverseRecOn generalizing first n with
  | nil => cases h
  | append_singleton times t ih =>
    have hprefix := List.Pairwise.sublist (List.sublist_append_left _ _) hsorted
    have hlast : ∀ s ∈ times, s ≤ t := fun s hs => (List.pairwise_append.mp hsorted).2.2 s hs t (by simp)
    rw [counterAfter_snoc, Option.some.injEq] at h
    rw [List.countP_append, List.countP_singleton]
    -- a failure that opens a counter is later than all before it
    have hopens : (∀ s ∈ times, s < t) → first = t → n = 1 →
        1 ≤ n ∧ n = times.countP (fun s => decide (first ≤ s)) + (if decide (first ≤ t) = true then 1 else 0) ∧
          ∀ s ∈ times ++ [t], s < first + window := by
      rintro hbefore rfl rfl
      refine ⟨le_rfl, ?_, fun s hs => ?_⟩
      · simpa [List.countP_eq_zero] using hbefore
      · rcases List.mem_append.mp hs with hs | hs
        · have := hbefore s hs
          omega
        · rw [List.mem_singleton.mp hs]
          omega
    rcases hcounter : counterAfter window times with _ | ⟨first', n'⟩
    · obtain rfl := counterAfter_eq_none.mp hcounter
      rw [hcounter] at h
      exact hopens (by simp) (congrArg Prod.fst h).symm (congrArg Prod.snd h).symm
    · obtain ⟨hpos, hcount, hlive⟩ := ih hprefix hcounter
      rw [hcounter, countFailure] at h
      by_cases ht : t < first' + window
      · rw [if_pos ht] at h
        cases h
        have hfirst : first ≤ t := by
          obtain ⟨s, hs, hle⟩ := List.countP_pos_iff.mp (hcount ▸ hpos)
          exact le_trans (of_decide_eq_true hle) (hlast s hs)
        refine ⟨by omega, by simp [hfirst, hcount], fun s hs => ?_⟩
        rcases List.mem_append.mp hs with hs | hs
        · exact hlive s hs
        · rwa [List.mem_singleton.mp hs]
      · rw [if_neg ht] at h
        exact hopens (fun s hs => lt_of_lt_of_le (hlive s hs) (not_lt.mp ht)) (congrArg Prod.fst h).symm
          (congrArg Prod.snd h).symm

theorem sinceOpened_eq {window : Int} (hwindow : 0 < window) {times : List Int} (hsorted : times.Pairwise (· ≤ ·)) :
    sinceOpened window times = ((counterAfter window times).map Prod.snd).getD 0 := by
  rw [sinceOpened, opened_eq]
  rcases hcounter : counterAfter window times with _ | ⟨first, n⟩
  · rfl
  · exact (counterAfter_count hwindow hsorted hcounter).2.1.symm

/-- A failure at the time of the one before it counts with it. -/
theorem sinceOpened_le_of_mem {window : Int} (hwindow : 0 < window) {times : List Int} {t : Int}
    (hsorted : (times ++ [t]).Pairwise (· ≤ ·)) (ht : t ∈ times) :
    sinceOpened window times ≤ sinceOpened window (times ++ [t]) := by
  have hprefix := List.Pairwise.sublist (List.sublist_append_left _ _) hsorted
  rw [sinceOpened_eq hwindow hprefix, sinceOpened_eq hwindow hsorted, counterAfter_snoc]
  rcases hcounter : counterAfter window times with _ | ⟨first, n⟩
  · exact Nat.zero_le _
  · simp only [countFailure, if_pos ((counterAfter_count hwindow hprefix hcounter).2.2 t ht), Option.map_some, Option.getD_some]
    exact Nat.le_succ n

/-! ## In memory -/

variable {config : LimitConfig} {kind : FailureKind} {key : String}

def failInMemory (config : LimitConfig) (kind : FailureKind) (key : String) (s : InMemoryAuthRateLimiter) (t : Int) :
    InMemoryAuthRateLimiter := ((kind.record key).run config t s).2

theorem failInMemory_eq (s : InMemoryAuthRateLimiter) (t : Int) :
    failInMemory config kind key s t = s.recordFailure config kind t key := by cases kind <;> rfl

theorem setFailures_self (s : InMemoryAuthRateLimiter) (counter : AuthWindowCounter) :
    (s.setFailures kind key counter).failures kind key = counter := by
  simp only [InMemoryAuthRateLimiter.setFailures, if_true, put_self]

/-- A failure is added, what is older than the window dropped, and the key locked if
    enough are left. -/
theorem recordFailure_spec (hthreshold : 0 < config kind.thresholdKey) (s : InMemoryAuthRateLimiter) (t : Int) :
    (s.recordFailure config kind t key).failures kind key =
        ((s.failures kind key).add t).prune t (config kind.windowKey * second) ∧
      (config kind.thresholdKey ≤ ((s.recordFailure config kind t key).failures kind key).events.length →
        (s.recordFailure config kind t key).locks (kind.scope ++ key) =
          some (t + config kind.lockSecondsKey * second)) := by
  have hrecord : ∀ counter, counter = ((s.failures kind key).add t).prune t (config kind.windowKey * second) →
      s.recordFailure config kind t key = if config kind.thresholdKey ≤ counter.events.length then
        { s.setFailures kind key counter with
          locks := put s.locks (kind.scope ++ key) (some (t + config kind.lockSecondsKey * second)) }
        else s.setFailures kind key counter := by
    rintro counter rfl
    unfold InMemoryAuthRateLimiter.recordFailure
    rw [if_pos hthreshold]
    rfl
  generalize ((s.failures kind key).add t).prune t (config kind.windowKey * second) = counter at hrecord ⊢
  rw [hrecord counter rfl]
  by_cases hreached : config kind.thresholdKey ≤ counter.events.length
  · rw [if_pos hreached]
    exact ⟨setFailures_self s counter, fun _ => put_self _ _ _⟩
  · rw [if_neg hreached, setFailures_self]
    exact ⟨rfl, fun h => (hreached h).elim⟩

theorem rolling_prune {window : Int} {times : List Int} {last t : Int} (hsorted : (times ++ [t]).Pairwise (· ≤ ·))
    (hlast : last ≤ t) :
    Window.prune id (t - window) (Window.since id (last - window) times ++ [t]) = Window.since id (t - window) (times ++ [t]) := by
  have hchron : Window.Chronological id (times ++ [t]) := hsorted
  have hsub : (Window.since id (last - window) times ++ [t]).Sublist (times ++ [t]) :=
    List.Sublist.append List.filter_sublist (List.Sublist.refl _)
  rw [Window.prune_eq_since (List.Pairwise.sublist hsub hchron), Window.since_append, Window.since_append, Window.since_since,
    max_eq_left (by omega)]

/-- The limiter in memory holds the failures of the window that ends with the last one. -/
theorem failures_eq (hthreshold : 0 < config kind.thresholdKey) {s : InMemoryAuthRateLimiter}
    (hs : s.failures kind key = .empty) (times : List Int) (t : Int) (hsorted : (times ++ [t]).Pairwise (· ≤ ·)) :
    ((times ++ [t]).foldl (failInMemory config kind key) s).failures kind key =
      ⟨Window.since id (t - config kind.windowKey * second) (times ++ [t])⟩ := by
  induction times using List.reverseRecOn generalizing t with
  | nil =>
    simp only [List.nil_append, List.foldl_cons, List.foldl_nil, failInMemory_eq]
    rw [(recordFailure_spec hthreshold s t).1, hs]
    exact congrArg AuthWindowCounter.mk (Window.prune_eq_since (List.pairwise_singleton _ _))
  | append_singleton times last ih =>
    have hprefix := List.Pairwise.sublist (List.sublist_append_left _ _) hsorted
    have hlast : last ≤ t := (List.pairwise_append.mp hsorted).2.2 last (by simp) t (by simp)
    rw [List.foldl_append, List.foldl_cons, List.foldl_nil, failInMemory_eq, (recordFailure_spec hthreshold _ t).1,
      ih last hprefix]
    exact congrArg AuthWindowCounter.mk (rolling_prune hsorted hlast)

/-! ## In Redis -/

variable {redis : RedisHandle} {w : LimiterWorld}

open RedisAuthRateLimiter

def failInRedis (redis : RedisHandle) (kind : FailureKind) (key : String) (w : LimiterWorld) (t : Int) : LimiterWorld :=
  (alone (LimitOp.program redis (.auth (kind.record key))) { w with clock := t }).2

theorem record_program (redis : RedisHandle) (kind : FailureKind) (key : String) :
    ∃ operation fallback, LimitOp.program redis (.auth (kind.record key)) =
      withRedisFallback operation fallback (recordFailureWithRedis redis kind key) := by
  cases kind <;> exact ⟨_, _, rfl⟩

/-- What a failure leaves: the number raised, with a new expiry if it is 1, and a lock once
    the number has reached the threshold. -/
def afterFailure (failKey lockKey : String) (threshold windowSeconds lockSeconds : Int) (w : LimiterWorld) : LimiterWorld :=
  let updated := numberAt failKey w + 1
  let w' := w.setKey failKey (some (if updated = 1 then ⟨.string updated, some (w.clock + windowSeconds * second)⟩
    else incremented failKey w))
  if threshold ≤ updated then w'.setKey lockKey (some ⟨.string 1, some (w.clock + lockSeconds * second)⟩) else w'

theorem alone_recordFailureCounter {failKey lockKey : String} {threshold windowSeconds lockSeconds : Int}
    (h : NoHash failKey w) (hthreshold : 0 < threshold) (hwindow : 0 < windowSeconds) (hlock : 0 < lockSeconds) :
    alone (recordFailureCounter failKey lockKey threshold windowSeconds lockSeconds) w =
      (.ok (), afterFailure failKey lockKey threshold windowSeconds lockSeconds w) := by
  have hlocks : ∀ w' : LimiterWorld, w'.clock = w.clock →
      alone (if 0 < threshold ∧ threshold ≤ numberAt failKey w + 1 then request (.setEx lockKey lockSeconds) else pure ()) w' =
        (.ok (), if threshold ≤ numberAt failKey w + 1 then
          w'.setKey lockKey (some ⟨.string 1, some (w.clock + lockSeconds * second)⟩) else w') := by
    intro w' hclock
    by_cases hreached : threshold ≤ numberAt failKey w + 1
    · rw [if_pos ⟨hthreshold, hreached⟩, if_pos hreached, alone_request, ← hclock]
      simp only [limitExec, LimiterWorld.setEx, not_le.mpr hlock, if_false]
    · rw [if_neg fun h => hreached h.2, if_neg hreached]
      rfl
  unfold recordFailureCounter afterFailure
  rw [alone_bind_of_ok (alone_incr h)]
  by_cases hone : numberAt failKey w + 1 = 1
  · simp only [if_pos hone]
    rw [alone_bind_of_ok (alone_expire_incremented hwindow)]
    exact hlocks _ rfl
  · simp only [if_neg hone]
    exact hlocks _ rfl

/-- The settings of one kind of failure, in force and positive. -/
structure InForce (config : LimitConfig) (kind : FailureKind) : Prop where
  threshold : 0 < config kind.thresholdKey
  window : 0 < config kind.windowKey
  lock : 0 < config kind.lockSecondsKey

theorem failInRedis_eq (hforce : InForce config kind) (hconfig : w.config = config) {t : Int} (havailable : w.blockedUntil ≤ t)
    (hnumber : NoHash (failKey redis kind key) { w with clock := t }) :
    failInRedis redis kind key w t =
      { afterFailure (failKey redis kind key) (lockKey redis kind key) (config kind.thresholdKey) (config kind.windowKey)
          (config kind.lockSecondsKey) { w with clock := t } with blockedUntil := 0 } := by
  subst hconfig
  obtain ⟨operation, fallback, hprogram⟩ := record_program redis kind key
  have hcallback : alone (recordFailureWithRedis redis kind key) { w with clock := t } =
      (.ok (), afterFailure (failKey redis kind key) (lockKey redis kind key) (w.config kind.thresholdKey)
        (w.config kind.windowKey) (w.config kind.lockSecondsKey) { w with clock := t }) := by
    unfold recordFailureWithRedis
    rw [alone_bind_of_ok (alone_request (.getValue _) _), alone_bind_of_ok (alone_request (.getValue _) _),
      alone_bind_of_ok (alone_request (.getValue _) _)]
    exact alone_recordFailureCounter hnumber hforce.threshold hforce.window hforce.lock
  unfold failInRedis
  rw [hprogram, alone_withRedisFallback_of_ok (show Available { w with clock := t } from havailable) hcallback]

/-- The entry of a counter. -/
def counterEntry (window : Int) (counter : Int × Nat) : Entry := ⟨.string counter.2, some (counter.1 + window)⟩

/-- The keys of a kind after the failures of `times`, the last of them at `last`. -/
structure Counted (redis : RedisHandle) (config : LimitConfig) (kind : FailureKind) (key : String) (times : List Int)
    (last : Int) (w : LimiterWorld) : Prop where
  sameConfig : w.config = config
  available : w.blockedUntil ≤ last
  counter : w.keys (failKey redis kind key) =
    (counterAfter (config kind.windowKey * second) times).map (counterEntry (config kind.windowKey * second))
  locked : ∀ e, w.keys (lockKey redis kind key) = some e → ∃ t ≤ last,
    e.expiresAt = some (t + config kind.lockSecondsKey * second) ∧
      (t = last → config kind.thresholdKey ≤ sinceOpened (config kind.windowKey * second) times)

section

variable {times : List Int} {last t : Int}

theorem positive_seconds {seconds : Int} (h : 0 < seconds) : 0 < seconds * second := by
  unfold second
  omega

/-- What `INCR` and `EXPIRE` make of a counter at time `t`. -/
theorem entry_at (window : Int) (counter : Option (Int × Nat)) (failKey : String)
    (hkey : w.keys failKey = counter.map (counterEntry window)) (hpositive : ∀ opened n, counter = some (opened, n) → 1 ≤ n) :
    NoHash failKey { w with clock := t } ∧
      numberAt failKey { w with clock := t } + 1 = (countFailure window counter t).2 ∧
      (if numberAt failKey { w with clock := t } + 1 = 1 then
          (⟨.string (numberAt failKey { w with clock := t } + 1), some (t + window)⟩ : Entry)
        else incremented failKey { w with clock := t }) = counterEntry window (countFailure window counter t) := by
  have hfind : ({ w with clock := t } : LimiterWorld).find? failKey =
      (counter.map (counterEntry window)).filter fun e => e.expiresAt.all (t < ·) := by
    simp only [LimiterWorld.find?, hkey]
  rcases counter with _ | ⟨opened, n⟩
  · have hnone : ({ w with clock := t } : LimiterWorld).find? failKey = none := hfind
    simp only [NoHash, numberAt, hnone, countFailure]
    exact ⟨fun _ _ h => (by cases h), rfl, rfl⟩
  · by_cases hlive : t < opened + window
    · have hsome : ({ w with clock := t } : LimiterWorld).find? failKey = some (counterEntry window (opened, n)) := by
        rw [hfind]
        exact Option.filter_eq_some_iff.mpr ⟨rfl, by simp only [counterEntry, Option.all_some, hlive, decide_true]⟩
      have hn : 1 ≤ n := hpositive opened n rfl
      have hne : ¬(n : Int) + 1 = 1 := by omega
      simp only [NoHash, incremented, numberAt, hsome, countFailure, counterEntry, if_pos hlive, Option.bind_some, hne, if_false]
      exact ⟨fun _ _ h => (by cases h), rfl, rfl⟩
    · have hnone : ({ w with clock := t } : LimiterWorld).find? failKey = none := by
        rw [hfind]
        refine Option.filter_eq_none_iff.mpr fun e he => ?_
        obtain rfl := Option.some.inj he
        simp only [counterEntry, Option.all_some, hlive, decide_false, Bool.false_eq_true, not_false_eq_true]
      simp only [NoHash, numberAt, hnone, countFailure, if_neg hlive]
      exact ⟨fun _ _ h => (by cases h), rfl, rfl⟩

/-- The key is locked until `t`. -/
def LockedUntil (redis : RedisHandle) (kind : FailureKind) (key : String) (t : Int) (w : LimiterWorld) : Prop :=
  (w.find? (lockKey redis kind key)).bind Entry.expiresAt = some t

/-- The keys after a failure. -/
theorem failInRedis_keys (hforce : InForce config kind) (hsorted : times.Pairwise (· ≤ ·)) (hlast : last ≤ t)
    (h : Counted redis config kind key times last w) :
    ∃ w' : LimiterWorld, failInRedis redis kind key w t = { w' with blockedUntil := 0 } ∧ w'.config = config ∧ w'.clock = t ∧
      w'.keys (failKey redis kind key) =
        some (counterEntry (config kind.windowKey * second)
          (countFailure (config kind.windowKey * second) (counterAfter (config kind.windowKey * second) times) t)) ∧
      w'.keys (lockKey redis kind key) =
        if config kind.thresholdKey ≤
          ((countFailure (config kind.windowKey * second) (counterAfter (config kind.windowKey * second) times) t).2 : Int)
        then some ⟨.string 1, some (t + config kind.lockSecondsKey * second)⟩ else w.keys (lockKey redis kind key) := by
  have hwindow := positive_seconds hforce.window
  obtain ⟨hnumber, hupdated, hentry⟩ := entry_at (t := t) _ _ _ h.counter fun first n hcounter =>
    (counterAfter_count hwindow hsorted hcounter).1
  refine ⟨_, failInRedis_eq hforce h.sameConfig (le_trans h.available hlast) hnumber, ?_⟩
  have hne : lockKey redis kind key ≠ failKey redis kind key := (failKey_ne_lockKey kind kind key key).symm
  rw [hupdated] at hentry
  simp only [afterFailure, hupdated, hentry]
  split
  · exact ⟨h.sameConfig, rfl, (put_of_ne hne.symm).trans (put_self _ _ _), put_self _ _ _⟩
  · exact ⟨h.sameConfig, rfl, put_self _ _ _, put_of_ne hne⟩

instance (redis : RedisHandle) (kind : FailureKind) (key : String) (t : Int) (w : LimiterWorld) :
    Decidable (LockedUntil redis kind key t w) := inferInstanceAs (Decidable (_ = _))

/-- A failure counts, and locks the key when enough were counted. -/
theorem counted_fail (hforce : InForce config kind) (hsorted : (times ++ [t]).Pairwise (· ≤ ·)) (ht : 0 ≤ t) (hlast : last ≤ t)
    (hmem : times = [] ∨ last ∈ times) (h : Counted redis config kind key times last w) :
    Counted redis config kind key (times ++ [t]) t (failInRedis redis kind key w t) ∧
      (LockedUntil redis kind key (t + config kind.lockSecondsKey * second) (failInRedis redis kind key w t) ↔
        config kind.thresholdKey ≤ sinceOpened (config kind.windowKey * second) (times ++ [t])) := by
  have hwindow := positive_seconds hforce.window
  have hprefix := List.Pairwise.sublist (List.sublist_append_left _ _) hsorted
  have hn : sinceOpened (config kind.windowKey * second) (times ++ [t]) =
      (countFailure (config kind.windowKey * second) (counterAfter (config kind.windowKey * second) times) t).2 := by
    rw [sinceOpened_eq hwindow hsorted, counterAfter_snoc]
    rfl
  obtain ⟨w', heq, hconfig, hclock, hcounter, hlock⟩ := failInRedis_keys hforce hprefix hlast h
  rw [← hn] at hlock
  -- a lock that was set at the same time was set by a failure of the same window
  have hearlier : ¬config kind.thresholdKey ≤ sinceOpened (config kind.windowKey * second) (times ++ [t]) →
      ∀ e, w.keys (lockKey redis kind key) = some e → ∃ t' < t, e.expiresAt = some (t' + config kind.lockSecondsKey * second) := by
    intro hfew e he
    obtain ⟨t', hle, hexpiry, hreached⟩ := h.locked e he
    refine ⟨t', lt_of_le_of_ne (le_trans hle hlast) ?_, hexpiry⟩
    rintro rfl
    obtain rfl : t' = last := le_antisymm hle hlast
    have hbefore := hreached rfl
    rcases hmem with rfl | hmem
    · exact absurd hbefore (not_le.mpr hforce.threshold)
    · exact hfew (le_trans hbefore (Int.ofNat_le.mpr (sinceOpened_le_of_mem hwindow hsorted hmem)))
  rw [heq]
  constructor
  · refine ⟨hconfig, ht, ?_, fun e he => ?_⟩
    · rw [counterAfter_snoc]
      exact hcounter
    · by_cases hreached : config kind.thresholdKey ≤ sinceOpened (config kind.windowKey * second) (times ++ [t])
      · rw [if_pos hreached] at hlock
        obtain rfl := Option.some.inj (hlock.symm.trans he)
        exact ⟨t, le_rfl, rfl, fun _ => hreached⟩
      · rw [if_neg hreached] at hlock
        obtain ⟨t', hlt, hexpiry⟩ := hearlier hreached e (hlock.symm.trans he)
        exact ⟨t', hlt.le, hexpiry, fun h => absurd h hlt.ne⟩
  · have hfind : ({ w' with blockedUntil := 0 } : LimiterWorld).find? (lockKey redis kind key) =
        (w'.keys (lockKey redis kind key)).filter fun e => e.expiresAt.all (t < ·) := by
      rw [← hclock]
      rfl
    rw [LockedUntil, hfind, hlock]
    by_cases hreached : config kind.thresholdKey ≤ sinceOpened (config kind.windowKey * second) (times ++ [t])
    · refine iff_of_true ?_ hreached
      have hlater := positive_seconds hforce.lock
      rw [if_pos hreached, Option.filter_some, if_pos]
      · rfl
      · exact decide_eq_true (by omega)
    · rw [if_neg hreached]
      refine iff_of_false (fun hlocked => ?_) hreached
      obtain ⟨e, he, hexpiry⟩ := Option.bind_eq_some_iff.mp hlocked
      obtain ⟨t', hlt, hexpiry'⟩ := hearlier hreached e (Option.filter_eq_some_iff.mp he).1
      have := Option.some.inj (hexpiry.symm.trans hexpiry')
      omega

/-- After every failure of a sequence. -/
theorem counted_run (hforce : InForce config kind) (hconfig : w.config = config) (hblocked : w.blockedUntil ≤ 0)
    (hcounter : w.keys (failKey redis kind key) = none) (hlock : w.keys (lockKey redis kind key) = none)
    (hsorted : (0 :: (times ++ [t])).Pairwise (· ≤ ·)) :
    Counted redis config kind key (times ++ [t]) t ((times ++ [t]).foldl (failInRedis redis kind key) w) ∧
      (LockedUntil redis kind key (t + config kind.lockSecondsKey * second)
          ((times ++ [t]).foldl (failInRedis redis kind key) w) ↔
        config kind.thresholdKey ≤ sinceOpened (config kind.windowKey * second) (times ++ [t])) := by
  induction times using List.reverseRecOn generalizing t with
  | nil =>
    obtain ⟨hpositive, hsorted⟩ := List.pairwise_cons.mp hsorted
    have ht := hpositive t (by simp)
    have hstart : Counted redis config kind key [] t w :=
      ⟨hconfig, le_trans hblocked ht, hcounter, fun e he => absurd (hlock.symm.trans he) nofun⟩
    exact counted_fail hforce hsorted ht le_rfl (.inl rfl) hstart
  | append_singleton times last ih =>
    have hbefore := (ih (hsorted.sublist ((List.sublist_append_left _ _).cons_cons 0))).1
    obtain ⟨hpositive, hsorted⟩ := List.pairwise_cons.mp hsorted
    have hlast : last ≤ t := (List.pairwise_append.mp hsorted).2.2 last (by simp) t (by simp)
    rw [List.foldl_append, List.foldl_cons, List.foldl_nil]
    exact counted_fail hforce hsorted (hpositive t (by simp)) hlast (.inr (by simp)) hbefore

end

/-! ## Both limiters -/

/-- After failures with as many as the threshold in the last window, the limiter in memory
    has the key locked; Redis has exactly if there are as many since its counter was opened. -/
theorem failures_lock_iff (redis : RedisHandle) (config : LimitConfig) (kind : FailureKind) (key : String)
    (hforce : InForce config kind) (s : InMemoryAuthRateLimiter) (hs : s.failures kind key = .empty) (w : LimiterWorld)
    (hconfig : w.config = config) (hblocked : w.blockedUntil ≤ 0) (hcounter : w.keys (failKey redis kind key) = none)
    (hlock : w.keys (lockKey redis kind key) = none) (times : List Int) (t : Int)
    (hsorted : (0 :: (times ++ [t])).Pairwise (· ≤ ·)) :
    (config kind.thresholdKey ≤ rolling (config kind.windowKey * second) times t →
        ((times ++ [t]).foldl (failInMemory config kind key) s).locks (kind.scope ++ key) =
          some (t + config kind.lockSecondsKey * second)) ∧
      ((config kind.thresholdKey ≤ rolling (config kind.windowKey * second) times t →
          LockedUntil redis kind key (t + config kind.lockSecondsKey * second)
            ((times ++ [t]).foldl (failInRedis redis kind key) w)) ↔
        rolling (config kind.windowKey * second) times t < config kind.thresholdKey ∨
          config kind.thresholdKey ≤ sinceOpened (config kind.windowKey * second) (times ++ [t])) := by
  constructor
  · have hsorted := (List.pairwise_cons.mp hsorted).2
    have hkept := failures_eq hforce.threshold hs times t hsorted
    rw [List.foldl_append, List.foldl_cons, List.foldl_nil, failInMemory_eq] at hkept ⊢
    intro hreached
    refine (recordFailure_spec hforce.threshold _ t).2 ?_
    rw [hkept]
    exact hreached
  · rw [(counted_run hforce hconfig hblocked hcounter hlock hsorted).2, ← not_le, imp_iff_not_or]

/-- Three failed logins within ten seconds lock for a minute. -/
def threeInTen : LimitConfig
  | .authRateLimitLoginAccountFailures => 3
  | .authRateLimitLoginAccountWindowSeconds => 10
  | .authRateLimitLoginLockSeconds => 60
  | _ => 0

theorem three_failures_in_two_seconds :
    LockedUntil ⟨""⟩ .login "bob" (62 * second)
      ([0, second, 2 * second].foldl (failInRedis ⟨""⟩ .login "bob") (.fresh threeInTen)) :=
  (failures_lock_iff ⟨""⟩ threeInTen .login "bob" ⟨by decide, by decide, by decide⟩ .empty rfl (.fresh threeInTen) rfl le_rfl rfl
    rfl [0, second] (2 * second) (by decide)).2.mpr (.inr (by decide +kernel)) (by decide +kernel)

/-- The failures 9, 11 and 12 seconds after the start lie within ten seconds; Redis counts
    the first of them with the failure at the start, and starts anew with the second. -/
theorem three_failures_across_two_counters :
    rolling (10 * second) [0, 9 * second, 11 * second] (12 * second) = 3 ∧
      ([0, 9 * second, 11 * second, 12 * second].foldl (failInMemory threeInTen .login "bob") .empty).locks
          "login:account:bob" = some (72 * second) ∧
      ¬LockedUntil ⟨""⟩ .login "bob" (72 * second)
        ([0, 9 * second, 11 * second, 12 * second].foldl (failInRedis ⟨""⟩ .login "bob") (.fresh threeInTen)) := by
  decide +kernel

end Lockout

end Imghost.Limits
