/-
  Imghost.Limits.Expiry — counters that never go away.

  `INCR` and `HINCRBY` create a key that lives for ever, and the `EXPIRE` that follows
  is another command. A method that has created a key owes it an expiry until then, so
  a key without one is owed by a method that is still running, whatever else runs
  beside it. An `EXPIRE` that fails is never made up for: the authentication limiter
  sends it only after the increment that creates the key, and the upload limiter's next
  increment is of another minute's key.
-/

import Imghost.Limits.RedisLimiters

namespace Imghost.Limits.Expiry

open Imghost.Async Imghost.Data Imghost.Model

variable {α β : Type}

/-! ## What a method owes -/

/-- The key that was just created, or may have been, and has no expiry yet. -/
abbrev Debt := Option String

def next (g : Debt) : LimitCall → Debt
  | ⟨.incr key, .ok n, _⟩ => if n = 1 then some key else g
  | ⟨.hincrby key _ _, .ok _, _⟩ => some key
  | ⟨.expire key _, _, _⟩ => if g = some key then none else g
  | _ => g

/-- No key is created while another one is owed its expiry. -/
def expiring : Protocol LimitReply LimiterExc Debt where
  can g r :=
    match r with
    | .incr _ | .hincrby _ _ _ => g = none
    | _ => True
  next := next

abbrev machine : Machine LimitReply LimiterExc Debt := expiring.machine fun _ => True

/-- However the method ends, it owes nothing. -/
abbrev Settles (p : LimitProg α) : Prop := wp machine (fun _ g => g = none) p none

/-- A call that creates no key. -/
def CreatesNothing : LimitReq → Prop
  | .incr _ | .hincrby _ _ _ => False
  | _ => True

theorem next_none {e : LimitCall} (h : CreatesNothing e.req) : next none e = none := by
  obtain ⟨r, x, b⟩ := e
  cases r <;> first | rfl | exact h.elim

theorem settles_of_uses {p : LimitProg α} (hp : p.Uses CreatesNothing) : Settles p := by
  refine Protocol.wp_stay (fun r hr => ?_) (fun e he => next_none he) hp fun _ => rfl
  cases r <;> trivial

theorem settles_bind {p : LimitProg α} {f : α → LimitProg β} (hp : Settles p) (hf : ∀ a, Settles (f a)) :
    Settles (p >>= f) :=
  wp_seq hp (fun a g hg => by rw [hg]; exact hf a) fun _ _ hg => hg

theorem settles_tryExcept {p : LimitProg α} {h : LimiterExc → LimitProg α} (hp : Settles p) (hh : ∀ e, Settles (h e)) :
    Settles (p.tryExcept h) := by
  rw [Settles, wp_tryExcept]
  refine wp_mono (fun x g hg => ?_) hp
  cases x with
  | ok a => exact hg
  | error e => rw [hg]; exact hh e

theorem settles_attempt {p : LimitProg α} (hp : Settles p) : Settles p.attempt := by
  rw [Settles, wp_attempt]
  exact hp

theorem settles_request {r : LimitReq} (hr : CreatesNothing r) : Settles (request r) :=
  settles_of_uses (Program.uses_perform hr)

/-- An `EXPIRE` settles what is owed to its key. -/
theorem expire_settles {f : Unit → LimitProg β} {key : String} {seconds : Int} (hf : Settles (f ())) :
    wp machine (fun _ g => g = none) (request (.expire key seconds) >>= f) (some key) := by
  refine Protocol.wp_await trivial (fun _ b _ => ?_) fun e b _ => if_pos rfl
  have hnext : next (some key) ⟨.expire key seconds, .ok (), b⟩ = none := if_pos rfl
  change wp machine _ _ (next (some key) ⟨.expire key seconds, .ok (), b⟩)
  rw [hnext]
  exact hf

/-! ## Every method settles -/

theorem record_settles (requests bytes : String) (minuteBucket : Int) (byteCount : Nat) :
    Settles (record requests bytes minuteBucket byteCount) := by
  have hbytes : Settles (do
      let _ ← request (.hincrby bytes minuteBucket byteCount)
      request (.expire bytes 3720)) := by
    refine Protocol.wp_await rfl (fun _ b _ => ?_) fun e b _ => rfl
    refine (wp_perform _).mpr ⟨trivial, ?_⟩
    rintro x _ ⟨b, -, rfl⟩
    exact if_pos rfl
  refine Protocol.wp_await rfl (fun n b _ => ?_) fun e b _ => rfl
  change wp machine _ _ (next none ⟨.incr requests, .ok n, b⟩)
  by_cases hn : n = 1
  · have hnext : next none ⟨.incr requests, .ok n, b⟩ = some requests := if_pos hn
    rw [hnext]
    exact expire_settles hbytes
  · have hnext : next none ⟨.incr requests, .ok n, b⟩ = none := if_neg hn
    rw [hnext]
    exact settles_bind (settles_request trivial) fun _ => hbytes

theorem checkRequests_settles (key : String) (rpm : Int) : Settles (checkRequests key rpm) := by
  refine settles_of_uses ?_
  unfold checkRequests
  split
  · exact Program.uses_bind (Program.uses_perform trivial) fun _ => Program.uses_raiseIf _ _
  · trivial

theorem checkBytes_settles (key : String) (bph minuteBucket : Int) (byteCount : Nat) :
    Settles (checkBytes key bph minuteBucket byteCount) := by
  refine settles_of_uses ?_
  unfold checkBytes
  split
  · refine Program.uses_bind (Program.uses_perform trivial) fun fields =>
      Program.uses_bind ?_ fun _ => Program.uses_raiseIf _ _
    unfold dropStale
    split
    · trivial
    · exact Program.uses_perform trivial
  · trivial

theorem enforceCounter_settles (redis : RedisHandle) (scope : String) (minuteBucket : Int) (limits : UploadLimits)
    (byteCount : Nat) : Settles (RedisRateLimiter.enforceCounter redis scope minuteBucket limits byteCount) :=
  settles_bind (checkRequests_settles _ _) fun _ => settles_bind (checkBytes_settles _ _ _ _) fun _ =>
    record_settles _ _ _ _

theorem overrideOr_settles (value : Option Int) (key : LimitKey) : Settles (RedisRateLimiter.overrideOr value key) := by
  cases value with
  | some value => exact rfl
  | none => exact settles_request trivial

theorem enforceWithRedis_settles (redis : RedisHandle) (r : UploadRequest) :
    Settles (RedisRateLimiter.enforceWithRedis redis r) := by
  refine settles_bind (settles_request trivial) fun now => ?_
  dsimp only
  split
  · exact settles_bind (overrideOr_settles _ _) fun _ => settles_bind (overrideOr_settles _ _) fun _ =>
      enforceCounter_settles _ _ _ _ _
  · refine settles_bind (settles_request trivial) fun _ => settles_bind (settles_request trivial) fun _ =>
      settles_bind (settles_request trivial) fun _ => settles_bind (settles_request trivial) fun _ => ?_
    exact settles_bind (enforceCounter_settles _ _ _ _ _) fun _ => enforceCounter_settles _ _ _ _ _

theorem withRedisFallback_settles {operation : String} {fallback callback : LimitProg Unit} (hf : Settles fallback)
    (hc : Settles callback) : Settles (withRedisFallback operation fallback callback) := by
  refine settles_tryExcept ?_ fun e => ?_
  · refine settles_bind (settles_request trivial) fun _ => settles_bind ?_ fun _ => settles_request trivial
    refine settles_tryExcept hc fun e => ?_
    split
    · exact settles_bind (settles_request trivial) fun _ => rfl
    · exact rfl
  · cases e with
    | redisUnavailable msg => exact hf
    | redis | timeout | py => exact rfl

open RedisAuthRateLimiter

theorem enforceRpmCounter_settles (redis : RedisHandle) (keyStart : String) (limit : Int) :
    Settles (enforceRpmCounter redis keyStart limit) := by
  unfold enforceRpmCounter
  split
  · exact rfl
  refine settles_bind (settles_request trivial) fun now => settles_bind (settles_request trivial) fun current => ?_
  refine settles_bind (settles_of_uses (Program.uses_raiseIf _ _)) fun _ => ?_
  refine Protocol.wp_await rfl (fun updated b _ => ?_) fun e b _ => rfl
  by_cases hn : updated = 1
  · rw [if_pos hn]
    refine (wp_perform _).mpr ⟨trivial, ?_⟩
    have hnext : next none ⟨.incr (redis.prefixed (keyStart ++ ":" ++ toString (bucketOf now))), .ok updated, b⟩ =
        some (redis.prefixed (keyStart ++ ":" ++ toString (bucketOf now))) := if_pos hn
    rintro x _ ⟨b', -, rfl⟩
    exact (congrArg (fun g => next g ⟨.expire _ 120, x, b'⟩) hnext).trans (if_pos rfl)
  · rw [if_neg hn]
    exact if_neg hn

theorem recordFailureCounter_settles (counterKey lockKey : String) (threshold windowSeconds lockSeconds : Int) :
    Settles (recordFailureCounter counterKey lockKey threshold windowSeconds lockSeconds) := by
  have hlock : ∀ updated : Int, Settles
      (if 0 < threshold ∧ threshold ≤ updated then request (.setEx lockKey lockSeconds) else pure () : LimitProg Unit) := by
    intro updated
    split
    · exact settles_request trivial
    · exact rfl
  refine Protocol.wp_await rfl (fun updated b _ => ?_) fun e b _ => rfl
  change wp machine _ _ (next none ⟨.incr counterKey, .ok updated, b⟩)
  by_cases hn : updated = 1
  · have hnext : next none ⟨.incr counterKey, .ok updated, b⟩ = some counterKey := if_pos hn
    rw [hnext, if_pos hn]
    exact expire_settles (hlock updated)
  · have hnext : next none ⟨.incr counterKey, .ok updated, b⟩ = none := if_neg hn
    rw [hnext, if_neg hn]
    exact settles_bind (show Settles (pure ()) from rfl) fun _ => hlock updated

theorem raiseIfLocked_settles (key : String) : Settles (raiseIfLocked key) :=
  settles_bind (settles_request trivial) fun _ => settles_of_uses (Program.uses_raiseIf _ _)

theorem recordFailureWithRedis_settles (redis : RedisHandle) (kind : FailureKind) (key : String) :
    Settles (recordFailureWithRedis redis kind key) :=
  settles_bind (settles_request trivial) fun _ => settles_bind (settles_request trivial) fun _ =>
    settles_bind (settles_request trivial) fun _ => recordFailureCounter_settles _ _ _ _ _

theorem bestEffortClear_settles {callback : LimitProg Unit} (hc : Settles callback) : Settles (bestEffortClear callback) := by
  refine settles_bind (settles_attempt (settles_request trivial)) fun client => ?_
  split
  · exact rfl
  · exact rfl
  · exact settles_tryExcept hc fun _ => rfl

theorem recordSuccessWithRedis_settles (redis : RedisHandle) (kind : FailureKind) (key : String) :
    Settles (recordSuccessWithRedis redis kind key) :=
  settles_bind (settles_request trivial) fun _ => settles_request trivial

theorem program_settles (redis : RedisHandle) (op : LimitOp) : Settles (op.program redis) := by
  cases op with
  | enforceUploadLimits r => exact withRedisFallback_settles (settles_request trivial) (enforceWithRedis_settles redis r)
  | auth call =>
    cases call with
    | enforceLoginAttempt ipKey loginKey =>
      refine withRedisFallback_settles (settles_request trivial) ?_
      exact settles_bind (raiseIfLocked_settles _) fun _ => settles_bind (settles_request trivial) fun _ =>
        enforceRpmCounter_settles _ _ _
    | enforceRegistrationAttempt ipKey =>
      refine withRedisFallback_settles (settles_request trivial) ?_
      exact settles_bind (settles_request trivial) fun _ => enforceRpmCounter_settles _ _ _
    | recordLoginFailure | recordApiKeyFailure | recordAdminDenial =>
      exact withRedisFallback_settles (settles_request trivial) (recordFailureWithRedis_settles _ _ _)
    | recordLoginSuccess | recordApiKeySuccess =>
      exact settles_bind (settles_request trivial) fun _ => bestEffortClear_settles (recordSuccessWithRedis_settles _ _ _)
    | enforceApiKeyAttempt | enforceAdminAttempt =>
      exact withRedisFallback_settles (settles_request trivial) (raiseIfLocked_settles _)

/-! ## Keys without an expiry -/

/-- The key is gone, or will be. -/
def Mortal (w : LimiterWorld) (key : String) : Prop := ∀ e, w.keys key = some e → e.expiresAt ≠ none

variable {w : LimiterWorld} {key : String}

theorem mortal_setKey {key' : String} {e : Option Entry} (h : Mortal w key)
    (he : key' = key → ∀ e', e = some e' → e'.expiresAt ≠ none) : Mortal (w.setKey key' e) key := by
  intro e' hfound
  by_cases hkey : key = key'
  · subst hkey
    simp only [setKey_keys, put_self] at hfound
    exact he rfl e' hfound
  · rw [setKey_keys, put_of_ne hkey] at hfound
    exact h e' hfound

theorem mortal_of_find? (hkey : Mortal w key) {e : Entry} (he : w.find? key = some e) : e.expiresAt ≠ none :=
  hkey e (Option.filter_eq_some_iff.mp he).1

/-- Only the two increments make a key that lives for ever. -/
theorem limitExec_mortal {r : LimitReq} (hr : CreatesNothing r) (h : Mortal w key) : Mortal (limitExec r w).2 key := by
  cases r with
  | incr | hincrby => exact hr.elim
  | expire key' seconds =>
    simp only [limitExec, LimiterWorld.expire]
    split
    · exact h
    · split
      · exact mortal_setKey h fun _ _ he => by cases he
      · exact mortal_setKey h fun _ _ he => by obtain rfl := Option.some.inj he; simp
  | setEx key' seconds =>
    simp only [limitExec, LimiterWorld.setEx]
    split
    · exact h
    · exact mortal_setKey h fun _ _ he => by obtain rfl := Option.some.inj he; simp
  | delete key' => exact mortal_setKey h fun _ _ he => by cases he
  | hdel key' names =>
    simp only [limitExec, LimiterWorld.hdel]
    split
    · exact h
    · rename_i hfind
      refine mortal_setKey h fun hkey e he => ?_
      subst hkey
      split at he
      · cases he
      · obtain rfl := Option.some.inj he
        have hlives := mortal_of_find? h hfind
        exact hlives
    · exact h
  | time | getValue | getClient | markFailure | markSuccess | get | hgetall | memoryUpload | memoryAuth =>
    intro e he
    rw [limitExec_keys (by simp [LimitReq.writes])] at he
    exact h e he

/-- An increment of a key that is there keeps its expiry. -/
theorem limitExec_mortal_of_found {r : LimitReq} (h : Mortal w key)
    (hfound : r.writes = some key → w.find? key ≠ none) : Mortal (limitExec r w).2 key := by
  by_cases hr : CreatesNothing r
  · exact limitExec_mortal hr h
  by_cases hw : r.writes = some key
  swap
  · intro e he
    rw [limitExec_keys hw] at he
    exact h e he
  obtain ⟨⟨value, expiresAt⟩, he⟩ := Option.ne_none_iff_exists'.mp (hfound hw)
  have hlives : expiresAt ≠ none := mortal_of_find? h he
  cases r with
  | incr key' =>
    obtain rfl : key' = key := Option.some.inj hw
    cases value with
    | string n =>
      simp only [limitExec, LimiterWorld.incr, he]
      exact mortal_setKey h fun _ e he => by obtain rfl := Option.some.inj he; exact hlives
    | hash fields => simp only [limitExec, LimiterWorld.incr, he]; exact h
  | hincrby key' field amount =>
    obtain rfl : key' = key := Option.some.inj hw
    cases value with
    | hash fields =>
      simp only [limitExec, LimiterWorld.hincrby, he]
      exact mortal_setKey h fun _ e he => by obtain rfl := Option.some.inj he; exact hlives
    | string n => simp only [limitExec, LimiterWorld.hincrby, he]; exact h
  | _ => exact (hr trivial).elim

/-- After an `EXPIRE` that goes through its key has an expiry, or is gone. -/
theorem limitExec_expire_mortal (key : String) (seconds : Int) (w : LimiterWorld) :
    Mortal (limitExec (.expire key seconds) w).2 key := by
  by_cases h : Mortal w key
  · exact limitExec_mortal trivial h
  have hfound : ∃ e, w.find? key = some e := by
    simp only [Mortal, not_forall, not_not] at h
    obtain ⟨e, he, hnone⟩ := h
    exact ⟨e, Option.filter_eq_some_iff.mpr ⟨he, by rw [hnone]; rfl⟩⟩
  obtain ⟨e, he⟩ := hfound
  intro e' he'
  simp only [limitExec, LimiterWorld.expire, he] at he'
  split at he' <;> simp only [setKey_keys, put_self] at he'
  · cases he'
  · obtain rfl := Option.some.inj he'
    simp

/-! ## Every run -/

/-- A call that fails leaves no key behind without an expiry: it is not the `EXPIRE` of a
    key that has none, nor an increment whose reply is lost, of a key that is not there. -/
def FailsSafely (p : LimiterSite) (_ : Nat) (r : LimitReq) : Option LimiterExc → Prop
  | none => True
  | some e =>
    match r with
    | .expire key _ => e = .timeout ∨ Mortal p.world key
    | .incr key | .hincrby key _ _ => e = .timeout → p.world.find? key ≠ none
    | _ => True

instance (w : LimiterWorld) (key : String) : Decidable (Mortal w key) :=
  match he : w.keys key with
  | none => .isTrue fun e h => by rw [he] at h; cases h
  | some e => decidable_of_iff (e.expiresAt ≠ none)
      ⟨fun h e' h' => by rw [he] at h'; exact Option.some.inj h' ▸ h, fun h => h e he⟩

instance (p : LimiterSite) (i : Nat) (r : LimitReq) (fault : Option LimiterExc) : Decidable (FailsSafely p i r fault) := by
  unfold FailsSafely
  repeat' split
  all_goals infer_instance

/-- No method is running: each has not begun, or has come to its end. -/
def Idle (p : LimiterSite) : Prop := ∀ t ∈ p.tasks, t.log.isEmpty = true ∨ t.rest.finished = true

instance (p : LimiterSite) : Decidable (Idle p) :=
  inferInstanceAs (Decidable (∀ t ∈ p.tasks, t.log.isEmpty = true ∨ t.rest.finished = true))

/-- A key that lives for ever after a command did so before, and the command was not its
    `EXPIRE`; or the command has created it. -/
theorem exec_immortal {r : LimitReq} (h : ¬Mortal (limitExec r w).2 key) :
    (¬Mortal w key ∧ ∀ seconds, r ≠ .expire key seconds) ∨
      ¬CreatesNothing r ∧ r.writes = some key ∧ w.find? key = none := by
  have hexpire : ∀ seconds, r ≠ .expire key seconds := by
    rintro seconds rfl
    exact h (limitExec_expire_mortal key seconds w)
  by_cases hr : CreatesNothing r
  · exact .inl ⟨fun hm => h (limitExec_mortal hr hm), hexpire⟩
  by_cases hfound : r.writes = some key → w.find? key ≠ none
  · exact .inl ⟨fun hm => h (limitExec_mortal_of_found hm hfound), hexpire⟩
  · simp only [not_forall, not_not] at hfound
    obtain ⟨hw, hnone⟩ := hfound
    exact .inr ⟨hr, hw, hnone⟩

/-- A command that creates a key says so. -/
theorem next_created {r : LimitReq} {b : Bool} (hr : ¬CreatesNothing r) (hw : r.writes = some key)
    (hnone : w.find? key = none) : next none ⟨r, (limitExec r w).1, b⟩ = some key := by
  cases r with
  | incr key' =>
    obtain rfl : key' = key := Option.some.inj hw
    have hone : (limitExec (.incr key') w).1 = .ok 1 := by simp only [limitExec, LimiterWorld.incr, hnone]
    rw [hone]
    rfl
  | hincrby key' field amount =>
    obtain rfl : key' = key := Option.some.inj hw
    have hok : (limitExec (.hincrby key' field amount) w).1 = .ok amount := by
      simp only [limitExec, LimiterWorld.hincrby, hnone]
    rw [hok]
    rfl
  | _ => exact (hr trivial).elim

theorem call_immortal {p : LimiterSite} {i : Nat} {r : LimitReq} {fault : Option LimiterExc}
    (hC : FailsSafely p i r fault) (h : ¬Mortal (limitBackend.answer i r fault p.world).2 key) :
    (¬Mortal p.world key ∧ ∀ seconds, r ≠ .expire key seconds) ∨
      ¬CreatesNothing r ∧ next none ⟨r, (limitBackend.answer i r fault p.world).1, fault.isSome⟩ = some key := by
  rcases limitAnswer_cases i r fault p.world with ha | ⟨e, rfl, ha⟩
  · rw [ha] at h ⊢
    rcases exec_immortal h with hbefore | ⟨hr, hw, hnone⟩
    · exact .inl hbefore
    · exact .inr ⟨hr, next_created hr hw hnone⟩
  left
  rw [ha] at h
  by_cases he : e = .timeout
  · subst he
    rw [if_pos rfl] at h
    rcases exec_immortal h with hbefore | ⟨hr, hw, hnone⟩
    · exact hbefore
    · cases r with
      | incr key' => obtain rfl : key' = key := Option.some.inj hw; exact (hC rfl hnone).elim
      | hincrby key' field amount => obtain rfl : key' = key := Option.some.inj hw; exact (hC rfl hnone).elim
      | _ => exact (hr trivial).elim
  · rw [if_neg he] at h
    refine ⟨h, ?_⟩
    rintro seconds rfl
    exact hC.elim he h

/-- A debt stays until its `EXPIRE`. -/
theorem next_owed {e : LimitCall} (hcan : expiring.can (some key) e.req) (hr : ∀ seconds, e.req ≠ .expire key seconds) :
    next (some key) e = some key := by
  obtain ⟨r, x, b⟩ := e
  cases r with
  | incr | hincrby => cases hcan
  | expire key' seconds =>
    refine if_neg fun hkey => hr seconds ?_
    rw [Option.some.inj hkey]
  | _ => rfl

/-- Every key that lives for ever is owed its expiry by a method. -/
structure Inv (p : LimiterSite) : Prop where
  follows : p.Follows (fun _ => expiring) (fun _ => True) (fun _ _ g => g = none) fun _ => none
  owed : ∀ key, ¬Mortal p.world key → ∃ i, p.seen next none i = some key

theorem inv_call {p : LimiterSite} {i : Nat} {t : Task LimitReply LimiterExc Unit} {r : LimitReq}
    {k : Except LimiterExc (LimitReply r) → LimitProg Unit} {fault : Option LimiterExc} (h : Inv p)
    (ht : p.tasks[i]? = some t) (hr : t.rest = .call r k) (hC : FailsSafely p i r fault) :
    Inv (p.advance limitBackend i t r k fault) := by
  refine ⟨h.follows.advance ht hr trivial, fun key hkey => ?_⟩
  have hcan : expiring.can (p.seen next none i) r := by
    rw [Pool.seen_eq ht]
    exact h.follows.can ht hr
  rcases call_immortal hC hkey with ⟨hbefore, hr'⟩ | ⟨hcreates, hnew⟩
  · obtain ⟨j, hj⟩ := h.owed key hbefore
    refine ⟨j, ?_⟩
    by_cases hji : j = i
    · subst hji
      rw [Pool.seen_advance_self ht, hj]
      rw [hj] at hcan
      exact next_owed hcan hr'
    · rw [Pool.seen_advance_of_ne hji]
      exact hj
  · refine ⟨i, ?_⟩
    rw [Pool.seen_advance_self ht]
    have hfree : p.seen next none i = none := by
      cases r with
      | incr | hincrby => exact hcan
      | _ => exact (hcreates trivial).elim
    rw [hfree]
    exact hnew

theorem inv_start {redis : RedisHandle} {ops : List LimitOp} (h : ∀ key, Mortal w key) :
    Inv (LimiterSite.start redis w ops) := by
  refine ⟨Pool.follows_start fun i q hq => ?_, fun key hkey => (hkey (h key)).elim⟩
  simp only [List.getElem?_map, Option.map_eq_some_iff] at hq
  obtain ⟨op, -, rfl⟩ := hq
  exact program_settles redis op

theorem inv_idle {p : LimiterSite} (h : Inv p) (hidle : Idle p) (key : String) : Mortal p.world key := by
  by_contra hkey
  obtain ⟨i, hi⟩ := h.owed key hkey
  rcases ht : p.tasks[i]? with _ | t
  · rw [Pool.seen, ht] at hi; cases hi
  rcases hidle t (List.mem_of_getElem? ht) with hlog | hdone
  · rw [Pool.seen_eq ht, List.isEmpty_iff.mp hlog] at hi; cases hi
  · obtain ⟨x, hx⟩ := Option.isSome_iff_exists.mp hdone
    have hsettled := h.follows.done ht hx
    rw [Pool.seen_eq ht] at hi
    exact Option.some_ne_none key (hi.symm.trans hsettled)

/-- A key with an expiry is not found any more once enough time has passed. -/
theorem mortal_runs_out (h : Mortal w key) : ∃ d, ∀ d' ≥ d, (limitBackend.elapse d' w).find? key = none := by
  rcases he : w.keys key with _ | e
  · exact ⟨0, fun d _ => by simp only [LimiterWorld.find?, limitBackend, he, Option.filter_none]⟩
  obtain ⟨expiry, hexpiry⟩ := Option.ne_none_iff_exists'.mp (h e he)
  refine ⟨(expiry - w.clock).toNat, fun d hd => ?_⟩
  have hpast : ¬w.clock + d < expiry := by omega
  simp only [LimiterWorld.find?, limitBackend, he, Option.filter, hexpiry, Option.all_some, hpast, decide_false,
    Bool.false_eq_true, if_false]

/-- However the methods interleave, when none is running every key has an expiry, and its
    count returns to zero if it is left alone. -/
theorem every_counter_expires (redis : RedisHandle) (w : LimiterWorld) (ops : List LimitOp) (cs : List (Choice LimiterExc))
    (hstart : ∀ key, Mortal w key) (hC : (LimiterSite.start redis w ops).Meets limitBackend FailsSafely cs)
    (hidle : Idle ((LimiterSite.start redis w ops).run limitBackend cs)) (key : String) :
    Mortal ((LimiterSite.start redis w ops).run limitBackend cs).world key ∧
      ∃ d, ∀ d' ≥ d,
        (limitBackend.elapse d' ((LimiterSite.start redis w ops).run limitBackend cs).world).find? key = none := by
  have hinv : Inv ((LimiterSite.start redis w ops).run limitBackend cs) := by
    refine Pool.run_invariant (fun p d h => ?_) (fun p i t r k fault h ht hr hC => ?_) (inv_start hstart) hC
    · exact ⟨h.follows, h.owed⟩
    · exact inv_call h ht hr hC
  have hkey := inv_idle hinv hidle key
  exact ⟨hkey, mortal_runs_out hkey⟩

/-- Two methods of the two limiters, one of which loses Redis while it increments. -/
theorem a_lost_connection_leaves_no_key :
    Mortal ((LimiterSite.start ⟨"imghost"⟩ (.fresh fun _ => 2)
      [.auth (.recordLoginFailure "k"), .auth (.enforceRegistrationAttempt "ip"), .auth (.recordLoginFailure "k")]).run
        limitBackend
        (List.replicate 5 (.call 0 none) ++ List.replicate 4 (.call 1 none) ++
          [.call 1 (some (.redis "gone")), .call 1 none, .call 1 none] ++
          List.replicate 2 (.call 0 none) ++ List.replicate 7 (.call 2 none))).world "imghost:arl:fail:login:account:k" :=
  (every_counter_expires _ _ _ _ (fun _ _ h => by cases h) (by decide +kernel) (by decide +kernel) _).1

/-- A failed login is counted when Redis goes away before the `EXPIRE`: nothing runs any
    more, and the count stays for ever. -/
theorem a_failed_expire_leaves_an_immortal_count :
    let p := (LimiterSite.start ⟨"imghost"⟩ (.fresh fun _ => 2) [.auth (.recordLoginFailure "k")]).run limitBackend
      (List.replicate 5 (.call 0 none) ++ [.call 0 (some (.redis "gone")), .call 0 none, .call 0 none])
    Idle p ∧ ¬Mortal p.world "imghost:arl:fail:login:account:k" ∧
      ∀ d, ((limitBackend.elapse d p.world).find? "imghost:arl:fail:login:account:k").isSome = true := by
  refine ⟨by decide +kernel, by decide +kernel, fun d => ?_⟩
  rfl

end Imghost.Limits.Expiry
