/-
  Imghost.Limits.Denied — what a refused upload request costs.

  Both limiters count a request only once every counter has let it through, with two
  exceptions. In Redis an anonymous request is recorded in the actor's own counter
  before the counter of all anonymous actors is asked. In memory a counter that is asked
  for its minute drops what is older, bytes that its hour still counts among it.
-/

import Imghost.Limits.Admission
import Imghost.Limits.Alone
import Imghost.Limits.Windows

namespace Imghost.Limits.Denied

open Imghost.Async Imghost.Data Imghost.Model Imghost.Limits.Admission

/-! ## In memory -/

/-- The states a limiter reaches by calls at times that do not decrease. -/
inductive Reached : InMemoryRateLimiter → Int → Prop
  | start (last : Int) : Reached .empty last
  | call {s : InMemoryRateLimiter} {last now : Int} (config : LimitConfig) (r : UploadRequest) :
      Reached s last → last ≤ now → Reached (s.enforceUploadLimits config now r).2 now

theorem Reached.ordered {s : InMemoryRateLimiter} {last : Int} (h : Reached s last) : s.Ordered last := by
  induction h with
  | start last =>
    intro c
    cases c <;> exact ⟨List.Pairwise.nil, fun e he => by cases he⟩
  | call config r _ hnow ih => exact (InMemoryRateLimiter.enforceUploadLimits_call ih).ordered ih hnow

def requestsAt (now : Int) (counter : WindowCounter) : Nat := (counter.count now minuteSeconds).1
def bytesAt (now : Int) (counter : WindowCounter) : Nat := (counter.bytesUsed now hourSeconds).1

/-- Every counter counts the same requests of the minute and the same bytes of the hour. -/
def SameCounts (now : Int) (s s' : InMemoryRateLimiter) : Prop :=
  ∀ c, requestsAt now (s'.counter c) = requestsAt now (s.counter c) ∧
    bytesAt now (s'.counter c) = bytesAt now (s.counter c)

section

variable {config : LimitConfig} {last now : Int} {r : UploadRequest} {s s' : InMemoryRateLimiter}
  {verdict : Except PyExc Unit} {counter : WindowCounter}

theorem requestsAt_eq (h : counter.Ordered last) :
    requestsAt now counter = (eventsSince (now - minuteSeconds) counter.events).length :=
  congrArg List.length (Window.prune_eq_since h.1)

theorem bytesAt_eq (h : counter.Ordered last) : bytesAt now counter = bytesSince (now - hourSeconds) counter.events :=
  congrArg (fun events => (events.map Prod.snd).sum) (Window.prune_eq_since h.1)

/-- A refused request leaves the counts as they were exactly when no counter it has looked
    at drops bytes the hour still counts. -/
theorem sameCounts_iff (hordered : s.Ordered last) (hnow : last ≤ now)
    (hcall : InMemoryRateLimiter.Call config now r s verdict s') (hdenied : verdict.toBool = false) :
    SameCounts now s s' ↔ ∀ c ∈ consulted config now r s, NoOldBytes now (s.counter c) := by
  have hordered' := hcall.ordered hordered hnow
  have hkept : ∀ c ∈ consulted config now r s, requestsAt now (s'.counter c) = requestsAt now (s.counter c) ∧
      (bytesAt now (s'.counter c) = bytesAt now (s.counter c) ↔ NoOldBytes now (s.counter c)) := by
    intro c hc
    have hevents := hcall.kept c hc
    simp only [hdenied, Bool.false_eq_true, if_false, List.append_nil] at hevents
    rw [requestsAt_eq (hordered' c), requestsAt_eq (hordered c), bytesAt_eq (hordered' c), bytesAt_eq (hordered c), hevents]
    refine ⟨congrArg List.length (eventsSince_since le_rfl _), ?_⟩
    have hminute : bytesSince (now - hourSeconds) (eventsSince (now - minuteSeconds) (s.counter c).events) =
        bytesSince (now - minuteSeconds) (s.counter c).events := bytesSince_since (hour_le_minute now) _
    rw [hminute]
    exact Window.load_eq_iff (hour_le_minute now)
  constructor
  · intro hsame c hc
    exact (hkept c hc).2.mp (hsame c).2
  · intro hold c
    by_cases hc : c ∈ consulted config now r s
    · exact ⟨(hkept c hc).1, (hkept c hc).2.mpr (hold c hc)⟩
    · rw [hcall.untouched c hc]
      exact ⟨rfl, rfl⟩

end

/-! ## In Redis -/

/-- The keys hold what the limiter writes. -/
def WellTyped (redis : RedisHandle) (minuteBucket : Int) (w : LimiterWorld) : Prop :=
  ∀ scope, NoHash (requestsKey redis scope minuteBucket) w ∧ BytesKey (bytesKey redis scope) w

/-- Every scope counts the same requests of the minute and the same bytes of the hour. -/
def SameRedisCounts (redis : RedisHandle) (minuteBucket : Int) (w w' : LimiterWorld) : Prop :=
  ∀ scope, numberAt (requestsKey redis scope minuteBucket) w' = numberAt (requestsKey redis scope minuteBucket) w ∧
    byteLevel minuteBucket (bytesKey redis scope) w' = byteLevel minuteBucket (bytesKey redis scope) w

/-- What a counter refuses that stands at `count` requests and `bytes` bytes. -/
def Refuses (limits : UploadLimits) (count bytes : Int) (byteCount : Nat) : Prop :=
  (0 < limits.rpm ∧ limits.rpm ≤ count) ∨ 0 < limits.bph ∧ limits.bph < bytes + byteCount

/-- The counter of a scope refuses the request now. -/
def RefusesNow (redis : RedisHandle) (minuteBucket : Int) (scope : String) (limits : UploadLimits) (byteCount : Nat)
    (w : LimiterWorld) : Prop :=
  Refuses limits (numberAt (requestsKey redis scope minuteBucket) w) (byteLevel minuteBucket (bytesKey redis scope) w)
    byteCount

/-- Only keys have changed, and only one that holds bytes, by stale fields. -/
structure Dropped (minuteBucket : Int) (bytes : String) (w w' : LimiterWorld) : Prop where
  rest : w' = { w with keys := w'.keys }
  others : ∀ key, key ≠ bytes → w'.keys key = w.keys key
  level : byteLevel minuteBucket bytes w' = byteLevel minuteBucket bytes w
  typed : BytesKey bytes w'

section

variable {redis : RedisHandle} {minuteBucket : Int} {w w' : LimiterWorld} {key bytes scope : String} {byteCount : Nat}

theorem find?_congr (hrest : w' = { w with keys := w'.keys }) (hkey : w'.keys key = w.keys key) :
    w'.find? key = w.find? key := by
  have hclock : w'.clock = w.clock := by rw [hrest]
  simp only [LimiterWorld.find?, hkey, hclock]

theorem numberAt_congr (h : w'.find? key = w.find? key) : numberAt key w' = numberAt key w := by
  simp only [numberAt, h]

theorem dropped_refl (h : BytesKey bytes w) : Dropped minuteBucket bytes w w := ⟨rfl, fun _ _ => rfl, rfl, h⟩

theorem Dropped.sameCounts (h : Dropped minuteBucket (bytesKey redis scope) w w') :
    SameRedisCounts redis minuteBucket w w' := by
  intro scope'
  refine ⟨numberAt_congr (find?_congr h.rest (h.others _ (requestsKey_ne_bytesKey _ _))), ?_⟩
  by_cases hscope : bytesKey redis scope' = bytesKey redis scope
  · rw [hscope]
    exact h.level
  · exact byteLevel_congr (find?_congr h.rest (h.others _ hscope))

theorem Dropped.wellTyped (h : Dropped minuteBucket (bytesKey redis scope) w w') (hw : WellTyped redis minuteBucket w) :
    WellTyped redis minuteBucket w' := by
  intro scope'
  constructor
  · intro fields x
    rw [find?_congr h.rest (h.others _ (requestsKey_ne_bytesKey _ _))]
    exact (hw scope').1 fields x
  · by_cases hscope : bytesKey redis scope' = bytesKey redis scope
    · rw [hscope]
      exact h.typed
    · intro e he
      rw [h.others _ hscope] at he
      exact (hw scope').2 e he

theorem alone_checkRequests (h : NoHash key w) (rpm : Int) : alone (checkRequests key rpm) w =
    (if 0 < rpm ∧ rpm ≤ numberAt key w then .error (.py tooManyRequests) else .ok (), w) := by
  unfold checkRequests
  by_cases hrpm : 0 < rpm
  · obtain ⟨v, hget, hv, -⟩ := alone_get h
    rw [if_pos hrpm, alone_bind_of_ok hget, alone_raiseIf, hv]
    simp only [hrpm, true_and, decide_eq_true_eq]
  · simp only [hrpm, if_false, false_and, alone_pure]

theorem alone_hgetall (h : BytesKey key w) : ∃ fields, alone (request (.hgetall key)) w = (.ok fields, w) ∧
    totalBytes minuteBucket fields = byteLevel minuteBucket key w := by
  have hok : ∃ fields, (limitExec (.hgetall key) w).1 = .ok fields := by
    simp only [limitExec, LimiterWorld.hgetall]
    split
    · exact ⟨_, rfl⟩
    · exact ⟨_, rfl⟩
    · rename_i hfind
      obtain ⟨fields, hvalue, -⟩ := h _ (Option.filter_eq_some_iff.mp hfind).1
      cases hvalue
  obtain ⟨fields, hfields⟩ := hok
  refine ⟨fields, ?_, hgetall_eq_byteLevel hfields⟩
  rw [alone_request]
  exact Prod.ext hfields rfl

theorem alone_dropStale (h : BytesKey bytes w) (fields : List (Int × Int)) :
    ∃ w', alone (dropStale bytes minuteBucket fields) w = (.ok (), w') ∧ Dropped minuteBucket bytes w w' := by
  unfold dropStale
  split
  · exact ⟨w, rfl, dropped_refl h⟩
  have hstale : ∀ f ∈ staleFields minuteBucket fields, f < minuteBucket - 59 := by
    intro f hf
    obtain ⟨entry, hentry, rfl⟩ := List.mem_map.mp hf
    exact of_decide_eq_true (List.mem_filter.mp hentry).2
  obtain ⟨htyped, hlevel⟩ := @bytesKey_exec _ _ _ [] 0 _ h
    (show bytesOnly minuteBucket bytes [] 0 (.hdel bytes (staleFields minuteBucket fields)) from
      fun _ => .inl ⟨_, hstale, rfl⟩)
  refine ⟨_, (alone_request _ w).trans (Prod.ext ?_ rfl), ?_, fun key hkey => limitExec_keys ?_, ?_, htyped⟩
  · simp only [limitExec, LimiterWorld.hdel]
    split
    · rfl
    · rfl
    · rename_i hfind
      obtain ⟨fields, hvalue, -⟩ := h _ (Option.filter_eq_some_iff.mp hfind).1
      cases hvalue
  · simp only [limitExec, LimiterWorld.hdel]
    split <;> rfl
  · exact fun hw => hkey (Option.some.inj hw).symm
  · exact hlevel.trans (Int.add_zero _)

theorem alone_checkBytes (h : BytesKey bytes w) (bph : Int) : ∃ w',
    alone (checkBytes bytes bph minuteBucket byteCount) w =
      (if 0 < bph ∧ bph < byteLevel minuteBucket bytes w + byteCount then .error (.py tooManyBytes) else .ok (), w') ∧
    Dropped minuteBucket bytes w w' := by
  unfold checkBytes
  by_cases hbph : 0 < bph
  · obtain ⟨fields, hget, htotal⟩ := @alone_hgetall minuteBucket _ _ h
    obtain ⟨w', hdrop, hdropped⟩ := @alone_dropStale minuteBucket _ _ h fields
    refine ⟨w', ?_, hdropped⟩
    rw [if_pos hbph, alone_bind_of_ok hget, alone_bind_of_ok hdrop, alone_raiseIf, htotal]
    simp only [hbph, true_and, decide_eq_true_eq]
  · refine ⟨w, ?_, dropped_refl h⟩
    simp only [hbph, if_false, false_and, alone_pure]

/-- A counter that refuses changes no count; one that does not records the request. -/
theorem alone_enforceCounter_of_refuses {limits : UploadLimits} (hw : WellTyped redis minuteBucket w)
    (hrefuses : RefusesNow redis minuteBucket scope limits byteCount w) : ∃ e w',
    alone (RedisRateLimiter.enforceCounter redis scope minuteBucket limits byteCount) w = (.error (.py e), w') ∧
      Dropped minuteBucket (bytesKey redis scope) w w' := by
  unfold RedisRateLimiter.enforceCounter
  have hrequests := alone_checkRequests (hw scope).1 limits.rpm
  by_cases hcount : 0 < limits.rpm ∧ limits.rpm ≤ numberAt (requestsKey redis scope minuteBucket) w
  · rw [if_pos hcount] at hrequests
    exact ⟨tooManyRequests, w, alone_bind_of_error hrequests, dropped_refl (hw scope).2⟩
  · rw [if_neg hcount] at hrequests
    obtain ⟨w', hbytes, hdropped⟩ := @alone_checkBytes minuteBucket _ _ byteCount
      (hw scope).2 limits.bph
    rw [if_pos (hrefuses.resolve_left hcount)] at hbytes
    refine ⟨tooManyBytes, w', ?_, hdropped⟩
    rw [alone_bind_of_ok hrequests, alone_bind_of_error hbytes]

/-- A command keeps the keys well typed if it does so with the one it writes. -/
theorem wellTyped_setKey {e : Option Entry} (hw : WellTyped redis minuteBucket w)
    (hrequests : ∀ scope, requestsKey redis scope minuteBucket = key → ∀ fields x, e ≠ some ⟨.hash fields, x⟩)
    (hbytes : ∀ scope, bytesKey redis scope = key → BytesKey key (w.setKey key e)) :
    WellTyped redis minuteBucket (w.setKey key e) := by
  intro scope
  constructor
  · intro fields x hfind
    by_cases hkey : requestsKey redis scope minuteBucket = key
    · rw [hkey, find?_setKey_self] at hfind
      exact hrequests scope hkey fields x (Option.filter_eq_some_iff.mp hfind).1
    · rw [find?_setKey_of_ne hkey] at hfind
      exact (hw scope).1 fields x hfind
  · by_cases hkey : bytesKey redis scope = key
    · rw [hkey]
      exact hbytes scope hkey
    · intro e he
      rw [setKey_keys, put_of_ne hkey] at he
      exact (hw scope).2 e he

theorem wellTyped_setNumber {n : Int} {x : Option Int} (hw : WellTyped redis minuteBucket w) :
    WellTyped redis minuteBucket (w.setKey (requestsKey redis scope minuteBucket) (some ⟨.string n, x⟩)) :=
  wellTyped_setKey hw (fun _ _ _ _ h => by cases h) fun _ h => (requestsKey_ne_bytesKey _ _ h.symm).elim

/-- The commands on the bytes keep the keys well typed, and leave the request counters alone. -/
theorem wellTyped_bytes {r : LimitReq} (hw : WellTyped redis minuteBucket w) (hkey : r.writes = some (bytesKey redis scope))
    (hr : bytesOnly minuteBucket (bytesKey redis scope) [byteCount] 0 r) :
    WellTyped redis minuteBucket (limitExec r w).2 ∧ ∀ scope',
      (limitExec r w).2.find? (requestsKey redis scope' minuteBucket) = w.find? (requestsKey redis scope' minuteBucket) := by
  have hothers : ∀ key, key ≠ bytesKey redis scope → (limitExec r w).2.keys key = w.keys key := by
    intro key hne
    refine limitExec_keys ?_
    rw [hkey]
    exact fun h => hne (Option.some.inj h).symm
  have hfind : ∀ scope', (limitExec r w).2.find? (requestsKey redis scope' minuteBucket) =
      w.find? (requestsKey redis scope' minuteBucket) := by
    intro scope'
    simp only [LimiterWorld.find?, hothers _ (requestsKey_ne_bytesKey scope' scope), limitExec_clock]
  refine ⟨fun scope' => ⟨fun fields x => ?_, ?_⟩, hfind⟩
  · rw [hfind]
    exact (hw scope').1 fields x
  · by_cases hscope : bytesKey redis scope' = bytesKey redis scope
    · rw [hscope]
      exact (bytesKey_exec (hw scope).2 hr).1
    · intro e he
      rw [hothers _ hscope] at he
      exact (hw scope').2 e he

theorem alone_hincrby (h : BytesKey bytes w) : ∃ total,
    alone (request (.hincrby bytes minuteBucket byteCount)) w =
      (.ok total, (limitExec (.hincrby bytes minuteBucket byteCount) w).2) := by
  rw [alone_request]
  have hok : ∃ total, (limitExec (.hincrby bytes minuteBucket byteCount) w).1 = .ok total := by
    simp only [limitExec, LimiterWorld.hincrby]
    split
    · exact ⟨_, rfl⟩
    · exact ⟨_, rfl⟩
    · rename_i hfind
      obtain ⟨fields, hvalue, -⟩ := h _ (Option.filter_eq_some_iff.mp hfind).1
      cases hvalue
  obtain ⟨total, htotal⟩ := hok
  exact ⟨total, Prod.ext htotal rfl⟩

/-- Recording counts one request more, and keeps the keys well typed. -/
theorem alone_record (hw : WellTyped redis minuteBucket w) : ∃ w',
    alone (record (requestsKey redis scope minuteBucket) (bytesKey redis scope) minuteBucket byteCount) w = (.ok (), w') ∧
      WellTyped redis minuteBucket w' ∧
      numberAt (requestsKey redis scope minuteBucket) w' = numberAt (requestsKey redis scope minuteBucket) w + 1 := by
  have hincr := alone_incr (hw scope).1
  have hexpire := @alone_expire_incremented w (requestsKey redis scope minuteBucket) 120 (by decide)
  have hcounted : WellTyped redis minuteBucket (w.setKey (requestsKey redis scope minuteBucket)
      (some ⟨.string (numberAt (requestsKey redis scope minuteBucket) w + 1), some (w.clock + 120 * second)⟩)) :=
    wellTyped_setNumber hw
  have hnumber : numberAt (requestsKey redis scope minuteBucket) (w.setKey (requestsKey redis scope minuteBucket)
      (some ⟨.string (numberAt (requestsKey redis scope minuteBucket) w + 1), some (w.clock + 120 * second)⟩)) =
        numberAt (requestsKey redis scope minuteBucket) w + 1 := by
    rw [numberAt, find?_setKey_later (by decide)]
  generalize w.setKey (requestsKey redis scope minuteBucket) (some ⟨.string (numberAt (requestsKey redis scope minuteBucket)
    w + 1), some (w.clock + 120 * second)⟩) = w₂ at hexpire hcounted hnumber
  obtain ⟨total, hbytes⟩ := @alone_hincrby minuteBucket _ _ byteCount (hcounted scope).2
  obtain ⟨htyped₃, hsame₃⟩ := @wellTyped_bytes _ _ _ scope byteCount
    (.hincrby (bytesKey redis scope) minuteBucket byteCount) hcounted rfl fun _ => .inr (.inl rfl)
  generalize (limitExec (.hincrby (bytesKey redis scope) minuteBucket byteCount) w₂).2 = w₃ at hbytes htyped₃ hsame₃
  obtain ⟨htyped₄, hsame₄⟩ := @wellTyped_bytes _ _ _ scope byteCount
    (.expire (bytesKey redis scope) 3720) htyped₃ rfl fun _ => .inr (.inr rfl)
  refine ⟨(limitExec (.expire (bytesKey redis scope) 3720) w₃).2, ?_, htyped₄, ?_⟩
  · unfold record
    rw [alone_bind_of_ok hincr, alone_bind_of_ok hexpire, alone_bind_of_ok hbytes, alone_request]
    rfl
  · rw [numberAt_congr ((hsame₄ scope).trans (hsame₃ scope)), hnumber]

theorem alone_enforceCounter_of_admits {limits : UploadLimits} (hw : WellTyped redis minuteBucket w)
    (hadmits : ¬RefusesNow redis minuteBucket scope limits byteCount w) : ∃ w',
    alone (RedisRateLimiter.enforceCounter redis scope minuteBucket limits byteCount) w = (.ok (), w') ∧
      WellTyped redis minuteBucket w' ∧
      numberAt (requestsKey redis scope minuteBucket) w' = numberAt (requestsKey redis scope minuteBucket) w + 1 := by
  obtain ⟨hcount, hroom⟩ := not_or.mp hadmits
  have hrequests := alone_checkRequests (hw scope).1 limits.rpm
  rw [if_neg hcount] at hrequests
  obtain ⟨w₁, hbytes, hdropped⟩ := @alone_checkBytes minuteBucket _ _ byteCount
    (hw scope).2 limits.bph
  rw [if_neg hroom] at hbytes
  obtain ⟨w₂, hrecord, htyped, hnumber⟩ := @alone_record _ _ _ scope byteCount (hdropped.wellTyped hw)
  refine ⟨w₂, ?_, htyped, ?_⟩
  · unfold RedisRateLimiter.enforceCounter
    rw [alone_bind_of_ok hrequests, alone_bind_of_ok hbytes, hrecord]
  · rw [hnumber, (hdropped.sameCounts scope).1]

end

/-! ## A refused request -/

section

variable {redis : RedisHandle} {w : LimiterWorld} {r : UploadRequest}

theorem alone_overrideOr {β : Type} (value : Option Int) (key : LimitKey) (f : Int → LimitProg β) (w : LimiterWorld) :
    alone (RedisRateLimiter.overrideOr value key >>= f) w = alone (f (value.getD (w.config key))) w := by
  cases value with
  | some value => rfl
  | none => exact alone_bind_of_ok (alone_request (.getValue key) w)

theorem alone_getValue {β : Type} (key : LimitKey) (f : Int → LimitProg β) (w : LimiterWorld) :
    alone (request (.getValue key) >>= f) w = alone (f (w.config key)) w := alone_bind_of_ok (alone_request (.getValue key) w)

theorem alone_enforceWithRedis_user (actorKey : String) (byteCount : Nat) (user : User) :
    alone (RedisRateLimiter.enforceWithRedis redis ⟨actorKey, byteCount, some user⟩) w =
      alone (RedisRateLimiter.enforceCounter redis (scopeOf (some user) actorKey) (bucketOf w.clock)
        (limitsOf w.config (some user)) byteCount) w := by
  unfold RedisRateLimiter.enforceWithRedis
  rw [alone_bind_of_ok (alone_request .time w)]
  dsimp only
  rw [alone_overrideOr, alone_overrideOr]
  rfl

theorem alone_enforceWithRedis_anon (actorKey : String) (byteCount : Nat) :
    alone (RedisRateLimiter.enforceWithRedis redis ⟨actorKey, byteCount, none⟩) w =
      alone (do
        RedisRateLimiter.enforceCounter redis (scopeOf none actorKey) (bucketOf w.clock) (limitsOf w.config none) byteCount
        RedisRateLimiter.enforceCounter redis "anon:global" (bucketOf w.clock) (globalAnonLimits w.config) byteCount) w := by
  unfold RedisRateLimiter.enforceWithRedis
  rw [alone_bind_of_ok (alone_request .time w)]
  dsimp only
  rw [alone_getValue, alone_getValue, alone_getValue, alone_getValue]
  rfl

/-- Redis's part of a request leaves the limiter in memory alone. -/
theorem uploads_enforceWithRedis : (alone (RedisRateLimiter.enforceWithRedis redis r) w).2.uploads = w.uploads := by
  have hcounter : ∀ scope minuteBucket limits, (RedisRateLimiter.enforceCounter redis scope minuteBucket limits
      r.byteCount).Uses fun req => req.fallsBack = false := by
    intro scope minuteBucket limits
    refine (enforceCounter_key scope limits r.byteCount).mono fun req hreq => ?_
    cases req <;> first | rfl | (rcases hreq with hreq | hreq <;> cases hreq)
  have hoverride : ∀ value key, (RedisRateLimiter.overrideOr value key).Uses fun req => req.fallsBack = false := by
    intro value key
    cases value with
    | some value => trivial
    | none => exact Program.uses_perform rfl
  have huses : (RedisRateLimiter.enforceWithRedis redis r).Uses fun req => req.fallsBack = false := by
    refine Program.uses_bind (Program.uses_perform rfl) fun now => ?_
    dsimp only
    split
    · exact Program.uses_bind (hoverride _ _) fun _ => Program.uses_bind (hoverride _ _) fun _ => hcounter _ _ _
    · exact Program.uses_bind (Program.uses_perform rfl) fun _ => Program.uses_bind (Program.uses_perform rfl) fun _ =>
        Program.uses_bind (Program.uses_perform rfl) fun _ => Program.uses_bind (Program.uses_perform rfl) fun _ =>
        Program.uses_bind (hcounter _ _ _) fun _ => hcounter _ _ _
  refine alone_invariant (I := fun w' => w'.uploads = w.uploads) (fun req w' hreq hw' => ?_) huses rfl
  exact (limitExec_uploads hreq).trans hw'

/-- With Redis available, a refused request leaves its counts as they were exactly when it
    is a user's, or is refused by the actor's own counter. -/
theorem sameRedisCounts_iff (hw : WellTyped redis (bucketOf w.clock) w) (havailable : Available w) {e : LimiterExc}
    (hdenied : (alone (RedisRateLimiter.enforceUploadLimits redis r) w).1 = .error e) :
    (alone (RedisRateLimiter.enforceUploadLimits redis r) w).2.uploads = w.uploads ∧
      (SameRedisCounts redis (bucketOf w.clock) w (alone (RedisRateLimiter.enforceUploadLimits redis r) w).2 ↔
        r.user.isSome = true ∨ RefusesNow redis (bucketOf w.clock) (scopeOf r.user r.actorKey)
          (limitsOf w.config r.user) r.byteCount w) := by
  have huploads := @uploads_enforceWithRedis redis w r
  obtain ⟨actorKey, byteCount, user⟩ := r
  by_cases hown : RefusesNow redis (bucketOf w.clock) (scopeOf user actorKey) (limitsOf w.config user) byteCount w
  · obtain ⟨e', w', hrefused, hdropped⟩ := alone_enforceCounter_of_refuses hw hown
    have hcallback : alone (RedisRateLimiter.enforceWithRedis redis ⟨actorKey, byteCount, user⟩) w =
        (.error (.py e'), w') := by
      cases user with
      | some user => rw [alone_enforceWithRedis_user]; exact hrefused
      | none => rw [alone_enforceWithRedis_anon]; exact alone_bind_of_error hrefused
    rw [hcallback] at huploads
    rw [RedisRateLimiter.enforceUploadLimits, alone_withRedisFallback_of_error havailable hcallback]
    exact ⟨huploads, iff_of_true hdropped.sameCounts (.inr hown)⟩
  obtain ⟨w₁, hrecorded, htyped, hnumber⟩ := alone_enforceCounter_of_admits hw hown
  cases user with
  | some user =>
    have hcallback := (@alone_enforceWithRedis_user redis _ actorKey byteCount user).trans hrecorded
    rw [RedisRateLimiter.enforceUploadLimits, alone_withRedisFallback_of_ok havailable hcallback] at hdenied
    cases hdenied
  | none =>
    have hanon := (@alone_enforceWithRedis_anon redis w actorKey byteCount).trans
      (alone_bind_of_ok hrecorded)
    by_cases hglobal : RefusesNow redis (bucketOf w.clock) "anon:global" (globalAnonLimits w.config) byteCount w₁
    · obtain ⟨e', w₂, hrefused, hdropped⟩ := alone_enforceCounter_of_refuses htyped hglobal
      rw [hanon.trans hrefused] at huploads
      rw [RedisRateLimiter.enforceUploadLimits, alone_withRedisFallback_of_error havailable (hanon.trans hrefused)]
      refine ⟨huploads, iff_of_false (fun hsame => ?_) fun h => h.elim nofun hown⟩
      have hcount := (hsame (scopeOf none actorKey)).1
      rw [(hdropped.sameCounts (scopeOf none actorKey)).1, hnumber] at hcount
      omega
    · obtain ⟨w₂, hall, -⟩ := alone_enforceCounter_of_admits htyped hglobal
      rw [RedisRateLimiter.enforceUploadLimits, alone_withRedisFallback_of_ok havailable (hanon.trans hall)] at hdenied
      cases hdenied

/-- Without Redis the limiter in memory decides. -/
theorem enforceUploadLimits_of_unavailable (h : ¬Available w) : alone (RedisRateLimiter.enforceUploadLimits redis r) w =
    (liftVerdict (w.uploads.enforceUploadLimits w.config w.clock r).1,
      { w with uploads := (w.uploads.enforceUploadLimits w.config w.clock r).2 }) := by
  rw [RedisRateLimiter.enforceUploadLimits, alone_withRedisFallback_of_unavailable h]
  exact alone_request _ w

theorem toBool_of_error {verdict : Except PyExc Unit} {e : LimiterExc} (h : liftVerdict verdict = .error e) :
    verdict.toBool = false := by
  cases verdict with
  | ok a => cases h
  | error e => rfl

/-- A refused request costs nothing exactly when, in memory, no counter it has looked at
    drops bytes the hour still counts, and in Redis it is a user's or is refused by the
    actor's own counter. -/
theorem denied_costs_nothing_iff (r : UploadRequest) :
    (∀ (config : LimitConfig) (s : InMemoryRateLimiter) (last now : Int) (e : PyExc),
      Reached s last → last ≤ now → (s.enforceUploadLimits config now r).1 = .error e →
      (SameCounts now s (s.enforceUploadLimits config now r).2 ↔
        ∀ c ∈ consulted config now r s, NoOldBytes now (s.counter c))) ∧
    ∀ (redis : RedisHandle) (w : LimiterWorld) (last : Int) (e : LimiterExc),
      WellTyped redis (bucketOf w.clock) w → Reached w.uploads last → last ≤ w.clock →
      (alone (RedisRateLimiter.enforceUploadLimits redis r) w).1 = .error e →
      (SameRedisCounts redis (bucketOf w.clock) w (alone (RedisRateLimiter.enforceUploadLimits redis r) w).2 ∧
          SameCounts w.clock w.uploads (alone (RedisRateLimiter.enforceUploadLimits redis r) w).2.uploads ↔
        if Available w then
          r.user.isSome = true ∨ RefusesNow redis (bucketOf w.clock) (scopeOf r.user r.actorKey)
            (limitsOf w.config r.user) r.byteCount w
        else ∀ c ∈ consulted w.config w.clock r w.uploads, NoOldBytes w.clock (w.uploads.counter c)) := by
  constructor
  · intro config s last now e hreached hnow hdenied
    refine sameCounts_iff hreached.ordered hnow (InMemoryRateLimiter.enforceUploadLimits_call hreached.ordered) ?_
    rw [hdenied]
    rfl
  · intro redis w last e hw hreached hnow hdenied
    by_cases havailable : Available w
    · obtain ⟨huploads, hiff⟩ := sameRedisCounts_iff hw havailable hdenied
      rw [if_pos havailable, huploads, ← hiff]
      exact and_iff_left fun c => ⟨rfl, rfl⟩
    · rw [if_neg havailable]
      rw [enforceUploadLimits_of_unavailable havailable] at hdenied ⊢
      have hmemory := sameCounts_iff hreached.ordered hnow
        (@InMemoryRateLimiter.enforceUploadLimits_call w.config _ _ r _ hreached.ordered)
        (toBool_of_error hdenied)
      rw [← hmemory]
      exact and_iff_right fun scope => ⟨rfl, rfl⟩

end

/-- A request of more bytes than the hour has left, in memory and in Redis. -/
theorem eleven_bytes_cost_nothing :
    (let s := (InMemoryRateLimiter.empty.enforceUploadLimits tenBytes 0 ⟨"ip", 6, none⟩).2
     SameCounts (30 * second) s (s.enforceUploadLimits tenBytes (30 * second) ⟨"ip", 11, none⟩).2) ∧
    SameRedisCounts ⟨""⟩ 0 (.fresh tenBytes)
      (alone (RedisRateLimiter.enforceUploadLimits ⟨""⟩ ⟨"ip", 11, none⟩) (.fresh tenBytes)).2 :=
  ⟨((denied_costs_nothing_iff ⟨"ip", 11, none⟩).1 tenBytes _ 0 (30 * second) tooManyBytes
      (.call tenBytes _ (.start 0) le_rfl) (by decide) (by decide +kernel)).mpr (by decide +kernel),
    (((denied_costs_nothing_iff ⟨"ip", 11, none⟩).2 ⟨""⟩ (.fresh tenBytes) 0 (.py tooManyBytes)
      (fun _ => ⟨fun _ _ h => (by cases h), fun _ h => (by cases h)⟩) (.start 0) le_rfl (by decide +kernel)).mpr
        (.inr (.inr (by decide +kernel)))).1⟩

/-- A hundred bytes an hour for one anonymous actor, ten for all of them. -/
def tenBytesForAll : LimitConfig := fun key => if key = .rateLimitGlobalAnonBph then 10 else 100

/-- In Redis the actor's counter has counted what the counter of all refuses; in memory a
    refused request takes the six bytes of a minute ago with it. -/
theorem refused_requests_change_counts :
    (let after := alone (RedisRateLimiter.enforceUploadLimits ⟨""⟩ ⟨"ip", 11, none⟩) (.fresh tenBytesForAll)
     after.1 = .error (.py tooManyBytes) ∧ numberAt "rl:req:anon:ip:0" (.fresh tenBytesForAll) = 0 ∧
        numberAt "rl:req:anon:ip:0" after.2 = 1 ∧ byteLevel 0 "rl:bytes:anon:ip" after.2 = 11) ∧
    (let s := (InMemoryRateLimiter.empty.enforceUploadLimits tenBytes 0 ⟨"ip", 6, none⟩).2
     let after := s.enforceUploadLimits tenBytes minuteSeconds ⟨"ip", 11, none⟩
     after.1 = .error tooManyBytes ∧ bytesAt minuteSeconds (s.counter (.anon "ip")) = 6 ∧
        bytesAt minuteSeconds (after.2.counter (.anon "ip")) = 0) := by
  decide +kernel

end Imghost.Limits.Denied
