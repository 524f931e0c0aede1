/-
  Imghost.Limits.HourlyBudget — the bytes an actor is let through in sixty minutes.

  The bytes of an actor stand in one hash, a field for each minute. A call adds up the
  fields of the last sixty, deletes the older ones, and raises the field of its own; the
  hash as a whole goes 3720 seconds after the last raise, when none of its fields counts
  any more. So at the time of a call the hash adds up to what the actor was let through
  (`Account`), as long as every call that its own counter records is let through. An
  anonymous call that the counter of all anonymous actors refuses has been recorded.
-/

import Imghost.Data.Events
import Imghost.Data.Tally
import Imghost.Limits.Denied

namespace Imghost.Limits.HourlyBudget

open Imghost.Async Imghost.Data Imghost.Model Imghost.Limits.Admission Imghost.Limits.Denied

variable {redis : RedisHandle} {scope actorKey key : String} {minuteBucket bph : Int} {w : LimiterWorld}

/-! ## Calls -/

/-- A call of `enforce_upload_limits`: its minute, its bytes, and what came of it. -/
structure Call where
  bucket : Int
  byteCount : Nat
  verdict : Except LimiterExc Unit
  deriving DecidableEq

def Call.bytesIn (first last : Int) (c : Call) : Int :=
  if c.verdict.isOk = true ∧ first ≤ c.bucket ∧ c.bucket ≤ last then c.byteCount else 0

/-- The bytes let through in the minutes from `first` to `last`. -/
def spent (first last : Int) (calls : List Call) : Int := tally (Call.bytesIn first last) calls

/-- No sixty minutes let more through than the limit, and only what exceeds the limit
    together with the last sixty minutes is refused for its bytes. -/
structure KeepsBudget (bph : Int) (calls : List Call) : Prop where
  bounded : ∀ first, spent first (first + 59) calls ≤ bph
  refused : ∀ before c after, calls = before ++ c :: after → c.verdict = .error (.py tooManyBytes) →
    bph < spent (c.bucket - 59) c.bucket before + c.byteCount

section

variable {calls : List Call} {c : Call} {first last first' last' : Int}

theorem spent_snoc : spent first last (calls ++ [c]) = spent first last calls + c.bytesIn first last := tally_snoc

theorem spent_eq_zero (h : ∀ c ∈ calls, c.bucket < first) : spent first last calls = 0 := by
  refine tally_eq_zero fun c hc => if_neg fun hin => ?_
  have hbefore := h c hc
  omega

/-- Minutes without calls add nothing. -/
theorem spent_le (h : ∀ c ∈ calls, c.bucket ≤ last') (hfirst : first' ≤ first) :
    spent first last calls ≤ spent first' last' calls := by
  refine List.sum_le_sum fun c hc => ?_
  have hlast := h c hc
  unfold Call.bytesIn
  split
  · rename_i hin
    rw [if_pos ⟨hin.1, hfirst.trans hin.2.1, hlast⟩]
  · split <;> omega

/-- A call that is let through with room for its bytes keeps the budget, and so does one
    that is refused for want of it. -/
theorem keepsBudget_snoc (h : KeepsBudget bph calls) (hpast : ∀ c' ∈ calls, c'.bucket ≤ c.bucket)
    (hadmitted : c.verdict.isOk = true → spent (c.bucket - 59) c.bucket calls + c.byteCount ≤ bph)
    (hrefused : c.verdict = .error (.py tooManyBytes) → bph < spent (c.bucket - 59) c.bucket calls + c.byteCount) :
    KeepsBudget bph (calls ++ [c]) := by
  constructor
  · intro first
    rw [spent_snoc]
    have hbounded := h.bounded first
    by_cases hin : c.verdict.isOk = true ∧ first ≤ c.bucket ∧ c.bucket ≤ first + 59
    · have hroom := hadmitted hin.1
      have hless : spent first (first + 59) calls ≤ spent (c.bucket - 59) c.bucket calls :=
        spent_le hpast (by omega)
      rw [Call.bytesIn, if_pos hin]
      omega
    · rw [Call.bytesIn, if_neg hin]
      omega
  · intro before c' after hsplit hbytes
    rcases split_snoc hsplit with ⟨rfl, rfl, -⟩ | ⟨after', -, hold⟩
    · exact hrefused hbytes
    · exact h.refused before c' after' hold hbytes

end

/-! ## Runs -/

/-- Redis, a limiter, and the calls of one actor so far. -/
structure Site where
  world : LimiterWorld
  calls : List Call

/-- A call, `later` than the one before, under the settings of its time. -/
structure Turn where
  later : Nat
  config : LimitConfig
  user : Option User
  byteCount : Nat

def Turn.arrives (t : Turn) (w : LimiterWorld) : LimiterWorld := { limitBackend.elapse t.later w with config := t.config }

def turn (redis : RedisHandle) (actorKey : String) (s : Site) (t : Turn) : Site :=
  let w := t.arrives s.world
  let answer := alone (RedisRateLimiter.enforceUploadLimits redis ⟨actorKey, t.byteCount, t.user⟩) w
  ⟨answer.2, s.calls ++ [⟨bucketOf w.clock, t.byteCount, answer.1⟩]⟩

/-- What the actor's own counter records is let through. -/
def LetsThrough (redis : RedisHandle) (w : LimiterWorld) (r : UploadRequest) : Prop :=
  r.user.isSome = true ∨
    RefusesNow redis (bucketOf w.clock) (scopeOf r.user r.actorKey) (limitsOf w.config r.user) r.byteCount w ∨
    r.actorKey ≠ "global" ∧
      ¬RefusesNow redis (bucketOf w.clock) "anon:global" (globalAnonLimits w.config) r.byteCount w

instance (redis : RedisHandle) (w : LimiterWorld) (r : UploadRequest) : Decidable (LetsThrough redis w r) := by
  unfold LetsThrough RefusesNow Refuses
  infer_instance

/-! ## Types -/

/-- In every minute the keys hold what the limiter writes. -/
def Typed (redis : RedisHandle) (w : LimiterWorld) : Prop := ∀ minuteBucket, WellTyped redis minuteBucket w

/-- The commands of a counter. -/
def CounterCommand (redis : RedisHandle) : LimitReq → Prop
  | .incr key => ∃ scope minuteBucket, key = requestsKey redis scope minuteBucket
  | .hincrby key _ amount => 0 ≤ amount ∧ ∃ scope, key = bytesKey redis scope
  | .expire _ _ | .hdel _ _ => True
  | r => r.writes = none

theorem typed_of_keys {w' : LimiterWorld} (h : Typed redis w) (hkeys : w'.keys = w.keys) (hclock : w'.clock = w.clock) :
    Typed redis w' := by
  intro minuteBucket scope
  obtain ⟨hrequests, hbytes⟩ := h minuteBucket scope
  refine ⟨fun fields x => ?_, fun e he => hbytes e (by rw [← hkeys]; exact he)⟩
  simp only [LimiterWorld.find?, hkeys, hclock]
  exact hrequests fields x

theorem typed_expire (h : Typed redis w) (key : String) (seconds : Int) : Typed redis (w.expire key seconds) := by
  intro minuteBucket
  unfold LimiterWorld.expire
  split
  · exact h minuteBucket
  · rename_i e hfind
    have hlive := (Option.filter_eq_some_iff.mp hfind).1
    split
    · exact wellTyped_setKey (h minuteBucket) (fun _ _ _ _ => nofun) fun _ _ => bytesKey_setKey nofun
    · refine wellTyped_setKey (h minuteBucket) (fun scope hscope fields x he => ?_) fun scope hscope => ?_
      · obtain ⟨value, x'⟩ := e
        obtain ⟨rfl, -⟩ := Entry.mk.inj (Option.some.inj he)
        subst hscope
        exact (h minuteBucket scope).1 _ _ hfind
      · subst hscope
        refine bytesKey_setKey fun e' he' => ?_
        obtain rfl := Option.some.inj he'
        exact (h minuteBucket scope).2 e hlive

theorem typed_hdel (h : Typed redis w) (key : String) (names : List Int) : Typed redis (w.hdel key names).2 := by
  intro minuteBucket
  unfold LimiterWorld.hdel
  split
  · exact h minuteBucket
  · rename_i fields x hfind
    refine wellTyped_setKey (h minuteBucket) (fun scope hscope => ?_) fun scope hscope => ?_
    · subst hscope
      exact ((h minuteBucket scope).1 _ _ hfind).elim
    · subst hscope
      obtain ⟨fields', hvalue, hpos⟩ := (h minuteBucket scope).2 _ (Option.filter_eq_some_iff.mp hfind).1
      obtain rfl := RedisValue.hash.inj hvalue
      refine bytesKey_setKey fun e he => ?_
      split at he
      · cases he
      · obtain rfl := Option.some.inj he
        exact ⟨_, rfl, fun f hf => hpos f (List.mem_of_mem_filter hf)⟩
  · exact h minuteBucket

theorem typed_incr (h : Typed redis w) (scope : String) (minuteBucket : Int) :
    Typed redis (w.incr (requestsKey redis scope minuteBucket)).2 := by
  intro minuteBucket'
  have hnumber : ∀ n x, WellTyped redis minuteBucket'
      (w.setKey (requestsKey redis scope minuteBucket) (some ⟨.string n, x⟩)) := by
    intro n x
    exact wellTyped_setKey (h minuteBucket') (fun _ _ _ _ => nofun) fun _ hkey =>
      (requestsKey_ne_bytesKey _ _ hkey.symm).elim
  unfold LimiterWorld.incr
  split
  · exact hnumber _ _
  · exact hnumber _ _
  · exact h minuteBucket'

theorem typed_hincrby (h : Typed redis w) (scope : String) (field : Int) {amount : Int} (hpos : 0 ≤ amount) :
    Typed redis (w.hincrby (bytesKey redis scope) field amount).2 := by
  intro minuteBucket
  have hhash : ∀ fields x, (∀ f ∈ fields.rows, 0 ≤ f.2) → WellTyped redis minuteBucket
      (w.setKey (bytesKey redis scope) (some ⟨.hash (LimiterWorld.addToField fields field amount), x⟩)) := by
    intro fields x hfields
    refine wellTyped_setKey (h minuteBucket) (fun _ hkey => (requestsKey_ne_bytesKey _ _ hkey).elim) fun _ _ =>
      bytesKey_setKey fun e he => ?_
    obtain rfl := Option.some.inj he
    exact ⟨_, rfl, addToField_nonneg hfields hpos⟩
  unfold LimiterWorld.hincrby
  split
  · exact hhash _ _ nofun
  · rename_i fields x hfind
    obtain ⟨fields', hvalue, hfields⟩ := (h minuteBucket scope).2 _ (Option.filter_eq_some_iff.mp hfind).1
    obtain rfl := RedisValue.hash.inj hvalue
    exact hhash _ _ hfields
  · exact h minuteBucket

theorem typed_exec {r : LimitReq} (hr : CounterCommand redis r) (h : Typed redis w) : Typed redis (limitExec r w).2 := by
  by_cases hw : r.writes = none
  · refine typed_of_keys h (funext fun key => limitExec_keys ?_) (limitExec_clock r w)
    rw [hw]
    exact nofun
  cases r with
  | incr key =>
    obtain ⟨scope, minuteBucket, rfl⟩ := hr
    exact typed_incr h scope minuteBucket
  | hincrby key field amount =>
    obtain ⟨hpos, scope, rfl⟩ := hr
    exact typed_hincrby h scope field hpos
  | expire key seconds => exact typed_expire h key seconds
  | hdel key names => exact typed_hdel h key names
  | _ => exact (hw hr).elim

/-! ## The account of an actor -/

/-- From now on the key stands at what the ledger says, and it goes when that is nothing. -/
structure Account (key : String) (ledger : Int → Int) (w : LimiterWorld) : Prop where
  bytes : BytesKey key w
  level : ∀ b, bucketOf w.clock ≤ b → byteLevel b key w = ledger b
  lasts : ∀ e x, w.keys key = some e → e.expiresAt = some x → ∀ b, bucketOf x ≤ b → bucketOf w.clock ≤ b → ledger b = 0

/-- The ledger after `byteCount` more bytes. -/
def posted (minuteBucket : Int) (byteCount : Nat) (ledger : Int → Int) (b : Int) : Int :=
  ledger b + if minuteBucket < b - 59 then 0 else (byteCount : Int)

theorem bucketOf_mono {clock clock' : Int} (h : clock ≤ clock') : bucketOf clock ≤ bucketOf clock' := by
  unfold bucketOf second
  omega

/-- A key that expires outlasts every window with the bytes it was raised by. -/
theorem bucketOf_expiry (clock : Int) : bucketOf (clock + 3720 * second) = bucketOf clock + 62 := by
  unfold bucketOf second
  omega

section

variable {ledger ledger' : Int → Int} {byteCount : Nat} {limits : UploadLimits}

theorem Account.of_ledger (h : Account key ledger w) (hledger : ∀ b, bucketOf w.clock ≤ b → ledger' b = ledger b) :
    Account key ledger' w :=
  ⟨h.bytes, fun b hb => (h.level b hb).trans (hledger b hb).symm,
    fun e x he hx b hxb hb => (hledger b hb).trans (h.lasts e x he hx b hxb hb)⟩

theorem Account.of_key {w' : LimiterWorld} (h : Account key ledger w) (hkey : w'.keys key = w.keys key)
    (hclock : w'.clock = w.clock) : Account key ledger w' := by
  have hfind : w'.find? key = w.find? key := by simp only [LimiterWorld.find?, hkey, hclock]
  constructor
  · intro e he
    exact h.bytes e (hkey.symm.trans he)
  · intro b hb
    rw [byteLevel_congr hfind]
    exact h.level b (hclock ▸ hb)
  · intro e x he hx b hxb hb
    exact h.lasts e x (hkey.symm.trans he) hx b hxb (hclock ▸ hb)

theorem clock_le_arrives (t : Turn) (w : LimiterWorld) : w.clock ≤ (t.arrives w).clock := by
  show w.clock ≤ w.clock + t.later
  omega

/-- What is there later is there now. -/
theorem find?_of_arrives {t : Turn} {e : Entry} (h : (t.arrives w).find? key = some e) : w.find? key = some e := by
  obtain ⟨hkey, hlive⟩ := Option.filter_eq_some_iff.mp h
  refine Option.filter_eq_some_iff.mpr ⟨hkey, ?_⟩
  rcases hx : e.expiresAt with _ | x
  · rfl
  · rw [hx] at hlive
    exact decide_eq_true (lt_of_le_of_lt (clock_le_arrives t w) (of_decide_eq_true hlive))

theorem typed_arrives (h : Typed redis w) (t : Turn) : Typed redis (t.arrives w) := by
  intro minuteBucket scope
  obtain ⟨hrequests, hbytes⟩ := h minuteBucket scope
  exact ⟨fun fields x hfind => hrequests fields x (find?_of_arrives hfind), hbytes⟩

/-- Time takes the key away when it stands at nothing. -/
theorem Account.arrives (h : Account key ledger w) (t : Turn) : Account key ledger (t.arrives w) := by
  have hlater := clock_le_arrives t w
  have hkeys : (t.arrives w).keys = w.keys := rfl
  refine ⟨h.bytes, fun b hb => ?_, fun e x he hx b hxb hb => h.lasts e x he hx b hxb ((bucketOf_mono hlater).trans hb)⟩
  have hbefore := (bucketOf_mono hlater).trans hb
  rcases hgone : (t.arrives w).find? key with _ | e
  · rw [byteLevel, hgone]
    rcases hnow : w.find? key with _ | e
    · have hlevel := h.level b hbefore
      rw [byteLevel, hnow] at hlevel
      exact hlevel
    · have hkey := (Option.filter_eq_some_iff.mp hnow).1
      rw [LimiterWorld.find?, hkeys, hkey, Option.filter_eq_none_iff] at hgone
      rcases hx : e.expiresAt with _ | x
      · exact (hgone e rfl (by rw [hx]; rfl)).elim
      · have hexpired : x ≤ (t.arrives w).clock := by
          refine not_lt.mp fun hlt => hgone e rfl ?_
          rw [hx]
          exact decide_eq_true hlt
        exact (h.lasts e x hkey hx b ((bucketOf_mono hexpired).trans hb) hbefore).symm
  · rw [byteLevel_congr (hgone.trans (find?_of_arrives hgone).symm)]
    exact h.level b hbefore

theorem account_exec_of_other {r : LimitReq} (hr : r.writes ≠ some key) (h : Account key ledger w) :
    Account key ledger (limitExec r w).2 := h.of_key (limitExec_keys hr) (limitExec_clock r w)

/-- What is stale now does not count later either. -/
theorem account_hdel {names : List Int} (hstale : ∀ f ∈ names, f < bucketOf w.clock - 59) (h : Account key ledger w) :
    Account key ledger (limitExec (.hdel key names) w).2 := by
  have hclock := limitExec_clock (.hdel key names) w
  have hexec : ∀ b, bucketOf w.clock ≤ b → BytesKey key (limitExec (.hdel key names) w).2 ∧
      byteLevel b key (limitExec (.hdel key names) w).2 = byteLevel b key w + 0 := by
    intro b hb
    exact @bytesKey_exec b _ _ [] 0 _ h.bytes fun _ => .inl ⟨names, fun f hf => by have := hstale f hf; omega, rfl⟩
  refine ⟨(hexec _ le_rfl).1, fun b hb => ?_, fun e x he hx => ?_⟩
  · rw [hclock] at hb
    rw [(hexec b hb).2, Int.add_zero, h.level b hb]
  · rw [hclock]
    simp only [limitExec, LimiterWorld.hdel] at he
    split at he
    · exact h.lasts e x he hx
    · rename_i fields x' hfind
      simp only [setKey_keys, put_self] at he
      split at he
      · cases he
      · obtain rfl := Option.some.inj he
        exact h.lasts _ x (Option.filter_eq_some_iff.mp hfind).1 hx
    · exact h.lasts e x he hx

/-- Checking the bytes changes nothing that counts. -/
theorem account_checkBytes (h : Account key ledger w) :
    Account key ledger (alone (checkBytes key bph (bucketOf w.clock) byteCount) w).2 := by
  have huses : (checkBytes key bph (bucketOf w.clock) byteCount).Uses fun r =>
      r.writes ≠ some key ∨ ∃ names, (∀ f ∈ names, f < bucketOf w.clock - 59) ∧ r = .hdel key names := by
    unfold checkBytes
    split
    swap
    · trivial
    refine Program.uses_bind (Program.uses_perform (.inl nofun)) fun fields => Program.uses_bind ?_ fun _ =>
      Program.uses_raiseIf _ _
    unfold dropStale
    split
    · trivial
    · refine Program.uses_perform (.inr ⟨_, fun f hf => ?_, rfl⟩)
      obtain ⟨entry, hentry, rfl⟩ := List.mem_map.mp hf
      exact of_decide_eq_true (List.mem_filter.mp hentry).2
  refine (@alone_invariant _ _ (fun w' => Account key ledger w' ∧ w'.clock = w.clock) ?_ _ huses w ⟨h, rfl⟩).1
  intro r w' hr hw'
  refine ⟨?_, (limitExec_clock r w').trans hw'.2⟩
  rcases hr with hother | ⟨names, hstale, rfl⟩
  · exact account_exec_of_other hother hw'.1
  · exact account_hdel (by rw [hw'.2]; exact hstale) hw'.1

/-- The key after the raise, which counts from now until the key goes. -/
theorem account_raised (h : Account key ledger w) (hledger : ∀ b, bucketOf w.clock + 60 ≤ b → ledger b = 0) :
    Account key (posted (bucketOf w.clock) byteCount ledger) (limitExec (.expire key 3720)
      (limitExec (.hincrby key (bucketOf w.clock) byteCount) w).2).2 := by
  have hraised : ∃ fields x, (limitExec (.hincrby key (bucketOf w.clock) byteCount) w).2 =
      w.setKey key (some ⟨.hash (LimiterWorld.addToField fields (bucketOf w.clock) byteCount), x⟩) ∧
        x.all (w.clock < ·) = true ∧ (∀ f ∈ fields.rows, 0 ≤ f.2) ∧ ∀ b, byteLevel b key w = totalBytes b fields.rows := by
    simp only [limitExec, LimiterWorld.hincrby, byteLevel]
    rcases hfind : w.find? key with _ | ⟨value, x⟩
    · refine ⟨.empty, none, rfl, rfl, ?_, fun _ => rfl⟩
      intro f hf
      cases hf
    · obtain ⟨hkey, hlive⟩ := Option.filter_eq_some_iff.mp hfind
      obtain ⟨fields, rfl, hpos⟩ := h.bytes _ hkey
      exact ⟨fields, x, rfl, hlive, hpos, fun _ => rfl⟩
  obtain ⟨fields, x, hworld, hlive, hpos, hlevel⟩ := hraised
  have hfind : (w.setKey key (some ⟨.hash (LimiterWorld.addToField fields (bucketOf w.clock) byteCount), x⟩)).find? key =
      some ⟨.hash (LimiterWorld.addToField fields (bucketOf w.clock) byteCount), x⟩ := by
    rw [find?_setKey_self]
    exact Option.filter_eq_some_iff.mpr ⟨rfl, hlive⟩
  have hfinal : (limitExec (.expire key 3720) (limitExec (.hincrby key (bucketOf w.clock) byteCount) w).2).2 =
      w.setKey key (some ⟨.hash (LimiterWorld.addToField fields (bucketOf w.clock) byteCount),
        some (w.clock + 3720 * second)⟩) := by
    rw [hworld]
    have hpositive : ¬(3720 : Int) ≤ 0 := by decide
    simp only [limitExec, LimiterWorld.expire, hfind, hpositive, if_false]
    simp only [LimiterWorld.setKey, put_put]
  rw [hfinal]
  constructor
  · refine bytesKey_setKey fun e he => ?_
    obtain rfl := Option.some.inj he
    exact ⟨_, rfl, addToField_nonneg hpos (Int.natCast_nonneg _)⟩
  · intro b hb
    simp only [byteLevel, find?_setKey_later (show (0 : Int) < 3720 by decide)]
    rw [posted, ← h.level b hb, hlevel b]
    exact totalBytes_addToField
  · intro e x' he hx' b hxb hb
    rw [setKey_keys, put_self] at he
    obtain rfl := Option.some.inj he
    obtain rfl := Option.some.inj hx'
    rw [bucketOf_expiry] at hxb
    rw [posted, hledger b (by omega), if_pos (by omega), Int.add_zero]

end

/-! ## One call -/

/-- What a counter answers, by the count of its minute and the bytes of its hour. -/
def verdictOf (redis : RedisHandle) (scope : String) (limits : UploadLimits) (byteCount : Nat) (w : LimiterWorld) :
    Except LimiterExc Unit :=
  if 0 < limits.rpm ∧ limits.rpm ≤ numberAt (requestsKey redis scope (bucketOf w.clock)) w then .error (.py tooManyRequests)
  else if 0 < limits.bph ∧ limits.bph < byteLevel (bucketOf w.clock) (bytesKey redis scope) w + byteCount then
    .error (.py tooManyBytes)
  else .ok ()

/-- A counter changes its own two keys. -/
structure CountsIn (redis : RedisHandle) (scope : String) (w w' : LimiterWorld) : Prop where
  typed : Typed redis w'
  clock : w'.clock = w.clock
  blockedUntil : w'.blockedUntil = w.blockedUntil
  others : ∀ key, key ≠ requestsKey redis scope (bucketOf w.clock) → key ≠ bytesKey redis scope →
    w'.keys key = w.keys key

section

variable {ledger : Int → Int} {byteCount : Nat} {limits : UploadLimits}

theorem verdictOf_isOk : (verdictOf redis scope limits byteCount w).isOk = true ↔
    ¬RefusesNow redis (bucketOf w.clock) scope limits byteCount w := by
  unfold verdictOf RefusesNow Refuses
  rw [not_or]
  split
  · rename_i hcount
    exact iff_of_false nofun fun h => h.1 hcount
  · rename_i hcount
    split
    · rename_i hbytes
      exact iff_of_false nofun fun h => h.2 hbytes
    · rename_i hbytes
      exact iff_of_true rfl ⟨hcount, hbytes⟩

theorem room_of_admitted (h : (verdictOf redis scope limits byteCount w).isOk = true) (hbph : 0 < limits.bph) :
    byteLevel (bucketOf w.clock) (bytesKey redis scope) w + byteCount ≤ limits.bph := by
  have hroom := (not_or.mp (verdictOf_isOk.mp h)).2
  exact not_lt.mp fun hlt => hroom ⟨hbph, hlt⟩

theorem lt_of_tooManyBytes (h : verdictOf redis scope limits byteCount w = .error (.py tooManyBytes)) :
    limits.bph < byteLevel (bucketOf w.clock) (bytesKey redis scope) w + byteCount := by
  unfold verdictOf at h
  split at h
  · exact absurd h (by decide)
  · split at h
    · rename_i hbytes
      exact hbytes.2
    · cases h

theorem limitExec_blockedUntil {r : LimitReq} (h : r.key ≠ none) : (limitExec r w).2.blockedUntil = w.blockedUntil := by
  cases r <;> first
    | rfl
    | exact (h rfl).elim
    | (simp only [limitExec, LimiterWorld.incr, LimiterWorld.expire, LimiterWorld.setEx, LimiterWorld.hdel,
        LimiterWorld.hincrby]; repeat' split) <;> rfl

theorem checkBytes_commands : (checkBytes key bph minuteBucket byteCount).Uses fun r =>
    CounterCommand redis r ∧ r.key = some key := by
  unfold checkBytes
  split
  swap
  · trivial
  refine Program.uses_bind (Program.uses_perform ⟨rfl, rfl⟩) fun fields => Program.uses_bind ?_ fun _ =>
    Program.uses_raiseIf _ _
  unfold dropStale
  split
  · trivial
  · exact Program.uses_perform ⟨trivial, rfl⟩

theorem enforceCounter_commands : (RedisRateLimiter.enforceCounter redis scope minuteBucket limits byteCount).Uses fun r =>
    CounterCommand redis r ∧ (r.key = some (requestsKey redis scope minuteBucket) ∨ r.key = some (bytesKey redis scope)) := by
  refine Program.uses_bind ?_ fun _ => Program.uses_bind (checkBytes_commands.mono fun r h => ⟨h.1, .inr h.2⟩) fun _ => ?_
  · unfold checkRequests
    split
    · exact Program.uses_bind (Program.uses_perform ⟨rfl, .inl rfl⟩) fun _ => Program.uses_raiseIf _ _
    · trivial
  · exact Program.uses_bind (Program.uses_perform ⟨⟨_, _, rfl⟩, .inl rfl⟩) fun _ =>
      Program.uses_bind (Program.uses_perform ⟨trivial, .inl rfl⟩) fun _ =>
      Program.uses_bind (Program.uses_perform ⟨⟨Int.natCast_nonneg _, _, rfl⟩, .inr rfl⟩) fun _ =>
      Program.uses_perform ⟨trivial, .inr rfl⟩

theorem writes_of_key {r : LimitReq} (h : r.key ≠ some key) : r.writes ≠ some key := by
  intro hw
  cases r <;> first | exact h hw | cases hw

theorem countsIn_enforceCounter (h : Typed redis w) : CountsIn redis scope w
    (alone (RedisRateLimiter.enforceCounter redis scope (bucketOf w.clock) limits byteCount) w).2 := by
  refine @alone_invariant _ _ (CountsIn redis scope w) ?_ _ enforceCounter_commands w ⟨h, rfl, rfl, fun _ _ _ => rfl⟩
  intro r w' ⟨hcommand, hkey⟩ hw'
  refine ⟨typed_exec hcommand hw'.typed, (limitExec_clock r w').trans hw'.clock, ?_, fun key hrequests hbytes => ?_⟩
  · refine (limitExec_blockedUntil ?_).trans hw'.blockedUntil
    rcases hkey with hkey | hkey <;> rw [hkey] <;> exact nofun
  · refine (limitExec_keys (writes_of_key ?_)).trans (hw'.others key hrequests hbytes)
    intro hk
    rcases hkey with hkey | hkey
    · exact hrequests (Option.some.inj (hk.symm.trans hkey))
    · exact hbytes (Option.some.inj (hk.symm.trans hkey))

/-- Another counter's keys are not the actor's bytes. -/
theorem CountsIn.account {scope' : String} {w' : LimiterWorld} (h : CountsIn redis scope' w w') (hne : scope ≠ scope')
    (haccount : Account (bytesKey redis scope) ledger w) : Account (bytesKey redis scope) ledger w' :=
  haccount.of_key (h.others _ (requestsKey_ne_bytesKey _ _).symm fun hkey => hne (bytesKey_inj hkey)) h.clock

theorem account_record (hw : Typed redis w) (h : Account (bytesKey redis scope) ledger w)
    (hledger : ∀ b, bucketOf w.clock + 60 ≤ b → ledger b = 0) : ∃ w',
    alone (record (requestsKey redis scope (bucketOf w.clock)) (bytesKey redis scope) (bucketOf w.clock) byteCount) w =
      (.ok (), w') ∧ Account (bytesKey redis scope) (posted (bucketOf w.clock) byteCount ledger) w' := by
  have hincr := alone_incr (hw (bucketOf w.clock) scope).1
  have hexpire := @alone_expire_incremented w (requestsKey redis scope (bucketOf w.clock)) 120 (by decide)
  have hne : bytesKey redis scope ≠ requestsKey redis scope (bucketOf w.clock) := (requestsKey_ne_bytesKey _ _).symm
  have hcounted : Account (bytesKey redis scope) ledger (w.setKey (requestsKey redis scope (bucketOf w.clock)) (some
      ⟨.string (numberAt (requestsKey redis scope (bucketOf w.clock)) w + 1), some (w.clock + 120 * second)⟩)) :=
    h.of_key (put_of_ne hne) rfl
  have hclock : (w.setKey (requestsKey redis scope (bucketOf w.clock)) (some
      ⟨.string (numberAt (requestsKey redis scope (bucketOf w.clock)) w + 1), some (w.clock + 120 * second)⟩)).clock =
        w.clock := rfl
  generalize w.setKey (requestsKey redis scope (bucketOf w.clock)) (some ⟨.string (numberAt (requestsKey redis scope
    (bucketOf w.clock)) w + 1), some (w.clock + 120 * second)⟩) = w₂ at hexpire hcounted hclock
  obtain ⟨total, hbytes⟩ := @alone_hincrby (bucketOf w.clock) _ _ byteCount hcounted.bytes
  refine ⟨(limitExec (.expire (bytesKey redis scope) 3720)
    (limitExec (.hincrby (bytesKey redis scope) (bucketOf w.clock) byteCount) w₂).2).2, ?_, ?_⟩
  · unfold record
    rw [alone_bind_of_ok hincr, alone_bind_of_ok hexpire, alone_bind_of_ok hbytes, alone_request]
    rfl
  · rw [← hclock] at hledger ⊢
    exact account_raised hcounted hledger

/-- A counter answers by what it stands at, and posts what it lets through. -/
theorem alone_enforceCounter (hw : Typed redis w) (h : Account (bytesKey redis scope) ledger w)
    (hledger : ∀ b, bucketOf w.clock + 60 ≤ b → ledger b = 0) : ∃ w',
    alone (RedisRateLimiter.enforceCounter redis scope (bucketOf w.clock) limits byteCount) w =
      (verdictOf redis scope limits byteCount w, w') ∧
    Account (bytesKey redis scope) (if (verdictOf redis scope limits byteCount w).isOk = true then
      posted (bucketOf w.clock) byteCount ledger else ledger) w' := by
  have hrequests := alone_checkRequests (hw (bucketOf w.clock) scope).1 limits.rpm
  unfold RedisRateLimiter.enforceCounter verdictOf
  by_cases hcount : 0 < limits.rpm ∧ limits.rpm ≤ numberAt (requestsKey redis scope (bucketOf w.clock)) w
  · rw [if_pos hcount] at hrequests
    rw [if_pos hcount]
    exact ⟨w, alone_bind_of_error hrequests, h⟩
  rw [if_neg hcount] at hrequests
  rw [if_neg hcount]
  obtain ⟨w₁, hbytes, hdropped⟩ := @alone_checkBytes (bucketOf w.clock) _ _ byteCount h.bytes limits.bph
  have hchecked : Account (bytesKey redis scope) ledger w₁ := by
    have hsame := @account_checkBytes _ limits.bph _ _ byteCount h
    rw [hbytes] at hsame
    exact hsame
  by_cases hroom : 0 < limits.bph ∧ limits.bph < byteLevel (bucketOf w.clock) (bytesKey redis scope) w + byteCount
  · rw [if_pos hroom] at hbytes
    rw [if_pos hroom, alone_bind_of_ok hrequests, alone_bind_of_error hbytes]
    exact ⟨w₁, rfl, hchecked⟩
  · rw [if_neg hroom] at hbytes
    rw [if_neg hroom, alone_bind_of_ok hrequests, alone_bind_of_ok hbytes]
    have hclock : w₁.clock = w.clock := by rw [hdropped.rest]
    have htyped : Typed redis w₁ := by
      have hsame := @alone_invariant _ _ (Typed redis) (fun r w' hr hw' => typed_exec hr.1 hw') _
        (@checkBytes_commands redis (bytesKey redis scope) (bucketOf w.clock) limits.bph byteCount) w hw
      rw [hbytes] at hsame
      exact hsame
    rw [← hclock] at hledger ⊢
    exact account_record htyped hchecked hledger

end

/-- A call is over, and the account settled. -/
structure Settled (redis : RedisHandle) (scope : String) (ledger : Int → Int) (w w' : LimiterWorld) : Prop where
  typed : Typed redis w'
  clock : w'.clock = w.clock
  blockedUntil : w'.blockedUntil = w.blockedUntil ∨ w'.blockedUntil = 0
  account : Account (bytesKey redis scope) ledger w'

section

variable {r : UploadRequest} {ledger : Int → Int}

theorem refusesNow_of_countsIn {scope' : String} {w' : LimiterWorld} {limits : UploadLimits} {byteCount : Nat}
    (h : CountsIn redis scope' w w') (hne : scope ≠ scope') :
    RefusesNow redis (bucketOf w'.clock) scope limits byteCount w' ↔
      RefusesNow redis (bucketOf w.clock) scope limits byteCount w := by
  have hfind : ∀ key, key ≠ requestsKey redis scope' (bucketOf w.clock) → key ≠ bytesKey redis scope' →
      w'.find? key = w.find? key := by
    intro key hrequests hbytes
    simp only [LimiterWorld.find?, h.others key hrequests hbytes, h.clock]
  have hcount := numberAt_congr (hfind (requestsKey redis scope (bucketOf w.clock))
    (fun hkey => hne (requestsKey_inj hkey)) (requestsKey_ne_bytesKey _ _))
  have hlevel : byteLevel (bucketOf w.clock) (bytesKey redis scope) w' =
      byteLevel (bucketOf w.clock) (bytesKey redis scope) w :=
    byteLevel_congr (hfind _ (requestsKey_ne_bytesKey _ _).symm fun hkey => hne (bytesKey_inj hkey))
  rw [h.clock]
  unfold RefusesNow
  rw [hcount, hlevel]

/-- The ledger after a call of an actor. -/
def settledLedger (redis : RedisHandle) (w : LimiterWorld) (r : UploadRequest) (ledger : Int → Int) : Int → Int :=
  if (verdictOf redis (scopeOf r.user r.actorKey) (limitsOf w.config r.user) r.byteCount w).isOk = true then
    posted (bucketOf w.clock) r.byteCount ledger
  else ledger

/-- The actor's own counter, then for an anonymous actor the counter of all. -/
theorem alone_enforceWithRedis (hw : Typed redis w) (h : Account (bytesKey redis (scopeOf r.user r.actorKey)) ledger w)
    (hledger : ∀ b, bucketOf w.clock + 60 ≤ b → ledger b = 0) (hthrough : LetsThrough redis w r) : ∃ w',
    alone (RedisRateLimiter.enforceWithRedis redis r) w =
      (verdictOf redis (scopeOf r.user r.actorKey) (limitsOf w.config r.user) r.byteCount w, w') ∧
    Settled redis (scopeOf r.user r.actorKey) (settledLedger redis w r ledger) w w' := by
  obtain ⟨actorKey, byteCount, user⟩ := r
  obtain ⟨w₁, hown, haccount⟩ := @alone_enforceCounter _ _ _ _ byteCount (limitsOf w.config user) hw h hledger
  have hcounts := @countsIn_enforceCounter _ (scopeOf user actorKey) _ byteCount (limitsOf w.config user) hw
  rw [hown] at hcounts
  have hsettled : Settled redis (scopeOf user actorKey) (settledLedger redis w ⟨actorKey, byteCount, user⟩ ledger) w w₁ :=
    ⟨hcounts.typed, hcounts.clock, .inl hcounts.blockedUntil, haccount⟩
  cases user with
  | some user => exact ⟨w₁, (alone_enforceWithRedis_user actorKey byteCount user).trans hown, hsettled⟩
  | none =>
    rw [alone_enforceWithRedis_anon]
    rcases hverdict : verdictOf redis (scopeOf none actorKey) (limitsOf w.config none) byteCount w with e | ⟨⟩
    · rw [hverdict] at hown
      exact ⟨w₁, alone_bind_of_error hown, hsettled⟩
    · rw [hverdict] at hown
      have hadmits := verdictOf_isOk.mp (congrArg Except.isOk hverdict)
      obtain ⟨hkey, hglobal⟩ := (hthrough.resolve_left nofun).resolve_left hadmits
      have hne := scopeOf_ne_global (fun _ => hkey) (Eq.refl (none : Option User))
      rw [← refusesNow_of_countsIn hcounts hne.symm] at hglobal
      obtain ⟨w₂, hall, -⟩ := alone_enforceCounter_of_admits (hcounts.typed (bucketOf w₁.clock)) hglobal
      have hcounts' := @countsIn_enforceCounter _ "anon:global" _ byteCount (globalAnonLimits w.config) hcounts.typed
      rw [hall] at hcounts'
      refine ⟨w₂, ?_, hcounts'.typed, hcounts'.clock.trans hcounts.clock, ?_, hcounts'.account hne hsettled.account⟩
      · rw [alone_bind_of_ok hown, ← hcounts.clock]
        exact hall
      · rw [hcounts'.blockedUntil]
        exact hsettled.blockedUntil

theorem alone_enforceUploadLimits (havailable : Available w) (hw : Typed redis w)
    (h : Account (bytesKey redis (scopeOf r.user r.actorKey)) ledger w)
    (hledger : ∀ b, bucketOf w.clock + 60 ≤ b → ledger b = 0) (hthrough : LetsThrough redis w r) : ∃ w',
    alone (RedisRateLimiter.enforceUploadLimits redis r) w =
      (verdictOf redis (scopeOf r.user r.actorKey) (limitsOf w.config r.user) r.byteCount w, w') ∧
    Settled redis (scopeOf r.user r.actorKey) (settledLedger redis w r ledger) w w' := by
  obtain ⟨w', hcallback, hsettled⟩ := alone_enforceWithRedis hw h hledger hthrough
  unfold RedisRateLimiter.enforceUploadLimits
  have hraises : ∀ e, verdictOf redis (scopeOf r.user r.actorKey) (limitsOf w.config r.user) r.byteCount w = .error e →
      ∃ e', e = .py e' := by
    intro e he
    unfold verdictOf at he
    split at he
    · exact ⟨_, (Except.error.inj he).symm⟩
    · split at he
      · exact ⟨_, (Except.error.inj he).symm⟩
      · cases he
  rcases hverdict : verdictOf redis (scopeOf r.user r.actorKey) (limitsOf w.config r.user) r.byteCount w with e | ⟨⟩
  · obtain ⟨e', rfl⟩ := hraises e hverdict
    rw [hverdict] at hcallback
    exact ⟨w', alone_withRedisFallback_of_error havailable hcallback, hsettled⟩
  · rw [hverdict] at hcallback
    refine ⟨_, alone_withRedisFallback_of_ok havailable hcallback, ?_, hsettled.clock, .inr rfl, ?_⟩
    · exact typed_of_keys hsettled.typed rfl rfl
    · exact hsettled.account.of_key rfl rfl

end

/-! ## Every run -/

structure Holds (redis : RedisHandle) (scope : String) (bph : Int) (s : Site) : Prop where
  available : Available s.world
  clock : 0 ≤ s.world.clock
  typed : Typed redis s.world
  past : ∀ c ∈ s.calls, c.bucket ≤ bucketOf s.world.clock
  account : Account (bytesKey redis scope) (fun b => spent (b - 59) b s.calls) s.world
  budget : KeepsBudget bph s.calls

/-- The actor is the same one with the same limit. -/
def SameActor (scope actorKey : String) (bph : Int) (t : Turn) : Prop :=
  scopeOf t.user actorKey = scope ∧ (limitsOf t.config t.user).bph = bph

/-- The bytes of one more call stand in the ledger. -/
theorem spent_settled {calls : List Call} {r : UploadRequest} (b : Int) (hb : bucketOf w.clock ≤ b) :
    spent (b - 59) b (calls ++ [⟨bucketOf w.clock, r.byteCount,
        verdictOf redis (scopeOf r.user r.actorKey) (limitsOf w.config r.user) r.byteCount w⟩]) =
      settledLedger redis w r (fun b => spent (b - 59) b calls) b := by
  rw [spent_snoc]
  unfold settledLedger Call.bytesIn
  by_cases hok : (verdictOf redis (scopeOf r.user r.actorKey) (limitsOf w.config r.user) r.byteCount w).isOk = true
  · rw [if_pos hok, posted]
    simp only [hok, hb, true_and, and_true]
    split <;> split <;> omega
  · rw [if_neg hok, if_neg fun h => hok h.1, Int.add_zero]

theorem turn_eq {s : Site} {t : Turn} {verdict : Except LimiterExc Unit} {w' : LimiterWorld}
    (h : alone (RedisRateLimiter.enforceUploadLimits redis ⟨actorKey, t.byteCount, t.user⟩) (t.arrives s.world) =
      (verdict, w')) :
    turn redis actorKey s t = ⟨w', s.calls ++ [⟨bucketOf (t.arrives s.world).clock, t.byteCount, verdict⟩]⟩ := by
  simp only [turn, h]

instance (scope actorKey : String) (bph : Int) (t : Turn) : Decidable (SameActor scope actorKey bph t) :=
  inferInstanceAs (Decidable (_ ∧ _))

theorem holds_turn {s : Site} {t : Turn} (hbph : 0 < bph) (h : Holds redis scope bph s)
    (hactor : SameActor scope actorKey bph t)
    (hthrough : LetsThrough redis (t.arrives s.world) ⟨actorKey, t.byteCount, t.user⟩) :
    Holds redis scope bph (turn redis actorKey s t) := by
  obtain ⟨rfl, hlimit⟩ := hactor
  have hlater := clock_le_arrives t s.world
  have hpast : ∀ c ∈ s.calls, c.bucket ≤ bucketOf (t.arrives s.world).clock := fun c hc =>
    (h.past c hc).trans (bucketOf_mono hlater)
  have haccount := h.account.arrives t
  have hledger : ∀ b, bucketOf (t.arrives s.world).clock + 60 ≤ b → spent (b - 59) b s.calls = 0 := by
    intro b hb
    refine spent_eq_zero fun c hc => ?_
    have hbucket := hpast c hc
    omega
  have hlevel := haccount.level _ le_rfl
  obtain ⟨w', hanswer, hsettled⟩ := @alone_enforceUploadLimits _ _ ⟨actorKey, t.byteCount, t.user⟩ _
    (show Available (t.arrives s.world) from h.available.trans hlater) (typed_arrives h.typed t) haccount hledger hthrough
  rw [turn_eq hanswer]
  refine ⟨?_, ?_, hsettled.typed, fun c hc => ?_, ?_, ?_⟩
  · show w'.blockedUntil ≤ w'.clock
    rw [hsettled.clock]
    rcases hsettled.blockedUntil with hblocked | hblocked <;> rw [hblocked]
    · exact h.available.trans hlater
    · exact h.clock.trans hlater
  · show 0 ≤ w'.clock
    rw [hsettled.clock]
    exact h.clock.trans hlater
  · show c.bucket ≤ bucketOf w'.clock
    rw [hsettled.clock]
    rcases List.mem_append.mp hc with hc | hc
    · exact hpast c hc
    · rw [List.mem_singleton.mp hc]
  · refine hsettled.account.of_ledger fun b hb => ?_
    rw [hsettled.clock] at hb
    exact @spent_settled _ _ s.calls ⟨actorKey, t.byteCount, t.user⟩ b hb
  · refine keepsBudget_snoc h.budget hpast (fun hok => ?_) fun hbytes => ?_
    · have hroom := room_of_admitted hok (hbph.trans_eq hlimit.symm)
      rw [hlevel] at hroom
      exact hroom.trans_eq hlimit
    · have hfull := lt_of_tooManyBytes hbytes
      rw [hlevel] at hfull
      exact hlimit.symm.trans_lt hfull

/-- Redis answers, and holds no bytes of the actor. -/
structure Opening (redis : RedisHandle) (scope : String) (w : LimiterWorld) : Prop where
  available : Available w
  clock : 0 ≤ w.clock
  typed : Typed redis w
  empty : w.find? (bytesKey redis scope) = none

theorem holds_opening (h : Opening redis scope w) (hbph : 0 < bph) : Holds redis scope bph ⟨w, []⟩ := by
  refine ⟨h.available, h.clock, h.typed, nofun, ⟨(h.typed 0 scope).2, fun b _ => ?_, fun _ _ _ _ _ _ _ => rfl⟩, ?_⟩
  · rw [byteLevel, h.empty]
    rfl
  · refine ⟨fun _ => hbph.le, fun before c after hsplit => ?_⟩
    cases before <;> cases hsplit

/-- Calls of one actor, one after the other, keep its hourly budget if all that its own
    counter records is let through. -/
theorem calls_keep_the_budget (redis : RedisHandle) (actorKey scope : String) (bph : Int) (w : LimiterWorld)
    (turns : List Turn) (hbph : 0 < bph) (hopening : Opening redis scope w)
    (hactor : ∀ t ∈ turns, SameActor scope actorKey bph t)
    (hthrough : Along (turn redis actorKey) (fun s t => LetsThrough redis (t.arrives s.world)
      ⟨actorKey, t.byteCount, t.user⟩) ⟨w, []⟩ turns) :
    KeepsBudget bph (runEvents (turn redis actorKey) ⟨w, []⟩ turns).calls := by
  have hturns := (along_of_forall fun t ht _ => hactor t ht).and hthrough
  exact (runEvents_invariant (fun s t h hC => holds_turn hbph h hC.1 hC.2) (holds_opening hopening hbph) hturns).budget

/-- A hundred bytes an hour for one anonymous actor, fifty for all of them. -/
def fiftyBytesForAll : LimitConfig := fun key => if key = .rateLimitGlobalAnonBph then 50 else 100

/-- Anonymous uploads, each so many minutes after the one before. -/
def uploadsAfter (uploads : List (Nat × Nat)) : List Turn :=
  uploads.map fun (minutes, byteCount) => ⟨minutes * minuteSeconds.toNat, fiftyBytesForAll, none, byteCount⟩

/-- Forty bytes, seventy that exceed the hundred of the hour, and forty an hour later. -/
theorem forty_bytes_an_hour :
    KeepsBudget 100 (runEvents (turn ⟨""⟩ "ip") ⟨.fresh fiftyBytesForAll, []⟩ (uploadsAfter [(0, 40), (1, 70), (60, 40)])).calls :=
  calls_keep_the_budget ⟨""⟩ "ip" "anon:ip" 100 (.fresh fiftyBytesForAll) (uploadsAfter [(0, 40), (1, 70), (60, 40)]) (by decide)
    ⟨by decide, by decide, fun _ _ => ⟨nofun, nofun⟩, rfl⟩ (by decide +kernel) (by decide +kernel)

/-- Sixty bytes that the counter of all refuses fill the actor's own budget: forty-five are
    refused for their bytes although nothing was let through. -/
theorem refused_bytes_fill_the_budget :
    let calls := (runEvents (turn ⟨""⟩ "ip") ⟨.fresh fiftyBytesForAll, []⟩ (uploadsAfter [(0, 60), (1, 45)])).calls
    calls.map Call.verdict = [.error (.py tooManyBytes), .error (.py tooManyBytes)] ∧ (∀ first last, spent first last calls = 0) ∧
      ¬KeepsBudget 100 calls := by
  have hcalls : (runEvents (turn ⟨""⟩ "ip") ⟨.fresh fiftyBytesForAll, []⟩ (uploadsAfter [(0, 60), (1, 45)])).calls =
      [⟨0, 60, .error (.py tooManyBytes)⟩, ⟨1, 45, .error (.py tooManyBytes)⟩] := by decide +kernel
  simp only [hcalls]
  refine ⟨rfl, fun first last => ?_, fun h => ?_⟩
  · simp [spent, Call.bytesIn, Except.isOk, Except.toBool]
  · exact absurd (h.refused [⟨0, 60, .error (.py tooManyBytes)⟩] _ [] rfl rfl) (by decide)

end Imghost.Limits.HourlyBudget
