/-
  Imghost.Limits.Alone — one method of a limiter with nothing else going on.

  No other client's command comes in between, no command fails and no time passes, so a
  method is a function of the world: `alone`. The rules below evaluate it.
-/

import Imghost.Limits.RedisLimiters

namespace Imghost.Limits

open Imghost.Async Imghost.Model

variable {α β : Type} {redis : RedisHandle} {w : LimiterWorld}

def alone (p : LimitProg α) (w : LimiterWorld) : Except LimiterExc α × LimiterWorld := runAlone limitBackend p [] w

@[simp] theorem alone_pure (a : α) (w : LimiterWorld) : alone (pure a) w = (.ok a, w) := rfl
@[simp] theorem alone_raise (e : LimiterExc) (w : LimiterWorld) : alone (.raise e : LimitProg α) w = (.error e, w) := rfl

@[simp] theorem alone_request (r : LimitReq) (w : LimiterWorld) : alone (request r) w = limitExec r w := by
  have hnow : limitBackend.elapse 0 w = w := by
    simp [limitBackend]
  rw [alone, runAlone_perform, hnow]
  rfl

theorem alone_bind (p : LimitProg α) (f : α → LimitProg β) (w : LimiterWorld) :
    alone (p >>= f) w =
      match alone p w with
      | (.ok a, w') => alone (f a) w'
      | (.error e, w') => (.error e, w') := by
  unfold alone
  rw [runAlone_bind]
  rcases runAlone limitBackend p [] w with ⟨e | a, w'⟩ <;> rfl

theorem alone_bind_of_ok {p : LimitProg α} {f : α → LimitProg β} {a : α} {w' : LimiterWorld} (h : alone p w = (.ok a, w')) :
    alone (p >>= f) w = alone (f a) w' := by rw [alone_bind, h]

theorem alone_bind_of_error {p : LimitProg α} {f : α → LimitProg β} {e : LimiterExc} {w' : LimiterWorld}
    (h : alone p w = (.error e, w')) : alone (p >>= f) w = (.error e, w') := by rw [alone_bind, h]

theorem alone_tryExcept (p : LimitProg α) (h : LimiterExc → LimitProg α) (w : LimiterWorld) :
    alone (p.tryExcept h) w =
      match alone p w with
      | (.ok a, w') => (.ok a, w')
      | (.error e, w') => alone (h e) w' := by
  unfold alone
  rw [runAlone_tryExcept]
  rcases runAlone limitBackend p [] w with ⟨e | a, w'⟩ <;> rfl

theorem alone_attempt (p : LimitProg α) (w : LimiterWorld) : alone p.attempt w = (.ok (alone p w).1, (alone p w).2) := by
  have hok : alone (p.bind fun a => Program.ret (Except.ok a : Except LimiterExc α)) w =
      ((alone p w).1.map Except.ok, (alone p w).2) := by
    refine (alone_bind p (fun a => Program.ret (Except.ok a : Except LimiterExc α)) w).trans ?_
    rcases alone p w with ⟨e | a, w'⟩ <;> rfl
  rw [Program.attempt, alone_tryExcept, hok]
  rcases alone p w with ⟨e | a, w'⟩ <;> rfl

@[simp] theorem alone_raiseIf (c : Bool) (e : LimiterExc) (w : LimiterWorld) :
    alone (Program.raiseIf c e) w = (if c then .error e else .ok (), w) := by cases c <;> rfl

theorem alone_call (r : LimitReq) (k : Except LimiterExc (LimitReply r) → LimitProg α) (w : LimiterWorld) :
    alone (.call r k) w = alone (k (limitExec r w).1) (limitExec r w).2 := by
  have hnow : limitBackend.elapse 0 w = w := by simp [limitBackend]
  simp only [alone, runAlone, List.headD_nil, Moment.quiet, Backend.answer_none, hnow]
  rfl

/-- What every command of a method keeps, the method keeps. -/
theorem alone_invariant {allowed : LimitReq → Prop} {I : LimiterWorld → Prop}
    (hI : ∀ r w, allowed r → I w → I (limitExec r w).2) {p : LimitProg α} (hp : p.Uses allowed) {w : LimiterWorld}
    (hw : I w) : I (alone p w).2 := by
  induction p generalizing w with
  | ret a => exact hw
  | raise e => exact hw
  | call r k ih =>
    rw [alone_call]
    exact ih _ (hp.2 _) (hI r w hp.1 hw)

/-! ## Falling back -/

/-- Redis is not blocked after a failure. -/
def Available (w : LimiterWorld) : Prop := w.blockedUntil ≤ w.clock

instance (w : LimiterWorld) : Decidable (Available w) := inferInstanceAs (Decidable (_ ≤ _))

theorem alone_getClient (h : Available w) : alone (request .getClient) w = (.ok (), w) := by
  rw [alone_request]
  exact if_pos h

/-- With Redis available the callback decides, as long as it does not raise what Redis raises. -/
theorem alone_withRedisFallback_of_ok {operation : String} {fallback callback : LimitProg Unit} {w' : LimiterWorld}
    (h : Available w) (hcallback : alone callback w = (.ok (), w')) :
    alone (withRedisFallback operation fallback callback) w = (.ok (), { w' with blockedUntil := 0 }) := by
  have hexecute : alone (execute operation callback) w = (.ok (), { w' with blockedUntil := 0 }) := by
    rw [execute, alone_bind_of_ok (alone_getClient h), alone_bind, alone_tryExcept, hcallback]
    exact alone_request .markSuccess w'
  rw [withRedisFallback, alone_tryExcept, hexecute]

theorem alone_withRedisFallback_of_error {operation : String} {fallback callback : LimitProg Unit} {w' : LimiterWorld}
    {e : PyExc} (h : Available w) (hcallback : alone callback w = (.error (.py e), w')) :
    alone (withRedisFallback operation fallback callback) w = (.error (.py e), w') := by
  have hexecute : alone (execute operation callback) w = (.error (.py e), w') := by
    rw [execute, alone_bind_of_ok (alone_getClient h), alone_bind, alone_tryExcept, hcallback]
    rfl
  rw [withRedisFallback, alone_tryExcept, hexecute]
  rfl

theorem alone_withRedisFallback_of_unavailable {operation : String} {fallback callback : LimitProg Unit}
    (h : ¬Available w) : alone (withRedisFallback operation fallback callback) w = alone fallback w := by
  have hclient : alone (request .getClient) w =
      (.error (.redisUnavailable "Redis is temporarily unavailable."), w) := by
    rw [alone_request]
    exact if_neg h
  have hexecute : alone (execute operation callback) w =
      (.error (.redisUnavailable "Redis is temporarily unavailable."), w) := alone_bind_of_error hclient
  rw [withRedisFallback, alone_tryExcept, hexecute]

open RedisAuthRateLimiter in
theorem alone_bestEffortClear_of_available {callback : LimitProg Unit} {w' : LimiterWorld} (h : Available w)
    (hcallback : alone callback w = (.ok (), w')) : alone (bestEffortClear callback) w = (.ok (), w') := by
  have hclient : alone (Program.attempt (request .getClient)) w = (.ok (.ok ()), w) := by
    rw [alone_attempt, alone_getClient h]
  rw [bestEffortClear, alone_bind_of_ok hclient]
  exact (alone_tryExcept _ _ w).trans (by rw [hcallback])

open RedisAuthRateLimiter in
theorem alone_bestEffortClear_of_unavailable {callback : LimitProg Unit} (h : ¬Available w) :
    alone (bestEffortClear callback) w = (.ok (), w) := by
  have hclient : alone (Program.attempt (request .getClient)) w =
      (.ok (.error (.redisUnavailable "Redis is temporarily unavailable.")), w) := by
    rw [alone_attempt, alone_request]
    simp only [limitExec, if_neg (show ¬w.blockedUntil ≤ w.clock from h)]
  rw [bestEffortClear, alone_bind_of_ok hclient]
  rfl

/-! ## Numbers in Redis -/

/-- The number a key holds, and zero without one. -/
def numberAt (key : String) (w : LimiterWorld) : Int :=
  match w.find? key with
  | some ⟨.string n, _⟩ => n
  | _ => 0

/-- The key holds no hash. -/
def NoHash (key : String) (w : LimiterWorld) : Prop := ∀ fields x, w.find? key ≠ some ⟨.hash fields, x⟩

/-- The key holds no number. -/
def NoNumber (key : String) (w : LimiterWorld) : Prop := ∀ n x, w.find? key ≠ some ⟨.string n, x⟩

theorem alone_get {key : String} (h : NoHash key w) :
    ∃ v, alone (request (.get key)) w = (.ok v, w) ∧ v.getD 0 = numberAt key w ∧ (v = none ↔ w.find? key = none) := by
  rw [alone_request]
  simp only [limitExec, LimiterWorld.get, numberAt]
  rcases hfind : w.find? key with _ | ⟨n | fields, x⟩
  · exact ⟨none, rfl, rfl, iff_of_true rfl rfl⟩
  · exact ⟨some n, rfl, rfl, by simp⟩
  · exact (h fields x hfind).elim

/-- The entry an `INCR` leaves: one more, with the expiry of the one before. -/
def incremented (key : String) (w : LimiterWorld) : Entry :=
  ⟨.string (numberAt key w + 1), (w.find? key).bind Entry.expiresAt⟩

theorem alone_incr {key : String} (h : NoHash key w) :
    alone (request (.incr key)) w = (.ok (numberAt key w + 1), w.setKey key (some (incremented key w))) := by
  rw [alone_request]
  simp only [limitExec, LimiterWorld.incr, incremented, numberAt]
  rcases hfind : w.find? key with _ | ⟨n | fields, x⟩
  · rfl
  · rfl
  · exact (h fields x hfind).elim

theorem find?_incremented (key : String) (w : LimiterWorld) :
    (w.setKey key (some (incremented key w))).find? key = some (incremented key w) := by
  rw [find?_setKey_self]
  refine Option.filter_eq_some_iff.mpr ⟨rfl, ?_⟩
  rcases hfind : w.find? key with _ | e
  · simp only [incremented, hfind, Option.bind_none, Option.all_none]
  · simp only [incremented, hfind, Option.bind_some]
    exact (Option.filter_eq_some_iff.mp hfind).2

theorem alone_expire {key : String} {seconds : Int} {e : Entry} (hfind : w.find? key = some e) (hpos : 0 < seconds) :
    alone (request (.expire key seconds)) w =
      (.ok (), w.setKey key (some { e with expiresAt := some (w.clock + seconds * second) })) := by
  rw [alone_request]
  simp only [limitExec, LimiterWorld.expire, hfind, not_le.mpr hpos, if_false]

/-- An `INCR` and its `EXPIRE`. -/
theorem alone_expire_incremented {key : String} {seconds : Int} (hpos : 0 < seconds) :
    alone (request (.expire key seconds)) (w.setKey key (some (incremented key w))) =
      (.ok (), w.setKey key (some ⟨.string (numberAt key w + 1), some (w.clock + seconds * second)⟩)) := by
  rw [alone_expire (find?_incremented key w) hpos]
  simp only [LimiterWorld.setKey, put_put, incremented]

/-- What is set to expire later is there now. -/
theorem find?_setKey_later {key : String} {value : RedisValue} {seconds : Int} (hpos : 0 < seconds) :
    (w.setKey key (some ⟨value, some (w.clock + seconds * second)⟩)).find? key =
      some ⟨value, some (w.clock + seconds * second)⟩ := by
  rw [find?_setKey_self]
  refine Option.filter_eq_some_iff.mpr ⟨rfl, ?_⟩
  simp only [Option.all_some, decide_eq_true_eq]
  unfold second
  omega

theorem find?_setKey_of_ne {key key' : String} {e : Option Entry} (h : key ≠ key') :
    (w.setKey key' e).find? key = w.find? key := by
  simp only [LimiterWorld.find?, setKey_keys, put_of_ne h, setKey_clock]
  rfl

end Imghost.Limits
