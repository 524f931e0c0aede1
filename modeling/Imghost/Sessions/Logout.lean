/-
  Imghost.Sessions.Logout — when a session that was cleared stays cleared.

  `clear_session` swallows `RedisUnavailable`: if its delete does not reach Redis it returns
  all the same, the record stays, and once Redis is back the token resolves to its user.
  The other two methods raise `SessionBackendUnavailable` when sessions fail closed.

  When every delete of the record reaches Redis (or finds the record gone), clearing is
  final: the record is gone, or the token has expired, and no run brings either back.
-/

import Imghost.Sessions.Backend
import Imghost.Tokens.Hostile

namespace Imghost.Sessions.Logout

open Imghost.Async Imghost.Limits Imghost.Model Imghost.Tokens Program

variable {lib : SessionLib} {settings : SessionSettings} {token sessionId : String}

/-- What `_decode_signed_token` makes of the token at a time. -/
abbrev decodedAt (lib : SessionLib) (settings : SessionSettings) (token : String) (now : DateTime) :
    Except TokenExc (Option SessionPayload) := decodeSignedToken lib.toTokenLib settings.secretKey now token

/-- The token was issued with store "redis", for this session. -/
def StoredInRedis (lib : SessionLib) (settings : SessionSettings) (token sessionId : String) : Prop :=
  ∀ now payload, decodedAt lib settings token now = .ok (some payload) →
    payload.store = "redis" ∧ payload.sessionId = sessionId

/-- The key a request sets. -/
def SessionReq.sets : SessionReq → Option String
  | .set key _ _ => some key
  | _ => none

abbrev SessionPool := Pool SessionReply SessionExc SessionWorld SessionResult

/-- No session that is created later has the same id: `uuid4` draws another. -/
def FreshIds (settings : SessionSettings) (sessionId : String) (_ : SessionPool) (_ : Nat) (r : SessionReq)
    (_ : Option SessionExc) : Prop :=
  SessionReq.sets r ≠ some (sessionKey settings sessionId)

/-- A delete of the record reaches Redis, or the record is gone. -/
def Delivered (settings : SessionSettings) (sessionId : String) (p : SessionPool) (_ : Nat) (r : SessionReq)
    (fault : Option SessionExc) : Prop :=
  r = .delete (sessionKey settings sessionId) → fault = some (.redisUnavailable false) →
    p.world.find? (sessionKey settings sessionId) = none

instance (settings : SessionSettings) (sessionId : String) (p : SessionPool) (i : Nat) (r : SessionReq)
    (fault : Option SessionExc) : Decidable (FreshIds settings sessionId p i r fault) := by
  unfold FreshIds
  infer_instance

instance (settings : SessionSettings) (sessionId : String) (p : SessionPool) (i : Nat) (r : SessionReq)
    (fault : Option SessionExc) : Decidable (Delivered settings sessionId p i r fault) := by
  unfold Delivered
  infer_instance

/-! ## A token over time -/

theorem decodedAt_of_parsed {now : DateTime} {fields : List (String × Json)} {payload : SessionPayload}
    (hverify : verify lib.toTokenLib settings.secretKey token = .ok (some (.dict fields)))
    (hlive : notExpired lib.toTokenLib now (fields.lookup "expires_at") = .ok true)
    (hpayload : sessionPayload fields = some payload) : decodedAt lib settings token now = .ok (some payload) := by
  simp only [decodedAt, decodeSignedToken, hverify, hlive, hpayload]

theorem notExpired_mono {now now' : DateTime} {raw : Option Json} {b : Bool} (hlater : now ≤ now')
    (h : notExpired lib.toTokenLib now raw = .ok b) :
    ∃ b', notExpired lib.toTokenLib now' raw = .ok b' ∧ (b' = true → b = true) := by
  unfold notExpired at h ⊢
  split at h
  · rename_i htruthy
    rw [if_pos htruthy]
    rcases raw with _ | _ | _ | _ | _ | s | _ | _ <;> try cases h
    dsimp only at h ⊢
    rcases hiso : lib.fromisoformat s with _ | wallClock | instant <;> rw [hiso] at h
    · exact ⟨false, rfl, nofun⟩
    · cases h
    · cases h
      refine ⟨_, rfl, fun hlive => ?_⟩
      simp only [Bool.not_eq_true', decide_eq_false_iff_not] at hlive ⊢
      exact fun hexpired => hlive (hexpired.trans hlater)
  · rename_i htruthy
    rw [if_neg htruthy]
    cases h
    exact ⟨true, rfl, fun _ => rfl⟩

/-- What a token decodes to stays, until it expires. -/
theorem decodedAt_mono {now now' : DateTime} {x : Option SessionPayload} (hlater : now ≤ now')
    (h : decodedAt lib settings token now = .ok x) :
    decodedAt lib settings token now' = .ok none ∨ decodedAt lib settings token now' = .ok x := by
  unfold decodedAt decodeSignedToken at h ⊢
  split at h
  · cases h
  · rename_i fields hverify
    rcases hdate : notExpired lib.toTokenLib now (fields.lookup "expires_at") with e | b
    · rw [hdate] at h
      cases h
    obtain ⟨b', hdate', hlive⟩ := notExpired_mono hlater hdate
    rw [hdate']
    cases b' with
    | false => exact .inl rfl
    | true =>
      obtain rfl := hlive rfl
      rw [hdate] at h
      exact .inr h
  · exact .inl rfl

/-- The session is over: its record is gone, or its token has expired. -/
def Gone (lib : SessionLib) (settings : SessionSettings) (token sessionId : String) (w : SessionWorld) : Prop :=
  w.find? (sessionKey settings sessionId) = none ∨ decodedAt lib settings token w.clock = .ok none

/-! ## What a call of Redis does -/

section

variable {i : Nat} {r : SessionReq} {fault : Option SessionExc} {w : SessionWorld}

theorem sessionExec_clock (r : SessionReq) (w : SessionWorld) : (sessionExec r w).2.clock = w.clock := by
  cases r with
  | set key value ex =>
    simp only [sessionExec]
    split <;> rfl
  | utcnow | get key | delete key => rfl

/-- A call goes through, or raises `RedisUnavailable`; then its effect took place or did not. -/
theorem answer_cases (i : Nat) (r : SessionReq) (fault : Option SessionExc) (w : SessionWorld) :
    sessionBackend.answer i r fault w = sessionExec r w ∨
      r ≠ .utcnow ∧ (sessionBackend.answer i r fault w = (.error (.redisUnavailable true), (sessionExec r w).2) ∨
        fault = some (.redisUnavailable false) ∧
          sessionBackend.answer i r fault w = (.error (.redisUnavailable false), w)) := by
  rcases fault with _ | ⟨_ | _⟩ | _ | _ | _ | _
  · exact .inl rfl
  · cases r with
    | utcnow => exact .inl rfl
    | set | get | delete => exact .inr ⟨nofun, .inr ⟨rfl, rfl⟩⟩
  · cases r with
    | utcnow => exact .inl rfl
    | set | get | delete => exact .inr ⟨nofun, .inl rfl⟩
  all_goals exact .inl (by cases r <;> rfl)

theorem answer_clock : (sessionBackend.answer i r fault w).2.clock = w.clock := by
  rcases answer_cases i r fault w with h | ⟨-, h | ⟨-, h⟩⟩ <;> rw [h]
  · exact sessionExec_clock r w
  · exact sessionExec_clock r w

/-- A record that is gone comes back only when it is set. -/
theorem absent_answer {key : String} (h : w.find? key = none) (hset : SessionReq.sets r ≠ some key) :
    (sessionBackend.answer i r fault w).2.find? key = none := by
  have hexec : (sessionExec r w).2.find? key = none := by
    cases r with
    | utcnow => exact h
    | get key' => exact h
    | delete key' =>
      by_cases e : key = key'
      · subst e
        simp only [sessionExec, SessionWorld.find?, put_self, Option.filter_none]
      · simp only [sessionExec, SessionWorld.find?, put_of_ne e]
        exact h
    | set key' value ex =>
      have hne : key ≠ key' := by
        rintro rfl
        exact hset rfl
      simp only [sessionExec]
      split
      · exact h
      · simp only [SessionWorld.find?, put_of_ne hne]
        exact h
  rcases answer_cases i r fault w with ha | ⟨-, ha | ⟨-, ha⟩⟩ <;> rw [ha]
  · exact hexec
  · exact hexec
  · exact h

/-- A delete that is delivered leaves no record. -/
theorem absent_of_delete {key : String} (h : fault = some (.redisUnavailable false) → w.find? key = none) :
    (sessionBackend.answer i (.delete key) fault w).2.find? key = none := by
  have hexec : (sessionExec (.delete key) w).2.find? key = none := by
    simp only [sessionExec, SessionWorld.find?, put_self, Option.filter_none]
  rcases answer_cases i (.delete key) fault w with ha | ⟨-, ha | ⟨hfault, ha⟩⟩ <;> rw [ha]
  · exact hexec
  · exact hexec
  · exact h hfault

theorem absent_elapse {key : String} (h : w.find? key = none) (d : Nat) :
    (sessionBackend.elapse d w).find? key = none := by
  rw [SessionWorld.find?, Option.filter_eq_none_iff] at h ⊢
  intro e he
  have hexpired := h e he
  rw [decide_eq_true_eq, not_lt] at hexpired ⊢
  exact hexpired.trans (Int.le_add_of_nonneg_right (Int.natCast_nonneg d))

theorem answer_utcnow : sessionBackend.answer i .utcnow fault w = (.ok w.clock, w) := by
  rcases answer_cases i .utcnow fault w with h | ⟨h, -⟩
  · exact h
  · exact absurd rfl h

end

theorem Gone.answer {i : Nat} {r : SessionReq} {fault : Option SessionExc} {w : SessionWorld}
    (h : Gone lib settings token sessionId w) (hset : SessionReq.sets r ≠ some (sessionKey settings sessionId)) :
    Gone lib settings token sessionId (sessionBackend.answer i r fault w).2 := by
  refine h.imp (fun h => absent_answer h hset) fun h => ?_
  rw [answer_clock]
  exact h

theorem Gone.elapse {w : SessionWorld} (h : Gone lib settings token sessionId w) (d : Nat) :
    Gone lib settings token sessionId (sessionBackend.elapse d w) := by
  refine h.imp (fun h => absent_elapse h d) fun h => ?_
  have hlater : w.clock ≤ (sessionBackend.elapse d w).clock := Int.le_add_of_nonneg_right (Int.natCast_nonneg d)
  exact (decodedAt_mono hlater h).elim id id

/-! ## Clearing -/

/-- How far a call of `clear_session` has come. -/
inductive ClearPhase where
  | begun
  | decoded
  | done
  deriving DecidableEq

/-- Clearing is done when the token was found expired, or the delete was sent. -/
def clearing (lib : SessionLib) (settings : SessionSettings) (token sessionId : String) :
    Protocol SessionReply SessionExc ClearPhase where
  can _ _ := True
  next phase e :=
    match e with
    | ⟨.utcnow, .ok now, _⟩ =>
      match decodedAt lib settings token now with
      | .ok none => .done
      | .ok (some _) => if phase = .done then .done else .decoded
      | .error _ => phase
    | ⟨.delete key, _, _⟩ => if phase = .decoded ∧ key = sessionKey settings sessionId then .done else phase
    | _ => phase

/-- What is known of the world in a phase. -/
def Reached (lib : SessionLib) (settings : SessionSettings) (token sessionId : String) (w : SessionWorld) :
    ClearPhase → Prop
  | .begun => True
  | .decoded => ∃ now ≤ w.clock, ∃ x, decodedAt lib settings token now = .ok x
  | .done => (∃ now ≤ w.clock, ∃ x, decodedAt lib settings token now = .ok x) ∧ Gone lib settings token sessionId w

/-- Any reply may come. -/
abbrev clears (lib : SessionLib) (settings : SessionSettings) (token sessionId : String) :
    Machine SessionReply SessionExc ClearPhase := (clearing lib settings token sessionId).machine fun _ => True

theorem decode_clears (hstored : StoredInRedis lib settings token sessionId) :
    wp (clears lib settings token sessionId) (fun x phase => (x = .ok none → phase = .done) ∧
      ∀ payload, x = .ok (some payload) → phase = .decoded ∧ payload.store = "redis" ∧ payload.sessionId = sessionId)
      (decode lib settings token) .begun := by
  unfold decode
  refine (wp_bind _ _ _).mpr ((wp_perform _).mpr ⟨trivial, ?_⟩)
  rintro (e | now) phase ⟨b, -, rfl⟩
  · exact ⟨nofun, nofun⟩
  · rw [bindPost_ok, wp_ofExcept]
    rcases hnow : decodedAt lib settings token now with e | _ | payload <;>
      rw [show decodeSignedToken lib.toTokenLib settings.secretKey now token = _ from hnow]
    · exact ⟨nofun, nofun⟩
    · refine ⟨fun _ => ?_, nofun⟩
      simp only [clearing, hnow]
    · refine ⟨nofun, fun payload' hpayload => ?_⟩
      obtain rfl : payload = payload' := Option.some.inj (Except.ok.inj hpayload)
      refine ⟨?_, hstored now payload hnow⟩
      simp only [clearing, hnow, reduceCtorEq, if_false]

/-- A call of `clear_session` that returns is done. -/
theorem clear_done (hstored : StoredInRedis lib settings token sessionId) (hne : token ≠ "") :
    wp (clears lib settings token sessionId) (fun x phase => (∃ a, x = .ok a) → phase = .done)
      (SessionCall.program lib settings (.clear (some token))) .begun := by
  have hclear : wp (clears lib settings token sessionId) (fun x phase => x = .ok () → phase = .done)
      (clearSession lib settings (some token)) .begun := by
    unfold clearSession
    simp only [if_neg hne]
    refine wp_seq (decode_clears hstored) (fun found phase hfound => ?_) fun e _ _ h => by cases h
    cases found with
    | none => exact fun _ => hfound.1 rfl
    | some payload =>
      obtain ⟨rfl, hredis, hid⟩ := hfound.2 payload rfl
      simp only [hredis, ne_eq, not_true_eq_false, if_false, wp_bind, wp_attempt, wp_perform]
      refine ⟨trivial, ?_⟩
      rintro x phase ⟨b, -, rfl⟩
      have hdone : (clearing lib settings token sessionId).next .decoded
          ⟨.delete (sessionKey settings payload.sessionId), x, b⟩ = .done := by
        simp only [clearing, hid, and_self, if_true]
      rcases x with (_ | _ | _ | _ | _) | _
      · exact fun _ => hdone
      · intro h
        cases h
      · intro h
        cases h
      · intro h
        cases h
      · intro h
        cases h
      · exact fun _ => hdone
  refine wp_seq hclear (fun _ phase hphase _ => hphase rfl) fun e _ _ h => by
    obtain ⟨a, ha⟩ := h
    cases ha

/-- While a call of `clear_session` runs among others: what its phase says of the world. -/
structure Clearing (lib : SessionLib) (settings : SessionSettings) (token sessionId : String) (c : Nat) (p : SessionPool) :
    Prop where
  follows : p.Follows (fun _ => clearing lib settings token sessionId) (fun _ => True)
    (fun i x phase => i = c → (∃ a, x = .ok a) → phase = .done) fun _ => .begun
  reached : Reached lib settings token sessionId p.world (p.seen (clearing lib settings token sessionId).next .begun c)

section

variable {c : Nat}

theorem Reached.answer {i : Nat} {r : SessionReq} {fault : Option SessionExc} {w : SessionWorld} {phase : ClearPhase}
    (h : Reached lib settings token sessionId w phase)
    (hset : SessionReq.sets r ≠ some (sessionKey settings sessionId)) :
    Reached lib settings token sessionId (sessionBackend.answer i r fault w).2 phase := by
  cases phase with
  | begun => trivial
  | decoded =>
    obtain ⟨now, hnow, x, hx⟩ := h
    exact ⟨now, answer_clock.symm ▸ hnow, x, hx⟩
  | done =>
    obtain ⟨⟨now, hnow, x, hx⟩, hgone⟩ := h
    exact ⟨⟨now, answer_clock.symm ▸ hnow, x, hx⟩, hgone.answer hset⟩

theorem Reached.elapse {w : SessionWorld} {phase : ClearPhase} (h : Reached lib settings token sessionId w phase)
    (d : Nat) : Reached lib settings token sessionId (sessionBackend.elapse d w) phase := by
  have hlater : w.clock ≤ (sessionBackend.elapse d w).clock := Int.le_add_of_nonneg_right (Int.natCast_nonneg d)
  cases phase with
  | begun => trivial
  | decoded =>
    obtain ⟨now, hnow, x, hx⟩ := h
    exact ⟨now, hnow.trans hlater, x, hx⟩
  | done =>
    obtain ⟨⟨now, hnow, x, hx⟩, hgone⟩ := h
    exact ⟨⟨now, hnow.trans hlater, x, hx⟩, hgone.elapse d⟩

/-- A call of `clear_session` itself takes it further. -/
theorem Reached.next {i : Nat} {r : SessionReq} {fault : Option SessionExc} {p : SessionPool} {phase : ClearPhase}
    (h : Reached lib settings token sessionId p.world phase) (hset : FreshIds settings sessionId p i r fault)
    (hdelete : Delivered settings sessionId p i r fault) :
    Reached lib settings token sessionId (sessionBackend.answer i r fault p.world).2
      ((clearing lib settings token sessionId).next phase
        ⟨r, (sessionBackend.answer i r fault p.world).1, fault.isSome⟩) := by
  cases r with
  | set key value ex => exact h.answer hset
  | get key => exact h.answer hset
  | utcnow =>
    simp only [answer_utcnow, clearing]
    rcases hnow : decodedAt lib settings token p.world.clock with e | _ | payload
    · exact h
    · exact ⟨⟨_, le_rfl, _, hnow⟩, .inr hnow⟩
    · dsimp only
      split
      · rename_i hdone
        exact hdone ▸ h
      · exact ⟨_, le_rfl, _, hnow⟩
  | delete key =>
    simp only [clearing]
    split
    · rename_i hours
      obtain ⟨rfl, rfl⟩ := hours
      obtain ⟨now, hnow, x, hx⟩ := h
      exact ⟨⟨now, answer_clock.symm ▸ hnow, x, hx⟩, .inl (absent_of_delete (hdelete rfl))⟩
    · exact h.answer hset

theorem Clearing.advance {p : SessionPool} {i : Nat} {t : Task SessionReply SessionExc SessionResult} {r : SessionReq}
    {k : Except SessionExc (SessionReply r) → SessionProg SessionResult} {fault : Option SessionExc}
    (h : Clearing lib settings token sessionId c p) (ht : p.tasks[i]? = some t) (hr : t.rest = .call r k)
    (hset : FreshIds settings sessionId p i r fault) (hdelete : Delivered settings sessionId p i r fault) :
    Clearing lib settings token sessionId c (p.advance sessionBackend i t r k fault) := by
  refine ⟨h.follows.advance ht hr trivial, ?_⟩
  show Reached _ _ _ _ (sessionBackend.answer i r fault p.world).2 _
  by_cases e : c = i
  · subst e
    rw [Pool.seen_advance_self ht]
    exact h.reached.next hset hdelete
  · rw [Pool.seen_advance_of_ne e]
    exact h.reached.answer hset

/-- Once a call of `clear_session` has returned, the session is over. -/
theorem gone_of_cleared (hstored : StoredInRedis lib settings token sessionId) {w : SessionWorld}
    {calls : List SessionCall} {cs : List (Choice SessionExc)}
    (hmeets : (Pool.start w (calls.map (SessionCall.program lib settings))).Meets sessionBackend
      (fun p i r fault => FreshIds settings sessionId p i r fault ∧ Delivered settings sessionId p i r fault) cs)
    (hcall : calls[c]? = some (.clear (some token))) {t : Task SessionReply SessionExc SessionResult}
    (ht : ((Pool.start w (calls.map (SessionCall.program lib settings))).run sessionBackend cs).tasks[c]? = some t)
    {a : SessionResult} (hdone : t.rest.outcome = some (.ok a)) :
    Reached lib settings token sessionId
      ((Pool.start w (calls.map (SessionCall.program lib settings))).run sessionBackend cs).world .done := by
  by_cases hempty : token = ""
  · -- the empty token never decodes to anything
    have hnone : ∀ now, decodedAt lib settings token now = .ok none := by
      intro now
      subst hempty
      have hsplit : splitToken "" = none := by decide
      simp only [decodedAt, decodeSignedToken, verify, hsplit]
    exact ⟨⟨_, le_rfl, _, hnone _⟩, .inr (hnone _)⟩
  · have hinv : Clearing lib settings token sessionId c _ :=
      Pool.run_invariant (fun p d h => ⟨h.follows, h.reached.elapse d⟩)
        (fun p i t r k fault h ht hr hC => h.advance ht hr hC.1 hC.2)
        ⟨Pool.follows_start fun i q hq => by
            by_cases e : i = c
            · subst e
              rw [List.getElem?_map, hcall] at hq
              obtain rfl := Option.some.inj hq
              exact wp_mono (fun x phase h _ => h) (clear_done hstored hempty)
            · exact wp_mono (fun x phase _ h => absurd h e) (Protocol.wp_free (fun _ _ => trivial) q ClearPhase.begun),
          by rw [Pool.seen_start]; trivial⟩ hmeets
    have hphase := hinv.follows.done ht hdone rfl ⟨a, rfl⟩
    have hreached := hinv.reached
    rwa [Pool.seen_eq ht, show t.log.foldl (clearing lib settings token sessionId).next ClearPhase.begun = .done from hphase]
      at hreached

end

/-! ## Resolving afterwards -/

/-- The replies from `start` on: the clock goes on, and a record that is gone is not found. -/
def Later (settings : SessionSettings) (sessionId : String) (start : DateTime) (absent : Prop)
    (e : Event SessionReply SessionExc) : Prop :=
  (∀ x b, e = ⟨.utcnow, x, b⟩ → ∃ now, x = .ok now ∧ start ≤ now) ∧
    ∀ x b, e = ⟨.get (sessionKey settings sessionId), x, b⟩ →
      (∃ lost, x = .error (.redisUnavailable lost)) ∨ ∃ raw, x = .ok raw ∧ (absent → raw = none)

/-- Nothing is asked of the calls. -/
def unconstrained : Protocol SessionReply SessionExc Unit := ⟨fun _ _ => True, fun _ _ => ()⟩

/-- What `resolve_user` may make of a session that is over. -/
def Denied (x : Except SessionExc SessionResult) : Prop :=
  x = .ok (.resolved none) ∨ x = .error .sessionBackendUnavailable

theorem resolve_denied (hclosed : settings.sessionRedisFailClosed = true)
    (hstored : StoredInRedis lib settings token sessionId) {start : DateTime} {absent : Prop}
    (hdecoded : ∃ now ≤ start, ∃ x, decodedAt lib settings token now = .ok x)
    (hgone : absent ∨ decodedAt lib settings token start = .ok none) :
    wp (unconstrained.machine (Later settings sessionId start absent)) (fun x _ => Denied x)
      (SessionCall.program lib settings (.resolve token)) () := by
  have hresolve : wp (unconstrained.machine (Later settings sessionId start absent))
      (fun x _ => x = .ok none ∨ x = .error .sessionBackendUnavailable) (resolveUser lib settings token) () := by
    unfold resolveUser decode
    refine (wp_bind _ _ _).mpr ((wp_bind _ _ _).mpr ((wp_perform _).mpr ⟨trivial, ?_⟩))
    rintro x g ⟨b, hlater, rfl⟩
    obtain ⟨now, rfl, hnow⟩ := hlater.1 x b rfl
    -- the token decoded before, so it decodes now or has expired
    obtain ⟨then_, hthen, found, hfound⟩ := hdecoded
    have hstill := decodedAt_mono (hthen.trans hnow) hfound
    obtain ⟨y, hy⟩ : ∃ y, decodedAt lib settings token now = .ok y := hstill.elim (fun h => ⟨_, h⟩) fun h => ⟨_, h⟩
    rw [bindPost_ok, wp_ofExcept, show decodeSignedToken lib.toTokenLib settings.secretKey now token = _ from hy]
    cases y with
    | none => exact .inl rfl
    | some payload =>
      have habsent : absent := by
        refine hgone.resolve_right fun hexpired => ?_
        have hnone := (decodedAt_mono hnow hexpired).elim id id
        rw [hy] at hnone
        cases hnone
      obtain ⟨hredis, rfl⟩ := hstored now payload hy
      simp only [Except.mapError, bindPost_ok, hredis, ne_eq, not_true_eq_false, if_false, wp_bind, wp_attempt,
        wp_perform]
      refine ⟨trivial, ?_⟩
      rintro x g ⟨b, hlater, rfl⟩
      rcases hlater.2 x b rfl with ⟨lost, rfl⟩ | ⟨raw, rfl, hraw⟩
      · simp only [hclosed, if_true]
        exact .inr rfl
      · rw [hraw habsent]
        exact .inl rfl
  refine wp_seq hresolve (fun found _ hfound => ?_) fun e _ he => ?_
  · rcases hfound with hfound | hfound
    · cases hfound
      exact .inl rfl
    · cases hfound
  · rcases he with he | he
    · cases he
    · cases he
      exact .inr rfl

/-- The pool after the session is over. -/
structure Over (settings : SessionSettings) (sessionId : String) (start : DateTime) (absent : Prop) (i : Nat)
    (p : SessionPool) : Prop where
  later : start ≤ p.world.clock
  gone : absent → p.world.find? (sessionKey settings sessionId) = none
  follows : p.Follows (fun _ => unconstrained) (Later settings sessionId start absent)
    (fun j x _ => j = i → Denied x) fun _ => ()

theorem later_answer {start : DateTime} {absent : Prop} {w : SessionWorld} {i : Nat} {r : SessionReq}
    {fault : Option SessionExc} (hlater : start ≤ w.clock)
    (habsent : absent → w.find? (sessionKey settings sessionId) = none) :
    Later settings sessionId start absent ⟨r, (sessionBackend.answer i r fault w).1, fault.isSome⟩ := by
  constructor
  · intro x b he
    cases he
    exact ⟨w.clock, by rw [answer_utcnow], hlater⟩
  · intro x b he
    cases he
    rcases answer_cases i (.get (sessionKey settings sessionId)) fault w with h | ⟨-, h | ⟨-, h⟩⟩ <;> rw [h]
    · refine .inr ⟨_, rfl, fun habs => ?_⟩
      rw [habsent habs]
      rfl
    · exact .inl ⟨_, rfl⟩
    · exact .inl ⟨_, rfl⟩

theorem Over.advance {start : DateTime} {absent : Prop} {i j : Nat} {p : SessionPool}
    {t : Task SessionReply SessionExc SessionResult} {r : SessionReq}
    {k : Except SessionExc (SessionReply r) → SessionProg SessionResult} {fault : Option SessionExc}
    (h : Over settings sessionId start absent i p) (ht : p.tasks[j]? = some t) (hr : t.rest = .call r k)
    (hset : FreshIds settings sessionId p j r fault) :
    Over settings sessionId start absent i (p.advance sessionBackend j t r k fault) where
  later := by
    show start ≤ (sessionBackend.answer j r fault p.world).2.clock
    rw [answer_clock]
    exact h.later
  gone habs := absent_answer (h.gone habs) hset
  follows := h.follows.advance ht hr (later_answer h.later h.gone)

/-- In every run whose deletes of the record reach Redis (or find it gone): once
    `clear_session(token)` has returned, every `resolve_user(token)` that begins later
    returns `None` or raises `SessionBackendUnavailable`. -/
theorem logout_is_final (hclosed : settings.sessionRedisFailClosed = true)
    (hstored : StoredInRedis lib settings token sessionId) (w : SessionWorld) (calls : List SessionCall)
    (before after : List (Choice SessionExc))
    (hfresh : (Pool.start w (calls.map (SessionCall.program lib settings))).Meets sessionBackend
      (FreshIds settings sessionId) (before ++ after))
    (hdelivered : (Pool.start w (calls.map (SessionCall.program lib settings))).Meets sessionBackend
      (Delivered settings sessionId) (before ++ after))
    (c i : Nat) (hclear : calls[c]? = some (.clear (some token)))
    (hcleared : (((Pool.start w (calls.map (SessionCall.program lib settings))).run sessionBackend before).tasks[c]?.bind
      (·.rest.outcome)) = some (.ok .cleared))
    (hresolve : calls[i]? = some (.resolve token))
    (hbegins : ((Pool.start w (calls.map (SessionCall.program lib settings))).run sessionBackend before).tasks[i]?.all
      (·.log.isEmpty) = true) :
    ∀ x, (((Pool.start w (calls.map (SessionCall.program lib settings))).run sessionBackend (before ++ after)).tasks[i]?.bind
      (·.rest.outcome)) = some x → x = .ok (.resolved none) ∨ x = .error .sessionBackendUnavailable := by
  obtain ⟨t, ht, hdone⟩ := Option.bind_eq_some_iff.mp hcleared
  obtain ⟨hbefore, hafter⟩ := Pool.meets_append.mp (hfresh.and hdelivered)
  obtain ⟨hdecoded, hgone⟩ := gone_of_cleared hstored hbefore hclear ht hdone
  have hbegin : ∀ u, ((Pool.start w (calls.map (SessionCall.program lib settings))).run sessionBackend before).tasks[i]? =
      some u → u.log = [] ∧ u.rest = SessionCall.program lib settings (.resolve token) := by
    intro u hu
    rw [hu, Option.all_some, List.isEmpty_iff] at hbegins
    have hrest := Pool.rest_of_untouched hu hbegins
    rw [List.getElem?_map, hresolve, Option.map_some] at hrest
    exact ⟨hbegins, (Option.some.inj hrest).symm⟩
  rw [Pool.run_append]
  generalize (Pool.start w (calls.map (SessionCall.program lib settings))).run sessionBackend before = p at *
  have hover : Over settings sessionId p.world.clock (p.world.find? (sessionKey settings sessionId) = none) i
      (p.run sessionBackend after) := by
    refine Pool.run_invariant (fun q d h => ⟨?_, fun habs => absent_elapse (h.gone habs) d, h.follows⟩)
      (fun q j t r k fault h ht hr hC => h.advance ht hr hC.1) ⟨le_rfl, id, fun j u hj => ?_⟩ hafter
    · exact h.later.trans (Int.le_add_of_nonneg_right (Int.natCast_nonneg d))
    · by_cases e : j = i
      · subst e
        obtain ⟨hlog, hrest⟩ := hbegin u hj
        rw [hlog, hrest]
        exact wp_mono (fun x _ h _ => h) (resolve_denied hclosed hstored hdecoded hgone)
      · exact wp_mono (fun x _ _ h => absurd h e) (Protocol.wp_free (fun _ _ => trivial) _ _)
  intro x hx
  obtain ⟨u, hu, hux⟩ := Option.bind_eq_some_iff.mp hx
  exact hover.follows.done hu hux rfl

/-! ## An outage at the wrong time -/

/-- The text of the payload of one session. -/
def payloadText : String :=
  "\x7b\"created_at\":\"2026-01-01T00:00:00+00:00\",\"expires_at\":null,\"session_id\":\"s01\",\"store\":\"redis\",\"user_id\":\"u01\"\x7d"

def payloadBytes : Bytes := payloadText.toUTF8.toList

def payloadFields : List (String × Json) :=
  [("created_at", .str "2026-01-01T00:00:00+00:00"), ("expires_at", .null), ("session_id", .str "s01"),
    ("store", .str "redis"), ("user_id", .str "u01")]

/-- The text of its record. -/
def recordText : String := "\x7b\"user_id\": \"u01\"\x7d"

def zeroDigest : List Char := List.replicate 64 '0'

theorem zeroDigest_ascii : isAscii (String.ofList zeroDigest) = true := by
  rw [isAscii, String.toList_ofList]
  decide

/-- `json.loads` of the two texts. -/
def loadsSession (text : String) : Except TokenExc Json :=
  if text = payloadText then .ok (.dict payloadFields)
  else if text = recordText then .ok (.dict [("user_id", .str "u01")])
  else .error .jsonDecodeError

/-- A library of one digest, which knows the two texts. -/
def oneSession : SessionLib where
  hmacSha256 := fun _ _ => String.ofList zeroDigest
  hexdigest_ascii := fun _ _ => zeroDigest_ascii
  jsonLoads := loadsSession
  fromisoformat := fun _ => none
  str := fun _ => ""
  lower := id
  dumpsSorted := fun _ => payloadText
  dumps := fun _ => recordText
  isoformat := fun _ => "2026-01-01T00:00:00+00:00"

def failClosed : SessionSettings := ⟨"secret", 30, true, ⟨"imghost"⟩⟩

def issuedToken : String := String.ofList (b64encode payloadBytes ++ '.' :: zeroDigest)

def issuedPayload : SessionPayload := ⟨"s01", "u01", "2026-01-01T00:00:00+00:00", none, "redis"⟩

/-- The record of the session is in Redis. -/
def sessionInRedis : SessionWorld :=
  ⟨0, fun key => if key = "imghost:session:s01" then some ⟨recordText, 1000000000⟩ else none⟩

theorem issuedToken_splits : splitToken issuedToken = some (payloadBytes, String.ofList zeroDigest) := by
  have hparts : partitionDot issuedToken = (String.ofList (b64encode payloadBytes), true, String.ofList zeroDigest) := by
    simp only [partitionDot, issuedToken, String.toList_ofList, Prod.mk.injEq, String.ofList_inj]
    decide +kernel
  have hdecode : b64decode (String.ofList (b64encode payloadBytes)) = some payloadBytes := by
    have hpad : "".pushn '=' ((4 - (String.ofList (b64encode payloadBytes)).length % 4) % 4) = String.ofList [] := by
      rw [String.length_ofList]
      decide +kernel
    rw [b64decode, hpad, ← String.ofList_append, urlsafeB64decode, isAscii, String.toList_ofList]
    decide +kernel
  simp only [splitToken, hparts, hdecode]
  decide +kernel

theorem issuedToken_decodes (now : DateTime) :
    decodedAt oneSession failClosed issuedToken now = .ok (some issuedPayload) := by
  have hloads : oneSession.jsonLoads = loadsSession := rfl
  have hjson : oneSession.jsonLoads payloadText = .ok (.dict payloadFields) := by
    rw [hloads, loadsSession, if_pos rfl]
  have hverify : verify oneSession.toTokenLib failClosed.secretKey issuedToken = .ok (some (.dict payloadFields)) :=
    Hostile.verify_parsed.mpr ⟨payloadBytes, payloadText, issuedToken_splits, by decide +kernel, hjson⟩
  have hlive : notExpired oneSession.toTokenLib now (payloadFields.lookup "expires_at") = .ok true := rfl
  have hpayload : sessionPayload payloadFields = some issuedPayload := by decide
  exact decodedAt_of_parsed hverify hlive hpayload

theorem issuedToken_stored : StoredInRedis oneSession failClosed issuedToken "s01" := by
  intro now payload h
  obtain rfl := Option.some.inj (Except.ok.inj ((issuedToken_decodes now).symm.trans h))
  exact ⟨rfl, rfl⟩

/-- The two calls, with the token decoded. -/
theorem decode_issued : decode oneSession failClosed issuedToken = ask .utcnow >>= fun _ => pure (some issuedPayload) := by
  unfold decode
  congr 1
  funext now
  rw [show decodeSignedToken oneSession.toTokenLib failClosed.secretKey now issuedToken = _ from issuedToken_decodes now]
  rfl

theorem issuedToken_ne_empty : issuedToken ≠ "" := by
  intro h
  have := congrArg String.toList h
  simp [issuedToken] at this

/-- The record is deleted, and the token no longer resolves. -/
theorem a_logout_that_lasts :
    (sessionInRedis.find? "imghost:session:s01").isSome = true ∧
      ∀ x, (((Pool.start sessionInRedis ([.clear (some issuedToken), .resolve issuedToken].map
        (SessionCall.program oneSession failClosed))).run sessionBackend
          ([.call 0 none, .call 0 none] ++ [.call 1 none, .call 1 none])).tasks[1]?.bind (·.rest.outcome)) = some x →
        x = .ok (.resolved none) ∨ x = .error .sessionBackendUnavailable := by
  refine ⟨by decide, logout_is_final rfl issuedToken_stored sessionInRedis
    [.clear (some issuedToken), .resolve issuedToken] [.call 0 none, .call 0 none] [.call 1 none, .call 1 none]
    ?_ ?_ 0 1 rfl ?_ rfl ?_⟩
  all_goals
    simp only [List.map_cons, List.map_nil, SessionCall.program, clearSession, resolveUser, decode_issued,
      if_neg issuedToken_ne_empty]
    decide +kernel

/-- The delete fails; then Redis is back, and the token still resolves. -/
theorem a_logout_in_an_outage_is_undone :
    StoredInRedis oneSession failClosed issuedToken "s01" ∧
      let p := Pool.start sessionInRedis ([.clear (some issuedToken), .resolve issuedToken].map
        (SessionCall.program oneSession failClosed))
      let cleared := p.run sessionBackend [.call 0 none, .call 0 (some (.redisUnavailable false))]
      let resolved := cleared.run sessionBackend [.call 1 none, .call 1 none]
      (cleared.tasks[0]?.bind (·.rest.outcome)) = some (.ok .cleared) ∧
        (resolved.tasks[1]?.bind (·.rest.outcome)) = some (.ok (.resolved (some "u01"))) := by
  refine ⟨issuedToken_stored, ?_⟩
  simp only [List.map_cons, List.map_nil, SessionCall.program, clearSession, resolveUser, decode_issued,
    if_neg issuedToken_ne_empty]
  decide +kernel

end Imghost.Sessions.Logout
