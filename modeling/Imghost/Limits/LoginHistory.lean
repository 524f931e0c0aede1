/-
  Imghost.Limits.LoginHistory — what the limiter in memory says of a login attempt, from
  the calls made before it.

  A key is locked while the last of its failures that came with enough others in one
  window is recent. An address has had its attempts when those let through in the last
  minute reach the limit. The limiter keeps less than that: it drops what has left a
  window when it counts, and a lock when it finds it expired.

  What is proved, for calls at times that never go back:
    • an attempt is refused exactly if the address or the key is out of attempts by the
      history, where a refused attempt is no part of the history;
    • with no threshold set no key is ever locked, however often it fails.
-/

import Mathlib.Data.Finset.Dedup
import Mathlib.Data.Finset.Max
import Imghost.Data.Window
import Imghost.Limits.LoginKeys
import Imghost.Limits.Lockout

namespace Imghost.Limits.LoginHistory

open Imghost.Data Imghost.Model

/-! ## The history -/

inductive LoginCall where
  | enforceLoginAttempt (ipKey loginKey : String)
  | recordLoginFailure (loginKey : String)
  | recordLoginSuccess (loginKey : String)
  deriving DecidableEq, Repr

inductive Event where
  | admitted (ipKey : String)
  | failed (loginKey : String)
  | succeeded (loginKey : String)
  deriving DecidableEq, Repr

/-- What happened and when, the latest first. -/
abbrev History := List (Int × Event)

/-- The failures of a key since its last success, oldest first. -/
def failures (loginKey : String) : History → List Int
  | [] => []
  | (t, .failed key) :: history => if key = loginKey then failures loginKey history ++ [t] else failures loginKey history
  | (_, .succeeded key) :: history => if key = loginKey then [] else failures loginKey history
  | (_, .admitted _) :: history => failures loginKey history

/-- The attempts of an address that were let through, oldest first. -/
def admitted (ipKey : String) : History → List Int
  | [] => []
  | (t, .admitted ip) :: history => if ip = ipKey then admitted ipKey history ++ [t] else admitted ipKey history
  | (_, .failed _) :: history => admitted ipKey history
  | (_, .succeeded _) :: history => admitted ipKey history

/-- How many of the times lie in `(t - window, t]`. -/
def within (window : Int) (times : List Int) (t : Int) : Nat := times.countP fun s => decide (t - window < s ∧ s ≤ t)

section

variable (config : LimitConfig)

def threshold : Int := config .authRateLimitLoginAccountFailures
def window : Int := config .authRateLimitLoginAccountWindowSeconds * second
def lockTime : Int := config .authRateLimitLoginLockSeconds * second

/-- A failure that came with at least as many as the threshold. -/
def Locking (times : List Int) (f : Int) : Prop := threshold config ≤ within (window config) times f

instance (times : List Int) (f : Int) : Decidable (Locking config times f) := inferInstanceAs (Decidable (_ ≤ _))

/-- The lock time of the latest such failure is not over. -/
def Locked (times : List Int) (now : Int) : Prop :=
  ∃ f ∈ times, Locking config times f ∧ (∀ g ∈ times, Locking config times g → g ≤ f) ∧ now < f + lockTime config

instance (times : List Int) (now : Int) : Decidable (Locked config times now) :=
  inferInstanceAs (Decidable (∃ f ∈ times, _ ∧ (∀ g ∈ times, _ → _) ∧ _))

/-- The attempts let through in the last minute have reached the limit. -/
def Exhausted (times : List Int) (now : Int) : Prop :=
  0 < config .authRateLimitLoginIpRpm ∧ config .authRateLimitLoginIpRpm ≤ within minuteSeconds times now

instance (times : List Int) (now : Int) : Decidable (Exhausted config times now) := inferInstanceAs (Decidable (_ ∧ _))

/-- The verdict by the history. -/
def Refused (history : History) (now : Int) (ipKey loginKey : String) : Prop :=
  (0 < threshold config ∧ Locked config (failures loginKey history) now) ∨ Exhausted config (admitted ipKey history) now

instance (history : History) (now : Int) (ipKey loginKey : String) : Decidable (Refused config history now ipKey loginKey) :=
  inferInstanceAs (Decidable (_ ∨ _))

/-- What a call adds to the history: an attempt only if it is let through. -/
def record (history : History) (call : Int × LoginCall) : History :=
  match call with
  | (now, .enforceLoginAttempt ipKey loginKey) =>
    if Refused config history now ipKey loginKey then history else (now, .admitted ipKey) :: history
  | (now, .recordLoginFailure loginKey) => (now, .failed loginKey) :: history
  | (now, .recordLoginSuccess loginKey) => (now, .succeeded loginKey) :: history

def historyOf (calls : List (Int × LoginCall)) : History := calls.foldl (record config) []

/-! ## The limiter -/

def step (s : InMemoryAuthRateLimiter) (call : Int × LoginCall) : InMemoryAuthRateLimiter :=
  match call with
  | (now, .enforceLoginAttempt ipKey loginKey) => (s.enforceLoginAttempt config now ipKey loginKey).2
  | (now, .recordLoginFailure loginKey) => s.recordLoginFailure config now loginKey
  | (_, .recordLoginSuccess loginKey) => s.recordLoginSuccess loginKey

def run (calls : List (Int × LoginCall)) : InMemoryAuthRateLimiter := calls.foldl (step config) .empty

end

variable {config : LimitConfig} {s : InMemoryAuthRateLimiter} {history : History} {times : List Int} {last now now' : Int}
  {ipKey loginKey key : String}

/-! ## Counters -/

theorem since_length (window : Int) (h : ∀ t ∈ times, t ≤ now) :
    (Window.since id (now - window) times).length = within window times now := by
  rw [Window.since, within, List.countP_eq_length_filter]
  congr 1
  apply List.filter_congr
  intro t ht
  simp [h t ht]

theorem within_append_of_lt {window t : Int} (h : t < now) : within window (times ++ [now]) t = within window times t := by
  have hnot : ¬now ≤ t := not_le.mpr h
  simp [within, hnot]

theorem within_le_append (window t : Int) : within window times t ≤ within window (times ++ [now]) t := by
  simp [within]

/-- A counter that drops what has left the window, and all that was ever added to it. -/
structure Counts (window last : Int) (counter : AuthWindowCounter) (times : List Int) : Prop where
  recent : Window.Recent id (last - window) counter.events times
  inOrder : Window.Chronological id times
  before : ∀ t ∈ times, t ≤ last

namespace Counts

variable {width : Int} {counter : AuthWindowCounter}

theorem empty (width last : Int) : Counts width last .empty [] :=
  ⟨.refl _ _, List.Pairwise.nil, fun _ h => nomatch h⟩

theorem later (h : Counts width last counter times) (hnow : last ≤ now) : Counts width now counter times := by
  constructor
  · apply h.recent.mono
    omega
  · exact h.inOrder
  · intro t ht
    exact (h.before t ht).trans hnow

theorem add (h : Counts width now counter times) : Counts width now (counter.add now) (times ++ [now]) := by
  constructor
  · exact h.recent.append now
  · exact h.inOrder.append_singleton h.before
  · intro t ht
    rcases List.mem_append.mp ht with ht | ht
    · exact h.before t ht
    · exact (List.mem_singleton.mp ht).le

/-- Counting drops what is too old, and what is left is all there is in the window. -/
theorem count (h : Counts width now counter times) :
    (counter.count now width).1 = within width times now ∧ Counts width now (counter.count now width).2 times := by
  obtain ⟨hrecent, hleft⟩ := h.recent.prune h.inOrder (le_refl (now - width))
  refine ⟨?_, hrecent, h.inOrder, h.before⟩
  rw [← since_length width h.before, ← hleft]
  rfl

end Counts

/-! ## Locks -/

/-- It does not matter which of the failures is the latest. -/
theorem locked_iff : Locked config times now ↔ ∃ f ∈ times, Locking config times f ∧ now < f + lockTime config := by
  constructor
  · intro h
    obtain ⟨f, hf, hlocking, -, hnow⟩ := h
    exact ⟨f, hf, hlocking, hnow⟩
  · intro h
    obtain ⟨f, hf, hlocking, hnow⟩ := h
    have hmem : f ∈ (times.filter fun g => decide (Locking config times g)).toFinset := by simp [hf, hlocking]
    obtain ⟨latest, hlatest, hmax⟩ := Finset.exists_max_image _ id ⟨f, hmem⟩
    have hfirst : f ≤ latest := hmax f hmem
    simp only [List.mem_toFinset, List.mem_filter, decide_eq_true_eq] at hlatest hmax
    refine ⟨latest, hlatest.1, hlatest.2, fun g hg hlocks => hmax g ⟨hg, hlocks⟩, ?_⟩
    omega

/-- A failure locks the key from now on, or changes nothing about it. -/
theorem locked_append (h : ∀ t ∈ times, t ≤ now) :
    Locked config (times ++ [now]) now' ↔
      if Locking config (times ++ [now]) now then now' < now + lockTime config else Locked config times now' := by
  by_cases hreached : Locking config (times ++ [now]) now
  · rw [if_pos hreached, locked_iff]
    constructor
    · intro hlocked
      obtain ⟨f, hf, -, hbefore⟩ := hlocked
      have hle : f ≤ now := by
        rcases List.mem_append.mp hf with hf | hf
        · exact h f hf
        · exact (List.mem_singleton.mp hf).le
      omega
    · intro hbefore
      exact ⟨now, by simp, hreached, hbefore⟩
  · rw [if_neg hreached, locked_iff, locked_iff]
    -- the failures that count are those of an earlier time, before and after
    have hsame : ∀ f < now, Locking config (times ++ [now]) f ↔ Locking config times f := by
      intro f hf
      rw [Locking, within_append_of_lt hf, Locking]
    constructor
    · intro hlocked
      obtain ⟨f, hf, hlocks, hbefore⟩ := hlocked
      have hne : f ≠ now := by
        intro heq
        exact hreached (heq ▸ hlocks)
      have hmem : f ∈ times := by simpa [hne] using hf
      exact ⟨f, hmem, (hsame f (lt_of_le_of_ne (h f hmem) hne)).mp hlocks, hbefore⟩
    · intro hlocked
      obtain ⟨f, hf, hlocks, hbefore⟩ := hlocked
      have hlocks' : Locking config (times ++ [now]) f :=
        le_trans hlocks (Int.ofNat_le.mpr (@within_le_append times now _ f))
      exact ⟨f, by simp [hf], hlocks', hbefore⟩

/-! ## One call -/

/-- What the limiter keeps says of the next attempt what the history says. -/
structure Tracks (config : LimitConfig) (last : Int) (s : InMemoryAuthRateLimiter) (history : History) : Prop where
  failures : ∀ key, Counts (window config) last (s.failures .login key) (failures key history)
  attempts : ∀ ip, Counts minuteSeconds last (s.loginIpAttempts ip) (admitted ip history)
  locks : ∀ key now, last ≤ now → ((s.locks (FailureKind.login.scope ++ key)).any (now < ·) = true ↔
    0 < threshold config ∧ Locked config (LoginHistory.failures key history) now)

theorem tracks_empty (config : LimitConfig) (last : Int) : Tracks config last .empty [] := by
  constructor
  · intro key
    exact .empty _ _
  · intro ip
    exact .empty _ _
  · intro key now _
    simp [InMemoryAuthRateLimiter.empty, LoginHistory.failures, Locked]

theorem Tracks.later (h : Tracks config last s history) (hnow : last ≤ now) : Tracks config now s history := by
  constructor
  · intro key
    exact (h.failures key).later hnow
  · intro ip
    exact (h.attempts ip).later hnow
  · intro key now' hnow'
    exact h.locks key now' (hnow.trans hnow')

/-- An attempt of an address: let through while there are attempts left, and then counted. -/
theorem attempt_spec (config : LimitConfig) {counters : String → AuthWindowCounter} (h : Counts minuteSeconds now (counters ipKey) times) :
    (Exhausted config times now ∧
        (InMemoryAuthRateLimiter.attempt counters ipKey now (config .authRateLimitLoginIpRpm)).1 = .error tooManyAttempts ∧
        Counts minuteSeconds now
          ((InMemoryAuthRateLimiter.attempt counters ipKey now (config .authRateLimitLoginIpRpm)).2 ipKey) times) ∨
      (¬Exhausted config times now ∧
        (InMemoryAuthRateLimiter.attempt counters ipKey now (config .authRateLimitLoginIpRpm)).1 = .ok () ∧
        Counts minuteSeconds now
          ((InMemoryAuthRateLimiter.attempt counters ipKey now (config .authRateLimitLoginIpRpm)).2 ipKey)
          (times ++ [now])) := by
  obtain ⟨hcount, hkept⟩ := h.count
  by_cases hlimit : config .authRateLimitLoginIpRpm ≤ 0
  · refine .inr ⟨fun hexhausted => absurd hexhausted.1 (not_lt.mpr hlimit), ?_⟩
    simp only [InMemoryAuthRateLimiter.attempt, InMemoryAuthRateLimiter.enforceAttemptCounter, if_pos hlimit, put_self]
    exact ⟨trivial, h.add⟩
  · by_cases hreached : config .authRateLimitLoginIpRpm ≤ within minuteSeconds times now
    · refine .inl ⟨⟨not_le.mp hlimit, hreached⟩, ?_⟩
      rw [← hcount] at hreached
      simp only [InMemoryAuthRateLimiter.attempt, InMemoryAuthRateLimiter.enforceAttemptCounter, if_neg hlimit, if_pos hreached,
        put_self]
      exact ⟨trivial, hkept⟩
    · refine .inr ⟨fun hexhausted => hreached hexhausted.2, ?_⟩
      rw [← hcount] at hreached
      simp only [InMemoryAuthRateLimiter.attempt, InMemoryAuthRateLimiter.enforceAttemptCounter, if_neg hlimit, if_neg hreached,
        put_self]
      exact ⟨trivial, hkept.add⟩

/-- A lock in force refuses; otherwise the attempts of the address decide. -/
theorem enforce_cases (config : LimitConfig) (now : Int) (ipKey loginKey : String) (s : InMemoryAuthRateLimiter) :
    ((s.locks (FailureKind.login.scope ++ loginKey)).any (now < ·) = true ∧
        (s.enforceLoginAttempt config now ipKey loginKey).1 = .error tooManyAttempts ∧
        (s.enforceLoginAttempt config now ipKey loginKey).2.loginIpAttempts = s.loginIpAttempts) ∨
      ((s.locks (FailureKind.login.scope ++ loginKey)).any (now < ·) = false ∧
        ((s.enforceLoginAttempt config now ipKey loginKey).1,
            (s.enforceLoginAttempt config now ipKey loginKey).2.loginIpAttempts) =
          InMemoryAuthRateLimiter.attempt s.loginIpAttempts ipKey now (config .authRateLimitLoginIpRpm)) := by
  unfold InMemoryAuthRateLimiter.enforceLoginAttempt InMemoryAuthRateLimiter.checkLock
  rcases hlock : s.locks (FailureKind.login.scope ++ loginKey) with _ | expiry
  · exact .inr ⟨rfl, rfl⟩
  · by_cases hexpired : expiry ≤ now
    · simp only [if_pos hexpired]
      refine .inr ⟨?_, trivial⟩
      simp [hexpired]
    · simp only [if_neg hexpired]
      refine .inl ⟨?_, trivial, trivial⟩
      simp [not_le.mp hexpired]

/-- By the history: a lock in force refuses, and otherwise the attempts of the address decide. -/
theorem attempt_cases (h : Tracks config now s history) (ipKey loginKey : String) :
    (Refused config history now ipKey loginKey ∧
        (s.enforceLoginAttempt config now ipKey loginKey).1 = .error tooManyAttempts ∧
        Counts minuteSeconds now ((s.enforceLoginAttempt config now ipKey loginKey).2.loginIpAttempts ipKey)
          (admitted ipKey history)) ∨
      (¬Refused config history now ipKey loginKey ∧
        (s.enforceLoginAttempt config now ipKey loginKey).1 = .ok () ∧
        Counts minuteSeconds now ((s.enforceLoginAttempt config now ipKey loginKey).2.loginIpAttempts ipKey)
          (admitted ipKey history ++ [now])) := by
  have hlocks := h.locks loginKey now le_rfl
  rcases enforce_cases config now ipKey loginKey s with ⟨hlock, hverdict, hattempts⟩ | ⟨hlock, hverdict⟩
  · rw [hattempts]
    exact .inl ⟨.inl (hlocks.mp hlock), hverdict, h.attempts ipKey⟩
  · have hopen : ¬(0 < threshold config ∧ Locked config (failures loginKey history) now) := by
      rw [← hlocks, hlock]
      exact Bool.false_ne_true
    have hfirst := congrArg Prod.fst hverdict
    have hsecond := congrArg Prod.snd hverdict
    dsimp only at hfirst hsecond
    rw [hfirst, hsecond]
    rcases attempt_spec config (h.attempts ipKey) with ⟨hexhausted, herror, hcounts⟩ | ⟨hleft, hok, hcounts⟩
    · exact .inl ⟨.inr hexhausted, herror, hcounts⟩
    · exact .inr ⟨fun hrefused => hrefused.elim hopen hleft, hok, hcounts⟩

/-- The counters of the other addresses are not touched. -/
theorem attempt_of_ne {counters : String → AuthWindowCounter} {ip : String} (limit : Int) (h : ip ≠ ipKey) :
    (InMemoryAuthRateLimiter.attempt counters ipKey now limit).2 ip = counters ip := by
  unfold InMemoryAuthRateLimiter.attempt
  rcases InMemoryAuthRateLimiter.enforceAttemptCounter (counters ipKey) now minuteSeconds limit with ⟨verdict, counter⟩
  cases verdict <;> exact put_of_ne h

theorem attempts_of_ne {ip : String} (h : ip ≠ ipKey) :
    (s.enforceLoginAttempt config now ipKey loginKey).2.loginIpAttempts ip = s.loginIpAttempts ip := by
  rcases enforce_cases config now ipKey loginKey s with ⟨-, -, hattempts⟩ | ⟨-, hverdict⟩
  · rw [hattempts]
  · have hsecond := congrArg Prod.snd hverdict
    dsimp only at hsecond
    rw [hsecond, attempt_of_ne _ h]

theorem tracks_attempt (h : Tracks config now s history) (ipKey loginKey : String) :
    Tracks config now (step config s (now, .enforceLoginAttempt ipKey loginKey))
      (record config history (now, .enforceLoginAttempt ipKey loginKey)) := by
  obtain ⟨hfailures, -, hlocks⟩ := @LoginKeys.enforceLoginAttempt_spec loginKey ipKey config now s
  have hsame : ∀ key, failures key (record config history (now, .enforceLoginAttempt ipKey loginKey)) = failures key history := by
    intro key
    simp only [record]
    split <;> rfl
  simp only [step]
  constructor
  · intro key
    rw [hfailures, hsame]
    exact h.failures key
  · intro ip
    by_cases hip : ip = ipKey
    · subst hip
      rcases attempt_cases h ip loginKey with ⟨hrefused, -, hcounts⟩ | ⟨hlet, -, hcounts⟩
      · simp only [record, if_pos hrefused]
        exact hcounts
      · simp only [record, if_neg hlet, admitted, if_true]
        exact hcounts
    · have hother : admitted ip (record config history (now, .enforceLoginAttempt ipKey loginKey)) = admitted ip history := by
        simp only [record]
        split
        · rfl
        · simp [admitted, Ne.symm hip]
      rw [attempts_of_ne hip, hother]
      exact h.attempts ip
  · intro key now' hnow'
    rw [hlocks _ _ hnow', hsame]
    exact h.locks key now' hnow'

theorem tracks_success (h : Tracks config now s history) (loginKey : String) :
    Tracks config now (step config s (now, .recordLoginSuccess loginKey)) (record config history (now, .recordLoginSuccess loginKey)) := by
  constructor
  · intro key
    by_cases hkey : key = loginKey
    · subst hkey
      simp only [step, record, failures, if_true]
      have hpopped : (s.recordLoginSuccess key).failures .login key = .empty := put_self _ _ _
      rw [hpopped]
      exact .empty _ _
    · simp only [step, record, failures, if_neg (Ne.symm hkey)]
      rw [InMemoryAuthRateLimiter.recordLoginSuccess, (LoginKeys.recordSuccess_of_ne s hkey).1]
      exact h.failures key
  · exact h.attempts
  · intro key now' hnow'
    by_cases hkey : key = loginKey
    · subst hkey
      have hpopped : (s.recordLoginSuccess key).locks (FailureKind.login.scope ++ key) = none := put_self _ _ _
      simp [step, record, failures, hpopped, Locked]
    · simp only [step, record, failures, if_neg (Ne.symm hkey)]
      rw [InMemoryAuthRateLimiter.recordLoginSuccess, (LoginKeys.recordSuccess_of_ne s hkey).2]
      exact h.locks key now' hnow'

/-- A failure is counted, and with enough of them in the window the key is locked. -/
theorem failure_spec (s : InMemoryAuthRateLimiter) (loginKey : String)
    (h : Counts (window config) now (s.failures .login loginKey) times) :
    Counts (window config) now ((s.recordLoginFailure config now loginKey).failures .login loginKey) (times ++ [now]) ∧
      (s.recordLoginFailure config now loginKey).locks (FailureKind.login.scope ++ loginKey) =
        if 0 < threshold config ∧ Locking config (times ++ [now]) now then some (now + lockTime config)
        else s.locks (FailureKind.login.scope ++ loginKey) := by
  have hadded := h.add
  obtain ⟨hcount, hkept⟩ := hadded.count
  have hset : ∀ counter, (s.setFailures .login loginKey counter).failures .login loginKey = counter :=
    Lockout.setFailures_self s
  unfold InMemoryAuthRateLimiter.recordLoginFailure InMemoryAuthRateLimiter.recordFailure
  by_cases hthreshold : 0 < config FailureKind.login.thresholdKey
  · simp only [if_pos hthreshold]
    by_cases hreached : Locking config (times ++ [now]) now
    · have hcounted : config FailureKind.login.thresholdKey ≤
          (((s.failures .login loginKey).add now).count now (config FailureKind.login.windowKey * second)).1 := by
        exact hcount ▸ hreached
      rw [if_pos hcounted, if_pos ⟨hthreshold, hreached⟩]
      refine ⟨?_, put_self _ _ _⟩
      rw [hset]
      exact hkept
    · have hcounted : ¬config FailureKind.login.thresholdKey ≤
          (((s.failures .login loginKey).add now).count now (config FailureKind.login.windowKey * second)).1 := by
        exact hcount ▸ hreached
      rw [if_neg hcounted, if_neg fun hboth => hreached hboth.2]
      refine ⟨?_, rfl⟩
      rw [hset]
      exact hkept
  · rw [if_neg hthreshold, if_neg fun hboth => hthreshold hboth.1]
    refine ⟨?_, rfl⟩
    rw [hset]
    exact hadded

theorem tracks_failure (h : Tracks config now s history) (loginKey : String) :
    Tracks config now (step config s (now, .recordLoginFailure loginKey)) (record config history (now, .recordLoginFailure loginKey)) := by
  have hkept := h.failures loginKey
  obtain ⟨hcounts, hlock⟩ := failure_spec s loginKey hkept
  constructor
  · intro key
    by_cases hkey : key = loginKey
    · subst hkey
      simp only [step, record, failures, if_true]
      exact hcounts
    · simp only [step, record, failures, if_neg (Ne.symm hkey)]
      rw [InMemoryAuthRateLimiter.recordLoginFailure, (LoginKeys.recordFailure_of_ne config now s hkey).1]
      exact h.failures key
  · intro ip
    have hattempts : (s.recordLoginFailure config now loginKey).loginIpAttempts = s.loginIpAttempts := by
      unfold InMemoryAuthRateLimiter.recordLoginFailure InMemoryAuthRateLimiter.recordFailure
      dsimp only
      split
      · split <;> rfl
      · rfl
    simp only [step, record, hattempts, admitted]
    exact h.attempts ip
  · intro key now' hnow'
    by_cases hkey : key = loginKey
    · subst hkey
      simp only [step, record, failures, if_true, hlock]
      rw [locked_append hkept.before]
      by_cases hlocks : 0 < threshold config ∧ Locking config (LoginHistory.failures key history ++ [now]) now
      · rw [if_pos hlocks, if_pos hlocks.2]
        simp [hlocks.1]
      · rw [if_neg hlocks, h.locks key now' hnow']
        by_cases hthreshold : 0 < threshold config
        · have hfew : ¬Locking config (LoginHistory.failures key history ++ [now]) now := fun hmany =>
            hlocks ⟨hthreshold, hmany⟩
          rw [if_neg hfew]
        · exact iff_of_false (fun hboth => hthreshold hboth.1) fun hboth => hthreshold hboth.1
    · simp only [step, record, failures, if_neg (Ne.symm hkey)]
      rw [InMemoryAuthRateLimiter.recordLoginFailure, (LoginKeys.recordFailure_of_ne config now s hkey).2]
      exact h.locks key now' hnow'

theorem tracks_step (h : Tracks config last s history) (hnow : last ≤ now) (call : LoginCall) :
    Tracks config now (step config s (now, call)) (record config history (now, call)) := by
  have hlater := h.later hnow
  cases call with
  | enforceLoginAttempt ipKey loginKey => exact tracks_attempt hlater ipKey loginKey
  | recordLoginFailure loginKey => exact tracks_failure hlater loginKey
  | recordLoginSuccess loginKey => exact tracks_success hlater loginKey

/-! ## Every sequence of calls -/

theorem tracks_run (config : LimitConfig) (calls : List (Int × LoginCall)) (now : Int)
    (hordered : (calls.map Prod.fst ++ [now]).Pairwise (· ≤ ·)) : Tracks config now (run config calls) (historyOf config calls) := by
  induction calls using List.reverseRecOn generalizing now with
  | nil => exact tracks_empty config now
  | append_singleton calls call ih =>
    rw [List.map_append, List.map_singleton] at hordered
    have hbefore := ih call.1 (hordered.sublist (List.sublist_append_left _ _))
    have hlast : call.1 ≤ now := (List.pairwise_append.mp hordered).2.2 call.1 (by simp) now (by simp)
    rw [run, historyOf, List.foldl_append, List.foldl_append, List.foldl_cons, List.foldl_cons, List.foldl_nil, List.foldl_nil]
    exact (tracks_step hbefore le_rfl call.2).later hlast

/-- An attempt is refused exactly if the history says so, and otherwise let through. -/
theorem attempt_is_refused_iff (config : LimitConfig) (calls : List (Int × LoginCall)) (now : Int) (ipKey loginKey : String)
    (hordered : (calls.map Prod.fst ++ [now]).Pairwise (· ≤ ·)) :
    ((run config calls).enforceLoginAttempt config now ipKey loginKey).1 =
      if Refused config (historyOf config calls) now ipKey loginKey then .error tooManyAttempts else .ok () := by
  rcases attempt_cases (tracks_run config calls now hordered) ipKey loginKey with ⟨hrefused, herror, -⟩ | ⟨hlet, hok, -⟩
  · rw [if_pos hrefused, herror]
  · rw [if_neg hlet, hok]

/-- Two failures within ten seconds lock for a minute. -/
def twoInTen : LimitConfig
  | .authRateLimitLoginAccountFailures => 2
  | .authRateLimitLoginAccountWindowSeconds => 10
  | .authRateLimitLoginLockSeconds => 60
  | .authRateLimitLoginIpRpm => 3
  | _ => 0

def twoFailures : List (Int × LoginCall) :=
  [(0, .enforceLoginAttempt "10.0.0.1" "bob"), (0, .recordLoginFailure "bob"), (second, .enforceLoginAttempt "10.0.0.1" "bob"),
    (second, .recordLoginFailure "bob")]

theorem two_failures_are_refused_a_minute_long :
    ((run twoInTen twoFailures).enforceLoginAttempt twoInTen (2 * second) "10.0.0.2" "bob").1 = .error tooManyAttempts ∧
      ((run twoInTen twoFailures).enforceLoginAttempt twoInTen (61 * second) "10.0.0.2" "bob").1 = .ok () :=
  ⟨(attempt_is_refused_iff twoInTen twoFailures (2 * second) "10.0.0.2" "bob" (by decide +kernel)).trans
      (if_pos (by decide +kernel)),
    (attempt_is_refused_iff twoInTen twoFailures (61 * second) "10.0.0.2" "bob" (by decide +kernel)).trans
      (if_neg (by decide +kernel))⟩

/-- With the threshold at zero every failure comes with enough others, and none locks. -/
theorem a_threshold_of_zero_locks_nothing :
    ∃ (config : LimitConfig) (calls : List (Int × LoginCall)) (now : Int) (ipKey loginKey : String),
      (calls.map Prod.fst ++ [now]).Pairwise (· ≤ ·) ∧
        Locked config (failures loginKey (historyOf config calls)) now ∧
        ((run config calls).enforceLoginAttempt config now ipKey loginKey).1 = .ok () :=
  ⟨fun key => if key = .authRateLimitLoginLockSeconds ∨ key = .authRateLimitLoginAccountWindowSeconds then 60 else 0,
    [(0, .recordLoginFailure "bob")], second, "10.0.0.1", "bob", by decide +kernel⟩

end Imghost.Limits.LoginHistory
