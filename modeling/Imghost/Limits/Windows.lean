/-
  Imghost.Limits.Windows — the counters of the limiter in memory, and what their windows
  bound.

  One deque serves the minute of requests and the hour of bytes, and is pruned by
  whichever window is asked for. A call asks each counter it consults for the minute
  first, so the deque never holds more than a minute of a counter that is in use, and
  the hour is counted over what the minute has left. The requests of a minute are bounded
  all the same; the bytes of an hour are, as long as no call drops bytes that still count.
-/

import Imghost.Limits.InMemory

namespace Imghost.Limits

open Imghost.Data Imghost.Model

/-! ## Counters -/

inductive CounterName where
  | user (actorKey : String)
  | anon (actorKey : String)
  | globalAnon
  deriving DecidableEq, Repr

namespace InMemoryRateLimiter

def counter (s : InMemoryRateLimiter) : CounterName → WindowCounter
  | .user actorKey => s.userWindows actorKey
  | .anon actorKey => s.anonWindows actorKey
  | .globalAnon => s.globalAnon

end InMemoryRateLimiter

/-- The counters an admitted request is recorded in. -/
def UploadRequest.counters (r : UploadRequest) : List CounterName :=
  match r.user with
  | some _ => [.user r.actorKey]
  | none => [.anon r.actorKey, .globalAnon]

/-- The limits a request is held to by one of its counters. -/
def UploadRequest.limits (config : LimitConfig) (r : UploadRequest) : CounterName → UploadLimits
  | .user _ =>
    match r.user with
    | some user => userLimits config user
    | none => anonLimits config
  | .anon _ => anonLimits config
  | .globalAnon => globalAnonLimits config

/-- The events after a cutoff, and the bytes of those. -/
abbrev eventsSince (cutoff : Int) (events : List (Int × Nat)) : List (Int × Nat) := Window.since Prod.fst cutoff events
abbrev bytesSince (cutoff : Int) (events : List (Int × Nat)) : Nat := Window.load Prod.fst Prod.snd cutoff events

theorem eventsSince_append (cutoff : Int) (events events' : List (Int × Nat)) :
    eventsSince cutoff (events ++ events') = eventsSince cutoff events ++ eventsSince cutoff events' :=
  Window.since_append events events'

theorem eventsSince_since {cutoff cutoff' : Int} (h : cutoff' ≤ cutoff) (events : List (Int × Nat)) :
    eventsSince cutoff (eventsSince cutoff' events) = eventsSince cutoff events := by
  refine Window.since_since.trans ?_
  rw [max_eq_left h]

@[simp] theorem eventsSince_nil (cutoff : Int) : eventsSince cutoff [] = [] := rfl

theorem bytesSince_append (cutoff : Int) (events events' : List (Int × Nat)) :
    bytesSince cutoff (events ++ events') = bytesSince cutoff events + bytesSince cutoff events' :=
  Window.load_append events events'

@[simp] theorem bytesSince_nil (cutoff : Int) : bytesSince cutoff [] = 0 := rfl

/-- In order, and none later than `last`. -/
def WindowCounter.Ordered (last : Int) (counter : WindowCounter) : Prop :=
  Window.Chronological Prod.fst counter.events ∧ ∀ e ∈ counter.events, e.1 ≤ last

/-- One counter asked whether it has room. -/
def Admits (now : Int) (limits : UploadLimits) (byteCount : Nat) (counter : WindowCounter) : Prop :=
  ¬(0 < limits.rpm ∧ limits.rpm ≤ (eventsSince (now - minuteSeconds) counter.events).length) ∧
    ¬(0 < limits.bph ∧ limits.bph < bytesSince (now - minuteSeconds) counter.events + byteCount)

instance (now : Int) (limits : UploadLimits) (byteCount : Nat) (counter : WindowCounter) :
    Decidable (Admits now limits byteCount counter) := by
  unfold Admits
  infer_instance

/-- The counters a call looks at: the actor's own, and that of all anonymous actors once
    the actor's own has let the request through. -/
def consulted (config : LimitConfig) (now : Int) (r : UploadRequest) (s : InMemoryRateLimiter) : List CounterName :=
  match r.user with
  | some _ => [.user r.actorKey]
  | none =>
    if Admits now (anonLimits config) r.byteCount (s.anonWindows r.actorKey) then [.anon r.actorKey, .globalAnon]
    else [.anon r.actorKey]

section

variable {counter : WindowCounter} {last now : Int} {limits : UploadLimits} {byteCount : Nat}

theorem WindowCounter.Ordered.mono {last' : Int} (h : counter.Ordered last) (hlater : last ≤ last') :
    counter.Ordered last' := ⟨h.1, fun e he => (h.2 e he).trans hlater⟩

theorem Ordered.since (h : counter.Ordered last) (cutoff : Int) :
    WindowCounter.Ordered last ⟨eventsSince cutoff counter.events⟩ :=
  ⟨Window.Chronological.since h.1, fun e he => h.2 e (Window.mem_since.mp he).1⟩

theorem Ordered.add (h : counter.Ordered last) (hnow : last ≤ now) : (counter.add now byteCount).Ordered now := by
  refine ⟨Window.Chronological.append_singleton h.1 fun e he => (h.2 e he).trans hnow, fun e he => ?_⟩
  rcases List.mem_append.mp he with he | he
  · exact (h.2 e he).trans hnow
  · rw [List.mem_singleton.mp he]

/-- Asked for the minute, a counter keeps the minute; the hour drops nothing more. -/
theorem enforceCounter_eq (h : counter.Ordered last) : enforceCounter counter now limits byteCount =
    (if 0 < limits.rpm ∧ limits.rpm ≤ (eventsSince (now - minuteSeconds) counter.events).length then
        .error tooManyRequests
      else if 0 < limits.bph ∧ limits.bph < bytesSince (now - minuteSeconds) counter.events + byteCount then
        .error tooManyBytes
      else .ok (),
      ⟨eventsSince (now - minuteSeconds) counter.events⟩) := by
  have hminute : counter.prune now minuteSeconds = ⟨eventsSince (now - minuteSeconds) counter.events⟩ :=
    congrArg WindowCounter.mk (Window.prune_eq_since h.1)
  have hhour : WindowCounter.prune ⟨eventsSince (now - minuteSeconds) counter.events⟩ now hourSeconds =
      ⟨eventsSince (now - minuteSeconds) counter.events⟩ := by
    refine congrArg WindowCounter.mk ((Window.prune_eq_since (Ordered.since h _).1).trans ?_)
    refine Window.since_since.trans (congrArg (Window.since Prod.fst · counter.events) (max_eq_right ?_))
    unfold hourSeconds minuteSeconds second
    omega
  have hbytes : ((eventsSince (now - minuteSeconds) counter.events).map Prod.snd).sum =
      bytesSince (now - minuteSeconds) counter.events := rfl
  simp only [enforceCounter, WindowCounter.count, WindowCounter.bytesUsed, hminute, hhour, hbytes]
  split
  · rfl
  · split <;> rfl

theorem enforceCounter_of_admits (h : counter.Ordered last) (hadmits : Admits now limits byteCount counter) :
    enforceCounter counter now limits byteCount = (.ok (), ⟨eventsSince (now - minuteSeconds) counter.events⟩) := by
  rw [enforceCounter_eq h, if_neg hadmits.1, if_neg hadmits.2]

theorem enforceCounter_of_refuses (h : counter.Ordered last) (hrefuses : ¬Admits now limits byteCount counter) :
    ∃ e, enforceCounter counter now limits byteCount =
      (.error e, ⟨eventsSince (now - minuteSeconds) counter.events⟩) := by
  rw [enforceCounter_eq h]
  by_cases hrequests : 0 < limits.rpm ∧ limits.rpm ≤ (eventsSince (now - minuteSeconds) counter.events).length
  · exact ⟨_, by rw [if_pos hrequests]⟩
  · by_cases hbytes : 0 < limits.bph ∧ limits.bph < bytesSince (now - minuteSeconds) counter.events + byteCount
    · exact ⟨_, by rw [if_neg hrequests, if_pos hbytes]⟩
    · exact (hrefuses ⟨hrequests, hbytes⟩).elim

end

/-! ## One call -/

namespace InMemoryRateLimiter

/-- Every counter is in order, and none is ahead of `last`. -/
def Ordered (last : Int) (s : InMemoryRateLimiter) : Prop := ∀ c, (s.counter c).Ordered last

/-- What a call does: a counter it looks at keeps the minute, and an admitted request was
    let through by all its counters and is added to them. -/
structure Call (config : LimitConfig) (now : Int) (r : UploadRequest) (s : InMemoryRateLimiter)
    (verdict : Except PyExc Unit) (s' : InMemoryRateLimiter) : Prop where
  kept : ∀ c ∈ consulted config now r s, (s'.counter c).events =
    eventsSince (now - minuteSeconds) (s.counter c).events ++ if verdict.toBool then [(now, r.byteCount)] else []
  untouched : ∀ c, c ∉ consulted config now r s → s'.counter c = s.counter c
  admitted : verdict.toBool = true → consulted config now r s = r.counters ∧
    ∀ c ∈ r.counters, Admits now (r.limits config c) r.byteCount (s.counter c)

variable {config : LimitConfig} {last now : Int} {r : UploadRequest} {s : InMemoryRateLimiter}

theorem enforceUser_call (hordered : s.Ordered last) {user : User} (huser : r.user = some user) :
    Call config now r s (s.enforceUser config now r user).1 (s.enforceUser config now r user).2 := by
  have hconsulted : consulted config now r s = [.user r.actorKey] := by rw [consulted, huser]
  have hcounters : r.counters = [.user r.actorKey] := by rw [UploadRequest.counters, huser]
  have hlimits : r.limits config (.user r.actorKey) = userLimits config user := by simp only [UploadRequest.limits, huser]
  have hothers : ∀ counter c, c ∉ consulted config now r s →
      ({ s with userWindows := put s.userWindows r.actorKey counter } : InMemoryRateLimiter).counter c = s.counter c := by
    intro counter c hc
    rw [hconsulted, List.mem_singleton] at hc
    cases c with
    | user k => exact put_of_ne fun hk => hc (congrArg CounterName.user hk)
    | anon k => rfl
    | globalAnon => rfl
  have hown : (s.userWindows r.actorKey).Ordered last := hordered (.user r.actorKey)
  by_cases hadmits : Admits now (userLimits config user) r.byteCount (s.userWindows r.actorKey)
  · have hcall := enforceCounter_of_admits hown hadmits
    simp only [enforceUser, hcall]
    refine ⟨fun c hc => ?_, hothers _, fun _ => ⟨hconsulted.trans hcounters.symm, fun c hc => ?_⟩⟩
    · rw [hconsulted, List.mem_singleton] at hc
      subst hc
      simp only [InMemoryRateLimiter.counter, put_self]
      rfl
    · rw [hcounters, List.mem_singleton] at hc
      subst hc
      rw [hlimits]
      exact hadmits
  · obtain ⟨e, hcall⟩ := enforceCounter_of_refuses hown hadmits
    simp only [enforceUser, hcall]
    refine ⟨fun c hc => ?_, hothers _, fun hv => by cases hv⟩
    rw [hconsulted, List.mem_singleton] at hc
    subst hc
    simp only [InMemoryRateLimiter.counter, put_self]
    exact (List.append_nil _).symm

theorem enforceAnon_call (hordered : s.Ordered last) (huser : r.user = none) :
    Call config now r s (s.enforceAnon config now r).1 (s.enforceAnon config now r).2 := by
  have hcounters : r.counters = [.anon r.actorKey, .globalAnon] := by rw [UploadRequest.counters, huser]
  have hown : (s.anonWindows r.actorKey).Ordered last := hordered (.anon r.actorKey)
  have hglobal : s.globalAnon.Ordered last := hordered .globalAnon
  by_cases hadmits : Admits now (anonLimits config) r.byteCount (s.anonWindows r.actorKey)
  swap
  · have hconsulted : consulted config now r s = [.anon r.actorKey] := by simp only [consulted, huser, if_neg hadmits]
    obtain ⟨e, hcall⟩ := enforceCounter_of_refuses hown hadmits
    simp only [enforceAnon, hcall]
    refine ⟨fun c hc => ?_, fun c hc => ?_, fun hv => by cases hv⟩
    · rw [hconsulted, List.mem_singleton] at hc
      subst hc
      simp only [InMemoryRateLimiter.counter, put_self]
      exact (List.append_nil _).symm
    · rw [hconsulted, List.mem_singleton] at hc
      cases c with
      | anon k => exact put_of_ne fun hk => hc (congrArg CounterName.anon hk)
      | user k => rfl
      | globalAnon => rfl
  have hconsulted : consulted config now r s = [.anon r.actorKey, .globalAnon] := by
    simp only [consulted, huser, if_pos hadmits]
  have hcall := enforceCounter_of_admits hown hadmits
  have hothers : ∀ counter globalAnon c, c ∉ consulted config now r s →
      ({ s with anonWindows := put s.anonWindows r.actorKey counter, globalAnon } : InMemoryRateLimiter).counter c =
        s.counter c := by
    intro counter globalAnon c hc
    rw [hconsulted] at hc
    simp only [List.mem_cons, List.not_mem_nil, or_false, not_or] at hc
    cases c with
    | anon k => exact put_of_ne fun hk => hc.1 (congrArg CounterName.anon hk)
    | user k => rfl
    | globalAnon => exact (hc.2 rfl).elim
  by_cases hall : Admits now (globalAnonLimits config) r.byteCount s.globalAnon
  · have hcall' := enforceCounter_of_admits hglobal hall
    simp only [enforceAnon, hcall, hcall']
    refine ⟨fun c hc => ?_, hothers _ _, fun _ => ⟨hconsulted.trans hcounters.symm, fun c hc => ?_⟩⟩
    · rw [hconsulted] at hc
      simp only [List.mem_cons, List.not_mem_nil, or_false] at hc
      rcases hc with rfl | rfl
      · simp only [InMemoryRateLimiter.counter, put_self]
        rfl
      · rfl
    · rw [hcounters] at hc
      simp only [List.mem_cons, List.not_mem_nil, or_false] at hc
      rcases hc with rfl | rfl
      · exact hadmits
      · exact hall
  · obtain ⟨e, hcall'⟩ := enforceCounter_of_refuses hglobal hall
    simp only [enforceAnon, hcall, hcall']
    refine ⟨fun c hc => ?_, hothers _ _, fun hv => by cases hv⟩
    rw [hconsulted] at hc
    simp only [List.mem_cons, List.not_mem_nil, or_false] at hc
    rcases hc with rfl | rfl
    · simp only [InMemoryRateLimiter.counter, put_self]
      exact (List.append_nil _).symm
    · exact (List.append_nil _).symm

theorem enforceUploadLimits_call (hordered : s.Ordered last) : Call config now r s
    (s.enforceUploadLimits config now r).1 (s.enforceUploadLimits config now r).2 := by
  unfold enforceUploadLimits
  split
  · rename_i user huser
    exact enforceUser_call hordered huser
  · rename_i huser
    exact enforceAnon_call hordered huser

/-- A call keeps the counters in order. -/
theorem Call.ordered {verdict : Except PyExc Unit} {s' : InMemoryRateLimiter} (h : Call config now r s verdict s')
    (hordered : s.Ordered last) (hnow : last ≤ now) : s'.Ordered now := by
  intro c
  by_cases hc : c ∈ consulted config now r s
  · have hsince := Ordered.since (hordered c) (now - minuteSeconds)
    have hevents := h.kept c hc
    split at hevents
    · have hadd := @Ordered.add _ _ _ r.byteCount hsince hnow
      rw [WindowCounter.add, ← hevents] at hadd
      exact hadd
    · rw [List.append_nil] at hevents
      rw [← hevents] at hsince
      exact hsince.mono hnow
  · rw [h.untouched c hc]
    exact (hordered c).mono hnow

end InMemoryRateLimiter

/-! ## Runs -/

/-- A limiter, and the requests it has admitted, with their times. -/
structure Ledger where
  limiter : InMemoryRateLimiter
  admitted : List (Int × UploadRequest)

namespace Ledger

def start : Ledger := ⟨.empty, []⟩

def call (config : LimitConfig) (l : Ledger) (x : Int × UploadRequest) : Ledger :=
  let (verdict, limiter) := l.limiter.enforceUploadLimits config x.1 x.2
  ⟨limiter, if verdict.toBool then l.admitted ++ [x] else l.admitted⟩

def run (config : LimitConfig) (l : Ledger) (calls : List (Int × UploadRequest)) : Ledger := calls.foldl (call config) l

/-- The admitted requests a counter counts, with their sizes. -/
def history (l : Ledger) (c : CounterName) : List (Int × Nat) :=
  (l.admitted.filter fun x => x.2.counters.contains c).map fun x => (x.1, x.2.byteCount)

end Ledger

/-- The counter holds no bytes that the hour counts and the minute does not. -/
def NoOldBytes (now : Int) (counter : WindowCounter) : Prop :=
  ∀ e ∈ counter.events, now - hourSeconds < e.1 → e.1 ≤ now - minuteSeconds → e.2 = 0

instance (now : Int) (counter : WindowCounter) : Decidable (NoOldBytes now counter) := by
  unfold NoOldBytes
  infer_instance

/-- No call of the run looks at a counter with such bytes. -/
def KeepsBytes (config : LimitConfig) : Ledger → List (Int × UploadRequest) → Prop
  | _, [] => True
  | l, x :: calls =>
    (∀ c ∈ consulted config x.1 x.2 l.limiter, NoOldBytes x.1 (l.limiter.counter c)) ∧
      KeepsBytes config (l.call config x) calls

section

variable {config : LimitConfig} {limits : CounterName → UploadLimits} {l : Ledger} {last now : Int} {r : UploadRequest}

theorem hour_le_minute (now : Int) : now - hourSeconds ≤ now - minuteSeconds := by
  unfold hourSeconds minuteSeconds second
  omega

/-- A counter has the minute of its history, and the minute is within the limit. -/
structure RequestsInv (limits : CounterName → UploadLimits) (last : Int) (l : Ledger) : Prop where
  ordered : l.limiter.Ordered last
  minute : ∀ c cutoff, last - minuteSeconds ≤ cutoff →
    eventsSince cutoff (l.limiter.counter c).events = eventsSince cutoff (l.history c)
  bounded : ∀ c, ((eventsSince (last - minuteSeconds) (l.history c)).length : Int) ≤ (limits c).rpm

/-- And the bytes of the hour, which are within theirs. -/
structure BytesWithin (limits : CounterName → UploadLimits) (last : Int) (l : Ledger) : Prop where
  hour : ∀ c cutoff, last - hourSeconds ≤ cutoff →
    bytesSince cutoff (l.limiter.counter c).events = bytesSince cutoff (l.history c)
  bounded : ∀ c, (bytesSince (last - hourSeconds) (l.history c) : Int) ≤ (limits c).bph

theorem RequestsInv.mono {last' : Int} (h : RequestsInv limits last l) (hlater : last ≤ last') :
    RequestsInv limits last' l := by
  refine ⟨fun c => (h.ordered c).mono hlater, fun c cutoff hcutoff => h.minute c cutoff (by omega), fun c => ?_⟩
  have hshorter : (eventsSince (last' - minuteSeconds) (l.history c)).length ≤
      (eventsSince (last - minuteSeconds) (l.history c)).length :=
    (Window.since_sublist (by omega)).length_le
  have hbounded := h.bounded c
  omega

theorem BytesWithin.mono {last' : Int} (h : BytesWithin limits last l) (hlater : last ≤ last') :
    BytesWithin limits last' l := by
  refine ⟨fun c cutoff hcutoff => h.hour c cutoff (by omega), fun c => ?_⟩
  have hless : bytesSince (last' - hourSeconds) (l.history c) ≤ bytesSince (last - hourSeconds) (l.history c) :=
    Window.load_anti (by omega)
  have hbounded := h.bounded c
  omega

/-- What a call adds to a counter's history. -/
theorem history_call (c : CounterName) : (l.call config (now, r)).history c = l.history c ++
    if (l.limiter.enforceUploadLimits config now r).1.toBool ∧ c ∈ r.counters then [(now, r.byteCount)] else [] := by
  unfold Ledger.call Ledger.history
  by_cases hv : (l.limiter.enforceUploadLimits config now r).1.toBool = true
  · by_cases hc : c ∈ r.counters <;> simp [hv, hc]
  · simp [hv]

theorem requestsInv_call (h : RequestsInv limits last l) (hnow : last ≤ now) (hpos : ∀ c, 0 < (limits c).rpm)
    (hlimits : ∀ c ∈ r.counters, r.limits config c = limits c) : RequestsInv limits now (l.call config (now, r)) := by
  have hcall := @InMemoryRateLimiter.enforceUploadLimits_call config _ now r _ h.ordered
  have hlater := h.mono hnow
  refine ⟨hcall.ordered h.ordered hnow, fun c cutoff hcutoff => ?_, fun c => ?_⟩
  · rw [history_call, eventsSince_append, ← hlater.minute c cutoff hcutoff]
    by_cases hc : c ∈ consulted config now r l.limiter
    · show eventsSince cutoff (((l.limiter.enforceUploadLimits config now r).2).counter c).events = _
      rw [hcall.kept c hc, eventsSince_append, eventsSince_since hcutoff]
      by_cases hv : (l.limiter.enforceUploadLimits config now r).1.toBool = true
      · have hmem : c ∈ r.counters := (hcall.admitted hv).1 ▸ hc
        simp only [hv, hmem, and_self, if_true]
      · simp only [hv, Bool.false_eq_true, false_and, if_false]
    · show eventsSince cutoff (((l.limiter.enforceUploadLimits config now r).2).counter c).events = _
      rw [hcall.untouched c hc]
      have hnot : ¬((l.limiter.enforceUploadLimits config now r).1.toBool = true ∧ c ∈ r.counters) := by
        rintro ⟨hv, hmem⟩
        exact hc ((hcall.admitted hv).1 ▸ hmem)
      simp only [hnot, if_false, eventsSince_nil, List.append_nil]
  · rw [history_call, eventsSince_append, List.length_append]
    have hbounded := hlater.bounded c
    by_cases hv : (l.limiter.enforceUploadLimits config now r).1.toBool = true ∧ c ∈ r.counters
    · have hroom := ((hcall.admitted hv.1).2 c hv.2).1
      rw [hlimits c hv.2, hlater.minute c _ le_rfl] at hroom
      have hone : (eventsSince (now - minuteSeconds) [(now, r.byteCount)]).length ≤ 1 := List.length_filter_le _ _
      have hpositive := hpos c
      simp only [hv, and_self, if_true]
      omega
    · simp only [hv, if_false, eventsSince_nil, List.length_nil]
      exact hbounded

/-- Of the minute, the hour counts the minute. -/
theorem bytesSince_since {cutoff cutoff' : Int} (h : cutoff ≤ cutoff') (events : List (Int × Nat)) :
    bytesSince cutoff (eventsSince cutoff' events) = bytesSince cutoff' events := by
  show ((Window.since Prod.fst cutoff (Window.since Prod.fst cutoff' events)).map Prod.snd).sum = _
  rw [Window.since_since, max_eq_right h]
  rfl

/-- A counter without such bytes has all the hour counts after it has been asked for the minute. -/
theorem bytesSince_minute {counter : WindowCounter} (h : NoOldBytes now counter) {cutoff : Int}
    (hcutoff : now - hourSeconds ≤ cutoff) :
    bytesSince cutoff (eventsSince (now - minuteSeconds) counter.events) = bytesSince cutoff counter.events := by
  by_cases hlate : now - minuteSeconds ≤ cutoff
  · exact Window.load_since hlate
  · rw [bytesSince_since (by omega)]
    exact (Window.load_eq_iff (by omega)).mpr fun e he hlow hhigh => h e he (lt_of_le_of_lt hcutoff hlow) hhigh

theorem bytesWithin_call (hrequests : RequestsInv limits last l) (h : BytesWithin limits last l) (hnow : last ≤ now)
    (hpos : ∀ c, 0 < (limits c).bph) (hlimits : ∀ c ∈ r.counters, r.limits config c = limits c)
    (hkeeps : ∀ c ∈ consulted config now r l.limiter, NoOldBytes now (l.limiter.counter c)) :
    BytesWithin limits now (l.call config (now, r)) := by
  have hcall := @InMemoryRateLimiter.enforceUploadLimits_call config _ now r _ hrequests.ordered
  have hlater := h.mono hnow
  refine ⟨fun c cutoff hcutoff => ?_, fun c => ?_⟩
  · rw [history_call, bytesSince_append, ← hlater.hour c cutoff hcutoff]
    by_cases hc : c ∈ consulted config now r l.limiter
    · show bytesSince cutoff (((l.limiter.enforceUploadLimits config now r).2).counter c).events = _
      rw [hcall.kept c hc, bytesSince_append, bytesSince_minute (hkeeps c hc) hcutoff]
      by_cases hv : (l.limiter.enforceUploadLimits config now r).1.toBool = true
      · have hmem : c ∈ r.counters := (hcall.admitted hv).1 ▸ hc
        simp only [hv, hmem, and_self, if_true]
      · simp only [hv, Bool.false_eq_true, false_and, if_false]
    · show bytesSince cutoff (((l.limiter.enforceUploadLimits config now r).2).counter c).events = _
      rw [hcall.untouched c hc]
      have hnot : ¬((l.limiter.enforceUploadLimits config now r).1.toBool = true ∧ c ∈ r.counters) := by
        rintro ⟨hv, hmem⟩
        exact hc ((hcall.admitted hv).1 ▸ hmem)
      simp only [hnot, if_false, bytesSince_nil, Nat.add_zero]
  · rw [history_call, bytesSince_append]
    have hbounded := hlater.bounded c
    by_cases hv : (l.limiter.enforceUploadLimits config now r).1.toBool = true ∧ c ∈ r.counters
    · obtain ⟨hconsulted, hadmits⟩ := hcall.admitted hv.1
      have hroom := (hadmits c hv.2).2
      have hhour : bytesSince (now - minuteSeconds) (l.limiter.counter c).events =
          bytesSince (now - hourSeconds) (l.history c) := by
        rw [← hlater.hour c _ le_rfl]
        exact (Window.load_eq_iff (hour_le_minute now)).mpr (hkeeps c (hconsulted ▸ hv.2))
      rw [hlimits c hv.2, hhour] at hroom
      have hone : bytesSince (now - hourSeconds) [(now, r.byteCount)] ≤ r.byteCount := Window.load_singleton_le _
      have hpositive := hpos c
      simp only [hv, and_self, if_true]
      omega
    · simp only [hv, if_false, bytesSince_nil]
      omega

end

section

variable {config : LimitConfig} {limits : CounterName → UploadLimits} {moment : Int}

theorem requestsInv_start (hpos : ∀ c, 0 < (limits c).rpm) (last : Int) : RequestsInv limits last .start := by
  refine ⟨fun c => ?_, fun c cutoff _ => ?_, fun c => ?_⟩
  · cases c <;> exact ⟨List.Pairwise.nil, fun e he => by cases he⟩
  · cases c <;> rfl
  · exact (hpos c).le

theorem bytesWithin_start (hpos : ∀ c, 0 < (limits c).bph) (last : Int) : BytesWithin limits last .start := by
  refine ⟨fun c cutoff _ => ?_, fun c => ?_⟩
  · cases c <;> rfl
  · exact (hpos c).le

theorem requestsInv_run (hpos : ∀ c, 0 < (limits c).rpm) {l : Ledger} {last : Int} {calls : List (Int × UploadRequest)}
    (h : RequestsInv limits last l) (hsorted : calls.Pairwise fun x y => x.1 ≤ y.1) (hfirst : ∀ x ∈ calls, last ≤ x.1)
    (hlast : ∀ x ∈ calls, x.1 ≤ moment) (hmoment : last ≤ moment)
    (hlimits : ∀ x ∈ calls, ∀ c ∈ x.2.counters, x.2.limits config c = limits c) :
    RequestsInv limits moment (l.run config calls) := by
  induction calls generalizing l last with
  | nil => exact h.mono hmoment
  | cons x calls ih =>
    obtain ⟨hnext, hsorted⟩ := List.pairwise_cons.mp hsorted
    have hx := List.mem_cons_self (a := x) (l := calls)
    exact ih (requestsInv_call h (hfirst x hx) hpos (hlimits x hx)) hsorted hnext
      (fun y hy => hlast y (List.mem_cons_of_mem x hy)) (hlast x hx) fun y hy => hlimits y (List.mem_cons_of_mem x hy)

theorem bytesWithin_run (hrpm : ∀ c, 0 < (limits c).rpm) (hpos : ∀ c, 0 < (limits c).bph) {l : Ledger} {last : Int}
    {calls : List (Int × UploadRequest)} (hrequests : RequestsInv limits last l) (h : BytesWithin limits last l)
    (hsorted : calls.Pairwise fun x y => x.1 ≤ y.1) (hfirst : ∀ x ∈ calls, last ≤ x.1)
    (hlast : ∀ x ∈ calls, x.1 ≤ moment) (hmoment : last ≤ moment)
    (hlimits : ∀ x ∈ calls, ∀ c ∈ x.2.counters, x.2.limits config c = limits c) (hkeeps : KeepsBytes config l calls) :
    BytesWithin limits moment (l.run config calls) := by
  induction calls generalizing l last with
  | nil => exact h.mono hmoment
  | cons x calls ih =>
    obtain ⟨hnext, hsorted⟩ := List.pairwise_cons.mp hsorted
    have hx := List.mem_cons_self (a := x) (l := calls)
    exact ih (requestsInv_call hrequests (hfirst x hx) hrpm (hlimits x hx))
      (bytesWithin_call hrequests h (hfirst x hx) hpos (hlimits x hx) hkeeps.1) hsorted hnext
      (fun y hy => hlast y (List.mem_cons_of_mem x hy)) (hlast x hx) (fun y hy => hlimits y (List.mem_cons_of_mem x hy))
      hkeeps.2

/-- At every moment the requests of the last minute are within their limit, and so are the
    bytes of the last hour if no call has dropped bytes the hour still counts. -/
theorem windows_bound (config : LimitConfig) (limits : CounterName → UploadLimits)
    (hrpm : ∀ c, 0 < (limits c).rpm) (hbph : ∀ c, 0 < (limits c).bph) (calls : List (Int × UploadRequest))
    (hsorted : calls.Pairwise fun x y => x.1 ≤ y.1)
    (hlimits : ∀ x ∈ calls, ∀ c ∈ x.2.counters, x.2.limits config c = limits c)
    (moment : Int) (hmoment : ∀ x ∈ calls, x.1 ≤ moment) (c : CounterName) :
    ((eventsSince (moment - minuteSeconds) ((Ledger.start.run config calls).history c)).length : Int) ≤ (limits c).rpm ∧
      (KeepsBytes config .start calls →
        (bytesSince (moment - hourSeconds) ((Ledger.start.run config calls).history c) : Int) ≤ (limits c).bph) := by
  cases calls with
  | nil => exact ⟨(hrpm c).le, fun _ => (hbph c).le⟩
  | cons x calls =>
    have hx := List.mem_cons_self (a := x) (l := calls)
    have hfirst : ∀ y ∈ x :: calls, x.1 ≤ y.1 := by
      intro y hy
      rcases List.mem_cons.mp hy with rfl | hy
      · exact le_rfl
      · exact (List.pairwise_cons.mp hsorted).1 y hy
    have hrequests := requestsInv_start hrpm x.1
    constructor
    · exact (requestsInv_run hrpm hrequests hsorted hfirst hmoment (hmoment x hx) hlimits).bounded c
    · intro hkeeps
      exact (bytesWithin_run hrpm hbph hrequests (bytesWithin_start hbph x.1) hsorted hfirst hmoment (hmoment x hx) hlimits
        hkeeps).bounded c

end

/-- Ten bytes an hour, for one anonymous actor and for all of them. -/
def tenBytes : LimitConfig := fun key => if key = .rateLimitAnonBph ∨ key = .rateLimitGlobalAnonBph then 10 else 100

instance decidableKeepsBytes (config : LimitConfig) :
    (l : Ledger) → (calls : List (Int × UploadRequest)) → Decidable (KeepsBytes config l calls)
  | _, [] => inferInstanceAs (Decidable True)
  | l, x :: calls => @instDecidableAnd _ _ inferInstance (decidableKeepsBytes config (l.call config x) calls)

theorem ten_bytes_in_half_a_minute :
    (bytesSince (30 * second - hourSeconds) ((Ledger.start.run tenBytes
      [(0, ⟨"ip", 6, none⟩), (30 * second, ⟨"ip", 4, none⟩)]).history (.anon "ip")) : Int) ≤ 10 :=
  (windows_bound tenBytes (fun _ => ⟨100, 10⟩) (fun _ => by decide) (fun _ => by decide)
    [(0, ⟨"ip", 6, none⟩), (30 * second, ⟨"ip", 4, none⟩)] (by decide) (by decide) (30 * second) (by decide)
    (.anon "ip")).2 (by decide +kernel)

/-- The second request drops the first, which is a minute old, and with it its bytes. -/
theorem twelve_bytes_in_a_minute :
    bytesSince (60 * second - hourSeconds) ((Ledger.start.run tenBytes
      [(0, ⟨"ip", 6, none⟩), (60 * second, ⟨"ip", 6, none⟩)]).history (.anon "ip")) = 12 := by
  decide +kernel

end Imghost.Limits
