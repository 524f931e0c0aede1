/-
  Imghost.Tasks.ActiveJobs — `_active_jobs`, and what `join` reads of it.

  A worker increments the count when it starts a job and decrements it in the `finally` of
  its loop, which also runs for a message it rejects before the increment. Such a decrement
  takes away another worker's increment, if there is one (`join_returns_over_a_handler`).
  While no message is rejected next to a busy worker, the count is the number of busy
  workers, and a `join` that finds the queues empty has read it when none was busy
  (`count_is_the_busy_workers`). A worker may pop a message after that, and the deadline of
  `join` does not look at the count.
-/

import Imghost.Tasks.Handover
import Mathlib.Data.List.Induction

namespace Imghost.Tasks.ActiveJobs

open Imghost.Data Draining Handover

variable {tasks : TaskTable} {lib : TaskLib} {config : QueueConfig} {q q' : RedisTaskQueue tasks} {i k : Nat}
  {worker worker' : RedisWorker tasks} {e : RedisEvent} {es : List RedisEvent}

/-! ## The count -/

/-- The worker has incremented the count and not reached its `finally`. -/
def isBusy : RedisWorker tasks → Nat
  | .running _ _ | .requeuing _ => 1
  | .polling | .fetched _ _ | .gone => 0

def busy (q : RedisTaskQueue tasks) : Nat := tally isBusy q.workers

/-- No message is rejected before the increment while some worker is busy. -/
def NoRejectionWhileBusy (lib : TaskLib) (q : RedisTaskQueue tasks) : RedisEvent → Prop
  | .deliver i =>
    match q.workers[i]? with
    | some (.fetched _ message) =>
      match message.receive lib with
      | .rejected => busy q = 0
      | _ => True
    | _ => True
  | _ => True

instance (q : RedisTaskQueue tasks) (e : RedisEvent) : Decidable (NoRejectionWhileBusy lib q e) := by
  unfold NoRejectionWhileBusy
  split
  · split
    · split <;> infer_instance
    · infer_instance
  · infer_instance

def Counted (q : RedisTaskQueue tasks) : Prop := q.activeJobs = busy q

theorem Counted.same (h : Counted q) (hjobs : q'.activeJobs = q.activeJobs) (hworkers : q'.workers = q.workers) :
    Counted q' := by
  rw [Counted, hjobs, busy, hworkers]
  exact h

/-- A worker that stays as busy as it was. -/
theorem Counted.setWorker (h : Counted q) (hi : q.workers[i]? = some worker) (hbusy : isBusy worker' = isBusy worker) :
    Counted (q.setWorker i worker') := by
  show q.activeJobs = tally isBusy (q.workers.set i worker')
  rw [tally_set hi, hbusy, ← tally_eraseIdx hi]
  exact h

/-- A worker that starts a job. -/
theorem Counted.begin (h : Counted q) (hi : q.workers[i]? = some worker) (hidle : isBusy worker = 0)
    (hbusy : isBusy worker' = 1) (r : Record) :
    Counted (({ q with activeJobs := q.activeJobs + 1 }.recordTaskState r).setWorker i worker') := by
  show q.activeJobs + 1 = tally isBusy (q.workers.set i worker')
  rw [Counted, busy, tally_eraseIdx hi, hidle] at h
  rw [tally_set hi, hbusy, h]
  omega

/-- A busy worker that reaches its `finally`. -/
theorem Counted.release (h : Counted q) (hi : q.workers[i]? = some worker) (hbusy : isBusy worker = 1)
    (hidle : isBusy worker' = 0) : Counted (q.release i worker') := by
  show q.activeJobs - 1 = tally isBusy (q.workers.set i worker')
  rw [Counted, busy, tally_eraseIdx hi, hbusy] at h
  rw [tally_set hi, hidle, h]
  omega

theorem Counted.record (h : Counted q) (r : Record) : Counted (q.recordTaskState r) := h

theorem Counted.setPush (h : Counted q) {who : Pusher} {push push' : Push tasks} (hpush : q.push? who = some push) :
    Counted (q.setPush push' who) := by
  cases who with
  | call k => exact h
  | worker i => exact h.setWorker (RedisTaskQueue.worker_of_push? hpush) rfl

theorem Counted.endPush (h : Counted q) {who : Pusher} {push : Push tasks} (hpush : q.push? who = some push) :
    Counted (q.endPush who) := by
  cases who with
  | call k => exact h
  | worker i => exact h.release (RedisTaskQueue.worker_of_push? hpush) rfl rfl

theorem Counted.deliver (h : Counted q) (hcalm : NoRejectionWhileBusy lib q (.deliver i)) : Counted (q.deliver lib i) := by
  unfold RedisTaskQueue.deliver
  split
  · rename_i key message hworker
    split
    · rename_i hrejected
      have hidle : busy q = 0 := by
        simpa only [NoRejectionWhileBusy, hworker, hrejected] using hcalm
      show q.activeJobs - 1 = tally isBusy (q.workers.set i .polling)
      rw [tally_set hworker]
      rw [Counted, hidle] at h
      rw [busy, tally_eraseIdx hworker] at hidle
      simp only [isBusy] at hidle ⊢
      omega
    · show q.activeJobs + 1 - 1 = tally isBusy (q.workers.set i .polling)
      rw [Counted, busy, tally_eraseIdx hworker] at h
      rw [tally_set hworker, h]
      simp only [isBusy]
      omega
    · exact h.begin hworker rfl rfl _
  · exact h

theorem Counted.finish (h : Counted q) (outcome : HandlerOutcome) : Counted (q.finish config i outcome) := by
  unfold RedisTaskQueue.finish
  split
  · rename_i key job hworker
    have hbusy : isBusy (.running key job) = 1 := rfl
    have hrelease : ∀ r, Counted ((q.recordTaskState r).release i .polling) := fun r =>
      (h.record r).release hworker hbusy rfl
    cases outcome with
    | raised exc => exact hrelease _
    | value => exact hrelease _
    | result r =>
      simp only [RedisTaskQueue.handleResult]
      split
      · split
        · exact ((h.record _).record _).release hworker hbusy rfl
        · have hnamed : Counted { q.recordTaskState (job.item.record .retryScheduled) with
            knownQueues := addQueue q.knownQueues (queueNameOf key) } := h
          exact hnamed.setWorker hworker hbusy.symm
      · exact hrelease _
  · exact h

theorem Counted.cancelled (h : Counted q) : Counted (q.cancelled i) := by
  unfold RedisTaskQueue.cancelled
  split
  · split
    · rename_i hworker
      exact h.setWorker hworker rfl
    · rename_i hworker
      exact h.setWorker hworker rfl
    · rename_i hworker
      exact h.release hworker rfl rfl
    · rename_i hworker
      exact h.release hworker rfl rfl
    · exact h
  · exact h

theorem Counted.start (h : Counted q) : Counted (q.start config) := by
  simp only [RedisTaskQueue.start]
  split
  · rename_i hgo
    rw [Counted, busy, show q.workers = [] from hgo.2.1] at h
    show q.activeJobs = tally isBusy (List.replicate _ .polling)
    rw [h, tally_nil, tally_eq_zero fun w hw => by rw [List.eq_of_mem_replicate hw]; rfl]
  · exact h

theorem Counted.stopped (h : Counted q) : Counted q.stopped := by
  unfold RedisTaskQueue.stopped
  split
  · rename_i hgone
    rw [Bool.and_eq_true, List.all_eq_true] at hgone
    have hidle : busy q = 0 := by
      refine tally_eq_zero fun w hw => ?_
      have := hgone.2 w hw
      cases w with
      | gone => rfl
      | polling | fetched | running | requeuing => cases this
    rw [Counted, hidle] at h
    exact h
  · exact h

theorem Counted.step (h : Counted q) (hcalm : NoRejectionWhileBusy lib q e) : Counted (q.step lib config e) := by
  cases e with
  | start => exact h.start
  | stop =>
    simp only [RedisTaskQueue.step, RedisTaskQueue.stop]
    split <;> exact h
  | cancelled i => exact h.cancelled
  | stopped => exact h.stopped
  | enqueue taskName queue kwargs =>
    simp only [RedisTaskQueue.step, RedisTaskQueue.enqueue]
    split <;> exact h
  | carry who =>
    simp only [RedisTaskQueue.step, RedisTaskQueue.carry]
    split
    · rename_i item key hpush
      have hlist : Counted { q with lists := q.lists ++ [(key, Message.own item)] } := h
      exact hlist.setPush hpush
    · exact h
  | confirm who =>
    simp only [RedisTaskQueue.step, RedisTaskQueue.confirm]
    split
    · rename_i item key hpush
      exact (h.record _).endPush hpush
    · exact h
  | fail who =>
    simp only [RedisTaskQueue.step, RedisTaskQueue.fail]
    split
    · rename_i push hpush
      have hfallback : Counted { q with fallback := q.fallback.enqueue push.item } := h
      exact hfallback.endPush hpush
    · exact h
  | pop i queue =>
    simp only [RedisTaskQueue.step, RedisTaskQueue.pop]
    split
    · rename_i entry hworker hentry
      split
      · have hlist : Counted { q with lists := q.lists.eraseP fun e => e.1 == config.queueKey queue } := h
        exact hlist.setWorker hworker rfl
      · exact h
    · exact h
  | deliver i => exact h.deliver hcalm
  | lose i =>
    simp only [RedisTaskQueue.step, RedisTaskQueue.lose]
    split
    · rename_i key message hworker
      exact h.setWorker hworker rfl
    · exact h
  | finish i outcome => exact h.finish outcome
  | foreign | fallbackTake | fallbackFinish | fallbackStopReturns | join => exact h
  | fallbackJoined k =>
    simp only [RedisTaskQueue.step, RedisTaskQueue.fallbackJoined]
    repeat' split
    all_goals exact h
  | check k =>
    simp only [RedisTaskQueue.step, RedisTaskQueue.check]
    repeat' split
    all_goals exact h
  | length k =>
    simp only [RedisTaskQueue.step, RedisTaskQueue.length]
    split <;> exact h
  | lengthsUnavailable k =>
    simp only [RedisTaskQueue.step, RedisTaskQueue.lengthsUnavailable]
    split <;> exact h
  | deadline k =>
    simp only [RedisTaskQueue.step, RedisTaskQueue.deadline]
    split <;> exact h

theorem counted_run (hcalm : Along (RedisTaskQueue.step lib config) (NoRejectionWhileBusy lib) (.init config : RedisTaskQueue tasks) es) :
    Counted (RedisTaskQueue.run lib config (.init config : RedisTaskQueue tasks) es) :=
  runEvents_invariant (fun _ _ h hC => h.step hC) rfl hcalm

/-! ## join -/

/-- The joiner has read the count to be zero. -/
def hasRead : RedisJoiner → Bool
  | .reading _ _ | .returned .drained => true
  | .fallback _ | .looping | .returned .noWorkers | .returned .deadline => false

/-- Joiner `k` has read the count to be zero, or does so in this state. -/
def ReadsIn (q : RedisTaskQueue tasks) (k : Nat) : Prop :=
  (∃ joiner, q.joiners[k]? = some joiner ∧ hasRead joiner = true) ∨ q.joiners[k]? = some .looping ∧ q.activeJobs = 0

theorem readsIn_setJoiner {j : Nat} {joiner joiner' joiner'' : RedisJoiner} (hj : q.joiners[j]? = some joiner)
    (hread : hasRead joiner' = true → hasRead joiner = true ∨ joiner = .looping ∧ q.activeJobs = 0)
    (hk : (q.setJoiner j joiner').joiners[k]? = some joiner'') (h : hasRead joiner'' = true) : ReadsIn q k := by
  rw [RedisTaskQueue.setJoiner, List.getElem?_set] at hk
  split at hk
  · rename_i hjk
    subst hjk
    split at hk
    · obtain rfl := Option.some.inj hk
      rcases hread h with hread | ⟨rfl, hzero⟩
      · exact .inl ⟨joiner, hj, hread⟩
      · exact .inr ⟨hj, hzero⟩
    · cases hk
  · exact .inl ⟨joiner'', hk, h⟩

/-- Only the reads of a joiner, in `check`, make it one that has read. -/
theorem readsIn_of_step {joiner : RedisJoiner} (hk : (q.step lib config e).joiners[k]? = some joiner)
    (h : hasRead joiner = true) : ReadsIn q k := by
  have hsame : ∀ {q' : RedisTaskQueue tasks}, q'.joiners = q.joiners → q'.joiners[k]? = some joiner → ReadsIn q k :=
    fun heq hk => .inl ⟨joiner, heq ▸ hk, h⟩
  cases e with
  | start =>
    simp only [RedisTaskQueue.step, RedisTaskQueue.start] at hk
    split at hk <;> exact hsame rfl hk
  | stop =>
    simp only [RedisTaskQueue.step, RedisTaskQueue.stop] at hk
    split at hk <;> exact hsame rfl hk
  | cancelled i =>
    simp only [RedisTaskQueue.step, RedisTaskQueue.cancelled] at hk
    repeat' split at hk
    all_goals exact hsame rfl hk
  | stopped =>
    simp only [RedisTaskQueue.step, RedisTaskQueue.stopped] at hk
    split at hk <;> exact hsame rfl hk
  | enqueue taskName queue kwargs =>
    simp only [RedisTaskQueue.step, RedisTaskQueue.enqueue] at hk
    split at hk <;> exact hsame rfl hk
  | carry who =>
    simp only [RedisTaskQueue.step, RedisTaskQueue.carry] at hk
    split at hk
    · cases who <;> exact hsame rfl hk
    · exact hsame rfl hk
  | confirm who =>
    simp only [RedisTaskQueue.step, RedisTaskQueue.confirm] at hk
    split at hk
    · cases who <;> exact hsame rfl hk
    · exact hsame rfl hk
  | fail who =>
    simp only [RedisTaskQueue.step, RedisTaskQueue.fail] at hk
    split at hk
    · cases who <;> exact hsame rfl hk
    · exact hsame rfl hk
  | pop i queue =>
    simp only [RedisTaskQueue.step, RedisTaskQueue.pop] at hk
    repeat' split at hk
    all_goals exact hsame rfl hk
  | deliver i =>
    simp only [RedisTaskQueue.step, RedisTaskQueue.deliver] at hk
    repeat' split at hk
    all_goals exact hsame rfl hk
  | lose i =>
    simp only [RedisTaskQueue.step, RedisTaskQueue.lose] at hk
    split at hk <;> exact hsame rfl hk
  | finish i outcome =>
    simp only [RedisTaskQueue.step, RedisTaskQueue.finish, RedisTaskQueue.handleResult] at hk
    repeat' split at hk
    all_goals exact hsame rfl hk
  | foreign | fallbackTake | fallbackFinish | fallbackStopReturns => exact hsame rfl hk
  | join =>
    simp only [RedisTaskQueue.step, RedisTaskQueue.join, List.getElem?_append] at hk
    split at hk
    · exact .inl ⟨joiner, hk, h⟩
    · rw [List.mem_singleton.mp (List.mem_of_getElem? hk)] at h
      cases h
  | fallbackJoined j =>
    simp only [RedisTaskQueue.step, RedisTaskQueue.fallbackJoined] at hk
    split at hk
    · rename_i f hj
      split at hk
      · exact hsame rfl hk
      · refine readsIn_setJoiner (q := { q with fallback := q.fallback.joinReturns f }) hj (fun hread => ?_) hk h
        cases hrun : config.runWorker <;> simp [hrun, hasRead] at hread
    · exact hsame rfl hk
  | check j =>
    simp only [RedisTaskQueue.step, RedisTaskQueue.check] at hk
    split at hk
    · rename_i hj
      split at hk
      · rename_i hzero
        exact readsIn_setJoiner hj (fun _ => .inr ⟨rfl, hzero⟩) hk h
      · exact hsame rfl hk
    · exact hsame rfl hk
  | length j =>
    simp only [RedisTaskQueue.step, RedisTaskQueue.length] at hk
    split at hk
    · rename_i hj
      exact readsIn_setJoiner hj (fun _ => .inl rfl) hk h
    · rename_i hj
      exact readsIn_setJoiner hj (fun _ => .inl rfl) hk h
    · exact hsame rfl hk
  | lengthsUnavailable j =>
    simp only [RedisTaskQueue.step, RedisTaskQueue.lengthsUnavailable] at hk
    split at hk
    · rename_i hj
      exact readsIn_setJoiner hj (fun _ => .inl rfl) hk h
    · exact hsame rfl hk
  | deadline j =>
    simp only [RedisTaskQueue.step, RedisTaskQueue.deadline] at hk
    split at hk
    · rename_i hj
      exact readsIn_setJoiner hj (fun hread => by cases hread) hk h
    · exact hsame rfl hk

/-- A joiner that has read the count did so at some moment of the run. -/
theorem read_moment {joiner : RedisJoiner}
    (hk : (RedisTaskQueue.run lib config (.init config : RedisTaskQueue tasks) es).joiners[k]? = some joiner)
    (h : hasRead joiner = true) : ∃ first last, es = first ++ last ∧
      (RedisTaskQueue.run lib config (.init config : RedisTaskQueue tasks) first).joiners[k]? = some .looping ∧
      (RedisTaskQueue.run lib config (.init config : RedisTaskQueue tasks) first).activeJobs = 0 := by
  induction es using List.reverseRecOn generalizing joiner with
  | nil => cases hk
  | append_singleton es e ih =>
    rw [RedisTaskQueue.run, runEvents_snoc] at hk
    rcases readsIn_of_step hk h with ⟨joiner', hk', h'⟩ | ⟨hlooping, hzero⟩
    · obtain ⟨first, last, rfl, hmoment⟩ := ih hk' h'
      exact ⟨first, last ++ [e], List.append_assoc _ _ _, hmoment⟩
    · exact ⟨es, [e], rfl, hlooping, hzero⟩

/-- Whatever messages arrive and however the workers interleave: as long as none is rejected
    next to a busy worker, the count is the number of workers that have incremented it and
    not reached their `finally`. A `join` that has found the queues empty was in its loop at
    some moment when there was no such worker. -/
theorem count_is_the_busy_workers (tasks : TaskTable) (lib : TaskLib) (config : QueueConfig) (es : List RedisEvent)
    (hcalm : Along (RedisTaskQueue.step lib config) (NoRejectionWhileBusy lib) (.init config : RedisTaskQueue tasks) es) :
    let run := RedisTaskQueue.run lib config (.init config : RedisTaskQueue tasks)
    (run es).activeJobs = busy (run es) ∧
      ∀ k : Nat, (run es).joiners[k]? = some (.returned .drained) →
        ∃ first last, es = first ++ last ∧ (run first).joiners[k]? = some .looping ∧ busy (run first) = 0 := by
  intro run
  refine ⟨counted_run hcalm, fun k hk => ?_⟩
  obtain ⟨first, last, rfl, hlooping, hzero⟩ := read_moment hk rfl
  have hcounted : (run first).activeJobs = busy (run first) := counted_run (along_append.mp hcalm).1
  exact ⟨first, last, rfl, hlooping, hcounted.symm.trans hzero⟩

/-- A job that ends, and a message that is no JSON after it. -/
def badMessageAlone : List RedisEvent := demoStart ++ [.finish 0 .value, .foreign "queue:default" none, .pop 0 "default",
  .deliver 0, .join, .fallbackJoined 0, .check 0, .length 0, .length 0, .length 0]

theorem a_join_after_a_bad_message : (demoRun badMessageAlone).joiners = [.returned .drained] ∧
    (demoRun badMessageAlone).activeJobs = busy (demoRun badMessageAlone) ∧
    ∀ k : Nat, (demoRun badMessageAlone).joiners[k]? = some (.returned .drained) →
      ∃ first last, badMessageAlone = first ++ last ∧ (demoRun first).joiners[k]? = some .looping ∧
        busy (demoRun first) = 0 :=
  ⟨by decide +kernel, count_is_the_busy_workers demoTasks demoLib demoConfig badMessageAlone (by decide +kernel)⟩

/-- The second worker rejects a message while the first runs a handler: the count drops to
    zero and `join` returns. It also returns over a handler that was started after it had
    read the count, and at its deadline. -/
theorem join_returns_over_a_handler :
    let badMessage := demoRun (demoStart ++ [.foreign "queue:default" none, .pop 1 "default", .deliver 1, .join,
      .fallbackJoined 0, .check 0, .length 0, .length 0, .length 0])
    let lateStart := demoRun [.start, .enqueue "demo" none [], .carry (.call 0), .confirm (.call 0), .join, .fallbackJoined 0,
      .check 0, .pop 0 "default", .deliver 0, .length 0, .length 0, .length 0]
    let deadline := demoRun (demoStart ++ [.join, .fallbackJoined 0, .deadline 0])
    (badMessage.activeJobs = 0 ∧ busy badMessage = 1 ∧ badMessage.joiners = [.returned .drained]) ∧
      (lateStart.activeJobs = 1 ∧ busy lateStart = 1 ∧ lateStart.joiners = [.returned .drained]) ∧
      deadline.activeJobs = 1 ∧ busy deadline = 1 ∧ deadline.joiners = [.returned .deadline] := by
  decide +kernel

end Imghost.Tasks.ActiveJobs
