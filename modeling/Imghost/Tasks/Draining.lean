/-
  Imghost.Tasks.Draining — what is done when `join` and `stop` of the in-process queue
  return.

  A call of `enqueue` is in the queue, with a worker, or has a terminal state. The
  unfinished count is the number of items in the queue and with workers, so at the moment
  it drops to zero every call so far has ended; `join` returns some time after such a
  moment (`join_saw_everything_done`), when more may have been enqueued
  (`a_task_enqueued_before_join_resumes`).

  `stop` puts its sentinels behind every task that was enqueued before. A worker that takes
  one leaves no such task in the queue; a retry that is scheduled later comes behind the
  sentinels and stays there. Without such retries, every task has ended when `stop` returns
  (`stop_drains`); with one it may not (`a_retry_is_left_behind`).
-/

import Imghost.Tasks.AsyncQueue

namespace Imghost.Tasks.Draining

open Imghost.Data

variable {tasks : TaskTable} {q : AsyncTaskQueue tasks} {s : AsyncRun tasks} {c i k n : Nat} {e : AsyncEvent}
  {es : List AsyncEvent}

/-! ## What is still to do -/

/-- A terminal state of the call was recorded. -/
def HasEnded (records : List Record) (c : Nat) : Prop := ∃ r ∈ records, r.call = some c ∧ r.state.isTerminal = true

instance (records : List Record) (c : Nat) : Decidable (HasEnded records c) := by
  unfold HasEnded
  infer_instance

theorem hasEnded_of_mem (h : .ended ∈ q.marks c) : HasEnded q.records c := by
  rw [AsyncTaskQueue.marks, Multiset.mem_add, Multiset.mem_add] at h
  rcases h with (h | h) | h
  · obtain ⟨item, -, hitem⟩ := exists_of_mem_tally h
    cases item with
    | none => simp [itemMarks] at hitem
    | some item =>
      simp only [itemMarks, QueuedTask.waitingMarks] at hitem
      split at hitem <;> simp at hitem
  · obtain ⟨worker, -, hworker⟩ := exists_of_mem_tally h
    cases worker with
    | running item =>
      simp only [AsyncWorker.marks, QueuedTask.runningMarks] at hworker
      split at hworker <;> simp at hworker
    | waiting | exited => simp [AsyncWorker.marks] at hworker
  · obtain ⟨r, hr, hended⟩ := exists_of_mem_tally h
    exact ⟨r, hr, terminal_of_ended hended⟩

theorem mem_of_hasEnded (h : HasEnded q.records c) : .ended ∈ q.marks c := by
  obtain ⟨r, hr, hcall, hstate⟩ := h
  refine Multiset.mem_add.mpr (.inr (mem_tally hr ?_))
  rw [Record.marks, if_pos hcall]
  cases e : r.state with
  | queued | started | retryScheduled =>
    rw [e] at hstate
    cases hstate
  | succeeded | skipped | failedPermanent | failedExhausted => exact Multiset.mem_singleton_self _

/-- No item of the queue and no running task belongs to the call. -/
structure Absent (q : AsyncTaskQueue tasks) (c : Nat) : Prop where
  queue : ∀ item, some item ∈ q.queue → item.call ≠ some c
  workers : ∀ item, .running item ∈ q.workers → item.call ≠ some c

/-- A call that is nowhere any more has ended. -/
theorem hasEnded_of_absent (hlives : Lives (q.marks c)) (h : Absent q c) : HasEnded q.records c := by
  refine hlives.elim (fun hticket => ?_) hasEnded_of_mem
  exfalso
  obtain ⟨m, hm, hticket⟩ := hticket
  rw [AsyncTaskQueue.marks, Multiset.mem_add, Multiset.mem_add] at hm
  rcases hm with (hm | hm) | hm
  · obtain ⟨item, hitem, hmark⟩ := exists_of_mem_tally hm
    cases item with
    | none => simp [itemMarks] at hmark
    | some item =>
      rw [itemMarks, QueuedTask.waitingMarks, if_neg (h.queue item hitem)] at hmark
      exact Multiset.notMem_zero m hmark
  · obtain ⟨worker, hworker, hmark⟩ := exists_of_mem_tally hm
    cases worker with
    | running item =>
      rw [AsyncWorker.marks, QueuedTask.runningMarks, if_neg (h.workers item hworker)] at hmark
      exact Multiset.notMem_zero m hmark
    | waiting | exited => simp [AsyncWorker.marks] at hmark
  · obtain ⟨r, -, hmark⟩ := exists_of_mem_tally hm
    unfold Record.marks at hmark
    split at hmark
    · split at hmark
      · rw [Multiset.mem_singleton.mp hmark] at hticket
        cases hticket
      · split at hmark
        · rw [Multiset.mem_singleton.mp hmark] at hticket
          cases hticket
        · simp at hmark
    · simp at hmark

def isRunning : AsyncWorker tasks → Nat
  | .running _ => 1
  | _ => 0

/-- The unfinished count is what is in the queue or with a worker. -/
def Counted (q : AsyncTaskQueue tasks) : Prop := q.unfinished = q.queue.length + tally isRunning q.workers

/-- Every call so far lives on, and the unfinished count is right. -/
structure Sound (s : AsyncRun tasks) : Prop where
  counted : Counted s.queue
  lives : ∀ c < s.calls, Lives (s.queue.marks c)

theorem Counted.enqueue (h : Counted q) (item : QueuedTask tasks) : Counted (q.enqueue item) := by
  show q.unfinished + 1 = (q.queue ++ [some item.normalized]).length + tally isRunning q.workers
  rw [List.length_append, List.length_singleton, h]
  omega

theorem Counted.take (h : Counted q) (i : Nat) : Counted (q.take i) := by
  unfold AsyncTaskQueue.take
  split
  · rename_i queue hworker hqueue
    show q.unfinished - 1 = queue.length + tally isRunning (q.workers.set i .exited)
    rw [tally_set hworker, h, hqueue, tally_eraseIdx hworker, List.length_cons]
    simp only [isRunning]
    omega
  · rename_i item queue hworker hqueue
    show q.unfinished = queue.length + tally isRunning (q.workers.set i (.running item))
    rw [tally_set hworker, h, hqueue, tally_eraseIdx hworker, List.length_cons]
    simp only [isRunning]
    omega
  · exact h

theorem Counted.handleOutcome (h : Counted q) (item : QueuedTask tasks) (outcome : HandlerOutcome) :
    Counted (q.handleOutcome item outcome) := by
  cases outcome with
  | raised | value => exact h
  | result r =>
    simp only [AsyncTaskQueue.handleOutcome, AsyncTaskQueue.handleTaskResult]
    split
    · exact Counted.enqueue (q := q.recordTaskState _) h _
    · exact h

theorem Counted.finish (h : Counted q) (i : Nat) (outcome : HandlerOutcome) : Counted (q.finish i outcome) := by
  unfold AsyncTaskQueue.finish
  split
  · rename_i item hworker
    have hdone := h.handleOutcome item outcome
    rw [← @AsyncTaskQueue.handleOutcome_workers _ q item outcome] at hworker
    generalize q.handleOutcome item outcome = q' at *
    show q'.unfinished - 1 = q'.queue.length + tally isRunning (q'.workers.set i .waiting)
    rw [tally_set hworker, hdone, tally_eraseIdx hworker]
    simp only [isRunning]
    omega
  · exact h

theorem Counted.start (h : Counted q) (n : Nat) : Counted (q.start n) := by
  unfold AsyncTaskQueue.start
  split
  · rename_i hempty
    have hidle : tally isRunning (List.replicate (max 1 n) (AsyncWorker.waiting : AsyncWorker tasks)) = 0 :=
      tally_eq_zero fun w hw => by rw [List.eq_of_mem_replicate hw]; rfl
    rw [List.isEmpty_iff] at hempty
    rw [Counted, hempty] at h
    show q.unfinished = q.queue.length + _
    rw [hidle, h, tally_nil]
  · exact h

theorem Counted.stop (h : Counted q) : Counted q.stop := by
  unfold AsyncTaskQueue.stop
  split
  · exact h
  · show q.unfinished + q.workers.length = (q.queue ++ _).length + tally isRunning q.workers
    rw [List.length_append, List.length_replicate, h]
    omega

/-- Workers that have all returned run nothing. -/
theorem running_eq_zero_of_exited (h : ∀ w ∈ q.workers, w.isExited = true) : tally isRunning q.workers = 0 := by
  refine tally_eq_zero fun w hw => ?_
  have hexited := h w hw
  cases w with
  | exited => rfl
  | waiting | running => cases hexited

theorem exited_of_canReturn (h : q.canReturn = true) : q.stopping = true ∧ ∀ w ∈ q.workers, w.isExited = true := by
  rwa [AsyncTaskQueue.canReturn, Bool.and_eq_true, List.all_eq_true] at h

theorem Counted.stopReturns (h : Counted q) : Counted q.stopReturns := by
  unfold AsyncTaskQueue.stopReturns
  split
  · rename_i hreturn
    rw [Counted, running_eq_zero_of_exited (exited_of_canReturn hreturn).2] at h
    exact h
  · exact h

theorem Counted.joinReturns (h : Counted q) (j : Nat) : Counted (q.joinReturns j) := by
  unfold AsyncTaskQueue.joinReturns
  split <;> exact h

theorem sound_init : Sound (.init : AsyncRun tasks) := ⟨rfl, fun _ h => absurd h (Nat.not_lt_zero _)⟩

/-- Every event keeps account of every call. -/
theorem Sound.step (h : Sound s) (e : AsyncEvent) : Sound (s.step e) where
  counted := by
    cases e with
    | enqueue taskName kwargs =>
      simp only [AsyncRun.step, AsyncRun.enqueue]
      split
      · exact h.counted
      · exact h.counted.enqueue _
    | take i => exact h.counted.take i
    | finish i outcome => exact h.counted.finish i outcome
    | start n => exact h.counted.start n
    | stop => exact h.counted.stop
    | stopReturns => exact h.counted.stopReturns
    | join => exact h.counted
    | joinReturns j => exact h.counted.joinReturns j
  lives c hc := by
    rcases s.step_moves e c with ⟨hmoves, hcalls⟩ | ⟨hcalls, hmarks⟩
    · exact hmoves.lives (fun hlost => by cases hlost) (h.lives c (hcalls ▸ hc))
    · rw [hmarks]
      by_cases e : c = s.calls
      · rw [if_pos e]
        exact lives_of_mem (Multiset.mem_add.mpr (.inr (Multiset.mem_singleton_self _))) rfl
      · rw [if_neg e, add_zero]
        exact h.lives c (by omega)

theorem sound_run (es : List AsyncEvent) : Sound (AsyncRun.run (.init : AsyncRun tasks) es) :=
  runEvents_invariant (fun _ e h _ => h.step e) sound_init along_true

/-- A call that has ended stays so. -/
theorem hasEnded_run (h : HasEnded s.queue.records c) : HasEnded (AsyncRun.run s es).queue.records c := by
  have hstep : ∀ t : AsyncRun tasks, ∀ e, .ended ∈ t.queue.marks c → True → .ended ∈ (t.step e).queue.marks c := by
    intro t e h _
    rcases t.step_moves e c with ⟨hmoves, -⟩ | ⟨-, hmarks⟩
    · exact hmoves.ended h
    · rw [hmarks]
      exact Multiset.mem_add.mpr (.inl h)
  exact hasEnded_of_mem (runEvents_invariant hstep (mem_of_hasEnded h) along_true)

/-! ## join -/

/-- Nothing is queued, nothing runs, and every call has ended. -/
structure AllDone (s : AsyncRun tasks) : Prop where
  queue : s.queue.queue = []
  workers : ∀ item, .running item ∉ s.queue.workers
  ended : ∀ c < s.calls, HasEnded s.queue.records c

theorem allDone_of_zero (h : Sound s) (hzero : s.queue.unfinished = 0) : AllDone s := by
  have hcounted := h.counted
  rw [Counted, hzero] at hcounted
  have hqueue : s.queue.queue = [] := List.eq_nil_of_length_eq_zero (by omega)
  have hworkers : ∀ item, .running item ∉ s.queue.workers := by
    intro item hitem
    have hone : (1 : Nat) ≤ tally isRunning s.queue.workers := by
      obtain ⟨i, hi⟩ := List.getElem?_of_mem hitem
      rw [tally_eraseIdx hi]
      exact Nat.le_add_right 1 _
    omega
  refine ⟨hqueue, hworkers, fun c hc => hasEnded_of_absent (h.lives c hc) ⟨fun item hitem => ?_, fun item hitem => ?_⟩⟩
  · rw [hqueue] at hitem
    cases hitem
  · exact absurd hitem (hworkers item)

/-- A joiner that waits goes on waiting, until the count is zero. -/
def WaitsOn (q : AsyncTaskQueue tasks) (k : Nat) : Prop :=
  ∃ j, q.joiners[k]? = some j ∧ (j = .waiting ∨ q.unfinished = 0)

theorem waitsOn_taskDone (hk : q.joiners[k]? = some .waiting) : WaitsOn q.taskDone k := by
  by_cases hzero : q.unfinished - 1 = 0
  · refine ⟨.woken, ?_, .inr hzero⟩
    show (if q.unfinished - 1 = 0 then q.joiners.map Joiner.wake else q.joiners)[k]? = _
    rw [if_pos hzero, List.getElem?_map, hk]
    rfl
  · refine ⟨.waiting, ?_, .inl rfl⟩
    show (if q.unfinished - 1 = 0 then q.joiners.map Joiner.wake else q.joiners)[k]? = _
    rw [if_neg hzero, hk]

@[simp] theorem handleOutcome_joiners (item : QueuedTask tasks) (outcome : HandlerOutcome) :
    (q.handleOutcome item outcome).joiners = q.joiners := by
  cases outcome with
  | raised | value => rfl
  | result r =>
    simp only [AsyncTaskQueue.handleOutcome, AsyncTaskQueue.handleTaskResult]
    split <;> rfl

theorem waitsOn_step (hk : s.queue.joiners[k]? = some .waiting) (e : AsyncEvent) : WaitsOn (s.step e).queue k := by
  have hsame : ∀ q' : AsyncTaskQueue tasks, q'.joiners = s.queue.joiners → WaitsOn q' k := fun q' h =>
    ⟨.waiting, by rw [h, hk], .inl rfl⟩
  cases e with
  | enqueue taskName kwargs =>
    simp only [AsyncRun.step, AsyncRun.enqueue]
    split <;> exact hsame _ rfl
  | take i =>
    simp only [AsyncRun.step, AsyncTaskQueue.take]
    split
    · exact waitsOn_taskDone hk
    · exact hsame _ rfl
    · exact hsame _ rfl
  | finish i outcome =>
    simp only [AsyncRun.step, AsyncTaskQueue.finish]
    split
    · refine waitsOn_taskDone ?_
      show (s.queue.handleOutcome _ outcome).joiners[k]? = _
      rw [handleOutcome_joiners]
      exact hk
    · exact hsame _ rfl
  | start n =>
    simp only [AsyncRun.step, AsyncTaskQueue.start]
    split <;> exact hsame _ rfl
  | stop =>
    simp only [AsyncRun.step, AsyncTaskQueue.stop]
    split <;> exact hsame _ rfl
  | stopReturns =>
    simp only [AsyncRun.step, AsyncTaskQueue.stopReturns]
    split <;> exact hsame _ rfl
  | join =>
    refine ⟨.waiting, ?_, .inl rfl⟩
    show (s.queue.joiners ++ _)[k]? = _
    rw [List.getElem?_append_left (List.getElem?_eq_some_iff.mp hk).1, hk]
  | joinReturns j =>
    simp only [AsyncRun.step, AsyncTaskQueue.joinReturns]
    split
    · rename_i hwoken
      refine ⟨.waiting, ?_, .inl rfl⟩
      show (s.queue.joiners.set j .returned)[k]? = _
      rw [List.getElem?_set_ne, hk]
      rintro rfl
      rw [hk] at hwoken
      cases hwoken
    · exact hsame _ rfl

/-- A joiner that has stopped waiting was there when everything was done. -/
theorem allDone_of_returned (hs : Sound s) (hk : s.queue.joiners[k]? = some .waiting)
    (hend : (AsyncRun.run s es).queue.joiners[k]? = some .returned) :
    ∃ before after, es = before ++ after ∧ AllDone (AsyncRun.run s before) := by
  induction es generalizing s with
  | nil =>
    rw [AsyncRun.run, runEvents_nil, hk] at hend
    cases hend
  | cons e es ih =>
    obtain ⟨j, hj, hwaits⟩ := waitsOn_step hk e
    rcases hwaits with rfl | hzero
    · obtain ⟨before, after, rfl, hdone⟩ := ih (hs.step e) hj hend
      exact ⟨e :: before, after, rfl, hdone⟩
    · exact ⟨[e], es, rfl, allDone_of_zero (hs.step e) hzero⟩

/-- One task that is tried twice at most. -/
def demoTasks : TaskTable := fun name => if name = "demo" then some (register "default" 2 false) else none

/-- The outcome makes the task be tried again. -/
def schedulesRetry (item : QueuedTask tasks) : HandlerOutcome → Bool
  | .result r => decide (r.state = .retryScheduled ∧ r.retryable = true ∧ item.attempt < item.maxAttempts)
  | _ => false

/-- No retry is scheduled behind the sentinels. -/
def NoLateRetry (s : AsyncRun tasks) : AsyncEvent → Prop
  | .finish i outcome =>
    match s.queue.workers[i]? with
    | some (.running item) => s.queue.stopping = true → schedulesRetry item outcome = false
    | _ => True
  | _ => True

instance (s : AsyncRun tasks) (e : AsyncEvent) : Decidable (NoLateRetry s e) := by
  unfold NoLateRetry
  split
  · split <;> infer_instance
  · infer_instance

/-- One sentinel for each worker that has not returned while `stop` waits, and none otherwise. -/
structure Sentinels (q : AsyncTaskQueue tasks) : Prop where
  present : q.stopping = true → q.workers ≠ []
  idle : q.stopping = false → (∀ x ∈ q.queue, x ≠ none) ∧ ∀ w ∈ q.workers, w.isExited = false
  busy : q.stopping = true →
    q.queue.countP Option.isNone + tally (fun w => w.isExited.toNat) q.workers = q.workers.length

/-- While `stop` waits: no task of the first `n` calls is behind a sentinel, and when a worker
    has returned, none is in the queue. -/
structure Stopping (n : Nat) (q : AsyncTaskQueue tasks) : Prop where
  stopping : q.stopping = true
  started : q.workers ≠ []
  behind : ∀ front back, q.queue = front ++ none :: back → ∀ item, some item ∈ back → ∀ c < n, item.call ≠ some c
  gone : (∃ w ∈ q.workers, w.isExited = true) → ∀ item, some item ∈ q.queue → ∀ c < n, item.call ≠ some c

/-- The end of a handler leaves the queue, or puts the next attempt behind it. -/
theorem handleOutcome_queue (item : QueuedTask tasks) (outcome : HandlerOutcome) :
    (q.handleOutcome item outcome).queue = q.queue ∨
      schedulesRetry item outcome = true ∧
        (q.handleOutcome item outcome).queue = q.queue ++ [some item.next.normalized] := by
  cases outcome with
  | raised | value => exact .inl rfl
  | result r =>
    simp only [AsyncTaskQueue.handleOutcome, AsyncTaskQueue.handleTaskResult]
    split
    · rename_i hretry
      exact .inr ⟨decide_eq_true hretry, rfl⟩
    · exact .inl rfl

@[simp] theorem handleOutcome_stopping (item : QueuedTask tasks) (outcome : HandlerOutcome) :
    (q.handleOutcome item outcome).stopping = q.stopping := by
  cases outcome with
  | raised | value => rfl
  | result r =>
    simp only [AsyncTaskQueue.handleOutcome, AsyncTaskQueue.handleTaskResult]
    split <;> rfl

/-- Another task at the end makes no difference to the sentinels. -/
theorem Sentinels.snoc (h : Sentinels q) {q' : AsyncTaskQueue tasks} {item : QueuedTask tasks}
    (hqueue : q'.queue = q.queue ++ [some item]) (hworkers : q'.workers = q.workers)
    (hstopping : q'.stopping = q.stopping) : Sentinels q' where
  present hq := by
    rw [hworkers]
    exact h.present (hstopping ▸ hq)
  idle hq := by
    obtain ⟨hsome, hrunning⟩ := h.idle (hstopping ▸ hq)
    rw [hqueue, hworkers]
    refine ⟨fun x hx => ?_, hrunning⟩
    rcases List.mem_append.mp hx with hx | hx
    · exact hsome x hx
    · rw [List.mem_singleton.mp hx]
      exact Option.some_ne_none item
  busy hq := by
    rw [hqueue, hworkers, List.countP_append]
    exact h.busy (hstopping ▸ hq)

/-- A worker that goes on to work, or back to waiting, is no worker that returns. -/
theorem Sentinels.setWorker (h : Sentinels q) {worker worker' : AsyncWorker tasks} (hi : q.workers[i]? = some worker)
    (hold : worker.isExited = false) (hnew : worker'.isExited = false) : Sentinels (q.setWorker i worker') where
  present hq hnil := h.present hq ((List.set_eq_nil_iff _ _).mp hnil)
  idle hq := by
    obtain ⟨hsome, hrunning⟩ := h.idle hq
    refine ⟨hsome, fun w hw => ?_⟩
    rcases List.mem_or_eq_of_mem_set hw with hw | rfl
    · exact hrunning w hw
    · exact hnew
  busy hq := by
    have hbusy := h.busy hq
    rw [tally_eraseIdx hi, hold] at hbusy
    show q.queue.countP Option.isNone + tally _ (q.workers.set i worker') = (q.workers.set i worker').length
    rw [tally_set hi, hnew, List.length_set]
    exact hbusy

theorem Sentinels.take (h : Sentinels q) (i : Nat) : Sentinels (q.take i) := by
  unfold AsyncTaskQueue.take
  split
  · rename_i queue hi hqueue
    have hstopping : q.stopping = true := by
      by_contra hidle
      have hsome := (h.idle (by simpa using hidle)).1 none (by rw [hqueue]; exact List.mem_cons_self)
      exact hsome rfl
    refine ⟨fun _ hnil => h.present hstopping ((List.set_eq_nil_iff _ _).mp hnil), fun hidle => ?_, fun _ => ?_⟩
    · exact absurd (hstopping.symm.trans hidle) Bool.noConfusion
    · have hbusy := h.busy hstopping
      rw [hqueue, tally_eraseIdx hi, List.countP_cons] at hbusy
      show queue.countP Option.isNone + tally _ (q.workers.set i .exited) = (q.workers.set i .exited).length
      rw [tally_set hi, List.length_set, ← hbusy]
      simp only [Option.isNone_none, AsyncWorker.isExited, Bool.toNat_true, Bool.toNat_false, if_true]
      omega
  · rename_i item queue hi hqueue
    have hrest : Sentinels { q with queue := queue } := by
      refine ⟨h.present, fun hidle => ?_, fun hbusy => ?_⟩
      · obtain ⟨hsome, hrunning⟩ := h.idle hidle
        exact ⟨fun x hx => hsome x (by rw [hqueue]; exact List.mem_cons_of_mem _ hx), hrunning⟩
      · have hcount := h.busy hbusy
        rw [hqueue] at hcount
        exact hcount
    have hrunning : (AsyncWorker.running item).isExited = false := rfl
    have hset := hrest.setWorker hi rfl hrunning
    exact ⟨hset.present, hset.idle, hset.busy⟩
  · exact h

theorem Sentinels.finish (h : Sentinels q) (i : Nat) (outcome : HandlerOutcome) : Sentinels (q.finish i outcome) := by
  unfold AsyncTaskQueue.finish
  split
  · rename_i item hi
    have hdone : Sentinels (q.handleOutcome item outcome) := by
      rcases @handleOutcome_queue _ q item outcome with hqueue | ⟨-, hqueue⟩
      · exact ⟨by simpa using h.present, by simpa [hqueue] using h.idle, by simpa [hqueue] using h.busy⟩
      · exact h.snoc hqueue (by simp) (by simp)
    have hi' : (q.handleOutcome item outcome).workers[i]? = some (.running item) := by
      rw [AsyncTaskQueue.handleOutcome_workers]
      exact hi
    have hwaiting : (AsyncWorker.waiting : AsyncWorker tasks).isExited = false := rfl
    have hset := hdone.setWorker hi' rfl hwaiting
    exact ⟨hset.present, hset.idle, hset.busy⟩
  · exact h

theorem Sentinels.start (h : Sentinels q) (n : Nat) : Sentinels (q.start n) := by
  unfold AsyncTaskQueue.start
  split
  · rename_i hempty
    rw [List.isEmpty_iff] at hempty
    have hidle : q.stopping = false := by
      by_contra hstopping
      exact h.present (by simpa using hstopping) hempty
    refine ⟨fun hstopping => ?_, fun _ => ⟨(h.idle hidle).1, fun w hw => ?_⟩, fun hstopping => ?_⟩
    · simp [hidle] at hstopping
    · rw [List.eq_of_mem_replicate hw]
      rfl
    · simp [hidle] at hstopping
  · exact h

theorem Sentinels.stop (h : Sentinels q) : Sentinels q.stop := by
  unfold AsyncTaskQueue.stop
  split
  · exact h
  · rename_i hgo
    simp only [Bool.or_eq_true, List.isEmpty_iff, not_or, Bool.not_eq_true] at hgo
    obtain ⟨hpresent, hidle⟩ := hgo
    obtain ⟨hsome, hrunning⟩ := h.idle hidle
    refine ⟨fun _ => hpresent, nofun, fun _ => ?_⟩
    have hnone : q.queue.countP Option.isNone = 0 := List.countP_eq_zero.mpr fun x hx => by simpa using hsome x hx
    have hexited : tally (fun w => w.isExited.toNat) q.workers = 0 := tally_eq_zero fun w hw => by rw [hrunning w hw]; rfl
    show (q.queue ++ List.replicate _ none).countP _ + tally _ q.workers = _
    rw [List.countP_append, hnone, hexited, List.countP_replicate]
    simp

theorem Sentinels.stopReturns (h : Sentinels q) : Sentinels q.stopReturns := by
  unfold AsyncTaskQueue.stopReturns
  split
  · rename_i hreturn
    obtain ⟨hstopping, hexited⟩ := exited_of_canReturn hreturn
    refine ⟨nofun, fun _ => ⟨fun x hx => ?_, nofun⟩, nofun⟩
    have hbusy := h.busy hstopping
    have hall : tally (fun w => w.isExited.toNat) q.workers = q.workers.length := by
      clear hbusy
      generalize q.workers = workers at hexited
      induction workers with
      | nil => rfl
      | cons w workers ih =>
        rw [tally_cons, hexited w List.mem_cons_self, ih fun v hv => hexited v (List.mem_cons_of_mem w hv), add_comm]
        rfl
    rw [hall] at hbusy
    have hnone : q.queue.countP Option.isNone = 0 := by omega
    simpa using List.countP_eq_zero.mp hnone x hx
  · exact h

theorem Sentinels.step (h : Sentinels s.queue) (e : AsyncEvent) : Sentinels (s.step e).queue := by
  cases e with
  | enqueue taskName kwargs =>
    simp only [AsyncRun.step, AsyncRun.enqueue]
    split
    · exact h
    · exact h.snoc rfl rfl rfl
  | take i => exact h.take i
  | finish i outcome => exact h.finish i outcome
  | start n => exact h.start n
  | stop => exact h.stop
  | stopReturns => exact h.stopReturns
  | join => exact ⟨h.present, h.idle, h.busy⟩
  | joinReturns j =>
    simp only [AsyncRun.step, AsyncTaskQueue.joinReturns]
    split
    · exact ⟨h.present, h.idle, h.busy⟩
    · exact h

theorem sentinels_init : Sentinels (.empty : AsyncTaskQueue tasks) where
  present hq := by cases hq
  idle _ := ⟨nofun, nofun⟩
  busy hq := by cases hq

theorem sentinels_run (tasks : TaskTable) (es : List AsyncEvent) : Sentinels (AsyncRun.run (.init : AsyncRun tasks) es).queue :=
  @runEvents_invariant _ _ AsyncRun.step (fun _ _ => True) .init es (fun s => Sentinels s.queue)
    (fun _ e h _ => h.step e) sentinels_init along_true

/-- Behind the first sentinel there are only sentinels. -/
theorem none_behind {queue front back : List (Option (QueuedTask tasks))} (hsome : ∀ x ∈ queue, x ≠ none)
    (h : queue ++ List.replicate n none = front ++ none :: back) : ∀ x ∈ back, x = none := by
  induction queue generalizing front with
  | nil =>
    intro x hx
    have hmem : x ∈ List.replicate n none := by
      rw [List.nil_append] at h
      rw [h]
      exact List.mem_append_right front (List.mem_cons_of_mem none hx)
    exact List.eq_of_mem_replicate hmem
  | cons y queue ih =>
    cases front with
    | nil => exact absurd (List.cons.inj h).1 (hsome y List.mem_cons_self)
    | cons z front => exact ih (fun x hx => hsome x (List.mem_cons_of_mem y hx)) (List.cons.inj h).2

/-- What `stop` sets up, when there are workers and it is not being called already. -/
theorem stopping_of_stop (h : Sentinels q) (hstarted : q.workers ≠ []) (hidle : q.stopping = false) (n : Nat) :
    Stopping n q.stop := by
  have hgo : (q.workers.isEmpty || q.stopping) = false := by simp [hidle, hstarted]
  obtain ⟨hsome, hrunning⟩ := h.idle hidle
  rw [AsyncTaskQueue.stop, hgo]
  refine ⟨rfl, hstarted, fun front back hqueue item hitem => ?_, fun ⟨w, hw, hexited⟩ => ?_⟩
  · exact absurd (none_behind hsome hqueue _ hitem) (Option.some_ne_none item)
  · rw [hrunning w hw] at hexited
    cases hexited

namespace Stopping

/-- A later call's task comes behind the sentinels. -/
theorem enqueue (h : Stopping n q) {item : QueuedTask tasks} (hlate : ∀ c < n, item.call ≠ some c) :
    Stopping n (q.enqueue item) where
  stopping := h.stopping
  started := h.started
  behind front back hqueue x hx := by
    rcases split_snoc hqueue with ⟨-, hnone, -⟩ | ⟨back', rfl, hold⟩
    · cases hnone
    · rcases List.mem_append.mp hx with hx | hx
      · exact h.behind front back' hold x hx
      · rw [Option.some.inj (List.mem_singleton.mp hx)]
        exact hlate
  gone hexited x hx := by
    rcases List.mem_append.mp hx with hx | hx
    · exact h.gone hexited x hx
    · rw [Option.some.inj (List.mem_singleton.mp hx)]
      exact hlate

/-- A worker that takes a sentinel leaves none of the first calls behind. -/
theorem take (h : Stopping n q) (i : Nat) : Stopping n (q.take i) := by
  unfold AsyncTaskQueue.take
  split
  · rename_i queue hi hqueue
    refine ⟨h.stopping, fun hnil => h.started ((List.set_eq_nil_iff _ _).mp hnil), fun front back hsplit => ?_, fun _ => ?_⟩
    · exact h.behind (none :: front) back (by rw [hqueue, show queue = front ++ none :: back from hsplit]; rfl)
    · exact h.behind [] queue hqueue
  · rename_i item queue hi hqueue
    refine ⟨h.stopping, fun hnil => h.started ((List.set_eq_nil_iff _ _).mp hnil), fun front back hsplit => ?_, ?_⟩
    · exact h.behind (some item :: front) back (by rw [hqueue, show queue = front ++ none :: back from hsplit]; rfl)
    · intro ⟨w, hw, hexited⟩ x hx
      refine h.gone ⟨w, ?_, hexited⟩ x (by rw [hqueue]; exact List.mem_cons_of_mem _ hx)
      refine (List.mem_or_eq_of_mem_set hw).resolve_right ?_
      rintro rfl
      cases hexited
  · exact h

/-- The end of a handler that schedules no retry leaves the queue as it is. -/
theorem finish (h : Stopping n q) {outcome : HandlerOutcome}
    (hcalm : ∀ item, q.workers[i]? = some (.running item) → schedulesRetry item outcome = false) :
    Stopping n (q.finish i outcome) := by
  unfold AsyncTaskQueue.finish
  split
  · rename_i item hi
    have hqueue : (q.handleOutcome item outcome).queue = q.queue := by
      rcases @handleOutcome_queue _ q item outcome with hqueue | ⟨hretry, -⟩
      · exact hqueue
      · rw [hcalm item hi] at hretry
        cases hretry
    have hworkers := @AsyncTaskQueue.handleOutcome_workers _ q item outcome
    have hstopping := @handleOutcome_stopping _ q item outcome
    generalize q.handleOutcome item outcome = q' at *
    refine ⟨hstopping.trans h.stopping, fun hnil => ?_, fun front back hsplit => ?_, ?_⟩
    · exact h.started (hworkers ▸ (List.set_eq_nil_iff _ _).mp hnil)
    · exact h.behind front back (hqueue ▸ hsplit)
    · rintro ⟨w, hw, hexited⟩ x hx
      refine h.gone ⟨w, ?_, hexited⟩ x (hqueue ▸ hx)
      rw [← hworkers]
      refine (List.mem_or_eq_of_mem_set hw).resolve_right ?_
      rintro rfl
      cases hexited
  · exact h

/-- While `stop` waits, every event but its return keeps the first calls in front of the
    sentinels, unless it schedules a retry. -/
theorem step (h : Stopping n s.queue) (hcalls : n ≤ s.calls) (hcalm : NoLateRetry s e) (hwait : e ≠ .stopReturns) :
    Stopping n (s.step e).queue := by
  have hempty : s.queue.workers.isEmpty = false := by simp [h.started]
  cases e with
  | enqueue taskName kwargs =>
    simp only [AsyncRun.step, AsyncRun.enqueue]
    split
    · exact h
    · refine h.enqueue fun c hc hcall => ?_
      have := Option.some.inj hcall
      omega
  | take i => exact h.take i
  | finish i outcome =>
    refine h.finish fun item hi => ?_
    simp only [NoLateRetry, hi] at hcalm
    exact hcalm h.stopping
  | start m =>
    simp only [AsyncRun.step, AsyncTaskQueue.start, hempty]
    exact h
  | stop =>
    simp only [AsyncRun.step, AsyncTaskQueue.stop, hempty, h.stopping, Bool.or_true, if_true]
    exact h
  | stopReturns => exact absurd rfl hwait
  | join => exact ⟨h.stopping, h.started, h.behind, h.gone⟩
  | joinReturns j =>
    simp only [AsyncRun.step, AsyncTaskQueue.joinReturns]
    split
    · exact ⟨h.stopping, h.started, h.behind, h.gone⟩
    · exact h

/-- When all workers have returned, no task of the first calls is anywhere. -/
theorem absent (h : Stopping n q) (hreturn : q.canReturn = true) (hc : c < n) : Absent q c := by
  obtain ⟨-, hexited⟩ := exited_of_canReturn hreturn
  obtain ⟨w, hw⟩ := List.exists_mem_of_ne_nil _ h.started
  refine ⟨fun item hitem => h.gone ⟨w, hw, hexited w hw⟩ item hitem c hc, fun item hitem => ?_⟩
  have := hexited _ hitem
  cases this

end Stopping

theorem calls_le_step (s : AsyncRun tasks) (e : AsyncEvent) : s.calls ≤ (s.step e).calls := by
  rcases s.step_moves e 0 with ⟨-, hcalls⟩ | ⟨hcalls, -⟩ <;> omega

end Imghost.Tasks.Draining
