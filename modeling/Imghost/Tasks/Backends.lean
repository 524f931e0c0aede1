/-
  Imghost.Tasks.Backends — one task on each of the three queues.

  The in-process queue and the Redis queue play the loop of the synchronous one in pieces.
  At every moment of a run there is a part of that loop still to come (`Stage.pending`):
  what has been recorded and what is to come make up the whole (`AsyncFollows`,
  `RedisFollows`). A run that is complete has recorded the whole.

  The Redis queue records `queued` when the reply of the push comes, and the worker may have
  started the task by then (`a_worker_is_faster_than_the_reply`). When it has not, the three
  queues record the same (`one_retry_protocol`).
-/

import Imghost.Tasks.Handover
import Imghost.Tasks.SyncQueue

namespace Imghost.Tasks.Backends

open Imghost.Data Draining Handover

variable {tasks : TaskTable} {handler : Int → HandlerOutcome} {full : List Record} {item : QueuedTask tasks} {i : Nat}

/-! ## What is still to come -/

/-- Where the one task is. -/
inductive Stage (tasks : TaskTable) where
  | waiting (item : QueuedTask tasks)
  | running (item : QueuedTask tasks)
  | finished

/-- What is recorded of an attempt after its start, and of those that follow. -/
def afterStart (handler : Int → HandlerOutcome) (item : QueuedTask tasks) : List Record :=
  (SyncTaskQueue.loop handler item).tail

def Stage.pending (handler : Int → HandlerOutcome) : Stage tasks → List Record
  | .waiting item => SyncTaskQueue.loop handler item
  | .running item => afterStart handler item
  | .finished => []

/-- Metadata that need no normalization. -/
def Positive (item : QueuedTask tasks) : Prop := 1 ≤ item.attempt ∧ 1 ≤ item.maxAttempts

theorem loop_eq : SyncTaskQueue.loop handler item = item.record .started :: afterStart handler item := by
  rw [afterStart, SyncTaskQueue.loop]
  rfl

theorem afterStart_raised {exc : String} (h : handler item.attempt = .raised exc) :
    afterStart handler item = [item.record .failedPermanent] := by
  rw [afterStart, SyncTaskQueue.loop, h]
  rfl

theorem afterStart_value (h : handler item.attempt = .value) : afterStart handler item = [item.record .succeeded] := by
  rw [afterStart, SyncTaskQueue.loop, h]
  rfl

theorem afterStart_retry {r : TaskRunResult} (h : handler item.attempt = .result r)
    (hretry : r.state = .retryScheduled ∧ r.retryable = true ∧ item.attempt < item.maxAttempts) :
    afterStart handler item =
      item.record .retryScheduled :: item.next.record .queued :: SyncTaskQueue.loop handler item.next := by
  rw [afterStart, SyncTaskQueue.loop, h]
  simp only [if_pos hretry, List.tail_cons]

theorem afterStart_last {r : TaskRunResult} (h : handler item.attempt = .result r)
    (hlast : ¬(r.state = .retryScheduled ∧ r.retryable = true ∧ item.attempt < item.maxAttempts)) :
    afterStart handler item = [item.record (if r.state = .retryScheduled then .failedExhausted else r.state)] := by
  rw [afterStart, SyncTaskQueue.loop, h]
  simp only [if_neg hlast, List.tail_cons]

theorem normalized_of_positive (h : Positive item) : item.normalized = item := by
  obtain ⟨hattempt, hmax⟩ := h
  simp only [QueuedTask.normalized, max_eq_right hattempt, max_eq_right hmax]

theorem Positive.next (h : Positive item) : Positive item.next := ⟨by simp only [QueuedTask.next]; have := h.1; omega, h.2⟩

/-! ## The in-process queue -/

variable {q : AsyncTaskQueue tasks} {s : AsyncRun tasks} {e : AsyncEvent} {es : List AsyncEvent}

def runningItem : AsyncWorker tasks → Option (QueuedTask tasks)
  | .running item => some item
  | _ => none

/-- The task is where the stage says, and there is no other. -/
def AsyncAt (q : AsyncTaskQueue tasks) : Stage tasks → Prop
  | .waiting item => q.queue.filterMap id = [item] ∧ q.workers.filterMap runningItem = [] ∧ Positive item
  | .running item => q.queue.filterMap id = [] ∧ q.workers.filterMap runningItem = [item] ∧ Positive item
  | .finished => q.queue.filterMap id = [] ∧ q.workers.filterMap runningItem = []

/-- What has been recorded and what is to come. -/
def AsyncFollows (handler : Int → HandlerOutcome) (full : List Record) (q : AsyncTaskQueue tasks) : Prop :=
  ∃ stage, AsyncAt q stage ∧ q.records ++ stage.pending handler = full

/-- The handler is the given function of the attempt. -/
def AsyncObeys (handler : Int → HandlerOutcome) (s : AsyncRun tasks) : AsyncEvent → Prop
  | .finish i outcome =>
    match s.queue.workers[i]? with
    | some (.running item) => outcome = handler item.attempt
    | _ => True
  | _ => True

instance (s : AsyncRun tasks) (e : AsyncEvent) : Decidable (AsyncObeys handler s e) := by
  apply @AsyncEvent.casesOn _ e
  case finish =>
    intro i outcome
    delta AsyncObeys
    dsimp only
    generalize s.queue.workers[i]? = found
    apply @Option.casesOn _ _ found
    · exact inferInstanceAs (Decidable True)
    · intro worker
      apply @AsyncWorker.casesOn _ _ worker <;> (intros; dsimp only; infer_instance)
  all_goals (intros; delta AsyncObeys; dsimp only; infer_instance)

def isEnqueue : AsyncEvent → Bool
  | .enqueue _ _ => true
  | _ => false

/-- Sentinels and workers that run nothing make no difference. -/
theorem AsyncFollows.same {q' : AsyncTaskQueue tasks} (h : AsyncFollows handler full q)
    (hqueue : q'.queue.filterMap id = q.queue.filterMap id)
    (hworkers : q'.workers.filterMap runningItem = q.workers.filterMap runningItem) (hrecords : q'.records = q.records) :
    AsyncFollows handler full q' := by
  obtain ⟨stage, hat, hfull⟩ := h
  refine ⟨stage, ?_, hrecords ▸ hfull⟩
  cases stage <;> simpa only [AsyncAt, hqueue, hworkers] using hat

theorem AsyncFollows.take (h : AsyncFollows handler full q) (i : Nat) : AsyncFollows handler full (q.take i) := by
  unfold AsyncTaskQueue.take
  split
  · rename_i queue hworker hqueue
    obtain ⟨before, after, hold, hset⟩ := filterMap_set (f := runningItem) hworker
    refine h.same ?_ ?_ rfl
    · rw [hqueue]
      rfl
    · exact (hset .exited).trans hold.symm
  · rename_i item queue hworker hqueue
    obtain ⟨before, after, hold, hset⟩ := filterMap_set (f := runningItem) hworker
    obtain ⟨stage, hat, hfull⟩ := h
    have hcons : q.queue.filterMap id = item :: queue.filterMap id := by
      rw [hqueue]
      rfl
    cases stage with
    | waiting item' =>
      obtain ⟨hitem, hidle, hpositive⟩ := hat
      obtain ⟨rfl, hrest⟩ := List.cons.inj (hcons.symm.trans hitem)
      have hboth : before = [] ∧ after = [] := by
        simpa [runningItem] using hold.symm.trans hidle
      refine ⟨.running item, ⟨hrest, ?_, hpositive⟩, ?_⟩
      · refine (hset (.running item)).trans ?_
        rw [hboth.1, hboth.2]
        rfl
      · rw [← hfull, Stage.pending, Stage.pending, loop_eq]
        simp [AsyncTaskQueue.recordTaskState, AsyncTaskQueue.setWorker]
    | running item' | finished =>
      have hnone := hat.1
      rw [hcons] at hnone
      cases hnone
  · exact h

/-- The end of a handler's call: nothing is to come, or the next attempt is. -/
theorem handleOutcome_follows (hqueue : q.queue.filterMap id = []) (hpositive : Positive item)
    {outcome : HandlerOutcome} (houtcome : handler item.attempt = outcome) : ∃ stage : Stage tasks,
      (∀ workers, workers.filterMap runningItem = [] → AsyncAt { q.handleOutcome item outcome with workers := workers } stage) ∧
      (q.handleOutcome item outcome).records ++ stage.pending handler = q.records ++ afterStart handler item := by
  have hlast : ∀ state, afterStart handler item = [item.record state] → ∃ stage : Stage tasks,
      (∀ workers, workers.filterMap runningItem = [] →
        AsyncAt { q.recordTaskState (item.record state) with workers := workers } stage) ∧
      (q.recordTaskState (item.record state)).records ++ stage.pending handler = q.records ++ afterStart handler item := by
    intro state hafter
    refine ⟨.finished, fun workers hidle => ⟨hqueue, hidle⟩, ?_⟩
    rw [hafter, Stage.pending, List.append_nil]
    rfl
  cases outcome with
  | raised exc => exact hlast _ (afterStart_raised houtcome)
  | value => exact hlast _ (afterStart_value houtcome)
  | result r =>
    simp only [AsyncTaskQueue.handleOutcome, AsyncTaskQueue.handleTaskResult]
    split
    · rename_i hretry
      have hnext := normalized_of_positive hpositive.next
      refine ⟨.waiting item.next, fun workers hidle => ⟨?_, hidle, hpositive.next⟩, ?_⟩
      · show (q.queue ++ [some item.next.normalized]).filterMap id = [item.next]
        rw [List.filterMap_append, hqueue, hnext]
        rfl
      · show ((q.records ++ [item.record .retryScheduled]) ++ [item.next.normalized.record .queued]) ++ _ = _
        rw [hnext, afterStart_retry houtcome hretry, List.append_assoc, List.append_assoc]
        rfl
    · rename_i hretry
      exact hlast _ (afterStart_last houtcome hretry)

theorem AsyncFollows.finish (h : AsyncFollows handler full q) {outcome : HandlerOutcome}
    (hobeys : ∀ item, q.workers[i]? = some (.running item) → outcome = handler item.attempt) :
    AsyncFollows handler full (q.finish i outcome) := by
  unfold AsyncTaskQueue.finish
  split
  · rename_i item hworker
    obtain ⟨before, after, hold, hset⟩ := filterMap_set (f := runningItem) hworker
    obtain ⟨stage, hat, hfull⟩ := h
    cases stage with
    | running item' =>
      obtain ⟨hqueue, hrunning, hpositive⟩ := hat
      have hone : before = [] ∧ after = [] ∧ item = item' := by
        have hall := hold.symm.trans hrunning
        cases before with
        | nil => simpa [runningItem, and_comm] using hall
        | cons x before => simp [runningItem] at hall
      obtain ⟨rfl, rfl, rfl⟩ := hone
      obtain ⟨stage, hstage, hrecords⟩ := handleOutcome_follows hqueue hpositive (hobeys item hworker).symm
      refine ⟨stage, hstage _ ?_, hrecords.trans hfull⟩
      show ((q.handleOutcome item outcome).workers.set i .waiting).filterMap runningItem = []
      rw [AsyncTaskQueue.handleOutcome_workers]
      exact hset .waiting
    | waiting item' =>
      have hidle := hold.symm.trans hat.2.1
      simp [runningItem] at hidle
    | finished =>
      have hidle := hold.symm.trans hat.2
      simp [runningItem] at hidle
  · exact h

/-- Workers that run nothing are as good as none. -/
theorem idle_of_waiting (n : Nat) :
    (List.replicate n (AsyncWorker.waiting : AsyncWorker tasks)).filterMap runningItem = [] :=
  List.filterMap_eq_nil_iff.mpr fun w hw => by rw [List.eq_of_mem_replicate hw]; rfl

theorem AsyncFollows.step (h : AsyncFollows handler full s.queue) (hobeys : AsyncObeys handler s e)
    (hother : isEnqueue e = false) : AsyncFollows handler full (s.step e).queue := by
  cases e with
  | enqueue => cases hother
  | take i => exact h.take i
  | finish i outcome => exact h.finish fun item hitem => by simpa only [AsyncObeys, hitem] using hobeys
  | start n =>
    simp only [AsyncRun.step, AsyncTaskQueue.start]
    split
    · rename_i hempty
      rw [List.isEmpty_iff] at hempty
      refine h.same rfl ?_ rfl
      rw [hempty]
      exact idle_of_waiting _
    · exact h
  | stop =>
    simp only [AsyncRun.step, AsyncTaskQueue.stop]
    split
    · exact h
    · refine h.same ?_ rfl rfl
      have hnone : (List.replicate s.queue.workers.length (none : Option (QueuedTask tasks))).filterMap id = [] :=
        List.filterMap_eq_nil_iff.mpr fun x hx => List.eq_of_mem_replicate hx
      rw [List.filterMap_append, hnone, List.append_nil]
  | stopReturns =>
    simp only [AsyncRun.step, AsyncTaskQueue.stopReturns]
    split
    · rename_i hreturn
      refine h.same rfl ?_ rfl
      refine (List.filterMap_eq_nil_iff.mpr fun w hw => ?_).symm
      have hexited := (exited_of_canReturn hreturn).2 w hw
      cases w with
      | exited => rfl
      | waiting | running => cases hexited
    · exact h
  | join => exact h.same rfl rfl rfl
  | joinReturns j =>
    simp only [AsyncRun.step, AsyncTaskQueue.joinReturns]
    split
    · exact h.same rfl rfl rfl
    · exact h

/-- One call of `enqueue` on the in-process queue, run to its end. -/
structure AsyncCompletes (handler : Int → HandlerOutcome) (taskName : String) (kwargs : Kwargs) (es : List AsyncEvent)
    (s : AsyncRun tasks) : Prop where
  run : s = AsyncRun.run .init es
  one : es.filter isEnqueue = [.enqueue taskName kwargs]
  obeys : Along AsyncRun.step (AsyncObeys handler) (.init : AsyncRun tasks) es
  queue : s.queue.queue.all Option.isNone = true
  workers : (s.queue.workers.all fun worker => (runningItem worker).isNone) = true

/-- Without a call of `enqueue`, what is to come is recorded and nothing else. -/
theorem follows_run (h : AsyncFollows handler full s.queue) (hobeys : Along AsyncRun.step (AsyncObeys handler) s es)
    (hother : ∀ e ∈ es, isEnqueue e = false) : AsyncFollows handler full (AsyncRun.run s es).queue :=
  @runEvents_invariant _ _ AsyncRun.step _ _ _ (fun s => AsyncFollows handler full s.queue)
    (fun _ _ h hC => h.step hC.1 hC.2) h (hobeys.and (along_of_forall fun e he _ => hother e he))

theorem calls_of_no_enqueue (hother : ∀ e ∈ es, isEnqueue e = false) : (AsyncRun.run s es).calls = s.calls := by
  induction es generalizing s with
  | nil => rfl
  | cons e es ih =>
    rw [AsyncRun.run, runEvents_cons]
    refine (ih fun e' he' => hother e' (List.mem_cons_of_mem e he')).trans ?_
    cases e with
    | enqueue => cases hother _ List.mem_cons_self
    | take | finish | start | stop | stopReturns | join | joinReturns => rfl

/-- When nothing is left to run, everything has been recorded. -/
theorem records_of_idle (h : AsyncFollows handler full q) (hqueue : q.queue.all Option.isNone = true)
    (hworkers : (q.workers.all fun worker => (runningItem worker).isNone) = true) : q.records = full := by
  obtain ⟨stage, hat, hfull⟩ := h
  rw [List.all_eq_true] at hqueue hworkers
  have hnoItem : q.queue.filterMap id = [] :=
    List.filterMap_eq_nil_iff.mpr fun x hx => Option.isNone_iff_eq_none.mp (hqueue x hx)
  have hnoWorker : q.workers.filterMap runningItem = [] :=
    List.filterMap_eq_nil_iff.mpr fun w hw => Option.isNone_iff_eq_none.mp (hworkers w hw)
  cases stage with
  | waiting item => cases hnoItem.symm.trans hat.1
  | running item => cases hnoWorker.symm.trans hat.2.1
  | finished => rw [← hfull, Stage.pending, List.append_nil]

theorem afterStart_ne_nil (handler : Int → HandlerOutcome) (item : QueuedTask tasks) : afterStart handler item ≠ [] := by
  rw [afterStart]
  rcases loop_cases handler item with ⟨state, -, hloop⟩ | ⟨-, hloop⟩ <;> rw [hloop] <;> exact List.cons_ne_nil _ _

theorem pending_eq_nil {stage : Stage tasks} (h : stage.pending handler = []) : stage = .finished := by
  cases stage with
  | waiting item =>
    rw [Stage.pending, loop_eq] at h
    cases h
  | running item => exact absurd h (afterStart_ne_nil handler item)
  | finished => rfl

/-- The first and only call of `enqueue`. -/
theorem follows_enqueue {taskName : String} {kwargs : Kwargs} {task : RegisteredTask} (htask : tasks taskName = some task)
    (hmax : 1 ≤ task.maxAttempts) (h : AsyncFollows handler [] s.queue) (hcalls : s.calls = 0) :
    AsyncFollows handler (SyncTaskQueue.enqueue handler (.first 0 taskName kwargs task htask))
      (s.step (.enqueue taskName kwargs)).queue := by
  obtain ⟨stage, hat, hnone⟩ := h
  obtain ⟨hrecords, hpending⟩ := List.append_eq_nil_iff.mp hnone
  obtain rfl := pending_eq_nil hpending
  have hpositive : Positive (QueuedTask.first 0 taskName kwargs task htask) := ⟨le_rfl, hmax⟩
  simp only [AsyncRun.step, AsyncRun.enqueue]
  split
  · rename_i hmissing
    rw [htask] at hmissing
    cases hmissing
  · rename_i task' htask'
    obtain rfl := Option.some.inj (htask.symm.trans htask')
    rw [hcalls]
    refine ⟨.waiting (.first 0 taskName kwargs task htask), ⟨?_, hat.2, hpositive⟩, ?_⟩
    · show (s.queue.queue ++ [some (QueuedTask.first 0 taskName kwargs task htask).normalized]).filterMap id = _
      rw [List.filterMap_append, hat.1, normalized_of_positive hpositive]
      rfl
    · show (s.queue.records ++ [(QueuedTask.first 0 taskName kwargs task htask).normalized.record .queued]) ++ _ = _
      rw [hrecords, normalized_of_positive hpositive]
      rfl

theorem async_records {taskName defaultQueue : String} {kwargs : Kwargs} {maxAttempts : Int} {passRetryMetadata : Bool}
    (htask : tasks taskName = some (register defaultQueue maxAttempts passRetryMetadata))
    (h : AsyncCompletes handler taskName kwargs es s) :
    s.queue.records = SyncTaskQueue.enqueue handler (.first 0 taskName kwargs _ htask) := by
  obtain ⟨rfl, hone, hobeys, hqueue, hworkers⟩ := h
  obtain ⟨before, after, rfl, hbefore, -, hafter⟩ := List.filter_eq_cons_iff.mp hone
  have hbefore' : ∀ e ∈ before, isEnqueue e = false := fun e he => by simpa using hbefore e he
  have hafter' : ∀ e ∈ after, isEnqueue e = false := fun e he => by
    simpa using List.filter_eq_nil_iff.mp hafter e he
  obtain ⟨hfirst, hlast⟩ := along_append.mp hobeys
  have hstart : AsyncFollows handler [] (AsyncRun.init : AsyncRun tasks).queue := ⟨.finished, ⟨rfl, rfl⟩, rfl⟩
  have hnone := follows_run hstart hfirst hbefore'
  have hcalls : (AsyncRun.run (.init : AsyncRun tasks) before).calls = 0 := calls_of_no_enqueue hbefore'
  simp only [AsyncRun.run, runEvents_append, runEvents_cons] at hqueue hworkers hnone hcalls hlast ⊢
  generalize runEvents AsyncRun.step (.init : AsyncRun tasks) before = s at *
  exact records_of_idle (follows_run (follows_enqueue htask (le_max_left 1 _) hnone hcalls) hlast.2 hafter') hqueue hworkers

/-! ## The Redis queue -/

section Redis

variable {lib : TaskLib} {config : QueueConfig} {q : RedisTaskQueue tasks} {e : RedisEvent} {es : List RedisEvent}

/-- The one worker there is; before `start`, one that has nothing. -/
def theWorker (q : RedisTaskQueue tasks) : RedisWorker tasks := q.workers.headD .polling

def pushes (q : RedisTaskQueue tasks) : List (Push tasks) := q.enqueuing.filterMap id

/-- Where the one task is, by the lists, the pushes of the callers and the worker, and what is
    still to come of it. -/
inductive RedisAt (handler : Int → HandlerOutcome) :
    List (String × Message tasks) → List (Push tasks) → RedisWorker tasks → List Record → Prop where
  | sending (item : QueuedTask tasks) (key) (h : hasReserved item.kwargs = false) :
      RedisAt handler [] [⟨item, key, false⟩] .polling (SyncTaskQueue.enqueue handler item)
  | sent (item : QueuedTask tasks) (key key') (h : hasReserved item.kwargs = false) :
      RedisAt handler [(key, .own item)] [⟨item, key', true⟩] .polling (SyncTaskQueue.enqueue handler item)
  | overtaken (item : QueuedTask tasks) (key key') (h : hasReserved item.kwargs = false) :
      RedisAt handler [] [⟨item, key', true⟩] (.fetched key (.own item)) (SyncTaskQueue.enqueue handler item)
  | listed (item : QueuedTask tasks) (key) (h : hasReserved item.kwargs = false) :
      RedisAt handler [(key, .own item)] [] .polling (SyncTaskQueue.loop handler item)
  | fetched (item : QueuedTask tasks) (key) (h : hasReserved item.kwargs = false) :
      RedisAt handler [] [] (.fetched key (.own item)) (SyncTaskQueue.loop handler item)
  | running (job : Job tasks) (key) (h : hasReserved job.item.kwargs = false)
      (hfailure : job.failure = job.item.record .failedPermanent) :
      RedisAt handler [] [] (.running key job) (afterStart handler job.item)
  | requeuing (item : QueuedTask tasks) (key) (h : hasReserved item.kwargs = false) :
      RedisAt handler [] [] (.requeuing ⟨item, key, false⟩) (SyncTaskQueue.enqueue handler item)
  | requeued (item : QueuedTask tasks) (key key') (h : hasReserved item.kwargs = false) :
      RedisAt handler [(key, .own item)] [] (.requeuing ⟨item, key', true⟩) (SyncTaskQueue.enqueue handler item)
  | finished : RedisAt handler [] [] .polling []

structure RedisFollows (handler : Int → HandlerOutcome) (full : List Record) (q : RedisTaskQueue tasks) : Prop where
  few : q.workers.length ≤ 1
  fallback : q.fallback.records = []
  follows : ∃ rest, RedisAt handler q.lists (pushes q) (theWorker q) rest ∧ q.records ++ rest = full

def RedisObeys (handler : Int → HandlerOutcome) (q : RedisTaskQueue tasks) : RedisEvent → Prop
  | .finish i outcome =>
    match q.workers[i]? with
    | some (.running _ job) => outcome = handler job.item.attempt
    | _ => True
  | _ => True

instance (q : RedisTaskQueue tasks) (e : RedisEvent) : Decidable (RedisObeys handler q e) := by
  apply @RedisEvent.casesOn _ e
  case finish =>
    intro i outcome
    delta RedisObeys
    dsimp only
    generalize q.workers[i]? = found
    apply @Option.casesOn _ _ found
    · exact inferInstanceAs (Decidable True)
    · intro worker
      apply @RedisWorker.casesOn _ _ worker <;> (intros; dsimp only; infer_instance)
  all_goals (intros; delta RedisObeys; dsimp only; infer_instance)

/-- A worker starts no task whose push has not been answered. -/
def RepliesFirst (q : RedisTaskQueue tasks) : RedisEvent → Prop
  | .deliver _ => q.enqueuing.all Option.isNone = true
  | _ => True

instance (q : RedisTaskQueue tasks) (e : RedisEvent) : Decidable (RepliesFirst q e) := by
  apply @RedisEvent.casesOn _ e <;> (intros; delta RepliesFirst; dsimp only; infer_instance)

/-- What happens while Redis is there, nothing else is pushed and `stop` is not called; the
    fallback has nothing to run then. -/
def isQuiet : RedisEvent → Bool
  | .start | .enqueue _ _ _ | .carry _ | .confirm _ | .pop _ _ | .deliver _ | .finish _ _ | .join | .fallbackJoined _ |
    .check _ | .length _ | .deadline _ => true
  | .stop | .cancelled _ | .stopped | .foreign _ _ | .fail _ | .lose _ | .fallbackTake _ | .fallbackFinish _ _ |
    .fallbackStopReturns | .lengthsUnavailable _ => false

def isRedisEnqueue : RedisEvent → Bool
  | .enqueue _ _ _ => true
  | _ => false

/-- Where nothing of the task changes. -/
theorem RedisFollows.same {q' : RedisTaskQueue tasks} (h : RedisFollows handler full q) (hlists : q'.lists = q.lists)
    (henqueuing : q'.enqueuing = q.enqueuing) (hworkers : q'.workers = q.workers) (hrecords : q'.records = q.records)
    (hfallback : q'.fallback.records = q.fallback.records) : RedisFollows handler full q' := by
  obtain ⟨hfew, hnone, rest, hat, hfull⟩ := h
  refine ⟨hworkers ▸ hfew, hfallback.trans hnone, rest, ?_, hrecords ▸ hfull⟩
  rw [pushes, theWorker, hlists, henqueuing, hworkers]
  exact hat

/-- Where the task has moved. -/
theorem follows_of {q' : RedisTaskQueue tasks} {lists : List (String × Message tasks)} {ps : List (Push tasks)}
    {worker : RedisWorker tasks} {rest : List Record} (hfew : q'.workers.length ≤ 1) (hnone : q'.fallback.records = [])
    (hlists : q'.lists = lists) (hpushes : pushes q' = ps) (hworker : theWorker q' = worker)
    (hat : RedisAt handler lists ps worker rest) (hfull : q'.records ++ rest = full) : RedisFollows handler full q' :=
  ⟨hfew, hnone, rest, by rw [hlists, hpushes, hworker]; exact hat, hfull⟩

/-- A worker that does something is the only one. -/
theorem theWorker_of_getElem? {worker : RedisWorker tasks} (hfew : q.workers.length ≤ 1) (h : q.workers[i]? = some worker) :
    i = 0 ∧ q.workers = [worker] ∧ theWorker q = worker := by
  cases hq : q.workers with
  | nil =>
    rw [hq] at h
    cases h
  | cons w rest =>
    obtain rfl : rest = [] := by
      rw [hq, List.length_cons] at hfew
      exact List.eq_nil_of_length_eq_zero (by omega)
    rw [hq] at h
    cases i with
    | zero =>
      obtain rfl : w = worker := by simpa using h
      exact ⟨rfl, rfl, by rw [theWorker, hq]; rfl⟩
    | succ i => cases h

/-- The push of a call of `enqueue` is the one there is. -/
theorem pushes_of_call {k : Nat} {push : Push tasks} (h : q.push? (.call k) = some push) : ∃ before after,
    pushes q = before ++ push :: after ∧ ∀ push', (q.enqueuing.set k push').filterMap id = before ++ push'.toList ++ after := by
  obtain ⟨before, after, hold, hset⟩ := filterMap_set (f := id) (RedisTaskQueue.call_of_push? h)
  refine ⟨before, after, ?_, hset⟩
  rw [pushes, hold]
  simp

theorem nil_of_singleton {α : Type} {before after : List α} {x y : α} (h : before ++ x :: after = [y]) :
    before = [] ∧ x = y ∧ after = [] := by
  cases before with
  | nil => simpa using h
  | cons z before => simp at h

theorem few_of_set {worker : RedisWorker tasks} (h : q.workers.length ≤ 1) : (q.workers.set i worker).length ≤ 1 := by
  rwa [List.length_set]

theorem theWorker_set {worker : RedisWorker tasks} (h : q.workers = [worker]) (worker' : RedisWorker tasks) :
    (q.workers.set 0 worker').headD .polling = worker' := by
  rw [h]
  rfl

theorem RedisFollows.start (h : RedisFollows handler full q) (hone : config.workerCount ≤ 1) :
    RedisFollows handler full (q.start config) := by
  have hfallback : (q.fallback.start config.workerCount).records = q.fallback.records := by
    simp only [AsyncTaskQueue.start]
    split <;> rfl
  simp only [RedisTaskQueue.start]
  split
  · rename_i hgo
    have hnone : q.workers = [] := hgo.2.1
    have hworkers : List.replicate (max 1 config.workerCount) (RedisWorker.polling : RedisWorker tasks) = [.polling] := by
      rw [max_eq_left hone]
      rfl
    obtain ⟨-, hrecords, rest, hat, hfull⟩ := h
    have hidle : theWorker q = .polling := by
      rw [theWorker, hnone]
      rfl
    refine follows_of ?_ (hfallback.trans hrecords) rfl rfl ?_ (hidle ▸ hat) hfull
    · rw [hworkers]
      exact le_rfl
    · rw [theWorker, hworkers]
      rfl
  · exact h.same rfl rfl rfl rfl hfallback

theorem RedisFollows.carry (h : RedisFollows handler full q) (who : Pusher) : RedisFollows handler full (q.carry who) := by
  unfold RedisTaskQueue.carry
  split
  · rename_i item key hpush
    obtain ⟨hfew, hrecords, rest, hat, hfull⟩ := h
    generalize hlists : q.lists = lists, hpushes : pushes q = ps, hworker : theWorker q = w at hat
    cases who with
    | call k =>
      obtain ⟨before, after, hold, hset⟩ := pushes_of_call hpush
      cases hat with
      | sending item' key' hkwargs =>
        obtain ⟨rfl, hsame, rfl⟩ := nil_of_singleton (hold.symm.trans hpushes)
        cases hsame
        exact follows_of hfew hrecords rfl (hset (some _)) hworker (.sent item key key hkwargs) hfull
      | sent item' key' key'' hkwargs | overtaken item' key' key'' hkwargs =>
        obtain ⟨-, hsame, -⟩ := nil_of_singleton (hold.symm.trans hpushes)
        cases hsame
      | listed | fetched | running | requeuing | requeued | finished =>
        rw [hold] at hpushes
        simp at hpushes
    | worker i =>
      obtain ⟨rfl, hworkers, hworker'⟩ := theWorker_of_getElem? hfew (RedisTaskQueue.worker_of_push? hpush)
      rw [hworker'] at hworker
      cases hat with
      | requeuing item' key' hkwargs =>
        cases hworker
        exact follows_of (few_of_set hfew) hrecords rfl hpushes (theWorker_set hworkers _) (.requeued item key key hkwargs) hfull
      | sending | sent | overtaken | listed | fetched | running | requeued | finished => cases hworker
  · exact h

theorem RedisFollows.confirm (h : RedisFollows handler full q) (who : Pusher) : RedisFollows handler full (q.confirm who) := by
  unfold RedisTaskQueue.confirm
  split
  · rename_i item key hpush
    obtain ⟨hfew, hrecords, rest, hat, hfull⟩ := h
    generalize hlists : q.lists = lists, hpushes : pushes q = ps, hworker : theWorker q = w at hat
    have hrecorded : (q.records ++ [item.record .queued]) ++ SyncTaskQueue.loop handler item =
        q.records ++ SyncTaskQueue.enqueue handler item := List.append_assoc _ _ _
    cases who with
    | call k =>
      obtain ⟨before, after, hold, hset⟩ := pushes_of_call hpush
      cases hat with
      | sent item' key' key'' hkwargs =>
        obtain ⟨rfl, hsame, rfl⟩ := nil_of_singleton (hold.symm.trans hpushes)
        cases hsame
        exact follows_of hfew hrecords hlists (hset none) hworker (.listed item key' hkwargs) (hrecorded.trans hfull)
      | overtaken item' key' key'' hkwargs =>
        obtain ⟨rfl, hsame, rfl⟩ := nil_of_singleton (hold.symm.trans hpushes)
        cases hsame
        exact follows_of hfew hrecords hlists (hset none) hworker (.fetched item key' hkwargs) (hrecorded.trans hfull)
      | sending item' key' hkwargs =>
        obtain ⟨-, hsame, -⟩ := nil_of_singleton (hold.symm.trans hpushes)
        cases hsame
      | listed | fetched | running | requeuing | requeued | finished =>
        rw [hold] at hpushes
        simp at hpushes
    | worker i =>
      obtain ⟨rfl, hworkers, hworker'⟩ := theWorker_of_getElem? hfew (RedisTaskQueue.worker_of_push? hpush)
      rw [hworker'] at hworker
      cases hat with
      | requeued item' key' key'' hkwargs =>
        cases hworker
        exact follows_of (few_of_set hfew) hrecords hlists hpushes (theWorker_set hworkers _) (.listed item key' hkwargs)
          (hrecorded.trans hfull)
      | sending | sent | overtaken | listed | fetched | running | requeuing | finished => cases hworker
  · exact h

theorem RedisFollows.pop (h : RedisFollows handler full q) (i : Nat) (queue : String) :
    RedisFollows handler full (q.pop config i queue) := by
  simp only [RedisTaskQueue.pop]
  split
  · rename_i entry hpolling hentry
    split
    · obtain ⟨hfew, hrecords, rest, hat, hfull⟩ := h
      obtain ⟨rfl, hworkers, hworker'⟩ := theWorker_of_getElem? hfew hpolling
      generalize hlists : q.lists = lists, hpushes : pushes q = ps, hworker : theWorker q = w at hat
      rw [hworker'] at hworker
      have hone : ∀ key (item : QueuedTask tasks), q.lists = [(key, .own item)] →
          entry = (key, .own item) ∧ ([(key, Message.own item)].eraseP fun e => e.1 == config.queueKey queue) = [] := by
        intro key item hlists
        rw [hlists, List.find?_singleton] at hentry
        split at hentry
        · rename_i hkey
          exact ⟨(Option.some.inj hentry).symm, List.eraseP_cons_of_pos hkey⟩
        · cases hentry
      cases hat with
      | sent item' key' key'' hkwargs =>
        obtain ⟨rfl, hempty⟩ := hone key' item' hlists
        exact follows_of (few_of_set hfew) hrecords hempty hpushes (theWorker_set hworkers _)
          (.overtaken item' key' key'' hkwargs) hfull
      | listed item' key' hkwargs =>
        obtain ⟨rfl, hempty⟩ := hone key' item' hlists
        exact follows_of (few_of_set hfew) hrecords hempty hpushes (theWorker_set hworkers _)
          (.fetched item' key' hkwargs) hfull
      | sending | finished =>
        rw [hlists] at hentry
        cases hentry
      | overtaken | fetched | running | requeuing | requeued => cases hworker
    · exact h
  · exact h

theorem pushes_eq_nil (h : q.enqueuing.all Option.isNone = true) : pushes q = [] :=
  List.filterMap_eq_nil_iff.mpr fun push hpush => by
    rw [List.all_eq_true] at h
    exact Option.isNone_iff_eq_none.mp (h push hpush)

theorem RedisFollows.deliver (h : RedisFollows handler full q) (hfirst : q.enqueuing.all Option.isNone = true) (i : Nat) :
    RedisFollows handler full (q.deliver lib i) := by
  unfold RedisTaskQueue.deliver
  split
  · rename_i key message hfetched
    obtain ⟨hfew, hrecords, rest, hat, hfull⟩ := h
    obtain ⟨rfl, hworkers, hworker'⟩ := theWorker_of_getElem? hfew hfetched
    generalize hlists : q.lists = lists, hpushes : pushes q = ps, hworker : theWorker q = w at hat
    rw [hworker'] at hworker
    cases hat with
    | fetched item key' hkwargs =>
      cases hworker
      split
      · rename_i hreceive
        rw [receive_own] at hreceive
        cases hreceive
      · rename_i hreceive
        rw [receive_own] at hreceive
        cases hreceive
      · rename_i item' hreceive
        obtain rfl := Received.job.inj ((receive_own lib item).symm.trans hreceive)
        refine follows_of (few_of_set hfew) hrecords rfl hpushes (theWorker_set hworkers _)
          (.running ⟨item, _, _, _⟩ key hkwargs (failure_own lib item)) ?_
        rw [← hfull, loop_eq]
        exact List.append_assoc _ _ _
    | overtaken item key' key'' hkwargs =>
      rw [pushes_eq_nil hfirst] at hpushes
      cases hpushes
    | sending | sent | listed | running | requeuing | requeued | finished => cases hworker
  · exact h

theorem RedisFollows.finish (h : RedisFollows handler full q) {outcome : HandlerOutcome}
    (hobeys : ∀ key job, q.workers[i]? = some (.running key job) → outcome = handler job.item.attempt) :
    RedisFollows handler full (q.finish config i outcome) := by
  unfold RedisTaskQueue.finish
  split
  · rename_i key job hrunning
    obtain ⟨hfew, hrecords, rest, hat, hfull⟩ := h
    have houtcome := (hobeys key job hrunning).symm
    obtain ⟨rfl, hworkers, hworker'⟩ := theWorker_of_getElem? hfew hrunning
    generalize hlists : q.lists = lists, hpushes : pushes q = ps, hworker : theWorker q = w at hat
    rw [hworker'] at hworker
    cases hat with
    | running job' key' hkwargs hfailure =>
      cases hworker
      have hlast : ∀ r : Record, afterStart handler job.item = [r] →
          RedisFollows handler full ((q.recordTaskState r).release 0 .polling) := by
        intro r hafter
        refine follows_of (few_of_set hfew) hrecords hlists hpushes (theWorker_set hworkers _) .finished ?_
        rw [← hfull, hafter, List.append_nil]
        rfl
      cases outcome with
      | raised exc => exact hlast _ ((afterStart_raised houtcome).trans (by rw [hfailure]))
      | value => exact hlast _ (afterStart_value houtcome)
      | result r =>
        simp only [RedisTaskQueue.handleResult]
        split
        · rename_i hretry
          simp only [hkwargs, Bool.false_eq_true, if_false]
          refine follows_of (few_of_set hfew) hrecords hlists hpushes (theWorker_set hworkers _)
            (.requeuing job.item.next _ hkwargs) ?_
          rw [← hfull, afterStart_retry houtcome hretry]
          exact List.append_assoc _ _ _
        · rename_i hretry
          exact hlast _ (afterStart_last houtcome hretry)
    | sending | sent | overtaken | listed | fetched | requeuing | requeued | finished => cases hworker
  · exact h

theorem RedisFollows.step (h : RedisFollows handler full q) (hone : config.workerCount ≤ 1) (hobeys : RedisObeys handler q e)
    (hfirst : RepliesFirst q e) (hquiet : isQuiet e = true) (hother : isRedisEnqueue e = false) :
    RedisFollows handler full (q.step lib config e) := by
  cases e with
  | start => exact h.start hone
  | enqueue => cases hother
  | carry who => exact h.carry who
  | confirm who => exact h.confirm who
  | pop i queue => exact h.pop i queue
  | deliver i => exact h.deliver hfirst i
  | finish i outcome => exact h.finish fun key job hjob => by simpa only [RedisObeys, hjob] using hobeys
  | join => exact h.same rfl rfl rfl rfl rfl
  | fallbackJoined k =>
    simp only [RedisTaskQueue.step, RedisTaskQueue.fallbackJoined]
    split
    · split
      · exact h
      · refine h.same rfl rfl rfl rfl ?_
        simp only [RedisTaskQueue.setJoiner, AsyncTaskQueue.joinReturns]
        split <;> rfl
    · exact h
  | check k =>
    simp only [RedisTaskQueue.step, RedisTaskQueue.check]
    repeat' split
    all_goals exact h.same rfl rfl rfl rfl rfl
  | length k =>
    simp only [RedisTaskQueue.step, RedisTaskQueue.length]
    split <;> exact h.same rfl rfl rfl rfl rfl
  | deadline k =>
    simp only [RedisTaskQueue.step, RedisTaskQueue.deadline]
    split <;> exact h.same rfl rfl rfl rfl rfl
  | stop | cancelled | stopped | foreign | fail | lose | fallbackTake | fallbackFinish | fallbackStopReturns |
    lengthsUnavailable => cases hquiet

/-- The worker has a message, or a task it has started. -/
def hasTask : RedisWorker tasks → Bool
  | .polling | .gone => false
  | .fetched _ _ | .running _ _ | .requeuing _ => true

/-- One call of `enqueue` on the Redis queue, with one worker and Redis there, run to its end. -/
structure RedisCompletes (handler : Int → HandlerOutcome) (lib : TaskLib) (config : QueueConfig) (taskName : String)
    (queue : Option String) (kwargs : Kwargs) (es : List RedisEvent) (q : RedisTaskQueue tasks) : Prop where
  run : q = RedisTaskQueue.run lib config (.init config) es
  one : es.filter isRedisEnqueue = [.enqueue taskName queue kwargs]
  quiet : ∀ e ∈ es, isQuiet e = true
  obeys : Along (RedisTaskQueue.step lib config) (RedisObeys handler) (.init config : RedisTaskQueue tasks) es
  lists : q.lists = []
  pushes : q.enqueuing.all Option.isNone = true
  workers : ∀ worker ∈ q.workers, hasTask worker = false

theorem redis_follows_run (hone : config.workerCount ≤ 1) (h : RedisFollows handler full q)
    (hobeys : Along (RedisTaskQueue.step lib config) (RedisObeys handler) q es)
    (hfirst : Along (RedisTaskQueue.step lib config) RepliesFirst q es) (hquiet : ∀ e ∈ es, isQuiet e = true)
    (hother : ∀ e ∈ es, isRedisEnqueue e = false) : RedisFollows handler full (RedisTaskQueue.run lib config q es) :=
  runEvents_invariant
    (C := fun q e => (RedisObeys handler q e ∧ RepliesFirst q e) ∧ isQuiet e = true ∧ isRedisEnqueue e = false)
    (fun _ _ h hC => h.step hone hC.1.1 hC.1.2 hC.2.1 hC.2.2) h ((hobeys.and hfirst).and
      (along_of_forall fun e he _ => ⟨hquiet e he, hother e he⟩))

theorem redis_calls_of_no_enqueue (hother : ∀ e ∈ es, isRedisEnqueue e = false) :
    (RedisTaskQueue.run lib config q es).calls = q.calls := by
  induction es generalizing q with
  | nil => rfl
  | cons e es ih =>
    rw [RedisTaskQueue.run, runEvents_cons]
    refine (ih fun e' he' => hother e' (List.mem_cons_of_mem e he')).trans ?_
    cases e with
    | enqueue => cases hother _ List.mem_cons_self
    | carry who => exact RedisTaskQueue.calls_carry
    | confirm who => exact RedisTaskQueue.calls_confirm
    | fail who => exact RedisTaskQueue.calls_fail
    | start | stop | stopped | cancelled | pop | deliver | lose | finish | foreign | fallbackTake | fallbackFinish |
      fallbackStopReturns | join | fallbackJoined | check | length | lengthsUnavailable | deadline =>
      exact RedisTaskQueue.calls_of_enqueuing (RedisTaskQueue.enqueuing_step rfl)

theorem redisAt_nil {lists : List (String × Message tasks)} {ps : List (Push tasks)} {worker : RedisWorker tasks}
    (h : RedisAt handler lists ps worker []) : lists = [] ∧ ps = [] ∧ worker = .polling := by
  generalize hrest : ([] : List Record) = rest at h
  cases h with
  | finished => exact ⟨rfl, rfl, rfl⟩
  | running job key hkwargs hfailure => exact absurd hrest.symm (afterStart_ne_nil handler job.item)
  | sending | sent | overtaken | requeuing | requeued => cases hrest
  | listed | fetched =>
    rw [loop_eq] at hrest
    cases hrest

/-- The first and only call of `enqueue`. -/
theorem redis_follows_enqueue {taskName : String} {queue : Option String} {kwargs : Kwargs} {task : RegisteredTask}
    (htask : tasks taskName = some task) (hkwargs : hasReserved kwargs = false) (h : RedisFollows handler [] q)
    (hcalls : q.calls = 0) : RedisFollows handler (SyncTaskQueue.enqueue handler (.first 0 taskName kwargs task htask))
      (q.step lib config (.enqueue taskName queue kwargs)) := by
  obtain ⟨hfew, hnone, rest, hat, hempty⟩ := h
  obtain ⟨hrecords, rfl⟩ := List.append_eq_nil_iff.mp hempty
  obtain ⟨hlists, hpushes, hworker⟩ := redisAt_nil hat
  simp only [RedisTaskQueue.step, RedisTaskQueue.enqueue]
  split
  · rename_i hmissing
    rw [htask] at hmissing
    cases hmissing
  · rename_i task' htask'
    obtain rfl := Option.some.inj (htask.symm.trans htask')
    have hfirst : q.enqueuing = [] := List.eq_nil_of_length_eq_zero hcalls
    refine follows_of hfew hnone hlists ?_ hworker
      (.sending (.first 0 taskName kwargs task htask) (config.queueKey (queue.getD task.defaultQueue)) hkwargs) ?_
    · simp only [pushes, hfirst, List.nil_append, List.length_nil]
      rfl
    · rw [hrecords]
      rfl

theorem redis_records {taskName defaultQueue : String} {queue : Option String} {kwargs : Kwargs} {maxAttempts : Int}
    {passRetryMetadata : Bool} (htask : tasks taskName = some (register defaultQueue maxAttempts passRetryMetadata))
    (hone : config.workerCount ≤ 1) (hkwargs : hasReserved kwargs = false)
    (h : RedisCompletes handler lib config taskName queue kwargs es q)
    (hfirst : Along (RedisTaskQueue.step lib config) RepliesFirst (.init config : RedisTaskQueue tasks) es) :
    q.records ++ q.fallback.records = SyncTaskQueue.enqueue handler (.first 0 taskName kwargs _ htask) := by
  obtain ⟨rfl, honce, hquiet, hobeys, hlists, hpushes, hidle⟩ := h
  obtain ⟨before, after, rfl, hbefore, -, hafter⟩ := List.filter_eq_cons_iff.mp honce
  have hbefore' : ∀ e ∈ before, isRedisEnqueue e = false := fun e he => by simpa using hbefore e he
  have hafter' : ∀ e ∈ after, isRedisEnqueue e = false := fun e he => by
    simpa using List.filter_eq_nil_iff.mp hafter e he
  have hquiet' : ∀ e ∈ before, isQuiet e = true := fun e he => hquiet e (List.mem_append_left _ he)
  have hquiet'' : ∀ e ∈ after, isQuiet e = true := fun e he =>
    hquiet e (List.mem_append_right _ (List.mem_cons_of_mem _ he))
  obtain ⟨hobeys₁, hobeys₂⟩ := along_append.mp hobeys
  obtain ⟨hfirst₁, hfirst₂⟩ := along_append.mp hfirst
  have hstart : RedisFollows handler [] (.init config : RedisTaskQueue tasks) := ⟨Nat.zero_le 1, rfl, [], .finished, rfl⟩
  have hnothing := redis_follows_run hone hstart hobeys₁ hfirst₁ hquiet' hbefore'
  have hcalls : (RedisTaskQueue.run lib config (.init config : RedisTaskQueue tasks) before).calls = 0 :=
    redis_calls_of_no_enqueue hbefore'
  simp only [RedisTaskQueue.run, runEvents_append, runEvents_cons] at hlists hpushes hidle hnothing hcalls hobeys₂ hfirst₂ ⊢
  generalize runEvents (RedisTaskQueue.step lib config) (.init config : RedisTaskQueue tasks) before = s at *
  have hend := redis_follows_run hone (redis_follows_enqueue htask hkwargs hnothing hcalls) hobeys₂.2 hfirst₂.2 hquiet'' hafter'
  simp only [RedisTaskQueue.run] at hend
  generalize runEvents (RedisTaskQueue.step lib config) (s.step lib config (.enqueue taskName queue kwargs)) after = t at *
  obtain ⟨hfew, hfallback, rest, hat, hfull⟩ := hend
  rw [hfallback, List.append_nil, ← hfull]
  have hworker : hasTask (theWorker t) = false := by
    cases hworkers : t.workers with
    | nil =>
      rw [theWorker, hworkers]
      rfl
    | cons worker workers =>
      rw [theWorker, hworkers]
      exact hidle worker (by rw [hworkers]; exact List.mem_cons_self)
  rw [hlists, pushes_eq_nil hpushes] at hat
  generalize theWorker t = worker at hat hworker
  cases hat with
  | finished => exact (List.append_nil _).symm
  | fetched | running | requeuing => cases hworker

end Redis

/-- A handler that asks once to be tried again. -/
def demoHandler (attempt : Int) : HandlerOutcome :=
  if attempt = 1 then .result ⟨.retryScheduled, none, true, retryScheduled_reported⟩ else .value

def oneWorker : QueueConfig := ⟨"", true, 1, none⟩

def asyncDemo : List AsyncEvent :=
  [.start 1, .enqueue "demo" [], .take 0, .finish 0 (demoHandler 1), .take 0, .finish 0 (demoHandler 2)]

def redisDemo : List RedisEvent :=
  [.start, .enqueue "demo" none [], .carry (.call 0), .confirm (.call 0), .pop 0 "default", .deliver 0,
    .finish 0 (demoHandler 1), .carry (.worker 0), .confirm (.worker 0), .pop 0 "default", .deliver 0,
    .finish 0 (demoHandler 2)]

theorem demo_registered : demoTasks "demo" = some (register "default" 2 false) := rfl

theorem asyncDemo_completes :
    AsyncCompletes demoHandler "demo" [] asyncDemo (AsyncRun.run (.init : AsyncRun demoTasks) asyncDemo) :=
  ⟨rfl, rfl, by decide +kernel, by decide +kernel, by decide +kernel⟩

theorem redisDemo_completes : RedisCompletes demoHandler demoLib oneWorker "demo" none [] redisDemo
    (RedisTaskQueue.run demoLib oneWorker (.init oneWorker : RedisTaskQueue demoTasks) redisDemo) :=
  ⟨rfl, rfl, by decide +kernel, by decide +kernel, by decide +kernel, by decide +kernel, by decide +kernel⟩

end Imghost.Tasks.Backends
