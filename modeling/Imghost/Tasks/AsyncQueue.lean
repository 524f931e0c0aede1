/-
  Imghost.Tasks.AsyncQueue — `AsyncTaskQueue`.

  Putting into an unbounded `asyncio.Queue` does not suspend, so a worker's turn goes from
  one handler to the next: `take` ends where the handler is awaited, `finish` goes from the
  handler's end to the next `get`. `stop` puts one `None` for each worker and waits for all
  of them to return; `join` waits until the unfinished count has dropped to zero, and
  resumes some time after that (`joinReturns`).

  Actors. Callers enqueue at any time. Each worker takes the first item when it is waiting,
  and finishes the item it runs with any outcome. A call of `stop` is not repeated before
  it has returned.
-/

import Imghost.Data.Events
import Imghost.Tasks.Types

namespace Imghost.Tasks

open Imghost.Data

inductive AsyncWorker (tasks : TaskTable) where
  | waiting
  | running (item : QueuedTask tasks)
  | exited

/-- A call of `join`: waiting for the finished event, told of it, or back. -/
inductive Joiner where
  | waiting
  | woken
  | returned
  deriving DecidableEq, Repr

structure AsyncTaskQueue (tasks : TaskTable) where
  queue : List (Option (QueuedTask tasks))
  /-- `_unfinished_tasks`. -/
  unfinished : Nat
  joiners : List Joiner
  workers : List (AsyncWorker tasks)
  stopping : Bool
  records : List Record

variable {tasks : TaskTable}

def Joiner.wake : Joiner → Joiner
  | .waiting => .woken
  | j => j

def AsyncWorker.isExited : AsyncWorker tasks → Bool
  | .exited => true
  | _ => false

namespace AsyncTaskQueue

variable (q : AsyncTaskQueue tasks)

def empty : AsyncTaskQueue tasks := ⟨[], 0, [], [], false, []⟩

/-- `self._queue.put`. -/
def put (item : Option (QueuedTask tasks)) : AsyncTaskQueue tasks :=
  { q with queue := q.queue ++ [item], unfinished := q.unfinished + 1 }

/-- `self._queue.task_done`. -/
def taskDone : AsyncTaskQueue tasks :=
  { q with unfinished := q.unfinished - 1,
           joiners := if q.unfinished - 1 = 0 then q.joiners.map Joiner.wake else q.joiners }

def recordTaskState (r : Record) : AsyncTaskQueue tasks := { q with records := q.records ++ [r] }

/-- `enqueue`, of a task that is registered. -/
def enqueue (item : QueuedTask tasks) : AsyncTaskQueue tasks :=
  (q.put (some item.normalized)).recordTaskState (item.normalized.record .queued)

def setWorker (i : Nat) (worker : AsyncWorker tasks) : AsyncTaskQueue tasks :=
  { q with workers := q.workers.set i worker }

/-- `_run_worker`, from `get` to the handler. -/
def take (i : Nat) : AsyncTaskQueue tasks :=
  match q.workers[i]?, q.queue with
  | some .waiting, none :: queue => ({ q with queue := queue }.setWorker i .exited).taskDone
  | some .waiting, some item :: queue =>
    ({ q with queue := queue }.setWorker i (.running item)).recordTaskState (item.record .started)
  | _, _ => q

/-- `_handle_task_result`. -/
def handleTaskResult (item : QueuedTask tasks) (result : TaskRunResult) : AsyncTaskQueue tasks :=
  if result.state = .retryScheduled ∧ result.retryable = true ∧ item.attempt < item.maxAttempts then
    (q.recordTaskState (item.record .retryScheduled)).enqueue item.next
  else
    let terminalState := if result.state = .retryScheduled then .failedExhausted else result.state
    q.recordTaskState (item.record terminalState)

/-- `_execute_task`, from the handler's end. -/
def handleOutcome (item : QueuedTask tasks) : HandlerOutcome → AsyncTaskQueue tasks
  | .raised _ => q.recordTaskState (item.record .failedPermanent)
  | .value => q.recordTaskState (item.record .succeeded)
  | .result r => q.handleTaskResult item r

/-- `_run_worker`, from the handler's end to `get`. -/
def finish (i : Nat) (outcome : HandlerOutcome) : AsyncTaskQueue tasks :=
  match q.workers[i]? with
  | some (.running item) => ((q.handleOutcome item outcome).setWorker i .waiting).taskDone
  | _ => q

def start (workerCount : Nat) : AsyncTaskQueue tasks :=
  if q.workers.isEmpty then { q with workers := List.replicate (max 1 workerCount) .waiting } else q

/-- `stop`, up to where it waits for the workers. -/
def stop : AsyncTaskQueue tasks :=
  if q.workers.isEmpty || q.stopping then q
  else { q with queue := q.queue ++ List.replicate q.workers.length none,
                unfinished := q.unfinished + q.workers.length, stopping := true }

/-- All workers have returned, and `stop` can. -/
def canReturn : Bool := q.stopping && q.workers.all AsyncWorker.isExited

def stopReturns : AsyncTaskQueue tasks := if q.canReturn then { q with workers := [], stopping := false } else q

def join : AsyncTaskQueue tasks :=
  { q with joiners := q.joiners ++ [if q.unfinished = 0 then .returned else .waiting] }

def joinReturns (j : Nat) : AsyncTaskQueue tasks :=
  match q.joiners[j]? with
  | some .woken => { q with joiners := q.joiners.set j .returned }
  | _ => q

end AsyncTaskQueue

/-! ## Runs -/

/-- A queue, and the number of calls of `enqueue` so far. -/
structure AsyncRun (tasks : TaskTable) where
  queue : AsyncTaskQueue tasks
  calls : Nat

inductive AsyncEvent where
  | enqueue (taskName : String) (kwargs : Kwargs)
  | take (i : Nat)
  | finish (i : Nat) (outcome : HandlerOutcome)
  | start (workerCount : Nat)
  | stop
  | stopReturns
  | join
  | joinReturns (j : Nat)

namespace AsyncRun

def init : AsyncRun tasks := ⟨.empty, 0⟩

/-- `enqueue`; a name that is not registered raises `KeyError`. -/
def enqueue (s : AsyncRun tasks) (taskName : String) (kwargs : Kwargs) : AsyncRun tasks :=
  match h : tasks taskName with
  | none => s
  | some task => ⟨s.queue.enqueue (.first s.calls taskName kwargs task h), s.calls + 1⟩

def step (s : AsyncRun tasks) : AsyncEvent → AsyncRun tasks
  | .enqueue taskName kwargs => s.enqueue taskName kwargs
  | .take i => { s with queue := s.queue.take i }
  | .finish i outcome => { s with queue := s.queue.finish i outcome }
  | .start workerCount => { s with queue := s.queue.start workerCount }
  | .stop => { s with queue := s.queue.stop }
  | .stopReturns => { s with queue := s.queue.stopReturns }
  | .join => { s with queue := s.queue.join }
  | .joinReturns j => { s with queue := s.queue.joinReturns j }

abbrev run (s : AsyncRun tasks) (es : List AsyncEvent) : AsyncRun tasks := runEvents step s es

end AsyncRun

/-! ## The marks of a call -/

def itemMarks (c : Nat) : Option (QueuedTask tasks) → Multiset Mark
  | some item => item.waitingMarks c
  | none => 0

def AsyncWorker.marks (c : Nat) : AsyncWorker tasks → Multiset Mark
  | .running item => item.runningMarks c
  | _ => 0

namespace AsyncTaskQueue

/-- The marks of call `c` in the queue, with the workers and in the records. -/
def marks (c : Nat) (q : AsyncTaskQueue tasks) : Multiset Mark :=
  tally (itemMarks c) q.queue + tally (AsyncWorker.marks c) q.workers + tally (Record.marks c) q.records

variable {q : AsyncTaskQueue tasks} {c i : Nat} {item : QueuedTask tasks}

@[simp] theorem marks_taskDone : q.taskDone.marks c = q.marks c := rfl
@[simp] theorem marks_join : q.join.marks c = q.marks c := rfl

@[simp] theorem marks_joinReturns (j : Nat) : (q.joinReturns j).marks c = q.marks c := by
  unfold joinReturns
  split <;> rfl

@[simp] theorem marks_recordTaskState (r : Record) : (q.recordTaskState r).marks c = q.marks c + r.marks c := by
  simp only [marks, recordTaskState, tally_snoc, add_assoc]

theorem marks_put : (q.put (some item)).marks c = q.marks c + item.waitingMarks c := by
  simp only [marks, put, tally_snoc, itemMarks]
  ac_rfl

@[simp] theorem marks_enqueue : (q.enqueue item).marks c = q.marks c + item.normalized.waitingMarks c := by
  rw [enqueue, marks_recordTaskState, marks_put, marks_queued, add_zero]

theorem marks_start (n : Nat) : (q.start n).marks c = q.marks c := by
  unfold start
  split
  · rename_i hempty
    have hnone : tally (AsyncWorker.marks c) (List.replicate (max 1 n) (AsyncWorker.waiting : AsyncWorker tasks)) = 0 :=
      tally_eq_zero fun w hw => by rw [List.eq_of_mem_replicate hw]; rfl
    rw [List.isEmpty_iff] at hempty
    simp only [marks, hnone, hempty, tally_nil]
  · rfl

theorem marks_stop : q.stop.marks c = q.marks c := by
  unfold stop
  split
  · rfl
  · have hnone : tally (itemMarks c) (List.replicate q.workers.length (none : Option (QueuedTask tasks))) = 0 :=
      tally_eq_zero fun w hw => by rw [List.eq_of_mem_replicate hw]; rfl
    simp only [marks, tally_append, hnone, add_zero]

theorem marks_stopReturns : q.stopReturns.marks c = q.marks c := by
  unfold stopReturns
  split
  · rename_i hreturn
    have hnone : tally (AsyncWorker.marks c) q.workers = 0 := by
      refine tally_eq_zero fun w hw => ?_
      rw [canReturn, Bool.and_eq_true, List.all_eq_true] at hreturn
      have hexited := hreturn.2 w hw
      cases w with
      | exited => rfl
      | waiting | running => cases hexited
    simp only [marks, hnone, tally_nil]
  · rfl

/-- The share of one worker, and of everything else. -/
theorem marks_of_worker {worker : AsyncWorker tasks} (c : Nat) (h : q.workers[i]? = some worker) :
    ∃ rest, q.marks c = worker.marks c + rest ∧ ∀ worker', (q.setWorker i worker').marks c = worker'.marks c + rest := by
  refine ⟨tally (itemMarks c) q.queue + tally (AsyncWorker.marks c) (q.workers.eraseIdx i) +
    tally (Record.marks c) q.records, ?_, fun worker' => ?_⟩
  · simp only [marks, tally_eraseIdx h]
    ac_rfl
  · simp only [marks, setWorker, tally_set h]
    ac_rfl

/-- The share of the first item, and of everything else. -/
theorem marks_of_first {first : Option (QueuedTask tasks)} {queue : List (Option (QueuedTask tasks))} (c : Nat)
    (h : q.queue = first :: queue) :
    q.marks c = itemMarks c first + AsyncTaskQueue.marks c { q with queue := queue } := by
  simp only [marks, h, tally_cons]
  ac_rfl

/-! ## What a worker's turn does to a call -/

theorem take_moves : Moves .kept (q.marks c) ((q.take i).marks c) := by
  unfold take
  split
  · rename_i queue hworker hqueue
    obtain ⟨rest, hrest, hset⟩ := @marks_of_worker _ { q with queue := queue } i _ c hworker
    rw [marks_of_first c hqueue, hrest, marks_taskDone, hset]
    simp only [itemMarks, AsyncWorker.marks, zero_add]
    exact .stay _
  · rename_i item queue hworker hqueue
    obtain ⟨rest, hrest, hset⟩ := @marks_of_worker _ { q with queue := queue } i _ c hworker
    rw [marks_of_first c hqueue, hrest, marks_recordTaskState, hset]
    simp only [itemMarks, AsyncWorker.marks, zero_add]
    by_cases hcall : item.call = some c
    · rw [marks_started hcall, QueuedTask.waitingMarks, if_pos hcall, QueuedTask.runningMarks, if_pos hcall,
        Multiset.singleton_add, Multiset.singleton_add, Multiset.cons_add, add_comm rest, Multiset.singleton_add]
      exact .start item.attempt rest
    · have hnone : (item.record .started).marks c = 0 := marks_of_other hcall
      rw [hnone, QueuedTask.waitingMarks, if_neg hcall, QueuedTask.runningMarks, if_neg hcall, add_zero]
      exact .stay _
  · exact .stay _

/-- What the end of a handler's call leaves: the end of the task, or its next attempt. -/
theorem handleOutcome_marks (hcall : item.call = some c) (outcome : HandlerOutcome) :
    ∃ m, (m = .ended ∨ ∃ b, item.attempt < b ∧ m = .waiting b) ∧
      (q.handleOutcome item outcome).marks c = m ::ₘ q.marks c := by
  have hended : ∀ state : TaskState, state.isTerminal = true →
      (q.recordTaskState (item.record state)).marks c = .ended ::ₘ q.marks c := by
    intro state hstate
    rw [marks_recordTaskState, marks_terminal hcall hstate, ← Multiset.singleton_add, add_comm]
  cases outcome with
  | raised exc => exact ⟨_, .inl rfl, hended _ rfl⟩
  | value => exact ⟨_, .inl rfl, hended _ rfl⟩
  | result r =>
    simp only [handleOutcome, handleTaskResult]
    split
    · refine ⟨.waiting (max 1 (item.attempt + 1)), .inr ⟨_, ?_, rfl⟩, ?_⟩
      · omega
      · rw [marks_enqueue, marks_recordTaskState, marks_retryScheduled, add_zero]
        have hnext : item.next.normalized.waitingMarks c = {.waiting (max 1 (item.attempt + 1))} := if_pos hcall
        rw [hnext, ← Multiset.singleton_add, add_comm]
    · exact ⟨_, .inl rfl, hended _ (terminal_of_result r)⟩

theorem handleOutcome_marks_other (hcall : item.call ≠ some c) (outcome : HandlerOutcome) :
    (q.handleOutcome item outcome).marks c = q.marks c := by
  have hrecord : ∀ state, (q.recordTaskState (item.record state)).marks c = q.marks c := by
    intro state
    have hnone : (item.record state).marks c = 0 := marks_of_other hcall
    rw [marks_recordTaskState, hnone, add_zero]
  cases outcome with
  | raised exc => exact hrecord _
  | value => exact hrecord _
  | result r =>
    simp only [handleOutcome, handleTaskResult]
    split
    · have hnone : item.next.normalized.waitingMarks c = 0 := if_neg hcall
      rw [marks_enqueue, hrecord, hnone, add_zero]
    · exact hrecord _

@[simp] theorem handleOutcome_workers (outcome : HandlerOutcome) : (q.handleOutcome item outcome).workers = q.workers := by
  cases outcome with
  | raised | value => rfl
  | result r =>
    simp only [handleOutcome, handleTaskResult]
    split <;> rfl

theorem finish_moves (outcome : HandlerOutcome) : Moves .kept (q.marks c) ((q.finish i outcome).marks c) := by
  unfold finish
  split
  · rename_i item hworker
    obtain ⟨rest, hrest, -⟩ := marks_of_worker c hworker
    have hworker' : (q.handleOutcome item outcome).workers[i]? = some (.running item) := by
      rw [handleOutcome_workers]
      exact hworker
    obtain ⟨rest', hrest', hset⟩ := marks_of_worker c hworker'
    rw [marks_taskDone, hset]
    simp only [AsyncWorker.marks, zero_add] at hrest hrest' ⊢
    by_cases hcall : item.call = some c
    · obtain ⟨m, hm, hmarks⟩ := @handleOutcome_marks _ q c item hcall outcome
      rw [QueuedTask.runningMarks, if_pos hcall, Multiset.singleton_add] at hrest hrest'
      have heq : rest' = m ::ₘ rest := by
        have hcons := hrest'.symm.trans hmarks
        rw [hrest, Multiset.cons_swap] at hcons
        exact (Multiset.cons_inj_right _).mp hcons
      rw [heq, hrest]
      rcases hm with rfl | ⟨b, hb, rfl⟩
      · exact .finish _ _
      · exact .retry hb _
    · rw [QueuedTask.runningMarks, if_neg hcall, zero_add] at hrest hrest'
      rw [← hrest', handleOutcome_marks_other hcall]
      exact .stay _
  · exact .stay _

end AsyncTaskQueue

/-- An event moves the marks of every call but a new one, whose first attempt it puts into
    the queue. -/
theorem AsyncRun.step_moves (s : AsyncRun tasks) (e : AsyncEvent) (c : Nat) :
    Moves .kept (s.queue.marks c) ((s.step e).queue.marks c) ∧ (s.step e).calls = s.calls ∨
      (s.step e).calls = s.calls + 1 ∧
        (s.step e).queue.marks c = s.queue.marks c + if c = s.calls then {.waiting 1} else 0 := by
  cases e with
  | enqueue taskName kwargs =>
    simp only [step, enqueue]
    split
    · exact .inl ⟨.stay _, rfl⟩
    · refine .inr ⟨rfl, ?_⟩
      rw [AsyncTaskQueue.marks_enqueue]
      congr 1
      by_cases hc : c = s.calls
      · subst hc
        rw [if_pos rfl]
        exact if_pos rfl
      · rw [if_neg hc]
        exact if_neg fun h => hc (Option.some.inj h).symm
  | take i => exact .inl ⟨AsyncTaskQueue.take_moves, rfl⟩
  | finish i outcome => exact .inl ⟨AsyncTaskQueue.finish_moves outcome, rfl⟩
  | start n => exact .inl ⟨(AsyncTaskQueue.marks_start n).symm ▸ .stay _, rfl⟩
  | stop => exact .inl ⟨AsyncTaskQueue.marks_stop.symm ▸ .stay _, rfl⟩
  | stopReturns => exact .inl ⟨AsyncTaskQueue.marks_stopReturns.symm ▸ .stay _, rfl⟩
  | join => exact .inl ⟨.stay _, rfl⟩
  | joinReturns j => exact .inl ⟨(AsyncTaskQueue.marks_joinReturns j).symm ▸ .stay _, rfl⟩

end Imghost.Tasks
