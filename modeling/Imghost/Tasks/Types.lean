/-
  Imghost.Tasks.Types — tasks, their states, and what the queues record of them.

  The calls of `enqueue` are numbered; a task carries the number of the call it comes from
  through its retries (`call`; a message that some other program pushed has none). Nothing
  in the code depends on it.
-/

import Imghost.Data.Tally
import Imghost.Tasks.Life
import Imghost.Tokens.Signed

namespace Imghost.Tasks

open Imghost.Data Imghost.Tokens

/-- `TASK_STATES`. -/
inductive TaskState where
  | queued
  | started
  | skipped
  | retryScheduled
  | succeeded
  | failedPermanent
  | failedExhausted
  deriving DecidableEq, Repr

/-- The states a task ends in. -/
def TaskState.isTerminal : TaskState → Bool
  | .succeeded | .skipped | .failedPermanent | .failedExhausted => true
  | .queued | .started | .retryScheduled => false

/-- What a handler reports; `queued` and `started` are for the queues to record. -/
structure TaskRunResult where
  state : TaskState
  reason : Option String
  retryable : Bool
  reported : state ≠ .queued ∧ state ≠ .started
  deriving DecidableEq

/-- A retry is for a handler to report. -/
theorem retryScheduled_reported : TaskState.retryScheduled ≠ .queued ∧ TaskState.retryScheduled ≠ .started := by decide

/-- What is left to record of a result that is not tried again is a terminal state. -/
theorem terminal_of_result (r : TaskRunResult) :
    (if r.state = .retryScheduled then TaskState.failedExhausted else r.state).isTerminal = true := by
  obtain ⟨hqueued, hstarted⟩ := r.reported
  cases hstate : r.state <;> first | rfl | exact absurd hstate hqueued | exact absurd hstate hstarted

/-- What a call of a handler comes to. -/
inductive HandlerOutcome where
  /-- A value that is no `TaskRunResult`. -/
  | value
  | result (r : TaskRunResult)
  | raised (exc : String)
  deriving DecidableEq

structure RegisteredTask where
  defaultQueue : String
  maxAttempts : Int
  passRetryMetadata : Bool
  deriving DecidableEq, Repr

/-- `register`, of its last three arguments. -/
def register (defaultQueue : String) (maxAttempts : Int) (passRetryMetadata : Bool) : RegisteredTask :=
  ⟨defaultQueue, max 1 maxAttempts, passRetryMetadata⟩

/-- `_tasks`; nothing is registered any more when the queue is in use. -/
abbrev TaskTable := String → Option RegisteredTask

theorem registered_of_eq {tasks : TaskTable} {taskName : String} {task : RegisteredTask} (h : tasks taskName = some task) :
    (tasks taskName).isSome = true := by
  rw [h]
  rfl

abbrev Kwargs := List (String × Json)

structure QueuedTask (tasks : TaskTable) where
  call : Option Nat
  taskName : String
  kwargs : Kwargs
  attempt : Int
  maxAttempts : Int
  registered : (tasks taskName).isSome = true

/-- What `record_task_state` is told: the task, its state and the attempt. -/
structure Record where
  call : Option Nat
  taskName : String
  state : TaskState
  attempt : Option Int
  deriving DecidableEq, Repr

variable {tasks : TaskTable}

namespace QueuedTask

/-- `self._tasks[task_name]`. -/
def task (item : QueuedTask tasks) : RegisteredTask := (tasks item.taskName).get item.registered

/-- The record of a state of the task. -/
def record (item : QueuedTask tasks) (state : TaskState) : Record := ⟨item.call, item.taskName, state, some item.attempt⟩

/-- The task with its next attempt. -/
def next (item : QueuedTask tasks) : QueuedTask tasks := { item with attempt := item.attempt + 1 }

/-- `_normalize_attempt_metadata`. -/
def normalized (item : QueuedTask tasks) : QueuedTask tasks :=
  { item with attempt := max 1 item.attempt, maxAttempts := max 1 item.maxAttempts }

/-- The first attempt of a call. -/
def first (call : Nat) (taskName : String) (kwargs : Kwargs) (task : RegisteredTask) (h : tasks taskName = some task) :
    QueuedTask tasks := ⟨some call, taskName, kwargs, 1, task.maxAttempts, by rw [h]; rfl⟩

end QueuedTask

/-! ## The marks of a call -/

def Record.marks (c : Nat) (r : Record) : Multiset Mark :=
  if r.call = some c then
    match r.state, r.attempt with
    | .started, some attempt => {.started attempt}
    | state, _ => if state.isTerminal then {.ended} else 0
  else 0

def QueuedTask.waitingMarks (c : Nat) (item : QueuedTask tasks) : Multiset Mark :=
  if item.call = some c then {.waiting item.attempt} else 0

def QueuedTask.runningMarks (c : Nat) (item : QueuedTask tasks) : Multiset Mark :=
  if item.call = some c then {.running item.attempt} else 0

section

variable {c : Nat} {item : QueuedTask tasks} {state : TaskState}

theorem marks_of_other {r : Record} (h : r.call ≠ some c) : r.marks c = 0 := if_neg h

theorem marks_started (h : item.call = some c) : (item.record .started).marks c = {.started item.attempt} := if_pos h

theorem marks_terminal (h : item.call = some c) (hstate : state.isTerminal = true) :
    (item.record state).marks c = {.ended} := by
  rw [Record.marks, QueuedTask.record, if_pos h]
  cases state with
  | queued | started | retryScheduled => cases hstate
  | succeeded | skipped | failedPermanent | failedExhausted => rfl

theorem marks_queued : (item.record .queued).marks c = 0 := by
  rw [Record.marks]
  split <;> rfl

theorem marks_retryScheduled : (item.record .retryScheduled).marks c = 0 := by
  rw [Record.marks]
  split <;> rfl

/-- An end of a call is a record of a terminal state. -/
theorem terminal_of_ended {r : Record} (h : .ended ∈ r.marks c) : r.call = some c ∧ r.state.isTerminal = true := by
  unfold Record.marks at h
  split at h
  · rename_i hcall
    refine ⟨hcall, ?_⟩
    split at h
    · simp at h
    · split at h
      · assumption
      · simp at h
  · simp at h

end

end Imghost.Tasks
