/-
  Imghost.Tasks.RedisQueue — `RedisTaskQueue`.

  Redis has one list for each queue; here they are one list of keys and messages in the
  order of their pushes, and a pop takes the first with its key. The server carries a push
  or a pop out at one moment and its reply comes at another, so a push is `carried` before
  its sender knows, and a popped message is `fetched` before its worker has it. An operation
  that does not come through raises `RedisUnavailable`, before the server has carried it
  out or after (`fail` of a push, `lose` of a pop); `enqueue` then uses the in-process queue.

  Actors. Callers enqueue and join, other programs push what they like (`foreign`), the
  workers pop, run and push their retries, the fallback's workers do the same with theirs.
  `stop` cancels the workers, each at the await it has reached (`cancelled`), and then
  stops the fallback.
-/

import Imghost.Tasks.AsyncQueue
import Mathlib.Data.List.Sort

namespace Imghost.Tasks

open Imghost.Data Imghost.Tokens

/-! ## Messages -/

/-- What the standard library does with a value of a message. -/
structure TaskLib where
  /-- `int(value)`; `none` when it raises. -/
  int : Json → Option Int
  int_int : ∀ n, int (.int n) = some n
  /-- `str(value)`. -/
  str : Json → String
  str_str : ∀ s, str (.str s) = s

/-- A message in Redis. -/
inductive Message (tasks : TaskTable) where
  | own (item : QueuedTask tasks)
  /-- Pushed by some other program; `none` when it is no JSON. -/
  | foreign (payload : Option Json)

variable {tasks : TaskTable}

namespace Message

def call : Message tasks → Option Nat
  | .own item => item.call
  | .foreign _ => none

/-- `json.loads` of the message. -/
def payload : Message tasks → Option Json
  | .own item => some (.dict [("task_name", .str item.taskName), ("kwargs", .dict item.kwargs),
      ("attempt", .int item.attempt), ("max_attempts", .int item.maxAttempts)])
  | .foreign payload => payload

end Message

/-- What a worker makes of a message. -/
inductive Received (tasks : TaskTable) where
  /-- Something raises before `_active_jobs` is incremented. -/
  | rejected
  /-- Its kwargs are no mapping, which raises after that. -/
  | unmappable
  | job (item : QueuedTask tasks)

/-- `int(payload.get(name, default))`. -/
def intField (lib : TaskLib) (fields : List (String × Json)) (name : String) (default : Int) : Option Int :=
  match fields.lookup name with
  | none => some default
  | some value => lib.int value

def decode (lib : TaskLib) (call : Option Nat) : Option Json → Received tasks
  | some (.dict fields) =>
    match fields.lookup "task_name", fields.lookup "kwargs" with
    | some (.str taskName), some kwargs =>
      match h : tasks taskName with
      | none => .rejected
      | some task =>
        match intField lib fields "attempt" 1, intField lib fields "max_attempts" task.maxAttempts, kwargs with
        | some attempt, some maxAttempts, .dict kwargs =>
          .job ⟨call, taskName, kwargs, attempt, maxAttempts, registered_of_eq h⟩
        | some _, some _, _ => .unmappable
        | _, _, _ => .rejected
    | _, _ => .rejected
  | _ => .rejected

def Message.receive (lib : TaskLib) (message : Message tasks) : Received tasks := decode lib message.call message.payload

/-- What is recorded when something raises: what the message says, as far as it says it. -/
def failure (lib : TaskLib) (call : Option Nat) : Option Json → Record
  | some (.dict fields) =>
    ⟨call, lib.str ((fields.lookup "task_name").getD .null), .failedPermanent,
      match fields.lookup "kwargs" with
      | some (.dict _) =>
        match fields.lookup "attempt" with
        | none => some 1
        | some (.int attempt) => some attempt
        | _ => none
      | _ => none⟩
  | _ => ⟨call, "unknown", .failedPermanent, none⟩

def Message.failure (lib : TaskLib) (message : Message tasks) : Record := Tasks.failure lib message.call message.payload

@[simp] theorem receive_own (lib : TaskLib) (item : QueuedTask tasks) : (Message.own item).receive lib = .job item := by
  obtain ⟨task, htask⟩ := Option.isSome_iff_exists.mp item.registered
  simp only [Message.receive, Message.payload, Message.call, decode, List.lookup_cons, intField, beq_self_eq_true,
    String.reduceBEq, lib.int_int]
  split
  · rename_i hnone
    rw [htask] at hnone
    cases hnone
  · rfl

@[simp] theorem failure_own (lib : TaskLib) (item : QueuedTask tasks) :
    (Message.own item).failure lib = item.record .failedPermanent := by
  simp [Message.failure, Tasks.failure, Message.payload, Message.call, List.lookup_cons, QueuedTask.record, lib.str_str]

/-- A job has the call of its message. -/
theorem call_of_receive {lib : TaskLib} {message : Message tasks} {item : QueuedTask tasks}
    (h : message.receive lib = .job item) : item.call = message.call := by
  unfold Message.receive decode at h
  repeat' split at h
  all_goals cases h
  rfl

theorem failure_record (lib : TaskLib) (message : Message tasks) :
    (message.failure lib).call = message.call ∧ (message.failure lib).state = .failedPermanent := by
  unfold Message.failure Tasks.failure
  split <;> exact ⟨rfl, rfl⟩

@[simp] theorem failure_call (lib : TaskLib) (message : Message tasks) : (message.failure lib).call = message.call :=
  (failure_record lib message).1

@[simp] theorem failure_state (lib : TaskLib) (message : Message tasks) :
    (message.failure lib).state = .failedPermanent :=
  (failure_record lib message).2

/-- A task that a worker runs. -/
structure Job (tasks : TaskTable) where
  item : QueuedTask tasks
  /-- What is recorded when something raises. -/
  failure : Record
  sameCall : failure.call = item.call
  permanent : failure.state = .failedPermanent

/-! ## The queue -/

structure QueueConfig where
  /-- `redis.prefix`. -/
  keyPrefix : String
  runWorker : Bool
  workerCount : Nat
  workerQueues : Option (List String)

/-- `redis.prefixed(f"queue:{queue}")`. -/
def QueueConfig.queueKey (config : QueueConfig) (queue : String) : String :=
  if config.keyPrefix = "" then "queue:" ++ queue else config.keyPrefix ++ ":" ++ ("queue:" ++ queue)

/-- What follows the last occurrence of `sep`. -/
def afterLast (sep : List Char) : List Char → Option (List Char)
  | [] => none
  | c :: cs => (afterLast sep cs).or (if sep.isPrefixOf (c :: cs) then some ((c :: cs).drop sep.length) else none)

/-- `str(queue_key).split("queue:")[-1]`. -/
def queueNameOf (key : String) : String :=
  String.ofList ((afterLast ['q', 'u', 'e', 'u', 'e', ':'] key.toList).getD key.toList)

/-- The parameters of `enqueue` that its `kwargs` cannot name again. -/
def hasReserved (kwargs : Kwargs) : Bool :=
  kwargs.any (["self", "task_name", "queue", "_task_attempt", "_task_max_attempts"].contains ·.1)

/-- An `RPUSH` on its way; when it is `carried`, the server has carried it out. -/
structure Push (tasks : TaskTable) where
  item : QueuedTask tasks
  key : String
  carried : Bool

inductive RedisWorker (tasks : TaskTable) where
  | polling
  /-- `BLPOP` has popped a message for it. -/
  | fetched (key : String) (message : Message tasks)
  | running (key : String) (job : Job tasks)
  /-- In `enqueue`, for the next attempt. -/
  | requeuing (push : Push tasks)
  | gone

inductive JoinEnd where
  /-- There are no workers here to wait for. -/
  | noWorkers
  /-- The queues were empty, or could not be asked. -/
  | drained
  | deadline
  deriving DecidableEq, Repr

/-- A call of `join`. -/
inductive RedisJoiner where
  /-- `await self._fallback.join()`, which is the fallback's joiner `j`. -/
  | fallback (j : Nat)
  | looping
  /-- `_all_queues_empty`: the queues it has still to ask, and whether one was not empty. -/
  | reading (queues : List String) (nonEmpty : Bool)
  | returned (how : JoinEnd)
  deriving DecidableEq, Repr

structure RedisTaskQueue (tasks : TaskTable) where
  lists : List (String × Message tasks)
  knownQueues : List String
  /-- The calls of `enqueue`, with the pushes of those that have not returned. -/
  enqueuing : List (Option (Push tasks))
  workers : List (RedisWorker tasks)
  activeJobs : Nat
  fallback : AsyncTaskQueue tasks
  joiners : List RedisJoiner
  stopping : Bool
  records : List Record

/-- Who pushes: a call of `enqueue`, or a worker. -/
inductive Pusher where
  | call (k : Nat)
  | worker (i : Nat)
  deriving DecidableEq, Repr

inductive RedisEvent where
  | start
  | stop
  | cancelled (i : Nat)
  | stopped
  | enqueue (taskName : String) (queue : Option String) (kwargs : Kwargs)
  | foreign (key : String) (payload : Option Json)
  | carry (who : Pusher)
  | confirm (who : Pusher)
  | fail (who : Pusher)
  | pop (i : Nat) (queue : String)
  | deliver (i : Nat)
  | lose (i : Nat)
  | finish (i : Nat) (outcome : HandlerOutcome)
  | fallbackTake (i : Nat)
  | fallbackFinish (i : Nat) (outcome : HandlerOutcome)
  | fallbackStopReturns
  | join
  | fallbackJoined (k : Nat)
  | check (k : Nat)
  | length (k : Nat)
  | lengthsUnavailable (k : Nat)
  | deadline (k : Nat)

def RedisWorker.isGone : RedisWorker tasks → Bool
  | .gone => true
  | _ => false

/-- `set.add`, of names that are kept sorted. -/
def addQueue (names : List String) (queue : String) : List String :=
  if queue ∈ names then names else names.orderedInsert (· ≤ ·) queue

namespace RedisTaskQueue

variable (lib : TaskLib) (config : QueueConfig) (q : RedisTaskQueue tasks)

/-- `__init__`. -/
def init : RedisTaskQueue tasks :=
  ⟨[], (config.workerQueues.getD []).foldl addQueue ["default", "thumbnails"], [], [], 0, .empty, [], false, []⟩

/-- `_dequeue_queue_names`. -/
def dequeueQueueNames : List String := config.workerQueues.getD q.knownQueues

/-- `_join_queue_names`. -/
def joinQueueNames : List String :=
  match config.workerQueues with
  | none => q.knownQueues
  | some names => names.filter (· ∈ q.knownQueues)

def recordTaskState (r : Record) : RedisTaskQueue tasks := { q with records := q.records ++ [r] }

def setWorker (i : Nat) (worker : RedisWorker tasks) : RedisTaskQueue tasks :=
  { q with workers := q.workers.set i worker }

def setJoiner (k : Nat) (joiner : RedisJoiner) : RedisTaskQueue tasks := { q with joiners := q.joiners.set k joiner }

/-- The `finally` of `_run_worker`, after which the worker is as given. -/
def release (i : Nat) (worker : RedisWorker tasks) : RedisTaskQueue tasks :=
  { q with activeJobs := q.activeJobs - 1 }.setWorker i worker

/-! ## Pushing -/

/-- `enqueue`, up to where `RPUSH` is awaited. -/
def enqueue (taskName : String) (queue : Option String) (kwargs : Kwargs) : RedisTaskQueue tasks :=
  match h : tasks taskName with
  | none => q
  | some task =>
    let resolvedQueue := queue.getD task.defaultQueue
    let push := ⟨.first q.enqueuing.length taskName kwargs task h, config.queueKey resolvedQueue, false⟩
    { q with knownQueues := addQueue q.knownQueues resolvedQueue, enqueuing := q.enqueuing ++ [some push] }

def push? : Pusher → Option (Push tasks)
  | .call k => q.enqueuing[k]?.join
  | .worker i =>
    match q.workers[i]? with
    | some (.requeuing push) => some push
    | _ => none

def setPush (push : Push tasks) : Pusher → RedisTaskQueue tasks
  | .call k => { q with enqueuing := q.enqueuing.set k (some push) }
  | .worker i => q.setWorker i (.requeuing push)

/-- The pusher returns from `enqueue`; a worker goes on to its next message. -/
def endPush : Pusher → RedisTaskQueue tasks
  | .call k => { q with enqueuing := q.enqueuing.set k none }
  | .worker i => q.release i .polling

/-- The server carries the push out. -/
def carry (who : Pusher) : RedisTaskQueue tasks :=
  match q.push? who with
  | some ⟨item, key, false⟩ => { q with lists := q.lists ++ [(key, Message.own item)] }.setPush ⟨item, key, true⟩ who
  | _ => q

/-- Its reply comes. -/
def confirm (who : Pusher) : RedisTaskQueue tasks :=
  match q.push? who with
  | some ⟨item, _, true⟩ => (q.recordTaskState (item.record .queued)).endPush who
  | _ => q

/-- `RedisUnavailable` comes instead. -/
def fail (who : Pusher) : RedisTaskQueue tasks :=
  match q.push? who with
  | some push => { q with fallback := q.fallback.enqueue push.item }.endPush who
  | none => q

/-! ## The workers -/

/-- The server pops a message of the queue for a worker. -/
def pop (i : Nat) (queue : String) : RedisTaskQueue tasks :=
  let isNext (entry : String × Message tasks) := entry.1 == config.queueKey queue
  match q.workers[i]?, q.lists.find? isNext with
  | some .polling, some entry =>
    if queue ∈ q.dequeueQueueNames config then
      { q with lists := q.lists.eraseP isNext }.setWorker i (.fetched entry.1 entry.2)
    else q
  | _, _ => q

/-- `_run_worker`, from the reply of `BLPOP` to the handler. -/
def deliver (i : Nat) : RedisTaskQueue tasks :=
  match q.workers[i]? with
  | some (.fetched key message) =>
    match h : message.receive lib with
    | .rejected => (q.recordTaskState (message.failure lib)).release i .polling
    | .unmappable =>
      ({ q with activeJobs := q.activeJobs + 1 }.recordTaskState (message.failure lib)).release i .polling
    | .job item =>
      ({ q with activeJobs := q.activeJobs + 1 }.recordTaskState (item.record .started)).setWorker i
        (.running key ⟨item, message.failure lib, by rw [failure_call, call_of_receive h], failure_state lib message⟩)
  | _ => q

/-- The reply of `BLPOP` is lost. -/
def lose (i : Nat) : RedisTaskQueue tasks :=
  match q.workers[i]? with
  | some (.fetched _ _) => q.setWorker i .polling
  | _ => q

/-- `_handle_result`, up to where the next attempt's `RPUSH` is awaited. -/
def handleResult (i : Nat) (key : String) (job : Job tasks) (result : TaskRunResult) : RedisTaskQueue tasks :=
  let item := job.item
  if result.state = .retryScheduled ∧ result.retryable = true ∧ item.attempt < item.maxAttempts then
    let q := q.recordTaskState (item.record .retryScheduled)
    if hasReserved item.kwargs then (q.recordTaskState job.failure).release i .polling
    else
      let queueName := queueNameOf key
      { q with knownQueues := addQueue q.knownQueues queueName }.setWorker i
        (.requeuing ⟨item.next, config.queueKey queueName, false⟩)
  else
    let terminalState := if result.state = .retryScheduled then .failedExhausted else result.state
    (q.recordTaskState (item.record terminalState)).release i .polling

/-- `_run_worker`, from the handler's end. -/
def finish (i : Nat) (outcome : HandlerOutcome) : RedisTaskQueue tasks :=
  match q.workers[i]? with
  | some (.running key job) =>
    match outcome with
    | .raised _ => (q.recordTaskState job.failure).release i .polling
    | .value => (q.recordTaskState (job.item.record .succeeded)).release i .polling
    | .result r => q.handleResult config i key job r
  | _ => q

/-! ## Starting, stopping and joining -/

def start : RedisTaskQueue tasks :=
  let q := { q with fallback := q.fallback.start config.workerCount }
  if config.runWorker = true ∧ q.workers = [] ∧ q.dequeueQueueNames config ≠ [] then
    { q with workers := List.replicate (max 1 config.workerCount) .polling }
  else q

/-- `stop`, up to where it waits for the workers. -/
def stop : RedisTaskQueue tasks :=
  if q.workers.isEmpty then { q with fallback := q.fallback.stop } else { q with stopping := true }

/-- `CancelledError` at the await a worker has reached. -/
def cancelled (i : Nat) : RedisTaskQueue tasks :=
  if q.stopping then
    match q.workers[i]? with
    | some .polling | some (.fetched _ _) => q.setWorker i .gone
    | some (.running _ _) | some (.requeuing _) => q.release i .gone
    | _ => q
  else q

/-- All workers are gone, and `stop` goes on with the fallback. -/
def stopped : RedisTaskQueue tasks :=
  if q.stopping && q.workers.all RedisWorker.isGone then
    { q with workers := [], stopping := false, fallback := q.fallback.stop }
  else q

def join : RedisTaskQueue tasks :=
  { q with fallback := q.fallback.join, joiners := q.joiners ++ [.fallback q.fallback.joiners.length] }

def fallbackJoined (k : Nat) : RedisTaskQueue tasks :=
  match q.joiners[k]? with
  | some (.fallback j) =>
    if q.fallback.joiners[j]? = some .waiting then q
    else { q with fallback := q.fallback.joinReturns j }.setJoiner k
      (if config.runWorker then .looping else .returned .noWorkers)
  | _ => q

/-- `self._active_jobs == 0`. -/
def check (k : Nat) : RedisTaskQueue tasks :=
  match q.joiners[k]? with
  | some .looping => if q.activeJobs = 0 then q.setJoiner k (.reading (q.joinQueueNames config) false) else q
  | _ => q

/-- `LLEN` of the next queue, or what the lengths come to. -/
def length (k : Nat) : RedisTaskQueue tasks :=
  match q.joiners[k]? with
  | some (.reading [] nonEmpty) => q.setJoiner k (if nonEmpty then .looping else .returned .drained)
  | some (.reading (queue :: queues) nonEmpty) =>
    q.setJoiner k (.reading queues (nonEmpty || q.lists.any (·.1 == config.queueKey queue)))
  | _ => q

def lengthsUnavailable (k : Nat) : RedisTaskQueue tasks :=
  match q.joiners[k]? with
  | some (.reading _ _) => q.setJoiner k (.returned .drained)
  | _ => q

/-- `monotonic() < deadline` no longer. -/
def deadline (k : Nat) : RedisTaskQueue tasks :=
  match q.joiners[k]? with
  | some .looping => q.setJoiner k (.returned .deadline)
  | _ => q

def step : RedisEvent → RedisTaskQueue tasks
  | .start => q.start config
  | .stop => q.stop
  | .cancelled i => q.cancelled i
  | .stopped => q.stopped
  | .enqueue taskName queue kwargs => q.enqueue config taskName queue kwargs
  | .foreign key payload => { q with lists := q.lists ++ [(key, .foreign payload)] }
  | .carry who => q.carry who
  | .confirm who => q.confirm who
  | .fail who => q.fail who
  | .pop i queue => q.pop config i queue
  | .deliver i => q.deliver lib i
  | .lose i => q.lose i
  | .finish i outcome => q.finish config i outcome
  | .fallbackTake i => { q with fallback := q.fallback.take i }
  | .fallbackFinish i outcome => { q with fallback := q.fallback.finish i outcome }
  | .fallbackStopReturns => { q with fallback := q.fallback.stopReturns }
  | .join => q.join
  | .fallbackJoined k => q.fallbackJoined config k
  | .check k => q.check config k
  | .length k => q.length config k
  | .lengthsUnavailable k => q.lengthsUnavailable k
  | .deadline k => q.deadline k

abbrev run (es : List RedisEvent) : RedisTaskQueue tasks := runEvents (step lib config) q es

end RedisTaskQueue

end Imghost.Tasks
