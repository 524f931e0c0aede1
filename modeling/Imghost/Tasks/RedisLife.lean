/-
  Imghost.Tasks.RedisLife — what an event of the Redis queue does to one call of `enqueue`.

  A call has its marks in the lists, with its push, with a worker, in the fallback and in
  the records. Every event moves them as `Moves` allows (`step_moves`): a copy is lost only
  when a worker that holds it is cancelled or the reply of its pop is lost, and made only
  when a push fails that the server has carried out.
-/

import Imghost.Tasks.RedisQueue

namespace Imghost.Tasks

open Imghost.Data

variable {tasks : TaskTable} {c i : Nat}

def Message.marks (c : Nat) : Message tasks → Multiset Mark
  | .own item => item.waitingMarks c
  | .foreign _ => 0

def Push.marks (c : Nat) (push : Push tasks) : Multiset Mark :=
  if push.carried then if push.item.call = some c then {.echo} else 0 else push.item.waitingMarks c

def RedisWorker.marks (c : Nat) : RedisWorker tasks → Multiset Mark
  | .fetched _ message => message.marks c
  | .running _ job => job.item.runningMarks c
  | .requeuing push => push.marks c
  | .polling | .gone => 0

/-- The worker holds the only copy of a message. -/
def RedisWorker.holdsMessage : RedisWorker tasks → Bool
  | .fetched _ _ | .running _ _ => true
  | .requeuing push => !push.carried
  | .polling | .gone => false

def callMarks (c : Nat) (push : Option (Push tasks)) : Multiset Mark := push.elim 0 (Push.marks c)

namespace RedisTaskQueue

/-- The marks of call `c`, wherever they are. -/
def marks (c : Nat) (q : RedisTaskQueue tasks) : Multiset Mark :=
  tally (fun entry => entry.2.marks c) q.lists + tally (callMarks c) q.enqueuing +
    tally (RedisWorker.marks c) q.workers + q.fallback.marks c + tally (Record.marks c) q.records

/-- Everything but one call's push, or one worker. -/
def without (q : RedisTaskQueue tasks) : Pusher → RedisTaskQueue tasks
  | .call k => { q with enqueuing := q.enqueuing.eraseIdx k }
  | .worker i => { q with workers := q.workers.eraseIdx i }

variable {lib : TaskLib} {config : QueueConfig} {q : RedisTaskQueue tasks} {who : Pusher} {push : Push tasks}
  {item : QueuedTask tasks} {worker worker' : RedisWorker tasks} {r : Record}

@[simp] theorem marks_recordTaskState : (q.recordTaskState r).marks c = q.marks c + r.marks c := by
  simp only [marks, recordTaskState, tally_snoc, add_assoc]

@[simp] theorem without_recordTaskState : (q.recordTaskState r).without who = (q.without who).recordTaskState r := by
  cases who <;> rfl

theorem marks_of_list (entry : String × Message tasks) :
    marks c { q with lists := q.lists ++ [entry] } = q.marks c + entry.2.marks c := by
  simp only [marks, tally_snoc]
  ac_rfl

theorem marks_of_fallback : marks c { q with fallback := q.fallback.enqueue item } =
    q.marks c + item.normalized.waitingMarks c := by
  simp only [marks, AsyncTaskQueue.marks_enqueue]
  ac_rfl

/-! ## One worker, one push -/

theorem marks_of_worker (c : Nat) (h : q.workers[i]? = some worker) :
    q.marks c = worker.marks c + (q.without (.worker i)).marks c := by
  simp only [marks, without, tally_eraseIdx h]
  ac_rfl

theorem marks_setWorker (h : q.workers[i]? = some worker) :
    (q.setWorker i worker').marks c = worker'.marks c + (q.without (.worker i)).marks c := by
  simp only [marks, setWorker, without, tally_set h]
  ac_rfl

theorem marks_release (h : q.workers[i]? = some worker) :
    (q.release i worker').marks c = worker'.marks c + (q.without (.worker i)).marks c :=
  @marks_setWorker _ c i { q with activeJobs := q.activeJobs - 1 } worker worker' h

theorem call_of_push? {k : Nat} (h : q.push? (.call k) = some push) : q.enqueuing[k]? = some (some push) :=
  Option.join_eq_some_iff.mp h

theorem worker_of_push? (h : q.push? (.worker i) = some push) : q.workers[i]? = some (.requeuing push) := by
  simp only [push?] at h
  split at h
  · rename_i hworker
    rw [hworker, Option.some.inj h]
  · cases h

theorem marks_of_push (c : Nat) (h : q.push? who = some push) : q.marks c = push.marks c + (q.without who).marks c := by
  cases who with
  | call k =>
    simp only [marks, without, tally_eraseIdx (call_of_push? h), callMarks, Option.elim_some]
    ac_rfl
  | worker i => exact marks_of_worker c (worker_of_push? h)

theorem marks_setPush (h : q.push? who = some push) (push' : Push tasks) :
    (q.setPush push' who).marks c = push'.marks c + (q.without who).marks c := by
  cases who with
  | call k =>
    simp only [marks, setPush, without, tally_set (call_of_push? h), callMarks, Option.elim_some]
    ac_rfl
  | worker i => exact marks_setWorker (worker_of_push? h)

theorem marks_endPush (h : q.push? who = some push) : (q.endPush who).marks c = (q.without who).marks c := by
  cases who with
  | call k =>
    simp only [marks, endPush, without, tally_set (call_of_push? h), callMarks, Option.elim_none, zero_add]
  | worker i => exact (marks_release (worker_of_push? h)).trans (zero_add _)

/-! ## Events that take or make copies -/

/-- What an event does to the copies of the task it is about. -/
def change (q : RedisTaskQueue tasks) : RedisEvent → Change
  | .cancelled i => if q.stopping && (q.workers[i]?.elim false RedisWorker.holdsMessage) then .lost else .kept
  | .lose i =>
    match q.workers[i]? with
    | some (.fetched _ _) => .lost
    | _ => .kept
  | .fail who => if (q.push? who).elim false Push.carried then .copied else .kept
  | _ => .kept

/-- An event leaves the marks of a call, or moves them as it says. -/
def MovesOf (q : RedisTaskQueue tasks) (e : RedisEvent) (life life' : Multiset Mark) : Prop :=
  Moves .kept life life' ∨ Moves (q.change e) life life'

theorem marks_without_list (entry : String × Message tasks) :
    marks c (without { q with lists := q.lists ++ [entry] } who) = (q.without who).marks c + entry.2.marks c := by
  cases who with
  | call k => exact @marks_of_list _ c (q.without (.call k)) entry
  | worker i => exact @marks_of_list _ c (q.without (.worker i)) entry

theorem marks_without_fallback : marks c (without { q with fallback := q.fallback.enqueue item } who) =
    (q.without who).marks c + item.normalized.waitingMarks c := by
  cases who with
  | call k => exact @marks_of_fallback _ c (q.without (.call k)) item
  | worker i => exact @marks_of_fallback _ c (q.without (.worker i)) item

/-! ## Pushes -/

theorem carry_moves : Moves .kept (q.marks c) ((q.carry who).marks c) := by
  unfold carry
  split
  · rename_i item key hpush
    have hpush' : push? { q with lists := q.lists ++ [(key, Message.own item)] } who = some ⟨item, key, false⟩ := hpush
    rw [marks_of_push c hpush, marks_setPush hpush', marks_without_list]
    simp only [Push.marks, Message.marks, if_true, Bool.false_eq_true, if_false, QueuedTask.waitingMarks]
    split
    · rw [add_comm _ {Mark.waiting item.attempt}, add_left_comm]
      exact .carry item.attempt _
    · rw [add_zero]
      exact .stay _
  · exact .stay _

theorem confirm_moves : Moves .kept (q.marks c) ((q.confirm who).marks c) := by
  unfold confirm
  split
  · rename_i item key hpush
    have hpush' : (q.recordTaskState (item.record .queued)).push? who = some ⟨item, key, true⟩ := hpush
    rw [marks_of_push c hpush, marks_endPush hpush', without_recordTaskState, marks_recordTaskState, marks_queued, add_zero]
    simp only [Push.marks, if_true]
    split
    · exact .confirm _
    · rw [zero_add]
      exact .stay _
  · exact .stay _

theorem fail_moves : q.MovesOf (.fail who) (q.marks c) ((q.fail who).marks c) := by
  unfold fail
  split
  · rename_i push hpush
    have hpush' : push? { q with fallback := q.fallback.enqueue push.item } who = some push := hpush
    have hchange : q.change (.fail who) = if push.carried then .copied else .kept := by simp [change, hpush]
    have hnormal : push.item.normalized.waitingMarks c =
        if push.item.call = some c then {.waiting (max 1 push.item.attempt)} else 0 := rfl
    rw [MovesOf, hchange, marks_of_push c hpush, marks_endPush hpush', marks_without_fallback, hnormal, Push.marks,
      QueuedTask.waitingMarks, add_comm (marks c (q.without who))]
    by_cases hcall : push.item.call = some c
    · rw [if_pos hcall, if_pos hcall, if_pos hcall]
      split
      · exact .inr (.copy _ _)
      · exact .inl (.pass (le_max_right _ _) _)
    · rw [if_neg hcall, if_neg hcall, if_neg hcall, ite_self]
      exact .inl (.stay _)
  · exact .inl (.stay _)

/-! ## Workers -/

theorem pop_moves (queue : String) : Moves .kept (q.marks c) ((q.pop config i queue).marks c) := by
  simp only [pop]
  split
  · rename_i entry hworker hentry
    split
    · refine (?_ : q.marks c = _) ▸ Moves.stay _
      have hworker' : ({ q with lists := q.lists.eraseP fun e => e.1 == config.queueKey queue } : RedisTaskQueue tasks).workers[i]? =
        some .polling := hworker
      rw [marks_setWorker hworker', marks_of_worker c hworker]
      simp only [marks, without, RedisWorker.marks, tally_eraseP hentry]
      ac_rfl
    · exact .stay _
  · exact .stay _

theorem jobMarks (job : Job tasks) :
    job.failure.marks c = if job.item.call = some c then {.ended} else 0 := by
  rw [Record.marks, job.sameCall, job.permanent]
  rfl

theorem failureMarks (message : Message tasks) (h : message.call ≠ some c) : (message.failure lib).marks c = 0 :=
  marks_of_other (by rwa [failure_call])

theorem marks_of_call_ne {message : Message tasks} (h : message.call ≠ some c) : message.marks c = 0 := by
  cases message with
  | own item => exact if_neg h
  | foreign payload => rfl

/-- Only a message of some other program is no job. -/
theorem call_ne_of_no_job {message : Message tasks} (h : ∀ item, message.receive lib ≠ .job item) :
    message.call ≠ some c := by
  cases message with
  | own item => exact absurd (receive_own lib item) (h item)
  | foreign payload =>
    intro hcall
    cases hcall

theorem deliver_moves : Moves .kept (q.marks c) ((q.deliver lib i).marks c) := by
  unfold deliver
  split
  · rename_i key message hworker
    rw [marks_of_worker c hworker]
    split
    · rename_i hreceive
      have hcall : message.call ≠ some c := call_ne_of_no_job fun item hjob => by
        rw [hreceive] at hjob
        cases hjob
      have hworker' : (q.recordTaskState (message.failure lib)).workers[i]? = some (.fetched key message) := hworker
      rw [marks_release hworker', without_recordTaskState, marks_recordTaskState, failureMarks message hcall, add_zero]
      simp only [RedisWorker.marks, marks_of_call_ne hcall]
      exact .stay _
    · rename_i hreceive
      have hcall : message.call ≠ some c := call_ne_of_no_job fun item hjob => by
        rw [hreceive] at hjob
        cases hjob
      have hworker' : ({ q with activeJobs := q.activeJobs + 1 }.recordTaskState (message.failure lib)).workers[i]? =
        some (.fetched key message) := hworker
      rw [marks_release hworker', without_recordTaskState, marks_recordTaskState, failureMarks message hcall, add_zero]
      simp only [RedisWorker.marks, marks_of_call_ne hcall]
      exact .stay _
    · rename_i item hreceive
      have hworker' : ({ q with activeJobs := q.activeJobs + 1 }.recordTaskState (item.record .started)).workers[i]? =
        some (.fetched key message) := hworker
      rw [marks_setWorker hworker', without_recordTaskState, marks_recordTaskState]
      have hsame : marks c (without { q with activeJobs := q.activeJobs + 1 } (.worker i)) =
        (q.without (.worker i)).marks c := rfl
      rw [hsame]
      cases message with
      | own item' =>
        obtain rfl := Received.job.inj (hreceive.symm.trans (receive_own lib item'))
        simp only [RedisWorker.marks, Message.marks, QueuedTask.waitingMarks, QueuedTask.runningMarks]
        by_cases hitem : item.call = some c
        · rw [marks_started hitem, if_pos hitem, if_pos hitem, add_comm (marks c (q.without _))]
          exact .start item.attempt _
        · have hother : (item.record .started).call ≠ some c := hitem
          rw [marks_of_other hother, if_neg hitem, if_neg hitem, add_zero]
          exact .stay _
      | foreign payload =>
        have hitem : item.call ≠ some c := by
          rw [call_of_receive hreceive]
          intro hcall
          cases hcall
        have hother : (item.record .started).call ≠ some c := hitem
        simp only [RedisWorker.marks, Message.marks, QueuedTask.runningMarks, if_neg hitem, marks_of_other hother, add_zero]
        exact .stay _
  · exact .stay _

/-- What is recorded last of a job ends its call. -/
theorem end_moves {p : Prop} [Decidable p] (a : Int) (rest : Multiset Mark) :
    Moves .kept ((if p then {.running a} else 0) + rest) (0 + (rest + if p then {.ended} else 0)) := by
  rw [zero_add, add_comm rest]
  split
  · exact .finish a rest
  · exact .stay _

theorem terminalMarks {state : TaskState} (h : state.isTerminal = true) :
    (item.record state).marks c = if item.call = some c then {.ended} else 0 := by
  split
  · rename_i hcall
    exact marks_terminal hcall h
  · rename_i hcall
    exact marks_of_other hcall

theorem finish_moves (outcome : HandlerOutcome) : Moves .kept (q.marks c) ((q.finish config i outcome).marks c) := by
  unfold finish
  split
  · rename_i key job hworker
    have hworker' : ∀ r, (q.recordTaskState r).workers[i]? = some (.running key job) := fun _ => hworker
    have hended : ∀ r : Record, (r.marks c = if job.item.call = some c then {.ended} else 0) →
        Moves .kept (q.marks c) (((q.recordTaskState r).release i .polling).marks c) := by
      intro r hr
      rw [marks_of_worker c hworker, marks_release (hworker' r), without_recordTaskState, marks_recordTaskState, hr]
      exact end_moves _ _
    cases outcome with
    | raised exc => exact hended _ (jobMarks job)
    | value => exact hended _ (terminalMarks rfl)
    | result r =>
      simp only [handleResult]
      split
      · have hretry : (q.recordTaskState (job.item.record .retryScheduled)).marks c = q.marks c := by
          rw [marks_recordTaskState, marks_retryScheduled, add_zero]
        have hlast := hworker' (job.item.record .retryScheduled)
        rw [← hretry]
        generalize q.recordTaskState (job.item.record .retryScheduled) = q' at *
        rw [marks_of_worker c hlast]
        split
        · have hlast' : (q'.recordTaskState job.failure).workers[i]? = some (.running key job) := hlast
          rw [marks_release hlast', without_recordTaskState, marks_recordTaskState, jobMarks]
          exact end_moves _ _
        · have hlast' : ({ q' with knownQueues := addQueue q'.knownQueues (queueNameOf key) } :
            RedisTaskQueue tasks).workers[i]? = some (.running key job) := hlast
          have hsame : marks c (without { q' with knownQueues := addQueue q'.knownQueues (queueNameOf key) } (.worker i)) =
            (q'.without (.worker i)).marks c := rfl
          rw [marks_setWorker hlast', hsame]
          have hnext : job.item.next.waitingMarks c =
            if job.item.call = some c then {.waiting (job.item.attempt + 1)} else 0 := rfl
          simp only [RedisWorker.marks, Push.marks, Bool.false_eq_true, if_false]
          rw [hnext, QueuedTask.runningMarks]
          by_cases hcall : job.item.call = some c
          · rw [if_pos hcall, if_pos hcall]
            exact .retry (Int.lt_succ _) _
          · rw [if_neg hcall, if_neg hcall]
            exact .stay _
      · exact hended _ (terminalMarks (terminal_of_result r))
  · exact .stay _

theorem lose_moves : q.MovesOf (.lose i) (q.marks c) ((q.lose i).marks c) := by
  unfold lose
  split
  · rename_i key message hworker
    have hchange : q.change (.lose i) = .lost := by simp [change, hworker]
    rw [MovesOf, hchange, marks_of_worker c hworker, marks_setWorker hworker]
    simp only [RedisWorker.marks, zero_add]
    cases message with
    | own item =>
      simp only [Message.marks, QueuedTask.waitingMarks]
      split
      · exact .inr (.loseWaiting _ _)
      · rw [zero_add]
        exact .inl (.stay _)
    | foreign payload =>
      simp only [Message.marks, zero_add]
      exact .inl (.stay _)
  · exact .inl (.stay _)

/-- A worker that is gone takes its copy with it. -/
theorem gone_moves (worker : RedisWorker tasks) (rest : Multiset Mark) :
    Moves .kept (worker.marks c + rest) rest ∨
      worker.holdsMessage = true ∧ Moves .lost (worker.marks c + rest) rest := by
  have hwaiting : ∀ item : QueuedTask tasks, Moves .kept (item.waitingMarks c + rest) rest ∨
      Moves .lost (item.waitingMarks c + rest) rest := by
    intro item
    unfold QueuedTask.waitingMarks
    split
    · exact .inr (.loseWaiting _ _)
    · rw [zero_add]
      exact .inl (.stay _)
  cases worker with
  | polling | gone =>
    simp only [RedisWorker.marks, zero_add]
    exact .inl (.stay _)
  | fetched key message =>
    cases message with
    | own item => exact (hwaiting item).imp_right fun h => ⟨rfl, h⟩
    | foreign payload =>
      simp only [RedisWorker.marks, Message.marks, zero_add]
      exact .inl (.stay _)
  | running key job =>
    simp only [RedisWorker.marks, QueuedTask.runningMarks]
    split
    · exact .inr ⟨rfl, .loseRunning _ _⟩
    · rw [zero_add]
      exact .inl (.stay _)
  | requeuing push =>
    simp only [RedisWorker.marks, RedisWorker.holdsMessage, Push.marks]
    cases push.carried with
    | false => exact (hwaiting push.item).imp_right fun h => ⟨rfl, h⟩
    | true =>
      simp only [if_true]
      split
      · exact .inl (.confirm _)
      · rw [zero_add]
        exact .inl (.stay _)

theorem cancelled_moves : q.MovesOf (.cancelled i) (q.marks c) ((q.cancelled i).marks c) := by
  unfold cancelled
  split
  · rename_i hstopping
    have hgone : ∀ worker, ∀ q' : RedisTaskQueue tasks, q.workers[i]? = some worker → q'.marks c = 0 + (q.without (.worker i)).marks c →
        q.MovesOf (.cancelled i) (q.marks c) (q'.marks c) := by
      intro worker q' hworker hq'
      rw [MovesOf, marks_of_worker c hworker, hq', zero_add]
      refine (gone_moves worker _).imp_right fun ⟨hholds, hmoves⟩ => ?_
      simpa [change, hstopping, hworker, hholds] using hmoves
    split
    · rename_i hworker
      exact hgone _ _ hworker (marks_setWorker hworker)
    · rename_i hworker
      exact hgone _ _ hworker (marks_setWorker hworker)
    · rename_i hworker
      exact hgone _ _ hworker (marks_release hworker)
    · rename_i hworker
      exact hgone _ _ hworker (marks_release hworker)
    · exact .inl (.stay _)
  · exact .inl (.stay _)

/-! ## The fallback, starting and stopping -/

theorem fallback_moves {fallback : AsyncTaskQueue tasks} (h : Moves .kept (q.fallback.marks c) (fallback.marks c)) :
    Moves .kept (q.marks c) (marks c { q with fallback := fallback }) := by
  have hframe := h.frame (tally (fun entry => entry.2.marks c) q.lists + tally (callMarks c) q.enqueuing +
    tally (RedisWorker.marks c) q.workers + tally (Record.marks c) q.records)
  convert hframe using 1
  · simp only [marks]
    ac_rfl
  · simp only [marks]
    ac_rfl

theorem marks_fallback {fallback : AsyncTaskQueue tasks} (h : fallback.marks c = q.fallback.marks c) :
    marks c { q with fallback := fallback } = q.marks c := by
  simp only [marks, h]

theorem marks_start : (q.start config).marks c = q.marks c := by
  have hfallback : (q.fallback.start config.workerCount).marks c = q.fallback.marks c := AsyncTaskQueue.marks_start _
  simp only [start]
  split
  · rename_i hgo
    have hnone : q.workers = [] := hgo.2.1
    have hidle : tally (RedisWorker.marks c)
        (List.replicate (max 1 config.workerCount) (RedisWorker.polling : RedisWorker tasks)) = 0 :=
      tally_eq_zero fun w hw => by rw [List.eq_of_mem_replicate hw]; rfl
    simp only [marks, hfallback, hidle, hnone, tally_nil]
  · simp only [marks, hfallback]

theorem marks_stop : q.stop.marks c = q.marks c := by
  unfold stop
  split
  · exact marks_fallback AsyncTaskQueue.marks_stop
  · rfl

theorem marks_stopped : q.stopped.marks c = q.marks c := by
  unfold stopped
  split
  · rename_i hgone
    rw [Bool.and_eq_true, List.all_eq_true] at hgone
    have hidle : tally (RedisWorker.marks c) q.workers = 0 := by
      refine tally_eq_zero fun w hw => ?_
      have := hgone.2 w hw
      cases w with
      | gone => rfl
      | polling | fetched | running | requeuing => cases this
    simp only [marks, AsyncTaskQueue.marks_stop, hidle, tally_nil]
  · rfl

/-! ## Joining -/

@[simp] theorem marks_setJoiner (k : Nat) (joiner : RedisJoiner) : (q.setJoiner k joiner).marks c = q.marks c := rfl

theorem marks_fallbackJoined (k : Nat) : (q.fallbackJoined config k).marks c = q.marks c := by
  unfold fallbackJoined
  split
  · split
    · rfl
    · rw [marks_setJoiner]
      exact marks_fallback (AsyncTaskQueue.marks_joinReturns _)
  · rfl

theorem marks_check (k : Nat) : (q.check config k).marks c = q.marks c := by
  unfold check
  split
  · split <;> rfl
  · rfl

theorem marks_length (k : Nat) : (q.length config k).marks c = q.marks c := by
  unfold length
  split <;> rfl

theorem marks_lengthsUnavailable (k : Nat) : (q.lengthsUnavailable k).marks c = q.marks c := by
  unfold lengthsUnavailable
  split <;> rfl

theorem marks_deadline (k : Nat) : (q.deadline k).marks c = q.marks c := by
  unfold deadline
  split <;> rfl

/-! ## Every event -/

/-- The number of calls of `enqueue` so far. -/
def calls (q : RedisTaskQueue tasks) : Nat := q.enqueuing.length

@[simp] theorem calls_setPush : (q.setPush push who).calls = q.calls := by
  cases who with
  | call k => exact List.length_set
  | worker i => rfl

@[simp] theorem calls_endPush : (q.endPush who).calls = q.calls := by
  cases who with
  | call k => exact List.length_set
  | worker i => rfl

theorem calls_carry : (q.carry who).calls = q.calls := by
  unfold carry
  split
  · exact calls_setPush
  · rfl

theorem calls_confirm : (q.confirm who).calls = q.calls := by
  unfold confirm
  split
  · exact calls_endPush
  · rfl

theorem calls_fail : (q.fail who).calls = q.calls := by
  unfold fail
  split
  · exact calls_endPush
  · rfl

/-- Only the pushes themselves change the calls of `enqueue`. -/
theorem enqueuing_step {e : RedisEvent} (he : e matches .start | .stop | .stopped | .cancelled _ | .pop _ _ | .deliver _ | .lose _ |
    .finish _ _ | .foreign _ _ | .fallbackTake _ | .fallbackFinish _ _ | .fallbackStopReturns | .join |
    .fallbackJoined _ | .check _ | .length _ | .lengthsUnavailable _ | .deadline _) :
    (q.step lib config e).enqueuing = q.enqueuing := by
  cases e with
  | enqueue | carry | confirm | fail => cases he
  | finish i outcome =>
    simp only [step, finish]
    split
    · cases outcome with
      | raised | value => rfl
      | result r =>
        simp only [handleResult]
        repeat' split
        all_goals rfl
    · rfl
  | start =>
    simp only [step, start]
    split <;> rfl
  | stop =>
    simp only [step, stop]
    split <;> rfl
  | stopped =>
    simp only [step, stopped]
    split <;> rfl
  | cancelled i =>
    simp only [step, cancelled]
    repeat' split
    all_goals rfl
  | pop i queue =>
    simp only [step, pop]
    repeat' split
    all_goals rfl
  | deliver i =>
    simp only [step, deliver]
    repeat' split
    all_goals rfl
  | lose i =>
    simp only [step, lose]
    split <;> rfl
  | foreign | fallbackTake | fallbackFinish | fallbackStopReturns | join => rfl
  | fallbackJoined k =>
    simp only [step, fallbackJoined]
    repeat' split
    all_goals rfl
  | check k =>
    simp only [step, check]
    repeat' split
    all_goals rfl
  | length k =>
    simp only [step, length]
    split <;> rfl
  | lengthsUnavailable k =>
    simp only [step, lengthsUnavailable]
    split <;> rfl
  | deadline k =>
    simp only [step, deadline]
    split <;> rfl

theorem calls_of_enqueuing {q' : RedisTaskQueue tasks} (h : q'.enqueuing = q.enqueuing) : q'.calls = q.calls :=
  congrArg List.length h

/-- An event moves the marks of every call but a new one, whose first push it starts. -/
theorem step_moves (lib : TaskLib) (config : QueueConfig) (q : RedisTaskQueue tasks) (e : RedisEvent) (c : Nat) :
    q.MovesOf e (q.marks c) ((q.step lib config e).marks c) ∧ (q.step lib config e).calls = q.calls ∨
      (q.step lib config e).calls = q.calls + 1 ∧
        (q.step lib config e).marks c = q.marks c + if c = q.calls then {.waiting 1} else 0 := by
  have hstay : ∀ {q' : RedisTaskQueue tasks}, q'.marks c = q.marks c → q.MovesOf e (q.marks c) (q'.marks c) := fun h =>
    .inl (h ▸ .stay _)
  cases e with
  | enqueue taskName queue kwargs =>
    simp only [step, enqueue]
    split
    · exact .inl ⟨.inl (.stay _), rfl⟩
    · refine .inr ⟨List.length_append, ?_⟩
      simp only [marks, tally_snoc, callMarks, Option.elim_some, Push.marks, Bool.false_eq_true, if_false,
        QueuedTask.waitingMarks, QueuedTask.first, Option.some.injEq, eq_comm (a := q.enqueuing.length), calls]
      ac_rfl
  | foreign key payload => exact .inl ⟨hstay ((marks_of_list _).trans (add_zero _)), rfl⟩
  | carry who => exact .inl ⟨.inl carry_moves, calls_carry⟩
  | confirm who => exact .inl ⟨.inl confirm_moves, calls_confirm⟩
  | fail who => exact .inl ⟨fail_moves, calls_fail⟩
  | start => exact .inl ⟨hstay marks_start, calls_of_enqueuing (enqueuing_step rfl)⟩
  | stop => exact .inl ⟨hstay marks_stop, calls_of_enqueuing (enqueuing_step rfl)⟩
  | stopped => exact .inl ⟨hstay marks_stopped, calls_of_enqueuing (enqueuing_step rfl)⟩
  | cancelled i => exact .inl ⟨cancelled_moves, calls_of_enqueuing (enqueuing_step rfl)⟩
  | pop i queue => exact .inl ⟨.inl (pop_moves queue), calls_of_enqueuing (enqueuing_step rfl)⟩
  | deliver i => exact .inl ⟨.inl deliver_moves, calls_of_enqueuing (enqueuing_step rfl)⟩
  | lose i => exact .inl ⟨lose_moves, calls_of_enqueuing (enqueuing_step rfl)⟩
  | finish i outcome => exact .inl ⟨.inl (finish_moves outcome), calls_of_enqueuing (enqueuing_step rfl)⟩
  | fallbackTake i => exact .inl ⟨.inl (fallback_moves AsyncTaskQueue.take_moves), rfl⟩
  | fallbackFinish i outcome => exact .inl ⟨.inl (fallback_moves (AsyncTaskQueue.finish_moves outcome)), rfl⟩
  | fallbackStopReturns => exact .inl ⟨hstay (marks_fallback AsyncTaskQueue.marks_stopReturns), rfl⟩
  | join => exact .inl ⟨hstay (marks_fallback AsyncTaskQueue.marks_join), rfl⟩
  | fallbackJoined k => exact .inl ⟨hstay (marks_fallbackJoined k), calls_of_enqueuing (enqueuing_step rfl)⟩
  | check k => exact .inl ⟨hstay (marks_check k), calls_of_enqueuing (enqueuing_step rfl)⟩
  | length k => exact .inl ⟨hstay (marks_length k), calls_of_enqueuing (enqueuing_step rfl)⟩
  | lengthsUnavailable k => exact .inl ⟨hstay (marks_lengthsUnavailable k), calls_of_enqueuing (enqueuing_step rfl)⟩
  | deadline k => exact .inl ⟨hstay (marks_deadline k), calls_of_enqueuing (enqueuing_step rfl)⟩

end RedisTaskQueue

end Imghost.Tasks
