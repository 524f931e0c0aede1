/-
  Imghost.Tasks.SyncQueue — `SyncTaskQueue`, and the retry protocol in it.

  `enqueue` runs the task at once and tries it again in a loop. What it records is the
  protocol the other two queues are compared with: attempts one after the other from the
  first, at most as many as were registered, and one terminal state at the end
  (`protocol_of_sync`).
-/

import Imghost.Tasks.Types

namespace Imghost.Tasks

variable {tasks : TaskTable}

/-- What a handler's end comes to, of an attempt that may be followed by `maxAttempts - attempt`
    others: it is tried again, or a terminal state is recorded. -/
def SyncTaskQueue.loop (handler : Int → HandlerOutcome) (item : QueuedTask tasks) : List Record :=
  item.record .started ::
    match handler item.attempt with
    | .raised _ => [item.record .failedPermanent]
    | .value => [item.record .succeeded]
    | .result r =>
      if r.state = .retryScheduled ∧ r.retryable = true ∧ item.attempt < item.maxAttempts then
        item.record .retryScheduled :: item.next.record .queued :: SyncTaskQueue.loop handler item.next
      else [item.record (if r.state = .retryScheduled then .failedExhausted else r.state)]
termination_by (item.maxAttempts - item.attempt).toNat
decreasing_by
  simp only [QueuedTask.next]
  omega

/-- What `enqueue` records, of a task that is registered. -/
def SyncTaskQueue.enqueue (handler : Int → HandlerOutcome) (item : QueuedTask tasks) : List Record :=
  item.record .queued :: SyncTaskQueue.loop handler item

/-! ## The protocol -/

/-- The attempts whose handler was called. -/
def attempts (rs : List Record) : List (Option Int) := (rs.filter (·.state = .started)).map (·.attempt)

/-- One terminal state, at the end. -/
def EndsOnce (rs : List Record) : Prop := ∃ states last, rs.map (·.state) = states ++ [last] ∧ last.isTerminal = true ∧
  ∀ state ∈ states, state.isTerminal = false

/-- One task from its first attempt to its end. -/
structure Protocol (maxAttempts : Int) (rs : List Record) : Prop where
  attempts : ∃ k : Nat, 1 ≤ k ∧ (k : Int) ≤ max 1 maxAttempts ∧
    attempts rs = (List.range k).map fun j : Nat => some (1 + j : Int)
  ends : EndsOnce rs

variable {handler : Int → HandlerOutcome} {item : QueuedTask tasks}

/-- What one turn of the loop comes to: the task ends, or goes on with its next attempt. -/
theorem loop_cases (handler : Int → HandlerOutcome) (item : QueuedTask tasks) :
    (∃ state : TaskState, state.isTerminal = true ∧
      SyncTaskQueue.loop handler item = [item.record .started, item.record state]) ∨
    item.attempt < item.maxAttempts ∧ SyncTaskQueue.loop handler item =
      item.record .started :: item.record .retryScheduled :: item.next.record .queued :: SyncTaskQueue.loop handler item.next := by
  rw [SyncTaskQueue.loop]
  cases handler item.attempt with
  | raised exc => exact .inl ⟨_, rfl, rfl⟩
  | value => exact .inl ⟨_, rfl, rfl⟩
  | result r =>
    by_cases hretry : r.state = .retryScheduled ∧ r.retryable = true ∧ item.attempt < item.maxAttempts
    · simp only [if_pos hretry]
      exact .inr ⟨hretry.2.2, trivial⟩
    · simp only [if_neg hretry]
      exact .inl ⟨_, terminal_of_result r, rfl⟩

theorem attempts_last {state : TaskState} (h : state.isTerminal = true) :
    attempts [item.record .started, item.record state] = [some item.attempt] := by
  cases state with
  | started => cases h
  | queued | skipped | retryScheduled | succeeded | failedPermanent | failedExhausted => rfl

/-- The attempts from one on, without a gap, and no more than there may be. -/
theorem loop_attempts (handler : Int → HandlerOutcome) (item : QueuedTask tasks) (h : item.attempt ≤ item.maxAttempts) :
    ∃ k : Nat, 1 ≤ k ∧ item.attempt + k ≤ item.maxAttempts + 1 ∧
      attempts (SyncTaskQueue.loop handler item) = (List.range k).map fun j : Nat => some (item.attempt + j) := by
  induction hn : (item.maxAttempts - item.attempt).toNat generalizing item with
  | zero =>
    rcases loop_cases handler item with ⟨state, hstate, hloop⟩ | ⟨hlt, -⟩
    · exact ⟨1, le_rfl, by omega, by simp [hloop, attempts_last hstate]⟩
    · omega
  | succ n ih =>
    rcases loop_cases handler item with ⟨state, hstate, hloop⟩ | ⟨hlt, hloop⟩
    · exact ⟨1, le_rfl, by omega, by simp [hloop, attempts_last hstate]⟩
    · have hnext : item.next.attempt = item.attempt + 1 ∧ item.next.maxAttempts = item.maxAttempts := ⟨rfl, rfl⟩
      obtain ⟨k, hk, hle, hattempts⟩ := ih item.next (by omega) (by omega)
      refine ⟨k + 1, by omega, by omega, ?_⟩
      have hcons : attempts (SyncTaskQueue.loop handler item) =
          some item.attempt :: attempts (SyncTaskQueue.loop handler item.next) := by
        rw [hloop]
        rfl
      rw [hcons, hattempts, List.range_succ_eq_map, List.map_cons, List.map_map, hnext.1]
      refine congrArg₂ List.cons (congrArg some (by omega)) (List.map_congr_left fun j _ => congrArg some ?_)
      show item.attempt + 1 + (j : Int) = item.attempt + ((j + 1 : Nat) : Int)
      omega

theorem endsOnce_last {r : Record} (h : r.state.isTerminal = true) : EndsOnce [r] := ⟨[], r.state, rfl, h, nofun⟩

theorem EndsOnce.cons {rs : List Record} {r : Record} (h : EndsOnce rs) (hr : r.state.isTerminal = false) :
    EndsOnce (r :: rs) := by
  obtain ⟨states, last, hstates, hlast, hearlier⟩ := h
  refine ⟨r.state :: states, last, by rw [List.map_cons, hstates]; rfl, hlast, fun state hstate => ?_⟩
  rcases List.mem_cons.mp hstate with rfl | hstate
  · exact hr
  · exact hearlier state hstate

theorem loop_ends (handler : Int → HandlerOutcome) (item : QueuedTask tasks) : EndsOnce (SyncTaskQueue.loop handler item) := by
  induction hn : (item.maxAttempts - item.attempt).toNat generalizing item with
  | zero =>
    rcases loop_cases handler item with ⟨state, hstate, hloop⟩ | ⟨hlt, -⟩
    · rw [hloop]
      exact (endsOnce_last hstate).cons rfl
    · omega
  | succ n ih =>
    rcases loop_cases handler item with ⟨state, hstate, hloop⟩ | ⟨hlt, hloop⟩
    · rw [hloop]
      exact (endsOnce_last hstate).cons rfl
    · have hnext : item.next.attempt = item.attempt + 1 ∧ item.next.maxAttempts = item.maxAttempts := ⟨rfl, rfl⟩
      rw [hloop]
      exact (((ih item.next (by omega)).cons rfl).cons rfl).cons rfl

/-- A call of `enqueue` follows the protocol, of a task that was registered. -/
theorem protocol_of_sync (handler : Int → HandlerOutcome) {call : Nat} {taskName defaultQueue : String} {kwargs : Kwargs}
    {maxAttempts : Int} {passRetryMetadata : Bool}
    (h : tasks taskName = some (register defaultQueue maxAttempts passRetryMetadata)) :
    Protocol maxAttempts (SyncTaskQueue.enqueue handler (.first call taskName kwargs _ h)) where
  attempts := by
    have hle : (QueuedTask.first call taskName kwargs _ h).attempt ≤ (QueuedTask.first call taskName kwargs _ h).maxAttempts :=
      le_max_left 1 maxAttempts
    obtain ⟨k, hk, hbound, hattempts⟩ := loop_attempts handler (QueuedTask.first call taskName kwargs _ h) hle
    have hmax : (1 : Int) + k ≤ max 1 maxAttempts + 1 := hbound
    exact ⟨k, hk, by omega, hattempts⟩
  ends := (loop_ends handler _).cons rfl

end Imghost.Tasks
