/-
  Imghost.Tasks.RetryQueues — which list a retry is pushed onto.

  `enqueue` writes the name of a queue behind the marker `queue:`, behind the prefix. A worker
  has the key only, and takes what stands behind the last marker in it for the name. A marker in
  the prefix does no harm. One in the name does: the worker takes a part of the name, and the
  retry goes onto the list of another queue (`a_retry_leaves_its_queue`).

  What is proved (`retries_return_iff`): the worker's name is that of the queue, and in every run all copies of the
  task lie in the list it was first pushed onto, exactly if the name has no marker in it.
-/

import Imghost.Tasks.Handover

namespace Imghost.Tasks.RetryQueues

open Imghost.Data Draining Handover

/-- What stands before a name in a key. -/
def marker : List Char := ['q', 'u', 'e', 'u', 'e', ':']

/-! ## The last marker -/

section

variable {first : Char} {others l : List Char}

theorem afterLast_cons (sep : List Char) (c : Char) (l : List Char) :
    afterLast sep (c :: l) = (afterLast sep l).or (if sep.isPrefixOf (c :: l) then some ((c :: l).drop sep.length) else none) :=
  rfl

/-- Nothing stands behind a separator that does not occur. -/
theorem afterLast_eq_none : afterLast (first :: others) l = none ↔ ¬ first :: others <:+: l := by
  induction l with
  | nil => exact iff_of_true rfl (by simp)
  | cons c l ih =>
    rw [afterLast_cons, Option.or_eq_none_iff, ih, List.infix_cons_iff, not_or, and_comm]
    apply and_congr_left
    intro
    rw [← List.isPrefixOf_iff_prefix]
    split
    · rename_i h
      simp [h]
    · rename_i h
      simp [h]

/-- Characters that no separator begins with are passed over. -/
theorem afterLast_skip {xs : List Char} (h : first ∉ xs) : afterLast (first :: others) (xs ++ l) = afterLast (first :: others) l := by
  induction xs with
  | nil => rfl
  | cons c xs ih =>
    obtain ⟨hc, hxs⟩ := not_or.mp (mt List.mem_cons.mpr h)
    have hprefix : (first :: others).isPrefixOf (c :: (xs ++ l)) = false := by simp [List.isPrefixOf, hc]
    rw [List.cons_append, afterLast_cons, hprefix, ih hxs]
    simp

/-- Behind a separator, the last one counts. -/
theorem afterLast_sep (h : first ∉ others) :
    afterLast (first :: others) (first :: others ++ l) = some ((afterLast (first :: others) l).getD l) := by
  have hprefix : (first :: others).isPrefixOf (first :: (others ++ l)) = true := by
    rw [List.isPrefixOf_iff_prefix]
    exact List.prefix_append (first :: others) l
  have hdrop : (first :: (others ++ l)).drop (first :: others).length = l := List.drop_left' rfl
  rw [List.cons_append, afterLast_cons, afterLast_skip h, hprefix, if_pos rfl, hdrop]
  cases afterLast (first :: others) l <;> rfl

/-- What stands before a separator does not matter. -/
theorem afterLast_append {r : List Char} (h : afterLast (first :: others) l = some r) (xs : List Char) :
    afterLast (first :: others) (xs ++ l) = some r := by
  induction xs with
  | nil => exact h
  | cons c xs ih => rw [List.cons_append, afterLast_cons, ih, Option.some_or]

theorem afterLast_length {r : List Char} (h : afterLast (first :: others) l = some r) : r.length < l.length := by
  induction l with
  | nil => cases h
  | cons c l ih =>
    rw [afterLast_cons] at h
    cases hl : afterLast (first :: others) l with
    | some r' =>
      rw [hl, Option.some_or] at h
      obtain rfl := Option.some.inj h
      exact Nat.lt_succ_of_lt (ih hl)
    | none =>
      rw [hl, Option.none_or] at h
      split at h
      · obtain rfl := Option.some.inj h
        simp only [List.length_drop, List.length_cons]
        omega
      · cases h

/-- `text.split(sep)`, from the left; `skip` characters are of a separator that was met. -/
def split (sep : List Char) : Nat → List Char → List (List Char)
  | _, [] => [[]]
  | skip + 1, _ :: text => split sep skip text
  | 0, c :: text =>
    if sep.isPrefixOf (c :: text) then [] :: split sep (sep.length - 1) text
    else
      match split sep 0 text with
      | [] => [[c]]
      | piece :: pieces => (c :: piece) :: pieces

theorem split_skip (sep : List Char) (n : Nat) (text : List Char) : split sep n text = split sep 0 (text.drop n) := by
  induction text generalizing n with
  | nil => rw [List.drop_nil, split, split]
  | cons c text ih =>
    cases n with
    | zero => rfl
    | succ n => rw [split, ih, List.drop_succ_cons]

/-- The last piece is what stands behind the last separator, if the separator's first character is not met in it again. -/
theorem split_last (h : first ∉ others) (text : List Char) :
    (split (first :: others) 0 text).getLast? = some ((afterLast (first :: others) text).getD text) := by
  have hboth : ∀ n text, List.length text ≤ n →
      (afterLast (first :: others) text = none → split (first :: others) 0 text = [text]) ∧
      (∀ r, afterLast (first :: others) text = some r →
        ∃ piece pieces, split (first :: others) 0 text = piece :: pieces ∧ pieces.getLast? = some r) := by
    intro n
    induction n with
    | zero =>
      intro text hlength
      obtain rfl := List.length_eq_zero_iff.mp (Nat.le_zero.mp hlength)
      exact ⟨fun _ => rfl, nofun⟩
    | succ n ih =>
      intro text hlength
      cases text with
      | nil => exact ⟨fun _ => rfl, nofun⟩
      | cons c text =>
        rw [List.length_cons] at hlength
        by_cases hprefix : (first :: others).isPrefixOf (c :: text) = true
        · obtain ⟨rest, hrest⟩ := List.isPrefixOf_iff_prefix.mp hprefix
          have htext : text = others ++ rest := (List.cons.inj hrest).2.symm
          have hsplit : split (first :: others) 0 (c :: text) = [] :: split (first :: others) 0 rest := by
            rw [split, if_pos hprefix, split_skip, htext]
            simp
          have hrestlength : rest.length ≤ n := by
            rw [htext, List.length_append] at hlength
            omega
          obtain ⟨hnone, hsome⟩ := ih rest hrestlength
          rw [← hrest, afterLast_sep h, hrest, hsplit]
          refine ⟨nofun, ?_⟩
          intro r hr
          refine ⟨[], _, rfl, ?_⟩
          rw [← Option.some.inj hr]
          cases hafter : afterLast (first :: others) rest with
          | none => rw [hnone hafter]; rfl
          | some r' =>
            obtain ⟨piece, pieces, hpieces, hlast⟩ := hsome r' hafter
            rw [hpieces, List.getLast?_cons, hlast]
            rfl
        · obtain ⟨hnone, hsome⟩ := ih text (by omega)
          rw [afterLast_cons, if_neg hprefix, Option.or_none, split, if_neg hprefix]
          constructor
          · intro hafter
            rw [hnone hafter]
          · intro r hr
            obtain ⟨piece, pieces, hpieces, hlast⟩ := hsome r hr
            rw [hpieces]
            exact ⟨_, _, rfl, hlast⟩
  obtain ⟨hnone, hsome⟩ := hboth text.length text le_rfl
  cases hafter : afterLast (first :: others) text with
  | none => rw [hnone hafter]; rfl
  | some r =>
    obtain ⟨piece, pieces, hpieces, hlast⟩ := hsome r hafter
    rw [hpieces, List.getLast?_cons, hlast]
    rfl

end

/-! ## Keys -/

/-- `str(queue_key).split("queue:")[-1]` is the model's. -/
theorem queueNameOf_split (key : String) : (split marker 0 key.toList).getLast? = some (queueNameOf key).toList := by
  rw [marker, split_last (by decide), queueNameOf, String.toList_ofList]

/-- A worker takes for the name what it would take for it in the name alone. -/
theorem queueNameOf_key (config : QueueConfig) (name : String) : queueNameOf (config.queueKey name) = queueNameOf name := by
  have hkey : ∃ before, (config.queueKey name).toList = before ++ (marker ++ name.toList) := by
    unfold QueueConfig.queueKey
    split
    · exact ⟨[], by simp [marker]⟩
    · exact ⟨config.keyPrefix.toList ++ [':'], by simp [marker]⟩
  obtain ⟨before, hkey⟩ := hkey
  have hafter : afterLast marker (config.queueKey name).toList = some ((afterLast marker name.toList).getD name.toList) := by
    rw [hkey]
    exact afterLast_append (afterLast_sep (by decide)) before
  have hmarker : ['q', 'u', 'e', 'u', 'e', ':'] = marker := rfl
  rw [queueNameOf, queueNameOf, hmarker, hafter, Option.getD_some]

/-- A name is taken for itself exactly if it has no marker in it. -/
theorem queueNameOf_eq_iff (name : String) : queueNameOf name = name ↔ ¬ marker <:+: name.toList := by
  rw [marker, ← afterLast_eq_none, queueNameOf]
  cases hafter : afterLast ['q', 'u', 'e', 'u', 'e', ':'] name.toList with
  | none => simp
  | some r =>
    have hlength := afterLast_length hafter
    simp only [Option.getD_some, reduceCtorEq, iff_false]
    intro h
    rw [← h, String.toList_ofList] at hlength
    exact Nat.lt_irrefl _ hlength

/-! ## Where a task's copies are -/

variable {tasks : TaskTable} {lib : TaskLib} {config : QueueConfig} {q q' : RedisTaskQueue tasks} {i : Nat} {who : Pusher}
  {push : Push tasks} {worker : RedisWorker tasks} {place : Option Nat × String}

/-- The call a push is of, and its key. -/
def pushPlace (push : Push tasks) : Option Nat × String := (push.item.call, push.key)

def workerPlace : RedisWorker tasks → Option (Option Nat × String)
  | .fetched key message => some (message.call, key)
  | .running key job => some (job.item.call, key)
  | .requeuing push => some (pushPlace push)
  | .polling | .gone => none

/-- The calls whose tasks are in Redis, on their way there or with a worker, and their keys. -/
def places (q : RedisTaskQueue tasks) : List (Option Nat × String) :=
  q.lists.map (fun entry => (entry.2.call, entry.1)) ++ q.enqueuing.filterMap (·.map pushPlace) ++ q.workers.filterMap workerPlace

theorem mem_places : place ∈ places q ↔ (∃ entry ∈ q.lists, (entry.2.call, entry.1) = place) ∨
    (∃ push, some push ∈ q.enqueuing ∧ pushPlace push = place) ∨ ∃ worker ∈ q.workers, workerPlace worker = some place := by
  simp [places]

theorem places_congr (hlists : q'.lists = q.lists) (henqueuing : q'.enqueuing = q.enqueuing) (hworkers : q'.workers = q.workers) :
    places q' = places q := by
  rw [places, hlists, henqueuing, hworkers, places]

theorem place_of_worker (h : q.workers[i]? = some worker) (hplace : workerPlace worker = some place) : place ∈ places q :=
  mem_places.2 (.inr (.inr ⟨worker, List.mem_of_getElem? h, hplace⟩))

theorem place_of_push (h : q.push? who = some push) : pushPlace push ∈ places q := by
  cases who with
  | call k => exact mem_places.2 (.inr (.inl ⟨push, List.mem_of_getElem? (RedisTaskQueue.call_of_push? h), rfl⟩))
  | worker i => exact place_of_worker (RedisTaskQueue.worker_of_push? h) rfl

/-! ### What the updates do to them -/

theorem places_setWorker (h : place ∈ places (q.setWorker i worker)) : place ∈ places q ∨ workerPlace worker = some place := by
  rcases mem_places.1 h with hlist | hpush | ⟨w, hw, hplace⟩
  · exact .inl (mem_places.2 (.inl hlist))
  · exact .inl (mem_places.2 (.inr (.inl hpush)))
  · rcases List.mem_or_eq_of_mem_set hw with hold | rfl
    · exact .inl (mem_places.2 (.inr (.inr ⟨w, hold, hplace⟩)))
    · exact .inr hplace

theorem places_release (h : place ∈ places (q.release i worker)) : place ∈ places q ∨ workerPlace worker = some place :=
  @places_setWorker _ { q with activeJobs := q.activeJobs - 1 } i worker place h

theorem places_setPush (h : place ∈ places (q.setPush push who)) : place ∈ places q ∨ place = pushPlace push := by
  cases who with
  | call k =>
    rcases mem_places.1 h with hlist | ⟨p, hp, hplace⟩ | hworker
    · exact .inl (mem_places.2 (.inl hlist))
    · rcases List.mem_or_eq_of_mem_set hp with hold | hnew
      · exact .inl (mem_places.2 (.inr (.inl ⟨p, hold, hplace⟩)))
      · rw [← hplace, Option.some.inj hnew]
        exact .inr rfl
    · exact .inl (mem_places.2 (.inr (.inr hworker)))
  | worker i =>
    rcases places_setWorker h with hold | hnew
    · exact .inl hold
    · exact .inr (Option.some.inj hnew).symm

theorem places_endPush (h : place ∈ places (q.endPush who)) : place ∈ places q := by
  cases who with
  | call k =>
    rcases mem_places.1 h with hlist | ⟨p, hp, hplace⟩ | hworker
    · exact mem_places.2 (.inl hlist)
    · rcases List.mem_or_eq_of_mem_set hp with hold | hnew
      · exact mem_places.2 (.inr (.inl ⟨p, hold, hplace⟩))
      · cases hnew
    · exact mem_places.2 (.inr (.inr hworker))
  | worker i =>
    rcases places_release h with hold | hnew
    · exact hold
    · cases hnew

/-! ### What an event does to them -/

/-- A place after an event that begins no call: it was there, is of no call, or is where a retry goes. -/
inductive PlaceAfter (config : QueueConfig) (q : RedisTaskQueue tasks) : Option Nat × String → Prop
  | old {place : Option Nat × String} (h : place ∈ places q) : PlaceAfter config q place
  | foreign (key : String) : PlaceAfter config q (none, key)
  | retry {place : Option Nat × String} (h : place ∈ places q) :
      PlaceAfter config q (place.1, config.queueKey (queueNameOf place.2))

theorem carry_places (h : place ∈ places (q.carry who)) : place ∈ places q := by
  unfold RedisTaskQueue.carry at h
  split at h
  · rename_i item key hpush
    have hplace := place_of_push hpush
    rcases places_setPush h with hold | rfl
    · rcases mem_places.1 hold with ⟨entry, hentry, hcall⟩ | hpushes | hworkers
      · rcases List.mem_append.mp hentry with hlist | hlast
        · exact mem_places.2 (.inl ⟨entry, hlist, hcall⟩)
        · rw [← hcall, List.mem_singleton.mp hlast]
          exact hplace
      · exact mem_places.2 (.inr (.inl hpushes))
      · exact mem_places.2 (.inr (.inr hworkers))
    · exact hplace
  · exact h

theorem pop_places {queue : String} (h : place ∈ places (q.pop config i queue)) : place ∈ places q := by
  simp only [RedisTaskQueue.pop] at h
  split at h
  · rename_i entry hworker hentry
    split at h
    · rcases places_setWorker h with hold | hnew
      · rcases mem_places.1 hold with ⟨e, he, hcall⟩ | hpushes | hworkers
        · exact mem_places.2 (.inl ⟨e, List.mem_of_mem_eraseP he, hcall⟩)
        · exact mem_places.2 (.inr (.inl hpushes))
        · exact mem_places.2 (.inr (.inr hworkers))
      · exact mem_places.2 (.inl ⟨entry, List.mem_of_find?_eq_some hentry, Option.some.inj hnew⟩)
    · exact h
  · exact h

theorem deliver_places (h : place ∈ places (q.deliver lib i)) : place ∈ places q := by
  unfold RedisTaskQueue.deliver at h
  split at h
  · rename_i key message hworker
    split at h
    · rcases places_release h with hold | hnew
      · exact hold
      · cases hnew
    · rcases places_release h with hold | hnew
      · exact hold
      · cases hnew
    · rename_i item hreceive
      rcases places_setWorker h with hold | hnew
      · exact hold
      · rw [← Option.some.inj hnew]
        exact place_of_worker hworker (by rw [workerPlace, call_of_receive hreceive])
  · exact h

/-- Only here does a task get a key of its own making. -/
theorem finish_places {outcome : HandlerOutcome} (h : place ∈ places (q.finish config i outcome)) : PlaceAfter config q place := by
  unfold RedisTaskQueue.finish at h
  split at h
  · rename_i key job hworker
    have hjob : (job.item.call, key) ∈ places q := place_of_worker hworker rfl
    have hreleased : ∀ {r : Record}, place ∈ places ((q.recordTaskState r).release i .polling) → PlaceAfter config q place := by
      intro r hr
      rcases places_release hr with hold | hnew
      · exact .old hold
      · cases hnew
    cases outcome with
    | raised exc => exact hreleased h
    | value => exact hreleased h
    | result r =>
      simp only [RedisTaskQueue.handleResult] at h
      split at h
      · split at h
        · rcases places_release h with hold | hnew
          · exact .old hold
          · cases hnew
        · rcases places_setWorker h with hold | hnew
          · exact .old hold
          · rw [← Option.some.inj hnew]
            exact .retry hjob
      · exact hreleased h
  · exact .old h

theorem cancelled_places (h : place ∈ places (q.cancelled i)) : place ∈ places q := by
  unfold RedisTaskQueue.cancelled at h
  split at h
  · split at h
    · rcases places_setWorker h with hold | hnew
      · exact hold
      · cases hnew
    · rcases places_setWorker h with hold | hnew
      · exact hold
      · cases hnew
    · rcases places_release h with hold | hnew
      · exact hold
      · cases hnew
    · rcases places_release h with hold | hnew
      · exact hold
      · cases hnew
    · exact h
  · exact h

/-- A new call begins on the list of its queue. -/
theorem enqueue_places {taskName : String} {queue : Option String} {kwargs : Kwargs} {task : RegisteredTask}
    (htask : tasks taskName = some task) (h : place ∈ places (q.enqueue config taskName queue kwargs)) :
    place ∈ places q ∨ place = (some q.calls, config.queueKey (queue.getD task.defaultQueue)) := by
  unfold RedisTaskQueue.enqueue at h
  split at h
  · exact .inl h
  · rename_i task' htask'
    obtain rfl := Option.some.inj (htask'.symm.trans htask)
    rcases mem_places.1 h with hlist | ⟨push, hpush, hplace⟩ | hworker
    · exact .inl (mem_places.2 (.inl hlist))
    · rcases List.mem_append.mp hpush with hold | hnew
      · exact .inl (mem_places.2 (.inr (.inl ⟨push, hold, hplace⟩)))
      · rw [← hplace, Option.some.inj (List.mem_singleton.mp hnew)]
        exact .inr rfl
    · exact .inl (mem_places.2 (.inr (.inr hworker)))

theorem step_places {e : RedisEvent} (h : place ∈ places (q.step lib config e)) :
    PlaceAfter config q place ∨ place.1 = some q.calls ∧ (q.step lib config e).calls = q.calls + 1 := by
  cases e with
  | enqueue taskName queue kwargs =>
    cases htask : tasks taskName with
    | none =>
      have hsame : q.step lib config (.enqueue taskName queue kwargs) = q := by
        simp only [RedisTaskQueue.step, RedisTaskQueue.enqueue]
        split
        · rfl
        · rename_i hsome
          rw [htask] at hsome
          cases hsome
      rw [hsame] at h
      exact .inl (.old h)
    | some task =>
      rcases enqueue_places htask h with hold | rfl
      · exact .inl (.old hold)
      · refine .inr ⟨rfl, ?_⟩
        simp only [RedisTaskQueue.step, RedisTaskQueue.enqueue]
        split
        · rename_i hnone
          rw [htask] at hnone
          cases hnone
        · exact List.length_append
  | foreign key payload =>
    rcases mem_places.1 h with ⟨entry, hentry, hcall⟩ | hpushes | hworkers
    · rcases List.mem_append.mp hentry with hlist | hlast
      · exact .inl (.old (mem_places.2 (.inl ⟨entry, hlist, hcall⟩)))
      · rw [← hcall, List.mem_singleton.mp hlast]
        exact .inl (.foreign key)
    · exact .inl (.old (mem_places.2 (.inr (.inl hpushes))))
    · exact .inl (.old (mem_places.2 (.inr (.inr hworkers))))
  | carry who => exact .inl (.old (carry_places h))
  | confirm who =>
    simp only [RedisTaskQueue.step, RedisTaskQueue.confirm] at h
    split at h
    · have hold := places_endPush h
      exact .inl (.old hold)
    · exact .inl (.old h)
  | fail who =>
    simp only [RedisTaskQueue.step, RedisTaskQueue.fail] at h
    split at h
    · have hold := places_endPush h
      exact .inl (.old hold)
    · exact .inl (.old h)
  | pop i queue => exact .inl (.old (pop_places h))
  | deliver i => exact .inl (.old (deliver_places h))
  | lose i =>
    simp only [RedisTaskQueue.step, RedisTaskQueue.lose] at h
    split at h
    · rcases places_setWorker h with hold | hnew
      · exact .inl (.old hold)
      · cases hnew
    · exact .inl (.old h)
  | finish i outcome => exact .inl (finish_places h)
  | cancelled i => exact .inl (.old (cancelled_places h))
  | start =>
    simp only [RedisTaskQueue.step, RedisTaskQueue.start] at h
    split at h
    · rcases mem_places.1 h with hlist | hpushes | ⟨worker, hworker, hplace⟩
      · exact .inl (.old (mem_places.2 (.inl hlist)))
      · exact .inl (.old (mem_places.2 (.inr (.inl hpushes))))
      · rw [List.eq_of_mem_replicate hworker] at hplace
        cases hplace
    · exact .inl (.old h)
  | stop =>
    simp only [RedisTaskQueue.step, RedisTaskQueue.stop] at h
    split at h <;> exact .inl (.old h)
  | stopped =>
    simp only [RedisTaskQueue.step, RedisTaskQueue.stopped] at h
    split at h
    · rcases mem_places.1 h with hlist | hpushes | ⟨worker, hworker, -⟩
      · exact .inl (.old (mem_places.2 (.inl hlist)))
      · exact .inl (.old (mem_places.2 (.inr (.inl hpushes))))
      · cases hworker
    · exact .inl (.old h)
  | fallbackTake i | fallbackFinish i outcome | fallbackStopReturns | join => exact .inl (.old h)
  | fallbackJoined k =>
    simp only [RedisTaskQueue.step, RedisTaskQueue.fallbackJoined] at h
    repeat' split at h
    all_goals exact .inl (.old h)
  | check k =>
    simp only [RedisTaskQueue.step, RedisTaskQueue.check] at h
    repeat' split at h
    all_goals exact .inl (.old h)
  | length k =>
    simp only [RedisTaskQueue.step, RedisTaskQueue.length] at h
    split at h <;> exact .inl (.old h)
  | lengthsUnavailable k =>
    simp only [RedisTaskQueue.step, RedisTaskQueue.lengthsUnavailable] at h
    split at h <;> exact .inl (.old h)
  | deadline k =>
    simp only [RedisTaskQueue.step, RedisTaskQueue.deadline] at h
    split at h <;> exact .inl (.old h)

theorem calls_le (lib : TaskLib) (config : QueueConfig) (q : RedisTaskQueue tasks) (e : RedisEvent) :
    q.calls ≤ (q.step lib config e).calls := by
  rcases q.step_moves lib config e 0 with ⟨-, hcalls⟩ | ⟨hcalls, -⟩ <;> omega

/-! ## Runs -/

/-- No call has a place before it is made. -/
def Known (q : RedisTaskQueue tasks) : Prop := ∀ place ∈ places q, ∀ c, place.1 = some c → c < q.calls

theorem Known.step (h : Known q) (e : RedisEvent) : Known (q.step lib config e) := by
  intro place hplace c hc
  have hle := calls_le lib config q e
  rcases step_places hplace with hafter | ⟨hnew, hcalls⟩
  · cases hafter with
    | old hold => exact Nat.lt_of_lt_of_le (h _ hold c hc) hle
    | foreign key => cases hc
    | retry hold => exact Nat.lt_of_lt_of_le (h _ hold c hc) hle
  · rw [hc, Option.some.injEq] at hnew
    omega

/-- All copies of a call's task are under one key. -/
structure Home (c : Nat) (key : String) (q : RedisTaskQueue tasks) : Prop where
  made : c < q.calls
  key : ∀ place ∈ places q, place.1 = some c → place.2 = key

theorem Home.step {c : Nat} {name : String} (hname : ¬ marker <:+: name.toList) (h : Home c (config.queueKey name) q) (e : RedisEvent) :
    Home c (config.queueKey name) (q.step lib config e) where
  made := Nat.lt_of_lt_of_le h.made (calls_le lib config q e)
  key place hplace hc := by
    rcases step_places hplace with hafter | ⟨hnew, -⟩
    · cases hafter with
      | old hold => exact h.key _ hold hc
      | foreign key => cases hc
      | retry hold =>
        -- the worker finds the name again
        rw [h.key _ hold hc, queueNameOf_key, (queueNameOf_eq_iff name).mpr hname]
    · have hmade := h.made
      rw [hc, Option.some.injEq] at hnew
      omega

/-- In every run, all copies of a task that is enqueued under the name lie in the list of that queue, on their way there,
    or with a worker that has them from there. -/
def StaysHome (config : QueueConfig) (name : String) : Prop :=
  ∀ (tasks : TaskTable) (lib : TaskLib) (before after : List RedisEvent) (taskName : String) (queue : Option String)
    (kwargs : Kwargs) (task : RegisteredTask), tasks taskName = some task → queue.getD task.defaultQueue = name →
    ∀ place ∈ places (RedisTaskQueue.run lib config (.init config : RedisTaskQueue tasks) (before ++ .enqueue taskName queue kwargs :: after)),
      place.1 = some (RedisTaskQueue.run lib config (.init config : RedisTaskQueue tasks) before).calls →
        place.2 = config.queueKey name

theorem staysHome {name : String} (hname : ¬ marker <:+: name.toList) : StaysHome config name := by
  intro tasks lib before after taskName queue kwargs task htask hqueue
  have hknown : Known (RedisTaskQueue.run lib config (.init config : RedisTaskQueue tasks) before) := by
    apply runEvents_invariant (I := Known) (fun q e h _ => h.step e) _ along_true
    intro place hplace
    cases hplace
  rw [RedisTaskQueue.run, runEvents_append, runEvents_cons]
  have hhome : Home (RedisTaskQueue.run lib config (.init config : RedisTaskQueue tasks) before).calls (config.queueKey name)
      (RedisTaskQueue.step lib config (RedisTaskQueue.run lib config (.init config : RedisTaskQueue tasks) before)
        (.enqueue taskName queue kwargs)) := by
    constructor
    · simp only [RedisTaskQueue.step, RedisTaskQueue.enqueue]
      split
      · rename_i hnone
        rw [htask] at hnone
        cases hnone
      · simp [RedisTaskQueue.calls]
    · intro place hplace hc
      rcases enqueue_places htask hplace with hold | rfl
      · exact absurd (hknown place hold _ hc) (Nat.lt_irrefl _)
      · rw [hqueue]
  exact (runEvents_invariant (I := Home _ _) (fun q e h _ => h.step hname e) hhome along_true).key

/-- A worker finds the name of the queue in the key, and a retry goes back to its list, exactly if the name has no marker in
    it. -/
theorem retries_return_iff (config : QueueConfig) (name : String) :
    (queueNameOf (config.queueKey name) = name ∧ StaysHome config name) ↔ ¬ marker <:+: name.toList := by
  rw [queueNameOf_key, queueNameOf_eq_iff]
  constructor
  · intro h
    exact h.1
  · intro h
    exact ⟨h, staysHome h⟩

/-- One worker, of one queue. -/
def oneQueue : QueueConfig := ⟨"imghost", true, 1, some ["queue:thumbnails"]⟩

/-- A task under that name, up to the push of its retry. -/
def retried : List RedisEvent :=
  [.start, .enqueue "demo" (some "queue:thumbnails") [], .carry (.call 0), .confirm (.call 0), .pop 0 "queue:thumbnails", .deliver 0,
    .finish 0 (.result ⟨.retryScheduled, none, true, retryScheduled_reported⟩), .carry (.worker 0), .confirm (.worker 0)]

/-- The list it came from is `imghost:queue:queue:thumbnails`; no worker reads the other one. -/
theorem a_retry_leaves_its_queue :
    oneQueue.queueKey "queue:thumbnails" = "imghost:queue:queue:thumbnails" ∧
      queueNameOf (oneQueue.queueKey "queue:thumbnails") = "thumbnails" ∧
      (RedisTaskQueue.run demoLib oneQueue (.init oneQueue : RedisTaskQueue demoTasks) retried).lists.map (·.1) =
        ["imghost:queue:thumbnails"] ∧
      (RedisTaskQueue.run demoLib oneQueue (.init oneQueue : RedisTaskQueue demoTasks) retried).dequeueQueueNames oneQueue =
        ["queue:thumbnails"] := by
  decide +kernel

end Imghost.Tasks.RetryQueues
