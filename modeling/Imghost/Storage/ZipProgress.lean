/-
  Imghost.Storage.ZipProgress — both threads of the bridge finish under every fair schedule.

  The distance to the end is a pair: how many times a cancellation can still send the producer
  another way, and then what is left to put, to take and to clean up. A producer whose queue is
  full goes round and round between the test of `stopped` and a `put` that times out; while it
  does, the consumer is the one that helps.

    · A turn of the producer brings the end nearer unless the producer can only wait
      (`produce_rank`); a turn of the consumer does unless the queue is empty (`consume_rank`).
    · When the producer can only wait, the consumer is not waiting for it
      (`Sound.consumer_ready`), so one of the two always helps (`progress`).
    · Under every fair schedule both threads finish, the caller has everything and then the end
      or the exception, or a prefix if it closed early, and `aclose` was run
      (`every_schedule_delivers`).
-/

import Imghost.Storage.ZipStreaming
import Mathlib.Data.Prod.Lex

namespace Imghost.ZipStreaming

open Data

variable {T Exc : Type} {source : Source T Exc}

/-! ## How far both threads are from their end -/

def AsyncIter.weight (iterator : AsyncIter T Exc) : ℕ := 7 + 6 * iterator.chunks.length

def Source.weight : Source T Exc → ℕ
  | .error _ => 7
  | .ok iterator => iterator.weight

/-- A `put` on a full queue goes back to the test of `stopped`, so both places weigh the same
    while the queue is full; once the bridge is stopped, the test is the nearer of the two. -/
def Producer.weight (source : Source T Exc) (full stopped : Bool) : Producer T Exc → ℕ
  | .starting => source.weight + 2
  | .opening => source.weight + 1
  | .pulling iterator => iterator.weight
  | .checking _ rest => rest.elim 0 AsyncIter.weight + if stopped then 3 else if full then 5 else 4
  | .putting _ rest => rest.elim 0 AsyncIter.weight + if stopped then 4 else if full then 5 else 3
  | .closing _ _ | .finishing _ => 6
  | .done => 0

def Consumer.weight : Consumer Exc → ℕ
  | .getting => 5
  | .yielding => 6
  | .stopping _ => 4
  | .cancelling _ => 2
  | .joining _ => 1
  | .finished _ => 0

/-- How many times a cancellation can still send the producer another way. -/
def Bridge.cancellations (b : Bridge T Exc) : ℕ :=
  (if b.consumer.hasCancelled then 0 else 2) + if b.cancelPending then 1 else 0

def Bridge.weight (maxsize : ℤ) (source : Source T Exc) (b : Bridge T Exc) : ℕ :=
  2 * b.queue.length + b.consumer.weight + b.producer.weight source (b.full maxsize) b.stopped

def Bridge.rank (maxsize : ℤ) (source : Source T Exc) (b : Bridge T Exc) : ℕ ×ₗ ℕ :=
  toLex (b.cancellations, b.weight maxsize source)

variable {maxsize : ℤ} {b b' : Bridge T Exc}

theorem rank_lt_of_weight (same : b'.cancellations = b.cancellations)
    (lighter : b'.weight maxsize source < b.weight maxsize source) :
    b'.rank maxsize source < b.rank maxsize source :=
  Prod.Lex.toLex_lt_toLex.mpr (.inr ⟨same, lighter⟩)

theorem rank_lt_of_cancellations (fewer : b'.cancellations < b.cancellations) :
    b'.rank maxsize source < b.rank maxsize source :=
  Prod.Lex.toLex_lt_toLex.mpr (.inl fewer)

/-- The producer has nothing to do but wait: it has finished, or its queue is full. -/
def Bridge.producerWaits (maxsize : ℤ) (b : Bridge T Exc) : Bool :=
  match b.producer with
  | .done => true
  | .checking _ _ | .putting _ _ => b.full maxsize && !b.stopped
  | _ => false

theorem weight_last (item : Item T Exc) (full stopped : Bool) :
    (Producer.checking item none).weight source full stopped ≤ 5 := by
  simp only [Producer.weight, Option.elim]
  split_ifs <;> omega

theorem weight_unwound (left : Left Exc) (full stopped : Bool) :
    (unwound left : Producer T Exc).weight source full stopped ≤ 5 := by
  cases left with
  | exhausted => exact weight_last _ full stopped
  | raised exc => exact weight_last _ full stopped
  | refused => exact Nat.zero_le 5

theorem weight_closedWith (left : Left Exc) (raises : Option (Failure Exc)) (full stopped : Bool) :
    (closedWith left raises : Producer T Exc).weight source full stopped ≤ 5 := by
  cases raises with
  | none => exact weight_unwound left full stopped
  | some exc => exact weight_last _ full stopped

theorem weight_leaveLoop (source : Source T Exc) (left : Left Exc) (closable : Bool) (raises : Option (Failure Exc))
    (full stopped : Bool) :
    (leaveLoop left closable raises : Producer T Exc).weight source full stopped ≤ 6 := by
  cases closable with
  | false => exact Nat.le_succ_of_le (weight_unwound left full stopped)
  | true => exact Nat.le_refl 6

theorem weight_opened (full stopped : Bool) :
    (opened source).weight source full stopped ≤ source.weight := by
  cases source with
  | error exc => exact (weight_last _ full stopped).trans (by simp [Source.weight])
  | ok iterator => exact Nat.le_refl _

theorem weight_pulled (iterator : AsyncIter T Exc) (full stopped : Bool) :
    (pulled iterator).weight source full stopped < iterator.weight := by
  unfold pulled
  split
  · rename_i chunk chunks at_chunks
    simp only [Producer.weight, Option.elim, AsyncIter.weight, at_chunks, List.length_cons]
    split_ifs <;> omega
  · have light := weight_leaveLoop source iterator.left iterator.closable iterator.acloseRaises
      full stopped
    unfold AsyncIter.weight
    omega

theorem weight_refused (source : Source T Exc) (outside : Interruption T Exc)
    (rest : Option (AsyncIter T Exc)) (full stopped : Bool) :
    (refused outside rest).weight source full stopped ≤ rest.elim 0 AsyncIter.weight := by
  cases rest with
  | none => exact Nat.le_refl 0
  | some iterator =>
    have light : (refused outside (some iterator)).weight source full stopped ≤ 6 :=
      weight_leaveLoop _ _ _ _ _ _
    simp only [Option.elim, AsyncIter.weight]
    omega

theorem weight_accepted (rest : Option (AsyncIter T Exc)) (full stopped : Bool) :
    (accepted rest).weight source full stopped = rest.elim 0 AsyncIter.weight := by
  cases rest <;> rfl

/-! ## Every turn of the producer -/

theorem rank_lt_of_producer {producer : Producer T Exc} {acloseRuns : ℕ}
    (lighter : producer.weight source (b.full maxsize) b.stopped <
      b.producer.weight source (b.full maxsize) b.stopped) :
    ({ b with producer, acloseRuns } : Bridge T Exc).rank maxsize source < b.rank maxsize source := by
  refine rank_lt_of_weight rfl ?_
  unfold Bridge.weight
  exact Nat.add_lt_add_left lighter _

theorem rank_lt_of_interrupted {producer : Producer T Exc} (pending : b.cancelPending = true) :
    ({ b with cancelPending := false, producer } : Bridge T Exc).rank maxsize source <
      b.rank maxsize source := by
  refine rank_lt_of_cancellations ?_
  simp [Bridge.cancellations, pending]

/-- The retries of a `put` on a full queue leave the rank as it is. -/
theorem rank_eq_of_retry {item : Item T Exc} {rest : Option (AsyncIter T Exc)} {producer : Producer T Exc}
    (running : b.stopped = false) (full : b.full maxsize = true)
    (here : b.producer = .checking item rest ∨ b.producer = .putting item rest)
    (there : producer = .checking item rest ∨ producer = .putting item rest) :
    b.producerWaits maxsize = true ∧
      ({ b with producer } : Bridge T Exc).rank maxsize source = b.rank maxsize source ∧
      ({ b with producer } : Bridge T Exc).producerWaits maxsize = true := by
  have same : ∀ place : Producer T Exc, place = .checking item rest ∨ place = .putting item rest →
      place.weight source (b.full maxsize) b.stopped = rest.elim 0 AsyncIter.weight + 5 := by
    intro place at_place
    rcases at_place with rfl | rfl <;> simp [Producer.weight, running, full]
  have equal := (same producer there).trans (same b.producer here).symm
  have waits : (b.full maxsize && !b.stopped) = true := by simp [full, running]
  refine ⟨?_, ?_, ?_⟩
  · rcases here with here | here <;> simp [Bridge.producerWaits, here, full, running]
  · exact congrArg (fun w => toLex (b.cancellations, 2 * b.queue.length + b.consumer.weight + w)) equal
  · rcases there with rfl | rfl <;> exact waits

/-- A turn of the producer brings it nearer to its end, unless it can only wait. -/
theorem produce_rank (maxsize : ℤ) (source : Source T Exc) (cancelled : Bool) (outside : Interruption T Exc) (b : Bridge T Exc) :
    (b.produce maxsize source cancelled outside).rank maxsize source < b.rank maxsize source ∨
    b.producerWaits maxsize = true ∧
      (b.produce maxsize source cancelled outside).rank maxsize source = b.rank maxsize source ∧
      (b.produce maxsize source cancelled outside).producerWaits maxsize = true := by
  unfold Bridge.produce
  cases at_pc : b.producer with
  | starting =>
    left
    apply rank_lt_of_producer
    rw [at_pc]
    exact Nat.lt_succ_self _
  | opening =>
    left
    dsimp only
    split_ifs with interrupted
    · exact rank_lt_of_interrupted (by simp_all)
    · apply rank_lt_of_producer
      rw [at_pc]
      exact Nat.lt_succ_of_le (weight_opened _ _)
  | pulling iterator =>
    left
    dsimp only
    split_ifs with interrupted
    · exact rank_lt_of_interrupted (by simp_all)
    · apply rank_lt_of_producer
      rw [at_pc]
      exact weight_pulled iterator _ _
  | checking item rest =>
    dsimp only
    split_ifs with stopped
    · left
      apply rank_lt_of_producer
      have light := weight_refused source outside rest (b.full maxsize) b.stopped
      simp only [at_pc, Producer.weight, stopped, if_true] at light ⊢
      omega
    · cases full : b.full maxsize with
      | false =>
        left
        apply rank_lt_of_producer
        simp [at_pc, Producer.weight, stopped, full]
      | true => exact .inr (rank_eq_of_retry (by simpa using stopped) full (.inl at_pc) (.inr rfl))
  | putting item rest =>
    dsimp only
    split_ifs with full
    · by_cases stopped : b.stopped = true
      · left
        apply rank_lt_of_producer
        simp [at_pc, Producer.weight, stopped]
      · exact .inr (rank_eq_of_retry (by simpa using stopped) full (.inr at_pc) (.inl rfl))
    · left
      -- The item adds two to the queue; the place before it weighed at least three more.
      refine rank_lt_of_weight rfl ?_
      rw [Bridge.weight, Bridge.weight, weight_accepted, at_pc]
      simp only [Producer.weight, List.length_append, List.length_singleton]
      split_ifs <;> omega
  | closing left raises =>
    left
    dsimp only
    split_ifs with interrupted
    · exact rank_lt_of_interrupted (by simp_all)
    · apply rank_lt_of_producer
      rw [at_pc]
      exact Nat.lt_succ_of_le (weight_closedWith left raises _ _)
  | finishing raises =>
    left
    apply rank_lt_of_producer
    rw [at_pc]
    exact Nat.lt_succ_of_le (weight_closedWith _ raises _ _)
  | done =>
    right
    simp [Bridge.producerWaits, at_pc]

/-! ## Every turn of the consumer -/

/-- Room in the queue never sets the producer back. -/
theorem weight_mono (source : Source T Exc) (producer : Producer T Exc) (stopped : Bool) {full full' : Bool}
    (room : full' = true → full = true) :
    producer.weight source full' stopped ≤ producer.weight source full stopped := by
  cases full' with
  | true => rw [room rfl]
  | false => cases producer <;> cases full <;> cases stopped <;> simp [Producer.weight]

/-- The flag sets a producer that is about to `put` back by one. -/
theorem weight_stopped (source : Source T Exc) (producer : Producer T Exc) (full : Bool) :
    producer.weight source full true ≤ producer.weight source full false + 1 := by
  cases producer <;> cases full <;> simp [Producer.weight]

theorem full_of_longer {item : Item T Exc} {queue : List (Item T Exc)}
    (front : b.queue = item :: queue) (shorter : b'.queue = queue) (full : b'.full maxsize = true) :
    b.full maxsize = true := by
  simp only [Bridge.full, shorter, front, Bool.and_eq_true, decide_eq_true_eq, List.length_cons] at full ⊢
  omega

theorem rank_lt_of_consumer {consumer : Consumer Exc}
    (same : consumer.hasCancelled = b.consumer.hasCancelled) (lighter : consumer.weight < b.consumer.weight) :
    ({ b with consumer } : Bridge T Exc).rank maxsize source < b.rank maxsize source := by
  refine rank_lt_of_weight ?_ ?_
  · simp only [Bridge.cancellations, same]
  · exact Nat.add_lt_add_right (Nat.add_lt_add_left lighter _) _

/-- Taking an item brings the end nearer wherever the consumer goes next. -/
theorem rank_lt_of_taken {item : Item T Exc} {queue : List (Item T Exc)} {consumer : Consumer Exc}
    {received : List T} (front : b.queue = item :: queue) (at_pc : b.consumer = .getting)
    (still : consumer.hasCancelled = false) (near : consumer.weight ≤ 6) :
    ({ b with queue, consumer, received } : Bridge T Exc).rank maxsize source < b.rank maxsize source := by
  have before : b.consumer.hasCancelled = false := by rw [at_pc]; rfl
  have far : b.consumer.weight = 5 := by rw [at_pc]; rfl
  refine rank_lt_of_weight ?_ ?_
  · simp only [Bridge.cancellations, still, before]
  · have room : ({ b with queue, consumer, received } : Bridge T Exc).full maxsize = true →
        b.full maxsize = true := full_of_longer front rfl
    have lighter := weight_mono source b.producer b.stopped room
    simp only [Bridge.weight, front, List.length_cons]
    omega

/-- A consumer that is not waiting at an empty queue, and has not finished, gets nearer to its
    end. -/
theorem consume_rank (asksForMore : Bool) (ready : b.consumer = .getting → b.queue ≠ [])
    (unfinished : ∀ o, b.consumer ≠ .finished o) (open_until : b.stopped = b.consumer.hasStopped) :
    (b.consume asksForMore).rank maxsize source < b.rank maxsize source := by
  unfold Bridge.consume
  cases at_pc : b.consumer with
  | getting =>
    cases front : b.queue with
    | nil => exact absurd front (ready at_pc)
    | cons item queue =>
      cases item with
      | endOfStream => exact rank_lt_of_taken front at_pc rfl (by simp [Consumer.weight])
      | errorBox exc => exact rank_lt_of_taken front at_pc rfl (by simp [Consumer.weight])
      | chunk chunk => exact rank_lt_of_taken front at_pc rfl (by simp [Consumer.weight])
  | yielding =>
    dsimp only
    split_ifs
    · exact rank_lt_of_consumer (by rw [at_pc]; rfl) (by simp [at_pc, Consumer.weight])
    · exact rank_lt_of_consumer (by rw [at_pc]; rfl) (by simp [at_pc, Consumer.weight])
  | stopping outcome =>
    have running : b.stopped = false := by rw [open_until, at_pc]; rfl
    refine rank_lt_of_weight ?_ ?_
    · simp [Bridge.cancellations, at_pc, Consumer.hasCancelled]
    · have back := weight_stopped source b.producer (b.full maxsize)
      simp only [Bridge.weight, at_pc, Consumer.weight, running, Bridge.full] at back ⊢
      omega
  | cancelling outcome =>
    apply rank_lt_of_cancellations
    have one_request : (if (b.cancelPending || b.cancelReaches) = true then 1 else 0) ≤ 1 := by
      split_ifs <;> omega
    simp only [Bridge.cancellations, at_pc, Consumer.hasCancelled, if_true, Bool.false_eq_true, if_false]
    omega
  | joining outcome => exact rank_lt_of_consumer (by rw [at_pc]; rfl) (by simp [at_pc, Consumer.weight])
  | finished outcome => exact absurd at_pc (unfinished outcome)

/-! ## Both threads finish -/

def Bridge.Finished (b : Bridge T Exc) : Prop := b.producer = .done ∧ ∃ o, b.consumer = .finished o

/-- The thread whose next turn is sure to bring the end nearer. -/
def Bridge.helpful (maxsize : ℤ) (b : Bridge T Exc) : Thread :=
  if b.producerWaits maxsize then .consumer else .producer

theorem waits_cases (waits : b.producerWaits maxsize = true) :
    b.producer = .done ∨ b.full maxsize = true ∧ b.stopped = false := by
  unfold Bridge.producerWaits at waits
  split at waits
  · left
    assumption
  · right
    simpa using waits
  · right
    simpa using waits
  · cases waits

/-- Until the stream has ended for the consumer, there is something in the queue or still to come. -/
theorem Sound.owed (sound : Sound source b) (on : b.consumer.outcome = none) :
    b.queue ++ b.producer.upcoming source ≠ [] := by
  intro nothing
  have flow := sound.flow on
  rw [nothing, List.append_nil] at flow
  have last : lastItem source.result ∈ b.received.map Item.chunk := by
    rw [flow]
    exact List.mem_append_right _ (List.mem_singleton_self _)
  obtain ⟨chunk, -, same⟩ := List.mem_map.mp last
  exact chunk_ne_lastItem chunk source.result same

/-- While the producer can only wait, the consumer cannot be waiting for it. -/
theorem Sound.consumer_ready (sound : Sound source b) (waits : b.producerWaits maxsize = true)
    (getting : b.consumer = .getting) : b.queue ≠ [] := by
  intro empty
  rcases waits_cases waits with done | ⟨full, -⟩
  · apply sound.owed (by rw [getting]; rfl)
    rw [empty, done]
    rfl
  · simp [Bridge.full, empty] at full
    omega

theorem Sound.consumer_unfinished (sound : Sound source b) (waits : b.producerWaits maxsize = true)
    (away : ¬ b.Finished) (o : Outcome Exc) : b.consumer ≠ .finished o := by
  intro finished
  rcases waits_cases waits with done | ⟨-, running⟩
  · exact away ⟨done, o, finished⟩
  · rw [sound.stopped_eq, finished] at running
    cases running

theorem consume_waits (asksForMore : Bool)
    (blocked : ¬ ((b.consumer = .getting → b.queue ≠ []) ∧ ∀ o, b.consumer ≠ .finished o)) :
    b.consume asksForMore = b := by
  unfold Bridge.consume
  cases at_pc : b.consumer with
  | getting =>
    cases front : b.queue with
    | nil => rfl
    | cons item queue => simp [at_pc, front] at blocked
  | finished o => rfl
  | _ => simp [at_pc] at blocked

theorem progress : Progress (step maxsize source) Turn.thread (Sound source) Bridge.Finished
    (Bridge.rank maxsize source) (Bridge.helpful maxsize) where
  helps := by
    intro turn b sound away mine
    cases turn with
    | producer cancelled outside =>
      rcases produce_rank maxsize source cancelled outside b with nearer | ⟨waits, -⟩
      · exact nearer
      · simp [Bridge.helpful, waits, Turn.thread] at mine
    | consumer asksForMore =>
      have waits : b.producerWaits maxsize = true := by
        by_contra busy
        simp [Bridge.helpful, busy, Turn.thread] at mine
      exact consume_rank asksForMore (sound.consumer_ready waits) (sound.consumer_unfinished waits away)
        sound.stopped_eq
  waits := by
    intro turn b sound away
    cases turn with
    | producer cancelled outside =>
      rcases produce_rank maxsize source cancelled outside b with
        nearer | ⟨waits, same, still⟩
      · exact .inl nearer
      · right
        refine ⟨same, ?_⟩
        simp [Bridge.helpful, waits, still, step]
    | consumer asksForMore =>
      by_cases ready : (b.consumer = .getting → b.queue ≠ []) ∧ ∀ o, b.consumer ≠ .finished o
      · exact .inl (consume_rank asksForMore ready.1 ready.2 sound.stopped_eq)
      · right
        have same : step maxsize source (.consumer asksForMore) b = b := consume_waits asksForMore ready
        rw [same]
        exact ⟨rfl, rfl⟩

theorem finished_stays (finished : b.Finished) (turn : Turn T Exc) : step maxsize source turn b = b := by
  obtain ⟨done, o, ended⟩ := finished
  cases turn with
  | producer cancelled outside => simp [step, Bridge.produce, done]
  | consumer asksForMore => simp [step, Bridge.consume, ended]

/-- A caller that asks for more does not make the generator end as closed. -/
theorem consume_not_closed (before : b.consumer.outcome ≠ some .closed) :
    (b.consume true).consumer.outcome ≠ some .closed := by
  cases at_pc : b.consumer with
  | getting =>
    rcases front : b.queue with _ | ⟨_ | _ | _, queue⟩ <;>
      simp [Bridge.consume, at_pc, front, Consumer.outcome]
  | yielding => simp [Bridge.consume, at_pc, Consumer.outcome]
  | stopping outcome => simpa [Bridge.consume, at_pc, Consumer.outcome] using before
  | cancelling outcome => simpa [Bridge.consume, at_pc, Consumer.outcome] using before
  | joining outcome => simpa [Bridge.consume, at_pc, Consumer.outcome] using before
  | finished outcome => simpa [Bridge.consume, at_pc, Consumer.outcome] using before

theorem step_not_closed {turn : Turn T Exc} (asks : turn ≠ .consumer false)
    (before : b.consumer.outcome ≠ some .closed) :
    (step maxsize source turn b).consumer.outcome ≠ some .closed := by
  cases turn with
  | producer cancelled outside => simpa [step] using before
  | consumer asksForMore =>
    cases asksForMore with
    | false => exact absurd rfl asks
    | true => exact consume_not_closed before

/-- The states of one bridge under a schedule, from the first `next` on. -/
def bridge (maxsize : ℤ) (source : Source T Exc) (schedule : ℕ → Turn T Exc) : ℕ → Bridge T Exc :=
  course (step maxsize source) schedule {}

theorem sound_always (maxsize : ℤ) (source : Source T Exc) (schedule : ℕ → Turn T Exc) (n : ℕ) :
    Sound source (bridge maxsize source schedule n) :=
  course_keeps sound_start (fun n _ sound => sound.step maxsize (schedule n)) n

theorem never_closed {schedule : ℕ → Turn T Exc} (asks : ∀ n, schedule n ≠ .consumer false) (n : ℕ) :
    (bridge maxsize source schedule n).consumer.outcome ≠ some .closed := by
  refine course_keeps (P := fun b : Bridge T Exc => b.consumer.outcome ≠ some .closed) ?_ ?_ n
  · simp [Consumer.outcome]
  · intro k b before
    exact step_not_closed (asks k) before

/-- Whatever the size of the queue, and whatever the order in which the threads get their turns,
    the consumer has a prefix of the chunks at every moment. From some moment on both threads have
    finished, `aclose` was run once where the iterator has one, and the caller was handed all
    chunks and then the end or the exception of the stream, or a prefix where it closed the
    generator. -/
theorem every_schedule_delivers (maxsize : ℤ) (source : Source T Exc) (schedule : ℕ → Turn T Exc)
    (fair : Fair Turn.thread schedule) :
    (∀ n, (bridge maxsize source schedule n).received <+: source.chunks) ∧
    ∃ n outcome, ∀ m, n ≤ m →
      (bridge maxsize source schedule m).producer = .done ∧
      (bridge maxsize source schedule m).consumer = .finished outcome ∧
      Delivered source (bridge maxsize source schedule m).received outcome ∧
      (bridge maxsize source schedule m).acloseRuns = source.acloses ∧
      ((∀ k, schedule k ≠ .consumer false) → outcome ≠ .closed) := by
  have sound := sound_always maxsize source schedule
  refine ⟨fun n => (sound n).received_initially, ?_⟩
  obtain ⟨n, finished⟩ : ∃ n, (bridge maxsize source schedule n).Finished :=
    course_reaches progress fair sound
  obtain ⟨done, outcome, ended⟩ := id finished
  have out : (bridge maxsize source schedule n).consumer.outcome = some outcome := by rw [ended]; rfl
  have books := (sound n).books
  rw [done] at books
  refine ⟨n, outcome, ?_⟩
  intro m later
  have same : bridge maxsize source schedule m = bridge maxsize source schedule n :=
    course_settles (finished_stays finished) later
  rw [same]
  refine ⟨done, ended, (sound n).outcome outcome out, books, ?_⟩
  intro asks closed
  rw [closed] at out
  exact never_closed asks n out

/-! Two chunks through a queue of one place, the threads taking turns. -/

def sampleIterator : AsyncIter ℕ String := { chunks := [1, 2] }

def sampleInterruption : Interruption ℕ String :=
  { factory := .error .cancelled
    iterator := { chunks := [], raises := some .cancelled }
    acloseRaises := none }

/-- The producer's turns and the consumer's turns alternate, and the caller always asks for more. -/
def alternating (n : ℕ) : Turn ℕ String :=
  if n % 2 = 0 then .producer false sampleInterruption else .consumer true

theorem two_chunks_through_one_place : Fair Turn.thread alternating ∧
    (∀ n, (bridge 1 (.ok sampleIterator) alternating n).received <+: [1, 2]) ∧
    ∃ n outcome, ∀ m, n ≤ m →
      (bridge 1 (.ok sampleIterator) alternating m).producer = .done ∧
      (bridge 1 (.ok sampleIterator) alternating m).consumer = .finished outcome ∧
      Delivered (.ok sampleIterator) (bridge 1 (.ok sampleIterator) alternating m).received outcome ∧
      (bridge 1 (.ok sampleIterator) alternating m).acloseRuns = 1 ∧
      ((∀ k, alternating k ≠ .consumer false) → outcome ≠ .closed) := by
  have fair : Fair Turn.thread alternating := fair_alternating (by intro t; cases t <;> simp [Turn.thread])
  exact ⟨fair, every_schedule_delivers 1 (.ok sampleIterator) alternating fair⟩

example : (bridge 1 (.ok sampleIterator) alternating 40).received = [1, 2] ∧
    (bridge 1 (.ok sampleIterator) alternating 40).consumer = .finished .returned := by
  decide +kernel

end Imghost.ZipStreaming
