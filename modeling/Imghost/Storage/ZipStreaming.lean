/-
  Imghost.Storage.ZipStreaming — a stored file read by an event loop on one thread and
  handed on by a plain generator on another.

  `AsyncIterableBridge.__iter__` starts a producer thread that walks an async iterator and
  puts what it yields in a bounded queue, and a consumer that takes it out again. A turn
  belongs to one of the two threads. The producer's turn says whether a pending cancellation
  reaches the task at this suspension point and what the code outside does when it does; the
  consumer's turn says whether its caller asks for the next chunk or closes the generator.

    · An uncancelled, unstopped producer only moves items from what is to come into the queue
      (`produce_moves`), and `aclose` is run once, on the way out of the loop (`produce_books`).
    · Both facts and the places of the two threads make one invariant that every turn keeps
      (`Sound.step`); in every state the caller has been handed a prefix (`Sound.received_initially`).

  A chunk of the stream is any value: the code never looks inside one. `thread.join` may time
  out, so the consumer can leave it at any moment.
-/

import Imghost.Data.Fairness
import Mathlib.Tactic.SplitIfs

namespace Imghost.ZipStreaming

open Data

variable {T Exc : Type}

/-! ## The async iterator and what is put in the queue -/

/-- A `BaseException`: `asyncio.CancelledError`, or any other. -/
inductive Failure (Exc : Type) where
  | cancelled
  | other (exc : Exc)
deriving DecidableEq

/-- What an async iterator does from here on: the chunks it yields, whether it then raises
    instead of stopping, whether it has an `aclose`, and whether that raises. -/
structure AsyncIter (T Exc : Type) where
  chunks : List T
  raises : Option (Failure Exc) := none
  closable : Bool := true
  acloseRaises : Option (Failure Exc) := none
deriving DecidableEq

/-- What `await self.factory()` comes to. -/
abbrev Source (T Exc : Type) : Type := Except (Failure Exc) (AsyncIter T Exc)

/-- What is put in the queue: a chunk, `_END` or an `_ErrorBox`. -/
inductive Item (T Exc : Type) where
  | chunk (chunk : T)
  | endOfStream
  | errorBox (exc : Failure Exc)
deriving DecidableEq

/-- How the loop over the iterator was left: it stopped, it raised, or an item was refused
    (`return`). -/
inductive Left (Exc : Type) where
  | exhausted
  | raised (exc : Failure Exc)
  | refused
deriving DecidableEq

/-! ## The two threads -/

/-- Where `produce` stands. An `enqueue` is two places: the test of `stopped`, and the `put`
    that may time out; `rest` is the iterator to go on with after a chunk, and nothing after
    the last item. -/
inductive Producer (T Exc : Type) where
  | starting
  | opening
  | pulling (iterator : AsyncIter T Exc)
  | checking (item : Item T Exc) (rest : Option (AsyncIter T Exc))
  | putting (item : Item T Exc) (rest : Option (AsyncIter T Exc))
  | closing (left : Left Exc) (raises : Option (Failure Exc))
  | finishing (raises : Option (Failure Exc))
  | done
deriving DecidableEq

/-- How the generator ended for its caller: it returned, it raised, or it was closed. -/
inductive Outcome (Exc : Type) where
  | returned
  | raised (exc : Failure Exc)
  | closed
deriving DecidableEq

/-- Where `__iter__` stands: at `queue.get`, at the `yield`, or at one of the three steps of
    its `finally`. -/
inductive Consumer (Exc : Type) where
  | getting
  | yielding
  | stopping (outcome : Outcome Exc)
  | cancelling (outcome : Outcome Exc)
  | joining (outcome : Outcome Exc)
  | finished (outcome : Outcome Exc)
deriving DecidableEq

structure Bridge (T Exc : Type) where
  queue : List (Item T Exc) := []
  stopped : Bool := false
  /-- `task.cancel` was requested and has not reached the task yet. -/
  cancelPending : Bool := false
  producer : Producer T Exc := .starting
  consumer : Consumer Exc := .getting
  /-- What the generator has yielded. -/
  received : List T := []
  /-- How often `aclose` has run to its end. -/
  acloseRuns : ℕ := 0
deriving DecidableEq

inductive Thread where
  | producer
  | consumer
deriving DecidableEq

/-- What code outside does that is interrupted: how the factory ends, how the iterator goes
    on, and whether the `aclose` of a suspended iterator raises. -/
structure Interruption (T Exc : Type) where
  factory : Source T Exc
  iterator : AsyncIter T Exc
  acloseRaises : Option (Failure Exc)

inductive Turn (T Exc : Type) where
  | producer (cancelled : Bool) (outside : Interruption T Exc)
  | consumer (asksForMore : Bool)

def Turn.thread : Turn T Exc → Thread
  | .producer _ _ => .producer
  | .consumer _ => .consumer

/-! ## The producer's turn -/

/-- `Queue.full` for `Queue(maxsize)`; a queue without a positive size has no bound. -/
def Bridge.full (maxsize : ℤ) (b : Bridge T Exc) : Bool := 0 < maxsize && maxsize ≤ b.queue.length

/-- After `await self.factory()`. -/
def opened : Source T Exc → Producer T Exc
  | .error exc => .checking (.errorBox exc) none
  | .ok iterator => .pulling iterator

/-- The rest of `produce` after the inner `finally`: `else`, `except BaseException`, or the
    end of a `return`. -/
def unwound : Left Exc → Producer T Exc
  | .exhausted => .checking .endOfStream none
  | .raised exc => .checking (.errorBox exc) none
  | .refused => .done

/-- The inner `finally`, entered with what `aclose` will do. -/
def leaveLoop (left : Left Exc) (closable : Bool) (raises : Option (Failure Exc)) : Producer T Exc :=
  if closable then .closing left raises else unwound left

/-- An exception of `aclose` replaces how the loop was left. -/
def closedWith (left : Left Exc) : Option (Failure Exc) → Producer T Exc
  | some exc => .checking (.errorBox exc) none
  | none => unwound left

def AsyncIter.left (iterator : AsyncIter T Exc) : Left Exc :=
  match iterator.raises with
  | none => .exhausted
  | some exc => .raised exc

/-- `await iterator.__anext__()`. -/
def pulled (iterator : AsyncIter T Exc) : Producer T Exc :=
  match iterator.chunks with
  | chunk :: chunks => .checking (.chunk chunk) (some { iterator with chunks })
  | [] => leaveLoop iterator.left iterator.closable iterator.acloseRaises

/-- `enqueue` gave the item up. -/
def refused (outside : Interruption T Exc) : Option (AsyncIter T Exc) → Producer T Exc
  | some iterator => leaveLoop .refused iterator.closable outside.acloseRaises
  | none => .done

/-- `enqueue` put the item. -/
def accepted : Option (AsyncIter T Exc) → Producer T Exc
  | some iterator => .pulling iterator
  | none => .done

def Bridge.produce (maxsize : ℤ) (source : Source T Exc) (cancelled : Bool) (outside : Interruption T Exc)
    (b : Bridge T Exc) : Bridge T Exc :=
  let interrupted := cancelled && b.cancelPending
  match b.producer with
  | .starting => { b with producer := .opening }
  | .opening =>
    if interrupted then { b with cancelPending := false, producer := opened outside.factory }
    else { b with producer := opened source }
  | .pulling iterator =>
    if interrupted then
      { b with
        cancelPending := false
        producer := .pulling { outside.iterator with closable := iterator.closable } }
    else { b with producer := pulled iterator }
  | .checking item rest =>
    if b.stopped then { b with producer := refused outside rest }
    else { b with producer := .putting item rest }
  | .putting item rest =>
    if b.full maxsize then { b with producer := .checking item rest }
    else { b with queue := b.queue ++ [item], producer := accepted rest }
  | .closing left raises =>
    if interrupted then { b with cancelPending := false, producer := .finishing raises }
    else { b with acloseRuns := b.acloseRuns + 1, producer := closedWith left raises }
  | .finishing raises =>
    { b with acloseRuns := b.acloseRuns + 1, producer := closedWith (.raised .cancelled) raises }
  | .done => b

/-! ## The consumer's turn -/

/-- `loop.call_soon_threadsafe(task.cancel)`: without a loop nothing is asked for, and a
    finished task or a closed loop makes nothing of it. -/
def Bridge.cancelReaches (b : Bridge T Exc) : Bool :=
  match b.producer with
  | .starting | .done => false
  | _ => true

def Bridge.consume (asksForMore : Bool) (b : Bridge T Exc) : Bridge T Exc :=
  match b.consumer with
  | .getting =>
    match b.queue with
    | [] => b
    | .endOfStream :: queue => { b with queue, consumer := .stopping .returned }
    | .errorBox exc :: queue => { b with queue, consumer := .stopping (.raised exc) }
    | .chunk chunk :: queue =>
      { b with queue, consumer := .yielding, received := b.received ++ [chunk] }
  | .yielding =>
    if asksForMore then { b with consumer := .getting }
    else { b with consumer := .stopping .closed }
  | .stopping outcome => { b with stopped := true, consumer := .cancelling outcome }
  | .cancelling outcome =>
    { b with cancelPending := b.cancelPending || b.cancelReaches, consumer := .joining outcome }
  | .joining outcome => { b with consumer := .finished outcome }
  | .finished _ => b

/-- `AsyncIterableBridge.__iter__`, one turn of one of its threads. -/
def step (maxsize : ℤ) (source : Source T Exc) : Turn T Exc → Bridge T Exc → Bridge T Exc
  | .producer cancelled outside, b => b.produce maxsize source cancelled outside
  | .consumer asksForMore, b => b.consume asksForMore

/-! ## What the source comes to -/

/-- What the loop over the iterator and its `aclose` end with together. -/
def AsyncIter.result (iterator : AsyncIter T Exc) : Option (Failure Exc) :=
  if iterator.closable then iterator.acloseRaises <|> iterator.raises else iterator.raises

def Source.chunks : Source T Exc → List T
  | .error _ => []
  | .ok iterator => iterator.chunks

/-- The exception the stream ends with, or nothing where it ends normally. -/
def Source.result : Source T Exc → Option (Failure Exc)
  | .error exc => some exc
  | .ok iterator => iterator.result

def Source.closable : Source T Exc → Bool
  | .error _ => false
  | .ok iterator => iterator.closable

def lastItem : Option (Failure Exc) → Item T Exc
  | none => .endOfStream
  | some exc => .errorBox exc

def AsyncIter.items (iterator : AsyncIter T Exc) : List (Item T Exc) :=
  iterator.chunks.map .chunk ++ [lastItem iterator.result]

def Source.items (source : Source T Exc) : List (Item T Exc) :=
  source.chunks.map .chunk ++ [lastItem source.result]

/-- What the caller is owed: everything and then the end or the exception, or, where it
    closed the generator, a prefix. -/
def Delivered (source : Source T Exc) (received : List T) : Outcome Exc → Prop
  | .returned => received = source.chunks ∧ source.result = none
  | .raised exc => received = source.chunks ∧ source.result = some exc
  | .closed => received <+: source.chunks

/-! ## Nothing is lost between the threads -/

def Left.items : Left Exc → List (Item T Exc)
  | .exhausted => [.endOfStream]
  | .raised exc => [.errorBox exc]
  | .refused => []

/-- What the producer will still put, unless it is cancelled or refused. -/
def Producer.upcoming (source : Source T Exc) : Producer T Exc → List (Item T Exc)
  | .starting | .opening => source.items
  | .pulling iterator => iterator.items
  | .checking item rest | .putting item rest => item :: rest.elim [] AsyncIter.items
  | .closing _ (some exc) => [.errorBox exc]
  | .closing left none => left.items
  | .finishing raises => [.errorBox (raises.getD .cancelled)]
  | .done => []

variable {source : Source T Exc}

theorem upcoming_unwound (left : Left Exc) : (unwound left).upcoming source = left.items := by
  cases left <;> rfl

theorem upcoming_closedWith (left : Left Exc) (raises : Option (Failure Exc)) :
    (closedWith left raises).upcoming source = (Producer.closing left raises).upcoming source := by
  cases raises with
  | none => exact upcoming_unwound left
  | some exc => rfl

theorem upcoming_opened : (opened source).upcoming source = source.items := by
  cases source <;> rfl

theorem upcoming_accepted (rest : Option (AsyncIter T Exc)) :
    (accepted rest).upcoming source = rest.elim [] AsyncIter.items := by
  cases rest <;> rfl

theorem upcoming_pulled (iterator : AsyncIter T Exc) :
    (pulled iterator).upcoming source = iterator.items := by
  obtain ⟨chunks, raises, closable, acloseRaises⟩ := iterator
  cases chunks with
  | cons chunk chunks => rfl
  | nil => cases closable <;> cases raises <;> cases acloseRaises <;> rfl

section

variable (maxsize : ℤ) (cancelled : Bool) (outside : Interruption T Exc) (b : Bridge T Exc)

@[simp] theorem produce_consumer : (b.produce maxsize source cancelled outside).consumer = b.consumer := by
  unfold Bridge.produce
  cases b.producer <;> dsimp only <;> split_ifs <;> rfl

@[simp] theorem produce_stopped : (b.produce maxsize source cancelled outside).stopped = b.stopped := by
  unfold Bridge.produce
  cases b.producer <;> dsimp only <;> split_ifs <;> rfl

@[simp] theorem produce_received : (b.produce maxsize source cancelled outside).received = b.received := by
  unfold Bridge.produce
  cases b.producer <;> dsimp only <;> split_ifs <;> rfl

/-- A producer that is neither cancelled nor stopped moves items from what is to come into
    the queue. -/
theorem produce_moves (quiet : b.cancelPending = false) (running : b.stopped = false) :
    (b.produce maxsize source cancelled outside).queue ++
      (b.produce maxsize source cancelled outside).producer.upcoming source =
    b.queue ++ b.producer.upcoming source := by
  unfold Bridge.produce
  cases at_pc : b.producer with
  | starting => rfl
  | opening =>
    simp only [quiet, Bool.and_false, Bool.false_eq_true, if_false, upcoming_opened]
    rfl
  | pulling iterator =>
    simp only [quiet, Bool.and_false, Bool.false_eq_true, if_false, upcoming_pulled]
    rfl
  | checking item rest => simp [running, Producer.upcoming]
  | putting item rest =>
    dsimp only
    split_ifs
    · rfl
    · rw [upcoming_accepted, List.append_assoc]
      rfl
  | closing left raises => simp [quiet, upcoming_closedWith]
  | finishing raises =>
    rw [upcoming_closedWith]
    cases raises <;> rfl
  | done => simp [at_pc]

end

/-! ## The books of `aclose` -/

/-- How often `aclose` is to be run over the whole life of the bridge. -/
def Source.acloses (source : Source T Exc) : ℕ := if source.closable then 1 else 0

/-- `aclose` has run once if the inner `finally` is behind the producer, and not before. -/
def Producer.Books (source : Source T Exc) (runs : ℕ) : Producer T Exc → Prop
  | .starting | .opening => runs = 0
  | .pulling iterator => runs = 0 ∧ iterator.closable = source.closable
  | .checking _ (some iterator) | .putting _ (some iterator) =>
    runs = 0 ∧ iterator.closable = source.closable
  | .closing _ _ | .finishing _ => runs = 0 ∧ source.closable = true
  | .checking _ none | .putting _ none | .done => runs = source.acloses

theorem books_unwound {runs : ℕ} (left : Left Exc) :
    (unwound left).Books source runs ↔ runs = source.acloses := by
  cases left <;> rfl

theorem books_closedWith {runs : ℕ} (left : Left Exc) (raises : Option (Failure Exc)) :
    (closedWith left raises).Books source runs ↔ runs = source.acloses := by
  cases raises with
  | none => exact books_unwound left
  | some exc => rfl

theorem books_leaveLoop (left : Left Exc) (raises : Option (Failure Exc)) :
    (leaveLoop left source.closable raises).Books source 0 := by
  unfold leaveLoop
  split_ifs with closable
  · exact ⟨rfl, closable⟩
  · rw [books_unwound, Source.acloses, if_neg closable]

theorem books_opened : (opened source).Books source 0 := by
  cases source with
  | error exc => rfl
  | ok iterator => exact ⟨rfl, rfl⟩

theorem books_pulled {iterator : AsyncIter T Exc} (same : iterator.closable = source.closable) :
    (pulled iterator).Books source 0 := by
  unfold pulled
  split
  · exact ⟨rfl, same⟩
  · rw [same]
    exact books_leaveLoop _ _

/-- Every turn of the producer keeps the books, as long as nothing interrupts the factory. -/
theorem produce_books (maxsize : ℤ) (cancelled : Bool) (outside : Interruption T Exc) (b : Bridge T Exc)
    (early : b.producer = .opening → b.cancelPending = false)
    (books : b.producer.Books source b.acloseRuns) :
    (b.produce maxsize source cancelled outside).producer.Books source
      (b.produce maxsize source cancelled outside).acloseRuns := by
  unfold Bridge.produce
  cases at_pc : b.producer with
  | starting =>
    rw [at_pc] at books
    exact books
  | opening =>
    rw [at_pc] at books
    have none_run : b.acloseRuns = 0 := books
    simp only [early at_pc, Bool.and_false, Bool.false_eq_true, if_false, none_run]
    exact books_opened
  | pulling iterator =>
    rw [at_pc] at books
    obtain ⟨none_run, same⟩ := books
    dsimp only
    split_ifs
    · exact ⟨none_run, same⟩
    · rw [none_run]
      exact books_pulled same
  | checking item rest =>
    rw [at_pc] at books
    dsimp only
    split_ifs
    · cases rest with
      | none => exact books
      | some iterator =>
        obtain ⟨none_run, same⟩ := books
        simp only [refused, none_run, same]
        exact books_leaveLoop _ _
    · cases rest <;> exact books
  | putting item rest =>
    rw [at_pc] at books
    dsimp only
    split_ifs <;> cases rest <;> exact books
  | closing left raises =>
    rw [at_pc] at books
    dsimp only
    split_ifs
    · exact books
    · rw [books_closedWith, Source.acloses, if_pos books.2, books.1]
  | finishing raises =>
    rw [at_pc] at books
    rw [books_closedWith, Source.acloses, if_pos books.2, books.1]
  | done =>
    rw [at_pc] at books
    simp only [at_pc]
    exact books

/-! ## What holds in every state -/

@[simp] theorem chunk_ne_lastItem (chunk : T) (result : Option (Failure Exc)) :
    .chunk chunk ≠ lastItem result := by
  cases result <;> simp [lastItem]

/-- What was handed over before an item that is no chunk is everything. -/
theorem ended_at {received chunks : List T} {item : Item T Exc} {queue : List (Item T Exc)}
    {result : Option (Failure Exc)} (no_chunk : ∀ chunk, item ≠ .chunk chunk)
    (flow : received.map .chunk ++ item :: queue = chunks.map .chunk ++ [lastItem result]) :
    received = chunks ∧ item = lastItem result := by
  induction received generalizing chunks with
  | nil =>
    cases chunks with
    | nil => simp_all
    | cons chunk chunks => simp [no_chunk] at flow
  | cons chunk received ih =>
    cases chunks with
    | nil => simp at flow
    | cons first chunks =>
      simp only [List.map_cons, List.cons_append, List.cons.injEq, Item.chunk.injEq] at flow
      obtain ⟨same, rest⟩ := flow
      obtain ⟨all, last⟩ := ih rest
      exact ⟨by rw [same, all], last⟩

theorem handed_initially {received chunks : List T} {items : List (Item T Exc)}
    {result : Option (Failure Exc)}
    (flow : received.map .chunk ++ items = chunks.map .chunk ++ [lastItem result]) :
    received <+: chunks := by
  induction received generalizing chunks with
  | nil => exact List.nil_prefix
  | cons chunk received ih =>
    cases chunks with
    | nil => simp at flow
    | cons first chunks =>
      simp only [List.map_cons, List.cons_append, List.cons.injEq, Item.chunk.injEq] at flow
      obtain ⟨same, rest⟩ := flow
      rw [same]
      exact List.cons_prefix_cons.mpr ⟨rfl, ih rest⟩

/-- How the generator ends, once it is on its way out. -/
def Consumer.outcome : Consumer Exc → Option (Outcome Exc)
  | .getting | .yielding => none
  | .stopping outcome | .cancelling outcome | .joining outcome | .finished outcome => some outcome

def Consumer.hasStopped : Consumer Exc → Bool
  | .getting | .yielding | .stopping _ => false
  | .cancelling _ | .joining _ | .finished _ => true

def Consumer.hasCancelled : Consumer Exc → Bool
  | .getting | .yielding | .stopping _ | .cancelling _ => false
  | .joining _ | .finished _ => true

/-- `produce` has not got past `await self.factory()`. -/
def Producer.early : Producer T Exc → Bool
  | .starting | .opening => true
  | _ => false

structure Sound (source : Source T Exc) (b : Bridge T Exc) : Prop where
  stopped_eq : b.stopped = b.consumer.hasStopped
  quiet : b.consumer.hasCancelled = false → b.cancelPending = false
  early : b.producer.early = true → b.queue = [] ∧ b.consumer = .getting
  flow : b.consumer.outcome = none →
    b.received.map .chunk ++ (b.queue ++ b.producer.upcoming source) = source.items
  outcome : ∀ o, b.consumer.outcome = some o → Delivered source b.received o
  books : b.producer.Books source b.acloseRuns

theorem sound_start : Sound source ({} : Bridge T Exc) where
  stopped_eq := rfl
  quiet _ := rfl
  early _ := ⟨rfl, rfl⟩
  flow _ := rfl
  outcome o out := by cases out
  books := rfl

variable {b : Bridge T Exc}

theorem Sound.not_cancelled (sound : Sound source b) (on : b.consumer.outcome = none) :
    b.cancelPending = false ∧ b.stopped = false := by
  rw [sound.stopped_eq]
  cases at_pc : b.consumer <;> simp_all [Consumer.outcome, Consumer.hasStopped, Consumer.hasCancelled,
    sound.quiet]

theorem Sound.received_initially (sound : Sound source b) : b.received <+: source.chunks := by
  cases out : b.consumer.outcome with
  | none => exact handed_initially (sound.flow out)
  | some o =>
    have delivered := sound.outcome o out
    cases o with
    | returned => exact delivered.1 ▸ List.prefix_rfl
    | raised exc => exact delivered.1 ▸ List.prefix_rfl
    | closed => exact delivered

@[simp] theorem early_opened : (opened source).early = false := by
  cases source <;> rfl

@[simp] theorem early_unwound (left : Left Exc) : (unwound left : Producer T Exc).early = false := by
  cases left <;> rfl

@[simp] theorem early_closedWith (left : Left Exc) (raises : Option (Failure Exc)) :
    (closedWith left raises : Producer T Exc).early = false := by
  cases raises with
  | none => exact early_unwound left
  | some exc => rfl

@[simp] theorem early_leaveLoop (left : Left Exc) (closable : Bool) (raises : Option (Failure Exc)) :
    (leaveLoop left closable raises : Producer T Exc).early = false := by
  cases closable with
  | false => exact early_unwound left
  | true => rfl

@[simp] theorem early_pulled (iterator : AsyncIter T Exc) : (pulled iterator).early = false := by
  unfold pulled
  split
  · rfl
  · exact early_leaveLoop _ _ _

@[simp] theorem early_refused (outside : Interruption T Exc) (rest : Option (AsyncIter T Exc)) :
    (refused outside rest).early = false := by
  cases rest with
  | none => rfl
  | some iterator => exact early_leaveLoop _ _ _

@[simp] theorem early_accepted (rest : Option (AsyncIter T Exc)) : (accepted rest).early = false := by
  cases rest <;> rfl

/-- A producer before its first item was there before the turn, and put nothing in it. -/
theorem produce_early (maxsize : ℤ) (cancelled : Bool) (outside : Interruption T Exc)
    (early : (b.produce maxsize source cancelled outside).producer.early = true) :
    b.producer.early = true ∧ (b.produce maxsize source cancelled outside).queue = b.queue := by
  unfold Bridge.produce at early ⊢
  cases at_pc : b.producer with
  | starting => exact ⟨rfl, rfl⟩
  | opening =>
    simp only [at_pc] at early
    split_ifs at early <;> simp at early
  | pulling iterator =>
    simp only [at_pc] at early
    split_ifs at early
    · cases early
    · simp at early
  | checking item rest =>
    simp only [at_pc] at early
    split_ifs at early
    · simp at early
    · cases early
  | putting item rest =>
    simp only [at_pc] at early
    split_ifs at early
    · cases early
    · simp at early
  | closing left raises =>
    simp only [at_pc] at early
    split_ifs at early
    · cases early
    · simp at early
  | finishing raises => simp [at_pc] at early
  | done =>
    simp only [at_pc] at early
    cases early

theorem Sound.produce (sound : Sound source b) (maxsize : ℤ) (cancelled : Bool)
    (outside : Interruption T Exc) : Sound source (b.produce maxsize source cancelled outside) where
  stopped_eq := by simp [sound.stopped_eq]
  quiet := by
    intro not_yet
    rw [produce_consumer] at not_yet
    have quiet := sound.quiet not_yet
    unfold Bridge.produce
    cases b.producer <;> simp [quiet, apply_ite Bridge.cancelPending]
  early := by
    intro early
    obtain ⟨before, same⟩ := produce_early maxsize cancelled outside early
    rw [same, produce_consumer]
    exact sound.early before
  flow := by
    intro on
    rw [produce_consumer] at on
    obtain ⟨quiet, running⟩ := sound.not_cancelled on
    rw [produce_moves maxsize cancelled outside b quiet running, produce_received]
    exact sound.flow on
  outcome := by
    intro o out
    rw [produce_consumer] at out
    rw [produce_received]
    exact sound.outcome o out
  books := by
    refine produce_books maxsize cancelled outside b ?_ sound.books
    intro at_pc
    obtain ⟨-, getting⟩ := sound.early (by rw [at_pc]; rfl)
    exact sound.quiet (by rw [getting]; rfl)

/-- What the consumer takes out of the queue ends the stream, or is the next chunk. -/
theorem Sound.taken (sound : Sound source b) {item : Item T Exc} {queue : List (Item T Exc)}
    (on : b.consumer.outcome = none) (front : b.queue = item :: queue)
    (no_chunk : ∀ chunk, item ≠ .chunk chunk) :
    b.received = source.chunks ∧ item = lastItem source.result := by
  have flow := sound.flow on
  rw [front, List.cons_append] at flow
  exact ended_at no_chunk flow

theorem Sound.late (sound : Sound source b) (busy : b.queue = [] → b.consumer ≠ .getting) :
    b.producer.early = false := by
  by_contra early
  obtain ⟨empty, getting⟩ := sound.early (by simpa using early)
  exact busy empty getting

/-- A consumer on its way out: its outcome, the flag and the request are all that is to be
    checked. -/
theorem Sound.leaves (sound : Sound source b) (late : b.producer.early = false)
    {queue : List (Item T Exc)} {stopped cancelPending : Bool} {consumer : Consumer Exc} {o : Outcome Exc}
    (out : consumer.outcome = some o) (delivered : Delivered source b.received o)
    (stopped_eq : stopped = consumer.hasStopped)
    (quiet : consumer.hasCancelled = false → cancelPending = false) :
    Sound source { b with queue, stopped, cancelPending, consumer } where
  stopped_eq := stopped_eq
  quiet := quiet
  early early := by simp [late] at early
  flow h := by simp [out] at h
  outcome o' h := by
    rw [out] at h
    cases h
    exact delivered
  books := sound.books

theorem Sound.get (sound : Sound source b) (at_pc : b.consumer = .getting) {item : Item T Exc}
    {queue : List (Item T Exc)} (front : b.queue = item :: queue) : Sound source (b.consume true) := by
  have late : b.producer.early = false := sound.late (by simp [front])
  have on : b.consumer.outcome = none := by rw [at_pc]; rfl
  obtain ⟨quiet, running⟩ := sound.not_cancelled on
  unfold Bridge.consume
  simp only [at_pc, front]
  cases item with
  | endOfStream =>
    obtain ⟨all, last⟩ := sound.taken on front (by simp)
    have no_failure : source.result = none := by
      cases result : source.result with
      | none => rfl
      | some exc => simp [result, lastItem] at last
    exact sound.leaves late rfl ⟨all, no_failure⟩ running (fun _ => quiet)
  | errorBox exc =>
    obtain ⟨all, last⟩ := sound.taken on front (by simp)
    have failure : source.result = some exc := by
      cases result : source.result with
      | none => simp [result, lastItem] at last
      | some exc' => simpa [result, lastItem, eq_comm] using last
    exact sound.leaves late rfl ⟨all, failure⟩ running (fun _ => quiet)
  | chunk chunk =>
    constructor
    · exact running
    · intro _
      exact quiet
    · intro early
      simp [late] at early
    · intro _
      have flow := sound.flow on
      rw [front] at flow
      simpa using flow
    · intro o out
      cases out
    · exact sound.books

theorem Sound.consume (sound : Sound source b) (asksForMore : Bool) :
    Sound source (b.consume asksForMore) := by
  cases at_pc : b.consumer with
  | getting =>
    cases front : b.queue with
    | nil =>
      have waits : b.consume asksForMore = b := by simp [Bridge.consume, at_pc, front]
      rw [waits]
      exact sound
    | cons item queue =>
      have same : b.consume asksForMore = b.consume true := by simp [Bridge.consume, at_pc, front]
      rw [same]
      exact sound.get at_pc front
  | yielding =>
    have late : b.producer.early = false := sound.late (by simp [at_pc])
    have on : b.consumer.outcome = none := by rw [at_pc]; rfl
    obtain ⟨quiet, running⟩ := sound.not_cancelled on
    unfold Bridge.consume
    simp only [at_pc]
    cases asksForMore with
    | false => exact sound.leaves late rfl sound.received_initially running (fun _ => quiet)
    | true =>
      constructor
      · exact running
      · intro _
        exact quiet
      · intro early
        simp [late] at early
      · intro _
        exact sound.flow on
      · intro o out
        cases out
      · exact sound.books
  | stopping outcome =>
    have late : b.producer.early = false := sound.late (by simp [at_pc])
    have delivered := sound.outcome outcome (by rw [at_pc]; rfl)
    have quiet := sound.quiet (by rw [at_pc]; rfl)
    simp only [Bridge.consume, at_pc]
    exact sound.leaves late rfl delivered rfl (fun _ => quiet)
  | cancelling outcome =>
    have late : b.producer.early = false := sound.late (by simp [at_pc])
    have delivered := sound.outcome outcome (by rw [at_pc]; rfl)
    have stopped := sound.stopped_eq
    rw [at_pc] at stopped
    simp only [Bridge.consume, at_pc]
    exact sound.leaves late rfl delivered stopped (fun not_yet => by cases not_yet)
  | joining outcome =>
    have late : b.producer.early = false := sound.late (by simp [at_pc])
    have delivered := sound.outcome outcome (by rw [at_pc]; rfl)
    have stopped := sound.stopped_eq
    rw [at_pc] at stopped
    simp only [Bridge.consume, at_pc]
    exact sound.leaves late rfl delivered stopped (fun not_yet => by cases not_yet)
  | finished outcome =>
    have waits : b.consume asksForMore = b := by simp [Bridge.consume, at_pc]
    rw [waits]
    exact sound

theorem Sound.step (sound : Sound source b) (maxsize : ℤ) (turn : Turn T Exc) :
    Sound source (step maxsize source turn b) := by
  cases turn with
  | producer cancelled outside => exact sound.produce maxsize cancelled outside
  | consumer asksForMore => exact sound.consume asksForMore

end Imghost.ZipStreaming
