/-
  Imghost.Data.Fairness — threads that take turns, and what a fair schedule brings about.

  A system is one function from a turn and a state to the next state; a turn belongs to a
  thread and carries whatever the outside decides at that moment. A blocked thread's turn
  leaves the state as it is. A schedule is an infinite list of turns, and it is fair when
  every thread gets a turn again and again.

    · A property that every turn keeps holds at every moment (`course_keeps`).
    · Where every turn of one helpful thread brings the state closer to a goal, and every
      other turn brings it closer too or leaves both the distance and the helpful thread
      as they are, a fair schedule reaches the goal (`course_reaches`).
-/

import Mathlib.Order.WellFounded
import Mathlib.Order.RelClasses

namespace Imghost.Data

variable {σ Turn Thread : Type}

/-- The states a schedule goes through, one a turn. -/
def course (step : Turn → σ → σ) (schedule : ℕ → Turn) (start : σ) : ℕ → σ
  | 0 => start
  | n + 1 => step (schedule n) (course step schedule start n)

/-- Every thread gets a turn after every moment. -/
def Fair (thread : Turn → Thread) (schedule : ℕ → Turn) : Prop :=
  ∀ t n, ∃ m, n ≤ m ∧ thread (schedule m) = t

variable {step : Turn → σ → σ} {schedule : ℕ → Turn} {start : σ}

@[simp] theorem course_zero : course step schedule start 0 = start := rfl

theorem course_succ (n : ℕ) :
    course step schedule start (n + 1) = step (schedule n) (course step schedule start n) := rfl

/-- What holds at the start and is kept by every turn of the schedule holds at every moment. -/
theorem course_keeps {P : σ → Prop} (first : P start)
    (keeps : ∀ n s, P s → P (step (schedule n) s)) (n : ℕ) : P (course step schedule start n) := by
  induction n with
  | zero => exact first
  | succ n ih => exact keeps n _ ih

/-- From a state that no turn changes on, nothing changes. -/
theorem course_settles {n m : ℕ} (settled : ∀ turn, step turn (course step schedule start n) =
    course step schedule start n) (later : n ≤ m) :
    course step schedule start m = course step schedule start n := by
  induction later with
  | refl => rfl
  | step _ ih => rw [course_succ, ih, settled]

variable {α : Type} [LT α] {thread : Turn → Thread}

/-- The helpful thread brings the state closer to the goal, and the others never undo that. -/
structure Progress (step : Turn → σ → σ) (thread : Turn → Thread) (Inv Goal : σ → Prop)
    (rank : σ → α) (helpful : σ → Thread) : Prop where
  helps : ∀ turn s, Inv s → ¬ Goal s → thread turn = helpful s → rank (step turn s) < rank s
  waits : ∀ turn s, Inv s → ¬ Goal s → rank (step turn s) < rank s ∨
    (rank (step turn s) = rank s ∧ helpful (step turn s) = helpful s)

variable {Inv Goal : σ → Prop} {rank : σ → α} {helpful : σ → Thread}

/-- Until the helpful thread has its turn, the rank has dropped or nothing has changed. -/
theorem Progress.until_turn (progress : Progress step thread Inv Goal rank helpful)
    (inv : ∀ n, Inv (course step schedule start n)) (away : ∀ n, ¬ Goal (course step schedule start n))
    (n d : ℕ) :
    (∃ m, rank (course step schedule start m) < rank (course step schedule start n)) ∨
    (rank (course step schedule start (n + d)) = rank (course step schedule start n) ∧
      helpful (course step schedule start (n + d)) = helpful (course step schedule start n)) := by
  induction d with
  | zero => exact .inr ⟨rfl, rfl⟩
  | succ d ih =>
    rcases ih with lower | ⟨same, helper⟩
    · exact .inl lower
    · rcases progress.waits (schedule (n + d)) _ (inv (n + d)) (away (n + d)) with drop | ⟨kept, still⟩
      · left
        exact ⟨n + d + 1, by rw [course_succ, ← same]; exact drop⟩
      · right
        rw [← Nat.add_assoc, course_succ]
        exact ⟨kept.trans same, still.trans helper⟩

/-- A state away from the goal is followed by one of lower rank. -/
theorem Progress.drops (progress : Progress step thread Inv Goal rank helpful)
    (fair : Fair thread schedule) (inv : ∀ n, Inv (course step schedule start n))
    (away : ∀ n, ¬ Goal (course step schedule start n)) (n : ℕ) :
    ∃ m, rank (course step schedule start m) < rank (course step schedule start n) := by
  obtain ⟨m, later, turn⟩ := fair (helpful (course step schedule start n)) n
  obtain ⟨d, rfl⟩ := Nat.exists_eq_add_of_le later
  rcases progress.until_turn inv away n d with lower | ⟨same, helper⟩
  · exact lower
  · have drop := progress.helps (schedule (n + d)) _ (inv (n + d)) (away (n + d)) (turn.trans helper.symm)
    exact ⟨n + d + 1, by rw [course_succ, ← same]; exact drop⟩

/-- A fair schedule reaches the goal. -/
theorem course_reaches [WellFoundedLT α] (progress : Progress step thread Inv Goal rank helpful)
    (fair : Fair thread schedule) (inv : ∀ n, Inv (course step schedule start n)) :
    ∃ n, Goal (course step schedule start n) := by
  by_contra never
  have away : ∀ n, ¬ Goal (course step schedule start n) := fun n reached => never ⟨n, reached⟩
  have none_left : ∀ a, ¬ ∃ n, rank (course step schedule start n) = a := by
    intro a
    induction a using WellFoundedLT.induction with
    | ind a ih =>
      intro ⟨n, at_a⟩
      obtain ⟨m, lower⟩ := progress.drops fair inv away n
      exact ih _ (at_a ▸ lower) ⟨m, rfl⟩
  exact none_left _ ⟨0, rfl⟩

/-- Two threads that take turns are scheduled fairly. -/
theorem fair_alternating {even odd : Turn} (two : ∀ t, t = thread even ∨ t = thread odd) :
    Fair thread (fun n => if n % 2 = 0 then even else odd) := by
  intro t n
  rcases two t with rfl | rfl
  · exact ⟨2 * n, by omega, by simp⟩
  · exact ⟨2 * n + 1, by omega, by simp⟩

end Imghost.Data
