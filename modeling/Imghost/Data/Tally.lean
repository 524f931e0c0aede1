/-
  Imghost.Data.Tally — what is counted over the places of a list.

  `tally f xs` adds up what `f` finds in each place. Replacing or removing one place
  exchanges its share for another and leaves the rest alone.
-/

import Mathlib.Algebra.BigOperators.Group.List.Basic
import Mathlib.Algebra.Order.Group.Multiset

namespace Imghost.Data

variable {α M : Type} [AddCommMonoid M] {f : α → M} {xs ys : List α} {x y : α} {i : Nat}

def tally (f : α → M) (xs : List α) : M := (xs.map f).sum

@[simp] theorem tally_nil : tally f [] = 0 := rfl
@[simp] theorem tally_cons : tally f (x :: xs) = f x + tally f xs := List.sum_cons

@[simp] theorem tally_append : tally f (xs ++ ys) = tally f xs + tally f ys := by
  rw [tally, List.map_append, List.sum_append]
  rfl

theorem tally_snoc : tally f (xs ++ [x]) = tally f xs + f x := by simp

theorem tally_eq_zero (h : ∀ x ∈ xs, f x = 0) : tally f xs = 0 := by
  induction xs with
  | nil => rfl
  | cons x xs ih =>
    rw [tally_cons, h x List.mem_cons_self, ih fun y hy => h y (List.mem_cons_of_mem x hy), add_zero]

/-- The share of one place, and of the others. -/
theorem tally_eraseIdx (h : xs[i]? = some x) : tally f xs = f x + tally f (xs.eraseIdx i) := by
  induction xs generalizing i with
  | nil => cases h
  | cons z xs ih =>
    cases i with
    | zero =>
      obtain rfl : z = x := by simpa using h
      rfl
    | succ i =>
      rw [List.eraseIdx_cons_succ, tally_cons, tally_cons, ih (by simpa using h), add_left_comm]

theorem tally_set (h : xs[i]? = some x) : tally f (xs.set i y) = f y + tally f (xs.eraseIdx i) := by
  induction xs generalizing i with
  | nil => cases h
  | cons z xs ih =>
    cases i with
    | zero => rfl
    | succ i =>
      rw [List.set_cons_succ, List.eraseIdx_cons_succ, tally_cons, tally_cons, ih (by simpa using h), add_left_comm]

/-- The share of the first place that satisfies `p`, and of the others. -/
theorem tally_eraseP {p : α → Bool} (h : xs.find? p = some x) : tally f xs = f x + tally f (xs.eraseP p) := by
  induction xs with
  | nil => cases h
  | cons z xs ih =>
    by_cases hz : p z = true
    · rw [List.find?_cons_of_pos hz] at h
      obtain rfl := Option.some.inj h
      rw [List.eraseP_cons_of_pos hz, tally_cons]
    · rw [List.find?_cons_of_neg hz] at h
      rw [List.eraseP_cons_of_neg hz, tally_cons, tally_cons, ih h, add_left_comm]

/-- What one place holds is counted. -/
theorem mem_tally {β : Type} {f : α → Multiset β} {b : β} (hx : x ∈ xs) (hb : b ∈ f x) : b ∈ tally f xs := by
  induction xs with
  | nil => cases hx
  | cons z xs ih =>
    rw [tally_cons, Multiset.mem_add]
    rcases List.mem_cons.mp hx with rfl | hx
    · exact .inl hb
    · exact .inr (ih hx)

theorem exists_of_mem_tally {β : Type} {f : α → Multiset β} {b : β} (hb : b ∈ tally f xs) : ∃ x ∈ xs, b ∈ f x := by
  induction xs with
  | nil => cases hb
  | cons z xs ih =>
    rw [tally_cons, Multiset.mem_add] at hb
    rcases hb with hb | hb
    · exact ⟨z, List.mem_cons_self, hb⟩
    · obtain ⟨x, hx, hb⟩ := ih hb
      exact ⟨x, List.mem_cons_of_mem z hx, hb⟩

/-- What is found in the places of a list, with one of them replaced. -/
theorem filterMap_set {β : Type} {f : α → Option β} (h : xs[i]? = some x) : ∃ before after,
    xs.filterMap f = before ++ (f x).toList ++ after ∧ ∀ y, (xs.set i y).filterMap f = before ++ (f y).toList ++ after := by
  induction xs generalizing i with
  | nil => cases h
  | cons z xs ih =>
    cases i with
    | zero =>
      obtain rfl : z = x := by simpa using h
      refine ⟨[], xs.filterMap f, ?_, fun y => ?_⟩
      · cases hz : f z <;> simp [hz]
      · cases hy : f y <;> simp [hy]
    | succ i =>
      obtain ⟨before, after, hxs, hset⟩ := ih (by simpa using h)
      refine ⟨(f z).toList ++ before, after, ?_, fun y => ?_⟩
      · cases hz : f z <;> simp [hz, hxs]
      · cases hz : f z <;> simp [hz, hset]

end Imghost.Data
