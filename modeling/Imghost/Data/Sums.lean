/-
  Imghost.Data.Sums — a measure summed over the rows of a table.

  What a `DELETE` takes off a sum is the sum over the rows it takes; the sums over the
  groups of a `GROUP BY` make up the sum over all rows; two measures, one below the
  other row by row, have one sum exactly when they agree on every row.
-/

import Imghost.Data.Tally
import Mathlib.Algebra.Order.BigOperators.Group.List
import Mathlib.Algebra.Order.Ring.Nat
import Mathlib.Data.List.Nodup

namespace Imghost.Data

variable {α κ : Type} (f g : α → Nat)

theorem tally_perm {l l' : List α} (h : l.Perm l') : tally f l = tally f l' := (h.map f).sum_eq

/-- Some rows, and the others. -/
theorem tally_filter_add (p : α → Bool) (l : List α) : tally f (l.filter p) + tally f (l.filter (!p ·)) = tally f l := by
  induction l with
  | nil => rfl
  | cons a l ih =>
    rcases h : p a with _ | _
    · simp only [List.filter_cons, h, Bool.not_false, if_true, Bool.false_eq_true, if_false, tally_cons]
      omega
    · simp only [List.filter_cons, h, Bool.not_true, if_true, Bool.false_eq_true, if_false, tally_cons]
      omega

theorem le_tally {l : List α} {a : α} (h : a ∈ l) : f a ≤ tally f l := List.le_sum_of_mem (List.mem_map_of_mem h)

theorem tally_le {l : List α} (h : ∀ a ∈ l, f a ≤ g a) : tally f l ≤ tally g l := by
  induction l with
  | nil => simp
  | cons a l ih =>
    have ha := h a List.mem_cons_self
    have hl := ih fun b hb => h b (List.mem_cons_of_mem a hb)
    simp only [tally_cons]
    omega

theorem tally_eq_iff {l : List α} (h : ∀ a ∈ l, f a ≤ g a) : tally g l = tally f l ↔ ∀ a ∈ l, g a = f a := by
  induction l with
  | nil => simp
  | cons a l ih =>
    have ha := h a List.mem_cons_self
    have hl := fun b hb => h b (List.mem_cons_of_mem a hb)
    have hle := tally_le f g hl
    simp only [tally_cons, List.forall_mem_cons, ← ih hl]
    omega

variable [DecidableEq κ] (key : α → κ)

/-- The rows of one group. -/
def group (k : κ) (l : List α) : List α := l.filter (key · == k)

theorem filter_eq_group {p : α → Bool} {k : κ} (h : ∀ a, p a = true ↔ key a = k) (l : List α) :
    l.filter p = group key k l := by
  refine List.filter_congr fun a _ => ?_
  rw [Bool.eq_iff_iff, h, beq_iff_eq]

theorem tally_group_cons (k : κ) (a : α) (l : List α) :
    tally f (group key k (a :: l)) = (if key a = k then f a else 0) + tally f (group key k l) := by
  by_cases h : key a = k
  · simp [group, h]
  · simp [group, h]

theorem sum_single {keys : List κ} (hkeys : keys.Nodup) {k : κ} (hk : k ∈ keys) (n : Nat) :
    (keys.map fun k' => if k = k' then n else 0).sum = n := by
  induction keys with
  | nil => cases hk
  | cons k' keys ih =>
    obtain ⟨hnot, hnodup⟩ := List.nodup_cons.mp hkeys
    simp only [List.map_cons, List.sum_cons]
    rcases List.mem_cons.mp hk with rfl | hk
    · have hzero : (keys.map fun k' => if k = k' then n else 0) = keys.map fun _ => 0 := by
        apply List.map_congr_left
        intro k' hk'
        have hne : k ≠ k' := by
          intro h
          exact hnot (h ▸ hk')
        rw [if_neg hne]
      rw [if_pos rfl, hzero]
      simp
    · have hne : k ≠ k' := by
        intro h
        exact hnot (h ▸ hk)
      rw [if_neg hne, ih hnodup hk, Nat.zero_add]

/-- The groups make up the whole. -/
theorem sum_groups {keys : List κ} (hkeys : keys.Nodup) {l : List α} (h : ∀ a ∈ l, key a ∈ keys) :
    (keys.map fun k => tally f (group key k l)).sum = tally f l := by
  induction l with
  | nil => simp [group]
  | cons a l ih =>
    have hl := ih fun b hb => h b (List.mem_cons_of_mem a hb)
    simp only [tally_group_cons, List.sum_map_add, tally_cons]
    rw [hl, sum_single hkeys (h a List.mem_cons_self)]

end Imghost.Data
