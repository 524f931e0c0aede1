/-
  Imghost.Data.Fresh — names that are not taken yet.

  `firstFresh` tries a numbered family of names until one is free: with pairwise different names
  there are only as many to skip as are taken (`firstFresh_finds`). `assign` gives each item of a
  list a name, in order, and remembers it: where every pick is fresh, the names are pairwise
  different (`assign_nodup`).
-/

import Mathlib.Data.List.Nodup
import Mathlib.Data.List.Perm.Subperm
import Mathlib.Data.List.Range

namespace Imghost.Data

variable {α β : Type}

section

variable [DecidableEq α]

/-- The first free name from the number `i` on; `none` when the fuel is used up. -/
def firstFresh (name : Nat → α) (seen : List α) : Nat → Nat → Option α
  | 0, _ => none
  | fuel + 1, i => if name i ∈ seen then firstFresh name seen fuel (i + 1) else some (name i)

variable {name : Nat → α} {seen : List α}

theorem firstFresh_eq {fuel i : Nat} {a : α} (h : firstFresh name seen fuel i = some a) :
    a ∉ seen ∧ ∃ k, i ≤ k ∧ a = name k ∧ ∀ j, i ≤ j → j < k → name j ∈ seen := by
  induction fuel generalizing i with
  | zero => cases h
  | succ fuel ih =>
    unfold firstFresh at h
    split at h
    · rename_i htaken
      obtain ⟨hfree, k, hk, ha, hskipped⟩ := ih h
      refine ⟨hfree, k, Nat.le_of_succ_le hk, ha, ?_⟩
      intro j hij hjk
      rcases Nat.eq_or_lt_of_le hij with rfl | hlt
      · exact htaken
      · exact hskipped j hlt hjk
    · rename_i hfree
      obtain rfl := Option.some.inj h
      exact ⟨hfree, i, Nat.le_refl i, rfl, fun j hij hji => absurd hij (Nat.not_le.mpr hji)⟩

theorem firstFresh_none {fuel i : Nat} (h : firstFresh name seen fuel i = none) : ∀ j, i ≤ j → j < i + fuel → name j ∈ seen := by
  induction fuel generalizing i with
  | zero =>
    intro j hij hj
    omega
  | succ fuel ih =>
    unfold firstFresh at h
    split at h
    · rename_i htaken
      intro j hij hj
      rcases Nat.eq_or_lt_of_le hij with rfl | hlt
      · exact htaken
      · exact ih h j hlt (by omega)
    · cases h

/-- More fuel than names are taken is enough. -/
theorem firstFresh_finds (hname : Function.Injective name) {fuel : Nat} (hfuel : seen.length < fuel) (i : Nat) :
    ∃ a, firstFresh name seen fuel i = some a := by
  by_contra hnone
  have htaken := firstFresh_none (Option.eq_none_iff_forall_ne_some.mpr (not_exists.mp hnone))
  have hsub : (List.range' i fuel).map name ⊆ seen := by
    intro a ha
    obtain ⟨j, hj, rfl⟩ := List.mem_map.mp ha
    rw [List.mem_range'_1] at hj
    exact htaken j hj.1 hj.2
  have hnodup : ((List.range' i fuel).map name).Nodup := List.Nodup.map hname List.nodup_range'
  have hlength := (List.subperm_of_subset hnodup hsub).length_le
  rw [List.length_map, List.length_range'] at hlength
  omega

/-- Fuel beyond that changes nothing. -/
theorem firstFresh_fuel {fuel fuel' i : Nat} {a : α} (h : firstFresh name seen fuel i = some a) (hle : fuel ≤ fuel') :
    firstFresh name seen fuel' i = some a := by
  induction fuel generalizing i fuel' with
  | zero => cases h
  | succ fuel ih =>
    obtain ⟨n, rfl⟩ : ∃ n, fuel' = n + 1 := ⟨fuel' - 1, by omega⟩
    unfold firstFresh at h ⊢
    split
    · rename_i htaken
      rw [if_pos htaken] at h
      exact ih h (by omega)
    · rename_i hfree
      rwa [if_neg hfree] at h

end

/-! ## A name for each item -/

/-- A name for each item, each picked with the names before it in view. -/
def assign (pick : β → List α → Option α) : List β → List α → Option (List α)
  | [], _ => some []
  | b :: bs, seen => do
    let a ← pick b seen
    let rest ← assign pick bs (a :: seen)
    return a :: rest

variable {pick : β → List α → Option α} {seen : List α}

theorem assign_cons {b : β} {bs : List β} {as : List α} (h : assign pick (b :: bs) seen = some as) :
    ∃ a rest, pick b seen = some a ∧ assign pick bs (a :: seen) = some rest ∧ as = a :: rest := by
  unfold assign at h
  obtain ⟨a, ha, h⟩ := Option.bind_eq_some_iff.mp h
  obtain ⟨rest, hrest, h⟩ := Option.bind_eq_some_iff.mp h
  exact ⟨a, rest, ha, hrest, (Option.some.inj h).symm⟩

theorem assign_total {n : Nat} (hpick : ∀ b seen, seen.length < n → ∃ a, pick b seen = some a) (bs : List β)
    (seen : List α) (hroom : seen.length + bs.length ≤ n) : ∃ as, assign pick bs seen = some as := by
  induction bs generalizing seen with
  | nil => exact ⟨[], rfl⟩
  | cons b bs ih =>
    rw [List.length_cons] at hroom
    obtain ⟨a, ha⟩ := hpick b seen (by omega)
    obtain ⟨rest, hrest⟩ := ih (a :: seen) (by rw [List.length_cons]; omega)
    refine ⟨a :: rest, ?_⟩
    rw [assign, ha, Option.bind_eq_bind, Option.bind_some, hrest]
    rfl

theorem assign_mono {pick' : β → List α → Option α} (hpick : ∀ b seen a, pick b seen = some a → pick' b seen = some a)
    {bs : List β} {as : List α} (h : assign pick bs seen = some as) : assign pick' bs seen = some as := by
  induction bs generalizing seen as with
  | nil => exact h
  | cons b bs ih =>
    obtain ⟨a, rest, ha, hrest, rfl⟩ := assign_cons h
    rw [assign, hpick b seen a ha, Option.bind_eq_bind, Option.bind_some, ih hrest]
    rfl

theorem assign_nodup (hpick : ∀ b seen a, pick b seen = some a → a ∉ seen) {bs : List β} {as : List α}
    (h : assign pick bs seen = some as) : as.Nodup ∧ ∀ a ∈ as, a ∉ seen := by
  induction bs generalizing seen as with
  | nil =>
    obtain rfl := Option.some.inj h
    simp
  | cons b bs ih =>
    obtain ⟨a, rest, ha, hrest, rfl⟩ := assign_cons h
    obtain ⟨hnodup, hfresh⟩ := ih hrest
    have hnew := hpick b seen a ha
    constructor
    · apply List.nodup_cons.mpr
      exact ⟨fun hmem => hfresh a hmem List.mem_cons_self, hnodup⟩
    · intro c hc
      rcases List.mem_cons.mp hc with rfl | hc
      · exact hnew
      · exact fun hseen => hfresh c hc (List.mem_cons_of_mem a hseen)

/-- What holds of every pick holds of every item and its name. -/
theorem assign_forall {P : β → α → Prop} (hpick : ∀ b seen a, pick b seen = some a → P b a) {bs : List β} {as : List α}
    (h : assign pick bs seen = some as) : List.Forall₂ P bs as := by
  induction bs generalizing seen as with
  | nil =>
    obtain rfl := Option.some.inj h
    exact .nil
  | cons b bs ih =>
    obtain ⟨a, rest, ha, hrest, rfl⟩ := assign_cons h
    exact .cons (hpick b seen a ha) (ih hrest)

end Imghost.Data
