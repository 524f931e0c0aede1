/-
  Imghost.Processors.FrameIndexes — which frames of an animation its thumbnail shows.

  `_frame_indexes` takes every frame of a short animation, and of a long one
  a hundred points evenly spaced between the first frame and the last, each rounded to a
  frame. The points are more than one frame apart, so no two of them meet and the set they
  are collected in loses none (`frame_indexes_sample`).
-/

import Imghost.Data.Binary64
import Mathlib.Data.Finset.Sort

namespace Imghost.Processors

open Imghost.Data

def animatedThumbMaxSourceFrames : ℤ := 100

/-- `round(position * last_index / (sample_count - 1))`. -/
def framePoint (lastIndex sampleCount position : ℤ) : ℤ :=
  roundEven ((position * lastIndex : ℤ) / (sampleCount - 1 : ℤ))

/-- `range(n)`. -/
def rangeList (n : ℤ) : List ℤ := (List.range n.toNat).map Int.ofNat

/-- `_frame_indexes`. -/
def frameIndexes (frameCount : ℤ) : List ℤ :=
  if frameCount ≤ animatedThumbMaxSourceFrames then rangeList frameCount
  else
    let sampleCount := max 2 animatedThumbMaxSourceFrames
    let lastIndex := frameCount - 1
    ((rangeList sampleCount).map (framePoint lastIndex sampleCount)).toFinset.sort (· ≤ ·)

example : frameIndexes 3 = [0, 1, 2] := by decide

/-! ## `range` -/

theorem mem_rangeList {n i : ℤ} : i ∈ rangeList n ↔ 0 ≤ i ∧ i < n := by
  simp only [rangeList, List.mem_map, List.mem_range]
  constructor
  · rintro ⟨k, hk, rfl⟩
    simp only [Int.ofNat_eq_natCast]
    omega
  · intro ⟨hlow, hhigh⟩
    exact ⟨i.toNat, by omega, by simp; omega⟩

theorem rangeList_increasing (n : ℤ) : (rangeList n).Pairwise (· < ·) := by
  apply List.Pairwise.map _ _ List.pairwise_lt_range
  intro a b hab
  exact Int.ofNat_lt.mpr hab

@[simp] theorem rangeList_length (n : ℤ) : (rangeList n).length = n.toNat := by
  simp [rangeList]

theorem rangeList_head {n : ℤ} (h : 1 ≤ n) : (rangeList n).head? = some 0 := by
  obtain ⟨k, hk⟩ : ∃ k, n.toNat = k + 1 := ⟨n.toNat - 1, by omega⟩
  simp [rangeList, hk, List.range_succ_eq_map]

theorem rangeList_getLast {n : ℤ} (h : 1 ≤ n) : (rangeList n).getLast? = some (n - 1) := by
  obtain ⟨k, hk⟩ : ∃ k, n.toNat = k + 1 := ⟨n.toNat - 1, by omega⟩
  simp only [rangeList, hk, List.range_succ, List.map_append, List.map_singleton, List.getLast?_append,
    List.getLast?_singleton, Option.some_or, Int.ofNat_eq_natCast, Option.some.injEq]
  omega

/-! ## Points more than one frame apart -/

section

variable {lastIndex sampleCount : ℤ}

/-- With more frames than points, each point comes after the one before it. -/
theorem framePoint_lt (hsamples : 2 ≤ sampleCount) (hfar : sampleCount ≤ lastIndex) {p q : ℤ} (h : p < q) :
    framePoint lastIndex sampleCount p < framePoint lastIndex sampleCount q := by
  have hgap : (0 : ℚ) < (sampleCount - 1 : ℤ) := by exact_mod_cast (by omega : 0 < sampleCount - 1)
  have hsteps : p * lastIndex + (sampleCount - 1) < q * lastIndex := by nlinarith
  apply roundEven_lt
  rw [div_add_one hgap.ne', div_lt_div_iff_of_pos_right hgap]
  exact_mod_cast hsteps

theorem framePoint_le (hsamples : 2 ≤ sampleCount) (hfar : sampleCount ≤ lastIndex) {p q : ℤ} (h : p ≤ q) :
    framePoint lastIndex sampleCount p ≤ framePoint lastIndex sampleCount q := by
  rcases h.eq_or_lt with rfl | h
  · exact le_rfl
  · exact (framePoint_lt hsamples hfar h).le

theorem framePoint_first : framePoint lastIndex sampleCount 0 = 0 := by
  have := roundEven_intCast 0
  simpa [framePoint] using this

theorem framePoint_last (lastIndex : ℤ) (hsamples : 2 ≤ sampleCount) :
    framePoint lastIndex sampleCount (sampleCount - 1) = lastIndex := by
  have hgap : ((sampleCount - 1 : ℤ) : ℚ) ≠ 0 := by exact_mod_cast (by omega : sampleCount - 1 ≠ 0)
  rw [framePoint, Int.cast_mul, mul_comm, mul_div_assoc, div_self hgap, mul_one, roundEven_intCast]

end

/-- A hundred points have an odd number of gaps, so no point lies half-way between two frames. -/
theorem no_halfway (lastIndex position n : ℤ) :
    ((position * lastIndex : ℤ) / (animatedThumbMaxSourceFrames - 1 : ℤ) : ℚ) ≠ n + 1 / 2 := by
  intro half
  have hgap : ((animatedThumbMaxSourceFrames - 1 : ℤ) : ℚ) = 99 := by norm_num [animatedThumbMaxSourceFrames]
  rw [hgap, div_eq_iff (by norm_num)] at half
  have doubled : 2 * (position * lastIndex) = 99 * (2 * n + 1) := by
    have : (2 * (position * lastIndex : ℤ) : ℚ) = 99 * (2 * n + 1) := by rw [half]; ring
    exact_mod_cast this
  omega

/-! ## The sample -/

/-- Of an animation longer than the sample, the points are in order and no two meet. -/
theorem frameIndexes_long {frameCount : ℤ} (hlong : animatedThumbMaxSourceFrames < frameCount) :
    frameIndexes frameCount = (rangeList animatedThumbMaxSourceFrames).map
      (framePoint (frameCount - 1) animatedThumbMaxSourceFrames) ∧ (frameIndexes frameCount).Pairwise (· < ·) := by
  have hincreasing : ((rangeList animatedThumbMaxSourceFrames).map
      (framePoint (frameCount - 1) animatedThumbMaxSourceFrames)).Pairwise (· < ·) := by
    refine List.Pairwise.map _ (fun p q h => ?_) (rangeList_increasing _)
    exact framePoint_lt (by decide) (by omega) h
  have hsort : frameIndexes frameCount = (rangeList animatedThumbMaxSourceFrames).map
      (framePoint (frameCount - 1) animatedThumbMaxSourceFrames) := by
    rw [frameIndexes, if_neg (by omega)]
    exact (List.toFinset_sort _ (hincreasing.imp ne_of_lt)).mpr (hincreasing.imp le_of_lt)
  rw [hsort]
  exact ⟨rfl, hincreasing⟩

end Imghost.Processors
