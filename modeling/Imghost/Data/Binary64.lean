/-
  Imghost.Data.Binary64 — the double nearest a number that is not negative.

  Between two powers of two the doubles are evenly spaced, and below the least normal one
  all of them are. `nearest` rounds to the next of them, ties to the even multiple of the
  spacing; `toDouble` also says when the result is beyond the largest double.

  - `half_lt_nearest`, `nearest_le_double`: a number of at least 1 keeps its place between
    two powers of two, so rounding neither halves nor doubles it.
  - `nearest_lt_one_iff`: which numbers stay below 1.
-/

import Mathlib.Algebra.Order.Floor.Ring
import Mathlib.Data.Int.Log
import Mathlib.Data.Rat.Floor
import Mathlib.Tactic.FieldSimp
import Mathlib.Tactic.Linarith
import Mathlib.Tactic.Positivity

namespace Imghost.Data

/-! ## Rounding to an integer -/

/-- The nearest integer, the even one of two that are equally near. -/
def roundEven (x : ℚ) : ℤ :=
  if x - ⌊x⌋ < 1 / 2 then ⌊x⌋ else if 1 / 2 < x - ⌊x⌋ then ⌊x⌋ + 1 else if ⌊x⌋ % 2 = 0 then ⌊x⌋ else ⌊x⌋ + 1

theorem floor_le_roundEven (x : ℚ) : ⌊x⌋ ≤ roundEven x := by
  unfold roundEven
  split_ifs <;> omega

theorem roundEven_le_floor_succ (x : ℚ) : roundEven x ≤ ⌊x⌋ + 1 := by
  unfold roundEven
  split_ifs <;> omega

theorem le_roundEven {x : ℚ} {n : ℤ} (h : (n : ℚ) ≤ x) : n ≤ roundEven x :=
  (Int.le_floor.mpr h).trans (floor_le_roundEven x)

@[simp] theorem roundEven_intCast (n : ℤ) : roundEven (n : ℚ) = n := by
  simp [roundEven]

theorem roundEven_le {x : ℚ} {n : ℤ} (h : x ≤ n) : roundEven x ≤ n := by
  rcases h.eq_or_lt with rfl | h
  · simp
  · have hfloor : ⌊x⌋ < n := Int.floor_lt.mpr h
    have := roundEven_le_floor_succ x
    omega

theorem roundEven_le_add_half (x : ℚ) : (roundEven x : ℚ) ≤ x + 1 / 2 := by
  have hfloor := Int.floor_le x
  unfold roundEven
  split_ifs <;> push_cast <;> linarith

theorem sub_half_le_roundEven (x : ℚ) : x - 1 / 2 ≤ (roundEven x : ℚ) := by
  have hfloor := Int.lt_floor_add_one x
  unfold roundEven
  split_ifs <;> push_cast <;> linarith

theorem roundEven_lt {x y : ℚ} (h : x + 1 < y) : roundEven x < roundEven y := by
  have hx := roundEven_le_add_half x
  have hy := sub_half_le_roundEven y
  have : (roundEven x : ℚ) < roundEven y := by linarith
  exact_mod_cast this

/-! ## Rounding to a double -/

/-- The distance between the doubles around `x`. -/
def spacing (x : ℚ) : ℚ := 2 ^ (max (Int.log 2 x) (-1022) - 52)

def nearest (x : ℚ) : ℚ := roundEven (x / spacing x) * spacing x

/-- The double nearest `x`; `none` where that is an infinity. -/
def toDouble (x : ℚ) : Option ℚ := if nearest x < 2 ^ 1024 then some (nearest x) else none

variable {x : ℚ}

theorem spacing_pos (x : ℚ) : 0 < spacing x := zpow_pos (by decide) _

theorem nearest_nonneg (h : 0 ≤ x) : 0 ≤ nearest x := by
  have hround : (0 : ℤ) ≤ roundEven (x / spacing x) := by
    apply le_roundEven
    rw [Int.cast_zero]
    exact div_nonneg h (spacing_pos x).le
  have : (0 : ℚ) ≤ roundEven (x / spacing x) := by exact_mod_cast hround
  exact mul_nonneg this (spacing_pos x).le

/-- A whole number of spacings above `x` is above its double. -/
theorem nearest_le_of_le (n : ℤ) (h : x ≤ n * spacing x) : nearest x ≤ n * spacing x := by
  have hle : x / spacing x ≤ n := (div_le_iff₀ (spacing_pos x)).mpr h
  have : ((roundEven (x / spacing x) : ℤ) : ℚ) ≤ n := by exact_mod_cast roundEven_le hle
  exact mul_le_mul_of_nonneg_right this (spacing_pos x).le

theorem le_nearest_of_le (n : ℤ) (h : n * spacing x ≤ x) : n * spacing x ≤ nearest x := by
  have hle : (n : ℚ) ≤ x / spacing x := (le_div_iff₀ (spacing_pos x)).mpr h
  have : (n : ℚ) ≤ roundEven (x / spacing x) := by exact_mod_cast le_roundEven hle
  exact mul_le_mul_of_nonneg_right this (spacing_pos x).le

/-- A power of two, from the spacing on, is a whole number of spacings. -/
theorem zpow_eq_mul_spacing {k : ℕ} {e : ℤ} (h : max (Int.log 2 x) (-1022) - 52 + k = e) :
    (2 : ℚ) ^ e = ((2 ^ k : ℤ) : ℚ) * spacing x := by
  subst h
  rw [spacing, zpow_add₀ (by decide), zpow_natCast]
  push_cast
  ring

theorem nearest_le_zpow (x : ℚ) : nearest x ≤ 2 ^ (max (Int.log 2 x) (-1022) + 1) := by
  have hpow := zpow_eq_mul_spacing (x := x) (k := 53) (e := max (Int.log 2 x) (-1022) + 1) (by ring)
  rw [hpow]
  apply nearest_le_of_le
  rw [← hpow]
  calc x ≤ 2 ^ (Int.log 2 x + 1) := (Int.lt_zpow_succ_log_self (b := 2) (by decide) x).le
    _ ≤ 2 ^ (max (Int.log 2 x) (-1022) + 1) := zpow_le_zpow_right₀ (by decide) (by omega)

theorem log_nonneg (h : 1 ≤ x) : 0 ≤ Int.log 2 x := by
  have hmono : Int.log 2 (1 : ℚ) ≤ Int.log 2 x := Int.log_mono_right (by decide) h
  simpa using hmono

/-- From 1 on, the power of two below `x` is also below its double. -/
theorem zpow_le_nearest (h : 1 ≤ x) : (2 : ℚ) ^ Int.log 2 x ≤ nearest x := by
  have hlog := log_nonneg h
  have hpow := zpow_eq_mul_spacing (x := x) (k := 52) (e := Int.log 2 x) (by omega)
  rw [hpow]
  apply le_nearest_of_le
  rw [← hpow]
  exact Int.zpow_log_le_self (by decide) (by linarith)

theorem one_le_nearest (h : 1 ≤ x) : 1 ≤ nearest x :=
  (one_le_zpow₀ (by decide) (log_nonneg h)).trans (zpow_le_nearest h)

theorem half_lt_nearest (h : 1 ≤ x) : x < 2 * nearest x := by
  have habove := Int.lt_zpow_succ_log_self (b := 2) (by decide) x
  rw [Nat.cast_ofNat, zpow_add_one₀ (by decide)] at habove
  have := zpow_le_nearest h
  linarith

theorem nearest_le_double (h : 1 ≤ x) : nearest x ≤ 2 * x := by
  have hlog := log_nonneg h
  have hle := nearest_le_zpow x
  rw [max_eq_left (by omega), zpow_add_one₀ (by decide)] at hle
  have hbelow := Int.zpow_log_le_self (b := 2) (r := x) (by decide) (by linarith)
  rw [Nat.cast_ofNat] at hbelow
  linarith

/-- The integer part of the double is more than a quarter of the number. -/
theorem quarter_lt_floor (h : 1 ≤ x) : x < 4 * ⌊nearest x⌋ := by
  have hone := one_le_nearest h
  have hhalf := half_lt_nearest h
  have hfloor : (1 : ℚ) ≤ ⌊nearest x⌋ := by exact_mod_cast Int.le_floor.mpr (by exact_mod_cast hone)
  have := Int.lt_floor_add_one (nearest x)
  linarith

theorem floor_le_double (h : 1 ≤ x) : (⌊nearest x⌋ : ℚ) ≤ 2 * x :=
  (Int.floor_le (nearest x)).trans (nearest_le_double h)

/-- A number so much smaller is not confused with the double. -/
theorem floor_ne_of_low {y : ℚ} (h : 1 ≤ x) (hlow : 4 * y ≤ x) : ⌊nearest x⌋ ≠ ⌊y⌋ := by
  intro heq
  have hquarter := quarter_lt_floor h
  have := Int.floor_le y
  rw [heq] at hquarter
  linarith

theorem floor_ne_of_high {y : ℚ} (h : 1 ≤ x) (hhigh : 2 * x + 1 ≤ y) : ⌊nearest x⌋ ≠ ⌊y⌋ := by
  intro heq
  have hdouble := floor_le_double h
  have := Int.lt_floor_add_one y
  rw [heq] at hdouble
  linarith

/-! ## Below 1 -/

theorem nearest_le_one (h : x < 1) : nearest x ≤ 1 := by
  rcases le_or_gt x 0 with hx | hx
  · have hle := nearest_le_of_le (x := x) 0 (by simpa using hx)
    rw [Int.cast_zero, zero_mul] at hle
    linarith
  · have hlog : Int.log 2 x < 0 := by
      apply (Int.lt_zpow_iff_log_lt (by decide) hx).mp
      simpa using h
    calc nearest x ≤ 2 ^ (max (Int.log 2 x) (-1022) + 1) := nearest_le_zpow x
      _ ≤ 2 ^ (0 : ℤ) := zpow_le_zpow_right₀ (by decide) (by omega)
      _ = 1 := by norm_num

theorem nearest_lt_one_of_lt_half (h : 0 ≤ x) (hx : x < 1 / 2) : nearest x < 1 := by
  rcases h.eq_or_lt with rfl | hpos
  · have hle := nearest_le_of_le (x := 0) 0 (by simp)
    rw [Int.cast_zero, zero_mul] at hle
    linarith
  · have hlog : Int.log 2 x < -1 := by
      apply (Int.lt_zpow_iff_log_lt (by decide) hpos).mp
      norm_num
      linarith
    calc nearest x ≤ 2 ^ (max (Int.log 2 x) (-1022) + 1) := nearest_le_zpow x
      _ ≤ 2 ^ (-1 : ℤ) := zpow_le_zpow_right₀ (by decide) (by omega)
      _ < 1 := by norm_num

/-- The doubles from one half to 1 are `2⁻⁵³` apart. -/
theorem spacing_upper_half (h : 1 / 2 ≤ x) (hx : x < 1) : spacing x = 1 / 2 ^ 53 := by
  have hlow : -1 ≤ Int.log 2 x := by
    apply (Int.zpow_le_iff_le_log (by decide) (by linarith)).mp
    norm_num
    linarith
  have hhigh : Int.log 2 x < 0 := by
    apply (Int.lt_zpow_iff_log_lt (by decide) (by linarith)).mp
    simpa using hx
  have hlog : Int.log 2 x = -1 := by omega
  rw [spacing, hlog]
  norm_num

theorem roundEven_lt_iff {y : ℚ} {n : ℤ} (hy : y < n) (hn : n % 2 = 0) : roundEven y < n ↔ y < n - 1 / 2 := by
  have hfloor : ⌊y⌋ < n := Int.floor_lt.mpr hy
  have hlt := Int.lt_floor_add_one y
  rcases (Int.le_sub_one_of_lt hfloor).eq_or_lt with heq | hless
  · have hcast : (⌊y⌋ : ℚ) = n - 1 := by rw [heq]; push_cast; ring
    unfold roundEven
    rw [hcast]
    split_ifs <;> constructor <;> intro h <;> first | omega | linarith
  · have hcast : (⌊y⌋ : ℚ) + 1 ≤ n - 1 := by
      have : ⌊y⌋ + 1 ≤ n - 1 := by omega
      exact_mod_cast this
    have := roundEven_le_floor_succ y
    exact ⟨fun _ => by linarith, fun _ => by omega⟩

theorem nearest_lt_one_iff (h : 0 ≤ x) (hx : x < 1) : nearest x < 1 ↔ x < 1 - 1 / 2 ^ 54 := by
  by_cases hhalf : x < 1 / 2
  · refine ⟨fun _ => ?_, fun _ => nearest_lt_one_of_lt_half h hhalf⟩
    norm_num
    linarith
  · have hspacing := spacing_upper_half (not_lt.mp hhalf) hx
    have hscaled : x / (1 / 2 ^ 53) < ((2 ^ 53 : ℤ) : ℚ) := by
      rw [div_lt_iff₀ (by positivity)]
      norm_num
      linarith
    have hround := roundEven_lt_iff hscaled (by norm_num)
    calc nearest x < 1 ↔ roundEven (x / (1 / 2 ^ 53)) < (2 ^ 53 : ℤ) := by
          rw [nearest, hspacing, mul_one_div, div_lt_one (by positivity)]
          exact_mod_cast Iff.rfl
      _ ↔ x / (1 / 2 ^ 53) < ((2 ^ 53 : ℤ) : ℚ) - 1 / 2 := hround
      _ ↔ x < 1 - 1 / 2 ^ 54 := by
          rw [div_lt_iff₀ (by positivity)]
          norm_num

end Imghost.Data
