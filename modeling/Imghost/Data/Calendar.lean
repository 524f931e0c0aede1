/-
  Imghost.Data.Calendar — days and dates of the proleptic Gregorian calendar.

  Day 1 is the first of January of the year 1. `ymd2ord` counts the days up to a date, and
  `ord2ymd` finds the date of a day in cycles of 400, 100, 4 and one years. The last day of a
  leap year and that of the 400 years end no cycle of their own: there the count of the smaller
  cycles is one too high.

  What is proved: `ord2ymd` gives a date of the calendar, and `ymd2ord` takes it back to its day.
-/

namespace Imghost.Data.Calendar

def isLeap (year : Nat) : Bool := year % 4 == 0 && (year % 100 != 0 || year % 400 == 0)

def daysInMonth (leap : Bool) : Nat → Nat
  | 2 => if leap then 29 else 28
  | 4 | 6 | 9 | 11 => 30
  | _ => 31

def daysBeforeMonth (leap : Bool) (month : Nat) : Nat :=
  [0, 0, 31, 59, 90, 120, 151, 181, 212, 243, 273, 304, 334].getD month 0 + if 2 < month ∧ leap then 1 else 0

def daysBeforeYear (year : Nat) : Nat := (year - 1) * 365 + (year - 1) / 4 - (year - 1) / 100 + (year - 1) / 400

/-- A date of the calendar. -/
structure IsDate (year month day : Nat) : Prop where
  year_pos : 1 ≤ year
  month_pos : 1 ≤ month
  month_le : month ≤ 12
  day_pos : 1 ≤ day
  day_le : day ≤ daysInMonth (isLeap year) month

instance (year month day : Nat) : Decidable (IsDate year month day) :=
  decidable_of_iff (1 ≤ year ∧ 1 ≤ month ∧ month ≤ 12 ∧ 1 ≤ day ∧ day ≤ daysInMonth (isLeap year) month)
    ⟨fun ⟨a, b, c, d, e⟩ => ⟨a, b, c, d, e⟩, fun ⟨a, b, c, d, e⟩ => ⟨a, b, c, d, e⟩⟩

/-- The day of a date. -/
def ymd2ord (year month day : Nat) : Nat := daysBeforeYear year + daysBeforeMonth (isLeap year) month + day

/-- The month and its day, of a day of the year counted from 0: a guess that is at most one
    month too late. -/
def monthDay (leap : Bool) (n : Nat) : Nat × Nat :=
  let month := (n + 50) / 32
  if n < daysBeforeMonth leap month then (month - 1, n - daysBeforeMonth leap (month - 1) + 1)
  else (month, n - daysBeforeMonth leap month + 1)

/-- The date of a day. -/
def ord2ymd (ordinal : Nat) : Nat × Nat × Nat :=
  let n := ordinal - 1
  let n400 := n / 146097
  let n100 := n % 146097 / 36524
  let n4 := n % 146097 % 36524 / 1461
  let n1 := n % 146097 % 36524 % 1461 / 365
  let year := n400 * 400 + 1 + n100 * 100 + n4 * 4 + n1
  if n1 = 4 ∨ n100 = 4 then (year - 1, 12, 31)
  else (year, monthDay (n1 = 3 ∧ (n4 ≠ 24 ∨ n100 = 3)) (n % 146097 % 36524 % 1461 % 365))

/-- Within a year. -/
theorem monthDay_spec : ∀ leap : Bool, ∀ n < 365 + leap.toNat,
    1 ≤ (monthDay leap n).1 ∧ (monthDay leap n).1 ≤ 12 ∧ 1 ≤ (monthDay leap n).2 ∧
      (monthDay leap n).2 ≤ daysInMonth leap (monthDay leap n).1 ∧
      daysBeforeMonth leap (monthDay leap n).1 + (monthDay leap n).2 = n + 1 := by
  decide +kernel

section

variable {a b c d : Nat}

/-- Years counted in cycles. -/
theorem isLeap_cycles (hb : b ≤ 3) (hc : c ≤ 24) (hd : d ≤ 3) :
    isLeap (a * 400 + 1 + b * 100 + c * 4 + d) = decide (d = 3 ∧ (c ≠ 24 ∨ b = 3)) := by
  rw [Bool.eq_iff_iff]
  simp only [isLeap, Bool.and_eq_true, Bool.or_eq_true, beq_iff_eq, bne_iff_ne, decide_eq_true_eq]
  omega

theorem daysBeforeYear_cycles (hb : b ≤ 3) (hc : c ≤ 24) (hd : d ≤ 3) :
    daysBeforeYear (a * 400 + 1 + b * 100 + c * 4 + d) = a * 146097 + b * 36524 + c * 1461 + d * 365 := by
  have hfour : (a * 400 + 1 + b * 100 + c * 4 + d - 1) / 4 = a * 100 + b * 25 + c := by omega
  have hhundred : (a * 400 + 1 + b * 100 + c * 4 + d - 1) / 100 = a * 4 + b := by omega
  have hcycle : (a * 400 + 1 + b * 100 + c * 4 + d - 1) / 400 = a := by omega
  rw [daysBeforeYear, hfour, hhundred, hcycle]
  omega

end

/-- Every day has a date, and is the day of it. -/
theorem ord2ymd_spec {ordinal : Nat} (h : 1 ≤ ordinal) :
    IsDate (ord2ymd ordinal).1 (ord2ymd ordinal).2.1 (ord2ymd ordinal).2.2 ∧
      ymd2ord (ord2ymd ordinal).1 (ord2ymd ordinal).2.1 (ord2ymd ordinal).2.2 = ordinal := by
  obtain ⟨n, rfl⟩ : ∃ n, ordinal = n + 1 := ⟨ordinal - 1, by omega⟩
  obtain ⟨a, ha⟩ : ∃ a, n / 146097 = a := ⟨_, rfl⟩
  obtain ⟨b, hb⟩ : ∃ b, n % 146097 / 36524 = b := ⟨_, rfl⟩
  obtain ⟨c, hc⟩ : ∃ c, n % 146097 % 36524 / 1461 = c := ⟨_, rfl⟩
  obtain ⟨d, hd⟩ : ∃ d, n % 146097 % 36524 % 1461 / 365 = d := ⟨_, rfl⟩
  obtain ⟨r, hr⟩ : ∃ r, n % 146097 % 36524 % 1461 % 365 = r := ⟨_, rfl⟩
  have hn : n = a * 146097 + b * 36524 + c * 1461 + d * 365 + r := by omega
  simp only [ord2ymd, Nat.add_sub_cancel, ha, hb, hc, hd, hr]
  by_cases hlast : d = 4 ∨ b = 4
  · -- the thirty-first of December of the leap year that ends a cycle
    rw [if_pos hlast]
    obtain ⟨b', c', hyear, hb', hc', hleap, hdays⟩ : ∃ b' c', a * 400 + 1 + b * 100 + c * 4 + d - 1 =
        a * 400 + 1 + b' * 100 + c' * 4 + 3 ∧ b' ≤ 3 ∧ c' ≤ 24 ∧ (c' ≠ 24 ∨ b' = 3) ∧
          a * 146097 + b' * 36524 + c' * 1461 + 3 * 365 + 366 = n + 1 := by
      by_cases hb4 : b = 4
      · exact ⟨3, 24, by omega, by omega, by omega, by omega, by omega⟩
      · exact ⟨b, c, by omega, by omega, by omega, by omega, by omega⟩
    simp only [hyear]
    constructor
    · exact ⟨by omega, by omega, by omega, by omega, Nat.le_refl 31⟩
    · have hleapYear : isLeap (a * 400 + 1 + b' * 100 + c' * 4 + 3) = true := by
        rw [isLeap_cycles hb' hc' (Nat.le_refl 3)]
        simpa using hleap
      have hmonths : daysBeforeMonth true 12 = 335 := rfl
      rw [ymd2ord, hleapYear, daysBeforeYear_cycles hb' hc' (Nat.le_refl 3), hmonths]
      omega
  · rw [if_neg hlast]
    have hbounds : b ≤ 3 ∧ c ≤ 24 ∧ d ≤ 3 := by omega
    obtain ⟨hb3, hc24, hd3⟩ := hbounds
    obtain ⟨leap, hleap⟩ : ∃ leap, decide (d = 3 ∧ (c ≠ 24 ∨ b = 3)) = leap := ⟨_, rfl⟩
    have hyear : isLeap (a * 400 + 1 + b * 100 + c * 4 + d) = leap := by rw [isLeap_cycles hb3 hc24 hd3, hleap]
    obtain ⟨hmonth, hmonth', hday, hday', hdays⟩ := monthDay_spec leap r (by omega)
    simp only [hleap]
    constructor
    · exact ⟨by omega, hmonth, hmonth', hday, by rw [hyear]; exact hday'⟩
    · rw [ymd2ord, hyear, daysBeforeYear_cycles hb3 hc24 hd3]
      omega

/-- Four digits are enough for the year of a day up to the last of the year 9999. -/
theorem ord2ymd_year {ordinal : Nat} (h : 1 ≤ ordinal) (hlast : ordinal ≤ 3652059) : (ord2ymd ordinal).1 ≤ 9999 := by
  obtain ⟨-, hdays⟩ := ord2ymd_spec h
  have hbefore : daysBeforeYear (ord2ymd ordinal).1 + 1 ≤ ordinal := by
    obtain ⟨hdate, -⟩ := ord2ymd_spec h
    have hday := hdate.day_pos
    rw [ymd2ord] at hdays
    omega
  rw [daysBeforeYear] at hbefore
  omega

example : ord2ymd 719163 = (1970, 1, 1) ∧ ord2ymd 738945 = (2024, 2, 29) ∧ ymd2ord 9999 12 31 = 3652059 := by decide

end Imghost.Data.Calendar
