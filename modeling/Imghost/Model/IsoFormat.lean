/-
  Imghost.Model.IsoFormat — `datetime.isoformat` of a time in UTC, and how it is read.

  A time is written as its date, its time of day and the offset `+00:00`; the microseconds are
  left out when there are none. `readIso` is `datetime.fromisoformat` on this form; the other forms that it takes
  are not modelled.

  What is proved: every `datetime` is read back from what it is written as.
-/

import Imghost.Data.Calendar
import Imghost.Model.Types

namespace Imghost.Model

open Imghost.Data.Calendar

/-! ## Numbers of a fixed width -/

/-- The last `width` digits of `n`. -/
def padded : Nat → Nat → List Char
  | 0, _ => []
  | width + 1, n => Nat.digitChar (n / 10 ^ width % 10) :: padded width n

/-- A number of `width` digits and the text behind it. -/
def readDigits (width : Nat) (text : List Char) : Option (Nat × List Char) :=
  if (text.take width).length = width ∧ (text.take width).all Char.isDigit = true then
    some (Nat.ofDigitChars 10 (text.take width) 0, text.drop width)
  else none

theorem padded_length (width n : Nat) : (padded width n).length = width := by
  induction width with
  | zero => rfl
  | succ width ih => rw [padded, List.length_cons, ih]

theorem padded_digits (width n : Nat) : (padded width n).all Char.isDigit = true := by
  induction width with
  | zero => rfl
  | succ width ih =>
    have hdigit : (Nat.digitChar (n / 10 ^ width % 10)).isDigit = true := by
      rw [Nat.isDigit_digitChar, decide_eq_true_eq]
      omega
    rw [padded, List.all_cons, hdigit, ih]
    rfl

theorem ofDigitChars_padded (width n init : Nat) :
    Nat.ofDigitChars 10 (padded width n) init = 10 ^ width * init + n % 10 ^ width := by
  induction width generalizing init with
  | zero => simp [padded, Nat.mod_one]
  | succ width ih =>
    rw [padded, Nat.ofDigitChars_cons_digitChar_of_lt_ten (Nat.mod_lt _ (by decide)), ih, Nat.pow_succ, Nat.mod_mul, Nat.mul_add, Nat.mul_assoc]
    omega

theorem readDigits_padded {width n : Nat} (h : n < 10 ^ width) (rest : List Char) :
    readDigits width (padded width n ++ rest) = some (n, rest) := by
  have htake : (padded width n ++ rest).take width = padded width n := List.take_left' (padded_length width n)
  have hdrop : (padded width n ++ rest).drop width = rest := List.drop_left' (padded_length width n)
  rw [readDigits, htake, hdrop, if_pos ⟨padded_length width n, padded_digits width n⟩, ofDigitChars_padded,
    Nat.mul_zero, Nat.zero_add, Nat.mod_eq_of_lt h]

/-! ## isoformat -/

/-- The times a `datetime` holds. -/
def IsDatetime (t : DateTime) : Prop := 0 ≤ t ∧ t ≤ datetimeMax

instance (t : DateTime) : Decidable (IsDatetime t) := by unfold IsDatetime; infer_instance

/-- `isoformat` of a day and a microsecond of it. -/
def isoText (day micros : Nat) : List Char :=
  padded 4 (ord2ymd (day + 1)).1 ++ '-' :: (padded 2 (ord2ymd (day + 1)).2.1 ++ '-' :: (padded 2 (ord2ymd (day + 1)).2.2 ++
    'T' :: (padded 2 (micros / 3600000000) ++ ':' :: (padded 2 (micros / 60000000 % 60) ++ ':' ::
      (padded 2 (micros / 1000000 % 60) ++
        ((if micros % 1000000 = 0 then [] else '.' :: padded 6 (micros % 1000000)) ++ "+00:00".toList))))))

/-- `datetime.isoformat()`, of a time in UTC. -/
def isoformat (t : DateTime) : String := String.ofList (isoText (t / microsPerDay).toNat (t % microsPerDay).toNat)

/-! ## fromisoformat -/

def readMark (mark : Char) : List Char → Option (List Char)
  | [] => none
  | c :: rest => if c = mark then some rest else none

/-- The microseconds, if there are any. -/
def readFraction : List Char → Option (Nat × List Char)
  | [] => some (0, [])
  | c :: rest => if c = '.' then readDigits 6 rest else some (0, c :: rest)

/-- `datetime.fromisoformat`, of a text in the form that `isoformat` writes. -/
def readIso (text : String) : Option DateTime := do
  let (year, text) ← readDigits 4 text.toList
  let text ← readMark '-' text
  let (month, text) ← readDigits 2 text
  let text ← readMark '-' text
  let (day, text) ← readDigits 2 text
  let text ← readMark 'T' text
  let (hour, text) ← readDigits 2 text
  let text ← readMark ':' text
  let (minute, text) ← readDigits 2 text
  let text ← readMark ':' text
  let (second, text) ← readDigits 2 text
  let (micros, text) ← readFraction text
  if text = "+00:00".toList ∧ IsDate year month day ∧ hour < 24 ∧ minute < 60 ∧ second < 60 then
    some (((ymd2ord year month day - 1) * 86400000000 + hour * 3600000000 + minute * 60000000 + second * 1000000 + micros : Nat) : Int)
  else none

theorem readMark_cons (mark : Char) (rest : List Char) : readMark mark (mark :: rest) = some rest := if_pos rfl

theorem readFraction_text {micros : Nat} (h : micros < 1000000) :
    readFraction ((if micros = 0 then [] else '.' :: padded 6 micros) ++ "+00:00".toList) = some (micros, "+00:00".toList) := by
  by_cases hzero : micros = 0
  · rw [if_pos hzero, hzero]
    rfl
  · rw [if_neg hzero, List.cons_append, readFraction, if_pos rfl, readDigits_padded h]

theorem readIso_isoText {day micros : Nat} (hday : day < 3652059) (hmicros : micros < 86400000000) :
    readIso (String.ofList (isoText day micros)) = some ((day * 86400000000 + micros : Nat) : Int) := by
  obtain ⟨hdate, hord⟩ := ord2ymd_spec (show 1 ≤ day + 1 by omega)
  have hyear := ord2ymd_year (show 1 ≤ day + 1 by omega) (by omega)
  have hdays : (ord2ymd (day + 1)).2.2 ≤ 31 := by
    have hmonth (leap : Bool) (month : Nat) : daysInMonth leap month ≤ 31 := by
      unfold daysInMonth
      split <;> (try split) <;> omega
    exact Nat.le_trans hdate.day_le (hmonth _ _)
  have hmonths := hdate.month_le
  rw [readIso, String.toList_ofList, isoText, readDigits_padded (by omega)]
  simp only [Option.bind_eq_bind, Option.bind_some, readMark_cons]
  rw [readDigits_padded (by omega)]
  simp only [Option.bind_some, readMark_cons]
  rw [readDigits_padded (by omega)]
  simp only [Option.bind_some, readMark_cons]
  rw [readDigits_padded (by omega)]
  simp only [Option.bind_some, readMark_cons]
  rw [readDigits_padded (by omega)]
  simp only [Option.bind_some, readMark_cons]
  rw [readDigits_padded (by omega)]
  simp only [Option.bind_some]
  rw [readFraction_text (by omega)]
  simp only [Option.bind_some]
  have hsum : (day + 1 - 1) * 86400000000 + micros / 3600000000 * 3600000000 + micros / 60000000 % 60 * 60000000 +
      micros / 1000000 % 60 * 1000000 + micros % 1000000 = day * 86400000000 + micros := by omega
  rw [if_pos ⟨trivial, hdate, by omega, by omega, by omega⟩, hord, hsum]

theorem readIso_micros {t : Int} (hmin : 0 ≤ t) (hmax : t ≤ 315537897599999999) :
    readIso (String.ofList (isoText (t / 86400000000).toNat (t % 86400000000).toNat)) = some t := by
  rw [readIso_isoText (by omega) (by omega)]
  have hsum : (((t / 86400000000).toNat * 86400000000 + (t % 86400000000).toNat : Nat) : Int) = t := by omega
  rw [hsum]

/-- A `datetime` is read back. -/
theorem readIso_isoformat {t : DateTime} (h : IsDatetime t) : readIso (isoformat t) = some t := readIso_micros h.1 h.2

theorem isoformat_ne_empty (t : DateTime) : isoformat t ≠ "" := by
  intro h
  have hlength := congrArg (fun text => text.toList.length) h
  simp [isoformat, isoText] at hlength

example : isoformat 63902822400000000 = "2026-01-01T00:00:00+00:00" ∧ isoformat datetimeMax = "9999-12-31T23:59:59.999999+00:00" := by
  decide +kernel

end Imghost.Model
