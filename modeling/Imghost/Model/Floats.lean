/-
  Imghost.Model.Floats — `float` of a text, and `int` of a float.

  `float` takes digits of any script, with a sign, a point, an exponent and single
  underscores between digits, and the names of the infinities and of NaN; the number is
  rounded to the nearest double. The sign of a zero is not kept.

  - `pyFloat_of_decimal`: a text of ASCII digits with at most one point among them.
-/

import Mathlib.Data.List.TakeWhile
import Imghost.Data.Binary64
import Imghost.Model.Digits
import Imghost.Model.Types

namespace Imghost.Model

open Imghost.Data

inductive PyFloat where
  | finite (value : ℚ)
  | infinite (negative : Bool)
  | nan
  deriving DecidableEq, Repr

/-! ## float -/

/-- A sign, if there is one, and the text after it. -/
def signOf : List Char → Bool × List Char
  | '-' :: text => (true, text)
  | '+' :: text => (false, text)
  | text => (false, text)

/-- One or more decimal digits, with single underscores between them. -/
def digitPart : List Char → Option (List Nat)
  | [] => none
  | [c] => (decimalValue c).map ([·])
  | c :: '_' :: text => (decimalValue c).bind fun d => (digitPart text).map (d :: ·)
  | c :: text => (decimalValue c).bind fun d => (digitPart text).map (d :: ·)

/-- The digits on one side of the point, where the other side has some. -/
def sideOfPoint : List Char → Option (List Nat)
  | [] => some []
  | text => digitPart text

/-- The number of a mantissa with these digits before and after the point. -/
def decimalNumber (whole fraction : List Nat) : ℚ :=
  (Nat.ofDigits 10 (whole ++ fraction).reverse : ℕ) / 10 ^ fraction.length

def mantissa (text : List Char) : Option ℚ :=
  let whole := text.takeWhile (· != '.')
  match text.dropWhile (· != '.') with
  | [] => (digitPart whole).map (decimalNumber · [])
  | _ :: fraction =>
    if whole = [] && fraction = [] then none
    else (sideOfPoint whole).bind fun w => (sideOfPoint fraction).map (decimalNumber w)

def isExponentMark (c : Char) : Bool := c == 'e' || c == 'E'

/-- The number a text spells, its sign apart. -/
def decimal (text : List Char) : Option ℚ :=
  match text.dropWhile (!isExponentMark ·) with
  | [] => mantissa text
  | _ :: exponent =>
    let (negative, digits) := signOf exponent
    (mantissa (text.takeWhile (!isExponentMark ·))).bind fun m => (digitPart digits).map fun e =>
      let size := Nat.ofDigits 10 e.reverse
      if negative then m / 10 ^ size else m * 10 ^ size

def roundFloat (negative : Bool) (size : ℚ) : PyFloat :=
  match toDouble size with
  | some value => .finite (if negative then -value else value)
  | none => .infinite negative

/-- `float(text)`; `none` when it raises `ValueError`. -/
def pyFloat (text : String) : Option PyFloat :=
  let (negative, size) := signOf (strip text).toList
  let name := String.ofList (size.map Char.toLower)
  if name == "inf" || name == "infinity" then some (.infinite negative)
  else if name == "nan" then some .nan
  else (decimal size).map (roundFloat negative)

/-! ## int -/

/-- The part of a number before the point. -/
def truncate (x : ℚ) : ℤ := if x < 0 then ⌈x⌉ else ⌊x⌋

/-- `int(value)` of a float. -/
def PyFloat.toInt : PyFloat → Except PyExc ℤ
  | .finite value => .ok (truncate value)
  | .infinite _ => .error (.overflowError "cannot convert float infinity to integer")
  | .nan => .error (.valueError "cannot convert float NaN to integer")

/-! ## Plain digits -/

/-- Digits as they are written. -/
def digitsText (digits : List (Fin 10)) : List Char := digits.map fun d : Fin 10 => Nat.digitChar d.val

/-- The number of a text of digits, with what is after a point if there is one. -/
def plainNumber (whole : List (Fin 10)) (fraction : Option (List (Fin 10))) : ℚ :=
  decimalNumber (whole.map (·.val)) ((fraction.getD []).map (·.val))

def plainText (whole : List (Fin 10)) (fraction : Option (List (Fin 10))) : List Char :=
  match fraction with
  | none => digitsText whole
  | some fraction => digitsText whole ++ '.' :: digitsText fraction

@[simp] theorem digitsText_nil : digitsText [] = [] := rfl

@[simp] theorem digitsText_cons (d : Fin 10) (digits : List (Fin 10)) :
    digitsText (d :: digits) = Nat.digitChar d :: digitsText digits := rfl

@[simp] theorem digitsText_append (u v : List (Fin 10)) : digitsText (u ++ v) = digitsText u ++ digitsText v := List.map_append

theorem mem_digitsText {p : Char → Prop} (h : ∀ d : Fin 10, p (Nat.digitChar d)) {digits : List (Fin 10)} :
    ∀ c ∈ digitsText digits, p c := by
  intro c hc
  obtain ⟨d, -, rfl⟩ := List.mem_map.mp hc
  exact h d

theorem mem_plainText {p : Char → Prop} (h : ∀ d : Fin 10, p (Nat.digitChar d)) (hpoint : p '.') {whole : List (Fin 10)}
    {fraction : Option (List (Fin 10))} : ∀ c ∈ plainText whole fraction, p c := by
  intro c hc
  cases fraction with
  | none => exact mem_digitsText h c hc
  | some fraction =>
    rcases List.mem_append.mp hc with hc | hc
    · exact mem_digitsText h c hc
    · rcases List.mem_cons.mp hc with rfl | hc
      · exact hpoint
      · exact mem_digitsText h c hc

theorem decimalValue_digitChar (d : Fin 10) : decimalValue (Nat.digitChar d) = some d.val := by
  revert d
  decide

theorem digitChar_ne_underscore (d : Fin 10) : Nat.digitChar d ≠ '_' := by
  revert d
  decide

theorem digitPart_digitsText {digits : List (Fin 10)} (h : digits ≠ []) :
    digitPart (digitsText digits) = some (digits.map (·.val)) := by
  induction digits with
  | nil => exact absurd rfl h
  | cons d digits ih =>
    cases digits with
    | nil => simp [digitPart, decimalValue_digitChar]
    | cons d' digits =>
      have hscore : Nat.digitChar d' ≠ '_' := digitChar_ne_underscore d'
      rw [digitsText_cons, digitsText_cons, digitPart, decimalValue_digitChar, ← digitsText_cons, ih (by simp)]
      · rfl
      · simp
      · intro text heq
        exact hscore (List.cons.inj heq).1

theorem sideOfPoint_digitsText (digits : List (Fin 10)) : sideOfPoint (digitsText digits) = some (digits.map (·.val)) := by
  cases digits with
  | nil => rfl
  | cons d digits => exact digitPart_digitsText (by simp)

theorem mantissa_plainText {whole : List (Fin 10)} {fraction : Option (List (Fin 10))}
    (h : whole ++ fraction.getD [] ≠ []) : mantissa (plainText whole fraction) = some (plainNumber whole fraction) := by
  have hdigits : ∀ c ∈ digitsText whole, (c != '.') = true := mem_digitsText (by decide)
  cases fraction with
  | none =>
    have hall : (digitsText whole).takeWhile (· != '.') = digitsText whole := List.takeWhile_eq_self_iff.mpr hdigits
    have hnone : (digitsText whole).dropWhile (· != '.') = [] := List.dropWhile_eq_nil_iff.mpr hdigits
    have hwhole : whole ≠ [] := by simpa using h
    rw [plainText, mantissa, hall, hnone, digitPart_digitsText hwhole]
    rfl
  | some fraction =>
    have htake : (digitsText whole ++ '.' :: digitsText fraction).takeWhile (· != '.') = digitsText whole := by
      rw [List.takeWhile_append_of_pos hdigits, List.takeWhile_cons_of_neg (by decide), List.append_nil]
    have hdrop : (digitsText whole ++ '.' :: digitsText fraction).dropWhile (· != '.') = '.' :: digitsText fraction := by
      rw [List.dropWhile_append_of_pos hdigits, List.dropWhile_cons_of_neg (by decide)]
    have hsome : ¬ (digitsText whole = [] ∧ digitsText fraction = []) := by
      rintro ⟨hwhole, hfraction⟩
      exact h (List.append_eq_nil_iff.mpr ⟨List.map_eq_nil_iff.mp hwhole, List.map_eq_nil_iff.mp hfraction⟩)
    simp only [plainText, mantissa, htake, hdrop, sideOfPoint_digitsText]
    simp [hsome, plainNumber]

theorem strip_of_no_space {text : List Char} (h : ∀ c ∈ text, isSpace c = false) :
    strip (String.ofList text) = String.ofList text := by
  have hkept : ∀ l : List Char, (∀ c ∈ l, isSpace c = false) → l.dropWhile isSpace = l := by
    intro l hl
    cases l with
    | nil => rfl
    | cons c l => exact List.dropWhile_cons_of_neg (by simp [hl c])
  rw [strip, String.toList_ofList, hkept text h, hkept text.reverse, List.reverse_reverse]
  intro c hc
  exact h c (List.mem_reverse.mp hc)

/-- `float` of plain digits, with a point among them or without. -/
theorem pyFloat_plainText {whole : List (Fin 10)} {fraction : Option (List (Fin 10))} (h : whole ++ fraction.getD [] ≠ []) :
    pyFloat (String.ofList (plainText whole fraction)) = some (roundFloat false (plainNumber whole fraction)) := by
  have hspace : ∀ c ∈ plainText whole fraction, isSpace c = false := mem_plainText (by decide) (by decide)
  have hmark : ∀ c ∈ plainText whole fraction, (!isExponentMark c) = true := mem_plainText (by decide) (by decide)
  have hletter : ∀ c ∈ plainText whole fraction, c.toLower ≠ 'i' ∧ c.toLower ≠ 'n' ∧ c ≠ '-' ∧ c ≠ '+' :=
    mem_plainText (by decide) (by decide)
  have hdecimal : decimal (plainText whole fraction) = some (plainNumber whole fraction) := by
    rw [decimal, List.dropWhile_eq_nil_iff.mpr hmark]
    exact mantissa_plainText h
  rw [pyFloat, strip_of_no_space hspace, String.toList_ofList]
  generalize plainText whole fraction = text at *
  cases text with
  | nil => cases hdecimal
  | cons c text =>
    obtain ⟨hi, hn, hminus, hplus⟩ := hletter c List.mem_cons_self
    have hsign : signOf (c :: text) = (false, c :: text) := by
      unfold signOf
      split <;> simp_all
    have hname : ∀ (first : Char) (name : List Char), c.toLower ≠ first →
        (String.ofList ((c :: text).map Char.toLower) == String.ofList (first :: name)) = false := by
      intro first name hne
      rw [beq_eq_false_iff_ne]
      intro heq
      exact hne (List.cons.inj (String.ofList_injective heq)).1
    have hinf := hname 'i' "nf".toList hi
    have hinfinity := hname 'i' "nfinity".toList hi
    have hnan := hname 'n' "an".toList hn
    simp only [hsign]
    rw [if_neg, if_neg, hdecimal]
    · rfl
    · exact Bool.not_eq_true _ ▸ hnan
    · rw [Bool.or_eq_true, not_or]
      exact ⟨Bool.not_eq_true _ ▸ hinf, Bool.not_eq_true _ ▸ hinfinity⟩

end Imghost.Model
