/-
  Imghost.Svg.Dimensions — the size of a picture and the limit on it:
  `SvgProcessor.validate`, `_svg_dimensions` and `_parse_svg_length`.

  A length is read by dropping every character that is no digit and no point, so the
  digits of an exponent join those of the number and a minus sign is lost; what is left
  is rounded to a double, and one beyond the largest double is an `OverflowError` that
  nothing catches.

  - `pixel_limit_holds_iff`: the limit is kept for a width and a height, whatever their
    notation, exactly when both are read as they are written.
  - `an_exponent_evades_the_limit`: a picture of `1e9` by `1e9` counts as 19 by 19.
-/

import Imghost.Model.Floats
import Imghost.Model.Runtime
import Imghost.Svg.Sanitize

namespace Imghost.Svg

open Imghost.Data Imghost.Model

/-! ## The size -/

/-- `int(float(text))`. -/
def intOfFloat (text : String) : Except PyExc ℤ :=
  match pyFloat text with
  | some value => value.toInt
  | none => .error (.valueError ("could not convert string to float: '" ++ text ++ "'"))

/-- `except ValueError: return default`. -/
def orOnValueError {α : Type} (default : α) : Except PyExc α → Except PyExc α
  | .error (.valueError _) => .ok default
  | result => result

/-- What `_parse_svg_length` keeps of a text. -/
def cleaned (raw : String) : String := String.ofList (raw.toList.filter fun ch => isDigitChar ch || ch == '.')

/-- `_parse_svg_length`. -/
def parseSvgLength (raw : Option String) : Except PyExc (Option ℤ) :=
  match raw with
  | none => .ok none
  | some raw =>
    if raw = "" then .ok none
    else if cleaned raw = "" then .ok none
    else orOnValueError none ((intOfFloat (cleaned raw)).map some)

/-- `text.replace(",", " ").split()`. -/
def splitNumbers (text : String) : List String :=
  let spaced := text.toList.map fun c => if c = ',' then ' ' else c
  ((spaced.splitOnP isSpace).filter (· ≠ [])).map String.ofList

/-- `width or view_width`. -/
def sideOr (side : Option ℤ) (viewSide : ℤ) : ℤ :=
  match side with
  | some n => if n = 0 then viewSide else n
  | none => viewSide

/-- The sides that the view box gives. -/
def viewBoxSides (attrib : Dict String String) : Except PyExc (Option (ℤ × ℤ)) :=
  let viewBox := strOr (attrib.lookup "viewBox") ((attrib.lookup "viewbox").getD "")
  if viewBox = "" then .ok none
  else match splitNumbers viewBox with
    | [_, _, width, height] => orOnValueError none do
        let viewWidth ← intOfFloat width
        let viewHeight ← intOfFloat height
        return some (viewWidth, viewHeight)
    | _ => .ok none

/-- `_svg_dimensions`. -/
def svgDimensions (root : Element) : Except PyExc (Option ℤ × Option ℤ) := do
  let width ← parseSvgLength (root.attrib.lookup "width")
  let height ← parseSvgLength (root.attrib.lookup "height")
  if width.isSome && height.isSome then return (width, height)
  match ← viewBoxSides root.attrib with
  | none => return (width, height)
  | some (viewWidth, viewHeight) => return (some (sideOr width viewWidth), some (sideOr height viewHeight))

/-! ## The limit -/

/-- What `ElementTree.fromstring` raises. -/
inductive XmlError where
  | parseError
  | other (e : PyExc)

def invalidImage : ValidationResult := ⟨false, some "Unsupported or invalid image file."⟩

def tooManyPixels : ValidationResult := ⟨false, some "Image exceeds maximum pixel count."⟩

/-- `tag.endswith("svg")`. -/
def isSvgTag (tag : String) : Bool := "svg".toList.isSuffixOf tag.toList

def exceeds (maxPixels : ℤ) : Option ℤ × Option ℤ → Bool
  | (some width, some height) => maxPixels < width * height
  | _ => false

/-- `SvgProcessor.validate`; `fromstring` is `ElementTree.fromstring`. -/
def validate (fromstring : Bytes → Except XmlError Element) (maxPixels : ℤ) (payload : Bytes) :
    Except PyExc ValidationResult :=
  match fromstring payload with
  | .error .parseError => .ok invalidImage
  | .error (.other e) => .error e
  | .ok root =>
    if !isSvgTag root.tag then .ok invalidImage
    else do
      let dimensions ← svgDimensions root
      return if exceeds maxPixels dimensions then tooManyPixels else ⟨true, none⟩

/-! ## Numbers as SVG writes them -/

structure SvgExponent where
  capital : Bool
  /-- `true` is a minus. -/
  sign : Option Bool
  digits : List (Fin 10)
  nonempty : digits ≠ []

/-- An SVG number: digits before a point, after it, or both. -/
structure SvgNumber where
  sign : Option Bool
  whole : List (Fin 10)
  fraction : Option (List (Fin 10))
  exponent : Option SvgExponent
  fraction_nonempty : fraction ≠ some []
  nonempty : whole ++ fraction.getD [] ≠ []

def signText : Option Bool → List Char
  | none => []
  | some negative => [if negative then '-' else '+']

/-- The number that digits spell. -/
def spelt (digits : List (Fin 10)) : ℕ := Nat.ofDigits 10 (digits.map (·.val)).reverse

namespace SvgExponent

def text (e : SvgExponent) : List Char := (if e.capital then 'E' else 'e') :: (signText e.sign ++ digitsText e.digits)

def negative (e : SvgExponent) : Bool := e.sign == some true

def size (e : SvgExponent) : ℕ := spelt e.digits

/-- The power of ten. -/
def scale (e : SvgExponent) : ℚ := if e.negative then 1 / 10 ^ e.size else 10 ^ e.size

end SvgExponent

namespace SvgNumber

def text (n : SvgNumber) : String :=
  String.ofList (signText n.sign ++ plainText n.whole n.fraction ++ (n.exponent.map (·.text)).getD [])

def negative (n : SvgNumber) : Bool := n.sign == some true

def mantissa (n : SvgNumber) : ℚ := plainNumber n.whole n.fraction

def scale (n : SvgNumber) : ℚ :=
  match n.exponent with
  | none => 1
  | some e => e.scale

/-- The number the text denotes. -/
def value (n : SvgNumber) : ℚ := (if n.negative then -1 else 1) * (n.mantissa * n.scale)

def integerPart (n : SvgNumber) : ℤ := truncate n.value

/-- The digits of the exponent. -/
def exponentDigits (n : SvgNumber) : List (Fin 10) := (n.exponent.map (·.digits)).getD []

/-- The number that is left without the signs and the mark of the exponent. -/
def joined (n : SvgNumber) : ℚ :=
  match n.fraction with
  | none => plainNumber (n.whole ++ n.exponentDigits) none
  | some fraction => plainNumber n.whole (some (fraction ++ n.exponentDigits))

/-- What joining the digits of the exponent adds to a number it does not spoil: nothing where
    there is no exponent, or one of 0 after a point; and `k` where an exponent of `k` is
    written in `k` digits, with no point before it. -/
def drift (n : SvgNumber) : Option ℕ :=
  match n.exponent, n.fraction with
  | none, _ => some 0
  | some e, some _ => if e.size = 0 then some 0 else none
  | some e, none => if !e.negative && e.size == e.digits.length then some e.size else none

/-- The number is read as it is written. Below one pixel it is enough that what is left of it
    is not rounded to 1. -/
def ReadsRight (n : SvgNumber) : Prop :=
  if n.integerPart = 0 then n.joined < 1 - 1 / 2 ^ 54
  else n.negative = false ∧ ∃ drift double, n.drift = some drift ∧ toDouble (n.value + drift) = some double ∧
    ⌊double⌋ = n.integerPart

end SvgNumber

/-! ## What is left of a number -/

theorem isDigitChar_digitChar (d : Fin 10) : (isDigitChar (Nat.digitChar d) || Nat.digitChar d == '.') = true := by
  rw [isDigitChar, decimalValue_digitChar]
  rfl

theorem filter_kept {text : List Char} (h : ∀ c ∈ text, (isDigitChar c || c == '.') = true) :
    text.filter (fun c => isDigitChar c || c == '.') = text := List.filter_eq_self.mpr h

theorem filter_signText (sign : Option Bool) : (signText sign).filter (fun c => isDigitChar c || c == '.') = [] := by
  rcases sign with _ | negative
  · rfl
  · cases negative <;> decide

theorem filter_exponent (e : SvgExponent) :
    e.text.filter (fun c => isDigitChar c || c == '.') = digitsText e.digits := by
  have hmark : (isDigitChar (if e.capital then 'E' else 'e') || (if e.capital then 'E' else 'e') == '.') = false := by
    cases e.capital <;> decide
  rw [SvgExponent.text, List.filter_cons_of_neg (by simp [hmark]), List.filter_append, filter_signText,
    filter_kept (mem_digitsText isDigitChar_digitChar), List.nil_append]

namespace SvgNumber

variable (n : SvgNumber)

/-- The digits before the point that are left, and those after it. -/
def joinedWhole : List (Fin 10) := if n.fraction.isSome then n.whole else n.whole ++ n.exponentDigits

def joinedFraction : Option (List (Fin 10)) := n.fraction.map (· ++ n.exponentDigits)

theorem joined_eq : n.joined = plainNumber n.joinedWhole n.joinedFraction := by
  unfold joined joinedWhole joinedFraction
  cases n.fraction <;> rfl

theorem joined_nonempty : n.joinedWhole ++ n.joinedFraction.getD [] ≠ [] := by
  have hne := n.nonempty
  unfold joinedWhole joinedFraction
  cases hf : n.fraction with
  | none =>
    rw [hf] at hne
    intro hempty
    simp_all
  | some fraction =>
    rw [hf] at hne
    intro hempty
    simp_all

theorem cleaned_text : cleaned n.text = String.ofList (plainText n.joinedWhole n.joinedFraction) := by
  have hexponent : ((n.exponent.map (·.text)).getD []).filter (fun c => isDigitChar c || c == '.') =
      digitsText n.exponentDigits := by
    unfold exponentDigits
    cases n.exponent with
    | none => rfl
    | some e => exact filter_exponent e
  have hplain : (plainText n.whole n.fraction).filter (fun c => isDigitChar c || c == '.') = plainText n.whole n.fraction :=
    filter_kept (mem_plainText isDigitChar_digitChar (by decide))
  rw [cleaned, text, String.toList_ofList, List.filter_append, List.filter_append, filter_signText, hplain, hexponent]
  unfold plainText joinedWhole joinedFraction
  cases n.fraction <;> simp

end SvgNumber

theorem plainText_ne_nil {whole : List (Fin 10)} {fraction : Option (List (Fin 10))} (h : whole ++ fraction.getD [] ≠ []) :
    plainText whole fraction ≠ [] := by
  cases fraction with
  | none => simpa [plainText, digitsText] using h
  | some fraction => simp [plainText]

theorem plainNumber_nonneg (whole : List (Fin 10)) (fraction : Option (List (Fin 10))) : 0 ≤ plainNumber whole fraction := by
  unfold plainNumber decimalNumber
  positivity

theorem truncate_of_nonneg {x : ℚ} (h : 0 ≤ x) : truncate x = ⌊x⌋ := if_neg (not_lt.mpr h)

theorem toDouble_nonneg {x double : ℚ} (hx : 0 ≤ x) (h : toDouble x = some double) : 0 ≤ double := by
  unfold toDouble at h
  split at h
  · cases h
    exact nearest_nonneg hx
  · cases h

/-! ## Digits joined to digits -/

theorem spelt_append (u v : List (Fin 10)) : spelt (u ++ v) = spelt u * 10 ^ v.length + spelt v := by
  rw [spelt, List.map_append, List.reverse_append, Nat.ofDigits_append, List.length_reverse, List.length_map, spelt, spelt]
  ring

theorem spelt_lt (digits : List (Fin 10)) : spelt digits < 10 ^ digits.length := by
  have hlt := Nat.ofDigits_lt_base_pow_length (b := 10) (l := (digits.map (·.val)).reverse) (by decide) (by
    intro d hd
    obtain ⟨d', -, rfl⟩ := List.mem_map.mp (List.mem_reverse.mp hd)
    exact d'.isLt)
  simpa [spelt] using hlt

theorem plainNumber_whole (whole : List (Fin 10)) : plainNumber whole none = spelt whole := by
  simp [plainNumber, decimalNumber, spelt]

theorem plainNumber_point (whole fraction : List (Fin 10)) :
    plainNumber whole (some fraction) = spelt whole + spelt fraction / 10 ^ fraction.length := by
  have happend : Nat.ofDigits 10 (whole.map (·.val) ++ fraction.map (·.val)).reverse = spelt (whole ++ fraction) := by
    rw [spelt, List.map_append]
  rw [plainNumber, decimalNumber, Option.getD_some, List.length_map, happend, spelt_append]
  push_cast
  field_simp

theorem fraction_lt_one (fraction : List (Fin 10)) : (spelt fraction : ℚ) / 10 ^ fraction.length < 1 := by
  rw [div_lt_one (by positivity)]
  exact_mod_cast spelt_lt fraction

theorem plainNumber_bounds (whole fraction : List (Fin 10)) :
    (spelt whole : ℚ) ≤ plainNumber whole (some fraction) ∧ plainNumber whole (some fraction) < spelt whole + 1 := by
  rw [plainNumber_point]
  have hlt := fraction_lt_one fraction
  have hnonneg : (0 : ℚ) ≤ spelt fraction / 10 ^ fraction.length := by positivity
  constructor <;> linarith

/-- Zeros after the digits behind a point change nothing. -/
theorem plainNumber_zeros (whole fraction : List (Fin 10)) {zeros : List (Fin 10)} (h : spelt zeros = 0) :
    plainNumber whole (some (fraction ++ zeros)) = plainNumber whole (some fraction) := by
  rw [plainNumber_point, plainNumber_point, spelt_append, h, List.length_append, pow_add]
  push_cast
  field_simp
  ring

/-- Digits after those behind a point do not reach the next half. -/
theorem plainNumber_lt_half {whole fraction more : List (Fin 10)} (hne : fraction ≠ [])
    (h : plainNumber whole (some fraction) < 1 / 2) : plainNumber whole (some (fraction ++ more)) < 1 / 2 := by
  obtain ⟨hlow, -⟩ := plainNumber_bounds whole fraction
  have hwhole : spelt whole = 0 := by
    have : (spelt whole : ℚ) < 1 := by linarith
    exact_mod_cast Nat.lt_one_iff.mp (by exact_mod_cast this)
  rw [plainNumber_point, hwhole, Nat.cast_zero, zero_add] at h ⊢
  obtain ⟨k, hk⟩ : ∃ k, fraction.length = k + 1 := Nat.exists_eq_succ_of_ne_zero (by simpa using hne)
  have htwice : 2 * spelt fraction < 10 ^ fraction.length := by
    rw [div_lt_div_iff₀ (by positivity) (by decide)] at h
    have : (spelt fraction : ℚ) * 2 < 10 ^ fraction.length := by linarith
    have : spelt fraction * 2 < 10 ^ fraction.length := by exact_mod_cast this
    omega
  -- both sides are even
  have hnext : 2 * (spelt fraction + 1) ≤ 10 ^ fraction.length := by
    rw [hk, pow_succ] at htwice ⊢
    omega
  have hmore := spelt_lt more
  have hjoined : 2 * spelt (fraction ++ more) < 10 ^ (fraction ++ more).length := by
    rw [spelt_append, List.length_append, pow_add]
    calc 2 * (spelt fraction * 10 ^ more.length + spelt more)
        < 2 * (spelt fraction * 10 ^ more.length + 10 ^ more.length) := by omega
      _ = 2 * (spelt fraction + 1) * 10 ^ more.length := by ring
      _ ≤ 10 ^ fraction.length * 10 ^ more.length := Nat.mul_le_mul_right _ hnext
  rw [div_lt_div_iff₀ (by positivity) (by decide)]
  have : (2 : ℚ) * spelt (fraction ++ more) < 10 ^ (fraction ++ more).length := by exact_mod_cast hjoined
  linarith

/-- A number is read as what is left of it, rounded; one that is too large is not read. -/
theorem parseSvgLength_text (n : SvgNumber) :
    parseSvgLength (some n.text) =
      match toDouble n.joined with
      | some double => .ok (some ⌊double⌋)
      | none => .error (.overflowError "cannot convert float infinity to integer") := by
  have hclean : cleaned n.text ≠ "" := by
    rw [n.cleaned_text]
    intro hempty
    exact plainText_ne_nil n.joined_nonempty (String.ofList_injective hempty)
  have htext : n.text ≠ "" := by
    intro hempty
    rw [hempty] at hclean
    exact hclean rfl
  have hfloat : pyFloat (cleaned n.text) = some (roundFloat false n.joined) := by
    rw [n.cleaned_text, n.joined_eq]
    exact pyFloat_plainText n.joined_nonempty
  have hnonneg : 0 ≤ n.joined := by
    rw [n.joined_eq]
    exact plainNumber_nonneg _ _
  rw [parseSvgLength, if_neg htext, if_neg hclean, intOfFloat, hfloat]
  cases hdouble : toDouble n.joined with
  | none => simp [roundFloat, hdouble, PyFloat.toInt, orOnValueError, Except.map]
  | some double =>
    have := truncate_of_nonneg (toDouble_nonneg hnonneg hdouble)
    simp [roundFloat, hdouble, PyFloat.toInt, orOnValueError, Except.map, this]

/-! ## Which numbers are read right -/

namespace SvgExponent

variable (e : SvgExponent)

theorem scale_nonneg : 0 ≤ e.scale := by
  unfold scale
  split <;> positivity

theorem ten_le_scale (h : e.negative = false) (hsize : e.size ≠ 0) : 10 ≤ e.scale := by
  rw [scale, h]
  exact le_self_pow₀ (by norm_num) hsize

theorem scale_le_tenth (h : e.negative = true) (hsize : e.size ≠ 0) : 10 * e.scale ≤ 1 := by
  rw [scale, h, if_pos rfl, ← mul_div_assoc, div_le_one (by positivity), mul_one]
  exact le_self_pow₀ (by norm_num) hsize

theorem ten_le_length : (10 : ℚ) ≤ 10 ^ e.digits.length :=
  le_self_pow₀ (by norm_num) (by simpa using e.nonempty)

/-- An exponent that is smaller than the power of ten its digits are joined by. -/
theorem scale_le_of_low (h : e.negative = true ∨ e.size < e.digits.length) : 10 * e.scale ≤ 10 ^ e.digits.length := by
  rcases h with h | h
  · have hone : e.scale ≤ 1 := by
      rw [scale, h, if_pos rfl, div_le_one (by positivity)]
      exact one_le_pow₀ (by norm_num)
    have := e.ten_le_length
    linarith
  · have hpow : e.scale ≤ 10 ^ e.size := by
      unfold scale
      split
      · rw [div_le_iff₀ (by positivity)]
        have : (1 : ℚ) ≤ 10 ^ e.size := one_le_pow₀ (by norm_num)
        nlinarith
      · exact le_refl _
    calc 10 * e.scale ≤ 10 * 10 ^ e.size := by linarith
      _ = 10 ^ (e.size + 1) := by ring
      _ ≤ 10 ^ e.digits.length := pow_le_pow_right₀ (by norm_num) h

theorem scale_ge_of_high (h : e.negative = false) (hsize : e.digits.length < e.size) :
    10 * 10 ^ e.digits.length ≤ e.scale := by
  rw [scale, h]
  calc (10 : ℚ) * 10 ^ e.digits.length = 10 ^ (e.digits.length + 1) := by ring
    _ ≤ 10 ^ e.size := pow_le_pow_right₀ (by norm_num) hsize

end SvgExponent

namespace SvgNumber

variable {n : SvgNumber}

theorem value_of_plus (h : n.negative = false) : n.value = n.mantissa * n.scale := by
  rw [value, h]
  simp

theorem mantissa_nonneg (n : SvgNumber) : 0 ≤ n.mantissa := plainNumber_nonneg _ _

theorem scale_nonneg (n : SvgNumber) : 0 ≤ n.scale := by
  unfold scale
  cases n.exponent with
  | none => exact zero_le_one
  | some e => exact e.scale_nonneg

theorem joined_nonneg (n : SvgNumber) : 0 ≤ n.joined := by
  rw [n.joined_eq]
  exact plainNumber_nonneg _ _

theorem integerPart_of_plus (h : n.negative = false) : n.integerPart = ⌊n.mantissa * n.scale⌋ := by
  rw [integerPart, value_of_plus h, truncate_of_nonneg (mul_nonneg n.mantissa_nonneg n.scale_nonneg)]

/-- With a minus sign the integer part is not positive. -/
theorem integerPart_of_minus (h : n.negative = true) : n.integerPart ≤ 0 := by
  have hvalue : n.value ≤ 0 := by
    have := mul_nonneg n.mantissa_nonneg n.scale_nonneg
    rw [value, h, if_pos rfl]
    linarith
  rw [integerPart, truncate]
  split
  · exact Int.ceil_le.mpr (by exact_mod_cast hvalue)
  · exact Int.floor_nonpos hvalue

/-- Without an exponent, or with one of 0 after a point, the number is what it was; and digits
    joined to digits are the number with the exponent added, where they are as many as it says. -/
theorem joined_of_drift {drift : ℕ} (hplus : n.negative = false) (h : n.drift = some drift) : n.joined = n.value + drift := by
  rw [value_of_plus hplus]
  unfold SvgNumber.drift at h
  unfold joined mantissa scale exponentDigits
  cases hexponent : n.exponent with
  | none =>
    rw [hexponent] at h
    cases Option.some.inj h
    cases n.fraction <;> simp
  | some e =>
    rw [hexponent] at h
    cases hfraction : n.fraction with
    | none =>
      rw [hfraction] at h
      simp only [Bool.and_eq_true, Bool.not_eq_true', beq_iff_eq] at h
      split at h
      · rename_i hsame
        obtain ⟨hsign, hlength⟩ := hsame
        cases Option.some.inj h
        simp only [Option.map_some, Option.getD_some]
        rw [plainNumber_whole, plainNumber_whole, spelt_append, SvgExponent.scale, hsign, ← hlength]
        push_cast
        rfl
      · cases h
    | some fraction =>
      rw [hfraction] at h
      simp only at h
      split at h
      · rename_i hzero
        cases Option.some.inj h
        simp only [Option.map_some, Option.getD_some]
        rw [plainNumber_zeros _ _ hzero, SvgExponent.scale, hzero]
        simp
      · cases h

/-- An exponent behind a point that is not 0 makes another number of what is left. -/
theorem not_read_point {e : SvgExponent} {fraction : List (Fin 10)} (hexponent : n.exponent = some e)
    (hfraction : n.fraction = some fraction) (hsize : e.size ≠ 0) (hpart : ⌊n.mantissa * n.scale⌋ ≠ 0) :
    ⌊nearest n.joined⌋ ≠ ⌊n.mantissa * n.scale⌋ := by
  have hscale : n.scale = e.scale := by rw [scale, hexponent]
  have hjoined : n.joined = plainNumber n.whole (some (fraction ++ e.digits)) := by
    rw [joined, hfraction, exponentDigits, hexponent]
    rfl
  have hmantissa : n.mantissa = plainNumber n.whole (some fraction) := by rw [mantissa, hfraction]
  obtain ⟨hlow, hhigh⟩ := plainNumber_bounds n.whole (fraction ++ e.digits)
  obtain ⟨hlow', hhigh'⟩ := plainNumber_bounds n.whole fraction
  have hnonneg := n.mantissa_nonneg
  rw [← hjoined] at hlow hhigh
  rw [← hmantissa] at hlow' hhigh'
  rw [hscale] at hpart ⊢
  have hsigned := e.scale_nonneg
  rcases Nat.eq_zero_or_pos (spelt n.whole) with hzero | hpos
  · rw [hzero, Nat.cast_zero, zero_add] at hhigh hhigh'
    cases hsign : e.negative with
    | true =>
      have htenth := e.scale_le_tenth hsign hsize
      exact absurd (Int.floor_eq_zero_iff.mpr ⟨by positivity, by nlinarith⟩) hpart
    | false =>
      have hten := e.ten_le_scale hsign hsize
      intro heq
      rcases lt_or_ge n.mantissa (1 / 2) with hhalf | hhalf
      · have hne : fraction ≠ [] := by
          rintro rfl
          exact n.fraction_nonempty hfraction
        have hjoinedHalf : n.joined < 1 / 2 := by
          rw [hjoined]
          rw [hmantissa] at hhalf
          exact plainNumber_lt_half hne hhalf
        have hsmall := nearest_lt_one_of_lt_half n.joined_nonneg hjoinedHalf
        rw [← heq] at hpart
        exact hpart (Int.floor_eq_zero_iff.mpr ⟨nearest_nonneg n.joined_nonneg, hsmall⟩)
      · have hone := nearest_le_one hhigh
        have hfive : (5 : ℤ) ≤ ⌊n.mantissa * e.scale⌋ := Int.le_floor.mpr (by push_cast; nlinarith)
        have hfloor : ⌊nearest n.joined⌋ ≤ 1 := by exact_mod_cast (Int.floor_le (nearest n.joined)).trans hone
        omega
  · have hone : (1 : ℚ) ≤ spelt n.whole := by exact_mod_cast hpos
    cases hsign : e.negative with
    | true =>
      have htenth := e.scale_le_tenth hsign hsize
      apply floor_ne_of_low <;> nlinarith
    | false =>
      have hten := e.ten_le_scale hsign hsize
      apply floor_ne_of_high <;> nlinarith

/-- The same for digits joined to digits. -/
theorem not_read_whole {e : SvgExponent} (hexponent : n.exponent = some e) (hfraction : n.fraction = none)
    (hsize : e.negative = true ∨ e.size ≠ e.digits.length) (hpart : ⌊n.mantissa * n.scale⌋ ≠ 0) :
    ⌊nearest n.joined⌋ ≠ ⌊n.mantissa * n.scale⌋ := by
  have hmantissa : n.mantissa = spelt n.whole := by rw [mantissa, hfraction, plainNumber_whole]
  have hscale : n.scale = e.scale := by rw [scale, hexponent]
  have hjoined : n.joined = spelt n.whole * 10 ^ e.digits.length + spelt e.digits := by
    rw [joined, hfraction, plainNumber_whole, spelt_append, exponentDigits, hexponent]
    push_cast
    rfl
  have hone : (1 : ℚ) ≤ spelt n.whole := by
    have hne : spelt n.whole ≠ 0 := by
      intro hzero
      rw [hmantissa, hzero] at hpart
      simp at hpart
    exact_mod_cast Nat.one_le_iff_ne_zero.mpr hne
  have hdigits : (spelt e.digits : ℚ) < 10 ^ e.digits.length := by exact_mod_cast spelt_lt e.digits
  have hnonneg : (0 : ℚ) ≤ spelt e.digits := Nat.cast_nonneg _
  have hten := e.ten_le_length
  rw [hmantissa, hscale, hjoined]
  by_cases hlow : e.negative = true ∨ e.size < e.digits.length
  · have hscale := e.scale_le_of_low hlow
    apply floor_ne_of_low <;> nlinarith [e.scale_nonneg]
  · rw [not_or, Bool.not_eq_true] at hlow
    have hhigh := e.scale_ge_of_high hlow.1 (by rcases hsize with h | h <;> [exact absurd h (by simp [hlow.1]); omega])
    apply floor_ne_of_high <;> nlinarith

theorem not_read_of_no_drift (hdrift : n.drift = none) (hpart : ⌊n.mantissa * n.scale⌋ ≠ 0) :
    ⌊nearest n.joined⌋ ≠ ⌊n.mantissa * n.scale⌋ := by
  unfold drift at hdrift
  split at hdrift
  · cases hdrift
  · rename_i e fraction hexponent hfraction
    split at hdrift
    · cases hdrift
    · rename_i hsize
      exact not_read_point hexponent hfraction hsize hpart
  · rename_i e hexponent hfraction
    split at hdrift
    · cases hdrift
    · rename_i hother
      refine not_read_whole hexponent hfraction ?_ hpart
      by_contra hboth
      rw [not_or, not_not, Bool.not_eq_true] at hboth
      simp [hboth] at hother

theorem toDouble_eq_some {x double : ℚ} (h : toDouble x = some double) : nearest x = double := by
  unfold toDouble at h
  split at h
  · exact Option.some.inj h
  · cases h

/-- What is left of a number is rounded to a double with its integer part: no other numbers
    are read right. -/
theorem readsRight_iff (n : SvgNumber) :
    n.ReadsRight ↔ ∃ double, toDouble n.joined = some double ∧ ⌊double⌋ = n.integerPart := by
  unfold ReadsRight
  split
  · rename_i hzero
    rw [hzero]
    constructor
    · intro hjoined
      have hbelow : n.joined < 1 := by
        have : (0 : ℚ) < 1 / 2 ^ 54 := by positivity
        linarith
      have hlt := (nearest_lt_one_iff n.joined_nonneg hbelow).mpr hjoined
      refine ⟨nearest n.joined, if_pos (hlt.trans_le (one_le_pow₀ (by norm_num))), ?_⟩
      exact Int.floor_eq_zero_iff.mpr ⟨nearest_nonneg n.joined_nonneg, hlt⟩
    · rintro ⟨double, hdouble, hfloor⟩
      rw [← toDouble_eq_some hdouble] at hfloor
      have hlt : nearest n.joined < 1 := (Int.floor_eq_zero_iff.mp hfloor).2
      have hbelow : n.joined < 1 := by
        by_contra hge
        exact absurd (one_le_nearest (not_lt.mp hge)) (not_le.mpr hlt)
      exact (nearest_lt_one_iff n.joined_nonneg hbelow).mp hlt
  · rename_i hpart
    constructor
    · rintro ⟨hplus, drift, double, hdrift, hdouble, hfloor⟩
      rw [← joined_of_drift hplus hdrift] at hdouble
      exact ⟨double, hdouble, hfloor⟩
    · rintro ⟨double, hdouble, hfloor⟩
      have hplus : n.negative = false := by
        by_contra hminus
        have hle := integerPart_of_minus (Bool.not_eq_false _ ▸ hminus)
        have hnonneg := Int.floor_nonneg.mpr (toDouble_nonneg n.joined_nonneg hdouble)
        omega
      refine ⟨hplus, ?_⟩
      cases hdrift : n.drift with
      | none =>
        rw [← toDouble_eq_some hdouble, integerPart_of_plus hplus] at hfloor
        rw [integerPart_of_plus hplus] at hpart
        exact absurd hfloor (not_read_of_no_drift hdrift hpart)
      | some drift =>
        rw [joined_of_drift hplus hdrift] at hdouble
        exact ⟨drift, double, rfl, hdouble, hfloor⟩

end SvgNumber

/-! ## The limit on pixels -/

theorem svgDimensions_numbers {root : Element} {w h : SvgNumber} (hw : root.attrib.lookup "width" = some w.text)
    (hh : root.attrib.lookup "height" = some h.text) (width height : ℤ) :
    svgDimensions root = .ok (some width, some height) ↔
      (∃ double, toDouble w.joined = some double ∧ ⌊double⌋ = width) ∧
        ∃ double, toDouble h.joined = some double ∧ ⌊double⌋ = height := by
  rw [svgDimensions, hw, hh, parseSvgLength_text, parseSvgLength_text]
  cases toDouble w.joined with
  | none => simp [bind, Except.bind]
  | some double =>
    cases toDouble h.joined with
    | none => simp [bind, Except.bind]
    | some double' => simp [bind, Except.bind, pure, Except.pure]

/-- The file is refused. -/
def Rejects (result : Except PyExc ValidationResult) : Prop := ∃ validation, result = .ok validation ∧ validation.ok = false

/-- For a width and a height in any notation, and so for those over the limit: the file is
    refused, with the integer parts for its sides, exactly when both numbers are read as they
    are written and the product of the integer parts is over the limit. -/
theorem pixel_limit_holds_iff (fromstring : Bytes → Except XmlError Element) (maxPixels : ℤ) (payload : Bytes)
    (root : Element) (w h : SvgNumber) (hroot : fromstring payload = .ok root) (hsvg : isSvgTag root.tag = true)
    (hw : root.attrib.lookup "width" = some w.text) (hh : root.attrib.lookup "height" = some h.text) :
    (Rejects (validate fromstring maxPixels payload) ∧ svgDimensions root = .ok (some w.integerPart, some h.integerPart)) ↔
      w.ReadsRight ∧ h.ReadsRight ∧ maxPixels < w.integerPart * h.integerPart := by
  rw [svgDimensions_numbers hw hh, ← SvgNumber.readsRight_iff, ← SvgNumber.readsRight_iff]
  have hrejects : w.ReadsRight ∧ h.ReadsRight →
      (Rejects (validate fromstring maxPixels payload) ↔ maxPixels < w.integerPart * h.integerPart) := by
    rintro ⟨hwright, hhright⟩
    have hdimensions := (svgDimensions_numbers hw hh w.integerPart h.integerPart).mpr
      ⟨w.readsRight_iff.mp hwright, h.readsRight_iff.mp hhright⟩
    rw [Rejects, validate, hroot]
    simp only [hsvg, hdimensions, Bool.not_true, Bool.false_eq_true, if_false]
    by_cases hover : maxPixels < w.integerPart * h.integerPart
    · simp [bind, Except.bind, pure, Except.pure, exceeds, hover, tooManyPixels]
    · simp [bind, Except.bind, pure, Except.pure, exceeds, hover]
  constructor
  · rintro ⟨hreject, hwright, hhright⟩
    exact ⟨hwright, hhright, (hrejects ⟨hwright, hhright⟩).mp hreject⟩
  · rintro ⟨hwright, hhright, hover⟩
    exact ⟨(hrejects ⟨hwright, hhright⟩).mpr hover, hwright, hhright⟩

namespace Sample

/-- `1e9`. -/
def billion : SvgNumber := ⟨none, [1], none, some ⟨false, none, [9], by decide⟩, by decide, by decide⟩

/-- `+8000.5`. -/
def eightThousand : SvgNumber := ⟨some false, [8, 0, 0, 0], some [5], none, by decide, by decide⟩

/-- `<svg width="…" height="…"/>`. -/
def square (side : SvgNumber) : Element := element "svg" [⟨"width", side.text⟩, ⟨"height", side.text⟩]

def squareSource (side : SvgNumber) : Bytes :=
  ("<svg width=\"" ++ side.text ++ "\" height=\"" ++ side.text ++ "\"/>").toList.map (·.toNat.toUInt8)

def fromstring (side : SvgNumber) (payload : Bytes) : Except XmlError Element :=
  if payload = squareSource side then .ok (square side) else .error .parseError

example : billion.text = "1e9" ∧ eightThousand.text = "+8000.5" := by decide +kernel

end Sample

open Sample in
theorem a_plain_square_is_refused :
    (Rejects (validate (fromstring eightThousand) 50000000 (squareSource eightThousand)) ∧
      svgDimensions (square eightThousand) = .ok (some eightThousand.integerPart, some eightThousand.integerPart)) ↔
    eightThousand.ReadsRight ∧ eightThousand.ReadsRight ∧
      50000000 < eightThousand.integerPart * eightThousand.integerPart :=
  pixel_limit_holds_iff (fromstring eightThousand) 50000000 (squareSource eightThousand) (square eightThousand) eightThousand
    eightThousand (if_pos rfl) (by decide +kernel) (by decide +kernel) (by decide +kernel)

open Sample in
/-- A square of `1e9` pixels a side is taken for one of 19, and accepted. -/
theorem an_exponent_evades_the_limit :
    50000000 < billion.value * billion.value ∧ billion.integerPart = 1000000000 ∧
      svgDimensions (square billion) = .ok (some 19, some 19) ∧
      validate (fromstring billion) 50000000 (squareSource billion) = .ok ⟨true, none⟩ := by
  decide +kernel

end Imghost.Svg
