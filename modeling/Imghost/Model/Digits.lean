/-
  Imghost.Model.Digits — `str.isdigit` and `int` of a text of digits.

  `isdigit` is true of every character with a Unicode digit value: of the decimal digits
  (ten in a row from each of `decimalZeros`) and of the superscripts, the circled digits
  and other signs that are no decimal digits (`otherDigits`). `int` takes decimal digits of
  any script and at most `intMaxStrDigits` of them; anything else is a `ValueError`.
-/

import Mathlib.Data.Nat.Digits.Defs
import Imghost.Model.Stdlib

namespace Imghost.Model

/-! ## Characters -/

/-- The code points of the characters with decimal value 0. -/
def decimalZeros : List Nat :=
  [0x30, 0x660, 0x6f0, 0x7c0, 0x966, 0x9e6, 0xa66, 0xae6, 0xb66, 0xbe6, 0xc66, 0xce6, 0xd66, 0xde6, 0xe50, 0xed0, 0xf20,
    0x1040, 0x1090, 0x17e0, 0x1810, 0x1946, 0x19d0, 0x1a80, 0x1a90, 0x1b50, 0x1bb0, 0x1c40, 0x1c50, 0xa620, 0xa8d0,
    0xa900, 0xa9d0, 0xa9f0, 0xaa50, 0xabf0, 0xff10, 0x104a0, 0x10d30, 0x10d40, 0x11066, 0x110f0, 0x11136, 0x111d0,
    0x112f0, 0x11450, 0x114d0, 0x11650, 0x116c0, 0x116d0, 0x116da, 0x11730, 0x118e0, 0x11950, 0x11bf0, 0x11c50, 0x11d50,
    0x11da0, 0x11de0, 0x11f50, 0x16a60, 0x16ac0, 0x16b50, 0x1ccf0, 0x1d7ce, 0x1d7d8, 0x1d7e2, 0x1d7ec, 0x1d7f6, 0x1e140,
    0x1e2f0, 0x1e4f0, 0x1e5f1, 0x1e950, 0x1fbf0]

/-- First and last code point of each run of characters that have a digit value and are no
    decimal digits. -/
def otherDigits : List (Nat × Nat) :=
  [(0xb2, 0xb3), (0xb9, 0xb9), (0x1369, 0x1371), (0x19da, 0x19da), (0x2070, 0x2070), (0x2074, 0x2079), (0x2080, 0x2089),
    (0x2460, 0x2468), (0x2474, 0x247c), (0x2488, 0x2490), (0x24ea, 0x24ea), (0x24f5, 0x24fd), (0x24ff, 0x24ff),
    (0x2776, 0x277e), (0x2780, 0x2788), (0x278a, 0x2792), (0x10a40, 0x10a43), (0x10e60, 0x10e68), (0x11052, 0x1105a),
    (0x1f100, 0x1f10a)]

/-- `unicodedata.decimal`. -/
def decimalValue (c : Char) : Option Nat :=
  (decimalZeros.find? fun first => first ≤ c.toNat && c.toNat < first + 10).map (c.toNat - ·)

def isDigitChar (c : Char) : Bool :=
  (decimalValue c).isSome || otherDigits.any fun run => run.1 ≤ c.toNat && c.toNat ≤ run.2

/-- `text.isdigit()`. -/
def isdigit (text : List Char) : Bool := text != [] && text.all isDigitChar

/-! ## int -/

/-- `sys.int_info.default_max_str_digits`. -/
def intMaxStrDigits : Nat := 4300

/-- The number a text of decimal digits spells. -/
def numeral (text : List Char) : Option Nat := (text.mapM decimalValue).map fun digits => Nat.ofDigits 10 digits.reverse

/-- `int(text)` of a text that `isdigit` accepts; `none` when it raises `ValueError`. -/
def pyInt (text : List Char) : Option Nat := if text.length ≤ intMaxStrDigits then numeral text else none

/-- `int` takes the text: decimal digits only, and not too many. -/
def Convertible (text : List Char) : Prop := (numeral text).isSome = true ∧ text.length ≤ intMaxStrDigits

instance (text : List Char) : Decidable (Convertible text) := by unfold Convertible; infer_instance

theorem pyInt_of_convertible {text : List Char} (h : Convertible text) : ∃ n, pyInt text = some n ∧ numeral text = some n := by
  obtain ⟨hn, hl⟩ := h
  obtain ⟨n, hn⟩ := Option.isSome_iff_exists.mp hn
  exact ⟨n, by simp [pyInt, hl, hn], hn⟩

theorem pyInt_of_not_convertible {text : List Char} (h : ¬ Convertible text) : pyInt text = none := by
  unfold pyInt
  split
  · rename_i hl
    by_contra hne
    exact h ⟨by simpa [Option.isSome_iff_ne_none] using hne, hl⟩
  · rfl

theorem mapM_decimalValue_digits {text : List Char} {digits : List Nat} (h : text.mapM decimalValue = some digits) :
    ∀ c ∈ text, isDigitChar c = true := by
  induction text generalizing digits with
  | nil => simp
  | cons c text ih =>
    rw [List.mapM_cons] at h
    obtain ⟨d, hd, h⟩ := Option.bind_eq_some_iff.mp h
    obtain ⟨rest, hrest, _⟩ := Option.bind_eq_some_iff.mp h
    intro b hb
    rcases List.mem_cons.mp hb with e | hb
    · simp [e, isDigitChar, hd]
    · exact ih hrest b hb

theorem numeral_digits {text : List Char} {n : Nat} (h : numeral text = some n) : ∀ c ∈ text, isDigitChar c = true := by
  obtain ⟨digits, hd, _⟩ := Option.map_eq_some_iff.mp h
  exact mapM_decimalValue_digits hd

/-! ## The digits of a number -/

theorem decimalValue_ascii {c : Char} (h : c.isDigit = true) : decimalValue c = some (c.toNat - 48) := by
  have hrange : 48 ≤ c.toNat ∧ c.toNat ≤ 57 := by
    simpa [Char.isDigit, UInt32.le_iff_toNat_le] using h
  rw [decimalValue, decimalZeros, List.find?_cons_of_pos]
  · rfl
  · simp only [Bool.and_eq_true, decide_eq_true_eq]
    omega

theorem numeral_ascii {text : List Char} (h : ∀ c ∈ text, c.isDigit = true) :
    numeral text = some (Nat.ofDigitChars 10 text 0) := by
  have hdigits : ∀ l : List Char, (∀ c ∈ l, c.isDigit = true) → l.mapM decimalValue = some (l.map (·.toNat - 48)) := by
    intro l hl
    induction l with
    | nil => rfl
    | cons c l ih =>
      rw [List.mapM_cons, decimalValue_ascii (hl c List.mem_cons_self), ih fun d hd => hl d (List.mem_cons_of_mem c hd)]
      rfl
  have hvalue : ∀ (l : List Char) (init : Nat),
      Nat.ofDigitChars 10 l init = 10 ^ l.length * init + Nat.ofDigits 10 (l.map (·.toNat - 48)).reverse := by
    intro l
    induction l with
    | nil =>
      intro init
      simp
    | cons c l ih =>
      intro init
      rw [Nat.ofDigitChars_cons, ih, List.map_cons, List.reverse_cons, Nat.ofDigits_append, List.length_reverse,
        List.length_map, List.length_cons, Nat.ofDigits_singleton, Nat.pow_succ, Nat.mul_add]
      have hzero : '0'.toNat = 48 := rfl
      rw [hzero, ← Nat.mul_assoc]
      omega
  rw [numeral, hdigits text h, hvalue text 0]
  simp

/-- A number that is written out is read back, as long as it has no more digits than `int` takes. -/
theorem pyInt_toDigits {n : Nat} (h : (Nat.toDigits 10 n).length ≤ intMaxStrDigits) : pyInt (Nat.toDigits 10 n) = some n := by
  have hdigits : ∀ c ∈ Nat.toDigits 10 n, c.isDigit = true := fun c hc => Nat.isDigit_of_mem_toDigits (by decide) (by decide) hc
  rw [pyInt, if_pos h, numeral_ascii hdigits, Nat.ofDigitChars_toDigits (by decide) (by decide)]

theorem isdigit_toDigits (n : Nat) : isdigit (Nat.toDigits 10 n) = true := by
  have hdigit : ∀ c ∈ Nat.toDigits 10 n, isDigitChar c = true := by
    intro c hc
    rw [isDigitChar, decimalValue_ascii (Nat.isDigit_of_mem_toDigits (by decide) (by decide) hc)]
    rfl
  rw [isdigit, List.all_eq_true.mpr hdigit, Bool.and_true]
  exact bne_iff_ne.mpr Nat.toDigits_ne_nil

end Imghost.Model
