/-
  Imghost.Model.Percent — `urllib.parse.quote`, `quote_plus`, `unquote`, and the UTF-8 decoder
  behind them.

  A text is quoted byte by byte. `unquote` decodes each run of ASCII characters on its own;
  a sign without two hex digits after it stays as it is. Bytes that are no UTF-8 are
  replaced by U+FFFD, one for the longest beginning of a character.

  - `decodeReplace_utf8`: UTF-8 is read back.
  - `unquote_quote`, `unquotePlus_quotePlus`: and so is a quoted text.
-/

import Imghost.Model.Digits
import Mathlib.Data.List.SplitBy

namespace Imghost.Model

/-! ## UTF-8 -/

/-- `text.encode("utf-8")`. -/
def utf8 (text : List Char) : Bytes := text.flatMap String.utf8EncodeChar

/-- The character the bytes begin with. -/
def firstChar (bytes : Bytes) : Option Char := bytes.toByteArray.utf8DecodeChar? 0

/-- The bytes a second byte of a character can be, after its first. -/
def isSecond (first second : Nat) : Bool :=
  if first == 0xe0 then 0xa0 ≤ second && second ≤ 0xbf
  else if first == 0xed then 0x80 ≤ second && second ≤ 0x9f
  else if first == 0xf0 then 0x90 ≤ second && second ≤ 0xbf
  else if first == 0xf4 then 0x80 ≤ second && second ≤ 0x8f
  else 0x80 ≤ second && second ≤ 0xbf

/-- How many bytes one replacement character stands for, where no character begins. -/
def malformedLength : Bytes → Nat
  | [] => 1
  | first :: rest =>
    let first := first.toNat
    let second := (rest[0]?.map UInt8.toNat).any (isSecond first)
    let third := (rest[1]?.map UInt8.toNat).any fun third => 0x80 ≤ third && third ≤ 0xbf
    if 0xe0 ≤ first && first ≤ 0xef && second then 2
    else if 0xf0 ≤ first && first ≤ 0xf4 && second then if third then 3 else 2
    else 1

theorem malformedLength_pos (bytes : Bytes) : 0 < malformedLength bytes := by
  cases bytes with
  | nil => decide
  | cons first rest =>
    simp only [malformedLength]
    split
    · decide
    · split
      · split <;> decide
      · decide

/-- `data.decode("utf-8", "replace")`. -/
def decodeReplace (bytes : Bytes) : List Char :=
  match bytes with
  | [] => []
  | byte :: rest =>
    match firstChar (byte :: rest) with
    | some c => c :: decodeReplace ((byte :: rest).drop c.utf8Size)
    | none => '\ufffd' :: decodeReplace ((byte :: rest).drop (malformedLength (byte :: rest)))
  termination_by bytes.length
  decreasing_by
    · have := c.utf8Size_pos
      simp only [List.length_drop, List.length_cons]
      omega
    · have := malformedLength_pos (byte :: rest)
      simp only [List.length_drop, List.length_cons]
      omega

theorem firstChar_utf8 (c : Char) (rest : Bytes) : firstChar (String.utf8EncodeChar c ++ rest) = some c := by
  rw [firstChar, List.toByteArray_append]
  exact ByteArray.utf8DecodeChar?_utf8EncodeChar_append

/-- What is encoded is decoded. -/
theorem decodeReplace_append (text : List Char) (rest : Bytes) :
    decodeReplace (utf8 text ++ rest) = text ++ decodeReplace rest := by
  induction text with
  | nil => rfl
  | cons c text ih =>
    have hsplit : utf8 (c :: text) ++ rest = String.utf8EncodeChar c ++ (utf8 text ++ rest) := by
      rw [utf8, List.flatMap_cons, List.append_assoc]
      rfl
    have hfirst := firstChar_utf8 c (utf8 text ++ rest)
    have hlength : (String.utf8EncodeChar c).length = c.utf8Size := String.length_utf8EncodeChar c
    rw [hsplit]
    cases hbytes : String.utf8EncodeChar c ++ (utf8 text ++ rest) with
    | nil =>
      rw [List.append_eq_nil_iff] at hbytes
      exact absurd hbytes.1 String.utf8EncodeChar_ne_nil
    | cons byte bytes =>
      rw [hbytes] at hfirst
      rw [decodeReplace, hfirst]
      simp only
      rw [← hbytes, ← hlength, List.drop_left, ih]
      rfl

theorem decodeReplace_utf8 (text : List Char) : decodeReplace (utf8 text) = text := by
  have happend := decodeReplace_append text []
  have hnil : decodeReplace [] = [] := by rw [decodeReplace]
  rwa [List.append_nil, hnil, List.append_nil] at happend

/-! ## Quoting -/

/-- `_ALWAYS_SAFE`. -/
def isAlwaysSafe (c : Char) : Bool := c.isAlphanum || c == '_' || c == '.' || c == '-' || c == '~'

/-- An upper-case hex digit. -/
def hexDigit (n : Nat) : Char := if n < 10 then Char.ofNat (48 + n) else Char.ofNat (55 + n)

/-- A byte as it is written in a URL. -/
def quoteByte (byte : UInt8) : List Char :=
  if byte.toNat < 128 && isAlwaysSafe (Char.ofNat byte.toNat) then [Char.ofNat byte.toNat]
  else ['%', hexDigit (byte.toNat / 16), hexDigit (byte.toNat % 16)]

/-- `quote(text, safe="")`. -/
def quote (text : List Char) : List Char := (utf8 text).flatMap quoteByte

/-- `quote_plus(text)`. -/
def quotePlus (text : List Char) : List Char := (utf8 text).flatMap fun byte => if byte = 32 then ['+'] else quoteByte byte

/-! ## Reading what is quoted -/

/-- The value of a hex digit, in either case. -/
def hexValue (byte : UInt8) : Option Nat :=
  let n := byte.toNat
  if 48 ≤ n && n ≤ 57 then some (n - 48)
  else if 65 ≤ n && n ≤ 70 then some (n - 55)
  else if 97 ≤ n && n ≤ 102 then some (n - 87)
  else none

/-- `unquote_to_bytes`. -/
def unquoteBytes : Bytes → Bytes
  | [] => []
  | [byte] => [byte]
  | [byte, byte'] => [byte, byte']
  | byte :: high :: low :: rest =>
    if byte = 37 then
      match hexValue high, hexValue low with
      | some high, some low => UInt8.ofNat (16 * high + low) :: unquoteBytes rest
      | _, _ => byte :: unquoteBytes (high :: low :: rest)
    else byte :: unquoteBytes (high :: low :: rest)

theorem unquoteBytes_cons {byte : UInt8} (h : byte ≠ 37) (rest : Bytes) : unquoteBytes (byte :: rest) = byte :: unquoteBytes rest := by
  match rest with
  | [] => rfl
  | [_] => rfl
  | _ :: _ :: _ => rw [unquoteBytes, if_neg h]

def isAsciiChar (c : Char) : Bool := c.toNat < 128

/-- The bytes of ASCII characters. -/
def asciiBytes (text : List Char) : Bytes := text.map fun c => UInt8.ofNat c.toNat

/-- A run of characters that are all ASCII or all not. -/
def unquoteRun (run : List Char) : List Char :=
  if run.all isAsciiChar then decodeReplace (unquoteBytes (asciiBytes run)) else run

/-- `unquote(text)`. -/
def unquote (text : List Char) : List Char :=
  (text.splitBy fun a b => isAsciiChar a == isAsciiChar b).flatMap unquoteRun

/-- `unquote(text.replace("+", " "))`. -/
def unquotePlus (text : List Char) : List Char := unquote (text.map fun c => if c = '+' then ' ' else c)

/-- ASCII text is one run. -/
theorem unquote_ascii {text : List Char} (h : ∀ c ∈ text, isAsciiChar c = true) :
    unquote text = decodeReplace (unquoteBytes (asciiBytes text)) := by
  have hchain : text.IsChain fun a b => (isAsciiChar a == isAsciiChar b) = true := by
    apply List.Pairwise.isChain
    rw [List.pairwise_iff_getElem]
    intro i j hi hj _
    rw [h _ (List.getElem_mem hi), h _ (List.getElem_mem hj)]
    rfl
  cases text with
  | nil =>
    show [] = decodeReplace []
    rw [decodeReplace]
  | cons c text =>
    have hone : (c :: text).splitBy (fun a b => isAsciiChar a == isAsciiChar b) = [c :: text] :=
      List.splitBy_of_isChain (List.cons_ne_nil _ _) hchain
    have hall : (c :: text).all isAsciiChar = true := List.all_eq_true.mpr h
    rw [unquote, hone, List.flatMap_singleton, unquoteRun, if_pos hall]

theorem hexDigit_facts : ∀ n < 16, isAsciiChar (hexDigit n) = true ∧ hexValue (UInt8.ofNat (hexDigit n).toNat) = some n ∧
    (hexDigit n).isAlphanum = true := by decide

/-- A quoted byte is read back. -/
theorem unquoteBytes_quoteByte (byte : UInt8) (rest : Bytes) :
    unquoteBytes (asciiBytes (quoteByte byte) ++ rest) = byte :: unquoteBytes rest := by
  have hlt : byte.toNat < 256 := byte.toNat_lt_size
  by_cases hsafe : (byte.toNat < 128 && isAlwaysSafe (Char.ofNat byte.toNat)) = true
  · obtain ⟨hascii, hchar⟩ := Bool.and_eq_true_iff.mp hsafe
    have hascii : byte.toNat < 128 := of_decide_eq_true hascii
    have hsame : UInt8.ofNat (Char.ofNat byte.toNat).toNat = byte := by
      have hn : ∀ n < 128, (Char.ofNat n).toNat = n := by decide
      rw [hn _ hascii, UInt8.ofNat_toNat]
    have hne : byte ≠ 37 := by
      rintro rfl
      exact absurd hchar (by decide)
    rw [quoteByte, if_pos hsafe]
    simp only [asciiBytes, List.map_cons, List.map_nil, hsame, List.cons_append, List.nil_append]
    exact unquoteBytes_cons hne rest
  · obtain ⟨-, hhigh, -⟩ := hexDigit_facts (byte.toNat / 16) (by omega)
    obtain ⟨-, hlow, -⟩ := hexDigit_facts (byte.toNat % 16) (by omega)
    have hvalue : UInt8.ofNat (16 * (byte.toNat / 16) + byte.toNat % 16) = byte := by
      rw [Nat.div_add_mod, UInt8.ofNat_toNat]
    rw [quoteByte, if_neg hsafe]
    simp only [asciiBytes, List.map_cons, List.map_nil, List.cons_append, List.nil_append]
    rw [unquoteBytes, if_pos (show UInt8.ofNat '%'.toNat = 37 from rfl)]
    simp only [hhigh, hlow, hvalue]

theorem quoteByte_chars (byte : UInt8) : ∀ c ∈ quoteByte byte, isAsciiChar c = true ∧ (isAlwaysSafe c = true ∨ c = '%') := by
  intro c hc
  have hlt : byte.toNat < 256 := byte.toNat_lt_size
  by_cases hsafe : (byte.toNat < 128 && isAlwaysSafe (Char.ofNat byte.toNat)) = true
  · rw [quoteByte, if_pos hsafe] at hc
    obtain rfl := List.mem_singleton.mp hc
    obtain ⟨hascii, hchar⟩ := Bool.and_eq_true_iff.mp hsafe
    have hn : ∀ n < 128, isAsciiChar (Char.ofNat n) = true := by decide
    exact ⟨hn _ (of_decide_eq_true hascii), .inl hchar⟩
  · rw [quoteByte, if_neg hsafe] at hc
    have hhex : ∀ n < 16, isAsciiChar (hexDigit n) = true ∧ isAlwaysSafe (hexDigit n) = true := by decide
    simp only [List.mem_cons, List.not_mem_nil, or_false] at hc
    rcases hc with rfl | rfl | rfl
    · exact ⟨by decide, .inr rfl⟩
    · exact ⟨(hhex _ (by omega)).1, .inl (hhex _ (by omega)).2⟩
    · exact ⟨(hhex _ (by omega)).1, .inl (hhex _ (by omega)).2⟩

theorem quote_chars (text : List Char) : ∀ c ∈ quote text, isAsciiChar c = true ∧ (isAlwaysSafe c = true ∨ c = '%') := by
  intro c hc
  obtain ⟨byte, -, hc⟩ := List.mem_flatMap.mp hc
  exact quoteByte_chars byte c hc

/-- What is quoted is read back. -/
theorem unquote_quote (text : List Char) : unquote (quote text) = text := by
  have hbytes : ∀ bytes : Bytes, unquoteBytes (asciiBytes (bytes.flatMap quoteByte)) = bytes := by
    intro bytes
    induction bytes with
    | nil => rfl
    | cons byte bytes ih =>
      have hsplit : asciiBytes ((byte :: bytes).flatMap quoteByte) =
          asciiBytes (quoteByte byte) ++ asciiBytes (bytes.flatMap quoteByte) := by
        simp [asciiBytes]
      rw [hsplit, unquoteBytes_quoteByte, ih]
  rw [unquote_ascii fun c hc => (quote_chars text c hc).1, quote, hbytes, decodeReplace_utf8]

/-- A character of a text that `quote_plus` has written. -/
def isQuotedChar (c : Char) : Bool := isAsciiChar c && (isAlwaysSafe c || c == '%' || c == '+')

theorem quotePlus_chars (text : List Char) : ∀ c ∈ quotePlus text, isQuotedChar c = true := by
  intro c hc
  obtain ⟨byte, -, hc⟩ := List.mem_flatMap.mp hc
  by_cases hspace : byte = 32
  · rw [if_pos hspace] at hc
    obtain rfl := List.mem_singleton.mp hc
    decide
  · rw [if_neg hspace] at hc
    obtain ⟨hascii, hsafe | rfl⟩ := quoteByte_chars byte c hc
    · simp [isQuotedChar, hascii, hsafe]
    · decide

theorem quoteByte_no_plus (byte : UInt8) : (quoteByte byte).map (fun c => if c = '+' then ' ' else c) = quoteByte byte := by
  have hne : ∀ c ∈ quoteByte byte, c ≠ '+' := by
    intro c hc hplus
    subst hplus
    rcases (quoteByte_chars byte '+' hc).2 with h | h <;> exact absurd h (by decide)
  conv_rhs => rw [← List.map_id (quoteByte byte)]
  apply List.map_congr_left
  intro c hc
  exact if_neg (hne c hc)

theorem unquotePlus_quotePlus (text : List Char) : unquotePlus (quotePlus text) = text := by
  -- every `+` is a space
  have hspaces : (quotePlus text).map (fun c => if c = '+' then ' ' else c) =
      (utf8 text).flatMap fun byte => if byte = 32 then [' '] else quoteByte byte := by
    rw [quotePlus, List.map_flatMap]
    congr 1
    funext byte
    split
    · rfl
    · exact quoteByte_no_plus byte
  have hbytes : ∀ bytes : Bytes,
      unquoteBytes (asciiBytes (bytes.flatMap fun byte => if byte = 32 then [' '] else quoteByte byte)) = bytes := by
    intro bytes
    induction bytes with
    | nil => rfl
    | cons byte bytes ih =>
      rw [List.flatMap_cons, asciiBytes, List.map_append]
      split
      · rename_i hspace
        subst hspace
        exact (unquoteBytes_cons (by decide) _).trans (congrArg _ ih)
      · exact (unquoteBytes_quoteByte byte _).trans (congrArg _ ih)
  rw [unquotePlus, hspaces, unquote_ascii, hbytes, decodeReplace_utf8]
  intro c hc
  obtain ⟨byte, -, hc⟩ := List.mem_flatMap.mp hc
  split at hc
  · obtain rfl := List.mem_singleton.mp hc
    decide
  · exact (quoteByte_chars byte c hc).1

end Imghost.Model
