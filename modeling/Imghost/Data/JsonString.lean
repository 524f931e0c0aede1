/-
  Imghost.Data.JsonString — strings of JSON that are written in ASCII.

  The writer escapes all but the printable ASCII characters: seven with a letter or a sign, the others
  by the UTF-16 units of their code points. The reader takes a string up to its closing quote in
  pieces, a character or a unit each, and joins two units that are the surrogates of one character.
  A surrogate alone is no character; what it is read as is left to the caller (`lone`).

  What is proved: a text is read back from its escapes, whatever follows the closing quote.
-/

namespace Imghost.Data.JsonString

/-! ## UTF-16 units -/

/-- Four lower-case hex digits. -/
def hexUnit (n : Nat) : List Char :=
  [Nat.digitChar (n / 4096 % 16), Nat.digitChar (n / 256 % 16), Nat.digitChar (n / 16 % 16), Nat.digitChar (n % 16)]

/-- The value of a hex digit, in either case. -/
def hexDigitValue (c : Char) : Option Nat :=
  let n := c.toNat
  if 48 ≤ n ∧ n ≤ 57 then some (n - 48)
  else if 65 ≤ n ∧ n ≤ 70 then some (n - 55)
  else if 97 ≤ n ∧ n ≤ 102 then some (n - 87)
  else none

/-- A unit of four hex digits and the text behind it. -/
def readUnit : List Char → Option (Nat × List Char)
  | a :: b :: c :: d :: rest =>
    match hexDigitValue a, hexDigitValue b, hexDigitValue c, hexDigitValue d with
    | some a, some b, some c, some d => some (a * 4096 + b * 256 + c * 16 + d, rest)
    | _, _, _, _ => none
  | _ => none

theorem hexDigitValue_digitChar : ∀ n < 16, hexDigitValue (Nat.digitChar n) = some n := by decide

theorem readUnit_hexUnit {n : Nat} (h : n < 65536) (rest : List Char) : readUnit (hexUnit n ++ rest) = some (n, rest) := by
  have hsum : n / 4096 % 16 * 4096 + n / 256 % 16 * 256 + n / 16 % 16 * 16 + n % 16 = n := by omega
  simp only [hexUnit, List.cons_append, List.nil_append, readUnit,
    hexDigitValue_digitChar _ (Nat.mod_lt _ (show 16 > 0 by decide)), hsum]

def isHigh (unit : Nat) : Bool := 0xd800 ≤ unit && unit < 0xdc00

def isLow (unit : Nat) : Bool := 0xdc00 ≤ unit && unit < 0xe000

@[simp] theorem isHigh_iff {unit : Nat} : isHigh unit = true ↔ 0xd800 ≤ unit ∧ unit < 0xdc00 := by simp [isHigh]

@[simp] theorem isLow_iff {unit : Nat} : isLow unit = true ↔ 0xdc00 ≤ unit ∧ unit < 0xe000 := by simp [isLow]

/-! ## Writing -/

/-- The characters with an escape of their own, and its second character. -/
def shortEscapes : List (Char × Char) :=
  [('"', '"'), ('\\', '\\'), ('\n', 'n'), ('\r', 'r'), ('\t', 't'), ('\x0c', 'f'), ('\x08', 'b')]

def escapeUnit (n : Nat) : List Char := '\\' :: 'u' :: hexUnit n

/-- The surrogates of a character beyond the first 65536. -/
def highOf (c : Char) : Nat := 0xd800 + (c.toNat - 0x10000) / 1024

def lowOf (c : Char) : Nat := 0xdc00 + (c.toNat - 0x10000) % 1024

def escapeChar (c : Char) : List Char :=
  match shortEscapes.lookup c with
  | some e => ['\\', e]
  | none =>
    if 32 ≤ c.toNat ∧ c.toNat ≤ 126 then [c]
    else if c.toNat < 0x10000 then escapeUnit c.toNat
    else escapeUnit (highOf c) ++ escapeUnit (lowOf c)

def escape (text : List Char) : List Char := text.flatMap escapeChar

/-! ## Reading -/

/-- What stands between the quotes: a character, or a unit that is written as its number. -/
inductive Piece where
  | char (c : Char)
  | unit (n : Nat)

/-- What the second characters of the short escapes mean. -/
def meanings : List (Char × Char) :=
  [('"', '"'), ('\\', '\\'), ('/', '/'), ('b', '\x08'), ('f', '\x0c'), ('n', '\n'), ('r', '\r'), ('t', '\t')]

/-- One escape behind its backslash. -/
def readEscape : List Char → Option (Piece × List Char)
  | [] => none
  | e :: rest =>
    if e = 'u' then (readUnit rest).map fun (unit, rest) => (.unit unit, rest)
    else (meanings.lookup e).map fun c => (.char c, rest)

/-- The pieces up to the closing quote and the text behind it, of which `fuel` characters are looked at; control characters
    are refused. -/
def readPieces : Nat → List Char → Option (List Piece × List Char)
  | 0, _ => none
  | _ + 1, [] => none
  | fuel + 1, c :: text =>
    if c = '"' then some ([], text)
    else if c = '\\' then do
      let (piece, text) ← readEscape text
      let (pieces, rest) ← readPieces fuel text
      return (piece :: pieces, rest)
    else if c.toNat < 32 then none
    else do
      let (pieces, rest) ← readPieces fuel text
      return (.char c :: pieces, rest)

/-- The character of one unit. -/
def ofUnit (lone : Nat → Char) (unit : Nat) : Char := if isHigh unit || isLow unit then lone unit else Char.ofNat unit

def join (lone : Nat → Char) : List Piece → List Char
  | [] => []
  | .char c :: pieces => c :: join lone pieces
  | [.unit unit] => [ofUnit lone unit]
  | .unit unit :: .char c :: pieces => ofUnit lone unit :: c :: join lone pieces
  | .unit unit :: .unit next :: pieces =>
    if isHigh unit && isLow next then Char.ofNat (0x10000 + (unit - 0xd800) * 1024 + (next - 0xdc00)) :: join lone pieces
    else ofUnit lone unit :: join lone (.unit next :: pieces)

/-- A string behind its opening quote, and the text behind it. -/
def scanString (lone : Nat → Char) (text : List Char) : Option (List Char × List Char) :=
  (readPieces text.length text).map fun (pieces, rest) => (join lone pieces, rest)

/-! ## One character -/

/-- The pieces that a character is read as. -/
def piecesOf (c : Char) : List Piece :=
  if (shortEscapes.lookup c).isSome ∨ 32 ≤ c.toNat ∧ c.toNat ≤ 126 then [.char c]
  else if c.toNat < 0x10000 then [.unit c.toNat]
  else [.unit (highOf c), .unit (lowOf c)]

theorem readPieces_char {c : Char} (hquote : c ≠ '"') (hback : c ≠ '\\') (hprint : 32 ≤ c.toNat) (fuel : Nat) (text : List Char) :
    readPieces (fuel + 1) (c :: text) = (readPieces fuel text).map fun p => (.char c :: p.1, p.2) := by
  rw [readPieces, if_neg hquote, if_neg hback, if_neg (by omega)]
  cases readPieces fuel text <;> rfl

theorem readPieces_escape {escaped text : List Char} {piece : Piece} (h : readEscape (escaped ++ text) = some (piece, text))
    (fuel : Nat) : readPieces (fuel + 1) ('\\' :: escaped ++ text) = (readPieces fuel text).map fun p => (piece :: p.1, p.2) := by
  rw [List.cons_append, readPieces, if_neg (by decide), if_pos rfl, h]
  simp only [Option.bind_eq_bind, Option.bind_some]
  cases readPieces fuel text <;> rfl

theorem readPieces_unit {n : Nat} (h : n < 65536) (fuel : Nat) (text : List Char) :
    readPieces (fuel + 1) (escapeUnit n ++ text) = (readPieces fuel text).map fun p => (.unit n :: p.1, p.2) := by
  apply readPieces_escape
  rw [List.cons_append, readEscape, if_pos rfl, readUnit_hexUnit h]
  rfl

/-- The short escapes are understood. -/
theorem meanings_shortEscapes : ∀ entry ∈ shortEscapes, entry.2 ≠ 'u' ∧ meanings.lookup entry.2 = some entry.1 := by decide

theorem lookup_mem {c e : Char} (h : shortEscapes.lookup c = some e) : (c, e) ∈ shortEscapes := by
  obtain ⟨before, after, hsplit, -⟩ := List.lookup_eq_some_iff.mp h
  rw [hsplit]
  simp

theorem readPieces_escapeChar (c : Char) (text : List Char) {fuel : Nat} (hfuel : (piecesOf c).length ≤ fuel) :
    readPieces fuel (escapeChar c ++ text) =
      (readPieces (fuel - (piecesOf c).length) text).map fun p => (piecesOf c ++ p.1, p.2) := by
  have hlt : c.toNat < 0x110000 := by
    have hvalid : c.toNat < 0xd800 ∨ 0xdfff < c.toNat ∧ c.toNat < 0x110000 := c.valid
    omega
  unfold escapeChar
  unfold piecesOf at hfuel ⊢
  cases hshort : shortEscapes.lookup c with
  | some e =>
    obtain ⟨hu, hmeaning⟩ := meanings_shortEscapes (c, e) (lookup_mem hshort)
    simp only [hshort, Option.isSome_some, true_or, if_true, List.length_singleton] at hfuel ⊢
    obtain ⟨fuel, rfl⟩ : ∃ n, fuel = n + 1 := ⟨fuel - 1, by omega⟩
    apply @readPieces_escape [e]
    rw [List.cons_append, readEscape, if_neg hu, hmeaning]
    rfl
  | none =>
    simp only [hshort, Option.isSome_none, Bool.false_eq_true, false_or] at hfuel ⊢
    by_cases hprint : 32 ≤ c.toNat ∧ c.toNat ≤ 126
    · simp only [if_pos hprint, List.length_singleton] at hfuel ⊢
      obtain ⟨fuel, rfl⟩ : ∃ n, fuel = n + 1 := ⟨fuel - 1, by omega⟩
      apply readPieces_char _ _ hprint.1
      · intro hc
        rw [hc] at hshort
        exact absurd hshort (by decide)
      · intro hc
        rw [hc] at hshort
        exact absurd hshort (by decide)
    · simp only [if_neg hprint] at hfuel ⊢
      by_cases hplane : c.toNat < 0x10000
      · simp only [if_pos hplane, List.length_singleton] at hfuel ⊢
        obtain ⟨fuel, rfl⟩ : ∃ n, fuel = n + 1 := ⟨fuel - 1, by omega⟩
        exact readPieces_unit (by omega) fuel text
      · simp only [if_neg hplane, List.length_cons, List.length_nil] at hfuel ⊢
        obtain ⟨fuel, rfl⟩ : ∃ n, fuel = n + 2 := ⟨fuel - 2, by omega⟩
        rw [List.append_assoc, readPieces_unit (by unfold highOf; omega), readPieces_unit (by unfold lowOf; omega), Option.map_map]
        rfl

theorem join_piecesOf (lone : Nat → Char) (c : Char) (pieces : List Piece) : join lone (piecesOf c ++ pieces) = c :: join lone pieces := by
  have hvalid : c.toNat < 0xd800 ∨ 0xdfff < c.toNat ∧ c.toNat < 0x110000 := c.valid
  unfold piecesOf
  split
  · rfl
  split
  · have hplain : (isHigh c.toNat || isLow c.toNat) = false := by
      simp only [isHigh, isLow, Bool.or_eq_false_iff, Bool.and_eq_false_iff, decide_eq_false_iff_not]
      omega
    have hunit : ofUnit lone c.toNat = c := by
      rw [ofUnit, hplain]
      exact Char.ofNat_toNat c
    have hhigh : isHigh c.toNat = false := (Bool.or_eq_false_iff.mp hplain).1
    cases pieces with
    | nil => simp [join, hunit]
    | cons piece pieces =>
      cases piece with
      | char d => simp [join, hunit]
      | unit n => simp [join, hunit, hhigh]
  · rename_i hplane
    have hpair : (isHigh (highOf c) && isLow (lowOf c)) = true := by
      rw [Bool.and_eq_true, isHigh_iff, isLow_iff, highOf, lowOf]
      omega
    have hcode : 0x10000 + (highOf c - 0xd800) * 1024 + (lowOf c - 0xdc00) = c.toNat := by
      unfold highOf lowOf
      omega
    rw [List.cons_append, List.cons_append, List.nil_append, join, if_pos hpair, hcode, Char.ofNat_toNat]

/-! ## Texts -/

theorem piecesOf_length (c : Char) : (piecesOf c).length ≤ (escapeChar c).length := by
  unfold piecesOf escapeChar
  cases shortEscapes.lookup c with
  | some e => simp
  | none =>
    simp only [Option.isSome_none, Bool.false_eq_true, false_or]
    split
    · simp
    split <;> simp [escapeUnit, hexUnit]

theorem readPieces_escapes (text rest : List Char) {fuel : Nat} (hfuel : (escape text).length < fuel) :
    readPieces fuel (escape text ++ '"' :: rest) = some (text.flatMap piecesOf, rest) := by
  induction text generalizing fuel with
  | nil =>
    obtain ⟨fuel, rfl⟩ : ∃ n, fuel = n + 1 := ⟨fuel - 1, by omega⟩
    rfl
  | cons c text ih =>
    have hlength := piecesOf_length c
    have hescape : escape (c :: text) = escapeChar c ++ escape text := List.flatMap_cons
    rw [hescape, List.length_append] at hfuel
    rw [hescape, List.append_assoc, readPieces_escapeChar c _ (by omega), ih (by omega), List.flatMap_cons]
    rfl

/-- A text is read back from its escapes. -/
theorem scanString_escape (lone : Nat → Char) (text rest : List Char) :
    scanString lone (escape text ++ '"' :: rest) = some (text, rest) := by
  have hjoin : join lone (text.flatMap piecesOf) = text := by
    induction text with
    | nil => rfl
    | cons c text ih => rw [List.flatMap_cons, join_piecesOf, ih]
  rw [scanString, readPieces_escapes text rest (by simp), Option.map_some]
  simp only [hjoin]

example : escape "é\n😀".toList = "\\u00e9\\n\\ud83d\\ude00".toList := by decide

end Imghost.Data.JsonString
